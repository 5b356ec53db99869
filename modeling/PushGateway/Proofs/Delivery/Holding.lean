import PushGateway.Delivery.Manager
import PushGateway.Proofs.Delivery.Moves

namespace PushGateway.Manager

open Journal

variable {σ π : Type} [Policy π] (net : Network σ)

/-- The number of the connection that is held. -/
def held (m : Manager π) : Option Nat := m.slot.map Held.conn

omit [Policy π] in
theorem held_eq_none {m : Manager π} (empty : m.slot = none) : m.held = none := by
  rw [held, empty]
  rfl

/-- The state that is stored says whether a connection is held. -/
def Settled (m : Manager π) : Prop :=
  m.phase = if m.slot.isSome then .established else .disconnected

/-- From `m` in `w` the manager has come to `m'` in `w'`, and has left `entries` in the journal. -/
structure Leads (m : Manager π) (w : World σ) (entries : List Entry) (m' : Manager π) (w' : World σ) : Prop where
  journal : w'.journal = w.journal ++ entries
  moves : Moves m.endpoint m.held w.connections entries m'.held w'.connections
  opened : m'.opened = m.opened + (made entries).length
  endpoint : m'.endpoint = m.endpoint
  listener : m'.listener = m.listener
  settled : m.Settled → m'.Settled

namespace Leads

variable {m m' m'' : Manager π} {w w' w'' : World σ} {entries more : List Entry}

omit [Policy π] in
theorem refl (m : Manager π) (w : World σ) : Leads m w [] m w :=
  ⟨by simp, .nothing, by simp, rfl, rfl, id⟩

omit [Policy π] in
theorem trans (first : Leads m w entries m' w') (second : Leads m' w' more m'' w'') :
    Leads m w (entries ++ more) m'' w'' where
  journal := by rw [second.journal, first.journal, List.append_assoc]
  moves := first.moves.trans (first.endpoint ▸ second.moves)
  opened := by rw [second.opened, first.opened, made_append, List.length_append, Nat.add_assoc]
  endpoint := second.endpoint.trans first.endpoint
  listener := second.listener.trans first.listener
  settled settled := second.settled (first.settled settled)

end Leads

omit [Policy π] in
theorem close_leads (m : Manager π) (w : World σ) :
    Leads m w (m.held.toList.map .shutDown) (m.close net w).1 (m.close net w).2 := by
  obtain ⟨endpoint, policy, listener, detection, slot, phase, opened⟩ := m
  cases slot with
  | none => exact ⟨(List.append_nil _).symm, .nothing, rfl, rfl, rfl, fun _ => rfl⟩
  | some held => exact ⟨rfl, (Move.shut held.conn w.connections).moves, rfl, rfl, rfl, fun _ => rfl⟩

omit [Policy π] in
theorem state_quiet (m : Manager π) (w : World σ) :
    (m.state net w).2.journal = w.journal ∧ (m.state net w).2.connections = w.connections := by
  unfold state
  split
  · split <;> rename_i asked <;> exact ⟨congrArg (·.2.journal) asked.symm, congrArg (·.2.connections) asked.symm⟩
  · exact ⟨rfl, rfl⟩
  · exact ⟨rfl, rfl⟩

end PushGateway.Manager
