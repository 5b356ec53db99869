import Mathlib.Logic.Function.Iterate
import PushGateway.Proofs.Delivery.Acquired

namespace PushGateway.Manager

open Journal

variable {σ π : Type} [Policy π] (net : Network σ)

/-- What can happen to a manager and around it. -/
inductive Op (σ : Type)
  | acquire
  | close
  /-- All around changes in any way, and others make connections. -/
  | elsewhere (outside : σ) (others : Nat)

def perform (m : Manager π) (w : World σ) : Op σ → Manager π × World σ
  | .acquire => (m.acquire net w).2
  | .close => m.close net w
  | .elsewhere outside others => (m, { w with outside, connections := w.connections + others })

def performAll (m : Manager π) (w : World σ) : List (Op σ) → Manager π × World σ
  | [] => (m, w)
  | op :: ops => performAll (m.perform net w op).1 (m.perform net w op).2 ops

theorem perform_leads (m : Manager π) (w : World σ) (op : Op σ) :
    ∃ entries, Leads m w entries (m.perform net w op).1 (m.perform net w op).2 := by
  cases op with
  | acquire =>
    rcases run : m.acquire net w with ⟨answer, m', w'⟩
    obtain ⟨_, entries, leads, _⟩ := acquire_leaves net run
    exact ⟨entries, by rwa [perform, run]⟩
  | close => exact ⟨_, close_leads net m w⟩
  | elsewhere outside others =>
    exact ⟨[], by simp [perform], (Move.elsewhere m.held w.connections others).moves, rfl, rfl, rfl, id⟩

theorem performAll_leads (m : Manager π) (w : World σ) (ops : List (Op σ)) :
    ∃ entries, Leads m w entries (m.performAll net w ops).1 (m.performAll net w ops).2 := by
  induction ops generalizing m w with
  | nil => exact ⟨[], .refl m w⟩
  | cons op ops ih =>
    obtain ⟨entries, first⟩ := perform_leads net m w op
    obtain ⟨more, second⟩ := ih (m.perform net w op).1 (m.perform net w op).2
    exact ⟨entries ++ more, first.trans second⟩

omit [Policy π] in
/-- A manager says that it is connected just when it holds a connection that is open. -/
theorem state_of_settled {m : Manager π} (settled : m.Settled) (w : World σ) :
    ((m.state net w).1 = .established ∧ ∃ conn, m.held = some conn ∧ (w.isOpen net conn).1 = true) ∨
      ((m.state net w).1 = .disconnected ∧ ∀ conn, m.held = some conn → (w.isOpen net conn).1 = false) := by
  obtain ⟨endpoint, policy, listener, detection, slot, phase, opened⟩ := m
  cases slot with
  | none =>
    cases settled
    exact .inr ⟨rfl, nofun⟩
  | some held =>
    cases settled
    rcases answer : w.isOpen net held.conn with ⟨_ | _, w₁⟩
    · refine .inr ⟨by simp [state, answer], ?_⟩
      rintro conn ⟨⟩
      rw [answer]
    · exact .inl ⟨by simp [state, answer], held.conn, rfl, by rw [answer]⟩

/-- What holds of a manager and its journal at any time. -/
structure Sound (m : Manager π) (w : World σ) : Prop where
  /-- All connections that it made were shut down by it, in order, up to the one that is held, which is the
  last one. -/
  balance : made w.journal = shut w.journal ++ m.held.toList
  distinct : (made w.journal).Pairwise (· < ·)
  opened : m.opened = (made w.journal).length
  /-- Seen from outside it is connected or not, and it is just when it holds a connection that is open. -/
  state_cases : (m.state net w).1 = .established ∨ (m.state net w).1 = .disconnected
  established_iff : (m.state net w).1 = .established ↔ ∃ conn, m.held = some conn ∧ (w.isOpen net conn).1 = true
  /-- After an acquire that failed nothing is held, and all that was ever made is shut down. -/
  of_error : ∀ {error m' w'}, m.acquire net w = (.error error, m', w') →
    m'.slot = none ∧ (∀ w'' : World σ, (m'.state net w'').1 = .disconnected) ∧
      made w'.journal = shut w'.journal
  /-- An acquire hands out what it then holds: the connection held before, if that is open and not due to be
  replaced, or a new one. -/
  of_ok : ∀ {conn m' w'}, m.acquire net w = (.ok conn, m', w') → m'.held = some conn ∧
    ((m.held = some conn ∧ (Policy.isDue (w.now net) m.policy).1 = false ∧ (w.isOpen net conn).1 = true ∧
        w'.journal = w.journal) ∨
      (conn ∉ made w.journal ∧ made w'.journal = made w.journal ++ [conn] ∧
        shut w'.journal = made w.journal))
  closing : ∀ times, (fun s : Manager π × World σ => s.1.close net s.2)^[times + 1] (m, w) = m.close net w
  /-- Nothing that it made outlives it. -/
  dropping : made (m.drop net w).journal = made w.journal ∧ shut (m.drop net w).journal = made w.journal

omit [Policy π] in
theorem close_close (m : Manager π) (w : World σ) :
    (m.close net w).1.close net (m.close net w).2 = m.close net w := rfl

omit [Policy π] in
/-- Dropping a manager adds no connection and shuts down the one that is held. -/
theorem journal_drop (m : Manager π) (w : World σ) :
    made (m.drop net w).journal = made w.journal ∧
      shut (m.drop net w).journal = shut w.journal ++ m.held.toList := by
  have journal : (m.drop net w).journal = w.journal ++ m.held.toList.map .shutDown := (close_leads net m w).journal
  rw [journal]
  cases m.held <;> simp

section balance
variable {m m' : Manager π} {w w' : World σ}

theorem acquire_error_balance {error : NetworkError} (balance : made w.journal = shut w.journal ++ m.held.toList)
    (run : m.acquire net w = (.error error, m', w')) : made w'.journal = shut w'.journal := by
  obtain ⟨empty, entries, leads⟩ := acquire_error net run
  have after : m.held.toList ++ made entries = shut entries := by
    simpa [held_eq_none empty] using leads.moves.balance
  rw [leads.journal, made_append, shut_append, balance, List.append_assoc, after]

theorem acquire_ok_balance {conn : Nat} (balance : made w.journal = shut w.journal ++ m.held.toList)
    (run : m.acquire net w = (.ok conn, m', w')) : m'.held = some conn ∧
      ((m.held = some conn ∧ (Policy.isDue (w.now net) m.policy).1 = false ∧ (w.isOpen net conn).1 = true ∧
          w'.journal = w.journal) ∨
        (conn = w.connections ∧ made w'.journal = made w.journal ++ [conn] ∧
          shut w'.journal = made w.journal)) := by
  obtain ⟨holds, entries, leads, ⟨before, nothing, fresh, isOpen⟩ | ⟨new, one⟩⟩ := acquire_ok net run
  · refine ⟨holds, .inl ⟨before, fresh, isOpen, ?_⟩⟩
    rw [leads.journal, nothing, List.append_nil]
  · have after := leads.moves.balance
    rw [holds, one, Option.toList_some] at after
    refine ⟨holds, .inr ⟨new, ?_, ?_⟩⟩
    · rw [leads.journal, made_append, one]
    · rw [leads.journal, shut_append, balance, List.append_cancel_right after]

end balance

/-- A manager that comes from one without a connection and from an empty journal. -/
theorem Leads.sound {m m' : Manager π} {w w' : World σ} (leads : Leads m w w'.journal m' w')
    (empty : m.held = none) (settled : m.Settled) (unused : m.opened = 0) : m'.Sound net w' := by
  have moves := empty ▸ leads.moves
  have balance : made w'.journal = shut w'.journal ++ m'.held.toList := by simpa using moves.balance
  have state := state_of_settled net (leads.settled settled) w'
  refine ⟨balance, moves.made_bounds.1, by rw [leads.opened, unused, Nat.zero_add], state.imp And.left And.left,
    ?_, ?_, ?_, ?_, ?_⟩
  · rcases state with ⟨isEstablished, holds⟩ | ⟨isDisconnected, closed⟩
    · exact iff_of_true isEstablished holds
    · refine iff_of_false (by rw [isDisconnected]; decide) ?_
      rintro ⟨conn, holds, isOpen⟩
      rw [closed conn holds] at isOpen
      cases isOpen
  · intro error m'' w'' run
    obtain ⟨nowEmpty, entries, next⟩ := acquire_error net run
    refine ⟨nowEmpty, fun later => ?_, acquire_error_balance net balance run⟩
    rcases state_of_settled net (next.settled (leads.settled settled)) later with
      ⟨_, conn, holds, _⟩ | ⟨isDisconnected, _⟩
    · rw [held_eq_none nowEmpty] at holds
      cases holds
    · exact isDisconnected
  · intro conn m'' w'' run
    obtain ⟨holds, same | ⟨new, more, before⟩⟩ := acquire_ok_balance net balance run
    · exact ⟨holds, .inl same⟩
    · refine ⟨holds, .inr ⟨fun old => ?_, more, before⟩⟩
      have := (moves.made_bounds.2 conn old).2
      omega
  · intro times
    rw [Function.iterate_succ_apply]
    exact Function.iterate_fixed (close_close net m' w') times
  · obtain ⟨sameMade, allShut⟩ := journal_drop net m' w'
    exact ⟨sameMade, by rw [allShut, balance]⟩

/-- A manager keeps its connections in order, whatever is asked of it and whatever happens around it. -/
theorem performAll_sound (endpoint : Endpoint) (policy : π) (listener : Listener) (detection : Bool)
    (outside : σ) (connections : Nat) (ops : List (Op σ)) :
    let (m, w) := performAll net { endpoint, policy, listener, detection } { outside, connections } ops
    m.Sound net w := by
  obtain ⟨entries, leads⟩ :=
    performAll_leads net { endpoint, policy, listener, detection } { outside, connections } ops
  have journal := leads.journal
  rw [List.nil_append] at journal
  rw [← journal] at leads
  exact leads.sound net rfl rfl rfl

end PushGateway.Manager
