import Mathlib.Data.List.Basic
import PushGateway.Proofs.Delivery.Journal

namespace PushGateway

open Journal

/-- One thing that a manager and those who write to its connection can do, with what it leaves in the
journal. Before and behind it stand the connection that is held and the number which the next connection
gets. Only a connection that is held is written to, and only notifications are written. A write that
fails costs the connection. -/
inductive Move (endpoint : Endpoint) : Option Nat → Nat → List Entry → Option Nat → Nat → Prop
  | shut (conn next : Nat) : Move endpoint (some conn) next [.shutDown conn] none next
  | refused (error : NetworkError) (next : Nat) : Move endpoint none next [.refused endpoint error] none next
  | made (next : Nat) : Move endpoint none next [.connected endpoint next] (some next) (next + 1)
  | unwatched (next : Nat) :
      Move endpoint none next [.connected endpoint next, .shutDown next] none (next + 1)
  | wrote {n : Notification} {bytes : Bytes} (encoded : n.encode = .ok bytes) (conn next : Nat) :
      Move endpoint (some conn) next [.wrote conn bytes] (some conn) next
  | broke {n : Notification} {bytes : Bytes} (encoded : n.encode = .ok bytes) (error : IoError)
      (conn next : Nat) :
      Move endpoint (some conn) next [.writeFailed conn bytes error, .shutDown conn] none next
  | slept (d : Duration) (held : Option Nat) (next : Nat) : Move endpoint held next [.slept d] held next
  /-- Others make connections. -/
  | elsewhere (held : Option Nat) (next others : Nat) : Move endpoint held next [] held (next + others)

/-- Moves one after the other. -/
inductive Moves (endpoint : Endpoint) (held : Option Nat) (next : Nat) : List Entry → Option Nat → Nat → Prop
  | nothing : Moves endpoint held next [] held next
  | more {entries step held₁ next₁ held₂ next₂} : Moves endpoint held next entries held₁ next₁ →
      Move endpoint held₁ next₁ step held₂ next₂ → Moves endpoint held next (entries ++ step) held₂ next₂

theorem Move.moves {endpoint : Endpoint} {held held' : Option Nat} {next next' : Nat} {step : List Entry}
    (move : Move endpoint held next step held' next') : Moves endpoint held next step held' next' :=
  .more .nothing move

namespace Moves

variable {endpoint : Endpoint} {held held' held'' : Option Nat} {next next' next'' : Nat} {entries more : List Entry}

theorem trans (first : Moves endpoint held next entries held' next')
    (second : Moves endpoint held' next' more held'' next'') :
    Moves endpoint held next (entries ++ more) held'' next'' := by
  induction second with
  | nothing => simpa using first
  | more _ move ih => simpa using ih.more move

/-- The connections held or made were shut down in the order in which they were made, up to the one that
is still held. -/
theorem balance (moves : Moves endpoint held next entries held' next') :
    held.toList ++ made entries = shut entries ++ held'.toList := by
  induction moves with
  | nothing => simp
  | @more entries step held₁ next₁ held₂ next₂ before move ih =>
    have atStep : held₁.toList ++ made step = shut step ++ held₂.toList := by
      cases move <;> simp
    rw [made_append, shut_append, ← List.append_assoc, ih, List.append_assoc, atStep, List.append_assoc]

theorem next_le (moves : Moves endpoint held next entries held' next') : next ≤ next' := by
  induction moves with
  | nothing => exact Nat.le_refl _
  | more _ move ih => cases move <;> omega

/-- The numbers that connections get are used in this order and for nothing else. -/
theorem made_bounds (moves : Moves endpoint held next entries held' next') :
    (made entries).Pairwise (· < ·) ∧ ∀ conn ∈ made entries, next ≤ conn ∧ conn < next' := by
  induction moves with
  | nothing => simp
  | @more entries step held₁ next₁ held₂ next₂ before move ih =>
    obtain ⟨sorted, bounds⟩ := ih
    have passed := before.next_le
    have atStep : (made step = [] ∧ next₁ ≤ next₂) ∨ (made step = [next₁] ∧ next₂ = next₁ + 1) := by
      cases move <;> simp
    rw [made_append]
    rcases atStep with ⟨none, above⟩ | ⟨one, above⟩
    · rw [none, List.append_nil]
      exact ⟨sorted, fun conn member => ⟨(bounds conn member).1, by have := (bounds conn member).2; omega⟩⟩
    · rw [one, List.pairwise_append]
      refine ⟨⟨sorted, List.pairwise_singleton _ _, ?_⟩, ?_⟩
      · intro old member new isNew
        rw [List.mem_singleton.mp isNew]
        exact (bounds old member).2
      · intro conn member
        rcases List.mem_append.mp member with old | new
        · have := bounds conn old
          omega
        · rw [List.mem_singleton.mp new]
          omega

theorem held_mem (moves : Moves endpoint held next entries held' next') {conn : Nat} (holds : held' = some conn) :
    held = some conn ∨ conn ∈ made entries := by
  have member : conn ∈ held.toList ++ made entries := by
    rw [moves.balance, holds]
    simp
  simpa [eq_comm] using member

/-- Nothing is written to a connection that is neither held at the beginning nor made on the way. -/
theorem writes_eq_nil (moves : Moves endpoint held next entries held' next') {conn : Nat}
    (notHeld : held ≠ some conn) (notMade : conn ∉ made entries) : writes conn entries = [] := by
  induction moves with
  | nothing => rfl
  | @more entries step held₁ next₁ held₂ next₂ before move ih =>
    rw [made_append, List.mem_append, not_or] at notMade
    have other : held₁ ≠ some conn := fun holds => (before.held_mem holds).elim notHeld notMade.1
    have atStep : writes conn step = [] := by
      cases move <;> simp_all
    rw [writes_append, ih notMade.1, atStep, List.append_nil]

theorem told_eq_nil (moves : Moves endpoint held next entries held' next') : told entries = [] := by
  induction moves with
  | nothing => rfl
  | more _ move ih => cases move <;> simpa using ih

/-- Locks are taken and given back by clients only. -/
theorem not_isLocking (moves : Moves endpoint held next entries held' next') :
    ∀ entry ∈ entries, entry.isLocking = false := by
  induction moves with
  | nothing => nofun
  | more _ move ih =>
    intro entry member
    rcases List.mem_append.mp member with old | new
    · exact ih entry old
    · cases move <;> simp at new <;> rcases new with rfl | rfl <;> rfl

/-- The next number has not been written to. -/
theorem writes_next (moves : Moves endpoint none next entries held' next') : writes next' entries = [] :=
  moves.writes_eq_nil nofun fun old => Nat.lt_irrefl _ (moves.made_bounds.2 _ old).2

/-- A stream of one who began without a connection. A connection that is still held has seen no failure. -/
theorem regular (moves : Moves endpoint none next entries held' next') (conn : Nat) :
    Regular (writes conn entries) ∧ (held' = some conn → Clean (writes conn entries)) := by
  have nothing : Clean [] := by simp [Clean]
  induction moves with
  | nothing => exact ⟨nothing.regular, fun _ => nothing⟩
  | @more entries step held₁ next₁ held₂ next₂ before move ih =>
    obtain ⟨regular, clean⟩ := ih
    cases move with
    | shut | refused | unwatched => simpa using regular
    | slept | elsewhere => simpa using ⟨regular, clean⟩
    | made =>
      refine ⟨by simpa using regular, ?_⟩
      rintro ⟨⟩
      simpa [before.writes_next] using nothing
    | @wrote n bytes encoded c =>
      by_cases same : c = conn
      · subst same
        have whole : Clean (writes c entries ++ [(bytes, none)]) := by
          intro write member
          rcases List.mem_append.mp member with old | new
          · exact clean rfl write old
          · exact List.mem_singleton.mp new ▸ ⟨rfl, n, encoded⟩
        simpa using ⟨whole.regular, whole⟩
      · simpa [same] using regular
    | @broke n bytes encoded error c =>
      refine ⟨?_, by simp⟩
      by_cases same : c = conn
      · subst same
        exact ⟨writes c entries, [(bytes, some error)], by simp, clean rfl, by simp, by simp⟩
      · simpa [same] using regular

/-- All that was written successfully, told connection by connection. -/
theorem flatMap_written (moves : Moves endpoint none next entries held' next') :
    (made entries).flatMap (written · entries) = successes entries := by
  induction moves with
  | nothing => rfl
  | @more entries step held₁ next₁ held₂ next₂ before move ih =>
    have unused := written_eq_nil before.writes_next
    cases move with
    | shut | refused | slept | elsewhere | broke => simpa using ih
    | made | unwatched => simpa [unused] using ih
    | @wrote n bytes encoded c =>
      -- the connection written to is the last one made, so that its bytes stand at the end
      have order : made entries = shut entries ++ [c] := by simpa using before.balance
      have others : ∀ conn ∈ shut entries, c ≠ conn := by
        have sorted := before.made_bounds.1
        rw [order, List.pairwise_append] at sorted
        intro conn member same
        have := sorted.2.2 conn member c (by simp)
        omega
      have unchanged : (shut entries).flatMap (written · (entries ++ [.wrote c bytes])) =
          (shut entries).flatMap (written · entries) :=
        List.flatMap_congr fun conn member => by simp [others conn member]
      have made' : made (entries ++ [.wrote c bytes]) = shut entries ++ [c] := by simp [order]
      rw [order, List.flatMap_append, List.flatMap_singleton] at ih
      rw [made', List.flatMap_append, List.flatMap_singleton, unchanged, written_append, ← List.append_assoc, ih]
      simp

end Moves
end PushGateway
