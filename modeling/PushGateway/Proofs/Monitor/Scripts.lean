import PushGateway.Monitor

namespace PushGateway

namespace Inbound

/-- The bytes that come before the stream ends or fails for good. -/
def delivered : Inbound → Bytes
  | [] => []
  | .bytes bytes :: later => bytes ++ delivered later
  | .failure error _ :: later => if error.isTransient then delivered later else []
  | .ending :: _ => []

/-- Whether a failure ends them. -/
def failsAtEnd : Inbound → Bool
  | [] => false
  | .bytes _ :: later => failsAtEnd later
  | .failure error _ :: later => if error.isTransient then failsAtEnd later else true
  | .ending :: _ => false

/-- What is still to come when this many bytes have been taken. -/
def after (count : Nat) : Inbound → Inbound
  | [] => []
  | arrival :: later =>
    if count = 0 then arrival :: later
    else match arrival with
      | .bytes bytes =>
        if count < bytes.length then .bytes (bytes.drop count) :: later else after (count - bytes.length) later
      | _ => after count later

/-- What one read of at least one byte comes to. -/
inductive Taken (inbound : Inbound) (limit : Nat) : Except IoError Bytes → Inbound → Prop
  | ending {rest} : inbound.delivered = [] → inbound.failsAtEnd = false → Taken inbound limit (.ok []) rest
  | failure {error rest} : error.isTransient = false → inbound.delivered = [] → inbound.failsAtEnd = true →
      Taken inbound limit (.error error) rest
  | delay {error rest} : error.isTransient = true → rest.delivered = inbound.delivered →
      rest.failsAtEnd = inbound.failsAtEnd → (∀ count, 0 < count → rest.after count = inbound.after count) →
      Taken inbound limit (.error error) rest
  | bytes {bytes rest} : bytes ≠ [] → bytes.length ≤ limit → inbound.delivered = bytes ++ rest.delivered →
      rest.failsAtEnd = inbound.failsAtEnd → rest = inbound.after bytes.length →
      Taken inbound limit (.ok bytes) rest

theorem after_zero (inbound : Inbound) : inbound.after 0 = inbound := by
  cases inbound <;> rfl

theorem after_add (first second : Nat) (inbound : Inbound) :
    inbound.after (first + second) = (inbound.after first).after second := by
  rcases Nat.eq_zero_or_pos first with rfl | more
  · rw [Nat.zero_add, after_zero]
  rcases Nat.eq_zero_or_pos second with rfl | further
  · rw [Nat.add_zero, after_zero]
  induction inbound generalizing first with
  | nil => rfl
  | cons arrival later ih =>
    have both : first + second ≠ 0 := by omega
    have one : first ≠ 0 := by omega
    have other : second ≠ 0 := by omega
    cases arrival with
    | failure | ending => simpa only [after, if_neg both, if_neg one] using ih first more
    | bytes bytes =>
      simp only [after, if_neg both, if_neg one]
      by_cases inside : first < bytes.length
      · simp only [if_pos inside, after, if_neg other, List.length_drop, List.drop_drop]
        by_cases still : second < bytes.length - first
        · rw [if_pos still, if_pos (by omega)]
        · have beyond : first + second - bytes.length = second - (bytes.length - first) := by omega
          rw [if_neg still, if_neg (by omega), beyond]
      · have beyond : first + second - bytes.length = first - bytes.length + second := by omega
        rw [if_neg inside, if_neg (by omega), beyond]
        rcases Nat.eq_zero_or_pos (first - bytes.length) with used | left
        · rw [used, Nat.zero_add, after_zero]
        · exact ih _ left

/-- Only what a reader can notice of a script matters. -/
theorem Taken.of_same {inbound other rest : Inbound} {limit : Nat} {answer : Except IoError Bytes}
    (taken : Taken other limit answer rest) (bytes : inbound.delivered = other.delivered)
    (fails : inbound.failsAtEnd = other.failsAtEnd)
    (later : ∀ count, 0 < count → inbound.after count = other.after count) : Taken inbound limit answer rest := by
  cases taken with
  | ending nothing ends => exact .ending (bytes.trans nothing) (fails.trans ends)
  | failure lasting nothing failed => exact .failure lasting (bytes.trans nothing) (fails.trans failed)
  | delay transient same sameEnd left =>
    exact .delay transient (same.trans bytes.symm) (sameEnd.trans fails.symm)
      fun count above => (left count above).trans (later count above).symm
  | bytes some within split sameEnd left =>
    exact .bytes some within (bytes.trans split) (sameEnd.trans fails.symm)
      (left.trans (later _ (List.length_pos_iff.mpr some)).symm)

theorem taken {limit : Nat} (positive : 0 < limit) (inbound : Inbound) :
    Taken inbound limit (inbound.read limit).1 (inbound.read limit).2 := by
  have some : limit ≠ 0 := by omega
  induction inbound with
  | nil => exact .ending rfl rfl
  | cons arrival later ih =>
    cases arrival with
    | ending =>
      simp only [read, if_neg some]
      exact .ending rfl rfl
    | failure error closing =>
      simp only [read, if_neg some]
      cases transient : error.isTransient with
      | true =>
        refine .delay transient (by simp [delivered, transient]) (by simp [failsAtEnd, transient]) ?_
        intro count above
        simp only [after, if_neg (show count ≠ 0 by omega)]
      | false => exact .failure transient (by simp [delivered, transient]) (by simp [failsAtEnd, transient])
    | bytes bytes =>
      cases bytes with
      | nil =>
        simp only [read, if_neg some]
        -- an empty piece is passed over
        have skips : ∀ count, 0 < count → after count (.bytes [] :: later) = after count later := by
          intro count above
          simp only [after, if_neg (show count ≠ 0 by omega)]
          rfl
        exact ih.of_same rfl rfl skips
      | cons first more =>
        simp only [read, if_neg some]
        split
        · rename_i longer
          refine .bytes (by simp [some]) (List.length_take_le ..) ?_ rfl ?_
          · simp only [delivered, ← List.append_assoc, List.take_append_drop]
          · rw [List.length_take_of_le (Nat.le_of_lt longer)]
            simp only [after, if_neg some, if_pos longer]
        · refine .bytes (List.cons_ne_nil first more) (by omega) rfl rfl ?_
          simp only [after, List.length_cons, Nat.succ_ne_zero, if_false, Nat.lt_irrefl, Nat.sub_self]
          exact (after_zero later).symm

end Inbound

/-- A connection whose reads follow a script. Whether it is open is another matter, and may change with
every read. -/
structure ScriptWatch (σ : Type) extends Watch σ where
  script : σ → Inbound
  read_script : ∀ limit s, ∃ s', read limit s = some (((script s).read limit).1, s') ∧
    script s' = ((script s).read limit).2

def ScriptedConnection.scripted : ScriptWatch ScriptedConnection where
  toWatch := watch
  script := inbound
  read_script _ _ := ⟨_, rfl, rfl⟩

end PushGateway
