import PushGateway.Settings.Reconnect

namespace PushGateway

/-- A counter below some other number can be increased. -/
theorem toNat_add_one_of_lt {used most : UInt32} (below : used < most) : (used + 1).toNat = used.toNat + 1 := by
  have bound := most.toNat_lt
  have : used.toNat < most.toNat := below
  rw [UInt32.toNat_add, UInt32.toNat_one, Nat.mod_eq_of_lt]
  omega

namespace ReconnectRule

/-- How often a connection is handed out under `afterSends`. -/
def mostUses (uses : UInt32) : Nat := max uses.toNat 1

/-- Whether a rule calls for another connection after `uses` uses of this one, which was made `age` nanoseconds
ago. -/
def Spent (uses age : Nat) : ReconnectRule → Prop
  | never => False
  | always => True
  | afterSends n => mostUses n ≤ uses
  | afterDuration d => d.toNanos ≤ age

/-- Whether a rule allows that a connection is used so often. -/
def Permits (uses : Nat) : ReconnectRule → Prop
  | always => uses ≤ 1
  | afterSends n => uses ≤ mostUses n
  | never | afterDuration _ => True

theorem toNat_mostUses (uses : UInt32) : (if uses = 0 then 1 else uses).toNat = mostUses uses := by
  split
  · rename_i zero
    rw [zero]
    rfl
  · rename_i positive
    have : uses.toNat ≠ 0 := fun zero => positive (UInt32.toNat.inj zero)
    simp only [mostUses]
    omega

variable {rule : ReconnectRule} {uses age : Nat}

theorem permits_zero (rule : ReconnectRule) : rule.Permits 0 := by
  cases rule <;> simp [Permits]

theorem permits_one (rule : ReconnectRule) : rule.Permits 1 := by
  cases rule with
  | afterSends n => exact Nat.le_max_right ..
  | never | afterDuration => trivial
  | always => exact Nat.le_refl 1

theorem permits_succ (more : ¬ rule.Spent uses age) : rule.Permits (uses + 1) := by
  cases rule with
  | afterSends n => exact Nat.lt_of_not_le more
  | never | afterDuration => trivial
  | always => exact absurd trivial more

end ReconnectRule

open ReconnectRule

/-- What is remembered under a rule of a connection that was used `uses` times and was made at the moment
`made`. -/
inductive Recalls (uses made : Nat) : ReconnectRule → Reconnect → Prop
  | never : Recalls uses made .never .never
  | always : Recalls uses made .always .always
  | afterSends {n most used : UInt32} : most.toNat = mostUses n → used.toNat = uses → uses ≤ mostUses n →
      Recalls uses made (.afterSends n) (.afterSends most used)
  | afterDuration (age : Duration) : Recalls uses made (.afterDuration age) (.afterDuration age made)

namespace Recalls

variable {rule : ReconnectRule} {policy : Reconnect} {uses made : Nat}

theorem start (rule : ReconnectRule) (now : Nat) : Recalls 0 now rule (rule.start now) := by
  cases rule with
  | never => exact .never
  | always => exact .always
  | afterDuration age => exact .afterDuration age
  | afterSends n => exact .afterSends (toNat_mostUses n) rfl (Nat.zero_le _)

/-- Under `afterSends`, the counter tells the uses and stays within its bound. -/
theorem counter {n : UInt32} (recalls : Recalls uses made (.afterSends n) policy) :
    ∃ most used, policy = .afterSends most used ∧ most.toNat = mostUses n ∧ used.toNat = uses ∧ used ≤ most := by
  cases recalls with
  | @afterSends _ most used most' used' bound =>
    refine ⟨most, used, rfl, most', used', ?_⟩
    rwa [UInt32.le_iff_toNat_le, most', used']

/-- A connection is due to be replaced just when the rule calls for it. -/
theorem isDue_iff (recalls : Recalls uses made rule policy) (now : Nat) :
    (policy.isDue now).1 = true ↔ rule.Spent uses (now - made) := by
  cases recalls with
  | never => simp [Reconnect.isDue, Spent]
  | always => simp [Reconnect.isDue, Spent]
  | afterDuration age => simp [Reconnect.isDue, Spent]
  | @afterSends n most used most' used' _ =>
    simp only [Reconnect.isDue, Spent, ← most', ← used']
    split
    · rename_i reached
      exact iff_of_true rfl reached
    · rename_i below
      exact iff_of_false Bool.false_ne_true below

theorem not_spent (recalls : Recalls uses made rule policy) {now : Nat} (kept : (policy.isDue now).1 = false) :
    ¬ rule.Spent uses (now - made) := by
  intro spent
  rw [(recalls.isDue_iff now).mpr spent] at kept
  cases kept

/-- A question that is answered with no counts as a use. -/
theorem isDue_false (recalls : Recalls uses made rule policy) {now : Nat} (kept : (policy.isDue now).1 = false) :
    Recalls (uses + 1) made rule (policy.isDue now).2 := by
  have more := recalls.not_spent kept
  cases recalls with
  | never => exact .never
  | always => exact absurd trivial more
  | afterDuration age => exact .afterDuration age
  | @afterSends n most used most' used' _ =>
    have below : used.toNat < most.toNat := by
      rw [most', used']
      exact Nat.lt_of_not_le more
    have answer : (Reconnect.afterSends most used).isDue now = (false, .afterSends most (used + 1)) :=
      if_neg (Nat.not_le_of_lt below)
    rw [answer]
    exact .afterSends most' (by rw [toNat_add_one_of_lt below, used']) (by omega)

theorem isDue_true (recalls : Recalls uses made rule policy) {now : Nat} (due : (policy.isDue now).1 = true) :
    Recalls uses made rule (policy.isDue now).2 := by
  have same : (policy.isDue now).2 = policy := by
    cases policy with
    | never | always | afterDuration => rfl
    | afterSends most used =>
      simp only [Reconnect.isDue] at due ⊢
      split at due
      · rw [if_pos ‹_›]
      · cases due
  rwa [same]

theorem asked (recalls : Recalls uses made rule policy) (now : Nat) :
    ∃ uses', Recalls uses' made rule (policy.isDue now).2 := by
  cases due : (policy.isDue now).1 with
  | true => exact ⟨uses, recalls.isDue_true due⟩
  | false => exact ⟨uses + 1, recalls.isDue_false due⟩

theorem connected (recalls : Recalls uses made rule policy) (now : Nat) :
    Recalls 1 now rule (policy.connected now) := by
  cases recalls with
  | never => exact .never
  | always => exact .always
  | afterDuration age => exact .afterDuration age
  | afterSends most' => exact .afterSends most' rfl (Nat.le_max_right ..)

/-- A copy begins to follow the same rule anew. -/
theorem fresh (recalls : Recalls uses made rule policy) (now : Nat) : policy.fresh now = rule.start now := by
  cases recalls with
  | never | always | afterDuration => rfl
  | @afterSends n most used most' =>
    have same : most = if n = 0 then 1 else n := UInt32.toNat.inj (most'.trans (toNat_mostUses n).symm)
    rw [same]
    rfl

end Recalls
end PushGateway
