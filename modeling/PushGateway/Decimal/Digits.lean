namespace PushGateway.Decimal

/-- The decimal digit of a number below 10. -/
def digitChar (n : Nat) : Char := Char.ofNat (48 + n)

def isDigit (c : Char) : Bool := '0' ≤ c && c ≤ '9'

def digitValue (c : Char) : Nat := c.toNat - 48

/-- The decimal digits of a number, without leading zeros. -/
def digits (n : Nat) : List Char :=
  if n < 10 then [digitChar n] else digits (n / 10) ++ [digitChar (n % 10)]

/-- The number that a run of digits denotes behind the digits of `n`. -/
def value (n : Nat) (ds : List Char) : Nat :=
  ds.foldl (fun n d => n * 10 + digitValue d) n

def text (n : Nat) : String := String.ofList (digits n)

theorem digitChar_val {n : Nat} (small : n < 10) : (digitChar n).toNat = 48 + n := by
  have valid : (48 + n).isValidChar := Or.inl (by omega)
  rw [digitChar, Char.ofNat, dif_pos valid]
  rfl

theorem isDigit_digitChar {n : Nat} (small : n < 10) : isDigit (digitChar n) := by
  have same := digitChar_val small
  simp only [isDigit, Bool.and_eq_true, decide_eq_true_eq, Char.le_def, UInt32.le_iff_toNat_le]
  simp only [Char.toNat] at same
  rw [same]
  exact ⟨by simp, by simp; omega⟩

theorem digitValue_digitChar {n : Nat} (small : n < 10) : digitValue (digitChar n) = n := by
  rw [digitValue, digitChar_val small]
  omega

theorem value_append (n : Nat) (ds es : List Char) : value n (ds ++ es) = value (value n ds) es :=
  List.foldl_append

theorem value_digits (n : Nat) : value 0 (digits n) = n := by
  induction n using Nat.strongRecOn with
  | _ n ih =>
    rw [digits]
    split
    · rename_i small
      simp [value, digitValue_digitChar small]
    · rw [value_append, ih _ (by omega)]
      simp only [value, List.foldl_cons, List.foldl_nil, digitValue_digitChar (Nat.mod_lt n (by decide : 0 < 10))]
      omega

theorem isDigit_of_mem_digits {n : Nat} {c : Char} (member : c ∈ digits n) : isDigit c := by
  induction n using Nat.strongRecOn with
  | _ n ih =>
    rw [digits] at member
    split at member
    · rename_i small
      rw [List.mem_singleton.mp member]
      exact isDigit_digitChar small
    · rcases List.mem_append.mp member with early | last
      · exact ih _ (by omega) early
      · rw [List.mem_singleton.mp last]
        exact isDigit_digitChar (Nat.mod_lt n (by decide))

theorem digits_ne_nil (n : Nat) : digits n ≠ [] := by
  rw [digits]
  split <;> simp

end PushGateway.Decimal
