import PushGateway.Text.Hex

namespace PushGateway.Hex

/-- The digits in lower case, each at the place that is its value. -/
def digits : List Char := "0123456789abcdef".toList

theorem digits_getElem? : ∀ value < 16, digits[value]? = some (digit (UInt8.ofNat value)) := by decide

theorem digits_nodup : digits.Nodup := by decide

/-- A byte as the values of its two digits. -/
theorem halves (b : UInt8) : b / 16 = UInt8.ofNat (b.toNat / 16) ∧ b % 16 = UInt8.ofNat (b.toNat % 16) ∧
    b.toNat / 16 < 16 ∧ b.toNat % 16 < 16 := by
  have bound := b.toNat_lt
  refine ⟨?_, ?_, by omega, by omega⟩ <;> apply UInt8.toNat.inj
  · rw [UInt8.toNat_div, UInt8.toNat_ofNat']
    show b.toNat / 16 = _
    omega
  · rw [UInt8.toNat_mod, UInt8.toNat_ofNat']
    show b.toNat % 16 = _
    omega

/-- Which digit stands for which half of a byte. -/
theorem digits_halves (b : UInt8) :
    digits[b.toNat / 16]? = some (digit (b / 16)) ∧ digits[b.toNat % 16]? = some (digit (b % 16)) := by
  obtain ⟨high, low, highBound, lowBound⟩ := halves b
  rw [high, low]
  exact ⟨digits_getElem? _ highBound, digits_getElem? _ lowBound⟩

theorem byte_inj {a b : UInt8} (high : digit (a / 16) = digit (b / 16)) (low : digit (a % 16) = digit (b % 16)) :
    a = b := by
  obtain ⟨aHigh, aLow⟩ := digits_halves a
  obtain ⟨bHigh, bLow⟩ := digits_halves b
  obtain ⟨_, _, highBound, lowBound⟩ := halves a
  have sameHigh : a.toNat / 16 = b.toNat / 16 :=
    (List.getElem?_inj highBound digits_nodup).mp (by rw [aHigh, bHigh, high])
  have sameLow : a.toNat % 16 = b.toNat % 16 := (List.getElem?_inj lowBound digits_nodup).mp (by rw [aLow, bLow, low])
  apply UInt8.toNat.inj
  omega

theorem toList_encode_cons (b : UInt8) (bytes : Bytes) :
    (encode (b :: bytes)).toList = digit (b / 16) :: digit (b % 16) :: (encode bytes).toList := by
  simp only [encode, String.toList_ofList, List.flatMap_cons, List.cons_append, List.nil_append]

/-- Different byte strings have different texts. -/
theorem encode_inj {bytes others : Bytes} (same : encode bytes = encode others) : bytes = others := by
  have texts := congrArg String.toList same
  clear same
  induction bytes generalizing others with
  | nil =>
    cases others with
    | nil => rfl
    | cons => rw [toList_encode_cons] at texts; cases texts
  | cons b bytes ih =>
    cases others with
    | nil => rw [toList_encode_cons] at texts; cases texts
    | cons other others =>
      rw [toList_encode_cons, toList_encode_cons] at texts
      obtain ⟨high, more⟩ := List.cons.inj texts
      obtain ⟨low, rest⟩ := List.cons.inj more
      rw [byte_inj high low, ih rest]

/-- Every byte takes two digits, which are in lower case. -/
theorem encode_lower (bytes : Bytes) :
    (encode bytes).length = 2 * bytes.length ∧ ∀ c ∈ (encode bytes).toList, c ∈ digits := by
  rw [← String.length_toList]
  induction bytes with
  | nil => exact ⟨rfl, nofun⟩
  | cons b bytes ih =>
    obtain ⟨length, lower⟩ := ih
    obtain ⟨high, low⟩ := digits_halves b
    rw [toList_encode_cons]
    refine ⟨by simp only [List.length_cons, length]; omega, fun c member => ?_⟩
    rcases List.mem_cons.mp member with rfl | more
    · exact List.mem_of_getElem? high
    rcases List.mem_cons.mp more with rfl | rest
    · exact List.mem_of_getElem? low
    · exact lower c rest

end PushGateway.Hex
