import PushGateway.Text.Utf8

namespace PushGateway.Text

/-- The bytes of a text are those of its characters. -/
theorem utf8_eq_flatMap (text : String) : utf8 text = text.toList.flatMap String.utf8EncodeChar := by
  rw [utf8, String.toUTF8, ← String.utf8Encode_toList, List.utf8Encode, List.data_toByteArray]

theorem utf8_append (a b : String) : utf8 (a ++ b) = utf8 a ++ utf8 b := by
  rw [utf8_eq_flatMap, utf8_eq_flatMap, utf8_eq_flatMap, String.toList_append, List.flatMap_append]

theorem utf8_inj {a b : String} (same : utf8 a = utf8 b) : a = b :=
  String.toByteArray_inj.mp (ByteArray.ext (Array.toList_inj.mp same))

theorem ofNat_cons_lt {m n : Nat} (less : m < n) (bound : n < 256) (behind behind' : Bytes) :
    UInt8.ofNat m :: behind < UInt8.ofNat n :: behind' := by
  have first : UInt8.ofNat m < UInt8.ofNat n := by
    rw [UInt8.lt_iff_toNat_lt, UInt8.toNat_ofNat', UInt8.toNat_ofNat']
    omega
  exact List.cons_lt_cons_iff.mpr (.inl first)

/-- Numbers that are written with six bits in their last byte are compared by the bytes in front of it first. -/
theorem append_tail_lt {v w : Nat} (less : v < w) {front front' : Bytes}
    (higher : v / 64 < w / 64 → ∀ behind behind', front ++ behind < front' ++ behind')
    (same : v / 64 = w / 64 → front = front') (behind behind' : Bytes) :
    front ++ UInt8.ofNat (v % 64 + 128) :: behind < front' ++ UInt8.ofNat (w % 64 + 128) :: behind' := by
  rcases Nat.lt_or_eq_of_le (Nat.div_le_div_right (c := 64) (Nat.le_of_lt less)) with above | equal
  · exact higher above _ _
  · rw [same equal]
    exact List.append_left_lt (ofNat_cons_lt (by omega) (by omega) behind behind')

/-- The bytes of two characters are in the order of the characters, whatever follows them. -/
theorem encodeChar_lt {c d : Char} (less : c < d) (behind behind' : Bytes) :
    String.utf8EncodeChar c ++ behind < String.utf8EncodeChar d ++ behind' := by
  have order : c.val.toNat < d.val.toNat := less
  have bound : d.val.toNat < 1114112 := by
    rcases d.valid with low | high
    · exact Nat.lt_trans low (by decide)
    · exact high.2
  unfold String.utf8EncodeChar
  generalize c.val.toNat = v at order
  generalize d.val.toNat = w at order bound
  have squared (n : Nat) : n / 4096 = n / 64 / 64 := by omega
  have cubed (n : Nat) : n / 262144 = n / 64 / 64 / 64 := by omega
  simp only
  by_cases one : w ≤ 127
  · rw [if_pos one, if_pos (by omega)]
    exact ofNat_cons_lt order (by omega) _ _
  rw [if_neg one]
  by_cases two : w ≤ 2047
  · rw [if_pos two]
    split
    · exact ofNat_cons_lt (by omega) (by omega) _ _
    · rw [if_pos (by omega)]
      refine @append_tail_lt v w order [_] [_] (fun less => ?_) (fun same => by rw [same]) behind behind'
      exact ofNat_cons_lt (by omega) (by omega)
  rw [if_neg two]
  by_cases three : w ≤ 65535
  · rw [if_pos three]
    split
    · exact ofNat_cons_lt (by omega) (by omega) _ _
    split
    · exact ofNat_cons_lt (by omega) (by omega) _ _
    · rw [if_pos (by omega), squared, squared]
      refine @append_tail_lt v w order [_, _] [_, _] (fun less => ?_) (fun same => by rw [same]) behind behind'
      refine @append_tail_lt _ _ less [_] [_] (fun less => ?_) (fun same => by rw [same])
      exact ofNat_cons_lt (by omega) (by omega)
  rw [if_neg three]
  split
  · exact ofNat_cons_lt (by omega) (by omega) _ _
  split
  · exact ofNat_cons_lt (by omega) (by omega) _ _
  split
  · exact ofNat_cons_lt (by omega) (by omega) _ _
  · rw [cubed, cubed, squared, squared]
    refine @append_tail_lt v w order [_, _, _] [_, _, _] (fun less => ?_) (fun same => by rw [same]) behind behind'
    refine @append_tail_lt _ _ less [_, _] [_, _] (fun less => ?_) (fun same => by rw [same])
    refine @append_tail_lt _ _ less [_] [_] (fun less => ?_) (fun same => by rw [same])
    exact ofNat_cons_lt (by omega) (by omega)

/-- Texts are in the order of their bytes. -/
theorem utf8_lt {a b : String} (less : a < b) : utf8 a < utf8 b := by
  rw [utf8_eq_flatMap, utf8_eq_flatMap]
  have order : a.toList < b.toList := String.lt_iff.mp less
  generalize a.toList = cs, b.toList = ds at order
  induction order with
  | @nil d ds =>
    obtain ⟨b, more, begins⟩ := List.exists_cons_of_ne_nil (String.utf8EncodeChar_ne_nil (c := d))
    rw [List.flatMap_nil, List.flatMap_cons, begins]
    exact List.nil_lt_cons ..
  | @rel c cs d ds less =>
    rw [List.flatMap_cons, List.flatMap_cons]
    exact encodeChar_lt less _ _
  | @cons c cs ds order ih =>
    rw [List.flatMap_cons, List.flatMap_cons]
    exact List.append_left_lt ih

end PushGateway.Text
