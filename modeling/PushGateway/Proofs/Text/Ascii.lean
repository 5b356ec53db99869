import PushGateway.Proofs.Text.ByteOrder

namespace PushGateway.Text

/-- A character below 128 is one byte of the same value. -/
theorem encodeChar_ascii {c : Char} (ascii : c.toNat < 128) : String.utf8EncodeChar c = [UInt8.ofNat c.toNat] := by
  have within : c.val.toNat ≤ 127 := Nat.le_of_lt_succ ascii
  simp only [String.utf8EncodeChar, if_pos within]
  rfl

/-- The last byte of any other character is none below 128. -/
theorem ascii_of_encodeChar {c : Char} (small : ∀ b ∈ String.utf8EncodeChar c, b < 0x80) : c.toNat < 128 := by
  rcases Nat.lt_or_ge c.toNat 128 with ascii | beyond
  · exact ascii
  have outside : ¬ c.val.toNat ≤ 127 := Nat.not_le.mpr beyond
  have tail : UInt8.ofNat (c.val.toNat % 64 + 128) ∈ String.utf8EncodeChar c := by
    simp only [String.utf8EncodeChar, if_neg outside]
    split
    · simp
    split <;> simp
  have below : (UInt8.ofNat (c.val.toNat % 64 + 128)).toNat < 128 := small _ tail
  rw [UInt8.toNat_ofNat'] at below
  omega

/-- A text whose bytes are all below 128 has a character for each of them. -/
theorem toList_of_ascii {text : String} (ascii : ∀ b ∈ utf8 text, b < 0x80) :
    text.toList = (utf8 text).map fun b => Char.ofNat b.toNat := by
  rw [utf8_eq_flatMap] at ascii ⊢
  generalize text.toList = cs at ascii ⊢
  induction cs with
  | nil => rfl
  | cons c cs ih =>
    simp only [List.flatMap_cons, List.forall_mem_append] at ascii
    obtain ⟨first, rest⟩ := ascii
    have small := ascii_of_encodeChar first
    have value : (UInt8.ofNat c.toNat).toNat = c.toNat := by
      rw [UInt8.toNat_ofNat']
      omega
    rw [List.flatMap_cons, encodeChar_ascii small, List.map_append, ← ih rest, List.map_singleton, value,
      Char.ofNat_toNat]
    rfl

end PushGateway.Text
