namespace PushGateway

/-- What travels on a connection. -/
abbrev Bytes := List UInt8

namespace Bytes

/-- The most bytes that a 16-bit length can announce. -/
def fieldLimit : Nat := 65535

/-- The two bytes of a 16-bit word, most significant first. -/
def ofWord16 (n : UInt16) : Bytes :=
  [UInt8.ofNat (n.toNat / 256), n.toUInt8]

/-- The four bytes of a 32-bit word, most significant first. -/
def ofWord32 (n : UInt32) : Bytes :=
  [UInt8.ofNat (n.toNat / 16777216), UInt8.ofNat (n.toNat / 65536), UInt8.ofNat (n.toNat / 256), n.toUInt8]

/-- The word whose two bytes are given, most significant first. -/
def word16 (a b : UInt8) : UInt16 :=
  UInt16.ofNat (a.toNat * 256 + b.toNat)

/-- The word whose four bytes are given, most significant first. -/
def word32 (a b c d : UInt8) : UInt32 :=
  UInt32.ofNat (a.toNat * 16777216 + b.toNat * 65536 + c.toNat * 256 + d.toNat)

@[simp] theorem length_ofWord16 (n : UInt16) : (ofWord16 n).length = 2 := rfl

@[simp] theorem length_ofWord32 (n : UInt32) : (ofWord32 n).length = 4 := rfl

@[simp] theorem word16_bytes (n : UInt16) : word16 (UInt8.ofNat (n.toNat / 256)) n.toUInt8 = n := by
  have bound := n.toNat_lt
  apply UInt16.toNat.inj
  simp only [word16, UInt8.toNat_ofNat', UInt16.toNat_toUInt8, UInt16.toNat_ofNat']
  omega

@[simp] theorem word32_bytes (n : UInt32) :
    word32 (UInt8.ofNat (n.toNat / 16777216)) (UInt8.ofNat (n.toNat / 65536))
      (UInt8.ofNat (n.toNat / 256)) n.toUInt8 = n := by
  have bound := n.toNat_lt
  apply UInt32.toNat.inj
  simp only [word32, UInt8.toNat_ofNat', UInt32.toNat_toUInt8, UInt32.toNat_ofNat']
  omega

theorem ofWord16_word16 (a b : UInt8) : ofWord16 (word16 a b) = [a, b] := by
  have first := a.toNat_lt
  have second := b.toNat_lt
  simp only [ofWord16, word16, List.cons.injEq, and_true]
  constructor <;> apply UInt8.toNat.inj <;>
    simp only [UInt8.toNat_ofNat', UInt16.toNat_toUInt8, UInt16.toNat_ofNat'] <;> omega

theorem ofWord32_word32 (a b c d : UInt8) : ofWord32 (word32 a b c d) = [a, b, c, d] := by
  have first := a.toNat_lt
  have second := b.toNat_lt
  have third := c.toNat_lt
  have fourth := d.toNat_lt
  simp only [ofWord32, word32, List.cons.injEq, and_true]
  refine ⟨?_, ?_, ?_, ?_⟩ <;> apply UInt8.toNat.inj <;>
    simp only [UInt8.toNat_ofNat', UInt32.toNat_toUInt8, UInt32.toNat_ofNat'] <;> omega

end Bytes
end PushGateway
