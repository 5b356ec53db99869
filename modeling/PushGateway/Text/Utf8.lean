import PushGateway.Bytes

namespace PushGateway.Text

/-- The bytes of a text in UTF-8. -/
def utf8 (text : String) : Bytes := text.toUTF8.data.toList

@[simp] theorem length_utf8 (text : String) : (utf8 text).length = text.utf8ByteSize := rfl

/-- The bytes 10xxxxxx, which only continue a character. -/
def isTail (b : UInt8) : Bool := 0x80 ≤ b && b ≤ 0xBF

/-- Whether `b` may follow the first byte `a`. Overlong forms, surrogates and
code points above U+10FFFF are excluded here. -/
def canFollow (a b : UInt8) : Bool :=
  if a == 0xE0 then 0xA0 ≤ b && b ≤ 0xBF
  else if a == 0xED then 0x80 ≤ b && b ≤ 0x9F
  else if a == 0xF0 then 0x90 ≤ b && b ≤ 0xBF
  else if a == 0xF4 then 0x80 ≤ b && b ≤ 0x8F
  else isTail b

def replacement : Char := '\uFFFD'

/-- The character at the front of `a :: rest`, and how many bytes of `rest` it takes. The longest
beginning of a character that is not completed counts as one replacement character. -/
def lossyChar (a : UInt8) (rest : Bytes) : Char × Nat :=
  let low (b : UInt8) : Nat := b.toNat % 64
  if a < 0x80 then (Char.ofNat a.toNat, 0)
  else if 0xC2 ≤ a && a ≤ 0xDF then
    match rest with
    | b :: _ => if isTail b then (Char.ofNat (a.toNat % 32 * 64 + low b), 1) else (replacement, 0)
    | [] => (replacement, 0)
  else if 0xE0 ≤ a && a ≤ 0xEF then
    match rest with
    | b :: c :: _ =>
      if !canFollow a b then (replacement, 0)
      else if isTail c then (Char.ofNat (a.toNat % 16 * 4096 + low b * 64 + low c), 2)
      else (replacement, 1)
    | [b] => (replacement, if canFollow a b then 1 else 0)
    | [] => (replacement, 0)
  else if 0xF0 ≤ a && a ≤ 0xF4 then
    match rest with
    | b :: c :: d :: _ =>
      if !canFollow a b then (replacement, 0)
      else if !isTail c then (replacement, 1)
      else if isTail d then
        (Char.ofNat (a.toNat % 8 * 262144 + low b * 4096 + low c * 64 + low d), 3)
      else (replacement, 2)
    | [b, c] => (replacement, if !canFollow a b then 0 else if isTail c then 2 else 1)
    | [b] => (replacement, if canFollow a b then 1 else 0)
    | [] => (replacement, 0)
  else (replacement, 0)

/-- Reads bytes as UTF-8, with a replacement character for what is none. -/
def lossy : Bytes → List Char
  | [] => []
  | a :: rest =>
    let (c, taken) := lossyChar a rest
    c :: lossy (rest.drop taken)
termination_by bytes => bytes.length
decreasing_by simp only [List.length_cons, List.length_drop]; omega

/-- Bytes below 128 are characters by themselves. -/
theorem lossy_ascii {bytes : Bytes} (ascii : ∀ b ∈ bytes, b < 0x80) :
    lossy bytes = bytes.map fun b => Char.ofNat b.toNat := by
  induction bytes with
  | nil => rw [lossy, List.map_nil]
  | cons b bytes ih =>
    have first : b < 0x80 := ascii b List.mem_cons_self
    have rest := ih fun c member => ascii c (List.mem_cons_of_mem b member)
    have taken : lossyChar b bytes = (Char.ofNat b.toNat, 0) := by
      unfold lossyChar
      exact if_pos first
    simp only [lossy, taken, List.drop_zero, rest, List.map_cons]

end PushGateway.Text
