import Mathlib.Data.List.Induction
import PushGateway.NetworkError
import PushGateway.Proofs.Text.Ascii
import PushGateway.Proofs.Text.Digits

namespace PushGateway.Hex

/-- A hexadecimal digit in either case: one of `0` to `9`, of `a` to `f` or of `A` to `F`. -/
def IsDigit (b : UInt8) : Prop := 48 ≤ b ∧ b ≤ 57 ∨ 97 ≤ b ∧ b ≤ 102 ∨ 65 ≤ b ∧ b ≤ 70

instance (b : UInt8) : Decidable (IsDigit b) := inferInstanceAs (Decidable (_ ∨ _ ∨ _))

/-- The leftmost of these bytes that is no digit, and its place. -/
structure LeftmostBad (bytes : Bytes) (byte : UInt8) (index : Nat) : Prop where
  stands : bytes[index]? = some byte
  bad : ¬ IsDigit byte
  before : ∀ b ∈ bytes.take index, IsDigit b

/-- Why a text is not read. Its length is looked at before any digit. -/
inductive Refused (bytes : Bytes) : HexError → Prop
  | odd : bytes.length % 2 = 1 → Refused bytes (.oddLength bytes.length)
  | bad {byte : UInt8} {index : Nat} : bytes.length % 2 = 0 → LeftmostBad bytes byte index →
      Refused bytes (.badDigit byte index)

theorem LeftmostBad.cons {bytes : Bytes} {b byte : UInt8} {index : Nat} (digit : IsDigit b)
    (bad : LeftmostBad bytes byte index) : LeftmostBad (b :: bytes) byte (index + 1) where
  stands := by rw [List.getElem?_cons_succ, bad.stands]
  bad := bad.bad
  before := by
    rw [List.take_succ_cons]
    exact List.forall_mem_cons.mpr ⟨digit, bad.before⟩

theorem LeftmostBad.unique {bytes : Bytes} {byte byte' : UInt8} {index index' : Nat}
    (bad : LeftmostBad bytes byte index) (bad' : LeftmostBad bytes byte' index') : byte = byte' ∧ index = index' := by
  have upTo {byte byte' : UInt8} {index index' : Nat} (bad : LeftmostBad bytes byte index)
      (bad' : LeftmostBad bytes byte' index') : index' ≤ index := by
    rcases Nat.lt_or_ge index index' with less | upTo
    · have member : byte ∈ bytes.take index' :=
        List.mem_of_getElem? (by rw [List.getElem?_take_of_lt less, bad.stands])
      exact absurd (bad'.before byte member) bad.bad
    · exact upTo
  have same : index = index' := Nat.le_antisymm (upTo bad' bad) (upTo bad bad')
  subst same
  exact ⟨Option.some.inj (bad.stands.symm.trans bad'.stands), rfl⟩

theorem LeftmostBad.not_digits {bytes : Bytes} {byte : UInt8} {index : Nat} (bad : LeftmostBad bytes byte index) :
    ¬ ∀ b ∈ bytes, IsDigit b := fun digits => bad.bad (digits byte (List.mem_of_getElem? bad.stands))

/-- The values of all bytes that are digits, with the digit in lower case that stands for the same value. -/
theorem digitValue?_lower : ∀ n < 256, ∀ value, digitValue? (UInt8.ofNat n) = some value →
    value < 16 ∧ digit value = (Char.ofNat n).toLower := by decide +kernel

/-- A digit in lower case is one byte, which has the value of the digit. -/
theorem digitValue?_digit : ∀ value < 16, (digit (UInt8.ofNat value)).toNat < 128 ∧
    digitValue? (UInt8.ofNat (digit (UInt8.ofNat value)).toNat) = some (UInt8.ofNat value) := by decide

/-- What a byte is worth. -/
theorem digitValue?_cases (b : UInt8) :
    (IsDigit b ∧ ∃ value, digitValue? b = some value ∧ value < 16 ∧ digit value = (Char.ofNat b.toNat).toLower) ∨
      (¬ IsDigit b ∧ digitValue? b = none) := by
  have lower := digitValue?_lower b.toNat b.toNat_lt
  rw [UInt8.ofNat_toNat] at lower
  simp only [IsDigit, digitValue?, Bool.and_eq_true, decide_eq_true_eq] at lower ⊢
  split
  · rename_i numeral
    rw [if_pos numeral] at lower
    exact .inl ⟨.inl numeral, _, rfl, lower _ rfl⟩
  rename_i numeral
  rw [if_neg numeral] at lower
  split
  · rename_i small
    rw [if_pos small] at lower
    exact .inl ⟨.inr (.inl small), _, rfl, lower _ rfl⟩
  rename_i small
  rw [if_neg small] at lower
  split
  · rename_i large
    rw [if_pos large] at lower
    exact .inl ⟨.inr (.inr large), _, rfl, lower _ rfl⟩
  · rename_i large
    refine .inr ⟨?_, rfl⟩
    rintro (digit | digit | digit)
    · exact numeral digit
    · exact small digit
    · exact large digit

theorem halves_of_pair {high low : UInt8} (highSmall : high < 16) (lowSmall : low < 16) :
    (high * 16 + low) / 16 = high ∧ (high * 16 + low) % 16 = low := by
  have highBound : high.toNat < 16 := highSmall
  have lowBound : low.toNat < 16 := lowSmall
  have sixteen : (16 : UInt8).toNat = 16 := rfl
  constructor <;> apply UInt8.toNat.inj
  · rw [UInt8.toNat_div, UInt8.toNat_add, UInt8.toNat_mul, sixteen]
    omega
  · rw [UInt8.toNat_mod, UInt8.toNat_add, UInt8.toNat_mul, sixteen]
    omega

/-- What comes of pairs of bytes, the first of which stands at `index`. -/
theorem decodePairs_cases (index : Nat) {bytes : Bytes} (even : bytes.length % 2 = 0) :
    ((∀ b ∈ bytes, IsDigit b) ∧ ∃ read, decodePairs index bytes = .ok read ∧
      (encode read).toList = bytes.map fun b => (Char.ofNat b.toNat).toLower) ∨
    ∃ byte place, LeftmostBad bytes byte place ∧ decodePairs index bytes = .error (.badDigit byte (index + place)) := by
  induction bytes using List.twoStepInduction generalizing index with
  | nil => exact .inl ⟨nofun, [], rfl, rfl⟩
  | singleton b => simp at even
  | cons_cons a b rest ih _ =>
    rcases digitValue?_cases a with ⟨first, high, isHigh, highSmall, highLower⟩ | ⟨bad, none⟩
    case inr =>
      refine .inr ⟨a, 0, ⟨rfl, bad, nofun⟩, ?_⟩
      simp only [decodePairs, none, Nat.add_zero]
    rcases digitValue?_cases b with ⟨second, low, isLow, lowSmall, lowLower⟩ | ⟨bad, none⟩
    case inr =>
      refine .inr ⟨b, 1, ⟨rfl, bad, by simpa using first⟩, ?_⟩
      rw [decodePairs, isHigh, none]
    have evenRest : rest.length % 2 = 0 := by
      simp only [List.length_cons] at even
      omega
    rcases ih (index + 2) evenRest with ⟨digits, read, isRead, lower⟩ | ⟨byte, place, bad, refused⟩
    · obtain ⟨firstHalf, secondHalf⟩ := halves_of_pair highSmall lowSmall
      refine .inl ⟨by simpa [first, second] using digits, (high * 16 + low) :: read, ?_, ?_⟩
      · rw [decodePairs, isHigh, isLow, isRead]
      · rw [toList_encode_cons, firstHalf, secondHalf, highLower, lowLower, lower]
        rfl
    · refine .inr ⟨byte, place + 2, (bad.cons second).cons first, ?_⟩
      rw [decodePairs, isHigh, isLow, refused, Nat.add_right_comm, Nat.add_assoc]

/-- Each byte is written as two digits for its halves. -/
theorem utf8_encode_cons (b : UInt8) (bytes : Bytes) :
    ∃ high low, Text.utf8 (encode (b :: bytes)) = high :: low :: Text.utf8 (encode bytes) ∧
      digitValue? high = some (b / 16) ∧ digitValue? low = some (b % 16) := by
  obtain ⟨high, low, highBound, lowBound⟩ := halves b
  obtain ⟨highAscii, highValue⟩ := digitValue?_digit _ highBound
  obtain ⟨lowAscii, lowValue⟩ := digitValue?_digit _ lowBound
  rw [← high] at highAscii highValue
  rw [← low] at lowAscii lowValue
  refine ⟨_, _, ?_, highValue, lowValue⟩
  rw [Text.utf8_eq_flatMap, toList_encode_cons, List.flatMap_cons, List.flatMap_cons, Text.encodeChar_ascii highAscii,
    Text.encodeChar_ascii lowAscii, Text.utf8_eq_flatMap]
  rfl

theorem length_utf8_encode (bytes : Bytes) : (Text.utf8 (encode bytes)).length = 2 * bytes.length := by
  induction bytes with
  | nil => rfl
  | cons b bytes ih =>
    obtain ⟨high, low, written, _, _⟩ := utf8_encode_cons b bytes
    rw [written, List.length_cons, List.length_cons, List.length_cons, ih]
    omega

theorem decodePairs_encode (index : Nat) (bytes : Bytes) :
    decodePairs index (Text.utf8 (encode bytes)) = .ok bytes := by
  induction bytes generalizing index with
  | nil => rfl
  | cons b bytes ih =>
    obtain ⟨high, low, written, highValue, lowValue⟩ := utf8_encode_cons b bytes
    have whole : b / 16 * 16 + b % 16 = b := by
      have sixteen : (16 : UInt8).toNat = 16 := rfl
      have bound := b.toNat_lt
      apply UInt8.toNat.inj
      rw [UInt8.toNat_add, UInt8.toNat_mul, UInt8.toNat_div, UInt8.toNat_mod, sixteen]
      omega
    rw [written, decodePairs, highValue, lowValue, ih]
    exact congrArg (fun first => Except.ok (first :: bytes)) whole

theorem decode_encode (bytes : Bytes) : decode (encode bytes) = .ok bytes := by
  have even : ¬ (Text.utf8 (encode bytes)).length % 2 = 1 := by
    rw [length_utf8_encode]
    omega
  exact (if_neg even).trans (decodePairs_encode 0 bytes)

theorem Refused.unique {bytes : Bytes} {problem problem' : HexError} (refused : Refused bytes problem)
    (refused' : Refused bytes problem') : problem = problem' := by
  cases refused with
  | odd odd =>
    cases refused' with
    | odd => rfl
    | bad even => omega
  | bad even bad =>
    cases refused' with
    | odd odd => omega
    | bad _ bad' =>
      obtain ⟨rfl, rfl⟩ := bad.unique bad'
      rfl

theorem Refused.not_digits {bytes : Bytes} {problem : HexError} (refused : Refused bytes problem) :
    ¬ (bytes.length % 2 = 0 ∧ ∀ b ∈ bytes, IsDigit b) := by
  rintro ⟨even, digits⟩
  cases refused with
  | odd odd => omega
  | bad _ bad => exact bad.not_digits digits

theorem ascii_of_digits {bytes : Bytes} (digits : ∀ b ∈ bytes, IsDigit b) : ∀ b ∈ bytes, b < 0x80 := by
  intro b member
  rcases digits b member with ⟨_, upTo⟩ | ⟨_, upTo⟩ | ⟨_, upTo⟩ <;> exact UInt8.lt_of_le_of_lt upTo (by decide)

/-- What comes of a text. -/
theorem decode_cases (text : String) :
    ((Text.utf8 text).length % 2 = 0 ∧ (∀ b ∈ Text.utf8 text, IsDigit b) ∧
      ∃ read, decode text = .ok read ∧ encode read = text.toLower) ∨
    ∃ problem, Refused (Text.utf8 text) problem ∧ decode text = .error problem := by
  rcases Nat.mod_two_eq_zero_or_one (Text.utf8 text).length with even | odd
  · have pairs : decode text = decodePairs 0 (Text.utf8 text) := if_neg (by omega)
    rcases decodePairs_cases 0 even with ⟨digits, read, isRead, lower⟩ | ⟨byte, place, bad, refused⟩
    · refine .inl ⟨even, digits, read, pairs.trans isRead, String.toList_inj.mp ?_⟩
      have each : text.toLower.toList = text.toList.map Char.toLower := String.toList_map
      rw [lower, each, Text.toList_of_ascii (ascii_of_digits digits), List.map_map]
      rfl
    · rw [Nat.zero_add] at refused
      exact .inr ⟨_, .bad even bad, pairs.trans refused⟩
  · exact .inr ⟨_, .odd odd, if_pos odd⟩

/-- Hexadecimal texts are read in either case and written in lower case. A text is read exactly if its bytes are
digits and even in number; written again, it is in lower case. Of any other text the number of bytes is told if it is
odd, and else the leftmost byte that is no digit, with its place among the bytes. What is written is read back. -/
theorem decode_iff_digits (text : String) :
    ((∃ read, decode text = .ok read) ↔
      (Text.utf8 text).length % 2 = 0 ∧ ∀ b ∈ Text.utf8 text, IsDigit b) ∧
    (∀ read, decode text = .ok read → encode read = text.toLower) ∧
    (∀ problem, decode text = .error problem ↔ Refused (Text.utf8 text) problem) ∧
    (∀ length, NetworkError.ofHex (.oddLength length) = .invalidHex s!"odd length {length}") ∧
    (∀ byte index, NetworkError.ofHex (.badDigit byte index) =
      .invalidHex s!"invalid character {Text.quoted byte} at {index}") ∧
    ∀ bytes, decode (encode bytes) = .ok bytes ∧ (Text.utf8 (encode bytes)).length = 2 * bytes.length ∧
      ∀ c ∈ (encode bytes).toList, c ∈ "0123456789abcdef".toList := by
  refine ⟨?_, ?_, ?_, fun _ => rfl, fun _ _ => rfl, fun bytes =>
    ⟨decode_encode bytes, length_utf8_encode bytes, (encode_lower bytes).2⟩⟩
  · rcases decode_cases text with ⟨even, digits, read, isRead, _⟩ | ⟨problem, refused, isRefused⟩
    · exact iff_of_true ⟨read, isRead⟩ ⟨even, digits⟩
    · refine iff_of_false ?_ refused.not_digits
      rintro ⟨read, isRead⟩
      rw [isRefused] at isRead
      cases isRead
  · intro read isRead
    rcases decode_cases text with ⟨_, _, read', isRead', lower⟩ | ⟨problem, _, isRefused⟩
    · rw [isRead] at isRead'
      cases isRead'
      exact lower
    · rw [isRead] at isRefused
      cases isRefused
  · intro problem
    rcases decode_cases text with ⟨even, digits, read, isRead, _⟩ | ⟨problem', refused, isRefused⟩
    · rw [isRead]
      exact iff_of_false nofun fun refused => refused.not_digits ⟨even, digits⟩
    · rw [isRefused]
      constructor
      · rintro ⟨⟩
        exact refused
      · exact fun other => congrArg Except.error (refused.unique other)

/-- A text with a character of two bytes behind its first digit, and one in either case. -/
theorem decode_iff_digits_beyond_ascii :
    Refused (Text.utf8 "4é0") (.badDigit 195 1) ∧ decode "4é0" = .error (.badDigit 195 1) ∧
      NetworkError.ofHex (.badDigit 195 1) = .invalidHex "invalid character 'Ã' at 1" ∧
      decode "aB09" = .ok [171, 9] ∧ encode [171, 9] = "ab09" := by
  have bad : LeftmostBad (Text.utf8 "4é0") 195 1 := by
    refine ⟨rfl, by decide, fun b member => ?_⟩
    obtain rfl : b = 52 := List.mem_singleton.mp member
    decide
  have refused : Refused (Text.utf8 "4é0") (.badDigit 195 1) := .bad rfl bad
  have message := (decode_iff_digits "4é0").2.2.2.2.1 195 1
  have isRead : decode "aB09" = .ok [171, 9] := rfl
  have lower := (decode_iff_digits "aB09").2.1 _ isRead
  exact ⟨refused, ((decode_iff_digits "4é0").2.2.1 _).mpr refused, message.trans (by decide), isRead,
    lower.trans (by decide +kernel)⟩

end PushGateway.Hex
