import Mathlib.Algebra.Ring.Nat
import PushGateway.Proofs.Feedback.Records
import PushGateway.Proofs.Wire.Grammar

namespace PushGateway

namespace Wire

/-- A sum of lengths that is formed from left to right in words of so many bits. There is none once it has
outgrown a word. -/
def wordSum (bits : Nat) (lengths : List Nat) : Option Nat :=
  lengths.foldlM (fun sum length => if sum + length < 2 ^ bits then some (sum + length) else none) 0

/-- Lengths do not shrink a sum, so that one that fits in the end has fitted all the time. -/
theorem wordSum_eq {bits : Nat} {lengths : List Nat} (fits : lengths.sum < 2 ^ bits) :
    wordSum bits lengths = some lengths.sum := by
  have goesOn (start : Nat) (fits : start + lengths.sum < 2 ^ bits) :
      lengths.foldlM (fun sum length => if sum + length < 2 ^ bits then some (sum + length) else none) start =
        some (start + lengths.sum) := by
    induction lengths generalizing start with
    | nil => rfl
    | cons length lengths ih =>
      rw [List.sum_cons] at fits ⊢
      have first : start + length < 2 ^ bits := by omega
      have later : start + length + lengths.sum < 2 ^ bits := by omega
      rw [List.foldlM_cons, if_pos first, ← Nat.add_assoc]
      exact ih (by omega) (start + length) later
  rw [wordSum, goesOn 0 (by omega), Nat.zero_add]

/-- The bytes of an item in a frame: its code, the length of its content, its content. -/
def RawItem.extent (raw : RawItem) : Nat := 3 + raw.body.length

theorem length_laid (raws : List RawItem) : (laid raws).length = (raws.map RawItem.extent).sum := by
  induction raws with
  | nil => rfl
  | cons raw raws ih =>
    rw [laid_cons, List.map_cons, List.sum_cons, ← ih, RawItem.extent]
    simp only [List.length_cons, List.length_append, length_counted]
    omega

end Wire

namespace Notification

open Wire

/-- The sums of lengths that are formed while a notification is encoded. -/
def encodingSums (n : Notification) : List (List Nat) :=
  match n.format with
  | .legacy => [[1, 2, n.token.length, 2, n.payload.length]]
  | .enhanced .. => [[1, 4, 4, 2, n.token.length, 2, n.payload.length]]
  | .framed .. => [[5 * 3, n.token.length, n.payload.length, 4, 4, 1], [1, 4, frameLength n]]

/-- The sums that are formed while its length is said without encoding it. -/
def lengthSums (n : Notification) : List (List Nat) :=
  let fields := n.token.length + n.payload.length
  match n.format with
  | .legacy => [[n.token.length, n.payload.length], [1, 2, 2, fields]]
  | .enhanced .. => [[n.token.length, n.payload.length], [1, 4, 4, 2, 2, fields]]
  | .framed .. => [[n.token.length, n.payload.length], [1, 4, 5 * 3, fields, 4, 4, 1]]

/-- Bytes of the predicted length that begin with the command. In a frame four bytes say how many follow them, and
these are cut with nothing left over into the five items that have a meaning, whose lengths add up to that. -/
structure Measured (n : Notification) (bytes : Bytes) : Prop where
  length : bytes.length = n.encodedLength
  command : bytes.head? = some n.format.command
  frame : n.format.command = 2 → ∃ header frame raws, bytes = 2 :: (header ++ frame) ∧ header.length = 4 ∧
    number header = bytes.length - 5 ∧ Splits frame raws ∧ raws.map RawItem.code = [1, 2, 3, 4, 5] ∧
    (raws.map RawItem.extent).sum = number header

/-- The predicted length is that of the layout, also where a length no longer fits into its field. -/
theorem length_layout (n : Notification) : (layout n).length = n.encodedLength := by
  obtain ⟨format, token, payload⟩ := n
  cases format <;>
    simp only [layout, encodedLength, List.length_cons, List.length_append, length_counted, Bytes.length_ofWord32,
      length_frameBody] <;> omega

theorem encodedLength_le (n : Notification) : n.encodedLength ≤ n.token.length + n.payload.length + 29 := by
  unfold encodedLength
  split <;> omega

/-- No sum goes beyond the whole length. -/
theorem sum_le {n : Notification} {lengths : List Nat} (formed : lengths ∈ n.encodingSums ++ n.lengthSums) :
    lengths.sum ≤ n.encodedLength := by
  obtain ⟨format, token, payload⟩ := n
  cases format <;> simp only [encodingSums, lengthSums, List.cons_append, List.nil_append, List.mem_cons,
    List.not_mem_nil, or_false] at formed
  case legacy | enhanced =>
    rcases formed with rfl | rfl | rfl <;> simp only [encodedLength, List.sum_cons, List.sum_nil] <;> omega
  case framed =>
    rcases formed with rfl | rfl | rfl | rfl <;>
      simp only [encodedLength, frameLength, List.sum_cons, List.sum_nil] <;> omega

/-- What comes last is the length itself. -/
theorem last_sums (n : Notification) :
    n.encodingSums.getLast?.map List.sum = some n.encodedLength ∧
      n.lengthSums.getLast?.map List.sum = some n.encodedLength := by
  obtain ⟨format, token, payload⟩ := n
  cases format <;>
    simp only [encodingSums, lengthSums, encodedLength, frameLength, List.getLast?_cons_cons, List.getLast?_singleton,
      Option.map_some, List.sum_cons, List.sum_nil, Option.some.injEq] <;> omega

section refusals
variable {n : Notification}

theorem encode_of_long_token (long : Bytes.fieldLimit < n.token.length) :
    n.encode = .error (.fieldTooLong .token n.token.length) := by
  rw [encode, if_pos long]

theorem encode_of_long_payload (fits : n.token.length ≤ Bytes.fieldLimit) (long : Bytes.fieldLimit < n.payload.length) :
    n.encode = .error (.fieldTooLong .payload n.payload.length) := by
  rw [encode, if_neg (Nat.not_lt.mpr fits), if_pos long]

theorem message_fieldTooLong (field : Field) (length : Nat) :
    (EncodeError.fieldTooLong field length).message = field.name ++ s!" too long: {length} bytes (max 65535)" := by
  have spelt : (EncodeError.fieldTooLong field length).message =
      field.name ++ " too long: " ++ toString length ++ " bytes (max " ++ "65535" ++ ")" := rfl
  rw [spelt]
  simp only [String.append_assoc]
  rfl

/-- Whatever is refused, it is for the length of a field. -/
theorem encode_ne_frameTooLong (length : Nat) : n.encode ≠ .error (.frameTooLong length) := by
  intro refused
  rcases Nat.lt_or_ge Bytes.fieldLimit n.token.length with long | token
  · cases refused.symm.trans (encode_of_long_token long)
  rcases Nat.lt_or_ge Bytes.fieldLimit n.payload.length with long | payload
  · cases refused.symm.trans (encode_of_long_payload token long)
  · cases refused.symm.trans (Fits.encode ⟨token, payload⟩)

end refusals

section fits
variable {n : Notification} (fits : n.Fits)
include fits

theorem Fits.encodedLength_lt : n.encodedLength < 2 ^ 32 := by
  have length := n.encodedLength_le
  obtain ⟨token, payload⟩ := fits
  simp only [Bytes.fieldLimit] at token payload
  omega

theorem Fits.measured : n.Measured (layout n) := by
  refine ⟨length_layout n, ?_, fun framed => ?_⟩
  · obtain ⟨format, token, payload⟩ := n
    cases format <;> rfl
  have total := fits.encodedLength_lt
  obtain ⟨format, token, payload⟩ := n
  cases format with
  | legacy | enhanced => simp [Format.command] at framed
  | framed identifier expiry priority =>
    let items : Items := { token, payload, identifier, expiry, priority }
    let frame := laid items.written
    have written : layout items.notification = 2 :: (Bytes.ofWord32 (UInt32.ofNat frame.length) ++ frame) :=
      layout_notification items
    have length : frame.length = (layout items.notification).length - 5 := by
      rw [written]
      simp
    have whole : (layout items.notification).length < 2 ^ 32 := by
      rw [length_layout]
      exact total
    have announced : number (Bytes.ofWord32 (UInt32.ofNat frame.length)) = frame.length := by
      have short : frame.length < 4294967296 := by omega
      rw [Bytes.ofWord32, ← toNat_word32, Bytes.word32_bytes, UInt32.toNat_ofNat', Nat.mod_eq_of_lt short]
    have splits : Splits frame items.written := splits_iff.mpr ⟨Items.written_fit fits, rfl⟩
    have sum : (items.written.map RawItem.extent).sum = frame.length := (length_laid _).symm
    exact ⟨_, frame, items.written, written, rfl, announced.trans length, splits, rfl, sum.trans announced.symm⟩

end fits

/-- Encoding succeeds on just what fits, with the predicted length. What does not fit is refused with a message that
names the token if that is too long, else the payload, each with its length; no frame is ever too long as a whole.
No sum of lengths outgrows a machine word, where words have 32 bits or more. The length can be predicted of every
notification, also of one whose fields are too long, and no sum outgrows a word in which that length itself has room.
For feedback records the same limit holds. -/
theorem encode_measured :
    (∀ n : Notification,
      ((∃ bytes, n.encode = .ok bytes) ↔ n.token.length ≤ 65535 ∧ n.payload.length ≤ 65535) ∧
      (∀ bytes, n.encode = .ok bytes → n.Measured bytes ∧
        ∀ bits ≥ 32, ∀ lengths ∈ n.encodingSums, wordSum bits lengths = some lengths.sum) ∧
      (65535 < n.token.length → ∃ problem, n.encode = .error problem ∧
        problem.message = s!"device token too long: {n.token.length} bytes (max 65535)") ∧
      (n.token.length ≤ 65535 → 65535 < n.payload.length → ∃ problem, n.encode = .error problem ∧
        problem.message = s!"payload too long: {n.payload.length} bytes (max 65535)") ∧
      (∀ length, n.encode ≠ .error (.frameTooLong length)) ∧
      n.encodedLength = (layout n).length ∧
      n.encodingSums.getLast?.map List.sum = some n.encodedLength ∧
      n.lengthSums.getLast?.map List.sum = some n.encodedLength ∧
      ∀ bits, n.encodedLength < 2 ^ bits → ∀ lengths ∈ n.lengthSums, wordSum bits lengths = some lengths.sum) ∧
    ∀ record : Feedback.Record,
      ((∃ bytes, record.encode = .ok bytes) ↔ record.token.length ≤ 65535) ∧
      (∀ bytes, record.encode = .ok bytes → bytes.length = 6 + record.token.length ∧
        ∀ bits ≥ 32, wordSum bits [6, record.token.length] = some bytes.length) ∧
      (65535 < record.token.length → ∃ problem, record.encode = .error problem ∧
        problem.message = s!"device token too long: {record.token.length} bytes (max 65535)") := by
  have wide {bits length : Nat} (atLeast : 32 ≤ bits) (short : length < 2 ^ 32) : length < 2 ^ bits :=
    Nat.lt_of_lt_of_le short (Nat.pow_le_pow_right (by decide) atLeast)
  refine ⟨fun n => ⟨?_, ?_, ?_, ?_, ?_, (length_layout n).symm, (last_sums n).1, (last_sums n).2, ?_⟩,
    fun record => ⟨?_, ?_, ?_⟩⟩
  · constructor
    · rintro ⟨bytes, encoded⟩
      obtain ⟨token, payload, _⟩ := encode_eq_ok_iff.mp encoded
      exact ⟨token, payload⟩
    · exact fun fits => ⟨_, Fits.encode fits⟩
  · intro bytes encoded
    obtain ⟨token, payload, rfl⟩ := encode_eq_ok_iff.mp encoded
    have fits : n.Fits := ⟨token, payload⟩
    refine ⟨fits.measured, fun bits atLeast lengths formed => wordSum_eq ?_⟩
    have bound := sum_le (List.mem_append_left n.lengthSums formed)
    exact Nat.lt_of_le_of_lt bound (wide atLeast fits.encodedLength_lt)
  · exact fun long => ⟨_, encode_of_long_token long, message_fieldTooLong .token _⟩
  · exact fun fits long => ⟨_, encode_of_long_payload fits long, message_fieldTooLong .payload _⟩
  · exact fun length => encode_ne_frameTooLong length
  · intro bits room lengths formed
    exact wordSum_eq (Nat.lt_of_le_of_lt (sum_le (List.mem_append_right n.encodingSums formed)) room)
  · constructor
    · rintro ⟨bytes, encoded⟩
      exact (Feedback.Record.encode_eq_ok_iff.mp encoded).1
    · exact fun fits => ⟨_, Feedback.Record.encode_eq_ok_iff.mpr ⟨fits, rfl⟩⟩
  · intro bytes encoded
    have length := Feedback.Record.length_of_encode encoded
    have fits : record.token.length ≤ 65535 := (Feedback.Record.encode_eq_ok_iff.mp encoded).1
    refine ⟨length, fun bits atLeast => ?_⟩
    have sum : [6, record.token.length].sum = bytes.length := by simp [length]
    rw [← sum]
    exact wordSum_eq (wide atLeast (by omega))
  · intro long
    have refused : record.encode = .error (.fieldTooLong .token record.token.length) := if_pos long
    exact ⟨_, refused, message_fieldTooLong .token _⟩

/-- The largest frame there is, and one of which both fields are too long by a byte. -/
theorem encode_measured_at_limit :
    let largest : Notification := ⟨.framed 7 0 10, List.replicate 65535 0, List.replicate 65535 1⟩
    let beyond : Notification := ⟨.framed 7 0 10, List.replicate 65536 0, List.replicate 65536 1⟩
    let record : Feedback.Record := ⟨1, List.replicate 65535 2⟩
    (∃ bytes, largest.encode = .ok bytes ∧ bytes.length = 131099 ∧
        wordSum 32 [5 * 3, 65535, 65535, 4, 4, 1] = some 131094) ∧
      (∃ problem, beyond.encode = .error problem ∧
        problem.message = "device token too long: 65536 bytes (max 65535)") ∧
      wordSum 18 [65536, 65536] = some 131072 ∧ wordSum 17 [65536, 65536] = none ∧
      ∃ bytes, record.encode = .ok bytes ∧ bytes.length = 65541 := by
  intro largest beyond record
  have length (n : Nat) (byte : UInt8) : (List.replicate n byte).length = n := List.length_replicate
  obtain ⟨succeeds, encoded, _⟩ := encode_measured.1 largest
  obtain ⟨_, _, refused, _, _, _, _, _, predicted⟩ := encode_measured.1 beyond
  obtain ⟨recorded, size, _⟩ := encode_measured.2 record
  obtain ⟨bytes, whole⟩ := succeeds.mpr ⟨Nat.le_of_eq (length ..), Nat.le_of_eq (length ..)⟩
  obtain ⟨piece, written⟩ := recorded.mpr (Nat.le_of_eq (length ..))
  obtain ⟨measured, sums⟩ := encoded bytes whole
  have longer : 65535 < beyond.token.length := by
    rw [length]
    decide
  obtain ⟨problem, refusal, named⟩ := refused longer
  refine ⟨⟨bytes, whole, ?_, ?_⟩, ⟨problem, refusal, ?_⟩, ?_, by decide, piece, written, ?_⟩
  · rw [measured.length, encodedLength, length, length]
  · have sum := sums 32 (Nat.le_refl 32) _ (List.mem_cons_self ..)
    rw [length, length] at sum
    exact sum
  · rw [named, length]
    rfl
  · have room : beyond.encodedLength < 2 ^ 18 := by
      rw [encodedLength, length, length]
      decide
    have sum := predicted 18 room _ (List.mem_cons_self ..)
    rw [length, length] at sum
    exact sum
  · rw [(size piece written).1, length]

end Notification
end PushGateway
