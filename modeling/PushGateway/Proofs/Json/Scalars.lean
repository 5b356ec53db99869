import PushGateway.Json.Printer
import PushGateway.Json.Shape

namespace PushGateway.Json

/-- No number goes on here. -/
def NumberEnds (rest : List Char) : Prop :=
  ∀ c ∈ rest.head?, Decimal.isDigit c = false ∧ c ≠ '.' ∧ isExponentLetter c = false

theorem numberEnds_nil : NumberEnds [] := nofun

/-- The reader takes the text of a value from in front of whatever cannot belong to it, and finds this in it. -/
def Reader.Reads {α : Type} (reader : Reader α) (form : Json) (value : α) : Prop :=
  ∀ rest, NumberEnds rest → reader (write form ++ rest) = .ok (value, rest)

theorem Reader.Reads.readAs {α : Type} {reader : Reader α} {form : Json} {value : α} (reads : reader.Reads form value) :
    readAs reader form.compact = .ok value := by
  have whole := reads [] numberEnds_nil
  rw [List.append_nil] at whole
  rw [Json.readAs, compact, String.toList_ofList, whole]
  rfl

theorem skipBlanks_cons {c : Char} {rest : List Char} (solid : isBlank c = false) :
    skipBlanks (c :: rest) = c :: rest := by
  rw [skipBlanks, List.dropWhile_cons, if_neg (by simp [solid])]

section Texts

theorem hexValue?_hexDigitChar : ∀ {n : Nat}, n < 16 → hexValue? (hexDigitChar n) = some n := by
  decide

theorem utf8Size_hexDigitChar : ∀ {n : Nat}, n < 16 → (hexDigitChar n).utf8Size = 1 := by
  decide

theorem unicodeEscape_control {n : Nat} (control : n < 0x20) (rest : List Char) :
    unicodeEscape ('0' :: '0' :: hexDigitChar (n / 16) :: hexDigitChar (n % 16) :: rest) = .ok (Char.ofNat n, rest) := by
  have high : n / 16 < 16 := by omega
  have low : n % 16 < 16 := by omega
  have digits : fourDigits ('0' :: '0' :: hexDigitChar (n / 16) :: hexDigitChar (n % 16) :: rest) = .ok (n, rest) := by
    have size : utf8Size (('0' :: '0' :: hexDigitChar (n / 16) :: hexDigitChar (n % 16) :: rest).take 4) = 4 := by
      simp [utf8Size, utf8Size_hexDigitChar high, utf8Size_hexDigitChar low]
      decide
    have zero : hexValue? '0' = some 0 := by decide
    simp only [fourDigits, size, Nat.lt_irrefl, if_false, zero, hexValue?_hexDigitChar high, hexValue?_hexDigitChar low]
    rw [show ((0 * 16 + 0) * 16 + n / 16) * 16 + n % 16 = n by omega]
  have plain : isLowSurrogate n = false ∧ isHighSurrogate n = false := by
    simp [isLowSurrogate, isHighSurrogate]
    omega
  simp [unicodeEscape, digits, plain]

/-- An escape stands for its character. -/
theorem characters_of_escape {cs rest : List Char} {c : Char} (read : escape true cs = .ok (c, rest)) :
    characters true ('\\' :: cs) = (characters true rest).map fun (later, rest) => (c :: later, rest) := by
  rw [characters]
  split
  · rename_i bad
    cases read.symm.trans bad
  · rename_i good
    cases read.symm.trans good
    rcases characters true rest with _ | ⟨_, _⟩ <;> rfl

/-- A character is read back from the way it stands in a text. -/
theorem characters_escaped (c : Char) (rest : List Char) :
    characters true (escaped c ++ rest) = (characters true rest).map fun (later, rest) => (c :: later, rest) := by
  unfold escaped
  by_cases named : c = '"' ∨ c = '\\' ∨ c = '\x08' ∨ c = '\t' ∨ c = '\n' ∨ c = '\x0c' ∨ c = '\r'
  · rcases named with rfl | rfl | rfl | rfl | rfl | rfl | rfl <;> exact characters_of_escape rfl
  obtain ⟨quote, backslash, others⟩ := not_or.mp named |>.imp_right not_or.mp
  simp only [not_or] at others
  simp only [quote, backslash, others, if_false]
  split
  · rename_i control
    have read := unicodeEscape_control control rest
    rw [Char.ofNat_toNat] at read
    exact characters_of_escape read
  · rename_i printed
    rw [List.singleton_append, characters, if_neg printed]
    · rcases characters true rest with _ | ⟨_, _⟩ <;> rfl
    · exact quote
    · exact backslash

theorem characters_flatMap (text : List Char) (rest : List Char) :
    characters true (text.flatMap escaped ++ '"' :: rest) = .ok (text, rest) := by
  induction text with
  | nil =>
    rw [List.flatMap_nil, List.nil_append, characters]
  | cons c text ih =>
    rw [List.flatMap_cons, List.append_assoc, characters_escaped, ih]
    rfl

theorem quote_append (text : String) (rest : List Char) :
    quote text ++ rest = '"' :: (text.toList.flatMap escaped ++ '"' :: rest) := by
  simp [quote]

theorem Reader.reads_text (text : String) : Reader.text.Reads (.text text) text := by
  intro rest _
  have read := characters_flatMap text.toList rest
  rw [write, quote_append, Reader.text, skipBlanks_cons rfl]
  simp only [read, String.ofList_toList]

end Texts

section Numbers

theorem le_value (n : Nat) (ds : List Char) : n ≤ Decimal.value n ds := by
  induction ds generalizing n with
  | nil => exact Nat.le_refl _
  | cons d ds ih => exact Nat.le_trans (by omega) (ih (n * 10 + Decimal.digitValue d))

theorem absorb_digits {ds : List Char} {n : Nat} (fits : Decimal.value n ds < 18446744073709551616) :
    absorb n ds = (Decimal.value n ds, []) := by
  induction ds generalizing n with
  | nil => rfl
  | cons d ds ih =>
    have small := Nat.lt_of_le_of_lt (le_value (n * 10 + Decimal.digitValue d) ds) fits
    rw [absorb]
    simp only [small, if_true]
    exact ih fits

theorem splitDigits_append {ds rest : List Char} (digits : ∀ d ∈ ds, Decimal.isDigit d = true)
    (ends : NumberEnds rest) : splitDigits (ds ++ rest) = (ds, rest) := by
  have taken : rest.takeWhile Decimal.isDigit = [] ∧ rest.dropWhile Decimal.isDigit = rest := by
    cases rest with
    | nil => exact ⟨rfl, rfl⟩
    | cons c rest => simp [(ends c rfl).1]
  rw [splitDigits, List.takeWhile_append_of_pos digits, List.dropWhile_append_of_pos digits, taken.1, taken.2,
    List.append_nil]

/-- Only zero is written with a zero in front. -/
theorem head?_digits {n : Nat} (positive : n ≠ 0) : (Decimal.digits n).head? ≠ some '0' := by
  induction n using Nat.strongRecOn with
  | _ n ih =>
    rw [Decimal.digits]
    split
    · rename_i small
      rw [List.head?_cons]
      intro zero
      have val := Decimal.digitChar_val small
      rw [Option.some.inj zero] at val
      have : '0'.toNat = 48 := rfl
      omega
    · rw [List.head?_append, List.head?_eq_some_head (Decimal.digits_ne_nil _), Option.some_or,
        ← List.head?_eq_some_head]
      exact ih _ (by omega) (by omega)

theorem ofInt?_val (n : Whole) : Whole.ofInt? n.val = some n := dif_pos ⟨n.lower, n.upper⟩

theorem integer_natural (n : UInt64) (rest : List Char) :
    integer false n.toNat rest = .ok (.natural n, rest) := by
  have exact : Whole.ofInt? n.toNat = some (.ofUInt64 n) := ofInt?_val (.ofUInt64 n)
  simp [integer, exact, natural]

/-- Digits that are no part of a longer number are read as an integer. -/
theorem number_digits (negative : Bool) {n : Nat} (fits : n < 18446744073709551616) {rest : List Char}
    (ends : NumberEnds rest) : number negative (Decimal.digits n ++ rest) = integer negative n rest := by
  have split : splitDigits (Decimal.digits n ++ rest) = (Decimal.digits n, rest) :=
    splitDigits_append (fun _ => Decimal.isDigit_of_mem_digits) ends
  have absorbed : absorb 0 (Decimal.digits n) = (n, []) := by
    have value := Decimal.value_digits n
    rw [absorb_digits (by rw [value]; exact fits), value]
  have leads : ¬ ((Decimal.digits n).head? = some '0' ∧ 1 < (Decimal.digits n).length) := by
    rintro ⟨zero, more⟩
    by_cases none : n = 0
    · rw [none, Decimal.digits] at more
      exact absurd more (by decide)
    · exact head?_digits none zero
  rw [number, split]
  simp only [List.isEmpty_iff, Decimal.digits_ne_nil, leads, if_false, absorbed]
  cases rest with
  | nil => simp
  | cons c rest =>
    obtain ⟨_, point, exponent⟩ := ends c rfl
    simp [exponent]

theorem number_natural (n : UInt64) {rest : List Char} (ends : NumberEnds rest) :
    number false (Decimal.digits n.toNat ++ rest) = .ok (.natural n, rest) := by
  rw [number_digits false n.toNat_lt ends, integer_natural]

theorem write_natural (n : UInt64) : write (.natural n) = Decimal.digits n.toNat := rfl

theorem isBlank_of_isDigit {c : Char} (digit : Decimal.isDigit c = true) : isBlank c = false := by
  simp only [isBlank, Bool.or_eq_false_iff, beq_eq_false_iff_ne]
  refine ⟨⟨⟨?_, ?_⟩, ?_⟩, ?_⟩ <;> (rintro rfl; cases digit)

theorem digits_begin (n : Nat) : ∃ c more, Decimal.digits n = c :: more ∧ Decimal.isDigit c = true := by
  rcases same : Decimal.digits n with _ | ⟨c, more⟩
  · exact absurd same (Decimal.digits_ne_nil n)
  · exact ⟨c, more, rfl, Decimal.isDigit_of_mem_digits (same ▸ List.mem_cons_self)⟩

theorem Reader.reads_natural (limit : Nat) {n : UInt64} (within : n.toNat ≤ limit) :
    (Reader.natural limit).Reads (.natural n) n.toNat := by
  intro rest ends
  have read := number_natural n ends
  obtain ⟨c, more, digits, digit⟩ := digits_begin n.toNat
  rw [write_natural]
  rw [digits, List.cons_append] at read ⊢
  rw [Reader.natural, skipBlanks_cons (isBlank_of_isDigit digit)]
  split
  · rename_i minus
    cases minus
    cases digit
  · rename_i same
    obtain ⟨rfl, rfl⟩ := List.cons.inj same
    simp [digit, read, Json.natural, Whole.ofUInt64, within]
  · rename_i none
    cases none

end Numbers

section Composites

theorem Reader.Reads.map {α β : Type} {reader : Reader α} {form : Json} {value : α} (reads : reader.Reads form value)
    (f : α → β) : (reader.map f).Reads form (f value) := by
  intro rest ends
  rw [Reader.map, reads rest ends]

theorem Reader.reads_bool (value : Bool) : Reader.bool.Reads (.bool value) value := by
  intro rest _
  cases value <;> rfl

/-- A form that starts neither with a blank nor like `null`. -/
def Solid (form : Json) : Prop := ∃ c more, write form = c :: more ∧ isBlank c = false ∧ c ≠ 'n'

theorem solid_text (text : String) : Solid (.text text) := ⟨_, _, rfl, rfl, by decide⟩

theorem solid_natural (n : UInt64) : Solid (.natural n) := by
  obtain ⟨c, more, digits, digit⟩ := digits_begin n.toNat
  refine ⟨c, more, digits, isBlank_of_isDigit digit, ?_⟩
  rintro rfl
  cases digit

theorem Reader.reads_null {α : Type} (inner : Reader α) : (Reader.optional inner).Reads .null none := by
  intro rest _
  rfl

theorem Reader.Reads.optional {α : Type} {inner : Reader α} {form : Json} {value : α} (reads : inner.Reads form value)
    (solid : Solid form) : (Reader.optional inner).Reads form (some value) := by
  intro rest ends
  obtain ⟨c, more, begins, unblank, other⟩ := solid
  have read := reads rest ends
  rw [begins, List.cons_append] at read ⊢
  rw [Reader.optional, skipBlanks_cons unblank]
  split
  · rename_i null
    exact absurd (List.cons.inj null).1 other
  · rw [read]

end Composites
end PushGateway.Json
