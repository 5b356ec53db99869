import PushGateway.Proofs.Json.Values
import PushGateway.Proofs.Text.ByteOrder

namespace PushGateway.Json

/-- The way in which a character stands between quotes. Only quotes, backslashes and controls are escaped, by a
letter if there is one for them. -/
inductive Shown : Char → List Char → Prop
  | plain {c : Char} : c ≠ '"' → c ≠ '\\' → 0x20 ≤ c.toNat → Shown c [c]
  | letter {c letter : Char} : (c, letter) ∈ [('"', '"'), ('\\', '\\'), ('\x08', 'b'), ('\t', 't'), ('\n', 'n'),
      ('\x0c', 'f'), ('\r', 'r')] → Shown c ['\\', letter]
  | code {c high low : Char} : c.toNat < 0x20 → c ∉ ['\x08', '\t', '\n', '\x0c', '\r'] →
      "0123456789abcdef".toList[c.toNat / 16]? = some high → "0123456789abcdef".toList[c.toNat % 16]? = some low →
      Shown c ['\\', 'u', '0', '0', high, low]

/-- A text between quotes. -/
def Quoted (s : String) (text : List Char) : Prop :=
  ∃ form : Char → List Char, (∀ c ∈ s.toList, Shown c (form c)) ∧
    text = '"' :: (s.toList.flatMap form ++ ['"'])

/-- The digits of a number, without a zero in front. -/
structure Numeral (n : Nat) (digits : List Char) : Prop where
  nonempty : digits ≠ []
  decimal : ∀ c ∈ digits, Decimal.isDigit c = true
  value : Decimal.value 0 digits = n
  leads : digits.head? = some '0' → digits = ['0']

/-- The compact text of a value. Nothing stands between its parts but what divides them, and the members of each
record are in the order of the bytes of their names. -/
inductive Written : Json → List Char → Prop
  | null : Written .null "null".toList
  | yes : Written (.bool true) "true".toList
  | no : Written (.bool false) "false".toList
  | whole {n : Whole} {digits : List Char} : Numeral n.val.natAbs digits →
      Written (.whole n) ((if n.val < 0 then ['-'] else []) ++ digits)
  | text {s : String} {text : List Char} : Quoted s text → Written (.text s) text
  | list {items : List Json} {text : Json → List Char} : (∀ item ∈ items, Written item (text item)) →
      Written (.list items) ('[' :: ([','].intercalate (items.map text) ++ [']']))
  | record {members : Members} {name : String → List Char} {text : Json → List Char} :
      members.Pairwise (fun a b => Text.utf8 a.1 < Text.utf8 b.1) →
      (∀ member ∈ members, Quoted member.1 (name member.1)) →
      (∀ member ∈ members, Written member.2 (text member.2)) →
      Written (.record members)
        ('{' :: ([','].intercalate (members.map fun member => name member.1 ++ ':' :: text member.2) ++ ['}']))

theorem hexDigitChar_eq : ∀ {n : Nat}, n < 16 → "0123456789abcdef".toList[n]? = some (hexDigitChar n) := by
  decide

theorem shown_escaped (c : Char) : Shown c (escaped c) := by
  unfold escaped
  by_cases named : c = '"' ∨ c = '\\' ∨ c = '\x08' ∨ c = '\t' ∨ c = '\n' ∨ c = '\x0c' ∨ c = '\r'
  · rcases named with rfl | rfl | rfl | rfl | rfl | rfl | rfl <;> exact .letter (by decide)
  obtain ⟨quote, backslash, others⟩ := not_or.mp named |>.imp_right not_or.mp
  simp only [not_or] at others
  simp only [quote, backslash, others, if_false]
  split
  · rename_i control
    exact .code control (by simp [others]) (hexDigitChar_eq (by omega)) (hexDigitChar_eq (by omega))
  · rename_i printed
    exact .plain quote backslash (Nat.not_lt.mp printed)

theorem quoted_quote (s : String) : Quoted s (quote s) := ⟨escaped, fun c _ => shown_escaped c, rfl⟩

theorem numeral_digits (n : Nat) : Numeral n (Decimal.digits n) where
  nonempty := Decimal.digits_ne_nil n
  decimal _ := Decimal.isDigit_of_mem_digits
  value := Decimal.value_digits n
  leads zero := by
    have none : n = 0 := by
      by_contra positive
      exact head?_digits positive zero
    rw [none, Decimal.digits]
    rfl

theorem intercalate_comma (first : List Char) (texts : List (List Char)) :
    [','].intercalate (first :: texts) = first ++ texts.flatMap (',' :: ·) := by
  induction texts generalizing first with
  | nil => simp
  | cons next texts ih =>
    have later := ih next
    rw [List.flatMap_cons, List.cons_append, ← later]
    simp

theorem writeItems_eq (items : List Json) : writeItems items = (items.map write).flatMap (',' :: ·) ++ [']'] := by
  induction items with
  | nil => rfl
  | cons item items ih =>
    rw [writeItems, ih, List.map_cons, List.flatMap_cons, List.cons_append, List.cons_append, List.append_assoc]

theorem writeMembers_eq (members : Members) :
    writeMembers members =
      (members.map fun member => quote member.1 ++ ':' :: write member.2).flatMap (',' :: ·) ++ ['}'] := by
  induction members with
  | nil => rfl
  | cons member members ih =>
    rw [writeMembers, ih, List.map_cons, List.flatMap_cons]
    simp

theorem write_list (items : List Json) :
    write (.list items) = '[' :: ([','].intercalate (items.map write) ++ [']']) := by
  cases items with
  | nil => rfl
  | cons item items => rw [write, writeItems_eq, List.map_cons, intercalate_comma, List.append_assoc]

theorem write_record (members : Members) :
    write (.record members) =
      '{' :: ([','].intercalate (members.map fun member => quote member.1 ++ ':' :: write member.2) ++ ['}']) := by
  cases members with
  | nil => rfl
  | cons member members =>
    rw [write, writeMembers_eq, List.map_cons, intercalate_comma]
    simp

/-- The printer writes compact texts. -/
theorem Plain.written {value : Json} (plain : value.Plain) : Written value (write value) := by
  induction plain with
  | null => exact .null
  | bool value => cases value <;> first | exact .yes | exact .no
  | whole n =>
    rw [write_whole]
    exact .whole (numeral_digits _)
  | text s => exact .text (quoted_quote s)
  | list _ ih =>
    rw [write_list]
    exact .list ih
  | record ascending _ ih =>
    rw [write_record]
    exact .record (ascending.imp Text.utf8_lt) (fun member _ => quoted_quote member.1) ih

end PushGateway.Json
