import PushGateway.Json.Scan
import PushGateway.Proofs.Json.Members
import PushGateway.Proofs.Json.Records

namespace PushGateway.Json

/-- A value in which no number has a fraction or an exponent and the names of each record increase. -/
inductive Plain : Json → Prop
  | null : Plain .null
  | bool (value : Bool) : Plain (.bool value)
  | whole (n : Whole) : Plain (.whole n)
  | text (s : String) : Plain (.text s)
  | list {items : List Json} : (∀ item ∈ items, Plain item) → Plain (.list items)
  | record {members : Members} :
      Ascending members → (∀ member ∈ members, Plain member.2) → Plain (.record members)

theorem HasMembers.plain {value : Json} {given : String → Option Json} (members : value.HasMembers given)
    (plain : ∀ name member, given name = some member → member.Plain) : value.Plain := by
  obtain ⟨members, rfl, ascending, found⟩ := members
  refine .record ascending fun member inside => plain member.1 member.2 ?_
  rw [← found, find?_eq_lookup]
  exact ascending.mem_iff_lookup.mp inside

/-- Whatever follows an item, no number goes on in it. -/
theorem numberEnds_writeItems (items : List Json) (rest : List Char) : NumberEnds (writeItems items ++ rest) := by
  rcases items with _ | ⟨item, items⟩ <;> rintro c ⟨⟩ <;> decide

/-- The first character of a value is neither a blank nor the end of a list. -/
theorem Plain.begins {value : Json} (plain : value.Plain) :
    ∃ c more, write value = c :: more ∧ isBlank c = false ∧ c ≠ ']' := by
  cases plain with
  | null => exact ⟨'n', _, rfl, rfl, by decide⟩
  | bool value => cases value <;> exact ⟨_, _, rfl, rfl, by decide⟩
  | text s => exact ⟨'"', _, rfl, rfl, by decide⟩
  | @list items _ => cases items <;> exact ⟨'[', _, rfl, rfl, by decide⟩
  | @record members _ _ => cases members <;> exact ⟨'{', _, rfl, rfl, by decide⟩
  | whole n =>
    rw [write, writeWhole]
    split
    · rename_i k _
      obtain ⟨c, more, digits, digit⟩ := digits_begin k
      refine ⟨c, more, digits, isBlank_of_isDigit digit, ?_⟩
      rintro rfl
      cases digit
    · exact ⟨'-', _, rfl, rfl, by decide⟩

/-- The reader goes down by one where it has at least one character to read. -/
theorem one_less {n depth : Nat} (enough : n < depth) : ∃ less, depth = less + 1 ∧ n ≤ less :=
  ⟨depth - 1, by omega, by omega⟩

/-- The reader of values takes this one from in front of whatever cannot belong to it. -/
def Returns (value : Json) : Prop :=
  ∀ {depth rest}, (write value).length ≤ depth → NumberEnds rest →
    scan true depth (write value ++ rest) = .ok (value, rest)

theorem scan_of_digit {c : Char} (digit : Decimal.isDigit c = true) (depth : Nat) (more : List Char) :
    scan true (depth + 1) (c :: more) = number false (c :: more) := by
  rw [scan, skipBlanks_cons (isBlank_of_isDigit digit)]
  split
  case h_9 =>
    rename_i same
    obtain ⟨rfl, rfl⟩ := List.cons.inj same
    rw [if_pos digit]
    rfl
  all_goals
    -- no digit is one of the characters that begin another value
    rename_i same
    cases same <;> cases digit

theorem integer_of_natAbs {n : Whole} {negative : Bool} (sign : negative = decide (n.val < 0)) (rest : List Char) :
    integer negative n.val.natAbs rest = .ok (.whole n, rest) := by
  have exact := ofInt?_val n
  have signed : (if negative = true then -(n.val.natAbs : Int) else n.val.natAbs) = n.val := by
    rw [sign]
    simp only [decide_eq_true_eq]
    split <;> omega
  have nonzero : ¬ (negative = true ∧ n.val.natAbs = 0) := by
    rw [sign, decide_eq_true_eq]
    omega
  rw [integer, if_neg nonzero, signed, exact]

/-- The digits of an integer, behind a minus sign if it has one. -/
theorem write_whole (n : Whole) :
    write (.whole n) = (if n.val < 0 then ['-'] else []) ++ Decimal.digits n.val.natAbs := by
  rcases n with ⟨k | k, _, _⟩
  · have natural : ¬ Int.ofNat k < 0 := Int.not_lt.mpr (Int.natCast_nonneg k)
    rw [if_neg natural]
    rfl
  · rw [if_pos (Int.negSucc_lt_zero k)]
    rfl

theorem returns_whole (n : Whole) : Returns (.whole n) := by
  intro depth rest enough ends
  have bounds := And.intro n.lower n.upper
  have read := fun negative => number_digits negative (n := n.val.natAbs) (by omega) ends
  rw [write_whole] at enough ⊢
  obtain ⟨c, more, digits, digit⟩ := digits_begin n.val.natAbs
  rw [digits, List.length_append, List.length_cons] at enough
  obtain ⟨depth, rfl, _⟩ := one_less enough
  by_cases negative : n.val < 0
  · rw [if_pos negative, List.singleton_append, List.cons_append]
    exact (read true).trans (integer_of_natAbs (by simp [negative]) rest)
  · rw [if_neg negative, List.nil_append, digits, List.cons_append, scan_of_digit digit, ← List.cons_append,
      ← digits]
    exact (read false).trans (integer_of_natAbs (by simp [negative]) rest)

theorem returns_text (s : String) : Returns (.text s) := by
  intro depth rest enough _
  have read := characters_flatMap s.toList rest
  obtain ⟨depth, rfl, _⟩ := one_less enough
  rw [write, quote_append, scan, skipBlanks_cons rfl]
  simp only [read, String.ofList_toList]

theorem scanItems_returns {item : Json} {items : List Json} (returns : ∀ each ∈ item :: items, Returns each)
    {depth : Nat} (enough : (write item ++ writeItems items).length ≤ depth) (rest : List Char) :
    scanItems true depth (write item ++ (writeItems items ++ rest)) = .ok (item :: items, rest) := by
  induction items generalizing item depth with
  | nil =>
    rw [writeItems, List.length_append, List.length_singleton] at enough
    obtain ⟨depth, rfl, within⟩ := one_less enough
    have first := returns item List.mem_cons_self within (numberEnds_writeItems [] rest)
    rw [scanItems, first]
    rfl
  | cons next items ih =>
    rw [writeItems, List.length_append, List.length_cons] at enough
    obtain ⟨depth, rfl, _⟩ := one_less enough
    have first := returns item List.mem_cons_self (show (write item).length ≤ depth by omega)
      (numberEnds_writeItems (next :: items) rest)
    have later := ih (fun each member => returns each (List.mem_cons_of_mem _ member))
      (show (write next ++ writeItems items).length ≤ depth by omega)
    rw [scanItems, first]
    simp only [writeItems, List.cons_append, List.append_assoc, skipBlanks_cons (c := ',') rfl, later]

theorem returns_list {items : List Json} (plain : ∀ item ∈ items, Plain item)
    (returns : ∀ item ∈ items, Returns item) : Returns (.list items) := by
  intro depth rest enough _
  cases items with
  | nil =>
    obtain ⟨depth, rfl, _⟩ := one_less enough
    rfl
  | cons item items =>
    rw [write, List.length_cons] at enough
    obtain ⟨depth, rfl, within⟩ := one_less enough
    have inside := scanItems_returns returns within rest
    obtain ⟨c, more, begins, solid, other⟩ := (plain item List.mem_cons_self).begins
    rw [write, List.cons_append, List.append_assoc, scan, skipBlanks_cons rfl]
    rw [begins, List.cons_append] at inside ⊢
    simp only [skipBlanks_cons solid]
    split
    · rename_i none
      cases none
    · rename_i ends
      exact absurd (List.cons.inj ends).1 other
    · rw [inside]

/-- A member whose name comes before all others is put in front of them. -/
theorem insert_first {name : String} {value : Json} {members : Members}
    (ascending : Ascending ((name, value) :: members)) :
    find? name members = none ∧ insert name value members = (name, value) :: members := by
  obtain ⟨below, _⟩ := List.pairwise_cons.mp ascending
  constructor
  · rw [find?_eq_lookup]
    exact Ascending.lookup_of_below below
  · cases members with
    | nil => rfl
    | cons first later => rw [insert, if_pos (below first List.mem_cons_self)]

section Members
variable {name : String} {value : Json} {depth : Nat}

theorem scanMembers_last (returns : Returns value) (enough : (write value).length ≤ depth) (rest : List Char) :
    scanMembers true (depth + 1) (quote name ++ ':' :: (write value ++ '}' :: rest)) = .ok ([(name, value)], rest) := by
  have ends : NumberEnds ('}' :: rest) := RecordShape.numberEnds_writeMembers [] rest
  have read := characters_flatMap name.toList (':' :: (write value ++ '}' :: rest))
  rw [quote_append, scanMembers, skipBlanks_cons rfl]
  simp only [read, skipBlanks_cons (c := ':') rfl, skipBlanks_cons (c := '}') rfl, returns enough ends,
    String.ofList_toList]

theorem scanMembers_more (returns : Returns value) (enough : (write value).length ≤ depth) {more rest : List Char}
    {members : Members} (later : scanMembers true depth more = .ok (members, rest)) :
    scanMembers true (depth + 1) (quote name ++ ':' :: (write value ++ ',' :: more)) =
      .ok (if (find? name members).isSome then members else insert name value members, rest) := by
  have ends : NumberEnds (',' :: more) := by
    rintro c ⟨⟩
    decide
  have read := characters_flatMap name.toList (':' :: (write value ++ ',' :: more))
  rw [quote_append, scanMembers, skipBlanks_cons rfl]
  simp only [read, skipBlanks_cons (c := ':') rfl, skipBlanks_cons (c := ',') rfl, returns enough ends,
    String.ofList_toList, later]

theorem scanMembers_returns {members : Members} (ascending : Ascending ((name, value) :: members))
    (returns : ∀ each ∈ (name, value) :: members, Returns each.2)
    (enough : (quote name ++ ':' :: (write value ++ writeMembers members)).length ≤ depth) (rest : List Char) :
    scanMembers true depth (quote name ++ ':' :: (write value ++ (writeMembers members ++ rest))) =
      .ok ((name, value) :: members, rest) := by
  induction members generalizing name value depth with
  | nil =>
    rw [List.length_append, List.length_cons, List.length_append] at enough
    obtain ⟨depth, rfl, _⟩ := one_less enough
    have only : Returns value := returns (name, value) List.mem_cons_self
    exact scanMembers_last only (by omega) rest
  | cons next members ih =>
    obtain ⟨other, following⟩ := next
    rw [writeMembers, List.length_append, List.length_cons, List.length_append, List.length_cons] at enough
    obtain ⟨depth, rfl, _⟩ := one_less enough
    have first : Returns value := returns (name, value) List.mem_cons_self
    have later := ih (List.pairwise_cons.mp ascending).2
      (fun each member => returns each (List.mem_cons_of_mem _ member))
      (show (quote other ++ ':' :: (write following ++ writeMembers members)).length ≤ depth by omega)
    obtain ⟨fresh, front⟩ := insert_first ascending
    rw [writeMembers, List.cons_append, List.append_assoc, List.cons_append, List.append_assoc,
      scanMembers_more first (by omega) later, fresh, front]
    rfl

end Members

theorem returns_record {members : Members} (ascending : Ascending members)
    (returns : ∀ member ∈ members, Returns member.2) : Returns (.record members) := by
  intro depth rest enough _
  cases members with
  | nil =>
    obtain ⟨depth, rfl, _⟩ := one_less enough
    rfl
  | cons first members =>
    obtain ⟨name, value⟩ := first
    rw [write, List.length_cons] at enough
    obtain ⟨depth, rfl, within⟩ := one_less enough
    have inside := scanMembers_returns ascending returns within rest
    rw [write, List.cons_append, List.append_assoc, List.cons_append, List.append_assoc, scan, skipBlanks_cons rfl]
    rw [quote_append] at inside ⊢
    simp only [skipBlanks_cons (c := '"') rfl]
    split
    · rename_i none
      cases none
    · rename_i ends
      cases ends
    · rw [inside]

/-- A value is read back from its text, in front of anything in which it cannot go on. -/
theorem Plain.returns {value : Json} (plain : value.Plain) : Returns value := by
  induction plain with
  | null =>
    intro depth rest enough _
    obtain ⟨depth, rfl, _⟩ := one_less enough
    rfl
  | bool value =>
    intro depth rest enough _
    cases value with
    | false =>
      obtain ⟨depth, rfl, _⟩ := one_less enough
      rfl
    | true =>
      obtain ⟨depth, rfl, _⟩ := one_less enough
      rfl
  | whole n => exact returns_whole n
  | text s => exact returns_text s
  | list items ih => exact returns_list items ih
  | record ascending _ ih => exact returns_record ascending ih

/-- The text of a value means this value and no other. -/
theorem Plain.read_compact {value : Json} (plain : value.Plain) : read value.compact = .ok value := by
  have enough : (write value).length ≤ depthFor (write value) := by
    rw [depthFor]
    omega
  have whole := plain.returns enough numberEnds_nil
  rw [List.append_nil] at whole
  rw [read, compact, String.toList_ofList]
  simp only [whole]
  rfl

end PushGateway.Json
