import PushGateway.Proofs.Json.Scalars

namespace PushGateway.Json

namespace RecordShape

variable {δ α : Type} {shape : RecordShape δ α}

/-- Member by member, a draft is filled with what stands in a record. -/
inductive Fills (shape : RecordShape δ α) : List (String × Json) → δ → δ → Prop
  | nil {draft} : Fills shape [] draft draft
  | cons {name form members field draft draft' draft''} :
      shape.fields.find? (·.name == name) = some field → field.filled draft = false →
      (field.read draft).Reads form draft' → Fills shape members draft' draft'' →
      Fills shape ((name, form) :: members) draft draft''

/-- Whatever follows a member, no number goes on in it. -/
theorem numberEnds_writeMembers (members : List (String × Json)) (rest : List Char) :
    NumberEnds (writeMembers members ++ rest) := by
  rcases members with _ | ⟨⟨name, form⟩, members⟩ <;> rintro c ⟨⟩ <;> decide

theorem afterColon_colon {β : Type} (inner : Reader β) (rest : List Char) :
    afterColon inner (':' :: rest) = inner rest :=
  rfl

/-- One member that comes next is read, and those behind it are left. -/
theorem readNamed_member {name : String} {form : Json} {field : RecordField δ} {draft draft' : δ} {behind : List Char}
    (found : shape.fields.find? (·.name == name) = some field) (unfilled : field.filled draft = false)
    (reads : (field.read draft).Reads form draft') (ends : NumberEnds behind) (left : Nat) (first : Bool) :
    readNamed shape (left + 1) first draft
        ((if first then [] else [',']) ++ (quote name ++ ':' :: (write form ++ behind))) =
      readNamed shape left false draft' behind := by
  have read := characters_flatMap name.toList (':' :: (write form ++ behind))
  rw [quote_append]
  cases first
  · simp only [Bool.false_eq_true, if_false, List.singleton_append]
    rw [readNamed, skipBlanks_cons rfl]
    simp only [Bool.false_eq_true, if_false, skipBlanks_cons (c := '"') rfl, read, String.ofList_toList, found, unfilled,
      afterColon_colon, reads behind ends]
  · simp only [if_true, List.nil_append]
    rw [readNamed, skipBlanks_cons rfl]
    simp only [if_true, Bool.false_eq_true, if_false, read, String.ofList_toList, found, unfilled, afterColon_colon,
      reads behind ends]

theorem Fills.readNamed {members : List (String × Json)} {draft draft' : δ} (fills : shape.Fills members draft draft')
    {left : Nat} (enough : members.length < left) (rest : List Char) :
    readNamed shape left false draft (writeMembers members ++ rest) = .ok (draft', '}' :: rest) := by
  induction fills generalizing left with
  | nil =>
    obtain ⟨left, rfl⟩ := Nat.exists_eq_add_of_lt enough
    rfl
  | @cons name form members field draft draft' draft'' found unfilled reads fills ih =>
    rcases left with _ | left
    · cases enough
    have member := readNamed_member found unfilled reads (numberEnds_writeMembers members rest) left false
    simp only [writeMembers, List.cons_append, List.append_assoc]
    exact member.trans (ih (Nat.lt_of_succ_lt_succ enough))

theorem length_writeMembers (members : List (String × Json)) : members.length < (writeMembers members).length := by
  induction members with
  | nil => exact Nat.one_pos
  | cons member members ih =>
    simp only [writeMembers, List.length_cons, List.length_append]
    omega

/-- A record whose members fill the draft is read as what the draft makes. -/
theorem Fills.reads {name : String} {form : Json} {members : List (String × Json)} {draft : δ} {value : α}
    (fills : shape.Fills ((name, form) :: members) shape.empty draft) (finish : shape.finish draft = some value) :
    shape.reader.Reads (.record ((name, form) :: members)) value := by
  intro rest _
  cases fills with
  | cons found unfilled reads fills =>
    simp only [write, List.cons_append, List.append_assoc]
    have few : members.length < (quote name ++ ':' :: (write form ++ (writeMembers members ++ rest))).length := by
      have := length_writeMembers members
      simp only [List.length_append, List.length_cons]
      omega
    rw [RecordShape.reader, skipBlanks_cons rfl]
    simp only
    generalize (quote name ++ ':' :: (write form ++ (writeMembers members ++ rest))).length = left at few ⊢
    have member := readNamed_member found unfilled reads (numberEnds_writeMembers members rest) left true
    rw [if_pos rfl, List.nil_append] at member
    simp only [member, fills.readNamed few rest, finish, skipBlanks_cons (c := '}') rfl, if_true]

end RecordShape

namespace Variant

variable {α : Type} {variants : List (String × Variant α)}

theorem reads_plain {name : String} {value : α} (found : variants.lookup name = some (.plain value)) :
    (reader variants).Reads (.text name) value := by
  intro rest _
  have read := characters_flatMap name.toList rest
  rw [write, quote_append, reader, skipBlanks_cons rfl]
  simp only [readName, read, String.ofList_toList, found]

theorem reads_holding {name : String} {form : Json} {value : α} {inner : Reader α}
    (found : variants.lookup name = some (.holding inner)) (reads : inner.Reads form value) :
    (reader variants).Reads (.record [(name, form)]) value := by
  intro rest _
  have read := characters_flatMap name.toList (':' :: (write form ++ '}' :: rest))
  have ends : NumberEnds ('}' :: rest) := RecordShape.numberEnds_writeMembers [] rest
  simp only [write, writeMembers, quote, List.cons_append, List.append_assoc, List.nil_append]
  rw [reader, skipBlanks_cons rfl]
  simp only [skipBlanks_cons (c := '"') rfl, readName, read, String.ofList_toList, found,
    RecordShape.afterColon_colon, reads _ ends]
  rfl

end Variant
end PushGateway.Json
