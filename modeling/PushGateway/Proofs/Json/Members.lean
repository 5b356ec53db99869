import PushGateway.Json.Value
import PushGateway.Proofs.Text.Ascending

namespace PushGateway.Json

variable {members : Members}

theorem find?_eq_lookup (name : String) (members : Members) : find? name members = members.lookup name := by
  induction members with
  | nil => rfl
  | cons first later ih =>
    rw [find?, Ascending.lookup_cons, ih]
    exact if_congr eq_comm rfl rfl

theorem insert_eq_placed (name : String) (value : Json) (members : Members) :
    insert name value members = Ascending.placed name (fun _ => value) members := by
  induction members with
  | nil => rfl
  | cons first later ih => rw [insert, Ascending.placed, ih]

theorem insert_ascending (ascending : Ascending members) (name : String) (value : Json) :
    Ascending (insert name value members) := by
  rw [insert_eq_placed]
  exact Ascending.placed_ascending ascending ..

/-- To put a member in changes what stands under its own name only. -/
theorem find?_insert (ascending : Ascending members) (name : String) (value : Json) (other : String) :
    find? other (insert name value members) = if other = name then some value else find? other members := by
  rw [insert_eq_placed, find?_eq_lookup, find?_eq_lookup]
  exact Ascending.lookup_placed ascending ..

/-- Which of two members with different names is put in first does not matter. -/
theorem insert_comm (ascending : Ascending members) {first second : String} (different : first ≠ second)
    (a b : Json) :
    insert first a (insert second b members) = insert second b (insert first a members) := by
  have afterSecond := insert_ascending ascending second b
  have afterFirst := insert_ascending ascending first a
  refine Ascending.ext (insert_ascending afterSecond first a) (insert_ascending afterFirst second b) fun name => ?_
  rw [← find?_eq_lookup, ← find?_eq_lookup, find?_insert afterSecond, find?_insert afterFirst, find?_insert ascending,
    find?_insert ascending]
  by_cases own : name = first
  · rw [if_pos own, if_pos own, if_neg (own ▸ different)]
  · rw [if_neg own, if_neg own]

/-- A record with just the members that are given, by increasing name. -/
def HasMembers (value : Json) (given : String → Option Json) : Prop :=
  ∃ members, value = .record members ∧ Ascending members ∧ ∀ name, find? name members = given name

/-- There is no more than one. -/
theorem HasMembers.unique {value other : Json} {given : String → Option Json} (first : value.HasMembers given)
    (second : other.HasMembers given) : value = other := by
  obtain ⟨members, rfl, ascending, found⟩ := first
  obtain ⟨others, rfl, ascending', found'⟩ := second
  refine congrArg record (ascending.ext ascending' fun name => ?_)
  rw [← find?_eq_lookup, ← find?_eq_lookup, found, found']

end PushGateway.Json
