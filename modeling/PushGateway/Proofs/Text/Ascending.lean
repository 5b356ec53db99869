import Mathlib.Data.List.Nodup

namespace PushGateway

/-- Names that increase, so that none comes twice. Each has a value. -/
def Ascending {α : Type} (entries : List (String × α)) : Prop := entries.Pairwise (·.1 < ·.1)

namespace Ascending

variable {α : Type} {entries others : List (String × α)} {name : String} {value : α}

theorem lookup_cons (name : String) (value : α) (entries : List (String × α)) (other : String) :
    List.lookup other ((name, value) :: entries) = if other = name then some value else entries.lookup other := by
  rw [List.lookup_cons]
  by_cases same : other = name
  · simp [same]
  · simp [same, beq_false_of_ne same]

/-- A name before all the others is none of them. -/
theorem lookup_of_below (below : ∀ entry ∈ entries, name < entry.1) : entries.lookup name = none := by
  refine List.lookup_eq_none_iff.mpr fun entry member => bne_iff_ne.mpr ?_
  rintro rfl
  exact String.lt_irrefl _ (below entry member)

theorem below_of_lt {first : String × α} (ascending : Ascending (first :: entries)) (less : name < first.1) :
    ∀ entry ∈ first :: entries, name < entry.1 := by
  intro entry member
  rcases List.mem_cons.mp member with rfl | behind
  · exact less
  · exact String.lt_trans less ((List.pairwise_cons.mp ascending).1 entry behind)

theorem mem_iff_lookup (ascending : Ascending entries) : (name, value) ∈ entries ↔ entries.lookup name = some value := by
  induction entries with
  | nil => simp
  | cons first later ih =>
    obtain ⟨other, old⟩ := first
    obtain ⟨below, rest⟩ := List.pairwise_cons.mp ascending
    rw [lookup_cons, List.mem_cons, ih rest]
    split
    · rename_i same
      subst same
      simp [lookup_of_below below, eq_comm]
    · rename_i different
      simp [different]

theorem names_nodup (ascending : Ascending entries) : (entries.map Prod.fst).Nodup := by
  rw [List.Nodup, List.pairwise_map]
  refine ascending.imp ?_
  intro a b less same
  rw [same] at less
  exact String.lt_irrefl _ less

/-- Such entries are known by what stands under each name. -/
theorem ext (ascending : Ascending entries) (ascending' : Ascending others)
    (same : ∀ name, entries.lookup name = others.lookup name) : entries = others := by
  have perm : entries.Perm others :=
    (List.perm_ext_iff_of_nodup ascending.names_nodup.of_map ascending'.names_nodup.of_map).mpr fun ⟨name, value⟩ => by
      rw [ascending.mem_iff_lookup, ascending'.mem_iff_lookup, same]
  exact perm.eq_of_pairwise (fun a b _ _ less more => absurd (String.lt_trans less more) (String.lt_irrefl _))
    ascending ascending'

section Placing
variable {update : Option α → α}

/-- Puts the value of a name in its place, which may depend on an older one. -/
def placed (name : String) (update : Option α → α) : List (String × α) → List (String × α)
  | [] => [(name, update none)]
  | (other, old) :: later =>
    if name < other then (name, update none) :: (other, old) :: later
    else if name = other then (name, update (some old)) :: later
    else (other, old) :: placed name update later

theorem mem_placed {entry : String × α} (member : entry ∈ placed name update entries) :
    entry.1 = name ∨ entry ∈ entries := by
  induction entries with
  | nil => exact .inl (congrArg Prod.fst (List.mem_singleton.mp member))
  | cons first later ih =>
    obtain ⟨other, old⟩ := first
    rw [placed] at member
    split at member
    · rcases List.mem_cons.mp member with rfl | behind
      · exact .inl rfl
      · exact .inr behind
    · split at member <;> rcases List.mem_cons.mp member with rfl | behind
      · exact .inl rfl
      · exact .inr (List.mem_cons_of_mem _ behind)
      · exact .inr List.mem_cons_self
      · exact (ih behind).imp_right (List.mem_cons_of_mem _)

theorem placed_ascending (ascending : Ascending entries) (name : String) (update : Option α → α) :
    Ascending (placed name update entries) := by
  induction entries with
  | nil => exact List.pairwise_singleton ..
  | cons first later ih =>
    obtain ⟨other, old⟩ := first
    obtain ⟨below, rest⟩ := List.pairwise_cons.mp ascending
    rw [placed]
    split
    · rename_i less
      exact List.pairwise_cons.mpr ⟨below_of_lt ascending less, ascending⟩
    · rename_i notLess
      split
      · rename_i same
        subst same
        exact List.pairwise_cons.mpr ⟨below, rest⟩
      · rename_i different
        refine List.pairwise_cons.mpr ⟨fun entry member => ?_, ih rest⟩
        rcases mem_placed member with new | behind
        · rw [new]
          exact Std.lt_of_le_of_ne (String.not_lt.mp notLess) (Ne.symm different)
        · exact below entry behind

/-- Only what stands under the name changes. -/
theorem lookup_placed (ascending : Ascending entries) (name : String) (update : Option α → α) (other : String) :
    (placed name update entries).lookup other =
      if other = name then some (update (entries.lookup name)) else entries.lookup other := by
  induction entries with
  | nil => exact lookup_cons ..
  | cons first later ih =>
    obtain ⟨known, old⟩ := first
    have rest : Ascending later := (List.pairwise_cons.mp ascending).2
    rw [placed]
    split
    · rename_i less
      rw [lookup_cons, lookup_of_below (below_of_lt ascending less)]
    · split
      · rename_i same
        subst same
        rw [lookup_cons, lookup_cons, lookup_cons, if_pos rfl]
        split <;> rfl
      · rename_i different
        rw [lookup_cons, lookup_cons, lookup_cons, if_neg different, ih rest]
        by_cases own : other = name
        · rw [if_pos own, if_pos own, if_neg (own ▸ different)]
        · rw [if_neg own, if_neg own]

end Placing
end Ascending
end PushGateway
