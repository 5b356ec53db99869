import Mathlib.Data.List.Induction
import PushGateway.Payload
import PushGateway.Proofs.Json.Members

namespace PushGateway.Payload

open Json

/-- The things that a payload can tell. What is said of one leaves the others alone. -/
inductive Setting
  | alertBody | badge | sound | actionKey | localizedKey | localizedArguments
  | custom (name : String)
  deriving DecidableEq

namespace Part

/-- Of what a part tells. -/
def setting : Part → Setting
  | alertBody _ => .alertBody
  | badge _ | clearBadge => .badge
  | sound _ => .sound
  | actionKey _ | noActionButton => .actionKey
  | localizedKey _ => .localizedKey
  | localizedArguments _ => .localizedArguments
  | custom name _ => .custom name

/-- What it tells. -/
def value : Part → Json
  | alertBody text | sound text | actionKey text | localizedKey text => .text text
  | badge n => .whole (.ofInt32 n)
  | clearBadge => .whole (.ofInt32 0)
  | noActionButton => .text "null"
  | localizedArguments arguments => .list (arguments.map .text)
  | custom _ value => value

end Part

/-- What was said last of a setting. -/
def lastSaid (parts : List Part) (setting : Setting) : Option Json :=
  (parts.filter (·.setting = setting)).getLast?.map Part.value

/-- An alert: a text alone, or a record as soon as there is more to it. -/
inductive AlertOf (said : Setting → Option Json) : Option Json → Prop
  | plain : said .actionKey = none → said .localizedKey = none → said .localizedArguments = none →
      AlertOf said (said .alertBody)
  | detailed {record : Json} :
      ¬ (said .actionKey = none ∧ said .localizedKey = none ∧ said .localizedArguments = none) →
      (record.HasMembers fun name =>
        if name = "action-loc-key" then said .actionKey
        else if name = "loc-key" then said .localizedKey
        else if name = "loc-args" then said .localizedArguments
        else if name = "body" then said .alertBody
        else none) →
      AlertOf said (some record)

/-- A payload that tells this of each setting. -/
inductive Tells (said : Setting → Option Json) (value : Json) : Prop
  | tells {alert : Option Json} {system : Json} : AlertOf said alert →
      (system.HasMembers fun name =>
        if name = "alert" then alert
        else if name = "badge" then said .badge
        else if name = "sound" then said .sound
        else none) →
      (value.HasMembers fun name => if name = "aps" then some system else said (.custom name)) →
      Tells said value

theorem AlertOf.unique {said : Setting → Option Json} {alert other : Option Json} (first : AlertOf said alert)
    (second : AlertOf said other) : alert = other := by
  cases first with
  | plain action key arguments =>
    cases second with
    | plain => rfl
    | detailed more => exact absurd ⟨action, key, arguments⟩ more
  | detailed more record =>
    cases second with
    | plain action key arguments => exact absurd ⟨action, key, arguments⟩ more
    | detailed _ record' => rw [record.unique record']

theorem Tells.unique {said : Setting → Option Json} {value other : Json} (first : Tells said value)
    (second : Tells said other) : value = other := by
  obtain ⟨alert, system, whole⟩ := first
  obtain ⟨alert', system', whole'⟩ := second
  cases alert.unique alert'
  cases system.unique system'
  exact whole.unique whole'

/-- What a payload keeps of a setting. -/
def kept (p : Payload) : Setting → Option Json
  | .alertBody => p.alertBody.map .text
  | .badge => p.badge.map fun n => .whole (.ofInt32 n)
  | .sound => p.sound.map .text
  | .actionKey => p.actionKey.map .text
  | .localizedKey => p.localizedKey.map .text
  | .localizedArguments => p.localizedArguments.map fun arguments => .list (arguments.map .text)
  | .custom name => find? name p.custom

variable {p : Payload}

theorem kept_say (ascending : Ascending p.custom) (part : Part) (setting : Setting) :
    (p.say part).kept setting = if setting = part.setting then some part.value else p.kept setting := by
  cases part with
  | custom name value =>
    cases setting with
    | custom other =>
      have own := find?_insert ascending name value other
      simp only [Part.setting, Setting.custom.injEq]
      exact own
    | _ => rfl
  | _ => cases setting <;> rfl

theorem say_ascending (ascending : Ascending p.custom) (part : Part) : Ascending (p.say part).custom := by
  cases part with
  | custom name value => exact insert_ascending ascending name value
  | _ => exact ascending

theorem ofParts_append (parts : List Part) (part : Part) : ofParts (parts ++ [part]) = (ofParts parts).say part :=
  List.foldl_concat ..

theorem ofParts_ascending (parts : List Part) : Ascending (ofParts parts).custom := by
  induction parts using List.reverseRecOn with
  | nil => exact .nil
  | append_singleton parts part ih =>
    rw [ofParts_append]
    exact say_ascending ih part

theorem lastSaid_append (parts : List Part) (part : Part) (setting : Setting) :
    lastSaid (parts ++ [part]) setting =
      if setting = part.setting then some part.value else lastSaid parts setting := by
  rw [lastSaid, lastSaid, List.filter_append]
  split
  · rename_i same
    simp [same]
  · rename_i different
    simp [Ne.symm different]

theorem kept_ofParts (parts : List Part) : (ofParts parts).kept = lastSaid parts := by
  -- the last part is the one that is said last
  induction parts using List.reverseRecOn with
  | nil => funext setting; cases setting <;> rfl
  | append_singleton parts part ih =>
    funext setting
    rw [ofParts_append, kept_say (ofParts_ascending parts), lastSaid_append, ih]

section Putting
variable {α : Type} {members : Members}

theorem put_ascending (ascending : Ascending members) (name : String) (form : α → Json) (value : Option α) :
    Ascending (put name form value members) := by
  cases value with
  | none => exact ascending
  | some value => exact insert_ascending ascending name (form value)

theorem find?_put (ascending : Ascending members) (name : String) (form : α → Json) (value : Option α)
    (other : String) :
    find? other (put name form value members) =
      if other = name then (value.map form).or (find? other members) else find? other members := by
  cases value with
  | none => exact (ite_self _).symm
  | some value => exact find?_insert ascending name (form value) other

end Putting

theorem alertProperties_ascending (p : Payload) : Ascending p.alertProperties :=
  put_ascending (put_ascending (put_ascending .nil ..) ..) ..

theorem find?_alertProperties (p : Payload) (name : String) :
    find? name p.alertProperties =
      if name = "action-loc-key" then p.kept .actionKey
      else if name = "loc-key" then p.kept .localizedKey
      else if name = "loc-args" then p.kept .localizedArguments
      else none := by
  have arguments : Ascending (put "loc-args" (fun arguments => .list (arguments.map .text)) p.localizedArguments []) :=
    put_ascending .nil ..
  have key := put_ascending arguments "loc-key" .text p.localizedKey
  rw [alertProperties, find?_put key, find?_put arguments, find?_put .nil]
  by_cases action : name = "action-loc-key"
  · subst action
    simp [kept, find?]
  by_cases localized : name = "loc-key"
  · subst localized
    simp [kept, find?]
  · simp [kept, find?, action, localized]

theorem alertProperties_eq_nil_iff (p : Payload) :
    p.alertProperties = [] ↔
      p.kept .actionKey = none ∧ p.kept .localizedKey = none ∧ p.kept .localizedArguments = none := by
  constructor
  · intro none
    have found := find?_alertProperties p
    rw [none] at found
    exact ⟨(found "action-loc-key").symm, (found "loc-key").symm, (found "loc-args").symm⟩
  · simp only [kept, Option.map_eq_none_iff]
    rintro ⟨action, key, arguments⟩
    rw [alertProperties, action, key, arguments]
    rfl

theorem alert_of_kept (p : Payload) : AlertOf p.kept p.alert := by
  unfold alert
  split
  · rename_i none
    obtain ⟨action, key, arguments⟩ := (alertProperties_eq_nil_iff p).mp none
    exact .plain action key arguments
  · rename_i some
    refine .detailed (fun none => some ((alertProperties_eq_nil_iff p).mpr none)) ?_
    refine ⟨_, rfl, put_ascending (alertProperties_ascending p) .., fun name => ?_⟩
    rw [find?_put (alertProperties_ascending p), find?_alertProperties]
    by_cases body : name = "body"
    · subst body
      simp [kept]
    · simp only [if_neg body]

theorem system_of_kept (p : Payload) :
    p.system.HasMembers fun name =>
      if name = "alert" then p.alert
      else if name = "badge" then p.kept .badge
      else if name = "sound" then p.kept .sound
      else none := by
  have sound : Ascending (put "sound" .text p.sound []) := put_ascending .nil ..
  have badge : Ascending (put "badge" (fun n => .whole (.ofInt32 n)) p.badge (put "sound" .text p.sound [])) :=
    put_ascending sound ..
  refine ⟨_, rfl, put_ascending badge .., fun name => ?_⟩
  rw [find?_put badge, find?_put sound, find?_put .nil]
  by_cases alert : name = "alert"
  · subst alert
    simp [find?]
  by_cases badge : name = "badge"
  · subst badge
    simp [kept, find?]
  · simp [kept, find?, alert, badge]

theorem toJson_tells (ascending : Ascending p.custom) : Tells p.kept p.toJson := by
  refine .tells (alert_of_kept p) (system_of_kept p) ⟨_, rfl, insert_ascending ascending .., fun name => ?_⟩
  exact find?_insert ascending ..

/-- Of two parts that tell of different settings, either may be said first. -/
theorem say_comm (ascending : Ascending p.custom) {a b : Part} (different : a.setting ≠ b.setting) :
    (p.say a).say b = (p.say b).say a := by
  cases a with
  | custom name value =>
    cases b with
    | custom other value' =>
      have names : other ≠ name := fun same => different (congrArg Setting.custom same.symm)
      have commutes := insert_comm ascending names value' value
      exact congrArg (fun custom => { p with custom }) commutes
    | _ => rfl
  | _ => cases b <;> first | rfl | exact absurd rfl different

/-- What a client does with a payload: it says more, or it has the value built. -/
inductive Step
  | say (part : Part)
  | build

/-- The values that are built, and the payload that is there in the end. -/
def work (p : Payload) : List Step → List Json × Payload
  | [] => ([], p)
  | .say part :: steps => (p.say part).work steps
  | .build :: steps => (p.toJson :: (p.work steps).1, (p.work steps).2)

/-- What is said in these steps. -/
def saidIn (steps : List Step) : List Part :=
  steps.filterMap fun
    | .say part => some part
    | .build => none

/-- What comes behind some steps finds the payload of which all has been said that was said in them. -/
theorem work_append (p : Payload) (before after : List Step) :
    p.work (before ++ after) =
      ((p.work before).1 ++ (((saidIn before).foldl say p).work after).1,
        (((saidIn before).foldl say p).work after).2) := by
  induction before generalizing p with
  | nil => rfl
  | cons step before ih =>
    cases step with
    | say part => exact ih (p.say part)
    | build =>
      rw [List.cons_append, work, ih]
      rfl

/-- A payload is made of what was said last of each setting, and of nothing else. Two parts that tell of different
settings can be exchanged wherever they are said, and to build the value changes neither the payload nor what is
built later. -/
theorem toJson_of_last_said (parts : List Part) :
    (∀ value, Tells (lastSaid parts) value ↔ value = (ofParts parts).toJson) ∧
    (∀ others, (∀ setting, lastSaid others setting = lastSaid parts setting) →
      (ofParts others).toJson = (ofParts parts).toJson) ∧
    (∀ (a b : Part) before after, a.setting ≠ b.setting → parts = before ++ a :: b :: after →
      ofParts (before ++ b :: a :: after) = ofParts parts) ∧
    ∀ before after, saidIn before = parts →
      work {} (before ++ after) =
        ((work {} before).1 ++ ((ofParts parts).work after).1, ((ofParts parts).work after).2) ∧
      work {} (before ++ .build :: after) =
        ((work {} before).1 ++ (ofParts parts).toJson :: ((ofParts parts).work after).1,
          ((ofParts parts).work after).2) := by
  have tells (parts : List Part) : Tells (lastSaid parts) (ofParts parts).toJson := by
    rw [← kept_ofParts]
    exact toJson_tells (ofParts_ascending parts)
  refine ⟨fun value => ⟨fun other => other.unique (tells parts), ?_⟩, fun others same => ?_, ?_, ?_⟩
  · rintro rfl
    exact tells parts
  · have told := tells others
    rw [funext same] at told
    exact told.unique (tells parts)
  · rintro a b before after different rfl
    simp only [ofParts, List.foldl_append, List.foldl_cons]
    exact congrArg (after.foldl say) (say_comm (ofParts_ascending before) different.symm)
  · rintro before after rfl
    exact ⟨work_append {} before after, work_append {} before (.build :: after)⟩

/-- A badge that is cleared after it was set, an alert that gets its text behind its button, and a custom member that
is lost. -/
theorem toJson_of_last_said_exchanged :
    let parts : List Part := [.badge 7, .actionKey "View", .custom "aps" (.text "mine"), .alertBody "Hi", .clearBadge]
    (Part.custom "aps" (.text "mine")).setting ≠ (Part.alertBody "Hi").setting ∧
      ofParts [.badge 7, .actionKey "View", .alertBody "Hi", .custom "aps" (.text "mine"), .clearBadge] =
        ofParts parts ∧
      lastSaid parts .badge = some (.whole (.ofInt32 0)) ∧ lastSaid parts (.custom "aps") = some (.text "mine") ∧
      Tells (lastSaid parts) (ofParts parts).toJson := by
  intro parts
  obtain ⟨tells, _, exchange, _⟩ := toJson_of_last_said parts
  have different : (Part.custom "aps" (.text "mine")).setting ≠ (Part.alertBody "Hi").setting := nofun
  have whole : Tells (lastSaid parts) (ofParts parts).toJson := (tells _).mpr rfl
  exact ⟨different, exchange _ _ [.badge 7, .actionKey "View"] [.clearBadge] different rfl, rfl, rfl, whole⟩

example : (ofParts [.badge 7, .actionKey "View", .custom "aps" (.text "mine"), .alertBody "Hi", .clearBadge]).toJson =
    .record [("aps", .record [("alert", .record [("action-loc-key", .text "View"), ("body", .text "Hi")]),
      ("badge", .whole (.ofInt32 0))])] := by cbv

end PushGateway.Payload
