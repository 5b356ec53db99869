import PushGateway.Proofs.Json.Compact
import PushGateway.Proofs.Payload.LastSaid

namespace PushGateway.Payload

open Json

variable {said : Setting → Option Json}

theorem plain_of_alertOf {alert : Option Json} (alertOf : AlertOf said alert)
    (plain : ∀ setting value, said setting = some value → value.Plain) {value : Json} (same : alert = some value) :
    value.Plain := by
  cases alertOf with
  | plain => exact plain .alertBody value same
  | detailed _ members =>
    cases same
    refine members.plain fun name member given => ?_
    split at given
    · exact plain .actionKey member given
    split at given
    · exact plain .localizedKey member given
    split at given
    · exact plain .localizedArguments member given
    split at given
    · exact plain .alertBody member given
    · cases given

theorem Tells.plain {value : Json} (tells : Tells said value)
    (plain : ∀ setting value, said setting = some value → value.Plain) : value.Plain := by
  obtain ⟨alert, system, whole⟩ := tells
  have systemPlain := system.plain fun name member given => by
    split at given
    · exact plain_of_alertOf alert plain given
    split at given
    · exact plain .badge member given
    split at given
    · exact plain .sound member given
    · cases given
  refine whole.plain fun name member given => ?_
  split at given
  · cases given
    exact systemPlain
  · exact plain (.custom name) member given

/-- Nothing but what is said for the application can have a number that is no integer in it. -/
theorem plain_of_lastSaid {parts : List Part} (plain : ∀ name value, .custom name value ∈ parts → value.Plain)
    {setting : Setting} {value : Json} (said : lastSaid parts setting = some value) : value.Plain := by
  obtain ⟨part, last, rfl⟩ := Option.map_eq_some_iff.mp said
  have member := (List.mem_filter.mp (List.mem_of_getLast? last)).1
  cases part with
  | custom name value => exact plain name value member
  | alertBody text | sound text | actionKey text | localizedKey text => exact .text text
  | badge n => exact .whole _
  | clearBadge => exact .whole _
  | noActionButton => exact .text _
  | localizedArguments arguments =>
    refine .list fun item inside => ?_
    obtain ⟨argument, _, rfl⟩ := List.mem_map.mp inside
    exact .text argument

theorem plain_toJson {parts : List Part} (plain : ∀ name value, .custom name value ∈ parts → value.Plain) :
    (ofParts parts).toJson.Plain := by
  have tells := toJson_tells (ofParts_ascending parts)
  rw [kept_ofParts] at tells
  exact tells.plain fun _ _ => plain_of_lastSaid plain

/-- The text of a payload is the compact text of its value, and it is read as this value, if the application adds no
number with a fraction or an exponent. What is read is the format, however deeply values are nested in it. What a
notification carries are the bytes of this text. Payloads have the same text just if they have the same value. -/
theorem text_lossless {parts : List Part} (plain : ∀ name value, .custom name value ∈ parts → value.Plain) :
    (∃ text, (ofParts parts).build = .ok text ∧ Written (ofParts parts).toJson text.toList ∧
      Json.read text = .ok (ofParts parts).toJson ∧
      (ofParts parts).buildBytes = .ok (text.toList.flatMap String.utf8EncodeChar)) ∧
    ∀ others, (∀ name value, .custom name value ∈ others → value.Plain) →
      ((ofParts others).build = (ofParts parts).build ↔ (ofParts others).toJson = (ofParts parts).toJson) := by
  have value := plain_toJson plain
  refine ⟨⟨(ofParts parts).text, rfl, ?_, value.read_compact, ?_⟩, fun others plain' =>
    ⟨fun same => ?_, fun same => ?_⟩⟩
  · rw [text, compact, String.toList_ofList]
    exact value.written
  · rw [← Text.utf8_eq_flatMap]
    rfl
  · have texts : (ofParts others).toJson.compact = (ofParts parts).toJson.compact := Except.ok.inj same
    have read := (plain_toJson plain').read_compact
    rw [texts, value.read_compact] at read
    exact (Except.ok.inj read).symm
  · rw [build, build, text, text, same]

/-- Quotes, a backslash, a control and a letter with an accent in the alert, and the least and the greatest integer in
what the application adds. Said in another order, it is the same text. -/
theorem text_lossless_quoted :
    let added : Json := .record [("least", .list [.whole ⟨-9223372036854775808, by decide, by decide⟩, .null]),
      ("most", .whole ⟨18446744073709551615, by decide, by decide⟩)]
    let parts : List Part := [.custom "limits" added, .alertBody "\"C:\\é\x01\"", .badge (-3)]
    let others : List Part := [.badge (-3), .custom "limits" added, .alertBody "\"C:\\é\x01\""]
    (∀ name value, .custom name value ∈ parts → value.Plain) ∧
      (∀ name value, .custom name value ∈ others → value.Plain) ∧
      (∃ text, (ofParts parts).build = .ok text ∧ Json.read text = .ok (ofParts parts).toJson) ∧
      (ofParts others).build = (ofParts parts).build := by
  intro added parts others
  have least : (Json.list [.whole ⟨-9223372036854775808, by decide, by decide⟩, .null]).Plain := by
    refine .list fun item inside => ?_
    rcases List.mem_pair.mp inside with rfl | rfl
    · exact .whole _
    · exact .null
  have addedPlain : added.Plain := by
    refine .record (List.pairwise_pair.mpr (by decide)) fun member inside => ?_
    rcases List.mem_pair.mp inside with rfl | rfl
    · exact least
    · exact .whole _
  have plain : ∀ name value, .custom name value ∈ parts → value.Plain := by
    intro name value said
    obtain ⟨_, rfl⟩ : name = "limits" ∧ value = added := by simpa [parts] using said
    exact addedPlain
  have plain' : ∀ name value, .custom name value ∈ others → value.Plain := by
    intro name value said
    obtain ⟨_, rfl⟩ : name = "limits" ∧ value = added := by simpa [others] using said
    exact addedPlain
  obtain ⟨⟨text, built, _, read, _⟩, same⟩ := text_lossless plain
  exact ⟨plain, plain', ⟨text, built, read⟩, (same others plain').mpr rfl⟩

example : (ofParts [.sound "a\tb", .custom "z" (.list [.bool true, .text "é\x1f"]), .custom "Z" .null]).text =
    "\x7b\"Z\":null,\"aps\":\x7b\"sound\":\"a\\tb\"\x7d,\"z\":[true,\"é\\u001f\"]\x7d" := by cbv

end PushGateway.Payload
