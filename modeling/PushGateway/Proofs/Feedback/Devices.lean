import Mathlib.Data.List.Dedup
import Mathlib.Data.List.Induction
import PushGateway.Proofs.Feedback.Fetching
import PushGateway.Proofs.Text.Ascending
import PushGateway.Proofs.Text.Digits

namespace PushGateway.Feedback

/-- What reports, each of a key with a time, say of one key: its latest time, if there is one at all. -/
def Latest (reports : List (String × UInt32)) (key : String) : Option UInt32 → Prop
  | none => ∀ time, (key, time) ∉ reports
  | some time => (key, time) ∈ reports ∧ ∀ other, (key, other) ∈ reports → other ≤ time

namespace Latest

variable {reports others : List (String × UInt32)} {key token : String} {time : UInt32} {a b : Option UInt32}

theorem unique (first : Latest reports key a) (second : Latest reports key b) : a = b := by
  cases a with
  | none =>
    cases b with
    | none => rfl
    | some time => exact absurd second.1 (first time)
  | some time =>
    cases b with
    | none => exact absurd first.1 (second time)
    | some other => rw [UInt32.le_antisymm (second.2 time first.1) (first.2 other second.1)]

/-- The order of reports, and how often each comes, does not matter. -/
theorem congr (same : ∀ time, (key, time) ∈ others ↔ (key, time) ∈ reports) (latest : Latest reports key a) :
    Latest others key a := by
  cases a with
  | none => exact fun time member => latest time ((same time).mp member)
  | some time => exact ⟨(same time).mpr latest.1, fun other member => latest.2 other ((same other).mp member)⟩

theorem append_other (different : key ≠ token) (latest : Latest reports key a) :
    Latest (reports ++ [(token, time)]) key a :=
  latest.congr (by simp [different])

theorem bound_append {bound : UInt32} (old : ∀ other, (token, other) ∈ reports → other ≤ bound) (new : time ≤ bound) :
    ∀ other, (token, other) ∈ reports ++ [(token, time)] → other ≤ bound := by
  intro other member
  rcases List.mem_append.mp member with before | last
  · exact old other before
  · cases List.mem_singleton.mp last
    exact new

/-- Of a new report and what was known before, the later time is the latest. -/
theorem append (latest : Latest reports token a) :
    Latest (reports ++ [(token, time)]) token (some (a.elim time (max · time))) := by
  have reported : (token, time) ∈ reports ++ [(token, time)] := List.mem_append_right _ (List.mem_singleton_self _)
  cases a with
  | none => exact ⟨reported, bound_append (fun other old => absurd old (latest other)) (UInt32.le_refl time)⟩
  | some known =>
    obtain ⟨old, bound⟩ := latest
    rw [Option.elim, UInt32.max_def]
    split <;> rename_i order
    · exact ⟨reported, bound_append (fun other before => UInt32.le_trans (bound other before) order) (UInt32.le_refl time)⟩
    · exact ⟨List.mem_append_left _ old, bound_append bound ((UInt32.le_total known time).resolve_left order)⟩

end Latest

namespace Devices

/-- The keys increase. -/
def Sorted (devices : Devices) : Prop := devices.Pairwise (·.1 < ·.1)

variable {devices others : Devices} {token key : String} {time : UInt32}

theorem report_eq_placed (token : String) (time : UInt32) (devices : Devices) :
    devices.report token time = Ascending.placed token (fun known => known.elim time (max · time)) devices := by
  induction devices with
  | nil => rfl
  | cons first later ih => rw [report, Ascending.placed, ih]; rfl

theorem report_sorted (sorted : devices.Sorted) (token : String) (time : UInt32) :
    (devices.report token time).Sorted := by
  rw [report_eq_placed]
  exact Ascending.placed_ascending sorted ..

/-- A report changes what is known of its own key only. There the later time counts. -/
theorem lookup_report (sorted : devices.Sorted) (token : String) (time : UInt32) (key : String) :
    (devices.report token time).lookup key =
      if key = token then some ((devices.lookup token).elim time (max · time)) else devices.lookup key := by
  rw [report_eq_placed]
  exact Ascending.lookup_placed sorted ..

theorem keys_nodup (sorted : devices.Sorted) : (devices.map Prod.fst).Nodup := Ascending.names_nodup sorted

/-- Devices by reports, each of a key with a time. -/
def ofReports (reports : List (String × UInt32)) : Devices :=
  reports.foldl (fun devices report => devices.report report.1 report.2) []

theorem ofReports_append (reports : List (String × UInt32)) (token : String) (time : UInt32) :
    ofReports (reports ++ [(token, time)]) = (ofReports reports).report token time := by
  rw [ofReports, List.foldl_append]
  rfl

theorem ofRecords_eq (records : List Record) :
    ofRecords records = ofReports (records.map fun record => (record.hexToken, record.timestamp)) := by
  rw [ofReports, List.foldl_map]
  rfl

theorem ofReports_sorted (reports : List (String × UInt32)) : (ofReports reports).Sorted := by
  induction reports using List.reverseRecOn with
  | nil => exact .nil
  | append_singleton reports report ih =>
    rw [ofReports_append]
    exact report_sorted ih ..

/-- Of each key the latest time is known. -/
theorem lookup_latest (reports : List (String × UInt32)) (key : String) :
    Latest reports key ((ofReports reports).lookup key) := by
  -- the last report is the one that is taken in last
  induction reports using List.reverseRecOn with
  | nil => exact fun time member => nomatch member
  | append_singleton reports report ih =>
    obtain ⟨token, time⟩ := report
    rw [ofReports_append, lookup_report (ofReports_sorted reports)]
    split
    · rename_i same
      subst same
      exact ih.append
    · rename_i different
      exact ih.append_other different

theorem mem_ofReports_iff {reports : List (String × UInt32)} :
    (key, time) ∈ ofReports reports ↔ Latest reports key (some time) := by
  rw [Ascending.mem_iff_lookup (ofReports_sorted reports)]
  have latest := lookup_latest reports key
  exact ⟨fun found => found ▸ latest, fun other => latest.unique other⟩

/-- The order of the reports does not matter. -/
theorem ofReports_perm {reports reports' : List (String × UInt32)} (perm : reports.Perm reports') :
    ofReports reports = ofReports reports' :=
  Ascending.ext (ofReports_sorted reports) (ofReports_sorted reports') fun key =>
    (lookup_latest reports key).unique ((lookup_latest reports' key).congr fun _ => perm.mem_iff)

theorem mem_keys_iff {reports : List (String × UInt32)} :
    key ∈ (ofReports reports).map Prod.fst ↔ key ∈ reports.map Prod.fst := by
  simp only [List.mem_map, Prod.exists, exists_and_right, exists_eq_right]
  constructor
  · rintro ⟨time, member⟩
    exact ⟨time, (mem_ofReports_iff.mp member).1⟩
  · rintro ⟨time, member⟩
    have latest := lookup_latest reports key
    cases known : (ofReports reports).lookup key with
    | none =>
      rw [known] at latest
      exact absurd member (latest time)
    | some last => exact ⟨last, (Ascending.mem_iff_lookup (ofReports_sorted reports)).mpr known⟩

end Devices

variable {σ : Type} {net : Network σ} {endpoint : Endpoint} {w : World σ} {records : List Record}

theorem inactiveDevices_of_fetch (delivered : (fetch net endpoint w).1 = .ok records) :
    (inactiveDevices net endpoint w).1 = .ok (.ofRecords records) := by
  unfold inactiveDevices
  split <;> rename_i fetched <;> rw [fetched] at delivered <;> cases delivered
  rfl

/-- The reports that records make, told by their tokens. -/
theorem latest_records_iff {token : Bytes} {time : UInt32} :
    Latest (records.map fun record => (record.hexToken, record.timestamp)) (Hex.encode token) (some time) ↔
      ⟨time, token⟩ ∈ records ∧ ∀ record ∈ records, record.token = token → record.timestamp ≤ time := by
  have reported : ∀ other, (Hex.encode token, other) ∈ records.map (fun record => (record.hexToken, record.timestamp)) ↔
      ⟨other, token⟩ ∈ records := by
    intro other
    rw [List.mem_map]
    constructor
    · rintro ⟨⟨timestamp, name⟩, member, same⟩
      obtain ⟨key, rfl⟩ := Prod.mk.inj same
      rwa [← Hex.encode_inj key]
    · exact fun member => ⟨_, member, rfl⟩
  simp only [Latest, reported]
  refine and_congr_right fun _ => ⟨?_, ?_⟩
  · rintro bound ⟨timestamp, _⟩ member rfl
    exact bound timestamp member
  · exact fun bound other member => bound _ member rfl

/-- The devices that come back are those that the records name, whichever records were delivered: there is one entry for
each token, under its lower-case hexadecimal digits, with the latest time that was reported of it. Different tokens
have different texts, and the order in which the records come does not matter. -/
theorem inactiveDevices_latest (delivered : (fetch net endpoint w).1 = .ok records) :
    ∃ devices, (inactiveDevices net endpoint w).1 = .ok devices ∧
      (devices.map Prod.fst).Nodup ∧
      (devices.map Prod.fst).Perm ((records.map Record.token).dedup.map Hex.encode) ∧
      (∀ token time, (Hex.encode token, time) ∈ devices ↔
        ⟨time, token⟩ ∈ records ∧ ∀ record ∈ records, record.token = token → record.timestamp ≤ time) ∧
      (∀ token other, Hex.encode token = Hex.encode other → token = other) ∧
      (∀ token, (Hex.encode token).length = 2 * token.length ∧ ∀ c ∈ (Hex.encode token).toList, c ∈ Hex.digits) ∧
      ∀ (τ : Type) (net' : Network τ) (endpoint' : Endpoint) (w' : World τ) (records' : List Record),
        (fetch net' endpoint' w').1 = .ok records' → records'.Perm records →
          (inactiveDevices net' endpoint' w').1 = .ok devices := by
  refine ⟨.ofRecords records, inactiveDevices_of_fetch delivered, ?_, ?_, ?_, fun _ _ => Hex.encode_inj,
    Hex.encode_lower, ?_⟩
  · rw [Devices.ofRecords_eq]
    exact Devices.keys_nodup (Devices.ofReports_sorted _)
  · rw [Devices.ofRecords_eq]
    refine (List.perm_ext_iff_of_nodup (Devices.keys_nodup (Devices.ofReports_sorted _)) ?_).mpr fun key => ?_
    · exact (List.nodup_dedup _).map fun _ _ => Hex.encode_inj
    · rw [Devices.mem_keys_iff]
      simp [Record.hexToken]
  · intro token time
    rw [Devices.ofRecords_eq, Devices.mem_ofReports_iff, latest_records_iff]
  · intro τ net' endpoint' w' records' delivered' perm
    rw [inactiveDevices_of_fetch delivered', Devices.ofRecords_eq, Devices.ofRecords_eq,
      Devices.ofReports_perm (perm.map _)]

/-- Two devices that are each reported twice, one of them with no token at all, in two orders. -/
theorem inactiveDevices_latest_in_memory :
    let delivering (inbound : Bytes) : World Memory := { outside := { scripts := [⟨inbound, true⟩] } }
    let first : World Memory := delivering
      [0, 0, 0, 9, 0, 1, 171, 0, 0, 0, 3, 0, 0, 0, 0, 0, 5, 0, 1, 171, 0, 0, 0, 4, 0, 0]
    let second : World Memory := delivering
      [0, 0, 0, 4, 0, 0, 0, 0, 0, 5, 0, 1, 171, 0, 0, 0, 9, 0, 1, 171, 0, 0, 0, 3, 0, 0]
    (fetch Memory.network .sandboxFeedback first).1 = .ok [⟨9, [171]⟩, ⟨3, []⟩, ⟨5, [171]⟩, ⟨4, []⟩] ∧
      ∃ devices, (inactiveDevices Memory.network .sandboxFeedback first).1 = .ok devices ∧ devices.length = 2 ∧
        (Hex.encode [171], 9) ∈ devices ∧ (Hex.encode [], 4) ∈ devices ∧
        (inactiveDevices Memory.network .sandboxFeedback second).1 = .ok devices := by
  intro delivering first second
  have fetched (records : List Record) (pieces : List Bytes) (encodings : records.map Record.encode = pieces.map .ok) :
      (fetch Memory.network .sandboxFeedback (delivering pieces.flatten)).1 = .ok records := by
    have read : (readAll [.bytes pieces.flatten]).1 = .ok records :=
      readAll_eq_ok_iff.mpr ⟨rfl, pieces, encodings, List.append_nil _⟩
    have run := fetch_of_connected Memory.network .sandboxFeedback (delivering pieces.flatten) rfl
      (show Memory.network.inbound 0 _ = ([.bytes pieces.flatten], _) from rfl)
    rw [run, read]
  have delivered := fetched [⟨9, [171]⟩, ⟨3, []⟩, ⟨5, [171]⟩, ⟨4, []⟩]
    [[0, 0, 0, 9, 0, 1, 171], [0, 0, 0, 3, 0, 0], [0, 0, 0, 5, 0, 1, 171], [0, 0, 0, 4, 0, 0]] rfl
  have delivered' := fetched [⟨4, []⟩, ⟨5, [171]⟩, ⟨9, [171]⟩, ⟨3, []⟩]
    [[0, 0, 0, 4, 0, 0], [0, 0, 0, 5, 0, 1, 171], [0, 0, 0, 9, 0, 1, 171], [0, 0, 0, 3, 0, 0]] rfl
  obtain ⟨devices, found, _, keys, latest, _, _, order⟩ := inactiveDevices_latest delivered
  refine ⟨delivered, devices, found, ?_, (latest [171] 9).mpr (by decide), (latest [] 4).mpr (by decide),
    order _ _ _ second _ delivered' (by decide)⟩
  rw [← List.length_map Prod.fst, keys.length_eq]
  rfl

end PushGateway.Feedback
