import PushGateway.Feedback.Fetch
import PushGateway.Memory.Network
import PushGateway.Proofs.Feedback.Reading

namespace PushGateway.Feedback

open Reader

variable {inbound : Inbound} {records : List Record}

theorem ending_eq_none_iff {stop : Option IoError} {tail : Bytes} :
    ending stop tail = none ↔ stop = none ∧ tail = [] := by
  match stop, tail with
  | none, [] => simp [ending]
  | none, [_] | none, [_, _] | none, [_, _, _] | none, [_, _, _, _] | none, [_, _, _, _, _] => simp [ending]
  | none, _ :: _ :: _ :: _ :: _ :: _ :: _ => simp [ending]
  | some _, _ => simp [ending]

/-- What all records together come to, by the first answer of a reader. -/
theorem readAll_cases (inbound : Inbound) :
    (answer { inbound } 0 = none ∧ (readAll inbound).1 = .ok []) ∨
    (∃ error, answer { inbound } 0 = some (.error error) ∧ (readAll inbound).1 = .error error) ∨
    ∃ record rest, answer { inbound } 0 = some (.ok record) ∧
      (∀ call, answer { inbound } (call + 1) = answer { inbound := rest } call) ∧
      (readAll inbound).1 = (readAll rest).1.map (record :: ·) := by
  rcases read : Record.read inbound with ⟨error | _ | record, rest⟩
  · have next : next { inbound } = (some (.error error), ⟨rest, true⟩) := by simp [next, read]
    refine .inr (.inl ⟨error, congrArg Prod.fst next, ?_⟩)
    rw [readAll]
    split <;> rename_i found <;> rw [read] at found <;> cases found
    rfl
  · have next : next { inbound } = (none, ⟨rest, true⟩) := by simp [next, read]
    refine .inl ⟨congrArg Prod.fst next, ?_⟩
    rw [readAll]
    split <;> rename_i found <;> rw [read] at found <;> cases found
  · have next : next { inbound } = (some (.ok record), { inbound := rest }) := by simp [next, read]
    refine .inr (.inr ⟨record, rest, congrArg Prod.fst next, fun call => by rw [answer_succ, next], ?_⟩)
    rw [readAll]
    split <;> rename_i found <;> rw [read] at found <;> cases found
    split <;> rename_i again <;> simp only [again] <;> rfl

/-- The answers of a reader are collected up to the first one that is not a record. -/
theorem readAll_of_answers {last : Option FeedbackError}
    (yields : ∀ call < records.length, answer { inbound } call = records[call]?.map .ok)
    (ends : answer { inbound } records.length = last.map .error) :
    (readAll inbound).1 = last.elim (.ok records) .error := by
  induction records generalizing inbound with
  | nil =>
    rw [List.length_nil] at ends
    rcases readAll_cases inbound with ⟨first, all⟩ | ⟨error, first, all⟩ | ⟨record, rest, first, _, _⟩ <;>
      rw [first] at ends <;> cases last <;> cases ends <;> exact all
  | cons record records ih =>
    have begins := yields 0 (Nat.zero_lt_succ _)
    rcases readAll_cases inbound with ⟨first, _⟩ | ⟨error, first, _⟩ | ⟨record, rest, first, later, all⟩ <;>
      rw [first] at begins <;> cases begins
    have collected := ih (fun call within => by simpa [later] using yields (call + 1) (Nat.succ_lt_succ within))
      (by rw [← later]; exact ends)
    rw [all, collected]
    cases last <;> rfl

/-- All records come back exactly if the stream comes to its end and consists of their encodings. -/
theorem readAll_eq_ok_iff : (readAll inbound).1 = .ok records ↔ inbound.stop = none ∧
    ∃ pieces : List Bytes, records.map Record.encode = pieces.map .ok ∧ inbound.content = pieces.flatten := by
  constructor
  · intro collected
    obtain ⟨found, pieces, tail, encodings, split, _, yields, last, _⟩ := answers inbound
    rw [readAll_of_answers yields last] at collected
    cases outcome : ending inbound.stop tail with
    | some error =>
      rw [outcome] at collected
      cases collected
    | none =>
      rw [outcome] at collected
      cases collected
      obtain ⟨ends, rfl⟩ := ending_eq_none_iff.mp outcome
      exact ⟨ends, pieces, encodings, by rw [split, List.append_nil]⟩
  · rintro ⟨ends, pieces, encodings, content⟩
    have yields := answers_of_encodings encodings content ends
    have last : answer { inbound } records.length = (none : Option FeedbackError).map .error := by
      rw [yields, List.getElem?_eq_none (Nat.le_refl _)]
      rfl
    exact readAll_of_answers (fun call _ => yields call) last

/-- An error comes back exactly if it is the first answer of a reader that is not a record. -/
theorem readAll_eq_error_iff {error : FeedbackError} : (readAll inbound).1 = .error error ↔
    ∃ call, answer { inbound } call = some (.error error) ∧
      ∀ earlier < call, ∃ record, answer { inbound } earlier = some (.ok record) := by
  obtain ⟨found, pieces, tail, _, _, _, yields, last, _⟩ := answers inbound
  have record (call : Nat) (within : call < found.length) : answer { inbound } call = some (.ok found[call]) := by
    rw [yields call within, List.getElem?_eq_getElem within]
    rfl
  rw [readAll_of_answers yields last]
  constructor
  · intro failed
    cases outcome : ending inbound.stop tail with
    | none =>
      rw [outcome] at failed
      cases failed
    | some error =>
      rw [outcome] at failed last
      cases failed
      exact ⟨found.length, last, fun earlier within => ⟨_, record earlier within⟩⟩
  · rintro ⟨call, failed, before⟩
    have place : call = found.length := by
      rcases Nat.lt_trichotomy call found.length with within | same | beyond
      · rw [record call within] at failed
        cases failed
      · exact same
      · obtain ⟨other, more⟩ := before found.length beyond
        rw [last] at more
        cases outcome : ending inbound.stop tail <;> rw [outcome] at more <;> cases more
    subst place
    rw [last] at failed
    cases outcome : ending inbound.stop tail <;> rw [outcome] at failed <;> cases failed
    rfl

variable {σ : Type} (net : Network σ) (endpoint : Endpoint) (w : World σ)

/-- A fetch over a connection that could be made. It is shut down whatever was read from it. -/
theorem fetch_of_connected {outside later : σ}
    (connected : net.connect endpoint w.connections w.outside = (.ok (), outside))
    (delivered : net.inbound w.connections outside = (inbound, later)) :
    fetch net endpoint w =
      ((match (readAll inbound).1 with
        | .ok records => .ok records
        | .error problem => .error problem.toNetworkError),
        { w with
          outside := net.shutDown w.connections later
          connections := w.connections + 1
          journal := w.journal ++ [.connected endpoint w.connections, .shutDown w.connections] }) := by
  rw [fetch, World.connect, connected]
  simp only [World.inbound, World.note, delivered, World.shutDown, List.append_assoc]
  split <;> rename_i all <;> rw [all] <;> rfl

/-- A fetch is all or nothing, and cleans up. It tries to connect once. An error of that comes back as it is. Otherwise
the one connection is read to its end and then shut down, and nothing is written to it; all records come back exactly
if their encodings are all that the connection delivered before the end of the stream, and else the first error of the
reader comes back. The devices fail to come back exactly if the records do, with the same error. -/
theorem fetch_all_or_nothing :
    (∀ error outside, net.connect endpoint w.connections w.outside = (.error error, outside) →
      fetch net endpoint w = (.error error, { w with outside }.note (.refused endpoint error))) ∧
    (∀ outside inbound later, net.connect endpoint w.connections w.outside = (.ok (), outside) →
      net.inbound w.connections outside = (inbound, later) →
      (fetch net endpoint w).2 = { w with
        outside := net.shutDown w.connections later
        connections := w.connections + 1
        journal := w.journal ++ [.connected endpoint w.connections, .shutDown w.connections] } ∧
      (∀ records, (fetch net endpoint w).1 = .ok records ↔ inbound.stop = none ∧
        ∃ pieces : List Bytes, records.map Record.encode = pieces.map .ok ∧ inbound.content = pieces.flatten) ∧
      ∀ error, (fetch net endpoint w).1 = .error error ↔ ∃ problem call, problem.toNetworkError = error ∧
        answer { inbound } call = some (.error problem) ∧
        ∀ earlier < call, ∃ record, answer { inbound } earlier = some (.ok record)) ∧
    (∀ error, (inactiveDevices net endpoint w).1 = .error error ↔ (fetch net endpoint w).1 = .error error) ∧
    (inactiveDevices net endpoint w).2 = (fetch net endpoint w).2 := by
  refine ⟨?_, ?_, ?_, ?_⟩
  · intro error outside refused
    rw [fetch, World.connect, refused]
  · intro outside inbound later connected delivered
    rw [fetch_of_connected net endpoint w connected delivered]
    refine ⟨rfl, fun records => ?_, fun error => ?_⟩
    · rw [← readAll_eq_ok_iff]
      cases (readAll inbound).1 <;> simp
    · simp only [exists_and_left, ← readAll_eq_error_iff]
      cases (readAll inbound).1 <;> simp
  · intro error
    unfold inactiveDevices
    split <;> rename_i fetched <;> simp [fetched]
  · unfold inactiveDevices
    split <;> rename_i fetched <;> rw [fetched]

/-- Three fetches in memory: of two records, of a record that is cut short, and from a server that takes no
connection. -/
theorem fetch_all_or_nothing_in_memory :
    let delivering (inbound : Bytes) : World Memory := { outside := { scripts := [⟨inbound, true⟩] } }
    let refusing : World Memory := { outside := { connectFailures := 1 } }
    (fetch Memory.network .sandboxFeedback (delivering [0, 0, 0, 1, 0, 2, 170, 187, 0, 0, 0, 2, 0, 0])).1 =
        .ok [⟨1, [170, 187]⟩, ⟨2, []⟩] ∧
      (fetch Memory.network .sandboxFeedback (delivering [0, 0, 0, 2, 0, 0, 0, 0])).1 =
        .error (FeedbackError.truncatedHeader 2).toNetworkError ∧
      (fetch Memory.network .sandboxFeedback (delivering [0, 0, 0, 2, 0, 0, 0, 0])).2.journal =
        [.connected .sandboxFeedback 0, .shutDown 0] ∧
      ∃ error, (inactiveDevices Memory.network .sandboxFeedback refusing).1 = .error error ∧
        error.isConnectError = true := by
  intro delivering refusing
  have reads (inbound : Bytes) := (fetch_all_or_nothing Memory.network .sandboxFeedback (delivering inbound)).2.1
    _ _ _ rfl rfl
  obtain ⟨_, all, _⟩ := reads [0, 0, 0, 1, 0, 2, 170, 187, 0, 0, 0, 2, 0, 0]
  obtain ⟨after, _, first⟩ := reads [0, 0, 0, 2, 0, 0, 0, 0]
  obtain ⟨refused, _, devices, _⟩ := fetch_all_or_nothing Memory.network .sandboxFeedback refusing
  refine ⟨?_, ?_, ?_, ?_⟩
  · exact (all _).mpr ⟨rfl, [[0, 0, 0, 1, 0, 2, 170, 187], [0, 0, 0, 2, 0, 0]], rfl, rfl⟩
  · refine (first _).mpr ⟨.truncatedHeader 2, 1, rfl, rfl, fun earlier before => ⟨⟨2, []⟩, ?_⟩⟩
    rw [Nat.lt_one_iff.mp before]
    rfl
  · rw [after]
    rfl
  · exact ⟨_, (devices _).mpr (congrArg Prod.fst (refused _ _ rfl)), rfl⟩

end PushGateway.Feedback
