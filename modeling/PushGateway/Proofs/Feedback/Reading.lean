import Mathlib.Logic.Function.Iterate
import PushGateway.Proofs.Feedback.Records

namespace PushGateway.Feedback

open Wire

/-- What a reader makes of the end of a stream when bytes that are no whole record are left. -/
def ending : Option IoError → Bytes → Option FeedbackError
  | some error, _ => some (.unreadable error)
  | none, [] => none
  | none, _ :: _ :: _ :: _ :: e :: f :: token => some (.truncatedToken token.length (Bytes.word16 e f).toNat)
  | none, header => some (.truncatedHeader header.length)

/-- The answer of a read that found no record. -/
def noRecord : Option FeedbackError → Except FeedbackError (Option Record)
  | none => .ok none
  | some error => .error error

/-- What one read of a record comes to. -/
inductive Record.Outcome (inbound : Inbound) : Except FeedbackError (Option Record) → Inbound → Prop
  | found {record piece rest} : record.encode = .ok piece → inbound.content = piece ++ rest.content →
      rest.stop = inbound.stop → Outcome inbound (.ok (some record)) rest
  | nothing {rest} : Incomplete inbound.content →
      Outcome inbound (noRecord (ending inbound.stop inbound.content)) rest

namespace Record

variable {inbound rest : Inbound}

/-- Fewer bytes than a header are met in the same way by the reader and by `ending`. -/
theorem read_of_short {header : Bytes} (begun : inbound.fill 6 = (.ok header, rest)) (short : header.length < 6) :
    read inbound = (noRecord (ending none header), rest) := by
  match header, short with
  | [], _ | [_], _ | [_, _], _ | [_, _, _], _ | [_, _, _, _], _ | [_, _, _, _, _], _ =>
    simp only [read, begun, ending, noRecord]

/-- The token is read behind the header. -/
theorem outcome_of_header {a b c d e f : UInt8} (begun : inbound.fill 6 = (.ok [a, b, c, d, e, f], rest))
    (split : inbound.content = [a, b, c, d, e, f] ++ rest.content) (same : rest.stop = inbound.stop) :
    Outcome inbound (read inbound).1 (read inbound).2 := by
  have filled := rest.filled (Bytes.word16 e f).toNat
  rcases body : rest.fill (Bytes.word16 e f).toNat with ⟨answer, last⟩
  rw [body] at filled
  have incomplete (few : rest.content.length < (Bytes.word16 e f).toNat) : Incomplete inbound.content := by
    intro record piece encoded begins
    rw [split] at begins
    have count : (Bytes.word16 e f).toNat ≤ rest.content.length := announced encoded begins
    omega
  cases filled with
  | full enough left still =>
    have bound := (Bytes.word16 e f).toNat_lt
    have length : (rest.content.take (Bytes.word16 e f).toNat).length = (Bytes.word16 e f).toNat :=
      List.length_take_of_le enough
    have run : read inbound =
        (.ok (some ⟨Bytes.word32 a b c d, rest.content.take (Bytes.word16 e f).toNat⟩), last) := by
      simp only [read, begun, body, length, Nat.lt_irrefl, if_false]
    rw [run]
    refine .found (encode_eq_ok_iff.mpr ⟨?_, rfl⟩) ?_ (still.trans same)
    · simp only [length, Bytes.fieldLimit]
      omega
    · rw [split, left, counted, length, UInt16.ofNat_toNat, Bytes.ofWord16_word16, Bytes.ofWord32_word32]
      simp
  | ended few ends =>
    have run : read inbound = (noRecord (ending none inbound.content), last) := by
      simp only [read, begun, body, if_pos few, split]
      rfl
    rw [run, ← ends, same]
    exact .nothing (incomplete few)
  | @failed error _ few fails =>
    have run : read inbound = (noRecord (ending (some error) inbound.content), last) := by
      simp only [read, begun, body]
      rfl
    rw [run, ← fails, same]
    exact .nothing (incomplete few)

theorem outcome (inbound : Inbound) : Outcome inbound (read inbound).1 (read inbound).2 := by
  have filled := inbound.filled 6
  rcases begun : inbound.fill 6 with ⟨answer, rest⟩
  rw [begun] at filled
  cases filled with
  | full enough left same =>
    have split := (List.take_append_drop 6 inbound.content).symm
    have length : (inbound.content.take 6).length = 6 := List.length_take_of_le enough
    rw [← left] at split
    match header : inbound.content.take 6, length with
    | [a, b, c, d, e, f], _ =>
      rw [header] at begun split
      exact outcome_of_header begun split same
  | ended few ends =>
    rw [read_of_short begun few, ← ends]
    exact .nothing (incomplete_of_short few)
  | @failed error _ few fails =>
    have run : read inbound = (noRecord (ending (some error) inbound.content), rest) := by
      simp only [read, begun]
      rfl
    rw [run, ← fails]
    exact .nothing (incomplete_of_short few)

end Record

namespace Reader

/-- A reader after some calls. -/
def after (reader : Reader) (calls : Nat) : Reader := (fun reader => reader.next.2)^[calls] reader

/-- What a call answers. The first has number zero. -/
def answer (reader : Reader) (call : Nat) : Option (Except FeedbackError Record) := (reader.after call).next.1

theorem after_succ (reader : Reader) (calls : Nat) : reader.after (calls + 1) = reader.next.2.after calls := rfl

theorem answer_succ (reader : Reader) (call : Nat) : reader.answer (call + 1) = reader.next.2.answer call := rfl

theorem next_of_finished {reader : Reader} (finished : reader.finished = true) : reader.next = (none, reader) := by
  rw [next, if_pos finished]

theorem after_of_finished {reader : Reader} (finished : reader.finished = true) (calls : Nat) :
    reader.after calls = reader :=
  Function.iterate_fixed (congrArg Prod.snd (next_of_finished finished)) calls

theorem finished_of_le {reader : Reader} {calls later : Nat} (finished : (reader.after calls).finished = true)
    (upTo : calls ≤ later) : (reader.after later).finished = true := by
  obtain ⟨more, rfl⟩ := Nat.exists_eq_add_of_le' upTo
  have split : reader.after (more + calls) = (reader.after calls).after more := Function.iterate_add_apply ..
  rw [split, after_of_finished finished]
  exact finished

/-- A reader that has not finished yields the records at the front of its stream, and then finishes with what
it makes of the end. -/
theorem answers (inbound : Inbound) : ∃ (records : List Record) (pieces : List Bytes) (tail : Bytes),
    records.map Record.encode = pieces.map .ok ∧ inbound.content = pieces.flatten ++ tail ∧ Incomplete tail ∧
      (∀ call < records.length, answer ⟨inbound, false⟩ call = records[call]?.map .ok) ∧
      answer ⟨inbound, false⟩ records.length = (ending inbound.stop tail).map .error ∧
      (after ⟨inbound, false⟩ (records.length + 1)).finished = true := by
  -- each record takes bytes from the content
  induction size : inbound.content.length using Nat.strongRecOn generalizing inbound with
  | ind length ih =>
    rcases read : Record.read inbound with ⟨found, rest⟩
    have outcome : Record.Outcome inbound found rest := by simpa only [read] using Record.outcome inbound
    cases outcome with
    | @found record piece _ encoded split same =>
      have next : Reader.next ⟨inbound, false⟩ = (some (.ok record), ⟨rest, false⟩) := by
        simp [Reader.next, read]
      have shorter : rest.content.length < length := by
        rw [← size, split, List.length_append, Record.length_of_encode encoded]
        omega
      obtain ⟨records, pieces, tail, encodings, cut, incomplete, yields, last, finishes⟩ := ih _ shorter rest rfl
      refine ⟨record :: records, piece :: pieces, tail, ?_, ?_, incomplete, ?_, ?_, ?_⟩
      · rw [List.map_cons, List.map_cons, encoded, encodings]
      · rw [split, cut, List.flatten_cons, List.append_assoc]
      · intro call within
        cases call with
        | zero => exact congrArg Prod.fst next
        | succ call =>
          rw [answer_succ, next, List.getElem?_cons_succ]
          exact yields call (Nat.lt_of_succ_lt_succ within)
      · rw [List.length_cons, answer_succ, next, last, same]
      · rw [List.length_cons, after_succ, next]
        exact finishes
    | nothing incomplete =>
      have next : Reader.next ⟨inbound, false⟩ =
          ((ending inbound.stop inbound.content).map .error, ⟨rest, true⟩) := by
        simp only [Reader.next, read]
        cases ending inbound.stop inbound.content <;> rfl
      refine ⟨[], [], inbound.content, rfl, rfl, incomplete, nofun, congrArg Prod.fst next, ?_⟩
      exact congrArg (·.2.finished) next

/-- The one answer behind the records: none at the end of a stream of which nothing is left, an error of the
protocol if something is left, and what the failure of a read means if that is what ended the stream. -/
def Concludes (stop : Option IoError) (tail : Bytes) (answer : Option (Except FeedbackError Record)) : Prop :=
  match stop, tail with
  | none, [] => answer = none
  | none, _ :: _ => ∃ error text, answer = some (.error error) ∧ error.toNetworkError = .protocol text
  | some cause, _ => ∃ error, answer = some (.error error) ∧ error.toNetworkError =
      if cause.kind = .timedOut ∨ cause.kind = .wouldBlock then .timeout
      else if cause.kind = .unexpectedEof then .connectionClosed
      else .receiveFailed cause.text

theorem concludes_ending (stop : Option IoError) (tail : Bytes) :
    Concludes stop tail ((ending stop tail).map .error) := by
  match stop, tail with
  | none, [] => rfl
  | none, [_] | none, [_, _] | none, [_, _, _] | none, [_, _, _, _] | none, [_, _, _, _, _] =>
    exact ⟨_, _, rfl, rfl⟩
  | none, _ :: _ :: _ :: _ :: _ :: _ :: _ => exact ⟨_, _, rfl, rfl⟩
  | some ⟨kind, text⟩, _ =>
    refine ⟨.unreadable ⟨kind, text⟩, rfl, ?_⟩
    cases kind <;> rfl

theorem answer_of_finished {reader : Reader} {calls call : Nat} (finished : (reader.after calls).finished = true)
    (upTo : calls ≤ call) : reader.answer call = none :=
  congrArg Prod.fst (next_of_finished (finished_of_le finished upTo))

/-- From the encodings of records these are read back. -/
theorem answers_of_encodings {records : List Record} {pieces : List Bytes} {inbound : Inbound}
    (encodings : records.map Record.encode = pieces.map .ok) (content : inbound.content = pieces.flatten)
    (ends : inbound.stop = none) (call : Nat) : answer { inbound } call = records[call]?.map .ok := by
  obtain ⟨found, pieces', tail, encodings', split, incomplete, yields, last, finished⟩ := answers inbound
  have nothing : Incomplete [] := incomplete_of_short (by decide)
  have whole : pieces.flatten <+: pieces'.flatten ++ tail := ⟨[], by rw [List.append_nil, ← split, content]⟩
  have begins : pieces'.flatten <+: pieces.flatten ++ [] := by
    rw [List.append_nil, ← content, split]
    exact List.prefix_append ..
  obtain ⟨part, cut⟩ := prefix_of_incomplete encodings' encodings incomplete whole
  obtain ⟨part', cut'⟩ := prefix_of_incomplete encodings encodings' nothing begins
  obtain rfl : records = found := part.eq_of_length_le part'.length_le
  have same : pieces'.flatten = pieces.flatten := cut'.eq_of_length_le cut.length_le
  obtain rfl : tail = [] := by simpa [content, same] using split
  rcases Nat.lt_trichotomy call records.length with within | rfl | beyond
  · exact yields call within
  · rw [last, ends, List.getElem?_eq_none (Nat.le_refl _)]
    rfl
  · rw [answer_of_finished finished beyond, List.getElem?_eq_none (Nat.le_of_lt beyond)]
    rfl

/-- A reader of records parses the stream, however that is cut into pieces and however often a read is
interrupted. It yields the records whose encodings make up the longest part of the content that is made of
records at all, then one answer about the end, and nothing more, whatever its stream could still deliver.
So it gives back any records that can be encoded, once each, and then the end. -/
theorem reader_yields :
    (∀ inbound : Inbound, ∃ (records : List Record) (pieces : List Bytes) (tail : Bytes),
      records.map Record.encode = pieces.map .ok ∧ inbound.content = pieces.flatten ++ tail ∧
      (∀ (others : List Record) (pieces' : List Bytes), others.map Record.encode = pieces'.map .ok →
        pieces'.flatten <+: inbound.content → pieces'.flatten <+: pieces.flatten) ∧
      (∀ call < records.length, answer { inbound } call = records[call]?.map .ok) ∧
      Concludes inbound.stop tail (answer { inbound } records.length) ∧
      ∀ call > records.length, answer { inbound } call = none ∧ ∀ other,
        next { after { inbound } call with inbound := other } = (none, { after { inbound } call with inbound := other })) ∧
    ∀ records : List Record, (∀ record ∈ records, record.token.length ≤ Bytes.fieldLimit) →
      ∃ pieces : List Bytes, records.map Record.encode = pieces.map .ok ∧
        ∀ inbound : Inbound, inbound.content = pieces.flatten → inbound.stop = none →
          ∀ call, answer { inbound } call = records[call]?.map .ok := by
  refine ⟨fun inbound => ?_, fun records fit => ?_⟩
  · obtain ⟨records, pieces, tail, encodings, split, incomplete, yields, last, finished⟩ := answers inbound
    refine ⟨records, pieces, tail, encodings, split, ?_, yields, last ▸ concludes_ending inbound.stop tail, ?_⟩
    · intro others pieces' encodings' begins
      exact (prefix_of_incomplete encodings encodings' incomplete (split ▸ begins)).2
    · exact fun call beyond => ⟨answer_of_finished finished beyond,
        fun other => next_of_finished (finished_of_le finished beyond)⟩
  · obtain ⟨pieces, encodings⟩ := exists_encodings fit
    exact ⟨pieces, encodings, fun inbound content ends => answers_of_encodings encodings content ends⟩

/-- Two records whose bytes are cut inside a header and inside a token, and the same with a failure behind the
first byte of a third. -/
theorem reader_yields_in_pieces :
    let records : List Record := [⟨1, [170, 187]⟩, ⟨2, []⟩]
    let whole : Inbound := [.bytes [0, 0, 0, 1, 0], .failure ⟨.interrupted, "again"⟩ false, .bytes [2, 170],
      .bytes [187, 0, 0, 0, 2, 0, 0]]
    let broken : Inbound := whole ++ [.bytes [9], .failure .readTimedOut false]
    (∀ record ∈ records, record.token.length ≤ Bytes.fieldLimit) ∧
      (∀ call, answer { inbound := whole } call = records[call]?.map .ok) ∧
      ∃ (found : List Record) (pieces : List Bytes) (tail : Bytes), found.map Record.encode = pieces.map .ok ∧
        broken.content = pieces.flatten ++ tail ∧ tail.length ≤ 1 ∧
        ∃ error, answer { inbound := broken } found.length = some (.error error) ∧
          error.toNetworkError = .timeout := by
  intro records whole broken
  let bytes : List Bytes := [[0, 0, 0, 1, 0, 2, 170, 187], [0, 0, 0, 2, 0, 0]]
  have encodings : records.map Record.encode = bytes.map .ok := rfl
  have fit : ∀ record ∈ records, record.token.length ≤ Bytes.fieldLimit := by decide
  obtain ⟨bytes', encodings', yields⟩ := reader_yields.2 records fit
  have same : bytes' = bytes :=
    (List.map_inj_right fun _ _ => Except.ok.inj).mp (encodings'.symm.trans encodings)
  obtain ⟨found, pieces, tail, each, split, longest, _, last, _⟩ := reader_yields.1 broken
  have length := (longest records bytes encodings ⟨[9], rfl⟩).length_le
  have total := congrArg List.length split
  rw [List.length_append] at total
  refine ⟨fit, yields whole (by rw [same]; rfl) rfl, found, pieces, tail, each, split, ?_, ?_⟩
  · have all : broken.content.length = bytes.flatten.length + 1 := rfl
    omega
  · exact last

end Reader
end PushGateway.Feedback
