import PushGateway.Wire.Decoding
import PushGateway.Inbound
import PushGateway.NetworkError

namespace PushGateway

/-- A device that no longer takes notifications, and since when, in seconds after the epoch. -/
structure Feedback.Record where
  timestamp : UInt32
  token : Bytes
  deriving Repr, DecidableEq, Inhabited

/-- Why the stream of feedback records stops before its end. -/
inductive FeedbackError
  | truncatedHeader (present : Nat)
  | truncatedToken (present need : Nat)
  | unreadable (cause : IoError)
  deriving Repr, DecidableEq

namespace FeedbackError

def toNetworkError : FeedbackError → NetworkError
  | truncatedHeader present => .protocol s!"truncated feedback header: {present} of 6 bytes"
  | truncatedToken present need => .protocol s!"truncated feedback token: {present} of {need} bytes"
  | unreadable cause => .ofRead cause

end FeedbackError

namespace Feedback

namespace Record

/-- The bytes of a record: the time, then the token behind its length. -/
def encode (record : Record) : Except EncodeError Bytes :=
  if Bytes.fieldLimit < record.token.length then .error (.fieldTooLong .token record.token.length)
  else .ok (Bytes.ofWord32 record.timestamp ++ Wire.counted record.token)

def hexToken (record : Record) : String := Hex.encode record.token

/-- Reads the next record; there is none where the stream ends between records. -/
def read (inbound : Inbound) : Except FeedbackError (Option Record) × Inbound :=
  match inbound.fill 6 with
  | (.error error, rest) => (.error (.unreadable error), rest)
  | (.ok [], rest) => (.ok none, rest)
  | (.ok [a, b, c, d, e, f], rest) =>
    let need := (Bytes.word16 e f).toNat
    match rest.fill need with
    | (.error error, rest) => (.error (.unreadable error), rest)
    | (.ok token, rest) =>
      if token.length < need then (.error (.truncatedToken token.length need), rest)
      else (.ok (some ⟨Bytes.word32 a b c d, token⟩), rest)
  | (.ok header, rest) => (.error (.truncatedHeader header.length), rest)

theorem remaining_of_read {inbound rest : Inbound} {record : Record}
    (found : read inbound = (.ok (some record), rest)) :
    inbound.remaining = Bytes.ofWord32 record.timestamp ++ Wire.counted record.token ++ rest.remaining := by
  unfold read at found
  split at found <;> try cases found
  rename_i a b c d e f after header
  obtain ⟨first, _⟩ := Inbound.remaining_of_fill header
  simp only at found
  split at found
  · cases found
  · rename_i token last body
    obtain ⟨second, bound⟩ := Inbound.remaining_of_fill body
    split at found <;> cases found
    have count : token.length = (Bytes.word16 e f).toNat := by omega
    rw [first, second, Wire.counted, count, Bytes.ofWord32_word32]
    have same : UInt16.ofNat (Bytes.word16 e f).toNat = Bytes.word16 e f := by simp
    rw [same, Bytes.ofWord16_word16]
    rfl

end Record

/-- Reads records one after the other. Once it has reported the end or an error it reports the
end for ever and leaves the stream alone. -/
structure Reader where
  inbound : Inbound
  finished : Bool := false
  deriving Repr

def Reader.next (reader : Reader) : Option (Except FeedbackError Record) × Reader :=
  if reader.finished then (none, reader)
  else
    match Record.read reader.inbound with
    | (.ok (some record), rest) => (some (.ok record), ⟨rest, false⟩)
    | (.ok none, rest) => (none, ⟨rest, true⟩)
    | (.error error, rest) => (some (.error error), ⟨rest, true⟩)

/-- All records up to the end of the stream, or the error that comes first. -/
def readAll (inbound : Inbound) : Except FeedbackError (List Record) × Inbound :=
  match _found : Record.read inbound with
  | (.error error, rest) => (.error error, rest)
  | (.ok none, rest) => (.ok [], rest)
  | (.ok (some record), rest) =>
    match readAll rest with
    | (.error error, rest) => (.error error, rest)
    | (.ok records, rest) => (.ok (record :: records), rest)
termination_by inbound.remaining.length
decreasing_by
  rw [Record.remaining_of_read _found]
  simp only [List.length_append, Bytes.length_ofWord32]
  omega

end Feedback
end PushGateway
