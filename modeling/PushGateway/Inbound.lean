import PushGateway.Bytes
import PushGateway.IoError

namespace PushGateway

/-- One thing that happens on the receiving side of a connection. -/
inductive Arrival
  /-- Bytes that the peer sent in one piece. -/
  | bytes (bytes : Bytes)
  /-- One read fails. With `closing` the connection has been shut down on this side just before. -/
  | failure (error : IoError) (closing : Bool)
  /-- One read reports the end of the stream. -/
  | ending
  deriving Repr, DecidableEq, Inhabited

/-- All that a connection will still deliver, in order. After it the stream has ended for good. -/
abbrev Inbound := List Arrival

namespace Inbound

/-- The bytes that no read has taken yet. -/
def remaining : Inbound → Bytes
  | [] => []
  | .bytes bytes :: later => bytes ++ remaining later
  | _ :: later => remaining later

/-- One read of at most `limit` bytes. It takes bytes of one piece only; no bytes mean the end of
the stream. A read of nothing changes nothing. -/
def read (limit : Nat) : Inbound → Except IoError Bytes × Inbound
  | [] => (.ok [], [])
  | arrival :: later =>
    if limit = 0 then (.ok [], arrival :: later)
    else match arrival with
      | .bytes [] => read limit later
      | .bytes bytes =>
        if limit < bytes.length then (.ok (bytes.take limit), .bytes (bytes.drop limit) :: later)
        else (.ok bytes, later)
      | .failure error _ => (.error error, later)
      | .ending => (.ok [], later)

/-- Whether the next read finds the connection shut down on this side. -/
def closing : Inbound → Bool
  | .bytes [] :: later => closing later
  | .failure _ closing :: _ => closing
  | _ => false

/-- Reads until `want` bytes are there or the stream reports its end, whichever comes first.
Interrupted reads are tried again. -/
def fill (want : Nat) : Inbound → Except IoError Bytes × Inbound
  | [] => (.ok [], [])
  | arrival :: later =>
    if want = 0 then (.ok [], arrival :: later)
    else match arrival with
      | .bytes bytes =>
        if want < bytes.length then (.ok (bytes.take want), .bytes (bytes.drop want) :: later)
        else
          match fill (want - bytes.length) later with
          | (.ok more, rest) => (.ok (bytes ++ more), rest)
          | (.error error, rest) => (.error error, rest)
      | .failure error _ => if error.kind = .interrupted then fill want later else (.error error, later)
      | .ending => (.ok [], later)

/-- Reads exactly `want` bytes. -/
def readExactly (want : Nat) (inbound : Inbound) : Except IoError Bytes × Inbound :=
  match inbound.fill want with
  | (.ok bytes, rest) => if bytes.length < want then (.error .endedEarly, rest) else (.ok bytes, rest)
  | (.error error, rest) => (.error error, rest)

/-- How much is left to happen. -/
def volume (inbound : Inbound) : Nat := inbound.length + inbound.remaining.length

theorem volume_read (limit : Nat) (inbound : Inbound) : (inbound.read limit).2.volume ≤ inbound.volume := by
  induction inbound with
  | nil => simp [read]
  | cons arrival later ih =>
    unfold read
    split
    · exact Nat.le_refl _
    · split
      · exact Nat.le_trans ih (by simp [volume, remaining])
      · split <;> simp only [volume, remaining, List.length_cons, List.length_append, List.length_drop] <;> omega
      · simp only [volume, remaining, List.length_cons]; omega
      · simp only [volume, remaining, List.length_cons]; omega

/-- A read that brings bytes or fails leaves less to happen. -/
theorem volume_read_lt {limit : Nat} {inbound : Inbound} (something : (inbound.read limit).1 ≠ .ok []) :
    (inbound.read limit).2.volume < inbound.volume := by
  induction inbound with
  | nil => exact absurd rfl something
  | cons arrival later ih =>
    unfold read at something ⊢
    split at something
    · exact absurd rfl something
    · rename_i positive
      rw [if_neg positive]
      split at something
      · exact Nat.lt_of_lt_of_le (ih something) (by simp [volume, remaining])
      · split at something
        · rename_i longer
          simp only [if_pos longer, volume, remaining, List.length_cons, List.length_append, List.length_drop]
          omega
        · rename_i within
          simp only [if_neg within, volume, remaining, List.length_cons, List.length_append]
          omega
      · simp only [volume, remaining, List.length_cons]; omega
      · exact absurd rfl something

/-- What a read takes is gone from what remains, and nothing else is, unless the read fails. -/
theorem remaining_of_read {limit : Nat} {inbound rest : Inbound} {bytes : Bytes}
    (taken : inbound.read limit = (.ok bytes, rest)) : inbound.remaining = bytes ++ rest.remaining := by
  induction inbound with
  | nil => cases taken; rfl
  | cons arrival later ih =>
    unfold read at taken
    split at taken
    · cases taken; rfl
    · split at taken
      · simpa [remaining] using ih taken
      · split at taken <;> cases taken
        · simp only [remaining, ← List.append_assoc, List.take_append_drop]
        · rfl
      · cases taken
      · cases taken; rfl

theorem remaining_of_fill {want : Nat} {inbound rest : Inbound} {bytes : Bytes}
    (taken : inbound.fill want = (.ok bytes, rest)) :
    inbound.remaining = bytes ++ rest.remaining ∧ bytes.length ≤ want := by
  induction inbound generalizing want bytes with
  | nil => cases taken; exact ⟨rfl, Nat.zero_le _⟩
  | cons arrival later ih =>
    unfold fill at taken
    split at taken
    · cases taken; exact ⟨rfl, Nat.zero_le _⟩
    · split at taken
      · split at taken
        · cases taken
          refine ⟨?_, by simp only [List.length_take]; omega⟩
          simp only [remaining, ← List.append_assoc, List.take_append_drop]
        · split at taken <;> cases taken
          rename_i more after filled
          obtain ⟨left, bound⟩ := ih filled
          refine ⟨by simp only [remaining, left, List.append_assoc], ?_⟩
          simp only [List.length_append]
          omega
      · split at taken
        · exact ih taken
        · cases taken
      · cases taken; exact ⟨rfl, Nat.zero_le _⟩

end Inbound
end PushGateway
