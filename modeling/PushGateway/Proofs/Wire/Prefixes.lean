import PushGateway.Proofs.Wire.Grammar

namespace PushGateway.Notification

open Wire

/-- What a receiver gets who holds some bytes and tries again with each piece that comes. -/
def retries (held : Bytes) : List Bytes → List (Except NetworkError (Notification × Nat))
  | [] => []
  | piece :: later => decodeFront (held ++ piece) :: retries (held ++ piece) later

section
variable {data short rest : Bytes} {n : Notification} {taken : Nat} {answer : Notification × Nat}

/-- The bytes that are taken decide what is decoded, whatever stands behind them. -/
theorem decode_steady (read : decode data = .ok (n, rest)) :
    ∃ taken, data = taken ++ rest ∧ ∀ more, decode (taken ++ more) = .ok (n, more) := by
  obtain ⟨taken, split, _, _, fits, form⟩ := decode_eq_ok read
  refine ⟨taken, split, fun more => ?_⟩
  rcases form with ⟨_, rfl⟩ | ⟨raws, items, rfl, frame, all⟩
  · exact decode_append fits.encode more
  · have length : (UInt32.ofNat (laid raws).length).toNat = (laid raws).length := by
      rw [UInt32.toNat_ofNat', Nat.mod_eq_of_lt frame.short]
    rw [frame.eq]
    exact decodeFramed_body length (Items.read_laid frame.fit all) more

theorem decodeFront_steady (read : decodeFront data = .ok (n, taken)) :
    taken ≤ data.length ∧ ∀ more, decodeFront (data.take taken ++ more) = .ok (n, taken) := by
  unfold decodeFront at read
  split at read
  · rename_i rest decoded
    obtain ⟨front, rfl, steady⟩ := decode_steady decoded
    have count : (front ++ rest).length - rest.length = front.length := by simp
    rw [count] at read
    cases read
    refine ⟨by simp, fun more => ?_⟩
    rw [List.take_left, decodeFront, steady more]
    simp
  · cases read

/-- More bytes do not change the answer. -/
theorem decodeFront_within (read : decodeFront short = .ok answer) (begins : short <+: data) :
    decodeFront data = .ok answer := by
  obtain ⟨n, taken⟩ := answer
  obtain ⟨later, rfl⟩ := begins
  have steady := (decodeFront_steady read).2 (short.drop taken ++ later)
  rwa [← List.append_assoc, List.take_append_drop] at steady

theorem protocol_of_error {error : NetworkError} (failed : decodeFront data = .error error) :
    ∃ text, error = .protocol text := by
  unfold decodeFront at failed
  split at failed
  · cases failed
  · cases failed
    exact ⟨_, rfl⟩

theorem refused_of_not_ok (never : ∀ answer, decodeFront data ≠ .ok answer) :
    ∃ text, decodeFront data = .error (.protocol text) := by
  cases read : decodeFront data with
  | ok answer => exact absurd read (never answer)
  | error error =>
    obtain ⟨text, rfl⟩ := protocol_of_error read
    exact ⟨text, rfl⟩

/-- Of the bytes that a notification takes none can be spared. -/
theorem refused_of_fewer (read : decodeFront data = .ok (n, taken)) {fewer : Nat} (few : fewer < taken) :
    ∃ text, decodeFront (data.take fewer) = .error (.protocol text) := by
  refine refused_of_not_ok fun ⟨other, count⟩ early => ?_
  have within := (decodeFront_steady early).1
  have same := decodeFront_within early (List.take_prefix fewer data)
  rw [read] at same
  cases same
  rw [List.length_take] at within
  omega

theorem refused_of_refused {error : NetworkError} (failed : decodeFront data = .error error)
    (begins : short <+: data) : ∃ text, decodeFront short = .error (.protocol text) := by
  refine refused_of_not_ok fun answer read => ?_
  rw [decodeFront_within read begins] at failed
  cases failed

end

/-- Every try has what was held, and perhaps more. -/
theorem mem_retries {held : Bytes} {pieces : List Bytes} {answer : Except NetworkError (Notification × Nat)}
    (member : answer ∈ retries held pieces) : ∃ more, answer = decodeFront (held ++ more) := by
  induction pieces generalizing held with
  | nil => cases member
  | cons piece later ih =>
    rcases List.mem_cons.mp member with rfl | behind
    · exact ⟨piece, rfl⟩
    · obtain ⟨more, rfl⟩ := ih behind
      exact ⟨piece ++ more, by rw [List.append_assoc]⟩

/-- Once a try has succeeded, all later ones have the same answer. -/
theorem retries_agree (held : Bytes) (pieces : List Bytes) :
    (retries held pieces).Pairwise fun earlier later => ∀ answer, earlier = .ok answer → later = .ok answer := by
  induction pieces generalizing held with
  | nil => exact .nil
  | cons piece later ih =>
    refine (ih (held ++ piece)).cons fun other member answer read => ?_
    obtain ⟨more, rfl⟩ := mem_retries member
    exact decodeFront_within read (List.prefix_append ..)

/-- Decoding is decided by the bytes that are taken. They are there, any bytes that begin with them are decoded to the
same, and if one of them is missing nothing is. Where nothing is decoded, the error is one of the protocol, and with
fewer bytes nothing is decoded either. So no stream begins with two notifications of different length, and a receiver who
tries again when more has come does not get another answer. -/
theorem decode_decided :
    (∀ data n taken, decodeFront data = .ok (n, taken) → taken ≤ data.length ∧
      (∀ other, data.take taken <+: other → decodeFront other = .ok (n, taken)) ∧
      ∀ fewer < taken, ∃ text, decodeFront (data.take fewer) = .error (.protocol text)) ∧
    (∀ data error, decodeFront data = .error error → (∃ text, error = .protocol text) ∧
      ∀ short, short <+: data → ∃ text, decodeFront short = .error (.protocol text)) ∧
    (∀ (stream : Bytes) count count' n n', decodeFront (stream.take count) = .ok (n, count) →
      decodeFront (stream.take count') = .ok (n', count') → count = count' ∧ n = n') ∧
    ∀ held pieces, (retries held pieces).Pairwise fun earlier later =>
      ∀ answer, earlier = .ok answer → later = .ok answer := by
  refine ⟨fun data n taken read => ?_, fun data error failed => ?_, fun stream count count' n n' read read' => ?_,
    retries_agree⟩
  · obtain ⟨within, steady⟩ := decodeFront_steady read
    refine ⟨within, fun other begins => ?_, fun fewer few => refused_of_fewer read few⟩
    obtain ⟨more, rfl⟩ := begins
    exact steady more
  · exact ⟨protocol_of_error failed, fun short begins => refused_of_refused failed begins⟩
  · have first := decodeFront_within read (List.take_prefix count stream)
    have second := decodeFront_within read' (List.take_prefix count' stream)
    rw [first] at second
    cases second
    exact ⟨rfl, rfl⟩

/-- A frame whose identifier comes twice, with the beginning of the next notification behind it, and one whose second
item runs over the end of the frame. -/
theorem decode_decided_of_frames :
    let frame : Bytes := [2, 0, 0, 0, 18, 3, 0, 4, 0, 0, 0, 7, 1, 0, 1, 170, 3, 0, 4, 0, 0, 1, 0]
    let broken : Bytes := [2, 0, 0, 0, 11, 3, 0, 4, 0, 0, 0, 7, 1, 0, 2, 170, 187, 204]
    let n : Notification := ⟨.framed 256 0 10, [170], []⟩
    decodeFront (frame ++ [1, 0]) = .ok (n, 23) ∧ (∀ more, decodeFront (frame ++ more) = .ok (n, 23)) ∧
      (∀ fewer < 23, ∃ text, decodeFront (frame.take fewer) = .error (.protocol text)) ∧
      decodeFront broken = .error (DecodeError.truncated .item 2 1).toNetworkError ∧
      ∃ text, decodeFront (broken.take 17) = .error (.protocol text) := by
  intro frame broken n
  have read : decodeFront (frame ++ [1, 0]) = .ok (n, 23) := by cbv
  have overrun : decode broken = .error (.truncated .item 2 1) := by cbv
  have failed : decodeFront broken = .error (DecodeError.truncated .item 2 1).toNetworkError := by
    rw [decodeFront, overrun]
  obtain ⟨accepted, refused, _⟩ := decode_decided
  obtain ⟨_, steady, needed⟩ := accepted _ _ _ read
  refine ⟨read, fun more => steady _ (List.prefix_append ..), fun fewer few => ?_, failed, ?_⟩
  · have part := needed fewer few
    rwa [List.take_append_of_le_length (Nat.le_of_lt few)] at part
  · exact (refused _ _ failed).2 _ (List.take_prefix 17 broken)

end PushGateway.Notification
