import PushGateway.Proofs.Monitor.Scripts

namespace PushGateway

namespace Rejection

/-- Six bytes are the frame of an error, unless they begin with another byte. -/
theorem ofFrame?_cases {bytes : Bytes} (whole : bytes.length = frameLength) :
    (∃ code identifier, bytes = frame code identifier ∧ ofFrame? bytes = .ok ⟨.ofCode code, some identifier⟩) ∨
      (bytes.head? ≠ some command ∧ ∃ problem, ofFrame? bytes = .error problem) := by
  obtain ⟨first, code, a, b, c, d, rfl⟩ : ∃ first code a b c d, bytes = [first, code, a, b, c, d] := by
    match bytes, whole with
    | [first, code, a, b, c, d], _ => exact ⟨first, code, a, b, c, d, rfl⟩
  by_cases begins : first = command
  · subst begins
    exact .inl ⟨code, Bytes.word32 a b c d, by rw [frame, Bytes.ofWord32_word32], rfl⟩
  · exact .inr ⟨by simpa using begins, _, by rw [ofFrame?, if_neg begins]⟩

end Rejection

namespace Monitor

/-- What is still told when the stream has ended, `reported` errors were passed on and `rest` has begun
another frame. -/
def closing : (isOpen failed : Bool) → (reported : Nat) → (rest : Bytes) → List Rejection
  | false, _, _, _ => []
  | true, true, _, _ => [.unexplained]
  | true, false, 0, [] => [.unexplained]
  | true, false, _ + 1, [] => []
  | true, false, _, first :: code :: _ =>
    if first = Rejection.command then [⟨.ofCode code, none⟩] else [.unexplained]
  | true, false, _, [_] => [.unexplained]

theorem toList_verdict (failed : Bool) (filled : Bytes) (reported : Nat) :
    (verdict failed filled reported).toList = closing true failed reported filled := by
  cases failed with
  | true => rfl
  | false =>
    match filled, reported with
    | [], 0 | [], _ + 1 | [_], 0 | [_], _ + 1 => rfl
    | first :: code :: more, 0 | first :: code :: more, _ + 1 =>
      simp only [verdict, closing, Rejection.ofPartialFrame, Bool.false_eq_true, if_false]
      split <;> rfl

/-- What is told of an error that was read in full. -/
def rejection (error : UInt8 × UInt32) : Rejection := ⟨.ofCode error.1, some error.2⟩

section
variable {σ : Type} (watch : Watch σ) {m m' : Monitor} {s s' : σ} {event : Option Rejection} {panics : Bool}

theorem run_gone (s : σ) : run watch panics gone s = ([], gone, s) := by
  rw [run]
  rfl

theorem run_next (next : step watch panics m s = some (event, m', s')) :
    run watch panics m s =
      (event.toList ++ (run watch panics m' s').1, (run watch panics m' s').2) := by
  rw [run]
  split
  · rename_i waits
    rw [waits] at next
    cases next
  · rename_i taken
    rw [taken] at next
    cases next
    split
    · rename_i ends
      subst ends
      rw [run_gone, List.append_nil]
    · rfl

end

variable {σ : Type} (watch : Watch σ)

theorem run_leaving (s : σ) : run watch false leaving s = ([], gone, watch.shutDown s) := by
  rw [run_next watch rfl, run_gone]
  rfl

theorem run_concluding (last : Option Rejection) (s : σ) :
    run watch false (concluding last) s = (last.toList, gone, watch.shutDown s) := by
  cases last <;> rw [run_next watch rfl] <;> simp [run_leaving]

theorem run_ended (failed : Bool) (filled : Bytes) (reported : Nat) (s : σ) :
    run watch false (ended failed filled reported) s =
      (closing (watch.isOpen s) failed reported filled, gone, watch.shutDown s) := by
  rw [run_next watch rfl]
  cases watch.isOpen s with
  | false => simp [run_leaving, closing]
  | true =>
    simp only [if_true, run_concluding, toList_verdict]
    rfl

/-- The bytes of error frames. -/
def frames (errors : List (UInt8 × UInt32)) : Bytes := errors.flatMap fun error => Rejection.frame error.1 error.2

/-- What becomes of a monitor that has told of `reported` errors and has `filled` bytes of the next frame. -/
def Reports (reader : ScriptWatch σ) (filled : Bytes) (reported : Nat) (s : σ) : Prop :=
  ∃ errors tail events s',
    run reader.toWatch false (reading filled reported) s = (events, gone, reader.shutDown s') ∧
    filled ++ (reader.script s).delivered = frames errors ++ tail ∧
    ((Rejection.frameLength ≤ tail.length ∧ tail.head? ≠ some Rejection.command ∧
        events = errors.map rejection ++ [.unexplained] ∧
        reader.script s' =
          (reader.script s).after (Rejection.frameLength * (errors.length + 1) - filled.length)) ∨
      (tail.length < Rejection.frameLength ∧
        events = errors.map rejection ++
          closing (reader.isOpen s') (reader.script s).failsAtEnd (reported + errors.length) tail))

theorem Reports.of_delay {reader : ScriptWatch σ} {filled : Bytes} {reported : Nat} {s s₁ : σ}
    (reports : Reports reader filled reported s₁) (partly : filled.length < Rejection.frameLength)
    (same : (reader.script s₁).delivered = (reader.script s).delivered)
    (sameEnd : (reader.script s₁).failsAtEnd = (reader.script s).failsAtEnd)
    (left : ∀ count, 0 < count → (reader.script s₁).after count = (reader.script s).after count)
    (next : run reader.toWatch false (reading filled reported) s =
      run reader.toWatch false (reading filled reported) s₁) : Reports reader filled reported s := by
  obtain ⟨errors, tail, events, s', run, split, outcome⟩ := reports
  refine ⟨errors, tail, events, s', next.trans run, same ▸ split, ?_⟩
  rw [← sameEnd, ← left _ (by rw [Nat.mul_add]; omega)]
  exact outcome

section bytes
variable {reader : ScriptWatch σ} {filled bytes : Bytes} {reported : Nat} {s s₁ : σ}
  (split : (reader.script s).delivered = bytes ++ (reader.script s₁).delivered)
  (left : reader.script s₁ = (reader.script s).after bytes.length)
include split left

/-- A read has brought a part of what is missing. -/
theorem Reports.of_bytes (reports : Reports reader (filled ++ bytes) reported s₁)
    (still : (filled ++ bytes).length < Rejection.frameLength)
    (sameEnd : (reader.script s₁).failsAtEnd = (reader.script s).failsAtEnd)
    (next : run reader.toWatch false (reading filled reported) s =
      run reader.toWatch false (reading (filled ++ bytes) reported) s₁) : Reports reader filled reported s := by
  obtain ⟨errors, tail, events, s', run, cut, outcome⟩ := reports
  refine ⟨errors, tail, events, s', next.trans run, by rw [split, ← List.append_assoc, cut], ?_⟩
  have total : Rejection.frameLength * (errors.length + 1) - filled.length =
      bytes.length + (Rejection.frameLength * (errors.length + 1) - (filled ++ bytes).length) := by
    rw [List.length_append] at still ⊢
    rw [Nat.mul_add]
    omega
  rw [total, Inbound.after_add, ← left, ← sameEnd]
  exact outcome

/-- A read has completed the frame of an error. -/
theorem Reports.of_frame {code : UInt8} {identifier : UInt32} (reports : Reports reader [] (reported + 1) s₁)
    (whole : (filled ++ bytes).length = Rejection.frameLength)
    (sameEnd : (reader.script s₁).failsAtEnd = (reader.script s).failsAtEnd)
    (frame : filled ++ bytes = Rejection.frame code identifier)
    (next : run reader.toWatch false (reading filled reported) s =
      (rejection (code, identifier) :: (run reader.toWatch false (reading [] (reported + 1)) s₁).1,
        (run reader.toWatch false (reading [] (reported + 1)) s₁).2)) : Reports reader filled reported s := by
  obtain ⟨errors, tail, events, s', run, cut, outcome⟩ := reports
  rw [List.nil_append] at cut
  refine ⟨(code, identifier) :: errors, tail, rejection (code, identifier) :: events, s', ?_, ?_, ?_⟩
  · rw [next, run]
  · rw [split, cut, ← List.append_assoc, frame, ← List.append_assoc]
    rfl
  have total : Rejection.frameLength * (errors.length + 1 + 1) - filled.length =
      bytes.length + (Rejection.frameLength * (errors.length + 1) - ([] : Bytes).length) := by
    rw [List.length_append] at whole
    rw [Nat.mul_add _ (errors.length + 1), List.length_nil]
    omega
  have more : reported + (errors.length + 1) = reported + 1 + errors.length := by omega
  rw [List.length_cons, total, Inbound.after_add, ← left, ← sameEnd, more]
  simpa using outcome

/-- A read has completed six bytes that are no frame of an error. -/
theorem Reports.of_malformed (whole : (filled ++ bytes).length = Rejection.frameLength)
    (other : (filled ++ bytes).head? ≠ some Rejection.command)
    (next : run reader.toWatch false (reading filled reported) s =
      ([.unexplained], gone, reader.shutDown s₁)) : Reports reader filled reported s := by
  refine ⟨[], filled ++ bytes ++ (reader.script s₁).delivered, _, s₁, next, ?_, .inl ⟨?_, ?_, rfl, ?_⟩⟩
  · rw [split, List.append_assoc]
    rfl
  · rw [List.length_append, whole]
    omega
  · have some : (filled ++ bytes).head?.isSome := by
      rw [List.isSome_head?]
      cases begun : filled ++ bytes <;> simp [begun, Rejection.frameLength] at whole ⊢
    rwa [List.head?_append, Option.or_of_isSome some]
  · rw [left]
    congr 1
    rw [List.length_append] at whole
    simp only [List.length_nil, Nat.zero_add, Nat.mul_one]
    omega

end bytes

section afterRead
variable {filled bytes : Bytes} {reported : Nat} (more : bytes ≠ [])
include more

theorem afterRead_of_partial (still : (filled ++ bytes).length < Rejection.frameLength) :
    afterRead filled reported (.ok bytes) = reading (filled ++ bytes) reported := by
  cases bytes with
  | nil => exact absurd rfl more
  | cons first others => simp only [afterRead, if_pos still]

theorem afterRead_of_frame {rejection : Rejection} (whole : (filled ++ bytes).length = Rejection.frameLength)
    (decoded : Rejection.ofFrame? (filled ++ bytes) = .ok rejection) :
    afterRead filled reported (.ok bytes) = reporting rejection reported := by
  cases bytes with
  | nil => exact absurd rfl more
  | cons first others => simp only [afterRead, whole, Nat.lt_irrefl, if_false, decoded]

theorem afterRead_of_malformed {problem : Rejection.FrameError}
    (whole : (filled ++ bytes).length = Rejection.frameLength)
    (decoded : Rejection.ofFrame? (filled ++ bytes) = .error problem) :
    afterRead filled reported (.ok bytes) = concluding (some .unexplained) := by
  cases bytes with
  | nil => exact absurd rfl more
  | cons first others => simp only [afterRead, whole, Nat.lt_irrefl, if_false, decoded]

end afterRead

theorem reading_reports (reader : ScriptWatch σ) {filled : Bytes} (partly : filled.length < Rejection.frameLength)
    (reported : Nat) (s : σ) : Reports reader filled reported s := by
  -- a read after which the monitor goes on leaves less to be read
  induction size : reader.volume s using Nat.strongRecOn generalizing s filled reported with
  | ind volume ih =>
    obtain ⟨s₁, read, follows⟩ := reader.read_script (Rejection.frameLength - filled.length) s
    rcases answers : (reader.script s).read (Rejection.frameLength - filled.length) with ⟨answer, rest⟩
    have taken := (reader.script s).taken (Nat.sub_pos_of_lt partly)
    rw [answers] at read follows taken
    obtain rfl : reader.script s₁ = rest := follows
    have next : run reader.toWatch false (reading filled reported) s =
        run reader.toWatch false (afterRead filled reported answer) s₁ := by
      rw [run_next reader.toWatch (by simp only [step, read]; rfl)]
      rfl
    have less (goes : goesOn answer) : reader.volume s₁ < volume := size ▸ reader.volume_read_lt read goes
    cases taken with
    | ending nothing ends =>
      refine ⟨[], filled, _, s₁, ?_, by simp [nothing, frames], .inr ⟨partly, rfl⟩⟩
      rw [next, ends]
      exact run_ended ..
    | @failure error _ lasting nothing failed =>
      refine ⟨[], filled, _, s₁, ?_, by simp [nothing, frames], .inr ⟨partly, rfl⟩⟩
      rw [next, failed, afterRead, if_neg (by simp [lasting])]
      exact run_ended ..
    | @delay error _ transient same sameEnd left =>
      rw [afterRead, if_pos transient] at next
      exact (ih _ (less transient) partly reported s₁ rfl).of_delay partly same sameEnd left next
    | @bytes bytes _ some within split sameEnd left =>
      have goes : goesOn (.ok bytes) := by simpa [goesOn] using some
      have count : (filled ++ bytes).length = filled.length + bytes.length := List.length_append
      by_cases still : (filled ++ bytes).length < Rejection.frameLength
      · rw [afterRead_of_partial some still] at next
        exact (ih _ (less goes) still reported s₁ rfl).of_bytes split left still sameEnd next
      have whole : (filled ++ bytes).length = Rejection.frameLength := by omega
      rcases Rejection.ofFrame?_cases whole with ⟨code, identifier, frame, decoded⟩ | ⟨other, problem, decoded⟩
      · have starts : ([] : Bytes).length < Rejection.frameLength := by decide
        refine (ih _ (less goes) starts (reported + 1) s₁ rfl).of_frame split left whole sameEnd frame ?_
        rw [next, afterRead_of_frame some whole decoded, run_next reader.toWatch rfl]
        rfl
      · refine .of_malformed split left whole other ?_
        rw [next, afterRead_of_malformed some whole decoded]
        exact run_concluding ..

/-- What a monitor tells of a connection, however its bytes are cut into pieces and however often a read
only waits. The bytes are the frames of errors, each of which is told, and something behind them. If that
begins as no error frame does, one unexplained error is told, the connection is shut down, and no byte
behind the six is read. Otherwise it is too short for a frame, and what is told of the end depends on it,
on whether the end was a failure, and on whether the connection was still open then. -/
theorem run_reports (reader : ScriptWatch σ) (s : σ) :
    ∃ errors tail events s',
      start.run reader.toWatch false s = (events, gone, reader.shutDown s') ∧
      (reader.script s).delivered = frames errors ++ tail ∧
      ((Rejection.frameLength ≤ tail.length ∧ tail.head? ≠ some Rejection.command ∧
          events = errors.map rejection ++ [.unexplained] ∧
          reader.script s' = (reader.script s).after (Rejection.frameLength * (errors.length + 1))) ∨
        (tail.length < Rejection.frameLength ∧
          events = errors.map rejection ++
            closing (reader.isOpen s') (reader.script s).failsAtEnd errors.length tail)) := by
  have starts : ([] : Bytes).length < Rejection.frameLength := by decide
  obtain ⟨errors, tail, events, s', run, split, outcome⟩ := reading_reports reader starts 0 s
  rw [Nat.zero_add] at outcome
  exact ⟨errors, tail, events, s', run, split, outcome⟩

/-- A frame in three pieces, and one that is cut short. -/
example : (start.run ScriptedConnection.scripted.toWatch false
    { inbound := [.bytes [8, 7, 0], .failure .readTimedOut false, .bytes [0, 1], .bytes [2, 8, 8]] }).1 =
      [⟨.invalidPayloadSize, some 258⟩, ⟨.invalidToken, none⟩] := by
  cbv

end Monitor
end PushGateway
