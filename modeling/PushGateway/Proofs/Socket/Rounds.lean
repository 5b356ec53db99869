import PushGateway.Proofs.Socket.Polling
import PushGateway.Socket.Traffic

namespace PushGateway.Socket

/-- What happens one after the other, from `s` on. -/
inductive Leads {σ ε : Type} (next : σ → ε → σ → Prop) (s : σ) : List ε → σ → Prop
  | start : Leads next s [] s
  | next {s' s'' : σ} {happened : List ε} {event : ε} : Leads next s happened s' → next s' event s'' →
      Leads next s (happened ++ [event]) s''

namespace Leads

variable {σ ε : Type} {next : σ → ε → σ → Prop} {s s' s'' : σ} {event : ε} {happened later : List ε}

theorem one (step : next s event s') : Leads next s [event] s' := .next .start step

theorem trans (first : Leads next s happened s') (second : Leads next s' later s'') :
    Leads next s (happened ++ later) s'' := by
  induction second with
  | start => rwa [List.append_nil]
  | next _ step ih =>
    rw [← List.append_assoc]
    exact .next ih step

theorem first (step : next s event s') (rest : Leads next s' later s'') : Leads next s (event :: later) s'' :=
  (one step).trans rest

end Leads

namespace Poll

/-- What a read does to make this try, and to find out whether it goes on. -/
def acts (limit : Option Duration) (poll : Poll) : List Act :=
  [.lock, .receive poll.answer, .unlock] ++
    if isNothing poll.answer then
      .look poll.isOpen :: if poll.isOpen && limit.isSome then [.time poll.now] else []
    else []

/-- What a read does between two tries. -/
def pause (poll : Poll) : List Act := .count poll.waiting :: if poll.waiting = 0 then [] else [.wake]

/-- What a read does over tries with which it goes on. -/
def rounds (limit : Option Duration) (polls : List Poll) : List Act :=
  polls.flatMap fun poll => poll.acts limit ++ poll.pause

variable {limit : Option Duration} {started : Nat} {poll : Poll}

theorem rounds_append (limit : Option Duration) (polls : List Poll) (poll : Poll) :
    rounds limit (polls ++ [poll]) = rounds limit polls ++ (poll.acts limit ++ poll.pause) := by
  rw [rounds, List.flatMap_append, List.flatMap_singleton, rounds]

theorem acts_of_something (something : isNothing poll.answer = false) :
    poll.acts limit = [.lock, .receive poll.answer, .unlock] := by
  simp [acts, something]

theorem acts_of_closed (nothing : isNothing poll.answer = true) (closed : poll.isOpen = false) :
    poll.acts limit = [.lock, .receive poll.answer, .unlock, .look false] := by
  simp [acts, nothing, closed]

theorem acts_of_untimed (nothing : isNothing poll.answer = true) (isOpen : poll.isOpen = true) :
    poll.acts none = [.lock, .receive poll.answer, .unlock, .look true] := by
  simp [acts, nothing, isOpen]

theorem acts_of_timed (nothing : isNothing poll.answer = true) (isOpen : poll.isOpen = true) (timed : limit ≠ none) :
    poll.acts limit = [.lock, .receive poll.answer, .unlock, .look true, .time poll.now] := by
  simp [acts, nothing, isOpen, Option.isSome_iff_ne_none.mpr timed]

end Poll

open Poll (rounds)

namespace Reading

variable {limit : Option Duration} {started : Nat} {stage : Reading} {acts : List Act} {answer : Except IoError Bytes}

/-- Where a read stands that has done so much of a round. -/
inductive Within (limit : Option Duration) (started : Nat) : List Act → Reading → Prop
  | waits : Within limit started [] .waits
  | tries : Within limit started [.lock] .tries
  | received (answer : Except IoError Bytes) : Within limit started [.lock, .receive answer] (.received answer)
  | looks {answer : Except IoError Bytes} : isNothing answer = true →
      Within limit started [.lock, .receive answer, .unlock] .looks
  | times {answer : Except IoError Bytes} : isNothing answer = true → limit ≠ none →
      Within limit started [.lock, .receive answer, .unlock, .look true] .times
  | counts {poll : Poll} : poll.Fruitless limit started → Within limit started (poll.acts limit) .counts
  | naps {poll : Poll} : poll.Fruitless limit started → poll.waiting ≠ 0 →
      Within limit started (poll.acts limit ++ [.count poll.waiting]) .naps
  | answers {poll : Poll} {answer : Except IoError Bytes} : poll.Ends limit started answer →
      Within limit started (poll.acts limit) (.answers answer)

/-- A read does the next thing of its round, or the last. -/
theorem Within.next {part : List Act} {act : Act} {stage' : Reading} (within : Within limit started part stage)
    (step : stage.Next limit started act stage') :
    Within limit started (part ++ [act]) stage' ∨
      stage' = .waits ∧ ∃ poll : Poll, poll.Fruitless limit started ∧ part ++ [act] = poll.acts limit ++ poll.pause := by
  cases step with
  | locks =>
    cases within
    exact .inl .tries
  | receives answer =>
    cases within
    exact .inl (.received answer)
  | @brings answer something =>
    cases within
    have ends : Within limit started (Poll.acts limit ⟨answer, true, 0, 0⟩) (.answers answer) :=
      .answers (.brings something)
    rw [Poll.acts_of_something something] at ends
    exact .inl ends
  | bringsNothing nothing =>
    cases within
    exact .inl (.looks nothing)
  | findsClosed =>
    cases within with
    | @looks answer nothing =>
      have ends : Within limit started (Poll.acts limit ⟨answer, false, 0, 0⟩) (.answers (.error .closedHere)) :=
        .answers (.closed nothing rfl)
      rw [Poll.acts_of_closed nothing rfl] at ends
      exact .inl ends
  | findsOpen untimed =>
    cases within with
    | @looks answer nothing =>
      subst untimed
      have goesOn : Within none started (Poll.acts none ⟨answer, true, 0, 0⟩) .counts :=
        .counts ⟨nothing, rfl, nofun⟩
      rw [Poll.acts_of_untimed nothing rfl] at goesOn
      exact .inl goesOn
  | findsOpenTimed timed =>
    cases within with
    | looks nothing => exact .inl (.times nothing timed)
  | @isLate now overdue =>
    cases within with
    | @times answer nothing timed =>
      obtain ⟨most, limited, passed⟩ := isOver_iff.mp overdue
      have ends : Within limit started (Poll.acts limit ⟨answer, true, now, 0⟩) (.answers (.error .readTimedOut)) :=
        .answers (.late nothing rfl limited passed)
      rw [Poll.acts_of_timed nothing rfl timed] at ends
      exact .inl ends
  | @isInTime now still =>
    cases within with
    | @times answer nothing timed =>
      have inTime := isOver_eq_false_iff.mp still
      have goesOn : Within limit started (Poll.acts limit ⟨answer, true, now, 0⟩) .counts :=
        .counts ⟨nothing, rfl, inTime⟩
      rw [Poll.acts_of_timed nothing rfl timed] at goesOn
      exact .inl goesOn
  | findsNobody =>
    cases within with
    | @counts poll own =>
      have own' : Poll.Fruitless limit started { poll with waiting := 0 } := ⟨own.nothing, own.isOpen, own.inTime⟩
      exact .inr ⟨rfl, _, own', rfl⟩
  | @findsWriters waiting writers =>
    cases within with
    | @counts poll own =>
      have own' : Poll.Fruitless limit started { poll with waiting } := ⟨own.nothing, own.isOpen, own.inTime⟩
      exact .inl (.naps own' writers)
  | wakes =>
    cases within with
    | @naps poll own writers =>
      have pause : poll.pause = [.count poll.waiting, .wake] := by
        rw [Poll.pause, if_neg writers]
      exact .inr ⟨rfl, poll, own, by rw [pause, List.append_assoc]; rfl⟩

/-- A read goes round by round: all but the last of them are fruitless. -/
theorem rounds_of_leads (leads : Leads (Next limit started) .waits acts stage) :
    ∃ polls part, acts = rounds limit polls ++ part ∧ (∀ poll ∈ polls, poll.Fruitless limit started) ∧
      Within limit started part stage := by
  induction leads with
  | start => exact ⟨[], [], rfl, nofun, .waits⟩
  | next _ step ih =>
    obtain ⟨polls, part, rfl, fruitless, within⟩ := ih
    rw [List.append_assoc]
    rcases within.next step with further | ⟨rfl, poll, own, done⟩
    · exact ⟨polls, _, rfl, fruitless, further⟩
    · -- the round is over, and another one begins
      refine ⟨polls ++ [poll], [], by rw [Poll.rounds_append, List.append_nil, done], ?_, .waits⟩
      intro before member
      rcases List.mem_append.mp member with old | new
      · exact fruitless before old
      · rwa [List.mem_singleton.mp new]

theorem leads_acts_of_nothing {poll : Poll} (nothing : isNothing poll.answer = true) :
    Leads (Next limit started) .waits [.lock, .receive poll.answer, .unlock] .looks :=
  .first .locks (.first (.receives _) (.one (.bringsNothing nothing)))

theorem leads_of_ends {poll : Poll} (ends : poll.Ends limit started answer) :
    Leads (Next limit started) .waits (poll.acts limit) (.answers answer) := by
  cases ends with
  | brings something =>
    rw [Poll.acts_of_something something]
    exact .first .locks (.first (.receives _) (.one (.brings something)))
  | closed nothing closed =>
    rw [Poll.acts_of_closed nothing closed]
    exact (leads_acts_of_nothing nothing).trans (.one .findsClosed)
  | @late most nothing isOpen limited passed =>
    have timed : limit ≠ none := by
      rw [limited]
      nofun
    rw [Poll.acts_of_timed nothing isOpen timed]
    have overdue := isOver_iff.mpr ⟨most, limited, passed⟩
    exact (leads_acts_of_nothing nothing).trans (.first (.findsOpenTimed timed) (.one (.isLate overdue)))

theorem leads_of_fruitless {poll : Poll} (fruitless : poll.Fruitless limit started) :
    Leads (Next limit started) .waits (poll.acts limit ++ poll.pause) .waits := by
  obtain ⟨nothing, isOpen, inTime⟩ := fruitless
  have goesOn : Leads (Next limit started) .waits (poll.acts limit) .counts := by
    by_cases untimed : limit = none
    · subst untimed
      rw [Poll.acts_of_untimed nothing isOpen]
      exact (leads_acts_of_nothing nothing).trans (.one (.findsOpen rfl))
    · have still := isOver_eq_false_iff.mpr inTime
      rw [Poll.acts_of_timed nothing isOpen untimed]
      exact (leads_acts_of_nothing nothing).trans (.first (.findsOpenTimed untimed) (.one (.isInTime still)))
  refine goesOn.trans ?_
  unfold Poll.pause
  by_cases nobody : poll.waiting = 0
  · rw [if_pos nobody, nobody]
    exact .one .findsNobody
  · rw [if_neg nobody]
    exact .first (.findsWriters nobody) (.one .wakes)

theorem leads_rounds {polls : List Poll} (fruitless : ∀ poll ∈ polls, poll.Fruitless limit started) :
    Leads (Next limit started) .waits (rounds limit polls) .waits := by
  induction polls with
  | nil => exact .start
  | cons poll polls ih =>
    obtain ⟨own, later⟩ := List.forall_mem_cons.mp fruitless
    rw [rounds, List.flatMap_cons]
    exact (leads_of_fruitless own).trans (ih later)

/-- A read of a thread comes to an answer by going through tries with which `readPolling` comes to it, and it can go
through any such tries. -/
theorem leads_answers_iff :
    Leads (Next limit started) .waits acts (.answers answer) ↔
      ∃ before last, acts = rounds limit before ++ last.acts limit ∧
        readPolling limit started (before ++ [last]) = some (answer, []) := by
  constructor
  · intro leads
    obtain ⟨before, part, rfl, fruitless, within⟩ := rounds_of_leads leads
    cases within with
    | @answers last _ ends =>
      exact ⟨before, last, rfl, readPolling_concat_iff.mpr ⟨fruitless, ends⟩⟩
  · rintro ⟨before, last, rfl, polled⟩
    obtain ⟨fruitless, ends⟩ := readPolling_concat_iff.mp polled
    exact (leads_rounds fruitless).trans (leads_of_ends ends)

end Reading
end PushGateway.Socket
