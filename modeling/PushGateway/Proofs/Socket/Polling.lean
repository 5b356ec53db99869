import PushGateway.Socket.Poll

namespace PushGateway.Socket

namespace Poll

/-- A try after which a read goes on. -/
structure Fruitless (limit : Option Duration) (started : Nat) (poll : Poll) : Prop where
  nothing : isNothing poll.answer = true
  isOpen : poll.isOpen = true
  inTime : ∀ most, limit = some most → poll.now - started < most.toNanos

/-- What a read comes to with a try that ends it. -/
inductive Ends (limit : Option Duration) (started : Nat) (poll : Poll) : Except IoError Bytes → Prop
  | brings : isNothing poll.answer = false → Ends limit started poll poll.answer
  | closed : isNothing poll.answer = true → poll.isOpen = false → Ends limit started poll (.error .closedHere)
  | late {most : Duration} : isNothing poll.answer = true → poll.isOpen = true → limit = some most →
      most.toNanos ≤ poll.now - started → Ends limit started poll (.error .readTimedOut)

variable {limit : Option Duration} {started : Nat} {poll : Poll} {answer : Except IoError Bytes}

theorem verdict_eq_none_iff : poll.verdict limit started = none ↔ poll.Fruitless limit started := by
  unfold verdict
  by_cases nothing : isNothing poll.answer = true
  · by_cases isOpen : poll.isOpen = true
    · cases overdue : isOver limit (poll.now - started) with
      | true =>
        have late : ¬ poll.Fruitless limit started := fun fruitless => by
          have still := isOver_eq_false_iff.mpr fruitless.inTime
          rw [overdue] at still
          cases still
        simp [nothing, isOpen, late]
      | false =>
        have inTime := isOver_eq_false_iff.mp overdue
        simp [nothing, isOpen, Fruitless.mk nothing isOpen inTime]
    · have closed : ¬ poll.Fruitless limit started := fun fruitless => isOpen fruitless.isOpen
      simp [nothing, isOpen, closed]
  · have something : ¬ poll.Fruitless limit started := fun fruitless => nothing fruitless.nothing
    simp [nothing, something]

theorem Ends.verdict (ends : poll.Ends limit started answer) : poll.verdict limit started = some answer := by
  unfold Poll.verdict
  cases ends with
  | brings something => simp [something]
  | closed nothing shut => simp [nothing, shut]
  | @late most nothing isOpen limited passed =>
    have overdue := isOver_iff.mpr ⟨most, limited, passed⟩
    simp [nothing, isOpen, overdue]

theorem verdict_eq_some_iff : poll.verdict limit started = some answer ↔ poll.Ends limit started answer := by
  refine ⟨fun ends => ?_, Ends.verdict⟩
  -- there is no other answer than the one that the try ends with
  have known {answer'} (ends' : poll.Ends limit started answer') : poll.Ends limit started answer := by
    rw [ends'.verdict] at ends
    rw [← Option.some.inj ends]
    exact ends'
  by_cases nothing : isNothing poll.answer = true
  · by_cases isOpen : poll.isOpen = true
    · by_cases overdue : isOver limit (poll.now - started) = true
      · obtain ⟨most, limited, passed⟩ := isOver_iff.mp overdue
        exact known (.late nothing isOpen limited passed)
      · simp [Poll.verdict, nothing, isOpen, overdue] at ends
    · exact known (.closed nothing (Bool.eq_false_iff.mpr isOpen))
  · exact known (.brings (Bool.eq_false_iff.mpr nothing))

/-- A read says that nothing came in time only if it has a timeout, and not before that has passed. -/
theorem Ends.timely {error : IoError} (ends : poll.Ends limit started (.error error)) (late : error.isPoll = true) :
    error = .readTimedOut ∧ isNothing poll.answer = true ∧ poll.isOpen = true ∧
      ∃ most, limit = some most ∧ most.toNanos ≤ poll.now - started := by
  generalize same : Except.error error = answer at ends
  cases ends with
  | brings something =>
    rw [← same, isNothing, late] at something
    cases something
  | closed =>
    cases same
    cases late
  | late nothing isOpen limited passed =>
    cases same
    exact ⟨rfl, nothing, isOpen, _, limited, passed⟩

end Poll

variable {limit : Option Duration} {started : Nat} {polls later : List Poll} {answer : Except IoError Bytes}

theorem readPolling_eq_none_iff :
    readPolling limit started polls = none ↔ ∀ poll ∈ polls, poll.Fruitless limit started := by
  induction polls with
  | nil => simp [readPolling]
  | cons poll polls ih =>
    rw [readPolling, List.forall_mem_cons, ← Poll.verdict_eq_none_iff, ← ih]
    cases poll.verdict limit started with
    | none => simp
    | some answer => simp

/-- A read comes to what the first try comes to that is not fruitless. -/
theorem readPolling_eq_some_iff :
    readPolling limit started polls = some (answer, later) ↔
      ∃ before last, polls = before ++ last :: later ∧ (∀ poll ∈ before, poll.Fruitless limit started) ∧
        last.Ends limit started answer := by
  induction polls with
  | nil => simp [readPolling]
  | cons poll polls ih =>
    rw [readPolling]
    cases verdict : poll.verdict limit started with
    | none =>
      have fruitless := Poll.verdict_eq_none_iff.mp verdict
      rw [ih]
      constructor
      · rintro ⟨before, last, rfl, earlier, ends⟩
        exact ⟨poll :: before, last, rfl, List.forall_mem_cons.mpr ⟨fruitless, earlier⟩, ends⟩
      · rintro ⟨before, last, same, earlier, ends⟩
        cases before with
        | nil =>
          obtain ⟨rfl, rfl⟩ := List.cons.inj same
          rw [ends.verdict] at verdict
          cases verdict
        | cons first before =>
          obtain ⟨rfl, rfl⟩ := List.cons.inj same
          exact ⟨before, last, rfl, (List.forall_mem_cons.mp earlier).2, ends⟩
    | some own =>
      constructor
      · intro same
        obtain ⟨rfl, rfl⟩ := Prod.mk.inj (Option.some.inj same)
        exact ⟨[], poll, rfl, nofun, Poll.verdict_eq_some_iff.mp verdict⟩
      · rintro ⟨before, last, same, earlier, ends⟩
        cases before with
        | nil =>
          obtain ⟨rfl, rfl⟩ := List.cons.inj same
          rw [ends.verdict] at verdict
          rw [Option.some.inj verdict]
        | cons first before =>
          obtain ⟨rfl, rfl⟩ := List.cons.inj same
          have goesOn := Poll.verdict_eq_none_iff.mpr (List.forall_mem_cons.mp earlier).1
          rw [verdict] at goesOn
          cases goesOn

/-- The tries that a read needs are those up to the one that ends it. -/
theorem readPolling_concat_iff {before : List Poll} {last : Poll} :
    readPolling limit started (before ++ [last]) = some (answer, []) ↔
      (∀ poll ∈ before, poll.Fruitless limit started) ∧ last.Ends limit started answer := by
  rw [readPolling_eq_some_iff]
  constructor
  · rintro ⟨before', last', same, fruitless, ends⟩
    obtain ⟨rfl, lasts⟩ := List.append_inj' same rfl
    cases lasts
    exact ⟨fruitless, ends⟩
  · rintro ⟨fruitless, ends⟩
    exact ⟨before, last, rfl, fruitless, ends⟩

end PushGateway.Socket
