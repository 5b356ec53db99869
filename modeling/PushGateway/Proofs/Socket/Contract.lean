import PushGateway.Proofs.Socket.Sharing

namespace PushGateway.Socket.Traffic

variable {limit : Option Duration} {now thread : Nat} {threads : UInt64} {t t' : Traffic} {history : List Event}
  {answer : Except IoError Bytes}

/-- What a thread reads is what `readPolling` comes to with the tries it has made since it was asked to. -/
theorem answered (course : Leads (Next limit) (.start now threads) history t)
    (ends : Next limit t (.acts thread (.endRead answer)) t') :
    ∃ earlier started before last,
      actsOf thread history = earlier ++ .beginRead started :: (Poll.rounds limit before ++ last.acts limit) ∧
      readPolling limit started (before ++ [last]) = some (answer, []) := by
  cases ends with
  | acts there next _ =>
    cases next with
    | reads step => cases step
    | writes step => cases step
    | endsRead =>
      obtain ⟨earlier, own, done, leads⟩ := Task.begun (course.threadwise there)
      obtain ⟨before, last, rfl, polled⟩ := Reading.leads_answers_iff.mp leads
      exact ⟨earlier, _, before, last, done, polled⟩

theorem looked (course : Leads (Next limit) (.start now threads) history t) {isOpen : Bool}
    (looks : Next limit t (.acts thread (.look isOpen)) t') : isOpen = true ↔ .shutDown ∉ history := by
  rw [← isOpen_iff course]
  cases looks with
  | acts _ _ shared =>
    cases shared with
    | shows same => rw [same]

/-- A connection is read and its writers are counted as they should be, whatever the socket answers to its threads,
however these are interleaved, and whenever it is shut down.

A read has no answer as long as all tries are fruitless. Its answer is the one that the first other try ends with:
what the socket has answered, if it was not that nothing came; else that the connection has been shut down, or that
the timeout has passed. Such reads are what a thread can do, and each of its reads is one. It is told that nothing
came only if there is a timeout, and not before that has passed since it was asked. It sees the connection closed as
soon as this is so, its clock does not go back, and it hands over what it got from the socket, all of it and in order.
It can always go on, or else the one that has the lock can.

The counter is the number of writers that have announced themselves and not taken that back, which is the first thing
they do with the lock. So these are the writers that wait for the lock, and at most one more, which has just got it. -/
theorem polled_and_counted (course : Leads (Next limit) (.start now threads) history t) :
    (∀ started polls, readPolling limit started polls = none ↔ ∀ poll ∈ polls, poll.Fruitless limit started) ∧
    (∀ started polls answer later, readPolling limit started polls = some (answer, later) ↔
      ∃ before last, polls = before ++ last :: later ∧ (∀ poll ∈ before, poll.Fruitless limit started) ∧
        last.Ends limit started answer) ∧
    (∀ started before last answer, readPolling limit started (before ++ [last]) = some (answer, []) →
      Leads (Reading.Next limit started) .waits (Poll.rounds limit before ++ last.acts limit) (.answers answer)) ∧
    (∀ thread answer t', Next limit t (.acts thread (.endRead answer)) t' →
      ∃ earlier started before last,
        actsOf thread history = earlier ++ .beginRead started :: (Poll.rounds limit before ++ last.acts limit) ∧
        readPolling limit started (before ++ [last]) = some (answer, []) ∧
        ∀ error, answer = .error error → error.isPoll = true → error = .readTimedOut ∧
          isNothing last.answer = true ∧ last.isOpen = true ∧
          ∃ most, limit = some most ∧ most.toNanos ≤ last.now - started) ∧
    (∀ thread isOpen t', Next limit t (.acts thread (.look isOpen)) t' → (isOpen = true ↔ .shutDown ∉ history)) ∧
    (∀ thread, (clocksOf thread history).Pairwise (· ≤ ·)) ∧
    (∀ thread task, t.tasks[thread]? = some task →
      (actsOf thread history).flatMap Act.received = (actsOf thread history).flatMap Act.delivered ++ task.inHand ∧
      ∃ other act t', Next limit t (.acts other act) t' ∧ (other ≠ thread → t.shared.holder = some other)) ∧
    t.shared.waiting.toNat = t.tasks.countP Task.isAnnounced ∧
    t.tasks.countP Task.isAnnounced = t.tasks.countP Task.isWaiting + (if t.entering then 1 else 0) ∧
    ∀ thread t', Next limit t (.acts thread .withdraw) t' → t.shared.waiting ≠ 0 := by
  refine ⟨fun _ _ => readPolling_eq_none_iff, fun _ _ _ _ => readPolling_eq_some_iff, ?_, ?_,
    fun _ _ _ => looked course, fun thread => (clocks course thread).1, ?_, waiting_eq_announced course,
    announced_eq course, fun _ _ => waiting_ne_zero course⟩
  · intro started before last answer polled
    exact Reading.leads_answers_iff.mpr ⟨before, last, rfl, polled⟩
  · intro thread answer t' ends
    obtain ⟨earlier, started, before, last, done, polled⟩ := answered course ends
    refine ⟨earlier, started, before, last, done, polled, ?_⟩
    rintro error rfl late
    exact (readPolling_concat_iff.mp polled).2.timely late
  · intro thread task there
    exact ⟨Task.passes_on (course.threadwise there), goes_on course there⟩

/-- One thread goes on. -/
theorem moves (thread : Nat) {task task' : Task} {act : Act} {shared : Shared} (there : t.tasks[thread]? = some task)
    (next : task.Next limit act task') (seen : t.shared.Next thread act shared) :
    Next limit t (.acts thread act) (t.put thread task' shared) :=
  .acts there next seen

/-- Two threads meet: the first finds nothing, sees that the other wants to write, lets it go first and comes back
before it all the same; then the other has the lock. -/
theorem polled_and_counted_beside_writer :
    ∃ t t', Leads (Next (some ⟨1, 0⟩)) (.start 5 2)
        [.acts 0 (.beginRead 5), .acts 0 .lock, .acts 1 (.beginWrite [7]), .acts 1 (.look true), .acts 1 .announce,
          .acts 0 (.receive (.error nothingYet)), .acts 0 .unlock, .acts 0 (.look true), .passes 9, .acts 0 (.time 9),
          .acts 0 (.count 1), .acts 0 .wake, .acts 0 .lock, .acts 0 (.receive (.ok [1, 2])), .acts 0 .unlock,
          .acts 1 .lock] t ∧
      Next (some ⟨1, 0⟩) t (.acts 0 (.endRead (.ok [1, 2]))) t' ∧
      t.shared.waiting.toNat = t.tasks.countP Task.isWaiting + (if t.entering then 1 else 0) ∧
      t.tasks.countP Task.isWaiting = 0 := by
  have course := (.start : Leads (Next (some ⟨1, 0⟩)) (.start 5 2) [] _)
    |>.next (moves 0 rfl (.beginsRead 5) (.shows rfl))
    |>.next (moves 0 rfl (.reads .locks) (.lock rfl))
    |>.next (moves 1 rfl (.beginsWrite [7]) (.shows trivial))
    |>.next (moves 1 rfl (.writes .findsOpen) (.shows rfl))
    |>.next (moves 1 rfl (.writes .announces) .announce)
    |>.next (moves 0 rfl (.reads (.receives (.error nothingYet))) (.shows trivial))
    |>.next (moves 0 rfl (.reads (.bringsNothing rfl)) .unlock)
    |>.next (moves 0 rfl (.reads (.findsOpenTimed nofun)) (.shows rfl))
    |>.next (.passes (show 5 ≤ 9 by decide))
    |>.next (moves 0 rfl (.reads (.isInTime (show isOver _ (9 - 5) = false by decide))) (.shows rfl))
    |>.next (moves 0 rfl (.reads (.findsWriters (show (1 : UInt64) ≠ 0 by decide))) (.shows rfl))
    |>.next (moves 0 rfl (.reads .wakes) (.shows trivial))
    |>.next (moves 0 rfl (.reads .locks) (.lock rfl))
    |>.next (moves 0 rfl (.reads (.receives (.ok [1, 2]))) (.shows trivial))
    |>.next (moves 0 rfl (.reads (.brings rfl)) .unlock)
    |>.next (moves 1 rfl (.writes .locks) (.lock rfl))
  obtain ⟨-, -, -, -, -, -, -, announced, counted, -⟩ := polled_and_counted course
  exact ⟨_, _, course, .acts rfl .endsRead (.shows trivial), announced.trans counted, rfl⟩

/-- A writer that has just got the lock is still counted, although it does not wait any more. -/
theorem counted_with_lock :
    ∃ t, Leads (Next none) (.start 0 1)
        [.acts 0 (.beginWrite [7]), .acts 0 (.look true), .acts 0 .announce, .acts 0 .lock] t ∧
      t.shared.holder = some 0 ∧ t.shared.waiting.toNat = 1 ∧ t.tasks.countP Task.isWaiting = 0 := by
  have course := (.start : Leads (Next none) (.start 0 1) [] _)
    |>.next (moves 0 rfl (.beginsWrite [7]) (.shows trivial))
    |>.next (moves 0 rfl (.writes .findsOpen) (.shows rfl))
    |>.next (moves 0 rfl (.writes .announces) .announce)
    |>.next (moves 0 rfl (.writes .locks) (.lock rfl))
  exact ⟨_, course, rfl, rfl, rfl⟩

end PushGateway.Socket.Traffic
