import PushGateway.Proofs.Memory.Course

namespace PushGateway.Memory

namespace Happening

/-- What the far end of a connection sends. -/
def pushedTo (conn : Nat) : Happening → Bytes
  | pushed c bytes => if c = conn then bytes else []
  | _ => []

/-- What a read from a connection finds. -/
def readFrom (conn : Nat) : Happening → Bytes
  | read c _ (.ok bytes) => if c = conn then bytes else []
  | _ => []

/-- What a connection takes from a writer. -/
def writtenTo (conn : Nat) : Happening → Bytes
  | wrote c bytes _ (.ok ()) => if c = conn then bytes else []
  | _ => []

def isRefusal : Happening → Bool
  | refused _ _ => true
  | _ => false

/-- A connection comes about. -/
def makes : Happening → Bool
  | connected _ _ => true
  | _ => false

/-- The scripts that wait for a connection. -/
def queue (scripts : List Script) : Happening → List Script
  | scripted s => scripts ++ [s]
  | connected _ _ => scripts.tail
  | _ => scripts

end Happening

/-- All that was sent to a connection, which was `pipe` before `history`. -/
def sent (conn : Nat) (pipe : Pipe) (history : List Happening) : Bytes :=
  pipe.inbound ++ history.flatMap (Happening.pushedTo conn)

/-- All that was read from a connection. -/
def delivered (conn : Nat) (history : List Happening) : Bytes := history.flatMap (Happening.readFrom conn)

/-- All that was written to a connection, which was `pipe` before `history`. -/
def taken (conn : Nat) (pipe : Pipe) (history : List Happening) : Bytes :=
  pipe.written ++ history.flatMap (Happening.writtenTo conn)

/-- Nothing has closed the connection since it was `pipe`. -/
def StaysOpen (conn : Nat) (pipe : Pipe) (history : List Happening) : Prop :=
  pipe.isOpen = true ∧ ∀ happening ∈ history, happening.shuts conn = false

/-- The far end closes its side in the course of `history`, or has done so before. -/
def Ended (conn : Nat) (pipe : Pipe) (history : List Happening) : Prop :=
  pipe.farClosed = true ∨ .farClosed conn ∈ history

/-- The scripts that wait after `history`, where these waited before. -/
def waiting (scripts : List Script) (history : List Happening) : List Script := history.foldl Happening.queue scripts

/-- What a history makes of a connection that was `pipe`. -/
structure Carried (conn : Nat) (pipe : Pipe) (history : List Happening) (pipe' : Pipe) : Prop where
  /-- What was sent was read or still waits, in the same order. -/
  inbound : sent conn pipe history = delivered conn history ++ pipe'.inbound
  written : pipe'.written = taken conn pipe history
  isOpen : pipe'.isOpen = true ↔ StaysOpen conn pipe history
  farClosed : pipe'.farClosed = true ↔ Ended conn pipe history
  readTimeout : pipe'.readTimeout = pipe.readTimeout
  /-- A connection that is not open takes nothing. -/
  closed : pipe.isOpen = false → pipe'.written = pipe.written

/-- What came of one thing that was done to a connection that was `pipe` before all things in `before`. -/
structure Answered (conn : Nat) (pipe : Pipe) (before : List Happening) (happening : Happening) : Prop where
  readClosed : ∀ limit answer, happening = .read conn limit answer → ¬StaysOpen conn pipe before →
    answer = .error .closedHere
  /-- A read takes what comes next, as much as it has room for. -/
  readNext : ∀ limit answer rest, happening = .read conn limit answer → StaysOpen conn pipe before →
    sent conn pipe before = delivered conn before ++ rest → rest ≠ [] → answer = .ok (rest.take limit)
  /-- With room for a byte, a read finds nothing only at the end. -/
  readEnd : ∀ limit, happening = .read conn limit (.ok []) → 0 < limit →
    delivered conn before = sent conn pipe before ∧ Ended conn pipe before
  /-- Nothing but its patience fails a read from an open connection. -/
  readLate : ∀ limit error, happening = .read conn limit (.error error) → StaysOpen conn pipe before →
    error = .readTimedOut ∧ delivered conn before = sent conn pipe before ∧ ¬Ended conn pipe before
  wroteClosed : ∀ bytes wasOpen answer, happening = .wrote conn bytes wasOpen answer →
    ¬StaysOpen conn pipe before → answer = .error .closedHere
  /-- It is known of each write whether the connection was open. -/
  wroteOpen : ∀ bytes wasOpen answer, happening = .wrote conn bytes wasOpen answer →
    (wasOpen = true ↔ StaysOpen conn pipe before)

/-- A history that has made `pipe'` of the connection that was `pipe`, at every moment as a faithful connection. -/
structure Faithful (conn : Nat) (pipe : Pipe) (history : List Happening) (pipe' : Pipe) : Prop extends
    Carried conn pipe history pipe' where
  /-- What was read is what was sent first. -/
  inOrder : ∀ earlier later, history = earlier ++ later → delivered conn earlier <+: sent conn pipe earlier
  /-- A connection that has been closed stays so, and nothing more is written to it. -/
  staysClosed : ∀ earlier later, history = earlier ++ later → ¬StaysOpen conn pipe earlier →
    pipe'.isOpen = false ∧ pipe'.written = taken conn pipe earlier
  answered : ∀ before happening after, history = before ++ happening :: after → Answered conn pipe before happening

/-- What came of one thing that was done to a network that was `m` before all things in `before`. -/
structure Scheduled (m : Memory) (before : List Happening) (happening : Happening) : Prop where
  /-- Of the connects after `failsConnects`, exactly the first so many fail. -/
  connects : ∀ earlier count between, before = earlier ++ .failsConnects count :: between →
    (∀ other, .failsConnects other ∉ between) → happening.isConnect = true →
    (happening.isRefusal = true ↔ between.countP Happening.isConnect < count)
  /-- Of the writes to open connections after `failsWrites`, whichever they are, exactly the first so many fail. -/
  writes : ∀ earlier count between, before = earlier ++ .failsWrites count :: between →
    (∀ other, .failsWrites other ∉ between) → ∀ conn bytes answer, happening = .wrote conn bytes true answer →
    answer = if between.countP Happening.isOpenWrite < count then .error brokenPipe else .ok ()
  /-- A connect that succeeds makes one connection, which takes the oldest script that waits. -/
  scripts : ∀ endpoint made, happening = .connected endpoint made →
    made = [(nextPipe endpoint (waiting m.scripts before)).1]

variable {m m' : Memory} {conn : Nat} {pipe pipe' pipe'' : Pipe} {happening : Happening}
  {history later before after : List Happening}

namespace Happening

variable (elsewhere : happening.conn? ≠ some conn)

include elsewhere

theorem pushedTo_elsewhere : happening.pushedTo conn = [] := by
  unfold pushedTo
  split
  · exact if_neg fun same => elsewhere (congrArg some same)
  · rfl

theorem readFrom_elsewhere : happening.readFrom conn = [] := by
  unfold readFrom
  split
  · exact if_neg fun same => elsewhere (congrArg some same)
  · rfl

theorem writtenTo_elsewhere : happening.writtenTo conn = [] := by
  unfold writtenTo
  split
  · exact if_neg fun same => elsewhere (congrArg some same)
  · rfl

theorem shuts_elsewhere : happening.shuts conn = false := by
  unfold shuts
  split
  · exact beq_eq_false_iff_ne.mpr fun same => elsewhere (congrArg some same)
  · rw [beq_eq_false_iff_ne.mpr fun same => elsewhere (congrArg some same)]
    rfl
  · rfl

theorem ne_farClosed_elsewhere : happening ≠ .farClosed conn := fun same => elsewhere (congrArg conn? same)

end Happening

theorem Carried.refl (conn : Nat) (pipe : Pipe) : Carried conn pipe [] pipe where
  inbound := by simp [sent, delivered]
  written := by simp [taken]
  isOpen := by simp [StaysOpen]
  farClosed := by simp [Ended]
  readTimeout := rfl
  closed _ := rfl

theorem staysOpen_append : StaysOpen conn pipe (history ++ later) ↔
    StaysOpen conn pipe history ∧ ∀ happening ∈ later, happening.shuts conn = false := by
  simp only [StaysOpen, List.forall_mem_append, and_assoc]

theorem Carried.trans (first : Carried conn pipe history pipe') (second : Carried conn pipe' later pipe'') :
    Carried conn pipe (history ++ later) pipe'' where
  inbound :=
    calc sent conn pipe (history ++ later)
        = sent conn pipe history ++ later.flatMap (Happening.pushedTo conn) := by
          simp only [sent, List.flatMap_append, List.append_assoc]
      _ = delivered conn history ++ sent conn pipe' later := by rw [first.inbound, List.append_assoc, sent]
      _ = delivered conn (history ++ later) ++ pipe''.inbound := by
          rw [second.inbound, delivered, delivered, delivered, List.flatMap_append, List.append_assoc]
  written := by
    rw [second.written, taken, first.written, taken, taken, List.flatMap_append, List.append_assoc]
  isOpen := by rw [staysOpen_append, second.isOpen, StaysOpen, first.isOpen]
  farClosed := by
    rw [second.farClosed, Ended, first.farClosed, Ended, Ended, List.mem_append, or_assoc]
  readTimeout := second.readTimeout.trans first.readTimeout
  closed shut := by
    have still : pipe'.isOpen = false := by
      rw [← Bool.not_eq_true, first.isOpen]
      exact fun opens => Bool.false_ne_true (shut.symm.trans opens.1)
    exact (second.closed still).trans (first.closed shut)

/-- What one thing that happens makes of a connection. -/
theorem Touch.carried (touch : Touch conn pipe happening pipe') : Carried conn pipe [happening] pipe' := by
  cases touch with
  | elsewhere elsewhere =>
    constructor
    · simp [sent, delivered, Happening.pushedTo_elsewhere elsewhere, Happening.readFrom_elsewhere elsewhere]
    · simp [taken, Happening.writtenTo_elsewhere elsewhere]
    · simp [StaysOpen, Happening.shuts_elsewhere elsewhere]
    · simp [Ended, (Happening.ne_farClosed_elsewhere elsewhere).symm]
    · rfl
    · exact fun _ => rfl
  | pushed | farClosed | readClosed | readBytes | readEnd | readLate | writeClosed | writeFailed | writeTaken
  | shutDown =>
    constructor <;>
      simp_all [sent, delivered, taken, StaysOpen, Ended, Happening.pushedTo, Happening.readFrom, Happening.writtenTo,
        Happening.shuts, Except.isOk, Except.toBool, Pipe.push, Pipe.closeFar, Pipe.shutDown]

/-- What a course makes of a connection. -/
theorem Course.carried (course : Course m history m') (known : m.pipes[conn]? = some pipe) :
    ∃ pipe', m'.pipes[conn]? = some pipe' ∧ Carried conn pipe history pipe' := by
  induction course generalizing pipe with
  | done => exact ⟨pipe, known, .refl conn pipe⟩
  | next step _ ih =>
    obtain ⟨middle, there, touch⟩ := step.touches known
    obtain ⟨pipe', found, carried⟩ := ih there
    exact ⟨pipe', found, touch.carried.trans carried⟩

theorem Carried.isOpen_eq_false (carried : Carried conn pipe history pipe') (shut : ¬StaysOpen conn pipe history) :
    pipe'.isOpen = false := by
  rwa [← Bool.not_eq_true, carried.isOpen]

/-- What one thing comes to that happens after `before`. -/
theorem Touch.answered (touch : Touch conn pipe' happening pipe'') (carried : Carried conn pipe before pipe') :
    Answered conn pipe before happening where
  readClosed limit answer same shut := by
    subst same
    have closed := carried.isOpen_eq_false shut
    cases touch with
    | readClosed => rfl
    | readBytes _ isOpen | readEnd _ isOpen | readLate _ isOpen => exact absurd isOpen (by simp [closed])
    | elsewhere elsewhere => exact absurd rfl elsewhere
  readNext limit answer rest same opens all more := by
    subst same
    have isOpen := carried.isOpen.mpr opens
    have waits : pipe'.inbound = rest := List.append_cancel_left (carried.inbound.symm.trans all)
    cases touch with
    | readClosed _ closed => exact absurd isOpen (by simp [closed])
    | readBytes => rw [waits]
    | readEnd _ _ nothing | readLate _ _ nothing => exact absurd (waits.symm.trans nothing) more
    | elsewhere elsewhere => exact absurd rfl elsewhere
  readEnd limit same room := by
    subst same
    generalize answered : (Except.ok [] : Except IoError Bytes) = answer at touch
    cases touch with
    | readBytes _ _ some =>
      rcases List.take_eq_nil_iff.mp (Except.ok.inj answered).symm with full | nothing
      · exact absurd full (Nat.ne_of_gt room)
      · exact absurd nothing some
    | readEnd _ _ nothing ends =>
      have all := carried.inbound
      rw [nothing, List.append_nil] at all
      exact ⟨all.symm, carried.farClosed.mp ends⟩
    | readClosed | readLate => cases answered
    | elsewhere elsewhere => exact absurd rfl elsewhere
  readLate limit error same opens := by
    subst same
    have isOpen := carried.isOpen.mpr opens
    cases touch with
    | readClosed _ closed => exact absurd isOpen (by simp [closed])
    | readLate _ _ nothing goes =>
      have all := carried.inbound
      rw [nothing, List.append_nil] at all
      exact ⟨rfl, all.symm, fun ends => by simp [carried.farClosed.mpr ends] at goes⟩
    | elsewhere elsewhere => exact absurd rfl elsewhere
  wroteClosed bytes wasOpen answer same shut := by
    subst same
    have closed := carried.isOpen_eq_false shut
    cases touch with
    | writeClosed => rfl
    | writeFailed _ isOpen | writeTaken _ isOpen => exact absurd isOpen (by simp [closed])
    | elsewhere elsewhere => exact absurd rfl elsewhere
  wroteOpen bytes wasOpen answer same := by
    subst same
    rw [← carried.isOpen]
    cases touch with
    | writeClosed _ closed => simp [closed]
    | writeFailed _ isOpen | writeTaken _ isOpen => simp [isOpen]
    | elsewhere elsewhere => exact absurd rfl elsewhere

theorem nextPipe_scripts (endpoint : Endpoint) (scripts : List Script) :
    (nextPipe endpoint scripts).2 = scripts.tail := by
  cases scripts <;> rfl

/-- What one thing that happens has to do with the failures and the scripts that are laid down. -/
structure Tally (m : Memory) (happening : Happening) (m' : Memory) : Prop where
  connectFailures : (∀ count, happening ≠ .failsConnects count) →
    m'.connectFailures = m.connectFailures - if happening.isConnect then 1 else 0
  writeFailures : (∀ count, happening ≠ .failsWrites count) →
    m'.writeFailures = m.writeFailures - if happening.isOpenWrite then 1 else 0
  scripts : m'.scripts = happening.queue m.scripts
  refused : happening.isConnect = true → (happening.isRefusal = true ↔ 0 < m.connectFailures)
  wrote : ∀ conn bytes answer, happening = .wrote conn bytes true answer →
    answer = if 0 < m.writeFailures then .error brokenPipe else .ok ()
  made : ∀ endpoint made, happening = .connected endpoint made → made = [(nextPipe endpoint m.scripts).1]

/-- What is neither a connect nor a write to an open connection uses up no failure. -/
theorem Tally.of_others (noConnect : happening.isConnect = false) (noWrite : happening.isOpenWrite = false)
    (connects : (∀ count, happening ≠ .failsConnects count) → m'.connectFailures = m.connectFailures)
    (writes : (∀ count, happening ≠ .failsWrites count) → m'.writeFailures = m.writeFailures)
    (scripts : m'.scripts = happening.queue m.scripts) : Tally m happening m' where
  connectFailures kept := by simpa [noConnect] using connects kept
  writeFailures kept := by simpa [noWrite] using writes kept
  scripts := scripts
  refused connect := absurd (noConnect.symm.trans connect) Bool.false_ne_true
  wrote conn bytes answer same := by
    subst same
    cases noWrite
  made endpoint made same := by
    subst same
    cases noConnect

theorem Step.tally (step : Step m happening m') : Tally m happening m' := by
  cases step with
  | pushed | farClosed | read | shutDown | scripted => exact .of_others rfl rfl (fun _ => rfl) (fun _ => rfl) rfl
  | failsConnects count => exact .of_others rfl rfl (fun kept => absurd rfl (kept count)) (fun _ => rfl) rfl
  | failsWrites count => exact .of_others rfl rfl (fun _ => rfl) (fun kept => absurd rfl (kept count)) rfl
  | @wrote conn bytes _ _ _ was wrote =>
    subst was
    rcases write_cases conn bytes m with ⟨closed, written⟩ | ⟨isOpen, more, written⟩ | ⟨isOpen, none, written⟩
    · cases wrote.symm.trans written
      exact .of_others rfl closed (fun _ => rfl) (fun _ => rfl) rfl
    · cases wrote.symm.trans written
      rw [isOpen]
      refine ⟨fun _ => rfl, fun _ => rfl, rfl, fun connect => ?_, fun _ _ _ same => ?_, fun _ _ same => ?_⟩
      · cases connect
      · cases same
        exact (if_pos more).symm
      · cases same
    · cases wrote.symm.trans written
      rw [isOpen]
      refine ⟨fun _ => rfl, fun _ => ?_, rfl, fun connect => ?_, fun _ _ _ same => ?_, fun _ _ same => ?_⟩
      · simp [onPipe, none]
      · cases connect
      · cases same
        simp [none]
      · cases same
  | @connected endpoint _ _ connected made =>
    rcases connect_cases endpoint m with ⟨error, _, failed⟩ | ⟨none, succeeded⟩
    · cases connected.symm.trans failed
    · cases connected.symm.trans succeeded
      subst made
      refine ⟨fun _ => ?_, fun _ => rfl, nextPipe_scripts .., fun _ => ?_, fun _ _ _ same => ?_, fun _ _ same => ?_⟩
      · simp [none]
      · simp [none, Happening.isRefusal]
      · cases same
      · cases same
        exact List.drop_left
  | @refused endpoint _ _ refused =>
    rcases connect_cases endpoint m with ⟨error, more, failed⟩ | ⟨_, succeeded⟩
    · cases refused.symm.trans failed
      refine ⟨fun _ => rfl, fun _ => rfl, rfl, fun _ => iff_of_true rfl more, fun _ _ _ same => ?_, fun _ _ same => ?_⟩
      · cases same
      · cases same
    · cases refused.symm.trans succeeded

/-- Failures that are laid down are used up one by one, as long as no others are laid down. -/
theorem Course.failures_eq {failures : Memory → Nat} {uses : Happening → Bool} {sets : Nat → Happening}
    (stepwise : ∀ {m happening m'}, Step m happening m' → (∀ count, happening ≠ sets count) →
      failures m' = failures m - if uses happening then 1 else 0)
    (course : Course m history m') (kept : ∀ count, sets count ∉ history) :
    failures m' = failures m - history.countP uses := by
  induction course with
  | done => rfl
  | next step _ ih =>
    simp only [List.mem_cons, not_or] at kept
    have first := stepwise step fun count same => (kept count).1 same.symm
    rw [ih fun count => (kept count).2, first, List.countP_cons, Nat.sub_sub, Nat.add_comm]

theorem Course.scripts_eq (course : Course m history m') : m'.scripts = waiting m.scripts history := by
  induction course with
  | done => rfl
  | next step _ ih => rw [ih, step.tally.scripts, waiting, waiting, List.foldl_cons]

/-- Connections are numbered in the order in which they were made. -/
theorem Step.length_pipes (step : Step m happening m') :
    m'.pipes.length = m.pipes.length + if happening.makes then 1 else 0 := by
  cases step with
  | pushed | farClosed | read | shutDown => exact List.length_modify ..
  | failsConnects | failsWrites | scripted => rfl
  | @wrote conn bytes _ _ _ _ wrote =>
    rcases write_cases conn bytes m with ⟨_, written⟩ | ⟨_, _, written⟩ | ⟨_, _, written⟩ <;>
      cases wrote.symm.trans written
    · rfl
    · exact List.length_modify ..
    · exact List.length_modify ..
  | @connected endpoint _ _ connected =>
    rcases connect_cases endpoint m with ⟨error, _, failed⟩ | ⟨_, succeeded⟩
    · cases connected.symm.trans failed
    · cases connected.symm.trans succeeded
      exact List.length_append
  | @refused endpoint _ _ refused =>
    rcases connect_cases endpoint m with ⟨error, _, failed⟩ | ⟨_, succeeded⟩
    · cases refused.symm.trans failed
      rfl
    · cases refused.symm.trans succeeded

theorem Course.length_pipes (course : Course m history m') :
    m'.pipes.length = m.pipes.length + history.countP Happening.makes := by
  induction course with
  | done => rfl
  | next step _ ih => rw [ih, step.length_pipes, List.countP_cons, Nat.add_assoc, Nat.add_comm (List.countP ..)]

/-- What has happened last leads from a state to which all before has led. -/
theorem Course.last (course : Course m (before ++ happening :: after) m') :
    ∃ middle middle', Course m before middle ∧ Step middle happening middle' ∧ Course middle' after m' := by
  obtain ⟨middle, first, rest⟩ := course.cut
  cases rest with
  | next step later => exact ⟨middle, _, first, step, later⟩

theorem Step.scheduled (course : Course m before m') {m'' : Memory} (step : Step m' happening m'') :
    Scheduled m before happening where
  connects earlier count between same kept connect := by
    subst same
    obtain ⟨_, _, _, failing, rest⟩ := course.last
    cases failing
    have left : m'.connectFailures = count - between.countP Happening.isConnect :=
      rest.failures_eq (fun step => step.tally.connectFailures) kept
    rw [step.tally.refused connect, left, Nat.sub_pos_iff_lt]
  writes earlier count between same kept conn bytes answer wrote := by
    subst same
    obtain ⟨_, _, _, failing, rest⟩ := course.last
    cases failing
    have left : m'.writeFailures = count - between.countP Happening.isOpenWrite :=
      rest.failures_eq (fun step => step.tally.writeFailures) kept
    simp only [step.tally.wrote conn bytes answer wrote, left, Nat.sub_pos_iff_lt]
  scripts endpoint made connected := by
    rw [step.tally.made endpoint made connected, course.scripts_eq]

/-- A course treats every connection that there is as a faithful one. -/
theorem Course.faithful (course : Course m history m') (known : m.pipes[conn]? = some pipe) :
    ∃ pipe', m'.pipes[conn]? = some pipe' ∧ Faithful conn pipe history pipe' := by
  obtain ⟨pipe', found, carried⟩ := course.carried known
  refine ⟨pipe', found, carried, ?_, ?_, ?_⟩
  · intro earlier later same
    subst same
    obtain ⟨_, first, _⟩ := course.cut
    obtain ⟨middle, _, carried⟩ := first.carried known
    exact ⟨middle.inbound, carried.inbound.symm⟩
  · intro earlier later same shut
    subst same
    obtain ⟨_, first, second⟩ := course.cut
    obtain ⟨middle, there, before⟩ := first.carried known
    obtain ⟨pipe'', same, after⟩ := second.carried there
    obtain rfl : pipe' = pipe'' := Option.some.inj (found.symm.trans same)
    refine ⟨carried.isOpen_eq_false fun opens => shut (staysOpen_append.mp opens).1, ?_⟩
    rw [after.closed (before.isOpen_eq_false shut), before.written]
  · intro before happening after same
    subst same
    obtain ⟨_, _, first, step, _⟩ := course.last
    obtain ⟨_, there, carried⟩ := first.carried known
    obtain ⟨_, _, touch⟩ := step.touches there
    exact touch.answered carried

/-- A connection is found under the number of connections before it. -/
theorem Step.made {endpoint : Endpoint} {made : List Pipe} (step : Step m (.connected endpoint made) m')
    (member : pipe ∈ made) : m'.pipes[m.pipes.length]? = some pipe := by
  cases step with
  | connected connected same =>
    subst same
    rcases connect_cases endpoint m with ⟨error, _, failed⟩ | ⟨_, succeeded⟩
    · cases connected.symm.trans failed
    · cases connected.symm.trans succeeded
      rw [List.drop_left, List.mem_singleton] at member
      rw [member, List.getElem?_concat_length]

/-- A network in memory is a faithful one, for the connections that there are and for those that are made. A connection
hands over what is sent to it, in order and once, shows the end only where all is read and the far end is closed, and
once closed stays so and takes nothing more. Failures that are laid down befall exactly the next connects and the next
writes, and scripts go in order to the connects that succeed. -/
theorem course_faithful (course : Course m history m') :
    (∀ conn pipe, m.pipes[conn]? = some pipe →
      ∃ pipe', m'.pipes[conn]? = some pipe' ∧ Faithful conn pipe history pipe') ∧
    (∀ before endpoint made after, history = before ++ .connected endpoint made :: after → ∀ pipe ∈ made,
      let conn := m.pipes.length + before.countP Happening.makes
      ∃ pipe', m'.pipes[conn]? = some pipe' ∧ Faithful conn pipe after pipe') ∧
    ∀ before happening after, history = before ++ happening :: after → Scheduled m before happening := by
  refine ⟨fun conn pipe known => course.faithful known, fun before endpoint made after same pipe member => ?_,
    fun before happening after same => ?_⟩
  · subst same
    obtain ⟨_, _, first, step, later⟩ := course.last
    have known := step.made member
    rw [first.length_pipes] at known
    exact later.faithful known
  · subst same
    obtain ⟨_, _, first, step, _⟩ := course.last
    exact step.scheduled first

/-- A connect fails, the next one takes the script, and the first write breaks a connection whose far end is read to its
end. -/
theorem course_faithful_over_failures :
    let server : Endpoint := ⟨"gw.test", 2195, .none, 1000, none⟩
    let m : Memory := { pipes := [{ inbound := [1, 2, 3] }], scripts := [⟨[9], false⟩] }
    let before : List Happening := [.failsConnects 1, .failsWrites 1,
      .refused server (.connectionFailed s!"mock connect to {server.address} refused"),
      .connected server [{ inbound := [9] }], .read 0 2 (.ok [1, 2]), .farClosed 0, .read 0 9 (.ok [3]),
      .read 0 9 (.ok [])]
    let history := before ++ [.wrote 0 [7] true (.error brokenPipe), .wrote 1 [8] true (.ok ()),
      .read 0 9 (.error .closedHere)]
    let m' : Memory :=
      { pipes := [{ isOpen := false, farClosed := true }, { inbound := [9], written := [8] }],
        endpoints := [server, server] }
    Course m history m' ∧ Faithful 0 { inbound := [1, 2, 3] } history { isOpen := false, farClosed := true } ∧
      Faithful 1 { inbound := [9] } (history.drop 4) { inbound := [9], written := [8] } ∧
      Scheduled m before (.wrote 0 [7] true (.error brokenPipe)) := by
  intro server m before history m'
  have course : Course m history m' := by
    refine .next (.failsConnects 1) ?_
    refine .next (.failsWrites 1) ?_
    refine .next (.refused rfl) ?_
    refine .next (.connected rfl rfl) ?_
    refine .next (.read rfl rfl) ?_
    refine .next (.farClosed 0) ?_
    refine .next (.read rfl rfl) ?_
    refine .next (.read rfl rfl) ?_
    refine .next (.wrote rfl rfl) ?_
    refine .next (.wrote rfl rfl) ?_
    refine .next (.read rfl rfl) ?_
    exact .done _
  obtain ⟨connections, made, scheduled⟩ := course_faithful course
  obtain ⟨_, ⟨⟩, first⟩ := connections 0 _ rfl
  obtain ⟨_, ⟨⟩, second⟩ := made (history.take 3) server _ (history.drop 4) rfl _ (List.mem_singleton.mpr rfl)
  exact ⟨course, first, second, scheduled before _ _ rfl⟩

end PushGateway.Memory
