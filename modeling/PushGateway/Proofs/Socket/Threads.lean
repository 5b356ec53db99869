import PushGateway.Proofs.Socket.Rounds

namespace PushGateway.Socket

/-- What a thread does when this happens, if it does anything. -/
def Event.act? (thread : Nat) : Event → Option Act
  | acts other act => if other = thread then some act else none
  | shutDown | passes _ => none

/-- What a thread has done. -/
def actsOf (thread : Nat) (history : List Event) : List Act := history.filterMap (Event.act? thread)

/-- The bytes that the socket gives to a thread. -/
def Act.received : Act → Bytes
  | receive (.ok bytes) => bytes
  | _ => []

/-- The bytes that a thread reads from the connection. -/
def Act.delivered : Act → Bytes
  | endRead (.ok bytes) => bytes
  | _ => []

/-- The bytes that a thread has from the socket and has still to hand over. -/
def Task.inHand : Task → Bytes
  | reading _ (.received (.ok bytes)) | reading _ (.answers (.ok bytes)) => bytes
  | _ => []

variable {limit : Option Duration} {now thread other : Nat} {threads : UInt64} {t t' : Traffic} {task task' : Task} {act : Act}
  {acts : List Act} {history : List Event}

namespace Task

/-- A thread that reads was asked to do so, and has done nothing since that does not belong to it. -/
theorem begun {started : Nat} {stage : Reading} (leads : Leads (Next limit) .idle acts (.reading started stage)) :
    ∃ earlier own, acts = earlier ++ .beginRead started :: own ∧
      Leads (Reading.Next limit started) .waits own stage := by
  generalize stands : Task.reading started stage = task at leads
  induction leads generalizing stage with
  | start => cases stands
  | @next task _ acts _ before step ih =>
    subst stands
    cases step with
    | beginsRead => exact ⟨acts, [], rfl, .start⟩
    | reads step =>
      obtain ⟨earlier, own, rfl, leads⟩ := ih rfl
      exact ⟨earlier, own ++ [_], by rw [List.append_assoc]; rfl, .next leads step⟩

theorem Next.passes_on (next : task.Next limit act task') :
    task.inHand ++ act.received = act.delivered ++ task'.inHand := by
  cases next with
  | reads step =>
    cases step with
    | receives answer => cases answer <;> rfl
    | @brings answer _ => cases answer <;> simp [inHand, Act.received, Act.delivered]
    | @bringsNothing answer nothing =>
      cases answer with
      | ok => cases nothing
      | error => rfl
    | _ => rfl
  | @endsRead _ answer => cases answer <;> simp [inHand, Act.received, Act.delivered]
  | writes step => cases step <;> rfl
  | beginsRead | beginsWrite | endsWrite => rfl

/-- What a thread gets from the socket it hands over, in the same order and as it is. -/
theorem passes_on (leads : Leads (Next limit) .idle acts task) :
    acts.flatMap Act.received = acts.flatMap Act.delivered ++ task.inHand := by
  induction leads with
  | start => rfl
  | @next task task' acts act _ step ih =>
    rw [List.flatMap_append, List.flatMap_append, List.flatMap_singleton, List.flatMap_singleton, ih,
      List.append_assoc, step.passes_on, List.append_assoc]

end Task

theorem actsOf_append (thread : Nat) (history : List Event) (event : Event) :
    actsOf thread (history ++ [event]) = actsOf thread history ++ (event.act? thread).toList := by
  rw [actsOf, List.filterMap_append, actsOf]
  cases act : event.act? thread <;> simp [act]

/-- What a thread leaves behind when it moves on. -/
theorem Traffic.getElem?_put {shared : Shared} (there : t.tasks[thread]? = some task) :
    (t.put thread task' shared).tasks[other]? = if thread = other then some task' else t.tasks[other]? := by
  have inside := (List.getElem?_eq_some_iff.mp there).1
  by_cases same : thread = other
  · subst same
    rw [put, if_pos rfl, List.getElem?_set_self inside]
  · rw [put, if_neg same, List.getElem?_set_ne same]

/-- A thread takes its steps one after the other, whatever the others do in the meantime. -/
theorem Leads.threadwise (course : Leads (Traffic.Next limit) (.start now threads) history t)
    (there : t.tasks[thread]? = some task) : Leads (Task.Next limit) .idle (actsOf thread history) task := by
  induction course generalizing task with
  | start =>
    have idle : task = .idle := (List.mem_replicate.mp (List.mem_of_getElem? there)).2
    rw [idle]
    exact .start
  | next _ step ih =>
    rw [actsOf_append]
    cases step with
    | @acts other act old new shared standing next _ =>
      rw [Traffic.getElem?_put standing] at there
      by_cases same : other = thread
      · subst same
        rw [if_pos rfl] at there
        cases there
        rw [Event.act?, if_pos rfl]
        exact .next (ih standing) next
      · rw [if_neg same] at there
        rw [Event.act?, if_neg same]
        simpa using ih there
    | shutDown => simpa [Event.act?] using ih there
    | passes => simpa [Event.act?] using ih there

end PushGateway.Socket
