import PushGateway.Proofs.Feedback.Interrupted
import PushGateway.Proofs.Monitor.Panics

namespace PushGateway

/-- The same connection, with interruptions in what it delivers. -/
structure ScriptedConnection.Interrupted (c c' : ScriptedConnection) : Prop where
  isOpen : c'.isOpen = c.isOpen
  inbound : c.inbound.Interrupted c'.inbound

theorem ScriptedConnection.Interrupted.read {c c' : ScriptedConnection} (same : c.Interrupted c') {limit : Nat}
    (positive : 0 < limit) :
    (∃ error d', c'.read limit = some (.error error, d') ∧ error.kind = .interrupted ∧ c.Interrupted d') ∨
      ∃ answer d d', c.read limit = some (answer, d) ∧ c'.read limit = some (answer, d') ∧ d.Interrupted d' := by
  rcases same.inbound.read positive with ⟨error, rest, met, kind, opens, left⟩ | ⟨alike, closing⟩
  · refine .inl ⟨error, ⟨rest, c'.isOpen⟩, ?_, kind, same.isOpen, left⟩
    simp only [ScriptedConnection.read, met, opens, Bool.not_false, Bool.and_true]
  · simp only [ScriptedConnection.read, closing, same.isOpen]
    generalize c.inbound.read limit = run, c'.inbound.read limit = run' at alike ⊢
    cases alike with
    | answers left => exact .inr ⟨_, _, _, rfl, rfl, rfl, left⟩

namespace Monitor

open ScriptedConnection (watch)

/-- A frame for which it waits is not whole. -/
def Waiting : Monitor → Prop
  | reading filled _ => filled.length < Rejection.frameLength
  | _ => True

theorem waiting_afterRead {filled : Bytes} (waiting : filled.length < Rejection.frameLength) (reported : Nat)
    (answer : Except IoError Bytes) : (afterRead filled reported answer).Waiting := by
  match answer with
  | .ok [] => exact trivial
  | .ok (first :: more) =>
    simp only [afterRead]
    split
    · rename_i less
      exact less
    · split <;> exact trivial
  | .error error =>
    simp only [afterRead]
    split
    · exact waiting
    · exact trivial

variable {panics : Bool} {m m' : Monitor} {c c' d' : ScriptedConnection} {event : Option Rejection}

theorem Waiting.step (waiting : m.Waiting) (next : m.step watch panics c = some (event, m', c')) : m'.Waiting := by
  cases m with
  | reading filled reported => cases next; exact waiting_afterRead waiting reported _
  | reporting rejection reported => cases next; cases panics <;> simp [Waiting, Rejection.frameLength]
  | ended failed filled reported => cases next; split <;> exact trivial
  | concluding last => cases last <;> cases next <;> cases panics <;> exact trivial
  | leaving => cases next; exact trivial
  | gone => cases next

/-- An interruption leaves a monitor where it stands. -/
theorem afterRead_interrupted {error : IoError} (kind : error.kind = .interrupted) (filled : Bytes) (reported : Nat) :
    afterRead filled reported (.error error) = reading filled reported := by
  have transient : error.isTransient = true := by simp [IoError.isTransient, kind]
  rw [afterRead, if_pos transient]

/-- A step beside interruptions is that of the same monitor without them, or it meets one and nothing happens. -/
theorem step_interrupted (waiting : m.Waiting) (same : c.Interrupted c')
    (next : m.step watch panics c' = some (event, m', d')) :
    (event = none ∧ m' = m ∧ c.Interrupted d') ∨
      ∃ d, m.step watch panics c = some (event, m', d) ∧ d.Interrupted d' := by
  cases m with
  | reading filled reported =>
    have room : 0 < Rejection.frameLength - filled.length := Nat.sub_pos_of_lt waiting
    rcases same.read room with ⟨error, d', met, kind, left⟩ | ⟨answer, d, d', read, read', left⟩
    · simp only [Monitor.step, watch, met, Option.some.injEq, Prod.mk.injEq] at next
      obtain ⟨rfl, rfl, rfl⟩ := next
      exact .inl ⟨rfl, afterRead_interrupted kind filled reported, left⟩
    · simp only [Monitor.step, watch, read'] at next
      cases next
      refine .inr ⟨d, ?_, left⟩
      simp only [Monitor.step, watch, read]
  | reporting rejection reported => cases next; exact .inr ⟨c, rfl, same⟩
  | ended failed filled reported =>
    cases next
    refine .inr ⟨c, ?_, same⟩
    have isOpen : watch.isOpen c = watch.isOpen c' := same.isOpen.symm
    rw [Monitor.step, isOpen]
  | concluding last =>
    cases last with
    | none => cases next; exact .inr ⟨c, rfl, same⟩
    | some rejection => cases next; exact .inr ⟨c, rfl, same⟩
  | leaving => cases next; exact .inr ⟨watch.shutDown c, rfl, rfl, same.inbound⟩
  | gone => cases next

/-- The same has been told, and nothing but the interruptions in what is left can still differ. -/
structure Unnoticed (calm interrupted : List Rejection × Monitor × ScriptedConnection) : Prop where
  told : interrupted.1 = calm.1
  monitor : interrupted.2.1 = calm.2.1
  connection : calm.2.2.Interrupted interrupted.2.2

section
variable {panics : Nat → Bool} {heard : Nat}

theorem unnoticed_gone (same : c.Interrupted c') :
    Unnoticed (attend watch panics heard gone c) (attend watch panics heard gone c') := by
  rw [attend_gone, attend_gone]
  exact ⟨rfl, rfl, same⟩

theorem unnoticed_step (waiting : m.Waiting) (same : c.Interrupted c')
    (next : m.step watch (panics heard) c' = some (event, m', d'))
    (further : ∀ {d}, d.Interrupted d' →
      Unnoticed (attend watch panics (heard + event.toList.length) m' d)
        (attend watch panics (heard + event.toList.length) m' d')) :
    Unnoticed (attend watch panics heard m c) (attend watch panics heard m c') := by
  rw [attend_next next]
  rcases step_interrupted waiting same next with ⟨rfl, rfl, left⟩ | ⟨d, calm, left⟩
  · exact further left
  · have rest := further left
    rw [attend_next calm]
    exact ⟨congrArg (event.toList ++ ·) rest.told, rest.monitor, rest.connection⟩

theorem gone_of_waits {panics : Bool} (waits : m.step watch panics c = none) : m = gone := by
  cases m with
  | gone => rfl
  | concluding last => cases last <;> cases waits
  | reading | reporting | ended | leaving => cases waits

/-- Interruptions make a monitor neither stop nor tell anything else. -/
theorem unnoticed (waiting : m.Waiting) (same : c.Interrupted c') :
    Unnoticed (attend watch panics heard m c) (attend watch panics heard m c') := by
  induction heard, m, c' using attend.induct watch panics generalizing c with
  | case1 heard m c' waits =>
    obtain rfl := gone_of_waits waits
    exact unnoticed_gone same
  | case2 heard m c' event d' next => exact unnoticed_step waiting same next unnoticed_gone
  | case3 heard m c' event m' d' next going _ _ _ ih =>
    exact unnoticed_step waiting same next fun left => ih (waiting.step next) left

end
end Monitor

end PushGateway
