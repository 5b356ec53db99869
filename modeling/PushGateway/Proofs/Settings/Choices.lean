import Mathlib.Data.List.Induction
import PushGateway.Delivery.Service
import PushGateway.Memory.Network
import PushGateway.Proofs.Settings.Checks

namespace PushGateway

namespace Settings

/-- What can be chosen by itself in the settings of a service. -/
inductive Field
  | host (side : Side)
  | port (side : Side)
  | proxy (side : Side)
  | connectTimeout (side : Side)
  | readTimeout (side : Side)
  | retry
  | reconnect
  | errorDetection
  deriving DecidableEq

def Field.Value : Field → Type
  | host _ => String
  | port _ => UInt16
  | proxy _ => Proxy
  | connectTimeout _ => UInt64
  | readTimeout _ => Option UInt64
  | retry => Retry
  | reconnect => ReconnectRule
  | errorDetection => Bool

def get (s : Settings) : (field : Field) → field.Value
  | .host side => (s.endpoint side).host
  | .port side => (s.endpoint side).port
  | .proxy side => (s.endpoint side).proxy
  | .connectTimeout side => (s.endpoint side).connectTimeout
  | .readTimeout side => (s.endpoint side).readTimeout
  | .retry => s.retry
  | .reconnect => s.reconnect
  | .errorDetection => s.errorDetection

/-- Settings are no more than their fields. -/
theorem ext_get {s s' : Settings} (same : ∀ field, s.get field = s'.get field) : s = s' := by
  have endpoints (side : Side) : s.endpoint side = s'.endpoint side := by
    rw [Endpoint.mk.injEq]
    exact ⟨same (.host side), same (.port side), same (.proxy side), same (.connectTimeout side), same (.readTimeout side)⟩
  rw [Settings.mk.injEq]
  exact ⟨endpoints .gateway, endpoints .feedback, same .retry, same .reconnect, same .errorDetection⟩

end Settings

namespace Setup

open Settings (Field)

/-- What a choice says of a field, if anything. Times are kept in whole milliseconds. -/
def Choice.value? : Choice → (field : Field) → Option field.Value
  | .settings s, field => some (s.get field)
  | .production, .host side => some (Settings.production.endpoint side).host
  | .production, .port side => some (Settings.production.endpoint side).port
  | .sandbox, .host side => some (Settings.sandbox.endpoint side).host
  | .sandbox, .port side => some (Settings.sandbox.endpoint side).port
  | .gateway host _, .host .gateway | .feedback host _, .host .feedback => some host
  | .gateway _ port, .port .gateway | .feedback _ port, .port .feedback => some port
  | .proxy p, .proxy _ => some p
  | .connectTimeout d, .connectTimeout _ => some (UInt64.ofNat d.toMillis)
  | .readTimeout d, .readTimeout _ => some (some (UInt64.ofNat d.toMillis))
  | .retry r, .retry => some r
  | .reconnect rule, .reconnect => some rule
  | .errorDetection enabled, .errorDetection => some enabled
  | _, _ => none

/-- What was said last of a field. -/
def lastSaid (choices : List Choice) (field : Field) : Option field.Value :=
  (choices.filterMap (·.value? field)).getLast?

variable {setup : Setup}

theorem get_choose (setup : Setup) (choice : Choice) (field : Field) :
    (setup.choose choice).settings.get field = (choice.value? field).getD (setup.settings.get field) := by
  cases field with
  | host side | port side | proxy side | connectTimeout side | readTimeout side =>
    cases side <;> cases choice <;> rfl
  | retry | reconnect | errorDetection => cases choice <;> rfl

theorem chooseAll_append (setup : Setup) (choices : List Choice) (choice : Choice) :
    setup.chooseAll (choices ++ [choice]) = (setup.chooseAll choices).choose choice :=
  List.foldl_append

theorem lastSaid_append (choices : List Choice) (choice : Choice) (field : Field) :
    lastSaid (choices ++ [choice]) field = (choice.value? field).or (lastSaid choices field) := by
  rw [lastSaid, lastSaid, List.filterMap_append]
  cases said : choice.value? field with
  | none => simp [said]
  | some value => simp [said]

/-- A field has the value that was said last of it, and else the one from before. -/
theorem get_chooseAll (setup : Setup) (choices : List Choice) (field : Field) :
    (setup.chooseAll choices).settings.get field = (lastSaid choices field).getD (setup.settings.get field) := by
  -- the last choice is the one that is made last
  induction choices using List.reverseRecOn with
  | nil => rfl
  | append_singleton choices choice ih =>
    rw [chooseAll_append, get_choose, ih, lastSaid_append]
    cases choice.value? field <;> rfl

theorem transportChosen_choose (setup : Setup) (choice : Choice) :
    (setup.choose choice).transportChosen = true ↔ setup.transportChosen = true ∨ choice = .transport := by
  cases choice with
  | transport => exact iff_of_true rfl (.inr rfl)
  | _ => exact (or_iff_left nofun).symm

theorem transportChosen_chooseAll (setup : Setup) (choices : List Choice) :
    (setup.chooseAll choices).transportChosen = true ↔ setup.transportChosen = true ∨ .transport ∈ choices := by
  induction choices using List.reverseRecOn with
  | nil => exact (or_iff_left nofun).symm
  | append_singleton choices choice ih =>
    rw [chooseAll_append, transportChosen_choose, ih, List.mem_append, List.mem_singleton, or_assoc]
    simp only [eq_comm]

/-- Nothing is said of a field by both. -/
def Choice.Apart (a b : Choice) : Prop := ∀ field, a.value? field = none ∨ b.value? field = none

/-- Of two choices that say nothing of the same field, either may be made first. -/
theorem choose_comm (setup : Setup) {a b : Choice} (apart : a.Apart b) :
    (setup.choose a).choose b = (setup.choose b).choose a := by
  have settings : ((setup.choose a).choose b).settings = ((setup.choose b).choose a).settings := by
    refine Settings.ext_get fun field => ?_
    simp only [get_choose]
    rcases apart field with silent | silent
    · rw [silent]
      rfl
    · rw [silent]
      rfl
  have transport : ((setup.choose a).choose b).transportChosen = ((setup.choose b).choose a).transportChosen := by
    rw [Bool.eq_iff_iff]
    simp only [transportChosen_choose, or_right_comm]
  rw [Setup.mk.injEq]
  exact ⟨settings, transport⟩

end Setup

/-- A service that does as these settings say, and holds no connection yet. -/
structure Service.Follows (s : Settings) (listener : Listener) (now : Nat) (service : Service) : Prop where
  settings : service.settings = s
  retry : service.client.retry = s.retry
  endpoint : service.client.manager.endpoint = s.gateway
  policy : service.client.manager.policy = s.reconnect.start now
  detection : service.client.manager.detection = s.errorDetection
  listener : service.client.manager.listener = listener
  idle : service.client.manager.slot = none

namespace Setup

theorem start_cases {σ : Type} (net : Network σ) (setup : Setup) (listener : Listener) (w : World σ) :
    (setup.transportChosen = true ∧ setup.settings.Usable ∧
      ∃ service, Service.start net setup listener w = .ok service ∧
        service.Follows setup.settings listener (w.now net)) ∨
    ∃ problem, setup.FirstFault problem ∧
      Service.start net setup listener w = .error (.configuration problem.message) := by
  have finished := finish_eq setup
  cases outcome : setup.outcome checks with
  | ok =>
    rw [outcome] at finished
    have fine := (outcome_eq_ok_iff checks).mp outcome
    refine .inl ⟨?_, ?_, _, by rw [Service.start, finished]; rfl, ⟨rfl, rfl, rfl, rfl, rfl, rfl, rfl⟩⟩
    · exact eq_true_of_ne_false (fine .noTransport List.mem_cons_self)
    · exact usable_iff.mpr fun problem member => fine problem (List.mem_cons_of_mem _ member)
  | error problem =>
    rw [outcome] at finished
    refine .inr ⟨problem, (outcome_eq_error_iff problem).mp outcome, ?_⟩
    rw [Service.start, finished]
    rfl

/-- A service in preparation keeps what was said last of each field, and of all others what they are for production. A
transport is chosen by a choice that says nothing of any field. Choices that say nothing of the same field can be
exchanged wherever they are made. A service is started exactly if a transport was chosen and the settings are usable, and
then it does as they say. Else the first thing that is wrong is told, of which the missing transport comes before all
others. -/
theorem chooseAll_keeps (choices : List Choice) :
    let setup := chooseAll {} choices
    (∀ field, setup.settings.get field = (lastSaid choices field).getD (Settings.production.get field)) ∧
    (∀ (a b : Choice) before after, a.Apart b → choices = before ++ a :: b :: after →
      chooseAll {} (before ++ b :: a :: after) = setup) ∧
    (setup.settings.validate = .ok () ↔ setup.settings.Usable) ∧
    ∀ {σ : Type} (net : Network σ) listener (w : World σ),
      ((∃ service, Service.start net setup listener w = .ok service) ↔
        .transport ∈ choices ∧ setup.settings.validate = .ok ()) ∧
      (∀ service, Service.start net setup listener w = .ok service →
        service.Follows setup.settings listener (w.now net)) ∧
      ∀ error, Service.start net setup listener w = .error error ↔
        ∃ problem, setup.FirstFault problem ∧ error = .configuration problem.message := by
  intro setup
  have chosen : setup.transportChosen = true ↔ .transport ∈ choices := by
    rw [show setup = chooseAll {} choices from rfl, transportChosen_chooseAll]
    exact or_iff_right nofun
  refine ⟨fun field => get_chooseAll {} choices field, ?_, Settings.validate_eq_ok_iff, fun net listener w => ?_⟩
  · rintro a b before after apart rfl
    simp only [setup, chooseAll, List.foldl_append, List.foldl_cons]
    exact congrArg (after.foldl choose) (choose_comm _ apart).symm
  rw [Settings.validate_eq_ok_iff, ← chosen]
  rcases start_cases net setup listener w with ⟨transport, usable, service, started, follows⟩ | ⟨problem, first, refused⟩
  · refine ⟨iff_of_true ⟨service, started⟩ ⟨transport, usable⟩, fun other other' => ?_, fun error => iff_of_false ?_ ?_⟩
    · cases Except.ok.inj (started.symm.trans other')
      exact follows
    · intro refused
      cases started.symm.trans refused
    · rintro ⟨problem, first, _⟩
      exact first.refutes ⟨transport, usable⟩
  · refine ⟨iff_of_false ?_ first.refutes, fun service started => ?_, fun error => ⟨fun refused' => ?_, ?_⟩⟩
    · rintro ⟨service, started⟩
      cases refused.symm.trans started
    · cases refused.symm.trans started
    · exact ⟨problem, first, (Except.error.inj (refused.symm.trans refused')).symm⟩
    · rintro ⟨problem', first', rfl⟩
      rw [refused, first.unique first']

/-- A port that is said again, a proxy on the way to servers that are named later, and a time of less than a
millisecond, which is reported before the port of the other server. -/
theorem chooseAll_keeps_in_order :
    let proxy : Choice := .proxy (.http "proxy.test" 3128)
    let setup := chooseAll {}
      [.gateway "gw.test" 0, proxy, .sandbox, .readTimeout ⟨0, 999999⟩, .feedback "fb.test" 0, .transport]
    setup.settings.get (.port .gateway) = (2195 : UInt16) ∧ proxy.Apart .sandbox ∧
      chooseAll {}
        [.gateway "gw.test" 0, .sandbox, proxy, .readTimeout ⟨0, 999999⟩, .feedback "fb.test" 0, .transport] = setup ∧
      setup.FirstFault (.readTimeoutZero .gateway) ∧
      Service.start Memory.network setup .nobody { outside := {} } =
        .error (.configuration "gateway read timeout is 0") := by
  intro proxy setup
  obtain ⟨fields, exchange, _, starts⟩ := chooseAll_keeps
    [.gateway "gw.test" 0, proxy, .sandbox, .readTimeout ⟨0, 999999⟩, .feedback "fb.test" 0, .transport]
  have apart : proxy.Apart .sandbox := by
    intro field
    cases field with
    | proxy => exact .inr rfl
    | _ => exact .inl rfl
  have first : setup.FirstFault (.readTimeoutZero .gateway) := by
    refine ⟨[.noTransport, .hostBlank .gateway, .portZero .gateway, .connectTimeoutZero .gateway], _, rfl, rfl, ?_⟩
    have host : (setup.settings.endpoint .gateway).host = Endpoint.sandboxGatewayHost := rfl
    have begins : (setup.settings.endpoint .gateway).host.toList.head? = some 'g' := by
      rw [host]
      rfl
    have visible : ¬ setup.Faulty (.hostBlank .gateway) := fun blank =>
      absurd (blank 'g' (List.mem_of_head? begins)) (by decide)
    simp only [List.forall_mem_cons]
    exact ⟨by decide, visible, by decide, by decide, nofun⟩
  refine ⟨fields (.port .gateway), apart, exchange _ _ [.gateway "gw.test" 0] _ apart rfl, first, ?_⟩
  exact ((starts Memory.network .nobody { outside := {} }).2.2 _).mpr ⟨_, first, rfl⟩

end Setup
end PushGateway
