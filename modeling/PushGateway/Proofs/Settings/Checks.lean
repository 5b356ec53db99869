import PushGateway.Settings.Setup

namespace PushGateway

namespace Settings

/-- The endpoint of a server. -/
def endpoint (s : Settings) : Side → Endpoint
  | .gateway => s.gateway
  | .feedback => s.feedback

/-- What a service needs of its settings. -/
structure Usable (s : Settings) : Prop where
  host : ∀ side, ∃ c ∈ (s.endpoint side).host.toList, ¬ Text.isBlank c
  port : ∀ side, (s.endpoint side).port ≠ 0
  connectTimeout : ∀ side, (s.endpoint side).connectTimeout ≠ 0
  readTimeout : ∀ side, (s.endpoint side).readTimeout ≠ some 0
  attempts : s.retry.maxAttempts ≠ 0

end Settings

namespace Setup

/-- What may be wrong with a service in preparation. -/
def Faulty (setup : Setup) : SettingsError → Prop
  | .hostBlank side => ∀ c ∈ (setup.settings.endpoint side).host.toList, Text.isBlank c
  | .portZero side => (setup.settings.endpoint side).port = 0
  | .connectTimeoutZero side => (setup.settings.endpoint side).connectTimeout = 0
  | .readTimeoutZero side => (setup.settings.endpoint side).readTimeout = some 0
  | .noAttempts => setup.settings.retry.maxAttempts = 0
  | .noTransport => setup.transportChosen = false

instance (setup : Setup) : DecidablePred setup.Faulty
  | .hostBlank _ => inferInstanceAs (Decidable (∀ c ∈ _, _))
  | .portZero _ | .connectTimeoutZero _ | .readTimeoutZero _ | .noAttempts | .noTransport =>
    inferInstanceAs (Decidable (_ = _))

/-- What is looked at in the settings of one server, in this order. -/
def ofServer (side : Settings.Side) : List SettingsError :=
  [.hostBlank side, .portZero side, .connectTimeoutZero side, .readTimeoutZero side]

/-- What is looked at in settings, in this order. -/
def ofSettings : List SettingsError := ofServer .gateway ++ (ofServer .feedback ++ [.noAttempts])

/-- All that is looked at, in this order. -/
def checks : List SettingsError := .noTransport :: ofSettings

/-- The first thing that is wrong. -/
def FirstFault (setup : Setup) (problem : SettingsError) : Prop :=
  ∃ before after, checks = before ++ problem :: after ∧ setup.Faulty problem ∧
    ∀ earlier ∈ before, ¬ setup.Faulty earlier

variable {setup : Setup}

theorem mem_ofSettings {problem : SettingsError} (other : problem ≠ .noTransport) : problem ∈ ofSettings := by
  cases problem with
  | hostBlank side | portZero side | connectTimeoutZero side | readTimeoutZero side => cases side <;> decide
  | noAttempts => decide
  | noTransport => exact absurd rfl other

theorem usable_iff : setup.settings.Usable ↔ ∀ problem ∈ ofSettings, ¬ setup.Faulty problem := by
  constructor
  · rintro ⟨host, port, connectTimeout, readTimeout, attempts⟩ problem member
    cases problem with
    | hostBlank side =>
      obtain ⟨c, member, visible⟩ := host side
      exact fun blank => visible (blank c member)
    | portZero side => exact port side
    | connectTimeoutZero side => exact connectTimeout side
    | readTimeoutZero side => exact readTimeout side
    | noAttempts => exact attempts
    | noTransport => exact absurd member (by decide)
  · intro fine
    refine ⟨fun side => ?_, fun side => fine (.portZero side) (mem_ofSettings nofun),
      fun side => fine (.connectTimeoutZero side) (mem_ofSettings nofun),
      fun side => fine (.readTimeoutZero side) (mem_ofSettings nofun), fine .noAttempts (by decide)⟩
    have visible := fine (.hostBlank side) (mem_ofSettings nofun)
    simpa only [Faulty, Classical.not_forall, exists_prop] using visible

/-- What the first of some faults comes to, if there is any. -/
def outcome (setup : Setup) (problems : List SettingsError) : Except SettingsError Unit :=
  (problems.find? (setup.Faulty ·)).elim (.ok ()) .error

theorem outcome_cons (problem : SettingsError) (problems : List SettingsError) :
    setup.outcome (problem :: problems) = if setup.Faulty problem then .error problem else setup.outcome problems := by
  rw [outcome, List.find?_cons, outcome]
  split
  · rename_i faulty
    rw [if_pos (of_decide_eq_true faulty)]
    rfl
  · rename_i fine
    rw [if_neg (of_decide_eq_false fine)]

theorem outcome_append (problems others : List SettingsError) :
    setup.outcome (problems ++ others) =
      match setup.outcome problems with
      | .error problem => .error problem
      | .ok () => setup.outcome others := by
  induction problems with
  | nil => rfl
  | cons problem problems ih =>
    rw [List.cons_append, outcome_cons, outcome_cons]
    split
    · rfl
    · exact ih

theorem checkEndpoint_eq (side : Settings.Side) :
    Settings.checkEndpoint side (setup.settings.endpoint side) = setup.outcome (ofServer side) := by
  have blank : Text.isBlankText (setup.settings.endpoint side).host = true ↔ setup.Faulty (.hostBlank side) :=
    List.all_eq_true
  simp only [ofServer, outcome_cons, Settings.checkEndpoint, blank]
  rfl

theorem validate_eq (setup : Setup) : setup.settings.validate = setup.outcome ofSettings := by
  rw [ofSettings, outcome_append, outcome_append, ← checkEndpoint_eq, ← checkEndpoint_eq, outcome_cons]
  rfl

theorem finish_eq (setup : Setup) : setup.finish = (setup.outcome checks).map fun _ => setup.settings := by
  rw [checks, outcome_cons, ← validate_eq, finish]
  by_cases chosen : setup.transportChosen = true
  · have fine : ¬ setup.Faulty .noTransport := by simp [Faulty, chosen]
    rw [if_pos chosen, if_neg fine]
    cases setup.settings.validate <;> rfl
  · have faulty : setup.Faulty .noTransport := Bool.eq_false_iff.mpr chosen
    rw [if_neg chosen, if_pos faulty]
    rfl

theorem outcome_eq_ok_iff (problems : List SettingsError) :
    setup.outcome problems = .ok () ↔ ∀ problem ∈ problems, ¬ setup.Faulty problem := by
  rw [outcome]
  cases found : problems.find? (setup.Faulty ·) with
  | none => simpa [Option.elim] using List.find?_eq_none.mp found
  | some problem =>
    refine iff_of_false nofun fun fine => ?_
    have faulty : decide (setup.Faulty problem) = true := List.find?_some (p := (setup.Faulty ·)) found
    exact fine problem (List.mem_of_find?_eq_some found) (of_decide_eq_true faulty)

theorem outcome_eq_error_iff (problem : SettingsError) :
    setup.outcome checks = .error problem ↔ setup.FirstFault problem := by
  have found : setup.outcome checks = .error problem ↔ checks.find? (setup.Faulty ·) = some problem := by
    rw [outcome]
    cases checks.find? (setup.Faulty ·) <;> simp [Option.elim]
  rw [found, List.find?_eq_some_iff_append, FirstFault]
  simp only [decide_eq_true_eq, Bool.not_eq_true', decide_eq_false_iff_not]
  constructor
  · rintro ⟨faulty, before, after, split, fine⟩
    exact ⟨before, after, split, faulty, fine⟩
  · rintro ⟨before, after, split, faulty, fine⟩
    exact ⟨faulty, before, after, split, fine⟩

theorem FirstFault.unique {problem problem' : SettingsError} (first : setup.FirstFault problem)
    (first' : setup.FirstFault problem') : problem = problem' := by
  have outcome := (outcome_eq_error_iff problem).mpr first
  rw [(outcome_eq_error_iff problem').mpr first'] at outcome
  exact (Except.error.inj outcome).symm

theorem FirstFault.refutes {problem : SettingsError} (first : setup.FirstFault problem) :
    ¬ (setup.transportChosen = true ∧ setup.settings.Usable) := by
  rintro ⟨chosen, usable⟩
  obtain ⟨_, _, _, faulty, _⟩ := first
  by_cases transport : problem = .noTransport
  · subst transport
    exact Bool.noConfusion (chosen.symm.trans faulty)
  · exact usable_iff.mp usable problem (mem_ofSettings transport) faulty

end Setup

/-- Settings are accepted exactly if they are usable. -/
theorem Settings.validate_eq_ok_iff {s : Settings} : s.validate = .ok () ↔ s.Usable := by
  have accepted := Setup.validate_eq { settings := s }
  rw [accepted, Setup.outcome_eq_ok_iff, ← Setup.usable_iff]

end PushGateway
