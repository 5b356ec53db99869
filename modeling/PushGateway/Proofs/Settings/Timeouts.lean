import PushGateway.Proofs.Settings.Checks

namespace PushGateway

namespace Duration

variable {d d' : Duration}

/-- Rounded down to whole milliseconds. -/
def wholeMillis (d : Duration) : Duration := ⟨d.secs, ⟨d.nanos.val / 1000000 * 1000000, by omega⟩⟩

/-- What becomes of a time that is kept as a word of milliseconds. -/
def kept (d : Duration) : Duration := ofMillis (UInt64.ofNat d.toMillis)

theorem toNanos_inj : d.toNanos = d'.toNanos ↔ d = d' := by
  refine ⟨fun same => ?_, fun same => by rw [same]⟩
  have below := d.nanos.isLt
  have below' := d'.nanos.isLt
  rw [toNanos, toNanos] at same
  have secs : d.secs = d'.secs := UInt64.toNat_inj.mp (by omega)
  have nanos : d.nanos = d'.nanos := Fin.ext (by rw [secs] at same; omega)
  rw [mk.injEq]
  exact ⟨secs, nanos⟩

theorem toNanos_ofMillis (n : UInt64) : (ofMillis n).toNanos = n.toNat * 1000000 := by
  have secs : (n / 1000).toNat = n.toNat / 1000 := UInt64.toNat_div n 1000
  rw [toNanos, ofMillis, secs]
  change n.toNat / 1000 * 1000000000 + n.toNat % 1000 * 1000000 = _
  omega

theorem toNanos_wholeMillis (d : Duration) : d.wholeMillis.toNanos = d.toMillis * 1000000 := by
  rw [toNanos, wholeMillis, toMillis]
  change d.secs.toNat * 1000000000 + d.nanos.val / 1000000 * 1000000 = _
  omega

theorem wholeMillis_le (d : Duration) : d.wholeMillis.toNanos ≤ d.toNanos := by
  rw [toNanos_wholeMillis, toMillis_eq]
  omega

theorem lt_wholeMillis (d : Duration) : d.toNanos < d.wholeMillis.toNanos + 1000000 := by
  rw [toNanos_wholeMillis, toMillis_eq]
  omega

theorem toNanos_kept (d : Duration) : d.kept.toNanos = d.toMillis % UInt64.size * 1000000 := by
  rw [kept, toNanos_ofMillis, UInt64.toNat_ofNat']

theorem kept_eq_wholeMillis_iff : d.kept = d.wholeMillis ↔ d.toMillis < UInt64.size := by
  rw [← toNanos_inj, toNanos_kept, toNanos_wholeMillis, UInt64.size]
  omega

theorem kept_eq_zero_iff : d.kept = .zero ↔ UInt64.size ∣ d.toMillis := by
  have zero : Duration.zero.toNanos = 0 := rfl
  rw [← toNanos_inj, toNanos_kept, zero, UInt64.size]
  omega

/-- Below 2^64 milliseconds nothing is lost but what is less than a millisecond. -/
theorem kept_eq_zero_iff_of_lt (fits : d.toMillis < UInt64.size) : d.kept = .zero ↔ d.toNanos < 1000000 := by
  rw [kept_eq_zero_iff, UInt64.size]
  rw [toMillis_eq, UInt64.size] at fits
  rw [toMillis_eq]
  omega

theorem kept_mono (longer : d.toNanos ≤ d'.toNanos) (fits : d'.toMillis < UInt64.size) :
    d.kept.toNanos ≤ d'.kept.toNanos := by
  rw [toMillis_eq, UInt64.size] at fits
  rw [toNanos_kept, toNanos_kept, toMillis_eq, toMillis_eq, UInt64.size]
  omega

theorem ofNat_toMillis_eq_zero_iff : UInt64.ofNat d.toMillis = 0 ↔ d.kept = .zero := by
  rw [kept_eq_zero_iff, ← UInt64.toNat_inj, UInt64.toNat_ofNat']
  change d.toMillis % UInt64.size = 0 ↔ _
  rw [Nat.dvd_iff_mod_eq_zero]

end Duration

/-- What a connection may take its time for. -/
inductive Endpoint.Wait
  | connect | read

open Endpoint (Wait)

def Endpoint.withLimit : Wait → Duration → Endpoint → Endpoint
  | .connect => withConnectTimeout
  | .read => withReadTimeout

/-- The time that may be taken, if there is an end to it. -/
def Endpoint.limit (e : Endpoint) : Wait → Option Duration
  | .connect => some e.connectLimit
  | .read => e.readLimit

def Settings.withLimit : Wait → Duration → Settings → Settings
  | .connect => withConnectTimeout
  | .read => withReadTimeout

def Setup.Choice.limit : Wait → Duration → Choice
  | .connect => connectTimeout
  | .read => readTimeout

def SettingsError.limitZero : Wait → Settings.Side → SettingsError
  | .connect => connectTimeoutZero
  | .read => readTimeoutZero

variable {wait : Wait} {d : Duration} {s : Settings}

theorem Endpoint.limit_withLimit (e : Endpoint) (wait : Wait) (d : Duration) :
    (e.withLimit wait d).limit wait = some d.kept := by
  cases wait <;> rfl

theorem Settings.endpoint_withLimit (s : Settings) (wait : Wait) (d : Duration) (side : Side) :
    (s.withLimit wait d).endpoint side = (s.endpoint side).withLimit wait d := by
  cases wait <;> cases side <;> rfl

theorem Setup.settings_choose_limit (setup : Setup) (wait : Wait) (d : Duration) :
    (setup.choose (.limit wait d)).settings = setup.settings.withLimit wait d := by
  cases wait <;> rfl

namespace Setup

theorem faulty_limitZero (s : Settings) (wait : Wait) (d : Duration) (side : Settings.Side) :
    Faulty { settings := s.withLimit wait d } (.limitZero wait side) ↔ d.kept = .zero := by
  rw [← Duration.ofNat_toMillis_eq_zero_iff]
  cases wait with
  | connect => cases side <;> exact Iff.rfl
  | read => cases side <;> exact ⟨Option.some.inj, congrArg some⟩

/-- A time limit changes nothing else that is looked at. -/
theorem faulty_withLimit {problem : SettingsError} (other : ∀ side, problem ≠ .limitZero wait side) :
    Faulty { settings := s.withLimit wait d } problem ↔ Faulty { settings := s } problem := by
  cases wait with
  | connect =>
    cases problem with
    | connectTimeoutZero side => exact absurd rfl (other side)
    | hostBlank side | portZero side | readTimeoutZero side => cases side <;> exact Iff.rfl
    | noAttempts | noTransport => exact Iff.rfl
  | read =>
    cases problem with
    | readTimeoutZero side => exact absurd rfl (other side)
    | hostBlank side | portZero side | connectTimeoutZero side => cases side <;> exact Iff.rfl
    | noAttempts | noTransport => exact Iff.rfl

end Setup

namespace Settings

/-- A time that is kept as none at all is refused, whatever else there is. -/
theorem validate_withLimit_of_zero (zero : d.kept = .zero) : (s.withLimit wait d).validate ≠ .ok () := by
  intro accepted
  have fine : ∀ problem ∈ Setup.ofSettings, ¬ Setup.Faulty { settings := s.withLimit wait d } problem :=
    Setup.usable_iff.mp (validate_eq_ok_iff.mp accepted)
  have member : SettingsError.limitZero wait .gateway ∈ Setup.ofSettings := Setup.mem_ofSettings (by cases wait <;> nofun)
  exact fine _ member ((Setup.faulty_limitZero s wait d .gateway).mpr zero)

theorem validate_withLimit (usable : s.Usable) (wait : Wait) (d : Duration) :
    (s.withLimit wait d).validate = if d.kept = .zero then .error (.limitZero wait .gateway) else .ok () := by
  have fine : ∀ problem ∈ Setup.ofSettings, ¬ Setup.Faulty { settings := s } problem := Setup.usable_iff.mp usable
  by_cases zero : d.kept = .zero
  · -- what comes before the limit of the gateway is as it was
    obtain ⟨before, after, split, others⟩ : ∃ before after,
        Setup.ofSettings = before ++ SettingsError.limitZero wait .gateway :: after ∧
        ∀ problem ∈ before, ∀ side, problem ≠ SettingsError.limitZero wait side := by
      cases wait with
      | connect => exact ⟨[.hostBlank .gateway, .portZero .gateway], _, rfl, by simp [SettingsError.limitZero]⟩
      | read =>
        exact ⟨[.hostBlank .gateway, .portZero .gateway, .connectTimeoutZero .gateway], _, rfl,
          by simp [SettingsError.limitZero]⟩
    have earlier : ∀ problem ∈ before, ¬ Setup.Faulty { settings := s.withLimit wait d } problem := by
      intro problem member
      rw [Setup.faulty_withLimit (others problem member)]
      exact fine problem (by rw [split]; exact List.mem_append_left _ member)
    have faulty := (Setup.faulty_limitZero s wait d .gateway).mpr zero
    have outcome := Setup.validate_eq { settings := s.withLimit wait d }
    rw [split, Setup.outcome_append, (Setup.outcome_eq_ok_iff before).mpr earlier] at outcome
    rw [if_pos zero]
    refine outcome.trans ?_
    change Setup.outcome _ _ = _
    rw [Setup.outcome_cons, if_pos faulty]
  · have still : ∀ problem ∈ Setup.ofSettings, ¬ Setup.Faulty { settings := s.withLimit wait d } problem := by
      intro problem member
      by_cases own : ∃ side, problem = SettingsError.limitZero wait side
      · obtain ⟨side, rfl⟩ := own
        rw [Setup.faulty_limitZero]
        exact zero
      · rw [Setup.faulty_withLimit (not_exists.mp own)]
        exact fine problem member
    rw [if_neg zero, validate_eq_ok_iff]
    exact Setup.usable_iff.mpr still

/-- A time limit reads back the same from an endpoint, from both of some settings and from those of a service in
preparation: rounded down to whole milliseconds, exactly if these are below 2^64, and else reduced by as many times 2^64
milliseconds as there are in it. So no time is kept as less than a shorter one, as long as it is below 2^64 milliseconds;
it is kept as none at all exactly if its milliseconds are a multiple of 2^64, which of those below means less than one.
Then, and only then, the settings are refused because of it. -/
theorem withLimit_reads_back (wait : Wait) (d : Duration) :
    (∀ e : Endpoint, (e.withLimit wait d).limit wait = some d.kept) ∧
    (∀ (s : Settings) side, ((s.withLimit wait d).endpoint side).limit wait = some d.kept) ∧
    (∀ (setup : Setup) side, ((setup.choose (.limit wait d)).settings.endpoint side).limit wait = some d.kept) ∧
    (d.kept = d.wholeMillis ↔ d.toMillis < UInt64.size) ∧
    d.wholeMillis.toNanos ≤ d.toNanos ∧ d.toNanos < d.wholeMillis.toNanos + 1000000 ∧
    d.kept.toNanos = d.toMillis % UInt64.size * 1000000 ∧
    (∀ longer : Duration, d.toNanos ≤ longer.toNanos → longer.toMillis < UInt64.size →
      d.kept.toNanos ≤ longer.kept.toNanos) ∧
    (d.kept = .zero ↔ UInt64.size ∣ d.toMillis) ∧
    (d.toMillis < UInt64.size → (d.kept = .zero ↔ d.toNanos < 1000000)) ∧
    (∀ s : Settings, d.kept = .zero → (s.withLimit wait d).validate ≠ .ok ()) ∧
    ∀ s : Settings, s.Usable →
      (s.withLimit wait d).validate = if d.kept = .zero then .error (.limitZero wait .gateway) else .ok () := by
  refine ⟨fun e => e.limit_withLimit wait d, fun s side => ?_, fun setup side => ?_, Duration.kept_eq_wholeMillis_iff,
    d.wholeMillis_le, d.lt_wholeMillis, d.toNanos_kept, fun _ => Duration.kept_mono, Duration.kept_eq_zero_iff,
    Duration.kept_eq_zero_iff_of_lt, fun _ => validate_withLimit_of_zero, fun _ usable => validate_withLimit usable wait d⟩
  · rw [endpoint_withLimit, Endpoint.limit_withLimit]
  · rw [Setup.settings_choose_limit, endpoint_withLimit, Endpoint.limit_withLimit]

/-- Less than a millisecond more than 1002 of them. -/
theorem withLimit_reads_back_rounded :
    (production.withReadTimeout ⟨1, 2999999⟩).gateway.readLimit = some ⟨1, 2000000⟩ ∧
      (production.withReadTimeout ⟨1, 2999999⟩).validate = .ok () := by
  have usable : production.Usable := validate_eq_ok_iff.mp rfl
  obtain ⟨-, both, -, -, -, -, -, -, -, -, -, accepted⟩ := withLimit_reads_back .read ⟨1, 2999999⟩
  exact ⟨both production .gateway, accepted production usable⟩

/-- A time of 2^64 milliseconds is kept as none at all, a second is not; so settings with the longer one are refused. -/
theorem withLimit_reads_back_as_none :
    let long : Duration := ⟨18446744073709551, 616000000⟩
    let short : Duration := .seconds 1
    long.toNanos = UInt64.size * 1000000 ∧ short.toNanos < long.toNanos ∧
      (production.withConnectTimeout long).gateway.connectLimit = .zero ∧
      (production.withConnectTimeout long).feedback.connectLimit = .zero ∧
      (production.withReadTimeout long).gateway.readLimit = some .zero ∧
      (production.withConnectTimeout short).gateway.connectLimit = short ∧
      (production.withConnectTimeout long).validate = .error (.connectTimeoutZero .gateway) ∧
      (production.withReadTimeout long).validate = .error (.readTimeoutZero .gateway) ∧
      (production.withConnectTimeout short).validate = .ok () := by
  intro long short
  have usable : production.Usable := validate_eq_ok_iff.mp rfl
  have lost : long.kept = .zero := by decide
  have stays : short.kept ≠ .zero := by decide
  exact ⟨by decide, by decide, lost, lost, congrArg some lost, by decide,
    (validate_withLimit usable .connect _).trans (if_pos lost),
    (validate_withLimit usable .read _).trans (if_pos lost),
    (validate_withLimit usable .connect _).trans (if_neg stays)⟩

end Settings
end PushGateway
