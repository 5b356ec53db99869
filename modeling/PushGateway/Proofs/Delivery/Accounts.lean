import PushGateway.Proofs.Delivery.Attempts
import PushGateway.Proofs.Delivery.Upkeep

namespace PushGateway.Client

open Journal Manager

variable {σ π : Type} [Policy π] (net : Network σ)

/-- How a send of `bytes` ends: what its attempts came to, what a listener is told, and what comes back. All
attempts before the last one failed, and the last one did if as many were made as are allowed. -/
inductive Outcome (lock : Lock) (n : Notification) (bytes : Bytes) (c : Client π) (w : World σ) :
    List (Except NetworkError Unit) → Event → Except NetworkError Unit × Client π × World σ → Prop
  | sent {errors m₁ w₁ m₂ w₂} :
      Failures net bytes c.retry.delay c.manager (w.note (.locked lock)) errors m₁ w₁ →
      errors.length < max c.retry.maxAttempts.toNat 1 →
      Attempted net bytes m₁ (pause net c.retry.delay errors.length w₁) (.ok ()) m₂ w₂ →
      Outcome lock n bytes c w (errors.map .error ++ [.ok ()]) (.sent n)
        (.ok (), { c with manager := m₂ }, (w₂.note (.unlocked lock)).tell c.manager.listener (.sent n))
  | failed {errors last m₁ w₁} :
      Failures net bytes c.retry.delay c.manager (w.note (.locked lock)) (errors ++ [last]) m₁ w₁ →
      errors.length + 1 = max c.retry.maxAttempts.toNat 1 →
      Outcome lock n bytes c w ((errors ++ [last]).map .error) (.sendFailed n last)
        (.error (.deliveryFailed (errors.length + 1) last.message), { c with manager := m₁ },
          (w₁.note (.unlocked lock)).tell c.manager.listener (.sendFailed n last))

variable {lock : Lock} {n : Notification} {bytes : Bytes} {c c' : Client π} {w w' : World σ}
  {tries : List (Except NetworkError Unit)} {event : Event}

theorem send_of_deliver {result : Except NetworkError Unit} {m' : Manager π} (encoded : n.encode = .ok bytes)
    (run : c.manager.deliver net bytes c.retry.delay (c.retry.attempts - 1) 0 (w.note (.locked lock)) =
      (result, m', w')) :
    c.send net lock n w = (conclude c.retry.attempts result, { c with manager := m' },
      (w'.note (.unlocked lock)).tell c.manager.listener (report n result)) := by
  simp [send, attempts, encoded, run]

theorem send_outcome (lock : Lock) (c : Client π) (w : World σ) (encoded : n.encode = .ok bytes) :
    ∃ tries event, Outcome net lock n bytes c w tries event (c.send net lock n w) := by
  have allowed : c.retry.attempts = max c.retry.maxAttempts.toNat 1 := rfl
  have begins : Failures net bytes c.retry.delay c.manager (w.note (.locked lock)) [] c.manager
    (w.note (.locked lock)) := .nothing
  rcases deliver_cases net (c.retry.attempts - 1) begins with
    ⟨errors, m₁, w₁, m₂, w₂, failures, within, succeeds, delivered⟩ |
      ⟨errors, last, m₁, w₁, failures, all, givenUp⟩
  · rw [List.nil_append] at failures succeeds
    rw [send_of_deliver net encoded delivered]
    exact ⟨_, _, .sent failures (by omega) succeeds⟩
  · rw [List.nil_append] at failures
    have attempts : c.retry.attempts = errors.length + 1 := by omega
    rw [send_of_deliver net encoded givenUp, attempts]
    exact ⟨_, _, .failed failures (by omega)⟩

/-- Nothing was written where all attempts failed. -/
theorem flatMap_whenOk (bytes : Bytes) (errors : List NetworkError) :
    (errors.map Except.error).flatMap (whenOk bytes) = [] := by
  simp [List.flatMap_map, whenOk]

/-- What a send does while it has the lock. -/
theorem Outcome.leads {result : Except NetworkError Unit} (encoded : n.encode = .ok bytes)
    (outcome : Outcome net lock n bytes c w tries event (result, c', w')) :
    ∃ entries w₁, Leads c.manager (w.note (.locked lock)) entries c'.manager w₁ ∧
      w' = (w₁.note (.unlocked lock)).tell c.manager.listener event ∧ c'.retry = c.retry ∧
      successes entries = whenOk bytes result ∧
      Tries c.manager.endpoint bytes c.retry.delay c.manager.held w.connections entries tries c'.manager.held
        w₁.connections := by
  cases outcome with
  | @sent errors m₁ w₁ m₂ w₂ failures few succeeds =>
    obtain ⟨entries, leads, tries⟩ := failures.leads net encoded
    have waits := pause_leads net c.retry.delay errors.length m₁ w₁
    obtain ⟨step, further, tried⟩ := succeeds.of_ok net encoded
    rw [connections_pause, leads.endpoint] at tried
    have all := tries.more tried
    refine ⟨_, w₂, leads.trans (waits.trans further), rfl, rfl, ?_, all⟩
    rw [all.successes_eq, List.flatMap_append, flatMap_whenOk]
    rfl
  | @failed errors last m₁ w₁ failures all =>
    obtain ⟨entries, leads, tries⟩ := failures.leads net encoded
    refine ⟨entries, w₁, leads, rfl, rfl, ?_, tries⟩
    rw [tries.successes_eq, flatMap_whenOk]
    rfl

theorem Outcome.names {after : Except NetworkError Unit × Client π × World σ}
    (outcome : Outcome net lock n bytes c w tries event after) :
    event = .sent n ∨ ∃ error, event = .sendFailed n error := by
  cases outcome with
  | sent => exact .inl rfl
  | failed => exact .inr ⟨_, rfl⟩

theorem Outcome.closed {error : NetworkError}
    (outcome : Outcome net lock n bytes c w tries event (.error error, c', w')) :
    c'.manager.slot = none ∧ c'.manager.phase = .disconnected := by
  cases outcome with
  | failed failures => exact failures.closed net (by simp)

theorem Outcome.disconnected {error : NetworkError}
    (outcome : Outcome net lock n bytes c w tries event (.error error, c', w')) (anyLock : Lock)
    (later : World σ) : (c'.state net anyLock later).1 = .disconnected := by
  obtain ⟨empty, phase⟩ := outcome.closed net
  simp [state, Manager.state, empty, phase]

/-- The accounts of a send. What cannot be written down is refused, and nothing at all happens. Otherwise
every failed attempt leaves the manager without a connection, and all that it held, made or wrote to is shut
down before the next attempt begins; the send ends with the first attempt that acquired a connection and wrote the
bytes to it, or with the last failure that is allowed, after which the client is disconnected. The journal shows what
each attempt asked of the network, one after the other under the lock: the bytes were written successfully once if the
send succeeded and never if it failed, and there was a pause before each attempt from the third on and nowhere else.
The listener was told one thing, after the lock was given back. -/
theorem send_accounts (lock : Lock) (n : Notification) (c : Client π) (w : World σ) :
    (∀ problem, n.encode = .error problem → c.send net lock n w = (.error (.encoding problem.message), c, w)) ∧
    ∀ bytes, n.encode = .ok bytes →
      (∀ errors m' w', Failures net bytes c.retry.delay c.manager (w.note (.locked lock)) errors m' w' →
        errors ≠ [] → m'.slot = none ∧ ∃ entries, w'.journal = w.journal ++ .locked lock :: entries ∧
          Tries c.manager.endpoint bytes c.retry.delay c.manager.held w.connections entries (errors.map .error) none
            w'.connections ∧
          c.manager.held.toList ++ made entries = shut entries ∧
          ∀ conn, writes conn entries ≠ [] → conn ∈ shut entries) ∧
      ∃ tries event result c' w' entries, c.send net lock n w = (result, c', w') ∧
        Outcome net lock n bytes c w tries event (result, c', w') ∧
        (∀ error, result = .error error → ∀ (anyLock : Lock) (later : World σ),
          (c'.state net anyLock later).1 = .disconnected) ∧
        w'.journal = w.journal ++ (locked lock entries ++ (c.manager.listener.hears event).map .told) ∧
        Tries c.manager.endpoint bytes c.retry.delay c.manager.held w.connections entries tries c'.manager.held
          w'.connections ∧
        successes entries = whenOk bytes result ∧
        pauses entries = List.replicate (tries.length - 2) c.retry.delay ∧
        told entries = [] := by
  refine ⟨fun problem refused => by simp [send, refused], fun bytes encoded => ⟨?_, ?_⟩⟩
  · intro errors m' w' failures some
    obtain ⟨empty, entries, journal, tries, balance, shutDown⟩ := failures.all_shut net encoded some
    exact ⟨empty, entries, by simpa using journal, tries, balance, shutDown⟩
  · obtain ⟨tries, event, outcome⟩ := send_outcome net lock c w encoded
    rcases ended : c.send net lock n w with ⟨result, c', w'⟩
    rw [ended] at outcome
    obtain ⟨entries, w₁, leads, rfl, _, sent, all⟩ := outcome.leads net encoded
    refine ⟨tries, event, result, c', _, entries, rfl, outcome, ?_, ?_, ?_, sent, all.pauses_eq, ?_⟩
    · rintro error rfl
      exact outcome.disconnected net
    · simp [leads.journal, locked]
    · simpa using all
    · exact leads.moves.told_eq_nil

end PushGateway.Client
