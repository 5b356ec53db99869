import PushGateway.Delivery.Client
import PushGateway.Proofs.Delivery.Acquired

namespace PushGateway.Manager

open Journal

variable {σ π : Type} [Policy π] (net : Network σ)
variable {m m' : Manager π} {w w' : World σ} {n : Notification} {bytes : Bytes}

/-- What one attempt comes to: no connection could be acquired, or the write to it failed, or both went well. -/
inductive Attempted (bytes : Bytes) (m : Manager π) (w : World σ) :
    Except NetworkError Unit → Manager π → World σ → Prop
  | unacquired {error m' w'} : m.acquire net w = (.error error, m', w') → Attempted bytes m w (.error error) m' w'
  | broke {conn m' w₁ error w'} : m.acquire net w = (.ok conn, m', w₁) →
      w₁.write net conn bytes = (.error error, w') → Attempted bytes m w (.error (.ofWrite error)) m' w'
  | wrote {conn m' w₁ w'} : m.acquire net w = (.ok conn, m', w₁) → w₁.write net conn bytes = (.ok (), w') →
      Attempted bytes m w (.ok ()) m' w'

theorem attempt_iff {result : Except NetworkError Unit} :
    m.attempt net bytes w = (result, m', w') ↔ Attempted net bytes m w result m' w' := by
  constructor
  · intro run
    unfold attempt at run
    split at run
    · rename_i failed
      cases run
      exact .unacquired failed
    · rename_i acquired
      split at run
      · rename_i written
        cases run
        exact .wrote acquired written
      · rename_i failed
        cases run
        exact .broke acquired failed
  · intro attempted
    cases attempted with
    | unacquired failed => rw [attempt, failed]
    | broke acquired failed => simp only [attempt, acquired, failed]
    | wrote acquired written => simp only [attempt, acquired, written]

theorem Attempted.of_ok (encoded : n.encode = .ok bytes) (attempted : Attempted net bytes m w (.ok ()) m' w') :
    ∃ entries, Leads m w entries m' w' ∧
      Tried m.endpoint bytes m.held w.connections entries (.ok ()) m'.held w'.connections := by
  cases attempted with
  | @wrote conn m' w₁ w' acquired written =>
    obtain ⟨holds, entries, leads, acquires⟩ := acquire_leaves net acquired
    rcases w₁.write_cases net conn bytes with ⟨outside, wrote⟩ | ⟨_, _, failed⟩
    · rw [wrote] at written
      cases written
      refine ⟨_, leads.trans ⟨rfl, ?_, rfl, rfl, rfl, id⟩, holds ▸ .wrote acquires⟩
      rw [holds]
      exact (Move.wrote encoded conn w₁.connections).moves
    · rw [failed] at written
      cases written

/-- When an attempt has failed and the manager has closed, whatever was made or held is shut down. -/
theorem Attempted.of_error {error : NetworkError} (encoded : n.encode = .ok bytes)
    (attempted : Attempted net bytes m w (.error error) m' w') :
    ∃ entries, Leads m w entries (m'.close net w').1 (m'.close net w').2 ∧
      Tried m.endpoint bytes m.held w.connections entries (.error error) none (m'.close net w').2.connections := by
  rw [connections_close]
  cases attempted with
  | unacquired failed =>
    obtain ⟨empty, entries, leads, acquires⟩ := acquire_leaves net failed
    have closed := close_leads net m' w'
    rw [empty] at closed
    exact ⟨entries, by simpa [Except.toOption] using leads.trans closed, .unacquired acquires⟩
  | @broke conn m' w₁ problem w' acquired failed =>
    obtain ⟨holds, entries, leads, acquires⟩ := acquire_leaves net acquired
    rcases w₁.write_cases net conn bytes with ⟨_, written⟩ | ⟨_, outside, written⟩
    · rw [written] at failed
      cases failed
    · rw [written] at failed
      cases failed
      have closed := close_leads net m' ({ w₁ with outside }.note (.writeFailed conn bytes problem))
      refine ⟨_, leads.trans ⟨?_, ?_, rfl, rfl, rfl, fun _ => rfl⟩, .broke problem acquires⟩
      · rw [closed.journal, holds]
        simp [Except.toOption]
      · rw [holds, connections_close]
        exact (Move.broke encoded problem conn w₁.connections).moves

/-- The world in which an attempt begins after `made` others. The third attempt and all later ones begin
after a delay. -/
def pause (delay : Duration) (made : Nat) (w : World σ) : World σ :=
  if made < 2 then w else w.sleep net delay

/-- Attempts that failed, one after the other, each with its error. The manager closes after each of them. -/
inductive Failures (bytes : Bytes) (delay : Duration) (m : Manager π) (w : World σ) :
    List NetworkError → Manager π → World σ → Prop
  | nothing : Failures bytes delay m w [] m w
  | more {errors m₁ w₁ error m₂ w₂} : Failures bytes delay m w errors m₁ w₁ →
      Attempted net bytes m₁ (pause net delay errors.length w₁) (.error error) m₂ w₂ →
      Failures bytes delay m w (errors ++ [error]) (m₂.close net w₂).1 (m₂.close net w₂).2

omit [Policy π] in
theorem pause_leads (delay : Duration) (made : Nat) (m : Manager π) (w : World σ) :
    Leads m w (if made < 2 then [] else [.slept delay]) m (pause net delay made w) := by
  unfold pause
  split
  · exact .refl m w
  · exact ⟨rfl, (Move.slept delay m.held w.connections).moves, rfl, rfl, rfl, id⟩

omit [Policy π] in
theorem connections_pause (delay : Duration) (made : Nat) (w : World σ) :
    (pause net delay made w).connections = w.connections := by
  unfold pause
  split <;> rfl

theorem Failures.leads {delay : Duration} {errors : List NetworkError} (encoded : n.encode = .ok bytes)
    (failures : Failures net bytes delay m w errors m' w') :
    ∃ entries, Leads m w entries m' w' ∧
      Tries m.endpoint bytes delay m.held w.connections entries (errors.map .error) m'.held w'.connections := by
  induction failures with
  | nothing => exact ⟨[], .refl m w, .nothing⟩
  | @more errors m₁ w₁ error m₂ w₂ before failed ih =>
    obtain ⟨entries, leads, tries⟩ := ih
    have waits := pause_leads net delay errors.length m₁ w₁
    obtain ⟨step, further, tried⟩ := failed.of_error net encoded
    rw [connections_pause, leads.endpoint] at tried
    rw [List.map_append]
    exact ⟨_, leads.trans (waits.trans further), tries.more tried⟩

theorem Failures.closed {delay : Duration} {errors : List NetworkError}
    (failures : Failures net bytes delay m w errors m' w') (some : errors ≠ []) :
    m'.slot = none ∧ m'.phase = .disconnected := by
  cases failures with
  | nothing => exact absurd rfl some
  | more => exact ⟨rfl, rfl⟩

/-- Every failed attempt leaves nothing behind: what was held, made or written to is shut down. -/
theorem Failures.all_shut {delay : Duration} {errors : List NetworkError}
    (encoded : n.encode = .ok bytes) (failures : Failures net bytes delay m w errors m' w') (some : errors ≠ []) :
    m'.slot = none ∧ ∃ entries, w'.journal = w.journal ++ entries ∧
      Tries m.endpoint bytes delay m.held w.connections entries (errors.map .error) none w'.connections ∧
      m.held.toList ++ made entries = shut entries ∧ ∀ conn, writes conn entries ≠ [] → conn ∈ shut entries := by
  have empty := (failures.closed net some).1
  obtain ⟨entries, leads, tries⟩ := failures.leads net encoded
  rw [held_eq_none empty] at tries
  have moves := leads.moves
  have balance : m.held.toList ++ made entries = shut entries := by
    simpa [held_eq_none empty] using moves.balance
  refine ⟨empty, entries, leads.journal, tries, balance, ?_⟩
  intro conn written
  by_contra still
  rw [← balance, List.mem_append, not_or] at still
  exact written (moves.writes_eq_nil (by simpa [eq_comm] using still.1) still.2)

/-- What the attempts that are left come to: one of them succeeds, or the last of them fails as well. -/
theorem deliver_cases {delay : Duration} {errors : List NetworkError} (left : Nat)
    (before : Failures net bytes delay m w errors m' w') :
    (∃ more m₁ w₁ m₂ w₂, Failures net bytes delay m w (errors ++ more) m₁ w₁ ∧ more.length ≤ left ∧
        Attempted net bytes m₁ (pause net delay (errors ++ more).length w₁) (.ok ()) m₂ w₂ ∧
        m'.deliver net bytes delay left errors.length (pause net delay errors.length w') = (.ok (), m₂, w₂)) ∨
      ∃ more last m₁ w₁, Failures net bytes delay m w (errors ++ (more ++ [last])) m₁ w₁ ∧ more.length = left ∧
        m'.deliver net bytes delay left errors.length (pause net delay errors.length w') =
          (.error last, m₁, w₁) := by
  induction left generalizing errors m' w' with
  | zero =>
    rcases run : m'.attempt net bytes (pause net delay errors.length w') with ⟨error | _, m₂, w₂⟩ <;>
      have attempted := (attempt_iff net).mp run
    · exact .inr ⟨[], error, _, _, before.more attempted, rfl, by rw [deliver, run]⟩
    · exact .inl ⟨[], m', w', m₂, w₂, by simpa using before, Nat.zero_le _, by simpa using attempted, by rw [deliver, run]⟩
  | succ left ih =>
    rcases run : m'.attempt net bytes (pause net delay errors.length w') with ⟨error | _, m₂, w₂⟩ <;>
      have attempted := (attempt_iff net).mp run
    · have again : m'.deliver net bytes delay (left + 1) errors.length (pause net delay errors.length w') =
          (m₂.close net w₂).1.deliver net bytes delay left (errors ++ [error]).length
            (pause net delay (errors ++ [error]).length (m₂.close net w₂).2) := by
        have second : (errors.length + 1 < 2) = (errors.length = 0) := propext (by omega)
        rw [deliver, run]
        simp only [pause, List.length_append, List.length_singleton, second]
      have outcome := ih (before.more attempted)
      rw [← again] at outcome
      simp only [List.append_assoc, List.singleton_append] at outcome
      rcases outcome with ⟨more, m₃, w₃, m₄, w₄, failures, within, succeeds, delivered⟩ |
        ⟨more, last, m₃, w₃, failures, all, givenUp⟩
      · exact .inl ⟨error :: more, m₃, w₃, m₄, w₄, failures, Nat.succ_le_succ within, succeeds, delivered⟩
      · exact .inr ⟨error :: more, last, m₃, w₃, failures, congrArg (· + 1) all, givenUp⟩
    · exact .inl ⟨[], m', w', m₂, w₂, by simpa using before, Nat.zero_le _, by simpa using attempted, by rw [deliver, run]⟩

end PushGateway.Manager
