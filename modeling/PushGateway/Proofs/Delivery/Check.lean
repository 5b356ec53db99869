import Mathlib.Logic.Relation
import PushGateway.Memory.Network
import PushGateway.Proofs.Delivery.Streams

namespace PushGateway

open Journal

namespace World

variable {σ : Type} (net : Network σ)

theorem outside_connect (endpoint : Endpoint) (w : World σ) :
    (w.connect net endpoint).2.outside = (net.connect endpoint w.connections w.outside).2 := by
  unfold connect
  split <;> rename_i asked <;> rw [asked] <;> rfl

theorem outside_write (conn : Nat) (bytes : Bytes) (w : World σ) :
    (w.write net conn bytes).2.outside = (net.write conn bytes w.outside).2 := by
  unfold write
  split <;> rename_i asked <;> rw [asked] <;> rfl

end World

/-- What an attempt came to that was made without a monitor. It ends with a connect that fails or with a write. -/
@[simp] def Entry.tried? : Entry → Option (Except NetworkError Unit)
  | refused _ error => some (.error error)
  | wrote _ _ => some (.ok ())
  | writeFailed _ _ error => some (.error (.ofWrite error))
  | _ => none

namespace Journal

/-- What attempts came to, oldest first. -/
def tried (entries : List Entry) : List (Except NetworkError Unit) := entries.filterMap Entry.tried?

@[simp] theorem tried_nil : tried [] = [] := rfl

@[simp] theorem tried_cons (entry : Entry) (entries : List Entry) :
    tried (entry :: entries) = entry.tried?.toList ++ tried entries := filterMap_cons_toList ..

@[simp] theorem tried_append (a b : List Entry) : tried (a ++ b) = tried a ++ tried b :=
  List.filterMap_append

theorem none_written {entries : List Entry} (nothing : ∀ conn, writes conn entries = []) (bytes : Bytes) :
    ∀ conn, ∀ write ∈ writes conn entries, write.1 = bytes := by
  intro conn write member
  rw [nothing conn] at member
  cases member

theorem tried_pause (made : Nat) (delay : Duration) : tried (if made < 2 then [] else [.slept delay]) = [] :=
  filterMap_pause rfl made

end Journal

/-- One thing that is asked of a network in the course of a check: to wait, to connect to the server, to carry certain
bytes and to shut down, where all connections have numbers from `start` on. -/
inductive Probe {σ : Type} (net : Network σ) (endpoint : Endpoint) (bytes : Bytes) (start : Nat) : σ → σ → Prop
  | slept (d : Duration) (s : σ) : Probe net endpoint bytes start s (net.sleep d s)
  | connected {conn : Nat} (s : σ) : start ≤ conn →
      Probe net endpoint bytes start s (net.connect endpoint conn s).2
  | wrote {conn : Nat} (s : σ) : start ≤ conn → Probe net endpoint bytes start s (net.write conn bytes s).2
  | shutDown {conn : Nat} (s : σ) : start ≤ conn → Probe net endpoint bytes start s (net.shutDown conn s)

/-- What becomes of a network of which nothing else is asked. -/
abbrev Probes {σ : Type} (net : Network σ) (endpoint : Endpoint) (bytes : Bytes) (start : Nat) : σ → σ → Prop :=
  Relation.ReflTransGen (Probe net endpoint bytes start)

/-- No such thing opens or closes this connection. -/
def Undisturbed {σ : Type} (net : Network σ) (endpoint : Endpoint) (bytes : Bytes) (start : Nat) (s : σ)
    (conn : Nat) : Prop :=
  ∀ s₁ s₂, Probes net endpoint bytes start s s₁ → Probe net endpoint bytes start s₁ s₂ →
    (net.isOpen conn s₂).1 = (net.isOpen conn s₁).1

/-- The same network, which counts the monitors that it is asked to start. -/
def Network.counting {σ : Type} (net : Network σ) : Network (σ × Nat) where
  now s := net.now s.1
  sleep d s := (net.sleep d s.1, s.2)
  connect endpoint conn s := ((net.connect endpoint conn s.1).1, (net.connect endpoint conn s.1).2, s.2)
  isOpen conn s := ((net.isOpen conn s.1).1, (net.isOpen conn s.1).2, s.2)
  write conn bytes s := ((net.write conn bytes s.1).1, (net.write conn bytes s.1).2, s.2)
  inbound conn s := ((net.inbound conn s.1).1, (net.inbound conn s.1).2, s.2)
  shutDown conn s := (net.shutDown conn s.1, s.2)
  watch conn listener s := ((net.watch conn listener s.1).1, (net.watch conn listener s.1).2, s.2 + 1)

section probes

variable {σ : Type} {net : Network σ} {endpoint : Endpoint} {bytes : Bytes} {start conn : Nat} {s s' : σ}

theorem Probes.isOpen_eq (probes : Probes net endpoint bytes start s s')
    (undisturbed : Undisturbed net endpoint bytes start s conn) :
    (net.isOpen conn s').1 = (net.isOpen conn s).1 := by
  induction probes with
  | refl => rfl
  | tail before probe ih => exact (undisturbed _ _ before probe).trans ih

/-- No monitor is started. -/
theorem Probes.count_eq {s s' : σ × Nat} (probes : Probes net.counting endpoint bytes start s s') : s'.2 = s.2 := by
  induction probes with
  | refl => rfl
  | tail _ probe ih => cases probe <;> exact ih

end probes

namespace Manager

variable {σ π : Type} [Policy π] (net : Network σ)

/-- A manager as it is used for a check that began when the next connection had the number `start`. It wants no
monitor, and it holds no connection from before. -/
structure Checks (start : Nat) (m : Manager π) (w : World σ) : Prop where
  quiet : m.detection = false
  later : start ≤ w.connections
  own : ∀ conn, m.held = some conn → start ≤ conn

/-- Such a manager has come from `m` in `w` to `m'` in `w'`. It has asked of the network only what a check asks, and has
written nothing but `bytes`. -/
structure Probed (bytes : Bytes) (start : Nat) (m : Manager π) (w : World σ) (entries : List Entry) (m' : Manager π)
    (w' : World σ) : Prop extends Leads m w entries m' w' where
  outside : Probes net m.endpoint bytes start w.outside w'.outside
  only : ∀ conn, ∀ write ∈ writes conn entries, write.1 = bytes
  checks : Checks start m' w'

variable {m m' m'' : Manager π} {w w' w'' : World σ} {entries more : List Entry} {n : Notification} {bytes : Bytes}
  {start : Nat} {delay : Duration} {errors : List NetworkError}

omit [Policy π] in
theorem Checks.of_connections (checks : Checks start m w) (same : w'.connections = w.connections) :
    Checks start m w' :=
  ⟨checks.quiet, same ▸ checks.later, checks.own⟩

omit [Policy π] in
theorem Probed.refl (checks : Checks start m w) : Probed net bytes start m w [] m w :=
  ⟨.refl m w, .refl, none_written (fun _ => rfl) bytes, checks⟩

omit [Policy π] in
theorem Probed.trans (first : Probed net bytes start m w entries m' w')
    (second : Probed net bytes start m' w' more m'' w'') : Probed net bytes start m w (entries ++ more) m'' w'' where
  toLeads := first.toLeads.trans second.toLeads
  outside := first.outside.trans (first.endpoint ▸ second.outside)
  only conn write member := by
    rw [writes_append, List.mem_append] at member
    exact member.elim (first.only conn write) (second.only conn write)
  checks := second.checks

omit [Policy π] in
theorem close_probed (bytes : Bytes) (checks : Checks start m w) :
    Probed net bytes start m w (m.held.toList.map .shutDown) (m.close net w).1 (m.close net w).2 where
  toLeads := close_leads net m w
  outside := by
    rw [close]
    cases slot : m.slot with
    | none => exact .refl
    | some held => exact .single (.shutDown w.outside (checks.own held.conn (by rw [Manager.held, slot]; rfl)))
  only := none_written (fun _ => by cases m.held <;> rfl) bytes
  checks := ⟨checks.quiet, by rw [connections_close]; exact checks.later, nofun⟩

omit [Policy π] in
theorem pause_probed (bytes : Bytes) (delay : Duration) (made : Nat) (checks : Checks start m w) :
    Probed net bytes start m w (if made < 2 then [] else [.slept delay]) m (pause net delay made w) where
  toLeads := pause_leads net delay made m w
  outside := by
    unfold pause
    split
    · exact .refl
    · exact .single (.slept delay w.outside)
  only := none_written (fun _ => filterMap_pause rfl made) bytes
  checks := checks.of_connections (by unfold pause; split <;> rfl)

theorem acquire_probed (bytes : Bytes) (checks : Checks start m w) (empty : m.slot = none) :
    (∃ m' w', m.acquire net w = (.ok w.connections, m', w') ∧ m'.held = some w.connections ∧
        Probed net bytes start m w [.connected m.endpoint w.connections] m' w') ∨
      ∃ error m' w', m.acquire net w = (.error error, m', w') ∧ m'.slot = none ∧
        Probed net bytes start m w [.refused m.endpoint error] m' w' := by
  obtain ⟨endpoint, policy, listener, detection, slot, phase, opened⟩ := m
  obtain ⟨rfl, later, -⟩ := checks
  cases empty
  have asked : Probe net endpoint bytes start w.outside (w.connect net endpoint).2.outside := by
    rw [World.outside_connect]
    exact .connected w.outside later
  have anew : acquire net ⟨endpoint, policy, listener, false, none, phase, opened⟩ w =
      connect net ⟨endpoint, (Policy.isDue (w.now net) policy).2, listener, false, none, phase, opened⟩ w := by
    simp [acquire]
  rw [anew, connect]
  rcases w.connect_cases net endpoint with ⟨s, connected⟩ | ⟨error, s, refused⟩
  · rw [connected] at asked
    simp only [connected, startMonitor, Bool.false_eq_true, if_false]
    refine .inl ⟨_, _, rfl, rfl, ?_⟩
    refine ⟨⟨rfl, (Move.made w.connections).moves, rfl, rfl, rfl, fun _ => rfl⟩, .single asked,
      none_written (fun _ => rfl) bytes, ⟨rfl, Nat.le_succ_of_le later, ?_⟩⟩
    rintro conn ⟨⟩
    exact later
  · rw [refused] at asked
    simp only [refused]
    refine .inr ⟨error, _, _, rfl, rfl, ?_⟩
    refine ⟨⟨rfl, (Move.refused error w.connections).moves, rfl, rfl, rfl, fun _ => rfl⟩, .single asked,
      none_written (fun _ => rfl) bytes, ⟨rfl, later, ?_⟩⟩
    rintro conn ⟨⟩

omit [Policy π] in
/-- A write to the connection that is held. If it fails, the manager closes. -/
theorem write_probed {conn : Nat} (encoded : n.encode = .ok bytes) (checks : Checks start m w)
    (holds : m.held = some conn) :
    (∃ w', w.write net conn bytes = (.ok (), w') ∧ Probed net bytes start m w [.wrote conn bytes] m w') ∨
      ∃ error w', w.write net conn bytes = (.error error, w') ∧
        Probed net bytes start m w [.writeFailed conn bytes error, .shutDown conn] (m.close net w').1
          (m.close net w').2 := by
  have asked : Probe net m.endpoint bytes start w.outside (w.write net conn bytes).2.outside := by
    rw [World.outside_write]
    exact .wrote w.outside (checks.own conn holds)
  have once (outcome : Option IoError) (other : Nat) (write : Bytes × Option IoError)
      (member : write ∈ (if conn = other then some (bytes, outcome) else none).toList) : write.1 = bytes := by
    split at member
    · rw [List.mem_singleton.mp member]
    · cases member
  rcases w.write_cases net conn bytes with ⟨s, wrote⟩ | ⟨error, s, failed⟩
  · rw [wrote] at asked
    refine .inl ⟨_, wrote, ⟨rfl, ?_, rfl, rfl, rfl, id⟩, .single asked, ?_, checks.of_connections rfl⟩
    · rw [holds]
      exact (Move.wrote encoded conn w.connections).moves
    · exact fun other write member => once none other write (by simpa using member)
  · rw [failed] at asked
    refine .inr ⟨error, _, failed, ?_⟩
    have still : Checks start m ({ w with outside := s }.note (.writeFailed conn bytes error)) :=
      checks.of_connections rfl
    have closed := close_probed net bytes still
    rw [holds] at closed
    refine ⟨⟨?_, ?_, rfl, rfl, rfl, fun _ => rfl⟩, .head asked closed.outside, ?_, closed.checks⟩
    · rw [closed.journal]
      simp
    · rw [holds, connections_close]
      exact (Move.broke encoded error conn w.connections).moves
    · exact fun other write member => once (some error) other write (by simpa using member)

/-- An attempt of a manager that holds nothing. If it fails, the manager closes. -/
theorem attempt_probed (encoded : n.encode = .ok bytes) (checks : Checks start m w) (empty : m.slot = none) :
    (∃ m' w' entries, m.attempt net bytes w = (.ok (), m', w') ∧ Probed net bytes start m w entries m' w' ∧
        tried entries = [.ok ()]) ∨
      ∃ error m' w' entries, m.attempt net bytes w = (.error error, m', w') ∧
        Probed net bytes start m w entries (m'.close net w').1 (m'.close net w').2 ∧
        tried entries = [.error error] := by
  unfold attempt
  rcases acquire_probed net bytes checks empty with
    ⟨m₁, w₁, acquired, holds, first⟩ | ⟨error, m₁, w₁, failed, nothing, first⟩
  · simp only [acquired]
    rcases write_probed net encoded first.checks holds with ⟨w₂, wrote, second⟩ | ⟨error, w₂, failed, second⟩
    · simp only [wrote]
      exact .inl ⟨_, _, _, rfl, first.trans net second, rfl⟩
    · simp only [failed]
      exact .inr ⟨_, _, _, _, rfl, first.trans net second, rfl⟩
  · simp only [failed]
    have closed := close_probed net bytes first.checks
    rw [held_eq_none nothing] at closed
    exact .inr ⟨_, _, _, _, rfl, first.trans net closed, rfl⟩

/-- Attempts that failed one after the other in a check. -/
theorem Failures.probed (encoded : n.encode = .ok bytes) (checks : Checks start m w) (empty : m.slot = none)
    (failures : Failures net bytes delay m w errors m' w') :
    m'.slot = none ∧ ∃ entries, Probed net bytes start m w entries m' w' ∧
      tried entries = errors.map .error := by
  induction failures with
  | nothing => exact ⟨empty, [], .refl net checks, rfl⟩
  | @more errors m₁ w₁ error m₂ w₂ before failed ih =>
    -- the manager holds nothing when an attempt begins, since it has closed after the one before
    obtain ⟨stillEmpty, entries, probed, all⟩ := ih
    rw [← attempt_iff] at failed
    have waits := pause_probed net bytes delay errors.length probed.checks
    rcases attempt_probed net encoded waits.checks stillEmpty with
      ⟨_, _, _, succeeds, _⟩ | ⟨problem, m₃, w₃, more, fails, further, one⟩
    · rw [failed] at succeeds
      cases succeeds
    · rw [failed] at fails
      cases fails
      refine ⟨rfl, _, probed.trans net (waits.trans net further), ?_⟩
      rw [tried_append, tried_append, all, tried_pause, one, List.map_append]
      rfl

end Manager

namespace Client

open Manager

variable {σ π : Type} [Policy π] (net : Network σ)

/-- What is answered to one who may make `most` attempts, and whose attempts came to `tries`. -/
structure Concludes (most : Nat) (tries : List (Except NetworkError Unit)) (result : Except NetworkError Unit) :
    Prop where
  few : tries.length ≤ most
  ok_iff : result = .ok () ↔ .ok () ∈ tries
  failed : ∀ error, result = .error error → tries.length = most ∧
    ∃ cause, tries.getLast? = some (.error cause) ∧ error = .deliveryFailed most cause.message

theorem Concludes.sent {most : Nat} {errors : List NetworkError} (few : errors.length < most) :
    Concludes most (errors.map .error ++ [.ok ()]) (.ok ()) where
  few := by
    rw [List.length_append, List.length_map]
    exact few
  ok_iff := by simp
  failed := nofun

theorem Concludes.givenUp {most : Nat} {errors : List NetworkError} {last : NetworkError}
    (all : errors.length + 1 = most) :
    Concludes most ((errors ++ [last]).map .error) (.error (.deliveryFailed (errors.length + 1) last.message)) where
  few := by simp [all]
  ok_iff := by simp
  failed := by
    rintro _ ⟨⟩
    exact ⟨by simp [all], last, by simp, by rw [all]⟩

variable {lock : Lock} {n : Notification} {bytes : Bytes} {c : Client π} {w : World σ} {start : Nat}

/-- A send of a client that is used for a check. -/
theorem send_probed (lock : Lock) (encoded : n.encode = .ok bytes) (checks : c.manager.Checks start w)
    (empty : c.manager.slot = none) :
    ∃ result c' w₁ entries event,
      c.send net lock n w = (result, c', (w₁.note (.unlocked lock)).tell c.manager.listener event) ∧
      Probed net bytes start c.manager (w.note (.locked lock)) entries c'.manager w₁ ∧
      Concludes (max c.retry.maxAttempts.toNat 1) (tried entries) result := by
  have begins : c.manager.Checks start (w.note (.locked lock)) := checks.of_connections rfl
  obtain ⟨_, event, outcome⟩ := send_outcome net lock c w encoded
  rcases run : c.send net lock n w with ⟨result, c', w'⟩
  rw [run] at outcome
  cases outcome with
  | @sent errors m₁ w₁ m₂ w₂ failures few succeeds =>
    obtain ⟨stillEmpty, entries, probed, all⟩ := failures.probed net encoded begins empty
    rw [← attempt_iff] at succeeds
    have waits := pause_probed net bytes c.retry.delay errors.length probed.checks
    rcases attempt_probed net encoded waits.checks stillEmpty with
      ⟨m₃, w₃, more, succeeds', further, one⟩ | ⟨_, _, _, _, fails, _⟩
    · rw [succeeds] at succeeds'
      cases succeeds'
      refine ⟨_, _, _, _, _, rfl, probed.trans net (waits.trans net further), ?_⟩
      rw [tried_append, tried_append, all, tried_pause, one]
      exact .sent few
    · rw [succeeds] at fails
      cases fails
  | @failed errors last m₁ w₁ failures all =>
    obtain ⟨_, entries, probed, tries⟩ := failures.probed net encoded begins empty
    refine ⟨_, _, _, entries, _, rfl, probed, ?_⟩
    rw [tries]
    exact .givenUp all

omit [Policy π] in
/-- The state of a client can be told from whether the connection that it holds is open. -/
theorem state_congr {w' : World σ} (lock : Lock)
    (same : ∀ conn, c.manager.held = some conn → (net.isOpen conn w'.outside).1 = (net.isOpen conn w.outside).1) :
    (c.state net lock w').1 = (c.state net lock w).1 := by
  obtain ⟨⟨endpoint, policy, listener, detection, slot, phase, opened⟩, retry⟩ := c
  cases slot with
  | none => cases phase <;> rfl
  | some held =>
    have answers : (net.isOpen held.conn w'.outside).1 = (net.isOpen held.conn w.outside).1 := same held.conn rfl
    cases phase with
    | disconnected | connecting => rfl
    | established =>
      rcases before : net.isOpen held.conn w.outside with ⟨_ | _, s⟩ <;>
        rcases after : net.isOpen held.conn w'.outside with ⟨_ | _, s'⟩ <;>
        simp_all [state, Manager.state, World.isOpen, World.note]

/-- What a connection check does, between taking locks and giving them back: the checker sends, and then it closes. -/
theorem testConnection_probed (c : Client π) (w : World σ) :
    ∃ result w' entries later next, c.testConnection net w = (result, w') ∧
      w'.journal = w.journal ++ (locked .client [] ++ (locked .check entries ++ locked .check later)) ∧
      Moves c.manager.endpoint none w.connections (entries ++ later) none next ∧
      (∀ conn, ∀ write ∈ writes conn (entries ++ later), write.1 = List.replicate 5 0) ∧
      Probes net c.manager.endpoint (List.replicate 5 0) w.connections w.outside w'.outside ∧
      Concludes (max c.retry.maxAttempts.toNat 1) (tried (entries ++ later)) result := by
  have encoded : (Notification.legacy [] []).encode = .ok (List.replicate 5 0) := rfl
  have begins : (c.checker net w).1.manager.Checks w.connections (c.checker net w).2 := ⟨rfl, Nat.le_refl _, nofun⟩
  obtain ⟨empty, nobody, journal, connections⟩ := checker_begins net c w
  obtain ⟨result, c₁, w₁, entries, event, sent, first, concludes⟩ := send_probed net .check encoded begins rfl
  have tested : c.testConnection net w = (result, (c₁.close net .check (w₁.note (.unlocked .check))).2) := by
    rw [nobody] at sent
    calc c.testConnection net w
        = ((send net .check (.legacy [] []) (c.checker net w).1 (c.checker net w).2).1,
            (close net .check (send net .check (.legacy [] []) (c.checker net w).1 (c.checker net w).2).2.1
              (send net .check (.legacy [] []) (c.checker net w).1 (c.checker net w).2).2.2).2) := rfl
      _ = (result, (c₁.close net .check (w₁.note (.unlocked .check))).2) := by rw [sent]; rfl
  have still : c₁.manager.Checks w.connections ((w₁.note (.unlocked .check)).note (.locked .check)) :=
    first.checks.of_connections rfl
  have second := close_probed net (List.replicate 5 0) still
  have moves := first.moves.trans (first.endpoint ▸ second.moves)
  rw [empty] at moves
  refine ⟨result, _, entries, _, _, tested, ?_, moves, ?_, first.outside.trans (first.endpoint ▸ second.outside), ?_⟩
  · simp [close, second.journal, first.journal, journal, locked]
  · intro conn write member
    rw [writes_append, List.mem_append] at member
    exact member.elim (first.only conn write) (second.only conn write)
  · have closing : tried (c₁.manager.held.toList.map .shutDown) = [] := by cases c₁.manager.held <;> rfl
    rw [tried_append, closing, List.append_nil]
    exact concludes

/-- A connection check is made apart from the client that makes it. The client stays as it is, with its connection, its
policy and its count, and nobody is told anything. All connections that are made have new numbers, only they are
written to, nothing but the five zero bytes of an empty notification, and all of them are shut down. The network is
asked for nothing else, in particular for no monitor, so that a connection which the client holds is as open as before
unless the network itself closes it. The check succeeds exactly if one of the attempts that are allowed does. -/
theorem testConnection_apart (c : Client π) (w : World σ) :
    ∃ result w' run, c.testConnection net w = (result, w') ∧
      c.perform net w .testConnection = (.tested result, c, w') ∧
      w'.journal = w.journal ++ run ∧
      told run = [] ∧
      (∀ conn ∈ made run, w.connections ≤ conn) ∧
      shut run = made run ∧
      (∀ conn, ∀ write ∈ writes conn run, conn ∈ made run ∧ write.1 = List.replicate 5 0) ∧
      Probes net c.manager.endpoint (List.replicate 5 0) w.connections w.outside w'.outside ∧
      (∀ v : World (σ × Nat), (c.testConnection net.counting v).2.outside.2 = v.outside.2) ∧
      ((∀ conn, c.manager.held = some conn →
          Undisturbed net c.manager.endpoint (List.replicate 5 0) w.connections w.outside conn) →
        (∀ conn, c.manager.held = some conn → (net.isOpen conn w'.outside).1 = (net.isOpen conn w.outside).1) ∧
        (c.state net .client w').1 = (c.state net .client w).1) ∧
      Concludes (max c.retry.maxAttempts.toNat 1) (tried run) result := by
  obtain ⟨result, w', entries, later, next, tested, journal, moves, only, probes, concludes⟩ :=
    testConnection_probed net c w
  refine ⟨result, w', _, tested, by rw [perform, tested], journal, ?_, ?_, ?_, ?_, probes, ?_, ?_, ?_⟩
  · simpa [locked] using moves.told_eq_nil
  · intro conn member
    exact (moves.made_bounds.2 conn (by simpa [locked] using member)).1
  · simpa [locked, eq_comm] using moves.balance
  · intro conn write member
    have inside : write ∈ writes conn (entries ++ later) := by simpa [locked] using member
    refine ⟨?_, only conn write inside⟩
    -- nothing is held at the beginning, so that only what is made can be written to
    by_contra notMade
    rw [moves.writes_eq_nil nofun (by simpa [locked] using notMade)] at inside
    cases inside
  · intro v
    obtain ⟨_, _, _, _, _, counted, _, _, _, probes, _⟩ := testConnection_probed net.counting c v
    rw [counted]
    exact probes.count_eq
  · intro undisturbed
    have same : ∀ conn, c.manager.held = some conn →
        (net.isOpen conn w'.outside).1 = (net.isOpen conn w.outside).1 := fun conn holds =>
      probes.isOpen_eq (undisturbed conn holds)
    exact ⟨same, state_congr net .client same⟩
  · simpa [locked] using concludes

end Client

namespace Memory

variable {endpoint : Endpoint} {bytes : Bytes} {start conn c : Nat} {m m' : Memory}

theorem pipes_onPipe (other : c ≠ conn) (change : Pipe → Pipe) (m : Memory) :
    (m.onPipe c change).pipes[conn]? = m.pipes[conn]? :=
  List.getElem?_modify_ne change m.pipes other

theorem pipes_connect (endpoint : Endpoint) (known : conn < m.pipes.length) :
    (m.connect endpoint).2.pipes[conn]? = m.pipes[conn]? := by
  unfold Memory.connect
  dsimp only
  split
  · rfl
  · exact List.getElem?_append_left known

theorem pipes_write (other : c ≠ conn) (bytes : Bytes) (m : Memory) :
    (m.write c bytes).2.pipes[conn]? = m.pipes[conn]? := by
  unfold Memory.write
  split
  · rfl
  split
  · rfl
  split <;> exact pipes_onPipe other _ m

/-- In memory, nothing that a check asks for touches a connection from before. -/
theorem pipes_probe (probe : Probe network endpoint bytes start m m') (before : conn < start)
    (known : conn < m.pipes.length) : m'.pipes[conn]? = m.pipes[conn]? := by
  cases probe with
  | slept => cases m; rfl
  | connected => exact pipes_connect endpoint known
  | wrote _ later => exact pipes_write (by omega) bytes m
  | shutDown _ later => exact pipes_onPipe (by omega) _ m

theorem undisturbed (before : conn < start) (known : conn < m.pipes.length) :
    Undisturbed network endpoint bytes start m conn := by
  intro m₁ m₂ probes probe
  have stays : m₁.pipes[conn]? = m.pipes[conn]? ∧ conn < m₁.pipes.length := by
    clear probe
    induction probes with
    | refl => exact ⟨rfl, known⟩
    | tail _ last ih =>
      have same := (pipes_probe last before ih.2).trans ih.1
      obtain ⟨stillKnown, _⟩ := List.getElem?_eq_some_iff.mp (same.trans (List.getElem?_eq_getElem known))
      exact ⟨same, stillKnown⟩
  simp only [network, isOpen, pipes_probe probe before stays.2]

end Memory

namespace Client

/-- A client holds an open connection that its rule would let it use twice more. The first attempt of its check is
refused, the second one succeeds. -/
theorem testConnection_apart_of_refused :
    let c : Client Reconnect :=
      { manager :=
          { endpoint := .productionGateway, policy := .afterSends 3 1, listener := .application
            slot := some ⟨0, true⟩, phase := .established, opened := 1 } }
    let w : World Memory := { outside := { pipes := [{}], connectFailures := 1 }, connections := 1 }
    ∃ w', c.perform Memory.network w .testConnection = (.tested (.ok ()), c, w') ∧
      (Memory.network.isOpen 0 w'.outside).1 = true ∧ (c.state Memory.network .client w').1 = .established := by
  intro c w
  obtain ⟨result, w', run, tested, performed, _, _, _, _, _, _, _, unaffected, _⟩ :=
    testConnection_apart Memory.network c w
  have succeeds : result = .ok () := congrArg Prod.fst tested.symm
  have holds : ∀ conn, c.manager.held = some conn → Undisturbed Memory.network c.manager.endpoint
      (List.replicate 5 0) w.connections w.outside conn := by
    rintro conn ⟨⟩
    exact Memory.undisturbed (by decide) (by decide)
  obtain ⟨stillOpen, state⟩ := unaffected holds
  rw [succeeds] at performed
  exact ⟨w', performed, stillOpen 0 rfl, state⟩

end Client
end PushGateway
