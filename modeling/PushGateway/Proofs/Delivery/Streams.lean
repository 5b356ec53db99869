import PushGateway.Delivery.Call
import PushGateway.Proofs.Delivery.Accounts
import PushGateway.Proofs.Wire.Stream

namespace PushGateway

open Journal Notification

mutual

/-- The notifications whose sends succeeded, in the order in which the sends were made. -/
def Call.delivered : Call → Answer → List Notification
  | .send n inside, .sent result answers => Client.whenOk n result ++ Call.deliveredAll inside answers
  | _, _ => []

def Call.deliveredAll : List Call → List Answer → List Notification
  | call :: calls, answer :: answers => call.delivered answer ++ Call.deliveredAll calls answers
  | _, _ => []

end

namespace Client

variable {σ π : Type} [Policy π] (net : Network σ)

/-- What holds of a client and of all that was done since it began with connection number `start`: its own
part of that consists of moves, every connection was written to in good order, and its own connections were
written to by itself only. -/
structure Intact (start : Nat) (c : Client π) (w : World σ) (run : List Entry) : Prop where
  own : Moves c.manager.endpoint none start (under .client false run) c.manager.held w.connections
  regular : ∀ conn, Regular (writes conn run)
  unused : ∀ conn, w.connections ≤ conn → writes conn run = []
  same : ∀ conn ∈ made (under .client false run), writes conn run = writes conn (under .client false run)

/-- What was done between two moments, with the notifications that were sent. -/
structure Progress (c : Client π) (w : World σ) (ns : List Notification) (c' : Client π) (w' : World σ)
    (run : List Entry) : Prop where
  journal : w'.journal = w.journal ++ run
  splits : ∀ before, under .client false (before ++ run) = under .client false before ++ under .client false run
  sent : (successes (under .client false run)).map .ok = ns.map encode
  intact : ∀ {start before}, Intact start c w before → Intact start c' w' (before ++ run)

variable {start : Nat} {c c' c'' : Client π} {w w' w'' : World σ} {ns more : List Notification}
  {run entries later : List Entry}

omit [Policy π] in
theorem Progress.trans (first : Progress c w ns c' w' run) (second : Progress c' w' more c'' w'' later) :
    Progress c w (ns ++ more) c'' w'' (run ++ later) where
  journal := by rw [second.journal, first.journal, List.append_assoc]
  splits before := by
    rw [← List.append_assoc, second.splits, first.splits, second.splits, List.append_assoc]
  sent := by rw [second.splits, successes_append, List.map_append, first.sent, second.sent, List.map_append]
  intact intact := by
    rw [← List.append_assoc]
    exact second.intact (first.intact intact)

omit [Policy π] in
/-- The client has made moves of its own. -/
theorem Intact.of_moves {before : List Entry} (intact : Intact start c w before)
    (moves : Moves c.manager.endpoint c.manager.held w.connections entries c'.manager.held w'.connections)
    (endpoint : c'.manager.endpoint = c.manager.endpoint)
    (own : under .client false (before ++ run) = under .client false before ++ entries)
    (all : ∀ conn, writes conn run = writes conn entries) : Intact start c' w' (before ++ run) := by
  have whole := intact.own.trans moves
  have bounds := intact.own.made_bounds.2
  -- a connection made by these moves has a number that was not used before
  have new : ∀ conn ∈ made entries, writes conn before = [] ∧ writes conn (under .client false before) = [] := by
    intro conn member
    have above := (moves.made_bounds.2 conn member).1
    refine ⟨intact.unused conn above, intact.own.writes_eq_nil nofun fun old => ?_⟩
    have := (bounds conn old).2
    omega
  have same : ∀ conn ∈ made (under .client false (before ++ run)),
      writes conn (before ++ run) = writes conn (under .client false (before ++ run)) := by
    intro conn member
    rw [own, made_append, List.mem_append] at member
    rw [own, writes_append, writes_append, all]
    rcases member with old | isNew
    · rw [intact.same conn old]
    · rw [(new conn isNew).1, (new conn isNew).2]
  have others : ∀ conn, conn ∉ made (under .client false (before ++ run)) → writes conn entries = [] := by
    intro conn notOwn
    rw [own, made_append, List.mem_append, not_or] at notOwn
    exact moves.writes_eq_nil (fun holds => (intact.own.held_mem holds).elim nofun notOwn.1) notOwn.2
  refine ⟨by rw [own, endpoint]; exact whole, fun conn => ?_, fun conn above => ?_, same⟩
  · by_cases isOwn : conn ∈ made (under .client false (before ++ run))
    · rw [same conn isOwn, own]
      exact (whole.regular conn).1
    · rw [writes_append, all, others conn isOwn, List.append_nil]
      exact intact.regular conn
  · have notOwn : conn ∉ made (under .client false (before ++ run)) := by
      intro isOwn
      rw [own] at isOwn
      have := (whole.made_bounds.2 conn isOwn).2
      omega
    rw [writes_append, all, others conn notOwn, List.append_nil]
    exact intact.unused conn (Nat.le_trans moves.next_le above)

omit [Policy π] in
/-- Somebody else has made moves, with connections of its own. -/
theorem Intact.of_others {before : List Entry} {endpoint : Endpoint} {held : Option Nat}
    (intact : Intact start c w before) (moves : Moves endpoint none w.connections entries held w'.connections)
    (own : under .client false (before ++ run) = under .client false before)
    (all : ∀ conn, writes conn run = writes conn entries) : Intact start c w' (before ++ run) := by
  have old : ∀ conn, conn < w.connections → writes conn entries = [] := fun conn below =>
    moves.writes_eq_nil nofun fun isNew => by have := (moves.made_bounds.2 conn isNew).1; omega
  have passed : w.connections + (w'.connections - w.connections) = w'.connections := by
    have := moves.next_le
    omega
  refine ⟨?_, fun conn => ?_, fun conn above => ?_, fun conn member => ?_⟩
  · have more := intact.own.more (.elsewhere c.manager.held w.connections (w'.connections - w.connections))
    rwa [List.append_nil, passed, ← own] at more
  · rw [writes_append, all]
    by_cases isNew : w.connections ≤ conn
    · rw [intact.unused conn isNew, List.nil_append]
      exact (moves.regular conn).1
    · rw [old conn (by omega), List.append_nil]
      exact intact.regular conn
  · rw [writes_append, all, intact.unused conn (Nat.le_trans moves.next_le above), List.nil_append]
    exact moves.writes_eq_nil nofun fun isNew => by have := (moves.made_bounds.2 conn isNew).2; omega
  · rw [own] at member ⊢
    rw [writes_append, all, old conn (intact.own.made_bounds.2 conn member).2, List.append_nil]
    exact intact.same conn member

omit [Policy π] in
/-- A client has worked under its lock, and has then told its listener. -/
theorem Progress.of_moves (events : List Event)
    (journal : w'.journal = w.journal ++ (locked .client entries ++ events.map .told))
    (moves : Moves c.manager.endpoint c.manager.held w.connections entries c'.manager.held w'.connections)
    (endpoint : c'.manager.endpoint = c.manager.endpoint)
    (sent : (successes entries).map .ok = ns.map encode) :
    Progress c w ns c' w' (locked .client entries ++ events.map .told) := by
  have own : under .client false (locked .client entries ++ events.map .told) = entries := by
    rw [under_locked _ _ _ moves.not_isLocking, if_pos rfl, under_map_told, List.append_nil]
  refine ⟨journal, under_append_locked .client .client entries _, by rwa [own], fun intact => ?_⟩
  exact intact.of_moves moves endpoint (by rw [under_append_locked, own]) (by simp)

omit [Policy π] in
theorem Progress.nothing (c : Client π) (w : World σ) : Progress c w [] c w [] :=
  ⟨by simp, by simp [under], rfl, by simp⟩

theorem map_whenOk {n : Notification} {bytes : Bytes} (encoded : n.encode = .ok bytes)
    (result : Except NetworkError Unit) : (whenOk bytes result).map .ok = (whenOk n result).map encode := by
  cases result <;> simp [whenOk, encoded]

/-- What a send leaves behind that could be written down, and where it leaves the client. -/
theorem send_leaves {lock : Lock} {n : Notification} {bytes : Bytes} {result : Except NetworkError Unit}
    (encoded : n.encode = .ok bytes) (run : c.send net lock n w = (result, c', w')) :
    ∃ entries event, w'.journal = w.journal ++ (locked lock entries ++ (c.manager.listener.hears event).map .told) ∧
      Moves c.manager.endpoint c.manager.held w.connections entries c'.manager.held w'.connections ∧
      c'.manager.endpoint = c.manager.endpoint ∧
      successes entries = whenOk bytes result := by
  obtain ⟨tries, event, outcome⟩ := send_outcome net lock c w encoded
  rw [run] at outcome
  obtain ⟨entries, w₁, leads, rfl, _, sent, _⟩ := outcome.leads net encoded
  exact ⟨entries, event, by simp [leads.journal, locked], by simpa using leads.moves, leads.endpoint, sent⟩

/-- A send that succeeds writes its notification successfully once, and one that fails writes nothing
successfully. -/
theorem send_contributes (lock : Lock) (n : Notification) (c : Client π) (w : World σ) :
    ∃ entries, (c.send net lock n w).2.2.journal = w.journal ++ entries ∧
      (successes entries).map .ok = (whenOk n (c.send net lock n w).1).map encode := by
  rcases run : c.send net lock n w with ⟨result, c', w'⟩
  cases encoded : n.encode with
  | error problem =>
    simp only [send, encoded] at run
    cases run
    exact ⟨[], by simp, rfl⟩
  | ok bytes =>
    obtain ⟨entries, event, journal, _, _, sent⟩ := send_leaves net encoded run
    refine ⟨_, journal, ?_⟩
    rw [successes_append, successes_map_told, List.append_nil, successes_locked, sent, map_whenOk encoded]

theorem send_progress {n : Notification} {result : Except NetworkError Unit}
    (run : c.send net .client n w = (result, c', w')) :
    ∃ entries, Progress c w (whenOk n result) c' w' entries := by
  cases encoded : n.encode with
  | error problem =>
    simp only [send, encoded] at run
    cases run
    exact ⟨[], .nothing c w⟩
  | ok bytes =>
    obtain ⟨entries, event, journal, moves, endpoint, sent⟩ := send_leaves net encoded run
    exact ⟨_, Progress.of_moves _ journal moves endpoint (by rw [sent, map_whenOk encoded])⟩

omit [Policy π] in
/-- What a close leaves behind, and where it leaves the client. -/
theorem close_leaves (lock : Lock) (c : Client π) (w : World σ) :
    (c.close net lock w).2.journal = w.journal ++ locked lock (c.manager.held.toList.map .shutDown) ∧
      Moves c.manager.endpoint c.manager.held w.connections (c.manager.held.toList.map .shutDown)
        (c.close net lock w).1.manager.held (c.close net lock w).2.connections ∧
      (c.close net lock w).1.manager.endpoint = c.manager.endpoint := by
  have leads := Manager.close_leads net c.manager (w.note (.locked lock))
  exact ⟨by simp [close, leads.journal, locked], leads.moves, leads.endpoint⟩

omit [Policy π] in
theorem close_progress (c : Client π) (w : World σ) :
    ∃ entries, Progress c w [] (c.close net .client w).1 (c.close net .client w).2 entries := by
  obtain ⟨journal, moves, endpoint⟩ := close_leaves net .client c w
  have idle : successes (c.manager.held.toList.map .shutDown) = [] := by cases c.manager.held <;> rfl
  exact ⟨_, Progress.of_moves [] (by simpa using journal) moves endpoint (by simp [idle])⟩

/-- A checker begins without a connection, and nobody listens to it. -/
theorem checker_begins (c : Client π) (w : World σ) :
    (c.checker net w).1.manager.held = none ∧ (c.checker net w).1.manager.listener = .nobody ∧
      (c.checker net w).2.journal = w.journal ++ locked .client [] ∧
      (c.checker net w).2.connections = w.connections :=
  ⟨rfl, rfl, List.append_assoc .., rfl⟩

/-- What a connection check leaves behind. The checker sends and closes under a lock of its own. -/
theorem testConnection_leaves {result : Except NetworkError Unit} (run : c.testConnection net w = (result, w')) :
    ∃ endpoint held next entries later held', Moves endpoint none w.connections entries held next ∧
      Moves endpoint held next later held' w'.connections ∧
      w'.journal = w.journal ++ (locked .client [] ++ (locked .check entries ++ locked .check later)) := by
  obtain ⟨bytes, encoded⟩ : ∃ bytes, (legacy [] []).encode = .ok bytes := ⟨_, rfl⟩
  obtain ⟨empty, nobody, journal₁, connections⟩ := checker_begins net c w
  rcases began : c.checker net w with ⟨check, w₁⟩
  rw [began] at empty nobody journal₁ connections
  rcases sent : check.send net .check (legacy [] []) w₁ with ⟨answer, check', w₂⟩
  obtain ⟨entries, event, journal, moves, endpoint, _⟩ := send_leaves net encoded sent
  obtain ⟨journal', moves', _⟩ := close_leaves net .check check' w₂
  have ends : w' = (check'.close net .check w₂).2 := by
    simp only [testConnection, began, sent] at run
    cases run
    rfl
  rw [empty, connections] at moves
  rw [endpoint, ← ends] at moves'
  refine ⟨_, _, _, entries, _, _, moves, moves', ?_⟩
  rw [ends, journal', journal, journal₁, nobody]
  simp [Listener.hears]

/-- A connection check leaves the client alone, and works with connections of its own. -/
theorem testConnection_progress {result : Except NetworkError Unit}
    (run : c.testConnection net w = (result, w')) : ∃ entries, Progress c w [] c w' entries := by
  obtain ⟨endpoint, held, next, entries, later, held', moves, moves', left⟩ := testConnection_leaves net run
  have splits := under_client_check moves.not_isLocking moves'.not_isLocking
  have own := splits []
  rw [List.nil_append] at own
  refine ⟨_, left, fun before => ?_, by rw [own]; rfl, fun intact => ?_⟩
  · rw [splits, own]
    simp [under]
  · exact intact.of_others (moves.trans moves') (splits _) (by simp)

omit [Policy π] in
/-- The client was only looked at. -/
theorem Progress.of_quiet (journal : w'.journal = w.journal ++ locked .client [])
    (connections : w'.connections = w.connections) : ∃ entries, Progress c w [] c w' entries := by
  refine ⟨_, .of_moves [] (by simpa using journal) ?_ rfl rfl⟩
  rw [connections]
  exact .nothing

omit [Policy π] in
theorem state_progress (c : Client π) (w : World σ) :
    ∃ entries, Progress c w [] c (c.state net .client w).2 entries := by
  obtain ⟨journal, connections⟩ := Manager.state_quiet net c.manager (w.note (.locked .client))
  exact Progress.of_quiet (by simp [state, journal, locked]) (by simp [state, connections])

mutual

/-- A call, with all that is asked from inside of it. -/
theorem perform_progress (c : Client π) (w : World σ) : (call : Call) →
    ∃ entries, Progress c w (call.delivered (c.perform net w call).1) (c.perform net w call).2.1
      (c.perform net w call).2.2 entries
  | .send n inside => by
    rcases sent : c.send net .client n w with ⟨result, c₁, w₁⟩
    obtain ⟨entries, first⟩ := send_progress net sent
    rw [perform]
    simp only [sent]
    split
    · obtain ⟨more, second⟩ := performAll_progress c₁ w₁ inside
      exact ⟨_, first.trans second⟩
    · have none : Call.deliveredAll inside [] = [] := by cases inside <;> rfl
      rw [Call.delivered, none, List.append_nil]
      exact ⟨entries, first⟩
  | .testConnection => by
    rcases tested : c.testConnection net w with ⟨result, w'⟩
    rw [perform]
    simp only [tested, Call.delivered]
    exact testConnection_progress net tested
  | .close => by
    rw [perform]
    exact close_progress net c w
  | .state => by
    rw [perform]
    exact state_progress net c w
  | .opened => by
    rw [perform]
    exact Progress.of_quiet (by simp [opened, locked]) rfl

theorem performAll_progress (c : Client π) (w : World σ) : (calls : List Call) →
    ∃ entries, Progress c w (Call.deliveredAll calls (c.performAll net w calls).1) (c.performAll net w calls).2.1
      (c.performAll net w calls).2.2 entries
  | [] => ⟨[], .nothing c w⟩
  | call :: calls => by
    obtain ⟨entries, first⟩ := perform_progress c w call
    obtain ⟨more, second⟩ := performAll_progress (c.perform net w call).2.1 (c.perform net w call).2.2 calls
    exact ⟨_, first.trans second⟩

end

variable (endpoint : Endpoint) (policy : π) (listener : Listener) (detection : Bool) (retry : Retry)

omit [Policy π] in
/-- Nothing has happened yet. -/
theorem Intact.fresh (w : World σ) :
    Intact w.connections { manager := { endpoint, policy, listener, detection }, retry } w [] where
  own := .nothing
  regular _ := Clean.regular (by simp [Clean])
  unused _ _ := rfl
  same _ _ := rfl

omit [Policy π] in
/-- What was written successfully to the connections of a client, read connection by connection. -/
theorem Intact.read_made (intact : Intact start c w run)
    (sent : (successes (under .client false run)).map .ok = ns.map encode) :
    (made (under .client false run)).flatMap (fun conn => readFrom (written conn run).flatten) = ns ∧
      ∀ conn, (decodeAll (written conn run).flatten).2 = none := by
  have whole (conn : Nat) := decodeAll_flatten fun bytes member => (intact.regular conn).written_whole member
  refine ⟨?_, fun conn => (whole conn).2⟩
  calc (made (under .client false run)).flatMap (fun conn => readFrom (written conn run).flatten)
      = (made (under .client false run)).flatMap
          (fun conn => (written conn (under .client false run)).flatMap readFrom) := by
        refine List.flatMap_congr fun conn member => ?_
        rw [(whole conn).1, written_congr (intact.same conn member)]
    _ = (successes (under .client false run)).flatMap readFrom := by
        rw [← List.flatMap_assoc, intact.own.flatMap_written]
    _ = ns := flatMap_readFrom sent

/-- The streams of a client, whatever is asked of it and whatever the network does. To every connection,
whole notifications are written, and behind them at most one write more, which fails. A send that succeeds
contributes one write that succeeds, and one that fails contributes none, so that reading what was written
to the client's own connections, from the first to the last, gives the notifications whose sends succeeded. -/
theorem streams_intact (w : World σ) (calls : List Call) :
    (∀ (lock : Lock) (n : Notification) (c : Client π) (v : World σ), ∃ entries,
      (c.send net lock n v).2.2.journal = v.journal ++ entries ∧
        (successes entries).map .ok = (whenOk n (c.send net lock n v).1).map encode) ∧
    ∃ answers c' w' run,
      ({ manager := { endpoint, policy, listener, detection }, retry } : Client π).performAll net w calls =
        (answers, c', w') ∧
      w'.journal = w.journal ++ run ∧
      (∀ conn, Regular (writes conn run)) ∧
      (successes (under .client false run)).map .ok = (Call.deliveredAll calls answers).map encode ∧
      (made (under .client false run)).Pairwise (· < ·) ∧
      (made (under .client false run)).flatMap (fun conn => readFrom (written conn run).flatten) =
        Call.deliveredAll calls answers ∧
      ∀ conn, (decodeAll (written conn run).flatten).2 = none := by
  refine ⟨send_contributes net, ?_⟩
  obtain ⟨run, progress⟩ := performAll_progress net
    { manager := { endpoint, policy, listener, detection }, retry } w calls
  have intact := progress.intact (.fresh endpoint policy listener detection retry w)
  rw [List.nil_append] at intact
  obtain ⟨read, nothingLeft⟩ := intact.read_made progress.sent
  exact ⟨_, _, _, run, rfl, progress.journal, intact.regular, progress.sent, intact.own.made_bounds.1, read,
    nothingLeft⟩

end Client
end PushGateway
