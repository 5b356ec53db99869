import Mathlib.Data.List.Nodup
import Mathlib.Logic.Relation
import PushGateway.Delivery.Service
import PushGateway.Memory.Network
import PushGateway.Proofs.Delivery.Accounts
import PushGateway.Proofs.Wire.Stream

namespace PushGateway

section counter
variable {σ π : Type} [Policy π] (net : Network σ)

namespace World

@[simp] theorem identifier_tell (listener : Listener) (event : Event) (w : World σ) :
    (w.tell listener event).identifier = w.identifier := by
  cases listener <;> rfl

theorem identifier_write (conn : Nat) (bytes : Bytes) (w : World σ) :
    (w.write net conn bytes).2.identifier = w.identifier := by
  rcases w.write_cases net conn bytes with ⟨_, wrote⟩ | ⟨_, _, failed⟩
  · rw [wrote]
    rfl
  · rw [failed]
    rfl

end World

namespace Manager

omit [Policy π] in
theorem identifier_close (m : Manager π) (w : World σ) : (m.close net w).2.identifier = w.identifier := by
  obtain ⟨outside, closed⟩ := close_outcome net m w
  rw [closed]

omit [Policy π] in
theorem identifier_state (m : Manager π) (w : World σ) : (m.state net w).2.identifier = w.identifier := by
  unfold state
  split
  · split <;> rename_i asked <;> exact congrArg (·.2.identifier) asked.symm
  · rfl
  · rfl

theorem identifier_acquire (m : Manager π) (w : World σ) :
    (m.acquire net w).2.2.identifier = w.identifier := by
  have outcome := acquire_acquired net m w
  rcases run : m.acquire net w with ⟨answer, m', w'⟩
  rw [run] at outcome
  cases outcome <;> rfl

theorem identifier_attempt (m : Manager π) (bytes : Bytes) (w : World σ) :
    (m.attempt net bytes w).2.2.identifier = w.identifier := by
  have acquired := identifier_acquire net m w
  unfold attempt
  split
  · rename_i run
    rwa [run] at acquired
  · rename_i conn _ w₁ run
    rw [run] at acquired
    have written := w₁.identifier_write net conn bytes
    split <;> rename_i wrote <;> rw [wrote] at written <;> exact written.trans acquired

theorem identifier_deliver (bytes : Bytes) (delay : Duration) (left made : Nat) (m : Manager π) (w : World σ) :
    (m.deliver net bytes delay left made w).2.2.identifier = w.identifier := by
  induction left generalizing made m w with
  | zero =>
    have attempted := identifier_attempt net m bytes w
    rcases run : m.attempt net bytes w with ⟨_ | _, m₁, w₁⟩ <;> rw [run] at attempted <;> rw [deliver, run]
    · exact (identifier_close net m₁ w₁).trans attempted
    · exact attempted
  | succ left ih =>
    have attempted := identifier_attempt net m bytes w
    rcases run : m.attempt net bytes w with ⟨_ | _, m₁, w₁⟩ <;> rw [run] at attempted <;> rw [deliver, run]
    · have closed := (identifier_close net m₁ w₁).trans attempted
      simp only
      rw [ih]
      split
      · exact closed
      · exact closed
    · exact attempted

end Manager

namespace Client

theorem identifier_send (lock : Lock) (n : Notification) (c : Client π) (w : World σ) :
    (c.send net lock n w).2.2.identifier = w.identifier := by
  unfold send
  split
  · rfl
  · rename_i bytes _
    exact (World.identifier_tell ..).trans
      (Manager.identifier_deliver net bytes c.retry.delay (c.retry.attempts - 1) 0 c.manager _)

omit [Policy π] in
theorem identifier_close (lock : Lock) (c : Client π) (w : World σ) :
    (c.close net lock w).2.identifier = w.identifier :=
  Manager.identifier_close net c.manager (w.note (.locked lock))

theorem identifier_testConnection (c : Client π) (w : World σ) :
    (c.testConnection net w).2.identifier = w.identifier := by
  rcases began : c.checker net w with ⟨check, w₁⟩
  rcases sent : check.send net .check (.legacy [] []) w₁ with ⟨result, check', w₂⟩
  have checked : w₁.identifier = w.identifier := congrArg (·.2.identifier) began.symm
  have left := identifier_send net .check (.legacy [] []) check w₁
  rw [sent] at left
  simp only [testConnection, began, sent]
  exact (identifier_close net .check check' w₂).trans (left.trans checked)

mutual

theorem identifier_perform (c : Client π) (w : World σ) : (call : Call) →
    (c.perform net w call).2.2.identifier = w.identifier
  | .send n inside => by
    have sent := identifier_send net .client n c w
    rw [perform]
    simp only
    split
    · exact (identifier_performAll _ _ inside).trans sent
    · exact sent
  | .testConnection => by
    rw [perform]
    exact identifier_testConnection net c w
  | .close => by
    rw [perform]
    exact identifier_close net .client c w
  | .state => by
    rw [perform]
    exact Manager.identifier_state net c.manager (w.note (.locked .client))
  | .opened => by
    rw [perform]
    rfl

/-- None of the calls that can be made on a client draws an identifier. -/
theorem identifier_performAll (c : Client π) (w : World σ) : (calls : List Call) →
    (c.performAll net w calls).2.2.identifier = w.identifier
  | [] => rfl
  | call :: calls => by
    rw [performAll]
    exact (identifier_performAll _ _ calls).trans (identifier_perform c w call)

end

end Client
end counter

namespace Service

variable {σ : Type} (net : Network σ)

theorem identifier_push (n : Notification) (inside : List Call) (s : Service) (w : World σ) :
    (s.push net n inside w).2.2.2.identifier = w.identifier := by
  have called := Client.identifier_perform net s.client w (.send n inside)
  rwa [Client.perform_send] at called

theorem pushTo_of_bad_draft {token : String} {payload : Bytes} {w : World σ} {problem : HexError}
    (refused : (w.draft token payload).1 = .error problem) (inside : List Call) (s : Service) :
    s.pushTo net token payload inside w =
      (.error (.network (.ofHex problem)), [], s, (w.draft token payload).2) := by
  rcases draft : w.draft token payload with ⟨_, w₁⟩
  rw [draft] at refused
  cases refused
  rw [pushTo, draft]

/-- A push to a token is a push of what was drafted. -/
theorem pushTo_of_draft {token : String} {payload : Bytes} {w : World σ} {n : Notification}
    (drafted : (w.draft token payload).1 = .ok n) (inside : List Call) (s : Service) :
    s.pushTo net token payload inside w =
      let (result, answers, s, w) := s.push net n inside (w.draft token payload).2
      (result.map fun _ => n, answers, s, w) := by
  rcases draft : w.draft token payload with ⟨_, w₁⟩
  rw [draft] at drafted
  cases drafted
  rw [pushTo, draft]
  simp only
  rcases s.push net n inside w₁ with ⟨_ | _, answers, s', w₂⟩ <;> rfl

theorem draft_of_pushTo {token : String} {payload : Bytes} {inside : List Call} {s : Service} {w : World σ}
    {n : Notification} (sent : (s.pushTo net token payload inside w).1 = .ok n) :
    (w.draft token payload).1 = .ok n := by
  cases drafted : (w.draft token payload).1 with
  | error problem =>
    rw [pushTo_of_bad_draft net drafted] at sent
    cases sent
  | ok other =>
    rw [pushTo_of_draft net drafted] at sent
    rcases pushed : s.push net other inside (w.draft token payload).2 with ⟨_ | _, answers, s', w'⟩ <;>
      rw [pushed] at sent <;> cases sent
    rfl

end Service

/-- A process, whose services share one counter, with the number of identifiers that were drawn and the notifications
that pushes to tokens have made, in the order of their draws. -/
structure Process (σ : Type) where
  world : World σ
  draws : Nat := 0
  made : List Notification := []

namespace Process

variable {σ : Type}

/-- An identifier is drawn, and whoever has asked for it may keep it. -/
def draw (p : Process σ) : Process σ := { p with world := p.world.drawIdentifier.2, draws := p.draws + 1 }

/-- A push to a token begins. -/
def begin (token : String) (payload : Bytes) (p : Process σ) : Process σ :=
  { p.draw with made := p.made ++ (p.world.draft token payload).1.toOption.toList }

/-- The next thing that happens in a process, in whichever of its threads. -/
inductive Next : Process σ → Process σ → Prop
  | draws (p) : Next p p.draw
  | begins (p) (token : String) (payload : Bytes) : Next p (p.begin token payload)
  /-- A push goes on that has begun, a service is asked for something else, or something happens in a network. -/
  | elsewhere (p : Process σ) {w : World σ} : w.identifier = p.world.identifier → Next p { p with world := w }

abbrev Leads : Process σ → Process σ → Prop := Relation.ReflTransGen Next

/-- Which draws the notifications have their identifiers from, where `first` was drawn first. -/
structure Kept (first : UInt32) (p : Process σ) : Prop where
  counter : p.world.identifier = first + UInt32.ofNat p.draws
  ranks : ∃ ranks : List Nat, ranks.Pairwise (· < ·) ∧ (∀ rank ∈ ranks, rank < p.draws) ∧
    p.made.map Notification.format =
      ranks.map fun rank => .enhanced (first + UInt32.ofNat rank) Notification.noExpiry

namespace Kept

variable {first : UInt32} {p p' : Process σ}

theorem draw (kept : p.Kept first) : p.draw.Kept first := by
  obtain ⟨ranks, sorted, below, formats⟩ := kept.ranks
  refine ⟨?_, ranks, sorted, fun rank member => Nat.lt_succ_of_lt (below rank member), formats⟩
  have next : p.draw.world.identifier = p.world.identifier + 1 := rfl
  rw [next, kept.counter, UInt32.add_assoc]
  exact congrArg (first + ·) (UInt32.ofNat_add p.draws 1).symm

theorem begin (kept : p.Kept first) (token : String) (payload : Bytes) : (p.begin token payload).Kept first := by
  have drawn := kept.draw
  cases drafted : (p.world.draft token payload).1 with
  | error problem =>
    have same : p.begin token payload = p.draw := by
      simp [Process.begin, drafted, Process.draw, Except.toOption]
    rwa [same]
  | ok n =>
    obtain ⟨ranks, sorted, below, formats⟩ := kept.ranks
    have format : n.format = .enhanced (first + UInt32.ofNat p.draws) Notification.noExpiry := by
      rw [World.draft_fst, Notification.forHexToken] at drafted
      split at drafted <;> cases drafted
      rw [← kept.counter]
    have made : (p.begin token payload).made = p.made ++ [n] := by simp [Process.begin, drafted, Except.toOption]
    refine ⟨drawn.counter, ranks ++ [p.draws], ?_, ?_, ?_⟩
    · rw [List.pairwise_append]
      refine ⟨sorted, List.pairwise_singleton _ _, fun old member new isNew => ?_⟩
      rw [List.mem_singleton.mp isNew]
      exact below old member
    · intro rank member
      rcases List.mem_append.mp member with old | new
      · exact Nat.lt_succ_of_lt (below rank old)
      · rw [List.mem_singleton.mp new]
        exact Nat.lt_succ_self p.draws
    · rw [made, List.map_append, List.map_append, formats, List.map_singleton, List.map_singleton, format]

theorem next (kept : p.Kept first) (next : Next p p') : p'.Kept first := by
  cases next with
  | draws => exact kept.draw
  | begins token payload => exact kept.begin token payload
  | elsewhere same => exact ⟨same.trans kept.counter, kept.ranks⟩

theorem leads (kept : p.Kept first) (leads : Leads p p') : p'.Kept first := by
  induction leads with
  | refl => exact kept
  | tail _ next ih => exact ih.next next

/-- The counter comes back to an identifier after 2^32 draws and not before. -/
theorem distinct (kept : p.Kept first) (few : p.draws ≤ 4294967296) :
    (p.made.map fun n => n.format.identifier?).Nodup := by
  obtain ⟨ranks, sorted, below, formats⟩ := kept.ranks
  have identifiers : (p.made.map fun n => n.format.identifier?) =
      ranks.map fun rank => some (first + UInt32.ofNat rank) := by
    have seen := congrArg (List.map Notification.Format.identifier?) formats
    rwa [List.map_map, List.map_map] at seen
  rw [identifiers]
  refine List.Nodup.map_on ?_ (sorted.imp Nat.ne_of_lt)
  intro rank member other member' same
  have equal : UInt32.ofNat rank = UInt32.ofNat other := by
    have sum := Option.some.inj same
    simpa using sum
  have lt := below rank member
  have lt' := below other member'
  have numbers := congrArg UInt32.toNat equal
  rwa [UInt32.toNat_ofNat', UInt32.toNat_ofNat', Nat.mod_eq_of_lt (by omega), Nat.mod_eq_of_lt (by omega)] at numbers

theorem format (kept : p.Kept first) {n : Notification} (member : n ∈ p.made) :
    ∃ identifier, n.format = .enhanced identifier Notification.noExpiry := by
  obtain ⟨ranks, _, _, formats⟩ := kept.ranks
  have inside : n.format ∈ p.made.map Notification.format := List.mem_map_of_mem member
  rw [formats] at inside
  obtain ⟨rank, _, same⟩ := List.mem_map.mp inside
  exact ⟨_, same.symm⟩

end Kept

/-- A push to a token that nobody interrupts is one that begins and then goes on. -/
theorem pushTo_leads (net : Network σ) (s : Service) (token : String) (payload : Bytes) (inside : List Call)
    (p : Process σ) :
    Leads p { p.begin token payload with world := (s.pushTo net token payload inside p.world).2.2.2 } := by
  refine .tail (.single (.begins p token payload)) (.elsewhere _ ?_)
  have drawn : (p.begin token payload).world = (p.world.draft token payload).2 := rfl
  rw [drawn]
  cases drafted : (p.world.draft token payload).1 with
  | error problem => rw [s.pushTo_of_bad_draft net drafted]
  | ok n =>
    rw [s.pushTo_of_draft net drafted]
    exact Service.identifier_push net n inside s (p.world.draft token payload).2

end Process

/-- All that is written is this notification, and all that is told is what has become of it. -/
def Journal.About (n : Notification) (entries : List Entry) : Prop :=
  (∀ conn, ∀ write ∈ writes conn entries, n.encode = .ok write.1) ∧
    ∀ event ∈ told entries, event = .sent n ∨ ∃ error, event = .sendFailed n error

/-- A send is about its notification, whatever it comes to. -/
theorem Client.send_about {σ π : Type} [Policy π] (net : Network σ) (lock : Lock) (n : Notification) (c : Client π)
    (w : World σ) :
    ∃ entries, (c.send net lock n w).2.2.journal = w.journal ++ entries ∧ Journal.About n entries := by
  cases encoded : n.encode with
  | error problem => exact ⟨[], by simp [send, encoded], by simp [Journal.About]⟩
  | ok bytes =>
    obtain ⟨tries, event, outcome⟩ := send_outcome net lock c w encoded
    rcases run : c.send net lock n w with ⟨result, c', w'⟩
    rw [run] at outcome
    obtain ⟨entries, w₁, leads, after, _, _, all⟩ := outcome.leads net encoded
    refine ⟨Journal.locked lock entries ++ (c.manager.listener.hears event).map .told, ?_, ?_, ?_⟩
    · simp [after, leads.journal, Journal.locked]
    · intro conn write member
      rw [encoded, all.writes_only conn write (by simpa using member)]
    · intro heard member
      have told : heard ∈ c.manager.listener.hears event := by
        simpa [Journal.locked, leads.moves.told_eq_nil] using member
      have same : heard = event := by
        cases listener : c.manager.listener with
        | nobody => simp [listener, Listener.hears] at told
        | application => simpa [listener, Listener.hears] using told
      rw [same]
      exact outcome.names net

/-- The bytes of a notification with an identifier carry it behind the command. -/
theorem Notification.identifier_of_encode {n : Notification} {identifier expiry : UInt32} {bytes : Bytes}
    (format : n.format = .enhanced identifier expiry) (encoded : n.encode = .ok bytes) :
    (bytes.drop 1).take 4 = Bytes.ofWord32 identifier := by
  obtain ⟨_, _, rfl⟩ := encode_eq_ok_iff.mp encoded
  rw [Wire.layout, format]
  rfl

/-- One of several that can be told apart is found by what tells it apart. -/
theorem filter_eq_singleton {α β : Type} [DecidableEq β] {f : α → β} {xs : List α} {x : α}
    (distinct : (xs.map f).Nodup) (member : x ∈ xs) : xs.filter (fun y => f y = f x) = [x] := by
  induction xs with
  | nil => cases member
  | cons y ys ih =>
    obtain ⟨new, others⟩ := List.nodup_cons.mp distinct
    rcases List.mem_cons.mp member with rfl | later
    · have none : ys.filter (fun y => f y = f x) = [] := by
        rw [List.filter_eq_nil_iff]
        intro z inside same
        exact new (List.mem_map.mpr ⟨z, inside, of_decide_eq_true same⟩)
      rw [List.filter_cons_of_pos (by simp), none]
    · have other : f y ≠ f x := fun same => new (same ▸ List.mem_map_of_mem later)
      rw [List.filter_cons_of_neg (by simpa using other), ih others later]

/-- What the gateway says of a push can be brought back to it. However the threads of a process take turns, if at most
2^32 identifiers are drawn, the notifications that pushes to tokens make have different ones, and the bytes of each
carry its own behind the command. A rejection with these four bytes names this notification and no other. A push to a
token that is none is refused, and nothing is done but to draw the identifier. Any other push sends what it has made,
and nothing else is written for it or told of it, also if the send fails. -/
theorem pushes_told_apart {σ : Type} {w : World σ} {p : Process σ} (leads : Process.Leads { world := w } p)
    (few : p.draws ≤ 4294967296) :
    (p.made.map fun n => n.format.identifier?).Nodup ∧
    (∀ n ∈ p.made, ∃ identifier, n.format = .enhanced identifier Notification.noExpiry ∧
      ∀ bytes, n.encode = .ok bytes → (bytes.drop 1).take 4 = Bytes.ofWord32 identifier ∧
        ∀ status : UInt8, ∃ rejection,
          Rejection.ofFrame? (8 :: status :: (bytes.drop 1).take 4) = .ok rejection ∧
          rejection.status = .ofCode status ∧
          p.made.filter (fun other => other.format.identifier? = rejection.identifier) = [n]) ∧
    ∀ (net : Network σ) (s : Service) (token : String) (payload : Bytes) (inside : List Call),
      (∀ problem, Hex.decode token = .error problem →
        s.pushTo net token payload inside p.world =
          (.error (.network (.ofHex problem)), [], s,
            { p.world with identifier := p.world.identifier + 1 })) ∧
      ∃ p', Process.Leads p p' ∧ p'.world = (s.pushTo net token payload inside p.world).2.2.2 ∧
        p'.draws = p.draws + 1 ∧ p'.made = p.made ++ (p.world.draft token payload).1.toOption.toList ∧
        (∀ n, (s.pushTo net token payload inside p.world).1 = .ok n → (p.world.draft token payload).1 = .ok n) ∧
        ∀ n, (p.world.draft token payload).1 = .ok n →
          (s.pushTo net token payload inside p.world =
            let (result, answers, s, w) := s.push net n inside (p.world.draft token payload).2
            (result.map fun _ => n, answers, s, w)) ∧
          ∃ entries, (s.client.send net .client n (p.world.draft token payload).2).2.2.journal =
            p.world.journal ++ entries ∧ Journal.About n entries := by
  have kept := (⟨by simp, [], by simp⟩ : Process.Kept w.identifier { world := w }).leads leads
  have distinct := kept.distinct few
  refine ⟨distinct, fun n member => ?_, fun net s token payload inside => ⟨fun problem bad => ?_, ?_⟩⟩
  · obtain ⟨identifier, format⟩ := kept.format member
    refine ⟨identifier, format, fun bytes encoded => ?_⟩
    have carried := Notification.identifier_of_encode format encoded
    refine ⟨carried, fun status => ⟨⟨.ofCode status, some identifier⟩, ?_, rfl, ?_⟩⟩
    · rw [carried]
      exact Rejection.ofFrame?_frame status identifier
    · have found := filter_eq_singleton distinct member
      rwa [format] at found
  · exact s.pushTo_of_bad_draft net (by simp [World.draft_fst, Notification.forHexToken, bad]) inside
  · refine ⟨_, Process.pushTo_leads net s token payload inside p, rfl, rfl, rfl, fun n sent => ?_, fun n drafted => ?_⟩
    · exact Service.draft_of_pushTo net sent
    · exact ⟨s.pushTo_of_draft net drafted inside, s.client.send_about net .client n (p.world.draft token payload).2⟩

/-- The counter passes zero, and a push to a token that is none takes an identifier with it. -/
theorem pushes_told_apart_past_zero :
    let w : World Memory := { outside := {}, identifier := 4294967295 }
    let p := ((Process.begin "ab" [1] { world := w }).begin "xy" []).begin "cd" [2]
    p.draws ≤ 4294967296 ∧ p.made = [⟨.enhanced 4294967295 0, [171], [1]⟩, ⟨.enhanced 1 0, [205], [2]⟩] ∧
      (p.made.map fun n => n.format.identifier?).Nodup := by
  intro w p
  have leads : Process.Leads { world := w } p :=
    .tail (.tail (.single (.begins _ "ab" [1])) (.begins _ "xy" [])) (.begins _ "cd" [2])
  have few : p.draws ≤ 4294967296 := by decide
  exact ⟨few, by decide +kernel, (pushes_told_apart leads few).1⟩

end PushGateway
