import PushGateway.Tunnel.Basic
import PushGateway.Proofs.Feedback.Filling
import PushGateway.Proofs.Monitor.Scripts

namespace PushGateway

/-- A buffer that was filled has taken just so many bytes. -/
theorem Inbound.after_of_fill {want : Nat} (positive : 0 < want) {inbound rest : Inbound} {bytes : Bytes}
    (filled : inbound.fill want = (.ok bytes, rest)) (full : bytes.length = want) :
    rest = inbound.after want := by
  induction inbound generalizing want bytes with
  | nil =>
    cases filled
    simp only [List.length_nil] at full
    omega
  | cons arrival later ih =>
    have some : want ≠ 0 := by omega
    cases arrival with
    | failure error closing =>
      simp only [fill, if_neg some] at filled
      split at filled
      · simpa only [after, if_neg some] using ih positive filled full
      · cases filled
    | ending =>
      simp only [fill, if_neg some] at filled
      cases filled
      simp only [List.length_nil] at full
      omega
    | bytes piece =>
      by_cases longer : want < piece.length
      · simp only [fill, if_neg some, if_pos longer] at filled
        cases filled
        simp only [after, if_neg some, if_pos longer]
      · rw [fill_bytes some (by omega)] at filled
        simp only [after, if_neg some, if_neg longer]
        rcases more : fill (want - piece.length) later with ⟨_ | further, behind⟩
        · simp [more, Except.map] at filled
        · simp only [more, Except.map, Prod.mk.injEq, Except.ok.injEq] at filled
          obtain ⟨rfl, rfl⟩ := filled
          rw [List.length_append] at full
          rcases Nat.eq_zero_or_pos (want - piece.length) with nothing | further
          · rw [nothing, fill_zero] at more
            cases more
            rw [nothing, after_zero]
          · exact ih further more (by omega)

namespace Peer

/-- It takes all that is written to it. A write may be interrupted, which is no failure. -/
structure TakesAll (peer : Peer) : Prop where
  unlimited : peer.limit = none
  interrupted : ∀ after error, peer.writeFailure = some (after, error) → error.kind = .interrupted

/-- It has sent `answer`, of which nothing is left, and in the meantime it has received `sent`. -/
structure Exchanged (peer : Peer) (answer sent : Bytes) (peer' : Peer) : Prop where
  content : peer.inbound.content = answer ++ peer'.inbound.content
  inbound : peer'.inbound = peer.inbound.after answer.length
  received : peer'.received = peer.received ++ sent
  takesAll : peer.TakesAll → peer'.TakesAll

theorem Exchanged.refl (peer : Peer) : peer.Exchanged [] [] peer :=
  ⟨rfl, (Inbound.after_zero _).symm, (List.append_nil _).symm, id⟩

theorem Exchanged.trans {peer peer' peer'' : Peer} {answer answer' sent sent' : Bytes}
    (first : peer.Exchanged answer sent peer') (second : peer'.Exchanged answer' sent' peer'') :
    peer.Exchanged (answer ++ answer') (sent ++ sent') peer'' where
  content := by rw [first.content, second.content, List.append_assoc]
  inbound := by rw [second.inbound, first.inbound, List.length_append, Inbound.after_add]
  received := by rw [second.received, first.received, List.append_assoc]
  takesAll := second.takesAll ∘ first.takesAll

theorem take_ok {peer peer' : Peer} {bytes : Bytes} (taken : peer.take bytes = (.ok (), peer')) :
    peer' = { peer with received := peer.received ++ bytes } := by
  unfold take at taken
  split at taken
  · cases taken
    rfl
  · simp only at taken
    split at taken
    · cases taken
    · cases taken
      rw [List.take_of_length_le (by omega)]

theorem writeAll_ok {peer peer' : Peer} {bytes : Bytes} (written : peer.writeAll bytes = (.ok (), peer')) :
    ∃ writeFailure, (writeFailure = peer.writeFailure ∨ writeFailure = none) ∧
      peer' = { peer with received := peer.received ++ bytes, writeFailure } := by
  unfold writeAll at written
  split at written
  · exact ⟨_, .inl rfl, take_ok written⟩
  rename_i after error _
  simp only at written
  split at written
  · exact ⟨_, .inl rfl, take_ok written⟩
  split at written
  · cases written
  rename_i first
  obtain rfl := take_ok first
  split at written
  · refine ⟨none, .inr rfl, ?_⟩
    rw [take_ok written]
    simp only [List.append_assoc, List.take_append_drop]
  · cases written

theorem TakesAll.writeAll {peer : Peer} (takes : peer.TakesAll) (bytes : Bytes) :
    (peer.writeAll bytes).1 = .ok () := by
  have take (peer : Peer) (unlimited : peer.limit = none) (bytes : Bytes) : (peer.take bytes).1 = .ok () := by
    simp only [Peer.take, unlimited]
  obtain ⟨unlimited, interrupted⟩ := takes
  unfold Peer.writeAll
  split
  · exact take peer unlimited bytes
  · rename_i after error plan
    simp only [interrupted after error plan, if_true]
    split
    · exact take peer unlimited bytes
    · simp only [Peer.take, unlimited]

theorem exchanged_of_writeAll {peer peer' : Peer} {bytes : Bytes} (written : peer.writeAll bytes = (.ok (), peer')) :
    peer.Exchanged [] bytes peer' := by
  obtain ⟨writeFailure, kept, rfl⟩ := writeAll_ok written
  refine ⟨rfl, (Inbound.after_zero _).symm, rfl, fun takes => ⟨takes.unlimited, fun after error plan => ?_⟩⟩
  rcases kept with rfl | rfl
  · exact takes.interrupted after error plan
  · cases plan

theorem readExactly_cases {want : Nat} (positive : 0 < want) (peer : Peer) :
    (∃ bytes peer', bytes.length = want ∧ peer.readExactly want = (.ok bytes, peer') ∧ peer.Exchanged bytes [] peer') ∨
      (peer.inbound.content.length < want ∧ ∃ cause peer', peer.readExactly want = (.error cause, peer')) := by
  have filled := peer.inbound.filled want
  rcases run : peer.inbound.fill want with ⟨answer, rest⟩
  rw [run] at filled
  simp only [readExactly, Inbound.readExactly, run]
  cases filled with
  | full enough left same =>
    have length : (peer.inbound.content.take want).length = want := List.length_take_of_le enough
    refine .inl ⟨_, { peer with inbound := rest }, length, by simp [length], ?_, ?_, (List.append_nil _).symm, ?_⟩
    · rw [left, List.take_append_drop]
    · rw [length]
      exact Inbound.after_of_fill positive run length
    · exact fun takes => ⟨takes.unlimited, takes.interrupted⟩
  | ended few => exact .inr ⟨few, .endedEarly, { peer with inbound := rest }, by simp [few]⟩
  | @failed error rest few => exact .inr ⟨few, error, { peer with inbound := rest }, rfl⟩

end Peer

/-- Whether bytes are written in this step. -/
def Tunnel.Stage.writes : Tunnel.Stage → Bool
  | connectRequest | greeting | authentication | socksRequest => true
  | connectResponse | greetingReply | authenticationReply | socksReply | boundAddress => false

def TunnelError.isWriteFailure : TunnelError → Bool
  | stream stage _ => stage.writes
  | _ => false

namespace Negotiation

/-- The answers of the far end on which a negotiation succeeds, with what comes of it and with what the far
end receives in the meantime. -/
abbrev Grammar (α : Type) := α → Bytes → Bytes → Prop

variable {α β : Type}

theorem run_bind (first : Negotiation α) (second : α → Negotiation β) (peer : Peer) :
    (first >>= second) peer =
      match first peer with
      | (.ok value, peer') => second value peer'
      | (.error error, peer') => (.error error, peer') := by
  have unfolded : (first >>= second) peer = ExceptT.bindCont second (first peer).1 (first peer).2 := rfl
  rw [unfolded]
  rcases first peer with ⟨_ | _, _⟩ <;> rfl

/-- What comes of a negotiation that goes by a grammar. -/
inductive Settled (grammar : Grammar α) (peer : Peer) : Except TunnelError α × Peer → Prop
  | agreed {value answer sent peer'} : grammar value answer sent → peer.Exchanged answer sent peer' →
      Settled grammar peer (.ok value, peer')
  /-- A write has failed. -/
  | broken {error peer'} : error.isWriteFailure = true → ¬ peer.TakesAll → Settled grammar peer (.error error, peer')
  | refused {error peer'} : error.isWriteFailure = false →
      (∀ value answer sent, grammar value answer sent → ¬ answer <+: peer.inbound.content) →
      Settled grammar peer (.error error, peer')

/-- It has come to its end because a write failed. -/
def WriteFailed (result : Except TunnelError α) : Prop := ∃ error, result = .error error ∧ error.isWriteFailure = true

/-- A negotiation that succeeds on just the answers of a grammar. No two of them begin the same content, and what
is sent goes by the answer. -/
structure GoesBy (negotiation : Negotiation α) (grammar : Grammar α) : Prop where
  settled : ∀ peer, Settled grammar peer (negotiation peer)
  unique : ∀ value value' {answer answer' sent sent' content}, grammar value answer sent →
    grammar value' answer' sent' → answer <+: content → answer' <+: content →
      value = value' ∧ answer = answer' ∧ sent = sent'

namespace Grammar

def nothing (value : α) : Grammar α := fun value' answer sent => value' = value ∧ answer = [] ∧ sent = []

def never : Grammar α := fun _ _ _ => False

def sends (bytes : Bytes) : Grammar Unit := fun _ answer sent => answer = [] ∧ sent = bytes

def gets (want : Nat) : Grammar Bytes := fun bytes answer sent => bytes.length = want ∧ answer = bytes ∧ sent = []

/-- One after the other. -/
def andThen (first : Grammar α) (second : α → Grammar β) : Grammar β := fun value answer sent =>
  ∃ between answer₁ sent₁ answer₂ sent₂, first between answer₁ sent₁ ∧ second between value answer₂ sent₂ ∧
    answer = answer₁ ++ answer₂ ∧ sent = sent₁ ++ sent₂

theorem sends_andThen {bytes : Bytes} {second : Unit → Grammar α} {value : α} {answer sent : Bytes} :
    andThen (sends bytes) second value answer sent ↔
      ∃ later, second () value answer later ∧ sent = bytes ++ later := by
  constructor
  · rintro ⟨_, _, _, answer₂, sent₂, ⟨rfl, rfl⟩, right, rfl, rfl⟩
    exact ⟨sent₂, right, rfl⟩
  · rintro ⟨later, right, rfl⟩
    exact ⟨(), [], bytes, answer, later, ⟨rfl, rfl⟩, right, rfl, rfl⟩

theorem gets_andThen {want : Nat} {second : Bytes → Grammar α} {value : α} {answer sent : Bytes} :
    andThen (gets want) second value answer sent ↔
      ∃ bytes later, bytes.length = want ∧ second bytes value later sent ∧ answer = bytes ++ later := by
  constructor
  · rintro ⟨_, _, _, answer₂, sent₂, ⟨length, rfl, rfl⟩, right, rfl, rfl⟩
    exact ⟨_, answer₂, length, right, rfl⟩
  · rintro ⟨bytes, later, length, right, rfl⟩
    exact ⟨bytes, bytes, [], later, sent, ⟨length, rfl, rfl⟩, right, rfl, rfl⟩

end Grammar

namespace GoesBy

open Grammar

theorem of_iff {negotiation : Negotiation α} {grammar grammar' : Grammar α} (goes : GoesBy negotiation grammar)
    (same : ∀ value answer sent, grammar' value answer sent ↔ grammar value answer sent) :
    GoesBy negotiation grammar' := by
  have equal : grammar' = grammar := by
    funext value answer sent
    exact propext (same value answer sent)
  exact equal ▸ goes

theorem pure (value : α) : GoesBy (pure value) (nothing value) where
  settled peer := .agreed ⟨rfl, rfl, rfl⟩ (.refl peer)
  unique := by
    rintro _ _ _ _ _ _ _ ⟨rfl, rfl, rfl⟩ ⟨rfl, rfl, rfl⟩ _ _
    exact ⟨rfl, rfl, rfl⟩

theorem throw (error : TunnelError) (other : error.isWriteFailure = false) :
    GoesBy (throw error : Negotiation α) never where
  settled _ := .refused other nofun
  unique := nofun

theorem write {stage : Tunnel.Stage} (writes : stage.writes = true) (bytes : Bytes) :
    GoesBy (write stage bytes) (sends bytes) where
  settled peer := by
    rcases written : peer.writeAll bytes with ⟨cause | _, peer'⟩
    · have run : Negotiation.write stage bytes peer = (.error (.stream stage cause), peer') := by
        simp only [Negotiation.write, written]
      rw [run]
      refine .broken writes fun takes => ?_
      have taken := takes.writeAll bytes
      rw [written] at taken
      cases taken
    · have run : Negotiation.write stage bytes peer = (.ok (), peer') := by
        simp only [Negotiation.write, written]
      rw [run]
      exact .agreed ⟨rfl, rfl⟩ (Peer.exchanged_of_writeAll written)
  unique := by
    rintro _ _ _ _ _ _ _ ⟨rfl, rfl⟩ ⟨rfl, rfl⟩ _ _
    exact ⟨rfl, rfl, rfl⟩

theorem readExactly {stage : Tunnel.Stage} (reads : stage.writes = false) {want : Nat} (positive : 0 < want) :
    GoesBy (readExactly stage want) (gets want) where
  settled peer := by
    rcases peer.readExactly_cases positive with ⟨bytes, peer', length, read, exchanged⟩ | ⟨few, cause, peer', read⟩
    · have run : Negotiation.readExactly stage want peer = (.ok bytes, peer') := by
        simp only [Negotiation.readExactly, read]
      rw [run]
      exact .agreed ⟨length, rfl, rfl⟩ exchanged
    · have run : Negotiation.readExactly stage want peer = (.error (.stream stage cause), peer') := by
        simp only [Negotiation.readExactly, read]
      rw [run]
      refine .refused reads ?_
      rintro bytes _ _ ⟨length, rfl, rfl⟩ begins
      have := begins.length_le
      omega
  unique := by
    rintro _ _ _ _ _ _ _ ⟨length, rfl, rfl⟩ ⟨length', rfl, rfl⟩ begins begins'
    have same := List.prefix_of_prefix_length_le begins begins' (Nat.le_of_eq (length.trans length'.symm))
    have equal := same.eq_of_length (length.trans length'.symm)
    exact ⟨equal, equal, rfl⟩

/-- Negotiations one after the other. Where the first has succeeded, no other answer to it could have begun
what the far end sends, so that the second decides. -/
theorem bind {first : Negotiation α} {second : α → Negotiation β} {g : Grammar α} {h : α → Grammar β}
    (goes : GoesBy first g) (goesOn : ∀ value answer sent, g value answer sent → GoesBy (second value) (h value)) :
    GoesBy (first >>= second) (g.andThen h) where
  settled peer := by
    rw [run_bind]
    have before := goes.settled peer
    rcases outcome : first peer with ⟨answer, peer'⟩
    rw [outcome] at before
    cases before with
    | broken failure takes => exact .broken failure takes
    | refused other none =>
      refine .refused other ?_
      rintro _ _ _ ⟨between, answer₁, sent₁, answer₂, sent₂, left, _, rfl, rfl⟩ begins
      exact none between answer₁ sent₁ left ((List.prefix_append answer₁ answer₂).trans begins)
    | @agreed value answer sent _ agrees exchanged =>
      have behind := (goesOn value answer sent agrees).settled peer'
      simp only
      rcases outcome' : second value peer' with ⟨answer', peer''⟩
      rw [outcome'] at behind
      cases behind with
      | agreed agrees' exchanged' =>
        exact .agreed ⟨_, _, _, _, _, agrees, agrees', rfl, rfl⟩ (exchanged.trans exchanged')
      | broken failure takes => exact .broken failure (takes ∘ exchanged.takesAll)
      | refused other none =>
        refine .refused other ?_
        rintro result _ _ ⟨between, answer₁, sent₁, answer₂, sent₂, left, right, rfl, rfl⟩ begins
        have begins₁ := (List.prefix_append answer₁ answer₂).trans begins
        obtain ⟨rfl, rfl, _⟩ := goes.unique _ _ agrees left ⟨_, exchanged.content.symm⟩ begins₁
        rw [exchanged.content, List.prefix_append_right_inj] at begins
        exact none result answer₂ sent₂ right begins
  unique := by
    rintro value value' _ _ _ _ content ⟨between, answer₁, sent₁, answer₂, sent₂, left, right, rfl, rfl⟩
      ⟨between', answer₁', sent₁', answer₂', sent₂', left', right', rfl, rfl⟩ ⟨rest, split⟩ begins'
    have begins₁' := (List.prefix_append answer₁' answer₂').trans begins'
    rw [List.append_assoc] at split
    obtain ⟨rfl, rfl, rfl⟩ := goes.unique _ _ left left' ⟨_, split⟩ begins₁'
    rw [← split, List.prefix_append_right_inj] at begins'
    obtain ⟨rfl, rfl, rfl⟩ := (goesOn _ _ _ left).unique _ _ right right' ⟨rest, rfl⟩ begins'
    exact ⟨rfl, rfl, rfl⟩

theorem throw_bind (error : TunnelError) (other : error.isWriteFailure = false) (second : α → Negotiation β) :
    GoesBy (MonadExcept.throw error >>= second) never where
  settled _ := .refused other nofun
  unique := nofun

/-- A negotiation that is given up under a condition. -/
theorem guarded {condition : Prop} [Decidable condition] {refusal negotiation : Negotiation α} {grammar : Grammar α}
    (refuses : GoesBy refusal never) (goes : ¬ condition → GoesBy negotiation grammar) :
    GoesBy (if condition then refusal else negotiation)
      fun value answer sent => ¬ condition ∧ grammar value answer sent := by
  split
  · rename_i holds
    exact refuses.of_iff fun _ _ _ => iff_of_false (fun both => both.1 holds) id
  · rename_i fails
    exact (goes fails).of_iff fun _ _ _ => and_iff_right fails

end GoesBy
end Negotiation
end PushGateway
