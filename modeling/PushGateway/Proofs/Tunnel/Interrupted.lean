import PushGateway.Tunnel.Socks
import PushGateway.Proofs.Feedback.Interrupted
import PushGateway.Proofs.Tunnel.Response

namespace PushGateway

namespace Peer

/-- The same far end, with interruptions in what it sends. -/
inductive Interrupted (peer : Peer) : Peer → Prop
  | sends {inbound' : Inbound} : peer.inbound.Interrupted inbound' →
      Interrupted peer { peer with inbound := inbound' }

variable {peer peer' : Peer}

theorem Interrupted.inbound (same : peer.Interrupted peer') : peer.inbound.Interrupted peer'.inbound := by
  obtain ⟨left⟩ := same
  exact left

theorem outcome_of_alike {α : Type} {run run' : α × Peer} (alike : Alike Interrupted run run') :
    run'.1 = run.1 ∧ run'.2.received = run.2.received ∧ run'.2.inbound.remaining = run.2.inbound.remaining := by
  obtain ⟨same⟩ := alike
  obtain ⟨left⟩ := same
  exact ⟨rfl, rfl, left.remaining⟩

theorem Interrupted.take (same : peer.Interrupted peer') (bytes : Bytes) :
    Alike Interrupted (peer.take bytes) (peer'.take bytes) := by
  obtain ⟨left⟩ := same
  unfold Peer.take
  cases peer.limit with
  | none => exact .answers (.sends left)
  | some limit =>
    simp only
    split
    · exact .answers (.sends left)
    · exact .answers (.sends left)

theorem Interrupted.writeAll (same : peer.Interrupted peer') (bytes : Bytes) :
    Alike Interrupted (peer.writeAll bytes) (peer'.writeAll bytes) := by
  have whole := same.take bytes
  have plan : peer'.writeFailure = peer.writeFailure := by cases same; rfl
  have received : peer'.received = peer.received := by cases same; rfl
  unfold Peer.writeAll
  rw [plan, received]
  cases peer.writeFailure with
  | none => exact whole
  | some failure =>
    simp only
    split
    · exact whole
    have first := same.take (bytes.take (failure.1 - peer.received.length))
    generalize peer.take (bytes.take (failure.1 - peer.received.length)) = run,
      peer'.take (bytes.take (failure.1 - peer.received.length)) = run' at first ⊢
    cases first with
    | @answers answer stopped stopped' left =>
      cases answer with
      | error short => exact .answers left
      | ok room =>
        have again : Interrupted { stopped with writeFailure := none } { stopped' with writeFailure := none } := by
          obtain ⟨left⟩ := left
          exact .sends left
        simp only
        split
        · exact again.take _
        · exact .answers again

theorem Interrupted.flush (same : peer.Interrupted peer') : Alike Interrupted peer.flush peer'.flush := by
  obtain ⟨left⟩ := same
  unfold Peer.flush
  simp only
  split
  · exact .answers (.sends left)
  · exact .answers (.sends left)

theorem Interrupted.readExactly (same : peer.Interrupted peer') (want : Nat) :
    Alike Interrupted (peer.readExactly want) (peer'.readExactly want) := by
  obtain ⟨left⟩ := same
  have read := left.readExactly want
  unfold Peer.readExactly
  simp only
  generalize peer.inbound.readExactly want = run at read ⊢
  generalize Inbound.readExactly want _ = run' at read ⊢
  cases read with
  | answers left => exact .answers (.sends left)

end Peer

namespace Negotiation

/-- A negotiation on which interruptions make no difference. -/
structure Interruptible {α : Type} (negotiation : Negotiation α) : Prop where
  alike : ∀ {peer peer'}, peer.Interrupted peer' → Alike Peer.Interrupted (negotiation peer) (negotiation peer')

namespace Interruptible

variable {α β : Type}

theorem pure (value : α) : Interruptible (pure value) := ⟨.answers⟩

theorem throw (error : TunnelError) : Interruptible (throw error : Negotiation α) := ⟨.answers⟩

theorem throw_bind (error : TunnelError) (second : α → Negotiation β) :
    Interruptible (MonadExcept.throw error >>= second) := ⟨.answers⟩

/-- It is enough that what happens to the far end is not disturbed. The stage only gives a name to an error. -/
theorem of_stage (stage : Tunnel.Stage) {negotiation : Negotiation α} {act : Peer → Except IoError α × Peer}
    (acts : ∀ peer, negotiation peer = ((act peer).1.mapError (.stream stage), (act peer).2))
    (alike : ∀ {peer peer'}, peer.Interrupted peer' → Alike Peer.Interrupted (act peer) (act peer')) :
    Interruptible negotiation := by
  refine ⟨fun {peer peer'} same => ?_⟩
  rw [acts, acts]
  exact (alike same).map _

theorem write (stage : Tunnel.Stage) (bytes : Bytes) : Interruptible (write stage bytes) := by
  refine of_stage stage (fun peer => ?_) fun same => same.writeAll bytes
  unfold Negotiation.write
  rcases peer.writeAll bytes with ⟨_ | _, _⟩ <;> rfl

theorem readExactly (stage : Tunnel.Stage) (want : Nat) : Interruptible (readExactly stage want) := by
  refine of_stage stage (fun peer => ?_) fun same => same.readExactly want
  unfold Negotiation.readExactly
  rcases peer.readExactly want with ⟨_ | _, _⟩ <;> rfl

theorem bind {first : Negotiation α} {second : α → Negotiation β} (interruptible : Interruptible first)
    (further : ∀ value, Interruptible (second value)) : Interruptible (first >>= second) := by
  refine ⟨fun {peer peer'} same => ?_⟩
  have before := interruptible.alike same
  rw [run_bind, run_bind]
  generalize first peer = run, first peer' = run' at before ⊢
  cases before with
  | @answers answer _ _ left =>
    cases answer with
    | error error => exact .answers left
    | ok value => exact (further value).alike left

theorem ite {condition : Prop} [Decidable condition] {first second : Negotiation α} (left : Interruptible first)
    (right : Interruptible second) : Interruptible (if condition then first else second) := by
  split
  · exact left
  · exact right

end Interruptible
end Negotiation

namespace Tunnel

open Negotiation

theorem interruptible_authenticate (credentials : Credentials) : Interruptible (authenticate credentials) := by
  unfold authenticate
  refine .ite (.throw_bind _ _) (.ite (.throw_bind _ _) (.bind (.write _ _) fun _ =>
    .bind (.readExactly _ _) fun status => ?_))
  split
  · exact .pure ()
  · exact .throw _

theorem interruptible_agreeOnMethod (credentials : Option Credentials) : Interruptible (agreeOnMethod credentials) := by
  have disagreement (method : UInt8) : Interruptible (if method = rejectedMethods then throw .noCommonMethod
      else throw (.unsupportedMethod method) : Negotiation Unit) := .ite (.throw _) (.throw _)
  unfold agreeOnMethod
  refine .bind (.write _ _) fun _ => .bind (.readExactly _ _) fun reply => ?_
  split
  · rename_i version method
    refine .ite (.throw_bind _ _) (.ite (.pure ()) ?_)
    cases credentials with
    | none => exact disagreement method
    | some credentials => exact .ite (interruptible_authenticate credentials) (disagreement method)
  · exact .throw _

theorem interruptible_addressLength (type : UInt8) : Interruptible (addressLength type) := by
  unfold addressLength
  refine .ite (.pure 4) (.ite (.pure 16) (.ite (.bind (.readExactly _ _) fun bytes => ?_) (.throw _)))
  split
  · exact .pure _
  · exact .throw _

theorem interruptible_socksConnect (host : String) (port : UInt16) (credentials : Option Credentials) :
    Interruptible (socksConnect host port credentials) := by
  unfold socksConnect
  refine .bind (interruptible_agreeOnMethod credentials) fun _ => .ite (.throw_bind _ _) (.bind (.write _ _) fun _ =>
    .bind (.readExactly _ _) fun reply => ?_)
  split
  · rename_i version code reserved type
    exact .ite (.throw_bind _ _) (.bind (interruptible_addressLength type) fun length =>
      .bind (.readExactly _ _) fun _ => .pure ())
  · exact .throw _

/-- A response is read up to the first read that was put in to fail, as it is without. There it ends. -/
theorem readHeader_interrupted {inbound inbound' : Inbound} (same : inbound.Interrupted inbound') (left : Nat)
    (got : Bytes) :
    Alike Inbound.Interrupted (readHeader left got inbound) (readHeader left got inbound') ∨
      ∃ cause, cause.kind = .interrupted ∧
        (readHeader left got inbound').1 = .error (.stream .connectResponse cause) := by
  induction left generalizing got inbound inbound' with
  | zero => exact .inl (.answers same)
  | succ left ih =>
    rcases same.read Nat.one_pos with ⟨cause, rest, met, kind, _, _⟩ | ⟨alike, _⟩
    · exact .inr ⟨cause, kind, by rw [readHeader, met]⟩
    rw [readHeader, readHeader]
    generalize inbound.read 1 = run, inbound'.read 1 = run' at alike ⊢
    cases alike with
    | @answers answer rest rest' further =>
      rcases answer with cause | _ | ⟨b, more⟩
      · exact .inl (.answers further)
      · exact .inl (.answers further)
      · simp only
        split
        · exact .inl (.answers further)
        · exact ih further (b :: got)

/-- A read fails in this way before the response of a proxy is over. -/
structure Unanswered (inbound : Inbound) (cause : IoError) : Prop where
  halts : inbound.halt = some cause
  within : inbound.opening.length < responseLimit
  unended : ∀ count, ¬ EndsHeader (inbound.opening.take count)

theorem unended_at_start (bytes : Bytes) :
    ∀ count ≤ ([] : Bytes).length, ¬ EndsHeader ((([] : Bytes).reverse ++ bytes).take count) := by
  intro count upTo ends
  rw [Nat.le_zero.mp upTo] at ends
  exact absurd ends.length_le (by simp)

theorem Unanswered.readHeader {inbound : Inbound} {cause : IoError} (unanswered : Unanswered inbound cause) :
    readHeader responseLimit [] inbound =
      (.error (.stream .connectResponse cause), inbound.afterReads (inbound.opening.length + 1)) := by
  obtain ⟨halts, within, unended⟩ := unanswered
  rcases readHeader_cases responseLimit [] inbound (unended_at_start _) with
    ⟨more, _, first, _⟩ | ⟨enough, _, _⟩ | ⟨_, _, failed⟩
  · exact absurd first.ends (unended _)
  · exact absurd within (Nat.not_lt.mpr enough)
  · rw [failed, halts]
    rfl

theorem unanswered_of_failed {inbound : Inbound} {cause : IoError}
    (failed : (Tunnel.readHeader responseLimit [] inbound).1 = .error (.stream .connectResponse cause)) :
    Unanswered inbound cause := by
  rcases readHeader_cases responseLimit [] inbound (unended_at_start _) with
    ⟨_, _, _, header⟩ | ⟨_, _, header⟩ | ⟨few, unended, header⟩
  · rw [header] at failed
    cases failed
  · rw [header] at failed
    cases failed
  · rw [header] at failed
    cases halts : inbound.halt with
    | none =>
      rw [halts] at failed
      cases failed
    | some error =>
      rw [halts] at failed
      cases failed
      exact ⟨halts, few, unended⟩

/-- The request is heard with interruptions as it is without, or it is given up in the same way. -/
theorem heard_interrupted {peer peer' : Peer} (same : peer.Interrupted peer') (host : String) (port : UInt16) :
    (∃ heard heard', peer.Hears (Text.utf8 (connectRequest host port)) heard ∧
      peer'.Hears (Text.utf8 (connectRequest host port)) heard' ∧ heard.Interrupted heard') ∨
    Alike Peer.Interrupted (httpConnect host port peer) (httpConnect host port peer') := by
  have written := same.writeAll (Text.utf8 (connectRequest host port))
  simp only [httpConnect, run_bind, Negotiation.write, Negotiation.flush]
  rcases write : peer.writeAll (Text.utf8 (connectRequest host port)) with ⟨answer, after⟩
  rcases write' : peer'.writeAll (Text.utf8 (connectRequest host port)) with ⟨answer', after'⟩
  rw [write, write'] at written
  cases written with
  | answers left =>
    cases answer with
    | error cause => exact .inr (.answers left)
    | ok done =>
      have flushed := left.flush
      rcases flush : after.flush with ⟨answer, heard⟩
      rcases flush' : after'.flush with ⟨answer', heard'⟩
      rw [flush, flush'] at flushed
      cases flushed with
      | answers left =>
        cases answer with
        | error cause =>
          simp only [flush, flush']
          exact .inr (.answers left)
        | ok done => exact .inl ⟨heard, heard', ⟨after, write, flush⟩, ⟨after', write', flush'⟩, left⟩

/-- A proxy has heard the request, but a read of its response is interrupted before that is over. -/
structure CutOff (request : Bytes) (peer : Peer) (cause : IoError) : Prop where
  kind : cause.kind = .interrupted
  heard : ∃ heard, peer.Hears request heard
  unanswered : Unanswered peer.inbound cause

theorem CutOff.httpConnect {host : String} {port : UInt16} {peer : Peer} {cause : IoError}
    (cutOff : CutOff (Text.utf8 (connectRequest host port)) peer cause) :
    ((httpConnect host port).against peer).1 = .error (.stream .connectResponse cause) ∧
      peer.inbound.remaining = peer.inbound.opening ++ ((httpConnect host port).against peer).2.inbound.remaining := by
  obtain ⟨heard, hears⟩ := cutOff.heard
  have left := Inbound.remaining_afterReads (Nat.le_refl (peer.inbound.opening.length + 1))
  rw [List.take_of_length_le (Nat.le_succ _)] at left
  rw [httpConnect_of_hears hears, cutOff.unanswered.readHeader]
  exact ⟨rfl, left⟩

/-- The first read of a response may be the one that is interrupted. -/
theorem cutOff_at_once {cause : IoError} (kind : cause.kind = .interrupted) (request : Bytes) (later : Inbound) :
    CutOff request { inbound := .failure cause false :: later } cause where
  kind := kind
  heard := ⟨{ inbound := .failure cause false :: later, received := request }, _, rfl, rfl⟩
  unanswered := by
    refine ⟨rfl, by simp [Inbound.opening, responseLimit], fun count ends => ?_⟩
    have short := ends.length_le
    simp [Inbound.opening] at short

/-- The response of a proxy is taken in the same way with interruptions as without, unless it is cut off. -/
theorem httpConnect_interrupted {peer peer' : Peer} (same : peer.Interrupted peer') (host : String) (port : UInt16) :
    Alike Peer.Interrupted ((httpConnect host port).against peer) ((httpConnect host port).against peer') ∨
      ((∃ cause, CutOff (Text.utf8 (connectRequest host port)) peer' cause) ∧
        ((httpConnect host port).against peer').2.received = ((httpConnect host port).against peer).2.received) := by
  rcases heard_interrupted same host port with ⟨heard, heard', hears, hears', left⟩ | alike
  · rcases readHeader_interrupted same.inbound responseLimit [] with header | ⟨cause, kind, failed⟩
    · rw [httpConnect_of_hears hears, httpConnect_of_hears hears']
      generalize readHeader responseLimit [] peer.inbound = response,
        readHeader responseLimit [] peer'.inbound = response' at header ⊢
      cases header with
      | answers further =>
        obtain ⟨_⟩ := left
        exact .inl (.answers (.sends further))
    · refine .inr ⟨⟨cause, kind, ⟨heard', hears'⟩, unanswered_of_failed failed⟩, ?_⟩
      rw [httpConnect_of_hears hears, httpConnect_of_hears hears']
      obtain ⟨_⟩ := left
      rfl
  · exact .inl alike

end Tunnel

end PushGateway
