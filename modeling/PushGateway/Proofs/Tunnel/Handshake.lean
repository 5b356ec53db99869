import PushGateway.Tunnel.Socks
import PushGateway.Proofs.Tunnel.Exchange

namespace PushGateway.Tunnel

open Negotiation Negotiation.Grammar

/-- A text in UTF-8 behind one byte that tells its length. -/
inductive Counted (text : String) : Bytes → Prop
  | behind {length : UInt8} : length.toNat = (Text.utf8 text).length → Counted text (length :: Text.utf8 text)

/-- How a proxy and a client agree on the way in which the client shows who it is: what the proxy sends, and
what it receives. It is offered a password only by a client that has one. -/
inductive Agreement : Option Credentials → (answer sent : Bytes) → Prop
  | unasked : Agreement none [5, 0] [5, 1, 0]
  | waived (credentials : Credentials) : Agreement (some credentials) [5, 0] [5, 2, 0, 2]
  | password {credentials : Credentials} {user password : Bytes} (version : UInt8) :
      Counted credentials.user user → Counted credentials.password password →
      Agreement (some credentials) [5, 2, version, 0] ([5, 2, 0, 2] ++ 1 :: (user ++ password))

/-- The address to which a proxy has bound the tunnel, by its type. -/
inductive BoundAddress : (type : UInt8) → Bytes → Prop
  | ipv4 {address : Bytes} : address.length = 4 → BoundAddress 1 address
  | ipv6 {address : Bytes} : address.length = 16 → BoundAddress 4 address
  | name {length : UInt8} {address : Bytes} : address.length = length.toNat → BoundAddress 3 (length :: address)

/-- A conversation in which a proxy opens a tunnel: what it sends, and what it receives. -/
inductive Handshake (host : String) (port : UInt16) (credentials : Option Credentials) :
    (answer sent : Bytes) → Prop
  | opened {agreement shown name address boundPort : Bytes} {version reserved type : UInt8} :
      Agreement credentials agreement shown → Counted host name → BoundAddress type address →
      boundPort.length = 2 →
      Handshake host port credentials (agreement ++ ([version, 0, reserved, type] ++ (address ++ boundPort)))
        (shown ++ ([5, 1, 0, 3] ++ name ++ Bytes.ofWord16 port))

theorem counted_iff {text : String} {bytes : Bytes} :
    Counted text bytes ↔ fitsShort text = true ∧ bytes = shortText text := by
  simp only [fitsShort, decide_eq_true_eq, shortText]
  constructor
  · rintro ⟨same⟩
    rename_i length
    have bound := length.toNat_lt
    refine ⟨by omega, ?_⟩
    rw [← same, UInt8.ofNat_toNat]
  · rintro ⟨fits, rfl⟩
    refine .behind ?_
    rw [UInt8.toNat_ofNat']
    omega

theorem authenticate_goesBy (credentials : Credentials) :
    GoesBy (authenticate credentials) fun _ answer sent => ∃ version user password,
      Counted credentials.user user ∧ Counted credentials.password password ∧ answer = [version, 0] ∧
        sent = 1 :: (user ++ password) := by
  unfold authenticate
  refine GoesBy.of_iff (.guarded (.throw_bind .userNameTooLong rfl _) fun _ =>
    .guarded (.throw_bind .passwordTooLong rfl _) fun _ =>
      .bind (.write rfl (passwordRequest credentials)) fun _ _ _ _ =>
        .bind (.readExactly rfl (by decide))
          (h := fun status _ answer sent => (∃ version, status = [version, 0]) ∧ answer = [] ∧ sent = [])
          fun status _ _ _ => ?_) ?_
  · split
    · exact (GoesBy.pure ()).of_iff fun _ _ _ => by simp [nothing]
    · rename_i other
      refine (GoesBy.throw _ rfl).of_iff fun _ _ _ => iff_of_false ?_ id
      rintro ⟨⟨version, same⟩, _⟩
      exact other version same
  intro _ answer sent
  simp only [counted_iff, sends_andThen, gets_andThen, Bool.not_eq_true', Bool.not_eq_false]
  constructor
  · rintro ⟨version, _, _, ⟨userFits, rfl⟩, ⟨passwordFits, rfl⟩, rfl, rfl⟩
    exact ⟨userFits, passwordFits, [], ⟨[version, 0], [], rfl, ⟨⟨version, rfl⟩, rfl, rfl⟩, rfl⟩,
      (List.append_nil _).symm⟩
  · rintro ⟨userFits, passwordFits, _, ⟨_, _, _, ⟨⟨version, rfl⟩, rfl, rfl⟩, rfl⟩, rfl⟩
    exact ⟨version, _, _, ⟨userFits, rfl⟩, ⟨passwordFits, rfl⟩, rfl, List.append_nil _⟩

theorem disagreement_goesBy (method : UInt8) :
    GoesBy (if method = rejectedMethods then throw .noCommonMethod else throw (.unsupportedMethod method) :
      Negotiation Unit) never := by
  split
  · exact .throw _ rfl
  · exact .throw _ rfl

theorem agreeOnMethod_goesBy (credentials : Option Credentials) :
    GoesBy (agreeOnMethod credentials) fun _ => Agreement credentials := by
  unfold agreeOnMethod
  refine GoesBy.of_iff (.bind (.write rfl _) fun _ _ _ _ => .bind (.readExactly rfl (by decide))
    (h := fun reply _ answer sent => (reply = [5, 0] ∧ answer = [] ∧ sent = []) ∨
      (reply = [5, 2] ∧ ∃ c, credentials = some c ∧ ∃ version user password, Counted c.user user ∧
        Counted c.password password ∧ answer = [version, 0] ∧ sent = 1 :: (user ++ password)))
    fun reply _ _ got => ?_) ?_
  · match reply, got.1 with
    | [version, method], _ =>
      simp only [List.cons.injEq, and_true]
      by_cases same : version = 5
      · subst same
        simp only [socksVersion, ne_eq, not_true_eq_false, if_false, true_and]
        by_cases plain : method = 0
        · subst plain
          simp only [plainMethod, if_true]
          exact (GoesBy.pure ()).of_iff fun _ _ _ => by simp [nothing]
        simp only [plainMethod, passwordMethod, plain, if_false, false_and, false_or]
        cases credentials with
        | none => exact (disagreement_goesBy method).of_iff fun _ _ _ => by simp [never]
        | some credentials =>
          by_cases password : method = 2
          · subst password
            simp only [if_true, true_and, Option.some.injEq, exists_eq_left']
            exact authenticate_goesBy credentials
          · simp only [password, if_false, false_and]
            exact disagreement_goesBy method
      · simp only [socksVersion, ne_eq, same, not_false_eq_true, if_true, false_and, or_self]
        exact .throw_bind _ rfl _
  · intro _ answer sent
    simp only [sends_andThen, gets_andThen]
    constructor
    · rintro (_ | credentials | ⟨version, user, password⟩)
      · exact ⟨[], ⟨[5, 0], [], rfl, .inl ⟨rfl, rfl, rfl⟩, rfl⟩, rfl⟩
      · exact ⟨[], ⟨[5, 0], [], rfl, .inl ⟨rfl, rfl, rfl⟩, rfl⟩, rfl⟩
      · exact ⟨_, ⟨[5, 2], [version, 0], rfl, .inr ⟨rfl, _, rfl, version, _, _, user, password, rfl, rfl⟩, rfl⟩, rfl⟩
    · rintro ⟨_, ⟨_, _, _, ⟨rfl, rfl, rfl⟩ | ⟨rfl, c, rfl, version, user, password, userFits, passwordFits, rfl, rfl⟩,
        rfl⟩, rfl⟩
      · cases credentials with
        | none => exact .unasked
        | some credentials => exact .waived credentials
      · exact .password version userFits passwordFits

/-- What tells the length of an address: its type, and in front of a name one byte. -/
def Announces (type : UInt8) (length : Nat) (front : Bytes) : Prop :=
  (type = 1 ∧ length = 4 ∧ front = []) ∨ (type = 4 ∧ length = 16 ∧ front = []) ∨
    (type = 3 ∧ ∃ byte : UInt8, length = byte.toNat ∧ front = [byte])

theorem boundAddress_iff {type : UInt8} {address : Bytes} :
    BoundAddress type address ↔
      ∃ length front rest, Announces type length front ∧ rest.length = length ∧ address = front ++ rest := by
  constructor
  · rintro (length | length | length)
    · exact ⟨4, [], _, .inl ⟨rfl, rfl, rfl⟩, length, rfl⟩
    · exact ⟨16, [], _, .inr (.inl ⟨rfl, rfl, rfl⟩), length, rfl⟩
    · exact ⟨_, [_], _, .inr (.inr ⟨rfl, _, rfl, rfl⟩), length, rfl⟩
  · rintro ⟨_, _, rest, ⟨rfl, rfl, rfl⟩ | ⟨rfl, rfl, rfl⟩ | ⟨rfl, byte, rfl, rfl⟩, length, rfl⟩
    · exact .ipv4 length
    · exact .ipv6 length
    · exact .name length

theorem addressLength_goesBy (type : UInt8) :
    GoesBy (addressLength type) fun length front sent => Announces type length front ∧ sent = [] := by
  unfold addressLength Announces
  by_cases ipv4 : type = 1
  · subst ipv4
    exact (GoesBy.pure 4).of_iff fun _ _ _ => by simp [nothing, and_assoc]
  by_cases ipv6 : type = 4
  · subst ipv6
    exact (GoesBy.pure 16).of_iff fun _ _ _ => by simp [nothing, and_assoc]
  by_cases name : type = 3
  · subst name
    simp only [if_neg ipv4, if_neg ipv6, if_true]
    refine GoesBy.of_iff (.bind (.readExactly rfl (by decide))
      (h := fun bytes length answer sent => (∃ byte : UInt8, length = byte.toNat ∧ bytes = [byte]) ∧ answer = [] ∧
        sent = []) fun bytes _ _ got => ?_) ?_
    · match bytes, got.1 with
      | [byte], _ => exact (GoesBy.pure byte.toNat).of_iff fun _ _ _ => by simp [nothing]
    · intro length answer sent
      simp only [gets_andThen, ipv4, ipv6, false_and, false_or, true_and]
      constructor
      · rintro ⟨⟨byte, rfl, rfl⟩, rfl⟩
        exact ⟨[byte], [], rfl, ⟨⟨byte, rfl, rfl⟩, rfl, rfl⟩, rfl⟩
      · rintro ⟨_, _, _, ⟨⟨byte, rfl, rfl⟩, rfl, rfl⟩, rfl⟩
        exact ⟨⟨byte, rfl, rfl⟩, rfl⟩
  · simp only [ipv4, ipv6, name, if_false, false_and, or_self]
    exact .throw _ rfl

theorem boundAddress_goesBy (type : UInt8) :
    GoesBy (do
        let length ← addressLength type
        let _ ← Negotiation.readExactly .boundAddress (length + 2))
      fun _ answer sent => (∃ address port, BoundAddress type address ∧ port.length = 2 ∧ answer = address ++ port) ∧
        sent = [] := by
  refine GoesBy.of_iff (.bind (addressLength_goesBy type) fun length _ _ _ =>
    .bind (.readExactly rfl (Nat.succ_pos (length + 1))) fun _ _ _ _ => .pure ()) ?_
  intro _ answer sent
  constructor
  · rintro ⟨⟨address, port, bound, two, rfl⟩, rfl⟩
    obtain ⟨length, front, rest, announces, count, rfl⟩ := boundAddress_iff.mp bound
    refine ⟨length, front, [], rest ++ port, [], ⟨announces, rfl⟩, gets_andThen.mpr ?_, by simp, rfl⟩
    exact ⟨rest ++ port, [], by simp [count, two], ⟨rfl, rfl, rfl⟩, (List.append_nil _).symm⟩
  · rintro ⟨length, front, _, _, _, ⟨announces, rfl⟩, behind, rfl, rfl⟩
    obtain ⟨bytes, _, count, ⟨_, rfl, rfl⟩, rfl⟩ := gets_andThen.mp behind
    have rest : (bytes.take length).length = length := List.length_take_of_le (by omega)
    have port : (bytes.drop length).length = 2 := by rw [List.length_drop]; omega
    have bound := boundAddress_iff.mpr ⟨length, front, bytes.take length, announces, rest, rfl⟩
    exact ⟨⟨_, bytes.drop length, bound, port, by simp⟩, rfl⟩

theorem socksConnect_goesBy (host : String) (port : UInt16) (credentials : Option Credentials) :
    GoesBy (socksConnect host port credentials) fun _ => Handshake host port credentials := by
  unfold socksConnect
  refine GoesBy.of_iff (.bind (agreeOnMethod_goesBy credentials) fun _ _ _ _ =>
    .guarded (.throw_bind _ rfl _) fun _ => .bind (.write rfl (socksRequest host port)) fun _ _ _ _ =>
      .bind (.readExactly rfl (by decide))
        (h := fun reply _ answer sent => (∃ version reserved type, reply = [version, 0, reserved, type] ∧
          ∃ address port, BoundAddress type address ∧ port.length = 2 ∧ answer = address ++ port) ∧ sent = [])
        fun reply _ _ got => ?_) ?_
  · match reply, got.1 with
    | [version, code, reserved, type], _ =>
      refine (GoesBy.guarded (.throw_bind _ rfl _) fun _ => boundAddress_goesBy type).of_iff fun _ answer sent => ?_
      constructor
      · rintro ⟨⟨_, _, _, same, opened⟩, quiet⟩
        cases same
        exact ⟨not_not_intro rfl, opened, quiet⟩
      · rintro ⟨accepted, opened, quiet⟩
        obtain rfl := Decidable.not_not.mp accepted
        exact ⟨⟨version, reserved, type, rfl, opened⟩, quiet⟩
  · intro _ answer sent
    constructor
    · rintro ⟨agrees, name, bound, two⟩
      obtain ⟨fits, rfl⟩ := counted_iff.mp name
      refine ⟨(), _, _, _, _, agrees, ⟨by simp [fits], sends_andThen.mpr ⟨[], gets_andThen.mpr ?_, rfl⟩⟩, rfl, ?_⟩
      · exact ⟨_, _, rfl, ⟨⟨_, _, _, rfl, _, _, bound, two, rfl⟩, rfl⟩, rfl⟩
      · simp [socksRequest, socksVersion]
    · rintro ⟨_, agreement, shown, _, _, agrees, ⟨fits, further⟩, rfl, rfl⟩
      obtain ⟨_, rest, rfl⟩ := sends_andThen.mp further
      obtain ⟨_, _, _, ⟨⟨version, reserved, type, rfl, address, boundPort, bound, two, rfl⟩, rfl⟩, rfl⟩ :=
        gets_andThen.mp rest
      have name : Counted host (shortText host) := counted_iff.mpr ⟨by simpa using fits, rfl⟩
      simpa [socksRequest, socksVersion] using Handshake.opened agrees name bound two

/-- A SOCKS5 proxy opens a tunnel by a handshake and in no other way, however what it sends is cut into pieces
and however often a read is interrupted. Unless a write fails, which it does not where the proxy takes all, the
negotiation succeeds just if the bytes before the first end or failure of the stream begin with the proxy's
side of a handshake. Then just these bytes have been read, all behind them is still to come, and the proxy
has received the client's side of that handshake. -/
theorem socksConnect_handshake (host : String) (port : UInt16) (credentials : Option Credentials) (peer : Peer) :
    let run := (socksConnect host port credentials).against peer
    (peer.TakesAll → ¬ WriteFailed run.1) ∧
    (¬ WriteFailed run.1 →
      (run.1 = .ok () ↔
        ∃ answer sent, Handshake host port credentials answer sent ∧ answer <+: peer.inbound.content) ∧
      (run.1 = .ok () →
        ∃ answer sent, Handshake host port credentials answer sent ∧ peer.Exchanged answer sent run.2)) := by
  have settled : Settled _ peer ((socksConnect host port credentials).against peer) :=
    (socksConnect_goesBy host port credentials).settled peer
  intro run
  rcases outcome : run with ⟨result, peer'⟩
  rw [show (socksConnect host port credentials).against peer = (result, peer') from outcome] at settled
  cases settled with
  | @agreed _ answer sent _ handshake exchanged =>
    refine ⟨fun _ => nofun, fun _ => ⟨iff_of_true rfl ?_, fun _ => ?_⟩⟩
    · exact ⟨answer, sent, handshake, _, exchanged.content.symm⟩
    · exact ⟨answer, sent, handshake, exchanged⟩
  | broken failure takes =>
    exact ⟨fun takesAll => absurd takesAll takes, fun fine => absurd ⟨_, rfl, failure⟩ fine⟩
  | refused other none =>
    refine ⟨fun _ => ?_, fun _ => ⟨iff_of_false nofun ?_, nofun⟩⟩
    · rintro ⟨_, ⟨⟩, failure⟩
      rw [other] at failure
      cases failure
    · rintro ⟨answer, sent, handshake, begins⟩
      exact none () answer sent handshake begins

/-- A proxy that asks for the password, gives a name as its address and goes on at once with the bytes of the
tunnel. -/
theorem socksConnect_handshake_with_password :
    let peer : Peer := { inbound := [.bytes [5], .failure ⟨.interrupted, "again"⟩ false,
      .bytes [2, 1, 0, 5, 0, 0, 3, 1, 120], .bytes [0, 0, 22]] }
    let run := (socksConnect "gw" 1 (some ⟨"u", "pw"⟩)).against peer
    peer.TakesAll ∧ ¬ WriteFailed run.1 ∧ run.1 = .ok () ∧ run.2.inbound = [.bytes [22]] ∧
      run.2.received = [5, 2, 0, 2, 1, 1, 117, 2, 112, 119, 5, 1, 0, 3, 2, 103, 119, 0, 1] := by
  intro peer run
  have takes : peer.TakesAll := ⟨rfl, nofun⟩
  obtain ⟨takenAll, settles⟩ := socksConnect_handshake "gw" 1 (some ⟨"u", "pw"⟩) peer
  obtain ⟨opens, exchanges⟩ := settles (takenAll takes)
  have handshake : Handshake "gw" 1 (some ⟨"u", "pw"⟩) [5, 2, 1, 0, 5, 0, 0, 3, 1, 120, 0, 0]
      [5, 2, 0, 2, 1, 1, 117, 2, 112, 119, 5, 1, 0, 3, 2, 103, 119, 0, 1] := by
    have agreement : Agreement (some ⟨"u", "pw"⟩) [5, 2, 1, 0] [5, 2, 0, 2, 1, 1, 117, 2, 112, 119] :=
      .password 1 (.behind rfl) (.behind rfl)
    have address : BoundAddress 3 [1, 120] := .name rfl
    exact .opened agreement (.behind rfl) address rfl
  have begins : [5, 2, 1, 0, 5, 0, 0, 3, 1, 120, 0, 0] <+: peer.inbound.content := ⟨[22], rfl⟩
  have isOk : run.1 = .ok () := opens.mpr ⟨_, _, handshake, begins⟩
  obtain ⟨answer, sent, same, exchanged⟩ := exchanges isOk
  obtain ⟨_, rfl, rfl⟩ := (socksConnect_goesBy "gw" 1 (some ⟨"u", "pw"⟩)).unique () () same handshake
    ⟨_, exchanged.content.symm⟩ begins
  exact ⟨takes, takenAll takes, isOk, exchanged.inbound, exchanged.received⟩

end PushGateway.Tunnel
