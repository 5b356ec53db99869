import PushGateway.Socket.Loopback
import PushGateway.Proofs.Settings.Checks
import PushGateway.Proofs.Tunnel.Handshake
import PushGateway.Proofs.Tunnel.Request

namespace PushGateway

namespace Negotiation

variable {α β : Type}

/-- What a negotiation comes to with a far end that takes all and goes on with `answer`. Just these bytes are read. -/
def Yields (negotiation : Negotiation α) (answer : Bytes) (result : Except TunnelError α) : Prop :=
  ∀ peer more, peer.TakesAll → peer.inbound.content = answer ++ more →
    ∃ peer', negotiation peer = (result, peer') ∧ peer'.TakesAll ∧ peer'.inbound.content = more

namespace Yields

variable {negotiation : Negotiation α} {next : α → Negotiation β} {answer answer' : Bytes} {value : α}
  {result : Except TunnelError β} {error : TunnelError}

theorem of_goesBy {grammar : Grammar α} {sent : Bytes} (goes : GoesBy negotiation grammar)
    (agrees : grammar value answer sent) : Yields negotiation answer (.ok value) := by
  intro peer more takes content
  have settled := goes.settled peer
  rcases outcome : negotiation peer with ⟨result, peer'⟩
  rw [outcome] at settled
  cases settled with
  | agreed agrees' exchanged =>
    obtain ⟨rfl, rfl, _⟩ := goes.unique _ _ agrees agrees' ⟨more, content.symm⟩ ⟨_, exchanged.content.symm⟩
    exact ⟨peer', rfl, exchanged.takesAll takes, List.append_cancel_left (exchanged.content.symm.trans content)⟩
  | broken _ fails => exact absurd takes fails
  | refused _ none => exact absurd ⟨more, content.symm⟩ (none _ _ _ agrees)

theorem bind (first : Yields negotiation answer (.ok value)) (second : Yields (next value) answer' result) :
    Yields (negotiation >>= next) (answer ++ answer') result := by
  intro peer more takes content
  rw [List.append_assoc] at content
  obtain ⟨peer', run, takes', content'⟩ := first peer _ takes content
  rw [run_bind, run]
  exact second peer' more takes' content'

theorem bind_error (first : Yields negotiation answer (.error error)) :
    Yields (negotiation >>= next) answer (.error error) := by
  intro peer more takes content
  obtain ⟨peer', run, rest⟩ := first peer more takes content
  exact ⟨peer', by rw [run_bind, run], rest⟩

theorem throw (error : TunnelError) : Yields (MonadExcept.throw error : Negotiation α) [] (.error error) :=
  fun peer _ takes content => ⟨peer, rfl, takes, content⟩

theorem refused {condition : Prop} [Decidable condition] {other : Negotiation α} (holds : condition)
    (yields : Yields negotiation answer (.error error)) :
    Yields (if condition then negotiation else other) answer (.error error) := by
  rwa [if_pos holds]

end Yields
end Negotiation

namespace Tunnel

open Negotiation

/-- What a proxy sends that accepts every step of a negotiation, and the texts that it is sent behind their lengths in
the meantime, each with the complaint that there is about one that is too long for that. -/
inductive Accepting (host : String) : Option Credentials → Bytes → List (String × TunnelError) → Prop
  | unasked {credentials : Option Credentials} {address boundPort : Bytes} {version reserved type : UInt8} :
      BoundAddress type address → boundPort.length = 2 →
      Accepting host credentials ([5, 0] ++ ([version, 0, reserved, type] ++ (address ++ boundPort)))
        [(host, .hostTooLong host)]
  | asked {credentials : Credentials} {address boundPort : Bytes} {settled version reserved type : UInt8} :
      BoundAddress type address → boundPort.length = 2 →
      Accepting host (some credentials) ([5, 2, settled, 0] ++ ([version, 0, reserved, type] ++ (address ++ boundPort)))
        [(credentials.user, .userNameTooLong), (credentials.password, .passwordTooLong), (host, .hostTooLong host)]

/-- The complaint about the first text of which the length does not go into one byte. -/
def tooLong? (named : List (String × TunnelError)) : Option TunnelError :=
  (named.find? fun (text, _) => 255 < text.utf8ByteSize).map Prod.snd

variable {host : String} {port : UInt16} {credentials : Option Credentials} {answer : Bytes}

theorem authenticate_of_long_user {c : Credentials} (long : fitsShort c.user = false) :
    Yields (authenticate c) [] (.error .userNameTooLong) := by
  unfold authenticate
  exact .refused (by simp [long]) (.bind_error (.throw _))

theorem authenticate_of_long_password {c : Credentials} (fits : fitsShort c.user = true)
    (long : fitsShort c.password = false) : Yields (authenticate c) [] (.error .passwordTooLong) := by
  unfold authenticate
  rw [if_neg (by simp [fits])]
  exact .refused (by simp [long]) (.bind_error (.throw _))

/-- A client that cannot show who it is says so when it is asked. -/
theorem agreeOnMethod_of_error {c : Credentials} {error : TunnelError}
    (unable : Yields (authenticate c) [] (.error error)) :
    Yields (agreeOnMethod (some c)) [5, 2] (.error error) := by
  have greets : Yields (Negotiation.write .greeting (greeting (some c))) [] (.ok ()) :=
    .of_goesBy (.write rfl _) ⟨rfl, rfl⟩
  have asked : Yields (Negotiation.readExactly .greetingReply 2) [5, 2] (.ok [5, 2]) :=
    .of_goesBy (.readExactly rfl (by decide)) ⟨rfl, rfl, rfl⟩
  exact greets.bind (asked.bind unable)

theorem socksConnect_of_error {c : Credentials} {error : TunnelError}
    (unable : Yields (authenticate c) [] (.error error)) :
    Yields (socksConnect host port (some c)) [5, 2] (.error error) := by
  unfold socksConnect
  exact (agreeOnMethod_of_error unable).bind_error

theorem socksConnect_of_long_host (long : fitsShort host = false) {agreement shown : Bytes}
    (agrees : Agreement credentials agreement shown) :
    Yields (socksConnect host port credentials) agreement (.error (.hostTooLong host)) := by
  have settles : Yields (agreeOnMethod credentials) agreement (.ok ()) :=
    .of_goesBy (agreeOnMethod_goesBy credentials) agrees
  unfold socksConnect
  rw [← List.append_nil agreement]
  exact settles.bind (.refused (by simp [long]) (.bind_error (.throw _)))

theorem tooLong?_cons (text : String) (complaint : TunnelError) (named : List (String × TunnelError)) :
    tooLong? ((text, complaint) :: named) = if fitsShort text then tooLong? named else some complaint := by
  have long : 255 < text.utf8ByteSize ↔ fitsShort text = false := by
    rw [fitsShort, decide_eq_false_iff_not, Text.length_utf8, Nat.not_le]
  rw [tooLong?, List.find?_cons]
  cases fits : fitsShort text <;> simp [long, fits, tooLong?]

theorem fitsShort_replicate (count : Nat) (c : Char) :
    fitsShort (String.ofList (List.replicate count c)) = decide (count * c.utf8Size ≤ 255) := by
  rw [fitsShort, Text.utf8_eq_flatMap, String.toList_ofList, List.length_flatMap, List.map_replicate,
    List.sum_replicate_nat, String.length_utf8EncodeChar]

/-- With a proxy that accepts every step, a tunnel comes about unless one of the texts is too long. -/
theorem Accepting.verdict {named : List (String × TunnelError)} (accepting : Accepting host credentials answer named)
    {peer : Peer} (takes : peer.TakesAll) (begins : answer <+: peer.inbound.content) :
    ((socksConnect host port credentials).against peer).1 = (tooLong? named).elim (.ok ()) .error := by
  -- An answer of which the negotiation reads a part only is enough.
  have outcome {part rest : Bytes} {result : Except TunnelError Unit} (same : answer = part ++ rest)
      (yields : Yields (socksConnect host port credentials) part result) :
      ((socksConnect host port credentials).against peer).1 = result := by
    obtain ⟨more, content⟩ := begins
    obtain ⟨_, run, _⟩ := yields peer (rest ++ more) takes (by rw [← content, same, List.append_assoc])
    rw [against, run]
  have opens {sent : Bytes} (handshake : Handshake host port credentials answer sent) :
      ((socksConnect host port credentials).against peer).1 = .ok () :=
    outcome (List.append_nil answer).symm (.of_goesBy (socksConnect_goesBy host port credentials) handshake)
  have counted {text : String} (fits : fitsShort text = true) : Counted text (shortText text) :=
    counted_iff.mpr ⟨fits, rfl⟩
  cases accepting with
  | @unasked credentials _ _ _ _ _ bound two =>
    obtain ⟨_, agreement⟩ : ∃ shown, Agreement credentials [5, 0] shown := by
      cases credentials with
      | none => exact ⟨_, .unasked⟩
      | some credentials => exact ⟨_, .waived credentials⟩
    simp only [tooLong?_cons]
    cases fits : fitsShort host with
    | true => exact opens (.opened agreement (counted fits) bound two)
    | false => exact outcome rfl (socksConnect_of_long_host fits agreement)
  | @asked c address boundPort settled version reserved type bound two =>
    have asked : [5, 2, settled, 0] ++ ([version, 0, reserved, type] ++ (address ++ boundPort)) =
      [5, 2] ++ ([settled, 0] ++ ([version, 0, reserved, type] ++ (address ++ boundPort))) := rfl
    simp only [tooLong?_cons]
    cases userFits : fitsShort c.user with
    | false => exact outcome asked (socksConnect_of_error (authenticate_of_long_user userFits))
    | true =>
      cases passwordFits : fitsShort c.password with
      | false => exact outcome asked (socksConnect_of_error (authenticate_of_long_password userFits passwordFits))
      | true =>
        have agreement := Agreement.password settled (counted userFits) (counted passwordFits)
        cases fits : fitsShort host with
        | true => exact opens (.opened agreement (counted fits) bound two)
        | false => exact outcome rfl (socksConnect_of_long_host fits agreement)

end Tunnel

namespace Settings

open Tunnel

/-- These settings with another endpoint for one server. -/
def withEndpoint (side : Side) (e : Endpoint) (s : Settings) : Settings :=
  match side with
  | .gateway => { s with gateway := e }
  | .feedback => { s with feedback := e }

theorem endpoint_withEndpoint (side : Side) (e : Endpoint) (s : Settings) (other : Side) :
    (s.withEndpoint side e).endpoint other = if other = side then e else s.endpoint other := by
  cases side <;> cases other <;> rfl

/-- Settings stay usable behind any proxy and with any host that can be seen. -/
theorem Usable.of_visible {s : Settings} (usable : s.Usable) (side : Side) {host : String}
    (visible : ∃ c ∈ host.toList, ¬ Text.isBlank c) (proxy : Proxy) :
    (s.withEndpoint side { s.endpoint side with host, proxy }).Usable where
  host other := by
    rw [endpoint_withEndpoint]
    split
    · exact visible
    · exact usable.host other
  port other := by
    rw [endpoint_withEndpoint]
    split
    · exact usable.port side
    · exact usable.port other
  connectTimeout other := by
    rw [endpoint_withEndpoint]
    split
    · exact usable.connectTimeout side
    · exact usable.connectTimeout other
  readTimeout other := by
    rw [endpoint_withEndpoint]
    split
    · exact usable.readTimeout side
    · exact usable.readTimeout other
  attempts := by cases side <;> exact usable.attempts

/-- What settings that are accepted come to behind a proxy. An HTTP proxy that takes all receives one header block of
three lines exactly if the host of the server has no line end, each of which is sent twice. A SOCKS5 proxy that
accepts every step opens the tunnel exactly if no text is too long of which the length is sent in one byte. Neither
has to do with what is accepted: it stays so with any host that can be seen and behind any proxy. -/
theorem accepted_through_proxy {s : Settings} (accepted : s.validate = .ok ()) (side : Side) :
    let server := s.endpoint side
    let run := (Socket.negotiation server).against
    (∀ host port, server.proxy = .http host port → ∀ peer, peer.TakesAll →
      ∃ request, (run peer).2.received = peer.received ++ request ∧
        lineEnds request = 4 + 2 * lineEnds (Text.utf8 server.host) ∧
        ((∃ first second third, HeaderBlock [first, second, third] request ∧
          ∀ host' port', first = Text.utf8 (requestLine host' port') ↔ host' = server.host ∧ port' = server.port) ↔
          ¬ lineEnd <:+: Text.utf8 server.host)) ∧
    (∀ host port user password, server.proxy = .socks host port user password → ∀ peer, peer.TakesAll →
      ∀ answer named, Accepting server.host (Socket.credentials user password) answer named →
        answer <+: peer.inbound.content → (run peer).1 = (tooLong? named).elim (.ok ()) .error) ∧
    ∀ host proxy, (∃ c ∈ host.toList, ¬ Text.isBlank c) →
      (s.withEndpoint side { server with host, proxy }).validate = .ok () := by
  intro server run
  refine ⟨fun host port http peer takes => ?_, fun host port user password socks peer takes answer named accepting
    begins => ?_, fun host proxy visible => ?_⟩
  · have negotiation : run = (httpConnect server.host server.port).against := by
      simp only [run, Socket.negotiation, http]
    rw [negotiation]
    exact ⟨_, received_httpConnect takes, lineEnds_connectRequest .., headerBlock_connectRequest_iff⟩
  · have negotiation : run = (socksConnect server.host server.port (Socket.credentials user password)).against := by
      simp only [run, Socket.negotiation, socks]
    rw [negotiation]
    exact accepting.verdict takes begins
  · exact validate_eq_ok_iff.mpr ((validate_eq_ok_iff.mp accepted).of_visible side visible proxy)

/-- A password that is too long, which the proxy asks for. -/
theorem accepted_through_proxy_asked :
    let password := String.ofList (List.replicate 256 'x')
    let s := production.withProxy (.socks "proxy.test" 1080 (some "user") (some password))
    let answer : Bytes := [5, 2, 1, 0, 5, 0, 0, 1, 127, 0, 0, 1, 8, 147]
    let peer : Peer := { inbound := [.bytes answer] }
    s.validate = .ok () ∧ peer.TakesAll ∧
      Accepting s.gateway.host (some ⟨"user", password⟩) answer
        [("user", .userNameTooLong), (password, .passwordTooLong), (s.gateway.host, .hostTooLong s.gateway.host)] ∧
      ((Socket.negotiation s.gateway).against peer).1 = .error .passwordTooLong := by
  intro password s answer peer
  have accepted : s.validate = .ok () := by decide
  have takes : peer.TakesAll := ⟨rfl, nofun⟩
  have accepting : Accepting s.gateway.host (some ⟨"user", password⟩) answer
      [("user", .userNameTooLong), (password, .passwordTooLong), (s.gateway.host, .hostTooLong s.gateway.host)] :=
    @Accepting.asked _ ⟨"user", password⟩ [127, 0, 0, 1] [8, 147] 1 5 0 1 (.ipv4 rfl) rfl
  have user : fitsShort "user" = true := by decide
  have long : fitsShort password = false := fitsShort_replicate 256 'x'
  obtain ⟨_, socks, _⟩ := accepted_through_proxy accepted .gateway
  refine ⟨accepted, takes, accepting, ?_⟩
  have verdict := socks _ _ _ _ rfl peer takes _ _ accepting ⟨[], rfl⟩
  rw [tooLong?_cons, tooLong?_cons, user, long] at verdict
  exact verdict

/-- Settings are accepted with which no header block of three lines is sent, and with which no tunnel comes about
through a proxy that accepts every step: the host has a line end, or 256 bytes. -/
theorem accepted_of_unsendable_host :
    let s := production.withEndpoint .gateway
      { production.gateway with host := "gw\r\nX-Injected: 1", proxy := .http "proxy.test" 3128 }
    let peer : Peer := { inbound := [] }
    let long := String.ofList (List.replicate 256 'a')
    let s' := production.withEndpoint .gateway
      { production.gateway with host := long, proxy := .socks "proxy.test" 1080 none none }
    let peer' : Peer := { inbound := [.bytes [5, 0, 5, 0, 0, 1, 127, 0, 0, 1, 8, 147]] }
    (s.validate = .ok () ∧ peer.TakesAll ∧ ¬ ∃ first second third,
      HeaderBlock [first, second, third] ((Socket.negotiation s.gateway).against peer).2.received) ∧
    s'.validate = .ok () ∧ peer'.TakesAll ∧
      ((Socket.negotiation s'.gateway).against peer').1 = .error (.hostTooLong long) := by
  intro s peer long s' peer'
  have takes : peer.TakesAll := ⟨rfl, nofun⟩
  have takes' : peer'.TakesAll := ⟨rfl, nofun⟩
  have usable : production.Usable := validate_eq_ok_iff.mp (by decide)
  have visible : ∃ c ∈ long.toList, ¬ Text.isBlank c := by
    rw [String.toList_ofList]
    exact ⟨'a', List.mem_replicate.mpr ⟨by decide, rfl⟩, by decide⟩
  refine ⟨⟨by decide, takes, ?_⟩, validate_eq_ok_iff.mpr (usable.of_visible .gateway visible _), takes', ?_⟩
  · have received : ((Socket.negotiation s.gateway).against peer).2.received =
      Text.utf8 (connectRequest "gw\r\nX-Injected: 1" 2195) := @received_httpConnect "gw\r\nX-Injected: 1" 2195 _ takes
    rintro ⟨first, second, third, block⟩
    rw [received] at block
    have count := block.lineEnds_eq
    have once : lineEnds (Text.utf8 "gw\r\nX-Injected: 1") = 1 := by decide
    rw [lineEnds_connectRequest, once] at count
    cases count
  · have accepting : Accepting long none [5, 0, 5, 0, 0, 1, 127, 0, 0, 1, 8, 147] [(long, .hostTooLong long)] :=
      @Accepting.unasked _ none [127, 0, 0, 1] [8, 147] 5 0 1 (.ipv4 rfl) rfl
    have tooLong : fitsShort long = false := fitsShort_replicate 256 'a'
    have verdict := @Accepting.verdict long 2195 none _ _ accepting peer' takes' ⟨[], rfl⟩
    rw [tooLong?_cons, tooLong] at verdict
    exact verdict

end Settings
end PushGateway
