import PushGateway.Proofs.Monitor.Interrupted
import PushGateway.Proofs.Tunnel.Interrupted

namespace PushGateway

open Tunnel Feedback.Reader

/-- Interruptions are passed over by whoever reads records or error frames or talks to a SOCKS5 proxy: the answers,
what is told and sent in the meantime and what is left unread are the same. Just the response of an HTTP proxy
must come without one. -/
theorem interruptions_unnoticed {inbound inbound' : Inbound} (interrupted : inbound.Interrupted inbound') :
    (∀ call, answer { inbound := inbound' } call = answer { inbound } call ∧
      (after { inbound := inbound' } call).inbound.remaining = (after { inbound } call).inbound.remaining) ∧
    (∀ panics isOpen,
      let calm := Monitor.start.run ScriptedConnection.watch panics { inbound, isOpen }
      let run := Monitor.start.run ScriptedConnection.watch panics { inbound := inbound', isOpen }
      run.1 = calm.1 ∧ run.2.1 = calm.2.1 ∧ run.2.2.isOpen = calm.2.2.isOpen ∧
        run.2.2.inbound.remaining = calm.2.2.inbound.remaining) ∧
    (∀ (peer : Peer) host port credentials,
      let calm := (socksConnect host port credentials).against { peer with inbound }
      let run := (socksConnect host port credentials).against { peer with inbound := inbound' }
      run.1 = calm.1 ∧ run.2.received = calm.2.received ∧ run.2.inbound.remaining = calm.2.inbound.remaining) ∧
    ∀ (peer : Peer) host port,
      let cutOff := CutOff (Text.utf8 (connectRequest host port)) { peer with inbound := inbound' }
      let calm := (httpConnect host port).against { peer with inbound }
      let run := (httpConnect host port).against { peer with inbound := inbound' }
      run.2.received = calm.2.received ∧
      (∀ cause, cutOff cause → run.1 = .error (.stream .connectResponse cause) ∧
        inbound'.remaining = inbound'.opening ++ run.2.inbound.remaining) ∧
      ((∀ cause, ¬ cutOff cause) → run.1 = calm.1 ∧ run.2.inbound.remaining = calm.2.inbound.remaining) := by
  refine ⟨fun call => ?_, fun panics isOpen => ?_, fun peer host port credentials => ?_, fun peer host port => ?_⟩
  · have started : Feedback.Reader.Interrupted ⟨inbound, false⟩ ⟨inbound', false⟩ := ⟨rfl, interrupted⟩
    have later := started.after call
    exact ⟨later.next.1, later.inbound.remaining⟩
  · have connected : ScriptedConnection.Interrupted ⟨inbound, isOpen⟩ ⟨inbound', isOpen⟩ := ⟨rfl, interrupted⟩
    have waiting : Monitor.start.Waiting := Nat.succ_pos 5
    have run : Monitor.Unnoticed (Monitor.start.attend ScriptedConnection.watch (fun _ => panics) 0 _) _ :=
      Monitor.unnoticed waiting connected
    rw [Monitor.attend_const, Monitor.attend_const] at run
    exact ⟨run.told, run.monitor, run.connection.isOpen, run.connection.inbound.remaining⟩
  · have sends : Peer.Interrupted { peer with inbound } { peer with inbound := inbound' } := .sends interrupted
    exact Peer.outcome_of_alike ((interruptible_socksConnect host port credentials).alike sends)
  · intro cutOff calm run
    have sends : Peer.Interrupted { peer with inbound } { peer with inbound := inbound' } := .sends interrupted
    rcases httpConnect_interrupted sends host port with alike | ⟨⟨cause, cut⟩, received⟩
    · obtain ⟨result, received, left⟩ := Peer.outcome_of_alike alike
      exact ⟨received, fun cause cut => cut.httpConnect, fun _ => ⟨result, left⟩⟩
    · exact ⟨received, fun cause cut => cut.httpConnect, fun never => absurd cut (never cause)⟩

/-- An error frame with an interruption inside of it, and the response of a proxy with one in front. -/
theorem interruptions_unnoticed_within_frame :
    let again : Arrival := .failure ⟨.interrupted, "again"⟩ false
    let frame : Inbound := [.bytes [8, 8, 0], .bytes [0, 0, 42], .ending]
    let response : Inbound := [.bytes [72, 84, 84, 80, 47, 49, 46, 49, 32, 50, 48, 48, 13, 10, 13, 10]]
    frame.Interrupted [.bytes [8, 8, 0], again, .bytes [0, 0, 42], .ending] ∧
      (Monitor.start.run ScriptedConnection.watch false
        { inbound := [.bytes [8, 8, 0], again, .bytes [0, 0, 42], .ending] }).1 = [⟨.invalidToken, some 42⟩] ∧
      response.Interrupted (again :: response) ∧
      ((httpConnect "gw" 2195).against { inbound := again :: response }).1 =
        .error (.stream .connectResponse ⟨.interrupted, "again"⟩) := by
  intro again frame response
  have kind : (⟨.interrupted, "again"⟩ : IoError).kind = .interrupted := rfl
  have within : frame.Interrupted [.bytes [8, 8, 0], again, .bytes [0, 0, 42], .ending] :=
    .keep _ (.insert kind (.keep _ (.keep _ .nil)))
  have front : response.Interrupted (again :: response) := .insert kind (.keep _ .nil)
  obtain ⟨_, monitors, _, _⟩ := interruptions_unnoticed within
  obtain ⟨_, _, _, connects⟩ := interruptions_unnoticed front
  have calm : (Monitor.start.run ScriptedConnection.watch false { inbound := frame }).1 =
      [⟨.invalidToken, some 42⟩] := by
    cbv
  refine ⟨within, (monitors false true).1.trans calm, front, ?_⟩
  exact ((connects { inbound := [] } "gw" 2195).2.1 _ (cutOff_at_once kind _ response)).1

/-- A proxy opens the tunnel, but the first read of its response is interrupted. -/
theorem httpConnect_interrupted_at_once :
    let bytes : Bytes := [72, 84, 84, 80, 47, 49, 46, 49, 32, 50, 48, 48, 32, 79, 75, 13, 10, 13, 10]
    let response : Inbound := [.bytes bytes]
    let interrupted : Inbound := .failure ⟨.interrupted, "interrupted"⟩ false :: response
    response.Interrupted interrupted ∧ ((httpConnect "gw" 2195).against { inbound := response }).1 = .ok () ∧
      ((httpConnect "gw" 2195).against { inbound := interrupted }).1 =
        .error (.stream .connectResponse ⟨.interrupted, "interrupted"⟩) := by
  intro bytes response interrupted
  refine ⟨.insert rfl (.keep _ .nil), ?_, ?_⟩
  · have hears : Peer.Hears (Text.utf8 (connectRequest "gw" 2195)) { inbound := response }
        { inbound := response, received := Text.utf8 (connectRequest "gw" 2195) } := ⟨_, rfl, rfl⟩
    have header : readHeader responseLimit [] response = (.ok bytes, []) := rfl
    have judged : judgeResponse bytes = .ok () := by
      have ascii : ∀ b ∈ bytes, b < 0x80 := by simp [bytes]
      rw [judgeResponse, Text.lossy_ascii ascii]
      rfl
    rw [httpConnect_of_hears hears, header]
    exact judged
  · have kind : (⟨.interrupted, "interrupted"⟩ : IoError).kind = .interrupted := rfl
    exact (cutOff_at_once kind _ response).httpConnect.1

end PushGateway
