import PushGateway.Tunnel.Basic
import PushGateway.Text.Blank

namespace PushGateway.Tunnel

/-- The most bytes that are read of a proxy's answer. -/
def responseLimit : Nat := 8192

/-- The request that asks a proxy for a tunnel. -/
def connectRequest (host : String) (port : UInt16) : String :=
  s!"CONNECT {host}:{port} HTTP/1.1\r\nHost: {host}:{port}\r\nProxy-Connection: Keep-Alive\r\n\r\n"

/-- An empty line has just been read; the newest byte comes first. -/
def endsHeader : Bytes → Bool
  | 10 :: 13 :: 10 :: 13 :: _ => true
  | _ => false

/-- Reads up to the first empty line, one byte at a time, so that nothing behind it is taken. `got` is
what was read before, newest byte first, and `left` how much more may be read. -/
def readHeader : (left : Nat) → (got : Bytes) → Inbound → Except TunnelError Bytes × Inbound
  | 0, _, inbound => (.error .responseTooLarge, inbound)
  | left + 1, got, inbound =>
    match inbound.read 1 with
    | (.error cause, rest) => (.error (.stream .connectResponse cause), rest)
    | (.ok [], rest) => (.error .responseCutShort, rest)
    | (.ok (b :: _), rest) =>
      if endsHeader (b :: got) then (.ok (b :: got).reverse, rest) else readHeader left (b :: got) rest

/-- Whether the first line of a response opens the tunnel: its first word names a version 1 of the
protocol, its second word is the code 200. -/
def judgeResponse (response : Bytes) : Except TunnelError Unit :=
  let line := Text.firstLine (Text.lossy response)
  let (version, rest) := Text.firstWord line
  let (code, _) := Text.firstWord rest
  if !"HTTP/1.".toList.isPrefixOf version then .error (.malformedResponse (String.ofList line))
  else if code ≠ "200".toList then .error (.refused (String.ofList line))
  else .ok ()

/-- Asks an HTTP proxy to open a tunnel to `host` and `port`. -/
def httpConnect (host : String) (port : UInt16) : Negotiation Unit := do
  Negotiation.write .connectRequest (Text.utf8 (connectRequest host port))
  Negotiation.flush .connectRequest
  let response ← (fun peer =>
    let (answer, rest) := readHeader responseLimit [] peer.inbound
    (answer, { peer with inbound := rest }) : Negotiation Bytes)
  match judgeResponse response with
  | .ok () => return ()
  | .error problem => throw problem

end PushGateway.Tunnel
