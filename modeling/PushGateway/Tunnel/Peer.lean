import PushGateway.Inbound

namespace PushGateway

/-- The far end of a stream on which a tunnel is negotiated: what it will send, what it has received,
and how far it takes what is written to it. -/
structure Peer where
  inbound : Inbound
  received : Bytes := []
  /-- It takes no more than this many bytes in all. -/
  limit : Option Nat := none
  /-- The write that would go beyond so many bytes stops there and the next one fails, once. -/
  writeFailure : Option (Nat × IoError) := none
  /-- The first flush fails. -/
  flushFailure : Option IoError := none
  deriving Repr, Inhabited

namespace Peer

/-- Takes as many of the bytes as the limit allows. -/
def take (bytes : Bytes) (peer : Peer) : Except IoError Unit × Peer :=
  match peer.limit with
  | none => (.ok (), { peer with received := peer.received ++ bytes })
  | some limit =>
    let room := limit - peer.received.length
    let peer := { peer with received := peer.received ++ bytes.take room }
    if room < bytes.length then (.error .tookNothing, peer) else (.ok (), peer)

/-- Writes all the bytes. A write that was interrupted goes on where it stopped. -/
def writeAll (bytes : Bytes) (peer : Peer) : Except IoError Unit × Peer :=
  match peer.writeFailure with
  | none => peer.take bytes
  | some (after, error) =>
    let room := after - peer.received.length
    if bytes.length ≤ room then peer.take bytes
    else
      match peer.take (bytes.take room) with
      | (.error short, peer) => (.error short, peer)
      | (.ok (), peer) =>
        let peer := { peer with writeFailure := none }
        if error.kind = .interrupted then peer.take (bytes.drop room) else (.error error, peer)

def flush (peer : Peer) : Except IoError Unit × Peer :=
  match peer.flushFailure with
  | none => (.ok (), peer)
  | some error => (.error error, { peer with flushFailure := none })

def readExactly (want : Nat) (peer : Peer) : Except IoError Bytes × Peer :=
  let (answer, rest) := peer.inbound.readExactly want
  (answer, { peer with inbound := rest })

end Peer
end PushGateway
