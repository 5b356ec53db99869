import PushGateway.Tunnel.Basic

namespace PushGateway.Tunnel

structure Credentials where
  user : String
  password : String
  deriving Repr, DecidableEq, Inhabited

/-- The version of the protocol, which opens every message but those on authentication. -/
def socksVersion : UInt8 := 5

def plainMethod : UInt8 := 0

def passwordMethod : UInt8 := 2

/-- The answer of a proxy to which none of the offered methods will do. -/
def rejectedMethods : UInt8 := 255

/-- Offers the password method only with credentials. -/
def greeting (credentials : Option Credentials) : Bytes :=
  match credentials with
  | some _ => [socksVersion, 2, plainMethod, passwordMethod]
  | none => [socksVersion, 1, plainMethod]

/-- The bytes of a text behind their number in one byte, which is written modulo 256. -/
def shortText (text : String) : Bytes :=
  UInt8.ofNat (Text.utf8 text).length :: Text.utf8 text

def fitsShort (text : String) : Bool := (Text.utf8 text).length ≤ 255

def passwordRequest (credentials : Credentials) : Bytes :=
  1 :: (shortText credentials.user ++ shortText credentials.password)

def authenticate (credentials : Credentials) : Negotiation Unit := do
  if !fitsShort credentials.user then throw .userNameTooLong
  if !fitsShort credentials.password then throw .passwordTooLong
  Negotiation.write .authentication (passwordRequest credentials)
  match ← Negotiation.readExactly .authenticationReply 2 with
  | [_, 0] => return ()
  | _ => throw .notAuthenticated

/-- Settles how the client shows who it is. -/
def agreeOnMethod (credentials : Option Credentials) : Negotiation Unit := do
  Negotiation.write .greeting (greeting credentials)
  match ← Negotiation.readExactly .greetingReply 2 with
  | [version, method] =>
    if version ≠ socksVersion then throw (.unexpectedVersion version)
    if method = plainMethod then return ()
    match credentials with
    | some credentials =>
      if method = passwordMethod then authenticate credentials
      else if method = rejectedMethods then throw .noCommonMethod
      else throw (.unsupportedMethod method)
    | none => if method = rejectedMethods then throw .noCommonMethod else throw (.unsupportedMethod method)
  | _ => throw (.stream .greetingReply .endedEarly)

/-- Asks for a connection to a host that is given by name. -/
def socksRequest (host : String) (port : UInt16) : Bytes :=
  [socksVersion, 1, 0, 3] ++ shortText host ++ Bytes.ofWord16 port

/-- How many bytes the address in a reply has, by its type. -/
def addressLength (type : UInt8) : Negotiation Nat :=
  if type = 1 then return 4
  else if type = 4 then return 16
  else if type = 3 then do
    match ← Negotiation.readExactly .boundAddress 1 with
    | [length] => return length.toNat
    | _ => throw (.stream .boundAddress .endedEarly)
  else throw (.unknownAddressType type)

/-- Negotiates a tunnel to `host` and `port` with a SOCKS5 proxy. -/
def socksConnect (host : String) (port : UInt16) (credentials : Option Credentials) : Negotiation Unit := do
  agreeOnMethod credentials
  if !fitsShort host then throw (.hostTooLong host)
  Negotiation.write .socksRequest (socksRequest host port)
  match ← Negotiation.readExactly .socksReply 4 with
  | [_, code, _, type] =>
    if code ≠ 0 then throw (.notConnected code)
    let length ← addressLength type
    let _ ← Negotiation.readExactly .boundAddress (length + 2)
  | _ => throw (.stream .socksReply .endedEarly)

end PushGateway.Tunnel
