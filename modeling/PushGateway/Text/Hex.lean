import PushGateway.Text.Utf8
import PushGateway.Text.Quoted

namespace PushGateway

inductive HexError
  /-- The text has an odd number of bytes. -/
  | oddLength (bytes : Nat)
  /-- The leftmost byte that is no hexadecimal digit. -/
  | badDigit (byte : UInt8) (index : Nat)
  deriving Repr, DecidableEq

def HexError.message : HexError → String
  | .oddLength bytes => s!"odd length {bytes}"
  | .badDigit byte index => s!"invalid character {Text.quoted byte} at {index}"

namespace Hex

def digitValue? (b : UInt8) : Option UInt8 :=
  if 48 ≤ b && b ≤ 57 then some (b - 48)
  else if 97 ≤ b && b ≤ 102 then some (b - 87)
  else if 65 ≤ b && b ≤ 70 then some (b - 55)
  else none

/-- The digit of a value below 16, in lower case. -/
def digit (n : UInt8) : Char :=
  Char.ofNat (if n < 10 then n.toNat + 48 else n.toNat + 87)

/-- Two lower-case digits for each byte. -/
def encode (bytes : Bytes) : String :=
  String.ofList (bytes.flatMap fun b => [digit (b / 16), digit (b % 16)])

/-- Reads digits pair by pair; `index` is the place of the first one in the whole text. -/
def decodePairs (index : Nat) : Bytes → Except HexError Bytes
  | [] => .ok []
  | [_] => .error (.oddLength (index + 1))
  | a :: b :: rest =>
    match digitValue? a, digitValue? b with
    | none, _ => .error (.badDigit a index)
    | some _, none => .error (.badDigit b (index + 1))
    | some high, some low =>
      match decodePairs (index + 2) rest with
      | .error problem => .error problem
      | .ok bytes => .ok ((high * 16 + low) :: bytes)

/-- Reads a text of hexadecimal digits in either case. Lengths and places count UTF-8 bytes,
and the length is looked at before any digit. -/
def decode (text : String) : Except HexError Bytes :=
  let bytes := Text.utf8 text
  if bytes.length % 2 = 1 then .error (.oddLength bytes.length) else decodePairs 0 bytes

end Hex
end PushGateway
