import PushGateway.Json.Value
import PushGateway.Decimal.Shortest

namespace PushGateway.Json

def hexDigitChar (n : Nat) : Char := Char.ofNat (if n < 10 then 48 + n else 87 + n)

/-- How one character stands inside a text: a quote, a backslash and the controls are escaped,
everything else is written as it is. -/
def escaped (c : Char) : List Char :=
  if c = '"' then ['\\', '"']
  else if c = '\\' then ['\\', '\\']
  else if c = '\x08' then ['\\', 'b']
  else if c = '\t' then ['\\', 't']
  else if c = '\n' then ['\\', 'n']
  else if c = '\x0c' then ['\\', 'f']
  else if c = '\r' then ['\\', 'r']
  else if c.toNat < 0x20 then ['\\', 'u', '0', '0', hexDigitChar (c.toNat / 16), hexDigitChar (c.toNat % 16)]
  else [c]

def quote (text : String) : List Char :=
  '"' :: (text.toList.flatMap escaped ++ ['"'])

def writeWhole (n : Whole) : List Char :=
  match n.val with
  | .ofNat n => Decimal.digits n
  | .negSucc n => '-' :: Decimal.digits (n + 1)

/-- A point alone is used for leading digits from the fifth place behind it to the sixteenth before it. -/
def floatStyle : Decimal.Style := ⟨-5, 15⟩

/-- The fewest digits that read back. What is no number is written as `null`. -/
def writeFloat (x : Float) : List Char :=
  let bits := x.toBits
  let sign := if bits < 0x8000000000000000 then [] else ['-']
  if x.isNaN || x.isInf then "null".toList
  else if x == 0 then sign ++ "0.0".toList
  else
    let (d, e) := (Decimal.Binary.ofBits bits).shortest
    sign ++ floatStyle.write d e

mutual

/-- The text of a value without any blanks. -/
def write : Json → List Char
  | null => "null".toList
  | bool true => "true".toList
  | bool false => "false".toList
  | whole n => writeWhole n
  | float x => writeFloat x
  | text s => quote s
  | list [] => ['[', ']']
  | list (item :: items) => '[' :: (write item ++ writeItems items)
  | record [] => ['{', '}']
  | record ((name, value) :: members) => '{' :: (quote name ++ ':' :: (write value ++ writeMembers members))

/-- What follows the first item of a list. -/
def writeItems : List Json → List Char
  | [] => [']']
  | item :: items => ',' :: (write item ++ writeItems items)

/-- What follows the first member of a record. -/
def writeMembers : List (String × Json) → List Char
  | [] => ['}']
  | (name, value) :: members => ',' :: (quote name ++ ':' :: (write value ++ writeMembers members))

end

def compact (value : Json) : String := String.ofList (write value)

end PushGateway.Json
