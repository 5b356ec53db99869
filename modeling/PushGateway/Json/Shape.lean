import PushGateway.Json.Reader

namespace PushGateway.Json

/-- Reads a value of one shape from the front of a text. The first fault from the left is the
one that is reported. -/
abbrev Reader (α : Type) := List Char → Scanned α

namespace Reader

/-- The fault of a value that has another shape. What stands there is still read as far as is needed
to tell whether it is well formed. -/
def unfitting (cs : List Char) : Fault :=
  match cs with
  | [] => .unfinished
  | 'n' :: rest => after (word ['u', 'l', 'l'] rest)
  | 't' :: rest => after (word ['r', 'u', 'e'] rest)
  | 'f' :: rest => after (word ['a', 'l', 's', 'e'] rest)
  | '-' :: rest => after (number true rest)
  | '"' :: rest => after (characters true rest)
  | '[' :: _ | '{' :: _ => .unfitting
  | c :: rest => if Decimal.isDigit c then after (number false (c :: rest)) else .malformed
where
  after {α : Type} : Except Fault α → Fault
    | .error fault => fault
    | .ok _ => .unfitting

def text : Reader String := fun cs =>
  match skipBlanks cs with
  | '"' :: rest =>
    match characters true rest with
    | .error fault => .error fault
    | .ok (s, rest) => .ok (String.ofList s, rest)
  | cs => .error (unfitting cs)

/-- An integer from 0 to `limit`. -/
def natural (limit : Nat) : Reader Nat := fun cs =>
  let judge : Scanned Json → Scanned Nat
    | .error fault => .error fault
    | .ok (.whole n, rest) =>
      if 0 ≤ n.val ∧ n.val ≤ limit then .ok (n.val.toNat, rest) else .error .unfitting
    | .ok _ => .error .unfitting
  match skipBlanks cs with
  | '-' :: rest => judge (number true rest)
  | c :: rest => if Decimal.isDigit c then judge (number false (c :: rest)) else .error (unfitting (c :: rest))
  | [] => .error .unfinished

def bool : Reader Bool := fun cs =>
  match skipBlanks cs with
  | 't' :: rest =>
    match word ['r', 'u', 'e'] rest with
    | .error fault => .error fault
    | .ok rest => .ok (true, rest)
  | 'f' :: rest =>
    match word ['a', 'l', 's', 'e'] rest with
    | .error fault => .error fault
    | .ok rest => .ok (false, rest)
  | cs => .error (unfitting cs)

def null : Reader Unit := fun cs =>
  match skipBlanks cs with
  | 'n' :: rest =>
    match word ['u', 'l', 'l'] rest with
    | .error fault => .error fault
    | .ok rest => .ok ((), rest)
  | cs => .error (unfitting cs)

/-- A value, or `null` for none. -/
def optional {α : Type} (inner : Reader α) : Reader (Option α) := fun cs =>
  match skipBlanks cs with
  | 'n' :: rest =>
    match word ['u', 'l', 'l'] rest with
    | .error fault => .error fault
    | .ok rest => .ok (none, rest)
  | cs =>
    match inner cs with
    | .error fault => .error fault
    | .ok (value, rest) => .ok (some value, rest)

def map {α β : Type} (f : α → β) (inner : Reader α) : Reader β := fun cs =>
  match inner cs with
  | .error fault => .error fault
  | .ok (value, rest) => .ok (f value, rest)

end Reader

/-- One member of a record that is read into a draft. -/
structure RecordField (δ : Type) where
  name : String
  /-- Whether the draft has this member already. -/
  filled : δ → Bool
  read : δ → Reader δ

namespace RecordField

/-- A member that is kept in an optional place of the draft. -/
def of {δ α : Type} (name : String) (get : δ → Option α) (set : δ → α → δ) (inner : Reader α) :
    RecordField δ where
  name := name
  filled draft := (get draft).isSome
  read draft := inner.map (set draft)

end RecordField

/-- How the members of a record make up a value. -/
structure RecordShape (δ α : Type) where
  fields : List (RecordField δ)
  /-- Members of other names are not passed over. -/
  closed : Bool
  empty : δ
  /-- There is no value while a member is missing, or where the members do not go together. -/
  finish : δ → Option α

namespace RecordShape

/-- Reads what is behind a colon. -/
def afterColon {α : Type} (inner : Reader α) : Reader α := fun cs =>
  match skipBlanks cs with
  | [] => .error .unfinished
  | ':' :: rest => inner rest
  | _ => .error .malformed

/-- Reads members by name, up to the closing brace, which is left. There are fewer members than
characters, so `left` is no limit. -/
def readNamed {δ α : Type} (shape : RecordShape δ α) : (left : Nat) → (first : Bool) → δ → Reader δ
  | 0, _, _, _ => .error .malformed
  | left + 1, first, draft, cs =>
    let readMember (cs : List Char) : Scanned δ :=
      match characters true cs with
      | .error fault => .error fault
      | .ok (name, rest) =>
        match shape.fields.find? (·.name == String.ofList name) with
        | some field =>
          if field.filled draft then .error .unfitting
          else
            match afterColon (field.read draft) rest with
            | .error fault => .error fault
            | .ok (draft, rest) => readNamed shape left false draft rest
        | none =>
          if shape.closed then .error .unfitting
          else
            match afterColon (fun cs => (skip cs).map ((), ·)) rest with
            | .error fault => .error fault
            | .ok (_, rest) => readNamed shape left false draft rest
    match skipBlanks cs with
    | [] => .error .unfinished
    | '}' :: rest => .ok (draft, '}' :: rest)
    | ',' :: rest =>
      if first then .error .malformed
      else
        match skipBlanks rest with
        | [] => .error .unfinished
        | '"' :: rest => readMember rest
        | _ => .error .malformed
    | '"' :: rest => if first then readMember rest else .error .malformed
    | _ => .error .malformed

/-- Reads the members in their order, as the items of a list. -/
def readListed {δ : Type} : List (RecordField δ) → (first : Bool) → δ → Reader δ
  | [], _, draft, cs => .ok (draft, cs)
  | field :: fields, first, draft, cs =>
    let readItem (cs : List Char) : Scanned δ :=
      match field.read draft cs with
      | .error fault => .error fault
      | .ok (draft, rest) => readListed fields false draft rest
    match skipBlanks cs with
    | [] => .error .unfinished
    | ']' :: _ => .error .unfitting
    | c :: rest =>
      if first then readItem (c :: rest)
      else if c = ',' then
        match skipBlanks rest with
        | [] => .error .unfinished
        | ']' :: _ => .error .malformed
        | rest => readItem rest
      else .error .malformed

/-- A record is written with the names of its members, or as a list of all of them in order. -/
def reader {δ α : Type} (shape : RecordShape δ α) : Reader α := fun cs =>
  let close (bracket : Char) : Scanned δ → Scanned α
    | .error fault => .error fault
    | .ok (draft, rest) =>
      match shape.finish draft with
      | none => .error .unfitting
      | some value =>
        match skipBlanks rest with
        | [] => .error .unfinished
        | c :: rest => if c = bracket then .ok (value, rest) else .error .malformed
  match skipBlanks cs with
  | '[' :: rest => close ']' (readListed shape.fields true shape.empty rest)
  | '{' :: rest => close '}' (readNamed shape (rest.length + 1) true shape.empty rest)
  | cs => .error (Reader.unfitting cs)

end RecordShape

/-- What stands behind the name of a variant: nothing, or a value. -/
inductive Variant (α : Type)
  | plain (value : α)
  | holding (read : Reader α)

namespace Variant

/-- Reads the name of a variant behind its opening quote. -/
def readName {α : Type} (variants : List (String × Variant α)) : Reader (Variant α) := fun cs =>
  match characters true cs with
  | .error fault => .error fault
  | .ok (name, rest) =>
    match variants.lookup (String.ofList name) with
    | some variant => .ok (variant, rest)
    | none => .error .unfitting

/-- A variant is written as a record with its name as the only member, and one that holds nothing
also as its name alone. -/
def reader {α : Type} (variants : List (String × Variant α)) : Reader α := fun cs =>
  match skipBlanks cs with
  | [] => .error .unfinished
  | '"' :: rest =>
    match readName variants rest with
    | .error fault => .error fault
    | .ok (plain value, rest) => .ok (value, rest)
    | .ok (holding _, _) => .error .unfitting
  | '{' :: rest =>
    match skipBlanks rest with
    | '"' :: rest =>
      match readName variants rest with
      | .error fault => .error fault
      | .ok (variant, rest) =>
        let inner : Reader α := match variant with
          | plain value => Reader.null.map fun _ => value
          | holding read => read
        match RecordShape.afterColon inner rest with
        | .error fault => .error fault
        | .ok (value, rest) =>
          match skipBlanks rest with
          | [] => .error .unfinished
          | '}' :: rest => .ok (value, rest)
          | _ => .error .malformed
    | [] => .error .unfinished
    | _ => .error .malformed
  | _ => .error .malformed

end Variant

/-- Reads a text that holds one value of a shape and nothing else. -/
def readAs {α : Type} (reader : Reader α) (source : String) : Except Fault α :=
  match reader source.toList with
  | .error fault => .error fault
  | .ok (value, rest) => if (skipBlanks rest).isEmpty then .ok value else .error .malformed

end PushGateway.Json
