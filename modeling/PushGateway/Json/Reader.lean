import PushGateway.Json.Scan

namespace PushGateway.Json

/-- Reads a number in front of `cs`; of one that is not kept the value is left out. -/
def anyNumber (kept negative : Bool) (cs : List Char) : Scanned Json :=
  if kept then number negative cs
  else
    match skipNumber cs with
    | .error fault => .error fault
    | .ok rest => .ok (null, rest)

mutual

/-- Reads one value. Values nest less deeply than there are characters, so `depth` is no limit. -/
def scan (kept : Bool) : (depth : Nat) → List Char → Scanned Json
  | 0, _ => .error .malformed
  | depth + 1, cs =>
    match skipBlanks cs with
    | [] => .error .unfinished
    | 'n' :: rest =>
      match word ['u', 'l', 'l'] rest with
      | .error fault => .error fault
      | .ok rest => .ok (null, rest)
    | 't' :: rest =>
      match word ['r', 'u', 'e'] rest with
      | .error fault => .error fault
      | .ok rest => .ok (bool true, rest)
    | 'f' :: rest =>
      match word ['a', 'l', 's', 'e'] rest with
      | .error fault => .error fault
      | .ok rest => .ok (bool false, rest)
    | '"' :: rest =>
      match characters kept rest with
      | .error fault => .error fault
      | .ok (s, rest) => .ok (text (String.ofList s), rest)
    | '-' :: rest => anyNumber kept true rest
    | '[' :: rest =>
      match skipBlanks rest with
      | [] => .error .unfinished
      | ']' :: rest => .ok (list [], rest)
      | rest =>
        match scanItems kept depth rest with
        | .error fault => .error fault
        | .ok (items, rest) => .ok (list items, rest)
    | '{' :: rest =>
      match skipBlanks rest with
      | [] => .error .unfinished
      | '}' :: rest => .ok (record [], rest)
      | rest =>
        match scanMembers kept depth rest with
        | .error fault => .error fault
        | .ok (members, rest) => .ok (record members, rest)
    | c :: rest => if Decimal.isDigit c then anyNumber kept false (c :: rest) else .error .malformed

/-- Reads the items of a list up to its closing bracket. -/
def scanItems (kept : Bool) : (depth : Nat) → List Char → Scanned (List Json)
  | 0, _ => .error .malformed
  | depth + 1, cs =>
    match scan kept depth cs with
    | .error fault => .error fault
    | .ok (item, rest) =>
      match skipBlanks rest with
      | [] => .error .unfinished
      | ']' :: rest => .ok ([item], rest)
      | ',' :: rest =>
        match scanItems kept depth rest with
        | .error fault => .error fault
        | .ok (items, rest) => .ok (item :: items, rest)
      | _ => .error .malformed

/-- Reads the members of a record up to its closing brace. Of two with one name the later counts. -/
def scanMembers (kept : Bool) : (depth : Nat) → List Char → Scanned Members
  | 0, _ => .error .malformed
  | depth + 1, cs =>
    match skipBlanks cs with
    | [] => .error .unfinished
    | '"' :: rest =>
      match characters kept rest with
      | .error fault => .error fault
      | .ok (name, rest) =>
        match skipBlanks rest with
        | [] => .error .unfinished
        | ':' :: rest =>
          match scan kept depth rest with
          | .error fault => .error fault
          | .ok (value, rest) =>
            let name := String.ofList name
            match skipBlanks rest with
            | [] => .error .unfinished
            | '}' :: rest => .ok ([(name, value)], rest)
            | ',' :: rest =>
              match scanMembers kept depth rest with
              | .error fault => .error fault
              | .ok (members, rest) =>
                .ok (if (find? name members).isSome then members else insert name value members, rest)
            | _ => .error .malformed
        | _ => .error .malformed
    | _ => .error .malformed

end

/-- Enough for every text: each level of nesting and each item takes at least one character. -/
def depthFor (cs : List Char) : Nat := 2 * cs.length + 2

/-- Passes over one value. -/
def skip (cs : List Char) : Except Fault (List Char) :=
  match scan false (depthFor cs) cs with
  | .error fault => .error fault
  | .ok (_, rest) => .ok rest

/-- Reads a text that holds one value and nothing else. The members of records come out sorted. -/
def read (source : String) : Except Fault Json :=
  let cs := source.toList
  match scan true (depthFor cs) cs with
  | .error fault => .error fault
  | .ok (value, rest) => if (skipBlanks rest).isEmpty then .ok value else .error .malformed

end PushGateway.Json
