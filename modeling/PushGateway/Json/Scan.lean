import PushGateway.Json.Value
import PushGateway.Decimal.Digits
import PushGateway.Decimal.Scaled

namespace PushGateway.Json

/-- What is wrong with a text at the first place where something is. -/
inductive Fault
  /-- It is not of this format. -/
  | malformed
  /-- It ends too early. -/
  | unfinished
  /-- It has not the shape that was asked for. -/
  | unfitting
  deriving Repr, DecidableEq, Inhabited

/-- What was read from the front of a text, and the text after it. -/
abbrev Scanned (α : Type) := Except Fault (α × List Char)

def isBlank (c : Char) : Bool := c == ' ' || c == '\n' || c == '\t' || c == '\r'

def skipBlanks (cs : List Char) : List Char := cs.dropWhile isBlank

/-- Passes over the letters that are due. -/
def word : (due : List Char) → List Char → Except Fault (List Char)
  | [], cs => .ok cs
  | _ :: _, [] => .error .unfinished
  | d :: due, c :: cs => if c = d then word due cs else .error .malformed

def hexValue? (c : Char) : Option Nat :=
  if '0' ≤ c ∧ c ≤ '9' then some (c.toNat - 48)
  else if 'a' ≤ c ∧ c ≤ 'f' then some (c.toNat - 87)
  else if 'A' ≤ c ∧ c ≤ 'F' then some (c.toNat - 55)
  else none

/-- How many bytes characters take in UTF-8. -/
def utf8Size (cs : List Char) : Nat := cs.foldl (fun n c => n + c.utf8Size) 0

/-- Reads four hexadecimal digits. Fewer than four bytes count as the end of the text,
whatever they are. -/
def fourDigits (cs : List Char) : Scanned Nat :=
  if utf8Size (cs.take 4) < 4 then .error .unfinished
  else
    match cs with
    | a :: b :: c :: d :: rest =>
      match hexValue? a, hexValue? b, hexValue? c, hexValue? d with
      | some a, some b, some c, some d => .ok (((a * 16 + b) * 16 + c) * 16 + d, rest)
      | _, _, _, _ => .error .malformed
    | _ => .error .malformed

def isHighSurrogate (n : Nat) : Bool := 0xD800 ≤ n && n ≤ 0xDBFF

def isLowSurrogate (n : Nat) : Bool := 0xDC00 ≤ n && n ≤ 0xDFFF

/-- Reads the rest of an escape behind a backslash and a `u`. Two surrogates make one character. -/
def unicodeEscape (cs : List Char) : Scanned Char :=
  match fourDigits cs with
  | .error fault => .error fault
  | .ok (high, rest) =>
    if isLowSurrogate high then .error .malformed
    else if isHighSurrogate high then
      match rest with
      | [] | ['\\'] => .error .unfinished
      | '\\' :: 'u' :: rest =>
        match fourDigits rest with
        | .error fault => .error fault
        | .ok (low, rest) =>
          if isLowSurrogate low then
            .ok (Char.ofNat (0x10000 + (high - 0xD800) * 0x400 + (low - 0xDC00)), rest)
          else .error .malformed
      | _ => .error .malformed
    else .ok (Char.ofNat high, rest)

def simpleEscape? (c : Char) : Option Char :=
  match c with
  | '"' => some '"'
  | '\\' => some '\\'
  | '/' => some '/'
  | 'b' => some '\x08'
  | 'f' => some '\x0c'
  | 'n' => some '\n'
  | 'r' => some '\r'
  | 't' => some '\t'
  | _ => none

/-- Reads an escape behind its backslash. A text that is not kept may name half a surrogate pair. -/
def escape (kept : Bool) : List Char → Scanned Char
  | [] => .error .unfinished
  | 'u' :: rest =>
    if kept then unicodeEscape rest
    else
      match fourDigits rest with
      | .error fault => .error fault
      | .ok (n, rest) => .ok (Char.ofNat n, rest)
  | c :: rest =>
    match simpleEscape? c with
    | some plain => .ok (plain, rest)
    | none => .error .malformed

theorem length_of_fourDigits {cs rest : List Char} {n : Nat} (read : fourDigits cs = .ok (n, rest)) :
    rest.length < cs.length := by
  unfold fourDigits at read
  split at read
  · cases read
  · split at read
    · split at read <;> cases read
      simp only [List.length_cons]
      omega
    · cases read

theorem length_of_unicodeEscape {cs rest : List Char} {c : Char} (read : unicodeEscape cs = .ok (c, rest)) :
    rest.length < cs.length := by
  unfold unicodeEscape at read
  split at read
  · cases read
  · rename_i high after first
    have less := length_of_fourDigits first
    split at read
    · cases read
    · split at read
      · split at read
        · cases read
        · cases read
        · split at read
          · cases read
          · rename_i second
            have lessAgain := length_of_fourDigits second
            split at read
            · simp only [Except.ok.injEq, Prod.mk.injEq] at read
              rw [← read.2]
              simp only [List.length_cons] at less
              omega
            · cases read
        · cases read
      · simp only [Except.ok.injEq, Prod.mk.injEq] at read
        rw [← read.2]
        exact less

theorem length_of_escape {kept : Bool} {cs rest : List Char} {c : Char}
    (read : escape kept cs = .ok (c, rest)) : rest.length < cs.length := by
  unfold escape at read
  split at read
  · cases read
  · split at read
    · exact Nat.lt_succ_of_lt (length_of_unicodeEscape read)
    · split at read
      · cases read
      · rename_i digits
        simp only [Except.ok.injEq, Prod.mk.injEq] at read
        rw [← read.2]
        exact Nat.lt_succ_of_lt (length_of_fourDigits digits)
  · split at read <;> cases read
    simp

/-- Reads the characters of a text up to its closing quote. -/
def characters (kept : Bool) (cs : List Char) : Scanned (List Char) :=
  match cs with
  | [] => .error .unfinished
  | '"' :: rest => .ok ([], rest)
  | '\\' :: rest =>
    match _read : escape kept rest with
    | .error fault => .error fault
    | .ok (c, rest) =>
      match characters kept rest with
      | .error fault => .error fault
      | .ok (later, rest) => .ok (c :: later, rest)
  | c :: rest =>
    if c.toNat < 0x20 then .error .malformed
    else
      match characters kept rest with
      | .error fault => .error fault
      | .ok (later, rest) => .ok (c :: later, rest)
termination_by cs.length
decreasing_by
  · exact Nat.lt_succ_of_lt (length_of_escape _read)
  · simp

/-- Digits are taken into a number as long as it stays below 2^64; those behind are left. -/
def absorb (n : Nat) : List Char → Nat × List Char
  | [] => (n, [])
  | d :: ds =>
    let next := n * 10 + Decimal.digitValue d
    if next < 18446744073709551616 then absorb next ds else (n, d :: ds)

def splitDigits (cs : List Char) : List Char × List Char :=
  (cs.takeWhile Decimal.isDigit, cs.dropWhile Decimal.isDigit)

/-- What is missing where digits are due: the text is at its end, or something else stands there. -/
def missingDigits (rest : List Char) : Fault :=
  if rest.isEmpty then .unfinished else .malformed

/-- The value of a number that has a point or an exponent, or that is too large. -/
def approximate (negative : Bool) (significand : Nat) (exponent : Int) (rest : List Char) : Scanned Json :=
  match Decimal.scaled significand exponent with
  | some x => .ok (.float (if negative then -x else x), rest)
  | none => .error .malformed

/-- Reads an exponent behind its letter. -/
def numberExponent (negative : Bool) (significand : Nat) (exponent : Int) (cs : List Char) : Scanned Json :=
  let (down, cs) := match cs with
    | '+' :: rest => (false, rest)
    | '-' :: rest => (true, rest)
    | cs => (false, cs)
  let (ds, rest) := splitDigits cs
  if ds.isEmpty then .error (missingDigits rest)
  else
    let shift : Int := Decimal.value 0 ds
    approximate negative significand (if down then exponent - shift else exponent + shift) rest

def isExponentLetter (c : Char) : Bool := c == 'e' || c == 'E'

/-- Reads what stands behind the point of a number. -/
def numberFraction (negative : Bool) (significand : Nat) (exponent : Int) (cs : List Char) : Scanned Json :=
  let (ds, rest) := splitDigits cs
  if ds.isEmpty then .error (missingDigits rest)
  else
    let (significand, ignored) := absorb significand ds
    let exponent := exponent - (ds.length - ignored.length : Nat)
    match rest with
    | c :: more =>
      if isExponentLetter c then numberExponent negative significand exponent more
      else approximate negative significand exponent rest
    | [] => approximate negative significand exponent []

/-- An integer stays one if it fits in 64 bits; zero with a minus sign does not count as an integer. -/
def integer (negative : Bool) (n : Nat) (rest : List Char) : Scanned Json :=
  if negative ∧ n = 0 then approximate true 0 0 rest
  else
    match Whole.ofInt? (if negative then -(n : Int) else n) with
    | some exact => .ok (.whole exact, rest)
    | none => approximate negative n 0 rest

/-- Reads a number behind its sign. -/
def number (negative : Bool) (cs : List Char) : Scanned Json :=
  let (ds, rest) := splitDigits cs
  if ds.isEmpty then .error (missingDigits rest)
  else if ds.head? = some '0' ∧ 1 < ds.length then .error .malformed
  else
    let (significand, ignored) := absorb 0 ds
    match rest with
    | '.' :: more => numberFraction negative significand ignored.length more
    | c :: more =>
      if isExponentLetter c then numberExponent negative significand ignored.length more
      else if ignored.isEmpty then integer negative significand rest
      else approximate negative significand ignored.length rest
    | [] =>
      if ignored.isEmpty then integer negative significand []
      else approximate negative significand ignored.length []

/-- Passes over the exponent of a number behind its letter. -/
def skipExponent (cs : List Char) : Except Fault (List Char) :=
  let cs := match cs with
    | '+' :: rest | '-' :: rest => rest
    | cs => cs
  let (ds, rest) := splitDigits cs
  if ds.isEmpty then .error .malformed else .ok rest

/-- Passes over a number behind its sign. No value is formed, so none is too large, and a number
that stops short at the end of the text counts as malformed. -/
def skipNumber (cs : List Char) : Except Fault (List Char) :=
  let (ds, rest) := splitDigits cs
  if ds.isEmpty ∨ ds.head? = some '0' ∧ 1 < ds.length then .error .malformed
  else
    match rest with
    | '.' :: more =>
      let (ds, rest) := splitDigits more
      if ds.isEmpty then .error .malformed
      else
        match rest with
        | c :: more => if isExponentLetter c then skipExponent more else .ok rest
        | [] => .ok []
    | c :: more => if isExponentLetter c then skipExponent more else .ok rest
    | [] => .ok []

end PushGateway.Json
