namespace PushGateway.Text

/-- The characters with the Unicode property `White_Space`. -/
def isBlank (c : Char) : Bool :=
  let n := c.toNat
  (9 ≤ n && n ≤ 13) || n == 0x20 || n == 0x85 || n == 0xA0 || n == 0x1680 ||
    (0x2000 ≤ n && n ≤ 0x200A) || n == 0x2028 || n == 0x2029 || n == 0x202F || n == 0x205F || n == 0x3000

/-- A text with no character but white space, the empty one included. -/
def isBlankText (text : String) : Bool := text.toList.all isBlank

/-- The first longest run of characters that are not white space, and what follows it. -/
def firstWord (text : List Char) : List Char × List Char :=
  let text := text.dropWhile isBlank
  (text.takeWhile (!isBlank ·), text.dropWhile (!isBlank ·))

/-- What stands before the first line feed, without a carriage return at its end. -/
def firstLine (text : List Char) : List Char :=
  let line := text.takeWhile (· ≠ '\n')
  if line.getLast? = some '\r' then line.dropLast else line

end PushGateway.Text
