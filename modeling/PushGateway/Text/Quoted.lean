namespace PushGateway.Text

/-- Bytes that are controls, a space other than U+0020 or a soft hyphen when read as code points. -/
def isInvisible (b : UInt8) : Bool :=
  b < 0x20 || (0x7F ≤ b && b ≤ 0xA0) || b == 0xAD

/-- A byte, read as the code point of its value, between single quotes. What cannot be
seen is written with a backslash. -/
def quoted (b : UInt8) : String :=
  let inside :=
    if b == 0 then "\\0"
    else if b == 9 then "\\t"
    else if b == 10 then "\\n"
    else if b == 13 then "\\r"
    else if b == 39 then "\\'"
    else if b == 92 then "\\\\"
    else if isInvisible b then "\\u\x7b" ++ String.ofList (Nat.toDigits 16 b.toNat) ++ "\x7d"
    else String.singleton (Char.ofNat b.toNat)
  "'" ++ inside ++ "'"

end PushGateway.Text
