/-!
# Numerals in messages

Addresses and other words are written in lower-case hexadecimal after `0x`, without
leading zeros.  Columns are filled up on the left.
-/

namespace Interhart

def hexadecimal (n : Nat) : String := "0x" ++ String.ofList (Nat.toDigits 16 n)

def padLeft (fill : Char) (width : Nat) (text : String) : String :=
  String.ofList (text.toList.leftpad width fill)

def padRight (width : Nat) (text : String) : String :=
  String.ofList (text.toList.rightpad width ' ')

end Interhart
