/-!
# Hexadecimal text

Bytes appear in messages as two lower-case hexadecimal digits. Wider values are padded to at
least a given number of digits and never cut. A row of bytes is written without anything between
them, and read back in either case.
-/

namespace EcLink.Hex

/-- The lower-case hexadecimal digits of `value`, padded with zeros to at least `width`. -/
def padded (width value : Nat) : String :=
  let digits := Nat.toDigits 16 value
  String.ofList (List.replicate (width - digits.length) '0' ++ digits)

def byte (value : UInt8) : String := padded 2 value.toNat

def bracketed (values : List UInt8) : String :=
  "[" ++ ", ".intercalate (values.map byte) ++ "]"

def encode (values : List UInt8) : String := String.join (values.map byte)

def digit? (digit : Char) : Option UInt8 :=
  if '0' ≤ digit ∧ digit ≤ '9' then
    some (UInt8.ofNat (digit.toNat - '0'.toNat))
  else if 'a' ≤ digit ∧ digit ≤ 'f' then
    some (UInt8.ofNat (digit.toNat - 'a'.toNat + 10))
  else if 'A' ≤ digit ∧ digit ≤ 'F' then
    some (UInt8.ofNat (digit.toNat - 'A'.toNat + 10))
  else
    none

def decodePairs? : List Char → Option (List UInt8)
  | [] => some []
  | [_] => none
  | high :: low :: rest => do
      let value := 16 * (← digit? high) + (← digit? low)
      return value :: (← decodePairs? rest)

/-- The bytes that a row of digits stands for; nothing if it is no such row. -/
def decode? (text : String) : Option (List UInt8) := decodePairs? text.toList

end EcLink.Hex
