/-! Numerals: lower-case hexadecimal output, and the numerals that options accept, an optional plus
    sign before one or more digits of the radix. -/

namespace EtherSwitch.Numeral

/-- The lower-case hexadecimal digits of a number, without leading zeros. -/
def hex (n : Nat) : String := String.ofList (Nat.toDigits 16 n)

/-- The two hexadecimal digits of a byte. -/
def hexByte (b : UInt8) : String :=
  if b.toNat < 16 then "0" ++ hex b.toNat else hex b.toNat

/-- The value of an ASCII digit or letter in a radix up to 36. -/
def digit? (radix : Nat) (c : Char) : Option Nat :=
  let value? : Option Nat :=
    if '0' ≤ c ∧ c ≤ '9' then some (c.toNat - '0'.toNat)
    else if 'a' ≤ c ∧ c ≤ 'z' then some (c.toNat - 'a'.toNat + 10)
    else if 'A' ≤ c ∧ c ≤ 'Z' then some (c.toNat - 'A'.toNat + 10)
    else none
  value?.filter (· < radix)

/-- The number that digits stand for after a number already read. -/
def digitsFrom? (radix : Nat) : Nat → List Char → Option Nat
  | n, [] => some n
  | n, c :: rest => do
    let d ← digit? radix c
    digitsFrom? radix (n * radix + d) rest

/-- Digits alone, at least one. -/
def digits? (radix : Nat) : List Char → Option Nat
  | [] => none
  | c :: rest => digitsFrom? radix 0 (c :: rest)

/-- The number below `bound` that a numeral stands for; one plus sign may come first. -/
def parse? (radix bound : Nat) (text : List Char) : Option Nat :=
  let number? := match text with
    | '+' :: rest => digits? radix rest
    | _ => digits? radix text
  number?.filter (· < bound)

end EtherSwitch.Numeral
