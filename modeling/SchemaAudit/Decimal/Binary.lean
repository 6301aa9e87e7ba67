/-!
# Exact values of binary numbers

A finite number of 64 bits is a whole number times a power of two. Its exact value is compared with
decimal numbers in whole numbers, so that nothing is rounded twice.
-/

namespace SchemaAudit.Decimal

/-- The size `m * 2 ^ q` of a finite number. -/
structure Binary where
  m : Nat
  q : Int
  /-- Whether the gap below the number is half the gap above it. -/
  narrowBelow : Bool
  deriving DecidableEq, Repr

/-- The exponent field of a number, in which all ones stand for no finite number. -/
def exponentField (bits : UInt64) : Nat := bits.toNat / Nat.pow 2 52 % Nat.pow 2 11

def fractionField (bits : UInt64) : Nat := bits.toNat % Nat.pow 2 52

def isNegative (bits : UInt64) : Bool := Nat.pow 2 63 ≤ bits.toNat

def Binary.ofBits (bits : UInt64) : Binary :=
  let e := exponentField bits
  let f := fractionField bits
  if e = 0 then ⟨f, -1074, false⟩ else ⟨Nat.pow 2 52 + f, (e : Int) - 1075, f == 0 && 1 < e⟩

namespace Binary

/-- The numerator of the size as a fraction. -/
def num (x : Binary) : Nat := x.m * Nat.pow 2 x.q.toNat

/-- The denominator of the size as a fraction. -/
def den (x : Binary) : Nat := Nat.pow 2 (-x.q).toNat

end Binary

/-- The whole number nearest to a quotient, of two the even one. -/
def roundHalfEven (num den : Nat) : Nat :=
  let quotient := num / den
  let rest := num % den
  if 2 * rest < den then quotient
  else if den < 2 * rest then quotient + 1
  else if quotient % 2 = 0 then quotient
  else quotient + 1

/-- The size of a number with one digit behind the point. -/
def Binary.onePlace (x : Binary) : List Char :=
  let tenths := roundHalfEven (10 * x.num) x.den
  Nat.toDigits 10 (tenths / 10) ++ '.' :: Nat.toDigits 10 (tenths % 10)

/-- A number with one digit behind the point; a half goes to the even digit. -/
def onePlace (x : Float) : List Char :=
  let bits := x.toBits
  (if isNegative bits then ['-'] else []) ++ (Binary.ofBits bits).onePlace

end SchemaAudit.Decimal
