import SchemaAudit.Decimal.Binary

/-!
# Shortest decimal texts

The shortest decimal of a number is one with as few digits as will read back as the same number,
and of those the nearest to it. Of the decimals with a given last place only the two next to the
number need to be tried.
-/

namespace SchemaAudit.Decimal

/-- The number `digits * 10 ^ exponent`. -/
structure Scaled where
  digits : Nat
  exponent : Int
  deriving DecidableEq, Repr

/-- Compares `a * 10 ^ i` with `b * 2 ^ j`. -/
def compareScaled (a : Nat) (i : Int) (b : Nat) (j : Int) : Ordering :=
  compare (a * Nat.pow 10 i.toNat * Nat.pow 2 (-j).toNat)
    (b * Nat.pow 2 j.toNat * Nat.pow 10 (-i).toNat)

namespace Binary

/-- Whether a decimal lies among the numbers that are rounded to this one. The ends belong to an
even number. -/
def readsBack (x : Binary) (d : Scaled) : Bool :=
  let low := compareScaled d.digits d.exponent (4 * x.m - if x.narrowBelow then 1 else 2) (x.q - 2)
  let high := compareScaled d.digits d.exponent (4 * x.m + 2) (x.q - 2)
  let even := x.m % 2 == 0
  (low == .gt || (even && low == .eq)) && (high == .lt || (even && high == .eq))

/-- The number of times that a number may be multiplied by ten before it reaches another. -/
def tensBelow (bound : Nat) : (rounds n : Nat) → Nat
  | 0, _ => 0
  | rounds + 1, n => if n < bound then tensBelow bound rounds (10 * n) + 1 else 0

/-- The place of the first digit of a number that is not zero: nought for the units. -/
def leadingPlace (x : Binary) : Int :=
  if x.den ≤ x.num then ((Nat.toDigits 10 (x.num / x.den)).length : Int) - 1
  else -(tensBelow x.den 400 x.num : Int)

/-- The largest decimal with a given last place that is not above the number. -/
def floorAt (x : Binary) (place : Int) : Nat :=
  x.num * Nat.pow 10 (-place).toNat / (x.den * Nat.pow 10 place.toNat)

/-- Whether the number is nearer to the decimal above than to the one below, where a half goes to
the even one. -/
def prefersAbove (x : Binary) (place : Int) (below : Nat) : Bool :=
  match compareScaled (2 * below + 1) place (2 * x.m) x.q with
  | .lt => true
  | .eq => below % 2 == 1
  | .gt => false

/-- The decimal with a given last place that reads back, if there is one. -/
def atPlace? (x : Binary) (place : Int) : Option Scaled :=
  let below := x.floorAt place
  let first : Scaled := ⟨below, place⟩
  let second : Scaled := ⟨below + 1, place⟩
  match x.readsBack first, x.readsBack second with
  | true, true => some (if x.prefersAbove place below then second else first)
  | true, false => some first
  | false, true => some second
  | false, false => none

/-- The shortest decimal of a number that is not zero. Seventeen digits suffice. -/
def shortest (x : Binary) : Scaled :=
  let place := x.leadingPlace
  ((List.range 17).findSome? fun (count : Nat) => x.atPlace? (place - (count : Int))).getD
    ⟨x.m * Nat.pow 5 (-x.q).toNat * Nat.pow 2 x.q.toNat, min x.q 0⟩

end Binary

/-- The digits of a decimal without zeros at the end, and the number of places before the point. -/
def significant (d : Scaled) : List Char × Int :=
  let all := Nat.toDigits 10 d.digits
  ((all.reverse.dropWhile (· = '0')).reverse, all.length + d.exponent)

def zeros (n : Nat) : List Char := List.replicate n '0'

/-- Digits with a point among them, before or behind them. -/
def positional (digits : List Char) (places : Int) : List Char :=
  if places ≤ 0 then '0' :: '.' :: zeros (-places).toNat ++ digits
  else
    let whole := places.toNat
    if whole < digits.length then digits.take whole ++ '.' :: digits.drop whole
    else digits ++ zeros (whole - digits.length) ++ ['.', '0']

/-- The text of an exponent, with its sign. -/
def exponentText (e : Int) : List Char :=
  (if e < 0 then '-' else '+') :: Nat.toDigits 10 e.natAbs

/-- Digits with a point behind the first and an exponent. -/
def scientific (digits : List Char) (places : Int) : List Char :=
  let mantissa := match digits with
    | first :: second :: rest => first :: '.' :: second :: rest
    | short => short
  mantissa ++ 'e' :: exponentText (places - 1)

/-- A decimal as it is written: with an exponent only if the first digit stands six places or more
behind the point, or more than sixteen before it. -/
def layout (digits : List Char) (places : Int) : List Char :=
  if -5 < places ∧ places ≤ 16 then positional digits places else scientific digits places

/-- The shortest text of a finite number. It has a point or an exponent. -/
def shortestText (x : Float) : List Char :=
  let bits := x.toBits
  let size := Binary.ofBits bits
  let text :=
    if size.m = 0 then ['0', '.', '0']
    else
      let (digits, places) := significant size.shortest
      layout digits places
  (if isNegative bits then ['-'] else []) ++ text

end SchemaAudit.Decimal
