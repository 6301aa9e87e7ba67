import SchemaAudit.Text.Classes
import SchemaAudit.Toml.Text
import SchemaAudit.Toml.Value

/-!
# Numbers, dates and times of settings files

Underscores may stand between digits. Whole numbers have 64 bits with a sign and may be written in
four bases; numbers with a point or an exponent may not be too large. A moment is a date, a time of
day, or both.
-/

namespace SchemaAudit.Toml

open Reader

/-- Whether a character is a digit of a base of at most sixteen. -/
def isDigitOf (base : Nat) (c : Char) : Bool := (Text.hexValue? c).any (· < base)

/-- Digits of a kind, with underscores between them. -/
def grouped (p : Char → Bool) : Reader (List Char) := do
  let first ← satisfy p
  let more ← many (satisfy p <|> (do char '_'; satisfy p))
  return first :: more

/-- Whether a number has a minus sign. -/
def sign : Reader Bool := do
  match ← Reader.optional (satisfy fun c => c == '+' || c == '-') with
  | some c => return c == '-'
  | none => return false

/-- Decimal digits of which the first is no nought, or a nought alone. -/
def wholeDigits : Reader (List Char) := do
  let digits ← grouped Text.isDigit
  match digits with
  | '0' :: _ :: _ => failure
  | _ => return digits

/-! ## Whole numbers -/

/-- The number with a sign and a size, if it has 64 bits. -/
def word64 (negative : Bool) (size : Nat) : Reader Int :=
  if negative then
    if size ≤ Nat.pow 2 63 then return -(size : Int) else failure
  else if size < Nat.pow 2 63 then return (size : Int)
  else failure

/-- A number in a base that is named before it. -/
def basedInteger (mark : String) (base : Nat) : Reader Int := do
  word mark
  word64 false (Text.natInBase base (← grouped (isDigitOf base)))

def decimalInteger : Reader Int := do
  let negative ← sign
  word64 negative (Text.natOfDigits (← wholeDigits))

def wholeNumber : Reader Int :=
  basedInteger "0x" 16 <|> basedInteger "0o" 8 <|> basedInteger "0b" 2 <|> decimalInteger

/-! ## Other numbers -/

/-- Whether a number with the given digits, times a power of ten, is nearer to `2 ^ 1024` than to
any smaller number with 53 significant bits. -/
def isTooLarge (digits : List Char) (exponent : Int) : Bool :=
  let n := Text.natOfDigits digits
  if n = 0 ∨ digits.length + exponent < 300 then false
  else if 400 < exponent then true
  else
    (Nat.pow 2 54 - 1) * Nat.pow 2 970 * Nat.pow 10 (-exponent).toNat
      ≤ n * Nat.pow 10 exponent.toNat

def fraction : Reader (List Char) := do
  char '.'
  grouped Text.isDigit

def exponent : Reader Int := do
  let _ ← satisfy fun c => c == 'e' || c == 'E'
  let negative ← sign
  let size := Text.natOfDigits (← grouped Text.isDigit)
  return if negative then -(size : Int) else size

/-- A number with a point or an exponent. -/
def pointed : Reader Unit := do
  let negative ← sign
  let whole ← wholeDigits
  let (places, raised) ←
    (do
      let places ← fraction
      return (places, (← Reader.optional exponent).getD 0))
    <|> (do return ([], ← exponent))
  if !negative && isTooLarge (whole ++ places) (raised - places.length) then failure

/-- A number that is not finite. -/
def unbounded : Reader Unit := do
  let _ ← sign
  word "inf" <|> word "nan"

/-! ## Moments -/

/-- A number of a fixed count of digits, within limits. -/
def fixed (count low high : Nat) : Reader Nat := do
  let n := Text.natOfDigits (← times Text.isDigit count)
  if low ≤ n ∧ n ≤ high then return n else failure

def daysIn (year month : Nat) : Nat :=
  if month = 2 then
    if year % 4 = 0 ∧ (year % 100 ≠ 0 ∨ year % 400 = 0) then 29 else 28
  else if month = 4 ∨ month = 6 ∨ month = 9 ∨ month = 11 then 30
  else 31

def date : Reader Unit := do
  let year ← fixed 4 0 9999
  char '-'
  let month ← fixed 2 1 12
  char '-'
  let _ ← fixed 2 1 (daysIn year month)

def time : Reader Unit := do
  let _ ← fixed 2 0 23
  char ':'
  let _ ← fixed 2 0 59
  char ':'
  let _ ← fixed 2 0 60
  let _ ← Reader.optional (do char '.'; span1 Text.isDigit)

/-- The distance of a time from that of the zero meridian. -/
def zone : Reader Unit :=
  (do let _ ← satisfy fun c => c == 'Z' || c == 'z')
  <|> do
    let _ ← satisfy fun c => c == '+' || c == '-'
    let _ ← fixed 2 0 23
    char ':'
    let _ ← fixed 2 0 59

def dateOrTime : Reader Unit :=
  (do
    date
    let _ ← Reader.optional do
      let _ ← satisfy fun c => c == 'T' || c == 't' || c == ' '
      time
      Reader.optional zone)
  <|> time

/-- A number or a moment. -/
def number : Reader Toml :=
  (do dateOrTime; return .moment) <|> (do pointed; return .float) <|> (do unbounded; return .float)
    <|> (.integer <$> wholeNumber)

end SchemaAudit.Toml
