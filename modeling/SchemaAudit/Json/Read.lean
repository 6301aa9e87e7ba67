import SchemaAudit.Json.Value
import SchemaAudit.Text.Classes

/-!
# Reading values

A value is read up to its end or its first fault. Numbers without point and exponent that fit into
64 bits are whole; of longer ones the first digits count, with a power of ten. An escape that stands
for no character spoils its text only for one who needs the characters.
-/

namespace SchemaAudit.Json

def isSpace (c : Char) : Bool := c = ' ' || c = '\n' || c = '\t' || c = '\r'

def skipSpace (s : List Char) : List Char := s.dropWhile isSpace

/-! ## Texts -/

/-- The code that four digits stand for, and what is left behind them. -/
def code : List Char → Except Fault (Nat × List Char)
  | a :: b :: c :: d :: rest =>
    match Text.hexValue? a, Text.hexValue? b, Text.hexValue? c, Text.hexValue? d with
    | some a, some b, some c, some d => .ok (((a * 16 + b) * 16 + c) * 16 + d, rest)
    | _, _, _, _ => .error .malformed
  | short => .error (if Text.byteSize short < 4 then .unfinished else .malformed)

def isLeading (n : Nat) : Bool := 0xD800 ≤ n && n ≤ 0xDBFF

def isTrailing (n : Nat) : Bool := 0xDC00 ≤ n && n ≤ 0xDFFF

/-- The character that the letter of an escape stands for. -/
def control? (c : Char) : Option Char :=
  if c = '\x22' then some '\x22'
  else if c = '\\' then some '\\'
  else if c = '/' then some '/'
  else if c = 'b' then some '\x08'
  else if c = 'f' then some '\x0c'
  else if c = 'n' then some '\n'
  else if c = 'r' then some '\r'
  else if c = 't' then some '\t'
  else none

/-- The character of a code, or of two codes that go together, and what is left. A leading code
without its partner stands for no character. -/
def codeChar (rest : List Char) : Except Fault (Option Char × List Char) :=
  match code rest with
  | .error f => .error f
  | .ok (n, after) =>
    if isTrailing n then .ok (none, after)
    else if !isLeading n then .ok (some (Char.ofNat n), after)
    else match after with
    | [] => .error .unfinished
    | b :: after' =>
      if b ≠ '\\' then .ok (none, after)
      else match after' with
      | [] => .error .unfinished
      | u :: second =>
        if u ≠ 'u' then .ok (none, after)
        else match code second with
        | .error f => .error f
        | .ok (low, left) =>
          if isTrailing low then
            .ok (some (Char.ofNat (0x10000 + (n - 0xD800) * 0x400 + (low - 0xDC00))), left)
          else .ok (none, left)

/-- A text from behind its opening quote, and what is left behind the closing one. No text is given
where some escape stands for no character. At most `fuel` characters are read. -/
def textTail : (fuel : Nat) → List Char → Except TextFault (Option (List Char) × List Char)
  | 0, _ => both .unfinished
  | _ + 1, [] => both .unfinished
  | fuel + 1, c :: rest =>
    if c = '\x22' then .ok (some [], rest)
    else if c = '\\' then
      match rest with
      | [] => both .unfinished
      | e :: after =>
        if e = 'u' then
          match codeChar after with
          | .error f => both f
          | .ok (char?, left) => push char? (textTail fuel left)
        else match control? e with
        | some char => push (some char) (textTail fuel after)
        | none => both .malformed
    else if c.toNat < 32 then both .malformed
    else push (some c) (textTail fuel rest)
where
  both (f : Fault) : Except TextFault (Option (List Char) × List Char) := .error ⟨f, f⟩
  push (char? : Option Char) (tail : Except TextFault (Option (List Char) × List Char)) :
      Except TextFault (Option (List Char) × List Char) :=
    match char? with
    | none => match tail with
      | .ok (_, left) => .ok (none, left)
      | .error f => .error ⟨.malformed, f.skipped⟩
    | some c => tail.map fun (text, left) => (text.map (c :: ·), left)

/-! ## Numbers -/

/-- The greatest whole number of 64 bits. -/
def maxWord : Nat := 18446744073709551615

/-- Takes digits into a whole number as long as it has 64 bits; gives the number and how many
digits were taken. -/
def absorb (n : Nat) : List Char → Nat × Nat
  | [] => (n, 0)
  | c :: rest =>
    let next := n * 10 + (c.toNat - 48)
    if next ≤ maxWord then
      let (total, count) := absorb next rest
      (total, count + 1)
    else (n, 0)

/-- A number times a power of ten, in binary with one rounding for the number and one for each
power. None if it is too large. -/
def scale? : (rounds : Nat) → Float → Int → Option Float
  | 0, x, _ => some x
  | rounds + 1, x, exponent =>
    if exponent.natAbs ≤ 308 then
      let power := Float.ofScientific 1 false exponent.natAbs
      if 0 ≤ exponent then
        let y := x * power
        if y.isInf then none else some y
      else some (x / power)
    else if x == 0.0 then some x
    else if 0 ≤ exponent then none
    else scale? rounds (x / Float.ofScientific 1 false 308) (exponent + 308)

/-- A binary number with its sign. -/
def signed (positive : Bool) (x : Float) : Float := if positive then x else -x

/-- The parts of a number as it is written. -/
structure Numeral where
  positive : Bool
  whole : List Char
  /-- The digits behind the point, if there is one. -/
  fraction : Option (List Char)
  /-- The sign and the digits of the exponent, if there is one. -/
  exponent : Option (Bool × List Char)
  deriving DecidableEq, Repr

/-- The greatest exponent that is counted. -/
def maxExponent : Nat := 2147483647

/-- The binary number of a numeral with a point, an exponent or too many digits. -/
def Numeral.float? (n : Numeral) : Option Float :=
  let (whole, taken) := absorb 0 n.whole
  let (significand, places) := absorb whole (n.fraction.getD [])
  let exponent : Int := (n.whole.length - taken : Nat) - (places : Int)
  let size := match n.exponent with
    | none => scale? 4 (Float.ofNat significand) exponent
    | some (raised, digits) =>
      let count := Text.natOfDigits digits
      if count ≤ maxExponent then
        scale? 4 (Float.ofNat significand) (if raised then exponent + count else exponent - count)
      else if raised && significand != 0 then none
      else some 0.0
  size.map (signed n.positive)

/-- The number that a numeral stands for, if it is not too large. -/
def Numeral.value? (n : Numeral) : Option Number :=
  let whole := Text.natOfDigits n.whole
  if n.fraction.isNone && n.exponent.isNone && whole ≤ maxWord then
    if n.positive then some (.natural whole)
    else if 0 < whole ∧ whole ≤ Nat.pow 2 63 then some (.negative whole)
    else some (.float (-Float.ofNat whole))
  else n.float?.map .float

/-- One digit or more, and what is left behind them. -/
def digits (s : List Char) : Except Fault (List Char × List Char) :=
  match s with
  | [] => .error .unfinished
  | c :: _ =>
    if Text.isDigit c then .ok (s.takeWhile Text.isDigit, s.dropWhile Text.isDigit)
    else .error .malformed

/-- The digits before the point: nought alone, or digits that do not begin with it. -/
def wholeDigits (s : List Char) : Except Fault (List Char × List Char) :=
  match digits s with
  | .ok ('0' :: _ :: _, _) => .error .malformed
  | result => result

/-- The digits behind a point, if one comes first. -/
def fractionDigits (s : List Char) : Except Fault (Option (List Char) × List Char) :=
  match s with
  | '.' :: rest => (digits rest).map fun (ds, left) => (some ds, left)
  | _ => .ok (none, s)

/-- The sign and the digits of an exponent, if one comes first. -/
def exponentDigits (s : List Char) : Except Fault (Option (Bool × List Char) × List Char) :=
  match s with
  | c :: rest =>
    if c = 'e' ∨ c = 'E' then
      let (raised, rest) := match rest with
        | '+' :: rest => (true, rest)
        | '-' :: rest => (false, rest)
        | _ => (true, rest)
      (digits rest).map fun (ds, left) => (some (raised, ds), left)
    else .ok (none, s)
  | [] => .ok (none, [])

/-- A number from behind its sign, and what is left behind it. -/
def numeral (positive : Bool) (s : List Char) : Except Fault (Numeral × List Char) := do
  let (whole, s) ← wholeDigits s
  let (fraction, s) ← fractionDigits s
  let (exponent, s) ← exponentDigits s
  return (⟨positive, whole, fraction, exponent⟩, s)

/-! ## Values -/

/-- A value, and what is left behind it if nothing was wrong. -/
abbrev Outcome := Json × Option (List Char)

def failed (b : Breach) : Outcome := (.broken b, none)

/-- A number from behind its sign. -/
def numberValue (positive : Bool) (s : List Char) : Outcome :=
  match numeral positive s with
  | .error f => failed (.number f)
  | .ok (n, left) =>
    match n.value? with
    | some v => (.number v, some left)
    | none => (.meaningless, some left)

/-- A text from behind its opening quote. -/
def textValue (fuel : Nat) (s : List Char) : Outcome :=
  match textTail fuel s with
  | .error f => failed (.text f)
  | .ok (some text, left) => (.string (String.ofList text), some left)
  | .ok (none, left) => (.meaningless, some left)

/-- A value that is written as a word, from behind its first letter. -/
def wordValue : (letters : List Char) → Json → List Char → Outcome
  | [], j, s => (j, some s)
  | _ :: _, _, [] => failed (.word .unfinished)
  | l :: letters, j, c :: s =>
    if l = c then wordValue letters j s else failed (.word .malformed)

/-- The first items or members of a value, what is wrong behind them, and what is left. -/
abbrev Parts (α : Type) := List α × Option Fault × Option (List Char)

/-- A part before others. -/
def consPart {α : Type} (a : α) (rest : Parts α) : Parts α := (a :: rest.1, rest.2)

/-- A part behind which nothing could be read. -/
def lastPart {α : Type} (a : α) : Parts α := ([a], some .malformed, none)

/-- No part, because of a fault. -/
def noPart {α : Type} (f : Fault) : Parts α := ([], some f, none)

/-- A member whose key is broken. -/
def brokenPart (b : Breach) : Parts (Key × Json) := lastPart (.broken b, .broken b)

mutual

/-- A value at the start of a text. Each value, item and member uses up some fuel; no text needs more
than is left. -/
def value : (fuel : Nat) → List Char → Outcome
  | 0, _ => failed .stray
  | fuel + 1, s =>
    match skipSpace s with
    | [] => failed .nothing
    | c :: rest =>
      if c = 'n' then wordValue "ull".toList .null rest
      else if c = 't' then wordValue "rue".toList (.bool true) rest
      else if c = 'f' then wordValue "alse".toList (.bool false) rest
      else if c = '-' then numberValue false rest
      else if Text.isDigit c then numberValue true (c :: rest)
      else if c = '\x22' then textValue fuel rest
      else if c = '[' then
        let (parts, ending, left) := items fuel true rest
        (.array parts ending, left)
      else if c.toNat = 123 then
        objectTail fuel rest
      else failed .stray

/-- Items from behind the opening bracket or behind an item. -/
def items : (fuel : Nat) → (first : Bool) → List Char → Parts Json
  | 0, _, _ => noPart .malformed
  | fuel + 1, first, s =>
    match skipSpace s with
    | [] => noPart .unfinished
    | c :: rest =>
      if c = ']' then ([], none, some rest)
      else if first then item fuel (c :: rest)
      else if c = ',' then item fuel rest
      else noPart .malformed

/-- An item and those behind it. -/
def item : (fuel : Nat) → List Char → Parts Json
  | 0, _ => noPart .malformed
  | fuel + 1, s =>
    match value fuel s with
    | (j, none) => lastPart j
    | (j, some left) => consPart j (items fuel false left)

/-- An object from behind the opening brace. -/
def objectTail : (fuel : Nat) → List Char → Outcome
  | 0, _ => failed .stray
  | fuel + 1, s =>
    match skipSpace s with
    | [] => (.object [] (some .unfinished), none)
    | c :: rest =>
      if c.toNat = 125 then (.object [] none, some rest)
      else if c = '\x22' then
        let (parts, ending, left) := member fuel rest
        (.object parts ending, left)
      else (.keyless (value fuel (c :: rest)).1, none)

/-- A member from behind the quote that opens its key, and those behind it. -/
def member : (fuel : Nat) → List Char → Parts (Key × Json)
  | 0, _ => noPart .malformed
  | fuel + 1, s =>
    match textTail fuel s with
    | .error f => brokenPart (.text f)
    | .ok (text, left) =>
      let key := match text with
        | some name => Key.name (String.ofList name)
        | none => .meaningless
      match skipSpace left with
      | [] => lastPart (key, .broken .nothing)
      | colon :: left =>
        if colon = ':' then
          match value fuel left with
          | (j, none) => lastPart (key, j)
          | (j, some left) => consPart (key, j) (members fuel left)
        else lastPart (key, .broken .stray)

/-- Members from behind another one. -/
def members : (fuel : Nat) → List Char → Parts (Key × Json)
  | 0, _ => noPart .malformed
  | fuel + 1, s =>
    match skipSpace s with
    | [] => noPart .unfinished
    | c :: rest =>
      if c.toNat = 125 then ([], none, some rest)
      else if c = ',' then
        match skipSpace rest with
        | [] => brokenPart .nothing
        | c :: rest => if c = '\x22' then member fuel rest else brokenPart .stray
      else noPart .malformed

end

/-- The value of a text, and whether something else stands behind it. -/
def read (text : String) : Json × Bool :=
  let s := text.toList
  match value (3 * s.length + 3) s with
  | (j, none) => (j, false)
  | (j, some left) => (j, !(skipSpace left).isEmpty)

end SchemaAudit.Json
