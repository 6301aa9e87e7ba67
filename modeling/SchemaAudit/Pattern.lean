import SchemaAudit.Text.Classes
import SchemaAudit.Text.LetterCase

/-!
# Patterns that rewrite text

A pattern says what a piece of text looks like and, at the same time, what it is replaced by:
characters that it reads are dropped unless the part of the pattern that reads them is kept, and
`put` writes a text of its own. Of the ways in which a pattern fits at one place the first is
taken, where a repetition tries one more round before it stops (`many`) or the other way round
(`few`), and alternatives are tried in order. A text is rewritten from left to right at the first
place where the pattern fits, and again behind what it read.
-/

namespace SchemaAudit

inductive Pattern where
  /-- Reads nothing. -/
  | always
  /-- Fits nowhere. -/
  | never
  /-- Reads one character of a class. -/
  | one (p : Char → Bool)
  | next (a b : Pattern)
  | either (a b : Pattern)
  /-- Repeats a pattern that reads something, as often as it can. -/
  | many (a : Pattern)
  /-- Repeats a pattern that reads something, as seldom as it can. -/
  | few (a : Pattern)
  /-- Copies what the pattern reads into the result. -/
  | kept (a : Pattern)
  /-- Writes a text into the result. -/
  | put (s : List Char)
  /-- Between a word character and another one, or the end of the text. -/
  | wordEdge
  | lineStart
  | lineEnd

namespace Pattern

/-! ## Compound patterns -/

def each : List Pattern → Pattern
  | [] => always
  | [a] => a
  | a :: rest => next a (each rest)

def anyOf : List Pattern → Pattern
  | [] => never
  | [a] => a
  | a :: rest => either a (anyOf rest)

def optional (a : Pattern) : Pattern := either a always

def atLeastOne (a : Pattern) : Pattern := next a (many a)

def char (c : Char) : Pattern := one (· = c)

/-- The characters of a text exactly. -/
def exactly (s : String) : Pattern := each (s.toList.map char)

/-- Whether two letters are the same but for their case. The Kelvin sign counts as a `k` and the
long s as an `s`. -/
def sameLetter (letter c : Char) : Bool :=
  Text.asciiLower letter = Text.asciiLower c
    || (c.toNat = 8490 && Text.asciiLower letter = 'k')
    || (c.toNat = 383 && Text.asciiLower letter = 's')

/-- The letters of a text in any case. -/
def letters (s : String) : Pattern := each (s.toList.map fun l => one (sameLetter l))

def blank : Pattern := one Text.isBlank

def blanks : Pattern := many blank

def decimal : Pattern := one Text.isDecimal

def wordChar : Pattern := one Text.isWordChar

/-- Any character but the given ones. -/
def noneOf (s : String) : Pattern :=
  let excluded := s.toList
  one fun c => !excluded.contains c

/-- Words one after another with blanks between them. -/
def phrase (words : List String) : Pattern := each ((words.map letters).intersperse (atLeastOne blank))

/-! ## Matching -/

/-- A place in a text: the character before it and the text behind it. -/
structure Place where
  before : Option Char
  rest : List Char

/-- Where a match ends, and what it has written, last character first. -/
abbrev Match := Place × List Char

/-- How a match goes on from a place. -/
abbrev Onward := Place → List Char → Option Match

/-- One way of reading at a place, given how to go on behind it. -/
abbrev Reading := Place → List Char → Onward → Option Match

/-- At most `rounds` rounds, and more rather than fewer. -/
def repeatMany (read : Reading) : (rounds : Nat) → Reading
  | 0, place, out, onward => onward place out
  | rounds + 1, place, out, onward =>
    match read place out fun place' out' => repeatMany read rounds place' out' onward with
    | none => onward place out
    | found => found

/-- At most `rounds` rounds, and fewer rather than more. -/
def repeatFew (read : Reading) : (rounds : Nat) → Reading
  | 0, place, out, onward => onward place out
  | rounds + 1, place, out, onward =>
    match onward place out with
    | none => read place out fun place' out' => repeatFew read rounds place' out' onward
    | found => found

def atWordEdge (place : Place) : Bool :=
  place.before.any Text.isWordChar != place.rest.head?.any Text.isWordChar

def atLineStart (place : Place) : Bool := place.before.all (· = '\n')

def atLineEnd (place : Place) : Bool := place.rest.head?.all (· = '\n')

/-- The first way in which a pattern fits at a place. No repetition takes more than `bound` rounds;
the flag says whether the characters read are kept. -/
def read (bound : Nat) : Pattern → Bool → Reading
  | always, _, place, out, onward => onward place out
  | never, _, _, _, _ => none
  | one p, keep, place, out, onward =>
    match place.rest with
    | [] => none
    | c :: rest =>
      if p c then onward ⟨some c, rest⟩ (if keep then c :: out else out) else none
  | next a b, keep, place, out, onward =>
    read bound a keep place out fun place' out' => read bound b keep place' out' onward
  | either a b, keep, place, out, onward =>
    match read bound a keep place out onward with
    | none => read bound b keep place out onward
    | found => found
  | many a, keep, place, out, onward =>
    repeatMany (read bound a keep) bound place out onward
  | few a, keep, place, out, onward =>
    repeatFew (read bound a keep) bound place out onward
  | kept a, _, place, out, onward => read bound a true place out onward
  | put s, _, place, out, onward => onward place (s.reverse ++ out)
  | wordEdge, _, place, out, onward => if atWordEdge place then onward place out else none
  | lineStart, _, place, out, onward => if atLineStart place then onward place out else none
  | lineEnd, _, place, out, onward => if atLineEnd place then onward place out else none

/-- The first match at a place. -/
def matchAt (bound : Nat) (p : Pattern) (place : Place) : Option Match :=
  p.read bound false place [] fun place' out => some (place', out)

/-- Whether a pattern begins by reading all that it can of a class of characters, and the character
is of that class. A pattern of this kind that does not fit at one character of a run does not fit
at the later ones either, because from there it could only read less of the run. -/
def runsOver : Pattern → Char → Bool
  | next (many (one p)) _, c => p c
  | next (next (one p) (many (one q))) _, c => p c && q c
  | _, _ => false

/-- Rewrites the text behind the character `before`. A match that reads nothing is passed over. The
flag says that `before` is a character that the pattern runs over and at which it does not fit, so
that the rest of the run is left as it is. -/
def rewriteFrom (bound : Nat) (p : Pattern) (refused : Bool) (before : Option Char)
    (s : List Char) : List Char :=
  match s with
  | [] => []
  | c :: rest =>
    if refused && p.runsOver c then c :: rewriteFrom bound p true (some c) rest
    else match p.matchAt bound ⟨before, c :: rest⟩ with
    | none => c :: rewriteFrom bound p (p.runsOver c) (some c) rest
    | some (place, out) =>
      if place.rest.length < (c :: rest).length then
        out.reverse ++ rewriteFrom bound p false place.before place.rest
      else c :: rewriteFrom bound p false (some c) rest
termination_by s.length
decreasing_by all_goals simp only [List.length_cons] at *; omega

/-- The text with every match of the pattern rewritten. -/
def rewrite (p : Pattern) (s : List Char) : List Char := rewriteFrom s.length p false none s

/-- The text rewritten by one pattern after another. -/
def rewriteAll (rules : List Pattern) (s : List Char) : List Char :=
  rules.foldl (fun text rule => rule.rewrite text) s

end Pattern

end SchemaAudit
