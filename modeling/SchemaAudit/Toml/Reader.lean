import SchemaAudit.Text.Search

/-!
# Readers

A reader takes a value from the start of a text and leaves the rest, or finds none. Of two readers
the second is tried where the first finds nothing.
-/

namespace SchemaAudit.Toml

abbrev Reader := StateT (List Char) Option

namespace Reader

/-- The next character, if it is of a kind. -/
def satisfy (p : Char → Bool) : Reader Char
  | [] => none
  | c :: rest => if p c then some (c, rest) else none

def char (c : Char) : Reader Unit := do
  let _ ← satisfy (· == c)

/-- A word that must come next. -/
def word (w : String) : Reader Unit := fun s => (Text.strip? w.toList s).map fun rest => ((), rest)

/-- All characters of a kind that come next. -/
def span (p : Char → Bool) : Reader (List Char) := fun s => some (s.takeWhile p, s.dropWhile p)

/-- One character of a kind or more. -/
def span1 (p : Char → Bool) : Reader (List Char) := do
  let cs ← span p
  if cs.isEmpty then failure else return cs

/-- A given number of characters of a kind. -/
def times (p : Char → Bool) : (count : Nat) → Reader (List Char)
  | 0 => return []
  | count + 1 => do
    let c ← satisfy p
    return c :: (← times p count)

def optional {α : Type} (r : Reader α) : Reader (Option α) := (some <$> r) <|> pure none

/-- Nothing, where the text ends. -/
def atEnd : Reader Unit := fun s => if s.isEmpty then some ((), s) else none

/-- What a reader finds again and again, as long as the text becomes shorter. -/
def manyFrom {α : Type} (r : Reader α) (s : List Char) : List α × List Char :=
  match r s with
  | none => ([], s)
  | some (a, rest) =>
    if rest.length < s.length then
      let (more, left) := manyFrom r rest
      (a :: more, left)
    else ([], s)
termination_by s.length

def many {α : Type} (r : Reader α) : Reader (List α) := fun s => some (manyFrom r s)

/-- What a reader finds, where it finds something. -/
def value? {α : Type} (r : Reader α) (s : List Char) : Option α :=
  (StateT.run r s).map Prod.fst

end Reader

end SchemaAudit.Toml
