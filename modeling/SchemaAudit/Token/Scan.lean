import SchemaAudit.Text.Classes
import SchemaAudit.Text.Search
import SchemaAudit.Token

/-!
# Reading tokens

A text is read from left to right. Blanks and comments are skipped: two dashes or a hash to the
end of the line, and anything between slash-star and star-slash. Each step either ends, or leaves
a rest that is shorter than the text it started from.
-/

namespace SchemaAudit.Token

/-- The text between delimiters, from behind the opening one, and the rest behind the closing one.
A doubled closing delimiter stands for itself. Where `escapes` holds, a backslash gives the next
character, or the control character that `n`, `t` or `r` names. A missing closing delimiter is not
noticed. -/
def delimited (close : Char) (escapes : Bool) : List Char → List Char × List Char
  | [] => ([], [])
  | c :: rest =>
    if c = close then
      match rest with
      | [] => ([], [])
      | d :: after =>
        if d = close then
          let (value, left) := delimited close escapes after
          (c :: value, left)
        else ([], d :: after)
    else if escapes && c = '\\' then
      match rest with
      | [] => ([], [])
      | e :: after =>
        let (value, left) := delimited close escapes after
        (unescape e :: value, left)
    else
      let (value, left) := delimited close escapes rest
      (c :: value, left)
where
  unescape : Char → Char
    | 'n' => '\n'
    | 't' => '\t'
    | 'r' => '\r'
    | e => e

/-- Digits with at most one point among them, and the rest. -/
def numberTail (seenPoint : Bool) : List Char → List Char × List Char
  | [] => ([], [])
  | c :: rest =>
    if c = '.' && !seenPoint then
      let (digits, left) := numberTail true rest
      (c :: digits, left)
    else if Text.isDigit c then
      let (digits, left) := numberTail seenPoint rest
      (c :: digits, left)
    else ([], c :: rest)

/-- The rest behind the first star-slash. -/
def afterBlockComment : List Char → List Char
  | [] => []
  | c :: rest =>
    match rest with
    | [] => []
    | d :: after => if c = '*' && d = '/' then after else afterBlockComment rest

/-- The rest from the end of the line on. -/
def afterLine (s : List Char) : List Char := s.dropWhile (· ≠ '\n')

def isWordStart (c : Char) : Bool := Text.isLetter c || c = '_'

def isWordPart (c : Char) : Bool := Text.isLetter c || Text.isNumeral c || c = '_' || c = '$'

/-- A word as a keyword or a name. -/
def ofWord (s : List Char) : Token :=
  match Keyword.ofWord? s with
  | some k => .keyword k
  | none => .word (String.ofList s)

/-- What stands at the start of a text. -/
inductive Step where
  | finish
  | skip (rest : List Char)
  | take (token : Token) (rest : List Char)

/-- The opening delimiters of identifiers, with the closing ones. -/
def closing? (c : Char) : Option Char :=
  if c = '\x22' then some '\x22'
  else if c = '\x60' then some '\x60'
  else if c = '[' then some ']'
  else none

/-- Tokens of one character. -/
def punctuation? (c : Char) : Option Token :=
  if c = '(' then some .leftParen
  else if c = ')' then some .rightParen
  else if c = ',' then some .comma
  else if c = ';' then some .semicolon
  else if c = '.' then some .dot
  else none

/-- The first step on a text that begins with `c`. -/
def stepAt (c : Char) (rest : List Char) : Step :=
  if Text.isBlank c then .skip rest
  else if c = '-' && rest.head? == some '-' then .skip (afterLine rest)
  else if c = '-' && (rest.head?.any Text.isDigit) then
    let tail := numberTail false rest
    .take (.number (String.ofList (c :: tail.1))) tail.2
  else if c = '/' && rest.head? == some '*' then .skip (afterBlockComment rest.tail)
  else if c = '#' then .skip (afterLine rest)
  else match punctuation? c with
  | some t => .take t rest
  | none =>
    match closing? c with
    | some close =>
      let body := delimited close false rest
      .take (.quoted (String.ofList body.1)) body.2
    | none =>
      if c = '\x27' then
        let body := delimited '\x27' true rest
        .take (.literal (String.ofList body.1)) body.2
      else if Text.isDigit c then
        let tail := numberTail false rest
        .take (.number (String.ofList (c :: tail.1))) tail.2
      else if isWordStart c then
        .take (ofWord (c :: rest.takeWhile isWordPart)) (rest.dropWhile isWordPart)
      else .take (.symbol c) rest

def step : List Char → Step
  | [] => .finish
  | c :: rest => stepAt c rest

/-! ## The rest is shorter -/

theorem delimited_length_le (close : Char) (escapes : Bool) (s : List Char) :
    (delimited close escapes s).2.length ≤ s.length := by
  fun_induction delimited close escapes s <;> simp_all <;> omega

theorem numberTail_length_le (seenPoint : Bool) (s : List Char) :
    (numberTail seenPoint s).2.length ≤ s.length := by
  fun_induction numberTail seenPoint s <;> simp_all <;> omega

theorem afterBlockComment_length_le (s : List Char) :
    (afterBlockComment s).length ≤ s.length := by
  fun_induction afterBlockComment s <;> simp_all <;> omega

theorem dropWhile_length_le (p : Char → Bool) (s : List Char) :
    (s.dropWhile p).length ≤ s.length := (List.dropWhile_sublist p).length_le

/-- The rest that a step leaves. -/
def Step.rest? : Step → Option (List Char)
  | finish => none
  | skip rest => some rest
  | take _ rest => some rest

theorem stepAt_rest_length_le {c : Char} {s rest : List Char}
    (h : (stepAt c s).rest? = some rest) : rest.length ≤ s.length := by
  have hb := afterBlockComment_length_le s.tail
  have hl := dropWhile_length_le (· ≠ '\n') s
  have hw := dropWhile_length_le isWordPart s
  have hn := numberTail_length_le false s
  have hd := fun close escapes => delimited_length_le close escapes s
  have ht : s.tail.length ≤ s.length := by simp
  unfold stepAt at h
  repeat' split at h
  all_goals
    simp only [Step.rest?, Option.some.injEq] at h
    subst h
  all_goals first
    | exact Nat.le_refl _
    | exact hl
    | exact hw
    | exact hn
    | exact hd _ _
    | exact Nat.le_trans hb ht

theorem step_rest_length_lt {s rest : List Char} (h : (step s).rest? = some rest) :
    rest.length < s.length := by
  cases s with
  | nil => simp [step, Step.rest?] at h
  | cons c s => exact Nat.lt_succ_of_le (stepAt_rest_length_le h)

/-- The lexemes of what is left of a text of the given size, closed by the end of input. The offset
of a lexeme is the size of what comes before it. -/
def scanFrom (size : Nat) (s : List Char) : List Lexeme :=
  match _h : step s with
  | .finish => [⟨.finish, size - Text.byteSize s⟩]
  | .skip rest => scanFrom size rest
  | .take token rest => ⟨token, size - Text.byteSize s⟩ :: scanFrom size rest
termination_by s.length
decreasing_by
  all_goals exact step_rest_length_lt (by rw [_h]; rfl)

/-- The lexemes of a text: `tokenize`. -/
def scan (text : String) : List Lexeme := scanFrom (Text.byteSize text.toList) text.toList

end SchemaAudit.Token
