import SchemaAudit.Text.Classes

/-!
# Finding and replacing in texts

Containment, replacement of every occurrence, cutting at a character, lines, the size of a text in
bytes, and numbers that are written in digits.
-/

namespace SchemaAudit.Text

/-- The text after a given beginning, if it begins so. -/
def strip? : List Char → List Char → Option (List Char)
  | [], s => some s
  | _ :: _, [] => none
  | p :: ps, c :: s => if p = c then strip? ps s else none

theorem eq_append_of_strip? {p s r : List Char} (h : strip? p s = some r) : s = p ++ r := by
  induction p generalizing s with
  | nil => simpa [strip?] using h
  | cons a p ih =>
    cases s with
    | nil => simp [strip?] at h
    | cons c s =>
      simp only [strip?] at h
      split at h
      · rename_i hac
        rw [ih h, hac, List.cons_append]
      · simp at h

theorem strip?_append (p r : List Char) : strip? p (p ++ r) = some r := by
  induction p with
  | nil => rfl
  | cons a p ih => simp [strip?, ih]

/-- The text before a given end, if it ends so. -/
def stripEnd? (ending s : List Char) : Option (List Char) :=
  (strip? ending.reverse s.reverse).map List.reverse

/-- Whether one text occurs in another. -/
def contains (needle : List Char) : List Char → Bool
  | [] => needle.isEmpty
  | c :: s => needle.isPrefixOf (c :: s) || contains needle s

/-- The text with every occurrence of `old` replaced, found from left to right. An empty `old` is
never found. -/
def replaceAll (old new : List Char) (s : List Char) : List Char :=
  match s with
  | [] => []
  | c :: rest =>
    match strip? old (c :: rest) with
    | none => c :: replaceAll old new rest
    | some after =>
      if after.length < (c :: rest).length then new ++ replaceAll old new after
      else c :: replaceAll old new rest
termination_by s.length
decreasing_by all_goals simp only [List.length_cons] at *; omega

/-- The parts before and after the first occurrence of a character. -/
def cutAt? (mark : Char) : List Char → Option (List Char × List Char)
  | [] => none
  | c :: rest =>
    if c = mark then some ([], rest)
    else (cutAt? mark rest).map fun (before, after) => (c :: before, after)

/-- The text without one carriage return at its end. -/
def dropReturn (line : List Char) : List Char :=
  match line.reverse with
  | '\r' :: before => before.reverse
  | _ => line

/-- The lines of a text. A line ends with a line feed, before which one carriage return is not
part of the line; nothing after the last line feed is no line. -/
def lines (s : List Char) : List (List Char) :=
  let parts := s.splitOn '\n'
  let complete := parts.dropLast.map dropReturn
  match parts.getLast? with
  | none | some [] => complete
  | some last => complete ++ [last]

/-- The number of bytes that a text takes in UTF-8. -/
def byteSize : List Char → Nat
  | [] => 0
  | c :: s => c.utf8Size + byteSize s

/-- The text of a number in decimal digits. -/
def ofNat (n : Nat) : List Char := Nat.toDigits 10 n

/-- The number that a nonempty text of decimal digits stands for. -/
def natOfDigits (digits : List Char) : Nat :=
  digits.foldl (fun n c => 10 * n + (c.toNat - 48)) 0

/-- The greatest number of 32 bits. -/
def maxCount : Nat := 4294967295

/-- The number of 32 bits that a text of digits stands for; a plus may precede them. -/
def countOfText? (s : List Char) : Option Nat :=
  let digits := match s with
    | '+' :: rest => rest
    | _ => s
  if digits.isEmpty || !digits.all isDigit then none
  else
    let n := natOfDigits digits
    if n ≤ maxCount then some n else none

/-- The number that a hexadecimal digit in any letter case stands for. -/
def hexValue? (c : Char) : Option Nat :=
  let n := c.toNat
  if 48 ≤ n ∧ n ≤ 57 then some (n - 48)
  else if 97 ≤ n ∧ n ≤ 102 then some (n - 87)
  else if 65 ≤ n ∧ n ≤ 70 then some (n - 55)
  else none

/-- The number that hexadecimal digits stand for in a base of at most sixteen. -/
def natInBase (base : Nat) (digits : List Char) : Nat :=
  digits.foldl (fun n c => base * n + (hexValue? c).getD 0) 0

/-- Texts one after another with a separator between neighbours. -/
def join (separator : List Char) (parts : List (List Char)) : List Char :=
  separator.intercalate parts

end SchemaAudit.Text
