import SchemaAudit.Decimal.Shortest
import SchemaAudit.Text.Quoted
import SchemaAudit.Text.Search

/-!
# Values in object notation

A value as it is written or read. A text that breaks off or goes wrong is read as far as that: the
place of the fault is part of the value, so that whoever looks at the parts of a value in order
meets whatever is wrong first, first.
-/

namespace SchemaAudit

/-- What is wrong with a text that is no value. -/
inductive Fault where
  /-- The text cannot be the start of a value. -/
  | malformed
  /-- The text ends before the value does. -/
  | unfinished
  deriving DecidableEq, Repr

/-- What is wrong with a text in quotes. -/
structure TextFault where
  /-- To one who needs its characters: a code that stands for none is a fault. -/
  needed : Fault
  /-- To one who looks for its end only. -/
  skipped : Fault
  deriving DecidableEq, Repr

/-- Where a value should be and is none: what begins there, and what is wrong with it. -/
inductive Breach where
  /-- The text ends there. -/
  | nothing
  /-- A character that begins no value. -/
  | stray
  | word (f : Fault)
  | number (f : Fault)
  | text (f : TextFault)
  deriving DecidableEq, Repr

namespace Breach

/-- What is wrong to one who needs the value. -/
def needed : Breach → Fault
  | nothing => .unfinished
  | stray => .malformed
  | word f => f
  | number f => f
  | text f => f.needed

/-- What is wrong to one who skips the value. A number that breaks off is malformed to him. -/
def skipped : Breach → Fault
  | nothing => .unfinished
  | stray => .malformed
  | word f => f
  | number _ => .malformed
  | text f => f.skipped

end Breach

/-- What stands where the key of a member should be. -/
inductive Key where
  | name (s : String)
  /-- A complete text that stands for no characters. -/
  | meaningless
  | broken (b : Breach)
  deriving DecidableEq, Repr

/-- The characters of a key, and none where there is no key. -/
def Key.text : Key → String
  | name s => s
  | _ => ""

/-- A number as it is held: a whole number of 64 bits with or without a sign, or a binary one. -/
inductive Number where
  | natural (n : Nat)
  /-- The number `-n`. -/
  | negative (n : Nat)
  | float (x : Float)
  deriving Repr

inductive Json where
  | null
  | bool (b : Bool)
  | number (n : Number)
  | string (s : String)
  /-- Items, and what is wrong behind the last of them. -/
  | array (items : List Json) (ending : Option Fault)
  /-- Members, and what is wrong behind the last of them. -/
  | object (members : List (Key × Json)) (ending : Option Fault)
  /-- An object that begins with something else than a key. -/
  | keyless (first : Json)
  /-- A text or number that is complete and stands for no text or number. -/
  | meaningless
  | broken (b : Breach)

namespace Json

def list (items : List Json) : Json := array items none

def record (members : List (String × Json)) : Json :=
  object (members.map fun (key, value) => (.name key, value)) none

def nat (n : Nat) : Json := number (.natural n)

end Json

namespace Number

/-- The text of a number. -/
def text : Number → List Char
  | natural n => Text.ofNat n
  | negative n => '-' :: Text.ofNat n
  | float x => Decimal.shortestText x

end Number

/-- Why a value was refused. -/
inductive Refusal where
  | fault (f : Fault)
  /-- A value of another shape than the one asked for. -/
  | mismatch (message : String)
  deriving DecidableEq, Repr

end SchemaAudit
