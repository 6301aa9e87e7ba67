import SchemaAudit.Json.Value

/-!
# Shapes of values

A decoder turns a value of one shape into what it stands for, or says why it is refused: what was
found and what is expected, or the fault in the text, whichever comes first. Records may be written
as objects or, with their fields in order, as arrays.
-/

namespace SchemaAudit

abbrev Decoder (α : Type) := Json → Except Refusal α

namespace Decoder

/-- A word between back quotes. -/
def ticked (s : String) : String := "\x60" ++ s ++ "\x60"

def describeNumber : Number → String
  | .float x => "floating point " ++ ticked (String.ofList (Decimal.shortestText x))
  | n => "integer " ++ ticked (String.ofList n.text)

/-- The refusal of a value of another kind than the one expected. -/
def unexpected (expected : String) (j : Json) : Refusal :=
  match j with
  | .null => wrong "null"
  | .bool b => wrong ("boolean " ++ ticked (if b then "true" else "false"))
  | .number n => wrong (describeNumber n)
  | .string s => wrong ("string " ++ String.ofList (Text.quoted s.toList))
  | .array _ _ => wrong "sequence"
  | .object _ _ => wrong "map"
  | .keyless _ => wrong "map"
  | .meaningless => .fault .malformed
  | .broken b => .fault b.needed
where
  wrong (found : String) : Refusal :=
    .mismatch ("invalid type: " ++ found ++ ", expected " ++ expected)

def string : Decoder String
  | .string s => .ok s
  | j => .error (unexpected "a string" j)

def bool : Decoder Bool
  | .bool b => .ok b
  | j => .error (unexpected "a boolean" j)

/-- A whole number up to a limit, in a type of the given name. -/
def count (limit : Nat) (type : String) : Decoder Nat
  | .number (.natural n) =>
    if n ≤ limit then .ok n else .error (outOfRange (Number.natural n))
  | .number (.negative n) => .error (outOfRange (Number.negative n))
  | j => .error (unexpected type j)
where
  outOfRange (n : Number) : Refusal :=
    .mismatch ("invalid value: " ++ describeNumber n ++ ", expected " ++ type)

/-- A count of 32 bits. -/
def count32 : Decoder Nat := count 4294967295 "u32"

/-- A count of 64 bits. -/
def count64 : Decoder Nat := count 18446744073709551615 "usize"

def float : Decoder Float
  | .number (.natural n) => .ok (Float.ofNat n)
  | .number (.negative n) => .ok (-Float.ofNat n)
  | .number (.float x) => .ok x
  | j => .error (unexpected "f64" j)

/-- A value or `null`. -/
def optional {α : Type} (d : Decoder α) : Decoder (Option α)
  | .null => .ok none
  | j => (d j).map some

/-- What a fault behind the last part of a value leads to. -/
def checkEnding {α : Type} (a : α) : Option Fault → Except Refusal α
  | none => .ok a
  | some f => .error (.fault f)

def list {α : Type} (d : Decoder α) : Decoder (List α)
  | .array items ending => do checkEnding (← items.mapM d) ending
  | j => .error (unexpected "a sequence" j)

/-- Names between back quotes, with commas between them. -/
def listing (names : List String) : String := String.intercalate ", " (names.map ticked)

/-- The refusal of a name that is none of those expected. -/
def unknownName (name : String) (names : List String) : Refusal :=
  .mismatch ("unknown variant " ++ ticked name ++ ", expected one of " ++ listing names)

/-- The member of a list that has a name. -/
def named {α : Type} (all : List α) (nameOf : α → String) (name : String) : Except Refusal α :=
  match all.find? fun a => nameOf a == name with
  | some a => .ok a
  | none => .error (unknownName name (all.map nameOf))

/-- One of some things, by its name: as a text, or as the only key of an object with the value
`null`. What begins neither a text nor an object is no value here. -/
def oneOf {α : Type} (all : List α) (nameOf : α → String) : Decoder α
  | .string s => named all nameOf s
  | .object ((.name key, content) :: others) ending => do
    let a ← named all nameOf key
    match content with
    | .null => if others.isEmpty then checkEnding a ending else .error (.fault .malformed)
    | j => .error (unexpected "unit" j)
  | .object ((.broken b, _) :: _) _ => .error (.fault b.needed)
  | .object [] (some f) => .error (.fault f)
  | .keyless first => .error (unexpected "variant identifier" first)
  | .broken .nothing => .error (.fault .unfinished)
  | .broken (.text f) => .error (.fault f.needed)
  | _ => .error (.fault .malformed)

mutual

/-- The first fault in a value that is skipped: its numbers and texts may be meaningless. -/
def firstFault? : Json → Option Fault
  | .array items ending => (firstFaultIn? items).or ending
  | .object members ending => (firstFaultAmong? members).or ending
  | .keyless _ => some .malformed
  | .broken b => some b.skipped
  | _ => none

def firstFaultIn? : List Json → Option Fault
  | [] => none
  | j :: rest => (firstFault? j).or (firstFaultIn? rest)

def firstFaultAmong? : List (Key × Json) → Option Fault
  | [] => none
  | (.broken b, _) :: _ => some b.skipped
  | (_, j) :: rest => (firstFault? j).or (firstFaultAmong? rest)

end

end Decoder

/-- How to read the fields of a record, from its members in any order or from items in the order of
the fields. -/
structure Shape (α : Type) where
  /-- What is known of the fields while members are read. -/
  State : Type
  start : State
  /-- Takes a member that is one of the fields. -/
  add : State → String → Json → Option (Except Refusal State)
  /-- The record, unless a field is missing. -/
  finish : State → Except Refusal α
  /-- The number of fields. -/
  size : Nat
  /-- Takes items from the one with the given index on; gives back the items left. The refusal is
  for an array that ends too early. -/
  take : (index : Nat) → (short : Nat → Refusal) → Option Fault → List Json →
    Except Refusal (α × List Json)

namespace Shape

/-- A field that may be left out where there is a default. -/
def fieldWith {α : Type} (absent : Option α) (name : String) (d : Decoder α) : Shape α where
  State := Option α
  start := none
  add st key j :=
    if key = name then
      match st with
      | some _ => some (.error (.mismatch ("duplicate field " ++ Decoder.ticked name)))
      | none => some ((d j).map some)
    else none
  finish st :=
    match st.or absent with
    | some a => .ok a
    | none => .error (.mismatch ("missing field " ++ Decoder.ticked name))
  size := 1
  take index short ending
    | j :: rest => (d j).map fun a => (a, rest)
    | [] =>
      match ending, absent with
      | some f, _ => .error (.fault f)
      | none, some a => .ok (a, [])
      | none, none => .error (short index)

/-- A field that must be there. -/
def required {α : Type} (name : String) (d : Decoder α) : Shape α := fieldWith none name d

/-- A field that has a value even when it is left out. -/
def withDefault {α : Type} (absent : α) (name : String) (d : Decoder α) : Shape α :=
  fieldWith (some absent) name d

/-- The fields of one shape, and behind them those of another. -/
def both {α β : Type} (a : Shape α) (b : Shape β) : Shape (α × β) where
  State := a.State × b.State
  start := (a.start, b.start)
  add st key j :=
    match a.add st.1 key j with
    | some result => some (result.map fun s => (s, st.2))
    | none => (b.add st.2 key j).map fun result => result.map fun s => (st.1, s)
  finish st := do return (← a.finish st.1, ← b.finish st.2)
  size := a.size + b.size
  take index short ending items := do
    let (x, items) ← a.take index short ending items
    let (y, items) ← b.take (index + a.size) short ending items
    return ((x, y), items)

/-- The same fields, for another type of record. -/
def map {α β : Type} (f : α → β) (a : Shape α) : Shape β where
  State := a.State
  start := a.start
  add := a.add
  finish st := (a.finish st).map f
  size := a.size
  take index short ending items := (a.take index short ending items).map fun (x, left) => (f x, left)

/-- The state after members. Those that are no fields need only be values. -/
def addAll {α : Type} (a : Shape α) (st : a.State) :
    List (Key × Json) → Except Refusal a.State
  | [] => .ok st
  | (.meaningless, _) :: _ => .error (.fault .malformed)
  | (.broken b, _) :: _ => .error (.fault b.needed)
  | (.name key, j) :: rest =>
    match a.add st key j with
    | some (.ok st') => addAll a st' rest
    | some (.error e) => .error e
    | none =>
      match Decoder.firstFault? j with
      | some f => .error (.fault f)
      | none => addAll a st rest

/-- A record of a shape, with its name for refusals. -/
def decode {α : Type} (a : Shape α) (name : String) : Decoder α
  | .array items ending => do
    let expected := "struct " ++ name ++ " with " ++ toString a.size ++ " elements"
    let short := fun index =>
      Refusal.mismatch ("invalid length " ++ toString index ++ ", expected " ++ expected)
    let (x, left) ← a.take 0 short ending items
    if left.isEmpty then Decoder.checkEnding x ending else .error (.fault .malformed)
  | .object members ending => do
    let st ← Decoder.checkEnding (← a.addAll a.start members) ending
    a.finish st
  | .keyless _ => .error (.fault .malformed)
  | j => .error (Decoder.unexpected ("struct " ++ name) j)

end Shape

/-- Decodes the value of a text that holds nothing else. -/
def Decoder.accept {α : Type} (d : Decoder α) (read : Json × Bool) : Except Refusal α :=
  match d read.1 with
  | .error e => .error e
  | .ok a => if read.2 then .error (.fault .malformed) else .ok a

end SchemaAudit
