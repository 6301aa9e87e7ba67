import SchemaAudit.FirstMatch

/-!
# Values of settings files

A settings file in TOML is a table of values. Tables are put together from several places of the
file, and each remembers how it came about: that decides what may still be added to it.
-/

namespace SchemaAudit

/-- How a table of a settings file came about. -/
inductive Toml.Origin where
  /-- By a header of its own, or as a whole file. -/
  | header
  /-- By the header of a table inside it. -/
  | implied
  /-- By a dotted key. -/
  | dotted
  /-- Between braces. -/
  | inline
  deriving DecidableEq, Repr

/-- A value. Of numbers with a point and of dates and times only that they are such is held. -/
inductive Toml where
  | string (s : String)
  | integer (n : Int)
  | float
  | boolean (b : Bool)
  | moment
  | array (items : List Toml)
  | table (origin : Toml.Origin) (entries : List (String × Toml))
  /-- Tables under one header in double brackets. -/
  | tables (items : List (List (String × Toml)))

namespace Toml

abbrev Entries := List (String × Toml)

def replace (key : String) (value : Toml) (entries : Entries) : Entries :=
  updateFirst (fun e => e.1 == key) (fun _ => (key, value)) entries

/-- Changes the table at the end of a path of keys. Tables that are missing are made, with the
given origin; the path leads into tables whose origin allows it, and into the last of several
tables under one key. -/
def alterAt (made : Origin) (mayEnter : Origin → Bool)
    (change : Origin → Entries → Option Entries) (origin : Origin) (entries : Entries) :
    List String → Option Entries
  | [] => change origin entries
  | key :: path =>
    match entries.lookup key with
    | none => do
      let inner ← alterAt made mayEnter change made [] path
      return entries ++ [(key, .table made inner)]
    | some (.table o inner) =>
      if mayEnter o then do
        let inner ← alterAt made mayEnter change o inner path
        return replace key (.table o inner) entries
      else none
    | some (.tables items) =>
      match items.reverse with
      | [] => none
      | last :: before => do
        let last ← alterAt made mayEnter change .header last path
        return replace key (.tables (last :: before).reverse) entries
    | some _ => none

/-- Adds a value under a dotted key. The tables on its way belong to dotted keys or are only
implied, and the last one belongs to dotted keys. -/
def assign (origin : Origin) (entries : Entries) (path : List String) (key : String)
    (value : Toml) : Option Entries :=
  alterAt .dotted (fun o => o == .dotted || o == .implied)
    (fun o inner =>
      if (o == .dotted) == path.isEmpty then none
      else if (inner.lookup key).isSome then none
      else some (inner ++ [(key, value)]))
    origin entries path

/-- Changes the table under the headers of a path. -/
def alterUnder (change : Origin → Entries → Option Entries) (root : Entries) (path : List String) :
    Option Entries :=
  alterAt .implied (· != .inline) change .header root path

/-- Opens the table of a header. It may be there already if other headers implied it. -/
def openTable (root : Entries) (path : List String) (key : String) : Option Entries :=
  alterUnder
    (fun _ inner =>
      match inner.lookup key with
      | none => some (inner ++ [(key, .table .header [])])
      | some (.table .implied sub) => some (replace key (.table .header sub) inner)
      | some _ => none)
    root path

/-- Opens one more table of a header in double brackets. -/
def openItem (root : Entries) (path : List String) (key : String) : Option Entries :=
  alterUnder
    (fun _ inner =>
      match inner.lookup key with
      | none => some (inner ++ [(key, .tables [[]])])
      | some (.tables items) => some (replace key (.tables (items ++ [[]])) inner)
      | some _ => none)
    root path

end Toml

end SchemaAudit
