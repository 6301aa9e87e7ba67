import SchemaAudit.Dump
import SchemaAudit.Text.Search
import SchemaAudit.Toml.Read

/-!
# Settings

How a run of the program is set up: by a settings file, by variables of the environment, and by
options. Each of them overrides the one before.
-/

namespace SchemaAudit

inductive OutputFormat where
  | json
  | text
  deriving DecidableEq, Repr

namespace OutputFormat

def all : List OutputFormat := [json, text]

def name : OutputFormat → String
  | json => "json"
  | text => "text"

/-- The format with exactly the given name. -/
def named? (s : String) : Option OutputFormat := all.find? fun f => f.name == s

/-- The format with a name, in any letter case and with blanks around. -/
def ofName? (s : String) : Option OutputFormat :=
  named? (String.ofList (Text.toLower (Text.trim s.toList)))

end OutputFormat

structure Settings where
  /-- The name of a dialect, or `auto` for the one that the dump shows. -/
  dialect : String
  format : OutputFormat
  /-- Whether object notation is written over several lines. -/
  pretty : Bool
  /-- The least overall score with which a run succeeds. -/
  failUnder : Option Nat
  deriving DecidableEq, Repr

inductive SettingsError where
  | missingFile (path reason : String)
  | invalidFile
  | invalidValue (key value : String)
  deriving DecidableEq, Repr

def SettingsError.message : SettingsError → String
  | missingFile path reason => "Failed to read config file " ++ path ++ ": " ++ reason
  | invalidFile => "Invalid TOML: "
  | invalidValue key value => "Invalid value for " ++ key ++ ": " ++ value

namespace Settings

def default : Settings := ⟨"auto", .json, false, none⟩

/-! ## Settings files -/

/-- Whether a value holds nothing. -/
def isEmptyValue : Toml → Bool
  | .array items => items.isEmpty
  | .table _ entries => entries.isEmpty
  | _ => false

/-- The format that a value names: as a text, or as the only key of a table. -/
def formatOf? : Toml → Option OutputFormat
  | .string s => OutputFormat.named? s
  | .table _ [(key, content)] =>
    if isEmptyValue content then OutputFormat.named? key else none
  | _ => none

def textOf? : Toml → Option String
  | .string s => some s
  | _ => none

def boolOf? : Toml → Option Bool
  | .boolean b => some b
  | _ => none

/-- A count of 32 bits. -/
def countOf? : Toml → Option Nat
  | .integer n => if 0 ≤ n ∧ n ≤ Text.maxCount then some n.toNat else none
  | _ => none

/-- What an entry stands for, or a default where it is missing. -/
def entry {α : Type} (entries : Toml.Entries) (key : String) (absent : α)
    (read : Toml → Option α) : Option α :=
  match entries.lookup key with
  | none => some absent
  | some v => read v

/-- The settings that a table holds. Other entries do not matter. -/
def ofEntries? (entries : Toml.Entries) : Option Settings := do
  return {
    dialect := ← entry entries "dialect" default.dialect textOf?
    format := ← entry entries "format" default.format formatOf?
    pretty := ← entry entries "pretty" default.pretty boolOf?
    failUnder := ← entry entries "fail_under" default.failUnder fun v => (countOf? v).map some }

/-- The settings of a file. -/
def ofFile (content : String) : Except SettingsError Settings :=
  match (Toml.read content).bind ofEntries? with
  | some settings => .ok settings
  | none => .error .invalidFile

/-! ## The environment -/

/-- The settings after the variables of the environment, in their order up to the first that is not
valid. -/
def override (lookUp : String → Option String) (s : Settings) :
    Settings × Option SettingsError :=
  let s := match lookUp "SCHEMALENS_DIALECT" with
    | some name => { s with dialect := name }
    | none => s
  match overrideFormat s with
  | .error e => (s, some e)
  | .ok s =>
    match overrideLimit s with
    | .error e => (s, some e)
    | .ok s => (s, none)
where
  overrideFormat (s : Settings) : Except SettingsError Settings :=
    match lookUp "SCHEMALENS_FORMAT" with
    | none => .ok s
    | some name =>
      match OutputFormat.ofName? name with
      | some format => .ok { s with format }
      | none => .error (.invalidValue "format" name)
  overrideLimit (s : Settings) : Except SettingsError Settings :=
    match lookUp "SCHEMALENS_FAIL_UNDER" with
    | none => .ok s
    | some count =>
      match Text.countOfText? count.toList with
      | some n => .ok { s with failUnder := some n }
      | none => .error (.invalidValue "fail_under" count)

/-! ## The dialect -/

/-- The dialect of a dump: the one that is set, or for `auto` in any letter case the one that the
dump shows: `resolve_dialect`. -/
def dialectFor (s : Settings) (sql : String) : Except DumpError Dialect :=
  if Text.sameIgnoringAsciiCase "auto".toList s.dialect.toList then .ok (Dialect.detect sql)
  else
    match Dialect.ofName? s.dialect with
    | some dialect => .ok dialect
    | none => .error (.unknownDialect s.dialect)

end Settings

end SchemaAudit
