import SchemaAudit.Audit
import SchemaAudit.Audit.Json
import SchemaAudit.CommandLine.Options
import SchemaAudit.Graph.Json
import SchemaAudit.Report
import SchemaAudit.Settings

/-!
# Runs of the program

A run reads the settings and then the dump, and writes the audit of its graph, or the graph. Its
status tells whether that was possible and whether the audit was good enough.
-/

namespace SchemaAudit.CommandLine

/-- What a run leaves behind. -/
structure Outcome where
  status : UInt32
  output : String
  /-- What was written about an error. -/
  complaint : String
  deriving DecidableEq, Repr

namespace Outcome

/-- A run that ended with an error. -/
def failed (message : String) : Outcome := ⟨1, "", message ++ "\n"⟩

end Outcome

/-- The variables of the environment that count. -/
def variableNames : List String :=
  ["SCHEMALENS_DIALECT", "SCHEMALENS_FORMAT", "SCHEMALENS_FAIL_UNDER"]

/-- The settings after the options. -/
def withOptions (o : Options) (s : Settings) : Except String Settings := do
  let s := match o.dialect with
    | some name => { s with dialect := name }
    | none => s
  let s ← match o.format with
    | none => pure s
    | some name =>
      match OutputFormat.ofName? name with
      | some format => pure { s with format }
      | none => throw ("Invalid format: " ++ name)
  return { s with pretty := s.pretty || o.pretty, failUnder := o.failUnder.or s.failUnder }

/-- The settings of a run, from the text of the settings file, the environment and the options. -/
def settingsOf (o : Options) (lookUp : String → Option String)
    (file : Option (Except SettingsError String)) : Except String Settings :=
  let base : Except SettingsError Settings := match file with
    | none => .ok Settings.default
    | some content => content.bind Settings.ofFile
  match base with
  | .error e => .error e.message
  | .ok s =>
    match s.override lookUp with
    | (_, some e) => .error e.message
    | (s, none) => withOptions o s

/-- The outcome for a dump. -/
def outcomeOf (o : Options) (s : Settings) (sql : String) : Outcome :=
  match (s.dialectFor sql).bind fun dialect => Dump.graph dialect sql with
  | .error e => .failed e.message
  | .ok g =>
    if o.graphOnly then ⟨0, g.toJson.print s.pretty ++ "\n", ""⟩
    else
      let result := audit g
      let output := match s.format with
        | .json => result.toJson.print s.pretty ++ "\n"
        | .text => result.report
      let status := if s.failUnder.any fun limit => result.overallScore < limit then 2 else 0
      ⟨status, output, ""⟩

/-- A run with the given options. Files are read by `readFile`, which gives the text or the reason
why there is none. -/
def runWith {m : Type → Type} [Monad m] (readFile : String → m (Except String String))
    (lookUp : String → Option String) (o : Options) : m Outcome := do
  let file ← match o.config with
    | none => pure none
    | some path => do
      let content ← readFile path
      pure (some (content.mapError (.missingFile path)))
  match settingsOf o lookUp file with
  | .error message => return .failed message
  | .ok s =>
    match ← readFile o.input with
    | .error reason => return .failed ("Failed to read " ++ o.input ++ ": " ++ reason)
    | .ok sql => return outcomeOf o s sql

/-- A run with the given arguments. -/
def run {m : Type → Type} [Monad m] (readFile : String → m (Except String String))
    (lookUp : String → Option String) (arguments : List String) : m Outcome :=
  match Options.ofArguments arguments with
  | .ok o => runWith readFile lookUp o
  | .error .help => return ⟨0, UsageError.help.message, ""⟩
  | .error e => return ⟨2, "", e.message⟩

end SchemaAudit.CommandLine
