import SchemaAudit.Text.Search

/-!
# Options of the command line

The arguments name one input file and options. An option that takes a value finds it behind an
equals sign, behind its letter, or in the next argument; no option is given twice. Behind two
dashes every argument is an operand.
-/

namespace SchemaAudit.CommandLine

/-- Options without a value. -/
inductive Switch where
  | pretty
  | graphOnly
  | help
  deriving DecidableEq, Repr

/-- Options with a value. -/
inductive Setting where
  | dialect
  | format
  | failUnder
  | config
  deriving DecidableEq, Repr

inductive Flag where
  | switch (s : Switch)
  | setting (s : Setting)
  deriving DecidableEq, Repr

def Setting.name : Setting → String
  | dialect => "dialect"
  | format => "format"
  | failUnder => "fail-under"
  | config => "config"

/-- The option with a name. -/
def named? (name : String) : Option Flag :=
  if name = "pretty" then some (.switch .pretty)
  else if name = "graph-only" then some (.switch .graphOnly)
  else if name = "help" then some (.switch .help)
  else
    ([Setting.dialect, .format, .failUnder, .config].find? fun s => s.name == name).map .setting

/-- The option with a letter. -/
def lettered? (c : Char) : Option Flag :=
  if c = 'd' then some (.setting .dialect)
  else if c = 'f' then some (.setting .format)
  else if c = 'c' then some (.setting .config)
  else if c = 'h' then some (.switch .help)
  else none

/-- What the arguments ask for. -/
structure Options where
  input : String
  dialect : Option String
  format : Option String
  pretty : Bool
  graphOnly : Bool
  failUnder : Option Nat
  config : Option String
  deriving DecidableEq, Repr

/-- Why the arguments make up no options. -/
inductive UsageError where
  /-- The explanation of the options was asked for. -/
  | help
  | unknown (argument : String)
  | repeated (name : String)
  | missingValue (name : String)
  | unneededValue (name : String)
  | invalidValue (name value : String)
  | missingInput
  deriving DecidableEq, Repr

/-- The options found so far. -/
structure Draft where
  input : Option String
  dialect : Option String
  format : Option String
  pretty : Bool
  graphOnly : Bool
  failUnder : Option Nat
  config : Option String
  deriving DecidableEq, Repr

/-- The count that a text stands for. Nought may have a minus sign. -/
def limitOfText? : List Char → Option Nat
  | '-' :: digits => if digits.isEmpty || !digits.all (· == '0') then none else some 0
  | s => Text.countOfText? s

namespace Draft

def empty : Draft := ⟨none, none, none, false, false, none, none⟩

/-- Refuses an option that is there already. -/
def once (found : Bool) (name : String) (d : Draft) : Except UsageError Draft :=
  if found then .error (.repeated name) else .ok d

def addSwitch (d : Draft) : Switch → Except UsageError Draft
  | .pretty => once d.pretty "pretty" { d with pretty := true }
  | .graphOnly => once d.graphOnly "graph-only" { d with graphOnly := true }
  | .help => .error .help

def addSetting (d : Draft) (s : Setting) (value : String) : Except UsageError Draft :=
  match s with
  | .dialect => once d.dialect.isSome s.name { d with dialect := some value }
  | .format => once d.format.isSome s.name { d with format := some value }
  | .failUnder => do
    let d ← once d.failUnder.isSome s.name d
    match limitOfText? value.toList with
    | some n => return { d with failUnder := some n }
    | none => throw (.invalidValue s.name value)
  | .config =>
    if value.isEmpty then .error (.invalidValue s.name value)
    else once d.config.isSome s.name { d with config := some value }

def addInput (d : Draft) (path : String) : Except UsageError Draft :=
  if d.input.isSome then .error (.unknown path)
  else if path.isEmpty then .error (.invalidValue "input" path)
  else .ok { d with input := some path }

/-- The options, if there is an input. -/
def finish (d : Draft) : Except UsageError Options :=
  match d.input with
  | none => .error .missingInput
  | some input =>
    .ok ⟨input, d.dialect, d.format, d.pretty, d.graphOnly, d.failUnder, d.config⟩

/-- The draft after an argument with two dashes, from behind them; and the option that takes the
next argument. -/
def addNamed (d : Draft) (argument : List Char) : Except UsageError (Draft × Option Setting) :=
  let (name, value?) := match Text.cutAt? '=' argument with
    | some (name, value) => (String.ofList name, some (String.ofList value))
    | none => (String.ofList argument, none)
  match named? name, value? with
  | none, _ => .error (.unknown ("--" ++ name))
  | some (.switch _), some _ => .error (.unneededValue name)
  | some (.switch s), none => (d.addSwitch s).map fun d => (d, none)
  | some (.setting s), some value => (d.addSetting s value).map fun d => (d, none)
  | some (.setting s), none => .ok (d, some s)

/-- The draft after an argument with one dash, from behind it: letters of switches and then perhaps
one of a setting with its value, before which an equals sign does not count. -/
def addLetters (d : Draft) : List Char → Except UsageError (Draft × Option Setting)
  | [] => .ok (d, none)
  | c :: rest =>
    match lettered? c with
    | none => .error (.unknown (String.ofList ['-', c]))
    | some (.switch s) => do
      let d ← d.addSwitch s
      addLetters d rest
    | some (.setting s) =>
      match rest with
      | [] => .ok (d, some s)
      | '=' :: value => (d.addSetting s (String.ofList value)).map fun d => (d, none)
      | value => (d.addSetting s (String.ofList value)).map fun d => (d, none)

/-- The draft after all arguments; an option may wait for the first one. -/
def addAll (d : Draft) (waiting : Option Setting) : List String → Except UsageError Draft
  | [] =>
    match waiting with
    | some s => .error (.missingValue s.name)
    | none => .ok d
  | argument :: rest =>
    match argument.toList, waiting with
    | '-' :: _ :: _, some s => .error (.missingValue s.name)
    | ['-', '-'], none => rest.foldlM addInput d
    | '-' :: '-' :: named, none => do
      let (d, waiting) ← d.addNamed named
      addAll d waiting rest
    | '-' :: letter :: letters, none => do
      let (d, waiting) ← d.addLetters (letter :: letters)
      addAll d waiting rest
    | _, some s => do
      let d ← d.addSetting s argument
      addAll d none rest
    | _, none => do
      let d ← d.addInput argument
      addAll d none rest

end Draft

/-- The options that arguments make up. -/
def Options.ofArguments (arguments : List String) : Except UsageError Options := do
  let d ← Draft.empty.addAll none arguments
  d.finish

/-- The explanation of the options. -/
def usage : String :=
  String.intercalate "\n"
    ["Usage: schemalens [OPTIONS] <INPUT>",
     "",
     "Options:",
     "  -d, --dialect <DIALECT>        mysql, postgres, mssql or auto",
     "  -f, --format <FORMAT>          json or text",
     "      --pretty                   Write JSON over several lines",
     "      --graph-only               Write the graph instead of its audit",
     "      --fail-under <FAIL_UNDER>  Exit with status 2 if the overall score is less",
     "  -c, --config <CONFIG>          TOML file with settings",
     "  -h, --help                     Write this text",
     ""]

def UsageError.message : UsageError → String
  | help => usage
  | unknown argument => "error: unexpected argument '" ++ argument ++ "'\n\n" ++ usage
  | repeated name => "error: --" ++ name ++ " is given twice\n\n" ++ usage
  | missingValue name => "error: --" ++ name ++ " needs a value\n\n" ++ usage
  | unneededValue name => "error: --" ++ name ++ " takes no value\n\n" ++ usage
  | invalidValue name value =>
    "error: invalid value '" ++ value ++ "' for " ++ name ++ "\n\n" ++ usage
  | missingInput => "error: no input is given\n\n" ++ usage

end SchemaAudit.CommandLine
