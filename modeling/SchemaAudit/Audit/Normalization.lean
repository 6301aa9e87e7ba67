import SchemaAudit.Audit.Subject
import SchemaAudit.Audit.Template

/-!
# Normalization issues

Rules for fields look for several values in one column and for unfit types. Two more checks look at
the fields of a table together: fields that may depend on part of a composite key, and fields that
may belong to a table of their own.
-/

namespace SchemaAudit.Normalization

open Template

/-- A test of a field, and the issue where it holds. -/
structure FieldRule where
  applies : Field → Bool
  issue : NormalizationTemplate

def monetaryFieldInTable : String :=
  "Monetary field " ++ theField ++ " in table " ++ theTable

def fieldRules : List FieldRule :=
  [{ applies := fun f =>
      mentions f.name
        ["list", "array", "comma", "separated", "multiple", "tags", "categories"]
     issue :=
      { kind := .violation
        normalForm := .first
        title := "Potential Multi-Valued Attribute"
        description := fieldInTable ++ " appears to hold several values in one column."
        recommendation :=
          "Move the values of " ++ theField
            ++ " into a separate table with one row per value." } },
   { applies := fun f => ["json", "jsonb"].contains (baseType f.type)
     issue :=
      { kind := .suggestion
        normalForm := .first
        title := "JSON Column May Hide Structure"
        description := fieldInTable ++ " is " ++ typeMark ++ " and may contain repeating groups."
        recommendation :=
          "Promote frequently queried keys of " ++ theField
            ++ " to proper columns or tables." } },
   { applies := fun f => (varcharLength? f.type).any (1000 < ·)
     issue :=
      { kind := .suggestion
        normalForm := .dataTypes
        title := "Oversized VARCHAR"
        description := fieldInTable ++ " is declared as " ++ typeMark ++ "."
        recommendation := "Use TEXT for " ++ theField ++ " instead of a very long VARCHAR." } },
   { applies := fun f => f.isCurrency && isFloatType f.type
     issue :=
      { kind := .violation
        normalForm := .dataTypes
        title := "Floating Point Currency"
        description :=
          monetaryFieldInTable ++ " uses " ++ typeMark ++ ", which rounds amounts."
        recommendation :=
          "Never use floats for money: declare " ++ theField ++ " as DECIMAL(19,4) or similar." } },
   { applies := fun f => f.isCurrency && !isFloatType f.type && !isExactNumeric f.type
     issue :=
      { kind := .warning
        normalForm := .dataTypes
        title := "Imprecise Currency Type"
        description :=
          monetaryFieldInTable ++ " uses " ++ typeMark ++ " instead of an exact numeric type."
        recommendation := "Declare " ++ theField ++ " as DECIMAL, NUMERIC or MONEY." } },
   { applies := fun f => f.isFlag && isStringType f.type
     issue :=
      { kind := .suggestion
        normalForm := .dataTypes
        title := "Boolean Stored as String"
        description := fieldInTable ++ " looks like a flag but is stored as " ++ typeMark ++ "."
        recommendation :=
          "Use BOOLEAN (or an enum for multi-state values) for " ++ theField ++ "." } }]

/-- The issues that the rules find in a field. -/
def fieldIssues (t : Table) (f : Field) : List NormalizationIssue :=
  (fieldRules.filter fun rule => rule.applies f).map fun rule => rule.issue.issue t f

/-! ## Dependencies on part of a key -/

/-- The first token of a name. -/
def leadingToken? (name : String) : Option (List Char) := (nameTokens name).head?

/-- The issue of a field that depends on one component of a composite key. -/
def partialIssue (t : Table) (f key : Field) : NormalizationIssue :=
  { kind := .warning
    normalForm := .second
    title := "Possible Partial Dependency"
    description :=
      "Field '" ++ f.name ++ "' in table '" ++ t.name
        ++ "' seems to depend only on key component '" ++ key.name ++ "'."
    table := t.name
    fields := [f.name, key.name]
    recommendation :=
      "Move '" ++ f.name ++ "' to the table identified by '" ++ key.name ++ "'." }

/-- The first component of the key that a field shares its first token with, if another component
begins otherwise. -/
def partialKey? (keys : List Field) (f : Field) : Option Field := do
  let token ← leadingToken? f.name
  let key ← keys.find? fun k => leadingToken? k.name == some token
  if keys.any fun k => leadingToken? k.name != some token then some key else none

/-- The fields outside a composite key that depend on part of it. -/
def partialIssues (t : Table) : List NormalizationIssue :=
  let keys := t.fields.filter fun f => f.has .primaryKey
  if keys.length < 2 then []
  else (t.fields.filter fun f => !f.isKey).filterMap fun f =>
    (partialKey? keys f).map (partialIssue t f)

/-! ## Dependencies through other fields -/

/-- The tokens of a name that say what it is about: at least three bytes long, and neither `id` nor
`name`. -/
def significantTokens (name : String) : List (List Char) :=
  (nameTokens name).filter fun token =>
    3 ≤ Text.byteSize token && token != "id".toList && token != "name".toList

/-- The first significant token of one name that is one of another, too. -/
def sharedToken? (name other : String) : Option (List Char) :=
  (significantTokens name).find? fun token => (significantTokens other).contains token

/-- The first of some fields that shares a significant token with a field, and that token. -/
def partner? (f : Field) (others : List Field) : Option (Field × List Char) :=
  others.findSome? fun other => (sharedToken? f.name other.name).map fun token => (other, token)

/-- The issue of two fields that describe the same thing. -/
def transitiveIssue (t : Table) (f other : Field) (token : List Char) : NormalizationIssue :=
  { kind := .suggestion
    normalForm := .third
    title := "Possible Transitive Dependency"
    description :=
      "Fields '" ++ f.name ++ "' and '" ++ other.name ++ "' in table '" ++ t.name
        ++ "' both describe '" ++ String.ofList token ++ "'."
    table := t.name
    fields := [f.name, other.name]
    recommendation :=
      "Consider extracting the '" ++ String.ofList token ++ "' attributes of '" ++ t.name
        ++ "' into their own table." }

/-- An issue for each field that has a partner among the fields behind it. -/
def transitiveIssuesOf (t : Table) : List Field → List NormalizationIssue
  | [] => []
  | f :: others =>
    ((partner? f others).map fun (other, token) => transitiveIssue t f other token).toList
      ++ transitiveIssuesOf t others

def transitiveIssues (t : Table) : List NormalizationIssue :=
  transitiveIssuesOf t (t.fields.filter fun f => !f.isKey)

/-- All normalization issues of a table. -/
def tableIssues (t : Table) : List NormalizationIssue :=
  t.fields.flatMap (fieldIssues t) ++ partialIssues t ++ transitiveIssues t

/-- All normalization issues of tables: `check_normalization`. -/
def issues (tables : List Table) : List NormalizationIssue := tables.flatMap tableIssues

end SchemaAudit.Normalization
