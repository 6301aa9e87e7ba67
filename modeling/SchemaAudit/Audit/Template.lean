import SchemaAudit.Audit.Finding
import SchemaAudit.Graph.Basic

/-!
# Templates of findings

The texts of a finding are templates in which a table, a field and its type are marked. The marks
are filled one kind after another: the table first, then the field and the type where there is a
field.
-/

namespace SchemaAudit

namespace Template

/-- The mark that a table's name takes the place of. -/
def tableMark : String := "\x7btable\x7d"

/-- The mark that a field's name takes the place of. -/
def fieldMark : String := "\x7bfield\x7d"

/-- The mark that a field's type takes the place of. -/
def typeMark : String := "\x7btype\x7d"

def replace (mark name text : String) : String :=
  String.ofList (Text.replaceAll mark.toList name.toList text.toList)

/-- A template with its marks filled: `interpolate`. -/
def fill (template : String) (t : Table) (f : Option Field) : String :=
  let text := replace tableMark t.name template
  match f with
  | none => text
  | some f => replace typeMark f.type (replace fieldMark f.name text)

/-- The mark of a table between single quotes. -/
def theTable : String := "'" ++ tableMark ++ "'"

/-- The mark of a field between single quotes. -/
def theField : String := "'" ++ fieldMark ++ "'"

/-- A field and its table. -/
def fieldInTable : String := "Field " ++ theField ++ " in table " ++ theTable

end Template

/-- A security issue before it is known where it arises. -/
structure SecurityTemplate where
  severity : Severity
  category : SecurityCategory
  impact : Impact
  title : String
  description : String
  recommendation : String

/-- The issue in a table, or in a field of it. -/
def SecurityTemplate.issue (s : SecurityTemplate) (t : Table) (f : Option Field) : SecurityIssue :=
  { severity := s.severity
    category := s.category
    title := Template.fill s.title t f
    description := Template.fill s.description t f
    table := some t.name
    field := f.map Field.name
    recommendation := Template.fill s.recommendation t f
    impact := s.impact }

/-- A normalization issue before it is known in which field it arises. -/
structure NormalizationTemplate where
  kind : NormalizationKind
  normalForm : NormalForm
  title : String
  description : String
  recommendation : String

def NormalizationTemplate.issue (n : NormalizationTemplate) (t : Table) (f : Field) :
    NormalizationIssue :=
  { kind := n.kind
    normalForm := n.normalForm
    title := n.title
    description := Template.fill n.description t (some f)
    table := t.name
    fields := [f.name]
    recommendation := Template.fill n.recommendation t (some f) }

end SchemaAudit
