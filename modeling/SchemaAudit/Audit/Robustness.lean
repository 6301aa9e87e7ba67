import SchemaAudit.Audit.Finding
import SchemaAudit.Audit.Subject

/-!
# Robustness metrics

Six metrics of all tables together. Each starts from a base and is raised or lowered by what is
found; a suggestion goes with what could be better.
-/

namespace SchemaAudit.Robustness

/-- All fields, table after table. -/
def fieldsOf (tables : List Table) : List Field := tables.flatMap Table.fields

def countFields (p : Field → Bool) (tables : List Table) : Nat := (fieldsOf tables).countP p

/-- A suggestion where it is called for. -/
def suggestIf (condition : Bool) (suggestion : String) : List String :=
  if condition then [suggestion] else []

/-! ## Indexes -/

/-- The suggestion for a table with several references. -/
def compositeIndex? (t : Table) : Option String :=
  let references := (t.fields.filter Field.isReference).map Field.name
  if references.length > 1 then
    some ("Consider a composite index on " ++ t.name ++ " (" ++ String.intercalate ", " references
      ++ ") for queries filtering on several references.")
  else none

def indexCoverage (tables : List Table) : RobustnessMetric :=
  let any := (fieldsOf tables).any fun f => namedLikeReference f.name
  .make "Index Coverage" (if any then 80 else 60)
    "How well reference columns are positioned for indexing."
    (suggestIf (!any) "Add indexes on the columns used in joins and filters."
      ++ tables.filterMap compositeIndex?)

/-! ## Foreign keys -/

/-- Half of the points, and as much of the other half as there are declared columns for
relationships; a half point counts as one. -/
def integrityScore (declared relationships : Nat) : Nat :=
  if relationships = 0 then 50
  else if relationships ≤ declared then 100
  else 50 + (100 * declared + relationships) / (2 * relationships)

def foreignKeyIntegrity (tables : List Table) (relationships : List Relationship) :
    RobustnessMetric :=
  let declared := countFields (fun f => f.has .foreignKey) tables
  let total := relationships.length
  .make "Foreign Key Integrity" (integrityScore declared total)
    (toString declared ++ " declared foreign key columns for " ++ toString total
      ++ " relationships.")
    (suggestIf (declared < total)
        (toString (total - declared) ++ " of " ++ toString total
          ++ " relationships have no declared FOREIGN KEY constraint.")
      ++ suggestIf (total == 0 && tables.length > 1)
        "No relationships were found between tables.")

/-! ## Names -/

inductive NameStyle where
  | snake
  | pascal
  | camel
  | mixed
  deriving DecidableEq, Repr

def hasUpper (name : String) : Bool := name.toList.any Text.isUpper

def hasUnderscore (name : String) : Bool := name.toList.contains '_'

def NameStyle.of (name : String) : NameStyle :=
  if !hasUpper name then snake
  else if hasUnderscore name then mixed
  else if name.toList.head?.any Text.isUpper then pascal
  else camel

/-- Whether all tables are named in one of the two styles that are asked for. -/
def uniformTableNames (tables : List Table) : Bool :=
  let styles := tables.map fun t => NameStyle.of t.name
  styles.all (· == .snake) || styles.all (· == .pascal)

/-- The styles of field names. A name of one word in lower case fits any style and does not
count. -/
def fieldStyles (tables : List Table) : List NameStyle :=
  ((fieldsOf tables).filter fun f => hasUnderscore f.name || hasUpper f.name).map fun f =>
    NameStyle.of f.name

def mixedFieldNames (tables : List Table) : Bool :=
  match fieldStyles tables with
  | [] => false
  | style :: rest => rest.any (· != style)

/-- Whether a key is named `id`, or after its table in the singular or the plural. -/
def isConventionalKey (table key : String) : Bool :=
  let table := Text.toLower table.toList
  let key := Text.toLower key.toList
  let singular := (Text.stripEnd? ['s'] table).getD table
  key == "id".toList || key == table ++ "_id".toList || key == singular ++ "_id".toList

/-- The simple primary key of a table, with its table, if it is named in another way. -/
def oddKey? (t : Table) : Option String :=
  (t.fields.find? fun f => f.has .primaryKey && !f.has .compositeKey).bind fun key =>
    if isConventionalKey t.name key.name then none else some (t.name ++ "." ++ key.name)

def namingConventions (tables : List Table) : RobustnessMetric :=
  let uniform := uniformTableNames tables
  let mixed := mixedFieldNames tables
  let odd := tables.filterMap oddKey?
  .make "Naming Conventions"
    (70 - (if uniform then 0 else 15) - (if mixed then 10 else 0)
      - (if odd.isEmpty then 0 else 5))
    "Consistency of table, field and key naming."
    (suggestIf (!uniform) "Use one style for table names, either snake_case or PascalCase."
      ++ suggestIf mixed "Field names mix naming styles across tables."
      ++ suggestIf (!odd.isEmpty)
        ("Name primary keys 'id' or '<table>_id': " ++ String.intercalate ", " odd ++ "."))

/-! ## Types -/

/-- The names in increasing order with one more, each once. -/
def insertSorted (name : String) : List String → List String
  | [] => [name]
  | first :: rest =>
    if name < first then name :: first :: rest
    else if name = first then first :: rest
    else first :: insertSorted name rest

/-- The types of the fields of a kind, in increasing order, each once. -/
def typesOf (p : Field → Bool) (tables : List Table) : List String :=
  ((fieldsOf tables).filter p).foldl (fun types f => insertSorted (baseType f.type) types) []

def dataTypeConsistency (tables : List Table) : RobustnessMetric :=
  let ids := typesOf (fun f => namedLikeReference f.name) tables
  let times := typesOf Field.isTimestampLike tables
  let many := fun (types : List String) => types.length > 2
  let listing := fun (types : List String) =>
    toString types.length ++ " different types (" ++ String.intercalate ", " types ++ ")"
  .make "Data Type Consistency"
    (75 - (if many ids then 15 else 0) - (if many times then 10 else 0))
    "Whether related columns share the same underlying types."
    (suggestIf (many ids) ("Identifier columns use " ++ listing ids ++ "; pick one.")
      ++ suggestIf (many times) ("Date and time columns use " ++ listing times ++ "."))

/-! ## Growth -/

/-- Whether a name ends with an underscore and digits, with something before them. -/
def isPartitionName (name : String) : Bool :=
  match Text.cutAt? '_' name.toList.reverse with
  | none => false
  | some (ending, start) => !start.isEmpty && !ending.isEmpty && ending.all Text.isDigit

def scalabilityIndicators (tables : List Table) : RobustnessMetric :=
  let partitioned := tables.any fun t => isPartitionName t.name
  let stamped := !tables.isEmpty && tables.all fun t => t.hasCreatedAt && t.hasUpdatedAt
  let softDeleted := tables.any Table.hasDeletedAt
  .make "Scalability Indicators"
    (65 + (if partitioned then 15 else 0) + (if stamped then 10 else 0)
      + (if softDeleted then 5 else 0))
    "Structural hints that the schema will cope with growth."
    (suggestIf (!partitioned) "Consider partitioning large, time-ordered tables."
      ++ suggestIf (!stamped) "Add created_at and updated_at to every table."
      ++ suggestIf (!softDeleted)
        "Soft deletes (deleted_at) make archiving and recovery easier.")

/-! ## Performance -/

/-- Points for each of some faults, up to a limit. -/
structure Deduction where
  count : Nat
  points : Nat
  limit : Nat
  suggestion : String
  deriving DecidableEq, Repr

/-- The points that are taken off, in 32 bits. It is the product of 32 bits that the limit is set
to: one that needs more bits has wrapped by then. -/
def Deduction.total (d : Deduction) : Int32 :=
  min (Int32.ofNat d.count * Int32.ofNat d.points) (Int32.ofNat d.limit)

/-- What is left of a hundred points when one deduction after the other is made, in 32 bits. -/
def scoreLeft (due : List Deduction) : Int32 := due.foldl (fun score d => score - d.total) 100

/-- The nearest whole number from none to a hundred. -/
def clamp (score : Int32) : Nat := (min score 100).toNatClampNeg

/-- A fault of tables, with the number of those that have it. -/
def tableFault (tables : List Table) (p : Table → Bool) (points limit : Nat) (fault : String) :
    Deduction :=
  let count := tables.countP p
  ⟨count, points, limit, toString count ++ " table(s) have " ++ fault⟩

def isWide (t : Table) : Bool := t.fields.length > 20

def refersOften (t : Table) : Bool := t.fields.countP (fun f => f.has .foreignKey) > 5

def isTextHeavy (t : Table) : Bool :=
  t.fields.countP (fun f => !f.isKey && isStringType f.type) > 5

def wideTables (tables : List Table) : Deduction :=
  tableFault tables isWide 5 20 "more than 20 columns; consider splitting them."

def keylessTables (tables : List Table) : Deduction :=
  tableFault tables (fun t => !t.hasKey) 3 15 "no primary key."

def referringTables (tables : List Table) : Deduction :=
  tableFault tables refersOften 5 10 "more than 5 foreign keys."

def unindexedReferences (tables : List Table) : Deduction :=
  let count := countFields Field.isUnindexedReference tables
  ⟨count, 2, 15, toString count ++ " reference column(s) are not indexed."⟩

def textHeavyTables (tables : List Table) : Deduction :=
  tableFault tables isTextHeavy 3 10 "more than 5 text columns."

def deductions (tables : List Table) : List Deduction :=
  [wideTables tables, keylessTables tables, referringTables tables, unindexedReferences tables,
   textHeavyTables tables]

/-- A deduction is made and suggested only where there is a fault. -/
def performanceAntiPatterns (tables : List Table) : RobustnessMetric :=
  let due := (deductions tables).filter fun d => d.count > 0
  .make "Performance Anti-Patterns" (clamp (scoreLeft due))
    "Structures known to slow down queries and writes." (due.map Deduction.suggestion)

/-- The six metrics: `check_robustness`. -/
def metrics (tables : List Table) (relationships : List Relationship) : List RobustnessMetric :=
  [indexCoverage tables, foreignKeyIntegrity tables relationships, namingConventions tables,
   dataTypeConsistency tables, scalabilityIndicators tables, performanceAntiPatterns tables]

end SchemaAudit.Robustness
