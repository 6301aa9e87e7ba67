import SchemaAudit.Audit.Reserved
import SchemaAudit.Audit.Subject
import SchemaAudit.Audit.Template
import SchemaAudit.Graph.Cycle

/-!
# Security issues

Rules for fields and rules for tables are tried in order on each table, its fields first. Behind
them come relationships that end nowhere, cycles of references, and references without an index.
-/

namespace SchemaAudit.Security

open Template

/-- A test of a field in its table, and the issue where it holds. -/
structure FieldRule where
  applies : Table → Field → Bool
  issue : SecurityTemplate

/-- A test of a table, and the issue where it holds. -/
structure TableRule where
  applies : Table → Bool
  issue : SecurityTemplate

def fieldRules : List FieldRule :=
  [{ applies := fun _ f => f.isPassword && !f.looksHashed
     issue :=
      { severity := .critical
        category := .authentication
        impact := .high
        title := "Potential Plain Text Password Storage"
        description := fieldInTable ++ " appears to store passwords without hashing."
        recommendation :=
          "Store only salted hashes (bcrypt, scrypt or argon2) and rename the column to make that "
            ++ "explicit, e.g. '" ++ fieldMark ++ "_hash'." } },
   { applies := fun _ f => f.isPassword && (varcharLength? f.type).any (· < 60)
     issue :=
      { severity := .warning
        category := .authentication
        impact := .medium
        title := "Insufficient Password Hash Length"
        description :=
          fieldInTable ++ " is declared as " ++ typeMark
            ++ ", too short to hold a modern password hash."
        recommendation :=
          "Use at least VARCHAR(60) for bcrypt hashes, VARCHAR(255) leaves room for other "
            ++ "algorithms." } },
   { applies := fun _ f => f.isSensitive
     issue :=
      { severity := .critical
        category := .dataProtection
        impact := .high
        title := "Unencrypted Sensitive Data"
        description :=
          fieldInTable ++ " looks like sensitive personal or financial data stored in clear."
        recommendation :=
          "Encrypt " ++ theField ++ " at rest or tokenize it, and restrict who can read it." } },
   { applies := fun _ f => mentions f.name ["email"] && !f.has .unique && !f.isKey
     issue :=
      { severity := .warning
        category := .integrity
        impact := .medium
        title := "Email Without Unique Constraint"
        description := fieldInTable ++ " allows duplicate email addresses."
        recommendation :=
          "Add a UNIQUE constraint on '" ++ tableMark ++ "." ++ fieldMark
            ++ "' if emails identify accounts." } },
   { applies := fun _ f => isTextType f.type || (varcharLength? f.type).any (1000 < ·)
     issue :=
      { severity := .info
        category := .inputValidation
        impact := .low
        title := "Large Text Field Requires Input Validation"
        description :=
          "Field " ++ theField ++ " (" ++ typeMark ++ ") in table " ++ theTable
            ++ " accepts large free-form input."
        recommendation :=
          "Validate and sanitize input for " ++ theField ++ " and use parameterized queries." } },
   { applies := fun _ f =>
      hasToken f.name
        ["id", "email", "password", "username", "amount", "total", "price", "payment", "status"]
      && !f.isKey && !f.has .foreignKey && !f.has .notNull
     issue :=
      { severity := .warning
        category := .integrity
        impact := .medium
        title := "Critical Field Allows NULL"
        description := fieldInTable ++ " is critical but has no NOT NULL constraint."
        recommendation := "Declare " ++ theField ++ " as NOT NULL." } },
   { applies := fun _ f => isReserved f.name
     issue :=
      { severity := .info
        category := .naming
        impact := .low
        title := "Reserved Word Used as Field Name"
        description := fieldInTable ++ " is an SQL reserved word."
        recommendation :=
          "Rename " ++ theField ++ " to avoid quoting issues and injection-prone dynamic SQL." } }]

def tableRules : List TableRule :=
  [{ applies := fun t => !t.isSystem && !t.hasKey
     issue :=
      { severity := .critical
        category := .integrity
        impact := .high
        title := "Missing Primary Key"
        description := "Table " ++ theTable ++ " has no primary key."
        recommendation :=
          "Add a primary key to " ++ theTable
            ++ " so rows can be identified and referenced safely." } },
   { applies := fun t => !t.isSystem && !t.hasCreatedAt
     issue :=
      { severity := .warning
        category := .audit
        impact := .low
        title := "Missing Creation Timestamp"
        description := "Table " ++ theTable ++ " does not record when rows are created."
        recommendation := "Add a 'created_at' timestamp column to " ++ theTable ++ "." } },
   { applies := fun t => !t.isSystem && !t.hasUpdatedAt
     issue :=
      { severity := .info
        category := .audit
        impact := .low
        title := "Missing Update Timestamp"
        description := "Table " ++ theTable ++ " does not record when rows change."
        recommendation := "Add an 'updated_at' timestamp column to " ++ theTable ++ "." } },
   { applies := fun t => !t.isSystem && t.isImportant && !t.hasDeletedAt
     issue :=
      { severity := .info
        category := .audit
        impact := .low
        title := "Consider Soft Delete"
        description :=
          "Table " ++ theTable ++ " holds important records but deletes are irreversible."
        recommendation :=
          "Consider a 'deleted_at' column on " ++ theTable
            ++ " for soft deletes and audit history." } },
   { applies := fun t =>
      mentions t.name ["user", "account"]
      && !t.hasFieldMentioning ["role", "permission", "access"]
     issue :=
      { severity := .warning
        category := .accessControl
        impact := .medium
        title := "Missing Access Control Fields"
        description :=
          "Table " ++ theTable ++ " stores users or accounts but has no role or permission field."
        recommendation :=
          "Add a role or permission column to " ++ theTable ++ ", or link it to a roles table." } },
   { applies := fun t => isReserved t.name
     issue :=
      { severity := .warning
        category := .naming
        impact := .medium
        title := "Reserved Word Used as Table Name"
        description := "Table " ++ theTable ++ " is named after an SQL reserved word."
        recommendation :=
          "Rename " ++ theTable ++ " to avoid quoting issues and injection-prone dynamic SQL." } }]

/-- The issues that the rules find in a field. -/
def fieldIssues (t : Table) (f : Field) : List SecurityIssue :=
  (fieldRules.filter fun rule => rule.applies t f).map fun rule => rule.issue.issue t (some f)

/-- The issues that the rules find in a table as a whole. -/
def tableIssues (t : Table) : List SecurityIssue :=
  (tableRules.filter fun rule => rule.applies t).map fun rule => rule.issue.issue t none

/-- An end of a relationship that is at no table. -/
def danglingEnd (tables : List Table) (r : Relationship) (side table field : String) :
    Option SecurityIssue :=
  if tables.any fun t => t.name == table then none
  else some
    { severity := .critical
      category := .integrity
      title := "Invalid Relationship Reference"
      description :=
        "Relationship '" ++ r.id ++ "' has a " ++ side ++ " table '" ++ table
          ++ "' that does not exist."
      table := some table
      field := some field
      recommendation := "Create table '" ++ table ++ "' or remove the relationship."
      impact := .high }

/-- The issues of the ends of a relationship, the source first. -/
def danglingIssues (tables : List Table) (r : Relationship) : List SecurityIssue :=
  (danglingEnd tables r "source" r.source r.sourceField).toList
    ++ (danglingEnd tables r "target" r.target r.targetField).toList

/-- The issue of a cycle of references. -/
def cycleIssue (cycle : List String) : SecurityIssue :=
  { severity := .warning
    category := .integrity
    title := "Circular Dependency Detected"
    description :=
      "Tables reference each other in a cycle: "
        ++ String.intercalate " → " (cycle ++ cycle.head?.toList)
    table := cycle.head?
    field := none
    recommendation :=
      "Break the cycle with a nullable reference or a junction table so rows can be inserted and "
        ++ "deleted in order."
    impact := .medium }

/-- A field that is named like a reference and has no index of its own. -/
def lacksIndex (f : Field) : Bool := namedLikeReference f.name && !f.isKey && !f.has .unique

/-- The issue of a reference without an index. -/
def unindexedIssue (t : Table) (f : Field) : SecurityIssue :=
  { severity := .warning
    category := .integrity
    title := "Unindexed Foreign Key"
    description :=
      "Field '" ++ f.name ++ "' in table '" ++ t.name
        ++ "' references another table but has no index."
    table := some t.name
    field := some f.name
    recommendation :=
      "Create an index on '" ++ t.name ++ "." ++ f.name
        ++ "' to speed up joins and cascading deletes."
    impact := .medium }

/-- The edges of the graph that relationships span. -/
def edges (relationships : List Relationship) : List Cycle.Edge :=
  relationships.map fun r => (r.source, r.target)

/-- All security issues of tables and relationships: `check_security`. -/
def issues (tables : List Table) (relationships : List Relationship) : List SecurityIssue :=
  (tables.flatMap fun t => t.fields.flatMap (fieldIssues t) ++ tableIssues t)
    ++ relationships.flatMap (danglingIssues tables)
    ++ (findCycles (tables.map Table.name) (edges relationships)).map cycleIssue
    ++ tables.flatMap fun t => (t.fields.filter lacksIndex).map (unindexedIssue t)

end SchemaAudit.Security
