import SchemaAudit.Graph.Basic

/-!
# Cardinality and inferred relationships

The cardinality of a relationship is read off the tags of the field that refers. A field whose name
is a word and `_id` refers to the table that the word names, in the singular or the plural, if that
table has a primary key.
-/

namespace SchemaAudit

/-- Whether a name looks like that of a reference. -/
def namedLikeReference (name : String) : Bool :=
  let lowered := Text.toLower name.toList
  Text.contains "_id".toList lowered || "id".toList.isSuffixOf lowered

/-- The cardinality of a relationship from a field, `classify`: one to one for a primary key or a unique
field that refers, else one to many. -/
def Field.cardinality (source : Field) : Cardinality :=
  let refers := source.has .foreignKey || namedLikeReference source.name
  if source.has .primaryKey && refers then ⟨.oneToOne, true, true⟩
  else if refers && source.has .unique then ⟨.oneToOne, source.has .notNull, false⟩
  else ⟨.oneToMany, source.has .notNull, false⟩

/-- The names of tables that a word may stand for, in lower case, the best first. -/
def candidates (word : List Char) : List (List Char) :=
  [word, word ++ ['s'], word ++ ['e', 's']] ++
    match Text.stripEnd? ['y'] word with
    | some stem => [stem ++ ['i', 'e', 's']]
    | none => []

/-- The table that a word stands for. -/
def wordTarget? (tables : List Table) (word : List Char) : Option Table :=
  (candidates word).findSome? fun candidate =>
    tables.find? fun t => Text.toLower t.name.toList == candidate

/-- The word before `_id` in the name of a field, in lower case. -/
def referenceWord? (name : String) : Option (List Char) :=
  (Text.stripEnd? "_id".toList (Text.toLower name.toList)).filter fun word => !word.isEmpty

/-- The relationship that the name of a field shows. A primary key that would refer to itself shows
none. -/
def inferred? (tables : List Table) (t : Table) (f : Field) : Option Relationship := do
  let word ← referenceWord? f.name
  let target ← wordTarget? tables word
  let key ← target.primaryKey?
  let edge : Relationship :=
    { id := "implicit:" ++ t.name ++ "." ++ f.name ++ "->" ++ target.name ++ "." ++ key.name
      source := t.name
      target := target.name
      sourceField := f.name
      targetField := key.name
      cardinality := f.cardinality }
  if target.name = t.name ∧ key.name = f.name then none else some edge

/-- The relationships that the names of fields show, in the order of tables and fields:
`infer_relationships`. -/
def inferRelationships (tables : List Table) : List Relationship :=
  tables.flatMap fun t => t.fields.filterMap (inferred? tables t)

end SchemaAudit
