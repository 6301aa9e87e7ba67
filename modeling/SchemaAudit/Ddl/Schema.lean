import SchemaAudit.FirstMatch

/-!
# Declared schemas

What a script of declarations says: entities with their columns and keys, and the foreign keys of
all of them in the order in which they were declared.
-/

namespace SchemaAudit.Ddl

/-- What a column declares about its own values. -/
inductive Modifier where
  | primaryKey
  | notNull
  | unique
  | increment
  deriving DecidableEq, Repr

structure Column where
  name : String
  /-- The canonical type. -/
  type : String
  modifiers : List Modifier
  deriving DecidableEq, Repr

/-- A key that is declared beside the columns. -/
inductive Key where
  | primary (columns : List String)
  | unique (columns : List String)
  deriving DecidableEq, Repr

structure Entity where
  name : String
  columns : List Column
  keys : List Key
  deriving DecidableEq, Repr

/-- Columns of a table that refer to columns of another. No target columns stand for the primary
key of the target. -/
structure ForeignKey where
  table : String
  columns : List String
  target : String
  targetColumns : List String
  deriving DecidableEq, Repr

structure Schema where
  entities : List Entity
  foreignKeys : List ForeignKey
  deriving DecidableEq, Repr

namespace Column

def has (c : Column) (m : Modifier) : Bool := c.modifiers.contains m

/-- The column as a primary key; the modifier comes first, and once. -/
def withPrimaryKey (c : Column) : Column :=
  if c.has .primaryKey then c else { c with modifiers := .primaryKey :: c.modifiers }

end Column

namespace Key

/-- The columns of a primary key, and none for another key. -/
def primaryColumns : Key → List String
  | primary columns => columns
  | unique _ => []

/-- Whether the key makes one column alone unique. -/
def isUniqueOn (column : String) : Key → Bool
  | primary _ => false
  | unique columns => columns == [column]

end Key

namespace Entity

/-- Columns that the primary keys beside the columns name. -/
def primaryColumns (e : Entity) : List String := e.keys.flatMap Key.primaryColumns

/-- Whether some key makes one column alone unique. -/
def isUniqueOn (e : Entity) (column : String) : Bool := e.keys.any (Key.isUniqueOn column)

/-- The entity with the named columns marked as primary key. -/
def markPrimary (e : Entity) (columns : List String) : Entity :=
  { e with columns := e.columns.map fun c => if columns.contains c.name then c.withPrimaryKey else c }

end Entity

namespace Schema

def empty : Schema := ⟨[], []⟩

def entity? (s : Schema) (name : String) : Option Entity :=
  s.entities.find? fun e => e.name == name

/-- The schema after an entity is declared: it takes the place of an earlier one of its name. -/
def declare (s : Schema) (e : Entity) (references : List ForeignKey) : Schema :=
  { entities :=
      if s.entities.any (fun old => old.name == e.name) then
        updateFirst (fun old => old.name == e.name) (fun _ => e) s.entities
      else s.entities ++ [e]
    foreignKeys := s.foreignKeys ++ references }

/-- The schema with the first entity of a name changed. -/
def alter (s : Schema) (name : String) (f : Entity → Entity) : Schema :=
  { s with entities := updateFirst (fun e => e.name == name) f s.entities }

end Schema

end SchemaAudit.Ddl
