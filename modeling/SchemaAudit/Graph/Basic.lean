import SchemaAudit.Text.Classes
import SchemaAudit.Text.LetterCase
import SchemaAudit.Text.Search

/-!
# Entity graphs

Tables with typed and tagged fields, and relationships between fields. A relationship refers to
tables and fields by their names, which need not exist.
-/

namespace SchemaAudit

/-- What a field is in its table. -/
inductive Tag where
  | primaryKey
  | compositeKey
  | foreignKey
  | unique
  | notNull
  deriving DecidableEq, Repr

namespace Tag

/-- All tags, in the order in which they are listed. -/
def all : List Tag := [primaryKey, compositeKey, foreignKey, unique, notNull]

def name : Tag → String
  | primaryKey => "pk"
  | compositeKey => "composite-pk"
  | foreignKey => "fk"
  | unique => "unique"
  | notNull => "not null"

/-- The tag that a text names, in any letter case and with blanks around. -/
def ofText? (s : List Char) : Option Tag :=
  let key := String.ofList (Text.toLower (Text.trim s))
  if key = "primary key" then some primaryKey else all.find? fun t => t.name == key

end Tag

/-- A set of tags. -/
structure Tags where
  primaryKey : Bool
  compositeKey : Bool
  foreignKey : Bool
  unique : Bool
  notNull : Bool
  deriving DecidableEq, Repr

namespace Tags

def empty : Tags := ⟨false, false, false, false, false⟩

def has (s : Tags) : Tag → Bool
  | .primaryKey => s.primaryKey
  | .compositeKey => s.compositeKey
  | .foreignKey => s.foreignKey
  | .unique => s.unique
  | .notNull => s.notNull

def insert (s : Tags) : Tag → Tags
  | .primaryKey => { s with primaryKey := true }
  | .compositeKey => { s with compositeKey := true }
  | .foreignKey => { s with foreignKey := true }
  | .unique => { s with unique := true }
  | .notNull => { s with notNull := true }

def ofList (tags : List Tag) : Tags := tags.foldl insert empty

def toList (s : Tags) : List Tag := Tag.all.filter s.has

theorem has_insert (s : Tags) (t u : Tag) : (s.insert t).has u = (s.has u || t == u) := by
  have h : (t == u) = decide (t = u) := rfl
  rw [h]
  cases t <;> cases u <;> simp [insert, has]

theorem has_empty (t : Tag) : empty.has t = false := by cases t <;> rfl

theorem has_ofList (tags : List Tag) (t : Tag) : (ofList tags).has t = tags.contains t := by
  have h : ∀ (tags : List Tag) (s : Tags),
      (tags.foldl insert s).has t = (s.has t || tags.contains t) := by
    intro tags
    induction tags with
    | nil => simp
    | cons u tags ih =>
      intro s
      rw [List.foldl_cons, ih, has_insert, List.contains_cons, Bool.or_assoc, Bool.beq_comm]
  rw [ofList, h, has_empty, Bool.false_or]

theorem mem_toList {s : Tags} {t : Tag} : t ∈ s.toList ↔ s.has t = true := by
  cases t <;> simp [toList, Tag.all, List.mem_filter]

theorem ext_has {s t : Tags} (h : ∀ u, s.has u = t.has u) : s = t := by
  obtain ⟨a, b, c, d, e⟩ := s
  obtain ⟨a', b', c', d', e'⟩ := t
  obtain rfl : a = a' := h .primaryKey
  obtain rfl : b = b' := h .compositeKey
  obtain rfl : c = c' := h .foreignKey
  obtain rfl : d = d' := h .unique
  obtain rfl : e = e' := h .notNull
  rfl

theorem ofList_toList (s : Tags) : ofList s.toList = s := by
  apply ext_has
  intro t
  rw [has_ofList, Bool.eq_iff_iff, List.contains_iff_mem, mem_toList]

end Tags

structure Field where
  name : String
  type : String
  tags : Tags
  deriving DecidableEq, Repr

namespace Field

def has (f : Field) (t : Tag) : Bool := f.tags.has t

/-- Whether the field belongs to the primary key of its table. -/
def isKey (f : Field) : Bool := f.has .primaryKey || f.has .compositeKey

/-- A field of which only the name is known. -/
def unknown (name : String) : Field := ⟨name, "", .empty⟩

end Field

structure Table where
  id : String
  name : String
  fields : List Field
  deriving DecidableEq, Repr

namespace Table

def field? (t : Table) (name : String) : Option Field := t.fields.find? fun f => f.name == name

/-- The first field that is a primary key. -/
def primaryKey? (t : Table) : Option Field := t.fields.find? fun f => f.has .primaryKey

def hasKey (t : Table) : Bool := t.fields.any Field.isKey

end Table

inductive Multiplicity where
  | oneToOne
  | oneToMany
  | manyToMany
  deriving DecidableEq, Repr

/-- How many rows of one table go with how many of the other. -/
structure Cardinality where
  kind : Multiplicity
  sourceRequired : Bool
  targetRequired : Bool
  deriving DecidableEq, Repr

/-- A field that refers to a field of a table. -/
structure Relationship where
  id : String
  source : String
  target : String
  sourceField : String
  targetField : String
  cardinality : Cardinality
  deriving DecidableEq, Repr

structure Graph where
  tables : List Table
  relationships : List Relationship
  deriving DecidableEq, Repr

end SchemaAudit
