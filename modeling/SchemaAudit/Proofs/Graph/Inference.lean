import SchemaAudit.Audit.Security
import SchemaAudit.FirstMatch
import SchemaAudit.Proofs.Text.Search

/-!
# Relationships that the names of fields show

A field whose name is a word and `_id` refers to the table that the word stands for. Which table this
is, and which of its fields, is said here without a search, and the list of all such relationships is
described by it.

* `namesFor`: the names of tables that a word may stand for, the best first.
* `StandsFor`: the table of a word. It is the first of the best of these names that is the name of a
  table, whether or not it has a key.
* `RefersByName`: a field refers to the first key of that table.
* `inferred?_eq_some_iff`: this is what is inferred from a single field.
* `inferRelationships_isShown`: each field shows one relationship or none, in order, and none of the
  relationships ends at a table that is missing.
* `inferRelationships_perm`: where no two tables have one name, their order only orders the result.
-/

namespace SchemaAudit

/-! ### Words and tables -/

/-- The name of a table, in lower case. -/
def Table.lowered (t : Table) : List Char := Text.toLower t.name.toList

/-- The word itself and its plurals, the best first. -/
def namesFor (word : List Char) : List (List Char) :=
  [word, word ++ "s".toList, word ++ "es".toList]
    ++ if word.getLast? = some 'y' then [word.dropLast ++ "ies".toList] else []

example : namesFor "city".toList
    = ["city".toList, "citys".toList, "cityes".toList, "cities".toList] := by decide

theorem candidates_eq_namesFor (word : List Char) : candidates word = namesFor word := by
  rw [candidates, namesFor]
  cases hstem : Text.stripEnd? ['y'] word with
  | some stem =>
    obtain rfl := Text.stripEnd?_eq_some_iff.1 hstem
    simp
  | none =>
    have hlast : word.getLast? ≠ some 'y' := by
      intro hlast
      obtain ⟨stem, rfl⟩ := List.getLast?_eq_some_iff.1 hlast
      rw [Text.stripEnd?_eq_some_iff.2 rfl] at hstem
      cases hstem
    rw [if_neg hlast]
    rfl

/-- The word stands for the table: of its names that are names of tables the table has the best, and
it is the first table of that name. -/
def StandsFor (tables : List Table) (word : List Char) (target : Table) : Prop :=
  ∃ name, IsFirst (fun name => ∃ t ∈ tables, t.lowered = name) (namesFor word) name ∧
    IsFirst (fun t => t.lowered = name) tables target

theorem wordTarget?_eq_some_iff {tables : List Table} {word : List Char} {target : Table} :
    wordTarget? tables word = some target ↔ StandsFor tables word target := by
  have hsome : ∀ name : List Char,
      (tables.find? fun t => Text.toLower t.name.toList == name).isSome = true
        ↔ ∃ t ∈ tables, t.lowered = name := by
    intro name
    simp [List.find?_isSome, Table.lowered]
  have hfirst : ∀ name : List Char,
      (tables.find? fun t => Text.toLower t.name.toList == name) = some target
        ↔ IsFirst (fun t => t.lowered = name) tables target := by
    intro name
    simp [find?_eq_some_iff_isFirst, Table.lowered]
  rw [wordTarget?, candidates_eq_namesFor, findSome?_eq_some_iff_isFirst]
  simp only [hsome, hfirst]
  rfl

/-! ### Single fields -/

/-- The field of a table refers by its name to a key: the name is a word and `_id`, in any case of
letters, the key is the first one of the table that the word stands for, and it is not the field
itself. -/
structure RefersByName (tables : List Table) (t : Table) (f : Field) (target : Table)
    (key : Field) : Prop where
  exists_word : ∃ word, word ≠ [] ∧ Text.toLower f.name.toList = word ++ "_id".toList ∧
    StandsFor tables word target
  isFirst_key : IsFirst (fun k => k.has .primaryKey = true) target.fields key
  ne_self : ¬(target.name = t.name ∧ key.name = f.name)

/-- The relationship of a field to a key. -/
def referenceByName (t : Table) (f : Field) (target : Table) (key : Field) : Relationship :=
  { id := "implicit:" ++ t.name ++ "." ++ f.name ++ "->" ++ target.name ++ "." ++ key.name
    source := t.name
    target := target.name
    sourceField := f.name
    targetField := key.name
    cardinality := f.cardinality }

theorem referenceWord?_eq_some_iff {name : String} {word : List Char} :
    referenceWord? name = some word
      ↔ word ≠ [] ∧ Text.toLower name.toList = word ++ "_id".toList := by
  rw [referenceWord?, Option.filter_eq_some_iff, Text.stripEnd?_eq_some_iff, and_comm]
  simp

/-- **A relationship is inferred from a field exactly if the field refers to a key by its name.** -/
theorem inferred?_eq_some_iff {tables : List Table} {t : Table} {f : Field} {r : Relationship} :
    inferred? tables t f = some r
      ↔ ∃ target key, RefersByName tables t f target key ∧ r = referenceByName t f target key := by
  have hkey : ∀ {target : Table} {key : Field}, target.primaryKey? = some key
      ↔ IsFirst (fun k => k.has .primaryKey = true) target.fields key :=
    find?_eq_some_iff_isFirst
  constructor
  · intro h
    obtain ⟨word, hword, h⟩ := Option.bind_eq_some_iff.1 h
    obtain ⟨target, htarget, h⟩ := Option.bind_eq_some_iff.1 h
    obtain ⟨key, hfirst, h⟩ := Option.bind_eq_some_iff.1 h
    obtain ⟨hne, hname⟩ := referenceWord?_eq_some_iff.1 hword
    split at h
    · cases h
    · rename_i hself
      refine ⟨target, key, ⟨⟨word, hne, hname, wordTarget?_eq_some_iff.1 htarget⟩, hkey.1 hfirst,
        hself⟩, ?_⟩
      exact (Option.some.inj h).symm
  · rintro ⟨target, key, ⟨⟨word, hne, hname, htarget⟩, hfirst, hself⟩, rfl⟩
    rw [inferred?, referenceWord?_eq_some_iff.2 ⟨hne, hname⟩]
    simp only [Option.bind_eq_bind, Option.bind_some, wordTarget?_eq_some_iff.2 htarget,
      hkey.2 hfirst, if_neg hself]
    rfl

/-! ### All fields in order -/

/-- The fields of the tables, each with its table. -/
def fieldsWithTable (tables : List Table) : List (Table × Field) :=
  tables.flatMap fun t => t.fields.map fun f => (t, f)

/-- The relationships that some fields show by their names, in the order of the fields: one for a
field that refers to a key, and none for any other. -/
inductive IsShown (tables : List Table) : List (Table × Field) → List Relationship → Prop
  | nil : IsShown tables [] []
  | refers {t : Table} {f : Field} {target : Table} {key : Field} {fields : List (Table × Field)}
    {rs : List Relationship} (h : RefersByName tables t f target key)
    (hrest : IsShown tables fields rs) :
    IsShown tables ((t, f) :: fields) (referenceByName t f target key :: rs)
  | silent {t : Table} {f : Field} {fields : List (Table × Field)} {rs : List Relationship}
    (h : ∀ target key, ¬RefersByName tables t f target key) (hrest : IsShown tables fields rs) :
    IsShown tables ((t, f) :: fields) rs

theorem isShown_filterMap (tables : List Table) (fields : List (Table × Field)) :
    IsShown tables fields (fields.filterMap fun tf => inferred? tables tf.1 tf.2) := by
  induction fields with
  | nil => exact .nil
  | cons tf fields ih =>
    obtain ⟨t, f⟩ := tf
    cases hr : inferred? tables t f with
    | some r =>
      obtain ⟨target, key, hrefers, rfl⟩ := inferred?_eq_some_iff.1 hr
      simp only [List.filterMap_cons, hr]
      exact .refers hrefers ih
    | none =>
      simp only [List.filterMap_cons, hr]
      refine .silent ?_ ih
      intro target key hrefers
      rw [inferred?_eq_some_iff.2 ⟨target, key, hrefers, rfl⟩] at hr
      cases hr

theorem inferRelationships_eq_filterMap (tables : List Table) :
    inferRelationships tables
      = (fieldsWithTable tables).filterMap fun tf => inferred? tables tf.1 tf.2 := by
  rw [inferRelationships, fieldsWithTable, List.filterMap_flatMap]
  simp only [List.filterMap_map]
  rfl

/-- A relationship that is inferred leads from a field of some table to a table. -/
theorem exists_of_mem_inferRelationships {tables : List Table} {r : Relationship}
    (h : r ∈ inferRelationships tables) :
    ∃ t ∈ tables, ∃ f ∈ t.fields, ∃ target ∈ tables, ∃ key ∈ target.fields,
      r = referenceByName t f target key := by
  obtain ⟨t, ht, hr⟩ := List.mem_flatMap.1 h
  obtain ⟨f, hf, hr⟩ := List.mem_filterMap.1 hr
  obtain ⟨target, key, hrefers, rfl⟩ := inferred?_eq_some_iff.1 hr
  obtain ⟨word, -, -, name, -, htarget⟩ := hrefers.exists_word
  exact ⟨t, ht, f, hf, target, htarget.mem, key, hrefers.isFirst_key.mem, rfl⟩

/-- An end at a table that exists is not reported. -/
theorem Security.danglingEnd_eq_none {tables : List Table} {t : Table} (ht : t ∈ tables)
    (r : Relationship) (side field : String) : danglingEnd tables r side t.name field = none := by
  have hknown : tables.any (fun u => u.name == t.name) = true :=
    List.any_eq_true.2 ⟨t, ht, beq_self_eq_true t.name⟩
  rw [danglingEnd, if_pos hknown]

/-- **The inferred relationships are those that the fields show by their names, in order**, and both
ends of each of them are at tables that exist, so that none is reported as dangling. -/
theorem inferRelationships_isShown (tables : List Table) :
    IsShown tables (fieldsWithTable tables) (inferRelationships tables) ∧
      ∀ r ∈ inferRelationships tables,
        (∃ t ∈ tables, t.name = r.source) ∧ (∃ t ∈ tables, t.name = r.target) ∧
          Security.danglingIssues tables r = [] := by
  refine ⟨?_, ?_⟩
  · rw [inferRelationships_eq_filterMap]
    exact isShown_filterMap tables (fieldsWithTable tables)
  · intro r hr
    obtain ⟨t, ht, f, -, target, htarget, key, -, rfl⟩ := exists_of_mem_inferRelationships hr
    refine ⟨⟨t, ht, rfl⟩, ⟨target, htarget, rfl⟩, ?_⟩
    have hsource := Security.danglingEnd_eq_none ht (referenceByName t f target key) "source" f.name
    have hend := Security.danglingEnd_eq_none htarget (referenceByName t f target key) "target"
      key.name
    show (Security.danglingEnd tables _ "source" t.name f.name).toList
      ++ (Security.danglingEnd tables _ "target" target.name key.name).toList = []
    rw [hsource, hend]
    rfl

/-- A table, and two tables whose names a word of one of its fields may stand for. -/
def postsTables : List Table :=
  [⟨"Categories", "Categories", [⟨"id", "integer", ⟨true, false, false, false, false⟩⟩]⟩,
   ⟨"Category", "Category", [⟨"code", "text", ⟨true, false, false, false, false⟩⟩]⟩,
   ⟨"posts", "posts", [⟨"Category_ID", "integer", .empty⟩]⟩]

/-- The name in the singular is the better one, though the other table stands first. -/
def postsReference : Relationship :=
  ⟨"implicit:posts.Category_ID->Category.code", "posts", "Category", "Category_ID", "code",
    ⟨.oneToMany, false, false⟩⟩

theorem inferRelationships_postsTables :
    inferRelationships postsTables = [postsReference] ∧
      Security.danglingIssues postsTables postsReference = [] := by
  have hposts : inferRelationships postsTables = [postsReference] := by decide
  have hmem : postsReference ∈ inferRelationships postsTables := by
    rw [hposts]
    exact List.mem_singleton_self postsReference
  exact ⟨hposts, ((inferRelationships_isShown postsTables).2 postsReference hmem).2.2⟩

/-! ### Tables in another order -/

/-- If no two tables have one name, a word stands for the same table in every order. -/
theorem wordTarget?_perm {tables arranged : List Table}
    (hnames : (tables.map Table.lowered).Nodup) (h : tables.Perm arranged) (word : List Char) :
    wordTarget? tables word = wordTarget? arranged word := by
  have hfind : ∀ name : List Char,
      (tables.find? fun t => Text.toLower t.name.toList == name)
        = arranged.find? fun t => Text.toLower t.name.toList == name := by
    intro name
    exact find?_perm h hnames name
  simp only [wordTarget?, hfind]

/-- **The order of the tables only orders what is inferred**, if no two tables have one name up to
the case of letters. -/
theorem inferRelationships_perm {tables arranged : List Table}
    (hnames : (tables.map Table.lowered).Nodup) (h : tables.Perm arranged) :
    (inferRelationships tables).Perm (inferRelationships arranged) := by
  have hfield : inferred? tables = inferred? arranged := by
    funext t f
    simp only [inferred?, wordTarget?_perm hnames h]
  rw [inferRelationships, inferRelationships, hfield]
  exact h.flatMap_right _

/-- A table between its own plural forms. -/
theorem inferRelationships_perm_postsTables :
    (postsTables.map Table.lowered).Nodup ∧ postsTables.Perm postsTables.reverse ∧
      (inferRelationships postsTables).Perm (inferRelationships postsTables.reverse) := by
  have hnames : (postsTables.map Table.lowered).Nodup := by decide
  have h := postsTables.reverse_perm.symm
  exact ⟨hnames, h, inferRelationships_perm hnames h⟩

end SchemaAudit
