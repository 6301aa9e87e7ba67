import SchemaAudit.Outline
import SchemaAudit.Proofs.Ddl.Sound

/-!
# Primary keys of schemas that are read

A primary key is declared by an option of a column, by an element of its table, or by a statement
that adds it later. In every schema that is read, all columns that belong to a primary key are
marked so, wherever the key was declared, and the mark comes first among their modifiers.

* `Column.LeadsWithKey`, `Entity.IsKeyed`: what holds of columns and of entities.
* `isKeyed_markPrimary`: marking the columns of a further key keeps an entity keyed.
* `isKeyed_apply`: so does every change that is read.
* `isKeyed_read`: what follows for a script of any length.

A key may name a column that its table does not have; nothing is said of such names.
-/

namespace SchemaAudit.Ddl

/-- A primary key among the modifiers comes first, and once. -/
def Column.LeadsWithKey (c : Column) : Prop := Modifier.primaryKey ∉ c.modifiers.tail

/-- The columns of primary keys are marked, and their marks come first. -/
structure Entity.IsKeyed (e : Entity) : Prop where
  leads : ∀ c ∈ e.columns, c.LeadsWithKey
  marked : ∀ c ∈ e.columns, c.name ∈ e.primaryColumns → c.has .primaryKey = true

def Schema.IsKeyed (s : Schema) : Prop := ∀ e ∈ s.entities, e.IsKeyed

/-! ### Columns -/

namespace Column

theorem has_iff {c : Column} {m : Modifier} : c.has m = true ↔ m ∈ c.modifiers := by
  simp [has]

variable {c : Column}

theorem LeadsWithKey.count_le_one (h : c.LeadsWithKey) :
    c.modifiers.count .primaryKey ≤ 1 := by
  rw [LeadsWithKey] at h
  cases hm : c.modifiers with
  | nil => simp
  | cons m rest =>
    rw [hm, List.tail_cons] at h
    have hrest : rest.count .primaryKey = 0 := List.count_eq_zero.2 h
    rw [List.count_cons, hrest]
    split <;> omega

theorem LeadsWithKey.head?_eq (h : c.LeadsWithKey) (hmem : Modifier.primaryKey ∈ c.modifiers) :
    c.modifiers.head? = some .primaryKey := by
  rw [LeadsWithKey] at h
  cases hm : c.modifiers with
  | nil => simp [hm] at hmem
  | cons m rest =>
    rw [hm, List.tail_cons] at h
    rw [hm] at hmem
    rcases List.mem_cons.1 hmem with rfl | hrest
    · rfl
    · exact absurd hrest h

theorem name_withPrimaryKey (c : Column) : c.withPrimaryKey.name = c.name := by
  unfold withPrimaryKey
  split <;> rfl

theorem has_withPrimaryKey (c : Column) : c.withPrimaryKey.has .primaryKey = true := by
  unfold withPrimaryKey
  split
  · assumption
  · exact has_iff.2 List.mem_cons_self

/-- A mark is only set where there is none, so that it stays the only one. -/
theorem LeadsWithKey.withPrimaryKey (h : c.LeadsWithKey) : c.withPrimaryKey.LeadsWithKey := by
  unfold Column.withPrimaryKey
  split
  · exact h
  · rename_i hnone
    exact fun hmem => hnone (has_iff.2 hmem)

end Column

/-- No option gives the mark in its place. -/
theorem primaryKey_not_mem_filterMap (options : List ColumnOption) :
    Modifier.primaryKey ∉ options.filterMap ColumnOption.modifier? := by
  intro hmem
  obtain ⟨o, -, ho⟩ := List.mem_filterMap.1 hmem
  cases o <;> simp [ColumnOption.modifier?] at ho

theorem primaryKey_not_mem_tail (options : List ColumnOption) :
    Modifier.primaryKey ∉ (modifiersOf options).tail := by
  have hothers := primaryKey_not_mem_filterMap options
  rw [modifiersOf]
  split
  · exact hothers
  · exact fun hmem => hothers (List.mem_of_mem_tail hmem)

theorem leadsWithKey_column {dialect : Dialect} {table name : String} {s rest : Input}
    {c : Column} {references : List ForeignKey}
    (h : column dialect table name s = .ok ((c, references), rest)) : c.LeadsWithKey := by
  unfold column at h
  split at h
  · cases h
  · cases h
  · obtain ⟨⟨options, left⟩, -, he⟩ := eq_ok_of_map_eq_ok h
    obtain ⟨hc, -⟩ := Prod.mk.injEq .. ▸ he
    obtain ⟨rfl, -⟩ := Prod.mk.injEq .. ▸ hc
    exact primaryKey_not_mem_tail options

/-! ### Entities -/

/-- What marking the columns of a key makes of the columns of an entity. -/
theorem exists_of_mem_markPrimary {e : Entity} {key : List String} {c : Column}
    (h : c ∈ (e.markPrimary key).columns) :
    ∃ c₀ ∈ e.columns, c.name = c₀.name ∧ (c₀.LeadsWithKey → c.LeadsWithKey)
      ∧ (c₀.has .primaryKey = true → c.has .primaryKey = true)
      ∧ (c.name ∈ key → c.has .primaryKey = true) := by
  obtain ⟨c₀, hmem, rfl⟩ := List.mem_map.1 h
  refine ⟨c₀, hmem, ?_⟩
  split
  · exact ⟨c₀.name_withPrimaryKey, fun h => h.withPrimaryKey, fun _ => c₀.has_withPrimaryKey,
      fun _ => c₀.has_withPrimaryKey⟩
  · rename_i hout
    exact ⟨rfl, id, id, fun hin => absurd (List.contains_iff_mem.2 hin) hout⟩

theorem primaryColumns_append (e : Entity) (k : Key) :
    Entity.primaryColumns { e with keys := e.keys ++ [k] } = e.primaryColumns ++ k.primaryColumns := by
  simp [Entity.primaryColumns]

/-- **A key that is added to a keyed entity leaves it keyed**, because its columns are marked. -/
theorem isKeyed_markPrimary {e : Entity} (h : e.IsKeyed) (k : Key) :
    Entity.IsKeyed { e.markPrimary k.primaryColumns with keys := e.keys ++ [k] } := by
  refine ⟨?_, ?_⟩
  · intro c hc
    obtain ⟨c₀, hmem, -, hleads, -, -⟩ := exists_of_mem_markPrimary hc
    exact hleads (h.leads c₀ hmem)
  · intro c hc hkey
    obtain ⟨c₀, hmem, hname, -, hkept, hmarked⟩ := exists_of_mem_markPrimary hc
    have hcolumns : c.name ∈ e.primaryColumns ++ k.primaryColumns := by
      rw [← primaryColumns_append]
      exact hkey
    rcases List.mem_append.1 hcolumns with hold | hnew
    · exact hkept (h.marked c₀ hmem (hname ▸ hold))
    · exact hmarked hnew

theorem isKeyed_ofElements {dialect : Dialect} (name : String) {es : List Element}
    (h : ∀ el ∈ es, el.IsRead dialect name) : (Entity.ofElements name es).IsKeyed := by
  refine ⟨?_, ?_⟩
  · intro c hc
    obtain ⟨c₀, hmem, -, hleads, -, -⟩ := exists_of_mem_markPrimary hc
    obtain ⟨el, hel, hcolumn⟩ := List.mem_filterMap.1 hmem
    obtain ⟨_, _, _, _, hread⟩ := (h el hel).exists_column hcolumn
    exact hleads (leadsWithKey_column hread)
  · intro c hc hkey
    obtain ⟨-, -, -, -, -, hmarked⟩ := exists_of_mem_markPrimary hc
    exact hmarked hkey

/-! ### Schemas -/

/-- **Every change that is read keeps the entities keyed.** A declared entity replaces an earlier
one with its keys and its columns. -/
theorem isKeyed_apply {dialect : Dialect} {s : Schema} (hs : s.IsKeyed) {change : Change}
    (h : change.IsRead dialect) : (s.apply change).IsKeyed := by
  cases change with
  | declare e references =>
    obtain ⟨es, he, -, hes⟩ := h
    have hnew : e.IsKeyed := he ▸ isKeyed_ofElements e.name hes
    unfold Schema.IsKeyed
    rw [Schema.apply, Schema.declare]
    dsimp only
    split
    · exact forall_mem_updateFirst hs fun _ _ => hnew
    · exact List.forall_mem_append.2 ⟨hs, List.forall_mem_singleton.2 hnew⟩
  | refer r => exact hs
  | addKey table k => exact forall_mem_updateFirst hs fun e he => isKeyed_markPrimary (hs e he) k

/-- The tag of a composite key is written beside the one of a primary key. -/
theorem pk_mem_tagNames {e : Entity} (h : e.IsKeyed) (s : Schema) {c : Column} (hc : c ∈ e.columns)
    (hcomposite : "composite-pk" ∈ Outline.tagNames s e c) : "pk" ∈ Outline.tagNames s e c := by
  simp only [Outline.tagNames, List.mem_append, List.mem_ite_nil_right, List.mem_singleton,
    String.reduceEq, and_false, and_true, or_false, false_or, Bool.and_eq_true,
    List.contains_iff_mem] at hcomposite
  have hmarked : c.has .primaryKey = true := h.marked c hc hcomposite.2
  simp [Outline.tagNames, hmarked]

theorem schema_isKeyed_of_read {dialect : Dialect} {script : String} {s : Schema}
    (h : Schema.read dialect script = .ok s) : s.IsKeyed := by
  have hempty : Schema.empty.IsKeyed := by simp [Schema.IsKeyed, Schema.empty]
  exact statements_keep (I := Schema.IsKeyed) (fun _ _ hs hchange => isKeyed_apply hs hchange)
    hempty h

/-- **In every schema that is read, primary keys are marked on their columns**: no two entities have
one name; a mark comes first among the modifiers of its column, and once; all columns that a key
names are marked; and therefore no column is written as part of a composite key that is not written
as a primary key. -/
theorem isKeyed_read {dialect : Dialect} {script : String} {s : Schema}
    (h : Schema.read dialect script = .ok s) :
    (s.entities.map Entity.name).Nodup ∧ ∀ e ∈ s.entities, ∀ c ∈ e.columns,
      c.modifiers.count .primaryKey ≤ 1
      ∧ (.primaryKey ∈ c.modifiers → c.modifiers.head? = some .primaryKey)
      ∧ (∀ key, Key.primary key ∈ e.keys → c.name ∈ key → .primaryKey ∈ c.modifiers)
      ∧ ("composite-pk" ∈ Outline.tagNames s e c → "pk" ∈ Outline.tagNames s e c) := by
  have hkeyed := schema_isKeyed_of_read h
  refine ⟨(isSound_read h).distinct, ?_⟩
  intro e he c hc
  have hleads := (hkeyed e he).leads c hc
  refine ⟨hleads.count_le_one, hleads.head?_eq, ?_, pk_mem_tagNames (hkeyed e he) s hc⟩
  intro key hkey hname
  have hcolumns : c.name ∈ e.primaryColumns := List.mem_flatMap.2 ⟨_, hkey, hname⟩
  exact Column.has_iff.1 ((hkeyed e he).marked c hc hcolumns)

/-- A table that is declared twice, with a key in each place: as an option of a column and beside the
columns, and another one that is added behind. -/
def seatsScript : String :=
  "CREATE TABLE seat (row int); CREATE TABLE seat (row int NOT NULL, nr int UNIQUE PRIMARY KEY, "
    ++ "PRIMARY KEY (row)); ALTER TABLE seat ADD PRIMARY KEY (row, nr);"

def seatsSchema : Schema :=
  ⟨[⟨"seat",
      [⟨"row", "integer", [.primaryKey, .notNull]⟩, ⟨"nr", "integer", [.primaryKey, .unique]⟩],
      [.primary ["row"], .primary ["row", "nr"]]⟩], []⟩

theorem isKeyed_seatsSchema :
    Schema.read .postgres seatsScript = .ok seatsSchema ∧
      (seatsSchema.entities.map Entity.name).Nodup ∧
      ∀ e ∈ seatsSchema.entities, ∀ c ∈ e.columns,
        c.modifiers.count .primaryKey ≤ 1
        ∧ (.primaryKey ∈ c.modifiers → c.modifiers.head? = some .primaryKey)
        ∧ (∀ key, Key.primary key ∈ e.keys → c.name ∈ key → .primaryKey ∈ c.modifiers)
        ∧ ("composite-pk" ∈ Outline.tagNames seatsSchema e c
          → "pk" ∈ Outline.tagNames seatsSchema e c) := by
  have h : Schema.read .postgres seatsScript = .ok seatsSchema :=
    eq_ok_of_toOption (by decide +kernel)
  exact ⟨h, isKeyed_read h⟩

end SchemaAudit.Ddl
