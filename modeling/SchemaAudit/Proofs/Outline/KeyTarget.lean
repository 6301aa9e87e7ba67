import SchemaAudit.Proofs.Ddl.PrimaryKey

/-!
# Foreign keys without target columns

A foreign key that names no columns of its target points at the primary key of that table. The outline
finds this key among those that are declared beside the columns or added later. A key that is declared
as an option of its column it does not find, and writes `id` in its place.

* `keyTarget`: the column that the outline finds for such a foreign key.
* `keyTarget_eq_iff`: when this is the column that is marked as primary key.
* `referenceLines_head_iff`: when the line of the foreign key points there.
-/

namespace SchemaAudit.Outline

open Ddl

/-- The first column of the keys beside the columns, or else `id`. -/
def keyTarget (e : Entity) : String := e.primaryColumns.headD "id"

theorem entity?_of_mem {s : Schema} (hdistinct : (s.entities.map Entity.name).Nodup) {e : Entity}
    (he : e ∈ s.entities) : s.entity? e.name = some e :=
  find?_name hdistinct he

/-- Without columns of its own, a foreign key points at the target that is found for it. -/
theorem head?_targetColumns {s : Schema} {e : Entity} {r : ForeignKey}
    (he : s.entity? r.target = some e) (hempty : r.targetColumns = []) :
    (targetColumns s r).head? = some (keyTarget e) := by
  rw [targetColumns, he, hempty, List.isEmpty_nil, if_pos rfl, Option.map_some, keyTarget]
  cases e.primaryColumns <;> rfl

theorem head?_referenceLines {s : Schema} {r : ForeignKey} {column target : String}
    {more : List String} (hcolumns : r.columns = column :: more)
    (htarget : (targetColumns s r).head? = some target) :
    (referenceLines s r).head? = some (referenceLine s r column target) := by
  obtain ⟨others, htargets⟩ := List.head?_eq_some_iff.1 htarget
  rw [referenceLines, hcolumns, htargets]
  rfl

theorem referenceLine_inj {s : Schema} {r : ForeignKey} {column a b : String} :
    referenceLine s r column a = referenceLine s r column b ↔ a = b := by
  simp [referenceLine, quote, ← String.toList_inj]

/-- The one column that is marked is the only one that a key can name. -/
theorem keyTarget_eq_iff {e : Entity} (h : e.IsKeyed) {k : Column}
    (hk : e.columns.filter (fun c => c.has .primaryKey) = [k]) :
    keyTarget e = k.name ↔
      (∃ name ∈ e.primaryColumns.head?, name ∈ e.columns.map Column.name)
        ∨ (e.primaryColumns = [] ∧ k.name = "id") := by
  have hmem : k ∈ e.columns := (List.mem_filter.1 (hk ▸ List.mem_singleton_self k)).1
  have honly : ∀ c ∈ e.columns, c.name ∈ e.primaryColumns → c = k := by
    intro c hc hname
    have hmarked : c ∈ e.columns.filter (fun c => c.has .primaryKey) :=
      List.mem_filter.2 ⟨hc, h.marked c hc hname⟩
    rwa [hk, List.mem_singleton] at hmarked
  rw [keyTarget]
  cases hkey : e.primaryColumns with
  | nil => simp [eq_comm]
  | cons name names =>
    have hnamed : name ∈ e.columns.map Column.name ↔ name = k.name := by
      constructor
      · rintro hname
        obtain ⟨c, hc, rfl⟩ := List.mem_map.1 hname
        rw [honly c hc (hkey ▸ List.mem_cons_self)]
      · rintro rfl
        exact List.mem_map_of_mem hmem
    simpa using hnamed.symm

/-- **A foreign key that names no columns of its target points at the column that is marked as primary
key exactly if a key beside the columns, or one that was added later, begins with a column of the
table**, or if there is no such key and the marked column is called `id`. -/
theorem referenceLines_head_iff {dialect : Dialect} {script : String} {s : Schema}
    (h : Schema.read dialect script = .ok s) {r : ForeignKey} (hempty : r.targetColumns = [])
    {column : String} {more : List String} (hcolumns : r.columns = column :: more) {e : Entity}
    (he : e ∈ s.entities) (hname : e.name = r.target) {k : Column}
    (hk : e.columns.filter (fun c => c.has .primaryKey) = [k]) :
    (referenceLines s r).head? = some (referenceLine s r column k.name) ↔
      (∃ name ∈ e.primaryColumns.head?, name ∈ e.columns.map Column.name)
        ∨ (e.primaryColumns = [] ∧ k.name = "id") := by
  have hentity := entity?_of_mem (isSound_read h).distinct he
  rw [hname] at hentity
  rw [head?_referenceLines hcolumns (head?_targetColumns hentity hempty), Option.some.injEq,
    referenceLine_inj, keyTarget_eq_iff (schema_isKeyed_of_read h e he) hk]

/-- Two tables with a key of one column each, beside the columns and as an option, and a table that
refers to both of them. -/
def visitsScript : String :=
  "CREATE TABLE owners (code int, PRIMARY KEY (code)); CREATE TABLE pets (tag int PRIMARY KEY); "
    ++ "CREATE TABLE visits (owner int REFERENCES owners, pet int REFERENCES pets);"

def owners : Entity := ⟨"owners", [⟨"code", "integer", [.primaryKey]⟩], [.primary ["code"]]⟩

def pets : Entity := ⟨"pets", [⟨"tag", "integer", [.primaryKey]⟩], []⟩

def visitsSchema : Schema :=
  ⟨[owners, pets, ⟨"visits", [⟨"owner", "integer", []⟩, ⟨"pet", "integer", []⟩], []⟩],
    [⟨"visits", ["owner"], "owners", []⟩, ⟨"visits", ["pet"], "pets", []⟩]⟩

theorem read_visitsScript : Schema.read .postgres visitsScript = .ok visitsSchema :=
  eq_ok_of_toOption (by decide +kernel)

/-- The key that stands beside its column is found. -/
theorem referenceLines_head_owners :
    Schema.read .postgres visitsScript = .ok visitsSchema ∧
      (referenceLines visitsSchema ⟨"visits", ["owner"], "owners", []⟩).head?
        = some "Ref: \"visits\".\"owner\" > \"owners\".\"code\"" := by
  have hline := (referenceLines_head_iff read_visitsScript
    (r := ⟨"visits", ["owner"], "owners", []⟩) rfl rfl (e := owners) (by decide) rfl rfl).2
    (Or.inl ⟨"code", rfl, by decide⟩)
  exact ⟨read_visitsScript, hline⟩

/-- The key that is an option of its column is not. -/
theorem referenceLines_head_pets_ne :
    ¬∀ (dialect : Dialect) (script : String) (s : Schema), Schema.read dialect script = .ok s →
      ∀ r ∈ s.foreignKeys, r.targetColumns = [] → ∀ column more, r.columns = column :: more →
        ∀ e ∈ s.entities, e.name = r.target →
          ∀ k, e.columns.filter (fun c => c.has .primaryKey) = [k] →
            (referenceLines s r).head? = some (referenceLine s r column k.name) := by
  intro hall
  have hline := hall .postgres visitsScript visitsSchema read_visitsScript
    ⟨"visits", ["pet"], "pets", []⟩ (by decide) rfl "pet" [] rfl pets (by decide) rfl _ rfl
  exact absurd hline (by decide)

end SchemaAudit.Outline
