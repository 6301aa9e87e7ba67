import SchemaAudit.Proofs.Ddl.Declared

/-!
# What holds of every schema that is read

Whatever script is read, its schema is sound: no two entities have one name, and no type has a
blank in it. Names may hold any character.

* `Element.IsUnspaced`, `Entity.IsUnspaced`: what a table declares has no type with a blank.
* `Change.IsUnspaced`, `isSound_apply`: a change keeps a sound schema sound.
* `isSound_read`: every change that is read is such a change.
-/

namespace SchemaAudit.Ddl

/-- No column has a type with a blank. -/
def Entity.IsUnspaced (e : Entity) : Prop := ∀ c ∈ e.columns, TypeName.Unspaced c.type.toList

def Element.IsUnspaced (el : Element) : Prop :=
  ∀ c ∈ el.column?, TypeName.Unspaced c.type.toList

def Change.IsUnspaced : Change → Prop
  | declare e _ => e.IsUnspaced
  | refer _ => True
  | addKey _ _ => True

/-- No two entities have one name, and no type has a blank. -/
structure Schema.IsSound (s : Schema) : Prop where
  distinct : (s.entities.map Entity.name).Nodup
  unspaced : ∀ e ∈ s.entities, e.IsUnspaced

/-! ### What is read of a table -/

theorem unspaced_column {dialect : Dialect} {table name : String} {s rest : Input}
    {c : Column × List ForeignKey} (h : column dialect table name s = .ok (c, rest)) :
    TypeName.Unspaced c.1.type.toList := by
  unfold column at h
  split at h
  · cases h
  · cases h
  · obtain ⟨⟨options, left⟩, -, he⟩ := eq_ok_of_map_eq_ok h
    obtain ⟨rfl, -⟩ := Prod.mk.injEq .. ▸ he
    exact TypeName.unspaced_canonical dialect _

theorem unspaced_element {dialect : Dialect} {table : String} {el : Element}
    (h : el.IsRead dialect table) : el.IsUnspaced := by
  intro c hc
  obtain ⟨_, _, _, _, hcolumn⟩ := h.exists_column hc
  exact unspaced_column hcolumn

/-! ### What a change keeps -/

/-- Marking columns as primary key changes no type. -/
theorem unspaced_markPrimary {e : Entity} (he : e.IsUnspaced) (columns : List String) :
    (e.markPrimary columns).IsUnspaced := by
  intro c hc
  obtain ⟨c, hmem, rfl⟩ := List.mem_map.1 hc
  have hc := he c hmem
  split
  · rw [Column.withPrimaryKey]
    split <;> exact hc
  · exact hc

theorem unspaced_ofElements (name : String) {es : List Element}
    (hes : ∀ el ∈ es, el.IsUnspaced) : (Entity.ofElements name es).IsUnspaced := by
  refine unspaced_markPrimary ?_ _
  intro c hc
  obtain ⟨el, hel, hcolumn⟩ := List.mem_filterMap.1 hc
  exact hes el hel c hcolumn

theorem isSound_declare {s : Schema} (hs : s.IsSound) {e : Entity} (he : e.IsUnspaced)
    (references : List ForeignKey) : (s.declare e references).IsSound := by
  by_cases hold : s.entities.any (fun old => old.name == e.name) = true
  · have hnames : (updateFirst (fun old => old.name == e.name) (fun _ => e) s.entities).map
        Entity.name = s.entities.map Entity.name :=
      map_updateFirst Entity.name _ _ (fun old hname => (eq_of_beq hname).symm) s.entities
    refine ⟨?_, ?_⟩
    · rw [Schema.declare, if_pos hold, hnames]
      exact hs.distinct
    · rw [Schema.declare, if_pos hold]
      exact forall_mem_updateFirst hs.unspaced fun _ _ => he
  · have hnew : e.name ∉ s.entities.map Entity.name := by
      intro hmem
      obtain ⟨old, hmem, hname⟩ := List.mem_map.1 hmem
      exact hold (List.any_eq_true.2 ⟨old, hmem, beq_iff_eq.2 hname⟩)
    rw [declare_of_new references hnew]
    refine ⟨?_, ?_⟩
    · rw [List.map_append]
      refine List.nodup_append.2 ⟨hs.distinct, by simp, ?_⟩
      intro name hname name' hname' heq
      rw [List.mem_singleton.1 hname'] at heq
      exact hnew (heq ▸ hname)
    · intro old hold
      rcases List.mem_append.1 hold with hold | hold
      · exact hs.unspaced old hold
      · rw [List.mem_singleton.1 hold]
        exact he

theorem isSound_apply {s : Schema} (hs : s.IsSound) {change : Change} (h : change.IsUnspaced) :
    (s.apply change).IsSound := by
  cases change with
  | declare e references => exact isSound_declare hs h references
  | refer r => exact ⟨hs.distinct, hs.unspaced⟩
  | addKey table k =>
    refine ⟨?_, ?_⟩
    · have hnames := map_updateFirst Entity.name (fun e => e.name == table)
        (fun e => { e.markPrimary k.primaryColumns with keys := e.keys ++ [k] })
        (fun _ _ => rfl) s.entities
      show ((updateFirst _ _ s.entities).map Entity.name).Nodup
      rw [hnames]
      exact hs.distinct
    · refine forall_mem_updateFirst hs.unspaced fun e he => ?_
      exact unspaced_markPrimary (hs.unspaced e he) k.primaryColumns

/-! ### Scripts -/

theorem Change.IsRead.isUnspaced {dialect : Dialect} {change : Change}
    (h : change.IsRead dialect) : change.IsUnspaced := by
  cases change with
  | declare e references =>
    obtain ⟨es, he, -, hes⟩ := h
    show e.IsUnspaced
    rw [he]
    exact unspaced_ofElements e.name fun el hel => unspaced_element (hes el hel)
  | refer r => trivial
  | addKey table k => trivial

/-- **Every schema that is read is sound.** -/
theorem isSound_read {dialect : Dialect} {script : String} {s : Schema}
    (h : Schema.read dialect script = .ok s) : s.IsSound := by
  have hempty : Schema.empty.IsSound := ⟨by simp [Schema.empty], by simp [Schema.empty]⟩
  refine statements_keep (I := Schema.IsSound) ?_ hempty h
  intro start change hstart hchange
  exact isSound_apply hstart hchange.isUnspaced

end SchemaAudit.Ddl
