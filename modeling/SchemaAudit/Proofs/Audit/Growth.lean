import Mathlib.Data.List.Forall2
import SchemaAudit.Proofs.Audit.Score

/-!
# Normalization issues of a schema that grows

Tables are added to a schema, and fields to its tables, anywhere between those that are there. A
field may find another partner then, or another component of the key may be named in its issue, but
no issue goes away.

* `Table.EmbedsIn`: a table with what it may have become.
* `partialKey?_mono`: a field that depends on part of a key does so on part of a larger one.
* `partner?_mono`: a field with a partner among some fields has one among more.
* `map_kind_issues_sublist`: the kinds of the issues are found again, in order, among those of the
  larger schema.
* `countKind_issues_mono`: so each kind is at least as frequent, and the score is not higher as long as
  the points that the issues cost have no more than 32 bits.
* `normalization_taggedPosts_not_le`: with more issues than that the score begins again.
-/

namespace SchemaAudit

open List (SublistForall₂)

/-- One table may have become the other: its name is the same, and fields have only been added. -/
structure Table.EmbedsIn (t u : Table) : Prop where
  name : t.name = u.name
  fields : t.fields.Sublist u.fields

instance : Std.Refl Table.EmbedsIn := ⟨fun t => ⟨rfl, .refl t.fields⟩⟩

/-- What is listed for some members is found again in what is listed for more of them, and for what
they have become. -/
theorem flatMap_sublist {α β γ : Type} {r : α → β → Prop} {as : List α} {bs : List β}
    (h : SublistForall₂ r as bs) {f : α → List γ} {g : β → List γ}
    (hfg : ∀ a b, r a b → (f a).Sublist (g b)) : (as.flatMap f).Sublist (bs.flatMap g) := by
  induction h with
  | nil => exact List.nil_sublist _
  | cons hab _ ih =>
    rw [List.flatMap_cons, List.flatMap_cons]
    exact (hfg _ _ hab).append ih
  | cons_right _ ih =>
    rw [List.flatMap_cons]
    exact ih.trans (List.sublist_append_right _ _)

/-- What is listed once where something is found is listed where more is found. -/
theorem map_toList_sublist {α β γ : Type} {o : Option α} {p : Option β}
    (h : o.isSome = true → p.isSome = true) (c : γ) :
    (o.toList.map fun _ => c).Sublist (p.toList.map fun _ => c) := by
  cases o with
  | none => exact List.nil_sublist _
  | some a =>
    obtain ⟨b, rfl⟩ := Option.isSome_iff_exists.1 (h rfl)
    exact List.Sublist.refl _

namespace Normalization

/-! ### Single fields -/

/-- What the rules find in a field does not depend on its table. -/
theorem map_kind_fieldIssues (t u : Table) (f : Field) :
    (fieldIssues t f).map NormalizationIssue.kind
      = (fieldIssues u f).map NormalizationIssue.kind := by
  rw [fieldIssues, fieldIssues, List.map_map, List.map_map]
  rfl

/-! ### Parts of keys -/

/-- A field depends on part of a key if one component begins with its first token, and another one
does not. -/
theorem isSome_partialKey?_iff (keys : List Field) (f : Field) :
    (partialKey? keys f).isSome = true
      ↔ ∃ token, leadingToken? f.name = some token ∧
          (∃ key ∈ keys, leadingToken? key.name = some token) ∧
          ∃ key ∈ keys, leadingToken? key.name ≠ some token := by
  constructor
  · intro h
    obtain ⟨first, hfirst⟩ := Option.isSome_iff_exists.1 h
    obtain ⟨token, htoken, hfirst⟩ := Option.bind_eq_some_iff.1 hfirst
    obtain ⟨key, hfind, hfirst⟩ := Option.bind_eq_some_iff.1 hfirst
    split at hfirst
    · rename_i hany
      obtain ⟨other, hother, hne⟩ := List.any_eq_true.1 hany
      have hsame : leadingToken? key.name = some token := by simpa using List.find?_some hfind
      exact ⟨token, htoken, ⟨key, List.mem_of_find?_eq_some hfind, hsame⟩, other, hother,
        by simpa using hne⟩
    · cases hfirst
  · rintro ⟨token, htoken, ⟨key, hkey, hsame⟩, other, hother, hne⟩
    have hfind : (keys.find? fun k => leadingToken? k.name == some token).isSome = true :=
      List.find?_isSome.2 ⟨key, hkey, by simpa using hsame⟩
    obtain ⟨first, hfirst⟩ := Option.isSome_iff_exists.1 hfind
    simpa [partialKey?, htoken, hfirst] using ⟨other, hother, hne⟩

theorem partialKey?_mono {keys more : List Field} (h : keys.Sublist more) {f : Field}
    (hf : (partialKey? keys f).isSome = true) : (partialKey? more f).isSome = true := by
  rw [isSome_partialKey?_iff] at hf ⊢
  obtain ⟨token, htoken, ⟨key, hkey, hsame⟩, other, hother, hne⟩ := hf
  exact ⟨token, htoken, ⟨key, h.subset hkey, hsame⟩, other, h.subset hother, hne⟩

theorem map_kind_partialIssue (t : Table) (keys fields : List Field) :
    (fields.filterMap fun f => (partialKey? keys f).map (partialIssue t f)).map
        NormalizationIssue.kind
      = fields.flatMap fun f => (partialKey? keys f).toList.map fun _ => .warning := by
  rw [List.filterMap_eq_flatMap_toList, List.map_flatMap]
  congr 1
  funext f
  cases partialKey? keys f <;> rfl

/-- A further component makes a key composite, or more fields depend on part of it. -/
theorem map_kind_partialIssues_sublist {t u : Table} (h : t.EmbedsIn u) :
    ((partialIssues t).map NormalizationIssue.kind).Sublist
      ((partialIssues u).map NormalizationIssue.kind) := by
  have hkeys := h.fields.filter fun f => f.has .primaryKey
  have hothers := h.fields.filter fun f => !f.isKey
  unfold partialIssues
  by_cases hsingle : (t.fields.filter fun f => f.has .primaryKey).length < 2
  · rw [if_pos hsingle]
    exact List.nil_sublist _
  · have hcomposite : ¬(u.fields.filter fun f => f.has .primaryKey).length < 2 := by
      have hlength := hkeys.length_le
      omega
    simp only [if_neg hsingle, if_neg hcomposite, map_kind_partialIssue]
    have hsame : SublistForall₂ Eq _ _ := hothers.sublistForall₂
    apply flatMap_sublist hsame
    rintro f _ rfl
    exact map_toList_sublist (partialKey?_mono hkeys) _

/-! ### Partners -/

theorem partner?_mono {others more : List Field} (h : others.Sublist more) (f : Field) :
    (partner? f others).isSome = true → (partner? f more).isSome = true := h.findSome?_isSome

theorem map_kind_transitiveIssuesOf (t : Table) (f : Field) (others : List Field) :
    (transitiveIssuesOf t (f :: others)).map NormalizationIssue.kind
      = (partner? f others).toList.map (fun _ => .suggestion)
        ++ (transitiveIssuesOf t others).map NormalizationIssue.kind := by
  rw [transitiveIssuesOf, List.map_append]
  cases partner? f others <;> rfl

/-- A field that comes first may have a partner of its own, and one that comes later may be one. -/
theorem map_kind_transitiveIssuesOf_sublist (t u : Table) {fields more : List Field}
    (h : fields.Sublist more) :
    ((transitiveIssuesOf t fields).map NormalizationIssue.kind).Sublist
      ((transitiveIssuesOf u more).map NormalizationIssue.kind) := by
  induction h with
  | slnil => exact List.Sublist.refl _
  | cons g _ ih =>
    rw [map_kind_transitiveIssuesOf]
    exact ih.trans (List.sublist_append_right _ _)
  | cons_cons f hrest ih =>
    rw [map_kind_transitiveIssuesOf, map_kind_transitiveIssuesOf]
    exact (map_toList_sublist (partner?_mono hrest f) _).append ih

/-! ### Tables and schemas -/

theorem map_kind_tableIssues_sublist {t u : Table} (h : t.EmbedsIn u) :
    ((tableIssues t).map NormalizationIssue.kind).Sublist
      ((tableIssues u).map NormalizationIssue.kind) := by
  have hfields : ((t.fields.flatMap (fieldIssues t)).map NormalizationIssue.kind).Sublist
      ((u.fields.flatMap (fieldIssues u)).map NormalizationIssue.kind) := by
    rw [List.map_flatMap, List.map_flatMap]
    have hsame : SublistForall₂ Eq t.fields u.fields := h.fields.sublistForall₂
    apply flatMap_sublist hsame
    rintro f _ rfl
    rw [map_kind_fieldIssues t u f]
  have htransitive := map_kind_transitiveIssuesOf_sublist t u (h.fields.filter fun f => !f.isKey)
  rw [tableIssues, tableIssues, List.map_append, List.map_append, List.map_append, List.map_append]
  exact (hfields.append (map_kind_partialIssues_sublist h)).append htransitive

/-- **The kinds of the issues of a schema are found again, in order, among those of a larger one.** -/
theorem map_kind_issues_sublist {tables more : List Table}
    (h : SublistForall₂ Table.EmbedsIn tables more) :
    ((issues tables).map NormalizationIssue.kind).Sublist
      ((issues more).map NormalizationIssue.kind) := by
  rw [issues, issues, List.map_flatMap, List.map_flatMap]
  exact flatMap_sublist h fun t u => map_kind_tableIssues_sublist

theorem countKind_mono {issues more : List NormalizationIssue}
    (h : (issues.map NormalizationIssue.kind).Sublist (more.map NormalizationIssue.kind))
    (k : NormalizationKind) : countKind k issues ≤ countKind k more := by
  have hcount := h.countP_le (p := fun kind => kind == k)
  rw [List.countP_map, List.countP_map] at hcount
  exact hcount

/-- **Of each kind a schema that grows has at least as many issues.** Its score is at most the same as
long as the points of these issues have no more than 32 bits, and in general exactly if the points
with which it is left in 32 bits are not fewer, up to a hundred. -/
theorem countKind_issues_mono {tables more : List Table}
    (h : SublistForall₂ Table.EmbedsIn tables more) :
    (∀ k, countKind k (issues tables) ≤ countKind k (issues more)) ∧
      (Score.points (issues more) < 2 ^ 32 →
        Score.normalization (issues more) ≤ Score.normalization (issues tables)) ∧
      (Score.normalization (issues more) ≤ Score.normalization (issues tables)
        ↔ min 100 (Score.points (issues tables) % 2 ^ 32)
          ≤ Score.points (issues more) % 2 ^ 32) := by
  have hcount := countKind_mono (map_kind_issues_sublist h)
  have hscore := Score.normalization_le_iff (issues more) (issues tables)
  refine ⟨hcount, fun hfits => hscore.2 ?_, hscore⟩
  have hpoints : Score.points (issues tables) ≤ Score.points (issues more) := by
    have hviolations := hcount .violation
    have hwarnings := hcount .warning
    have hsuggestions := hcount .suggestion
    unfold Score.points
    omega
  rw [Nat.mod_eq_of_lt hfits, Nat.mod_eq_of_lt (Nat.lt_of_le_of_lt hpoints hfits)]
  exact Nat.le_trans (Nat.min_le_right _ _) hpoints

/-- The lines of orders, with the name of the product beside its key. -/
def orderLines : List Table :=
  [⟨"order_lines", "order_lines",
    [⟨"order_id", "integer", ⟨true, true, true, false, false⟩⟩,
     ⟨"product_id", "integer", ⟨true, true, true, false, false⟩⟩,
     ⟨"product_name", "varchar(40)", .empty⟩]⟩]

/-- The same lines, numbered and with a maker of the product, behind the orders. -/
def numberedOrderLines : List Table :=
  [⟨"orders", "orders", [⟨"id", "integer", ⟨true, false, false, false, false⟩⟩]⟩,
   ⟨"order_lines", "order_lines",
    [⟨"product_line", "integer", ⟨true, true, false, false, false⟩⟩,
     ⟨"order_id", "integer", ⟨true, true, true, false, false⟩⟩,
     ⟨"product_id", "integer", ⟨true, true, true, false, false⟩⟩,
     ⟨"product_maker", "text", .empty⟩,
     ⟨"product_name", "varchar(40)", .empty⟩]⟩]

theorem countKind_issues_orderLines :
    SublistForall₂ Table.EmbedsIn orderLines numberedOrderLines ∧
      Score.points (issues numberedOrderLines) < 2 ^ 32 ∧
      (∀ k, countKind k (issues orderLines) ≤ countKind k (issues numberedOrderLines)) ∧
      Score.normalization (issues numberedOrderLines)
        ≤ Score.normalization (issues orderLines) := by
  have h : SublistForall₂ Table.EmbedsIn orderLines numberedOrderLines :=
    .cons_right (.cons ⟨rfl, by decide⟩ .nil)
  have hfits : Score.points (issues numberedOrderLines) < 2 ^ 32 := by decide
  obtain ⟨hcount, hscore, -⟩ := countKind_issues_mono h
  exact ⟨h, hfits, hcount, hscore hfits⟩

/-! ### More issues than 32 bits hold -/

/-- Posts with their tags in one column: the table has one violation and no other issue. -/
def taggedPosts : Table := ⟨"posts", "posts", [⟨"tags", "text", .empty⟩]⟩

theorem points_issues_replicate (n : Nat) (t : Table) :
    Score.points (issues (List.replicate n t)) = n * Score.points (tableIssues t) := by
  have hcount : ∀ k, countKind k (issues (List.replicate n t)) = n * countKind k (tableIssues t) := by
    intro k
    rw [issues, List.flatMap_replicate, countKind, List.countP_flatten, List.map_replicate,
      List.sum_replicate_nat]
    rfl
  simp only [Score.points, hcount, Nat.mul_add, Nat.mul_left_comm n]

/-- **One more table makes the score better where the points leave 32 bits**: they come to no more
than fourteen then. -/
theorem normalization_taggedPosts_not_le :
    let tables := List.replicate 286331153 taggedPosts
    let more := List.replicate 286331154 taggedPosts
    SublistForall₂ Table.EmbedsIn tables more ∧
      Score.normalization (issues tables) = 0 ∧ Score.normalization (issues more) = 86 ∧
      ¬Score.normalization (issues more) ≤ Score.normalization (issues tables) := by
  intro tables more
  have hone : Score.points (tableIssues taggedPosts) = 15 := by decide
  have hgrown : tables.Sublist more := List.replicate_sublist_replicate taggedPosts |>.2 (by decide)
  have htables : Score.normalization (issues tables) = 0 := by
    rw [Score.normalization_eq, points_issues_replicate, hone]
    decide
  have hmore : Score.normalization (issues more) = 86 := by
    rw [Score.normalization_eq, points_issues_replicate, hone]
    decide
  refine ⟨hgrown.sublistForall₂, htables, hmore, ?_⟩
  rw [htables, hmore]
  decide

end Normalization

end SchemaAudit
