import SchemaAudit.Audit.Normalization
import SchemaAudit.FirstMatch
import SchemaAudit.Proofs.Text.LetterCase
import SchemaAudit.Proofs.Text.Search

/-!
# Fields that describe the same thing

A field is reported together with the first field behind it that shares a significant token with it.
A token is significant if it is long enough, and its length is counted in bytes.

* `mem_partners_iff`, `map_fst_partners_sublist`: which pairs of fields belong together. Every field
  is the first of at most one pair for each time it stands in the list, and the order is kept.
* `fields_transitiveIssues`: the issues are about these pairs, for tokens of three bytes.
* `fields_transitiveIssues_eq_iff`: when they are about the pairs for tokens of three characters. For
  ASCII names they are.
-/

namespace SchemaAudit.Normalization

/-! ### Pairs of fields -/

/-- Each field with the first field behind it that it is related to. -/
def partners (related : Field → Field → Bool) : List Field → List (Field × Field)
  | [] => []
  | f :: others =>
    ((others.find? (related f)).map fun g => (f, g)).toList ++ partners related others

/-- The names of two fields. -/
def pairNames (pair : Field × Field) : List String := [pair.1.name, pair.2.name]

variable {related finer coarser : Field → Field → Bool}

/-- **A pair is a field at some place and the first field behind this place that it is related to.** -/
theorem mem_partners_iff {fields : List Field} {f g : Field} :
    (f, g) ∈ partners related fields
      ↔ ∃ before behind, fields = before ++ f :: behind ∧
        IsFirst (fun other => related f other = true) behind g := by
  induction fields with
  | nil => simp [partners]
  | cons first others ih =>
    rw [partners, List.mem_append, ih]
    constructor
    · rintro (hfirst | ⟨before, behind, rfl, hg⟩)
      · obtain ⟨other, hother, hpair⟩ : ∃ other, others.find? (related first) = some other ∧
            (first, other) = (f, g) := by simpa using hfirst
        obtain ⟨rfl, rfl⟩ := Prod.mk.inj hpair
        exact ⟨[], others, rfl, find?_eq_some_iff_isFirst.1 hother⟩
      · exact ⟨first :: before, behind, rfl, hg⟩
    · rintro ⟨before, behind, hfields, hg⟩
      cases before with
      | nil =>
        obtain ⟨rfl, rfl⟩ := List.cons.inj hfields
        rw [find?_eq_some_iff_isFirst.2 hg]
        exact .inl List.mem_cons_self
      | cons _ before => exact .inr ⟨before, behind, (List.cons.inj hfields).2, hg⟩

/-- Each field leads at most one pair for each time that it occurs, and pairs stand in the order of
the fields. -/
theorem map_fst_partners_sublist (related : Field → Field → Bool) (fields : List Field) :
    ((partners related fields).map Prod.fst).Sublist fields := by
  induction fields with
  | nil => exact List.nil_sublist _
  | cons f others ih =>
    rw [partners]
    cases others.find? (related f) with
    | none => exact ih.cons f
    | some g => exact ih.cons_cons f

theorem partners_cons_of_none {f : Field} {others : List Field}
    (h : others.find? (related f) = none) :
    partners related (f :: others) = partners related others := by
  rw [partners, h]
  rfl

theorem partners_cons_of_some {f g : Field} {others : List Field}
    (h : others.find? (related f) = some g) :
    partners related (f :: others) = (f, g) :: partners related others := by
  rw [partners, h]
  rfl

/-! ### Finer and coarser relations -/

theorem find?_eq_none_of_coarser (h : ∀ f g, finer f g = true → coarser f g = true) {f : Field}
    {others : List Field} (hnone : others.find? (coarser f) = none) :
    others.find? (finer f) = none := by
  rw [List.find?_eq_none] at hnone ⊢
  intro g hg hrelated
  exact hnone g hg (h f g hrelated)

/-- The first field that is coarsely related is the first one that is finely related, if it is. -/
theorem find?_eq_some_of_coarser (h : ∀ f g, finer f g = true → coarser f g = true) {f g : Field}
    {others : List Field} (hsome : others.find? (coarser f) = some g) (hg : finer f g = true) :
    others.find? (finer f) = some g := by
  obtain ⟨before, after, hothers, -, hbefore⟩ := find?_eq_some_iff_isFirst.1 hsome
  apply find?_eq_some_iff_isFirst.2
  exact ⟨before, after, hothers, hg, fun b hb hrelated => hbefore b hb (h f b hrelated)⟩

/-- What relates more fields leads to more pairs. -/
theorem length_partners_le (h : ∀ f g, finer f g = true → coarser f g = true)
    (fields : List Field) :
    (partners finer fields).length ≤ (partners coarser fields).length := by
  induction fields with
  | nil => exact Nat.le_refl 0
  | cons f others ih =>
    cases hcoarser : others.find? (coarser f) with
    | none =>
      rw [partners_cons_of_none hcoarser,
        partners_cons_of_none (find?_eq_none_of_coarser h hcoarser)]
      exact ih
    | some g =>
      rw [partners_cons_of_some hcoarser, List.length_cons]
      cases hfiner : others.find? (finer f) with
      | none =>
        rw [partners_cons_of_none hfiner]
        omega
      | some g' =>
        rw [partners_cons_of_some hfiner, List.length_cons]
        omega

/-- **A coarser relation leads to pairs of the same names exactly if all its pairs are finely
related.** -/
theorem map_partners_eq_iff (h : ∀ f g, finer f g = true → coarser f g = true)
    (hname : ∀ f g g' : Field, g.name = g'.name → finer f g = finer f g') (fields : List Field) :
    (partners coarser fields).map pairNames = (partners finer fields).map pairNames
      ↔ ∀ f g, (f, g) ∈ partners coarser fields → finer f g = true := by
  induction fields with
  | nil => simp [partners]
  | cons first others ih =>
    cases hcoarser : others.find? (coarser first) with
    | none =>
      rw [partners_cons_of_none hcoarser,
        partners_cons_of_none (find?_eq_none_of_coarser h hcoarser)]
      exact ih
    | some g =>
      rw [partners_cons_of_some hcoarser, List.map_cons]
      constructor
      · intro heq
        cases hfiner : others.find? (finer first) with
        | none =>
          -- the finer relation cannot make up for this pair
          rw [partners_cons_of_none hfiner] at heq
          have hlength := congrArg List.length heq
          have hle := length_partners_le h others
          simp only [List.length_cons, List.length_map] at hlength
          omega
        | some g' =>
          rw [partners_cons_of_some hfiner, List.map_cons, List.cons.injEq] at heq
          obtain ⟨hnames, hrest⟩ := heq
          have hsame : g.name = g'.name := by simpa [pairNames] using hnames
          have hg : finer first g = true := (hname first g g' hsame).trans (List.find?_some hfiner)
          intro a b hab
          rcases List.mem_cons.1 hab with hpair | hab
          · obtain ⟨rfl, rfl⟩ := Prod.mk.inj hpair
            exact hg
          · exact ih.1 hrest a b hab
      · intro hall
        have hg := hall first g List.mem_cons_self
        have hrest := ih.2 fun a b hab => hall a b (List.mem_cons_of_mem _ hab)
        rw [partners_cons_of_some (find?_eq_some_of_coarser h hcoarser hg), List.map_cons, hrest]

/-! ### Shared tokens -/

/-- Two fields share a token of those that are picked out of their names. -/
def sharesToken (tokensOf : String → List (List Char)) (f g : Field) : Bool :=
  (tokensOf f.name).any fun token => (tokensOf g.name).contains token

/-- The tokens of a name that say what it is about, if their characters are counted: at least three
characters long, and neither `id` nor `name`. -/
def wordTokens (name : String) : List (List Char) :=
  (nameTokens name).filter fun token =>
    3 ≤ token.length && token != "id".toList && token != "name".toList

theorem sharesToken_iff {tokensOf : String → List (List Char)} {f g : Field} :
    sharesToken tokensOf f g = true ↔ ∃ token ∈ tokensOf f.name, token ∈ tokensOf g.name := by
  simp [sharesToken]

/-- Only names matter. -/
theorem sharesToken_congr {tokensOf : String → List (List Char)} (f g g' : Field)
    (h : g.name = g'.name) : sharesToken tokensOf f g = sharesToken tokensOf f g' := by
  rw [sharesToken, sharesToken, h]

theorem length_le_byteSize (s : List Char) : s.length ≤ Text.byteSize s := by
  induction s with
  | nil => exact Nat.le_refl 0
  | cons c s ih =>
    have hc : 0 < c.utf8Size := c.utf8Size_pos
    rw [List.length_cons, Text.byteSize]
    omega

/-- A token of three characters has three bytes. -/
theorem mem_significantTokens_of_mem_wordTokens {name : String} {token : List Char}
    (h : token ∈ wordTokens name) : token ∈ significantTokens name := by
  simp only [wordTokens, significantTokens, List.mem_filter, Bool.and_eq_true,
    decide_eq_true_eq] at h ⊢
  obtain ⟨hname, ⟨hlong, hid⟩, hplain⟩ := h
  exact ⟨hname, ⟨Nat.le_trans hlong (length_le_byteSize token), hid⟩, hplain⟩

theorem sharesToken_significantTokens (f g : Field) (h : sharesToken wordTokens f g = true) :
    sharesToken significantTokens f g = true := by
  rw [sharesToken_iff] at h ⊢
  obtain ⟨token, hf, hg⟩ := h
  exact ⟨token, mem_significantTokens_of_mem_wordTokens hf,
    mem_significantTokens_of_mem_wordTokens hg⟩

/-! ### Issues -/

/-- The fields of a table that are part of no key. -/
def plainFields (t : Table) : List Field := t.fields.filter fun f => !f.isKey

theorem isSome_sharedToken? (f g : Field) :
    (sharedToken? f.name g.name).isSome = sharesToken significantTokens f g := by
  rw [Bool.eq_iff_iff, sharedToken?, List.find?_isSome, sharesToken, List.any_eq_true]

theorem partner?_eq_find? (f : Field) (others : List Field) :
    (partner? f others).map Prod.fst = others.find? (sharesToken significantTokens f) := by
  unfold partner?
  induction others with
  | nil => rfl
  | cons other others ih =>
    have hshared := isSome_sharedToken? f other
    rw [List.findSome?_cons, List.find?_cons]
    cases htoken : sharedToken? f.name other.name with
    | none =>
      rw [htoken] at hshared
      rw [← hshared]
      exact ih
    | some token =>
      rw [htoken] at hshared
      rw [← hshared]
      rfl

theorem fields_transitiveIssuesOf (t : Table) (fields : List Field) :
    (transitiveIssuesOf t fields).map NormalizationIssue.fields
      = (partners (sharesToken significantTokens) fields).map pairNames := by
  induction fields with
  | nil => rfl
  | cons f others ih =>
    rw [transitiveIssuesOf, partners, ← partner?_eq_find?, List.map_append, List.map_append, ih]
    cases partner? f others <;> rfl

/-- **The issues of a table are about its pairs of fields that share a token of three bytes.** -/
theorem fields_transitiveIssues (t : Table) :
    (transitiveIssues t).map NormalizationIssue.fields
      = (partners (sharesToken significantTokens) (plainFields t)).map pairNames :=
  fields_transitiveIssuesOf t (plainFields t)

/-! ### ASCII names -/

theorem byteSize_of_ascii {s : List Char} (h : ∀ c ∈ s, c.toNat < 128) :
    Text.byteSize s = s.length := by
  induction s with
  | nil => rfl
  | cons c s ih =>
    obtain ⟨hc, hs⟩ := List.forall_mem_cons.1 h
    have hone : c.utf8Size = 1 := by
      rw [Char.utf8Size_eq_one_iff]
      exact UInt32.le_iff_toNat_le.2 (Nat.le_of_lt_succ hc)
    rw [Text.byteSize, hone, ih hs, List.length_cons, Nat.add_comm]

theorem ascii_of_mem_nameTokens {name : String} (h : ∀ c ∈ name.toList, c.toNat < 128)
    {token : List Char} (htoken : token ∈ nameTokens name) : ∀ c ∈ token, c.toNat < 128 := by
  intro c hc
  have hpart := (List.mem_filter.1 htoken).1
  rw [Text.toLower_of_ascii h] at hpart
  have hlower : c ∈ name.toList.map Text.asciiLower := Text.mem_of_mem_splitOnP hpart hc
  obtain ⟨d, hd, rfl⟩ := List.mem_map.1 hlower
  have hascii := h d hd
  rw [Text.toNat_asciiLower]
  split <;> omega

theorem wordTokens_of_ascii {name : String} (h : ∀ c ∈ name.toList, c.toNat < 128) :
    wordTokens name = significantTokens name := by
  unfold wordTokens significantTokens
  refine List.filter_congr fun token htoken => ?_
  rw [byteSize_of_ascii (ascii_of_mem_nameTokens h htoken)]

/-- **For ASCII names it is the same how tokens are measured.** -/
theorem fields_transitiveIssues_of_ascii {t : Table}
    (h : ∀ f ∈ plainFields t, ∀ c ∈ f.name.toList, c.toNat < 128) :
    (transitiveIssues t).map NormalizationIssue.fields
      = (partners (sharesToken wordTokens) (plainFields t)).map pairNames := by
  rw [fields_transitiveIssues, map_partners_eq_iff sharesToken_significantTokens sharesToken_congr]
  intro f g hpair
  obtain ⟨before, behind, hfields, hg⟩ := mem_partners_iff.1 hpair
  have hf : f ∈ plainFields t := by
    rw [hfields]
    exact List.mem_append_right before List.mem_cons_self
  have hmem : g ∈ plainFields t := by
    rw [hfields]
    exact List.mem_append_right before (List.mem_cons_of_mem f hg.mem)
  obtain ⟨_, _, _, hrelated, _⟩ := hg
  rwa [sharesToken, wordTokens_of_ascii (h f hf), wordTokens_of_ascii (h g hmem)]

/-! ### Characters and bytes -/

/-- **The issues of a table are about its pairs of fields that share a token of three characters
exactly if no field has a partner by bytes alone**: with the first later field that it shares a token
of three bytes with, it shares one of three characters. -/
theorem fields_transitiveIssues_eq_iff (t : Table) :
    (transitiveIssues t).map NormalizationIssue.fields
        = (partners (sharesToken wordTokens) (plainFields t)).map pairNames
      ↔ ∀ before f behind g, plainFields t = before ++ f :: behind →
        IsFirst (fun other => sharesToken significantTokens f other = true) behind g →
        sharesToken wordTokens f g = true := by
  rw [fields_transitiveIssues, map_partners_eq_iff sharesToken_significantTokens sharesToken_congr]
  constructor
  · intro h before f behind g hfields hg
    exact h f g (mem_partners_iff.2 ⟨before, behind, hfields, hg⟩)
  · intro h f g hpair
    obtain ⟨before, behind, hfields, hg⟩ := mem_partners_iff.1 hpair
    exact h before f behind g hfields hg

/-- Two letters can be three bytes long. -/
theorem fields_transitiveIssues_birth :
    let t : Table := ⟨"t", "t", [⟨"né_le", "date", .empty⟩, ⟨"né_en", "date", .empty⟩]⟩
    (transitiveIssues t).map NormalizationIssue.fields = [["né_le", "né_en"]] ∧
      (partners (sharesToken wordTokens) (plainFields t)).map pairNames = [] := by
  decide

end SchemaAudit.Normalization
