import SchemaAudit.Proofs.Dialect.DelimitedName
import SchemaAudit.Proofs.Text.Collapse
import SchemaAudit.Proofs.Text.Search

/-!
# Tables in batches

Scripts in which each table stands on a line of its own, with its names in square brackets, and a
line that says `GO` stands behind each. The rules take the lines between the tables out and leave
nothing in their place.

* `Splits`, `SplitsAll`: rules that rewrite a line and what stands behind it apart from each other.
* `splitsAll_line`: the comments and the rules leave the line as a declaration in double quotes.
* `exists_portable_line`: the portable text of a script begins with its first table.
-/

namespace SchemaAudit.Dialect

open Pattern

/-! ### Tables on a line -/

/-- A table with integer columns. -/
structure BatchTable where
  name : String
  columns : List String
  deriving DecidableEq, Repr

namespace BatchTable

def columnText (opening closing : Char) (name : String) : List Char :=
  enclosed opening closing name.toList ++ " int".toList

/-- The declaration of the table, with its names between delimiters. -/
def line (opening closing : Char) (t : BatchTable) : List Char :=
  "CREATE TABLE ".toList ++ enclosed opening closing t.name.toList ++ " (".toList
    ++ Text.join ", ".toList (t.columns.map (columnText opening closing)) ++ ")".toList

/-- The table with other names. -/
def mapNames (f : String → String) (t : BatchTable) : BatchTable := ⟨f t.name, t.columns.map f⟩

/-- All names of the table are names of letters. -/
structure IsWritten (t : BatchTable) : Prop where
  name : IsName t.name.toList
  column : ∀ c ∈ t.columns, IsName c.toList

instance (t : BatchTable) : Decidable t.IsWritten :=
  decidable_of_iff (IsName t.name.toList ∧ t.columns.all (fun c => IsName c.toList) = true)
    ⟨fun h => ⟨h.1, fun c hc => of_decide_eq_true (List.all_eq_true.1 h.2 c hc)⟩,
      fun h => ⟨h.name, List.all_eq_true.2 fun c hc => decide_eq_true (h.column c hc)⟩⟩

end BatchTable

/-- A script that declares the tables, each in a batch of its own. -/
def batchScript (ts : List BatchTable) : String :=
  String.ofList (ts.flatMap fun t => t.line '[' ']' ++ "\nGO\n".toList)

example : batchScript [⟨"accounts", ["id"]⟩, ⟨"entries", ["amount"]⟩]
    = "CREATE TABLE [accounts] ([id] int)\nGO\nCREATE TABLE [entries] ([amount] int)\nGO\n" := by
  decide +kernel

/-! ### Lines -/

/-- What stands between the names of a line. -/
def lineParts : List (List Char) :=
  ["CREATE TABLE ".toList, " (".toList, " int".toList, ", ".toList, ")".toList]

/-- A rule that leaves alone what stands between the names does to a line what it does to them. -/
theorem rewrites_line {p : Pattern} (hparts : ∀ part ∈ ['\n'] :: lineParts, Rewrites p part part)
    {opening closing opening' closing' : Char} {f : String → String}
    (hname : ∀ name : String, IsName name.toList → Rewrites p (enclosed opening closing name.toList)
      (enclosed opening' closing' (f name).toList)) {t : BatchTable} (ht : t.IsWritten) :
    Rewrites p (t.line opening closing ++ ['\n'])
      ((t.mapNames f).line opening' closing' ++ ['\n']) := by
  rw [lineParts] at hparts
  have hcreate := hparts "CREATE TABLE ".toList (by simp)
  have hopen := hparts " (".toList (by simp)
  have hint := hparts " int".toList (by simp)
  have hcomma := hparts ", ".toList (by simp)
  have hclose := hparts ")".toList (by simp)
  have hbreak := hparts ['\n'] (by simp)
  have hcolumns : Rewrites p
      (Text.join ", ".toList (t.columns.map (BatchTable.columnText opening closing)))
      (Text.join ", ".toList
        (t.columns.map fun c => BatchTable.columnText opening' closing' (f c))) :=
    Rewrites.join hcomma fun c hc => (hname c (ht.column c hc)).append hint
  have hnames : (t.columns.map f).map (BatchTable.columnText opening' closing')
      = t.columns.map fun c => BatchTable.columnText opening' closing' (f c) := List.map_map
  have hhead := (hcreate.append (hname t.name ht.name)).append hopen
  have hall := ((hhead.append hcolumns).append hclose).append hbreak
  rw [← hnames] at hall
  unfold BatchTable.line BatchTable.mapNames
  exact hall

theorem mapNames_id (t : BatchTable) : t.mapNames id = t := by
  rw [BatchTable.mapNames, List.map_id]
  rfl

/-- The rule rewrites the line and what stands behind it apart from each other. -/
def Splits (p : Pattern) (line line' : List Char) : Prop :=
  ∀ rest, p.rewrite (line ++ '\n' :: rest) = line' ++ '\n' :: p.rewriteBehind (some '\n') rest

theorem splits_of_rewrites {p : Pattern} {line line' : List Char}
    (h : Rewrites p (line ++ ['\n']) (line' ++ ['\n'])) : Splits p line line' := by
  intro rest
  have hline := h none rest
  rw [behind_append, List.append_assoc, List.append_assoc] at hline
  exact hline

theorem splits_of_wordRule {word written : String} {more : List Pattern} {f : String → String}
    (hrule : wordRule word more written ∈ msSqlRules)
    (hparts : (['\n'] :: lineParts).all (misfitsThroughout word.toList) = true)
    (hname : ∀ name : String, IsName name.toList → Rewrites (wordRule word more written)
      (enclosed '\x22' '\x22' name.toList) (enclosed '\x22' '\x22' (f name).toList))
    {t : BatchTable} (ht : t.IsWritten) :
    Splits (wordRule word more written) (t.line '\x22' '\x22')
      ((t.mapNames f).line '\x22' '\x22') := by
  refine splits_of_rewrites (rewrites_line (fun part hpart => ?_) hname ht)
  exact .of_missesIn (isLocal_of_mem_msSqlRules hrule)
    (missesIn_wordRule_of_misfits (List.all_eq_true.1 hparts part hpart))

/-- What holds of the characters between names, of the delimiters and of letters holds of a line. -/
theorem forall_mem_line {P : Char → Prop} (hparts : ∀ part ∈ lineParts, ∀ c ∈ part, P c)
    {opening closing : Char} (hopening : P opening) (hclosing : P closing)
    (hletter : ∀ c : Char, Text.asciiLetters.covers c.toNat = true → P c) {t : BatchTable}
    (ht : t.IsWritten) : ∀ c ∈ t.line opening closing, P c := by
  have hname : ∀ s, IsName s → ∀ c ∈ enclosed opening closing s, P c := by
    intro s hs
    refine List.forall_mem_cons.2 ⟨hopening, List.forall_mem_append.2 ⟨?_, ?_⟩⟩
    · exact fun c hc => hletter c (hs.letters c hc)
    · exact List.forall_mem_singleton.2 hclosing
  rw [lineParts] at hparts
  have hcreate := hparts "CREATE TABLE ".toList (by simp)
  have hopen := hparts " (".toList (by simp)
  have hint := hparts " int".toList (by simp)
  have hcomma := hparts ", ".toList (by simp)
  have hclose := hparts ")".toList (by simp)
  have hcolumns : ∀ c ∈ Text.join ", ".toList
      (t.columns.map (BatchTable.columnText opening closing)), P c := by
    refine Text.forall_mem_intercalate hcomma fun part hpart => ?_
    obtain ⟨column, hcolumn, rfl⟩ := List.mem_map.1 hpart
    exact List.forall_mem_append.2 ⟨hname _ (ht.column column hcolumn), hint⟩
  unfold BatchTable.line
  simp only [List.forall_mem_append]
  exact ⟨⟨⟨⟨hcreate, hname _ ht.name⟩, hopen⟩, hcolumns⟩, hclose⟩

theorem not_mem_line {t : BatchTable} (ht : t.IsWritten) {c : Char}
    (hc : Text.asciiLetters.covers c.toNat = false) (hparts : lineParts.all (!·.contains c) = true)
    (hopen : c ≠ '[') (hclose : c ≠ ']') : c ∉ t.line '[' ']' := by
  intro hmem
  refine forall_mem_line (P := (c ≠ ·)) (fun part hpart d hd => ?_) hopen hclose ?_ ht c hmem rfl
  · rintro rfl
    have hnot := List.all_eq_true.1 hparts part hpart
    rw [List.contains_iff_mem.2 hd] at hnot
    exact absurd hnot (by decide)
  · rintro d hd rfl
    rw [hc] at hd
    exact absurd hd (by decide)

theorem isBare_line {t : BatchTable} (ht : t.IsWritten) : IsBare (t.line '[' ']') := by
  have hdash : '-' ∉ t.line '[' ']' :=
    not_mem_line ht (by decide) (by decide) (by decide) (by decide)
  have hslash : '/' ∉ t.line '[' ']' :=
    not_mem_line ht (by decide) (by decide) (by decide) (by decide)
  refine ⟨fun c hc hmark => ?_, fun h => hdash (h.subset List.mem_cons_self),
    fun h => hslash (h.subset List.mem_cons_self)⟩
  simp only [List.mem_cons, List.not_mem_nil, or_false] at hmark
  rcases hmark with rfl | rfl | rfl | rfl <;>
    exact not_mem_line ht (by decide) (by decide) (by decide) (by decide) hc

theorem exists_line_eq_cons (opening closing : Char) (t : BatchTable) :
    ∃ s, t.line opening closing = 'C' :: s := ⟨_, rfl⟩

theorem behind_line (before : Option Char) (opening closing : Char) (t : BatchTable) :
    behind before (t.line opening closing) = some ')' := by
  unfold BatchTable.line
  rw [behind_append]
  rfl

/-! ### The end of a batch -/

theorem misses_batchEnd_of_some {b : Char} (hb : b ≠ '\n') (s : List Char) :
    batchEnd.Misses ⟨some b, s⟩ := by
  refine List.eq_nil_iff_forall_not_mem.2 fun m hm => ?_
  obtain ⟨m₁, h₁, -⟩ := mem_after.1 hm
  have hstart : atLineStart ⟨some b, s⟩ = false := decide_eq_false hb
  rw [ways, hstart] at h₁
  exact List.not_mem_nil h₁

theorem missesIn_batchEnd {b : Char} (hb : b ≠ '\n') {s : List Char} (hs : '\n' ∉ s)
    (t : List Char) : batchEnd.MissesIn (some b) s t := by
  induction s generalizing b with
  | nil => trivial
  | cons c s ih =>
    have hc : c ≠ '\n' := fun h => hs (h ▸ List.mem_cons_self)
    exact ⟨misses_batchEnd_of_some hb _, ih hc fun h => hs (List.mem_cons_of_mem c h)⟩

/-- A line that does not begin with blanks or with a `G` is not the end of a batch. -/
theorem misses_batchEnd_of_ne {before : Option Char} {c : Char} (hblank : Text.isBlank c = false)
    (hletter : sameLetter 'G' c = false) (s : List Char) : batchEnd.Misses ⟨before, c :: s⟩ := by
  refine List.eq_nil_iff_forall_not_mem.2 fun m hm => ?_
  obtain ⟨m₁, h₁, m₂, h₂, -⟩ := mem_after.1 hm
  obtain ⟨m₃, h₃, m₄, h₄, -⟩ := mem_after.1 h₂
  obtain ⟨m₅, h₅, -⟩ := mem_after.1 h₄
  have hstay : m₁.1.rest = c :: s := by
    simp only [ways] at h₁
    split at h₁
    · rw [List.mem_singleton.1 h₁]
    · exact absurd h₁ List.not_mem_nil
  obtain ⟨run, hrun, hrest⟩ := exists_run_of_mem_ways_one h₃
  have hletters : ∃ u, Spells ['G', 'O'] u ∧ m₃.1.rest = u ++ m₅.1.rest := by
    obtain ⟨u, hu, hword, -⟩ := exists_of_mem_ways_letters h₅
    exact ⟨u, hu, hword⟩
  obtain ⟨u, hu, hword⟩ := hletters
  rw [hstay] at hrest
  cases run with
  | cons d run =>
    obtain ⟨rfl, -⟩ := List.cons.inj hrest
    rw [hrun c List.mem_cons_self] at hblank
    exact absurd hblank (by decide)
  | nil =>
    rw [List.nil_append, hword] at hrest
    cases hu with
    | cons hd _ =>
      obtain ⟨rfl, -⟩ := List.cons.inj hrest
      rw [hletter] at hd
      exact absurd hd (by decide)

/-! ### The script as one text -/

theorem splits_comment {t : BatchTable} (ht : t.IsWritten) :
    Splits comment (t.line '[' ']') (t.line '[' ']') := fun rest =>
  rewrite_comment_break (isBare_line ht) rest

theorem splits_batchEnd {t : BatchTable} (ht : t.IsWritten) :
    Splits batchEnd (t.line '[' ']') (t.line '[' ']') := by
  intro rest
  have hlocal : batchEnd.IsLocal := isLocal_of_mem_msSqlRules (by simp [msSqlRules_eq])
  have hbreak : '\n' ∉ t.line '[' ']' :=
    not_mem_line ht (by decide) (by decide) (by decide) (by decide)
  obtain ⟨s, hs⟩ := exists_line_eq_cons '[' ']' t
  have hbehind := behind_line none '[' ']' t
  rw [hs] at hbreak hbehind ⊢
  have hmisses : batchEnd.MissesIn none ('C' :: s) ('\n' :: rest) :=
    ⟨misses_batchEnd_of_ne (by decide) (by decide) _,
      missesIn_batchEnd (by decide) (fun h => hbreak (List.mem_cons_of_mem _ h)) _⟩
  show batchEnd.rewriteBehind none (('C' :: s) ++ '\n' :: rest) = _
  rw [rewriteBehind_append hlocal hmisses, hbehind,
    rewriteBehind_of_misses hlocal (misses_batchEnd_of_some (by decide) _)]

theorem splits_bracketName {t : BatchTable} (ht : t.IsWritten) :
    Splits bracketName (t.line '[' ']') (t.line '\x22' '\x22') := by
  have hnone : (['\n'] :: lineParts).all (!·.contains '[') = true := by decide
  have hline := rewrites_line (f := id) (fun part hpart => rewrites_bracketName_of_not_mem ?_)
    (fun name hname =>
      rewrites_bracketName_enclosed hname.ne_nil (hname.isIdentifier.not_mem (by decide)))
    ht
  · rw [mapNames_id] at hline
    exact splits_of_rewrites hline
  · simpa using List.all_eq_true.1 hnone part hpart

/-- The rules rewrite the line apart from what stands behind it, and end no statement there. -/
def SplitsAll (rules : List Pattern) (line line' : List Char) : Prop :=
  ∀ rest, ';' ∉ rest → ∃ rest', ';' ∉ rest'
    ∧ rewriteAll rules (line ++ '\n' :: rest) = line' ++ '\n' :: rest'

theorem SplitsAll.nil (line : List Char) : SplitsAll [] line line := fun rest hrest =>
  ⟨rest, hrest, rfl⟩

theorem SplitsAll.cons {p : Pattern} {rules : List Pattern} {line line' line'' : List Char}
    (hp : p.writes ';' = false) (h : Splits p line line') (hs : SplitsAll rules line' line'') :
    SplitsAll (p :: rules) line line'' := by
  intro rest hrest
  have hrest' : ';' ∉ p.rewriteBehind (some '\n') rest := by
    intro hm
    rcases mem_or_writes_of_mem_rewriteBehind hm with hm | hw
    · exact hrest hm
    · rw [hp] at hw
      exact absurd hw (by decide)
  obtain ⟨left, hleft, heq⟩ := hs _ hrest'
  refine ⟨left, hleft, ?_⟩
  rw [← heq, ← h rest]
  rfl

theorem BatchTable.IsWritten.mapNames_narrowed {t : BatchTable} (ht : t.IsWritten) :
    (t.mapNames narrowed).IsWritten where
  name := isName_narrowed ht.name
  column c hc := by
    obtain ⟨column, hcolumn, rfl⟩ := List.mem_map.1 hc
    exact isName_narrowed (ht.column column hcolumn)

/-- All rules leave the line as a declaration in double quotes, with narrowed names. -/
theorem splitsAll_line {t : BatchTable} (ht : t.IsWritten) :
    SplitsAll (comment :: msSqlRules) (t.line '[' ']')
      ((t.mapNames narrowed).line '\x22' '\x22') := by
  have hidentity : Splits identityRule (t.line '\x22' '\x22') (t.line '\x22' '\x22') := by
    have h := splits_of_wordRule (f := id) (by simp [msSqlRules_eq, identityRule]) (by decide)
      (fun name hname => rewrites_identityRule_enclosed hname) ht
    rwa [mapNames_id] at h
  have hnarrow : Splits wideTextRule (t.line '\x22' '\x22')
      ((t.mapNames narrowed).line '\x22' '\x22') :=
    splits_of_wordRule (by simp [msSqlRules_eq, wideTextRule]) (by decide)
      (fun name hname => rewrites_wideTextRule_enclosed hname) ht
  have htime : Splits wideTimeRule ((t.mapNames narrowed).line '\x22' '\x22')
      ((t.mapNames narrowed).line '\x22' '\x22') := by
    have h := splits_of_wordRule (f := id) (by simp [msSqlRules_eq, wideTimeRule]) (by decide)
      (fun name hname => rewrites_wideTimeRule_enclosed hname) ht.mapNames_narrowed
    rwa [mapNames_id] at h
  rw [msSqlRules_eq]
  exact .cons (by decide) (splits_comment ht) (.cons (by decide) (splits_batchEnd ht)
    (.cons (by decide) (splits_bracketName ht) (.cons (by decide) hidentity
      (.cons (by decide) hnarrow (.cons (by decide) htime (.nil _))))))

/-! ### The line among joined lines -/

theorem IsIdentifier.squeezed {s : List Char} (hs : IsIdentifier s) (before : Bool) :
    Text.Squeezed before false (enclosed '\x22' '\x22' s) := by
  have hquote : ∀ c ∈ ['\x22'], Text.isBlank c = false := List.forall_mem_singleton.2 (by decide)
  have hname : ∀ c ∈ s, Text.isBlank c = false := fun c hc =>
    Text.isBlank_of_asciiWord (hs.word c hc)
  exact .of_forall (List.forall_mem_append.2 ⟨hquote, List.forall_mem_append.2 ⟨hname, hquote⟩⟩)
    (List.cons_ne_nil _ _) before

theorem squeezed_line {t : BatchTable} (ht : t.IsWritten) :
    Text.Squeezed false false (t.line '\x22' '\x22') := by
  have hcreate : Text.Squeezed false true "CREATE TABLE ".toList := fun _ => rfl
  have hopen : Text.Squeezed false false " (".toList := fun _ => rfl
  have hint : Text.Squeezed false false " int".toList := fun _ => rfl
  have hcomma : Text.Squeezed false true ", ".toList := fun _ => rfl
  have hclose : Text.Squeezed false false ")".toList := fun _ => rfl
  have hcolumns : Text.Squeezed false false
      (Text.join ", ".toList (t.columns.map (BatchTable.columnText '\x22' '\x22'))) := by
    refine .join hcomma fun part hpart before => ?_
    obtain ⟨c, hc, rfl⟩ := List.mem_map.1 hpart
    exact ((ht.column c hc).isIdentifier.squeezed before).append hint
  unfold BatchTable.line
  exact (((hcreate.append (ht.name.isIdentifier.squeezed true)).append hopen).append hcolumns).append
    hclose

theorem endsInk_line (t : BatchTable) : Text.EndsInk (t.line '\x22' '\x22') := by
  unfold BatchTable.line
  exact ⟨_, ')', rfl, by decide⟩

/-- **The portable text of a script begins with its first line**, in quotes and with narrowed names.
Nothing behind the line ends a statement if nothing did before. -/
theorem exists_portable_line {t : BatchTable} (ht : t.IsWritten) {rest : List Char}
    (hrest : ';' ∉ rest) : ∃ left, ';' ∉ left
      ∧ (msSql.portable (String.ofList (t.line '[' ']' ++ '\n' :: rest))).toList
        = (t.mapNames narrowed).line '\x22' '\x22' ++ left := by
  obtain ⟨rest', hrest', hrules⟩ := splitsAll_line ht rest hrest
  have hsqueezed := squeezed_line ht.mapNames_narrowed
  have hend := endsInk_line (t.mapNames narrowed)
  rw [rewriteAll, List.foldl_cons] at hrules
  obtain ⟨s, hs⟩ := exists_line_eq_cons '\x22' '\x22' (t.mapNames narrowed)
  rw [hs] at hsqueezed hend hrules ⊢
  obtain ⟨left, hleft, hcollapse⟩ := Text.collapse_append (by decide) hsqueezed hend ('\n' :: rest')
  refine ⟨left, fun hm => ?_, ?_⟩
  · rcases hleft _ hm with hm | hspace
    · rcases List.mem_cons.1 hm with hbreak | hm
      · exact absurd hbreak (by decide)
      · exact hrest' hm
    · exact absurd hspace (by decide)
  · rw [portable, String.toList_ofList, String.toList_ofList, rules, rewriteAll, hrules, hcollapse]

end SchemaAudit.Dialect
