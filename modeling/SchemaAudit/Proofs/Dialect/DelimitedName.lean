import Mathlib.Data.List.Forall2
import SchemaAudit.Proofs.Dialect.Comment
import SchemaAudit.Proofs.Text.Classes
import SchemaAudit.Proofs.Text.LetterCase

/-!
# Rules and delimited names

What the rules of a dialect with names in square brackets do to such names. Brackets become double
quotes; a rule that replaces a word replaces it inside of quotes too, where the word is all of the
name.

* `IsName`, `IsIdentifier`: names of letters only, and with digits and underscores too.
* `rewrites_bracketName_enclosed`: a name in brackets becomes the name in quotes.
* `missesIn_wordRule_enclosed`: a quoted name stays if no word to be replaced is in it.
* `narrowed`, `rewrites_wideTextRule_enclosed`: the one name that does not stay.
-/

namespace SchemaAudit.Dialect

open Pattern

/-! ### Names -/

/-- Letters from `A` to `Z` in either case, at least one. -/
structure IsName (s : List Char) : Prop where
  ne_nil : s ≠ []
  letters : ∀ c ∈ s, Text.asciiLetters.covers c.toNat = true

instance (s : List Char) : Decidable (IsName s) :=
  decidable_of_iff (s ≠ [] ∧ s.all (fun c => Text.asciiLetters.covers c.toNat) = true)
    ⟨fun h => ⟨h.1, List.all_eq_true.1 h.2⟩, fun h => ⟨h.ne_nil, List.all_eq_true.2 h.letters⟩⟩

/-- ASCII letters, digits and underscores, with a letter first. -/
structure IsIdentifier (s : List Char) : Prop where
  ne_nil : s ≠ []
  head : ∀ c ∈ s.head?, Text.asciiLetters.covers c.toNat = true
  word : ∀ c ∈ s, Text.asciiWord.covers c.toNat = true

instance (s : List Char) : Decidable (IsIdentifier s) :=
  decidable_of_iff (s ≠ [] ∧ s.head?.all (fun c => Text.asciiLetters.covers c.toNat) = true
      ∧ s.all (fun c => Text.asciiWord.covers c.toNat) = true)
    ⟨fun h => ⟨h.1, fun c hc => (Option.all_eq_true _ _).1 h.2.1 c hc, List.all_eq_true.1 h.2.2⟩,
      fun h => ⟨h.ne_nil, (Option.all_eq_true _ _).2 h.head, List.all_eq_true.2 h.word⟩⟩

namespace IsIdentifier

variable {s : List Char} (hs : IsIdentifier s)

include hs

theorem isWordChar : ∀ c ∈ s, Text.isWordChar c = true := fun c hc =>
  Text.isWordChar_of_asciiWord (hs.word c hc)

theorem ascii : ∀ c ∈ s, c.toNat < 128 := fun c hc => Text.lt_of_asciiWord (hs.word c hc)

theorem not_mem {c : Char} (hc : Text.asciiWord.covers c.toNat = false) : c ∉ s := by
  intro hm
  rw [hs.word c hm] at hc
  exact absurd hc (by decide)

end IsIdentifier

theorem IsName.isIdentifier {s : List Char} (h : IsName s) : IsIdentifier s where
  ne_nil := h.ne_nil
  head := fun c hc => h.letters c (List.mem_of_mem_head? hc)
  word := fun c hc => Text.covers_asciiWord_of_asciiLetters (h.letters c hc)

def enclosed (opening closing : Char) (s : List Char) : List Char := opening :: (s ++ [closing])

/-! ### The rules -/

/-- The line that ends a batch. -/
def batchEnd : Pattern :=
  each [lineStart, blanks, letters "GO", blanks, optional (char ';'), blanks, lineEnd]

def bracketName : Pattern :=
  each [char '[', put ['\x22'], kept (atLeastOne (noneOf "]")), char ']', put ['\x22']]

/-- A rule that replaces a word where something stands behind it. -/
def wordRule (word : String) (more : List Pattern) (written : String) : Pattern :=
  becomes (each (wordEdge :: letters word :: more)) written

def identityRule : Pattern :=
  wordRule "IDENTITY" [blanks, char '(', blanks, atLeastOne decimal, blanks, char ',', blanks,
    atLeastOne decimal, blanks, char ')'] "GENERATED BY DEFAULT AS IDENTITY"

def wideTextRule : Pattern := wordRule "nvarchar" [wordEdge] "varchar"

def wideTimeRule : Pattern :=
  wordRule "datetime2" [wordEdge, optional (each [blanks, size])] "timestamp"

theorem msSqlRules_eq :
    msSqlRules = [batchEnd, bracketName, identityRule, wideTextRule, wideTimeRule] := rfl

theorem isLocal_of_mem_msSqlRules {rule : Pattern} (h : rule ∈ msSqlRules) : rule.IsLocal := by
  rw [msSqlRules_eq] at h
  simp only [List.mem_cons, List.not_mem_nil, or_false] at h
  rcases h with rfl | rfl | rfl | rfl | rfl <;> exact ⟨by decide, fun _ => rfl⟩

/-! ### Names in brackets -/

theorem behind_enclosed (before : Option Char) (opening closing : Char) (s : List Char) :
    behind before (enclosed opening closing s) = some closing := by
  show behind (some opening) (s ++ [closing]) = some closing
  rw [behind_append]
  rfl

theorem misses_bracketName {c : Char} (h : c ≠ '[') (before : Option Char) (s : List Char) :
    bracketName.Misses ⟨before, c :: s⟩ := ways_char_eq_nil h _ _ _ _

theorem isLocal_bracketName : bracketName.IsLocal :=
  isLocal_of_mem_msSqlRules (by simp [msSqlRules_eq])

theorem rewrites_bracketName_of_not_mem {s : List Char} (h : '[' ∉ s) :
    Rewrites bracketName s s := by
  refine .of_missesIn isLocal_bracketName fun before t => ?_
  induction s generalizing before with
  | nil => trivial
  | cons c s ih =>
    have hc : c ≠ '[' := fun heq => h (heq ▸ List.mem_cons_self)
    exact ⟨misses_bracketName hc _ _, ih (fun hs => h (List.mem_cons_of_mem c hs)) (some c)⟩

/-- The first way reads the name up to its closing bracket. -/
theorem head?_ways_bracketName {c : Char} {s : List Char} (h : ']' ∉ c :: s) {bound : Nat}
    {t : List Char} (hbound : (s ++ ']' :: t).length ≤ bound) (before : Option Char) :
    (bracketName.ways bound false ⟨before, '[' :: c :: (s ++ ']' :: t)⟩).head?
      = some (⟨some ']', t⟩, enclosed '\x22' '\x22' (c :: s)) := by
  have hall : ∀ d ∈ c :: s, (!"]".toList.contains d) = true := by
    intro d hd
    have hne : d ≠ ']' := fun heq => h (heq ▸ hd)
    simpa using hne
  have hs : ∀ d ∈ s, (!"]".toList.contains d) = true :=
    fun d hd => hall d (List.mem_cons_of_mem c hd)
  have hfirst : ((noneOf "]").ways bound true ⟨some '[', c :: (s ++ ']' :: t)⟩).head?
      = some (⟨some c, s ++ ']' :: t⟩, [c]) :=
    congrArg List.head? (if_pos (hall c List.mem_cons_self))
  have hrun : ((many (noneOf "]")).ways bound true ⟨some c, s ++ ']' :: t⟩).head?
      = some (⟨behind (some c) s, ']' :: t⟩, s) :=
    head?_ways_many_append hbound hs (by simp) true (some c)
  have hname : ((kept (atLeastOne (noneOf "]"))).ways bound false
      ⟨some '[', c :: (s ++ ']' :: t)⟩).head? = some (⟨behind (some c) s, ']' :: t⟩, c :: s) :=
    head?_ways_next hfirst hrun
  have hclose : ((next (char ']') (put ['\x22'])).ways bound false
      ⟨behind (some c) s, ']' :: t⟩).head? = some (⟨some ']', t⟩, ['\x22']) := rfl
  have hopen : ((char '[').ways bound false ⟨before, '[' :: c :: (s ++ ']' :: t)⟩).head?
      = some (⟨some '[', c :: (s ++ ']' :: t)⟩, []) := rfl
  have hquote : ((put ['\x22']).ways bound false ⟨some '[', c :: (s ++ ']' :: t)⟩).head?
      = some (⟨some '[', c :: (s ++ ']' :: t)⟩, ['\x22']) := rfl
  exact head?_ways_next hopen (head?_ways_next hquote (head?_ways_next hname hclose))

theorem rewrites_bracketName_enclosed {s : List Char} (hne : s ≠ []) (hs : ']' ∉ s) :
    Rewrites bracketName (enclosed '[' ']' s) (enclosed '\x22' '\x22' s) := by
  intro before t
  cases s with
  | nil => exact absurd rfl hne
  | cons c s =>
    have htext : enclosed '[' ']' (c :: s) ++ t = '[' :: c :: (s ++ ']' :: t) := by
      simp [enclosed]
    have hbound : (s ++ ']' :: t).length ≤ ('[' :: c :: (s ++ ']' :: t)).length := by
      simp only [List.length_cons]
      omega
    have hway := head?_ways_bracketName hs hbound before
    have hshorter : t.length < ('[' :: c :: (s ++ ']' :: t)).length := by
      simp only [List.length_cons, List.length_append]
      omega
    rw [htext, rewriteBehind_of_way isLocal_bracketName hway hshorter, behind_enclosed]

/-! ### Words in quotes -/

/-- Where a word is replaced, it stands at an edge, and what is asked behind it fits there. -/
theorem exists_of_mem_ways_wordRule {word written : String} {more : List Pattern} {bound : Nat}
    {place : Place} {m : Way} (h : m ∈ (wordRule word more written).ways bound false place) :
    atWordEdge place = true ∧ ∃ u r, Spells word.toList u ∧ place.rest = u ++ r
      ∧ (each more).ways bound false ⟨behind place.before u, r⟩ ≠ [] := by
  obtain ⟨m₁, h₁, -⟩ := mem_after.1 h
  rw [ways_each_cons] at h₁
  obtain ⟨m₂, h₂, m₃, h₃, -⟩ := mem_after.1 h₁
  rw [ways_each_cons] at h₃
  obtain ⟨m₄, h₄, m₅, h₅, -⟩ := mem_after.1 h₃
  have hedge : atWordEdge place = true ∧ m₂.1 = place := by
    rw [ways] at h₂
    split at h₂
    · rename_i hedge
      exact ⟨hedge, by rw [List.mem_singleton.1 h₂]⟩
    · exact absurd h₂ List.not_mem_nil
  obtain ⟨u, hu, hrest, hbefore⟩ := exists_of_mem_ways_letters h₄
  rw [hedge.2] at hrest hbefore
  refine ⟨hedge.1, u, m₄.1.rest, hu, hrest, ?_⟩
  rw [← hbefore]
  exact List.ne_nil_of_mem h₅

theorem misses_wordRule {word written : String} {more : List Pattern} {place : Place}
    (h : atWordEdge place = true → ∀ u r, Spells word.toList u → place.rest = u ++ r →
      (each more).ways place.rest.length false ⟨behind place.before u, r⟩ = []) :
    (wordRule word more written).Misses place := by
  refine List.eq_nil_iff_forall_not_mem.2 fun m hm => ?_
  obtain ⟨hedge, u, r, hu, hrest, hmore⟩ := exists_of_mem_ways_wordRule hm
  exact hmore (h hedge u r hu hrest)

/-- The word is spelled nowhere in the text, whatever stands behind it. -/
def misfitsThroughout (word : List Char) : List Char → Bool
  | [] => true
  | c :: s => misfits word (c :: s) && misfitsThroughout word s

theorem missesIn_wordRule_of_misfits {word written : String} {more : List Pattern} {s : List Char}
    (h : misfitsThroughout word.toList s = true) (before : Option Char) (t : List Char) :
    (wordRule word more written).MissesIn before s t := by
  induction s generalizing before with
  | nil => trivial
  | cons c s ih =>
    rw [misfitsThroughout, Bool.and_eq_true] at h
    refine ⟨misses_wordRule fun _ u r hu hrest => ?_, ih h.2 (some c)⟩
    exact absurd hrest (not_spells_of_misfits h.1 hu)

/-- A word that is spelled at the start of a text with a quote behind it ends before the quote. -/
theorem exists_of_spells_quoted {u v r t : List Char} (hu : '\x22' ∉ u)
    (h : v ++ '\x22' :: t = u ++ r) : ∃ back, v = u ++ back ∧ r = back ++ '\x22' :: t := by
  rcases List.append_eq_append_iff.1 h with ⟨a, rfl, ha⟩ | ⟨a, rfl, ha⟩
  · cases a with
    | nil => exact ⟨[], by simp, by simpa using ha.symm⟩
    | cons d a =>
      obtain ⟨rfl, -⟩ := List.cons.inj ha
      exact absurd (List.mem_append_right v List.mem_cons_self) hu
  · exact ⟨a, rfl, ha⟩

section Quoted

variable {word written : String} {more : List Pattern} (hne : word.toList ≠ [])
  (hquote : word.toList.all (fun l => !sameLetter l '\x22') = true)

include hquote

theorem quote_not_mem_of_spells {u : List Char} (hu : Spells word.toList u) : '\x22' ∉ u :=
  hu.not_mem fun l hl => by simpa using List.all_eq_true.1 hquote l hl

include hne

theorem misses_wordRule_quote (before : Option Char) (s : List Char) :
    (wordRule word more written).Misses ⟨before, '\x22' :: s⟩ := by
  refine misses_wordRule fun _ u r hu hrest => ?_
  have hnot := quote_not_mem_of_spells hquote hu
  cases u with
  | nil => exact absurd (List.length_eq_zero_iff.1 hu.length_eq) hne
  | cons c u =>
    obtain ⟨rfl, -⟩ := List.cons.inj hrest
    exact absurd List.mem_cons_self hnot

/-- A quoted text stays if the word is nowhere in it with what is asked behind it. -/
theorem missesIn_wordRule_enclosed {s : List Char}
    (h : ∀ front u back, s = front ++ (u ++ back) → Spells word.toList u → ∀ bound t,
      atWordEdge ⟨behind (some '\x22') front, u ++ (back ++ '\x22' :: t)⟩ = true →
      (each more).ways bound false ⟨behind (some '\x22') (front ++ u), back ++ '\x22' :: t⟩ = [])
    (before : Option Char) (t : List Char) :
    (wordRule word more written).MissesIn before (enclosed '\x22' '\x22' s) t := by
  have hinside : ∀ front v, s = front ++ v →
      (wordRule word more written).MissesIn (behind (some '\x22') front) v ('\x22' :: t) := by
    intro front v hs
    induction v generalizing front with
    | nil => trivial
    | cons c v ih =>
      have hrest : s = (front ++ [c]) ++ v := by rw [hs, List.append_assoc]; rfl
      have htail := ih (front ++ [c]) hrest
      rw [behind_append] at htail
      refine ⟨misses_wordRule fun hedge u r hu hword => ?_, htail⟩
      obtain ⟨back, hv, rfl⟩ := exists_of_spells_quoted (v := c :: v)
        (quote_not_mem_of_spells hquote hu) hword
      have htext : c :: (v ++ '\x22' :: t) = u ++ (back ++ '\x22' :: t) := hword
      rw [htext] at hedge
      rw [← behind_append]
      exact h front u back (by rw [hs, hv]) hu _ t hedge
  have hclose : ∀ before t, (wordRule word more written).Misses ⟨before, '\x22' :: t⟩ :=
    misses_wordRule_quote hne hquote
  refine ⟨hclose before _, missesIn_append.2 ⟨hinside [] s rfl, ?_⟩⟩
  exact ⟨hclose _ _, trivial⟩

end Quoted

/-! ### Names in quotes -/

/-- The first character behind a piece of a quoted name is a letter or the quote. -/
theorem head_of_quoted {back : List Char}
    (h : ∀ c ∈ back, Text.asciiLetters.covers c.toNat = true) (t : List Char) :
    ∃ d r, back ++ '\x22' :: t = d :: r ∧ Text.isBlank d = false ∧ d ≠ '(' := by
  cases back with
  | nil => exact ⟨'\x22', t, rfl, by decide, by decide⟩
  | cons d back =>
    have hd := h d List.mem_cons_self
    refine ⟨d, back ++ '\x22' :: t, rfl, Text.isBlank_of_asciiLetters hd, ?_⟩
    rintro rfl
    exact absurd hd (by decide)

theorem rewrites_identityRule_enclosed {s : List Char} (h : IsName s) :
    Rewrites identityRule (enclosed '\x22' '\x22' s) (enclosed '\x22' '\x22' s) := by
  refine .of_missesIn (isLocal_of_mem_msSqlRules (by simp [msSqlRules_eq])) fun before t => ?_
  refine missesIn_wordRule_enclosed (by decide) (by decide) (fun front u back hs _ bound t _ => ?_)
    before t
  have hback : ∀ c ∈ back, Text.asciiLetters.covers c.toNat = true := fun c hc =>
    h.letters c (by rw [hs]; exact List.mem_append_right _ (List.mem_append_right _ hc))
  obtain ⟨d, r, hrest, hblank, hparen⟩ := head_of_quoted hback t
  -- no blanks and no parenthesis stand behind the word
  refine List.eq_nil_iff_forall_not_mem.2 fun m hm => ?_
  obtain ⟨m₁, h₁, m₂, h₂, -⟩ := mem_after.1 hm
  obtain ⟨run, hrun, hfirst⟩ := exists_run_of_mem_ways_one h₁
  obtain ⟨m₃, h₃, -⟩ := mem_after.1 h₂
  obtain ⟨e, he, hsecond, -⟩ := exists_of_mem_ways_one h₃
  have hjoin : d :: r = run ++ e :: m₃.1.rest := by
    rw [← hrest, ← hsecond]
    exact hfirst
  cases run with
  | nil =>
    obtain ⟨rfl, -⟩ := List.cons.inj hjoin
    exact hparen (of_decide_eq_true he)
  | cons b run =>
    obtain ⟨rfl, -⟩ := List.cons.inj hjoin
    rw [hrun d List.mem_cons_self] at hblank
    exact absurd hblank (by decide)

theorem rewrites_wideTimeRule_enclosed {s : List Char} (h : IsName s) :
    Rewrites wideTimeRule (enclosed '\x22' '\x22' s) (enclosed '\x22' '\x22' s) := by
  refine .of_missesIn (isLocal_of_mem_msSqlRules (by simp [msSqlRules_eq])) fun before t => ?_
  refine missesIn_wordRule_enclosed (by decide) (by decide) (fun front u back hs hu bound t _ => ?_)
    before t
  -- the word ends in a digit, and the name has none
  obtain ⟨c, hc, hsame⟩ := hu.exists_of_mem (l := '2') (by decide)
  have hmem : c ∈ s := by
    rw [hs]
    exact List.mem_append_right _ (List.mem_append_left _ hc)
  have hlower := congrArg Char.toNat ((sameLetter_iff_of_ascii (h.isIdentifier.ascii c hmem)).1 hsame)
  have hcode := Text.covers_asciiLetters_iff.1 (h.letters c hmem)
  rw [Text.toNat_asciiLower c] at hlower
  have htwo : (Text.asciiLower '2').toNat = 50 := by decide
  split_ifs at hlower <;> omega

/-- A name in any case that a wide text type has becomes the name of the narrow one. -/
def narrowed (name : String) : String :=
  if name.toList.map Text.asciiLower = "nvarchar".toList then "varchar" else name

theorem isName_narrowed {name : String} (h : IsName name.toList) :
    IsName (narrowed name).toList := by
  rw [narrowed]
  split
  · exact ⟨by decide, List.all_eq_true.1 (by decide)⟩
  · exact h

theorem any_isWordChar_behind {s : List Char} (h : ∀ c ∈ s, Text.isWordChar c = true) :
    (behind (some '\x22') s).any Text.isWordChar = !s.isEmpty := by
  rw [behind_eq_getLast?]
  cases hlast : s.getLast? with
  | none =>
    rw [List.getLast?_eq_none_iff.1 hlast]
    decide
  | some c =>
    have hmem := List.mem_of_getLast? hlast
    have hne : s.isEmpty = false := by
      cases s with
      | nil => exact absurd hmem List.not_mem_nil
      | cons d s => rfl
    rw [hne]
    exact h c hmem

theorem any_isWordChar_head? {s : List Char} (h : ∀ c ∈ s, Text.isWordChar c = true)
    (t : List Char) :
    (s ++ '\x22' :: t).head?.any Text.isWordChar = !s.isEmpty := by
  cases s with
  | nil => rfl
  | cons c s => exact h c List.mem_cons_self

/-- In a quoted name a word has an edge where the name begins or where it ends. -/
theorem atWordEdge_quoted {front back : List Char}
    (hfront : ∀ c ∈ front, Text.isWordChar c = true)
    (hback : ∀ c ∈ back, Text.isWordChar c = true) (t : List Char) :
    atWordEdge ⟨behind (some '\x22') front, back ++ '\x22' :: t⟩
      = (front.isEmpty != back.isEmpty) := by
  rw [atWordEdge, any_isWordChar_behind hfront, any_isWordChar_head? hback]
  cases front.isEmpty <;> cases back.isEmpty <;> rfl

theorem isLocal_wideTextRule : wideTextRule.IsLocal :=
  isLocal_of_mem_msSqlRules (by simp [msSqlRules_eq])

/-- A name that is not the wide text type stays. -/
theorem missesIn_wideTextRule {s : List Char} (h : IsName s)
    (hs : s.map Text.asciiLower ≠ "nvarchar".toList) (before : Option Char) (t : List Char) :
    wideTextRule.MissesIn before (enclosed '\x22' '\x22' s) t := by
  refine missesIn_wordRule_enclosed (by decide) (by decide)
    (fun front u back hparts hu bound t hedge => ?_) before t
  have hletters := h.isIdentifier.isWordChar
  have hascii := h.isIdentifier.ascii
  rw [hparts] at hletters hascii
  simp only [List.forall_mem_append] at hletters hascii
  obtain ⟨hfront, hword, hback⟩ := hletters
  have hne : u ≠ [] := fun hnil => by simpa [hnil] using hu.length_eq
  have hinside : ∀ c ∈ u ++ back, Text.isWordChar c = true :=
    List.forall_mem_append.2 ⟨hword, hback⟩
  have hstart : front = [] := by
    have hink : (u ++ back).isEmpty = false := List.isEmpty_eq_false_iff.2 (by simp [hne])
    rw [← List.append_assoc, atWordEdge_quoted hfront hinside, hink] at hedge
    simpa using hedge
  have hmore : back ≠ [] := by
    rintro rfl
    rw [hstart, List.nil_append, List.append_nil] at hparts
    rw [hparts] at hs
    exact hs ((spells_iff_of_ascii hascii.2.1).1 hu).symm
  have hinner : atWordEdge ⟨behind (some '\x22') (front ++ u), back ++ '\x22' :: t⟩ = false := by
    have hink : (front ++ u).isEmpty = false := List.isEmpty_eq_false_iff.2 (by simp [hne])
    rw [atWordEdge_quoted (List.forall_mem_append.2 ⟨hfront, hword⟩) hback, hink,
      List.isEmpty_eq_false_iff.2 hmore]
    rfl
  show (if atWordEdge ⟨behind (some '\x22') (front ++ u), back ++ '\x22' :: t⟩ then _ else []) = []
  rw [hinner]
  rfl

/-- The name of the wide text type in quotes is a word, and the word gives way. -/
theorem head?_ways_wideTextRule {s : List Char} (h : IsName s) (hs : Spells "nvarchar".toList s)
    (bound : Nat) (t : List Char) :
    (wideTextRule.ways bound false ⟨some '\x22', s ++ '\x22' :: t⟩).head?
      = some (⟨behind (some '\x22') s, '\x22' :: t⟩, "varchar".toList) := by
  have hne : s.isEmpty = false := by simpa using h.ne_nil
  have hstart : atWordEdge ⟨some '\x22', s ++ '\x22' :: t⟩ = true := by
    have hedge := atWordEdge_quoted (List.forall_mem_nil _) h.isIdentifier.isWordChar t
    rw [hne] at hedge
    exact hedge
  have hend : atWordEdge ⟨behind (some '\x22') s, '\x22' :: t⟩ = true := by
    have hedge := atWordEdge_quoted h.isIdentifier.isWordChar (List.forall_mem_nil _) t
    rw [hne] at hedge
    exact hedge
  have hfirst : (wordEdge.ways bound false ⟨some '\x22', s ++ '\x22' :: t⟩).head?
      = some (⟨some '\x22', s ++ '\x22' :: t⟩, []) := congrArg List.head? (if_pos hstart)
  have hletters : ((letters "nvarchar").ways bound false ⟨some '\x22', s ++ '\x22' :: t⟩).head?
      = some (⟨behind (some '\x22') s, '\x22' :: t⟩, []) :=
    congrArg List.head? (ways_letters hs _ false _ _)
  have hlast : (wordEdge.ways bound false ⟨behind (some '\x22') s, '\x22' :: t⟩).head?
      = some (⟨behind (some '\x22') s, '\x22' :: t⟩, []) := congrArg List.head? (if_pos hend)
  have hput : ((put "varchar".toList).ways bound false
      ⟨behind (some '\x22') s, '\x22' :: t⟩).head?
      = some (⟨behind (some '\x22') s, '\x22' :: t⟩, "varchar".toList) := rfl
  exact head?_ways_next (head?_ways_next hfirst (head?_ways_next hletters hlast)) hput

theorem rewriteBehind_wideTextRule {s : List Char} (h : IsName s) (hs : Spells "nvarchar".toList s)
    (before : Option Char) (t : List Char) :
    wideTextRule.rewriteBehind before (enclosed '\x22' '\x22' s ++ t)
      = enclosed '\x22' '\x22' "varchar".toList ++ wideTextRule.rewriteBehind (some '\x22') t := by
  have hquote : ∀ before t, wideTextRule.rewriteBehind before ('\x22' :: t)
      = '\x22' :: wideTextRule.rewriteBehind (some '\x22') t := fun before t =>
    rewriteBehind_of_misses isLocal_wideTextRule
      (misses_wordRule_quote (by decide) (by decide) before t)
  have hshorter : ('\x22' :: t).length < (s ++ '\x22' :: t).length := by
    have hpos := List.length_pos_iff.2 h.ne_nil
    rw [List.length_append]
    omega
  have htext : enclosed '\x22' '\x22' s ++ t = '\x22' :: (s ++ '\x22' :: t) := by simp [enclosed]
  rw [htext, hquote,
    rewriteBehind_of_way isLocal_wideTextRule (head?_ways_wideTextRule h hs _ t) hshorter, hquote]
  simp [enclosed]

theorem rewrites_wideTextRule_enclosed {name : String} (h : IsName name.toList) :
    Rewrites wideTextRule (enclosed '\x22' '\x22' name.toList)
      (enclosed '\x22' '\x22' (narrowed name).toList) := by
  by_cases hs : name.toList.map Text.asciiLower = "nvarchar".toList
  · intro before t
    have hspells : Spells "nvarchar".toList name.toList :=
      (spells_iff_of_ascii h.isIdentifier.ascii).2 hs.symm
    rw [rewriteBehind_wideTextRule h hspells, behind_enclosed, narrowed, if_pos hs]
  · rw [narrowed, if_neg hs]
    exact .of_missesIn isLocal_wideTextRule (missesIn_wideTextRule h hs)

end SchemaAudit.Dialect
