import SchemaAudit.Dialect.Portable
import SchemaAudit.Proofs.Pattern.Loss
import SchemaAudit.Proofs.Text.Classes
import SchemaAudit.Proofs.Text.Collapse
import SchemaAudit.Proofs.Text.LetterCase

/-!
# Texts that are portable already

Making declarations portable is a row of rewritings, and none of them undoes another: each leaves
the text as it is or makes it lighter on one scale for the whole row. So a text comes out as it went
in just when every rule leaves it alone.

* `lightens_of_mem_rules`: each rule of a dialect lightens on the scale of the dialect.
* `portable_eq_self_iff`: which texts are portable already.
* `portable_portable_iff`: portable declarations are portable already unless one of the rules fits
  again, and `portable_portable_ne` shows that one may.
-/

namespace SchemaAudit.Dialect

open Pattern

/-! ### The scales -/

/-- Brackets and quotes weigh much, a backtick more than the quote that replaces it, and the letter
`d`, which stands in the names of points in time and not in what they become, more than others. -/
def codeWeight (code : Nat) : Nat :=
  if Text.blanks.covers code then 0
  else if code ∈ [39, 40, 41, 91, 93] then 100
  else if code = 68 ∨ code = 100 then 10
  else if code = 96 then 2
  else 1

theorem codeWeight_lower {code : Nat} (h : 65 ≤ code ∧ code ≤ 90) :
    codeWeight (code + 32) = codeWeight code := by
  have hall : ∀ n < 26, codeWeight (n + 65 + 32) = codeWeight (n + 65) := by decide
  have hn := hall (code - 65) (by omega)
  rwa [show code - 65 + 65 = code by omega] at hn

/-- Each character weighs the same wherever it stands. -/
def plainScale : Scale where
  weight _ c := codeWeight c.toNat
  blank _ _ h := if_pos h
  ink _ c h := by
    have hcode : ¬Text.blanks.covers c.toNat = true := by
      rw [Bool.not_eq_true]
      exact h
    rw [codeWeight, if_neg hcode]
    split_ifs <;> decide
  least _ _ := Nat.le_refl _
  behindBlank _ _ := rfl

theorem isPlain_plainScale : plainScale.IsPlain := fun _ _ => rfl

/-- What opens a comment weighs most. -/
def signWeight (c : Char) : Nat := if c ∈ ['-', '/', '#'] then 200 else 1

/-- The letters `ia` in a row, in any case, weigh more than they do apart. -/
def pairWeight (before : Option Char) (c : Char) : Nat :=
  if before.any (Text.asciiLower · = 'i') && Text.asciiLower c = 'a' then 100 else 0

theorem isBlank_of_asciiLower {c : Char} (h : 97 ≤ (Text.asciiLower c).toNat)
    (h' : (Text.asciiLower c).toNat ≤ 122) : Text.isBlank c = false := by
  refine Text.isBlank_of_asciiLetters ?_
  rw [Text.toNat_asciiLower] at h h'
  simp only [Text.asciiLetters, Text.CodeTable.covers]
  split_ifs at h h' ⊢ <;> first | rfl | omega

theorem pairWeight_of_isBlank {b : Char} (hb : Text.isBlank b = true) (c : Char) :
    pairWeight (some b) c = 0 := by
  refine if_neg fun h => ?_
  have hlower : Text.asciiLower b = 'i' := of_decide_eq_true (Bool.and_eq_true_iff.1 h).1
  have hink : Text.isBlank b = false :=
    isBlank_of_asciiLower (by rw [hlower]; decide) (by rw [hlower]; decide)
  rw [hink] at hb
  exact absurd hb (by decide)

/-- The letters `ia` stand in a row in the names of counting types and not in what they become. -/
def pairScale : Scale where
  weight before c := if Text.isBlank c then 0 else signWeight c + pairWeight before c
  blank _ _ h := if_pos h
  ink before c h := by
    have hsign : 0 < signWeight c := by
      rw [signWeight]
      split_ifs <;> decide
    rw [if_neg (by simp [h])]
    omega
  least before c := by
    by_cases h : Text.isBlank c = true
    · rw [if_pos h, if_pos h]
    · rw [if_neg h, if_neg h]
      exact Nat.add_le_add_left (Nat.zero_le _) _
  behindBlank hb c := by rw [pairWeight_of_isBlank hb]; rfl

/-! ### Comments -/

/-- A character outweighs what any context can add, also if blanks replace it. -/
theorem outweighs_of_context {w : Scale} {c : Char}
    (h : ∀ before d, w.weight before d < w.weight none c + w.weight none d)
    {written : List Char} (hwritten : ∀ d ∈ written, Text.isBlank d = true) :
    w.Outweighs written [c] := by
  intro before rest
  have hload : w.load none [c] = w.weight none c := rfl
  have hle := w.load_blanks_append_le before hwritten rest
  refine lt_of_le_of_lt hle ?_
  rw [hload]
  cases rest with
  | nil =>
    have hpos := h none ' '
    rw [w.blank none (by decide)] at hpos
    exact hpos
  | cons d rest =>
    have hd := h before d
    rw [Scale.load, Scale.load]
    omega

theorem lightens_comment {w : Scale}
    (h : ∀ c ∈ ['-', '/', '#'], ∀ before d, w.weight before d < w.weight none c + w.weight none d) :
    Lightens w comment := by
  have hsign : ∀ c ∈ ['-', '/', '#'], ∀ {written : List Char},
      (∀ d ∈ written, Text.isBlank d = true) → Covers (w.Outweighs written) (char c) := by
    intro c hc written hwritten
    refine Covers.one fun d hd => ?_
    rw [of_decide_eq_true hd]
    exact outweighs_of_context (h c hc) hwritten
  have hspace : ∀ d ∈ " ".toList, Text.isBlank d = true := List.all_eq_true.1 (by decide)
  refine Lightens.anyOf fun p hp => ?_
  simp only [List.mem_cons, List.not_mem_nil, or_false] at hp
  rcases hp with rfl | rfl | rfl | rfl | rfl | rfl
  · exact Lightens.kept rfl
  · exact Lightens.kept rfl
  · exact Lightens.kept rfl
  · exact Lightens.becomes rfl (((hsign '/' (by decide) hspace).next_left _).next_left _)
  · exact Lightens.drop rfl (((hsign '-' (by decide) (by simp)).next_left _).next_left _)
  · exact Lightens.drop rfl
      ((((hsign '#' (by decide) (by simp)).next_left _).next_right _).next_right _)

/-! ### Rules on the plain scale -/

/-- A letter weighs the same in upper and in lower case. -/
theorem codeWeight_asciiLower (c : Char) :
    codeWeight (Text.asciiLower c).toNat = codeWeight c.toNat := by
  rw [Text.toNat_asciiLower]
  split_ifs with h
  · exact codeWeight_lower h
  · rfl

theorem codeWeight_of_sameLetter {l c : Char} (h : sameLetter l c = true) :
    codeWeight l.toNat = codeWeight c.toNat := by
  rw [← codeWeight_asciiLower l]
  rcases sameLetter_iff.1 h with h | ⟨hcode, h⟩ | ⟨hcode, h⟩
  · rw [h, codeWeight_asciiLower]
  · rw [h, hcode]
    decide
  · rw [h, hcode]
    decide

theorem loses_letters (s : String) :
    Loses plainScale (plainScale.load none s.toList) (letters s) :=
  Loses.letters isPlain_plainScale fun _ _ _ h => le_of_eq (codeWeight_of_sameLetter h)

theorem loses_char (c : Char) : Loses plainScale (plainScale.weight none c) (char c) := by
  refine Loses.one fun d hd => ?_
  obtain rfl : d = c := of_decide_eq_true hd
  exact Int.le_refl _

/-- A rule that drops a row of things lightens if one of them is heavy. -/
theorem lightens_each {ps : List Pattern} (hs : (each ps).isSilent = true) {p : Pattern} {n : Int}
    (hmem : p ∈ ps) (hp : Loses plainScale n p) (hn : 0 < n) : Lightens plainScale (each ps) :=
  (hp.each_of_mem isPlain_plainScale hs hmem).lightens isPlain_plainScale hn

/-- A rule that drops what it reads and writes a word lightens if it drops more than the word. -/
theorem lightens_becomes {p : Pattern} {n : Int} (hp : Loses plainScale n p) {s : String}
    (hn : plainScale.load none s.toList < n) : Lightens plainScale (becomes p s) :=
  (hp.becomes isPlain_plainScale s).lightens isPlain_plainScale (by omega)

theorem loses_size : Loses plainScale 200 size :=
  Loses.each isPlain_plainScale [100, 0, 0, 0, 100]
    (.cons (loses_char '(') (.cons (.of_isSilent rfl) (.cons (.of_isSilent rfl)
      (.cons (.of_isSilent rfl) (.cons (loses_char ')') .nil)))))

theorem lightens_tableOption (name : String) {value : Pattern} (h : value.isSilent = true) :
    Lightens plainScale (tableOption name value) := by
  refine lightens_each (isSilent_each ?_) (p := char '=') (by simp) (loses_char '=') (by decide)
  intro p hp
  simp only [List.mem_cons, List.not_mem_nil, or_false] at hp
  rcases hp with rfl | rfl | rfl | rfl | rfl | rfl | rfl
  · rfl
  · rfl
  · exact isSilent_letters name
  · rfl
  · rfl
  · rfl
  · exact Bool.and_eq_true_iff.2 ⟨h, h⟩

theorem lightens_sized (types : List String) {name : String}
    (h : plainScale.load none name.toList < 200) : Lightens plainScale (sized types name) := by
  refine lightens_becomes (loses_size.each_of_mem isPlain_plainScale ?_ (by simp)) (by omega)
  have htypes : (anyOf (types.map letters)).isSilent = true := by
    refine isSilent_anyOf fun p hp => ?_
    obtain ⟨type, -, rfl⟩ := List.mem_map.1 hp
    exact isSilent_letters type
  exact Bool.and_eq_true_iff.2 ⟨rfl, Bool.and_eq_true_iff.2 ⟨htypes, rfl⟩⟩

theorem loses_phrase (word : String) (words : List String) :
    Loses plainScale (plainScale.load none word.toList) (phrase (word :: words)) := by
  refine (loses_letters word).each_of_mem isPlain_plainScale (isSilent_phrase _) ?_
  cases words with
  | nil => exact List.mem_singleton_self _
  | cons next words => exact List.mem_cons_self

theorem lightens_qualifiedTable : Lightens plainScale qualifiedTable := by
  have hw := isPlain_plainScale
  refine Loses.lightens hw (n := 1) (by decide) ?_
  exact Loses.each hw [0, 0, 0, 0, 0, 1, 0]
    (.cons (.of_isSilent rfl) (.cons (.kept hw rfl) (.cons (.put [' ']) (.cons (.of_isSilent rfl)
      (.cons (.of_isSilent rfl) (.cons (loses_char '.') (.cons (.kept hw rfl) .nil)))))))

theorem loses_precision : Loses plainScale 200 precision :=
  Loses.each isPlain_plainScale [0, 100, 0, 0, 0, 100]
    (.cons (.of_isSilent rfl) (.cons (loses_char '(') (.cons (.of_isSilent rfl)
      (.cons (.of_isSilent rfl) (.cons (.of_isSilent rfl) (.cons (loses_char ')') .nil))))))

theorem loses_zeroDate : Loses plainScale 100 zeroDate :=
  (loses_char '\x27').each_of_mem isPlain_plainScale rfl (by simp)

theorem lightens_mySqlRules : ∀ rule ∈ mySqlRules, Lightens plainScale rule := by
  have hw := isPlain_plainScale
  have hcomma : Loses plainScale 1 (char ',') := loses_char ','
  have hcharset : Loses plainScale 7 (anyOf [letters "CHARSET", phrase ["CHARACTER", "SET"]]) :=
    (loses_letters _).either ((loses_phrase _ _).mono (by decide))
  have hsign : Loses plainScale 8 (anyOf [letters "UNSIGNED", letters "ZEROFILL"]) :=
    ((loses_letters _).mono (by decide)).either (loses_letters _)
  have hupdate : Loses plainScale 2 (phrase ["ON", "UPDATE", "CURRENT_TIMESTAMP"]) :=
    loses_phrase _ _
  simp only [mySqlRules, List.forall_mem_cons]
  refine ⟨?_, ?_, ?_, ?_, ?_, ?_, ?_, ?_, ?_, ?_, ?_, ?_, ?_, ?_, ?_, ?_, ?_, ?_, ?_, ?_, ?_, ?_,
    ?_, by simp⟩
  · exact lightens_becomes (loses_char '\x60') (by decide)
  · exact lightens_qualifiedTable
  · exact lightens_tableOption _ rfl
  · exact lightens_each rfl (by simp) hcharset (by decide)
  · exact lightens_each rfl (p := letters "COLLATE") (by simp) (loses_letters _) (by decide)
  · exact lightens_tableOption _ rfl
  · exact lightens_each rfl (p := letters "AUTO_INCREMENT") (by simp) (loses_letters _) (by decide)
  · exact lightens_tableOption _ rfl
  · exact lightens_each rfl (by simp) hsign (by decide)
  · exact lightens_each rfl (p := letters "COMMENT") (by simp) (loses_letters _) (by decide)
  · exact lightens_sized _ (by decide)
  · exact lightens_sized _ (by decide)
  · exact lightens_sized _ (by decide)
  · exact lightens_becomes
      ((loses_letters "datetime").each_of_mem hw rfl (by simp)) (by decide)
  · exact lightens_becomes (loses_size.each_of_mem hw rfl (by simp)) (by decide)
  · exact lightens_becomes loses_zeroDate (by decide)
  · refine lightens_becomes (n := 100) ?_ (by decide)
    refine Loses.each_of_mem (p := exactly "\x27\x27") hw rfl (by simp) ?_
    exact Loses.each_of_mem (p := char '\x27') hw rfl (by simp) (loses_char '\x27')
  · exact lightens_each rfl (by simp) hupdate (by decide)
  · exact lightens_becomes (loses_precision.each_of_mem hw rfl (by simp)) (by decide)
  · exact lightens_each rfl (by simp) hcomma (by decide)
  · exact lightens_each rfl (by simp) hcomma (by decide)
  · exact lightens_each rfl (by simp) hcomma (by decide)
  · refine lightens_becomes (n := 101) ?_ (by decide)
    exact Loses.each hw [1, 0, 100]
      (.cons hcomma (.cons (.of_isSilent rfl) (.cons (loses_char ')') .nil)))

theorem lightens_msSqlRules : ∀ rule ∈ msSqlRules, Lightens plainScale rule := by
  have hw := isPlain_plainScale
  simp only [msSqlRules, List.forall_mem_cons]
  refine ⟨?_, ?_, ?_, ?_, ?_, by simp⟩
  · exact lightens_each rfl (p := letters "GO") (by simp) (loses_letters _) (by decide)
  · refine Loses.lightens hw (n := 100 + (-1 + (0 + (100 + -1)))) (by decide) ?_
    exact Loses.each hw [100, -1, 0, 100, -1]
      (.cons (loses_char '[') (.cons (.put ['\x22']) (.cons (.kept hw rfl)
        (.cons (loses_char ']') (.cons (.put ['\x22']) .nil)))))
  · refine lightens_becomes (n := 100) ?_ (by decide)
    exact (loses_char '(').each_of_mem hw rfl (by simp)
  · exact lightens_becomes ((loses_letters "nvarchar").each_of_mem hw rfl (by simp)) (by decide)
  · exact lightens_becomes
      ((loses_letters "datetime2").each_of_mem hw rfl (by simp)) (by decide)

/-! ### Rules on the scale of pairs -/

theorem pairScale_weight_of_ne {c : Char} (h : Text.asciiLower c ≠ 'a') (before : Option Char) :
    pairScale.weight before c = pairScale.weight none c := by
  have hpair : ∀ before, pairWeight before c = 0 := by
    intro before
    rw [pairWeight, decide_eq_false h, Bool.and_false]
    rfl
  show (if Text.isBlank c then 0 else signWeight c + pairWeight before c)
    = if Text.isBlank c then 0 else signWeight c + pairWeight none c
  rw [hpair, hpair]

theorem pairScale_load_of_ne {b : Char} (h : Text.asciiLower b ≠ 'i') (s : List Char) :
    pairScale.load (some b) s = pairScale.load none s := by
  cases s with
  | nil => rfl
  | cons c s =>
    have hpair : pairWeight (some b) c = pairWeight none c := by
      rw [pairWeight, Option.any_some, decide_eq_false h]
      rfl
    show (if Text.isBlank c then 0 else signWeight c + pairWeight (some b) c) + _
      = (if Text.isBlank c then 0 else signWeight c + pairWeight none c) + _
    rw [hpair]

/-- The letters `ia` outweigh a light text that goes with any context. -/
theorem outweighs_pair {c d : Char} (hc : Text.asciiLower c = 'i') (hd : Text.asciiLower d = 'a')
    (first last : Char) (middle : List Char) (hfirst : Text.asciiLower first ≠ 'a')
    (hlast : Text.asciiLower last ≠ 'i')
    (h : pairScale.load none (first :: middle ++ [last]) ≤ 100) :
    pairScale.Outweighs (first :: middle ++ [last]) [c, d] := by
  intro before rest
  have hink : Text.isBlank d = false :=
    isBlank_of_asciiLower (by rw [hd]; decide) (by rw [hd]; decide)
  have hpair : 101 ≤ pairScale.load none [c, d] := by
    have hsign : 1 ≤ signWeight d := by
      rw [signWeight]
      split_ifs <;> decide
    have hweight : pairScale.weight (some c) d = signWeight d + 100 := by
      show (if Text.isBlank d then 0 else signWeight d + pairWeight (some c) d) = _
      rw [hink, pairWeight, Option.any_some, hc, hd]
      rfl
    rw [Scale.load, Scale.load, hweight]
    omega
  have hparts : pairScale.load before (first :: middle ++ [last] ++ rest)
      = pairScale.load none (first :: middle ++ [last]) + pairScale.load none rest := by
    rw [pairScale.load_concat_append, pairScale_load_of_ne hlast, List.cons_append,
      Scale.load, Scale.load, pairScale_weight_of_ne hfirst]
  rw [hparts]
  omega

/-- What reads the letters `ia` in a row reads enough for a text that they outweigh. -/
theorem covers_pair {written : List Char}
    (h : ∀ {c d}, Text.asciiLower c = 'i' → Text.asciiLower d = 'a' →
      pairScale.Outweighs written [c, d]) (p : Pattern) :
    Covers (pairScale.Outweighs written)
      (next (one (sameLetter 'I')) (next (one (sameLetter 'A')) p)) := by
  have hlower : ∀ l : Char, Text.asciiLower l ≠ 'k' → Text.asciiLower l ≠ 's' → ∀ {c : Char},
      sameLetter l c = true → Text.asciiLower c = Text.asciiLower l := by
    intro l hk hs c hc
    rcases sameLetter_iff.1 hc with h | ⟨-, h⟩ | ⟨-, h⟩
    · exact h.symm
    · exact absurd h hk
    · exact absurd h hs
  exact Covers.two (fun c d hi ha =>
    h (hlower 'I' (by decide) (by decide) hi) (hlower 'A' (by decide) (by decide) ha)) p

/-- The names of counting types hold the letters `ia`, and the declarations that replace them are
light. -/
theorem lightens_postgresRules : ∀ rule ∈ postgresRules, Lightens pairScale rule := by
  have hbig := covers_pair fun hc hd => outweighs_pair hc hd 'B' 'Y'
    "IGINT GENERATED BY DEFAULT AS IDENTIT".toList (by decide) (by decide) (by decide)
  have hsmall := covers_pair fun hc hd => outweighs_pair hc hd 'S' 'Y'
    "MALLINT GENERATED BY DEFAULT AS IDENTIT".toList (by decide) (by decide) (by decide)
  have hinteger := covers_pair fun hc hd => outweighs_pair hc hd 'I' 'Y'
    "NTEGER GENERATED BY DEFAULT AS IDENTIT".toList (by decide) (by decide) (by decide)
  -- the letters before the pair are passed over one by one, behind the edge of the word
  have hserial : ∀ {P : List Char → Prop}, (∀ p, Covers P
        (next (one (sameLetter 'I')) (next (one (sameLetter 'A')) p))) →
      ∀ p, Covers P (next (one (sameLetter 'S')) (next (one (sameLetter 'E'))
        (next (one (sameLetter 'R')) (next (one (sameLetter 'I'))
          (next (one (sameLetter 'A')) p))))) :=
    fun h p => (((h p).next_right _).next_right _).next_right _
  simp only [postgresRules, List.forall_mem_cons]
  refine ⟨Lightens.becomes rfl ?_, Lightens.becomes rfl ?_, Lightens.becomes rfl ?_, by simp⟩
  · refine Covers.either ?_ ?_
    · exact (((((hserial hbig _).next_right _).next_right _).next_right _).next_left _).next_right _
    · exact (((hserial hbig _).next_left _).next_right _)
  · refine Covers.either ?_ ?_
    · refine Covers.next_right _ (Covers.next_left ?_ _)
      exact (((((hserial hsmall _).next_right _).next_right _).next_right _).next_right _).next_right _
    · exact (((hserial hsmall _).next_left _).next_right _)
  · exact ((((hserial hinteger _).next_left _).next_left _).next_right _)

/-! ### Portable texts -/

/-- The scale on which the rules of a dialect lighten. -/
def scale : Dialect → Scale
  | mySql | msSql => plainScale
  | postgres => pairScale

theorem lightens_of_mem_rules (dialect : Dialect) :
    ∀ rule ∈ dialect.rules, Lightens dialect.scale rule := by
  cases dialect with
  | mySql => exact lightens_mySqlRules
  | postgres => exact lightens_postgresRules
  | msSql => exact lightens_msSqlRules

theorem lightens_comment_of_scale (dialect : Dialect) : Lightens dialect.scale comment := by
  have hplain : Lightens plainScale comment := by
    refine lightens_comment fun c hc before d => Nat.lt_add_of_pos_left ?_
    have hpos : ['-', '/', '#'].all fun c => 0 < plainScale.weight none c := by decide
    exact of_decide_eq_true (List.all_eq_true.1 hpos c hc)
  have hpair : Lightens pairScale comment := by
    refine lightens_comment fun c hc before d => ?_
    have hheavy : ['-', '/', '#'].all fun c => pairScale.weight none c = 200 := by decide
    have hc200 := of_decide_eq_true (List.all_eq_true.1 hheavy c hc)
    have hadd : pairScale.weight before d ≤ pairScale.weight none d + 100 := by
      show (if Text.isBlank d then 0 else signWeight d + pairWeight before d)
        ≤ (if Text.isBlank d then 0 else signWeight d + 0) + 100
      rw [pairWeight]
      split_ifs <;> omega
    omega
  cases dialect with
  | mySql => exact hplain
  | msSql => exact hplain
  | postgres => exact hpair

/-- **A text comes out as it went in just when every rule leaves it alone**, and it stands on one
line with single spaces. -/
theorem portable_eq_self_iff (dialect : Dialect) (s : String) :
    dialect.portable s = s
      ↔ comment.rewrite s.toList = s.toList
        ∧ (∀ rule ∈ dialect.rules, rule.rewrite s.toList = s.toList)
        ∧ Text.collapse s.toList = s.toList := by
  have hlist : dialect.portable s = s
      ↔ Text.collapse (rewriteAll dialect.rules (comment.rewrite s.toList)) = s.toList := by
    rw [portable, ← String.toList_inj, String.toList_ofList]
  rw [hlist]
  constructor
  · intro h
    -- the weight at the end is the weight at the start, so no step made the text lighter
    have hload := dialect.scale.load_collapse (rewriteAll dialect.rules (comment.rewrite s.toList))
    rw [h] at hload
    have hrules := rewriteAll_eq_or_load_lt (lightens_of_mem_rules dialect)
      (comment.rewrite s.toList)
    rcases rewrite_eq_or_load_lt (lightens_comment_of_scale dialect) s.toList with hcomment | hlt
    · rw [hcomment] at hload hrules h
      rcases hrules with hrules | hlt
      · rw [rewriteAll_eq_self hrules] at h
        exact ⟨hcomment, hrules, h⟩
      · omega
    · rcases hrules with hrules | hlt'
      · rw [rewriteAll_eq_self hrules] at hload
        omega
      · omega
  · rintro ⟨hcomment, hrules, hcollapse⟩
    rw [hcomment, rewriteAll_eq_self hrules, hcollapse]

/-- **Portable declarations are portable already unless a rule fits again.** -/
theorem portable_portable_iff (dialect : Dialect) (s : String) :
    dialect.portable (dialect.portable s) = dialect.portable s
      ↔ comment.rewrite (dialect.portable s).toList = (dialect.portable s).toList
        ∧ ∀ rule ∈ dialect.rules,
          rule.rewrite (dialect.portable s).toList = (dialect.portable s).toList := by
  have hcollapse : Text.collapse (dialect.portable s).toList = (dialect.portable s).toList := by
    rw [portable, String.toList_ofList, Text.collapse_collapse]
  rw [portable_eq_self_iff, hcollapse]
  simp

/-- A comma before a comma that goes is left behind, and goes the next time. -/
theorem portable_portable_ne :
    mySql.portable (mySql.portable "CREATE TABLE t (a int,,);")
      ≠ mySql.portable "CREATE TABLE t (a int,,);" := by
  decide +kernel

end SchemaAudit.Dialect
