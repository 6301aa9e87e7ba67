import SchemaAudit.Proofs.Text.LowerCase
import SchemaAudit.Proofs.TypeName.Element

/-!
# Arrays of arrays

One pair of brackets is taken off a type and put back behind its canonical form. A pair that is left
is read as a part of the type: it joins a word, becomes a word of its own or ends the arguments.

* `canonical_append_of_none`: brackets can be put behind a type that has none.
* `ofElement_brackets_iff`: what becomes of brackets that are read as words.
* `canonical_append_brackets_iff`: behind which types brackets can be put.
-/

namespace SchemaAudit.TypeName

/-! ### Brackets behind a type -/

theorem lowerAfter_brackets (before : List Char) :
    Text.lowerAfter before "[]".toList = "[]".toList := rfl

/-- Brackets at the end of a type stay when it is put in lower case. -/
theorem lowered_append_brackets (s : List Char) :
    lowered (s ++ "[]".toList) = Text.toLower (Text.trimStart s) ++ "[]".toList := by
  have hstart : Text.trimStart (s ++ "[]".toList) = Text.trimStart s ++ "[]".toList :=
    Text.trimStart_append_cons (by decide) s [']']
  have hend : ∀ t, Text.trimEnd (t ++ "[]".toList) = t ++ "[]".toList := by
    intro t
    have hsplit : t ++ "[]".toList = (t ++ ['[']) ++ [']'] := by simp
    rw [hsplit]
    exact Text.trimEnd_append_singleton (by decide) _
  have hparts : ∀ c ∈ "[]".toList.head?, Text.PartsWords c := by
    rintro c ⟨⟩
    exact ⟨by decide, by decide⟩
  rw [lowered, Text.trim, hstart, hend, Text.toLower, Text.lowerAfter_append hparts,
    lowerAfter_brackets]
  rfl

theorem trimEnd_toLower_trimStart (s : List Char) :
    Text.trimEnd (Text.toLower (Text.trimStart s)) = lowered s := by
  rw [Text.trimEnd_toLower]
  rfl

/-! ### The law for one type -/

/-- A type of an array is what its elements are, and brackets. -/
theorem canonical_append_brackets (d : Dialect) (s : String) :
    (canonical d (s ++ "[]")).toList = ofElement d (lowered s.toList) ++ "[]".toList := by
  have hbrackets : withoutBrackets? (lowered (s ++ "[]").toList)
      = some (Text.toLower (Text.trimStart s.toList)) := by
    rw [String.toList_append]
    exact withoutBrackets?_eq_some_iff.2 (lowered_append_brackets s.toList)
  rw [toList_canonical_of_some hbrackets, trimEnd_toLower_trimStart]

/-- **Brackets can be added to a type that has none.** -/
theorem canonical_append_of_none {d : Dialect} {s : String}
    (h : withoutBrackets? (lowered s.toList) = none) :
    canonical d (s ++ "[]") = canonical d s ++ "[]" := by
  rw [← String.toList_inj, canonical_append_brackets, String.toList_append,
    toList_canonical_of_none h]

/-- To a type that has brackets others can be added exactly if the brackets are no part of what its
elements are. -/
theorem canonical_append_iff_of_some {d : Dialect} {s : String} {inner : List Char}
    (h : withoutBrackets? (lowered s.toList) = some inner) :
    canonical d (s ++ "[]") = canonical d s ++ "[]"
      ↔ ofElement d (inner ++ "[]".toList)
        = ofElement d (Text.trimEnd inner) ++ "[]".toList := by
  rw [← String.toList_inj, canonical_append_brackets, String.toList_append,
    toList_canonical_of_some h, withoutBrackets?_eq_some_iff.1 h]
  exact List.append_left_inj "[]".toList

/-! ### Brackets behind words -/

theorem words_brackets {blanks : List Char} (h : ∀ c ∈ blanks, Text.isBlank c = true) :
    words (blanks ++ "[]".toList) = ["[]".toList] := by
  rw [words_blanks_append h]
  decide

/-- Brackets apart from the last word are a word. -/
theorem words_append_brackets {s blanks : List Char} (h : ∀ c ∈ blanks, Text.isBlank c = true)
    (hapart : s = [] ∨ blanks ≠ []) :
    words (s ++ (blanks ++ "[]".toList)) = words s ++ ["[]".toList] := by
  rcases hapart with rfl | hne
  · exact words_brackets h
  · obtain ⟨c, blanks, rfl⟩ := List.exists_cons_of_ne_nil hne
    obtain ⟨hc, hblanks⟩ := List.forall_mem_cons.1 h
    rw [List.cons_append, words_append_cons hc, words_brackets hblanks]

theorem count_brackets : "[]".toList.count '[' = 1 := by decide

/-- Brackets behind a word join it. -/
theorem join_brackets_joined (first : List (List Char)) {s : List Char} (h : Text.EndsInk s) :
    Text.join ['_'] (first ++ words (s ++ "[]".toList))
      = Text.join ['_'] (first ++ words s) ++ "[]".toList := by
  obtain ⟨before, last, hwords, happend⟩ := exists_words_append h
  have hmore : words (s ++ "[]".toList) = before ++ [last ++ "[]".toList] :=
    happend _ (unspaced_of_all (by decide))
  rw [hmore, hwords, ← List.append_assoc, join_append_last, List.append_assoc]

/-- Brackets that are a word are glued to the words in front of them, if there are any. -/
theorem join_brackets_apart (front : List (List Char)) :
    Text.join ['_'] (front ++ ["[]".toList])
      = if front = [] then "[]".toList else Text.join ['_'] front ++ ['_'] ++ "[]".toList := by
  by_cases h : front = []
  · rw [if_pos h, h]
    decide
  · rw [if_neg h, join_append_singleton h, List.append_assoc]
    rfl

/-- **Brackets behind words are kept** if the text in front of them is left as it is and ends in a
word, or there is none. -/
theorem ofElement_brackets_iff {d : Dialect} {s t tail blanks : List Char}
    {first : List (List Char)} (hs : words (elementBase s) = first ++ words tail)
    (ht : words (elementBase t) = first ++ words (tail ++ (blanks ++ "[]".toList)))
    (htail : tail = [] ∨ Text.EndsInk tail) (hblanks : ∀ c ∈ blanks, Text.isBlank c = true) :
    ofElement d t = ofElement d s ++ "[]".toList
      ↔ ofElement d s = glue (elementBase s)
        ∧ (glue (elementBase s) = [] ∨ blanks = [] ∧ tail ≠ []) := by
  have hbracket : '[' ∈ elementBase t := by
    rw [← List.count_pos_iff, ← count_words (by decide), ht, List.flatten_append,
      List.count_append, count_words (by decide), List.count_append, List.count_append,
      count_brackets]
    omega
  rw [ofElement_of_mem hbracket]
  by_cases hjoined : blanks = [] ∧ tail ≠ []
  · obtain ⟨rfl, hne⟩ := hjoined
    have hglue : glue (elementBase t) = glue (elementBase s) ++ "[]".toList := by
      rw [glue, glue, hs, ht]
      exact join_brackets_joined first (htail.resolve_left hne)
    rw [hglue, List.append_left_inj, eq_comm]
    exact (and_iff_left (.inr ⟨rfl, hne⟩)).symm
  · have hapart : tail = [] ∨ blanks ≠ [] := by
      by_cases hne : tail = []
      · exact .inl hne
      · exact .inr fun hb => hjoined ⟨hb, hne⟩
    have hglue : glue (elementBase t) = if words (elementBase s) = [] then "[]".toList
        else glue (elementBase s) ++ ['_'] ++ "[]".toList := by
      rw [words_append_brackets hblanks hapart, ← List.append_assoc, ← hs] at ht
      rw [glue, ht]
      exact join_brackets_apart _
    rw [or_iff_left hjoined, hglue, glue_eq_nil_iff]
    by_cases hnone : words (elementBase s) = []
    · rw [if_pos hnone, (glue_eq_nil_iff _).2 hnone, and_iff_left hnone, List.self_eq_append_left]
    · rw [if_neg hnone, List.append_left_inj]
      exact iff_of_false (ofElement_ne d s).symm fun h => hnone h.2

/-! ### Arguments in front of brackets -/

/-- What is put behind a type with arguments is put behind its arguments. -/
theorem splitArguments_append_of_mem {s : List Char} (h : '(' ∈ s) (t : List Char) :
    splitArguments (s ++ t)
      = ((splitArguments s).1, (splitArguments s).2 ++ t.filter fun c => !Text.isBlank c) := by
  obtain ⟨before, behind, rfl, hbefore⟩ := List.eq_append_cons_of_mem h
  rw [List.append_assoc, List.cons_append, splitArguments_append hbefore,
    splitArguments_append hbefore, List.filter_append, List.cons_append]

theorem filter_brackets {blanks : List Char} (h : ∀ c ∈ blanks, Text.isBlank c = true) :
    ((blanks ++ "[]".toList).filter fun c => !Text.isBlank c) = "[]".toList := by
  have hnone : (blanks.filter fun c => !Text.isBlank c) = [] := by
    rw [List.filter_eq_nil_iff]
    intro c hc
    simp [h c hc]
  rw [List.filter_append, hnone]
  decide

/-- Arguments matter for a name only if they are closed. -/
theorem ofDialect?_congr {arguments others : List Char} (h : ')' ∉ arguments) (ho : ')' ∉ others)
    (d : Dialect) (base : String) : ofDialect? d base arguments = ofDialect? d base others := by
  have hopen : ∀ s : List Char, ')' ∉ s → String.ofList s ≠ "(1)" := by
    intro s hs heq
    apply hs
    have hlist := congrArg String.toList heq
    rw [String.toList_ofList] at hlist
    rw [hlist]
    decide
  cases d with
  | mySql => simp [ofDialect?, hopen arguments h, hopen others ho]
  | postgres => rfl
  | msSql => rfl

theorem not_mem_arguments {s : List Char} (h : ')' ∉ s) : ')' ∉ (splitArguments s).2 := by
  by_cases hopen : '(' ∈ s
  · obtain ⟨before, behind, rfl, hbefore⟩ := List.eq_append_cons_of_mem hopen
    rw [splitArguments_append hbefore]
    intro hmem
    rcases List.mem_cons.1 hmem with heq | hmem
    · exact absurd heq (by decide)
    · exact h (List.mem_append_right before (List.mem_cons_of_mem _ (List.mem_filter.1 hmem).1))
  · rw [splitArguments_of_not_mem hopen]
    exact List.not_mem_nil

/-! ### Brackets behind brackets -/

/-- What stands behind the last closing parenthesis, or the whole text if there is none. -/
def lastPart (s : List Char) : List Char := (afterLast? ')' s).getD s

theorem not_mem_append_brackets {c : Char} (hc : Text.isBlank c = false) (hb : c ∉ "[]".toList)
    {blanks s : List Char} (hblanks : ∀ c ∈ blanks, Text.isBlank c = true) (hs : c ∉ s) :
    c ∉ s ++ (blanks ++ "[]".toList) := by
  have hblank : c ∉ blanks := by
    intro hmem
    rw [hblanks c hmem] at hc
    cases hc
  simp only [List.mem_append, not_or]
  exact ⟨hs, hblank, hb⟩

section Cases

variable {d : Dialect} {s blanks : List Char} (hblanks : ∀ c ∈ blanks, Text.isBlank c = true)
include hblanks

/-- Brackets behind arguments that are not closed are taken for a part of them. -/
theorem ofElement_brackets_of_unclosed (hclose : ')' ∉ s) (hopen : '(' ∈ s) :
    ofElement d (s ++ (blanks ++ "[]".toList)) = ofElement d s ++ "[]".toList
      ↔ keepsArguments (elementName d s) = true := by
  have hmore := not_mem_append_brackets (by decide) (by decide) hblanks hclose
  have hsplit := splitArguments_append_of_mem hopen (blanks ++ "[]".toList)
  rw [filter_brackets hblanks] at hsplit
  have hbase : elementBase (s ++ (blanks ++ "[]".toList)) = elementBase s := by
    rw [elementBase_of_not_mem hmore, elementBase_of_not_mem hclose, hsplit]
  have hname : elementName d (s ++ (blanks ++ "[]".toList)) = elementName d s := by
    unfold elementName
    rw [hbase, ofDialect?_congr (not_mem_arguments hmore) (not_mem_arguments hclose)]
  rw [ofElement, ofElement, elementArguments, elementArguments, hname, hsplit]
  cases keepsArguments (elementName d s) with
  | true => simp
  | false => simp

/-- Brackets behind a closed parenthesis that was never opened are read twice. -/
theorem ofElement_brackets_of_unopened (hclose : ')' ∈ s) (hopen : '(' ∉ s) :
    ofElement d (s ++ (blanks ++ "[]".toList)) ≠ ofElement d s ++ "[]".toList := by
  intro h
  have hmore := not_mem_append_brackets (by decide) (by decide) hblanks hopen
  have hnone : (splitArguments s).2 = [] := by
    rw [splitArguments_of_not_mem hopen]
  have hbefore : (elementBase s).count '[' + 2
      ≤ (elementBase (s ++ (blanks ++ "[]".toList))).count '[' := by
    have hopened := splitArguments_of_not_mem hopen
    have hmoreOpened := splitArguments_of_not_mem hmore
    obtain ⟨front, t, rfl, ht⟩ := exists_last_mark hclose
    have htMore := not_mem_append_brackets (by decide) (by decide) hblanks ht
    have hcut : front ++ ')' :: t ++ (blanks ++ "[]".toList)
        = front ++ ')' :: (t ++ (blanks ++ "[]".toList)) := by simp
    rw [hcut] at hmoreOpened ⊢
    rw [count_elementBase (by decide) ht, count_elementBase (by decide) htMore, hopened,
      hmoreOpened]
    simp only [List.count_append, List.count_cons, count_brackets]
    omega
  have hbracket : '[' ∈ elementBase (s ++ (blanks ++ "[]".toList)) := by
    rw [← List.count_pos_iff]
    omega
  have hcount := congrArg (List.count '[') h
  have hname := count_elementName_le d s
  rw [ofElement_of_mem hbracket, count_glue (by decide) (by decide), ofElement, elementArguments,
    hnone, ite_self, List.append_nil, List.count_append, count_brackets] at hcount
  omega

variable (hend : s = [] ∨ Text.EndsInk s)
include hend

/-- Brackets behind a type whose arguments are closed are taken for words. -/
theorem ofElement_brackets_of_closed (hclose : ')' ∈ s) (hopen : '(' ∈ s) :
    ofElement d (s ++ (blanks ++ "[]".toList)) = ofElement d s ++ "[]".toList
      ↔ ofElement d s = glue (elementBase s)
        ∧ (glue (elementBase s) = [] ∨ blanks = [] ∧ lastPart s ≠ []) := by
  have hsplit := splitArguments_append_of_mem hopen (blanks ++ "[]".toList)
  obtain ⟨front, t, rfl, ht⟩ := exists_last_mark hclose
  have hlast : lastPart (front ++ ')' :: t) = t := by
    rw [lastPart, afterLast?_append ht]
    rfl
  have htail : t = [] ∨ Text.EndsInk t := by
    by_cases hne : t = []
    · exact .inl hne
    · obtain ⟨before, last, hs, hink⟩ := hend.resolve_left (by simp)
      rw [← List.dropLast_concat_getLast hne, ← List.cons_append, ← List.append_assoc] at hs
      obtain ⟨-, hsame⟩ := List.append_inj' hs rfl
      refine .inr ⟨t.dropLast, last, ?_, hink⟩
      rw [← hsame, List.dropLast_concat_getLast hne]
  have htMore := not_mem_append_brackets (by decide) (by decide) hblanks ht
  have hcut : front ++ ')' :: t ++ (blanks ++ "[]".toList)
      = front ++ ')' :: (t ++ (blanks ++ "[]".toList)) := by simp
  have hwords := words_elementBase ht front
  have hmore := words_elementBase htMore front
  rw [← hcut, hsplit] at hmore
  rw [hlast]
  exact ofElement_brackets_iff hwords hmore htail hblanks

/-- Brackets behind a type without parentheses are taken for words, too. -/
theorem ofElement_brackets_of_plain (hclose : ')' ∉ s) (hopen : '(' ∉ s) :
    ofElement d (s ++ (blanks ++ "[]".toList)) = ofElement d s ++ "[]".toList
      ↔ ofElement d s = glue (elementBase s)
        ∧ (glue (elementBase s) = [] ∨ blanks = [] ∧ lastPart s ≠ []) := by
  have hlast : lastPart s = s := by
    rw [lastPart, afterLast?_of_not_mem hclose]
    rfl
  have hcloseMore := not_mem_append_brackets (by decide) (by decide) hblanks hclose
  have hopenMore := not_mem_append_brackets (by decide) (by decide) hblanks hopen
  have hbase : elementBase s = s := by
    rw [elementBase_of_not_mem hclose, splitArguments_of_not_mem hopen]
  have hbaseMore : elementBase (s ++ (blanks ++ "[]".toList)) = s ++ (blanks ++ "[]".toList) := by
    rw [elementBase_of_not_mem hcloseMore, splitArguments_of_not_mem hopenMore]
  have hwords : words (elementBase s) = [] ++ words s := by rw [hbase, List.nil_append]
  have hmore : words (elementBase (s ++ (blanks ++ "[]".toList)))
      = [] ++ words (s ++ (blanks ++ "[]".toList)) := by rw [hbaseMore, List.nil_append]
  rw [hlast]
  exact ofElement_brackets_iff hwords hmore hend hblanks

end Cases

/-- The text in front of the brackets is left as it is, and brackets behind it join its last word. -/
def StaysJoined (d : Dialect) (inner : List Char) : Prop :=
  let element := Text.trimEnd inner
  ofElement d element = glue (elementBase element)
    ∧ (glue (elementBase element) = [] ∨ inner = element ∧ lastPart element ≠ [])

/-- A type that ends in brackets keeps further ones. Where a parenthesis is open they belong to the
arguments, and otherwise to the words. A name that a table turns into another one, or that has
arguments, does not keep them. -/
def BearsBrackets (d : Dialect) (inner : List Char) : Prop :=
  let element := Text.trimEnd inner
  if ')' ∈ element then '(' ∈ element ∧ StaysJoined d inner
  else if '(' ∈ element then keepsArguments (elementName d element) = true
  else StaysJoined d inner

/-- **When brackets can be put behind a type that ends in brackets already.** -/
theorem ofElement_append_brackets_iff (d : Dialect) (inner : List Char) :
    ofElement d (inner ++ "[]".toList) = ofElement d (Text.trimEnd inner) ++ "[]".toList
      ↔ BearsBrackets d inner := by
  obtain ⟨blanks, hinner, hblanks, hend⟩ := Text.exists_trimEnd_append inner
  have hsame : inner = Text.trimEnd inner ↔ blanks = [] := by
    constructor
    · intro h
      rw [← h] at hinner
      exact List.self_eq_append_right.1 hinner
    · intro h
      rwa [h, List.append_nil] at hinner
  simp only [BearsBrackets, StaysJoined, hsame]
  conv => lhs; lhs; rw [hinner, List.append_assoc]
  generalize Text.trimEnd inner = s at hend ⊢
  by_cases hclose : ')' ∈ s
  · rw [if_pos hclose]
    by_cases hopen : '(' ∈ s
    · rw [ofElement_brackets_of_closed hblanks hend hclose hopen, and_iff_right hopen]
    · exact iff_of_false (ofElement_brackets_of_unopened hblanks hclose hopen) fun h => hopen h.1
  · rw [if_neg hclose]
    by_cases hopen : '(' ∈ s
    · rw [if_pos hopen]
      exact ofElement_brackets_of_unclosed hblanks hclose hopen
    · rw [if_neg hopen]
      exact ofElement_brackets_of_plain hblanks hend hclose hopen

/-- **An array maps like its elements**, unless the elements are arrays whose brackets bear no
further ones. -/
theorem canonical_append_brackets_iff (d : Dialect) (s : String) :
    canonical d (s ++ "[]") = canonical d s ++ "[]"
      ↔ ∀ inner, withoutBrackets? (lowered s.toList) = some inner → BearsBrackets d inner := by
  cases hbrackets : withoutBrackets? (lowered s.toList) with
  | none => simp [canonical_append_of_none hbrackets]
  | some inner =>
    rw [canonical_append_iff_of_some hbrackets, ofElement_append_brackets_iff]
    constructor
    · rintro h _ ⟨⟩
      exact h
    · intro h
      exact h inner rfl

/-- In an array of arrays a type loses its arguments. -/
theorem canonical_append_brackets_ne :
    canonical .postgres "varchar(20)[]" = "varchar(20)[]" ∧
      canonical .postgres "varchar(20)[][]" = "varchar_[][]" ∧
      canonical .postgres ("varchar(20)[]" ++ "[]")
        ≠ canonical .postgres "varchar(20)[]" ++ "[]" := by
  decide

end SchemaAudit.TypeName
