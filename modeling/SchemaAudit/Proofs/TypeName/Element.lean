import SchemaAudit.Proofs.TypeName
import SchemaAudit.Proofs.TypeName.Words

/-!
# What stands before the brackets

A canonical type is what stands before the brackets of the written type in its canonical form, and
the brackets. A name comes from a table, or it is the words that are written, glued together.

* `toList_canonical_of_none`, `toList_canonical_of_some`: the canonical type without brackets and with
  them.
* `elementName_cases`: where a name comes from.
* `ofElement_of_mem`: a type that has brackets among its words is left as it is.
-/

namespace SchemaAudit.TypeName

/-! ### Cutting at marks -/

theorem afterLast?_of_not_mem {mark : Char} {s : List Char} (h : mark ∉ s) :
    afterLast? mark s = none := by
  rw [afterLast?, Text.cutAt?_of_not_mem (by rwa [List.mem_reverse])]
  rfl

theorem afterLast?_append {mark : Char} {t : List Char} (h : mark ∉ t) (s : List Char) :
    afterLast? mark (s ++ mark :: t) = some t := by
  have hreverse : (s ++ mark :: t).reverse = t.reverse ++ mark :: s.reverse := by simp
  have hnone : mark ∉ t.reverse := by rwa [List.mem_reverse]
  rw [afterLast?, hreverse, Text.cutAt?_append hnone]
  exact congrArg some (List.reverse_reverse t)

/-- A text that holds a mark has a last one. -/
theorem exists_last_mark {mark : Char} {s : List Char} (h : mark ∈ s) :
    ∃ front t, s = front ++ mark :: t ∧ mark ∉ t := by
  obtain ⟨t, front, hs, ht⟩ := List.eq_append_cons_of_mem (List.mem_reverse.2 h)
  refine ⟨front.reverse, t.reverse, ?_, by rwa [List.mem_reverse]⟩
  rw [← List.reverse_inj, hs]
  simp

theorem splitArguments_of_not_mem {s : List Char} (h : '(' ∉ s) : splitArguments s = (s, []) := by
  rw [splitArguments, Text.cutAt?_of_not_mem h]

theorem splitArguments_append {s : List Char} (h : '(' ∉ s) (t : List Char) :
    splitArguments (s ++ '(' :: t)
      = (Text.trim s, '(' :: t.filter fun c => !Text.isBlank c) := by
  rw [splitArguments, Text.cutAt?_append h]
  rfl

/-! ### The type in front of the brackets -/

/-- A type as it is looked up: in lower case, without blanks at its ends. -/
def lowered (s : List Char) : List Char := Text.toLower (Text.trim s)

/-- The words of a type that stands before its brackets. -/
def elementBase (s : List Char) : List Char :=
  let trailing := Text.trim ((afterLast? ')' s).getD [])
  if trailing.isEmpty then (splitArguments s).1 else (splitArguments s).1 ++ ' ' :: trailing

/-- The name that these words and the arguments get in a dialect. -/
def elementName (d : Dialect) (s : List Char) : String :=
  (ofDialect? d (String.ofList (elementBase s)) (splitArguments s).2).getD (shared (elementBase s))

/-- The arguments that are kept for this name. -/
def elementArguments (d : Dialect) (s : List Char) : List Char :=
  if keepsArguments (elementName d s) then (splitArguments s).2 else []

/-- The canonical type of what stands before the brackets. -/
def ofElement (d : Dialect) (s : List Char) : List Char :=
  (elementName d s).toList ++ elementArguments d s

theorem withoutBrackets?_eq_some_iff {s r : List Char} :
    withoutBrackets? s = some r ↔ s = r ++ "[]".toList := by
  unfold withoutBrackets?
  constructor
  · intro h
    split at h
    · rename_i before hs
      obtain rfl := Option.some.inj h
      rw [← List.reverse_inj, hs]
      simp
    · cases h
  · rintro rfl
    simp

theorem parts_of_none {s : List Char} (h : withoutBrackets? (lowered s) = none) :
    parts s = ⟨elementBase (lowered s), (splitArguments (lowered s)).2, false⟩ := by
  rw [lowered] at h
  simp only [parts, h]
  rfl

theorem parts_of_some {s inner : List Char} (h : withoutBrackets? (lowered s) = some inner) :
    parts s
      = ⟨elementBase (Text.trimEnd inner), (splitArguments (Text.trimEnd inner)).2, true⟩ := by
  rw [lowered] at h
  simp only [parts, h]
  rfl

theorem toList_named {name : String} {arguments : List Char} :
    (if keepsArguments name then name ++ String.ofList arguments else name).toList
      = name.toList ++ if keepsArguments name then arguments else [] := by
  split
  · rw [String.toList_append, String.toList_ofList]
  · rw [List.append_nil]

theorem toList_canonical_of_none {d : Dialect} {written : String}
    (h : withoutBrackets? (lowered written.toList) = none) :
    (canonical d written).toList = ofElement d (lowered written.toList) := by
  rw [canonical, parts_of_none h]
  simp only [Bool.false_eq_true, if_false, toList_named, ofElement, elementArguments,
    elementName]
  rfl

theorem toList_canonical_of_some {d : Dialect} {written : String} {inner : List Char}
    (h : withoutBrackets? (lowered written.toList) = some inner) :
    (canonical d written).toList = ofElement d (Text.trimEnd inner) ++ "[]".toList := by
  rw [canonical, parts_of_some h]
  simp only [if_true, String.toList_append, toList_named, ofElement, elementArguments,
    elementName]
  rfl

/-! ### Words of the type in front -/

theorem elementBase_of_not_mem {s : List Char} (h : ')' ∉ s) :
    elementBase s = (splitArguments s).1 := by
  rw [elementBase, afterLast?_of_not_mem h]
  rfl

/-- Words behind the last parenthesis belong to the type. -/
theorem words_elementBase {t : List Char} (h : ')' ∉ t) (s : List Char) :
    words (elementBase (s ++ ')' :: t))
      = words (splitArguments (s ++ ')' :: t)).1 ++ words t := by
  rw [elementBase, afterLast?_append h, Option.getD_some]
  by_cases ht : Text.trim t = []
  · have hnone : words t = [] := by
      rw [← words_trim, ht]
      rfl
    simp only [ht, List.isEmpty_nil, if_true, hnone, List.append_nil]
  · have hsome : (Text.trim t).isEmpty = false := by
      rw [List.isEmpty_eq_false_iff]
      exact ht
    simp only [hsome, Bool.false_eq_true, if_false]
    rw [words_append_cons (by decide), words_trim]

theorem count_elementBase {c : Char} (hc : Text.isBlank c = false) {t : List Char} (h : ')' ∉ t)
    (s : List Char) : (elementBase (s ++ ')' :: t)).count c
      = (splitArguments (s ++ ')' :: t)).1.count c + t.count c := by
  rw [← count_words hc, words_elementBase h, List.flatten_append, List.count_append,
    count_words hc, count_words hc]

/-! ### Names from tables -/

/-- What the tables hold of names: no names with brackets or parentheses, which stand for names
without underscores and brackets. -/
def IsTidy (entry : String × String) : Prop :=
  '(' ∉ entry.1.toList ∧ '[' ∉ entry.1.toList ∧ '_' ∉ entry.2.toList ∧ '[' ∉ entry.2.toList

instance (entry : String × String) : Decidable (IsTidy entry) := by
  unfold IsTidy
  infer_instance

theorem isTidy_of_mem : ∀ names ∈ [mySqlNames, postgresNames, msSqlNames, sharedNames],
    ∀ entry ∈ names, IsTidy entry := by
  decide

theorem isTidy_of_lookup {names : List (String × String)}
    (hnames : names ∈ [mySqlNames, postgresNames, msSqlNames, sharedNames]) {base name : String}
    (h : names.lookup base = some name) : IsTidy (base, name) :=
  isTidy_of_mem names hnames (base, name) (mem_of_lookup h)

theorem isTidy_of_ofDialect? {d : Dialect} {base name : String} {arguments : List Char}
    (h : ofDialect? d base arguments = some name) : IsTidy (base, name) := by
  cases d with
  | mySql =>
    rw [ofDialect?] at h
    split at h
    · rename_i htiny
      obtain rfl := Option.some.inj h
      rw [htiny.1]
      decide
    · exact isTidy_of_lookup (by simp) h
  | postgres => exact isTidy_of_lookup (by simp) h
  | msSql => exact isTidy_of_lookup (by simp) h

/-- A name comes from a table, or it is the words themselves. -/
theorem elementName_cases (d : Dialect) (s : List Char) :
    (elementName d s).toList = glue (elementBase s)
      ∨ IsTidy (String.ofList (elementBase s), elementName d s) := by
  unfold elementName
  cases hdialect : ofDialect? d (String.ofList (elementBase s)) (splitArguments s).2 with
  | some name => exact .inr (isTidy_of_ofDialect? hdialect)
  | none =>
    rw [Option.getD_none, shared]
    cases hshared : sharedNames.lookup (String.ofList (elementBase s)) with
    | some name => exact .inr (isTidy_of_lookup (by simp) hshared)
    | none => exact .inl String.toList_ofList

/-- Words with brackets are in no table. -/
theorem toList_elementName_of_mem {d : Dialect} {s : List Char} (h : '[' ∈ elementBase s) :
    (elementName d s).toList = glue (elementBase s) := by
  rcases elementName_cases d s with hglue | ⟨-, hbase, -⟩
  · exact hglue
  · exact absurd (by rwa [String.toList_ofList]) hbase

theorem keepsArguments_of_mem {name : String} (h : '[' ∈ name.toList) :
    keepsArguments name = false := by
  have hnone : ∀ kept ∈ ["varchar", "char", "decimal", "varbinary", "binary"],
      '[' ∉ kept.toList := by
    decide
  rw [keepsArguments, Bool.eq_false_iff]
  intro hkept
  exact hnone name (List.contains_iff_mem.1 hkept) h

/-- **A type with brackets among its words is left as it is.** -/
theorem ofElement_of_mem {d : Dialect} {s : List Char} (h : '[' ∈ elementBase s) :
    ofElement d s = glue (elementBase s) := by
  have hname := toList_elementName_of_mem (d := d) h
  have hbracket : '[' ∈ (elementName d s).toList := by
    rw [hname]
    exact (mem_glue_iff (by decide) (by decide)).2 h
  rw [ofElement, elementArguments, keepsArguments_of_mem hbracket, hname]
  exact List.append_nil _

theorem count_elementName_le (d : Dialect) (s : List Char) :
    (elementName d s).toList.count '[' ≤ (elementBase s).count '[' := by
  rcases elementName_cases d s with hglue | ⟨-, -, -, hname⟩
  · rw [hglue, count_glue (by decide) (by decide)]
  · rw [List.count_eq_zero.2 hname]
    exact Nat.zero_le _

/-- Arguments begin with a parenthesis. -/
theorem elementArguments_cases (d : Dialect) (s : List Char) :
    elementArguments d s = [] ∨ ∃ t, elementArguments d s = '(' :: t := by
  rw [elementArguments]
  split
  · rw [splitArguments]
    split
    · rw [List.filter_cons_of_pos (by decide)]
      exact .inr ⟨_, rfl⟩
    · exact .inl rfl
  · exact .inl rfl

/-- No type is its words and one more sign to glue with. -/
theorem ofElement_ne (d : Dialect) (s : List Char) :
    ofElement d s ≠ glue (elementBase s) ++ ['_'] := by
  intro h
  rw [ofElement] at h
  rcases elementName_cases d s with hglue | ⟨hparenthesis, -, hunderscore, -⟩
  · -- the arguments would have to be the sign
    rw [hglue, List.append_right_inj] at h
    rcases elementArguments_cases d s with hnone | ⟨t, ht⟩
    · rw [hnone] at h
      cases h
    · rw [ht] at h
      cases h
  · rcases elementArguments_cases d s with hnone | ⟨t, ht⟩
    · rw [hnone, List.append_nil] at h
      apply hunderscore
      show '_' ∈ (elementName d s).toList
      rw [h]
      exact List.mem_append_right _ List.mem_cons_self
    · have hmem : '(' ∈ glue (elementBase s) ++ ['_'] := by
        rw [← h, ht]
        exact List.mem_append_right _ List.mem_cons_self
      have hglue : '(' ∈ glue (elementBase s) := by simpa using hmem
      apply hparenthesis
      rw [String.toList_ofList]
      exact (mem_glue_iff (by decide) (by decide)).1 hglue

end SchemaAudit.TypeName
