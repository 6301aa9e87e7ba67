import SchemaAudit.Proofs.Text.Classes
import SchemaAudit.Proofs.Text.Search
import SchemaAudit.Proofs.Text.LetterCase
import SchemaAudit.Proofs.Text.Lines
import SchemaAudit.TypeName

/-!
# Canonical types stay as they are

A type that is already spelled in the canonical way means itself in every dialect.

* `parts_word`, `parts_sized`: the parts of one word, and of one word with arguments.
* `canonical_word`, `canonical_sized`: a name that every dialect shares and that stands for itself
  is its own canonical type; with arguments too, if types of that name keep theirs.
* `unspaced_canonical`: whatever is written, its canonical type has no blanks.
-/

namespace SchemaAudit.TypeName

/-- A character that neither trimming nor lower case changes. -/
def isInk (c : Char) : Bool := Text.isLowAscii c && !Text.isBlank c

/-- A character of a canonical type outside of parentheses and brackets. -/
def isPart (c : Char) : Bool := isInk c && !(['(', ')', '[', ']'].contains c)

theorem all_isInk {s : List Char} (h : s.all isPart = true) : s.all isInk = true := by
  refine List.all_eq_true.2 fun c hc => ?_
  have hpart := List.all_eq_true.1 h c hc
  simp only [isPart, Bool.and_eq_true] at hpart
  exact hpart.1

theorem isBlank_of_all_isInk {s : List Char} (h : s.all isInk = true) :
    ∀ c ∈ s, Text.isBlank c = false := by
  intro c hc
  have hink := List.all_eq_true.1 h c hc
  simp only [isInk, Bool.and_eq_true, Bool.not_eq_true'] at hink
  exact hink.2

theorem not_mem_of_isPart {s : List Char} (h : s.all isPart = true) {d : Char}
    (hd : isPart d = false) : d ∉ s := by
  intro hm
  rw [List.all_eq_true.1 h d hm] at hd
  exact absurd hd (by decide)

theorem isPart_of_isDigit {c : Char} (h : Text.isDigit c = true) : isPart c = true := by
  have hblank := Text.isBlank_of_isDigit h
  have hmarks : c ∉ ['(', ')', '[', ']'] := by
    intro hm
    have hnone : ['(', ')', '[', ']'].all (fun d => !Text.isDigit d) = true := by decide
    have hc := List.all_eq_true.1 hnone c hm
    rw [h] at hc
    exact absurd hc (by decide)
  simp only [Text.isDigit, Bool.and_eq_true, decide_eq_true_eq] at h
  have hlow : Text.asciiLower c = c := by
    rw [Text.asciiLower, if_neg]
    simp
    omega
  have hascii : c.toNat < 128 := by omega
  simp only [isPart, isInk, Text.isLowAscii, hascii, hlow, hblank]
  simpa using hmarks

theorem isPart_toString (n : Nat) : (toString n).toList.all isPart = true :=
  List.all_eq_true.2 fun _ hc => isPart_of_isDigit (Text.isDigit_of_mem_toString hc)

/-! ### The parts of a canonical type -/

theorem withoutBrackets?_append_singleton {c : Char} (hc : c ≠ ']') (s : List Char) :
    withoutBrackets? (s ++ [c]) = none := by
  unfold withoutBrackets?
  rw [List.reverse_append, List.reverse_singleton, List.singleton_append]
  split
  · rename_i heq
    exact absurd (List.cons.inj heq).1 hc
  · rfl

/-- A text without blanks and capitals is left as it is. -/
theorem toLower_trim {s : List Char} (h : s.all isInk = true) :
    Text.toLower (Text.trim s) = s := by
  have hlow : s.all Text.isLowAscii = true := by
    refine List.all_eq_true.2 fun c hc => ?_
    have hink := List.all_eq_true.1 h c hc
    simp only [isInk, Bool.and_eq_true] at hink
    exact hink.1
  rw [Text.trim_of_forall (isBlank_of_all_isInk h), Text.toLower_of_isLowAscii hlow]

theorem parts_of_splitArguments {s before arguments : List Char}
    (hlower : Text.toLower (Text.trim s) = s) (hbrackets : withoutBrackets? s = none)
    (hsplit : splitArguments s = (before, arguments)) (hlast : (afterLast? ')' s).getD [] = []) :
    parts s = ⟨before, arguments, false⟩ := by
  have htrailing : Text.trim ([] : List Char) = [] := rfl
  simp [parts, hlower, hbrackets, hsplit, hlast, htrailing]

theorem parts_word {s : List Char} (hne : s ≠ []) (h : s.all isPart = true) :
    parts s = ⟨s, [], false⟩ := by
  have hbrackets : withoutBrackets? s = none := by
    rw [← List.dropLast_concat_getLast hne]
    refine withoutBrackets?_append_singleton (fun e => ?_) _
    exact not_mem_of_isPart h (by decide : isPart ']' = false) (e ▸ List.getLast_mem hne)
  have hopen : '(' ∉ s := not_mem_of_isPart h (by decide)
  have hclose : ')' ∉ s.reverse := by
    rw [List.mem_reverse]
    exact not_mem_of_isPart h (by decide)
  refine parts_of_splitArguments (toLower_trim (all_isInk h)) hbrackets ?_ ?_
  · rw [splitArguments, Text.cutAt?_of_not_mem hopen]
  · rw [afterLast?, Text.cutAt?_of_not_mem hclose]
    rfl

/-- A word with arguments in parentheses. -/
def sized (s arguments : List Char) : List Char := s ++ '(' :: (arguments ++ [')'])

theorem sized_eq_concat (s arguments : List Char) :
    sized s arguments = (s ++ '(' :: arguments) ++ [')'] := by
  rw [sized, ← List.cons_append, ← List.append_assoc]

theorem withoutBrackets?_sized (s arguments : List Char) :
    withoutBrackets? (sized s arguments) = none := by
  rw [sized_eq_concat]
  exact withoutBrackets?_append_singleton (by decide) _

theorem all_isInk_sized {s arguments : List Char} (hs : s.all isPart = true)
    (ha : arguments.all isPart = true) : (sized s arguments).all isInk = true := by
  rw [sized, List.all_append, List.all_cons, List.all_append, all_isInk hs, all_isInk ha]
  decide

theorem parts_sized {s arguments : List Char} (hs : s.all isPart = true)
    (ha : arguments.all isPart = true) :
    parts (sized s arguments) = ⟨s, '(' :: (arguments ++ [')']), false⟩ := by
  have hink := all_isInk_sized hs ha
  refine parts_of_splitArguments (toLower_trim hink) (withoutBrackets?_sized s arguments) ?_ ?_
  · have hopen : '(' ∉ s := not_mem_of_isPart hs (by decide)
    have htrim : Text.trim s = s := Text.trim_of_forall (isBlank_of_all_isInk (all_isInk hs))
    have hfilter : ('(' :: (arguments ++ [')'])).filter (fun c => !Text.isBlank c)
        = '(' :: (arguments ++ [')']) := by
      refine List.filter_eq_self.2 fun c hc => ?_
      rw [isBlank_of_all_isInk hink c (List.mem_append_right s hc)]
      rfl
    rw [splitArguments, sized, Text.cutAt?_append hopen]
    simp only [htrim, hfilter]
  · rw [afterLast?, sized_eq_concat, List.reverse_append, List.reverse_singleton, List.singleton_append,
      Text.cutAt?, if_pos rfl]
    rfl

/-! ### Names that stand for themselves -/

/-- A name that means itself in every dialect. -/
def IsShared (name : String) : Prop :=
  name.toList ≠ [] ∧ name.toList.all isPart = true ∧ sharedNames.lookup name = some name
    ∧ name ≠ "tinyint" ∧ mySqlNames.lookup name = none ∧ postgresNames.lookup name = none
    ∧ msSqlNames.lookup name = none

instance (name : String) : Decidable (IsShared name) := by
  unfold IsShared
  infer_instance

theorem IsShared.name_eq {name : String} (h : IsShared name) (dialect : Dialect)
    (arguments : List Char) :
    (ofDialect? dialect (String.ofList name.toList) arguments).getD (shared name.toList) = name := by
  obtain ⟨-, -, hlookup, htiny, hmy, hpost, hms⟩ := h
  have hnone : ofDialect? dialect name arguments = none := by
    cases dialect with
    | mySql => simp [ofDialect?, htiny, hmy]
    | postgres => exact hpost
    | msSql => exact hms
  rw [String.ofList_toList, hnone, Option.getD_none, shared, String.ofList_toList, hlookup]

theorem canonical_word {name : String} (h : IsShared name) (dialect : Dialect) :
    canonical dialect name = name := by
  rw [canonical, parts_word h.1 h.2.1]
  simp only [h.name_eq]
  by_cases hk : keepsArguments name = true
  · simp [hk]
  · simp [hk]

/-- **A canonical type with arguments means itself in every dialect.** -/
theorem canonical_sized {name : String} (h : IsShared name) (hk : keepsArguments name = true)
    {arguments : List Char} (ha : arguments.all isPart = true) (dialect : Dialect) :
    canonical dialect (String.ofList (sized name.toList arguments))
      = String.ofList (sized name.toList arguments) := by
  rw [canonical, String.toList_ofList, parts_sized h.2.1 ha]
  simp only [h.name_eq, if_pos hk]
  rw [sized, String.ofList_append, String.ofList_toList]
  rfl

/-! ### Canonical types have no blanks -/

/-- No character of the text is a blank. -/
def Unspaced (s : List Char) : Prop := ∀ c ∈ s, Text.isBlank c = false

theorem Unspaced.append {s t : List Char} (hs : Unspaced s) (ht : Unspaced t) :
    Unspaced (s ++ t) := by
  intro c hc
  rcases List.mem_append.1 hc with hc | hc
  · exact hs c hc
  · exact ht c hc

theorem unspaced_of_all {s : List Char} (h : s.all (fun c => !Text.isBlank c) = true) :
    Unspaced s := by
  intro c hc
  simpa using List.all_eq_true.1 h c hc

theorem mem_of_lookup {names : List (String × String)} {name found : String}
    (h : names.lookup name = some found) : (name, found) ∈ names := by
  obtain ⟨before, behind, rfl, -⟩ := List.lookup_eq_some_iff.1 h
  exact List.mem_append_right before List.mem_cons_self

theorem unspaced_of_lookup {names : List (String × String)}
    (hnames : names.all (fun p => p.2.toList.all fun c => !Text.isBlank c) = true)
    {name found : String} (h : names.lookup name = some found) : Unspaced found.toList :=
  unspaced_of_all (List.all_eq_true.1 hnames (name, found) (mem_of_lookup h))

theorem unspaced_words (s : List Char) : ∀ word ∈ words s, Unspaced word :=
  fun word hword => Text.forall_mem_splitOnP Text.isBlank s word (List.mem_filter.1 hword).1

theorem unspaced_shared (base : List Char) : Unspaced (shared base).toList := by
  rw [shared]
  split
  · rename_i name hname
    exact unspaced_of_lookup (by decide) hname
  · rw [String.toList_ofList]
    exact Text.forall_mem_intercalate (unspaced_of_all (by decide)) (unspaced_words base)

theorem unspaced_ofDialect? {dialect : Dialect} {base : String} {arguments : List Char}
    {name : String} (h : ofDialect? dialect base arguments = some name) :
    Unspaced name.toList := by
  cases dialect with
  | mySql =>
    simp only [ofDialect?] at h
    split at h
    · obtain rfl := Option.some.inj h
      exact unspaced_of_all (by decide)
    · exact unspaced_of_lookup (by decide) h
  | postgres => exact unspaced_of_lookup (by decide) h
  | msSql => exact unspaced_of_lookup (by decide) h

theorem unspaced_splitArguments (s : List Char) : Unspaced (splitArguments s).2 := by
  rw [splitArguments]
  split
  · intro c hc
    simpa using (List.mem_filter.1 hc).2
  · exact unspaced_of_all rfl

/-- **A canonical type has no blanks**, however it is written. -/
theorem unspaced_canonical (dialect : Dialect) (written : String) :
    Unspaced (canonical dialect written).toList := by
  have harguments : Unspaced (parts written.toList).arguments := unspaced_splitArguments _
  simp only [canonical]
  generalize parts written.toList = p at harguments ⊢
  have hname : Unspaced ((ofDialect? dialect (String.ofList p.base) p.arguments).getD
      (shared p.base)).toList := by
    cases hd : ofDialect? dialect (String.ofList p.base) p.arguments with
    | none => exact unspaced_shared p.base
    | some name => exact unspaced_ofDialect? hd
  generalize (ofDialect? dialect (String.ofList p.base) p.arguments).getD (shared p.base) = name
    at hname ⊢
  have hsized : Unspaced (if keepsArguments name then name ++ String.ofList p.arguments
      else name).toList := by
    split
    · rw [String.toList_append, String.toList_ofList]
      exact hname.append harguments
    · exact hname
  have hbrackets : Unspaced "[]".toList := unspaced_of_all (by decide)
  split
  · rw [String.toList_append]
    exact hsized.append hbrackets
  · exact hsized

end SchemaAudit.TypeName
