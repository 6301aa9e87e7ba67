import SchemaAudit.Proofs.Text.Collapse
import SchemaAudit.Proofs.Text.LowerCase
import SchemaAudit.Proofs.TypeName.Element

/-!
# Canonical types of canonical types

A name that a table gives is looked up once more and found to stand for itself. Words that no table
lists are glued to one word, which no table lists either. So a name that has become canonical stays,
and so do the arguments that it keeps: they are in lower case and without blanks already.

* `IsSettled`: a name that stands for itself, whatever its arguments are; `isSettled_nameOf`: words
  become such a name.
* `IsCanonical`: a settled name, alone or with the arguments that it keeps; such a type stays
  (`IsCanonical.canonical_eq`).
* `isCanonical_words`, `isCanonical_sized`: words become such a type, alone or with arguments.
* `canonical_stable`: a canonical type is one word, and its own canonical type.
-/

namespace SchemaAudit.TypeName

/-! ### Names in tables -/

/-- The name that words with arguments become. -/
def nameOf (d : Dialect) (base arguments : List Char) : String :=
  (ofDialect? d (String.ofList base) arguments).getD (shared base)

/-- A name that stands for itself, whatever its arguments are. -/
structure IsSettled (d : Dialect) (name : String) : Prop where
  parts : name.toList.all isPart = true
  stays : ∀ arguments, nameOf d name.toList arguments = name

/-- The names that one dialect gives a meaning of its own. -/
def dialectNames : Dialect → List (String × String)
  | .mySql => mySqlNames
  | .postgres => postgresNames
  | .msSql => msSqlNames

theorem ofDialect?_of_ne {d : Dialect} {base : String} (h : base ≠ "tinyint")
    (arguments : List Char) : ofDialect? d base arguments = (dialectNames d).lookup base := by
  cases d with
  | mySql => exact if_neg fun htiny => h htiny.1
  | postgres => rfl
  | msSql => rfl

theorem ofDialect?_eq_none_iff {d : Dialect} {base : String} {arguments : List Char} :
    ofDialect? d base arguments = none ↔ (dialectNames d).lookup base = none := by
  by_cases h : base = "tinyint"
  · subst h
    cases d with
    | mySql =>
      have hlisted : mySqlNames.lookup "tinyint" = some "smallint" := by decide
      rw [ofDialect?, dialectNames, hlisted]
      split <;> simp
    | postgres => exact Iff.rfl
    | msSql => exact Iff.rfl
  · rw [ofDialect?_of_ne h]

/-- The tables of a dialect give the name to itself. -/
def IsFixed (d : Dialect) (name : String) : Prop :=
  name.toList.all isPart = true ∧ name ≠ "tinyint" ∧
    ((dialectNames d).lookup name <|> sharedNames.lookup name) = some name

instance (d : Dialect) (name : String) : Decidable (IsFixed d name) := by
  unfold IsFixed
  infer_instance

theorem IsFixed.isSettled {d : Dialect} {name : String} (h : IsFixed d name) :
    IsSettled d name := by
  obtain ⟨hparts, htiny, hlookup⟩ := h
  refine ⟨hparts, fun arguments => ?_⟩
  rw [nameOf, shared, String.ofList_toList, ofDialect?_of_ne htiny]
  cases hdialect : (dialectNames d).lookup name with
  | some found =>
    rw [hdialect] at hlookup
    exact Option.some.inj hlookup
  | none =>
    have hshared : sharedNames.lookup name = some name := by
      rw [hdialect] at hlookup
      exact hlookup
    rw [hshared]
    rfl

/-- **What a table gives is final.** -/
theorem isFixed_of_mem (d : Dialect) :
    ∀ names ∈ [dialectNames d, sharedNames], ∀ entry ∈ names, IsFixed d entry.2 := by
  cases d <;> decide

theorem isFixed_of_lookup {d : Dialect} {names : List (String × String)}
    (hnames : names ∈ [dialectNames d, sharedNames]) {base name : String}
    (h : names.lookup base = some name) : IsFixed d name :=
  isFixed_of_mem d names hnames (base, name) (mem_of_lookup h)

theorem isFixed_of_ofDialect? {d : Dialect} {base name : String} {arguments : List Char}
    (h : ofDialect? d base arguments = some name) : IsFixed d name := by
  cases d with
  | mySql =>
    rw [ofDialect?] at h
    split at h
    · obtain rfl := Option.some.inj h
      decide
    · exact isFixed_of_lookup (d := .mySql) List.mem_cons_self h
  | postgres => exact isFixed_of_lookup (d := .postgres) List.mem_cons_self h
  | msSql => exact isFixed_of_lookup (d := .msSql) List.mem_cons_self h

/-! ### Words that no table lists -/

theorem words_ne_nil_of_mem {c : Char} {s : List Char} (hc : Text.isBlank c = false) (h : c ∈ s) :
    words s ≠ [] := by
  intro hnil
  have hflat := flatten_words s
  have hmem : c ∈ s.filter fun c => !Text.isBlank c := List.mem_filter.2 ⟨h, by simp [hc]⟩
  rw [← hflat, hnil] at hmem
  exact absurd hmem List.not_mem_nil

theorem glue_of_unspaced {s : List Char} (h : Unspaced s) : glue s = s := by
  by_cases hne : s = []
  · rw [hne]
    rfl
  · rw [glue, words_of_forall hne h]
    simp [Text.join]

theorem unspaced_glue (s : List Char) : Unspaced (glue s) :=
  Text.forall_mem_intercalate (unspaced_of_all (by decide)) (unspaced_words s)

theorem all_isPart_glue {s : List Char} (h : ∀ c ∈ s, Text.isBlank c = false → isPart c = true) :
    (glue s).all isPart = true := by
  refine List.all_eq_true.2 (Text.forall_mem_intercalate ?_ fun word hword c hc => ?_)
  · exact List.forall_mem_singleton.2 (by decide)
  · have hflat : c ∈ s.filter fun c => !Text.isBlank c := by
      rw [← flatten_words]
      exact List.mem_flatten.2 ⟨word, hword, hc⟩
    exact h c (List.mem_filter.1 hflat).1 (unspaced_words s word hword c hc)

/-- Two texts are glued by a sign. -/
theorem underscore_mem_join {front back : List (List Char)} (hfront : front ≠ [])
    (hback : back ≠ []) : '_' ∈ Text.join ['_'] (front ++ back) := by
  rcases List.eq_nil_or_concat back with hnil | ⟨others, last, rfl⟩
  · exact absurd hnil hback
  · have hne : front ++ others ≠ [] := by simp [hfront]
    rw [List.concat_eq_append, ← List.append_assoc, join_append_singleton hne]
    exact List.mem_append_right _ List.mem_cons_self

/-- A trimmed text is one word, or its words are glued together. -/
theorem glue_eq_self_or_mem {s : List Char} (h : Text.trim s = s) : glue s = s ∨ '_' ∈ glue s := by
  by_cases hunspaced : Unspaced s
  · exact .inl (glue_of_unspaced hunspaced)
  · -- a blank inside of the text has a word on either side
    simp only [Unspaced, not_forall, Bool.not_eq_false] at hunspaced
    obtain ⟨c, hmem, hc⟩ := hunspaced
    obtain ⟨front, back, rfl⟩ := List.append_of_mem hmem
    obtain ⟨hhead, hlast⟩ := Text.ends_of_trim h
    refine .inr ?_
    rw [glue, words_append_cons hc]
    refine underscore_mem_join ?_ ?_
    · cases front with
      | nil => exact absurd (hhead c rfl) (by simp [hc])
      | cons x front => exact words_ne_nil_of_mem (hhead x rfl) List.mem_cons_self
    · rcases List.eq_nil_or_concat back with rfl | ⟨others, x, rfl⟩
      · exact absurd (hlast c (by simp)) (by simp [hc])
      · have hx : x ∈ (front ++ c :: others.concat x).getLast? := by
          rw [List.concat_eq_append, ← List.cons_append, ← List.append_assoc,
            List.getLast?_concat]
          rfl
        exact words_ne_nil_of_mem (hlast x hx) (by simp)

/-- No table lists names with the sign that words are glued with. -/
theorem underscore_not_mem (d : Dialect) :
    ∀ names ∈ [dialectNames d, sharedNames], ∀ entry ∈ names, '_' ∉ entry.1.toList := by
  cases d <;> decide

theorem lookup_eq_none_of_mem {d : Dialect} {names : List (String × String)}
    (hnames : names ∈ [dialectNames d, sharedNames]) {s : List Char} (h : '_' ∈ s) :
    names.lookup (String.ofList s) = none := by
  rw [Option.eq_none_iff_forall_ne_some]
  intro name hname
  refine underscore_not_mem d names hnames (String.ofList s, name) (mem_of_lookup hname) ?_
  rwa [String.toList_ofList]

/-- Words that no table lists become a name that stays. -/
theorem isSettled_glue {d : Dialect} {base : List Char} (htrim : Text.trim base = base)
    (hparts : ∀ c ∈ base, Text.isBlank c = false → isPart c = true)
    (hnone : ∀ names ∈ [dialectNames d, sharedNames], names.lookup (String.ofList base) = none) :
    IsSettled d (String.ofList (glue base)) := by
  have hglued : ∀ names ∈ [dialectNames d, sharedNames],
      names.lookup (String.ofList (glue base)) = none := by
    intro names hnames
    rcases glue_eq_self_or_mem htrim with hself | hmem
    · rw [hself]
      exact hnone names hnames
    · exact lookup_eq_none_of_mem hnames hmem
  have hshared := hglued sharedNames (by simp)
  refine ⟨?_, fun arguments => ?_⟩
  · rw [String.toList_ofList]
    exact all_isPart_glue hparts
  · have hdialect : ofDialect? d (String.ofList (glue base)) arguments = none :=
      ofDialect?_eq_none_iff.2 (hglued (dialectNames d) List.mem_cons_self)
    rw [nameOf, String.toList_ofList, hdialect, Option.getD_none, shared, hshared]
    show String.ofList (glue (glue base)) = _
    rw [glue_of_unspaced (unspaced_glue base)]

/-- **Every name that words become stays.** -/
theorem isSettled_nameOf {d : Dialect} {base : List Char} (htrim : Text.trim base = base)
    (hparts : ∀ c ∈ base, Text.isBlank c = false → isPart c = true) (arguments : List Char) :
    IsSettled d (nameOf d base arguments) := by
  rw [nameOf]
  cases hdialect : ofDialect? d (String.ofList base) arguments with
  | some name => exact (isFixed_of_ofDialect? hdialect).isSettled
  | none =>
    rw [Option.getD_none, shared]
    cases hshared : sharedNames.lookup (String.ofList base) with
    | some name => exact (isFixed_of_lookup (by simp) hshared).isSettled
    | none =>
      refine isSettled_glue htrim hparts fun names hnames => ?_
      rcases List.mem_pair.1 hnames with rfl | rfl
      · exact ofDialect?_eq_none_iff.1 hdialect
      · exact hshared

/-! ### Types of words -/

/-- ASCII words with spaces between them. -/
def AreWords (s : List Char) : Prop := ∀ c ∈ s, Text.asciiWord.covers c.toNat = true ∨ c = ' '

instance (s : List Char) : Decidable (AreWords s) := List.decidableBAll _ s

theorem isPart_asciiLower {c : Char} (h : Text.asciiWord.covers c.toNat = true) :
    isPart (Text.asciiLower c) = true :=
  List.all_eq_true.1 (by decide : Text.asciiWord.chars.all (fun c => isPart (Text.asciiLower c)))
    c (Text.mem_chars h)

namespace AreWords

variable {s : List Char}

theorem lt (h : AreWords s) : ∀ c ∈ s, c.toNat < 128 := by
  intro c hc
  rcases h c hc with hword | rfl
  · exact Text.lt_of_asciiWord hword
  · decide

theorem mem_lower (h : AreWords s) {c : Char} (hc : c ∈ s.map Text.asciiLower) :
    isPart c = true ∨ c = ' ' := by
  obtain ⟨d, hd, rfl⟩ := List.mem_map.1 hc
  rcases h d hd with hword | rfl
  · exact .inl (isPart_asciiLower hword)
  · exact .inr rfl

theorem isPart_lower (h : AreWords s) :
    ∀ c ∈ s.map Text.asciiLower, Text.isBlank c = false → isPart c = true := by
  intro c hc hink
  rcases h.mem_lower hc with hpart | rfl
  · exact hpart
  · exact absurd hink (by decide)

theorem not_mem_lower (h : AreWords s) {c : Char} (hpart : isPart c = false) (hc : c ≠ ' ') :
    c ∉ s.map Text.asciiLower := by
  intro hmem
  rcases h.mem_lower hmem with hyes | hspace
  · rw [hpart] at hyes
    cases hyes
  · exact hc hspace

end AreWords

theorem lowered_words {s : List Char} (h : AreWords s) :
    lowered s = Text.trim (s.map Text.asciiLower) := by
  rw [lowered, Text.trim_map_asciiLower]
  exact Text.toLower_of_ascii fun c hc => h.lt c (Text.trim_subset s hc)

theorem partsWords_of_mem : ∀ c ∈ ['(', ')'], Text.PartsWords c := by
  intro c hc
  rcases List.mem_pair.1 hc with rfl | rfl
  · exact ⟨by decide, by decide⟩
  · exact ⟨by decide, by decide⟩

theorem trim_sized (s arguments : List Char) :
    Text.trim (sized s arguments) = sized (Text.trimStart s) arguments := by
  rw [Text.trim, sized, Text.trimStart_append_cons (by decide), ← sized, sized_eq_concat]
  exact Text.trimEnd_append_singleton (by decide) _

/-- Words and what follows them in parentheses are put in lower case one by one. -/
theorem lowered_sized {s : List Char} (h : AreWords s) (arguments : List Char) :
    ∃ low, (∀ c ∈ low, Text.IsLow c) ∧
      lowered (sized s arguments) = sized (Text.trimStart (s.map Text.asciiLower)) low := by
  have hwords : Text.toLower (Text.trimStart s) = Text.trimStart (s.map Text.asciiLower) := by
    rw [Text.trimStart_map_asciiLower]
    exact Text.toLower_of_ascii fun c hc => h.lt c ((List.dropWhile_sublist _).subset hc)
  have hopen : ∀ c ∈ ('(' :: (arguments ++ [')'])).head?, Text.PartsWords c := by
    rintro c ⟨⟩
    exact partsWords_of_mem '(' (by simp)
  have hclose : ∀ c ∈ [')'].head?, Text.PartsWords c := by
    rintro c ⟨⟩
    exact partsWords_of_mem ')' (by simp)
  refine ⟨Text.lowerAfter ('(' :: ((Text.trimStart s).reverse ++ [])) arguments,
    fun c hc => Text.isLow_of_mem_lowerAfter hc, ?_⟩
  rw [lowered, trim_sized, sized, Text.toLower, Text.lowerAfter_append hopen, ← Text.toLower, hwords,
    Text.lowerAfter, Text.lowerAfter_append hclose]
  rfl

/-! ### Canonical types -/

/-- A settled name, alone or with the arguments that it keeps. -/
inductive IsCanonical (d : Dialect) : List Char → Prop
  | name {n : String} : IsSettled d n → IsCanonical d n.toList
  | sized {n : String} {arguments : List Char} : IsSettled d n → keepsArguments n = true →
      (∀ c ∈ arguments, Text.isBlank c = false ∧ Text.IsLow c) →
      IsCanonical d (sized n.toList arguments)

/-- A name with the arguments that it keeps. -/
def withArguments (name : String) (arguments : List Char) : List Char :=
  name.toList ++ if keepsArguments name then arguments else []

theorem ofElement_of_not_mem {d : Dialect} {s : List Char} (hopen : '(' ∉ s) (hclose : ')' ∉ s) :
    ofElement d s = withArguments (nameOf d s []) [] := by
  have hsplit := splitArguments_of_not_mem hopen
  have hbase : elementBase s = s := by
    rw [elementBase_of_not_mem hclose, hsplit]
  simp only [ofElement, elementArguments, elementName, hbase, hsplit]
  rfl

theorem ofElement_sized {d : Dialect} {s : List Char} (hopen : '(' ∉ s) (arguments : List Char) :
    ofElement d (sized s arguments)
      = withArguments
          (nameOf d (Text.trim s) (sized [] (arguments.filter fun c => !Text.isBlank c)))
          (sized [] (arguments.filter fun c => !Text.isBlank c)) := by
  have hsplit : splitArguments (sized s arguments)
      = (Text.trim s, sized [] (arguments.filter fun c => !Text.isBlank c)) := by
    rw [sized, splitArguments_append hopen, List.filter_append]
    rfl
  have hlast : afterLast? ')' (sized s arguments) = some [] := by
    rw [sized_eq_concat]
    exact afterLast?_append List.not_mem_nil _
  have hbase : elementBase (sized s arguments) = Text.trim s := by
    rw [elementBase, hlast, hsplit]
    rfl
  simp only [ofElement, elementArguments, elementName, hbase, hsplit]
  rfl

theorem withoutBrackets?_of_not_mem {s : List Char} (h : ']' ∉ s) : withoutBrackets? s = none := by
  cases hs : withoutBrackets? s with
  | none => rfl
  | some inner =>
    rw [withoutBrackets?_eq_some_iff.1 hs] at h
    exact absurd (by simp) h

theorem isLow_of_isPart {c : Char} (h : isPart c = true) : Text.IsLow c := by
  simp only [isPart, isInk, Text.isLowAscii, Bool.and_eq_true, decide_eq_true_eq, beq_iff_eq] at h
  obtain ⟨⟨⟨hascii, hlow⟩, -⟩, -⟩ := h
  refine ⟨by omega, ?_⟩
  rw [Text.lowerChar_of_ascii hascii, hlow]

theorem lowered_of_forall {s : List Char} (h : ∀ c ∈ s, Text.isBlank c = false ∧ Text.IsLow c) :
    lowered s = s := by
  rw [lowered, Text.trim_of_forall fun c hc => (h c hc).1]
  exact Text.lowerAfter_of_isLow (fun c hc => (h c hc).2) []

namespace IsSettled

variable {d : Dialect} {n : String}

theorem forall_mem (h : IsSettled d n) :
    ∀ c ∈ n.toList, Text.isBlank c = false ∧ Text.IsLow c := by
  intro c hc
  refine ⟨isBlank_of_all_isInk (all_isInk h.parts) c hc, ?_⟩
  exact isLow_of_isPart (List.all_eq_true.1 h.parts c hc)

theorem canonical_name (h : IsSettled d n) : canonical d n = n := by
  have hmarks : ∀ c, isPart c = false → c ∉ n.toList := fun c hc => not_mem_of_isPart h.parts hc
  have hlow := lowered_of_forall h.forall_mem
  have hbrackets : withoutBrackets? (lowered n.toList) = none := by
    rw [hlow]
    exact withoutBrackets?_of_not_mem (hmarks ']' (by decide))
  rw [← String.toList_inj, toList_canonical_of_none hbrackets, hlow,
    ofElement_of_not_mem (hmarks '(' (by decide)) (hmarks ')' (by decide)), h.stays, withArguments,
    ite_self, List.append_nil]

theorem canonical_sized (h : IsSettled d n) (hkeeps : keepsArguments n = true)
    {arguments : List Char} (ha : ∀ c ∈ arguments, Text.isBlank c = false ∧ Text.IsLow c) :
    canonical d (String.ofList (sized n.toList arguments))
      = String.ofList (sized n.toList arguments) := by
  have hall : ∀ c ∈ sized n.toList arguments, Text.isBlank c = false ∧ Text.IsLow c := by
    have hmark : ∀ c ∈ ['(', ')'], Text.isBlank c = false ∧ Text.IsLow c :=
      List.forall_mem_cons.2 ⟨by decide, List.forall_mem_singleton.2 (by decide)⟩
    intro c hc
    simp only [sized, List.mem_append, List.mem_cons, List.not_mem_nil, or_false] at hc
    rcases hc with hname | rfl | hargument | rfl
    · exact h.forall_mem c hname
    · exact hmark '(' (by simp)
    · exact ha c hargument
    · exact hmark ')' (by simp)
  have hlow := lowered_of_forall hall
  have hname : Text.trim n.toList = n.toList :=
    Text.trim_of_forall fun c hc => (h.forall_mem c hc).1
  have hopen : '(' ∉ n.toList := not_mem_of_isPart h.parts (by decide)
  have hfilter : (arguments.filter fun c => !Text.isBlank c) = arguments :=
    List.filter_eq_self.2 fun c hc => by simp [(ha c hc).1]
  have hbrackets : withoutBrackets? (lowered (String.ofList (sized n.toList arguments)).toList)
      = none := by
    rw [String.toList_ofList, hlow]
    exact withoutBrackets?_sized _ _
  rw [← String.toList_inj, toList_canonical_of_none hbrackets, String.toList_ofList, hlow,
    ofElement_sized hopen, hname, hfilter, h.stays, withArguments, if_pos hkeeps]
  rfl

end IsSettled

/-- **A canonical type is its own canonical type.** -/
theorem IsCanonical.canonical_eq {d : Dialect} {s : String} (h : IsCanonical d s.toList) :
    canonical d s = s := by
  generalize hs : s.toList = t at h
  cases h with
  | name hsettled =>
    rw [String.toList_inj.1 hs]
    exact hsettled.canonical_name
  | sized hsettled hkeeps harguments =>
    rw [← String.ofList_toList (s := s), hs]
    exact hsettled.canonical_sized hkeeps harguments

theorem isCanonical_withArguments {d : Dialect} {n : String} (h : IsSettled d n)
    {low : List Char} (hlow : ∀ c ∈ low, Text.IsLow c) :
    IsCanonical d (withArguments n (sized [] (low.filter fun c => !Text.isBlank c))) := by
  by_cases hkeeps : keepsArguments n = true
  · rw [withArguments, if_pos hkeeps]
    refine .sized h hkeeps fun c hc => ?_
    obtain ⟨hmem, hink⟩ := List.mem_filter.1 hc
    exact ⟨by simpa using hink, hlow c hmem⟩
  · rw [withArguments, if_neg hkeeps, List.append_nil]
    exact .name h

/-- **Words become a canonical type.** -/
theorem isCanonical_words {d : Dialect} {words : String} (h : AreWords words.toList) :
    IsCanonical d (canonical d words).toList := by
  have hmarks : ∀ c, isPart c = false → c ≠ ' ' →
      c ∉ Text.trim (words.toList.map Text.asciiLower) := fun c hc hspace hm =>
    h.not_mem_lower hc hspace (Text.trim_subset _ hm)
  have hlow := lowered_words h
  have hbrackets : withoutBrackets? (lowered words.toList) = none := by
    rw [hlow]
    exact withoutBrackets?_of_not_mem (hmarks ']' (by decide) (by decide))
  rw [toList_canonical_of_none hbrackets, hlow, ofElement_of_not_mem
    (hmarks '(' (by decide) (by decide)) (hmarks ')' (by decide) (by decide)), withArguments,
    ite_self, List.append_nil]
  exact .name (isSettled_nameOf (Text.trim_trim _)
    (fun c hc => h.isPart_lower c (Text.trim_subset _ hc)) [])

/-- **Words with arguments become a canonical type.** -/
theorem isCanonical_sized {d : Dialect} {words : String} (h : AreWords words.toList)
    (arguments : String) : IsCanonical d (canonical d (words ++ "(" ++ arguments ++ ")")).toList := by
  have htext : (words ++ "(" ++ arguments ++ ")").toList
      = sized words.toList arguments.toList := by
    simp [sized]
  obtain ⟨low, hlow, hlowered⟩ := lowered_sized h arguments.toList
  rw [← htext] at hlowered
  have hsubset : ∀ c ∈ Text.trimStart (words.toList.map Text.asciiLower),
      c ∈ words.toList.map Text.asciiLower := fun c hc => (List.dropWhile_sublist _).subset hc
  have hopen : '(' ∉ Text.trimStart (words.toList.map Text.asciiLower) := fun hm =>
    h.not_mem_lower (by decide) (by decide) (hsubset '(' hm)
  have hbrackets : withoutBrackets? (lowered (words ++ "(" ++ arguments ++ ")").toList) = none := by
    rw [hlowered]
    exact withoutBrackets?_sized _ _
  rw [toList_canonical_of_none hbrackets, hlowered, ofElement_sized hopen]
  refine isCanonical_withArguments (isSettled_nameOf (Text.trim_trim _) (fun c hc => ?_) _) hlow
  exact h.isPart_lower c (hsubset c (Text.trim_subset _ hc))

/-- **Canonical types are one word, and stay.** Whatever is written, its canonical type has no
blanks. What is written in ASCII words, alone or with any arguments in parentheses behind them,
becomes a type that is its own canonical type in the dialect. -/
theorem canonical_stable (d : Dialect) :
    (∀ written : String, Unspaced (canonical d written).toList) ∧
    ∀ words : String, AreWords words.toList →
      canonical d (canonical d words) = canonical d words ∧
      ∀ arguments : String, canonical d (canonical d (words ++ "(" ++ arguments ++ ")"))
        = canonical d (words ++ "(" ++ arguments ++ ")") :=
  ⟨unspaced_canonical d, fun _ h =>
    ⟨(isCanonical_words h).canonical_eq, fun arguments =>
      (isCanonical_sized h arguments).canonical_eq⟩⟩

/-- Words in any letter case, with blanks around them and in their arguments. -/
theorem canonical_stable_varying :
    AreWords " Character Varying ".toList ∧
      canonical .postgres (" Character Varying " ++ "(" ++ " MAX\t" ++ ")") = "varchar(max)" ∧
      canonical .postgres "varchar(max)" = "varchar(max)" := by
  have hwords : AreWords " Character Varying ".toList := by decide
  have hvalue : canonical .postgres (" Character Varying " ++ "(" ++ " MAX\t" ++ ")")
      = "varchar(max)" := by decide
  have hstable := ((canonical_stable .postgres).2 _ hwords).2 " MAX\t"
  rw [hvalue] at hstable
  exact ⟨hwords, hvalue, hstable⟩

end SchemaAudit.TypeName
