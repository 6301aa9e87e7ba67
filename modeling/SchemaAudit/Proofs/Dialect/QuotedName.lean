import SchemaAudit.Proofs.Dialect.DelimitedName
import SchemaAudit.Proofs.Pattern.Form

/-!
# Names in quotes under one rule

Declarations of a table with one column, whose name stands in quotes. The rules do not know of
quotes: a rule that replaces or drops a word finds it in quotes too, if the name is the word or
begins with it.

* `fitsOnlyAtName`: a rule of which the form of the declaration says that it fits nowhere but at
  the first letter of the name. This is decided once for each rule.
* `Turns`, `rewrite_inQuotes`: what such a rule makes of the name, and of the declaration.
* `ways_word`: a word between edges fits exactly if it is the whole name.
* `Takes`: what the part of a rule that knows a word takes of the name.
-/

namespace SchemaAudit.Dialect

open Pattern

/-! ### Declarations -/

/-- The quotes of a dialect. -/
def quotes : Dialect → Char × Char
  | mySql => ('\x60', '\x60')
  | postgres => ('\x22', '\x22')
  | msSql => ('[', ']')

def columnStart (opening : Char) : List Char := "CREATE TABLE t (".toList ++ [opening]

def columnEnd (closing : Char) : List Char := closing :: " integer);".toList

/-- The declaration of a table with one column. -/
def columnText (opening closing : Char) (s : List Char) : List Char :=
  columnStart opening ++ (s ++ columnEnd closing)

def quotedColumn (dialect : Dialect) (name : String) : String :=
  String.ofList (columnText dialect.quotes.1 dialect.quotes.2 name.toList)

example : quotedColumn msSql "id" = "CREATE TABLE t ([id] integer);" := by decide

/-- The declaration in double quotes. -/
abbrev inQuotes (s : List Char) : List Char := columnText '\x22' '\x22' s

/-! ### The form of the declarations -/

theorem all_isWordChar_asciiLetters : Text.asciiLetters.chars.all Text.isWordChar = true := by
  decide

theorem all_isWordChar_asciiWord : Text.asciiWord.chars.all Text.isWordChar = true := by
  decide

def letterKind : Kind where
  chars := Text.asciiLetters.chars
  side := .word
  uniform := fun c hc => Side.of_eq_word (List.all_eq_true.1 all_isWordChar_asciiLetters c hc)

def wordKind : Kind where
  chars := Text.asciiWord.chars
  side := .word
  uniform := fun c hc => Side.of_eq_word (List.all_eq_true.1 all_isWordChar_asciiWord c hc)

/-- The form of a name and what stands behind it. -/
def nameForm (closing : Char) : Form :=
  .one letterKind :: .run wordKind :: Form.of (columnEnd closing)

theorem IsIdentifier.hasForm {s : List Char} (hs : IsIdentifier s) (closing : Char) :
    HasForm (nameForm closing) (s ++ columnEnd closing) := by
  cases s with
  | nil => exact absurd rfl hs.ne_nil
  | cons c s =>
    have hrest : ∀ d ∈ s, d ∈ wordKind.chars := fun d hd =>
      Text.mem_chars (hs.word d (List.mem_cons_of_mem c hd))
    exact .one (Text.mem_chars (hs.head c rfl)) ((hasForm_of _).append_run hrest)

/-- The rule fits nowhere in a declaration but at the first letter of the name. -/
def fitsOnlyAtName (p : Pattern) : Bool :=
  p.isSteady && letterKind.chars.all (fun c => !p.runsOver c)
    && p.isLostBefore (nameForm '\x22') .nothing (columnStart '\x22')
    && p.isLost ⟨.word, .run wordKind :: Form.of (columnEnd '\x22')⟩

/-- The place between two parts of the name. -/
def inName (front back : List Char) : Place :=
  ⟨behind (some '\x22') front, back ++ columnEnd '\x22'⟩

abbrev nameStart (s : List Char) : Place := inName [] s

abbrev nameEnd (s : List Char) : Place := inName s []

/-- The rule writes this where the name stands, or does not fit there. -/
def Turns (p : Pattern) (s : List Char) (written : Option String) : Prop :=
  (p.ways (nameStart s).rest.length false (nameStart s)).head?
    = written.map fun w => (nameEnd s, w.toList)

theorem Turns.misses {p : Pattern} {s : List Char} (h : Turns p s none) :
    p.Misses (nameStart s) := List.head?_eq_none_iff.1 h

/-- What stands in the quotes behind the rule. -/
def leftOf (s : List Char) (written : Option String) : List Char :=
  (written.map String.toList).getD s

/-- **A rule that fits nowhere else changes the name only.** -/
theorem rewrite_inQuotes {p : Pattern} (hp : fitsOnlyAtName p = true) {s : List Char}
    (hs : IsIdentifier s) {written : Option String} (h : Turns p s written) :
    p.rewrite (inQuotes s) = inQuotes (leftOf s written) := by
  simp only [fitsOnlyAtName, Bool.and_eq_true] at hp
  obtain ⟨⟨⟨hsteady, hfresh⟩, hstart⟩, hinside⟩ := hp
  have hform := hs.hasForm '\x22'
  cases s with
  | nil => exact absurd rfl hs.ne_nil
  | cons c rest =>
    have hc : c ∈ letterKind.chars := Text.mem_chars (hs.head c rfl)
    have hword : ∀ d ∈ rest, d ∈ wordKind.chars := fun d hd =>
      Text.mem_chars (hs.word d (List.mem_cons_of_mem c hd))
    have hhead : ∀ d ∈ (c :: rest ++ columnEnd '\x22').head?, p.runsOver d = false := by
      rintro d ⟨⟩
      simpa using List.all_eq_true.1 hfresh c hc
    have hrest : p.MissesIn (some c) (rest ++ columnEnd '\x22') [] :=
      missesIn_of_isLost ⟨letterKind.uniform c hc, (hasForm_of _).append_run hword⟩ hinside
    have hbefore : p.MissesIn none (columnStart '\x22') (c :: rest ++ columnEnd '\x22') :=
      missesIn_of_isLostBefore hform hstart
    have hsplit : p.rewrite (inQuotes (c :: rest))
        = columnStart '\x22' ++ rewriteFrom (inQuotes (c :: rest)).length p false (some '\x22')
          (c :: rest ++ columnEnd '\x22') :=
      rewriteFrom_append hsteady (Nat.le_refl _) hbefore hhead
    have hbound : (c :: rest ++ columnEnd '\x22').length ≤ (inQuotes (c :: rest)).length := by
      simp [inQuotes, columnText]
    rw [hsplit]
    cases written with
    | none =>
      have hname : p.MissesIn (some '\x22') (c :: rest ++ columnEnd '\x22') [] := by
        refine ⟨?_, hrest⟩
        rw [List.append_nil]
        exact h.misses
      rw [rewriteFrom_of_missesIn hsteady hbound hname]
      rfl
    | some w =>
      have hend : (columnEnd '\x22').length ≤ (inQuotes (c :: rest)).length := by
        rw [inQuotes, columnText, List.length_append, List.length_append]
        omega
      have hlt : (columnEnd '\x22').length < (c :: rest ++ columnEnd '\x22').length := by
        rw [List.length_append, List.length_cons]
        omega
      have hway : rewriteFrom (inQuotes (c :: rest)).length p false (some '\x22')
          (c :: rest ++ columnEnd '\x22') = w.toList ++ rewriteFrom (inQuotes (c :: rest)).length p
            false (behind (some c) rest) (columnEnd '\x22') :=
        rewriteFrom_of_way hsteady hbound h hlt
      rw [hway, rewriteFrom_of_missesIn hsteady hend (missesIn_append.1 hrest).2]
      rfl

/-! ### Words at the start of a name -/

/-- The name in lower case. -/
abbrev lower (s : List Char) : List Char := s.map Text.asciiLower

section Word

variable {s : List Char} (hs : IsIdentifier s) {word : String}

include hs

theorem lower_eq_of_spells {front back : List Char} (h : s = front ++ back)
    (hfront : Spells word.toList front) : lower s = lower word.toList ++ lower back := by
  have hascii : ∀ c ∈ front, c.toNat < 128 := fun c hc =>
    hs.ascii c (h ▸ List.mem_append_left _ hc)
  have hlower : lower word.toList = lower front := (spells_iff_of_ascii hascii).1 hfront
  rw [hlower, h, lower, List.map_append]

/-- A name that begins with the word in any case is a spelling of the word and what is left. -/
theorem exists_spells_of_isPrefix (h : lower word.toList <+: lower s) :
    ∃ front back, s = front ++ back ∧ Spells word.toList front := by
  obtain ⟨t, ht⟩ := h
  obtain ⟨front, back, rfl, hfront, -⟩ := List.map_eq_append_iff.1 ht.symm
  have hascii : ∀ c ∈ front, c.toNat < 128 := fun c hc => hs.ascii c (List.mem_append_left _ hc)
  exact ⟨front, back, rfl, (spells_iff_of_ascii hascii).2 hfront.symm⟩

theorem ways_letters_of_not_isPrefix
    (hquote : word.toList.all (fun l => !sameLetter l '\x22') = true)
    (h : ¬lower word.toList <+: lower s) (ps : List Pattern) (bound : Nat) :
    (each (letters word :: ps)).ways bound false (nameStart s) = [] := by
  refine List.eq_nil_iff_forall_not_mem.2 fun m hm => ?_
  rw [ways_each_cons] at hm
  obtain ⟨m₁, h₁, -⟩ := mem_after.1 hm
  obtain ⟨front, hfront, hrest, -⟩ := exists_of_mem_ways_letters h₁
  obtain ⟨back, hback, -⟩ := exists_of_spells_quoted (quote_not_mem_of_spells hquote hfront) hrest
  exact h ⟨lower back, (lower_eq_of_spells hs hback hfront).symm⟩

omit hs in
theorem ways_letters_of_spells {front back : List Char} (h : s = front ++ back)
    (hfront : Spells word.toList front) (ps : List Pattern) (bound : Nat) :
    (each (letters word :: ps)).ways bound false (nameStart s)
      = (each ps).ways bound false (inName front back) := by
  have hplace : nameStart s = ⟨some '\x22', front ++ (back ++ columnEnd '\x22')⟩ := by
    rw [h, nameStart, inName, List.append_assoc]
    rfl
  rw [hplace]
  exact ways_each_letters hfront ps _ _

/-- In the name a word has an edge at its start and at its end. -/
theorem atWordEdge_inName {front back : List Char} (h : s = front ++ back) :
    atWordEdge (inName front back) = (front.isEmpty != back.isEmpty) := by
  have hword := hs.isWordChar
  rw [h, List.forall_mem_append] at hword
  exact atWordEdge_quoted hword.1 hword.2 " integer);".toList

theorem ways_wordEdge_nameStart (bound : Nat) :
    wordEdge.ways bound false (nameStart s) = [(nameStart s, [])] := by
  refine if_pos ?_
  rw [atWordEdge_inName hs rfl, List.isEmpty_eq_false_iff.2 hs.ne_nil]
  rfl

theorem ways_wordEdge_inName {front back : List Char} (h : s = front ++ back) (hne : front ≠ [])
    (bound : Nat) : wordEdge.ways bound false (inName front back)
      = if back = [] then [(inName front back, [])] else [] := by
  have hedge := atWordEdge_inName hs h
  rw [List.isEmpty_eq_false_iff.2 hne, Bool.false_bne] at hedge
  rw [ways, hedge]
  simp only [List.isEmpty_iff]

/-- **A word between edges is the whole name.** -/
theorem ways_word (hne : word.toList ≠ [])
    (hquote : word.toList.all (fun l => !sameLetter l '\x22') = true) (more : List Pattern)
    (bound : Nat) :
    (each (wordEdge :: letters word :: wordEdge :: more)).ways bound false (nameStart s)
      = if lower s = lower word.toList then (each more).ways bound false (nameEnd s) else [] := by
  rw [ways_each_of_stays (ways_wordEdge_nameStart hs bound)]
  by_cases hprefix : lower word.toList <+: lower s
  · obtain ⟨front, back, hparts, hfront⟩ := exists_spells_of_isPrefix hs hprefix
    have hlower := lower_eq_of_spells hs hparts hfront
    have hspelled : front ≠ [] := by
      rintro rfl
      exact hne (List.length_eq_zero_iff.1 hfront.length_eq)
    have hedge := ways_wordEdge_inName hs hparts hspelled bound
    rw [ways_letters_of_spells hparts hfront]
    by_cases hback : back = []
    · rw [if_pos hback] at hedge
      have hwhole : inName front back = nameEnd s := by simp [hparts, hback]
      rw [ways_each_of_stays hedge, hwhole, if_pos (by simp [hlower, hback])]
    · rw [if_neg hback] at hedge
      rw [if_neg (by simp [hlower, hback]), ways_each_cons, hedge]
      rfl
  · rw [ways_letters_of_not_isPrefix hs hquote hprefix, if_neg]
    exact fun heq => hprefix (heq ▸ List.prefix_rfl)

end Word

/-! ### What the rules take -/

theorem shows_nameStart {s : List Char} (hs : IsIdentifier s) :
    Outlook.Shows ⟨.other, nameForm '\x22'⟩ (nameStart s) := by
  refine ⟨?_, hs.hasForm '\x22'⟩
  show Side.of (some '\x22') = .other
  decide

theorem shows_nameEnd {s : List Char} (hs : IsIdentifier s) :
    Outlook.Shows ⟨.word, Form.of (columnEnd '\x22')⟩ (nameEnd s) := by
  refine ⟨Side.of_eq_word ?_, hasForm_of _⟩
  rw [nameEnd, inName, any_isWordChar_behind hs.isWordChar, List.isEmpty_eq_false_iff.2 hs.ne_nil]
  rfl

theorem turns_none_of_leads {p : Pattern} (h : (p.leads ⟨.other, nameForm '\x22'⟩).isEmpty = true)
    {s : List Char} (hs : IsIdentifier s) : Turns p s none := by
  rw [Turns, ways_eq_nil_of_leads (shows_nameStart hs) h]
  rfl

/-- If the condition holds, the pattern reads the whole name first of all, and if not, it does not
fit at its start. -/
def Takes (p : Pattern) (s : List Char) (c : Prop) [Decidable c] : Prop :=
  ∀ bound, (nameStart s).rest.length ≤ bound →
    (p.ways bound false (nameStart s)).head? = if c then some (nameEnd s, []) else none

namespace Takes

variable {p q : Pattern} {s : List Char} {c d : Prop} [Decidable c] [Decidable d]

theorem turns (h : Takes p s c) : Turns p s (if c then some "" else none) := by
  rw [Turns, h _ (Nat.le_refl _)]
  split_ifs <;> rfl

theorem turns_becomes (h : Takes p s c) (w : String) :
    Turns (becomes p w) s (if c then some w else none) := by
  have hp := h _ (Nat.le_refl _)
  have hput : ∀ bound, ((put w.toList).ways bound false (nameEnd s)).head?
      = some (nameEnd s, w.toList) := fun _ => rfl
  split_ifs at hp ⊢ with hc
  · exact head?_ways_next hp (hput _)
  · rw [Turns, becomes, ways, List.head?_eq_none_iff.1 hp]
    rfl

theorem either (h : Takes p s c) (h' : Takes q s d) : Takes (either p q) s (c ∨ d) := by
  intro bound hbound
  rw [ways, List.head?_append, h bound hbound, h' bound hbound]
  by_cases hc : c <;> by_cases hd : d <;> simp [hc, hd]

theorem of_ways_eq (h : Takes p s c)
    (hways : ∀ bound, q.ways bound false (nameStart s) = p.ways bound false (nameStart s)) :
    Takes q s c := fun bound hbound => by rw [hways, h bound hbound]

end Takes

/-- The name goes on behind the word. -/
def GoesOn (word : String) (s : List Char) : Prop :=
  lower word.toList <+: lower s ∧ lower s ≠ lower word.toList

instance (word : String) (s : List Char) : Decidable (GoesOn word s) :=
  inferInstanceAs (Decidable (_ ∧ _))

/-- What may stand between an option and its value, and the value. -/
def optionValue : List Pattern := [blanks, optional (char '='), blanks, atLeastOne wordChar]

section

variable {s : List Char} (hs : IsIdentifier s)

include hs

theorem takes_word {word : String} (hne : word.toList ≠ [])
    (hquote : word.toList.all (fun l => !sameLetter l '\x22') = true) (more : List Pattern)
    (hmore : ∀ bound, (each more).ways bound false (nameEnd s) = [(nameEnd s, [])]) :
    Takes (each (wordEdge :: letters word :: wordEdge :: more)) s
      (lower s = lower word.toList) := by
  intro bound _
  rw [ways_word hs hne hquote, hmore]
  split_ifs <;> rfl

/-- Behind any part of the name stands a word character or the quote. -/
theorem head_inName {front back : List Char} (h : s = front ++ back) {f : Char → Bool}
    (hquote : f '\x22' = false)
    (hword : ∀ c : Char, Text.asciiWord.covers c.toNat = true → f c = false) :
    ∀ c ∈ (inName front back).rest.head?, f c = false := by
  cases back with
  | nil =>
    rintro c ⟨⟩
    exact hquote
  | cons d back =>
    rintro c ⟨⟩
    exact hword d (hs.word d (h ▸ List.mem_append_right _ List.mem_cons_self))

theorem ways_blanks_inName {front back : List Char} (h : s = front ++ back) (bound : Nat) :
    blanks.ways bound false (inName front back) = [(inName front back, [])] :=
  ways_many_of_head (head_inName hs h (by decide) fun _ => Text.isBlank_of_asciiWord)

/-- The value of an option is what is left of the name. -/
theorem head?_ways_optionValue {front back : List Char} (h : s = front ++ back) {bound : Nat}
    (hbound : (inName front back).rest.length ≤ bound) :
    ((each optionValue).ways bound false (inName front back)).head?
      = if back = [] then none else some (nameEnd s, []) := by
  have hequals : (char '=').ways bound false (inName front back) = [] := by
    refine ways_one_of_head (head_inName hs h (by decide) fun c hc => decide_eq_false ?_)
    rintro rfl
    exact absurd hc (by decide)
  have hblanks := ways_blanks_inName hs h bound
  rw [optionValue, ways_each_of_stays hblanks, ways_each_of_stays (ways_optional_of_nil hequals),
    ways_each_of_stays hblanks]
  cases back with
  | nil =>
    have hnone : wordChar.ways bound false (inName front []) = [] := by
      refine ways_one_of_head ?_
      rintro c ⟨⟩
      decide
    rw [if_pos rfl, List.head?_eq_none_iff]
    show after (wordChar.ways bound false (inName front [])) _ = []
    rw [hnone]
    rfl
  | cons c back =>
    have hword := hs.isWordChar
    rw [h, List.forall_mem_append, List.forall_mem_cons] at hword
    have hend : nameEnd s = ⟨behind (some c) back, columnEnd '\x22'⟩ := by
      rw [h, nameEnd, inName, behind_append]
      rfl
    have hfirst : (wordChar.ways bound false (inName front (c :: back))).head?
        = some (⟨some c, back ++ columnEnd '\x22'⟩, []) := congrArg List.head? (if_pos hword.2.1)
    have hrest : ((many wordChar).ways bound false ⟨some c, back ++ columnEnd '\x22'⟩).head?
        = some (⟨behind (some c) back, columnEnd '\x22'⟩, []) :=
      head?_ways_many_append (Nat.le_of_succ_le hbound) hword.2.2
        (by rintro d ⟨⟩; decide) false (some c)
    rw [if_neg (List.cons_ne_nil c back), hend]
    exact head?_ways_next hfirst hrest

theorem takes_option {word : String}
    (hquote : word.toList.all (fun l => !sameLetter l '\x22') = true) :
    Takes (each (letters word :: optionValue)) s (GoesOn word s) := by
  intro bound hbound
  by_cases hprefix : lower word.toList <+: lower s
  · obtain ⟨front, back, hparts, hfront⟩ := exists_spells_of_isPrefix hs hprefix
    have hlower := lower_eq_of_spells hs hparts hfront
    have hgoesOn : GoesOn word s ↔ back ≠ [] := by simp [GoesOn, hlower]
    have hle : (inName front back).rest.length ≤ bound := by
      rw [hparts] at hbound
      simp only [inName, List.length_append] at hbound ⊢
      omega
    rw [ways_letters_of_spells hparts hfront, head?_ways_optionValue hs hparts hle]
    by_cases hback : back = [] <;> simp [hgoesOn, hback]
  · rw [ways_letters_of_not_isPrefix hs hquote hprefix, if_neg fun h => hprefix h.1]
    rfl

/-! ### Rules that know a word -/

theorem ways_blanks_wordEdge (ps : List Pattern) (bound : Nat) :
    (each (blanks :: wordEdge :: ps)).ways bound false (nameStart s)
      = (each ps).ways bound false (nameStart s) := by
  rw [ways_each_of_stays (ways_blanks_inName hs rfl bound),
    ways_each_of_stays (ways_wordEdge_nameStart hs bound)]

theorem takes_collation : Takes collation s (GoesOn "COLLATE" s) :=
  (takes_option hs (by decide)).of_ways_eq
    (ways_blanks_wordEdge hs (letters "COLLATE" :: optionValue))

theorem takes_characterSet : Takes characterSet s (GoesOn "CHARSET" s) := by
  refine (takes_option hs (by decide)).of_ways_eq fun bound => ?_
  -- a name has no room for the blanks in the other spellings
  have hdefault : (each [letters "DEFAULT", gap]).ways bound false (nameStart s) = [] :=
    ways_eq_nil_of_leads (shows_nameStart hs) (by decide) _ _
  have hphrase : (phrase ["CHARACTER", "SET"]).ways bound false (nameStart s) = [] :=
    ways_eq_nil_of_leads (shows_nameStart hs) (by decide) _ _
  have hname : (anyOf [letters "CHARSET", phrase ["CHARACTER", "SET"]]).ways bound false
      (nameStart s) = (letters "CHARSET").ways bound false (nameStart s) := by
    show (letters "CHARSET").ways bound false _ ++ (phrase _).ways bound false _ = _
    rw [hphrase, List.append_nil]
  rw [characterSet, ways_blanks_wordEdge hs, ways_each_of_stays (ways_optional_of_nil hdefault),
    ways_each_cons, hname, ← ways_each_cons]
  rfl

/-- The flag of a column that counts by itself. -/
def autoIncrementFlag : Pattern := each [blanks, wordEdge, letters "AUTO_INCREMENT", wordEdge]

theorem takes_autoIncrementFlag :
    Takes autoIncrementFlag s (lower s = lower "AUTO_INCREMENT".toList) :=
  (takes_word hs (by decide) (by decide) [] fun _ => rfl).of_ways_eq fun bound =>
    ways_each_of_stays (ways_blanks_inName hs rfl bound) _

/-- A point in time, with a size or without. -/
def timeRule (word written : String) : Pattern :=
  wordRule word [wordEdge, optional (each [blanks, size])] written

theorem turns_timeRule (word : String) (hne : word.toList ≠ [])
    (hquote : word.toList.all (fun l => !sameLetter l '\x22') = true) (written : String) :
    Turns (timeRule word written) s
      (if lower s = lower word.toList then some written else none) := by
  refine (takes_word hs hne hquote _ fun bound => ?_).turns_becomes written
  exact ways_optional_of_nil (ways_eq_nil_of_leads (shows_nameEnd hs) (by decide) _ _)

theorem turns_serial {first second : String} (hfirst : first.toList ≠ [])
    (hsecond : second.toList ≠ [])
    (hquote : (first.toList ++ second.toList).all (fun l => !sameLetter l '\x22') = true)
    (type : String) :
    Turns (serial [letters first, letters second] type) s
      (if lower s = lower first.toList ∨ lower s = lower second.toList then
        some (type ++ " GENERATED BY DEFAULT AS IDENTITY") else none) := by
  rw [List.all_append, Bool.and_eq_true] at hquote
  have hone := takes_word hs hfirst hquote.1 [] fun _ => rfl
  have htwo := takes_word hs hsecond hquote.2 [] fun _ => rfl
  exact (hone.either htwo).turns_becomes _

/-- A counting type whose name may have a four behind it. -/
def plainSerial : Pattern := each [letters "SERIAL", optional (char '4')]

omit hs in
theorem lower_eq_four_iff (back : List Char) : lower back = ['4'] ↔ back = ['4'] := by
  refine ⟨fun h => ?_, fun h => by rw [h]; decide⟩
  obtain ⟨c, rfl, hc⟩ := List.map_eq_singleton_iff.1 h
  have hcode := congrArg Char.toNat hc
  rw [Text.toNat_asciiLower] at hcode
  have hfour : '4'.toNat = 52 := by decide
  have hnat : c.toNat = '4'.toNat := by
    split_ifs at hcode <;> omega
  rw [Char.toNat_inj.1 hnat]

theorem takes_plainSerial : Takes (each [wordEdge, plainSerial, wordEdge]) s
    (lower s = lower "SERIAL".toList ∨ lower s = lower "SERIAL4".toList) := by
  intro bound _
  rw [ways_each_of_stays (ways_wordEdge_nameStart hs bound), ways_each_cons, plainSerial]
  by_cases hprefix : lower "SERIAL".toList <+: lower s
  · obtain ⟨front, back, hparts, hfront⟩ := exists_spells_of_isPrefix hs hprefix
    have hlower := lower_eq_of_spells hs hparts hfront
    have hspelled : front ≠ [] := by
      rintro rfl
      exact absurd hfront.length_eq (by decide)
    have hcondition : (lower s = lower "SERIAL".toList ∨ lower s = lower "SERIAL4".toList)
        ↔ back = [] ∨ back = ['4'] := by
      rw [hlower, ← lower_eq_four_iff back]
      refine or_congr (by simp) ?_
      exact List.append_right_inj (lower "SERIAL".toList)
    have hedge := ways_wordEdge_inName hs hparts hspelled bound
    have hoptional : after ((optional (char '4')).ways bound false (inName front back))
          (wordEdge.ways bound false)
        = after ((char '4').ways bound false (inName front back)) (wordEdge.ways bound false)
          ++ wordEdge.ways bound false (inName front back) := by
      show after (_ ++ [(inName front back, [])]) _ = _
      rw [after, List.flatMap_append, ← after, ← after, after_singleton]
      simp
    rw [ways_letters_of_spells hparts hfront]
    show (after ((optional (char '4')).ways bound false _) (wordEdge.ways bound false)).head? = _
    rw [hoptional, hedge]
    simp only [hcondition]
    by_cases hback : back.head? = some '4'
    · obtain ⟨back, rfl⟩ := List.head?_eq_some_iff.1 hback
      have hread : (char '4').ways bound false (inName front ('4' :: back))
          = [(inName (front ++ ['4']) back, [])] := by
        rw [inName, inName, behind_append]
        rfl
      have hparts' : s = (front ++ ['4']) ++ back := by simpa using hparts
      have hedge' := ways_wordEdge_inName hs hparts' (by simp) bound
      have hend : nameEnd s = inName (front ++ ['4'] ++ back) [] := by simp [hparts]
      rw [hread, after_singleton, hedge', hend]
      by_cases hnil : back = [] <;> simp [hnil]
    · have hread : (char '4').ways bound false (inName front back) = [] := by
        refine ways_one_of_head fun c hc => decide_eq_false ?_
        rintro rfl
        cases back with
        | nil => cases hc
        | cons d back => exact hback hc
      have hlong : back ≠ ['4'] := fun h => hback (h ▸ rfl)
      rw [hread]
      by_cases hnil : back = [] <;> simp [hlong, hnil, hparts, after]
  · have hnone := ways_letters_of_not_isPrefix hs (by decide) hprefix [optional (char '4')] bound
    rw [hnone, if_neg]
    · rfl
    · rintro (h | h)
      · exact hprefix (h ▸ List.prefix_rfl)
      · exact hprefix (h ▸ ⟨['4'], by decide⟩)

end

end SchemaAudit.Dialect
