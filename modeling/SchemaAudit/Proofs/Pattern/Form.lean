import SchemaAudit.Proofs.Pattern.Rewrite

/-!
# Patterns on all texts of one form

A form says of each part of a text which characters may stand there, and which part may be a run of
any length. Where a pattern can lead in the texts of a form is computed from the form alone: a
pattern that leads nowhere fits in none of these texts.

* `Form`, `HasForm`: forms and their texts.
* `Outlook`, `leads`: a place as the form shows it, and where a pattern can lead from there. A
  repetition of anything but single characters is taken to lead anywhere.
* `exists_leads`: every way of a pattern ends at a place to which it leads.
* `missesIn_of_isLost`, `missesIn_of_isLostBefore`: a pattern that leads nowhere misses.
-/

namespace SchemaAudit.Pattern

/-! ### Forms -/

/-- What the edges of words and lines depend on, on one side of a place. -/
inductive Side where
  | nothing
  | lineBreak
  | word
  | other
  deriving DecidableEq, Repr

namespace Side

def of : Option Char → Side
  | none => nothing
  | some c => if Text.isWordChar c then word else if c = '\n' then lineBreak else other

def isWord : Side → Bool
  | word => true
  | _ => false

def beginsLine : Side → Bool
  | nothing | lineBreak => true
  | _ => false

def all : List Side := [nothing, lineBreak, word, other]

theorem mem_all (side : Side) : side ∈ all := by cases side <;> decide

theorem isWord_of (before : Option Char) : (of before).isWord = before.any Text.isWordChar := by
  cases before with
  | none => rfl
  | some c =>
    show (of (some c)).isWord = Text.isWordChar c
    rw [of]
    split_ifs with hc hbreak
    · exact hc.symm
    · exact (Bool.not_eq_true _ ▸ hc).symm
    · exact (Bool.not_eq_true _ ▸ hc).symm

theorem of_eq_word {before : Option Char} (h : before.any Text.isWordChar = true) :
    of before = word := by
  have hword := isWord_of before
  rw [h] at hword
  cases hside : of before <;> simp_all [isWord]

theorem beginsLine_of (before : Option Char) : (of before).beginsLine = before.all (· = '\n') := by
  cases before with
  | none => rfl
  | some c =>
    by_cases hbreak : c = '\n'
    · subst hbreak
      decide
    · by_cases hc : Text.isWordChar c = true <;> simp [of, hc, hbreak, beginsLine]

end Side

/-- A class of characters that are all the same to the edges of words and lines. -/
structure Kind where
  chars : List Char
  side : Side
  uniform : ∀ c ∈ chars, Side.of (some c) = side

def Kind.char (c : Char) : Kind :=
  ⟨[c], Side.of (some c), fun _ h => by rw [List.mem_singleton.1 h]⟩

/-- One character of a class, or any number of them. -/
inductive Piece where
  | one (k : Kind)
  | run (k : Kind)

abbrev Form := List Piece

/-- The form of one text. -/
def Form.of (s : List Char) : Form := s.map fun c => .one (Kind.char c)

/-- The texts of a form. -/
inductive HasForm : Form → List Char → Prop
  | nil : HasForm [] []
  | one {k : Kind} {form : Form} {c : Char} {s : List Char} :
    c ∈ k.chars → HasForm form s → HasForm (.one k :: form) (c :: s)
  | stop {k : Kind} {form : Form} {s : List Char} :
    HasForm form s → HasForm (.run k :: form) s
  | more {k : Kind} {form : Form} {c : Char} {s : List Char} :
    c ∈ k.chars → HasForm (.run k :: form) s → HasForm (.run k :: form) (c :: s)

theorem HasForm.append_text {form : Form} {s : List Char} (h : HasForm form s) (t : List Char) :
    HasForm (Form.of t ++ form) (t ++ s) := by
  induction t with
  | nil => exact h
  | cons c t ih => exact .one (List.mem_singleton_self c) ih

theorem hasForm_of (s : List Char) : HasForm (Form.of s) s := by
  simpa using HasForm.nil.append_text s

theorem HasForm.append_run {k : Kind} {form : Form} {s : List Char} (h : HasForm form s)
    {run : List Char} (hrun : ∀ c ∈ run, c ∈ k.chars) : HasForm (.run k :: form) (run ++ s) := by
  induction run with
  | nil => exact .stop h
  | cons c run ih =>
    obtain ⟨hc, hrest⟩ := List.forall_mem_cons.1 hrun
    exact .more hc (ih hrest)

/-- The end of a text has the form that is left of the form of the text. -/
theorem HasForm.exists_of_isSuffix {form : Form} {s t : List Char} (h : HasForm form s)
    (ht : t <:+ s) : ∃ left ∈ form.tails, HasForm left t := by
  induction h with
  | nil => exact ⟨[], List.mem_singleton_self _, List.suffix_nil.1 ht ▸ .nil⟩
  | @one k form c s hc h ih =>
    rcases List.suffix_cons_iff.1 ht with rfl | ht
    · exact ⟨.one k :: form, List.mem_cons_self, .one hc h⟩
    · obtain ⟨left, hleft, hform⟩ := ih ht
      exact ⟨left, List.mem_cons_of_mem _ hleft, hform⟩
  | stop h ih =>
    obtain ⟨left, hleft, hform⟩ := ih ht
    exact ⟨left, List.mem_cons_of_mem _ hleft, hform⟩
  | @more k form c s hc h ih =>
    rcases List.suffix_cons_iff.1 ht with rfl | ht
    · exact ⟨.run k :: form, List.mem_cons_self, .more hc h⟩
    · exact ih ht

/-! ### Where a pattern can lead -/

/-- A place of a text: what stands before it, and the form of what stands behind it. -/
structure Outlook where
  side : Side
  form : Form

structure Outlook.Shows (o : Outlook) (place : Place) : Prop where
  side : Side.of place.before = o.side
  form : HasForm o.form place.rest

/-- The outlooks behind one character of a class. -/
def behindOne (f : Char → Bool) : Form → List Outlook
  | [] => []
  | .one k :: form => if k.chars.any f then [⟨k.side, form⟩] else []
  | .run k :: form =>
    (if k.chars.any f then [⟨k.side, .run k :: form⟩] else []) ++ behindOne f form

/-- The outlooks behind any number of characters of a class. -/
def behindRun (f : Char → Bool) : Side → Form → List Outlook
  | side, [] => [⟨side, []⟩]
  | side, .one k :: form =>
    ⟨side, .one k :: form⟩ :: if k.chars.any f then behindRun f k.side form else []
  | side, .run k :: form =>
    ⟨side, .run k :: form⟩ ::
      ((if k.chars.any f then ⟨k.side, .run k :: form⟩ :: behindRun f k.side form else [])
        ++ behindRun f side form)

/-- The outlooks at an edge of a word. What the edge says of the next character stays known. -/
def atEdge : Side → Form → List Outlook
  | side, [] => if side.isWord then [⟨side, []⟩] else []
  | side, .one k :: form => if side.isWord != k.side.isWord then [⟨side, .one k :: form⟩] else []
  | side, .run k :: form =>
    (if side.isWord != k.side.isWord then [⟨side, .one k :: .run k :: form⟩] else [])
      ++ atEdge side form

/-- All outlooks from a form on. -/
def onward (form : Form) : List Outlook :=
  form.tails.flatMap fun left => Side.all.map (⟨·, left⟩)

/-- The outlooks to which a pattern can lead. -/
def leads : Pattern → Outlook → List Outlook
  | always, o => [o]
  | never, _ => []
  | one f, o => behindOne f o.form
  | next a b, o => (leads a o).flatMap (leads b)
  | either a b, o => leads a o ++ leads b o
  | many (one f), o => behindRun f o.side o.form
  | many _, o => onward o.form
  | few _, o => onward o.form
  | kept a, o => leads a o
  | put _, o => [o]
  | wordEdge, o => atEdge o.side o.form
  | lineStart, o => if o.side.beginsLine then [o] else []
  | lineEnd, o => [o]

/-! ### Where ways end -/

theorem HasForm.exists_behindOne {f : Char → Bool} {form : Form} {c : Char} {s : List Char}
    (h : HasForm form (c :: s)) (hc : f c = true) :
    ∃ o ∈ behindOne f form, o.Shows ⟨some c, s⟩ := by
  induction form with
  | nil => cases h
  | cons piece form ih =>
    cases h with
    | @one k _ _ _ hmem h =>
      rw [behindOne, if_pos (List.any_eq_true.2 ⟨c, hmem, hc⟩)]
      exact ⟨_, List.mem_singleton_self _, k.uniform c hmem, h⟩
    | stop h =>
      obtain ⟨o, ho, hshows⟩ := ih h
      exact ⟨o, List.mem_append_right _ ho, hshows⟩
    | @more k _ _ _ hmem h =>
      rw [behindOne, if_pos (List.any_eq_true.2 ⟨c, hmem, hc⟩)]
      exact ⟨_, List.mem_append_left _ (List.mem_singleton_self _), k.uniform c hmem, h⟩

theorem mem_behindRun_self (f : Char → Bool) (side : Side) (form : Form) :
    ⟨side, form⟩ ∈ behindRun f side form := by
  cases form with
  | nil => exact List.mem_singleton_self _
  | cons piece form => cases piece <;> exact List.mem_cons_self

/-- What stands behind a run that begins one character further on stands behind a run. -/
theorem behindRun_subset {f : Char → Bool} (side : Side) {form : Form} {o : Outlook}
    (h : o ∈ behindOne f form) : behindRun f o.side o.form ⊆ behindRun f side form := by
  induction form generalizing side with
  | nil => exact absurd h List.not_mem_nil
  | cons piece form ih =>
    cases piece with
    | one k =>
      rw [behindOne] at h
      split at h
      · rename_i hany
        rw [List.mem_singleton.1 h, behindRun, if_pos hany]
        exact List.subset_cons_self _ _
      · exact absurd h List.not_mem_nil
    | run k =>
      rw [behindOne] at h
      rcases List.mem_append.1 h with h | h
      · split at h
        · rename_i hany
          rw [List.mem_singleton.1 h, behindRun, behindRun, if_pos hany]
          intro o' ho'
          simp only [List.mem_cons, List.mem_append] at ho' ⊢
          tauto
        · exact absurd h List.not_mem_nil
      · rw [behindRun.eq_3]
        exact fun o' ho' => List.mem_cons_of_mem _ (List.mem_append_right _ (ih side h ho'))

theorem HasForm.exists_atEdge {form : Form} {before : Option Char} {s : List Char}
    (h : HasForm form s) (hedge : atWordEdge ⟨before, s⟩ = true) :
    ∃ o ∈ atEdge (Side.of before) form, o.Shows ⟨before, s⟩ := by
  have hword : ∀ {k : Kind} {c : Char} {s : List Char}, c ∈ k.chars →
      atWordEdge ⟨before, c :: s⟩ = true → ((Side.of before).isWord != k.side.isWord) = true := by
    intro k c s hmem hedge
    rw [← k.uniform c hmem, Side.isWord_of, Side.isWord_of]
    exact hedge
  induction form with
  | nil =>
    cases h
    have hbefore : (Side.of before).isWord = true := by
      rw [Side.isWord_of]
      simpa [atWordEdge] using hedge
    rw [atEdge, if_pos hbefore]
    exact ⟨_, List.mem_singleton_self _, rfl, .nil⟩
  | cons piece form ih =>
    cases h with
    | one hmem h =>
      rw [atEdge, if_pos (hword hmem hedge)]
      exact ⟨_, List.mem_singleton_self _, rfl, .one hmem h⟩
    | stop h =>
      obtain ⟨o, ho, hshows⟩ := ih h
      exact ⟨o, List.mem_append_right _ ho, hshows⟩
    | more hmem h =>
      rw [atEdge, if_pos (hword hmem hedge)]
      exact ⟨_, List.mem_append_left _ (List.mem_singleton_self _), rfl, .one hmem h⟩

theorem Outlook.Shows.exists_onward {o : Outlook} {place place' : Place} (h : o.Shows place)
    (hsuffix : place'.rest <:+ place.rest) : ∃ o' ∈ onward o.form, o'.Shows place' := by
  obtain ⟨left, hleft, hform⟩ := h.form.exists_of_isSuffix hsuffix
  exact ⟨⟨Side.of place'.before, left⟩,
    List.mem_flatMap.2 ⟨left, hleft, List.mem_map_of_mem (Side.mem_all _)⟩, rfl, hform⟩

theorem exists_leads_one {f : Char → Bool} {bound : Nat} {keep : Bool} {o : Outlook} {place : Place}
    {m : Way} (ho : o.Shows place) (h : m ∈ (one f).ways bound keep place) :
    ∃ o' ∈ behindOne f o.form, o'.Shows m.1 := by
  obtain ⟨c, hc, hrest, hm⟩ := exists_of_mem_ways_one h
  rw [hm]
  exact (hrest ▸ ho.form).exists_behindOne hc

theorem exists_leads_run {f : Char → Bool} {bound : Nat} {keep : Bool} {o : Outlook} {place : Place}
    {m : Way} (ho : o.Shows place) (h : m ∈ (many (one f)).ways bound keep place) :
    ∃ o' ∈ behindRun f o.side o.form, o'.Shows m.1 := by
  refine repeated_induction (P := fun place m => ∀ o : Outlook, o.Shows place →
    ∃ o' ∈ behindRun f o.side o.form, o'.Shows m.1) ?_ ?_ true bound place m h o ho
  · exact fun place o ho => ⟨o, mem_behindRun_self f _ _, ho⟩
  · intro place m hm m' ih o ho
    obtain ⟨o₁, ho₁, hshows₁⟩ := exists_leads_one ho hm
    obtain ⟨o', ho', hshows'⟩ := ih o₁ hshows₁
    exact ⟨o', behindRun_subset o.side ho₁ ho', hshows'⟩

/-- **Every way of a pattern ends at a place to which the pattern leads.** -/
theorem exists_leads {bound : Nat} {p : Pattern} {keep : Bool} {o : Outlook} {place : Place}
    {m : Way} (ho : o.Shows place) (h : m ∈ p.ways bound keep place) :
    ∃ o' ∈ p.leads o, o'.Shows m.1 := by
  have hstay : ∀ {q : Bool} {place : Place} {m : Way},
      m ∈ (if q then [(place, [])] else ([] : List Way)) → q = true ∧ m = (place, []) := by
    intro q place m hm
    cases q with
    | false => exact absurd hm List.not_mem_nil
    | true => exact ⟨rfl, List.mem_singleton.1 hm⟩
  induction p generalizing keep o place m with
  | always => exact ⟨o, List.mem_singleton_self o, List.mem_singleton.1 h ▸ ho⟩
  | never => exact absurd h List.not_mem_nil
  | one f => exact exists_leads_one ho h
  | next a b iha ihb =>
    obtain ⟨m₁, h₁, m₂, h₂, rfl⟩ := mem_after.1 h
    obtain ⟨o₁, ho₁, hshows₁⟩ := iha ho h₁
    obtain ⟨o₂, ho₂, hshows₂⟩ := ihb hshows₁ h₂
    exact ⟨o₂, List.mem_flatMap.2 ⟨o₁, ho₁, ho₂⟩, hshows₂⟩
  | either a b iha ihb =>
    rcases List.mem_append.1 h with h | h
    · obtain ⟨o', ho', hshows⟩ := iha ho h
      exact ⟨o', List.mem_append_left _ ho', hshows⟩
    · obtain ⟨o', ho', hshows⟩ := ihb ho h
      exact ⟨o', List.mem_append_right _ ho', hshows⟩
  | many a ih =>
    cases a with
    | one f => exact exists_leads_run ho h
    | _ => exact ho.exists_onward (rest_isSuffix h)
  | few a ih => exact ho.exists_onward (rest_isSuffix h)
  | kept a ih => exact ih ho h
  | put s => exact ⟨o, List.mem_singleton_self o, List.mem_singleton.1 h ▸ ho⟩
  | wordEdge =>
    obtain ⟨hedge, rfl⟩ := hstay h
    rw [leads, ← ho.side]
    exact ho.form.exists_atEdge hedge
  | lineStart =>
    obtain ⟨hstart, rfl⟩ := hstay h
    have hside : o.side.beginsLine = true := by rwa [← ho.side, Side.beginsLine_of]
    rw [leads, if_pos hside]
    exact ⟨o, List.mem_singleton_self o, ho⟩
  | lineEnd =>
    obtain ⟨-, rfl⟩ := hstay h
    exact ⟨o, List.mem_singleton_self o, ho⟩

/-! ### Patterns that lead nowhere -/

/-- **A pattern that leads nowhere has no ways.** -/
theorem ways_eq_nil_of_leads {p : Pattern} {o : Outlook} {place : Place} (ho : o.Shows place)
    (h : (p.leads o).isEmpty = true) (bound : Nat) (keep : Bool) :
    p.ways bound keep place = [] := by
  refine List.eq_nil_iff_forall_not_mem.2 fun m hm => ?_
  obtain ⟨o', ho', -⟩ := exists_leads ho hm
  rw [List.isEmpty_iff.1 h] at ho'
  exact List.not_mem_nil ho'

/-- The pattern leads nowhere from any place of the texts. -/
def isLost (p : Pattern) (o : Outlook) : Bool :=
  (behindRun (fun _ => true) o.side o.form).all fun o' => (p.leads o').isEmpty

theorem missesIn_of_isLost {p : Pattern} {o : Outlook} {before : Option Char} {s : List Char}
    (ho : o.Shows ⟨before, s⟩) (h : p.isLost o = true) : p.MissesIn before s [] := by
  induction s generalizing before o with
  | nil => trivial
  | cons c s ih =>
    have hhere := List.all_eq_true.1 h o (mem_behindRun_self _ _ _)
    obtain ⟨o', ho', hshows⟩ := ho.form.exists_behindOne (f := fun _ => true) rfl
    have hrest : p.isLost o' = true :=
      List.all_eq_true.2 fun o'' ho'' => List.all_eq_true.1 h o'' (behindRun_subset o.side ho' ho'')
    refine ⟨ways_eq_nil_of_leads ?_ hhere _ _, ih hshows hrest⟩
    rwa [List.append_nil]

/-- The pattern leads nowhere from any place of the text `s` in front of texts of a form. -/
def isLostBefore (p : Pattern) (form : Form) : (side : Side) → (s : List Char) → Bool
  | _, [] => true
  | side, c :: s =>
    (p.leads ⟨side, Form.of (c :: s) ++ form⟩).isEmpty
      && isLostBefore p form (Side.of (some c)) s

theorem missesIn_of_isLostBefore {p : Pattern} {form : Form} {t : List Char}
    (ht : HasForm form t) {before : Option Char} {s : List Char}
    (h : p.isLostBefore form (Side.of before) s = true) : p.MissesIn before s t := by
  induction s generalizing before with
  | nil => trivial
  | cons c s ih =>
    rw [isLostBefore, Bool.and_eq_true] at h
    exact ⟨ways_eq_nil_of_leads ⟨rfl, ht.append_text (c :: s)⟩ h.1 _ _, ih h.2⟩

end SchemaAudit.Pattern
