import Mathlib.Logic.Function.Basic
import SchemaAudit.Audit.Template
import SchemaAudit.Proofs.Text.Replace

/-!
# Templates name their subject

A template is texts and marks in turn, and it is filled one kind of mark after another. What was put
in before is searched again, so a name that makes up a mark is taken for one.

* `replaceAll_render`: one kind of mark is filled, and nothing else is touched, if no name that
  stands in the template already makes the mark up.
* `makeUp_of_isInfix`, `exists_isInfix_of_makeUp`: names make up a mark exactly if some text in which
  they stand holds it.
* `fillsAtOnce_iff`: for which names every template is filled as if all marks were filled at once.
-/

namespace SchemaAudit.Template

/-! ### Templates in pieces -/

/-- What a mark stands for. -/
inductive Mark where
  | table
  | field
  | type
  deriving DecidableEq

namespace Mark

/-- The word between the braces of a mark. -/
def word : Mark → List Char
  | table => "table".toList
  | field => "field".toList
  | type => "type".toList

/-- The text that a mark is filled with. -/
def meaning (t : Table) (f : Field) : Mark → List Char
  | table => t.name.toList
  | field => f.name.toList
  | type => f.type.toList

end Mark

/-- A word between braces. -/
def braced (word : List Char) : List Char := '\x7b' :: (word ++ ['\x7d'])

/-- A text without braces. -/
def IsBare (s : List Char) : Prop := '\x7b' ∉ s ∧ '\x7d' ∉ s

instance (s : List Char) : Decidable (IsBare s) := inferInstanceAs (Decidable (_ ∧ _))

/-- A template is put together from texts and marks. -/
inductive Piece where
  | text (s : List Char)
  | mark (m : Mark)

/-- A text of the template itself has no braces. -/
def Piece.IsPlain : Piece → Prop
  | .text s => IsBare s
  | .mark _ => True

instance : (piece : Piece) → Decidable piece.IsPlain
  | .text s => inferInstanceAs (Decidable (IsBare s))
  | .mark _ => inferInstanceAs (Decidable True)

/-- The text of pieces in which every mark is put as `v` says. -/
def render (v : Mark → List Char) (pieces : List Piece) : List Char :=
  pieces.flatMap fun piece => match piece with
    | .text s => s
    | .mark m => v m

/-- The template that pieces make up. -/
def written (pieces : List Piece) : String :=
  String.ofList (render (fun m => braced m.word) pieces)

/-- The pieces with every mark filled at once. -/
def filled (t : Table) (f : Field) (pieces : List Piece) : String :=
  String.ofList (render (Mark.meaning t f) pieces)

/-! ### Marks that names make up -/

/-- A text that ends inside of a mark, and one that goes on where the mark ends: with the rest of
the word between them they make up the mark. -/
def Bridges (word a b : List Char) : Prop :=
  ∃ front mid back, word = front ++ mid ++ back ∧ ('\x7b' :: front) <:+ a ∧ (back ++ ['\x7d']) <+: b

/-- A mark stands in one of the names, or arises from two of them. -/
def MakeUp (word : List Char) (names : List (List Char)) : Prop :=
  (∃ a ∈ names, braced word <:+: a) ∨ ∃ a ∈ names, ∃ b ∈ names, Bridges word a b

/-- A mark begins with a brace. -/
theorem not_makeUp_of_not_mem {names : List (List Char)} (h : ∀ a ∈ names, '\x7b' ∉ a)
    (word : List Char) : ¬MakeUp word names := by
  rintro (⟨a, ha, hin⟩ | ⟨a, ha, b, -, front, mid, back, -, hfront, -⟩)
  · exact h a ha (hin.subset List.mem_cons_self)
  · exact h a ha (hfront.subset List.mem_cons_self)

/-- Parts that a filled template consists of: texts without braces, and names. -/
def ArePlain (names parts : List (List Char)) : Prop := ∀ s ∈ parts, IsBare s ∨ s ∈ names

/-- A mark that has begun is ended by a name. -/
theorem exists_end {names parts : List (List Char)} (hparts : ArePlain names parts)
    {word : List Char} (h : (word ++ ['\x7d']) <+: parts.flatten) :
    ∃ b ∈ names, ∃ mid back, word = mid ++ back ∧ (back ++ ['\x7d']) <+: b := by
  induction parts generalizing word with
  | nil => simp at h
  | cons s parts ih =>
    have hrest : ArePlain names parts := fun r hr => hparts r (List.mem_cons_of_mem _ hr)
    obtain ⟨r, hr⟩ := h
    rw [List.flatten_cons, List.append_assoc] at hr
    have hlater : ∀ more, word = s ++ more → parts.flatten = more ++ (['\x7d'] ++ r) →
        ∃ b ∈ names, ∃ mid back, word = mid ++ back ∧ (back ++ ['\x7d']) <+: b := by
      intro more hword hflat
      obtain ⟨b, hb, mid, back, hmid, hback⟩ := ih hrest ⟨r, by rw [hflat, List.append_assoc]⟩
      exact ⟨b, hb, s ++ mid, back, by rw [hword, hmid, List.append_assoc], hback⟩
    rcases List.append_eq_append_iff.1 hr with ⟨as, hs, hbehind⟩ | ⟨more, hword, hflat⟩
    · cases as with
      | nil => exact hlater [] (by rw [hs, List.append_nil, List.append_nil]) hbehind.symm
      | cons c as =>
        -- the closing brace stands in this part, which is a name
        obtain rfl : '\x7d' = c := (List.cons.inj hbehind).1
        have hname : s ∈ names := by
          refine (hparts s List.mem_cons_self).resolve_left fun hbare => hbare.2 ?_
          rw [hs]
          exact List.mem_append_right word List.mem_cons_self
        exact ⟨s, hname, [], word, rfl, as, by rw [hs, List.append_assoc]; rfl⟩
    · exact hlater more hword hflat

/-- **A mark in a text of parts is made up by the names among them.** -/
theorem makeUp_of_isInfix {names parts : List (List Char)} (hparts : ArePlain names parts)
    {word : List Char} (h : braced word <:+: parts.flatten) : MakeUp word names := by
  induction parts with
  | nil => simp [braced] at h
  | cons s parts ih =>
    have hrest : ArePlain names parts := fun r hr => hparts r (List.mem_cons_of_mem _ hr)
    have hname : '\x7b' ∈ s → s ∈ names := fun hm =>
      (hparts s List.mem_cons_self).resolve_left fun hbare => hbare.1 hm
    rw [List.flatten_cons] at h
    rcases List.infix_append_iff.1 h with hin | hin | ⟨front, behind, hcut, hfront, hbehind⟩
    · exact .inl ⟨s, hname (hin.subset List.mem_cons_self), hin⟩
    · exact ih hrest hin
    · -- the mark begins in the first part and ends behind it
      cases front with
      | nil => exact ih hrest (hcut ▸ hbehind.isInfix)
      | cons c front =>
        obtain rfl : '\x7b' = c := (List.cons.inj hcut).1
        have htail : word ++ ['\x7d'] = front ++ behind := (List.cons.inj hcut).2
        have hs := hname (hfront.subset List.mem_cons_self)
        rcases List.eq_nil_or_concat behind with rfl | ⟨rest, last, rfl⟩
        · rw [List.append_nil] at hcut
          exact .inl ⟨s, hs, hcut ▸ hfront.isInfix⟩
        · rw [List.concat_eq_append] at htail hbehind
          rw [← List.append_assoc] at htail
          obtain ⟨hword, hlast⟩ := List.append_inj' htail rfl
          obtain rfl : '\x7d' = last := List.head_eq_of_cons_eq hlast
          obtain ⟨b, hb, mid, back, hmid, hback⟩ := exists_end hrest hbehind
          refine .inr ⟨s, hs, b, hb, front, mid, back, ?_, hfront, hback⟩
          rw [hword, hmid, List.append_assoc]

/-- What names make up arises in some text of parts. -/
theorem exists_isInfix_of_makeUp {names : List (List Char)} {word : List Char} (hword : IsBare word)
    (h : MakeUp word names) : ∃ parts, ArePlain names parts ∧ braced word <:+: parts.flatten := by
  rcases h with ⟨a, ha, hin⟩ | ⟨a, ha, b, hb, front, mid, back, hcut, ⟨r, hfront⟩, r', hback⟩
  · refine ⟨[a], ?_, by simpa using hin⟩
    intro s hs
    rw [List.mem_singleton] at hs
    exact .inr (hs ▸ ha)
  · refine ⟨[a, mid, b], ?_, r, r', ?_⟩
    · intro s hs
      rw [List.mem_cons, List.mem_cons, List.mem_singleton] at hs
      rcases hs with rfl | rfl | rfl
      · exact .inr ha
      · refine .inl ⟨fun hm => hword.1 ?_, fun hm => hword.2 ?_⟩
        all_goals
          rw [hcut]
          exact List.mem_append_left back (List.mem_append_right front hm)
      · exact .inr hb
    · rw [← hfront, ← hback, braced, hcut]
      simp

/-! ### Filling one kind of mark -/

theorem isBare_word (m : Mark) : IsBare m.word := by
  cases m <;> decide

theorem brace_not_mem_tail (m : Mark) : '\x7b' ∉ m.word ++ ['\x7d'] := by
  cases m <;> decide

/-- A mark of another kind stays. -/
theorem replaceAll_braced_of_ne {m other : Mark} (h : other ≠ m) (new rest : List Char) :
    Text.replaceAll (braced m.word) new (braced other.word ++ rest)
      = braced other.word ++ Text.replaceAll (braced m.word) new rest := by
  have hfront : ¬braced m.word <+: '\x7b' :: (other.word ++ ['\x7d'] ++ rest) := by
    cases m <;> cases other <;> simp [braced, Mark.word] at h ⊢
  show Text.replaceAll (braced m.word) new ('\x7b' :: (other.word ++ ['\x7d'] ++ rest)) = _
  rw [braced, Text.replaceAll_cons_of_not_isPrefix hfront,
    Text.replaceAll_append_of_not_mem (brace_not_mem_tail other)]
  rfl

theorem arePlain_nil (names : List (List Char)) : ArePlain names [] :=
  fun _ hs => absurd hs List.not_mem_nil

theorem ArePlain.concat {names parts : List (List Char)} (h : ArePlain names parts)
    {s : List Char} (hs : IsBare s ∨ s ∈ names) : ArePlain names (parts ++ [s]) := by
  intro r hr
  rcases List.mem_append.1 hr with hr | hr
  · exact h r hr
  · rwa [List.mem_singleton.1 hr]

section Fill

variable {names : List (List Char)} {m : Mark} (hnames : ¬MakeUp m.word names)
include hnames

/-- Parts that no mark is made up in stay in front of any mark. -/
theorem replaceAll_flatten_braced {parts : List (List Char)} (hparts : ArePlain names parts)
    (new word rest : List Char) :
    Text.replaceAll (braced m.word) new (parts.flatten ++ (braced word ++ rest))
      = parts.flatten ++ Text.replaceAll (braced m.word) new (braced word ++ rest) := by
  have hin : ¬braced m.word <:+: parts.flatten := fun hin => hnames (makeUp_of_isInfix hparts hin)
  apply Text.replaceAll_append_of_not_isInfix (brace_not_mem_tail m) hin
  intro d hd
  exact (Option.some.inj hd).symm

variable {v : Mark → List Char} (hm : v m = braced m.word)
  (hv : ∀ other, v other = braced other.word ∨ v other ∈ names)
include hm hv

/-- The parts in front are those that were read since the last mark. -/
theorem replaceAll_flatten_render (new : List Char) {pieces : List Piece}
    (hpieces : ∀ piece ∈ pieces, piece.IsPlain) {parts : List (List Char)}
    (hparts : ArePlain names parts) :
    Text.replaceAll (braced m.word) new (parts.flatten ++ render v pieces)
      = parts.flatten ++ render (Function.update v m new) pieces := by
  induction pieces generalizing parts with
  | nil =>
    have hin : ¬braced m.word <:+: parts.flatten := fun hin => hnames (makeUp_of_isInfix hparts hin)
    show Text.replaceAll (braced m.word) new (parts.flatten ++ []) = parts.flatten ++ []
    rw [List.append_nil]
    exact (Text.replaceAll_eq_self_iff (brace_not_mem_tail m)).2 (.inr hin)
  | cons piece pieces ih =>
    obtain ⟨hpiece, hrest⟩ := List.forall_mem_cons.1 hpieces
    -- a text and a name are parts like those in front
    have hpart : ∀ s, IsBare s ∨ s ∈ names →
        Text.replaceAll (braced m.word) new (parts.flatten ++ (s ++ render v pieces))
          = parts.flatten ++ (s ++ render (Function.update v m new) pieces) := by
      intro s hs
      have hjoined := ih hrest (hparts.concat hs)
      rwa [List.flatten_append, List.flatten_singleton, List.append_assoc,
        List.append_assoc] at hjoined
    cases piece with
    | text s => exact hpart s (.inl hpiece)
    | mark other =>
      have hbehind : Text.replaceAll (braced m.word) new (render v pieces)
          = render (Function.update v m new) pieces := ih hrest (arePlain_nil names)
      show Text.replaceAll (braced m.word) new (parts.flatten ++ (v other ++ render v pieces))
        = parts.flatten
          ++ (Function.update v m new other ++ render (Function.update v m new) pieces)
      by_cases hother : other = m
      · rw [hother, hm, Function.update_self, replaceAll_flatten_braced hnames hparts, ← hbehind]
        exact congrArg (parts.flatten ++ ·) (Text.replaceAll_self _ _ _ _)
      · rw [Function.update_of_ne hother]
        rcases hv other with hown | hname
        · rw [hown, replaceAll_flatten_braced hnames hparts, replaceAll_braced_of_ne hother,
            hbehind]
        · exact hpart (v other) (.inr hname)

/-- **One kind of mark is filled wherever it stands in the template, and nowhere else**, if no name
that was put in before makes it up. -/
theorem replaceAll_render (new : List Char) {pieces : List Piece}
    (hpieces : ∀ piece ∈ pieces, piece.IsPlain) :
    Text.replaceAll (braced m.word) new (render v pieces)
      = render (Function.update v m new) pieces :=
  replaceAll_flatten_render hnames hm hv new hpieces (arePlain_nil names)

end Fill

/-! ### Filling all marks -/

/-- A text without marks stays. -/
theorem fill_of_not_mem {template : String} (h : '\x7b' ∉ template.toList) (t : Table)
    (f : Option Field) : fill template t f = template := by
  have hstay : ∀ (m : Mark) (name : String),
      replace (String.ofList (braced m.word)) name template = template := by
    intro m name
    rw [replace, String.toList_ofList, braced, Text.replaceAll_of_not_mem h, String.ofList_toList]
  cases f with
  | none => exact hstay .table t.name
  | some f =>
    show replace (String.ofList (braced Mark.type.word)) f.type
      (replace (String.ofList (braced Mark.field.word)) f.name
        (replace (String.ofList (braced Mark.table.word)) t.name template)) = template
    rw [hstay, hstay, hstay]

theorem replace_ofList (m : Mark) (name : String) (s : List Char) :
    replace (String.ofList (braced m.word)) name (String.ofList s)
      = String.ofList (Text.replaceAll (braced m.word) name.toList s) := by
  rw [replace, String.toList_ofList, String.toList_ofList]

/-- What stands for each mark when the marks of the table are filled. -/
def tableFilled (t : Table) : Mark → List Char :=
  Function.update (fun m => braced m.word) .table t.name.toList

/-- What stands for each mark when the marks of the field are filled, too. -/
def fieldFilled (t : Table) (f : Field) : Mark → List Char :=
  Function.update (tableFilled t) .field f.name.toList

theorem update_fieldFilled (t : Table) (f : Field) :
    Function.update (fieldFilled t f) .type f.type.toList = Mark.meaning t f := by
  funext m
  cases m <;> rfl

variable {t : Table} {pieces : List Piece}

/-- No name is there yet when the first marks are filled. -/
theorem fill_written (hpieces : ∀ piece ∈ pieces, piece.IsPlain) (f : Field) :
    fill (written pieces) t (some f)
      = String.ofList (Text.replaceAll (braced Mark.type.word) f.type.toList
          (Text.replaceAll (braced Mark.field.word) f.name.toList
            (render (tableFilled t) pieces))) := by
  have htable : Text.replaceAll (braced Mark.table.word) t.name.toList
      (render (fun m => braced m.word) pieces) = render (tableFilled t) pieces := by
    have hnone : ¬MakeUp Mark.table.word [] := not_makeUp_of_not_mem (by simp) _
    exact replaceAll_render hnone rfl (fun _ => .inl rfl) _ hpieces
  show replace (String.ofList (braced Mark.type.word)) f.type
      (replace (String.ofList (braced Mark.field.word)) f.name
        (replace (String.ofList (braced Mark.table.word)) t.name (written pieces))) = _
  rw [written, replace_ofList, replace_ofList, replace_ofList, htable]

theorem replaceAll_tableFilled (hpieces : ∀ piece ∈ pieces, piece.IsPlain) {f : Field}
    (h : f.name.toList = braced Mark.field.word ∨ ¬MakeUp Mark.field.word [t.name.toList]) :
    Text.replaceAll (braced Mark.field.word) f.name.toList (render (tableFilled t) pieces)
      = render (fieldFilled t f) pieces := by
  rcases h with hown | hnames
  · have hsame : fieldFilled t f = tableFilled t := by
      rw [fieldFilled, hown]
      exact Function.update_eq_self Mark.field (tableFilled t)
    rw [hsame, hown, Text.replaceAll_same]
  · refine replaceAll_render hnames rfl (fun m => ?_) _ hpieces
    cases m
    · exact .inr List.mem_cons_self
    · exact .inl rfl
    · exact .inl rfl

theorem replaceAll_fieldFilled (hpieces : ∀ piece ∈ pieces, piece.IsPlain) {f : Field}
    (h : ¬MakeUp Mark.type.word [t.name.toList, f.name.toList]) :
    Text.replaceAll (braced Mark.type.word) f.type.toList (render (fieldFilled t f) pieces)
      = render (Mark.meaning t f) pieces := by
  rw [← update_fieldFilled]
  refine replaceAll_render h rfl (fun m => ?_) _ hpieces
  cases m
  · exact .inr List.mem_cons_self
  · exact .inr (List.mem_cons_of_mem _ List.mem_cons_self)
  · exact .inl rfl

/-- Parts in which names stand are what pieces with marks are filled to. -/
theorem exists_pieces (v : Mark → List Char) (marks : List Mark) {parts : List (List Char)}
    (h : ArePlain (marks.map v) parts) :
    ∃ pieces : List Piece, (∀ piece ∈ pieces, piece.IsPlain) ∧
      ∀ w : Mark → List Char, (∀ m ∈ marks, w m = v m) → render w pieces = parts.flatten := by
  induction parts with
  | nil => exact ⟨[], by simp, fun _ _ => rfl⟩
  | cons s parts ih =>
    obtain ⟨pieces, hpieces, hrender⟩ := ih fun r hr => h r (List.mem_cons_of_mem _ hr)
    rcases h s List.mem_cons_self with hbare | hname
    · refine ⟨.text s :: pieces, List.forall_mem_cons.2 ⟨hbare, hpieces⟩, fun w hw => ?_⟩
      exact congrArg (s ++ ·) (hrender w hw)
    · obtain ⟨m, hm, rfl⟩ := List.mem_map.1 hname
      refine ⟨.mark m :: pieces, List.forall_mem_cons.2 ⟨trivial, hpieces⟩, fun w hw => ?_⟩
      show w m ++ render w pieces = v m ++ parts.flatten
      rw [hw m hm, hrender w hw]

/-- Every template is filled as if all its marks were filled at once, whatever the type is. -/
def FillsAtOnce (t : Table) (name : String) : Prop :=
  ∀ pieces : List Piece, (∀ piece ∈ pieces, piece.IsPlain) → ∀ f : Field, f.name = name →
    fill (written pieces) t (some f) = filled t f pieces

variable {name : String}

theorem FillsAtOnce.replaceAll_eq (h : FillsAtOnce t name)
    (hpieces : ∀ piece ∈ pieces, piece.IsPlain) (type : String) :
    Text.replaceAll (braced Mark.type.word) type.toList
        (Text.replaceAll (braced Mark.field.word) name.toList (render (tableFilled t) pieces))
      = render (Mark.meaning t ⟨name, type, .empty⟩) pieces := by
  have hfill := h pieces hpieces ⟨name, type, .empty⟩ rfl
  rw [fill_written hpieces, filled, String.ofList_inj] at hfill
  exact hfill

/-- A type that is the mark of types leaves every text alone, so the name of the field is to blame. -/
theorem FillsAtOnce.not_makeUp_field (h : FillsAtOnce t name) :
    name.toList = braced Mark.field.word ∨ ¬MakeUp Mark.field.word [t.name.toList] := by
  by_contra hnot
  obtain ⟨hne, hup⟩ := not_or.1 hnot
  obtain ⟨parts, hparts, hin⟩ := exists_isInfix_of_makeUp (isBare_word .field) (not_not.1 hup)
  obtain ⟨pieces, hpieces, hrender⟩ := exists_pieces (tableFilled t) [.table] hparts
  have hself := h.replaceAll_eq hpieces typeMark
  rw [hrender _ fun _ _ => rfl, hrender _ fun m hm => by rw [List.mem_singleton.1 hm]; rfl] at hself
  have htype : typeMark.toList = braced Mark.type.word := rfl
  rw [htype, Text.replaceAll_same] at hself
  rcases (Text.replaceAll_eq_self_iff (brace_not_mem_tail .field)).1 hself with hown | hout
  · exact hne hown
  · exact hout hin

/-- A type without characters shows every mark of types that the names make up. -/
theorem FillsAtOnce.not_makeUp_type (h : FillsAtOnce t name) :
    ¬MakeUp Mark.type.word [t.name.toList, name.toList] := by
  intro hup
  obtain ⟨parts, hparts, hin⟩ := exists_isInfix_of_makeUp (isBare_word .type) hup
  let f : Field := ⟨name, "", .empty⟩
  obtain ⟨pieces, hpieces, hrender⟩ := exists_pieces (fieldFilled t f) [.table, .field] hparts
  have hself := h.replaceAll_eq hpieces ""
  have hfield := replaceAll_tableFilled (f := f) hpieces h.not_makeUp_field
  have hmeaning : ∀ m ∈ [Mark.table, Mark.field], Mark.meaning t f m = fieldFilled t f m := by
    rintro m (_ | ⟨_, _ | ⟨_, ⟨⟩⟩⟩) <;> rfl
  rw [hfield, hrender _ fun _ _ => rfl, hrender _ hmeaning] at hself
  rcases (Text.replaceAll_eq_self_iff (brace_not_mem_tail .type)).1 hself with hown | hout
  · cases hown
  · exact hout hin

/-- Where no name makes up a mark that is filled behind it, all marks are filled at once. -/
theorem fillsAtOnce_of_not_makeUp
    (hfield : name.toList = braced Mark.field.word ∨ ¬MakeUp Mark.field.word [t.name.toList])
    (htype : ¬MakeUp Mark.type.word [t.name.toList, name.toList]) : FillsAtOnce t name := by
  rintro pieces hpieces f rfl
  rw [fill_written hpieces, replaceAll_tableFilled hpieces hfield,
    replaceAll_fieldFilled hpieces htype, filled]

/-- Names without an opening brace are never taken for marks. -/
theorem fillsAtOnce_of_not_mem (ht : '\x7b' ∉ t.name.toList) (hname : '\x7b' ∉ name.toList) :
    FillsAtOnce t name := by
  apply fillsAtOnce_of_not_makeUp
  · exact .inr (not_makeUp_of_not_mem (List.forall_mem_singleton.2 ht) _)
  · refine not_makeUp_of_not_mem (List.forall_mem_cons.2 ⟨ht, ?_⟩) _
    exact List.forall_mem_singleton.2 hname

/-- **Templates name their subject exactly if no name makes up a mark that is filled behind it**:
the table's name makes up no mark of a field, unless the field is called like that mark, and the two
names make up no mark of a type. -/
theorem fillsAtOnce_iff (t : Table) (name : String) :
    FillsAtOnce t name
      ↔ (name.toList = braced Mark.field.word ∨ ¬MakeUp Mark.field.word [t.name.toList]) ∧
        ¬MakeUp Mark.type.word [t.name.toList, name.toList] := by
  constructor
  · intro h
    exact ⟨h.not_makeUp_field, h.not_makeUp_type⟩
  · rintro ⟨hfield, htype⟩
    exact fillsAtOnce_of_not_makeUp hfield htype

/-- The words that name a field and its table, in pieces. -/
def fieldInTablePieces : List Piece :=
  [.text "Field '".toList, .mark .field, .text "' in table '".toList, .mark .table,
    .text "'".toList]

/-- A table that is called like the mark of fields gets the name of the field. -/
theorem fill_fieldInTable_ne :
    (∀ piece ∈ fieldInTablePieces, piece.IsPlain) ∧ written fieldInTablePieces = fieldInTable ∧
      fill fieldInTable ⟨"orders", "\x7bfield\x7d", []⟩ (some ⟨"bio", "text", .empty⟩)
        = "Field 'bio' in table 'bio'" ∧
      filled ⟨"orders", "\x7bfield\x7d", []⟩ ⟨"bio", "text", .empty⟩ fieldInTablePieces
        = "Field 'bio' in table '\x7bfield\x7d'" := by
  refine ⟨?_, by decide, by decide +kernel, by decide⟩
  unfold fieldInTablePieces
  decide

end SchemaAudit.Template
