import SchemaAudit.Outline
import SchemaAudit.Outline.Line
import SchemaAudit.Proofs.Text.Lines
import SchemaAudit.Proofs.Text.Search

/-!
# Written lines are read as they are meant

Every kind of line that an outline has, written for names and types of any length, is read as a
line of its own kind with the same names, type and tags.

* `Line.ofText_opening`, `Line.ofText_closing`, `Line.ofText_field`, `Line.ofText_reference`: one
  statement for each kind of line.
* `splitOn_tags`: a list of tags is cut at its commas into the tags it was written from.

Names are read up to the next double quote, so a name with a double quote, or an empty one, is not
among those treated here.
-/

namespace SchemaAudit.Outline

open Ddl
open Text (isBlank EndsInk)

/-! ### Names and types that a line can hold -/

/-- A name that a line can hold: not empty, without a double quote, and on one line. -/
def IsPlain (name : String) : Prop :=
  name ≠ "" ∧ '\x22' ∉ name.toList ∧ '\n' ∉ name.toList

/-- A type that a line can hold: not empty, and without blanks. -/
def IsWord (type : String) : Prop := type ≠ "" ∧ ∀ c ∈ type.toList, isBlank c = false

/-- A tag that a list of tags can hold. -/
def IsTagWord (tag : String) : Prop :=
  ',' ∉ tag.toList ∧ ']' ∉ tag.toList ∧ '\n' ∉ tag.toList

instance (name : String) : Decidable (IsPlain name) :=
  inferInstanceAs (Decidable (_ ∧ _ ∧ _))

instance (type : String) : Decidable (IsWord type) :=
  @instDecidableAnd _ _ _ (List.decidableBAll _ _)

instance (tag : String) : Decidable (IsTagWord tag) :=
  inferInstanceAs (Decidable (_ ∧ _ ∧ _))

theorem quote_toList (name : String) :
    (quote name).toList = '\x22' :: (name.toList ++ ['\x22']) := by
  simp [quote]

theorem newline_not_mem_quote {name : String} (h : IsPlain name) : '\n' ∉ (quote name).toList := by
  rw [quote_toList]
  simp [h.2.2]

/-- What is read behind a written name is what was written behind it. -/
theorem quotedName?_quote {name : String} (h : IsPlain name) (rest : List Char) :
    quotedName? ((quote name).toList ++ rest) = some (name, rest) := by
  obtain ⟨hne, hq, -⟩ := h
  have hcut : Text.cutAt? '\x22' (name.toList ++ '\x22' :: rest) = some (name.toList, rest) :=
    Text.cutAt?_append hq rest
  have hnil : name.toList ≠ [] := fun e => hne (String.toList_eq_nil_iff.1 e)
  rw [quote_toList, List.cons_append, List.append_assoc, List.singleton_append]
  simp only [quotedName?, if_pos, hcut, String.ofList_toList]

theorem qualifiedField?_quote {table field : String} (ht : IsPlain table) (hf : IsPlain field)
    (rest : List Char) :
    qualifiedField? ((quote table).toList ++ '.' :: ((quote field).toList ++ rest))
      = some ((table, field), rest) := by
  have hdot : Text.strip? ['.'] ('.' :: ((quote field).toList ++ rest))
      = some ((quote field).toList ++ rest) := Text.strip?_append ['.'] _
  simp [qualifiedField?, quotedName?_quote ht, quotedName?_quote hf, hdot]

theorem trimStart_quote (name : String) (rest : List Char) :
    Text.trimStart ((quote name).toList ++ rest) = (quote name).toList ++ rest := by
  rw [quote_toList, List.cons_append]
  exact Text.trimStart_cons (by decide) _

/-- One space in front of ink is a gap. -/
theorem skipGap?_space {s : List Char} (h : Text.trimStart s = s) :
    skipGap? (' ' :: s) = some s := by
  rw [skipGap?, if_pos (by decide), h]

/-! ### Lines that open and close a table -/

theorem opening?_written {name : String} (h : IsPlain name) (rest : List Char) :
    opening? ("Table ".toList ++ ((quote name).toList ++ rest)) = some name := by
  have hs : Text.strip? "Table".toList ("Table ".toList ++ ((quote name).toList ++ rest))
      = some (' ' :: ((quote name).toList ++ rest)) := Text.strip?_append "Table".toList _
  have hg := skipGap?_space (trimStart_quote name rest)
  simp only [opening?, hs, Option.bind_eq_bind, Option.bind_some, hg, quotedName?_quote h]

theorem Line.ofText_opening {name : String} (h : IsPlain name) (rest : List Char) :
    Line.ofText ("Table ".toList ++ ((quote name).toList ++ rest)) = .opening name := by
  have hc : "Table ".toList ++ ((quote name).toList ++ rest) ≠ ofText.closingBrace := by
    intro e
    exact absurd (List.cons.inj e).1 (by decide)
  rw [Line.ofText, if_neg hc, opening?_written h]

theorem Line.ofText_closing : Line.ofText closingBrace.toList = .closing := rfl

/-! ### Lines that hold a field -/

theorem intercalate_comma_space (first : List Char) (rest : List (List Char)) :
    [',', ' '].intercalate (first :: rest) = [','].intercalate (first :: rest.map (' ' :: ·)) := by
  induction rest generalizing first with
  | nil => rfl
  | cons second rest ih =>
    simp only [List.intercalate_cons_cons, List.map_cons]
    rw [ih second]
    cases rest <;> simp [List.intercalate_cons_cons]

/-- A list of tags is cut at its commas into the tags it was written from; all but the first have a
space in front. -/
theorem splitOn_tags {first : String} {rest : List String} (h : ∀ t ∈ first :: rest, IsTagWord t) :
    (String.intercalate ", " (first :: rest)).toList.splitOn ','
      = first.toList :: rest.map (' ' :: ·.toList) := by
  have hno : ∀ l ∈ first.toList :: (rest.map String.toList).map (' ' :: ·), ',' ∉ l := by
    intro l hl
    rcases List.mem_cons.1 hl with rfl | hl
    · exact (h first List.mem_cons_self).1
    · rw [List.map_map] at hl
      obtain ⟨t, ht, rfl⟩ := List.mem_map.1 hl
      have := (h t (List.mem_cons_of_mem _ ht)).1
      simpa using this
  rw [String.toList_intercalate, List.map_cons]
  show ([',', ' '].intercalate (first.toList :: rest.map String.toList)).splitOn ',' = _
  rw [intercalate_comma_space, List.splitOn_intercalate ',' hno (by simp), List.map_map]
  rfl

theorem ofText?_space (s : List Char) : Tag.ofText? (' ' :: s) = Tag.ofText? s := rfl

/-- The tags that are read from written tags. -/
def tagsOf (tags : List String) : Tags :=
  Tags.ofList (tags.filterMap fun t => Tag.ofText? t.toList)

theorem tagsAfter_written {tags : List String} (h : ∀ t ∈ tags, IsTagWord t) :
    tagsAfter (tagList tags).toList = tagsOf tags := by
  cases tags with
  | nil => rfl
  | cons first rest =>
    have htext : (tagList (first :: rest)).toList
        = ' ' :: '[' :: ((String.intercalate ", " (first :: rest)).toList ++ [']']) := by
      simp [tagList]
    have hgap : skipGap? (tagList (first :: rest)).toList
        = some ('[' :: ((String.intercalate ", " (first :: rest)).toList ++ [']'])) := by
      rw [htext]
      exact skipGap?_space (Text.trimStart_cons (by decide) _)
    have hopen := Text.strip?_append ['[']
      ((String.intercalate ", " (first :: rest)).toList ++ [']'])
    have hno : ']' ∉ (String.intercalate ", " (first :: rest)).toList := by
      rw [String.toList_intercalate]
      refine Text.not_mem_intercalate (by decide) fun l hl => ?_
      obtain ⟨t, ht, rfl⟩ := List.mem_map.1 hl
      exact (h t ht).2.1
    have hcut := Text.cutAt?_append hno []
    have hread : ((String.intercalate ", " (first :: rest)).toList.splitOn ',').filterMap Tag.ofText?
        = (first :: rest).filterMap fun t => Tag.ofText? t.toList := by
      have hspace : (Tag.ofText? ∘ fun t : String => ' ' :: t.toList)
          = fun t => Tag.ofText? t.toList := by
        funext t
        rw [Function.comp_apply, ofText?_space]
      rw [splitOn_tags h, List.filterMap_cons, List.filterMap_cons, List.filterMap_map, hspace]
    rw [tagsAfter, hgap]
    simp only [Option.bind_eq_bind, Option.bind_some]
    rw [show '[' :: ((String.intercalate ", " (first :: rest)).toList ++ [']'])
        = ['['] ++ ((String.intercalate ", " (first :: rest)).toList ++ [']']) from rfl, hopen]
    simp only [Option.bind_some, hcut, Option.getD_some, hread]
    rfl

/-- The text of a field without the blanks in front of it. -/
def fieldText (name type : String) (tags : List String) : List Char :=
  (quote name).toList ++ ' ' :: (type.toList ++ (tagList tags).toList)

theorem field?_written {name type : String} {tags : List String} (hn : IsPlain name)
    (ht : IsWord type) (hk : ∀ t ∈ tags, IsTagWord t) :
    field? (fieldText name type tags) = some ⟨name, type, tagsOf tags⟩ := by
  obtain ⟨hne, hink⟩ := ht
  have hpos : ∀ c ∈ type.toList, (!isBlank c) = true := fun c hc => by simp [hink c hc]
  obtain ⟨c, chars, hc⟩ := List.exists_cons_of_ne_nil fun e => hne (String.toList_eq_nil_iff.1 e)
  have hgap : skipGap? (' ' :: (type.toList ++ (tagList tags).toList))
      = some (type.toList ++ (tagList tags).toList) := by
    apply skipGap?_space
    rw [hc, List.cons_append]
    exact Text.trimStart_cons (hink c (hc ▸ List.mem_cons_self)) _
  -- behind the type stands nothing or a space, so that the type is read to its end
  have hstop : (tagList tags).toList.takeWhile (fun c => !isBlank c) = []
      ∧ (tagList tags).toList.dropWhile (fun c => !isBlank c) = (tagList tags).toList := by
    cases tags with
    | nil => exact ⟨rfl, rfl⟩
    | cons first rest =>
      have htext : (tagList (first :: rest)).toList
          = ' ' :: '[' :: ((String.intercalate ", " (first :: rest)).toList ++ [']']) := by
        simp [tagList]
      rw [htext]
      exact ⟨rfl, rfl⟩
  have htake : (type.toList ++ (tagList tags).toList).takeWhile (fun c => !isBlank c)
      = type.toList := by
    rw [List.takeWhile_append_of_pos hpos, hstop.1, List.append_nil]
  have hdrop : (type.toList ++ (tagList tags).toList).dropWhile (fun c => !isBlank c)
      = (tagList tags).toList := by
    rw [List.dropWhile_append_of_pos hpos, hstop.2]
  simp only [field?, fieldText, quotedName?_quote hn, Option.bind_eq_bind, Option.bind_some, hgap,
    htake, hdrop, tagsAfter_written hk]
  rw [hc]
  simp [← hc]

theorem Line.ofText_field {name type : String} {tags : List String} (hn : IsPlain name)
    (ht : IsWord type) (hk : ∀ t ∈ tags, IsTagWord t) :
    Line.ofText (fieldText name type tags) = .field ⟨name, type, tagsOf tags⟩ := by
  -- the line begins with a double quote, which no other kind of line does
  obtain ⟨rest, hq⟩ : ∃ rest, fieldText name type tags = '\x22' :: rest :=
    ⟨_, by rw [fieldText, quote_toList, List.cons_append]⟩
  have hc : fieldText name type tags ≠ ofText.closingBrace := by
    rw [hq]
    intro e
    exact absurd (List.cons.inj e).1 (by decide)
  have ho : opening? (fieldText name type tags) = none := by rw [hq]; rfl
  have hr : reference? (fieldText name type tags) = none := by rw [hq]; rfl
  rw [Line.ofText, if_neg hc, ho, hr, field?_written hn ht hk]

/-! ### Lines that hold a reference -/

/-- The text of a reference; `sign` is what stands between its two ends. -/
def referenceText (r : Reference) (sign : String) : List Char :=
  "Ref: ".toList ++ ((quote r.source).toList ++ '.' :: ((quote r.sourceField).toList
    ++ (sign.toList ++ ((quote r.target).toList ++ '.' :: ((quote r.targetField).toList ++ [])))))

/-- A reference of which all names can be written. -/
def Reference.IsPlain (r : Reference) : Prop :=
  Outline.IsPlain r.source ∧ Outline.IsPlain r.sourceField ∧ Outline.IsPlain r.target
    ∧ Outline.IsPlain r.targetField

theorem reference?_written {r : Reference} (h : r.IsPlain) {sign : String}
    (hs : sign = " - " ∨ sign = " > ") : reference? (referenceText r sign) = some r := by
  obtain ⟨hsource, hsourceField, htarget, htargetField⟩ := h
  let target := (quote r.target).toList ++ '.' :: ((quote r.targetField).toList ++ [])
  let source := (quote r.source).toList ++ '.' :: ((quote r.sourceField).toList ++ (sign.toList ++ target))
  have href : Text.strip? "Ref".toList (referenceText r sign) = some (':' :: ' ' :: source) :=
    Text.strip?_append "Ref".toList _
  have hname : Text.trimStart (skipReferenceName (':' :: ' ' :: source)) = ':' :: ' ' :: source := rfl
  have hcolon : Text.strip? [':'] (':' :: ' ' :: source) = some (' ' :: source) :=
    Text.strip?_append [':'] _
  have hgap : Text.trimStart (' ' :: source) = source := trimStart_quote r.source _
  have hfirst : qualifiedField? source = some ((r.source, r.sourceField), sign.toList ++ target) :=
    qualifiedField?_quote hsource hsourceField _
  have hsign : skipSign? (Text.trimStart (sign.toList ++ target)) = some (' ' :: target) := by
    rcases hs with rfl | rfl <;> rfl
  have hgap' : Text.trimStart (' ' :: target) = target := trimStart_quote r.target _
  have hsecond : qualifiedField? target = some ((r.target, r.targetField), []) :=
    qualifiedField?_quote htarget htargetField _
  simp only [reference?, href, hname, hcolon, hgap, hfirst, hsign, hgap', hsecond,
    Option.bind_eq_bind, Option.bind_some]

theorem Line.ofText_reference {r : Reference} (h : r.IsPlain) {sign : String}
    (hs : sign = " - " ∨ sign = " > ") : Line.ofText (referenceText r sign) = .reference r := by
  have hc : referenceText r sign ≠ ofText.closingBrace := by
    intro e
    exact absurd (List.cons.inj e).1 (by decide)
  have ho : opening? (referenceText r sign) = none := rfl
  rw [Line.ofText, if_neg hc, ho, reference?_written h hs]

end SchemaAudit.Outline
