import Mathlib.Data.List.Basic
import SchemaAudit.Json.Print
import SchemaAudit.Json.Read

/-!
# Written values are read back

Reading the text of a value gives the value, whatever its texts hold: quotes, backslashes and
control characters are escaped and come back as themselves. The reader spends fuel; three steps for
each character of the text are enough for every value in it.

* `escapedChar_cases`, `textTail_escapedChar`: one character of a text, escaped or not, is read as
  itself.
* `IsComplete`: values in which nothing broke off and which hold no numbers.
* `ReadsBack`: a value is read from its text in front of anything.
* `IsComplete.readsBack`: all complete values are, by induction on how they are made.
* `read_print`: the text of a complete value holds that value and nothing else.

Numbers are left out: where one ends depends on what follows it.
-/

namespace SchemaAudit.Json

/-! ### Texts -/

theorem hexValue?_hexDigit : ∀ n < 16, Text.hexValue? (hexDigit n) = some n := by decide

/-- The code of a control character stands for it. -/
theorem codeChar_control {c : Char} (h : c.toNat < 32) (s : List Char) :
    codeChar ('0' :: '0' :: hexDigit (c.toNat / 16) :: hexDigit (c.toNat % 16) :: s)
      = .ok (some c, s) := by
  have hcode : code ('0' :: '0' :: hexDigit (c.toNat / 16) :: hexDigit (c.toNat % 16) :: s)
      = .ok (c.toNat, s) := by
    have hzero : Text.hexValue? '0' = some 0 := by decide
    have hvalue : ((0 * 16 + 0) * 16 + c.toNat / 16) * 16 + c.toNat % 16 = c.toNat := by omega
    rw [code, hzero, hexValue?_hexDigit _ (by omega), hexValue?_hexDigit _ (by omega)]
    simp only [hvalue]
  have htrailing : isTrailing c.toNat = false := by
    rw [isTrailing, Bool.and_eq_false_iff]
    exact .inl (decide_eq_false (by omega))
  have hleading : isLeading c.toNat = false := by
    rw [isLeading, Bool.and_eq_false_iff]
    exact .inl (decide_eq_false (by omega))
  rw [codeChar, hcode]
  simp only [htrailing, hleading, Char.ofNat_toNat, Bool.false_eq_true, if_false, Bool.not_false,
    if_true]

/-- **What a character is written as**: the letter of an escape, the code of a control character,
or the character itself. -/
theorem escapedChar_cases (c : Char) :
    (∃ e, escapedChar c = ['\\', e] ∧ e ≠ 'u' ∧ control? e = some c)
      ∨ (c.toNat < 32 ∧ escapedChar c
        = ['\\', 'u', '0', '0', hexDigit (c.toNat / 16), hexDigit (c.toNat % 16)])
      ∨ (c ≠ '\x22' ∧ c ≠ '\\' ∧ ¬ c.toNat < 32 ∧ escapedChar c = [c]) := by
  by_cases hletter : c ∈ ['\x22', '\\', '\x08', '\x0c', '\n', '\r', '\t']
  · left
    simp only [List.mem_cons, List.not_mem_nil, or_false] at hletter
    rcases hletter with rfl | rfl | rfl | rfl | rfl | rfl | rfl
      <;> exact ⟨_, rfl, by decide, rfl⟩
  · right
    simp only [List.mem_cons, List.not_mem_nil, or_false, not_or] at hletter
    by_cases hcontrol : c.toNat < 32
    · exact .inl ⟨hcontrol, by simp only [escapedChar, hletter, hcontrol, if_false, if_true]⟩
    · exact .inr ⟨hletter.1, hletter.2.1, hcontrol,
        by simp only [escapedChar, hletter, hcontrol, if_false]⟩

/-- **One character of a text is read as itself**, and the rest of the text behind it. -/
theorem textTail_escapedChar (c : Char) (fuel : Nat) (s : List Char) :
    textTail (fuel + 1) (escapedChar c ++ s) = textTail.push (some c) (textTail fuel s) := by
  rcases escapedChar_cases c with ⟨e, htext, hne, he⟩ | ⟨hcontrol, htext⟩
    | ⟨hquote, hbackslash, hcontrol, htext⟩
  · rw [htext, List.cons_append, List.singleton_append, textTail, if_neg (by decide), if_pos rfl]
    simp only [if_neg hne, he]
  · rw [htext]
    show textTail (fuel + 1) ('\\' :: 'u' :: '0' :: '0' :: hexDigit (c.toNat / 16)
      :: hexDigit (c.toNat % 16) :: s) = _
    rw [textTail, if_neg (by decide), if_pos rfl]
    simp only [if_true, codeChar_control hcontrol]
  · rw [htext, List.singleton_append, textTail.eq_def]
    simp only [if_neg hquote, if_neg hbackslash, if_neg hcontrol]

theorem escapedChar_length_pos (c : Char) : 0 < (escapedChar c).length := by
  rcases escapedChar_cases c with ⟨e, htext, -⟩ | ⟨-, htext⟩ | ⟨-, -, -, htext⟩
    <;> simp [htext]

/-- **A text is read up to its closing quote.** -/
theorem textTail_flatMap (cs rest : List Char) {fuel : Nat}
    (hfuel : (cs.flatMap escapedChar).length < fuel) :
    textTail fuel (cs.flatMap escapedChar ++ '\x22' :: rest) = .ok (some cs, rest) := by
  induction cs generalizing fuel with
  | nil =>
    obtain ⟨fuel, rfl⟩ : ∃ n, fuel = n + 1 := ⟨fuel - 1, by omega⟩
    rw [List.flatMap_nil, List.nil_append, textTail.eq_def]
    rfl
  | cons c cs ih =>
    rw [List.flatMap_cons, List.length_append] at hfuel
    have hpos := escapedChar_length_pos c
    obtain ⟨fuel, rfl⟩ : ∃ n, fuel = n + 1 := ⟨fuel - 1, by omega⟩
    rw [List.flatMap_cons, List.append_assoc, textTail_escapedChar, ih (by omega)]
    rfl

/-! ### Complete values -/

/-- Values without numbers in which nothing broke off. -/
inductive IsComplete : Json → Prop
  | null : IsComplete .null
  | bool (b : Bool) : IsComplete (.bool b)
  | string (s : String) : IsComplete (.string s)
  | list {items : List Json} (h : ∀ j ∈ items, IsComplete j) : IsComplete (.list items)
  | record {members : List (String × Json)} (h : ∀ m ∈ members, IsComplete m.2) :
    IsComplete (.record members)

attribute [simp] IsComplete.null IsComplete.bool IsComplete.string

/-- A value is read from its text, whatever follows. -/
def ReadsBack (j : Json) : Prop :=
  ∀ (fuel : Nat) (rest : List Char), 3 * (compact j).length ≤ fuel →
    value fuel (compact j ++ rest) = (j, some rest)

/-- The text of a member. -/
def memberText (m : String × Json) : List Char := stringText m.1 ++ ':' :: compact m.2

theorem compactItems_eq_map (items : List Json) : compactItems items = items.map compact := by
  induction items with
  | nil => rfl
  | cons j items ih => rw [compactItems, ih, List.map_cons]

theorem compactMembers_eq_map (members : List (String × Json)) :
    compactMembers (members.map fun (key, value) => (.name key, value))
      = members.map memberText := by
  induction members with
  | nil => rfl
  | cons m members ih =>
    rw [List.map_cons, compactMembers, ih, List.map_cons]
    rfl

/-- Between parts, each comma goes with the part behind it. -/
theorem join_cons (part : List Char) (parts : List (List Char)) :
    Text.join [','] (part :: parts) = part ++ parts.flatMap (',' :: ·) := by
  induction parts generalizing part with
  | nil => simp [Text.join]
  | cons part' parts ih =>
    rw [Text.join, List.intercalate_cons_cons, List.flatMap_cons, ← Text.join, ih]
    simp

theorem skipSpace_cons {c : Char} (h : isSpace c = false) (s : List Char) :
    skipSpace (c :: s) = c :: s := by
  simp [skipSpace, h]

/-- A written value begins with a character that ends no list and is not skipped. -/
theorem IsComplete.exists_compact {j : Json} (h : IsComplete j) :
    ∃ c s, compact j = c :: s ∧ isSpace c = false ∧ c ≠ ']' := by
  cases h with
  | null => exact ⟨'n', _, rfl, by decide, by decide⟩
  | bool b => cases b <;> exact ⟨_, _, rfl, by decide, by decide⟩
  | string s => exact ⟨'\x22', _, rfl, by decide, by decide⟩
  | list _ => exact ⟨'[', _, rfl, by decide, by decide⟩
  | record _ => exact ⟨openBrace, _, rfl, by decide, by decide⟩

/-! ### Lists -/

/-- One item is read, and those behind it. -/
theorem item_compact {j : Json} (h : ReadsBack j) {fuel : Nat}
    (hfuel : 3 * (compact j).length ≤ fuel) (s : List Char) :
    item (fuel + 1) (compact j ++ s) = consPart j (items fuel false s) := by
  rw [item, h fuel s hfuel]

theorem items_behind {js : List Json} (h : ∀ j ∈ js, ReadsBack j) {fuel : Nat}
    (hfuel : 3 * ((js.map compact).flatMap (',' :: ·)).length < fuel) (rest : List Char) :
    items fuel false ((js.map compact).flatMap (',' :: ·) ++ ']' :: rest)
      = (js, none, some rest) := by
  induction js generalizing fuel with
  | nil =>
    obtain ⟨fuel, rfl⟩ : ∃ n, fuel = n + 1 := ⟨fuel - 1, by omega⟩
    rw [List.map_nil, List.flatMap_nil, List.nil_append, items, skipSpace_cons (by decide)]
    simp only [if_true]
  | cons j js ih =>
    obtain ⟨hj, hjs⟩ := List.forall_mem_cons.1 h
    simp only [List.map_cons, List.flatMap_cons, List.length_append, List.length_cons] at hfuel
    obtain ⟨fuel, rfl⟩ : ∃ n, fuel = n + 2 := ⟨fuel - 2, by omega⟩
    rw [List.map_cons, List.flatMap_cons, List.append_assoc, List.cons_append, items,
      skipSpace_cons (by decide)]
    simp only [Char.reduceEq, if_false, Bool.false_eq_true, if_true]
    rw [item_compact hj (by omega), ih hjs (by omega)]
    rfl

theorem readsBack_list {js : List Json} (hcomplete : ∀ j ∈ js, IsComplete j)
    (h : ∀ j ∈ js, ReadsBack j) : ReadsBack (.list js) := by
  intro fuel rest hfuel
  have htext : compact (.list js) = '[' :: (Text.join [','] (js.map compact) ++ [']']) := by
    rw [list, compact, compactItems_eq_map]
    rfl
  rw [htext] at hfuel ⊢
  simp only [List.length_cons, List.length_append, List.length_nil] at hfuel
  obtain ⟨fuel, rfl⟩ : ∃ n, fuel = n + 3 := ⟨fuel - 3, by omega⟩
  have hitems : items (fuel + 2) true (Text.join [','] (js.map compact) ++ ']' :: rest)
      = (js, none, some rest) := by
    cases js with
    | nil =>
      rw [List.map_nil, Text.join, List.intercalate_nil, List.nil_append, items,
        skipSpace_cons (by decide)]
      simp only [if_true]
    | cons j js =>
      obtain ⟨hj, hjs⟩ := List.forall_mem_cons.1 h
      obtain ⟨c, s, hfirst, hspace, hclosing⟩ := (List.forall_mem_cons.1 hcomplete).1.exists_compact
      rw [List.map_cons, join_cons, List.length_append] at hfuel
      rw [List.map_cons, join_cons, List.append_assoc, items, hfirst, List.cons_append,
        skipSpace_cons hspace]
      simp only [if_neg hclosing, if_true]
      rw [← List.cons_append, ← hfirst, item_compact hj (by omega), items_behind hjs (by omega)]
      rfl
  rw [List.cons_append, List.append_assoc, List.singleton_append, value, skipSpace_cons (by decide)]
  simp only [Char.reduceEq, if_false, if_true, hitems]
  rfl

/-! ### Records -/

/-- One member is read from behind the quote of its key, and those behind it. -/
theorem member_memberText {m : String × Json} (h : ReadsBack m.2) {fuel : Nat}
    (hfuel : 3 * (memberText m).length ≤ fuel) (s : List Char) :
    ∃ text, memberText m = '\x22' :: text
      ∧ member (fuel + 1) (text ++ s) = consPart (.name m.1, m.2) (members fuel s) := by
  refine ⟨m.1.toList.flatMap escapedChar ++ '\x22' :: ':' :: compact m.2, ?_, ?_⟩
  · simp [memberText, stringText]
  · have hlength : (memberText m).length
        = (m.1.toList.flatMap escapedChar).length + (compact m.2).length + 3 := by
      simp only [memberText, stringText, List.length_append, List.length_cons, List.length_nil]
      omega
    rw [List.append_assoc, List.cons_append, List.cons_append, member,
      textTail_flatMap _ _ (by omega)]
    simp only [skipSpace_cons (show isSpace ':' = false by decide), if_true, h fuel s (by omega),
      String.ofList_toList]

theorem members_behind {ms : List (String × Json)} (h : ∀ m ∈ ms, ReadsBack m.2) {fuel : Nat}
    (hfuel : 3 * ((ms.map memberText).flatMap (',' :: ·)).length < fuel) (rest : List Char) :
    members fuel ((ms.map memberText).flatMap (',' :: ·) ++ closeBrace :: rest)
      = (ms.map fun (key, value) => (.name key, value), none, some rest) := by
  induction ms generalizing fuel with
  | nil =>
    obtain ⟨fuel, rfl⟩ : ∃ n, fuel = n + 1 := ⟨fuel - 1, by omega⟩
    rw [List.map_nil, List.flatMap_nil, List.nil_append, members, skipSpace_cons (by decide)]
    rfl
  | cons m ms ih =>
    obtain ⟨hm, hms⟩ := List.forall_mem_cons.1 h
    simp only [List.map_cons, List.flatMap_cons, List.length_append, List.length_cons] at hfuel
    obtain ⟨fuel, rfl⟩ : ∃ n, fuel = n + 2 := ⟨fuel - 2, by omega⟩
    obtain ⟨text, htext, hmember⟩ := member_memberText hm (show _ ≤ fuel by omega)
      ((ms.map memberText).flatMap (',' :: ·) ++ closeBrace :: rest)
    rw [List.map_cons, List.flatMap_cons, List.append_assoc, List.cons_append, members,
      skipSpace_cons (by decide), htext, List.cons_append]
    simp only [if_neg (show ¬ Char.toNat ',' = 125 by decide), if_true,
      skipSpace_cons (show isSpace '\x22' = false by decide)]
    rw [hmember, ih hms (by omega)]
    rfl

theorem readsBack_record {ms : List (String × Json)} (h : ∀ m ∈ ms, ReadsBack m.2) :
    ReadsBack (.record ms) := by
  intro fuel rest hfuel
  have htext : compact (.record ms)
      = openBrace :: (Text.join [','] (ms.map memberText) ++ [closeBrace]) := by
    rw [record, compact, compactMembers_eq_map]
    rfl
  rw [htext] at hfuel ⊢
  simp only [List.length_cons, List.length_append, List.length_nil] at hfuel
  obtain ⟨fuel, rfl⟩ : ∃ n, fuel = n + 3 := ⟨fuel - 3, by omega⟩
  have hobject : objectTail (fuel + 2) (Text.join [','] (ms.map memberText) ++ closeBrace :: rest)
      = (.record ms, some rest) := by
    cases ms with
    | nil =>
      rw [List.map_nil, Text.join, List.intercalate_nil, List.nil_append, objectTail,
        skipSpace_cons (by decide)]
      rfl
    | cons m ms =>
      obtain ⟨hm, hms⟩ := List.forall_mem_cons.1 h
      rw [List.map_cons, join_cons, List.length_append] at hfuel
      obtain ⟨text, htext, hmember⟩ := member_memberText hm (show _ ≤ fuel by omega)
        ((ms.map memberText).flatMap (',' :: ·) ++ closeBrace :: rest)
      rw [List.map_cons, join_cons, List.append_assoc, htext, List.cons_append, objectTail,
        skipSpace_cons (by decide)]
      simp only [if_neg (show ¬ Char.toNat '\x22' = 125 by decide), if_true]
      rw [hmember, members_behind hms (by omega)]
      rfl
  rw [List.cons_append, List.append_assoc, List.singleton_append, value, skipSpace_cons (by decide)]
  exact hobject

/-! ### All values -/

theorem readsBack_string (s : String) : ReadsBack (.string s) := by
  intro fuel rest hfuel
  have htext : compact (.string s) = '\x22' :: (s.toList.flatMap escapedChar ++ ['\x22']) := rfl
  rw [htext] at hfuel ⊢
  simp only [List.length_append, List.length_cons, List.length_nil] at hfuel
  obtain ⟨fuel, rfl⟩ : ∃ n, fuel = n + 1 := ⟨fuel - 1, by omega⟩
  have htail := textTail_flatMap s.toList rest (show _ < fuel by omega)
  rw [List.cons_append, List.append_assoc, List.singleton_append, value, skipSpace_cons (by decide)]
  show textValue fuel _ = _
  rw [textValue, htail]
  show (Json.string (String.ofList s.toList), some rest) = _
  rw [String.ofList_toList]

/-- **A complete value is read from its text**, whatever follows. -/
theorem IsComplete.readsBack {j : Json} (h : IsComplete j) : ReadsBack j := by
  induction h with
  | null =>
    intro fuel rest hfuel
    obtain ⟨fuel, rfl⟩ : ∃ n, fuel = n + 1 := ⟨fuel - 1, by simp [compact] at hfuel; omega⟩
    rfl
  | bool b =>
    intro fuel rest hfuel
    obtain ⟨fuel, rfl⟩ : ∃ n, fuel = n + 1 := ⟨fuel - 1, by
      cases b <;> simp [compact] at hfuel <;> omega⟩
    cases b <;> rfl
  | string s => exact readsBack_string s
  | list hcomplete ih => exact readsBack_list hcomplete ih
  | record _ ih => exact readsBack_record ih

/-- **Reading back.** The text of a complete value holds that value and nothing else. -/
theorem read_print {j : Json} (h : IsComplete j) : read (j.print false) = (j, false) := by
  have htext : (j.print false).toList = compact j := String.toList_ofList
  have hvalue := h.readsBack (3 * (compact j).length + 3) [] (by omega)
  rw [List.append_nil] at hvalue
  rw [read, htext, hvalue]
  rfl

end SchemaAudit.Json
