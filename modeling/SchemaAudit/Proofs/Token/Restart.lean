import SchemaAudit.Proofs.Token.Piece

/-!
# Reading on from a token

The scanner keeps nothing in mind: what it reads from some token on depends on the text from there
on, and an offset only tells how many bytes stand before.

* `opens_of_step`: a token is taken where its own text stands, or the delimiter that opens it.
* `scanFrom_add`: more text before shifts the offsets and changes nothing else.
* `exists_rest_of_scanFrom`: the lexemes from some lexeme on are those of an end of the text.
* `pairwise_offset_scanFrom`, `getLast?_scanFrom`: the offsets increase, up to the size of the text.
* `scan_restarts`: all of this for the lexemes of a text.
-/

namespace SchemaAudit

/-! ### Bytes -/

theorem Text.byteSize_append (s t : List Char) :
    Text.byteSize (s ++ t) = Text.byteSize s + Text.byteSize t := by
  induction s with
  | nil => rw [List.nil_append, Text.byteSize, Nat.zero_add]
  | cons c s ih => rw [List.cons_append, Text.byteSize, Text.byteSize, ih, Nat.add_assoc]

/-- The bytes of a text are those that its encoding has. -/
theorem Text.byteSize_toList (text : String) : Text.byteSize text.toList = text.utf8ByteSize := by
  have hsize : ∀ s : List Char, (String.ofList s).utf8ByteSize = Text.byteSize s := by
    intro s
    induction s with
    | nil => rfl
    | cons c s ih =>
      rw [← List.singleton_append, String.ofList_append, String.utf8ByteSize_append, ih]
      simp [Text.byteSize]
  rw [← hsize, String.ofList_toList]

/-- A shorter end of a text has fewer bytes. -/
theorem Text.byteSize_lt_of_isSuffix {s rest : List Char} (h : rest <:+ s)
    (hlength : rest.length < s.length) : Text.byteSize rest < Text.byteSize s := by
  obtain ⟨before, rfl⟩ := h
  cases before with
  | nil => exact absurd hlength (Nat.lt_irrefl _)
  | cons c before =>
    have hpositive := c.utf8Size_pos
    rw [List.cons_append, Text.byteSize, Text.byteSize_append]
    omega

/-- The lexeme with `n` more bytes before it. -/
def Lexeme.behind (n : Nat) (l : Lexeme) : Lexeme := { l with offset := n + l.offset }

namespace Token

/-! ### What a token begins with -/

/-- The text begins as the token is written: with the whole word, where a keyword may be written in
any letter case, with the delimiter that opens a quoted name or a literal, and else with all of the
token. The end of input is where nothing stands. -/
def Opens : Token → List Char → Prop
  | keyword k, s => Text.toUpper (s.takeWhile isWordPart) = k.spelling.toList
  | word name, s => s.takeWhile isWordPart = name.toList ∧ isWordText name.toList
  | quoted _, s => ∃ c ∈ s.head?, (closing? c).isSome
  | literal _, s => s.head? = some '\x27'
  | finish, s => s = []
  | t, s => t.Writable ∧ t.spelling <+: s

theorem opens_ofWord {s : List Char} (h : isWordText (s.takeWhile isWordPart) = true) :
    (ofWord (s.takeWhile isWordPart)).Opens s := by
  rw [ofWord]
  cases hk : Keyword.ofWord? (s.takeWhile isWordPart) with
  | some k =>
    have hspelled := List.find?_some hk
    exact (beq_iff_eq.1 hspelled).symm
  | none =>
    show _ = (String.ofList _).toList ∧ isWordText (String.ofList _).toList = true
    rw [String.toList_ofList]
    exact ⟨rfl, h⟩

theorem opens_number {digits s : List Char} (h : isNumberText digits = true) (hs : digits <+: s) :
    (number (String.ofList digits)).Opens s := by
  refine ⟨writable_number h, ?_⟩
  show (String.ofList digits).toList <+: s
  rwa [String.toList_ofList]

theorem opens_of_punctuation? {c : Char} {t : Token} (h : punctuation? c = some t)
    (s : List Char) : t.Opens (c :: s) := by
  unfold punctuation? at h
  repeat' split at h
  all_goals
    cases h
  all_goals
    subst c
    exact ⟨trivial, List.prefix_append [_] s⟩

/-- **A token is taken where it stands.** -/
theorem opens_of_stepAt {c : Char} {s rest : List Char} {t : Token}
    (h : stepAt c s = .take t rest) : t.Opens (c :: s) := by
  have hview := sees_stepAt c s
  rw [h] at hview
  cases hview with
  | @minus d s hd =>
    refine opens_number (isNumberText_minus (by simpa using hd)) ?_
    exact ⟨_, congrArg (List.cons '-') (numberTail_append_self false (d :: s))⟩
  | punctuation hp => exact opens_of_punctuation? hp s
  | @name _ close _ hc => exact ⟨c, rfl, Option.isSome_of_eq_some hc⟩
  | literal => rfl
  | digit hd =>
    refine opens_number (isNumberText_cons hd (isNumberTail_numberTail s)) ?_
    exact ⟨_, congrArg (List.cons c) (numberTail_append_self false s)⟩
  | word hw =>
    have hpart : isWordPart c = true := by
      simp only [isWordStart, Bool.or_eq_true] at hw
      rcases hw with hletter | hline
      · simp [isWordPart, hletter]
      · simp [isWordPart, hline]
    have htake : (c :: s).takeWhile isWordPart = c :: s.takeWhile isWordPart :=
      List.takeWhile_cons_of_pos hpart
    rw [← htake]
    exact opens_ofWord (htake ▸ isWordText_takeWhile hw s)
  | symbol hc => exact ⟨hc, List.prefix_append [c] s⟩

theorem opens_of_step {s rest : List Char} {t : Token} (h : step s = .take t rest) :
    t.Opens s := by
  cases s with
  | nil => cases h
  | cons c s => exact opens_of_stepAt h

theorem eq_nil_of_step {s : List Char} (h : step s = .finish) : s = [] := by
  cases s with
  | nil => rfl
  | cons c s =>
    have hview := sees_stepAt c s
    rw [show stepAt c s = .finish from h] at hview
    cases hview

/-! ### Runs -/

theorem byteSize_lt_of_step {s rest : List Char} (h : (step s).rest? = some rest) :
    Text.byteSize rest < Text.byteSize s :=
  Text.byteSize_lt_of_isSuffix (isSuffix_of_step h) (step_rest_length_lt h)

/-- **More text before shifts the offsets and changes nothing else.** -/
theorem scanFrom_add (n : Nat) {size : Nat} {s : List Char} (h : Text.byteSize s ≤ size) :
    scanFrom (n + size) s = (scanFrom size s).map (Lexeme.behind n) := by
  fun_induction scanFrom size s with
  | case1 s hstep =>
    obtain rfl := eq_nil_of_step hstep
    exact scanFrom_nil (n + size)
  | case2 s rest hstep ih =>
    have hrest : Text.byteSize rest < Text.byteSize s := byteSize_lt_of_step (by rw [hstep]; rfl)
    rw [scanFrom_skip hstep]
    exact ih (by omega)
  | case3 s token rest hstep ih =>
    have hrest : Text.byteSize rest < Text.byteSize s := byteSize_lt_of_step (by rw [hstep]; rfl)
    rw [scanFrom_take hstep, ih (by omega), List.map_cons, Nat.add_sub_assoc h]
    rfl

/-- **The lexemes from some lexeme on are those of an end of the text**, which begins as the token is
written. -/
theorem exists_rest_of_scanFrom {size : Nat} {s : List Char} {front back : List Lexeme} {l : Lexeme}
    (h : scanFrom size s = front ++ l :: back) :
    ∃ before rest, s = before ++ rest ∧ l.offset = size - Text.byteSize rest ∧
      l.token.Opens rest ∧ scanFrom size rest = l :: back := by
  fun_induction scanFrom size s generalizing front with
  | case1 s hstep =>
    obtain rfl := eq_nil_of_step hstep
    obtain ⟨rfl, hl⟩ := List.append_eq_singleton_iff.1 h.symm |>.resolve_right (by simp)
    obtain ⟨rfl, rfl⟩ := List.cons.inj hl
    exact ⟨[], [], rfl, rfl, rfl, scanFrom_nil size⟩
  | case2 s rest hstep ih =>
    obtain ⟨skipped, rfl⟩ : rest <:+ s := isSuffix_of_step (by rw [hstep]; rfl)
    obtain ⟨before, left, rfl, hleft⟩ := ih h
    exact ⟨skipped ++ before, left, (List.append_assoc _ _ _).symm, hleft⟩
  | case3 s token rest hstep ih =>
    cases front with
    | nil =>
      obtain ⟨rfl, rfl⟩ := List.cons.inj h
      exact ⟨[], s, rfl, rfl, opens_of_step hstep, scanFrom_take hstep⟩
    | cons first front =>
      obtain ⟨taken, rfl⟩ : rest <:+ s := isSuffix_of_step (by rw [hstep]; rfl)
      obtain ⟨before, left, rfl, hleft⟩ := ih (List.cons.inj h).2
      exact ⟨taken ++ before, left, (List.append_assoc _ _ _).symm, hleft⟩

theorem le_offset_of_mem_scanFrom {size : Nat} {s : List Char} {l : Lexeme}
    (h : l ∈ scanFrom size s) : size - Text.byteSize s ≤ l.offset := by
  obtain ⟨front, back, hlexemes⟩ := List.append_of_mem h
  obtain ⟨before, rest, rfl, hoffset, -⟩ := exists_rest_of_scanFrom hlexemes
  rw [hoffset, Text.byteSize_append]
  omega

theorem pairwise_offset_scanFrom {size : Nat} {s : List Char} (h : Text.byteSize s ≤ size) :
    ((scanFrom size s).map Lexeme.offset).Pairwise (· < ·) := by
  fun_induction scanFrom size s with
  | case1 => exact List.pairwise_singleton _ _
  | case2 s rest hstep ih =>
    have hrest : Text.byteSize rest < Text.byteSize s := byteSize_lt_of_step (by rw [hstep]; rfl)
    exact ih (by omega)
  | case3 s token rest hstep ih =>
    have hrest : Text.byteSize rest < Text.byteSize s := byteSize_lt_of_step (by rw [hstep]; rfl)
    rw [List.map_cons, List.pairwise_cons]
    refine ⟨?_, ih (by omega)⟩
    intro offset hoffset
    obtain ⟨l, hl, rfl⟩ := List.mem_map.1 hoffset
    have hle := le_offset_of_mem_scanFrom hl
    show size - Text.byteSize s < l.offset
    omega

theorem getLast?_scanFrom (size : Nat) (s : List Char) :
    (scanFrom size s).getLast? = some ⟨.finish, size⟩ := by
  fun_induction scanFrom size s with
  | case1 s hstep =>
    obtain rfl := eq_nil_of_step hstep
    rfl
  | case2 s rest hstep ih => exact ih
  | case3 s token rest hstep ih =>
    rw [List.getLast?_cons, ih]
    rfl

/-! ### Texts -/

/-- **Reading may start again at any token.** The offsets of a text increase up to its size, where its
end is. Behind as many bytes as the offset of a lexeme says, the text begins as its token is written,
and read on its own it gives this lexeme and all that follow, with offsets from there. -/
theorem scan_restarts (text : String) :
    ((scan text).map Lexeme.offset).Pairwise (· < ·) ∧
    (scan text).getLast? = some ⟨.finish, text.utf8ByteSize⟩ ∧
    ∀ front l back, scan text = front ++ l :: back →
      ∃ before rest, text = before ++ rest ∧ before.utf8ByteSize = l.offset ∧
        l.token.Opens rest.toList ∧ l :: back = (scan rest).map (Lexeme.behind l.offset) := by
  rw [← Text.byteSize_toList]
  refine ⟨pairwise_offset_scanFrom (Nat.le_refl _), getLast?_scanFrom _ _, ?_⟩
  intro front l back h
  obtain ⟨before, rest, htext, hoffset, hopens, hrest⟩ := exists_rest_of_scanFrom h
  have hsize : Text.byteSize text.toList = Text.byteSize before + Text.byteSize rest := by
    rw [htext, Text.byteSize_append]
  have hbefore : Text.byteSize before = l.offset := by omega
  refine ⟨String.ofList before, String.ofList rest, ?_, ?_, ?_, ?_⟩
  · rw [← String.ofList_append, ← htext, String.ofList_toList]
  · rw [← Text.byteSize_toList, String.toList_ofList, hbefore]
  · rwa [String.toList_ofList]
  · rw [← hrest, hsize, scanFrom_add _ (Nat.le_refl _), hbefore, scan, String.toList_ofList]

end Token

end SchemaAudit
