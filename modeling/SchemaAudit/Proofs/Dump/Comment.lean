import SchemaAudit.Proofs.Ddl.AlikeScript
import SchemaAudit.Proofs.Dialect.Collapse
import SchemaAudit.Proofs.Dialect.Hash
import SchemaAudit.Proofs.Dump.Batch

/-!
# Comments and the graph of a dump

Two dashes go with the rest of their line before the lines are joined, and so does a hash with nothing
but indentation before it. Any other hash stays until all is one line, and then the scanner takes the
rest of the dump for a comment.

* `Token.step_append`: a token is read in front of a blank or a hash as it is read at the end.
* `sameTokens_append_hash`: a hash takes what stands behind it, on one line.
* `Schema.read_of_map_token`: declarations that end their last statement are read by their tokens.
* `graph_comment_line`: what a comment to the end of a line does to the graph, for every place of it.
* `graph_hash_ne`: a hash behind a statement takes a table with it.
-/

namespace SchemaAudit

/-! ### Tokens in front of a hash -/

namespace Token

/-- A blank or a hash stands first. -/
def StartsApart (t : List Char) : Prop := ∃ c ∈ t.head?, Text.isBlank c = true ∨ c = '#'

/-- Neither goes on with a token. -/
theorem StartsApart.ends {t : List Char} (h : StartsApart t) {c : Char} (hc : c ∈ t.head?) :
    isWordPart c = false ∧ Text.isDigit c = false ∧ c ≠ '.' ∧ c ≠ '-' ∧ c ≠ '*' := by
  obtain ⟨d, hd, hkind⟩ := h
  obtain rfl : d = c := Option.some.inj (hd.symm.trans hc)
  rcases hkind with hblank | rfl
  · have hne := ne_of_class hblank
    refine ⟨Bool.eq_false_iff.2 fun hword => ?_, Bool.eq_false_iff.2 fun hdigit => ?_, ?_⟩
    · exact absurd (hblank.symm.trans (isBlank_of_isWordPart hword)) (by decide)
    · exact absurd (hblank.symm.trans (Text.isBlank_of_isDigit hdigit)) (by decide)
    · exact ⟨hne '.' (by decide), hne '-' (by decide), hne '*' (by decide)⟩
  · decide

/-- What holds of what stands first in either text holds of both one after the other. -/
theorem forall_mem_head?_append {P : Char → Prop} {s t : List Char} (hs : ∀ c ∈ s.head?, P c)
    (ht : ∀ c ∈ t.head?, P c) : ∀ c ∈ (s ++ t).head?, P c := by
  cases s with
  | nil => exact ht
  | cons c s => exact hs

theorem numberTail_append_of_head {seen : Bool} {s t : List Char}
    (ht : ∀ c ∈ t.head?, c ≠ '.' ∧ Text.isDigit c = false) :
    numberTail seen (s ++ t) = ((numberTail seen s).1, (numberTail seen s).2 ++ t) := by
  fun_induction numberTail seen s with
  | case1 seen => exact numberTail_of_head fun c hc => by simp [ht c hc]
  | case2 seen c rest hpoint digits left htail ih =>
    rw [htail] at ih
    rw [List.cons_append, numberTail, if_pos hpoint, ih]
  | case3 seen c rest hpoint hdigit digits left htail ih =>
    rw [htail] at ih
    rw [List.cons_append, numberTail, if_neg hpoint, if_pos hdigit, ih]
  | case4 seen c rest hpoint hdigit =>
    rw [List.cons_append, numberTail, if_neg hpoint, if_neg hdigit]

/-- **What is not quoted is taken in front of a blank or a hash as at the end of a text.** -/
theorem step_append {s rest t : List Char} {token : Token}
    (hs : ∀ c ∈ s.head?, c ∉ ['\x27', '\x22', '\x60', '[']) (h : step s = .take token rest)
    (ht : StartsApart t) : step (s ++ t) = .take token (rest ++ t) := by
  have hnumber : ∀ c ∈ t.head?, c ≠ '.' ∧ Text.isDigit c = false := by
    intro c hc
    obtain ⟨-, hdigit, hpoint, -⟩ := ht.ends hc
    exact ⟨hpoint, hdigit⟩
  cases s with
  | nil => cases h
  | cons c s =>
    have hview := sees_stepAt c s
    rw [show stepAt c s = .take token rest from h] at hview
    cases hview with
    | @minus d s hd =>
      have htail : numberTail false (d :: (s ++ t)) = _ := numberTail_append_of_head (s := d :: s) hnumber
      rw [List.cons_append, List.cons_append, step, stepAt_minus hd, htail]
    | punctuation hp => exact step_punctuation hp _
    | name hclosing =>
      rw [closing?_eq_none] at hclosing
      · cases hclosing
      · rintro d hd rfl
        exact hs c rfl (List.mem_cons_of_mem _ hd)
    | literal => exact absurd (by decide) (hs '\x27' rfl)
    | digit hc =>
      rw [List.cons_append, step, stepAt_of_isDigit hc, numberTail_append_of_head hnumber]
    | word hc =>
      have hends := forall_mem_head?_append (Text.head?_dropWhile_eq_false isWordPart s)
        fun d hd => (ht.ends hd).1
      obtain ⟨htake, hdrop⟩ :=
        Text.takeWhile_dropWhile_append (List.all_eq_true.1 List.all_takeWhile) hends
      rw [← List.append_assoc, List.takeWhile_append_dropWhile] at htake hdrop
      rw [List.cons_append, step, stepAt_of_isWordStart hc, htake, hdrop]
    | symbol hc hdash hslash =>
      refine stepAt_of_isSymbol hc (fun heq => ?_) fun heq => ?_
      · refine forall_mem_head?_append (hdash heq) fun d hd => ?_
        obtain ⟨-, hdigit, -, hminus, -⟩ := ht.ends hd
        exact ⟨hminus, hdigit⟩
      · refine forall_mem_head?_append (hslash heq) fun d hd => ?_
        obtain ⟨-, -, -, -, hstar⟩ := ht.ends hd
        exact hstar

end Token

namespace Dialect

open Pattern
open Token (step scanFrom)

/-- **On one line a hash takes what stands behind it**, and a gap in front of it is skipped. -/
theorem sameTokens_append_hash {s gap tail : List Char} (hs : Markless s)
    (hgap : ∀ b ∈ gap, Text.isBlank b = true) (htail : '\n' ∉ tail) :
    SameTokens (s ++ (gap ++ '#' :: tail)) s := by
  have hskip : ∀ {c : Char} (u : List Char), Text.isBlank c = true → step (c :: u) = .skip u :=
    fun u hc => by rw [step, Token.stepAt, if_pos hc]
  have hapart : Token.StartsApart (gap ++ '#' :: tail) := by
    cases gap with
    | nil => exact ⟨'#', rfl, .inr rfl⟩
    | cons b gap => exact ⟨b, rfl, .inl (hgap b List.mem_cons_self)⟩
  have hend : SameTokens (gap ++ '#' :: tail) [] := by
    clear hapart
    induction gap with
    | nil =>
      have hline : Token.afterLine (tail ++ []) = [] := afterLine_append htail (by simp [EndsLine])
      rw [List.append_nil] at hline
      exact .skip_left (congrArg Token.Step.skip hline) (.refl [])
    | cons b gap ih =>
      obtain ⟨hb, hgap⟩ := List.forall_mem_cons.1 hgap
      exact .skip_left (hskip _ hb) (ih hgap)
  fun_induction scanFrom 0 s with
  | case1 s hstep =>
    obtain rfl := Token.eq_nil_of_step hstep
    exact hend
  | case2 s rest hstep ih =>
    obtain ⟨c, hc, rfl⟩ := hs.exists_of_skip hstep
    exact .skip (hskip _ hc) hstep (ih (hs.of_isSuffix (List.suffix_cons c rest)))
  | case3 s token rest hstep ih =>
    have hrest : rest <:+ s := Token.isSuffix_of_step (by rw [hstep]; rfl)
    have hhead : ∀ c ∈ s.head?, c ∉ ['\x27', '\x22', '\x60', '['] := fun c hc hm =>
      hs.quotes c (List.mem_of_mem_head? hc) (List.mem_append_left ['#'] hm)
    exact .take (Token.step_append hhead hstep hapart) hstep (ih (hs.of_isSuffix hrest))

end Dialect

/-! ### Declarations that are read by their tokens -/

/-- **Declarations that end their last statement are read by their tokens.** The end of input may
stand at another offset. -/
theorem Ddl.Schema.read_of_map_token {dialect : Dialect} {text text' : String}
    (h : (Token.scan text').map Lexeme.token = (Token.scan text).map Lexeme.token)
    (hends : [.semicolon, .finish] <:+ (Token.scan text).map Lexeme.token) {s : Schema}
    (hread : Schema.read dialect text = .ok s) : Schema.read dialect text' = .ok s := by
  obtain ⟨ts, hts⟩ := hends
  have hsplit : (Token.scan text).map Lexeme.token = ts ++ [.semicolon] ++ [.finish] := by
    rw [← hts, List.append_assoc]
    rfl
  have hfinish : ∀ t ∈ ts, t ≠ .finish := by
    have hcount := Token.count_finish_scanFrom (Text.byteSize text.toList) text.toList
    rw [← Token.scan, hsplit, List.count_append, List.count_append] at hcount
    have hnone : ts.count .finish = 0 := by
      have hone : [Token.finish].count .finish = 1 := rfl
      omega
    rintro t ht rfl
    exact List.count_eq_zero.1 hnone ht
  obtain ⟨e, hbegins, he⟩ := Input.begins_of_map_token hsplit
  obtain ⟨e', hbegins', he'⟩ := Input.begins_of_map_token (h.trans hsplit)
  have hcurrent : ∀ {e : Input}, e.map Lexeme.token = [.finish] → e.current = .finish := by
    intro e he
    obtain ⟨l, rfl, hl⟩ := List.map_eq_singleton_iff.1 he
    exact hl
  have halike := alike_of_begins hfinish hbegins hbegins'
  rw [Schema.read, Alike.statements (hcurrent he) (fun hne => hne rfl) (.inl halike) hread]
  exact statements_finish dialect s (hcurrent he')

namespace Dialect

open Pattern

/-- Whole statements that are read, and in which nothing is left open. -/
structure IsWhole (p : String) : Prop where
  calm : Calm p.toList
  markless : Markless (mySql.portable p).toList
  ends : [.semicolon, .finish] <:+ (Token.scan (mySql.portable p)).map Lexeme.token
  read : ∃ s, Ddl.Schema.read mySql (mySql.portable p) = .ok s

/-- **A hash behind whole statements takes the rest of the dump with it.** -/
theorem graph_hash {p : String} (hbare : IsBare p.toList) (hwhole : IsWhole p)
    (hline : opensLine p.toList = false) (rest : String) :
    Dump.graph mySql (p ++ "#" ++ rest) = Dump.graph mySql p := by
  obtain ⟨s, hread⟩ := hwhole.read
  obtain ⟨gap, tail, hgap, htail, hportable⟩ :=
    exists_portable_wall hbare hwhole.calm hline rest.toList
  have htext : p ++ "#" ++ rest = String.ofList (p.toList ++ '#' :: rest.toList) :=
    String.toList_injective (by simp)
  have htokens := sameTokens_append_hash hwhole.markless hgap htail
  rw [← hportable] at htokens
  have hread' : Ddl.Schema.read mySql (mySql.portable (p ++ "#" ++ rest)) = .ok s := by
    rw [htext]
    exact Ddl.Schema.read_of_map_token (htokens _ _) hwhole.ends hread
  rw [Dump.graph_of_read hread', Dump.graph_of_read hread]

/-- **What a comment to the end of a line does to the graph.** If it begins with two dashes, nothing. A
hash goes with its comment at the start of a line, and takes the indentation before it along. Behind
whole statements on its line it takes the rest of the dump, so that nothing changes exactly if the rest
adds nothing. -/
theorem graph_comment_line (dialect : Dialect) {p c : String} (hp : IsBare p.toList)
    (hend : p.toList.getLast? ≠ some '-') (hc : '\n' ∉ c.toList) (q : String) :
    Dump.graph dialect (p ++ "-- " ++ c ++ "\n" ++ q) = Dump.graph dialect (p ++ "\n" ++ q)
      ∧ (p = "" ∨ p.toList.getLast? = some '\n' →
        Dump.graph dialect (p ++ "# " ++ c ++ "\n" ++ q)
          = Dump.graph dialect (p ++ "\n" ++ q))
      ∧ (opensLine p.toList = true →
        Dump.graph dialect (p ++ "# " ++ c ++ "\n" ++ q)
          = Dump.graph dialect (String.ofList (unindented p.toList) ++ "\n" ++ q))
      ∧ (opensLine p.toList = false → IsWhole p →
        Dump.graph .mySql (p ++ "# " ++ c ++ "\n" ++ q) = Dump.graph .mySql p
          ∧ (Dump.graph .mySql (p ++ "# " ++ c ++ "\n" ++ q) = Dump.graph .mySql (p ++ "\n" ++ q)
            ↔ Dump.graph .mySql (p ++ "\n" ++ q) = Dump.graph .mySql p)) := by
  have hspace : '\n' ∉ ' ' :: c.toList := by simpa using hc
  refine ⟨?_, ?_, ?_, ?_⟩
  · refine graph_congr_comment dialect ?_
    have htext := rewrite_comment_dashes hp hend hspace q.toList
    simp only [String.toList_append, List.append_assoc]
    exact htext
  · intro hstart
    refine graph_congr_comment dialect ?_
    have hlist : p.toList = [] ∨ p.toList.getLast? = some '\n' :=
      hstart.imp_left fun h => by rw [h]; rfl
    have hnone : ∀ d ∈ ([] : List Char), isIndent d = true := by simp
    have htext := rewrite_comment_hash hp hlist hnone hspace q.toList
    simp only [String.toList_append, List.append_assoc]
    exact htext
  · intro hline
    refine graph_congr_comment dialect ?_
    obtain ⟨indent, hindent, hblank, hlist⟩ := exists_indent_of_opensLine hline
    have hfront : IsBare (unindented p.toList) :=
      hp.of_isPrefix (List.rdropWhile_prefix isIndent _)
    have htext := rewrite_comment_hash hfront hlist hblank hspace q.toList
    rw [← List.append_assoc, ← List.append_assoc, ← hindent] at htext
    simp only [String.toList_append, String.toList_ofList, List.append_assoc]
    rw [List.append_assoc] at htext
    exact htext
  · intro hline hwhole
    have hlost := graph_hash hp hwhole hline (" " ++ c ++ "\n" ++ q)
    have htext : p ++ "#" ++ (" " ++ c ++ "\n" ++ q) = p ++ "# " ++ c ++ "\n" ++ q :=
      String.toList_injective (by simp)
    rw [htext] at hlost
    exact ⟨hlost, by rw [hlost]; exact eq_comm⟩

/-- A table behind two statements, with a comment of its own on the line between them; and a statement
with a blank and a comment behind it, in which all of the rest is lost. -/
theorem graph_comment_line_users :
    IsBare "USE x;\n".toList ∧ "USE x;\n".toList.getLast? ≠ some '-' ∧ '\n' ∉ "old; one's".toList
      ∧ (Dump.graph .mySql ("USE x;\n" ++ "# " ++ "old; one's" ++ "\n" ++ "CREATE TABLE b (y int);")
        = Dump.graph .mySql ("USE x;\n" ++ "\n" ++ "CREATE TABLE b (y int);"))
      ∧ opensLine "CREATE TABLE a (x int); ".toList = false ∧ IsWhole "CREATE TABLE a (x int); "
      ∧ Dump.graph .mySql
          ("CREATE TABLE a (x int); " ++ "# " ++ "old" ++ "\n" ++ "CREATE TABLE b (y int);")
        = Dump.graph .mySql "CREATE TABLE a (x int); " := by
  have hfront : IsBare "USE x;\n".toList := by decide +kernel
  have hend : "USE x;\n".toList.getLast? ≠ some '-' := by decide
  have hold : '\n' ∉ "old; one's".toList := by decide
  have hbare : IsBare "CREATE TABLE a (x int); ".toList := by decide +kernel
  have hlast : "CREATE TABLE a (x int); ".toList.getLast? ≠ some '-' := by decide
  have hopens : opensLine "CREATE TABLE a (x int); ".toList = false := by decide
  have hwhole : IsWhole "CREATE TABLE a (x int); " :=
    ⟨by decide +kernel, by decide +kernel, by decide +kernel,
      ⟨[⟨"a", [⟨"x", "integer", []⟩], []⟩], []⟩, Ddl.eq_ok_of_toOption (by decide +kernel)⟩
  refine ⟨hfront, hend, hold, ?_, hopens, hwhole, ?_⟩
  · exact (graph_comment_line .mySql hfront hend hold "CREATE TABLE b (y int);").2.1 (Or.inr rfl)
  · have hlost := graph_comment_line .mySql hbare hlast (c := "old") (by decide)
      "CREATE TABLE b (y int);"
    exact (hlost.2.2.2 hopens hwhole).1

/-- A hash behind a statement stays, and takes the table on the next line with it. -/
theorem graph_hash_ne :
    Dump.graph .mySql ("USE x;" ++ "# " ++ "old" ++ "\n" ++ "CREATE TABLE b (y int);")
      ≠ Dump.graph .mySql ("USE x;" ++ "\n" ++ "CREATE TABLE b (y int);") := by
  have hlost : (Dump.graph .mySql
      ("USE x;" ++ "# " ++ "old" ++ "\n" ++ "CREATE TABLE b (y int);")).isOk = false := by
    decide +kernel
  have hread : (Dump.graph .mySql
      ("USE x;" ++ "\n" ++ "CREATE TABLE b (y int);")).isOk = true := by
    decide +kernel
  intro heq
  rw [heq, hread] at hlost
  exact absurd hlost (by decide)

end Dialect

end SchemaAudit
