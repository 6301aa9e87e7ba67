import SchemaAudit.Proofs.Dialect.Comment
import SchemaAudit.Proofs.Pattern.Wall
import SchemaAudit.Proofs.Text.Collapse

/-!
# A hash behind text on its line

A hash that does not stand at the start of a line stays when the comments of a dump are dropped. To the
rules of MySQL it is a wall: what stands in front of it is rewritten as if the text ended there.

* `opensLine`, `rewrite_comment_wall`: a hash stays unless only indentation stands before it on its
  line.
* `stops_mySqlRules`: the rules stop at the hash, and leave nothing open in front of it.
* `exists_portable_wall`: the portable text of the dump is that of what stands in front of the hash,
  with the hash behind it.
-/

namespace SchemaAudit.Dialect

open Pattern

/-! ### Hashes that stay -/

/-- The text without the indentation at its end. -/
def unindented (p : List Char) : List Char := p.rdropWhile isIndent

/-- Behind the last line break of the text, or behind its start, stands nothing but indentation. -/
def opensLine (p : List Char) : Bool := (unindented p).getLast?.all (· = '\n')

theorem eq_nil_or_getLast?_of_all {p : List Char} (h : p.getLast?.all (· = '\n') = true) :
    p = [] ∨ p.getLast? = some '\n' := by
  cases hlast : p.getLast? with
  | none => exact .inl (List.getLast?_eq_none_iff.1 hlast)
  | some c =>
    rw [hlast] at h
    exact .inr (congrArg some (of_decide_eq_true h))

/-- A text that opens a line, with its indentation apart. -/
theorem exists_indent_of_opensLine {p : List Char} (h : opensLine p = true) :
    ∃ indent, p = unindented p ++ indent ∧ (∀ d ∈ indent, isIndent d = true) ∧
      (unindented p = [] ∨ (unindented p).getLast? = some '\n') :=
  ⟨p.rtakeWhile isIndent, List.rdropWhile_append_rtakeWhile.symm,
    fun _ hd => List.mem_rtakeWhile_imp hd, eq_nil_or_getLast?_of_all h⟩

theorem opensLine_append {p indent : List Char} (hp : p = [] ∨ p.getLast? = some '\n')
    (hindent : ∀ d ∈ indent, isIndent d = true) : opensLine (p ++ indent) = true := by
  have hreverse : ∀ d ∈ indent.reverse, isIndent d = true := fun d hd =>
    hindent d (List.mem_reverse.1 hd)
  rw [opensLine, unindented, List.rdropWhile, List.reverse_append,
    List.dropWhile_append_of_pos hreverse]
  rcases hp with rfl | hlast
  · rfl
  · obtain ⟨front, rfl⟩ := List.getLast?_eq_some_iff.1 hlast
    simp [List.reverse_append, isIndent]

/-- Two texts without a hash are the same if the same stands from their start to the first hash. -/
theorem eq_of_append_hash {s s' t t' : List Char} (hs : '#' ∉ s) (hs' : '#' ∉ s')
    (h : s ++ '#' :: t = s' ++ '#' :: t') : s = s' := by
  have htake : ∀ {s : List Char}, '#' ∉ s → ∀ t, (s ++ '#' :: t).takeWhile (· ≠ '#') = s := by
    intro s hs t
    refine (Text.takeWhile_dropWhile_append (fun d hd => ?_) (by simp)).1
    have hne : d ≠ '#' := fun heq => hs (heq ▸ hd)
    simpa using hne
  rw [← htake hs t, h, htake hs' t']

/-- No comment begins in a bare text, nor at a hash behind it that does not open a line. -/
theorem missesIn_comment_wall {front p : List Char} (hp : IsBare p)
    (hline : opensLine (front ++ p) = false) (t : List Char) :
    comment.MissesIn (behind none front) (p ++ ['#']) t := by
  have hstarts : ∀ {front : List Char}, (behind none front).all (· = '\n') = true →
      front = [] ∨ front.getLast? = some '\n' := by
    intro front h
    rw [behind_eq_getLast?, Option.or_none] at h
    exact eq_nil_or_getLast?_of_all h
  induction p generalizing front with
  | nil =>
    refine ⟨misses_comment (by decide) (by simp) (by simp) fun hbreak => ?_, trivial⟩
    have hopens : opensLine (front ++ []) = true := opensLine_append (hstarts hbreak) (by simp)
    rw [hline] at hopens
    cases hopens
  | cons c p ih =>
    have hfront : front ++ [c] ++ p = front ++ c :: p := List.append_assoc front [c] p
    have hopens : opensLine (front ++ [c] ++ p) = false := by rw [hfront, hline]
    have hmore := ih hp.tail hopens
    have hquote : c ∉ ['\x27', '\x22', '\x60'] := fun hm =>
      hp.marks c List.mem_cons_self (List.mem_append_left ['#'] hm)
    have hhere : comment.Misses ⟨behind none front, c :: (p ++ '#' :: t)⟩ := by
      refine misses_comment hquote ?_ ?_ fun hbreak indent u hindent heq => ?_
      · rintro rfl
        exact head?_append_ne hp.stars (by simp)
      · rintro rfl
        exact head?_append_ne hp.dashes (by simp)
      · -- nothing but indentation would stand in front of the hash
        have hbare : '#' ∉ c :: p := fun hm => absurd (hp.marks '#' hm) (by decide)
        have hnone : '#' ∉ indent := fun hm => absurd (hindent '#' hm) (by decide)
        obtain rfl := eq_of_append_hash hbare hnone heq
        rw [opensLine_append (hstarts hbreak) hindent] at hline
        cases hline
    rw [behind_append] at hmore
    rw [← List.singleton_append (l := t), ← List.append_assoc] at hhere
    exact ⟨hhere, hmore⟩

/-- **A hash behind text on its line stays**, with the text in front of it. -/
theorem rewrite_comment_wall {p : List Char} (hp : IsBare p) (hline : opensLine p = false)
    (t : List Char) : ∃ t', comment.rewrite (p ++ '#' :: t) = p ++ '#' :: t' := by
  have hopens : opensLine ([] ++ p) = false := hline
  have hmisses := missesIn_comment_wall hp hopens t
  have hrewrite := rewriteBehind_append isLocal_comment hmisses
  rw [List.append_assoc, List.append_assoc] at hrewrite
  exact ⟨_, hrewrite⟩

theorem rewrite_comment_of_isBare {p : List Char} (hp : IsBare p) : comment.rewrite p = p := by
  have hfollows : Follows p [] := ⟨by simp, by simp, Or.inr (Or.inr (by simp))⟩
  have hrewrite := rewriteBehind_append isLocal_comment (missesIn_comment hp hfollows none)
  have hnil : comment.rewriteBehind (behind none p) [] = [] := by rw [rewriteBehind, rewriteFrom]
  rwa [hnil, List.append_nil] at hrewrite

/-! ### Parts of rules -/

theorem contained_identifier : Contained '#' identifier :=
  (Contained.quote (by decide) (by decide) _).either (.of_tells (by decide))

theorem contained_quotedLiteral : Contained '#' quotedLiteral :=
  .quote (by decide) (by decide) _

theorem contained_columnList : Contained '#' columnList := by
  have hother : Turns 0 (noneOf "()") := .of_tells rfl rfl
  have hnested : Walled '#' 1 (each [char '(', many (noneOf "()"), char ')']) :=
    .parens ((Walled.inside _ (by decide)).many hother) hother.many (by decide) (by decide)
  have hturns : Turns 0 (many (anyOf [noneOf "()", each [char '(', many (noneOf "()"), char ')']])) :=
    (hother.either (.parens hother.many)).many
  refine ⟨.parens (.many (.either (.inside _ (by decide)) hnested) ?_) hturns (by decide) (by decide),
    .parens hturns⟩
  exact hother.either (.parens hother.many)

theorem contained_size : Contained '#' size := by
  have hblanks : Turns 0 blanks := .of_tells (by decide) (by decide)
  have hdigits : Turns 0 (atLeastOne decimal) := .of_tells (by decide) (by decide)
  have hparts : List.Forall₂ Turns [-1, 0, 0, 0, 1]
      [char '(', blanks, atLeastOne decimal, blanks, char ')'] :=
    .cons .opening (.cons hblanks (.cons hdigits (.cons hblanks (.cons .closing .nil))))
  exact ⟨walled_of_tells (by decide), Turns.each hparts⟩

theorem contained_precision : Contained '#' precision := by
  have hblanks : Turns 0 blanks := .of_tells (by decide) (by decide)
  have hdigits : Turns 0 (many decimal) := .of_tells (by decide) (by decide)
  have hparts : List.Forall₂ Turns [0, -1, 0, 0, 0, 1]
      [blanks, char '(', blanks, many decimal, blanks, char ')'] :=
    .cons hblanks (.cons .opening (.cons hblanks (.cons hdigits (.cons hblanks (.cons .closing
      .nil)))))
  exact ⟨walled_of_tells (by decide), Turns.each hparts⟩

theorem contained_optionalName : Contained '#' optionalName := by
  refine Contained.optional (.each ?_)
  simp only [List.forall_mem_cons]
  exact ⟨contained_identifier, .of_tells (by decide), by simp⟩

theorem contained_targetColumns : Contained '#' targetColumns := by
  have hcolumn : Contained '#' (each [char '.', identifier]) :=
    .next (.of_tells (by decide)) contained_identifier
  refine .each ?_
  simp only [List.forall_mem_cons]
  exact ⟨.of_tells (by decide), .of_tells (by decide), contained_identifier, hcolumn.optional,
    .of_tells (by decide), contained_columnList, by simp⟩

/-! ### Rules that read names, texts in quotes or lists -/

theorem contained_qualifiedTable : Contained '#' qualifiedTable := by
  refine .each ?_
  simp only [List.forall_mem_cons]
  exact ⟨.of_tells (by decide), .of_tells (by decide), .of_tells (by decide), .of_tells (by decide),
    contained_identifier, .of_tells (by decide), contained_identifier.kept, by simp⟩

/-- The rule that drops what is said about a column or a table. -/
def remark : Pattern :=
  each [blanks, wordEdge, letters "COMMENT", blanks, optional (char '='), blanks, quotedLiteral]

theorem contained_remark : Contained '#' remark := by
  refine .each ?_
  simp only [List.forall_mem_cons]
  exact ⟨.of_tells (by decide), .of_tells (by decide), .of_tells (by decide), .of_tells (by decide),
    .of_tells (by decide), .of_tells (by decide), contained_quotedLiteral, by simp⟩

theorem contained_foreignKey : Contained '#' foreignKey := by
  have hname : Contained '#' (each [letters "CONSTRAINT", gap, identifier, gap]) := by
    refine .each ?_
    simp only [List.forall_mem_cons]
    exact ⟨.of_tells (by decide), .of_tells (by decide), contained_identifier,
      .of_tells (by decide), by simp⟩
  refine .each ?_
  simp only [List.forall_mem_cons]
  exact ⟨.of_tells (by decide), .of_tells (by decide), hname.optional, .of_tells (by decide),
    .of_tells (by decide), contained_optionalName, contained_columnList, .of_tells (by decide),
    contained_targetColumns, .of_tells (by decide), by simp⟩

theorem contained_uniqueConstraint : Contained '#' uniqueConstraint := by
  refine .each ?_
  simp only [List.forall_mem_cons]
  exact ⟨.of_tells (by decide), .of_tells (by decide), .of_tells (by decide), .of_tells (by decide),
    contained_identifier, .of_tells (by decide), .of_tells (by decide), .of_tells (by decide),
    .of_tells (by decide), contained_optionalName, contained_columnList, by simp⟩

theorem contained_inlineIndex : Contained '#' inlineIndex := by
  refine .each ?_
  simp only [List.forall_mem_cons]
  exact ⟨.of_tells (by decide), .of_tells (by decide), .of_tells (by decide), .of_tells (by decide),
    .of_tells (by decide), contained_optionalName, contained_columnList, .of_tells (by decide),
    by simp⟩

/-- All other rules stop at the hash whatever stands in front of it. -/
theorem filter_tells_mySqlRules : mySqlRules.filter (·.tells '#')
    = [qualifiedTable, remark, foreignKey, uniqueConstraint, inlineIndex] := rfl

theorem walled_mySqlRules : ∀ rule ∈ mySqlRules, Walled '#' 0 rule := by
  have hall : ∀ rule ∈ mySqlRules.filter (·.tells '#'), Contained '#' rule := by
    rw [filter_tells_mySqlRules]
    simp only [List.forall_mem_cons]
    exact ⟨contained_qualifiedTable, contained_remark, contained_foreignKey,
      contained_uniqueConstraint, contained_inlineIndex, by simp⟩
  intro rule hrule
  cases htells : rule.tells '#' with
  | false => exact walled_of_tells htells
  | true => exact (hall rule (List.mem_filter.2 ⟨hrule, htells⟩)).walled

/-! ### What the rules leave open -/

theorem trades_qualifiedTable : Trades qualifiedTable := by
  have hgap : Turns 0 gap := .of_tells (by decide) (by decide)
  refine .each ?_
  simp only [List.forall_mem_cons]
  exact ⟨.drop rfl (.of_tells rfl rfl), .kept rfl, .put rfl (by decide), .drop rfl hgap,
    .drop rfl contained_identifier.turns, .drop rfl (.of_tells rfl rfl), .kept rfl, by simp⟩

theorem trades_sized {types : List String} (htypes : Contained '#' (anyOf (types.map letters)))
    {s : String} (hs : surplus s.toList = 0) (hword : OpensNothing s.toList) :
    Trades (sized types s) := by
  have htypesSilent : (anyOf (types.map letters)).isSilent = true := by
    refine isSilent_anyOf fun p hp => ?_
    obtain ⟨type, -, rfl⟩ := List.mem_map.1 hp
    exact isSilent_letters type
  have hsilent : (each [wordEdge, anyOf (types.map letters), blanks, size]).isSilent = true :=
    Bool.and_eq_true_iff.2 ⟨rfl, Bool.and_eq_true_iff.2 ⟨htypesSilent, rfl⟩⟩
  have hread : Contained '#' (each [wordEdge, anyOf (types.map letters), blanks, size]) := by
    refine .each ?_
    simp only [List.forall_mem_cons]
    exact ⟨.of_tells (by decide), htypes, .of_tells (by decide), contained_size, by simp⟩
  exact .becomes hsilent hread.turns hs hword

theorem trades_mySqlRules : ∀ rule ∈ mySqlRules, Trades rule := by
  have hflat : ∀ {p : Pattern}, p.isSilent = true → p.tells '(' = false → p.tells ')' = false →
      Trades p := fun hp hopen hclose => .drop hp (.of_tells hopen hclose)
  have hsize : Contained '#' (each [blanks, size]) :=
    .next (.of_tells (by decide)) contained_size
  have htime : Contained '#' (each [wordEdge, letters "datetime", wordEdge, optional (each
      [blanks, size])]) :=
    .next (.of_tells (by decide)) (.next (.of_tells (by decide)) (.next (.of_tells (by decide))
      hsize.optional))
  have htext : Contained '#' (each [wordEdge, optional (anyOf [letters "tiny", letters "medium",
      letters "long"]), letters "text", blanks, size]) :=
    .next (.of_tells (by decide)) (.next (.of_tells (by decide)) (.next (.of_tells (by decide))
      hsize))
  have hupdate : Contained '#' (each [gap, phrase ["ON", "UPDATE", "CURRENT_TIMESTAMP"],
      optional precision]) :=
    .next (.of_tells (by decide)) (.next (.of_tells (by decide)) contained_precision.optional)
  have hnow : Contained '#' (each [wordEdge, letters "CURRENT_TIMESTAMP", precision]) :=
    .next (.of_tells (by decide)) (.next (.of_tells (by decide)) contained_precision)
  have hcomma : Turns (0 + (0 + 1)) (each [char ',', blanks, char ')']) :=
    .next (.of_tells rfl rfl) (.next (.of_tells (by decide) (by decide)) .closing)
  simp only [mySqlRules, List.forall_mem_cons]
  refine ⟨?_, ?_, ?_, ?_, ?_, ?_, ?_, ?_, ?_, ?_, ?_, ?_, ?_, ?_, ?_, ?_, ?_, ?_, ?_, ?_, ?_, ?_,
    ?_, by simp⟩
  · exact .quote (by decide) _
  · exact trades_qualifiedTable
  · exact hflat rfl (by decide) (by decide)
  · exact hflat rfl (by decide) (by decide)
  · exact hflat rfl (by decide) (by decide)
  · exact hflat rfl (by decide) (by decide)
  · exact hflat rfl (by decide) (by decide)
  · exact hflat rfl (by decide) (by decide)
  · exact hflat rfl (by decide) (by decide)
  · exact .drop rfl contained_remark.turns
  · exact trades_sized (.of_tells (by decide)) rfl (by decide)
  · exact trades_sized (.of_tells (by decide)) rfl (by decide)
  · exact trades_sized (.of_tells (by decide)) rfl (by decide)
  · exact .becomes rfl htime.turns rfl (by decide)
  · exact .becomes rfl htext.turns rfl (by decide)
  · exact .becomes rfl (.of_tells (by decide) (by decide)) rfl (by decide)
  · exact .becomes rfl (.of_tells (by decide) (by decide)) rfl (by decide)
  · exact .drop rfl hupdate.turns
  · exact .becomes rfl hnow.turns rfl (by decide)
  · exact .drop rfl contained_foreignKey.turns
  · exact .drop rfl contained_uniqueConstraint.turns
  · exact .drop rfl contained_inlineIndex.turns
  · exact .becomes rfl hcomma rfl (by decide)

theorem stops_mySqlRules : ∀ rule ∈ mySqlRules, Stops '#' rule := by
  have hlocal : mySqlRules.all (fun p => p.isSteady && !p.runsOver '#') = true := by decide
  intro rule hrule
  have hrun := List.all_eq_true.1 hlocal rule hrule
  rw [Bool.and_eq_true, Bool.not_eq_true'] at hrun
  exact ⟨hrun.1, hrun.2, walled_mySqlRules rule hrule, trades_mySqlRules rule hrule⟩

/-! ### The portable text -/

/-- **The portable text of a dump in front of a hash** is the portable text of what stands there, with
the hash behind it. No line break is left behind the hash. -/
theorem exists_portable_wall {p : String} (hbare : IsBare p.toList) (hcalm : Calm p.toList)
    (hline : opensLine p.toList = false) (t : List Char) :
    ∃ gap tail, (∀ b ∈ gap, Text.isBlank b = true) ∧ '\n' ∉ tail ∧
      (mySql.portable (String.ofList (p.toList ++ '#' :: t))).toList
        = (mySql.portable p).toList ++ (gap ++ '#' :: tail) := by
  obtain ⟨left, hleft⟩ := rewrite_comment_wall hbare hline t
  obtain ⟨left', hrules⟩ := exists_rewriteAll_wall stops_mySqlRules hcalm left
  obtain ⟨gap, hgap, hshorten⟩ := Text.exists_shorten_append_cons (c := '#') (by decide) true
    (rewriteAll mySqlRules p.toList) left'
  refine ⟨gap, Text.shorten false left', hgap, fun hbreak => ?_, ?_⟩
  · exact absurd (Text.eq_space_of_mem_shorten (by decide) hbreak) (by decide)
  · rw [portable, portable, String.toList_ofList, String.toList_ofList, String.toList_ofList, rules,
      hleft, rewrite_comment_of_isBare hbare, hrules, Text.collapse_eq_shorten,
      Text.collapse_eq_shorten, hshorten]

end SchemaAudit.Dialect
