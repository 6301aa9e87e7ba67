import Mathlib.Data.List.Basic
import SchemaAudit.Pattern

/-!
# The ways in which a pattern fits

A pattern that is read with a continuation takes the first way to fit with which the continuation
succeeds. Here the ways are listed without one, the preferred way first, and reading is shown to
search that list.

* `ways`, `searches_read`: the ways of a pattern at a place, and that reading searches them.
* `matchAt_eq_head?`: the match at a place is the first way, and there is none just when there is
  no way.
* `rest_isSuffix`, `copies_of_isSilent`: a way reads a piece of the text; a pattern that puts
  nothing writes just what it reads where that is kept, and nothing elsewhere.
* `ways_congr_bound`: the bound on rounds does not matter as long as it is no less than the length
  of the text.
-/

namespace SchemaAudit.Pattern

/-- A way in which a pattern fits: the place behind it, and what it writes. -/
abbrev Way := Place × List Char

/-- The ways to fit twice, the second time behind the first. -/
def after (first : List Way) (second : Place → List Way) : List Way :=
  first.flatMap fun m => (second m.1).map fun m' => (m'.1, m.2 ++ m'.2)

/-- The ways of at most so many rounds; the flag says that more rounds are preferred to fewer. -/
def repeated (greedy : Bool) (ways : Place → List Way) : (rounds : Nat) → Place → List Way
  | 0, place => [(place, [])]
  | rounds + 1, place =>
    let more := after (ways place) (repeated greedy ways rounds)
    if greedy then more ++ [(place, [])] else (place, []) :: more

/-- All ways in which a pattern fits at a place, the preferred one first. -/
def ways (bound : Nat) : Pattern → Bool → Place → List Way
  | always, _, place => [(place, [])]
  | never, _, _ => []
  | one p, keep, place =>
    match place.rest with
    | [] => []
    | c :: rest => if p c then [(⟨some c, rest⟩, if keep then [c] else [])] else []
  | next a b, keep, place => after (ways bound a keep place) (ways bound b keep)
  | either a b, keep, place => ways bound a keep place ++ ways bound b keep place
  | many a, keep, place => repeated true (ways bound a keep) bound place
  | few a, keep, place => repeated false (ways bound a keep) bound place
  | kept a, _, place => ways bound a true place
  | put s, _, place => [(place, s)]
  | wordEdge, _, place => if atWordEdge place then [(place, [])] else []
  | lineStart, _, place => if atLineStart place then [(place, [])] else []
  | lineEnd, _, place => if atLineEnd place then [(place, [])] else []

/-! ### Reading searches the ways -/

/-- Going on behind a way, where `out` was written before, last character first. -/
def Onward.behind (onward : Onward) (out : List Char) (m : Way) : Option Match :=
  onward m.1 (m.2.reverse ++ out)

/-- The reading takes the first of the ways with which it can go on. -/
def Searches (read : Reading) (ways : Place → List Way) : Prop :=
  ∀ place out onward, read place out onward = (ways place).findSome? (onward.behind out)

theorem findSome?_after (first : List Way) (second : Place → List Way) (onward : Onward)
    (out : List Char) :
    (after first second).findSome? (onward.behind out)
      = first.findSome? (Onward.behind
          (fun place out' => (second place).findSome? (onward.behind out')) out) := by
  induction first with
  | nil => rfl
  | cons m first ih =>
    have hhead : ((second m.1).map fun m' => (m'.1, m.2 ++ m'.2)).findSome? (onward.behind out)
        = Onward.behind (fun place out' => (second place).findSome? (onward.behind out'))
          out m := by
      rw [List.findSome?_map]
      congr 1
      funext m'
      simp [Onward.behind]
    rw [after, List.flatMap_cons, List.findSome?_append, List.findSome?_cons, hhead, ← ih, after]
    cases Onward.behind (fun place out' => (second place).findSome? (onward.behind out')) out m
      <;> rfl

theorem repeatMany_succ (read : Reading) (rounds : Nat) (place : Place) (out : List Char)
    (onward : Onward) :
    repeatMany read (rounds + 1) place out onward
      = (read place out fun place' out' => repeatMany read rounds place' out' onward).or
          (onward place out) := by
  rw [repeatMany]
  cases read place out fun place' out' => repeatMany read rounds place' out' onward <;> rfl

theorem repeatFew_succ (read : Reading) (rounds : Nat) (place : Place) (out : List Char)
    (onward : Onward) :
    repeatFew read (rounds + 1) place out onward
      = (onward place out).or
          (read place out fun place' out' => repeatFew read rounds place' out' onward) := by
  rw [repeatFew]
  cases onward place out <;> rfl

theorem read_either (bound : Nat) (a b : Pattern) (keep : Bool) (place : Place) (out : List Char)
    (onward : Onward) :
    read bound (either a b) keep place out onward
      = (read bound a keep place out onward).or (read bound b keep place out onward) := by
  rw [read]
  cases read bound a keep place out onward <;> rfl

theorem Searches.repeatMany {read : Reading} {ways : Place → List Way} (h : Searches read ways)
    (rounds : Nat) : Searches (Pattern.repeatMany read rounds) (repeated true ways rounds) := by
  induction rounds with
  | zero =>
    intro place out onward
    simp [Pattern.repeatMany, repeated, Onward.behind]
  | succ rounds ih =>
    intro place out onward
    have hround : (fun place' out' => Pattern.repeatMany read rounds place' out' onward)
        = fun place' out' => (repeated true ways rounds place').findSome? (onward.behind out') := by
      funext place' out'
      exact ih place' out' onward
    rw [repeatMany_succ, hround, h, repeated, if_pos rfl, List.findSome?_append, findSome?_after]
    simp [Onward.behind]

theorem Searches.repeatFew {read : Reading} {ways : Place → List Way} (h : Searches read ways)
    (rounds : Nat) : Searches (Pattern.repeatFew read rounds) (repeated false ways rounds) := by
  induction rounds with
  | zero =>
    intro place out onward
    simp [Pattern.repeatFew, repeated, Onward.behind]
  | succ rounds ih =>
    intro place out onward
    have hround : (fun place' out' => Pattern.repeatFew read rounds place' out' onward)
        = fun place' out' =>
          (repeated false ways rounds place').findSome? (onward.behind out') := by
      funext place' out'
      exact ih place' out' onward
    rw [repeatFew_succ, hround, h, repeated, if_neg (by decide), List.findSome?_cons,
      findSome?_after]
    cases honward : onward place out <;> simp [Onward.behind, honward]

/-- **Reading a pattern takes the first of its ways with which it can go on.** -/
theorem searches_read (bound : Nat) (p : Pattern) (keep : Bool) :
    Searches (p.read bound keep) (p.ways bound keep) := by
  induction p generalizing keep with
  | always => intro place out onward; simp [read, ways, Onward.behind]
  | never => intro place out onward; simp [read, ways]
  | one p =>
    intro place out onward
    simp only [read, ways]
    cases place.rest with
    | nil => rfl
    | cons c rest => by_cases hc : p c = true <;> cases keep <;> simp [hc, Onward.behind]
  | next a b iha ihb =>
    intro place out onward
    have hsecond : (fun place' out' => read bound b keep place' out' onward)
        = fun place' out' => (ways bound b keep place').findSome? (onward.behind out') := by
      funext place' out'
      exact ihb keep place' out' onward
    rw [read, hsecond, iha, ways, findSome?_after]
  | either a b iha ihb =>
    intro place out onward
    rw [read_either, iha, ihb, ways, List.findSome?_append]
  | many a ih => exact (ih keep).repeatMany bound
  | few a ih => exact (ih keep).repeatFew bound
  | kept a ih => exact ih true
  | put s => intro place out onward; simp [read, ways, Onward.behind]
  | wordEdge =>
    intro place out onward
    by_cases h : atWordEdge place = true <;> simp [read, ways, h, Onward.behind]
  | lineStart =>
    intro place out onward
    by_cases h : atLineStart place = true <;> simp [read, ways, h, Onward.behind]
  | lineEnd =>
    intro place out onward
    by_cases h : atLineEnd place = true <;> simp [read, ways, h, Onward.behind]

/-- **The match at a place is the first way.** -/
theorem matchAt_eq_head? (bound : Nat) (p : Pattern) (place : Place) :
    p.matchAt bound place
      = (p.ways bound false place).head?.map fun m => (m.1, m.2.reverse) := by
  rw [matchAt, searches_read]
  cases ways bound p false place <;> simp [Onward.behind]

theorem matchAt_eq_none_iff {bound : Nat} {p : Pattern} {place : Place} :
    p.matchAt bound place = none ↔ p.ways bound false place = [] := by
  rw [matchAt_eq_head?, Option.map_eq_none_iff, List.head?_eq_none_iff]

/-- A match is one of the ways. -/
theorem mem_ways_of_matchAt {bound : Nat} {p : Pattern} {place place' : Place} {out : List Char}
    (h : p.matchAt bound place = some (place', out)) :
    (place', out.reverse) ∈ p.ways bound false place := by
  rw [matchAt_eq_head?] at h
  obtain ⟨⟨end', written⟩, hm, heq⟩ := Option.map_eq_some_iff.1 h
  obtain ⟨rfl, rfl⟩ := Prod.mk.inj heq
  rw [List.reverse_reverse]
  exact List.mem_of_head? hm

/-! ### Ways of compound patterns -/

/-- The first way to fit twice, if it is the first way that can be followed. -/
theorem head?_after {first : List Way} {second : Place → List Way} {m m' : Way}
    (h : first.head? = some m) (h' : (second m.1).head? = some m') :
    (after first second).head? = some (m'.1, m.2 ++ m'.2) := by
  obtain ⟨ms, rfl⟩ := List.head?_eq_some_iff.1 h
  rw [after, List.flatMap_cons, List.head?_append, List.head?_map, h']
  rfl

theorem head?_ways_next {bound : Nat} {a b : Pattern} {keep : Bool} {place : Place} {m m' : Way}
    (h : (a.ways bound keep place).head? = some m)
    (h' : (b.ways bound keep m.1).head? = some m') :
    ((next a b).ways bound keep place).head? = some (m'.1, m.2 ++ m'.2) :=
  head?_after h h'

theorem after_singleton (m : Way) (second : Place → List Way) :
    after [m] second = (second m.1).map fun m' => (m'.1, m.2 ++ m'.2) := by
  rw [after, List.flatMap_singleton]

/-- Patterns in a row fit one behind the other. -/
theorem ways_each_cons (bound : Nat) (p : Pattern) (ps : List Pattern) (keep : Bool)
    (place : Place) :
    (each (p :: ps)).ways bound keep place
      = after (p.ways bound keep place) ((each ps).ways bound keep) := by
  cases ps with
  | cons q ps => rfl
  | nil =>
    have hlast : ∀ ms : List Way, after ms ((each []).ways bound keep) = ms := by
      intro ms
      induction ms with
      | nil => rfl
      | cons m ms ih =>
        rw [after, List.flatMap_cons] at *
        rw [ih]
        simp [each, ways]
    exact (hlast _).symm

/-! ### What a way reads -/

theorem mem_after {first : List Way} {second : Place → List Way} {m : Way} :
    m ∈ after first second
      ↔ ∃ m₁ ∈ first, ∃ m₂ ∈ second m₁.1, m = (m₂.1, m₁.2 ++ m₂.2) := by
  simp only [after, List.mem_flatMap, List.mem_map, eq_comm]

theorem mem_repeated_succ {greedy : Bool} {ways : Place → List Way} {rounds : Nat} {place : Place}
    {m : Way} : m ∈ repeated greedy ways (rounds + 1) place
      ↔ m ∈ after (ways place) (repeated greedy ways rounds) ∨ m = (place, []) := by
  cases greedy with
  | true => simp [repeated]
  | false => simp [repeated, or_comm]

/-- What holds of no round, and of a round and what follows it, holds of every number of rounds. -/
theorem repeated_induction {ways : Place → List Way} {P : Place → Way → Prop}
    (hstop : ∀ place, P place (place, []))
    (hround : ∀ place, ∀ m ∈ ways place, ∀ m', P m.1 m' → P place (m'.1, m.2 ++ m'.2))
    (greedy : Bool) (rounds : Nat) :
    ∀ place, ∀ m ∈ repeated greedy ways rounds place, P place m := by
  induction rounds with
  | zero =>
    intro place m hm
    rw [List.mem_singleton.1 hm]
    exact hstop place
  | succ rounds ih =>
    intro place m hm
    rcases mem_repeated_succ.1 hm with hm | rfl
    · obtain ⟨m₁, h₁, m₂, h₂, rfl⟩ := mem_after.1 hm
      exact hround place m₁ h₁ m₂ (ih m₁.1 m₂ h₂)
    · exact hstop place

theorem exists_of_mem_ways_one {bound : Nat} {f : Char → Bool} {keep : Bool} {place : Place}
    {m : Way} (h : m ∈ (one f).ways bound keep place) :
    ∃ c, f c = true ∧ place.rest = c :: m.1.rest
      ∧ m = (⟨some c, m.1.rest⟩, if keep then [c] else []) := by
  simp only [ways] at h
  split at h
  · exact absurd h List.not_mem_nil
  · rename_i c rest hrest
    split at h
    · rename_i hc
      obtain rfl := List.mem_singleton.1 h
      exact ⟨c, hc, hrest, rfl⟩
    · exact absurd h List.not_mem_nil

theorem sameLetter_iff {l c : Char} :
    sameLetter l c = true ↔ Text.asciiLower l = Text.asciiLower c
      ∨ (c.toNat = 8490 ∧ Text.asciiLower l = 'k') ∨ (c.toNat = 383 ∧ Text.asciiLower l = 's') := by
  rw [sameLetter, Bool.or_eq_true, Bool.or_eq_true, Bool.and_eq_true, Bool.and_eq_true, or_assoc]
  simp only [decide_eq_true_eq]

/-- **A way reads a piece of the text.** -/
theorem rest_isSuffix {bound : Nat} {p : Pattern} {keep : Bool} {place : Place} {m : Way}
    (h : m ∈ p.ways bound keep place) : m.1.rest <:+ place.rest := by
  induction p generalizing keep place m with
  | always => simp_all [ways]
  | never => simp_all [ways]
  | one p =>
    obtain ⟨c, -, hrest, -⟩ := exists_of_mem_ways_one h
    rw [hrest]
    exact List.suffix_cons c m.1.rest
  | next a b iha ihb =>
    obtain ⟨m₁, h₁, m₂, h₂, rfl⟩ := mem_after.1 h
    exact (ihb h₂).trans (iha h₁)
  | either a b iha ihb =>
    rcases List.mem_append.1 h with h | h
    · exact iha h
    · exact ihb h
  | many a ih =>
    exact repeated_induction (P := fun place m => m.1.rest <:+ place.rest)
      (fun _ => List.suffix_rfl) (fun _ _ hm _ h' => h'.trans (ih hm)) true bound place m h
  | few a ih =>
    exact repeated_induction (P := fun place m => m.1.rest <:+ place.rest)
      (fun _ => List.suffix_rfl) (fun _ _ hm _ h' => h'.trans (ih hm)) false bound place m h
  | kept a ih => exact ih h
  | put s => simp_all [ways]
  | wordEdge => simp_all [ways]
  | lineStart => simp_all [ways]
  | lineEnd => simp_all [ways]

/-- Patterns that put nothing into the result, and leave it to others what they keep. -/
def isSilent : Pattern → Bool
  | next a b | either a b => isSilent a && isSilent b
  | many a | few a => isSilent a
  | kept _ | put _ => false
  | _ => true

theorem isSilent_each {ps : List Pattern} (h : ∀ p ∈ ps, p.isSilent = true) :
    (each ps).isSilent = true := by
  induction ps with
  | nil => rfl
  | cons p ps ih =>
    rw [List.forall_mem_cons] at h
    cases ps with
    | nil => exact h.1
    | cons q ps => exact Bool.and_eq_true_iff.2 ⟨h.1, ih h.2⟩

theorem isSilent_anyOf {ps : List Pattern} (h : ∀ p ∈ ps, p.isSilent = true) :
    (anyOf ps).isSilent = true := by
  induction ps with
  | nil => rfl
  | cons p ps ih =>
    rw [List.forall_mem_cons] at h
    cases ps with
    | nil => exact h.1
    | cons q ps => exact Bool.and_eq_true_iff.2 ⟨h.1, ih h.2⟩

theorem isSilent_letters (s : String) : (letters s).isSilent = true := by
  refine isSilent_each fun p hp => ?_
  obtain ⟨l, -, rfl⟩ := List.mem_map.1 hp
  rfl

theorem isSilent_phrase (words : List String) : (phrase words).isSilent = true := by
  refine isSilent_each ?_
  induction words with
  | nil => simp
  | cons word words ih =>
    cases words with
    | nil => exact List.forall_mem_singleton.2 (isSilent_letters word)
    | cons next words =>
      exact List.forall_mem_cons.2 ⟨isSilent_letters word, List.forall_mem_cons.2 ⟨rfl, ih⟩⟩

/-- The way writes what it reads, where that is kept, and nothing elsewhere. -/
def Copies (keep : Bool) (place : Place) (m : Way) : Prop :=
  if keep then place.rest = m.2 ++ m.1.rest else m.2 = []

theorem Copies.stop (keep : Bool) (place : Place) : Copies keep place (place, []) := by
  cases keep <;> simp [Copies]

theorem Copies.join {keep : Bool} {place : Place} {m m' : Way} (h : Copies keep place m)
    (h' : Copies keep m.1 m') : Copies keep place (m'.1, m.2 ++ m'.2) := by
  cases keep with
  | true =>
    have hfirst : place.rest = m.2 ++ m.1.rest := h
    have hsecond : m.1.rest = m'.2 ++ m'.1.rest := h'
    show place.rest = m.2 ++ m'.2 ++ m'.1.rest
    rw [hfirst, hsecond, List.append_assoc]
  | false =>
    have hfirst : m.2 = [] := h
    have hsecond : m'.2 = [] := h'
    show m.2 ++ m'.2 = []
    rw [hfirst, hsecond]
    rfl

theorem Copies.stay {keep q : Bool} {place : Place} {m : Way}
    (h : m ∈ if q then [(place, [])] else ([] : List Way)) : Copies keep place m := by
  cases q with
  | true => exact List.mem_singleton.1 h ▸ Copies.stop keep place
  | false => exact absurd h List.not_mem_nil

/-- **A silent pattern writes what it reads**, where that is kept, and nothing elsewhere. -/
theorem copies_of_isSilent {bound : Nat} {p : Pattern} (hp : p.isSilent = true) {keep : Bool}
    {place : Place} {m : Way} (h : m ∈ p.ways bound keep place) : Copies keep place m := by
  induction p generalizing place m with
  | always => exact List.mem_singleton.1 h ▸ Copies.stop keep place
  | never => exact absurd h List.not_mem_nil
  | one p =>
    obtain ⟨c, -, hrest, hm⟩ := exists_of_mem_ways_one h
    rw [hm]
    cases keep with
    | true => exact hrest
    | false => rfl
  | next a b iha ihb =>
    simp only [isSilent, Bool.and_eq_true] at hp
    obtain ⟨m₁, h₁, m₂, h₂, rfl⟩ := mem_after.1 h
    exact (iha hp.1 h₁).join (ihb hp.2 h₂)
  | either a b iha ihb =>
    simp only [isSilent, Bool.and_eq_true] at hp
    rcases List.mem_append.1 h with h | h
    · exact iha hp.1 h
    · exact ihb hp.2 h
  | many a ih =>
    exact repeated_induction (Copies.stop keep) (fun _ _ hm _ => (ih hp hm).join) true bound place
      m h
  | few a ih =>
    exact repeated_induction (Copies.stop keep) (fun _ _ hm _ => (ih hp hm).join) false bound place
      m h
  | kept a => simp [isSilent] at hp
  | put s => simp [isSilent] at hp
  | wordEdge => exact Copies.stay h
  | lineStart => exact Copies.stay h
  | lineEnd => exact Copies.stay h

/-! ### The bound on rounds -/

/-- Patterns that read at least one character wherever they fit. -/
def isReader : Pattern → Bool
  | one _ | never => true
  | next a b => isReader a || isReader b
  | either a b => isReader a && isReader b
  | kept a => isReader a
  | _ => false

theorem rest_length_lt {bound : Nat} {p : Pattern} (hp : p.isReader = true) {keep : Bool}
    {place : Place} {m : Way} (h : m ∈ p.ways bound keep place) :
    m.1.rest.length < place.rest.length := by
  induction p generalizing keep place m with
  | never => simp_all [ways]
  | one p =>
    obtain ⟨c, -, hrest, -⟩ := exists_of_mem_ways_one h
    rw [hrest]
    exact Nat.lt_succ_self _
  | next a b iha ihb =>
    obtain ⟨m₁, h₁, m₂, h₂, rfl⟩ := mem_after.1 h
    have hfirst := (rest_isSuffix h₁).length_le
    have hsecond := (rest_isSuffix h₂).length_le
    show m₂.1.rest.length < place.rest.length
    rcases Bool.or_eq_true_iff.1 hp with hp | hp
    · exact Nat.lt_of_le_of_lt hsecond (iha hp h₁)
    · exact Nat.lt_of_lt_of_le (ihb hp h₂) hfirst
  | either a b iha ihb =>
    simp only [isReader, Bool.and_eq_true] at hp
    rcases List.mem_append.1 h with h | h
    · exact iha hp.1 h
    · exact ihb hp.2 h
  | kept a ih => exact ih hp h
  | _ => simp [isReader] at hp

/-- Patterns in which every repeated part is a reader. -/
def isSteady : Pattern → Bool
  | next a b | either a b => isSteady a && isSteady b
  | many a | few a => isReader a && isSteady a
  | kept a => isSteady a
  | _ => true

theorem after_congr {first : List Way} {second second' : Place → List Way}
    (h : ∀ m ∈ first, second m.1 = second' m.1) : after first second = after first second' := by
  refine List.flatMap_congr fun m hm => ?_
  rw [h m hm]

/-- Rounds that read something are used up with the text. -/
theorem repeated_congr {greedy : Bool} {ways ways' : Place → List Way} {size : Nat}
    (hsame : ∀ place : Place, place.rest.length ≤ size → ways place = ways' place)
    (hshorter : ∀ place, ∀ m ∈ ways place, m.1.rest.length < place.rest.length)
    {rounds rounds' : Nat} {place : Place} (hsize : place.rest.length ≤ size)
    (h : place.rest.length ≤ rounds) (h' : place.rest.length ≤ rounds') :
    repeated greedy ways rounds place = repeated greedy ways' rounds' place := by
  have hend : ∀ {n : Nat} {place : Place}, place.rest.length ≤ size → place.rest.length ≤ 0 →
      repeated greedy ways n place = [(place, [])]
        ∧ repeated greedy ways' n place = [(place, [])] := by
    intro n place hsize hempty
    have hnone : ways place = [] := by
      refine List.eq_nil_iff_forall_not_mem.2 fun m hm => ?_
      have hlt := hshorter place m hm
      omega
    have hnone' := (hsame place hsize).symm.trans hnone
    cases n <;> cases greedy <;> simp [repeated, hnone, hnone', after]
  induction rounds generalizing rounds' place with
  | zero => rw [(hend hsize h).1, (hend hsize h).2]
  | succ rounds ih =>
    cases rounds' with
    | zero => rw [(hend hsize h').1, (hend hsize h').2]
    | succ rounds' =>
      have hrounds : after (ways place) (repeated greedy ways rounds)
          = after (ways' place) (repeated greedy ways' rounds') := by
        rw [← hsame place hsize]
        refine after_congr fun m hm => ?_
        have hlt := hshorter place m hm
        exact ih (by omega) (by omega) (by omega)
      rw [repeated, repeated, hrounds]

/-- **The bound on rounds does not matter** as long as it is no less than the length of the text. -/
theorem ways_congr_bound {bound bound' : Nat} {p : Pattern} (hp : p.isSteady = true) {keep : Bool}
    {place : Place} (h : place.rest.length ≤ bound) (h' : place.rest.length ≤ bound') :
    p.ways bound keep place = p.ways bound' keep place := by
  induction p generalizing keep place with
  | next a b iha ihb =>
    simp only [isSteady, Bool.and_eq_true] at hp
    rw [ways, ways, iha hp.1 h h']
    refine after_congr fun m hm => ?_
    have hle := (rest_isSuffix hm).length_le
    exact ihb hp.2 (by omega) (by omega)
  | either a b iha ihb =>
    simp only [isSteady, Bool.and_eq_true] at hp
    rw [ways, ways, iha hp.1 h h', ihb hp.2 h h']
  | many a ih =>
    simp only [isSteady, Bool.and_eq_true] at hp
    have hsame : ∀ place' : Place, place'.rest.length ≤ place.rest.length →
        a.ways bound keep place' = a.ways bound' keep place' :=
      fun place' hle => ih hp.2 (by omega) (by omega)
    exact repeated_congr hsame (fun _ _ hm => rest_length_lt hp.1 hm) (Nat.le_refl _) h h'
  | few a ih =>
    simp only [isSteady, Bool.and_eq_true] at hp
    have hsame : ∀ place' : Place, place'.rest.length ≤ place.rest.length →
        a.ways bound keep place' = a.ways bound' keep place' :=
      fun place' hle => ih hp.2 (by omega) (by omega)
    exact repeated_congr hsame (fun _ _ hm => rest_length_lt hp.1 hm) (Nat.le_refl _) h h'
  | kept a ih => exact ih hp h h'
  | _ => rfl

theorem matchAt_congr_bound {bound bound' : Nat} {p : Pattern} (hp : p.isSteady = true)
    {place : Place} (h : place.rest.length ≤ bound) (h' : place.rest.length ≤ bound') :
    p.matchAt bound place = p.matchAt bound' place := by
  rw [matchAt_eq_head?, matchAt_eq_head?, ways_congr_bound hp h h']

end SchemaAudit.Pattern
