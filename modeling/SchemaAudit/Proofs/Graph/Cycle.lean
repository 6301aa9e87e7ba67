import Mathlib.Data.List.Chain
import Mathlib.Data.List.Perm.Subperm
import Mathlib.Data.List.Rotate
import Mathlib.Logic.Relation
import SchemaAudit.Graph.Cycle

/-!
# Cycles that the walk reports

What a depth-first walk reports, for any tables and any references, also those whose ends are no
tables or that are declared more than once.

* `Refers`: the graph that is walked, without references of a table to itself.
* `IsCycle`: a closed chain of references through different tables.
* `Closes`, `Remains`: the reference from the end of a reported cycle back to its start, and the
  references that are left when all of these are taken away.
* `Walk.Inv`: what holds of a walk at every moment, with the path from the root to the current
  table. Every reported cycle lies in discovery order, so that two with the same tables are equal
  and no rotation is ever left out. From a table that is left no endless chain remains.
* `visit_spec`: the walk from one table, by induction on the depth; `walk_spec`: the whole walk.
* `isCycle_of_mem`, `isSettled_findCycles`: every reported cycle is one, and without the closing
  references no table leads into an endless chain.
-/

namespace SchemaAudit.Cycle

open Relation

/-! ### The graph -/

/-- One table refers to another one. -/
def Refers (edges : List Edge) (a b : String) : Prop := (a, b) ∈ edges ∧ a ≠ b

theorem mem_successors {edges : List Edge} {a b : String} :
    b ∈ successors edges a ↔ Refers edges a b := by
  simp only [successors, List.mem_eraseDups, List.mem_map, List.mem_filter, Refers]
  constructor
  · rintro ⟨⟨a', b'⟩, ⟨hmem, hends⟩, rfl⟩
    simp only [Bool.and_eq_true, beq_iff_eq, bne_iff_ne] at hends
    obtain ⟨rfl, hne⟩ := hends
    exact ⟨hmem, hne.symm⟩
  · rintro ⟨hmem, hne⟩
    exact ⟨(a, b), ⟨hmem, by simpa using hne.symm⟩, rfl⟩

theorem mem_insertEnd {names : List String} {name n : String} :
    n ∈ insertEnd names name ↔ n ∈ names ∨ n = name := by
  rw [insertEnd]
  split
  · rename_i h
    have hmem : name ∈ names := by simpa using h
    constructor
    · exact Or.inl
    · rintro (h | rfl)
      · exact h
      · exact hmem
  · simp

/-- The names so far stay, and both ends of every reference between two tables join them. -/
theorem mem_foldl_ends {edges : List Edge} {names : List String} {n : String} :
    n ∈ edges.foldl
        (fun names e => if e.1 == e.2 then names else insertEnd (insertEnd names e.1) e.2) names
      ↔ n ∈ names ∨ ∃ a b, Refers edges a b ∧ (n = a ∨ n = b) := by
  induction edges generalizing names with
  | nil => simp [Refers]
  | cons e edges ih =>
    obtain ⟨a, b⟩ := e
    have hcons : (∃ x y, Refers ((a, b) :: edges) x y ∧ (n = x ∨ n = y))
        ↔ (a ≠ b ∧ (n = a ∨ n = b)) ∨ ∃ x y, Refers edges x y ∧ (n = x ∨ n = y) := by
      constructor
      · rintro ⟨x, y, ⟨hmem, hne⟩, hn⟩
        rcases List.mem_cons.1 hmem with heq | hmem
        · obtain ⟨rfl, rfl⟩ := Prod.mk.inj heq
          exact .inl ⟨hne, hn⟩
        · exact .inr ⟨x, y, ⟨hmem, hne⟩, hn⟩
      · rintro (⟨hne, hn⟩ | ⟨x, y, ⟨hmem, hne⟩, hn⟩)
        · exact ⟨a, b, ⟨List.mem_cons_self, hne⟩, hn⟩
        · exact ⟨x, y, ⟨List.mem_cons_of_mem _ hmem, hne⟩, hn⟩
    rw [List.foldl_cons, ih, hcons]
    by_cases hab : a = b
    · simp [hab]
    · simp [hab, mem_insertEnd, or_assoc]

/-- A walk meets every table and both ends of every reference. -/
theorem mem_nodes {tables : List String} {edges : List Edge} {n : String} :
    n ∈ nodes tables edges ↔ n ∈ tables ∨ ∃ a b, Refers edges a b ∧ (n = a ∨ n = b) :=
  mem_foldl_ends

/-! ### Cycles -/

/-- A closed chain of references through different tables. -/
structure IsCycle (edges : List Edge) (c : List String) : Prop where
  two_le : 2 ≤ c.length
  nodup : c.Nodup
  chain : c.IsChain (Refers edges)
  closes : ∀ last ∈ c.getLast?, ∀ first ∈ c.head?, Refers edges last first

/-- The reference that leads from the end of one of the cycles back to its start. -/
def Closes (cycles : List (List String)) (a b : String) : Prop :=
  ∃ c ∈ cycles, c.getLast? = some a ∧ c.head? = some b

/-- A reference that closes none of the cycles. -/
def Remains (edges : List Edge) (cycles : List (List String)) (a b : String) : Prop :=
  Refers edges a b ∧ ¬ Closes cycles a b

/-- No endless chain of remaining references begins at the table. -/
def IsSettled (edges : List Edge) (cycles : List (List String)) (n : String) : Prop :=
  Acc (fun b a => Remains edges cycles a b) n

theorem Closes.mono {cs ds : List (List String)} (h : cs ⊆ ds) {a b : String}
    (hc : Closes cs a b) : Closes ds a b := by
  obtain ⟨c, hmem, hends⟩ := hc
  exact ⟨c, h hmem, hends⟩

/-- Reporting more cycles leaves fewer references. -/
theorem IsSettled.mono {edges : List Edge} {cs ds : List (List String)} (h : cs ⊆ ds) {n : String}
    (hn : IsSettled edges cs n) : IsSettled edges ds n :=
  Subrelation.accessible (fun hr => ⟨hr.1, fun hc => hr.2 (hc.mono h)⟩) hn

theorem isSettled_of_remains {edges : List Edge} {cycles : List (List String)} {n : String}
    (h : ∀ b, Remains edges cycles n b → IsSettled edges cycles b) : IsSettled edges cycles n :=
  Acc.intro n h

theorem not_rel_of_acc {r : String → String → Prop} {n : String} (h : Acc r n) : ¬ r n n := by
  induction h with
  | intro n _ ih =>
    intro hn
    exact ih n hn hn

theorem IsSettled.not_transGen {edges : List Edge} {cycles : List (List String)} {n : String}
    (h : IsSettled edges cycles n) : ¬ TransGen (Remains edges cycles) n n := by
  intro hloop
  have hswap : TransGen (fun b a => Remains edges cycles a b) n n := transGen_swap.2 hloop
  exact not_rel_of_acc (Acc.transGen h) hswap

/-! ### The cycle at the end of a path -/

theorem leastFirst_perm (c : List String) : (leastFirst c).Perm c := by
  cases c with
  | nil => exact List.Perm.refl _
  | cons first rest =>
    rw [leastFirst]
    refine List.perm_append_comm.trans ?_
    rw [List.takeWhile_append_dropWhile]

theorem reverse_cycleFrom (target : String) (path : List String) :
    (cycleFrom target path).reverse = path.takeWhile (· != target) ++ [target] := by
  rw [cycleFrom, List.reverse_cons, List.reverse_reverse]

/-- The cycle is the part of the path up to its first member, turned around. -/
theorem reverse_cycleFrom_isPrefix {target : String} {path : List String} (h : target ∈ path) :
    (cycleFrom target path).reverse <+: path := by
  rw [reverse_cycleFrom]
  induction path with
  | nil => exact absurd h List.not_mem_nil
  | cons n path ih =>
    by_cases hn : n = target
    · subst hn
      simp
    · have hpath := ih ((List.mem_cons.1 h).resolve_left (Ne.symm hn))
      rw [List.takeWhile_cons_of_pos (by simpa using hn), List.cons_append]
      exact List.cons_prefix_cons.2 ⟨rfl, hpath⟩

theorem head?_cycleFrom (target : String) (path : List String) :
    (cycleFrom target path).head? = some target := rfl

/-- The cycle ends where the path stands. -/
theorem getLast?_cycleFrom {target node : String} (hne : node ≠ target) (path : List String) :
    (cycleFrom target (node :: path)).getLast? = some node := by
  rw [List.getLast?_eq_head?_reverse, reverse_cycleFrom,
    List.takeWhile_cons_of_pos (by simpa using hne)]
  rfl

/-- **Where a reference leads back onto the path, the path closes to a cycle.** -/
theorem isCycle_cycleFrom {edges : List Edge} {target node : String} {path : List String}
    (hnodup : (node :: path).Nodup)
    (hchain : (node :: path).IsChain (fun a b => Refers edges b a))
    (hback : Refers edges node target) (hmem : target ∈ node :: path) :
    IsCycle edges (cycleFrom target (node :: path)) := by
  have hstart := reverse_cycleFrom_isPrefix hmem
  have hne : node ≠ target := hback.2
  refine ⟨?_, ?_, ?_, ?_⟩
  · rw [← List.length_reverse, reverse_cycleFrom, List.takeWhile_cons_of_pos (by simpa using hne)]
    simp
  · exact List.nodup_reverse.1 (hstart.sublist.nodup hnodup)
  · have hrev := hchain.prefix hstart
    exact List.isChain_reverse.1 hrev
  · intro last hlast first hfirst
    rw [getLast?_cycleFrom hne] at hlast
    obtain rfl : node = last := by simpa using hlast
    obtain rfl : target = first := by simpa [cycleFrom] using hfirst
    exact hback

/-! ### The invariant of a walk -/

/-- What holds of a walk while it stands on a path, nearest table first, among the tables `all`. -/
structure Walk.Inv (edges : List Edge) (all path : List String) (w : Walk) : Prop where
  nodup : w.visited.Nodup
  known : w.visited ⊆ all
  /-- The path was walked in the order in which its tables were met. -/
  path_sublist : path.Sublist w.visited
  chain : path.IsChain (fun a b => Refers edges b a)
  isCycle : ∀ c ∈ w.cycles, IsCycle edges c
  /-- So was every cycle. -/
  cycle_sublist : ∀ c ∈ w.cycles, c.reverse.Sublist w.visited
  distinct : w.cycles.Nodup
  mem_seen : ∀ key, key ∈ w.seen ↔ ∃ c ∈ w.cycles, leastFirst c = key
  /-- A table that was left leads into no endless chain. -/
  settled : ∀ n ∈ w.visited, n ∉ path → IsSettled edges w.cycles n

/-- A later walk: nothing that was met or reported is forgotten. -/
structure Walk.Extends (w w' : Walk) : Prop where
  visited : w.visited ⊆ w'.visited
  cycles : w.cycles ⊆ w'.cycles

namespace Walk

theorem Extends.refl (w : Walk) : Extends w w := ⟨fun _ h => h, fun _ h => h⟩

theorem Extends.trans {u v w : Walk} (h : Extends u v) (h' : Extends v w) : Extends u w :=
  ⟨List.Subset.trans h.visited h'.visited, List.Subset.trans h.cycles h'.cycles⟩

variable {edges : List Edge} {all path : List String} {w : Walk}

theorem Inv.start (edges : List Edge) (all : List String) : Inv edges all [] Walk.start := by
  constructor <;> simp [Walk.start]

/-- Cycles that lie in the order of discovery are equal if they have the same tables. -/
theorem Inv.eq_of_perm (h : Inv edges all path w) {c d : List String}
    (hc : c.reverse.Sublist w.visited) (hd : d.reverse.Sublist w.visited) (hperm : c.Perm d) :
    c = d := by
  have hrev : c.reverse.Perm d.reverse :=
    (List.reverse_perm c).trans (hperm.trans (List.reverse_perm d).symm)
  exact List.reverse_injective ((List.Nodup.perm_iff_eq_of_sublist h.nodup hc hd).1 hrev)

/-- A cycle is taken for one that was seen only if it was reported itself. -/
theorem Inv.mem_seen_iff (h : Inv edges all path w) {c : List String}
    (hc : c.reverse.Sublist w.visited) : leastFirst c ∈ w.seen ↔ c ∈ w.cycles := by
  rw [h.mem_seen]
  constructor
  · rintro ⟨d, hd, hkey⟩
    have hperm : c.Perm d := by
      have hdperm := leastFirst_perm d
      rw [hkey] at hdperm
      exact (leastFirst_perm c).symm.trans hdperm
    rw [h.eq_of_perm hc (h.cycle_sublist d hd) hperm]
    exact hd
  · intro hmem
    exact ⟨c, hmem, rfl⟩

/-- One more cycle keeps the invariant, if it was walked in order and not reported before. -/
theorem Inv.add (h : Inv edges all path w) {c : List String} (hcycle : IsCycle edges c)
    (hc : c.reverse.Sublist w.visited) (hnew : c ∉ w.cycles) :
    Inv edges all path { w with seen := leastFirst c :: w.seen, cycles := w.cycles ++ [c] } := by
  have hsub : w.cycles ⊆ w.cycles ++ [c] := List.subset_append_left _ _
  refine ⟨h.nodup, h.known, h.path_sublist, h.chain, ?_, ?_, ?_, ?_, ?_⟩
  · intro d hd
    rcases List.mem_append.1 hd with hd | hd
    · exact h.isCycle d hd
    · rw [List.mem_singleton.1 hd]
      exact hcycle
  · intro d hd
    rcases List.mem_append.1 hd with hd | hd
    · exact h.cycle_sublist d hd
    · rw [List.mem_singleton.1 hd]
      exact hc
  · show (w.cycles ++ [c]).Nodup
    rw [List.nodup_append]
    refine ⟨h.distinct, by simp, ?_⟩
    rintro d hd e he rfl
    exact hnew (List.mem_singleton.1 he ▸ hd)
  · intro key
    show key ∈ leastFirst c :: w.seen ↔ ∃ d ∈ w.cycles ++ [c], leastFirst d = key
    rw [List.mem_cons, h.mem_seen]
    constructor
    · rintro (rfl | ⟨d, hd, hkey⟩)
      · exact ⟨c, by simp, rfl⟩
      · exact ⟨d, hsub hd, hkey⟩
    · rintro ⟨d, hd, hkey⟩
      rcases List.mem_append.1 hd with hd | hd
      · exact .inr ⟨d, hd, hkey⟩
      · rw [List.mem_singleton.1 hd] at hkey
        exact .inl hkey.symm
  -- more cycles leave fewer references, so that what was settled stays so
  · intro n hn hpath
    exact (h.settled n hn hpath).mono hsub

/-- Reporting a cycle keeps the invariant, and the cycle is among the reported ones then. -/
theorem Inv.report (h : Inv edges all path w) {c : List String} (hcycle : IsCycle edges c)
    (hc : c.reverse.Sublist w.visited) :
    Inv edges all path (w.report c) ∧ Extends w (w.report c) ∧ c ∈ (w.report c).cycles := by
  by_cases hseen : leastFirst c ∈ w.seen
  · have hreport : w.report c = w := by
      rw [Walk.report]
      simp [hseen]
    rw [hreport]
    exact ⟨h, Extends.refl w, (h.mem_seen_iff hc).1 hseen⟩
  · have hnew : c ∉ w.cycles := fun hmem => hseen ((h.mem_seen_iff hc).2 hmem)
    have hreport : w.report c
        = { w with seen := leastFirst c :: w.seen, cycles := w.cycles ++ [c] } := by
      rw [Walk.report]
      simp [hseen]
    rw [hreport]
    exact ⟨h.add hcycle hc hnew, ⟨fun _ hm => hm, List.subset_append_left _ _⟩, by simp⟩

/-- Stepping onto a table that was not met puts it on the path. -/
theorem Inv.push (h : Inv edges all path w) {node : String} (hnew : node ∉ w.visited)
    (hknown : node ∈ all) (hchain : (node :: path).IsChain (fun a b => Refers edges b a)) :
    Inv edges all (node :: path) { w with visited := node :: w.visited } := by
  refine ⟨?_, ?_, ?_, hchain, h.isCycle, ?_, h.distinct, h.mem_seen, ?_⟩
  · exact List.nodup_cons.2 ⟨hnew, h.nodup⟩
  · exact List.cons_subset.2 ⟨hknown, h.known⟩
  · exact h.path_sublist.cons_cons node
  · intro c hc
    exact (h.cycle_sublist c hc).trans (List.sublist_cons_self node w.visited)
  · intro n hn hpath
    obtain ⟨hne, hpath⟩ := not_or.1 (fun hor => hpath (List.mem_cons.2 hor))
    exact h.settled n ((List.mem_cons.1 hn).resolve_left hne) hpath

/-- Leaving a table takes it from the path, if nothing endless begins there. -/
theorem Inv.pop {node : String} (h : Inv edges all (node :: path) w)
    (hnode : IsSettled edges w.cycles node) : Inv edges all path w := by
  refine ⟨h.nodup, h.known, (List.sublist_cons_self node path).trans h.path_sublist, h.chain.tail,
    h.isCycle, h.cycle_sublist, h.distinct, h.mem_seen, ?_⟩
  intro n hn hpath
  by_cases hne : n = node
  · rw [hne]
    exact hnode
  · exact h.settled n hn (List.not_mem_cons_of_ne_of_not_mem hne hpath)

end Walk

/-! ### Loops -/

/-- What every step of a loop keeps holds behind the loop, and what a step achieves for its own
member stays. -/
theorem foldl_spec {P : Walk → Prop} (Done : String → Walk → Prop) {step : Walk → String → Walk}
    (hmono : ∀ n w w', Walk.Extends w w' → Done n w → Done n w') {ns : List String}
    (hstep : ∀ n ∈ ns, ∀ w, P w → P (step w n) ∧ Walk.Extends w (step w n) ∧ Done n (step w n))
    {w : Walk} (hw : P w) :
    P (ns.foldl step w) ∧ Walk.Extends w (ns.foldl step w)
      ∧ ∀ n ∈ ns, Done n (ns.foldl step w) := by
  induction ns generalizing w with
  | nil => exact ⟨hw, Walk.Extends.refl w, by simp⟩
  | cons n ns ih =>
    obtain ⟨hp, hext, hdone⟩ := hstep n List.mem_cons_self w hw
    obtain ⟨hp', hext', hdone'⟩ :=
      ih (fun m hm => hstep m (List.mem_cons_of_mem _ hm)) hp
    refine ⟨hp', hext.trans hext', ?_⟩
    intro m hm
    rcases List.mem_cons.1 hm with rfl | hm
    · exact hmono _ _ _ hext' hdone
    · exact hdone' m hm

/-! ### The walk from one table -/

/-- Walking from a table unless it was met. -/
def visitNew (edges : List Edge) (depth : Nat) (path : List String) (w : Walk) (node : String) :
    Walk :=
  if w.visited.contains node then w else visit edges depth path node w

/-- Going on to a table that the end of the path refers to. -/
def follow (edges : List Edge) (depth : Nat) (path : List String) (w : Walk) (target : String) :
    Walk :=
  if path.contains target then w.report (cycleFrom target path)
  else visitNew edges depth path w target

theorem visit_succ (edges : List Edge) (depth : Nat) (path : List String) (node : String)
    (w : Walk) : visit edges (depth + 1) path node w
      = (successors edges node).foldl (follow edges depth (node :: path))
          { w with visited := node :: w.visited } := rfl

/-- What is achieved for a reference: it closes a reported cycle, or its target was left before. -/
def Followed (path : List String) (node target : String) (w : Walk) : Prop :=
  Closes w.cycles node target ∨ target ∈ w.visited ∧ target ∉ path

theorem Followed.mono {path : List String} {node target : String} {w w' : Walk}
    (h : Walk.Extends w w') (hf : Followed path node target w) : Followed path node target w' := by
  rcases hf with hf | ⟨hmem, hpath⟩
  · exact .inl (hf.mono h.cycles)
  · exact .inr ⟨h.visited hmem, hpath⟩

/-- What a walk from a table that was not met does, where `depth` is left for it. -/
def VisitSpec (edges : List Edge) (all : List String) (depth : Nat) : Prop :=
  ∀ path node w, all.length ≤ depth + path.length → node ∈ all → node ∉ w.visited →
    (node :: path).IsChain (fun a b => Refers edges b a) → w.Inv edges all path →
    (visit edges depth path node w).Inv edges all path
      ∧ w.Extends (visit edges depth path node w)
      ∧ node ∈ (visit edges depth path node w).visited

theorem visitNew_spec {edges : List Edge} {all : List String} {depth : Nat}
    (hvisit : VisitSpec edges all depth) {path : List String} {node : String} {w : Walk}
    (hdepth : all.length ≤ depth + path.length) (hnode : node ∈ all)
    (hchain : (node :: path).IsChain (fun a b => Refers edges b a)) (h : w.Inv edges all path) :
    (visitNew edges depth path w node).Inv edges all path
      ∧ w.Extends (visitNew edges depth path w node)
      ∧ node ∈ (visitNew edges depth path w node).visited := by
  rw [visitNew]
  by_cases hmet : node ∈ w.visited
  · rw [if_pos (by simpa using hmet)]
    exact ⟨h, Walk.Extends.refl w, hmet⟩
  · rw [if_neg (by simpa using hmet)]
    exact hvisit path node w hdepth hnode hmet hchain h

/-- Following one reference from the table at the end of the path. -/
theorem follow_spec {edges : List Edge} {all : List String} {depth : Nat}
    (hvisit : VisitSpec edges all depth) {path : List String} {node target : String} {w : Walk}
    (hdepth : all.length ≤ depth + (node :: path).length) (hall : target ∈ all)
    (hrefers : Refers edges node target) (h : w.Inv edges all (node :: path)) :
    (follow edges depth (node :: path) w target).Inv edges all (node :: path)
      ∧ w.Extends (follow edges depth (node :: path) w target)
      ∧ Followed (node :: path) node target (follow edges depth (node :: path) w target) := by
  rw [follow]
  by_cases hpath : target ∈ node :: path
  · rw [if_pos (by simpa using hpath)]
    have hnodup : (node :: path).Nodup := h.path_sublist.nodup h.nodup
    have hcycle := isCycle_cycleFrom hnodup h.chain hrefers hpath
    have hsub := (reverse_cycleFrom_isPrefix hpath).sublist.trans h.path_sublist
    obtain ⟨hinv, hext, hmem⟩ := h.report hcycle hsub
    refine ⟨hinv, hext, .inl ⟨_, hmem, ?_, head?_cycleFrom target _⟩⟩
    exact getLast?_cycleFrom hrefers.2 path
  · rw [if_neg (by simpa using hpath)]
    have hchain : (target :: node :: path).IsChain (fun a b => Refers edges b a) :=
      List.isChain_cons_cons.2 ⟨hrefers, h.chain⟩
    obtain ⟨hinv, hext, hmem⟩ := visitNew_spec hvisit hdepth hall hchain h
    exact ⟨hinv, hext, .inr ⟨hmem, hpath⟩⟩

/-- The path is no longer than there are tables, so that the depth is never used up. -/
theorem length_path_lt {edges : List Edge} {all path : List String} {w : Walk} {node : String}
    (h : w.Inv edges all path) (hnode : node ∈ all) (hnew : node ∉ w.visited) :
    path.length < all.length := by
  have hnodup : (node :: w.visited).Nodup := List.nodup_cons.2 ⟨hnew, h.nodup⟩
  have hsub : node :: w.visited ⊆ all := List.cons_subset.2 ⟨hnode, h.known⟩
  have hle := (List.subperm_of_subset hnodup hsub).length_le
  have hpath := h.path_sublist.length_le
  rw [List.length_cons] at hle
  omega

/-- **The walk from one table keeps the invariant.** -/
theorem visit_spec {edges : List Edge} {all : List String}
    (hall : ∀ a b, Refers edges a b → b ∈ all) (depth : Nat) : VisitSpec edges all depth := by
  induction depth with
  | zero =>
    intro path node w hdepth hnode hnew hchain h
    -- with no depth left the path would hold every table, the new one included
    have hlt := length_path_lt h hnode hnew
    omega
  | succ depth ih =>
    intro path node w hdepth hnode hnew hchain h
    have hdepth' : all.length ≤ depth + (node :: path).length := by
      rw [List.length_cons]
      omega
    have hstep : ∀ target ∈ successors edges node, ∀ w' : Walk, w'.Inv edges all (node :: path) →
        (follow edges depth (node :: path) w' target).Inv edges all (node :: path)
          ∧ w'.Extends (follow edges depth (node :: path) w' target)
          ∧ Followed (node :: path) node target (follow edges depth (node :: path) w' target) := by
      intro target ht w' hw'
      have hrefers := mem_successors.1 ht
      exact follow_spec ih hdepth' (hall _ _ hrefers) hrefers hw'
    obtain ⟨hinv, hext, hfollowed⟩ := foldl_spec (Followed (node :: path) node)
      (fun _ _ _ => Followed.mono) hstep (h.push hnew hnode hchain)
    rw [← visit_succ] at hinv hext hfollowed
    refine ⟨?_, ?_, ?_⟩
    -- every reference of the table closes a cycle or leads to a table that was left before
    · refine hinv.pop (isSettled_of_remains fun target hremains => ?_)
      rcases hfollowed target (mem_successors.2 hremains.1) with hcloses | ⟨hmet, hpath⟩
      · exact absurd hcloses hremains.2
      · exact hinv.settled target hmet hpath
    · have hmeet : w.Extends { w with visited := node :: w.visited } :=
        ⟨List.subset_cons_self node w.visited, fun _ hc => hc⟩
      exact hmeet.trans hext
    · exact hext.visited List.mem_cons_self

/-! ### The whole walk -/

/-- **The whole walk keeps the invariant and meets every table.** -/
theorem walk_spec (tables : List String) (edges : List Edge) :
    (walk tables edges).Inv edges (nodes tables edges) []
      ∧ ∀ n ∈ nodes tables edges, n ∈ (walk tables edges).visited := by
  have hall : ∀ a b, Refers edges a b → b ∈ nodes tables edges :=
    fun a b h => mem_nodes.2 (.inr ⟨a, b, h, .inr rfl⟩)
  have hstep : ∀ n ∈ nodes tables edges, ∀ w : Walk, w.Inv edges (nodes tables edges) [] →
      (visitNew edges (nodes tables edges).length [] w n).Inv edges (nodes tables edges) []
        ∧ w.Extends (visitNew edges (nodes tables edges).length [] w n)
        ∧ n ∈ (visitNew edges (nodes tables edges).length [] w n).visited :=
    fun n hn _ hw =>
      visitNew_spec (visit_spec hall _) (Nat.le_refl _) hn (List.isChain_singleton n) hw
  obtain ⟨hinv, -, hmet⟩ := foldl_spec (fun n w => n ∈ w.visited)
    (fun _ _ _ hext hn => hext.visited hn) hstep (Walk.Inv.start edges (nodes tables edges))
  exact ⟨hinv, hmet⟩

theorem isCycle_of_mem {tables : List String} {edges : List Edge} {c : List String}
    (h : c ∈ findCycles tables edges) : IsCycle edges c :=
  (walk_spec tables edges).1.isCycle c h

/-- No table leads into an endless chain of references that close no reported cycle. -/
theorem isSettled_findCycles (tables : List String) (edges : List Edge) (n : String) :
    IsSettled edges (findCycles tables edges) n := by
  obtain ⟨hinv, hmet⟩ := walk_spec tables edges
  by_cases hn : n ∈ nodes tables edges
  · exact hinv.settled n (hmet n hn) List.not_mem_nil
  · refine isSettled_of_remains fun b hb => ?_
    exact absurd (mem_nodes.2 (.inr ⟨n, b, hb.1, .inl rfl⟩)) hn

/-- A cycle leads from its start back to it. -/
theorem IsCycle.exists_transGen {edges : List Edge} {c : List String} (h : IsCycle edges c) :
    ∃ n, TransGen (Refers edges) n n := by
  have hne : c ≠ [] := by
    rintro rfl
    exact absurd h.two_le (by decide)
  have hpath := List.relationReflTransGen_of_exists_isChain c h.chain hne
  have hback := h.closes _ (List.getLast?_eq_some_getLast hne) _ (List.head?_eq_some_head hne)
  exact ⟨c.head hne, TransGen.tail' hpath hback⟩

/-- **Without the closing references no cycle is left.** The walk reports nothing just when there
was none from the start. -/
theorem acyclic_of_remains (tables : List String) (edges : List Edge) :
    (∀ n, ¬ TransGen (Remains edges (findCycles tables edges)) n n)
      ∧ (findCycles tables edges = [] ↔ ∀ n, ¬ TransGen (Refers edges) n n) := by
  have hremains : ∀ n, ¬ TransGen (Remains edges (findCycles tables edges)) n n :=
    fun n => (isSettled_findCycles tables edges n).not_transGen
  refine ⟨hremains, ?_, ?_⟩
  · intro hnil n hloop
    rw [hnil] at hremains
    have hall : ∀ a b, Refers edges a b → Remains edges [] a b :=
      fun a b h => ⟨h, fun hc => absurd hc (by simp [Closes])⟩
    exact hremains n (TransGen.mono hall n n hloop)
  · intro hacyclic
    refine List.eq_nil_iff_forall_not_mem.2 fun c hc => ?_
    obtain ⟨n, hloop⟩ := (isCycle_of_mem hc).exists_transGen
    exact hacyclic n hloop

/-- **Every reported cycle is a cycle, and none is reported twice**, entered at whichever table. -/
theorem isCycle_and_not_isRotated (tables : List String) (edges : List Edge) :
    (∀ c ∈ findCycles tables edges, IsCycle edges c)
      ∧ (findCycles tables edges).Pairwise (fun c d => ¬ c ~r d) := by
  obtain ⟨hinv, -⟩ := walk_spec tables edges
  refine ⟨hinv.isCycle, ?_⟩
  refine List.Pairwise.imp_of_mem ?_ hinv.distinct
  intro c d hc hd hne hrotated
  exact hne (hinv.eq_of_perm (hinv.cycle_sublist c hc) (hinv.cycle_sublist d hd) hrotated.perm)

/-- A cycle is entered where the walk meets it first, also at a table that is not declared. -/
example : findCycles ["b", "c"] [("a", "b"), ("b", "c"), ("c", "a"), ("c", "b"), ("c", "c")]
    = [["b", "c", "a"], ["b", "c"]] := by decide +kernel

end SchemaAudit.Cycle
