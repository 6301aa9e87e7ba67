import Mathlib.Logic.Function.Basic
import SchemaAudit.Proofs.Graph.Cycle

/-!
# Which cycles the walk reports

A table that was met once is not entered again, so the walk meets every table from one other table
at most, and these steps make up a tree. Every reported cycle runs down the tree and is closed by
one reference back up. A cycle that uses another way between two tables is not seen.

* `Kept`, `walk_keeps`: what meeting a table, reporting a cycle and leaving a table keep holds of
  the whole walk.
* `Walk.RunsDown`: the tree, as the table from which each table was met.
* `eq_of_closing`: two reported cycles with the same closing reference are one.
* `Passes`: a cycle leads from one table to another one, wherever it is entered.
* `reportsAll_iff`: every cycle is reported just when no closing reference lies on two cycles.
* `forall_reportsAll_iff`: every cycle is reported in whatever order the tables are declared just
  when no reference at all lies on two cycles.
-/

namespace SchemaAudit.Cycle

open Relation

/-! ### What every step keeps -/

/-- What a walk keeps with every step, where the path holds the tables that were not left yet. -/
structure Kept (P : List String → Walk → Prop) : Prop where
  meet : ∀ node path w, P path w → node ∉ w.visited →
    P (node :: path) { w with visited := node :: w.visited }
  report : ∀ target path w, P path w → target ∈ path → P path (w.report (cycleFrom target path))
  leave : ∀ node path w, P (node :: path) w → P path w

section Kept

variable {edges : List Edge} {P : List String → Walk → Prop} {depth : Nat}

/-- The walk from a table that was not met keeps `P`, where `depth` is left for it. -/
def VisitKeeps (edges : List Edge) (P : List String → Walk → Prop) (depth : Nat) : Prop :=
  ∀ path node w, P path w → node ∉ w.visited → P path (visit edges depth path node w)

theorem visitNew_keeps (hvisit : VisitKeeps edges P depth) (path : List String) {w : Walk}
    (hw : P path w) (node : String) : P path (visitNew edges depth path w node) := by
  rw [visitNew]
  by_cases hmet : node ∈ w.visited
  · rw [if_pos (by simpa using hmet)]
    exact hw
  · rw [if_neg (by simpa using hmet)]
    exact hvisit path node w hw hmet

theorem follow_keeps (h : Kept P) (hvisit : VisitKeeps edges P depth) {path : List String}
    {w : Walk} (hw : P path w) (target : String) : P path (follow edges depth path w target) := by
  rw [follow]
  by_cases hpath : target ∈ path
  · rw [if_pos (by simpa using hpath)]
    exact h.report target path w hw hpath
  · rw [if_neg (by simpa using hpath)]
    exact visitNew_keeps hvisit path hw target

theorem visit_keeps (h : Kept P) (depth : Nat) : VisitKeeps edges P depth := by
  induction depth with
  | zero =>
    intro path node w hw _
    exact hw
  | succ depth ih =>
    intro path node w hw hnew
    rw [visit_succ]
    refine h.leave node path _ ?_
    exact List.foldlRecOn _ _ (h.meet node path w hw hnew)
      fun w' hw' target _ => follow_keeps h ih hw' target

/-- **What every step keeps holds of the whole walk.** -/
theorem walk_keeps (h : Kept P) (hstart : P [] Walk.start) (tables : List String) :
    P [] (walk tables edges) :=
  List.foldlRecOn _ _ hstart fun _ hw node _ => visitNew_keeps (visit_keeps h _) [] hw node

end Kept

theorem mem_cycles_report {w : Walk} {c d : List String} (h : c ∈ (w.report d).cycles) :
    c ∈ w.cycles ∨ c = d := by
  rw [Walk.report] at h
  split at h
  · exact .inl h
  · rcases List.mem_append.1 h with h | h
    · exact .inl h
    · exact .inr (List.mem_singleton.1 h)

theorem visited_report (w : Walk) (c : List String) : (w.report c).visited = w.visited := by
  rw [Walk.report]
  split <;> rfl

/-! ### The tree of first meetings -/

/-- Each table was met from its parent, where the path and the cycles were walked. -/
structure Walk.RunsDown (parent : String → Option String) (path : List String) (w : Walk) :
    Prop where
  path_subset : path ⊆ w.visited
  cycle_subset : ∀ c ∈ w.cycles, c.reverse ⊆ w.visited
  path_chain : path.IsChain (fun a b => parent a = some b)
  cycle_chain : ∀ c ∈ w.cycles, c.reverse.IsChain (fun a b => parent a = some b)

/-- A chain of parents does not depend on the parents of other tables. -/
theorem isChain_update {parent : String → Option String} {node : String} {l : List String}
    (hnew : node ∉ l) (above : Option String) (h : l.IsChain (fun a b => parent a = some b)) :
    l.IsChain (fun a b => Function.update parent node above a = some b) := by
  refine h.imp_of_mem_imp fun a b ha _ hab => ?_
  have hne : a ≠ node := fun e => hnew (e ▸ ha)
  rw [Function.update_of_ne hne]
  exact hab

namespace Walk.RunsDown

variable {parent : String → Option String} {path : List String} {w : Walk}

/-- A table that is met gets the end of the path as its parent. -/
theorem meet (h : w.RunsDown parent path) {node : String} (hnew : node ∉ w.visited) :
    RunsDown (Function.update parent node path.head?) (node :: path)
      { w with visited := node :: w.visited } := by
  have hpath : node ∉ path := fun hm => hnew (h.path_subset hm)
  refine ⟨?_, ?_, ?_, ?_⟩
  · exact List.cons_subset_cons node h.path_subset
  · intro c hc
    exact List.subset_cons_of_subset node (h.cycle_subset c hc)
  · refine List.isChain_cons.2 ⟨?_, isChain_update hpath _ h.path_chain⟩
    intro above habove
    rw [Function.update_self]
    exact habove
  · intro c hc
    have hcycle : node ∉ c.reverse := fun hm => hnew (h.cycle_subset c hc hm)
    exact isChain_update hcycle _ (h.cycle_chain c hc)

/-- A cycle that is reported is a part of the path. -/
theorem report (h : w.RunsDown parent path) {target : String} (hmem : target ∈ path) :
    (w.report (cycleFrom target path)).RunsDown parent path := by
  have hstart := reverse_cycleFrom_isPrefix hmem
  refine ⟨?_, ?_, h.path_chain, ?_⟩
  · rw [visited_report]
    exact h.path_subset
  · intro c hc
    rw [visited_report]
    rcases mem_cycles_report hc with hc | rfl
    · exact h.cycle_subset c hc
    · exact List.Subset.trans hstart.subset h.path_subset
  · intro c hc
    rcases mem_cycles_report hc with hc | rfl
    · exact h.cycle_chain c hc
    · exact h.path_chain.prefix hstart

theorem leave {node : String} (h : w.RunsDown parent (node :: path)) : w.RunsDown parent path :=
  ⟨fun _ hm => h.path_subset (List.mem_cons_of_mem node hm), h.cycle_subset, h.path_chain.tail,
    h.cycle_chain⟩

end Walk.RunsDown

/-- **All that was walked lies on one tree.** -/
theorem exists_parent (tables : List String) (edges : List Edge) :
    ∃ parent, (walk tables edges).RunsDown parent [] := by
  have hkept : Kept fun path w => ∃ parent, w.RunsDown parent path :=
    { meet := fun node path w ⟨parent, h⟩ hnew => ⟨_, h.meet hnew⟩
      report := fun target path w ⟨parent, h⟩ hmem => ⟨parent, h.report hmem⟩
      leave := fun node path w ⟨parent, h⟩ => ⟨parent, h.leave⟩ }
  refine walk_keeps hkept ⟨fun _ => none, ?_⟩ tables
  constructor <;> simp [Walk.start]

/-- There is one way up the tree from one table to another one. -/
theorem eq_of_isChain {parent : String → Option String} {p q : List String}
    (hp : p.IsChain (fun a b => parent a = some b)) (hq : q.IsChain (fun a b => parent a = some b))
    (hpn : p.Nodup) (hqn : q.Nodup) (hhead : p.head? = q.head?) (hlast : p.getLast? = q.getLast?) :
    p = q := by
  induction p generalizing q with
  | nil => exact (List.head?_eq_none_iff.1 hhead.symm).symm
  | cons a p ih =>
    obtain ⟨q, rfl⟩ : ∃ q', q = a :: q' := List.head?_eq_some_iff.1 hhead.symm
    -- a way that goes on does not end where it began
    have hends : ∀ {b : String} {r : List String}, (a :: b :: r).Nodup →
        (a :: b :: r).getLast? ≠ some a := by
      intro b r hr hlast
      rw [List.getLast?_cons_cons] at hlast
      exact (List.nodup_cons.1 hr).1 (List.mem_of_getLast? hlast)
    cases p with
    | nil =>
      cases q with
      | nil => rfl
      | cons c q => exact absurd hlast.symm (hends hqn)
    | cons b p =>
      cases q with
      | nil => exact absurd hlast (hends hpn)
      | cons c q =>
        obtain ⟨hab, hp⟩ := List.isChain_cons_cons.1 hp
        obtain ⟨hac, hq⟩ := List.isChain_cons_cons.1 hq
        obtain rfl : b = c := Option.some.inj (hab.symm.trans hac)
        rw [List.getLast?_cons_cons, List.getLast?_cons_cons] at hlast
        rw [ih hp hq (List.nodup_cons.1 hpn).2 (List.nodup_cons.1 hqn).2 rfl hlast]

/-- **No two reported cycles have their closing reference in common.** -/
theorem eq_of_closing {tables : List String} {edges : List Edge} {c d : List String}
    (hc : c ∈ findCycles tables edges) (hd : d ∈ findCycles tables edges)
    (hhead : c.head? = d.head?) (hlast : c.getLast? = d.getLast?) : c = d := by
  obtain ⟨parent, h⟩ := exists_parent tables edges
  refine List.reverse_injective
    (eq_of_isChain (h.cycle_chain c hc) (h.cycle_chain d hd) ?_ ?_ ?_ ?_)
  · exact List.nodup_reverse.2 (isCycle_of_mem hc).nodup
  · exact List.nodup_reverse.2 (isCycle_of_mem hd).nodup
  · rw [List.head?_reverse, List.head?_reverse, hlast]
  · rw [List.getLast?_reverse, List.getLast?_reverse, hhead]

/-- Cycles that were reported with the same closing reference are one, wherever they are entered. -/
theorem isRotated_of_ends {tables : List String} {edges : List Edge} {c c' d d' : List String}
    {a b : String} (hc : c' ∈ findCycles tables edges) (hd : d' ∈ findCycles tables edges)
    (hrc : c' ~r c) (hrd : d' ~r d) (hcends : c'.getLast? = some a ∧ c'.head? = some b)
    (hdends : d'.getLast? = some a ∧ d'.head? = some b) : c ~r d := by
  have heq : c' = d' :=
    eq_of_closing hc hd (hcends.2.trans hdends.2.symm) (hcends.1.trans hdends.1.symm)
  rw [heq] at hrc
  exact hrc.symm.trans hrd

/-! ### The references of a cycle -/

/-- The cycle leads from the one table to the other: entered there, it begins with the two. -/
def Passes (c : List String) (a b : String) : Prop := ∃ l, (a :: b :: l) ~r c

theorem Passes.rotated {c d : List String} {a b : String} (h : Passes c a b) (hr : c ~r d) :
    Passes d a b := by
  obtain ⟨l, hl⟩ := h
  exact ⟨l, hl.trans hr⟩

theorem passes_append (before behind : List String) (a b : String) :
    Passes (before ++ a :: b :: behind) a b := by
  refine ⟨behind ++ before, ?_⟩
  have hr : (a :: b :: behind) ++ before ~r before ++ a :: b :: behind := List.isRotated_append
  exact hr

/-- A cycle leads from its end back to its start. -/
theorem passes_ends {c : List String} {a b : String} (hlast : c.getLast? = some a)
    (hhead : c.head? = some b) (hne : a ≠ b) : Passes c a b := by
  obtain ⟨front, rfl⟩ := List.getLast?_eq_some_iff.1 hlast
  cases front with
  | nil => exact absurd (by simpa using hhead) hne
  | cons first front =>
    obtain rfl : first = b := by simpa using hhead
    exact ⟨front, List.isRotated_append (l := [a])⟩

/-- The two tables stand next to each other, or at the ends. -/
theorem Passes.cases {c : List String} {a b : String} (h : Passes c a b) :
    (∃ before behind, c = before ++ a :: b :: behind)
      ∨ c.getLast? = some a ∧ c.head? = some b := by
  obtain ⟨l, hl⟩ := h
  obtain ⟨n, hn, rfl⟩ := List.isRotated_iff_mod.1 hl
  rw [List.rotate_eq_drop_append_take hn]
  match n with
  | 0 => exact .inl ⟨[], l, by simp⟩
  | 1 =>
    right
    rw [List.drop_one, List.take_one]
    exact ⟨List.getLast?_concat, rfl⟩
  | n + 2 => exact .inl ⟨l.drop n, l.take n, by simp⟩

/-- Every cycle leads along the closing reference of a reported one. -/
theorem IsCycle.exists_reported (tables : List String) {edges : List Edge} {c : List String}
    (h : IsCycle edges c) : ∃ r ∈ findCycles tables edges, ∃ a b,
      r.getLast? = some a ∧ r.head? = some b ∧ Passes r a b ∧ Passes c a b := by
  by_contra hnone
  have hremains : ∀ a b, Refers edges a b → Passes c a b →
      Remains edges (findCycles tables edges) a b := by
    rintro a b hab hpass
    refine ⟨hab, ?_⟩
    rintro ⟨r, hr, hlast, hhead⟩
    exact hnone ⟨r, hr, a, b, hlast, hhead, passes_ends hlast hhead hab.2, hpass⟩
  have hne : c ≠ [] := by
    rintro rfl
    exact absurd h.two_le (by decide)
  have hchain : c.IsChain (Remains edges (findCycles tables edges)) := by
    rw [List.isChain_iff_forall_rel_of_append_cons_cons]
    rintro a b before behind rfl
    exact hremains a b (List.isChain_append_cons_cons.1 h.chain).2.1
      (passes_append before behind a b)
  have hpath := List.relationReflTransGen_of_exists_isChain c hchain hne
  have hlast := List.getLast?_eq_some_getLast hne
  have hfirst := List.head?_eq_some_head hne
  have hback := h.closes _ hlast _ hfirst
  -- with all of its references left the cycle would be an endless chain
  exact (isSettled_findCycles tables edges _).not_transGen
    (TransGen.tail' hpath (hremains _ _ hback (passes_ends hlast hfirst hback.2)))

/-- A closing reference leads back to a table that was met before, and no cycle that runs down the
tree leads along it but at its end. -/
theorem ends_of_passes {tables : List String} {edges : List Edge} {c : List String} {a b : String}
    (hc : c ∈ findCycles tables edges) (hcloses : Closes (findCycles tables edges) a b)
    (hpass : Passes c a b) : c.getLast? = some a ∧ c.head? = some b := by
  obtain ⟨hinv, -⟩ := walk_spec tables edges
  rcases hpass.cases with ⟨before, behind, rfl⟩ | hends
  · exfalso
    obtain ⟨r, hr, hlast, hhead⟩ := hcloses
    have hab : a ≠ b := (List.isChain_append_cons_cons.1 (isCycle_of_mem hc).chain).2.1.2
    have hdown : [b, a].Sublist (walk tables edges).visited := by
      refine List.Sublist.trans ?_ (hinv.cycle_sublist _ hc)
      simp
    have hup : [a, b].Sublist (walk tables edges).visited := by
      refine List.Sublist.trans ?_ (hinv.cycle_sublist r hr)
      obtain ⟨front, rfl⟩ := List.getLast?_eq_some_iff.1 hlast
      cases front with
      | nil => exact absurd (by simpa using hhead) hab
      | cons first front =>
        obtain rfl : first = b := by simpa using hhead
        simp
    have hperm : [b, a].Perm [a, b] := List.Perm.swap a b []
    have heq := (List.Nodup.perm_iff_eq_of_sublist hinv.nodup hdown hup).1 hperm
    exact hab (List.cons.inj heq).1.symm
  · exact hends

/-! ### When every cycle is reported -/

/-- Every cycle is reported, entered at whichever table. -/
def ReportsAll (tables : List String) (edges : List Edge) : Prop :=
  ∀ c, IsCycle edges c → ∃ d ∈ findCycles tables edges, d ~r c

/-- **Every cycle is reported just when no closing reference lies on two cycles.** -/
theorem reportsAll_iff (tables : List String) (edges : List Edge) :
    ReportsAll tables edges
      ↔ ∀ a b, Closes (findCycles tables edges) a b →
          ∀ c d, IsCycle edges c → IsCycle edges d → Passes c a b → Passes d a b → c ~r d := by
  constructor
  · intro hall a b hcloses c d hc hd hpassc hpassd
    obtain ⟨c', hc', hrc⟩ := hall c hc
    obtain ⟨d', hd', hrd⟩ := hall d hd
    have hcends := ends_of_passes hc' hcloses (hpassc.rotated hrc.symm)
    have hdends := ends_of_passes hd' hcloses (hpassd.rotated hrd.symm)
    exact isRotated_of_ends hc' hd' hrc hrd hcends hdends
  · intro hone c hc
    obtain ⟨r, hr, a, b, hlast, hhead, hpassr, hpassc⟩ := hc.exists_reported tables
    exact ⟨r, hr, hone a b ⟨r, hr, hlast, hhead⟩ r c (isCycle_of_mem hr) hc hpassr hpassc⟩

/-- Two ways lead from `orders` to `refunds`, and the walk takes the longer one. -/
theorem not_reportsAll : ¬ ∀ tables edges, ReportsAll tables edges := by
  intro hall
  have hshort : IsCycle [("orders", "invoices"), ("orders", "refunds"), ("invoices", "refunds"),
      ("refunds", "orders")] ["orders", "refunds"] := by
    refine ⟨by decide, by decide, ?_, ?_⟩
    · simp [Refers]
    · simp [Refers]
  obtain ⟨d, hd, hr⟩ := hall ["orders", "invoices", "refunds"] _ _ hshort
  have hfound : findCycles ["orders", "invoices", "refunds"] [("orders", "invoices"),
      ("orders", "refunds"), ("invoices", "refunds"), ("refunds", "orders")]
      = [["orders", "invoices", "refunds"]] := by decide +kernel
  rw [hfound, List.mem_singleton] at hd
  rw [hd] at hr
  exact absurd hr.perm.length_eq (by decide)

/-! ### Every order of the tables -/

/-- The tables come first, as they are declared. -/
theorem prefix_nodes (tables : List String) (edges : List Edge) :
    tables <+: nodes tables edges := by
  have hinsert : ∀ names name, names <+: insertEnd names name := by
    intro names name
    rw [insertEnd]
    split
    · exact List.prefix_rfl
    · exact List.prefix_append names [name]
  refine List.foldlRecOn (motive := fun names => tables <+: names) _ _ List.prefix_rfl
    fun names hnames e _ => ?_
  split
  · exact hnames
  · exact hnames.trans ((hinsert names e.1).trans (hinsert _ e.2))

/-- A table that is declared first is met first. -/
theorem getLast?_visited (root : String) (edges : List Edge) :
    (walk [root] edges).visited.getLast? = some root := by
  have hkept : Kept fun _ w => w.visited.getLast? = some root := by
    refine ⟨?_, ?_, fun _ _ _ h => h⟩
    · intro node _ w h _
      rw [List.getLast?_cons, h]
      rfl
    · intro target path w h _
      rw [visited_report]
      exact h
  obtain ⟨others, hnodes⟩ := prefix_nodes [root] edges
  rw [walk, ← hnodes, List.singleton_append, List.length_cons, List.foldl_cons]
  refine List.foldlRecOn (motive := fun w : Walk => w.visited.getLast? = some root) _ _ ?_
    fun _ hw node _ => visitNew_keeps (visit_keeps hkept _) [] hw node
  -- before the first step nothing is met, so that it is taken by itself
  show (visit edges (others.length + 1) [] root Walk.start).visited.getLast? = some root
  rw [visit_succ]
  exact List.foldlRecOn (motive := fun w : Walk => w.visited.getLast? = some root) _ _ rfl
    fun _ hw target _ => follow_keeps hkept (visit_keeps hkept _) hw target

/-- A cycle through the table that is met first begins there. -/
theorem head?_of_root {root : String} {edges : List Edge} {c : List String}
    (hc : c ∈ findCycles [root] edges) (hmem : root ∈ c) : c.head? = some root := by
  obtain ⟨hinv, -⟩ := walk_spec [root] edges
  obtain ⟨front, hfront⟩ := List.getLast?_eq_some_iff.1 (getLast?_visited root edges)
  have hnodup := hinv.nodup
  have hsub := hinv.cycle_sublist c hc
  rw [hfront] at hnodup hsub
  obtain ⟨l, r, hsplit, hl, hr⟩ := List.sublist_append_iff.1 hsub
  rcases List.sublist_singleton.1 hr with rfl | rfl
  · -- the cycle cannot lie before its own member
    rw [List.append_nil] at hsplit
    have hin : root ∈ front := hl.subset (hsplit ▸ List.mem_reverse.2 hmem)
    exact absurd rfl ((List.nodup_append.1 hnodup).2.2 root hin root (by simp))
  · rw [← List.getLast?_reverse, hsplit]
    exact List.getLast?_concat

/-- A cycle that leads to the table that is met first is closed there. -/
theorem ends_of_root {a root : String} {edges : List Edge} {c : List String}
    (hc : c ∈ findCycles [root] edges) (hpass : Passes c a root) :
    c.getLast? = some a ∧ c.head? = some root := by
  rcases hpass.cases with ⟨before, behind, rfl⟩ | hends
  · have hhead := head?_of_root hc (by simp)
    have hnodup := (isCycle_of_mem hc).nodup
    cases before <;> simp_all
  · exact hends

/-- **Every cycle is reported, in whatever order the tables are declared, just when no reference
lies on two cycles.** -/
theorem forall_reportsAll_iff (edges : List Edge) :
    (∀ tables, ReportsAll tables edges)
      ↔ ∀ a b c d, IsCycle edges c → IsCycle edges d → Passes c a b → Passes d a b → c ~r d := by
  constructor
  · intro hall a b c d hc hd hpassc hpassd
    -- the walk enters at the target of the reference, which then closes both cycles
    obtain ⟨c', hc', hrc⟩ := hall [b] c hc
    obtain ⟨d', hd', hrd⟩ := hall [b] d hd
    have hcends := ends_of_root hc' (hpassc.rotated hrc.symm)
    have hdends := ends_of_root hd' (hpassd.rotated hrd.symm)
    exact isRotated_of_ends hc' hd' hrc hrd hcends hdends
  · intro hone tables c hc
    obtain ⟨r, hr, a, b, -, -, hpassr, hpassc⟩ := hc.exists_reported tables
    exact ⟨r, hr, hone a b r c (isCycle_of_mem hr) hc hpassr hpassc⟩

end SchemaAudit.Cycle
