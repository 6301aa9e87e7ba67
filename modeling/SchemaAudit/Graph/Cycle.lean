/-!
# Cycles of references

A depth-first walk over the tables in order, and over the targets of each in order. Whenever a
target stands on the path from the root to the current table, the tables from it on are a cycle. A
cycle is reported where it is met first; the same cycle entered at another table is not reported
again. References of a table to itself are left out.
-/

namespace SchemaAudit.Cycle

/-- A reference: the table that refers and the one it refers to. -/
abbrev Edge := String × String

/-- The tables that one refers to, each once, without itself. -/
def successors (edges : List Edge) (node : String) : List String :=
  ((edges.filter fun e => e.1 == node && e.2 != node).map Prod.snd).eraseDups

/-- The names with one more at the end, if it is not among them. -/
def insertEnd (names : List String) (name : String) : List String :=
  if names.contains name then names else names ++ [name]

/-- The tables, and behind them the ends of references that are none. -/
def nodes (tables : List String) (edges : List Edge) : List String :=
  edges.foldl (fun names e => if e.1 == e.2 then names else insertEnd (insertEnd names e.1) e.2)
    tables

/-- The least of some names. -/
def leastOf (first : String) (rest : List String) : String :=
  rest.foldl (fun least name => if name < least then name else least) first

/-- The cycle entered at its least name. -/
def leastFirst : List String → List String
  | [] => []
  | first :: rest =>
    let least := leastOf first rest
    let cycle := first :: rest
    cycle.dropWhile (· != least) ++ cycle.takeWhile (· != least)

/-- What a walk has met so far. -/
structure Walk where
  visited : List String
  /-- The cycles reported, each entered at its least name. -/
  seen : List (List String)
  cycles : List (List String)
  deriving DecidableEq, Repr

namespace Walk

def start : Walk := ⟨[], [], []⟩

/-- The walk after meeting a cycle. -/
def report (w : Walk) (cycle : List String) : Walk :=
  let key := leastFirst cycle
  if w.seen.contains key then w
  else { w with seen := key :: w.seen, cycles := w.cycles ++ [cycle] }

end Walk

/-- The part of a path from a table on, where the path ends with its first member. -/
def cycleFrom (target : String) (path : List String) : List String :=
  target :: (path.takeWhile (· != target)).reverse

/-- The walk from a table, where `path` holds the tables before it, nearest first. A path without
repetition is no longer than there are tables, so that `depth` need not exceed their number. -/
def visit (edges : List Edge) : (depth : Nat) → (path : List String) → String → Walk → Walk
  | 0, _, _, w => w
  | depth + 1, path, node, w =>
    (successors edges node).foldl
      (fun w target =>
        if (node :: path).contains target then w.report (cycleFrom target (node :: path))
        else if w.visited.contains target then w
        else visit edges depth (node :: path) target w)
      { w with visited := node :: w.visited }

/-- The walk from every table that has not been visited. -/
def walk (tables : List String) (edges : List Edge) : Walk :=
  let all := nodes tables edges
  all.foldl
    (fun w node => if w.visited.contains node then w else visit edges all.length [] node w)
    Walk.start

end SchemaAudit.Cycle

namespace SchemaAudit

/-- The cycles of references between tables, each as the tables along it: `find_cycles`. -/
def findCycles (tables : List String) (edges : List Cycle.Edge) : List (List String) :=
  (Cycle.walk tables edges).cycles

end SchemaAudit
