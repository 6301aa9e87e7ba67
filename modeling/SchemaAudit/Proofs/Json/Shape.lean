import SchemaAudit.FirstMatch
import SchemaAudit.Json.Shape

/-!
# Records with all fields in order

A shape takes the members of a record in any order and forgives what is left out. Here is what it
makes of a record as it is written: all fields, each once and in order.

* `Decoder.list_map`, `Decoder.oneOf_string`: a list is read item by item, and one of some things
  by its name.
* `Shape.Reads`: what a shape makes of members.
* `Shape.reads_field`, `Shape.Reads.cons`, `Shape.Reads.map`: one lemma for each way to make a
  shape.
* `Shape.Reads.decode`: the record of a shape.
-/

namespace SchemaAudit

namespace Decoder

/-- **A list is read item by item.** -/
theorem list_map {α : Type} {d : Decoder α} {write : α → Json} {as : List α}
    (h : ∀ a ∈ as, d (write a) = .ok a) : list d (.list (as.map write)) = .ok as := by
  have hitems : (as.map write).mapM d = .ok as := by
    induction as with
    | nil => rfl
    | cons a as ih =>
      obtain ⟨ha, has⟩ := List.forall_mem_cons.1 h
      rw [List.map_cons, List.mapM_cons, ha, ih has]
      rfl
  rw [Json.list, list, hitems]
  rfl

/-- One of some things is read from its name. -/
theorem oneOf_string {α : Type} {all : List α} {nameOf : α → String}
    (h : (all.map nameOf).Nodup) {a : α} (ha : a ∈ all) :
    oneOf all nameOf (.string (nameOf a)) = .ok a := by
  rw [oneOf, named, find?_name h ha]

end Decoder

namespace Shape

/-- Members of a record, each with its key. -/
def keyed (members : List (String × Json)) : List (Key × Json) :=
  members.map fun (key, value) => (.name key, value)

/-- The members are all fields of a record. -/
def Reads {α : Type} (a : Shape α) (members : List (String × Json)) (x : α) : Prop :=
  ∃ st, a.addAll a.start (keyed members) = .ok st ∧ a.finish st = .ok x

theorem reads_field {α : Type} {absent : Option α} {name : String} {d : Decoder α} {j : Json}
    {x : α} (h : d j = .ok x) : (fieldWith absent name d).Reads [(name, j)] x := by
  refine ⟨some x, ?_, rfl⟩
  show (fieldWith absent name d).addAll none [(.name name, j)] = _
  simp only [addAll, fieldWith, if_true, h]
  rfl

/-- Members go to another shape where each of them does. -/
theorem addAll_keyed {α β : Type} {a : Shape α} {b : Shape β} {g : b.State → a.State}
    {members : List (String × Json)}
    (h : ∀ m ∈ members, ∀ st, a.add (g st) m.1 m.2
      = (b.add st m.1 m.2).map fun result => result.map g) (st : b.State) :
    a.addAll (g st) (keyed members) = (b.addAll st (keyed members)).map g := by
  induction members generalizing st with
  | nil => rfl
  | cons m members ih =>
    obtain ⟨hm, hmembers⟩ := List.forall_mem_cons.1 h
    show a.addAll (g st) ((.name m.1, m.2) :: keyed members)
      = (b.addAll st ((.name m.1, m.2) :: keyed members)).map g
    rw [addAll, addAll, hm st]
    cases b.add st m.1 m.2 with
    | none =>
      simp only [Option.map_none]
      cases Decoder.firstFault? m.2 with
      | none => exact ih hmembers st
      | some f => rfl
    | some result =>
      cases result with
      | error e => rfl
      | ok st' => exact ih hmembers st'

theorem addAll_cons {α : Type} {a : Shape α} {st st' : a.State} {name : String} {j : Json}
    (h : a.add st name j = some (.ok st')) (members : List (Key × Json)) :
    a.addAll st ((.name name, j) :: members) = a.addAll st' members := by
  rw [addAll, h]

/-- **A first field**, and then the others. -/
theorem Reads.cons {α β : Type} {absent : Option α} {name : String} {d : Decoder α} {b : Shape β}
    {members : List (String × Json)} {j : Json} {x : α} {y : β} (hj : d j = .ok x)
    (h : b.Reads members y) (hname : name ∉ members.map Prod.fst) :
    (both (fieldWith absent name d) b).Reads ((name, j) :: members) (x, y) := by
  obtain ⟨st, hst, hfinish⟩ := h
  refine ⟨(some x, st), ?_, ?_⟩
  · have hfirst : (both (fieldWith absent name d) b).add (none, b.start) name j
        = some (.ok (some x, b.start)) := by
      simp only [both, fieldWith, if_true, hj]
      rfl
    -- the first field takes none of the other members
    have hothers : ∀ m ∈ members, ∀ st : b.State,
        (both (fieldWith absent name d) b).add (some x, st) m.1 m.2
          = (b.add st m.1 m.2).map fun result => result.map fun st => (some x, st) := by
      intro m hm st
      have hne : m.1 ≠ name := fun heq => hname (heq ▸ List.mem_map_of_mem hm)
      simp only [both, fieldWith, if_neg hne]
    refine (addAll_cons hfirst (keyed members)).trans ?_
    refine (addAll_keyed (a := both (fieldWith absent name d) b) (g := fun st => (some x, st))
      hothers b.start).trans ?_
    rw [hst]
    rfl
  · show (do return (← Except.ok x, ← b.finish st) : Except Refusal (α × β)) = _
    rw [hfinish]
    rfl

theorem Reads.map {α β : Type} {a : Shape α} {members : List (String × Json)} {x : α}
    (h : a.Reads members x) (f : α → β) : (a.map f).Reads members (f x) := by
  obtain ⟨st, hst, hfinish⟩ := h
  refine ⟨st, ?_, ?_⟩
  · have hsame : ∀ m ∈ members, ∀ st : a.State, (a.map f).add st m.1 m.2
        = (a.add st m.1 m.2).map fun result => result.map id := by
      intro m _ st
      show a.add st m.1 m.2 = _
      simp only [Except.map_id, id_eq, Option.map_id_fun']
    refine (addAll_keyed (a := a.map f) (b := a) (g := id) hsame a.start).trans ?_
    rw [hst]
    rfl
  · show (a.finish st).map f = _
    rw [hfinish]
    rfl

/-- **A record of a shape.** -/
theorem Reads.decode {α : Type} {a : Shape α} {members : List (String × Json)} {x : α}
    (h : a.Reads members x) (name : String) : a.decode name (.record members) = .ok x := by
  obtain ⟨st, hst, hfinish⟩ := h
  rw [Json.record, Shape.decode]
  show (do let st ← Decoder.checkEnding (← a.addAll a.start (keyed members)) none; a.finish st) = _
  rw [hst]
  exact hfinish

end Shape

end SchemaAudit
