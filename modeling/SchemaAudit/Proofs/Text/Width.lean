import SchemaAudit.Text.Width

/-!
# Widths of texts with spaces behind them

A text is measured from its end, and what is settled there matters no more to the characters before
it. Spaces at the end are settled at once: nothing joins to them, so that they add their number to
the width of any text.

* `add_ahead`: columns that are settled stay out of what a character does.
* `width_append_spaces`: spaces behind a text add as many columns.
-/

namespace SchemaAudit.Text

namespace Measure

variable (n : Nat) (m : Measure)

/-- The measure with more columns settled behind it. -/
def ahead : Measure := { m with settled := n + m.settled }

@[simp] theorem head_ahead : (m.ahead n).head = m.head := rfl
@[simp] theorem pending_ahead : (m.ahead n).pending = m.pending := rfl
@[simp] theorem selectors_ahead : (m.ahead n).selectors = m.selectors := rfl

theorem columns_ahead : (m.ahead n).columns = n + m.columns := Nat.add_assoc n _ _

/-! ### One character -/

theorem put_ahead (columns : Nat) (head : Head) :
    (m.ahead n).put columns head = (m.put columns head).ahead n := by
  simp only [put, ahead, Nat.add_assoc]

theorem meet_ahead (meeting : Meeting) : (m.ahead n).meet meeting = (m.meet meeting).ahead n := by
  cases meeting with
  | put columns head => exact put_ahead n m columns head
  | fuse head => rfl

theorem select_ahead (c : Char) : (m.ahead n).select c = (m.select c).ahead n := by
  simp only [select, head_ahead]
  split
  · rfl
  · split <;> rfl

theorem dropPicture_ahead : (m.ahead n).dropPicture = m.dropPicture.ahead n := rfl

theorem putChar_ahead (c : Char) : (m.ahead n).putChar c = (m.putChar c).ahead n := by
  rw [putChar, putChar]
  split
  · rw [put_ahead, select_ahead]
  · rw [put_ahead]

theorem meetChar_ahead (c : Char) : (m.ahead n).meetChar c = (m.meetChar c).ahead n := by
  rw [meetChar, meetChar, head_ahead]
  generalize m.head = head
  split
  · split
    · rfl
    · split
      · rfl
      · split
        · exact meet_ahead n m _
        · exact putChar_ahead n m c
  · split
    · exact meet_ahead n m _
    · exact putChar_ahead n m c

theorem addUnselected_ahead (c : Char) :
    (m.ahead n).addUnselected c = (m.addUnselected c).ahead n := by
  have hlast := meetChar_ahead n { m with selectors := .none } c
  simp only [addUnselected, apply_ite (ahead n), ← put_ahead, ← putChar_ahead, ← select_ahead,
    ← hlast]
  rfl

/-- **A character does the same whatever is settled.** -/
theorem add_ahead (c : Char) : add c (m.ahead n) = (add c m).ahead n := by
  simp only [add, apply_ite (ahead n), ← put_ahead, ← addUnselected_ahead, ← dropPicture_ahead]
  rfl

theorem foldr_add_ahead (s : List Char) :
    s.foldr add (m.ahead n) = (s.foldr add m).ahead n := by
  induction s with
  | nil => rfl
  | cons c s ih => rw [List.foldr_cons, List.foldr_cons, ih, add_ahead]

/-! ### Spaces at the end -/

/-- A measure of columns behind which nothing matters. -/
def plain (settled pending : Nat) : Measure := ⟨settled, pending, .plain, .none⟩

theorem put_plain (settled pending columns : Nat) (head : Head) :
    (plain settled pending).put columns head = (start.put columns head).ahead (settled + pending) :=
  rfl

theorem add_plain_eq_ite (settled pending : Nat) (c : Char) :
    add c (plain settled pending) = if c.toNat ≤ 160 then (plain settled pending).put 1 (.ofChar c)
      else (plain settled pending).putChar c := by
  show addUnselected (plain settled pending) c = _
  rw [addUnselected]
  split
  · exact if_neg (by simp [plain])
  · split
    · rfl
    · rfl

/-- In front of a character to which nothing joins, all columns are settled. -/
theorem add_plain (settled pending : Nat) (c : Char) :
    add c (plain settled pending) = (add c start).ahead (settled + pending) := by
  have hchar : (plain settled pending).putChar c = (start.putChar c).ahead (settled + pending) := by
    simp only [putChar, put_plain, select_ahead, apply_ite (ahead (settled + pending))]
  have hstart := add_plain_eq_ite 0 0 c
  rw [add_plain_eq_ite, show add c start = _ from hstart, hchar, put_plain, apply_ite (ahead _)]
  rfl

theorem foldr_add_spaces (n : Nat) :
    ∃ settled pending, (List.replicate n ' ').foldr add start = plain settled pending
      ∧ settled + pending = n := by
  induction n with
  | zero => exact ⟨0, 0, rfl, rfl⟩
  | succ n ih =>
    obtain ⟨settled, pending, hspaces, hn⟩ := ih
    refine ⟨settled + pending, 1, ?_, by omega⟩
    rw [List.replicate_succ, List.foldr_cons, hspaces]
    rfl

end Measure

/-- **Spaces behind a text add their number to its width.** -/
theorem width_append_spaces (s : List Char) (n : Nat) :
    width (s ++ List.replicate n ' ') = width s + n := by
  obtain ⟨settled, pending, hspaces, hn⟩ := Measure.foldr_add_spaces n
  rw [width, width, List.foldr_append, hspaces]
  rcases List.eq_nil_or_concat s with rfl | ⟨front, last, rfl⟩
  · show settled + pending = 0 + n
    omega
  · rw [List.concat_eq_append, List.foldr_append, List.foldr_append]
    show (front.foldr Measure.add (Measure.add last (.plain settled pending))).columns
      = (front.foldr Measure.add (Measure.add last .start)).columns + n
    rw [Measure.add_plain, Measure.foldr_add_ahead, Measure.columns_ahead, hn, Nat.add_comm]

end SchemaAudit.Text
