import SchemaAudit.Exchange
import SchemaAudit.Proofs.Text.Classes
import SchemaAudit.Proofs.Text.LetterCase
import SchemaAudit.Proofs.Text.Lines
import SchemaAudit.Settings

/-!
# The dialect that is asked for

A dialect is asked for by its name in two places: in the settings of a run and in an exchange of
texts. Both know the same names and aliases, and in both `auto` asks for the dialect that the text
shows. The settings know it in any letter case, an exchange in lower case only.

* `ofName?_of_isAuto`: no spelling of `auto` is the name of a dialect.
* `dialectFor_of_isAuto`, `requestedDialect_of_isAuto`: what the two places answer to such a spelling.
* `requestedDialect_eq_dialectFor_iff`: for which names they agree.
-/

namespace SchemaAudit

/-- The word `auto` in any letter case, with nothing around it. -/
def IsAuto (name : String) : Prop :=
  Text.sameIgnoringAsciiCase "auto".toList name.toList = true

instance (name : String) : Decidable (IsAuto name) :=
  inferInstanceAs (Decidable (_ = true))

/-! ### Letters of one word -/

/-- A character is an ASCII letter if its lower case is one. -/
theorem covers_asciiLetters_of_asciiLower {c : Char}
    (h : Text.asciiLetters.covers (Text.asciiLower c).toNat = true) :
    Text.asciiLetters.covers c.toNat = true := by
  rw [Text.covers_asciiLetters_iff, Text.toNat_asciiLower] at h
  rw [Text.covers_asciiLetters_iff]
  split at h
  · omega
  · exact h

theorem IsAuto.map_asciiLower {name : String} (h : IsAuto name) :
    name.toList.map Text.asciiLower = "auto".toList := by
  have hsame := beq_iff_eq.1 h
  exact hsame.symm

theorem IsAuto.covers {name : String} (h : IsAuto name) :
    ∀ c ∈ name.toList, Text.asciiLetters.covers c.toNat = true := by
  intro c hc
  have hmem : Text.asciiLower c ∈ "auto".toList := by
    rw [← h.map_asciiLower]
    exact List.mem_map_of_mem hc
  have hall : "auto".toList.all (fun d => Text.asciiLetters.covers d.toNat) = true := by decide
  exact covers_asciiLetters_of_asciiLower (List.all_eq_true.1 hall _ hmem)

/-- Nothing is trimmed, and the lower case is the word itself. -/
theorem IsAuto.key {name : String} (h : IsAuto name) :
    String.ofList (Text.toLower (Text.trim name.toList)) = "auto" := by
  have hblank : ∀ c ∈ name.toList, Text.isBlank c = false := fun c hc =>
    Text.isBlank_of_asciiLetters (h.covers c hc)
  have hascii : ∀ c ∈ name.toList, c.toNat < 128 := fun c hc =>
    Text.lt_of_asciiWord (Text.covers_asciiWord_of_asciiLetters (h.covers c hc))
  rw [Text.trim_of_forall hblank, Text.toLower_of_ascii hascii, h.map_asciiLower]
  rfl

/-! ### What is answered to a spelling of the word -/

/-- **No dialect is called `auto`.** -/
theorem ofName?_of_isAuto {name : String} (h : IsAuto name) : Dialect.ofName? name = none := by
  rw [Dialect.ofName?, h.key]
  decide

theorem dialectFor_of_isAuto {s : Settings} (h : IsAuto s.dialect) (sql : String) :
    s.dialectFor sql = .ok (Dialect.detect sql) := if_pos h

/-- An exchange takes any other spelling for the name of a dialect, which it is not. -/
theorem requestedDialect_of_isAuto {name : String} (h : IsAuto name) (hne : name ≠ "auto")
    (sql : String) :
    Exchange.requestedDialect sql (some name) = .error (.unknownDialect name) := by
  show (if name = "auto" then _ else _) = _
  rw [if_neg hne, ofName?_of_isAuto h]

/-! ### Agreement -/

/-- Names that are no spelling of the word are looked up in one and the same way. -/
theorem requestedDialect_of_not_isAuto {s : Settings} (h : ¬IsAuto s.dialect) (sql : String) :
    Exchange.requestedDialect sql (some s.dialect) = s.dialectFor sql := by
  have hne : s.dialect ≠ "auto" := by
    intro heq
    apply h
    rw [heq]
    decide
  show (if s.dialect = "auto" then _ else _) = if IsAuto s.dialect then _ else _
  refine (if_neg hne).trans (Eq.trans ?_ (if_neg h).symm)
  cases Dialect.ofName? s.dialect <;> rfl

/-- **Both places give the same dialect or the same error, for any text, exactly if the name is not
`auto` in another letter case.** -/
theorem requestedDialect_eq_dialectFor_iff (s : Settings) (sql : String) :
    Exchange.requestedDialect sql (some s.dialect) = s.dialectFor sql
      ↔ (IsAuto s.dialect → s.dialect = "auto") := by
  by_cases hauto : IsAuto s.dialect
  · rw [dialectFor_of_isAuto hauto]
    constructor
    · intro hagree _
      by_contra hne
      rw [requestedDialect_of_isAuto hauto hne] at hagree
      cases hagree
    · intro hword
      show (if s.dialect = "auto" then _ else _) = _
      rw [if_pos (hword hauto)]
  · exact iff_of_true (requestedDialect_of_not_isAuto hauto sql) fun h => absurd h hauto

/-- In capitals the word is known to the settings and refused in an exchange. -/
theorem requestedDialect_capitals_ne :
    let s : Settings := { Settings.default with dialect := "AUTO" }
    let sql := "CREATE TABLE t (a int);"
    s.dialectFor sql = .ok .postgres ∧
      (Exchange.requestedDialect sql (some s.dialect)).mapError DumpError.message
        = .error "unsupported dialect: AUTO" := by
  intro s sql
  have hauto : IsAuto s.dialect := by decide
  have hdetect : Dialect.detect sql = .postgres := by decide
  constructor
  · rw [dialectFor_of_isAuto hauto, hdetect]
  · rw [requestedDialect_of_isAuto hauto (by decide)]
    rfl

end SchemaAudit
