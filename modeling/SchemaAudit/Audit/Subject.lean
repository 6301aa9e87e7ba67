import SchemaAudit.Graph.Inference
import SchemaAudit.Text.Search

/-!
# What names and types suggest

The audit guesses at the meaning of tables and fields from their names, and at the size of values
from their types.
-/

namespace SchemaAudit

/-! ## Names -/

/-- The parts of a name between underscores, in lower case. -/
def nameTokens (name : String) : List (List Char) :=
  ((Text.toLower name.toList).splitOn '_').filter fun token => !token.isEmpty

/-- Whether a name has one of the words in it, in any letter case. -/
def mentions (name : String) (words : List String) : Bool :=
  let lowered := Text.toLower name.toList
  words.any fun word => Text.contains word.toList lowered

/-- Whether one of the words is a token of the name. -/
def hasToken (name : String) (words : List String) : Bool :=
  (nameTokens name).any fun token => words.contains (String.ofList token)

/-! ## Types -/

/-- A type in lower case without arguments and brackets. -/
def baseType (type : String) : String :=
  String.ofList
    (Text.trim ((Text.toLower type.toList).takeWhile fun c => c != '(' && c != '['))

/-- The part of a text before the first occurrence of a character, or all of it. -/
def before (mark : Char) (s : List Char) : List Char := s.takeWhile (· != mark)

/-- The declared length of a text of variable length. A length of `max` has no bound. -/
def varcharLength? (type : String) : Option Nat := do
  if !(["varchar", "nvarchar", "character varying"].contains (baseType type)) then none
  else
    let (_, behind) ← Text.cutAt? '(' (Text.toLower type.toList)
    let (inner, _) ← Text.cutAt? ')' behind
    let arguments := Text.trim inner
    if arguments = "max".toList then some Text.maxCount
    else Text.countOfText? (Text.trim (before ',' arguments))

def isTextType (type : String) : Bool := "text".toList.isSuffixOf (baseType type).toList

def isStringType (type : String) : Bool :=
  isTextType type || ["varchar", "nvarchar", "char", "nchar", "string"].contains (baseType type)

def isFloatType (type : String) : Bool :=
  ["float", "real", "double", "double precision", "float4", "float8"].contains (baseType type)

def isExactNumeric (type : String) : Bool :=
  ["decimal", "numeric", "money"].contains (baseType type)

/-! ## Fields -/

namespace Field

def isPassword (f : Field) : Bool := mentions f.name ["password", "passwd", "pwd"]

def looksHashed (f : Field) : Bool := mentions f.name ["hash", "encrypted"]

def isSensitive (f : Field) : Bool :=
  mentions f.name
    ["ssn", "social_security", "credit_card", "card_number", "cvv", "cvc", "bank_account",
     "account_number", "routing_number", "iban", "tax_id", "passport", "driver_license",
     "drivers_license", "national_id"]
  && !f.looksHashed

def isCurrency (f : Field) : Bool :=
  hasToken f.name
    ["price", "amount", "cost", "total", "balance", "salary", "fee", "payment", "revenue"]
  && !namedLikeReference f.name

/-- Whether the name asks a question that is answered by yes or no. -/
def isFlag (f : Field) : Bool :=
  let lowered := Text.toLower f.name.toList
  ["active", "enabled", "status"].contains (String.ofList lowered)
  || "is_".toList.isPrefixOf lowered || "has_".toList.isPrefixOf lowered

def isTimestampLike (f : Field) : Bool :=
  "_at".toList.isSuffixOf (Text.toLower f.name.toList) || mentions f.name ["date", "time"]

/-- A field that is named like a reference and does not belong to the key. -/
def isReference (f : Field) : Bool := namedLikeReference f.name && !f.isKey

def isUnindexedReference (f : Field) : Bool := f.isReference && !f.has .unique

end Field

/-! ## Tables -/

namespace Table

/-- Small tables that join others or hold their values. -/
def isSystem (t : Table) : Bool := t.name.toList.contains '_' && t.fields.length ≤ 3

def hasFieldNamed (t : Table) (names : List String) : Bool :=
  t.fields.any fun f => names.any fun name => Text.sameIgnoringAsciiCase f.name.toList name.toList

def hasFieldMentioning (t : Table) (words : List String) : Bool :=
  t.fields.any fun f => mentions f.name words

def hasCreatedAt (t : Table) : Bool := t.hasFieldNamed ["created_at", "created_on"]

def hasUpdatedAt (t : Table) : Bool :=
  t.hasFieldNamed ["updated_at", "updated_on", "modified_at"]

def hasDeletedAt (t : Table) : Bool := t.hasFieldNamed ["deleted_at"]

def isImportant (t : Table) : Bool :=
  t.hasKey || mentions t.name ["user", "customer"] || t.hasFieldMentioning ["user", "customer"]

end Table

end SchemaAudit
