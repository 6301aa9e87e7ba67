import SchemaAudit.Text.Glyph

/-!
# Display width

The number of columns that a text takes on a screen with fixed columns. A character takes the
columns of its class unless what follows it changes them: a line break of two characters, pictures
with a selector, a skin tone or a joiner, flags, and letters that join to one sign. So a text is
measured from its end, and `Head` says what the measured part begins with.

Reports may be set with any measure of width. This is the one that the program sets them with.
-/

namespace SchemaAudit.Text

/-- Letters and vowels that may join with the letters before them. -/
inductive Joining where
  | lamed
  | ya
  /-- The vowel i before a ya that it joins. -/
  | yaVowel
  | tifinagh
  /-- The joiner of consonants before a consonant. -/
  | tifinaghJoiner
  | lisuTone
  | orkhonI
  | khmer
  deriving DecidableEq, Repr

/-- What the measured part of a text begins with, as far as it matters to the character before. -/
inductive Head where
  | plain
  | lineFeed
  /-- An alef, with marks before it. -/
  | alef
  /-- A letter that joins. The flag says whether a joiner stands before it. -/
  | letter (kind : Joining) (tied : Bool)
  | vowelE
  | vowelAi
  | picture
  | skinTone
  /-- One half of a flag. -/
  | flag
  /-- Several halves of flags. -/
  | flags
  /-- A joiner before a picture. -/
  | joined
  /-- The frame of a key before a joiner and a picture. -/
  | joinedKey
  /-- Halves of flags before a joiner and a picture: one, an even number, or an odd one above. -/
  | joinedFlag
  | joinedPair
  | joinedOdd
  /-- Letters of a tag, with its end behind them, before a joiner and a picture. -/
  | tagLetters (count : Nat)
  /-- Digits of a tag before its letters. -/
  | tagDigits (count : Nat)
  deriving DecidableEq, Repr

/-- Selectors that the measured part of a text begins with. -/
structure Selectors where
  /-- Asks for the picture of the character before. -/
  picture : Bool
  /-- Asks for the character before as plain text. -/
  text : Bool
  /-- Asks for a wide quotation mark. -/
  wideQuote : Bool
  deriving DecidableEq, Repr

def Selectors.none : Selectors := ⟨false, false, false⟩

def pictureSelector : Char := '\ufe0f'

def textSelector : Char := '\ufe0e'

def wideSelector : Char := '\ufe01'

/-- Joins pictures or letters to one. -/
def joiner : Char := '\u200d'

/-- Variation selectors and other characters that no joining letter takes note of. -/
def unnoticed : CodeTable :=
  [(0x34f, 0x34f), (0x17b4, 0x17b5), (0x180b, 0x180d), (0x180f, 0x180f), (0xfe00, 0xfe0f),
   (0xe0100, 0xe01ef)]

def curlyQuotes : CodeTable := [(0x2018, 0x2019), (0x201c, 0x201d)]

/-- Letters of the group of lam. -/
def lams : CodeTable :=
  [(0x644, 0x644), (0x6b5, 0x6b8), (0x76a, 0x76a), (0x8a6, 0x8a6), (0x8c7, 0x8c7)]

/-- Letters of the group of alef. -/
def alefs : CodeTable :=
  [(0x622, 0x623), (0x625, 0x625), (0x627, 0x627), (0x671, 0x673), (0x675, 0x675),
   (0x773, 0x774), (0x870, 0x882)]

def tifinaghLetters : CodeTable := [(0x2d31, 0x2d65), (0x2d6f, 0x2d6f)]

/-- Tones of Lisu that join with a tone behind them. -/
def lisuTones : CodeTable := [(0xa4f8, 0xa4fb)]

/-- Tones of Lisu that join with a tone before them. -/
def lisuEnds : CodeTable := [(0xa4fc, 0xa4fd)]

/-- Letters of Khmer that may be written below the one before. -/
def khmerLetters : CodeTable :=
  [(0x1780, 0x1782), (0x1784, 0x1787), (0x1789, 0x178c), (0x178e, 0x1793), (0x1795, 0x1798),
   (0x179b, 0x179d), (0x17a0, 0x17a0), (0x17a2, 0x17a2), (0x17a7, 0x17a7), (0x17ab, 0x17ac),
   (0x17af, 0x17af)]

def skinTones : CodeTable := [(0x1f3fb, 0x1f3ff)]

/-- Halves of flags: two of them make one. -/
def flagHalves : CodeTable := [(0x1f1e6, 0x1f1ff)]

def tagLetterCodes : CodeTable := [(0xe0061, 0xe007a)]

def tagDigitCodes : CodeTable := [(0xe0030, 0xe0039)]

namespace Head

/-- What a character is to the one before it, whatever follows it. -/
def ofChar (c : Char) : Head :=
  if c.toNat ≤ 160 then (if c = '\n' then lineFeed else plain)
  else if alefs.covers c.toNat then alef
  else if c.toNat = 0x5dc then letter .lamed false
  else if c.toNat = 0x1a10 then letter .ya false
  else if khmerLetters.covers c.toNat then letter .khmer true
  else if tifinaghLetters.covers c.toNat then letter .tifinagh false
  else if lisuEnds.covers c.toNat then letter .lisuTone true
  else if c.toNat = 0x10c03 then letter .orkhonI false
  else if c.toNat = 0x16d67 then vowelE
  else if c.toNat = 0x16d68 then vowelAi
  else if skinTones.covers c.toNat then skinTone
  else if flagHalves.covers c.toNat then flag
  else if isPicture c then picture
  else plain

/-- Whether the head is a letter, which selectors before it leave as it is. -/
def isLetter : Head → Bool
  | alef => true
  | letter _ _ => true
  | _ => false

/-- Whether the head joins a picture that a selector asks for to the picture behind it. -/
def isJoined : Head → Bool
  | joined => true
  | joinedKey => true
  | _ => false

end Head

/-- What a character does where it meets a head that matters to it. -/
inductive Meeting where
  /-- It takes columns, and the text now begins with another head. -/
  | put (columns : Nat) (head : Head)
  /-- It takes one column back from what follows. -/
  | fuse (head : Head)
  deriving DecidableEq, Repr

/-- Where a joining letter and the character before it make one sign. -/
def Joining.meet (kind : Joining) (tied : Bool) (code : Nat) : Option Meeting :=
  match kind with
  | .lamed => if tied && code = 0x5d0 then some (.put 0 .plain) else none
  | .ya => if tied && code = 0x1a17 then some (.put 0 (.letter .yaVowel true)) else none
  | .yaVowel => if code = 0x1a15 then some (.put 0 .plain) else none
  | .tifinagh =>
    if code = 0x2d7f then some (.put 1 (.letter .tifinaghJoiner true))
    else if tied && tifinaghLetters.covers code then some (.put 0 .plain)
    else none
  | .tifinaghJoiner => if tifinaghLetters.covers code then some (.fuse .plain) else none
  | .lisuTone => if lisuTones.covers code then some (.put 0 .plain) else none
  | .orkhonI => if tied && code = 0x10c32 then some (.put 0 .plain) else none
  | .khmer => if code = 0x17d2 then some (.fuse .plain) else none

/-- Where a picture, or what is joined to one, and the character before it make one sign. -/
def Head.meetJoined (c : Char) : Option Meeting :=
  if c.toNat = 0x20e3 then some (.put 0 .joinedKey)
  else if flagHalves.covers c.toNat then some (.put 1 .joinedFlag)
  else if skinTones.covers c.toNat then some (.put 0 .skinTone)
  else if c.toNat = 0xe007f then some (.put 0 (.tagLetters 0))
  else if isPicture c then some (.put 0 .picture)
  else none

/-- Where a tag goes on, or the flag stands that it belongs to. -/
def Head.meetTag (letters digits : Nat) (code : Nat) : Option Meeting :=
  if tagLetterCodes.covers code && digits = 0 && letters < 6 then
    some (.put 0 (.tagLetters (letters + 1)))
  else if tagDigitCodes.covers code && (if digits = 0 then letters ≤ 4 else digits < 3) then
    some (.put 0 (.tagDigits (digits + 1)))
  else if code = 0x1f3f4 && (if digits = 0 then 3 ≤ letters else digits = 3) then
    some (.put 0 .picture)
  else none

/-- What the character before a head does, where it is not what it does by itself. -/
def Head.meet (head : Head) (c : Char) : Option Meeting :=
  match head with
  | .plain | .lineFeed | .joinedKey => none
  | .alef =>
    if lams.covers c.toNat then some (.put 0 .plain)
    else if isTransparent c then some (.put 0 .alef)
    else none
  | .letter kind tied => kind.meet tied c.toNat
  | .vowelE =>
    if c.toNat = 0x16d63 then some (.put 0 .plain)
    else if c.toNat = 0x16d67 then some (.put 0 .vowelAi)
    else if c.toNat = 0x16d68 then some (.put 1 .vowelE)
    else if c.toNat = 0x16d69 then some (.put 0 .plain)
    else none
  | .vowelAi => if c.toNat = 0x16d63 then some (.put 0 .plain) else none
  | .picture => if c = joiner then some (.put 0 .joined) else none
  | .skinTone =>
    if takesSkinTone c then some (.put 0 .picture)
    else if c = joiner then some (.put 0 .joined)
    else none
  | .flag => if flagHalves.covers c.toNat then some (.put 1 .flags) else none
  | .flags =>
    if flagHalves.covers c.toNat then some (.put 1 .flags)
    else if c = joiner then some (.put 0 .joined)
    else none
  | .joined => Head.meetJoined c
  | .joinedFlag => if flagHalves.covers c.toNat then some (.fuse .joinedPair) else none
  | .joinedPair =>
    if flagHalves.covers c.toNat then some (.put 3 .joinedOdd)
    else if c = joiner then some (.put 0 .joined)
    else none
  | .joinedOdd =>
    if flagHalves.covers c.toNat then some (.fuse .joinedPair)
    else if c = joiner then some (.put 0 .joined)
    else none
  | .tagLetters count => Head.meetTag count 0 c.toNat
  | .tagDigits count => Head.meetTag 0 count c.toNat

/-- The measured part of a text. The columns of the last sign stand apart from the settled ones,
since a character before it may take one of them back. -/
structure Measure where
  settled : Nat
  pending : Nat
  head : Head
  selectors : Selectors
  deriving DecidableEq, Repr

namespace Measure

def start : Measure := ⟨0, 0, .plain, .none⟩

def columns (m : Measure) : Nat := m.settled + m.pending

/-- The measure with a sign of its own before it. -/
def put (m : Measure) (columns : Nat) (head : Head) : Measure :=
  ⟨m.settled + m.pending, columns, head, .none⟩

def meet (m : Measure) : Meeting → Measure
  | .put columns head => m.put columns head
  | .fuse head => ⟨m.settled, m.pending - 1, head, .none⟩

/-- The measure behind a selector. A head that is no letter matters no more, but for the joiners
before a picture that the selector asks for. -/
def select (m : Measure) (c : Char) : Measure :=
  let kept := if m.head.isLetter then m.selectors else .none
  let head := if m.head.isLetter then m.head else .plain
  if c = pictureSelector then
    ⟨m.settled, m.pending, if m.head.isJoined then m.head else head, { kept with picture := true }⟩
  else if c = textSelector then ⟨m.settled, m.pending, head, { kept with text := true }⟩
  else ⟨m.settled, m.pending, head, { kept with wideQuote := true }⟩

/-- The measure after a selector for pictures that no picture stands before. -/
def dropPicture (m : Measure) : Measure :=
  ⟨m.settled, m.pending, if m.head.isLetter then m.head else .plain,
    if m.head.isLetter then { m.selectors with picture := false } else .none⟩

def isSelector (c : Char) : Bool := c = pictureSelector || c = textSelector || c = wideSelector

/-- The measure with a character before it that nothing behind it changes. -/
def putChar (m : Measure) (c : Char) : Measure :=
  if isSelector c then (m.put 0 .plain).select c else m.put (charWidth c) (.ofChar c)

/-- The measure with a character before it, where no selector is left. -/
def meetChar (m : Measure) (c : Char) : Measure :=
  match m.head with
  | .letter kind tied =>
    if c = joiner then ⟨m.settled, m.pending, .letter kind true, .none⟩
    else if unnoticed.covers c.toNat then ⟨m.settled, m.pending, .letter kind tied, .none⟩
    else match kind.meet tied c.toNat with
      | some meeting => m.meet meeting
      | none => m.putChar c
  | head =>
    match head.meet c with
    | some meeting => m.meet meeting
    | none => m.putChar c

/-- The measure with a character before it, where no selector asks for a picture. -/
def addUnselected (m : Measure) (c : Char) : Measure :=
  if c.toNat ≤ 160 then
    if c = '\r' && m.head = .lineFeed then m.put 0 .plain else m.put 1 (.ofChar c)
  else if isSelector c then
    if m.head = .plain && m.selectors = .none then m.putChar c else m.select c
  else if m.selectors.text && hasTextForm c then m.put 1 .plain
  else if m.selectors.wideQuote && curlyQuotes.covers c.toNat then m.put 2 .plain
  else { m with selectors := .none }.meetChar c

/-- The measure with one more character before it. -/
def add (c : Char) (m : Measure) : Measure :=
  if m.selectors.picture then
    if hasPictureForm c then m.put (if m.head.isJoined then 0 else 2) .picture
    else m.dropPicture.addUnselected c
  else m.addUnselected c

end Measure

/-- The number of columns that a text takes. -/
def width (s : List Char) : Nat := (s.foldr Measure.add Measure.start).columns

end SchemaAudit.Text
