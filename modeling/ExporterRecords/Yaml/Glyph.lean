/-!
# Placed characters

A text is read as characters that know their line and their place in it. All ways to write a line break but
the two Unicode separators are one. Control characters other than tab and line breaks are not text.
-/
namespace ExporterRecords.Yaml

structure Glyph where
  char : Char
  line : Nat
  column : Nat
  /-- The octets before it in its line. -/
  offset : Nat
  deriving DecidableEq, Repr

def byteOrderMark : Char := '\ufeff'

def isBlank (c : Char) : Bool := c = ' ' || c = '\t'

/-- Line breaks, in texts whose breaks are made uniform. -/
def isBreak (c : Char) : Bool := c = '\n' || c = '\u2028' || c = '\u2029'

/-- Whether a word ends here: at a blank, a break or the end of the text. -/
def endsWord : Option Char → Bool
  | none => true
  | some c => isBlank c || isBreak c

/-- The characters of names and tag handles. -/
def isWordChar (c : Char) : Bool := c.isAlphanum || c = '_' || c = '-'

def isText (c : Char) : Bool :=
  c = '\t' || c = '\n' || c = '\r' || c = '\u0085' ||
    ('\u0020' ≤ c && c ≤ '\u007e') || ('\u00a0' ≤ c && c ≤ '\ufffd') || 0x10000 ≤ c.toNat

/-- Makes the line breaks uniform. -/
def uniformBreaks : List Char → List Char
  | '\r' :: '\n' :: cs => '\n' :: uniformBreaks cs
  | '\r' :: cs => '\n' :: uniformBreaks cs
  | '\u0085' :: cs => '\n' :: uniformBreaks cs
  | c :: cs => c :: uniformBreaks cs
  | [] => []

namespace Glyph

/-- Places characters from a position on. -/
def place (line column offset : Nat) : List Char → List Glyph
  | [] => []
  | c :: cs =>
    ⟨c, line, column, offset⟩ ::
      if isBreak c then place (line + 1) 0 0 cs
      else place line (column + 1) (offset + c.utf8Size) cs

/-- The glyphs of a text, if it is one. -/
def ofText? (text : String) : Option (List Glyph) :=
  let cs := text.toList
  if cs.all isText then some (place 0 0 0 (uniformBreaks cs)) else none

end Glyph

/-- The character some way ahead. -/
def charAt (glyphs : List Glyph) (i : Nat) : Option Char := glyphs[i]?.map (·.char)

/-- Three of a character alone at the start of a line: the edge of a document. -/
def isEdge (c : Char) : List Glyph → Bool
  | a :: b :: d :: rest =>
    a.column = 0 && a.char = c && b.char = c && d.char = c && endsWord (charAt rest 0)
  | _ => false

def isAnyEdge (glyphs : List Glyph) : Bool := isEdge '-' glyphs || isEdge '.' glyphs

/-- What stands before the first glyph that fails a test, as text, and the rest. -/
def spanChars (p : Char → Bool) (glyphs : List Glyph) : List Char × List Glyph :=
  ((glyphs.takeWhile (p ·.char)).map (·.char), glyphs.dropWhile (p ·.char))

theorem length_spanChars (p : Char → Bool) (glyphs : List Glyph) :
    (spanChars p glyphs).2.length ≤ glyphs.length :=
  (List.dropWhile_sublist _).length_le

/-- Skips blanks and a comment, up to the end of the line; nothing else may stand there. -/
def finishLine? (glyphs : List Glyph) : Option (List Glyph) :=
  let glyphs := glyphs.dropWhile (isBlank ·.char)
  let glyphs := if charAt glyphs 0 = some '#' then glyphs.dropWhile (!isBreak ·.char) else glyphs
  match glyphs with
  | [] => some []
  | g :: rest => if isBreak g.char then some rest else none

end ExporterRecords.Yaml
