import ExporterRecords.Yaml.Scalar

/-!
# Tokens

The tokens of a text: its indicators, names and scalars, and the starts and ends of collections
that only the indentation shows. A key without an indicator is recognised when the colon behind it
is read, so its start is put in at the place that was kept for it.
-/
namespace ExporterRecords.Yaml

inductive Token where
  | version (major minor : Nat)
  | handle (name : List Char) (stem : List UInt8)
  | documentStart
  | documentEnd
  | streamEnd
  | blockSequenceStart
  | blockMappingStart
  | blockEnd
  | flowSequenceStart
  | flowSequenceEnd
  | flowMappingStart
  | flowMappingEnd
  | blockEntry
  | flowEntry
  | key
  | value
  | alias (name : List Char)
  | anchor (name : List Char)
  | tag (handle : List Char) (suffix : List UInt8)
  | scalar (text : List Char) (style : Style)
  deriving DecidableEq, Repr

/-! ## Names, tags and directives -/

/-- The name behind an anchor or alias indicator. -/
def anchorName? (glyphs : List Glyph) : Option (List Char × List Glyph) :=
  let (name, rest) := spanChars isWordChar glyphs
  let ends := endsWord (charAt rest 0) ||
    (charAt rest 0).any ['?', ':', ',', ']', '}', '%', '@', '\u0060'].contains
  if name = [] || !ends then none else some (name, rest)

/-- The octet that a percent sign and two digits stand for. -/
def escapedOctet? (glyphs : List Glyph) : Option UInt8 := do
  let high ← charAt glyphs 1 >>= Hex.digit?
  let low ← charAt glyphs 2 >>= Hex.digit?
  if charAt glyphs 0 = some '%' then some (UInt8.ofNat (16 * high + low)) else none

/-- The number of octets of the character that starts with this one. -/
def sequenceLength? (octet : UInt8) : Option Nat :=
  if octet &&& 0x80 = 0 then some 1
  else if octet &&& 0xe0 = 0xc0 then some 2
  else if octet &&& 0xf0 = 0xe0 then some 3
  else if octet &&& 0xf8 = 0xf0 then some 4
  else none

/-- The octets of one escaped character. -/
def escapedChar? (glyphs : List Glyph) : Option (List UInt8) := do
  let first ← escapedOctet? glyphs
  let length ← sequenceLength? first
  let later ← (List.range (length - 1)).mapM fun i => do
    let octet ← escapedOctet? (glyphs.drop (3 * (i + 1)))
    if octet &&& 0xc0 = 0x80 then some octet else none
  return first :: later

/-- The characters of a tag; in its long form brackets and commas too. -/
def isTagChar (long : Bool) (c : Char) : Bool :=
  isWordChar c ||
    [';', '/', '?', ':', '@', '&', '=', '+', '$', '.', '%', '!', '~', '*', '\x27', '(', ')'].contains c
    || (long && [',', '[', ']'].contains c)

/-- The octets of a tag or of a part of one, with its escapes undone. -/
def tagOctets? (long : Bool) (octets : List UInt8) (glyphs : List Glyph) :
    Option (List UInt8 × List Glyph) :=
  match glyphs with
  | [] => some (octets, [])
  | g :: rest =>
    if !isTagChar long g.char then some (octets, g :: rest)
    else if g.char = '%' then
      match escapedChar? (g :: rest) with
      | none => none
      | some escaped =>
        tagOctets? long (octets ++ escaped) (rest.drop (3 * escaped.length - 1))
    else tagOctets? long (octets ++ String.utf8EncodeChar g.char) rest
termination_by glyphs.length
decreasing_by all_goals simp only [List.length_drop, List.length_cons]; omega

/-- A zero octet ends a tag, or a part of one; what follows is read and dropped. -/
def untilZero (octets : List UInt8) : List UInt8 := octets.takeWhile (· ≠ 0)

/-- The handle of a tag, exclamation marks included; the second of them may be missing. -/
def tagHandle? (glyphs : List Glyph) : Option (List Char × List Glyph) :=
  match glyphs with
  | g :: rest =>
    if g.char ≠ '!' then none
    else
      let (name, rest) := spanChars isWordChar rest
      if charAt rest 0 = some '!' then some ('!' :: name ++ ['!'], rest.drop 1)
      else some ('!' :: name, rest)
  | [] => none

/-- A tag in its long form, with a handle, or with the handle left to the exclamation mark. -/
def tag? (glyphs : List Glyph) : Option (Token × List Glyph) :=
  if charAt glyphs 1 = some '<' then do
    let (octets, rest) ← tagOctets? true [] (glyphs.drop 2)
    if octets = [] || charAt rest 0 ≠ some '>' then none
    else some (.tag [] (untilZero octets), rest.drop 1)
  else do
    let (handle, rest) ← tagHandle? glyphs
    if 1 < handle.length && handle.getLast? = some '!' then
      let (octets, behind) ← tagOctets? false [] rest
      if behind.length = rest.length then none else some (.tag handle (untilZero octets), behind)
    else
      let (octets, rest) ← tagOctets? false (handle.tail.map (·.toUInt8)) rest
      let suffix := untilZero octets
      if suffix = [] then some (.tag [] ['!'.toUInt8], rest) else some (.tag ['!'] suffix, rest)

/-- A part of a version number, of at most nine digits. -/
def versionNumber? (glyphs : List Glyph) : Option (Nat × List Glyph) :=
  let (digits, rest) := spanChars Char.isDigit glyphs
  if digits = [] || 9 < digits.length then none
  else some (digits.foldl (fun n c => 10 * n + (c.toNat - '0'.toNat)) 0, rest)

def skipBlanks (glyphs : List Glyph) : List Glyph := glyphs.dropWhile (isBlank ·.char)

/-- A directive behind its percent sign, up to the end of its line. -/
def directive? (glyphs : List Glyph) : Option (Token × List Glyph) := do
  let (name, rest) := spanChars isWordChar glyphs
  if name = [] || !endsWord (charAt rest 0) then none
  let (token, rest) ←
    if name = "YAML".toList then do
      let (major, rest) ← versionNumber? (skipBlanks rest)
      if charAt rest 0 ≠ some '.' then none
      let (minor, rest) ← versionNumber? (rest.drop 1)
      some (.version major minor, rest)
    else if name = "TAG".toList then do
      let (handle, rest) ← tagHandle? (skipBlanks rest)
      if handle.length ≠ 1 && handle.getLast? ≠ some '!' then none
      if !(charAt rest 0).any isBlank then none
      let (stem, rest) ← tagOctets? true [] (skipBlanks rest)
      if stem = [] || !endsWord (charAt rest 0) then none
      some (.handle handle (untilZero stem), rest)
    else none
  return (token, ← finishLine? rest)

/-! ## Scanning -/

/-- The place of something that turns out to be a key if a colon follows on its line. -/
structure PendingKey where
  /-- The number of tokens before it. -/
  position : Nat
  line : Nat
  column : Nat
  /-- The octets before it in its line. -/
  offset : Nat
  /-- Whether nothing but a key may stand there. -/
  required : Bool

/-- A text as far as its tokens were read. -/
structure Scanner where
  rest : List Glyph
  tokens : Array Token := #[]
  /-- The column of the innermost block collection; -1 outside of all. -/
  indent : Int := -1
  outerIndents : List Int := []
  key? : Option PendingKey := none
  /-- The keys that wait outside of the brackets around this place, innermost first. -/
  outerKeys : List (Option PendingKey) := []
  keyAllowed : Bool := true

namespace Scanner

/-- Whether this place is within brackets. -/
def inFlow (s : Scanner) : Bool := !s.outerKeys.isEmpty

def push (s : Scanner) (token : Token) : Scanner := { s with tokens := s.tokens.push token }

def advance (s : Scanner) (n : Nat) : Scanner := { s with rest := s.rest.drop n }

/-- Gives the pending key up. -/
def dropKey? (s : Scanner) : Option Scanner :=
  if s.key?.any (·.required) then none else some { s with key? := none }

/-- Keeps this place for a key. -/
def saveKey? (s : Scanner) (here : Glyph) : Option Scanner :=
  if s.keyAllowed then do
    let required := !s.inFlow && s.indent = here.column
    let s ← s.dropKey?
    some { s with key? := some ⟨s.tokens.size, here.line, here.column, here.offset, required⟩ }
  else some s

/-- The most octets that a key without an indicator can have. -/
def longestKey : Nat := 1024

/-- Whether a key can no longer follow: keys end on their line and are not too long. -/
def isStale (key : PendingKey) (here : Glyph) : Bool :=
  key.line < here.line || key.offset + longestKey < here.offset

/-- Gives up a key that has become stale. -/
def refresh? (here : Glyph) : Option PendingKey → Option (Option PendingKey)
  | some key =>
    if isStale key here then if key.required then none else some none else some (some key)
  | none => some none

def refreshKeys? (s : Scanner) (here : Glyph) : Option Scanner := do
  let key? ← refresh? here s.key?
  let outerKeys ← s.outerKeys.mapM (refresh? here)
  return { s with key?, outerKeys }

/-- Opens a block collection at a column behind the innermost one, before the token at
`position`. -/
def openBlock (s : Scanner) (column position : Nat) (token : Token) : Scanner :=
  if !s.inFlow && s.indent < column then
    { s with
      tokens := s.tokens.insertIdxIfInBounds position token
      indent := column
      outerIndents := s.indent :: s.outerIndents }
  else s

/-- The tokens and indents left when the block collections behind a column are closed. -/
def closeIndents (column : Int) (indent : Int) (tokens : Array Token) :
    List Int → Array Token × Int × List Int
  | [] => (tokens, indent, [])
  | outer :: indents =>
    if column < indent then closeIndents column outer (tokens.push .blockEnd) indents
    else (tokens, indent, outer :: indents)

/-- Closes the block collections that start behind a column. -/
def closeBlocks (s : Scanner) (column : Int) : Scanner :=
  if s.inFlow then s
  else
    let (tokens, indent, outerIndents) := closeIndents column s.indent s.tokens s.outerIndents
    { s with tokens, indent, outerIndents }

/-- Skips blanks, comments and line breaks, and a byte order mark at the start of a line. Outside of
brackets a new line may start with a key, and no tab may stand where a key is allowed. -/
def skipSpace (flow : Bool) (keyAllowed comment : Bool) : List Glyph → Bool × List Glyph
  | [] => (keyAllowed, [])
  | g :: rest =>
    if isBreak g.char then skipSpace flow (keyAllowed || !flow) false rest
    else if comment || g.char = '#' then skipSpace flow keyAllowed true rest
    else if g.char = ' ' || (g.char = '\t' && (flow || !keyAllowed)) ||
        (g.char = byteOrderMark && g.column = 0) then
      skipSpace flow keyAllowed false rest
    else (keyAllowed, g :: rest)

/-- A token that needs the whole line and ends all block collections. -/
def atEdge? (s : Scanner) : Option Scanner := do
  let s ← (s.closeBlocks (-1)).dropKey?
  return { s with keyAllowed := false }

/-- Opens brackets. -/
def openFlow? (s : Scanner) (here : Glyph) (token : Token) : Option Scanner := do
  let s ← s.saveKey? here
  return { s with key? := none, outerKeys := s.key? :: s.outerKeys, keyAllowed := true }
    |>.advance 1 |>.push token

/-- Closes brackets. -/
def closeFlow? (s : Scanner) (token : Token) : Option Scanner := do
  let s ← s.dropKey?
  let s := match s.outerKeys with
    | [] => s
    | key? :: outerKeys => { s with key?, outerKeys }
  return { s with keyAllowed := false } |>.advance 1 |>.push token

/-- An indicator of a list entry or of a key. -/
def entry? (s : Scanner) (here : Glyph) (start token : Token) (keyAllowed : Bool) :
    Option Scanner := do
  if !s.inFlow && !s.keyAllowed then none
  let s ← (s.openBlock here.column s.tokens.size start).dropKey?
  return { s with keyAllowed } |>.advance 1 |>.push token

/-- A colon: the pending key becomes one, or the value belongs to a key with an indicator. -/
def value? (s : Scanner) (here : Glyph) : Option Scanner :=
  match s.key? with
  | some key =>
    let s := { s with
      tokens := s.tokens.insertIdxIfInBounds key.position .key, key? := none, keyAllowed := false }
    some (s.openBlock key.column key.position .blockMappingStart |>.advance 1 |>.push .value)
  | none =>
    if !s.inFlow && !s.keyAllowed then none
    else
      let s := s.openBlock here.column s.tokens.size .blockMappingStart
      some ({ s with keyAllowed := !s.inFlow }.advance 1 |>.push .value)

/-- A token that may be a key or start one. -/
def keyLike? (s : Scanner) (here : Glyph) (read : Option (Token × List Glyph)) :
    Option Scanner := do
  let s ← s.saveKey? here
  let (token, rest) ← read
  return { s with rest, keyAllowed := false }.push token

def plain? (s : Scanner) (here : Glyph) : Option Scanner := do
  let s ← s.saveKey? here
  let (draft, rest) ← plainScalar? s.inFlow (s.indent + 1).toNat {} s.rest
  return { s with rest, keyAllowed := draft.broken }.push (.scalar draft.content .plain)

def block? (s : Scanner) (folded : Bool) : Option Scanner := do
  let s ← s.dropKey?
  let (text, rest) ← blockScalar? folded s.indent (s.rest.drop 1)
  return { s with rest, keyAllowed := true }.push
    (.scalar text (if folded then .folded else .literal))

/-- Characters that start no plain scalar, though some of them may before another character. -/
def isIndicator (c : Char) : Bool :=
  ['-', '?', ':', ',', '[', ']', '{', '}', '#', '&', '*', '!', '|', '>', '\x27', '"', '%', '@',
    '\u0060'].contains c

/-- Whether a plain scalar starts here. -/
def startsPlain (s : Scanner) (c : Char) (next : Option Char) : Bool :=
  !(isBlank c || isIndicator c) || (c = '-' && !next.any isBlank) ||
    (!s.inFlow && (c = '?' || c = ':') && !endsWord next)

/-- Reads the token that starts at the given glyph. -/
def token? (s : Scanner) (g : Glyph) (rest : List Glyph) : Option Scanner :=
  let c := g.char
  let next := charAt rest 0
  if g.column = 0 && c = '%' then do
    let s ← s.atEdge?
    let (token, rest) ← directive? rest
    some ({ s with rest }.push token)
  else if isEdge '-' (g :: rest) then (·.advance 3 |>.push .documentStart) <$> s.atEdge?
  else if isEdge '.' (g :: rest) then (·.advance 3 |>.push .documentEnd) <$> s.atEdge?
  else if c = '[' then s.openFlow? g .flowSequenceStart
  else if c = '{' then s.openFlow? g .flowMappingStart
  else if c = ']' then s.closeFlow? .flowSequenceEnd
  else if c = '}' then s.closeFlow? .flowMappingEnd
  else if c = ',' then
    (fun s => { s with keyAllowed := true }.advance 1 |>.push .flowEntry) <$> s.dropKey?
  else if c = '-' && endsWord next then s.entry? g .blockSequenceStart .blockEntry true
  else if c = '?' && (s.inFlow || endsWord next) then
    s.entry? g .blockMappingStart .key (!s.inFlow)
  else if c = ':' && (s.inFlow || endsWord next) then s.value? g
  else if c = '*' then s.keyLike? g ((anchorName? rest).map fun (name, rest) => (.alias name, rest))
  else if c = '&' then
    s.keyLike? g ((anchorName? rest).map fun (name, rest) => (.anchor name, rest))
  else if c = '!' then
    s.keyLike? g ((tag? (g :: rest)).filter fun (_, rest) =>
      endsWord (charAt rest 0) || (s.inFlow && charAt rest 0 = some ','))
  else if c = '|' && !s.inFlow then s.block? false
  else if c = '>' && !s.inFlow then s.block? true
  else if c = '\x27' then
    s.keyLike? g ((quotedScalar? false {} rest).map fun (text, rest) =>
      (.scalar text .singleQuoted, rest))
  else if c = '"' then
    s.keyLike? g ((quotedScalar? true {} rest).map fun (text, rest) =>
      (.scalar text .doubleQuoted, rest))
  else if s.startsPlain c next then s.plain? g
  else none

/-- All tokens from here on. Each takes at least one character, so the glyphs of the text bound
their number. -/
def tokens? (s : Scanner) (text : List Glyph) : Option (List Token) :=
  let (keyAllowed, rest) := skipSpace s.inFlow s.keyAllowed false s.rest
  let s := { s with keyAllowed, rest }
  match rest, text with
  | [], _ => s.atEdge?.map fun s => (s.push .streamEnd).tokens.toList
  | _ :: _, [] => none
  | g :: behind, _ :: text => do
    let s ← s.refreshKeys? g
    let s ← (s.closeBlocks g.column).token? g behind
    s.tokens? text

end Scanner

/-- The tokens of a text. -/
def Token.ofText? (text : String) : Option (List Token) :=
  (Glyph.ofText? text).bind fun rest => ({ rest } : Scanner).tokens? rest

end ExporterRecords.Yaml
