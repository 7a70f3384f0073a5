import ExporterRecords.Hex
import ExporterRecords.Yaml.Glyph

/-!
# Scalars

The contents of plain, quoted and block scalars. Between two words of a scalar that runs over
several lines, one line break is a space and further ones stand for themselves; blanks around line
breaks are dropped.
-/
namespace ExporterRecords.Yaml

inductive Style where
  | plain
  | singleQuoted
  | doubleQuoted
  | literal
  | folded
  deriving DecidableEq, Repr

/-- The white space between two words of a scalar. -/
structure Gap where
  /-- Whether a line has ended in it. -/
  broken : Bool := false
  blanks : List Char := []
  first : List Char := []
  later : List Char := []

namespace Gap

/-- Takes in one blank or break. -/
def add (gap : Gap) (c : Char) : Gap :=
  if isBlank c then
    if gap.broken then gap else { gap with blanks := gap.blanks ++ [c] }
  else if gap.broken then { gap with later := gap.later ++ [c] }
  else { gap with broken := true, blanks := [], first := [c] }

/-- What the gap stands for. -/
def text (gap : Gap) : List Char :=
  if gap.broken then
    if gap.first = ['\n'] then
      if gap.later = [] then [' '] else gap.later
    else gap.first ++ gap.later
  else gap.blanks

end Gap

/-- A scalar as far as it was read: the text, last character first, and the gap behind it. -/
structure Draft where
  reversed : List Char := []
  gap? : Option Gap := none

namespace Draft

def addSpace (draft : Draft) (c : Char) : Draft :=
  { draft with gap? := some ((draft.gap?.getD {}).add c) }

/-- The gap counts only when text follows it. -/
def addChar (draft : Draft) (c : Char) : Draft :=
  ⟨c :: ((draft.gap?.getD {}).text.reverse ++ draft.reversed), none⟩

/-- A line break that is escaped: it joins the lines without a space. -/
def joinLines (draft : Draft) : Draft :=
  ⟨(draft.gap?.getD {}).text.reverse ++ draft.reversed, some { broken := true }⟩

/-- Whether a line has ended behind the text. -/
def broken (draft : Draft) : Bool := (draft.gap?.getD {}).broken

def content (draft : Draft) : List Char := draft.reversed.reverse

/-- The text with the gap behind it. -/
def contentWithGap (draft : Draft) : List Char :=
  draft.content ++ (draft.gap?.getD {}).text

end Draft

/-! ## Plain scalars -/

/-- Characters that end a plain scalar within brackets. -/
def flowIndicators : List Char := [',', '[', ']', '{', '}']

/-- Reads a plain scalar and returns what stands behind it. Lines that go on with it have to stand
at or behind the column `margin`, except within brackets. -/
def plainScalar? (flow : Bool) (margin : Nat) (draft : Draft) :
    List Glyph → Option (Draft × List Glyph)
  | [] => some (draft, [])
  | g :: rest =>
    let c := g.char
    if isBlank c || isBreak c then
      if draft.broken && c = '\t' && g.column < margin then none
      else plainScalar? flow margin (draft.addSpace c) rest
    else if draft.gap?.isSome && (c = '#' || isAnyEdge (g :: rest) || (!flow && g.column < margin))
    then
      some (draft, g :: rest)
    else if flow && c = ':' && ((charAt rest 0).any fun d => d = '?' || flowIndicators.contains d)
    then
      none
    else if (c = ':' && endsWord (charAt rest 0)) || (flow && flowIndicators.contains c) then
      some (draft, g :: rest)
    else
      plainScalar? flow margin (draft.addChar c) rest

/-! ## Quoted scalars -/

/-- The characters that a backslash and a letter stand for. -/
def escapes : List (Char × Char) :=
  [('0', '\x00'), ('a', '\x07'), ('b', '\x08'), ('t', '\t'), ('\t', '\t'), ('n', '\n'),
    ('v', '\x0b'), ('f', '\x0c'), ('r', '\r'), ('e', '\x1b'), (' ', ' '), ('"', '"'), ('/', '/'),
    ('\\', '\\'), ('N', '\u0085'), ('_', '\u00a0'), ('L', '\u2028'), ('P', '\u2029')]

/-- The number of digits behind a letter that gives a character by its number. -/
def escapeWidths : List (Char × Nat) := [('x', 2), ('u', 4), ('U', 8)]

/-- The character with the number that the digits give. -/
def numberedChar? (digits : List Char) : Option Char := do
  let digits ← digits.mapM Hex.digit?
  let n := digits.foldl (fun n d => 16 * n + d) 0
  if n.isValidChar then some (Char.ofNat n) else none

/-- Reads a quoted scalar behind its opening quote. Only double quotes know escapes; a single quote
is written twice. -/
def quotedScalar? (double : Bool) (draft : Draft) (glyphs : List Glyph) :
    Option (List Char × List Glyph) :=
  match glyphs with
  | [] => none
  | g :: rest =>
    let c := g.char
    if isAnyEdge (g :: rest) then none
    else if isBlank c || isBreak c then quotedScalar? double (draft.addSpace c) rest
    else if double then
      if c = '"' then some (draft.contentWithGap, rest)
      else if c = '\\' then
        match charAt rest 0 with
        | none => none
        | some e =>
          if isBreak e then quotedScalar? double draft.joinLines (rest.drop 1)
          else match escapes.lookup e, escapeWidths.lookup e with
            | some meant, _ => quotedScalar? double (draft.addChar meant) (rest.drop 1)
            | none, none => none
            | none, some width =>
              let digits := ((rest.drop 1).take width).map (·.char)
              if digits.length < width then none
              else match numberedChar? digits with
                | none => none
                | some meant => quotedScalar? double (draft.addChar meant) (rest.drop (1 + width))
      else quotedScalar? double (draft.addChar c) rest
    else if c = '\x27' then
      if charAt rest 0 = some '\x27' then quotedScalar? double (draft.addChar c) (rest.drop 1)
      else some (draft.contentWithGap, rest)
    else quotedScalar? double (draft.addChar c) rest
termination_by glyphs.length
decreasing_by all_goals simp only [List.length_drop, List.length_cons]; omega

/-! ## Block scalars -/

/-- What becomes of the line breaks at the end. -/
inductive Chomping where
  | strip
  | clip
  | keep
  deriving DecidableEq, Repr

def Chomping.ofChar? : Char → Option Chomping
  | '-' => some .strip
  | '+' => some .keep
  | _ => none

/-- A digit for the indentation, which is never zero. -/
def increment? (c : Char) : Option Nat :=
  if '1' ≤ c && c ≤ '9' then some (c.toNat - '0'.toNat) else none

/-- Reads the indicators behind the opening one, each at most once and in either order. -/
def blockIndicators (glyphs : List Glyph) : Chomping × Option Nat × List Glyph :=
  match (charAt glyphs 0).bind Chomping.ofChar?, (charAt glyphs 0).bind increment? with
  | some chomping, _ =>
    match (charAt glyphs 1).bind increment? with
    | some increment => (chomping, some increment, glyphs.drop 2)
    | none => (chomping, none, glyphs.drop 1)
  | none, some increment =>
    match (charAt glyphs 1).bind Chomping.ofChar? with
    | some chomping => (chomping, some increment, glyphs.drop 2)
    | none => (.clip, some increment, glyphs.drop 1)
  | none, none => (.clip, none, glyphs)

/-- Skips empty lines and the indentation of the next line. Returns the breaks, the farthest column
at which an empty line or that next line starts, and the rest. Where the indentation is not known
yet, all spaces belong to it. -/
def skipIndentation? (indent? : Option Nat) (farthest : Nat) (breaks : List Char) :
    List Glyph → Option (List Char × Nat × List Glyph)
  | [] => some (breaks, farthest, [])
  | g :: rest =>
    let inside := indent?.all (g.column < ·)
    if inside && g.char = ' ' then skipIndentation? indent? farthest breaks rest
    else if inside && g.char = '\t' then none
    else
      let farthest := max farthest g.column
      if isBreak g.char then skipIndentation? indent? farthest (breaks ++ [g.char]) rest
      else some (breaks, farthest, g :: rest)

theorem length_skipIndentation? {indent? : Option Nat} {farthest farthest' : Nat}
    {breaks breaks' : List Char} {glyphs rest : List Glyph}
    (h : skipIndentation? indent? farthest breaks glyphs = some (breaks', farthest', rest)) :
    rest.length ≤ glyphs.length := by
  induction glyphs generalizing farthest breaks with
  | nil =>
    simp only [skipIndentation?, Option.some.injEq, Prod.mk.injEq] at h
    simp [← h.2.2]
  | cons g behind ih =>
    simp only [skipIndentation?] at h
    split at h
    · exact Nat.le_succ_of_le (ih h)
    · split at h
      · simp at h
      · split at h
        · exact Nat.le_succ_of_le (ih h)
        · simp only [Option.some.injEq, Prod.mk.injEq] at h
          simp [← h.2.2]

/-- A block scalar as far as it was read. -/
structure BlockDraft where
  /-- The text, last character first. -/
  reversed : List Char := []
  /-- The break behind the last line. -/
  lastBreak : List Char := []
  /-- The empty lines behind it. -/
  breaks : List Char := []
  /-- Whether the last line starts with a blank. -/
  indented : Bool := false

namespace BlockDraft

/-- Takes in a line. In a folded scalar a break between two lines that both start at the margin is
a space, or nothing if empty lines follow it. -/
def addLine (draft : BlockDraft) (folded : Bool) (line : List Char) (lineBreak : List Char)
    (breaks : List Char) : BlockDraft :=
  let indented := line.head?.any isBlank
  let joint :=
    if folded && draft.lastBreak = ['\n'] && !draft.indented && !indented then
      if draft.breaks = [] then [' '] else []
    else draft.lastBreak
  { reversed := (joint ++ draft.breaks ++ line).reverse ++ draft.reversed
    lastBreak := lineBreak, breaks, indented }

/-- The whole text, with what the chomping leaves of the line breaks at the end. -/
def content (draft : BlockDraft) (chomping : Chomping) : List Char :=
  draft.reversed.reverse ++ match chomping with
    | .strip => []
    | .clip => draft.lastBreak
    | .keep => draft.lastBreak ++ draft.breaks

end BlockDraft

/-- Reads the lines that start at the margin. -/
def blockLines? (folded : Bool) (indent : Nat) (draft : BlockDraft) (glyphs : List Glyph) :
    Option (BlockDraft × List Glyph) :=
  match glyphs with
  | [] => some (draft, [])
  | g :: others =>
    if g.column ≠ indent then some (draft, g :: others)
    else
      match _h : skipIndentation? (some indent) 0 [] ((spanChars (!isBreak ·) others).2.drop 1) with
      | none => none
      | some (breaks, _, rest) =>
        let (line, behind) := spanChars (!isBreak ·) others
        let lineBreak := (behind.take 1).map (·.char)
        blockLines? folded indent (draft.addLine folded (g.char :: line) lineBreak breaks) rest
termination_by glyphs.length
decreasing_by
  have hrest := length_skipIndentation? _h
  have hbehind := length_spanChars (!isBreak ·) others
  simp only [List.length_drop] at hrest
  simp only [List.length_cons]
  omega

/-- Reads a block scalar behind its opening indicator. It is indented more than the collection that
it stands in, which is at `outer`, by as much as its first line that is not empty. -/
def blockScalar? (folded : Bool) (outer : Int) (glyphs : List Glyph) :
    Option (List Char × List Glyph) := do
  let (chomping, increment, glyphs) := blockIndicators glyphs
  let glyphs ← finishLine? glyphs
  let known := increment.map fun n => (max outer 0).toNat + n
  let (breaks, farthest, glyphs) ← skipIndentation? known 0 [] glyphs
  let indent := known.getD (max (max farthest (outer + 1).toNat) 1)
  let (draft, rest) ← blockLines? folded indent { breaks } glyphs
  return (draft.content chomping, rest)

end ExporterRecords.Yaml
