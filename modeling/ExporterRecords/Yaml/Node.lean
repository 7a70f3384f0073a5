import ExporterRecords.Yaml.Token

/-!
# Nodes

The tree that the tokens of a text spell. It is built from left to right, with the collections that
are still open in a list, innermost first. A node may be left out wherever one is expected and the
next token shows that none comes; an empty scalar stands for it.
-/
namespace ExporterRecords.Yaml

inductive Node where
  /-- Stands for the node with this anchor number. -/
  | alias (number : Nat)
  | scalar (tag? : Option (List UInt8)) (text : List Char) (style : Style)
  | sequence (tag? : Option (List UInt8)) (items : List Node)
  | mapping (tag? : Option (List UInt8)) (entries : List (Node × Node))

def Node.empty : Node := .scalar none [] .plain

/-! ## Anchors -/

/-- The anchors met so far. An anchor gets the number of distinct names before it, and an alias the
number that its name has at that place. A number that is given twice means the later node. -/
structure Anchors where
  numbers : List (List Char × Nat) := []
  /-- For each number the place of its node among the anchored ones, the last first. -/
  places : List (Nat × Nat) := []
  /-- The finished nodes by their places. -/
  nodes : List (Nat × Node) := []

namespace Anchors

def number? (anchors : Anchors) (name : List Char) : Option Nat := anchors.numbers.lookup name

/-- The place that the next anchored node gets. -/
def nextPlace (anchors : Anchors) : Nat := anchors.places.length

def define (anchors : Anchors) (name : List Char) : Anchors :=
  let number := anchors.numbers.length
  { anchors with
    numbers := (name, number) :: anchors.numbers.filter (·.1 ≠ name)
    places := (number, anchors.nextPlace) :: anchors.places }

def finish (anchors : Anchors) (place : Nat) (node : Node) : Anchors :=
  { anchors with nodes := (place, node) :: anchors.nodes }

def node? (anchors : Anchors) (number : Nat) : Option Node :=
  anchors.places.lookup number >>= (anchors.nodes.lookup ·)

end Anchors

/-! ## Open collections -/

/-- What is known of a node when it starts. -/
structure Label where
  tag? : Option (List UInt8) := none
  /-- Its place among the anchored nodes. -/
  place? : Option Nat := none

inductive SequenceForm where
  | block
  /-- Entries that stand at the column of the keys around them. -/
  | aligned
  | flow
  deriving DecidableEq

inductive MappingForm where
  | block
  | flow
  /-- One entry that stands in a sequence within brackets and is a mapping of its own. -/
  | single
  deriving DecidableEq

/-- The part of a mapping that comes next. -/
inductive MappingPart where
  /-- What separates entries, or the end. -/
  | separator
  /-- An entry within braces, or the end. -/
  | entry
  | key
  /-- The indicator of the value. -/
  | indicator (key : Node)
  | value (key : Node)

/-- A document or collection whose end is not reached. What it holds is kept last first. -/
inductive Frame where
  | document (explicit : Bool)
  | finished (root : Node)
  | sequence (form : SequenceForm) (label : Label) (items : List Node) (expectsItem : Bool)
  | mapping (form : MappingForm) (label : Label) (entries : List (Node × Node)) (part : MappingPart)

namespace Frame

/-- Whether a node may come next. -/
def expectsNode : Frame → Bool
  | document _ => true
  | finished _ => false
  | sequence _ _ _ expectsItem => expectsItem
  | mapping _ _ _ part => match part with
    | .separator | .indicator _ => false
    | .entry | .key | .value _ => true

/-- Whether that node may be a block collection. -/
def allowsBlock : Frame → Bool
  | document _ | sequence .block .. | sequence .aligned .. | mapping .block .. => true
  | finished _ | sequence .flow .. | mapping .flow .. | mapping .single .. => false

/-- Whether that node may be a sequence at the column of the keys. -/
def allowsAligned : Frame → Bool
  | mapping .block _ _ .key | mapping .block _ _ (.value _) => true
  | _ => false

/-- Whether a token shows that the expected node is left out. -/
def omits : Frame → Token → Bool
  | document true, token => match token with
    | .version .. | .handle .. | .documentStart | .documentEnd | .streamEnd => true
    | _ => false
  | sequence .block .., token => token = .blockEntry || token = .blockEnd
  | sequence .aligned .., token =>
    token = .blockEntry || token = .key || token = .value || token = .blockEnd
  | mapping .block _ _ .key, token | mapping .block _ _ (.value _), token =>
    token = .key || token = .value || token = .blockEnd
  | mapping .flow _ _ .key, token =>
    token = .value || token = .flowEntry || token = .flowMappingEnd
  | mapping .flow _ _ (.value _), token => token = .flowEntry || token = .flowMappingEnd
  | mapping .single _ _ (.value _), token => token = .flowEntry || token = .flowSequenceEnd
  | _, _ => false

/-- Takes in the expected node. -/
def accept (node : Node) : Frame → Frame
  | document _ => .finished node
  | finished root => .finished root
  | sequence form label items _ => .sequence form label (node :: items) false
  | mapping form label entries part => match part with
    | .entry => .mapping form label ((node, .empty) :: entries) .separator
    | .key => .mapping form label entries (.indicator node)
    | .value key => .mapping form label ((key, node) :: entries) .separator
    | part => .mapping form label entries part

/-- Leaves the value out if a key has ended and the token is no value indicator. -/
def endKey (token : Token) : Frame → Frame
  | mapping form label entries (.indicator key) =>
    if token = .value then .mapping form label entries (.indicator key)
    else .mapping form label ((key, .empty) :: entries) .separator
  | frame => frame

/-- Whether the collection ends before a token, which does not belong to it. -/
def endsBefore (token : Token) : Frame → Bool
  | sequence .aligned _ _ false => token ≠ .blockEntry
  | mapping .single _ _ .separator => true
  | _ => false

/-- The collection as it stands. -/
def node? : Frame → Option (Label × Node)
  | sequence _ label items _ => some (label, .sequence label.tag? items.reverse)
  | mapping _ label entries _ => some (label, .mapping label.tag? entries.reverse)
  | document _ | finished _ => none

end Frame

/-! ## Building -/

/-- The anchor and the tag that stand before the content of a node. -/
structure Properties where
  anchor? : Option (List Char) := none
  tag? : Option (List UInt8) := none
  deriving DecidableEq

/-- A tree as far as it was built. -/
structure Builder where
  frames : List Frame
  properties : Properties := {}
  handles : List (List Char × List UInt8)
  anchors : Anchors := {}

namespace Builder

/-- The innermost open collection. -/
def top? (b : Builder) : Option Frame := b.frames.head?

def modifyTop (b : Builder) (f : Frame → Frame) : Builder :=
  match b.frames with
  | [] => b
  | frame :: outer => { b with frames := f frame :: outer }

/-- The label of the node that starts here; it uses the properties up. -/
def label (b : Builder) : Label × Builder :=
  let tag? := b.properties.tag?
  match b.properties.anchor? with
  | none => ({ tag? }, { b with properties := {} })
  | some name =>
    ({ tag?, place? := some b.anchors.nextPlace },
      { b with properties := {}, anchors := b.anchors.define name })

/-- Puts a finished node where one is expected. -/
def add (b : Builder) (label : Label) (node : Node) : Builder :=
  let anchors := match label.place? with
    | none => b.anchors
    | some place => b.anchors.finish place node
  { b with anchors }.modifyTop (·.accept node)

def addScalar (b : Builder) (text : List Char) (style : Style) : Builder :=
  let (label, b) := b.label
  b.add label (.scalar label.tag? text style)

/-- Ends the innermost collection. -/
def close (b : Builder) : Builder :=
  match b.frames with
  | [] => b
  | frame :: outer => match frame.node? with
    | none => b
    | some (label, node) => { b with frames := outer }.add label node

def openSequence (b : Builder) (form : SequenceForm) (expectsItem : Bool) : Builder :=
  let (label, b) := b.label
  { b with frames := .sequence form label [] expectsItem :: b.frames }

def openMapping (b : Builder) (form : MappingForm) (part : MappingPart) : Builder :=
  let (label, b) := b.label
  { b with frames := .mapping form label [] part :: b.frames }

/-- Whether a token continues the node that has properties already. -/
def continuesNode (frame : Frame) : Token → Bool
  | .anchor _ | .tag .. | .scalar .. | .flowSequenceStart | .flowMappingStart => true
  | .blockSequenceStart | .blockMappingStart => frame.allowsBlock
  | .blockEntry => frame.allowsAligned
  | _ => false

/-- Puts an empty scalar where the token shows that a node is left out or has only properties. -/
def fillIn (b : Builder) (token : Token) : Builder :=
  match b.top? with
  | none => b
  | some frame =>
    let absent :=
      if b.properties = {} then frame.omits token else !continuesNode frame token
    if frame.expectsNode && absent then b.addScalar [] .plain else b

/-- Ends what a token ends without being part of it. -/
def settle (b : Builder) (token : Token) : Builder :=
  let b := (b.fillIn token).modifyTop (·.endKey token)
  if b.top?.any (·.endsBefore token) then b.close.modifyTop (·.endKey token) else b

/-- Takes in a property, of which a node has one of each kind. -/
def addAnchor? (b : Builder) (name : List Char) : Option Builder :=
  if b.properties.anchor?.isSome then none
  else some { b with properties := { b.properties with anchor? := some name } }

/-- Takes in a tag, with the stem that its handle stands for. -/
def addTag? (b : Builder) (handle : List Char) (suffix : List UInt8) : Option Builder := do
  if b.properties.tag?.isSome then none
  let stem ← if handle = [] then some [] else b.handles.lookup handle
  return { b with properties := { b.properties with tag? := some (stem ++ suffix) } }

/-- Takes in a token that starts a node or belongs in front of one. -/
def nodeToken? (b : Builder) (frame : Frame) : Token → Option Builder
  | .anchor name => b.addAnchor? name
  | .tag handle suffix => b.addTag? handle suffix
  | .alias name =>
    if b.properties = {} then (b.anchors.number? name).map fun n => b.add {} (.alias n) else none
  | .scalar text style => some (b.addScalar text style)
  | .flowSequenceStart => some (b.openSequence .flow true)
  | .flowMappingStart => some (b.openMapping .flow .entry)
  | .blockSequenceStart => if frame.allowsBlock then some (b.openSequence .block false) else none
  | .blockMappingStart => if frame.allowsBlock then some (b.openMapping .block .separator) else none
  | .blockEntry => if frame.allowsAligned then some (b.openSequence .aligned true) else none
  | _ => none

/-- Takes in a token that separates or ends entries. -/
def structureToken? (b : Builder) : Frame → Token → Option Builder
  | .finished _, .documentEnd | .finished _, .streamEnd => some b
  | .sequence .block label items false, .blockEntry =>
    some (b.modifyTop fun _ => .sequence .block label items true)
  | .sequence .aligned label items false, .blockEntry =>
    some (b.modifyTop fun _ => .sequence .aligned label items true)
  | .sequence .flow label items false, .flowEntry =>
    some (b.modifyTop fun _ => .sequence .flow label items true)
  | .sequence .block _ _ false, .blockEnd => some b.close
  | .sequence .flow .., .flowSequenceEnd => some b.close
  | .sequence .flow _ _ true, .key => some (b.openMapping .single .key)
  | .mapping .block label entries .separator, .key =>
    some (b.modifyTop fun _ => .mapping .block label entries .key)
  | .mapping .block _ _ .separator, .blockEnd => some b.close
  | .mapping .flow label entries .entry, .key =>
    some (b.modifyTop fun _ => .mapping .flow label entries .key)
  | .mapping .flow label entries .separator, .flowEntry =>
    some (b.modifyTop fun _ => .mapping .flow label entries .entry)
  | .mapping .flow _ _ .separator, .flowMappingEnd => some b.close
  | .mapping .flow _ _ .entry, .flowMappingEnd => some b.close
  | .mapping form label entries (.indicator key), .value =>
    some (b.modifyTop fun _ => .mapping form label entries (.value key))
  -- A lone entry whose key is left out takes the token behind its key indicator.
  | .mapping .single _ _ .key, .value | .mapping .single _ _ .key, .flowEntry
  | .mapping .single _ _ .key, .flowSequenceEnd => some (b.modifyTop (·.accept .empty))
  | _, _ => none

/-- Takes in a token. -/
def step? (b : Builder) (token : Token) : Option Builder := do
  let b := b.settle token
  let frame ← b.top?
  match if frame.expectsNode then b.nodeToken? frame token else none with
  | some next => some next
  | none => if b.properties = {} then b.structureToken? frame token else none

end Builder

/-! ## Trees -/

/-- The stems of the handles that every text knows. -/
def commonHandles : List (List Char × List UInt8) :=
  [(['!'], ['!'.toUInt8]), (['!', '!'], "tag:yaml.org,2002:".toUTF8.toList)]

/-- Reads the directives in front of a document: at most one version, and each handle once. -/
def directives? (versioned : Bool) (handles : List (List Char × List UInt8)) :
    List Token → Option (List (List Char × List UInt8) × List Token)
  | .version major minor :: rest =>
    if versioned || major ≠ 1 || (minor ≠ 1 && minor ≠ 2) then none
    else directives? true handles rest
  | .handle name stem :: rest =>
    if (handles.lookup name).isSome then none
    else directives? versioned ((name, stem) :: handles) rest
  | tokens => some (handles, tokens)

structure Tree where
  root : Node
  anchors : Anchors

namespace Tree

/-- The tree of a stream with at most one document. Only the start mark of a document may follow
directives. -/
def ofTokens? (tokens : List Token) : Option Tree := do
  if tokens = [.streamEnd] then return ⟨.empty, {}⟩
  let (handles, rest) ← directives? false [] tokens
  let (explicit, rest) ← match rest with
    | .documentStart :: rest => some (true, rest)
    | rest => if rest.length = tokens.length then some (false, rest) else none
  let start : Builder := { frames := [.document explicit], handles := handles ++ commonHandles }
  let b ← rest.foldlM Builder.step? start
  match b.top? with
  | some (.finished root) => some ⟨root, b.anchors⟩
  | _ => none

def ofText? (text : String) : Option Tree := Token.ofText? text >>= ofTokens?

/-- A node, or the one that an alias stands for. -/
def resolve? (tree : Tree) : Node → Option Node
  | .alias number => tree.anchors.node? number
  | node => some node

end Tree

end ExporterRecords.Yaml
