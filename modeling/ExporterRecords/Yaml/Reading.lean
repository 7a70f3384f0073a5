import ExporterRecords.Hex
import ExporterRecords.Yaml.Node

/-!
# Readings

What a node says to a reader that expects a number, a choice or the members of a structure. An
alias reads as the node that it stands for.
-/
namespace ExporterRecords.Yaml

/-! ## Numbers -/

/-- The number that the digits stand for; there is at least one. -/
def number? (base : Nat) (digits : List Char) : Option Nat :=
  if digits = [] then none
  else digits.foldlM (fun n c => do
    let d ← Hex.digit? c
    if d < base then some (base * n + d) else none) 0

/-- The bases of numbers by their marks. -/
def basedNumber? : List Char → Option Nat
  | '0' :: 'x' :: digits => number? 16 digits
  | '0' :: 'o' :: digits => number? 8 digits
  | '0' :: 'b' :: digits => number? 2 digits
  | _ => none

/-- The number that a text spells, after a plus sign or none. A decimal number has no leading
zero. -/
def natural? (text : List Char) : Option Nat :=
  let digits := if text.head? = some '+' then text.tail else text
  match basedNumber? digits with
  | some n => some n
  | none => if 1 < digits.length && digits.head? = some '0' then none else number? 10 digits

def isNull (text : List Char) : Bool :=
  text = [] || text = ['~'] || ["null", "Null", "NULL"].contains (String.ofList text)

/-- The choice that a tag names, behind its exclamation mark. -/
def choiceOfTag? : List UInt8 → Option String
  | [] => none
  | mark :: name =>
    if mark = '!'.toUInt8 then
      String.fromUTF8? ⟨(if name = [] then [mark] else name).toArray⟩
    else none

namespace Tree

/-- The text of a scalar in any style. -/
def text? (tree : Tree) (node : Node) : Option (List Char) :=
  match tree.resolve? node with
  | some (.scalar _ text _) => some text
  | _ => none

/-- A number in plain style, or in literal style where a tag says that it is one. -/
def natural? (tree : Tree) (node : Node) : Option Nat :=
  match tree.resolve? node with
  | some (.scalar _ text .plain) => Yaml.natural? text
  | some (.scalar (some tag) text .literal) =>
    if tag = "tag:yaml.org,2002:int".toUTF8.toList then Yaml.natural? text else none
  | _ => none

/-- A choice without content: a tag with nothing behind it but null, or else a scalar. -/
def choice? (tree : Tree) (node : Node) : Option String := do
  match ← tree.resolve? node with
  | .scalar tag? text style =>
    match tag? >>= choiceOfTag? with
    | some name => if style = .plain && isNull text then some name else none
    | none => some (String.ofList text)
  | _ => none

/-- The members of a structure with their names; an empty scalar has none. -/
def members? (tree : Tree) (node : Node) : Option (List (String × Node)) := do
  match ← tree.resolve? node with
  | .mapping _ entries => entries.mapM fun (key, value) => do
    return (String.ofList (← tree.text? key), value)
  | .scalar _ [] .plain => some []
  | _ => none

end Tree

/-- Reads the member with a name, of which there is at most one; without one the standard value
stands. -/
def readMember? {α : Type} (members : List (String × Node)) (name : String) (standard : α)
    (read? : Node → Option α) : Option α :=
  match members.filter (·.1 = name) with
  | [] => some standard
  | [(_, node)] => read? node
  | _ => none

end ExporterRecords.Yaml
