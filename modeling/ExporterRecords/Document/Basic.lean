/-!
# Documents

A document is a value that describes itself: numbers, texts, lists, and objects whose members have
names. Every public type has one way to become a document and a somewhat wider way back: a
structure may also come as the list of its members in order, a choice without content may come with
an empty one, and members that a type does not know are skipped.
-/
namespace ExporterRecords

inductive Document where
  | null
  | bool (value : Bool)
  | integer (value : Int)
  /-- A number with decimal places, which no type here takes. -/
  | decimal (digits : Int) (places : Nat)
  | text (value : String)
  | list (items : List Document)
  | object (members : List (String × Document))
  deriving Inhabited, Repr

/-- Types with a described form. -/
class Documented (α : Type) where
  toDocument : α → Document
  ofDocument? : Document → Option α

export Documented (toDocument ofDocument?)

namespace Document

/-- The members of a structure by name. -/
abbrev Members := String → Option Document

/-- The members of a structure that has members of the given names, in that order. A list may be
short of some, but may not have more. -/
def members? (names : List String) : Document → Option Members
  | object members => some (members.lookup ·)
  | list items => if items.length ≤ names.length then some ((names.zip items).lookup ·) else none
  | _ => none

/-- The members of a structure that has members of the given names and no others. -/
def knownMembers? (names : List String) : Document → Option Members
  | object members =>
    if members.all (names.contains ·.1) then some (members.lookup ·) else none
  | document => document.members? names

/-- The members of the content of a choice, which has no form without names. -/
def namedMembers? : Document → Option Members
  | object members => some (members.lookup ·)
  | _ => none

/-- The name of a choice and its content. -/
def choice? : Document → Option (String × Option Document)
  | text name => some (name, none)
  | object [(name, content)] => some (name, some content)
  | _ => none

/-- A choice with content. -/
def choice (name : String) (content : Document) : Document := object [(name, content)]

/-- The choice named, out of those that have no content. -/
def plainChoice? {α : Type} (choices : List (String × α)) (document : Document) : Option α :=
  match document.choice? with
  | some (name, none) | some (name, some null) => choices.lookup name
  | _ => none

/-- A number from zero up to below the bound. -/
def natBelow? (bound : Nat) : Document → Option Nat
  | integer n => if 0 ≤ n ∧ n < bound then some n.toNat else none
  | _ => none

namespace Members

/-- A member that has to be there. -/
def required {α : Type} [Documented α] (members : Members) (name : String) : Option α :=
  (members name).bind ofDocument?

/-- A member that has a value where it is absent. -/
def withDefault {α : Type} [Documented α] (members : Members) (name : String) (value : α) :
    Option α :=
  match members name with
  | none => some value
  | some document => ofDocument? document

end Members

end Document

open Document

instance : Documented UInt8 where
  toDocument n := .integer n.toNat
  ofDocument? document := (document.natBelow? UInt8.size).map UInt8.ofNat

instance : Documented UInt16 where
  toDocument n := .integer n.toNat
  ofDocument? document := (document.natBelow? UInt16.size).map UInt16.ofNat

instance : Documented UInt32 where
  toDocument n := .integer n.toNat
  ofDocument? document := (document.natBelow? UInt32.size).map UInt32.ofNat

instance : Documented UInt64 where
  toDocument n := .integer n.toNat
  ofDocument? document := (document.natBelow? UInt64.size).map UInt64.ofNat

instance : Documented Int64 where
  toDocument n := .integer n.toInt
  ofDocument?
    | .integer n => if Int64.minValue.toInt ≤ n ∧ n ≤ Int64.maxValue.toInt then some (.ofInt n)
      else none
    | _ => none

/-- Lengths are numbers of 64 bits. -/
instance : Documented Nat where
  toDocument n := .integer n
  ofDocument? := Document.natBelow? UInt64.size

instance {α : Type} [Documented α] : Documented (List α) where
  toDocument items := .list (items.map toDocument)
  ofDocument?
    | .list items => items.mapM ofDocument?
    | _ => none

/-- What is absent is null. -/
instance {α : Type} [Documented α] : Documented (Option α) where
  toDocument
    | none => .null
    | some a => toDocument a
  ofDocument?
    | .null => some none
    | document => (ofDocument? document).map some

end ExporterRecords
