import ExporterRecords.Address.Basic
import ExporterRecords.Hex

/-!
# Addresses as text

A short address is four decimal octets with dots between them. A long one is eight groups of up
to four hexadecimal digits with colons between them; one gap, written as two colons, may stand for
one or more zero groups, and the last two groups may be written as a short address. The printed
form is lowercase and puts the gap where the longest run of zero groups is, the first of equals.
-/
namespace ExporterRecords.Address

/-- The parts between the separators; always at least one. -/
def splitOn (separator : Char) : List Char → List (List Char)
  | [] => [[]]
  | c :: cs =>
    if c = separator then [] :: splitOn separator cs
    else match splitOn separator cs with
      | [] => [[c]]
      | part :: parts => (c :: part) :: parts

/-- What stands before and after the first pair of colons. -/
def splitAtGap : List Char → Option (List Char × List Char)
  | ':' :: ':' :: rest => some ([], rest)
  | c :: cs => (splitAtGap cs).map fun (front, back) => (c :: front, back)
  | [] => none

/-- A decimal number below 256 in at most three digits, without a zero in front. -/
def octet? (cs : List Char) : Option Nat :=
  if cs = [] ∨ 3 < cs.length ∨ ¬ cs.all Char.isDigit ∨ (1 < cs.length ∧ cs.head? = some '0') then
    none
  else
    let n := ofDigits 10 (cs.map fun c => c.toNat - '0'.toNat)
    if n < 256 then some n else none

/-- A number of one to four hexadecimal digits. -/
def group? (cs : List Char) : Option Nat :=
  if cs = [] ∨ 4 < cs.length then none
  else (cs.mapM Hex.digit?).map (ofDigits 16)

/-- Four octets with dots between them. -/
def v4Bits? (cs : List Char) : Option Nat := do
  let octets ← (splitOn '.' cs).mapM octet?
  if octets.length = 4 then some (ofDigits 256 octets) else none

/-- Groups of which the last may be written as a short address, which counts as two. -/
def groupsWithTail? : List (List Char) → Option (List Nat)
  | [] => some []
  | [last] =>
    if '.' ∈ last then (v4Bits? last).map (digits 65536 2)
    else (group? last).map ([·])
  | part :: parts => do
    let group ← group? part
    return group :: (← groupsWithTail? parts)

/-- One side of a gap, which may be empty. -/
def side (read : List (List Char) → Option (List Nat)) (cs : List Char) : Option (List Nat) :=
  if cs = [] then some [] else read (splitOn ':' cs)

/-- The eight groups of a long address. -/
def v6Groups? (cs : List Char) : Option (List Nat) :=
  match splitAtGap cs with
  | none => do
    let groups ← groupsWithTail? (splitOn ':' cs)
    if groups.length = 8 then some groups else none
  | some (front, back) => do
    let before ← side (·.mapM group?) front
    let after ← side groupsWithTail? back
    let known := before.length + after.length
    if known ≤ 7 then some (before ++ List.replicate (8 - known) 0 ++ after) else none

def parseV4? (text : String) : Option Address :=
  (v4Bits? text.toList).map fun bits => v4 (UInt32.ofNat bits)

def parseV6? (text : String) : Option Address :=
  (v6Groups? text.toList).map fun groups =>
    v6 (UInt64.ofNat (ofDigits 65536 (groups.take 4)))
      (UInt64.ofNat (ofDigits 65536 (groups.drop 4)))

def parse? (text : String) : Option Address :=
  (parseV4? text).orElse fun _ => parseV6? text

/-- Start and length of the longest run of zeros, the first of equals. -/
def longestZeroRun : List Nat → Nat × Nat
  | [] => (0, 0)
  | n :: ns =>
    let here := ((n :: ns).takeWhile (· = 0)).length
    let (start, length) := longestZeroRun ns
    if length ≤ here then (0, here) else (start + 1, length)

def printOctets (octets : List Nat) : String :=
  ".".intercalate (octets.map toString)

def printGroups (groups : List Nat) : String :=
  ":".intercalate (groups.map fun group => String.ofList (Hex.short 4 group))

/-- A gap stands for two zero groups or more. -/
def printWithGap (groups : List Nat) : String :=
  let (start, length) := longestZeroRun groups
  if 1 < length then
    printGroups (groups.take start) ++ "::" ++ printGroups (groups.drop (start + length))
  else
    printGroups groups

/-- A short address that is carried in a long one is printed as such. -/
def print : Address → String
  | v4 bits => printOctets (octets bits)
  | v6 high low =>
    if high = 0 ∧ low.toNat / UInt32.size = 0xffff then
      "::ffff:" ++ printOctets (octets (UInt32.ofNat low.toNat))
    else
      printWithGap (groups high low)

end ExporterRecords.Address
