/-!
# Hexadecimal digits

Numbers in lowercase hexadecimal, in a fixed number of digits or without leading zeros.
-/
namespace ExporterRecords.Hex

/-- The lowest `width` digits, highest first. -/
def fixed : Nat → Nat → List Char
  | 0, _ => []
  | width + 1, n => fixed width (n / 16) ++ [Nat.digitChar (n % 16)]

@[simp] theorem length_fixed (width n : Nat) : (fixed width n).length = width := by
  induction width generalizing n <;> simp [fixed, *]

/-- The lowest `width` digits without the zeros in front; zero itself keeps one digit. -/
def short (width n : Nat) : List Char :=
  match (fixed width n).dropWhile (· = '0') with
  | [] => ['0']
  | digits => digits

/-- The value of a digit, in either case. -/
def digit? (c : Char) : Option Nat :=
  if '0' ≤ c ∧ c ≤ '9' then some (c.toNat - '0'.toNat)
  else if 'a' ≤ c ∧ c ≤ 'f' then some (c.toNat - 'a'.toNat + 10)
  else if 'A' ≤ c ∧ c ≤ 'F' then some (c.toNat - 'A'.toNat + 10)
  else none

/-- A 16-bit code as it stands in messages. -/
def code (c : UInt16) : String :=
  String.ofList ('0' :: 'x' :: fixed 4 c.toNat)

end ExporterRecords.Hex
