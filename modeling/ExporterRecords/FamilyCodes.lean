import ExporterRecords.Address.Basic
import ExporterRecords.Fault

/-!
# Address family codes

Hosts disagree on the numbers of the address families, so a stream's format names both. Distinct
codes identify the family; equal codes are refused before anything is read or written with them.
-/
namespace ExporterRecords

structure FamilyCodes where
  inet : UInt16 := 2
  inet6 : UInt16 := 10
  deriving DecidableEq, Repr

namespace FamilyCodes

def code (codes : FamilyCodes) : Address.Family → UInt16
  | .inet => codes.inet
  | .inet6 => codes.inet6

def family (codes : FamilyCodes) (code : UInt16) : Except Fault Address.Family :=
  if code = codes.inet then .ok .inet
  else if code = codes.inet6 then .ok .inet6
  else .error (.invalidFamily code)

def validate (codes : FamilyCodes) : Except Fault Unit :=
  if codes.inet = codes.inet6 then
    .error (.configuration s!"address family codes must differ, both are {codes.inet}")
  else
    .ok ()

theorem validate_eq_ok_iff {codes : FamilyCodes} :
    codes.validate = .ok () ↔ codes.inet ≠ codes.inet6 := by
  unfold validate
  split <;> simp_all

theorem family_code {codes : FamilyCodes} (h : codes.inet ≠ codes.inet6) (f : Address.Family) :
    codes.family (codes.code f) = .ok f := by
  cases f <;> simp [family, code, Ne.symm h]

end FamilyCodes

end ExporterRecords
