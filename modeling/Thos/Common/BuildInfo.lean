import Mathlib.Algebra.Group.Int.Defs
import Mathlib.Algebra.Group.Nat.Defs

namespace Thos

inductive Target where
  | riscv64
  | riscv32
  deriving DecidableEq, Repr

namespace Target

def pointerBits : Target → Nat
  | riscv64 => 64
  | riscv32 => 32

def sizeofUintptr : Target → Nat
  | riscv64 => 8
  | riscv32 => 4

/-- Conversion of a computed value to `uintptr_t` or `size_t`. -/
def uintptr (target : Target) (value : Nat) : Nat := value % 2 ^ target.pointerBits

def sizeT (target : Target) (value : Int) : Nat :=
  (value % 2 ^ target.pointerBits).toNat

theorem sizeof_pos (target : Target) : 0 < target.sizeofUintptr := by
  cases target <;> decide

theorem uintptr_of_lt {target : Target} {value : Nat}
    (bound : value < 2 ^ target.pointerBits) : target.uintptr value = value :=
  Nat.mod_eq_of_lt bound

theorem sizeT_of_lt {target : Target} {value : Nat}
    (bound : value < 2 ^ target.pointerBits) : target.sizeT value = value := by
  have cast : (value : Int) < 2 ^ target.pointerBits := by exact_mod_cast bound
  rw [sizeT, Int.emod_eq_of_lt (Int.natCast_nonneg value) cast, Int.toNat_natCast]

end Target

def toInt (value : Int) : Int := value.bmod (2 ^ 32)

def toInt64 (value : Int) : Int := value.bmod (2 ^ 64)

def intMax : Nat := 2 ^ 31 - 1

theorem toInt_of_le {value : Nat} (bound : value ≤ intMax) :
    toInt value = value := by
  simp only [intMax] at bound
  exact Int.bmod_eq_of_le (by omega) (by omega)

end Thos
