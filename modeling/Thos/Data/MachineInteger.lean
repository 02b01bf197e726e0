import Mathlib.Algebra.Group.Int.Defs
import Mathlib.Algebra.Group.Nat.Defs

namespace Data.MachineInteger

/-! Integer types of a machine, and the operations computed in them. -/

structure IntegerType where
  signed : Bool
  bits : Nat
  deriving DecidableEq, Repr

namespace IntegerType

def minimum (type : IntegerType) : Int :=
  if type.signed then -2 ^ (type.bits - 1) else 0

def maximum (type : IntegerType) : Int :=
  if type.signed then 2 ^ (type.bits - 1) - 1 else 2 ^ type.bits - 1

def Holds (type : IntegerType) (value : Int) : Prop :=
  type.minimum ≤ value ∧ value ≤ type.maximum

instance (type : IntegerType) (value : Int) : Decidable (type.Holds value) :=
  inferInstanceAs (Decidable (_ ∧ _))

theorem holds_unsigned {bits value : Nat} :
    Holds ⟨false, bits⟩ value ↔ value < 2 ^ bits := by
  have cast : ((2 ^ bits : Nat) : Int) = 2 ^ bits := Int.natCast_pow 2 bits
  simp only [Holds, minimum, maximum, Bool.false_eq_true, if_false]
  omega

theorem holds_signed {bits value : Nat} :
    Holds ⟨true, bits + 1⟩ value ↔ value < 2 ^ bits := by
  have cast : ((2 ^ bits : Nat) : Int) = 2 ^ bits := Int.natCast_pow 2 bits
  simp only [Holds, minimum, maximum, if_true, Nat.add_sub_cancel]
  omega

def wrap (type : IntegerType) (value : Int) : Int :=
  if type.signed then value.bmod (2 ^ type.bits) else value % 2 ^ type.bits

theorem wrap_signed (bits : Nat) (value : Int) :
    wrap ⟨true, bits⟩ value = value.bmod (2 ^ bits) := rfl

theorem wrap_of_holds {type : IntegerType} {value : Int}
    (sized : 0 < type.bits) (holds : type.Holds value) : type.wrap value = value := by
  obtain ⟨signed, bits⟩ := type
  obtain ⟨bits, rfl⟩ := Nat.exists_eq_succ_of_ne_zero (Nat.ne_of_gt sized)
  obtain ⟨low, high⟩ := holds
  have double : (2 : Nat) ^ (bits + 1) = 2 * 2 ^ bits := Nat.pow_succ'
  have cast : ((2 ^ bits : Nat) : Int) = 2 ^ bits := Int.natCast_pow 2 bits
  cases signed with
  | true =>
      simp only [minimum, maximum, if_true, Nat.succ_eq_add_one,
        Nat.add_sub_cancel] at low high
      simp only [wrap, if_true]
      apply Int.bmod_eq_of_le
      · rw [double]
        omega
      · rw [double]
        omega
  | false =>
      simp only [minimum, maximum, Bool.false_eq_true, if_false] at low high
      simp only [wrap, Bool.false_eq_true, if_false]
      exact Int.emod_eq_of_lt low (by omega)

theorem wrap_emod (type : IntegerType) (value : Int) :
    type.wrap value % 2 ^ type.bits = value % 2 ^ type.bits := by
  have cast : ((2 ^ type.bits : Nat) : Int) = 2 ^ type.bits :=
    Int.natCast_pow 2 type.bits
  rw [wrap]
  split
  · rw [← cast, Int.bmod_emod]
  · exact Int.emod_emod_of_dvd value (Int.dvd_refl _)

/-- The type of an unsigned bit-field in an expression: `int` if that holds all
its values, the declared type if not. -/
def promoteField (int declared : IntegerType) (width : Nat) : IntegerType :=
  if int.Holds (2 ^ width - 1) then int else declared

def common (first second : IntegerType) : IntegerType :=
  if first.bits < second.bits then second
  else if second.bits < first.bits then first
  else ⟨first.signed && second.signed, first.bits⟩

end IntegerType

/-- An operation is given by the type it is computed in and its exact result. -/
structure Operation where
  type : IntegerType
  result : Int
  deriving DecidableEq, Repr

namespace Operation

def value (operation : Operation) : Int := operation.type.wrap operation.result

def InRange (operation : Operation) : Prop :=
  operation.type.Holds operation.result

instance (operation : Operation) : Decidable operation.InRange :=
  inferInstanceAs (Decidable (operation.type.Holds operation.result))

theorem InRange.value_eq {operation : Operation} (sized : 0 < operation.type.bits)
    (inRange : operation.InRange) : operation.value = operation.result :=
  IntegerType.wrap_of_holds sized inRange

end Operation

def AllInRange (operations : List Operation) : Prop :=
  ∀ operation ∈ operations, operation.InRange

instance (operations : List Operation) : Decidable (AllInRange operations) :=
  inferInstanceAs (Decidable (∀ operation ∈ operations, operation.InRange))

@[simp] theorem allInRange_nil : AllInRange [] := List.forall_mem_nil _

@[simp] theorem allInRange_cons {first : Operation} {rest : List Operation} :
    AllInRange (first :: rest) ↔ first.InRange ∧ AllInRange rest :=
  List.forall_mem_cons

@[simp] theorem allInRange_append {first second : List Operation} :
    AllInRange (first ++ second) ↔ AllInRange first ∧ AllInRange second :=
  List.forall_mem_append

theorem allInRange_flatMap {Item : Type} {items : List Item}
    {operations : Item → List Operation} :
    AllInRange (items.flatMap operations) ↔
      ∀ item ∈ items, AllInRange (operations item) :=
  List.forall_mem_flatMap

end Data.MachineInteger
