/-
This file is a library about arithmetic with machine integers. A computation stores each of its
results in a type: either it is wrapped into the range of the type, as the machine does it, or it is
checked to be in the range. A computation that passes all checks gives the same when it is wrapped.
A division by zero has no result.

A quotient that is truncated stays inside bounds that are multiples of the divisor.
-/

import Mathlib.Tactic

namespace Urus.MachineInt

/-! ### Types -/

/-- A type of integers with so many bits. -/
structure IntType where
  signed : Bool
  width : ℕ

def int16 : IntType := ⟨true, 16⟩
def uint16 : IntType := ⟨false, 16⟩
def int32 : IntType := ⟨true, 32⟩

/-- The least number of a type. -/
def IntType.low (type : IntType) : ℤ := if type.signed then -2 ^ (type.width - 1) else 0

/-- A number is in the range of a type. -/
def IntType.Holds (type : IntType) (number : ℤ) : Prop :=
  type.low ≤ number ∧ number < type.low + 2 ^ type.width

instance (type : IntType) (number : ℤ) : Decidable (type.Holds number) :=
  inferInstanceAs (Decidable (_ ∧ _))

/-- A number is wrapped into the range of a type. -/
def IntType.wrap (type : IntType) (number : ℤ) : ℤ :=
  (number - type.low) % 2 ^ type.width + type.low

variable {number : ℤ} {type : IntType}

theorem wrap_of_holds (holds : type.Holds number) :
    type.wrap number = number := by
  obtain ⟨low, high⟩ := holds
  rw [IntType.wrap, Int.emod_eq_of_lt (by omega) (by omega)]
  omega

theorem holds_int16 : int16.Holds number ↔ -32768 ≤ number ∧ number < 32768 := by
  rw [IntType.Holds, int16]
  norm_num [IntType.low]

theorem holds_uint16 : uint16.Holds number ↔ 0 ≤ number ∧ number < 65536 := by
  rw [IntType.Holds, uint16]
  norm_num [IntType.low]

theorem holds_int32 :
    int32.Holds number ↔ -2147483648 ≤ number ∧ number < 2147483648 := by
  rw [IntType.Holds, int32]
  norm_num [IntType.low]

theorem wrap_int16 (number : ℤ) : int16.wrap number = (number + 32768) % 65536 - 32768 := by
  rw [IntType.wrap, int16]
  norm_num [IntType.low]
  rfl

theorem wrap_uint16 (number : ℤ) : uint16.wrap number = number % 65536 := by
  rw [IntType.wrap, uint16]
  norm_num [IntType.low]

/-! ### Storing -/

/-- How a result is stored in a type. -/
abbrev Store := IntType → ℤ → Option ℤ

/-- What does not fit is wrapped. -/
def wrapping : Store := fun type number => some (type.wrap number)

/-- What does not fit is rejected. -/
def checked : Store := fun type number => if type.Holds number then some number else none

theorem checked_of_holds (holds : type.Holds number) :
    checked type number = some number := if_pos holds

/-- A quotient, truncated. -/
def divide (number divisor : ℤ) : Option ℤ :=
  if divisor = 0 then none else some (number.tdiv divisor)

theorem divide_of_ne {number divisor : ℤ} (nonzero : divisor ≠ 0) :
    divide number divisor = some (number.tdiv divisor) := if_neg nonzero

/-- A computation that passes all checks gives the same when it is wrapped. -/
def Sound {Result : Type} (computation : Store → Option Result) : Prop :=
  ∀ result, computation checked = some result → computation wrapping = some result

section Sound

variable {First Second : Type}

theorem sound_const (result : Option First) : Sound fun _ => result := fun _ same => same

theorem sound_store (type : IntType) (number : ℤ) : Sound fun store => store type number := by
  intro result same
  by_cases holds : type.Holds number
  · have exact : some number = some result := (checked_of_holds holds).symm.trans same
    exact (congrArg some (wrap_of_holds holds)).trans exact
  · exact absurd (same.symm.trans (if_neg holds)) (Option.some_ne_none _)

theorem sound_bind {first : Store → Option First} {second : First → Store → Option Second}
    (start : Sound first) (next : ∀ result, Sound (second result)) :
    Sound fun store => first store >>= fun result => second result store := by
  intro result same
  obtain ⟨middle, found, last⟩ := Option.bind_eq_some_iff.mp same
  exact Option.bind_eq_some_iff.mpr ⟨middle, start middle found, next middle result last⟩

theorem sound_ite {condition : Prop} [Decidable condition] {first second : Store → Option First}
    (yes : Sound first) (no : Sound second) :
    Sound fun store => if condition then first store else second store := by
  by_cases holds : condition
  · simpa only [if_pos holds] using yes
  · simpa only [if_neg holds] using no

end Sound

/-! ### Truncated quotients -/

section Quotient

variable {number divisor bound : ℤ}

theorem tdiv_le (positive : 0 < divisor) (less : number ≤ bound * divisor) :
    number.tdiv divisor ≤ bound :=
  (Int.tdiv_le_tdiv positive less).trans_eq (Int.mul_tdiv_cancel bound positive.ne')

end Quotient

end Urus.MachineInt
