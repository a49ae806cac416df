import Mathlib

/-!
# Values as bytes

The values of a countable type can be written as bytes and read back: as many
bytes as the number of the value.
-/

namespace DripStone.Library

instance countableChar : Countable Char :=
  Function.Injective.countable fun _ _ => Char.toNat_inj.mp

instance countableUInt8 : Countable UInt8 :=
  Function.Injective.countable fun _ _ => UInt8.toNat_inj.mp

variable {α : Type} [Countable α]

noncomputable def countedBytes (value : α) : List UInt8 :=
  List.replicate (Classical.choose (exists_injective_nat α) value + 1) 0

theorem countedBytes_injective :
    Function.Injective (countedBytes : α → List UInt8) := by
  intro first second same
  have injective := Classical.choose_spec (exists_injective_nat α)
  have lengths := congrArg List.length same
  simp only [countedBytes, List.length_replicate] at lengths
  exact injective (Nat.succ_injective lengths)

open Classical in
/-- The value that some bytes were written for. -/
noncomputable def countedValue (bytes : List UInt8) : Option α :=
  if written : ∃ value : α, countedBytes value = bytes then
    some written.choose
  else none

theorem countedValue_countedBytes (value : α) :
    countedValue (countedBytes value) = some value := by
  have written : ∃ other : α, countedBytes other = countedBytes value :=
    ⟨value, rfl⟩
  rw [countedValue, dif_pos written]
  exact congrArg some (countedBytes_injective written.choose_spec)

theorem length_countedBytes_pos (value : α) :
    0 < (countedBytes value).length := by
  simp [countedBytes]

end DripStone.Library
