/-
Words that consist of bit fields.

The bit fields of a word are laid out from its low end, and a value assigned to a field is cut to
its width. Reading a field back gives the value modulo a power of two, whatever the other fields
hold.
-/

import Mathlib.Tactic

namespace RocmXio.Lib

/-- A word with the given fields, from the low end on: widths, and the values assigned. -/
def packFields : List (Nat × Nat) → Nat
  | [] => 0
  | (width, value) :: rest => value % 2 ^ width + 2 ^ width * packFields rest

def field (offset width word : Nat) : Nat :=
  word / 2 ^ offset % 2 ^ width

@[simp] theorem field_packFields_head (width value : Nat) (rest : List (Nat × Nat)) :
    field 0 width (packFields ((width, value) :: rest)) = value % 2 ^ width := by
  rw [field, packFields, pow_zero, Nat.div_one, Nat.add_mul_mod_self_left, Nat.mod_mod]

@[simp] theorem field_packFields_tail {offset width : Nat} (above : width ≤ offset)
    (value other : Nat) (rest : List (Nat × Nat)) :
    field offset other (packFields ((width, value) :: rest)) =
      field (offset - width) other (packFields rest) := by
  have positive : 0 < 2 ^ width := Nat.two_pow_pos width
  have cut : value % 2 ^ width < 2 ^ width := Nat.mod_lt _ positive
  have split : 2 ^ offset = 2 ^ width * 2 ^ (offset - width) := by
    rw [← pow_add, Nat.add_sub_cancel' above]
  rw [field, field, packFields, split, ← Nat.div_div_eq_div_mul,
    Nat.add_mul_div_left _ _ positive, Nat.div_eq_of_lt cut, Nat.zero_add]

/-! ### Two words -/

def join (low high : Nat) : Nat :=
  low + 2 ^ 32 * high

/-- `static_cast<uint32_t>(value)` and `static_cast<uint32_t>(value >> 32)` are the two halves
of a value. -/
@[simp] theorem join_halves (value : UInt64) :
    join value.toUInt32.toNat (value >>> 32).toUInt32.toNat = value.toNat := by
  have bound := value.toNat_lt
  simp only [join, UInt64.toNat_toUInt32, UInt64.toNat_shiftRight, UInt64.reduceToNat,
    Nat.reduceMod, Nat.shiftRight_eq_div_pow]
  omega

end RocmXio.Lib
