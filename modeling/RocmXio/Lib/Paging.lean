/-
Byte offsets and pages.

A buffer that is contiguous for its owner lies on pages whose addresses need not follow each other:
a transfer runs to the end of its first page and continues at the beginning of the following ones.
-/

import Mathlib.Tactic

namespace RocmXio.Lib

/-- The address of the byte at `offset` in a buffer whose pages have the given addresses. -/
def translate (size : Nat) (page : Nat → Nat) (offset : Nat) : Nat :=
  page (offset / size) + offset % size

section

variable {size : Nat} (positive : 0 < size) (page : Nat → Nat) (start : Nat) {length : Nat}

include positive

theorem translate_within (within : length < size - start % size) :
    translate size page (start + length) = translate size page start + length := by
  have split := Nat.div_add_mod start size
  have below : start % size + length < size := by omega
  have whole : start + length = size * (start / size) + (start % size + length) := by omega
  rw [translate, translate, whole, Nat.mul_add_div positive, Nat.div_eq_of_lt below,
    Nat.mul_add_mod, Nat.mod_eq_of_lt below, Nat.add_zero]
  omega

/-- Beyond the page a transfer starts in, it runs over the following pages from their
beginning. -/
theorem translate_beyond (beyond : size - start % size ≤ length) :
    translate size page (start + length) =
      page (start / size + 1 + (length - (size - start % size)) / size) +
        (length - (size - start % size)) % size := by
  have split := Nat.div_add_mod start size
  have inside := Nat.mod_lt start positive
  generalize rest : length - (size - start % size) = remainder
  have step : size * (start / size + 1) = size * (start / size) + size := by ring
  have whole : start + length = size * (start / size + 1) + remainder := by omega
  rw [translate, whole, Nat.mul_add_div positive, Nat.mul_add_mod]

end

theorem translate_refine (ratio size : Nat) (page : Nat → Nat) (offset : Nat) :
    translate (ratio * size) page offset =
      translate size (fun index => page (index / ratio) + index % ratio * size) offset := by
  simp only [translate]
  rw [Nat.div_div_eq_div_mul, Nat.mul_comm size ratio, Nat.mul_comm ratio size, Nat.mod_mul,
    Nat.mul_comm size (offset / size % ratio)]
  omega

end RocmXio.Lib
