/-
Counters and masks.

The code that drives a ring whose size is a power of two reads slot and pass of a counter with two
masks: the low bits are the slot, the bit above them the parity of the pass.
-/

import Mathlib.Data.Nat.Bitwise
import RocmXio.Lib.Window

namespace RocmXio.Lib

theorem and_two_pow_eq_zero_iff (value order : Nat) :
    value &&& 2 ^ order = 0 ↔ value / 2 ^ order % 2 = 0 := by
  rw [Nat.and_two_pow, Nat.testBit_eq_decide_div_mod_eq]
  rcases Nat.mod_two_eq_zero_or_one (value / 2 ^ order) with even | odd
  · simp [even]
  · simp [odd]

theorem and_two_pow_eq_passTag (value order : Nat) :
    decide (value &&& 2 ^ order = 0) = passTag (2 ^ order) value := by
  exact decide_eq_decide.mpr (and_two_pow_eq_zero_iff value order)

end RocmXio.Lib
