/-
Rounding up to powers of two and to multiples.

The classical way to round up to a power of two sets all bits below the highest one by shifts of
doubling width.
-/

import Mathlib.Data.Nat.Bitwise
import Mathlib.Data.Nat.Log
import Mathlib.Tactic

namespace RocmXio.Lib

/-- All bits below `top` are clear from `top` on, and the `width` bits below it are set. -/
structure Smeared (value top width : Nat) : Prop where
  small : value < 2 ^ top
  set : ∀ bit < top, top ≤ bit + width → value.testBit bit

theorem smeared_one {value : Nat} (positive : value ≠ 0) :
    Smeared value (Nat.log2 value + 1) 1 where
  small := Nat.lt_log2_self
  set := by
    intro bit below near
    rw [show bit = Nat.log2 value by omega]
    exact Nat.testBit_log2 positive

theorem Smeared.double {value top width : Nat} (smeared : Smeared value top width) :
    Smeared (value ||| value >>> width) top (2 * width) where
  small := Nat.or_lt_two_pow smeared.small ((Nat.shiftRight_le value width).trans_lt smeared.small)
  set := by
    intro bit below near
    rw [Nat.testBit_or, Nat.testBit_shiftRight, Bool.or_eq_true]
    rcases Nat.lt_or_ge (bit + width) top with lower | upper
    · exact .inr (smeared.set (width + bit) (by omega) (by omega))
    · exact .inl (smeared.set bit below upper)

theorem Smeared.eq {value top width : Nat} (smeared : Smeared value top width)
    (wide : top ≤ width) : value + 1 = 2 ^ top := by
  have full : value = 2 ^ top - 1 := by
    refine Nat.eq_of_testBit_eq fun bit => ?_
    rw [Nat.testBit_two_pow_sub_one]
    by_cases below : bit < top
    · rw [smeared.set bit below (by omega), decide_eq_true below]
    · rw [decide_eq_false below]
      exact Nat.testBit_lt_two_pow
        (smeared.small.trans_le (Nat.pow_le_pow_right two_pos (Nat.le_of_not_lt below)))
  have positive := Nat.two_pow_pos top
  omega

def roundUp (value alignment : Nat) : Nat :=
  (value + alignment - 1) / alignment * alignment

theorem le_roundUp {alignment : Nat} (positive : 0 < alignment) (value : Nat) :
    value ≤ roundUp value alignment := by
  have parts := Nat.div_add_mod (value + alignment - 1) alignment
  have below := Nat.mod_lt (value + alignment - 1) positive
  rw [Nat.mul_comm] at parts
  rw [roundUp]
  omega

theorem dvd_roundUp (value alignment : Nat) : alignment ∣ roundUp value alignment :=
  Nat.dvd_mul_left _ _

theorem roundUp_word {value alignment word : Nat} (positive : 0 < alignment)
    (divides : alignment ∣ word) (fits : roundUp value alignment < word) :
    value + alignment - 1 < word := by
  obtain ⟨count, whole⟩ := dvd_roundUp value alignment
  obtain ⟨all, rfl⟩ := divides
  have most : (count + 1) * alignment ≤ all * alignment := by
    rw [whole, Nat.mul_lt_mul_left positive] at fits
    exact Nat.mul_le_mul_right alignment fits
  have least := le_roundUp positive value
  rw [whole, Nat.mul_comm] at least
  rw [Nat.add_mul, Nat.one_mul] at most
  rw [Nat.mul_comm alignment all]
  omega

end RocmXio.Lib
