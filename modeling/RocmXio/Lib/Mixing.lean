/-
Words that are mixed without loss.

A word xored with itself shifted, or multiplied by a factor that has an inverse, can be told apart
from every other one, so that chains of such steps permute the words.
-/

import Mathlib.Tactic

namespace RocmXio.Lib

open Function

theorem xorShift_injective {width shift : Nat} (positive : 0 < shift) :
    Injective fun word : BitVec width => word ^^^ word >>> shift := by
  intro first second same
  -- From the top down: each bit is xored with a higher one, which agrees already.
  have bits : ∀ count i, width ≤ i + count → first.getLsbD i = second.getLsbD i := by
    intro count
    induction count with
    | zero =>
      intro i high
      rw [BitVec.getLsbD_of_ge first i high, BitVec.getLsbD_of_ge second i high]
    | succ count inductionHypothesis =>
      intro i high
      have mixed := congrArg (BitVec.getLsbD · i) same
      simp only [BitVec.getLsbD_xor, BitVec.getLsbD_ushiftRight,
        inductionHypothesis (shift + i) (by omega)] at mixed
      exact Bool.xor_left_inj.mp mixed
  exact BitVec.eq_of_getLsbD_eq fun i _ => bits width i (by omega)

theorem xorShift_uint32_injective {shift : UInt32} (positive : 0 < (shift.toBitVec % 32).toNat) :
    Injective fun word : UInt32 => word ^^^ word >>> shift := by
  intro first second same
  have bits := congrArg UInt32.toBitVec same
  simp only [UInt32.toBitVec_xor, UInt32.toBitVec_shiftRight] at bits
  exact UInt32.toBitVec_inj.mp (xorShift_injective positive bits)

theorem mul_uint32_injective (factor inverse : UInt32) (unit : factor * inverse = 1) :
    Injective fun word : UInt32 => word * factor := by
  intro first second same
  have undone := congrArg (· * inverse) same
  simpa only [UInt32.mul_assoc, unit, UInt32.mul_one] using undone

instance finite_uint32 : Finite UInt32 :=
  .of_injective UInt32.toFin fun _ _ => UInt32.toFin_inj.mp

end RocmXio.Lib
