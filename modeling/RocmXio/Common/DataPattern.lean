/-
The data pattern that the endpoints write and check.

A byte of the pattern depends on a seed, on the first block of the transfer and on its position,
mixed such that every byte is as frequent as any other.
-/

import Mathlib.Data.Int.CardIntervalMod
import RocmXio.Lib.Mixing

namespace RocmXio.Common

open Lib Function

/-- `DataPatternParams` without its buffer. -/
structure DataPatternParams where
  size : Nat
  offset : Nat
  blockSize : Nat
  seed : UInt32

namespace DataPatternParams

def block (params : DataPatternParams) : Nat :=
  params.offset / params.blockSize

/-- `rng` for the byte at `i` before it is cut to a byte. The sums are made in 64 bits and
kept in 32. -/
def word (params : DataPatternParams) (i : Nat) : UInt32 :=
  let baseSeed := UInt32.ofNat (params.block * 0x12345678)
  let seed := baseSeed ^^^ params.seed
  let rng := UInt32.ofNat (params.block * 0x9e3779b9 + seed.toNat + i)
  let rng := rng ^^^ (rng >>> 16)
  let rng := rng * 0x85ebca6b
  let rng := rng ^^^ (rng >>> 13)
  let rng := rng * 0xc2b2ae35
  rng ^^^ (rng >>> 16)

/-- `expected` for the byte at `i`. -/
def expected (params : DataPatternParams) (i : Nat) : UInt8 :=
  (params.word i).toUInt8

/-- `*errorOffset`: the first byte that differs from the pattern. -/
def errorOffset (params : DataPatternParams) (buffer : Nat → UInt8) : Option Nat :=
  (List.range params.size).find? fun i => buffer i != params.expected i

/-- `dataPattern`: its result, and the buffer it leaves. -/
def dataPattern (isVerify : Bool) (params : DataPatternParams) (buffer : Nat → UInt8) :
    Bool × (Nat → UInt8) :=
  if isVerify then ((params.errorOffset buffer).isNone, buffer)
  else (true, fun i => if i < params.size then params.expected i else buffer i)

section

variable {params : DataPatternParams} {buffer : Nat → UInt8}

theorem dataPattern_verify_iff : (dataPattern true params buffer).1 = true ↔
    ∀ i < params.size, buffer i = params.expected i := by
  rw [dataPattern, if_pos rfl, Option.isNone_iff_eq_none, errorOffset, List.find?_eq_none]
  simp

theorem dataPattern_fill {i : Nat} (inside : i < params.size) :
    (dataPattern false params buffer).2 i = params.expected i :=
  if_pos inside

end

/-! ### The quality of the pattern -/

variable (params : DataPatternParams)

/-- The steps after the sum can be undone. -/
theorem exists_mix : ∃ base mix, Bijective mix ∧
    ∀ i, params.word i = mix (UInt32.ofNat (base + i)) := by
  have half : Injective fun word : UInt32 => word ^^^ word >>> 16 :=
    xorShift_uint32_injective (by decide)
  have third : Injective fun word : UInt32 => word ^^^ word >>> 13 :=
    xorShift_uint32_injective (by decide)
  have first : Injective fun word : UInt32 => word * 0x85ebca6b :=
    mul_uint32_injective _ 0xa5cb9243 (by decide)
  have second : Injective fun word : UInt32 => word * 0xc2b2ae35 :=
    mul_uint32_injective _ 0x7ed1b41d (by decide)
  have mixes := half.comp (second.comp (third.comp (first.comp half)))
  exact ⟨_, _, Finite.injective_iff_bijective.mp mixes, fun _ => rfl⟩

theorem word_bijOn (start : Nat) :
    Set.BijOn params.word (Set.Ico start (start + 2 ^ 32)) Set.univ := by
  obtain ⟨base, mix, bijective, word⟩ := params.exists_mix
  refine ⟨fun _ _ => trivial, fun i inside j alsoInside same => ?_, fun rng _ => ?_⟩
  · rw [word, word] at same
    have sums := congrArg UInt32.toNat (bijective.1 same)
    rw [UInt32.toNat_ofNat', UInt32.toNat_ofNat'] at sums
    simp only [Set.mem_Ico] at inside alsoInside
    omega
  · obtain ⟨sum, mixed⟩ := bijective.2 rng
    have small := sum.toNat_lt
    refine ⟨start + (sum.toNat + 2 ^ 32 - (base + start) % 2 ^ 32) % 2 ^ 32, ?_, ?_⟩
    · simp only [Set.mem_Ico]
      omega
    · rw [word, ← mixed]
      refine congrArg mix ((UInt32.ofNat_eq_iff_mod_eq_toNat _ _).mpr ?_)
      omega

theorem card_expected (start : Nat) (value : UInt8) :
    ((Finset.Ico start (start + 2 ^ 32)).filter (params.expected · = value)).card = 2 ^ 24 := by
  obtain ⟨-, distinct, all⟩ := params.word_bijOn start
  have count := Nat.count_modEq_card (2 ^ 32) (r := 256) (by decide) value.toNat
  have even : ¬ value.toNat % 256 < 2 ^ 32 % 256 := Nat.not_lt_zero _
  rw [Nat.count_eq_card_filter_range, if_neg even] at count
  have byte : ∀ word : UInt32, word.toUInt8 = value ↔ word.toNat ≡ value.toNat [MOD 256] := by
    intro word
    have small : value.toNat % 256 = value.toNat := Nat.mod_eq_of_lt value.toNat_lt
    rw [← UInt8.toNat_inj, UInt32.toNat_toUInt8, Nat.ModEq, small]
  refine (Finset.card_nbij (fun i => (params.word i).toNat) ?_ ?_ ?_).trans count
  · intro i member
    rw [Finset.mem_coe, Finset.mem_filter] at member ⊢
    exact ⟨Finset.mem_range.mpr (params.word i).toNat_lt, (byte _).mp member.2⟩
  · intro i member j alsoMember same
    rw [Finset.mem_coe, Finset.mem_filter, Finset.mem_Ico] at member alsoMember
    exact distinct member.1 alsoMember.1 (UInt32.toNat_inj.mp same)
  · intro number member
    rw [Finset.mem_coe, Finset.mem_filter, Finset.mem_range] at member
    obtain ⟨i, inside, found⟩ := all (Set.mem_univ (UInt32.ofNat number))
    have same : (params.word i).toNat = number := by
      rw [found, UInt32.toNat_ofNat', Nat.mod_eq_of_lt member.1]
    refine ⟨i, ?_, same⟩
    rw [Finset.mem_coe, Finset.mem_filter, Finset.mem_Ico]
    exact ⟨inside, (byte _).mpr (same ▸ member.2)⟩

/-- The words of `2 ^ 32` positions are all words, so every byte is as frequent as any other; and
the pattern is verified exactly where it was generated. -/
theorem dataPattern_quality : Set.BijOn params.word (Set.Ico 0 (2 ^ 32)) Set.univ ∧
    (∀ start value, ((Finset.Ico start (start + 2 ^ 32)).filter
      (params.expected · = value)).card = 2 ^ 24) ∧
    ∀ buffer memory, ((dataPattern true params buffer).1 = true ↔
        ∀ i < params.size, buffer i = (dataPattern false params memory).2 i) ∧
      ((dataPattern true params buffer).1 = false → ∃ i ∈ params.errorOffset buffer,
        IsLeast {i | i < params.size ∧ buffer i ≠ (dataPattern false params memory).2 i} i) := by
  refine ⟨params.word_bijOn 0, params.card_expected, fun buffer memory => ⟨?_, fun fails => ?_⟩⟩
  · rw [dataPattern_verify_iff]
    refine forall₂_congr fun i inside => ?_
    rw [dataPattern_fill inside]
  · rw [dataPattern, if_pos rfl, Option.isNone_eq_false_iff] at fails
    obtain ⟨i, found⟩ := Option.isSome_iff_exists.mp fails
    obtain ⟨differs, inside, before⟩ := List.find?_range_eq_some.mp found
    have inside := List.mem_range.mp inside
    refine ⟨i, found, ⟨inside, ?_⟩, fun j member => ?_⟩
    · rw [dataPattern_fill inside]
      exact bne_iff_ne.mp differs
    · rw [Set.mem_ofPred_eq] at member
      by_contra earlier
      have agrees := before j (Nat.lt_of_not_le earlier)
      rw [dataPattern_fill member.1] at member
      simp [member.2] at agrees

end DataPatternParams

end RocmXio.Common
