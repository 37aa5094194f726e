/-
The sizes of the bnxt send queue.

`compute_sq` chains several roundings in 32-bit arithmetic. As long as the length comes out below
`2 ^ 32` in unbounded arithmetic, no step is cut off, every lower bound survives the roundings, and
the table of message sequence numbers that `bnxt_create_qps` puts at the end of the buffer is behind
the ring.
-/

import RocmXio.Lib.Rounding
import RocmXio.Rdma.Bnxt

namespace RocmXio.Rdma.Bnxt

open Lib

structure SqSizing where
  slots : Nat
  wqeSz : Nat
  npsn : Nat
  psnSz : Nat
  len : Nat
deriving DecidableEq, Repr

/-- `compute_sq` for a page size, with all its results. -/
def sqSizing (pageSize maxSendWr maxSendSge maxInlineData : Nat) : SqSizing :=
  let slots := computeSq maxSendWr maxSendSge maxInlineData
  let npsn := roundupPow2 slots % 2 ^ 32
  { slots
    wqeSz := wqeSize maxSendSge maxInlineData
    npsn
    psnSz := 8
    len := alignUp ((slots * 16 % 2 ^ 32 + npsn * 8 % 2 ^ 32) % 2 ^ 32) pageSize }

/-- Where `bnxt_create_qps` puts the table, in bytes from the start of the buffer. -/
def SqSizing.msnOff (sizing : SqSizing) : Nat :=
  (sizing.len + 2 ^ 64 - sizing.psnSz * sizing.npsn) % 2 ^ 64

def exactWqeSize (maxSendSge maxInlineData : Nat) : Nat :=
  let size := 16 * maxSendSge + 32
  let inlined := 32 + roundUp maxInlineData 16
  if maxInlineData > 0 then roundUp (if inlined > size then inlined else size) 16 else size

/-- `compute_sq` in unbounded arithmetic. -/
def exactSizing (pageSize maxSendWr maxSendSge maxInlineData : Nat) : SqSizing :=
  let wqeSz := exactWqeSize maxSendSge maxInlineData
  let slots := roundUp (roundupPow2 (maxSendWr + 1 + 128) * wqeSz / 16) 256
  let npsn := roundupPow2 slots
  { slots, wqeSz, npsn, psnSz := 8, len := roundUp (slots * 16 + npsn * 8) pageSize }

/-- The slots of 16 bytes that a request can take: two for its header, and behind them either its
entries, of one slot each, or the data itself. -/
def slotsPerWqe (maxSendSge maxInlineData : Nat) : Nat :=
  2 + max maxSendSge ((maxInlineData + 15) / 16)

/-- There are slots for the requests and table entries for the slots, in the numbers that the
hardware wants, and only the ring and the table behind it are in the buffer, which is made of whole
pages. -/
structure SqSizing.Sound (sizing : SqSizing)
    (pageSize maxSendWr maxSendSge maxInlineData : Nat) : Prop where
  wqeSz_eq : sizing.wqeSz = 16 * slotsPerWqe maxSendSge maxInlineData
  slots_aligned : 256 ∣ sizing.slots
  slots_enough : maxSendWr * slotsPerWqe maxSendSge maxInlineData ≤ sizing.slots
  npsn_power : ∃ order, sizing.npsn = 2 ^ order
  npsn_enough : sizing.slots ≤ sizing.npsn
  psnSz_eq : sizing.psnSz = 8
  apart : 16 * sizing.slots ≤ sizing.msnOff
  inside : sizing.msnOff + 8 * sizing.npsn ≤ sizing.len
  len_aligned : pageSize ∣ sizing.len

/-! ### Powers of two -/

theorem roundupPow2_spec {n : Nat} (positive : 1 ≤ n) (small : n ≤ 2 ^ 64) :
    ∃ order, roundupPow2 n = 2 ^ order ∧ n ≤ 2 ^ order ∧
      ∀ other, n ≤ 2 ^ other → order ≤ other := by
  rw [roundupPow2]
  split_ifs with one
  · exact ⟨0, rfl, one, fun _ _ => Nat.zero_le _⟩
  · have nonzero : n - 1 ≠ 0 := by omega
    have top : Nat.log2 (n - 1) + 1 ≤ 64 := (Nat.log2_lt nonzero).mpr (show n - 1 < 2 ^ 64 by omega)
    have full := (smeared_one nonzero).double.double.double.double.double.double.eq top
    have above : n - 1 < 2 ^ (Nat.log2 (n - 1) + 1) := Nat.lt_log2_self
    refine ⟨_, full, by omega, fun other enough => ?_⟩
    exact (Nat.log2_lt nonzero).mpr (show n - 1 < 2 ^ other by omega)

theorem roundupPow2_isLeast {n : Nat} (positive : 1 ≤ n) (small : n ≤ 2 ^ 63) :
    IsLeast {power | (∃ order, power = 2 ^ order) ∧ n ≤ power} (roundupPow2 n) := by
  obtain ⟨order, power, enough, least⟩ := roundupPow2_spec positive (small.trans (by decide))
  rw [power]
  refine ⟨⟨⟨order, rfl⟩, enough⟩, ?_⟩
  rintro _ ⟨⟨other, rfl⟩, fits⟩
  exact Nat.pow_le_pow_right two_pos (least other fits)

theorem le_roundupPow2 (n : Nat) : n ≤ roundupPow2 n := by
  rw [roundupPow2]
  split_ifs with one
  · exact one
  · refine Nat.le_add_of_sub_le ?_
    iterate 6 refine Nat.le_trans ?_ Nat.left_le_or
    exact le_refl _

/-! ### No step is cut off -/

theorem alignUp_eq {value alignment : Nat} (positive : 0 < alignment) (divides : alignment ∣ 2 ^ 32)
    (fits : roundUp value alignment < 2 ^ 32) :
    alignUp value alignment = roundUp value alignment := by
  rw [alignUp, Nat.mod_eq_of_lt (roundUp_word positive divides fits), roundUp]

theorem exactWqeSize_eq (maxSendSge maxInlineData : Nat) :
    exactWqeSize maxSendSge maxInlineData = 16 * slotsPerWqe maxSendSge maxInlineData := by
  simp only [exactWqeSize, slotsPerWqe]
  split_ifs with inlined larger
  · simp only [roundUp] at larger ⊢
    omega
  · simp only [roundUp] at larger ⊢
    omega
  · omega

theorem wqeSize_eq {maxSendSge maxInlineData : Nat}
    (fits : exactWqeSize maxSendSge maxInlineData < 2 ^ 32) :
    wqeSize maxSendSge maxInlineData = exactWqeSize maxSendSge maxInlineData := by
  by_cases inlined : maxInlineData > 0
  · simp only [exactWqeSize, wqeSize, if_pos inlined] at fits ⊢
    set larger := if 32 + roundUp maxInlineData 16 > 16 * maxSendSge + 32 then
      32 + roundUp maxInlineData 16 else 16 * maxSendSge + 32 with larger_eq
    have most : larger < 2 ^ 32 := (le_roundUp (by decide) larger).trans_lt fits
    have both : 32 + roundUp maxInlineData 16 ≤ larger ∧ 16 * maxSendSge + 32 ≤ larger := by
      rw [larger_eq]
      split_ifs <;> omega
    rw [alignUp_eq (by decide) (by decide) (show roundUp maxInlineData 16 < 2 ^ 32 by omega),
      Nat.mod_eq_of_lt (show 32 + _ < 2 ^ 32 by omega),
      Nat.mod_eq_of_lt (show 16 * maxSendSge + 32 < 2 ^ 32 by omega), ← larger_eq,
      alignUp_eq (by decide) (by decide) fits]
  · simp only [exactWqeSize, wqeSize, if_neg inlined] at fits ⊢
    exact Nat.mod_eq_of_lt fits

section

variable {pageSize maxSendWr maxSendSge maxInlineData : Nat}

theorem exactSizing_le (positive : 0 < pageSize) (maxSendWr maxSendSge maxInlineData : Nat) :
    let sizing := exactSizing pageSize maxSendWr maxSendSge maxInlineData
    roundupPow2 (maxSendWr + 1 + 128) * slotsPerWqe maxSendSge maxInlineData ≤ sizing.slots ∧
      16 * sizing.slots + 8 * sizing.npsn ≤ sizing.len := by
  intro sizing
  have slots : _ ≤ sizing.slots := le_roundUp (show 0 < 256 by decide)
    (roundupPow2 (maxSendWr + 1 + 128) * exactWqeSize maxSendSge maxInlineData / 16)
  have len : _ ≤ sizing.len := le_roundUp positive (sizing.slots * 16 + sizing.npsn * 8)
  rw [exactWqeSize_eq, Nat.mul_left_comm, Nat.mul_div_cancel_left _ (by decide)] at slots
  omega

theorem sqSizing_eq (positive : 0 < pageSize) (divides : pageSize ∣ 2 ^ 32)
    (fits : (exactSizing pageSize maxSendWr maxSendSge maxInlineData).len < 2 ^ 32) :
    sqSizing pageSize maxSendWr maxSendSge maxInlineData =
      exactSizing pageSize maxSendWr maxSendSge maxInlineData := by
  obtain ⟨ring, buffer⟩ := exactSizing_le positive maxSendWr maxSendSge maxInlineData
  have requests := le_roundupPow2 (maxSendWr + 1 + 128)
  have wqeSz_eq := exactWqeSize_eq maxSendSge maxInlineData
  have least : 2 ≤ slotsPerWqe maxSendSge maxInlineData := Nat.le_add_right _ _
  simp only [exactSizing] at ring buffer fits
  set wqeSz := exactWqeSize maxSendSge maxInlineData
  set count := roundupPow2 (maxSendWr + 1 + 128) with count_eq
  set slots := roundUp (count * wqeSz / 16) 256
  have product : count * wqeSz ≤ 16 * slots := by
    rw [wqeSz_eq, Nat.mul_left_comm]
    exact Nat.mul_le_mul_left 16 ring
  have countSmall : count ≤ count * wqeSz := Nat.le_mul_of_pos_right count (by omega)
  have wqeSmall : wqeSz ≤ count * wqeSz := Nat.le_mul_of_pos_left wqeSz (by omega)
  have size : wqeSize maxSendSge maxInlineData = wqeSz := wqeSize_eq (by omega)
  have computed : computeSq maxSendWr maxSendSge maxInlineData = slots := by
    rw [computeSq, size, Nat.mod_eq_of_lt (show maxSendWr + 1 + 128 < 2 ^ 32 by omega), ← count_eq,
      Nat.mod_eq_of_lt (show count < 2 ^ 32 by omega),
      Nat.mod_eq_of_lt (show count * wqeSz < 2 ^ 32 by omega),
      alignUp_eq (by decide) (by decide) (by omega)]
  simp only [sqSizing, exactSizing, computed, size]
  rw [Nat.mod_eq_of_lt (show roundupPow2 slots < 2 ^ 32 by omega),
    Nat.mod_eq_of_lt (show slots * 16 < 2 ^ 32 by omega),
    Nat.mod_eq_of_lt (show roundupPow2 slots * 8 < 2 ^ 32 by omega),
    Nat.mod_eq_of_lt (show slots * 16 + roundupPow2 slots * 8 < 2 ^ 32 by omega),
    alignUp_eq positive divides fits]

/-- `roundup_pow2` rounds up to a power of two, and what `compute_sq` computes is sound whenever
the length fits 32 bits. -/
theorem computeSq_sound (positive : 0 < pageSize) (divides : pageSize ∣ 2 ^ 32)
    (fits : (exactSizing pageSize maxSendWr maxSendSge maxInlineData).len < 2 ^ 32) :
    (∀ n, 1 ≤ n → n ≤ 2 ^ 63 →
      IsLeast {power | (∃ order, power = 2 ^ order) ∧ n ≤ power} (roundupPow2 n)) ∧
    (sqSizing pageSize maxSendWr maxSendSge maxInlineData).Sound pageSize maxSendWr maxSendSge
      maxInlineData := by
  refine ⟨fun n => roundupPow2_isLeast, ?_⟩
  rw [sqSizing_eq positive divides fits]
  obtain ⟨ring, buffer⟩ := exactSizing_le positive maxSendWr maxSendSge maxInlineData
  have requests : maxSendWr + 129 ≤ _ := le_roundupPow2 (maxSendWr + 1 + 128)
  have most := (Nat.mul_le_mul_right (slotsPerWqe maxSendSge maxInlineData) requests).trans ring
  have least : 2 ≤ slotsPerWqe maxSendSge maxInlineData := Nat.le_add_right _ _
  rw [Nat.add_mul] at most
  have wqeSz : (exactSizing pageSize maxSendWr maxSendSge maxInlineData).wqeSz = _ :=
    exactWqeSize_eq maxSendSge maxInlineData
  have pages : pageSize ∣ (exactSizing pageSize maxSendWr maxSendSge maxInlineData).len :=
    dvd_roundUp _ _
  have npsn : (exactSizing pageSize maxSendWr maxSendSge maxInlineData).npsn =
    roundupPow2 (exactSizing pageSize maxSendWr maxSendSge maxInlineData).slots := rfl
  have aligned : 256 ∣ (exactSizing pageSize maxSendWr maxSendSge maxInlineData).slots :=
    dvd_roundUp _ _
  have psnSz : (exactSizing pageSize maxSendWr maxSendSge maxInlineData).psnSz = 8 := rfl
  generalize exactSizing pageSize maxSendWr maxSendSge maxInlineData = sizing at *
  obtain ⟨order, power, enough, -⟩ :=
    roundupPow2_spec (show 1 ≤ sizing.slots by omega) (by omega)
  have offset : sizing.msnOff = sizing.len - 8 * sizing.npsn := by
    rw [SqSizing.msnOff, psnSz]
    omega
  refine ⟨wqeSz, aligned, (Nat.le_add_right _ _).trans most, ⟨order, npsn.trans power⟩, ?_, psnSz,
    ?_, ?_, pages⟩
  · rw [npsn]
    exact le_roundupPow2 _
  · omega
  · omega

/-- The default configuration. -/
theorem computeSq_sound_default :
    (exactSizing 4096 256 1 28).len < 2 ^ 32 ∧ (sqSizing 4096 256 1 28).Sound 4096 256 1 28 :=
  ⟨by decide, (computeSq_sound (by decide) (by decide) (by decide)).2⟩

end

end RocmXio.Rdma.Bnxt
