/-
The deferred doorbell of the mlx5 provider.

Requests that are posted without ringing are announced later by `ring_doorbell_only`, which looks
for the last one in the slot before the tail. The subtraction is made on signed numbers, so that a
tail that has come back to zero leads to slot 65535, outside of the queue. And a queue whose depth
does not divide `2 ^ 16` has its slots shifted from then on.
-/

import RocmXio.Lib.ByteStores
import RocmXio.Lib.Ring

namespace RocmXio.Rdma.Mlx5

open Lib

structure Request where
  opcode : Nat
  ds : Nat
deriving DecidableEq, Repr

/-- The first eight bytes of the control segment: `opmod_idx_opcode` and `qpn_ds`. -/
def controlHeader (qpNum wqeIdx : Nat) (request : Request) : List UInt8 :=
  beBytes 4 (wqeIdx <<< 8 ||| request.opcode) ++
    beBytes 4 (qpNum <<< 8 ||| (request.ds &&& 0x3F))

/-- The send queue with the first eight bytes of each slot, also of the memory behind it. The
number of requests ever posted is history; the 16-bit tail follows it. -/
structure Sq where
  depth : Nat
  qpNum : Nat
  tail : Nat
  buf : Nat → List UInt8
  posted : Nat
  depth_pos : 0 < depth
  depth_lt : depth < 2 ^ 16
  tail_eq : tail = posted % 2 ^ 16

structure Doorbell where
  dbrec : List UInt8
  dbReg : List UInt8
deriving DecidableEq, Repr

namespace Sq

/-- The part of `post_wqe_rma_single` after the poll, without the doorbell. -/
def postWqe (sq : Sq) (request : Request) : Sq where
  depth := sq.depth
  qpNum := sq.qpNum
  tail := (sq.tail + 1) % 2 ^ 16
  buf := store sq.buf [sq.tail % sq.depth] (controlHeader sq.qpNum sq.tail request)
  posted := sq.posted + 1
  depth_pos := sq.depth_pos
  depth_lt := sq.depth_lt
  tail_eq := by rw [sq.tail_eq, Nat.mod_add_mod]

/-- `last` of `ring_doorbell_only`: the operands are promoted to `int`, and the remainder has the
sign of the dividend. -/
def last (sq : Sq) : Nat :=
  (((sq.tail : Int) - 1).tmod sq.depth % 2 ^ 16).toNat

def ringDoorbellOnly (sq : Sq) : Doorbell where
  dbrec := beBytes 4 sq.tail
  dbReg := sq.buf sq.last

/-- The record has the number of requests, and the register the control segment of the last one,
which is in its slot. -/
structure Announces (sq : Sq) (request : Request) : Prop where
  dbrec : sq.ringDoorbellOnly.dbrec = beBytes 4 (sq.posted % 2 ^ 16)
  slot : sq.last = (sq.posted - 1) % sq.depth
  dbReg : sq.ringDoorbellOnly.dbReg = controlHeader sq.qpNum ((sq.posted - 1) % 2 ^ 16) request

/-- The tail is not zero, or there is only one slot, and the passes of the tail over its 16 bits
are whole passes over the queue. -/
def Aligned (sq : Sq) : Prop :=
  (sq.posted % 2 ^ 16 ≠ 0 ∨ sq.depth = 1) ∧ sq.depth ∣ 2 ^ 16 * ((sq.posted - 1) / 2 ^ 16)

theorem last_of_tail_ne_zero {sq : Sq} (nonzero : sq.tail ≠ 0) :
    sq.last = (sq.tail - 1) % sq.depth := by
  have back : (sq.tail : Int) - 1 = ((sq.tail - 1 : Nat) : Int) := by omega
  have below := (Nat.mod_lt (sq.tail - 1) sq.depth_pos).trans sq.depth_lt
  rw [last, back, ← Int.ofNat_tmod]
  omega

theorem last_of_tail_eq_zero {sq : Sq} (zero : sq.tail = 0) :
    sq.last = if sq.depth = 1 then 0 else 65535 := by
  have positive := sq.depth_pos
  rw [last, zero, Nat.cast_zero, zero_sub, Int.neg_tmod]
  split_ifs with one
  · rw [one]
    rfl
  · rw [Int.tmod_eq_of_lt (by decide) (by omega)]
    rfl

/-- The slot a request was stored in is the slot of its number when the 16-bit passes are whole. -/
theorem mod_mod_eq_iff (number depth : Nat) :
    number % 2 ^ 16 % depth = number % depth ↔ depth ∣ 2 ^ 16 * (number / 2 ^ 16) := by
  have whole := Nat.modEq_iff_dvd' (n := depth) (Nat.mod_le number (2 ^ 16))
  rwa [show number - number % 2 ^ 16 = 2 ^ 16 * (number / 2 ^ 16) by omega] at whole

theorem last_eq_iff {sq : Sq} (some : 0 < sq.posted) :
    sq.last = (sq.posted - 1) % sq.depth ↔ sq.Aligned := by
  have tail := sq.tail_eq
  rw [Aligned, ← mod_mod_eq_iff, ← tail]
  by_cases zero : sq.tail = 0
  · have below := Nat.mod_lt (sq.posted - 1) sq.depth_pos
    have short := sq.depth_lt
    rw [last_of_tail_eq_zero zero]
    split_ifs with one
    · simp [one, Nat.mod_one]
    · exact iff_of_false (by omega) fun aligned => aligned.1.elim (absurd zero) one
  · rw [last_of_tail_ne_zero zero, show sq.tail - 1 = (sq.posted - 1) % 2 ^ 16 by omega]
    exact (and_iff_right (.inl zero)).symm

end Sq

/-- After any number of posts the deferred doorbell announces the last request exactly when the
tail has not just come back to zero and the depth fits. -/
theorem ringDoorbellOnly_announces_iff (start : Sq) (requests : List Request) (request : Request) :
    let sq := (requests.foldl Sq.postWqe start).postWqe request
    sq.Announces request ↔ sq.Aligned := by
  intro sq
  set before := requests.foldl Sq.postWqe start
  have positive : 0 < sq.posted := Nat.succ_pos _
  refine ⟨fun announces => (Sq.last_eq_iff positive).mp announces.slot, fun aligned => ?_⟩
  have slot := (Sq.last_eq_iff positive).mpr aligned
  refine ⟨congrArg (beBytes 4) sq.tail_eq, slot, ?_⟩
  have stored : sq.last = before.tail % before.depth := by
    rw [slot, before.tail_eq]
    exact ((Sq.mod_mod_eq_iff _ _).mpr aligned.2).symm
  change store before.buf _ _ sq.last = _
  rw [store_of_mem (List.mem_singleton.mpr stored), before.tail_eq]
  rfl

def nearWrap : Sq where
  depth := 256
  qpNum := 1
  tail := 65535
  buf := fun _ => []
  posted := 65535
  depth_pos := by decide
  depth_lt := by decide
  tail_eq := by decide

/-- One more request, and the register gets what is in slot 65535. -/
theorem nearWrap_misread : (nearWrap.postWqe ⟨8, 3⟩).last = 65535 ∧
      (nearWrap.postWqe ⟨8, 3⟩).ringDoorbellOnly.dbReg = [] ∧
      ¬ (nearWrap.postWqe ⟨8, 3⟩).Announces ⟨8, 3⟩ := by
  refine ⟨by decide, by decide, fun announces => ?_⟩
  exact absurd announces.slot (by decide)

end RocmXio.Rdma.Mlx5
