/-
The table of message sequence numbers and the doorbell of the bnxt send queue.

Each posted request gets an entry in a table that the hardware searches when it has to send again:
the slot of the request, and the numbers of its first packet and of the first packet after it. Three
counters run at once, the packet number in 24 bits of a 32-bit word, the place in the table, and
the slot with the parity of its passes; the request is announced by a doorbell with the last two.
A queue of fewer than three slots never lets a request be written.
-/

import RocmXio.Lib.BitFields
import RocmXio.Rdma.Bnxt

namespace RocmXio.Rdma.Bnxt

open Lib

/-- What posting a request changes in the send queue, beside the request itself. The table is kept
by entries of eight bytes; the lengths of the messages posted so far are history. -/
structure Sq where
  depth : Nat
  id : Nat
  mtu : Nat
  msnTblSz : Nat
  tail : Nat := 0
  epochTail : Bool := false
  psn : Nat := 0
  msn : Nat := 0
  msntbl : Nat → Nat := fun _ => 0
  posted : List Nat := []

namespace Sq

def updateMsnTbl (stIdx npsn startPsn : Nat) : Nat :=
  (stIdx <<< 48 &&& 0xFFFF000000000000) ||| (npsn <<< 24 &&& 0xFFFFFF000000) |||
    (startPsn &&& 0xFFFFFF)

/-- `pkt_cnt` for a message. -/
def pktCnt (sq : Sq) (msgLen : Nat) : Nat :=
  let count := msgLen / sq.mtu % 2 ^ 32
  let count := if msgLen % sq.mtu ≠ 0 then (count + 1) % 2 ^ 32 else count
  if msgLen = 0 then 1 else count

def nextPsn (sq : Sq) (msgLen : Nat) : Nat :=
  (sq.psn + sq.pktCnt msgLen) % 2 ^ 32

def msnEntry (sq : Sq) (msgLen : Nat) : Nat :=
  updateMsnTbl sq.tail (sq.nextPsn msgLen) sq.psn

def fillPsnsForMsntbl (sq : Sq) (msgLen : Nat) : Sq :=
  { sq with
    psn := sq.nextPsn msgLen
    msn := (sq.msn + 1) % 2 ^ 32 % sq.msnTblSz
    msntbl := Function.update sq.msntbl sq.msn (sq.msnEntry msgLen) }

/-- `bnxt_re_incr_tail`: the epoch flips when the tail leaves the ring. -/
def incrTail (sq : Sq) : Sq :=
  let tail := sq.tail + slotCount
  { sq with
    tail := if tail ≥ sq.depth then tail % sq.depth else tail
    epochTail := if tail ≥ sq.depth then !sq.epochTail else sq.epochTail }

/-- `ring_doorbell` for the tail. -/
def ringDoorbell (sq : Sq) : Nat :=
  let keyLo := sq.tail ||| sq.epochTail.toNat <<< 24
  let keyHi := (sq.id &&& 0xFFFFF) ||| 1 <<< 26
  keyLo ||| keyHi <<< 32

/-- A request for a message is written, once `poll_cq_until` has found its slots. -/
def post (sq : Sq) (msgLen : Nat) : Option Sq :=
  if slotCount ≤ sq.depth then
    some { (sq.fillPsnsForMsntbl msgLen).incrTail with posted := sq.posted ++ [msgLen] }
  else none

def packets (mtu msgLen : Nat) : Nat :=
  max 1 ((msgLen + mtu - 1) / mtu)

/-- The number of the packet that follows those of some messages. -/
def psnAfter (mtu : Nat) (lengths : List Nat) : Nat :=
  (lengths.map (packets mtu)).sum

/-- What posting a message has done: its entry in the table is that of its number, with its slot and
the numbers of its first packet and of the one after its last, with which the next entry begins; and
the doorbell has the slots produced so far, with the parity of the passes over the ring. -/
structure Posted (sq next : Sq) (msgLen : Nat) : Prop where
  entry : next.msntbl =
    Function.update sq.msntbl (sq.posted.length % sq.msnTblSz) (sq.msnEntry msgLen)
  slot : field 48 16 (sq.msnEntry msgLen) = slotCount * sq.posted.length % sq.depth
  start : field 0 24 (sq.msnEntry msgLen) = psnAfter sq.mtu sq.posted % 2 ^ 24
  after : field 24 24 (sq.msnEntry msgLen) =
    (psnAfter sq.mtu sq.posted + packets sq.mtu msgLen) % 2 ^ 24
  shared : ∀ following, field 0 24 (next.msnEntry following) = field 24 24 (sq.msnEntry msgLen)
  index : field 0 24 next.ringDoorbell = slotCount * (sq.posted.length + 1) % sq.depth
  epoch : field 24 1 next.ringDoorbell = slotCount * (sq.posted.length + 1) / sq.depth % 2

/-! ### Words -/

theorem field_updateMsnTbl (stIdx npsn startPsn : Nat) :
    field 0 24 (updateMsnTbl stIdx npsn startPsn) = startPsn % 2 ^ 24 ∧
      field 24 24 (updateMsnTbl stIdx npsn startPsn) = npsn % 2 ^ 24 ∧
      field 48 16 (updateMsnTbl stIdx npsn startPsn) = stIdx % 2 ^ 16 := by
  have low : (0xFFFFFF : Nat) = 2 ^ 24 - 1 := rfl
  have middle : (0xFFFFFF000000 : Nat) = (2 ^ 24 - 1) <<< 24 := rfl
  have high : (0xFFFF000000000000 : Nat) = (2 ^ 16 - 1) <<< 48 := rfl
  refine ⟨?_, ?_, ?_⟩ <;> refine Nat.eq_of_testBit_eq fun bit => ?_ <;>
    simp only [field, updateMsnTbl, low, middle, high, Nat.testBit_mod_two_pow,
      Nat.testBit_div_two_pow, Nat.testBit_or, Nat.testBit_and, Nat.testBit_shiftLeft,
      Nat.testBit_two_pow_sub_one] <;>
    grind

theorem field_ringDoorbell {sq : Sq} (short : sq.tail < 2 ^ 24) :
    field 0 24 sq.ringDoorbell = sq.tail ∧ field 24 1 sq.ringDoorbell = sq.epochTail.toNat := by
  have bit := sq.epochTail.toNat_lt
  have low : sq.tail ||| sq.epochTail.toNat <<< 24 = 2 ^ 24 * sq.epochTail.toNat + sq.tail := by
    rw [Nat.two_pow_add_eq_or_of_lt short, Nat.shiftLeft_eq, Nat.mul_comm, Nat.or_comm]
  have whole : ∀ word high : Nat, word < 2 ^ 32 → word ||| high <<< 32 = 2 ^ 32 * high + word := by
    intro word high below
    rw [Nat.two_pow_add_eq_or_of_lt below, Nat.shiftLeft_eq, Nat.mul_comm, Nat.or_comm]
  rw [ringDoorbell, low, whole _ _ (by omega), field, field]
  omega

/-! ### Counters -/

structure Invariant (sq : Sq) : Prop where
  depth_le : sq.depth ≤ 2 ^ 16
  msnTblSz_pos : 0 < sq.msnTblSz
  msnTblSz_lt : sq.msnTblSz < 2 ^ 32
  tail : slotCount ≤ sq.depth → sq.tail = slotCount * sq.posted.length % sq.depth
  epochTail : sq.epochTail = !passTag sq.depth (slotCount * sq.posted.length)
  psn : sq.psn = psnAfter sq.mtu sq.posted % 2 ^ 32
  msn : sq.msn = sq.posted.length % sq.msnTblSz

theorem packets_eq (mtu msgLen : Nat) : packets mtu msgLen =
    if msgLen = 0 then 1 else msgLen / mtu + if msgLen % mtu ≠ 0 then 1 else 0 := by
  rcases Nat.eq_zero_or_pos mtu with rfl | positive
  · simp [packets]
  · have parts := Nat.div_add_mod msgLen mtu
    have below := Nat.mod_lt msgLen positive
    have quotient : (msgLen + mtu - 1) / mtu = msgLen / mtu + (msgLen % mtu + mtu - 1) / mtu := by
      rw [← Nat.mul_add_div positive, ← Nat.add_sub_assoc (by omega), ← Nat.add_assoc, parts]
    rw [packets, quotient]
    rcases Nat.eq_zero_or_pos (msgLen % mtu) with zero | rest
    · have none : (msgLen % mtu + mtu - 1) / mtu = 0 := Nat.div_eq_of_lt (by omega)
      rw [none, Nat.add_zero, zero, if_neg (not_not.mpr rfl), Nat.add_zero]
      split_ifs with empty
      · rw [empty, Nat.zero_div]
        rfl
      · exact max_eq_right (Nat.div_pos (Nat.le_of_dvd (by omega) (Nat.dvd_of_mod_eq_zero zero))
          positive)
    · have nonempty : msgLen ≠ 0 := by
        rintro rfl
        simp at rest
      have one : (msgLen % mtu + mtu - 1) / mtu = 1 := Nat.div_eq_of_lt_le (by omega) (by omega)
      rw [one, if_neg nonempty, if_pos (Nat.ne_of_gt rest)]
      exact max_eq_right (Nat.le_add_left 1 _)

theorem pktCnt_mod (sq : Sq) (msgLen : Nat) :
    sq.pktCnt msgLen % 2 ^ 32 = packets sq.mtu msgLen % 2 ^ 32 := by
  simp only [pktCnt, packets_eq]
  split_ifs <;> simp

theorem nextPsn_eq {sq : Sq} (invariant : sq.Invariant) (msgLen : Nat) :
    sq.nextPsn msgLen = (psnAfter sq.mtu sq.posted + packets sq.mtu msgLen) % 2 ^ 32 := by
  rw [nextPsn, invariant.psn, Nat.mod_add_mod, Nat.add_mod, pktCnt_mod, ← Nat.add_mod]

theorem step_ring {depth width : Nat} (count : Nat) (wide : width ≤ depth) (positive : 0 < depth) :
    (count + width) % depth = (if count % depth + width ≥ depth then (count % depth + width) % depth
          else count % depth + width) ∧
      passTag depth (count + width) =
        if count % depth + width ≥ depth then !passTag depth count else passTag depth count := by
  have below := Nat.mod_lt count positive
  have quotient : (count + width) / depth = count / depth + (count % depth + width) / depth := by
    rw [← Nat.mul_add_div positive, ← Nat.add_assoc, Nat.div_add_mod]
  split_ifs with leaves
  · have once : (count % depth + width) / depth = 1 := Nat.div_eq_of_lt_le (by omega) (by omega)
    refine ⟨(Nat.mod_add_mod _ _ _).symm, ?_⟩
    rw [passTag, passTag, quotient, once]
    rcases Nat.mod_two_eq_zero_or_one (count / depth) with even | odd
    · simp [even, show (count / depth + 1) % 2 = 1 by omega]
    · simp [odd, show (count / depth + 1) % 2 = 0 by omega]
  · have stays : (count % depth + width) / depth = 0 := Nat.div_eq_of_lt (by omega)
    rw [← Nat.mod_add_mod, passTag, passTag, quotient, stays, Nat.add_zero]
    exact ⟨Nat.mod_eq_of_lt (by omega), rfl⟩

section

variable {sq next : Sq} {msgLen : Nat}

theorem post_eq (move : sq.post msgLen = some next) : slotCount ≤ sq.depth ∧
    next = { (sq.fillPsnsForMsntbl msgLen).incrTail with posted := sq.posted ++ [msgLen] } := by
  obtain ⟨wide, result⟩ := Option.ite_none_right_eq_some.mp move
  exact ⟨wide, (Option.some.inj result).symm⟩

theorem Invariant.post (invariant : sq.Invariant) (move : sq.post msgLen = some next) :
    next.Invariant := by
  obtain ⟨wide, rfl⟩ := post_eq move
  have ring := step_ring (slotCount * sq.posted.length) wide
    (Nat.lt_of_lt_of_le (by decide) wide)
  have count : slotCount * (sq.posted ++ [msgLen]).length =
      slotCount * sq.posted.length + slotCount := by
    rw [List.length_append, List.length_singleton, Nat.mul_succ]
  have psn : (sq.nextPsn msgLen) = psnAfter sq.mtu (sq.posted ++ [msgLen]) % 2 ^ 32 := by
    rw [nextPsn_eq invariant, psnAfter, psnAfter, List.map_append, List.sum_append,
      List.map_singleton, List.sum_singleton]
  have msn : (sq.msn + 1) % 2 ^ 32 % sq.msnTblSz =
      (sq.posted ++ [msgLen]).length % sq.msnTblSz := by
    have below := Nat.mod_lt sq.posted.length invariant.msnTblSz_pos
    have small := invariant.msnTblSz_lt
    rw [invariant.msn, Nat.mod_eq_of_lt (show _ < 2 ^ 32 by omega), Nat.mod_add_mod,
      List.length_append, List.length_singleton]
  rw [← invariant.tail wide, ← count] at ring
  have epoch : (if sq.tail + slotCount ≥ sq.depth then !sq.epochTail else sq.epochTail) =
      !passTag sq.depth (slotCount * (sq.posted ++ [msgLen]).length) := by
    rw [ring.2, invariant.epochTail]
    split_ifs <;> rfl
  exact { invariant with
    tail := fun _ => ring.1.symm
    epochTail := epoch
    psn := psn
    msn := msn }

theorem Invariant.posted (invariant : sq.Invariant) (move : sq.post msgLen = some next) :
    sq.Posted next msgLen := by
  have kept := invariant.post move
  obtain ⟨wide, rfl⟩ := post_eq move
  have positive : 0 < sq.depth := Nat.lt_of_lt_of_le (by decide) wide
  have cut : ∀ number : Nat, number % 2 ^ 32 % 2 ^ 24 = number % 2 ^ 24 := fun number =>
    Nat.mod_mod_of_dvd number (by decide)
  obtain ⟨first, after, slot⟩ := field_updateMsnTbl sq.tail (sq.nextPsn msgLen) sq.psn
  have tail := kept.tail wide
  have doorbell := field_ringDoorbell
    (tail.trans_lt ((Nat.mod_lt _ positive).trans_le (invariant.depth_le.trans (by decide))))
  have count : (sq.posted ++ [msgLen]).length = sq.posted.length + 1 := List.length_append
  refine ⟨?_, ?_, ?_, ?_, fun following => ?_, ?_, ?_⟩
  · rw [← invariant.msn]
    rfl
  · rw [msnEntry, slot, invariant.tail wide]
    exact Nat.mod_eq_of_lt ((Nat.mod_lt _ positive).trans_le invariant.depth_le)
  · rw [msnEntry, first, invariant.psn, cut]
  · rw [msnEntry, after, nextPsn_eq invariant, cut]
  · rw [msnEntry, msnEntry, (field_updateMsnTbl _ _ _).1, after]
    rfl
  · rw [doorbell.1, tail, count]
    rfl
  · rw [doorbell.2, kept.epochTail, count]
    change (!passTag sq.depth _).toNat = _
    rw [passTag]
    rcases Nat.mod_two_eq_zero_or_one (slotCount * (sq.posted.length + 1) / sq.depth) with
      even | odd
    · rw [even]
      rfl
    · rw [odd]
      rfl

theorem posted_of_run {start : Sq} {lengths : List Nat}
    (reaches : run Sq.post start lengths = some sq) : sq.posted = start.posted ++ lengths := by
  induction lengths generalizing start with
  | nil =>
    cases reaches
    exact (List.append_nil _).symm
  | cons msgLen rest inductionHypothesis =>
    obtain ⟨middle, move, tail⟩ := Option.bind_eq_some_iff.mp reaches
    have added : middle.posted = start.posted ++ [msgLen] := congrArg posted (post_eq move).2
    rw [inductionHypothesis tail, added, List.append_assoc, List.singleton_append]

end

end Sq

/-- The table of message sequence numbers and the doorbell follow every sequence of posted
messages. -/
theorem post_follows {depth order : Nat} (short : depth ≤ 2 ^ 16) (small : order < 32)
    (id mtu : Nat) {lengths : List Nat} {msgLen : Nat} {sq next : Sq}
    (reaches : run Sq.post { depth, id, mtu, msnTblSz := 2 ^ order } lengths = some sq)
    (move : sq.post msgLen = some next) : sq.posted = lengths ∧ sq.Posted next msgLen := by
  refine ⟨Sq.posted_of_run reaches, ?_⟩
  refine Sq.Invariant.posted (run_invariant (fun _ _ _ => Sq.Invariant.post) ?_ reaches) move
  exact
    { depth_le := short
      msnTblSz_pos := Nat.two_pow_pos order
      msnTblSz_lt := Nat.pow_lt_pow_right (by decide) small
      tail := fun _ => (Nat.zero_mod _).symm
      epochTail := by simp [passTag]
      psn := rfl
      msn := (Nat.zero_mod _).symm }

/-- A message of two packets and an empty one, and then a third. -/
theorem post_follows_third : ∃ sq next,
    run Sq.post { depth := 768, id := 1, mtu := 4096, msnTblSz := 2 ^ 10 } [8192, 0] = some sq ∧
      sq.post 5000 = some next ∧ sq.posted = [8192, 0] ∧ sq.Posted next 5000 :=
  ⟨_, _, rfl, rfl, post_follows (show 768 ≤ 2 ^ 16 by decide) (show 10 < 32 by decide) 1 4096
    rfl rfl⟩

end RocmXio.Rdma.Bnxt
