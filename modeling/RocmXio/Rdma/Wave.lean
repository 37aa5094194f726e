/-
Wavefronts of up to 64 active lanes.

The lanes of a wavefront that use one queue pair elect their first lane and number themselves by the
active lanes below them. The ionic doorbell cuts the mask of the lanes that ring to 32 bits, so that
a wavefront whose first lane is in the upper half records a new position without writing the
register. And the ionic result slots of fetching atomics reduce the running index before the number
of the lane is added, where mlx5 reduces the sum, so that a call near the end of the array goes past
it.
-/

import RocmXio.Lib.Window

namespace RocmXio.Rdma.Wave

open Lib

/-! ### Masks of lanes -/

def active (mask : Nat) : Finset Nat :=
  (Finset.range 64).filter fun lane => mask.testBit lane

def popcount64 (mask : Nat) : Nat :=
  (active mask).card

/-- `first_lane`, with no lane for a mask of zero. -/
def firstLane (mask : Nat) : Option Nat :=
  (List.range 64).find? mask.testBit

def logicalLaneId (mask lane : Nat) : Nat :=
  popcount64 (mask &&& (2 ^ lane - 1))

theorem mem_active {mask lane : Nat} : lane ∈ active mask ↔ lane < 64 ∧ mask.testBit lane := by
  rw [active, Finset.mem_filter, Finset.mem_range]

theorem active_below (mask lane : Nat) :
    active (mask &&& (2 ^ lane - 1)) = (active mask).filter (· < lane) := by
  ext other
  simp only [mem_active, Finset.mem_filter, Nat.testBit_and, Nat.testBit_two_pow_sub_one,
    Bool.and_eq_true, decide_eq_true_eq]
  tauto

theorem logicalLaneId_lt {mask lane : Nat} (member : lane ∈ active mask) :
    logicalLaneId mask lane < popcount64 mask := by
  rw [logicalLaneId, popcount64, popcount64, active_below]
  refine Finset.card_lt_card (Finset.filter_ssubset.mpr ⟨lane, member, Nat.lt_irrefl lane⟩)

theorem logicalLaneId_strictMono {mask lane other : Nat} (member : lane ∈ active mask)
    (below : lane < other) : logicalLaneId mask lane < logicalLaneId mask other := by
  rw [logicalLaneId, logicalLaneId, popcount64, popcount64, active_below, active_below]
  refine Finset.card_lt_card ((Finset.ssubset_iff_of_subset fun lower inside => ?_).mpr
    ⟨lane, Finset.mem_filter.mpr ⟨member, below⟩, by simp⟩)
  rw [Finset.mem_filter] at inside ⊢
  exact ⟨inside.1, Nat.lt_trans inside.2 below⟩

theorem logicalLaneId_injOn (mask : Nat) : Set.InjOn (logicalLaneId mask) (active mask) := by
  intro lane member other otherMember same
  rcases Nat.lt_trichotomy lane other with below | rfl | above
  · exact absurd same (Nat.ne_of_lt (logicalLaneId_strictMono member below))
  · rfl
  · exact absurd same.symm (Nat.ne_of_lt (logicalLaneId_strictMono otherMember above))

theorem popcount64_le (mask : Nat) : popcount64 mask ≤ 64 :=
  (Finset.card_filter_le _ _).trans_eq (Finset.card_range 64)

theorem firstLane_active {mask first : Nat} (found : firstLane mask = some first) :
    first ∈ active mask :=
  mem_active.mpr ⟨List.mem_range.mp (List.mem_of_find?_eq_some found), List.find?_some found⟩

theorem firstLane_lt_iff {mask first : Nat} (found : firstLane mask = some first) :
    first < 32 ↔ mask % 2 ^ 32 ≠ 0 := by
  obtain ⟨set, index, inside, atIndex, earlier⟩ := List.find?_eq_some_iff_getElem.mp found
  rw [List.getElem_range] at atIndex
  subst atIndex
  constructor
  · intro low zero
    have cut := Nat.testBit_mod_two_pow mask 32 index
    rw [zero, Nat.zero_testBit, set, decide_eq_true low] at cut
    exact Bool.false_ne_true cut
  · intro nonzero
    obtain ⟨lane, bit⟩ := Nat.exists_testBit_of_ne_zero nonzero
    rw [Nat.testBit_mod_two_pow, Bool.and_eq_true, decide_eq_true_eq] at bit
    by_contra high
    have clear := earlier lane (by omega)
    rw [List.getElem_range, bit.2] at clear
    cases clear

theorem exists_firstLane {mask : Nat} (small : mask < 2 ^ 64) (nonzero : mask ≠ 0) :
    ∃ first, firstLane mask = some first := by
  obtain ⟨lane, bit⟩ := Nat.exists_testBit_of_ne_zero nonzero
  have inside : lane < 64 := by
    by_contra high
    rw [Nat.testBit_lt_two_pow (small.trans_le (Nat.pow_le_pow_right two_pos (by omega)))] at bit
    cases bit
  exact Option.isSome_iff_exists.mp
    (List.find?_isSome.mpr ⟨lane, List.mem_range.mpr inside, bit⟩)

/-! ### The ionic doorbell -/

/-- What the doorbell is about. The writes to the register are recorded with the lanes they come
from, the newest last. -/
structure Queue where
  sqMask : Nat
  sqDbval : Nat
  sqDbprod : Nat := 0
  writes : List (Nat × Nat) := []
deriving DecidableEq, Repr

/-- A wavefront that commits: the mask of its lanes for this queue pair, the order in which they
take the lock, the mask of the lanes in `ring_doorbell` with them for other queue pairs, and the
requests it has written. -/
structure Wavefront where
  activemask : Nat
  order : List Nat
  beside : Nat
  mySqProd : Nat
  numWqes : Nat
  activemask_lt : activemask < 2 ^ 64
  activemask_ne_zero : activemask ≠ 0
  order_nodup : order.Nodup
  order_eq : order.toFinset = active activemask

namespace Queue

def encode (queue : Queue) (pos : Nat) : Nat :=
  queue.sqDbval ||| (queue.sqMask &&& pos)

/-- What the hardware was told last, and the position zero before that. -/
def sqDbreg (queue : Queue) : Nat :=
  (queue.writes.getLast?.map Prod.snd).getD (queue.encode 0)

/-- `ring_doorbell` in one lane. The lanes write in turn, by their numbers in a mask of 32 bits. -/
def ringDoorbell (queue : Queue) (executing lane pos : Nat) : Queue :=
  let activemask := executing % 2 ^ 32
  let myLaneNum := popcount64 (activemask &&& (2 ^ lane - 1))
  (List.range (popcount64 activemask)).foldl (fun queue turn =>
    if myLaneNum = turn then { queue with writes := queue.writes ++ [(lane, queue.encode pos)] }
    else queue) queue

def dbprod (wave : Wavefront) : Nat :=
  (wave.mySqProd + wave.numWqes) % 2 ^ 32

/-- The position is ahead of the recorded one, by the sign of a 32-bit difference. -/
def Advances (queue : Queue) (wave : Wavefront) : Prop :=
  (queue.sqDbprod + 2 ^ 32 - dbprod wave) % 2 ^ 32 &&& 2 ^ 31 ≠ 0

instance (queue : Queue) (wave : Wavefront) : Decidable (queue.Advances wave) :=
  inferInstanceAs (Decidable (_ ≠ _))

/-- `commit_sq` in one lane, under the lock. Only the first lane goes into the branch. -/
def commitLane (wave : Wavefront) (queue : Queue) (lane : Nat) : Queue :=
  if some lane = firstLane wave.activemask ∧ queue.Advances wave then
    { queue with sqDbprod := dbprod wave }.ringDoorbell (wave.beside ||| 2 ^ lane) lane
      (dbprod wave)
  else queue

/-- `commit_sq` in the lanes of a wavefront, which take the lock in some order. -/
def commitSq (queue : Queue) (wave : Wavefront) : Queue :=
  wave.order.foldl (commitLane wave) queue

/-- A position that is ahead comes from a wavefront with a lane in the lower half. -/
def Heard (queue : Queue) (wave : Wavefront) : Prop :=
  queue.Advances wave → wave.activemask % 2 ^ 32 ≠ 0

instance (queue : Queue) (wave : Wavefront) : Decidable (queue.Heard wave) :=
  inferInstanceAs (Decidable (_ → _))

/-- When `commit_sq` changes the recorded position, one lane of the wavefront writes its encoding
into the register, and nothing else is written. -/
def Announced (queue : Queue) (wave : Wavefront) : Prop :=
  (queue.commitSq wave).sqDbprod ≠ queue.sqDbprod → ∃ lane ∈ active wave.activemask,
    (queue.commitSq wave).writes =
      queue.writes ++ [(lane, queue.encode (queue.commitSq wave).sqDbprod)]

section

variable {queue : Queue} {wave : Wavefront} {lane : Nat}

theorem foldl_turn (count turn pos : Nat) (queue : Queue) :
    (List.range count).foldl (fun queue other =>
      if turn = other then { queue with writes := queue.writes ++ [(lane, queue.encode pos)] }
      else queue) queue =
    if turn < count then { queue with writes := queue.writes ++ [(lane, queue.encode pos)] }
    else queue := by
  induction count with
  | zero => rfl
  | succ count inductionHypothesis =>
    rw [List.range_succ, List.foldl_append, inductionHypothesis, List.foldl_cons, List.foldl_nil]
    rcases Nat.lt_trichotomy turn count with below | rfl | above
    · rw [if_pos below, if_neg (Nat.ne_of_lt below), if_pos (Nat.lt_succ_of_lt below)]
    · rw [if_neg (Nat.lt_irrefl _), if_pos rfl, if_pos (Nat.lt_succ_self _)]
    · rw [if_neg (Nat.not_lt.mpr above.le), if_neg (Nat.ne_of_gt above), if_neg (by omega)]

/-- A lane that executes `ring_doorbell` writes once when it is in the lower half, and not at all
otherwise. -/
theorem ringDoorbell_eq {executing : Nat} (member : executing.testBit lane) (pos : Nat) :
    queue.ringDoorbell executing lane pos =
      if lane < 32 then { queue with writes := queue.writes ++ [(lane, queue.encode pos)] }
      else queue := by
  rw [ringDoorbell, foldl_turn]
  refine if_congr ⟨fun turn => ?_, fun low => ?_⟩ rfl rfl
  · -- A lane of the upper half has all lanes of the cut mask below it.
    by_contra high
    refine absurd turn (Nat.not_lt.mpr (Finset.card_le_card fun other inside => ?_))
    rw [active_below, Finset.mem_filter]
    have cut := (mem_active.mp inside).2
    rw [Nat.testBit_mod_two_pow, Bool.and_eq_true, decide_eq_true_eq] at cut
    exact ⟨inside, by omega⟩
  · refine logicalLaneId_lt (mem_active.mpr ⟨by omega, ?_⟩)
    rw [Nat.testBit_mod_two_pow, member, decide_eq_true low, Bool.and_self]

theorem foldl_idle {order : List Nat} (queue : Queue)
    (others : ∀ lane ∈ order, some lane ≠ firstLane wave.activemask) :
    order.foldl (commitLane wave) queue = queue := by
  induction order generalizing queue with
  | nil => rfl
  | cons lane rest inductionHypothesis =>
    rw [List.foldl_cons, commitLane, if_neg fun both => others lane (by simp) both.1]
    exact inductionHypothesis queue fun other member => others other (by simp [member])

theorem commitSq_eq {first : Nat} (found : firstLane wave.activemask = some first) :
    queue.commitSq wave = commitLane wave queue first := by
  have member : first ∈ wave.order := by
    rw [← List.mem_toFinset, wave.order_eq]
    exact firstLane_active found
  obtain ⟨before, after, order⟩ := List.append_of_mem member
  have once := wave.order_nodup
  rw [order, List.nodup_middle, List.nodup_cons, List.mem_append] at once
  rw [commitSq, order, List.foldl_append, List.foldl_cons,
    foldl_idle queue fun lane member same => once.1 (.inl ?_),
    foldl_idle _ fun lane member same => once.1 (.inr ?_)]
  all_goals
    rw [found, Option.some.injEq] at same
    exact same ▸ member

theorem commitSq_of_advances (advances : queue.Advances wave) {first : Nat}
    (found : firstLane wave.activemask = some first) :
    queue.commitSq wave =
      if first < 32 then
        { queue with
          sqDbprod := dbprod wave
          writes := queue.writes ++ [(first, queue.encode (dbprod wave))] }
      else { queue with sqDbprod := dbprod wave } := by
  rw [commitSq_eq found, commitLane, if_pos ⟨found.symm, advances⟩,
    ringDoorbell_eq (by rw [Nat.testBit_or, Nat.testBit_two_pow_self, Bool.or_true])]
  rfl

theorem commitSq_of_not_advances (behind : ¬ queue.Advances wave) :
    queue.commitSq wave = queue := by
  obtain ⟨first, found⟩ := exists_firstLane wave.activemask_lt wave.activemask_ne_zero
  rw [commitSq_eq found, commitLane, if_neg fun both => behind both.2]

theorem Advances.ne (advances : queue.Advances wave) : dbprod wave ≠ queue.sqDbprod := by
  intro same
  rw [Advances, same, Nat.add_sub_cancel_left, Nat.mod_self] at advances
  exact advances rfl

theorem announced_iff (queue : Queue) (wave : Wavefront) :
    queue.Announced wave ↔ queue.Heard wave := by
  obtain ⟨first, found⟩ := exists_firstLane wave.activemask_lt wave.activemask_ne_zero
  by_cases advances : queue.Advances wave
  · rw [Announced, Heard, commitSq_of_advances advances found, ← firstLane_lt_iff found]
    split_ifs with low
    · exact iff_of_true (fun _ => ⟨first, firstLane_active found, rfl⟩) fun _ => low
    · refine iff_of_false (fun announced => ?_) fun all => low (all advances)
      obtain ⟨lane, -, written⟩ := announced advances.ne
      simpa using congrArg List.length written
  · rw [Announced, commitSq_of_not_advances advances]
    exact iff_of_true (fun changed => absurd rfl changed) fun ahead => absurd ahead advances

def Known (queue : Queue) : Prop :=
  queue.sqDbreg = queue.encode queue.sqDbprod

theorem Known.commitSq (known : queue.Known) (heard : queue.Heard wave) :
    (queue.commitSq wave).Known := by
  by_cases advances : queue.Advances wave
  · obtain ⟨first, found⟩ := exists_firstLane wave.activemask_lt wave.activemask_ne_zero
    rw [commitSq_of_advances advances found,
      if_pos ((firstLane_lt_iff found).mpr (heard advances)), Known, sqDbreg, List.getLast?_concat]
    rfl
  · rwa [commitSq_of_not_advances advances]

end

def step (queue : Queue) (wave : Wavefront) : Option Queue :=
  some (queue.commitSq wave)

/-- `commit_sq` announces a new position exactly when a lane of the lower half is active, and as
long as that is so whenever a position is new, the hardware always knows the recorded one. -/
theorem commitSq_announces (sqMask sqDbval : Nat) :
    (∀ queue wave, Announced queue wave ↔ Heard queue wave) ∧
    ∀ waves queue, EveryStep step Heard { sqMask, sqDbval } waves →
      run step { sqMask, sqDbval } waves = some queue → queue.Known := by
  refine ⟨announced_iff, fun waves queue heard reaches => ?_⟩
  refine run_invariant_of_everyStep (motive := Known) (fun queue wave next known heard move => ?_)
    (by rfl) heard reaches
  obtain rfl := Option.some.inj move
  exact Known.commitSq known heard

def upperLane : Wavefront where
  activemask := 2 ^ 32
  order := [32]
  beside := 0
  mySqProd := 0
  numWqes := 1
  activemask_lt := by decide
  activemask_ne_zero := by decide
  order_nodup := by decide
  order_eq := by decide +kernel

/-- The position is recorded and the register is not written. -/
theorem upperLane_silent :
    let queue : Queue := { sqMask := 255, sqDbval := 0 }
    (queue.commitSq upperLane).sqDbprod = 1 ∧ (queue.commitSq upperLane).writes = [] ∧
      ¬ queue.Announced upperLane ∧ ¬ (queue.commitSq upperLane).Known := by
  refine ⟨by decide +kernel, by decide +kernel, ?_, by unfold Known; decide +kernel⟩
  rw [announced_iff]
  decide +kernel

end Queue

/-! ### Result slots -/

inductive Fetcher where
  | ionic
  | mlx5
deriving DecidableEq, Repr

def fetchingAtomicCnt : Nat := 1024

/-- `post_wqe_amo` in one lane, for a running index: the slot of the result array whose address it
writes into its request, and the slot it reads in the end. In the ionic provider the first lane
takes the address and hands it to the others. -/
def Fetcher.postWqeAmo (fetchingAtomicIdx mask lane : Nat) : Fetcher → Nat × Nat
  | .ionic =>
    let fetchBuf := fetchingAtomicIdx % fetchingAtomicCnt
    (fetchBuf + logicalLaneId mask lane, fetchBuf + logicalLaneId mask lane)
  | .mlx5 =>
    let atomicIdx := (fetchingAtomicIdx + logicalLaneId mask lane) % 2 ^ 32 % fetchingAtomicCnt
    (atomicIdx, atomicIdx)

/-- The slots of a call are in the array and differ, and each lane reads the one of its request. -/
structure Fetcher.Sound (fetcher : Fetcher) (idx mask : Nat) : Prop where
  inside : ∀ lane ∈ active mask, (fetcher.postWqeAmo idx mask lane).1 < fetchingAtomicCnt
  distinct : Set.InjOn (fun lane => (fetcher.postWqeAmo idx mask lane).1) (active mask)
  own : ∀ lane ∈ active mask,
    (fetcher.postWqeAmo idx mask lane).2 = (fetcher.postWqeAmo idx mask lane).1

theorem Fetcher.sound_mlx5 (idx mask : Nat) : Fetcher.mlx5.Sound idx mask where
  inside := fun _ _ => Nat.mod_lt _ (by decide)
  distinct := by
    intro lane member other otherMember same
    refine logicalLaneId_injOn mask member otherMember ?_
    have below := (logicalLaneId_lt member).trans_le (popcount64_le mask)
    have otherBelow := (logicalLaneId_lt otherMember).trans_le (popcount64_le mask)
    simp only [postWqeAmo, fetchingAtomicCnt] at same
    omega
  own := fun _ _ => rfl

theorem Fetcher.sound_ionic_iff (idx mask : Nat) : Fetcher.ionic.Sound idx mask ↔
    idx % fetchingAtomicCnt + popcount64 mask ≤ fetchingAtomicCnt := by
  constructor
  · intro sound
    -- The numbers of the lanes are as many as the lanes, all below what is left of the array.
    have room : ∀ lane ∈ active mask,
        logicalLaneId mask lane ∈ Finset.range (fetchingAtomicCnt - idx % fetchingAtomicCnt) := by
      intro lane member
      have inside := sound.inside lane member
      simp only [postWqeAmo] at inside
      exact Finset.mem_range.mpr (by omega)
    have counted := Finset.card_le_card_of_injOn _ room (logicalLaneId_injOn mask)
    have start : idx % fetchingAtomicCnt < fetchingAtomicCnt := Nat.mod_lt _ (by decide)
    rw [Finset.card_range] at counted
    rw [popcount64]
    omega
  · intro room
    refine ⟨fun lane member => ?_, fun lane member other otherMember same => ?_, fun _ _ => rfl⟩
    · have below := logicalLaneId_lt member
      simp only [postWqeAmo]
      omega
    · exact logicalLaneId_injOn mask member otherMember (Nat.add_left_cancel same)

/-- The result slots of a wavefront are sound exactly when the call does not run past the end of
the ionic array. -/
theorem resultSlots_sound_iff (fetcher : Fetcher) (idx mask : Nat) : fetcher.Sound idx mask ↔
      (fetcher = .ionic → idx % fetchingAtomicCnt + popcount64 mask ≤ fetchingAtomicCnt) := by
  cases fetcher with
  | ionic => rw [Fetcher.sound_ionic_iff, forall_prop_of_true rfl]
  | mlx5 => exact iff_of_true (Fetcher.sound_mlx5 idx mask) (by simp)

/-- After 1023 results a wavefront of two lanes has its second result behind the array. -/
theorem resultSlots_beyond :
    (Fetcher.ionic.postWqeAmo 1023 3 1).1 = 1024 ∧ ¬ Fetcher.ionic.Sound 1023 3 := by
  refine ⟨by decide +kernel, ?_⟩
  rw [Fetcher.sound_ionic_iff]
  decide +kernel

end RocmXio.Rdma.Wave
