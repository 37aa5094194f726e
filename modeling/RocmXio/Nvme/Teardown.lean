/-
The order of the cleanup.

A queue id that is taken from the kernel has its hardware context stopped. The context should be
started again, and the memory of the queue and of its data freed, only when the queue has been
deleted from the controller. The cleanups of `run` and `rxio_teardown` may follow any failure of the
set-up, and their calls may fail once more.

A monitor knows which queues are on the controller and stops at an event that comes too early. `run`
deletes the queues first, but goes on when a controller cannot be opened again or refuses.
`rxio_teardown` starts the context before it deletes the queue. A queue that a failed `createQueue`
has left behind is not deleted by either, and a data buffer that turns out to have no DMA address is
freed by its own allocation, with the queue in place.
-/

import RocmXio.Lib.Run
import RocmXio.Nvme.CreateQueue

namespace RocmXio.Nvme

open Lib

/-! ### The monitor -/

namespace Teardown

abbrev Key := Nat × Nat

/-- What happens to the hardware context, the queues and the memory of a queue id. -/
inductive Event where
  | stop (key : Key)
  | create (queue : Key × Side)
  | delete (queue : Key × Side)
  | restart (key : Key)
  | free (key : Key)
deriving DecidableEq

def Clear (live : Finset (Key × Side)) (key : Key) : Prop :=
  ∀ side, (key, side) ∉ live

/-- The queues that the process has on its controllers; an event that comes too early is
refused. -/
def watch (live : Finset (Key × Side)) : Event → Option (Finset (Key × Side))
  | .stop _ => some live
  | .create queue => some (insert queue live)
  | .delete queue => some (live.erase queue)
  | .restart key | .free key =>
    if (key, Side.sq) ∉ live ∧ (key, Side.cq) ∉ live then some live else none

def Ordered (log : List Event) : Prop :=
  (run watch ∅ log).isSome = true

instance (log : List Event) : Decidable (Ordered log) :=
  inferInstanceAs (Decidable (_ = _))

end Teardown

/-! ### The executions -/

/-- The answer to `QUIESCE_NS`. -/
inductive QuiesceReply where
  | stopped
  | tooOld
  | failed
deriving DecidableEq, Repr

/-- A lane of `run` and the outcomes of its calls: whether the namespace is found, `QUIESCE_NS`, the
calls of `createQueue`, whether data memory is allocated, whether `allocateGpuAccessibleBuffer`
fails when it has got its memory and frees it, whether the rest of the set-up succeeds, whether the
target can be opened for the cleanup, the two commands of `deleteQueue`, and `UNQUIESCE_NS`. -/
structure TeardownLane where
  key : Teardown.Key
  namespaceFound : Bool
  quiesce : QuiesceReply
  create : QueueCall
  dataMemory : Bool
  undone : Bool
  prepared : Bool
  reopened : Bool
  deleteSq : AdminReply
  deleteCq : AdminReply
  unquiesce : Bool

namespace QueueCall

/-- The queues that `createQueue` leaves on the controller and that lie in its memory. -/
def leaves (call : QueueCall) (side : Side) : Bool :=
  match call.createQueue.controller side with
  | some memory => decide memory.Nonempty
  | none => false

end QueueCall

namespace TeardownLane

open Teardown

/-- The queues on the controller after `createQueue`, the completion queue first. -/
def created (lane : TeardownLane) : List (Key × Side) :=
  (if lane.create.leaves .cq then [(lane.key, Side.cq)] else []) ++
    if lane.create.leaves .sq then [(lane.key, Side.sq)] else []

/-- `createQueue` reports a failure. -/
def refused (lane : TeardownLane) : Bool :=
  lane.create.createQueue.code < 0

/-- The queues that `deleteQueue` deletes. -/
def deleted (lane : TeardownLane) : List (Key × Side) :=
  if lane.reopened then
    (if lane.deleteSq.succeeded then [(lane.key, Side.sq)] else []) ++
      if lane.deleteCq.succeeded then [(lane.key, Side.cq)] else []
  else []

/-- The loops that stop the contexts. An old kernel module ends both of them. -/
def isolate : List TeardownLane → List TeardownLane
  | [] => []
  | lane :: rest =>
    if lane.namespaceFound then
      match lane.quiesce with
      | .stopped => lane :: isolate rest
      | .tooOld => []
      | .failed => isolate rest
    else isolate rest

/-- The lanes whose queues are recorded: the loop ends at the first failure. -/
def made : List TeardownLane → List TeardownLane
  | [] => []
  | lane :: rest =>
    if lane.refused then []
    else lane :: if lane.prepared && !lane.undone then made rest else []

/-- The lane on which `createQueue` failed. -/
def failedLane : List TeardownLane → Option TeardownLane
  | [] => none
  | lane :: rest =>
    if lane.refused then some lane
    else if lane.prepared && !lane.undone then failedLane rest else none

/-- The events of the loop. `createQueue` frees its memory when it fails, and so does the allocation
of a data buffer. -/
def setUp : List TeardownLane → List Event
  | [] => []
  | lane :: rest =>
    lane.created.map .create ++
      if lane.refused || lane.undone then [.free lane.key]
      else if lane.prepared then setUp rest else []

end TeardownLane

/-- `run` from where the timing statistics have been allocated or not: whether the kernel module can
be opened for the quiesce, and the lanes, which have different queues. -/
structure RunTeardown where
  statsAllocated : Bool
  kmodOpened : Bool
  lanes : List TeardownLane
  distinct : (lanes.map TeardownLane.key).Nodup

namespace RunTeardown

open Teardown TeardownLane

def isolated (calls : RunTeardown) : List TeardownLane :=
  if calls.kmodOpened then isolate calls.lanes else []

/-- The events of `run`. Contexts that cannot be started one by one are started when the descriptor
is closed; pools and data buffers go last. -/
def log (calls : RunTeardown) : List Event :=
  if calls.statsAllocated then
    calls.isolated.map (fun lane => .stop lane.key) ++ setUp calls.lanes ++
      (made calls.lanes).flatMap (fun lane => lane.deleted.map .delete) ++
      (calls.isolated.filter (·.unquiesce)).map (fun lane => .restart lane.key) ++
      (calls.isolated.filter (!·.unquiesce)).map (fun lane => .restart lane.key) ++
      ((made calls.lanes).filter (·.dataMemory)).map (fun lane => .free lane.key)
  else []

end RunTeardown

/-- `rxio_setup` followed by `rxio_teardown`, for one queue: whether the set-up comes to
`createQueue`, whether the controller can be opened, and the outcomes of the calls after that. -/
structure EngineTeardown where
  lane : TeardownLane
  comesToCreate : Bool
  opened : Bool

namespace EngineTeardown

open Teardown TeardownLane

variable (calls : EngineTeardown)

/-- The set-up goes on after `createQueue` and has the controller open. -/
def goesOn : Bool :=
  !calls.lane.refused && calls.opened

def quiesced : Bool :=
  calls.goesOn && calls.lane.namespaceFound && calls.lane.quiesce == .stopped

/-- The allocation of the data buffer frees its memory. -/
def undoes : Bool :=
  calls.goesOn && calls.lane.undone

def hasData : Bool :=
  calls.goesOn && calls.lane.dataMemory && !calls.lane.undone

/-- The events of `rxio_setup` from `createQueue` on. -/
def setUp : List Event :=
  calls.lane.created.map .create ++
    (if calls.lane.refused then [.free calls.lane.key] else []) ++
    (if calls.quiesced then [.stop calls.lane.key] else []) ++
    if calls.undoes then [.free calls.lane.key] else []

/-- The events of `rxio_teardown`. A set-up that did not open the controller leaves another
descriptor. -/
def tearDown : List Event :=
  (if calls.quiesced && calls.lane.unquiesce then [.restart calls.lane.key] else []) ++
    (if calls.goesOn then ({ calls.lane with reopened := true } : TeardownLane).deleted.map .delete
      else []) ++
    (if calls.hasData then [.free calls.lane.key] else []) ++
    if calls.quiesced && !calls.lane.unquiesce then [.restart calls.lane.key] else []

def log : List Event :=
  if calls.comesToCreate then calls.setUp ++ calls.tearDown else []

end EngineTeardown

/-! ### What the monitor says about parts of a log -/

namespace Teardown

variable (live : Finset (Key × Side))

theorem clear_iff (key : Key) : Clear live key ↔ (key, Side.sq) ∉ live ∧ (key, Side.cq) ∉ live := by
  constructor
  · exact fun clear => ⟨clear .sq, clear .cq⟩
  · rintro ⟨noSq, noCq⟩ side
    cases side
    · exact noSq
    · exact noCq

instance (live : Finset (Key × Side)) (key : Key) : Decidable (Clear live key) :=
  decidable_of_iff _ (clear_iff live key).symm

theorem run_create (queues : List (Key × Side)) :
    run watch live (queues.map .create) = some (live ∪ queues.toFinset) := by
  induction queues generalizing live with
  | nil => rw [List.toFinset_nil, Finset.union_empty]; rfl
  | cons queue rest hyp =>
    rw [List.map_cons, run_cons_of_step rfl, hyp, List.toFinset_cons, Finset.union_insert,
      Finset.insert_union]

theorem run_delete (queues : List (Key × Side)) :
    run watch live (queues.map .delete) = some (live \ queues.toFinset) := by
  induction queues generalizing live with
  | nil => rw [List.toFinset_nil, Finset.sdiff_empty]; rfl
  | cons queue rest hyp =>
    rw [List.map_cons, run_cons_of_step rfl, hyp, List.toFinset_cons, Finset.sdiff_insert,
      Finset.erase_sdiff_comm]

variable {Lane : Type*}

theorem run_stop (lanes : List Lane) (key : Lane → Key) :
    run watch live (lanes.map fun lane => .stop (key lane)) = some live := by
  induction lanes with
  | nil => rfl
  | cons lane rest hyp => rw [List.map_cons, run_cons_of_step rfl, hyp]

theorem run_clear_iff {live final : Finset (Key × Side)} {lanes : List Lane} {event : Lane → Event}
    {key : Lane → Key}
    (waits : ∀ lane, event lane = .restart (key lane) ∨ event lane = .free (key lane)) :
    run watch live (lanes.map event) = some final ↔
      (∀ lane ∈ lanes, Clear live (key lane)) ∧ live = final := by
  have first (lane : Lane) :
      watch live (event lane) = if Clear live (key lane) then some live else none := by
    simp only [clear_iff]
    rcases waits lane with same | same <;> rw [same] <;> rfl
  induction lanes with
  | nil => simp
  | cons lane rest hyp =>
    rw [List.map_cons, run_cons, first, List.forall_mem_cons]
    by_cases clear : Clear live (key lane)
    · rw [if_pos clear, Option.bind_some, and_iff_right clear]
      exact hyp
    · rw [if_neg clear, Option.bind_none]
      exact iff_of_false nofun fun both => clear both.1.1

end Teardown

/-! ### `run` -/

namespace TeardownLane

open Teardown

/-- The command that deletes a queue of the lane is sent and carried out. -/
def deletes (lane : TeardownLane) : Side → Bool
  | .sq => lane.reopened && lane.deleteSq.succeeded
  | .cq => lane.reopened && lane.deleteCq.succeeded

variable (lane : TeardownLane)

theorem mem_created (key : Key) (side : Side) :
    (key, side) ∈ lane.created ↔ key = lane.key ∧ lane.create.leaves side = true := by
  cases side <;> simp [created, and_comm]

theorem mem_deleted (key : Key) (side : Side) :
    (key, side) ∈ lane.deleted ↔ key = lane.key ∧ lane.deletes side = true := by
  cases side <;> cases opened : lane.reopened <;> simp [deleted, deletes, opened, and_comm]

variable {lane} {lanes : List TeardownLane}

theorem mem_lanes_of_mem_made (member : lane ∈ made lanes) : lane ∈ lanes := by
  induction lanes with
  | nil => exact member
  | cons first rest hyp =>
    simp only [made] at member
    split_ifs at member with refused prepared
    · exact absurd member List.not_mem_nil
    · rcases List.mem_cons.mp member with rfl | later
      · exact List.mem_cons_self
      · exact List.mem_cons_of_mem first (hyp later)
    · exact List.mem_singleton.mp member ▸ List.mem_cons_self

theorem mem_lanes_of_mem_isolate (member : lane ∈ isolate lanes) : lane ∈ lanes := by
  induction lanes with
  | nil => exact member
  | cons first rest hyp =>
    simp only [isolate] at member
    split_ifs at member with found
    · cases reply : first.quiesce with
      | stopped =>
        rw [reply] at member
        rcases List.mem_cons.mp member with rfl | later
        · exact List.mem_cons_self
        · exact List.mem_cons_of_mem first (hyp later)
      | tooOld =>
        rw [reply] at member
        exact absurd member List.not_mem_nil
      | failed =>
        rw [reply] at member
        exact List.mem_cons_of_mem first (hyp member)
    · exact List.mem_cons_of_mem first (hyp member)

theorem clear_union_created {live : Finset (Key × Side)} (clear : Clear live lane.key) :
    Clear (live ∪ lane.created.toFinset) lane.key ↔ ∀ side, lane.create.leaves side = false := by
  refine forall_congr' fun side => ?_
  have before := clear side
  simp [before, mem_created]

/-- Every lane that the set-up made has its queues on the controller, and those on which
`createQueue` or the allocation of a data buffer failed must not have left any. -/
theorem run_setUp_iff {live final : Finset (Key × Side)} (distinct : (lanes.map key).Nodup)
    (clear : ∀ lane ∈ lanes, Clear live lane.key) :
    run watch live (setUp lanes) = some final ↔
      (∀ lane ∈ failedLane lanes, ∀ side, lane.create.leaves side = false) ∧
        (∀ lane ∈ made lanes, lane.undone = true → ∀ side, lane.create.leaves side = false) ∧
          live ∪ ((made lanes).flatMap created).toFinset = final := by
  induction lanes generalizing live with
  | nil => simp [setUp, failedLane, made]
  | cons lane rest hyp =>
    obtain ⟨other, distinctRest⟩ := List.nodup_cons.mp distinct
    obtain ⟨clearHere, clearRest⟩ := List.forall_mem_cons.mp clear
    have none (nothing : ∀ side, lane.create.leaves side = false) : lane.created = [] := by
      simp [created, nothing]
    rw [setUp, run_append_of_run (run_create live lane.created)]
    have single : [Event.free lane.key] = [lane].map fun lane => .free lane.key := rfl
    by_cases refused : lane.refused = true
    · rw [if_pos (by rw [refused, Bool.true_or]), single, run_clear_iff fun _ => Or.inr rfl]
      simp only [failedLane, made, refused, if_true, List.forall_mem_singleton, Option.mem_def,
        Option.some.injEq, forall_eq', clear_union_created clearHere]
      refine and_congr_right fun nothing => ?_
      simp [none nothing]
    by_cases undone : lane.undone = true
    · rw [if_pos (by rw [undone, Bool.or_true]), single, run_clear_iff fun _ => Or.inr rfl]
      simp [failedLane, made, refused, undone, clear_union_created clearHere]
    · rw [if_neg (by rw [Bool.or_eq_true]; exact not_or.mpr ⟨refused, undone⟩)]
      by_cases prepared : lane.prepared = true
      · have later : ∀ next ∈ rest, Clear (live ∪ lane.created.toFinset) next.key := by
          intro next member side
          have different : next.key ≠ lane.key := by
            intro same
            exact other (same ▸ List.mem_map_of_mem member)
          simp [clearRest next member side, mem_created, different]
        rw [if_pos prepared, hyp distinctRest later]
        simp [failedLane, made, refused, undone, prepared, Finset.union_assoc]
      · simp [failedLane, made, refused, undone, prepared]

end TeardownLane

namespace RunTeardown

open Teardown TeardownLane

variable (calls : RunTeardown)

/-- The queues on the controllers when the cleanup is done with the deletions. -/
def remaining (lanes : List TeardownLane) : Finset (Key × Side) :=
  ((made lanes).flatMap created).toFinset \ ((made lanes).flatMap deleted).toFinset

variable {lane : TeardownLane}

theorem clear_remaining_iff (member : lane ∈ calls.lanes) : Clear (remaining calls.lanes) lane.key ↔
      (lane ∈ made calls.lanes →
        ∀ side, lane.create.leaves side = true → lane.deletes side = true) := by
  have same {other : TeardownLane} (among : other ∈ made calls.lanes)
      (key : lane.key = other.key) : other = lane :=
    (List.inj_on_of_nodup_map calls.distinct member (mem_lanes_of_mem_made among) key).symm
  have here (side : Side) : (lane.key, side) ∈ remaining calls.lanes ↔
      lane ∈ made calls.lanes ∧ lane.create.leaves side = true ∧ ¬ lane.deletes side = true := by
    simp only [remaining, Finset.mem_sdiff, List.mem_toFinset, List.mem_flatMap, mem_created,
      mem_deleted]
    constructor
    · rintro ⟨⟨other, among, key, leaves⟩, undeleted⟩
      obtain rfl := same among key
      exact ⟨among, leaves, fun deletes => undeleted ⟨other, among, rfl, deletes⟩⟩
    · rintro ⟨among, leaves, undeleted⟩
      refine ⟨⟨lane, among, rfl, leaves⟩, ?_⟩
      rintro ⟨other, otherAmong, key, deletes⟩
      exact undeleted (same otherAmong key ▸ deletes)
  simp only [Clear, here, not_and, not_not]
  exact ⟨fun clear among side => clear side among, fun clear side among => clear among side⟩

/-- The lane on which `createQueue` fails leaves no queue, nor does that on which a data buffer is
freed by its own allocation, and for every lane made that is started again or has data memory the
controller carries out the deletions. -/
def Careful : Prop :=
  calls.statsAllocated = true →
    (∀ lane ∈ failedLane calls.lanes, ∀ side, lane.create.leaves side = false) ∧
      (∀ lane ∈ made calls.lanes, lane.undone = true → ∀ side, lane.create.leaves side = false) ∧
        ∀ lane ∈ made calls.lanes, lane ∈ calls.isolated ∨ lane.dataMemory = true →
          ∀ side, lane.create.leaves side = true → lane.deletes side = true

theorem mem_lanes_of_mem_isolated (member : lane ∈ calls.isolated) : lane ∈ calls.lanes := by
  simp only [isolated] at member
  split_ifs at member
  · exact mem_lanes_of_mem_isolate member
  · exact absurd member List.not_mem_nil

theorem ordered_iff : Ordered calls.log ↔ calls.Careful := by
  rw [Ordered, Option.isSome_iff_exists, Careful, log]
  by_cases stats : calls.statsAllocated = true
  · rw [if_pos stats, forall_prop_of_true stats]
    have restart : ∀ lane : TeardownLane, Event.restart lane.key = .restart lane.key ∨
        Event.restart lane.key = .free lane.key := fun _ => Or.inl rfl
    have free : ∀ lane : TeardownLane, Event.free lane.key = .restart lane.key ∨
        Event.free lane.key = .free lane.key := fun _ => Or.inr rfl
    have deletions : ((made calls.lanes).flatMap fun lane => lane.deleted.map Event.delete) =
        ((made calls.lanes).flatMap deleted).map .delete := (List.map_flatMap ..).symm
    simp only [run_append, Option.bind_eq_some_iff, run_stop, Option.some.injEq, exists_eq_left',
      run_setUp_iff calls.distinct fun _ _ _ => Finset.notMem_empty _, deletions, run_delete,
      run_clear_iff restart, run_clear_iff free, Finset.empty_union]
    constructor
    · rintro ⟨_, _, ⟨_, ⟨_, ⟨_, ⟨nothing, undone, rfl⟩, rfl⟩, first, rfl⟩, second, rfl⟩, data, rfl⟩
      refine ⟨nothing, undone, fun lane among early => ?_⟩
      have clear : Clear (remaining calls.lanes) lane.key := by
        rcases early with isolated | memory
        · cases unquiesce : lane.unquiesce
          · exact second lane (List.mem_filter.mpr ⟨isolated, by rw [unquiesce]; rfl⟩)
          · exact first lane (List.mem_filter.mpr ⟨isolated, unquiesce⟩)
        · exact data lane (List.mem_filter.mpr ⟨among, memory⟩)
      exact (calls.clear_remaining_iff (mem_lanes_of_mem_made among)).mp clear among
    · rintro ⟨nothing, undone, careful⟩
      have isolatedClear : ∀ lane ∈ calls.isolated, Clear (remaining calls.lanes) lane.key :=
        fun lane member => (calls.clear_remaining_iff (calls.mem_lanes_of_mem_isolated member)).mpr
          fun among => careful lane among (Or.inl member)
      refine ⟨_, _, ⟨_, ⟨_, ⟨_, ⟨nothing, undone, rfl⟩, rfl⟩, ?_, rfl⟩, ?_, rfl⟩, ?_, rfl⟩
      · exact fun lane member => isolatedClear lane (List.mem_of_mem_filter member)
      · exact fun lane member => isolatedClear lane (List.mem_of_mem_filter member)
      · intro lane member
        obtain ⟨among, memory⟩ := List.mem_filter.mp member
        exact (calls.clear_remaining_iff (mem_lanes_of_mem_made among)).mpr
          fun among => careful lane among (Or.inr memory)
  · rw [if_neg stats]
    exact iff_of_true ⟨∅, rfl⟩ fun allocated => absurd allocated stats

end RunTeardown

/-! ### The engine -/

namespace EngineTeardown

open Teardown TeardownLane

variable (calls : EngineTeardown)

/-- The answer to a command of `deleteQueue` is that it was carried out. -/
def deletes (side : Side) : Bool :=
  ({ calls.lane with reopened := true } : TeardownLane).deletes side

/-- A failed `createQueue` leaves no queue, nor is there one when the data buffer is freed by its
own allocation. If the context was stopped, no queue was created or the context cannot be started
before the descriptor is closed; and if anything is started or freed after the deletion, the
controller carries it out. -/
def Careful : Prop :=
  calls.comesToCreate = true →
    (calls.lane.refused = true ∨ calls.undoes = true →
        ∀ side, calls.lane.create.leaves side = false) ∧
      (calls.quiesced = true → calls.lane.unquiesce = true →
        ∀ side, calls.lane.create.leaves side = false) ∧
      (calls.hasData = true ∨ calls.quiesced = true →
        ∀ side, calls.lane.create.leaves side = true → calls.deletes side = true)

variable {live final : Finset (Key × Side)} {key : Key} {condition : Bool}

theorem run_event_iff {event : Event} (waits : event = .restart key ∨ event = .free key) :
    run watch live (if condition then [event] else []) = some final ↔
      (condition = true → Clear live key) ∧ live = final := by
  cases condition with
  | false => simp
  | true =>
    have single : [event] = [()].map fun _ => event := rfl
    rw [if_pos rfl, single, run_clear_iff fun _ => waits, List.forall_mem_singleton,
      forall_prop_of_true rfl]

theorem clear_created_iff : Clear calls.lane.created.toFinset calls.lane.key ↔
    ∀ side, calls.lane.create.leaves side = false := by
  simp [Clear, mem_created]

theorem clear_deleted_iff : Clear (calls.lane.created.toFinset \
      ({ calls.lane with reopened := true } : TeardownLane).deleted.toFinset) calls.lane.key ↔
        ∀ side, calls.lane.create.leaves side = true → calls.deletes side = true := by
  simp [Clear, mem_created, mem_deleted, deletes]

theorem run_stop_iff :
    run watch live (if condition then [.stop key] else []) = some final ↔ live = final := by
  cases condition <;> exact Option.some_inj

/-- The monitor knows the queues that were not deleted, or all of them if the controller was not
opened. -/
theorem run_deletion_iff : run watch live (if calls.goesOn then
      ({ calls.lane with reopened := true } : TeardownLane).deleted.map .delete else []) =
        some final ↔
      (if calls.goesOn then
        live \ ({ calls.lane with reopened := true } : TeardownLane).deleted.toFinset
        else live) = final := by
  split_ifs
  · rw [run_delete, Option.some.injEq]
  · exact Option.some_inj

theorem ordered_iff : Ordered calls.log ↔ calls.Careful := by
  rw [Ordered, Option.isSome_iff_exists, Careful, log]
  by_cases comes : calls.comesToCreate = true
  · rw [if_pos comes, forall_prop_of_true comes]
    have restart : Event.restart calls.lane.key = .restart calls.lane.key ∨
        Event.restart calls.lane.key = .free calls.lane.key := Or.inl rfl
    have free : Event.free calls.lane.key = .restart calls.lane.key ∨
        Event.free calls.lane.key = .free calls.lane.key := Or.inr rfl
    have whileOn (either : calls.hasData = true ∨ calls.quiesced = true) : calls.goesOn = true := by
      rcases either with data | quiesced
      · exact (Bool.and_eq_true_iff.mp (Bool.and_eq_true_iff.mp data).1).1
      · exact (Bool.and_eq_true_iff.mp (Bool.and_eq_true_iff.mp quiesced).1).1
    simp only [setUp, tearDown, run_append, Option.bind_eq_some_iff, run_create,
      Option.some.injEq, Finset.empty_union, exists_eq_left', run_event_iff restart,
      run_event_iff free, run_stop_iff, calls.run_deletion_iff]
    simp only [Bool.and_eq_true, Bool.not_eq_true']
    constructor
    · rintro ⟨_, _, ⟨_, ⟨_, ⟨failed, rfl⟩, rfl⟩, undone, rfl⟩, _, ⟨_, ⟨_, ⟨first, rfl⟩, rfl⟩, data,
        rfl⟩, last, rfl⟩
      have noQueue := fun quiesced unquiesce => calls.clear_created_iff.mp
        (first ⟨quiesced, unquiesce⟩)
      refine ⟨fun early => calls.clear_created_iff.mp (early.elim failed undone), noQueue, ?_⟩
      intro either
      rw [if_pos (whileOn either)] at data last
      rcases either with memory | quiesced
      · exact calls.clear_deleted_iff.mp (data memory)
      · cases unquiesce : calls.lane.unquiesce
        · exact calls.clear_deleted_iff.mp (last ⟨quiesced, unquiesce⟩)
        · intro side leaves
          exact absurd leaves (Bool.eq_false_iff.mp (noQueue quiesced unquiesce side))
    · rintro ⟨failed, noQueue, deletes⟩
      refine ⟨_, _, ⟨_, ⟨_, ⟨fun refused => calls.clear_created_iff.mpr (failed (Or.inl refused)),
        rfl⟩, rfl⟩, fun undone => calls.clear_created_iff.mpr (failed (Or.inr undone)), rfl⟩, _,
        ⟨_, ⟨_, ⟨fun both => calls.clear_created_iff.mpr (noQueue both.1 both.2), rfl⟩, rfl⟩,
          fun memory => ?_, rfl⟩, fun both => ?_, rfl⟩
      · rw [if_pos (whileOn (Or.inl memory))]
        exact calls.clear_deleted_iff.mpr (deletes (Or.inl memory))
      · rw [if_pos (whileOn (Or.inr both.1))]
        exact calls.clear_deleted_iff.mpr (deletes (Or.inr both.1))
  · rw [if_neg comes]
    exact iff_of_true ⟨∅, rfl⟩ fun reached => absurd reached comes

end EngineTeardown

/-! ### Both -/

inductive TeardownExecution where
  | run (calls : RunTeardown)
  | engine (calls : EngineTeardown)

namespace TeardownExecution

open Teardown

def log : TeardownExecution → List Event
  | .run calls => calls.log
  | .engine calls => calls.log

def Careful : TeardownExecution → Prop
  | .run calls => calls.Careful
  | .engine calls => calls.Careful

/-- Contexts are started again and memory is freed only when the queues are gone, exactly in
the careful executions. -/
theorem teardown_ordered_iff (execution : TeardownExecution) :
    Ordered execution.log ↔ execution.Careful := by
  cases execution with
  | run calls => exact calls.ordered_iff
  | engine calls => exact calls.ordered_iff

def smoothLane : TeardownLane where
  key := (0, 1)
  namespaceFound := true
  quiesce := .stopped
  create := .sixteenEntries
  dataMemory := true
  undone := false
  prepared := true
  reopened := true
  deleteSq := .completed 0 0
  deleteCq := .completed 0 0
  unquiesce := true

/-- The engine starts the context before it deletes the queue although every call succeeds; `run`
does so when it cannot open the controller again. A buffer without a DMA address is freed while its
queue is there. -/
theorem teardown_too_early : ¬ Ordered (log (.engine ⟨smoothLane, true, true⟩)) ∧
      ¬ Ordered (log (.run ⟨true, true, [{ smoothLane with reopened := false }],
        List.nodup_singleton _⟩)) ∧
      ¬ Ordered (log (.run ⟨true, true, [{ smoothLane with undone := true }],
        List.nodup_singleton _⟩)) := by
  decide +kernel

end TeardownExecution

end RocmXio.Nvme
