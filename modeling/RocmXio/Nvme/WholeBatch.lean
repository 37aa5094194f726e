/-
What a batch size of zero means.

`run` reads a batch size of zero as one batch of everything, capped by the queue, and starts a block
with a thread for each entry and one more. The kernel looks at the configured size instead, so that
every thread runs `driveEndpointSingle` and issues all operations, with a tail, a head and a phase
of its own, on the one queue pair of the lane. Zero means what the explicit batch size means exactly
when the block has one thread.
-/

import RocmXio.Nvme.CommandId
import RocmXio.Nvme.Lba
import RocmXio.Nvme.RunResult

namespace RocmXio.Nvme

open Lib Function

/-! ### Threads that run the single drive -/

/-- A block whose threads all run `driveEndpointSingle`: the shared queue pair with its controller,
and the variables of each thread. -/
structure Team where
  memory : QueuePair
  threads : Nat → Drive
  stopFlag : Bool

inductive TeamLabel where
  | thread (index : Nat)
  | controller (label : QueuePair.Controller)
  | stop
deriving DecidableEq, Repr

/-- The queue pair as a thread sees it: the shared memory with its own tail, head, phase and account
of what was submitted and taken. -/
def QueuePair.seenBy (memory own : QueuePair) : QueuePair :=
  { memory with
    sqTail := own.sqTail
    cqHead := own.cqHead
    expectedPhase := own.expectedPhase
    submitted := own.submitted
    accepted := own.accepted }

def Team.view (team : Team) (index : Nat) : Drive :=
  { team.threads index with
    queue := team.memory.seenBy (team.threads index).queue
    stopFlag := team.stopFlag }

namespace Setup

def teamStart (setup : Setup) : Team where
  memory := QueuePair.create setup.params.queueSize
  threads := fun _ => setup.start
  stopFlag := false

/-- One step of a block of `count` threads. -/
def teamStep (setup : Setup) (count : Nat) (team : Team) : TeamLabel → Option Team
  | .thread index =>
    if index < count then
      match setup.singleThread (team.view index) with
      | none => none
      | some drive => some
          { team with
            memory := drive.queue
            threads := update team.threads index drive }
    else none
  | .controller label =>
    match team.memory.controller label with
    | none => none
    | some queue => some { team with memory := queue }
  | .stop => some { team with stopFlag := true }

end Setup

/-! ### What is issued -/

/-- A submission queue entry, without the fields that are always zero. -/
structure Sqe where
  opcode : Nat
  commandId : Nat
  nsid : Nat
  prp1 : Nat
  prp2 : Nat
  slba : Nat
  cdw12 : Nat
deriving DecidableEq, Repr

/-- An entry that is written to a slot for an operation, or a value that is written to one of
the doorbells. -/
inductive Issue where
  | sqe (opIdx slot : Nat) (sqe : Sqe)
  | sqDoorbell (value : Nat)
  | cqDoorbell (value : Nat)
deriving DecidableEq, Repr

def issuedOps (issues : List Issue) : List Nat :=
  issues.filterMap fun issue =>
    match issue with
    | .sqe opIdx _ _ => some opIdx
    | .sqDoorbell _ | .cqDoorbell _ => none

namespace Lane

/-- The entry for an operation in place `b` of its batch, which both drives build alike. -/
def sqe (lane : Lane) (nsid opIdx b : Nat) : Sqe :=
  let isReadOp := lane.setup.isReadOp opIdx
  let prps := lane.setup.buffers.slotPrps b (!isReadOp)
  { opcode := if isReadOp then 2 else 1
    commandId := commandId opIdx
    nsid := nsid
    prp1 := prps.prp1
    prp2 := prps.prp2
    slba := lane.lba opIdx
    cdw12 := lane.setup.params.lbasPerIo - 1 }

def issued (lane : Lane) (nsid : Nat) (drive : Drive) (label : DriveLabel) (next : Drive) :
    List Issue :=
  match drive.pc, label, next.pc with
  | .write b, .thread, .write _ =>
    let opIdx := (drive.opsDone + b) % 2 ^ 32
    [.sqe opIdx drive.queue.sqTail (lane.sqe nsid opIdx b)]
  | .prepare _, .worker b, _ =>
    let opIdx := (drive.opsDone + b) % 2 ^ 32
    if next.shError then []
    else [.sqe opIdx ((drive.queue.sqTail + b) % drive.queue.queueSize) (lane.sqe nsid opIdx b)]
  | .write _, .thread, .poll _ _ | .prepare _, .thread, .poll _ _ =>
    [.sqDoorbell next.queue.sqTail]
  | .poll _ _, .thread, .top | .epilogue none, .thread, _ => [.cqDoorbell next.queue.cqHead]
  | _, _, _ => []

def recordDrive (lane : Lane) (nsid : Nat) (drive : Drive) (label : DriveLabel) (next : Drive)
    (issues : List Issue) : List Issue :=
  issues ++ lane.issued nsid drive label next

def recordTeam (lane : Lane) (nsid : Nat) (team : Team) (label : TeamLabel) (next : Team)
    (issues : List Issue) : List Issue :=
  match label with
  | .thread index => issues ++ lane.issued nsid (team.view index) .thread (next.threads index)
  | .controller _ | .stop => issues

/-- `gpuKernel`, with the threads that `run` starts, can issue this, and be done with it. -/
def Issues (lane : Lane) (nsid : Nat) (issues : List Issue) (done : Bool) : Prop :=
  if lane.setup.params.batchSize > 1 then
    ∃ labels drive, run (observe (lane.setup.gpuKernel lane.setup.crew) id
        (lane.recordDrive nsid)) ⟨lane.setup.start, []⟩ labels = some ⟨drive, issues⟩ ∧
      (done = true → drive.pc = .returned .done)
  else
    ∃ labels team, run (observe (lane.setup.teamStep lane.setup.params.kernelThreads) id
        (lane.recordTeam nsid)) ⟨lane.setup.teamStart, []⟩ labels = some ⟨team, issues⟩ ∧
      (done = true → ∀ index < lane.setup.params.kernelThreads,
        (team.threads index).pc = .returned .done)

/-- The polls of the threads are answered in time, and nobody asks them to stop. -/
def TeamAnswered (team : Team) : TeamLabel → Prop
  | .thread index => Setup.expiring (team.view index) = false
  | .controller _ => True
  | .stop => False

def isThread : TeamLabel → Bool
  | .thread _ => true
  | .controller _ | .stop => false

/-- A block whose commands are answered ends: its threads take a bounded number of steps, one can
move until all have ended, and they are done if no command failed. -/
def KernelEnds (lane : Lane) : Prop :=
  ∃ bound, ∀ labels team,
    EveryStep (lane.setup.teamStep lane.setup.params.kernelThreads) TeamAnswered
      lane.setup.teamStart labels →
    run (lane.setup.teamStep lane.setup.params.kernelThreads) lane.setup.teamStart labels =
      some team →
    labels.countP isThread ≤ bound ∧
      ((∃ index < lane.setup.params.kernelThreads, (team.threads index).pc.terminal = false) →
        ∃ index next, lane.setup.teamStep lane.setup.params.kernelThreads team (.thread index) =
          some next) ∧
      ((∀ index < lane.setup.params.kernelThreads, (team.threads index).pc.terminal = true) →
        (∀ cqe ∈ team.memory.posted, cqe.ok = true) →
          ∀ index < lane.setup.params.kernelThreads, (team.threads index).pc = .returned .done)

end Lane

/-! ### The configuration -/

def IoParams.withBatch (params : IoParams) (batchSize : Nat) : IoParams :=
  { params with batchSize := batchSize }

/-- A lane of an accepted finite run. `run` adds the two counts as signed numbers. -/
structure AcceptedLane extends Lane where
  finite : setup.params.infiniteMode = false
  total_lt : setup.params.readIo + setup.params.writeIo < 2 ^ 31
  size : 2 ≤ setup.params.queueSize
  transfer_pos : 0 < setup.params.transferSize
  small : setup.params.transferSize ≤ 513 * pageSize
  accepted : setup.params.accepts setup.buffers.bufferSize = true
  readBuffer : 0 < setup.params.readIo → setup.buffers.read.buffer ≠ 0
  writeBuffer : 0 < setup.params.writeIo → setup.buffers.write.buffer ≠ 0

/-- A lane with a batch size of zero. -/
structure WholeLane extends AcceptedLane where
  nsid : Nat
  whole : setup.params.batchSize = 0

theorem AcceptedLane.totalOps_eq (lane : AcceptedLane) :
    lane.setup.params.totalOps = lane.setup.params.readIo + lane.setup.params.writeIo :=
  Nat.mod_eq_of_lt (lane.total_lt.trans (by decide))

namespace WholeLane

variable (lane : WholeLane)

theorem effBatch_eq : lane.setup.params.effBatch =
    min (lane.setup.params.readIo + lane.setup.params.writeIo)
      (lane.setup.params.queueSize - 1) := by
  rw [IoParams.effBatch, IoParams.cappedBatch, lane.whole, lane.finite, lane.totalOps_eq]
  simp only [if_true, Bool.false_eq_true, if_false, true_and]
  split_ifs <;> omega

theorem effBatch_withBatch : (lane.setup.params.withBatch lane.setup.params.effBatch).effBatch =
      lane.setup.params.effBatch := by
  have effective := lane.effBatch_eq
  have total := lane.totalOps_eq
  simp only [IoParams.effBatch, IoParams.cappedBatch, IoParams.totalOps, IoParams.withBatch,
    lane.finite, Bool.false_eq_true, if_false, true_and] at total ⊢
  split_ifs <;> omega

def explicit (lane : WholeLane) : Lane where
  __ := lane.toLane
  setup :=
    { lane.setup with
      params := lane.setup.params.withBatch lane.setup.params.effBatch
      buffers :=
        { lane.setup.buffers with
          pageDmas_aligned := fun slot inside =>
            lane.setup.buffers.pageDmas_aligned slot (by
              rwa [IoParams.prpDmaSlots, lane.effBatch_withBatch] at inside) } }

/-- No operation is issued twice, all are issued when the kernel is done, the kernel ends, and it
issues what that of the explicit batch size issues. -/
structure MeansEffBatch (lane : WholeLane) : Prop where
  once : ∀ issues, lane.Issues lane.nsid issues false → (issuedOps issues).Nodup
  all : ∀ issues, lane.Issues lane.nsid issues true →
    (issuedOps issues).Perm (List.range (lane.setup.params.readIo + lane.setup.params.writeIo))
  ends : lane.KernelEnds
  same : ∀ issues done, lane.Issues lane.nsid issues done ↔
    lane.explicit.Issues lane.nsid issues done

end WholeLane

/-! ### One thread -/

theorem QueuePair.controller_seenBy (memory own : QueuePair) (label : QueuePair.Controller) :
    (memory.seenBy own).controller label =
      (memory.controller label).map fun queue => queue.seenBy own := by
  cases label with
  | fetch =>
    simp only [QueuePair.controller]
    by_cases more : memory.fetched < memory.announced
    · rw [if_pos more, Option.map_some]
      exact if_pos more
    · rw [if_neg more, Option.map_none]
      exact if_neg more
  | post index statusField =>
    have same : (memory.seenBy own).inFlight[index]? = memory.inFlight[index]? := rfl
    simp only [QueuePair.controller, same]
    cases memory.inFlight[index]? with
    | none => rfl
    | some command =>
      by_cases room : memory.posted.length < memory.released + memory.queueSize
      · simp only [if_pos room, Option.map_some]
        exact if_pos room
      · simp only [if_neg room, Option.map_none]
        exact if_neg room

def TeamLabel.drive : TeamLabel → DriveLabel
  | .thread _ => .thread
  | .controller label => .controller label
  | .stop => .stop

namespace Setup

section

variable {setup : Setup} {team next : Team} {label : TeamLabel}

theorem singleThread_stopFlag {drive after : Drive} (move : setup.singleThread drive = some after) :
    after.stopFlag = drive.stopFlag := by
  cases move_of_singleThread move <;> rfl

theorem teamStep_cases {count : Nat} (move : setup.teamStep count team label = some next) :
    (∃ index drive, label = .thread index ∧ index < count ∧
        setup.singleThread (team.view index) = some drive ∧
        next = { team with
          memory := drive.queue
          threads := update team.threads index drive }) ∨
      (∃ answer queue, label = .controller answer ∧
        team.memory.controller answer = some queue ∧ next = { team with memory := queue }) ∨
      label = .stop ∧ next = { team with stopFlag := true } := by
  cases label with
  | thread index =>
    obtain ⟨inside, move⟩ := Option.ite_none_right_eq_some.mp move
    split at move
    case h_1 => cases move
    case h_2 drive step => exact .inl ⟨index, drive, rfl, inside, step, (Option.some.inj move).symm⟩
  | controller answer =>
    simp only [teamStep] at move
    split at move
    case h_1 => cases move
    case h_2 queue step =>
      exact .inr (.inl ⟨answer, queue, rfl, step, (Option.some.inj move).symm⟩)
  | stop => exact .inr (.inr ⟨rfl, (Option.some.inj move).symm⟩)

theorem view_thread {drive : Drive} {index : Nat}
    (move : setup.singleThread (team.view index) = some drive) :
    Team.view { team with
      memory := drive.queue
      threads := update team.threads index drive } index = drive := by
  have flag := singleThread_stopFlag move
  simp only [Team.view, update_self]
  cases drive
  cases flag
  rfl

theorem view_step (move : setup.teamStep 1 team label = some next) :
    setup.driveEndpointOf .single (team.view 0) label.drive = some (next.view 0) := by
  rcases teamStep_cases move with ⟨index, drive, rfl, first, step, rfl⟩ |
    ⟨answer, queue, rfl, step, rfl⟩ | ⟨rfl, rfl⟩
  · obtain rfl := Nat.lt_one_iff.mp first
    rw [view_thread step]
    exact step
  · have seen := QueuePair.controller_seenBy team.memory (team.threads 0).queue answer
    rw [step, Option.map_some] at seen
    simp only [driveEndpointOf, driveEndpointSingle, environment, TeamLabel.drive, Team.view, seen]
  · rfl

theorem answered_view (answered : Lane.TeamAnswered team label)
    (move : setup.teamStep 1 team label = some next) : Answered (team.view 0) label.drive := by
  rcases teamStep_cases move with ⟨index, drive, rfl, first, -, -⟩ |
    ⟨answer, queue, rfl, -, -⟩ | ⟨rfl, -⟩
  · obtain rfl := Nat.lt_one_iff.mp first
    exact ⟨nofun, fun _ => answered⟩
  · exact ⟨nofun, nofun⟩
  · exact answered.elim

end

end Setup

namespace Lane

theorem issuedOps_append (first second : List Issue) :
    issuedOps (first ++ second) = issuedOps first ++ issuedOps second :=
  List.filterMap_append

variable {lane : Lane} {nsid : Nat}

/-- A step of a single drive submits one command and issues the operation with its number, or
does neither. -/
theorem issuedOps_move {drive next : Drive} (invariant : lane.setup.Invariant drive)
    (finite : lane.setup.params.infiniteMode = false) (bounded : lane.setup.Bounded)
    (move : Setup.Move lane.setup .single drive .thread next) :
    List.range next.queue.submitted =
      List.range drive.queue.submitted ++ issuedOps (lane.issued nsid drive .thread next) := by
  cases move with
  | submits b _ place inBatch valid =>
    have progress := invariant.progress
    simp only [Setup.Progress, place] at progress
    obtain ⟨submitted, -, counter⟩ := progress
    obtain ⟨opsDone, total⟩ := counter.unwrapped finite bounded
    have below : lane.setup.params.totalOps < 2 ^ 32 := Nat.mod_lt _ (by decide)
    have number : (drive.opsDone + b) % 2 ^ 32 = drive.queue.submitted := by
      rw [Nat.mod_eq_of_lt (by omega), opsDone, submitted]
    have issued : issuedOps (lane.issued nsid drive .thread
        { drive with queue := drive.queue.submit, pc := .write (b + 1) }) =
          [drive.queue.submitted] := by
      simp only [Lane.issued, place, number]
      rfl
    rw [issued]
    exact List.range_succ
  | rings b _ place | closes b _ _ place | refuses b _ place | takes b _ place
  | waits b _ place | opens place | leaves _ place =>
    simp only [Lane.issued, place, Setup.Kind.opening]
    exact (List.append_nil _).symm
  | stops b _ place | fails b _ place | expires b _ place =>
    simp only [Lane.issued, place, Setup.Kind.givenUp]
    exact (List.append_nil _).symm
  | aborts | publishes | polled | ends => contradiction

/-- The one thread of a block issues the operations in their order. -/
structure InOrder (lane : Lane) (observed : Observed Team (List Issue)) : Prop where
  invariant : lane.setup.Invariant (observed.state.view 0)
  ops : issuedOps observed.history = List.range (observed.state.view 0).queue.submitted

theorem InOrder.step {observed next : Observed Team (List Issue)} {label : TeamLabel}
    (inOrder : lane.InOrder observed) (finite : lane.setup.params.infiniteMode = false)
    (bounded : lane.setup.Bounded)
    (move : observe (lane.setup.teamStep 1) id (lane.recordTeam nsid) observed label =
      some next) : lane.InOrder next := by
  obtain ⟨step, record⟩ := observe_eq_some_iff.mp move
  have moves := Setup.move_of_step (Setup.view_step step)
  refine ⟨inOrder.invariant.move moves, ?_⟩
  rw [record]
  rcases Setup.teamStep_cases step with ⟨index, drive, same, first, thread, after⟩ |
    ⟨answer, queue, same, -, after⟩ | ⟨same, after⟩
  · obtain rfl : label = .thread index := same
    obtain rfl := Nat.lt_one_iff.mp first
    have view : next.state.view 0 = drive := by rw [after, Setup.view_thread thread]
    have mine : next.state.threads 0 = drive := by simp only [after, update_self]
    rw [view] at moves ⊢
    rw [Lane.recordTeam, mine, issuedOps_append, inOrder.ops]
    exact (issuedOps_move inOrder.invariant finite bounded moves).symm
  · obtain rfl : label = .controller answer := same
    rw [after]
    exact inOrder.ops
  · obtain rfl : label = .stop := same
    rw [after]
    exact inOrder.ops

end Lane

/-- The lane in a run of its own. -/
def AcceptedLane.launch (lane : AcceptedLane) : Launch where
  params := lane.setup.params
  buffers := fun _ => lane.setup.buffers
  lanes := 1
  startTimes := false
  timingStats := lane.setup.timingStats
  stopRequested := lane.setup.stopRequested
  finite := lane.finite
  requested := lane.requested
  total_lt := lane.total_lt
  size := lane.size
  lanes_pos := Nat.one_pos
  lanes_lt := Launch.oneLane_lt
  transfer_pos := lane.transfer_pos
  small := lane.small
  accepted := fun _ => lane.accepted
  readBuffer := fun _ => lane.readBuffer
  writeBuffer := fun _ => lane.writeBuffer

theorem AcceptedLane.sound (lane : AcceptedLane) : lane.setup.Sound :=
  let sound := lane.launch.setup_sound 0
  ⟨sound.size, sound.finite, sound.requested, sound.bounded, sound.valid⟩

namespace WholeLane

section

variable {lane : WholeLane}

theorem single (lane : WholeLane) : ¬ lane.setup.params.batchSize > 1 := by
  rw [lane.whole]
  decide

theorem kernelThreads_eq (one : lane.setup.params.effBatch ≤ 1) :
    lane.setup.params.kernelThreads = 1 :=
  if_neg (Nat.not_lt.mpr one)

theorem effBatch_pos (lane : WholeLane) : 0 < lane.setup.params.effBatch := by
  have requested := lane.requested
  have size := lane.size
  have effective := lane.effBatch_eq
  omega

theorem batchSizeOf_pos (lane : WholeLane) : 0 < lane.setup.batchSizeOf .single := by
  have positive := lane.effBatch_pos
  show 0 < lane.setup.singleBatch
  unfold Setup.singleBatch
  split_ifs
  · decide
  · exact positive

variable {issues : List Issue}

section

variable (one : lane.setup.params.effBatch ≤ 1)
include one

theorem inOrder {done : Bool} (possible : lane.Issues lane.nsid issues done) :
    ∃ team, lane.InOrder ⟨team, issues⟩ ∧ (done = true → (team.view 0).pc = .returned .done) := by
  rw [Lane.Issues, if_neg lane.single, kernelThreads_eq one] at possible
  obtain ⟨labels, team, reaches, finished⟩ := possible
  have initial : lane.InOrder ⟨lane.setup.teamStart, []⟩ := ⟨Setup.start_invariant lane.size, rfl⟩
  exact ⟨team, run_invariant (fun _ _ _ before move =>
      Lane.InOrder.step before lane.finite lane.sound.bounded move) initial reaches,
    fun isDone => finished isDone 0 Nat.one_pos⟩

theorem once (possible : lane.Issues lane.nsid issues false) : (issuedOps issues).Nodup := by
  obtain ⟨team, inOrder, -⟩ := inOrder one possible
  rw [inOrder.ops]
  exact List.nodup_range

theorem all (possible : lane.Issues lane.nsid issues true) : (issuedOps issues).Perm
      (List.range (lane.setup.params.readIo + lane.setup.params.writeIo)) := by
  obtain ⟨team, inOrder, finished⟩ := inOrder one possible
  obtain ⟨submitted, -, -⟩ := inOrder.invariant.complete lane.sound.bounded (finished rfl)
  rw [inOrder.ops, submitted]

end

structure OnItsWay (lane : WholeLane) (team : Team) : Prop where
  flow : lane.setup.Flow .single (team.view 0)
  visits : Setup.Kind.visits .single (team.view 0).pc = true

theorem OnItsWay.step {team next : Team} {label : TeamLabel} (onItsWay : lane.OnItsWay team)
    (answered : Lane.TeamAnswered team label)
    (move : lane.setup.teamStep 1 team label = some next) :
    lane.OnItsWay next ∧ lane.setup.work (next.view 0) + (Lane.isThread label).toNat ≤
        lane.setup.work (team.view 0) := by
  have step : lane.setup.gpuKernel .single (team.view 0) label.drive = some (next.view 0) :=
    Setup.view_step move
  have inTime := Setup.answered_view answered move
  have ours : label.drive.ours = Lane.isThread label := by cases label <;> rfl
  refine ⟨⟨onItsWay.flow.step lane.sound inTime step,
    Setup.visits_of_step step onItsWay.visits⟩, ?_⟩
  have flow : lane.setup.Flow (Setup.Crew.kind .single) (team.view 0) := onItsWay.flow
  rw [← ours]
  exact flow.work_le_of_step lane.sound inTime lane.batchSizeOf_pos step

variable {team : Team}

theorem OnItsWay.exists_step (onItsWay : lane.OnItsWay team)
    (active : (team.view 0).pc.terminal = false) :
    ∃ next, lane.setup.teamStep 1 team (.thread 0) = some next := by
  have visits : (Setup.Crew.kind .single).visits (team.view 0).pc = true := onItsWay.visits
  obtain ⟨label, drive, ours, step⟩ : ∃ label drive, label.ours = true ∧
      lane.setup.gpuKernel .single (team.view 0) label = some drive :=
    Setup.exists_step visits active
  cases label with
  | thread =>
    have thread : lane.setup.singleThread (team.view 0) = some drive := step
    refine ⟨{ team with
      memory := drive.queue
      threads := update team.threads 0 drive }, ?_⟩
    rw [Setup.teamStep, if_pos Nat.one_pos, thread]
  | worker => exact nomatch step
  | controller | stop => exact nomatch ours

theorem kernelEnds (one : lane.setup.params.effBatch ≤ 1) : lane.KernelEnds := by
  refine ⟨lane.setup.work lane.setup.start, ?_⟩
  rw [kernelThreads_eq one]
  intro labels team answered reaches
  have initial : lane.OnItsWay lane.setup.teamStart := ⟨Setup.Flow.start lane.sound, rfl⟩
  obtain ⟨onItsWay, count⟩ := run_spends_of_everyStep (motive := lane.OnItsWay)
    (fun _ _ _ before inTime move => before.step inTime move) initial answered reaches
  refine ⟨(Nat.le_add_right _ _).trans count, ?_, fun ended success index first => ?_⟩
  · rintro ⟨index, first, active⟩
    obtain rfl := Nat.lt_one_iff.mp first
    exact ⟨0, onItsWay.exists_step active⟩
  · obtain rfl := Nat.lt_one_iff.mp first
    exact (onItsWay.flow.done_iff (ended 0 Nat.one_pos)).mpr success

/-! ### The explicit batch size -/

theorem hasPool_explicit (lane : WholeLane) :
    lane.explicit.setup.params.hasPool = lane.setup.params.hasPool := by
  have slots : lane.explicit.setup.params.prpDmaSlots = lane.setup.params.prpDmaSlots := by
    show (lane.setup.params.withBatch lane.setup.params.effBatch).effBatch * _ = _
    rw [lane.effBatch_withBatch]
    rfl
  rw [IoParams.hasPool, slots]
  rfl

theorem sqe_explicit (lane : WholeLane) (opIdx b : Nat) :
    lane.explicit.sqe lane.nsid opIdx b = lane.sqe lane.nsid opIdx b := by
  have prps : ∀ isWrite, lane.explicit.setup.buffers.slotPrps b isWrite =
      lane.setup.buffers.slotPrps b isWrite := fun isWrite => by
    rw [BufferParams.slotPrps, BufferParams.prpListDmaForSlot, lane.hasPool_explicit]
    rfl
  rw [Lane.sqe, prps]
  rfl

theorem singleThread_explicit (lane : WholeLane) :
    lane.explicit.setup.singleThread = lane.setup.singleThread := by
  have effective : lane.explicit.setup.params.effBatch = lane.setup.params.effBatch :=
    lane.effBatch_withBatch
  have batch : lane.explicit.setup.singleBatch = lane.setup.singleBatch := by
    rw [Setup.singleBatch, effective]
    rfl
  funext drive
  rw [Setup.singleThread, batch]
  rfl

theorem teamStep_explicit (lane : WholeLane) (count : Nat) :
    lane.explicit.setup.teamStep count = lane.setup.teamStep count := by
  funext team label
  cases label with
  | thread index => rw [Setup.teamStep, lane.singleThread_explicit, Setup.teamStep]
  | controller | stop => rfl

theorem recordTeam_explicit (lane : WholeLane) :
    lane.explicit.recordTeam lane.nsid = lane.recordTeam lane.nsid := by
  have sqe : ∀ opIdx b, lane.explicit.sqe lane.nsid opIdx b = lane.sqe lane.nsid opIdx b :=
    lane.sqe_explicit
  have issued : lane.explicit.issued lane.nsid = lane.issued lane.nsid := by
    funext drive label next
    simp only [Lane.issued, sqe]
  funext team label next issues
  cases label with
  | thread index => rw [Lane.recordTeam, issued, Lane.recordTeam]
  | controller | stop => rfl

theorem same (one : lane.setup.params.effBatch ≤ 1) (issues : List Issue) (done : Bool) :
    lane.Issues lane.nsid issues done ↔ lane.explicit.Issues lane.nsid issues done := by
  have alsoSingle : ¬ lane.explicit.setup.params.batchSize > 1 := Nat.not_lt.mpr one
  have threads : lane.explicit.setup.params.kernelThreads = lane.setup.params.kernelThreads := by
    have effective : lane.explicit.setup.params.effBatch = lane.setup.params.effBatch :=
      lane.effBatch_withBatch
    rw [IoParams.kernelThreads, effective]
    rfl
  rw [Lane.Issues, Lane.Issues, if_neg lane.single, if_neg alsoSingle, threads,
    lane.teamStep_explicit, lane.recordTeam_explicit]
  rfl

/-! ### Several threads -/

variable {drive : Drive}

theorem singleThread_opens (lane : WholeLane) (top : drive.pc = .top) (first : drive.opsDone = 0)
    (running : drive.stopFlag = false) :
    ∃ opened, lane.setup.singleThread drive = some opened ∧ opened.pc = .write 0 ∧
      0 < opened.batchCount ∧ opened.opsDone = 0 := by
  have total : 0 < lane.setup.params.totalOps := lane.totalOps_eq ▸ lane.requested
  have most : lane.setup.params.totalOps < 2 ^ 32 := Nat.mod_lt _ (by decide)
  have batch := lane.batchSizeOf_pos
  have wanted : (lane.setup.params.infiniteMode = true ∨
      drive.opsDone < lane.setup.params.totalOps) ∧ lane.setup.stopSeen drive = false :=
    ⟨.inr (first ▸ total), by rw [Setup.stopSeen, running, Bool.and_false]⟩
  have opens : lane.setup.singleThread drive = some { drive with
      batchCount := lane.setup.batchCount lane.setup.singleBatch drive.opsDone
      pc := .write 0 } := by
    simp only [Setup.singleThread, top, if_pos wanted]
  refine ⟨_, opens, rfl, ?_, first⟩
  rw [first]
  unfold Setup.batchCount
  split_ifs
  · rw [Nat.sub_zero, Nat.add_mod_right, Nat.mod_eq_of_lt most]
    exact total
  · exact batch

theorem singleThread_writes (lane : WholeLane) (place : drive.pc = .write 0)
    (more : 0 < drive.batchCount) : lane.setup.singleThread drive =
      some { drive with queue := drive.queue.submit, pc := .write 1 } := by
  have early : 0 < min lane.setup.singleBatch 256 := lt_min lane.batchSizeOf_pos (by decide)
  simp only [Setup.singleThread, place, if_pos more, if_pos (Or.inl early)]

variable {index count : Nat}

theorem observe_thread (issues : List Issue) (inside : index < count)
    (step : lane.setup.singleThread (team.view index) = some drive) :
    observe (lane.setup.teamStep count) id (lane.recordTeam lane.nsid) ⟨team, issues⟩
        (.thread index) =
      some ⟨{ team with
          memory := drive.queue
          threads := update team.threads index drive },
        issues ++ lane.issued lane.nsid (team.view index) .thread drive⟩ := by
  refine observe_eq_some_iff.mpr ⟨?_, ?_⟩
  · simp only [id_eq, Setup.teamStep, if_pos inside, step]
  · simp only [Lane.recordTeam, update_self]

/-- Whatever the others have done, a thread that has not begun issues operation zero with its
first two steps. -/
theorem thread_begins (lane : WholeLane) (team : Team) (issues : List Issue)
    (inside : index < count) (top : (team.threads index).pc = .top)
    (first : (team.threads index).opsDone = 0) (running : team.stopFlag = false) :
    ∃ next slot sqe, run (observe (lane.setup.teamStep count) id (lane.recordTeam lane.nsid))
        ⟨team, issues⟩ [.thread index, .thread index] =
          some ⟨next, issues ++ [.sqe 0 slot sqe]⟩ ∧ next.stopFlag = false ∧
      ∀ other, other ≠ index → next.threads other = team.threads other := by
  have place : (team.view index).pc = .top := top
  obtain ⟨opened, opens, writing, more, opsDone⟩ := lane.singleThread_opens place first running
  have quiet : lane.issued lane.nsid (team.view index) .thread opened = [] := by
    simp only [Lane.issued, place]
  have one := observe_thread issues inside opens
  rw [quiet, List.append_nil] at one
  have view := Setup.view_thread opens
  have writes := lane.singleThread_writes writing more
  rw [← view] at writes
  have two := observe_thread issues inside writes
  rw [view] at two
  have issued : lane.issued lane.nsid opened .thread
      { opened with queue := opened.queue.submit, pc := .write 1 } =
        [.sqe 0 opened.queue.sqTail (lane.sqe lane.nsid 0 0)] := by
    simp only [Lane.issued, writing, opsDone]
    rfl
  rw [issued] at two
  refine ⟨_, _, _, (run_cons_of_step one).trans (run_cons_of_step two), running,
    fun other different => ?_⟩
  show update (update team.threads index _) index _ other = _
  rw [update_of_ne different, update_of_ne different]

theorem issued_twice (lane : WholeLane) (several : 1 < lane.setup.params.effBatch) :
    ∃ issues, lane.Issues lane.nsid issues false ∧ ¬ (issuedOps issues).Nodup := by
  have threads : lane.setup.params.kernelThreads = lane.setup.params.effBatch + 1 := if_pos several
  obtain ⟨middle, slot, sqe, begins, running, others⟩ :=
    lane.thread_begins lane.setup.teamStart [] (Nat.succ_pos lane.setup.params.effBatch) rfl rfl rfl
  have fresh : middle.threads 1 = lane.setup.start := others 1 Nat.one_ne_zero
  have second : 1 < lane.setup.params.effBatch + 1 := by omega
  obtain ⟨next, otherSlot, otherSqe, follows, -⟩ :=
    lane.thread_begins middle ([] ++ [.sqe 0 slot sqe]) second (by rw [fresh]; rfl)
      (by rw [fresh]; rfl) running
  refine ⟨[.sqe 0 slot sqe, .sqe 0 otherSlot otherSqe], ?_, ?_⟩
  · rw [Lane.Issues, if_neg lane.single, threads]
    exact ⟨_, next, (run_append_of_run begins).trans follows, nofun⟩
  · exact fun distinct => (List.nodup_cons.mp distinct).1 List.mem_cons_self

/-- A batch size of zero means the batch size that `run` computes for it if and only if there
is one operation, or the queue has two entries. -/
theorem meansEffBatch_iff (lane : WholeLane) :
    lane.MeansEffBatch ↔ lane.setup.params.readIo + lane.setup.params.writeIo = 1 ∨
      lane.setup.params.queueSize = 2 := by
  have effective := lane.effBatch_eq
  have requested := lane.requested
  have size := lane.size
  constructor
  · intro means
    by_contra large
    obtain ⟨issues, possible, twice⟩ := lane.issued_twice (by omega)
    exact twice (means.once issues possible)
  · intro small
    have one : lane.setup.params.effBatch ≤ 1 := by omega
    exact ⟨fun _ => once one, fun _ => all one, kernelEnds one, same one⟩

end

/-! ### Two reads -/

theorem firstBlock_lt : 0 < 2 ^ 64 := by decide

theorem eightBlocks_pos : 0 < 8 := by decide

/-- Two reads with a batch size of zero, on a queue of four entries. -/
def twoReadsAtOnce : WholeLane where
  setup :=
    { params := Launch.twoReadsParams.withBatch 0
      buffers := ⟨1024, repeatedPage 1024, repeatedPage 1024, fun _ => 0, fun _ _ => rfl⟩
      timingStats := false
      stopRequested := false }
  baseLba := 0
  lbaRangeLbas := 8
  useRandomAccess := false
  lfsrSeed := 0
  baseLba_lt := firstBlock_lt
  lbaRangeLbas_pos := eightBlocks_pos
  lbaRangeLbas_lt := by decide
  lbasPerIo_pos := Nat.one_pos
  readIo_lt := by decide
  writeIo_lt := by decide
  requested := Nat.two_pos
  infinite := nofun
  nsid := 1
  whole := rfl
  finite := rfl
  total_lt := by decide
  size := by decide
  transfer_pos := by decide
  small := by decide
  accepted := by decide
  readBuffer := fun _ => by decide
  writeBuffer := fun _ => by decide

/-- Three threads are started for two reads, and each of them issues the first one. -/
theorem twoReadsAtOnce_issued_twice : twoReadsAtOnce.setup.params.kernelThreads = 3 ∧
    (∃ issues, twoReadsAtOnce.Issues 1 issues false ∧ ¬ (issuedOps issues).Nodup) ∧
    ¬ twoReadsAtOnce.MeansEffBatch := by
  have twice : ∃ issues, twoReadsAtOnce.Issues 1 issues false ∧ ¬ (issuedOps issues).Nodup :=
    twoReadsAtOnce.issued_twice (by decide)
  refine ⟨by decide, twice, fun means => ?_⟩
  obtain ⟨issues, possible, repeated⟩ := twice
  exact repeated (means.once issues possible)

end WholeLane

end RocmXio.Nvme
