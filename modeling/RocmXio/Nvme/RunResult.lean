/-
The result of `nvme_ep::run`.

`run` starts one kernel for each lane, waits for all of them and reports success unless a wait
failed or, in one of its timing modes, too few completions were counted. The single drive traps on a
completion that reports an error, and the wait fails; the errors of the wavefront drive are seen by
the count alone.

The count goes wrong in three ways. With one lane and no statistics of the caller's own, the lane's
statistics are handed to the caller before they are counted. A completion that comes at the very
time its entry was written is not counted. And a block without workers counts completions of entries
that nobody wrote. Where nothing is counted, errors of the wavefront drive go unreported.

A batch size of zero with room for several entries starts several threads of the single drive on one
queue pair. These blocks are modelled in `WholeBatch`; nothing is said about their result.
-/

import RocmXio.Nvme.DriveOutcome

namespace RocmXio.Nvme

open Lib Function

/-- What `run` returns, as far as the lanes decide it. -/
inductive HipError where
  | success
  | launchFailure
  | runtimeOther
deriving DecidableEq, Repr

/-! ### Lanes and their clocks -/

/-- Beside the drive of a lane: the clock, the start times of the batch (`batchStartTimes` and
`sh_startTimes`), the number of completions with a duration (`count` of its statistics), and as
history the number of those without one and the commands whose entries have been written. -/
structure LaneLog where
  now : Nat
  starts : Nat → Nat
  count : Nat
  instant : Nat
  written : Nat → Bool

/-- A step of a lane, and the time that has passed since the step before. -/
structure LaneEvent where
  elapsed : Nat
  move : DriveLabel

namespace Setup

/-- A start time is read when an entry is written, and an end time when its completion is
taken. -/
def recordLog (setup : Setup) (drive : Drive) (event : LaneEvent) (next : Drive)
    (log : LaneLog) : LaneLog :=
  let now := log.now + event.elapsed
  match drive.pc, event.move, next.pc with
  | .write b, .thread, .write _ =>
    { log with
      now := now
      starts := update log.starts b now
      written := update log.written drive.queue.submitted true }
  | .prepare _, .worker b, _ =>
    if next.shError then { log with now := now }
    else
      { log with
        now := now
        starts := update log.starts b now
        written := update log.written (drive.queue.submitted + b) true }
  | .poll b _, .thread, .poll taken _ =>
    if setup.timingStats = true ∧ taken = b + 1 then
      if log.starts b < now then { log with now := now, count := log.count + 1 }
      else { log with now := now, instant := log.instant + 1 }
    else { log with now := now }
  | _, _, _ => { log with now := now }

/-- A lane: the block that `run` starts for it, if that is a `Crew`, and its clock. -/
def lane (setup : Setup) :
    Observed Drive LaneLog → LaneEvent → Option (Observed Drive LaneLog) :=
  observe (setup.gpuKernel setup.crew) LaneEvent.move setup.recordLog

/-- A lane at its start. The start times are whatever the memory holds. -/
def laneStart (setup : Setup) (now : Nat) (starts : Nat → Nat) : Observed Drive LaneLog :=
  ⟨setup.start,
    { now := now, starts := starts, count := 0, instant := 0, written := fun _ => false }⟩

def LaneAnswered (observed : Observed Drive LaneLog) (event : LaneEvent) : Prop :=
  Answered observed.state event.move

instance LaneAnswered.decidable (observed : Observed Drive LaneLog) (event : LaneEvent) :
    Decidable (LaneAnswered observed event) :=
  inferInstanceAs (Decidable (Answered _ _))

/-- All requested commands were written to the queue and completed with success. -/
def Requested (setup : Setup) (observed : Observed Drive LaneLog) : Prop :=
  ∀ number < setup.params.readIo + setup.params.writeIo, observed.history.written number = true ∧
    ∃ cqe ∈ observed.state.queue.posted, cqe.command = number ∧ cqe.ok = true

end Setup

/-! ### The run -/

/-- A finite run that `validateConfig` and `run` accept: its parameters, the buffers of each lane,
the number of lanes, and the kinds of timing the caller has provided memory for. -/
structure Launch where
  params : IoParams
  buffers : Nat → BufferParams params
  lanes : Nat
  startTimes : Bool
  timingStats : Bool
  stopRequested : Bool
  finite : params.infiniteMode = false
  requested : 0 < params.readIo + params.writeIo
  total_lt : params.readIo + params.writeIo < 2 ^ 31
  size : 2 ≤ params.queueSize
  lanes_pos : 0 < lanes
  lanes_lt : lanes < 2 ^ 32
  transfer_pos : 0 < params.transferSize
  small : params.transferSize ≤ 513 * pageSize
  accepted : ∀ lane, params.accepts (buffers lane).bufferSize = true
  readBuffer : ∀ lane, 0 < params.readIo → (buffers lane).read.buffer ≠ 0
  writeBuffer : ∀ lane, 0 < params.writeIo → (buffers lane).write.buffer ≠ 0

namespace Launch

variable (launch : Launch)

def forcedLessTiming : Bool :=
  (decide (launch.params.batchSize > 1) || decide (launch.lanes > 1)) && launch.startTimes

def useLessTiming : Bool :=
  launch.forcedLessTiming || launch.timingStats

def setup (lane : Nat) : Setup where
  params := launch.params
  buffers := launch.buffers lane
  timingStats := launch.useLessTiming
  stopRequested := launch.stopRequested

/-- `perQueueStats` when the completions are counted; those of a single lane have gone to a caller
that had none. -/
def perQueueStats (finals : Nat → Observed Drive LaneLog) (lane : Nat) : Option Nat :=
  if launch.useLessTiming = false then none
  else if launch.lanes = 1 ∧ launch.timingStats = false then none
  else some (finals lane).history.count

def expected : Nat :=
  launch.lanes * (launch.params.readIo + launch.params.writeIo) % 2 ^ 64

def completed (finals : Nat → Observed Drive LaneLog) : Nat :=
  ((List.range launch.lanes).map fun lane => (launch.perQueueStats finals lane).getD 0).sum % 2 ^ 64

/-- The result of `run` when the lanes have ended as given. -/
def result (finals : Nat → Observed Drive LaneLog) : HipError :=
  if (List.range launch.lanes).any fun lane => (finals lane).state.pc == .trapped then
    .launchFailure
  else if launch.forcedLessTiming = true ∧ launch.expected > 0 ∧
      launch.completed finals < launch.expected then
    .runtimeOther
  else .success

theorem isReadOp_requested (lane opIdx : Nat) :
    if (launch.setup lane).isReadOp opIdx then 0 < launch.params.readIo
    else 0 < launch.params.writeIo := by
  have requested := launch.requested
  have finite : ¬ launch.params.infiniteMode = true := by simp [launch.finite]
  unfold Setup.isReadOp
  rw [show (launch.setup lane).params = launch.params from rfl, if_neg finite]
  by_cases both : launch.params.writeIo > 0 ∧ launch.params.readIo > 0
  · split_ifs
    · exact both.2
    · exact both.1
  · rw [if_neg both]
    by_cases reads : launch.params.readIo > 0
    · rw [if_pos (decide_eq_true reads)]
      exact reads
    · rw [if_neg (by simpa using reads)]
      omega

theorem buffer_ne_zero (lane opIdx : Nat) :
    ((launch.buffers lane).direction (!(launch.setup lane).isReadOp opIdx)).buffer ≠ 0 := by
  have needed := launch.isReadOp_requested lane opIdx
  cases isRead : (launch.setup lane).isReadOp opIdx with
  | true =>
    rw [isRead, if_pos rfl] at needed
    exact launch.readBuffer lane needed
  | false =>
    rw [isRead, if_neg Bool.false_ne_true] at needed
    exact launch.writeBuffer lane needed

theorem prpValid_of_inBatch (lane opIdx : Nat) {b : Nat} (inBatch : b < launch.params.effBatch)
    : (launch.setup lane).prpValid opIdx b = true := by
  obtain ⟨inside, bounded⟩ := BufferParams.slot_inside (launch.accepted lane) inBatch launch.small
  have positive := launch.transfer_pos
  have offset : BufferParams.bufOff launch.params b = b * launch.params.transferSize :=
    Nat.mod_eq_of_lt (by omega)
  unfold Setup.prpValid
  rw [Bool.and_eq_true, decide_eq_true_eq, decide_eq_true_eq]
  refine ⟨⟨launch.buffer_ne_zero lane opIdx, ?_⟩, ?_⟩
  · show 0 < (launch.buffers lane).bufferSize
    omega
  · show (BufferParams.bufOff launch.params b + launch.params.transferSize) % 2 ^ 64 ≤
      (launch.buffers lane).bufferSize
    rw [offset, Nat.mod_eq_of_lt (by omega)]
    exact inside

theorem setup_sound (lane : Nat) : (launch.setup lane).Sound where
  __ := launch
  bounded := by
    have total := launch.total_lt
    have size := launch.params.queueSize_lt
    show launch.params.readIo + launch.params.writeIo + launch.params.queueSize < 2 ^ 32
    omega
  valid := fun opIdx b inBatch => launch.prpValid_of_inBatch lane opIdx inBatch

end Launch

namespace Setup

section

variable {setup : Setup} {observed next : Observed Drive LaneLog} {event : LaneEvent}

/-! ### What the log knows -/

/-- With workers, or with a single thread, every submitted command was written, and so was the entry
of every worker that has arrived; the coordinator alone writes nothing. Each completion taken is
counted or came at its start time. -/
structure Logged (setup : Setup) (observed : Observed Drive LaneLog) : Prop where
  submitted : setup.crew ≠ .alone → ∀ number < observed.state.queue.submitted,
    observed.history.written number = true
  prepared : setup.crew ≠ .alone → ∀ prepared, observed.state.pc = .prepare prepared →
    ∀ b ∈ prepared, observed.history.written (observed.state.queue.submitted + b) = true
  blank : setup.crew = .alone → ∀ number, observed.history.written number = false
  counted : setup.timingStats = true →
    observed.history.count + observed.history.instant = observed.state.queue.accepted.length

theorem Logged.start (now : Nat) (starts : Nat → Nat) :
    setup.Logged (setup.laneStart now starts) where
  submitted := fun _ _ impossible => absurd impossible (Nat.not_lt_zero _)
  prepared := by simp [laneStart, Setup.start]
  blank := fun _ _ => rfl
  counted := fun _ => rfl

theorem Logged.follow {drive nextDrive : Drive} {log : LaneLog} {now : Nat}
    (logged : setup.Logged ⟨drive, log⟩)
    (submitted : nextDrive.queue.submitted = drive.queue.submitted)
    (accepted : nextDrive.queue.accepted = drive.queue.accepted)
    (prepared : ∀ prepared, nextDrive.pc = .prepare prepared →
      prepared = [] ∨ drive.pc = .prepare prepared) :
    setup.Logged ⟨nextDrive, { log with now := now }⟩ where
  submitted := fun staffed number below => logged.submitted staffed number (submitted ▸ below)
  prepared := fun staffed arrived place b member => by
    rcases prepared arrived place with rfl | same
    · exact absurd member (by simp)
    · rw [submitted]
      exact logged.prepared staffed arrived same b member
  blank := logged.blank
  counted := fun timed => (logged.counted timed).trans (congrArg List.length accepted.symm)

theorem Logged.writes {drive nextDrive : Drive} {log : LaneLog} {now b number : Nat}
    (logged : setup.Logged ⟨drive, log⟩) (staffed : setup.crew ≠ .alone)
    (accepted : nextDrive.queue.accepted = drive.queue.accepted)
    (submitted : ∀ other, other < nextDrive.queue.submitted →
      other < drive.queue.submitted ∨ other = number)
    (prepared : ∀ prepared, nextDrive.pc = .prepare prepared → ∀ other ∈ prepared,
      nextDrive.queue.submitted + other = number ∨
        log.written (nextDrive.queue.submitted + other) = true) :
    setup.Logged ⟨nextDrive, { log with
      now := now
      starts := update log.starts b now
      written := update log.written number true }⟩ := by
  have either : ∀ other, log.written other = true ∨ other = number →
      update log.written number true other = true := fun other known => by
    by_cases latest : other = number
    · rw [latest, update_self]
    · rw [update_of_ne latest]
      exact known.resolve_right latest
  refine ⟨fun _ other below => either other ?_, fun _ arrived place other member =>
    either _ (prepared arrived place other member).symm,
    fun alone => absurd alone staffed,
    fun timed => (logged.counted timed).trans (congrArg List.length accepted.symm)⟩
  rcases submitted other below with old | latest
  · exact Or.inl (logged.submitted staffed other old)
  · exact Or.inr latest

theorem Logged.takes {drive : Drive} {log : LaneLog} {elapsed b pollCount : Nat}
    (logged : setup.Logged ⟨drive, log⟩) (place : drive.pc = .poll b pollCount) :
    setup.Logged ⟨{ drive with queue := drive.queue.consume, pc := .poll (b + 1) 0 },
      setup.recordLog drive ⟨elapsed, .thread⟩
        { drive with queue := drive.queue.consume, pc := .poll (b + 1) 0 } log⟩ := by
  have taken : ∀ nextLog : LaneLog, nextLog.written = log.written → (setup.timingStats = true →
        nextLog.count + nextLog.instant = log.count + log.instant + 1) →
      setup.Logged
        ⟨{ drive with queue := drive.queue.consume, pc := .poll (b + 1) 0 }, nextLog⟩ := by
    intro nextLog written counted
    refine ⟨fun staffed number below => ?_, by simp,
      fun alone number => ?_, fun timed => ?_⟩
    · rw [written]
      exact logged.submitted staffed number below
    · rw [written]
      exact logged.blank alone number
    · show nextLog.count + nextLog.instant = (drive.queue.accepted ++ [_]).length
      rw [counted timed, List.length_append]
      exact congrArg (· + 1) (logged.counted timed)
  simp only [recordLog, place, and_true]
  split_ifs with timed late
  · exact taken _ rfl fun _ => Nat.add_right_comm _ _ _
  · exact taken _ rfl fun _ => rfl
  · exact taken _ rfl fun impossible => absurd impossible timed

theorem recordLog_of_not_ours {drive nextDrive : Drive} {log : LaneLog} {elapsed : Nat}
    {label : DriveLabel} (others : label.ours = false) :
    setup.recordLog drive ⟨elapsed, label⟩ nextDrive log =
      { log with now := log.now + elapsed } := by
  cases label with
  | thread | worker => exact absurd others.symm Bool.false_ne_true
  | stop | controller =>
    unfold recordLog
    cases drive.pc <;> rfl

theorem Logged.publishes {drive : Drive} {log : LaneLog} {prepared : List Nat} {now : Nat}
    (logged : setup.Logged ⟨drive, log⟩) (place : drive.pc = .prepare prepared)
    (arrived : setup.crew ≠ .alone → ∀ b, b < drive.batchCount → b ∈ prepared) :
    setup.Logged ⟨{ drive with
      queue := (drive.queue.advanceTail drive.batchCount).ringSq
      pc := .poll 0 0 }, { log with now := now }⟩ := by
  refine ⟨fun staffed number below => ?_, by simp,
    logged.blank, logged.counted⟩
  have within : number < drive.queue.submitted + drive.batchCount := below
  by_cases old : number < drive.queue.submitted
  · exact logged.submitted staffed number old
  · have entry := logged.prepared staffed prepared place (number - drive.queue.submitted)
      (arrived staffed _ (by omega))
    simp only [Nat.add_sub_of_le (Nat.le_of_not_lt old)] at entry
    exact entry

theorem recordLog_of_givenUp {drive nextDrive : Drive} {log : LaneLog} {elapsed b pollCount : Nat}
    {kind : Kind} {cause : Cause} (place : drive.pc = .poll b pollCount)
    (given : nextDrive.pc = kind.givenUp cause) :
    setup.recordLog drive ⟨elapsed, .thread⟩ nextDrive log =
      { log with now := log.now + elapsed } := by
  unfold recordLog
  rw [place, given]
  cases kind with
  | wavefront => rfl
  | single => cases cause <;> rfl

theorem Kind.opening_eq_prepare {kind : Kind} {prepared : List Nat}
    (starts : kind.opening = .prepare prepared) : prepared = [] := by
  cases kind with
  | single => exact absurd starts (by simp [Kind.opening])
  | wavefront => exact (Pc.prepare.inj starts).symm

theorem Kind.givenUp_ne_prepare (kind : Kind) (cause : Cause) (prepared : List Nat) :
    kind.givenUp cause ≠ .prepare prepared := by
  cases kind with
  | wavefront => simp [Kind.givenUp]
  | single => cases cause <;> simp [Kind.givenUp]

theorem Logged.step (logged : setup.Logged observed)
    (flow : setup.Flow setup.crew.kind next.state)
    (move : setup.lane observed event = some next) : setup.Logged next := by
  obtain ⟨drive, log⟩ := observed
  obtain ⟨nextDrive, nextLog⟩ := next
  obtain ⟨elapsed, label⟩ := event
  obtain ⟨step, recorded⟩ := observe_eq_some_iff.mp move
  simp only at recorded step flow
  subst recorded
  rcases move_of_gpuKernel step with ⟨alone, rfl, ⟨prepared, place⟩, rfl⟩ | moved
  · simp only [recordLog, place]
    exact logged.publishes place fun staffed => absurd alone staffed
  cases moved with
  | submits b isSingle place inBatch =>
    have staffed : setup.crew ≠ .alone := fun alone => by
      rw [alone] at isSingle
      exact absurd isSingle (by decide)
    simp only [recordLog, place]
    exact logged.writes staffed rfl (fun other below => Nat.lt_succ_iff_lt_or_eq.mp below)
      fun _ impossible => absurd impossible (by simp)
  | prepares prepared b _ place inBatch =>
    have staffed : setup.crew ≠ .alone := fun alone => by
      rw [alone] at step
      exact absurd step (by simp [gpuKernel, driveEndpointAlone])
    have fine := flow.fine
    have queue : (setup.worker drive prepared b).queue.submitted = drive.queue.submitted ∧
        (setup.worker drive prepared b).queue.accepted = drive.queue.accepted := by
      unfold Setup.worker
      dsimp only
      split_ifs <;> exact ⟨rfl, rfl⟩
    simp only [recordLog, place, fine, Bool.false_eq_true, if_false]
    refine logged.writes staffed queue.2 (fun other below => Or.inl (queue.1 ▸ below)) ?_
    intro arrived here other member
    rw [← Pc.prepare.inj here] at member
    rw [queue.1]
    rcases List.mem_cons.mp member with rfl | old
    · exact Or.inl rfl
    · exact Or.inr (logged.prepared staffed prepared place other old)
  | publishes prepared _ place arrived =>
    simp only [recordLog, place]
    exact logged.publishes place fun _ => arrived
  | takes b pollCount place => exact logged.takes place
  | opens place =>
    simp only [recordLog, place]
    exact logged.follow rfl rfl fun _ starts => Or.inl (Kind.opening_eq_prepare starts)
  | waits b pollCount place =>
    simp only [recordLog, place]
    rw [if_neg fun taken => Nat.succ_ne_self b taken.2.symm]
    exact logged.follow rfl rfl fun _ impossible => absurd impossible (by simp)
  | stops b pollCount place | fails b pollCount place | expires b pollCount place =>
    rw [recordLog_of_givenUp place rfl]
    exact logged.follow rfl rfl fun _ impossible =>
      absurd impossible (Kind.givenUp_ne_prepare _ _ _)
  | ends early _ place =>
    simp only [recordLog, place]
    refine logged.follow ?_ ?_ fun prepared impossible => absurd impossible ?_
    · cases early <;> rfl
    · cases early <;> rfl
    · cases early with
      | some cause => simp [Setup.epilogue]
      | none =>
        simp only [Setup.epilogue]
        split_ifs <;> simp
  | asked =>
    rw [recordLog_of_not_ours rfl]
    exact logged.follow rfl rfl fun _ place => Or.inr place
  | answers label queue answer =>
    rw [recordLog_of_not_ours rfl]
    rcases QueuePair.controller_cases answer with ⟨-, -, rfl⟩ | ⟨_, _, _, -, -, -, rfl⟩ <;>
      exact logged.follow rfl rfl fun _ place => Or.inr place
  | leaves _ place | refuses _ _ place | rings _ _ place | aborts _ _ place | closes _ _ _ place
  | polled _ _ _ place =>
    simp only [recordLog, place]
    exact logged.follow rfl rfl fun _ impossible => absurd impossible (by simp)

/-! ### A lane that has ended -/

/-- A state that a lane reaches when all its commands are answered. -/
def LaneReaches (setup : Setup) (final : Observed Drive LaneLog) : Prop :=
  ∃ now starts events,
    EveryStep setup.lane LaneAnswered (setup.laneStart now starts) events ∧
      run setup.lane (setup.laneStart now starts) events = some final

theorem LaneReaches.kept (reaches : setup.LaneReaches observed) (sound : setup.Sound) :
    setup.Flow setup.crew.kind observed.state ∧ setup.Logged observed ∧
      setup.crew.kind.visits observed.state.pc = true := by
  obtain ⟨now, starts, events, answered, reaches⟩ := reaches
  refine run_invariant_of_everyStep
    (motive := fun observed => setup.Flow setup.crew.kind observed.state ∧
      setup.Logged observed ∧ setup.crew.kind.visits observed.state.pc = true)
    (fun observed event next kept answered move => ?_)
    ⟨Flow.start sound, Logged.start now starts, ?_⟩ answered reaches
  · obtain ⟨flow, logged, visits⟩ := kept
    have step := (observe_eq_some_iff.mp move).1
    have nextFlow := flow.step sound answered step
    exact ⟨nextFlow, logged.step nextFlow move, visits_of_step step visits⟩
  · cases setup.crew <;> rfl

theorem LaneReaches.invariant (reaches : setup.LaneReaches observed) (sound : setup.Sound)
    (staffed : setup.crew ≠ .alone) : setup.Invariant observed.state := by
  obtain ⟨now, starts, events, -, reaches⟩ := reaches
  have core := run_of_observe reaches
  cases crew : setup.crew with
  | alone => exact absurd crew staffed
  | single =>
    rw [crew] at core
    exact drive_invariant sound.size
      (show run (setup.driveEndpointOf .single) setup.start _ = _ from core)
  | workers =>
    rw [crew] at core
    exact drive_invariant sound.size
      (show run (setup.driveEndpointOf .wavefront) setup.start _ = _ from core)

/-- In a lane that has ended the requested commands have succeeded exactly when no completion
reports an error, unless nobody wrote them. -/
theorem LaneReaches.requested_iff (reaches : setup.LaneReaches observed) (sound : setup.Sound)
    (ended : observed.state.pc.terminal = true) :
    setup.Requested observed ↔ setup.crew ≠ .alone ∧
      ∀ cqe ∈ observed.state.queue.posted, cqe.ok = true := by
  obtain ⟨flow, logged, -⟩ := reaches.kept sound
  constructor
  · intro requested
    have staffed : setup.crew ≠ .alone := fun alone => by
      have first := (requested 0 sound.requested).1
      rw [logged.blank alone 0] at first
      exact Bool.false_ne_true first
    refine ⟨staffed, fun cqe member => ?_⟩
    have disciplined := (reaches.invariant sound staffed).disciplined
    have unique : (observed.state.queue.posted.map Cqe.command).Nodup :=
      (disciplined.commands.nodup_iff.mpr List.nodup_range).of_append_left
    have known : cqe.command < observed.state.queue.fetched := List.mem_range.mp
      (disciplined.commands.subset (List.mem_append_left _ (List.mem_map_of_mem member)))
    have total := sound.totalOps_eq
    have within := flow.within
    have fetched := disciplined.fetched_le
    have announced := disciplined.announced_le
    obtain ⟨-, other, otherMember, same, success⟩ := requested cqe.command (by omega)
    rw [← List.inj_on_of_nodup_map unique otherMember member same]
    exact success
  · rintro ⟨staffed, success⟩ number below
    have done := (flow.done_iff ended).mpr success
    obtain ⟨accepted, submitted, same⟩ := flow.done done
    have disciplined := (reaches.invariant sound staffed).disciplined
    have drained := disciplined.drained (accepted.trans submitted.symm)
    rw [submitted, sound.totalOps_eq, same] at drained
    obtain ⟨cqe, member, isNumber⟩ :=
      List.mem_map.mp (drained.symm.subset (List.mem_range.mpr below))
    refine ⟨logged.submitted staffed number ?_, cqe, member, isNumber, success cqe member⟩
    rw [submitted, sound.totalOps_eq]
    exact below

/-- A lane that has ended has counted all its operations exactly when no completion reports an error
or came at its start time. -/
theorem LaneReaches.count_le (reaches : setup.LaneReaches observed) (sound : setup.Sound)
    (timed : setup.timingStats = true) :
    observed.history.count ≤ setup.params.readIo + setup.params.writeIo ∧
      (observed.state.pc.terminal = true →
        (observed.history.count = setup.params.readIo + setup.params.writeIo ↔
          (∀ cqe ∈ observed.state.queue.posted, cqe.ok = true) ∧
            observed.history.instant = 0)) := by
  obtain ⟨flow, logged, -⟩ := reaches.kept sound
  have counted := logged.counted timed
  have total := sound.totalOps_eq
  have within := flow.within
  have posted := flow.coherent.posted_le
  have accepted := flow.coherent.accepted_le
  refine ⟨by omega, fun ended => ?_⟩
  rw [← flow.done_iff ended]
  constructor
  · intro all
    refine ⟨?_, by omega⟩
    by_contra notDone
    have short := flow.accepted_lt (Pc.failed_of_terminal ended notDone)
    omega
  · rintro ⟨done, none⟩
    have all := (flow.done done).1
    omega

end

end Setup

/-! ### Counting the lanes -/

theorem sum_range_le {count bound : Nat} {value : Nat → Nat}
    (most : ∀ index < count, value index ≤ bound) :
    ((List.range count).map value).sum ≤ count * bound := by
  induction count with
  | zero => exact Nat.zero_le _
  | succ count inductionHypothesis =>
    have earlier := inductionHypothesis fun index below => most index (Nat.lt_succ_of_lt below)
    have last := most count (Nat.lt_succ_self count)
    rw [List.range_succ, List.map_append, List.sum_append, List.map_singleton,
      List.sum_singleton, Nat.succ_mul]
    exact Nat.add_le_add earlier last

theorem sum_range_lt_iff {count bound : Nat} {value : Nat → Nat}
    (most : ∀ index < count, value index ≤ bound) :
    ((List.range count).map value).sum < count * bound ↔ ∃ index < count, value index < bound := by
  induction count with
  | zero => simp
  | succ count inductionHypothesis =>
    have below : ∀ index < count, value index ≤ bound :=
      fun index inside => most index (Nat.lt_succ_of_lt inside)
    have earlier := sum_range_le below
    have last := most count (Nat.lt_succ_self count)
    have before := inductionHypothesis below
    rw [List.range_succ, List.map_append, List.sum_append, List.map_singleton,
      List.sum_singleton, Nat.succ_mul]
    constructor
    · intro less
      by_cases short : value count < bound
      · exact ⟨count, Nat.lt_succ_self count, short⟩
      · obtain ⟨index, inside, smaller⟩ := before.mp (by omega)
        exact ⟨index, Nat.lt_succ_of_lt inside, smaller⟩
    · rintro ⟨index, inside, smaller⟩
      rcases Nat.lt_succ_iff_lt_or_eq.mp inside with old | rfl
      · have less := before.mpr ⟨index, old, smaller⟩
        omega
      · omega

namespace Launch

/-- A state of all lanes in which the kernels have ended: each by itself, or all of them
because one has trapped. -/
structure Reached (launch : Launch) (finals : Nat → Observed Drive LaneLog) : Prop where
  lanes : ∀ lane < launch.lanes, (launch.setup lane).LaneReaches (finals lane)
  ended : ∀ lane < launch.lanes, (finals lane).state.pc.terminal = true ∨
    ∃ other < launch.lanes, (finals other).state.pc = .trapped

variable (launch : Launch)

/-- Every requested read and write of every lane was completed with success. -/
def AllRequested (finals : Nat → Observed Drive LaneLog) : Prop :=
  ∀ lane < launch.lanes, (launch.setup lane).Requested (finals lane)

def AllSucceed (finals : Nat → Observed Drive LaneLog) : Prop :=
  ∀ lane < launch.lanes, ∀ cqe ∈ (finals lane).state.queue.posted, cqe.ok = true

/-- No completion is taken at the time at which its entry was written. -/
def ClockAdvances (finals : Nat → Observed Drive LaneLog) : Prop :=
  ∀ lane < launch.lanes, (finals lane).history.instant = 0

def unattended : Bool :=
  decide (launch.params.batchSize > 1) && decide (launch.params.kernelThreads = 1)

/-- The statistics that are to be counted have gone to the caller. -/
def statsLost : Bool :=
  launch.forcedLessTiming && decide (launch.lanes = 1) && !launch.timingStats

/-- When the result tells whether the requested commands have succeeded. -/
def Truthful (finals : Nat → Observed Drive LaneLog) : Prop :=
  if launch.unattended then
    launch.forcedLessTiming = true ∧
      (launch.statsLost = true ∨ ¬ (launch.AllSucceed finals ∧ launch.ClockAdvances finals))
  else if launch.statsLost then ¬ launch.AllSucceed finals
  else if launch.forcedLessTiming then launch.AllSucceed finals → launch.ClockAdvances finals
  else launch.params.batchSize > 1 → launch.AllSucceed finals

section

variable {launch : Launch} {finals : Nat → Observed Drive LaneLog}

theorem crew_eq_alone_iff (lane : Nat) :
    (launch.setup lane).crew = .alone ↔ launch.unattended = true := by
  have threads : launch.params.kernelThreads = 1 ↔ ¬ launch.params.kernelThreads > 1 := by
    unfold IoParams.kernelThreads
    split_ifs <;> omega
  unfold Setup.crew unattended
  rw [show (launch.setup lane).params = launch.params from rfl, Bool.and_eq_true,
    decide_eq_true_eq, decide_eq_true_eq, threads]
  split_ifs <;> simp [*]

theorem lanes_mul_lt (launch : Launch) :
    launch.lanes * (launch.params.readIo + launch.params.writeIo) < 2 ^ 64 := by
  have bound : launch.lanes * (launch.params.readIo + launch.params.writeIo) < 2 ^ 32 * 2 ^ 31 :=
    Nat.mul_lt_mul_of_lt_of_le launch.lanes_lt (Nat.le_of_lt launch.total_lt) (by decide)
  omega

theorem expected_eq (launch : Launch) :
    launch.expected = launch.lanes * (launch.params.readIo + launch.params.writeIo) :=
  Nat.mod_eq_of_lt launch.lanes_mul_lt

theorem expected_pos (launch : Launch) : 0 < launch.expected := by
  rw [expected_eq]
  exact Nat.mul_pos launch.lanes_pos launch.requested

theorem useLessTiming_of_forced (forced : launch.forcedLessTiming = true) :
    launch.useLessTiming = true := by
  rw [useLessTiming, forced, Bool.true_or]

theorem Reached.count_le (reached : launch.Reached finals)
    (forced : launch.forcedLessTiming = true) (lane : Nat) (inside : lane < launch.lanes) :
    (finals lane).history.count ≤ launch.params.readIo + launch.params.writeIo :=
  ((reached.lanes lane inside).count_le (launch.setup_sound lane)
    (useLessTiming_of_forced forced)).1

/-- A lane that has ended counts everything exactly when its commands have succeeded and its
clock has advanced. -/
theorem Reached.count_eq_iff (reached : launch.Reached finals)
    (forced : launch.forcedLessTiming = true) {lane : Nat} (inside : lane < launch.lanes)
    (ended : (finals lane).state.pc.terminal = true) :
    (finals lane).history.count = launch.params.readIo + launch.params.writeIo ↔
      (∀ cqe ∈ (finals lane).state.queue.posted, cqe.ok = true) ∧
        (finals lane).history.instant = 0 :=
  ((reached.lanes lane inside).count_le (launch.setup_sound lane)
    (useLessTiming_of_forced forced)).2 ended

theorem completed_of_lost (lost : launch.statsLost = true) : launch.completed finals = 0 := by
  simp only [statsLost, Bool.and_eq_true, decide_eq_true_eq, Bool.not_eq_true'] at lost
  obtain ⟨⟨forced, one⟩, none⟩ := lost
  have handed : ∀ lane, launch.perQueueStats finals lane = .none := fun lane => by
    simp only [perQueueStats, useLessTiming_of_forced forced, one, none, and_self, if_true,
      Bool.true_eq_false, if_false]
  simp [completed, handed]

theorem completed_of_kept (reached : launch.Reached finals)
    (forced : launch.forcedLessTiming = true) (kept : launch.statsLost = false) :
    launch.completed finals =
      ((List.range launch.lanes).map fun lane => (finals lane).history.count).sum := by
  have timed := useLessTiming_of_forced forced
  have here : ∀ lane, launch.perQueueStats finals lane = some (finals lane).history.count :=
    fun lane => by
      unfold perQueueStats
      rw [if_neg (by simp [timed]), if_neg]
      rintro ⟨one, none⟩
      simp [statsLost, forced, one, none] at kept
  simp only [completed, here, Option.getD_some]
  exact Nat.mod_eq_of_lt
    (Nat.lt_of_le_of_lt (sum_range_le (reached.count_le forced)) launch.lanes_mul_lt)

theorem completed_lt_iff (reached : launch.Reached finals)
    (ended : ∀ lane < launch.lanes, (finals lane).state.pc.terminal = true)
    (forced : launch.forcedLessTiming = true) :
    launch.completed finals < launch.expected ↔
      launch.statsLost = true ∨ ¬ (launch.AllSucceed finals ∧ launch.ClockAdvances finals) := by
  cases lost : launch.statsLost with
  | true => simp [completed_of_lost lost, launch.expected_pos]
  | false =>
    rw [completed_of_kept reached forced lost, expected_eq,
      sum_range_lt_iff (reached.count_le forced)]
    simp only [Bool.false_eq_true, false_or]
    constructor
    · rintro ⟨lane, inside, short⟩ ⟨succeed, advances⟩
      have all := (reached.count_eq_iff forced inside (ended lane inside)).mpr
        ⟨succeed lane inside, advances lane inside⟩
      exact absurd all (Nat.ne_of_lt short)
    · intro unclean
      by_contra none
      have all : ∀ lane < launch.lanes,
          (∀ cqe ∈ (finals lane).state.queue.posted, cqe.ok = true) ∧
            (finals lane).history.instant = 0 := fun lane inside => by
        rw [← reached.count_eq_iff forced inside (ended lane inside)]
        refine Nat.le_antisymm (reached.count_le forced lane inside) (Nat.le_of_not_lt ?_)
        exact fun short => none ⟨lane, inside, short⟩
      exact unclean ⟨fun lane inside => (all lane inside).1, fun lane inside => (all lane inside).2⟩

theorem result_eq_success_iff (launch : Launch) (finals : Nat → Observed Drive LaneLog) :
    launch.result finals = .success ↔ (∀ lane < launch.lanes, (finals lane).state.pc ≠ .trapped) ∧
        ¬ (launch.forcedLessTiming = true ∧ launch.completed finals < launch.expected) := by
  have trapped : ((List.range launch.lanes).any fun lane => (finals lane).state.pc == .trapped) =
      true ↔ ∃ lane < launch.lanes, (finals lane).state.pc = .trapped := by
    simp
  have positive := launch.expected_pos
  unfold result
  split_ifs with anyTrapped short
  · obtain ⟨lane, inside, isTrapped⟩ := trapped.mp anyTrapped
    exact ⟨by simp,
      fun both => absurd isTrapped (both.1 lane inside)⟩
  · exact ⟨by simp,
      fun both => absurd ⟨short.1, short.2.2⟩ both.2⟩
  · exact ⟨fun _ => ⟨fun lane inside isTrapped =>
      anyTrapped (trapped.mpr ⟨lane, inside, isTrapped⟩),
      fun both => short ⟨both.1, positive, both.2⟩⟩, fun _ => rfl⟩

theorem kind_of_wide (launch : Launch) (lane : Nat) (wide : launch.params.batchSize > 1) :
    (launch.setup lane).crew.kind = .wavefront := by
  unfold Setup.crew
  rw [show (launch.setup lane).params = launch.params from rfl, if_pos wide]
  split_ifs <;> rfl

theorem Reached.trapped (reached : launch.Reached finals) {lane : Nat}
    (inside : lane < launch.lanes) (isTrapped : (finals lane).state.pc = .trapped) :
    ¬ launch.params.batchSize > 1 ∧ ¬ ∀ cqe ∈ (finals lane).state.queue.posted, cqe.ok = true := by
  obtain ⟨flow, -, visits⟩ := (reached.lanes lane inside).kept (launch.setup_sound lane)
  have ended : (finals lane).state.pc.terminal = true := by
    rw [isTrapped]
    rfl
  refine ⟨fun wide => ?_, fun success => ?_⟩
  · rw [launch.kind_of_wide lane wide, isTrapped] at visits
    exact Bool.false_ne_true visits
  · have done := (flow.done_iff ended).mpr success
    rw [isTrapped] at done
    exact absurd done (by simp)

theorem Reached.single (reached : launch.Reached finals) {lane : Nat}
    (inside : lane < launch.lanes) (narrow : ¬ launch.params.batchSize > 1)
    (ended : (finals lane).state.pc.terminal = true)
    (untrapped : (finals lane).state.pc ≠ .trapped) :
    ∀ cqe ∈ (finals lane).state.queue.posted, cqe.ok = true := by
  have sound := launch.setup_sound lane
  obtain ⟨flow, -, -⟩ := (reached.lanes lane inside).kept sound
  have crew : (launch.setup lane).crew = .single := if_neg narrow
  have invariant := (reached.lanes lane inside).invariant sound (by rw [crew]; decide)
  obtain ⟨now, starts, events, -, run⟩ := reached.lanes lane inside
  have core := run_of_observe run
  rw [crew] at core
  refine (flow.done_iff ended).mp ?_
  cases place : (finals lane).state.pc with
  | returned cause =>
    rcases Setup.single_causes core cause place with rfl | rfl
    · rfl
    · have asked := (invariant.progress.returned place).1 rfl
      exact absurd (flow.running.symm.trans asked) Bool.false_ne_true
  | trapped => exact absurd place untrapped
  | top | write | prepare | poll | epilogue =>
    rw [place] at ended
    exact absurd ended (by simp [Pc.terminal])

/-- When all lanes have ended, the requested commands have succeeded exactly when no error was
reported, unless nobody wrote them. -/
theorem Reached.allRequested_iff (reached : launch.Reached finals)
    (ended : ∀ lane < launch.lanes, (finals lane).state.pc.terminal = true) :
    launch.AllRequested finals ↔ launch.unattended = false ∧ launch.AllSucceed finals := by
  have each := fun lane (inside : lane < launch.lanes) =>
    (reached.lanes lane inside).requested_iff (launch.setup_sound lane) (ended lane inside)
  constructor
  · intro requested
    have first := ((each 0 launch.lanes_pos).mp (requested 0 launch.lanes_pos)).1
    refine ⟨Bool.eq_false_iff.mpr fun alone => first ((crew_eq_alone_iff 0).mpr alone), ?_⟩
    exact fun lane inside => ((each lane inside).mp (requested lane inside)).2
  · rintro ⟨attended, succeed⟩ lane inside
    refine (each lane inside).mpr ⟨fun alone => ?_, succeed lane inside⟩
    rw [crew_eq_alone_iff] at alone
    exact Bool.false_ne_true (attended.symm.trans alone)

/-- The threads of each kernel have only so many steps to make, and until it has ended one of them
can make one. -/
def KernelsEnd (launch : Launch) : Prop :=
  ∀ lane now starts events final,
    EveryStep (launch.setup lane).lane Setup.LaneAnswered
        ((launch.setup lane).laneStart now starts) events →
      run (launch.setup lane).lane ((launch.setup lane).laneStart now starts) events = some final →
      events.countP (fun event => event.move.ours) ≤
          (launch.params.readIo + launch.params.writeIo) * Setup.operationWork + 10 ∧
        (final.state.pc.terminal = false → ∃ event next, event.move.ours = true ∧
          (launch.setup lane).lane final event = some next)

theorem batchSizeOf_pos (launch : Launch) (lane : Nat) :
    0 < (launch.setup lane).batchSizeOf (launch.setup lane).crew.kind := by
  have some : 0 < launch.params.totalOps := by
    rw [show launch.params.totalOps = launch.params.readIo + launch.params.writeIo from
      (launch.setup_sound lane).totalOps_eq]
    exact launch.requested
  have room : 0 < launch.params.queueSize - 1 := Nat.sub_pos_of_lt launch.size
  by_cases wide : launch.params.batchSize > 1
  · have kind : (launch.setup lane).crew.kind = .wavefront := launch.kind_of_wide lane wide
    rw [kind]
    exact ite_pos some (ite_pos room (Nat.lt_trans Nat.one_pos wide))
  · have crew : (launch.setup lane).crew = .single := if_neg wide
    rw [crew]
    have capped : 0 < launch.params.cappedBatch := by
      refine ite_pos room ?_
      split_ifs with whole
      · exact room
      · exact some
      · exact Nat.pos_of_ne_zero whole
    exact ite_pos (by decide) (ite_pos some capped)

theorem kernelsEnd (launch : Launch) : launch.KernelsEnd := by
  intro lane now starts events final answered reaches
  have sound := launch.setup_sound lane
  have initial : (launch.setup lane).Flow (launch.setup lane).crew.kind
      ((launch.setup lane).laneStart now starts).state := Setup.Flow.start sound
  constructor
  · have spends : ∀ (observed : Observed Drive LaneLog) event next,
        (launch.setup lane).Flow (launch.setup lane).crew.kind observed.state →
        Setup.LaneAnswered observed event → (launch.setup lane).lane observed event = some next →
        (launch.setup lane).Flow (launch.setup lane).crew.kind next.state ∧
          (launch.setup lane).work next.state + event.move.ours.toNat ≤
            (launch.setup lane).work observed.state := by
      intro observed event next flow inTime move
      have step := (observe_eq_some_iff.mp move).1
      exact ⟨flow.step sound inTime step,
        flow.work_le_of_step sound inTime (launch.batchSizeOf_pos lane) step⟩
    obtain ⟨-, bound⟩ := run_spends_of_everyStep spends initial answered reaches
    have total : launch.params.totalOps = launch.params.readIo + launch.params.writeIo :=
      sound.totalOps_eq
    have atStart : (launch.setup lane).work ((launch.setup lane).laneStart now starts).state =
        launch.params.totalOps * Setup.operationWork + 10 := rfl
    rw [atStart, total] at bound
    exact Nat.le_trans (Nat.le_add_right _ _) bound
  · intro active
    obtain ⟨-, -, visits⟩ := Setup.LaneReaches.kept ⟨now, starts, events, answered, reaches⟩ sound
    obtain ⟨label, next, ours, step⟩ := Setup.exists_step visits active
    exact ⟨⟨0, label⟩, ⟨next, (launch.setup lane).recordLog final.state ⟨0, label⟩ next
      final.history⟩, ours, observe_eq_some_iff.mpr ⟨step, rfl⟩⟩

/-- Unless several threads run the single drive, the kernels of a run end, and its result is success
exactly when every requested command succeeded if and only if the run is truthful. -/
theorem run_result_iff (launch : Launch) (finals : Nat → Observed Drive LaneLog)
    (reached : launch.Reached finals) :
    (launch.params.batchSize = 0 → launch.params.effBatch ≤ 1) → launch.KernelsEnd ∧
      ((launch.result finals = .success ↔ launch.AllRequested finals) ↔
        launch.Truthful finals) := by
  refine fun _ => ⟨launch.kernelsEnd, ?_⟩
  rw [result_eq_success_iff]
  by_cases anyTrapped : ∃ lane < launch.lanes, (finals lane).state.pc = .trapped
  · -- The wait for the lane fails, and an error was reported to it.
    obtain ⟨lane, inside, isTrapped⟩ := anyTrapped
    obtain ⟨narrow, bad⟩ := reached.trapped inside isTrapped
    have ended : (finals lane).state.pc.terminal = true := by
      rw [isTrapped]
      rfl
    have notRequested : ¬ launch.AllRequested finals := fun requested =>
      bad (((reached.lanes lane inside).requested_iff (launch.setup_sound lane) ended).mp
        (requested lane inside)).2
    have notSucceed : ¬ launch.AllSucceed finals := fun succeed => bad (succeed lane inside)
    have attended : launch.unattended = false := by simp [unattended, narrow]
    have truthful : launch.Truthful finals := by
      unfold Truthful
      rw [attended, if_neg Bool.false_ne_true]
      split_ifs
      · exact notSucceed
      · exact fun succeed => absurd succeed notSucceed
      · exact fun wide => absurd wide narrow
    exact iff_of_true
      (iff_of_false (fun success => success.1 lane inside isTrapped) notRequested) truthful
  · have untrapped : ∀ lane < launch.lanes, (finals lane).state.pc ≠ .trapped :=
      fun lane inside isTrapped => anyTrapped ⟨lane, inside, isTrapped⟩
    have ended : ∀ lane < launch.lanes, (finals lane).state.pc.terminal = true :=
      fun lane inside => (reached.ended lane inside).resolve_right anyTrapped
    have narrow : ¬ launch.params.batchSize > 1 → launch.AllSucceed finals :=
      fun narrow lane inside =>
        reached.single inside narrow (ended lane inside) (untrapped lane inside)
    rw [reached.allRequested_iff ended, and_iff_right untrapped,
      and_congr_right (completed_lt_iff reached ended)]
    unfold Truthful
    cases launch.unattended with
    | true => rw [if_pos rfl, Bool.true_eq_false, false_and, iff_false, not_not]
    | false =>
      cases forced : launch.forcedLessTiming with
      | true =>
        cases launch.statsLost with
        | true => simp
        | false => simp
      | false =>
        have kept : launch.statsLost = false := by
          rw [statsLost, forced]
          rfl
        have wide : launch.AllSucceed finals ↔
            (launch.params.batchSize > 1 → launch.AllSucceed finals) :=
          ⟨fun succeed _ => succeed, fun succeed => (em _).elim succeed narrow⟩
        simp [kept, ← wide]

def twoReadsParams : IoParams :=
  { Setup.oneReadParams with readIo := 2 }

theorem oneLane_lt : 1 < 2 ^ 32 := by decide

def twoReads (startTimes timingStats : Bool) : Launch where
  params := twoReadsParams
  buffers := fun _ => ⟨1024, repeatedPage 1024, repeatedPage 1024, fun _ => 0, fun _ _ => rfl⟩
  lanes := 1
  startTimes := startTimes
  timingStats := timingStats
  stopRequested := false
  finite := rfl
  requested := Nat.two_pos
  total_lt := by decide
  size := by decide
  lanes_pos := Nat.one_pos
  lanes_lt := oneLane_lt
  transfer_pos := by decide
  small := by decide
  accepted := fun _ => by decide
  readBuffer := fun _ _ => by decide
  writeBuffer := fun _ _ => by decide

/-- Both workers write, and the first read completes with the given status, the second one with
success. -/
def twoReadsRun (status : Nat) (rest : List DriveLabel) : List LaneEvent :=
  (DriveLabel.thread :: .worker 0 :: .worker 1 :: .thread :: .controller .fetch ::
    .controller .fetch :: .controller (.post 0 status) :: .controller (.post 0 0) :: rest).map
    (LaneEvent.mk 1)

def passingRun : List LaneEvent :=
  twoReadsRun 0 [.thread, .thread, .thread, .thread]

def failingRun : List LaneEvent :=
  twoReadsRun 1 [.thread, .thread]

/-- The lane after some events, or at its start when they cannot happen. -/
def twoReadsFinal (startTimes timingStats : Bool) (events : List LaneEvent) :
    Observed Drive LaneLog :=
  (run ((twoReads startTimes timingStats).setup 0).lane
    (((twoReads startTimes timingStats).setup 0).laneStart 0 fun _ => 0) events).getD
      (((twoReads startTimes timingStats).setup 0).laneStart 0 fun _ => 0)

theorem twoReads_reached (startTimes timingStats : Bool) {events : List LaneEvent}
    (answered : EveryStep ((twoReads startTimes timingStats).setup 0).lane Setup.LaneAnswered
      (((twoReads startTimes timingStats).setup 0).laneStart 0 fun _ => 0) events)
    (ended : (twoReadsFinal startTimes timingStats events).state.pc.terminal = true) :
    (twoReads startTimes timingStats).Reached
      fun _ => twoReadsFinal startTimes timingStats events := by
  have reaches : run ((twoReads startTimes timingStats).setup 0).lane
      (((twoReads startTimes timingStats).setup 0).laneStart 0 fun _ => 0) events =
        some (twoReadsFinal startTimes timingStats events) := by
    unfold twoReadsFinal at ended ⊢
    cases reaches : run ((twoReads startTimes timingStats).setup 0).lane
      (((twoReads startTimes timingStats).setup 0).laneStart 0 fun _ => 0) events with
    | none =>
      rw [reaches] at ended
      exact absurd ended Bool.false_ne_true
    | some final => rfl
  exact ⟨fun _ _ => ⟨0, fun _ => 0, events, answered, reaches⟩, fun _ _ => .inl ended⟩

theorem run_result_iff_twoReads : ∃ finals, (twoReads true true).Reached finals ∧
    (twoReads true true).result finals = .success ∧
    ((twoReads true true).AllRequested finals ↔ (twoReads true true).Truthful finals) := by
  have reached : (twoReads true true).Reached fun _ => twoReadsFinal true true passingRun :=
    twoReads_reached true true (by decide) rfl
  have success : (twoReads true true).result (fun _ => twoReadsFinal true true passingRun) =
    .success := rfl
  have result := (run_result_iff _ _ reached (by decide)).2
  rw [iff_true_left success] at result
  exact ⟨_, reached, success, result⟩

/-- A failed read is not reported when the statistics were asked for, and two successful reads are
reported as failed when their start and end times were. -/
theorem run_result_wrong : (∃ finals, (twoReads false true).Reached finals ∧
      (twoReads false true).result finals = .success ∧
      ¬ (twoReads false true).AllRequested finals) ∧
    ∃ finals, (twoReads true false).Reached finals ∧
      (twoReads true false).result finals = .runtimeOther ∧
      (twoReads true false).AllRequested finals := by
  have failed : (twoReads false true).Reached fun _ => twoReadsFinal false true failingRun :=
    twoReads_reached false true (by decide) rfl
  have passed : (twoReads true false).Reached fun _ => twoReadsFinal true false passingRun :=
    twoReads_reached true false (by decide) rfl
  have firstFails : ¬ ∃ cqe ∈ (twoReadsFinal false true failingRun).state.queue.posted,
      cqe.command = 0 ∧ cqe.ok = true := by
    decide
  have bothPass : ∀ number < 2,
      (twoReadsFinal true false passingRun).history.written number = true ∧
      ∃ cqe ∈ (twoReadsFinal true false passingRun).state.queue.posted,
        cqe.command = number ∧ cqe.ok = true := by
    decide
  exact ⟨⟨_, failed, rfl, fun requested => firstFails (requested 0 Nat.one_pos 0 Nat.two_pos).2⟩,
    ⟨_, passed, rfl, fun _ _ => bothPass⟩⟩

end

end Launch

end RocmXio.Nvme
