/-
The queue discipline of the two drives.

Against every conforming controller the queue pair stays disciplined: at most `queueSize - 1`
commands are outstanding, tail, head and phase are those of the counts, and completions are taken in
order, each once. A finite drive that has returned has submitted and taken all its operations,
unless it was asked to stop or, for the wavefront drive, gave up on a completion or on a data slot;
it gives up on a controller that is merely slow.
-/

import RocmXio.Nvme.Drive

namespace RocmXio.Nvme

open Lib

namespace Setup

/-! ### The invariant -/

/-- The operation counter does not wrap in finite mode. -/
def Bounded (setup : Setup) : Prop :=
  setup.params.readIo + setup.params.writeIo + setup.params.queueSize < 2 ^ 32

/-- `opsDone` at the beginning of a batch whose first command has the number `first`. In finite mode
a batch does not go past the total. -/
structure Counter (setup : Setup) (opsDone batchCount first : Nat) : Prop where
  ops : opsDone = first % 2 ^ 32
  within : setup.params.infiniteMode = false →
    (opsDone + batchCount) % 2 ^ 32 ≤ setup.params.totalOps
  unwrapped : setup.params.infiniteMode = false → setup.Bounded →
    opsDone = first ∧ opsDone + batchCount ≤ setup.params.totalOps

/-- How far a batch has come, by the place of the drive. After the doorbell the counter is known as
it will be for the next batch. -/
def Progress (setup : Setup) (drive : Drive) : Prop :=
  match drive.pc with
  | .top => drive.queue.submitted = drive.queue.accepted.length ∧
      setup.Counter drive.opsDone 0 drive.queue.submitted
  | .write b => drive.queue.submitted = drive.queue.accepted.length + b ∧ b ≤ drive.batchCount ∧
      setup.Counter drive.opsDone drive.batchCount drive.queue.accepted.length
  | .prepare prepared => drive.queue.submitted = drive.queue.accepted.length ∧
      (drive.shError = false → ∀ b ∈ prepared,
        drive.queue.submissionQueue ((drive.queue.submitted + b) % drive.queue.queueSize) =
          drive.queue.submitted + b) ∧
      (∀ b ∈ prepared, b < drive.batchCount) ∧
      setup.Counter drive.opsDone drive.batchCount drive.queue.accepted.length
  | .poll b _ => drive.queue.submitted + b = drive.queue.accepted.length + drive.batchCount ∧
      b ≤ drive.batchCount ∧
      setup.Counter ((drive.opsDone + drive.batchCount) % 2 ^ 32) 0 drive.queue.submitted
  | .epilogue early => early ≠ some .done ∧ (early = some .stop → drive.stopFlag = true) ∧
      (early = none → drive.queue.submitted = drive.queue.accepted.length ∧
        setup.Counter ((drive.opsDone + drive.batchCount) % 2 ^ 32) 0 drive.queue.submitted)
  | .returned cause => (cause = .stop → drive.stopFlag = true) ∧
      (cause = .done → drive.queue.submitted = drive.queue.accepted.length ∧
        setup.params.infiniteMode = false ∧
        (setup.Bounded → drive.queue.submitted = setup.params.totalOps))
  | .trapped => True

/-- The queue pair is disciplined, a batch leaves one entry free, and the counts are those of the
drive's place. -/
structure Invariant (setup : Setup) (drive : Drive) : Prop where
  disciplined : drive.queue.Disciplined
  size : drive.queue.queueSize = setup.params.queueSize
  batch : drive.batchCount < setup.params.queueSize
  progress : setup.Progress drive

section

variable {setup : Setup} {drive next : Drive}

theorem start_invariant (size : 2 ≤ setup.params.queueSize) : setup.Invariant setup.start where
  disciplined := QueuePair.create_disciplined size
  size := rfl
  batch := setup.params.queueSize_pos
  progress := ⟨rfl, rfl, fun _ => Nat.zero_le _, fun _ _ => ⟨rfl, Nat.zero_le _⟩⟩

section

variable {opsDone batchCount first : Nat}

theorem Counter.opens {batchSize : Nat} (counter : setup.Counter opsDone 0 first)
    (batch : batchSize ≤ setup.params.queueSize - 1) :
    setup.batchCount batchSize opsDone < setup.params.queueSize ∧
      setup.Counter opsDone (setup.batchCount batchSize opsDone) first := by
  have positive := setup.params.queueSize_pos
  have short : setup.params.totalOps < 2 ^ 32 := Nat.mod_lt _ (by decide)
  have total : setup.params.totalOps ≤ setup.params.readIo + setup.params.writeIo := Nat.mod_le _ _
  have small : opsDone < 2 ^ 32 := counter.ops ▸ Nat.mod_lt _ (by decide)
  have below := counter.within
  rw [Nat.add_zero, Nat.mod_eq_of_lt small] at below
  unfold Setup.batchCount
  split_ifs with cut
  · have within := below cut.1
    exact ⟨by omega, counter.ops, fun _ => by omega, fun finite bounded =>
      ⟨(counter.unwrapped finite bounded).1, by omega⟩⟩
  · refine ⟨by omega, counter.ops, fun finite => Nat.not_lt.mp fun more => cut ⟨finite, more⟩,
      fun finite bounded => ⟨(counter.unwrapped finite bounded).1, Nat.not_lt.mp fun more => ?_⟩⟩
    have within := below finite
    unfold Bounded at bounded
    exact cut ⟨finite, by omega⟩

theorem Counter.closes (counter : setup.Counter opsDone batchCount first) :
    setup.Counter ((opsDone + batchCount) % 2 ^ 32) 0 (first + batchCount) where
  ops := by rw [counter.ops, Nat.mod_add_mod]
  within := fun finite => by
    rw [Nat.add_zero, Nat.mod_mod]
    exact counter.within finite
  unwrapped := fun finite bounded => by
    obtain ⟨same, within⟩ := counter.unwrapped finite bounded
    have short : setup.params.totalOps < 2 ^ 32 := Nat.mod_lt _ (by decide)
    rw [Nat.mod_eq_of_lt (by omega)]
    exact ⟨by rw [same], within⟩

theorem Counter.index (counter : setup.Counter opsDone batchCount first) (b : Nat) :
    (opsDone + b) % 2 ^ 32 = (first + b) % 2 ^ 32 := by
  rw [counter.ops, Nat.mod_add_mod]

/-- In finite mode a drive that has come to the total has done all operations. -/
theorem Counter.total (counter : setup.Counter opsDone 0 first)
    (finite : setup.params.infiniteMode = false) (all : setup.params.totalOps ≤ opsDone)
    (bounded : setup.Bounded) : first = setup.params.totalOps := by
  obtain ⟨same, within⟩ := counter.unwrapped finite bounded
  omega

end

theorem singleBatch_le : setup.singleBatch ≤ setup.params.queueSize - 1 := by
  have capped : setup.params.cappedBatch ≤ setup.params.queueSize - 1 := by
    simp only [IoParams.cappedBatch]
    split_ifs <;> omega
  have effective := setup.params.effBatch_le
  unfold singleBatch
  split_ifs <;> omega

theorem wavefrontBatch_le : setup.wavefrontBatch ≤ setup.params.queueSize - 1 := by
  simp only [wavefrontBatch]
  split_ifs <;> omega

theorem batchSizeOf_le (kind : Kind) : setup.batchSizeOf kind ≤ setup.params.queueSize - 1 := by
  cases kind with
  | single => exact singleBatch_le
  | wavefront => exact wavefrontBatch_le

theorem Progress.stop (progress : setup.Progress drive) :
    setup.Progress { drive with stopFlag := true } := by
  cases place : drive.pc <;> simp only [Progress, place] at progress ⊢
  case epilogue => exact ⟨progress.1, fun _ => trivial, progress.2.2⟩
  case returned => exact ⟨fun _ => trivial, progress.2⟩
  all_goals exact progress

variable {b pollCount : Nat}

theorem Invariant.take (invariant : setup.Invariant drive) (polling : drive.pc = .poll b pollCount)
    (more : b < drive.batchCount) (ready : drive.queue.cqeReady = true) :
    setup.Invariant { drive with queue := drive.queue.consume, pc := .poll (b + 1) 0 } := by
  have progress := invariant.progress
  simp only [Progress, polling] at progress
  have length : drive.queue.consume.accepted.length = drive.queue.accepted.length + 1 := by
    simp [QueuePair.consume]
  refine ⟨invariant.disciplined.consume ready, invariant.size, invariant.batch, ?_, more,
    progress.2.2⟩
  show drive.queue.submitted + (b + 1) = _ + drive.batchCount
  rw [length]
  omega

theorem Progress.polled (progress : setup.Progress drive) (polling : drive.pc = .poll b pollCount)
    (last : ¬ b < drive.batchCount) :
    drive.queue.submitted = drive.queue.accepted.length ∧
      setup.Counter ((drive.opsDone + drive.batchCount) % 2 ^ 32) 0 drive.queue.submitted := by
  simp only [Progress, polling] at progress
  obtain ⟨counts, most, counter⟩ := progress
  have all : b = drive.batchCount := Nat.le_antisymm most (Nat.le_of_not_lt last)
  subst all
  exact ⟨Nat.add_right_cancel counts, counter⟩

theorem Invariant.wait {b pollCount polls : Nat} (invariant : setup.Invariant drive)
    (polling : drive.pc = .poll b pollCount) :
    setup.Invariant { drive with pc := .poll b polls } := by
  have progress := invariant.progress
  simp only [Progress, polling] at progress
  exact ⟨invariant.disciplined, invariant.size, invariant.batch, progress⟩

theorem stopFlag_of_stopSeen (seen : setup.stopSeen drive = true) : drive.stopFlag = true := by
  rw [stopSeen, Bool.and_eq_true] at seen
  exact seen.2

theorem stopFlag_of_leave
    (leave : ¬ ((setup.params.infiniteMode = true ∨ drive.opsDone < setup.params.totalOps) ∧
      setup.stopSeen drive = false))
    (remaining : ¬ (setup.params.infiniteMode = false ∧ setup.params.totalOps ≤ drive.opsDone)) :
    drive.stopFlag = true := by
  refine stopFlag_of_stopSeen (show setup.stopSeen drive = true from ?_)
  by_contra unseen
  refine leave ⟨?_, Bool.eq_false_iff.mpr unseen⟩
  by_contra rest
  rw [not_or, Bool.not_eq_true, Nat.not_lt] at rest
  exact remaining rest

theorem Invariant.worker {prepared : List Nat} {b : Nat} (invariant : setup.Invariant drive)
    (preparing : drive.pc = .prepare prepared) (inBatch : b < drive.batchCount) :
    setup.Invariant (setup.worker drive prepared b) := by
  have progress := invariant.progress
  simp only [Progress, preparing] at progress
  obtain ⟨counts, entries, inside, counter⟩ := progress
  have batch := invariant.batch
  have size := invariant.size
  have insideNext : ∀ other ∈ b :: prepared, other < drive.batchCount := fun other member => by
    rcases List.mem_cons.mp member with rfl | old
    · exact inBatch
    · exact inside other old
  unfold Setup.worker
  cases failed : drive.shError || !setup.prpValid ((drive.opsDone + b) % 2 ^ 32) b with
  | true =>
    exact ⟨invariant.disciplined, size, batch, counts,
      by simp, insideNext, counter⟩
  | false =>
    rw [Bool.or_eq_false_iff] at failed
    refine ⟨invariant.disciplined.sqeWrite b (by omega), size, batch, counts,
      fun _ other member => ?_, insideNext, counter⟩
    show Function.update drive.queue.submissionQueue
      ((drive.queue.sqTail + b) % drive.queue.queueSize) (drive.queue.submitted + b)
      ((drive.queue.submitted + other) % drive.queue.queueSize) = drive.queue.submitted + other
    rw [invariant.disciplined.tail, Nat.mod_add_mod]
    rcases List.mem_cons.mp member with rfl | old
    · exact Function.update_self _ _ _
    · by_cases same : other = b
      · rw [same]
        exact Function.update_self _ _ _
      · have otherInside := inside other old
        rw [Function.update_of_ne (slot_ne (by omega) (by omega) same)]
        exact entries failed.1 other old

theorem Invariant.epilogue {early : Option Cause} (invariant : setup.Invariant drive)
    (atEnd : drive.pc = .epilogue early) : setup.Invariant (setup.epilogue drive early) := by
  have progress := invariant.progress
  simp only [Progress, atEnd] at progress
  obtain ⟨notDone, stopped, polled⟩ := progress
  cases early with
  | some cause =>
    exact ⟨invariant.disciplined, invariant.size, invariant.batch,
      fun isStop => stopped (congrArg some isStop),
      fun isDone => absurd (congrArg some isDone) notDone⟩
  | none =>
    obtain ⟨counts, counter⟩ := polled rfl
    have rung := invariant.disciplined.ringCq
    simp only [Setup.epilogue, Option.isSome_none, Bool.false_eq_true, if_false]
    split_ifs
    case pos all =>
      exact ⟨rung, invariant.size, invariant.batch, by simp,
        fun _ => ⟨counts, all.1, counter.total all.1 all.2⟩⟩
    case pos _ seen =>
      exact ⟨rung, invariant.size, invariant.batch, fun _ => stopFlag_of_stopSeen seen, by simp⟩
    case neg => exact ⟨rung, invariant.size, invariant.batch, counts, counter⟩

variable {kind : Kind}

theorem Invariant.giveUp {cause : Cause} (invariant : setup.Invariant drive)
    (notDone : cause ≠ .done) (stopped : cause = .stop → drive.stopFlag = true) :
    setup.Invariant { drive with pc := kind.givenUp cause } := by
  refine ⟨invariant.disciplined, invariant.size, invariant.batch, ?_⟩
  cases kind with
  | wavefront =>
    exact ⟨fun isDone => notDone (Option.some.inj isDone),
      fun isStop => stopped (Option.some.inj isStop), by simp⟩
  | single =>
    cases cause with
    | stop => exact ⟨fun _ => stopped rfl, by simp⟩
    | done | timeout | cqeError | prpError => trivial

theorem Invariant.move {label : DriveLabel} (invariant : setup.Invariant drive)
    (move : Move setup kind drive label next) : setup.Invariant next := by
  have progress := invariant.progress
  have disciplined := invariant.disciplined
  have batch := invariant.batch
  have size := invariant.size
  cases move with
  | opens place =>
    simp only [Progress, place] at progress
    obtain ⟨counts, counter⟩ := progress
    obtain ⟨batch, counter⟩ := counter.opens (batchSizeOf_le kind)
    rw [counts] at counter
    cases kind with
    | single => exact ⟨disciplined, size, batch, counts, Nat.zero_le _, counter⟩
    | wavefront => exact ⟨disciplined, size, batch, counts, by simp, by simp, counter⟩
  | leaves _ place left =>
    simp only [Progress, place] at progress
    refine ⟨disciplined, size, batch, ?_⟩
    by_cases all : setup.params.infiniteMode = false ∧ setup.params.totalOps ≤ drive.opsDone
    · rw [if_pos all]
      exact ⟨by simp, fun _ => ⟨progress.1, all.1, progress.2.total all.1 all.2⟩⟩
    · rw [if_neg all]
      exact ⟨fun _ => stopFlag_of_leave left all, by simp⟩
  | submits b _ place inBatch =>
    simp only [Progress, place] at progress
    obtain ⟨counts, -, counter⟩ := progress
    refine ⟨disciplined.submit (by omega), size, batch, ?_, inBatch, counter⟩
    show drive.queue.submitted + 1 = drive.queue.accepted.length + (b + 1)
    omega
  | refuses => exact ⟨disciplined, size, batch, trivial⟩
  | rings b _ place whole =>
    simp only [Progress, place] at progress
    obtain ⟨counts, most, counter⟩ := progress
    have all : b = drive.batchCount := Nat.le_antisymm most (Nat.le_of_not_lt whole)
    rw [all] at counts
    refine ⟨disciplined.ringSq, size, batch, counts, Nat.zero_le _, ?_⟩
    show setup.Counter _ 0 drive.queue.submitted
    rw [counts]
    exact counter.closes
  | prepares prepared b _ place inBatch => exact invariant.worker place inBatch
  | aborts =>
    exact ⟨disciplined, size, batch, by simp,
      by simp⟩
  | publishes prepared _ place arrived fine =>
    simp only [Progress, place] at progress
    obtain ⟨counts, entries, -, counter⟩ := progress
    have advanced := disciplined.advanceTail (fun b below => entries fine b (arrived b below))
      (show drive.queue.submitted + drive.batchCount < _ by omega)
    refine ⟨advanced.ringSq, size, batch, ?_, Nat.zero_le _, ?_⟩
    · show drive.queue.submitted + drive.batchCount + 0 = _ + drive.batchCount
      rw [counts]
      rfl
    · show setup.Counter _ 0 (drive.queue.submitted + drive.batchCount)
      rw [counts]
      exact counter.closes
  | stops b pollCount place inBatch seen =>
    exact invariant.giveUp (by simp) fun _ => stopFlag_of_stopSeen seen
  | takes b pollCount place inBatch ready => exact invariant.take place inBatch ready
  | fails | expires => exact invariant.giveUp (by simp) (by simp)
  | waits b pollCount place => exact invariant.wait place
  | closes b pollCount _ place whole =>
    obtain ⟨counts, counter⟩ := progress.polled place whole
    exact ⟨disciplined.ringCq, size, batch, counts, counter⟩
  | polled b pollCount _ place whole =>
    exact ⟨disciplined, size, batch, by simp, by simp, fun _ => progress.polled place whole⟩
  | ends early _ place => exact invariant.epilogue place
  | asked => exact ⟨disciplined, size, batch, progress.stop⟩
  | answers label queue answer =>
    have kept := disciplined.controller answer
    rcases QueuePair.controller_cases answer with ⟨-, -, rfl⟩ | ⟨_, _, _, -, -, -, rfl⟩ <;>
      exact ⟨kept, size, batch, progress⟩

theorem drive_invariant (size : 2 ≤ setup.params.queueSize) {labels : List DriveLabel}
    (reaches : run (setup.driveEndpointOf kind) setup.start labels = some drive) :
    setup.Invariant drive :=
  run_invariant (motive := setup.Invariant)
    (fun _ _ _ invariant move => invariant.move (move_of_step move)) (start_invariant size) reaches

end

/-! ### Whole runs -/

/-- At most `queueSize - 1` commands are submitted and not yet taken, tail and head follow the
counts, the phase flips with every turn of the completion queue, completions are taken once and in
the order of posting, and the phase test accepts exactly the new ones. -/
structure QueueDiscipline (queueSize : Nat) (queue : QueuePair) : Prop where
  occupancy : queue.submitted ≤ queue.accepted.length + (queueSize - 1)
  tail : queue.sqTail = queue.submitted % queueSize
  head : queue.cqHead = queue.accepted.length % queueSize
  phase : queue.expectedPhase = (queue.accepted.length / queueSize % 2 == 0)
  inOrder : queue.accepted <+: queue.posted
  once : (queue.accepted.map Cqe.command).Nodup
  fresh : queue.cqeReady = true ↔ queue.accepted.length < queue.posted.length

def Complete (setup : Setup) (drive : Drive) : Prop :=
  drive.queue.submitted = setup.params.readIo + setup.params.writeIo ∧
    drive.queue.accepted.length = setup.params.readIo + setup.params.writeIo ∧
    drive.queue.accepted = drive.queue.posted

/-- The controller reports success: status code type and status code are zero. -/
def CommandsSucceed (_ : Drive) : DriveLabel → Prop
  | .controller (.post _ statusField) => statusField % 2048 = 0
  | _ => True

instance CommandsSucceed.decidable (drive : Drive) :
    ∀ label, Decidable (CommandsSucceed drive label)
  | .controller (.post _ statusField) => inferInstanceAs (Decidable (statusField % 2048 = 0))
  | .controller .fetch | .thread | .worker _ | .stop => inferInstanceAs (Decidable True)

section

variable {setup : Setup} {drive next : Drive} {cause : Cause}

theorem Progress.returned (progress : setup.Progress drive)
    (finished : drive.pc = .returned cause) :
    (cause = .stop → drive.stopFlag = true) ∧
      (cause = .done → drive.queue.submitted = drive.queue.accepted.length ∧
        setup.params.infiniteMode = false ∧
        (setup.Bounded → drive.queue.submitted = setup.params.totalOps)) := by
  unfold Progress at progress
  rw [finished] at progress
  exact progress

theorem Invariant.queueDiscipline (invariant : setup.Invariant drive) :
    QueueDiscipline setup.params.queueSize drive.queue := by
  have disciplined := invariant.disciplined
  have occupancy := disciplined.occupancy
  rw [← invariant.size]
  refine ⟨by omega, disciplined.tail, disciplined.head, disciplined.phase,
    disciplined.accepted_prefix, ?_, disciplined.toCoherent.cqeReady_iff⟩
  have distinct := (disciplined.commands.nodup_iff.mpr List.nodup_range).of_append_left
  exact (disciplined.accepted_prefix.sublist.map Cqe.command).nodup distinct

theorem Invariant.complete (invariant : setup.Invariant drive)
    (bounded : setup.Bounded) (finished : drive.pc = .returned .done) : setup.Complete drive := by
  obtain ⟨-, done⟩ := invariant.progress.returned finished
  obtain ⟨counts, -, total⟩ := done rfl
  have all := total bounded
  have coherent := invariant.disciplined.toCoherent
  have posted := coherent.posted_le
  have accepted := coherent.accepted_le
  have whole : setup.params.totalOps = setup.params.readIo + setup.params.writeIo :=
    Nat.mod_eq_of_lt (by unfold Bounded at bounded; omega)
  exact ⟨by omega, by omega, coherent.accepted_prefix.eq_of_length (by omega)⟩

/-! ### Causes -/

variable {label : DriveLabel}

theorem Move.returned (move : Move setup .single drive label next)
    (before : ∀ cause, drive.pc = .returned cause → cause = .done ∨ cause = .stop)
    (after : next.pc = .returned cause) : cause = .done ∨ cause = .stop := by
  cases move with
  | leaves =>
    simp only [Pc.returned.injEq] at after
    rw [← after]
    split_ifs
    · exact Or.inl rfl
    · exact Or.inr rfl
  | stops => exact Or.inr (Pc.returned.inj after).symm
  | asked | answers => exact before cause after
  | prepares _ _ impossible | aborts _ impossible | publishes _ impossible
  | polled _ _ impossible | ends _ impossible => exact absurd impossible (by simp)
  | opens | submits | refuses | rings | takes | fails | expires | waits | closes =>
    exact absurd after (by simp [Kind.opening, Kind.givenUp])

structure Calm (drive : Drive) : Prop where
  posted : ∀ cqe ∈ drive.queue.posted, cqe.ok = true
  polled : drive.pc ≠ .epilogue (some .cqeError)
  returned : drive.pc ≠ .returned .cqeError

/-- In a run in which all commands succeed the wavefront drive never gives up because of a
status. -/
theorem Calm.move (calm : Calm drive) (invariant : setup.Invariant drive)
    (success : CommandsSucceed drive label) (move : Move setup .wavefront drive label next) :
    Calm next := by
  cases move with
  | fails b pollCount place inBatch ready failed =>
    have entry := invariant.disciplined.toCoherent.head_entry ready
    exact absurd (calm.posted _ (List.mem_of_getElem? entry)) failed
  | prepares prepared b =>
    refine ⟨?_, by simp [Setup.worker], by simp [Setup.worker]⟩
    unfold Setup.worker
    dsimp only
    split_ifs <;> exact calm.posted
  | ends early _ place =>
    cases early with
    | some cause =>
      refine ⟨calm.posted, by simp [Setup.epilogue], fun failed => calm.polled ?_⟩
      rw [place, Pc.returned.inj failed]
    | none =>
      refine ⟨calm.posted, ?_, ?_⟩ <;>
        · simp only [Setup.epilogue, ne_eq]
          split_ifs <;> simp
  | asked => exact ⟨calm.posted, calm.polled, calm.returned⟩
  | answers label queue answer =>
    have succeeds : label.Succeeds := by cases label <;> exact success
    exact ⟨QueuePair.posted_ok succeeds answer calm.posted, calm.polled, calm.returned⟩
  | leaves impossible | submits _ impossible | refuses _ impossible | rings _ impossible
  | closes _ _ impossible => exact absurd impossible (by simp)
  | opens | aborts | publishes | stops | takes | expires | waits | polled =>
    exact ⟨calm.posted, by simp [Kind.opening, Kind.givenUp], by simp [Kind.opening, Kind.givenUp]⟩

/-! ### The theorem -/

variable {labels : List DriveLabel}

theorem single_causes (reaches : run setup.driveEndpointSingle setup.start labels = some drive) :
    ∀ cause, drive.pc = .returned cause → cause = .done ∨ cause = .stop :=
  run_invariant
    (motive := fun drive => ∀ cause, drive.pc = .returned cause → cause = .done ∨ cause = .stop)
    (fun drive label next before step _ =>
      (show Move setup .single drive label next from move_of_step step).returned before)
    (by simp [start]) reaches

theorem wavefront_calm (size : 2 ≤ setup.params.queueSize)
    (succeed : EveryStep setup.driveEndpointWavefront CommandsSucceed setup.start labels)
    (reaches : run setup.driveEndpointWavefront setup.start labels = some drive) :
    setup.Invariant drive ∧ Calm drive := by
  refine run_invariant_of_everyStep (motive := fun drive => setup.Invariant drive ∧ Calm drive)
    (fun drive label next kept success step => ?_)
    ⟨start_invariant size,
      by simp [start, QueuePair.create],
      by simp [start], by simp [start]⟩ succeed reaches
  have move : Move setup .wavefront drive label next := move_of_step step
  exact ⟨kept.1.move move, kept.2.move kept.1 success move⟩

/-- Both drives keep the discipline of the queue along every run. A finite drive that has returned
without being asked to stop has done all its operations, or is the wavefront drive and gave up on a
completion or a data slot. -/
theorem drives_disciplined (setup : Setup) (size : 2 ≤ setup.params.queueSize)
    (bounded : setup.params.readIo + setup.params.writeIo + setup.params.queueSize < 2 ^ 32) :
    (∀ labels drive, run setup.driveEndpointSingle setup.start labels = some drive →
      QueueDiscipline setup.params.queueSize drive.queue ∧
        (setup.params.infiniteMode = false → ∀ cause, drive.pc = .returned cause →
          drive.stopFlag = true ∨ setup.Complete drive)) ∧
      ∀ labels drive, run setup.driveEndpointWavefront setup.start labels = some drive →
        EveryStep setup.driveEndpointWavefront CommandsSucceed setup.start labels →
        QueueDiscipline setup.params.queueSize drive.queue ∧
          (setup.params.infiniteMode = false → ∀ cause, drive.pc = .returned cause →
            drive.stopFlag = true ∨ cause = .timeout ∨ cause = .prpError ∨
              setup.Complete drive) := by
  refine ⟨fun labels drive reaches => ?_, fun labels drive reaches succeed => ?_⟩
  · have invariant := drive_invariant size
      (show run (setup.driveEndpointOf .single) setup.start labels = some drive from reaches)
    refine ⟨invariant.queueDiscipline, fun _ cause finished => ?_⟩
    rcases single_causes reaches cause finished with rfl | rfl
    · exact Or.inr (invariant.complete bounded finished)
    · exact Or.inl ((invariant.progress.returned finished).1 rfl)
  · obtain ⟨invariant, calm⟩ := wavefront_calm size succeed reaches
    refine ⟨invariant.queueDiscipline, fun _ cause finished => ?_⟩
    cases cause with
    | done => exact Or.inr (Or.inr (Or.inr (invariant.complete bounded finished)))
    | stop => exact Or.inl ((invariant.progress.returned finished).1 rfl)
    | timeout => exact Or.inr (Or.inl rfl)
    | prpError => exact Or.inr (Or.inr (Or.inl rfl))
    | cqeError => exact absurd finished calm.returned

end

/-! ### Runs -/

def oneReadParams : IoParams where
  lbaSize := 512
  lbasPerIo := 1
  queueSize := 4
  batchSize := 2
  readIo := 1
  writeIo := 0
  infiniteMode := false
  lbaSize_lt := BufferParams.sectorSize_lt
  lbasPerIo_lt := by decide
  queueSize_pos := by decide
  queueSize_lt := by decide

def oneBlock : DataBuffer 512 where
  buffer := pageSize
  bufferDma := 0
  pagePhysAddrs := some fun _ => pageSize
  aligned := fun _ _ => Nat.mod_self pageSize
  inSpace := fun _ _ => show pageSize + pageSize ≤ 2 ^ 64 by decide

def oneRead : Setup where
  params := oneReadParams
  buffers := ⟨512, oneBlock, oneBlock, fun _ => 0, fun _ _ => rfl⟩
  timingStats := false
  stopRequested := false

/-- Five reads on rings of four slots, in batches of two. -/
def fiveReads : Setup where
  params := { oneReadParams with readIo := 5 }
  buffers := ⟨1024, repeatedPage 1024, repeatedPage 1024, fun _ => 0, fun _ _ => rfl⟩
  timingStats := false
  stopRequested := false

/-- The controller takes the two commands of a batch in one order and answers them in the other. -/
def fiveReadsRun : List DriveLabel :=
  let twoReads :=
    [.thread, .worker 1, .worker 0, .thread, .thread, .controller .fetch, .controller .fetch,
      .controller (.post 1 0), .thread, .controller (.post 0 0), .thread, .thread, .thread]
  twoReads ++ twoReads ++
    [.thread, .worker 0, .thread, .controller .fetch, .controller (.post 0 0), .thread, .thread,
      .thread]

/-- Both rings are passed once: the tail and the head are back at slot one, in the second phase. -/
theorem drives_disciplined_fiveReads :
    ∃ drive, run fiveReads.driveEndpointWavefront fiveReads.start fiveReadsRun = some drive ∧
      drive.pc = .returned .done ∧ drive.queue.sqTail = 1 ∧ drive.queue.cqHead = 1 ∧
      drive.queue.expectedPhase = false ∧ QueueDiscipline 4 drive.queue := by
  refine ⟨_, rfl, rfl, rfl, rfl, rfl, ?_⟩
  exact ((drives_disciplined fiveReads (by decide) (by decide)).2 fiveReadsRun _ rfl
    (by decide +kernel)).1

theorem wavefront_waits {setup : Setup} {drive : Drive} {b pollCount polls : Nat}
    (more : b < drive.batchCount) (running : setup.stopSeen drive = false)
    (empty : drive.queue.cqeReady = false) (bound : pollCount + polls < maxPolls) :
    run setup.driveEndpointWavefront { drive with pc := .poll b pollCount }
        (List.replicate polls .thread) =
      some { drive with pc := .poll b (pollCount + polls) } := by
  induction polls generalizing pollCount with
  | zero => rfl
  | succ polls inductionHypothesis =>
    have patient : ¬ pollCount + 1 ≥ maxPolls := by omega
    have first : setup.driveEndpointWavefront { drive with pc := .poll b pollCount } .thread =
        some { drive with pc := .poll b (pollCount + 1) } := by
      have unseen : setup.stopSeen { drive with pc := .poll b pollCount } = false := running
      simp [driveEndpointWavefront, wavefrontThread, more, unseen, empty, patient]
    rw [List.replicate_succ, run_cons_of_step first, inductionHypothesis (by omega),
      Nat.add_assoc, Nat.add_comm 1]

/-- The drive of `oneRead` when it starts to poll. -/
def slowDrive : Drive where
  queue := ((QueuePair.create 4).sqeWrite 0 0 |>.advanceTail 1).ringSq
  opsDone := 0
  batchCount := 1
  shError := false
  pc := .poll 0 0
  stopFlag := false

def slowRun : List DriveLabel :=
  [.thread, .worker 0, .thread] ++ (List.replicate (maxPolls - 1) .thread ++
    [.thread, .thread, .controller .fetch, .controller (.post 0 0)])

/-- A wavefront drive of one read returns, without having been asked to stop, before its
command completes with success; the completion is never taken. -/
theorem wavefront_gives_up : ∃ (setup : Setup) (labels : List DriveLabel) (drive : Drive),
    2 ≤ setup.params.queueSize ∧ run setup.driveEndpointWavefront setup.start labels = some drive ∧
      EveryStep setup.driveEndpointWavefront CommandsSucceed setup.start labels ∧
      setup.params.infiniteMode = false ∧ drive.pc = .returned .timeout ∧
      drive.stopFlag = false ∧ ¬ setup.Complete drive := by
  have succeed : EveryStep oneRead.driveEndpointWavefront CommandsSucceed oneRead.start slowRun :=
    everyStep_of_forall (fun state label member => by
      simp only [slowRun, List.cons_append, List.nil_append, List.mem_cons, List.mem_append,
        List.mem_replicate, List.not_mem_nil, or_false] at member
      rcases member with rfl | rfl | rfl | ⟨-, rfl⟩ | rfl | rfl | rfl | rfl <;>
        simp [CommandsSucceed]) _
  have begins : run oneRead.driveEndpointWavefront oneRead.start [.thread, .worker 0, .thread] =
      some slowDrive := rfl
  have waits := wavefront_waits (show 0 < slowDrive.batchCount by decide)
    (show oneRead.stopSeen slowDrive = false from rfl)
    (show slowDrive.queue.cqeReady = false by decide)
    (show 0 + (maxPolls - 1) < maxPolls by decide)
  obtain ⟨drive, ends, returned, flag, taken⟩ : ∃ drive,
      run oneRead.driveEndpointWavefront { slowDrive with pc := .poll 0 (0 + (maxPolls - 1)) }
        [.thread, .thread, .controller .fetch, .controller (.post 0 0)] = some drive ∧
      drive.pc = .returned .timeout ∧ drive.stopFlag = false ∧ drive.queue.accepted = [] :=
    ⟨_, rfl, rfl, rfl, rfl⟩
  refine ⟨oneRead, slowRun, drive, by decide, ?_, succeed, rfl, returned, flag, fun complete => ?_⟩
  · exact (run_append_of_run begins).trans ((run_append_of_run waits).trans ends)
  · have all : drive.queue.accepted.length = 1 := complete.2.1
    rw [taken] at all
    exact absurd all (by decide)

end Setup

end RocmXio.Nvme
