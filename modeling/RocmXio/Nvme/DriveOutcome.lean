/-
How a finite drive ends.

`run` starts a drive in a block of `kernelThreads` threads: one for each entry of the effective
batch and a coordinator, or a single thread. The kernel takes the wavefront drive whenever the
configured batch size is more than one, also when the effective batch is a single entry; the
coordinator is then without workers, and nobody writes an entry.

A drive whose commands are all answered ends, since every step uses up some of the work left. It
returns when everything was taken and had succeeded, and gives up exactly when some completion
reports an error.
-/

import RocmXio.Nvme.DriveDiscipline

namespace RocmXio.Nvme

open Lib

def IoParams.kernelThreads (params : IoParams) : Nat :=
  if params.effBatch > 1 then params.effBatch + 1 else 1

def Pc.terminal : Pc → Bool
  | .returned _ | .trapped => true
  | .top | .write _ | .prepare _ | .poll _ _ | .epilogue _ => false

def Pc.failed : Pc → Bool
  | .trapped | .epilogue (some _) => true
  | .returned cause => cause != .done
  | .top | .write _ | .prepare _ | .poll _ _ | .epilogue none => false

theorem Pc.failed_of_terminal {pc : Pc} (ended : pc.terminal = true)
    (notDone : pc ≠ .returned .done) : pc.failed = true := by
  cases pc with
  | returned cause => simpa [Pc.failed] using notDone
  | trapped => rfl
  | top | write | prepare | poll | epilogue => exact absurd ended.symm (by simp [Pc.terminal])

def DriveLabel.ours : DriveLabel → Bool
  | .thread | .worker _ => true
  | .controller _ | .stop => false

namespace Setup

/-! ### The coordinator alone -/

/-- One step of thread 0 of `driveEndpointWavefront` in a block of one thread. -/
def aloneThread (setup : Setup) (drive : Drive) : Option Drive :=
  match drive.pc with
  | .prepare _ =>
    if drive.shError then some { drive with pc := .returned .prpError }
    else
      some { drive with
        queue := (drive.queue.advanceTail drive.batchCount).ringSq
        pc := .poll 0 0 }
  | _ => setup.wavefrontThread drive

/-- `driveEndpointWavefront`, run by a block of one thread. -/
def driveEndpointAlone (setup : Setup) (drive : Drive) : DriveLabel → Option Drive
  | .thread => setup.aloneThread drive
  | .worker _ => none
  | .controller label => environment drive (.controller label)
  | .stop => environment drive .stop

/-- The blocks that `run` starts, except those of several threads that all run the single drive
(`Team`), which it starts for a batch size of zero with room for several entries. -/
inductive Crew where
  | single
  | workers
  | alone
deriving DecidableEq, Repr

def Crew.kind : Crew → Kind
  | .single => .single
  | .workers | .alone => .wavefront

/-- `driveEndpoint`, together with the number of threads that the block has. -/
def crew (setup : Setup) : Crew :=
  if setup.params.batchSize > 1 then
    if setup.params.kernelThreads > 1 then .workers else .alone
  else .single

def gpuKernel (setup : Setup) : Crew → Drive → DriveLabel → Option Drive
  | .single => setup.driveEndpointOf .single
  | .workers => setup.driveEndpointOf .wavefront
  | .alone => setup.driveEndpointAlone

theorem aloneThread_eq {setup : Setup} {drive : Drive}
    (elsewhere : ¬ ∃ prepared, drive.pc = .prepare prepared) :
    setup.aloneThread drive = setup.wavefrontThread drive := by
  unfold aloneThread
  split
  case h_1 prepared place => exact absurd ⟨prepared, place⟩ elsewhere
  case h_2 => rfl

/-- The coordinator alone passes the barrier by itself; every other step of a block is a move
of its drive. -/
theorem move_of_gpuKernel {setup : Setup} {crew : Crew} {drive next : Drive} {label : DriveLabel}
    (step : setup.gpuKernel crew drive label = some next) :
    (crew = .alone ∧ label = .thread ∧ (∃ prepared, drive.pc = .prepare prepared) ∧
        next = { drive with
          queue := (drive.queue.advanceTail drive.batchCount).ringSq
          pc := .poll 0 0 }) ∨
      Move setup crew.kind drive label next := by
  cases crew with
  | single => exact Or.inr (move_of_step step)
  | workers => exact Or.inr (move_of_step step)
  | alone =>
    cases label with
    | worker => exact absurd step (by simp [gpuKernel, driveEndpointAlone])
    | stop => exact Or.inr (move_of_environment step)
    | controller => exact Or.inr (move_of_environment step)
    | thread =>
      by_cases preparing : ∃ prepared, drive.pc = .prepare prepared
      · obtain ⟨prepared, place⟩ := preparing
        simp only [gpuKernel, driveEndpointAlone, aloneThread, place] at step
        split at step <;> obtain rfl := Option.some.inj step
        case isTrue failed => exact Or.inr (.aborts prepared rfl place failed)
        case isFalse => exact Or.inl ⟨rfl, rfl, ⟨prepared, place⟩, rfl⟩
      · exact Or.inr (move_of_wavefrontThread ((aloneThread_eq preparing).symm.trans step))

/-! ### The invariant -/

/-- What `run` makes sure of: some operation is requested, the counts do not wrap, and every slot of
a batch has a place in a data buffer. -/
structure Sound (setup : Setup) : Prop where
  size : 2 ≤ setup.params.queueSize
  finite : setup.params.infiniteMode = false
  requested : 0 < setup.params.readIo + setup.params.writeIo
  bounded : setup.params.readIo + setup.params.writeIo + setup.params.queueSize < 2 ^ 32
  valid : ∀ opIdx b, b < setup.params.effBatch → setup.prpValid opIdx b = true

def expiring (drive : Drive) : Bool :=
  match drive.pc with
  | .poll _ pollCount => !drive.queue.cqeReady && decide (pollCount + 1 ≥ maxPolls)
  | _ => false

/-- The step is not a stop request, and no poll is given up for lack of an answer. -/
def Answered (drive : Drive) (label : DriveLabel) : Prop :=
  label ≠ .stop ∧ (label = .thread → expiring drive = false)

instance Answered.decidable (drive : Drive) (label : DriveLabel) :
    Decidable (Answered drive label) :=
  inferInstanceAs (Decidable (_ ∧ (_ → _)))

def Counts (setup : Setup) (kind : Kind) (drive : Drive) : Prop :=
  match drive.pc with
  | .top => drive.queue.submitted = drive.queue.accepted.length ∧
      drive.opsDone = drive.queue.accepted.length ∧ drive.opsDone ≤ setup.params.totalOps ∧
      (kind = .wavefront → drive.opsDone < setup.params.totalOps)
  | .write b => drive.queue.submitted = drive.queue.accepted.length + b ∧ b ≤ drive.batchCount ∧
      drive.opsDone = drive.queue.accepted.length ∧
      drive.opsDone + drive.batchCount ≤ setup.params.totalOps
  | .prepare _ => drive.queue.submitted = drive.queue.accepted.length ∧
      drive.opsDone = drive.queue.accepted.length ∧
      drive.opsDone + drive.batchCount ≤ setup.params.totalOps
  | .poll b pollCount =>
      drive.queue.submitted + b = drive.queue.accepted.length + drive.batchCount ∧
      b ≤ drive.batchCount ∧ drive.opsDone + b = drive.queue.accepted.length ∧
      drive.opsDone + drive.batchCount ≤ setup.params.totalOps ∧ pollCount < maxPolls
  | .epilogue none => drive.queue.submitted = drive.queue.accepted.length ∧
      drive.opsDone + drive.batchCount = drive.queue.accepted.length ∧
      drive.opsDone + drive.batchCount ≤ setup.params.totalOps
  | .returned .done => drive.queue.submitted = setup.params.totalOps ∧
      drive.queue.accepted.length = setup.params.totalOps
  | .epilogue (some cause) => cause ≠ .done
  | .returned _ | .trapped => True

/-- Only successful completions have been taken, and a drive that has given up was given one that
reports an error. -/
structure Flow (setup : Setup) (kind : Kind) (drive : Drive) : Prop where
  coherent : drive.queue.Coherent
  counts : setup.Counts kind drive
  batch : drive.batchCount ≤ setup.params.effBatch
  within : drive.queue.submitted ≤ setup.params.totalOps
  taken : ∀ cqe ∈ drive.queue.accepted, cqe.ok = true
  running : drive.stopFlag = false
  fine : drive.shError = false
  failed : drive.pc.failed = true → ∃ cqe ∈ drive.queue.posted, cqe.ok = false

section

variable {setup : Setup} {kind : Kind} {drive next : Drive} {label : DriveLabel}

theorem Sound.totalOps_eq (sound : setup.Sound) :
    setup.params.totalOps = setup.params.readIo + setup.params.writeIo := by
  have bounded := sound.bounded
  exact Nat.mod_eq_of_lt (by omega)

theorem Sound.small (sound : setup.Sound) {count : Nat} (within : count ≤ setup.params.totalOps) :
    count % 2 ^ 32 = count := by
  have bounded := sound.bounded
  have total := sound.totalOps_eq
  exact Nat.mod_eq_of_lt (by omega)

theorem Sound.batchCount_eq (sound : setup.Sound) (kind : Kind) {opsDone : Nat}
    (within : opsDone ≤ setup.params.totalOps) :
    setup.batchCount (setup.batchSizeOf kind) opsDone =
      min (setup.batchSizeOf kind) (setup.params.totalOps - opsDone) := by
  have bounded := sound.bounded
  have total := sound.totalOps_eq
  have batch := setup.batchSizeOf_le kind
  simp only [batchCount, sound.finite, true_and]
  split_ifs <;> omega

theorem wavefrontBatch_le_effBatch : setup.wavefrontBatch ≤ setup.params.effBatch := by
  simp only [wavefrontBatch, IoParams.effBatch, IoParams.cappedBatch]
  split_ifs <;> omega

theorem batchSizeOf_le_effBatch (kind : Kind) : setup.batchSizeOf kind ≤ setup.params.effBatch := by
  cases kind with
  | wavefront => exact wavefrontBatch_le_effBatch
  | single =>
    unfold batchSizeOf singleBatch
    split_ifs with wide
    · exact Nat.le_of_lt wide.2
    · exact le_refl _

theorem maxPolls_pos : 0 < maxPolls := by decide

theorem Flow.start (sound : setup.Sound) : setup.Flow kind setup.start where
  coherent := QueuePair.create_coherent sound.size
  counts := ⟨rfl, rfl, Nat.zero_le _, fun _ => sound.totalOps_eq ▸ sound.requested⟩
  batch := Nat.zero_le _
  within := Nat.zero_le _
  taken := by simp [Setup.start, QueuePair.create]
  running := rfl
  fine := rfl
  failed := by simp [Setup.start, Pc.failed]

section

variable (flow : setup.Flow kind drive)
include flow

theorem Flow.opens (sound : setup.Sound) (place : drive.pc = .top) : setup.Flow kind { drive with
      batchCount := setup.batchCount (setup.batchSizeOf kind) drive.opsDone
      pc := kind.opening } := by
  have counts := flow.counts
  simp only [Counts, place] at counts
  obtain ⟨submitted, ops, below, -⟩ := counts
  have batch := sound.batchCount_eq kind below
  have effective := setup.batchSizeOf_le_effBatch kind
  have short : setup.batchCount (setup.batchSizeOf kind) drive.opsDone ≤ setup.params.effBatch := by
    omega
  have total : drive.opsDone + setup.batchCount (setup.batchSizeOf kind) drive.opsDone ≤
      setup.params.totalOps := by
    omega
  cases kind with
  | single =>
    exact { flow with
      counts := ⟨submitted, Nat.zero_le _, ops, total⟩
      batch := short
      failed := Bool.false_ne_true.elim }
  | wavefront =>
    exact { flow with
      counts := ⟨submitted, ops, total⟩
      batch := short
      failed := Bool.false_ne_true.elim }

theorem Flow.publishes {prepared : List Nat} (place : drive.pc = .prepare prepared) :
    setup.Flow kind { drive with
      queue := (drive.queue.advanceTail drive.batchCount).ringSq
      pc := .poll 0 0 } := by
  have counts := flow.counts
  simp only [Counts, place] at counts
  obtain ⟨submitted, ops, total⟩ := counts
  refine { flow with
    coherent := (flow.coherent.advanceTail _).ringSq
    counts := ⟨?_, Nat.zero_le _, ops, total, maxPolls_pos⟩
    within := ?_
    failed := Bool.false_ne_true.elim }
  · show drive.queue.submitted + drive.batchCount + 0 = drive.queue.accepted.length + _
    rw [submitted]
    rfl
  · show drive.queue.submitted + drive.batchCount ≤ _
    rw [submitted, ← ops]
    exact total

theorem Flow.closes (sound : setup.Sound)
    (submitted : drive.queue.submitted = drive.queue.accepted.length)
    (ops : drive.opsDone + drive.batchCount = drive.queue.accepted.length)
    (total : drive.opsDone + drive.batchCount ≤ setup.params.totalOps)
    (more : kind = .wavefront →
      (drive.opsDone + drive.batchCount) % 2 ^ 32 < setup.params.totalOps) :
    setup.Flow kind { drive with
      queue := drive.queue.ringCq
      opsDone := (drive.opsDone + drive.batchCount) % 2 ^ 32
      pc := .top } := by
  have small := sound.small total
  exact { flow with
    coherent := flow.coherent.ringCq
    counts := ⟨submitted, small.trans ops, small.le.trans total, more⟩
    failed := Bool.false_ne_true.elim }

theorem Flow.takes {b pollCount : Nat} (place : drive.pc = .poll b pollCount)
    (inBatch : b < drive.batchCount) (ready : drive.queue.cqeReady = true)
    (success : (drive.queue.completionQueue drive.queue.cqHead).ok = true) :
    setup.Flow kind { drive with queue := drive.queue.consume, pc := .poll (b + 1) 0 } := by
  have counts := flow.counts
  simp only [Counts, place] at counts
  obtain ⟨submitted, -, ops, total, -⟩ := counts
  have length : drive.queue.consume.accepted.length = drive.queue.accepted.length + 1 := by
    simp [QueuePair.consume]
  refine { flow with
    coherent := flow.coherent.consume ready
    counts := ⟨?_, inBatch, ?_, total, maxPolls_pos⟩
    taken := fun cqe member => ?_
    failed := Bool.false_ne_true.elim }
  · show drive.queue.submitted + (b + 1) = _ + drive.batchCount
    rw [length]
    omega
  · show drive.opsDone + (b + 1) = _
    rw [length]
    omega
  · rcases List.mem_append.mp member with old | new
    · exact flow.taken cqe old
    · rw [List.mem_singleton.mp new]
      exact success

theorem Flow.ends {early : Option Cause} (sound : setup.Sound)
    (place : drive.pc = .epilogue early) :
    setup.Flow kind (setup.epilogue drive early) := by
  have counts := flow.counts
  simp only [Counts, place] at counts
  cases early with
  | some cause =>
    have bad := flow.failed (by rw [place]; rfl)
    have notDone : cause ≠ .done := counts
    exact { flow with
      counts := by cases cause <;> first | exact trivial | exact absurd rfl notDone
      failed := fun _ => bad }
  | none =>
    obtain ⟨submitted, ops, total⟩ := counts
    have unseen : setup.stopSeen drive = false := by
      rw [stopSeen, flow.running, Bool.and_false]
    simp only [Setup.epilogue, Option.isSome_none, Bool.false_eq_true, if_false, unseen,
      sound.finite, true_and]
    split_ifs with done
    · have all : drive.queue.accepted.length = setup.params.totalOps := by omega
      exact { flow with
        coherent := flow.coherent.ringCq
        counts := ⟨submitted.trans all, all⟩
        failed := Bool.false_ne_true.elim }
    · exact flow.closes sound submitted ops total fun _ => Nat.lt_of_not_le done

theorem Flow.answers {answerLabel : QueuePair.Controller} {queue : QueuePair}
    (answer : drive.queue.controller answerLabel = some queue) :
    setup.Flow kind { drive with queue := queue } := by
  have coherent := flow.coherent.controller answer
  rcases QueuePair.controller_cases answer with ⟨-, -, rfl⟩ | ⟨_, _, _, -, -, -, rfl⟩
  · exact { flow with coherent := coherent }
  · refine { flow with coherent := coherent, failed := fun gaveUp => ?_ }
    obtain ⟨cqe, member, bad⟩ := flow.failed gaveUp
    exact ⟨cqe, List.mem_append_left _ member, bad⟩

theorem Flow.move (sound : setup.Sound) (answered : Answered drive label)
    (move : Move setup kind drive label next) :
    setup.Flow kind next := by
  have counts := flow.counts
  cases move with
  | opens place => exact flow.opens sound place
  | leaves _ place left =>
    simp only [Counts, place] at counts
    obtain ⟨submitted, ops, below, -⟩ := counts
    have unseen : setup.stopSeen drive = false := by
      rw [stopSeen, flow.running, Bool.and_false]
    have whole : setup.params.totalOps ≤ drive.opsDone :=
      Nat.le_of_not_lt fun more => left ⟨Or.inr more, unseen⟩
    rw [if_pos ⟨sound.finite, whole⟩]
    have all : drive.queue.accepted.length = setup.params.totalOps :=
      ops.symm.trans (Nat.le_antisymm below whole)
    exact { flow with
      counts := ⟨submitted.trans all, all⟩
      failed := Bool.false_ne_true.elim }
  | submits b _ place inBatch =>
    simp only [Counts, place] at counts
    obtain ⟨submitted, -, ops, total⟩ := counts
    refine { flow with
      coherent := (flow.coherent.sqeWrite _ _).advanceTail 1
      counts := ⟨?_, inBatch, ops, total⟩
      within := ?_
      failed := Bool.false_ne_true.elim }
    · show drive.queue.submitted + 1 = drive.queue.accepted.length + (b + 1)
      rw [submitted]
      rfl
    · show drive.queue.submitted + 1 ≤ setup.params.totalOps
      omega
  | refuses b _ place inBatch invalid =>
    exact absurd (Or.inr (sound.valid _ b (Nat.lt_of_lt_of_le inBatch flow.batch))) invalid
  | rings b _ place whole =>
    simp only [Counts, place] at counts
    obtain ⟨submitted, most, ops, total⟩ := counts
    have all : b = drive.batchCount := Nat.le_antisymm most (Nat.le_of_not_lt whole)
    exact { flow with
      coherent := flow.coherent.ringSq
      counts := ⟨all ▸ submitted, Nat.zero_le _, ops, total, maxPolls_pos⟩
      failed := Bool.false_ne_true.elim }
  | prepares prepared b _ place inBatch =>
    simp only [Counts, place] at counts
    have valid := sound.valid ((drive.opsDone + b) % 2 ^ 32) b
      (Nat.lt_of_lt_of_le inBatch flow.batch)
    have fine : (drive.shError || !setup.prpValid ((drive.opsDone + b) % 2 ^ 32) b) = false := by
      rw [flow.fine, valid]
      rfl
    unfold Setup.worker
    rw [fine]
    exact { flow with
      coherent := flow.coherent.sqeWrite _ _
      counts := counts
      fine := rfl
      failed := Bool.false_ne_true.elim }
  | aborts _ _ _ failed => exact absurd (flow.fine.symm.trans failed) Bool.false_ne_true
  | publishes prepared _ place => exact flow.publishes place
  | stops b pollCount place inBatch seen =>
    rw [stopSeen, flow.running, Bool.and_false] at seen
    exact absurd seen Bool.false_ne_true
  | takes b pollCount place inBatch ready success => exact flow.takes place inBatch ready success
  | fails b pollCount place inBatch ready failed =>
    have entry := flow.coherent.head_entry ready
    have bad : ∃ cqe ∈ drive.queue.posted, cqe.ok = false :=
      ⟨_, List.mem_of_getElem? entry, Bool.eq_false_iff.mpr failed⟩
    cases kind with
    | single => exact { flow with counts := trivial, failed := fun _ => bad }
    | wavefront =>
      exact { flow with counts := by simp [Counts, Kind.givenUp], failed := fun _ => bad }
  | expires b pollCount place inBatch empty last =>
    have patient := answered.2 rfl
    simp [expiring, place, Bool.eq_false_iff.mpr empty, last] at patient
  | waits b pollCount place inBatch empty patient =>
    simp only [Counts, place] at counts
    obtain ⟨submitted, most, ops, total, -⟩ := counts
    exact { flow with
      counts := ⟨submitted, most, ops, total, Nat.lt_of_not_le patient⟩
      failed := Bool.false_ne_true.elim }
  | closes b pollCount isSingle place whole =>
    simp only [Counts, place] at counts
    obtain ⟨submitted, most, ops, total, -⟩ := counts
    have all : b = drive.batchCount := Nat.le_antisymm most (Nat.le_of_not_lt whole)
    subst all
    exact flow.closes sound (Nat.add_right_cancel submitted) ops total
      fun isWavefront => absurd (isSingle.symm.trans isWavefront) (by decide)
  | polled b pollCount _ place whole =>
    simp only [Counts, place] at counts
    obtain ⟨submitted, most, ops, total, -⟩ := counts
    have all : b = drive.batchCount := Nat.le_antisymm most (Nat.le_of_not_lt whole)
    subst all
    exact { flow with
      counts := ⟨Nat.add_right_cancel submitted, ops, total⟩
      failed := Bool.false_ne_true.elim }
  | ends early _ place => exact flow.ends sound place
  | asked => exact absurd rfl answered.1
  | answers label queue answer => exact flow.answers answer

end

theorem Flow.step {crew : Crew} (flow : setup.Flow crew.kind drive) (sound : setup.Sound)
    (answered : Answered drive label) (step : setup.gpuKernel crew drive label = some next) :
    setup.Flow crew.kind next := by
  rcases move_of_gpuKernel step with ⟨-, -, ⟨prepared, place⟩, rfl⟩ | move
  · exact flow.publishes place
  · exact flow.move sound answered move

/-! ### Ends -/

section

variable (flow : setup.Flow kind drive)
include flow

theorem Flow.done (done : drive.pc = .returned .done) :
    drive.queue.accepted.length = setup.params.totalOps ∧
      drive.queue.submitted = setup.params.totalOps ∧
      drive.queue.accepted = drive.queue.posted := by
  have counts := flow.counts
  simp only [Counts, done] at counts
  have posted := flow.coherent.posted_le
  have accepted := flow.coherent.accepted_le
  exact ⟨counts.2, counts.1, flow.coherent.accepted_prefix.eq_of_length (by omega)⟩

theorem Flow.accepted_lt (gaveUp : drive.pc.failed = true) :
    drive.queue.accepted.length < setup.params.totalOps := by
  obtain ⟨cqe, member, bad⟩ := flow.failed gaveUp
  have posted := flow.coherent.posted_le
  have within := flow.within
  have accepted := flow.coherent.accepted_le
  have short : drive.queue.accepted.length ≠ drive.queue.posted.length := fun same => by
    rw [← flow.coherent.accepted_prefix.eq_of_length same] at member
    exact absurd (bad.symm.trans (flow.taken cqe member)) Bool.false_ne_true
  omega

theorem Flow.done_iff (ended : drive.pc.terminal = true) :
    drive.pc = .returned .done ↔ ∀ cqe ∈ drive.queue.posted, cqe.ok = true := by
  constructor
  · intro done
    rw [← (flow.done done).2.2]
    exact flow.taken
  · intro success
    by_contra notDone
    obtain ⟨cqe, member, bad⟩ := flow.failed (Pc.failed_of_terminal ended notDone)
    exact absurd (bad.symm.trans (success cqe member)) Bool.false_ne_true

end

/-! ### Every drive ends -/

/-- What one operation may take, with some to spare for the beginning and end of its batch. -/
def operationWork : Nat := maxPolls + 6

def work (setup : Setup) (drive : Drive) : Nat :=
  let later := (setup.params.totalOps - (drive.opsDone + drive.batchCount)) * operationWork
  match drive.pc with
  | .top => (setup.params.totalOps - drive.opsDone) * operationWork + 10
  | .write b => later + 14 + drive.batchCount * maxPolls + (drive.batchCount - b)
  | .prepare prepared => later + 14 + drive.batchCount * maxPolls +
      {b ∈ Finset.range drive.batchCount | b ∉ prepared}.card
  | .poll b pollCount => later + 13 + ((drive.batchCount - b) * maxPolls - pollCount)
  | .epilogue none => later + 11
  | .epilogue (some _) => 1
  | .returned _ | .trapped => 0

theorem card_missing_lt {prepared : List Nat} {b count : Nat} (inBatch : b < count)
    (fresh : b ∉ prepared) :
    {other ∈ Finset.range count | other ∉ b :: prepared}.card <
      {other ∈ Finset.range count | other ∉ prepared}.card := by
  refine Finset.card_lt_card ⟨fun other member => ?_, fun back => ?_⟩
  · rw [Finset.mem_filter] at member ⊢
    exact ⟨member.1, fun old => member.2 (List.mem_cons_of_mem b old)⟩
  · have missing := back (Finset.mem_filter.mpr ⟨Finset.mem_range.mpr inBatch, fresh⟩)
    exact (Finset.mem_filter.mp missing).2 List.mem_cons_self

theorem work_of_batch {total opsDone count : Nat} (positive : 0 < count)
    (within : opsDone + count ≤ total) :
    (total - (opsDone + count)) * operationWork + 14 + count * maxPolls + count + 1 ≤
      (total - opsDone) * operationWork + 10 := by
  have split : total - opsDone = (total - (opsDone + count)) + count := by omega
  have share : count * operationWork = count * maxPolls + count * 6 := Nat.mul_add _ _ _
  rw [split, Nat.add_mul, share]
  omega

theorem polls_lt {b pollCount count : Nat} (inBatch : b < count) (short : pollCount < maxPolls) :
    (count - b) * maxPolls - (pollCount + 1) + 1 ≤ (count - b) * maxPolls - pollCount ∧
      (count - (b + 1)) * maxPolls + 1 ≤ (count - b) * maxPolls - pollCount := by
  have split : (count - b) * maxPolls = (count - (b + 1)) * maxPolls + maxPolls := by
    rw [← Nat.succ_mul]
    congr 1
    omega
  omega

theorem Flow.work_le (flow : setup.Flow kind drive) (sound : setup.Sound)
    (answered : Answered drive label) (positive : 0 < setup.batchSizeOf kind)
    (move : Move setup kind drive label next) :
    setup.work next + label.ours.toNat ≤ setup.work drive := by
  have counts := flow.counts
  cases move with
  | opens place wanted =>
    simp only [Counts, place] at counts
    obtain ⟨-, -, below, busy⟩ := counts
    have batch := sound.batchCount_eq kind below
    have more : drive.opsDone < setup.params.totalOps := by
      cases kind with
      | wavefront => exact busy rfl
      | single => exact (wanted rfl).resolve_left (by simp [sound.finite])
    generalize setup.batchCount (setup.batchSizeOf kind) drive.opsDone = count at batch ⊢
    have bound : (setup.params.totalOps - (drive.opsDone + count)) * operationWork + 14 +
        count * maxPolls + count + 1 ≤ _ := work_of_batch (by omega) (by omega)
    cases kind with
    | single =>
      simp only [work, place, Kind.opening, DriveLabel.ours, Bool.toNat_true]
      exact bound
    | wavefront =>
      simp only [work, place, Kind.opening, DriveLabel.ours, Bool.toNat_true, List.not_mem_nil,
        not_false_eq_true, Finset.filter_true, Finset.card_range]
      exact bound
  | leaves _ place | refuses _ _ place | aborts _ _ place =>
    simp only [work, place, DriveLabel.ours, Bool.toNat_true]
    omega
  | submits b _ place inBatch =>
    simp only [work, place, DriveLabel.ours, Bool.toNat_true]
    omega
  | rings b _ place whole =>
    simp only [work, place, DriveLabel.ours, Bool.toNat_true, Nat.sub_zero]
    omega
  | prepares prepared b _ place inBatch first =>
    have fewer := card_missing_lt inBatch fun member => by
      rw [List.contains_iff_mem.mpr member] at first
      exact absurd first (by decide)
    simp only [work, Setup.worker, place, DriveLabel.ours, Bool.toNat_true]
    omega
  | publishes prepared _ place =>
    simp only [work, place, DriveLabel.ours, Bool.toNat_true, Nat.sub_zero]
    omega
  | stops b pollCount place inBatch seen =>
    rw [stopSeen, flow.running, Bool.and_false] at seen
    exact absurd seen Bool.false_ne_true
  | takes b pollCount place inBatch =>
    simp only [Counts, place] at counts
    have fewer := (polls_lt inBatch counts.2.2.2.2).2
    simp only [work, place, DriveLabel.ours, Bool.toNat_true, Nat.sub_zero]
    omega
  | waits b pollCount place inBatch =>
    simp only [Counts, place] at counts
    have fewer := (polls_lt inBatch counts.2.2.2.2).1
    simp only [work, place, DriveLabel.ours, Bool.toNat_true]
    omega
  | fails b pollCount place | expires b pollCount place =>
    cases kind <;>
      simp only [work, place, Kind.givenUp, DriveLabel.ours, Bool.toNat_true] <;>
      omega
  | closes b pollCount _ place whole =>
    simp only [Counts, place] at counts
    have small : (drive.opsDone + drive.batchCount) % 2 ^ 32 = drive.opsDone + drive.batchCount :=
      sound.small counts.2.2.2.1
    simp only [work, place, DriveLabel.ours, Bool.toNat_true, small]
    omega
  | polled b pollCount _ place whole =>
    simp only [work, place, DriveLabel.ours, Bool.toNat_true]
    omega
  | ends early _ place =>
    simp only [Counts, place] at counts
    cases early with
    | some cause =>
      simp only [work, Setup.epilogue, place, DriveLabel.ours, Bool.toNat_true]
      omega
    | none =>
      have small : (drive.opsDone + drive.batchCount) % 2 ^ 32 =
          drive.opsDone + drive.batchCount := sound.small counts.2.2
      simp only [work, Setup.epilogue, place, DriveLabel.ours, Bool.toNat_true, small]
      split_ifs <;> simp only <;> omega
  | asked => exact absurd rfl answered.1
  | answers => exact le_refl _

theorem Flow.work_le_of_step {crew : Crew} (flow : setup.Flow crew.kind drive)
    (sound : setup.Sound) (answered : Answered drive label)
    (positive : 0 < setup.batchSizeOf crew.kind)
    (step : setup.gpuKernel crew drive label = some next) :
    setup.work next + label.ours.toNat ≤ setup.work drive := by
  rcases move_of_gpuKernel step with ⟨-, rfl, ⟨prepared, place⟩, rfl⟩ | move
  · simp only [work, place, DriveLabel.ours, Bool.toNat_true, Nat.sub_zero]
    omega
  · exact flow.work_le sound answered positive move

def Kind.visits : Kind → Pc → Bool
  | .single, .prepare _ | .single, .epilogue _ => false
  | .wavefront, .write _ | .wavefront, .trapped => false
  | _, _ => true

theorem Move.visits (move : Move setup kind drive label next)
    (before : kind.visits drive.pc = true) : kind.visits next.pc = true := by
  cases move with
  | opens | stops | fails | expires => cases kind <;> rfl
  | leaves isSingle | submits _ isSingle | refuses _ isSingle | rings _ isSingle
  | closes _ _ isSingle =>
    subst isSingle
    rfl
  | prepares _ _ isWavefront | aborts _ isWavefront | publishes _ isWavefront
  | polled _ _ isWavefront =>
    subst isWavefront
    rfl
  | takes | waits => cases kind <;> rfl
  | ends early isWavefront =>
    subst isWavefront
    cases early with
    | some cause => rfl
    | none =>
      simp only [Setup.epilogue]
      split_ifs <;> rfl
  | asked | answers => exact before

theorem visits_of_step {crew : Crew} (step : setup.gpuKernel crew drive label = some next)
    (before : crew.kind.visits drive.pc = true) : crew.kind.visits next.pc = true := by
  rcases move_of_gpuKernel step with ⟨rfl, -, -, rfl⟩ | move
  · rfl
  · exact move.visits before

theorem exists_wavefrontThread (setup : Setup) (visits : Kind.visits .wavefront drive.pc = true)
    (active : drive.pc.terminal = false) (elsewhere : ¬ ∃ prepared, drive.pc = .prepare prepared) :
    ∃ next, setup.wavefrontThread drive = some next := by
  cases place : drive.pc with
  | top => exact ⟨_, by simp only [wavefrontThread, place]; rfl⟩
  | epilogue => exact ⟨_, by simp only [wavefrontThread, place]; rfl⟩
  | poll =>
    simp only [wavefrontThread, place]
    split_ifs <;> exact ⟨_, rfl⟩
  | prepare prepared => exact absurd ⟨prepared, place⟩ elsewhere
  | write | trapped =>
    rw [place] at visits
    exact absurd visits Bool.false_ne_true
  | returned =>
    rw [place] at active
    exact absurd active.symm Bool.false_ne_true

theorem exists_step {crew : Crew} (visits : crew.kind.visits drive.pc = true)
    (active : drive.pc.terminal = false) :
    ∃ label next, label.ours = true ∧ setup.gpuKernel crew drive label = some next := by
  cases crew with
  | single =>
    obtain ⟨next, step⟩ : ∃ next, setup.singleThread drive = some next := by
      cases place : drive.pc with
      | top | write | poll =>
        simp only [singleThread, place]
        split_ifs <;> exact ⟨_, rfl⟩
      | prepare | epilogue =>
        rw [place] at visits
        exact absurd visits Bool.false_ne_true
      | returned | trapped =>
        rw [place] at active
        exact absurd active.symm Bool.false_ne_true
    exact ⟨.thread, next, rfl, step⟩
  | alone =>
    by_cases preparing : ∃ prepared, drive.pc = .prepare prepared
    · obtain ⟨prepared, place⟩ := preparing
      refine ⟨.thread, ?_⟩
      simp only [gpuKernel, driveEndpointAlone, aloneThread, place]
      split_ifs <;> exact ⟨_, rfl, rfl⟩
    · obtain ⟨next, step⟩ := exists_wavefrontThread setup visits active preparing
      exact ⟨.thread, next, rfl, (aloneThread_eq preparing).trans step⟩
  | workers =>
    by_cases preparing : ∃ prepared, drive.pc = .prepare prepared
    · obtain ⟨prepared, place⟩ := preparing
      by_cases arrived : (List.range drive.batchCount).all prepared.contains = true
      · refine ⟨.thread, ?_⟩
        simp only [gpuKernel, driveEndpointOf, driveEndpointWavefront, wavefrontThread, place,
          arrived, if_true]
        split_ifs <;> exact ⟨_, rfl, rfl⟩
      · obtain ⟨b, inBatch, missing⟩ : ∃ b, b < drive.batchCount ∧ prepared.contains b = false := by
          by_contra none
          refine arrived (List.all_eq_true.mpr fun b member => ?_)
          by_contra missing
          exact none ⟨b, List.mem_range.mp member, Bool.eq_false_iff.mpr missing⟩
        refine ⟨.worker b, setup.worker drive prepared b, rfl, ?_⟩
        simp only [gpuKernel, driveEndpointOf, driveEndpointWavefront, place]
        exact if_pos ⟨inBatch, missing⟩
    · obtain ⟨next, step⟩ := exists_wavefrontThread setup visits active preparing
      exact ⟨.thread, next, rfl, step⟩

end

end Setup

end RocmXio.Nvme
