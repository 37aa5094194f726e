/-
The identifiers of the commands of a drive.

Both drives give a command the identifier `(op_idx % 65535) + 1`. It is never zero, and 65535
consecutive indices, more than a queue holds, have different ones. But the index is a 32-bit
counter, and `2 ^ 32 - 1` is a multiple of 65535, so the indices around its wrap share an
identifier. An infinite drive whose batch size does not divide `2 ^ 32` runs a batch over the wrap
and then has two commands with identifier 1 in its queue.
-/

import RocmXio.Nvme.Rounds

namespace RocmXio.Nvme

open Lib Function

/-- `cmd_id` of an operation. -/
def commandId (opIdx : Nat) : Nat :=
  (opIdx % 65535 + 1) % 2 ^ 16

variable (opIdx : Nat)

theorem commandId_eq : commandId opIdx = opIdx % 65535 + 1 := by
  exact Nat.mod_eq_of_lt (by omega)

theorem commandId_ne_zero : commandId opIdx ≠ 0 := by
  rw [commandId_eq]
  exact Nat.succ_ne_zero _

theorem eq_of_commandId_eq {opIdx other : Nat} (same : commandId opIdx = commandId other)
    (near : opIdx < other + 65535) (nearOther : other < opIdx + 65535) : opIdx = other := by
  rw [commandId_eq, commandId_eq, Nat.add_right_cancel_iff] at same
  omega

namespace Setup

/-- The number of the command whose entry a step writes, and its operation index. -/
def written (setup : Setup) (drive : Drive) (label : DriveLabel) : Option (Nat × Nat) :=
  match drive.pc, label with
  | .write b, .thread =>
    if b < drive.batchCount ∧ (b < min setup.singleBatch 256 ∨
        setup.prpValid ((drive.opsDone + b) % 2 ^ 32) b = true) then
      some (drive.queue.submitted, (drive.opsDone + b) % 2 ^ 32)
    else none
  | .prepare _, .worker b =>
    if (drive.shError || !setup.prpValid ((drive.opsDone + b) % 2 ^ 32) b) = true then none
    else some (drive.queue.submitted + b, (drive.opsDone + b) % 2 ^ 32)
  | _, _ => none

/-- The identifiers in the entries written so far, by the number of the command. -/
def recordIds (setup : Setup) (drive : Drive) (label : DriveLabel) (_ : Drive)
    (commandIds : Nat → Nat) : Nat → Nat :=
  match setup.written drive label with
  | none => commandIds
  | some (number, opIdx) => update commandIds number (commandId opIdx)

def identify (setup : Setup) (kind : Kind) :
    Observed Drive (Nat → Nat) → DriveLabel → Option (Observed Drive (Nat → Nat)) :=
  observe (setup.driveEndpointOf kind) id setup.recordIds

def identifyStart (setup : Setup) : Observed Drive (Nat → Nat) :=
  ⟨setup.start, fun _ => 0⟩

end Setup

/-- A command is outstanding when it was submitted and its completion has not been taken. -/
def QueuePair.Outstanding (queue : QueuePair) (number : Nat) : Prop :=
  number < queue.submitted ∧ number ∉ queue.accepted.map Cqe.command

instance QueuePair.Outstanding.decidable (queue : QueuePair) (number : Nat) :
    Decidable (queue.Outstanding number) :=
  inferInstanceAs (Decidable (_ ∧ _))

/-- The identifiers of outstanding commands are different from each other and from zero. -/
structure Distinguished (observed : Observed Drive (Nat → Nat)) : Prop where
  nonzero : ∀ number, observed.state.queue.Outstanding number → observed.history number ≠ 0
  different : ∀ number other, observed.state.queue.Outstanding number →
    observed.state.queue.Outstanding other → number ≠ other →
      observed.history number ≠ observed.history other

/-- The thread does not begin a batch that runs over the wrap of the operation counter. -/
def Setup.Unwrapped (setup : Setup) (kind : Setup.Kind) (observed : Observed Drive (Nat → Nat))
    (label : DriveLabel) : Prop :=
  label = .thread → observed.state.pc = .top → observed.state.opsDone +
      setup.batchCount (setup.batchSizeOf kind) observed.state.opsDone ≤ 2 ^ 32

instance Setup.Unwrapped.decidable (setup : Setup) (kind : Setup.Kind)
    (observed : Observed Drive (Nat → Nat)) (label : DriveLabel) :
    Decidable (setup.Unwrapped kind observed label) :=
  inferInstanceAs (Decidable (_ → _ → _))

/-- Entries are written here. -/
def Pc.writing : Pc → Bool
  | .write _ | .prepare _ => true
  | .top | .poll _ _ | .epilogue _ | .returned _ | .trapped => false

namespace Setup

/-! ### The invariant -/

/-- Commands carry the identifiers of their numbers. The completions of those before `first` have
been taken, and at most `count` commands, whose indices do not wrap, come after them. -/
structure Identified (setup : Setup) (observed : Observed Drive (Nat → Nat)) (first count : Nat) :
    Prop where
  invariant : setup.Invariant observed.state
  ids : ∀ number < observed.state.queue.submitted,
    observed.history number = commandId (number % 2 ^ 32)
  prepared : ∀ prepared, observed.state.pc = .prepare prepared → observed.state.shError = false →
    ∀ b ∈ prepared, observed.history (observed.state.queue.submitted + b) =
      commandId ((observed.state.queue.submitted + b) % 2 ^ 32)
  old : ∀ number < first, number ∈ observed.state.queue.accepted.map Cqe.command
  near : observed.state.queue.submitted ≤ first + count
  unwrapped : first % 2 ^ 32 + count ≤ 2 ^ 32
  short : count < setup.params.queueSize
  batch : observed.state.pc.writing = true →
    observed.state.queue.accepted.length = first ∧ observed.state.batchCount = count

section

variable {setup : Setup} {kind : Kind} {observed : Observed Drive (Nat → Nat)} {first count : Nat}

theorem Identified.start (size : 2 ≤ setup.params.queueSize) :
    setup.Identified setup.identifyStart 0 0 where
  invariant := start_invariant size
  ids := fun _ impossible => absurd impossible (Nat.not_lt_zero _)
  prepared := fun _ impossible => absurd impossible (by simp [identifyStart, Setup.start])
  old := by simp
  near := le_refl 0
  unwrapped := Nat.zero_le _
  short := setup.params.queueSize_pos
  batch := Bool.false_ne_true.elim

theorem Identified.distinguished (identified : setup.Identified observed first count) :
    Distinguished observed := by
  have recent : ∀ number, observed.state.queue.Outstanding number →
      first ≤ number ∧ number < first + count := fun number outstanding =>
    ⟨Nat.le_of_not_lt fun before => outstanding.2 (identified.old number before),
      Nat.lt_of_lt_of_le outstanding.1 identified.near⟩
  have short := setup.params.queueSize_lt
  have few := identified.short
  have unwrapped := identified.unwrapped
  refine ⟨fun number outstanding => ?_, fun number other outstanding otherOutstanding apart => ?_⟩
  · rw [identified.ids number outstanding.1]
    exact commandId_ne_zero _
  · have place := recent number outstanding
    have otherPlace := recent other otherOutstanding
    rw [identified.ids number outstanding.1, identified.ids other otherOutstanding.1]
    intro same
    have equal := eq_of_commandId_eq same (by omega) (by omega)
    omega

variable {drive next : Drive} {commandIds : Nat → Nat} {prepared : List Nat} {b : Nat}
  {label : DriveLabel}

section

variable (identified : setup.Identified ⟨drive, commandIds⟩ first count)
include identified

theorem Identified.opens (place : drive.pc = .top)
    (invariant : setup.Invariant { drive with
      batchCount := setup.batchCount (setup.batchSizeOf kind) drive.opsDone
      pc := kind.opening })
    (unwrapped : drive.opsDone + setup.batchCount (setup.batchSizeOf kind) drive.opsDone ≤ 2 ^ 32) :
    setup.Identified ⟨{ drive with
      batchCount := setup.batchCount (setup.batchSizeOf kind) drive.opsDone
      pc := kind.opening }, commandIds⟩ drive.queue.submitted
        (setup.batchCount (setup.batchSizeOf kind) drive.opsDone) := by
  have progress := identified.invariant.progress
  simp only [Progress, place] at progress
  obtain ⟨counts, counter⟩ := progress
  refine ⟨invariant, identified.ids, fun prepared isPrepare => ?_, fun number before => ?_,
    Nat.le_add_right _ _, counter.ops ▸ unwrapped, invariant.batch, fun _ => ⟨counts.symm, rfl⟩⟩
  · cases kind with
    | single => exact absurd isPrepare (by simp [Kind.opening])
    | wavefront =>
      obtain rfl : [] = prepared := Pc.prepare.inj isPrepare
      simp
  · exact (identified.invariant.disciplined.drained counts.symm).symm.subset
      (List.mem_range.mpr before)

theorem Identified.submits (place : drive.pc = .write b) (inBatch : b < drive.batchCount)
    (invariant : setup.Invariant { drive with queue := drive.queue.submit, pc := .write (b + 1) }) :
    setup.Identified ⟨{ drive with queue := drive.queue.submit, pc := .write (b + 1) },
      update commandIds drive.queue.submitted
        (commandId ((drive.opsDone + b) % 2 ^ 32))⟩ first count := by
  have progress := identified.invariant.progress
  simp only [Progress, place] at progress
  obtain ⟨submitted, -, counter⟩ := progress
  obtain ⟨accepted, batch⟩ := identified.batch (show drive.pc.writing = true by rw [place]; rfl)
  simp only at accepted batch
  refine { identified with
    invariant := invariant
    ids := fun number before => ?_
    prepared := fun _ impossible => absurd impossible (by simp)
    near := ?_
    batch := fun _ => ⟨accepted, batch⟩ }
  · rw [counter.index, ← submitted]
    rcases Nat.lt_succ_iff_lt_or_eq.mp (show number < drive.queue.submitted + 1 from before) with
      old | rfl
    · exact (update_of_ne (Nat.ne_of_lt old) ..).trans (identified.ids number old)
    · exact update_self ..
  · show drive.queue.submitted + 1 ≤ first + count
    omega

theorem Identified.prepares (place : drive.pc = .prepare prepared)
    (invariant : setup.Invariant (setup.worker drive prepared b)) :
    setup.Identified ⟨setup.worker drive prepared b, setup.recordIds drive (.worker b)
      (setup.worker drive prepared b) commandIds⟩ first count := by
  have progress := identified.invariant.progress
  simp only [Progress, place] at progress
  obtain ⟨submitted, -, -, counter⟩ := progress
  have batch := identified.batch (show drive.pc.writing = true by rw [place]; rfl)
  simp only [recordIds, written, place]
  revert invariant
  unfold Setup.worker
  cases failed : drive.shError || !setup.prpValid ((drive.opsDone + b) % 2 ^ 32) b with
  | true =>
    exact fun invariant => { identified with
      invariant := invariant
      prepared := fun _ _ impossible => absurd impossible (by simp)
      batch := fun _ => batch }
  | false =>
    rw [Bool.or_eq_false_iff] at failed
    refine fun invariant => { identified with
      invariant := invariant
      ids := fun number before => ?_
      prepared := fun now isPrepare _ other member => ?_
      batch := fun _ => batch }
    · have below : number < drive.queue.submitted := before
      exact (update_of_ne (by omega) ..).trans (identified.ids number before)
    · obtain rfl : b :: prepared = now := Pc.prepare.inj isPrepare
      show update commandIds (drive.queue.submitted + b) _ (drive.queue.submitted + other) = _
      rw [counter.index, ← submitted]
      rcases eq_or_ne other b with rfl | ne
      · exact update_self ..
      · rw [update_of_ne (fun equal => ne (Nat.add_left_cancel equal))]
        exact identified.prepared prepared place failed.1 other
          ((List.mem_cons.mp member).resolve_left ne)

theorem Identified.publishes (place : drive.pc = .prepare prepared)
    (arrived : ∀ b, b < drive.batchCount → b ∈ prepared) (fine : drive.shError = false)
    (invariant : setup.Invariant { drive with
      queue := (drive.queue.advanceTail drive.batchCount).ringSq
      pc := .poll 0 0 }) :
    setup.Identified ⟨{ drive with
      queue := (drive.queue.advanceTail drive.batchCount).ringSq
      pc := .poll 0 0 }, commandIds⟩ first count := by
  have progress := identified.invariant.progress
  simp only [Progress, place] at progress
  obtain ⟨accepted, batch⟩ := identified.batch (show drive.pc.writing = true by rw [place]; rfl)
  simp only at accepted batch
  refine { identified with
    invariant := invariant
    ids := fun number before => ?_
    prepared := fun _ impossible => absurd impossible (by simp)
    near := ?_
    batch := Bool.false_ne_true.elim }
  · have below : number < drive.queue.submitted + drive.batchCount := before
    rcases Nat.lt_or_ge number drive.queue.submitted with old | new
    · exact identified.ids number old
    · have entry := identified.prepared prepared place fine (number - drive.queue.submitted)
        (arrived _ (by omega))
      rwa [Nat.add_sub_of_le new] at entry
  · show drive.queue.submitted + drive.batchCount ≤ first + count
    omega

/-- A step that writes no entry, and leaves the places where entries are written as they are. -/
theorem Identified.rests (invariant : setup.Invariant next)
    (submitted : next.queue.submitted = drive.queue.submitted)
    (accepted : drive.queue.accepted <+: next.queue.accepted)
    (nothing : setup.written drive label = none)
    (still : next.pc.writing = true → next.pc = drive.pc ∧ next.shError = drive.shError ∧
      next.batchCount = drive.batchCount ∧ next.queue.accepted = drive.queue.accepted) :
    setup.Identified ⟨next, setup.recordIds drive label next commandIds⟩ first count := by
  simp only [recordIds, nothing]
  refine { identified with
    invariant := invariant
    ids := by rw [submitted]; exact identified.ids
    prepared := fun prepared isPrepare => ?_
    old := fun number before => (accepted.map _).subset (identified.old number before)
    near := by rw [submitted]; exact identified.near
    batch := fun writing => ?_ }
  · obtain ⟨place, fine, -, -⟩ := still (by simp only at isPrepare; rw [isPrepare]; rfl)
    rw [submitted, fine]
    exact identified.prepared prepared (place.symm.trans isPrepare)
  · obtain ⟨place, -, batch, same⟩ := still writing
    simp only [batch, same]
    exact identified.batch (place ▸ writing)

end

theorem Identified.step {next : Observed Drive (Nat → Nat)}
    (identified : setup.Identified observed first count)
    (unwrapped : setup.Unwrapped kind observed label)
    (move : setup.identify kind observed label = some next) :
    ∃ first count, setup.Identified next first count := by
  obtain ⟨drive, commandIds⟩ := observed
  obtain ⟨nextDrive, nextIds⟩ := next
  obtain ⟨step, recorded⟩ := observe_eq_some_iff.mp move
  simp only at recorded
  have moved : Move setup kind drive label nextDrive := move_of_step step
  have invariant := identified.invariant.move moved
  subst recorded
  -- The writers change the record; every other move is at a place where nothing is written.
  cases moved with
  | opens place =>
    simp only [recordIds, written, place]
    exact ⟨_, _, identified.opens place invariant (unwrapped rfl place)⟩
  | submits b _ place inBatch valid =>
    simp only [recordIds, written, place, inBatch, valid, and_self, if_true]
    exact ⟨first, count, identified.submits place inBatch invariant⟩
  | prepares prepared b _ place => exact ⟨first, count, identified.prepares place invariant⟩
  | publishes prepared _ place arrived fine =>
    simp only [recordIds, written, place]
    exact ⟨first, count, identified.publishes place arrived fine invariant⟩
  | refuses b _ place _ invalid =>
    exact ⟨first, count, identified.rests invariant rfl (List.prefix_refl _)
      (by simp only [written, place, invalid, and_false, if_false]) (by simp [Pc.writing])⟩
  | rings b _ place whole =>
    exact ⟨first, count, identified.rests invariant rfl (List.prefix_refl _)
      (by simp [written, place, whole]) (by simp [Pc.writing])⟩
  | takes b pollCount place =>
    exact ⟨first, count, identified.rests invariant rfl (List.prefix_append _ _)
      (by simp only [written, place]) (by simp [Pc.writing])⟩
  | leaves _ place | aborts _ _ place | waits _ _ place | closes _ _ _ place
  | polled _ _ _ place =>
    exact ⟨first, count, identified.rests invariant rfl (List.prefix_refl _)
      (by simp only [written, place]) (by simp [Pc.writing])⟩
  | stops _ _ place | fails _ _ place | expires _ _ place =>
    exact ⟨first, count, identified.rests invariant rfl (List.prefix_refl _)
      (by simp only [written, place]) (by cases kind <;> simp [Kind.givenUp, Pc.writing])⟩
  | ends early _ place =>
    refine ⟨first, count, identified.rests invariant ?_ ?_ (by simp only [written, place]) ?_⟩
    · cases early <;> rfl
    · cases early <;> exact List.prefix_refl _
    · cases early with
      | some => exact Bool.false_ne_true.elim
      | none =>
        simp only [Setup.epilogue]
        split_ifs <;> exact Bool.false_ne_true.elim
  | asked =>
    refine ⟨first, count, identified.rests invariant rfl (List.prefix_refl _) ?_
      fun _ => ⟨rfl, rfl, rfl, rfl⟩⟩
    unfold written
    cases drive.pc <;> rfl
  | answers label queue answer =>
    have nothing : setup.written drive (.controller label) = none := by
      unfold written
      cases drive.pc <;> rfl
    rcases QueuePair.controller_cases answer with ⟨-, -, rfl⟩ | ⟨_, _, _, -, -, -, rfl⟩ <;>
      exact ⟨first, count, identified.rests invariant rfl (List.prefix_refl _) nothing
        fun _ => ⟨rfl, rfl, rfl, rfl⟩⟩

structure Idle (drive : Drive) : Prop where
  submitted : drive.queue.submitted = 0
  batchCount : drive.batchCount = 0
  opsDone : drive.opsDone = 0

theorem Idle.step (idle : Idle drive) (small : setup.params.queueSize = 1)
    (move : setup.driveEndpointOf kind drive label = some next) : Idle next := by
  obtain ⟨submitted, batchCount, opsDone⟩ := idle
  have counted : (drive.opsDone + drive.batchCount) % 2 ^ 32 = 0 := by
    rw [opsDone, batchCount]
    rfl
  cases move_of_step move with
  | opens place wanted =>
    have counter : setup.Counter drive.opsDone 0 0 :=
      ⟨opsDone, fun _ => by rw [opsDone]; exact Nat.zero_le _,
        fun _ _ => ⟨opsDone, by rw [opsDone]; exact Nat.zero_le _⟩⟩
    exact ⟨submitted, Nat.lt_one_iff.mp (small ▸ (counter.opens (batchSizeOf_le kind)).1), opsDone⟩
  | submits b _ _ inBatch => exact absurd (batchCount ▸ inBatch) (Nat.not_lt_zero b)
  | prepares prepared b _ _ inBatch => exact absurd (batchCount ▸ inBatch) (Nat.not_lt_zero b)
  | publishes =>
    refine ⟨?_, batchCount, opsDone⟩
    show drive.queue.submitted + drive.batchCount = 0
    rw [submitted, batchCount]
  | closes => exact ⟨submitted, batchCount, counted⟩
  | ends early => cases early <;> exact ⟨submitted, batchCount, counted⟩
  | answers label queue answer =>
    rcases QueuePair.controller_cases answer with ⟨-, -, rfl⟩ | ⟨_, _, _, -, -, -, rfl⟩ <;>
      exact ⟨submitted, batchCount, opsDone⟩
  | leaves | refuses | rings | aborts | stops | takes | fails | expires | waits | polled | asked =>
    exact ⟨submitted, batchCount, opsDone⟩

/-- If no batch runs over the wrap of the operation counter, the commands outstanding at one time
have different identifiers, none of them zero. -/
theorem commandIds_distinguished (setup : Setup) (kind : Kind) {labels : List DriveLabel}
    {observed : Observed Drive (Nat → Nat)}
    (unwrapped : EveryStep (setup.identify kind) (setup.Unwrapped kind) setup.identifyStart labels)
    (reaches : run (setup.identify kind) setup.identifyStart labels = some observed) :
    Distinguished observed := by
  rcases Nat.lt_or_ge setup.params.queueSize 2 with small | size
  · have one : setup.params.queueSize = 1 := by
      have positive := setup.params.queueSize_pos
      omega
    have idle : Idle observed.state :=
      run_invariant (motive := Idle) (fun _ _ _ idle => idle.step one) ⟨rfl, rfl, rfl⟩
        (run_of_observe reaches)
    have none : ∀ number, ¬ observed.state.queue.Outstanding number := fun number outstanding =>
      absurd (idle.submitted ▸ outstanding.1) (Nat.not_lt_zero number)
    exact ⟨fun number outstanding => absurd outstanding (none number),
      fun number _ outstanding => absurd outstanding (none number)⟩
  · obtain ⟨first, count, identified⟩ := run_invariant_of_everyStep
      (motive := fun observed => ∃ first count, setup.Identified observed first count)
      (fun _ _ _ ⟨_, _, identified⟩ guarded move => identified.step guarded move)
      ⟨0, 0, Identified.start size⟩ unwrapped reaches
    exact identified.distinguished

end

/-! ### Runs -/

def firstBatch : List DriveLabel :=
  [.thread, .worker 0, .worker 1, .worker 2, .thread]

theorem commandIds_distinguished_firstBatch :
    ∃ observed, run (endless.identify .wavefront) endless.identifyStart firstBatch =
        some observed ∧
      observed.state.queue.Outstanding 0 ∧ observed.state.queue.Outstanding 2 ∧
      Distinguished observed :=
  ⟨_, rfl, by decide, by decide, commandIds_distinguished endless .wavefront
    (show EveryStep _ _ endless.identifyStart firstBatch by decide) rfl⟩

section

variable {setup : Setup} {drive : Drive}

theorem identify_worker {commandIds : Nat → Nat} {prepared : List Nat} {b : Nat}
    (place : drive.pc = .prepare prepared) (inBatch : b < drive.batchCount)
    (first : prepared.contains b = false) (fine : drive.shError = false)
    (valid : setup.prpValid ((drive.opsDone + b) % 2 ^ 32) b = true) :
    setup.identify .wavefront ⟨drive, commandIds⟩ (.worker b) =
      some ⟨{ drive with
          queue := drive.queue.sqeWrite ((drive.queue.sqTail + b) % drive.queue.queueSize)
            (drive.queue.submitted + b)
          pc := .prepare (b :: prepared) },
        update commandIds (drive.queue.submitted + b)
          (commandId ((drive.opsDone + b) % 2 ^ 32))⟩ := by
  refine observe_eq_some_iff.mpr ⟨?_, ?_⟩
  · simp only [id, driveEndpointOf, driveEndpointWavefront, place, inBatch, first, and_self,
      if_true, worker_of_valid fine valid]
  · simp only [recordIds, written, place, fine, valid, Bool.not_true, Bool.or_self,
      Bool.false_eq_true, if_false]

theorem identify_publish {commandIds : Nat → Nat} {arrived : List Nat}
    (place : drive.pc = .prepare arrived) (fine : drive.shError = false)
    (all : (List.range drive.batchCount).all arrived.contains = true) :
    setup.identify .wavefront ⟨drive, commandIds⟩ .thread =
      some ⟨{ drive with
          queue := (drive.queue.advanceTail drive.batchCount).ringSq
          pc := .poll 0 0 }, commandIds⟩ := by
  refine observe_eq_some_iff.mpr ⟨?_, ?_⟩
  · simp only [id, driveEndpointOf, driveEndpointWavefront, wavefrontThread, place, all, fine,
      if_true, Bool.false_eq_true, if_false]
  · simp only [recordIds, written, place]

/-- After 1431655765 batches the operation counter stands at `2 ^ 32 - 1`. The first two commands of
the next batch are operations `2 ^ 32 - 1` and 0, both with identifier 1. -/
theorem commandIds_repeated : ∃ labels observed,
    run (endless.identify .wavefront) endless.identifyStart labels = some observed ∧
      ¬ Distinguished observed := by
  obtain ⟨labels, drive, reaches, stage, place⟩ := endless_rounds 1431655765
  have ops : drive.opsDone = 4294967295 := stage.opsDone
  have accepted : drive.queue.accepted.length = 4294967295 := stage.accepted
  have submitted : drive.queue.submitted = 4294967295 := by
    have progress := stage.invariant.progress
    simp only [Progress, place] at progress
    exact progress.1.trans accepted
  obtain ⟨commandIds, observed⟩ : ∃ commandIds,
      run (endless.identify .wavefront) endless.identifyStart labels = some ⟨drive, commandIds⟩ :=
    observe_of_run _ (by rw [List.map_id]; exact reaches)
  have opening : endless.identify .wavefront ⟨drive, commandIds⟩ .thread =
      some ⟨{ drive with batchCount := 3, pc := .prepare [] }, commandIds⟩ := by
    refine observe_eq_some_iff.mpr ⟨?_, ?_⟩
    · simp only [id, driveEndpointOf, driveEndpointWavefront, wavefrontThread, place]
      rfl
    · simp only [recordIds, written, place]
  have whole := (run_append_of_run observed).trans ((run_cons_of_step opening).trans
    ((run_cons_of_step (identify_worker rfl (show 2 < 3 by decide) rfl (by exact stage.fine)
      (endless_valid _ 2 (by decide)))).trans
    ((run_cons_of_step (identify_worker rfl (show 1 < 3 by decide) rfl (by exact stage.fine)
      (endless_valid _ 1 (by decide)))).trans
    ((run_cons_of_step (identify_worker rfl (show 0 < 3 by decide) rfl (by exact stage.fine)
      (endless_valid _ 0 (by decide)))).trans
    ((run_cons_of_step (identify_publish rfl (by exact stage.fine) rfl)).trans (run_nil _))))))
  refine ⟨_, _, whole, fun distinguished => ?_⟩
  have outstanding : ∀ number, 4294967295 ≤ number → number < 4294967298 →
      number < drive.queue.submitted + 3 ∧ number ∉ drive.queue.accepted.map Cqe.command := by
    intro number after before
    refine ⟨by omega, fun member => ?_⟩
    have drained := stage.invariant.disciplined.drained (accepted.trans submitted.symm)
    have earlier := List.mem_range.mp (drained.subset member)
    omega
  refine distinguished.different 4294967295 4294967296 (outstanding _ (by decide) (by decide))
    (outstanding _ (by decide) (by decide)) (by decide) ?_
  generalize last : update commandIds (drive.queue.submitted + 2)
    (commandId ((drive.opsDone + 2) % 2 ^ 32)) = afterLast
  show update (update afterLast (drive.queue.submitted + 1)
      (commandId ((drive.opsDone + 1) % 2 ^ 32))) (drive.queue.submitted + 0)
        (commandId ((drive.opsDone + 0) % 2 ^ 32)) 4294967295 =
    update (update afterLast (drive.queue.submitted + 1)
      (commandId ((drive.opsDone + 1) % 2 ^ 32))) (drive.queue.submitted + 0)
        (commandId ((drive.opsDone + 0) % 2 ^ 32)) 4294967296
  rw [submitted, ops, update_self, update_of_ne (by decide), update_self]
  rfl

end

end Setup

end RocmXio.Nvme
