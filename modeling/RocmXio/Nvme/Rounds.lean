/-
Whole batches of a drive.

Against a controller that serves one command after the other, a batch of the wavefront drive goes
through and leaves the queue pair as it was before, one batch further on. An infinite drive
therefore reaches every multiple of its batch size.
-/

import RocmXio.Nvme.DriveDiscipline

namespace RocmXio.Nvme

open Lib

namespace Setup

/-- A drive in the middle of a batch, against a controller that serves one command after the other:
`count` commands belong to earlier batches, and of this one so many are announced, and served and
taken. -/
structure Stage (setup : Setup) (drive : Drive) (count announced served : Nat) : Prop where
  invariant : setup.Invariant drive
  announced : drive.queue.announced = count + announced
  fetched : drive.queue.fetched = count + served
  posted : drive.queue.posted.length = count + served
  accepted : drive.queue.accepted.length = count + served
  released : drive.queue.released = count
  opsDone : drive.opsDone = count % 2 ^ 32
  running : drive.stopFlag = false
  fine : drive.shError = false

/-- Every worker of a batch has valid data words. -/
def Valid (setup : Setup) : Prop :=
  ∀ opIdx b, b < setup.wavefrontBatch → setup.prpValid opIdx b = true

section

variable {setup : Setup} {drive : Drive} {count announced served : Nat}

theorem worker_of_valid {prepared : List Nat} {b : Nat} (fine : drive.shError = false)
    (valid : setup.prpValid ((drive.opsDone + b) % 2 ^ 32) b = true) :
    setup.worker drive prepared b = { drive with
      queue := drive.queue.sqeWrite ((drive.queue.sqTail + b) % drive.queue.queueSize)
        (drive.queue.submitted + b)
      pc := .prepare (b :: prepared) } := by
  simp only [worker, fine, valid, Bool.not_true, Bool.or_self, Bool.false_eq_true, if_false]

theorem Stage.open (stage : setup.Stage drive count 0 0) (place : drive.pc = .top)
    (infinite : setup.params.infiniteMode = true) :
    ∃ next, setup.driveEndpointOf .wavefront drive .thread = some next ∧
      setup.Stage next count 0 0 ∧ next.pc = .prepare [] ∧
      next.batchCount = setup.wavefrontBatch := by
  have step : setup.driveEndpointOf .wavefront drive .thread =
      some { drive with batchCount := setup.wavefrontBatch, pc := .prepare [] } := by
    simp [driveEndpointOf, driveEndpointWavefront, wavefrontThread, place, Setup.batchCount,
      infinite]
  exact ⟨_, step, { stage with invariant := stage.invariant.move (move_of_step step) },
    rfl, rfl⟩

theorem Stage.prepare {prepared : List Nat} {b : Nat} (stage : setup.Stage drive count 0 0)
    (place : drive.pc = .prepare prepared) (inBatch : b < drive.batchCount)
    (first : prepared.contains b = false)
    (valid : setup.prpValid ((drive.opsDone + b) % 2 ^ 32) b = true) :
    ∃ next, setup.driveEndpointOf .wavefront drive (.worker b) = some next ∧
      setup.Stage next count 0 0 ∧ next.pc = .prepare (b :: prepared) ∧
      next.batchCount = drive.batchCount := by
  have step : setup.driveEndpointOf .wavefront drive (.worker b) =
      some (setup.worker drive prepared b) := by
    simp only [driveEndpointOf, driveEndpointWavefront, place, inBatch, first, and_self, if_true]
  rw [worker_of_valid stage.fine valid] at step
  exact ⟨_, step, { stage with invariant := stage.invariant.move (move_of_step step) },
    rfl, rfl⟩

/-- The workers write in the order of their numbers. -/
theorem Stage.prepareAll {prepared : List Nat} {written : Nat} (rest : Nat)
    (stage : setup.Stage drive count 0 0) (place : drive.pc = .prepare prepared)
    (members : ∀ b, b ∈ prepared ↔ b < written) (batch : written + rest = drive.batchCount)
    (whole : drive.batchCount = setup.wavefrontBatch) (valid : setup.Valid) :
    ∃ labels next arrived, run (setup.driveEndpointOf .wavefront) drive labels = some next ∧
      setup.Stage next count 0 0 ∧ next.pc = .prepare arrived ∧
      (∀ b, b ∈ arrived ↔ b < drive.batchCount) ∧ next.batchCount = drive.batchCount := by
  induction rest generalizing drive prepared written with
  | zero =>
    subst batch
    exact ⟨[], drive, prepared, rfl, stage, place, members, rfl⟩
  | succ rest inductionHypothesis =>
    have first : prepared.contains written = false := by
      simpa using fun member => Nat.lt_irrefl _ ((members written).mp member)
    obtain ⟨middle, write, middleStage, middlePlace, same⟩ :=
      stage.prepare place (by omega) first (valid _ _ (by omega))
    have grown : ∀ b, b ∈ written :: prepared ↔ b < written + 1 := by
      intro b
      rw [List.mem_cons, members]
      omega
    obtain ⟨labels, next, arrived, reaches, nextStage, nextPlace, all, nextSame⟩ :=
      inductionHypothesis middleStage middlePlace grown (by omega) (same.trans whole)
    rw [same] at all nextSame
    exact ⟨.worker written :: labels, next, arrived, (run_cons_of_step write).trans reaches,
      nextStage, nextPlace, all, nextSame⟩

theorem Stage.publish {arrived : List Nat} (stage : setup.Stage drive count 0 0)
    (place : drive.pc = .prepare arrived) (all : ∀ b, b ∈ arrived ↔ b < drive.batchCount) :
    ∃ next, setup.driveEndpointOf .wavefront drive .thread = some next ∧
      setup.Stage next count drive.batchCount 0 ∧ next.pc = .poll 0 0 ∧
      next.batchCount = drive.batchCount ∧
      next.queue.submitted = drive.queue.submitted + drive.batchCount ∧
      next.queue.accepted = drive.queue.accepted := by
  have step : setup.driveEndpointOf .wavefront drive .thread = some { drive with
      queue := (drive.queue.advanceTail drive.batchCount).ringSq
      pc := .poll 0 0 } := by
    simp [driveEndpointOf, driveEndpointWavefront, wavefrontThread, place, all, stage.fine]
  have invariant := stage.invariant.move (move_of_step step)
  refine ⟨_, step, { stage with invariant := invariant, announced := ?_ }, rfl, rfl, rfl, rfl⟩
  have counts := stage.invariant.progress
  simp only [Progress, place] at counts
  show (drive.queue.advanceTail drive.batchCount).ringSq.announced = count + drive.batchCount
  rw [(stage.invariant.disciplined.toCoherent.advanceTail _).ringSq_announced]
  show drive.queue.announced +
    (drive.queue.submitted + drive.batchCount - drive.queue.announced) % drive.queue.queueSize = _
  rw [counts.1, stage.accepted, stage.announced, stage.invariant.size, Nat.add_zero,
    Nat.add_sub_cancel_left, Nat.mod_eq_of_lt stage.invariant.batch]

/-- The controller fetches the next command and completes it, and the leader takes the
completion. -/
theorem Stage.serve (stage : setup.Stage drive count announced served)
    (place : drive.pc = .poll served 0) (inBatch : served < drive.batchCount)
    (more : served < announced) :
    ∃ next, run (setup.driveEndpointOf .wavefront) drive
        [.controller .fetch, .controller (.post 0 0), .thread] = some next ∧
      setup.Stage next count announced (served + 1) ∧ next.pc = .poll (served + 1) 0 ∧
      next.batchCount = drive.batchCount := by
  have short := stage.invariant.batch
  obtain ⟨fetch, post, -, ready, success⟩ := stage.invariant.disciplined.serve
    (stage.fetched.trans stage.posted.symm) (stage.accepted.trans stage.posted.symm)
    (by rw [stage.fetched, stage.announced]; omega)
    (by rw [stage.posted, stage.released, stage.invariant.size]; omega)
  have fetches : setup.driveEndpointOf .wavefront drive (.controller .fetch) =
      some { drive with queue := drive.queue.fetchOne } := by
    simp only [driveEndpointOf, driveEndpointWavefront, environment, fetch]
  have posts : setup.driveEndpointOf .wavefront { drive with queue := drive.queue.fetchOne }
      (.controller (.post 0 0)) =
        some { drive with queue := drive.queue.fetchOne.postOne 0 drive.queue.fetched 0 } := by
    simp only [driveEndpointOf, driveEndpointWavefront, environment, post]
  have takes : setup.driveEndpointOf .wavefront
      { drive with queue := drive.queue.fetchOne.postOne 0 drive.queue.fetched 0 } .thread =
        some { drive with
          queue := (drive.queue.fetchOne.postOne 0 drive.queue.fetched 0).consume
          pc := .poll (served + 1) 0 } := by
    have head : (drive.queue.fetchOne.postOne 0 drive.queue.fetched 0).cqHead =
      drive.queue.cqHead := rfl
    simp [driveEndpointOf, driveEndpointWavefront, wavefrontThread, place, inBatch, ready, head,
      success]
  have invariant := ((stage.invariant.move (move_of_step fetches)).move
    (move_of_step posts)).move (move_of_step takes)
  refine ⟨_, (run_cons_of_step fetches).trans ((run_cons_of_step posts).trans
    ((run_cons_of_step takes).trans (run_nil _))), { stage with
      invariant := invariant
      fetched := congrArg (· + 1) stage.fetched
      posted := ?_
      accepted := ?_ }, rfl, rfl⟩
  · show (drive.queue.posted ++ [_]).length = count + (served + 1)
    rw [List.length_append, stage.posted]
    rfl
  · show (drive.queue.accepted ++ [_]).length = count + (served + 1)
    rw [List.length_append, stage.accepted]
    rfl

theorem Stage.serveAll (rest : Nat) (stage : setup.Stage drive count announced served)
    (place : drive.pc = .poll served 0) (batch : served + rest = drive.batchCount)
    (all : announced = drive.batchCount) :
    ∃ labels next, run (setup.driveEndpointOf .wavefront) drive labels = some next ∧
      setup.Stage next count announced drive.batchCount ∧
      next.pc = .poll drive.batchCount 0 ∧ next.batchCount = drive.batchCount := by
  induction rest generalizing drive served with
  | zero =>
    subst batch
    exact ⟨[], drive, rfl, stage, place, rfl⟩
  | succ rest inductionHypothesis =>
    obtain ⟨middle, serves, middleStage, middlePlace, same⟩ :=
      stage.serve place (by omega) (by omega)
    obtain ⟨labels, next, reaches, nextStage, nextPlace, nextSame⟩ :=
      inductionHypothesis middleStage middlePlace (by omega) (all.trans same.symm)
    rw [same] at nextStage nextPlace nextSame
    exact ⟨_, next, (run_append_of_run serves).trans reaches, nextStage, nextPlace, nextSame⟩

theorem Stage.close (stage : setup.Stage drive count drive.batchCount drive.batchCount)
    (place : drive.pc = .poll drive.batchCount 0) (infinite : setup.params.infiniteMode = true) :
    ∃ next, run (setup.driveEndpointOf .wavefront) drive [.thread, .thread] = some next ∧
      setup.Stage next (count + drive.batchCount) 0 0 ∧ next.pc = .top := by
  have polled : setup.driveEndpointOf .wavefront drive .thread =
      some { drive with pc := .epilogue none } := by
    simp [driveEndpointOf, driveEndpointWavefront, wavefrontThread, place]
  have ends : setup.driveEndpointOf .wavefront { drive with pc := .epilogue none } .thread =
      some { drive with
        queue := drive.queue.ringCq
        opsDone := (drive.opsDone + drive.batchCount) % 2 ^ 32
        pc := .top } := by
    simp [driveEndpointOf, driveEndpointWavefront, wavefrontThread, Setup.epilogue, infinite,
      stopSeen, stage.running]
  have invariant := (stage.invariant.move (move_of_step polled)).move
    (move_of_step ends)
  refine ⟨_, (run_cons_of_step polled).trans ((run_cons_of_step ends).trans (run_nil _)),
    { stage with invariant := invariant, released := ?_, opsDone := ?_ }, rfl⟩
  · show drive.queue.ringCq.released = count + drive.batchCount
    rw [stage.invariant.disciplined.toCoherent.ringCq_released, stage.accepted, stage.released,
      stage.invariant.size, Nat.add_sub_cancel_left, Nat.mod_eq_of_lt stage.invariant.batch]
  · show (drive.opsDone + drive.batchCount) % 2 ^ 32 = (count + drive.batchCount) % 2 ^ 32
    rw [stage.opsDone, Nat.mod_add_mod]

theorem Stage.round (stage : setup.Stage drive count 0 0) (place : drive.pc = .top)
    (infinite : setup.params.infiniteMode = true) (valid : setup.Valid) :
    ∃ labels next, run (setup.driveEndpointOf .wavefront) drive labels = some next ∧
      setup.Stage next (count + setup.wavefrontBatch) 0 0 ∧ next.pc = .top := by
  obtain ⟨opened, opening, openStage, openPlace, batch⟩ := stage.open place infinite
  obtain ⟨writes, full, arrived, writing, fullStage, fullPlace, all, fullBatch⟩ :=
    openStage.prepareAll opened.batchCount openPlace (by simp) (Nat.zero_add _) batch valid
  rw [← fullBatch] at all
  obtain ⟨rung, ringing, rungStage, rungPlace, rungBatch, -, -⟩ :=
    fullStage.publish fullPlace all
  rw [← rungBatch] at rungStage
  obtain ⟨serves, taken, serving, takenStage, takenPlace, takenBatch⟩ :=
    rungStage.serveAll rung.batchCount rungPlace (Nat.zero_add _) rfl
  rw [← takenBatch] at takenStage takenPlace
  obtain ⟨next, closing, nextStage, nextPlace⟩ := takenStage.close takenPlace infinite
  rw [takenBatch, rungBatch, fullBatch, batch] at nextStage
  exact ⟨_, next, (run_cons_of_step opening).trans ((run_append_of_run writing).trans
    ((run_cons_of_step ringing).trans ((run_append_of_run serving).trans closing))), nextStage,
    nextPlace⟩

end

/-! ### An endless drive -/

/-- Reads without end, three at a time in a queue of four entries. -/
def endlessParams : IoParams :=
  { oneReadParams with batchSize := 3, infiniteMode := true }

def endless : Setup where
  params := endlessParams
  buffers := ⟨1536, repeatedPage 1536, repeatedPage 1536, fun _ => 0, fun _ _ => rfl⟩
  timingStats := false
  stopRequested := false

/-- Every operation of an endless drive is a read, and the buffer has three slots. -/
theorem endless_valid : endless.Valid := by
  intro opIdx b below
  have slots : ∀ slot, slot < 3 → endless.prpValid 0 slot = true := by decide
  exact slots b below

theorem endless_rounds (rounds : Nat) : ∃ labels drive,
    run (endless.driveEndpointOf .wavefront) endless.start labels = some drive ∧
      endless.Stage drive (rounds * 3) 0 0 ∧ drive.pc = .top := by
  induction rounds with
  | zero =>
    exact ⟨[], endless.start, rfl, ⟨start_invariant (by decide), rfl, rfl, rfl, rfl, rfl, rfl, rfl,
      rfl⟩, rfl⟩
  | succ rounds inductionHypothesis =>
    obtain ⟨labels, drive, reaches, stage, place⟩ := inductionHypothesis
    obtain ⟨more, next, round, nextStage, nextPlace⟩ :=
      stage.round place rfl endless_valid
    refine ⟨labels ++ more, next, (run_append_of_run reaches).trans round, ?_, nextPlace⟩
    rw [Nat.succ_mul]
    exact nextStage

end Setup

end RocmXio.Nvme
