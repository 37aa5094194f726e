/-
The work ring protocol between the fio engine and the persistent kernel.

Operations come back in the order in which they were queued, each once and only after the kernel
finished it. That a finished operation can be reaped, and that no work item is overwritten before
that, holds for fewer than `2 ^ 32` operations. When the producer index wraps, `rxio_reap` reports
for ever that nothing is outstanding.
-/

import RocmXio.Fio.Slots

namespace RocmXio.Fio

open Lib Nvme Function

namespace Engine

/-- `io_u`s are handed to fio in the order in which they were queued, each once and not before the
kernel finished the operation; a finished operation can be reaped; and its work item stays in its
place, with only the sequence word changing, until then. -/
structure RingProtocol (engine : Engine) : Prop where
  inOrder : engine.returned <+: engine.queued.map Prod.fst
  afterCompletion : engine.returned.length ≤ engine.completed.length
  sameOperation : engine.completed <+: engine.queued.map Prod.snd
  reapable : engine.returned.length < engine.completed.length → engine.rxioReap.isSome
  intact : ∀ operation entry, engine.queued[operation]? = some entry →
    engine.returned.length ≤ operation → engine.workRing (engine.position operation) =
        if operation < engine.completed.length then
          { entry.2 with seq := doneSeq operation }
        else entry.2

/-- An operation is accepted only while fewer than `2 ^ 32 - 1` have been accepted. -/
def BelowWrap (engine : Engine) : Label → Prop
  | .queue ioU => (engine.fioQueue ioU).1 = .queued → engine.queued.length + 1 < wordRange
  | _ => True

instance BelowWrap.decidable (engine : Engine) : ∀ label, Decidable (engine.BelowWrap label)
  | .queue ioU => inferInstanceAs (Decidable ((engine.fioQueue ioU).1 = .queued → _))
  | .getevents _ _ | .cpu _ | .gpu | .controller _ | .stop => inferInstanceAs (Decidable True)

/-! ### Below the wrap -/

/-- The indices have not wrapped, and a finished operation that is not reaped is in its place with
the sequence word of one. -/
structure Unwrapped (engine : Engine) : Prop where
  bounded : engine.queued.length < wordRange
  finished : ∀ operation entry, engine.queued[operation]? = some entry →
    engine.reaped.length ≤ operation → operation < engine.completed.length →
      engine.workRing (engine.position operation) = { entry.2 with seq := doneSeq operation }

section

variable {engine : Engine}

theorem Unwrapped.position_eq (unwrapped : engine.Unwrapped) {operation : Nat}
    (inQueue : operation ≤ engine.queued.length) :
    engine.position operation = operation % engine.job.cappedIodepth := by
  have bounded := unwrapped.bounded
  rw [position, Nat.mod_eq_of_lt (show operation < wordRange by omega)]

theorem Unwrapped.position_ne (unwrapped : engine.Unwrapped) {first second : Nat}
    (ordered : first < second) (near : second < first + engine.job.cappedIodepth)
    (inQueue : second ≤ engine.queued.length) :
    engine.position first ≠ engine.position second := by
  rw [unwrapped.position_eq (by omega), unwrapped.position_eq inQueue]
  intro samePlace
  have same := eq_of_mod_eq_of_window samePlace (by omega) near
  omega

variable {item : WorkItem}

section

variable (unwrapped : engine.Unwrapped)
include unwrapped

theorem Unwrapped.post (invariant : engine.Invariant) {ioU : IoU}
    (room : engine.ringCount < engine.job.cappedIodepth)
    (bound : engine.queued.length + 1 < wordRange) :
    (engine.recordPost ioU item).Unwrapped := by
  have count := invariant.count
  have completed := invariant.completed_le
  have place : engine.prodIdx % engine.job.cappedIodepth =
      engine.position engine.queued.length := by rw [position, invariant.prod]
  rw [recordPost, place]
  refine ⟨by simpa using bound, fun operation entry found
    (unreaped : engine.reaped.length ≤ operation)
    (done : operation < engine.completed.length) => ?_⟩
  have old : engine.queued[operation]? = some entry := by
    rw [← found]
    exact (List.getElem?_append_left (by omega)).symm
  have apart := unwrapped.position_ne (show operation < engine.queued.length by omega)
    (by omega) (le_refl _)
  show update engine.workRing _ item (engine.position operation) = _
  rw [update_of_ne apart]
  exact unwrapped.finished operation entry old unreaped done

theorem Unwrapped.reap (invariant : engine.Invariant) (ioU : IoU) (returned : List IoU)
    (cpu : Cpu) :
    (engine.recordReap [ioU] returned cpu).Unwrapped := by
  have count := invariant.count
  have depth := invariant.depth
  have completed := invariant.completed_le
  refine ⟨unwrapped.bounded, fun operation entry found unreaped
    (done : operation < engine.completed.length) => ?_⟩
  simp only [recordReap, List.length_append, List.length_singleton] at unreaped
  have place : engine.consIdx % engine.job.cappedIodepth =
      engine.position engine.reaped.length := by
    rw [invariant.cons, unwrapped.position_eq (by omega)]
  have apart := unwrapped.position_ne unreaped (by omega) (by omega)
  show update engine.workRing _ _ (engine.position operation) = _
  rw [place, update_of_ne apart.symm]
  exact unwrapped.finished operation entry found (Nat.le_of_succ_le unreaped) done

theorem Unwrapped.complete (invariant : engine.Invariant) {pollCount : Nat}
    (polling : engine.gpu = .poll item pollCount) :
    (engine.completeItem item).Unwrapped := by
  have count := invariant.count
  have depth := invariant.depth
  obtain ⟨ioU, current⟩ := invariant.polling item pollCount polling
  obtain ⟨inQueue, -⟩ := List.getElem?_eq_some_iff.mp current
  have bounded := unwrapped.bounded
  have place : engine.index % engine.job.cappedIodepth =
      engine.position engine.completed.length := by rw [position, invariant.kernel]
  refine ⟨bounded, fun operation entry found (unreaped : engine.reaped.length ≤ operation)
    done => ?_⟩
  simp only [completeItem, List.length_append, List.length_singleton] at done
  show update engine.workRing (engine.index % engine.job.cappedIodepth) _
    (engine.position operation) = _
  rw [place]
  by_cases latest : operation = engine.completed.length
  · subst latest
    have same : entry = (ioU, item) := Option.some.inj (found.symm.trans current)
    rw [update_self, invariant.pending _ _ current (le_refl _), same, invariant.kernel,
      Nat.mod_eq_of_lt (show engine.completed.length < wordRange by omega)]
  · have apart := unwrapped.position_ne (show operation < engine.completed.length by omega)
      (by omega) (by omega)
    rw [update_of_ne apart]
    exact unwrapped.finished operation entry found unreaped (by omega)

theorem Unwrapped.step {next : Engine} {label : Label} (invariant : engine.Invariant)
    (guard : engine.BelowWrap label) (move : engine.step label = some next) : next.Unwrapped := by
  cases step_transition move with
  | post ioU item outside accepted room free slot seq =>
    exact unwrapped.post invariant room (guard accepted)
  | reap expired min max found ioU handed draining more done oldest outstanding space =>
    obtain ⟨taken, present, -⟩ := invariant.reap more done
    rw [oldest] at present
    subst present
    exact unwrapped.reap invariant taken _ _
  | complete item pollCount polling => exact unwrapped.complete invariant polling
  | _ => exact ⟨unwrapped.bounded, unwrapped.finished⟩

theorem Unwrapped.reapable (invariant : engine.Invariant)
    (finished : engine.reaped.length < engine.completed.length) : engine.rxioReap.isSome := by
  have completed := invariant.completed_le
  have bounded := unwrapped.bounded
  have oldest := List.getElem?_eq_getElem
    (show engine.reaped.length < engine.queued.length by omega)
  have done : (engine.workRing (engine.consIdx % engine.job.cappedIodepth)).seq =
      doneSeq engine.consIdx := by
    rw [invariant.cons, ← unwrapped.position_eq (by omega),
      unwrapped.finished _ _ oldest (le_refl _) finished]
  have more : ¬ engine.consIdx ≥ engine.prodIdx := by
    rw [invariant.cons, invariant.prod, Nat.mod_eq_of_lt bounded]
    omega
  simp [rxioReap, more, done]

end

end

/-! ### Handing over -/

variable {job : Job}

theorem cappedIodepth_eq (least : 1 ≤ job.iodepth) (most : job.iodepth ≤ 63) :
    job.cappedIodepth = job.iodepth ∧ (job.cappedIodepth : Int) < job.eventCap := by
  have small : asInt job.iodepth = job.iodepth := by
    rw [asInt, wordRange_eq, Nat.mod_eq_of_lt (by omega), if_pos (by omega)]
  have cap : asInt (job.iodepth + 16) = (job.iodepth + 16 : Nat) := by
    rw [asInt, wordRange_eq, Nat.mod_eq_of_lt (by omega), if_pos (by omega)]
  have capped : job.cappedIodepth = job.iodepth := by
    rw [Job.cappedIodepth, small, if_neg (by omega), if_neg (by rw [rxioRing_eq]; omega)]
    exact Int.toNat_natCast _
  refine ⟨capped, ?_⟩
  rw [capped, Job.eventCap, cap]
  omega

variable {engine : Engine}

/-- With an iodepth in range the event array has room for every reaped `io_u`. -/
theorem returned_eq_reaped (least : 1 ≤ job.iodepth) (most : job.iodepth ≤ 63) {labels : List Label}
    (reaches : run step (openFile job) labels = some engine) :
    engine.returned = engine.reaped := by
  refine (run_invariant (motive := fun engine => engine.Invariant ∧ engine.job = job ∧
    engine.returned = engine.reaped) (fun engine label next kept move => ?_)
    ⟨openFile_invariant job, rfl, rfl⟩ reaches).2.2
  obtain ⟨invariant, sameJob, same⟩ := kept
  refine ⟨invariant.step move, ?_⟩
  cases step_transition move with
  | reap expired min max found ioU handed draining more done oldest outstanding space =>
    obtain ⟨taken, present, -⟩ := invariant.reap more done
    rw [oldest] at present
    subst present
    have room := (invariant.draining min max found (Or.inl draining)).2
    have cap := (cappedIodepth_eq least most).2
    rw [← sameJob] at cap
    have given : handed = true := space.mpr ⟨by omega, by simp⟩
    refine ⟨sameJob, ?_⟩
    rw [given, same]
    rfl
  | _ => exact ⟨sameJob, same⟩

/-- In every run that accepts fewer than `2 ^ 32` operations the protocol keeps its promises,
for every iodepth that fits the `io_u` ring. -/
theorem fio_work_ring_protocol (job : Job) (least : 1 ≤ job.iodepth) (most : job.iodepth ≤ 63)
    (labels : List Label) (engine : Engine)
    (reaches : run step (openFile job) labels = some engine)
    (guarded : EveryStep step BelowWrap (openFile job) labels) : engine.RingProtocol := by
  have invariant := run_engine_invariant reaches
  have handed := returned_eq_reaped least most reaches
  have unwrapped := (run_invariant_of_everyStep
    (motive := fun engine => engine.Invariant ∧ engine.Unwrapped)
    (fun _ _ _ kept guard move => ⟨kept.1.step move, kept.2.step kept.1 guard move⟩)
    ⟨openFile_invariant job, show 0 < wordRange by decide,
      by simp [openFile]⟩ guarded reaches).2
  refine ⟨handed ▸ invariant.reaped_prefix, handed ▸ invariant.reaped_le,
    invariant.completed_prefix, fun finished => unwrapped.reapable invariant (handed ▸ finished),
    fun operation entry found unreaped => ?_⟩
  rw [handed] at unreaped
  split
  case isTrue done => exact unwrapped.finished operation entry found unreaped done
  case isFalse pending => exact invariant.pending operation entry found (Nat.le_of_not_lt pending)

theorem fio_work_ring_protocol_twoRounds :
    ∃ engine, run step (openFile shallowJob) (oneRound 0 ++ oneRound 1) = some engine ∧
      engine.returned.map IoU.tag = [0, 1] ∧ engine.RingProtocol :=
  ⟨_, rfl, rfl, fio_work_ring_protocol shallowJob (by decide) (by decide)
    (oneRound 0 ++ oneRound 1) _ rfl (by decide)⟩

/-! ### At the wrap -/

/-- The queue pair between two commands: `count` commands have gone all the way. -/
structure QueueRested (queue : QueuePair) (count : Nat) : Prop where
  disciplined : queue.Disciplined
  size : queue.queueSize = 64
  submitted : queue.submitted = count
  announced : queue.announced = count
  fetched : queue.fetched = count
  posted : queue.posted.length = count
  accepted : queue.accepted.length = count
  released : queue.released = count

variable {count : Nat}

/-- One command goes through a rested queue pair, and its completion is ready to be taken. -/
theorem QueueRested.round {queue : QueuePair} (rested : QueueRested queue count) :
    ∃ fetched posted, queue.submit.ringSq.controller .fetch = some fetched ∧
      fetched.controller (.post 0 0) = some posted ∧ posted.cqeReady = true ∧
      QueueRested posted.consume.ringCq (count + 1) := by
  have room : queue.submitted + 1 < queue.accepted.length + queue.queueSize := by
    rw [rested.submitted, rested.accepted, rested.size]
    omega
  have submitted := rested.disciplined.submit room
  have announced : queue.submit.ringSq.announced = count + 1 :=
    submitted.ringSq_announced.trans (congrArg (· + 1) rested.submitted)
  have idle : queue.fetched = queue.posted.length := rested.fetched.trans rested.posted.symm
  have taken : queue.accepted.length = queue.posted.length :=
    rested.accepted.trans rested.posted.symm
  have more : queue.submit.ringSq.fetched < queue.submit.ringSq.announced := by
    rw [announced]
    show queue.fetched < count + 1
    rw [rested.fetched]
    exact Nat.lt_succ_self _
  have slot : queue.posted.length < queue.released + queue.queueSize := by
    rw [rested.posted, rested.released, rested.size]
    omega
  obtain ⟨fetch, post, posted, ready, -⟩ := submitted.ringSq.serve idle taken more slot
  have consumed := posted.consume ready
  have accepted : (queue.submit.ringSq.fetchOne.postOne 0 queue.submit.ringSq.fetched
      0).consume.accepted.length = count + 1 := by
    show (queue.accepted ++ [_]).length = count + 1
    rw [List.length_append, rested.accepted]
    rfl
  refine ⟨_, _, fetch, post, ready, consumed.ringCq, rested.size,
    congrArg (· + 1) rested.submitted, announced, congrArg (· + 1) rested.fetched, ?_,
    accepted, ?_⟩
  · show (queue.posted ++ [_]).length = count + 1
    rw [List.length_append, rested.posted]
    rfl
  · rw [consumed.toCoherent.ringCq_released, accepted]
    show queue.released + (count + 1 - queue.released) % queue.queueSize = count + 1
    rw [rested.released, rested.size, Nat.add_sub_cancel_left]

/-- The engine of `shallowJob` after `count` whole rounds. -/
structure Rested (engine : Engine) (count : Nat) : Prop where
  invariant : engine.Invariant
  queue : QueueRested engine.queue count
  job : engine.job = shallowJob
  cpu : engine.cpu = .outside
  gpu : engine.gpu = .top
  running : engine.stopFlag = false
  queued : engine.queued.length = count
  completed : engine.completed.length = count
  reaped : engine.reaped.length = count
  returned : engine.returned.length = count
  free : (engine.workRing 0).seq = 0

/-- The engine of `shallowJob` when the kernel has finished one more operation than the CPU
has reaped. -/
structure Finished (engine : Engine) (count : Nat) : Prop where
  invariant : engine.Invariant
  queue : QueueRested engine.queue (count + 1)
  job : engine.job = shallowJob
  cpu : engine.cpu = .outside
  gpu : engine.gpu = .top
  running : engine.stopFlag = false
  queued : engine.queued.length = count + 1
  completed : engine.completed.length = count + 1
  reaped : engine.reaped.length = count
  returned : engine.returned.length = count
  done : (engine.workRing 0).seq = doneSeq (count % wordRange)

theorem openFile_rested : Rested (openFile shallowJob) 0 where
  invariant := openFile_invariant shallowJob
  queue := ⟨QueuePair.create_disciplined (by decide), rfl, rfl, rfl, rfl, rfl, rfl, rfl⟩
  job := rfl
  cpu := rfl
  gpu := rfl
  running := rfl
  queued := rfl
  completed := rfl
  reaped := rfl
  returned := rfl
  free := rfl

/-- With a posted item in front of it and a rested queue pair, the kernel takes the item and
finishes it. -/
theorem kernel_round (engine : Engine) (queue : QueueRested engine.queue count)
    (top : engine.gpu = .top) (running : engine.stopFlag = false)
    (posted : (engine.workRing (engine.index % engine.job.cappedIodepth)).seq =
      workSeq engine.index) :
    ∃ pair item, QueueRested pair.consume.ringCq (count + 1) ∧
      run step engine [.gpu, .gpu, .controller .fetch, .controller (.post 0 0), .gpu] =
        some ({ engine with queue := pair, gpu := .poll item 0 }.completeItem item) := by
  obtain ⟨fetched, pair, fetch, post, ready, next⟩ := queue.round
  refine ⟨pair, engine.workRing (engine.index % engine.job.cappedIodepth), next, ?_⟩
  simp [run_cons, step, gpuStep, top, running, posted, takeItem, fetch, post, ready]

theorem Rested.finish (rested : engine.Rested count) :
    ∃ next, run step engine [.queue ⟨0, .read, 0, 4096⟩, .gpu, .gpu, .controller .fetch,
      .controller (.post 0 0), .gpu] = some next ∧ next.Finished count := by
  have depth : engine.job.cappedIodepth = 1 := by rw [rested.job]; rfl
  have idle : engine.ringCount = 0 := by
    have add := rested.invariant.count
    rw [rested.queued, rested.reaped] at add
    omega
  have index : engine.index = engine.prodIdx := by
    rw [rested.invariant.kernel, rested.invariant.prod, rested.completed, rested.queued]
  have accepted := queueTransfer_eq engine ⟨0, .read, 0, 4096⟩ (by rw [rested.job]; decide)
    (by rw [idle, depth]; decide) (by rw [depth, Nat.mod_one]; exact rested.free)
  generalize itemEq : engine.transferItem ⟨0, .read, 0, 4096⟩ = item at accepted
  have seq : item.seq = workSeq engine.prodIdx := by rw [← itemEq]; rfl
  have first : engine.step (.queue ⟨0, .read, 0, 4096⟩) =
      some (engine.recordPost ⟨0, .read, 0, 4096⟩ item) := by
    simp only [step, rested.cpu, fioQueue, accepted]
  have place : (engine.recordPost ⟨0, .read, 0, 4096⟩ item).workRing 0 = item := by
    simp [recordPost, depth, Nat.mod_one]
  have posted : ((engine.recordPost ⟨0, .read, 0, 4096⟩ item).workRing
      (engine.index % engine.job.cappedIodepth)).seq = workSeq engine.index := by
    rw [depth, Nat.mod_one, place, seq, index]
  obtain ⟨pair, taken, queue, round⟩ := kernel_round (engine.recordPost ⟨0, .read, 0, 4096⟩ item)
    rested.queue rested.gpu rested.running posted
  have whole := (run_cons_of_step first).trans round
  refine ⟨_, whole, ?_⟩
  have invariant := run_invariant (fun _ _ _ => Invariant.step) rested.invariant whole
  refine ⟨invariant, queue, rested.job, rested.cpu, rfl, rested.running, ?_, ?_, rested.reaped,
    rested.returned, ?_⟩
  · simp [completeItem, recordPost, rested.queued]
  · simp [completeItem, recordPost, rested.completed]
  · simp [completeItem, recordPost, depth, Nat.mod_one, rested.invariant.kernel, rested.completed]

/-- As long as the producer index has not wrapped, `getevents` hands the operation to fio and clears
its sequence word. -/
theorem Finished.reap (finished : engine.Finished count) (bound : count + 1 < wordRange) :
    ∃ next, run step engine [.getevents 1 1, .cpu false, .cpu false, .cpu false] = some next ∧
      next.Rested (count + 1) := by
  have depth : engine.job.cappedIodepth = 1 := by rw [finished.job]; rfl
  have one : engine.ringCount = 1 := by
    have add := finished.invariant.count
    rw [finished.queued, finished.reaped] at add
    omega
  have cons : engine.consIdx = count := finished.invariant.cons.trans finished.reaped
  have prod : engine.prodIdx = count + 1 := by
    rw [finished.invariant.prod, finished.queued, Nat.mod_eq_of_lt bound]
  have done : (engine.workRing 0).seq = doneSeq count := by
    rw [finished.done, Nat.mod_eq_of_lt (Nat.lt_of_succ_lt bound)]
  have more : engine.consIdx < engine.prodIdx := by
    rw [cons, prod]
    exact Nat.lt_succ_self _
  obtain ⟨ioU, oldest, -⟩ := finished.invariant.reap more (by
    rw [depth, Nat.mod_one, done, cons])
  have cap : engine.job.eventCap = 17 := by rw [finished.job]; decide
  have whole : run step engine [.getevents 1 1, .cpu false, .cpu false, .cpu false] =
      some (engine.recordReap [ioU] (engine.returned ++ [ioU]) .outside) := by
    simp [run_cons, step, finished.cpu, cap, drainStep, one, rxioReap, cons, prod, depth,
      Nat.mod_one, done, oldest, recordReap, asInt, wordRange_eq]
  refine ⟨_, whole, run_invariant (fun _ _ _ => Invariant.step) finished.invariant whole,
    finished.queue, finished.job, rfl, finished.gpu, finished.running, finished.queued,
    finished.completed, ?_, ?_, ?_⟩
  · simp [recordReap, finished.reaped]
  · simp [recordReap, finished.returned]
  · simp [recordReap, depth, Nat.mod_one]

theorem rested_all (count : Nat) (bound : count < wordRange) :
    ∃ labels engine, run step (openFile shallowJob) labels = some engine ∧ engine.Rested count := by
  induction count with
  | zero => exact ⟨[], _, rfl, openFile_rested⟩
  | succ count reachable =>
    obtain ⟨labels, engine, reaches, rested⟩ := reachable (Nat.lt_of_succ_lt bound)
    obtain ⟨middle, posting, finished⟩ := rested.finish
    obtain ⟨next, reaping, again⟩ := finished.reap bound
    exact ⟨_, next, (run_append_of_run reaches).trans
      ((run_append_of_run posting).trans reaping), again⟩

/-- The operation that makes the producer index wrap can never be reaped: `rxio_reap` compares the
index `2 ^ 32 - 1` with zero. -/
theorem fio_work_ring_wrap : ∃ labels engine,
    run step (openFile shallowJob) labels = some engine ∧ ¬ engine.RingProtocol := by
  obtain ⟨labels, rested, reaches, isRested⟩ := rested_all (wordRange - 1) (by decide)
  obtain ⟨engine, posting, finished⟩ := isRested.finish
  refine ⟨_, engine, (run_append_of_run reaches).trans posting, fun protocol => ?_⟩
  have reapable := protocol.reapable (by
    rw [finished.returned, finished.completed]
    exact Nat.lt_succ_self _)
  have prod : engine.prodIdx = 0 := by rw [finished.invariant.prod, finished.queued]; rfl
  simp [rxioReap, prod] at reapable

end Engine

end RocmXio.Fio
