/-
Success reporting: what it means that an operation is done.

The persistent kernel signals an operation when it has consumed its completion, and the stateful
kernel returns when it has consumed those of its call; neither looks at the status. The queue state
left behind counts the commands whose completion was not consumed, which is what the controller owes
unless the stop flag is seen in between.
-/

import RocmXio.Fio.Slots
import RocmXio.Nvme.Stateful

namespace RocmXio.Fio

open Lib Nvme

namespace Engine

/-- An operation seen as done by its sequence word has succeeded, the `io_u`s handed to fio are
those of operations that have succeeded, and the queue state says how many completions are owed. -/
structure SuccessReported (engine : Engine) : Prop where
  signalled : ∀ operation entry, engine.queued[operation]? = some entry →
    (engine.workRing (engine.position operation)).seq % 2 = 0 →
      Stateful.Succeeded engine.queue operation
  returned : ∃ count, (∀ operation, operation < count → Stateful.Succeeded engine.queue operation) ∧
    engine.returned.Sublist ((engine.queued.take count).map Prod.fst)
  saved : engine.gpu = .exited →
    (engine.savedTail + engine.queue.queueSize - engine.savedHead) % engine.queue.queueSize =
      engine.owedAtExit

/-- The controller reports no error, and the kernel does not leave its polling loop for the stop
flag when the completion is there. -/
def Reliable (engine : Engine) : Label → Prop
  | .controller label => label.Succeeds
  | .gpu =>
    match engine.gpu with
    | .poll _ pollCount =>
      pollCount % 4096 = 0 ∧ engine.stopFlag = true → engine.queue.cqeReady = false
    | .top | .spin | .exited => True
  | .queue _ | .getevents _ _ | .cpu _ | .stop => True

instance Reliable.decidable (engine : Engine) : ∀ label, Decidable (engine.Reliable label)
  | .controller label => inferInstanceAs (Decidable label.Succeeds)
  | .gpu => by
    unfold Reliable
    cases engine.gpu <;> infer_instance
  | .queue _ | .getevents _ _ | .cpu _ | .stop => inferInstanceAs (Decidable True)

/-! ### The invariant -/

def Progress (engine : Engine) : Prop :=
  match engine.gpu with
  | .top | .spin => engine.queue.submitted = engine.completed.length
  | .poll _ _ => engine.queue.submitted = engine.completed.length + 1
  | .exited =>
    (engine.savedTail + engine.queue.queueSize - engine.savedHead) % engine.queue.queueSize =
      engine.owedAtExit

/-- The completions consumed are those of the operations signalled, one command at a time. -/
structure Reporting (engine : Engine) : Prop where
  disciplined : engine.queue.Disciplined
  posted_ok : ∀ cqe ∈ engine.queue.posted, cqe.ok = true
  commands : (engine.queue.accepted.map Cqe.command).Perm (List.range engine.completed.length)
  progress : engine.Progress

theorem openFile_reporting {job : Job} (size : 2 ≤ job.queueDepth) : (openFile job).Reporting where
  disciplined := QueuePair.create_disciplined size
  posted_ok := fun _ impossible => absurd impossible List.not_mem_nil
  commands := List.Perm.refl []
  progress := rfl

section

variable {engine next : Engine}

section

variable (reporting : engine.Reporting)
include reporting

theorem Reporting.accepted_eq : engine.queue.accepted.length = engine.completed.length := by
  have length := reporting.commands.length_eq
  rwa [List.length_map, List.length_range] at length

theorem Reporting.exit (few : engine.queue.submitted ≤ engine.completed.length + 1)
    (none : engine.queue.posted.length ≤ engine.completed.length) :
    engine.exitKernel.Reporting := by
  have size := reporting.disciplined.size
  have accepted := reporting.accepted_eq
  have acceptedLe := reporting.disciplined.toCoherent.accepted_le
  have posted := reporting.disciplined.toCoherent.posted_le
  refine { reporting with progress := ?_ }
  show (engine.queue.sqTail + engine.queue.queueSize - engine.queue.cqHead) %
    engine.queue.queueSize = engine.queue.submitted - engine.queue.posted.length
  rw [reporting.disciplined.tail, reporting.disciplined.head,
    distance_eq (by omega) (by omega)]
  omega

theorem Reporting.take (spinning : engine.gpu = .spin) (item : WorkItem) :
    (engine.takeItem item).Reporting := by
  have submitted := reporting.progress
  simp only [Progress, spinning] at submitted
  have size := reporting.disciplined.size
  have accepted := reporting.accepted_eq
  exact { reporting with
    disciplined := (reporting.disciplined.submit (by omega)).ringSq
    progress := congrArg (· + 1) submitted }

theorem Reporting.complete {item : WorkItem} {pollCount : Nat}
    (polling : engine.gpu = .poll item pollCount) (ready : engine.queue.cqeReady = true) :
    (engine.completeItem item).Reporting := by
  have submitted := reporting.progress
  simp only [Progress, polling] at submitted
  have consumed := reporting.disciplined.consume ready
  have length : engine.queue.consume.accepted.length = engine.completed.length + 1 := by
    rw [← reporting.accepted_eq]
    exact List.length_append
  have count : (engine.completed ++ [item]).length = engine.completed.length + 1 :=
    List.length_append
  have drained := consumed.drained (length.trans submitted.symm)
  refine { reporting with
    disciplined := consumed.ringCq
    commands := ?_
    progress := submitted.trans count.symm }
  show (engine.queue.consume.accepted.map Cqe.command).Perm
    (List.range (engine.completed ++ [item]).length)
  rw [count, ← submitted]
  exact drained

theorem Reporting.gpu (reliable : engine.Reliable .gpu) (move : engine.gpuStep = some next) :
    next.Reporting := by
  have progress := reporting.progress
  have posted := reporting.disciplined.toCoherent.posted_le
  cases there : engine.gpu <;>
    simp only [gpuStep, Reliable, Progress, there] at move reliable progress
  case top =>
    cases move
    split_ifs
    · exact reporting.exit (by omega) (by omega)
    · exact { reporting with progress := progress }
  case spin =>
    split_ifs at move <;> cases move
    · exact reporting.take there _
    · exact reporting.exit (by omega) (by omega)
    · exact reporting
  case poll item pollCount =>
    split_ifs at move with stopped ready <;> cases move
    · have stale := reliable stopped
      have none : ¬ engine.queue.accepted.length < engine.queue.posted.length := by
        rw [← reporting.disciplined.toCoherent.cqeReady_iff, stale]
        exact Bool.false_ne_true
      rw [reporting.accepted_eq] at none
      exact reporting.exit (by omega) (Nat.le_of_not_lt none)
    · exact reporting.complete there ready
    · exact { reporting with progress := progress }
  case exited => cases move

theorem Reporting.controller {label : QueuePair.Controller} {queue : QueuePair}
    (success : label.Succeeds) (move : engine.queue.controller label = some queue) :
    Reporting { engine with queue := queue } := by
  have disciplined := reporting.disciplined.controller move
  have ok := QueuePair.posted_ok success move reporting.posted_ok
  have progress := reporting.progress
  rcases QueuePair.controller_cases move with ⟨-, -, rfl⟩ | ⟨_, _, _, -, -, -, rfl⟩
  · refine ⟨disciplined, ok, reporting.commands, ?_⟩
    cases there : engine.gpu <;> simp only [Progress, there] at progress ⊢ <;> exact progress
  · refine ⟨disciplined, ok, reporting.commands, ?_⟩
    cases there : engine.gpu <;> simp only [Progress, there] at progress ⊢ <;> exact progress

theorem Reporting.step {label : Label} (reliable : engine.Reliable label)
    (move : engine.step label = some next) : next.Reporting := by
  cases label with
  | gpu => exact reporting.gpu reliable move
  | controller label =>
    simp only [Engine.step] at move
    split at move
    case h_1 => cases move
    case h_2 queue answer =>
      cases move
      exact reporting.controller reliable answer
  | queue | getevents | cpu | stop =>
    cases step_transition move <;> exact { reporting with progress := reporting.progress }

theorem Reporting.succeeded {operation : Nat} (done : operation < engine.completed.length) :
    Stateful.Succeeded engine.queue operation := by
  have member : operation ∈ engine.queue.accepted.map Cqe.command :=
    reporting.commands.mem_iff.mpr (List.mem_range.mpr done)
  obtain ⟨cqe, accepted, command⟩ := List.mem_map.mp member
  exact ⟨cqe, accepted, command,
    reporting.posted_ok cqe (reporting.disciplined.accepted_prefix.subset accepted)⟩

theorem Reporting.successReported (invariant : engine.Invariant) : engine.SuccessReported where
  signalled := fun operation entry found even => by
    by_cases done : operation < engine.completed.length
    · exact reporting.succeeded done
    · rw [invariant.pending operation entry found (Nat.le_of_not_lt done),
        (invariant.items operation entry found).2, workSeq_odd] at even
      exact absurd even (by decide)
  returned := by
    have handed : engine.reaped <+: (engine.queued.map Prod.fst).take engine.completed.length :=
      List.prefix_take_iff.mpr ⟨invariant.reaped_prefix, invariant.reaped_le⟩
    refine ⟨engine.completed.length, fun _ => reporting.succeeded, ?_⟩
    rw [List.map_take]
    exact invariant.returned_sublist.trans handed.sublist
  saved := fun exited => by
    have progress := reporting.progress
    simp only [Progress, exited] at progress
    exact progress

end

end

/-- In every reliable run of the persistent kernel, and in every run of the stateful kernel in which
no command fails, an operation is reported as done only if its own completion was consumed and
reports success, and the queue state left behind says how many completions are owed. -/
theorem nvme_success_reported (job : Job) (size : 2 ≤ job.queueDepth)
    (short : job.queueDepth ≤ 2 ^ 16) :
    (∀ labels engine, run step (openFile job) labels = some engine →
      EveryStep step Reliable (openFile job) labels → engine.SuccessReported) ∧
    ∀ labels kernel, run Stateful.step (Stateful.setup job.queueDepth) labels = some kernel →
      EveryStep Stateful.step Stateful.Careful (Stateful.setup job.queueDepth) labels →
      kernel.SuccessReported := by
  refine ⟨fun labels engine reaches reliable => ?_,
    fun labels kernel => Stateful.run_successReported size short⟩
  have reporting := run_invariant_of_everyStep
    (fun _ _ _ reporting reliable move => Reporting.step reporting reliable move)
    (openFile_reporting size) reliable reaches
  exact reporting.successReported (run_engine_invariant reaches)

/-- A call of one operation, whose completion has the given status field. -/
def oneCall (statusField : Nat) : List Stateful.Label :=
  [.call 1, .thread, .thread, .thread, .controller .fetch, .controller (.post 0 statusField),
    .thread, .thread, .thread]

theorem nvme_success_reported_oneRound :
    (∃ engine, run step (openFile shallowJob) (oneRound 0) = some engine ∧
      engine.returned.length = 1 ∧ engine.SuccessReported) ∧
    ∃ kernel, run Stateful.step (Stateful.setup 64) (oneCall 0) = some kernel ∧
      kernel.finished = 1 ∧ kernel.SuccessReported :=
  have reported := nvme_success_reported shallowJob (by decide) (by decide)
  ⟨⟨_, rfl, rfl, reported.1 (oneRound 0) _ rfl (by decide)⟩,
    ⟨_, rfl, rfl, reported.2 (oneCall 0) _ rfl (by decide)⟩⟩

/-- Queue one read and let the kernel take it and the controller fetch it. -/
def oneTaken : List Label :=
  [.queue ⟨0, .read, 0, 4096⟩, .gpu, .gpu, .controller .fetch]

/-- A failed read is signalled as done, and so it is by a stateful call that returns. And a stop
flag seen when the completion is posted but not consumed leaves a queue state with one command too
many. -/
theorem nvme_failure_reported :
    (∃ labels engine, run step (openFile shallowJob) labels = some engine ∧
      engine.stopFlag = false ∧ ¬ engine.SuccessReported) ∧
    (∃ labels engine, run step (openFile shallowJob) labels = some engine ∧
      (∀ cqe ∈ engine.queue.posted, cqe.ok = true) ∧ ¬ engine.SuccessReported) ∧
    ∃ labels kernel, run Stateful.step (Stateful.setup 64) labels = some kernel ∧
      ¬ kernel.SuccessReported :=
  ⟨⟨oneTaken ++ [.controller (.post 0 641), .gpu], _, rfl, rfl, fun reported =>
      absurd (reported.signalled 0 _ rfl (by decide)) (by decide)⟩,
    ⟨oneTaken ++ [.controller (.post 0 0), .stop, .gpu], _, rfl, by decide, fun reported =>
      absurd (reported.saved rfl) (by decide)⟩,
    ⟨oneCall 641, _, rfl, fun reported => absurd (reported.signalled 0 (by decide)) (by decide)⟩⟩

end Engine

end RocmXio.Fio
