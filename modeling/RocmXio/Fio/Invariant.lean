/-
What holds of the fio engine in every run.

Operations are numbered as `queue()` accepted them: first the reaped ones, then the signalled ones,
then those the kernel still has to work on. An unfinished item is still in the work ring as it was
posted, since its sequence word is odd and a post needs a cleared one. So a sequence word that the
kernel or `rxio_reap` accepts belongs to the operation it is looked up for, for any number of
operations.
-/

import RocmXio.Fio.Engine

namespace RocmXio.Fio

open Lib Nvme Function

theorem wordRange_eq : wordRange = 4294967296 := rfl

theorem rxioRing_eq : rxioRing = 63 := rfl

namespace Engine

theorem workSeq_odd (idx : Nat) : workSeq idx % 2 = 1 := by
  unfold workSeq
  rw [wordRange_eq]
  omega

theorem doneSeq_even (idx : Nat) : doneSeq idx % 2 = 0 := by
  unfold doneSeq
  rw [wordRange_eq]
  omega

theorem eq_of_workSeq_eq {first second : Nat} (ordered : first ≤ second)
    (near : second < first + 64)
    (same : workSeq (first % wordRange) = workSeq (second % wordRange)) : first = second := by
  unfold workSeq at same
  rw [wordRange_eq] at same
  omega

def position (engine : Engine) (operation : Nat) : Nat :=
  operation % wordRange % engine.job.cappedIodepth

structure Invariant (engine : Engine) : Prop where
  reaped_prefix : engine.reaped <+: engine.queued.map Prod.fst
  completed_prefix : engine.completed <+: engine.queued.map Prod.snd
  reaped_le : engine.reaped.length ≤ engine.completed.length
  count : engine.ringCount + engine.reaped.length = engine.queued.length
  depth : engine.ringCount ≤ engine.job.cappedIodepth
  head : engine.ringHead = engine.queued.length % rxioRing
  tail : engine.ringTail = engine.reaped.length % rxioRing
  prod : engine.prodIdx = engine.queued.length % wordRange
  cons : engine.consIdx = engine.reaped.length
  cons_lt : engine.consIdx < wordRange
  kernel : engine.index = engine.completed.length % wordRange
  items : ∀ operation entry, engine.queued[operation]? = some entry →
    entry.2.slot = operation % rxioRing ∧ entry.2.seq = workSeq (operation % wordRange)
  ioUs : ∀ operation entry, engine.queued[operation]? = some entry →
    engine.reaped.length ≤ operation → engine.ring (operation % rxioRing) = some entry.1
  pending : ∀ operation entry, engine.queued[operation]? = some entry →
    engine.completed.length ≤ operation → engine.workRing (engine.position operation) = entry.2
  odd : ∀ pos, (engine.workRing pos).seq % 2 = 1 → ∃ operation,
    engine.completed.length ≤ operation ∧ operation < engine.queued.length ∧
      pos = engine.position operation
  polling : ∀ item pollCount, engine.gpu = .poll item pollCount →
    ∃ ioU, engine.queued[engine.completed.length]? = some (ioU, item)
  returned_sublist : engine.returned.Sublist engine.reaped
  draining : ∀ min max found,
    engine.cpu = .drain min max found ∨ engine.cpu = .check min max found →
    0 ≤ found ∧ found + engine.ringCount ≤ engine.job.cappedIodepth

theorem openFile_invariant (job : Job) : (openFile job).Invariant where
  reaped_prefix := List.prefix_refl []
  completed_prefix := List.prefix_refl []
  reaped_le := le_refl 0
  count := rfl
  depth := Nat.zero_le _
  head := rfl
  tail := rfl
  prod := rfl
  cons := rfl
  cons_lt := show 0 < wordRange by decide
  kernel := rfl
  items := by simp [openFile]
  ioUs := by simp [openFile]
  pending := by simp [openFile]
  odd := by simp [openFile]
  polling := by simp [openFile]
  returned_sublist := List.Sublist.refl []
  draining := by simp [openFile]

section

variable {engine next : Engine} {label : Label} (invariant : engine.Invariant)
include invariant

theorem Invariant.completed_le :
    engine.completed.length ≤ engine.queued.length := by
  have length := invariant.completed_prefix.length_le
  rwa [List.length_map] at length

theorem Invariant.window :
    engine.queued.length ≤ engine.reaped.length + 63 := by
  have count := invariant.count
  have depth := invariant.depth
  have capped := engine.job.cappedIodepth_le
  omega

theorem Invariant.position_ne {first second : Nat}
    (unfinished : engine.completed.length ≤ first) (ordered : first < second)
    (inQueue : second < engine.queued.length) :
    engine.position first ≠ engine.position second := by
  intro samePlace
  have window := invariant.window
  have reaped := invariant.reaped_le
  have firstItem := List.getElem?_eq_getElem (show first < engine.queued.length by omega)
  have secondItem := List.getElem?_eq_getElem inQueue
  have stored := invariant.pending first _ firstItem unfinished
  rw [samePlace, invariant.pending second _ secondItem (by omega)] at stored
  have seqs := congrArg WorkItem.seq stored
  rw [(invariant.items first _ firstItem).2, (invariant.items second _ secondItem).2] at seqs
  exact absurd (eq_of_workSeq_eq (by omega) (by omega) seqs.symm) (Nat.ne_of_lt ordered)

theorem Invariant.position_ne_of_even {operation pos : Nat}
    (unfinished : engine.completed.length ≤ operation)
    (inQueue : operation < engine.queued.length) (even : (engine.workRing pos).seq % 2 = 0) :
    engine.position operation ≠ pos := by
  intro samePlace
  have item := List.getElem?_eq_getElem inQueue
  rw [← samePlace, invariant.pending operation _ item unfinished,
    (invariant.items operation _ item).2, workSeq_odd] at even
  exact absurd even (by decide)

theorem Invariant.accepts
    (accepted : (engine.workRing (engine.index % engine.job.cappedIodepth)).seq =
      workSeq engine.index) :
    ∃ ioU, engine.queued[engine.completed.length]? =
      some (ioU, engine.workRing (engine.index % engine.job.cappedIodepth)) := by
  have odd := workSeq_odd engine.index
  rw [← accepted] at odd
  obtain ⟨operation, unfinished, inQueue, place⟩ := invariant.odd _ odd
  have item := List.getElem?_eq_getElem inQueue
  have stored := invariant.pending operation _ item unfinished
  have seq := (invariant.items operation _ item).2
  rw [← stored, ← place, accepted, invariant.kernel] at seq
  have window := invariant.window
  have reaped := invariant.reaped_le
  have same := eq_of_workSeq_eq unfinished (by omega) seq
  subst same
  refine ⟨(engine.queued[engine.completed.length]).1, ?_⟩
  rw [item, place, stored]

theorem Invariant.reaps (more : engine.consIdx < engine.prodIdx)
    (accepted : (engine.workRing (engine.consIdx % engine.job.cappedIodepth)).seq =
      doneSeq engine.consIdx) :
    engine.reaped.length < engine.completed.length := by
  by_contra notFinished
  have posted : engine.consIdx < engine.queued.length := by
    rw [invariant.prod] at more
    exact Nat.lt_of_lt_of_le more (Nat.mod_le _ _)
  have even := doneSeq_even engine.consIdx
  rw [← accepted] at even
  have unfinished : engine.completed.length ≤ engine.consIdx := by
    rw [invariant.cons]
    omega
  refine invariant.position_ne_of_even unfinished posted even ?_
  rw [position, Nat.mod_eq_of_lt invariant.cons_lt]

/-! ### The steps that change the rings -/

/-- The place that an operation is posted to has a cleared sequence word, so it holds no unfinished
one, and its place in the `io_u` ring is free because fewer than 63 are outstanding. -/
theorem Invariant.post (outside : engine.cpu = .outside)
    {ioU : IoU} {item : WorkItem} (room : engine.ringCount < engine.job.cappedIodepth)
    (free : (engine.workRing (engine.prodIdx % engine.job.cappedIodepth)).seq = 0)
    (slot : item.slot = engine.ringHead) (seq : item.seq = workSeq engine.prodIdx) :
    (engine.recordPost ioU item).Invariant := by
  have count := invariant.count
  have completed := invariant.completed_le
  have reaped := invariant.reaped_le
  have capped := engine.job.cappedIodepth_le
  have place : engine.prodIdx % engine.job.cappedIodepth =
      engine.position engine.queued.length := by rw [position, invariant.prod]
  have even : (engine.workRing (engine.position engine.queued.length)).seq % 2 = 0 := by
    rw [← place, free]
  rw [recordPost, place]
  have length : (engine.queued ++ [(ioU, item)]).length = engine.queued.length + 1 := by simp
  have entries : ∀ operation entry, (engine.queued ++ [(ioU, item)])[operation]? = some entry →
      operation < engine.queued.length ∧ engine.queued[operation]? = some entry ∨
        operation = engine.queued.length ∧ entry = (ioU, item) := by
    intro operation entry found
    obtain ⟨inside, -⟩ := List.getElem?_eq_some_iff.mp found
    by_cases last : operation = engine.queued.length
    · rw [last, List.getElem?_concat_length, Option.some.injEq] at found
      exact Or.inr ⟨last, found.symm⟩
    · rw [List.getElem?_append_left (by omega)] at found
      exact Or.inl ⟨by omega, found⟩
  refine ⟨?_, ?_, reaped, ?_, room, ?_, invariant.tail, ?_, invariant.cons, invariant.cons_lt,
    invariant.kernel, fun operation entry found => ?_,
    fun operation entry found (unreaped : engine.reaped.length ≤ operation) => ?_,
    fun operation entry found (unfinished : engine.completed.length ≤ operation) => ?_,
    fun pos isOdd => ?_, fun polled pollCount polling => ?_, invariant.returned_sublist,
    fun min max found draining => ?_⟩
  · rw [List.map_append]
    exact invariant.reaped_prefix.trans (List.prefix_append _ _)
  · rw [List.map_append]
    exact invariant.completed_prefix.trans (List.prefix_append _ _)
  · rw [length]
    show engine.ringCount + 1 + engine.reaped.length = _
    omega
  · rw [length]
    rw [invariant.head, Nat.mod_add_mod]
  · rw [length]
    rw [invariant.prod, Nat.mod_add_mod]
  · rcases entries operation entry found with ⟨-, old⟩ | ⟨rfl, rfl⟩
    · exact invariant.items operation entry old
    · exact ⟨slot.trans invariant.head, seq.trans (congrArg workSeq invariant.prod)⟩
  · show update engine.ring engine.ringHead (some ioU) _ = _
    rw [invariant.head]
    rcases entries operation entry found with ⟨below, old⟩ | ⟨rfl, rfl⟩
    · have apart : operation % rxioRing ≠ engine.queued.length % rxioRing := fun sameSlot => by
        have same := eq_of_mod_eq_of_window sameSlot (by omega) (by rw [rxioRing_eq]; omega)
        omega
      rw [update_of_ne apart]
      exact invariant.ioUs operation entry old unreaped
    · rw [update_self]
  · show update engine.workRing (engine.position engine.queued.length) item
      (engine.position operation) = _
    rcases entries operation entry found with ⟨below, old⟩ | ⟨rfl, rfl⟩
    · rw [update_of_ne (invariant.position_ne_of_even unfinished below even)]
      exact invariant.pending operation entry old unfinished
    · rw [update_self]
  · rw [length]
    by_cases new : pos = engine.position engine.queued.length
    · exact ⟨engine.queued.length, completed, Nat.lt_succ_self _, new⟩
    · simp only [update_of_ne new] at isOdd
      obtain ⟨operation, unfinished, inQueue, samePlace⟩ := invariant.odd pos isOdd
      exact ⟨operation, unfinished, Nat.lt_succ_of_lt inQueue, samePlace⟩
  · obtain ⟨ioU, found⟩ := invariant.polling polled pollCount polling
    obtain ⟨inside, -⟩ := List.getElem?_eq_some_iff.mp found
    exact ⟨ioU, by rw [← found]; exact List.getElem?_append_left inside⟩
  · simp only [outside, reduceCtorEq, or_self] at draining

theorem Invariant.complete {item : WorkItem} {pollCount : Nat}
    (polling : engine.gpu = .poll item pollCount) : (engine.completeItem item).Invariant := by
  have reaped := invariant.reaped_le
  obtain ⟨ioU, current⟩ := invariant.polling item pollCount polling
  obtain ⟨inQueue, -⟩ := List.getElem?_eq_some_iff.mp current
  have place : engine.index % engine.job.cappedIodepth =
      engine.position engine.completed.length := by rw [position, invariant.kernel]
  simp only [completeItem, place]
  have length : (engine.completed ++ [item]).length = engine.completed.length + 1 := by simp
  refine { invariant with
    completed_prefix := ?_, reaped_le := ?_, kernel := ?_, polling := by simp
    pending := fun operation entry found unfinished => ?_, odd := fun pos isOdd => ?_ }
  · refine prefix_concat invariant.completed_prefix ?_
    rw [List.getElem?_map, current, Option.map_some]
  · rw [length]
    exact Nat.le_succ_of_le reaped
  · rw [length]
    rw [invariant.kernel, Nat.mod_add_mod]
  · rw [length] at unfinished
    obtain ⟨below, -⟩ := List.getElem?_eq_some_iff.mp found
    have apart := invariant.position_ne (le_refl _) unfinished below
    show update engine.workRing _ _ (engine.position operation) = entry.2
    rw [update_of_ne apart.symm]
    exact invariant.pending operation entry found (Nat.le_of_succ_le unfinished)
  · rw [length]
    by_cases finished : pos = engine.position engine.completed.length
    · simp only [finished, update_self, doneSeq_even] at isOdd
      exact absurd isOdd (by decide)
    · simp only [update_of_ne finished] at isOdd
      obtain ⟨operation, unfinished, below, samePlace⟩ := invariant.odd pos isOdd
      refine ⟨operation, ?_, below, samePlace⟩
      rcases Nat.lt_or_eq_of_le unfinished with later | same
      · exact later
      · exact absurd (same ▸ samePlace) finished

theorem Invariant.reap (more : engine.consIdx < engine.prodIdx)
    (accepted : (engine.workRing (engine.consIdx % engine.job.cappedIodepth)).seq =
      doneSeq engine.consIdx) :
    ∃ ioU, engine.ring engine.ringTail = some ioU ∧
      ∀ returned cpu, List.Sublist returned (engine.reaped ++ [ioU]) →
        (∀ min max found, cpu = Cpu.drain min max found ∨ cpu = .check min max found →
          0 ≤ found ∧ found + ((engine.ringCount - 1 : Nat) : Int) ≤ engine.job.cappedIodepth) →
        (engine.recordReap [ioU] returned cpu).Invariant := by
  have finished := invariant.reaps more accepted
  have completed := invariant.completed_le
  have count := invariant.count
  have depth := invariant.depth
  have small : engine.consIdx + 1 < wordRange := by
    have bound : engine.prodIdx < wordRange := by
      rw [invariant.prod]
      exact Nat.mod_lt _ (by decide)
    omega
  have even : (engine.workRing (engine.consIdx % engine.job.cappedIodepth)).seq % 2 = 0 := by
    rw [accepted]
    exact doneSeq_even _
  have oldest := List.getElem?_eq_getElem
    (show engine.reaped.length < engine.queued.length by omega)
  generalize engine.queued[engine.reaped.length] = entry at oldest
  have length : (engine.reaped ++ [entry.1]).length = engine.reaped.length + 1 := by simp
  refine ⟨entry.1, ?_, fun returned cpu sublist draining => ?_⟩
  · rw [invariant.tail]
    exact invariant.ioUs _ entry oldest (le_refl _)
  · unfold recordReap
    refine ⟨?_, invariant.completed_prefix, by rw [length]; exact finished, ?_, ?_,
      invariant.head, ?_, invariant.prod, ?_, Nat.mod_lt _ (by decide), invariant.kernel,
      invariant.items, fun operation later found unreaped => ?_,
      fun operation later found unfinished => ?_, fun pos isOdd => ?_, invariant.polling, sublist,
      draining⟩
    · refine prefix_concat invariant.reaped_prefix ?_
      rw [List.getElem?_map, oldest, Option.map_some]
    · rw [length]
      show engine.ringCount - 1 + _ = engine.queued.length
      omega
    · exact Nat.le_trans (Nat.sub_le _ _) depth
    · rw [length]
      rw [invariant.tail, Nat.mod_add_mod]
    · rw [length]
      rw [Nat.mod_eq_of_lt small, invariant.cons]
    · rw [length] at unreaped
      exact invariant.ioUs operation later found (Nat.le_of_succ_le unreaped)
    · obtain ⟨below, -⟩ := List.getElem?_eq_some_iff.mp found
      show update engine.workRing _ _ (engine.position operation) = later.2
      rw [update_of_ne (invariant.position_ne_of_even unfinished below even)]
      exact invariant.pending operation later found unfinished
    · by_cases cleared : pos = engine.consIdx % engine.job.cappedIodepth
      · simp only [cleared, update_self, Nat.zero_mod] at isOdd
        exact absurd isOdd (by decide)
      · simp only [update_of_ne cleared] at isOdd
        exact invariant.odd pos isOdd

theorem Invariant.step (move : engine.step label = some next) : next.Invariant := by
  have capped := engine.job.cappedIodepth_le
  cases step_transition move with
  | idle => exact invariant
  | refused ioU room =>
    refine { invariant with
      ioUs := fun operation entry found (unreaped : engine.reaped.length ≤ operation) => ?_ }
    have count := invariant.count
    obtain ⟨below, -⟩ := List.getElem?_eq_some_iff.mp found
    have apart : operation % rxioRing ≠ engine.ringHead := by
      rw [invariant.head]
      intro sameSlot
      simp only at below
      have same := eq_of_mod_eq_of_window sameSlot (by omega) (by rw [rxioRing_eq]; omega)
      omega
    show update engine.ring engine.ringHead none _ = _
    rw [update_of_ne apart]
    exact invariant.ioUs operation entry found unreaped
  | post ioU item outside accepted room free slot seq =>
    exact invariant.post outside room free slot seq
  | cpu label cpu continues =>
    refine { invariant with draining := fun min max found draining => ?_ }
    rcases continues min max found draining with ⟨rfl, -⟩ | before
    · have depth := invariant.depth
      have most : (0 : Int) + (engine.ringCount : Int) ≤ (engine.job.cappedIodepth : Int) := by
        omega
      exact ⟨le_refl 0, most⟩
    · exact invariant.draining min max found before
  | reap expired min max found ioU handed draining more done oldest outstanding space =>
    obtain ⟨taken, present, kept⟩ := invariant.reap more done
    obtain ⟨nonneg, room⟩ := invariant.draining min max found (Or.inl draining)
    rw [oldest] at present
    subst present
    refine kept _ _ ?_ fun otherMin otherMax otherFound same => ?_
    · cases handed
      · exact invariant.returned_sublist.trans (List.sublist_append_left _ _)
      · exact invariant.returned_sublist.append (List.Sublist.refl _)
    · simp only [Cpu.drain.injEq, reduceCtorEq, or_false] at same
      obtain ⟨-, -, rfl⟩ := same
      cases handed
      · exact ⟨nonneg, show found + _ ≤ _ by omega⟩
      · exact ⟨show 0 ≤ found + 1 by omega, show found + 1 + _ ≤ _ by omega⟩
  | spin => exact { invariant with polling := by simp }
  | exit =>
    exact { invariant with
      polling := by simp [exitKernel] }
  | take spinning seq =>
    refine { invariant with polling := fun item pollCount polling => ?_ }
    obtain ⟨rfl, -⟩ := polling
    exact invariant.accepts seq
  | complete item pollCount polling => exact invariant.complete polling
  | again item pollCount polling =>
    refine { invariant with polling := fun otherItem otherCount same => ?_ }
    obtain ⟨rfl, -⟩ := same
    exact invariant.polling item pollCount polling
  | controller => exact { invariant with }
  | stop => exact { invariant with }

end

theorem run_engine_invariant {job : Job} {labels : List Label} {engine : Engine}
    (reaches : run step (openFile job) labels = some engine) : engine.Invariant :=
  run_invariant (fun _ _ _ invariant move => invariant.step move) (openFile_invariant job) reaches

end Engine

end RocmXio.Fio
