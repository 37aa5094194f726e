/-
The words a stateful kernel starts from.

A fresh completion queue carries phase zero, and the controller posts its first pass with phase
one. The second word of the kernel's state is the phase it waits for: zero by the documentation of
`gpuKernelStateful`, one in `rxio_setup`. From an odd word every accepted entry is the next one that
was posted; from an even one the first entry is accepted before anything was posted.
-/

import RocmXio.Nvme.Stateful

namespace RocmXio.Nvme

open Lib

namespace Stateful

/-- A fresh queue whose second word of state is initialised to `word`. -/
def fresh (queueSize word : Nat) : Stateful :=
  { setup queueSize with state1 := word }

def Bounded (kernel : Stateful) : Label → Prop
  | .call nOps => nOps ≤ kernel.queue.queueSize - 1
  | .thread | .controller _ => True

/-- The accepted entries are those posted, in order and each once, for different submitted commands;
and when a call has returned none is left. -/
structure AcceptsPosted (kernel : Stateful) : Prop where
  inOrder : kernel.queue.accepted <+: kernel.queue.posted
  submitted : ∀ cqe ∈ kernel.queue.accepted, cqe.command < kernel.queue.submitted
  once : (kernel.queue.posted.map Cqe.command).Nodup
  complete : kernel.pc = .idle → kernel.queue.accepted = kernel.queue.posted

/-! ### From an odd word -/

def InStep (kernel : Stateful) : Prop :=
  match kernel.pc with
  | .idle => kernel.queue.accepted.length = kernel.queue.submitted ∧ kernel.Saved
  | .submit done nOps => done ≤ nOps ∧ nOps < kernel.queue.queueSize ∧
      kernel.queue.submitted = kernel.queue.accepted.length + done
  | .ring nOps => kernel.queue.submitted = kernel.queue.accepted.length + nOps
  | .poll done nOps _ => done ≤ nOps ∧
      kernel.queue.submitted + done = kernel.queue.accepted.length + nOps
  | .writeBack => kernel.queue.accepted.length = kernel.queue.submitted
  | .trapped => True

structure Steady (kernel : Stateful) : Prop where
  short : kernel.queue.queueSize ≤ 2 ^ 16
  disciplined : kernel.queue.Disciplined
  inStep : kernel.InStep

theorem fresh_steady {queueSize word : Nat} (size : 2 ≤ queueSize) (short : queueSize ≤ 2 ^ 16)
    (odd : word % 2 = 1) : (fresh queueSize word).Steady where
  short := short
  disciplined := QueuePair.create_disciplined size
  inStep := by
    refine ⟨rfl, rfl, show 0 / 2 ^ 16 % 2 ^ 16 = 0 by decide, ?_⟩
    show (word % 2 == 1) = true
    rw [odd]
    rfl

section

variable {kernel next : Stateful}

section

variable (steady : kernel.Steady)
include steady

theorem Steady.call (idle : kernel.pc = .idle) {nOps : Nat}
    (room : nOps ≤ kernel.queue.queueSize - 1) :
    Steady { kernel with queue := kernel.load, pc := .submit 0 nOps } := by
  have inStep := steady.inStep
  have size := steady.disciplined.size
  simp only [InStep, idle] at inStep
  obtain ⟨all, saved⟩ := inStep
  rw [saved.load_eq]
  exact ⟨steady.short, steady.disciplined, Nat.zero_le _,
    show nOps < kernel.queue.queueSize by omega, all.symm⟩

theorem Steady.store (writing : kernel.pc = .writeBack) : kernel.store.Steady := by
  have all := steady.inStep
  simp only [InStep, writing] at all
  exact ⟨steady.short, steady.disciplined.ringCq, all,
    saved_store steady.short steady.disciplined⟩

theorem Steady.thread (move : kernel.thread = some next) : next.Steady := by
  have inStep := steady.inStep
  have disciplined := steady.disciplined
  cases there : kernel.pc <;> simp only [Stateful.thread, there, InStep] at move inStep
  case submit done nOps =>
    obtain ⟨most, room, submitted⟩ := inStep
    split_ifs at move with more <;> cases move
    · exact ⟨steady.short, disciplined.submit (by omega), more, room,
        congrArg (· + 1) submitted⟩
    · have last : done = nOps := by omega
      exact ⟨steady.short, disciplined, last ▸ submitted⟩
  case ring nOps =>
    cases move
    exact ⟨steady.short, disciplined.ringSq, Nat.zero_le _, inStep⟩
  case poll done nOps pollCount =>
    obtain ⟨most, submitted⟩ := inStep
    split_ifs at move with more ready <;> cases move
    · refine ⟨steady.short, disciplined.consume ready, more, ?_⟩
      show kernel.queue.submitted + (done + 1) = (kernel.queue.accepted ++ [_]).length + nOps
      rw [List.length_append, List.length_singleton]
      omega
    · exact ⟨steady.short, disciplined, trivial⟩
    · exact ⟨steady.short, disciplined, most, submitted⟩
    · exact ⟨steady.short, disciplined,
        show kernel.queue.accepted.length = kernel.queue.submitted by omega⟩
  case writeBack =>
    cases move
    exact steady.store there
  all_goals cases move

theorem Steady.controller {label : QueuePair.Controller} {queue : QueuePair}
    (move : kernel.queue.controller label = some queue) :
    Steady { kernel with queue := queue } := by
  have disciplined := steady.disciplined.controller move
  have inStep := steady.inStep
  rcases QueuePair.controller_cases move with ⟨-, -, rfl⟩ | ⟨_, _, _, -, -, -, rfl⟩ <;>
    exact ⟨steady.short, disciplined, inStep⟩

theorem Steady.step {label : Label} (bounded : kernel.Bounded label)
    (move : kernel.step label = some next) : next.Steady := by
  cases label with
  | call nOps =>
    cases there : kernel.pc <;> simp only [Stateful.step, there] at move
    case idle =>
      cases move
      exact steady.call there bounded
    all_goals cases move
  | thread => exact steady.thread move
  | controller label =>
    simp only [Stateful.step] at move
    split at move
    case h_1 => cases move
    case h_2 queue answer =>
      cases move
      exact steady.controller answer

theorem Steady.acceptsPosted : kernel.AcceptsPosted := by
  have disciplined := steady.disciplined
  have commands := disciplined.commands
  have announced := disciplined.announced_le
  have fetched := disciplined.fetched_le
  have posted := disciplined.posted_add
  refine ⟨disciplined.accepted_prefix, fun cqe member => ?_, ?_, fun idle => ?_⟩
  · have known : cqe.command ∈ kernel.queue.posted.map Cqe.command ++ kernel.queue.inFlight :=
      List.mem_append_left _ (List.mem_map_of_mem (disciplined.accepted_prefix.subset member))
    have below := List.mem_range.mp (commands.mem_iff.mp known)
    omega
  · exact (List.nodup_append.mp (commands.nodup_iff.mpr List.nodup_range)).1
  · have all := steady.inStep
    simp only [InStep, idle] at all
    have accepted := disciplined.toCoherent.accepted_le
    exact disciplined.accepted_prefix.eq_of_length (by omega)

end

/-! ### A ring without room -/

/-- A ring of at most one entry has no room for a command: nothing is ever submitted. -/
structure Vacant (kernel : Stateful) : Prop where
  size : kernel.queue.queueSize ≤ 1
  word : kernel.state0 = 0
  tail : kernel.queue.sqTail = 0
  head : kernel.queue.cqHead = 0
  announced : kernel.queue.announced = 0
  inFlight : kernel.queue.inFlight = []
  posted : kernel.queue.posted = []
  accepted : kernel.queue.accepted = []
  noOps : match kernel.pc with
    | .submit _ nOps | .ring nOps | .poll _ nOps _ => nOps = 0
    | .idle | .writeBack | .trapped => True

theorem fresh_vacant {queueSize : Nat} (size : queueSize ≤ 1) (word : Nat) :
    (fresh queueSize word).Vacant :=
  ⟨size, rfl, rfl, rfl, rfl, rfl, rfl, rfl, trivial⟩

theorem Vacant.thread (vacant : kernel.Vacant) (move : kernel.thread = some next) :
    next.Vacant := by
  have noOps := vacant.noOps
  cases there : kernel.pc <;> simp only [Stateful.thread, there] at move noOps
  case submit =>
    subst noOps
    cases move
    exact { vacant with noOps := rfl }
  case ring =>
    cases move
    refine { vacant with announced := ?_, noOps := noOps }
    show QueuePair.doorbellAdvance _ kernel.queue.announced kernel.queue.sqTail = 0
    rw [vacant.announced, vacant.tail, QueuePair.doorbellAdvance, Nat.zero_mod, Nat.zero_add,
      Nat.zero_add, Nat.sub_zero, Nat.mod_self]
  case poll =>
    subst noOps
    cases move
    exact { vacant with noOps := trivial }
  case writeBack =>
    cases move
    refine { vacant with word := ?_, noOps := trivial }
    show kernel.queue.cqHead * 2 ^ 16 + kernel.queue.sqTail = 0
    rw [vacant.head, vacant.tail, Nat.zero_mul]
  all_goals cases move

theorem Vacant.step {label : Label} (vacant : kernel.Vacant) (bounded : kernel.Bounded label)
    (move : kernel.step label = some next) : next.Vacant := by
  cases label with
  | call nOps =>
    cases there : kernel.pc <;> simp only [Stateful.step, there] at move
    case idle =>
      cases move
      have size := vacant.size
      have room : nOps ≤ kernel.queue.queueSize - 1 := bounded
      refine { vacant with tail := ?_, head := ?_, noOps := show nOps = 0 by omega }
      · show kernel.state0 % 2 ^ 16 = 0
        rw [vacant.word, Nat.zero_mod]
      · show kernel.state0 / 2 ^ 16 % 2 ^ 16 = 0
        rw [vacant.word, Nat.zero_div, Nat.zero_mod]
    all_goals cases move
  | thread => exact vacant.thread move
  | controller label =>
    simp only [Stateful.step] at move
    split at move
    case h_1 => cases move
    case h_2 queue answer =>
      -- Nothing is announced and nothing is in flight, so the controller has nothing to do.
      rcases QueuePair.controller_cases answer with ⟨-, more, -⟩ | ⟨_, _, _, -, found, -, -⟩
      · exact absurd more (vacant.announced ▸ Nat.not_lt_zero _)
      · rw [vacant.inFlight, List.getElem?_nil] at found
        exact absurd found (by simp)

theorem Vacant.acceptsPosted (vacant : kernel.Vacant) : kernel.AcceptsPosted := by
  have accepted := vacant.accepted
  have posted := vacant.posted
  refine ⟨?_, ?_, ?_, fun _ => accepted.trans posted.symm⟩
  · rw [accepted]
    exact List.nil_prefix
  · rw [accepted]
    exact by simp
  · rw [posted]
    exact List.nodup_nil

end

/-! ### From an even word -/

/-- One call of one operation, up to the first entry that it looks at. -/
def firstLook : List Label :=
  [.call 1, .thread, .thread, .thread, .thread]

def firstQueue (queueSize word : Nat) : QueuePair :=
  (fresh queueSize word).load.submit.ringSq

def firstTaken (queueSize word : Nat) : Stateful :=
  { fresh queueSize word with queue := (firstQueue queueSize word).consume, pc := .poll 1 1 0 }

theorem firstQueue_ready {word : Nat} (queueSize : Nat) (even : word % 2 ≠ 1) :
    (firstQueue queueSize word).cqeReady = true := by
  have phase : (word % 2 == 1) = false := beq_eq_false_iff_ne.mpr even
  show (false == (word % 2 == 1)) = true
  rw [phase]
  rfl

theorem run_firstLook {word : Nat} (queueSize : Nat) (even : word % 2 ≠ 1) :
    run step (fresh queueSize word) firstLook = some (firstTaken queueSize word) := by
  have polled : step { fresh queueSize word with
      queue := firstQueue queueSize word, pc := .poll 0 1 0 } .thread =
        some (firstTaken queueSize word) := by
    simp only [step, thread, if_pos Nat.zero_lt_one, if_pos (firstQueue_ready queueSize even)]
    rfl
  exact run_cons_of_step polled

theorem firstLook_bounded {queueSize : Nat} (size : 2 ≤ queueSize) (word : Nat) :
    EveryStep step Bounded (fresh queueSize word) firstLook := by
  refine ⟨show 1 ≤ queueSize - 1 by omega, ?_⟩
  refine everyStep_of_forall (fun state label member => ?_) _
  simp only [List.mem_cons, List.not_mem_nil, or_false, or_self] at member
  rw [member]
  trivial

theorem firstTaken_not_acceptsPosted (queueSize word : Nat) :
    ¬ (firstTaken queueSize word).AcceptsPosted := fun accepts =>
  absurd (List.prefix_nil.mp accepts.inOrder) (List.cons_ne_nil _ _)

/-! ### The result -/

/-- In every run of calls that fit the ring, the kernel accepts exactly the posted entries if and
only if the second word is odd, for every ring that has room for a command. -/
theorem acceptsPosted_iff_odd (queueSize : Fin (2 ^ 16)) (word : Nat) :
    (∀ labels kernel, run step (fresh queueSize word) labels = some kernel →
      EveryStep step Bounded (fresh queueSize word) labels → kernel.AcceptsPosted) ↔
        (2 ≤ queueSize.val → word % 2 = 1) := by
  constructor
  · intro accepts size
    by_contra even
    exact firstTaken_not_acceptsPosted queueSize word
      (accepts firstLook _ (run_firstLook queueSize even) (firstLook_bounded size word))
  · intro odd labels kernel reaches bounded
    rcases Nat.lt_or_ge queueSize.val 2 with small | size
    · exact (run_invariant_of_everyStep
        (fun _ _ _ vacant bounded move => Vacant.step vacant bounded move)
        (fresh_vacant (Nat.le_of_lt_succ small) word) bounded reaches).acceptsPosted
    · exact (run_invariant_of_everyStep
        (fun _ _ _ steady bounded move => Steady.step steady bounded move)
        (fresh_steady size queueSize.isLt.le (odd size)) bounded reaches).acceptsPosted

/-- With both words zero, as documented, the first call on a ring of two entries takes an entry
that was never posted. -/
theorem zeroed_words_accept_unposted :
    (∃ kernel, run step (fresh 2 0) firstLook = some kernel ∧ ¬ kernel.AcceptsPosted) ∧
      EveryStep step Bounded (fresh 2 0) firstLook :=
  ⟨⟨_, run_firstLook 2 (by decide), firstTaken_not_acceptsPosted 2 0⟩,
    firstLook_bounded (le_refl 2) 0⟩

end Stateful

end RocmXio.Nvme
