/-
The phase of the completions of the bnxt provider.

The hardware flips the phase of its completions on each pass over the completion queue.
`poll_cq_until` computes the phase it expects and the slot it looks at from a counter of 32 bits,
and tells the hardware its position in 24 bits with the parity of its passes above. This always
agrees exactly when the depth of the queue divides `2 ^ 32` and fits the field; the configuration
allows every depth.

When the slots that a call waits for are found is up to the send queue and left open here. A call
that returns for a stop request forgets what it has consumed.
-/

import RocmXio.Rdma.Bnxt

namespace RocmXio.Rdma.Bnxt

open Lib

/-- Where the lane is, with the local variables of `poll_cq_until`. -/
inductive CqPc where
  | idle
  | poll (cqCons : Nat) (cqEpoch cqDirty : Bool)
deriving DecidableEq, Repr

/-- The completion queue: its depth, the position and epoch bit kept between calls, the phases of
its entries and the last doorbell. History is how many completions were written, how many the
hardware knows to be consumed, and how many are. -/
structure Cq where
  depth : Nat
  head : Nat := 0
  epoch : Bool := false
  phases : Nat → Bool := fun _ => false
  dbIdx : Nat := 0
  pc : CqPc := .idle
  written : Nat := 0
  acked : Nat := 0
  taken : Nat := 0

/-- `poll_cq_until` is called, looks at an entry, finds the slots it waits for or meets a stop
request, or the hardware writes a completion. -/
inductive CqLabel where
  | call
  | look
  | found
  | stop
  | nic
deriving DecidableEq, Repr

namespace Cq

/-- The completion queue that `bnxt_create_cqs` makes. -/
def create (cqDepth : Nat) : Cq where
  depth := cqDepthFor cqDepth

def fresh (cq : Cq) (cqCons : Nat) : Bool :=
  cq.phases (cqCons % cq.depth) == passTag cq.depth cqCons

def consume (cq : Cq) (cqCons : Nat) (cqEpoch : Bool) : Cq :=
  let next := (cqCons + 1) % 2 ^ 32
  { cq with
    pc := .poll next (if next % cq.depth = 0 then !cqEpoch else cqEpoch) true
    taken := cq.taken + 1 }

/-- `poll_cq_until` returns with its slots, and rings the doorbell if it has consumed. -/
def finish (cq : Cq) (cqCons : Nat) (cqEpoch cqDirty : Bool) : Cq :=
  if cqDirty then
    { cq with
      dbIdx := cqCons % cq.depth ||| cqEpoch.toNat <<< 24
      head := cqCons
      epoch := cqEpoch
      acked := cq.taken
      pc := .idle }
  else { cq with pc := .idle }

/-- One step. The hardware does not write over what it does not know to be consumed. -/
def step (cq : Cq) (label : CqLabel) : Option Cq :=
  match label, cq.pc with
  | .call, .idle => some { cq with pc := .poll cq.head cq.epoch false }
  | .look, .poll cqCons cqEpoch _ =>
    some (if cq.fresh cqCons then cq.consume cqCons cqEpoch else cq)
  | .found, .poll cqCons cqEpoch cqDirty => some (cq.finish cqCons cqEpoch cqDirty)
  | .stop, .poll _ _ _ => some { cq with pc := .idle, taken := cq.acked }
  | .nic, _ =>
    if cq.written < cq.acked + cq.depth then
      some { cq with
        phases := Function.update cq.phases (cq.written % cq.depth) (passTag cq.depth cq.written)
        written := cq.written + 1 }
    else none
  | .call, .poll _ _ _ | .look, .idle | .found, .idle | .stop, .idle => none

/-- The lane looks where the next completion goes, takes the entry there for a new one exactly when
it was written, and has told the hardware its position and the parity of its passes. -/
structure Faithful (cq : Cq) : Prop where
  look : ∀ cqCons cqEpoch cqDirty, cq.pc = .poll cqCons cqEpoch cqDirty →
    cqCons % cq.depth = cq.taken % cq.depth ∧ (cq.fresh cqCons ↔ cq.taken < cq.written)
  index : cq.dbIdx % 2 ^ 24 = cq.acked % cq.depth
  epoch : cq.dbIdx / 2 ^ 24 = cq.acked / cq.depth % 2

/-! ### Depths that fit -/

def Place (cq : Cq) : Prop :=
  match cq.pc with
  | .idle => cq.taken = cq.acked
  | .poll cqCons cqEpoch cqDirty =>
    cqCons = cq.taken % 2 ^ 32 ∧ cqEpoch = !passTag cq.depth cq.taken ∧
      (cqDirty = false → cq.taken = cq.acked)

/-- The counters are those of the history, and the entries carry the phases of their passes. -/
structure Invariant (cq : Cq) : Prop where
  divides : 2 * cq.depth ∣ 2 ^ 32
  short : cq.depth ≤ 2 ^ 24
  head : cq.head = cq.acked % 2 ^ 32
  epoch : cq.epoch = !passTag cq.depth cq.acked
  dbIdx : cq.dbIdx = cq.acked % cq.depth ||| (!passTag cq.depth cq.acked).toNat <<< 24
  tagged : Tagged cq.depth cq.written cq.phases
  acked_le : cq.acked ≤ cq.taken
  taken_le : cq.taken ≤ cq.written
  window : cq.written ≤ cq.acked + cq.depth
  place : cq.Place

section

variable {cq next : Cq}

theorem Invariant.depth_pos (invariant : cq.Invariant) : 0 < cq.depth := by
  rcases Nat.eq_zero_or_pos cq.depth with zero | positive
  · exact absurd invariant.divides (by rw [zero]; decide)
  · exact positive

theorem Invariant.fresh_iff (invariant : cq.Invariant) :
    cq.taken % 2 ^ 32 % cq.depth = cq.taken % cq.depth ∧
      (cq.fresh (cq.taken % 2 ^ 32) ↔ cq.taken < cq.written) := by
  obtain ⟨slot, tag⟩ := passTag_mod (.inr invariant.divides : cq.taken < 2 ^ 32 ∨ _)
  rw [fresh, beq_iff_eq, slot, tag]
  exact ⟨rfl, invariant.tagged.fresh_iff invariant.depth_pos invariant.taken_le
    (invariant.window.trans (Nat.add_le_add_right invariant.acked_le _))⟩

theorem Invariant.step {label : CqLabel} (invariant : cq.Invariant)
    (move : cq.step label = some next) : next.Invariant := by
  have place := invariant.place
  cases phase : cq.pc <;> cases label <;> simp only [Cq.step, phase] at move <;>
    simp only [Place, phase] at place
  case idle.nic | poll.nic =>
    obtain ⟨room, ⟨⟩⟩ := Option.ite_none_right_eq_some.mp move
    exact { invariant with
      tagged := invariant.tagged.write
      taken_le := Nat.le_succ_of_le invariant.taken_le
      window := room
      place := by simpa only [Place, phase] using place }
  case idle.call =>
    cases move
    exact { invariant with
      place := ⟨by rw [place]; exact invariant.head, by rw [place]; exact invariant.epoch,
        fun _ => place⟩ }
  case poll.look cqCons cqEpoch cqDirty =>
    obtain ⟨rfl, rfl, clean⟩ := place
    have fresh := invariant.fresh_iff.2
    split_ifs at move with new <;> cases move
    · -- The epoch flips when the position after the completion is the first slot.
      have wrap := (passTag_mod (.inr invariant.divides : cq.taken + 1 < 2 ^ 32 ∨ _)).1
      refine { invariant with
        acked_le := Nat.le_succ_of_le invariant.acked_le
        taken_le := fresh.mp new
        place := ⟨Nat.mod_add_mod _ _ _, ?_, by simp⟩ }
      change (if (cq.taken % 2 ^ 32 + 1) % 2 ^ 32 % cq.depth = 0 then _ else _) =
        !passTag cq.depth (cq.taken + 1)
      rw [Nat.mod_add_mod, wrap, passTag_succ]
      split_ifs <;> rfl
    · exact invariant
  case poll.found cqCons cqEpoch cqDirty =>
    obtain ⟨rfl, rfl, clean⟩ := place
    cases move
    cases cqDirty with
    | false => exact { invariant with place := clean rfl }
    | true =>
      exact { invariant with
        head := rfl
        epoch := rfl
        dbIdx := congrArg (· ||| _) (passTag_mod (.inr invariant.divides)).1
        acked_le := le_refl _
        window := invariant.window.trans (Nat.add_le_add_right invariant.acked_le _)
        place := rfl }
  case poll.stop =>
    cases move
    exact { invariant with
      acked_le := le_refl _
      taken_le := invariant.acked_le.trans invariant.taken_le
      place := rfl }
  all_goals cases move

theorem Invariant.faithful (invariant : cq.Invariant) : cq.Faithful := by
  have below : cq.acked % cq.depth < 2 ^ 24 :=
    (Nat.mod_lt _ invariant.depth_pos).trans_le invariant.short
  have fields : cq.dbIdx = 2 ^ 24 * (!passTag cq.depth cq.acked).toNat + cq.acked % cq.depth := by
    rw [Nat.two_pow_add_eq_or_of_lt below, invariant.dbIdx, Nat.shiftLeft_eq, Nat.mul_comm,
      Nat.or_comm]
  refine ⟨fun cqCons cqEpoch cqDirty phase => ?_, ?_, ?_⟩
  · have place := invariant.place
    simp only [Place, phase] at place
    rw [place.1]
    exact invariant.fresh_iff
  · rw [fields, Nat.mul_add_mod, Nat.mod_eq_of_lt below]
  · rw [fields, Nat.mul_add_div (by decide), Nat.div_eq_of_lt below, Nat.add_zero, passTag]
    rcases Nat.mod_two_eq_zero_or_one (cq.acked / cq.depth) with even | odd
    · rw [even]
      rfl
    · rw [odd]
      rfl

/-! ### Any number of completions -/

/-- Completions that are written, consumed and given back one by one, before the counter wraps. -/
theorem exists_run_taken (cqDepth : Nat) {count : Nat} (small : count ≤ 2 ^ 32) :
    ∃ labels cq, run step (create cqDepth) labels = some cq ∧ cq.depth = cqDepthFor cqDepth ∧
      cq.pc = .idle ∧ cq.written = count ∧ cq.acked = count ∧ cq.taken = count ∧
      cq.head = count % 2 ^ 32 := by
  induction count with
  | zero => exact ⟨[], create cqDepth, rfl, rfl, rfl, rfl, rfl, rfl, rfl⟩
  | succ count inductionHypothesis =>
    obtain ⟨labels, cq, reaches, depth, idle, written, acked, taken, head⟩ :=
      inductionHypothesis (Nat.le_of_succ_le small)
    have positive : 0 < cq.depth := by
      rw [depth, cqDepthFor]
      split_ifs <;> omega
    rw [Nat.mod_eq_of_lt small] at head
    refine ⟨labels ++ [.nic, .call, .look, .found], ?_⟩
    simp only [run_append_of_run reaches, run_cons, step, idle, written, acked,
      if_pos (Nat.lt_add_of_pos_right positive), Option.bind_some, head, fresh,
      Function.update_self, beq_self_eq_true, if_true, consume, finish, run_nil, taken]
    exact ⟨_, rfl, depth, rfl, rfl, rfl, rfl, rfl⟩

theorem exists_run_wrapped (cqDepth : Nat) :
    ∃ labels cq cqEpoch, run step (create cqDepth) labels = some cq ∧
      cq.pc = .poll 0 cqEpoch false ∧ cq.depth = cqDepthFor cqDepth ∧ cq.taken = 2 ^ 32 := by
  obtain ⟨labels, cq, reaches, depth, idle, -, -, taken, head⟩ :=
    exists_run_taken cqDepth (le_refl (2 ^ 32))
  have call : cq.step .call = some { cq with pc := .poll cq.head cq.epoch false } := by
    simp only [step, idle]
  refine ⟨labels ++ [.call], { cq with pc := .poll cq.head cq.epoch false }, cq.epoch, ?_, ?_,
    depth, taken⟩
  · rw [run_append_of_run reaches, run_cons_of_step call, run_nil]
  · rw [head, Nat.mod_self]

theorem Invariant.create {cqDepth : Nat} (divides : cqDepthFor cqDepth ∣ 2 ^ 32)
    (short : cqDepthFor cqDepth ≤ 2 ^ 24) : (create cqDepth).Invariant where
  divides := by
    obtain ⟨order, -, power⟩ := (Nat.dvd_prime_pow Nat.prime_two).mp divides
    rw [power, Nat.pow_le_pow_iff_right (by decide)] at short
    rw [Cq.create, power, ← pow_succ']
    exact pow_dvd_pow 2 (by omega)
  short := short
  head := rfl
  epoch := by simp [Cq.create, passTag]
  dbIdx := by simp [Cq.create, passTag]
  tagged := tagged_zero _ fun _ => rfl
  acked_le := le_refl _
  taken_le := le_refl _
  window := Nat.zero_le _
  place := by rfl

end

end Cq

/-- The lane and the hardware agree about every completion, in every run, exactly for the depths
that divide `2 ^ 32` and fit the field of the doorbell. -/
theorem pollCq_faithful_iff (cqDepth : Nat) :
    (∀ labels cq, run Cq.step (Cq.create cqDepth) labels = some cq → cq.Faithful) ↔
      cqDepthFor cqDepth ∣ 2 ^ 32 ∧ cqDepthFor cqDepth ≤ 2 ^ 24 := by
  constructor
  · intro faithful
    constructor
    · obtain ⟨labels, cq, cqEpoch, reaches, place, depth, taken⟩ := Cq.exists_run_wrapped cqDepth
      have slot := ((faithful labels cq reaches).look _ _ _ place).1
      rw [Nat.zero_mod, depth, taken] at slot
      exact Nat.dvd_of_mod_eq_zero slot.symm
    · by_contra long
      obtain ⟨labels, cq, reaches, depth, -, -, acked, -, -⟩ :=
        Cq.exists_run_taken cqDepth (show 2 ^ 24 ≤ 2 ^ 32 by decide)
      have index := (faithful labels cq reaches).index
      rw [acked, depth, Nat.mod_eq_of_lt (Nat.lt_of_not_le long)] at index
      exact absurd index (Nat.ne_of_lt (Nat.mod_lt _ (by decide)))
  · rintro ⟨divides, short⟩ labels cq reaches
    exact (run_invariant (fun _ _ _ => Cq.Invariant.step) (Cq.Invariant.create divides short)
      reaches).faithful

/-- With 300 entries the lane looks at slot 0 for the completion that goes to slot 196. -/
theorem pollCq_unfaithful : ∃ labels cq cqEpoch, run Cq.step (Cq.create 300) labels = some cq ∧
    cq.pc = .poll 0 cqEpoch false ∧ cq.taken % cq.depth = 196 ∧ ¬ cq.Faithful := by
  obtain ⟨labels, cq, cqEpoch, reaches, place, depth, taken⟩ := Cq.exists_run_wrapped 300
  have slot : cq.taken % cq.depth = 196 := by
    rw [depth, taken]
    rfl
  refine ⟨labels, cq, cqEpoch, reaches, place, slot, fun faithful => ?_⟩
  have looks := (faithful.look _ _ _ place).1
  rw [slot, Nat.zero_mod] at looks
  cases looks

end RocmXio.Rdma.Bnxt
