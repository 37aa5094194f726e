/-
The send queue of the emulated ernic device, driven by one lane.

The lane keeps a head and a tail slot; the producer index shared with the device runs over twice the
depth. A doorbell moves it by one, whatever was written since the previous one, while a quiet waits
for every request. The bookkeeping is right as long as the masks act as remainders, as for powers of
two, and no poll ends with a full ring, which looks empty.
-/

import RocmXio.Lib.Ring
import RocmXio.Rdma.Config

namespace RocmXio.Rdma.Ernic

open Lib

/-! ### States -/

/-- Who called `poll_cq_until`: `write_rma_wqe` on behalf of a post, or a quiet. -/
inductive Caller where
  | post (ringDb : Bool)
  | quiet
deriving DecidableEq, Repr

/-- Where the lane is. `rung` and `quieted` are the states in which a doorbell and a quiet
have just returned. -/
inductive Pc where
  | idle
  | poll (caller : Caller)
  | write (ringDb : Bool)
  | ring
  | rung
  | quieted
deriving DecidableEq, Repr

/-- The queue pair, the indices shared with the device, and as history how many requests were
written, doorbells rung, requests completed and completions taken. -/
structure Qp where
  depth : Nat
  cqDepth : Nat
  head : Nat
  tail : Nat
  prodTail : Nat
  cqProd : Nat
  cqCons : Nat
  slots : Nat → Option Nat
  pc : Pc
  written : Nat
  doorbells : Nat
  done : Nat
  taken : Nat

inductive Label where
  | call (caller : Caller)
  | doorbell
  | lane
  | nic
deriving DecidableEq, Repr

namespace Qp

def create (depth cqDepth : Nat) : Qp where
  depth := depth
  cqDepth := cqDepth
  head := 0
  tail := 0
  prodTail := 0
  cqProd := 0
  cqCons := 0
  slots := fun _ => none
  pc := .idle
  written := 0
  doorbells := 0
  done := 0
  taken := 0

/-! ### The lane -/

/-- The mask `(depth << 1) - 1` of a ring index, in 32 bits. -/
def ringMask (depth : Nat) : Nat :=
  (depth * 2 + 2 ^ 32 - 1) % 2 ^ 32

/-- A slot index is followed by the next one, and the last one by zero. -/
def advance (depth index : Nat) : Nat :=
  if depth ≤ index + 1 then 0 else index + 1

/-- The slot at a byte offset of `index * wqe_size` with 128 bytes a slot, in 32 bits. -/
def getSqWqe (index : Nat) : Nat :=
  index * 128 % 2 ^ 32 / 128

def requested (qp : Qp) : Caller → Nat
  | .post _ => 1
  | .quiet => qp.depth

def available (qp : Qp) : Nat :=
  qp.depth - (qp.tail + 2 ^ 32 - qp.head + qp.depth) % 2 ^ 32 % qp.depth

/-- The lane takes one completion, if the indices of the completion queue differ. -/
def takeCqe (qp : Qp) : Qp :=
  if qp.cqProd ≠ qp.cqCons then
    { qp with
      cqCons := (qp.cqCons + 1) &&& ringMask qp.cqDepth
      head := advance qp.depth qp.head
      taken := qp.taken + 1 }
  else qp

/-- `poll_cq_until` returns to its caller. -/
def proceed (qp : Qp) : Caller → Qp
  | .post ringDb => { qp with pc := .write ringDb }
  | .quiet => { qp with pc := .quieted }

/-- One turn of the loop of `poll_cq_until`. -/
def pollTurn (qp : Qp) (caller : Caller) : Qp :=
  if qp.requested caller ≤ qp.takeCqe.available then qp.takeCqe.proceed caller else qp.takeCqe

/-- `write_rma_wqe` after the poll. -/
def writeRmaWqe (qp : Qp) (ringDb : Bool) : Qp :=
  { qp with
    slots := store qp.slots [getSqWqe qp.tail] (some qp.written)
    tail := advance qp.depth qp.tail
    written := qp.written + 1
    pc := if ringDb then .ring else .idle }

def ringDoorbell (qp : Qp) : Qp :=
  { qp with
    prodTail := (qp.prodTail + 1) &&& ringMask qp.depth
    doorbells := qp.doorbells + 1
    pc := .rung }

def ready (qp : Qp) : Bool :=
  match qp.pc with
  | .idle | .rung | .quieted => true
  | .poll _ | .write _ | .ring => false

/-! ### The device and the system -/

def complete (qp : Qp) : Qp :=
  { qp with
    cqProd := (qp.done + 1) % (2 * qp.cqDepth)
    done := qp.done + 1 }

/-- The device takes the next request that was written once the producer index is past it, if the
completion queue has room. -/
def step (qp : Qp) : Label → Option Qp
  | .call caller => if qp.ready then some { qp with pc := .poll caller } else none
  | .doorbell => if qp.ready then some { qp with pc := .ring } else none
  | .lane =>
    match qp.pc with
    | .poll caller => some (qp.pollTurn caller)
    | .write ringDb => some (qp.writeRmaWqe ringDb)
    | .ring => some qp.ringDoorbell
    | .idle | .rung | .quieted => none
  | .nic =>
    if qp.done < qp.written ∧ qp.done % (2 * qp.depth) ≠ qp.prodTail ∧
        qp.done < qp.taken + qp.cqDepth then some qp.complete
    else none

/-! ### The property -/

/-- After a doorbell the producer index says what was written, no request is overwritten
before it is completed, and a quiet that has returned has waited for all of them. -/
structure FlowControlled (qp : Qp) : Prop where
  published : qp.pc = .rung → qp.prodTail = qp.written % (2 * qp.depth)
  intact : Holds qp.depth 1 qp.done qp.written some qp.slots
  quiet : qp.pc = .quieted → qp.done = qp.written

/-- The mask of a ring index acts on the next index as a remainder. -/
def Masks (depth index : Nat) : Prop :=
  (index + 1) &&& ringMask depth = (index + 1) % (2 * depth)

instance Masks.decidable (depth index : Nat) : Decidable (Masks depth index) :=
  inferInstanceAs (Decidable (_ = _))

/-- A poll of a ring that is full, as the lane counts it, finds a completion; the offset of a slot
fits 32 bits; a doorbell has a request to tell of; and the masks used are remainders. -/
def Orderly (qp : Qp) : Label → Prop
  | .lane =>
    match qp.pc with
    | .poll _ => (qp.written - qp.taken ≠ qp.depth ∨ qp.cqProd ≠ qp.cqCons) ∧
        (qp.cqProd ≠ qp.cqCons → Masks qp.cqDepth qp.cqCons)
    | .write _ => getSqWqe qp.tail = qp.tail
    | .ring => qp.doorbells < qp.written ∧ Masks qp.depth qp.prodTail
    | .idle | .rung | .quieted => True
  | .call _ | .doorbell | .nic => True

/-- The condition on a step: as above, and each request has a doorbell of its own. -/
def Careful (qp : Qp) (label : Label) : Prop :=
  qp.Orderly label ∧ (label = .lane → qp.pc = .ring → qp.written = qp.doorbells + 1)

instance Orderly.decidable (qp : Qp) : ∀ label, Decidable (qp.Orderly label)
  | .lane => by
    unfold Orderly
    cases qp.pc <;> infer_instance
  | .call _ | .doorbell | .nic => inferInstanceAs (Decidable True)

instance Careful.decidable (qp : Qp) (label : Label) : Decidable (qp.Careful label) :=
  inferInstanceAs (Decidable (_ ∧ _))

/-! ### The invariant -/

def Place (qp : Qp) : Prop :=
  match qp.pc with
  | .idle | .poll _ | .ring | .rung => True
  | .write _ => qp.written < qp.taken + qp.depth
  | .quieted => qp.taken = qp.written

/-- The indices are those of the counts, the ring is not overfilled, and the slots hold the
requests that are not completed. -/
structure Invariant (qp : Qp) : Prop where
  depth_pos : 0 < qp.depth
  depth_le : qp.depth ≤ 2 ^ 31
  cq_pos : 0 < qp.cqDepth
  head : qp.head = qp.taken % qp.depth
  tail : qp.tail = qp.written % qp.depth
  prodTail : qp.prodTail = qp.doorbells % (2 * qp.depth)
  cqProd : qp.cqProd = qp.done % (2 * qp.cqDepth)
  cqCons : qp.cqCons = qp.taken % (2 * qp.cqDepth)
  doorbells_le : qp.doorbells ≤ qp.written
  done_le : qp.done ≤ qp.doorbells
  taken_le : qp.taken ≤ qp.done
  cqRoom : qp.done ≤ qp.taken + qp.cqDepth
  room : qp.written ≤ qp.taken + qp.depth
  intact : Holds qp.depth 1 qp.done qp.written some qp.slots
  place : qp.Place

theorem create_invariant {depth cqDepth : Nat} (positive : 0 < depth) (short : depth ≤ 2 ^ 31)
    (cqPositive : 0 < cqDepth) : (create depth cqDepth).Invariant where
  depth_pos := positive
  depth_le := short
  cq_pos := cqPositive
  head := (Nat.zero_mod _).symm
  tail := (Nat.zero_mod _).symm
  prodTail := (Nat.zero_mod _).symm
  cqProd := (Nat.zero_mod _).symm
  cqCons := (Nat.zero_mod _).symm
  doorbells_le := le_refl 0
  done_le := le_refl 0
  taken_le := le_refl 0
  cqRoom := Nat.zero_le _
  room := Nat.zero_le _
  intact := holds_empty _ _ _ _ _
  place := trivial

theorem advance_mod {depth : Nat} (positive : 0 < depth) (count : Nat) :
    advance depth (count % depth) = (count + 1) % depth := by
  have inside := Nat.mod_lt count positive
  rw [← Nat.mod_add_mod, advance]
  split_ifs
  case pos last =>
    have whole : count % depth + 1 = depth := by omega
    rw [whole, Nat.mod_self]
  case neg more => exact (Nat.mod_eq_of_lt (Nat.lt_of_not_le more)).symm

section

variable {qp next : Qp}

section

variable (invariant : qp.Invariant)
include invariant

theorem Invariant.available_eq (notFull : qp.written < qp.taken + qp.depth) :
    qp.available = qp.depth - (qp.written - qp.taken) := by
  have bound := invariant.depth_le
  have ordered : qp.taken ≤ qp.written :=
    Nat.le_trans invariant.taken_le (Nat.le_trans invariant.done_le invariant.doorbells_le)
  rw [available, invariant.tail, invariant.head, distance_word ordered (by omega) (by omega)]

theorem Invariant.fresh_iff : qp.cqProd ≠ qp.cqCons ↔ qp.taken < qp.done := by
  have ordered := invariant.taken_le
  have window := invariant.cqRoom
  rw [invariant.cqProd, invariant.cqCons]
  constructor
  · intro apart
    refine Nat.lt_of_le_of_ne ordered fun same => apart ?_
    rw [same]
  · intro more same
    have equal := eq_of_mod_eq_of_window same.symm ordered (by omega)
    omega

theorem Invariant.takeCqe {caller : Caller} (polling : qp.pc = .poll caller)
    (masks : qp.cqProd ≠ qp.cqCons → Masks qp.cqDepth qp.cqCons) :
    qp.takeCqe.Invariant := by
  unfold Qp.takeCqe
  split_ifs
  case pos apart =>
    refine { invariant with
      head := ?_, cqCons := ?_, taken_le := invariant.fresh_iff.mp apart,
      cqRoom := Nat.le_trans invariant.cqRoom (Nat.add_le_add_right (Nat.le_succ _) _),
      room := Nat.le_trans invariant.room (Nat.add_le_add_right (Nat.le_succ _) _),
      place := ?_ }
    · rw [invariant.head, advance_mod invariant.depth_pos]
    · rw [masks apart, invariant.cqCons, Nat.mod_add_mod]
    · simp only [Place, polling]
  case neg => exact invariant

theorem Invariant.takeCqe_room (finds : qp.written - qp.taken ≠ qp.depth ∨ qp.cqProd ≠ qp.cqCons) :
    qp.takeCqe.written < qp.takeCqe.taken + qp.takeCqe.depth := by
  have room := invariant.room
  unfold Qp.takeCqe
  split_ifs
  case pos =>
    show qp.written < qp.taken + 1 + qp.depth
    omega
  case neg none =>
    omega

end

theorem takeCqe_pc (qp : Qp) : qp.takeCqe.pc = qp.pc := by
  unfold takeCqe
  split <;> rfl

theorem takeCqe_depth (qp : Qp) : qp.takeCqe.depth = qp.depth := by
  unfold takeCqe
  split <;> rfl

section

variable (invariant : qp.Invariant)
include invariant

theorem Invariant.pollTurn {caller : Caller} (polling : qp.pc = .poll caller)
    (finds : qp.written - qp.taken ≠ qp.depth ∨ qp.cqProd ≠ qp.cqCons)
    (masks : qp.cqProd ≠ qp.cqCons → Masks qp.cqDepth qp.cqCons) :
    (qp.pollTurn caller).Invariant := by
  have took := invariant.takeCqe polling masks
  have room := invariant.takeCqe_room finds
  unfold Qp.pollTurn
  split_ifs
  case pos enough =>
    cases caller with
    | post ringDb => exact { took with place := room }
    | quiet =>
      have positive := took.depth_pos
      have ordered : qp.takeCqe.taken ≤ qp.takeCqe.written :=
        Nat.le_trans took.taken_le (Nat.le_trans took.done_le took.doorbells_le)
      rw [took.available_eq room, requested, takeCqe_depth] at enough
      rw [takeCqe_depth] at positive
      have empty : qp.takeCqe.taken = qp.takeCqe.written := by omega
      exact { took with place := empty }
  case neg => exact took

theorem Invariant.writeRmaWqe {ringDb : Bool} (writing : qp.pc = .write ringDb)
    (fits : getSqWqe qp.tail = qp.tail) :
    (qp.writeRmaWqe ringDb).Invariant := by
  have free := invariant.place
  simp only [Place, writing] at free
  have taken := invariant.taken_le
  refine { invariant with
    tail := ?_, doorbells_le := Nat.le_succ_of_le invariant.doorbells_le, room := free,
    intact := ?_, place := ?_ }
  · show advance qp.depth qp.tail = (qp.written + 1) % qp.depth
    rw [invariant.tail, advance_mod invariant.depth_pos]
  · show Holds qp.depth 1 qp.done (qp.written + 1) some (store qp.slots [getSqWqe qp.tail] _)
    rw [fits, invariant.tail]
    exact invariant.intact.push (by omega)
  · cases ringDb <;> exact trivial

theorem Invariant.ringDoorbell (more : qp.doorbells < qp.written)
    (masks : Masks qp.depth qp.prodTail) : qp.ringDoorbell.Invariant :=
  { invariant with
    prodTail := by
      show (qp.prodTail + 1) &&& ringMask qp.depth = (qp.doorbells + 1) % (2 * qp.depth)
      rw [masks, invariant.prodTail, Nat.mod_add_mod]
    doorbells_le := more
    done_le := Nat.le_succ_of_le invariant.done_le
    place := trivial }

theorem Invariant.complete (told : qp.done % (2 * qp.depth) ≠ qp.prodTail)
    (slot : qp.done < qp.taken + qp.cqDepth) :
    qp.complete.Invariant := by
  have ordered := invariant.done_le
  have more : qp.done < qp.doorbells := by
    refine Nat.lt_of_le_of_ne ordered fun same => told ?_
    rw [invariant.prodTail, same]
  exact { invariant with
    cqProd := rfl
    done_le := more
    taken_le := Nat.le_succ_of_le invariant.taken_le
    cqRoom := slot
    intact := invariant.intact.drop (Nat.le_succ _)
    place := invariant.place }

theorem Invariant.step {label : Label} (orderly : qp.Orderly label)
    (move : qp.step label = some next) : next.Invariant := by
  cases label with
  | call caller =>
    obtain ⟨-, ⟨⟩⟩ := Option.ite_none_right_eq_some.mp move
    exact { invariant with place := trivial }
  | doorbell =>
    obtain ⟨-, ⟨⟩⟩ := Option.ite_none_right_eq_some.mp move
    exact { invariant with place := trivial }
  | lane =>
    cases place : qp.pc <;> simp only [Qp.step, Orderly, place] at move orderly
    case poll =>
      cases move
      exact invariant.pollTurn place orderly.1 orderly.2
    case write =>
      cases move
      exact invariant.writeRmaWqe place orderly
    case ring =>
      cases move
      exact invariant.ringDoorbell orderly.1 orderly.2
    all_goals cases move
  | nic =>
    obtain ⟨⟨-, told, slot⟩, ⟨⟩⟩ := Option.ite_none_right_eq_some.mp move
    exact invariant.complete told slot

theorem Invariant.drained (quieted : qp.pc = .quieted) :
    qp.doorbells = qp.written ∧ qp.done = qp.written := by
  have taken := invariant.taken_le
  have done := invariant.done_le
  have doorbells := invariant.doorbells_le
  have place := invariant.place
  simp only [Place, quieted] at place
  omega

end

/-! ### Doorbells -/

theorem pollTurn_pc_ne_rung {caller : Caller} (polling : qp.pc = .poll caller) :
    (qp.pollTurn caller).pc ≠ .rung := by
  unfold pollTurn
  split_ifs
  case pos => cases caller <;> exact Pc.noConfusion
  case neg =>
    rw [takeCqe_pc, polling]
    exact Pc.noConfusion

theorem doorbell_step {label : Label} (careful : qp.Careful label)
    (move : qp.step label = some next) (before : qp.pc = .rung → qp.doorbells = qp.written)
    (after : next.pc = .rung) : next.doorbells = next.written := by
  cases label with
  | call caller =>
    obtain ⟨-, ⟨⟩⟩ := Option.ite_none_right_eq_some.mp move
    exact Pc.noConfusion after
  | doorbell =>
    obtain ⟨-, ⟨⟩⟩ := Option.ite_none_right_eq_some.mp move
    exact Pc.noConfusion after
  | lane =>
    cases place : qp.pc <;> simp only [Qp.step, place] at move
    case poll =>
      cases move
      exact absurd after (pollTurn_pc_ne_rung place)
    case write ringDb =>
      cases move
      cases ringDb <;> exact Pc.noConfusion after
    case ring =>
      cases move
      exact (careful.2 rfl place).symm
    all_goals cases move
  | nic =>
    obtain ⟨-, ⟨⟩⟩ := Option.ite_none_right_eq_some.mp move
    exact before after

theorem Invariant.flowControlled (invariant : qp.Invariant)
    (own : qp.pc = .rung → qp.doorbells = qp.written) : qp.FlowControlled where
  published := fun rung => by rw [invariant.prodTail, own rung]
  intact := invariant.intact
  quiet := fun quieted => (invariant.drained quieted).2

end

/-- In every run of careful steps a doorbell publishes what was written, no request is overwritten
before it is completed, and a quiet waits for all of them. -/
theorem ernic_flow_controlled (depth cqDepth : Nat) (positive : 0 < depth)
    (short : depth ≤ 2 ^ 31) (cqPositive : 0 < cqDepth) (labels : List Label) (qp : Qp)
    (reaches : run step (create depth cqDepth) labels = some qp)
    (careful : EveryStep step Careful (create depth cqDepth) labels) : qp.FlowControlled := by
  have kept : qp.Invariant ∧ (qp.pc = .rung → qp.doorbells = qp.written) :=
    run_invariant_of_everyStep
      (motive := fun qp => qp.Invariant ∧ (qp.pc = .rung → qp.doorbells = qp.written))
      (fun _ _ _ held careful move =>
        ⟨held.1.step careful.1 move, doorbell_step careful move held.2⟩)
      ⟨create_invariant positive short cqPositive, fun rung => Pc.noConfusion rung⟩ careful reaches
  exact kept.1.flowControlled kept.2

def twoPuts : List Label :=
  [.call (.post true), .lane, .lane, .lane, .nic, .call (.post true), .lane, .lane, .lane, .nic,
    .call .quiet, .lane]

theorem ernic_flow_controlled_twoPuts :
    ∃ qp, run step (create 4 4) twoPuts = some qp ∧ qp.pc = .quieted ∧ qp.FlowControlled :=
  ⟨_, rfl, rfl, ernic_flow_controlled 4 4 (by decide) (by decide) (by decide) twoPuts _ rfl
    (by decide)⟩

/-- What the coordinator of `rdma_ep_batch_kernel` calls for one batch. -/
def batchCalls (batchCount : Nat) : List Label :=
  List.replicate batchCount (.call (.post false)) ++ [.doorbell, .call .quiet]

def isCall : Label → Bool
  | .call _ | .doorbell => true
  | .lane | .nic => false

/-- An accepted configuration whose first batch publishes one request of two. -/
theorem ernic_batch_publishes_one : ∃ (config : RdmaEpConfig) (labels : List Label) (qp : Qp),
    (config.validateConfig 1024).2 = "" ∧
    labels.filter isCall <+: batchCalls config.batchSize ∧
    run step (create config.sqDepth 256) labels = some qp ∧ ¬ qp.FlowControlled :=
  ⟨{ providerStr := "ernic", batchSize := 2 },
    [.call (.post false), .lane, .lane, .call (.post false), .lane, .lane, .doorbell, .lane], _,
    by decide, by decide, rfl, fun controlled => absurd (controlled.published rfl) (by decide)⟩

end Qp

end RocmXio.Rdma.Ernic
