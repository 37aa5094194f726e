/-
The probes of the kernel module from load to unload.

`rocm_xio_init` registers a kprobe on `nvme_submit_user_cmd`, if injection is enabled, and two
kretprobes; the module stays loaded when a registration fails. `rocm_xio_exit` unregisters the
kretprobes by two flags of its own, but the kprobe by `inject_enabled`, a parameter that may be
written at any time. A probe that is left behind calls a handler in memory that is gone. The model
keeps the probes of the kernel apart from what the module believes.
-/

import RocmXio.Lib.Run
import RocmXio.Common.QueueMemory

namespace RocmXio.Kmod

open Lib Common

/-! ### Loading and unloading -/

/-- The probes: `nvme_kp`, `nvme_alloc_queue_krp` and `nvme_create_queue_krp`. -/
inductive ProbePoint where
  | submitUserCmd
  | allocQueue
  | createQueue
deriving DecidableEq, Repr

/-- How the calls of `rocm_xio_init` end: `none` is success. -/
structure LoadOutcomes where
  registerChrdev : Option Errno
  classCreate : Option Errno
  deviceCreate : Option Errno
  registerKprobe : Option Errno
  registerAllocQueueKrp : Option Errno
  registerCreateQueueKrp : Option Errno

/-- The variables that the probes depend on, the probes of the kernel, and the calls that unregister
one, newest first. -/
structure ProbeModule where
  loaded : Bool
  injectEnabled : Bool
  nvmeAllocQueueKrpRegistered : Bool
  nvmeCreateQueueKrpRegistered : Bool
  armed : ProbePoint → Bool
  unregistered : List ProbePoint

/-- What happens while the module is there and after: a write of the parameter, a call of a
handler, the unloading. -/
inductive ProbeModuleLabel where
  | write (value : Bool)
  | hit (point : ProbePoint)
  | unload
deriving DecidableEq, Repr

namespace ProbeModule

/-- The part of `rocm_xio_init` about probes, after the device was created. -/
def registerProbes (injectEnabled : Bool) (outcomes : LoadOutcomes) : ProbeModule where
  loaded := true
  injectEnabled := if injectEnabled then outcomes.registerKprobe.isNone else false
  nvmeAllocQueueKrpRegistered := outcomes.registerAllocQueueKrp.isNone
  nvmeCreateQueueKrpRegistered := outcomes.registerCreateQueueKrp.isNone
  armed
    | .submitUserCmd => injectEnabled && outcomes.registerKprobe.isNone
    | .allocQueue => outcomes.registerAllocQueueKrp.isNone
    | .createQueue => outcomes.registerCreateQueueKrp.isNone
  unregistered := []

def rocmXioInit (injectEnabled : Bool) (outcomes : LoadOutcomes) : Except Errno ProbeModule :=
  match outcomes.registerChrdev, outcomes.classCreate, outcomes.deviceCreate with
  | some errno, _, _ => .error errno
  | none, some errno, _ => .error errno
  | none, none, some errno => .error errno
  | none, none, none => .ok (registerProbes injectEnabled outcomes)

/-- `unregister_kprobe` and `unregister_kretprobe`. -/
def unregister (state : ProbeModule) (point : ProbePoint) : ProbeModule :=
  { state with
    armed := Function.update state.armed point false
    unregistered := point :: state.unregistered }

/-- The part of `rocm_xio_exit` about probes. -/
def rocmXioExit (state : ProbeModule) : ProbeModule :=
  let state := if state.injectEnabled then state.unregister .submitUserCmd else state
  let state :=
    if state.nvmeAllocQueueKrpRegistered then
      { state.unregister .allocQueue with nvmeAllocQueueKrpRegistered := false }
    else state
  let state :=
    if state.nvmeCreateQueueKrpRegistered then
      { state.unregister .createQueue with nvmeCreateQueueKrpRegistered := false }
    else state
  { state with loaded := false }

/-- One event. The parameter exists while the module is loaded; the kernel calls the handlers of its
probes. -/
def step (state : ProbeModule) : ProbeModuleLabel → Option ProbeModule
  | .write value => if state.loaded then some { state with injectEnabled := value } else none
  | .hit point => if state.armed point then some state else none
  | .unload => if state.loaded then some state.rocmXioExit else none

/-! ### What ought to hold -/

/-- After unloading, each probe was unregistered exactly if it was registered, and once, and no
handler is called again. -/
structure Paired (start state : ProbeModule) : Prop where
  exactly : ∀ point, point ∈ state.unregistered ↔ start.armed point = true
  once : state.unregistered.Nodup
  silent : ∀ labels later, run step state labels = some later → ∀ point,
    later.step (.hit point) = none

def lastWrite : List ProbeModuleLabel → Option Bool
  | [] => none
  | .write value :: rest => (lastWrite rest).or (some value)
  | .hit _ :: rest | .unload :: rest => lastWrite rest

section

variable {start state next : ProbeModule} {inject : Bool} {outcomes : LoadOutcomes}

theorem start_of_init (loads : rocmXioInit inject outcomes = .ok start) :
    start = registerProbes inject outcomes := by
  unfold rocmXioInit at loads
  split at loads
  case h_4 => exact (Except.ok.inj loads).symm
  all_goals cases loads

theorem step_cases {label : ProbeModuleLabel} (move : state.step label = some next) :
    (∃ value, label = .write value ∧ state.loaded = true ∧
        next = { state with injectEnabled := value }) ∨
      (∃ point, label = .hit point ∧ state.armed point = true ∧ next = state) ∨
      (label = .unload ∧ state.loaded = true ∧ next = state.rocmXioExit) := by
  cases label with
  | write value =>
    obtain ⟨loaded, ⟨⟩⟩ := Option.ite_none_right_eq_some.mp move
    exact .inl ⟨value, rfl, loaded, rfl⟩
  | hit point =>
    obtain ⟨armed, ⟨⟩⟩ := Option.ite_none_right_eq_some.mp move
    exact .inr (.inl ⟨point, rfl, armed, rfl⟩)
  | unload =>
    obtain ⟨loaded, ⟨⟩⟩ := Option.ite_none_right_eq_some.mp move
    exact .inr (.inr ⟨rfl, loaded, rfl⟩)

/-- What `rocm_xio_exit` goes by. -/
def believes (state : ProbeModule) : ProbePoint → Bool
  | .submitUserCmd => state.injectEnabled
  | .allocQueue => state.nvmeAllocQueueKrpRegistered
  | .createQueue => state.nvmeCreateQueueKrpRegistered

theorem exit_injectEnabled (state : ProbeModule) :
    state.rocmXioExit.injectEnabled = state.injectEnabled := by
  simp only [rocmXioExit, unregister]
  split_ifs <;> rfl

theorem exit_armed (state : ProbeModule) (point : ProbePoint) :
    state.rocmXioExit.armed point = (state.armed point && !state.believes point) := by
  cases point <;> simp only [rocmXioExit, unregister, believes] <;> split_ifs <;> simp_all

theorem mem_exit_unregistered (empty : state.unregistered = []) (point : ProbePoint) :
    point ∈ state.rocmXioExit.unregistered ↔ state.believes point = true := by
  cases point <;> simp only [rocmXioExit, unregister, believes] <;> split_ifs <;> simp_all

theorem exit_unregistered_nodup (empty : state.unregistered = []) :
    state.rocmXioExit.unregistered.Nodup := by
  obtain ⟨loaded, inject, alloc, create, armed, unregistered⟩ := state
  subst empty
  cases inject <;> cases alloc <;> cases create <;> simp [rocmXioExit, unregister]

/-! ### From load to unload -/

theorem injectEnabled_of_run {labels : List ProbeModuleLabel}
    (reaches : run step state labels = some next) :
    next.injectEnabled = (lastWrite labels).getD state.injectEnabled := by
  induction labels generalizing state with
  | nil =>
    cases reaches
    rfl
  | cons label rest inductionHypothesis =>
    obtain ⟨middle, move, further⟩ := Option.bind_eq_some_iff.mp reaches
    rw [inductionHypothesis further]
    rcases step_cases move with ⟨value, rfl, -, rfl⟩ | ⟨point, rfl, -, rfl⟩ | ⟨rfl, -, rfl⟩
    · rw [lastWrite]
      cases lastWrite rest <;> rfl
    · rfl
    · rw [lastWrite, exit_injectEnabled]

/-- While the module is loaded, the kernel has the probes of the start, and the module knows
about the kretprobes. -/
structure Live (start state : ProbeModule) : Prop where
  loaded : state.loaded = true
  armed : state.armed = start.armed
  kretprobes : ∀ point, point ≠ .submitUserCmd → state.believes point = start.armed point
  untouched : state.unregistered = []

theorem registerProbes_live (inject : Bool) (outcomes : LoadOutcomes) :
    Live (registerProbes inject outcomes) (registerProbes inject outcomes) where
  loaded := rfl
  armed := rfl
  kretprobes point other := by
    cases point with
    | submitUserCmd => exact absurd rfl other
    | allocQueue | createQueue => rfl
  untouched := rfl

def Lived (start state : ProbeModule) : Prop :=
  Live start state ∨ ∃ before, Live start before ∧ state = before.rocmXioExit

theorem Lived.step {label : ProbeModuleLabel} (lived : Lived start state)
    (move : state.step label = some next) : Lived start next := by
  rcases lived with live | ⟨before, live, rfl⟩
  · rcases step_cases move with ⟨value, rfl, -, rfl⟩ | ⟨point, rfl, -, rfl⟩ | ⟨rfl, -, rfl⟩
    · refine .inl ⟨live.loaded, live.armed, fun point other => ?_, live.untouched⟩
      rw [← live.kretprobes point other]
      cases point with
      | submitUserCmd => exact absurd rfl other
      | allocQueue | createQueue => rfl
    · exact .inl live
    · exact .inr ⟨state, live, rfl⟩
  · -- An unloaded module has no parameter and cannot be unloaded again.
    rcases step_cases move with ⟨value, rfl, loaded, -⟩ | ⟨point, rfl, -, rfl⟩ | ⟨rfl, loaded, -⟩
    · cases loaded
    · exact .inr ⟨before, live, rfl⟩
    · cases loaded

theorem silent_of_disarmed (gone : state.loaded = false)
    (disarmed : ∀ point, state.armed point = false) {labels : List ProbeModuleLabel}
    (reaches : run step state labels = some next) (point : ProbePoint) :
    next.step (.hit point) = none := by
  have same : next = state := run_invariant (motive := fun later => later = state)
      (fun later label after same move => by
        subst same
        rcases step_cases move with ⟨value, rfl, loaded, -⟩ | ⟨point, rfl, armed, -⟩ |
          ⟨rfl, loaded, -⟩
        · exact absurd (gone.symm.trans loaded) Bool.false_ne_true
        · exact absurd ((disarmed point).symm.trans armed) Bool.false_ne_true
        · exact absurd (gone.symm.trans loaded) Bool.false_ne_true)
      rfl reaches
  rw [same]
  exact if_neg (by rw [disarmed point]; exact Bool.false_ne_true)

theorem Live.paired_exit_iff (live : Live start state) :
    Paired start state.rocmXioExit ↔ state.injectEnabled = start.armed .submitUserCmd := by
  constructor
  · intro paired
    have kprobe := paired.exactly .submitUserCmd
    rw [mem_exit_unregistered live.untouched] at kprobe
    exact Bool.eq_iff_iff.mpr kprobe
  · intro same
    have believed : ∀ point, state.believes point = start.armed point := by
      intro point
      by_cases other : point = .submitUserCmd
      · rw [other]
        exact same
      · exact live.kretprobes point other
    refine ⟨fun point => ?_, exit_unregistered_nodup live.untouched, fun labels later reaches =>
      silent_of_disarmed rfl (fun point => ?_) reaches⟩
    · rw [mem_exit_unregistered live.untouched, believed]
    · rw [exit_armed, live.armed, believed, Bool.and_not_self]

/-- After every history that ends with the module unloaded, each probe was unregistered exactly if
it had been registered and no handler runs any more, if and only if the value last written to the
parameter, if any, tells whether the kprobe was registered. -/
theorem rocmXioExit_paired_iff {labels : List ProbeModuleLabel}
    (loads : rocmXioInit inject outcomes = .ok start)
    (reaches : run step start labels = some state) (gone : state.loaded = false) :
    Paired start state ↔ ∀ value, lastWrite labels = some value →
      value = (inject && outcomes.registerKprobe.isNone) := by
  obtain rfl := start_of_init loads
  have lived : Lived (registerProbes inject outcomes) state :=
    run_invariant (motive := Lived (registerProbes inject outcomes))
      (fun _ _ _ lived move => lived.step move) (.inl (registerProbes_live inject outcomes))
      reaches
  have parameter := injectEnabled_of_run reaches
  rcases lived with live | ⟨before, live, rfl⟩
  · exact absurd (gone.symm.trans live.loaded) Bool.false_ne_true
  · rw [live.paired_exit_iff, ← exit_injectEnabled, parameter]
    cases lastWrite labels <;> simp [registerProbes]

end

/-! ### Histories -/

/-- All calls of `rocm_xio_init` succeed. -/
def allSucceed : LoadOutcomes := ⟨none, none, none, none, none, none⟩

def switchedBack : List ProbeModuleLabel :=
  [.write false, .hit .submitUserCmd, .write true, .unload]

theorem rocmXioExit_paired_switchedBack : ∃ start state, rocmXioInit true allSucceed = .ok start ∧
      run step start switchedBack = some state ∧ state.loaded = false ∧ Paired start state := by
  refine ⟨_, _, rfl, rfl, rfl, ?_⟩
  have loads : rocmXioInit true allSucceed = .ok (registerProbes true allSucceed) := rfl
  have reaches : run step (registerProbes true allSucceed) switchedBack = some _ := rfl
  refine (rocmXioExit_paired_iff loads reaches rfl).mpr ?_
  rintro value ⟨⟩
  rfl

/-- Injection switched off leaves the kprobe behind, and its handler runs in a module that is gone;
switched on although the kprobe could not be registered, a probe that is not there is unregistered.
-/
theorem rocmXioExit_unpaired : (∃ start state, rocmXioInit true allSucceed = .ok start ∧
      run step start [.write false, .unload] = some state ∧ state.loaded = false ∧
      state.step (.hit .submitUserCmd) = some state ∧ ¬ Paired start state) ∧
    ∃ start state,
      rocmXioInit true { allSucceed with registerKprobe := some Errno.EINVAL } = .ok start ∧
      run step start [.write true, .unload] = some state ∧ state.loaded = false ∧
      start.armed .submitUserCmd = false ∧ ProbePoint.submitUserCmd ∈ state.unregistered ∧
      ¬ Paired start state := by
  refine ⟨⟨_, _, rfl, rfl, rfl, rfl, fun paired => ?_⟩,
    ⟨_, _, rfl, rfl, rfl, rfl, by decide, fun paired => ?_⟩⟩
  · exact absurd (paired.silent [] _ rfl .submitUserCmd) (Option.some_ne_none _)
  · have registered := (paired.exactly .submitUserCmd).mp (by decide)
    exact absurd registered (by decide)

end ProbeModule

end RocmXio.Kmod
