/-
The queues an endpoint run takes over.

`validateConfig` resolves every `--controller` to a device, refuses one that was named before, and
gives each target its highest queue id: the one from the command line, or one below the controller's
maximum that the CPUs of the process do not use. `run` then sets up `numQueues` lanes per target, on
the queue ids that end there. This file says when the lanes are pairwise different, exist on their
controllers and leave half of the queues to the kernel. The id from the command line is never
compared with the maximum, nor a single lane with the number of queues.
-/

import RocmXio.Nvme.CpuList

namespace RocmXio.Nvme

open Lib

/-! ### What the host answers -/

structure NvmeDevicePath where
  controllerPath : String
  namespacePath : String
  deriving DecidableEq

/-- The devices of a machine as the library sees them; an error is the text of its `errno`. -/
structure Host where
  resolveNvmeDevicePath : String → Nat → Except String NvmeDevicePath
  /-- `queue_count` of a controller: the admin queue and the I/O queues. -/
  queueCount : String → Nat
  queueCountReadable : String → Bool
  /-- The answer of `sched_getaffinity`. -/
  affinity : Option CpuSet
  /-- The last component of the real path of a namespace. -/
  namespaceName : String → Option String
  /-- The content of `/sys/block/<ns>/mq/<n>/cpu_list`. -/
  cpuListFile : String → Nat → Option (List Char)
  queryLbaSize : String → Nat → Except String Nat
  detectBdfFromDevice : String → Except String Nat

namespace Host

def maxQueueId (host : Host) (controller : String) : Nat := host.queueCount controller - 1

def queryMaxQueueId (host : Host) (controller : String) : Option UInt16 :=
  if host.queueCountReadable controller then
    if host.queueCount controller < 2 then none
    else some (UInt16.ofNat (host.queueCount controller - 1))
  else none

/-- A queue whose mapping to CPUs is known and has no CPU of the process. -/
def queueFree (host : Host) (affinity : CpuSet) (ns : String) (qid : Nat) : Bool :=
  match host.cpuListFile ns (qid - 1) with
  | none | some [] => false
  | some file => !cpuListFileIntersects file affinity

/-- The loop over the queue ids of the range that ends at `endQid`. -/
def rangeFree (host : Host) (affinity : CpuSet) (ns : String) (numQueues endQid : Nat) : Bool :=
  -- After queue 65535 the 16-bit counter starts again at 0, whose mapping there is none.
  if endQid = 65535 then false
  else (List.range' (endQid + 1 - numQueues) numQueues).all (host.queueFree affinity ns)

/-- `selectQueueIdOutsideCurrentAffinity`; none is `-EINVAL`. -/
def selectQueueIdOutsideCurrentAffinity (host : Host) (path : NvmeDevicePath)
    (maxQueueId numQueues : UInt16) : Option UInt16 :=
  if maxQueueId = 0 ∨ numQueues = 0 then none
  else
    match host.affinity, host.namespaceName path.namespacePath with
    | some affinity, some ns =>
      let ends := (List.range' numQueues.toNat (maxQueueId.toNat + 1 - numQueues.toNat)).reverse
      match ends.find? (host.rangeFree affinity ns numQueues.toNat) with
      | some endQid => some (UInt16.ofNat endQid)
      | none => some maxQueueId
    | _, _ => some maxQueueId

end Host

/-! ### The targets -/

/-- The fields of `nvmeEpConfig` that the targets and lanes depend on. -/
structure NvmeEpConfig where
  controllers : List String
  controller : String
  queueId : UInt16
  numQueues : UInt16
  nsid : Nat
  usePciMmioBridge : Bool
  forceQueueHijack : Bool

structure NvmeTarget where
  controller : String
  topQueueId : UInt16
  nsid : Nat
  lbaSize : Nat
  nvmeTargetBdf : Nat
  deriving DecidableEq

/-- A message that is printed into a buffer of `size` characters. -/
def message (size : Nat) (text : String) : String := String.ofList (snprintf size text.toList)

def refuse (condition : Prop) [Decidable condition] (text : String) : Except String Unit :=
  if condition then .error text else .ok ()

/-- An answer of the host, an error of it reported with what failed. -/
def explain {α : Type} (what : String) : Except String α → Except String α
  | .ok answer => .ok answer
  | .error text => .error (what ++ ": " ++ text)

namespace NvmeEpConfig

/-- The controllers named, the legacy scalar counting as a list of one. -/
def requested (config : NvmeEpConfig) : List String :=
  if config.controllers = [] ∧ config.controller ≠ "" then [config.controller]
  else config.controllers

/-- The highest queue id of a target: the explicit one, or one that the selector finds. -/
def topQueueId (config : NvmeEpConfig) (host : Host) (path : NvmeDevicePath) :
    Except String UInt16 :=
  if config.queueId ≠ 0 then .ok config.queueId
  else
    match host.queryMaxQueueId path.controllerPath with
    | none => .error ("Failed to detect maximum queue ID on " ++ path.controllerPath ++
        ". Please specify --queue-id manually.")
    | some maxQueueId =>
      let requestedQueues := if config.numQueues = 0 then 1 else config.numQueues
      .ok ((host.selectQueueIdOutsideCurrentAffinity path maxQueueId requestedQueues).getD
        maxQueueId)

def checkQueues (config : NvmeEpConfig) (controller : String) (top : UInt16) :
    Except String Unit :=
  let maxHijack := max 1 (top.toNat / 2)
  if config.numQueues.toNat ≤ 1 then .ok ()
  else if top < config.numQueues then
    .error (message 320 ("--num-queues " ++ toString config.numQueues ++ " requires at least " ++
      toString config.numQueues ++ " IO queue IDs but " ++ controller ++ " has queueId " ++
      toString top ++ " (queue 0 is the admin queue)"))
  else if config.forceQueueHijack = false ∧ maxHijack < config.numQueues.toNat then
    .error (message 384 ("--num-queues " ++ toString config.numQueues ++ " would hijack " ++
      toString config.numQueues ++ " of " ++ controller ++ "'s " ++ toString top ++
      " I/O queues from the kernel NVMe driver, which can crash the host. Use at most " ++
      toString maxHijack ++ ", or pass --force-queue-hijack to override"))
  else .ok ()

def checkLbaSize (controller : String) (lbaSize : Nat) : List NvmeTarget → Except String Unit
  | [] => .ok ()
  | front :: _ =>
    if lbaSize ≠ front.lbaSize then
      .error (message 320 (controller ++ " reports " ++ toString lbaSize ++ " byte LBAs but " ++
        front.controller ++ " reports " ++ toString front.lbaSize ++
        "; all --controller targets must share one LBA size"))
    else .ok ()

/-- One round of the loop over the controllers, `seen` being the targets before it. -/
def validateTarget (config : NvmeEpConfig) (host : Host) (seen : List NvmeTarget)
    (requested : String) : Except String NvmeTarget := do
  refuse (requested = "") "--controller must not be empty"
  let path ← explain ("Failed to resolve NVMe device path " ++ requested)
    (host.resolveNvmeDevicePath requested config.nsid)
  let controller := path.controllerPath
  refuse (controller ∈ seen.map NvmeTarget.controller)
    ("--controller " ++ requested ++ " resolves to " ++ controller ++
      ", which was already specified")
  let top ← config.topQueueId host path
  config.checkQueues controller top
  let lbaSize ← explain ("Failed to obtain LBA size from " ++ controller)
    (host.queryLbaSize controller config.nsid)
  checkLbaSize controller lbaSize seen
  let bdf ← explain ("Failed to detect NVMe target BDF for " ++ controller)
    (host.detectBdfFromDevice controller)
  return {
    controller := controller
    topQueueId := top
    nsid := config.nsid
    lbaSize := lbaSize
    nvmeTargetBdf := bdf }

def validateTargets (config : NvmeEpConfig) (host : Host) (seen : List NvmeTarget) :
    List String → Except String (List NvmeTarget)
  | [] => .ok seen
  | requested :: rest =>
    match config.validateTarget host seen requested with
    | .ok target => config.validateTargets host (seen ++ [target]) rest
    | .error text => .error text

/-- The part of `validateConfig` that makes the targets; what it checks later neither reads nor
changes them. -/
def validateConfig (config : NvmeEpConfig) (host : Host) : Except String (List NvmeTarget) :=
  if config.requested = [] then .error "--controller must be specified"
  else if 1 < config.requested.length ∧ config.usePciMmioBridge then
    .error ("--pci-mmio-bridge supports only one --controller (the bridge " ++
      "shadow buffer is scoped to a single target BDF)")
  else if 1 < config.requested.length ∧ config.queueId ≠ 0 then
    .error ("--queue-id cannot be combined with more than one --controller " ++
      "(queue IDs are per controller; omit --queue-id to auto-detect " ++
      "the top queue on each target)")
  else config.validateTargets host [] config.requested

end NvmeEpConfig

/-! ### The lane table -/

/-- An entry of the lane table: a target and the queue id used there. -/
structure QueueLane where
  target : NvmeTarget
  queueId : UInt16
  deriving DecidableEq

/-- The lanes of one target, with queue ids counting up to its top queue. -/
def NvmeTarget.lanes (target : NvmeTarget) (numQueues : UInt16) : List QueueLane :=
  let base := UInt16.ofNat (target.topQueueId.toNat + 1 - numQueues.toNat)
  (List.range numQueues.toNat).map fun q =>
    { target := target, queueId := UInt16.ofNat (base.toNat + q) }

/-- The lane table of `run`; none is `hipErrorInvalidValue`. -/
def laneTable (numQueues : UInt16) : List NvmeTarget → Option (List QueueLane)
  | [] => some []
  | target :: rest =>
    if target.topQueueId < numQueues then none
    else (laneTable numQueues rest).map (target.lanes numQueues ++ ·)

def NvmeEpConfig.lanes (config : NvmeEpConfig) (host : Host) : Option (List QueueLane) :=
  match config.validateConfig host with
  | .ok targets => laneTable config.numQueues targets
  | .error _ => none

/-! ### What makes a lane table sound -/

/-- Every lane is a queue of its own, exists on its controller, and without the force flag
the lanes of a controller are at most half of its queues. -/
structure SoundLanes (config : NvmeEpConfig) (host : Host) (lanes : List QueueLane) : Prop where
  distinct : (lanes.map fun lane => (lane.target.controller, lane.queueId)).Nodup
  inRange : ∀ lane ∈ lanes, 1 ≤ lane.queueId.toNat ∧
    lane.queueId.toNat ≤ host.maxQueueId lane.target.controller
  half : config.forceQueueHijack = false → ∀ controller,
    (lanes.filter fun lane => lane.target.controller = controller).length ≤
      host.maxQueueId controller / 2

/-- The controllers that a configuration names: their real paths. -/
def NvmeEpConfig.Names (config : NvmeEpConfig) (host : Host) (controller : String) : Prop :=
  ∃ requested ∈ config.requested, ∃ path,
    host.resolveNvmeDevicePath requested config.nsid = .ok path ∧ path.controllerPath = controller

/-- An explicit queue id exists on the controller, and a single lane leaves a queue to the
kernel. -/
structure NvmeEpConfig.Fits (config : NvmeEpConfig) (host : Host) : Prop where
  explicitId : config.queueId ≠ 0 → config.numQueues ≠ 0 → ∀ controller,
    config.Names host controller → config.queueId.toNat ≤ host.maxQueueId controller
  single : config.forceQueueHijack = false → config.numQueues = 1 → ∀ controller,
    config.Names host controller → 2 ≤ host.maxQueueId controller

/-! ### What an accepted target is -/

/-- What `validateTarget` guarantees of a target. -/
structure Accepted (config : NvmeEpConfig) (host : Host) (requested : String)
    (target : NvmeTarget) : Prop where
  resolved : ∃ path, host.resolveNvmeDevicePath requested config.nsid = .ok path ∧
    path.controllerPath = target.controller
  explicitTop : config.queueId ≠ 0 → target.topQueueId = config.queueId
  automaticTop : config.queueId = 0 → target.topQueueId.toNat ≤ host.maxQueueId target.controller
  capped : 1 < config.numQueues.toNat → config.forceQueueHijack = false →
    config.numQueues.toNat ≤ target.topQueueId.toNat / 2

theorem toNat_ofNat_le (value : Nat) : (UInt16.ofNat value).toNat ≤ value := by
  exact Nat.mod_le _ _

variable {host : Host} {path : NvmeDevicePath}

theorem Host.select_le {maxQueueId numQueues selected : UInt16}
    (found : host.selectQueueIdOutsideCurrentAffinity path maxQueueId numQueues = some selected) :
    selected.toNat ≤ maxQueueId.toNat := by
  obtain ⟨-, found⟩ := Option.ite_none_left_eq_some.mp found
  split at found
  case h_1 affinity ns =>
    dsimp only at found
    split at found
    case h_1 endQid first =>
      obtain ⟨⟩ := found
      have member := List.mem_of_find?_eq_some first
      rw [List.mem_reverse, List.mem_range'_1] at member
      exact (toNat_ofNat_le endQid).trans (by omega)
    case h_2 =>
      obtain ⟨⟩ := found
      exact le_rfl
  case h_2 =>
    obtain ⟨⟩ := found
    exact le_rfl

variable {controller : String}

theorem Host.queryMaxQueueId_le {maxQueueId : UInt16}
    (answer : host.queryMaxQueueId controller = some maxQueueId) :
    maxQueueId.toNat ≤ host.maxQueueId controller := by
  obtain ⟨-, answer⟩ := Option.ite_none_right_eq_some.mp answer
  obtain ⟨-, ⟨⟩⟩ := Option.ite_none_left_eq_some.mp answer
  exact toNat_ofNat_le _

variable {config : NvmeEpConfig} {top : UInt16}

theorem NvmeEpConfig.topQueueId_le (automatic : config.queueId = 0)
    (chosen : config.topQueueId host path = .ok top) :
    top.toNat ≤ host.maxQueueId path.controllerPath := by
  rw [NvmeEpConfig.topQueueId, if_neg (not_not.mpr automatic)] at chosen
  split at chosen
  case h_1 => exact nomatch chosen
  case h_2 maxQueueId answer =>
    obtain ⟨⟩ := chosen
    refine le_trans ?_ (Host.queryMaxQueueId_le answer)
    cases found : host.selectQueueIdOutsideCurrentAffinity path maxQueueId
        (if config.numQueues = 0 then 1 else config.numQueues) with
    | none => exact le_rfl
    | some selected => exact Host.select_le found

theorem NvmeEpConfig.checkQueues_ok (passed : config.checkQueues controller top = .ok ())
    (several : 1 < config.numQueues.toNat) (careful : config.forceQueueHijack = false) :
    config.numQueues.toNat ≤ top.toNat / 2 := by
  rw [NvmeEpConfig.checkQueues, if_neg (Nat.not_le.mpr several)] at passed
  split at passed
  case isTrue => exact nomatch passed
  case isFalse =>
    split at passed
    case isTrue => exact nomatch passed
    case isFalse within =>
      have under := Nat.not_lt.mp fun beyond => within ⟨careful, beyond⟩
      omega

theorem bind_ok {α β : Type} {computation : Except String α} {next : α → Except String β}
    {result : β} (ran : computation >>= next = .ok result) :
    ∃ value, computation = .ok value ∧ next value = .ok result := by
  cases computation with
  | error text => exact nomatch ran
  | ok value => exact ⟨value, rfl, ran⟩

theorem not_of_refuse {condition : Prop} [Decidable condition] {text : String}
    (passed : refuse condition text = .ok ()) : ¬condition := by
  intro holds
  rw [refuse, if_pos holds] at passed
  exact nomatch passed

theorem of_explain {α : Type} {what : String} {answer : Except String α} {value : α}
    (passed : explain what answer = .ok value) : answer = .ok value := by
  cases answer with
  | error text => exact nomatch passed
  | ok other => exact passed

variable {target : NvmeTarget}

theorem NvmeEpConfig.accepted_of_validateTarget {seen : List NvmeTarget} {requested : String}
    (passed : config.validateTarget host seen requested = .ok target) :
    Accepted config host requested target ∧ target.controller ∉ seen.map NvmeTarget.controller := by
  obtain ⟨⟨⟩, -, passed⟩ := bind_ok passed
  obtain ⟨path, resolved, passed⟩ := bind_ok passed
  obtain ⟨⟨⟩, fresh, passed⟩ := bind_ok passed
  obtain ⟨top, chosen, passed⟩ := bind_ok passed
  obtain ⟨⟨⟩, queues, passed⟩ := bind_ok passed
  obtain ⟨lbaSize, -, passed⟩ := bind_ok passed
  obtain ⟨⟨⟩, -, passed⟩ := bind_ok passed
  obtain ⟨bdf, -, ⟨⟩⟩ := bind_ok passed
  refine ⟨⟨⟨path, of_explain resolved, rfl⟩, ?_, ?_, ?_⟩, not_of_refuse fresh⟩
  · intro explicitId
    rw [NvmeEpConfig.topQueueId, if_pos explicitId] at chosen
    exact (Except.ok.inj chosen).symm
  · intro automatic
    exact NvmeEpConfig.topQueueId_le automatic chosen
  · intro several careful
    exact NvmeEpConfig.checkQueues_ok queues several careful

/-- An accepted configuration has one target for each controller named, accepted, and with different
controllers. -/
theorem NvmeEpConfig.accepted_of_validateTargets {names : List String}
    {seen targets : List NvmeTarget} (fresh : (seen.map NvmeTarget.controller).Nodup)
    (passed : config.validateTargets host seen names = .ok targets) :
    (targets.map NvmeTarget.controller).Nodup ∧
      ∃ added, targets = seen ++ added ∧ List.Forall₂ (Accepted config host) names added := by
  induction names generalizing seen with
  | nil =>
    obtain ⟨⟩ := passed
    exact ⟨fresh, [], (List.append_nil _).symm, .nil⟩
  | cons requested rest inductionHypothesis =>
    rw [NvmeEpConfig.validateTargets] at passed
    split at passed
    case h_2 => exact nomatch passed
    case h_1 target accepted =>
      obtain ⟨good, new⟩ := NvmeEpConfig.accepted_of_validateTarget accepted
      have extended : ((seen ++ [target]).map NvmeTarget.controller).Nodup := by
        rw [List.map_append, List.map_singleton]
        exact fresh.append (List.nodup_singleton _) (List.disjoint_singleton.mpr new)
      obtain ⟨distinct, added, rfl, all⟩ := inductionHypothesis extended passed
      exact ⟨distinct, target :: added, by simp, .cons good all⟩

/-! ### The lanes of accepted targets -/

variable {numQueues : UInt16} {targets : List NvmeTarget} {lanes : List QueueLane}

theorem laneTable_eq_some (table : laneTable numQueues targets = some lanes) :
    (∀ target ∈ targets, numQueues ≤ target.topQueueId) ∧
      lanes = targets.flatMap (·.lanes numQueues) := by
  induction targets generalizing lanes with
  | nil =>
    obtain ⟨⟩ := table
    exact ⟨nofun, rfl⟩
  | cons target rest inductionHypothesis =>
    obtain ⟨enough, table⟩ := Option.ite_none_left_eq_some.mp table
    obtain ⟨others, later, rfl⟩ := Option.map_eq_some_iff.mp table
    obtain ⟨all, rfl⟩ := inductionHypothesis later
    exact ⟨List.forall_mem_cons.mpr ⟨UInt16.not_lt.mp enough, all⟩, rfl⟩

structure LanesOf (config : NvmeEpConfig) (host : Host) (targets : List NvmeTarget)
    (lanes : List QueueLane) : Prop where
  table : lanes = targets.flatMap (·.lanes config.numQueues)
  distinct : (targets.map NvmeTarget.controller).Nodup
  enough : ∀ target ∈ targets, config.numQueues ≤ target.topQueueId
  accepted : List.Forall₂ (Accepted config host) config.requested targets

theorem NvmeEpConfig.exists_lanesOf (accepted : config.lanes host = some lanes) :
    ∃ targets, LanesOf config host targets lanes := by
  unfold NvmeEpConfig.lanes at accepted
  split at accepted
  case h_2 => exact nomatch accepted
  case h_1 targets valid =>
    obtain ⟨enough, table⟩ := laneTable_eq_some accepted
    unfold NvmeEpConfig.validateConfig at valid
    split at valid
    case isTrue => exact nomatch valid
    case isFalse =>
      split at valid
      case isTrue => exact nomatch valid
      case isFalse =>
        split at valid
        case isTrue => exact nomatch valid
        case isFalse =>
          have none : (([] : List NvmeTarget).map NvmeTarget.controller).Nodup := List.nodup_nil
          obtain ⟨distinct, added, rfl, all⟩ := NvmeEpConfig.accepted_of_validateTargets none valid
          exact ⟨_, table, distinct, enough, all⟩

variable {lane : QueueLane}

theorem NvmeTarget.mem_lanes (enough : numQueues ≤ target.topQueueId) :
    lane ∈ target.lanes numQueues ↔ lane.target = target ∧
      target.topQueueId.toNat < lane.queueId.toNat + numQueues.toNat ∧
      lane.queueId ≤ target.topQueueId := by
  have bound := target.topQueueId.toNat_lt
  rw [UInt16.le_iff_toNat_le] at enough ⊢
  simp only [NvmeTarget.lanes, List.mem_map, List.mem_range, UInt16.toNat_ofNat']
  constructor
  · rintro ⟨q, inside, rfl⟩
    refine ⟨rfl, ?_⟩
    simp only [UInt16.toNat_ofNat']
    omega
  · obtain ⟨owner, queueId⟩ := lane
    rintro ⟨rfl, above, below⟩
    dsimp only at above below bound enough
    refine ⟨queueId.toNat + numQueues.toNat - owner.topQueueId.toNat - 1, by omega, ?_⟩
    congr 1
    apply UInt16.toNat_inj.mp
    rw [UInt16.toNat_ofNat']
    dsimp only
    omega

theorem NvmeTarget.lanes_target (member : lane ∈ target.lanes numQueues) :
    lane.target = target := by
  obtain ⟨q, -, rfl⟩ := List.mem_map.mp member
  rfl

@[simp] theorem NvmeTarget.length_lanes (target : NvmeTarget) (numQueues : UInt16) :
    (target.lanes numQueues).length = numQueues.toNat := by
  simp [NvmeTarget.lanes]

theorem NvmeTarget.nodup_lanes (enough : numQueues ≤ target.topQueueId) :
    ((target.lanes numQueues).map fun lane => (lane.target.controller, lane.queueId)).Nodup := by
  have bound := target.topQueueId.toNat_lt
  rw [UInt16.le_iff_toNat_le] at enough
  rw [NvmeTarget.lanes, List.map_map]
  refine List.nodup_range.map_on ?_
  intro first inFirst second inSecond equal
  have ids := congrArg (fun pair : String × UInt16 => pair.2.toNat) equal
  simp only [Function.comp_apply, UInt16.toNat_ofNat'] at ids
  rw [List.mem_range] at inFirst inSecond
  omega

theorem length_lanes_of_controller (numQueues : UInt16)
    (distinct : (targets.map NvmeTarget.controller).Nodup) (controller : String) :
    ((targets.flatMap (·.lanes numQueues)).filter
        fun lane => lane.target.controller = controller).length =
      if controller ∈ targets.map NvmeTarget.controller then numQueues.toNat else 0 := by
  induction targets with
  | nil => rfl
  | cons target rest inductionHypothesis =>
    rw [List.map_cons, List.nodup_cons] at distinct
    rw [List.flatMap_cons, List.filter_append, List.length_append,
      inductionHypothesis distinct.2, List.map_cons]
    rcases eq_or_ne target.controller controller with rfl | other
    · have own : (target.lanes numQueues).filter
          (fun lane => lane.target.controller = target.controller) =
          target.lanes numQueues :=
        List.filter_eq_self.mpr fun lane member => by
          rw [NvmeTarget.lanes_target member]
          exact decide_eq_true rfl
      rw [own, if_neg distinct.1, if_pos List.mem_cons_self, NvmeTarget.length_lanes,
        Nat.add_zero]
    · have foreign : (target.lanes numQueues).filter
          (fun lane => lane.target.controller = controller) = [] :=
        List.filter_eq_nil_iff.mpr fun lane member => by
          rw [NvmeTarget.lanes_target member]
          simpa using other
      rw [foreign, List.length_nil, Nat.zero_add]
      exact if_congr (by simp [other.symm]) rfl rfl

/-! ### When the lanes are sound -/

section

variable (known : LanesOf config host targets lanes)

include known

theorem LanesOf.names_iff (controller : String) :
    config.Names host controller ↔ controller ∈ targets.map NvmeTarget.controller := by
  have names : ∀ (requested : List String) (targets : List NvmeTarget),
      List.Forall₂ (Accepted config host) requested targets →
      ((∃ name ∈ requested, ∃ path, host.resolveNvmeDevicePath name config.nsid = .ok path ∧
        path.controllerPath = controller) ↔ controller ∈ targets.map NvmeTarget.controller) := by
    intro requested targets accepted
    induction accepted with
    | nil => simp
    | cons head tail inductionHypothesis =>
      obtain ⟨path, resolved, same⟩ := head.resolved
      rw [List.exists_mem_cons_iff, inductionHypothesis, List.map_cons, List.mem_cons]
      refine or_congr ⟨?_, ?_⟩ Iff.rfl
      · rintro ⟨other, again, rfl⟩
        rw [resolved] at again
        rw [← same, Except.ok.inj again]
      · rintro rfl
        exact ⟨path, resolved, same⟩
  exact names _ _ known.accepted

theorem LanesOf.accepted_of_mem (member : target ∈ targets) :
    ∃ requested, Accepted config host requested target := by
  obtain ⟨index, inside, rfl⟩ := List.getElem_of_mem member
  have accepted := known.accepted
  exact ⟨_, (List.forall₂_iff_get.mp accepted).2 index
    ((List.Forall₂.length_eq accepted).symm ▸ inside) inside⟩

theorem LanesOf.mem_lanes {lane : QueueLane} : lane ∈ lanes ↔ lane.target ∈ targets ∧
      lane.target.topQueueId.toNat < lane.queueId.toNat + config.numQueues.toNat ∧
      lane.queueId ≤ lane.target.topQueueId := by
  rw [known.table, List.mem_flatMap]
  constructor
  · rintro ⟨target, member, inside⟩
    obtain ⟨rfl, range⟩ := (NvmeTarget.mem_lanes (known.enough _ member)).mp inside
    exact ⟨member, range⟩
  · rintro ⟨member, range⟩
    exact ⟨_, member, (NvmeTarget.mem_lanes (known.enough _ member)).mpr ⟨rfl, range⟩⟩

theorem LanesOf.nodup : (lanes.map fun lane => (lane.target.controller, lane.queueId)).Nodup := by
  rw [known.table, List.map_flatMap, List.nodup_flatMap]
  refine ⟨fun target member => NvmeTarget.nodup_lanes (known.enough _ member), ?_⟩
  have pairwise := List.pairwise_map.mp known.distinct
  refine pairwise.imp fun {first second} other => ?_
  intro pair inFirst inSecond
  obtain ⟨lane, member, rfl⟩ := List.mem_map.mp inFirst
  obtain ⟨twin, twinMember, equal⟩ := List.mem_map.mp inSecond
  rw [NvmeTarget.lanes_target member, NvmeTarget.lanes_target twinMember] at equal
  exact other (congrArg Prod.fst equal).symm

theorem LanesOf.top_le (fits : config.Fits host) (some : config.numQueues ≠ 0)
    (member : target ∈ targets) :
    target.topQueueId.toNat ≤ host.maxQueueId target.controller := by
  obtain ⟨requested, accepted⟩ := known.accepted_of_mem member
  by_cases automatic : config.queueId = 0
  · exact accepted.automaticTop automatic
  · rw [accepted.explicitTop automatic]
    exact fits.explicitId automatic some _
      ((known.names_iff _).mpr (List.mem_map_of_mem member))

theorem LanesOf.sound (fits : config.Fits host) : SoundLanes config host lanes where
  distinct := known.nodup
  inRange := by
    intro lane member
    obtain ⟨inside, above, below⟩ := known.mem_lanes.mp member
    have enough := known.enough _ inside
    rw [UInt16.le_iff_toNat_le] at enough below
    have some : config.numQueues ≠ 0 := by
      intro none
      rw [none, UInt16.toNat_zero] at above
      omega
    exact ⟨by omega, below.trans (known.top_le fits some inside)⟩
  half := by
    intro careful controller
    rw [known.table, length_lanes_of_controller _ known.distinct]
    split
    case isFalse => exact Nat.zero_le _
    case isTrue named =>
      obtain ⟨target, member, rfl⟩ := List.mem_map.mp named
      obtain ⟨requested, accepted⟩ := known.accepted_of_mem member
      rcases Nat.lt_trichotomy config.numQueues.toNat 1 with none | one | several
      · omega
      · -- A single lane is not checked against the controller; the other queue is assumed.
        have spare := fits.single careful (UInt16.toNat_inj.mp one) _
          ((known.names_iff _).mpr named)
        omega
      · have capped := accepted.capped several careful
        have some : config.numQueues ≠ 0 := by
          rintro none
          rw [none, UInt16.toNat_zero] at several
          omega
        exact capped.trans (Nat.div_le_div_right (known.top_le fits some member))

theorem LanesOf.fits (sound : SoundLanes config host lanes) : config.Fits host where
  explicitId := by
    intro explicitId some controller named
    obtain ⟨target, member, rfl⟩ := List.mem_map.mp ((known.names_iff _).mp named)
    obtain ⟨requested, accepted⟩ := known.accepted_of_mem member
    have positive : 0 < config.numQueues.toNat := by
      rw [Nat.pos_iff_ne_zero]
      exact fun zero => some (UInt16.toNat_inj.mp zero)
    rw [← accepted.explicitTop explicitId]
    exact (sound.inRange ⟨target, target.topQueueId⟩
      (known.mem_lanes.mpr ⟨member, by simpa using positive, UInt16.le_refl _⟩)).2
  single := by
    intro careful one controller named
    have half := sound.half careful controller
    rw [known.table, length_lanes_of_controller _ known.distinct,
      if_pos ((known.names_iff _).mp named), one, UInt16.toNat_one] at half
    omega

end

/-- The lanes of an accepted configuration are sound exactly when an explicit queue id exists on the
controller and a single lane, without the force flag, is not the only queue. -/
theorem lanes_sound_iff (config : NvmeEpConfig) (host : Host) (lanes : List QueueLane)
    (accepted : config.lanes host = some lanes) :
    SoundLanes config host lanes ↔ config.Fits host := by
  obtain ⟨targets, known⟩ := NvmeEpConfig.exists_lanesOf accepted
  exact ⟨known.fits, known.sound⟩

/-- A machine with one controller, whose device path resolves to itself. -/
def singleController (queueCount : Nat) : Host where
  resolveNvmeDevicePath path _ := .ok ⟨path, path ++ "n1"⟩
  queueCount _ := queueCount
  queueCountReadable _ := true
  affinity := none
  namespaceName _ := none
  cpuListFile _ _ := none
  queryLbaSize _ _ := .ok 512
  detectBdfFromDevice _ := .ok 0x100

def configWith (queueId numQueues : UInt16) : NvmeEpConfig where
  controllers := ["/dev/nvme0"]
  controller := ""
  queueId := queueId
  numQueues := numQueues
  nsid := 1
  usePciMmioBridge := false
  forceQueueHijack := false

/-- The lane of queue `queueId` on that controller, for a run that ends at `top`. -/
def laneOf (top queueId : UInt16) : QueueLane where
  target := ⟨"/dev/nvme0", top, 1, 512, 0x100⟩
  queueId := queueId

/-- Two lanes chosen automatically on a controller with eight I/O queues. -/
theorem lanes_sound_automatic :
    (configWith 0 2).lanes (singleController 9) = some [laneOf 8 7, laneOf 8 8] ∧
      SoundLanes (configWith 0 2) (singleController 9) [laneOf 8 7, laneOf 8 8] := by
  have accepted : (configWith 0 2).lanes (singleController 9) =
      some [laneOf 8 7, laneOf 8 8] := by decide +kernel
  refine ⟨accepted, (lanes_sound_iff _ _ _ accepted).mpr ⟨?_, ?_⟩⟩
  · exact fun explicitId => absurd rfl explicitId
  · intro _ one
    exact absurd one (by decide)

/-- Queue 100 is accepted on a controller that has four I/O queues, with three lanes. -/
theorem lanes_outside_controller :
    ∃ lanes, (configWith 100 3).lanes (singleController 5) = some lanes ∧
      ¬SoundLanes (configWith 100 3) (singleController 5) lanes := by
  refine ⟨[laneOf 100 98, laneOf 100 99, laneOf 100 100], by decide +kernel, ?_⟩
  intro sound
  have inside := (sound.inRange (laneOf 100 100) (by simp)).2
  exact absurd inside (by decide)

end RocmXio.Nvme
