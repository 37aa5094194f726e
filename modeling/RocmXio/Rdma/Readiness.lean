/-
Whether the queue pair on the GPU is ready when `Backend::init` returns 0.

`setup_gpu_qp` and the providers' `initialize_gpu_qp` return nothing. They stop at the first call
that fails, and `init` returns 0 all the same. A call that ends the process when it fails is left
out, except in the constructor of `QueuePair`, which reads the keys of its memory regions.
-/

import RocmXio.Rdma.Config

namespace RocmXio.Rdma

/-- The calls of `setup_gpu_qp` that may fail. -/
inductive SetupCall where
  | allocDeviceMemoryPair | regMr | memcpy
  | registerDbr | dbrDevicePointer
  | isSupported | initObj | registerSq | registerCq | registerSqDbrPage | registerCqDbrPage
  | hsaInit | lockBf
  | getCtx | setGda | getCq | getQp | registerDbPage | dbPageDevicePointer
  | registerUar | uarDevicePointer
deriving DecidableEq, Repr

/-- The parts of a `QueuePair` that are set from the verbs objects. -/
inductive QueuePairPart where
  | cq
  | sq
  | doorbell
  | keys
deriving DecidableEq, Repr

structure SetupStep where
  needs : List SetupCall
  sets : List QueuePairPart

/-- Which calls fail, and what else the initialisation depends on. -/
structure SetupHost where
  fails : SetupCall → Bool
  ibvInitialized : Bool
  qpCreated : Bool
  loopback : Bool
  smokePasses : Bool
  samePage : Bool
  hasUar : Bool
  bridged : Bool

namespace SetupHost

variable (host : SetupHost)

/-- The provider's `initialize_gpu_qp`, up to the keys that all of them set last. -/
def steps : Provider → List SetupStep
  | .bnxt => [⟨[], [.cq, .sq]⟩, ⟨[.registerDbr, .dbrDevicePointer], [.doorbell]⟩]
  | .mlx5 => [⟨[.isSupported, .initObj, .registerSq, .registerCq, .registerSqDbrPage] ++
      (if host.samePage then [] else [.registerCqDbrPage]) ++ [.hsaInit, .lockBf],
      [.cq, .sq, .doorbell]⟩]
  | .ionic => [⟨[.getCtx, .setGda, .getCq, .getQp], [.cq, .sq]⟩,
      ⟨[.registerDbPage, .dbPageDevicePointer], [.doorbell]⟩]
  | .rocmErnic => [⟨[], [.cq, .sq]⟩] ++
      (if host.hasUar then [⟨[.registerUar, .uarDevicePointer], [.doorbell]⟩] else []) ++
      if host.bridged then [⟨[], [.doorbell]⟩] else []
  | .unknown => []

def perform : List SetupStep → List QueuePairPart
  | [] => [.keys]
  | step :: rest => if step.needs.any host.fails then [] else step.sets ++ perform rest

/-- `setup_gpu_qp`: the queue pair behind `gpu_qp_`, or nothing if the process ends. -/
def setupGpuQp (provider : Provider) : Option (Option (List QueuePairPart)) :=
  if provider = .unknown || host.fails .allocDeviceMemoryPair then some none
  else if host.fails .regMr then none
  else if host.fails .memcpy then some none
  else some (some (host.perform (host.steps provider)))

/-- What `init` returns, with `get_gpu_qp()`. -/
def init (provider : Provider) : Option (Int × Option (List QueuePairPart)) :=
  if !host.ibvInitialized || !host.qpCreated then some (-1, none)
  else if host.loopback && provider = .mlx5 && !host.smokePasses then some (-1, none)
  else (host.setupGpuQp provider).map ((0, ·))

/-- A return of 0 means that every part of the queue pair is set. -/
def Ready (provider : Provider) : Prop :=
  ∀ result ∈ host.init provider, result.1 = 0 → ∃ parts ∈ result.2, ∀ part, part ∈ parts

/-- `init` does not come to the end of `setup_gpu_qp`. -/
def Stops (provider : Provider) : Prop :=
  host.ibvInitialized = false ∨ host.qpCreated = false ∨
    (host.loopback = true ∧ provider = .mlx5 ∧ host.smokePasses = false) ∨
    (provider ≠ .unknown ∧ host.fails .allocDeviceMemoryPair = false ∧ host.fails .regMr = true)

def Sets (provider : Provider) : Prop :=
  provider ≠ .unknown ∧ host.fails .allocDeviceMemoryPair = false ∧ host.fails .memcpy = false ∧
    (∀ step ∈ host.steps provider, ∀ call ∈ step.needs, host.fails call = false) ∧
    (provider = .rocmErnic → host.hasUar = true ∨ host.bridged = true)

theorem forall_mem_iff (parts : List QueuePairPart) :
    (∀ part, part ∈ parts) ↔ .cq ∈ parts ∧ .sq ∈ parts ∧ .doorbell ∈ parts ∧ .keys ∈ parts := by
  refine ⟨fun all => ⟨all _, all _, all _, all _⟩, ?_⟩
  rintro ⟨cq, sq, doorbell, keys⟩ part
  cases part <;> assumption

theorem perform_of_pass {steps : List SetupStep}
    (pass : ∀ step ∈ steps, ∀ call ∈ step.needs, host.fails call = false) :
    host.perform steps = steps.flatMap (·.sets) ++ [.keys] := by
  induction steps with
  | nil => rfl
  | cons step rest inductionHypothesis =>
    rw [List.forall_mem_cons] at pass
    have none : step.needs.any host.fails = false := by simpa using pass.1
    simp [perform, none, inductionHypothesis pass.2]

theorem pass_of_keys {steps : List SetupStep} (late : ∀ step ∈ steps, .keys ∉ step.sets)
    (set : .keys ∈ host.perform steps) :
    ∀ step ∈ steps, ∀ call ∈ step.needs, host.fails call = false := by
  induction steps with
  | nil => simp
  | cons step rest inductionHypothesis =>
    rw [List.forall_mem_cons] at late ⊢
    rw [perform] at set
    split_ifs at set with failed
    · cases set
    · refine ⟨by simpa using failed, inductionHypothesis late.2 ?_⟩
      exact (List.mem_append.mp set).resolve_left late.1

theorem perform_iff (provider : Provider) (known : provider ≠ .unknown) :
    (∀ part, part ∈ host.perform (host.steps provider)) ↔
      (∀ step ∈ host.steps provider, ∀ call ∈ step.needs, host.fails call = false) ∧
        (provider = .rocmErnic → host.hasUar = true ∨ host.bridged = true) := by
  have late : ∀ step ∈ host.steps provider, .keys ∉ step.sets := by
    cases provider <;> cases uar : host.hasUar <;> cases bridge : host.bridged <;>
      simp [steps, uar, bridge]
  have sets : (∀ part, part ∈ (host.steps provider).flatMap (·.sets) ++ [.keys]) ↔
      (provider = .rocmErnic → host.hasUar = true ∨ host.bridged = true) := by
    rw [forall_mem_iff]
    cases provider <;> cases uar : host.hasUar <;> cases bridge : host.bridged <;>
      simp_all [steps]
  constructor
  · intro all
    have pass := host.pass_of_keys late (all .keys)
    rw [host.perform_of_pass pass, sets] at all
    exact ⟨pass, all⟩
  · rintro ⟨pass, doorbell⟩
    rwa [host.perform_of_pass pass, sets]

end SetupHost

end RocmXio.Rdma
