/-
The opcodes and operands of remote atomic operations.

`atomic_fetch` and `atomic_cas` reach a provider through one function, with the add or swap operand
first and the compare operand second, and each provider lays them out in its own way. Read as the
hardware reads them, the requests of three providers do what was asked, if the device takes the
opcode byte for the operation meant. The ernic request has one field for the operand to add or to
compare with, which always gets the compare operand, so that a fetching add adds the wrong one. The
opcodes given to mlx5 are not those of its header: its compare-and-swap is a fetching add there.
-/

import RocmXio.Lib.BitFields
import RocmXio.Lib.ByteStores
import RocmXio.Rdma.Config

namespace RocmXio.Rdma

open Lib

inductive AtomicOp where
  | fa
  | cs
deriving DecidableEq, Repr

structure Operands where
  add : Nat
  compare : Nat
  swap : Nat
deriving DecidableEq, Repr

/-- The operand fields of a request, each as its bytes: `swp_dt` and `cmp_dt` of bnxt, `swap_add`
and `compare` of mlx5 and, in two halves each, of ionic, and `compare_add` and `swap` of ernic. -/
def atomicFields (atomicData atomicCmp : UInt64) : Provider → List (List UInt8)
  | .bnxt => [leBytes 8 atomicData.toNat, leBytes 8 atomicCmp.toNat]
  | .mlx5 => [beBytes 8 atomicData.toNat, beBytes 8 atomicCmp.toNat]
  | .ionic =>
    [beBytes 4 (atomicData >>> 32).toUInt32.toNat, beBytes 4 atomicData.toUInt32.toNat,
     beBytes 4 (atomicCmp >>> 32).toUInt32.toNat, beBytes 4 atomicCmp.toUInt32.toNat]
  | .rocmErnic => [leBytes 8 atomicCmp.toNat, leBytes 8 atomicData.toNat]
  | .unknown => []

def operands (fields : List (List UInt8)) (provider : Provider) : Operands :=
  let le := fun index => leValue (fields.getD index [])
  let be := fun index => beValue (fields.getD index [])
  match provider with
  | .bnxt => ⟨le 0, le 1, le 0⟩
  | .mlx5 => ⟨be 0, be 1, be 0⟩
  | .ionic => ⟨join (be 1) (be 0), join (be 3) (be 2), join (be 1) (be 0)⟩
  | .rocmErnic => ⟨le 0, le 0, le 1⟩
  | .unknown => ⟨0, 0, 0⟩

/-- The opcodes that the constructor of a queue pair sets; those of ionic depend on the version of
its firmware that the build is for. -/
def opAtomicFa (ionicFwVersion : Nat) : Provider → UInt8
  | .bnxt => 0x0B
  | .mlx5 => 0x13
  | .ionic => if 2 ≤ ionicFwVersion then 0x05 else 0x07
  | .rocmErnic => 6
  | .unknown => 0

def opAtomicCs (ionicFwVersion : Nat) : Provider → UInt8
  | .bnxt => 0x08
  | .mlx5 => 0x12
  | .ionic => if 2 ≤ ionicFwVersion then 0x04 else 0x06
  | .rocmErnic => 5
  | .unknown => 0

structure AmoWqe where
  opcode : UInt8
  fields : List (List UInt8)
deriving DecidableEq, Repr

def postWqeAmo (provider : Provider) (opcode : UInt8) (atomicData atomicCmp : UInt64) : AmoWqe :=
  ⟨opcode, atomicFields atomicData atomicCmp provider⟩

/-- A device and the build that drives it; what the device takes an opcode for is its own. -/
structure Nic where
  provider : Provider
  ionicFwVersion : Nat
  decode : UInt8 → Option AtomicOp

namespace Nic

variable (nic : Nic)

/-- The remote word after a request; an opcode that the device does not know leaves it. -/
def execute (wqe : AmoWqe) (word : UInt64) : UInt64 :=
  let operands := operands wqe.fields nic.provider
  match nic.decode wqe.opcode with
  | some .fa => word + UInt64.ofNat operands.add
  | some .cs => if word.toNat = operands.compare then UInt64.ofNat operands.swap else word
  | none => word

def atomicFetch (value cond word : UInt64) : UInt64 :=
  nic.execute (postWqeAmo nic.provider (opAtomicFa nic.ionicFwVersion nic.provider) value cond) word

def atomicCas (data cmp word : UInt64) : UInt64 :=
  nic.execute (postWqeAmo nic.provider (opAtomicCs nic.ionicFwVersion nic.provider) data cmp) word

/-- The device takes the two opcodes for the operations meant. -/
structure Reads : Prop where
  fa : nic.decode (opAtomicFa nic.ionicFwVersion nic.provider) = some .fa
  cs : nic.decode (opAtomicCs nic.ionicFwVersion nic.provider) = some .cs

/-- A fetching add adds its value, and a compare-and-swap stores its data exactly when the word is
the one expected. -/
structure AtomicsAgree (value cond data cmp : UInt64) : Prop where
  fetch : ∀ word, nic.atomicFetch value cond word = word + value
  cas : ∀ word, nic.atomicCas data cmp word = if word = cmp then data else word

end Nic

/-- What the hardware reads is what was written, with the operands of the ernic request swapped. -/
theorem operands_atomicFields {provider : Provider} (known : provider ≠ .unknown)
    (data cmp : UInt64) :
    operands (atomicFields data cmp provider) provider =
      ⟨if provider = .rocmErnic then cmp.toNat else data.toNat, cmp.toNat, data.toNat⟩ := by
  have le : ∀ value : UInt64, leValue (leBytes 8 value.toNat) = value.toNat :=
    fun value => leValue_leBytes value.toNat_lt
  have be : ∀ value : UInt64, beValue (beBytes 8 value.toNat) = value.toNat :=
    fun value => beValue_beBytes value.toNat_lt
  have half : ∀ value : UInt32, beValue (beBytes 4 value.toNat) = value.toNat :=
    fun value => beValue_beBytes value.toNat_lt
  cases provider <;>
    simp only [operands, atomicFields, List.getD_cons_zero, List.getD_cons_succ, le, be, half,
      join_halves, reduceCtorEq, if_true, if_false]
  exact absurd rfl known

namespace Nic

variable {nic : Nic}

theorem execute_posted (known : nic.provider ≠ .unknown) (opcode : UInt8)
    (data cmp word : UInt64) :
    nic.execute (postWqeAmo nic.provider opcode data cmp) word =
      match nic.decode opcode with
      | some .fa => word + if nic.provider = .rocmErnic then cmp else data
      | some .cs => if word = cmp then data else word
      | none => word := by
  simp only [execute, postWqeAmo, operands_atomicFields known, UInt64.ofNat_toNat,
    UInt64.toNat_inj]
  split_ifs <;> simp only [UInt64.ofNat_toNat]

/-- A device that does what is asked in every call with equal operands takes the opcodes for what
was meant. -/
theorem Reads.of_agree (known : nic.provider ≠ .unknown)
    (agree : ∀ value data cmp, nic.AtomicsAgree value value data cmp) : nic.Reads := by
  constructor
  · have added := (agree 1 0 0).fetch 0
    rw [atomicFetch, execute_posted known, ite_self] at added
    split at added <;> first | assumption | exact absurd added (by decide)
  · have stored := (agree 0 3 1).cas 1
    rw [atomicCas, execute_posted known] at stored
    split at stored
    · split_ifs at stored <;> exact absurd stored (by decide)
    · assumption
    · exact absurd stored (by decide)

/-- On a device that takes the opcodes for what was meant the atomics do what was asked, except that
an ernic fetching add needs equal operands; on another some call with equal operands does not. -/
theorem atomics_agree_iff (known : nic.provider ≠ .unknown) (value cond data cmp : UInt64) :
    (nic.Reads → (nic.AtomicsAgree value cond data cmp ↔
      (nic.provider = .rocmErnic → value = cond))) ∧
    ((∀ value data cmp, nic.AtomicsAgree value value data cmp) ↔ nic.Reads) := by
  have agree_iff (reads : nic.Reads) (value cond data cmp : UInt64) :
      nic.AtomicsAgree value cond data cmp ↔ (nic.provider = .rocmErnic → value = cond) := by
    have fetch : ∀ word, nic.atomicFetch value cond word =
        word + if nic.provider = .rocmErnic then cond else value := by
      intro word
      rw [atomicFetch, execute_posted known, reads.fa]
    constructor
    · intro agree ernic
      have added := (fetch 0).symm.trans (agree.fetch 0)
      rw [if_pos ernic, UInt64.add_right_inj] at added
      exact added.symm
    · intro equal
      refine ⟨fun word => ?_, fun word => ?_⟩
      · rw [fetch]
        split_ifs with ernic
        · rw [equal ernic]
        · rfl
      · rw [atomicCas, execute_posted known, reads.cs]
  exact ⟨fun reads => agree_iff reads value cond data cmp, Reads.of_agree known,
    fun reads value data cmp => (agree_iff reads value value data cmp).mpr fun _ => rfl⟩

/-- The opcodes of the atomics in the headers of the providers. -/
def headerOpcodes (ionicFwVersion : Nat) : Provider → List (UInt8 × AtomicOp)
  | .bnxt => [(0x08, .cs), (0x0B, .fa)]
  | .mlx5 => [(0x11, .cs), (0x12, .fa)]
  | .ionic =>
    if 2 ≤ ionicFwVersion then [(0x04, .cs), (0x05, .fa)] else [(0x06, .cs), (0x07, .fa)]
  | .rocmErnic => [(5, .cs), (6, .fa)]
  | .unknown => []

/-- A device whose opcodes are those of its provider's header. -/
def documented (provider : Provider) (ionicFwVersion : Nat) : Nic where
  provider := provider
  ionicFwVersion := ionicFwVersion
  decode := fun opcode => (headerOpcodes ionicFwVersion provider).lookup opcode

/-- All providers but mlx5 are given the opcodes of their headers. -/
theorem documented_reads {provider : Provider} (known : provider ≠ .unknown)
    (other : provider ≠ .mlx5) (ionicFwVersion : Nat) :
    (documented provider ionicFwVersion).Reads := by
  cases provider with
  | bnxt => exact ⟨rfl, rfl⟩
  | mlx5 => exact absurd rfl other
  | ionic =>
    by_cases second : 2 ≤ ionicFwVersion
    · constructor <;>
        simp only [documented, headerOpcodes, opAtomicFa, opAtomicCs, if_pos second] <;> rfl
    · constructor <;>
        simp only [documented, headerOpcodes, opAtomicFa, opAtomicCs, if_neg second] <;> rfl
  | rocmErnic => exact ⟨rfl, rfl⟩
  | unknown => exact absurd rfl known

theorem atomics_agree_bnxt : (documented .bnxt 2).AtomicsAgree 1 0 7 5 :=
  ((atomics_agree_iff (by decide) 1 0 7 5).1
    (documented_reads (by decide) (by decide) 2)).mpr (by decide)

/-- The documented use of a fetching add, with no compare operand, adds nothing on ernic, and a
compare-and-swap of mlx5 adds its data. -/
theorem atomicFetch_ernic_adds_cond :
    (documented .rocmErnic 2).atomicFetch 1 0 41 = 41 ∧
      ¬ (documented .rocmErnic 2).AtomicsAgree 1 0 7 5 ∧
      (documented .mlx5 2).atomicCas 7 41 41 = 48 ∧
      ¬ (documented .mlx5 2).AtomicsAgree 1 1 7 41 :=
  ⟨by decide +kernel, fun agree => absurd (agree.fetch 41) (by decide +kernel),
    by decide +kernel, fun agree => absurd (agree.cas 41) (by decide +kernel)⟩

end Nic

end RocmXio.Rdma
