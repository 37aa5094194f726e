/-
Which blocks of the namespace a lane addresses.

`getRandomLba` turns the index of an operation into its first block. In random access the index is
hashed and reduced so that the transfer fits the namespace; in sequential access it is multiplied
by the number of blocks, in 32 bits, and reduced modulo the capacity. The base block is added last,
although the capacity is that of the whole namespace. This file says exactly for which lanes every
transfer lies inside the namespace and sequential transfers follow each other.
-/

import RocmXio.Nvme.Drive

namespace RocmXio.Nvme

/-! ### The generator -/

/-- The hash of `getRandomLba`. The product with the command id is one of 32 bits. -/
def mixSeed (opIndex cmdId lfsrSeed : Nat) : Nat :=
  let seed := (opIndex * 0x9e3779b9 + cmdId * 0x85ebca6b % 2 ^ 32 + lfsrSeed) % 2 ^ 64
  let seed := seed ^^^ (seed >>> 16)
  let seed := seed * 0xc2b2ae35 % 2 ^ 64
  let seed := seed ^^^ (seed >>> 13)
  let seed := seed * 0x9e3779b9 % 2 ^ 64
  seed ^^^ (seed >>> 16)

/-- One lane of `run`: a drive on a namespace of `lbaRangeLbas` blocks, with the bounds of the types
and of the checks made before. -/
structure Lane where
  setup : Setup
  baseLba : Nat
  lbaRangeLbas : Nat
  useRandomAccess : Bool
  lfsrSeed : Nat
  baseLba_lt : baseLba < 2 ^ 64
  lbaRangeLbas_pos : 0 < lbaRangeLbas
  lbaRangeLbas_lt : lbaRangeLbas < 2 ^ 64
  lbasPerIo_pos : 0 < setup.params.lbasPerIo
  readIo_lt : setup.params.readIo < 2 ^ 31
  writeIo_lt : setup.params.writeIo < 2 ^ 31
  requested : 0 < setup.params.readIo + setup.params.writeIo
  infinite : setup.params.infiniteMode = true → setup.params.readIo = 0 ∨ setup.params.writeIo = 0

namespace Lane

/-- `max_lba` in random access. -/
def maxLba (lane : Lane) (blocks : Nat) : Nat :=
  if 0 < blocks ∧ blocks ≤ lane.lbaRangeLbas then lane.lbaRangeLbas - blocks + 1 else 1

def getRandomLba (lane : Lane) (opIndex cmdId blocks : Nat) : Nat :=
  if lane.useRandomAccess = true ∧ 0 < lane.lbaRangeLbas then
    (lane.baseLba + mixSeed opIndex cmdId lane.lfsrSeed % lane.maxLba blocks) % 2 ^ 64
  else if 0 < lane.lbaRangeLbas then
    (lane.baseLba + opIndex * blocks % 2 ^ 32 % lane.lbaRangeLbas) % 2 ^ 64
  else (lane.baseLba + opIndex * blocks % 2 ^ 32) % 2 ^ 64

/-- `lba_idx`: reads start over where writes started. -/
def lbaIdx (lane : Lane) (opIdx : Nat) : Nat :=
  if lane.setup.isReadOp opIdx = true ∧ 0 < lane.setup.params.writeIo then
    (opIdx + 2 ^ 32 - lane.setup.params.writeIo) % 2 ^ 32
  else opIdx

/-- The first block for an index: `lba_cmd_id` goes into the hash. -/
def lbaAt (lane : Lane) (index : Nat) : Nat :=
  lane.getRandomLba index (index % 65535 + 1) lane.setup.params.lbasPerIo

def lba (lane : Lane) (opIdx : Nat) : Nat :=
  lane.lbaAt (lane.lbaIdx opIdx)

/-- The number of different values of `op_idx`. -/
def operations (lane : Lane) : Nat :=
  if lane.setup.params.infiniteMode then 2 ^ 32 else lane.setup.params.totalOps

/-- Every transfer lies inside the namespace, and sequential transfers of one direction follow each
other up to its end. -/
structure Safe (lane : Lane) : Prop where
  inside : ∀ opIdx < lane.operations,
    lane.lba opIdx + lane.setup.params.lbasPerIo ≤ lane.lbaRangeLbas
  consecutive : lane.useRandomAccess = false → ∀ opIdx, opIdx + 1 < lane.operations →
    lane.setup.isReadOp (opIdx + 1) = lane.setup.isReadOp opIdx →
    (lane.lbaIdx opIdx + 1) * lane.setup.params.lbasPerIo < lane.lbaRangeLbas →
    lane.lba (opIdx + 1) = lane.lba opIdx + lane.setup.params.lbasPerIo

/-! ### The condition -/

/-- The number of different values of `lba_idx`. -/
def indices (lane : Lane) : Nat :=
  if lane.setup.params.infiniteMode then 2 ^ 32
  else max lane.setup.params.readIo lane.setup.params.writeIo

/-- The first index whose product with `blocks` reaches `pass` times 2^32. -/
def passStart (blocks pass : Nat) : Nat :=
  (pass * 2 ^ 32 + blocks - 1) / blocks

/-- The number of indices for which the product has passed 2^32 exactly `pass` times. -/
def passLength (indices blocks pass : Nat) : Nat :=
  min indices (passStart blocks (pass + 1)) - passStart blocks pass

/-- All transfers fit behind the base without a second round, or there is no base and a round
consists of whole transfers. In the second case, when the 32-bit product passes 2^32, the namespace
has to end before that, and after each time the product still falls on the start of a transfer or
stops before the last one. -/
def SequentialFits (base range blocks indices : Nat) : Prop :=
  (base + indices * blocks ≤ range ∧ (indices - 1) * blocks < 2 ^ 32) ∨
    (base = 0 ∧ blocks ∣ range ∧ (2 ^ 32 ≤ (indices - 1) * blocks → range < 2 ^ 32 + blocks) ∧
      ∀ pass, 0 < pass → pass * 2 ^ 32 ≤ (indices - 1) * blocks →
        blocks ∣ pass * 2 ^ 32 ∨ passLength indices blocks pass < range / blocks)

/-- A transfer fits the namespace and there is no base, or no draw is so high that the base carries
it beyond the end. -/
def RandomFits (lane : Lane) : Prop :=
  lane.setup.params.lbasPerIo ≤ lane.lbaRangeLbas ∧ (lane.baseLba = 0 ∨ ∀ index < lane.indices,
      (lane.baseLba + mixSeed index (index % 65535 + 1) lane.lfsrSeed %
        (lane.lbaRangeLbas - lane.setup.params.lbasPerIo + 1)) % 2 ^ 64 ≤
      lane.lbaRangeLbas - lane.setup.params.lbasPerIo)

def Fits (lane : Lane) : Prop :=
  if lane.useRandomAccess then lane.RandomFits
  else SequentialFits lane.baseLba lane.lbaRangeLbas lane.setup.params.lbasPerIo lane.indices

/-! ### Sequential access -/

section

variable {base range blocks indices : Nat}

theorem lt_passStart_iff (positive : 0 < blocks) (index pass : Nat) :
    index < passStart blocks pass ↔ index * blocks < pass * 2 ^ 32 := by
  rw [passStart, ← Nat.succ_le_iff, Nat.le_div_iff_mul_le positive, Nat.succ_mul]
  omega

def sequentialLba (base range blocks index : Nat) : Nat :=
  (base + index * blocks % 2 ^ 32 % range) % 2 ^ 64

/-- Where a round consists of whole transfers, only a transfer that starts inside the last one
leaves the namespace. -/
theorem mod_add_le_iff (positive : 0 < blocks) (divides : blocks ∣ range) (nonempty : 0 < range)
    (product : Nat) :
    product % range + blocks ≤ range ↔
      blocks ∣ product ∨ product / blocks % (range / blocks) + 1 < range / blocks := by
  obtain ⟨count, rfl⟩ := divides
  have countPositive : 0 < count := Nat.pos_of_mul_pos_left nonempty
  have quotient := Nat.mod_lt (product / blocks) countPositive
  have remainder := Nat.mod_lt product positive
  rw [Nat.mul_div_cancel_left count positive, Nat.mod_mul, Nat.dvd_iff_mod_eq_zero]
  have step : blocks * (product / blocks % count + 1) =
      blocks * (product / blocks % count) + blocks := Nat.mul_succ _ _
  rcases Nat.lt_or_ge (product / blocks % count + 1) count with early | last
  · have room := Nat.mul_le_mul_left blocks early
    rw [Nat.mul_succ, step] at room
    exact iff_of_true (by omega) (Or.inr early)
  · have full : product / blocks % count + 1 = count := by omega
    rw [full] at step
    omega

theorem unbroken (baseBound : base < 2 ^ 64)
    (consecutive : ∀ index, index + 1 < indices → (index + 1) * blocks < range →
      sequentialLba base range blocks (index + 1) = sequentialLba base range blocks index + blocks)
    (index : Nat) (issued : index < indices) (below : index * blocks < range) :
    index * blocks < 2 ^ 32 ∧ sequentialLba base range blocks index = base + index * blocks := by
  induction index with
  | zero =>
    rw [sequentialLba, Nat.zero_mul, Nat.zero_mod, Nat.zero_mod, Nat.add_zero]
    exact ⟨by decide, Nat.mod_eq_of_lt baseBound⟩
  | succ index inductionHypothesis =>
    have next := consecutive index issued below
    rw [Nat.succ_mul] at below ⊢
    obtain ⟨-, first⟩ := inductionHypothesis (by omega) (by omega)
    refine ⟨?_, by omega⟩
    by_contra wrapped
    have offset := Nat.mod_le ((index + 1) * blocks % 2 ^ 32) range
    rw [sequentialLba] at next
    omega

theorem product_of_pass (index pass : Nat)
    (first : pass * 2 ^ 32 ≤ index * blocks) (last : index * blocks < (pass + 1) * 2 ^ 32) :
    index * blocks % 2 ^ 32 = index * blocks - pass * 2 ^ 32 := by
  obtain ⟨beyond, split⟩ := Nat.exists_eq_add_of_le first
  rw [split, Nat.add_comm, Nat.add_mul_mod_self_right, Nat.add_sub_cancel]
  exact Nat.mod_eq_of_lt (by omega)

/-- The start of a pass falls on the start of a transfer exactly when `blocks` divides it; the whole
transfers since then are the distance of the indices. -/
theorem pass_quotient (positive : 0 < blocks) (index pass : Nat)
    (first : pass * 2 ^ 32 ≤ index * blocks) :
    (blocks ∣ index * blocks - pass * 2 ^ 32 ↔ blocks ∣ pass * 2 ^ 32) ∧
      (index * blocks - pass * 2 ^ 32) / blocks = index - passStart blocks pass := by
  constructor
  · exact Nat.dvd_sub_iff_right first (Dvd.intro_left index rfl)
  · have started : passStart blocks pass ≤ index := by
      rw [← Nat.not_lt, lt_passStart_iff positive]
      omega
    obtain ⟨distance, rfl⟩ := Nat.exists_eq_add_of_le started
    have reached : pass * 2 ^ 32 ≤ passStart blocks pass * blocks := by
      rw [← Nat.not_lt, ← lt_passStart_iff positive]
      exact lt_irrefl _
    have least : passStart blocks pass * blocks < pass * 2 ^ 32 + blocks := by
      have bound := Nat.div_mul_le_self (pass * 2 ^ 32 + blocks - 1) blocks
      rw [← passStart] at bound
      omega
    rw [Nat.add_mul, Nat.add_sub_cancel_left]
    refine Nat.div_eq_of_lt_le ?_ ?_
    · omega
    · rw [Nat.succ_mul]
      omega

theorem sequentialFits_of_safe (nonempty : 0 < range) (baseBound : base < 2 ^ 64)
    (positive : 0 < blocks) (some_index : 0 < indices)
    (inside : ∀ index < indices, sequentialLba base range blocks index + blocks ≤ range)
    (consecutive : ∀ index, index + 1 < indices → (index + 1) * blocks < range →
      sequentialLba base range blocks (index + 1) =
        sequentialLba base range blocks index + blocks) :
    SequentialFits base range blocks indices := by
  have early := unbroken baseBound consecutive
  have first : base + blocks ≤ range := by
    have start := inside 0 some_index
    rw [(early 0 some_index (by omega)).2] at start
    omega
  rcases Nat.lt_or_ge range (base + indices * blocks) with beyond | within
  · -- the last transfer that starts behind the base and does not pass the end
    have least := Nat.div_mul_le_self (range - base) blocks
    have most := Nat.lt_div_mul_add (a := range - base) positive
    generalize (range - base) / blocks = count at least most
    have issued : count < indices := by
      refine Nat.lt_of_mul_lt_mul_right (a := blocks) ?_
      omega
    have whole : base = 0 ∧ range = count * blocks := by
      rcases Nat.lt_or_ge (count * blocks) range with below | reached
      · have leaves := inside count issued
        rw [(early count issued below).2] at leaves
        omega
      · omega
    obtain ⟨rfl, rfl⟩ := whole
    have countPositive : 0 < count := Nat.pos_of_mul_pos_right nonempty
    refine Or.inr ⟨rfl, Nat.dvd_mul_left blocks count, fun _ => ?_, fun pass later started => ?_⟩
    · obtain ⟨previous, rfl⟩ := Nat.exists_eq_succ_of_ne_zero countPositive.ne'
      have ends := (early previous (by omega) (by rw [Nat.succ_mul]; omega)).1
      rw [Nat.succ_mul]
      omega
    · rw [or_iff_not_imp_left, Nat.mul_div_cancel count positive, ← Nat.not_le]
      intro misaligned long
      -- the transfer of this pass that starts inside the last one of the namespace
      have reached : passStart blocks pass + (count - 1) < indices ∧
          passStart blocks pass + (count - 1) < passStart blocks (pass + 1) := by
        unfold passLength at long
        omega
      generalize place : passStart blocks pass + (count - 1) = index at reached
      have starts : pass * 2 ^ 32 ≤ index * blocks := by
        rw [← Nat.not_lt, ← lt_passStart_iff positive]
        omega
      have ends := (lt_passStart_iff positive index (pass + 1)).mp reached.2
      have leaves := inside index reached.1
      obtain ⟨aligned, quotient⟩ := pass_quotient positive index pass starts
      rw [sequentialLba, Nat.zero_add, product_of_pass index pass starts ends,
        Nat.mod_eq_of_lt] at leaves
      · rw [mod_add_le_iff positive (Nat.dvd_mul_left blocks count) nonempty, aligned, quotient,
          Nat.mul_div_cancel count positive] at leaves
        rcases leaves with divides | room
        · exact misaligned divides
        · rw [← place, Nat.add_sub_cancel_left, Nat.mod_eq_of_lt (by omega)] at room
          omega
      · have bound := Nat.mod_le (index * blocks - pass * 2 ^ 32) (count * blocks)
        omega
  · refine Or.inl ⟨within, (early (indices - 1) (by omega) ?_).1⟩
    have last : (indices - 1) * blocks + blocks = indices * blocks := by
      rw [← Nat.succ_mul, Nat.succ_eq_add_one, Nat.sub_add_cancel some_index]
    omega

theorem sequentialLba_of_lt {index : Nat} (small : index * blocks < 2 ^ 32)
    (below : index * blocks < range) (space : base + index * blocks < 2 ^ 64) :
    sequentialLba base range blocks index = base + index * blocks := by
  rw [sequentialLba, Nat.mod_eq_of_lt small, Nat.mod_eq_of_lt below, Nat.mod_eq_of_lt space]

theorem mul_add_le (blocks : Nat) {index : Nat} (issued : index < indices) :
    index * blocks + blocks ≤ indices * blocks := by
  rw [← Nat.succ_mul]
  exact Nat.mul_le_mul_right blocks issued

theorem mul_le_pred_mul (blocks : Nat) {index : Nat} (issued : index < indices) :
    index * blocks ≤ (indices - 1) * blocks :=
  Nat.mul_le_mul_right blocks (Nat.le_sub_one_of_lt issued)

theorem inside_of_rounds (positive : 0 < blocks) (nonempty : 0 < range) (bound : range < 2 ^ 64)
    (divides : blocks ∣ range)
    (passes : ∀ pass, 0 < pass → pass * 2 ^ 32 ≤ (indices - 1) * blocks →
      blocks ∣ pass * 2 ^ 32 ∨ passLength indices blocks pass < range / blocks)
    (index : Nat) (issued : index < indices) :
    sequentialLba 0 range blocks index + blocks ≤ range := by
  have offset := Nat.mod_lt (index * blocks % 2 ^ 32) nonempty
  rw [sequentialLba, Nat.zero_add, Nat.mod_eq_of_lt (by omega),
    mod_add_le_iff positive divides nonempty]
  have starts := Nat.div_mul_le_self (index * blocks) (2 ^ 32)
  have ends : index * blocks < (index * blocks / 2 ^ 32 + 1) * 2 ^ 32 := by
    rw [Nat.succ_mul]
    exact Nat.lt_div_mul_add (by decide)
  generalize pass_eq : index * blocks / 2 ^ 32 = pass at starts ends
  rw [product_of_pass index pass starts ends]
  obtain ⟨aligned, quotient⟩ := pass_quotient positive index pass starts
  rw [aligned, quotient]
  rcases Nat.eq_zero_or_pos pass with rfl | later
  · exact Or.inl (by simp)
  · refine (passes pass later (starts.trans (mul_le_pred_mul blocks issued))).imp_right
      fun short => ?_
    have before : index < passStart blocks (pass + 1) := (lt_passStart_iff positive _ _).mpr ends
    have place : index - passStart blocks pass < passLength indices blocks pass := by
      have started : passStart blocks pass ≤ index := by
        rw [← Nat.not_lt, lt_passStart_iff positive]
        omega
      unfold passLength
      omega
    rw [Nat.mod_eq_of_lt (by omega)]
    omega

theorem safe_of_sequentialFits (nonempty : 0 < range) (bound : range < 2 ^ 64)
    (positive : 0 < blocks) (fits : SequentialFits base range blocks indices) :
    (∀ index < indices, sequentialLba base range blocks index + blocks ≤ range) ∧
      ∀ index, index + 1 < indices → (index + 1) * blocks < range →
        sequentialLba base range blocks (index + 1) =
          sequentialLba base range blocks index + blocks := by
  rcases fits with ⟨within, unwrapped⟩ | ⟨rfl, divides, short, passes⟩
  · have direct : ∀ index < indices,
        sequentialLba base range blocks index = base + index * blocks := by
      intro index issued
      have product := mul_add_le blocks issued
      have last := mul_le_pred_mul blocks issued
      exact sequentialLba_of_lt (by omega) (by omega) (by omega)
    refine ⟨fun index issued => ?_, fun index issued _ => ?_⟩
    · have product := mul_add_le blocks issued
      rw [direct index issued]
      omega
    · rw [direct _ issued, direct index (by omega), Nat.succ_mul]
      omega
  · refine ⟨inside_of_rounds positive nonempty bound divides passes, ?_⟩
    intro index issued below
    -- the namespace ends before the product passes 2^32
    have small : (index + 1) * blocks < 2 ^ 32 := by
      obtain ⟨count, rfl⟩ := divides
      rw [Nat.mul_comm blocks count] at below short
      have earlier : index + 1 < count := Nat.lt_of_mul_lt_mul_right below
      have room := mul_add_le blocks earlier
      have last := mul_le_pred_mul blocks issued
      by_contra wrapped
      omega
    rw [sequentialLba_of_lt small below (by omega)]
    rw [Nat.succ_mul] at small below ⊢
    rw [sequentialLba_of_lt (by omega) (by omega) (by omega)]
    omega

theorem sequentialFits_iff (nonempty : 0 < range) (bound : range < 2 ^ 64)
    (baseBound : base < 2 ^ 64) (positive : 0 < blocks) (some_index : 0 < indices) :
    ((∀ index < indices, sequentialLba base range blocks index + blocks ≤ range) ∧
      ∀ index, index + 1 < indices → (index + 1) * blocks < range →
        sequentialLba base range blocks (index + 1) =
          sequentialLba base range blocks index + blocks) ↔
      SequentialFits base range blocks indices :=
  ⟨fun safe => sequentialFits_of_safe nonempty baseBound positive some_index safe.1 safe.2,
    safe_of_sequentialFits nonempty bound positive⟩

end

/-! ### Operations and indices -/

section

variable {lane : Lane}

def phaseStart (lane : Lane) : Nat :=
  if lane.setup.params.infiniteMode = false ∧
      lane.setup.params.writeIo < lane.setup.params.readIo then lane.setup.params.writeIo
  else 0

theorem operations_finite (finite : lane.setup.params.infiniteMode = false) :
    lane.operations = lane.setup.params.readIo + lane.setup.params.writeIo := by
  have reads := lane.readIo_lt
  have writes := lane.writeIo_lt
  rw [operations, finite, if_neg (by simp), IoParams.totalOps, Nat.mod_eq_of_lt (by omega)]

theorem indices_finite (finite : lane.setup.params.infiniteMode = false) :
    lane.indices = max lane.setup.params.readIo lane.setup.params.writeIo := by
  rw [indices, finite, if_neg (by simp)]

theorem isReadOp_finite (finite : lane.setup.params.infiniteMode = false) {opIdx : Nat}
    (issued : opIdx < lane.operations) :
    lane.setup.isReadOp opIdx = decide (lane.setup.params.writeIo ≤ opIdx) := by
  rw [operations_finite finite] at issued
  simp only [Setup.isReadOp, finite, Bool.false_eq_true, if_false]
  split_ifs
  · rfl
  · rw [decide_eq_decide]
    omega

theorem lbaIdx_infinite (infinite : lane.setup.params.infiniteMode = true) (opIdx : Nat) :
    lane.lbaIdx opIdx = opIdx := by
  have direction := lane.infinite infinite
  refine if_neg ?_
  simp only [Setup.isReadOp, infinite, if_true, decide_eq_true_eq]
  omega

theorem lbaIdx_finite (finite : lane.setup.params.infiniteMode = false) {opIdx : Nat}
    (issued : opIdx < lane.operations) :
    lane.lbaIdx opIdx =
      if lane.setup.params.writeIo ≤ opIdx then opIdx - lane.setup.params.writeIo else opIdx := by
  have reads := lane.readIo_lt
  simp only [lbaIdx, isReadOp_finite finite issued, decide_eq_true_eq]
  rw [operations_finite finite] at issued
  split_ifs <;> omega

/-- Operations use the indices below `indices` only, and operations of one direction use
consecutive ones. -/
theorem lbaIdx_lt {opIdx : Nat} (issued : opIdx < lane.operations) :
    lane.lbaIdx opIdx < lane.indices := by
  cases mode : lane.setup.params.infiniteMode with
  | true => simpa [lbaIdx_infinite mode, operations, indices, mode] using issued
  | false =>
    rw [lbaIdx_finite mode issued, indices_finite mode, lt_max_iff]
    rw [operations_finite mode] at issued
    split_ifs <;> omega

theorem lbaIdx_succ {opIdx : Nat} (issued : opIdx + 1 < lane.operations)
    (sameDirection : lane.setup.isReadOp (opIdx + 1) = lane.setup.isReadOp opIdx) :
    lane.lbaIdx (opIdx + 1) = lane.lbaIdx opIdx + 1 := by
  cases mode : lane.setup.params.infiniteMode with
  | true => rw [lbaIdx_infinite mode, lbaIdx_infinite mode]
  | false =>
    have before : opIdx < lane.operations := Nat.lt_of_succ_lt issued
    rw [isReadOp_finite mode issued, isReadOp_finite mode before, decide_eq_decide]
      at sameDirection
    rw [lbaIdx_finite mode issued, lbaIdx_finite mode before]
    split_ifs <;> omega

theorem lbaIdx_phaseStart {index : Nat} (used : index < lane.indices) :
    lane.phaseStart + index < lane.operations ∧ lane.lbaIdx (lane.phaseStart + index) = index ∧
      (0 < index → lane.setup.isReadOp (lane.phaseStart + index) =
        lane.setup.isReadOp (lane.phaseStart + (index - 1))) := by
  cases mode : lane.setup.params.infiniteMode with
  | true =>
    have start : lane.phaseStart = 0 := by simp [phaseStart, mode]
    have issued : index < lane.operations := by simpa [operations, indices, mode] using used
    rw [start, Nat.zero_add, lbaIdx_infinite mode]
    exact ⟨issued, rfl, fun _ => by simp [Setup.isReadOp, mode]⟩
  | false =>
    rw [indices_finite mode, lt_max_iff] at used
    have start : lane.phaseStart =
        if lane.setup.params.writeIo < lane.setup.params.readIo then lane.setup.params.writeIo
        else 0 := by
      simp [phaseStart, mode]
    have issued : lane.phaseStart + index < lane.operations := by
      rw [operations_finite mode, start]
      split_ifs <;> omega
    refine ⟨issued, ?_, fun later => ?_⟩
    · rw [lbaIdx_finite mode issued, start]
      split_ifs <;> omega
    · rw [isReadOp_finite mode issued, isReadOp_finite mode (by omega), decide_eq_decide, start]
      split_ifs <;> omega

theorem indices_pos (lane : Lane) : 0 < lane.indices := by
  have requested := lane.requested
  unfold indices
  split_ifs <;> omega

theorem safe_iff_indices (lane : Lane) : lane.Safe ↔ (∀ index < lane.indices,
      lane.lbaAt index + lane.setup.params.lbasPerIo ≤ lane.lbaRangeLbas) ∧
    (lane.useRandomAccess = false → ∀ index, index + 1 < lane.indices →
      (index + 1) * lane.setup.params.lbasPerIo < lane.lbaRangeLbas →
      lane.lbaAt (index + 1) = lane.lbaAt index + lane.setup.params.lbasPerIo) := by
  constructor
  · rintro ⟨inside, consecutive⟩
    refine ⟨fun index used => ?_, fun sequential index used below => ?_⟩
    · obtain ⟨issued, same, -⟩ := lbaIdx_phaseStart used
      have inside := inside _ issued
      rwa [lba, same] at inside
    · obtain ⟨issued, same, direction⟩ := lbaIdx_phaseStart used
      obtain ⟨-, before, -⟩ := lbaIdx_phaseStart (Nat.lt_of_succ_lt used)
      have follows := consecutive sequential (lane.phaseStart + index) issued
        (direction (Nat.succ_pos index)) (by rw [before]; exact below)
      rwa [lba, lba, before, Nat.add_assoc, same] at follows
  · rintro ⟨inside, consecutive⟩
    refine ⟨fun opIdx issued => inside _ (lbaIdx_lt issued), ?_⟩
    intro sequential opIdx issued sameDirection below
    have next := lbaIdx_succ issued sameDirection
    have used := lbaIdx_lt issued
    rw [next] at used
    rw [lba, lba, next]
    exact consecutive sequential _ used below

/-! ### Both kinds of access -/

theorem lbaAt_sequential (sequential : lane.useRandomAccess = false) (index : Nat) :
    lane.lbaAt index = sequentialLba lane.baseLba lane.lbaRangeLbas
      lane.setup.params.lbasPerIo index := by
  rw [lbaAt, getRandomLba, if_neg (by simp [sequential]), if_pos lane.lbaRangeLbas_pos,
    sequentialLba]

theorem lbaAt_random (random : lane.useRandomAccess = true)
    (fits : lane.setup.params.lbasPerIo ≤ lane.lbaRangeLbas) (index : Nat) :
    lane.lbaAt index = (lane.baseLba + mixSeed index (index % 65535 + 1) lane.lfsrSeed %
        (lane.lbaRangeLbas - lane.setup.params.lbasPerIo + 1)) % 2 ^ 64 := by
  rw [lbaAt, getRandomLba, if_pos ⟨random, lane.lbaRangeLbas_pos⟩, maxLba,
    if_pos ⟨lane.lbasPerIo_pos, fits⟩]

theorem randomFits_iff (random : lane.useRandomAccess = true) : (∀ index < lane.indices,
      lane.lbaAt index + lane.setup.params.lbasPerIo ≤ lane.lbaRangeLbas) ↔ lane.RandomFits := by
  constructor
  · intro inside
    have fits : lane.setup.params.lbasPerIo ≤ lane.lbaRangeLbas :=
      (Nat.le_add_left _ _).trans (inside 0 lane.indices_pos)
    refine ⟨fits, Or.inr fun index used => ?_⟩
    have drawn := inside index used
    rw [lbaAt_random random fits] at drawn
    exact Nat.le_sub_of_add_le drawn
  · rintro ⟨fits, room⟩ index used
    rw [lbaAt_random random fits, ← Nat.le_sub_iff_add_le fits]
    rcases room with zero | drawn
    · have draw := Nat.mod_lt (mixSeed index (index % 65535 + 1) lane.lfsrSeed)
        (Nat.succ_pos (lane.lbaRangeLbas - lane.setup.params.lbasPerIo))
      rw [zero, Nat.zero_add]
      exact (Nat.mod_le _ _).trans (Nat.le_of_lt_succ draw)
    · exact drawn index used

theorem safe_iff_randomFits (random : lane.useRandomAccess = true) :
    lane.Safe ↔ lane.RandomFits := by
  rw [safe_iff_indices, ← randomFits_iff random]
  simp [random]

/-- Without a base, random transfers are safe as soon as one of them fits the namespace, whatever
the seed and the draws. -/
theorem random_safe_iff_of_base_zero (random : lane.useRandomAccess = true)
    (first : lane.baseLba = 0) :
    lane.Safe ↔ lane.setup.params.lbasPerIo ≤ lane.lbaRangeLbas := by
  rw [safe_iff_randomFits random, RandomFits, first]
  exact and_iff_left (.inl rfl)

/-- The transfers of a lane stay inside the namespace, and follow each other in sequential
access, exactly when the lane fits. -/
theorem lba_safe_iff (lane : Lane) : lane.Safe ↔ lane.Fits := by
  rw [Fits]
  cases access : lane.useRandomAccess with
  | true =>
    rw [if_pos rfl]
    exact safe_iff_randomFits access
  | false =>
    rw [safe_iff_indices, if_neg (by simp), ← sequentialFits_iff lane.lbaRangeLbas_pos
      lane.lbaRangeLbas_lt lane.baseLba_lt lane.lbasPerIo_pos lane.indices_pos]
    simp only [lbaAt_sequential access, access, forall_const]

end

end Lane

/-! ### A namespace that is not a multiple of the transfer -/

theorem transferBlocks_lt : 4 < 2 ^ 32 := by decide

def threeWritesParams : IoParams where
  lbaSize := 512
  lbasPerIo := 4
  queueSize := 8
  batchSize := 1
  readIo := 0
  writeIo := 3
  infiniteMode := false
  lbaSize_lt := BufferParams.sectorSize_lt
  lbasPerIo_lt := transferBlocks_lt
  queueSize_pos := by decide
  queueSize_lt := by decide

def threeWrites : Setup where
  params := threeWritesParams
  buffers := ⟨4096, repeatedPage 4096, repeatedPage 4096, fun _ => 0, fun _ _ => rfl⟩
  timingStats := false
  stopRequested := false

def tenBlocks : Lane where
  setup := threeWrites
  baseLba := 0
  lbaRangeLbas := 10
  useRandomAccess := false
  lfsrSeed := 0
  baseLba_lt := by decide
  lbaRangeLbas_pos := by decide
  lbaRangeLbas_lt := by decide
  lbasPerIo_pos := by decide
  readIo_lt := by decide
  writeIo_lt := by decide
  requested := by decide
  infinite := fun impossible => absurd impossible (by decide)

theorem lba_beyond_namespace : threeWritesParams.accepts 4096 = true ∧ 2 < tenBlocks.operations ∧
    tenBlocks.lba 2 = 8 ∧ ¬ tenBlocks.Safe := by
  refine ⟨by decide, by decide, by decide, fun safe => ?_⟩
  have inside := safe.inside 2 (by decide)
  exact absurd inside (by decide)

end RocmXio.Nvme
