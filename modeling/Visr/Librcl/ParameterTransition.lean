import Visr.Library.Glide

/-!
# Transitions of a parameter

The gains and the delays of a component change from their current to their next values in
the course of a number of blocks.

## Main results

* `ParameterTransition.Tracks.set` — resumable transitions follow a new target.
* `ParameterTransition.Tracks.block` — the values within a block.
-/

namespace Visr

variable {ι K : Type}

/-- A transition that takes `interpolationBlocks` blocks.  The counter is checked by an
assertion. -/
structure ParameterTransition (ι K : Type) (interpolationBlocks : ℕ) where
  current : ι → K
  next : ι → K
  interpolationCounter : ℕ
  counter_le : interpolationCounter ≤ interpolationBlocks

variable [Field K]

def vectorCombinationInplace (ratio : K) (op1 op2result : ι → K) : ι → K :=
  fun idx => ratio * (op2result idx - op1 idx) + op1 idx

namespace ParameterTransition

variable {blocks : ℕ}

/-- The state after setup. -/
def initial (blocks : ℕ) (values : ι → K) : ParameterTransition ι K blocks :=
  ⟨values, values, 0, Nat.zero_le blocks⟩

/-- New values.  The arguments of the combination are the next and the current values, in
this order. -/
def set (t : ParameterTransition ι K blocks) (ratio : K) (values : ι → K) :
    ParameterTransition ι K blocks where
  current :=
    if t.interpolationCounter < blocks then vectorCombinationInplace ratio t.next t.current
    else t.next
  next := values
  interpolationCounter := 0
  counter_le := Nat.zero_le blocks

/-- The value before the first sample of a block. -/
def startValue (t : ParameterTransition ι K blocks) (idx : ι) : K :=
  let currentRatio := (t.interpolationCounter : K) / blocks
  (1 - currentRatio) * t.current idx + currentRatio * t.next idx

/-- The value of the last sample of a block. -/
def endValue (t : ParameterTransition ι K blocks) (idx : ι) : K :=
  let nextRatio := ((min (t.interpolationCounter + 1) blocks : ℕ) : K) / blocks
  (1 - nextRatio) * t.current idx + nextRatio * t.next idx

def advance (t : ParameterTransition ι K blocks) : ParameterTransition ι K blocks :=
  { t with
    interpolationCounter := min blocks (t.interpolationCounter + 1)
    counter_le := Nat.min_le_left blocks _ }

/-- The transition has come to its end, or is exactly half way, or leads nowhere. -/
def Resumable (t : ParameterTransition ι K blocks) : Prop :=
  t.interpolationCounter = blocks ∨ 2 * t.interpolationCounter = blocks ∨
    ∀ idx, t.current idx = t.next idx

theorem startValue_eq (t : ParameterTransition ι K blocks) (idx : ι) :
    t.startValue idx =
      between (t.current idx) (t.next idx) ((t.interpolationCounter : K) / blocks) := rfl

theorem endValue_eq (t : ParameterTransition ι K blocks) (idx : ι) :
    t.endValue idx =
      between (t.current idx) (t.next idx)
        (((min (t.interpolationCounter + 1) blocks : ℕ) : K) / blocks) := rfl

theorem vectorCombinationInplace_eq (ratio : K) (op1 op2result : ι → K) (idx : ι) :
    vectorCombinationInplace ratio op1 op2result idx =
      between (op1 idx) (op2result idx) ratio := by
  unfold vectorCombinationInplace between
  ring

/-- What the elapsed part of a transition is after a number of its blocks. -/
theorem ratio_mem [LinearOrder K] [IsStrictOrderedRing K] {n : ℕ} (h : n ≤ blocks) :
    0 ≤ (n : K) / blocks ∧ (n : K) / blocks ≤ 1 :=
  ⟨div_nonneg (Nat.cast_nonneg n) (Nat.cast_nonneg blocks),
    div_le_one_of_le₀ (Nat.cast_le.mpr h) (Nat.cast_nonneg blocks)⟩

variable [CharZero K]

/-- **Resumption.**  The value that a new transition starts from is weighted the other way
round, which makes no difference half way, nor if there is nothing to be weighted. -/
theorem current_set (hblocks : 0 < blocks) {t : ParameterTransition ι K blocks}
    (h : t.Resumable) (values : ι → K) (idx : ι) :
    (t.set ((t.interpolationCounter : K) / blocks) values).current idx = t.startValue idx := by
  have hne : (blocks : K) ≠ 0 := Nat.cast_ne_zero.mpr (by omega)
  have hle := t.counter_le
  rw [startValue_eq]
  show (if t.interpolationCounter < blocks then vectorCombinationInplace _ t.next t.current
    else t.next) idx = _
  split
  next hlt =>
    rw [vectorCombinationInplace_eq]
    rcases h with hend | hhalf | hsame
    · omega
    · have hcast : (blocks : K) = 2 * (t.interpolationCounter : K) := by
        have heq : ((2 * t.interpolationCounter : ℕ) : K) = (blocks : K) := congrArg _ hhalf
        rw [← heq, Nat.cast_mul, Nat.cast_ofNat]
      have hcounter : (t.interpolationCounter : K) ≠ 0 := Nat.cast_ne_zero.mpr (by omega)
      unfold between
      rw [hcast]
      field_simp
      ring
    · rw [hsame idx, between_self]
  next hnot =>
    have hend : t.interpolationCounter = blocks := by omega
    rw [hend, div_self hne, between_one]

/-! ### Glides -/

/-- The transition is that of a glide for each element. -/
structure Tracks (size : ℕ) (t : ParameterTransition ι K blocks) (g : ι → Glide K) : Prop where
  start : ∀ idx, (g idx).start = t.current idx
  target : ∀ idx, (g idx).target = t.next idx
  elapsed : ∀ idx, min (g idx).elapsed (blocks * size) = t.interpolationCounter * size

omit [Field K] [CharZero K] in
theorem tracks_initial (blocks size : ℕ) (values : ι → K) :
    Tracks size (initial blocks values) fun idx => Glide.still (values idx) :=
  ⟨fun _ => rfl, fun _ => rfl, fun _ => by
    show min 0 (blocks * size) = 0 * size
    omega⟩

variable {size : ℕ} {t : ParameterTransition ι K blocks} {g : ι → Glide K}

/-- The values at the ends of a block. -/
theorem Tracks.value_blocks (hblocks : 0 < blocks) (hsize : 0 < size) (h : Tracks size t g)
    (idx : ι) {n : ℕ} (hn : n ≤ blocks) :
    (g idx).value (blocks * size) (n * size) =
      between (t.current idx) (t.next idx) ((n : K) / blocks) := by
  have hne : (blocks : K) ≠ 0 := Nat.cast_ne_zero.mpr (by omega)
  have hsize' : (size : K) ≠ 0 := Nat.cast_ne_zero.mpr (by omega)
  rw [Glide.value_line (Nat.mul_pos hblocks hsize) (Nat.mul_le_mul_right size hn), h.start,
    h.target]
  push_cast
  congr 1
  field_simp

omit [CharZero K] in
/-- After the end of the transition, time does not matter. -/
theorem Tracks.value_elapsed (h : Tracks size t g) (idx : ι) (n : ℕ) :
    (g idx).value (blocks * size) ((g idx).elapsed + n) =
      (g idx).value (blocks * size) (t.interpolationCounter * size + n) := by
  have helapsed := h.elapsed idx
  by_cases hle : (g idx).elapsed ≤ blocks * size
  · rw [Nat.min_eq_left hle] at helapsed
    rw [helapsed]
  · rw [Nat.min_eq_right (by omega)] at helapsed
    rw [Glide.value_of_le (by omega), Glide.value_of_le (by omega)]

theorem Tracks.present (hblocks : 0 < blocks) (hsize : 0 < size) (h : Tracks size t g) (idx : ι) :
    (g idx).present (blocks * size) = t.startValue idx := by
  have hvalue := h.value_elapsed idx 0
  rw [Nat.add_zero, Nat.add_zero, h.value_blocks hblocks hsize idx t.counter_le] at hvalue
  exact hvalue

/-- **Blocks.**  The values of the samples of a block are on the line between its ends. -/
theorem Tracks.block (hblocks : 0 < blocks) (hsize : 0 < size) (h : Tracks size t g) (idx : ι)
    {n : ℕ} (hn : n < size) :
    (g idx).value (blocks * size) ((g idx).elapsed + n + 1) =
      between (t.startValue idx) (t.endValue idx) (((n + 1 : ℕ) : K) / size) := by
  have hle := t.counter_le
  rw [Nat.add_assoc, h.value_elapsed idx (n + 1), ← Nat.add_assoc, Glide.value_block hsize hn,
    h.value_blocks hblocks hsize idx hle]
  congr 1
  by_cases hlt : t.interpolationCounter + 1 ≤ blocks
  · rw [h.value_blocks hblocks hsize idx hlt, endValue_eq, Nat.min_eq_left hlt]
  · have hend : t.interpolationCounter = blocks := by omega
    have hne : (blocks : K) ≠ 0 := Nat.cast_ne_zero.mpr (by omega)
    have hpast : blocks * size ≤ (t.interpolationCounter + 1) * size :=
      Nat.mul_le_mul_right size (by omega)
    rw [Glide.value_of_le hpast, endValue_eq, Nat.min_eq_right (by omega), div_self hne,
      between_one, h.target]

/-- A new target for a transition that can be resumed. -/
theorem Tracks.set (hblocks : 0 < blocks) (hsize : 0 < size) (h : Tracks size t g)
    (hresumable : t.Resumable) (values : ι → K) :
    Tracks size (t.set ((t.interpolationCounter : K) / blocks) values)
      fun idx => (g idx).retarget (blocks * size) (values idx) where
  start idx := by
    rw [current_set hblocks hresumable values idx, ← h.present hblocks hsize idx]
    rfl
  target _ := rfl
  elapsed _ := by
    show min 0 (blocks * size) = 0 * size
    omega

omit [Field K] [CharZero K] in
theorem Tracks.advance (h : Tracks size t g) :
    Tracks size t.advance fun idx => (g idx).advance size where
  start := h.start
  target := h.target
  elapsed idx := by
    have helapsed := h.elapsed idx
    have hle := t.counter_le
    show min ((g idx).elapsed + size) (blocks * size) =
      min blocks (t.interpolationCounter + 1) * size
    by_cases hlt : t.interpolationCounter + 1 ≤ blocks
    · have hnext : (t.interpolationCounter + 1) * size ≤ blocks * size :=
        Nat.mul_le_mul_right size hlt
      rw [Nat.add_mul, Nat.one_mul] at hnext
      rw [Nat.min_eq_right hlt, Nat.add_mul, Nat.one_mul]
      omega
    · have hend : t.interpolationCounter * size = blocks * size := by
        rw [show t.interpolationCounter = blocks by omega]
      rw [Nat.min_eq_left (by omega : blocks ≤ t.interpolationCounter + 1)]
      omega

end ParameterTransition

end Visr
