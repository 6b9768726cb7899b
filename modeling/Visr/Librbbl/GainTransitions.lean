import Mathlib.Data.List.Chain
import Visr.Librbbl.GainMatrix

/-!
# Transitions of a gain matrix

According to the documentation, an update starts a transition from the gains in force to the
new ones.  The gains in force are reconstructed from the previous and the next gains and the
number of blocks since the latest update.  A change that is too small is completed at once; for
this, the change so far is looked at, and not that which remains.  If no block has been
processed since the latest update, there is no change so far.

## Main results

* `GainMatrix.start_iff` — when an update starts from the gains in force.
* `GainMatrix.followsDocumentation_iff` — when a run follows the documentation.
-/

namespace Visr

variable {K : Type} [Field K] [LinearOrder K]

namespace GainMatrix

/-- The operations on a gain matrix. -/
inductive Event (K : Type) (alignment : ℕ)
  | setNewGains (newGains : ℕ → ℕ → K)
  | process (input : ℕ → ℕ → K) (output : OutputVectors K alignment)

def Event.isUpdate {alignment : ℕ} : Event K alignment → Bool
  | setNewGains _ => true
  | process _ _ => false

/-- The way from the gain at which a transition starts to the newest target. -/
def ramp (m : GainMatrix K) (elapsed outputIdx inputIdx : ℕ) : Glide K :=
  ⟨m.previousGains outputIdx inputIdx, m.nextGains outputIdx inputIdx, elapsed⟩

/-- The gains in force after another block. -/
def reached (m : GainMatrix K) (elapsed outputIdx inputIdx : ℕ) : K :=
  (m.ramp elapsed outputIdx inputIdx).value m.fader.interpolationSamples
    (elapsed + m.fader.blockSize)

/-- **The documented behaviour** of a run, with the gains `inForce` for the last sample that was
processed and the number of samples since the latest update.  An update starts a transition to
the new gains from the gains in force, up to the distance at which small changes are completed at
once.  A block is mixed with the gains on the way. -/
def FollowsDocumentation (eps : K) {alignment : ℕ} (m : GainMatrix K) (inForce : ℕ → ℕ → K)
    (elapsed : ℕ) : List (Event K alignment) → Prop
  | [] => True
  | .setNewGains newGains :: events =>
    ∃ m', m.setNewGains eps newGains m.numberOfOutputs m.numberOfInputs = .ok m' ∧
      (∀ outputIdx < m.numberOfOutputs, ∀ inputIdx < m.numberOfInputs,
        |m'.previousGains outputIdx inputIdx - inForce outputIdx inputIdx| ≤
          m.fader.interpolationSamples * eps ∧
        m'.nextGains outputIdx inputIdx = newGains outputIdx inputIdx) ∧
      FollowsDocumentation eps m' inForce 0 events
  | .process input output :: events =>
    ∃ m' result, m.process input output.channel = .ok (m', result) ∧
      (∀ outputIdx < m.numberOfOutputs, ∀ idx < m.fader.blockSize, result outputIdx idx =
        ∑ inputIdx ∈ Finset.range m.numberOfInputs,
          (m.ramp elapsed outputIdx inputIdx).value m.fader.interpolationSamples
            (elapsed + idx + 1) * input inputIdx idx) ∧
      FollowsDocumentation eps m' (m.reached elapsed) (elapsed + m.fader.blockSize) events

/-- If no sample has been processed since the latest update, then the targets of that update are
those gains that are in force anyway. -/
def UpdatesInTime (eps : K) {alignment : ℕ} (m : GainMatrix K) (inForce : ℕ → ℕ → K)
    (elapsed : ℕ) : List (Event K alignment) → Prop
  | [] => True
  | .setNewGains newGains :: events =>
    (elapsed = 0 → ∀ outputIdx < m.numberOfOutputs, ∀ inputIdx < m.numberOfInputs,
      |m.nextGains outputIdx inputIdx - inForce outputIdx inputIdx| ≤
        m.fader.interpolationSamples * eps) ∧
    UpdatesInTime eps (m.setGainsInternal eps newGains) inForce 0 events
  | .process _ _ :: events =>
    UpdatesInTime eps m.advance (m.reached elapsed) (elapsed + m.fader.blockSize) events

/-! ### The invariant -/

/-- A gain matrix whose transitions take a positive number of blocks. -/
structure Inv (alignment periods blockSize : ℕ) (m : GainMatrix K) (inForce : ℕ → ℕ → K)
    (elapsed : ℕ) : Prop where
  alignment_eq : m.alignment = alignment
  periods_pos : 0 < periods
  created : ∃ hblock : 0 < blockSize,
    GainFader.create blockSize hblock (periods * blockSize) alignment = .ok m.fader
  counted : ∃ blocks, elapsed = blocks * blockSize ∧ m.interpolationCounter = min blocks periods
  inForce_eq : elapsed ≠ 0 → ∀ outputIdx inputIdx, inForce outputIdx inputIdx =
    (m.ramp elapsed outputIdx inputIdx).value (periods * blockSize) elapsed

variable [IsStrictOrderedRing K] {alignment periods blockSize elapsed : ℕ} {m : GainMatrix K}
  {inForce : ℕ → ℕ → K}

omit [IsStrictOrderedRing K] in
/-- What an update leaves behind. -/
theorem Inv.update (h : Inv alignment periods blockSize m inForce elapsed) (eps : K)
    (newGains : ℕ → ℕ → K) :
    Inv alignment periods blockSize (m.setGainsInternal eps newGains) inForce 0 where
  alignment_eq := h.alignment_eq
  periods_pos := h.periods_pos
  created := h.created
  counted := ⟨0, (Nat.zero_mul blockSize).symm, (Nat.zero_min periods).symm⟩
  inForce_eq hne := absurd rfl hne

/-- What a block leaves behind. -/
theorem Inv.advance (h : Inv alignment periods blockSize m inForce elapsed) :
    Inv alignment periods blockSize m.advance (m.reached elapsed) (elapsed + m.fader.blockSize) := by
  obtain ⟨hblock, hcreate⟩ := h.created
  obtain ⟨blocks, helapsed, hcounter⟩ := h.counted
  obtain ⟨hsize, hsamples, hcount⟩ := GainFader.create_periods hcreate
  have hfader : m.advance.fader = m.fader := by
    unfold GainMatrix.advance
    split
    · rfl
    · rfl
  have hramp : m.advance.ramp = m.ramp := by
    unfold GainMatrix.advance
    split
    · rfl
    · rfl
  -- the counter stops when the transition is complete
  refine ⟨?_, h.periods_pos, ⟨hblock, hfader ▸ hcreate⟩, ⟨blocks + 1, ?_, ?_⟩, ?_⟩
  · rw [← h.alignment_eq]
    unfold GainMatrix.advance
    split
    · rfl
    · rfl
  · rw [helapsed, hsize, Nat.succ_mul]
  · unfold GainMatrix.advance
    rw [hcount]
    split
    · show m.interpolationCounter + 1 = _
      omega
    · omega
  · intro _ outputIdx inputIdx
    rw [hramp]
    unfold reached
    rw [hsamples]
    rfl

/-! ### One operation -/

/-- The gains of a block lie on the way. -/
theorem Inv.gain_eq (h : Inv alignment periods blockSize m inForce elapsed)
    (outputIdx inputIdx : ℕ) {idx : ℕ} (hidx : idx < blockSize) :
    m.gain outputIdx inputIdx idx =
      (m.ramp elapsed outputIdx inputIdx).value (periods * blockSize) (elapsed + idx + 1) := by
  obtain ⟨hblock, hcreate⟩ := h.created
  obtain ⟨blocks, helapsed, hcounter⟩ := h.counted
  unfold gain
  rw [hcounter, helapsed]
  exact GainFader.gain_eq h.periods_pos hcreate _ _ _ blocks hidx

/-- Completing a change of which at least one part in `steps` has been made, if what has been
made is below a threshold. -/
theorem completed_sub_le {a b r steps eps : K} (hr : r ≤ 1) (hsteps : 0 ≤ steps)
    (hpart : 1 ≤ steps * r) (hzero : 0 ≤ r) (heps : 0 ≤ eps) :
    |(if |r * (b - a)| ≥ eps then a + r * (b - a) else b) - between a b r| ≤ steps * eps := by
  split
  · have hexact : a + r * (b - a) - between a b r = 0 := by
      unfold between
      ring
    rw [hexact, abs_zero]
    exact mul_nonneg hsteps heps
  next hsmall =>
    rw [ge_iff_le, not_le, abs_mul, abs_of_nonneg hzero] at hsmall
    have hrest : b - between a b r = (1 - r) * (b - a) := by
      unfold between
      ring
    rw [hrest, abs_mul, abs_of_nonneg (sub_nonneg.mpr hr)]
    calc (1 - r) * |b - a| ≤ 1 * |b - a| :=
          mul_le_mul_of_nonneg_right (by linarith) (abs_nonneg _)
      _ ≤ steps * r * |b - a| := mul_le_mul_of_nonneg_right hpart (abs_nonneg _)
      _ = steps * (r * |b - a|) := mul_assoc _ _ _
      _ ≤ steps * eps := mul_le_mul_of_nonneg_left hsmall.le hsteps

/-- **The start of a transition.**  Without a block since the latest update, it is the target of
that update; otherwise it is next to the gain in force. -/
theorem start_iff {eps : K} (heps : 0 < eps)
    (h : Inv alignment periods blockSize m inForce elapsed) (newGains : ℕ → ℕ → K) :
    (∀ outputIdx < m.numberOfOutputs, ∀ inputIdx < m.numberOfInputs,
      |(m.setGainsInternal eps newGains).previousGains outputIdx inputIdx -
        inForce outputIdx inputIdx| ≤ m.fader.interpolationSamples * eps) ↔
    (elapsed = 0 → ∀ outputIdx < m.numberOfOutputs, ∀ inputIdx < m.numberOfInputs,
      |m.nextGains outputIdx inputIdx - inForce outputIdx inputIdx| ≤
        m.fader.interpolationSamples * eps) := by
  obtain ⟨hblock, hcreate⟩ := h.created
  obtain ⟨blocks, helapsed, hcounter⟩ := h.counted
  obtain ⟨hsize, hsamples, hcount⟩ := GainFader.create_periods hcreate
  have hperiods := h.periods_pos
  have hsamples' : (m.fader.interpolationSamples : K) = ((periods * blockSize : ℕ) : K) := by
    rw [hsamples]
  have htolerance : 0 ≤ ((periods * blockSize : ℕ) : K) * eps :=
    mul_nonneg (Nat.cast_nonneg _) heps.le
  by_cases hzero : blocks = 0
  · -- the change so far is zero
    subst hzero
    have hprevious : (m.setGainsInternal eps newGains).previousGains = m.nextGains := by
      unfold setGainsInternal
      simp only [hcounter, hcount]
      rw [if_neg (by omega)]
      simp [not_le.mpr heps]
    rw [hprevious]
    exact ⟨fun hall _ => hall, fun hall => hall (by rw [helapsed, Nat.zero_mul])⟩
  · have hpos : elapsed ≠ 0 := by
      rw [helapsed]
      exact Nat.mul_ne_zero hzero (by omega)
    refine iff_of_true (fun outputIdx _ inputIdx _ => ?_) fun h0 => absurd h0 hpos
    rw [h.inForce_eq hpos, hsamples']
    unfold setGainsInternal
    simp only [hcounter, hcount]
    by_cases hdone : periods ≤ blocks
    · -- the target has been reached
      rw [if_pos (by omega), helapsed, Glide.value_of_le (Nat.mul_le_mul_right _ hdone)]
      simpa [ramp] using htolerance
    · have hlt : blocks * blockSize < periods * blockSize :=
        Nat.mul_lt_mul_of_pos_right (Nat.not_le.mp hdone) hblock
      have hsteps : (0 : K) < ((periods * blockSize : ℕ) : K) := by
        exact_mod_cast Nat.lt_of_le_of_lt (Nat.zero_le _) hlt
      have hratio : ((blocks * blockSize : ℕ) : K) / ((periods * blockSize : ℕ) : K) ≤ 1 :=
        (div_le_one hsteps).mpr (by exact_mod_cast hlt.le)
      have hone : 1 ≤ blocks * blockSize := Nat.mul_pos (Nat.pos_of_ne_zero hzero) hblock
      rw [if_neg (by omega), Nat.min_eq_left (by omega), hsize, hsamples', min_eq_right hratio,
        helapsed, Glide.value_of_lt hlt]
      refine completed_sub_le hratio hsteps.le ?_ (by positivity) heps.le
      rw [mul_div_cancel₀ _ hsteps.ne']
      exact_mod_cast hone

/-! ### Runs -/

/-- The step from one operation to the next, for any state with the invariant. -/
theorem followsDocumentation_iff_of_inv {eps : K} (heps : 0 < eps)
    (h : Inv alignment periods blockSize m inForce elapsed) (events : List (Event K alignment)) :
    FollowsDocumentation eps m inForce elapsed events ↔
      UpdatesInTime eps m inForce elapsed events := by
  induction events generalizing m inForce elapsed with
  | nil => exact Iff.rfl
  | cons event events ih =>
    cases event with
    | setNewGains newGains =>
      have hset : m.setNewGains eps newGains m.numberOfOutputs m.numberOfInputs =
          .ok (m.setGainsInternal eps newGains) := by simp [setNewGains]
      have hstart := start_iff heps h newGains
      unfold FollowsDocumentation UpdatesInTime
      constructor
      · rintro ⟨m', hm', hgains, hrest⟩
        obtain rfl := Except.ok.inj (hset.symm.trans hm')
        exact ⟨hstart.mp fun o ho i hi => (hgains o ho i hi).1, (ih (h.update eps newGains)).mp hrest⟩
      · rintro ⟨hzero, hrest⟩
        exact ⟨_, hset, fun o ho i hi => ⟨hstart.mpr hzero o ho i hi, rfl⟩,
          (ih (h.update eps newGains)).mpr hrest⟩
    | process input output =>
      obtain ⟨hblock, hcreate⟩ := h.created
      obtain ⟨hsize, hsamples, -⟩ := GainFader.create_periods hcreate
      obtain rfl := h.alignment_eq
      obtain ⟨result, hresult, haudio⟩ := process_eq input output
      unfold FollowsDocumentation UpdatesInTime
      constructor
      · rintro ⟨m', result', hm', -, hrest⟩
        obtain ⟨rfl, rfl⟩ := Prod.mk.inj (Except.ok.inj (hresult.symm.trans hm'))
        exact (ih h.advance).mp hrest
      · intro hrest
        refine ⟨_, result, hresult, fun o ho idx hidx => ?_, (ih h.advance).mpr hrest⟩
        -- a block applies the gains of the glide, whatever has been documented before
        rw [haudio o ho idx hidx, hsamples]
        refine Finset.sum_congr rfl fun i _ => ?_
        rw [h.gain_eq o i (hsize ▸ hidx)]

omit [LinearOrder K] [IsStrictOrderedRing K] in
omit [LinearOrder K] [IsStrictOrderedRing K] in
theorem inv_of_create {numberOfInputs numberOfOutputs numberOfRows numberOfColumns : ℕ}
    {hblock : 0 < blockSize} {initialMatrix : ℕ → ℕ → K} (hperiods : 0 < periods)
    (h : createWithMatrix numberOfInputs numberOfOutputs blockSize hblock (periods * blockSize)
      initialMatrix numberOfRows numberOfColumns alignment = .ok m) :
    Inv alignment periods blockSize m initialMatrix 0 ∧ m.nextGains = initialMatrix := by
  unfold createWithMatrix create at h
  obtain ⟨matrix, hmatrix, h⟩ := exists_of_bind_ok h
  obtain ⟨fader, hfader, hmatrix⟩ := exists_of_bind_ok hmatrix
  obtain rfl := Except.ok.inj hmatrix
  split at h
  · cases h
  · obtain rfl := Except.ok.inj h
    exact ⟨⟨rfl, hperiods, ⟨hblock, hfader⟩,
      ⟨0, (Nat.zero_mul blockSize).symm, (Nat.zero_min periods).symm⟩,
      fun hne => absurd rfl hne⟩, rfl⟩

/-- **When a run follows the documentation**, for a transition that takes a positive number of
blocks. -/
theorem followsDocumentation_iff {eps : K} (heps : 0 < eps)
    {numberOfInputs numberOfOutputs numberOfRows numberOfColumns : ℕ}
    {hblock : 0 < blockSize} {initialMatrix : ℕ → ℕ → K} (hperiods : 0 < periods)
    (hcreate : createWithMatrix numberOfInputs numberOfOutputs blockSize hblock
      (periods * blockSize) initialMatrix numberOfRows numberOfColumns alignment = .ok m)
    (events : List (Event K alignment)) :
    FollowsDocumentation eps m initialMatrix 0 events ↔
      UpdatesInTime eps m initialMatrix 0 events :=
  followsDocumentation_iff_of_inv heps (inv_of_create hperiods hcreate).1 events

omit [IsStrictOrderedRing K] in
/-- A matrix of one element, whose transitions take two blocks of one sample. -/
theorem exists_oneElement : ∃ m : GainMatrix ℚ,
    createWithMatrix 1 1 1 (by decide) (2 * 1) (fun _ _ => 0) 1 1 0 = .ok m ∧
      m.numberOfInputs = 1 ∧ m.numberOfOutputs = 1 := by
  obtain ⟨f, hf⟩ := GainFader.exists_create (K := ℚ) 1 Nat.one_pos (2 * 1)
    (by decide : alignmentIsPowerOfTwo (if 0 = 0 then 1 else 0) = true)
  unfold createWithMatrix create
  rw [hf]
  exact ⟨_, rfl, rfl, rfl⟩

/-- An update and three blocks. -/
theorem followsDocumentation_threeBlocks : ∃ m : GainMatrix ℚ,
    createWithMatrix 1 1 1 (by decide) (2 * 1) (fun _ _ => 0) 1 1 0 = .ok m ∧
      FollowsDocumentation (1 / 2 ^ 23) m (fun _ _ => 0) 0
        ([.setNewGains fun _ _ => 1] ++ List.replicate 3
          (.process (fun _ _ => 1) ⟨fun _ => ⟨0, fun _ => 0⟩, fun _ => rfl⟩) : List (Event ℚ 0)) := by
  obtain ⟨m, hcreate, -⟩ := exists_oneElement
  refine ⟨m, hcreate,
    (followsDocumentation_iff (by norm_num) (by decide) hcreate _).mpr ⟨fun _ o _ i _ => ?_, ?_⟩⟩
  · rw [(inv_of_create (by decide) hcreate).2, sub_zero, abs_zero]
    positivity
  · trivial

/-- Two updates in succession: the target of the first one, which was never reached, becomes the
start of the second transition. -/
theorem not_followsDocumentation_twoUpdates : ∃ m : GainMatrix ℚ,
    createWithMatrix 1 1 1 (by decide) (2 * 1) (fun _ _ => 0) 1 1 0 = .ok m ∧
      ¬FollowsDocumentation (1 / 2 ^ 23) m (fun _ _ => 0) 0
        ([.setNewGains fun _ _ => 1, .setNewGains fun _ _ => 0,
          .process (fun _ _ => 1) ⟨fun _ => ⟨0, fun _ => 0⟩, fun _ => rfl⟩] : List (Event ℚ 0)) := by
  obtain ⟨m, hcreate, hinputs, houtputs⟩ := exists_oneElement
  have hinv := (inv_of_create (by decide) hcreate).1
  obtain ⟨hblock, hfader⟩ := hinv.created
  have hsamples := (GainFader.create_periods hfader).2.1
  refine ⟨m, hcreate, fun h => ?_⟩
  obtain ⟨-, hsecond, -⟩ := (followsDocumentation_iff_of_inv (by norm_num) hinv _).mp h
  have hdistance := hsecond rfl 0 (houtputs ▸ Nat.one_pos) 0 (hinputs ▸ Nat.one_pos)
  have hleft : (m.setGainsInternal (1 / 2 ^ 23) fun _ _ => 1).nextGains 0 0 = 1 := rfl
  have hright : (m.setGainsInternal (1 / 2 ^ 23) fun _ _ => 1).fader = m.fader := rfl
  rw [hleft, hright, hsamples] at hdistance
  norm_num at hdistance

end GainMatrix

end Visr
