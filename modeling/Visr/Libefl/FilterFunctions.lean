import Mathlib.Algebra.Ring.Int.Defs
import Mathlib.Tactic.Abel
import Mathlib.Tactic.Ring
import Visr.Libefl.VectorFunctions
import Visr.Library.Cascade

/-!
# Filters

Sections of second order in series, with two states each.

## Main results

* `iirBiquadInternalInplace_eq` — a section may overwrite its input.
* `run_biquadStep_zero` — a section computes the difference equation.
* `iirFilterBiquadsSingleChannel_eq` — the sections in series as machines.
* `filterBlocks_eq_single` — **the blocks into which a signal is split do not matter**.
-/

namespace Visr

section Biquads

variable {T : Type} [CommRing T]

/-! ### The filter functions -/

/-- The variables of the loop over the samples. -/
structure BiquadLoop (T : Type) where
  v1 : T
  v2 : T
  output : ℕ → T

/-- The transposed direct form II, for a sample `x` at a position. -/
def BiquadLoop.advance (coeffs : ℕ → T) (s : BiquadLoop T) (idx : ℕ) (x : T) : BiquadLoop T :=
  let y := coeffs 0 * x + s.v1
  { v1 := s.v2 + coeffs 1 * x - coeffs 3 * y
    v2 := coeffs 2 * x - coeffs 4 * y
    output := Function.update s.output idx y }

/-- The loop over the samples, each of which is taken from where `sample` says. -/
def biquadLoop (sample : BiquadLoop T → ℕ → T) (coeffs : ℕ → T) (s : BiquadLoop T) (n : ℕ) :
    BiquadLoop T :=
  (List.range n).foldl (fun (s : BiquadLoop T) idx => s.advance coeffs idx (sample s idx)) s

/-- The output and all states, of which those at `offset` and behind it have been used. -/
def BiquadLoop.finish (s : BiquadLoop T) (states : ℕ → T) (offset : ℕ) : (ℕ → T) × (ℕ → T) :=
  (s.output, Function.update (Function.update states offset s.v1) (offset + 1) s.v2)

def iirBiquadInternal (input output states : ℕ → T) (offset : ℕ) (coeffs : ℕ → T)
    (numElements : ℕ) : (ℕ → T) × (ℕ → T) :=
  (biquadLoop (fun _ idx => input idx) coeffs ⟨states offset, states (offset + 1), output⟩
    numElements).finish states offset

/-- The samples are read from the array to which the results are written. -/
def iirBiquadInternalInplace (inout states : ℕ → T) (offset : ℕ) (coeffs : ℕ → T)
    (numElements : ℕ) : (ℕ → T) × (ℕ → T) :=
  (biquadLoop (fun s idx => s.output idx) coeffs ⟨states offset, states (offset + 1), inout⟩
    numElements).finish states offset

/-- The output and the states after a block. -/
def iirFilterBiquadsSingleChannel (input output : Pointer T) (states coeffs : ℕ → T)
    (numElements numSections stateStride coeffStride alignment : ℕ) :
    Except ErrorCode ((ℕ → T) × (ℕ → T)) :=
  if !checkAlignment input.address alignment then .error .alignmentError
  else if !checkAlignment output.address alignment then .error .alignmentError
  else if numSections = 0 then
    (vectorCopy input output numElements alignment).map fun copied => (copied, states)
  else
    .ok <| (List.range' 1 (numSections - 1)).foldl
      (fun r secIdx => iirBiquadInternalInplace r.1 r.2 (secIdx * stateStride)
        (fun k => coeffs (secIdx * coeffStride + k)) numElements)
      (iirBiquadInternal input.data output.data states 0 coeffs numElements)

/-! ### A section as a machine -/

/-- What a section does with a sample. -/
def biquadStep (coeffs : ℕ → T) (s : T × T) (x : T) : T × (T × T) :=
  let y := coeffs 0 * x + s.1
  (y, (s.2 + coeffs 1 * x - coeffs 3 * y, coeffs 2 * x - coeffs 4 * y))

/-- The samples of a signal from a position on. -/
def segment (x : ℕ → T) (pos size : ℕ) : List T := (List.range size).map fun k => x (pos + k)

omit [CommRing T] in
theorem segment_zero (x : ℕ → T) (size : ℕ) : segment x 0 size = (List.range size).map x := by
  unfold segment
  simp

omit [CommRing T] in
theorem segment_add (x : ℕ → T) (pos first second : ℕ) :
    segment x pos (first + second) = segment x pos first ++ segment x (pos + first) second := by
  unfold segment
  rw [List.range_add, List.map_append, List.map_map]
  congr 1
  apply List.map_congr_left
  intro k _
  simp [Nat.add_assoc]

/-- The loop over the samples. -/
theorem biquadLoop_spec (input coeffs : ℕ → T) (s : BiquadLoop T) (n : ℕ) :
    (List.range n).map (biquadLoop (fun _ idx => input idx) coeffs s n).output =
        (Cascade.run (biquadStep coeffs) (s.v1, s.v2) ((List.range n).map input)).1 ∧
      ((biquadLoop (fun _ idx => input idx) coeffs s n).v1,
          (biquadLoop (fun _ idx => input idx) coeffs s n).v2) =
        (Cascade.run (biquadStep coeffs) (s.v1, s.v2) ((List.range n).map input)).2 ∧
      ∀ k, n ≤ k → (biquadLoop (fun _ idx => input idx) coeffs s n).output k = s.output k := by
  induction n with
  | zero => exact ⟨rfl, rfl, fun _ _ => rfl⟩
  | succ n ih =>
    obtain ⟨houtput, hstate, hrest⟩ := ih
    have hnext : biquadLoop (fun _ idx => input idx) coeffs s (n + 1) =
        (biquadLoop (fun _ idx => input idx) coeffs s n).advance coeffs n (input n) := by
      unfold biquadLoop
      rw [List.range_succ, List.foldl_concat]
    rw [hnext, List.range_succ, List.map_append, List.map_append]
    simp only [List.map_cons, List.map_nil]
    rw [Cascade.run_concat]
    generalize biquadLoop (fun _ idx => input idx) coeffs s n = t at houtput hstate hrest ⊢
    rw [← hstate, ← houtput]
    refine ⟨?_, rfl, ?_⟩
    · -- earlier samples are kept
      congr 1
      · apply List.map_congr_left
        intro k hk
        have hlt := List.mem_range.mp hk
        exact Function.update_of_ne (by omega) _ _
      · simp [BiquadLoop.advance, biquadStep]
    · intro k hk
      rw [← hrest k (by omega)]
      exact Function.update_of_ne (by omega) _ _

/-- **A section may overwrite its input.** -/
theorem iirBiquadInternalInplace_eq (inout states : ℕ → T) (offset : ℕ) (coeffs : ℕ → T)
    (numElements : ℕ) :
    iirBiquadInternalInplace inout states offset coeffs numElements =
      iirBiquadInternal inout inout states offset coeffs numElements := by
  unfold iirBiquadInternalInplace iirBiquadInternal
  congr 1
  induction numElements with
  | zero => rfl
  | succ n ih =>
    -- the next sample has not been overwritten
    have hkept := (biquadLoop_spec inout coeffs ⟨states offset, states (offset + 1), inout⟩ n).2.2
    unfold biquadLoop at ih hkept ⊢
    rw [List.range_succ, List.foldl_concat, List.foldl_concat, ih]
    exact congrArg (BiquadLoop.advance coeffs _ n) (hkept n le_rfl)

/-- What a section writes. -/
theorem iirBiquadInternal_spec (input output states : ℕ → T) (offset : ℕ) (coeffs : ℕ → T)
    (n : ℕ) :
    (List.range n).map (iirBiquadInternal input output states offset coeffs n).1 =
        (Cascade.run (biquadStep coeffs) (states offset, states (offset + 1))
          ((List.range n).map input)).1 ∧
      (∀ k, n ≤ k → (iirBiquadInternal input output states offset coeffs n).1 k = output k) ∧
      (iirBiquadInternal input output states offset coeffs n).2 =
        Function.update (Function.update states offset
          (Cascade.run (biquadStep coeffs) (states offset, states (offset + 1))
            ((List.range n).map input)).2.1) (offset + 1)
          (Cascade.run (biquadStep coeffs) (states offset, states (offset + 1))
            ((List.range n).map input)).2.2 := by
  obtain ⟨houtput, hstate, hrest⟩ :=
    biquadLoop_spec input coeffs ⟨states offset, states (offset + 1), output⟩ n
  refine ⟨houtput, hrest, ?_⟩
  rw [← hstate]
  rfl

/-! ### The sections in series -/

/-- The states of the sections in memory. -/
def storedStates (stride : ℕ) (states : ℕ → T) (j : ℕ) : T × T :=
  (states (j * stride), states (j * stride + 1))

/-- The memory after the states of the first sections have been written. -/
def writeStates (stride : ℕ) (s : ℕ → T × T) : ℕ → (ℕ → T) → ℕ → T
  | 0, states => states
  | k + 1, states =>
    Function.update (Function.update (writeStates stride s k states) (k * stride) (s k).1)
      (k * stride + 1) (s k).2

section States

variable {stride k : ℕ} {s s' : ℕ → T × T} {states : ℕ → T}

omit [CommRing T]

theorem writeStates_of_ne {p : ℕ} (h : ∀ j < k, p ≠ j * stride ∧ p ≠ j * stride + 1) :
    writeStates stride s k states p = states p := by
  induction k with
  | zero => rfl
  | succ k ih =>
    obtain ⟨hfirst, hsecond⟩ := h k (Nat.lt_succ_self k)
    rw [writeStates, Function.update_of_ne hsecond, Function.update_of_ne hfirst]
    exact ih fun j hj => h j (Nat.lt_succ_of_lt hj)

/-- Sections do not share their states. -/
theorem offsets_ne (hstride : 2 ≤ stride) {i j : ℕ} (hij : i < j) :
    i * stride + 1 < j * stride := by
  have hle : (i + 1) * stride ≤ j * stride := Nat.mul_le_mul_right stride hij
  rw [Nat.add_mul, Nat.one_mul] at hle
  omega

theorem storedStates_writeStates_of_le (hstride : 2 ≤ stride) {j : ℕ} (hj : k ≤ j) :
    storedStates stride (writeStates stride s k states) j = storedStates stride states j := by
  unfold storedStates
  rw [writeStates_of_ne, writeStates_of_ne]
  · intro i hi
    have hlt := offsets_ne hstride (Nat.lt_of_lt_of_le hi hj)
    omega
  · intro i hi
    have hlt := offsets_ne hstride (Nat.lt_of_lt_of_le hi hj)
    omega

theorem storedStates_writeStates (hstride : 2 ≤ stride ∨ k ≤ 1) {j : ℕ} (hj : j < k) :
    storedStates stride (writeStates stride s k states) j = s j := by
  induction k with
  | zero => exact absurd hj (Nat.not_lt_zero j)
  | succ k ih =>
    by_cases hlast : j = k
    · subst hlast
      unfold storedStates writeStates
      rw [Function.update_of_ne (by omega), Function.update_self, Function.update_self]
    · have hstride' : 2 ≤ stride := hstride.resolve_right (by omega)
      have hlt : j < k := by omega
      rw [← ih (Or.inl hstride') hlt]
      have hne := offsets_ne hstride' hlt
      unfold storedStates
      rw [writeStates, Function.update_of_ne (by omega), Function.update_of_ne (by omega),
        Function.update_of_ne (by omega), Function.update_of_ne (by omega)]

/-- States are overwritten by those of the next block. -/
theorem writeStates_writeStates (hstride : 2 ≤ stride ∨ k ≤ 1) :
    writeStates stride s' k (writeStates stride s k states) = writeStates stride s' k states := by
  funext p
  by_cases h : ∀ j < k, p ≠ j * stride ∧ p ≠ j * stride + 1
  · rw [writeStates_of_ne h, writeStates_of_ne h, writeStates_of_ne h]
  · push Not at h
    obtain ⟨j, hj, hp⟩ := h
    have hstored : storedStates stride (writeStates stride s' k (writeStates stride s k states)) j =
        storedStates stride (writeStates stride s' k states) j := by
      rw [storedStates_writeStates hstride hj, storedStates_writeStates hstride hj]
    obtain ⟨hfirst, hsecond⟩ := Prod.mk.inj hstored
    by_cases hpos : p = j * stride
    · rw [hpos]
      exact hfirst
    · rw [hp hpos]
      exact hsecond

theorem writeStates_congr (h : ∀ j < k, s j = s' j) :
    writeStates stride s k states = writeStates stride s' k states := by
  induction k with
  | zero => rfl
  | succ k ih =>
    rw [writeStates, writeStates, h k (Nat.lt_succ_self k),
      ih fun j hj => h j (Nat.lt_succ_of_lt hj)]

/-- Nothing changes if the states are written that are there. -/
theorem writeStates_storedStates :
    writeStates stride (storedStates stride states) k states = states := by
  induction k with
  | zero => rfl
  | succ k ih =>
    rw [writeStates, ih]
    unfold storedStates
    rw [Function.update_eq_self, Function.update_eq_self]

end States

/-- The machine of a section. -/
def sectionStep (coeffs : ℕ → T) (coeffStride secIdx : ℕ) : T × T → T → T × (T × T) :=
  biquadStep fun k => coeffs (secIdx * coeffStride + k)

section Series

variable {coeffs : ℕ → T} {numElements numSections stateStride coeffStride alignment : ℕ}
variable {input output : Pointer T}

/-- The output and the states after the first sections have been applied. -/
structure SeriesDone (input output : ℕ → T) (states coeffs : ℕ → T)
    (numElements stateStride coeffStride k : ℕ) (r : (ℕ → T) × (ℕ → T)) : Prop where
  samples : (List.range numElements).map r.1 =
    Cascade.passes (sectionStep coeffs coeffStride) (storedStates stateStride states) k
      ((List.range numElements).map input)
  rest : ∀ idx, numElements ≤ idx → r.1 idx = output idx
  states_eq : r.2 = writeStates stateStride
    (Cascade.after (sectionStep coeffs coeffStride) (storedStates stateStride states)
      ((List.range numElements).map input)) k states

/-- The first section. -/
theorem seriesDone_one (input output states coeffs : ℕ → T)
    (numElements stateStride coeffStride : ℕ) :
    SeriesDone input output states coeffs numElements stateStride coeffStride 1
      (iirBiquadInternal input output states 0 coeffs numElements) := by
  obtain ⟨hsamples, hrest, hstates⟩ :=
    iirBiquadInternal_spec input output states 0 coeffs numElements
  have hcoeffs : sectionStep coeffs coeffStride 0 = biquadStep coeffs := by
    unfold sectionStep
    simp
  have hstored : storedStates stateStride states 0 = (states 0, states (0 + 1)) := by
    unfold storedStates
    simp
  refine ⟨?_, hrest, ?_⟩
  · rw [hsamples, Cascade.passes, Cascade.passes, hcoeffs, hstored]
  · rw [hstates, writeStates, writeStates, Cascade.after, Cascade.passes, hcoeffs, hstored]
    simp

/-- A further section, which overwrites its input. -/
theorem SeriesDone.succ {input output states : ℕ → T} {k : ℕ} {r : (ℕ → T) × (ℕ → T)}
    (h : SeriesDone input output states coeffs numElements stateStride coeffStride k r)
    (hstride : 2 ≤ stateStride) :
    SeriesDone input output states coeffs numElements stateStride coeffStride (k + 1)
      (iirBiquadInternalInplace r.1 r.2 (k * stateStride) (fun i => coeffs (k * coeffStride + i))
        numElements) := by
  rw [iirBiquadInternalInplace_eq]
  obtain ⟨hsamples, hrest, hstates⟩ := iirBiquadInternal_spec r.1 r.1 r.2 (k * stateStride)
    (fun i => coeffs (k * coeffStride + i)) numElements
  -- the states of this section have not been written yet
  have hstored : (r.2 (k * stateStride), r.2 (k * stateStride + 1)) =
      storedStates stateStride states k := by
    rw [h.states_eq]
    exact storedStates_writeStates_of_le hstride le_rfl
  rw [hstored, h.samples] at hsamples hstates
  refine ⟨?_, fun idx hidx => (hrest idx hidx).trans (h.rest idx hidx), ?_⟩
  · rw [hsamples]
    rfl
  · rw [hstates, h.states_eq]
    rfl

/-- **The sections in series** as machines. -/
theorem iirFilterBiquadsSingleChannel_eq (hinput : checkAlignment input.address alignment = true)
    (houtput : checkAlignment output.address alignment = true)
    (hstride : 2 ≤ stateStride ∨ numSections ≤ 1) (states : ℕ → T) :
    ∃ r, iirFilterBiquadsSingleChannel input output states coeffs numElements numSections
        stateStride coeffStride alignment = .ok r ∧
      SeriesDone input.data output.data states coeffs numElements stateStride coeffStride
        numSections r := by
  unfold iirFilterBiquadsSingleChannel
  rw [hinput, houtput, if_neg (by decide), if_neg (by decide)]
  by_cases hzero : numSections = 0
  · subst hzero
    unfold vectorCopy
    rw [hinput, houtput, if_pos rfl, if_neg (by decide), if_neg (by decide)]
    refine ⟨_, rfl, ?_, ?_, rfl⟩
    · apply List.map_congr_left
      intro idx hidx
      exact if_pos (List.mem_range.mp hidx)
    · intro idx hidx
      exact if_neg (by omega)
  · -- the first section reads the input, and each of the others works on the output in place
    rw [if_neg hzero]
    refine ⟨_, rfl, ?_⟩
    obtain ⟨k, rfl⟩ : ∃ k, numSections = k + 1 := ⟨numSections - 1, by omega⟩
    rw [Nat.add_sub_cancel]
    clear hzero
    induction k with
    | zero => exact seriesDone_one _ _ _ _ _ _ _
    | succ k ih =>
      have hstride' : 2 ≤ stateStride := hstride.resolve_right (by omega)
      rw [List.range'_concat, List.foldl_append]
      have hdone := (ih (Or.inl hstride')).succ hstride'
      rw [show 1 + 1 * k = k + 1 by omega]
      exact hdone

end Series

/-! ### Blocks -/

/-- A call for the next samples of a signal, with the buffers that are used for it. -/
structure FilterBlock (T : Type) where
  numElements : ℕ
  alignment : ℕ
  inputAddress : ℕ
  output : Pointer T
  input_aligned : checkAlignment inputAddress alignment = true
  output_aligned : checkAlignment output.address alignment = true

/-- Filters a signal from a position on in blocks, with the states carried over. -/
def filterBlocks (coeffs : ℕ → T) (numSections stateStride coeffStride : ℕ) (x : ℕ → T) :
    List (FilterBlock T) → ℕ → (ℕ → T) → Except ErrorCode (List T × (ℕ → T))
  | [], _, states => .ok ([], states)
  | b :: blocks, pos, states => do
    let r ← iirFilterBiquadsSingleChannel ⟨b.inputAddress, fun k => x (pos + k)⟩ b.output states
      coeffs b.numElements numSections stateStride coeffStride b.alignment
    let rest ← filterBlocks coeffs numSections stateStride coeffStride x blocks
      (pos + b.numElements) r.2
    return ((List.range b.numElements).map r.1 ++ rest.1, rest.2)

section Blocks

variable {coeffs : ℕ → T} {numSections stateStride coeffStride : ℕ}

/-- The blocks of a signal. -/
theorem filterBlocks_eq (hstride : 2 ≤ stateStride ∨ numSections ≤ 1) (x : ℕ → T)
    (blocks : List (FilterBlock T)) (pos : ℕ) (states : ℕ → T) :
    filterBlocks coeffs numSections stateStride coeffStride x blocks pos states =
      .ok (Cascade.passes (sectionStep coeffs coeffStride) (storedStates stateStride states)
          numSections (segment x pos (blocks.map (·.numElements)).sum),
        writeStates stateStride
          (Cascade.after (sectionStep coeffs coeffStride) (storedStates stateStride states)
            (segment x pos (blocks.map (·.numElements)).sum)) numSections states) := by
  induction blocks generalizing pos states with
  | nil =>
    have hpasses : ∀ k, Cascade.passes (sectionStep coeffs coeffStride)
        (storedStates stateStride states) k [] = [] := by
      intro k
      induction k with
      | zero => rfl
      | succ k ih => rw [Cascade.passes, ih, Cascade.run]
    have hafter : Cascade.after (sectionStep coeffs coeffStride)
        (storedStates stateStride states) [] = storedStates stateStride states := by
      funext k
      rw [Cascade.after, hpasses, Cascade.run]
    rw [filterBlocks, List.map_nil, List.sum_nil]
    change _ = Except.ok (Cascade.passes _ _ _ [], writeStates _ (Cascade.after _ _ []) _ _)
    rw [hpasses, hafter, writeStates_storedStates]
  | cons b blocks ih =>
    obtain ⟨r, hcall, hdone⟩ : ∃ r, iirFilterBiquadsSingleChannel
        ⟨b.inputAddress, fun k => x (pos + k)⟩ b.output states coeffs b.numElements numSections
        stateStride coeffStride b.alignment = .ok r ∧
      SeriesDone (fun k => x (pos + k)) b.output.data states coeffs b.numElements stateStride
        coeffStride numSections r :=
      iirFilterBiquadsSingleChannel_eq b.input_aligned b.output_aligned hstride states
    have hsegment : (List.range b.numElements).map (fun k => x (pos + k)) =
        segment x pos b.numElements := rfl
    have hsamples := hdone.samples
    have hstates := hdone.states_eq
    rw [hsegment] at hsamples hstates
    rw [filterBlocks, hcall, ok_bind, ih, ok_bind, List.map_cons, List.sum_cons, segment_add,
      Cascade.passes_append, Cascade.after_append, hsamples, hstates,
      writeStates_writeStates hstride]
    -- the states that the next blocks start with
    have hnext : ∀ j < numSections, storedStates stateStride (writeStates stateStride
        (Cascade.after (sectionStep coeffs coeffStride) (storedStates stateStride states)
          (segment x pos b.numElements)) numSections states) j =
        Cascade.after (sectionStep coeffs coeffStride) (storedStates stateStride states)
          (segment x pos b.numElements) j := fun j hj => storedStates_writeStates hstride hj
    rw [Cascade.passes_congr hnext]
    congr 2
    apply writeStates_congr
    intro j hj
    exact Cascade.after_congr (fun i hi => hnext i (Nat.lt_of_le_of_lt hi hj)) _

end Blocks

/-! ### The difference equation -/

/-- The signal with `b0`, `b1`, `b2`, `a1`, `a2` as the elements of `coeffs`, and zeros before the
first sample. -/
def differenceEquation (coeffs x : ℕ → T) : ℕ → T
  | 0 => coeffs 0 * x 0
  | 1 => coeffs 0 * x 1 + coeffs 1 * x 0 - coeffs 3 * differenceEquation coeffs x 0
  | n + 2 =>
    coeffs 0 * x (n + 2) + coeffs 1 * x (n + 1) + coeffs 2 * x n -
      coeffs 3 * differenceEquation coeffs x (n + 1) - coeffs 4 * differenceEquation coeffs x n

/-- The sample `d` steps before a position. -/
def delayed (x : ℕ → T) (d n : ℕ) : T := if d ≤ n then x (n - d) else 0

/-- `y[n] = b0 * x[n] + b1 * x[n-1] + b2 * x[n-2] - a1 * y[n-1] - a2 * y[n-2]`. -/
theorem differenceEquation_eq (coeffs x : ℕ → T) (n : ℕ) :
    differenceEquation coeffs x n =
      coeffs 0 * x n + coeffs 1 * delayed x 1 n + coeffs 2 * delayed x 2 n -
        coeffs 3 * delayed (differenceEquation coeffs x) 1 n -
        coeffs 4 * delayed (differenceEquation coeffs x) 2 n := by
  match n with
  | 0 => simp [differenceEquation, delayed]
  | 1 => simp [differenceEquation, delayed]
  | n + 2 => simp [differenceEquation, delayed]

/-- The states of a section: what the past samples contribute to the next two results. -/
theorem run_biquadStep_zero (coeffs x : ℕ → T) (n : ℕ) :
    Cascade.run (biquadStep coeffs) (0, 0) ((List.range n).map x) =
      ((List.range n).map (differenceEquation coeffs x),
        (coeffs 1 * delayed x 1 n + coeffs 2 * delayed x 2 n -
            coeffs 3 * delayed (differenceEquation coeffs x) 1 n -
            coeffs 4 * delayed (differenceEquation coeffs x) 2 n,
          coeffs 2 * delayed x 1 n - coeffs 4 * delayed (differenceEquation coeffs x) 1 n)) := by
  induction n with
  | zero => simp [Cascade.run, delayed]
  | succ n ih =>
    have hy : coeffs 0 * x n + (coeffs 1 * delayed x 1 n + coeffs 2 * delayed x 2 n -
        coeffs 3 * delayed (differenceEquation coeffs x) 1 n -
        coeffs 4 * delayed (differenceEquation coeffs x) 2 n) = differenceEquation coeffs x n := by
      rw [differenceEquation_eq]
      ring
    -- the last sample, and the one before it
    have hone : ∀ z : ℕ → T, delayed z 1 (n + 1) = z n := fun z => by simp [delayed]
    have htwo : ∀ z : ℕ → T, delayed z 2 (n + 1) = delayed z 1 n := by
      intro z
      unfold delayed
      by_cases hn : 1 ≤ n
      · rw [if_pos (by omega), if_pos hn, show n + 1 - 2 = n - 1 by omega]
      · rw [if_neg (by omega), if_neg hn]
    rw [List.range_succ, List.map_append, List.map_append]
    simp only [List.map_cons, List.map_nil]
    rw [Cascade.run_concat, ih]
    unfold biquadStep
    dsimp only
    rw [hy, hone, hone, htwo, htwo]
    refine Prod.ext rfl (Prod.ext ?_ rfl)
    dsimp only
    ring

/-- The signal behind the first sections of a series. -/
def seriesResponse (coeffs : ℕ → T) (coeffStride : ℕ) (x : ℕ → T) : ℕ → ℕ → T
  | 0 => x
  | k + 1 => differenceEquation (fun i => coeffs (k * coeffStride + i))
      (seriesResponse coeffs coeffStride x k)

theorem passes_zero (coeffs : ℕ → T) (coeffStride : ℕ) (x : ℕ → T) {s : ℕ → T × T} {k : ℕ}
    (hs : ∀ j < k, s j = (0, 0)) (n : ℕ) :
    Cascade.passes (sectionStep coeffs coeffStride) s k ((List.range n).map x) =
      (List.range n).map (seriesResponse coeffs coeffStride x k) := by
  induction k with
  | zero => rfl
  | succ k ih =>
    rw [Cascade.passes, hs k (Nat.lt_succ_self k), ih fun j hj => hs j (Nat.lt_succ_of_lt hj),
      sectionStep, run_biquadStep_zero]
    rfl

/-- **The blocks into which a signal is split do not matter**: the output and the states are those
of a single call.  From states of zero, the output is that of the difference equations of all
sections, and a section may overwrite its input. -/
theorem filterBlocks_eq_single (coeffs : ℕ → T) (numSections coeffStride : ℕ) {stateStride : ℕ}
    (hstride : 2 ≤ stateStride ∨ numSections ≤ 1) (x states : ℕ → T)
    (blocks : List (FilterBlock T)) (single : FilterBlock T)
    (hsingle : single.numElements = (blocks.map (·.numElements)).sum) :
    (∃ out final,
      iirFilterBiquadsSingleChannel ⟨single.inputAddress, x⟩ single.output states coeffs
          single.numElements numSections stateStride coeffStride single.alignment =
        .ok (out, final) ∧
      filterBlocks coeffs numSections stateStride coeffStride x blocks 0 states =
        .ok ((List.range single.numElements).map out, final) ∧
      ((∀ j < numSections, states (j * stateStride) = 0 ∧ states (j * stateStride + 1) = 0) →
        ∀ n < single.numElements, out n = seriesResponse coeffs coeffStride x numSections n) ∧
      ∀ n, single.numElements ≤ n → out n = single.output.data n) ∧
    ∀ (inout output states : ℕ → T) (offset : ℕ) (coeffs : ℕ → T) (numElements : ℕ),
      (∀ n < numElements,
        (iirBiquadInternalInplace inout states offset coeffs numElements).1 n =
          (iirBiquadInternal inout output states offset coeffs numElements).1 n) ∧
      (iirBiquadInternalInplace inout states offset coeffs numElements).2 =
        (iirBiquadInternal inout output states offset coeffs numElements).2 := by
  constructor
  · obtain ⟨⟨out, final⟩, hcall, hdone⟩ : ∃ r, iirFilterBiquadsSingleChannel
        ⟨single.inputAddress, x⟩ single.output states coeffs single.numElements numSections
        stateStride coeffStride single.alignment = .ok r ∧
      SeriesDone x single.output.data states coeffs single.numElements stateStride coeffStride
        numSections r :=
      iirFilterBiquadsSingleChannel_eq single.input_aligned single.output_aligned hstride states
    refine ⟨out, final, hcall, ?_, ?_, hdone.rest⟩
    · rw [filterBlocks_eq hstride, ← hsingle, segment_zero, ← hdone.samples, ← hdone.states_eq]
    · intro hzero n hn
      have hsamples := hdone.samples
      rw [passes_zero coeffs coeffStride x fun j hj =>
        Prod.ext (hzero j hj).1 (hzero j hj).2] at hsamples
      exact List.map_inj_left.mp hsamples n (List.mem_range.mpr hn)
  · intro inout output states offset coeffs numElements
    rw [iirBiquadInternalInplace_eq]
    -- in place or not, the samples are read before they are written
    obtain ⟨hsamples, -, hstates⟩ :=
      iirBiquadInternal_spec inout inout states offset coeffs numElements
    obtain ⟨hsamples', -, hstates'⟩ :=
      iirBiquadInternal_spec inout output states offset coeffs numElements
    refine ⟨fun n hn => ?_, hstates.trans hstates'.symm⟩
    exact List.map_inj_left.mp (hsamples.trans hsamples'.symm) n (List.mem_range.mpr hn)

/-- Two sections, and a signal of three samples that is filtered in two blocks. -/
theorem filterBlocks_eq_single_three :
    ∃ out final,
      iirFilterBiquadsSingleChannel ⟨0, fun n : ℕ => (n : ℤ)⟩ ⟨0, fun _ => 0⟩ (fun _ => 0)
          (fun k => (k : ℤ)) 3 2 2 5 0 = .ok (out, final) ∧
      filterBlocks (fun k => (k : ℤ)) 2 2 5 (fun n : ℕ => (n : ℤ))
          [⟨1, 0, 0, ⟨0, fun _ => 0⟩, rfl, rfl⟩, ⟨2, 0, 1, ⟨0, fun _ => 0⟩, rfl, rfl⟩] 0
          (fun _ => 0) =
        .ok ((List.range 3).map out, final) :=
  have h := (filterBlocks_eq_single (fun k => (k : ℤ)) 2 5 (Or.inl le_rfl) (fun n : ℕ => (n : ℤ))
    (fun _ => 0) [⟨1, 0, 0, ⟨0, fun _ => 0⟩, rfl, rfl⟩, ⟨2, 0, 1, ⟨0, fun _ => 0⟩, rfl, rfl⟩]
    ⟨3, 0, 0, ⟨0, fun _ => 0⟩, rfl, rfl⟩ rfl).1
  ⟨h.choose, h.choose_spec.choose, h.choose_spec.choose_spec.1, h.choose_spec.choose_spec.2.1⟩

end Biquads

end Visr
