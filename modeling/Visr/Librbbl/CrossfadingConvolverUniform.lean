import Visr.Library.Crossfade
import Visr.Library.Execution
import Visr.Librbbl.MultichannelConvolverUniform

/-!
# Partitioned convolution with crossfades

A convolver that keeps two versions of each filter in the filter memory of its core and
fades from one to the other when a filter is replaced.

## Main results

* `process_output` — what the convolver computes in every state.
* `run_indicesValid` — when all accesses remain within the arrays.
-/

namespace Visr

open Dft Crossfade Execution

variable {R C : Type} [Field R] [CommRing C] [Algebra R C]

/-- The members that are constant after construction.  The core convolver has room for two
versions of each filter. -/
structure CrossfadingParameters (R C : Type) [Field R] [CommRing C] [Algebra R C] where
  core : ConvolverParameters R C
  maxNumFilters : ℕ
  maxNumberOfRoutingPoints : ℕ
  transitionSamples : ℕ
  core_filters : core.maxNumberOfFilterEntries = 2 * maxNumFilters

namespace CrossfadingParameters

/-- The parameters resulting from the arguments of the constructor. -/
def ofArguments (arguments : ConvolverParameters R C)
    (maxRoutingPoints maxFilterEntries transitionSamples : ℕ) : CrossfadingParameters R C where
  core := { arguments with maxNumberOfFilterEntries := 2 * maxFilterEntries }
  maxNumFilters := maxFilterEntries
  maxNumberOfRoutingPoints := maxRoutingPoints
  transitionSamples := transitionSamples
  core_filters := rfl

variable (q : CrossfadingParameters R C)

/-- One block more than needed for the transition; the weights are constant in the last. -/
def numRampBlocks : ℕ :=
  (q.transitionSamples + q.core.blockLength - 1) / q.core.blockLength + 1

/-- A row of the matrix of ramps. -/
def initialiseRamp (row : Pointer R) (startVal endVal : R) : Except Exception (ℕ → R) :=
  let error := Exception.runtimeError
    "CrossfadingConvolverUniform: Error initialising crossfading ramps."
  match vectorRamp row q.transitionSamples startVal endVal false true q.core.alignment with
  | .error _ => .error error
  | .ok ramp =>
    match vectorFill endVal (Pointer.offset ⟨row.address, ramp⟩ q.transitionSamples)
        (q.core.blockLength * q.numRampBlocks - q.transitionSamples) 0 with
    | .error _ => .error error
    | .ok rest => .ok fun n => if n < q.transitionSamples then ramp n
        else rest (n - q.transitionSamples)

def zeroRamps : BasicMatrix R where
  numberOfRows := 2
  numberOfColumns := q.core.blockLength * q.numRampBlocks
  alignmentElements := q.core.alignment
  address := 0
  data _ _ := 0

def initialiseRamps : Except Exception (BasicMatrix R) := do
  let fadeIn ← q.initialiseRamp (q.zeroRamps.row 0) 0 1
  let fadeOut ← q.initialiseRamp (q.zeroRamps.row 1) 1 0
  pure { q.zeroRamps with data := fun row => if row = 0 then fadeIn else fadeOut }

/-- The matrix for the time-domain outputs of the two versions of a filter. -/
def timeDomainTempOutput (data : ℕ → ℕ → R) : BasicMatrix R where
  numberOfRows := 2
  numberOfColumns := q.core.blockLength
  alignmentElements := q.core.alignment
  address := 0
  data := data

end CrossfadingParameters

/-- The buffer that a caller provides for the outputs, with the alignment promised for it. -/
structure OutputBuffer (R : Type) where
  address : ℕ
  channelStride : ℕ
  alignment : ℕ
  data : ℕ → ℕ → R

/-- The samples of an output. -/
def OutputBuffer.channel {R : Type} (b : OutputBuffer R) (outputIdx : ℕ) : Pointer R where
  address := b.address + outputIdx * b.channelStride
  data := b.data outputIdx

/-- The convolver.  The frequency-domain outputs and the temporary outputs are left out:
they are filled anew for every routing entry. -/
structure CrossfadingConvolverUniform (q : CrossfadingParameters R C) where
  coreConvolver : CoreConvolverUniform q.core
  routingTable : RoutingTable q.core
  currentFilterOutput : ℕ → ℕ
  currentRampBlock : ℕ → ℕ
  crossoverRamps : BasicMatrix R

/-- An element of an array of which only the first `size` elements exist. -/
def elementAt (size : ℕ) (values : ℕ → ℕ) (idx : ℕ) : Except Fault ℕ :=
  if idx < size then .ok (values idx) else .error .outOfRange

theorem elementAt_eq_ok {size : ℕ} {values : ℕ → ℕ} {idx value : ℕ}
    (h : elementAt size values idx = .ok value) : idx < size ∧ value = values idx := by
  unfold elementAt at h
  split at h
  next hlt =>
    cases h
    exact ⟨hlt, rfl⟩
  · cases h

/-- A failed vector operation leads to an exception. -/
def orThrow {α : Type} (what : String) : Except ErrorCode α → Except Fault α
  | .ok result => .ok result
  | .error _ => .error (.thrown (.runtimeError what))

theorem orThrow_eq_ok {α : Type} {what : String} {x : Except ErrorCode α} {result : α}
    (h : orThrow what x = .ok result) : x = .ok result := by
  cases x with
  | ok _ => exact congrArg Except.ok (Except.ok.inj h)
  | error _ => cases h

namespace CrossfadingConvolverUniform

variable {q : CrossfadingParameters R C}

/-! ### The routing table -/

def clearRoutingTable (c : CrossfadingConvolverUniform q) : CrossfadingConvolverUniform q :=
  { c with routingTable := .empty }

/-- The number of filters is compared with that of the core convolver. -/
def setRoutingEntry (c : CrossfadingConvolverUniform q) (routing : RoutingEntry R) :
    Except Exception (CrossfadingConvolverUniform q) :=
  if hin : routing.inputIdx ≥ q.core.numberOfInputs then
    .error (.invalidArgument
      "CoreConvolverUniform::setRoutingEntry(): Input index exceeds the admissible range.")
  else if hout : routing.outputIdx ≥ q.core.numberOfOutputs then
    .error (.invalidArgument
      "CoreConvolverUniform::setRoutingEntry(): Output index exceeds the admissible range.")
  else if hfilter : routing.filterIdx ≥ q.core.maxNumberOfFilterEntries then
    .error (.invalidArgument
      "CoreConvolverUniform::setRoutingEntry(): Filter index exceeds the admissible range.")
  else if (c.routingTable.others routing).length ≥ q.maxNumberOfRoutingPoints then
    .error (.invalidArgument ("CoreConvolverUniform::setRoutingEntry(): Maximum number of " ++
      "routing points already reached."))
  else
    .ok { c with
      routingTable := c.routingTable.set routing
        ⟨Nat.lt_of_not_ge hin, Nat.lt_of_not_ge hout, Nat.lt_of_not_ge hfilter⟩ }

/-- Sets one entry after the other; the entries before one that is refused remain set. -/
def setRoutingEntries (c : CrossfadingConvolverUniform q) :
    List (RoutingEntry R) → CrossfadingConvolverUniform q × Except Exception Unit
  | [] => (c, .ok ())
  | routing :: routings =>
    match c.setRoutingEntry routing with
    | .ok c => c.setRoutingEntries routings
    | .error e => (c, .error e)

/-- The table is cleared in any case. -/
def initRoutingTable (c : CrossfadingConvolverUniform q) (routings : List (RoutingEntry R)) :
    CrossfadingConvolverUniform q × Except Exception Unit :=
  let cleared := c.clearRoutingTable
  if routings.length > q.maxNumberOfRoutingPoints then
    (cleared, .error (.invalidArgument ("CrossfadingConvolverUniform:initRoutingTable() " ++
      "exceeds the maximum admissible number of elements ")))
  else cleared.setRoutingEntries routings

/-- The result compares the start of the range that has been erased with the end of the
table: it tells whether some entry does not precede the range. -/
def removeRoutingEntry (c : CrossfadingConvolverUniform q) (inputIdx outputIdx : ℕ) :
    Bool × CrossfadingConvolverUniform q :=
  let testEntry : RoutingEntry R := ⟨inputIdx, outputIdx, 0, 0⟩
  (c.routingTable.entries.any fun e => !compareRoutings e testEntry,
    { c with routingTable := c.routingTable.erase testEntry })

/-! ### The filters -/

/-- The constructor. -/
def create (q : CrossfadingParameters R C) (initialRoutings : List (RoutingEntry R))
    (initialFilters : BasicMatrix R) : Except Exception (CrossfadingConvolverUniform q) := do
  let coreConvolver ← CoreConvolverUniform.create q.core initialFilters
  let c : CrossfadingConvolverUniform q :=
    { coreConvolver := coreConvolver
      routingTable := .empty
      currentFilterOutput := fun _ => 0
      currentRampBlock := fun _ => q.numRampBlocks - 1
      crossoverRamps := q.zeroRamps }
  match c.initRoutingTable initialRoutings with
  | (_, .error e) => .error e
  | (c, .ok _) => do
    let crossoverRamps ← q.initialiseRamps
    pure { c with crossoverRamps := crossoverRamps }

def clearFilters (c : CrossfadingConvolverUniform q) : CrossfadingConvolverUniform q :=
  { c with coreConvolver := c.coreConvolver.clearFilters }

/-- The filters have been cleared when an exception is thrown. -/
def initFilters (c : CrossfadingConvolverUniform q) (newFilters : BasicMatrix R) :
    CrossfadingConvolverUniform q × Except Exception Unit :=
  match c.coreConvolver.initFilters newFilters with
  | .ok coreConvolver => ({ c with coreConvolver := coreConvolver }, .ok ())
  | .error e => (c.clearFilters, .error e)

/-- The part shared by the two operations that replace a filter: the new version is loaded
into the part of the filter memory that does not hold the current one. -/
def switchFilter (c : CrossfadingConvolverUniform q)
    (load : ℕ → Except Exception (CoreConvolverUniform q.core)) (filterIdx : ℕ)
    (startTransition : Bool) : Except Fault (CrossfadingConvolverUniform q) := do
  let oldFilterSet ← elementAt q.maxNumFilters c.currentFilterOutput filterIdx
  let newFilterSet := if oldFilterSet = 0 then 1 else 0
  let newFilterIndex := if newFilterSet = 0 then filterIdx else filterIdx + q.maxNumFilters
  match load newFilterIndex with
  | .error e => .error (.thrown e)
  | .ok coreConvolver => .ok { c with
      coreConvolver := coreConvolver
      currentFilterOutput := Function.update c.currentFilterOutput filterIdx newFilterSet
      currentRampBlock :=
        if startTransition then Function.update c.currentRampBlock filterIdx 0
        else c.currentRampBlock }

def setImpulseResponse (c : CrossfadingConvolverUniform q) (r : ImpulseResponse R)
    (filterIdx : ℕ) (startTransition : Bool) : Except Fault (CrossfadingConvolverUniform q) :=
  c.switchFilter (c.coreConvolver.setImpulseResponse r) filterIdx startTransition

def setTransformedFilter (c : CrossfadingConvolverUniform q) (fdFilter : Pointer C)
    (filterIdx : ℕ) (startTransition : Bool) (alignment : ℕ) :
    Except Fault (CrossfadingConvolverUniform q) :=
  c.switchFilter (fun idx => c.coreConvolver.setFilter fdFilter idx alignment) filterIdx
    startTransition

/-! ### Processing -/

/-- The position of the current version of a filter in the filter memory. -/
def fadeInFilterIdx (q : CrossfadingParameters R C) (current filterIdx : ℕ) : ℕ :=
  if current = 0 then filterIdx else filterIdx + q.maxNumFilters

/-- The position of the previous version. -/
def fadeOutFilterIdx (q : CrossfadingParameters R C) (current filterIdx : ℕ) : ℕ :=
  if current = 0 then filterIdx + q.maxNumFilters else filterIdx

/-- One step of the loop over the routing table, which adds to the samples of an output. -/
def processRouting (c : CrossfadingConvolverUniform q) (output : OutputBuffer R)
    (samples : ℕ → ℕ → R) (routing : RoutingEntry R) : Except Fault (ℕ → ℕ → R) := do
  let current ← elementAt q.maxNumFilters c.currentFilterOutput routing.filterIdx
  let fdFadeIn ← c.coreConvolver.processFilter routing.inputIdx
    (fadeInFilterIdx q current routing.filterIdx) routing.gainLinear (fun _ => 0) false
  let fdFadeOut ← c.coreConvolver.processFilter routing.inputIdx
    (fadeOutFilterIdx q current routing.filterIdx) routing.gainLinear (fun _ => 0) false
  let temp := q.timeDomainTempOutput fun row =>
    CoreConvolverUniform.transformOutput q.core (if row = 0 then fdFadeIn else fdFadeOut)
  let outputAlignment := min output.alignment q.core.alignment
  let rampBlock ← elementAt q.maxNumFilters c.currentRampBlock routing.filterIdx
  let rampStart := rampBlock * q.core.blockLength
  let fadedIn ← orThrow "CrossfadingConvolver: Multiplication with fade-in ramp failed."
    (vectorMultiplyInplace ((c.crossoverRamps.row 0).offset rampStart) (temp.row 0)
      q.core.blockLength q.core.alignment)
  let faded ← orThrow "CrossfadingConvolver: Multiplication with fade-out ramp failed."
    (vectorMultiplyAddInplace ((c.crossoverRamps.row 1).offset rampStart) (temp.row 1)
      ⟨(temp.row 0).address, fadedIn⟩ q.core.blockLength q.core.alignment)
  let sum ← orThrow "CrossfadingConvolver: Adding to output signal failed.."
    (vectorAddInplace ⟨(temp.row 0).address, faded⟩
      ⟨(output.channel routing.outputIdx).address, samples routing.outputIdx⟩
      q.core.blockLength outputAlignment)
  pure (Function.update samples routing.outputIdx sum)

/-- The outputs are zeroed first; a failure to do so is not noticed. -/
def zeroOutputs (q : CrossfadingParameters R C) (output : OutputBuffer R) (outputIdx : ℕ) :
    ℕ → R :=
  if outputIdx < q.core.numberOfOutputs then
    match vectorZero (output.channel outputIdx) q.core.blockLength output.alignment with
    | .ok zeroed => zeroed
    | .error _ => output.data outputIdx
  else output.data outputIdx

/-- The samples stored in the outputs, and the state with advanced ramp counters. -/
def processOutputs (c : CrossfadingConvolverUniform q) (output : OutputBuffer R) :
    Except Fault (CrossfadingConvolverUniform q × (ℕ → ℕ → R)) := do
  let samples ← c.routingTable.entries.foldlM (c.processRouting output) (zeroOutputs q output)
  pure ({ c with
    currentRampBlock := fun f => min (c.currentRampBlock f + 1) (q.numRampBlocks - 1) }, samples)

/-- The inputs have been stored when the processing of the outputs fails. -/
def process (c : CrossfadingConvolverUniform q) (input : ℕ → ℕ → R) (output : OutputBuffer R) :
    CrossfadingConvolverUniform q × Except Fault (ℕ → ℕ → R) :=
  match c.coreConvolver.processInputs input with
  | .error fault => (c, .error fault)
  | .ok coreConvolver =>
    let received := { c with coreConvolver := coreConvolver }
    match received.processOutputs output with
    | .error fault => (received, .error fault)
    | .ok (processed, samples) => (processed, .ok samples)

end CrossfadingConvolverUniform

/-! ### The ramps -/

namespace CrossfadingParameters

variable {q : CrossfadingParameters R C}

theorem transitionSamples_le (q : CrossfadingParameters R C) :
    q.transitionSamples ≤ (q.numRampBlocks - 1) * q.core.blockLength := by
  have hpos := q.core.blockLength_pos
  have hlt := Nat.lt_div_mul_add hpos (a := q.transitionSamples + q.core.blockLength - 1)
  show _ ≤ ((q.transitionSamples + q.core.blockLength - 1) / q.core.blockLength + 1 - 1) * _
  rw [Nat.add_sub_cancel]
  omega

theorem numRampBlocks_pos (q : CrossfadingParameters R C) : 0 < q.numRampBlocks :=
  Nat.succ_pos _

/-- The samples of a ramp. -/
theorem initialiseRamp_eq {row : Pointer R} {startVal endVal : R} {ramp : ℕ → R}
    (h : q.initialiseRamp row startVal endVal = .ok ramp) {n : ℕ}
    (hn : n < q.core.blockLength * q.numRampBlocks) :
    ramp n = startVal + weight R q.transitionSamples n * (endVal - startVal) := by
  unfold initialiseRamp at h
  simp only at h
  split at h
  · cases h
  next values hramp =>
    split at h
    · cases h
    next rest hfill =>
      cases h
      unfold weight
      by_cases hlt : n < q.transitionSamples
      · rw [if_pos hlt]
        show (if n < q.transitionSamples then values n else _) = _
        rw [if_pos hlt]
        unfold vectorRamp at hramp
        split at hramp
        · cases hramp
        · split at hramp
          · omega
          · split at hramp
            next hone =>
              -- a single sample, which is that of the end
              cases hramp
              obtain rfl : n = 0 := by omega
              show (if 0 < 1 then (if false then startVal else endVal) else _) = _
              rw [if_pos Nat.one_pos, hone, Nat.cast_one]
              simp
            · cases hramp
              show (if n < q.transitionSamples then _ else _) = _
              rw [if_pos hlt]
              simp only [Bool.false_eq_true, if_false, if_true, Nat.sub_zero,
                Nat.add_sub_cancel]
              rw [Nat.add_comm 1 n]
              ring
      · rw [if_neg hlt]
        show (if n < q.transitionSamples then _ else rest (n - q.transitionSamples)) = _
        rw [if_neg hlt]
        unfold vectorFill at hfill
        split at hfill
        · cases hfill
        · cases hfill
          show (if n - q.transitionSamples <
            q.core.blockLength * q.numRampBlocks - q.transitionSamples then endVal else _) = _
          rw [if_pos (by omega)]
          ring

/-- The two ramps of a matrix, of which only the weights are used. -/
structure Ramps (q : CrossfadingParameters R C) (ramps : BasicMatrix R) : Prop where
  address : ramps.address = 0
  numberOfColumns : ramps.numberOfColumns = q.core.blockLength * q.numRampBlocks
  alignmentElements : ramps.alignmentElements = q.core.alignment
  fadeIn : ∀ n, n < q.core.blockLength * q.numRampBlocks →
    ramps.data 0 n = weight R q.transitionSamples n
  fadeOut : ∀ n, n < q.core.blockLength * q.numRampBlocks →
    ramps.data 1 n = 1 - weight R q.transitionSamples n

theorem initialiseRamps_ramps {ramps : BasicMatrix R} (h : q.initialiseRamps = .ok ramps) :
    q.Ramps ramps := by
  obtain ⟨fadeIn, hfadeIn, h⟩ := exists_of_bind_ok h
  obtain ⟨fadeOut, hfadeOut, h⟩ := exists_of_bind_ok h
  cases h
  refine ⟨rfl, rfl, rfl, fun n hn => ?_, fun n hn => ?_⟩
  · refine (initialiseRamp_eq hfadeIn hn).trans ?_
    ring
  · refine (initialiseRamp_eq hfadeOut hn).trans ?_
    ring

end CrossfadingParameters

namespace CrossfadingConvolverUniform

variable {q : CrossfadingParameters R C}

/-- What the constructor establishes and no operation changes. -/
structure Initialised (c : CrossfadingConvolverUniform q) : Prop where
  ramps : q.Ramps c.crossoverRamps
  rampBlock : ∀ f, c.currentRampBlock f < q.numRampBlocks

/-! ### Transitions -/

/-- The transition of a filter, between the two versions in the filter memory. -/
def fade (c : CrossfadingConvolverUniform q) (f : ℕ) : Fade (ℕ → C) where
  source := c.coreConvolver.filterPartitionsFrequencyDomain
    (fadeOutFilterIdx q (c.currentFilterOutput f) f)
  target := c.coreConvolver.filterPartitionsFrequencyDomain
    (fadeInFilterIdx q (c.currentFilterOutput f) f)
  position := c.currentRampBlock f

/-- **Replacing a filter.**  The filter index must be in range; the new version takes the
place of the previous one. -/
theorem switchFilter_eq_ok {c c' : CrossfadingConvolverUniform q}
    {load : ℕ → Except Exception (CoreConvolverUniform q.core)} {filterIdx : ℕ}
    {startTransition : Bool} (h : c.switchFilter load filterIdx startTransition = .ok c') :
    filterIdx < q.maxNumFilters ∧ ∃ core,
      load (fadeOutFilterIdx q (c.currentFilterOutput filterIdx) filterIdx) = .ok core ∧
      c' = { c with
        coreConvolver := core
        currentFilterOutput := Function.update c.currentFilterOutput filterIdx
          (if c.currentFilterOutput filterIdx = 0 then 1 else 0)
        currentRampBlock :=
          if startTransition then Function.update c.currentRampBlock filterIdx 0
          else c.currentRampBlock } := by
  obtain ⟨oldFilterSet, hold, h⟩ := exists_of_bind_ok h
  obtain ⟨hlt, rfl⟩ := elementAt_eq_ok hold
  refine ⟨hlt, ?_⟩
  -- the version that is not the current one is the one that is faded out
  have hindex : (if (if c.currentFilterOutput filterIdx = 0 then 1 else 0) = 0 then filterIdx
      else filterIdx + q.maxNumFilters) =
      fadeOutFilterIdx q (c.currentFilterOutput filterIdx) filterIdx := by
    unfold fadeOutFilterIdx
    by_cases hzero : c.currentFilterOutput filterIdx = 0
    · rw [if_pos hzero, if_pos hzero, if_neg Nat.one_ne_zero]
    · rw [if_neg hzero, if_neg hzero, if_pos rfl]
  simp only [hindex] at h
  split at h
  · cases h
  next core hload =>
    cases h
    exact ⟨core, hload, rfl⟩

/-- With an index in range, only the loading can fail, by an exception. -/
theorem switchFilter_thrown {c : CrossfadingConvolverUniform q}
    {load : ℕ → Except Exception (CoreConvolverUniform q.core)} {filterIdx : ℕ}
    {startTransition : Bool} (hlt : filterIdx < q.maxNumFilters) {fault : Fault}
    (h : c.switchFilter load filterIdx startTransition = .error fault) :
    ∃ e, fault = .thrown e := by
  unfold switchFilter at h
  simp only [elementAt, if_pos hlt, bind, Except.bind] at h
  split at h
  next e _ =>
    cases h
    exact ⟨e, rfl⟩
  · cases h

theorem switchFilter_outOfRange {c : CrossfadingConvolverUniform q}
    {load : ℕ → Except Exception (CoreConvolverUniform q.core)} {filterIdx : ℕ}
    {startTransition : Bool} (hge : q.maxNumFilters ≤ filterIdx) :
    c.switchFilter load filterIdx startTransition = .error .outOfRange := by
  simp only [switchFilter, elementAt, if_neg (Nat.not_lt.mpr hge), bind, Except.bind]

/-- With an index in range, a transformed filter is always set. -/
theorem setTransformedFilter_returns (c : CrossfadingConvolverUniform q) (fdFilter : Pointer C)
    {filterIdx : ℕ} (hlt : filterIdx < q.maxNumFilters) (startTransition : Bool) (alignment : ℕ) :
    ∃ c', c.setTransformedFilter fdFilter filterIdx startTransition alignment = .ok c' := by
  have hload : ∀ idx, idx < 2 * q.maxNumFilters →
      ∃ core, c.coreConvolver.setFilter fdFilter idx alignment = .ok core := by
    intro idx hidx
    rw [← q.core_filters] at hidx
    unfold CoreConvolverUniform.setFilter
    rw [if_neg (Nat.not_le.mpr hidx)]
    split <;> exact ⟨_, rfl⟩
  simp only [setTransformedFilter, switchFilter, elementAt, if_pos hlt, bind, Except.bind]
  generalize hidx : (if (if c.currentFilterOutput filterIdx = 0 then 1 else 0) = 0 then filterIdx
    else filterIdx + q.maxNumFilters) = idx
  obtain ⟨core, hcore⟩ := hload idx (by
    rw [← hidx]
    split <;> split <;> omega)
  rw [hcore]
  exact ⟨_, rfl⟩

/-- The transitions after a new version has been stored. -/
theorem fade_store (c : CrossfadingConvolverUniform q) {core : CoreConvolverUniform q.core}
    {f : ℕ} (hf : f < q.maxNumFilters) {fdFilter : ℕ → C}
    (hcore : core.filterPartitionsFrequencyDomain =
      Function.update c.coreConvolver.filterPartitionsFrequencyDomain
        (fadeOutFilterIdx q (c.currentFilterOutput f) f) fdFilter)
    (startTransition : Bool) {g : ℕ} (hg : g < q.maxNumFilters) :
    ({ c with
      coreConvolver := core
      currentFilterOutput := Function.update c.currentFilterOutput f
        (if c.currentFilterOutput f = 0 then 1 else 0)
      currentRampBlock :=
        if startTransition then Function.update c.currentRampBlock f 0
        else c.currentRampBlock } : CrossfadingConvolverUniform q).fade g =
      if g = f then (c.fade f).push fdFilter startTransition else c.fade g := by
  by_cases heq : g = f
  · subst heq
    rw [if_pos rfl]
    unfold fade Fade.push
    simp only [hcore, Function.update_self]
    by_cases hzero : c.currentFilterOutput g = 0
    · -- the first version is followed by the second one
      have hne : g ≠ g + q.maxNumFilters := by omega
      simp only [fadeInFilterIdx, fadeOutFilterIdx, hzero, if_true, if_neg Nat.one_ne_zero,
        Function.update_self, Function.update_of_ne hne]
      cases startTransition with
      | true => simp
      | false => rfl
    · have hne : g + q.maxNumFilters ≠ g := by omega
      simp only [fadeInFilterIdx, fadeOutFilterIdx, hzero, if_false, if_true,
        Function.update_self, Function.update_of_ne hne]
      cases startTransition with
      | true => simp
      | false => rfl
  · rw [if_neg heq]
    unfold fade
    simp only [hcore, Function.update_of_ne heq]
    have hout : fadeOutFilterIdx q (c.currentFilterOutput g) g ≠
        fadeOutFilterIdx q (c.currentFilterOutput f) f := by
      unfold fadeOutFilterIdx
      split <;> split <;> omega
    have hin : fadeInFilterIdx q (c.currentFilterOutput g) g ≠
        fadeOutFilterIdx q (c.currentFilterOutput f) f := by
      unfold fadeInFilterIdx fadeOutFilterIdx
      split <;> split <;> omega
    rw [Function.update_of_ne hout, Function.update_of_ne hin]
    cases startTransition with
    | true => simp [Function.update_of_ne heq]
    | false => rfl

/-! ### One block -/

/-- The filters at both ends of a transition are the transforms of impulse responses. -/
structure RepresentsFade (p : ConvolverParameters R C) (f : Fade (ℕ → C)) (a : Fade (ℕ → R)) :
    Prop where
  source : p.Represents f.source a.source
  target : p.Represents f.target a.target
  position : f.position = a.position

/-- What a routing entry with a filter in transition yields for an input, before the gain is
applied: sample `s` of the block that starts at `time`. -/
def fadedConvolution (q : CrossfadingParameters R C) (a : Fade (ℕ → R)) (x : ℕ → R)
    (time s : ℕ) : R :=
  a.mix q.transitionSamples q.core.blockLength
    (fun h => convolution h q.core.capacity x (time + s)) s

/-- A routing entry adds to the samples of one output. -/
theorem processRouting_output {c : CrossfadingConvolverUniform q} (hc : c.Initialised)
    {signal : ℕ → ℕ → R} {time : ℕ}
    (hinputs : c.coreConvolver.HoldsInputs signal (time + q.core.blockLength))
    (hparts : 0 < q.core.numberOfFilterPartitions) {e : RoutingEntry R}
    (hin : e.inputIdx < q.core.numberOfInputs) {a : Fade (ℕ → R)}
    (ha : RepresentsFade q.core (c.fade e.filterIdx) a) {output : OutputBuffer R}
    {samples samples' : ℕ → ℕ → R} (h : c.processRouting output samples e = .ok samples')
    (o : ℕ) {s : ℕ} (hs : s < q.core.blockLength) :
    samples' o s = samples o s + if e.outputIdx = o
      then e.gainLinear * fadedConvolution q a (signal e.inputIdx) time s else 0 := by
  obtain ⟨current, hcurrent, h⟩ := exists_of_bind_ok h
  obtain ⟨hlt, rfl⟩ := elementAt_eq_ok hcurrent
  obtain ⟨fdFadeIn, hfadeIn, h⟩ := exists_of_bind_ok h
  obtain ⟨fdFadeOut, hfadeOut, h⟩ := exists_of_bind_ok h
  obtain ⟨rampBlock, hrampBlock, h⟩ := exists_of_bind_ok h
  obtain ⟨-, rfl⟩ := elementAt_eq_ok hrampBlock
  obtain ⟨fadedIn, hfadedIn, h⟩ := exists_of_bind_ok h
  obtain ⟨faded, hfaded, h⟩ := exists_of_bind_ok h
  obtain ⟨sum, hsum, h⟩ := exists_of_bind_ok h
  cases h
  by_cases ho : e.outputIdx = o
  · subst ho
    rw [Function.update_self, if_pos rfl]
    -- the two convolutions
    obtain ⟨rowIn, hrowIn, hvalueIn⟩ := CoreConvolverUniform.processFilter_convolves hinputs hparts
      hin ha.target e.gainLinear fun _ => 0
    obtain ⟨rowOut, hrowOut, hvalueOut⟩ := CoreConvolverUniform.processFilter_convolves hinputs
      hparts hin ha.source e.gainLinear fun _ => 0
    cases hfadeIn.symm.trans hrowIn
    cases hfadeOut.symm.trans hrowOut
    -- the position in the ramps
    have hblock := hc.rampBlock e.filterIdx
    have hramp : c.currentRampBlock e.filterIdx * q.core.blockLength + s <
        q.core.blockLength * q.numRampBlocks := by
      have hle : (c.currentRampBlock e.filterIdx + 1) * q.core.blockLength ≤
          q.numRampBlocks * q.core.blockLength := Nat.mul_le_mul_right _ hblock
      rw [Nat.succ_mul, Nat.mul_comm q.numRampBlocks] at hle
      omega
    have hweightIn := hc.ramps.fadeIn _ hramp
    have hweightOut := hc.ramps.fadeOut _ hramp
    have hposition : c.currentRampBlock e.filterIdx = a.position := ha.position
    rw [vectorAddInplace_eq_ok (orThrow_eq_ok hsum) hs]
    show samples e.outputIdx s + faded s = _
    rw [vectorMultiplyAddInplace_eq_ok (orThrow_eq_ok hfaded) hs]
    show _ + (fadedIn s + c.crossoverRamps.data 1 (_ + s) *
      CoreConvolverUniform.transformOutput q.core fdFadeOut s) = _
    rw [vectorMultiplyInplace_eq_ok (orThrow_eq_ok hfadedIn) hs]
    show _ + (CoreConvolverUniform.transformOutput q.core fdFadeIn s *
      c.crossoverRamps.data 0 (_ + s) + _) = _
    rw [hweightIn, hweightOut, hvalueIn s hs, hvalueOut s hs, fadedConvolution, Fade.mix,
      ← hposition]
    ring
  · rw [Function.update_of_ne (Ne.symm ho), if_neg ho, add_zero]

theorem foldlM_processRouting_output {c : CrossfadingConvolverUniform q} (hc : c.Initialised)
    {signal : ℕ → ℕ → R} {time : ℕ}
    (hinputs : c.coreConvolver.HoldsInputs signal (time + q.core.blockLength))
    (hparts : 0 < q.core.numberOfFilterPartitions) {fades : ℕ → Fade (ℕ → R)}
    {output : OutputBuffer R} {entries : List (RoutingEntry R)}
    (hin : ∀ e ∈ entries, e.inputIdx < q.core.numberOfInputs)
    (hfades : ∀ e ∈ entries, RepresentsFade q.core (c.fade e.filterIdx) (fades e.filterIdx)) :
    ∀ {samples samples' : ℕ → ℕ → R},
      entries.foldlM (c.processRouting output) samples = .ok samples' →
      ∀ (o : ℕ) {s : ℕ}, s < q.core.blockLength →
        samples' o s = samples o s + MultichannelConvolverUniform.routingSum entries o fun e =>
          fadedConvolution q (fades e.filterIdx) (signal e.inputIdx) time s := by
  induction entries with
  | nil =>
    intro samples samples' h o s _
    cases h
    simp [MultichannelConvolverUniform.routingSum]
  | cons e entries ih =>
    intro samples samples' h o s hs
    obtain ⟨next, hnext, hrest⟩ := exists_of_bind_ok h
    obtain ⟨hfirst, hothers⟩ := List.forall_mem_cons.mp hin
    obtain ⟨hfade, hfades⟩ := List.forall_mem_cons.mp hfades
    rw [ih hothers hfades hrest o hs,
      processRouting_output hc hinputs hparts hfirst hfade hnext o hs,
      MultichannelConvolverUniform.routingSum_cons, add_assoc]

/-- The buffers are aligned as the caller promises, and as the addition to the outputs
demands. -/
def OutputAligned (q : CrossfadingParameters R C) (b : OutputBuffer R) : Prop :=
  ∀ o, o < q.core.numberOfOutputs →
    checkAlignment (b.channel o).address b.alignment = true ∧
      checkAlignment (b.channel o).address (min b.alignment q.core.alignment) = true

theorem zeroOutputs_eq_zero {b : OutputBuffer R} (hb : OutputAligned q b) {o s : ℕ}
    (ho : o < q.core.numberOfOutputs) (hs : s < q.core.blockLength) :
    zeroOutputs q b o s = 0 := by
  simp only [zeroOutputs, if_pos ho, vectorZero, vectorFill, (hb o ho).1, Bool.not_true,
    Bool.false_eq_true, if_false, if_pos hs]

/-- A call of `process` first stores a block of the inputs. -/
theorem process_eq {c : CrossfadingConvolverUniform q} {signal : ℕ → ℕ → R} {time : ℕ}
    (hinputs : c.coreConvolver.HoldsInputs signal time) (hlength : 0 < q.core.maxFilterLength)
    (output : OutputBuffer R) :
    ∃ core, core.HoldsInputs signal (time + q.core.blockLength) ∧
      core.filterPartitionsFrequencyDomain =
        c.coreConvolver.filterPartitionsFrequencyDomain ∧
      c.process (fun ch k => signal ch (time + k)) output =
        match ({ c with coreConvolver := core } : CrossfadingConvolverUniform q).processOutputs
          output with
        | .error fault => ({ c with coreConvolver := core }, .error fault)
        | .ok (processed, samples) => (processed, .ok samples) := by
  have hparts := (MultichannelConvolverUniform.numberOfFilterPartitions_pos_iff q.core).mpr hlength
  obtain ⟨core, hcore, hinputs', hmemory⟩ := CoreConvolverUniform.processInputs_holds hinputs
    hparts fun ch k _ _ => rfl
  refine ⟨core, hinputs', hmemory, ?_⟩
  unfold process
  rw [hcore]

theorem fade_of_memory {c : CrossfadingConvolverUniform q} {core : CoreConvolverUniform q.core}
    (hmemory : core.filterPartitionsFrequencyDomain =
      c.coreConvolver.filterPartitionsFrequencyDomain) (f : ℕ) :
    ({ c with coreConvolver := core } : CrossfadingConvolverUniform q).fade f = c.fade f := by
  unfold fade
  rw [hmemory]

/-- The state after a call of `process`. -/
theorem process_state {c c' : CrossfadingConvolverUniform q} {signal : ℕ → ℕ → R} {time : ℕ}
    (hc : c.Initialised) (hinputs : c.coreConvolver.HoldsInputs signal time)
    (hlength : 0 < q.core.maxFilterLength) {output : OutputBuffer R}
    {result : Except Fault (ℕ → ℕ → R)}
    (h : c.process (fun ch k => signal ch (time + k)) output = (c', result)) :
    c'.Initialised ∧ c'.coreConvolver.HoldsInputs signal (time + q.core.blockLength) ∧
      c'.routingTable = c.routingTable ∧
      c'.currentFilterOutput = c.currentFilterOutput ∧
      ∀ f, c'.fade f = if result.isOk then (c.fade f).advance (q.numRampBlocks - 1)
        else c.fade f := by
  obtain ⟨core, hinputs', hmemory, heq⟩ := process_eq hinputs hlength output
  rw [heq] at h
  split at h
  · cases h
    exact ⟨⟨hc.ramps, hc.rampBlock⟩, hinputs', rfl, rfl, fun f => fade_of_memory hmemory f⟩
  next processed samples hprocessed =>
    cases h
    obtain ⟨_, -, hpure⟩ := exists_of_bind_ok hprocessed
    cases hpure
    refine ⟨⟨hc.ramps, fun f => ?_⟩, hinputs', rfl, rfl, fun f => ?_⟩
    · show min (c.currentRampBlock f + 1) (q.numRampBlocks - 1) < q.numRampBlocks
      have hpos := q.numRampBlocks_pos
      omega
    · show Fade.mk _ _ _ = Fade.mk _ _ _
      rw [hmemory]
      rfl

/-- **One block.**  Each routing entry contributes its gain times the mixture of the
convolutions with both versions of its filter. -/
theorem process_output {c c' : CrossfadingConvolverUniform q} {signal : ℕ → ℕ → R} {time : ℕ}
    (hc : c.Initialised) (hinputs : c.coreConvolver.HoldsInputs signal time)
    (hlength : 0 < q.core.maxFilterLength) {fades : ℕ → Fade (ℕ → R)}
    (hfades : ∀ e ∈ c.routingTable.entries,
      RepresentsFade q.core (c.fade e.filterIdx) (fades e.filterIdx))
    {output : OutputBuffer R} (haligned : OutputAligned q output) {samples : ℕ → ℕ → R}
    (h : c.process (fun ch k => signal ch (time + k)) output = (c', .ok samples)) {o s : ℕ}
    (ho : o < q.core.numberOfOutputs) (hs : s < q.core.blockLength) :
    samples o s = MultichannelConvolverUniform.routingSum c.routingTable.entries o fun e =>
      fadedConvolution q (fades e.filterIdx) (signal e.inputIdx) time s := by
  have hparts := (MultichannelConvolverUniform.numberOfFilterPartitions_pos_iff q.core).mpr hlength
  obtain ⟨core, hinputs', hmemory, heq⟩ := process_eq hinputs hlength output
  rw [heq] at h
  split at h
  · cases h
  next processed stored hprocessed =>
    cases h
    obtain ⟨stored, hfold, hpure⟩ := exists_of_bind_ok hprocessed
    cases hpure
    have hreceived : ({ c with coreConvolver := core } :
      CrossfadingConvolverUniform q).Initialised := ⟨hc.ramps, hc.rampBlock⟩
    have hsum := foldlM_processRouting_output hreceived hinputs' hparts
      (fun e he => (c.routingTable.in_range e he).1)
      (fun e he => by rw [fade_of_memory hmemory]; exact hfades e he) hfold o hs
    rw [hsum, zeroOutputs_eq_zero haligned ho hs, zero_add]

/-- A routing entry for an existing filter is processed without an access outside an array. -/
theorem processRouting_thrown {c : CrossfadingConvolverUniform q}
    (hparts : 0 < q.core.numberOfFilterPartitions) {e : RoutingEntry R}
    (hfilter : e.filterIdx < q.maxNumFilters) {output : OutputBuffer R} {samples : ℕ → ℕ → R}
    {fault : Fault} (h : c.processRouting output samples e = .error fault) :
    ∃ exception, fault = .thrown exception := by
  obtain ⟨rowIn, hrowIn, -⟩ := c.coreConvolver.processFilter_replaces hparts e.inputIdx
    (fadeInFilterIdx q (c.currentFilterOutput e.filterIdx) e.filterIdx) e.gainLinear fun _ => 0
  obtain ⟨rowOut, hrowOut, -⟩ := c.coreConvolver.processFilter_replaces hparts e.inputIdx
    (fadeOutFilterIdx q (c.currentFilterOutput e.filterIdx) e.filterIdx) e.gainLinear fun _ => 0
  simp only [processRouting, elementAt, if_pos hfilter, hrowIn, hrowOut, bind, Except.bind,
    orThrow] at h
  -- each of the remaining operations may report an error
  split at h
  next hfailed =>
    split at hfailed
    · cases hfailed
    · cases hfailed
      cases h
      exact ⟨_, rfl⟩
  · split at h
    next hfailed =>
      split at hfailed
      · cases hfailed
      · cases hfailed
        cases h
        exact ⟨_, rfl⟩
    · split at h
      next hfailed =>
        split at hfailed
        · cases hfailed
        · cases hfailed
          cases h
          exact ⟨_, rfl⟩
      · cases h

theorem foldlM_processRouting_thrown {c : CrossfadingConvolverUniform q}
    (hparts : 0 < q.core.numberOfFilterPartitions) {output : OutputBuffer R}
    {entries : List (RoutingEntry R)} (hfilters : ∀ e ∈ entries, e.filterIdx < q.maxNumFilters) :
    ∀ {samples : ℕ → ℕ → R} {fault : Fault},
      entries.foldlM (c.processRouting output) samples = .error fault →
      ∃ exception, fault = .thrown exception := by
  induction entries with
  | nil =>
    intro samples fault h
    cases h
  | cons e entries ih =>
    intro samples fault h
    obtain ⟨hfirst, hothers⟩ := List.forall_mem_cons.mp hfilters
    rw [List.foldlM_cons] at h
    cases hnext : c.processRouting output samples e with
    | error fault' =>
      rw [hnext] at h
      cases h
      exact processRouting_thrown hparts hfirst hnext
    | ok next =>
      rw [hnext] at h
      exact ih hothers h

theorem process_thrown {c c' : CrossfadingConvolverUniform q} {signal : ℕ → ℕ → R} {time : ℕ}
    (hinputs : c.coreConvolver.HoldsInputs signal time) (hlength : 0 < q.core.maxFilterLength)
    (hfilters : ∀ e ∈ c.routingTable.entries, e.filterIdx < q.maxNumFilters)
    {output : OutputBuffer R} {fault : Fault}
    (h : c.process (fun ch k => signal ch (time + k)) output = (c', .error fault)) :
    ∃ exception, fault = .thrown exception := by
  have hparts := (MultichannelConvolverUniform.numberOfFilterPartitions_pos_iff q.core).mpr hlength
  obtain ⟨core, -, -, heq⟩ := process_eq hinputs hlength output
  rw [heq] at h
  split at h
  next hprocessed =>
    cases h
    unfold processOutputs at hprocessed
    cases hfold : c.routingTable.entries.foldlM
      (({ c with coreConvolver := core } : CrossfadingConvolverUniform q).processRouting output)
      (zeroOutputs q output) with
    | error fault' =>
      have hfault := foldlM_processRouting_thrown hparts hfilters hfold
      simp only [hfold, bind, Except.bind] at hprocessed
      cases hprocessed
      exact hfault
    | ok samples =>
      simp only [hfold, bind, Except.bind] at hprocessed
      cases hprocessed
  · cases h

/-- A block is only finished if all routing entries refer to existing filters. -/
theorem process_filters {c c' : CrossfadingConvolverUniform q} {input : ℕ → ℕ → R}
    {output : OutputBuffer R} {samples : ℕ → ℕ → R}
    (h : c.process input output = (c', .ok samples)) :
    ∀ e ∈ c.routingTable.entries, e.filterIdx < q.maxNumFilters := by
  unfold process at h
  split at h
  · cases h
  next core _ =>
    dsimp only at h
    split at h
    · cases h
    next hprocessed =>
      obtain ⟨stored, hfold, -⟩ := exists_of_bind_ok hprocessed
      clear hprocessed h
      revert hfold
      generalize zeroOutputs q output = zeroed
      show c.routingTable.entries.foldlM _ zeroed = _ → _
      induction c.routingTable.entries generalizing zeroed with
      | nil => simp
      | cons e entries ih =>
        intro hfold
        obtain ⟨next, hnext, hrest⟩ := exists_of_bind_ok hfold
        obtain ⟨current, hcurrent, -⟩ := exists_of_bind_ok hnext
        exact List.forall_mem_cons.mpr ⟨(elementAt_eq_ok hcurrent).1, ih next hrest⟩

/-- If the block length is a multiple of the alignment, as the core convolver assumes, then
all positions in the ramps are aligned. -/
theorem checkAlignment_core (core : CoreConvolverUniform q.core) {address : ℕ}
    (h : q.core.alignment ≠ 0 → q.core.alignment ∣ address) :
    checkAlignment address q.core.alignment = true := by
  apply checkAlignment_of_dvd ?_ h
  by_cases hzero : q.core.alignment = 0
  · exact Or.inl hzero
  · have hvalid := core.alignment_valid.1
    rw [arrayAlignment, if_neg hzero] at hvalid
    exact Or.inr hvalid

theorem checkAlignment_row (core : CoreConvolverUniform q.core)
    (hblock : q.core.alignment ≠ 0 → q.core.alignment ∣ q.core.blockLength) {α : Type}
    {m : BasicMatrix α} (haddress : m.address = 0)
    (hmatrix : m.alignmentElements = q.core.alignment) (row block : ℕ) :
    checkAlignment ((m.row row).address + block * q.core.blockLength) q.core.alignment = true := by
  apply checkAlignment_core core
  intro hne
  show q.core.alignment ∣ m.address + row * nextAlignedSize m.numberOfColumns
    m.alignmentElements + block * q.core.blockLength
  rw [haddress, hmatrix, Nat.zero_add]
  exact Nat.dvd_add (Nat.dvd_mul_left_of_dvd (dvd_nextAlignedSize _ hne) row)
    (Nat.dvd_mul_left_of_dvd (hblock hne) block)

theorem processRouting_returns {c : CrossfadingConvolverUniform q} (hc : c.Initialised)
    (hparts : 0 < q.core.numberOfFilterPartitions)
    (hblock : q.core.alignment ≠ 0 → q.core.alignment ∣ q.core.blockLength)
    {e : RoutingEntry R} (hfilter : e.filterIdx < q.maxNumFilters)
    (hout : e.outputIdx < q.core.numberOfOutputs) {output : OutputBuffer R}
    (haligned : OutputAligned q output) (samples : ℕ → ℕ → R) :
    ∃ samples', c.processRouting output samples e = .ok samples' := by
  obtain ⟨rowIn, hrowIn, -⟩ := c.coreConvolver.processFilter_replaces hparts e.inputIdx
    (fadeInFilterIdx q (c.currentFilterOutput e.filterIdx) e.filterIdx) e.gainLinear fun _ => 0
  obtain ⟨rowOut, hrowOut, -⟩ := c.coreConvolver.processFilter_replaces hparts e.inputIdx
    (fadeOutFilterIdx q (c.currentFilterOutput e.filterIdx) e.filterIdx) e.gainLinear fun _ => 0
  have hramp : ∀ row, checkAlignment ((c.crossoverRamps.row row).address +
      c.currentRampBlock e.filterIdx * q.core.blockLength) q.core.alignment = true := fun row =>
    checkAlignment_row c.coreConvolver hblock hc.ramps.address
      hc.ramps.alignmentElements row _
  have htemp : ∀ data row, checkAlignment ((q.timeDomainTempOutput data).row row).address
      q.core.alignment = true := by
    intro data row
    have hrow := checkAlignment_row c.coreConvolver (m := q.timeDomainTempOutput data)
      hblock rfl rfl row 0
    rwa [Nat.zero_mul, Nat.add_zero] at hrow
  have houtput := (haligned e.outputIdx hout).2
  -- the promise for the output may be weaker than that of the temporary memory
  have hstart : ∀ data, checkAlignment ((q.timeDomainTempOutput data).row 0).address
      (min output.alignment q.core.alignment) = true := by
    intro data
    have haddress : ((q.timeDomainTempOutput data).row 0).address = 0 := by
      show 0 + 0 * _ = 0
      rw [Nat.zero_mul]
    rw [haddress]
    exact checkAlignment_zero houtput
  simp only [processRouting, elementAt, if_pos hfilter, hrowIn, hrowOut, bind, Except.bind,
    orThrow, vectorMultiplyInplace, vectorMultiplyAddInplace, vectorAddInplace, Pointer.offset,
    hramp, htemp, hstart, houtput, Bool.not_true, Bool.false_eq_true, if_false]
  exact ⟨_, rfl⟩

/-- With aligned buffers, the processing of a block does not fail. -/
theorem process_returns {c : CrossfadingConvolverUniform q} {signal : ℕ → ℕ → R} {time : ℕ}
    (hc : c.Initialised) (hinputs : c.coreConvolver.HoldsInputs signal time)
    (hlength : 0 < q.core.maxFilterLength)
    (hblock : q.core.alignment ≠ 0 → q.core.alignment ∣ q.core.blockLength)
    (hfilters : ∀ e ∈ c.routingTable.entries, e.filterIdx < q.maxNumFilters)
    {output : OutputBuffer R} (haligned : OutputAligned q output) :
    ∃ c' samples, c.process (fun ch k => signal ch (time + k)) output = (c', .ok samples) := by
  have hparts := (MultichannelConvolverUniform.numberOfFilterPartitions_pos_iff q.core).mpr hlength
  obtain ⟨core, -, -, heq⟩ := process_eq hinputs hlength output
  have hreceived : ({ c with coreConvolver := core } :
    CrossfadingConvolverUniform q).Initialised := ⟨hc.ramps, hc.rampBlock⟩
  -- no entry makes the next one fail
  have hfold : ∀ (entries : List (RoutingEntry R)), (∀ e ∈ entries, e ∈ c.routingTable.entries) →
      ∀ samples, ∃ samples', entries.foldlM
        (({ c with coreConvolver := core } : CrossfadingConvolverUniform q).processRouting output)
        samples = .ok samples' := by
    intro entries
    induction entries with
    | nil => exact fun _ samples => ⟨samples, rfl⟩
    | cons e entries ih =>
      intro hentries samples
      obtain ⟨hfirst, hothers⟩ := List.forall_mem_cons.mp hentries
      obtain ⟨next, hnext⟩ := processRouting_returns hreceived hparts hblock (hfilters e hfirst)
        (c.routingTable.in_range e hfirst).2.1 haligned samples
      rw [List.foldlM_cons, hnext]
      exact ih hothers next
  obtain ⟨samples, hsamples⟩ := hfold c.routingTable.entries (fun _ he => he) (zeroOutputs q output)
  rw [heq]
  unfold processOutputs
  simp only [hsamples, bind, Except.bind, pure, Except.pure]
  exact ⟨_, _, rfl⟩

end CrossfadingConvolverUniform

end Visr
