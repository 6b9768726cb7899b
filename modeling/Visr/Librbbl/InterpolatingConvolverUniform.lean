import Visr.Librbbl.CrossfadingConvolverRuns

/-!
# Partitioned convolution with interpolated filters

A convolver that stores a set of filters and convolves with weighted sums of them, one sum
for each interpolant.  It fades from the old to the new sum when an interpolant is set.

## Main results

* `setInterpolant_eq` — the checks of an interpolant, in terms of both limits.
* `run_contract` — **the limits are those of the constructor** exactly if they are the same.
-/

namespace Visr

open Dft Crossfade Execution

variable {R C : Type} [Field R] [CommRing C] [Algebra R C]

/-- The indices and the weights of the filters that are summed up for an interpolant. -/
structure InterpolationParameter (R : Type) where
  id : ℕ
  indices : List ℕ
  weights : List R
  length_eq : indices.length = weights.length

def InterpolationParameter.numberOfInterpolants {R : Type} (param : InterpolationParameter R) :
    ℕ := param.weights.length

/-- The indices with their weights. -/
def InterpolationParameter.terms {R : Type} (param : InterpolationParameter R) : List (ℕ × R) :=
  param.indices.zip param.weights

/-- A set of parameters, ordered by their ids. -/
structure InterpolationParameterSet (R : Type) where
  elements : List (InterpolationParameter R)
  ordered : elements.Pairwise fun lhs rhs => lhs.id < rhs.id

def InterpolationParameterSet.empty {R : Type} : InterpolationParameterSet R :=
  ⟨[], List.Pairwise.nil⟩

/-- The members that are constant after construction.  Complex numbers are stored as their
real and imaginary part. -/
structure InterpolatingParameters (R C : Type) [Field R] [CommRing C] [Algebra R C] where
  arguments : ConvolverParameters R C
  maxRoutingPoints : ℕ
  maxFilterEntries : ℕ
  numberOfInterpolants : ℕ
  transitionSamples : ℕ
  components : C ≃ₗ[R] R × R
  alignment_lt : arguments.alignment < 2 ^ 64

namespace InterpolatingParameters

variable (q : InterpolatingParameters R C)

/-- The parameters of the convolver that does the work.  The constructor passes both limits
in the order of its own arguments, which is the opposite of that of the other class. -/
def crossfading : CrossfadingParameters R C :=
  .ofArguments q.arguments q.maxFilterEntries q.maxRoutingPoints q.transitionSamples

/-- The number of complex values of a transformed filter. -/
def dftFilterRepresentationSize : ℕ :=
  q.crossfading.core.dftRepresentationSizePadded * q.crossfading.core.numberOfFilterPartitions

/-- The matrix of the stored filters. -/
def filterMatrix (filters : ℕ → ℕ → C) : BasicMatrix C where
  numberOfRows := q.maxFilterEntries
  numberOfColumns := q.dftFilterRepresentationSize
  alignmentElements := arrayAlignment q.crossfading.core.complexAlignment
  address := 0
  data := filters

/-- An array of complex values, seen as an array of twice as many real values. -/
def realView (p : Pointer C) : Pointer R where
  address := 2 * p.address
  data n :=
    if n % 2 = 0 then (q.components (p.data (n / 2))).1 else (q.components (p.data (n / 2))).2

/-- The complex values in an array of real values. -/
def complexView (data : ℕ → R) (k : ℕ) : C := q.components.symm (data (2 * k), data (2 * k + 1))

/-- The alignment that may be assumed for both the stored filters and a new one. -/
def filterAlignment (alignment : ℕ) : ℕ :=
  min alignment (arrayAlignment q.crossfading.core.complexAlignment * 2)

end InterpolatingParameters

/-- The convolver.  The temporary filter is left out: it is filled anew for every
interpolant. -/
structure InterpolatingConvolverUniform (q : InterpolatingParameters R C) where
  convolver : CrossfadingConvolverUniform q.crossfading
  filters : ℕ → ℕ → C

namespace InterpolatingConvolverUniform

variable {q : InterpolatingParameters R C}

def maxNumberOfFilterEntries (q : InterpolatingParameters R C) : ℕ := q.maxFilterEntries

/-- The limit is asked of the crossfading convolver. -/
def maxNumberOfRoutingPoints (q : InterpolatingParameters R C) : ℕ :=
  q.crossfading.maxNumberOfRoutingPoints

def clearFilters (c : InterpolatingConvolverUniform q) : InterpolatingConvolverUniform q where
  convolver := c.convolver.clearFilters
  filters _ _ := 0

/-- The filters that are not given are zeroed. -/
def initFilters (c : InterpolatingConvolverUniform q) (newImpulseResponses : BasicMatrix R) :
    Except Exception (InterpolatingConvolverUniform q) :=
  let numFilters := newImpulseResponses.numberOfRows
  let irLength := newImpulseResponses.numberOfColumns
  if numFilters > maxNumberOfFilterEntries q then
    .error (.invalidArgument ("InterpolatingConvolverUniform::initFilters(): Size of new filter " ++
      "matrix exceeds number of filter slots."))
  else if irLength > q.crossfading.core.maxFilterLength then
    .error (.invalidArgument ("InterpolatingConvolverUniform::initFilters(): Size of new filter " ++
      "matrix exceeds maximum filter length."))
  else do
    let align := q.filterAlignment newImpulseResponses.alignmentElements
    let loaded ← (List.range numFilters).foldlM
      (fun filters filterIdx => do
        let row ← q.crossfading.core.transformImpulseResponse (newImpulseResponses.row filterIdx)
          irLength (filters filterIdx) align
        pure (Function.update filters filterIdx row))
      c.filters
    pure { c with
      filters := fun filterIdx => if numFilters ≤ filterIdx then fun _ => 0 else loaded filterIdx }

def setImpulseResponse (c : InterpolatingConvolverUniform q) (r : ImpulseResponse R)
    (filterIdx : ℕ) : Except Exception (InterpolatingConvolverUniform q) :=
  if filterIdx ≥ maxNumberOfFilterEntries q then
    .error (.invalidArgument ("InterpolatingConvolverUniform::setImpulseResponse(): Filter index " ++
      "exceeds number of filter slots."))
  else if r.filterLength > q.crossfading.core.maxFilterLength then
    .error (.invalidArgument ("InterpolatingConvolverUniform::setImpulseResponse(): Length of new " ++
      "impulse response exceeds maximum filter length."))
  else do
    let row ← q.crossfading.core.transformImpulseResponse r.ir r.filterLength
      (c.filters filterIdx) (q.filterAlignment r.alignment)
    pure { c with filters := Function.update c.filters filterIdx row }

/-- A stored filter as an array of real values. -/
def storedFilter (c : InterpolatingConvolverUniform q) (filterIdx : ℕ) : Pointer R :=
  q.realView ((q.filterMatrix c.filters).row filterIdx)

/-- The temporary filter after the first terms of the sum. -/
def interpolate (c : InterpolatingConvolverUniform q) : List (ℕ × R) → Except ErrorCode (ℕ → R)
  | [] => .ok fun _ => 0
  | (index, weight) :: terms => do
    let numRealElements := 2 * q.dftFilterRepresentationSize
    let align := q.crossfading.core.alignment
    let tempFilter ← vectorMultiplyConstant weight (c.storedFilter index) ⟨0, fun _ => 0⟩
      numRealElements align
    terms.foldlM
      (fun tempFilter term =>
        vectorMultiplyConstantAddInplace term.2 (c.storedFilter term.1) ⟨0, tempFilter⟩
          numRealElements align)
      tempFilter

/-- The greatest index that is admissible, as an unsigned number of the machine. -/
def maximumAdmissibleIndex (q : InterpolatingParameters R C) : ℕ :=
  (q.maxFilterEntries + (2 ^ 64 - 1)) % 2 ^ 64

def setInterpolant (c : InterpolatingConvolverUniform q) (param : InterpolationParameter R)
    (startTransition : Bool) : Except Fault (InterpolatingConvolverUniform q) :=
  if param.id ≥ maxNumberOfRoutingPoints q then
    .error (.thrown (.outOfRange ("InterpolatingConvolverUniform::setInterpolant(): " ++
      "interpolant id exceeds number of filter routings. ")))
  else if param.numberOfInterpolants ≠ q.numberOfInterpolants then
    .error (.thrown (.invalidArgument ("InterpolatingConvolverUniform::setInterpolant(): Number " ++
      "of interpolants in parameter does not match the value set in the convolver.")))
  else
    match param.indices.max? with
    -- the greatest element is read from an empty array
    | none => .error .outOfRange
    | some maxIndex =>
      if maxIndex ≥ q.maxFilterEntries then
        .error (.thrown (.runtimeError ("InterpolatingConvolverUniform::setInterpolant(): At " ++
          "least one filter index '" ++ toString maxIndex ++ "' exceeds maximum admissible " ++
          "index (" ++ toString (maximumAdmissibleIndex q) ++ ").")))
      else
        match c.interpolate param.terms with
        | .error res => .error (.thrown (.runtimeError ("InterpolatingConvolverUniform::" ++
            "setInterpolant(): filter interpolation failed: " ++ errorMessage res)))
        | .ok tempFilter => do
          let convolver ← c.convolver.setTransformedFilter ⟨0, q.complexView tempFilter⟩ param.id
            startTransition (arrayAlignment q.crossfading.core.complexAlignment)
          pure { c with convolver := convolver }

/-- Sets one interpolant after the other; those before one that is refused remain set. -/
def setInterpolantElements (c : InterpolatingConvolverUniform q) (startTransition : Bool) :
    List (InterpolationParameter R) → InterpolatingConvolverUniform q × Except Fault Unit
  | [] => (c, .ok ())
  | param :: params =>
    match c.setInterpolant param startTransition with
    | .ok c => c.setInterpolantElements startTransition params
    | .error fault => (c, .error fault)

def setInterpolants (c : InterpolatingConvolverUniform q) (params : InterpolationParameterSet R)
    (startTransition : Bool) : InterpolatingConvolverUniform q × Except Fault Unit :=
  c.setInterpolantElements startTransition params.elements

/-- The filters that are being used, not those that are stored. -/
def clearInterpolants (c : InterpolatingConvolverUniform q) : InterpolatingConvolverUniform q :=
  { c with convolver := c.convolver.clearFilters }

/-- The constructor.  The crossfading convolver starts without filters. -/
def create (q : InterpolatingParameters R C) (initialRoutings : List (RoutingEntry R))
    (initialInterpolants : InterpolationParameterSet R) (initialFilters : BasicMatrix R) :
    Except Fault (InterpolatingConvolverUniform q) :=
  let noFilters : BasicMatrix R := ⟨0, 0, arrayAlignment q.arguments.alignment, 0, fun _ _ => 0⟩
  match CrossfadingConvolverUniform.create q.crossfading initialRoutings noFilters with
  | .error e => .error (.thrown e)
  | .ok convolver =>
    match initFilters ⟨convolver, fun _ _ => 0⟩ initialFilters with
    | .error e => .error (.thrown e)
    | .ok c =>
      match c.setInterpolants initialInterpolants false with
      | (_, .error fault) => .error fault
      | (c, .ok _) => .ok c

/-! ### Calls -/

/-- A convolver, and the number of blocks of the input signals it has been given. -/
structure Session (q : InterpolatingParameters R C) where
  convolver : InterpolatingConvolverUniform q
  blocks : ℕ

inductive Operation (R : Type)
  | setRoutingEntry (routing : RoutingEntry R)
  | removeRoutingEntry (inputIdx outputIdx : ℕ)
  | clearRoutingTable
  | initRoutingTable (routings : List (RoutingEntry R))
  | clearFilters
  | initFilters (newImpulseResponses : BasicMatrix R)
  | setImpulseResponse (r : ImpulseResponse R) (filterIdx : ℕ)
  | setInterpolant (param : InterpolationParameter R) (startTransition : Bool)
  | setInterpolants (params : InterpolationParameterSet R) (startTransition : Bool)
  | clearInterpolants
  | process (output : OutputBuffer R)

namespace Session

/-- The convolver inside. -/
def inner (s : Session q) : CrossfadingConvolverUniform.Session q.crossfading :=
  ⟨s.convolver.convolver, s.blocks⟩

/-- The convolver inside has been used. -/
def withInner (s : Session q) (inner : CrossfadingConvolverUniform.Session q.crossfading) :
    Session q := ⟨{ s.convolver with convolver := inner.convolver }, inner.blocks⟩

/-- The calls that are handed on to the convolver inside. -/
def delegate (signal : ℕ → ℕ → R) (op : CrossfadingConvolverUniform.Operation R C)
    (s : Session q) : Session q × Option Fault :=
  let result := s.inner.call signal op
  (s.withInner result.1, result.2)

/-- A call that leaves everything as it is when it fails. -/
def attempt (s : Session q) :
    Except Fault (InterpolatingConvolverUniform q) → Session q × Option Fault
  | .ok c => ({ s with convolver := c }, none)
  | .error fault => (s, some fault)

/-- A call that may leave something behind when it fails. -/
def always (s : Session q) (result : InterpolatingConvolverUniform q × Except Fault Unit) :
    Session q × Option Fault :=
  ({ s with convolver := result.1 },
    match result.2 with
    | .ok _ => none
    | .error fault => some fault)

/-- The state after a call, and how the call failed if it did. -/
def call (signal : ℕ → ℕ → R) (op : Operation R) (s : Session q) : Session q × Option Fault :=
  match op with
  | .setRoutingEntry routing => s.delegate signal (.setRoutingEntry routing)
  | .removeRoutingEntry inputIdx outputIdx =>
    s.delegate signal (.removeRoutingEntry inputIdx outputIdx)
  | .clearRoutingTable => s.delegate signal .clearRoutingTable
  | .initRoutingTable routings => s.delegate signal (.initRoutingTable routings)
  | .clearFilters => ({ s with convolver := s.convolver.clearFilters }, none)
  | .initFilters newImpulseResponses =>
    s.attempt ((s.convolver.initFilters newImpulseResponses).mapError .thrown)
  | .setImpulseResponse r filterIdx =>
    s.attempt ((s.convolver.setImpulseResponse r filterIdx).mapError .thrown)
  | .setInterpolant param startTransition =>
    s.attempt (s.convolver.setInterpolant param startTransition)
  | .setInterpolants params startTransition =>
    s.always (s.convolver.setInterpolants params startTransition)
  | .clearInterpolants => ({ s with convolver := s.convolver.clearInterpolants }, none)
  | .process output => s.delegate signal (.process output)

/-- The run goes on after an exception, but not after an access outside an array. -/
def step (signal : ℕ → ℕ → R) (op : Operation R) (s : Session q) : Option (Session q) :=
  match s.call signal op with
  | (s', none) => some s'
  | (s', some (.thrown _)) => some s'
  | (_, some _) => none

end Session

end InterpolatingConvolverUniform

/-! ### Arrays of real values -/

namespace InterpolatingParameters

variable {q : InterpolatingParameters R C}

theorem complexView_realView (p : Pointer C) (k : ℕ) :
    q.complexView (q.realView p).data k = p.data k := by
  have heven : 2 * k % 2 = 0 ∧ 2 * k / 2 = k := by omega
  have hodd : (2 * k + 1) % 2 ≠ 0 ∧ (2 * k + 1) / 2 = k := by omega
  simp only [complexView, realView, heven, hodd, if_true, if_false, Prod.mk.eta,
    LinearEquiv.symm_apply_apply]

/-- Real factors act on both components. -/
theorem complexView_mul (weight : R) (data : ℕ → R) (k : ℕ) :
    q.complexView (fun n => weight * data n) k = weight • q.complexView data k := by
  rw [complexView, complexView, ← map_smul]
  rfl

theorem complexView_add (x y : ℕ → R) (k : ℕ) :
    q.complexView (fun n => x n + y n) k = q.complexView x k + q.complexView y k := by
  rw [complexView, complexView, complexView, ← map_add]
  rfl

theorem complexView_congr {x y : ℕ → R} {size k : ℕ} (hk : k < size)
    (h : ∀ n, n < 2 * size → x n = y n) : q.complexView x k = q.complexView y k := by
  rw [complexView, complexView, h _ (by omega), h _ (by omega)]

end InterpolatingParameters

namespace InterpolatingConvolverUniform

variable {q : InterpolatingParameters R C}

/-- A weighted sum of filters. -/
def combination {M : Type} [AddCommGroup M] [Module R M] (filters : ℕ → ℕ → M)
    (terms : List (ℕ × R)) (k : ℕ) : M :=
  (terms.map fun term => term.2 • filters term.1 k).sum

/-- The rows of the stored filters are aligned for both views. -/
theorem checkAlignment_storedFilter (c : InterpolatingConvolverUniform q) (filterIdx : ℕ) :
    checkAlignment (c.storedFilter filterIdx).address q.crossfading.core.alignment = true := by
  apply CrossfadingConvolverUniform.checkAlignment_core c.convolver.coreConvolver
  intro hne
  show q.crossfading.core.alignment ∣ 2 * (0 + filterIdx * nextAlignedSize
    q.dftFilterRepresentationSize (arrayAlignment (q.crossfading.core.alignment / 2)))
  have hpower := c.convolver.coreConvolver.alignment_valid.1
  rw [arrayAlignment, if_neg hne] at hpower
  rcases eq_one_or_even_of_alignmentIsPowerOfTwo q.alignment_lt hpower with hone | ⟨half, hhalf⟩
  · have hone' : q.crossfading.core.alignment = 1 := hone
    rw [hone']
    exact Nat.one_dvd _
  · have hhalf' : q.crossfading.core.alignment = 2 * half := hhalf
    have hhalf_ne : half ≠ 0 := by omega
    rw [hhalf', Nat.mul_div_cancel_left half Nat.two_pos, arrayAlignment, if_neg hhalf_ne,
      Nat.zero_add]
    exact Nat.mul_dvd_mul_left 2 (Nat.dvd_mul_left_of_dvd (dvd_nextAlignedSize _ hhalf_ne) _)

/-- A term is added to all values of the temporary filter. -/
theorem addTerm_eq (c : InterpolatingConvolverUniform q) (index : ℕ) (weight : R)
    (tempFilter : ℕ → R) :
    vectorMultiplyConstantAddInplace weight (c.storedFilter index) ⟨0, tempFilter⟩
        (2 * q.dftFilterRepresentationSize) q.crossfading.core.alignment =
      .ok fun n => if n < 2 * q.dftFilterRepresentationSize
        then tempFilter n + weight * (c.storedFilter index).data n else tempFilter n := by
  have hstored := c.checkAlignment_storedFilter index
  have hzero := checkAlignment_zero hstored
  simp only [vectorMultiplyConstantAddInplace, hstored, hzero, Bool.not_true, Bool.false_eq_true,
    if_false]

theorem foldlM_addTerm (c : InterpolatingConvolverUniform q) (terms : List (ℕ × R)) :
    ∀ (before : List (ℕ × R)) (tempFilter : ℕ → R),
      (∀ k, k < q.dftFilterRepresentationSize →
        q.complexView tempFilter k = combination c.filters before k) →
      ∃ result, terms.foldlM
          (fun tempFilter term =>
            vectorMultiplyConstantAddInplace term.2 (c.storedFilter term.1) ⟨0, tempFilter⟩
              (2 * q.dftFilterRepresentationSize) q.crossfading.core.alignment)
          tempFilter = .ok result ∧
        ∀ k, k < q.dftFilterRepresentationSize →
          q.complexView result k = combination c.filters (before ++ terms) k := by
  induction terms with
  | nil =>
    intro before tempFilter hbefore
    exact ⟨tempFilter, rfl, by simpa using hbefore⟩
  | cons term terms ih =>
    intro before tempFilter hbefore
    -- the sum so far is that of the terms before, in the complex view of the memory
    have hsum : ∀ k, k < q.dftFilterRepresentationSize →
        q.complexView (fun n => if n < 2 * q.dftFilterRepresentationSize
          then tempFilter n + term.2 * (c.storedFilter term.1).data n else tempFilter n) k =
        combination c.filters (before ++ [term]) k := by
      intro k hk
      rw [InterpolatingParameters.complexView_congr hk fun n hn => if_pos hn,
        InterpolatingParameters.complexView_add, InterpolatingParameters.complexView_mul,
        storedFilter, InterpolatingParameters.complexView_realView, hbefore k hk]
      simp [combination, InterpolatingParameters.filterMatrix, BasicMatrix.row]
    obtain ⟨result, hresult, hvalue⟩ := ih (before ++ [term]) _ hsum
    refine ⟨result, ?_, by simpa using hvalue⟩
    rw [List.foldlM_cons, c.addTerm_eq]
    exact hresult

/-- **Interpolation** of the stored filters does not fail, and yields the weighted sum. -/
theorem interpolate_eq (c : InterpolatingConvolverUniform q) (terms : List (ℕ × R)) :
    ∃ tempFilter, c.interpolate terms = .ok tempFilter ∧
      ∀ k, k < q.dftFilterRepresentationSize →
        q.complexView tempFilter k = combination c.filters terms k := by
  cases terms with
  | nil =>
    refine ⟨fun _ => 0, rfl, fun k _ => ?_⟩
    show q.components.symm 0 = 0
    exact map_zero _
  | cons term terms =>
    -- the first product replaces what the memory holds, the others are added
    have hfirst : ∀ k, k < q.dftFilterRepresentationSize →
        q.complexView (fun n => if n < 2 * q.dftFilterRepresentationSize
          then term.2 * (c.storedFilter term.1).data n else 0) k =
        combination c.filters [term] k := by
      intro k hk
      rw [InterpolatingParameters.complexView_congr hk fun n hn => if_pos hn,
        InterpolatingParameters.complexView_mul, storedFilter,
        InterpolatingParameters.complexView_realView]
      simp [combination, InterpolatingParameters.filterMatrix, BasicMatrix.row]
    obtain ⟨result, hresult, hvalue⟩ := c.foldlM_addTerm terms [term] _ hfirst
    refine ⟨result, ?_, hvalue⟩
    have hstored := c.checkAlignment_storedFilter term.1
    have hzero := checkAlignment_zero hstored
    have hproduct : vectorMultiplyConstant term.2 (c.storedFilter term.1) ⟨0, fun _ => 0⟩
        (2 * q.dftFilterRepresentationSize) q.crossfading.core.alignment =
        .ok fun n => if n < 2 * q.dftFilterRepresentationSize
          then term.2 * (c.storedFilter term.1).data n else 0 := by
      simp only [vectorMultiplyConstant, hstored, hzero, Bool.not_true, Bool.false_eq_true,
        if_false]
    show (vectorMultiplyConstant term.2 _ _ _ _ >>= _) = _
    rw [hproduct]
    exact hresult

/-! ### Setting interpolants -/

/-- Whether an interpolant passes the checks: the limit of the ids is that of the routing
points of the crossfading convolver. -/
def Passes (q : InterpolatingParameters R C) (param : InterpolationParameter R) : Prop :=
  param.id < q.maxFilterEntries ∧ param.numberOfInterpolants = q.numberOfInterpolants ∧
    ∀ index ∈ param.indices, index < q.maxFilterEntries

/-- **An interpolant that passes the checks** is handed on as a transformed filter. -/
theorem setInterpolant_of_passes (c : InterpolatingConvolverUniform q)
    {param : InterpolationParameter R} (h : Passes q param) (hpos : 0 < q.numberOfInterpolants)
    (startTransition : Bool) : ∃ tempFilter, c.interpolate param.terms = .ok tempFilter ∧
      c.setInterpolant param startTransition =
        (c.convolver.setTransformedFilter ⟨0, q.complexView tempFilter⟩ param.id startTransition
          (arrayAlignment q.crossfading.core.complexAlignment)).map
          fun convolver => { c with convolver := convolver } := by
  obtain ⟨hid, hcount, hindices⟩ := h
  obtain ⟨tempFilter, htemp, -⟩ := c.interpolate_eq param.terms
  have hid' : ¬param.id ≥ maxNumberOfRoutingPoints q := Nat.not_le.mpr hid
  have hlength : param.indices.length = q.numberOfInterpolants := param.length_eq.trans hcount
  refine ⟨tempFilter, htemp, ?_⟩
  unfold setInterpolant
  rw [if_neg hid', if_neg (not_not.mpr hcount)]
  cases hmax : param.indices.max? with
  | none =>
    rw [List.max?_eq_none_iff] at hmax
    rw [hmax] at hlength
    exact absurd hlength (Nat.ne_of_lt hpos)
  | some maxIndex =>
    have hmem := List.max?_mem hmax
    simp only [htemp]
    rw [if_neg (Nat.not_le.mpr (hindices maxIndex hmem))]
    rfl

/-- **An interpolant that does not pass** is refused, unless there is nothing to compare. -/
theorem setInterpolant_of_not_passes (c : InterpolatingConvolverUniform q)
    {param : InterpolationParameter R} (h : ¬Passes q param) (startTransition : Bool) :
    ∃ e, c.setInterpolant param startTransition = .error (.thrown e) := by
  unfold setInterpolant
  by_cases hid : param.id ≥ maxNumberOfRoutingPoints q
  · rw [if_pos hid]
    exact ⟨_, rfl⟩
  · rw [if_neg hid]
    by_cases hcount : param.numberOfInterpolants = q.numberOfInterpolants
    · rw [if_neg (not_not.mpr hcount)]
      have hindices : ¬∀ index ∈ param.indices, index < q.maxFilterEntries := fun hall =>
        h ⟨Nat.not_le.mp hid, hcount, hall⟩
      push Not at hindices
      obtain ⟨index, hindex, hge⟩ := hindices
      cases hmax : param.indices.max? with
      | none =>
        rw [List.max?_eq_none_iff] at hmax
        rw [hmax] at hindex
        cases hindex
      | some maxIndex =>
        have hle := (List.max?_le_iff hmax).mp (Nat.le_refl maxIndex) index hindex
        simp only
        rw [if_pos (Nat.le_trans hge hle)]
        exact ⟨_, rfl⟩
    · rw [if_pos hcount]
      exact ⟨_, rfl⟩

theorem setInterpolant_returns (c : InterpolatingConvolverUniform q)
    {param : InterpolationParameter R} (h : Passes q param) (hpos : 0 < q.numberOfInterpolants)
    (hid : param.id < q.maxRoutingPoints) (startTransition : Bool) :
    ∃ c', c.setInterpolant param startTransition = .ok c' := by
  obtain ⟨tempFilter, -, heq⟩ := c.setInterpolant_of_passes h hpos startTransition
  obtain ⟨convolver, hset⟩ := c.convolver.setTransformedFilter_returns
    ⟨0, q.complexView tempFilter⟩ hid startTransition
    (arrayAlignment q.crossfading.core.complexAlignment)
  rw [heq, hset]
  exact ⟨_, rfl⟩

/-- Without interpolants, the greatest index of none of them is read; and an id that exceeds
the other limit is used as an index. -/
theorem setInterpolant_outOfRange (c : InterpolatingConvolverUniform q)
    {param : InterpolationParameter R} (h : Passes q param)
    (hout : q.numberOfInterpolants = 0 ∨ q.maxRoutingPoints ≤ param.id) (startTransition : Bool) :
    c.setInterpolant param startTransition = .error .outOfRange := by
  rcases Nat.eq_zero_or_pos q.numberOfInterpolants with hnone | hpos
  · obtain ⟨hid, hcount, -⟩ := h
    have hid' : ¬param.id ≥ maxNumberOfRoutingPoints q := Nat.not_le.mpr hid
    have hlength : param.indices.length = q.numberOfInterpolants := param.length_eq.trans hcount
    rw [hnone, List.length_eq_zero_iff] at hlength
    unfold setInterpolant
    rw [if_neg hid', if_neg (not_not.mpr hcount), hlength]
    rfl
  · have hge := hout.resolve_left (Nat.ne_of_gt hpos)
    obtain ⟨tempFilter, -, heq⟩ := c.setInterpolant_of_passes h hpos startTransition
    have hset : c.convolver.setTransformedFilter ⟨0, q.complexView tempFilter⟩ param.id
        startTransition (arrayAlignment q.crossfading.core.complexAlignment) =
        .error .outOfRange := CrossfadingConvolverUniform.switchFilter_outOfRange hge
    rw [heq, hset]
    rfl

/-- The outcome of setting an interpolant, in terms of both limits. -/
theorem setInterpolant_eq_ok_iff (c : InterpolatingConvolverUniform q)
    (param : InterpolationParameter R) (startTransition : Bool) :
    (∃ c', c.setInterpolant param startTransition = .ok c') ↔
      Passes q param ∧ 0 < q.numberOfInterpolants ∧ param.id < q.maxRoutingPoints := by
  constructor
  · rintro ⟨c', hc'⟩
    by_contra hnot
    by_cases hpasses : Passes q param
    · have hout : q.numberOfInterpolants = 0 ∨ q.maxRoutingPoints ≤ param.id := by
        by_contra hin
        exact hnot ⟨hpasses, by omega, by omega⟩
      rw [c.setInterpolant_outOfRange hpasses hout] at hc'
      cases hc'
    · obtain ⟨e, he⟩ := c.setInterpolant_of_not_passes hpasses startTransition
      rw [he] at hc'
      cases hc'
  · rintro ⟨hpasses, hpos, hid⟩
    exact c.setInterpolant_returns hpasses hpos hid startTransition

/-- An interpolant that is not set is refused if it does not pass the checks. -/
theorem setInterpolant_thrown_iff {c : InterpolatingConvolverUniform q}
    {param : InterpolationParameter R} {startTransition : Bool} {fault : Fault}
    (h : c.setInterpolant param startTransition = .error fault) :
    (∃ e, fault = .thrown e) ↔ ¬Passes q param := by
  constructor
  · rintro ⟨e, rfl⟩ hpasses
    by_cases hin : 0 < q.numberOfInterpolants ∧ param.id < q.maxRoutingPoints
    · obtain ⟨c', hc'⟩ := c.setInterpolant_returns hpasses hin.1 hin.2 startTransition
      rw [hc'] at h
      cases h
    · rw [c.setInterpolant_outOfRange hpasses (by omega)] at h
      cases h
  · intro hpasses
    obtain ⟨e, he⟩ := c.setInterpolant_of_not_passes hpasses startTransition
    rw [he] at h
    cases h
    exact ⟨e, rfl⟩

/-- An interpolant that is set replaces a filter of the convolver inside. -/
theorem setInterpolant_eq_ok {c c' : InterpolatingConvolverUniform q}
    {param : InterpolationParameter R} {startTransition : Bool}
    (h : c.setInterpolant param startTransition = .ok c') :
    param.id < q.maxRoutingPoints ∧ ∃ tempFilter, c.interpolate param.terms = .ok tempFilter ∧
      c.convolver.setTransformedFilter ⟨0, q.complexView tempFilter⟩ param.id startTransition
        (arrayAlignment q.crossfading.core.complexAlignment) = .ok c'.convolver ∧
      c'.filters = c.filters := by
  obtain ⟨hpasses, hpos, hid⟩ := (c.setInterpolant_eq_ok_iff param startTransition).mp ⟨c', h⟩
  obtain ⟨tempFilter, htemp, heq⟩ := c.setInterpolant_of_passes hpasses hpos startTransition
  rw [heq] at h
  obtain ⟨convolver, hset, rfl⟩ := exists_of_map_ok h
  exact ⟨hid, tempFilter, htemp, hset, rfl⟩

/-- What setting an interpolant keeps, setting several of them keeps. -/
theorem setInterpolantElements_induct {I : InterpolatingConvolverUniform q → Prop}
    (startTransition : Bool)
    (hstep : ∀ c param c', I c → c.setInterpolant param startTransition = .ok c' → I c') :
    ∀ (params : List (InterpolationParameter R)) (c : InterpolatingConvolverUniform q), I c →
      I (c.setInterpolantElements startTransition params).1 := by
  intro params
  induction params with
  | nil => exact fun c hc => hc
  | cons param params ih =>
    intro c hc
    unfold setInterpolantElements
    cases hset : c.setInterpolant param startTransition with
    | ok c' => exact ih c' (hstep c param c' hc hset)
    | error fault => exact hc

theorem setInterpolantElements_thrown (hagree : ∀ c : InterpolatingConvolverUniform q,
      ∀ param startTransition fault, c.setInterpolant param startTransition = .error fault →
        ∃ e, fault = .thrown e) {startTransition : Bool} :
    ∀ (params : List (InterpolationParameter R)) (c : InterpolatingConvolverUniform q)
      (fault : Fault), (c.setInterpolantElements startTransition params).2 = .error fault →
        ∃ e, fault = .thrown e := by
  intro params
  induction params with
  | nil => exact fun c fault h => nomatch h
  | cons param params ih =>
    intro c fault h
    unfold setInterpolantElements at h
    cases hset : c.setInterpolant param startTransition with
    | ok c' =>
      rw [hset] at h
      exact ih c' fault h
    | error refused =>
      rw [hset] at h
      cases h
      exact hagree c param startTransition _ hset

/-! ### Storing filters -/

theorem setImpulseResponse_eq_ok {c c' : InterpolatingConvolverUniform q} {r : ImpulseResponse R}
    {filterIdx : ℕ} (h : c.setImpulseResponse r filterIdx = .ok c') :
    ∃ row, q.crossfading.core.transformImpulseResponse r.ir r.filterLength (c.filters filterIdx)
        (q.filterAlignment r.alignment) = .ok row ∧
      c' = { c with filters := Function.update c.filters filterIdx row } := by
  unfold setImpulseResponse at h
  split at h
  · cases h
  · split at h
    · cases h
    · obtain ⟨row, hrow, heq⟩ := exists_of_bind_ok h
      cases heq
      exact ⟨row, hrow, rfl⟩

/-- The rows of the filter memory that have been loaded by the loop over the new filters. -/
theorem foldlM_transform {newImpulseResponses : BasicMatrix R} {irLength align : ℕ}
    {filters loaded : ℕ → ℕ → C} : ∀ {count : ℕ},
    (List.range count).foldlM
      (fun filters filterIdx => do
        let row ← q.crossfading.core.transformImpulseResponse (newImpulseResponses.row filterIdx)
          irLength (filters filterIdx) align
        pure (Function.update filters filterIdx row))
      filters = .ok loaded →
    ∀ f, f < count → ∃ result, q.crossfading.core.transformImpulseResponse
      (newImpulseResponses.row f) irLength result align = .ok (loaded f) := by
  intro count
  induction count generalizing loaded with
  | zero => exact fun _ f hf => absurd hf (Nat.not_lt_zero f)
  | succ count ih =>
    intro h f hf
    rw [List.range_succ, List.foldlM_append] at h
    obtain ⟨before, hbefore, hlast⟩ := exists_of_bind_ok h
    rw [List.foldlM_cons] at hlast
    obtain ⟨after, hafter, hnil⟩ := exists_of_bind_ok hlast
    obtain ⟨row, hrow, heq⟩ := exists_of_bind_ok hafter
    cases heq
    cases hnil
    -- each row is written once
    by_cases hlt : f = count
    · subst hlt
      rw [Function.update_self]
      exact ⟨_, hrow⟩
    · rw [Function.update_of_ne hlt]
      exact ih hbefore f (by omega)

theorem initFilters_eq_ok {c c' : InterpolatingConvolverUniform q}
    {newImpulseResponses : BasicMatrix R} (h : c.initFilters newImpulseResponses = .ok c') :
    c'.convolver = c.convolver ∧
      newImpulseResponses.numberOfRows ≤ q.maxFilterEntries ∧
      (∀ f, f < newImpulseResponses.numberOfRows → ∃ result,
        q.crossfading.core.transformImpulseResponse (newImpulseResponses.row f)
          newImpulseResponses.numberOfColumns result
          (q.filterAlignment newImpulseResponses.alignmentElements) = .ok (c'.filters f)) ∧
      ∀ f, newImpulseResponses.numberOfRows ≤ f → c'.filters f = fun _ => 0 := by
  unfold initFilters at h
  simp only at h
  split at h
  · cases h
  next hrows =>
    split at h
    · cases h
    · obtain ⟨loaded, hloaded, heq⟩ := exists_of_bind_ok h
      cases heq
      refine ⟨rfl, Nat.not_lt.mp hrows, fun f hf => ?_, fun f hf => if_pos hf⟩
      obtain ⟨result, hresult⟩ := foldlM_transform hloaded f hf
      refine ⟨result, hresult.trans ?_⟩
      show _ = Except.ok (if _ ≤ f then _ else _)
      rw [if_neg (Nat.not_le.mpr hf)]

theorem setImpulseResponse_eq_ok_iff (c : InterpolatingConvolverUniform q) (r : ImpulseResponse R)
    (filterIdx : ℕ) :
    (∃ c', c.setImpulseResponse r filterIdx = .ok c') ↔
      filterIdx < q.maxFilterEntries ∧ r.filterLength ≤ q.arguments.maxFilterLength := by
  unfold setImpulseResponse ConvolverParameters.transformImpulseResponse
  by_cases hidx : filterIdx < q.maxFilterEntries
  · have hidx' : ¬filterIdx ≥ maxNumberOfFilterEntries q := Nat.not_le.mpr hidx
    rw [if_neg hidx']
    by_cases hlength : r.filterLength ≤ q.arguments.maxFilterLength
    · have hlength' : ¬r.filterLength > q.crossfading.core.maxFilterLength :=
        Nat.not_lt.mpr hlength
      rw [if_neg hlength', if_neg hlength']
      exact ⟨fun _ => ⟨hidx, hlength⟩, fun _ => ⟨_, rfl⟩⟩
    · have hlength' : r.filterLength > q.crossfading.core.maxFilterLength := Nat.not_le.mp hlength
      rw [if_pos hlength']
      constructor
      · rintro ⟨c', hc'⟩
        cases hc'
      · rintro ⟨-, hle⟩
        exact absurd hle hlength
  · have hidx' : filterIdx ≥ maxNumberOfFilterEntries q := Nat.not_lt.mp hidx
    rw [if_pos hidx']
    constructor
    · rintro ⟨c', hc'⟩
      cases hc'
    · rintro ⟨hlt, -⟩
      exact absurd hlt hidx

/-! ### The limits -/

/-- A routing entry for an input, an output and an interpolant that exist. -/
def Admissible (q : InterpolatingParameters R C) (routing : RoutingEntry R) : Prop :=
  routing.inputIdx < q.arguments.numberOfInputs ∧
    routing.outputIdx < q.arguments.numberOfOutputs ∧ routing.filterIdx < q.maxRoutingPoints

/-- What is to be accepted, in terms of the limits that were given to the constructor; all
that is not accepted is to be refused by an exception. -/
structure Contract (c : InterpolatingConvolverUniform q) : Prop where
  entries : ∀ routing, CrossfadingConvolverUniform.FilterIndexSafe q.crossfading routing →
    ((∃ c', c.convolver.setRoutingEntry routing = .ok c') ↔ Admissible q routing ∧
      (c.convolver.routingTable.others routing).length < q.maxRoutingPoints)
  tables : ∀ routings : List (RoutingEntry R),
    routings.Pairwise (fun a b => ¬equivalentRoutings a b) →
    (∀ routing ∈ routings, CrossfadingConvolverUniform.FilterIndexSafe q.crossfading routing) →
    ((c.convolver.initRoutingTable routings).2 = .ok () ↔
      (∀ routing ∈ routings, Admissible q routing) ∧ routings.length ≤ q.maxRoutingPoints)
  interpolants : ∀ param startTransition,
    (∃ c', c.setInterpolant param startTransition = .ok c') ↔
      param.id < q.maxRoutingPoints ∧ param.numberOfInterpolants = q.numberOfInterpolants ∧
        ∀ index ∈ param.indices, index < q.maxFilterEntries
  filters : ∀ r filterIdx, (∃ c', c.setImpulseResponse r filterIdx = .ok c') ↔
    filterIdx < q.maxFilterEntries ∧ r.filterLength ≤ q.arguments.maxFilterLength
  thrown : ∀ param startTransition fault,
    c.setInterpolant param startTransition = .error fault → ∃ e, fault = .thrown e

/-- Both limits are the same and there is something to interpolate; or both are without
effect. -/
def LimitsAgree (q : InterpolatingParameters R C) : Prop :=
  (q.maxRoutingPoints = q.maxFilterEntries ∧
      (0 < q.numberOfInterpolants ∨ q.maxRoutingPoints = 0)) ∨
    (0 < q.numberOfInterpolants ∧ q.maxFilterEntries = 0 ∧
      (q.arguments.numberOfInputs = 0 ∨ q.arguments.numberOfOutputs = 0))

instance (q : InterpolatingParameters R C) : Decidable (LimitsAgree q) :=
  inferInstanceAs (Decidable (_ ∨ _))

/-- An index that is refused by the core convolver is that of no filter. -/
theorem filterIdx_lt_iff {routing : RoutingEntry R}
    (h : CrossfadingConvolverUniform.FilterIndexSafe q.crossfading routing) :
    routing.filterIdx < q.crossfading.core.maxNumberOfFilterEntries ↔
      routing.filterIdx < q.maxRoutingPoints := by
  have hsafe : routing.filterIdx < q.maxRoutingPoints ∨
      2 * q.maxRoutingPoints ≤ routing.filterIdx := h
  have hslots : q.crossfading.core.maxNumberOfFilterEntries = 2 * q.maxRoutingPoints := rfl
  omega

theorem contract_of_limitsAgree (h : LimitsAgree q) (c : InterpolatingConvolverUniform q) :
    c.Contract where
  entries routing hsafe := by
    rw [CrossfadingConvolverUniform.setRoutingEntry_eq_ok_iff, filterIdx_lt_iff hsafe]
    show Admissible q routing ∧ _ < q.maxFilterEntries ↔ _
    unfold Admissible
    rcases h with ⟨heq, -⟩ | ⟨-, hzero, hnone⟩
    · rw [heq]
    · omega
  tables routings hdistinct hsafe := by
    rw [CrossfadingConvolverUniform.initRoutingTable_eq_ok_iff _ hdistinct]
    have hall : (∀ routing ∈ routings, routing.inputIdx < q.crossfading.core.numberOfInputs ∧
        routing.outputIdx < q.crossfading.core.numberOfOutputs ∧
        routing.filterIdx < q.crossfading.core.maxNumberOfFilterEntries) ↔
        ∀ routing ∈ routings, Admissible q routing := by
      refine forall₂_congr fun routing hmem => ?_
      rw [filterIdx_lt_iff (hsafe routing hmem)]
      rfl
    rw [hall]
    show _ ∧ _ ≤ q.maxFilterEntries ↔ _
    rcases h with ⟨heq, -⟩ | ⟨-, hzero, hnone⟩
    · rw [heq]
    · -- there is no admissible entry
      cases routings with
      | nil => simp
      | cons routing routings =>
        have hnot : ¬Admissible q routing := by
          unfold Admissible
          omega
        simp [hnot]
  interpolants param startTransition := by
    rw [setInterpolant_eq_ok_iff]
    unfold Passes
    constructor
    · rintro ⟨⟨-, hcount, hindices⟩, -, hid⟩
      exact ⟨hid, hcount, hindices⟩
    · rintro ⟨hid, hcount, hindices⟩
      rcases h with ⟨heq, hpos⟩ | ⟨hpos, hzero, -⟩
      · exact ⟨⟨heq ▸ hid, hcount, hindices⟩, by omega, hid⟩
      · -- there is an index, but no stored filter
        have hlength : param.indices.length = q.numberOfInterpolants := param.length_eq.trans hcount
        obtain ⟨index, hindex⟩ := List.exists_mem_of_length_pos (hlength ▸ hpos)
        have hlt := hindices index hindex
        omega
  filters r filterIdx := c.setImpulseResponse_eq_ok_iff r filterIdx
  thrown param startTransition fault hfault := by
    rw [setInterpolant_thrown_iff hfault]
    rintro ⟨hid, hcount, hindices⟩
    have hin : 0 < q.numberOfInterpolants ∧ param.id < q.maxRoutingPoints := by
      rcases h with ⟨heq, hpos⟩ | ⟨hpos, hzero, -⟩ <;> omega
    obtain ⟨c', hc'⟩ := c.setInterpolant_returns ⟨hid, hcount, hindices⟩ hin.1 hin.2
      startTransition
    rw [hc'] at hfault
    cases hfault

/-- An interpolant that refers to the first filter only. -/
def firstFilter (q : InterpolatingParameters R C) (id : ℕ) : InterpolationParameter R where
  id := id
  indices := List.replicate q.numberOfInterpolants 0
  weights := List.replicate q.numberOfInterpolants 0
  length_eq := by simp

theorem limitsAgree_of_contract {c : InterpolatingConvolverUniform q} (h : c.Contract) :
    LimitsAgree q := by
  have hcount : ∀ id, (firstFilter q id).numberOfInterpolants = q.numberOfInterpolants := fun id =>
    List.length_replicate
  -- an interpolant that passes the checks is to be set, or the id is to be refused
  have hpassed : ∀ id, Passes q (firstFilter q id) → 0 < q.numberOfInterpolants ∧
      id < q.maxRoutingPoints := by
    intro id hpasses
    by_contra hnot
    have hset := c.setInterpolant_outOfRange hpasses (by
      show _ ∨ q.maxRoutingPoints ≤ id
      omega) false
    obtain ⟨e, he⟩ := h.thrown _ _ _ hset
    cases he
  have hindices : ∀ id, q.numberOfInterpolants = 0 ∨ 0 < q.maxFilterEntries →
      ∀ index ∈ (firstFilter q id).indices, index < q.maxFilterEntries := by
    intro id hcase index hindex
    obtain ⟨hne, rfl⟩ := List.mem_replicate.mp hindex
    exact hcase.resolve_left hne
  have haccepted : ∀ id, id < q.maxRoutingPoints →
      (q.numberOfInterpolants = 0 ∨ 0 < q.maxFilterEntries) →
      0 < q.numberOfInterpolants ∧ id < q.maxFilterEntries := by
    intro id hid hcase
    have hok := (h.interpolants (firstFilter q id) false).mpr ⟨hid, hcount id, hindices id hcase⟩
    obtain ⟨⟨hlt, -⟩, hpos, -⟩ := (c.setInterpolant_eq_ok_iff _ false).mp hok
    exact ⟨hpos, hlt⟩
  rcases Nat.lt_trichotomy q.maxRoutingPoints q.maxFilterEntries with hlt | heq | hgt
  · -- the id after the last one is used as an index
    have hcase : q.numberOfInterpolants = 0 ∨ 0 < q.maxFilterEntries := Or.inr (by omega)
    have hpass := hpassed q.maxRoutingPoints ⟨hlt, hcount _, hindices _ hcase⟩
    omega
  · refine Or.inl ⟨heq, ?_⟩
    by_contra hnone
    have hpos := (haccepted 0 (by omega) (Or.inl (by omega))).1
    omega
  · -- an id is refused, or the only entry of a table
    rcases Nat.eq_zero_or_pos q.maxFilterEntries with hzero | hpos
    · rcases Nat.eq_zero_or_pos q.numberOfInterpolants with hnone | hsome
      · have hpos := (haccepted 0 (by omega) (Or.inl hnone)).1
        omega
      · refine Or.inr ⟨hsome, hzero, ?_⟩
        by_contra hboth
        let routing : RoutingEntry R := ⟨0, 0, 0, 1⟩
        have hsafe : CrossfadingConvolverUniform.FilterIndexSafe q.crossfading routing :=
          Or.inl (show 0 < q.maxRoutingPoints by omega)
        have hadmissible : Admissible q routing := ⟨by
          show 0 < _
          omega, by
          show 0 < _
          omega, by
          show 0 < _
          omega⟩
        have hok := (h.tables [routing] (List.pairwise_singleton _ _) (by simpa using hsafe)).mpr
          ⟨by simpa using hadmissible, by
            show 1 ≤ _
            omega⟩
        rw [CrossfadingConvolverUniform.initRoutingTable_eq_ok_iff _
          (List.pairwise_singleton _ _)] at hok
        have hroom : 1 ≤ q.maxFilterEntries := hok.2
        omega
    · have hid := (haccepted q.maxFilterEntries hgt (Or.inr hpos)).2
      omega

/-- **The limits of the constructor** are those of the convolver, in whatever state, exactly
if they agree. -/
theorem contract_iff (c : InterpolatingConvolverUniform q) : c.Contract ↔ LimitsAgree q :=
  ⟨limitsAgree_of_contract, fun h => contract_of_limitsAgree h c⟩

/-! ### Runs -/

theorem Session.step_delegate {signal : ℕ → ℕ → R} {op : Operation R} {s : Session q}
    {op' : CrossfadingConvolverUniform.Operation R C}
    (hcall : s.call signal op = s.delegate signal op') :
    s.step signal op = (s.inner.step signal op').map s.withInner := by
  unfold Session.step CrossfadingConvolverUniform.Session.step
  rw [hcall]
  unfold Session.delegate
  cases s.inner.call signal op' with
  | mk inner result =>
    cases result with
    | none => rfl
    | some fault => cases fault <;> rfl

/-- The outcome of a call that may only fail by an exception. -/
theorem Session.step_attempt {signal : ℕ → ℕ → R} {op : Operation R} {s : Session q}
    {result : Except Fault (InterpolatingConvolverUniform q)}
    (hcall : s.call signal op = s.attempt result) {P : InterpolatingConvolverUniform q → Prop}
    (hs : P s.convolver) (hok : ∀ c, result = .ok c → P c)
    (herror : ∀ fault, result = .error fault → ∃ e, fault = .thrown e) :
    ∃ s', s.step signal op = some s' ∧ P s'.convolver := by
  unfold Session.step
  rw [hcall]
  cases result with
  | ok c => exact ⟨_, rfl, hok c rfl⟩
  | error fault =>
    obtain ⟨e, rfl⟩ := herror fault rfl
    exact ⟨s, rfl, hs⟩

theorem Session.step_always {signal : ℕ → ℕ → R} {op : Operation R} {s : Session q}
    {result : InterpolatingConvolverUniform q × Except Fault Unit}
    (hcall : s.call signal op = s.always result)
    (herror : ∀ fault, result.2 = .error fault → ∃ e, fault = .thrown e) :
    s.step signal op = some { s with convolver := result.1 } := by
  unfold Session.step
  rw [hcall]
  obtain ⟨c, outcome⟩ := result
  cases outcome with
  | ok _ => rfl
  | error fault =>
    obtain ⟨e, rfl⟩ := herror fault rfl
    rfl

theorem Session.eq_of_step {signal : ℕ → ℕ → R} {op : Operation R} {s s' : Session q}
    (h : s.step signal op = some s') : (s.call signal op).1 = s' := by
  unfold Session.step at h
  split at h
  next heq =>
    cases h
    rw [heq]
  next heq =>
    cases h
    rw [heq]
  · cases h

/-- Setting an interpolant is a step of the convolver inside. -/
theorem setInterpolant_step (signal : ℕ → ℕ → R) {c c' : InterpolatingConvolverUniform q}
    {param : InterpolationParameter R} {startTransition : Bool} (blocks : ℕ)
    (h : c.setInterpolant param startTransition = .ok c') :
    ∃ op, CrossfadingConvolverUniform.Session.step signal op ⟨c.convolver, blocks⟩ =
      some ⟨c'.convolver, blocks⟩ := by
  obtain ⟨-, tempFilter, -, hset, -⟩ := setInterpolant_eq_ok h
  refine ⟨.setTransformedFilter ⟨0, q.complexView tempFilter⟩ param.id startTransition
    (arrayAlignment q.crossfading.core.complexAlignment), ?_⟩
  unfold CrossfadingConvolverUniform.Session.step
  simp only [CrossfadingConvolverUniform.Session.call, hset,
    CrossfadingConvolverUniform.Session.attempt]

/-- **Every run is a run of the convolver inside.** -/
theorem Session.step_simulates {signal : ℕ → ℕ → R} {op : Operation R} {s s' : Session q}
    (h : s.step signal op = some s') :
    ∃ ops, exec (CrossfadingConvolverUniform.Session.step signal) ops s.inner = some s'.inner := by
  -- most calls are passed on
  have hdelegate : ∀ op', s.call signal op = s.delegate signal op' →
      ∃ ops, exec (CrossfadingConvolverUniform.Session.step signal) ops s.inner =
        some s'.inner := by
    intro op' hcall
    rw [Session.step_delegate hcall] at h
    obtain ⟨inner, hinner, rfl⟩ := Option.map_eq_some_iff.mp h
    exact ⟨[op'], (exec_singleton _ _).trans hinner⟩
  have hresult := Session.eq_of_step h
  cases op with
  | setRoutingEntry routing => exact hdelegate _ rfl
  | removeRoutingEntry inputIdx outputIdx => exact hdelegate _ rfl
  | clearRoutingTable => exact hdelegate _ rfl
  | initRoutingTable routings => exact hdelegate _ rfl
  | clearFilters =>
    cases hresult
    exact ⟨[.clearFilters], rfl⟩
  | initFilters newImpulseResponses =>
    simp only [Session.call] at hresult
    cases hset : s.convolver.initFilters newImpulseResponses with
    | error e =>
      rw [hset] at hresult
      cases hresult
      exact ⟨[], rfl⟩
    | ok c =>
      rw [hset] at hresult
      cases hresult
      refine ⟨[], ?_⟩
      show some (⟨s.convolver.convolver, s.blocks⟩ :
        CrossfadingConvolverUniform.Session q.crossfading) = some ⟨c.convolver, s.blocks⟩
      rw [(initFilters_eq_ok hset).1]
  | setImpulseResponse r filterIdx =>
    simp only [Session.call] at hresult
    cases hset : s.convolver.setImpulseResponse r filterIdx with
    | error e =>
      rw [hset] at hresult
      cases hresult
      exact ⟨[], rfl⟩
    | ok c =>
      rw [hset] at hresult
      cases hresult
      obtain ⟨row, -, rfl⟩ := setImpulseResponse_eq_ok hset
      exact ⟨[], rfl⟩
  | setInterpolant param startTransition =>
    simp only [Session.call] at hresult
    cases hset : s.convolver.setInterpolant param startTransition with
    | error fault =>
      rw [hset] at hresult
      cases hresult
      exact ⟨[], rfl⟩
    | ok c =>
      rw [hset] at hresult
      cases hresult
      obtain ⟨op', hop'⟩ := setInterpolant_step signal s.blocks hset
      exact ⟨[op'], (exec_singleton _ _).trans hop'⟩
  | setInterpolants params startTransition =>
    -- one call of the convolver inside for each interpolant
    have hrun := setInterpolantElements_induct
      (I := fun c => ∃ ops, exec (CrossfadingConvolverUniform.Session.step signal) ops s.inner =
        some ⟨c.convolver, s.blocks⟩)
      startTransition
      (fun c param c' ⟨ops, hops⟩ hset => by
        obtain ⟨op', hop'⟩ := setInterpolant_step signal s.blocks hset
        exact ⟨ops ++ [op'], exec_concat_eq_some.mpr ⟨_, hops, hop'⟩⟩)
      params.elements s.convolver ⟨[], rfl⟩
    rw [← hresult]
    exact hrun
  | clearInterpolants =>
    cases hresult
    exact ⟨[.clearFilters], rfl⟩
  | process output => exact hdelegate _ rfl

theorem Session.holds_step {signal : ℕ → ℕ → R} {op : Operation R} {s s' : Session q}
    (hs : s.inner.Holds signal) (h : s.step signal op = some s') : s'.inner.Holds signal := by
  obtain ⟨ops, hops⟩ := Session.step_simulates h
  exact CrossfadingConvolverUniform.Session.holds_exec hs hops

theorem create_eq_ok {initialRoutings : List (RoutingEntry R)}
    {initialInterpolants : InterpolationParameterSet R} {initialFilters : BasicMatrix R}
    {c : InterpolatingConvolverUniform q}
    (h : create q initialRoutings initialInterpolants initialFilters = .ok c) :
    ∃ convolver c₁, CrossfadingConvolverUniform.create q.crossfading initialRoutings
        ⟨0, 0, arrayAlignment q.arguments.alignment, 0, fun _ _ => 0⟩ = .ok convolver ∧
      initFilters ⟨convolver, fun _ _ => 0⟩ initialFilters = .ok c₁ ∧
      c₁.setInterpolants initialInterpolants false = (c, .ok ()) := by
  unfold create at h
  simp only at h
  split at h
  · cases h
  next convolver hconvolver =>
    split at h
    · cases h
    next c₁ hinit =>
      split at h
      · cases h
      next c₂ _ hset =>
        cases h
        exact ⟨convolver, c₁, hconvolver, hinit, hset⟩

/-- The constructor leaves a convolver behind that has not received anything. -/
theorem create_holds {initialRoutings : List (RoutingEntry R)}
    {initialInterpolants : InterpolationParameterSet R} {initialFilters : BasicMatrix R}
    {c : InterpolatingConvolverUniform q}
    (h : create q initialRoutings initialInterpolants initialFilters = .ok c)
    (signal : ℕ → ℕ → R) : (⟨c, 0⟩ : Session q).inner.Holds signal := by
  obtain ⟨convolver, c₁, hconvolver, hinit, hset⟩ := create_eq_ok h
  have hstart : (⟨c₁, 0⟩ : Session q).inner.Holds signal := by
    show (⟨c₁.convolver, 0⟩ : CrossfadingConvolverUniform.Session q.crossfading).Holds signal
    rw [(initFilters_eq_ok hinit).1]
    exact CrossfadingConvolverUniform.holds_create hconvolver signal
  have hinduct := setInterpolantElements_induct
    (I := fun c => (⟨c, 0⟩ : Session q).inner.Holds signal) false
    (fun c param c' hc hset => by
      obtain ⟨op', hop'⟩ := setInterpolant_step signal 0 hset
      exact hc.step hop')
    initialInterpolants.elements c₁ hstart
  unfold setInterpolants at hset
  rwa [hset] at hinduct

/-- Setting interpolants does not touch the routing table. -/
theorem setInterpolants_routingTable (c : InterpolatingConvolverUniform q)
    (params : InterpolationParameterSet R) (startTransition : Bool) :
    (c.setInterpolants params startTransition).1.convolver.routingTable =
      c.convolver.routingTable :=
  setInterpolantElements_induct
    (I := fun c' => c'.convolver.routingTable = c.convolver.routingTable) startTransition
    (fun _ _ _ hc hset => by
      obtain ⟨-, _, -, hset, -⟩ := setInterpolant_eq_ok hset
      obtain ⟨-, core, -, heq⟩ := CrossfadingConvolverUniform.switchFilter_eq_ok hset
      rw [heq]
      exact hc)
    params.elements c rfl

theorem create_indicesValid {initialRoutings : List (RoutingEntry R)}
    {initialInterpolants : InterpolationParameterSet R} {initialFilters : BasicMatrix R}
    {c : InterpolatingConvolverUniform q}
    (h : create q initialRoutings initialInterpolants initialFilters = .ok c)
    (hinitial : ∀ routing ∈ initialRoutings, routing.filterIdx < q.maxRoutingPoints) :
    c.convolver.IndicesValid := by
  obtain ⟨convolver, c₁, hconvolver, hinit, hset⟩ := create_eq_ok h
  have htable := setInterpolants_routingTable c₁ initialInterpolants false
  rw [hset, (initFilters_eq_ok hinit).1] at htable
  intro e he
  rw [htable] at he
  exact CrossfadingConvolverUniform.indicesValid_create hconvolver hinitial e he

/-- A call whose routing entries do not carry the index of the second version of a filter. -/
def Operation.IndexSafe (op : Operation R) (s : Session q) : Prop :=
  let Safe (op : CrossfadingConvolverUniform.Operation R C) := op.IndexSafe s.inner
  match op with
  | .setRoutingEntry routing => Safe (.setRoutingEntry routing)
  | .initRoutingTable routings => Safe (.initRoutingTable routings)
  | .process output => Safe (.process output)
  | _ => True

/-- **One call.**  If the limits agree, a safe call returns or throws an exception, and all
routing entries refer to existing filters after it. -/
theorem step_indices (hagree : LimitsAgree q) {signal : ℕ → ℕ → R} {s : Session q}
    (hs : s.inner.Holds signal) (hvalid : s.convolver.convolver.IndicesValid) {op : Operation R}
    (hop : op.IndexSafe s) :
    ∃ s', s.step signal op = some s' ∧ s'.convolver.convolver.IndicesValid := by
  have hdelegate : ∀ op', s.call signal op = s.delegate signal op' → op'.IndexSafe s.inner →
      ∃ s', s.step signal op = some s' ∧ s'.convolver.convolver.IndicesValid := by
    intro op' hcall hsafe
    obtain ⟨inner, hstep, hvalid'⟩ := CrossfadingConvolverUniform.step_indices hs hvalid hsafe
    rw [Session.step_delegate hcall, hstep]
    exact ⟨_, rfl, hvalid'⟩
  have hthrown : ∀ c : InterpolatingConvolverUniform q, ∀ param startTransition fault,
      c.setInterpolant param startTransition = .error fault → ∃ e, fault = .thrown e :=
    fun c => (contract_of_limitsAgree hagree c).thrown
  -- the filters and interpolants leave the routing table alone, the rest is up to the inner
  -- convolver
  cases op with
  | setRoutingEntry routing => exact hdelegate _ rfl hop
  | removeRoutingEntry inputIdx outputIdx => exact hdelegate _ rfl trivial
  | clearRoutingTable => exact hdelegate _ rfl trivial
  | initRoutingTable routings => exact hdelegate _ rfl hop
  | clearFilters => exact ⟨_, rfl, hvalid⟩
  | initFilters newImpulseResponses =>
    refine Session.step_attempt (P := fun c => c.convolver.IndicesValid) rfl hvalid
      (fun c hc => ?_) (fun fault hfault => ?_)
    · rw [(initFilters_eq_ok (ok_of_mapError hc)).1]
      exact hvalid
    · obtain ⟨e, -, he⟩ := exists_of_mapError hfault
      exact ⟨e, he.symm⟩
  | setImpulseResponse r filterIdx =>
    refine Session.step_attempt (P := fun c => c.convolver.IndicesValid) rfl hvalid
      (fun c hc => ?_) (fun fault hfault => ?_)
    · obtain ⟨row, -, rfl⟩ := setImpulseResponse_eq_ok (ok_of_mapError hc)
      exact hvalid
    · obtain ⟨e, -, he⟩ := exists_of_mapError hfault
      exact ⟨e, he.symm⟩
  | setInterpolant param startTransition =>
    refine Session.step_attempt (P := fun c => c.convolver.IndicesValid) rfl hvalid
      (fun c hc => ?_) (fun fault hfault => hthrown _ _ _ _ hfault)
    obtain ⟨-, _, -, hset, -⟩ := setInterpolant_eq_ok hc
    obtain ⟨-, core, -, heq⟩ := CrossfadingConvolverUniform.switchFilter_eq_ok hset
    rw [heq]
    exact hvalid
  | setInterpolants params startTransition =>
    have hcall : s.call signal (.setInterpolants params startTransition) =
        s.always (s.convolver.setInterpolants params startTransition) := rfl
    have hstep := Session.step_always hcall fun fault hfault =>
      setInterpolantElements_thrown hthrown _ _ fault hfault
    refine ⟨_, hstep, fun e he => hvalid e ?_⟩
    rwa [← setInterpolants_routingTable s.convolver params startTransition]
  | clearInterpolants => exact ⟨_, rfl, hvalid⟩
  | process output => exact hdelegate _ rfl hop

/-- Every beginning of a run ends in a state in which all routing entries refer to existing
inputs, outputs and filters, and has not accessed anything outside an array. -/
def RunsSafely (signal : ℕ → ℕ → R) (s₀ : Session q) (ops : List (Operation R)) : Prop :=
  ∀ l, l <+: ops → ∃ s, exec (Session.step signal) l s₀ = some s ∧
    s.convolver.convolver.IndicesValid

theorem runsSafely (hagree : LimitsAgree q) {signal : ℕ → ℕ → R} (ops : List (Operation R)) :
    ∀ {s : Session q}, s.inner.Holds signal → s.convolver.convolver.IndicesValid →
      Throughout (Session.step signal) Operation.IndexSafe ops s → RunsSafely signal s ops := by
  induction ops with
  | nil =>
    intro s _ hvalid _ l hl
    obtain rfl := List.prefix_nil.mp hl
    exact ⟨s, rfl, hvalid⟩
  | cons op ops ih =>
    rintro s hs hvalid ⟨hop, hops⟩ l hl
    cases l with
    | nil => exact ⟨s, rfl, hvalid⟩
    | cons op' l =>
      obtain ⟨rfl, hrest⟩ := List.cons_prefix_cons.mp hl
      obtain ⟨s₁, hstep, hvalid₁⟩ := step_indices hagree hs hvalid hop
      obtain ⟨s', hexec, hs'⟩ := ih (Session.holds_step hs hstep) hvalid₁ (hops s₁ hstep) l hrest
      exact ⟨s', exec_cons_eq_some.mpr ⟨s₁, hstep, hexec⟩, hs'⟩

/-- **The limits of the constructor.**  In every run, what is accepted and refused is given
by the limits that were passed to the constructor, exactly if both are the same and there
is something to interpolate; and then no call accesses anything outside an array, as long as
no routing entry carries the index of the second version of a filter. -/
theorem run_contract {initialRoutings : List (RoutingEntry R)}
    {initialInterpolants : InterpolationParameterSet R} {initialFilters : BasicMatrix R}
    {c₀ : InterpolatingConvolverUniform q}
    (hcreate : create q initialRoutings initialInterpolants initialFilters = .ok c₀)
    (hinitial : ∀ routing ∈ initialRoutings, routing.filterIdx < q.maxRoutingPoints)
    (signal : ℕ → ℕ → R) :
    ((∀ ops s, exec (Session.step signal) ops ⟨c₀, 0⟩ = some s → s.convolver.Contract) ↔
      LimitsAgree q) ∧
    (LimitsAgree q → ∀ ops, Throughout (Session.step signal) Operation.IndexSafe ops ⟨c₀, 0⟩ →
      RunsSafely signal ⟨c₀, 0⟩ ops) := by
  constructor
  · constructor
    · intro h
      exact limitsAgree_of_contract (h [] ⟨c₀, 0⟩ rfl)
    · intro h ops s _
      exact contract_of_limitsAgree h s.convolver
  · intro hagree ops hops
    exact runsSafely hagree ops (create_holds hcreate signal)
      (create_indicesValid hcreate hinitial) hops

/-- Filters with a single coefficient, for blocks of one sample. -/
noncomputable def limitedParameters (maxRoutingPoints maxFilterEntries : ℕ) :
    InterpolatingParameters ℝ ℂ where
  arguments := (CrossfadingConvolverUniform.singleParameters 0).core
  maxRoutingPoints := maxRoutingPoints
  maxFilterEntries := maxFilterEntries
  numberOfInterpolants := 1
  transitionSamples := 0
  components := Complex.equivRealProdLm
  alignment_lt := by decide

/-- The first filter with a gain. -/
def gainParameter (id : ℕ) (gain : ℝ) : InterpolationParameter ℝ := ⟨id, [0], [gain], rfl⟩

theorem run_contract_single : ∃ c₀, create (limitedParameters 1 1) [⟨0, 0, 0, 1⟩] .empty
      (CrossfadingConvolverUniform.gainMatrix 1) = .ok c₀ ∧
    c₀.Contract ∧ RunsSafely (fun _ _ => 1) ⟨c₀, 0⟩ [.setInterpolant (gainParameter 0 2) true,
      .process CrossfadingConvolverUniform.silentBuffer] := by
  obtain ⟨c₀, hcreate⟩ : ∃ c₀, create (limitedParameters 1 1) [⟨0, 0, 0, 1⟩] .empty
      (CrossfadingConvolverUniform.gainMatrix 1) = .ok c₀ := ⟨_, rfl⟩
  have hagree : LimitsAgree (limitedParameters 1 1) := Or.inl ⟨rfl, Or.inl Nat.one_pos⟩
  have hrun := run_contract hcreate (by
    intro routing hrouting
    rw [List.mem_singleton] at hrouting
    subst hrouting
    exact Nat.one_pos) fun _ _ => 1
  exact ⟨c₀, hcreate, hrun.1.mpr hagree [] ⟨c₀, 0⟩ rfl,
    hrun.2 hagree _ ⟨trivial, fun _ _ => ⟨Nat.one_pos, fun _ _ => trivial⟩⟩⟩

/-- With one routing point and two filters, the id of a second interpolant is used as an
index; with two routing points and one filter, it is refused. -/
theorem setInterpolant_limits :
    (∃ c₀, create (limitedParameters 1 2) [] .empty (CrossfadingConvolverUniform.gainMatrix 1) =
        .ok c₀ ∧
      c₀.setInterpolant (gainParameter 1 1) false = .error .outOfRange) ∧
    ∃ c₀ e, create (limitedParameters 2 1) [] .empty (CrossfadingConvolverUniform.gainMatrix 1) =
        .ok c₀ ∧
      c₀.setInterpolant (gainParameter 1 1) false = .error (.thrown e) :=
  ⟨⟨_, rfl, rfl⟩, _, _, rfl, rfl⟩

end InterpolatingConvolverUniform

end Visr
