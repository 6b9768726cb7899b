import Visr.Librbbl.CrossfadingTransitions
import Visr.Librbbl.InterpolatingConvolverUniform

/-!
# The filters of the interpolating convolver

What is heard of the interpolants in runs in which filters are stored, interpolants set and
blocks processed in any order.

## Main results

* `Tracked.Holds.step` — every call is carried out as documented.
* `run_converges` — **each interpolant converges to its weighted sum**.
-/

namespace Visr

open Dft Crossfade Execution

variable {R C : Type} [Field R] [CommRing C] [Algebra R C]

namespace InterpolatingConvolverUniform

variable {q : InterpolatingParameters R C}

/-! ### Documentation -/

/-- The stored impulse responses, the transitions of the interpolants, and the number of
blocks since each of them was set. -/
structure Documentation (R : Type) where
  stored : ℕ → ℕ → R
  fades : ℕ → Fade (ℕ → R)
  sinceSet : ℕ → ℕ

namespace Documentation

/-- The new target is the weighted sum of what is stored now; the previous one fades out. -/
def setInterpolant (d : Documentation R) (param : InterpolationParameter R)
    (startTransition : Bool) : Documentation R where
  stored := d.stored
  fades := Function.update d.fades param.id
    ((d.fades param.id).push (combination d.stored param.terms) startTransition)
  sinceSet := Function.update d.sinceSet param.id 0

/-- The interpolants before one that is refused are set. -/
def setInterpolants (c : InterpolatingConvolverUniform q) (startTransition : Bool)
    (d : Documentation R) : List (InterpolationParameter R) → Documentation R
  | [] => d
  | param :: params =>
    match c.setInterpolant param startTransition with
    | .ok c => setInterpolants c startTransition (d.setInterpolant param startTransition) params
    | .error _ => d

/-- Both ends of all transitions are silent. -/
def silence (d : Documentation R) : Documentation R :=
  { d with fades := fun f => (d.fades f).map fun _ _ => 0 }

def advance (d : Documentation R) (last : ℕ) : Documentation R :=
  { d with
    fades := fun f => (d.fades f).advance last
    sinceSet := fun f => d.sinceSet f + 1 }

end Documentation

/-- What is stored for the rows of a matrix, with silence for the remaining filters. -/
def storedRows (response : ImpulseResponse R → ℕ → R) (newImpulseResponses : BasicMatrix R)
    (f : ℕ) : ℕ → R :=
  if newImpulseResponses.numberOfRows ≤ f then fun _ => 0
  else response (CoreConvolverUniform.rowResponse newImpulseResponses f)

/-- The effect of a call, where `response` is what is stored for an impulse response. -/
def Operation.document (response : ImpulseResponse R → ℕ → R) (op : Operation R)
    (s : Session q) (returned : Bool) (d : Documentation R) : Documentation R :=
  match op, returned with
  | .setImpulseResponse r filterIdx, true =>
    { d with stored := Function.update d.stored filterIdx (response r) }
  | .initFilters newImpulseResponses, true =>
    { d with stored := storedRows response newImpulseResponses }
  | .setInterpolant param startTransition, true => d.setInterpolant param startTransition
  | .setInterpolants params startTransition, _ =>
    d.setInterpolants s.convolver startTransition params.elements
  | .clearFilters, _ => { d.silence with stored := fun _ _ => 0 }
  | .clearInterpolants, _ => d.silence
  | .process _, true => d.advance (q.crossfading.numRampBlocks - 1)
  | _, _ => d

/-- A convolver in use, with its documentation. -/
structure Tracked (q : InterpolatingParameters R C) where
  session : Session q
  documented : Documentation R

namespace Tracked

/-- At the start, no interpolant is in transition. -/
def start (response : ImpulseResponse R → ℕ → R) (c : InterpolatingConvolverUniform q)
    (initialInterpolants : InterpolationParameterSet R) (initialFilters : BasicMatrix R) :
    Tracked q where
  session := ⟨c, 0⟩
  documented := initialInterpolants.elements.foldl (fun d param => d.setInterpolant param false)
    { stored := storedRows response initialFilters
      fades := fun _ => .constant (fun _ => 0) (q.crossfading.numRampBlocks - 1)
      sinceSet := fun _ => q.crossfading.numRampBlocks - 1 }

def step (response : ImpulseResponse R → ℕ → R) (signal : ℕ → ℕ → R) (op : Operation R)
    (t : Tracked q) : Option (Tracked q) :=
  (t.session.step signal op).map fun after =>
    ⟨after, op.document response t.session (t.session.call signal op).2.isNone t.documented⟩

end Tracked

/-! ### What is stored -/

/-- The impulse response as it is handed on, with the alignment that may be assumed. -/
def handedOn (q : InterpolatingParameters R C) (r : ImpulseResponse R) : ImpulseResponse R :=
  { r with alignment := q.filterAlignment r.alignment }

/-- The coefficients of an impulse response as they arrive in the memory of the filters. -/
def arrived (q : InterpolatingParameters R C) (r : ImpulseResponse R) (k : ℕ) : R :=
  q.arguments.fftRepresentation.forwardScalingFactor *
    q.crossfading.core.effective (handedOn q r) k

/-- What is stored for each impulse response that a call loads is `response`. -/
def Operation.Stores (q : InterpolatingParameters R C) (response : ImpulseResponse R → ℕ → R)
    (op : Operation R) : Prop :=
  match op with
  | .setImpulseResponse r _ => arrived q r = response r
  | .initFilters newImpulseResponses => ∀ f, f < newImpulseResponses.numberOfRows →
      arrived q (CoreConvolverUniform.rowResponse newImpulseResponses f) =
        response (CoreConvolverUniform.rowResponse newImpulseResponses f)
  | _ => True

theorem represents_arrived {r : ImpulseResponse R} {result row : ℕ → C}
    (h : q.crossfading.core.transformImpulseResponse r.ir r.filterLength result
      (q.filterAlignment r.alignment) = .ok row) :
    q.crossfading.core.Represents row (arrived q r) := by
  rw [← ConvolverParameters.transformImpulseResponse_min] at h
  exact ConvolverParameters.represents_transformImpulseResponse (r := handedOn q r) h

/-- A weighted sum of transformed filters is the transform of the weighted sum. -/
theorem represents_combination {p : ConvolverParameters R C} {filters : ℕ → ℕ → C}
    {stored : ℕ → ℕ → R} {terms : List (ℕ × R)}
    (h : ∀ term ∈ terms, p.Represents (filters term.1) (stored term.1)) :
    p.Represents (combination filters terms) (combination stored terms) := by
  induction terms with
  | nil => exact ConvolverParameters.represents_zero
  | cons term terms ih =>
    obtain ⟨hfirst, hothers⟩ := List.forall_mem_cons.mp h
    exact (hfirst.smul term.2).add (ih hothers)

/-- The start of an array is aligned for the core convolver. -/
theorem checkAlignment_tempFilter (c : InterpolatingConvolverUniform q) :
    checkAlignment 0 (min (arrayAlignment q.crossfading.core.complexAlignment)
      q.crossfading.core.complexAlignment) = true := by
  have hvalid := c.convolver.coreConvolver.alignment_valid.2
  by_cases hzero : q.crossfading.core.complexAlignment = 0
  · rw [hzero]
    rfl
  · rw [arrayAlignment, if_neg hzero] at hvalid ⊢
    rw [Nat.min_self]
    exact checkAlignment_of_dvd (Or.inr hvalid) fun _ => Nat.dvd_zero _

/-! ### One call -/

/-- The memory of the filters and the transitions are as documented. -/
structure Plays (c : InterpolatingConvolverUniform q) (d : Documentation R) : Prop where
  stored : ∀ f, f < q.maxFilterEntries →
    q.crossfading.core.Represents (c.filters f) (d.stored f)
  fades : ∀ f, f < q.maxRoutingPoints →
    CrossfadingConvolverUniform.RepresentsFade q.crossfading.core (c.convolver.fade f) (d.fades f)
  sinceSet : ∀ f, min (d.sinceSet f) (q.crossfading.numRampBlocks - 1) ≤ (d.fades f).position

/-- **Setting an interpolant.**  What is heard of it fades to the weighted sum of what is
stored now. -/
theorem Plays.setInterpolant {c c' : InterpolatingConvolverUniform q} {d : Documentation R}
    (h : Plays c d) {param : InterpolationParameter R} {startTransition : Bool}
    (hset : c.setInterpolant param startTransition = .ok c') :
    Plays c' (d.setInterpolant param startTransition) := by
  obtain ⟨hpasses, -⟩ := (c.setInterpolant_eq_ok_iff param startTransition).mp ⟨c', hset⟩
  obtain ⟨hid, tempFilter, htemp, hload, hfilters⟩ := setInterpolant_eq_ok hset
  obtain ⟨tempFilter', htemp', hvalue⟩ := c.interpolate_eq param.terms
  cases htemp.symm.trans htemp'
  -- the temporary filter is the transform of the weighted sum
  have hsum : q.crossfading.core.Represents (q.complexView tempFilter)
      (combination d.stored param.terms) := by
    have hterms : ∀ term ∈ param.terms,
        q.crossfading.core.Represents (c.filters term.1) (d.stored term.1) := fun term hterm =>
      h.stored _ (hpasses.2.2 _ (List.of_mem_zip hterm).1)
    exact (represents_combination hterms).of_eq hvalue
  obtain ⟨hlt, core, hcore, heq⟩ := CrossfadingConvolverUniform.switchFilter_eq_ok hload
  obtain ⟨row, hmemory, hrow⟩ := CoreConvolverUniform.setFilter_aligned hcore
    c.checkAlignment_tempFilter hsum
  refine ⟨fun f hf => ?_, fun f hf => ?_, fun f => ?_⟩
  · rw [hfilters]
    exact h.stored f hf
  · rw [heq, CrossfadingConvolverUniform.fade_store c.convolver hlt
      (congrArg CoreConvolverUniform.filterPartitionsFrequencyDomain hmemory) startTransition hf]
    by_cases hsame : f = param.id
    · subst hsame
      have hold := h.fades _ hf
      rw [if_pos rfl]
      show CrossfadingConvolverUniform.RepresentsFade _ _ (Function.update d.fades _ _ _)
      rw [Function.update_self]
      refine ⟨hold.target, hrow, ?_⟩
      show (if startTransition then 0 else (c.convolver.fade param.id).position) =
        if startTransition then 0 else (d.fades param.id).position
      rw [hold.position]
    · rw [if_neg hsame]
      show CrossfadingConvolverUniform.RepresentsFade _ _ (Function.update d.fades _ _ _)
      rw [Function.update_of_ne hsame]
      exact h.fades f hf
  · show min (Function.update d.sinceSet param.id 0 f) _ ≤ (Function.update d.fades _ _ f).position
    by_cases hsame : f = param.id
    · subst hsame
      rw [Function.update_self, Nat.zero_min]
      exact Nat.zero_le _
    · rw [Function.update_of_ne hsame, Function.update_of_ne hsame]
      exact h.sinceSet f

theorem Plays.setInterpolants (startTransition : Bool) (params : List (InterpolationParameter R)) :
    ∀ {c : InterpolatingConvolverUniform q} {d : Documentation R}, Plays c d →
      Plays (c.setInterpolantElements startTransition params).1
        (d.setInterpolants c startTransition params) := by
  induction params with
  | nil => exact fun h => h
  | cons param params ih =>
    intro c d h
    unfold setInterpolantElements Documentation.setInterpolants
    cases hset : c.setInterpolant param startTransition with
    | ok c' => exact ih (h.setInterpolant hset)
    | error fault => exact h

/-- After a complete initialisation, all interpolants have been set. -/
theorem setInterpolants_eq_foldl {startTransition : Bool}
    (params : List (InterpolationParameter R)) :
    ∀ {c c' : InterpolatingConvolverUniform q} {d : Documentation R},
      c.setInterpolantElements startTransition params = (c', .ok ()) →
      d.setInterpolants c startTransition params =
        params.foldl (fun d param => d.setInterpolant param startTransition) d := by
  induction params with
  | nil => exact fun _ => rfl
  | cons param params ih =>
    intro c c' d h
    unfold setInterpolantElements at h
    unfold Documentation.setInterpolants
    cases hset : c.setInterpolant param startTransition with
    | ok next =>
      rw [hset] at h
      exact ih h
    | error fault =>
      rw [hset] at h
      cases h

theorem Plays.silence {c : InterpolatingConvolverUniform q} {d : Documentation R} (h : Plays c d) :
    Plays c.clearInterpolants d.silence where
  stored := h.stored
  fades f hf := ⟨ConvolverParameters.represents_zero, ConvolverParameters.represents_zero,
    (h.fades f hf).position⟩
  sinceSet := h.sinceSet

/-- Changes of the routing table are not heard of. -/
theorem Plays.routingTable {c : InterpolatingConvolverUniform q} {d : Documentation R}
    (h : Plays c d) (table : RoutingTable q.crossfading.core) :
    Plays { c with convolver := { c.convolver with routingTable := table } } d :=
  ⟨h.stored, h.fades, h.sinceSet⟩

theorem Plays.initFilters {response : ImpulseResponse R → ℕ → R}
    {c c' : InterpolatingConvolverUniform q} {d : Documentation R} (h : Plays c d)
    {newImpulseResponses : BasicMatrix R}
    (hset : c.initFilters newImpulseResponses = .ok c')
    (hstores : ∀ f, f < newImpulseResponses.numberOfRows →
      arrived q (CoreConvolverUniform.rowResponse newImpulseResponses f) =
        response (CoreConvolverUniform.rowResponse newImpulseResponses f)) :
    Plays c' { d with stored := storedRows response newImpulseResponses } := by
  obtain ⟨hconvolver, -, hloaded, hzero⟩ := initFilters_eq_ok hset
  refine ⟨fun f _ => ?_, fun f hf => ?_, h.sinceSet⟩
  · show q.crossfading.core.Represents _ (storedRows response newImpulseResponses f)
    unfold storedRows
    by_cases hrow : newImpulseResponses.numberOfRows ≤ f
    · rw [if_pos hrow, hzero f hrow]
      exact ConvolverParameters.represents_zero
    · obtain ⟨result, hresult⟩ := hloaded f (Nat.not_le.mp hrow)
      rw [if_neg hrow, ← hstores f (Nat.not_le.mp hrow)]
      exact represents_arrived hresult
  · rw [hconvolver]
    exact h.fades f hf

theorem Plays.setImpulseResponse {response : ImpulseResponse R → ℕ → R}
    {c c' : InterpolatingConvolverUniform q} {d : Documentation R} (h : Plays c d)
    {r : ImpulseResponse R} {filterIdx : ℕ} (hset : c.setImpulseResponse r filterIdx = .ok c')
    (hstores : arrived q r = response r) :
    Plays c' { d with stored := Function.update d.stored filterIdx (response r) } := by
  obtain ⟨row, hrow, rfl⟩ := setImpulseResponse_eq_ok hset
  refine ⟨fun f hf => ?_, h.fades, h.sinceSet⟩
  show q.crossfading.core.Represents (Function.update c.filters filterIdx row f)
    (Function.update d.stored filterIdx (response r) f)
  by_cases hsame : f = filterIdx
  · subst hsame
    rw [Function.update_self, Function.update_self, ← hstores]
    exact represents_arrived hrow
  · rw [Function.update_of_ne hsame, Function.update_of_ne hsame]
    exact h.stored f hf

theorem Plays.advance {c : InterpolatingConvolverUniform q} {d : Documentation R} (h : Plays c d)
    {convolver : CrossfadingConvolverUniform q.crossfading}
    (hfade : ∀ f, convolver.fade f =
      (c.convolver.fade f).advance (q.crossfading.numRampBlocks - 1)) :
    Plays { c with convolver := convolver } (d.advance (q.crossfading.numRampBlocks - 1)) := by
  refine ⟨h.stored, fun f hf => ?_, fun f => ?_⟩
  · have hold := h.fades f hf
    show CrossfadingConvolverUniform.RepresentsFade _ (convolver.fade f) _
    rw [hfade f]
    refine ⟨hold.source, hold.target, ?_⟩
    show min ((c.convolver.fade f).position + 1) _ = min ((d.fades f).position + 1) _
    rw [hold.position]
  · have hold := h.sinceSet f
    show min (d.sinceSet f + 1) _ ≤ min ((d.fades f).position + 1) _
    omega

/-! ### Runs -/

/-- The convolver has received the input signals, and plays what is documented. -/
structure Tracked.Holds (signal : ℕ → ℕ → R) (t : Tracked q) : Prop where
  inner : t.session.inner.Holds signal
  plays : Plays t.session.convolver t.documented

/-- **Every call** is carried out as documented. -/
theorem Tracked.Holds.step {response : ImpulseResponse R → ℕ → R} {signal : ℕ → ℕ → R}
    {t t' : Tracked q} (ht : t.Holds signal) {op : Operation R} (hop : op.Stores q response)
    (h : t.step response signal op = some t') : t'.Holds signal := by
  obtain ⟨after, hafter, rfl⟩ := Option.map_eq_some_iff.mp h
  refine ⟨Session.holds_step ht.inner hafter, ?_⟩
  have hresult := Session.eq_of_step hafter
  show Plays after.convolver
    (op.document response t.session (t.session.call signal op).2.isNone t.documented)
  -- one case for each call; a call that throws an exception changes nothing
  cases op with
  | setRoutingEntry routing =>
    obtain ⟨table, htable⟩ := CrossfadingConvolverUniform.Session.call_setRoutingEntry signal
      t.session.inner routing
    rw [← hresult, Session.call, Session.delegate, htable]
    exact ht.plays.routingTable table
  | removeRoutingEntry inputIdx outputIdx =>
    cases hresult
    exact ht.plays.routingTable _
  | clearRoutingTable =>
    cases hresult
    exact ht.plays.routingTable _
  | initRoutingTable routings =>
    obtain ⟨table, htable⟩ := CrossfadingConvolverUniform.Session.call_initRoutingTable signal
      t.session.inner routings
    rw [← hresult, Session.call, Session.delegate, htable]
    exact ht.plays.routingTable table
  | clearFilters =>
    cases hresult
    exact ⟨fun f _ => ConvolverParameters.represents_zero, ht.plays.silence.fades,
      ht.plays.sinceSet⟩
  | initFilters newImpulseResponses =>
    simp only [Session.call] at hresult ⊢
    cases hset : t.session.convolver.initFilters newImpulseResponses with
    | error e =>
      rw [hset] at hresult
      cases hresult
      exact ht.plays
    | ok c =>
      rw [hset] at hresult
      cases hresult
      exact ht.plays.initFilters hset hop
  | setImpulseResponse r filterIdx =>
    simp only [Session.call] at hresult ⊢
    cases hset : t.session.convolver.setImpulseResponse r filterIdx with
    | error e =>
      rw [hset] at hresult
      cases hresult
      exact ht.plays
    | ok c =>
      rw [hset] at hresult
      cases hresult
      exact ht.plays.setImpulseResponse hset hop
  | setInterpolant param startTransition =>
    simp only [Session.call] at hresult ⊢
    cases hset : t.session.convolver.setInterpolant param startTransition with
    | error fault =>
      rw [hset] at hresult
      cases hresult
      exact ht.plays
    | ok c =>
      rw [hset] at hresult
      cases hresult
      exact ht.plays.setInterpolant hset
  | setInterpolants params startTransition =>
    cases hresult
    exact ht.plays.setInterpolants startTransition params.elements
  | clearInterpolants =>
    cases hresult
    exact ht.plays.silence
  | process output =>
    have hstep := Session.step_delegate (rfl : t.session.call signal (.process output) =
      t.session.delegate signal (.process output))
    rw [hafter] at hstep
    obtain ⟨inner, hinner, rfl⟩ := Option.map_eq_some_iff.mp hstep.symm
    obtain ⟨result, hcall, hfault⟩ := CrossfadingConvolverUniform.Session.step_eq_some hinner
    simp only [Session.call, Session.delegate, hcall]
    -- only a block moves the ramps on
    by_cases hlength : 0 < q.crossfading.core.maxFilterLength
    · simp only [CrossfadingConvolverUniform.Session.call] at hcall
      cases hprocess : t.session.inner.convolver.process (t.session.inner.inputBlock signal)
          output with
      | mk c outcome =>
        obtain ⟨-, -, -, -, hfade⟩ := CrossfadingConvolverUniform.process_state
          ht.inner.initialised ht.inner.inputs hlength hprocess
        rw [hprocess] at hcall
        cases outcome with
        | error fault =>
          cases hcall
          refine ⟨ht.plays.stored, fun f hf => ?_, ht.plays.sinceSet⟩
          show CrossfadingConvolverUniform.RepresentsFade _ (c.fade f) _
          rw [hfade f]
          exact ht.plays.fades f hf
        | ok samples =>
          cases hcall
          exact ht.plays.advance hfade
    · simp only [CrossfadingConvolverUniform.Session.call,
        CrossfadingConvolverUniform.process_of_noPartitions ht.inner.inputs hlength] at hcall
      cases hcall
      -- without partitions, the call does not return, which is no step
      obtain ⟨e, he⟩ := hfault _ rfl
      cases he

/-- The constructor sets the initial filters and interpolants. -/
theorem tracked_start {response : ImpulseResponse R → ℕ → R}
    {initialRoutings : List (RoutingEntry R)}
    {initialInterpolants : InterpolationParameterSet R} {initialFilters : BasicMatrix R}
    {c : InterpolatingConvolverUniform q}
    (h : create q initialRoutings initialInterpolants initialFilters = .ok c)
    (hstores : (Operation.initFilters initialFilters).Stores q response) (signal : ℕ → ℕ → R) :
    (Tracked.start response c initialInterpolants initialFilters).Holds signal := by
  refine ⟨create_holds h signal, ?_⟩
  obtain ⟨convolver, c₁, hconvolver, hinit, hset⟩ := create_eq_ok h
  obtain ⟨⟨core, hcore, hmemory⟩, -, -, hposition, -⟩ :=
    CrossfadingConvolverUniform.create_spec hconvolver
  -- before, everything is silent and at rest
  have hempty : Plays ⟨convolver, fun _ _ => 0⟩
      { stored := fun _ _ => 0
        fades := fun _ => .constant (fun _ => 0) (q.crossfading.numRampBlocks - 1)
        sinceSet := fun _ => q.crossfading.numRampBlocks - 1 } := by
    have hzero : ∀ f, q.crossfading.core.Represents
        (convolver.coreConvolver.filterPartitionsFrequencyDomain f) fun _ => (0 : R) := by
      intro f
      rw [hmemory]
      refine ((CoreConvolverUniform.create_holds hcore signal).1.represents f).congr fun k _ => ?_
      rw [CoreConvolverUniform.rowResponses, if_neg (Nat.not_lt_zero f),
        ConvolverParameters.effective_none, mul_zero]
    exact ⟨fun f _ => ConvolverParameters.represents_zero,
      fun f _ => ⟨hzero _, hzero _, hposition f⟩, fun f => Nat.min_le_left _ _⟩
  have hfilled := hempty.initFilters hinit hstores
  have hplays := hfilled.setInterpolants false initialInterpolants.elements
  rw [setInterpolants_eq_foldl initialInterpolants.elements hset] at hplays
  unfold setInterpolants at hset
  rwa [hset] at hplays

/-- What is documented determines the next block. -/
theorem Tracked.Holds.output {signal : ℕ → ℕ → R} {t : Tracked q} (ht : t.Holds signal)
    {output : OutputBuffer R}
    (haligned : CrossfadingConvolverUniform.OutputAligned q.crossfading output)
    {c' : CrossfadingConvolverUniform q.crossfading} {samples : ℕ → ℕ → R}
    (h : t.session.convolver.convolver.process (t.session.inner.inputBlock signal) output =
      (c', .ok samples)) {o s : ℕ} (ho : o < q.arguments.numberOfOutputs)
    (hs : s < q.arguments.blockLength) :
    samples o s = MultichannelConvolverUniform.routingSum
      t.session.convolver.convolver.routingTable.entries o fun e =>
        CrossfadingConvolverUniform.fadedConvolution q.crossfading (t.documented.fades e.filterIdx)
          (signal e.inputIdx) (t.session.blocks * q.arguments.blockLength) s := by
  have hlength : 0 < q.crossfading.core.maxFilterLength := by
    by_contra hnone
    have hnever := CrossfadingConvolverUniform.process_of_noPartitions ht.inner.inputs hnone
      (t.session.inner.inputBlock signal) output
    cases h.symm.trans hnever
  have hfilters := CrossfadingConvolverUniform.process_filters h
  exact CrossfadingConvolverUniform.process_output ht.inner.initialised ht.inner.inputs hlength
    (fun e he => ht.plays.fades e.filterIdx (hfilters e he)) haligned h ho hs

/-- A transition that was started long enough ago has come to its end. -/
theorem Plays.settled {c : InterpolatingConvolverUniform q} {d : Documentation R} (h : Plays c d)
    {f s : ℕ} (hlong : q.transitionSamples ≤ d.sinceSet f * q.arguments.blockLength + s)
    (x : ℕ → R) (time : ℕ) :
    CrossfadingConvolverUniform.fadedConvolution q.crossfading (d.fades f) x time s =
      convolution (d.fades f).target q.crossfading.core.capacity x (time + s) := by
  have hlast : q.transitionSamples ≤
      (q.crossfading.numRampBlocks - 1) * q.arguments.blockLength :=
    q.crossfading.transitionSamples_le
  have hend : q.transitionSamples ≤ (d.fades f).position * q.arguments.blockLength + s := by
    rcases Nat.le_total (d.sinceSet f) (q.crossfading.numRampBlocks - 1) with hle | hle
    · have hposition := h.sinceSet f
      rw [Nat.min_eq_left hle] at hposition
      exact hlong.trans (Nat.add_le_add_right (Nat.mul_le_mul_right _ hposition) s)
    · have hposition := h.sinceSet f
      rw [Nat.min_eq_right hle] at hposition
      exact (hlast.trans (Nat.mul_le_mul_right _ hposition)).trans (Nat.le_add_right _ s)
  have hweight : weight R q.crossfading.transitionSamples
      ((d.fades f).position * q.crossfading.core.blockLength + s) = 1 := weight_of_le hend
  rw [CrossfadingConvolverUniform.fadedConvolution, Fade.mix, hweight, sub_self, zero_mul, one_mul,
    zero_add]

/-- In a transition, the weights of both ends are not negative and their sum is one. -/
theorem fadedConvolution_convex [LinearOrder R] [IsStrictOrderedRing R]
    (p : CrossfadingParameters R C) (a : Fade (ℕ → R)) (x : ℕ → R) (time s : ℕ) :
    ∃ w : R, 0 ≤ w ∧ w ≤ 1 ∧ CrossfadingConvolverUniform.fadedConvolution p a x time s =
      (1 - w) * convolution a.source p.core.capacity x (time + s) +
        w * convolution a.target p.core.capacity x (time + s) :=
  ⟨_, weight_nonneg _ _, weight_le_one _ _, rfl⟩

/-- All coefficients of the impulse responses that a call loads arrive, unscaled. -/
def Operation.Keeps (q : InterpolatingParameters R C) (op : Operation R) : Prop :=
  match op with
  | .setImpulseResponse r _ => q.crossfading.core.Keeps (handedOn q r)
  | .initFilters newImpulseResponses => ∀ f, f < newImpulseResponses.numberOfRows →
      q.crossfading.core.Keeps
        (handedOn q (CoreConvolverUniform.rowResponse newImpulseResponses f))
  | _ => True

theorem Operation.Keeps.stores {op : Operation R} (h : op.Keeps q) :
    op.Stores q ImpulseResponse.coefficient := by
  cases op with
  | setImpulseResponse r filterIdx => exact funext fun k => ConvolverParameters.Keeps.effective h k
  | initFilters newImpulseResponses =>
    exact fun f hf => funext fun k => ConvolverParameters.Keeps.effective (h f hf) k
  | _ => trivial

/-- **Convergence.**  In every run in which all coefficients arrive, each block is the sum of
the contributions of the routing entries, each of which is a convex combination of the
convolutions with the previous and the present weighted sum of its interpolant, and the
convolution with the present one alone from the transition length after it was set.  With
aligned buffers and existing filters, the block is finished. -/
theorem run_converges [LinearOrder R] [IsStrictOrderedRing R]
    {initialRoutings : List (RoutingEntry R)}
    {initialInterpolants : InterpolationParameterSet R} {initialFilters : BasicMatrix R}
    {c₀ : InterpolatingConvolverUniform q}
    (hcreate : create q initialRoutings initialInterpolants initialFilters = .ok c₀)
    (hinitial : (Operation.initFilters initialFilters).Keeps q) (signal : ℕ → ℕ → R)
    {ops : List (Operation R)} {t : Tracked q}
    (hrun : exec (Tracked.step ImpulseResponse.coefficient signal) ops
      (.start ImpulseResponse.coefficient c₀ initialInterpolants initialFilters) = some t)
    (hops : ∀ op ∈ ops, op.Keeps q) {output : OutputBuffer R}
    (haligned : CrossfadingConvolverUniform.OutputAligned q.crossfading output) :
    (∀ c' samples,
      t.session.convolver.convolver.process (t.session.inner.inputBlock signal) output =
        (c', .ok samples) →
      ∀ o s, o < q.arguments.numberOfOutputs → s < q.arguments.blockLength →
        samples o s = MultichannelConvolverUniform.routingSum
          t.session.convolver.convolver.routingTable.entries o fun e =>
            CrossfadingConvolverUniform.fadedConvolution q.crossfading
              (t.documented.fades e.filterIdx) (signal e.inputIdx)
              (t.session.blocks * q.arguments.blockLength) s) ∧
    (∀ f x time s, ∃ w : R, 0 ≤ w ∧ w ≤ 1 ∧
      CrossfadingConvolverUniform.fadedConvolution q.crossfading (t.documented.fades f) x time s =
        (1 - w) * convolution (t.documented.fades f).source q.crossfading.core.capacity x
            (time + s) +
          w * convolution (t.documented.fades f).target q.crossfading.core.capacity x
            (time + s)) ∧
    (∀ f x time s,
      q.transitionSamples ≤ t.documented.sinceSet f * q.arguments.blockLength + s →
      CrossfadingConvolverUniform.fadedConvolution q.crossfading (t.documented.fades f) x time s =
        convolution (t.documented.fades f).target q.crossfading.core.capacity x (time + s)) ∧
    (0 < q.arguments.maxFilterLength →
      (q.arguments.alignment ≠ 0 → q.arguments.alignment ∣ q.arguments.blockLength) →
      t.session.convolver.convolver.IndicesValid → ∃ c' samples,
        t.session.convolver.convolver.process (t.session.inner.inputBlock signal) output =
          (c', .ok samples)) := by
  have ht : t.Holds signal := exec_invariant (P := fun op _ => op.Keeps q)
    (fun _ _ _ hop ht hstep => ht.step hop.stores hstep) (throughout_of_forall hops _)
    (tracked_start hcreate hinitial.stores signal) hrun
  refine ⟨fun c' samples h o s ho hs => ht.output haligned h ho hs,
    fun f x time s => fadedConvolution_convex _ _ x time s,
    fun f x time s hlong => ht.plays.settled hlong x time, fun hlength hblock hvalid => ?_⟩
  exact CrossfadingConvolverUniform.process_returns ht.inner.initialised ht.inner.inputs hlength
    hblock (fun e he => (hvalid e he).2.2) haligned

theorem aligned_silentBuffer (p : CrossfadingParameters ℝ ℂ) :
    CrossfadingConvolverUniform.OutputAligned p CrossfadingConvolverUniform.silentBuffer := by
  intro o _
  have hnone : min 0 p.core.alignment = 0 := Nat.zero_min _
  show checkAlignment _ 0 = true ∧ checkAlignment _ (min 0 p.core.alignment) = true
  rw [hnone]
  exact ⟨rfl, rfl⟩

/-- The only filter with the gain of the only interpolant. -/
theorem run_converges_single :
    ∃ c₀ t c' samples, create (limitedParameters 1 1) [⟨0, 0, 0, 1⟩] .empty
        (CrossfadingConvolverUniform.gainMatrix 1) = .ok c₀ ∧
      exec (Tracked.step ImpulseResponse.coefficient fun _ n => if n = 0 then 1 else 0)
        [.setInterpolant (gainParameter 0 2) true]
        (.start ImpulseResponse.coefficient c₀ .empty
          (CrossfadingConvolverUniform.gainMatrix 1)) = some t ∧
      t.session.convolver.convolver.process (t.session.inner.inputBlock fun _ n =>
        if n = 0 then 1 else 0) CrossfadingConvolverUniform.silentBuffer = (c', .ok samples) ∧
      samples 0 0 = 2 := by
  obtain ⟨c₀, hcreate, t, hrun, htable, hblocks, htarget⟩ :
      ∃ c₀, create (limitedParameters 1 1) [⟨0, 0, 0, 1⟩] .empty
          (CrossfadingConvolverUniform.gainMatrix 1) = .ok c₀ ∧
        ∃ t, exec (Tracked.step ImpulseResponse.coefficient fun _ n => if n = 0 then (1 : ℝ) else 0)
            [.setInterpolant (gainParameter 0 2) true]
            (.start ImpulseResponse.coefficient c₀ .empty
              (CrossfadingConvolverUniform.gainMatrix 1)) = some t ∧
          t.session.convolver.convolver.routingTable.entries = [⟨0, 0, 0, 1⟩] ∧
          t.session.blocks = 0 ∧
          (t.documented.fades 0).target = combination (storedRows ImpulseResponse.coefficient
            (CrossfadingConvolverUniform.gainMatrix 1)) [(0, 2)] :=
    ⟨_, rfl, _, rfl, rfl, rfl, rfl⟩
  -- the single partition starts at an aligned address
  have hkeeps : (Operation.initFilters (CrossfadingConvolverUniform.gainMatrix 1)).Keeps
      (limitedParameters 1 1) := by
    intro f _ k _
    refine ⟨rfl, ?_⟩
    show checkAlignment _ (min 0 (min 0 2)) = true
    rfl
  obtain ⟨houtput, -, hsettled, hreturns⟩ := run_converges hcreate hkeeps _ hrun
    (fun op hop => by
      rw [List.mem_singleton] at hop
      subst hop
      trivial)
    (aligned_silentBuffer _)
  obtain ⟨c', samples, hprocess⟩ := hreturns Nat.one_pos (fun h => absurd rfl h) (by
    intro e he
    rw [htable, List.mem_singleton] at he
    subst he
    exact ⟨Nat.one_pos, Nat.one_pos, Nat.one_pos⟩)
  refine ⟨c₀, t, c', samples, hcreate, hrun, hprocess, ?_⟩
  have hconv : convolution (t.documented.fades 0).target
      (limitedParameters 1 1).crossfading.core.capacity (fun n => if n = 0 then (1 : ℝ) else 0) 0 =
      2 := by
    rw [convolution_impulse _ (by decide), htarget]
    simp [combination, storedRows, CoreConvolverUniform.rowResponse, ImpulseResponse.coefficient,
      CrossfadingConvolverUniform.gainMatrix, BasicMatrix.row]
  rw [houtput c' samples hprocess 0 0 Nat.one_pos Nat.one_pos, htable, hblocks,
    MultichannelConvolverUniform.routingSum_cons, if_pos rfl, one_mul,
    hsettled _ _ _ _ (Nat.zero_le _)]
  refine (congrArg₂ (· + ·) hconv ?_).trans (add_zero 2)
  simp [MultichannelConvolverUniform.routingSum]

/-- The delay by two samples as the only filter, with an alignment of four. -/
noncomputable def delayInterpolation : InterpolatingParameters ℝ ℂ where
  arguments := MultichannelConvolverUniform.delayParameters 4
  maxRoutingPoints := 1
  maxFilterEntries := 1
  numberOfInterpolants := 1
  transitionSamples := 0
  components := Complex.equivRealProdLm
  alignment_lt := by decide

/-- The second partition of the stored filter is dropped without an error: in the second
block, the interpolant with the gain one is silent. -/
theorem run_converges_misaligned :
    ∃ (c₀ : InterpolatingConvolverUniform delayInterpolation) (s : Session delayInterpolation)
        (c' : CrossfadingConvolverUniform delayInterpolation.crossfading) (samples : ℕ → ℕ → ℝ),
      create delayInterpolation [⟨0, 0, 0, 1⟩] ⟨[gainParameter 0 1], List.pairwise_singleton _ _⟩
        (MultichannelConvolverUniform.delayFilter 4) = .ok c₀ ∧
      exec (Session.step fun _ n => if n = 0 then 1 else 0)
        [.process CrossfadingConvolverUniform.silentBuffer] ⟨c₀, 0⟩ = some s ∧
      s.convolver.convolver.process (s.inner.inputBlock fun _ n => if n = 0 then 1 else 0)
        CrossfadingConvolverUniform.silentBuffer = (c', .ok samples) ∧
      samples 0 0 = 0 ∧
      convolution (combination (storedRows ImpulseResponse.coefficient
          (MultichannelConvolverUniform.delayFilter 4)) (gainParameter 0 1).terms) 3
        (fun n => if n = 0 then 1 else 0) 2 = 1 := by
  obtain ⟨c₀, hcreate, t, hrun, hsession, c', samples, hprocess, htable, hblocks, htarget⟩ :
      ∃ c₀ : InterpolatingConvolverUniform delayInterpolation,
        create delayInterpolation [⟨0, 0, 0, 1⟩]
          ⟨[gainParameter 0 1], List.pairwise_singleton _ _⟩
          (MultichannelConvolverUniform.delayFilter 4) = .ok c₀ ∧
        ∃ t : Tracked delayInterpolation,
          exec (Tracked.step (arrived delayInterpolation) fun _ n => if n = 0 then (1 : ℝ) else 0)
            [.process CrossfadingConvolverUniform.silentBuffer]
            (.start (arrived delayInterpolation) c₀
              ⟨[gainParameter 0 1], List.pairwise_singleton _ _⟩
              (MultichannelConvolverUniform.delayFilter 4)) = some t ∧
          exec (Session.step fun _ n => if n = 0 then (1 : ℝ) else 0)
            [.process CrossfadingConvolverUniform.silentBuffer] ⟨c₀, 0⟩ = some t.session ∧
          ∃ c' samples, t.session.convolver.convolver.process
              (t.session.inner.inputBlock fun _ n => if n = 0 then (1 : ℝ) else 0)
              CrossfadingConvolverUniform.silentBuffer = (c', .ok samples) ∧
            t.session.convolver.convolver.routingTable.entries = [⟨0, 0, 0, 1⟩] ∧
            t.session.blocks = 1 ∧
            (t.documented.fades 0).target = combination (storedRows (arrived delayInterpolation)
              (MultichannelConvolverUniform.delayFilter 4)) [(0, 1)] :=
    ⟨_, rfl, _, rfl, rfl, _, _, rfl, rfl, rfl, rfl⟩
  have ht : t.Holds fun _ n => if n = 0 then (1 : ℝ) else 0 :=
    exec_invariant (P := fun op _ => op.Stores delayInterpolation (arrived delayInterpolation))
      (fun _ _ _ hop ht hstep => ht.step hop hstep)
      (throughout_of_forall (by simp [Operation.Stores]) _)
      (tracked_start hcreate (fun _ _ => rfl) _) hrun
  refine ⟨c₀, t.session, c', samples, hcreate, hsession, hprocess, ?_, ?_⟩
  · -- the second partition starts at the third coefficient, which is not aligned
    have hdropped : ¬delayInterpolation.crossfading.core.Loads (handedOn delayInterpolation
        (CoreConvolverUniform.rowResponse (MultichannelConvolverUniform.delayFilter 4) 0)) 1 := by
      show ¬checkAlignment (0 + 0 * 4 + 1 * 2) 4 = true
      decide
    have hzero : arrived delayInterpolation (CoreConvolverUniform.rowResponse
        (MultichannelConvolverUniform.delayFilter 4) 0) 2 = 0 := by
      show (1 : ℝ) * delayInterpolation.crossfading.core.effective _ 2 = 0
      rw [one_mul]
      exact if_neg hdropped
    have hconv : convolution (t.documented.fades 0).target
        delayInterpolation.crossfading.core.capacity (fun n => if n = 0 then (1 : ℝ) else 0) 2 =
        0 := by
      rw [convolution_impulse _ (by decide), htarget]
      simp only [combination, List.map_cons, List.map_nil, List.sum_cons, List.sum_nil, add_zero,
        one_smul]
      exact hzero
    rw [ht.output (aligned_silentBuffer _) hprocess Nat.one_pos Nat.two_pos, htable, hblocks,
      MultichannelConvolverUniform.routingSum_cons, if_pos rfl, one_mul,
      ht.plays.settled (Nat.zero_le _)]
    refine (congrArg₂ (· + ·) hconv ?_).trans (add_zero 0)
    simp [MultichannelConvolverUniform.routingSum]
  · rw [convolution_impulse _ (by decide)]
    simp [combination, storedRows, CoreConvolverUniform.rowResponse, ImpulseResponse.coefficient,
      MultichannelConvolverUniform.delayFilter, BasicMatrix.row, gainParameter,
      InterpolationParameter.terms]

end InterpolatingConvolverUniform

end Visr
