import Visr.Librbbl.CrossfadingConvolverRuns
import Visr.Librcl.FirFilterMatrix

/-!
# The filter matrix with crossfades

The component convolves its inputs with a set of filters, and fades to a new filter when it is
replaced by a message.

## Main results

* `CrossfadingFirFilterMatrix.accepts` — valid messages are applied.
-/

namespace Visr

open Dft Consumption MessageLoop

variable {R C : Type} [Field R] [CommRing C] [Algebra R C]

/-- A block of the inputs, and the buffer for the outputs. -/
structure AudioBlock (R : Type) where
  input : ℕ → ℕ → R
  output : OutputBuffer R

/-! ### The convolver in operation -/

namespace CrossfadingConvolverUniform

variable {q : CrossfadingParameters R C}

/-- The convolver has received some signals, and its routings refer to filters that exist. -/
structure Operating (c : CrossfadingConvolverUniform q) : Prop where
  initialised : c.Initialised
  inputs : ∃ signal time, c.coreConvolver.HoldsInputs signal time
  filters : ∀ e ∈ c.routingTable.entries, e.filterIdx < q.maxNumFilters

/-- A block for which there is room, and whose output buffer is aligned. -/
def Suitable (q : CrossfadingParameters R C) (block : AudioBlock R) : Prop :=
  0 < q.core.maxFilterLength ∧ (q.core.alignment ≠ 0 → q.core.alignment ∣ q.core.blockLength) ∧
    OutputAligned q block.output

theorem operating_create {initialRoutings : List (RoutingEntry R)}
    {initialFilters : BasicMatrix R} {c : CrossfadingConvolverUniform q}
    (h : create q initialRoutings initialFilters = .ok c)
    (hfilters : ∀ routing ∈ initialRoutings, routing.filterIdx < q.maxNumFilters) :
    c.Operating where
  initialised := (holds_create h fun _ _ => 0).initialised
  inputs := ⟨_, _, (holds_create h fun _ _ => 0).inputs⟩
  filters e he := (indicesValid_create h hfilters e he).2.2

/-- **Suitable blocks can be processed.** -/
theorem Operating.process {c : CrossfadingConvolverUniform q} (h : c.Operating)
    {block : AudioBlock R} (hblock : Suitable q block) :
    (∃ samples, (c.process block.input block.output).2 = .ok samples) ∧
      (c.process block.input block.output).1.Operating := by
  obtain ⟨signal, time, hinputs⟩ := h.inputs
  obtain ⟨hlength, hdvd, haligned⟩ := hblock
  -- the block continues the signals received so far
  have hnext := hinputs.continued block.input
  obtain ⟨c', samples, hprocess⟩ :=
    process_returns h.initialised hnext hlength hdvd h.filters haligned
  obtain ⟨hinitialised, hinputs', htable, -, -⟩ :=
    process_state h.initialised hnext hlength hprocess
  simp only [Signal.continued_add] at hprocess
  rw [hprocess]
  refine ⟨⟨samples, rfl⟩, hinitialised, ⟨_, _, hinputs'⟩, ?_⟩
  intro e he
  rw [htable] at he
  exact h.filters e he

/-- Replacing a filter. -/
theorem Operating.switchFilter {c c' : CrossfadingConvolverUniform q} (h : c.Operating)
    {load : ℕ → Except Exception (CoreConvolverUniform q.core)} {filterIdx : ℕ}
    {startTransition : Bool} (hstep : c.switchFilter load filterIdx startTransition = .ok c')
    (hsame : CoreConvolverUniform.SameInputs c.coreConvolver c'.coreConvolver) :
    c'.Operating where
  initialised := switchFilter_initialised h.initialised hstep
  inputs := by
    obtain ⟨signal, time, hinputs⟩ := h.inputs
    exact ⟨signal, time, hinputs.of_same hsame⟩
  filters := by
    obtain ⟨-, core, -, rfl⟩ := switchFilter_eq_ok hstep
    exact h.filters

end CrossfadingConvolverUniform

/-! ### The component -/

/-- The component.  There is no input for routings. -/
structure CrossfadingFirFilterMatrix (q : CrossfadingParameters R C) where
  fullName : String
  setFilterInput : Option (MessageQueueProtocol (IndexedValueParameter R))
  convolver : CrossfadingConvolverUniform q

namespace CrossfadingFirFilterMatrix

variable {q : CrossfadingParameters R C}

structure ControlPortConfig where
  filters : Bool
  routings : Bool

/-- The constructor. -/
def create (fullName : String) (q : CrossfadingParameters R C) (filters : BasicMatrix R)
    (routings : FilterRoutingList R) (controlInputs : ControlPortConfig) :
    Except Exception (CrossfadingFirFilterMatrix q) := do
  let convolver ← CrossfadingConvolverUniform.create q
    (routings.toList.map FilterRouting.entry) filters
  pure { fullName := fullName
         setFilterInput := if controlInputs.filters then some ⟨[]⟩ else none
         convolver := convolver }

/-- A transition to the new filter is started. -/
def setFilter (c : CrossfadingConvolverUniform q) (m : IndexedValueParameter R) :
    Except Fault (CrossfadingConvolverUniform q) :=
  c.setImpulseResponse m.response m.index true

def apply (m : IndexedValueParameter R) (c : CrossfadingConvolverUniform q) :
    CrossfadingConvolverUniform q × Except Fault Unit :=
  attempt c (setFilter c m)

def setNewFilters : CrossfadingFirFilterMatrix q →
    Stage (CrossfadingFirFilterMatrix q) (IndexedValueParameter R) Fault :=
  takeMessages setFilterInput convolver
    (fun s queue c => { s with setFilterInput := some queue, convolver := c }) id apply
    (fun s => report s.fullName "CrossfadingFirFilterMatrix: Error while setting new filter: ")
    ⟨false, true⟩

def convolve (block : AudioBlock R) (c : CrossfadingConvolverUniform q) :
    CrossfadingConvolverUniform q × Except Fault (ℕ → ℕ → R) :=
  c.process block.input block.output

def convolveInput (block : AudioBlock R) (s : CrossfadingFirFilterMatrix q) :
    CrossfadingFirFilterMatrix q × Except Fault (ℕ → ℕ → R) :=
  ({ s with convolver := (convolve block s.convolver).1 }, (convolve block s.convolver).2)

def process (block : AudioBlock R) (s : CrossfadingFirFilterMatrix q) :
    Call (CrossfadingFirFilterMatrix q) (IndexedValueParameter R) Fault (ℕ → ℕ → R) :=
  s.setNewFilters.finish (convolveInput block)

/-- The only input. -/
inductive Port
  | filterInput
  deriving DecidableEq

def receive (m : IndexedValueParameter R) (s : CrossfadingFirFilterMatrix q) :
    Option (CrossfadingFirFilterMatrix q) :=
  s.setFilterInput.map fun queue => { s with setFilterInput := some (queue.enqueue m) }

def component (q : CrossfadingParameters R C) :
    Component (CrossfadingFirFilterMatrix q) (CrossfadingConvolverUniform q) Port
      (IndexedValueParameter R) (AudioBlock R) Fault (ℕ → ℕ → R) where
  port _ := .filterInput
  isQueue _ := True
  pending s _ := pendingMessages s.setFilterInput
  receive := receive
  inner := convolver
  apply := apply
  perform := convolve
  process := process
  survives := Fault.survives

def ports : List Port := [.filterInput]

/-- The index is in range, and the impulse response is not too long. -/
def Valid (m : IndexedValueParameter R) (_ : CrossfadingConvolverUniform q) : Prop :=
  m.index < q.maxNumFilters ∧ m.value.length ≤ q.core.maxFilterLength

/-- **Valid messages are applied**, and the convolver can go on. -/
theorem apply_of_valid {m : IndexedValueParameter R} {c : CrossfadingConvolverUniform q}
    (h : Valid m c) : (apply m c).2 = .ok () ∧ (c.Operating → (apply m c).1.Operating) := by
  obtain ⟨c', hset⟩ : ∃ c', setFilter c m = .ok c' := by
    have hcore := q.core_filters
    obtain ⟨hindex, hlength⟩ := h
    have hload : ∀ newFilterSet : ℕ, ∃ core, c.coreConvolver.setImpulseResponse m.response
        (if newFilterSet = 0 then m.index else m.index + q.maxNumFilters) = .ok core := by
      intro newFilterSet
      apply (c.coreConvolver.setImpulseResponse_eq_ok_iff m.response _).mpr
      refine ⟨?_, hlength⟩
      rw [hcore]
      split <;> omega
    simp only [setFilter, CrossfadingConvolverUniform.setImpulseResponse,
      CrossfadingConvolverUniform.switchFilter, elementAt, if_pos hindex, bind, Except.bind]
    -- the part of the filter memory that does not hold the current version
    split
    next e he =>
      obtain ⟨core, hload⟩ := hload (if c.currentFilterOutput m.index = 0 then 1 else 0)
      rw [hload] at he
      cases he
    · exact ⟨_, rfl⟩
  have happly : apply m c = (c', .ok ()) := by simp only [apply, hset, attempt]
  rw [happly]
  refine ⟨rfl, fun hc => ?_⟩
  exact hc.switchFilter hset (CrossfadingConvolverUniform.setImpulseResponse_inputs hset)

theorem inputs : (component q).Inputs where
  inner m s s' h := by
    obtain ⟨queue, _, rfl⟩ := Option.map_eq_some_iff.mp h
    rfl
  queue m s s' i h _ := by
    obtain ⟨queue, hqueue, rfl⟩ := Option.map_eq_some_iff.mp h
    simp [component, hqueue, onPort_singleton]

theorem takes_setNewFilters : (component q).Takes Valid setNewFilters ports := by
  apply takes_takeMessages _ _ _ fun m c hm => (apply_of_valid hm).1
  · exact fun s => (List.map_id _).symm
  · exact fun s queue c => rfl
  · exact fun s queue c => rfl
  · intro s queue c j hj
    cases j with
    | filterInput => exact absurd rfl hj

theorem accepts : (component q).Accepts CrossfadingConvolverUniform.Operating Valid
    (CrossfadingConvolverUniform.Suitable q) ports setNewFilters convolveInput where
  inputs := inputs
  nodup := by decide
  complete i := by cases i; decide
  port s i m hm := by cases i; rfl
  apply m c hm := (apply_of_valid hm).1
  keeps m c hm := (apply_of_valid hm).2
  perform block c hready hc := hc.process hready
  process _ _ := rfl
  takes := takes_setNewFilters
  work _ _ := ⟨rfl, rfl, fun _ => rfl⟩

end CrossfadingFirFilterMatrix

end Visr
