import Visr.Librbbl.InterpolatingConvolverUniform
import Visr.Librcl.CrossfadingFirFilterMatrix

/-!
# The filter matrix with interpolation

The component convolves its inputs with weighted sums of filters.  Filters and weights can be
changed by messages.

## Main results

* `InterpolatingFirFilterMatrix.accepts` — valid messages are applied.
-/

namespace Visr

open Dft Consumption MessageLoop

variable {R C : Type} [Field R] [CommRing C] [Algebra R C]

/-- The component.  There is no input for routings. -/
structure InterpolatingFirFilterMatrix (q : InterpolatingParameters R C) where
  fullName : String
  setFilterInput : Option (MessageQueueProtocol (IndexedValueParameter R))
  interpolantInput : Option (MessageQueueProtocol (InterpolationParameter R))
  convolver : InterpolatingConvolverUniform q

namespace InterpolatingFirFilterMatrix

variable {q : InterpolatingParameters R C}

structure ControlPortConfig where
  filters : Bool
  routings : Bool
  interpolants : Bool

/-- The constructor. -/
def create (fullName : String) (q : InterpolatingParameters R C) (filters : BasicMatrix R)
    (initialInterpolants : InterpolationParameterSet R) (routings : FilterRoutingList R)
    (controlInputs : ControlPortConfig) : Except Fault (InterpolatingFirFilterMatrix q) := do
  let convolver ← InterpolatingConvolverUniform.create q
    (routings.toList.map FilterRouting.entry) initialInterpolants filters
  pure { fullName := fullName
         setFilterInput := if controlInputs.filters then some ⟨[]⟩ else none
         interpolantInput := if controlInputs.interpolants then some ⟨[]⟩ else none
         convolver := convolver }

/-! ### Calls -/

/-- The messages for both inputs. -/
inductive Message (R : Type)
  | filter (m : IndexedValueParameter R)
  | interpolant (param : InterpolationParameter R)

inductive Port
  | filterInput
  | interpolantInput
  deriving DecidableEq

def Message.port {R : Type} : Message R → Port
  | .filter _ => .filterInput
  | .interpolant _ => .interpolantInput

def setFilter (c : InterpolatingConvolverUniform q) (m : IndexedValueParameter R) :
    Except Exception (InterpolatingConvolverUniform q) :=
  c.setImpulseResponse m.response m.index

/-- What is done with a message in a `try` block.  A transition to a new interpolant is
started. -/
def apply (m : Message R) (c : InterpolatingConvolverUniform q) :
    InterpolatingConvolverUniform q × Except Fault Unit :=
  match m with
  | .filter m => attempt c ((setFilter c m).mapError .thrown)
  | .interpolant param => attempt c (c.setInterpolant param true)

def setNewFilters : InterpolatingFirFilterMatrix q →
    Stage (InterpolatingFirFilterMatrix q) (Message R) Fault :=
  takeMessages setFilterInput convolver
    (fun s queue c => { s with setFilterInput := some queue, convolver := c }) .filter apply
    (fun s => report s.fullName "InterpolatingFirFilterMatrix: Error while setting new filter: ")
    ⟨false, true⟩

def setNewInterpolants : InterpolatingFirFilterMatrix q →
    Stage (InterpolatingFirFilterMatrix q) (Message R) Fault :=
  takeMessages interpolantInput convolver
    (fun s queue c => { s with interpolantInput := some queue, convolver := c }) .interpolant apply
    (fun s => report s.fullName
      "InterpolatingFirFilterMatrix: Error while setting new interpolant: ")
    ⟨true, true⟩

/-- The messages are taken from the inputs. -/
def takeAll (s : InterpolatingFirFilterMatrix q) :
    Stage (InterpolatingFirFilterMatrix q) (Message R) Fault :=
  s.setNewFilters.andThen setNewInterpolants

def convolve (block : AudioBlock R) (c : InterpolatingConvolverUniform q) :
    InterpolatingConvolverUniform q × Except Fault (ℕ → ℕ → R) :=
  ({ c with convolver := (c.convolver.process block.input block.output).1 },
    (c.convolver.process block.input block.output).2)

def convolveInput (block : AudioBlock R) (s : InterpolatingFirFilterMatrix q) :
    InterpolatingFirFilterMatrix q × Except Fault (ℕ → ℕ → R) :=
  ({ s with convolver := (convolve block s.convolver).1 }, (convolve block s.convolver).2)

def process (block : AudioBlock R) (s : InterpolatingFirFilterMatrix q) :
    Call (InterpolatingFirFilterMatrix q) (Message R) Fault (ℕ → ℕ → R) :=
  s.takeAll.finish (convolveInput block)

/-! ### The inputs -/

def pending (s : InterpolatingFirFilterMatrix q) : Port → List (Message R)
  | .filterInput => (pendingMessages s.setFilterInput).map .filter
  | .interpolantInput => (pendingMessages s.interpolantInput).map .interpolant

def receive (m : Message R) (s : InterpolatingFirFilterMatrix q) :
    Option (InterpolatingFirFilterMatrix q) :=
  match m with
  | .filter m => s.setFilterInput.map fun queue =>
    { s with setFilterInput := some (queue.enqueue m) }
  | .interpolant param => s.interpolantInput.map fun queue =>
    { s with interpolantInput := some (queue.enqueue param) }

def component (q : InterpolatingParameters R C) :
    Component (InterpolatingFirFilterMatrix q) (InterpolatingConvolverUniform q) Port (Message R)
      (AudioBlock R) Fault (ℕ → ℕ → R) where
  port := Message.port
  isQueue _ := True
  pending := pending
  receive := receive
  inner := convolver
  apply := apply
  perform := convolve
  process := process
  survives := Fault.survives

/-- The inputs, in the order in which a call takes messages from them. -/
def ports : List Port := [.filterInput, .interpolantInput]

/-- The indices are in range, the impulse response is not too long, and the interpolant has the
right number of weights. -/
def Valid (m : Message R) (_ : InterpolatingConvolverUniform q) : Prop :=
  match m with
  | .filter m => m.index < q.maxFilterEntries ∧ m.value.length ≤ q.arguments.maxFilterLength
  | .interpolant param => InterpolatingConvolverUniform.Passes q param ∧
      0 < q.numberOfInterpolants ∧ param.id < q.maxRoutingPoints

def Operating (c : InterpolatingConvolverUniform q) : Prop := c.convolver.Operating

/-! ### Valid messages -/

/-- **Valid messages are applied**, and the convolver can go on. -/
theorem apply_of_valid {m : Message R} {c : InterpolatingConvolverUniform q} (h : Valid m c) :
    (apply m c).2 = .ok () ∧ (Operating c → Operating (apply m c).1) := by
  cases m with
  | filter m =>
    obtain ⟨c', hset⟩ := (c.setImpulseResponse_eq_ok_iff m.response m.index).mpr h
    have happly : apply (.filter m) c = (c', .ok ()) := by
      simp only [apply, setFilter, hset, Except.mapError, attempt]
    obtain ⟨row, -, rfl⟩ := InterpolatingConvolverUniform.setImpulseResponse_eq_ok hset
    rw [happly]
    exact ⟨rfl, fun hc => hc⟩
  | interpolant param =>
    obtain ⟨c', hset⟩ := (c.setInterpolant_eq_ok_iff param true).mpr h
    have happly : apply (.interpolant param) c = (c', .ok ()) := by
      simp only [apply, hset, attempt]
    obtain ⟨-, tempFilter, -, hswitch, -⟩ := InterpolatingConvolverUniform.setInterpolant_eq_ok hset
    rw [happly]
    refine ⟨rfl, fun hc => ?_⟩
    exact CrossfadingConvolverUniform.Operating.switchFilter hc hswitch
      (CrossfadingConvolverUniform.setTransformedFilter_inputs hswitch)

theorem inputs : (component q).Inputs where
  inner m s s' h := by
    cases m with
    | filter m =>
      obtain ⟨queue, _, rfl⟩ := Option.map_eq_some_iff.mp h
      rfl
    | interpolant param =>
      obtain ⟨queue, _, rfl⟩ := Option.map_eq_some_iff.mp h
      rfl
  queue m s s' i h _ := by
    cases m with
    | filter m =>
      obtain ⟨queue, hqueue, rfl⟩ := Option.map_eq_some_iff.mp h
      cases i with
      | filterInput => simp [component, pending, hqueue, onPort_singleton, Message.port]
      | interpolantInput => simp [component, pending, onPort_singleton, Message.port]
    | interpolant param =>
      obtain ⟨queue, hqueue, rfl⟩ := Option.map_eq_some_iff.mp h
      cases i with
      | filterInput => simp [component, pending, onPort_singleton, Message.port]
      | interpolantInput => simp [component, pending, hqueue, onPort_singleton, Message.port]

theorem takes_takeAll : (component q).Takes Valid takeAll ports := by
  have haccepted : ∀ m c, Valid m c → ((component q).apply m c).2 = .ok () :=
    fun m c hm => (apply_of_valid hm).1
  have hfilters : (component q).Takes Valid setNewFilters [.filterInput] := by
    apply takes_takeMessages _ _ _ haccepted
    · exact fun s => rfl
    · exact fun s queue c => rfl
    · exact fun s queue c => rfl
    · intro s queue c j hj
      cases j with
      | filterInput => exact absurd rfl hj
      | interpolantInput => rfl
  have hinterpolants : (component q).Takes Valid setNewInterpolants [.interpolantInput] := by
    apply takes_takeMessages _ _ _ haccepted
    · exact fun s => rfl
    · exact fun s queue c => rfl
    · exact fun s queue c => rfl
    · intro s queue c j hj
      cases j with
      | filterInput => rfl
      | interpolantInput => exact absurd rfl hj
  exact hfilters.andThen hinterpolants (by decide)

theorem accepts : (component q).Accepts Operating Valid
    (CrossfadingConvolverUniform.Suitable q.crossfading) ports takeAll convolveInput where
  inputs := inputs
  nodup := by decide
  complete i := by cases i <;> decide
  port s i m hm := by
    cases i with
    | filterInput =>
      obtain ⟨_, -, rfl⟩ := List.mem_map.mp hm
      rfl
    | interpolantInput =>
      obtain ⟨_, -, rfl⟩ := List.mem_map.mp hm
      rfl
  apply m c hm := (apply_of_valid hm).1
  keeps m c hm := (apply_of_valid hm).2
  perform block c hready hc := CrossfadingConvolverUniform.Operating.process hc hready
  process _ _ := rfl
  takes := takes_takeAll
  work _ _ := ⟨rfl, rfl, fun i => by cases i <;> rfl⟩

end InterpolatingFirFilterMatrix

end Visr
