import Visr.Libpml.InputBase
import Visr.Librbbl.FilterRouting
import Visr.Librbbl.MultichannelConvolverUniform
import Visr.Librcl.MessageLoop

/-!
# The filter matrix

The component convolves its inputs with a set of filters.  Filters and routings can be changed by
messages.

## Main results

* `FirFilterMatrix.accepts` — valid messages are applied.
* `FirFilterMatrix.process_of_refused` — **a filter that is refused** remains in the queue.
-/

namespace Visr

open Dft Consumption MessageLoop

variable {R C : Type} [Field R] [CommRing C] [Algebra R C]

/-- An impulse response with the index of a filter. -/
structure IndexedValueParameter (R : Type) where
  index : ℕ
  value : List R

/-- The coefficients of a vector.  With the alignment zero, the address plays no role. -/
def IndexedValueParameter.response {R : Type} [Zero R] (m : IndexedValueParameter R) :
    ImpulseResponse R where
  ir := ⟨0, fun k => m.value.getD k 0⟩
  filterLength := m.value.length
  alignment := 0

/-- The entry for a routing. -/
def FilterRouting.entry {R : Type} (routing : FilterRouting R) : RoutingEntry R :=
  ⟨routing.inputIndex, routing.outputIndex, routing.filterIndex, routing.gainLinear⟩

/-- The component.  An input is missing unless it has been asked for. -/
structure FirFilterMatrix (p : ConvolverParameters R C) (maxRoutings : ℕ) where
  fullName : String
  setFilterInput : Option (MessageQueueProtocol (IndexedValueParameter R))
  allRoutingsInput : Option (InputBase (FilterRoutingList R))
  singleRoutingInput : Option (MessageQueueProtocol (FilterRouting R))
  convolver : MultichannelConvolverUniform p maxRoutings

namespace FirFilterMatrix

variable {p : ConvolverParameters R C} {maxRoutings : ℕ}

structure ControlPortConfig where
  filters : Bool
  routings : Bool
  allRoutings : Bool

/-- The constructor. -/
def create (fullName : String) (p : ConvolverParameters R C) (maxRoutings : ℕ)
    (filters : BasicMatrix R) (routings : FilterRoutingList R) (controlInputs : ControlPortConfig) :
    Except Exception (FirFilterMatrix p maxRoutings) := do
  let convolver ← MultichannelConvolverUniform.create p maxRoutings
    (routings.toList.map FilterRouting.entry) filters
  pure { fullName := fullName
         setFilterInput := if controlInputs.filters then some ⟨[]⟩ else none
         allRoutingsInput := if controlInputs.allRoutings then some ⟨.empty, false⟩ else none
         singleRoutingInput := if controlInputs.routings then some ⟨[]⟩ else none
         convolver := convolver }

/-! ### Filters and routings -/

def setFilter (c : MultichannelConvolverUniform p maxRoutings) (m : IndexedValueParameter R) :
    Except Exception (MultichannelConvolverUniform p maxRoutings) :=
  c.setImpulseResponse m.response m.index

def addRouting (c : MultichannelConvolverUniform p maxRoutings) (routing : FilterRouting R) :
    Except Exception (MultichannelConvolverUniform p maxRoutings) :=
  c.setRoutingEntry routing.entry

/-- The routings before one that is refused remain set. -/
def addRoutings : List (FilterRouting R) → MultichannelConvolverUniform p maxRoutings →
    MultichannelConvolverUniform p maxRoutings × Except Fault Unit
  | [], c => (c, .ok ())
  | routing :: routings, c =>
    match addRouting c routing with
    | .ok c => addRoutings routings c
    | .error e => (c, .error (.thrown e))

def setRoutings (routings : FilterRoutingList R) (c : MultichannelConvolverUniform p maxRoutings) :
    MultichannelConvolverUniform p maxRoutings × Except Fault Unit :=
  addRoutings routings.toList c.clearRoutingTable

/-! ### Calls -/

/-- The messages for the three inputs. -/
inductive Message (R : Type)
  | filter (m : IndexedValueParameter R)
  | allRoutings (routings : FilterRoutingList R)
  | singleRouting (routing : FilterRouting R)

inductive Port
  | filterInput
  | allRoutings
  | singleRouting
  deriving DecidableEq

def Message.port {R : Type} : Message R → Port
  | .filter _ => .filterInput
  | .allRoutings _ => .allRoutings
  | .singleRouting _ => .singleRouting

/-- What is done with a message in a `try` block. -/
def apply (m : Message R) (c : MultichannelConvolverUniform p maxRoutings) :
    MultichannelConvolverUniform p maxRoutings × Except Fault Unit :=
  match m with
  | .filter m => attempt c ((setFilter c m).mapError .thrown)
  | .allRoutings routings => setRoutings routings c
  | .singleRouting routing => attempt c ((addRouting c routing).mapError .thrown)

def setNewFilters : FirFilterMatrix p maxRoutings →
    Stage (FirFilterMatrix p maxRoutings) (Message R) Fault :=
  takeMessages setFilterInput convolver
    (fun s queue c => { s with setFilterInput := some queue, convolver := c }) .filter apply
    (fun s => report s.fullName "FirFilterMatrix: Error while setting new filter: ") ⟨false, true⟩

/-- The flag is not reset when the routings are refused. -/
def resetRoutings (s : FirFilterMatrix p maxRoutings) :
    Stage (FirFilterMatrix p maxRoutings) (Message R) Fault :=
  match s.allRoutingsInput with
  | none => ⟨s, [], none⟩
  | some input =>
    if input.changed then
      match setRoutings input.data s.convolver with
      | (c, .error (.thrown e)) =>
        ⟨{ s with convolver := c }, [.reported (.allRoutings input.data)], some (.thrown
          (report s.fullName "FirFilterMatrix: Error while resetting filter routings: " e))⟩
      | (c, .error fault) => ⟨{ s with convolver := c }, [], some fault⟩
      | (c, .ok ()) =>
        ⟨{ s with convolver := c, allRoutingsInput := some input.resetChanged },
          [.applied (.allRoutings input.data)], none⟩
    else ⟨s, [], none⟩

/-- A message is removed outside of the `try` block. -/
def addNewRoutings : FirFilterMatrix p maxRoutings →
    Stage (FirFilterMatrix p maxRoutings) (Message R) Fault :=
  takeMessages singleRoutingInput convolver
    (fun s queue c => { s with singleRoutingInput := some queue, convolver := c })
    .singleRouting apply
    (fun s => report s.fullName "FirFilterMatrix: Error while setting filter routing: ")
    ⟨true, false⟩

/-- The convolver processes a block of the inputs.  It fails only by a division by zero, after
which it is not used any more. -/
def convolve (input : ℕ → ℕ → R) (c : MultichannelConvolverUniform p maxRoutings) :
    MultichannelConvolverUniform p maxRoutings × Except Fault (ℕ → ℕ → R) :=
  match c.process input with
  | .ok (c, output) => (c, .ok output)
  | .error fault => (c, .error fault)

/-- The messages are taken from the inputs. -/
def takeAll (s : FirFilterMatrix p maxRoutings) :
    Stage (FirFilterMatrix p maxRoutings) (Message R) Fault :=
  (s.setNewFilters.andThen resetRoutings).andThen addNewRoutings

def convolveInput (input : ℕ → ℕ → R) (s : FirFilterMatrix p maxRoutings) :
    FirFilterMatrix p maxRoutings × Except Fault (ℕ → ℕ → R) :=
  ({ s with convolver := (convolve input s.convolver).1 }, (convolve input s.convolver).2)

def process (input : ℕ → ℕ → R) (s : FirFilterMatrix p maxRoutings) :
    Call (FirFilterMatrix p maxRoutings) (Message R) Fault (ℕ → ℕ → R) :=
  s.takeAll.finish (convolveInput input)

/-! ### The inputs -/

def pending (s : FirFilterMatrix p maxRoutings) : Port → List (Message R)
  | .filterInput => (pendingMessages s.setFilterInput).map .filter
  | .allRoutings =>
    match s.allRoutingsInput with
    | none => []
    | some input => if input.changed then [.allRoutings input.data] else []
  | .singleRouting => (pendingMessages s.singleRoutingInput).map .singleRouting

/-- A message arrives.  Routing lists are passed through a double buffer. -/
def receive (m : Message R) (s : FirFilterMatrix p maxRoutings) :
    Option (FirFilterMatrix p maxRoutings) :=
  match m with
  | .filter m => s.setFilterInput.map fun queue =>
    { s with setFilterInput := some (queue.enqueue m) }
  | .allRoutings routings => s.allRoutingsInput.map fun input =>
    { s with allRoutingsInput := some (input.receive routings) }
  | .singleRouting routing => s.singleRoutingInput.map fun queue =>
    { s with singleRoutingInput := some (queue.enqueue routing) }

def component (p : ConvolverParameters R C) (maxRoutings : ℕ) :
    Component (FirFilterMatrix p maxRoutings) (MultichannelConvolverUniform p maxRoutings) Port
      (Message R) (ℕ → ℕ → R) Fault (ℕ → ℕ → R) where
  port := Message.port
  isQueue i := i ≠ .allRoutings
  pending := pending
  receive := receive
  inner := convolver
  apply := apply
  perform := convolve
  process := process
  survives := Fault.survives

/-- The inputs, in the order in which a call takes messages from them. -/
def ports : List Port := [.filterInput, .allRoutings, .singleRouting]

/-- The indices of a routing are those of an input, an output and a filter. -/
def InRange (p : ConvolverParameters R C) (routing : FilterRouting R) : Prop :=
  routing.inputIndex < p.numberOfInputs ∧ routing.outputIndex < p.numberOfOutputs ∧
    routing.filterIndex < p.maxNumberOfFilterEntries

/-- The indices are in range, the impulse response is not too long, and there is room for the
routings. -/
def Valid (m : Message R) (c : MultichannelConvolverUniform p maxRoutings) : Prop :=
  match m with
  | .filter m => m.index < p.maxNumberOfFilterEntries ∧ m.value.length ≤ p.maxFilterLength
  | .allRoutings routings =>
    (∀ routing ∈ routings, InRange p routing) ∧ routings.toList.length ≤ maxRoutings
  | .singleRouting routing =>
    InRange p routing ∧ (c.routingTable.others routing.entry).length < maxRoutings

/-! ### Valid messages -/

theorem addRouting_of_room (c : MultichannelConvolverUniform p maxRoutings)
    {routing : FilterRouting R} (hin : InRange p routing)
    (hroom : (c.routingTable.others routing.entry).length < maxRoutings) :
    addRouting c routing =
      .ok { c with routingTable := c.routingTable.set routing.entry hin } :=
  c.setRoutingEntry_of_room routing.entry hin hroom

/-- Routings for new pairs are added while there is room for them. -/
theorem addRoutings_of_room {routings : List (FilterRouting R)}
    (hrange : ∀ routing ∈ routings, InRange p routing)
    (hdistinct : routings.Pairwise fun a b => ¬equivalentRoutings a.entry b.entry) :
    ∀ c : MultichannelConvolverUniform p maxRoutings,
      (∀ e ∈ c.routingTable.entries, ∀ routing ∈ routings,
        ¬equivalentRoutings e routing.entry) →
      c.routingTable.entries.length + routings.length ≤ maxRoutings →
      ∃ table, addRoutings routings c = ({ c with routingTable := table }, .ok ()) := by
  induction routings with
  | nil => exact fun c _ _ => ⟨c.routingTable, rfl⟩
  | cons routing routings ih =>
    intro c hnew hroom
    obtain ⟨hin, hrange⟩ := List.forall_mem_cons.mp hrange
    obtain ⟨hfirst, hdistinct⟩ := List.pairwise_cons.mp hdistinct
    rw [List.length_cons] at hroom
    -- no entry is replaced
    have hsame : c.routingTable.others routing.entry = c.routingTable.entries :=
      RoutingTable.others_of_new fun e he => hnew e he routing List.mem_cons_self
    have hset := addRouting_of_room c hin (by rw [hsame]; omega)
    obtain ⟨table, htable⟩ := ih hrange hdistinct
      { c with routingTable := c.routingTable.set routing.entry hin } (by
        intro e he later hlater
        have hmem : e ∈ (c.routingTable.set routing.entry hin).entries := he
        rcases (RoutingTable.mem_set _).mp hmem with rfl | hold
        · exact hfirst later hlater
        · exact hnew e (RoutingTable.mem_of_mem_others hold) later
            (List.mem_cons_of_mem _ hlater)) (by
        have hlength : (c.routingTable.set routing.entry hin).entries.length = _ :=
          RoutingTable.length_set _
        rw [hsame] at hlength
        show (c.routingTable.set routing.entry hin).entries.length + _ ≤ _
        omega)
    refine ⟨table, ?_⟩
    simp only [addRoutings, hset]
    exact htable

omit [Field R] in
/-- The routings of a list belong to different pairs of an input and an output. -/
theorem pairwise_entries (routings : FilterRoutingList R) :
    routings.toList.Pairwise fun a b => ¬equivalentRoutings a.entry b.entry := by
  refine routings.sorted.imp fun {a b} hlt heq => ?_
  obtain ⟨hout, hin⟩ := (equivalentRoutings_iff _ _).mp heq
  have hkey : a.key = b.key := by
    simp only [FilterRouting.key]
    exact congrArg toLex (Prod.ext hin hout)
  exact absurd hkey hlt.ne

theorem setRoutings_of_valid {routings : FilterRoutingList R}
    {c : MultichannelConvolverUniform p maxRoutings} (h : Valid (.allRoutings routings) c) :
    ∃ table, setRoutings routings c = ({ c with routingTable := table }, .ok ()) := by
  apply addRoutings_of_room h.1 (pairwise_entries routings) c.clearRoutingTable
  · intro e he
    exact absurd he List.not_mem_nil
  · simpa [MultichannelConvolverUniform.clearRoutingTable, RoutingTable.empty] using h.2

/-- **Valid messages are applied**, and the convolver can go on. -/
theorem apply_of_valid {m : Message R} {c : MultichannelConvolverUniform p maxRoutings}
    (h : Valid m c) : (apply m c).2 = .ok () ∧ (c.Operating → (apply m c).1.Operating) := by
  cases m with
  | filter m =>
    obtain ⟨core, hcore⟩ := (c.coreConvolver.setImpulseResponse_eq_ok_iff m.response m.index).mpr h
    have hset : c.setImpulseResponse m.response m.index = .ok { c with coreConvolver := core } := by
      simp only [MultichannelConvolverUniform.setImpulseResponse, hcore, bind, Except.bind, pure,
        Except.pure]
    have happly : apply (.filter m) c = ({ c with coreConvolver := core }, .ok ()) := by
      simp only [apply, setFilter, hset, Except.mapError, attempt]
    rw [happly]
    exact ⟨rfl, fun hc => hc.setImpulseResponse hset⟩
  | allRoutings routings =>
    obtain ⟨table, htable⟩ := setRoutings_of_valid h
    have happly : apply (.allRoutings routings) c = ({ c with routingTable := table }, .ok ()) :=
      htable
    rw [happly]
    exact ⟨rfl, fun hc => hc.of_core rfl⟩
  | singleRouting routing =>
    have hset := addRouting_of_room c h.1 h.2
    have happly : apply (.singleRouting routing) c =
        ({ c with routingTable := c.routingTable.set routing.entry h.1 }, .ok ()) := by
      simp only [apply, hset, Except.mapError, attempt]
    rw [happly]
    exact ⟨rfl, fun hc => hc.of_core rfl⟩

theorem inputs : (component p maxRoutings).Inputs where
  inner m s s' h := by
    cases m with
    | filter m =>
      obtain ⟨queue, _, rfl⟩ := Option.map_eq_some_iff.mp h
      rfl
    | allRoutings routings =>
      obtain ⟨input, _, rfl⟩ := Option.map_eq_some_iff.mp h
      rfl
    | singleRouting routing =>
      obtain ⟨queue, _, rfl⟩ := Option.map_eq_some_iff.mp h
      rfl
  queue m s s' i h hi := by
    cases m with
    | filter m =>
      obtain ⟨queue, hqueue, rfl⟩ := Option.map_eq_some_iff.mp h
      cases i with
      | filterInput => simp [component, pending, hqueue, onPort_singleton, Message.port]
      | allRoutings => exact absurd rfl hi
      | singleRouting => simp [component, pending, onPort_singleton, Message.port]
    | allRoutings routings =>
      obtain ⟨input, hinput, rfl⟩ := Option.map_eq_some_iff.mp h
      cases i with
      | filterInput => simp [component, pending, onPort_singleton, Message.port]
      | allRoutings => exact absurd rfl hi
      | singleRouting => simp [component, pending, onPort_singleton, Message.port]
    | singleRouting routing =>
      obtain ⟨queue, hqueue, rfl⟩ := Option.map_eq_some_iff.mp h
      cases i with
      | filterInput => simp [component, pending, onPort_singleton, Message.port]
      | allRoutings => exact absurd rfl hi
      | singleRouting => simp [component, pending, hqueue, onPort_singleton, Message.port]

/-- **Routings that are valid** are taken from the double buffer. -/
theorem takes_resetRoutings :
    (component p maxRoutings).Takes Valid resetRoutings [.allRoutings] := by
  intro s h
  rw [List.flatMap_singleton] at h ⊢
  change (component p maxRoutings).InTurn Valid (s.pending .allRoutings) s.convolver at h
  show ∃ s' : FirFilterMatrix p maxRoutings,
    _ = Stage.mk s' ((s.pending .allRoutings).map .applied) none ∧ s'.convolver =
    (component p maxRoutings).applyAll (s.pending .allRoutings) s.convolver ∧
    ∀ i, s'.pending i = if i ∈ [Port.allRoutings] then [] else s.pending i
  unfold resetRoutings
  cases hinput : s.allRoutingsInput with
  | none =>
    have hempty : s.pending .allRoutings = [] := by simp [pending, hinput]
    refine ⟨s, ?_, ?_, ?_⟩
    · simp [hempty]
    · simp [hempty]
    · intro i
      cases i with
      | allRoutings => simp [hempty]
      | _ => rfl
  | some input =>
    by_cases hchanged : input.changed = true
    · have hpending : s.pending .allRoutings = [.allRoutings input.data] := by
        simp [pending, hinput, hchanged]
      rw [hpending] at h ⊢
      obtain ⟨table, htable⟩ := setRoutings_of_valid h.1
      refine ⟨{ s with
        convolver := { s.convolver with routingTable := table }
        allRoutingsInput := some input.resetChanged }, ?_, ?_, ?_⟩
      · simp only [hchanged, if_true, htable, List.map_cons, List.map_nil]
      · simp [component, apply, htable]
      · intro i
        cases i with
        | allRoutings => simp [pending, Recalculation.Input.resetChanged]
        | _ => rfl
    · -- a buffer that has not changed is not read
      have hempty : s.pending .allRoutings = [] := by simp [pending, hinput, hchanged]
      refine ⟨s, ?_, ?_, ?_⟩
      · simp [hempty, hchanged]
      · simp [hempty]
      · intro i
        cases i with
        | allRoutings => simp [hempty]
        | _ => rfl

theorem takes_takeAll : (component p maxRoutings).Takes Valid takeAll ports := by
  have haccepted : ∀ m c, Valid m c → ((component p maxRoutings).apply m c).2 = .ok () :=
    fun m c hm => (apply_of_valid hm).1
  have hfilters : (component p maxRoutings).Takes Valid setNewFilters [.filterInput] := by
    apply takes_takeMessages _ _ _ haccepted
    · exact fun s => rfl
    · exact fun s queue c => rfl
    · exact fun s queue c => rfl
    · intro s queue c j hj
      cases j with
      | filterInput => exact absurd rfl hj
      | _ => rfl
  have hrouting : (component p maxRoutings).Takes Valid addNewRoutings [.singleRouting] := by
    apply takes_takeMessages _ _ _ haccepted
    · exact fun s => rfl
    · exact fun s queue c => rfl
    · exact fun s queue c => rfl
    · intro s queue c j hj
      cases j with
      | singleRouting => exact absurd rfl hj
      | _ => rfl
  have hfirst := hfilters.andThen takes_resetRoutings (by decide)
  exact hfirst.andThen hrouting (by decide)

theorem accepts : (component p maxRoutings).Accepts MultichannelConvolverUniform.Operating Valid
    (fun _ => 0 < p.maxFilterLength) ports takeAll convolveInput where
  inputs := inputs
  nodup := by decide
  complete i := by cases i <;> decide
  port s i m hm := by
    cases i with
    | filterInput =>
      obtain ⟨_, -, rfl⟩ := List.mem_map.mp hm
      rfl
    | allRoutings =>
      change m ∈ s.pending .allRoutings at hm
      simp only [pending] at hm
      split at hm
      · exact absurd hm List.not_mem_nil
      · split at hm
        · rw [List.mem_singleton.mp hm]
          rfl
        · exact absurd hm List.not_mem_nil
    | singleRouting =>
      obtain ⟨_, -, rfl⟩ := List.mem_map.mp hm
      rfl
  apply m c hm := (apply_of_valid hm).1
  keeps m c hm := (apply_of_valid hm).2
  perform input c hready hc := by
    obtain ⟨c', output, hprocess, hc'⟩ := hc.process hready input
    have hconvolve : convolve input c = (c', .ok output) := by simp only [convolve, hprocess]
    exact ⟨⟨output, congrArg Prod.snd hconvolve⟩, by
      change (convolve input c).1.Operating
      rw [hconvolve]
      exact hc'⟩
  process _ _ := rfl
  takes := takes_takeAll
  work _ _ := ⟨rfl, rfl, fun i => by cases i <;> rfl⟩

end FirFilterMatrix

end Visr
