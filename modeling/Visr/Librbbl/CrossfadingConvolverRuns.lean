import Visr.Librbbl.CrossfadingConvolverUniform

/-!
# Runs of the crossfading convolver

What a convolver does whatever is called in whatever order, and which calls keep all
accesses within the arrays.

## Main results

* `Session.Holds.step` — every call keeps what has been received.
* `run_indicesValid` — **index safety**.
-/

namespace Visr

open Dft Crossfade Execution

variable {R C : Type} [Field R] [CommRing C] [Algebra R C]

namespace CrossfadingConvolverUniform

variable {q : CrossfadingParameters R C}

/-! ### Calls -/

/-- A convolver, and the number of blocks of the input signals it has been given. -/
structure Session (q : CrossfadingParameters R C) where
  convolver : CrossfadingConvolverUniform q
  blocks : ℕ

inductive Operation (R C : Type)
  | setRoutingEntry (routing : RoutingEntry R)
  | removeRoutingEntry (inputIdx outputIdx : ℕ)
  | clearRoutingTable
  | initRoutingTable (routings : List (RoutingEntry R))
  | clearFilters
  | initFilters (newFilters : BasicMatrix R)
  | setImpulseResponse (r : ImpulseResponse R) (filterIdx : ℕ) (startTransition : Bool)
  | setTransformedFilter (fdFilter : Pointer C) (filterIdx : ℕ) (startTransition : Bool)
      (alignment : ℕ)
  | process (output : OutputBuffer R)

namespace Session

/-- The next block of the input signals. -/
def inputBlock (s : Session q) (signal : ℕ → ℕ → R) : ℕ → ℕ → R :=
  fun ch k => signal ch (s.blocks * q.core.blockLength + k)

/-- A call that leaves everything as it is when it fails. -/
def attempt (s : Session q) :
    Except Fault (CrossfadingConvolverUniform q) → Session q × Option Fault
  | .ok c => ({ s with convolver := c }, none)
  | .error fault => (s, some fault)

/-- A call that may leave something behind when it throws an exception. -/
def always (s : Session q) : CrossfadingConvolverUniform q × Except Exception Unit →
    Session q × Option Fault
  | (c, .ok _) => ({ s with convolver := c }, none)
  | (c, .error e) => ({ s with convolver := c }, some (.thrown e))

/-- The state after a call, and how the call failed if it did. -/
def call (signal : ℕ → ℕ → R) (op : Operation R C) (s : Session q) : Session q × Option Fault :=
  match op with
  | .setRoutingEntry routing =>
    s.attempt ((s.convolver.setRoutingEntry routing).mapError .thrown)
  | .removeRoutingEntry inputIdx outputIdx =>
    ({ s with convolver := (s.convolver.removeRoutingEntry inputIdx outputIdx).2 }, none)
  | .clearRoutingTable => ({ s with convolver := s.convolver.clearRoutingTable }, none)
  | .initRoutingTable routings => s.always (s.convolver.initRoutingTable routings)
  | .clearFilters => ({ s with convolver := s.convolver.clearFilters }, none)
  | .initFilters newFilters => s.always (s.convolver.initFilters newFilters)
  | .setImpulseResponse r filterIdx startTransition =>
    s.attempt (s.convolver.setImpulseResponse r filterIdx startTransition)
  | .setTransformedFilter fdFilter filterIdx startTransition alignment =>
    s.attempt (s.convolver.setTransformedFilter fdFilter filterIdx startTransition alignment)
  | .process output =>
    match s.convolver.process (s.inputBlock signal) output with
    | (c, .ok _) => (⟨c, s.blocks + 1⟩, none)
    | (c, .error fault) => (⟨c, s.blocks + 1⟩, some fault)

/-- The run goes on after an exception, but not after an access outside an array. -/
def step (signal : ℕ → ℕ → R) (op : Operation R C) (s : Session q) : Option (Session q) :=
  match s.call signal op with
  | (s', none) => some s'
  | (s', some (.thrown _)) => some s'
  | (_, some _) => none

theorem step_eq_some {signal : ℕ → ℕ → R} {op : Operation R C} {s s' : Session q}
    (h : s.step signal op = some s') :
    ∃ result, s.call signal op = (s', result) ∧ ∀ fault, result = some fault →
      ∃ e, fault = .thrown e := by
  unfold step at h
  split at h
  next heq =>
    cases h
    exact ⟨_, heq, nofun⟩
  next e heq =>
    cases h
    refine ⟨_, heq, ?_⟩
    rintro fault ⟨⟩
    exact ⟨e, rfl⟩
  · cases h

end Session

/-! ### What stays the same -/

/-- The convolver has received the first blocks of the input signals. -/
structure Session.Holds (signal : ℕ → ℕ → R) (s : Session q) : Prop where
  initialised : s.convolver.Initialised
  inputs : s.convolver.coreConvolver.HoldsInputs signal (s.blocks * q.core.blockLength)

theorem setRoutingEntry_eq_ok {c c' : CrossfadingConvolverUniform q} {routing : RoutingEntry R}
    (h : c.setRoutingEntry routing = .ok c') :
    ∃ hrange, c' = { c with routingTable := c.routingTable.set routing hrange } := by
  unfold setRoutingEntry at h
  split at h
  · cases h
  next hin =>
    split at h
    · cases h
    next hout =>
      split at h
      · cases h
      next hfilter =>
        split at h
        · cases h
        · cases h
          exact ⟨⟨Nat.lt_of_not_ge hin, Nat.lt_of_not_ge hout, Nat.lt_of_not_ge hfilter⟩, rfl⟩

theorem setRoutingEntries_eq (routings : List (RoutingEntry R)) :
    ∀ (c : CrossfadingConvolverUniform q), ∃ table result,
      c.setRoutingEntries routings = ({ c with routingTable := table }, result) := by
  induction routings with
  | nil => exact fun c => ⟨c.routingTable, .ok (), rfl⟩
  | cons routing routings ih =>
    intro c
    unfold setRoutingEntries
    cases hset : c.setRoutingEntry routing with
    | error e => exact ⟨c.routingTable, .error e, rfl⟩
    | ok next =>
      obtain ⟨hrange, rfl⟩ := setRoutingEntry_eq_ok hset
      obtain ⟨table, result, hrest⟩ := ih { c with
        routingTable := c.routingTable.set routing hrange }
      exact ⟨table, result, hrest⟩

/-- The routing table is all that its initialisation changes. -/
theorem initRoutingTable_eq (c : CrossfadingConvolverUniform q)
    (routings : List (RoutingEntry R)) : ∃ table result,
      c.initRoutingTable routings = ({ c with routingTable := table }, result) := by
  unfold initRoutingTable
  simp only
  split
  · exact ⟨.empty, _, rfl⟩
  · obtain ⟨table, result, h⟩ := setRoutingEntries_eq routings c.clearRoutingTable
    exact ⟨table, result, h⟩

theorem setRoutingEntry_eq_ok_iff (c : CrossfadingConvolverUniform q) (routing : RoutingEntry R) :
    (∃ c', c.setRoutingEntry routing = .ok c') ↔
      (routing.inputIdx < q.core.numberOfInputs ∧ routing.outputIdx < q.core.numberOfOutputs ∧
        routing.filterIdx < q.core.maxNumberOfFilterEntries) ∧
      (c.routingTable.others routing).length < q.maxNumberOfRoutingPoints := by
  constructor
  · rintro ⟨c', hc'⟩
    obtain ⟨hrange, -⟩ := setRoutingEntry_eq_ok hc'
    refine ⟨hrange, Nat.not_le.mp fun hfull => ?_⟩
    rw [setRoutingEntry, dif_neg (Nat.not_le.mpr hrange.1), dif_neg (Nat.not_le.mpr hrange.2.1),
      dif_neg (Nat.not_le.mpr hrange.2.2), if_pos hfull] at hc'
    cases hc'
  · rintro ⟨⟨hin, hout, hfilter⟩, hroom⟩
    rw [setRoutingEntry, dif_neg (Nat.not_le.mpr hin), dif_neg (Nat.not_le.mpr hout),
      dif_neg (Nat.not_le.mpr hfilter), if_neg (Nat.not_le.mpr hroom)]
    exact ⟨_, rfl⟩

/-- Entries for different pairs of an input and an output for which there is room are all
set, if they are in range. -/
theorem setRoutingEntries_eq_ok_iff {routings : List (RoutingEntry R)}
    (hdistinct : routings.Pairwise fun a b => ¬equivalentRoutings a b) :
    ∀ (c : CrossfadingConvolverUniform q),
      (∀ e ∈ c.routingTable.entries, ∀ routing ∈ routings, ¬equivalentRoutings e routing) →
      c.routingTable.entries.length + routings.length ≤ q.maxNumberOfRoutingPoints →
      ((c.setRoutingEntries routings).2 = .ok () ↔ ∀ routing ∈ routings,
        routing.inputIdx < q.core.numberOfInputs ∧ routing.outputIdx < q.core.numberOfOutputs ∧
          routing.filterIdx < q.core.maxNumberOfFilterEntries) := by
  induction routings with
  | nil => exact fun c _ _ => ⟨fun _ _ h => absurd h List.not_mem_nil, fun _ => rfl⟩
  | cons routing routings ih =>
    intro c hnew hroom
    obtain ⟨hfirst, hothers⟩ := List.pairwise_cons.mp hdistinct
    rw [List.length_cons] at hroom
    -- no entry is replaced
    have hsame : c.routingTable.others routing = c.routingTable.entries :=
      RoutingTable.others_of_new fun e he => hnew e he routing List.mem_cons_self
    have hiff := setRoutingEntry_eq_ok_iff c routing
    rw [hsame] at hiff
    unfold setRoutingEntries
    cases hset : c.setRoutingEntry routing with
    | error e =>
      refine ⟨nofun, fun hall => ?_⟩
      obtain ⟨c', hc'⟩ := hiff.mpr ⟨hall routing List.mem_cons_self, by omega⟩
      rw [hset] at hc'
      cases hc'
    | ok next =>
      obtain ⟨hrange, rfl⟩ := setRoutingEntry_eq_ok hset
      have hentries : (c.routingTable.set routing hrange).entries.length = _ :=
        RoutingTable.length_set hrange
      rw [hsame] at hentries
      rw [List.forall_mem_cons, and_iff_right hrange]
      refine ih hothers _ (fun e he later hlater => ?_) ?_
      · rcases (RoutingTable.mem_set hrange).mp he with rfl | hold
        · exact hfirst later hlater
        · exact hnew e (RoutingTable.mem_of_mem_others hold) later (List.mem_cons_of_mem _ hlater)
      · show (c.routingTable.set routing hrange).entries.length + routings.length ≤ _
        omega

/-- **A table of entries for different pairs** is accepted if there is room for it and all
entries are in range. -/
theorem initRoutingTable_eq_ok_iff (c : CrossfadingConvolverUniform q)
    {routings : List (RoutingEntry R)}
    (hdistinct : routings.Pairwise fun a b => ¬equivalentRoutings a b) :
    (c.initRoutingTable routings).2 = .ok () ↔
      (∀ routing ∈ routings, routing.inputIdx < q.core.numberOfInputs ∧
        routing.outputIdx < q.core.numberOfOutputs ∧
        routing.filterIdx < q.core.maxNumberOfFilterEntries) ∧
      routings.length ≤ q.maxNumberOfRoutingPoints := by
  unfold initRoutingTable
  simp only
  split
  next hlong => exact ⟨nofun, fun h => absurd h.2 (Nat.not_le.mpr hlong)⟩
  next hshort =>
    have hle := Nat.not_lt.mp hshort
    rw [setRoutingEntries_eq_ok_iff hdistinct c.clearRoutingTable
      (fun e he => absurd he List.not_mem_nil) ((Nat.zero_add _).trans_le hle)]
    exact ⟨fun h => ⟨h, hle⟩, fun h => h.1⟩

/-- What the constructor establishes. -/
theorem create_spec {initialRoutings : List (RoutingEntry R)} {initialFilters : BasicMatrix R}
    {c : CrossfadingConvolverUniform q} (h : create q initialRoutings initialFilters = .ok c) :
    (∃ core, CoreConvolverUniform.create q.core initialFilters = .ok core ∧
      c.coreConvolver = core) ∧
    c.Initialised ∧ (∀ f, c.currentFilterOutput f = 0) ∧
    (∀ f, c.currentRampBlock f = q.numRampBlocks - 1) ∧
    ∃ c₀ : CrossfadingConvolverUniform q,
      c₀.initRoutingTable initialRoutings = ({ c₀ with routingTable := c.routingTable }, .ok ()) := by
  obtain ⟨core, hcore, h⟩ := exists_of_bind_ok h
  obtain ⟨table, result, hinit⟩ := initRoutingTable_eq
    { coreConvolver := core, routingTable := .empty, currentFilterOutput := fun _ => 0,
      currentRampBlock := fun _ => q.numRampBlocks - 1, crossoverRamps := q.zeroRamps }
    initialRoutings
  simp only [hinit] at h
  cases result with
  | error e => cases h
  | ok _ =>
    obtain ⟨ramps, hramps, hc⟩ := exists_of_bind_ok h
    cases hc
    have hpos := q.numRampBlocks_pos
    exact ⟨⟨core, hcore, rfl⟩,
      ⟨CrossfadingParameters.initialiseRamps_ramps hramps, fun _ => Nat.sub_lt hpos Nat.one_pos⟩,
      fun _ => rfl, fun _ => rfl, _, hinit⟩

theorem holds_create {initialRoutings : List (RoutingEntry R)} {initialFilters : BasicMatrix R}
    {c : CrossfadingConvolverUniform q} (h : create q initialRoutings initialFilters = .ok c)
    (signal : ℕ → ℕ → R) : (⟨c, 0⟩ : Session q).Holds signal := by
  obtain ⟨⟨core, hcore, rfl⟩, hinit, -⟩ := create_spec h
  refine ⟨hinit, ?_⟩
  rw [Nat.zero_mul]
  exact (CoreConvolverUniform.create_holds hcore signal).2

/-- Without room for a coefficient, the first block is never finished. -/
theorem process_of_noPartitions {c : CrossfadingConvolverUniform q} {signal : ℕ → ℕ → R}
    {time : ℕ} (hinputs : c.coreConvolver.HoldsInputs signal time)
    (hlength : ¬0 < q.core.maxFilterLength) (input : ℕ → ℕ → R) (output : OutputBuffer R) :
    c.process input output = (c, .error .divisionByZero) := by
  have hparts : q.core.numberOfFilterPartitions = 0 := Nat.eq_zero_of_not_pos fun hpos =>
    hlength ((MultichannelConvolverUniform.numberOfFilterPartitions_pos_iff q.core).mp hpos)
  unfold process
  rw [CoreConvolverUniform.processInputs_of_noPartitions hinputs hparts]

/-- Replacing a filter does not touch the inputs and the ramps. -/
theorem switchFilter_initialised {c c' : CrossfadingConvolverUniform q}
    {load : ℕ → Except Exception (CoreConvolverUniform q.core)} {filterIdx : ℕ}
    {startTransition : Bool} (hc : c.Initialised)
    (h : c.switchFilter load filterIdx startTransition = .ok c') : c'.Initialised := by
  obtain ⟨-, core, -, rfl⟩ := switchFilter_eq_ok h
  refine ⟨hc.ramps, fun f => ?_⟩
  show (if startTransition then Function.update c.currentRampBlock filterIdx 0
    else c.currentRampBlock) f < _
  cases startTransition with
  | false => exact hc.rampBlock f
  | true =>
    by_cases hf : f = filterIdx
    · subst hf
      simpa using q.numRampBlocks_pos
    · simpa [Function.update_of_ne hf] using hc.rampBlock f

theorem setImpulseResponse_inputs {c c' : CrossfadingConvolverUniform q} {r : ImpulseResponse R}
    {filterIdx : ℕ} {startTransition : Bool}
    (h : c.setImpulseResponse r filterIdx startTransition = .ok c') :
    CoreConvolverUniform.SameInputs c.coreConvolver c'.coreConvolver := by
  obtain ⟨-, core, hload, rfl⟩ := switchFilter_eq_ok h
  exact CoreConvolverUniform.setImpulseResponse_inputs hload

theorem setTransformedFilter_inputs {c c' : CrossfadingConvolverUniform q} {fdFilter : Pointer C}
    {filterIdx alignment : ℕ} {startTransition : Bool}
    (h : c.setTransformedFilter fdFilter filterIdx startTransition alignment = .ok c') :
    CoreConvolverUniform.SameInputs c.coreConvolver c'.coreConvolver := by
  obtain ⟨-, core, hload, rfl⟩ := switchFilter_eq_ok h
  rcases CoreConvolverUniform.setFilter_eq_ok hload with rfl | ⟨row, rfl⟩
  · exact CoreConvolverUniform.SameInputs.refl _
  · exact ⟨rfl, rfl, rfl⟩

theorem initFilters_state {c c' : CrossfadingConvolverUniform q} {newFilters : BasicMatrix R}
    {result : Except Exception Unit} (h : c.initFilters newFilters = (c', result)) :
    ∃ core, c' = { c with coreConvolver := core } ∧
      CoreConvolverUniform.SameInputs c.coreConvolver core ∧
      core.HoldsFilters fun f =>
        if result.isOk then
          CoreConvolverUniform.rowResponses newFilters newFilters.numberOfRows f
        else .none := by
  unfold initFilters at h
  split at h
  next core hcore =>
    cases h
    obtain ⟨hfilters, hinputs⟩ := CoreConvolverUniform.initFilters_holds hcore
    exact ⟨core, rfl, hinputs, hfilters⟩
  · cases h
    exact ⟨_, rfl, ⟨rfl, rfl, rfl⟩, CoreConvolverUniform.clearFilters_holds _⟩

/-- The routing table is all that the calls for routings change. -/
theorem Session.call_setRoutingEntry (signal : ℕ → ℕ → R) (s : Session q)
    (routing : RoutingEntry R) : ∃ table, (s.call signal (.setRoutingEntry routing)).1 =
      { s with convolver := { s.convolver with routingTable := table } } := by
  simp only [Session.call]
  cases hset : s.convolver.setRoutingEntry routing with
  | error e => exact ⟨s.convolver.routingTable, rfl⟩
  | ok c =>
    obtain ⟨hrange, rfl⟩ := setRoutingEntry_eq_ok hset
    exact ⟨s.convolver.routingTable.set routing hrange, rfl⟩

theorem Session.call_initRoutingTable (signal : ℕ → ℕ → R) (s : Session q)
    (routings : List (RoutingEntry R)) : ∃ table, (s.call signal (.initRoutingTable routings)).1 =
      { s with convolver := { s.convolver with routingTable := table } } := by
  obtain ⟨table, outcome, hset⟩ := initRoutingTable_eq s.convolver routings
  refine ⟨table, ?_⟩
  simp only [Session.call, hset]
  cases outcome <;> rfl

/-- **Every call** keeps what has been received. -/
theorem Session.Holds.step {signal : ℕ → ℕ → R} {s s' : Session q} (hs : s.Holds signal)
    {op : Operation R C} (h : s.step signal op = some s') : s'.Holds signal := by
  obtain ⟨result, hcall, hresult⟩ := Session.step_eq_some h
  obtain ⟨hinit, hinputs⟩ := hs
  -- calls other than `process` do not touch the stored inputs
  cases op with
  | setRoutingEntry routing =>
    simp only [Session.call] at hcall
    cases hset : s.convolver.setRoutingEntry routing with
    | error e =>
      rw [hset] at hcall
      cases hcall
      exact ⟨hinit, hinputs⟩
    | ok c =>
      rw [hset] at hcall
      cases hcall
      obtain ⟨hrange, rfl⟩ := setRoutingEntry_eq_ok hset
      exact ⟨⟨hinit.ramps, hinit.rampBlock⟩, hinputs⟩
  | removeRoutingEntry inputIdx outputIdx =>
    cases hcall
    exact ⟨⟨hinit.ramps, hinit.rampBlock⟩, hinputs⟩
  | clearRoutingTable =>
    cases hcall
    exact ⟨⟨hinit.ramps, hinit.rampBlock⟩, hinputs⟩
  | initRoutingTable routings =>
    obtain ⟨table, outcome, hset⟩ := initRoutingTable_eq s.convolver routings
    simp only [Session.call, hset] at hcall
    cases outcome <;> cases hcall <;> exact ⟨⟨hinit.ramps, hinit.rampBlock⟩, hinputs⟩
  | clearFilters =>
    cases hcall
    exact ⟨⟨hinit.ramps, hinit.rampBlock⟩, hinputs.of_same ⟨rfl, rfl, rfl⟩⟩
  | initFilters newFilters =>
    simp only [Session.call] at hcall
    cases hload : s.convolver.initFilters newFilters with
    | mk c outcome =>
      obtain ⟨core, rfl, hsame, -⟩ := initFilters_state hload
      rw [hload] at hcall
      cases outcome <;> cases hcall <;>
        exact ⟨⟨hinit.ramps, hinit.rampBlock⟩, hinputs.of_same hsame⟩
  | setImpulseResponse r filterIdx startTransition =>
    simp only [Session.call] at hcall
    cases hset : s.convolver.setImpulseResponse r filterIdx startTransition with
    | error fault =>
      rw [hset] at hcall
      cases hcall
      exact ⟨hinit, hinputs⟩
    | ok c =>
      rw [hset] at hcall
      cases hcall
      exact ⟨switchFilter_initialised hinit hset,
        hinputs.of_same (setImpulseResponse_inputs hset)⟩
  | setTransformedFilter fdFilter filterIdx startTransition alignment =>
    simp only [Session.call] at hcall
    cases hset : s.convolver.setTransformedFilter fdFilter filterIdx startTransition alignment with
    | error fault =>
      rw [hset] at hcall
      cases hcall
      exact ⟨hinit, hinputs⟩
    | ok c =>
      rw [hset] at hcall
      cases hcall
      exact ⟨switchFilter_initialised hinit hset,
        hinputs.of_same (setTransformedFilter_inputs hset)⟩
  | process output =>
    by_cases hlength : 0 < q.core.maxFilterLength
    · simp only [Session.call] at hcall
      cases hprocess : s.convolver.process (s.inputBlock signal) output with
      | mk c outcome =>
        obtain ⟨hinit', hinputs', -⟩ := process_state hinit hinputs hlength hprocess
        rw [hprocess] at hcall
        -- the next block has been received
        have hblocks : s.blocks * q.core.blockLength + q.core.blockLength =
            (s.blocks + 1) * q.core.blockLength := (Nat.succ_mul _ _).symm
        rw [hblocks] at hinputs'
        cases outcome <;> cases hcall <;> exact ⟨hinit', hinputs'⟩
    · simp only [Session.call, process_of_noPartitions hinputs hlength] at hcall
      cases hcall
      obtain ⟨e, he⟩ := hresult _ rfl
      cases he

theorem Session.holds_exec {signal : ℕ → ℕ → R} {s s' : Session q} (hs : s.Holds signal)
    {ops : List (Operation R C)} (h : exec (Session.step signal) ops s = some s') :
    s'.Holds signal :=
  exec_invariant (P := fun _ _ => True) (fun _ _ _ _ hs hstep => hs.step hstep)
    (throughout_of_forall (fun _ _ => trivial) s) hs h

/-! ### Index safety -/

/-- All routing entries refer to inputs, outputs and filters that exist. -/
def IndicesValid (c : CrossfadingConvolverUniform q) : Prop :=
  ∀ e ∈ c.routingTable.entries, e.inputIdx < q.core.numberOfInputs ∧
    e.outputIdx < q.core.numberOfOutputs ∧ e.filterIdx < q.maxNumFilters

/-- The filter index of a routing entry is that of a filter, or is refused. -/
def FilterIndexSafe (q : CrossfadingParameters R C) (routing : RoutingEntry R) : Prop :=
  routing.filterIdx < q.maxNumFilters ∨ 2 * q.maxNumFilters ≤ routing.filterIdx

/-- A call whose filter index is not that of the second version of a filter, or which is
refused for another reason. -/
def Operation.IndexSafe (op : Operation R C) (s : Session q) : Prop :=
  match op with
  | .setRoutingEntry routing => FilterIndexSafe q routing ∨
      q.core.numberOfInputs ≤ routing.inputIdx ∨ q.core.numberOfOutputs ≤ routing.outputIdx ∨
      q.maxNumberOfRoutingPoints ≤ (s.convolver.routingTable.others routing).length
  | .initRoutingTable routings => ∀ routing ∈ routings, FilterIndexSafe q routing
  | .setImpulseResponse _ filterIdx _ => filterIdx < q.maxNumFilters
  | .setTransformedFilter _ filterIdx _ _ => filterIdx < q.maxNumFilters
  | .process _ => 0 < q.core.maxFilterLength
  | _ => True

theorem IndicesValid.set {c c' : CrossfadingConvolverUniform q} (hc : c.IndicesValid)
    {routing : RoutingEntry R} (h : c.setRoutingEntry routing = .ok c')
    (hfilter : FilterIndexSafe q routing) : c'.IndicesValid := by
  obtain ⟨hrange, rfl⟩ := setRoutingEntry_eq_ok h
  intro e he
  rcases List.mem_cons.mp ((RoutingTable.insertEntry_perm routing _).mem_iff.mp he) with rfl | hmem
  · have hlt := hrange.2.2
    rw [q.core_filters] at hlt
    refine ⟨hrange.1, hrange.2.1, hfilter.resolve_right ?_⟩
    omega
  · exact hc e (RoutingTable.mem_of_mem_others hmem)

theorem IndicesValid.setEntries {routings : List (RoutingEntry R)}
    (hrouting : ∀ routing ∈ routings, FilterIndexSafe q routing) :
    ∀ {c c' : CrossfadingConvolverUniform q} {result : Except Exception Unit}, c.IndicesValid →
      c.setRoutingEntries routings = (c', result) → c'.IndicesValid := by
  induction routings with
  | nil =>
    intro c c' result hc h
    cases h
    exact hc
  | cons routing routings ih =>
    intro c c' result hc h
    obtain ⟨hfirst, hothers⟩ := List.forall_mem_cons.mp hrouting
    unfold setRoutingEntries at h
    split at h
    next next hset => exact ih hothers (hc.set hset hfirst) h
    · cases h
      exact hc

theorem indicesValid_clear (c : CrossfadingConvolverUniform q) :
    c.clearRoutingTable.IndicesValid := by
  intro e he
  cases he

theorem IndicesValid.init {c c' : CrossfadingConvolverUniform q}
    {routings : List (RoutingEntry R)} {result : Except Exception Unit}
    (h : c.initRoutingTable routings = (c', result))
    (hrouting : ∀ routing ∈ routings, FilterIndexSafe q routing) : c'.IndicesValid := by
  unfold initRoutingTable at h
  simp only at h
  split at h
  · cases h
    exact indicesValid_clear c
  · exact IndicesValid.setEntries hrouting (indicesValid_clear c) h

/-- The outcome of a call that may only fail by an exception. -/
theorem Session.step_attempt {signal : ℕ → ℕ → R} {op : Operation R C} {s : Session q}
    {result : Except Fault (CrossfadingConvolverUniform q)} (hcall : s.call signal op =
      s.attempt result) {P : CrossfadingConvolverUniform q → Prop} (hs : P s.convolver)
    (hok : ∀ c, result = .ok c → P c)
    (herror : ∀ fault, result = .error fault → ∃ e, fault = .thrown e) :
    ∃ s', s.step signal op = some s' ∧ P s'.convolver := by
  unfold Session.step
  rw [hcall]
  cases result with
  | ok c => exact ⟨_, rfl, hok c rfl⟩
  | error fault =>
    obtain ⟨e, rfl⟩ := herror fault rfl
    exact ⟨s, rfl, hs⟩

theorem Session.step_always {signal : ℕ → ℕ → R} {op : Operation R C} {s : Session q}
    {c : CrossfadingConvolverUniform q} {result : Except Exception Unit}
    (hcall : s.call signal op = s.always (c, result)) :
    s.step signal op = some { s with convolver := c } := by
  unfold Session.step
  rw [hcall]
  cases result <;> rfl

/-- **One call.**  A safe call returns or throws an exception, and all routing entries refer
to existing filters after it. -/
theorem step_indices {signal : ℕ → ℕ → R} {s : Session q} (hs : s.Holds signal)
    (hvalid : s.convolver.IndicesValid) {op : Operation R C} (hop : op.IndexSafe s) :
    ∃ s', s.step signal op = some s' ∧ s'.convolver.IndicesValid := by
  cases op with
  | setRoutingEntry routing =>
    refine Session.step_attempt rfl hvalid (fun c hc => ?_) (fun fault hfault => ?_)
    · cases hset : s.convolver.setRoutingEntry routing with
      | error e =>
        rw [hset] at hc
        cases hc
      | ok next =>
        rw [hset] at hc
        cases hc
        -- an unsafe entry is only harmless if it is refused
        rcases hop with hsafe | hin | hout | hfull
        · exact hvalid.set hset hsafe
        · rw [setRoutingEntry, dif_pos hin] at hset
          cases hset
        · obtain ⟨hrange, -⟩ := setRoutingEntry_eq_ok hset
          exact absurd hrange.2.1 (Nat.not_lt.mpr hout)
        · obtain ⟨hrange, -⟩ := setRoutingEntry_eq_ok hset
          rw [setRoutingEntry, dif_neg (Nat.not_le.mpr hrange.1),
            dif_neg (Nat.not_le.mpr hrange.2.1), dif_neg (Nat.not_le.mpr hrange.2.2),
            if_pos hfull] at hset
          cases hset
    · cases hset : s.convolver.setRoutingEntry routing with
      | error e =>
        rw [hset] at hfault
        cases hfault
        exact ⟨e, rfl⟩
      | ok next =>
        rw [hset] at hfault
        cases hfault
  | removeRoutingEntry inputIdx outputIdx =>
    exact ⟨_, rfl, fun e he => hvalid e (List.mem_of_mem_filter he)⟩
  | clearRoutingTable => exact ⟨_, rfl, indicesValid_clear _⟩
  | initRoutingTable routings =>
    cases hinit : s.convolver.initRoutingTable routings with
    | mk c result =>
      have hcall : s.call signal (.initRoutingTable routings) = s.always (c, result) :=
        congrArg s.always hinit
      exact ⟨_, Session.step_always hcall, IndicesValid.init hinit hop⟩
  | clearFilters => exact ⟨_, rfl, hvalid⟩
  | initFilters newFilters =>
    cases hinit : s.convolver.initFilters newFilters with
    | mk c result =>
      have hcall : s.call signal (.initFilters newFilters) = s.always (c, result) :=
        congrArg s.always hinit
      obtain ⟨core, rfl, -⟩ := initFilters_state hinit
      exact ⟨_, Session.step_always hcall, hvalid⟩
  | setImpulseResponse r filterIdx startTransition =>
    refine Session.step_attempt rfl hvalid (fun c hc => ?_)
      (fun fault hfault => switchFilter_thrown hop hfault)
    obtain ⟨-, core, -, rfl⟩ := switchFilter_eq_ok hc
    exact hvalid
  | setTransformedFilter fdFilter filterIdx startTransition alignment =>
    refine Session.step_attempt rfl hvalid (fun c hc => ?_)
      (fun fault hfault => switchFilter_thrown hop hfault)
    obtain ⟨-, core, -, rfl⟩ := switchFilter_eq_ok hc
    exact hvalid
  | process output =>
    cases hprocess : s.convolver.process (s.inputBlock signal) output with
    | mk c result =>
      obtain ⟨-, -, htable, -⟩ := process_state hs.initialised hs.inputs hop hprocess
      have hvalid' : c.IndicesValid := by
        intro e he
        rw [htable] at he
        exact hvalid e he
      -- valid indices keep the block from accessing anything outside
      refine ⟨⟨c, s.blocks + 1⟩, ?_, hvalid'⟩
      unfold Session.step
      simp only [Session.call, hprocess]
      cases result with
      | ok samples => rfl
      | error fault =>
        obtain ⟨e, rfl⟩ := process_thrown hs.inputs hop (fun e he => (hvalid e he).2.2) hprocess
        rfl

/-- A call that keeps the indices valid is safe. -/
theorem indexSafe_of_step {signal : ℕ → ℕ → R} {s s' : Session q} (hs : s.Holds signal)
    {op : Operation R C} (hop : ∀ routings, op ≠ .initRoutingTable routings)
    (h : s.step signal op = some s') (hvalid : s'.convolver.IndicesValid) : op.IndexSafe s := by
  obtain ⟨result, hcall, hresult⟩ := Session.step_eq_some h
  -- an element that does not exist is no exception, so the call would have no result
  have hindex : ∀ (load : ℕ → Except Exception (CoreConvolverUniform q.core)) (filterIdx : ℕ)
      (startTransition : Bool), s.attempt
        (s.convolver.switchFilter load filterIdx startTransition) = (s', result) →
      filterIdx < q.maxNumFilters := by
    intro load filterIdx startTransition hattempt
    by_contra hge
    have hfault : s.convolver.switchFilter load filterIdx startTransition = .error .outOfRange := by
      simp only [switchFilter, elementAt, if_neg hge, bind, Except.bind]
    rw [hfault] at hattempt
    cases hattempt
    obtain ⟨e, he⟩ := hresult _ rfl
    cases he
  cases op with
  | setRoutingEntry routing =>
    by_contra hunsafe
    simp only [Operation.IndexSafe, FilterIndexSafe, not_or, Nat.not_le, Nat.not_lt] at hunsafe
    obtain ⟨⟨hbelow, habove⟩, hin, hout, hroom⟩ := hunsafe
    have hfilter : routing.filterIdx < q.core.maxNumberOfFilterEntries := by
      rw [q.core_filters]
      exact habove
    -- the entry is accepted up to twice the number of filters, and would not be valid
    have hset : s.convolver.setRoutingEntry routing = .ok { s.convolver with
        routingTable := s.convolver.routingTable.set routing ⟨hin, hout, hfilter⟩ } := by
      rw [setRoutingEntry, dif_neg (Nat.not_le.mpr hin), dif_neg (Nat.not_le.mpr hout),
        dif_neg (Nat.not_le.mpr hfilter), if_neg (Nat.not_le.mpr hroom)]
    simp only [Session.call, hset] at hcall
    cases hcall
    have hmem : routing ∈ (s.convolver.routingTable.set routing ⟨hin, hout, hfilter⟩).entries :=
      (RoutingTable.insertEntry_perm routing _).mem_iff.mpr List.mem_cons_self
    exact absurd (hvalid routing hmem).2.2 (Nat.not_lt.mpr hbelow)
  | initRoutingTable routings => exact absurd rfl (hop routings)
  | setImpulseResponse r filterIdx startTransition => exact hindex _ filterIdx _ hcall
  | setTransformedFilter fdFilter filterIdx startTransition alignment =>
    exact hindex _ filterIdx _ hcall
  | process output =>
    by_contra hlength
    simp only [Session.call, process_of_noPartitions hs.inputs hlength] at hcall
    cases hcall
    obtain ⟨e, he⟩ := hresult _ rfl
    cases he
  | removeRoutingEntry _ _ => exact trivial
  | clearRoutingTable => exact trivial
  | clearFilters => exact trivial
  | initFilters _ => exact trivial

theorem indicesValid_create {initialRoutings : List (RoutingEntry R)}
    {initialFilters : BasicMatrix R} {c : CrossfadingConvolverUniform q}
    (h : create q initialRoutings initialFilters = .ok c)
    (hinitial : ∀ routing ∈ initialRoutings, routing.filterIdx < q.maxNumFilters) :
    c.IndicesValid := by
  obtain ⟨-, -, -, -, c₀, hinit⟩ := create_spec h
  have hvalid := IndicesValid.init hinit fun routing hmem => Or.inl (hinitial routing hmem)
  exact hvalid

/-- Every beginning of a run ends in a state in which all routing entries refer to existing
inputs, outputs and filters, and has not accessed anything outside an array. -/
def RunsSafely (signal : ℕ → ℕ → R) (s₀ : Session q) (ops : List (Operation R C)) : Prop :=
  ∀ l, l <+: ops → ∃ s, exec (Session.step signal) l s₀ = some s ∧ s.convolver.IndicesValid

theorem runsSafely_cons {signal : ℕ → ℕ → R} {s₀ s₁ : Session q} {op : Operation R C}
    {ops : List (Operation R C)} (hvalid : s₀.convolver.IndicesValid)
    (hstep : s₀.step signal op = some s₁) :
    RunsSafely signal s₀ (op :: ops) ↔ RunsSafely signal s₁ ops := by
  constructor
  · intro h l hl
    obtain ⟨s, hexec, hs⟩ := h (op :: l) (List.cons_prefix_cons.mpr ⟨rfl, hl⟩)
    obtain ⟨next, hnext, hrest⟩ := exec_cons_eq_some.mp hexec
    cases hstep.symm.trans hnext
    exact ⟨s, hrest, hs⟩
  · intro h l hl
    cases l with
    | nil => exact ⟨s₀, rfl, hvalid⟩
    | cons op' l =>
      obtain ⟨rfl, hrest⟩ := List.cons_prefix_cons.mp hl
      obtain ⟨s, hexec, hs⟩ := h l hrest
      exact ⟨s, exec_cons_eq_some.mpr ⟨s₁, hstep, hexec⟩, hs⟩

/-- **Index safety.**  If no call of a run is given the index of a second version of a
filter, then all accesses remain within the arrays; the calls of a run that remains within
the arrays are of this kind, its initialisations of the routing table apart. -/
theorem run_indicesValid {initialRoutings : List (RoutingEntry R)}
    {initialFilters : BasicMatrix R} {c₀ : CrossfadingConvolverUniform q}
    (hcreate : create q initialRoutings initialFilters = .ok c₀)
    (hinitial : ∀ routing ∈ initialRoutings, routing.filterIdx < q.maxNumFilters)
    (signal : ℕ → ℕ → R) (ops : List (Operation R C)) :
    (Throughout (Session.step signal) Operation.IndexSafe ops ⟨c₀, 0⟩ →
      RunsSafely signal ⟨c₀, 0⟩ ops) ∧
    ((∀ op ∈ ops, ∀ routings, op ≠ .initRoutingTable routings) →
      RunsSafely signal ⟨c₀, 0⟩ ops →
      Throughout (Session.step signal) Operation.IndexSafe ops ⟨c₀, 0⟩) := by
  have hstart : (⟨c₀, 0⟩ : Session q).Holds signal := holds_create hcreate signal
  have hvalid : (⟨c₀, 0⟩ : Session q).convolver.IndicesValid :=
    indicesValid_create hcreate hinitial
  -- the induction is over the calls, from any state in which all indices are valid
  generalize (⟨c₀, 0⟩ : Session q) = s at hstart hvalid ⊢
  induction ops generalizing s with
  | nil =>
    refine ⟨fun _ l hl => ?_, fun _ _ => trivial⟩
    obtain rfl := List.prefix_nil.mp hl
    exact ⟨s, rfl, hvalid⟩
  | cons op ops ih =>
    constructor
    · rintro ⟨hop, hops⟩
      obtain ⟨s₁, hstep, hvalid₁⟩ := step_indices hstart hvalid hop
      rw [runsSafely_cons hvalid hstep]
      exact (ih s₁ (hstart.step hstep) hvalid₁).1 (hops s₁ hstep)
    · intro hkinds hruns
      obtain ⟨hkind, hkinds⟩ := List.forall_mem_cons.mp hkinds
      obtain ⟨s₁, hexec, hvalid₁⟩ := hruns [op] (List.cons_prefix_cons.mpr ⟨rfl, List.nil_prefix⟩)
      rw [exec_singleton] at hexec
      refine ⟨indexSafe_of_step hstart hkind hexec hvalid₁, fun s₂ hs₂ => ?_⟩
      cases hexec.symm.trans hs₂
      exact (ih s₁ (hstart.step hexec) hvalid₁).2 hkinds ((runsSafely_cons hvalid hexec).mp hruns)

/-- One filter with a single coefficient, for blocks of one sample. -/
noncomputable def singleParameters (transitionSamples : ℕ) : CrossfadingParameters ℝ ℂ :=
  .ofArguments
    { alignment := 0
      numberOfInputs := 1
      numberOfOutputs := 1
      blockLength := 1
      maxFilterLength := 1
      maxNumberOfFilterEntries := 1
      fftRepresentation :=
        FftWrapper.unscaled (calculateDftSize 1) (by decide)
      blockLength_pos := by decide }
    1 1 transitionSamples

/-- A gain in the place of an impulse response. -/
def gainResponse (gain : ℝ) : ImpulseResponse ℝ := ⟨⟨0, fun _ => gain⟩, 1, 0⟩

def gainMatrix (gain : ℝ) : BasicMatrix ℝ := ⟨1, 1, 0, 0, fun _ _ => gain⟩

def silentBuffer : OutputBuffer ℝ := ⟨0, 0, 0, fun _ _ => 0⟩

/-- Setting and processing an existing filter. -/
theorem run_indicesValid_single : ∃ c₀, create (singleParameters 2) [] (gainMatrix 1) = .ok c₀ ∧
    RunsSafely (fun _ _ => 1) ⟨c₀, 0⟩ [.setRoutingEntry ⟨0, 0, 0, 1⟩,
      .setImpulseResponse (gainResponse 2) 0 true, .process silentBuffer] := by
  obtain ⟨c₀, hcreate⟩ : ∃ c₀, create (singleParameters 2) [] (gainMatrix 1) = .ok c₀ := ⟨_, rfl⟩
  refine ⟨c₀, hcreate, (run_indicesValid hcreate (by simp) _ _).1 ?_⟩
  refine ⟨Or.inl (Or.inl Nat.one_pos), fun _ _ => ⟨Nat.one_pos, fun _ _ => ⟨?_, fun _ _ => ?_⟩⟩⟩
  · exact Nat.one_pos
  · exact trivial

/-- The index of the second version of the only filter is accepted, and the next block
accesses the element after the last one. -/
theorem setRoutingEntry_secondVersion :
    ∃ c₀ s, create (singleParameters 2) [] (gainMatrix 1) = .ok c₀ ∧
      Session.step (fun _ _ => 1) (.setRoutingEntry ⟨0, 0, 1, 1⟩) ⟨c₀, 0⟩ = some s ∧
      s.convolver ≠ c₀ ∧ ¬s.convolver.IndicesValid ∧
      (s.call (fun _ _ => 1) (.process silentBuffer)).2 = some .outOfRange := by
  obtain ⟨c₀, s, hcreate, htable₀, hstep, hcore, htable⟩ :
      ∃ c₀ s, create (singleParameters 2) [] (gainMatrix 1) = .ok c₀ ∧
        c₀.routingTable.entries = [] ∧
        Session.step (fun _ _ => 1) (.setRoutingEntry ⟨0, 0, 1, 1⟩) ⟨c₀, 0⟩ = some s ∧
        s.convolver.coreConvolver = c₀.coreConvolver ∧
        s.convolver.routingTable.entries = [⟨0, 0, 1, 1⟩] := ⟨_, _, rfl, rfl, rfl, rfl, rfl⟩
  have hs : s.Holds fun _ _ => (1 : ℝ) := (holds_create hcreate _).step hstep
  refine ⟨c₀, s, hcreate, hstep, ?_, ?_, ?_⟩
  · intro heq
    rw [heq, htable₀] at htable
    cases htable
  · intro hvalid
    have hmem : (⟨0, 0, 1, 1⟩ : RoutingEntry ℝ) ∈ s.convolver.routingTable.entries := by
      rw [htable]
      exact List.mem_cons_self
    exact absurd (hvalid _ hmem).2.2 (Nat.lt_irrefl 1)
  · -- the block fails with the routing of the entry, after the inputs have been processed
    obtain ⟨core, -, -, hprocess⟩ := process_eq hs.inputs (by decide) silentBuffer
    have hfault : ({ s.convolver with coreConvolver := core } : CrossfadingConvolverUniform
        (singleParameters 2)).processOutputs silentBuffer = .error .outOfRange := by
      unfold processOutputs
      rw [htable]
      rfl
    rw [hfault] at hprocess
    have hcall : s.convolver.process (s.inputBlock fun _ _ => 1) silentBuffer =
        ({ s.convolver with coreConvolver := core }, .error .outOfRange) := hprocess
    simp only [Session.call, hcall]

end CrossfadingConvolverUniform

end Visr
