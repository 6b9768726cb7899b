import Visr.Librcl.InterpolatingFirFilterMatrix

/-!
# Updates of filters

The filter matrices take messages from their queues until one is refused.  Such a message is
reported, but it is not removed: it is met again in the next call.

## Main results

* `filterMatrices_consumeOnce` — **each message is applied once**, in runs without messages that
  are refused.
-/

namespace Visr

open Execution Consumption MessageLoop

variable {R C : Type} [Field R] [CommRing C] [Algebra R C]

/-! ### Messages that are refused -/

namespace FirFilterMatrix

variable {p : ConvolverParameters R C} {maxRoutings : ℕ}

/-- A filter that is refused is the next one in its queue. -/
abbrev FilterBlocked : FirFilterMatrix p maxRoutings → Prop :=
  Blocked setFilterInput convolver .filter apply

/-- A filter whose index or length is out of range is refused. -/
theorem apply_filter_of_invalid {m : IndexedValueParameter R}
    {c : MultichannelConvolverUniform p maxRoutings} (h : ¬Valid (.filter m) c) :
    ∃ e, apply (.filter m) c = (c, .error (.thrown e)) := by
  cases hcore : c.coreConvolver.setImpulseResponse m.response m.index with
  | ok core =>
    exact absurd ((c.coreConvolver.setImpulseResponse_eq_ok_iff _ _).mp ⟨core, hcore⟩) h
  | error e =>
    refine ⟨e, ?_⟩
    simp only [apply, setFilter, MultichannelConvolverUniform.setImpulseResponse, hcore, bind,
      Except.bind, Except.mapError, attempt]

/-- **A call of a blocked component** reports the message again and does nothing else. -/
theorem process_of_blocked {s : FirFilterMatrix p maxRoutings} (h : s.FilterBlocked)
    (input : ℕ → ℕ → R) :
    ∃ m e, process input s = ⟨s, [.reported (.filter m)], .error (.thrown e)⟩ := by
  obtain ⟨m, e, hfilters⟩ := h.takeMessages
    (fun s queue c => { s with setFilterInput := some queue, convolver := c })
    (fun s => report s.fullName "FirFilterMatrix: Error while setting new filter: ") ⟨false, true⟩
    (fun queue hqueue => by rw [← hqueue])
  change s.setNewFilters = _ at hfilters
  exact ⟨m, e, by simp only [process, takeAll, Stage.andThen, Stage.finish, hfilters]⟩

/-- A filter that is refused blocks the component. -/
theorem filterBlocked_enqueue {s : FirFilterMatrix p maxRoutings}
    {queue : MessageQueueProtocol (IndexedValueParameter R)} {m : IndexedValueParameter R}
    (hqueue : queue.elements = []) (h : ¬Valid (.filter m) s.convolver) :
    FilterBlocked { s with setFilterInput := some (queue.enqueue m) } := by
  obtain ⟨e, he⟩ := apply_filter_of_invalid h
  exact ⟨_, m, [], e, rfl, by simp [hqueue], he⟩

end FirFilterMatrix

namespace CrossfadingFirFilterMatrix

variable {q : CrossfadingParameters R C}

abbrev FilterBlocked : CrossfadingFirFilterMatrix q → Prop :=
  Blocked setFilterInput convolver id apply

/-- An impulse response that is too long is refused. -/
theorem apply_of_tooLong {m : IndexedValueParameter R} {c : CrossfadingConvolverUniform q}
    (hindex : m.index < q.maxNumFilters) (hlength : q.core.maxFilterLength < m.value.length) :
    ∃ e, apply m c = (c, .error (.thrown e)) := by
  cases hset : setFilter c m with
  | ok c' =>
    obtain ⟨-, core, hload, -⟩ := CrossfadingConvolverUniform.switchFilter_eq_ok hset
    have hvalid := (c.coreConvolver.setImpulseResponse_eq_ok_iff _ _).mp ⟨core, hload⟩
    exact absurd hvalid.2 (Nat.not_le.mpr hlength)
  | error fault =>
    obtain ⟨e, rfl⟩ := CrossfadingConvolverUniform.switchFilter_thrown hindex hset
    exact ⟨e, by simp only [apply, hset, attempt]⟩

/-- **A call of a blocked component** reports the message again and does nothing else. -/
theorem process_of_blocked {s : CrossfadingFirFilterMatrix q} (h : s.FilterBlocked)
    (block : AudioBlock R) :
    ∃ m e, process block s = ⟨s, [.reported m], .error (.thrown e)⟩ := by
  obtain ⟨m, e, hfilters⟩ := h.takeMessages
    (fun s queue c => { s with setFilterInput := some queue, convolver := c })
    (fun s => report s.fullName "CrossfadingFirFilterMatrix: Error while setting new filter: ")
    ⟨false, true⟩
    (fun queue hqueue => by rw [← hqueue])
  change s.setNewFilters = _ at hfilters
  exact ⟨m, e, by simp only [process, Stage.finish, hfilters, id]⟩

/-- A filter that is too long blocks the component. -/
theorem filterBlocked_enqueue {s : CrossfadingFirFilterMatrix q}
    {queue : MessageQueueProtocol (IndexedValueParameter R)} {m : IndexedValueParameter R}
    (hqueue : queue.elements = []) (hindex : m.index < q.maxNumFilters)
    (hlength : q.core.maxFilterLength < m.value.length) :
    FilterBlocked { s with setFilterInput := some (queue.enqueue m) } := by
  obtain ⟨e, he⟩ := apply_of_tooLong hindex hlength
  exact ⟨_, m, [], e, rfl, by simp [hqueue], he⟩

end CrossfadingFirFilterMatrix

namespace InterpolatingFirFilterMatrix

variable {q : InterpolatingParameters R C}

/-- A filter that is refused is the next one in its queue. -/
abbrev FilterBlocked : InterpolatingFirFilterMatrix q → Prop :=
  Blocked setFilterInput convolver .filter apply

/-- An interpolant that is refused is the next one in its queue. -/
abbrev InterpolantBlocked : InterpolatingFirFilterMatrix q → Prop :=
  Blocked interpolantInput convolver .interpolant apply

/-- An interpolant that does not pass the checks is refused. -/
theorem apply_interpolant_of_not_passes (param : InterpolationParameter R)
    (c : InterpolatingConvolverUniform q)
    (h : ¬InterpolatingConvolverUniform.Passes q param) :
    ∃ e, apply (.interpolant param) c = (c, .error (.thrown e)) := by
  obtain ⟨e, hset⟩ := c.setInterpolant_of_not_passes h true
  exact ⟨e, by simp only [apply, hset, attempt]⟩

/-- The same for an interpolant, if there is no input for filters. -/
theorem process_of_interpolantBlocked {s : InterpolatingFirFilterMatrix q}
    (h : s.InterpolantBlocked) (hnone : s.setFilterInput = none) (block : AudioBlock R) :
    ∃ m e, process block s = ⟨s, [.reported (.interpolant m)], .error (.thrown e)⟩ := by
  obtain ⟨m, e, hinterpolants⟩ := h.takeMessages
    (fun s queue c => { s with interpolantInput := some queue, convolver := c })
    (fun s => report s.fullName
      "InterpolatingFirFilterMatrix: Error while setting new interpolant: ") ⟨true, true⟩
    (fun queue hqueue => by rw [← hqueue])
  change s.setNewInterpolants = _ at hinterpolants
  have hfilters : s.setNewFilters = ⟨s, [], none⟩ := by
    simp only [setNewFilters, takeMessages, hnone]
  refine ⟨m, e, ?_⟩
  simp only [process, takeAll, Stage.andThen, Stage.finish, hfilters, hinterpolants,
    List.nil_append]

end InterpolatingFirFilterMatrix

/-! ### Runs without messages that are refused -/

theorem FirFilterMatrix.operating_create {p : ConvolverParameters R C} {maxRoutings : ℕ}
    {fullName : String} {filters : BasicMatrix R} {routings : FilterRoutingList R}
    {controlInputs : FirFilterMatrix.ControlPortConfig} {s : FirFilterMatrix p maxRoutings}
    (h : create fullName p maxRoutings filters routings controlInputs = .ok s) :
    s.convolver.Operating ∧ ∀ i, s.pending i = [] := by
  obtain ⟨convolver, hconvolver, heq⟩ := exists_of_bind_ok h
  cases heq
  have hholds := (MultichannelConvolverUniform.Configured.create _ _ hconvolver).holds
    fun _ _ => 0
  refine ⟨⟨_, _, _, hholds⟩, ?_⟩
  · intro i
    obtain ⟨hasFilters, hasRoutings, hasAllRoutings⟩ := controlInputs
    cases i with
    | filterInput => cases hasFilters <;> rfl
    | allRoutings => cases hasAllRoutings <;> rfl
    | singleRouting => cases hasRoutings <;> rfl

theorem CrossfadingFirFilterMatrix.operating_create {q : CrossfadingParameters R C}
    {fullName : String} {filters : BasicMatrix R} {routings : FilterRoutingList R}
    {controlInputs : CrossfadingFirFilterMatrix.ControlPortConfig}
    {s : CrossfadingFirFilterMatrix q}
    (h : create fullName q filters routings controlInputs = .ok s)
    (hfilters : ∀ routing ∈ routings, routing.filterIndex < q.maxNumFilters) :
    s.convolver.Operating ∧ pendingMessages s.setFilterInput = [] := by
  obtain ⟨convolver, hconvolver, heq⟩ := exists_of_bind_ok h
  cases heq
  refine ⟨CrossfadingConvolverUniform.operating_create hconvolver ?_, ?_⟩
  · intro entry hentry
    obtain ⟨routing, hrouting, rfl⟩ := List.mem_map.mp hentry
    exact hfilters routing hrouting
  · obtain ⟨hasFilters, _⟩ := controlInputs
    cases hasFilters <;> rfl

theorem InterpolatingFirFilterMatrix.operating_create {q : InterpolatingParameters R C}
    {fullName : String} {filters : BasicMatrix R}
    {initialInterpolants : InterpolationParameterSet R} {routings : FilterRoutingList R}
    {controlInputs : InterpolatingFirFilterMatrix.ControlPortConfig}
    {s : InterpolatingFirFilterMatrix q}
    (h : create fullName q filters initialInterpolants routings controlInputs = .ok s)
    (hfilters : ∀ routing ∈ routings, routing.filterIndex < q.maxRoutingPoints) :
    Operating s.convolver ∧ ∀ i, s.pending i = [] := by
  obtain ⟨convolver, hconvolver, heq⟩ := exists_of_bind_ok h
  cases heq
  have hrouted : ∀ entry ∈ routings.toList.map FilterRouting.entry,
      entry.filterIdx < q.maxRoutingPoints := by
    intro entry hentry
    obtain ⟨routing, hrouting, rfl⟩ := List.mem_map.mp hentry
    exact hfilters routing hrouting
  have hstart := InterpolatingConvolverUniform.create_holds hconvolver fun _ _ => 0
  have hindices := InterpolatingConvolverUniform.create_indicesValid hconvolver hrouted
  refine ⟨⟨hstart.initialised, ⟨_, _, hstart.inputs⟩, fun e he => (hindices e he).2.2⟩, ?_⟩
  intro i
  obtain ⟨hasFilters, _, hasInterpolants⟩ := controlInputs
  cases i with
  | filterInput => cases hasFilters <;> rfl
  | interpolantInput => cases hasInterpolants <;> rfl

/-- **Each message is applied once**, and each call produces its block, in all runs of the three
components in which the messages that a call meets are valid when it is their turn. -/
theorem filterMatrices_consumeOnce :
    (∀ (p : ConvolverParameters R C) maxRoutings fullName filters routings controlInputs s events,
      FirFilterMatrix.create fullName p maxRoutings filters routings controlInputs = .ok s →
      Throughout (FirFilterMatrix.component p maxRoutings).step
        ((FirFilterMatrix.component p maxRoutings).Accepted FirFilterMatrix.Valid
          (fun _ => 0 < p.maxFilterLength) FirFilterMatrix.ports) events ⟨s, [], []⟩ →
      (FirFilterMatrix.component p maxRoutings).ConsumesOnce ⟨s, [], []⟩ events) ∧
    (∀ (q : CrossfadingParameters R C) fullName filters routings controlInputs s events,
      CrossfadingFirFilterMatrix.create fullName q filters routings controlInputs = .ok s →
      (∀ routing ∈ routings, routing.filterIndex < q.maxNumFilters) →
      Throughout (CrossfadingFirFilterMatrix.component q).step
        ((CrossfadingFirFilterMatrix.component q).Accepted CrossfadingFirFilterMatrix.Valid
          (CrossfadingConvolverUniform.Suitable q) CrossfadingFirFilterMatrix.ports)
        events ⟨s, [], []⟩ →
      (CrossfadingFirFilterMatrix.component q).ConsumesOnce ⟨s, [], []⟩ events) ∧
    ∀ (q : InterpolatingParameters R C) fullName filters initialInterpolants routings
        controlInputs s events,
      InterpolatingFirFilterMatrix.create fullName q filters initialInterpolants routings
        controlInputs = .ok s →
      (∀ routing ∈ routings, routing.filterIndex < q.maxRoutingPoints) →
      Throughout (InterpolatingFirFilterMatrix.component q).step
        ((InterpolatingFirFilterMatrix.component q).Accepted InterpolatingFirFilterMatrix.Valid
          (CrossfadingConvolverUniform.Suitable q.crossfading) InterpolatingFirFilterMatrix.ports)
        events ⟨s, [], []⟩ →
      (InterpolatingFirFilterMatrix.component q).ConsumesOnce ⟨s, [], []⟩ events := by
  refine ⟨?_, ?_, ?_⟩
  · intro p maxRoutings fullName filters routings controlInputs s events hcreate hvalid
    obtain ⟨hoperating, hempty⟩ := FirFilterMatrix.operating_create hcreate
    exact Component.consumesOnce_of_accepted FirFilterMatrix.accepts hoperating hempty hvalid
  · intro q fullName filters routings controlInputs s events hcreate hfilters hvalid
    obtain ⟨hoperating, hempty⟩ := CrossfadingFirFilterMatrix.operating_create hcreate hfilters
    exact Component.consumesOnce_of_accepted CrossfadingFirFilterMatrix.accepts hoperating
      (fun _ => hempty) hvalid
  · intro q fullName filters initialInterpolants routings controlInputs s events hcreate hfilters
      hvalid
    obtain ⟨hoperating, hempty⟩ := InterpolatingFirFilterMatrix.operating_create hcreate hfilters
    exact Component.consumesOnce_of_accepted InterpolatingFirFilterMatrix.accepts hoperating
      hempty hvalid

/-! ### Single messages -/

open CrossfadingConvolverUniform in
/-- A block of a constant signal. -/
def constantBlock : AudioBlock ℝ := ⟨fun _ _ => 1, silentBuffer⟩

/-- A filter with one coefficient, for the only slot, and an interpolant of this filter. -/
theorem filterMatrices_consumeOnce_single :
    (∃ s, FirFilterMatrix.create "matrix" (CrossfadingConvolverUniform.singleParameters 0).core 1
        (CrossfadingConvolverUniform.gainMatrix 1) .empty ⟨true, true, true⟩ = .ok s ∧
      (FirFilterMatrix.component _ 1).ConsumesOnce ⟨s, [], []⟩
        [.arrive (.filter ⟨0, [2]⟩), .call fun _ _ => 1]) ∧
    (∃ s, CrossfadingFirFilterMatrix.create "matrix"
        (CrossfadingConvolverUniform.singleParameters 0)
        (CrossfadingConvolverUniform.gainMatrix 1) .empty ⟨true, false⟩ = .ok s ∧
      (CrossfadingFirFilterMatrix.component _).ConsumesOnce ⟨s, [], []⟩
        [.arrive ⟨0, [2]⟩, .call constantBlock]) ∧
    ∃ s, InterpolatingFirFilterMatrix.create "matrix"
        (InterpolatingConvolverUniform.limitedParameters 1 1)
        (CrossfadingConvolverUniform.gainMatrix 1) .empty .empty ⟨true, false, true⟩ = .ok s ∧
      (InterpolatingFirFilterMatrix.component _).ConsumesOnce ⟨s, [], []⟩
        [.arrive (.interpolant (InterpolatingConvolverUniform.gainParameter 0 2)),
          .call constantBlock] := by
  have hsuitable : CrossfadingConvolverUniform.Suitable
      (CrossfadingConvolverUniform.singleParameters 0) constantBlock :=
    ⟨Nat.one_pos, fun hne => absurd rfl hne, fun _ _ => ⟨rfl, rfl⟩⟩
  have hrun := filterMatrices_consumeOnce (R := ℝ) (C := ℂ)
  refine ⟨?_, ?_, ?_⟩
  · obtain ⟨s, hcreate, hfilter, hall, hsingle⟩ : ∃ s, FirFilterMatrix.create "matrix"
        (CrossfadingConvolverUniform.singleParameters 0).core 1
        (CrossfadingConvolverUniform.gainMatrix 1) .empty ⟨true, true, true⟩ = .ok s ∧
        s.setFilterInput = some ⟨[]⟩ ∧ s.allRoutingsInput = some ⟨.empty, false⟩ ∧
        s.singleRoutingInput = some ⟨[]⟩ := ⟨_, rfl, rfl, rfl, rfl⟩
    refine ⟨s, hcreate, hrun.1 _ _ _ _ _ _ s _ hcreate ⟨trivial, ?_⟩⟩
    intro t ht
    obtain ⟨component, hcomponent, rfl⟩ := Component.step_arrive ht
    obtain ⟨queue, hqueue, rfl⟩ := Option.map_eq_some_iff.mp hcomponent
    cases hfilter.symm.trans hqueue
    refine ⟨⟨Nat.one_pos, ?_⟩, fun _ _ => trivial⟩
    -- the filter is the only message
    show Component.InTurn _ _ (List.flatMap (FirFilterMatrix.pending _) _) _
    simp only [FirFilterMatrix.ports, FirFilterMatrix.pending, List.flatMap_cons, hall, hsingle]
    exact ⟨⟨Nat.two_pos, Nat.le_refl 1⟩, trivial⟩
  · obtain ⟨s, hcreate, hfilter⟩ : ∃ s, CrossfadingFirFilterMatrix.create "matrix"
        (CrossfadingConvolverUniform.singleParameters 0)
        (CrossfadingConvolverUniform.gainMatrix 1) .empty ⟨true, false⟩ = .ok s ∧
        s.setFilterInput = some ⟨[]⟩ := ⟨_, rfl, rfl⟩
    refine ⟨s, hcreate, hrun.2.1 _ _ _ _ _ s _ hcreate
      (fun routing hrouting => absurd hrouting (KeyedSet.not_mem_empty routing)) ⟨trivial, ?_⟩⟩
    intro t ht
    obtain ⟨component, hcomponent, rfl⟩ := Component.step_arrive ht
    obtain ⟨queue, hqueue, rfl⟩ := Option.map_eq_some_iff.mp hcomponent
    cases hfilter.symm.trans hqueue
    exact ⟨⟨hsuitable, ⟨Nat.one_pos, Nat.le_refl 1⟩, trivial⟩, fun _ _ => trivial⟩
  · obtain ⟨s, hcreate, hfilter, hinterpolant⟩ : ∃ s, InterpolatingFirFilterMatrix.create "matrix"
        (InterpolatingConvolverUniform.limitedParameters 1 1)
        (CrossfadingConvolverUniform.gainMatrix 1) .empty .empty ⟨true, false, true⟩ = .ok s ∧
        s.setFilterInput = some ⟨[]⟩ ∧ s.interpolantInput = some ⟨[]⟩ := ⟨_, rfl, rfl, rfl⟩
    refine ⟨s, hcreate, hrun.2.2 _ _ _ _ _ _ s _ hcreate
      (fun routing hrouting => absurd hrouting (KeyedSet.not_mem_empty routing)) ⟨trivial, ?_⟩⟩
    intro t ht
    obtain ⟨component, hcomponent, rfl⟩ := Component.step_arrive ht
    obtain ⟨queue, hqueue, rfl⟩ := Option.map_eq_some_iff.mp hcomponent
    cases hinterpolant.symm.trans hqueue
    refine ⟨⟨hsuitable, ?_⟩, fun _ _ => trivial⟩
    show Component.InTurn _ _ (List.flatMap (InterpolatingFirFilterMatrix.pending _) _) _
    simp only [InterpolatingFirFilterMatrix.ports, InterpolatingFirFilterMatrix.pending,
      List.flatMap_cons, hfilter]
    refine ⟨⟨⟨Nat.one_pos, rfl, ?_⟩, Nat.one_pos, Nat.one_pos⟩, trivial⟩
    intro index hindex
    rw [List.mem_singleton.mp hindex]
    exact Nat.one_pos

/-- A filter for a slot that does not exist, an impulse response that is too long, and an
interpolant that does not exist. -/
theorem filterMatrices_not_consumeOnce :
    (∃ s, FirFilterMatrix.create "matrix" (CrossfadingConvolverUniform.singleParameters 0).core 1
        (CrossfadingConvolverUniform.gainMatrix 1) .empty ⟨true, true, true⟩ = .ok s ∧
      ¬(FirFilterMatrix.component _ 1).ConsumesOnce ⟨s, [], []⟩
        [.arrive (.filter ⟨2, [2]⟩), .call fun _ _ => 1]) ∧
    (∃ s, CrossfadingFirFilterMatrix.create "matrix"
        (CrossfadingConvolverUniform.singleParameters 0)
        (CrossfadingConvolverUniform.gainMatrix 1) .empty ⟨true, false⟩ = .ok s ∧
      ¬(CrossfadingFirFilterMatrix.component _).ConsumesOnce ⟨s, [], []⟩
        [.arrive ⟨0, [2, 2]⟩, .call constantBlock]) ∧
    ∃ s, InterpolatingFirFilterMatrix.create "matrix"
        (InterpolatingConvolverUniform.limitedParameters 1 1)
        (CrossfadingConvolverUniform.gainMatrix 1) .empty .empty ⟨false, false, true⟩ = .ok s ∧
      ¬(InterpolatingFirFilterMatrix.component _).ConsumesOnce ⟨s, [], []⟩
        [.arrive (.interpolant (InterpolatingConvolverUniform.gainParameter 1 2)),
          .call constantBlock] := by
  have hempty : (⟨[]⟩ : MessageQueueProtocol (IndexedValueParameter ℝ)).elements = [] := rfl
  refine ⟨?_, ?_, ?_⟩
  · obtain ⟨s, hcreate, hfilter⟩ : ∃ s, FirFilterMatrix.create "matrix"
        (CrossfadingConvolverUniform.singleParameters 0).core 1
        (CrossfadingConvolverUniform.gainMatrix 1) .empty ⟨true, true, true⟩ = .ok s ∧
        s.setFilterInput = some ⟨[]⟩ := ⟨_, rfl, rfl⟩
    have hreceive : (FirFilterMatrix.component _ 1).receive (.filter ⟨2, [2]⟩) s = _ :=
      congrArg (Option.map _) hfilter
    refine ⟨s, hcreate, Component.not_consumesOnce_of_call hreceive ?_⟩
    have hblocked := FirFilterMatrix.filterBlocked_enqueue (s := s) hempty
      (m := ⟨2, [2]⟩) fun h => absurd h.1 (Nat.lt_irrefl 2)
    obtain ⟨m, e, hprocess⟩ := FirFilterMatrix.process_of_blocked hblocked fun _ _ => 1
    exact Component.not_conformsAt_of_unchanged hprocess
  · obtain ⟨s, hcreate, hfilter⟩ : ∃ s, CrossfadingFirFilterMatrix.create "matrix"
        (CrossfadingConvolverUniform.singleParameters 0)
        (CrossfadingConvolverUniform.gainMatrix 1) .empty ⟨true, false⟩ = .ok s ∧
        s.setFilterInput = some ⟨[]⟩ := ⟨_, rfl, rfl⟩
    have hreceive : (CrossfadingFirFilterMatrix.component _).receive ⟨0, [2, 2]⟩ s = _ :=
      congrArg (Option.map _) hfilter
    refine ⟨s, hcreate, Component.not_consumesOnce_of_call hreceive ?_⟩
    have hblocked := CrossfadingFirFilterMatrix.filterBlocked_enqueue (s := s) hempty
      (m := ⟨0, [2, 2]⟩) Nat.one_pos Nat.one_lt_two
    obtain ⟨m, e, hprocess⟩ := CrossfadingFirFilterMatrix.process_of_blocked hblocked constantBlock
    exact Component.not_conformsAt_of_unchanged hprocess
  · obtain ⟨s, hcreate, hfilter, hinterpolant⟩ : ∃ s, InterpolatingFirFilterMatrix.create "matrix"
        (InterpolatingConvolverUniform.limitedParameters 1 1)
        (CrossfadingConvolverUniform.gainMatrix 1) .empty .empty ⟨false, false, true⟩ = .ok s ∧
        s.setFilterInput = none ∧ s.interpolantInput = some ⟨[]⟩ := ⟨_, rfl, rfl, rfl⟩
    have hreceive : (InterpolatingFirFilterMatrix.component _).receive
        (.interpolant (InterpolatingConvolverUniform.gainParameter 1 2)) s = _ :=
      congrArg (Option.map _) hinterpolant
    refine ⟨s, hcreate, Component.not_consumesOnce_of_call hreceive ?_⟩
    have hblocked : InterpolatingFirFilterMatrix.InterpolantBlocked { s with
        interpolantInput :=
          some (.enqueue ⟨[]⟩ (InterpolatingConvolverUniform.gainParameter 1 2)) } := by
      obtain ⟨e, he⟩ := InterpolatingFirFilterMatrix.apply_interpolant_of_not_passes
        (InterpolatingConvolverUniform.gainParameter 1 2) s.convolver
        fun h => absurd h.1 (Nat.lt_irrefl 1)
      exact ⟨_, _, [], e, rfl, rfl, he⟩
    obtain ⟨m, e, hprocess⟩ := InterpolatingFirFilterMatrix.process_of_interpolantBlocked
      hblocked hfilter constantBlock
    exact Component.not_conformsAt_of_unchanged hprocess

end Visr
