import Visr.Librrl.AudioSignalFlow

/-!
# The wiring of a signal flow

The flow that is executed: the tree with the routing components, its connections, and the order in
which its components are executed.

## Main results

* `AllCreated.wellFormed` — the flow with the routing components is a flow.
* `Realises.mem_cases` — its connections.
* `initialiseSchedule_spec` — the schedule is a `ValidOrder`.
* `Realises.validOrder` — **senders precede receivers**, also behind routing components.
-/

namespace Visr

/-! ### The tree with the routing components -/

section Tree

variable {flow : Flow} {addresses : ObjectAddresses flow.root}
  {routings : List SignalRoutingInternal}

/-- All routing components have been created for the flow. -/
def AllCreated (addresses : ObjectAddresses flow.root) (routings : List SignalRoutingInternal) :
    Prop :=
  ∀ k routing, routings[k]? = some routing → Created addresses k routing

theorem AllCreated.exists_of_mem (h : AllCreated addresses routings)
    {routing : SignalRoutingInternal} (hrouting : routing ∈ routings) :
    ∃ k, routings[k]? = some routing ∧ Created addresses k routing := by
  obtain ⟨k, hk⟩ := List.getElem?_of_mem hrouting
  exact ⟨k, hk, h k routing hk⟩

/-- Different routing components have different output ports. -/
theorem AllCreated.eq_of_output (h : AllCreated addresses routings)
    {routing routing' : SignalRoutingInternal} (hrouting : routing ∈ routings)
    (hrouting' : routing' ∈ routings) (heq : routing.output = routing'.output) :
    routing = routing' := by
  obtain ⟨k, hk, hcreated⟩ := h.exists_of_mem hrouting
  obtain ⟨k', hk', hcreated'⟩ := h.exists_of_mem hrouting'
  rw [hcreated.eq_of_output hcreated' heq, hk'] at hk
  exact (Option.some.inj hk).symm

theorem AllCreated.eq_of_self (h : AllCreated addresses routings)
    {routing routing' : SignalRoutingInternal} (hrouting : routing ∈ routings)
    (hrouting' : routing' ∈ routings) (heq : routing.self = routing'.self) :
    routing = routing' := by
  obtain ⟨k, hk, hcreated⟩ := h.exists_of_mem hrouting
  obtain ⟨k', hk', hcreated'⟩ := h.exists_of_mem hrouting'
  have hindex : k = k' := addresses.component_injective k k' (by
    rw [← hcreated.address, ← hcreated'.address, heq])
  rw [hindex, hk'] at hk
  exact (Option.some.inj hk).symm

/-- A routing component is none of the components of the flow. -/
theorem AllCreated.self_ne (h : AllCreated addresses routings) {routing : SignalRoutingInternal}
    (hrouting : routing ∈ routings) {c : Component} (hc : c ∈ flow.root.preorder) :
    routing.self ≠ c.self := by
  obtain ⟨k, -, hcreated⟩ := h.exists_of_mem hrouting
  intro heq
  refine addresses.component_fresh k ?_
  rw [← hcreated.address, heq]
  exact List.mem_map_of_mem (f := fun c : Component => c.self.address) hc

theorem AllCreated.map_address (h : AllCreated addresses routings) :
    routings.map (·.self.address) = (List.range routings.length).map addresses.component := by
  refine List.ext_getElem? fun k => ?_
  rw [List.getElem?_map, List.getElem?_map]
  rcases hk : routings[k]? with _ | routing
  · rw [List.getElem?_eq_none (by simpa using List.getElem?_eq_none_iff.mp hk)]
    rfl
  · have hlt := (List.getElem?_eq_some_iff.mp hk).1
    rw [List.getElem?_range hlt, Option.map_some, Option.map_some, (h k routing hk).address]

theorem AllCreated.map_portAddress (h : AllCreated addresses routings) :
    (routings.flatMap fun routing => [routing.input, routing.output]).map (·.address) =
      (List.range routings.length).flatMap fun k =>
        [addresses.port k .input, addresses.port k .output] := by
  have hports : routings.map (fun routing => [routing.inputAddress, routing.outputAddress]) =
      (List.range routings.length).map fun k =>
        [addresses.port k .input, addresses.port k .output] := by
    refine List.ext_getElem? fun k => ?_
    rw [List.getElem?_map, List.getElem?_map]
    rcases hk : routings[k]? with _ | routing
    · rw [List.getElem?_eq_none (by simpa using List.getElem?_eq_none_iff.mp hk)]
      rfl
    · have hlt := (List.getElem?_eq_some_iff.mp hk).1
      rw [List.getElem?_range hlt, Option.map_some, Option.map_some, (h k routing hk).input,
        (h k routing hk).output]
  rw [List.map_flatMap, List.flatMap_def, List.flatMap_def, ← hports]
  rfl

theorem preorder_withRoutings (hcomposite : flow.root.isComposite = true) :
    (flow.root.withRoutings routings).preorder = flow.root.withRoutings routings ::
      (flow.root.components.flatMap Component.preorder ++
        routings.map SignalRoutingInternal.component) := by
  have hflat : (routings.map SignalRoutingInternal.component).flatMap Component.preorder =
      routings.map SignalRoutingInternal.component := by
    rw [List.flatMap_map]
    exact List.map_eq_flatMap.symm
  rw [Component.preorder_eq]
  cases hroot : flow.root with
  | atomic => rw [hroot] at hcomposite; cases hcomposite
  | composite self aps pps comps acs pcs =>
    simp only [Component.withRoutings, Component.components, List.flatMap_append, hflat]

theorem withRoutings_fields (root : Component) (routings : List SignalRoutingInternal) :
    (root.withRoutings routings).self = root.self ∧
      (root.withRoutings routings).audioPorts = root.audioPorts ∧
      (root.withRoutings routings).parameterPorts = root.parameterPorts ∧
      (root.withRoutings routings).isComposite = root.isComposite := by
  cases root with
  | atomic => exact ⟨rfl, rfl, rfl, rfl⟩
  | composite => exact ⟨rfl, rfl, rfl, rfl⟩

theorem components_withRoutings (routings : List SignalRoutingInternal)
    (hcomposite : flow.root.isComposite = true) :
    (flow.root.withRoutings routings).components =
      flow.root.components ++ routings.map SignalRoutingInternal.component := by
  cases hroot : flow.root with
  | atomic => rw [hroot] at hcomposite; cases hcomposite
  | composite => rfl

/-- The components of the flow with the routing components. -/
theorem mem_preorder_withRoutings (hcomposite : flow.root.isComposite = true) {c : Component} :
    c ∈ (flow.root.withRoutings routings).preorder ↔ c = flow.root.withRoutings routings ∨
      c ∈ flow.root.components.flatMap Component.preorder ∨
      ∃ routing ∈ routings, routing.component = c := by
  rw [preorder_withRoutings hcomposite, List.mem_cons, List.mem_append, List.mem_map]

/-- **The flow with the routing components is well-formed**, too. -/
theorem AllCreated.wellFormed (h : AllCreated addresses routings)
    (hcomposite : flow.root.isComposite = true)
    (hnames : (flow.root.components.map (·.self.name) ++ routings.map (·.self.name)).Nodup) :
    (flow.root.withRoutings routings).WellFormed := by
  have hwf := flow.wellFormed
  obtain ⟨hself, haudio, hparameter, hisComposite⟩ := withRoutings_fields flow.root routings
  have hcomponents := components_withRoutings routings hcomposite
  have hroot := flow.root.preorder_eq
  have hinner : ∀ {c : Component}, c ∈ flow.root.components.flatMap Component.preorder →
      c ∈ flow.root.preorder := by
    intro c hc
    rw [hroot]
    exact List.mem_cons_of_mem _ hc
  have hmem : ∀ c, c ∈ (flow.root.withRoutings routings).preorder ↔ _ := fun c =>
    mem_preorder_withRoutings hcomposite
  refine ⟨?_, ?_, ?_, ?_, ?_, ?_, ?_, ?_, ?_, ?_⟩
  · rw [hself]
    exact hwf.topLevel
  · intro p hp c hc
    rcases (hmem p).mp hp with rfl | hp | ⟨routing, -, rfl⟩
    · rw [hcomponents, List.mem_append, List.mem_map] at hc
      rcases hc with hc | ⟨routing, hrouting, rfl⟩
      · exact hwf.nested _ flow.root.mem_preorder_self c hc
      · obtain ⟨k, -, hcreated⟩ := h.exists_of_mem hrouting
        exact hcreated.isTopLevel
    · exact hwf.nested p (hinner hp) c hc
    · exact absurd hc List.not_mem_nil
  · intro c hc
    rcases (hmem c).mp hc with rfl | hc | ⟨routing, hrouting, rfl⟩
    · rw [hself, hisComposite]
      exact hwf.isComposite _ flow.root.mem_preorder_self
    · exact hwf.isComposite c (hinner hc)
    · obtain ⟨k, -, hcreated⟩ := h.exists_of_mem hrouting
      exact hcreated.isComposite
  · intro c hc p hp
    rcases (hmem c).mp hc with rfl | hc | ⟨routing, -, rfl⟩
    · rw [hself]
      exact hwf.audioParent _ flow.root.mem_preorder_self p (haudio ▸ hp)
    · exact hwf.audioParent c (hinner hc) p hp
    · rcases List.mem_pair.mp hp with rfl | rfl
      · rfl
      · rfl
  · intro c hc p hp
    rcases (hmem c).mp hc with rfl | hc | ⟨routing, -, rfl⟩
    · rw [hself]
      exact hwf.parameterParent _ flow.root.mem_preorder_self p (hparameter ▸ hp)
    · exact hwf.parameterParent c (hinner hc) p hp
    · exact absurd hp List.not_mem_nil
  · intro c hc
    rcases (hmem c).mp hc with rfl | hc | ⟨routing, -, rfl⟩
    · rw [hcomponents, List.map_append, List.map_map]
      exact hnames
    · exact hwf.childNames c (hinner hc)
    · exact List.nodup_nil
  · intro c hc
    rcases (hmem c).mp hc with rfl | hc | ⟨routing, -, rfl⟩
    · rw [hparameter]
      exact hwf.parameterNames _ flow.root.mem_preorder_self
    · exact hwf.parameterNames c (hinner hc)
    · exact List.nodup_nil
  · have hold := hwf.addresses
    rw [hroot, List.map_cons] at hold
    rw [preorder_withRoutings hcomposite, List.map_cons, hself, List.map_append, List.map_map]
    change (_ :: (_ ++ routings.map (·.self.address))).Nodup
    rw [h.map_address, ← List.cons_append, List.nodup_append']
    refine ⟨hold, List.Nodup.map (fun _ _ => addresses.component_injective _ _)
      List.nodup_range, ?_⟩
    intro address haddress hnew
    obtain ⟨k, -, rfl⟩ := List.mem_map.mp hnew
    refine addresses.component_fresh k ?_
    rw [hroot, List.map_cons]
    exact haddress
  · have hold := hwf.audioAddresses
    rw [hroot, List.flatMap_cons] at hold
    rw [preorder_withRoutings hcomposite, List.flatMap_cons, haudio, List.flatMap_append,
      List.flatMap_map]
    change (List.map _ (_ ++ (_ ++ routings.flatMap fun routing =>
      [routing.input, routing.output]))).Nodup
    rw [← List.append_assoc, List.map_append, h.map_portAddress, List.nodup_append']
    refine ⟨hold, ?_, ?_⟩
    · refine List.nodup_flatMap.mpr ⟨fun k _ => ?_, ?_⟩
      · rw [List.nodup_cons]
        refine ⟨fun hmem => ?_, List.nodup_singleton _⟩
        cases (addresses.port_injective _ _ _ _ (List.mem_singleton.mp hmem)).2
      · refine List.nodup_range.imp_of_mem ?_
        intro k k' _ _ hne address haddress haddress'
        obtain ⟨d, hd⟩ : ∃ d, address = addresses.port k d := by
          rcases List.mem_pair.mp haddress with h | h
          · exact ⟨_, h⟩
          · exact ⟨_, h⟩
        obtain ⟨d', hd'⟩ : ∃ d, address = addresses.port k' d := by
          rcases List.mem_pair.mp haddress' with h | h
          · exact ⟨_, h⟩
          · exact ⟨_, h⟩
        exact hne (addresses.port_injective _ _ _ _ (hd.symm.trans hd')).1
    · intro address haddress hnew
      obtain ⟨k, -, hk⟩ := List.mem_flatMap.mp hnew
      have hfresh : ∀ d, address ≠ addresses.port k d := by
        rintro d rfl
        refine addresses.port_fresh k d ?_
        rw [hroot, List.flatMap_cons]
        exact haddress
      rcases List.mem_pair.mp hk with hk | hk
      · exact hfresh _ hk
      · exact hfresh _ hk
  · have hold := hwf.parameterAddresses
    rw [hroot, List.flatMap_cons] at hold
    rw [preorder_withRoutings hcomposite, List.flatMap_cons, hparameter, List.flatMap_append,
      List.flatMap_map]
    have hnone : (routings.flatMap fun routing => routing.component.parameterPorts) = [] := by
      rw [List.flatMap_eq_nil_iff]
      exact fun _ _ => rfl
    rw [hnone, List.append_nil]
    exact hold

end Tree

/-! ### The connections with the routing components -/

section Connections

variable {root : Component} {env : AudioEnvironment root} {flat : AudioConnectionMap}
  {setup : AudioSetup} {plans : List PortPlan}

/-- The routing component of a plan belongs to the flow. -/
theorem Realises.mem_infrastructure (h : Realises env flat setup plans) {plan : PortPlan}
    (hplan : plan ∈ plans) {routing : SignalRoutingInternal}
    (hrouting : plan.routing = some routing) : routing ∈ setup.infrastructureComponents := by
  have hcomponents : setup.infrastructureComponents = routingsOf plans := h.inserted.components
  rw [hcomponents]
  exact List.mem_filterMap.mpr ⟨plan, hplan, hrouting⟩

theorem Realises.exists_plan (h : Realises env flat setup plans)
    {routing : SignalRoutingInternal} (hrouting : routing ∈ setup.infrastructureComponents) :
    ∃ plan ∈ plans, plan.routing = some routing := by
  have hcomponents : setup.infrastructureComponents = routingsOf plans := h.inserted.components
  rw [hcomponents] at hrouting
  exact List.mem_filterMap.mp hrouting

/-- The channels of the port of a plan are connected in the flow. -/
theorem Realises.mem_flat (h : Realises env flat setup plans) (hcomplete : Complete root flat)
    {plan : PortPlan} (hplan : plan ∈ plans) {ch : ℕ} (hch : ch < plan.port.width) :
    (senderIn flat ⟨plan.port, ch⟩, ⟨plan.port, ch⟩) ∈ flat :=
  hcomplete.mem_senderIn ((h.mem_ports _).mp (List.mem_map_of_mem hplan)) hch

/-- A connection of the flow that has been kept, or one to or from a routing component that replaces
it. -/
theorem Realises.mem_cases (h : Realises env flat setup plans) (hcomplete : Complete root flat)
    {s r : AudioChannel} (he : (s, r) ∈ setup.finalConnections) :
    (s, r) ∈ flat ∨
    (∃ routing ∈ setup.infrastructureComponents, ∃ ch idx r₀, routing.inputIndices[ch]? = some idx ∧
      r = ⟨routing.input, idx⟩ ∧ (s, r₀) ∈ flat ∧
      (⟨routing.output, ch⟩, r₀) ∈ setup.finalConnections) ∨
    ∃ routing ∈ setup.infrastructureComponents, ∃ ch idx s₀, routing.inputIndices[ch]? = some idx ∧
      s = ⟨routing.output, ch⟩ ∧ (s₀, r) ∈ flat ∧
      (s₀, ⟨routing.input, idx⟩) ∈ setup.finalConnections := by
  obtain ⟨plan, hplan, hconnects⟩ := (h.inserted.connections s r).mp he
  have hmem : ∀ {s r}, plan.Connects (senderIn flat) s r → (s, r) ∈ setup.finalConnections :=
    fun hc => (h.inserted.connections _ _).mpr ⟨plan, hplan, hc⟩
  rcases hrouting : plan.routing with _ | routing
  · rw [PortPlan.Connects, hrouting] at hconnects
    obtain ⟨ch, hch, rfl, rfl⟩ := hconnects
    exact Or.inl (h.mem_flat hcomplete hplan hch)
  · have hinfra := h.mem_infrastructure hplan hrouting
    have hlen := (h.routing plan hplan routing hrouting).2
    simp only [PortPlan.Connects, hrouting] at hconnects hmem
    right
    rcases hconnects with ⟨ch, idx, hidx, rfl, rfl⟩ | ⟨ch, hch, rfl, rfl⟩
    · have hch : ch < plan.port.width := hlen ▸ (List.getElem?_eq_some_iff.mp hidx).1
      exact Or.inl ⟨routing, hinfra, ch, idx, _, hidx, rfl, h.mem_flat hcomplete hplan hch,
        hmem (Or.inr ⟨ch, hch, rfl, rfl⟩)⟩
    · have hlt : ch < routing.inputIndices.length := hlen ▸ hch
      have hidx : routing.inputIndices[ch]? = some routing.inputIndices[ch] :=
        List.getElem?_eq_getElem hlt
      exact Or.inr ⟨routing, hinfra, ch, _, _, hidx, rfl, h.mem_flat hcomplete hplan hch,
        hmem (Or.inl ⟨ch, _, hidx, rfl, rfl⟩)⟩

/-- A receive channel of the flow has a sender. -/
theorem Realises.exists_sender (h : Realises env flat setup plans) (hcomplete : Complete root flat)
    {s r : AudioChannel} (he : (s, r) ∈ flat) : ∃ s', (s', r) ∈ setup.finalConnections := by
  obtain ⟨plan, hplan, hport⟩ := List.mem_map.mp ((h.mem_ports r.port).mpr ⟨_, he, rfl⟩)
  have hch : r.channel < plan.port.width := hport ▸ hcomplete.receiveWidth _ he
  have hr : r = ⟨plan.port, r.channel⟩ := by rw [hport]
  rcases hrouting : plan.routing with _ | routing
  · refine ⟨senderIn flat ⟨plan.port, r.channel⟩, (h.inserted.connections _ _).mpr
      ⟨plan, hplan, ?_⟩⟩
    rw [PortPlan.Connects, hrouting]
    exact ⟨_, hch, hr, rfl⟩
  · refine ⟨⟨routing.output, r.channel⟩, (h.inserted.connections _ _).mpr ⟨plan, hplan, ?_⟩⟩
    rw [PortPlan.Connects, hrouting]
    exact Or.inr ⟨_, hch, hr, rfl⟩

/-- A send channel of the flow has a receiver. -/
theorem Realises.exists_receiver (h : Realises env flat setup plans)
    (hcomplete : Complete root flat) {s r : AudioChannel} (he : (s, r) ∈ flat) :
    ∃ r', (s, r') ∈ setup.finalConnections := by
  obtain ⟨plan, hplan, hport⟩ := List.mem_map.mp ((h.mem_ports r.port).mpr ⟨_, he, rfl⟩)
  have hch : r.channel < plan.port.width := hport ▸ hcomplete.receiveWidth _ he
  have hr : r = ⟨plan.port, r.channel⟩ := by rw [hport]
  have hs : s = senderIn flat ⟨plan.port, r.channel⟩ := by
    rw [← hr]
    exact (hcomplete.senderIn_eq he).symm
  rcases hrouting : plan.routing with _ | routing
  · refine ⟨⟨plan.port, r.channel⟩, (h.inserted.connections _ _).mpr ⟨plan, hplan, ?_⟩⟩
    rw [PortPlan.Connects, hrouting]
    exact ⟨_, hch, rfl, hs⟩
  · have hlen := (h.routing plan hplan routing hrouting).2
    have hlt : r.channel < routing.inputIndices.length := hlen ▸ hch
    refine ⟨⟨routing.input, routing.inputIndices[r.channel]⟩,
      (h.inserted.connections _ _).mpr ⟨plan, hplan, ?_⟩⟩
    rw [PortPlan.Connects, hrouting]
    exact Or.inl ⟨_, _, List.getElem?_eq_getElem _, rfl, hs⟩

/-- The ends of a copy. -/
theorem Realises.exists_copy (h : Realises env flat setup plans) (hcomplete : Complete root flat)
    {routing : SignalRoutingInternal} (hrouting : routing ∈ setup.infrastructureComponents)
    {ch idx : ℕ} (hidx : routing.inputIndices[ch]? = some idx) :
    ∃ s r, (s, r) ∈ flat ∧ (s, ⟨routing.input, idx⟩) ∈ setup.finalConnections ∧
      (⟨routing.output, ch⟩, r) ∈ setup.finalConnections := by
  obtain ⟨plan, hplan, hsome⟩ := h.exists_plan hrouting
  have hlen := (h.routing plan hplan routing hsome).2
  have hch : ch < plan.port.width := hlen ▸ (List.getElem?_eq_some_iff.mp hidx).1
  have hmem : ∀ {s r}, plan.Connects (senderIn flat) s r → (s, r) ∈ setup.finalConnections :=
    fun hc => (h.inserted.connections _ _).mpr ⟨plan, hplan, hc⟩
  simp only [PortPlan.Connects, hsome] at hmem
  exact ⟨_, _, h.mem_flat hcomplete hplan hch, hmem (Or.inl ⟨ch, idx, hidx, rfl, rfl⟩),
    hmem (Or.inr ⟨ch, hch, rfl, rfl⟩)⟩

end Connections

/-! ### The order of execution -/

section Schedule

variable {flow : Flow}

/-- The owner of a port without placeholders is an atomic component, or the flow itself. -/
theorem owner_of_concrete {l : Component} (hl : l ∈ flow.root.preorder) {port : PortBase}
    (hparent : port.parent = l.self) (hconcrete : isPlaceholderPort port = false) :
    port.parent ∈ collectAllComponents flow.root ∨ port.parent = flow.root.self := by
  have hwf := flow.wellFormed
  by_cases hcomposite : l.isComposite = true
  · rcases Component.exists_parent hl with rfl | ⟨p, hp, hlp⟩
    · exact Or.inr hparent
    · rw [← Bool.not_eq_true, isPlaceholderPort_iff, hparent, hwf.isComposite l hl] at hconcrete
      exact absurd ⟨hcomposite, hwf.nested p hp l hlp⟩ hconcrete
  · left
    rw [hparent, collectAllComponents_eq]
    refine List.mem_map_of_mem (List.mem_filter.mpr ⟨hl, ?_⟩)
    simpa using hcomposite

theorem ConcreteChannel.owner {own inner : Direction} {c : AudioChannel}
    (h : ConcreteChannel own inner flow.root c) :
    c.port.parent ∈ collectAllComponents flow.root ∨ c.port.parent = flow.root.self := by
  have hwf := flow.wellFormed
  rcases h.2 with ⟨hown, -⟩ | ⟨atom, hatom, hatomic, hown, -⟩
  · exact Or.inr (hwf.audioParent _ flow.root.mem_preorder_self _ hown)
  · left
    rw [hwf.audioParent atom hatom _ hown, collectAllComponents_eq]
    refine List.mem_map_of_mem (List.mem_filter.mpr ⟨hatom, ?_⟩)
    rw [hatomic]
    rfl

/-- The parameter connections of a flow that passes the check. -/
theorem parameterOwners (hwired : ParameterWired flow.root)
    {connections flat : ParameterConnectionMap}
    (hconnections : connections.Perm (ParameterConnectionMap.allEntries flow.root))
    (hflat : connections.resolvePlaceholders = .ok flat) :
    ∀ e ∈ flat, (e.1.parent ∈ collectAllComponents flow.root ∨ e.1.parent = flow.root.self) ∧
      (e.2.parent ∈ collectAllComponents flow.root ∨ e.2.parent = flow.root.self) := by
  have hwf := flow.wellFormed
  have hdangling : ParameterConnectionMap.NoDangling connections :=
    ParameterConnectionMap.NoDangling.of_perm hconnections
      (ParameterConnectionMap.noDangling_allEntries flow hwired)
  rcases ParameterConnectionMap.resolvePlaceholders_spec hdangling with
    ⟨-, herror⟩ | ⟨-, flat', hok, hmem⟩
  · rw [hflat] at herror
    cases herror
  rw [hflat] at hok
  obtain rfl := Except.ok.inj hok
  rintro ⟨r, s⟩ he
  obtain ⟨hs, hr, hfeeds⟩ := (hmem s r).mp he
  obtain ⟨p, hp, -⟩ := hfeeds.feeds.exists_first
  obtain ⟨q, hq, -⟩ := hfeeds.feeds.exists_last
  -- both ends belong to a component of the level of their connection
  have hlevel : ∀ {s r : ParameterPort}, (r, s) ∈ connections →
      ∃ l ∈ flow.root.preorder, SendPort l s ∧ ReceivePort l r := by
    intro s r hsr
    obtain ⟨l, hl, connection, hconnection, rfl, rfl⟩ :=
      ParameterConnectionMap.mem_allEntries.mp (hconnections.mem_iff.mp hsr)
    have hvalid := (hwired l hl
      (ParameterConnectionMap.isComposite_of_mem_connections hconnection)).valid connection
      hconnection
    exact ⟨l, hl, hvalid.sender, hvalid.receiver⟩
  have howner : ∀ {p : ParameterPort} {l : Component}, p.isPlaceholder = false →
      l ∈ flow.root.preorder → (p ∈ l.parameterPorts ∨ ∃ child ∈ l.components,
        p ∈ child.parameterPorts) →
      p.parent ∈ collectAllComponents flow.root ∨ p.parent = flow.root.self := by
    rintro p l hp hl (hown | ⟨child, hchild, hown⟩)
    · exact owner_of_concrete hl (hwf.parameterParent l hl p hown) hp
    · have hmem := Component.mem_preorder_of_mem_components hl hchild
      exact owner_of_concrete hmem (hwf.parameterParent child hmem p hown) hp
  obtain ⟨l, hl, hsend, -⟩ := hlevel hp
  obtain ⟨l', hl', -, hreceive⟩ := hlevel hq
  refine ⟨howner hr hl' ?_, howner hs hl ?_⟩
  · exact hreceive.imp And.left fun ⟨child, hchild, hown, _⟩ => ⟨child, hchild, hown⟩
  · exact hsend.imp And.left fun ⟨child, hchild, hown, _⟩ => ⟨child, hchild, hown⟩

variable {routings : List SignalRoutingInternal}

theorem mem_collectAllComponents_withRoutings (hcomposite : flow.root.isComposite = true)
    {c : ComponentRef} :
    c ∈ collectAllComponents (flow.root.withRoutings routings) ↔
      c ∈ collectAllComponents flow.root ∨ ∃ routing ∈ routings, routing.self = c := by
  obtain ⟨-, -, -, hisComposite⟩ := withRoutings_fields flow.root routings
  simp only [collectAllComponents_eq, List.mem_map, List.mem_filter,
    mem_preorder_withRoutings hcomposite, Bool.not_eq_eq_eq_not, Bool.not_true]
  constructor
  · rintro ⟨component, ⟨rfl | hmem | ⟨routing, hrouting, rfl⟩, hatomic⟩, rfl⟩
    · rw [hisComposite, hcomposite] at hatomic
      cases hatomic
    · refine Or.inl ⟨component, ⟨?_, hatomic⟩, rfl⟩
      rw [Component.preorder_eq]
      exact List.mem_cons_of_mem _ hmem
    · exact Or.inr ⟨routing, hrouting, rfl⟩
  · rintro (⟨component, ⟨hmem, hatomic⟩, rfl⟩ | ⟨routing, hrouting, rfl⟩)
    · rw [Component.preorder_eq] at hmem
      rcases List.mem_cons.mp hmem with rfl | hmem
      · rw [hcomposite] at hatomic
        cases hatomic
      · exact ⟨component, ⟨Or.inr (Or.inl hmem), hatomic⟩, rfl⟩
    · exact ⟨routing.component, ⟨Or.inr (Or.inr ⟨routing, hrouting, rfl⟩), rfl⟩, rfl⟩

/-- An order of execution of the atomic components, in which senders precede receivers. -/
structure ValidOrder (root : Component) (connections : AudioConnectionMap)
    (parameterConnections : ParameterConnectionMap) (order : List ComponentRef) : Prop where
  nodup : order.Nodup
  mem : ∀ c, c ∈ order ↔ c ∈ collectAllComponents root
  audio : ∀ conn ∈ connections, conn.1.port.parent ∈ order → conn.2.port.parent ∈ order →
    [conn.1.port.parent, conn.2.port.parent].Sublist order
  parameters : ∀ conn ∈ parameterConnections, conn.2.parent ∈ order → conn.1.parent ∈ order →
    [conn.2.parent, conn.1.parent].Sublist order

/-- The schedule of a composite flow. -/
theorem initialiseSchedule_spec (flow : Flow) (lib : GraphLibrary) (hcomposite : flow.root.isComposite = true)
    (maps : FlatConnections flow.root) {schedule : List ComponentRef}
    (hok : AudioSignalFlow.initialiseSchedule lib flow.root maps.connections
      maps.parameterConnections = .ok schedule) :
    ValidOrder flow.root maps.connections maps.parameterConnections schedule := by
  have hwf := flow.wellFormed
  obtain ⟨g, hinit, hg⟩ := SchedulingGraph.initialise_represents hwf maps
  unfold AudioSignalFlow.initialiseSchedule at hok
  rw [hcomposite, hinit] at hok
  change g.sequentialSchedule lib = .ok schedule at hok
  by_cases hfail : (g.checkAcyclicGraph lib).result = false
  · rw [SchedulingGraph.sequentialSchedule, if_pos hfail] at hok
    cases hok
  rw [hg.sequentialSchedule_eq lib hfail] at hok
  rcases horder : lib.topologicalSort g.outVertices g.nodes.length with _ | order
  · rw [horder] at hok
    cases hok
  rw [horder] at hok
  obtain rfl := Except.ok.inj hok
  obtain ⟨hnodup, hmem, hsub⟩ := hg.schedule_of_order (lib.sort_perm hg.closed_out horder)
    (lib.sort_order hg.closed_out horder)
  have hconcrete : ∀ {c}, c ∈ collectAllComponents flow.root → c.isComposite = false :=
    fun hc => isComposite_of_mem_collectAllComponents hwf hc
  refine ⟨hnodup, hmem, fun conn hconn hs hr => ?_, fun conn hconn hs hr => ?_⟩
  · replace hs := (hmem _).mp hs
    replace hr := (hmem _).mp hr
    exact hsub _ _ hs hr ⟨List.mem_append_left _ (List.mem_map_of_mem hconn), hconcrete hs,
      hconcrete hr⟩
  · replace hs := (hmem _).mp hs
    replace hr := (hmem _).mp hr
    exact hsub _ _ hs hr ⟨List.mem_append_right _ (List.mem_map.mpr ⟨conn, hconn, rfl⟩),
      hconcrete hs, hconcrete hr⟩

/-- In a list without duplicates, precedence is transitive. -/
theorem pair_sublist_trans {α : Type*} {l : List α} (hl : l.Nodup) {a b c : α}
    (hab : [a, b].Sublist l) (hbc : [b, c].Sublist l) : [a, c].Sublist l := by
  induction l with
  | nil => cases hab
  | cons x l ih =>
    obtain ⟨hx, hl⟩ := List.nodup_cons.mp hl
    have hmem : ∀ {y z : α}, [y, z].Sublist l → y ∈ l ∧ z ∈ l := fun h =>
      ⟨h.subset List.mem_cons_self, h.subset (List.mem_cons_of_mem _ List.mem_cons_self)⟩
    cases hab with
    | cons _ hab =>
      cases hbc with
      | cons _ hbc => exact (ih hl hab hbc).cons _
      | cons_cons _ hbc => exact absurd (hmem hab).2 hx
    | cons_cons _ hab =>
      cases hbc with
      | cons _ hbc => exact (List.singleton_sublist.mpr (hmem hbc).2).cons_cons _
      | cons_cons _ hbc => exact absurd (List.singleton_sublist.mp hab) hx

/-- What precedes an element is before it. -/
theorem mem_of_pair_sublist {α : Type*} {before after : List α} {a b : α}
    (hl : (before ++ b :: after).Nodup) (hab : [a, b].Sublist (before ++ b :: after)) :
    a ∈ before := by
  induction before with
  | nil =>
    have hb := (List.nodup_cons.mp hl).1
    cases hab with
    | cons _ hab => exact absurd (hab.subset (List.mem_cons_of_mem _ List.mem_cons_self)) hb
    | cons_cons _ hab => exact absurd (List.singleton_sublist.mp hab) hb
  | cons x before ih =>
    cases hab with
    | cons _ hab => exact List.mem_cons_of_mem _ (ih (List.nodup_cons.mp hl).2 hab)
    | cons_cons _ _ => exact List.mem_cons_self

/-- Whether a component of the schedule is one of the routing components. -/
def isRouting (routings : List SignalRoutingInternal) (c : ComponentRef) : Bool :=
  routings.any fun routing => routing.self = c

theorem isRouting_iff {c : ComponentRef} :
    isRouting routings c = true ↔ ∃ routing ∈ routings, routing.self = c := by
  simp [isRouting]

variable {env : AudioEnvironment flow.root} {flat : AudioConnectionMap} {setup : AudioSetup}
  {plans : List PortPlan}

/-- The components of the flow are no routing components. -/
theorem Realises.not_isRouting (h : Realises env flat setup plans) {c : ComponentRef}
    (hc : c ∈ collectAllComponents flow.root) :
    isRouting setup.infrastructureComponents c = false := by
  have hcreated : AllCreated env.addresses setup.infrastructureComponents := h.inserted.created
  rw [← Bool.not_eq_true, isRouting_iff]
  rintro ⟨routing, hrouting, rfl⟩
  rw [collectAllComponents_eq] at hc
  obtain ⟨component, hmem, heq⟩ := List.mem_map.mp hc
  exact hcreated.self_ne hrouting (List.mem_filter.mp hmem).1 heq.symm

/-- **Senders precede receivers**, also when a routing component is between them. -/
theorem Realises.validOrder (h : Realises env flat setup plans)
    (hcomposite : flow.root.isComposite = true) (hcomplete : Complete flow.root flat)
    {parameterConnections : ParameterConnectionMap} {schedule : List ComponentRef}
    (hschedule : ValidOrder (flow.root.withRoutings setup.infrastructureComponents)
      setup.finalConnections parameterConnections schedule) :
    ValidOrder flow.root flat parameterConnections
      (schedule.filter fun c => !isRouting setup.infrastructureComponents c) := by
  have hcreated : AllCreated env.addresses setup.infrastructureComponents := h.inserted.created
  have hmem : ∀ c, c ∈ schedule.filter (fun c => !isRouting setup.infrastructureComponents c) ↔
      c ∈ collectAllComponents flow.root := by
    intro c
    rw [List.mem_filter, hschedule.mem, mem_collectAllComponents_withRoutings hcomposite,
      ← isRouting_iff]
    constructor
    · rintro ⟨hc | hc, hnot⟩
      · exact hc
      · rw [hc] at hnot
        cases hnot
    · intro hc
      exact ⟨Or.inl hc, by rw [h.not_isRouting hc]; rfl⟩
  have hfilter : ∀ {a b : ComponentRef}, a ∈ collectAllComponents flow.root →
      b ∈ collectAllComponents flow.root → [a, b].Sublist schedule →
      [a, b].Sublist (schedule.filter fun c => !isRouting setup.infrastructureComponents c) := by
    intro a b ha hb hsub
    have hpair := hsub.filter fun c => !isRouting setup.infrastructureComponents c
    simpa [h.not_isRouting ha, h.not_isRouting hb] using hpair
  have hin : ∀ {c : ComponentRef}, c ∈ collectAllComponents flow.root → c ∈ schedule :=
    fun hc => (List.mem_filter.mp ((hmem _).mpr hc)).1
  refine ⟨hschedule.nodup.filter _, hmem, ?_, ?_⟩
  · rintro ⟨s, r⟩ he hs hr
    replace hs := (hmem _).mp hs
    replace hr := (hmem _).mp hr
    refine hfilter hs hr ?_
    obtain ⟨s', hs'⟩ := h.exists_sender hcomplete he
    have hunique : ∀ {s₀}, (s₀, r) ∈ flat → s₀ = s := fun hs₀ =>
      (hcomplete.senderIn_eq hs₀).symm.trans (hcomplete.senderIn_eq he)
    rcases h.mem_cases hcomplete hs' with hflat | ⟨routing, hrouting, ch, idx, -, -, rfl, -, -⟩ |
        ⟨routing, hrouting, ch, idx, s₀, -, rfl, hflat, hbefore⟩
    · obtain rfl := hunique hflat
      exact hschedule.audio _ hs' (hin hs) (hin hr)
    · obtain ⟨k, -, hk⟩ := hcreated.exists_of_mem hrouting
      exact absurd rfl (hk.input_ne (hcomplete.receiver _ he))
    · obtain rfl := hunique hflat
      have hself : routing.self ∈ schedule := (hschedule.mem _).mpr
        ((mem_collectAllComponents_withRoutings hcomposite).mpr (Or.inr ⟨routing, hrouting, rfl⟩))
      have hfirst := hschedule.audio (s₀, ⟨routing.input, idx⟩) hbefore (hin hs) hself
      have hsecond := hschedule.audio (⟨routing.output, ch⟩, r) hs' hself (hin hr)
      exact pair_sublist_trans hschedule.nodup hfirst hsecond
  · intro conn hconn hs hr
    replace hs := (hmem _).mp hs
    replace hr := (hmem _).mp hr
    exact hfilter hs hr (hschedule.parameters conn hconn (hin hs) (hin hr))

end Schedule

end Visr
