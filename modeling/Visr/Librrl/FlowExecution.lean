import Visr.Librrl.FlowWiring

/-!
# Execution of a signal flow

The execution of the schedule is an execution of a dataflow in buffers, in which the routing components
are copies.  The dataflow that the hierarchical connections of the flow describe does without them.

## Main results

* `Prepared.scheduled` — in the schedule, no value is missing.
* `Prepared.faithful` — **what is written to a channel is read by those that are connected to it**.
* `Prepared.executeComponents_eq` — the schedule is executed in the pool.
* `Prepared.bypass` — the routing components make no difference.
-/

namespace Visr

namespace AudioSignalFlow

open Dataflow Slices

variable {S β : Type}

/-- The dataflow that the connections of a flow describe.  Only the inputs of atomic components and the
external outputs matter. -/
structure FlowNetwork (root : Component) (net : Network ComponentRef AudioChannel AudioChannel) :
    Prop where
  inputs : ∀ c ∈ collectAllComponents root, net.inputs c = channelsOf root c .input
  outputs : ∀ c ∈ collectAllComponents root, net.outputs c = channelsOf root c .output
  source : ∀ r s, r.isPlaceholder = false → (net.source r = some s ↔
    s.isPlaceholder = false ∧ AudioConnectionMap.Feeds (AudioConnectionMap.allPairs root) s r)

/-- The bytes of a block at a channel. -/
def BlockOf (period : ℕ) (c : AudioChannel) (block : List β) : Prop :=
  block.length = period * c.port.sampleType.typeSize

/-- From blocks at their inputs, the atomic components make blocks for all of their outputs. -/
def Sized (root : Component) (period : ℕ) (b : ComponentBehaviour S β) : Prop :=
  ∀ c ∈ collectAllComponents root, ∀ s blocks s' results,
    List.Forall₂ (BlockOf period) (channelsOf root c .input) blocks →
    b c s blocks = .ok (s', results) →
    List.Forall₂ (BlockOf period) (channelsOf root c .output) results

/-! ### The dataflow that is executed -/

section Executed

variable (setup : AudioSetup)

/-- The routing component in a schedule. -/
def routingOf (c : ComponentRef) : Option SignalRoutingInternal :=
  setup.infrastructureComponents.find? fun routing => routing.self = c

/-- The dataflow with the routing components. -/
def executedNetwork (root : Component) : Network ComponentRef AudioChannel AudioChannel where
  inputs c := match routingOf setup c with
    | some routing => routing.inputIndices.map fun idx => ⟨routing.input, idx⟩
    | none => channelsOf root c .input
  outputs c := match routingOf setup c with
    | some routing => routing.output.channels
    | none => channelsOf root c .output
  source := setup.finalConnections.senderOf

/-- Routing components copy. -/
def executedBehaviour (b : ComponentBehaviour S β) : ComponentBehaviour S β := fun c s blocks =>
  if isRouting setup.infrastructureComponents c then .ok (s, blocks) else b c s blocks

/-- The channel whose samples are found at an output. -/
def originalOf (w : AudioChannel) : AudioChannel :=
  match setup.infrastructureComponents.find? fun routing => routing.output = w.port with
  | some routing => (routing.inputIndices[w.channel]?.bind fun idx =>
      setup.finalConnections.senderOf ⟨routing.input, idx⟩).getD w
  | none => w

end Executed

/-- A runtime system for a composite flow, with what its constructor has found out. -/
structure Prepared (flow : Flow) (env : AudioEnvironment flow.root) (f : AudioSignalFlow)
    (flat : AudioConnectionMap) (plans : List PortPlan)
    (parameterConnections : ParameterConnectionMap) : Prop where
  composite : flow.root.isComposite = true
  flattened : Flattened flow.root flat
  realises : Realises env flat f.setup plans
  period : f.period = env.period
  schedule : ValidOrder (flow.root.withRoutings f.setup.infrastructureComponents)
    f.setup.finalConnections parameterConnections f.processingSchedule
  capture : f.captureChannels = externalChannels flow.root f.setup.buffers .input
  playback : f.playbackChannels = externalChannels flow.root f.setup.buffers .output

section Prepared

variable {flow : Flow} {env : AudioEnvironment flow.root} {f : AudioSignalFlow}
  {flat : AudioConnectionMap} {plans : List PortPlan} {parameterConnections : ParameterConnectionMap}
  (h : Prepared flow env f flat plans parameterConnections)

include h

theorem Prepared.created : AllCreated env.addresses f.setup.infrastructureComponents :=
  h.realises.inserted.created

/-- The routing component that is executed. -/
theorem Prepared.routingOf_self {routing : SignalRoutingInternal}
    (hrouting : routing ∈ f.setup.infrastructureComponents) :
    routingOf f.setup routing.self = some routing := by
  rcases hfind : routingOf f.setup routing.self with _ | routing'
  · have hnone := List.find?_eq_none.mp hfind routing hrouting
    simp at hnone
  · have hself : routing'.self = routing.self := by simpa using List.find?_some hfind
    rw [h.created.eq_of_self (List.mem_of_find?_eq_some hfind) hrouting hself]

omit h in
theorem routingOf_eq_none {c : ComponentRef}
    (hc : isRouting f.setup.infrastructureComponents c = false) : routingOf f.setup c = none := by
  refine List.find?_eq_none.mpr fun routing hrouting hself => ?_
  rw [← Bool.not_eq_true, isRouting_iff] at hc
  exact hc ⟨routing, hrouting, by simpa using hself⟩

/-- An atomic component of the flow, or a routing component. -/
theorem Prepared.mem_schedule {c : ComponentRef} (hc : c ∈ f.processingSchedule) :
    (c ∈ collectAllComponents flow.root ∧
      isRouting f.setup.infrastructureComponents c = false) ∨
    ∃ routing ∈ f.setup.infrastructureComponents, routing.self = c := by
  rcases (mem_collectAllComponents_withRoutings h.composite).mp ((h.schedule.mem c).mp hc) with
    hc | hc
  · exact Or.inl ⟨hc, h.realises.not_isRouting hc⟩
  · exact Or.inr hc

end Prepared

/-! ### Channels of the components -/

section Channels

variable {flow : Flow}

theorem mem_channels {port : AudioPort} {c : AudioChannel} :
    c ∈ port.channels ↔ c.port = port ∧ c.channel < port.width := by
  simp only [AudioPort.channels, List.mem_map, List.mem_range]
  constructor
  · rintro ⟨idx, hidx, rfl⟩
    exact ⟨rfl, hidx⟩
  · rintro ⟨rfl, hidx⟩
    exact ⟨_, hidx, rfl⟩

theorem mem_channelsOf_component {component : Component} {direction : Direction}
    {c : AudioChannel} : c ∈ component.channelsOf direction ↔
      c.port ∈ component.audioPorts ∧ c.port.direction = direction ∧ c.channel < c.port.width := by
  simp only [Component.channelsOf, List.mem_flatMap, List.mem_filter, mem_channels,
    decide_eq_true_eq]
  constructor
  · rintro ⟨port, ⟨hport, hdirection⟩, rfl, hwidth⟩
    exact ⟨hport, hdirection, hwidth⟩
  · rintro ⟨hport, hdirection, hwidth⟩
    exact ⟨_, ⟨hport, hdirection⟩, rfl, hwidth⟩

/-- The channels of an atomic component. -/
theorem mem_channelsOf {c : ComponentRef} (hc : c ∈ collectAllComponents flow.root)
    {direction : Direction} {r : AudioChannel} :
    r ∈ channelsOf flow.root c direction ↔ ∃ atom ∈ flow.root.preorder,
      atom.isComposite = false ∧ atom.self = c ∧ r ∈ atom.channelsOf direction := by
  have hwf := flow.wellFormed
  rw [collectAllComponents_eq] at hc
  obtain ⟨atom, hatom, rfl⟩ := List.mem_map.mp hc
  obtain ⟨hatom, hatomic⟩ := List.mem_filter.mp hatom
  have hfind : flow.root.preorder.find? (fun component => component.self = atom.self) =
      some atom := by
    rcases hfind : flow.root.preorder.find? fun component => component.self = atom.self with
      _ | atom'
    · have hnone := List.find?_eq_none.mp hfind atom hatom
      simp at hnone
    · have hself : atom'.self = atom.self := by simpa using List.find?_some hfind
      rw [hfind]
      exact congrArg some
        (Component.eq_of_self hwf.addresses (List.mem_of_find?_eq_some hfind) hatom hself)
  unfold channelsOf
  rw [hfind]
  constructor
  · intro hr
    exact ⟨atom, hatom, by simpa using hatomic, rfl, hr⟩
  · rintro ⟨atom', hatom', -, hself, hr⟩
    rw [← Component.eq_of_self hwf.addresses hatom' hatom hself]
    exact hr

/-- The channels of the atomic components are concrete. -/
theorem concrete_of_mem_channelsOf (own : Direction) {c : ComponentRef}
    (hc : c ∈ collectAllComponents flow.root) {inner : Direction} {r : AudioChannel}
    (hr : r ∈ channelsOf flow.root c inner) :
    ConcreteChannel own inner flow.root r ∧ r.port.parent = c := by
  obtain ⟨atom, hatom, hatomic, rfl, hmem⟩ := (mem_channelsOf hc).mp hr
  obtain ⟨hport, hdirection, hwidth⟩ := mem_channelsOf_component.mp hmem
  exact ⟨⟨hwidth, Or.inr ⟨atom, hatom, hatomic, hport, hdirection⟩⟩,
    flow.wellFormed.audioParent atom hatom _ hport⟩

/-- A concrete channel is an external one, or belongs to an atomic component. -/
theorem ConcreteChannel.cases {own inner : Direction} {r : AudioChannel}
    (h : ConcreteChannel own inner flow.root r) : r ∈ flow.root.channelsOf own ∨
      r.port.parent ∈ collectAllComponents flow.root ∧
        r ∈ channelsOf flow.root r.port.parent inner := by
  obtain ⟨hwidth, ⟨hport, hdirection⟩ | ⟨atom, hatom, hatomic, hport, hdirection⟩⟩ := h
  · exact Or.inl (mem_channelsOf_component.mpr ⟨hport, hdirection, hwidth⟩)
  · right
    have hparent := flow.wellFormed.audioParent atom hatom _ hport
    have hmem : r.port.parent ∈ collectAllComponents flow.root := by
      rw [hparent, collectAllComponents_eq]
      refine List.mem_map_of_mem (List.mem_filter.mpr ⟨hatom, ?_⟩)
      rw [hatomic]
      rfl
    exact ⟨hmem, (mem_channelsOf hmem).mpr ⟨atom, hatom, hatomic, hparent.symm,
      mem_channelsOf_component.mpr ⟨hport, hdirection, hwidth⟩⟩⟩

end Channels

/-! ### The schedule -/

section Scheduled

variable {flow : Flow} {env : AudioEnvironment flow.root} {f : AudioSignalFlow}
  {flat : AudioConnectionMap} {plans : List PortPlan} {parameterConnections : ParameterConnectionMap}
  (h : Prepared flow env f flat plans parameterConnections)

include h

theorem Prepared.source_eq_some {r s : AudioChannel} :
    (executedNetwork f.setup flow.root).source r = some s ↔ (s, r) ∈ f.setup.finalConnections :=
  AudioConnectionMap.senderOf_eq_some_iff h.realises.single

theorem Prepared.inputs_routing {routing : SignalRoutingInternal}
    (hrouting : routing ∈ f.setup.infrastructureComponents) :
    (executedNetwork f.setup flow.root).inputs routing.self =
      routing.inputIndices.map fun idx => ⟨routing.input, idx⟩ := by
  unfold executedNetwork
  dsimp only
  rw [h.routingOf_self hrouting]

theorem Prepared.outputs_routing {routing : SignalRoutingInternal}
    (hrouting : routing ∈ f.setup.infrastructureComponents) :
    (executedNetwork f.setup flow.root).outputs routing.self = routing.output.channels := by
  unfold executedNetwork
  dsimp only
  rw [h.routingOf_self hrouting]

omit h in
theorem inputs_ordinary {c : ComponentRef}
    (hc : isRouting f.setup.infrastructureComponents c = false) :
    (executedNetwork f.setup flow.root).inputs c = channelsOf flow.root c .input := by
  unfold executedNetwork
  dsimp only
  rw [routingOf_eq_none hc]

omit h in
theorem outputs_ordinary {c : ComponentRef}
    (hc : isRouting f.setup.infrastructureComponents c = false) :
    (executedNetwork f.setup flow.root).outputs c = channelsOf flow.root c .output := by
  unfold executedNetwork
  dsimp only
  rw [routingOf_eq_none hc]

/-- Each input of a scheduled component is connected. -/
theorem Prepared.exists_source {c : ComponentRef} (hc : c ∈ f.processingSchedule)
    {r : AudioChannel} (hr : r ∈ (executedNetwork f.setup flow.root).inputs c) :
    r.port.parent = c ∧ ∃ s, (s, r) ∈ f.setup.finalConnections := by
  have hcomplete := h.flattened.complete
  rcases h.mem_schedule hc with ⟨hatom, hordinary⟩ | ⟨routing, hrouting, rfl⟩
  · rw [inputs_ordinary hordinary] at hr
    obtain ⟨hconcrete, hparent⟩ := concrete_of_mem_channelsOf .output hatom hr
    obtain ⟨s, hs⟩ := (h.flattened.receives r).mpr hconcrete
    exact ⟨hparent, h.realises.exists_sender hcomplete hs⟩
  · rw [h.inputs_routing hrouting] at hr
    obtain ⟨idx, hidx, rfl⟩ := List.mem_map.mp hr
    obtain ⟨ch, hch⟩ := List.getElem?_of_mem hidx
    obtain ⟨s, -, -, hs, -⟩ := h.realises.exists_copy hcomplete hrouting hch
    exact ⟨rfl, s, hs⟩

/-- Each output of a scheduled component is connected. -/
theorem Prepared.exists_target {c : ComponentRef} (hc : c ∈ f.processingSchedule)
    {w : AudioChannel} (hw : w ∈ (executedNetwork f.setup flow.root).outputs c) :
    ∃ r, (w, r) ∈ f.setup.finalConnections := by
  have hcomplete := h.flattened.complete
  rcases h.mem_schedule hc with ⟨hatom, hordinary⟩ | ⟨routing, hrouting, rfl⟩
  · rw [outputs_ordinary hordinary] at hw
    obtain ⟨hconcrete, -⟩ := concrete_of_mem_channelsOf .input hatom hw
    obtain ⟨r, hr⟩ := (h.flattened.sends w).mpr hconcrete
    exact h.realises.exists_receiver hcomplete hr
  · rw [h.outputs_routing hrouting] at hw
    obtain ⟨hport, hwidth⟩ := mem_channels.mp hw
    obtain ⟨idx, hidx⟩ : ∃ idx, routing.inputIndices[w.channel]? = some idx :=
      ⟨_, List.getElem?_eq_getElem hwidth⟩
    obtain ⟨-, r, -, -, hr⟩ := h.realises.exists_copy hcomplete hrouting hidx
    refine ⟨r, ?_⟩
    rw [← hport] at hr
    exact hr

/-- The sender of a connection is an external channel, or the output of a scheduled component. -/
theorem Prepared.sender_cases {s r : AudioChannel} (he : (s, r) ∈ f.setup.finalConnections) :
    s ∈ flow.root.channelsOf .input ∨ s.port.parent ∈ f.processingSchedule ∧
      s ∈ (executedNetwork f.setup flow.root).outputs s.port.parent := by
  have hmem : ∀ c, c ∈ f.processingSchedule ↔ c ∈ collectAllComponents flow.root ∨
      ∃ routing ∈ f.setup.infrastructureComponents, routing.self = c := fun c =>
    (h.schedule.mem c).trans (mem_collectAllComponents_withRoutings h.composite)
  have hflat : ∀ {r₀}, (s, r₀) ∈ flat → s ∈ flow.root.channelsOf .input ∨
      s.port.parent ∈ f.processingSchedule ∧
        s ∈ (executedNetwork f.setup flow.root).outputs s.port.parent := by
    intro r₀ hr₀
    rcases ConcreteChannel.cases ((h.flattened.sends s).mp ⟨r₀, hr₀⟩) with hext | ⟨hatom, hown⟩
    · exact Or.inl hext
    · refine Or.inr ⟨(hmem _).mpr (Or.inl hatom), ?_⟩
      rw [outputs_ordinary (h.realises.not_isRouting hatom)]
      exact hown
  rcases h.realises.mem_cases h.flattened.complete he with hr | ⟨-, -, -, -, r₀, -, -, hr₀, -⟩ |
      ⟨routing, hrouting, ch, idx, s₀, hidx, rfl, -, -⟩
  · exact hflat hr
  · exact hflat hr₀
  · refine Or.inr ⟨(hmem _).mpr (Or.inr ⟨routing, hrouting, rfl⟩), ?_⟩
    change _ ∈ (executedNetwork f.setup flow.root).outputs routing.self
    rw [h.outputs_routing hrouting]
    exact mem_channels.mpr ⟨rfl, (List.getElem?_eq_some_iff.mp hidx).1⟩

/-- **The schedule is an order in which no value is missing.** -/
theorem Prepared.scheduled :
    Scheduled (executedNetwork f.setup flow.root) (fun w => w ∈ flow.root.channelsOf .input)
      f.processingSchedule := by
  refine scheduled_of_order fun before n after heq r hr => ?_
  have hn : n ∈ f.processingSchedule := by
    rw [heq]
    exact List.mem_append_right _ List.mem_cons_self
  obtain ⟨hparent, s, hs⟩ := h.exists_source hn hr
  refine ⟨s, h.source_eq_some.mpr hs, ?_⟩
  rcases h.sender_cases hs with hext | ⟨hmem, hout⟩
  · exact Or.inl hext
  · refine Or.inr ⟨s.port.parent, ?_, hout⟩
    have hsub := h.schedule.audio (s, r) hs hmem (hparent ▸ hn)
    dsimp only at hsub
    rw [hparent, heq] at hsub
    exact mem_of_pair_sublist (heq ▸ h.schedule.nodup) hsub

end Scheduled

/-! ### The pool -/

/-- The pool of a runtime system. -/
def poolBuffers (f : AudioSignalFlow) : Buffers (ℕ → β) AudioChannel AudioChannel (List β) :=
  ⟨f.readChannel, f.writeChannel⟩

/-- A block for a channel that is connected. -/
def Fits (f : AudioSignalFlow) (w : AudioChannel) (block : List β) : Prop :=
  BlockOf f.period w block ∧ ∃ r, (w, r) ∈ f.setup.finalConnections

section Pool

variable {flow : Flow} {env : AudioEnvironment flow.root} {f : AudioSignalFlow}
  {flat : AudioConnectionMap} {plans : List PortPlan} {parameterConnections : ParameterConnectionMap}
  (h : Prepared flow env f flat plans parameterConnections)

include h

theorem Prepared.channelAddress {s r : AudioChannel} (he : (s, r) ∈ f.setup.finalConnections) :
    f.channelAddress s = f.channelAddress r ∧
      cVectorAlignmentBytes ∣ f.channelAddress s := by
  obtain ⟨address, hs, hr, hpool⟩ := h.realises.shared _ he
  unfold AudioSignalFlow.channelAddress
  rw [hs, hr]
  exact ⟨rfl, hpool.aligned⟩

/-- The blocks of different send channels have no bytes in common. -/
theorem Prepared.apart {s r s' r' : AudioChannel} (he : (s, r) ∈ f.setup.finalConnections)
    (he' : (s', r') ∈ f.setup.finalConnections) (hne : s ≠ s') :
    Apart (f.channelAddress s) (f.period * s.port.sampleType.typeSize)
      (f.channelAddress s') (f.period * s'.port.sampleType.typeSize) := by
  obtain ⟨address, hs, -, -⟩ := h.realises.shared _ he
  obtain ⟨address', hs', -, -⟩ := h.realises.shared _ he'
  have hapart := h.realises.apart _ he _ he' hne _ _ hs hs'
  unfold AudioSignalFlow.channelAddress
  rw [hs, hs', h.period]
  exact hapart.mono (le_channelSizeBytes _ _) (le_channelSizeBytes _ _)

/-- **What is written to a channel is read by those that are connected to it**, and does not change
the samples of the others. -/
theorem Prepared.faithful : (poolBuffers (β := β) f).Faithful
    (executedNetwork f.setup flow.root) (Fits f) where
  read_write_same m r w v hr hv := by
    have he := h.source_eq_some.mp hr
    show load (store m (f.channelAddress w) v) (f.channelAddress r) _ = v
    rw [(h.channelAddress he).1]
    refine load_store_same m _ ?_
    rw [← h.realises.sampleType _ he]
    exact hv.1
  read_write_other m r w w' v hr hne hv := by
    have he := h.source_eq_some.mp hr
    obtain ⟨r', he'⟩ := hv.2
    show load (store m (f.channelAddress w') v) (f.channelAddress r) _ = load m _ _
    rw [← (h.channelAddress he).1]
    refine load_store_apart m ?_
    rw [← h.realises.sampleType _ he, hv.1]
    exact h.apart he he' hne

/-- The scheduled components write blocks. -/
theorem Prepared.fitting {b : ComponentBehaviour S β} (hb : Sized flow.root f.period b) :
    Fitting (executedNetwork f.setup flow.root) (Fits f) (executedBehaviour f.setup b)
      f.processingSchedule := by
  intro c hc s blocks s' results hinputs hresult
  -- the blocks that are read have the size of a block at the input
  have hblocks : List.Forall₂ (BlockOf f.period)
      ((executedNetwork f.setup flow.root).inputs c) blocks := by
    refine hinputs.imp ?_
    rintro r v ⟨w, hw, hlen, -⟩
    have he := h.source_eq_some.mp hw
    unfold BlockOf
    rw [← h.realises.sampleType _ he]
    exact hlen
  have htargets := fun w hw => h.exists_target hc (w := w) hw
  suffices hsized : List.Forall₂ (BlockOf f.period)
      ((executedNetwork f.setup flow.root).outputs c) results by
    rw [List.forall₂_iff_zip] at hsized ⊢
    exact ⟨hsized.1, fun hmem => ⟨hsized.2 hmem, htargets _ (List.of_mem_zip hmem).1⟩⟩
  rcases h.mem_schedule hc with ⟨hatom, hordinary⟩ | ⟨routing, hrouting, rfl⟩
  · rw [inputs_ordinary hordinary] at hblocks
    rw [outputs_ordinary hordinary]
    refine hb c hatom s blocks s' results hblocks ?_
    unfold executedBehaviour at hresult
    rw [hordinary] at hresult
    exact hresult
  · have hcopy : isRouting f.setup.infrastructureComponents routing.self = true :=
      isRouting_iff.mpr ⟨routing, hrouting, rfl⟩
    unfold executedBehaviour at hresult
    rw [if_pos hcopy] at hresult
    cases hresult
    rw [h.inputs_routing hrouting, List.forall₂_map_left_iff] at hblocks
    rw [h.outputs_routing hrouting]
    unfold AudioPort.channels
    rw [List.forall₂_map_left_iff, List.forall₂_iff_get]
    refine ⟨?_, fun i hi hi' => ?_⟩
    · rw [List.length_range]
      exact hblocks.length_eq
    · have hi'' : i < routing.inputIndices.length := by rwa [hblocks.length_eq]
      exact (List.forall₂_iff_get.mp hblocks).2 i hi'' hi'

omit h in
theorem channelPointer_bufferOf (port : AudioPort) (idx : ℕ) :
    (f.bufferOf port).channelPointer port.sampleType idx = f.channelAddress ⟨port, idx⟩ := by
  unfold bufferOf AudioSignalFlow.channelAddress BufferTable.channelPointer
  cases f.setup.buffers port with
  | none => simp [Buffer.channelPointer]
  | some buffer => rfl

/-- The alignment that the copies require. -/
def CopiesAligned (f : AudioSignalFlow) : Prop :=
  ∀ routing ∈ f.setup.infrastructureComponents,
    cVectorAlignmentSamples * routing.sampleType.typeSize ∣ cVectorAlignmentBytes

/-- The routing component copies its inputs to its outputs. -/
theorem Prepared.process_routing (haligned : CopiesAligned f) {routing : SignalRoutingInternal}
    (hrouting : routing ∈ f.setup.infrastructureComponents) (m : ℕ → β) :
    routing.process f.period (f.bufferOf routing.input) (f.bufferOf routing.output) m =
      .ok ((poolBuffers f).store (routing.output.channels.zip
        ((routing.inputIndices.map fun idx => (⟨routing.input, idx⟩ : AudioChannel)).map
          (f.readChannel m))) m) := by
  have hcomplete := h.flattened.complete
  have hin : ∀ idx, (f.bufferOf routing.input).channelPointer routing.sampleType idx =
      f.channelAddress ⟨routing.input, idx⟩ := channelPointer_bufferOf routing.input
  have hout : ∀ ch, (f.bufferOf routing.output).channelPointer routing.sampleType ch =
      f.channelAddress ⟨routing.output, ch⟩ := channelPointer_bufferOf routing.output
  have hentry : ∀ entry ∈ routing.inputIndices.zipIdx,
      routing.inputIndices[entry.2]? = some entry.1 := fun entry hmem =>
    List.mem_zipIdx_iff_getElem?.mp hmem
  rw [SignalRoutingInternal.process_eq]
  · -- the copies are the stores of the blocks
    refine congrArg Except.ok ?_
    have hzip : routing.output.channels.zip
        ((routing.inputIndices.map fun idx => (⟨routing.input, idx⟩ : AudioChannel)).map
          (f.readChannel m)) = routing.inputIndices.zipIdx.map fun entry =>
        (⟨routing.output, entry.2⟩, f.readChannel m ⟨routing.input, entry.1⟩) := by
      refine List.ext_getElem ?_ fun i hi hi' => ?_
      · simp [AudioPort.channels, SignalRoutingInternal.output]
      · simp [AudioPort.channels]
    unfold Buffers.store
    rw [hzip, List.foldl_map]
    unfold SignalRoutingInternal.copies
    simp only [hin, hout]
    rfl
  · intro entry hmem
    obtain ⟨s, r, -, hs, hr⟩ := h.realises.exists_copy hcomplete hrouting (hentry entry hmem)
    unfold SignalRoutingInternal.PairAligned SignalRoutingInternal.aligned
    rw [hin, hout, decide_eq_true_eq, decide_eq_true_eq]
    constructor
    · rw [← (h.channelAddress hs).1]
      exact Nat.mod_eq_zero_of_dvd ((haligned routing hrouting).trans (h.channelAddress hs).2)
    · exact Nat.mod_eq_zero_of_dvd ((haligned routing hrouting).trans (h.channelAddress hr).2)
  · intro entry hmem entry' hmem'
    obtain ⟨s, r, hflat, hs, -⟩ := h.realises.exists_copy hcomplete hrouting (hentry entry hmem)
    obtain ⟨-, r', -, -, hr'⟩ := h.realises.exists_copy hcomplete hrouting (hentry entry' hmem')
    rw [hin, hout, ← (h.channelAddress hs).1]
    have hne : s ≠ ⟨routing.output, entry'.2⟩ := by
      obtain ⟨k, -, hk⟩ := h.created.exists_of_mem hrouting
      intro heq
      refine hk.output_ne (hcomplete.sender _ hflat) ?_
      rw [heq]
    have hapart := h.apart hs hr' hne
    rw [h.realises.sampleType _ hs] at hapart
    exact hapart

/-- **One component**: it reads and writes its channels in the pool. -/
theorem Prepared.processComponent_eq (haligned : CopiesAligned f) (b : ComponentBehaviour S β)
    {c : ComponentRef} (hc : c ∈ f.processingSchedule) (x : S × (ℕ → β)) :
    f.processComponent flow.root b x c =
      (poolBuffers f).step (executedNetwork f.setup flow.root) (executedBehaviour f.setup b) x c := by
  unfold processComponent Buffers.step executedBehaviour
  rcases h.mem_schedule hc with ⟨-, hordinary⟩ | ⟨routing, hrouting, rfl⟩
  · have hfind : (f.setup.infrastructureComponents.find? fun routing => routing.self = c) = none :=
      routingOf_eq_none hordinary
    rw [hfind, hordinary, inputs_ordinary hordinary, outputs_ordinary hordinary]
    rfl
  · have hfind : (f.setup.infrastructureComponents.find? fun routing' =>
        routing'.self = routing.self) = some routing := h.routingOf_self hrouting
    have hcopy : isRouting f.setup.infrastructureComponents routing.self = true :=
      isRouting_iff.mpr ⟨routing, hrouting, rfl⟩
    rw [hfind, if_pos hcopy, h.inputs_routing hrouting, h.outputs_routing hrouting]
    dsimp only
    rw [h.process_routing haligned hrouting]
    rfl

/-- The schedule is executed in the pool. -/
theorem Prepared.executeComponents_eq (haligned : CopiesAligned f) (b : ComponentBehaviour S β)
    (x : S × (ℕ → β)) :
    f.executeComponents flow.root b x =
      ((poolBuffers f).run (executedNetwork f.setup flow.root) (executedBehaviour f.setup b)
        f.processingSchedule x).mapError fun e =>
          .runtimeError ("Exception while executing audio signal flow: " ++ e.what) := by
  have hloop : ∀ (l : List ComponentRef), (∀ c ∈ l, c ∈ f.processingSchedule) →
      ∀ x : S × (ℕ → β), l.foldlM (f.processComponent flow.root b) x =
        (poolBuffers f).run (executedNetwork f.setup flow.root) (executedBehaviour f.setup b) l x := by
    intro l
    induction l with
    | nil => exact fun _ _ => rfl
    | cons c l ih =>
      intro hl x
      obtain ⟨hc, hl⟩ := List.forall_mem_cons.mp hl
      rw [List.foldlM_cons, Buffers.run_cons, h.processComponent_eq haligned b hc]
      exact bind_congr fun y => ih hl y
  unfold executeComponents
  rw [hloop _ fun _ hc => hc]

end Pool

/-! ### Without the routing components -/

section Bypass

variable {flow : Flow} {env : AudioEnvironment flow.root} {f : AudioSignalFlow}
  {flat : AudioConnectionMap} {plans : List PortPlan} {parameterConnections : ParameterConnectionMap}
  (h : Prepared flow env f flat plans parameterConnections)
  {net : Network ComponentRef AudioChannel AudioChannel} (hnet : FlowNetwork flow.root net)

include h

/-- The samples of an atomic component, and of an external channel, are its own. -/
theorem Prepared.originalOf_concrete {w : AudioChannel} (hw : ConcreteSend flow.root w) :
    originalOf f.setup w = w := by
  obtain ⟨r, hr⟩ := (h.flattened.sends w).mpr hw
  unfold originalOf
  rw [List.find?_eq_none.mpr]
  intro routing hrouting heq
  obtain ⟨k, -, hk⟩ := h.created.exists_of_mem hrouting
  exact hk.output_ne (h.flattened.complete.sender _ hr) (by simpa using heq)

/-- The samples at the output of a routing component are those of its sender. -/
theorem Prepared.originalOf_output {routing : SignalRoutingInternal}
    (hrouting : routing ∈ f.setup.infrastructureComponents) {ch idx : ℕ}
    (hidx : routing.inputIndices[ch]? = some idx) {s : AudioChannel}
    (hs : (s, ⟨routing.input, idx⟩) ∈ f.setup.finalConnections) :
    originalOf f.setup ⟨routing.output, ch⟩ = s := by
  have hfind : (f.setup.infrastructureComponents.find? fun routing' =>
      routing'.output = (⟨routing.output, ch⟩ : AudioChannel).port) = some routing := by
    rcases hfind : f.setup.infrastructureComponents.find? fun routing' =>
        routing'.output = (⟨routing.output, ch⟩ : AudioChannel).port with _ | routing'
    · have hnone := List.find?_eq_none.mp hfind routing hrouting
      simp at hnone
    · have hout : routing'.output = routing.output := by simpa using List.find?_some hfind
      rw [hfind, h.created.eq_of_output (List.mem_of_find?_eq_some hfind) hrouting hout]
  have hsender := h.source_eq_some.mpr hs
  unfold originalOf
  rw [hfind]
  dsimp only
  rw [hidx, Option.bind_some]
  exact (congrArg (fun c => Option.getD c _) hsender).trans rfl

include hnet

/-- What a concrete channel receives in the two networks. -/
theorem Prepared.source_original {r : AudioChannel} (hr : ConcreteReceive flow.root r) :
    ∃ s, (s, r) ∈ f.setup.finalConnections ∧ net.source r = some (originalOf f.setup s) := by
  have hcomplete := h.flattened.complete
  obtain ⟨s₀, hs₀⟩ := (h.flattened.receives r).mpr hr
  obtain ⟨s, hs⟩ := h.realises.exists_sender hcomplete hs₀
  have hsource : ∀ {s₁}, (s₁, r) ∈ flat → net.source r = some s₁ := by
    intro s₁ hs₁
    obtain ⟨hconcrete, hconcrete', hfeeds⟩ := (h.flattened.feeds s₁ r).mp hs₁
    exact (hnet.source r s₁ hconcrete').mpr ⟨hconcrete, hfeeds⟩
  refine ⟨s, hs, ?_⟩
  rcases h.realises.mem_cases hcomplete hs with hflat | ⟨routing, hrouting, -, idx, -, -, rfl, -, -⟩ |
      ⟨routing, hrouting, ch, idx, s₁, hidx, rfl, hflat, hbefore⟩
  · rw [h.originalOf_concrete ((h.flattened.sends s).mp ⟨r, hflat⟩)]
    exact hsource hflat
  · obtain ⟨k, -, hk⟩ := h.created.exists_of_mem hrouting
    exact absurd rfl (hk.input_ne (hcomplete.receiver _ hs₀))
  · rw [h.originalOf_output hrouting hidx hbefore]
    exact hsource hflat

/-- **The routing components make no difference.** -/
theorem Prepared.bypass (b : ComponentBehaviour S β) :
    ∀ c ∈ f.processingSchedule, Bypass (executedNetwork f.setup flow.root) net
      (executedBehaviour f.setup b) (isRouting f.setup.infrastructureComponents)
      (originalOf f.setup) c := by
  intro c hc
  have hatom : isRouting f.setup.infrastructureComponents c = false →
      c ∈ collectAllComponents flow.root := by
    intro hordinary
    rcases h.mem_schedule hc with ⟨hatom, -⟩ | hrouting
    · exact hatom
    · rw [isRouting_iff.mpr hrouting] at hordinary
      cases hordinary
  refine ⟨?_, ?_, ?_, ?_, ?_, ?_⟩
  · intro hcopy s blocks _
    exact if_pos hcopy
  · intro hcopy e he
    obtain ⟨routing, hrouting, rfl⟩ := isRouting_iff.mp hcopy
    rw [h.inputs_routing hrouting, h.outputs_routing hrouting] at he
    obtain ⟨i, hi, rfl⟩ := List.getElem_of_mem he
    rw [List.length_zip, List.length_map] at hi
    have hlt : i < routing.inputIndices.length := by omega
    have hidx : routing.inputIndices[i]? = some routing.inputIndices[i] :=
      List.getElem?_eq_getElem hlt
    obtain ⟨s, r, hflat, hs, -⟩ := h.realises.exists_copy h.flattened.complete hrouting hidx
    have hout := h.originalOf_output hrouting hidx hs
    rw [List.getElem_zip, List.getElem_map, h.source_eq_some.mpr hs, Option.map_some,
      h.originalOf_concrete ((h.flattened.sends s).mp ⟨r, hflat⟩), ← hout]
    simp [AudioPort.channels]
  · intro hordinary
    rw [hnet.inputs c (hatom hordinary), inputs_ordinary hordinary]
  · intro hordinary
    rw [hnet.outputs c (hatom hordinary), outputs_ordinary hordinary]
  · intro hordinary w hw
    rw [outputs_ordinary hordinary] at hw
    exact h.originalOf_concrete (concrete_of_mem_channelsOf .input (hatom hordinary) hw).1
  · intro hordinary r hr
    rw [inputs_ordinary hordinary] at hr
    obtain ⟨s, hs, hsource⟩ := h.source_original hnet
      (concrete_of_mem_channelsOf .output (hatom hordinary) hr).1
    rw [hsource, h.source_eq_some.mpr hs]
    rfl

omit hnet in
/-- The atomic components in the order of their execution. -/
theorem Prepared.validOrder :
    ValidOrder flow.root flat parameterConnections
      (f.processingSchedule.filter fun c => !isRouting f.setup.infrastructureComponents c) :=
  h.realises.validOrder h.composite h.flattened.complete h.schedule

end Bypass

end AudioSignalFlow

end Visr
