import Visr.Librrl.FlowProcessing

/-!
# Creation of runtime systems

What the constructor of a runtime system has found out about a flow when it does not fail, and what the
system then computes.

## Main results

* `create_prepared` — a runtime system that has been created is wired and scheduled.
* `create_processes` — **what it computes is the dataflow of the connections of the flow**.
* `create_memory` — processing stays within the pool.
* `initialiseAudioConnections_checked` — the audio set-up has no logic errors.
-/

namespace Visr

namespace AudioSignalFlow

open Dataflow Slices

/-- The parameter connections of all levels, without placeholders. -/
def ParametersResolved (root : Component) (parameterConnections : ParameterConnectionMap) : Prop :=
  ∃ filled, ParameterConnectionMap.fill root = .ok filled ∧
    filled.connections.resolvePlaceholders = .ok parameterConnections

section Creation

variable {flow : Flow} {env : AudioEnvironment flow.root} {flat : AudioConnectionMap}
  {setup : AudioSetup} {plans : List PortPlan} {parameterConnections : ParameterConnectionMap}

/-- The connections that are scheduled are those of the flow with the routing components. -/
theorem owner_of_dependency (hcomposite : flow.root.isComposite = true)
    (hflat : Flattened flow.root flat) (h : Realises env flat setup plans)
    (hparameters : ∀ e ∈ parameterConnections,
      (e.1.parent ∈ collectAllComponents flow.root ∨ e.1.parent = flow.root.self) ∧
      (e.2.parent ∈ collectAllComponents flow.root ∨ e.2.parent = flow.root.self))
    {d : ComponentRef × ComponentRef}
    (hd : d ∈ dependencies setup.finalConnections parameterConnections) :
    (d.1 ∈ collectAllComponents (flow.root.withRoutings setup.infrastructureComponents) ∨
      d.1 = (flow.root.withRoutings setup.infrastructureComponents).self) ∧
    (d.2 ∈ collectAllComponents (flow.root.withRoutings setup.infrastructureComponents) ∨
      d.2 = (flow.root.withRoutings setup.infrastructureComponents).self) := by
  have hself := (withRoutings_fields flow.root setup.infrastructureComponents).1
  have hold : ∀ {c : ComponentRef},
      c ∈ collectAllComponents flow.root ∨ c = flow.root.self →
      c ∈ collectAllComponents (flow.root.withRoutings setup.infrastructureComponents) ∨
        c = (flow.root.withRoutings setup.infrastructureComponents).self := by
    rintro c (hc | hc)
    · exact Or.inl ((mem_collectAllComponents_withRoutings hcomposite).mpr (Or.inl hc))
    · exact Or.inr (hc.trans hself.symm)
  have hnew : ∀ {routing : SignalRoutingInternal},
      routing ∈ setup.infrastructureComponents → routing.self ∈
        collectAllComponents (flow.root.withRoutings setup.infrastructureComponents) :=
    fun hrouting => (mem_collectAllComponents_withRoutings hcomposite).mpr
      (Or.inr ⟨_, hrouting, rfl⟩)
  have hsend : ∀ {s r : AudioChannel}, (s, r) ∈ flat →
      s.port.parent ∈ collectAllComponents flow.root ∨ s.port.parent = flow.root.self :=
    fun he => ConcreteChannel.owner ((hflat.sends _).mp ⟨_, he⟩)
  have hreceive : ∀ {s r : AudioChannel}, (s, r) ∈ flat →
      r.port.parent ∈ collectAllComponents flow.root ∨ r.port.parent = flow.root.self :=
    fun he => ConcreteChannel.owner ((hflat.receives _).mp ⟨_, he⟩)
  rcases List.mem_append.mp hd with hd | hd
  · obtain ⟨⟨s, r⟩, he, rfl⟩ := List.mem_map.mp hd
    rcases h.mem_cases hflat.complete he with he | ⟨routing, hrouting, ch, idx, r₀, -, rfl, he, -⟩ |
        ⟨routing, hrouting, ch, idx, s₀, -, rfl, he, -⟩
    · exact ⟨hold (hsend he), hold (hreceive he)⟩
    · exact ⟨hold (hsend he), Or.inl (hnew hrouting)⟩
    · exact ⟨Or.inl (hnew hrouting), hold (hreceive he)⟩
  · obtain ⟨e, he, rfl⟩ := List.mem_map.mp hd
    exact ⟨hold (hparameters e he).2, hold (hparameters e he).1⟩

/-- The schedule of the flow with the routing components. -/
theorem schedule_of_realises (lib : GraphLibrary) (hcomposite : flow.root.isComposite = true)
    (hflat : Flattened flow.root flat) (h : Realises env flat setup plans)
    (hparameters : ∀ e ∈ parameterConnections,
      (e.1.parent ∈ collectAllComponents flow.root ∨ e.1.parent = flow.root.self) ∧
      (e.2.parent ∈ collectAllComponents flow.root ∨ e.2.parent = flow.root.self))
    {schedule : List ComponentRef}
    (hok : initialiseSchedule lib (flow.root.withRoutings setup.infrastructureComponents)
      setup.finalConnections parameterConnections = .ok schedule) :
    ValidOrder (flow.root.withRoutings setup.infrastructureComponents) setup.finalConnections
      parameterConnections schedule := by
  have hcreated : AllCreated env.addresses setup.infrastructureComponents := h.inserted.created
  let extended : Flow := ⟨flow.root.withRoutings setup.infrastructureComponents,
    hcreated.wellFormed hcomposite (h.inserted.names
      (flow.wellFormed.childNames _ flow.root.mem_preorder_self))⟩
  let maps : FlatConnections extended.root := ⟨setup.finalConnections, parameterConnections,
    fun d hd => (owner_of_dependency hcomposite hflat h hparameters hd).1,
    fun d hd => (owner_of_dependency hcomposite hflat h hparameters hd).2⟩
  refine initialiseSchedule_spec extended lib ?_ maps hok
  exact (withRoutings_fields _ _).2.2.2.trans hcomposite

/-- The check of all connections. -/
theorem wired_of_check {check : CheckResult}
    (hcheck : checkConnectionIntegrity flow.root = .ok check) (hresult : check.result = true) :
    AudioWired flow.root ∧ ParameterWired flow.root := by
  unfold checkConnectionIntegrity at hcheck
  dsimp only at hcheck
  split at hcheck
  next haudio =>
    refine ⟨(checkAudioConnectionIntegrity_result _).mp haudio,
      (checkParameterConnectionIntegrity_passes _).mp ?_⟩
    rcases hparameters : checkParameterConnectionIntegrity flow.root with e | parameters
    · rw [hparameters] at hcheck
      cases hcheck
    · rw [hparameters] at hcheck
      obtain rfl := Except.ok.inj hcheck
      rw [CheckResult.append_result, Bool.and_eq_true] at hresult
      exact ⟨parameters, rfl, hresult.2⟩
  next haudio =>
    obtain rfl := Except.ok.inj hcheck
    exact absurd hresult haudio

/-- The constructor succeeds step by step. -/
structure CreationSteps {root : Component} (env : AudioEnvironment root)
    (factory : CommunicationProtocolFactory) (labelling : ComponentLabelling) (lib : GraphLibrary)
    (f : AudioSignalFlow) (flat : AudioConnectionMap)
    (parameterConnections : ParameterConnectionMap) : Prop where
  check : ∃ check, checkConnectionIntegrity root = .ok check ∧ check.result = true
  resolved : ∃ original, AudioConnectionMap.ofComponent root = .ok original ∧
    original.resolvePlaceholders = .ok flat
  parametersResolved : ParametersResolved root parameterConnections
  setup : initialiseAudioConnections env flat = .ok f.setup
  schedule : ∃ finalConnections, initialiseParameterInfrastructure factory labelling root
      parameterConnections = .ok (f.parameterInfrastructure, finalConnections) ∧
    initialiseSchedule lib (root.withRoutings f.setup.infrastructureComponents)
      f.setup.finalConnections finalConnections = .ok f.processingSchedule
  period : f.period = env.period
  capture : f.captureChannels = externalChannels root f.setup.buffers .input
  playback : f.playbackChannels = externalChannels root f.setup.buffers .output

omit flat setup plans parameterConnections in
theorem create_steps {factory : CommunicationProtocolFactory} {labelling : ComponentLabelling}
    {lib : GraphLibrary} {f : AudioSignalFlow}
    (hcreate : create env factory labelling lib = .ok f) :
    ∃ flat parameterConnections,
      CreationSteps env factory labelling lib f flat parameterConnections := by
  obtain ⟨check, hcheck, hrest⟩ := exists_of_bind_ok hcreate
  rcases hresult : check.result with _ | _
  · rw [hresult] at hrest
    cases hrest
  rw [hresult] at hrest
  obtain ⟨original, horiginal, hrest⟩ := exists_of_bind_ok hrest
  obtain ⟨flat, hresolved, hrest⟩ := exists_of_bind_ok hrest
  obtain ⟨filled, hfill, hrest⟩ := exists_of_bind_ok hrest
  rcases hfilled : filled.result with _ | _
  · rw [hfilled] at hrest
    cases hrest
  rw [hfilled] at hrest
  obtain ⟨parameterConnections, hparameters, hrest⟩ := exists_of_bind_ok hrest
  obtain ⟨setup, hsetup, hrest⟩ := exists_of_bind_ok hrest
  obtain ⟨parameters, hinfrastructure, hrest⟩ := exists_of_bind_ok hrest
  rcases hinitialised : parameters.1.result with _ | _
  · rw [hinitialised] at hrest
    cases hrest
  rw [hinitialised] at hrest
  obtain ⟨schedule, hschedule, hrest⟩ := exists_of_bind_ok hrest
  obtain rfl := Except.ok.inj hrest
  exact ⟨flat, parameterConnections, ⟨check, hcheck, hresult⟩,
    ⟨original, horiginal, ok_of_mapError hresolved⟩,
    ⟨filled, hfill, ok_of_mapError hparameters⟩, hsetup,
    ⟨parameters.2, hinfrastructure, hschedule⟩, rfl, rfl, rfl⟩

/-- In a composite flow, the parameter connections stay as they are. -/
theorem initialiseParameterInfrastructure_connections {root : Component}
    (hcomposite : root.isComposite = true) {factory : CommunicationProtocolFactory}
    {labelling : ComponentLabelling} {connections : ParameterConnectionMap}
    {result : ParameterInfrastructure × ParameterConnectionMap}
    (h : initialiseParameterInfrastructure factory labelling root connections = .ok result) :
    result.2 = connections := by
  unfold initialiseParameterInfrastructure at h
  rw [if_pos hcomposite] at h
  obtain ⟨graph, -, hrest⟩ := exists_of_bind_ok h
  obtain ⟨acc, -, hrest⟩ := exists_of_bind_ok hrest
  obtain rfl := Except.ok.inj hrest
  rfl

/-- **A runtime system that has been created is wired and scheduled.** -/
theorem create_prepared (hcomposite : flow.root.isComposite = true)
    (htypes : SameSampleTypes flow.root) {factory : CommunicationProtocolFactory}
    {labelling : ComponentLabelling} {lib : GraphLibrary} {f : AudioSignalFlow}
    (hcreate : create env factory labelling lib = .ok f) :
    ∃ flat plans parameterConnections, ParametersResolved flow.root parameterConnections ∧
      Prepared flow env f flat plans parameterConnections := by
  obtain ⟨flat, parameterConnections, hsteps⟩ := create_steps hcreate
  -- the connections of all levels are consistent
  obtain ⟨check, hcheck, hresult⟩ := hsteps.check
  obtain ⟨hwired, hparameterWired⟩ := wired_of_check hcheck hresult
  obtain ⟨original, horiginal, hresolved⟩ := hsteps.resolved
  obtain ⟨original', horiginal', hperm⟩ := AudioConnectionMap.ofComponent_of_wired hwired
  rw [horiginal] at horiginal'
  obtain rfl := Except.ok.inj horiginal'
  have hflat := flattened_of_wired hcomposite hwired htypes hperm hresolved
  -- the buffers have been assigned
  rcases initialiseAudioConnections_spec hcomposite env hflat.complete with
    ⟨setup, plans, hsetup, hrealises⟩ | ⟨⟨message, herror⟩, -⟩
  swap
  · rw [hsteps.setup] at herror
    cases herror
  rw [hsteps.setup] at hsetup
  obtain rfl := Except.ok.inj hsetup
  -- the parameter connections are those of the flow
  obtain ⟨filled, hfill, hparameters⟩ := hsteps.parametersResolved
  have hfilled : ParameterConnectionMap.Filled ⟨.passed, []⟩
      (ParameterConnectionMap.allEntries flow.root) (ParameterConnectionMap.fill flow.root) :=
    ParameterConnectionMap.fillRecursive_of_wired hparameterWired rfl
  obtain ⟨filled', hfill', -, hentries⟩ := hfilled
  rw [hfill] at hfill'
  obtain rfl := Except.ok.inj hfill'
  rw [List.append_nil] at hentries
  have howners := parameterOwners hparameterWired hentries hparameters
  obtain ⟨finalConnections, hinfrastructure, hschedule⟩ := hsteps.schedule
  obtain rfl := initialiseParameterInfrastructure_connections hcomposite hinfrastructure
  exact ⟨flat, plans, _, hsteps.parametersResolved, hcomposite, hflat, hrealises, hsteps.period,
    schedule_of_realises lib hcomposite hflat hrealises howners hschedule, hsteps.capture,
    hsteps.playback⟩

/-- No port carries samples of double precision, whose copies need a larger alignment than the pool
has. -/
def SinglePrecision (root : Component) : Prop :=
  ∀ c ∈ root.preorder, ∀ port ∈ c.audioPorts,
    port.sampleType ≠ .double ∧ port.sampleType ≠ .longDouble

theorem alignment_of_supported {sampleType : AudioSampleType}
    (hsupported : SignalRoutingInternal.supported sampleType = true)
    (h : sampleType ≠ .double ∧ sampleType ≠ .longDouble) :
    cVectorAlignmentSamples * sampleType.typeSize ∣ cVectorAlignmentBytes := by
  cases sampleType with
  | double => exact absurd rfl h.1
  | longDouble => exact absurd rfl h.2
  | complexFloat => cases hsupported
  | complexDouble => cases hsupported
  | _ => decide

/-- The buffers are aligned for the copies. -/
theorem Prepared.copiesAligned {f : AudioSignalFlow}
    (h : Prepared flow env f flat plans parameterConnections)
    (hprecision : SinglePrecision flow.root) : CopiesAligned f := by
  intro routing hrouting
  obtain ⟨plan, hplan, hsome⟩ := h.realises.exists_plan hrouting
  obtain ⟨k, -, hcreated⟩ := h.created.exists_of_mem hrouting
  obtain ⟨e, he, hport⟩ := (h.realises.mem_ports plan.port).mp (List.mem_map_of_mem hplan)
  -- the port of the plan is a port of the flow
  have howner : ∃ c ∈ flow.root.preorder, plan.port ∈ c.audioPorts := by
    have hconcrete := (h.flattened.receives e.2).mp ⟨e.1, he⟩
    rw [← hport]
    rcases hconcrete.2 with ⟨hown, -⟩ | ⟨atom, hatom, -, hown, -⟩
    · exact ⟨_, flow.root.mem_preorder_self, hown⟩
    · exact ⟨atom, hatom, hown⟩
  obtain ⟨c, hc, hown⟩ := howner
  refine alignment_of_supported hcreated.supported ?_
  rw [(h.realises.routing plan hplan routing hsome).1]
  exact hprecision c hc _ hown

/-- The dataflow of the connections of a flow. -/
def networkOf (root : Component) (flat : AudioConnectionMap) :
    Network ComponentRef AudioChannel AudioChannel where
  inputs c := channelsOf root c .input
  outputs c := channelsOf root c .output
  source := flat.senderOf

/-- The connections without the hierarchy are the dataflow of the hierarchical ones. -/
theorem flowNetwork_of_flattened {flat : AudioConnectionMap} (h : Flattened flow.root flat) :
    FlowNetwork flow.root (networkOf flow.root flat) where
  inputs _ _ := rfl
  outputs _ _ := rfl
  source r s hr := by
    have hsingle : flat.SingleSender := by
      rintro ⟨s₁, r₁⟩ he₁ ⟨s₂, r₂⟩ he₂ heq
      dsimp only at heq
      subst heq
      rw [← h.complete.senderIn_eq he₁, ← h.complete.senderIn_eq he₂]
    show flat.senderOf r = some s ↔ _
    refine (AudioConnectionMap.senderOf_eq_some_iff hsingle).trans ((h.feeds s r).trans ?_)
    exact and_congr_right fun _ => and_iff_right hr

/-- **What a runtime system computes is the dataflow of the connections of its flow.**  The atomic
components are executed in an order in which senders precede receivers.  Whatever the components do, and
whatever the pool contains at the start, the callers of `process` find in their arrays what the
components make of the blocks at the external inputs when samples get from each component directly to
those that it is connected to. -/
theorem create_processes (hcomposite : flow.root.isComposite = true)
    (htypes : SameSampleTypes flow.root) (hexternal : ExternalFloat flow.root)
    (hprecision : SinglePrecision flow.root) {factory : CommunicationProtocolFactory}
    {labelling : ComponentLabelling} {lib : GraphLibrary} {f : AudioSignalFlow}
    (hcreate : create env factory labelling lib = .ok f) :
    ∃ flat parameterConnections order, Flattened flow.root flat ∧
      ParametersResolved flow.root parameterConnections ∧
      ValidOrder flow.root flat parameterConnections order ∧
      ∀ net, FlowNetwork flow.root net → ∀ (S β : Type) (b : ComponentBehaviour S β),
        Sized flow.root env.period b → ∀ missing captureStride playbackStride,
        0 < playbackStride → ∀ (arrays : List ((ℕ → ℕ → β) × (ℕ → ℕ → β))) memory s,
        Corresponds (fun y z => y.1.blockCounter = arrays.length % 2 ^ 64 ∧ y.1.components = z.1 ∧
            y.2.map (blocksOf flow.root .output env.period playbackStride) = z.2)
          (f.processRun flow.root b captureStride playbackStride ⟨memory, s, 0⟩ arrays)
          (stream (dataflowBlock flow.root net order missing b) s
            (arrays.map fun e => blocksOf flow.root .input env.period captureStride e.1)) := by
  obtain ⟨flat, plans, parameterConnections, hparameters, h⟩ :=
    create_prepared hcomposite htypes hcreate
  refine ⟨flat, parameterConnections, _, h.flattened, hparameters, h.validOrder, ?_⟩
  intro net hnet S β b hb missing captureStride playbackStride hstride arrays memory s
  rw [← h.period] at hb ⊢
  exact h.processRun_corresponds hnet (h.copiesAligned hprecision) hexternal hb missing
    captureStride hstride arrays rfl

end Creation

/-! ### The flow that exchanges two channels -/

/-- An environment for the flow that exchanges two channels. -/
def swapEnvironment : AudioEnvironment swapFlow.root where
  order :=
    { partition := fun p l => l.filter p ++ l.filter fun a => !p a
      perm := fun p l => List.filter_append_perm p l
      front := fun p l => ⟨_, _, rfl, fun a ha => (List.mem_filter.mp ha).2,
        fun a ha => by simpa using (List.mem_filter.mp ha).2⟩ }
  addresses :=
    { component := fun k => 100 + k
      port := fun k d => 200 + 2 * k + if d = .output then 1 else 0
      component_injective := by omega
      component_fresh := by
        intro k h
        have hmem : 100 + k ∈ [10, 11] := h
        simp only [List.mem_cons, List.not_mem_nil, or_false] at hmem
        omega
      port_injective := by
        intro k d k' d' h
        cases d <;> cases d' <;> simp at h ⊢ <;> omega
      port_fresh := by
        intro k d h
        have hmem : _ ∈ [1, 2, 3, 4] := h
        simp only [List.mem_cons, List.not_mem_nil, or_false] at hmem
        omega }
  period := 2
  basePointer := 0
  aligned := by decide

/-- The first channel is passed on. -/
private def passFirst : ComponentBehaviour Unit ℕ := fun _ s blocks => .ok (s, blocks.take 1)

private theorem sized_passFirst : Sized swapFlow.root 2 passFirst := by
  intro c hc s blocks s' results hblocks hresult
  obtain rfl : c = mixRef := List.mem_singleton.mp hc
  obtain ⟨-, rfl⟩ := Prod.mk.inj (Except.ok.inj hresult)
  have hinputs : channelsOf swapFlow.root mixRef .input = [⟨mixIn, 0⟩, ⟨mixIn, 1⟩] := by decide
  have houtputs : channelsOf swapFlow.root mixRef .output = [⟨mixOut, 0⟩] := by decide
  rw [hinputs] at hblocks
  obtain ⟨block, rest, hblock, -, rfl⟩ := List.forall₂_cons_left_iff.mp hblocks
  rw [houtputs]
  exact List.Forall₂.cons hblock List.Forall₂.nil

private theorem externalFloat_swap : ExternalFloat swapFlow.root := by
  unfold ExternalFloat
  decide

private theorem singlePrecision_swap : SinglePrecision swapFlow.root := by
  unfold SinglePrecision
  decide

private theorem exists_create_swap :
    ∃ f, create swapEnvironment sharedDataFactory mergingLabelling depthFirstLibrary = .ok f := by
  have hok : (create swapEnvironment sharedDataFactory mergingLabelling
      depthFirstLibrary).toBool = true := by decide +kernel
  rcases hcreate : create swapEnvironment sharedDataFactory mergingLabelling depthFirstLibrary with
    e | f
  · rw [hcreate] at hok
    cases hok
  · exact ⟨f, rfl⟩

/-- The runtime system for this flow. -/
theorem create_processes_swap :
    ∃ f, create swapEnvironment sharedDataFactory mergingLabelling depthFirstLibrary = .ok f ∧
      ∃ flat order, Flattened swapFlow.root flat ∧
        ∀ (arrays : List ((ℕ → ℕ → ℕ) × (ℕ → ℕ → ℕ))) memory,
          Corresponds (fun y z => y.1.blockCounter = arrays.length % 2 ^ 64 ∧
              y.1.components = z.1 ∧ y.2.map (blocksOf swapFlow.root .output 2 1) = z.2)
            (f.processRun swapFlow.root passFirst 1 1 ⟨memory, (), 0⟩ arrays)
            (stream (dataflowBlock swapFlow.root (networkOf swapFlow.root flat) order
                (.logicError "") passFirst) ()
              (arrays.map fun e => blocksOf swapFlow.root .input 2 1 e.1)) := by
  have hcomposite : swapFlow.root.isComposite = true := rfl
  obtain ⟨f, hcreate⟩ := exists_create_swap
  obtain ⟨flat, -, order, hflat, -, -, hprocess⟩ := create_processes hcomposite
    sameSampleTypes_swap externalFloat_swap singlePrecision_swap hcreate
  exact ⟨f, hcreate, flat, order, hflat, fun arrays memory =>
    hprocess _ (flowNetwork_of_flattened hflat) Unit ℕ passFirst sized_passFirst _ 1 1
      Nat.one_pos arrays memory ()⟩

end AudioSignalFlow

end Visr
