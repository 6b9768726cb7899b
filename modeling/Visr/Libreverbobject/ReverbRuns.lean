import Mathlib.Algebra.Order.Ring.Rat
import Mathlib.Data.Rat.Sqrt
import Visr.Library.Execution
import Visr.Libreverbobject.ReverbScenes

/-!
# Runs of the reverb parameter calculator

The component gets a scene for each call, and the receiver of its messages takes them from the
queue at any time.  Objects come, change and go between the calls.

## Main results

* `ReverbParameterCalculator.process_spec` — one call.
* `ReverbSession.run_rendersScene` — **every call of every run**.
* `ReverbSession.invalidId_not_rendered` — an object with the invalid id is not rendered.
-/

namespace Visr

open Execution ChangeDetection ReverbConfiguration

variable {K : Type}

/-! ### The outputs -/

namespace ReverbParameterCalculator

/-- What the receivers see.  They share the panning gains with the component. -/
def published (s : ReverbParameterCalculator K) : RenderData K where
  signalRouting := s.signalRoutingOutput.backValue
  discreteReflGains := s.discreteReflectionGainOutput.backValue
  discreteReflDelays := s.discreteReflectionDelayOutput.backValue
  biquadCoeffs := s.discreteReflectionFilterCoeffOutput.backValue
  discretePanningMatrix := s.discretePanningGains
  lateReverbGains := s.lateReflectionGainOutput.backValue
  lateReverbDelays := s.lateReflectionDelayOutput.backValue
  previousLateReverbs := s.previousLateReverbs
  lateSubbandOutput := s.lateSubbandOutput

/-- **The data is published**, and the routings that have been published before are in the buffer
for the next call. -/
theorem swapBuffers_spec (s : ReverbParameterCalculator K) (d : RenderData K) :
    ∃ s', s.swapBuffers d = .ok s' ∧ s'.published = d ∧
      s'.toReverbConfiguration = s.toReverbConfiguration ∧
      s'.channelAllocator = s.channelAllocator ∧
      s'.data.signalRouting = s.published.signalRouting := by
  obtain ⟨p₁, hok₁, hback₁, hfront₁⟩ := s.signalRoutingOutput.publish_spec d.signalRouting
  obtain ⟨p₂, hok₂, hback₂, -⟩ := s.discreteReflectionGainOutput.publish_spec d.discreteReflGains
  obtain ⟨p₃, hok₃, hback₃, -⟩ := s.discreteReflectionDelayOutput.publish_spec d.discreteReflDelays
  obtain ⟨p₄, hok₄, hback₄, -⟩ :=
    s.discreteReflectionFilterCoeffOutput.publish_spec d.biquadCoeffs
  obtain ⟨p₅, hok₅, hback₅, -⟩ := s.lateReflectionGainOutput.publish_spec d.lateReverbGains
  obtain ⟨p₆, hok₆, hback₆, -⟩ := s.lateReflectionDelayOutput.publish_spec d.lateReverbDelays
  unfold swapBuffers
  rw [hok₁, ok_bind, hok₂, ok_bind, hok₃, ok_bind, hok₄, ok_bind, hok₅, ok_bind, hok₆, ok_bind]
  refine ⟨_, rfl, ?_, rfl, rfl, hfront₁⟩
  unfold published
  rw [hback₁, hback₂, hback₃, hback₄, hback₅, hback₆]

/-- The channel that is allocated to an object. -/
def channelOf (s : ReverbParameterCalculator K) (o : PointSourceWithReverb K) : Option ℕ :=
  s.channelAllocator.lookup.find? o.id.val

end ReverbParameterCalculator

/-! ### Sessions -/

/-- The component and all messages that it has sent. -/
structure ReverbSession (K : Type) where
  component : ReverbParameterCalculator K
  sent : List (LateReverbParameter K)

/-- A call of `process()`, or the receiver takes a message from the queue. -/
inductive ReverbEvent (K : Type)
  | process (objects : ObjectVector K)
  | receive

/-- The scene of the last call. -/
def lastScene (events : List (ReverbEvent K)) : Option (ObjectVector K) :=
  events.reverse.findSome? fun event =>
    match event with
    | .process objects => some objects
    | .receive => none

namespace ReverbSession

/-- The object of a scene to which a channel is allocated. -/
def assignedObject (s : ReverbSession K) (objects : ObjectVector K) (ch : ℕ) :
    Option (PointSourceWithReverb K) :=
  (reverbObjects objects).find? fun o => s.component.channelOf o = some ch

/-- The objects of a scene that have been in an earlier scene have the same channels as then. -/
def KeepsChannels (s s' : ReverbSession K) (objects objects' : ObjectVector K) : Prop :=
  ∀ o ∈ reverbObjects objects, ∀ o' ∈ reverbObjects objects', o'.id = o.id →
    ∃ ch, s.component.channelOf o = some ch ∧ s'.component.channelOf o' = some ch

/-- The ids of the objects with reverb are valid. -/
def ValidIds (objects : ObjectVector K) : Prop :=
  ∀ o ∈ reverbObjects objects, o.id.val ≠ cInvalidObjectId

section Objects

variable {objects : ObjectVector K}

theorem lastScene_process (events : List (ReverbEvent K)) (objects : ObjectVector K) :
    lastScene (events ++ [.process objects]) = some objects := by
  simp [lastScene]

theorem lastScene_receive (events : List (ReverbEvent K)) :
    lastScene (events ++ [.receive]) = lastScene events := by
  simp [lastScene]

/-- A channel has one object at most. -/
theorem eq_of_channelOf {s : ReverbParameterCalculator K} {n : ℕ}
    (h : ObjectChannelAllocator.Reachable n s.channelAllocator) {o o' : PointSourceWithReverb K}
    (ho : o ∈ reverbObjects objects) (ho' : o' ∈ reverbObjects objects) {ch : ℕ}
    (hch : s.channelOf o = some ch) (hch' : s.channelOf o' = some ch) : o = o' := by
  have hid : o.id.val = o'.id.val :=
    (ObjectChannelAllocator.getObjectForChannel_eq h hch).symm.trans
      (ObjectChannelAllocator.getObjectForChannel_eq h hch')
  exact List.inj_on_of_nodup_map (nodup_reverbObjects objects) ho ho' hid

/-- **The object that is rendered is the one to which the channel is allocated**, if the ids are
valid. -/
theorem renderedObject_eq {s : ReverbSession K} {n : ℕ}
    (h : ObjectChannelAllocator.Reachable n s.component.channelAllocator)
    (hvalid : ValidIds objects) (ch : ℕ) :
    renderedObject objects s.component.channelAllocator ch = s.assignedObject objects ch := by
  have hiff : ∀ o ∈ reverbObjects objects,
      s.component.channelAllocator.getObjectForChannel ch = o.id.val ↔
        s.component.channelOf o = some ch := by
    intro o ho
    constructor
    · intro hid
      rcases s.component.channelAllocator.getObjectForChannel_cases ch with hinvalid | hfind
      · exact absurd (hid.symm.trans hinvalid) (hvalid o ho)
      · rwa [hid] at hfind
    · intro hch
      exact ObjectChannelAllocator.getObjectForChannel_eq h hch
  unfold renderedObject assignedObject
  split
  next hinvalid =>
    -- no object has the id that stands for an unused channel
    symm
    rw [List.find?_eq_none]
    intro o ho hch
    rw [decide_eq_true_eq, ← hiff o ho] at hch
    exact hvalid o ho (hch.symm.trans hinvalid)
  next =>
    apply List.find?_congr
    intro o ho
    rw [decide_eq_decide, ← hiff o ho]
    exact eq_comm

theorem assignedObject_eq_some_iff {s : ReverbSession K} {n : ℕ}
    (h : ObjectChannelAllocator.Reachable n s.component.channelAllocator) {ch : ℕ}
    {o : PointSourceWithReverb K} :
    s.assignedObject objects ch = some o ↔
      o ∈ reverbObjects objects ∧ s.component.channelOf o = some ch := by
  unfold assignedObject
  constructor
  · intro hfind
    exact ⟨List.mem_of_find?_eq_some hfind, by simpa using List.find?_some hfind⟩
  · rintro ⟨ho, hch⟩
    cases hfind : (reverbObjects objects).find? fun o => s.component.channelOf o = some ch with
    | none =>
      have hnone := List.find?_eq_none.mp hfind o ho
      simp [hch] at hnone
    | some o' =>
      have hch' : s.component.channelOf o' = some ch := by simpa using List.find?_some hfind
      rw [eq_of_channelOf h (List.mem_of_find?_eq_some hfind) ho hch' hch]

end Objects

end ReverbSession

section Field

variable [Field K] [LinearOrder K]

namespace ReverbParameterCalculator

/-! ### Calls -/

/-- The invariant of the component, after the messages in `sent`. -/
structure Invariant (c : ReverbConfiguration K) (sent : List (LateReverbParameter K))
    (s : ReverbParameterCalculator K) : Prop where
  configuration : s.toReverbConfiguration = c
  reachable : ObjectChannelAllocator.Reachable c.maxNumberOfObjects s.channelAllocator
  front : ∀ e ∈ s.data.signalRouting.routings, e.output < c.maxNumberOfObjects
  back : ∀ e ∈ s.published.signalRouting.routings, e.output < c.maxNumberOfObjects
  remembers : RemembersLateReverbs sent s.previousLateReverbs

/-- What a call for a scene does. -/
structure CallSpec (math : CMath K) (c : ReverbConfiguration K) (objects : ObjectVector K)
    (s s' : ReverbParameterCalculator K) : Prop where
  allocated : ∀ o ∈ reverbObjects objects, ∃ ch < c.maxNumberOfObjects, s'.channelOf o = some ch
  present : ∀ id ∈ s'.channelAllocator.lookup.keys, ∃ o ∈ reverbObjects objects, o.id.val = id
  kept : ∀ o ∈ reverbObjects objects, ∀ ch, s.channelOf o = some ch → s'.channelOf o = some ch
  views : ∀ ch < c.maxNumberOfObjects, c.view s'.published ch =
    c.rendered math (renderedObject objects s'.channelAllocator ch) ch
  lateReverbs : ∀ ch < c.maxNumberOfObjects, sameLateReverb (s'.previousLateReverbs ch)
    (lateReverbOf (renderedObject objects s'.channelAllocator ch)) = true

section Call

variable [IsStrictOrderedRing K] {math : CMath K} {c : ReverbConfiguration K}
  {objects : ObjectVector K}

/-- **One call** succeeds and renders the scene. -/
theorem process_spec {sent : List (LateReverbParameter K)} {s : ReverbParameterCalculator K}
    (hinv : Invariant c sent s) (hadmissible : c.Admissible math objects) :
    ∃ s' new, s.process math objects = .ok s' ∧ Invariant c (sent ++ new) s' ∧
      s'.lateSubbandOutput.elements = s.lateSubbandOutput.elements ++ new ∧
      CallSpec math c objects s s' := by
  obtain ⟨rfl, hreachable, hfront, hback, hremembers⟩ := hinv
  have hfound := foundReverbObjects_ok (c := s.toReverbConfiguration)
    hadmissible.single
  obtain ⟨hmax, hpart⟩ := hreachable.partitioned
  have hnodup := nodup_reverbObjects objects
  have hcount : ((reverbObjects objects).map fun o => o.id.val).length ≤ s.maxNumberOfObjects := by
    rw [List.length_map]
    exact hadmissible.count
  -- the allocator assigns the channels first
  obtain ⟨a, hset, -, hpart', hkeys, hkept⟩ := ObjectChannelAllocator.setObjects_spec
    (hmax ▸ hpart) hnodup (hmax ▸ hcount)
  have hreachable' : ObjectChannelAllocator.Reachable s.maxNumberOfObjects a := by
    have hnext := hreachable.setObjects hnodup
    rwa [hset] at hnext
  have hobjects : ∀ ch, a.getObjectForChannel ch = cInvalidChannelIndex ∨
      ∃ o ∈ reverbObjects objects, o.id.val = a.getObjectForChannel ch := by
    intro ch
    rcases a.getObjectForChannel_cases ch with hinvalid | hfind
    · exact Or.inl hinvalid
    · exact Or.inr (List.mem_map.mp ((hkeys _).mp (OrderedMap.mem_keys.mpr ⟨ch, hfind⟩)))
  -- then the channels are processed one after the other
  obtain ⟨d, new, hloop, hviews, -, hmessages, hremembers', houtputs⟩ :=
    processChannels_spec hadmissible hobjects
      (List.nodup_range (n := s.maxNumberOfObjects)) s.data
  -- and the routings are published
  obtain ⟨s', hswap, hpublished, hconfiguration, hallocator, hdata⟩ :=
    swapBuffers_spec { s with channelAllocator := a } d
  have hprevious : s'.previousLateReverbs = d.previousLateReverbs := by rw [← hpublished]; rfl
  refine ⟨s', new, ?_, ⟨hconfiguration, ?_, ?_, ?_, ?_⟩, ?_, ?_⟩
  · unfold process
    unfold reverbObjects at hset hcount
    rw [hfound]
    show (if _ then _ else _) = _
    rw [if_neg (Nat.not_lt.mpr hcount), hset]
    dsimp only
    rw [hloop, ok_bind, hswap]
    rfl
  · rw [hallocator]
    exact hreachable'
  · rw [hdata]
    exact hback
  · rw [hpublished]
    intro e he
    rcases houtputs e he with he | he
    · exact hfront e he
    · exact List.mem_range.mp he
  · rw [hprevious]
    exact hremembers' sent hremembers
  · have hqueue : s'.lateSubbandOutput = d.lateSubbandOutput := by rw [← hpublished]; rfl
    rw [hqueue]
    exact hmessages
  · refine ⟨?_, ?_, ?_, ?_, ?_⟩
    · intro o ho
      obtain ⟨ch, hch⟩ := OrderedMap.mem_keys.mp ((hkeys o.id.val).mpr (List.mem_map_of_mem ho))
      refine ⟨ch, ?_, ?_⟩
      · have hvalue : ch ∈ a.lookup.values :=
          List.mem_map.mpr ⟨(o.id.val, ch), OrderedMap.mem_of_find? hch, rfl⟩
        have hmem := (hpart'.mem_iff (a := ch)).mp (List.mem_append_left _ hvalue)
        rw [hmax] at hmem
        exact List.mem_range.mp hmem
      · unfold channelOf
        rw [hallocator]
        exact hch
    · intro id hid
      rw [hallocator] at hid
      exact List.mem_map.mp ((hkeys id).mp hid)
    · intro o ho ch hch
      unfold channelOf
      rw [hallocator]
      exact hkept o.id.val (List.mem_map_of_mem ho) ch hch
    · intro ch hch
      rw [hpublished, hallocator]
      exact (hviews ch (List.mem_range.mpr hch)).1
    · intro ch hch
      rw [hprevious, hallocator]
      exact (hviews ch (List.mem_range.mpr hch)).2

end Call

end ReverbParameterCalculator

/-! ### Runs -/

namespace ReverbSession

/-- A call that throws ends the run.  Nothing is taken from an empty queue. -/
def step (math : CMath K) : ReverbEvent K → ReverbSession K → Option (ReverbSession K)
  | .process objects, s =>
    match s.component.process math objects with
    | .error _ => none
    | .ok component => some {
        component := component
        sent := s.sent ++ component.lateSubbandOutput.elements.drop
          s.component.lateSubbandOutput.elements.length }
  | .receive, s =>
    match s.component.lateSubbandOutput.popNextElement with
    | .error _ => some s
    | .ok lateSubbandOutput => some { s with component := { s.component with lateSubbandOutput } }

/-- The late reverb of the last message for a channel.  Before the first one, it is the invalid
value that `setup()` has stored. -/
def lastLateReverb (s : ReverbSession K) (ch : ℕ) : LateReverb K :=
  lastValue LateReverbParameter.index LateReverbParameter.reverbParameters
    (fun _ => initialLateReverb) s.sent ch

/-- What is published and what has been sent is that of a scene and of the allocation. -/
structure RendersScene (math : CMath K) (objects : ObjectVector K) (s : ReverbSession K) : Prop where
  allocated : ∀ o ∈ reverbObjects objects,
    ∃ ch < s.component.maxNumberOfObjects, s.component.channelOf o = some ch
  distinct : ∀ o ∈ reverbObjects objects, ∀ o' ∈ reverbObjects objects,
    s.component.channelOf o = s.component.channelOf o' → o = o'
  routing : ∀ e, e ∈ s.component.published.signalRouting.routings ↔
    ∃ o ∈ reverbObjects objects, s.component.channelOf o = some e.output ∧
      o.channelIndices.map Fin.val = [e.input]
  reflections : ∀ ch < s.component.maxNumberOfObjects,
    ∀ srcIdx < s.component.numberOfDiscreteReflectionsPerSource,
      s.component.reflectionAt s.component.published
          (ch * s.component.numberOfDiscreteReflectionsPerSource + srcIdx) =
        s.component.renderedReflection math (s.assignedObject objects ch) srcIdx
  lateReverb : ∀ ch < s.component.maxNumberOfObjects,
    Agree (epsilon K) (s.lastLateReverb ch) (lateReverbOf (s.assignedObject objects ch))

/-- The invariant of a run. -/
structure Invariant (c : ReverbConfiguration K) (events : List (ReverbEvent K))
    (s : ReverbSession K) : Prop where
  component : s.component.Invariant c s.sent
  allocated : ∀ last, lastScene events = some last → ∀ o ∈ reverbObjects last,
    ∃ ch, s.component.channelOf o = some ch

section Runs

variable [IsStrictOrderedRing K] {math : CMath K} {c : ReverbConfiguration K}
  {objects : ObjectVector K} {events : List (ReverbEvent K)} {s : ReverbSession K}

omit [IsStrictOrderedRing K] in
/-- The invariant holds at the beginning. -/
theorem invariant_setup {fullName : String} {arrayConfig : LoudspeakerArray K}
    {numberOfObjects numberOfDiscreteReflectionsPerSource numBiquadSections : ℕ}
    {component : ReverbParameterCalculator K}
    (hsetup : ReverbParameterCalculator.setup math fullName arrayConfig numberOfObjects
      numberOfDiscreteReflectionsPerSource numBiquadSections = .ok component) :
    Invariant component.toReverbConfiguration [] ⟨component, []⟩ := by
  unfold ReverbParameterCalculator.setup at hsetup
  split at hsetup
  · cases hsetup
  · cases hsetup
    refine ⟨⟨rfl, .create, ?_, ?_, remembers_nil⟩, nofun⟩
    · intro e he
      exact absurd he (KeyedSet.not_mem_empty e)
    · intro e he
      exact absurd he (KeyedSet.not_mem_empty e)

/-- **A call** keeps the invariant, if the scene is admissible. -/
theorem invariant_process (h : Invariant c events s) (hadmissible : c.Admissible math objects) :
    ∃ s', step math (.process objects) s = some s' ∧
      Invariant c (events ++ [.process objects]) s' ∧
      s.component.CallSpec math c objects s'.component := by
  obtain ⟨component, new, hok, hinv, hqueue, hcall⟩ :=
    ReverbParameterCalculator.process_spec h.component hadmissible
  refine ⟨⟨component, s.sent ++ new⟩, ?_, ⟨hinv, ?_⟩, hcall⟩
  · unfold step
    dsimp only
    rw [hok]
    dsimp only
    rw [hqueue, List.drop_left]
  · rw [lastScene_process]
    rintro _ ⟨⟩ o ho
    obtain ⟨ch, -, hch⟩ := hcall.allocated o ho
    exact ⟨ch, hch⟩

omit [IsStrictOrderedRing K] in
/-- **The receiver** only changes the queue. -/
theorem invariant_receive (h : Invariant c events s) :
    ∃ s', step math .receive s = some s' ∧ Invariant c (events ++ [.receive]) s' := by
  obtain ⟨⟨hconfiguration, hreachable, hfront, hback, hremembers⟩, hallocated⟩ := h
  unfold step
  dsimp only
  cases s.component.lateSubbandOutput.popNextElement with
  | error e =>
    refine ⟨s, rfl, ⟨hconfiguration, hreachable, hfront, hback, hremembers⟩, ?_⟩
    rwa [lastScene_receive]
  | ok lateSubbandOutput =>
    refine ⟨_, rfl, ⟨hconfiguration, hreachable, hfront, hback, hremembers⟩, ?_⟩
    rw [lastScene_receive]
    exact hallocated

/-- **The invariant of all runs** with admissible scenes, which do not end early. -/
theorem exists_run (h : Invariant c [] s)
    (hadmissible : ∀ objects, .process objects ∈ events → c.Admissible math objects) :
    ∃ s', exec (step math) events s = some s' ∧ Invariant c events s' := by
  induction events using List.reverseRecOn with
  | nil => exact ⟨s, rfl, h⟩
  | append_singleton events event ih =>
    obtain ⟨s₁, hexec, hinv⟩ := ih (fun objects hmem =>
      hadmissible objects (List.mem_append_left _ hmem))
    cases event with
    | process objects =>
      obtain ⟨s₂, hstep, hinv₂, -⟩ := invariant_process hinv (hadmissible objects (by simp))
      exact ⟨s₂, exec_concat_eq_some.mpr ⟨s₁, hexec, hstep⟩, hinv₂⟩
    | receive =>
      have hnext : ∃ s₂, step math .receive s₁ = some s₂ ∧
          Invariant c (events ++ [.receive]) s₂ := invariant_receive hinv
      obtain ⟨s₂, hstep, hinv₂⟩ := hnext
      exact ⟨s₂, exec_concat_eq_some.mpr ⟨s₁, hexec, hstep⟩, hinv₂⟩

/-- **After a call, the scene is rendered.** -/
theorem rendersScene_of_callSpec {s' : ReverbSession K}
    (hinv : s'.component.Invariant c s'.sent) (hadmissible : c.Admissible math objects)
    (hvalid : ValidIds objects)
    (hcall : s.component.CallSpec math c objects s'.component) : s'.RendersScene math objects := by
  obtain ⟨rfl, hreachable, -, hback, hremembers⟩ := hinv
  obtain ⟨hallocated, -, -, hviews, hlate⟩ := hcall
  have hrendered := renderedObject_eq hreachable hvalid
  have hepsilon : (0 : K) ≤ epsilon K := epsilon_pos.le
  refine ⟨hallocated, ?_, ?_, ?_, ?_⟩
  · intro o ho o' ho' heq
    obtain ⟨ch, -, hch⟩ := hallocated o ho
    exact eq_of_channelOf hreachable ho ho' hch (heq ▸ hch)
  · -- the routings are those of the objects, as each output belongs to one channel
    intro e
    have hfind : e ∈ s'.component.published.signalRouting.routings ↔
        s'.component.published.signalRouting.routings.find? e.output = some e := by
      rw [KeyedSet.find?_eq_some_iff]
      exact (and_iff_left rfl).symm
    rw [hfind]
    constructor
    · intro he
      have hview := congrArg ChannelView.routing (hviews e.output (hback e (hfind.mpr he)))
      rw [hrendered] at hview
      have hentry := he.symm.trans hview
      cases hassigned : s'.assignedObject objects e.output with
      | none =>
        rw [hassigned] at hentry
        cases hentry
      | some o =>
        obtain ⟨ho, hch⟩ := (assignedObject_eq_some_iff hreachable).mp hassigned
        obtain ⟨channel, hchannels⟩ := List.length_eq_one_iff.mp (hadmissible.single o ho)
        have heq : e = { input := channel.val, output := e.output } := by
          simpa [hassigned, rendered, hchannels] using hentry
        refine ⟨o, ho, hch, ?_⟩
        rw [hchannels, heq]
        rfl
    · rintro ⟨o, ho, hch, hinput⟩
      obtain ⟨ch, hlt, hch'⟩ := hallocated o ho
      obtain rfl : ch = e.output := Option.some.inj (hch'.symm.trans hch)
      obtain ⟨channel, hchannels⟩ := List.length_eq_one_iff.mp (hadmissible.single o ho)
      rw [hchannels] at hinput
      have hinput' : channel.val = e.input := List.singleton_inj.mp hinput
      have hview := congrArg ChannelView.routing (hviews e.output hlt)
      rw [hrendered, (assignedObject_eq_some_iff hreachable).mpr ⟨ho, hch⟩] at hview
      refine hview.trans ?_
      simp [rendered, hchannels, hinput']
  · intro ch hch srcIdx hsrc
    have hview := congrArg ChannelView.reflections (hviews ch hch)
    rw [hrendered] at hview
    exact congrFun hview ⟨srcIdx, hsrc⟩
  · intro ch hch
    have hsame := hlate ch hch
    rw [hrendered] at hsame
    unfold sameLateReverb at hsame
    -- a filter that has been sent earlier is remembered by its parameters
    rw [lateReverbEqual_iff hepsilon, hremembers ch] at hsame
    exact hsame

/-- **Every call of every run renders its scene**, and the objects that stay keep their channels.
-/
theorem run_rendersScene {fullName : String} {arrayConfig : LoudspeakerArray K}
    {numberOfObjects numberOfDiscreteReflectionsPerSource numBiquadSections : ℕ}
    {component : ReverbParameterCalculator K}
    (hsetup : ReverbParameterCalculator.setup math fullName arrayConfig numberOfObjects
      numberOfDiscreteReflectionsPerSource numBiquadSections = .ok component)
    (hadmissible : ∀ objects, .process objects ∈ events →
      component.Admissible math objects ∧ ValidIds objects)
    {before after : List (ReverbEvent K)} (hevents : events = before ++ .process objects :: after) :
    ∃ s s', exec (step math) before ⟨component, []⟩ = some s ∧
      step math (.process objects) s = some s' ∧ s'.RendersScene math objects ∧
      ∀ last, lastScene before = some last → KeepsChannels s s' last objects := by
  subst hevents
  obtain ⟨s, hexec, hinv⟩ := exists_run (invariant_setup hsetup)
    fun objects hmem => (hadmissible objects (List.mem_append_left _ hmem)).1
  obtain ⟨hscene, hvalid⟩ := hadmissible objects (by simp)
  obtain ⟨s', hstep, hinv', hcall⟩ := invariant_process hinv hscene
  refine ⟨s, s', hexec, hstep, ?_, ?_⟩
  · exact rendersScene_of_callSpec hinv'.component hscene hvalid hcall
  · intro last hlast o ho o' ho' hid
    obtain ⟨ch, hch⟩ := hinv.allocated last hlast o ho
    refine ⟨ch, hch, hcall.kept o' ho' ch ?_⟩
    unfold ReverbParameterCalculator.channelOf at hch ⊢
    rwa [hid]

end Runs

end ReverbSession

end Field

namespace ReverbSession

/-- Three loudspeakers on the axes. -/
def axesArray : LoudspeakerArray ℚ where
  is2D := false
  isInfinite := false
  numberOfSpeakers := 3
  position i := if i = 0 then ⟨4, 0, 0, false⟩ else if i = 1 then ⟨0, 3, 0, false⟩
    else ⟨0, 0, 12, false⟩
  triplet := [(0, 1, 2)]
  channel := [0, 1, 2]
  id := OrderedMap.empty
  subwooferChannels := []
  subwooferGains _ _ := 0
  reRoutingCoeff _ _ := 0
  gainAdjustment _ := 1
  delayAdjustment _ := 0
  outputEqs := none

/-- The square root of rational numbers.  The other functions are not used. -/
def rootMath : CMath ℚ := ⟨Rat.sqrt, fun _ => 1, fun _ => 0, 0⟩

/-- An object with one reflection. -/
def roomObject (id : UnsignedInt) (lateReverb : LateReverb ℚ) : PointSourceWithReverb ℚ where
  id := id
  groupId := 0
  level := 1
  priority := 0
  channelIndices := [3]
  eqCoefficients := []
  x := 1
  y := 1
  z := 1
  channelLockDistance := 0
  discreteReflections := [{
    positionX := 1
    positionY := 1
    positionZ := 1
    delay := 1
    level := 1
    reflectionFilters := List.Vector.replicate _ defaultBiquad }]
  lateReverb := lateReverb

/-- A scene with this object only. -/
def roomScene (id : UnsignedInt) (lateReverb : LateReverb ℚ) : ObjectVector ℚ :=
  ObjectVector.empty.insert (.pointSourceWithReverb (roomObject id lateReverb))

theorem reverbObjects_roomScene (id : UnsignedInt) (lateReverb : LateReverb ℚ) :
    reverbObjects (roomScene id lateReverb) = [roomObject id lateReverb] := rfl

/-- The component for one object with two reflections. -/
def roomSetup : Except Exception (ReverbParameterCalculator ℚ) :=
  ReverbParameterCalculator.setup rootMath "reverb" axesArray 1 2 10

theorem admissible_roomScene {component : ReverbParameterCalculator ℚ}
    (hsetup : roomSetup = .ok component) (id : UnsignedInt) (lateReverb : LateReverb ℚ) :
    component.Admissible rootMath (roomScene id lateReverb) := by
  cases hsetup
  have hpanned : ((VBAP.create rootMath.sqrt axesArray ⟨0, 0, 0⟩).calculateGains rootMath.sqrt
      ⟨1, 1, 1⟩ false).toOption.isSome = true := by decide +kernel
  obtain ⟨gains, hgains⟩ := Option.isSome_iff_exists.mp hpanned
  constructor
  · exact Nat.le_refl 1
  · rw [reverbObjects_roomScene, List.forall_mem_singleton]
    rfl
  · rw [reverbObjects_roomScene, List.forall_mem_singleton]
    exact Nat.le_succ 1
  · rw [reverbObjects_roomScene, List.forall_mem_singleton]
    unfold roomObject
    rw [List.forall_mem_singleton]
    exact ⟨gains, toOption_eq_some hgains⟩

theorem run_rendersScene_room : ∃ component, roomSetup = .ok component ∧
    ∃ s s', exec (step rootMath) [.process (roomScene 0 cDefaultLateReverbParameter), .receive]
        ⟨component, []⟩ = some s ∧
      step rootMath (.process (roomScene 0 initialLateReverb)) s = some s' ∧
      s'.RendersScene rootMath (roomScene 0 initialLateReverb) ∧
      ∀ last, lastScene [.process (roomScene 0 cDefaultLateReverbParameter), .receive] =
        some last → KeepsChannels s s' last (roomScene 0 initialLateReverb) := by
  have hsetup : ∃ component, roomSetup = .ok component := ⟨_, rfl⟩
  obtain ⟨component, hsetup⟩ := hsetup
  refine ⟨component, hsetup, ?_⟩
  have hevents : [ReverbEvent.process (roomScene 0 cDefaultLateReverbParameter), .receive,
      .process (roomScene 0 initialLateReverb)] =
    [.process (roomScene 0 cDefaultLateReverbParameter), .receive] ++
      .process (roomScene 0 initialLateReverb) :: [] := rfl
  refine run_rendersScene hsetup ?_ hevents
  intro objects hmem
  have hscene : ∃ lateReverb, objects = roomScene 0 lateReverb := by
    simp at hmem
    exact hmem.elim (fun h => ⟨_, h⟩) fun h => ⟨_, h⟩
  obtain ⟨lateReverb, rfl⟩ := hscene
  refine ⟨admissible_roomScene hsetup 0 lateReverb, ?_⟩
  intro o ho
  rw [List.mem_singleton.mp ho]
  show (0 : ℕ) ≠ 4294967295
  decide

/-- The object with the invalid id gets a channel, which is rendered as an unused one.  For late
reverb that is equal to what `setup()` has stored, there is no message. -/
theorem invalidId_not_rendered : ∃ component, roomSetup = .ok component ∧
    (component.Admissible rootMath (roomScene 4294967295 cDefaultLateReverbParameter) ∧
      ∃ s', step rootMath (.process (roomScene 4294967295 cDefaultLateReverbParameter))
          ⟨component, []⟩ = some s' ∧
        ¬s'.RendersScene rootMath (roomScene 4294967295 cDefaultLateReverbParameter)) ∧
    component.Admissible rootMath (roomScene 0 initialLateReverb) ∧
      ∃ s', step rootMath (.process (roomScene 0 initialLateReverb)) ⟨component, []⟩ = some s' ∧
        s'.sent.length = 0 := by
  -- both runs are evaluated
  have hruns : roomSetup.toOption.any (fun component =>
      (step rootMath (.process (roomScene 4294967295 cDefaultLateReverbParameter))
        ⟨component, []⟩).any (fun s' =>
          s'.component.channelOf (roomObject 4294967295 cDefaultLateReverbParameter) = some 0 ∧
          s'.component.published.signalRouting.routings.find? 0 = none) &&
      (step rootMath (.process (roomScene 0 initialLateReverb)) ⟨component, []⟩).any
        fun s' => s'.sent.length = 0) = true := by decide +kernel
  obtain ⟨component, hsetup, hruns⟩ := exists_of_any hruns
  rw [Bool.and_eq_true] at hruns
  obtain ⟨hinvalid, hinitial⟩ := hruns
  obtain ⟨s₁, hs₁, hs₁'⟩ := (Option.any_eq_true _ _).mp hinvalid
  obtain ⟨s₂, hs₂, hs₂'⟩ := (Option.any_eq_true _ _).mp hinitial
  obtain ⟨hch, hunused⟩ := of_decide_eq_true hs₁'
  refine ⟨component, hsetup, ⟨admissible_roomScene hsetup _ _, s₁, hs₁, ?_⟩,
    admissible_roomScene hsetup _ _, s₂, hs₂, of_decide_eq_true hs₂'⟩
  intro hrenders
  -- a scene that is rendered would have a routing for the channel of the object
  have hentry : ({ input := 3, output := 0 } : SignalRoutingEntry) ∈
      s₁.component.published.signalRouting.routings :=
    (hrenders.routing _).mpr ⟨_, List.mem_singleton.mpr rfl, hch, rfl⟩
  have hfind : s₁.component.published.signalRouting.routings.find? 0 = some _ :=
    KeyedSet.find?_eq_some_iff.mpr ⟨hentry, rfl⟩
  rw [hunused] at hfind
  cases hfind

end ReverbSession

end Visr
