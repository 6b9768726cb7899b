import Visr.Library.ChangeDetection
import Visr.Library.Execution
import Visr.Library.Writes
import Visr.Libreverbobject.ReverbParameterCalculator

/-!
# Reverb parameters follow the scene

What the outputs show after a call of `process()` is a function of the present scene and of the
allocation of the rendering channels.  Nothing is left in the buffers from earlier scenes.

## Main results

* `ReverbConfiguration.processChannel_spec` — one iteration renders the object of one channel.
* `ReverbConfiguration.processChannels_spec` — the loop over the channels renders all objects.
-/

namespace Visr

open ChangeDetection

variable {K : Type}

/-! ### The objects with reverb -/

/-- The object, if it is one with reverb. -/
def AnyObject.asReverb : AnyObject K → Option (PointSourceWithReverb K)
  | .pointSourceWithReverb o => some o
  | _ => none

/-- The objects with reverb of a scene. -/
def reverbObjects (objects : ObjectVector K) : List (PointSourceWithReverb K) :=
  objects.toList.filterMap AnyObject.asReverb

theorem asReverb_eq_some {obj : AnyObject K} {o : PointSourceWithReverb K} :
    obj.asReverb = some o ↔ obj = .pointSourceWithReverb o := by
  cases obj <;> simp [AnyObject.asReverb]

theorem mem_reverbObjects {objects : ObjectVector K} {o : PointSourceWithReverb K} :
    o ∈ reverbObjects objects ↔ .pointSourceWithReverb o ∈ objects.toList := by
  simp [reverbObjects, asReverb_eq_some]

/-- The ids of the objects are different. -/
theorem nodup_reverbObjects (objects : ObjectVector K) :
    ((reverbObjects objects).map fun o => o.id.val).Nodup := by
  have hids : (objects.toList.map fun obj => obj.id.val).Nodup := by
    have hmap := objects.nodup_ids.map (f := Fin.val) Fin.val_injective
    rwa [List.map_map] at hmap
  unfold reverbObjects List.Nodup at *
  rw [List.pairwise_map, List.pairwise_filterMap]
  rw [List.pairwise_map] at hids
  apply hids.imp
  intro obj obj' hne o ho o' ho'
  obtain rfl := asReverb_eq_some.mp ho
  obtain rfl := asReverb_eq_some.mp ho'
  exact hne

namespace ReverbConfiguration

variable {c : ReverbConfiguration K} {objects : ObjectVector K}

theorem foundReverbObjects_ok {l : List (AnyObject K)}
    (h : ∀ o ∈ l.filterMap AnyObject.asReverb, o.channelIndices.length = 1) :
    c.foundReverbObjects l = .ok ((l.filterMap AnyObject.asReverb).map fun o => o.id.val) := by
  induction l with
  | nil => rfl
  | cons obj l ih =>
    cases hobj : obj.asReverb with
    | none =>
      rw [List.filterMap_cons_none hobj] at h ⊢
      rw [← ih h]
      cases obj <;> first | rfl | cases hobj
    | some o =>
      obtain rfl := asReverb_eq_some.mp hobj
      rw [List.filterMap_cons_some hobj] at h ⊢
      obtain ⟨hfirst, hrest⟩ := List.forall_mem_cons.mp h
      have hsingle : ¬o.numberOfChannels ≠ 1 := not_not_intro hfirst
      rw [foundReverbObjects, if_neg hsingle, ih hrest]
      rfl

theorem objectAt_of_mem {o : PointSourceWithReverb K} (h : o ∈ reverbObjects objects) :
    objectAt objects o.id.val = .ok (.pointSourceWithReverb o) := by
  have hmem := mem_reverbObjects.mp h
  unfold objectAt
  cases hfind : objects.toList.find? fun obj => obj.id.val = o.id.val with
  | none =>
    have hnone := List.find?_eq_none.mp hfind _ hmem
    simp [AnyObject.id, AnyObject.toObject] at hnone
  | some obj =>
    have hid : obj.id.val = o.id.val := by simpa using List.find?_some hfind
    have heq := List.inj_on_of_nodup_map objects.nodup_ids (List.mem_of_find?_eq_some hfind) hmem
      (Fin.ext hid)
    rw [heq]

/-- Objects are found by their ids. -/
theorem find?_reverbObjects {o : PointSourceWithReverb K} (h : o ∈ reverbObjects objects) :
    (reverbObjects objects).find? (fun o' => o'.id.val = o.id.val) = some o := by
  cases hfind : (reverbObjects objects).find? fun o' => o'.id.val = o.id.val with
  | none =>
    have hnone := List.find?_eq_none.mp hfind o h
    simp at hnone
  | some o' =>
    have hid : o'.id.val = o.id.val := by simpa using List.find?_some hfind
    rw [List.inj_on_of_nodup_map (nodup_reverbObjects objects) (List.mem_of_find?_eq_some hfind) h
      hid]

theorem channelIndex_single {obj : Object K} (h : obj.channelIndices.length = 1) :
    ∃ channel, obj.channelIndices = [channel] ∧ channelIndex obj 0 = .ok channel.val := by
  obtain ⟨channel, hchannel⟩ := List.length_eq_one_iff.mp h
  refine ⟨channel, hchannel, ?_⟩
  unfold channelIndex
  rw [hchannel]
  rfl

end ReverbConfiguration

/-! ### The data of the outputs -/

/-- What a reflection is rendered with on `n` loudspeakers. -/
@[ext] structure ReflectionParameters (K : Type) (n : ℕ) where
  level : K
  delay : K
  filters : Fin cNumDiscreteReflectionBiquads → BiquadCoefficient K
  panningGains : Fin n → K

/-- What the parameters of reflections do not contain. -/
def RenderData.withoutReflections (d : RenderData K) : SignalRoutingParameter ×
    VectorParameter K × VectorParameter K × (ℕ → LateReverb K) ×
      MessageQueueProtocol (LateReverbParameter K) :=
  (d.signalRouting, d.lateReverbGains, d.lateReverbDelays, d.previousLateReverbs,
    d.lateSubbandOutput)

/-- The data of a rendering channel with `r` reflections on `n` loudspeakers. -/
@[ext] structure ChannelView (K : Type) (r n : ℕ) where
  routing : Option SignalRoutingEntry
  reflections : Fin r → ReflectionParameters K n
  lateReverbGain : K
  lateReverbDelay : K

namespace ReverbConfiguration

variable (c : ReverbConfiguration K)

/-- The parameters of a reflection in the data. -/
def reflectionAt (d : RenderData K) (matrixIdx : ℕ) :
    ReflectionParameters K c.numberOfPanningLoudspeakers where
  level := d.discreteReflGains matrixIdx
  delay := d.discreteReflDelays matrixIdx
  filters := d.biquadCoeffs matrixIdx
  panningGains lspIdx := d.discretePanningMatrix matrixIdx lspIdx

/-- The data of a rendering channel. -/
def view (d : RenderData K) (ch : ℕ) :
    ChannelView K c.numberOfDiscreteReflectionsPerSource c.numberOfPanningLoudspeakers where
  routing := d.signalRouting.routings.find? ch
  reflections srcIdx := c.reflectionAt d (ch * c.numberOfDiscreteReflectionsPerSource + srcIdx)
  lateReverbGain := d.lateReverbGains ch
  lateReverbDelay := d.lateReverbDelays ch

@[simp] theorem reflectionAt_setReflection (d : RenderData K) (matrixIdx idx : ℕ) (level delay : K)
    (filters : Fin cNumDiscreteReflectionBiquads → BiquadCoefficient K) (panningGains : ℕ → K) :
    c.reflectionAt (c.setReflection d matrixIdx level delay filters panningGains) idx =
      if idx = matrixIdx then ⟨level, delay, filters, fun lspIdx => panningGains lspIdx⟩
      else c.reflectionAt d idx := by
  by_cases h : idx = matrixIdx
  · subst h
    simp [reflectionAt, setReflection]
  · simp [reflectionAt, setReflection, h]

@[simp] theorem withoutReflections_setReflection (d : RenderData K) (matrixIdx : ℕ)
    (level delay : K) (filters : Fin cNumDiscreteReflectionBiquads → BiquadCoefficient K)
    (panningGains : ℕ → K) :
    (c.setReflection d matrixIdx level delay filters panningGains).withoutReflections =
      d.withoutReflections := rfl

variable {c}

/-- The routing entry of a channel is replaced. -/
theorem view_addRouting (d : RenderData K) (e : SignalRoutingEntry) (ch : ℕ) :
    c.view { d with signalRouting := d.signalRouting.addRouting e } ch =
      { c.view d ch with
        routing := if ch = e.output then some e else (c.view d ch).routing } := by
  simp [view, reflectionAt]

theorem view_removeEntry (d : RenderData K) (outputIdx ch : ℕ) :
    c.view { d with signalRouting := (d.signalRouting.removeEntry outputIdx).2 } ch =
      { c.view d ch with
        routing := if ch = outputIdx then none else (c.view d ch).routing } := by
  simp [view, reflectionAt]

end ReverbConfiguration

/-! ### Reflections -/

section Field

variable [Field K] [LinearOrder K]

/-- Nothing is heard of a reflection that is missing. -/
def ReflectionParameters.neutral (n : ℕ) : ReflectionParameters K n where
  level := 0
  delay := 0
  filters _ := defaultBiquad
  panningGains _ := 0

namespace ReverbConfiguration

variable (math : CMath K) (c : ReverbConfiguration K)

/-- The panning gains of a reflection, where there are such gains. -/
def panningGains (r : DiscreteReflection K) : ℕ → K :=
  match c.vbapCalculator.calculateGains math.sqrt ⟨r.positionX, r.positionY, r.positionZ⟩ false with
  | .error _ => fun _ => 0
  | .ok gains => gains

/-- The panning of a reflection succeeds. -/
def Panned (r : DiscreteReflection K) : Prop :=
  ∃ gains, c.vbapCalculator.calculateGains math.sqrt ⟨r.positionX, r.positionY, r.positionZ⟩ false =
    .ok gains

/-- The parameters that a reflection stands for. -/
def described (r : DiscreteReflection K) : ReflectionParameters K c.numberOfPanningLoudspeakers where
  level := r.level
  delay := r.delay
  filters := r.reflectionFilters.get
  panningGains lspIdx := c.panningGains math r lspIdx

variable {math c}

theorem processReflection_ok_iff {startIdx : ℕ} {d d' : RenderData K}
    {r : DiscreteReflection K × ℕ} :
    c.processReflection math startIdx d r = .ok d' ↔
      c.Panned math r.1 ∧ c.setReflection d (startIdx + r.2) r.1.level r.1.delay
        r.1.reflectionFilters.get (c.panningGains math r.1) = d' := by
  obtain ⟨r, srcIdx⟩ := r
  unfold processReflection Panned panningGains
  dsimp only
  cases c.vbapCalculator.calculateGains math.sqrt
      ⟨r.positionX, r.positionY, r.positionZ⟩ false with
  | error e => simp
  | ok gains => simp

/-- The loop over the reflections of an object does not fail if all of them can be panned. -/
theorem exists_processReflections {reflections : List (DiscreteReflection K)}
    (h : ∀ r ∈ reflections, c.Panned math r) (startIdx : ℕ) (d : RenderData K) :
    ∃ d', reflections.zipIdx.foldlM (c.processReflection math startIdx) d = .ok d' := by
  refine ⟨_, (foldlM_ok_iff (fun _ _ _ => processReflection_ok_iff) _ _ _).mpr ⟨?_, rfl⟩⟩
  intro r hr
  exact h r.1 (List.fst_mem_of_mem_zipIdx hr)

/-- **The loop over the reflections** writes the parameters of each of them. -/
theorem processReflections_spec {reflections : List (DiscreteReflection K)} {startIdx : ℕ}
    {d d' : RenderData K}
    (h : reflections.zipIdx.foldlM (c.processReflection math startIdx) d = .ok d') :
    d'.withoutReflections = d.withoutReflections ∧
      (∀ k r, reflections[k]? = some r →
        c.reflectionAt d' (startIdx + k) = c.described math r) ∧
      ∀ idx, (∀ k < reflections.length, idx ≠ startIdx + k) →
        c.reflectionAt d' idx = c.reflectionAt d idx := by
  have hstep : ∀ r ∈ reflections.zipIdx, ∀ m m', m.withoutReflections = d.withoutReflections →
      c.processReflection math startIdx m r = .ok m' →
      m'.withoutReflections = d.withoutReflections ∧
        c.reflectionAt m' (startIdx + r.2) = c.described math r.1 ∧
        ∀ idx, idx ≠ startIdx + r.2 → c.reflectionAt m' idx = c.reflectionAt m idx := by
    intro r _ m m' hm hok
    obtain ⟨-, rfl⟩ := processReflection_ok_iff.mp hok
    refine ⟨hm, ?_, ?_⟩
    · rw [reflectionAt_setReflection, if_pos rfl]
      rfl
    · intro idx hidx
      rw [reflectionAt_setReflection, if_neg hidx]
  obtain ⟨hother, hcells, hkept⟩ := foldlM_writes (v := c.reflectionAt)
    (I := fun m => m.withoutReflections = d.withoutReflections) (k := fun r => startIdx + r.2)
    (R := fun r _ v' => v' = c.described math r.1) hstep rfl h
  -- each reflection has an index of its own
  have hindices : reflections.zipIdx.map (fun r => startIdx + r.2) =
      (List.range reflections.length).map (startIdx + ·) := by
    rw [List.range_eq_range', ← List.zipIdx_map_snd 0, List.map_map]
    rfl
  have hnodup : (reflections.zipIdx.map fun r => startIdx + r.2).Nodup := by
    rw [hindices]
    exact List.nodup_range.map (add_right_injective startIdx)
  refine ⟨hother, ?_, ?_⟩
  · intro k r hr
    exact hcells hnodup (r, k) (List.mem_zipIdx_iff_getElem?.mpr hr)
  · intro idx hidx
    apply hkept
    rw [hindices]
    simpa [eq_comm] using hidx

omit [LinearOrder K] in
/-- **The loops over unused reflections** leave neutral values. -/
theorem clearReflections_spec (startIdx : ℕ) (indices : List ℕ) (d : RenderData K) :
    (c.clearReflections startIdx indices d).withoutReflections = d.withoutReflections ∧
      (∀ k ∈ indices, c.reflectionAt (c.clearReflections startIdx indices d) (startIdx + k) =
        .neutral _) ∧
      ∀ idx, (∀ k ∈ indices, idx ≠ startIdx + k) →
        c.reflectionAt (c.clearReflections startIdx indices d) idx = c.reflectionAt d idx := by
  unfold clearReflections
  induction indices generalizing d with
  | nil => exact ⟨rfl, List.forall_mem_nil _, fun _ _ => rfl⟩
  | cons k indices ih =>
    rw [List.foldl_cons]
    obtain ⟨hother, hcells, hkept⟩ :=
      ih (c.setReflection d (startIdx + k) 0 0 (fun _ => defaultBiquad) fun _ => 0)
    refine ⟨hother, ?_, ?_⟩
    · rw [List.forall_mem_cons]
      refine ⟨?_, hcells⟩
      -- a later iteration may write the same reflection once more
      by_cases hk : k ∈ indices
      · exact hcells k hk
      · have hnew : ∀ j ∈ indices, startIdx + k ≠ startIdx + j := by
          intro j hj heq
          rw [Nat.add_left_cancel heq] at hk
          exact hk hj
        rw [hkept _ hnew, reflectionAt_setReflection, if_pos rfl]
        rfl
    · intro idx hidx
      obtain ⟨hk, hrest⟩ := List.forall_mem_cons.mp hidx
      rw [hkept idx hrest, reflectionAt_setReflection, if_neg hk]

end ReverbConfiguration

/-! ### Rendering channels -/

/-- The late reverb of the object of a channel, if there is one. -/
def lateReverbOf (o : Option (PointSourceWithReverb K)) : LateReverb K :=
  o.elim cDefaultLateReverbParameter PointSourceWithReverb.lateReverb

/-- A message about the late reverb. -/
def lateReverbMessage (index : ℕ) (lateReverb : LateReverb K) : LateReverbParameter K :=
  { index := index, reverbParameters := lateReverb }

/-- The comparison with the limit of the component. -/
def sameLateReverb (lhs rhs : LateReverb K) : Bool := lateReverbEqual lhs rhs (epsilon K)

/-- The remembered late reverbs and the new messages after a channel has got a late reverb. -/
def detectChange (previous : ℕ → LateReverb K) (renderChannel : ℕ) (new : LateReverb K) :
    (ℕ → LateReverb K) × List (LateReverbParameter K) :=
  ChangeDetection.update lateReverbMessage sameLateReverb previous renderChannel new

@[simp] theorem RenderData.previousLateReverbs_sendLateReverb (d : RenderData K)
    (renderChannel : ℕ) (new : LateReverb K) :
    (d.sendLateReverb renderChannel new).previousLateReverbs =
      (detectChange d.previousLateReverbs renderChannel new).1 := by
  unfold sendLateReverb detectChange update sameLateReverb
  split <;> rfl

@[simp] theorem RenderData.elements_sendLateReverb (d : RenderData K) (renderChannel : ℕ)
    (new : LateReverb K) :
    (d.sendLateReverb renderChannel new).lateSubbandOutput.elements =
      d.lateSubbandOutput.elements ++
        (detectChange d.previousLateReverbs renderChannel new).2 := by
  unfold sendLateReverb detectChange update sameLateReverb
  split
  · exact (List.append_nil _).symm
  · exact MessageQueueProtocol.elements_enqueue _ _

namespace ReverbConfiguration

variable (math : CMath K) (c : ReverbConfiguration K)

/-- The parameters of a reflection of the object of a channel. -/
def renderedReflection (o : Option (PointSourceWithReverb K)) (srcIdx : ℕ) :
    ReflectionParameters K c.numberOfPanningLoudspeakers :=
  match o.bind fun o => o.discreteReflections[srcIdx]? with
  | none => .neutral _
  | some r => c.described math r

/-- The data of a channel to which an object is allocated, or none. -/
def rendered (o : Option (PointSourceWithReverb K)) (ch : ℕ) :
    ChannelView K c.numberOfDiscreteReflectionsPerSource c.numberOfPanningLoudspeakers where
  routing := o.bind fun o => o.channelIndices.head?.map fun channel =>
    { input := channel.val, output := ch }
  reflections srcIdx := c.renderedReflection math o srcIdx
  lateReverbGain := if o.isSome then 1 else 0
  lateReverbDelay := 0

/-- What an iteration for a channel does, where the object of the channel has a late reverb. -/
structure ChannelStep (d d' : RenderData K) (ch : ℕ) (lateReverb : LateReverb K) : Prop where
  others : ∀ ch', ch' ≠ ch → c.view d' ch' = c.view d ch'
  previous : d'.previousLateReverbs = (detectChange d.previousLateReverbs ch lateReverb).1
  messages : d'.lateSubbandOutput.elements =
    d.lateSubbandOutput.elements ++ (detectChange d.previousLateReverbs ch lateReverb).2
  outputs : ∀ e ∈ d'.signalRouting.routings, e ∈ d.signalRouting.routings ∨ e.output = ch

variable {math c}

/-- The columns of different channels are different. -/
theorem column_ne {r ch ch' i j : ℕ} (hi : i < r) (hj : j < r) (h : ch' ≠ ch) :
    ch' * r + j ≠ ch * r + i := by
  intro heq
  apply h
  have hpos : 0 < r := Nat.zero_lt_of_lt hi
  calc ch' = (ch' * r + j) / r := by
        rw [Nat.mul_comm, Nat.mul_add_div hpos, Nat.div_eq_of_lt hj, Nat.add_zero]
    _ = (ch * r + i) / r := by rw [heq]
    _ = ch := by rw [Nat.mul_comm, Nat.mul_add_div hpos, Nat.div_eq_of_lt hi, Nat.add_zero]

theorem view_sendLateReverb (d : RenderData K) (renderChannel : ℕ) (new : LateReverb K) (ch : ℕ) :
    c.view (d.sendLateReverb renderChannel new) ch = c.view d ch := by
  unfold RenderData.sendLateReverb
  split <;> rfl

theorem signalRouting_sendLateReverb (d : RenderData K) (renderChannel : ℕ) (new : LateReverb K) :
    (d.sendLateReverb renderChannel new).signalRouting = d.signalRouting := by
  unfold RenderData.sendLateReverb
  split <;> rfl

/-- The end of both functions, after the reflections of the channel have been written. -/
def finish (renderChannel : ℕ) (gain : K) (lateReverb : LateReverb K) (d : RenderData K) :
    RenderData K :=
  RenderData.sendLateReverb { d with
    lateReverbDelays := Function.update d.lateReverbDelays renderChannel 0
    lateReverbGains := Function.update d.lateReverbGains renderChannel gain } renderChannel
    lateReverb

theorem finish_spec {d d₁ : RenderData K} {ch : ℕ} (gain : K) (lateReverb : LateReverb K)
    (hother : d₁.withoutReflections = d.withoutReflections)
    (hkept : ∀ idx, (∀ k < c.numberOfDiscreteReflectionsPerSource,
      idx ≠ ch * c.numberOfDiscreteReflectionsPerSource + k) →
        c.reflectionAt d₁ idx = c.reflectionAt d idx) :
    c.view (finish ch gain lateReverb d₁) ch =
        ⟨(c.view d ch).routing, (c.view d₁ ch).reflections, gain, 0⟩ ∧
      c.ChannelStep d (finish ch gain lateReverb d₁) ch lateReverb := by
  obtain ⟨hrouting, hgains, hdelays, hprevious, hqueue⟩ :
      d₁.signalRouting = d.signalRouting ∧ d₁.lateReverbGains = d.lateReverbGains ∧
        d₁.lateReverbDelays = d.lateReverbDelays ∧
        d₁.previousLateReverbs = d.previousLateReverbs ∧
        d₁.lateSubbandOutput = d.lateSubbandOutput := by
    simpa [RenderData.withoutReflections] using hother
  unfold finish
  refine ⟨?_, ?_, ?_, ?_, ?_⟩
  · rw [view_sendLateReverb]
    simp [view, hrouting, reflectionAt]
  · intro ch' hch'
    rw [view_sendLateReverb]
    -- the reflections of another channel are stored elsewhere
    have hreflections : ∀ k : Fin c.numberOfDiscreteReflectionsPerSource,
        c.reflectionAt d₁ (ch' * c.numberOfDiscreteReflectionsPerSource + k) =
          c.reflectionAt d (ch' * c.numberOfDiscreteReflectionsPerSource + k) := by
      intro k
      apply hkept
      intro j hj
      exact column_ne hj k.isLt hch'
    ext1
    · simp [view, hrouting]
    · funext k
      exact hreflections k
    · simp [view, hgains, hch']
    · simp [view, hdelays, hch']
  · rw [RenderData.previousLateReverbs_sendLateReverb]
    dsimp only
    rw [hprevious]
  · rw [RenderData.elements_sendLateReverb]
    dsimp only
    rw [hqueue, hprevious]
  · intro e he
    rw [signalRouting_sendLateReverb] at he
    exact Or.inl (hrouting ▸ he)

/-- **A channel without an object** gets neutral values. -/
theorem clearSingleObject_spec (d : RenderData K) (ch : ℕ) :
    c.view (c.clearSingleObject ch d) ch =
        ⟨(c.view d ch).routing, fun _ => .neutral _, 0, 0⟩ ∧
      c.ChannelStep d (c.clearSingleObject ch d) ch cDefaultLateReverbParameter := by
  obtain ⟨hother, hcells, hkept⟩ := c.clearReflections_spec
    (ch * c.numberOfDiscreteReflectionsPerSource)
    (List.range c.numberOfDiscreteReflectionsPerSource) d
  have hcells' : (c.view (c.clearReflections (ch * c.numberOfDiscreteReflectionsPerSource)
      (List.range c.numberOfDiscreteReflectionsPerSource) d) ch).reflections =
        fun _ => .neutral _ := by
    funext k
    exact hcells k (List.mem_range.mpr k.isLt)
  rw [← hcells']
  apply finish_spec 0 cDefaultLateReverbParameter hother
  simpa using hkept

/-- **A channel with an object** gets the values of this object. -/
theorem processSingleObject_spec {o : PointSourceWithReverb K}
    (hsize : o.discreteReflections.length ≤ c.numberOfDiscreteReflectionsPerSource)
    (hpanned : ∀ r ∈ o.discreteReflections, c.Panned math r) (d : RenderData K) (ch : ℕ) :
    ∃ d', c.processSingleObject math o ch d = .ok d' ∧
      c.view d' ch =
        ⟨(c.view d ch).routing, fun k => c.renderedReflection math (some o) k, 1, 0⟩ ∧
      c.ChannelStep d d' ch o.lateReverb := by
  obtain ⟨startIdx, hstart⟩ : ∃ idx, idx = ch * c.numberOfDiscreteReflectionsPerSource := ⟨_, rfl⟩
  obtain ⟨d₁, hloop⟩ := exists_processReflections hpanned startIdx d
  obtain ⟨hother₁, hcells₁, hkept₁⟩ := processReflections_spec hloop
  obtain ⟨unused, hrange⟩ : ∃ indices, indices = List.range' o.discreteReflections.length
    (c.numberOfDiscreteReflectionsPerSource - o.discreteReflections.length) := ⟨_, rfl⟩
  obtain ⟨hother₂, hcells₂, hkept₂⟩ := c.clearReflections_spec startIdx unused d₁
  have hunused : ∀ k, k ∈ unused ↔ o.discreteReflections.length ≤ k ∧
      k < c.numberOfDiscreteReflectionsPerSource := by
    intro k
    rw [hrange, List.mem_range'_1]
    omega
  have hcells : (c.view (c.clearReflections startIdx unused d₁) ch).reflections =
      fun k : Fin _ => c.renderedReflection math (some o) k := by
    funext k
    unfold view renderedReflection
    rw [← hstart]
    dsimp only
    rw [Option.bind_some]
    cases hk : o.discreteReflections[(k : ℕ)]? with
    | none =>
      -- The reflection is missing, and the second loop has cleared it.
      exact hcells₂ k ((hunused k).mpr ⟨List.getElem?_eq_none_iff.mp hk, k.isLt⟩)
    | some r =>
      have hlt : k < o.discreteReflections.length := (List.getElem?_eq_some_iff.mp hk).1
      rw [hkept₂, hcells₁ k r hk]
      intro j hj heq
      obtain ⟨hle, -⟩ := (hunused j).mp hj
      omega
  refine ⟨finish ch 1 o.lateReverb (c.clearReflections startIdx unused d₁), ?_, ?_⟩
  · unfold processSingleObject
    rw [if_neg (Nat.not_lt.mpr hsize)]
    dsimp only
    rw [← hstart, hloop, ← hrange]
    rfl
  · rw [← hcells]
    apply finish_spec 1 o.lateReverb (hother₂.trans hother₁)
    intro idx hidx
    rw [← hstart] at hidx
    rw [hkept₂, hkept₁]
    · intro k hk
      exact hidx k (hk.trans_le hsize)
    · intro k hk
      exact hidx k ((hunused k).mp hk).2

end ReverbConfiguration

/-! ### Scenes -/

/-- What the functions ask of the objects of a scene. -/
structure ReverbConfiguration.Admissible (math : CMath K) (c : ReverbConfiguration K)
    (objects : ObjectVector K) : Prop where
  count : (reverbObjects objects).length ≤ c.maxNumberOfObjects
  single : ∀ o ∈ reverbObjects objects, o.channelIndices.length = 1
  size : ∀ o ∈ reverbObjects objects,
    o.discreteReflections.length ≤ c.numberOfDiscreteReflectionsPerSource
  panned : ∀ o ∈ reverbObjects objects, ∀ r ∈ o.discreteReflections, c.Panned math r

namespace ReverbConfiguration

variable {math : CMath K} {c : ReverbConfiguration K} {objects : ObjectVector K}

/-- The object that is rendered in a channel.  The invalid id stands for none. -/
def renderedObject (objects : ObjectVector K) (channelAllocator : ObjectChannelAllocator) (ch : ℕ) :
    Option (PointSourceWithReverb K) :=
  if channelAllocator.getObjectForChannel ch = cInvalidChannelIndex then none
  else (reverbObjects objects).find? fun o => o.id.val = channelAllocator.getObjectForChannel ch

/-- A step that starts from other routings, where only the channel of the step may differ. -/
theorem ChannelStep.of_routing {d d₀ d' : RenderData K} {ch : ℕ} {lateReverb : LateReverb K}
    (h : c.ChannelStep d₀ d' ch lateReverb)
    (hothers : ∀ ch', ch' ≠ ch → c.view d₀ ch' = c.view d ch')
    (hprevious : d₀.previousLateReverbs = d.previousLateReverbs)
    (hqueue : d₀.lateSubbandOutput = d.lateSubbandOutput)
    (houtputs : ∀ e ∈ d₀.signalRouting.routings,
      e ∈ d.signalRouting.routings ∨ e.output = ch) :
    c.ChannelStep d d' ch lateReverb where
  others ch' hch' := (h.others ch' hch').trans (hothers ch' hch')
  previous := by rw [h.previous, hprevious]
  messages := by rw [h.messages, hqueue, hprevious]
  outputs e he := (h.outputs e he).elim (houtputs e) Or.inr

/-- **One iteration** renders the object of its channel, and leaves the others alone. -/
theorem processChannel_spec (hadmissible : c.Admissible math objects)
    {channelAllocator : ObjectChannelAllocator} {ch : ℕ}
    (hobject : channelAllocator.getObjectForChannel ch = cInvalidChannelIndex ∨
      ∃ o ∈ reverbObjects objects, o.id.val = channelAllocator.getObjectForChannel ch)
    (d : RenderData K) :
    ∃ d', c.processChannel math objects channelAllocator d ch = .ok d' ∧
      c.view d' ch = c.rendered math (renderedObject objects channelAllocator ch) ch ∧
      c.ChannelStep d d' ch (lateReverbOf (renderedObject objects channelAllocator ch)) := by
  unfold processChannel renderedObject
  -- a channel without an object loses its routing and its reflections
  by_cases hinvalid : channelAllocator.getObjectForChannel ch = cInvalidChannelIndex
  · rw [if_pos hinvalid, if_pos hinvalid]
    obtain ⟨hview, hstep⟩ := c.clearSingleObject_spec
      { d with signalRouting := (d.signalRouting.removeEntry ch).2 } ch
    refine ⟨_, rfl, ?_, hstep.of_routing ?_ rfl rfl ?_⟩
    · rw [hview, view_removeEntry]
      simp [rendered, renderedReflection]
    · intro ch' hch'
      rw [view_removeEntry, if_neg hch']
    · intro e he
      rw [SignalRoutingParameter.routings_removeEntry, KeyedSet.mem_erase] at he
      exact Or.inl he.1
  · obtain ⟨o, ho, hid⟩ := hobject.resolve_left hinvalid
    obtain ⟨channel, hchannels, hindex⟩ := channelIndex_single (hadmissible.single o ho)
    -- the object of the channel is found by its id in the vector and in the map
    have hfind : (reverbObjects objects).find?
        (fun o => o.id.val = channelAllocator.getObjectForChannel ch) = some o := by
      rw [← hid]
      exact find?_reverbObjects ho
    obtain ⟨d', hok, hview, hstep⟩ := processSingleObject_spec (hadmissible.size o ho)
      (hadmissible.panned o ho) { d with
        signalRouting := d.signalRouting.addRouting { input := channel.val, output := ch } } ch
    refine ⟨d', ?_, ?_, ?_⟩
    · rw [if_neg hinvalid, ← hid, objectAt_of_mem ho]
      dsimp only
      rw [hindex]
      dsimp only
      rw [hok]
      rfl
    · rw [if_neg hinvalid, hfind, hview, view_addRouting]
      simp [rendered, hchannels]
    · rw [if_neg hinvalid, hfind]
      refine hstep.of_routing ?_ rfl rfl ?_
      · intro ch' hch'
        rw [view_addRouting, if_neg hch']
      · intro e he
        rw [SignalRoutingParameter.routings_addRouting, KeyedSet.mem_put] at he
        rcases he with rfl | ⟨he, -⟩
        · exact Or.inr rfl
        · exact Or.inl he

section Loop

variable [IsStrictOrderedRing K]

theorem sameLateReverb_refl (v : LateReverb K) : sameLateReverb v v = true := by
  have hepsilon : (0 : K) ≤ epsilon K := epsilon_pos.le
  unfold sameLateReverb
  rw [lateReverbEqual_iff hepsilon]
  constructor <;> simp [hepsilon]

/-- What is remembered about the messages. -/
def RemembersLateReverbs (sent : List (LateReverbParameter K)) (previous : ℕ → LateReverb K) :
    Prop :=
  Remembers LateReverbParameter.index LateReverbParameter.reverbParameters
    (fun _ => initialLateReverb) sent previous

/-- **The loop over the channels** renders all of them. -/
theorem processChannels_spec (hadmissible : c.Admissible math objects)
    {channelAllocator : ObjectChannelAllocator}
    (hobjects : ∀ ch, channelAllocator.getObjectForChannel ch = cInvalidChannelIndex ∨
      ∃ o ∈ reverbObjects objects, o.id.val = channelAllocator.getObjectForChannel ch)
    {channels : List ℕ} (hnodup : channels.Nodup) (d : RenderData K) :
    ∃ d' new, channels.foldlM (c.processChannel math objects channelAllocator) d = .ok d' ∧
      (∀ ch ∈ channels,
        c.view d' ch = c.rendered math (renderedObject objects channelAllocator ch) ch ∧
          sameLateReverb (d'.previousLateReverbs ch)
            (lateReverbOf (renderedObject objects channelAllocator ch)) = true) ∧
      (∀ ch, ch ∉ channels → c.view d' ch = c.view d ch ∧
        d'.previousLateReverbs ch = d.previousLateReverbs ch) ∧
      d'.lateSubbandOutput.elements = d.lateSubbandOutput.elements ++ new ∧
      (∀ sent, RemembersLateReverbs sent d.previousLateReverbs →
        RemembersLateReverbs (sent ++ new) d'.previousLateReverbs) ∧
      ∀ e ∈ d'.signalRouting.routings,
        e ∈ d.signalRouting.routings ∨ e.output ∈ channels := by
  induction channels generalizing d with
  | nil =>
    refine ⟨d, [], rfl, List.forall_mem_nil _, ?_, ?_, ?_, ?_⟩
    · intro ch _
      exact ⟨rfl, rfl⟩
    · exact (List.append_nil _).symm
    · intro sent h
      rwa [List.append_nil]
    · intro e he
      exact Or.inl he
  | cons ch channels ih =>
    obtain ⟨hch, hnodup⟩ := List.nodup_cons.mp hnodup
    obtain ⟨d₁, hok₁, hview₁, hstep⟩ := processChannel_spec hadmissible (hobjects ch) d
    obtain ⟨d', new, hok, hviews, hothers, hmessages, hremembers, houtputs⟩ := ih hnodup d₁
    refine ⟨d', (detectChange d.previousLateReverbs ch
      (lateReverbOf (renderedObject objects channelAllocator ch))).2 ++ new,
      ?_, ?_, ?_, ?_, ?_, ?_⟩
    · rw [List.foldlM_cons, hok₁]
      exact hok
    · rw [List.forall_mem_cons]
      refine ⟨?_, hviews⟩
      -- The later iterations leave this channel alone.
      obtain ⟨hview, hprevious⟩ := hothers ch hch
      rw [hview, hprevious, hstep.previous]
      exact ⟨hview₁, update_same sameLateReverb_refl _ _ _⟩
    · intro ch' hch'
      obtain ⟨hne, hch'⟩ := not_or.mp (fun h => hch' (List.mem_cons.mpr h))
      obtain ⟨hview, hprevious⟩ := hothers ch' hch'
      rw [hview, hprevious, hstep.previous]
      exact ⟨hstep.others ch' hne, update_other _ _ hne⟩
    · rw [hmessages, hstep.messages, List.append_assoc]
    · intro sent hsent
      rw [← List.append_assoc]
      apply hremembers
      rw [hstep.previous]
      exact Remembers.update (fun _ _ => rfl) (fun _ _ => rfl) hsent ch _
    · intro e he
      rcases houtputs e he with he | he
      · rcases hstep.outputs e he with he | he
        · exact Or.inl he
        · exact Or.inr (List.mem_cons.mpr (Or.inl he))
      · exact Or.inr (List.mem_cons_of_mem ch he)

end Loop

end ReverbConfiguration

end Field

end Visr
