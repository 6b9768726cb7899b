import Visr.Library.Stream
import Visr.Librrl.FlowExecution

/-!
# Processing of blocks

What comes out of a runtime system when it processes one block after the other.

## Main results

* `gather_scatter` — a caller finds the samples of a channel where it has asked for them.
* `Prepared.process_corresponds`, `Prepared.processRun_corresponds` — **one block**, and **a run**.
* `Prepared.process_frame` — nothing is written outside of the pool.
-/

namespace Visr

namespace AudioSignalFlow

open Dataflow Slices

variable {S β : Type}

/-! ### Strided channels -/

theorem length_gather (period stride : ℕ) (samples : ℕ → β) :
    (gather period stride samples).length = period * sampleBytes := by
  simp [gather, List.length_flatMap]

/-- Samples at different positions have no bytes in common. -/
theorem apart_samples {stride : ℕ} (hstride : 0 < stride) {n n' : ℕ} (h : n ≠ n') :
    Apart (n * stride * sampleBytes) sampleBytes (n' * stride * sampleBytes) sampleBytes := by
  have happart := apart_mul 0 (Nat.le_mul_of_pos_left sampleBytes hstride) h
  rw [Nat.zero_add, Nat.zero_add, Nat.mul_comm _ n, Nat.mul_comm _ n', ← Nat.mul_assoc,
    ← Nat.mul_assoc] at happart
  exact happart

section Scatter

variable {period stride : ℕ} {bytes : List β}

theorem length_sample (hbytes : bytes.length = period * sampleBytes) {n : ℕ} (hn : n < period) :
    ((bytes.drop (n * sampleBytes)).take sampleBytes).length = sampleBytes := by
  have hle : (n + 1) * sampleBytes ≤ period * sampleBytes := Nat.mul_le_mul_right _ hn
  rw [Nat.succ_mul] at hle
  rw [List.length_take, List.length_drop, hbytes]
  omega

/-- The loop over the samples that are written. -/
theorem load_foldl_store (hstride : 0 < stride) (hbytes : bytes.length = period * sampleBytes)
    {positions : List ℕ} (hpositions : ∀ n ∈ positions, n < period) (samples : ℕ → β) (n : ℕ) :
    load (positions.foldl (fun samples n => store samples (n * stride * sampleBytes)
        ((bytes.drop (n * sampleBytes)).take sampleBytes)) samples)
      (n * stride * sampleBytes) sampleBytes =
    if n ∈ positions then (bytes.drop (n * sampleBytes)).take sampleBytes
    else load samples (n * stride * sampleBytes) sampleBytes := by
  induction positions generalizing samples with
  | nil => simp
  | cons n' positions ih =>
    obtain ⟨hn', hpositions⟩ := List.forall_mem_cons.mp hpositions
    rw [List.foldl_cons, ih hpositions]
    by_cases hmem : n ∈ positions
    · rw [if_pos hmem, if_pos (List.mem_cons_of_mem _ hmem)]
    · rw [if_neg hmem]
      by_cases heq : n = n'
      · subst heq
        rw [if_pos List.mem_cons_self, load_store_same _ _ (length_sample hbytes hn')]
      · rw [if_neg (by simp [heq, hmem]), load_store_apart]
        rw [length_sample hbytes hn']
        exact apart_samples hstride heq

/-- **A caller finds the samples** of a channel where it has asked for them. -/
theorem gather_scatter (hstride : 0 < stride) (hbytes : bytes.length = period * sampleBytes)
    (samples : ℕ → β) : gather period stride (scatter period stride bytes samples) = bytes := by
  have hload : ∀ n ∈ List.range period,
      load (scatter period stride bytes samples) (n * stride * sampleBytes) sampleBytes =
        (bytes.drop (n * sampleBytes)).take sampleBytes := by
    intro n hn
    unfold scatter
    rw [load_foldl_store hstride hbytes fun n hn => List.mem_range.mp hn, if_pos hn]
  -- the samples are the pieces of the block
  have hpieces : ∀ k ≤ period, (List.range k).flatMap (fun n =>
      (bytes.drop (n * sampleBytes)).take sampleBytes) = bytes.take (k * sampleBytes) := by
    intro k
    induction k with
    | zero => simp
    | succ k ih =>
      intro hk
      rw [List.range_succ, List.flatMap_append, ih (Nat.le_of_succ_le hk), List.flatMap_singleton,
        Nat.succ_mul, List.take_add]
  have hmap := List.flatMap_congr hload
  unfold gather
  rw [hmap, hpieces period le_rfl, ← hbytes, List.take_length]

end Scatter

/-! ### Several blocks -/

/-- Processes several blocks.  Each call has its own arrays. -/
def processRun (flow : AudioSignalFlow) (root : Component) (b : ComponentBehaviour S β)
    (captureStrideSamples playbackStrideSamples : ℕ) :
    State S β → List ((ℕ → ℕ → β) × (ℕ → ℕ → β)) →
      Except Exception (State S β × List (ℕ → ℕ → β)) :=
  stream fun x arrays =>
    flow.process root b arrays.1 captureStrideSamples playbackStrideSamples (x, arrays.2)

/-! ### One block -/

/-- What a caller gets when a component fails. -/
def processError (e : Exception) : Exception :=
  .invalidArgument ("Error during execution of processing schedule: " ++
    ("Exception while executing audio signal flow: " ++ e.what))

/-- What the connections of a flow make of blocks at the external inputs. -/
def dataflowBlock (root : Component) (net : Network ComponentRef AudioChannel AudioChannel)
    (order : List ComponentRef) (missing : Exception) (b : ComponentBehaviour S β) (s : S)
    (blocks : List (List β)) : Except Exception (S × List (List β)) :=
  (net.transform b missing order (root.channelsOf .input) (root.channelsOf .output) s
    blocks).mapError processError

/-- The samples of the external channels. -/
def blocksOf (root : Component) (direction : Direction) (period stride : ℕ)
    (samples : ℕ → ℕ → β) : List (List β) :=
  (List.range (root.channelsOf direction).length).map fun chIdx =>
    gather period stride (samples chIdx)

/-- `process` assumes that the external channels have the default sample type. -/
def ExternalFloat (root : Component) : Prop :=
  ∀ port ∈ root.audioPorts, port.sampleType = .float

theorem ExternalFloat.typeSize {root : Component} (h : ExternalFloat root) {direction : Direction}
    {c : AudioChannel} (hc : c ∈ root.channelsOf direction) :
    c.port.sampleType.typeSize = sampleBytes := by
  rw [h _ (mem_channelsOf_component.mp hc).1]
  rfl

theorem forall₂_range_map {α : Type*} {P : α → List β → Prop} {l : List α} {f : ℕ → List β}
    (h : ∀ a ∈ l, ∀ n, P a (f n)) : List.Forall₂ P l ((List.range l.length).map f) := by
  rw [List.forall₂_iff_get]
  refine ⟨by simp, fun i hi hi' => ?_⟩
  have hget := h (l.get ⟨i, hi⟩) (List.get_mem _ _) i
  simpa using hget

theorem channels_nodup (port : AudioPort) : port.channels.Nodup :=
  List.Nodup.map (fun _ _ h => congrArg AudioChannel.channel h) List.nodup_range

/-- The blocks are counted. -/
theorem process_blockCounter {f : AudioSignalFlow} {root : Component} {b : ComponentBehaviour S β}
    {samples : ℕ → ℕ → β} {captureStride playbackStride : ℕ} {x : State S β × (ℕ → ℕ → β)}
    {x' : State S β} {playback : ℕ → ℕ → β}
    (hok : f.process root b samples captureStride playbackStride x = .ok (x', playback)) :
    x'.blockCounter = (x.1.blockCounter + 1) % 2 ^ 64 := by
  obtain ⟨result, -, h⟩ := exists_of_bind_ok hok
  obtain ⟨rfl, -⟩ := Prod.mk.inj (Except.ok.inj h)
  rfl

section Block

variable {flow : Flow} {env : AudioEnvironment flow.root} {f : AudioSignalFlow}
  {flat : AudioConnectionMap} {plans : List PortPlan} {parameterConnections : ParameterConnectionMap}

/-- The channels of a component are all different. -/
theorem nodup_channelsOf (c : ComponentRef) (direction : Direction) :
    (channelsOf flow.root c direction).Nodup := by
  have hwf := flow.wellFormed
  unfold channelsOf
  rcases hfind : flow.root.preorder.find? fun component => component.self = c with _ | atom
  · rw [hfind]
    exact List.nodup_nil
  · rw [hfind]
    have hatom := List.mem_of_find?_eq_some hfind
    have hports : atom.audioPorts.Nodup := by
      have haddresses := hwf.audioAddresses
      rw [List.map_flatMap, List.nodup_flatMap] at haddresses
      exact List.Nodup.of_map _ (haddresses.1 atom hatom)
    refine List.nodup_flatMap.mpr ⟨fun port _ => channels_nodup port, ?_⟩
    refine (hports.filter _).imp_of_mem fun _ _ hne => ?_
    intro w hw hw'
    exact hne ((mem_channels.mp hw).1.symm.trans (mem_channels.mp hw').1)

/-- Different components write to different channels. -/
theorem nodup_flatMap_channelsOf {order : List ComponentRef} (hnodup : order.Nodup)
    (horder : ∀ c ∈ order, c ∈ collectAllComponents flow.root) (direction : Direction) :
    (order.flatMap fun c => channelsOf flow.root c direction).Nodup := by
  refine List.nodup_flatMap.mpr ⟨fun c _ => nodup_channelsOf c direction, ?_⟩
  refine hnodup.imp_of_mem fun hc hc' hne => ?_
  intro w hw hw'
  have hparent := (concrete_of_mem_channelsOf direction (horder _ hc) hw).2
  have hparent' := (concrete_of_mem_channelsOf direction (horder _ hc') hw').2
  exact hne (hparent.symm.trans hparent')

theorem concreteSend_of_mem {c : AudioChannel} (hc : c ∈ flow.root.channelsOf .input) :
    ConcreteSend flow.root c := by
  obtain ⟨hport, hdirection, hwidth⟩ := mem_channelsOf_component.mp hc
  exact ⟨hwidth, Or.inl ⟨hport, hdirection⟩⟩

theorem concreteReceive_of_mem {c : AudioChannel} (hc : c ∈ flow.root.channelsOf .output) :
    ConcreteReceive flow.root c := by
  obtain ⟨hport, hdirection, hwidth⟩ := mem_channelsOf_component.mp hc
  exact ⟨hwidth, Or.inl ⟨hport, hdirection⟩⟩

variable (h : Prepared flow env f flat plans parameterConnections)

include h

/-- The external inputs are connected. -/
theorem Prepared.fits_captures (hexternal : ExternalFloat flow.root) (stride : ℕ)
    (samples : ℕ → ℕ → β) : List.Forall₂ (Fits f) (flow.root.channelsOf .input)
      (blocksOf flow.root .input f.period stride samples) := by
  refine forall₂_range_map fun c hc n => ⟨?_, ?_⟩
  · unfold BlockOf
    rw [length_gather, hexternal.typeSize hc]
  · obtain ⟨r, hr⟩ := (h.flattened.sends c).mpr (concreteSend_of_mem hc)
    exact h.realises.exists_receiver h.flattened.complete hr

/-- The channels that the atomic components write to are not external ones. -/
theorem Prepared.not_captured {c : ComponentRef} (hc : c ∈ collectAllComponents flow.root)
    {w : AudioChannel} (hw : w ∈ channelsOf flow.root c .output) :
    w ∉ flow.root.channelsOf .input := by
  have hwf := flow.wellFormed
  intro hexternal
  obtain ⟨atom, hatom, hatomic, -, hmem⟩ := (mem_channelsOf hc).mp hw
  have hport := (mem_channelsOf_component.mp hmem).1
  have hroot := (mem_channelsOf_component.mp hexternal).1
  have hself : atom.self = flow.root.self := by
    rw [← hwf.audioParent atom hatom _ hport,
      hwf.audioParent _ flow.root.mem_preorder_self _ hroot]
  rw [Component.eq_of_self hwf.addresses hatom flow.root.mem_preorder_self hself,
    h.composite] at hatomic
  cases hatomic

/-- The samples of the external inputs get into the pool. -/
theorem Prepared.captured_eq (blocks : ℕ → List β) (m : ℕ → β) :
    f.captureChannels.zipIdx.foldl (fun m e => store m e.1 (blocks e.2)) m =
      (poolBuffers f).store ((flow.root.channelsOf .input).zip
        ((List.range (flow.root.channelsOf .input).length).map blocks)) m := by
  have hzip : (flow.root.channelsOf .input).zip
      ((List.range (flow.root.channelsOf .input).length).map blocks) =
      (flow.root.channelsOf .input).zipIdx.map fun e => (e.1, blocks e.2) := by
    refine List.ext_getElem (by simp) fun i hi hi' => ?_
    simp
  rw [h.capture, hzip]
  unfold externalChannels Buffers.store
  rw [List.zipIdx_map, List.foldl_map, List.foldl_map]
  rfl

variable {net : Network ComponentRef AudioChannel AudioChannel}
  (hnet : FlowNetwork flow.root net)

include hnet

/-- **A pass over the schedule** is a pass of the dataflow. -/
theorem Prepared.run_corresponds (hexternal : ExternalFloat flow.root)
    {b : ComponentBehaviour S β} (hb : Sized flow.root f.period b) (missing : Exception)
    (stride : ℕ) (samples : ℕ → ℕ → β) (s : S) (m : ℕ → β) :
    Corresponds (fun x y => x.1 = y.1 ∧
        x.2 = (flow.root.channelsOf .output).map (f.readChannel y.2))
      (net.transform b missing
        (f.processingSchedule.filter fun c => !isRouting f.setup.infrastructureComponents c)
        (flow.root.channelsOf .input) (flow.root.channelsOf .output) s
        (blocksOf flow.root .input f.period stride samples))
      ((poolBuffers f).run (executedNetwork f.setup flow.root) (executedBehaviour f.setup b)
        f.processingSchedule (s, (poolBuffers f).store ((flow.root.channelsOf .input).zip
          (blocksOf flow.root .input f.period stride samples)) m)) := by
  have horder := h.validOrder
  have hatom : ∀ c ∈ f.processingSchedule.filter fun c =>
      !isRouting f.setup.infrastructureComponents c, c ∈ collectAllComponents flow.root :=
    fun c hc => (horder.mem c).mp hc
  have houtputs : (f.processingSchedule.filter fun c =>
      !isRouting f.setup.infrastructureComponents c).flatMap net.outputs =
      (f.processingSchedule.filter fun c =>
        !isRouting f.setup.infrastructureComponents c).flatMap fun c =>
          channelsOf flow.root c .output :=
    List.flatMap_congr fun c hc => hnet.outputs c (hatom c hc)
  refine Bypass.transform_corresponds h.faithful (h.fitting hb) (h.bypass hnet b) ?_ h.scheduled
    ?_ ?_ ?_ ?_ (h.fits_captures hexternal stride samples) missing s m
  · intro c _ hordinary
    unfold executedBehaviour
    rw [hordinary]
    rfl
  · exact fun w hw => h.originalOf_concrete (concreteSend_of_mem hw)
  · rw [houtputs]
    exact nodup_flatMap_channelsOf horder.nodup hatom .output
  · rw [houtputs]
    intro w hw
    obtain ⟨c, hc, hw⟩ := List.mem_flatMap.mp hw
    exact h.not_captured (hatom c hc) hw
  · intro r hr
    obtain ⟨w, hw, hsource⟩ := h.source_original hnet (concreteReceive_of_mem hr)
    refine ⟨w, h.source_eq_some.mpr hw, hsource, ?_⟩
    exact (h.sender_cases hw).imp_right fun ⟨hmem, hout⟩ => ⟨_, hmem, hout⟩

omit hnet in
/-- The samples of the external outputs get out of the pool. -/
theorem Prepared.played_eq (hexternal : ExternalFloat flow.root) {stride : ℕ}
    (hstride : 0 < stride) (m : ℕ → β) (playback : ℕ → ℕ → β) :
    blocksOf flow.root .output f.period stride (fun chIdx =>
        match f.playbackChannels[chIdx]? with
        | some chPtr => scatter f.period stride (load m chPtr (f.period * sampleBytes))
            (playback chIdx)
        | none => playback chIdx) =
      (flow.root.channelsOf .output).map (f.readChannel m) := by
  unfold blocksOf
  refine List.ext_getElem (by simp) fun i hi hi' => ?_
  have hlt : i < (flow.root.channelsOf .output).length := by simpa using hi'
  have hpointer : f.playbackChannels[i]? =
      some (f.channelAddress (flow.root.channelsOf .output)[i]) := by
    rw [h.playback]
    unfold externalChannels
    rw [List.getElem?_map, List.getElem?_eq_getElem hlt]
    rfl
  have htype := hexternal.typeSize (List.getElem_mem hlt)
  rw [List.getElem_map, List.getElem_range, List.getElem_map]
  dsimp only
  rw [hpointer]
  dsimp only
  rw [gather_scatter hstride (length_load _ _ _)]
  unfold readChannel
  rw [htype]

/-- **One block**: what the callers find in their arrays is what the dataflow makes of it. -/
theorem Prepared.process_corresponds (haligned : CopiesAligned f)
    (hexternal : ExternalFloat flow.root) {b : ComponentBehaviour S β}
    (hb : Sized flow.root f.period b) (missing : Exception) (captureStride : ℕ)
    {playbackStride : ℕ} (hstride : 0 < playbackStride) (samples playback : ℕ → ℕ → β)
    (x : State S β) :
    Corresponds (fun y z => y.1.components = z.1 ∧
        blocksOf flow.root .output f.period playbackStride y.2 = z.2)
      (f.process flow.root b samples captureStride playbackStride (x, playback))
      (dataflowBlock flow.root net
        (f.processingSchedule.filter fun c => !isRouting f.setup.infrastructureComponents c)
        missing b x.components (blocksOf flow.root .input f.period captureStride samples)) := by
  have hrun := h.run_corresponds hnet hexternal hb missing captureStride samples x.components
    x.memory
  have hcaptured := h.captured_eq (fun ch => gather f.period captureStride (samples ch)) x.memory
  unfold process dataflowBlock
  dsimp only
  rw [hcaptured, h.executeComponents_eq haligned]
  rcases hx : net.transform b missing _ _ _ _ _ with e | x'
  · rw [hx] at hrun
    have hpool := hrun.eq_error
    unfold blocksOf at hpool
    rw [hpool]
    rfl
  · rw [hx] at hrun
    obtain ⟨⟨s', m'⟩, hpool, hstate, hresults⟩ := hrun.exists_ok
    unfold blocksOf at hpool
    rw [hpool]
    refine ⟨hstate.symm, Eq.trans ?_ hresults.symm⟩
    exact h.played_eq hexternal hstride m' playback

/-- **A run**: what the callers find is what the dataflow makes of the blocks they have given. -/
theorem Prepared.processRun_corresponds (haligned : CopiesAligned f)
    (hexternal : ExternalFloat flow.root) {b : ComponentBehaviour S β}
    (hb : Sized flow.root f.period b) (missing : Exception) (captureStride : ℕ)
    {playbackStride : ℕ} (hstride : 0 < playbackStride)
    (arrays : List ((ℕ → ℕ → β) × (ℕ → ℕ → β))) {x : State S β} (hx : x.blockCounter = 0) :
    Corresponds (fun y z => y.1.blockCounter = arrays.length % 2 ^ 64 ∧
        y.1.components = z.1 ∧
        y.2.map (blocksOf flow.root .output f.period playbackStride) = z.2)
      (f.processRun flow.root b captureStride playbackStride x arrays)
      (stream (dataflowBlock flow.root net
          (f.processingSchedule.filter fun c => !isRouting f.setup.infrastructureComponents c)
          missing b) x.components
        (arrays.map fun e => blocksOf flow.root .input f.period captureStride e.1)) := by
  have hblocks : List.Forall₂ (fun (e : (ℕ → ℕ → β) × (ℕ → ℕ → β)) blocks =>
      blocksOf flow.root .input f.period captureStride e.1 = blocks) arrays
      (arrays.map fun e => blocksOf flow.root .input f.period captureStride e.1) := by
    rw [List.forall₂_map_right_iff]
    exact List.forall₂_same.mpr fun _ _ => rfl
  have hstep : ∀ (x : State S β) s (e : (ℕ → ℕ → β) × (ℕ → ℕ → β)) blocks, x.components = s →
      blocksOf flow.root .input f.period captureStride e.1 = blocks →
      Corresponds (fun y z => y.1.components = z.1 ∧
          blocksOf flow.root .output f.period playbackStride y.2 = z.2)
        (f.process flow.root b e.1 captureStride playbackStride (x, e.2))
        (dataflowBlock flow.root net
          (f.processingSchedule.filter fun c => !isRouting f.setup.infrastructureComponents c)
          missing b s blocks) := by
    rintro x s e blocks rfl rfl
    exact h.process_corresponds hnet haligned hexternal hb missing captureStride hstride e.1 e.2 x
  have hrun := stream_corresponds (fun (x : State S β) s => x.components = s) _
    (fun samples blocks =>
      blocksOf flow.root .output f.period playbackStride samples = blocks)
    hstep hblocks (s := x) rfl
  refine hrun.imp fun y z hy hyz => ⟨?_, hyz.1, ?_⟩
  · have hcounter := stream_invariant (P := fun n (x : State S β) => x.blockCounter = n % 2 ^ 64)
      (fun n x e x' out hn hok => ?_) (n := 0) hx hy
    · rwa [Nat.zero_add] at hcounter
    · rw [process_blockCounter hok, hn, Nat.mod_add_mod]
  · have hall := hyz.2
    rwa [← List.forall₂_map_left_iff, List.forall₂_eq_eq_eq] at hall

omit hnet in
/-- **Nothing is written outside of the pool.** -/
theorem Prepared.process_frame (haligned : CopiesAligned f) (hexternal : ExternalFloat flow.root)
    {b : ComponentBehaviour S β} (hb : Sized flow.root f.period b) {captureStride : ℕ}
    {playbackStride : ℕ} {samples playback : ℕ → ℕ → β} {x : State S β}
    {y : State S β × (ℕ → ℕ → β)}
    (hok : f.process flow.root b samples captureStride playbackStride (x, playback) = .ok y)
    {a : ℕ} (ha : a < env.basePointer ∨ env.basePointer + f.setup.poolSize ≤ a) :
    y.1.memory a = x.memory a := by
  have hwrite : ∀ (m : ℕ → β) w bytes, Fits f w bytes → m a = x.memory a →
      (poolBuffers f).write m w bytes a = x.memory a := by
    rintro m w bytes ⟨hlen, r, hr⟩ hm
    obtain ⟨address, hpointer, -, hpool⟩ := h.realises.shared _ hr
    have hsize := le_channelSizeBytes env.period w.port.sampleType
    have haddress : f.channelAddress w = address := by
      unfold AudioSignalFlow.channelAddress
      rw [hpointer]
      rfl
    have hlower := hpool.lower
    have hupper : address + channelSizeBytes env.period w.port.sampleType ≤
        env.basePointer + f.setup.poolSize := hpool.upper
    have hbytes : bytes.length ≤ channelSizeBytes env.period w.port.sampleType := by
      rw [hlen, h.period]
      exact hsize
    rw [← hm]
    show store m (f.channelAddress w) bytes a = m a
    rw [haddress]
    refine store_of_apart m ?_ rfl
    rcases ha with ha | ha
    · exact Or.inl (by omega)
    · exact Or.inr (by omega)
  obtain ⟨result, hresult, hstate⟩ := exists_of_bind_ok hok
  obtain rfl := Except.ok.inj hstate
  have hexecuted := ok_of_mapError hresult
  rw [h.executeComponents_eq haligned] at hexecuted
  refine Buffers.run_invariant (P := fun m => m a = x.memory a) (h.fitting hb) ?_ ?_ hwrite ?_
    (ok_of_mapError hexecuted)
  · intro m r w hw
    have he := h.source_eq_some.mp hw
    refine ⟨?_, r, he⟩
    show (load m _ _).length = _
    rw [length_load, h.realises.sampleType _ he]
  · intro c hc r hr
    obtain ⟨-, s, hs⟩ := h.exists_source hc hr
    exact ⟨s, h.source_eq_some.mpr hs⟩
  · dsimp only
    rw [h.captured_eq fun ch => gather f.period captureStride (samples ch)]
    have hfits := h.fits_captures hexternal captureStride samples
    unfold blocksOf at hfits
    obtain ⟨-, hentries⟩ := List.forall₂_iff_zip.mp hfits
    exact Buffers.store_invariant hwrite (fun e he => hentries he) rfl

end Block

end AudioSignalFlow

end Visr
