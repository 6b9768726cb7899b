import Visr.Librrl.AudioLayout

/-!
# The pool of audio channels

The buffers that the initialisation of the audio connections assigns to the ports: connected channels
share a buffer, and the buffers of different send channels are apart.

## Main results

* `layoutPool_spec` — the first pass; only a routing component can be refused.
* `assignBuffers_spec` — the second pass.
* `initialiseAudioConnections_spec` — **connected channels share a buffer**, and no others.
-/

namespace Visr

open Slices

/-! ### The first pass -/

/-- The numbers of the channels of one sample type, with the plans of its receive ports. -/
structure TypedLayout where
  sampleType : AudioSampleType
  offsets : TypedOffsets
  plans : List PortPlan

/-- The entry for the second pass. -/
def TypedLayout.entry (l : TypedLayout) : AudioSampleType × TypedOffsets := (l.sampleType, l.offsets)

/-- All ports of a sample type have been treated. -/
structure Treated (connections : AudioConnectionMap) (l : TypedLayout) : Prop where
  nodup : (l.plans.map PortPlan.port).Nodup
  mem_ports : ∀ port, port ∈ l.plans.map PortPlan.port ↔
    ∃ e ∈ ofSampleType connections l.sampleType, e.2.port = port
  state : ∃ sendPorts, SendPortsOf connections l.sampleType sendPorts ∧
    TypedState l.sampleType (senderIn connections) sendPorts l.plans l.offsets

/-- The bytes that are needed for a sample type. -/
def typedPoolSize (period : ℕ) (entry : AudioSampleType × TypedOffsets) : ℕ :=
  entry.2.sendPortOffset * channelSizeBytes period entry.1

/-- The numbers of all channels. -/
structure LaidOut {root : Component} (env : AudioEnvironment root)
    (connections : AudioConnectionMap) (layouts : List TypedLayout) (layout : PoolLayout) :
    Prop where
  offsets : layout.offsets = layouts.map TypedLayout.entry
  inserted : Inserted env.addresses (senderIn connections) (layouts.flatMap TypedLayout.plans)
    layout.insertions
  treated : ∀ l ∈ layouts, Treated connections l
  total : layout.totalAudioPoolSize = (layout.offsets.map (typedPoolSize env.period)).sum

section FirstPass

variable {root : Component} {connections : AudioConnectionMap} (h : Complete root connections)
  {env : AudioEnvironment root}

include h

/-- The plans are those of receive ports with the sample type. -/
theorem Treated.of_mem {l : TypedLayout} (hl : Treated connections l) {plan : PortPlan}
    (hplan : plan ∈ l.plans) :
    (∃ e ∈ connections, e.2.port = plan.port) ∧ plan.port.sampleType = l.sampleType := by
  obtain ⟨e, he, hport⟩ := (hl.mem_ports plan.port).mp (List.mem_map_of_mem hplan)
  obtain ⟨hmem, htype⟩ := List.mem_filter.mp he
  refine ⟨⟨e, hmem, hport⟩, ?_⟩
  rw [← hport, ← h.sampleType e hmem]
  exact of_decide_eq_true htype

/-- One more sample type. -/
theorem layoutSampleType_spec (hcomposite : root.isComposite = true) {layouts : List TypedLayout}
    {layout : PoolLayout} (hlayout : LaidOut env connections layouts layout)
    {sampleType : AudioSampleType} (hnew : sampleType ∉ layouts.map TypedLayout.sampleType) :
    (∃ layout' l, layoutSampleType env connections layout sampleType = .ok layout' ∧
      l.sampleType = sampleType ∧ LaidOut env connections (layouts ++ [l]) layout') ∨
    (∃ message, layoutSampleType env connections layout sampleType =
        .error (.invalidArgument message)) ∧
      ∃ e ∈ connections, Refused root connections e.2.port := by
  have hplans : ∀ plan ∈ layouts.flatMap TypedLayout.plans,
      (∃ e ∈ connections, e.2.port = plan.port) ∧ plan.port.sampleType ≠ sampleType := by
    intro plan hplan
    obtain ⟨l, hl, hplan⟩ := List.mem_flatMap.mp hplan
    obtain ⟨hreceiver, htype⟩ := (hlayout.treated l hl).of_mem h hplan
    refine ⟨hreceiver, fun heq => hnew ?_⟩
    rw [← heq, htype]
    exact List.mem_map_of_mem hl
  unfold layoutSampleType
  rcases initialiseSampleType_spec h sampleType hcomposite hlayout.inserted
      (fun plan hplan => (hplans plan hplan).1) (fun plan hplan => (hplans plan hplan).2) with
    ⟨x, plans, sendPorts, hok, hnodup, hmem, hsend, hstate, hins⟩ | ⟨⟨message, herror⟩, hrefused⟩
  · left
    rw [hok, ok_bind]
    refine ⟨_, ⟨sampleType, x.1, plans⟩, rfl, rfl, ?_, ?_, ?_, ?_⟩
    · rw [List.map_append, hlayout.offsets]
      rfl
    · rw [List.flatMap_append, List.flatMap_singleton]
      exact hins
    · intro l hl
      rcases List.mem_append.mp hl with hl | hl
      · exact hlayout.treated l hl
      · rw [List.mem_singleton.mp hl]
        exact ⟨hnodup, hmem, sendPorts, hsend, hstate⟩
    · rw [List.map_append, List.sum_append, hlayout.total]
      simp [typedPoolSize]
  · right
    rw [herror]
    exact ⟨⟨message, rfl⟩, hrefused⟩

/-- **The first pass.**  It fails only if a routing component is refused. -/
theorem layoutPool_spec (env : AudioEnvironment root) (hcomposite : root.isComposite = true) :
    (∃ layout layouts, layoutPool env connections = .ok layout ∧
      (layouts.map TypedLayout.sampleType).Nodup ∧
      (∀ e ∈ connections, e.1.port.sampleType ∈ layouts.map TypedLayout.sampleType) ∧
      LaidOut env connections layouts layout) ∨
    (∃ message, layoutPool env connections = .error (.invalidArgument message)) ∧
      ∃ e ∈ connections, Refused root connections e.2.port := by
  have hloop : ∀ (types : List AudioSampleType) (layouts : List TypedLayout) (layout : PoolLayout),
      LaidOut env connections layouts layout →
      (layouts.map TypedLayout.sampleType ++ types).Nodup →
      (∃ layout' layouts', types.foldlM (layoutSampleType env connections) layout = .ok layout' ∧
        layouts'.map TypedLayout.sampleType = layouts.map TypedLayout.sampleType ++ types ∧
        LaidOut env connections layouts' layout') ∨
      (∃ message, types.foldlM (layoutSampleType env connections) layout =
          .error (.invalidArgument message)) ∧
        ∃ e ∈ connections, Refused root connections e.2.port := by
    intro types
    induction types with
    | nil =>
      intro layouts layout hlayout _
      exact Or.inl ⟨layout, layouts, rfl, (List.append_nil _).symm, hlayout⟩
    | cons sampleType types ih =>
      intro layouts layout hlayout hnodup
      have hnew : sampleType ∉ layouts.map TypedLayout.sampleType := fun hmem =>
        (List.nodup_append'.mp hnodup).2.2 hmem List.mem_cons_self
      rw [List.foldlM_cons]
      rcases layoutSampleType_spec h hcomposite hlayout hnew with
        ⟨layout', l, hok, rfl, hlayout'⟩ | ⟨⟨message, herror⟩, hrefused⟩
      · rw [hok, ok_bind]
        have hmap : (layouts ++ [l]).map TypedLayout.sampleType ++ types =
            layouts.map TypedLayout.sampleType ++ l.sampleType :: types := by
          rw [List.map_append, List.map_singleton, List.append_assoc, List.singleton_append]
        rw [← hmap] at hnodup
        rcases ih _ layout' hlayout' hnodup with ⟨layout'', layouts', hok', hmap', hlayout''⟩ | hfail
        · exact Or.inl ⟨layout'', layouts', hok', hmap'.trans hmap, hlayout''⟩
        · exact Or.inr hfail
      · rw [herror]
        exact Or.inr ⟨⟨message, rfl⟩, hrefused⟩
  have hempty : LaidOut env connections [] ⟨[], ⟨[], []⟩, 0⟩ := by
    refine ⟨rfl, ⟨rfl, ?_, ?_, ?_, ?_⟩, fun _ hl => (nomatch hl), rfl⟩
    · simp
    · intro k routing hk
      cases hk
    · intro hnodup
      simpa using hnodup
    · exact fun _ hplan => (nomatch hplan)
  have htypes : (usedSampleTypes root connections).Nodup := by
    unfold usedSampleTypes
    split
    · exact List.nodup_dedup _
    · exact List.nodup_dedup _
  rcases hloop (usedSampleTypes root connections) [] _ hempty htypes with
    ⟨layout, layouts, hok, hmap, hlayout⟩ | hfail
  · refine Or.inl ⟨layout, layouts, hok, ?_, fun e he => ?_, hlayout⟩
    · rw [hmap]
      exact htypes
    · rw [hmap, List.map_nil, List.nil_append, usedSampleTypes, if_pos hcomposite,
        mem_sortedSampleTypes]
      exact List.mem_map_of_mem (f := fun e : AudioChannel × AudioChannel => e.1.port.sampleType) he
  · exact Or.inr hfail

/-- The ports in the tables of a sample type. -/
structure Separated (entry : AudioSampleType × TypedOffsets) : Prop where
  total_eq : (entry.2.sendOffsets.map fun e => e.1.width).sum = entry.2.sendPortOffset
  sendNodup : (entry.2.sendOffsets.map Prod.fst).Nodup
  receiveNodup : (entry.2.receiveOffsets.map Prod.fst).Nodup
  disjoint : ∀ port ∈ entry.2.sendOffsets.map Prod.fst,
    port ∉ entry.2.receiveOffsets.map Prod.fst
  sampleType : ∀ port, port ∈ entry.2.sendOffsets.map Prod.fst ∨
    port ∈ entry.2.receiveOffsets.map Prod.fst → port.sampleType = entry.1

/-- Send ports and receive ports are different. -/
theorem LaidOut.separated {layouts : List TypedLayout} {layout : PoolLayout}
    (hlayout : LaidOut env connections layouts layout) {l : TypedLayout} (hl : l ∈ layouts) :
    Separated l.entry := by
  have htreated := hlayout.treated l hl
  obtain ⟨sendPorts, hsend, hstate⟩ := htreated.state
  have hcreated : ∀ routing ∈ routingsOf l.plans, ∃ k, Created env.addresses k routing := by
    intro routing hrouting
    obtain ⟨plan, hplan, hsome⟩ := List.mem_filterMap.mp hrouting
    obtain ⟨k, hk⟩ := List.getElem?_of_mem (l := layout.insertions.components) (a := routing) (by
      rw [hlayout.inserted.components]
      exact List.mem_filterMap.mpr ⟨plan, List.mem_flatMap.mpr ⟨l, hl, hplan⟩, hsome⟩)
    exact ⟨k, hlayout.inserted.created k routing hk⟩
  have hsendPort : ∀ port ∈ sendPorts, KnownAddress root port ∧ port.sampleType = l.sampleType ∧
      ∃ e ∈ connections, e.1.port = port := by
    intro port hport
    obtain ⟨e, he, rfl⟩ := (hsend port).mp hport
    obtain ⟨hmem, htype⟩ := List.mem_filter.mp he
    exact ⟨h.sender e hmem, of_decide_eq_true htype, e, hmem, rfl⟩
  have hreceivePort : ∀ port ∈ receivePortsOf l.plans,
      (KnownAddress root port ∧ port.sampleType = l.sampleType ∧
        ∃ e ∈ connections, e.2.port = port) ∨
      ∃ routing ∈ routingsOf l.plans, routing.input = port := by
    intro port hport
    obtain ⟨plan, hplan, hport⟩ := List.mem_flatMap.mp hport
    rcases List.mem_cons.mp hport with rfl | hport
    · obtain ⟨⟨e, he, heq⟩, htype⟩ := htreated.of_mem h hplan
      exact Or.inl ⟨heq ▸ h.receiver e he, htype, e, he, heq⟩
    · obtain ⟨routing, hrouting, rfl⟩ := Option.map_eq_some_iff.mp (Option.mem_toList.mp hport)
      exact Or.inr ⟨routing, List.mem_filterMap.mpr ⟨plan, hplan, hrouting⟩, rfl⟩
  refine ⟨hstate.packed.total_eq, hstate.packed.nodup, hstate.receiveNodup, ?_, ?_⟩
  · intro port hport hport'
    replace hport := (hstate.sendKeys port).mp hport
    replace hport' := hreceivePort port ((hstate.receiveKeys port).mp hport')
    rcases hport with hport | hport
    · obtain ⟨hknown, -, e, he, rfl⟩ := hsendPort port hport
      rcases hport' with ⟨-, -, e', he', heq⟩ | ⟨routing, hrouting, heq⟩
      · exact h.separate e he e' he' heq.symm
      · obtain ⟨k, hk⟩ := hcreated routing hrouting
        exact hk.input_ne hknown heq
    · obtain ⟨routing, hrouting, rfl⟩ := List.mem_map.mp hport
      obtain ⟨k, hk⟩ := hcreated routing hrouting
      rcases hport' with ⟨hknown, -, -⟩ | ⟨routing', hrouting', heq⟩
      · exact hk.output_ne hknown rfl
      · obtain ⟨k', hk'⟩ := hcreated routing' hrouting'
        have haddress : env.addresses.port k' .input = env.addresses.port k .output := by
          rw [← hk'.input, ← hk.output]
          exact congrArg (fun port => port.address) heq
        cases (env.addresses.port_injective _ _ _ _ haddress).2
  · rintro port (hport | hport)
    · rcases (hstate.sendKeys port).mp hport with hport | hport
      · exact (hsendPort port hport).2.1
      · obtain ⟨routing, hrouting, rfl⟩ := List.mem_map.mp hport
        exact hstate.sampleType routing hrouting
    · rcases hreceivePort port ((hstate.receiveKeys port).mp hport) with
        ⟨-, htype, -⟩ | ⟨routing, hrouting, rfl⟩
      · exact htype
      · exact hstate.sampleType routing hrouting

end FirstPass

/-! ### The second pass -/

/-- The buffer of a port with the number `n`. -/
def bufferAt (basePointer period typeOffset : ℕ) (sampleType : AudioSampleType) (n : ℕ) : Buffer :=
  ⟨basePointer + (typeOffset + channelSizeBytes period sampleType * n),
    channelSizeBytes period sampleType / sampleType.typeSize⟩

theorem typeSize_dvd_alignment (sampleType : AudioSampleType) :
    sampleType.typeSize ∣ cVectorAlignmentBytes := by
  cases sampleType <;> decide

/-- The distance of two channels is a number of samples. -/
theorem typeSize_dvd_channelSizeBytes (period : ℕ) (sampleType : AudioSampleType) :
    sampleType.typeSize ∣ channelSizeBytes period sampleType :=
  (typeSize_dvd_alignment sampleType).trans (dvd_nextAlignedSize _ (by decide))

theorem alignment_dvd_channelSizeBytes (period : ℕ) (sampleType : AudioSampleType) :
    cVectorAlignmentBytes ∣ channelSizeBytes period sampleType :=
  dvd_nextAlignedSize _ (by decide)

theorem le_channelSizeBytes (period : ℕ) (sampleType : AudioSampleType) :
    period * sampleType.typeSize ≤ channelSizeBytes period sampleType :=
  le_nextAlignedSize _ _

/-- The address of a channel of a port with the number `n`. -/
theorem channelPointer_bufferAt (basePointer period typeOffset : ℕ) (sampleType : AudioSampleType)
    (n idx : ℕ) :
    (bufferAt basePointer period typeOffset sampleType n).channelPointer sampleType idx =
      basePointer + (typeOffset + channelSizeBytes period sampleType * (n + idx)) := by
  unfold bufferAt Buffer.channelPointer
  dsimp only
  rw [Nat.mul_assoc, Nat.div_mul_cancel (typeSize_dvd_channelSizeBytes period sampleType),
    Nat.mul_add, Nat.mul_comm idx, Nat.add_assoc, Nat.add_assoc]

/-- The buffers of the ports of one table. -/
theorem foldl_setBufferConfig (buffer : ℕ → Buffer) {table : PortOffsetLookup}
    (hnodup : (table.map Prod.fst).Nodup) (buffers : BufferTable) :
    (∀ port n, (port, n) ∈ table →
      table.foldl (fun buffers e => buffers.setBufferConfig e.1 (buffer e.2)) buffers port =
        some (buffer n)) ∧
    ∀ port, port ∉ table.map Prod.fst →
      table.foldl (fun buffers e => buffers.setBufferConfig e.1 (buffer e.2)) buffers port =
        buffers port := by
  induction table generalizing buffers with
  | nil => exact ⟨fun _ _ h => (nomatch h), fun _ _ => rfl⟩
  | cons e table ih =>
    obtain ⟨he, hnodup⟩ := List.nodup_cons.mp hnodup
    obtain ⟨hmem, hother⟩ := ih hnodup (buffers.setBufferConfig e.1 (buffer e.2))
    refine ⟨fun port n hport => ?_, fun port hport => ?_⟩
    · rw [List.foldl_cons]
      rcases List.mem_cons.mp hport with heq | hport
      · subst heq
        rw [hother port he]
        exact Function.update_self _ _ _
      · exact hmem port n hport
    · rw [List.map_cons, List.mem_cons, not_or] at hport
      rw [List.foldl_cons, hother port hport.2]
      exact Function.update_of_ne hport.1 _ _

/-- The buffers of the sample types so far, with the offsets of their pools. -/
structure PoolsAssigned (basePointer period : ℕ)
    (pools : List ((AudioSampleType × TypedOffsets) × ℕ)) (x : ℕ × BufferTable) : Prop where
  packed : Packed (typedPoolSize period) pools x.1
  aligned : ∀ pool ∈ pools, cVectorAlignmentBytes ∣ pool.2
  next : cVectorAlignmentBytes ∣ x.1
  assigned : ∀ pool ∈ pools, ∀ port n,
    (port, n) ∈ pool.1.2.sendOffsets ∨ (port, n) ∈ pool.1.2.receiveOffsets →
    x.2 port = some (bufferAt basePointer period pool.2 pool.1.1 n)

/-- The pool of one more sample type. -/
theorem assignBuffers_step {basePointer period : ℕ}
    {pools : List ((AudioSampleType × TypedOffsets) × ℕ)} {x : ℕ × BufferTable}
    (h : PoolsAssigned basePointer period pools x) (hpools : ∀ pool ∈ pools, Separated pool.1)
    {entry : AudioSampleType × TypedOffsets} (hentry : Separated entry)
    (hnew : ∀ pool ∈ pools, pool.1.1 ≠ entry.1) :
    ∃ y, assignBuffers basePointer period x entry = .ok y ∧
      PoolsAssigned basePointer period ((entry, x.1) :: pools) y := by
  unfold assignBuffers
  dsimp only
  rw [if_neg (not_not.mpr
    (Nat.mod_eq_zero_of_dvd (typeSize_dvd_channelSizeBytes period entry.1)))]
  refine ⟨_, rfl, ?_, ?_, ?_, ?_⟩
  · dsimp only
    rw [hentry.total_eq]
    refine h.packed.append fun hmem => ?_
    obtain ⟨pool, hpool, heq⟩ := List.mem_map.mp hmem
    exact hnew pool hpool (congrArg Prod.fst heq)
  · exact List.forall_mem_cons.mpr ⟨h.next, h.aligned⟩
  · exact Nat.dvd_add h.next ((alignment_dvd_channelSizeBytes period entry.1).mul_left _)
  · obtain ⟨hsend, hsendOther⟩ := foldl_setBufferConfig
      (bufferAt basePointer period x.1 entry.1) hentry.sendNodup x.2
    obtain ⟨hreceive, hreceiveOther⟩ := foldl_setBufferConfig
      (bufferAt basePointer period x.1 entry.1) hentry.receiveNodup
      (entry.2.sendOffsets.foldl (fun buffers e => buffers.setBufferConfig e.1
        (bufferAt basePointer period x.1 entry.1 e.2)) x.2)
    intro pool hpool port n hport
    show entry.2.receiveOffsets.foldl (fun buffers e => buffers.setBufferConfig e.1
      (bufferAt basePointer period x.1 entry.1 e.2)) (entry.2.sendOffsets.foldl
        (fun buffers e => buffers.setBufferConfig e.1
          (bufferAt basePointer period x.1 entry.1 e.2)) x.2) port = _
    rcases List.mem_cons.mp hpool with rfl | hpool
    · rcases hport with hport | hport
      · rw [hreceiveOther port (hentry.disjoint port (List.mem_map_of_mem hport))]
        exact hsend port n hport
      · exact hreceive port n hport
    · -- the ports of other pools have another sample type
      have htype : port.sampleType = pool.1.1 := by
        refine (hpools pool hpool).sampleType port ?_
        rcases hport with hport | hport
        · exact Or.inl (List.mem_map_of_mem (f := Prod.fst) hport)
        · exact Or.inr (List.mem_map_of_mem (f := Prod.fst) hport)
      have hother : ∀ table : PortOffsetLookup,
          (∀ p ∈ table.map Prod.fst, p.sampleType = entry.1) → port ∉ table.map Prod.fst :=
        fun table htable hmem => hnew pool hpool (htype.symm.trans (htable port hmem))
      rw [hreceiveOther port (hother _ fun p hp => hentry.sampleType p (Or.inr hp)),
        hsendOther port (hother _ fun p hp => hentry.sampleType p (Or.inl hp))]
      exact h.assigned pool hpool port n hport

/-- **The second pass.** -/
theorem assignBuffers_spec (basePointer period : ℕ)
    {entries : List (AudioSampleType × TypedOffsets)}
    (hentries : ∀ entry ∈ entries, Separated entry) (hnodup : (entries.map Prod.fst).Nodup) :
    ∃ y pools, entries.foldlM (assignBuffers basePointer period) (0, fun _ => none) = .ok y ∧
      (pools.map Prod.fst).Perm entries ∧ PoolsAssigned basePointer period pools y := by
  have hloop : ∀ (rest : List (AudioSampleType × TypedOffsets)) (pools) (x : ℕ × BufferTable),
      PoolsAssigned basePointer period pools x → (∀ pool ∈ pools, Separated pool.1) →
      (∀ entry ∈ rest, Separated entry) → (rest.map Prod.fst).Nodup →
      (∀ pool ∈ pools, pool.1.1 ∉ rest.map Prod.fst) →
      ∃ y pools', rest.foldlM (assignBuffers basePointer period) x = .ok y ∧
        (pools'.map Prod.fst).Perm (rest ++ pools.map Prod.fst) ∧
        PoolsAssigned basePointer period pools' y := by
    intro rest
    induction rest with
    | nil =>
      intro pools x hx _ _ _ _
      exact ⟨x, pools, rfl, List.Perm.refl _, hx⟩
    | cons entry rest ih =>
      intro pools x hx hpools hrest hnodup hnew
      obtain ⟨hentry, hrest⟩ := List.forall_mem_cons.mp hrest
      obtain ⟨hnotMem, hnodup⟩ := List.nodup_cons.mp hnodup
      obtain ⟨y, hok, hy⟩ := assignBuffers_step hx hpools hentry fun pool hpool heq =>
        hnew pool hpool (heq ▸ List.mem_cons_self)
      obtain ⟨z, pools', hok', hperm, hz⟩ := ih _ y hy
        (List.forall_mem_cons.mpr ⟨hentry, hpools⟩) hrest hnodup
        (List.forall_mem_cons.mpr ⟨hnotMem, fun pool hpool hmem =>
          hnew pool hpool (List.mem_cons_of_mem _ hmem)⟩)
      refine ⟨z, pools', ?_, hperm.trans List.perm_middle, hz⟩
      rw [List.foldlM_cons, hok, ok_bind, hok']
  obtain ⟨y, pools, hok, hperm, hy⟩ := hloop entries [] (0, fun _ => none)
    ⟨packed_nil _, fun _ hpool => (nomatch hpool), Nat.dvd_zero _,
      fun _ hpool => (nomatch hpool)⟩ (fun _ hpool => (nomatch hpool)) hentries hnodup
    fun _ hpool => (nomatch hpool)
  refine ⟨y, pools, hok, ?_, hy⟩
  rwa [List.map_nil, List.append_nil] at hperm

/-! ### What the components find -/

/-- A buffer in the pool. -/
structure InPool {root : Component} (env : AudioEnvironment root) (poolSize : ℕ)
    (sampleType : AudioSampleType) (address : ℕ) : Prop where
  aligned : cVectorAlignmentBytes ∣ address
  lower : env.basePointer ≤ address
  upper : address + channelSizeBytes env.period sampleType ≤ env.basePointer + poolSize

/-- What has been set up for flat connections.  The plans tell which components have been inserted.
-/
structure Realises {root : Component} (env : AudioEnvironment root)
    (connections : AudioConnectionMap) (setup : AudioSetup) (plans : List PortPlan) : Prop where
  nodup : (plans.map PortPlan.port).Nodup
  mem_ports : ∀ port, port ∈ plans.map PortPlan.port ↔ ∃ e ∈ connections, e.2.port = port
  inserted : Inserted env.addresses (senderIn connections) plans
    ⟨setup.finalConnections, setup.infrastructureComponents⟩
  routing : ∀ plan ∈ plans, ∀ routing, plan.routing = some routing →
    routing.sampleType = plan.port.sampleType ∧ routing.inputIndices.length = plan.port.width
  single : setup.finalConnections.SingleSender
  sampleType : ∀ e ∈ setup.finalConnections, e.1.port.sampleType = e.2.port.sampleType
  shared : ∀ e ∈ setup.finalConnections, ∃ address,
    setup.buffers.channelPointer e.1 = some address ∧
    setup.buffers.channelPointer e.2 = some address ∧
    InPool env setup.poolSize e.1.port.sampleType address
  apart : ∀ e ∈ setup.finalConnections, ∀ e' ∈ setup.finalConnections, e.1 ≠ e'.1 →
    ∀ address address', setup.buffers.channelPointer e.1 = some address →
    setup.buffers.channelPointer e'.1 = some address' →
    Apart address (channelSizeBytes env.period e.1.port.sampleType) address'
      (channelSizeBytes env.period e'.1.port.sampleType)

/-- The numbers of the channels of a connection. -/
theorem PortPlan.Connects.located {sender : AudioChannel → AudioChannel} {offsets : TypedOffsets}
    {plan : PortPlan} (hplaced : plan.Placed sender offsets) {s r : AudioChannel}
    (h : plan.Connects sender s r) :
    ∃ offset, (r.port, offset) ∈ offsets.receiveOffsets ∧
      Located offsets.sendOffsets s (offset + r.channel) := by
  unfold PortPlan.Connects at h
  rcases hplan : plan.routing with _ | routing
  · rw [hplan] at h
    obtain ⟨ch, hch, rfl, rfl⟩ := h
    obtain ⟨offset, hmem, hlocated⟩ := hplaced.direct hplan
    exact ⟨offset, hmem, hlocated ch hch⟩
  · rw [hplan] at h
    obtain ⟨hlen, offset, minIndex, hport, hout, hin, hlocated⟩ := hplaced.routed routing hplan
    rcases h with ⟨ch, idx, hidx, rfl, rfl⟩ | ⟨ch, hch, rfl, rfl⟩
    · exact ⟨minIndex, hin, hlocated ch idx hidx⟩
    · refine ⟨offset, hport, offset, hout, ?_, rfl⟩
      show ch < routing.inputIndices.length
      rw [hlen]
      exact hch

section Addresses

variable {root : Component} {env : AudioEnvironment root}
  {pools : List ((AudioSampleType × TypedOffsets) × ℕ)} {x : ℕ × BufferTable}
  (h : PoolsAssigned env.basePointer env.period pools x) {entry : AudioSampleType × TypedOffsets}
  {typeOffset : ℕ} (hpool : (entry, typeOffset) ∈ pools) (hentry : Separated entry)

include h hpool hentry

theorem channelPointer_of_mem {c : AudioChannel} {offset : ℕ}
    (hc : (c.port, offset) ∈ entry.2.sendOffsets ∨ (c.port, offset) ∈ entry.2.receiveOffsets) :
    BufferTable.channelPointer x.2 c = some (env.basePointer +
      (typeOffset + channelSizeBytes env.period entry.1 * (offset + c.channel))) := by
  have htype : c.port.sampleType = entry.1 := by
    refine hentry.sampleType _ (hc.imp ?_ ?_)
    · exact fun hmem => List.mem_map_of_mem (f := Prod.fst) hmem
    · exact fun hmem => List.mem_map_of_mem (f := Prod.fst) hmem
  rw [BufferTable.channelPointer, h.assigned _ hpool _ _ hc, Option.map_some, htype,
    channelPointer_bufferAt]

theorem channelPointer_of_located {c : AudioChannel} {n : ℕ}
    (hc : Located entry.2.sendOffsets c n) :
    BufferTable.channelPointer x.2 c = some (env.basePointer +
      (typeOffset + channelSizeBytes env.period entry.1 * n)) := by
  obtain ⟨offset, hmem, -, rfl⟩ := hc
  exact channelPointer_of_mem h hpool hentry (Or.inl hmem)

omit hentry in
/-- The buffer of a channel is in the pool of its sample type. -/
theorem inPool_of_lt {n : ℕ} (hn : n < entry.2.sendPortOffset) :
    InPool env x.1 entry.1 (env.basePointer +
      (typeOffset + channelSizeBytes env.period entry.1 * n)) where
  aligned := Nat.dvd_add env.aligned (Nat.dvd_add (h.aligned _ hpool)
    ((alignment_dvd_channelSizeBytes env.period entry.1).mul_right n))
  lower := Nat.le_add_right _ _
  upper := by
    have hwithin : typeOffset + typedPoolSize env.period entry ≤ x.1 :=
      h.packed.within _ hpool
    have hsize : channelSizeBytes env.period entry.1 * (n + 1) ≤
        typedPoolSize env.period entry := by
      unfold typedPoolSize
      rw [Nat.mul_comm entry.2.sendPortOffset]
      exact Nat.mul_le_mul_left _ hn
    rw [Nat.mul_succ] at hsize
    omega

end Addresses

/-- The channels of different sample types are in different pools. -/
theorem apart_of_ne {root : Component} {env : AudioEnvironment root}
    {pools : List ((AudioSampleType × TypedOffsets) × ℕ)} {x : ℕ × BufferTable}
    (h : PoolsAssigned env.basePointer env.period pools x)
    {pool pool' : (AudioSampleType × TypedOffsets) × ℕ} (hpool : pool ∈ pools)
    (hpool' : pool' ∈ pools) {n n' : ℕ} (hn : n < pool.1.2.sendPortOffset)
    (hn' : n' < pool'.1.2.sendPortOffset) (hne : pool.1 ≠ pool'.1) :
    Apart (env.basePointer + (pool.2 + channelSizeBytes env.period pool.1.1 * n))
      (channelSizeBytes env.period pool.1.1)
      (env.basePointer + (pool'.2 + channelSizeBytes env.period pool'.1.1 * n'))
      (channelSizeBytes env.period pool'.1.1) := by
  have hsize : ∀ (entry : AudioSampleType × TypedOffsets) (k : ℕ), k < entry.2.sendPortOffset →
      channelSizeBytes env.period entry.1 * k + channelSizeBytes env.period entry.1 ≤
        typedPoolSize env.period entry := by
    intro entry k hk
    unfold typedPoolSize
    rw [← Nat.mul_succ, Nat.mul_comm entry.2.sendPortOffset]
    exact Nat.mul_le_mul_left _ hk
  have hleft := hsize pool.1 n hn
  have hright := hsize pool'.1 n' hn'
  rcases h.packed.disjoint pool hpool pool' hpool' hne with hle | hle
  · exact Or.inl (by omega)
  · exact Or.inr (by omega)

section Setup

variable {root : Component} {connections : AudioConnectionMap} (h : Complete root connections)
  {env : AudioEnvironment root} {layouts : List TypedLayout} {layout : PoolLayout}
  (hlayout : LaidOut env connections layouts layout)

include h hlayout

/-- The numbers of the channels of all connections. -/
theorem LaidOut.located {s r : AudioChannel}
    (hconn : (s, r) ∈ layout.insertions.connections) :
    ∃ l ∈ layouts, s.port.sampleType = l.sampleType ∧ r.port.sampleType = l.sampleType ∧
      ∃ offset, (r.port, offset) ∈ l.offsets.receiveOffsets ∧
        Located l.offsets.sendOffsets s (offset + r.channel) := by
  obtain ⟨plan, hplan, hconnects⟩ := (hlayout.inserted.connections s r).mp hconn
  obtain ⟨l, hl, hplan⟩ := List.mem_flatMap.mp hplan
  obtain ⟨sendPorts, -, hstate⟩ := (hlayout.treated l hl).state
  obtain ⟨offset, hreceive, hlocated⟩ := hconnects.located (hstate.placed plan hplan)
  have hseparated := hlayout.separated h hl
  refine ⟨l, hl, ?_, ?_, offset, hreceive, hlocated⟩
  · obtain ⟨offset', hmem, -⟩ := hlocated
    exact hseparated.sampleType _ (Or.inl (List.mem_map_of_mem (f := Prod.fst) hmem))
  · exact hseparated.sampleType _ (Or.inr (List.mem_map_of_mem (f := Prod.fst) hreceive))

/-- Each receive channel has one sender. -/
theorem LaidOut.single (hnodup : (layouts.map TypedLayout.sampleType).Nodup) :
    AudioConnectionMap.SingleSender layout.insertions.connections := by
  rintro ⟨s, r⟩ he ⟨s', r'⟩ he' heq
  dsimp only at heq
  subst heq
  obtain ⟨l, hl, -, hr, offset, hreceive, hlocated⟩ := hlayout.located h he
  obtain ⟨l', hl', -, hr', offset', hreceive', hlocated'⟩ := hlayout.located h he'
  obtain rfl := List.inj_on_of_nodup_map hnodup hl hl' (hr.symm.trans hr')
  obtain ⟨sendPorts, -, hstate⟩ := (hlayout.treated l hl).state
  obtain rfl : offset = offset' :=
    congrArg Prod.snd (List.inj_on_of_nodup_map hstate.receiveNodup hreceive hreceive' rfl)
  exact hlocated.injective hstate.packed hlocated'

/-- A routing component has as many outputs as its receive port has channels. -/
theorem LaidOut.routing {plan : PortPlan} (hplan : plan ∈ layouts.flatMap TypedLayout.plans)
    {routing : SignalRoutingInternal} (hrouting : plan.routing = some routing) :
    routing.sampleType = plan.port.sampleType ∧
      routing.inputIndices.length = plan.port.width := by
  obtain ⟨l, hl, hplan⟩ := List.mem_flatMap.mp hplan
  have htreated := hlayout.treated l hl
  obtain ⟨sendPorts, -, hstate⟩ := htreated.state
  refine ⟨?_, ((hstate.placed plan hplan).routed routing hrouting).1⟩
  rw [(htreated.of_mem h hplan).2]
  exact hstate.sampleType routing (List.mem_filterMap.mpr ⟨plan, hplan, hrouting⟩)

/-- The receive ports of all sample types. -/
theorem LaidOut.ports (hnodup : (layouts.map TypedLayout.sampleType).Nodup)
    (htypes : ∀ e ∈ connections, e.1.port.sampleType ∈ layouts.map TypedLayout.sampleType) :
    ((layouts.flatMap TypedLayout.plans).map PortPlan.port).Nodup ∧
      ∀ port, port ∈ (layouts.flatMap TypedLayout.plans).map PortPlan.port ↔
        ∃ e ∈ connections, e.2.port = port := by
  constructor
  · rw [List.map_flatMap, List.nodup_flatMap]
    refine ⟨fun l hl => (hlayout.treated l hl).nodup, ?_⟩
    refine (List.pairwise_map.mp hnodup).imp_of_mem ?_
    intro l l' hl hl' hne port hport hport'
    obtain ⟨plan, hplan, rfl⟩ := List.mem_map.mp hport
    obtain ⟨plan', hplan', heq⟩ := List.mem_map.mp hport'
    refine hne ?_
    rw [← ((hlayout.treated l hl).of_mem h hplan).2, ← heq,
      ((hlayout.treated l' hl').of_mem h hplan').2]
  · intro port
    constructor
    · intro hport
      obtain ⟨plan, hplan, rfl⟩ := List.mem_map.mp hport
      obtain ⟨l, hl, hplan⟩ := List.mem_flatMap.mp hplan
      exact ((hlayout.treated l hl).of_mem h hplan).1
    · rintro ⟨e, he, rfl⟩
      obtain ⟨l, hl, htype⟩ := List.mem_map.mp (htypes e he)
      have hmem : e ∈ ofSampleType connections l.sampleType :=
        List.mem_filter.mpr ⟨he, decide_eq_true htype.symm⟩
      obtain ⟨plan, hplan, heq⟩ := List.mem_map.mp
        (((hlayout.treated l hl).mem_ports e.2.port).mpr ⟨e, hmem, rfl⟩)
      exact List.mem_map.mpr ⟨plan, List.mem_flatMap.mpr ⟨l, hl, hplan⟩, heq⟩

end Setup

/-- **Connected channels share a buffer.**  The buffers of different send channels are apart.  The
initialisation fails only if a routing component is refused. -/
theorem initialiseAudioConnections_spec {root : Component} (hcomposite : root.isComposite = true)
    (env : AudioEnvironment root) {connections : AudioConnectionMap}
    (h : Complete root connections) :
    (∃ setup plans, initialiseAudioConnections env connections = .ok setup ∧
      Realises env connections setup plans) ∨
    (∃ message, initialiseAudioConnections env connections =
        .error (.invalidArgument message)) ∧
      ∃ e ∈ connections, Refused root connections e.2.port := by
  unfold initialiseAudioConnections
  rcases layoutPool_spec h env hcomposite with
    ⟨layout, layouts, hok, hnodup, htypes, hlayout⟩ | ⟨⟨message, herror⟩, hrefused⟩
  · left
    rw [hok, ok_bind]
    have hseparated : ∀ entry ∈ layout.offsets, Separated entry := by
      intro entry hentry
      rw [hlayout.offsets] at hentry
      obtain ⟨l, hl, rfl⟩ := List.mem_map.mp hentry
      exact hlayout.separated h hl
    have hkeys : (layout.offsets.map Prod.fst).Nodup := by
      rw [hlayout.offsets, List.map_map]
      exact hnodup
    obtain ⟨y, pools, hassign, hperm, hy⟩ :=
      assignBuffers_spec env.basePointer env.period hseparated hkeys
    have hpoolOf : ∀ l ∈ layouts, ∃ typeOffset, (l.entry, typeOffset) ∈ pools := by
      intro l hl
      have hentry : l.entry ∈ layout.offsets := by
        rw [hlayout.offsets]
        exact List.mem_map_of_mem hl
      obtain ⟨pool, hpool, heq⟩ := List.mem_map.mp (hperm.mem_iff.mpr hentry)
      exact ⟨pool.2, heq ▸ hpool⟩
    have htotal : y.1 = layout.totalAudioPoolSize := by
      rw [hlayout.total, ← (hperm.map _).sum_eq, List.map_map, ← hy.packed.total_eq]
      rfl
    rw [hassign, ok_bind, if_neg (not_not.mpr htotal)]
    obtain ⟨hportsNodup, hports⟩ := hlayout.ports h hnodup htypes
    refine ⟨_, layouts.flatMap TypedLayout.plans, rfl, hportsNodup, hports, hlayout.inserted,
      fun plan hplan routing hrouting => hlayout.routing h hplan hrouting,
      hlayout.single h hnodup, ?_, ?_, ?_⟩
    · intro e he
      obtain ⟨l, -, hs, hr, -⟩ := hlayout.located h he
      rw [hs, hr]
    · intro e he
      obtain ⟨l, hl, hs, -, offset, hreceive, hlocated⟩ := hlayout.located h he
      obtain ⟨typeOffset, hpool⟩ := hpoolOf l hl
      have hseparated := hlayout.separated h hl
      obtain ⟨sendPorts, -, hstate⟩ := (hlayout.treated l hl).state
      refine ⟨_, channelPointer_of_located hy hpool hseparated hlocated,
        channelPointer_of_mem hy hpool hseparated (Or.inr hreceive), ?_⟩
      rw [hs]
      dsimp only
      rw [← htotal]
      exact inPool_of_lt hy hpool (hlocated.lt hstate.packed)
    · intro e he e' he' hne address address' haddress haddress'
      obtain ⟨l, hl, hs, -, offset, -, hlocated⟩ := hlayout.located h he
      obtain ⟨l', hl', hs', -, offset', -, hlocated'⟩ := hlayout.located h he'
      obtain ⟨typeOffset, hpool⟩ := hpoolOf l hl
      obtain ⟨typeOffset', hpool'⟩ := hpoolOf l' hl'
      obtain ⟨sendPorts, -, hstate⟩ := (hlayout.treated l hl).state
      obtain ⟨sendPorts', -, hstate'⟩ := (hlayout.treated l' hl').state
      have heq := channelPointer_of_located hy hpool (hlayout.separated h hl) hlocated
      have heq' := channelPointer_of_located hy hpool' (hlayout.separated h hl') hlocated'
      obtain rfl := Option.some.inj (haddress.symm.trans heq)
      obtain rfl := Option.some.inj (haddress'.symm.trans heq')
      rw [hs, hs']
      by_cases hentry : l.entry = l'.entry
      · -- channels of the same sample type have different numbers
        obtain ⟨htype, hoffsets⟩ := Prod.mk.inj hentry
        obtain rfl := hy.packed.offset_unique (hentry ▸ hpool) hpool'
        rw [← hoffsets] at hlocated'
        have hnumber : offset + e.2.channel ≠ offset' + e'.2.channel := by
          intro heq
          rw [← heq] at hlocated'
          exact hne (hlocated.injective hstate.packed hlocated')
        have hapart := apart_mul (env.basePointer + typeOffset)
          (le_refl (channelSizeBytes env.period l.sampleType)) hnumber
        rw [← htype]
        unfold TypedLayout.entry
        dsimp only
        rw [← htype, ← Nat.add_assoc, ← Nat.add_assoc]
        exact hapart
      · exact apart_of_ne hy hpool hpool' (hlocated.lt hstate.packed)
          (hlocated'.lt hstate'.packed) hentry
  · right
    rw [herror]
    exact ⟨⟨message, rfl⟩, hrefused⟩

end Visr
