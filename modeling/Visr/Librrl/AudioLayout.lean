import Visr.Librrl.AudioInitialisation

/-!
# The layout of the audio connections

What the initialisation of the audio connections sets up: how each receive port gets the channels of
its senders, and where the buffers are.

## Main results

* `connectDirectly_spec`, `connectRouted_spec` — the two kinds of receive ports.
* `foldlM_connectReceivePort` — the loop over the receive ports, which fails only if one of them is
  `Refused`.
* `initialiseSampleType_spec` — the channels of one sample type.
-/

namespace Visr

open Slices

/-- Flat connections to all channels of their receive ports, each of which has exactly one sender.
-/
structure Complete (root : Component) (connections : AudioConnectionMap) : Prop where
  sendWidth : ∀ e ∈ connections, e.1.channel < e.1.port.width
  receiveWidth : ∀ e ∈ connections, e.2.channel < e.2.port.width
  count : ∀ e ∈ connections, ∀ ch < e.2.port.width,
    (connections.map Prod.snd).count ⟨e.2.port, ch⟩ = 1
  sampleType : ∀ e ∈ connections, e.1.port.sampleType = e.2.port.sampleType
  separate : ∀ e ∈ connections, ∀ e' ∈ connections, e.1.port ≠ e'.2.port
  sender : ∀ e ∈ connections,
    e.1.port.address ∈ (root.preorder.flatMap Component.audioPorts).map (·.address)
  receiver : ∀ e ∈ connections,
    e.2.port.address ∈ (root.preorder.flatMap Component.audioPorts).map (·.address)

/-- The sender of a channel. -/
def senderIn (connections : AudioConnectionMap) (c : AudioChannel) : AudioChannel :=
  (connections.senderOf c).getD c

/-- The connections of one sample type. -/
def ofSampleType (connections : AudioConnectionMap) (sampleType : AudioSampleType) :
    AudioConnectionMap :=
  connections.filter fun connection => connection.1.port.sampleType = sampleType

section Complete

variable {root : Component} {connections : AudioConnectionMap} (h : Complete root connections)

include h

theorem Complete.mem_senderIn {port : AudioPort} (hport : ∃ e ∈ connections, e.2.port = port)
    {ch : ℕ} (hch : ch < port.width) :
    (senderIn connections ⟨port, ch⟩, ⟨port, ch⟩) ∈ connections := by
  obtain ⟨e, he, rfl⟩ := hport
  have hpos : 0 < (connections.map Prod.snd).count ⟨e.2.port, ch⟩ := by
    rw [h.count e he ch hch]
    exact Nat.one_pos
  obtain ⟨⟨s, r⟩, hmem, rfl⟩ := List.mem_map.mp (List.count_pos_iff.mp hpos)
  rcases hfind : connections.findReceiveChannel ⟨e.2.port, ch⟩ with _ | e'
  · exact absurd hmem (AudioConnectionMap.findReceiveChannel_eq_none.mp hfind s)
  · obtain ⟨hmem', hr⟩ := AudioConnectionMap.findReceiveChannel_eq_some hfind
    unfold senderIn AudioConnectionMap.senderOf
    rw [hfind, Option.map_some, Option.getD_some, ← hr]
    exact hmem'

theorem Complete.senderIn_eq {s : AudioChannel} {r : AudioChannel} (hs : (s, r) ∈ connections) :
    senderIn connections r = s := by
  have hr := h.receiveWidth _ hs
  exact eq_of_count_eq_one (h.count _ hs r.channel hr)
    (h.mem_senderIn ⟨_, hs, rfl⟩ hr) hs

/-- The connections of one sample type are complete for their receive ports. -/
theorem Complete.sentBy {sampleType : AudioSampleType} {port : AudioPort}
    (hport : ∃ e ∈ ofSampleType connections sampleType, e.2.port = port) :
    SentBy (ofSampleType connections sampleType) port
      fun ch => senderIn connections ⟨port, ch⟩ := by
  obtain ⟨e, he, rfl⟩ := hport
  obtain ⟨hmem, htype⟩ := List.mem_filter.mp he
  have htype : e.1.port.sampleType = sampleType := by simpa using htype
  -- all connections to the port have the sample type of the port
  have hkeep : ∀ e' ∈ connections, e'.2.port = e.2.port → e'.1.port.sampleType = sampleType := by
    intro e' he' hport
    rw [h.sampleType e' he', hport, ← h.sampleType e hmem, htype]
  refine ⟨?_, ?_, ?_⟩
  · intro e' he' hport
    rw [← hport]
    exact h.receiveWidth e' (List.mem_filter.mp he').1
  · intro ch hch
    have hsender := h.mem_senderIn ⟨e, hmem, rfl⟩ hch
    exact List.mem_filter.mpr ⟨hsender, decide_eq_true (hkeep _ hsender rfl)⟩
  · intro ch hch
    rw [← h.count e hmem ch hch, List.count_eq_countP, List.count_eq_countP, List.countP_map,
      List.countP_map, ofSampleType, List.countP_filter]
    refine List.countP_congr fun e' he' => ?_
    simp only [Function.comp_apply, beq_iff_eq, Bool.and_eq_true, decide_eq_true_eq]
    constructor
    · exact And.left
    · intro heq
      exact ⟨heq, hkeep e' he' (by rw [heq])⟩

end Complete

/-! ### Channel numbers -/

/-- A channel has a number. -/
def Located (table : PortOffsetLookup) (c : AudioChannel) (n : ℕ) : Prop :=
  ∃ offset, (c.port, offset) ∈ table ∧ c.channel < c.port.width ∧ n = offset + c.channel

section Packed

variable {table : PortOffsetLookup} {total : ℕ} (h : Packed AudioPort.width table total)

include h

theorem Located.channelOffset {c : AudioChannel} {n : ℕ} (hc : Located table c n) :
    table.channelOffset c = some n := by
  obtain ⟨offset, hmem, -, rfl⟩ := hc
  unfold PortOffsetLookup.channelOffset
  rw [PortOffsetLookup.find_of_mem h.nodup hmem]
  rfl

/-- Different channels have different numbers. -/
theorem Located.injective {c c' : AudioChannel} {n : ℕ} (hc : Located table c n)
    (hc' : Located table c' n) : c = c' := by
  obtain ⟨port, channel⟩ := c
  obtain ⟨port', channel'⟩ := c'
  obtain ⟨offset, hmem, hlt, rfl⟩ := hc
  obtain ⟨offset', hmem', hlt', heq⟩ := hc'
  obtain ⟨hport, hchannel⟩ := h.apart hmem hmem' hlt hlt' heq
  dsimp only at hport hchannel
  rw [hport, hchannel]

theorem Located.lt {c : AudioChannel} {n : ℕ} (hc : Located table c n) : n < total := by
  obtain ⟨offset, hmem, hlt, rfl⟩ := hc
  have := h.within _ hmem
  dsimp only at this
  omega

/-- Each number is that of a channel, which is found in the table. -/
theorem exists_located {n : ℕ} (hn : n < total) :
    ∃ entry, table.find? (fun entry => n ≥ entry.2 && n < entry.2 + entry.1.width) = some entry ∧
      Located table ⟨entry.1, n - entry.2⟩ n := by
  rcases hfind : table.find? fun entry => n ≥ entry.2 && n < entry.2 + entry.1.width with _ | entry
  · obtain ⟨entry, hmem, hle, hlt⟩ := h.covered n hn
    have hnone := List.find?_eq_none.mp hfind entry hmem
    simp only [ge_iff_le, Bool.and_eq_true, decide_eq_true_eq, not_and, not_lt] at hnone
    exact absurd (hnone hle) (Nat.not_le.mpr hlt)
  · have hfound := List.find?_some hfind
    simp only [ge_iff_le, Bool.and_eq_true, decide_eq_true_eq] at hfound
    refine ⟨entry, hfind, entry.2, List.mem_of_find?_eq_some hfind, ?_, ?_⟩
    · dsimp only
      omega
    · dsimp only
      omega

end Packed

theorem Located.mono {table table' : PortOffsetLookup} (h : ∀ e ∈ table, e ∈ table')
    {c : AudioChannel} {n : ℕ} (hc : Located table c n) : Located table' c n := by
  obtain ⟨offset, hmem, hrest⟩ := hc
  exact ⟨offset, h _ hmem, hrest⟩

/-! ### Insertion into the connections -/

theorem mem_insertAll {e : AudioChannel × AudioChannel} {l : List (AudioChannel × AudioChannel)}
    {m : AudioConnectionMap} : e ∈ m.insertAll l ↔ e ∈ l ∨ e ∈ m := by
  rw [(AudioConnectionMap.insertAll_perm l m).mem_iff, List.mem_append]

theorem mem_insert {e e' : AudioChannel × AudioChannel} {m : AudioConnectionMap} :
    e ∈ m.insert e' ↔ e = e' ∨ e ∈ m := by
  rw [(AudioConnectionMap.insert_perm e' m).mem_iff, List.mem_cons]

/-! ### Inputs of a routing component -/

/-- The numbers of the senders, if all of them are known. -/
theorem sendIndicesOf_eq (sendOffsets : PortOffsetLookup) (channels : List AudioChannel)
    (number : AudioChannel → ℕ)
    (h : ∀ c ∈ channels, sendOffsets.channelOffset c = some (number c)) :
    sendIndicesOf sendOffsets (channels.map some) = .ok (channels.map number) := by
  unfold sendIndicesOf
  induction channels with
  | nil => rfl
  | cons c channels ih =>
    obtain ⟨hc, hrest⟩ := List.forall_mem_cons.mp h
    rw [List.map_cons, List.mapM_cons, Option.bind_some, hc, ih hrest]
    rfl

/-- The loop over the input channels connects those that are used. -/
theorem foldlM_connectRoutingInput {table : PortOffsetLookup} {total : ℕ}
    (h : Packed AudioPort.width table total) {minIndex : ℕ} (sendIndices : List ℕ)
    (routingIn : AudioPort) {l : List ℕ} (hl : ∀ idx ∈ l, minIndex + idx < total)
    (connections : AudioConnectionMap) :
    ∃ result, l.foldlM (connectRoutingInput table minIndex sendIndices routingIn) connections =
        .ok result ∧
      ∀ s r, (s, r) ∈ result ↔ (s, r) ∈ connections ∨
        ∃ idx ∈ l, idx ∈ sendIndices ∧ r = ⟨routingIn, idx⟩ ∧
          Located table s (minIndex + idx) := by
  induction l generalizing connections with
  | nil => exact ⟨connections, rfl, by simp⟩
  | cons idx l ih =>
    obtain ⟨hidx, hl⟩ := List.forall_mem_cons.mp hl
    obtain ⟨entry, hfind, hlocated⟩ := exists_located h hidx
    -- the channel with this number
    have hsender : ∀ s, Located table s (minIndex + idx) ↔
        s = ⟨entry.1, minIndex + idx - entry.2⟩ :=
      fun s => ⟨fun hs => hs.injective h hlocated, fun hs => hs ▸ hlocated⟩
    rw [List.foldlM_cons, connectRoutingInput, hfind]
    dsimp only
    by_cases hused : idx ∈ sendIndices
    · rw [if_pos hused, ok_bind]
      obtain ⟨result, hresult, hmem⟩ := ih hl (connections.insert
        (⟨entry.1, minIndex + idx - entry.2⟩, ⟨routingIn, idx⟩))
      refine ⟨result, hresult, fun s r => ?_⟩
      rw [hmem, mem_insert, Prod.mk.injEq]
      simp only [List.mem_cons, exists_eq_or_imp, hused, true_and, hsender]
      tauto
    · rw [if_neg hused, ok_bind]
      obtain ⟨result, hresult, hmem⟩ := ih hl connections
      refine ⟨result, hresult, fun s r => ?_⟩
      rw [hmem]
      simp only [List.mem_cons, exists_eq_or_imp, hused, false_and, false_or]

/-! ### Plans -/

/-- A receive port, with the routing component in front of it. -/
structure PortPlan where
  port : AudioPort
  routing : Option SignalRoutingInternal

namespace PortPlan

/-- The connections of a receive port, where `sender` tells the senders in the flow. -/
def Connects (sender : AudioChannel → AudioChannel) (plan : PortPlan) (s r : AudioChannel) : Prop :=
  match plan.routing with
  | none => ∃ ch < plan.port.width, r = ⟨plan.port, ch⟩ ∧ s = sender ⟨plan.port, ch⟩
  | some routing =>
    (∃ ch idx, routing.inputIndices[ch]? = some idx ∧ r = ⟨routing.input, idx⟩ ∧
      s = sender ⟨plan.port, ch⟩) ∨
    ∃ ch < plan.port.width, r = ⟨plan.port, ch⟩ ∧ s = ⟨routing.output, ch⟩

/-- Where the channels of a receive port are found. -/
structure Placed (sender : AudioChannel → AudioChannel) (offsets : TypedOffsets)
    (plan : PortPlan) : Prop where
  direct : plan.routing = none → ∃ offset, (plan.port, offset) ∈ offsets.receiveOffsets ∧
    ∀ ch < plan.port.width,
      Located offsets.sendOffsets (sender ⟨plan.port, ch⟩) (offset + ch)
  routed : ∀ routing, plan.routing = some routing →
    routing.inputIndices.length = plan.port.width ∧
    ∃ offset minIndex, (plan.port, offset) ∈ offsets.receiveOffsets ∧
      (routing.output, offset) ∈ offsets.sendOffsets ∧
      (routing.input, minIndex) ∈ offsets.receiveOffsets ∧
      ∀ ch idx, routing.inputIndices[ch]? = some idx →
        Located offsets.sendOffsets (sender ⟨plan.port, ch⟩) (minIndex + idx)

/-- Tables only grow. -/
theorem Placed.mono {sender : AudioChannel → AudioChannel} {offsets offsets' : TypedOffsets}
    {plan : PortPlan} (h : Placed sender offsets plan)
    (hsend : ∀ e ∈ offsets.sendOffsets, e ∈ offsets'.sendOffsets)
    (hreceive : ∀ e ∈ offsets.receiveOffsets, e ∈ offsets'.receiveOffsets) :
    Placed sender offsets' plan where
  direct hnone := by
    obtain ⟨offset, hmem, hlocated⟩ := h.direct hnone
    exact ⟨offset, hreceive _ hmem, fun ch hch => (hlocated ch hch).mono hsend⟩
  routed routing hsome := by
    obtain ⟨hlen, offset, minIndex, hport, hout, hin, hlocated⟩ := h.routed routing hsome
    exact ⟨hlen, offset, minIndex, hreceive _ hport, hsend _ hout, hreceive _ hin,
      fun ch idx hidx => (hlocated ch idx hidx).mono hsend⟩

end PortPlan

/-- The ports that get numbers as receive ports. -/
def receivePortsOf (plans : List PortPlan) : List AudioPort :=
  plans.flatMap fun plan => plan.port :: (plan.routing.map SignalRoutingInternal.input).toList

/-- The routing components. -/
def routingsOf (plans : List PortPlan) : List SignalRoutingInternal :=
  plans.filterMap PortPlan.routing

/-- The numbers of one sample type, after some receive ports. -/
structure TypedState (sampleType : AudioSampleType) (sender : AudioChannel → AudioChannel)
    (sendPorts : List AudioPort) (plans : List PortPlan) (offsets : TypedOffsets) : Prop where
  packed : Packed AudioPort.width offsets.sendOffsets offsets.sendPortOffset
  sendKeys : ∀ port, port ∈ offsets.sendOffsets.map Prod.fst ↔
    port ∈ sendPorts ∨ port ∈ (routingsOf plans).map SignalRoutingInternal.output
  receiveNodup : (offsets.receiveOffsets.map Prod.fst).Nodup
  receiveKeys : ∀ port, port ∈ offsets.receiveOffsets.map Prod.fst ↔ port ∈ receivePortsOf plans
  placed : ∀ plan ∈ plans, plan.Placed sender offsets
  sampleType : ∀ routing ∈ routingsOf plans, routing.sampleType = sampleType

/-- What is known of a routing component that has been created. -/
structure Created {root : Component} (addresses : ObjectAddresses root) (k : ℕ)
    (routing : SignalRoutingInternal) : Prop where
  address : routing.self.address = addresses.component k
  input : routing.inputAddress = addresses.port k .input
  output : routing.outputAddress = addresses.port k .output
  isComposite : routing.self.isComposite = false
  isTopLevel : routing.self.isTopLevel = false
  supported : SignalRoutingInternal.supported routing.sampleType = true

/-- The connections and components after some receive ports. -/
structure Inserted {root : Component} (addresses : ObjectAddresses root)
    (sender : AudioChannel → AudioChannel) (plans : List PortPlan) (insertions : AudioInsertions) :
    Prop where
  components : insertions.components = routingsOf plans
  connections : ∀ s r, (s, r) ∈ insertions.connections ↔
    ∃ plan ∈ plans, plan.Connects sender s r
  created : ∀ k routing, insertions.components[k]? = some routing → Created addresses k routing
  names : (root.components.map (·.self.name)).Nodup →
    (root.components.map (·.self.name) ++ insertions.components.map (·.self.name)).Nodup
  named : ∀ plan ∈ plans, ∀ routing, plan.routing = some routing →
    routing.self.name = inputRoutingName plan.port

theorem routingsOf_append (plans plans' : List PortPlan) :
    routingsOf (plans ++ plans') = routingsOf plans ++ routingsOf plans' :=
  List.filterMap_append

theorem receivePortsOf_append (plans plans' : List PortPlan) :
    receivePortsOf (plans ++ plans') = receivePortsOf plans ++ receivePortsOf plans' :=
  List.flatMap_append

/-! ### Tables -/

theorem addSendPort_packed {offsets : TypedOffsets}
    (h : Packed AudioPort.width offsets.sendOffsets offsets.sendPortOffset) {port : AudioPort}
    (hport : port ∉ offsets.sendOffsets.map Prod.fst) :
    Packed AudioPort.width (offsets.addSendPort port).sendOffsets
      (offsets.addSendPort port).sendPortOffset :=
  (h.append hport).of_perm (PortOffsetLookup.insert_perm hport _)

/-- The send ports of the flow. -/
theorem foldl_addSendPort {ports : List AudioPort} (hnodup : ports.Nodup)
    (offsets : TypedOffsets)
    (h : Packed AudioPort.width offsets.sendOffsets offsets.sendPortOffset)
    (hnew : ∀ port ∈ ports, port ∉ offsets.sendOffsets.map Prod.fst) :
    Packed AudioPort.width (ports.foldl TypedOffsets.addSendPort offsets).sendOffsets
        (ports.foldl TypedOffsets.addSendPort offsets).sendPortOffset ∧
      (∀ port, port ∈ (ports.foldl TypedOffsets.addSendPort offsets).sendOffsets.map Prod.fst ↔
        port ∈ ports ∨ port ∈ offsets.sendOffsets.map Prod.fst) ∧
      (ports.foldl TypedOffsets.addSendPort offsets).receiveOffsets = offsets.receiveOffsets := by
  induction ports generalizing offsets with
  | nil => exact ⟨h, by simp, rfl⟩
  | cons port ports ih =>
    obtain ⟨hport, hnodup⟩ := List.nodup_cons.mp hnodup
    obtain ⟨hnewPort, hnew⟩ := List.forall_mem_cons.mp hnew
    have hperm := PortOffsetLookup.insert_perm hnewPort offsets.sendPortOffset
    have hkeys : ∀ p, p ∈ (offsets.addSendPort port).sendOffsets.map Prod.fst ↔
        p = port ∨ p ∈ offsets.sendOffsets.map Prod.fst := by
      intro p
      rw [TypedOffsets.addSendPort, (hperm.map Prod.fst).mem_iff, List.map_cons, List.mem_cons]
    obtain ⟨hpacked, hmem, hreceive⟩ := ih hnodup _ (addSendPort_packed h hnewPort) (by
      intro p hp hmem
      rcases (hkeys p).mp hmem with rfl | hmem
      · exact hport hp
      · exact hnew p hp hmem)
    refine ⟨hpacked, fun p => ?_, hreceive⟩
    rw [List.foldl_cons, hmem, hkeys, List.mem_cons]
    tauto

/-- A new entry of a table of receive ports. -/
theorem addReceivePort_spec {offsets : TypedOffsets} {port : AudioPort}
    (hport : port ∉ offsets.receiveOffsets.map Prod.fst) (offset : ℕ) :
    (offsets.addReceivePort port offset).receiveOffsets.Perm
      ((port, offset) :: offsets.receiveOffsets) :=
  PortOffsetLookup.insert_perm hport offset

/-! ### One receive port -/

section Step

variable {root : Component} {env : AudioEnvironment root} {sampleType : AudioSampleType}
  {sender : AudioChannel → AudioChannel} {sendPorts : List AudioPort} {plans all : List PortPlan}
  {offsets : TypedOffsets} {insertions : AudioInsertions} {port : AudioPort}

/-- The plan of one more receive port. -/
theorem TypedState.append (h : TypedState sampleType sender sendPorts plans offsets)
    (plan : PortPlan) (entries : PortOffsetLookup) {offsets' : TypedOffsets}
    (hpacked : Packed AudioPort.width offsets'.sendOffsets offsets'.sendPortOffset)
    (hsend : offsets'.sendOffsets.Perm (((plan.routing.map fun routing =>
      (routing.output, offsets.sendPortOffset)).toList) ++ offsets.sendOffsets))
    (hreceive : offsets'.receiveOffsets.Perm (entries ++ offsets.receiveOffsets))
    (hentries : (entries.map Prod.fst).Perm (receivePortsOf [plan]))
    (hnew : ∀ p ∈ receivePortsOf [plan], p ∉ offsets.receiveOffsets.map Prod.fst)
    (hnodup : (receivePortsOf [plan]).Nodup) (hplaced : plan.Placed sender offsets')
    (htype : ∀ routing, plan.routing = some routing → routing.sampleType = sampleType) :
    TypedState sampleType sender sendPorts (plans ++ [plan]) offsets' where
  packed := hpacked
  sendKeys p := by
    have hrouting : (routingsOf [plan]).map SignalRoutingInternal.output =
        ((plan.routing.map fun routing => (routing.output, offsets.sendPortOffset)).toList).map
          Prod.fst := by
      unfold routingsOf
      cases hplan : plan.routing with
      | none => simp [hplan]
      | some routing => simp [hplan]
    rw [(hsend.map Prod.fst).mem_iff, List.map_append, List.mem_append, h.sendKeys,
      routingsOf_append, List.map_append, List.mem_append, hrouting]
    tauto
  receiveNodup := by
    rw [(hreceive.map Prod.fst).nodup_iff, List.map_append, List.nodup_append']
    refine ⟨hentries.nodup_iff.mpr hnodup, h.receiveNodup, fun p hp hp' => ?_⟩
    exact hnew p (hentries.mem_iff.mp hp) hp'
  receiveKeys p := by
    rw [(hreceive.map Prod.fst).mem_iff, List.map_append, List.mem_append, hentries.mem_iff,
      h.receiveKeys, receivePortsOf_append, List.mem_append]
    exact or_comm
  placed := by
    intro plan' hplan'
    rcases List.mem_append.mp hplan' with hplan' | hplan'
    · exact (h.placed plan' hplan').mono
        (fun e he => hsend.mem_iff.mpr (List.mem_append_right _ he))
        (fun e he => hreceive.mem_iff.mpr (List.mem_append_right _ he))
    · rw [List.mem_singleton.mp hplan']
      exact hplaced
  sampleType := by
    intro routing hrouting
    rw [routingsOf_append, List.mem_append] at hrouting
    rcases hrouting with hrouting | hrouting
    · exact h.sampleType routing hrouting
    · obtain ⟨plan', hplan', hsome⟩ := List.mem_filterMap.mp hrouting
      rw [List.mem_singleton.mp hplan'] at hsome
      exact htype routing hsome

/-- A receive port whose senders have consecutive numbers. -/
theorem connectDirectly_spec (h : TypedState sampleType sender sendPorts plans offsets)
    (hins : Inserted env.addresses sender all insertions) (hpos : 0 < port.width)
    (hnew : port ∉ offsets.receiveOffsets.map Prod.fst) (offset : ℕ)
    (hlocated : ∀ ch < port.width,
      Located offsets.sendOffsets (sender ⟨port, ch⟩) (offset + ch))
    (localConnections : AudioConnectionMap)
    (hlocal : ∀ s r, (s, r) ∈ localConnections ↔
      ∃ ch < port.width, r = ⟨port, ch⟩ ∧ s = sender ⟨port, ch⟩) :
    ∃ x, connectDirectly ((List.range port.width).map fun ch => some (sender ⟨port, ch⟩))
        localConnections port (offsets, insertions) = .ok x ∧
      TypedState sampleType sender sendPorts (plans ++ [⟨port, none⟩]) x.1 ∧
      Inserted env.addresses sender (all ++ [⟨port, none⟩]) x.2 := by
  have hfirst : ((List.range port.width).map fun ch => some (sender ⟨port, ch⟩)).head?.join.bind
      offsets.sendOffsets.channelOffset = some offset := by
    obtain ⟨w, hw⟩ := Nat.exists_eq_add_one_of_ne_zero (Nat.pos_iff_ne_zero.mp hpos)
    have hzero := (hlocated 0 hpos).channelOffset h.packed
    rw [hw, List.range_succ_eq_map]
    simpa using hzero
  have hperm := addReceivePort_spec hnew offset
  unfold connectDirectly
  rw [hfirst]
  refine ⟨_, rfl, ?_, ?_⟩
  · refine h.append _ [(port, offset)] h.packed (List.Perm.refl _) hperm
      (List.Perm.refl _) ?_ (List.nodup_singleton port) ⟨?_, fun _ hsome => nomatch hsome⟩
      fun _ hsome => nomatch hsome
    · intro p hp
      rw [List.mem_singleton.mp hp]
      exact hnew
    · exact fun _ => ⟨offset, hperm.mem_iff.mpr List.mem_cons_self, hlocated⟩
  · refine ⟨?_, fun s r => ?_, hins.created, hins.names, ?_⟩
    · rw [routingsOf_append, hins.components]
      exact (List.append_nil _).symm
    · rw [mem_insertAll, hlocal, hins.connections]
      simp only [List.mem_append, List.mem_singleton, or_and_right, exists_or, exists_eq_left]
      exact or_comm
    · intro plan hplan routing hsome
      rcases List.mem_append.mp hplan with hplan | hplan
      · exact hins.named plan hplan routing hsome
      · rw [List.mem_singleton.mp hplan] at hsome
        cases hsome

/-- There is no routing component for the sample type, or a component has its name. -/
def CannotRoute (sampleType : AudioSampleType) (names : List String) (port : AudioPort) : Prop :=
  SignalRoutingInternal.supported sampleType = false ∨ inputRoutingName port ∈ names

/-- The creation of a routing component. -/
theorem createSignalRoutingComponent_cases (addresses : ObjectAddresses root) (k : ℕ)
    (names : List String) (sampleType : AudioSampleType) (name : String) {inputWidth : ℕ} {signalIndices : List ℕ}
    (h : ∀ i ∈ signalIndices, i < inputWidth) :
    (∃ routing, createSignalRoutingComponent addresses k names sampleType name inputWidth
        signalIndices = .ok routing ∧ Created addresses k routing ∧
        routing.sampleType = sampleType ∧ routing.inputIndices = signalIndices ∧
        routing.self.name = name ∧ name ∉ names) ∨
      (∃ message, createSignalRoutingComponent addresses k names sampleType name inputWidth
        signalIndices = .error (.invalidArgument message)) ∧
        (SignalRoutingInternal.supported sampleType = false ∨ name ∈ names) := by
  unfold createSignalRoutingComponent
  by_cases hsupported : SignalRoutingInternal.supported sampleType = false
  · rw [if_pos hsupported]
    exact Or.inr ⟨⟨_, rfl⟩, Or.inl hsupported⟩
  · rw [if_neg hsupported]
    by_cases hname : name ∈ names
    · rw [if_pos hname]
      exact Or.inr ⟨⟨_, rfl⟩, Or.inr hname⟩
    · rw [if_neg hname, dif_pos h]
      have hsupported : SignalRoutingInternal.supported sampleType = true := by
        simpa using hsupported
      exact Or.inl ⟨_, rfl, ⟨rfl, rfl, rfl, rfl, rfl, hsupported⟩, rfl, rfl, rfl, hname⟩

/-- The addresses of the ports of a flow, of which none is that of a routing component. -/
def KnownAddress (root : Component) (port : AudioPort) : Prop :=
  port.address ∈ (root.preorder.flatMap Component.audioPorts).map (·.address)

theorem Created.input_ne {addresses : ObjectAddresses root} {k : ℕ}
    {routing : SignalRoutingInternal} (h : Created addresses k routing)
    (hport : KnownAddress root port) : routing.input ≠ port := by
  rintro rfl
  refine addresses.port_fresh k .input ?_
  rw [← h.input]
  exact hport

theorem Created.output_ne {addresses : ObjectAddresses root} {k : ℕ}
    {routing : SignalRoutingInternal} (h : Created addresses k routing)
    (hport : KnownAddress root port) : routing.output ≠ port := by
  rintro rfl
  refine addresses.port_fresh k .output ?_
  rw [← h.output]
  exact hport

theorem Created.eq_of_input {addresses : ObjectAddresses root} {k k' : ℕ}
    {routing routing' : SignalRoutingInternal} (h : Created addresses k routing)
    (h' : Created addresses k' routing') (heq : routing.input = routing'.input) : k = k' := by
  refine (addresses.port_injective k .input k' .input ?_).1
  rw [← h.input, ← h'.input]
  exact congrArg (fun port => port.address) heq

theorem Created.eq_of_output {addresses : ObjectAddresses root} {k k' : ℕ}
    {routing routing' : SignalRoutingInternal} (h : Created addresses k routing)
    (h' : Created addresses k' routing') (heq : routing.output = routing'.output) : k = k' := by
  refine (addresses.port_injective k .output k' .output ?_).1
  rw [← h.output, ← h'.output]
  exact congrArg (fun port => port.address) heq

/-- The ports that have been treated are known. -/
structure KnownPorts (root : Component) (sendPorts : List AudioPort) (plans : List PortPlan)
    (insertions : AudioInsertions) : Prop where
  send : ∀ p ∈ sendPorts, KnownAddress root p
  receive : ∀ plan ∈ plans, KnownAddress root plan.port
  routings : ∀ routing ∈ routingsOf plans, routing ∈ insertions.components

/-- The ports of a new routing component do not have numbers. -/
theorem Created.fresh {routing : SignalRoutingInternal}
    (hcreated : Created env.addresses insertions.components.length routing)
    (h : TypedState sampleType sender sendPorts plans offsets)
    (hins : Inserted env.addresses sender all insertions)
    (hknown : KnownPorts root sendPorts plans insertions) :
    routing.input ∉ offsets.receiveOffsets.map Prod.fst ∧
      routing.output ∉ offsets.sendOffsets.map Prod.fst := by
  have hother : ∀ routing' ∈ routingsOf plans, ∃ k < insertions.components.length,
      Created env.addresses k routing' := by
    intro routing' hrouting'
    obtain ⟨k, hk⟩ := List.getElem?_of_mem (hknown.routings routing' hrouting')
    exact ⟨k, (List.getElem?_eq_some_iff.mp hk).1, hins.created k routing' hk⟩
  constructor
  · rw [h.receiveKeys]
    intro hmem
    obtain ⟨plan, hplan, hmem⟩ := List.mem_flatMap.mp hmem
    rcases List.mem_cons.mp hmem with heq | hmem
    · exact hcreated.input_ne (hknown.receive plan hplan) heq
    · obtain ⟨routing', hrouting', heq⟩ := Option.map_eq_some_iff.mp (Option.mem_toList.mp hmem)
      obtain ⟨k, hk, hcreated'⟩ := hother routing' (List.mem_filterMap.mpr ⟨plan, hplan, hrouting'⟩)
      exact absurd (hcreated'.eq_of_input hcreated heq) (Nat.ne_of_lt hk)
  · rw [h.sendKeys]
    rintro (hmem | hmem)
    · exact hcreated.output_ne (hknown.send _ hmem) rfl
    · obtain ⟨routing', hrouting', heq⟩ := List.mem_map.mp hmem
      obtain ⟨k, hk, hcreated'⟩ := hother routing' hrouting'
      exact absurd (hcreated'.eq_of_output hcreated heq) (Nat.ne_of_lt hk)

/-- The number of a channel that has one. -/
def numberIn (table : PortOffsetLookup) (c : AudioChannel) : ℕ := (table.channelOffset c).getD 0

theorem Located.numberIn_eq {table : PortOffsetLookup} {total : ℕ}
    (h : Packed AudioPort.width table total) {c : AudioChannel} {n : ℕ} (hc : Located table c n) :
    numberIn table c = n := by
  rw [numberIn, hc.channelOffset h, Option.getD_some]

/-- The numbers of the senders, the smallest one of which is the first input of the routing
component. -/
structure InputNumbers (width : ℕ) (number : ℕ → ℕ) (minIndex : ℕ) (sendIndices : List ℕ)
    (inputWidth : ℕ) : Prop where
  length : sendIndices.length = width
  get : ∀ ch idx, sendIndices[ch]? = some idx → ch < width ∧ number ch = minIndex + idx
  lt : ∀ idx ∈ sendIndices, idx < inputWidth
  exists_le : ∀ idx < inputWidth, ∃ ch < width, minIndex + idx ≤ number ch

theorem inputNumbers {width : ℕ} (hpos : 0 < width) (number : ℕ → ℕ) :
    InputNumbers width number (((List.range width).map number).min?.getD 0)
      (((List.range width).map number).map
        (· - ((List.range width).map number).min?.getD 0))
      ((((List.range width).map number).map
        (· - ((List.range width).map number).min?.getD 0)).max?.getD 0 + 1) := by
  let numbers := (List.range width).map number
  let minIndex := numbers.min?.getD 0
  let sendIndices := numbers.map (· - minIndex)
  show InputNumbers width number minIndex sendIndices (sendIndices.max?.getD 0 + 1)
  have hmin : ∀ ch < width, minIndex ≤ number ch := fun ch hch =>
    List.min?_getD_le_of_mem (List.mem_map_of_mem (List.mem_range.mpr hch))
  have hlen : sendIndices.length = width := by simp [sendIndices, numbers]
  have hget : ∀ ch idx, sendIndices[ch]? = some idx →
      ch < width ∧ number ch = minIndex + idx := by
    intro ch idx hidx
    have hch : ch < width := by
      rw [← hlen]
      exact (List.getElem?_eq_some_iff.mp hidx).1
    refine ⟨hch, ?_⟩
    simp only [sendIndices, numbers, List.getElem?_map, List.getElem?_range hch, Option.map_some,
      Option.some.injEq] at hidx
    have := hmin ch hch
    omega
  have hmax : ∀ idx ∈ sendIndices, idx ≤ sendIndices.max?.getD 0 := fun idx hidx =>
    List.le_max?_getD_of_mem hidx
  refine ⟨hlen, hget, fun idx hidx => Nat.lt_succ_of_le (hmax idx hidx), fun idx hidx => ?_⟩
  -- the largest input is used
  obtain ⟨largest, hlargest⟩ : ∃ largest, sendIndices.max? = some largest := by
    rcases hnone : sendIndices.max? with _ | largest
    · rw [List.max?_eq_none_iff] at hnone
      rw [hnone] at hlen
      exact absurd hlen (Nat.ne_of_lt hpos)
    · exact ⟨largest, rfl⟩
  obtain ⟨ch, hch⟩ := List.getElem?_of_mem (List.max?_mem hlargest)
  obtain ⟨hlt, hnumber⟩ := hget ch largest hch
  rw [hlargest, Option.getD_some] at hidx
  exact ⟨ch, hlt, by omega⟩

/-- The numbers with a routing component in front of a port. -/
theorem TypedState.append_routed (h : TypedState sampleType sender sendPorts plans offsets)
    {routing : SignalRoutingInternal} {number : ℕ → ℕ} {minIndex inputWidth : ℕ}
    (hinputs : InputNumbers port.width number minIndex routing.inputIndices inputWidth)
    (hnumber : ∀ ch < port.width,
      Located offsets.sendOffsets (sender ⟨port, ch⟩) (number ch))
    (hnew : port ∉ offsets.receiveOffsets.map Prod.fst)
    (hinFresh : routing.input ∉ offsets.receiveOffsets.map Prod.fst)
    (houtFresh : routing.output ∉ offsets.sendOffsets.map Prod.fst)
    (hne : routing.input ≠ port) (htype : routing.sampleType = sampleType) :
    TypedState sampleType sender sendPorts (plans ++ [⟨port, some routing⟩])
      (((offsets.addReceivePort routing.input minIndex).addReceivePort port
        offsets.sendPortOffset).addSendPort routing.output) := by
  have hperm₁ := addReceivePort_spec hinFresh minIndex
  have hnew' : port ∉ (offsets.addReceivePort routing.input minIndex).receiveOffsets.map
      Prod.fst := by
    rw [(hperm₁.map Prod.fst).mem_iff, List.map_cons, List.mem_cons, not_or]
    exact ⟨hne.symm, hnew⟩
  have hperm₂ := (addReceivePort_spec hnew' offsets.sendPortOffset).trans (hperm₁.cons _)
  have hpermSend := PortOffsetLookup.insert_perm houtFresh offsets.sendPortOffset
  refine h.append ⟨port, some routing⟩
    [(port, offsets.sendPortOffset), (routing.input, minIndex)]
    (addSendPort_packed h.packed houtFresh) hpermSend hperm₂ (List.Perm.refl _) ?_ ?_ ?_ ?_
  · intro p hp
    rcases List.mem_cons.mp hp with rfl | hp
    · exact hnew
    · rw [List.mem_singleton.mp hp]
      exact hinFresh
  · exact List.nodup_cons.mpr ⟨fun hp => hne (List.mem_singleton.mp hp).symm,
      List.nodup_singleton _⟩
  · refine ⟨fun hnone => (nomatch hnone), fun routing' hsome => ?_⟩
    obtain rfl := Option.some.inj hsome
    refine ⟨hinputs.length, offsets.sendPortOffset, minIndex,
      hperm₂.mem_iff.mpr List.mem_cons_self, hpermSend.mem_iff.mpr List.mem_cons_self,
      hperm₂.mem_iff.mpr (List.mem_cons_of_mem _ List.mem_cons_self), fun ch idx hidx => ?_⟩
    obtain ⟨hch, hn⟩ := hinputs.get ch idx hidx
    rw [← hn]
    exact (hnumber ch hch).mono fun e he => hpermSend.mem_iff.mpr (List.mem_cons_of_mem _ he)
  · rintro routing' hsome
    obtain rfl := Option.some.inj hsome
    exact htype

/-- The connections with a routing component in front of a port. -/
theorem Inserted.append_routed (hins : Inserted env.addresses sender all insertions)
    {routing : SignalRoutingInternal} {connections : AudioConnectionMap}
    (hmem : ∀ s r, (s, r) ∈ connections ↔ (s, r) ∈ insertions.connections ∨
      ∃ ch idx, routing.inputIndices[ch]? = some idx ∧ r = ⟨routing.input, idx⟩ ∧
        s = sender ⟨port, ch⟩)
    (hcreated : Created env.addresses insertions.components.length routing)
    (hname : routing.self.name = inputRoutingName port)
    (hnew : inputRoutingName port ∉ root.components.map (·.self.name) ++
      insertions.components.map (·.self.name)) :
    Inserted env.addresses sender (all ++ [⟨port, some routing⟩])
      ⟨connections.insertAll (routingOutputs routing.output port),
        insertions.components ++ [routing]⟩ where
  components := by
    rw [routingsOf_append, hins.components]
    rfl
  connections s r := by
    have houtputs : (s, r) ∈ routingOutputs routing.output port ↔
        ∃ ch < port.width, r = ⟨port, ch⟩ ∧ s = ⟨routing.output, ch⟩ := by
      simp only [routingOutputs, List.mem_map, List.mem_range, Prod.mk.injEq]
      exact exists_congr fun ch => and_congr_right fun _ =>
        and_comm.trans (and_congr eq_comm eq_comm)
    rw [mem_insertAll, hmem, hins.connections, houtputs]
    simp only [List.mem_append, List.mem_singleton, or_and_right, exists_or, exists_eq_left]
    rw [or_comm, or_assoc]
    rfl
  created k routing' hk := by
    rw [List.getElem?_append] at hk
    split at hk
    next hlt => exact hins.created k routing' hk
    next hge =>
      rw [List.getElem?_singleton] at hk
      split at hk
      next hzero =>
        obtain rfl := Option.some.inj hk
        obtain rfl : k = insertions.components.length := by omega
        exact hcreated
      next => cases hk
  names hnodup := by
    rw [List.map_append, ← List.append_assoc, List.nodup_append']
    refine ⟨hins.names hnodup, List.nodup_singleton _, ?_⟩
    intro name hmem hname'
    rw [List.map_singleton, List.mem_singleton, hname] at hname'
    exact hnew (hname' ▸ hmem)
  named plan hplan routing' hsome := by
    rcases List.mem_append.mp hplan with hplan | hplan
    · exact hins.named plan hplan routing' hsome
    · rw [List.mem_singleton.mp hplan] at hsome ⊢
      rw [← Option.some.inj hsome, hname]

/-- A receive port with a routing component in front of it. -/
theorem connectRouted_spec (h : TypedState sampleType sender sendPorts plans offsets)
    (hins : Inserted env.addresses sender all insertions)
    (hknown : KnownPorts root sendPorts plans insertions) (hport : KnownAddress root port)
    (hpos : 0 < port.width) (hnew : port ∉ offsets.receiveOffsets.map Prod.fst)
    (hlocated : ∀ ch < port.width, ∃ n, Located offsets.sendOffsets (sender ⟨port, ch⟩) n) :
    (∃ x routing, connectRouted env sampleType
        ((List.range port.width).map fun ch => some (sender ⟨port, ch⟩)) port
        (offsets, insertions) = .ok x ∧
      TypedState sampleType sender sendPorts (plans ++ [⟨port, some routing⟩]) x.1 ∧
      Inserted env.addresses sender (all ++ [⟨port, some routing⟩]) x.2) ∨
    (∃ message, connectRouted env sampleType
        ((List.range port.width).map fun ch => some (sender ⟨port, ch⟩)) port
        (offsets, insertions) = .error (.invalidArgument message)) ∧
      CannotRoute sampleType (root.components.map (·.self.name) ++
        insertions.components.map (·.self.name)) port := by
  let table := offsets.sendOffsets
  let number : ℕ → ℕ := fun ch => numberIn table (sender ⟨port, ch⟩)
  have hnumber : ∀ ch < port.width, Located table (sender ⟨port, ch⟩) (number ch) := by
    intro ch hch
    obtain ⟨n, hn⟩ := hlocated ch hch
    show Located table _ (numberIn table _)
    rw [hn.numberIn_eq h.packed]
    exact hn
  have hindices : sendIndicesOf table
      ((List.range port.width).map fun ch => some (sender ⟨port, ch⟩)) =
        .ok ((List.range port.width).map number) := by
    have heq := sendIndicesOf_eq table
      ((List.range port.width).map fun ch => sender ⟨port, ch⟩) (numberIn table) (by
        intro c hc
        obtain ⟨ch, hch, rfl⟩ := List.mem_map.mp hc
        exact (hnumber ch (List.mem_range.mp hch)).channelOffset h.packed)
    rw [List.map_map, List.map_map] at heq
    exact heq
  have hinputs := inputNumbers hpos number
  unfold connectRouted
  show (∃ x routing, (sendIndicesOf table _ >>= _) = _ ∧ _) ∨ (∃ message, (_ >>= _) = _) ∧ _
  rw [hindices, ok_bind]
  dsimp only
  generalize ((List.range port.width).map number).min?.getD 0 = minIndex at hinputs ⊢
  generalize ((List.range port.width).map number).map (· - minIndex) = sendIndices at hinputs ⊢
  generalize sendIndices.max?.getD 0 + 1 = inputWidth at hinputs ⊢
  rcases createSignalRoutingComponent_cases env.addresses
      insertions.components.length (root.components.map (·.self.name) ++
        insertions.components.map (·.self.name))
      sampleType (inputRoutingName port) hinputs.lt with
    ⟨routing, hok, hcreated, htype, rfl, hname, hnameNew⟩ | ⟨⟨message, herror⟩, hcannot⟩
  · left
    have hrange : ∀ idx ∈ List.range inputWidth, minIndex + idx < offsets.sendPortOffset := by
      intro idx hidx
      obtain ⟨ch, hch, hle⟩ := hinputs.exists_le idx (List.mem_range.mp hidx)
      exact Nat.lt_of_le_of_lt hle ((hnumber ch hch).lt h.packed)
    obtain ⟨connections, hfold, hmem⟩ := foldlM_connectRoutingInput h.packed
      routing.inputIndices routing.input hrange insertions.connections
    obtain ⟨hinFresh, houtFresh⟩ := hcreated.fresh h hins hknown
    have hrouted : ∀ s r : AudioChannel, (∃ idx ∈ List.range inputWidth, idx ∈ routing.inputIndices ∧
        r = ⟨routing.input, idx⟩ ∧ Located table s (minIndex + idx)) ↔
        ∃ ch idx, routing.inputIndices[ch]? = some idx ∧ r = ⟨routing.input, idx⟩ ∧
          s = sender ⟨port, ch⟩ := by
      intro s r
      constructor
      · rintro ⟨idx, -, hidx, rfl, hs⟩
        obtain ⟨ch, hget⟩ := List.getElem?_of_mem hidx
        obtain ⟨hch, hn⟩ := hinputs.get ch idx hget
        refine ⟨ch, idx, hget, rfl, Located.injective h.packed hs ?_⟩
        rw [← hn]
        exact hnumber ch hch
      · rintro ⟨ch, idx, hget, rfl, rfl⟩
        obtain ⟨hch, hn⟩ := hinputs.get ch idx hget
        have hidx := List.mem_of_getElem? hget
        refine ⟨idx, List.mem_range.mpr (hinputs.lt idx hidx), hidx, rfl, ?_⟩
        rw [← hn]
        exact hnumber ch hch
    have hstate := h.append_routed hinputs hnumber hnew hinFresh houtFresh
      (hcreated.input_ne hport) htype
    have hinserted := hins.append_routed
      (fun s r => (hmem s r).trans (or_congr_right (hrouted s r))) hcreated hname hnameNew
    refine ⟨(_, _), routing, ?_, hstate, hinserted⟩
    rw [hok, ok_bind, hfold, ok_bind]
    rfl
  · right
    rw [herror]
    exact ⟨⟨message, rfl⟩, hcannot⟩

/-- The ports that have been treated are known. -/
theorem Inserted.knownPorts (hins : Inserted env.addresses sender (all ++ plans) insertions)
    (hsend : ∀ p ∈ sendPorts, KnownAddress root p)
    (hreceive : ∀ plan ∈ plans, KnownAddress root plan.port) :
    KnownPorts root sendPorts plans insertions where
  send := hsend
  receive := hreceive
  routings routing hrouting := by
    rw [hins.components, routingsOf_append]
    exact List.mem_append_right _ hrouting

/-- A port of the flow has no number as long as there is no plan for it. -/
theorem TypedState.not_mem_receiveOffsets
    (h : TypedState sampleType sender sendPorts plans offsets)
    (hins : Inserted env.addresses sender all insertions)
    (hknown : KnownPorts root sendPorts plans insertions) (hport : KnownAddress root port)
    (hnew : port ∉ plans.map PortPlan.port) : port ∉ offsets.receiveOffsets.map Prod.fst := by
  rw [h.receiveKeys]
  intro hmem
  obtain ⟨plan, hplan, hmem⟩ := List.mem_flatMap.mp hmem
  rcases List.mem_cons.mp hmem with rfl | hmem
  · exact hnew (List.mem_map_of_mem hplan)
  · obtain ⟨routing, hrouting, rfl⟩ := Option.map_eq_some_iff.mp (Option.mem_toList.mp hmem)
    obtain ⟨k, hk⟩ := List.getElem?_of_mem
      (hknown.routings routing (List.mem_filterMap.mpr ⟨plan, hplan, hrouting⟩))
    exact (hins.created k routing hk).input_ne hport rfl

end Step

/-! ### All receive ports of one sample type -/

section SampleType

variable {root : Component} {connections : AudioConnectionMap} (h : Complete root connections)
  {env : AudioEnvironment root} {sampleType : AudioSampleType} {sendPorts : List AudioPort}

/-- The send ports of a sample type. -/
def SendPortsOf (connections : AudioConnectionMap) (sampleType : AudioSampleType)
    (sendPorts : List AudioPort) : Prop :=
  ∀ port, port ∈ sendPorts ↔ ∃ e ∈ ofSampleType connections sampleType, e.1.port = port

include h

/-- The channels that a receive port is connected to have got numbers. -/
theorem Complete.exists_located (hsend : SendPortsOf connections sampleType sendPorts)
    {sender : AudioChannel → AudioChannel} {plans : List PortPlan} {offsets : TypedOffsets}
    (hstate : TypedState sampleType sender sendPorts plans offsets) {port : AudioPort}
    (hport : ∃ e ∈ ofSampleType connections sampleType, e.2.port = port) {ch : ℕ}
    (hch : ch < port.width) :
    ∃ n, Located offsets.sendOffsets (senderIn connections ⟨port, ch⟩) n := by
  have hmem := (h.sentBy hport).mem ch hch
  have hkey := (hstate.sendKeys _).mpr (Or.inl ((hsend _).mpr ⟨_, hmem, rfl⟩))
  obtain ⟨⟨p, offset⟩, hentry, hp⟩ := List.mem_map.mp hkey
  dsimp only at hp
  subst hp
  exact ⟨_, offset, hentry, h.sendWidth _ (List.mem_filter.mp hmem).1, rfl⟩

/-- **One receive port.** -/
theorem connectReceivePort_spec (hsend : SendPortsOf connections sampleType sendPorts)
    {plans all : List PortPlan} {offsets : TypedOffsets} {insertions : AudioInsertions}
    (hstate : TypedState sampleType (senderIn connections) sendPorts plans offsets)
    (hins : Inserted env.addresses (senderIn connections) (all ++ plans) insertions)
    (hplans : ∀ plan ∈ plans, KnownAddress root plan.port) {port : AudioPort}
    (hport : ∃ e ∈ ofSampleType connections sampleType, e.2.port = port)
    (hnew : port ∉ plans.map PortPlan.port) :
    (∃ x plan, connectReceivePort env sampleType (ofSampleType connections sampleType)
        (offsets, insertions) port = .ok x ∧ plan.port = port ∧
      TypedState sampleType (senderIn connections) sendPorts (plans ++ [plan]) x.1 ∧
      Inserted env.addresses (senderIn connections) (all ++ (plans ++ [plan])) x.2) ∨
    (∃ message, connectReceivePort env sampleType (ofSampleType connections sampleType)
        (offsets, insertions) port = .error (.invalidArgument message)) ∧
      CannotRoute sampleType (root.components.map (·.self.name) ++
        insertions.components.map (·.self.name)) port := by
  have hsent := h.sentBy hport
  obtain ⟨e, he, hereceiver⟩ := hport
  have heconn := (List.mem_filter.mp he).1
  have hpos : 0 < port.width := by
    rw [← hereceiver]
    exact Nat.zero_lt_of_lt (h.receiveWidth e heconn)
  have hknownPort : KnownAddress root port := hereceiver ▸ h.receiver e heconn
  have hknown : KnownPorts root sendPorts plans insertions := by
    refine hins.knownPorts (fun p hp => ?_) hplans
    obtain ⟨e', he', rfl⟩ := (hsend p).mp hp
    exact h.sender e' (List.mem_filter.mp he').1
  have hfresh := hstate.not_mem_receiveOffsets hins hknown hknownPort hnew
  have hlocated : ∀ ch < port.width,
      ∃ n, Located offsets.sendOffsets (senderIn connections ⟨port, ch⟩) n :=
    fun ch hch => h.exists_located hsend hstate ⟨e, he, hereceiver⟩ hch
  have hnumber : ∀ ch < port.width, Located offsets.sendOffsets (senderIn connections ⟨port, ch⟩)
      (numberIn offsets.sendOffsets (senderIn connections ⟨port, ch⟩)) := by
    intro ch hch
    obtain ⟨n, hn⟩ := hlocated ch hch
    rw [hn.numberIn_eq hstate.packed]
    exact hn
  have hsends := sendChannels_eq hsent.filter
  have hcontiguous := contiguousRange_eq offsets.sendOffsets
    ((List.range port.width).map fun ch => senderIn connections ⟨port, ch⟩)
    (numberIn offsets.sendOffsets) (by
      intro c hc
      obtain ⟨ch, hch, rfl⟩ := List.mem_map.mp hc
      exact (hnumber ch (List.mem_range.mp hch)).channelOffset hstate.packed)
  rw [List.map_map] at hcontiguous
  have hcontiguous' : contiguousRange offsets.sendOffsets
      ((List.range port.width).map fun ch => some (senderIn connections ⟨port, ch⟩)) = _ :=
    hcontiguous
  unfold connectReceivePort
  rw [if_neg (Nat.ne_of_gt hpos)]
  dsimp only
  rw [hsends, ok_bind, hcontiguous', ok_bind]
  split
  next hchain =>
    left
    have hchain := of_decide_eq_true hchain
    obtain ⟨x, hok, hstate', hins'⟩ := connectDirectly_spec hstate hins hpos hfresh
      (numberIn offsets.sendOffsets (senderIn connections ⟨port, 0⟩))
      (fun ch hch => by
        rw [← number_of_isChain hchain hch]
        exact hnumber ch hch)
      ((ofSampleType connections sampleType).filter fun connection =>
        connection.2.port = port)
      (fun s r => by
        rw [List.mem_filter, decide_eq_true_eq]
        constructor
        · rintro ⟨hmem, rfl⟩
          exact ⟨r.channel, hsent.width _ hmem rfl, rfl,
            hsent.sender_eq (hsent.width _ hmem rfl) hmem⟩
        · rintro ⟨ch, hch, rfl, rfl⟩
          exact ⟨hsent.mem ch hch, rfl⟩)
    refine ⟨x, ⟨port, none⟩, hok, rfl, hstate', ?_⟩
    rw [← List.append_assoc]
    exact hins'
  next =>
    rcases connectRouted_spec hstate hins hknown hknownPort hpos hfresh hlocated with
      ⟨x, routing, hok, hstate', hins'⟩ | hfail
    · refine Or.inl ⟨x, ⟨port, some routing⟩, hok, rfl, hstate', ?_⟩
      rw [← List.append_assoc]
      exact hins'
    · exact Or.inr hfail

/-- There is no routing component for the sample type of a port, or its name belongs to another
component. -/
def Refused (root : Component) (connections : AudioConnectionMap) (port : AudioPort) : Prop :=
  SignalRoutingInternal.supported port.sampleType = false ∨
    inputRoutingName port ∈ root.components.map (·.self.name) ∨
    ∃ e ∈ connections, e.2.port ≠ port ∧ inputRoutingName e.2.port = inputRoutingName port

omit h in
/-- The other components with the name of a routing component. -/
theorem CannotRoute.refused {plans : List PortPlan} {insertions : AudioInsertions}
    {port : AudioPort}
    (hcannot : CannotRoute port.sampleType (root.components.map (·.self.name) ++
      insertions.components.map (·.self.name)) port)
    (hins : Inserted env.addresses (senderIn connections) plans insertions)
    (hplans : ∀ plan ∈ plans, ∃ e ∈ connections, e.2.port = plan.port)
    (hnew : port ∉ plans.map PortPlan.port) : Refused root connections port := by
  rcases hcannot with hunsupported | hname
  · exact Or.inl hunsupported
  · rcases List.mem_append.mp hname with hname | hname
    · exact Or.inr (Or.inl hname)
    · obtain ⟨routing, hrouting, hname⟩ := List.mem_map.mp hname
      rw [hins.components] at hrouting
      obtain ⟨plan, hplan, hsome⟩ := List.mem_filterMap.mp hrouting
      obtain ⟨e, he, hport⟩ := hplans plan hplan
      refine Or.inr (Or.inr ⟨e, he, ?_, ?_⟩)
      · rintro rfl
        exact hnew (hport ▸ List.mem_map_of_mem hplan)
      · rw [hport, ← hins.named plan hplan routing hsome, hname]

/-- **All receive ports of one sample type.** -/
theorem foldlM_connectReceivePort (hsend : SendPortsOf connections sampleType sendPorts)
    {ports : List AudioPort} (hnodup : ports.Nodup)
    (hports : ∀ port ∈ ports, ∃ e ∈ ofSampleType connections sampleType, e.2.port = port)
    {plans all : List PortPlan} {offsets : TypedOffsets} {insertions : AudioInsertions}
    (hstate : TypedState sampleType (senderIn connections) sendPorts plans offsets)
    (hins : Inserted env.addresses (senderIn connections) (all ++ plans) insertions)
    (hplans : ∀ plan ∈ all ++ plans, ∃ e ∈ connections, e.2.port = plan.port)
    (hnew : ∀ port ∈ ports, port ∉ (all ++ plans).map PortPlan.port) :
    (∃ x plans', ports.foldlM (connectReceivePort env sampleType
        (ofSampleType connections sampleType)) (offsets, insertions) = .ok x ∧
      plans'.map PortPlan.port = ports ∧
      TypedState sampleType (senderIn connections) sendPorts (plans ++ plans') x.1 ∧
      Inserted env.addresses (senderIn connections) (all ++ (plans ++ plans')) x.2) ∨
    (∃ message, ports.foldlM (connectReceivePort env sampleType
        (ofSampleType connections sampleType)) (offsets, insertions) =
        .error (.invalidArgument message)) ∧
      ∃ e ∈ connections, Refused root connections e.2.port := by
  induction ports generalizing plans offsets insertions with
  | nil =>
    refine Or.inl ⟨(offsets, insertions), [], rfl, rfl, ?_, ?_⟩
    · rw [List.append_nil]
      exact hstate
    · rw [List.append_nil]
      exact hins
  | cons port ports ih =>
    obtain ⟨hport, hnodupRest⟩ := List.nodup_cons.mp hnodup
    obtain ⟨hportMem, hportsRest⟩ := List.forall_mem_cons.mp hports
    obtain ⟨hportNew, hnewRest⟩ := List.forall_mem_cons.mp hnew
    have hreceiver : ∃ e ∈ connections, e.2.port = port := by
      obtain ⟨e, he, heq⟩ := hportMem
      exact ⟨e, (List.mem_filter.mp he).1, heq⟩
    have hknown : ∀ plan ∈ plans, KnownAddress root plan.port := by
      intro plan hplan
      obtain ⟨e, he, heq⟩ := hplans plan (List.mem_append_right _ hplan)
      exact heq ▸ h.receiver e he
    have hportNew' : port ∉ plans.map PortPlan.port := fun hmem =>
      hportNew (by rw [List.map_append]; exact List.mem_append_right _ hmem)
    rw [List.foldlM_cons]
    rcases connectReceivePort_spec h hsend hstate hins hknown hportMem hportNew' with
      ⟨x, plan, hok, rfl, hstate', hins'⟩ | ⟨⟨message, herror⟩, hcannot⟩
    · rw [hok, ok_bind]
      have hplans' : ∀ plan' ∈ all ++ (plans ++ [plan]),
          ∃ e ∈ connections, e.2.port = plan'.port := by
        intro plan' hplan'
        rw [← List.append_assoc] at hplan'
        rcases List.mem_append.mp hplan' with hplan' | hplan'
        · exact hplans plan' hplan'
        · rw [List.mem_singleton.mp hplan']
          exact hreceiver
      have hnew' : ∀ p ∈ ports, p ∉ (all ++ (plans ++ [plan])).map PortPlan.port := by
        intro p hp hmem
        rw [← List.append_assoc, List.map_append, List.mem_append] at hmem
        rcases hmem with hmem | hmem
        · exact hnewRest p hp hmem
        · rw [List.map_singleton, List.mem_singleton] at hmem
          exact hport (hmem ▸ hp)
      rcases ih hnodupRest hportsRest hstate' hins' hplans' hnew' with
        ⟨y, plans', hok', hmap, hstate'', hins''⟩ | hfail
      · refine Or.inl ⟨y, plan :: plans', hok', ?_, ?_, ?_⟩
        · rw [List.map_cons, hmap]
        · rwa [List.append_assoc] at hstate''
        · rwa [List.append_assoc plans] at hins''
      · exact Or.inr hfail
    · right
      rw [herror]
      obtain ⟨e, he, rfl⟩ := hreceiver
      refine ⟨⟨message, rfl⟩, e, he, CannotRoute.refused ?_ hins hplans hportNew⟩
      -- the port has the sample type
      obtain ⟨e', he', heq⟩ := hportMem
      obtain ⟨hmem', htype⟩ := List.mem_filter.mp he'
      rw [← heq, ← h.sampleType e' hmem', of_decide_eq_true htype]
      exact heq ▸ hcannot

/-- **All channels of one sample type.** -/
theorem initialiseSampleType_spec (sampleType : AudioSampleType)
    (hcomposite : root.isComposite = true)
    {all : List PortPlan} {insertions : AudioInsertions}
    (hins : Inserted env.addresses (senderIn connections) all insertions)
    (hplans : ∀ plan ∈ all, ∃ e ∈ connections, e.2.port = plan.port)
    (hother : ∀ plan ∈ all, plan.port.sampleType ≠ sampleType) :
    (∃ x plans sendPorts, initialiseSampleType env connections insertions sampleType = .ok x ∧
      (plans.map PortPlan.port).Nodup ∧
      (∀ port, port ∈ plans.map PortPlan.port ↔
        ∃ e ∈ ofSampleType connections sampleType, e.2.port = port) ∧
      SendPortsOf connections sampleType sendPorts ∧
      TypedState sampleType (senderIn connections) sendPorts plans x.1 ∧
      Inserted env.addresses (senderIn connections) (all ++ plans) x.2) ∨
    (∃ message, initialiseSampleType env connections insertions sampleType =
        .error (.invalidArgument message)) ∧
      ∃ e ∈ connections, Refused root connections e.2.port := by
  unfold initialiseSampleType
  rw [if_pos hcomposite]
  show (∃ x plans sendPorts, List.foldlM _ _ _ = _ ∧ _) ∨ (∃ message, List.foldlM _ _ _ = _) ∧ _
  let typed := ofSampleType connections sampleType
  have hsorted : ∀ l : List AudioPort, (sortedPorts l).Nodup := fun l => List.nodup_dedup _
  let sends := env.order.partition (fun port => isToplevelPort port.toPortBase)
    (sortedPorts (typed.map (·.1.port)))
  let receives := env.order.partition (fun port => isToplevelPort port.toPortBase)
    (sortedPorts (typed.map (·.2.port)))
  have hsends : sends.Perm (sortedPorts (typed.map (·.1.port))) := env.order.perm _ _
  have hreceives : receives.Perm (sortedPorts (typed.map (·.2.port))) := env.order.perm _ _
  have hsend : SendPortsOf connections sampleType sends := by
    intro port
    rw [hsends.mem_iff, mem_sortedPorts, List.mem_map]
  have hreceive : ∀ port, port ∈ receives ↔ ∃ e ∈ typed, e.2.port = port := by
    intro port
    rw [hreceives.mem_iff, mem_sortedPorts, List.mem_map]
  obtain ⟨hpacked, hkeys, hnone⟩ := foldl_addSendPort (hsends.nodup_iff.mpr (hsorted _))
    .empty (packed_nil _) fun _ _ => List.not_mem_nil
  have hstate : TypedState sampleType (senderIn connections) sends []
      (sends.foldl TypedOffsets.addSendPort .empty) := by
    refine ⟨hpacked, fun port => ?_, ?_, fun port => ?_, fun _ hplan => (nomatch hplan),
      fun _ hrouting => nomatch hrouting⟩
    · rw [hkeys]
      rfl
    · rw [hnone]
      exact List.nodup_nil
    · rw [hnone]
      rfl
  rcases foldlM_connectReceivePort h hsend (hreceives.nodup_iff.mpr (hsorted _))
      (fun port hport => (hreceive port).mp hport) hstate (by rwa [List.append_nil])
      (by rwa [List.append_nil]) (by
        intro port hport hmem
        rw [List.append_nil] at hmem
        obtain ⟨plan, hplan, rfl⟩ := List.mem_map.mp hmem
        obtain ⟨e, he, heq⟩ := (hreceive _).mp hport
        obtain ⟨hemem, htype⟩ := List.mem_filter.mp he
        refine hother plan hplan ?_
        rw [← heq, ← h.sampleType e hemem, of_decide_eq_true htype]) with
    ⟨x, plans, hok, hmap, hstate', hins'⟩ | hfail
  · refine Or.inl ⟨x, plans, sends, hok, ?_, ?_, hsend, hstate', hins'⟩
    · rw [hmap]
      exact hreceives.nodup_iff.mpr (hsorted _)
    · rw [hmap]
      exact hreceive
  · exact Or.inr hfail

end SampleType

end Visr
