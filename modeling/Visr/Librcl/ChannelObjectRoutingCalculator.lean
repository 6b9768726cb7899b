import Mathlib.Algebra.Order.Ring.Rat
import Visr.Libobjectmodel.Object
import Visr.Libpanning.LoudspeakerArray
import Visr.Library.Writes
import Visr.Librcl.SignalRouting

/-!
# Routings of channel objects

The channels of channel objects are sent to the loudspeakers that they name, by a routing for each
object vector.

## Main results

* `ChannelObjectRoutingCalculator.processObjects_ok_iff` — the entries of a routing.
* `ChannelObjectRoutingCalculator.process_renders_iff` — **when the routing is as it should be**.
-/

namespace Visr

variable {K : Type}

/-- The component; the table has the indices of the loudspeakers by their labels. -/
structure ChannelObjectRoutingCalculator where
  cNumberOfObjectChannels : ℕ
  mLookup : OrderedMap String ℕ

namespace ChannelObjectRoutingCalculator

/-- One iteration of the loop of the constructor. -/
def insertLoudspeaker (config : LoudspeakerArray K) (lookup : OrderedMap String ℕ)
    (channelIndex : ℕ) : Except Exception (OrderedMap String ℕ) :=
  match config.loudspeakerId channelIndex with
  | .error e => .error e
  | .ok lspId =>
    match lookup.find? lspId with
    | none => .ok (lookup.insert lspId channelIndex)
    | some _ => .error (.invalidArgument "Insertion of channel index routing failed.")

/-- The constructor. -/
def create (numberOfObjectChannels : ℕ) (config : LoudspeakerArray K) :
    Except Exception ChannelObjectRoutingCalculator := do
  let mLookup ← (List.range config.getNumRegularSpeakers).foldlM (insertLoudspeaker config)
    OrderedMap.empty
  pure { cNumberOfObjectChannels := numberOfObjectChannels, mLookup := mLookup }

/-- One channel of a channel object, with its position.  A channel whose index is the number of
channels is not skipped. -/
def routeChannel (s : ChannelObjectRoutingCalculator) (chObj : ChannelObject K)
    (routings : SignalRoutingParameter) (channel : UnsignedInt × ℕ) :
    Except Exception SignalRoutingParameter :=
  if channel.1 > s.cNumberOfObjectChannels then .ok routings
  else
    match chObj.outputChannels[channel.2]? with
    | none => .error (.outOfRange "Index exceeds number of output channels.")
    | some [label] =>
      match s.mLookup.find? label with
      | none => .ok routings
      | some index => .ok (routings.addRouting ⟨channel.1, index⟩)
    -- A status message that is a warning only.
    | some _ => .ok routings

def routeObject (s : ChannelObjectRoutingCalculator) (routings : SignalRoutingParameter) :
    AnyObject K → Except Exception SignalRoutingParameter
  | .channelObject chObj => chObj.channelIndices.zipIdx.foldlM (s.routeChannel chObj) routings
  | _ => .ok routings

/-- `process()` for an object vector.  The routings are cleared first. -/
def processObjects (s : ChannelObjectRoutingCalculator) (objects : ObjectVector K) :
    Except Exception SignalRoutingParameter :=
  objects.toList.foldlM s.routeObject .create

/-- `process()`, for the object vector if it has changed. -/
def process (s : ChannelObjectRoutingCalculator) (objectInput : Option (ObjectVector K))
    (routingOutput : DoubleBufferingProtocol SignalRoutingParameter) :
    Except Exception (DoubleBufferingProtocol SignalRoutingParameter) :=
  match objectInput with
  | none => .ok routingOutput
  | some objects => do
    let routings ← s.processObjects objects
    routingOutput.publish routings

/-! ### The channels of channel objects -/

/-- A channel with its audio channel index and the labels of its outputs.  The object may have no
list of labels for it. -/
structure ObjectChannel where
  index : ℕ
  outputs : Option (List String)

/-- The channels of an object, if it is a channel object. -/
def channelsOf : AnyObject K → List ObjectChannel
  | .channelObject chObj => chObj.channelIndices.zipIdx.map fun channel =>
      ⟨channel.1.val, chObj.outputChannels[channel.2]?⟩
  | _ => []

/-- All channels in the order of the vector. -/
def objectChannels (objects : ObjectVector K) : List ObjectChannel :=
  objects.toList.flatMap channelsOf

/-- A regular loudspeaker is the only output of a channel. -/
def Names (config : LoudspeakerArray K) (channel : ObjectChannel) (index : ℕ) : Prop :=
  index < config.getNumRegularSpeakers ∧
    (config.loudspeakerId index).toOption.map (fun label => some [label]) = some channel.outputs

instance (config : LoudspeakerArray K) (channel : ObjectChannel) (index : ℕ) :
    Decidable (Names config channel index) := by
  unfold Names
  infer_instance

/-- The audio channel of the last channel that names a loudspeaker, among those with indices below
a limit. -/
def lastInput (config : LoudspeakerArray K) (limit : ℕ) (channels : List ObjectChannel)
    (index : ℕ) : Option ℕ :=
  channels.reverse.findSome? fun channel =>
    if channel.index < limit ∧ Names config channel index then some channel.index else none

/-- A receiver with as many inputs as there are object channels takes over a routing as a whole.
Its widths are sizes, and none of them is the invalid index. -/
def AcceptedAsWhole (config : LoudspeakerArray K) (numberOfObjectChannels : ℕ)
    (routings : SignalRoutingParameter) : Prop :=
  ∀ receiver : SignalRouting, receiver.inputWidth = numberOfObjectChannels →
    config.getNumRegularSpeakers ≤ receiver.outputWidth → receiver.outputWidth ≤ cInvalidIndex →
    receiver.mControlInput = some ⟨true, routings⟩ →
    ∃ receiver', receiver.updateRoutings = (.ok (), receiver') ∧
      ∀ output input, receiver'.Connected output input ↔ ⟨input, output⟩ ∈ routings.routings

/-- **The routing that there should be.** -/
structure Renders (config : LoudspeakerArray K) (numberOfObjectChannels : ℕ)
    (objects : ObjectVector K) (routings : SignalRoutingParameter) : Prop where
  complete : ∀ c l, ⟨c, l⟩ ∈ routings.routings ↔
    lastInput config numberOfObjectChannels (objectChannels objects) l = some c
  inRange : ∀ e ∈ routings.routings, e.input < numberOfObjectChannels
  accepted : AcceptedAsWhole config numberOfObjectChannels routings

/-- Each channel has a list of labels, unless it is skipped, and there is no loudspeaker for which
the channel with the first index out of range comes last. -/
structure Routable (config : LoudspeakerArray K) (numberOfObjectChannels : ℕ)
    (objects : ObjectVector K) : Prop where
  labelled : ∀ channel ∈ objectChannels objects, channel.index ≤ numberOfObjectChannels →
    channel.outputs.isSome = true
  notBehind : ∀ l, lastInput config (numberOfObjectChannels + 1) (objectChannels objects) l ≠
    some numberOfObjectChannels

variable {config : LoudspeakerArray K} {numberOfObjectChannels : ℕ} {objects : ObjectVector K}
  {s : ChannelObjectRoutingCalculator}

/-! ### The table of the loudspeakers -/

theorem insertLoudspeaker_eq_ok {lookup lookup' : OrderedMap String ℕ} {channelIndex : ℕ}
    (h : insertLoudspeaker config lookup channelIndex = .ok lookup') :
    ∃ lspId, config.loudspeakerId channelIndex = .ok lspId ∧ lookup.find? lspId = none ∧
      lookup' = lookup.insert lspId channelIndex := by
  unfold insertLoudspeaker at h
  cases hid : config.loudspeakerId channelIndex with
  | error e =>
    rw [hid] at h
    cases h
  | ok lspId =>
    rw [hid] at h
    dsimp only at h
    cases hfind : lookup.find? lspId with
    | some index =>
      rw [hfind] at h
      cases h
    | none =>
      rw [hfind] at h
      cases h
      exact ⟨lspId, rfl, hfind, rfl⟩

/-- After a number of iterations, the labels of as many loudspeakers are found. -/
theorem find?_insertLoudspeaker {n : ℕ} {lookup : OrderedMap String ℕ}
    (h : (List.range n).foldlM (insertLoudspeaker config) OrderedMap.empty = .ok lookup)
    (label : String) (index : ℕ) :
    lookup.find? label = some index ↔
      index < n ∧ config.loudspeakerId index = .ok label := by
  induction n generalizing lookup with
  | zero =>
    cases h
    simp
  | succ n ih =>
    rw [List.range_succ, List.foldlM_append] at h
    obtain ⟨lookup₁, hfirst, hlast⟩ := exists_of_bind_ok h
    rw [List.foldlM_cons] at hlast
    obtain ⟨lookup₂, hstep, hend⟩ := exists_of_bind_ok hlast
    cases hend
    obtain ⟨lspId, hid, hnone, rfl⟩ := insertLoudspeaker_eq_ok hstep
    rw [OrderedMap.find?_insert n hnone]
    by_cases hlabel : label = lspId
    · subst hlabel
      rw [if_pos rfl]
      constructor
      · rintro ⟨⟩
        exact ⟨Nat.lt_succ_self _, hid⟩
      · rintro ⟨hlt, hindex⟩
        -- an earlier loudspeaker does not have this label
        rcases Nat.lt_succ_iff_lt_or_eq.mp hlt with hlt | rfl
        · rw [(ih hfirst).mpr ⟨hlt, hindex⟩] at hnone
          cases hnone
        · rfl
    · rw [if_neg hlabel, ih hfirst]
      constructor
      · rintro ⟨hlt, hindex⟩
        exact ⟨Nat.lt_succ_of_lt hlt, hindex⟩
      · rintro ⟨hlt, hindex⟩
        rcases Nat.lt_succ_iff_lt_or_eq.mp hlt with hlt | rfl
        · exact ⟨hlt, hindex⟩
        · rw [hid] at hindex
          exact absurd (Except.ok.inj hindex).symm hlabel

/-- **The table of the constructor.** -/
theorem create_spec (h : create numberOfObjectChannels config = .ok s) :
    s.cNumberOfObjectChannels = numberOfObjectChannels ∧
      ∀ label index, s.mLookup.find? label = some index ↔
        index < config.getNumRegularSpeakers ∧ config.loudspeakerId index = .ok label := by
  obtain ⟨lookup, hlookup, hs⟩ := exists_of_bind_ok h
  cases hs
  exact ⟨rfl, find?_insertLoudspeaker hlookup⟩

/-! ### One channel -/

/-- The loudspeaker for which a channel gets an entry. -/
def target (s : ChannelObjectRoutingCalculator) (channel : ObjectChannel) : Option ℕ :=
  if channel.index > s.cNumberOfObjectChannels then none
  else
    match channel.outputs with
    | some [label] => s.mLookup.find? label
    | _ => none

/-- The routings after a channel. -/
def route (s : ChannelObjectRoutingCalculator) (routings : SignalRoutingParameter)
    (channel : ObjectChannel) : SignalRoutingParameter :=
  match s.target channel with
  | some index => routings.addRouting ⟨channel.index, index⟩
  | none => routings

/-- A channel that is not skipped has a list of labels. -/
def Labelled (s : ChannelObjectRoutingCalculator) (channel : ObjectChannel) : Prop :=
  channel.index ≤ s.cNumberOfObjectChannels → channel.outputs.isSome = true

theorem routeChannel_ok_iff (chObj : ChannelObject K) (routings : SignalRoutingParameter)
    (channel : UnsignedInt × ℕ) (routings' : SignalRoutingParameter) :
    s.routeChannel chObj routings channel = .ok routings' ↔
      s.Labelled ⟨channel.1.val, chObj.outputChannels[channel.2]?⟩ ∧
        s.route routings ⟨channel.1.val, chObj.outputChannels[channel.2]?⟩ = routings' := by
  unfold routeChannel Labelled route target
  by_cases hgt : channel.1.val > s.cNumberOfObjectChannels
  · rw [if_pos hgt, if_pos hgt]
    constructor
    · rintro ⟨⟩
      exact ⟨fun hle => absurd hle (Nat.not_le.mpr hgt), rfl⟩
    · rintro ⟨-, rfl⟩
      rfl
  · rw [if_neg hgt, if_neg hgt]
    cases chObj.outputChannels[channel.2]? with
    | none => simp [Nat.not_lt.mp hgt]
    | some labels =>
      rcases labels with _ | ⟨label, _ | ⟨label', labels⟩⟩
      · simp
      · dsimp only
        cases s.mLookup.find? label with
        | none => simp
        | some index => simp
      · simp

theorem routeObject_ok_iff (routings : SignalRoutingParameter) (obj : AnyObject K)
    (routings' : SignalRoutingParameter) :
    s.routeObject routings obj = .ok routings' ↔
      (∀ channel ∈ channelsOf obj, s.Labelled channel) ∧
        (channelsOf obj).foldl s.route routings = routings' := by
  cases obj with
  | channelObject chObj =>
    rw [routeObject, foldlM_ok_iff (s.routeChannel_ok_iff chObj), channelsOf, List.foldl_map,
      List.forall_mem_map]
  | _ => simp [routeObject, channelsOf]

/-- **The loops** over the objects and their channels are one loop over all channels. -/
theorem processObjects_ok_iff {routings : SignalRoutingParameter} :
    s.processObjects objects = .ok routings ↔
      (∀ channel ∈ objectChannels objects, s.Labelled channel) ∧
        (objectChannels objects).foldl s.route .create = routings := by
  unfold processObjects objectChannels
  rw [foldlM_ok_iff (s.routeObject_ok_iff), List.foldl_flatMap, List.forall_mem_flatMap]

/-! ### The last channel of a loudspeaker -/

theorem lastInput_eq_some {limit l c : ℕ} {channels : List ObjectChannel}
    (h : lastInput config limit channels l = some c) :
    c < limit ∧ ∃ channel ∈ channels, channel.index = c ∧ Names config channel l := by
  obtain ⟨channel, hmem, hvalue⟩ := List.exists_of_findSome?_eq_some h
  split at hvalue
  next hnames =>
    cases hvalue
    exact ⟨hnames.1, channel, List.mem_reverse.mp hmem, rfl, hnames.2⟩
  next => cases hvalue

/-- A greater limit makes no difference, unless a channel at the old limit comes last. -/
theorem lastInput_succ {limit l : ℕ} {channels : List ObjectChannel}
    (h : lastInput config (limit + 1) channels l ≠ some limit) :
    lastInput config (limit + 1) channels l = lastInput config limit channels l := by
  unfold lastInput at h ⊢
  generalize channels.reverse = later at h ⊢
  induction later with
  | nil => rfl
  | cons channel later ih =>
    rw [List.findSome?_cons] at h ⊢
    rw [List.findSome?_cons]
    by_cases hnames : Names config channel l
    · rcases Nat.lt_trichotomy channel.index limit with hlt | heq | hgt
      · rw [if_pos ⟨Nat.lt_succ_of_lt hlt, hnames⟩, if_pos ⟨hlt, hnames⟩]
      · rw [if_pos ⟨by omega, hnames⟩] at h
        exact absurd (congrArg some heq) h
      · rw [if_neg fun hboth => absurd hboth.1 (by omega)] at h ⊢
        rw [if_neg fun hboth => absurd hboth.1 (by omega)]
        exact ih h
    · rw [if_neg fun hboth => hnames hboth.2] at h ⊢
      rw [if_neg fun hboth => hnames hboth.2]
      exact ih h

theorem target_eq_some_iff (hs : create numberOfObjectChannels config = .ok s)
    {channel : ObjectChannel} {l : ℕ} :
    s.target channel = some l ↔
      channel.index < numberOfObjectChannels + 1 ∧ Names config channel l := by
  obtain ⟨rfl, hlookup⟩ := create_spec hs
  unfold target Names
  by_cases hgt : channel.index > s.cNumberOfObjectChannels
  · rw [if_pos hgt]
    exact iff_of_false nofun fun h => absurd h.1 (by omega)
  · rw [if_neg hgt]
    have hle : channel.index < s.cNumberOfObjectChannels + 1 := by omega
    rw [and_iff_right hle]
    rcases channel.outputs with _ | _ | ⟨label, _ | ⟨label', labels⟩⟩
    · simp
    · simp
    · dsimp only
      rw [hlookup]
      cases config.loudspeakerId l with
      | error e => simp [Except.toOption]
      | ok lspId => simp [Except.toOption, eq_comm]
    · simp

/-- **The entries of a routing**, with the limit of the code. -/
theorem getInput_foldl_route (hs : create numberOfObjectChannels config = .ok s)
    (channels : List ObjectChannel) (l : ℕ) :
    (channels.foldl s.route .create).getInput l =
      lastInput config (numberOfObjectChannels + 1) channels l := by
  -- one channel writes at most one output
  have hroute : ∀ (routings : SignalRoutingParameter) (channel : ObjectChannel) (l : ℕ),
      (s.route routings channel).getInput l =
        ((if channel.index < numberOfObjectChannels + 1 ∧ Names config channel l
          then some channel.index else none : Option ℕ).map some).getD (routings.getInput l) := by
    intro routings channel l
    unfold route
    by_cases htarget : s.target channel = some l
    · rw [htarget, if_pos ((target_eq_some_iff hs).mp htarget)]
      simp
    · rw [if_neg fun h => htarget ((target_eq_some_iff hs).mpr h)]
      cases hother : s.target channel with
      | none => rfl
      | some l' =>
        have hne : l ≠ l' := by
          rintro rfl
          exact htarget hother
        simp [hne]
  rw [foldl_eq_applyWrites _ SignalRoutingParameter.getInput hroute, applyWrites_eq]
  show (channels.reverse.findSome? (Option.map some ∘ fun channel =>
    if channel.index < numberOfObjectChannels + 1 ∧ Names config channel l
      then some channel.index else none)).getD none = lastInput _ _ channels l
  rw [← List.map_findSome?]
  show ((lastInput config (numberOfObjectChannels + 1) channels l).map some).getD none = _
  cases lastInput config (numberOfObjectChannels + 1) channels l with
  | none => rfl
  | some c => rfl

/-! ### Object vectors -/

theorem index_lt_of_mem {channel : ObjectChannel} (h : channel ∈ objectChannels objects) :
    channel.index < cInvalidIndex := by
  obtain ⟨obj, -, hchannel⟩ := List.mem_flatMap.mp h
  cases obj with
  | channelObject chObj =>
    obtain ⟨⟨index, position⟩, -, rfl⟩ := List.mem_map.mp hchannel
    have hlt := index.isLt
    show index.val < 2 ^ 64 - 1
    omega
  | _ => cases hchannel

/-- Routings within the ranges are accepted. -/
theorem acceptedAsWhole_of_mem {routings : SignalRoutingParameter}
    (h : ∀ e ∈ routings.routings, e.input < numberOfObjectChannels ∧ e.input < cInvalidIndex ∧
      e.output < config.getNumRegularSpeakers) :
    AcceptedAsWhole config numberOfObjectChannels routings := by
  intro receiver hinputs houtputs hwidth hcontrol
  have hchecks : ∀ e ∈ routings.routings.toList,
      receiver.checkRoutingIndexRanges e.input e.output = .ok () := by
    intro e he
    obtain ⟨hin, hvalid, hout⟩ := h e he
    rw [SignalRouting.check_ok_iff (Nat.ne_of_lt hvalid)]
    exact ⟨by omega, by omega, by omega⟩
  obtain ⟨table, htable⟩ := SignalRouting.insertAll_of_check hchecks KeyedSet.empty
  have hmem := (SignalRouting.insertAll_ok htable).2
  unfold SignalRouting.updateRoutings
  rw [hcontrol]
  dsimp only
  rw [if_pos rfl, htable]
  refine ⟨_, rfl, fun output input => ?_⟩
  unfold SignalRouting.Connected
  rw [hmem]
  constructor
  · rintro (hempty | ⟨e, he, heq⟩)
    · exact absurd hempty (KeyedSet.not_mem_empty _)
    · cases heq
      exact he
  · intro he
    exact Or.inr ⟨_, he, rfl⟩

/-- The entries have the channels that are found last. -/
theorem renders_of_lastInput {routings : SignalRoutingParameter}
    (h : ∀ l, routings.getInput l =
      lastInput config numberOfObjectChannels (objectChannels objects) l) :
    Renders config numberOfObjectChannels objects routings := by
  have hentry : ∀ e ∈ routings.routings,
      lastInput config numberOfObjectChannels (objectChannels objects) e.output = some e.input := by
    intro e he
    rw [← h]
    exact SignalRoutingParameter.mem_routings_iff.mp he
  refine ⟨fun c l => ?_, fun e he => (lastInput_eq_some (hentry e he)).1, ?_⟩
  · rw [SignalRoutingParameter.mem_routings_iff, h]
  · apply acceptedAsWhole_of_mem
    intro e he
    obtain ⟨hlt, channel, hchannel, hindex, hnames⟩ := lastInput_eq_some (hentry e he)
    exact ⟨hlt, hindex ▸ index_lt_of_mem hchannel, hnames.1⟩

/-- **When the routing is as it should be**, for any object vector. -/
theorem process_renders_iff (hs : create numberOfObjectChannels config = .ok s)
    (objects : ObjectVector K) (routingOutput : DoubleBufferingProtocol SignalRoutingParameter) :
    (∃ routingOutput', s.process (some objects) routingOutput = .ok routingOutput' ∧
      Renders config numberOfObjectChannels objects routingOutput'.backValue) ↔
    Routable config numberOfObjectChannels objects := by
  have hnumber : s.cNumberOfObjectChannels = numberOfObjectChannels := (create_spec hs).1
  constructor
  · rintro ⟨routingOutput', hprocess, hrenders⟩
    obtain ⟨routings, hobjects, hpublish⟩ := exists_of_bind_ok hprocess
    obtain ⟨hlabelled, rfl⟩ := processObjects_ok_iff.mp hobjects
    obtain ⟨published, hpublished, hback, -⟩ := routingOutput.publish_spec
      ((objectChannels objects).foldl s.route .create)
    obtain rfl := Except.ok.inj (hpublished.symm.trans hpublish)
    rw [hback] at hrenders
    refine ⟨fun channel hchannel hle => hlabelled channel hchannel (by omega), fun l hl => ?_⟩
    -- the code has an entry with an input that is out of range
    rw [← getInput_foldl_route hs, ← SignalRoutingParameter.mem_routings_iff] at hl
    exact absurd (hrenders.inRange _ hl) (Nat.lt_irrefl numberOfObjectChannels)
  · rintro ⟨hlabelled, hbehind⟩
    have hobjects : s.processObjects objects =
        .ok ((objectChannels objects).foldl s.route .create) := by
      refine processObjects_ok_iff.mpr ⟨fun channel hchannel hle => ?_, rfl⟩
      exact hlabelled channel hchannel (by omega)
    obtain ⟨published, hpublished, hback, -⟩ := routingOutput.publish_spec
      ((objectChannels objects).foldl s.route .create)
    refine ⟨published, ?_, ?_⟩
    · unfold process
      dsimp only
      rw [hobjects]
      exact hpublished
    · rw [hback]
      apply renders_of_lastInput
      intro l
      rw [getInput_foldl_route hs, lastInput_succ (hbehind l)]

/-- An array of one loudspeaker, with the label `"1"`. -/
def oneLoudspeaker : LoudspeakerArray ℚ where
  is2D := false
  isInfinite := false
  numberOfSpeakers := 1
  position _ := ⟨1, 0, 0, false⟩
  triplet := []
  channel := [0]
  id := OrderedMap.empty.insert "1" 0
  subwooferChannels := []
  subwooferGains _ _ := 0
  reRoutingCoeff _ _ := 0
  gainAdjustment _ := 1
  delayAdjustment _ := 0
  outputEqs := none

/-- A vector with a channel object for this loudspeaker. -/
def oneChannel (channelIndex : UnsignedInt) : ObjectVector ℚ :=
  ObjectVector.empty.insert (.channelObject {
    id := 0
    groupId := 0
    level := 1
    priority := 0
    channelIndices := [channelIndex]
    eqCoefficients := []
    outputChannels := [["1"]]
    diffuseness := 0 })

theorem process_renders_oneChannel : ∃ s, create 1 oneLoudspeaker = .ok s ∧
    ∃ routingOutput', s.process (some (oneChannel 0)) (.create .create .create) =
        .ok routingOutput' ∧
      Renders oneLoudspeaker 1 (oneChannel 0) routingOutput'.backValue := by
  have hs : ∃ s, create 1 oneLoudspeaker = .ok s := ⟨_, rfl⟩
  obtain ⟨s, hs⟩ := hs
  have hchannels : objectChannels (oneChannel 0) = [⟨0, some ["1"]⟩] := rfl
  refine ⟨s, hs, (process_renders_iff hs (oneChannel 0) _).mpr ⟨?_, ?_⟩⟩
  · rw [hchannels, List.forall_mem_singleton]
    exact fun _ => rfl
  · intro l hl
    -- the only channel has another index
    obtain ⟨-, channel, hmem, hindex, -⟩ := lastInput_eq_some hl
    rw [hchannels, List.mem_singleton] at hmem
    subst hmem
    cases hindex

/-- The index is the number of channels, and the entry is not left out. -/
theorem process_not_renders : ∃ s routingOutput', create 1 oneLoudspeaker = .ok s ∧
    s.process (some (oneChannel 1)) (.create .create .create) = .ok routingOutput' ∧
      ⟨1, 0⟩ ∈ routingOutput'.backValue.routings ∧
      ¬Renders oneLoudspeaker 1 (oneChannel 1) routingOutput'.backValue := by
  refine ⟨_, _, rfl, rfl, ?_⟩
  have hentry : (⟨1, 0⟩ : SignalRoutingEntry) ∈
      (SignalRoutingParameter.create.addRouting ⟨1, 0⟩).routings := by decide
  refine ⟨hentry, fun hrenders => ?_⟩
  exact absurd (hrenders.inRange _ hentry) (Nat.lt_irrefl 1)

end ChannelObjectRoutingCalculator

end Visr
