import Visr.Librrl.AudioConnectionMap

/-!
# Integrity checks of connections

The checks that every audio channel and every parameter port of one level of the
hierarchy is connected as it should be.

## Main results

* `checkAudioConnectionsLocal_result` — the check passes exactly on `LevelWired`.
* `checkAudioConnectionsLocal_sound_iff` — when passing the check ensures all that
  later stages rely on.
* `checkParameterConnectionIntegrity_passes` — the check of all levels passes exactly
  when each of them is `ParameterLevelWired`.
-/

namespace Visr

/-- The number of connections of each audio channel, in the order of the channels. -/
abbrev AudioConnectionCountTable := List (AudioChannel × ℕ)

namespace AudioConnectionCountTable

/-- All channels of the given ports, none of them connected.  The ports are visited in
the order of their addresses, so every channel is a new last key. -/
def fillTable (ports : PortTable AudioPort) : AudioConnectionCountTable :=
  ports.flatMap fun port => (List.range port.width).map fun chIdx => (⟨port, chIdx⟩, 0)

/-- Counts one more connection of a channel. -/
def increment (table : AudioConnectionCountTable) (c : AudioChannel) :
    AudioConnectionCountTable :=
  table.map fun entry => if entry.1 = c then (entry.1, entry.2 + 1) else entry

/-- The channels of the ports, each with its number of occurrences in `l`. -/
def countIn (ports : PortTable AudioPort) (l : List AudioChannel) : AudioConnectionCountTable :=
  ports.flatMap fun port =>
    (List.range port.width).map fun chIdx => (⟨port, chIdx⟩, l.count ⟨port, chIdx⟩)

theorem increment_countIn (ports : PortTable AudioPort) (l : List AudioChannel)
    (c : AudioChannel) : increment (countIn ports l) c = countIn ports (l ++ [c]) := by
  unfold increment countIn
  rw [List.map_flatMap]
  congr 1
  funext port
  rw [List.map_map]
  refine List.map_congr_left fun chIdx _ => ?_
  rw [Function.comp_apply, List.count_append, List.count_singleton]
  by_cases h : (⟨port, chIdx⟩ : AudioChannel) = c
  · simp [h]
  · have h' : ¬ c = ⟨port, chIdx⟩ := fun hc => h hc.symm
    simp [h, h']

theorem mem_countIn {ports : PortTable AudioPort} {l : List AudioChannel}
    {entry : AudioChannel × ℕ} :
    entry ∈ countIn ports l ↔
      entry.1.port ∈ ports ∧ entry.1.channel < entry.1.port.width ∧ entry.2 = l.count entry.1 := by
  obtain ⟨⟨port, chIdx⟩, n⟩ := entry
  simp only [countIn, List.mem_flatMap, List.mem_map, List.mem_range, Prod.mk.injEq,
    AudioChannel.mk.injEq]
  constructor
  · rintro ⟨port', hport, chIdx', hch, ⟨rfl, rfl⟩, rfl⟩
    exact ⟨hport, hch, rfl⟩
  · rintro ⟨hport, hch, rfl⟩
    exact ⟨port, hport, chIdx, hch, ⟨rfl, rfl⟩, rfl⟩

theorem lookup_countIn {ports : PortTable AudioPort} {l : List AudioChannel} {c : AudioChannel}
    (hport : c.port ∈ ports) (hch : c.channel < c.port.width) :
    (countIn ports l).lookup c = some (l.count c) := by
  have hmem : (c, l.count c) ∈ countIn ports l := mem_countIn.mpr ⟨hport, hch, rfl⟩
  rcases hlookup : (countIn ports l).lookup c with _ | n
  · have hnone := List.lookup_eq_none_iff.mp hlookup _ hmem
    simp at hnone
  · obtain ⟨l₁, l₂, heq, -⟩ := List.lookup_eq_some_iff.mp hlookup
    have hn : (c, n) ∈ countIn ports l := by simp [heq]
    exact congrArg some (mem_countIn.mp hn).2.2

end AudioConnectionCountTable

/-! ### The check of one level -/

open AudioConnectionCountTable

/-- The state of the loop over the connections. -/
structure ConnectionCounts extends CheckResult where
  sendChannelTable : AudioConnectionCountTable
  receiveChannelTable : AudioConnectionCountTable

/-- Before the loop: no channel of the level is connected yet. -/
def ConnectionCounts.initial (component : Component) (check : CheckResult) : ConnectionCounts :=
  let localPorts : PortLookup AudioPort := PortLookup.localPorts component
  ⟨check, fillTable localPorts.allNonPlaceholderSendPorts,
    fillTable localPorts.allNonPlaceholderReceivePorts⟩

/-- Reports a problem. -/
def ConnectionCounts.fail (counts : ConnectionCounts) (message : String) : ConnectionCounts :=
  { counts with toCheckResult := counts.toCheckResult.fail message }

/-- How messages name a connection. -/
def connectionName (connection : AudioChannel × AudioChannel) : String :=
  connection.1.toString ++ "->" ++ connection.2.toString

/-- The body of the loop over the connections, which counts the uses of each channel. -/
def countConnection (counts : ConnectionCounts) (connection : AudioChannel × AudioChannel) :
    ConnectionCounts :=
  let counted : ConnectionCounts :=
    { counts with
      sendChannelTable := counts.sendChannelTable.increment connection.1
      receiveChannelTable := counts.receiveChannelTable.increment connection.2 }
  match counts.sendChannelTable.lookup connection.1 with
  | none =>
    counts.fail ("Send port of audio connection " ++ connectionName connection ++ " not found.\n")
  | some _ =>
    match counts.receiveChannelTable.lookup connection.2 with
    | none =>
      counts.fail
        ("Receive port of audio connection " ++ connectionName connection ++ " not found.\n")
    | some numConnections =>
      -- the counts are kept up to date in either case
      if numConnections > 0 then
        counted.fail ("Receive port of audio connection " ++ connectionName connection ++
          " is connected to more than one sender.\n")
      else counted

/-- The body of the loop over the receive channels. -/
def checkReceiveEntry (check : CheckResult) (recEntry : AudioChannel × ℕ) : CheckResult :=
  if recEntry.2 = 0 then
    check.fail ("Receive port " ++ recEntry.1.toString ++ " is not connected.\n")
  else if recEntry.2 > 1 then
    check.fail ("Receive port " ++ recEntry.1.toString ++
      " is connected to more than one sender (" ++ recEntry.2.repr ++ ").\n")
  -- the sample type of the receive port is compared with itself
  else if recEntry.1.port.sampleType ≠ recEntry.1.port.sampleType then
    check.fail ("The send and receive sample types of the connection " ++ recEntry.1.toString ++
      "->" ++ recEntry.2.repr ++ "do not match.\n")
  else check

/-- The body of the loop over the send channels. -/
def checkSendEntry (check : CheckResult) (sendEntry : AudioChannel × ℕ) : CheckResult :=
  if sendEntry.2 = 0 then
    check.fail ("Send port " ++ sendEntry.1.toString ++ " is not connected.\n")
  else check

/-- Checks the audio connections on the level of a composite. -/
def checkAudioConnectionsLocal (component : Component) : CheckResult :=
  let localConnections := AudioConnectionMap.fill component false
  if !localConnections.result then localConnections.toCheckResult
  else
    let counts := localConnections.connections.foldl countConnection
      (.initial component localConnections.toCheckResult)
    let check := counts.receiveChannelTable.foldl checkReceiveEntry counts.toCheckResult
    counts.sendChannelTable.foldl checkSendEntry check

/-! ### What the check establishes -/

/-- The channels that a connection of this level may start from: those of the inputs of
the composite and of the outputs of the contained components. -/
def SendChannel (component : Component) (c : AudioChannel) : Prop :=
  c.channel < c.port.width ∧
    (c.port ∈ component.audioPorts ∧ c.port.direction = .input ∨
      ∃ child ∈ component.components, c.port ∈ child.audioPorts ∧ c.port.direction = .output)

/-- The channels that a connection of this level may lead to: those of the outputs of
the composite and of the inputs of the contained components. -/
def ReceiveChannel (component : Component) (c : AudioChannel) : Prop :=
  c.channel < c.port.width ∧
    (c.port ∈ component.audioPorts ∧ c.port.direction = .output ∨
      ∃ child ∈ component.components, c.port ∈ child.audioPorts ∧ c.port.direction = .input)

/-- The single-channel connections of one level. -/
def levelPairs (component : Component) : List (AudioChannel × AudioChannel) :=
  component.audioConnections.flatMap AudioConnection.channelPairs

/-- A level is wired when its connections are valid, every receive channel is the target
of exactly one of them and every send channel is the source of at least one. -/
structure LevelWired (component : Component) : Prop where
  valid : ∀ connection ∈ component.audioConnections,
    AudioConnectionMap.Valid component connection
  receive : ∀ c, ReceiveChannel component c → ((levelPairs component).map Prod.snd).count c = 1
  send : ∀ c, SendChannel component c → c ∈ (levelPairs component).map Prod.fst

theorem mem_countIn_send {component : Component} {l : List AudioChannel}
    {entry : AudioChannel × ℕ} :
    entry ∈ countIn (PortLookup.localPorts component).allNonPlaceholderSendPorts l ↔
      SendChannel component entry.1 ∧ entry.2 = l.count entry.1 := by
  rw [mem_countIn, PortLookup.mem_allNonPlaceholderSendPorts, SendChannel]
  exact ⟨fun h => ⟨⟨h.2.1, h.1⟩, h.2.2⟩, fun h => ⟨h.1.2, h.1.1, h.2⟩⟩

theorem mem_countIn_receive {component : Component} {l : List AudioChannel}
    {entry : AudioChannel × ℕ} :
    entry ∈ countIn (PortLookup.localPorts component).allNonPlaceholderReceivePorts l ↔
      ReceiveChannel component entry.1 ∧ entry.2 = l.count entry.1 := by
  rw [mem_countIn, PortLookup.mem_allNonPlaceholderReceivePorts, ReceiveChannel]
  exact ⟨fun h => ⟨⟨h.2.1, h.1⟩, h.2.2⟩, fun h => ⟨h.1.2, h.1.1, h.2⟩⟩

/-- The connections of a valid entry lead from send to receive channels. -/
theorem channels_of_valid {component : Component} {connection : AudioConnection}
    (h : AudioConnectionMap.Valid component connection) {e : AudioChannel × AudioChannel}
    (he : e ∈ connection.channelPairs) :
    SendChannel component e.1 ∧ ReceiveChannel component e.2 := by
  obtain ⟨⟨i, j⟩, hij, rfl⟩ := List.mem_map.mp he
  obtain ⟨hi, hj⟩ := List.of_mem_zip hij
  exact ⟨⟨h.sendIndices i hi, PortLookup.mem_allNonPlaceholderSendPorts.mp h.sender⟩,
    ⟨h.receiveIndices j hj, PortLookup.mem_allNonPlaceholderReceivePorts.mp h.receiver⟩⟩

/-- The state after counting the connections `l`. -/
structure Counted (component : Component) (l : List (AudioChannel × AudioChannel))
    (counts : ConnectionCounts) : Prop where
  send : counts.sendChannelTable =
    countIn (PortLookup.localPorts component).allNonPlaceholderSendPorts (l.map Prod.fst)
  receive : counts.receiveChannelTable =
    countIn (PortLookup.localPorts component).allNonPlaceholderReceivePorts (l.map Prod.snd)
  result : counts.result = true ↔ (l.map Prod.snd).Nodup

theorem counted_initial (component : Component) {check : CheckResult}
    (h : check.result = true) : Counted component [] (.initial component check) :=
  ⟨rfl, rfl, iff_of_true h List.nodup_nil⟩

theorem Counted.step {component : Component} {l : List (AudioChannel × AudioChannel)}
    {counts : ConnectionCounts} (h : Counted component l counts)
    {e : AudioChannel × AudioChannel} (hsend : SendChannel component e.1)
    (hreceive : ReceiveChannel component e.2) :
    Counted component (l ++ [e]) (countConnection counts e) := by
  have hs := lookup_countIn (l := l.map Prod.fst)
    (PortLookup.mem_allNonPlaceholderSendPorts.mpr hsend.2) hsend.1
  have hr := lookup_countIn (l := l.map Prod.snd)
    (PortLookup.mem_allNonPlaceholderReceivePorts.mpr hreceive.2) hreceive.1
  rw [← h.send] at hs
  rw [← h.receive] at hr
  -- a receiver that has been counted before is reported, and it is a duplicate
  have hnodup : ((l ++ [e]).map Prod.snd).Nodup ↔
      (l.map Prod.snd).Nodup ∧ (l.map Prod.snd).count e.2 = 0 := by
    rw [List.map_append, List.map_singleton, List.count_eq_zero, ← List.concat_eq_append,
      List.nodup_concat]
    tauto
  unfold countConnection
  simp only [hs, hr]
  split
  next hpos =>
    refine ⟨?_, ?_, ?_⟩
    · simp [ConnectionCounts.fail, h.send, increment_countIn]
    · simp [ConnectionCounts.fail, h.receive, increment_countIn]
    · rw [hnodup]
      simp [ConnectionCounts.fail, Nat.pos_iff_ne_zero.mp hpos]
  next hzero =>
    refine ⟨?_, ?_, ?_⟩
    · simp [h.send, increment_countIn]
    · simp [h.receive, increment_countIn]
    · rw [hnodup, h.result, and_iff_left (by omega)]

/-- Counting all connections of a level with valid connections. -/
theorem counted_foldl {component : Component} {l l' : List (AudioChannel × AudioChannel)}
    (hl' : ∀ e ∈ l', SendChannel component e.1 ∧ ReceiveChannel component e.2)
    {counts : ConnectionCounts} (h : Counted component l counts) :
    Counted component (l ++ l') (l'.foldl countConnection counts) := by
  induction l' generalizing l counts with
  | nil => simpa using h
  | cons e l' ih =>
    obtain ⟨⟨hsend, hreceive⟩, hl'⟩ := List.forall_mem_cons.mp hl'
    rw [List.foldl_cons, List.append_cons]
    exact ih hl' (h.step hsend hreceive)

theorem foldl_checkReceiveEntry_result (table : AudioConnectionCountTable) (check : CheckResult) :
    (table.foldl checkReceiveEntry check).result = true ↔
      check.result = true ∧ ∀ entry ∈ table, entry.2 = 1 := by
  induction table generalizing check with
  | nil => simp
  | cons entry table ih =>
    rw [List.foldl_cons, ih, List.forall_mem_cons]
    unfold checkReceiveEntry
    split
    next hzero => simp [hzero]
    next hzero =>
      split
      next hmany =>
        have hne : entry.2 ≠ 1 := by omega
        simp [hne]
      next hmany =>
        have hone : entry.2 = 1 := by omega
        rw [if_neg (fun hne => hne rfl)]
        simp [hone]

theorem foldl_checkSendEntry_result (table : AudioConnectionCountTable) (check : CheckResult) :
    (table.foldl checkSendEntry check).result = true ↔
      check.result = true ∧ ∀ entry ∈ table, entry.2 ≠ 0 := by
  induction table generalizing check with
  | nil => simp
  | cons entry table ih =>
    rw [List.foldl_cons, ih, List.forall_mem_cons]
    unfold checkSendEntry
    split
    next hzero => simp [hzero]
    next hzero => simp [hzero]

/-- The counts of a level say that it is wired. -/
theorem levelWired_iff_counts {component : Component} {l : List (AudioChannel × AudioChannel)}
    (hvalid : ∀ c ∈ component.audioConnections, AudioConnectionMap.Valid component c)
    (hl : l.Perm (levelPairs component))
    (hreceivers : ∀ e ∈ l, ReceiveChannel component e.2) {counts : ConnectionCounts}
    (h : Counted component l counts) :
    (counts.result = true ∧ ∀ entry ∈ counts.receiveChannelTable, entry.2 = 1) ∧
      (∀ entry ∈ counts.sendChannelTable, entry.2 ≠ 0) ↔ LevelWired component := by
  have hcount := fun c => (hl.map Prod.snd).count_eq c
  rw [h.result, h.send, h.receive]
  constructor
  · rintro ⟨⟨-, hrec⟩, hsend⟩
    refine ⟨hvalid, fun c hc => ?_, fun c hc => ?_⟩
    · rw [← hcount]
      exact hrec (c, _) (mem_countIn_receive.mpr ⟨hc, rfl⟩)
    · have hne := hsend (c, (l.map Prod.fst).count c) (mem_countIn_send.mpr ⟨hc, rfl⟩)
      exact (hl.map Prod.fst).mem_iff.mp (List.count_pos_iff.mp (Nat.pos_of_ne_zero hne))
  · intro hwired
    refine ⟨⟨?_, fun entry hentry => ?_⟩, fun entry hentry => ?_⟩
    · -- a receiver that is counted once occurs once
      refine List.nodup_iff_count_le_one.mpr fun c => ?_
      by_cases hc : c ∈ l.map Prod.snd
      · obtain ⟨e, he, rfl⟩ := List.mem_map.mp hc
        rw [hcount, hwired.receive _ (hreceivers e he)]
      · rw [List.count_eq_zero.mpr hc]
        exact Nat.zero_le 1
    · obtain ⟨hc, hn⟩ := mem_countIn_receive.mp hentry
      rw [hn, hcount, hwired.receive _ hc]
    · obtain ⟨hc, hn⟩ := mem_countIn_send.mp hentry
      rw [hn]
      have hmem := (hl.map Prod.fst).mem_iff.mpr (hwired.send _ hc)
      exact Nat.pos_iff_ne_zero.mp (List.count_pos_iff.mpr hmem)

/-- **The check passes exactly on wired levels.** -/
theorem checkAudioConnectionsLocal_result (component : Component) :
    (checkAudioConnectionsLocal component).result = true ↔ LevelWired component := by
  have hfill : (AudioConnectionMap.fill component false).result = true ↔
      ∀ c ∈ component.audioConnections, AudioConnectionMap.Valid component c :=
    (AudioConnectionMap.fillLocal_result _ _).trans (and_iff_right rfl)
  by_cases hvalid : ∀ c ∈ component.audioConnections, AudioConnectionMap.Valid component c
  · have hres := hfill.mpr hvalid
    have hperm : (AudioConnectionMap.fill component false).connections.Perm
        (levelPairs component) := by
      have h := AudioConnectionMap.fillLocal_connections hvalid ⟨.passed, []⟩
      rwa [List.append_nil] at h
    have hchannels : ∀ e ∈ (AudioConnectionMap.fill component false).connections,
        SendChannel component e.1 ∧ ReceiveChannel component e.2 := by
      intro e he
      obtain ⟨c, hc, he⟩ := List.mem_flatMap.mp (hperm.mem_iff.mp he)
      exact channels_of_valid (hvalid c hc) he
    have hcounted := counted_foldl hchannels (counted_initial component hres)
    rw [List.nil_append] at hcounted
    unfold checkAudioConnectionsLocal
    simp only [hres, Bool.not_true, Bool.false_eq_true, if_false]
    rw [foldl_checkSendEntry_result, foldl_checkReceiveEntry_result]
    exact levelWired_iff_counts hvalid hperm (fun e he => (hchannels e he).2) hcounted
  · refine iff_of_false ?_ fun hwired => hvalid hwired.valid
    have hres := Bool.eq_false_iff.mpr (hfill.not.mpr hvalid)
    unfold checkAudioConnectionsLocal
    simp [hres]

/-- Later stages rely on this: every receive channel of the level has exactly one
sender, every connection starts at a send channel, and connected ports carry samples of
the same type. -/
structure Consistent (component : Component) : Prop where
  receive : ∀ c, ReceiveChannel component c → ((levelPairs component).map Prod.snd).count c = 1
  send : ∀ e ∈ levelPairs component, SendChannel component e.1
  sampleType : ∀ connection ∈ component.audioConnections,
    connection.sender.sampleType = connection.receiver.sampleType

/-- Passing the check makes a level consistent if and only if the level is not wired
anyway, or all its connections join ports of the same sample type. -/
theorem checkAudioConnectionsLocal_sound_iff (component : Component) :
    ((checkAudioConnectionsLocal component).result = true → Consistent component) ↔
      (LevelWired component → ∀ connection ∈ component.audioConnections,
        connection.sender.sampleType = connection.receiver.sampleType) := by
  rw [checkAudioConnectionsLocal_result]
  refine forall_congr' fun hwired => ⟨Consistent.sampleType, fun htypes => ?_⟩
  refine ⟨hwired.receive, fun e he => ?_, htypes⟩
  obtain ⟨c, hc, he⟩ := List.mem_flatMap.mp he
  exact (channels_of_valid (hwired.valid c hc) he).1

/-- A composite whose two components are connected, from a port with `float` samples to
one with `double` samples. -/
def mixedLevel : Component :=
  let source : ComponentRef := ⟨1, "source", "source", false, false⟩
  let sink : ComponentRef := ⟨2, "sink", "sink", false, false⟩
  let outPort : AudioPort := ⟨⟨10, "out", source, .output⟩, .float, 1⟩
  let inPort : AudioPort := ⟨⟨20, "in", sink, .input⟩, .double, 1⟩
  .composite ⟨0, "flow", "flow", true, true⟩ [] []
    [.atomic source [outPort] [], .atomic sink [inPort] []]
    [⟨outPort, [0], inPort, [0]⟩] []

/-- The check passes although the sample types differ. -/
theorem checkAudioConnectionsLocal_mixed :
    ¬ ∀ component, (checkAudioConnectionsLocal component).result = true →
      Consistent component := by
  intro h
  have hpasses : (checkAudioConnectionsLocal mixedLevel).result = true := by decide
  exact absurd (h _ hpasses).sampleType (by decide)

/-! ### Parameter connections -/

/-- The check comes to an end without having reported a problem. -/
def Passes (check : Except Exception CheckResult) : Prop :=
  ∃ c, check = .ok c ∧ c.result = true

theorem passes_ok {check : CheckResult} : Passes (.ok check) ↔ check.result = true :=
  ⟨fun ⟨_, h, hresult⟩ => Except.ok.inj h ▸ hresult, fun h => ⟨_, rfl, h⟩⟩

theorem not_passes_error {e : Exception} : ¬ Passes (.error e) := by
  rintro ⟨c, h, -⟩
  cases h

instance (check : Except Exception CheckResult) : Decidable (Passes check) :=
  match check with
  | .ok _ => decidable_of_iff _ passes_ok.symm
  | .error _ => isFalse not_passes_error

/-- The state of the loop over the parameter connections of a level. -/
structure ParameterUses extends CheckResult where
  usedSendPorts : PortTable ParameterPort
  usedReceivePorts : PortTable ParameterPort

/-- Reports a problem. -/
def ParameterUses.fail (uses : ParameterUses) (message : String) : ParameterUses :=
  { uses with toCheckResult := uses.toCheckResult.fail message }

/-- The body of the loop over the parameter connections of a level. -/
def checkParameterConnection (component : Component) (uses : ParameterUses)
    (connection : ParameterConnection) : Except Exception ParameterUses :=
  let localPorts : PortLookup ParameterPort := PortLookup.localPorts component
  let sendPort := connection.sender
  let receivePort := connection.receiver
  if sendPort ∉ localPorts.allNonPlaceholderSendPorts then
    .ok (uses.fail ("Parameter connection in component \"" ++ component.self.fullName ++
      "\" uses a unknown send port.\n"))
  else
    let uses := { uses with usedSendPorts := PortTable.insert sendPort uses.usedSendPorts }
    if receivePort ∉ localPorts.allNonPlaceholderReceivePorts then
      .ok (uses.fail ("Parameter connection in component \"" ++ component.self.fullName ++
        "\" uses a unknown receive port.\n"))
    else do
      let uses :=
        { uses with usedReceivePorts := PortTable.insert receivePort uses.usedReceivePorts }
      let compatCheck ← checkParameterPortCompatibility sendPort receivePort
      return { uses with toCheckResult := uses.toCheckResult.append compatCheck }

/-- The comparison of the ports used with the ports of the level.  The message lists the
difference of the two sets, each name after a separator. -/
def checkUnconnected (component : Component) (kind : String) (check : CheckResult)
    (used available : PortTable ParameterPort) : CheckResult :=
  let unconnected := available.filter (· ∉ used)
  if used.all (· ∈ available) && unconnected.isEmpty then check
  else check.fail (component.self.fullName ++ " contains unconnected parameter " ++ kind ++
    " ports: " ++
    String.join (unconnected.map fun v => ", " ++ fullyQualifiedName v.toPortBase) ++ "\n")

/-- Checks the parameter connections on the level of a composite. -/
def checkParameterConnectionsLocal (component : Component) : Except Exception CheckResult := do
  let localPorts : PortLookup ParameterPort := PortLookup.localPorts component
  let uses ← component.parameterConnections.foldlM (checkParameterConnection component)
    ⟨.passed, [], []⟩
  let check := checkUnconnected component "send" uses.toCheckResult uses.usedSendPorts
    localPorts.allNonPlaceholderSendPorts
  return checkUnconnected component "receive" check uses.usedReceivePorts
    localPorts.allNonPlaceholderReceivePorts

mutual

/-- `checkParameterConnectionIntegrity` with `hierarchical = true`. -/
def checkParameterConnectionIntegrity : Component → Except Exception CheckResult
  | .atomic .. => .ok .passed
  | .composite self aps pps comps acs pcs => do
    let check ← checkParameterConnectionsLocal (.composite self aps pps comps acs pcs)
    checkParameterComponents check comps

/-- The loop over the children, which does not stop at the first problem. -/
def checkParameterComponents (check : CheckResult) :
    List Component → Except Exception CheckResult
  | [] => .ok check
  | c :: comps => do
    let componentResult ← checkParameterConnectionIntegrity c
    checkParameterComponents (check.append componentResult) comps

end

/-- The ports that a parameter connection of this level may start from. -/
def SendPort (component : Component) (p : ParameterPort) : Prop :=
  p ∈ component.parameterPorts ∧ p.direction = .input ∨
    ∃ child ∈ component.components, p ∈ child.parameterPorts ∧ p.direction = .output

/-- The ports that a parameter connection of this level may lead to. -/
def ReceivePort (component : Component) (p : ParameterPort) : Prop :=
  p ∈ component.parameterPorts ∧ p.direction = .output ∨
    ∃ child ∈ component.components, p ∈ child.parameterPorts ∧ p.direction = .input

/-- What is demanded of a parameter connection of a composite. -/
structure ParameterValid (component : Component) (connection : ParameterConnection) : Prop where
  sender : SendPort component connection.sender
  receiver : ReceivePort component connection.receiver
  compatible : Passes (checkParameterPortCompatibility connection.sender connection.receiver)

/-- A level is wired when its parameter connections are valid and every port of the level
is used by one of them. -/
structure ParameterLevelWired (component : Component) : Prop where
  valid : ∀ connection ∈ component.parameterConnections, ParameterValid component connection
  send : ∀ p, SendPort component p → ∃ c ∈ component.parameterConnections, c.sender = p
  receive : ∀ p, ReceivePort component p → ∃ c ∈ component.parameterConnections, c.receiver = p

theorem mem_sendPorts {component : Component} {p : ParameterPort} :
    p ∈ (PortLookup.localPorts component).allNonPlaceholderSendPorts ↔ SendPort component p :=
  PortLookup.mem_allNonPlaceholderSendPorts

theorem mem_receivePorts {component : Component} {p : ParameterPort} :
    p ∈ (PortLookup.localPorts component).allNonPlaceholderReceivePorts ↔
      ReceivePort component p :=
  PortLookup.mem_allNonPlaceholderReceivePorts

/-- A valid connection is recorded as using its ports. -/
theorem checkParameterConnection_of_valid {component : Component}
    {connection : ParameterConnection} (h : ParameterValid component connection)
    (uses : ParameterUses) :
    ∃ uses', checkParameterConnection component uses connection = .ok uses' ∧
      uses'.result = uses.result ∧
      (∀ p, p ∈ uses'.usedSendPorts ↔ p = connection.sender ∨ p ∈ uses.usedSendPorts) ∧
      ∀ p, p ∈ uses'.usedReceivePorts ↔ p = connection.receiver ∨ p ∈ uses.usedReceivePorts := by
  obtain ⟨compatCheck, hcompat, hresult⟩ := h.compatible
  unfold checkParameterConnection
  simp only [mem_sendPorts, mem_receivePorts, h.sender, h.receiver, not_true_eq_false, if_false,
    hcompat]
  refine ⟨_, rfl, ?_, fun p => PortTable.mem_insert, fun p => PortTable.mem_insert⟩
  simp [hresult]

/-- A connection that does not spoil the result is valid. -/
theorem valid_of_checkParameterConnection {component : Component}
    {connection : ParameterConnection} {uses uses' : ParameterUses}
    (h : checkParameterConnection component uses connection = .ok uses')
    (hresult : uses'.result = true) :
    uses.result = true ∧ ParameterValid component connection := by
  unfold checkParameterConnection at h
  dsimp only at h
  split at h
  · obtain rfl := Except.ok.inj h
    exact absurd hresult Bool.false_ne_true
  next hsender =>
    split at h
    · obtain rfl := Except.ok.inj h
      exact absurd hresult Bool.false_ne_true
    next hreceiver =>
      rw [not_not] at hsender hreceiver
      rcases hcompat : checkParameterPortCompatibility connection.sender connection.receiver with
        e | compatCheck
      · rw [hcompat] at h
        cases h
      · rw [hcompat] at h
        obtain rfl := Except.ok.inj h
        obtain ⟨huses, hc⟩ := (Bool.and_eq_true_iff ..).mp hresult
        exact ⟨huses, mem_sendPorts.mp hsender, mem_receivePorts.mp hreceiver, compatCheck,
          hcompat, hc⟩

/-- The loop over the connections, when nothing is reported. -/
theorem foldlM_checkParameterConnection_sound {component : Component}
    {l : List ParameterConnection} {uses uses' : ParameterUses}
    (h : l.foldlM (checkParameterConnection component) uses = .ok uses')
    (hresult : uses'.result = true) :
    uses.result = true ∧ (∀ c ∈ l, ParameterValid component c) ∧
      (∀ p, p ∈ uses'.usedSendPorts ↔ (∃ c ∈ l, c.sender = p) ∨ p ∈ uses.usedSendPorts) ∧
      ∀ p, p ∈ uses'.usedReceivePorts ↔ (∃ c ∈ l, c.receiver = p) ∨ p ∈ uses.usedReceivePorts := by
  induction l generalizing uses with
  | nil =>
    obtain rfl := Except.ok.inj h
    simpa using hresult
  | cons c l ih =>
    rw [List.foldlM_cons] at h
    rcases hstep : checkParameterConnection component uses c with e | uses₁
    · rw [hstep] at h
      cases h
    · rw [hstep] at h
      obtain ⟨hresult₁, hl, hsend, hreceive⟩ := ih h
      -- what has been reported once remains so
      obtain ⟨huses, hc⟩ := valid_of_checkParameterConnection hstep hresult₁
      obtain ⟨uses₂, hstep', -, hsend₁, hreceive₁⟩ := checkParameterConnection_of_valid hc uses
      obtain rfl := Except.ok.inj (hstep.symm.trans hstep')
      refine ⟨huses, List.forall_mem_cons.mpr ⟨hc, hl⟩, fun p => ?_, fun p => ?_⟩
      · rw [hsend, hsend₁]
        simp only [List.mem_cons, exists_eq_or_imp, eq_comm (a := p)]
        exact or_left_comm.trans or_assoc.symm
      · rw [hreceive, hreceive₁]
        simp only [List.mem_cons, exists_eq_or_imp, eq_comm (a := p)]
        exact or_left_comm.trans or_assoc.symm

/-- The loop over valid connections reports nothing. -/
theorem foldlM_checkParameterConnection_complete {component : Component}
    {l : List ParameterConnection} (hl : ∀ c ∈ l, ParameterValid component c)
    (uses : ParameterUses) (huses : uses.result = true) :
    ∃ uses', l.foldlM (checkParameterConnection component) uses = .ok uses' ∧
      uses'.result = true := by
  induction l generalizing uses with
  | nil => exact ⟨uses, rfl, huses⟩
  | cons c l ih =>
    obtain ⟨hc, hl⟩ := List.forall_mem_cons.mp hl
    obtain ⟨uses₁, hstep, hresult, -⟩ := checkParameterConnection_of_valid hc uses
    obtain ⟨uses', hrest, hresult'⟩ := ih hl uses₁ (hresult.trans huses)
    refine ⟨uses', ?_, hresult'⟩
    rw [List.foldlM_cons, hstep]
    exact hrest

theorem checkUnconnected_result {component : Component} {kind : String} {check : CheckResult}
    {used available : PortTable ParameterPort} :
    (checkUnconnected component kind check used available).result = true ↔
      check.result = true ∧ ∀ p, p ∈ used ↔ p ∈ available := by
  have hsets : (used.all (· ∈ available) && (available.filter (· ∉ used)).isEmpty) = true ↔
      ∀ p, p ∈ used ↔ p ∈ available := by
    simp only [Bool.and_eq_true, List.all_eq_true, List.isEmpty_iff, List.filter_eq_nil_iff,
      decide_eq_true_eq, not_not]
    exact ⟨fun h p => ⟨h.1 p, h.2 p⟩, fun h => ⟨fun p => (h p).mp, fun p => (h p).mpr⟩⟩
  unfold checkUnconnected
  dsimp only
  split
  next h => rw [and_iff_left (hsets.mp h)]
  next h =>
    rw [hsets] at h
    simp [h]

/-- **The check of one level passes exactly when it is wired.** -/
theorem checkParameterConnectionsLocal_passes (component : Component) :
    Passes (checkParameterConnectionsLocal component) ↔ ParameterLevelWired component := by
  unfold checkParameterConnectionsLocal
  constructor
  · rintro ⟨check, h, hresult⟩
    rcases huses : component.parameterConnections.foldlM (checkParameterConnection component)
      ⟨.passed, [], []⟩ with e | uses
    · rw [huses] at h
      cases h
    · rw [huses] at h
      obtain rfl := Except.ok.inj h
      rw [checkUnconnected_result, checkUnconnected_result] at hresult
      obtain ⟨⟨hresult, hsends⟩, hreceives⟩ := hresult
      -- the ports that are used are those at the ends of valid connections
      obtain ⟨-, hvalid, hsend, hreceive⟩ := foldlM_checkParameterConnection_sound huses hresult
      refine ⟨hvalid, fun p hp => ?_, fun p hp => ?_⟩
      · have hused := (hsends p).mpr (mem_sendPorts.mpr hp)
        simpa using (hsend p).mp hused
      · have hused := (hreceives p).mpr (mem_receivePorts.mpr hp)
        simpa using (hreceive p).mp hused
  · intro hwired
    obtain ⟨uses, huses, hresult⟩ :=
      foldlM_checkParameterConnection_complete hwired.valid ⟨.passed, [], []⟩ rfl
    obtain ⟨-, -, hsend, hreceive⟩ := foldlM_checkParameterConnection_sound huses hresult
    rw [huses]
    refine ⟨_, rfl, ?_⟩
    rw [checkUnconnected_result, checkUnconnected_result]
    refine ⟨⟨hresult, fun p => ?_⟩, fun p => ?_⟩
    · rw [mem_sendPorts, hsend]
      simp only [List.not_mem_nil, or_false]
      refine ⟨?_, hwired.send p⟩
      rintro ⟨c, hc, rfl⟩
      exact (hwired.valid c hc).sender
    · rw [mem_receivePorts, hreceive]
      simp only [List.not_mem_nil, or_false]
      refine ⟨?_, hwired.receive p⟩
      rintro ⟨c, hc, rfl⟩
      exact (hwired.valid c hc).receiver

/-- Every level of the component is wired. -/
def ParameterWired (component : Component) : Prop :=
  ∀ c ∈ component.preorder, c.isComposite = true → ParameterLevelWired c

theorem parameterWired_composite {self aps pps comps acs pcs} :
    ParameterWired (.composite self aps pps comps acs pcs) ↔
      ParameterLevelWired (.composite self aps pps comps acs pcs) ∧
        ∀ c ∈ comps, ParameterWired c := by
  unfold ParameterWired
  rw [Component.preorder_eq, List.forall_mem_cons]
  refine and_congr ⟨fun h => h rfl, fun h _ => h⟩
    ⟨fun h c hc c' hc' => h c' (List.mem_flatMap.mpr ⟨c, hc, hc'⟩), ?_⟩
  intro h c' hc'
  obtain ⟨c, hc, hc'⟩ := List.mem_flatMap.mp hc'
  exact h c hc c' hc'

private theorem checkParameterComponents_passes {comps : List Component}
    (ih : ∀ c ∈ comps, Passes (checkParameterConnectionIntegrity c) ↔ ParameterWired c)
    (check : CheckResult) :
    Passes (checkParameterComponents check comps) ↔
      check.result = true ∧ ∀ c ∈ comps, ParameterWired c := by
  induction comps generalizing check with
  | nil => simp [checkParameterComponents, Passes]
  | cons c comps ihcomps =>
    obtain ⟨ihc, ih⟩ := List.forall_mem_cons.mp ih
    rw [checkParameterComponents, List.forall_mem_cons, ← ihc]
    rcases hc : checkParameterConnectionIntegrity c with e | componentResult
    · exact iff_of_false not_passes_error fun h => not_passes_error h.2.1
    · change Passes (checkParameterComponents (check.append componentResult) comps) ↔ _
      rw [ihcomps ih, passes_ok, CheckResult.append_result, Bool.and_eq_true, and_assoc]

/-- **The check of all levels passes exactly when all of them are wired.** -/
theorem checkParameterConnectionIntegrity_passes (component : Component) :
    Passes (checkParameterConnectionIntegrity component) ↔ ParameterWired component := by
  induction component using Component.induct with
  | atomic self aps pps =>
    refine iff_of_true ⟨_, rfl, rfl⟩ fun c hc hcomposite => ?_
    obtain rfl := List.mem_singleton.mp hc
    exact absurd hcomposite Bool.false_ne_true
  | composite self aps pps comps acs pcs ih =>
    rw [checkParameterConnectionIntegrity, parameterWired_composite,
      ← checkParameterConnectionsLocal_passes]
    rcases hlocal : checkParameterConnectionsLocal (.composite self aps pps comps acs pcs) with
      e | check
    · exact iff_of_false not_passes_error fun h => not_passes_error h.1
    · change Passes (checkParameterComponents check comps) ↔ _
      rw [checkParameterComponents_passes ih, passes_ok]

end Visr
