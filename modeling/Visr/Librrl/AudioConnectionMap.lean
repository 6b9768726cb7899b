import Visr.Library.Backtrace
import Visr.Librrl.PortUtilities

/-!
# Audio connection maps

The table of all channel-to-channel audio connections of a flow, how it is filled
from the connection tables of the composites, and how placeholder channels are
eliminated from it.

## Main results

* `fillLocal_result` — filling succeeds exactly on valid connections.
* `traceSender_spec` — what following the senders backwards returns.
* `resolvePlaceholders_exact` — the resolved map is the placeholder-free relation.
-/

namespace Visr

/-! ### Channels -/

/-- A single channel of an audio port. -/
structure AudioChannel where
  port : AudioPort
  channel : ℕ
  deriving DecidableEq, Repr

namespace AudioChannel

/-- The order of channels: by the address of the port, then by index. -/
def lt (a b : AudioChannel) : Bool :=
  a.port.address < b.port.address || (a.port.address == b.port.address && a.channel < b.channel)

/-- `[full port name]:[channel index]`. -/
def toString (c : AudioChannel) : String :=
  fullyQualifiedName c.port.toPortBase ++ ":" ++ c.channel.repr

/-- Whether the channel belongs to a placeholder port. -/
def isPlaceholder (c : AudioChannel) : Bool := isPlaceholderPort c.port.toPortBase

end AudioChannel

/-- All audio connections of a flow.  The entries are pairs of sender and receiver,
ordered by the sender. -/
abbrev AudioConnectionMap := List (AudioChannel × AudioChannel)

/-- The single-channel connections of a connection between ports. -/
def AudioConnection.channelPairs (connection : AudioConnection) :
    List (AudioChannel × AudioChannel) :=
  (connection.sendIndices.zip connection.receiveIndices).map fun i =>
    (⟨connection.sender, i.1⟩, ⟨connection.receiver, i.2⟩)

namespace AudioConnectionMap

/-- Insertion into the multimap, after the entries with the same key. -/
def insert (connection : AudioChannel × AudioChannel) (m : AudioConnectionMap) :
    AudioConnectionMap :=
  m.orderedInsert (fun a b => a.1.lt b.1) connection

/-- Insertion of a range of connections. -/
def insertAll (connections : List (AudioChannel × AudioChannel)) (m : AudioConnectionMap) :
    AudioConnectionMap :=
  connections.foldl (fun m connection => insert connection m) m

theorem insert_perm (connection : AudioChannel × AudioChannel) (m : AudioConnectionMap) :
    (insert connection m).Perm (connection :: m) :=
  List.perm_orderedInsert _ _ _

theorem insertAll_perm (connections : List (AudioChannel × AudioChannel))
    (m : AudioConnectionMap) : (insertAll connections m).Perm (connections ++ m) := by
  induction connections generalizing m with
  | nil => exact List.Perm.refl m
  | cons c connections ih =>
    calc insertAll (c :: connections) m
        = insertAll connections (insert c m) := rfl
      _ |>.Perm (connections ++ insert c m) := ih _
      _ |>.Perm (connections ++ c :: m) := (insert_perm c m).append_left _
      _ |>.Perm (c :: connections ++ m) := List.perm_middle

/-- The entry for a receiving channel. -/
def findReceiveChannel (m : AudioConnectionMap) (signal : AudioChannel) :
    Option (AudioChannel × AudioChannel) :=
  m.find? fun entry => entry.2 == signal

/-! ### Filling the map -/

/-- The state of `fillRecursive`: its result so far with the messages written, and the
connections inserted. -/
structure Fill extends CheckResult where
  connections : AudioConnectionMap

/-- Reports a problem. -/
def Fill.fail (acc : Fill) (message : String) : Fill :=
  { acc with toCheckResult := acc.toCheckResult.fail message }

/-- Whether the largest of the channel indices is not below the port width.  The
source looks for the maximum of non-empty lists only. -/
def exceedsWidth (indices : List ℕ) (width : ℕ) : Bool :=
  match indices.max? with
  | some maxIndex => maxIndex ≥ width
  | none => false

/-- The body of the loop of `fillRecursive` over the connections of a composite. -/
def fillConnection (composite : Component) (acc : Fill) (connection : AudioConnection) : Fill :=
  let localPorts : PortLookup AudioPort := PortLookup.localPorts composite
  let sendName := qualifiedName connection.sender.toPortBase
  let receiveName := qualifiedName connection.receiver.toPortBase
  if connection.sender ∉ localPorts.allNonPlaceholderSendPorts then
    acc.fail ("Audio signal flow connection check: In component \"" ++ composite.self.fullName ++
      "\", the send port \"" ++ sendName ++ "\" is not found.\n")
  else if connection.receiver ∉ localPorts.allNonPlaceholderReceivePorts then
    acc.fail ("Audio signal flow connection check: In component \"" ++ composite.self.fullName ++
      "\", the receive port \"" ++ receiveName ++ "\" is not found.\n")
  else if connection.receiveIndices.length ≠ connection.sendIndices.length then
    acc.fail ("Audio signal flow connection check: The channel index vectors of the connection " ++
      "\"" ++ sendName ++ "->" ++ receiveName ++ " have different sizes.\n")
  else if exceedsWidth connection.sendIndices connection.sender.width then
    acc.fail ("Audio signal flow connection check: The send channel index of the connection \"" ++
      sendName ++ "->" ++ receiveName ++ "\" exceeds the width of the send port.\n")
  else if exceedsWidth connection.receiveIndices connection.receiver.width then
    acc.fail ("Audio signal flow connection check: The receive channel index of the connection " ++
      "\"" ++ sendName ++ "->" ++ receiveName ++ "\" exceeds the width of the receive port.\n")
  else
    { acc with connections := insertAll connection.channelPairs acc.connections }

/-- The connections of one level of the hierarchy. -/
def fillLocal (composite : Component) (acc : Fill) : Fill :=
  composite.audioConnections.foldl (fillConnection composite) acc

mutual

/-- `fillRecursive` with `recursive = true`.  It is only entered while the result is
still `true`. -/
def fillRecursive (acc : Fill) : Component → Fill
  | .atomic .. => acc
  | .composite self aps pps comps acs pcs =>
    fillComponents (fillLocal (.composite self aps pps comps acs pcs) acc) comps

/-- The loop over the children, `result = result and fillRecursive( ... )`. -/
def fillComponents (acc : Fill) : List Component → Fill
  | [] => acc
  | c :: comps =>
    if acc.result then fillComponents (fillRecursive acc c) comps
    else fillComponents acc comps

end

/-- Fills an empty map with the connections of a component. -/
def fill (component : Component) (recursive : Bool) : Fill :=
  let acc : Fill := ⟨.passed, []⟩
  if recursive then fillRecursive acc component else fillLocal component acc

/-! ### What filling accepts and inserts -/

/-- What `fillConnection` demands of a connection of a composite: both ports exist on
its level, and the index lists are equally long and stay within the port widths. -/
structure Valid (composite : Component) (connection : AudioConnection) : Prop where
  sender : connection.sender ∈
    (PortLookup.localPorts composite : PortLookup AudioPort).allNonPlaceholderSendPorts
  receiver : connection.receiver ∈
    (PortLookup.localPorts composite : PortLookup AudioPort).allNonPlaceholderReceivePorts
  sizes : connection.receiveIndices.length = connection.sendIndices.length
  sendIndices : ∀ i ∈ connection.sendIndices, i < connection.sender.width
  receiveIndices : ∀ i ∈ connection.receiveIndices, i < connection.receiver.width

@[simp] theorem Fill.fail_result (acc : Fill) (message : String) :
    (acc.fail message).result = false := rfl

@[simp] theorem Fill.fail_connections (acc : Fill) (message : String) :
    (acc.fail message).connections = acc.connections := rfl

theorem exceedsWidth_iff {indices : List ℕ} {width : ℕ} :
    exceedsWidth indices width = false ↔ ∀ i ∈ indices, i < width := by
  unfold exceedsWidth
  rcases hmax : indices.max? with _ | maxIndex
  · rw [List.max?_eq_none_iff.mp hmax]
    simp
  · rw [decide_eq_false_iff_not]
    constructor
    · intro h i hi
      exact lt_of_le_of_lt ((List.max?_le_iff hmax).mp le_rfl i hi) (Nat.not_le.mp h)
    · intro h
      exact Nat.not_le.mpr (h maxIndex (List.max?_mem hmax))

/-- A valid connection is inserted channel by channel. -/
theorem fillConnection_of_valid {composite : Component} {connection : AudioConnection}
    (h : Valid composite connection) (acc : Fill) :
    fillConnection composite acc connection =
      { acc with connections := insertAll connection.channelPairs acc.connections } := by
  have hsend := exceedsWidth_iff.mpr h.sendIndices
  have hreceive := exceedsWidth_iff.mpr h.receiveIndices
  simp [fillConnection, h.sender, h.receiver, h.sizes, hsend, hreceive]

/-- An invalid connection is reported and left out. -/
theorem fillConnection_of_not_valid {composite : Component} {connection : AudioConnection}
    (h : ¬ Valid composite connection) (acc : Fill) :
    ∃ message, fillConnection composite acc connection = acc.fail message := by
  unfold fillConnection
  by_cases hsender : connection.sender ∉
      (PortLookup.localPorts composite : PortLookup AudioPort).allNonPlaceholderSendPorts
  · exact ⟨_, if_pos hsender⟩
  by_cases hreceiver : connection.receiver ∉
      (PortLookup.localPorts composite : PortLookup AudioPort).allNonPlaceholderReceivePorts
  · exact ⟨_, (if_neg hsender).trans (if_pos hreceiver)⟩
  by_cases hsizes : connection.receiveIndices.length ≠ connection.sendIndices.length
  · exact ⟨_, (if_neg hsender).trans ((if_neg hreceiver).trans (if_pos hsizes))⟩
  simp only [if_neg hsender, if_neg hreceiver, if_neg hsizes]
  split
  · exact ⟨_, rfl⟩
  next hsend =>
    split
    · exact ⟨_, rfl⟩
    next hreceive =>
      rw [not_not] at hsender hreceiver hsizes
      rw [Bool.not_eq_true, exceedsWidth_iff] at hsend hreceive
      exact absurd ⟨hsender, hreceiver, hsizes, hsend, hreceive⟩ h

/-- Filling one level succeeds exactly when all its connections are valid. -/
theorem fillLocal_result (composite : Component) (acc : Fill) :
    (fillLocal composite acc).result = true ↔
      acc.result = true ∧ ∀ c ∈ composite.audioConnections, Valid composite c := by
  unfold fillLocal
  induction composite.audioConnections generalizing acc with
  | nil => simp
  | cons c connections ih =>
    rw [List.foldl_cons, ih, List.forall_mem_cons]
    by_cases h : Valid composite c
    · rw [fillConnection_of_valid h]
      simp [h]
    · obtain ⟨message, hfail⟩ := fillConnection_of_not_valid h acc
      rw [hfail]
      simp [h]

/-- The connections inserted by a successful filling of one level. -/
theorem fillLocal_connections {composite : Component}
    (hvalid : ∀ c ∈ composite.audioConnections, Valid composite c) (acc : Fill) :
    (fillLocal composite acc).connections.Perm
      (composite.audioConnections.flatMap AudioConnection.channelPairs ++ acc.connections) := by
  unfold fillLocal
  revert hvalid
  induction composite.audioConnections generalizing acc with
  | nil => exact fun _ => List.Perm.refl _
  | cons c connections ih =>
    intro hvalid
    obtain ⟨hc, hvalid⟩ := List.forall_mem_cons.mp hvalid
    rw [List.foldl_cons, fillConnection_of_valid hc]
    refine (ih _ hvalid).trans ?_
    rw [List.flatMap_cons, List.append_assoc]
    refine ((insertAll_perm _ _).append_left _).trans ?_
    rw [← List.append_assoc, ← List.append_assoc]
    exact List.perm_append_comm.append_right _

/-- The single-channel connections of all levels of a component. -/
def allPairs (component : Component) : List (AudioChannel × AudioChannel) :=
  component.preorder.flatMap fun c => c.audioConnections.flatMap AudioConnection.channelPairs

theorem allPairs_eq (component : Component) :
    allPairs component =
      component.audioConnections.flatMap AudioConnection.channelPairs ++
        component.components.flatMap allPairs := by
  unfold allPairs
  rw [Component.preorder_eq, List.flatMap_cons, List.flatMap_assoc]

/-- The connections of all levels are valid. -/
def LevelsValid (component : Component) : Prop :=
  ∀ c ∈ component.preorder, ∀ connection ∈ c.audioConnections, Valid c connection

theorem levelsValid_iff (component : Component) :
    LevelsValid component ↔ (∀ c ∈ component.audioConnections, Valid component c) ∧
      ∀ c ∈ component.components, LevelsValid c := by
  unfold LevelsValid
  rw [Component.preorder_eq, List.forall_mem_cons]
  refine and_congr Iff.rfl ⟨fun h c hc c' hc' => h c' (List.mem_flatMap.mpr ⟨c, hc, hc'⟩), ?_⟩
  intro h c' hc'
  obtain ⟨c, hc, hc'⟩ := List.mem_flatMap.mp hc'
  exact h c hc c' hc'

private theorem fillComponents_result {comps : List Component}
    (ih : ∀ c ∈ comps, ∀ acc : Fill, (fillRecursive acc c).result = true ↔
      acc.result = true ∧ LevelsValid c) (acc : Fill) :
    (fillComponents acc comps).result = true ↔
      acc.result = true ∧ ∀ c ∈ comps, LevelsValid c := by
  induction comps generalizing acc with
  | nil => simp [fillComponents]
  | cons c comps ihcomps =>
    obtain ⟨ihc, ih⟩ := List.forall_mem_cons.mp ih
    rw [fillComponents, List.forall_mem_cons]
    split
    · rw [ihcomps ih, ihc, and_assoc]
    next hacc => rw [ihcomps ih]; simp [hacc]

/-- Filling succeeds exactly when the connections of all levels are valid. -/
theorem fillRecursive_result (component : Component) (acc : Fill) :
    (fillRecursive acc component).result = true ↔
      acc.result = true ∧ LevelsValid component := by
  induction component using Component.induct generalizing acc with
  | atomic self aps pps =>
    rw [fillRecursive, levelsValid_iff]
    simp [Component.audioConnections, Component.components]
  | composite self aps pps comps acs pcs ih =>
    rw [fillRecursive, fillComponents_result ih, fillLocal_result, levelsValid_iff, and_assoc]
    rfl

private theorem fillComponents_connections {comps : List Component}
    (ih : ∀ c ∈ comps, LevelsValid c → ∀ acc : Fill, acc.result = true →
      (fillRecursive acc c).connections.Perm (allPairs c ++ acc.connections))
    (hvalid : ∀ c ∈ comps, LevelsValid c) (acc : Fill) (hacc : acc.result = true) :
    (fillComponents acc comps).connections.Perm (comps.flatMap allPairs ++ acc.connections) := by
  induction comps generalizing acc with
  | nil => exact List.Perm.refl _
  | cons c comps ihcomps =>
    obtain ⟨ihc, ih⟩ := List.forall_mem_cons.mp ih
    obtain ⟨hc, hvalid⟩ := List.forall_mem_cons.mp hvalid
    have hres : (fillRecursive acc c).result = true := (fillRecursive_result c acc).mpr ⟨hacc, hc⟩
    rw [fillComponents, if_pos hacc, List.flatMap_cons, List.append_assoc]
    refine (ihcomps ih hvalid _ hres).trans (((ihc hc acc hacc).append_left _).trans ?_)
    rw [← List.append_assoc, ← List.append_assoc]
    exact List.perm_append_comm.append_right _

/-- A successful filling inserts the connections of all levels. -/
theorem fillRecursive_connections (component : Component) (hvalid : LevelsValid component)
    (acc : Fill) (hacc : acc.result = true) :
    (fillRecursive acc component).connections.Perm (allPairs component ++ acc.connections) := by
  induction component using Component.induct generalizing acc with
  | atomic self aps pps => exact List.Perm.refl _
  | composite self aps pps comps acs pcs ih =>
    obtain ⟨hlocal, hcomps⟩ := (levelsValid_iff _).mp hvalid
    have hres := (fillLocal_result (.composite self aps pps comps acs pcs) acc).mpr
      ⟨hacc, hlocal⟩
    rw [fillRecursive, allPairs_eq, List.append_assoc]
    refine (fillComponents_connections ih hcomps _ hres).trans ?_
    refine ((fillLocal_connections hlocal acc).append_left _).trans ?_
    rw [← List.append_assoc, ← List.append_assoc]
    exact List.perm_append_comm.append_right _

/-! ### Elimination of placeholders -/

/-- The ways in which `resolvePlaceholders` throws.  `outOfFuel` is not one of them: it
stands for a trace that goes on beyond the fuel of `traceSender`. -/
inductive ResolveError
  | unconnectedReceivePort
  | findReceiveChannelFailed
  | loopDetected (connectionTrace : List AudioChannel) (found : AudioChannel)
  | outOfFuel
  deriving DecidableEq, Repr

/-- The exception with its text, as far as the source throws one. -/
def ResolveError.exception : ResolveError → Option Exception
  | unconnectedReceivePort =>
    some (.invalidArgument "Unexpected error: unconnected receive port.")
  | findReceiveChannelFailed =>
    some (.logicError "rrl::AudioCOnnectionMap: findReceiveChannel() failed.")
  | loopDetected connectionTrace found =>
    some (.invalidArgument ("Detected loop in audio placeholder connections: " ++
      String.join (connectionTrace.map fun c => c.toString ++ " -> ") ++ found.toString))
  | outOfFuel => none

/-- The endless loop of `resolvePlaceholders`, which follows the senders backwards from
a placeholder.  The trace is kept with its last channel first, the order in which the
source prints it. -/
def traceSender (m : AudioConnectionMap) :
    ℕ → Option (AudioChannel × AudioChannel) → List AudioChannel →
    Except ResolveError AudioChannel
  | 0, _, _ => .error .outOfFuel
  | _ + 1, none, _ => .error .unconnectedReceivePort
  | fuel + 1, some entry, connectionTrace =>
    if !entry.1.isPlaceholder then .ok entry.1
    else
      let connectionTrace := entry.1 :: connectionTrace
      match m.findReceiveChannel entry.1 with
      | none => .error .findReceiveChannelFailed
      | some found =>
        if found.1 ∈ connectionTrace then .error (.loopDetected connectionTrace found.1)
        else traceSender m fuel (some found) connectionTrace

/-- The body of the loop over all connections. -/
def resolveConnection (m : AudioConnectionMap) (resolvedTable : AudioConnectionMap)
    (rawConnection : AudioChannel × AudioChannel) : Except ResolveError AudioConnectionMap :=
  if rawConnection.2.isPlaceholder then .ok resolvedTable
  else if !rawConnection.1.isPlaceholder then .ok (insert rawConnection resolvedTable)
  else do
    -- the trace visits an entry at most once, so this fuel is never used up
    let sender ← m.traceSender (m.length + 1) (m.findReceiveChannel rawConnection.1)
      [rawConnection.1]
    return insert (sender, rawConnection.2) resolvedTable

/-- The connections that remain when all placeholders are bypassed. -/
def resolvePlaceholders (m : AudioConnectionMap) : Except ResolveError AudioConnectionMap :=
  m.foldlM (resolveConnection m) []

/-! ### Following the senders backwards -/

/-- Every receiving channel has at most one sender. -/
def SingleSender (m : AudioConnectionMap) : Prop :=
  ∀ e ∈ m, ∀ e' ∈ m, e.2 = e'.2 → e.1 = e'.1

/-- `a` feeds `b` directly. -/
def Connects (m : AudioConnectionMap) (a b : AudioChannel) : Prop := (a, b) ∈ m

/-- `a` feeds `b` through any number of placeholders. -/
def Feeds (m : AudioConnectionMap) : AudioChannel → AudioChannel → Prop :=
  Backtrace.Via m.Connects fun c => c.isPlaceholder = true

/-- Tracing back from `r` revisits a placeholder channel. -/
def TraceLoops (m : AudioConnectionMap) (r : AudioChannel) : Prop :=
  ∃ p, p.isPlaceholder = true ∧ m.Feeds p r ∧ m.Feeds p p

/-- Tracing back from `r` arrives at a placeholder channel without a sender. -/
def TraceDangles (m : AudioConnectionMap) (r : AudioChannel) : Prop :=
  ∃ p, p.isPlaceholder = true ∧ m.Feeds p r ∧ ∀ a, ¬ m.Connects a p

/-- The sender found for a receiving channel. -/
def senderOf (m : AudioConnectionMap) (c : AudioChannel) : Option AudioChannel :=
  (m.findReceiveChannel c).map Prod.fst

theorem findReceiveChannel_eq_some {m : AudioConnectionMap} {c : AudioChannel}
    {e : AudioChannel × AudioChannel} (h : m.findReceiveChannel c = some e) : e ∈ m ∧ e.2 = c :=
  ⟨List.mem_of_find?_eq_some h, by simpa using List.find?_some h⟩

theorem findReceiveChannel_eq_none {m : AudioConnectionMap} {c : AudioChannel} :
    m.findReceiveChannel c = none ↔ ∀ a, ¬ m.Connects a c := by
  unfold findReceiveChannel Connects
  rw [List.find?_eq_none]
  constructor
  · intro h a ha
    exact h (a, c) ha (beq_self_eq_true c)
  · rintro h ⟨a, b⟩ hab hb
    obtain rfl : b = c := eq_of_beq hb
    exact h a hab

/-- With single senders, the connections are the edges of `senderOf`. -/
theorem senderOf_eq_some_iff {m : AudioConnectionMap} (hm : m.SingleSender)
    {a b : AudioChannel} : m.senderOf b = some a ↔ m.Connects a b := by
  unfold senderOf
  constructor
  · intro h
    obtain ⟨⟨a', b'⟩, he, rfl⟩ := Option.map_eq_some_iff.mp h
    obtain ⟨hmem, rfl⟩ := findReceiveChannel_eq_some he
    exact hmem
  · intro h
    rcases hfind : m.findReceiveChannel b with _ | e
    · exact absurd h (findReceiveChannel_eq_none.mp hfind a)
    · obtain ⟨hmem, hb⟩ := findReceiveChannel_eq_some hfind
      exact congrArg some (hm e hmem (a, b) h hb)

/-- What an outcome of `traceSender` says about the channel `r` it started from. -/
def TraceOutcome (m : AudioConnectionMap) (r : AudioChannel) :
    Except ResolveError AudioChannel → Prop
  | .ok s => s.isPlaceholder = false ∧ m.Feeds s r
  | .error .outOfFuel => False
  | .error _ => m.TraceLoops r ∨ m.TraceDangles r

/-- `resolved` is `table` with one more entry for each connection of `l` that ends at a
concrete channel, from the concrete channel that feeds it. -/
structure Extended (m : AudioConnectionMap) (l : List (AudioChannel × AudioChannel))
    (table resolved : AudioConnectionMap) : Prop where
  fed : ∀ e ∈ l, e.2.isPlaceholder = false → ∃ s, s.isPlaceholder = false ∧ m.Feeds s e.2
  mem_iff : ∀ s r, (s, r) ∈ resolved ↔ (s, r) ∈ table ∨ r ∈ l.map Prod.snd ∧
    s.isPlaceholder = false ∧ r.isPlaceholder = false ∧ m.Feeds s r
  count : ∀ r, r.isPlaceholder = false →
    (resolved.map Prod.snd).count r = (table.map Prod.snd).count r + (l.map Prod.snd).count r

section SingleSender

variable {m : AudioConnectionMap} (hm : m.SingleSender)

include hm

theorem feeds_eq : m.Feeds = Backtrace.Via (Backtrace.Back m.senderOf)
    fun c => c.isPlaceholder = true := by
  have hedge : m.Connects = Backtrace.Back m.senderOf := by
    funext a b
    exact propext (senderOf_eq_some_iff hm).symm
  rw [Feeds, hedge]

theorem traceLoops_iff {r : AudioChannel} :
    m.TraceLoops r ↔ Backtrace.HitsCycle m.senderOf (fun c => c.isPlaceholder = true) r := by
  rw [TraceLoops, feeds_eq hm]
  rfl

theorem traceDangles_iff {r : AudioChannel} :
    m.TraceDangles r ↔ Backtrace.HitsEnd m.senderOf (fun c => c.isPlaceholder = true) r := by
  rw [TraceDangles, feeds_eq hm]
  refine exists_congr fun p => and_congr_right fun _ => and_congr_right fun _ => ?_
  rw [senderOf, Option.map_eq_none_iff, findReceiveChannel_eq_none]

/-- A receiving channel that is fed by a concrete channel is not in trouble. -/
theorem not_trouble_of_feeds {s r : AudioChannel} (hs : s.isPlaceholder = false)
    (h : m.Feeds s r) : ¬ (m.TraceLoops r ∨ m.TraceDangles r) := by
  have hs' : ¬ s.isPlaceholder = true := by
    rw [hs]
    exact Bool.false_ne_true
  rw [feeds_eq hm] at h
  rw [traceLoops_iff hm, traceDangles_iff hm, not_or]
  exact ⟨Backtrace.not_hitsCycle_of_via hs' h, Backtrace.not_hitsEnd_of_via hs' h⟩

/-- At most one concrete channel feeds a receiving channel. -/
theorem feeds_unique {s s' r : AudioChannel} (hs : s.isPlaceholder = false)
    (hs' : s'.isPlaceholder = false) (h : m.Feeds s r) (h' : m.Feeds s' r) : s = s' := by
  rw [feeds_eq hm] at h h'
  exact Backtrace.Via.unique (by rw [hs]; exact Bool.false_ne_true)
    (by rw [hs']; exact Bool.false_ne_true) h h'

/-- From a trace without repetitions, `traceSender` either finds the concrete sender of
the channel it started from or notices that there is none.  It never takes more steps
than the map has entries. -/
theorem traceSender_of_nodup {r : AudioChannel} (fuel : ℕ) {c : AudioChannel}
    {trace : List AudioChannel}
    (htrail : Backtrace.Trail m.senderOf (fun c => c.isPlaceholder = true) r (c :: trace))
    (hnodup : (c :: trace).Nodup) (hmem : ∀ p ∈ c :: trace, p ∈ m.map Prod.fst)
    (hnew : ∀ e, m.findReceiveChannel c = some e → e.1 ∉ c :: trace)
    (hfuel : m.length < fuel + (c :: trace).length) :
    m.TraceOutcome r (m.traceSender fuel (m.findReceiveChannel c) (c :: trace)) := by
  induction fuel generalizing c trace with
  | zero =>
    -- more channels than the map has senders
    have hsub : (c :: trace).Subperm (m.map Prod.fst) := List.subperm_of_subset hnodup hmem
    have hlen := hsub.length_le
    rw [List.length_map] at hlen
    omega
  | succ fuel ih =>
    obtain ⟨hc, hvia⟩ := htrail.via_head
    rw [← feeds_eq hm] at hvia
    rcases hfind : m.findReceiveChannel c with _ | e
    · exact Or.inr ⟨c, hc, hvia, findReceiveChannel_eq_none.mp hfind⟩
    obtain ⟨hem, hec⟩ := findReceiveChannel_eq_some hfind
    have hnext : m.senderOf c = some e.1 := by rw [senderOf, hfind]; rfl
    have hconn : m.Connects e.1 c := (senderOf_eq_some_iff hm).mp hnext
    have hfeeds : m.Feeds e.1 r := Backtrace.Via.cons hconn hc hvia
    rw [traceSender]
    split
    next hvisible => exact ⟨by simpa using hvisible, hfeeds⟩
    next hhidden =>
      have hp : e.1.isPlaceholder = true := by simpa using hhidden
      have htrail' := htrail.cons hnext hp
      have hnodup' : (e.1 :: c :: trace).Nodup := List.nodup_cons.mpr ⟨hnew e hfind, hnodup⟩
      have hmem' : ∀ p ∈ e.1 :: c :: trace, p ∈ m.map Prod.fst :=
        List.forall_mem_cons.mpr ⟨List.mem_map_of_mem hem, hmem⟩
      rcases hfind' : m.findReceiveChannel e.1 with _ | found
      · exact Or.inr ⟨e.1, hp, hfeeds, findReceiveChannel_eq_none.mp hfind'⟩
      by_cases hfound : found.1 ∈ e.1 :: c :: trace
      · simp only [if_pos hfound]
        have hnext' : m.senderOf e.1 = some found.1 := by rw [senderOf, hfind']; rfl
        have hp' := (htrail'.via_of_mem hfound).1
        have hdup : ¬ (found.1 :: e.1 :: c :: trace).Nodup :=
          fun h => (List.nodup_cons.mp h).1 hfound
        exact Or.inl ((traceLoops_iff hm).mpr ((htrail'.cons hnext' hp').hitsCycle_of_not_nodup hdup))
      · simp only [if_neg hfound]
        rw [← hfind']
        refine ih htrail' hnodup' hmem' ?_ ?_
        · intro e' he'
          rw [hfind'] at he'
          obtain rfl := Option.some.inj he'
          exact hfound
        · rw [List.length_cons]
          omega

/-- The trace of a connection whose sender is a placeholder. -/
theorem traceSender_spec {p r : AudioChannel} (hp : p.isPlaceholder = true)
    (hpr : m.Connects p r) :
    m.TraceOutcome r (m.traceSender (m.length + 1) (m.findReceiveChannel p) [p]) := by
  have hnext : m.senderOf r = some p := (senderOf_eq_some_iff hm).mpr hpr
  have htrail : Backtrace.Trail m.senderOf (fun c => c.isPlaceholder = true) r [p] :=
    Backtrace.Trail.nil.cons hnext hp
  by_cases hself : m.Connects p p
  · -- a placeholder connected to itself is noticed one step later than other loops
    have hnext' : m.senderOf p = some p := (senderOf_eq_some_iff hm).mpr hself
    obtain ⟨e, hfind, he⟩ := Option.map_eq_some_iff.mp hnext'
    have hloop : m.TraceLoops r :=
      ⟨p, hp, Backtrace.Via.single hpr, Backtrace.Via.single hself⟩
    rw [hfind, traceSender]
    have hvisit : p ∈ [p, p] := List.mem_cons_self
    simp only [he, hp, hfind, Bool.not_true, Bool.false_eq_true, if_false, if_pos hvisit]
    exact Or.inl hloop
  · refine traceSender_of_nodup hm _ htrail (List.nodup_singleton p) ?_ ?_ ?_
    · rintro q hq
      obtain rfl := List.mem_singleton.mp hq
      exact List.mem_map_of_mem hpr
    · intro e he hmem
      have he1 : e.1 = p := List.mem_singleton.mp hmem
      apply hself
      rw [← senderOf_eq_some_iff hm, senderOf, he, Option.map_some, he1]
    · rw [List.length_singleton]
      omega

/-- What one step of the loop over all connections does. -/
theorem resolveConnection_cases {e : AudioChannel × AudioChannel} (he : e ∈ m)
    (table : AudioConnectionMap) :
    (e.2.isPlaceholder = true ∧ resolveConnection m table e = .ok table) ∨
    (e.2.isPlaceholder = false ∧ ∃ s, s.isPlaceholder = false ∧ m.Feeds s e.2 ∧
      resolveConnection m table e = .ok (insert (s, e.2) table)) ∨
    (e.2.isPlaceholder = false ∧ (m.TraceLoops e.2 ∨ m.TraceDangles e.2) ∧
      ∃ err, err ≠ .outOfFuel ∧ resolveConnection m table e = .error err) := by
  unfold resolveConnection
  rcases hr : e.2.isPlaceholder with _ | _
  · right
    rcases hs : e.1.isPlaceholder with _ | _
    · exact Or.inl ⟨rfl, e.1, hs, Backtrace.Via.single he, by simp⟩
    · have hspec := traceSender_spec hm hs (show m.Connects e.1 e.2 from he)
      rcases htrace : m.traceSender (m.length + 1) (m.findReceiveChannel e.1) [e.1] with err | s
      · rw [htrace] at hspec
        refine Or.inr ⟨rfl, ?_, err, ?_, by simp⟩
        · cases err with
          | outOfFuel => exact hspec.elim
          | _ => exact hspec
        · rintro rfl
          exact hspec
      · rw [htrace] at hspec
        exact Or.inl ⟨rfl, s, hspec.1, hspec.2, by simp⟩
  · exact Or.inl ⟨rfl, by simp⟩

omit hm in
/-- A connection ending at a placeholder adds nothing. -/
theorem Extended.skip {l table resolved} {e : AudioChannel × AudioChannel}
    (hr : e.2.isPlaceholder = true) (h : m.Extended l table resolved) :
    m.Extended (e :: l) table resolved where
  fed := by
    rw [List.forall_mem_cons]
    refine ⟨fun hr' => ?_, h.fed⟩
    rw [hr] at hr'
    exact absurd hr'.symm Bool.false_ne_true
  mem_iff s r := by
    rw [h.mem_iff, List.map_cons, List.mem_cons]
    have hne : r.isPlaceholder = false → r ≠ e.2 := by
      rintro hr' rfl
      simp [hr] at hr'
    tauto
  count r hr' := by
    rw [h.count r hr', List.map_cons, List.count_cons_of_ne]
    rintro rfl
    simp [hr] at hr'

/-- A connection ending at a concrete channel adds one entry. -/
theorem Extended.step {l table resolved} {e : AudioChannel × AudioChannel} {s₀ : AudioChannel}
    (hr : e.2.isPlaceholder = false) (hs₀ : s₀.isPlaceholder = false) (hfeeds : m.Feeds s₀ e.2)
    (h : m.Extended l (insert (s₀, e.2) table) resolved) : m.Extended (e :: l) table resolved where
  fed := List.forall_mem_cons.mpr ⟨fun _ => ⟨s₀, hs₀, hfeeds⟩, h.fed⟩
  mem_iff s r := by
    rw [h.mem_iff, (insert_perm _ _).mem_iff, List.mem_cons, List.map_cons, List.mem_cons,
      Prod.mk.injEq]
    have huniq : r = e.2 → s.isPlaceholder = false → m.Feeds s r → s = s₀ := by
      rintro rfl hs hsr
      exact feeds_unique hm hs hs₀ hsr hfeeds
    constructor
    · rintro ((⟨rfl, rfl⟩ | hmem) | ⟨hmem, hrest⟩)
      · exact Or.inr ⟨Or.inl rfl, hs₀, hr, hfeeds⟩
      · exact Or.inl hmem
      · exact Or.inr ⟨Or.inr hmem, hrest⟩
    · rintro (hmem | ⟨hmem, hs, hr', hsr⟩)
      · exact Or.inl (Or.inr hmem)
      · rcases hmem with hmem | hmem
        · exact Or.inl (Or.inl ⟨huniq hmem hs hsr, hmem⟩)
        · exact Or.inr ⟨hmem, hs, hr', hsr⟩
  count r hr' := by
    rw [h.count r hr', ((insert_perm _ _).map Prod.snd).count_eq, List.map_cons, List.map_cons,
      List.count_cons, List.count_cons]
    dsimp only
    omega

/-- The loop over the connections `l`: it stops at a receiving channel whose trace loops
or dangles, or extends the table by one entry for each connection that ends at a
concrete channel. -/
theorem foldlM_resolveConnection {l : List (AudioChannel × AudioChannel)} (hl : l ⊆ m)
    (table : AudioConnectionMap) :
    (∃ e ∈ l, e.2.isPlaceholder = false ∧ (m.TraceLoops e.2 ∨ m.TraceDangles e.2) ∧
      ∃ err, err ≠ .outOfFuel ∧ l.foldlM (resolveConnection m) table = .error err) ∨
    ∃ resolved, l.foldlM (resolveConnection m) table = .ok resolved ∧
      m.Extended l table resolved := by
  induction l generalizing table with
  | nil => exact Or.inr ⟨table, rfl, by simp, by simp, by simp⟩
  | cons e l ih =>
    obtain ⟨he, hl⟩ := List.cons_subset.mp hl
    rw [List.foldlM_cons]
    rcases resolveConnection_cases hm he table with
      ⟨hr, hstep⟩ | ⟨hr, s₀, hs₀, hfeeds, hstep⟩ | ⟨hr, htrouble, err, herr, hstep⟩
    · rw [hstep]
      rcases ih hl table with ⟨e', he', hrest⟩ | ⟨resolved, hok, hext⟩
      · exact Or.inl ⟨e', List.mem_cons_of_mem _ he', hrest⟩
      · exact Or.inr ⟨resolved, hok, hext.skip hr⟩
    · rw [hstep]
      rcases ih hl (insert (s₀, e.2) table) with ⟨e', he', hrest⟩ | ⟨resolved, hok, hext⟩
      · exact Or.inl ⟨e', List.mem_cons_of_mem _ he', hrest⟩
      · exact Or.inr ⟨resolved, hok, hext.step hm hr hs₀ hfeeds⟩
    · refine Or.inl ⟨e, List.mem_cons_self, hr, htrouble, err, herr, ?_⟩
      rw [hstep]
      rfl

end SingleSender

/-- **Resolution is exact.**  If no receiving channel has two senders, the resolution
comes to an end; it throws if and only if the trace from some concrete receiving
channel loops through placeholders or ends at an unconnected one; and otherwise the
result relates a concrete sender to a concrete receiver if and only if the map leads
from one to the other through placeholders, with as many entries for each receiver as
before. -/
theorem resolvePlaceholders_exact (m : AudioConnectionMap) (hm : m.SingleSender) :
    m.resolvePlaceholders ≠ .error .outOfFuel ∧
    ((∃ err, m.resolvePlaceholders = .error err) ↔
      ∃ r, r.isPlaceholder = false ∧ (m.TraceLoops r ∨ m.TraceDangles r)) ∧
    ∀ resolved, m.resolvePlaceholders = .ok resolved →
      (∀ s r, (s, r) ∈ resolved ↔
        s.isPlaceholder = false ∧ r.isPlaceholder = false ∧ m.Feeds s r) ∧
      ∀ r, r.isPlaceholder = false →
        (resolved.map Prod.snd).count r = (m.map Prod.snd).count r := by
  have hreceives : ∀ {s r}, m.Feeds s r → ∃ e ∈ m, e.2 = r := by
    intro s r h
    obtain ⟨p, hp, -⟩ := h.exists_last
    exact ⟨(p, r), hp, rfl⟩
  have hrun := foldlM_resolveConnection hm (List.Subset.refl m) []
  change (∃ e ∈ m, _ ∧ _ ∧ ∃ err, _ ∧ m.resolvePlaceholders = .error err) ∨
    ∃ resolved, m.resolvePlaceholders = .ok resolved ∧ _ at hrun
  rcases hrun with ⟨e, -, hr, htrouble, err, herr, hres⟩ | ⟨resolved, hres, hext⟩
  · rw [hres]
    refine ⟨fun h => herr (Except.error.inj h), ?_, fun _ h => by cases h⟩
    exact iff_of_true ⟨err, rfl⟩ ⟨e.2, hr, htrouble⟩
  · rw [hres]
    refine ⟨by simp, iff_of_false (by simp) ?_, ?_⟩
    · -- a receiver in trouble would have been met on the way
      rintro ⟨r, hr, htrouble⟩
      have hfed : ∃ p, m.Feeds p r := by
        rcases htrouble with ⟨p, -, h, -⟩ | ⟨p, -, h, -⟩
        · exact ⟨p, h⟩
        · exact ⟨p, h⟩
      obtain ⟨p, hpr⟩ := hfed
      obtain ⟨e, he, rfl⟩ := hreceives hpr
      obtain ⟨s, hs, hsr⟩ := hext.fed e he hr
      exact not_trouble_of_feeds hm hs hsr htrouble
    · rintro resolved' h
      obtain rfl := Except.ok.inj h
      refine ⟨fun s r => ?_, fun r hr => ?_⟩
      · rw [hext.mem_iff]
        constructor
        · rintro (h | ⟨-, h⟩)
          · exact absurd h List.not_mem_nil
          · exact h
        · rintro ⟨hs, hr, hsr⟩
          obtain ⟨e, he, rfl⟩ := hreceives hsr
          exact Or.inr ⟨List.mem_map_of_mem he, hs, hr, hsr⟩
      · rw [hext.count r hr]
        simp

/-! ### Two small maps -/

/-- The concrete component at address `n`. -/
private def atom (n : ℕ) : ComponentRef := ⟨n, "atom", "flow:atom", false, false⟩

/-- The composite that passes its only channel on. -/
private def inner : ComponentRef := ⟨10, "inner", "inner", true, false⟩

private def outChannel : AudioChannel := ⟨⟨⟨1, "out", atom 11, .output⟩, .float, 1⟩, 0⟩

private def passChannel : AudioChannel := ⟨⟨⟨2, "pass", inner, .input⟩, .float, 1⟩, 0⟩

private def inChannel : AudioChannel := ⟨⟨⟨3, "in", atom 12, .input⟩, .float, 1⟩, 0⟩

/-- A sender is found behind a placeholder. -/
theorem resolvePlaceholders_exact_nested :
    ∃ resolved, resolvePlaceholders [(outChannel, passChannel), (passChannel, inChannel)] =
      .ok resolved ∧ (outChannel, inChannel) ∈ resolved := by
  have hm : SingleSender [(outChannel, passChannel), (passChannel, inChannel)] := by
    unfold SingleSender
    decide
  obtain ⟨-, -, hres⟩ := resolvePlaceholders_exact _ hm
  refine ⟨[(outChannel, inChannel)], by decide, ?_⟩
  refine ((hres _ (by decide)).1 outChannel inChannel).mpr ⟨by decide, by decide, ?_⟩
  have hout : Connects [(outChannel, passChannel), (passChannel, inChannel)]
    outChannel passChannel := by unfold Connects; decide
  have hin : Connects [(outChannel, passChannel), (passChannel, inChannel)]
    passChannel inChannel := by unfold Connects; decide
  exact (Backtrace.Via.single hout).snoc (by decide) hin

/-- Loops are not the only reason to throw: an unconnected placeholder is another. -/
theorem resolvePlaceholders_dangling :
    ¬ ∀ m : AudioConnectionMap, m.SingleSender →
      ((∃ err, m.resolvePlaceholders = .error err) ↔
        ∃ r, r.isPlaceholder = false ∧ m.TraceLoops r) := by
  intro h
  have hm : SingleSender [(passChannel, inChannel)] := by
    unfold SingleSender
    decide
  obtain ⟨r, -, p, hp, -, hloop⟩ := (h _ hm).mp ⟨.unconnectedReceivePort, by decide⟩
  obtain ⟨q, hq, -⟩ := hloop.exists_last
  obtain ⟨-, rfl⟩ : q = passChannel ∧ p = inChannel := by simpa [Connects] using hq
  exact absurd hp (by decide)

end AudioConnectionMap

end Visr
