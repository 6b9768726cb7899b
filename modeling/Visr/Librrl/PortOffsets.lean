import Visr.Library.Slices
import Visr.Librrl.IntegrityChecking

/-!
# Offsets of ports in the communication pool

The channels of all send ports are numbered, and a receive port whose senders have consecutive
numbers needs no buffers of its own.

## Main results

* `sendChannels_eq` — the senders of a port each of whose channels has exactly one.
* `contiguousRange_eq` — what it decides, if all ports are in the table.
-/

namespace Visr

/-- The offsets of ports.  The entries are ordered by the addresses of the ports. -/
abbrev PortOffsetLookup := List (AudioPort × ℕ)

/-- A list of channels.  The default channel, which has no port, is `none`. -/
abbrev ChannelVector := List (Option AudioChannel)

namespace PortOffsetLookup

def find (table : PortOffsetLookup) (port : AudioPort) : Option ℕ :=
  (table.find? fun entry => entry.1 = port).map Prod.snd

/-- Insertion; an entry that is there already is kept. -/
def insert (port : AudioPort) (offset : ℕ) (table : PortOffsetLookup) : PortOffsetLookup :=
  if port ∈ table.map Prod.fst then table
  else table.orderedInsert (fun a b => a.1.address < b.1.address) (port, offset)

/-- The number of a channel. -/
def channelOffset (table : PortOffsetLookup) (c : AudioChannel) : Option ℕ :=
  (table.find c.port).map (· + c.channel)

/-- The number of a channel, with the exception of `std::map::at`. -/
def offsetAt (table : PortOffsetLookup) (c : Option AudioChannel) : Except Exception ℕ :=
  match c.bind table.channelOffset with
  | some offset => .ok offset
  | none => .error (.outOfRange "map::at")

theorem insert_perm {port : AudioPort} {table : PortOffsetLookup} (h : port ∉ table.map Prod.fst)
    (offset : ℕ) : (table.insert port offset).Perm ((port, offset) :: table) := by
  rw [insert, if_neg h]
  exact List.perm_orderedInsert _ _ _

theorem mem_of_find {table : PortOffsetLookup} {port : AudioPort} {offset : ℕ}
    (h : table.find port = some offset) : (port, offset) ∈ table := by
  obtain ⟨⟨port', offset'⟩, hfind, rfl⟩ := Option.map_eq_some_iff.mp h
  have hport : port' = port := by simpa using List.find?_some hfind
  rw [← hport]
  exact List.mem_of_find?_eq_some hfind

theorem find_of_mem {table : PortOffsetLookup} (hnodup : (table.map Prod.fst).Nodup)
    {port : AudioPort} {offset : ℕ} (h : (port, offset) ∈ table) :
    table.find port = some offset := by
  rcases hfind : table.find port with _ | offset'
  · have hnone := List.find?_eq_none.mp (Option.map_eq_none_iff.mp hfind) (port, offset) h
    simp at hnone
  · have hsame := List.inj_on_of_nodup_map hnodup h (mem_of_find hfind) rfl
    exact congrArg some (congrArg Prod.snd hsame).symm

end PortOffsetLookup

open PortOffsetLookup

/-! ### The senders of a receive port -/

/-- The body of the loop of `sendChannels`. -/
def storeSender (receivePort : AudioPort) (sendRange : ChannelVector)
    (conn : AudioChannel × AudioChannel) : Except Exception ChannelVector :=
  let receiveChannel := conn.2.channel
  if receiveChannel ≥ receivePort.width then
    .error (.logicError ("AudioSignalFlow: Connection entry " ++ connectionName conn ++
      " exceeds the receiver port width (" ++ receivePort.width.repr ++ ")."))
  else if sendRange[receiveChannel]?.join ≠ none then
    .error (.logicError ("AudioSignalFlow: More than one connection to receive channel " ++
      conn.2.toString ++ "."))
  else .ok (sendRange.set receiveChannel (some conn.1))

/-- The senders of a port, in the order of its channels. -/
def sendChannels (receivePort : AudioPort) (flatConnections : AudioConnectionMap) :
    Except Exception ChannelVector :=
  let receivingConnections := flatConnections.filter fun conn => conn.2.port = receivePort
  if receivingConnections.length ≠ receivePort.width then
    .error (.logicError ("AudioSignalFlow: Number of incoming channels (" ++
      receivingConnections.length.repr ++ ") to receive port " ++
      fullyQualifiedName receivePort.toPortBase ++ " does not match the port width (" ++
      receivePort.width.repr ++ ")."))
  else
    receivingConnections.foldlM (storeSender receivePort) (List.replicate receivePort.width none)

/-- The loop, when each connection leads to a channel that has no sender so far. -/
theorem foldlM_storeSender {receivePort : AudioPort} {l : List (AudioChannel × AudioChannel)}
    (hwidth : ∀ e ∈ l, e.2.channel < receivePort.width)
    (hnodup : (l.map fun e => e.2.channel).Nodup) {sendRange : ChannelVector}
    (hlen : sendRange.length = receivePort.width)
    (hfree : ∀ e ∈ l, sendRange[e.2.channel]? = some none) :
    ∃ result, l.foldlM (storeSender receivePort) sendRange = .ok result ∧
      result.length = receivePort.width ∧
      (∀ e ∈ l, result[e.2.channel]? = some (some e.1)) ∧
      ∀ ch, ch ∉ l.map (fun e => e.2.channel) → result[ch]? = sendRange[ch]? := by
  induction l generalizing sendRange with
  | nil => exact ⟨sendRange, rfl, hlen, fun e he => absurd he List.not_mem_nil, fun _ _ => rfl⟩
  | cons e l ih =>
    obtain ⟨he, hwidth⟩ := List.forall_mem_cons.mp hwidth
    obtain ⟨hefree, hfree⟩ := List.forall_mem_cons.mp hfree
    rw [List.map_cons, List.nodup_cons] at hnodup
    have hstep : storeSender receivePort sendRange e =
        .ok (sendRange.set e.2.channel (some e.1)) := by
      unfold storeSender
      rw [if_neg (Nat.not_le.mpr he), hefree, if_neg (fun h => h rfl)]
    have hfree' : ∀ e' ∈ l, (sendRange.set e.2.channel (some e.1))[e'.2.channel]? = some none := by
      intro e' he'
      rw [List.getElem?_set_ne, hfree e' he']
      rintro heq
      exact hnodup.1 (heq ▸ List.mem_map_of_mem (f := fun e => e.2.channel) he')
    obtain ⟨result, hresult, hreslen, hmem, hother⟩ :=
      ih hwidth hnodup.2 (by rw [List.length_set, hlen]) hfree'
    refine ⟨result, ?_, hreslen, ?_, fun ch hch => ?_⟩
    · rw [List.foldlM_cons, hstep]
      exact hresult
    · refine List.forall_mem_cons.mpr ⟨?_, hmem⟩
      rw [hother _ hnodup.1, List.getElem?_set_self (by rw [hlen]; exact he)]
    · rw [List.map_cons, List.mem_cons, not_or] at hch
      rw [hother ch hch.2, List.getElem?_set_ne (Ne.symm hch.1)]

/-- The channels of a port, each with exactly one sender. -/
structure SentBy (connections : AudioConnectionMap) (receivePort : AudioPort)
    (sender : ℕ → AudioChannel) : Prop where
  width : ∀ e ∈ connections, e.2.port = receivePort → e.2.channel < receivePort.width
  mem : ∀ ch < receivePort.width, (sender ch, ⟨receivePort, ch⟩) ∈ connections
  count : ∀ ch < receivePort.width, (connections.map Prod.snd).count ⟨receivePort, ch⟩ = 1

/-- Other ports do not matter. -/
theorem SentBy.filter {connections : AudioConnectionMap} {receivePort : AudioPort}
    {sender : ℕ → AudioChannel} (h : SentBy connections receivePort sender) :
    SentBy (connections.filter fun conn => conn.2.port = receivePort) receivePort sender where
  width e he := h.width e (List.mem_filter.mp he).1
  mem ch hch := List.mem_filter.mpr ⟨h.mem ch hch, decide_eq_true rfl⟩
  count ch hch := by
    rw [← h.count ch hch, List.count_eq_countP, List.count_eq_countP, List.countP_map,
      List.countP_map, List.countP_filter]
    refine List.countP_congr fun e _ => ?_
    simp only [Function.comp_apply, beq_iff_eq, Bool.and_eq_true, decide_eq_true_eq]
    constructor
    · exact And.left
    · intro heq
      exact ⟨heq, by rw [heq]⟩

/-- Only one sender is connected to a channel. -/
theorem eq_of_count_eq_one {connections : AudioConnectionMap} {s s' r : AudioChannel}
    (hcount : (connections.map Prod.snd).count r = 1) (h : (s, r) ∈ connections)
    (h' : (s', r) ∈ connections) : s = s' := by
  by_contra hne
  have hsub : List.Subperm [(s, r), (s', r)] connections := by
    refine List.subperm_of_subset ?_ ?_
    · simp [hne]
    · simp [h, h']
  rw [List.count_eq_countP, List.countP_map] at hcount
  have hle := hsub.countP_le ((fun c => c == r) ∘ Prod.snd)
  rw [hcount] at hle
  simp at hle

theorem SentBy.sender_eq {connections : AudioConnectionMap} {receivePort : AudioPort}
    {sender : ℕ → AudioChannel} (h : SentBy connections receivePort sender) {s : AudioChannel}
    {ch : ℕ} (hch : ch < receivePort.width) (hs : (s, ⟨receivePort, ch⟩) ∈ connections) :
    s = sender ch :=
  eq_of_count_eq_one (h.count ch hch) hs (h.mem ch hch)

/-- **The senders of a port** each of whose channels has exactly one. -/
theorem sendChannels_eq {connections : AudioConnectionMap} {receivePort : AudioPort}
    {sender : ℕ → AudioChannel} (h : SentBy connections receivePort sender) :
    sendChannels receivePort connections =
      .ok ((List.range receivePort.width).map fun ch => some (sender ch)) := by
  let l := connections.filter fun conn => conn.2.port = receivePort
  have hl : SentBy l receivePort sender := h.filter
  have hport : ∀ e ∈ l, e.2.port = receivePort := fun e he => by
    simpa using (List.mem_filter.mp he).2
  have hreceiver : ∀ e ∈ l, e.2 = ⟨receivePort, e.2.channel⟩ := fun e he => by
    rw [← hport e he]
  -- the receive channels are those of the port, in some order
  have hnodup : (l.map fun e => e.2.channel).Nodup := by
    refine List.nodup_iff_count_le_one.mpr fun ch => ?_
    by_cases hch : ch < receivePort.width
    · rw [← hl.count ch hch, List.count_eq_countP, List.count_eq_countP, List.countP_map,
        List.countP_map]
      refine le_of_eq (List.countP_congr fun e he => ?_)
      simp only [Function.comp_apply, beq_iff_eq]
      rw [hreceiver e he, AudioChannel.mk.injEq, and_iff_right rfl]
    · rw [List.count_eq_zero.mpr]
      · exact Nat.zero_le 1
      · intro hmem
        obtain ⟨e, he, rfl⟩ := List.mem_map.mp hmem
        exact hch (hl.width e he (hport e he))
  have hperm : (l.map fun e => e.2.channel).Perm (List.range receivePort.width) := by
    refine (List.perm_ext_iff_of_nodup hnodup List.nodup_range).mpr fun ch => ?_
    rw [List.mem_range, List.mem_map]
    constructor
    · rintro ⟨e, he, rfl⟩
      exact hl.width e he (hport e he)
    · intro hch
      exact ⟨_, hl.mem ch hch, rfl⟩
  have hlen : l.length = receivePort.width := by
    rw [← List.length_map (f := fun e : AudioChannel × AudioChannel => e.2.channel),
      hperm.length_eq, List.length_range]
  obtain ⟨result, hresult, hreslen, hmem, -⟩ := foldlM_storeSender
    (fun e he => hl.width e he (hport e he)) hnodup
    (List.length_replicate (n := receivePort.width) (a := (none : Option AudioChannel)))
    (fun e he => List.getElem?_replicate_of_lt (hl.width e he (hport e he)))
  have heq : result = (List.range receivePort.width).map fun ch => some (sender ch) := by
    refine List.ext_getElem? fun ch => ?_
    by_cases hch : ch < receivePort.width
    · have hget := hmem _ (hl.mem ch hch)
      rw [hget, List.getElem?_map, List.getElem?_range hch, Option.map_some]
    · rw [List.getElem?_eq_none (by omega), List.getElem?_eq_none (by simpa using hch)]
  unfold sendChannels
  show (if l.length ≠ receivePort.width then _ else l.foldlM _ _) = _
  rw [if_neg (not_not.mpr hlen), hresult, heq]

/-! ### Contiguous channels -/

/-- Whether the numbers of the channels are consecutive. -/
def contiguousRange (offsetTable : PortOffsetLookup) : ChannelVector → Except Exception Bool
  | lhs :: rhs :: channels => do
    let lhsOffset ← offsetTable.offsetAt lhs
    let rhsOffset ← offsetTable.offsetAt rhs
    if lhsOffset + 1 ≠ rhsOffset then return false
    else contiguousRange offsetTable (rhs :: channels)
  | _ => return true

/-- **What is decided**, if all ports are in the table. -/
theorem contiguousRange_eq (offsetTable : PortOffsetLookup) (channels : List AudioChannel)
    (number : AudioChannel → ℕ)
    (h : ∀ c ∈ channels, offsetTable.channelOffset c = some (number c)) :
    contiguousRange offsetTable (channels.map some) =
      .ok (decide ((channels.map number).IsChain fun a b => a + 1 = b)) := by
  have hat : ∀ c ∈ channels, offsetTable.offsetAt (some c) = .ok (number c) := by
    intro c hc
    rw [offsetAt, Option.bind_some, h c hc]
  clear h
  induction channels with
  | nil => rfl
  | cons lhs channels ih =>
    obtain ⟨hlhs, hrest⟩ := List.forall_mem_cons.mp hat
    cases channels with
    | nil => simp [contiguousRange]; rfl
    | cons rhs channels =>
      have hrhs := hrest rhs List.mem_cons_self
      have ih := ih hrest
      simp only [List.map_cons] at ih ⊢
      rw [contiguousRange, hlhs, ok_bind, hrhs, ok_bind, ih]
      split
      next hne =>
        rw [decide_eq_false]
        · rfl
        · rw [List.isChain_cons_cons]
          exact fun h => hne h.1
      next heq =>
        rw [not_not] at heq
        simp only [List.isChain_cons_cons, heq, true_and]

/-- Consecutive numbers are told by the first one. -/
theorem number_of_isChain {sender : ℕ → AudioChannel} {number : AudioChannel → ℕ} {width : ℕ}
    (h : (((List.range width).map sender).map number).IsChain fun a b => a + 1 = b) {ch : ℕ}
    (hch : ch < width) : number (sender ch) = number (sender 0) + ch := by
  induction ch with
  | zero => rfl
  | succ ch ih =>
    have hstep := List.isChain_iff_getElem.mp h ch (by simpa using hch)
    simp only [List.getElem_map, List.getElem_range] at hstep
    rw [← hstep, ih (by omega)]
    omega

end Visr
