import Visr.Librrl.IntegrityChecking

/-!
# Parameter connection maps

The table of all parameter connections of a flow, and the elimination of placeholder
ports from it.  In contrast to audio channels, several senders may be connected to one
receiver.

## Main results

* `fillRecursive_of_wired` — filling succeeds on a flow that passes the check.
* `resolvePlaceholders_spec` — resolution is exact for `FirstFeeds`.
* `resolvePlaceholders_complete_iff` — when no connection is lost.
-/

namespace Visr

/-- All parameter connections of a flow.  The entries are pairs of receiver and sender,
ordered by the receiver. -/
abbrev ParameterConnectionMap := List (ParameterPort × ParameterPort)

/-- Whether the port is a placeholder. -/
def ParameterPort.isPlaceholder (port : ParameterPort) : Bool := isPlaceholderPort port.toPortBase

namespace ParameterConnectionMap

/-- Insertion into the multimap, after the entries with the same key. -/
def insert (entry : ParameterPort × ParameterPort) (m : ParameterConnectionMap) :
    ParameterConnectionMap :=
  m.orderedInsert (fun a b => a.1.address < b.1.address) entry

theorem insert_perm (entry : ParameterPort × ParameterPort) (m : ParameterConnectionMap) :
    (insert entry m).Perm (entry :: m) :=
  List.perm_orderedInsert _ _ _

/-- The first entry for a receiving port (`std::multimap::find`). -/
def find (m : ParameterConnectionMap) (port : ParameterPort) :
    Option (ParameterPort × ParameterPort) :=
  m.find? fun entry => entry.1 == port

/-! ### Filling the map -/

/-- The state of `fillRecursive`: its result so far with the messages written, and the
connections inserted. -/
structure Fill extends CheckResult where
  connections : ParameterConnectionMap

/-- Reports a problem. -/
def Fill.fail (acc : Fill) (message : String) : Fill :=
  { acc with toCheckResult := acc.toCheckResult.fail message }

/-- The send ports of a level: the inputs of the composite and the outputs of the
contained components. -/
def sendPorts (composite : Component) : PortTable ParameterPort :=
  PortTable.insertAll
    (composite.components.flatMap fun c => PortLookup.withDirection .output c.parameterPorts)
    (PortTable.insertAll (PortLookup.withDirection .input composite.parameterPorts) [])

/-- The receive ports of a level: the outputs of the composite and the inputs of the
contained components. -/
def receivePorts (composite : Component) : PortTable ParameterPort :=
  PortTable.insertAll
    (composite.components.flatMap fun c => PortLookup.withDirection .input c.parameterPorts)
    (PortTable.insertAll (PortLookup.withDirection .output composite.parameterPorts) [])

/-- The body of the loop of `fillRecursive` over the connections of a composite. -/
def fillConnection (composite : Component) (acc : Fill) (connection : ParameterConnection) :
    Except Exception Fill :=
  if connection.sender ∉ sendPorts composite then
    .ok (acc.fail ("Audio signal flow connection check: In component \"" ++
      composite.self.fullName ++ "\", the send port \"" ++ connection.sender.name ++
      "\" is not found.\n"))
  else if connection.receiver ∉ receivePorts composite then
    .ok (acc.fail ("Audio signal flow connection check: In component \"" ++
      composite.self.fullName ++ "\", the receive port \"" ++ connection.receiver.name ++
      "\" is not found.\n"))
  else do
    let parameterCheckResult ←
      checkParameterPortCompatibility connection.sender connection.receiver
    return ⟨acc.toCheckResult.append parameterCheckResult,
      insert (connection.receiver, connection.sender) acc.connections⟩

/-- The connections of one level of the hierarchy. -/
def fillLocal (composite : Component) (acc : Fill) : Except Exception Fill :=
  composite.parameterConnections.foldlM (fillConnection composite) acc

mutual

/-- Collects the connections of a component.  It is only entered while the result is still
`true`. -/
def fillRecursive (acc : Fill) : Component → Except Exception Fill
  | .atomic .. => .ok acc
  | .composite self aps pps comps acs pcs => do
    let acc ← fillLocal (.composite self aps pps comps acs pcs) acc
    fillComponents acc comps

/-- The loop over the children, `result = result and fillRecursive( ... )`. -/
def fillComponents (acc : Fill) : List Component → Except Exception Fill
  | [] => .ok acc
  | c :: comps =>
    if acc.result then do
      let acc ← fillRecursive acc c
      fillComponents acc comps
    else fillComponents acc comps

end

/-- Fills an empty map. -/
def fill (component : Component) : Except Exception Fill :=
  fillRecursive ⟨.passed, []⟩ component

theorem mem_sendPorts {composite : Component} {p : ParameterPort} :
    p ∈ sendPorts composite ↔ SendPort composite p := by
  simp [sendPorts, SendPort, PortKind.toPortBase, or_comm]

theorem mem_receivePorts {composite : Component} {p : ParameterPort} :
    p ∈ receivePorts composite ↔ ReceivePort composite p := by
  simp [receivePorts, ReceivePort, PortKind.toPortBase, or_comm]

/-- The entry of a connection. -/
def entryOf (connection : ParameterConnection) : ParameterPort × ParameterPort :=
  (connection.receiver, connection.sender)

/-- The entries of all levels of a component. -/
def allEntries (component : Component) : List (ParameterPort × ParameterPort) :=
  component.preorder.flatMap fun c => c.parameterConnections.map entryOf

/-- What a successful step of filling returns. -/
def Filled (acc : Fill) (entries : List (ParameterPort × ParameterPort))
    (outcome : Except Exception Fill) : Prop :=
  ∃ acc', outcome = .ok acc' ∧ acc'.result = true ∧
    acc'.connections.Perm (entries ++ acc.connections)

theorem Filled.bind {acc : Fill} {es es' : List (ParameterPort × ParameterPort)}
    {outcome : Except Exception Fill} {next : Fill → Except Exception Fill}
    (h : Filled acc es outcome)
    (hnext : ∀ acc' : Fill, acc'.result = true → Filled acc' es' (next acc')) :
    Filled acc (es ++ es') (outcome >>= next) := by
  obtain ⟨acc₁, rfl, hresult₁, hperm₁⟩ := h
  obtain ⟨acc₂, hok₂, hresult₂, hperm₂⟩ := hnext acc₁ hresult₁
  refine ⟨acc₂, hok₂, hresult₂, hperm₂.trans ((hperm₁.append_left es').trans ?_)⟩
  rw [← List.append_assoc]
  exact List.perm_append_comm.append_right _

theorem fillConnection_filled {composite : Component} {connection : ParameterConnection}
    (h : ParameterValid composite connection) {acc : Fill} (hacc : acc.result = true) :
    Filled acc [entryOf connection] (fillConnection composite acc connection) := by
  obtain ⟨check, hcompat, hresult⟩ := h.compatible
  unfold fillConnection
  rw [if_neg (not_not.mpr (mem_sendPorts.mpr h.sender)),
    if_neg (not_not.mpr (mem_receivePorts.mpr h.receiver)), hcompat]
  refine ⟨_, rfl, ?_, insert_perm _ _⟩
  simp [hacc, hresult]

theorem foldlM_fillConnection_filled {composite : Component} {l : List ParameterConnection}
    (h : ∀ c ∈ l, ParameterValid composite c) {acc : Fill} (hacc : acc.result = true) :
    Filled acc (l.map entryOf) (l.foldlM (fillConnection composite) acc) := by
  induction l generalizing acc with
  | nil => exact ⟨acc, rfl, hacc, List.Perm.refl _⟩
  | cons c l ih =>
    obtain ⟨hc, hl⟩ := List.forall_mem_cons.mp h
    rw [List.foldlM_cons]
    exact (fillConnection_filled hc hacc).bind fun acc' hacc' => ih hl hacc'

private theorem fillComponents_filled {comps : List Component}
    (ih : ∀ c ∈ comps, ∀ acc : Fill, acc.result = true →
      Filled acc (allEntries c) (fillRecursive acc c)) {acc : Fill} (hacc : acc.result = true) :
    Filled acc (comps.flatMap allEntries) (fillComponents acc comps) := by
  induction comps generalizing acc with
  | nil => exact ⟨acc, rfl, hacc, List.Perm.refl _⟩
  | cons c comps ihcomps =>
    obtain ⟨ihc, ih⟩ := List.forall_mem_cons.mp ih
    rw [fillComponents, if_pos hacc]
    exact (ihc acc hacc).bind fun acc' hacc' => ihcomps ih hacc'

/-- Filling from a wired component succeeds and inserts the connections of all levels. -/
theorem fillRecursive_of_wired {component : Component} (h : ParameterWired component)
    {acc : Fill} (hacc : acc.result = true) :
    Filled acc (allEntries component) (fillRecursive acc component) := by
  induction component using Component.induct generalizing acc with
  | atomic self aps pps => exact ⟨acc, rfl, hacc, List.Perm.refl _⟩
  | composite self aps pps comps acs pcs ih =>
    obtain ⟨hlocal, hcomps⟩ := parameterWired_composite.mp h
    have hentries : allEntries (.composite self aps pps comps acs pcs) =
        pcs.map entryOf ++ comps.flatMap allEntries := by
      unfold allEntries
      rw [Component.preorder_eq, List.flatMap_cons, List.flatMap_assoc]
      rfl
    rw [fillRecursive, hentries]
    refine (foldlM_fillConnection_filled hlocal.valid hacc).bind fun acc' hacc' => ?_
    exact fillComponents_filled (fun c hc _ hacc => ih c hc (hcomps c hc) hacc) hacc'

/-! ### Elimination of placeholders -/

/-- The ways in which `resolvePlaceholders` throws.  `outOfFuel` is not one of them: it
stands for a trace that goes on beyond the fuel of `traceSender`. -/
inductive ResolveError
  | unconnectedReceivePort
  | closedLoop
  | outOfFuel
  deriving DecidableEq, Repr

/-- The exception with its text, as far as the source throws one. -/
def ResolveError.exception : ResolveError → Option Exception
  | unconnectedReceivePort =>
    some (.invalidArgument "Unexpected error: unconnected receive port.")
  | closedLoop => some (.runtimeError
      "Audio signal connections: closed loop detected in placeholder port connections.")
  | outOfFuel => none

/-- The endless loop of `resolvePlaceholders`, which follows the first senders backwards
and counts the placeholders on the way. -/
def traceSender (m : ParameterConnectionMap) (recursionLimit : ℕ) :
    ℕ → ℕ → Option (ParameterPort × ParameterPort) → Except ResolveError ParameterPort
  | 0, _, _ => .error .outOfFuel
  | _ + 1, _, none => .error .unconnectedReceivePort
  | fuel + 1, recursionCount, some entry =>
    if !entry.2.isPlaceholder then .ok entry.2
    else if recursionCount + 1 ≥ recursionLimit then .error .closedLoop
    else traceSender m recursionLimit fuel (recursionCount + 1) (m.find entry.2)

/-- The body of the loop over all connections. -/
def resolveConnection (m flatConnections : ParameterConnectionMap)
    (rawConnection : ParameterPort × ParameterPort) :
    Except ResolveError ParameterConnectionMap :=
  if rawConnection.1.isPlaceholder then .ok flatConnections
  else if !rawConnection.2.isPlaceholder then .ok (insert rawConnection flatConnections)
  else do
    -- the count starts at 1 and ends the loop at the size of the map
    let sender ← m.traceSender m.length (m.length + 1) 1 (m.find rawConnection.2)
    return insert (rawConnection.1, sender) flatConnections

/-- The connections that remain when all placeholders are bypassed. -/
def resolvePlaceholders (m : ParameterConnectionMap) :
    Except ResolveError ParameterConnectionMap :=
  m.foldlM (resolveConnection m) []

/-! ### Paths through placeholders -/

/-- `a` feeds `b` directly. -/
def Connects (m : ParameterConnectionMap) (a b : ParameterPort) : Prop := (b, a) ∈ m

/-- `a` feeds `b` through any number of placeholders. -/
def Feeds (m : ParameterConnectionMap) : ParameterPort → ParameterPort → Prop :=
  Backtrace.Via m.Connects fun p => p.isPlaceholder = true

/-- The sender stored first for a port. -/
def firstSender (m : ParameterConnectionMap) (p : ParameterPort) : Option ParameterPort :=
  (m.find p).map Prod.snd

/-- `a` feeds `b` through placeholders only by way of the senders stored first. -/
def FirstVia (m : ParameterConnectionMap) : ParameterPort → ParameterPort → Prop :=
  Backtrace.Via (Backtrace.Back m.firstSender) fun p => p.isPlaceholder = true

/-- `a` feeds `b`, through placeholders only by way of the senders stored first.  The
connection to `b` itself may be any of the map. -/
def FirstFeeds (m : ParameterConnectionMap) (a b : ParameterPort) : Prop :=
  m.Connects a b ∨ ∃ p, p.isPlaceholder = true ∧ m.Connects p b ∧ m.FirstVia a p

/-- Following the senders stored first from the placeholder `p` never ends. -/
def FirstLoops (m : ParameterConnectionMap) (p : ParameterPort) : Prop :=
  Backtrace.HitsCycle m.firstSender (fun q => q.isPlaceholder = true) p

/-- Every placeholder that sends also receives. -/
def NoDangling (m : ParameterConnectionMap) : Prop :=
  ∀ p r, p.isPlaceholder = true → m.Connects p r → ∃ s, m.Connects s p

theorem find_eq_some {m : ParameterConnectionMap} {p : ParameterPort}
    {e : ParameterPort × ParameterPort} (h : m.find p = some e) : e ∈ m ∧ e.1 = p :=
  ⟨List.mem_of_find?_eq_some h, by simpa using List.find?_some h⟩

theorem find_ne_none {m : ParameterConnectionMap} {s p : ParameterPort} (h : m.Connects s p) :
    m.find p ≠ none := by
  intro hnone
  exact List.find?_eq_none.mp hnone (p, s) h (beq_self_eq_true p)

theorem connects_of_firstSender {m : ParameterConnectionMap} {a p : ParameterPort}
    (h : m.firstSender p = some a) : m.Connects a p := by
  obtain ⟨⟨p', a'⟩, he, rfl⟩ := Option.map_eq_some_iff.mp h
  obtain ⟨hmem, rfl⟩ := find_eq_some he
  exact hmem

theorem FirstVia.feeds {m : ParameterConnectionMap} {a b : ParameterPort}
    (h : m.FirstVia a b) : m.Feeds a b :=
  h.mono fun _ _ => connects_of_firstSender

theorem FirstFeeds.feeds {m : ParameterConnectionMap} {a b : ParameterPort}
    (h : m.FirstFeeds a b) : m.Feeds a b := by
  rcases h with h | ⟨p, hp, hpb, hap⟩
  · exact Backtrace.Via.single h
  · exact (FirstVia.feeds hap).snoc hp hpb

/-- What an outcome of `traceSender` says about the placeholder `p` it started from. -/
def TraceOutcome (m : ParameterConnectionMap) (p : ParameterPort) :
    Except ResolveError ParameterPort → Prop
  | .ok s => s.isPlaceholder = false ∧ m.FirstVia s p
  | .error .closedLoop => m.FirstLoops p
  | .error _ => False

/-- `flat'` is `flat` with the entries that the connections `l` to concrete ports resolve
to, none of which traces back into a closed loop. -/
structure Extended (m : ParameterConnectionMap) (l : List (ParameterPort × ParameterPort))
    (flat flat' : ParameterConnectionMap) : Prop where
  noLoop : ∀ e ∈ l, e.1.isPlaceholder = false → e.2.isPlaceholder = true → ¬ m.FirstLoops e.2
  mem_iff : ∀ r s, (r, s) ∈ flat' ↔ (r, s) ∈ flat ∨ ∃ p, (r, p) ∈ l ∧ r.isPlaceholder = false ∧
    s.isPlaceholder = false ∧ (s = p ∨ p.isPlaceholder = true ∧ m.FirstVia s p)

/-- A connection ending at a placeholder adds nothing. -/
theorem Extended.skip {m : ParameterConnectionMap} {l flat flat'} {e : ParameterPort × ParameterPort}
    (hr : e.1.isPlaceholder = true) (h : m.Extended l flat flat') :
    m.Extended (e :: l) flat flat' where
  noLoop := by
    refine List.forall_mem_cons.mpr ⟨fun hr' => ?_, h.noLoop⟩
    rw [hr] at hr'
    exact absurd hr'.symm Bool.false_ne_true
  mem_iff r s := by
    have hne : r.isPlaceholder = false → ∀ p, (r, p) ≠ e := by
      rintro hr' p rfl
      exact Bool.false_ne_true (hr'.symm.trans hr)
    rw [h.mem_iff]
    refine or_congr Iff.rfl (exists_congr fun p => ?_)
    rw [List.mem_cons]
    constructor
    · rintro ⟨hmem, hrest⟩
      exact ⟨Or.inr hmem, hrest⟩
    · rintro ⟨hmem, hr', hrest⟩
      exact ⟨hmem.resolve_left (hne hr' p), hr', hrest⟩

/-- A connection ending at a concrete port adds one entry. -/
theorem Extended.step {m : ParameterConnectionMap} {l flat flat'}
    {e : ParameterPort × ParameterPort} {s₀ : ParameterPort}
    (hr : e.1.isPlaceholder = false) (hs₀ : s₀.isPlaceholder = false)
    (hsource : s₀ = e.2 ∨ e.2.isPlaceholder = true ∧ m.FirstVia s₀ e.2)
    (h : m.Extended l (insert (e.1, s₀) flat) flat') : m.Extended (e :: l) flat flat' where
  noLoop := by
    refine List.forall_mem_cons.mpr ⟨fun _ hp hloop => ?_, h.noLoop⟩
    rcases hsource with rfl | ⟨-, hvia⟩
    · exact Bool.false_ne_true (hs₀.symm.trans hp)
    · exact Backtrace.not_hitsCycle_of_via (by simp [hs₀]) hvia hloop
  mem_iff r s := by
    rw [h.mem_iff, (insert_perm _ _).mem_iff, List.mem_cons, Prod.mk.injEq]
    simp only [List.mem_cons, or_and_right, exists_or]
    -- the concrete sender behind the connection is unique
    have hnew : (∃ p, (r, p) = e ∧ r.isPlaceholder = false ∧ s.isPlaceholder = false ∧
        (s = p ∨ p.isPlaceholder = true ∧ m.FirstVia s p)) ↔ r = e.1 ∧ s = s₀ := by
      constructor
      · rintro ⟨p, rfl, -, hs, hsource'⟩
        refine ⟨rfl, ?_⟩
        rcases hsource' with rfl | ⟨hp, hvia⟩
        · rcases hsource with rfl | ⟨hp, -⟩
          · rfl
          · exact absurd (hs.symm.trans hp) Bool.false_ne_true
        · rcases hsource with rfl | ⟨-, hvia₀⟩
          · exact absurd (hs₀.symm.trans hp) Bool.false_ne_true
          · exact Backtrace.Via.unique (by simp [hs]) (by simp [hs₀]) hvia hvia₀
      · rintro ⟨rfl, rfl⟩
        exact ⟨e.2, rfl, hr, hs₀, hsource⟩
    rw [hnew]
    exact or_assoc.trans or_left_comm

section Trace

variable {m : ParameterConnectionMap} (hm : m.NoDangling)

include hm

/-- A trail of as many placeholders as the recursion limit allows runs into a cycle: the
map has an entry for each of them, for the placeholder it starts from and for the
concrete port behind that. -/
theorem firstLoops_of_length {p r : ParameterPort} (hp : p.isPlaceholder = true)
    (hr : r.isPlaceholder = false) (hpr : m.Connects p r) {l : List ParameterPort}
    (htrail : Backtrace.Trail m.firstSender (fun q => q.isPlaceholder = true) p l)
    (hlen : m.length ≤ l.length + 1) : m.FirstLoops p := by
  -- the trail returns to its start, or it visits other placeholders only
  by_cases hmem : p ∈ l
  · obtain ⟨-, hcycle⟩ := htrail.via_of_mem hmem
    exact ⟨p, hp, hcycle, hcycle⟩
  have hne : ∀ {q}, q.isPlaceholder = true → q ≠ r := by
    rintro q hq rfl
    rw [hr] at hq
    exact Bool.false_ne_true hq
  have hreceives : ∀ q x, q.isPlaceholder = true → m.Connects q x → q ∈ m.map Prod.fst := by
    intro q x hq hqx
    obtain ⟨s, hs⟩ := hm q x hq hqx
    exact List.mem_map_of_mem (f := Prod.fst) hs
  -- two entries of the map are not on the trail
  have hrmem : r ∈ m.map Prod.fst := List.mem_map_of_mem (f := Prod.fst) hpr
  have hpmem : p ∈ (m.map Prod.fst).erase r :=
    (List.mem_erase_of_ne (hne hp)).mpr (hreceives p r hp hpr)
  refine htrail.hitsCycle_of_length (((m.map Prod.fst).erase r).erase p) ?_ ?_
  · intro q hq
    obtain ⟨hqhid, hvia⟩ := htrail.via_of_mem hq
    obtain ⟨x, hx, -⟩ := hvia.exists_first
    have hqp : q ≠ p := fun h => hmem (h ▸ hq)
    rw [List.mem_erase_of_ne hqp, List.mem_erase_of_ne (hne hqhid)]
    exact hreceives q x hqhid (connects_of_firstSender hx)
  · have hpos := List.length_pos_of_mem hpmem
    rw [List.length_erase_of_mem hrmem, List.length_map] at hpos
    rw [List.length_erase_of_mem hpmem, List.length_erase_of_mem hrmem, List.length_map]
    omega

/-- The trace from the placeholder `p`, which is connected to the concrete port `r`, after
it has visited the placeholders `l`. -/
theorem traceSender_of_trail {p r : ParameterPort} (hp : p.isPlaceholder = true)
    (hr : r.isPlaceholder = false) (hpr : m.Connects p r) (fuel : ℕ) {l : List ParameterPort}
    (htrail : Backtrace.Trail m.firstSender (fun q => q.isPlaceholder = true) p l)
    (hfuel : m.length < fuel + l.length) (hlen : l = [] ∨ l.length + 1 < m.length) :
    m.TraceOutcome p (m.traceSender m.length fuel (l.length + 1) (m.find (l.headD p))) := by
  induction fuel generalizing l with
  | zero =>
    rcases hlen with rfl | hlen
    · exact absurd hfuel (Nat.not_lt_zero _)
    · omega
  | succ fuel ih =>
    -- the port looked up is a placeholder that sends, so there is an entry for it
    have hsends : ∃ x, (l.headD p).isPlaceholder = true ∧ m.Connects (l.headD p) x := by
      cases l with
      | nil => exact ⟨r, hp, hpr⟩
      | cons q l =>
        obtain ⟨hq, hvia⟩ := htrail.via_head
        obtain ⟨x, hx, -⟩ := hvia.exists_first
        exact ⟨x, hq, connects_of_firstSender hx⟩
    obtain ⟨x, hhid, hx⟩ := hsends
    obtain ⟨s, hs⟩ := hm _ x hhid hx
    rcases hfind : m.find (l.headD p) with _ | e
    · exact absurd hfind (find_ne_none hs)
    have hnext : m.firstSender (l.headD p) = some e.2 := by
      rw [firstSender, hfind]
      rfl
    rw [traceSender]
    split
    next hvisible => exact ⟨by simpa using hvisible, htrail.via_next hnext⟩
    next hhidden =>
      have htrail' := htrail.cons hnext (by simpa using hhidden)
      split
      next hlimit => exact firstLoops_of_length hm hp hr hpr htrail' hlimit
      next hlimit =>
        refine ih htrail' ?_ (Or.inr ?_)
        · rw [List.length_cons]
          omega
        · rw [List.length_cons]
          omega

/-- What one step of the loop over all connections does. -/
theorem resolveConnection_cases {e : ParameterPort × ParameterPort} (he : e ∈ m)
    (flat : ParameterConnectionMap) :
    (e.1.isPlaceholder = true ∧ resolveConnection m flat e = .ok flat) ∨
    (e.1.isPlaceholder = false ∧ ∃ s, s.isPlaceholder = false ∧
      (s = e.2 ∨ e.2.isPlaceholder = true ∧ m.FirstVia s e.2) ∧
      resolveConnection m flat e = .ok (insert (e.1, s) flat)) ∨
    (e.1.isPlaceholder = false ∧ e.2.isPlaceholder = true ∧ m.FirstLoops e.2 ∧
      resolveConnection m flat e = .error .closedLoop) := by
  unfold resolveConnection
  rcases hr : e.1.isPlaceholder with _ | _
  · right
    rcases hs : e.2.isPlaceholder with _ | _
    · exact Or.inl ⟨rfl, e.2, hs, Or.inl rfl, by simp⟩
    · have hspec := traceSender_of_trail hm hs hr he (m.length + 1) .nil (by simp) (Or.inl rfl)
      rw [List.length_nil, List.headD_nil, Nat.zero_add] at hspec
      rcases htrace : m.traceSender m.length (m.length + 1) 1 (m.find e.2) with err | s
      · rw [htrace] at hspec
        cases err with
        | closedLoop => exact Or.inr ⟨rfl, rfl, hspec, by simp⟩
        | _ => exact hspec.elim
      · rw [htrace] at hspec
        exact Or.inl ⟨rfl, s, hspec.1, Or.inr ⟨rfl, hspec.2⟩, by simp⟩
  · exact Or.inl ⟨rfl, by simp⟩

/-- The loop over the connections `l`: it stops at a closed loop behind one of them, or
extends the map by one entry for each connection that ends at a concrete port. -/
theorem foldlM_resolveConnection {l : List (ParameterPort × ParameterPort)} (hl : l ⊆ m)
    (flat : ParameterConnectionMap) :
    (∃ e ∈ l, e.1.isPlaceholder = false ∧ e.2.isPlaceholder = true ∧ m.FirstLoops e.2 ∧
      l.foldlM (resolveConnection m) flat = .error .closedLoop) ∨
    ∃ flat', l.foldlM (resolveConnection m) flat = .ok flat' ∧ m.Extended l flat flat' := by
  induction l generalizing flat with
  | nil => exact Or.inr ⟨flat, rfl, by simp, by simp⟩
  | cons e l ih =>
    obtain ⟨he, hl⟩ := List.cons_subset.mp hl
    rw [List.foldlM_cons]
    rcases resolveConnection_cases hm he flat with
      ⟨hr, hstep⟩ | ⟨hr, s, hs, hsource, hstep⟩ | ⟨hr, hp, hloop, hstep⟩
    · rw [hstep]
      rcases ih hl flat with ⟨e', he', hrest⟩ | ⟨flat', hok, hext⟩
      · exact Or.inl ⟨e', List.mem_cons_of_mem _ he', hrest⟩
      · exact Or.inr ⟨flat', hok, hext.skip hr⟩
    · rw [hstep]
      rcases ih hl (insert (e.1, s) flat) with ⟨e', he', hrest⟩ | ⟨flat', hok, hext⟩
      · exact Or.inl ⟨e', List.mem_cons_of_mem _ he', hrest⟩
      · exact Or.inr ⟨flat', hok, hext.step hr hs hsource⟩
    · refine Or.inl ⟨e, List.mem_cons_self, hr, hp, hloop, ?_⟩
      rw [hstep]
      rfl

/-- **Resolution is exact for the senders stored first.**  It either throws because
following them from some concrete receiver ends in a closed loop, or returns the
placeholder-free relation that they induce. -/
theorem resolvePlaceholders_spec :
    ((∃ p r, p.isPlaceholder = true ∧ r.isPlaceholder = false ∧ m.Connects p r ∧
        m.FirstLoops p) ∧ m.resolvePlaceholders = .error .closedLoop) ∨
    (¬ (∃ p r, p.isPlaceholder = true ∧ r.isPlaceholder = false ∧ m.Connects p r ∧
        m.FirstLoops p) ∧
      ∃ flat, m.resolvePlaceholders = .ok flat ∧ ∀ s r, (r, s) ∈ flat ↔
        s.isPlaceholder = false ∧ r.isPlaceholder = false ∧ m.FirstFeeds s r) := by
  rcases foldlM_resolveConnection hm (List.Subset.refl m) [] with
    ⟨e, he, hr, hp, hloop, hres⟩ | ⟨flat, hres, hext⟩
  · exact Or.inl ⟨⟨e.2, e.1, hp, hr, he, hloop⟩, hres⟩
  · refine Or.inr ⟨?_, flat, hres, fun s r => ?_⟩
    · rintro ⟨p, r, hp, hr, hpr, hloop⟩
      exact hext.noLoop (r, p) hpr hr hp hloop
    · rw [hext.mem_iff]
      constructor
      · rintro (h | ⟨p, hpr, hr, hs, rfl | ⟨hp, hsp⟩⟩)
        · exact absurd h List.not_mem_nil
        · exact ⟨hs, hr, Or.inl hpr⟩
        · exact ⟨hs, hr, Or.inr ⟨p, hp, hpr, hsp⟩⟩
      · rintro ⟨hs, hr, h | ⟨p, hp, hpr, hsp⟩⟩
        · exact Or.inr ⟨s, h, hr, hs, Or.inl rfl⟩
        · exact Or.inr ⟨p, hpr, hr, hs, Or.inr ⟨hp, hsp⟩⟩

end Trace

/-! ### Maps of flows that pass the integrity check -/

theorem mem_allEntries {component : Component} {r p : ParameterPort} :
    (r, p) ∈ allEntries component ↔ ∃ c ∈ component.preorder,
      ∃ connection ∈ c.parameterConnections, connection.receiver = r ∧ connection.sender = p := by
  simp [allEntries, entryOf]

theorem isComposite_of_mem_components {c child : Component} (h : child ∈ c.components) :
    c.isComposite = true := by
  cases c with
  | atomic => exact absurd h List.not_mem_nil
  | composite => rfl

theorem isComposite_of_mem_connections {c : Component} {connection : ParameterConnection}
    (h : connection ∈ c.parameterConnections) : c.isComposite = true := by
  cases c with
  | atomic => exact absurd h List.not_mem_nil
  | composite => rfl

/-- In a flow that passes the check, a placeholder that sends on one side of its composite
receives on the other side. -/
theorem noDangling_allEntries (flow : Flow) (hwired : ParameterWired flow.root) :
    NoDangling (allEntries flow.root) := by
  intro p r hp hpr
  obtain ⟨hcomposite, htop⟩ := (isPlaceholderPort_iff _).mp hp
  obtain ⟨c, hc, connection, hconn, -, rfl⟩ := mem_allEntries.mp hpr
  have hlevel := hwired c hc (isComposite_of_mem_connections hconn)
  rcases (hlevel.valid connection hconn).sender with ⟨hown, hdir⟩ | ⟨child, hchild, hown, hdir⟩
  · -- an input of `c`, which receives on the level above
    have hparent := flow.wellFormed.parameterParent c hc _ hown
    rcases Component.exists_parent hc with rfl | ⟨q, hq, hcq⟩
    · rw [hparent, flow.wellFormed.topLevel] at htop
      exact absurd htop.symm Bool.false_ne_true
    · obtain ⟨conn', hconn', hrec⟩ := (hwired q hq (isComposite_of_mem_components hcq)).receive _
        (Or.inr ⟨c, hcq, hown, hdir⟩)
      exact ⟨conn'.sender, mem_allEntries.mpr ⟨q, hq, conn', hconn', hrec, rfl⟩⟩
  · -- an output of a composite child, which receives on the level below
    have hmem := Component.mem_preorder_of_mem_components hc hchild
    have hparent := flow.wellFormed.parameterParent child hmem _ hown
    have hchildComposite : child.isComposite = true := by
      rw [← flow.wellFormed.isComposite child hmem, ← hparent]
      exact hcomposite
    obtain ⟨conn', hconn', hrec⟩ :=
      (hwired child hmem hchildComposite).receive _ (Or.inl ⟨hown, hdir⟩)
    exact ⟨conn'.sender, mem_allEntries.mpr ⟨child, hmem, conn', hconn', hrec, rfl⟩⟩

/-- What flattening is for: it either throws because the trace from some concrete receiver
closes a placeholder loop, or returns a map with exactly the pairs of concrete ports that
are connected through placeholders. -/
def LosesNothing (m : ParameterConnectionMap) : Prop :=
  (m.resolvePlaceholders = .error .closedLoop ∧
    ∃ p r, p.isPlaceholder = true ∧ r.isPlaceholder = false ∧ m.Feeds p r ∧ m.Feeds p p) ∨
  ∃ flat, m.resolvePlaceholders = .ok flat ∧ ∀ s r, (r, s) ∈ flat ↔
    s.isPlaceholder = false ∧ r.isPlaceholder = false ∧ m.Feeds s r

/-- The condition under which the senders stored first represent all others: some concrete
receiver is connected to a placeholder from which they lead into a closed loop, or every
concrete sender that feeds a concrete receiver does so by way of them. -/
def FirstSendersSuffice (m : ParameterConnectionMap) : Prop :=
  (∃ p r, p.isPlaceholder = true ∧ r.isPlaceholder = false ∧ m.Connects p r ∧ m.FirstLoops p) ∨
  ∀ s r, s.isPlaceholder = false → r.isPlaceholder = false → m.Feeds s r → m.FirstFeeds s r

theorem losesNothing_iff {m : ParameterConnectionMap} (hm : m.NoDangling) :
    m.LosesNothing ↔ m.FirstSendersSuffice := by
  rcases resolvePlaceholders_spec hm with ⟨hloops, hres⟩ | ⟨hloops, flat, hres, hflat⟩
  · refine iff_of_true (Or.inl ⟨hres, ?_⟩) (Or.inl hloops)
    obtain ⟨p, r, hp, hr, hpr, q, hq, hqp, hcycle⟩ := hloops
    refine ⟨q, r, hq, hr, ?_, FirstVia.feeds hcycle⟩
    exact (FirstVia.feeds hqp).snoc hp hpr
  · unfold LosesNothing FirstSendersSuffice
    rw [hres, or_iff_right (fun h => nomatch h.1), or_iff_right hloops]
    constructor
    · rintro ⟨flat', hok, hflat'⟩ s r hs hr hsr
      obtain rfl := Except.ok.inj hok
      exact ((hflat s r).mp ((hflat' s r).mpr ⟨hs, hr, hsr⟩)).2.2
    · intro h
      refine ⟨flat, rfl, fun s r => ?_⟩
      rw [hflat]
      exact and_congr_right fun hs => and_congr_right fun hr => ⟨FirstFeeds.feeds, h s r hs hr⟩

theorem NoDangling.of_perm {m m' : ParameterConnectionMap} (h : m.Perm m') (hm' : m'.NoDangling) :
    m.NoDangling := by
  intro p r hp hpr
  obtain ⟨s, hs⟩ := hm' p r hp (h.mem_iff.mp hpr)
  exact ⟨s, h.mem_iff.mpr hs⟩

/-- A flow that passes the integrity check of its parameter connections is flattened
without a loss if and only if the senders stored first suffice. -/
theorem resolvePlaceholders_complete_iff (flow : Flow)
    (hcheck : Passes (checkParameterConnectionIntegrity flow.root)) :
    ∃ full, fill flow.root = .ok full ∧ full.result = true ∧
      (full.connections.LosesNothing ↔ full.connections.FirstSendersSuffice) := by
  have hwired := (checkParameterConnectionIntegrity_passes _).mp hcheck
  have hfilled : Filled ⟨.passed, []⟩ (allEntries flow.root) (fill flow.root) :=
    fillRecursive_of_wired hwired rfl
  obtain ⟨full, hfull, hresult, hperm⟩ := hfilled
  rw [List.append_nil] at hperm
  exact ⟨full, hfull, hresult, losesNothing_iff ((noDangling_allEntries flow hwired).of_perm hperm)⟩

/-! ### Two senders at one placeholder -/

private def innerRef : ComponentRef := ⟨3, "inner", "inner", true, false⟩

private def senderPort (address : ℕ) (name : String) : ParameterPort :=
  ⟨⟨address, "out", ⟨address + 10, name, name, false, false⟩, .output⟩, 1, 1, some .empty⟩

private def passPort : ParameterPort := ⟨⟨6, "pass", innerRef, .input⟩, 1, 1, some .empty⟩

private def sinkPort : ParameterPort :=
  ⟨⟨7, "in", ⟨17, "sink", "inner:sink", false, false⟩, .input⟩, 1, 1, some .empty⟩

/-- Two components send to the same input of a composite, which passes it on to the
component inside. -/
def fanIn : Flow where
  root := .composite ⟨0, "flow", "flow", true, true⟩ [] []
    [.atomic (senderPort 4 "first").parent [] [senderPort 4 "first"],
      .atomic (senderPort 5 "second").parent [] [senderPort 5 "second"],
      .composite innerRef [] [passPort] [.atomic sinkPort.parent [] [sinkPort]] []
        [⟨passPort, sinkPort⟩]]
    [] [⟨senderPort 4 "first", passPort⟩, ⟨senderPort 5 "second", passPort⟩]
  wellFormed := by constructor <;> decide

/-- Without a loss there would be two connections at the component inside. -/
theorem resolvePlaceholders_complete_iff_fanIn :
    ∃ full, fill fanIn.root = .ok full ∧ full.result = true ∧
      (full.connections.LosesNothing ↔ full.connections.FirstSendersSuffice) :=
  resolvePlaceholders_complete_iff fanIn (by decide)

/-- The second of two senders at a placeholder is lost. -/
theorem resolvePlaceholders_loses_fanIn :
    ¬ ∀ flow : Flow, Passes (checkParameterConnectionIntegrity flow.root) →
      ∃ full, fill flow.root = .ok full ∧ full.connections.LosesNothing := by
  intro h
  obtain ⟨full, hfull, hclaim⟩ := h fanIn (by decide)
  have hmap : (fill fanIn.root).map (·.connections) =
      .ok [(passPort, senderPort 4 "first"), (passPort, senderPort 5 "second"),
        (sinkPort, passPort)] := by decide
  rw [hfull] at hmap
  have hfull : full.connections = _ := Except.ok.inj hmap
  rw [hfull] at hclaim
  rcases hclaim with ⟨hthrow, -⟩ | ⟨flat, hflat, hexact⟩
  · exact absurd hthrow (by decide)
  · have hkept : flat = [(sinkPort, senderPort 4 "first")] :=
      Except.ok.inj (hflat.symm.trans (by decide))
    have hlost : (sinkPort, senderPort 5 "second") ∈ flat := by
      refine (hexact _ _).mpr ⟨by decide, by decide, ?_⟩
      refine Backtrace.Via.snoc (Backtrace.Via.single ?_)
        (show passPort.isPlaceholder = true by decide) ?_
      · unfold Connects
        decide
      · unfold Connects
        decide
    rw [hkept] at hlost
    exact absurd hlost (by decide)

end ParameterConnectionMap

end Visr
