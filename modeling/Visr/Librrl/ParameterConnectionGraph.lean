import Visr.Library.ConnectedComponents
import Visr.Librrl.ParameterConnectionMap

/-!
# The graph of the parameter connections

The ports of a flat parameter connection map and the connections between them form an
undirected graph.  Its connected components are the groups of ports that communicate with
each other.

## Main results

* `create_spec` — vertices and edges of the graph.
* `componentOf_eq_iff` — when two ports get into the same component.
* `mem_sendPorts_iff`, `mem_receivePorts_iff` — the ports of a component.
-/

namespace Visr

open Relation (EqvGen)

/-- `connected_components`, for undirected graphs on the vertices below `numVertices`: the
number of components, and the number of the component of each vertex. -/
structure ComponentLabelling where
  count : ℕ → List (ℕ × ℕ) → ℕ
  label : ℕ → List (ℕ × ℕ) → ℕ → ℕ
  label_lt : ∀ {numVertices : ℕ} {edges : List (ℕ × ℕ)} {v : ℕ}, v < numVertices →
    label numVertices edges v < count numVertices edges
  label_eq_iff : ∀ {numVertices : ℕ} {edges : List (ℕ × ℕ)} {u v : ℕ},
    u < numVertices → v < numVertices →
    (label numVertices edges u = label numVertices edges v ↔
      ConnectedComponents.Connected edges u v)
  exists_label_eq : ∀ {numVertices : ℕ} {edges : List (ℕ × ℕ)} {c : ℕ},
    c < count numVertices edges → ∃ v < numVertices, label numVertices edges v = c

/-- Merging classes edge by edge provides what is documented. -/
def mergingLabelling : ComponentLabelling where
  count numVertices edges :=
    (ConnectedComponents.components edges (List.range numVertices)).length
  label numVertices edges := ConnectedComponents.label edges (List.range numVertices)
  label_lt h := ConnectedComponents.label_lt (List.mem_range.mpr h)
  label_eq_iff h _ := ConnectedComponents.label_eq_iff (List.mem_range.mpr h)
  exists_label_eq h := by
    obtain ⟨v, hv, hlabel⟩ := ConnectedComponents.exists_label_eq h
    exact ⟨v, List.mem_range.mp hv, hlabel⟩

/-- The ports of a connected component. -/
structure ConnectedPorts where
  sendPorts : List ParameterPort
  receivePorts : List ParameterPort

namespace ConnectedPorts

def numSenders (connection : ConnectedPorts) : ℕ := connection.sendPorts.length

/-- The source returns the number of senders here as well. -/
def numReceivers (connection : ConnectedPorts) : ℕ := connection.sendPorts.length

end ConnectedPorts

/-- The graph; a vertex descriptor is a position in `ports`. -/
structure ParameterConnectionGraph where
  ports : List ParameterPort
  edges : List (ℕ × ℕ)

namespace ParameterConnectionGraph

/-- Adds a vertex for a port that has none. -/
def addVertex (g : ParameterConnectionGraph) (port : ParameterPort) : ParameterConnectionGraph :=
  if port ∈ g.ports then g else { g with ports := g.ports ++ [port] }

/-- Adds an edge for a connection.  The graph is undirected, so an edge in the other
direction is found as well. -/
def insertConnection (g : ParameterConnectionGraph) (connection : ParameterPort × ParameterPort) :
    Except Exception ParameterConnectionGraph :=
  let g := (g.addVertex connection.2).addVertex connection.1
  let senderVertex := g.ports.idxOf connection.2
  let receiverVertex := g.ports.idxOf connection.1
  if (senderVertex, receiverVertex) ∈ g.edges ∨ (receiverVertex, senderVertex) ∈ g.edges then
    .error (.logicError ("ParameterConnectionGraph: Detected double edge or two reverse " ++
      "connection to connection " ++ fullyQualifiedName connection.2.toPortBase ++ "->" ++
      fullyQualifiedName connection.1.toPortBase ++ "."))
  else .ok { g with edges := g.edges ++ [(senderVertex, receiverVertex)] }

/-- The graph of a connection map. -/
def create (connections : ParameterConnectionMap) : Except Exception ParameterConnectionGraph :=
  connections.foldlM insertConnection ⟨[], []⟩

/-- Whether a port receives: inputs of contained components and outputs of the flow. -/
def isReceivePort (port : ParameterPort) : Bool :=
  (!isToplevelPort port.toPortBase && port.direction = .input) ||
    (isToplevelPort port.toPortBase && port.direction = .output)

/-- The number of the component of a port. -/
def componentOf (labelling : ComponentLabelling) (g : ParameterConnectionGraph)
    (port : ParameterPort) : ℕ :=
  labelling.label g.ports.length g.edges (g.ports.idxOf port)

/-- The ports of each component, in the order of the vertices. -/
def connectedPorts (labelling : ComponentLabelling) (g : ParameterConnectionGraph) :
    List ConnectedPorts :=
  if g.ports = [] then []
  else (List.range (labelling.count g.ports.length g.edges)).map fun compIdx =>
    let ports := g.ports.filter fun port => g.componentOf labelling port = compIdx
    { sendPorts := ports.filter fun port => !isReceivePort port
      receivePorts := ports.filter isReceivePort }

/-! ### Vertices and edges -/

/-- The graph of a list of connections: a vertex for each of their ports, an edge for each
connection. -/
structure GraphOf (connections : List (ParameterPort × ParameterPort))
    (g : ParameterConnectionGraph) : Prop where
  nodup : g.ports.Nodup
  mem_ports : ∀ p, p ∈ g.ports ↔ ∃ c ∈ connections, p = c.1 ∨ p = c.2
  mem_edges : ∀ e, e ∈ g.edges ↔
    ∃ c ∈ connections, e = (g.ports.idxOf c.2, g.ports.idxOf c.1)

theorem addVertex_spec {g : ParameterConnectionGraph} (hnodup : g.ports.Nodup)
    (port : ParameterPort) :
    (g.addVertex port).ports.Nodup ∧
      (∀ p, p ∈ (g.addVertex port).ports ↔ p ∈ g.ports ∨ p = port) ∧
      (g.addVertex port).edges = g.edges ∧
      ∀ p ∈ g.ports, (g.addVertex port).ports.idxOf p = g.ports.idxOf p := by
  unfold addVertex
  by_cases hport : port ∈ g.ports
  · rw [if_pos hport]
    refine ⟨hnodup, fun p => ⟨Or.inl, ?_⟩, rfl, fun p _ => rfl⟩
    rintro (hp | rfl)
    · exact hp
    · exact hport
  · rw [if_neg hport]
    refine ⟨?_, by simp, rfl, fun p hp => List.idxOf_append_of_mem hp⟩
    exact List.nodup_append.mpr ⟨hnodup, List.nodup_singleton port, fun a ha b hb hab => by
      rw [List.mem_singleton.mp hb] at hab
      exact hport (hab ▸ ha)⟩

/-- One more connection. -/
theorem GraphOf.insertConnection {connections : List (ParameterPort × ParameterPort)}
    {g g' : ParameterConnectionGraph} {connection : ParameterPort × ParameterPort}
    (h : GraphOf connections g) (hins : g.insertConnection connection = .ok g') :
    GraphOf (connections ++ [connection]) g' := by
  obtain ⟨hnodup₁, hmem₁, hedges₁, hidx₁⟩ := addVertex_spec h.nodup connection.2
  obtain ⟨hnodup₂, hmem₂, hedges₂, hidx₂⟩ := addVertex_spec hnodup₁ connection.1
  unfold ParameterConnectionGraph.insertConnection at hins
  dsimp only at hins
  split at hins
  · cases hins
  cases hins
  -- the earlier vertices stay where they are
  have hidx : ∀ p ∈ g.ports,
      ((g.addVertex connection.2).addVertex connection.1).ports.idxOf p = g.ports.idxOf p := by
    intro p hp
    rw [hidx₂ p ((hmem₁ p).mpr (Or.inl hp)), hidx₁ p hp]
  constructor
  case nodup => exact hnodup₂
  case mem_ports =>
    intro p
    rw [hmem₂, hmem₁, h.mem_ports]
    simp only [List.mem_append, List.mem_singleton]
    constructor
    · rintro ((⟨c, hc, hp⟩ | hp) | hp)
      · exact ⟨c, Or.inl hc, hp⟩
      · exact ⟨connection, Or.inr rfl, Or.inr hp⟩
      · exact ⟨connection, Or.inr rfl, Or.inl hp⟩
    · rintro ⟨c, hc | rfl, hp⟩
      · exact Or.inl (Or.inl ⟨c, hc, hp⟩)
      · cases hp with
        | inl hp => exact Or.inr hp
        | inr hp => exact Or.inl (Or.inr hp)
  case mem_edges =>
    intro e
    dsimp only
    rw [List.mem_append, hedges₂, hedges₁, h.mem_edges, List.mem_singleton]
    have hold : ∀ c ∈ connections,
        (((g.addVertex connection.2).addVertex connection.1).ports.idxOf c.2,
          ((g.addVertex connection.2).addVertex connection.1).ports.idxOf c.1) =
        (g.ports.idxOf c.2, g.ports.idxOf c.1) := by
      intro c hc
      rw [hidx c.2 ((h.mem_ports _).mpr ⟨c, hc, Or.inr rfl⟩),
        hidx c.1 ((h.mem_ports _).mpr ⟨c, hc, Or.inl rfl⟩)]
    constructor
    · rintro (⟨c, hc, rfl⟩ | rfl)
      · exact ⟨c, List.mem_append_left _ hc, (hold c hc).symm⟩
      · exact ⟨connection, List.mem_append_right _ List.mem_cons_self, rfl⟩
    · rintro ⟨c, hc, rfl⟩
      rcases List.mem_append.mp hc with hc | hc
      · exact Or.inl ⟨c, hc, hold c hc⟩
      · rw [List.mem_singleton.mp hc]
        exact Or.inr rfl

theorem create_spec {connections : ParameterConnectionMap} {g : ParameterConnectionGraph}
    (h : create connections = .ok g) : GraphOf connections g := by
  have hfold : ∀ (l done : List (ParameterPort × ParameterPort)) (g₀ : ParameterConnectionGraph),
      GraphOf done g₀ → l.foldlM insertConnection g₀ = .ok g → GraphOf (done ++ l) g := by
    intro l
    induction l with
    | nil =>
      intro done g₀ hg₀ hok
      cases hok
      rw [List.append_nil]
      exact hg₀
    | cons c l ih =>
      intro done g₀ hg₀ hok
      rw [List.foldlM_cons] at hok
      rcases hstep : g₀.insertConnection c with e | g₁
      · rw [hstep] at hok
        cases hok
      · rw [hstep] at hok
        have hrest := ih (done ++ [c]) g₁ (hg₀.insertConnection hstep) hok
        rwa [List.append_assoc] at hrest
  have hempty : GraphOf [] ⟨[], []⟩ := ⟨List.nodup_nil, by simp, by simp⟩
  exact hfold connections [] _ hempty h

/-! ### The components -/

/-- Two ports are connected by a chain of connections, regardless of their directions. -/
def PortConnected (connections : ParameterConnectionMap) : ParameterPort → ParameterPort → Prop :=
  EqvGen fun s r => (r, s) ∈ connections

section Components

variable {connections : ParameterConnectionMap} {g : ParameterConnectionGraph}

theorem GraphOf.connected_of_portConnected (h : GraphOf connections g) {p q : ParameterPort}
    (hpq : PortConnected connections p q) :
    ConnectedComponents.Connected g.edges (g.ports.idxOf p) (g.ports.idxOf q) := by
  induction hpq with
  | rel s r hsr => exact EqvGen.rel _ _ ((h.mem_edges _).mpr ⟨(r, s), hsr, rfl⟩)
  | refl p => exact EqvGen.refl _
  | symm p q _ ih => exact ih.symm
  | trans p q r _ _ ih ih' => exact ih.trans _ _ _ ih'

theorem GraphOf.portConnected_of_connected (h : GraphOf connections g) {u v : ℕ}
    (huv : ConnectedComponents.Connected g.edges u v) :
    u = v ∨ ∃ p ∈ g.ports, ∃ q ∈ g.ports, u = g.ports.idxOf p ∧ v = g.ports.idxOf q ∧
      PortConnected connections p q := by
  induction huv with
  | rel u v huv =>
    right
    obtain ⟨⟨r, s⟩, hc, heq⟩ := (h.mem_edges _).mp huv
    cases heq
    exact ⟨s, (h.mem_ports s).mpr ⟨_, hc, Or.inr rfl⟩, r, (h.mem_ports r).mpr ⟨_, hc, Or.inl rfl⟩,
      rfl, rfl, EqvGen.rel s r hc⟩
  | refl u => exact Or.inl rfl
  | symm u v _ ih =>
    rcases ih with rfl | ⟨p, hp, q, hq, hu, hv, hpq⟩
    · exact Or.inl rfl
    · exact Or.inr ⟨q, hq, p, hp, hv, hu, hpq.symm⟩
  | trans u v w _ _ ih ih' =>
    rcases ih with rfl | ⟨p, hp, q, hq, hu, hv, hpq⟩
    · exact ih'
    · rcases ih' with rfl | ⟨q', hq', r, hr, hv', hw, hqr⟩
      · exact Or.inr ⟨p, hp, q, hq, hu, hv, hpq⟩
      · obtain rfl : q = q' := (List.idxOf_inj hq).mp (hv.symm.trans hv')
        exact Or.inr ⟨p, hp, r, hr, hu, hw, hpq.trans _ _ _ hqr⟩

/-- **Components.**  Two ports get into the same component exactly if they are connected. -/
theorem GraphOf.componentOf_eq_iff (h : GraphOf connections g) (labelling : ComponentLabelling)
    {p q : ParameterPort} (hp : p ∈ g.ports) (hq : q ∈ g.ports) :
    g.componentOf labelling p = g.componentOf labelling q ↔ PortConnected connections p q := by
  unfold componentOf
  rw [labelling.label_eq_iff (List.idxOf_lt_length_of_mem hp) (List.idxOf_lt_length_of_mem hq)]
  constructor
  · intro hpq
    rcases h.portConnected_of_connected hpq with heq | ⟨p', hp', q', hq', hu, hv, hconn⟩
    · rw [(List.idxOf_inj hp).mp heq]
      exact EqvGen.refl q
    · rw [(List.idxOf_inj hp).mp hu, (List.idxOf_inj hq).mp hv]
      exact hconn
  · exact h.connected_of_portConnected

theorem length_connectedPorts (labelling : ComponentLabelling) (g : ParameterConnectionGraph) :
    (g.connectedPorts labelling).length = labelling.count g.ports.length g.edges := by
  unfold connectedPorts
  by_cases hnil : g.ports = []
  · rw [if_pos hnil, hnil]
    -- without vertices there are no components
    by_contra hne
    obtain ⟨v, hv, -⟩ := labelling.exists_label_eq (Nat.pos_of_ne_zero (Ne.symm hne))
    exact absurd hv (Nat.not_lt_zero v)
  · rw [if_neg hnil, List.length_map, List.length_range]

/-- The ports of the component with a given number. -/
theorem getElem?_connectedPorts {labelling : ComponentLabelling} {i : ℕ}
    {connection : ConnectedPorts} (h : (g.connectedPorts labelling)[i]? = some connection) :
    (∀ p, p ∈ connection.sendPorts ↔
      (p ∈ g.ports ∧ g.componentOf labelling p = i) ∧ isReceivePort p = false) ∧
    ∀ p, p ∈ connection.receivePorts ↔
      (p ∈ g.ports ∧ g.componentOf labelling p = i) ∧ isReceivePort p = true := by
  unfold connectedPorts at h
  by_cases hnil : g.ports = []
  · rw [if_pos hnil] at h
    cases h
  · rw [if_neg hnil, List.getElem?_map] at h
    obtain ⟨j, hj, rfl⟩ := Option.map_eq_some_iff.mp h
    obtain ⟨hlt, hget⟩ := List.getElem?_eq_some_iff.mp hj
    rw [List.getElem_range] at hget
    subst hget
    constructor
    · intro p
      simp only [List.mem_filter, decide_eq_true_eq, Bool.not_eq_true']
    · intro p
      simp only [List.mem_filter, decide_eq_true_eq]

end Components

end ParameterConnectionGraph

end Visr
