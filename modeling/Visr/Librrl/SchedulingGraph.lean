import Visr.Library.DepthFirst
import Visr.Librrl.AudioConnectionMap
import Visr.Librrl.ParameterConnectionMap

/-!
# The scheduling graph

The order in which the atomic components of a flow are executed.  The vertices of the
dependency graph are the atomic components, an artificial source and an artificial sink;
the edges lead from the sender of a connection to its receiver.

Depth-first search and topological sorting come from a graph library, of which only the
documented behaviour is used.

## Main results

* `initialise_represents` — the edges of the graph.
* `sequentialSchedule_spec` — scheduling is sound and complete.
-/

namespace Visr

open Relation (TransGen ReflTransGen)

/-! ### The graph library -/

/-- The functions of the graph library that are used, for graphs on the vertices below
`numVertices`.  They are given the out-edges of each vertex, in their order. -/
structure GraphLibrary where
  /-- `depth_first_visit`: the edges for which `back_edge` is called. -/
  depthFirstVisit : (ℕ → List ℕ) → ℕ → ℕ → List (ℕ × ℕ)
  /-- `topological_sort`: the vertices in the order of the output iterator, or `none` when
  `not_a_dag` is thrown. -/
  topologicalSort : (ℕ → List ℕ) → ℕ → Option (List ℕ)
  /-- Back edges lead to an ancestor in the search tree. -/
  backEdge : ∀ {adj : ℕ → List ℕ} {numVertices start : ℕ},
    (∀ u < numVertices, ∀ v ∈ adj u, v < numVertices) → start < numVertices →
    ∀ e ∈ depthFirstVisit adj numVertices start,
      DepthFirst.Edge adj e.1 e.2 ∧ ReflTransGen (DepthFirst.Edge adj) e.2 e.1
  /-- Sorting needs a directed acyclic graph. -/
  sort_eq_none : ∀ {adj : ℕ → List ℕ} {numVertices : ℕ},
    (∀ u < numVertices, ∀ v ∈ adj u, v < numVertices) →
    (topologicalSort adj numVertices = none ↔
      ∃ u < numVertices, TransGen (DepthFirst.Edge adj) u u)
  /-- All vertices are output. -/
  sort_perm : ∀ {adj : ℕ → List ℕ} {numVertices : ℕ} {order : List ℕ},
    (∀ u < numVertices, ∀ v ∈ adj u, v < numVertices) →
    topologicalSort adj numVertices = some order → order.Perm (List.range numVertices)
  /-- They are output in reverse topological order. -/
  sort_order : ∀ {adj : ℕ → List ℕ} {numVertices : ℕ} {order : List ℕ},
    (∀ u < numVertices, ∀ v ∈ adj u, v < numVertices) →
    topologicalSort adj numVertices = some order → DepthFirst.SuccessorsFirst adj order

theorem closed_range {adj : ℕ → List ℕ} {numVertices : ℕ}
    (h : ∀ u < numVertices, ∀ v ∈ adj u, v < numVertices) :
    ∀ u ∈ List.range numVertices, ∀ v, DepthFirst.Edge adj u v → v ∈ List.range numVertices := by
  intro u hu v hv
  exact List.mem_range.mpr (h u (List.mem_range.mp hu) v hv)

/-- Depth-first search provides what is documented. -/
def depthFirstLibrary : GraphLibrary where
  depthFirstVisit adj numVertices start :=
    (DepthFirst.visit adj numVertices [] ⟨[], []⟩ start).backEdges
  topologicalSort adj numVertices := DepthFirst.topologicalSort adj (List.range numVertices)
  backEdge hclosed hstart e he := by
    refine DepthFirst.visit_backEdges (closed_range hclosed) (List.mem_range.mpr hstart) ?_
    rw [List.length_range]
    exact he
  sort_eq_none hclosed := by
    rw [DepthFirst.topologicalSort_eq_none_iff (closed_range hclosed) List.nodup_range]
    simp only [List.mem_range]
  sort_perm hclosed h :=
    DepthFirst.topologicalSort_perm (closed_range hclosed) List.nodup_range h
  sort_order hclosed h := DepthFirst.topologicalSort_successorsFirst (closed_range hclosed) h

/-! ### Atomic components and flat connections -/

mutual

/-- The atomic components of a flow, in the order of the hierarchy. -/
def collectAllComponents : Component → List ComponentRef
  | .atomic self _ _ => [self]
  | .composite _ _ _ comps _ _ => collectComponentsList comps

/-- The loop over the contained components. -/
def collectComponentsList : List Component → List ComponentRef
  | [] => []
  | c :: comps => collectAllComponents c ++ collectComponentsList comps

end

theorem collectComponentsList_eq (comps : List Component) :
    collectComponentsList comps = comps.flatMap collectAllComponents := by
  induction comps with
  | nil => rfl
  | cons c comps ih => rw [collectComponentsList, ih, List.flatMap_cons]

/-- The atomic components among all components of the tree. -/
theorem collectAllComponents_eq (root : Component) :
    collectAllComponents root =
      (root.preorder.filter fun c => !c.isComposite).map Component.self := by
  induction root using Component.induct with
  | atomic self aps pps => rfl
  | composite self aps pps comps acs pcs ih =>
    rw [collectAllComponents, collectComponentsList_eq, Component.preorder_eq]
    have hcomposite : (Component.composite self aps pps comps acs pcs).isComposite = true := rfl
    rw [List.filter_cons_of_neg (by simp [hcomposite])]
    change comps.flatMap collectAllComponents = _
    rw [List.flatMap_congr ih, List.filter_flatMap, List.map_flatMap]
    rfl

theorem nodup_collectAllComponents {root : Component} (hwf : root.WellFormed) :
    (collectAllComponents root).Nodup := by
  have haddresses : ((collectAllComponents root).map (·.address)).Nodup := by
    rw [collectAllComponents_eq, List.map_map]
    exact hwf.addresses.sublist (List.filter_sublist.map _)
  exact haddresses.of_map

theorem isComposite_of_mem_collectAllComponents {root : Component} (hwf : root.WellFormed)
    {c : ComponentRef} (hc : c ∈ collectAllComponents root) : c.isComposite = false := by
  rw [collectAllComponents_eq] at hc
  obtain ⟨comp, hcomp, rfl⟩ := List.mem_map.mp hc
  obtain ⟨hmem, hatomic⟩ := List.mem_filter.mp hcomp
  rw [hwf.isComposite comp hmem]
  simpa using hatomic

/-- The owners of the send and receive port of every connection. -/
def dependencies (connections : AudioConnectionMap)
    (parameterConnections : ParameterConnectionMap) : List (ComponentRef × ComponentRef) :=
  connections.map (fun conn => (conn.1.port.parent, conn.2.port.parent)) ++
    -- for parameter connections, the first port is the receiver
    parameterConnections.map fun conn => (conn.2.parent, conn.1.parent)

/-- The flat connection maps of a flow: all ports belong to atomic components or to the
flow itself. -/
structure FlatConnections (root : Component) where
  connections : AudioConnectionMap
  parameterConnections : ParameterConnectionMap
  sender : ∀ d ∈ dependencies connections parameterConnections,
    d.1 ∈ collectAllComponents root ∨ d.1 = root.self
  receiver : ∀ d ∈ dependencies connections parameterConnections,
    d.2 ∈ collectAllComponents root ∨ d.2 = root.self

/-- A connection leads from the concrete component `a` to the concrete component `b`. -/
def DependsOn (connections : AudioConnectionMap) (parameterConnections : ParameterConnectionMap)
    (a b : ComponentRef) : Prop :=
  (a, b) ∈ dependencies connections parameterConnections ∧
    a.isComposite = false ∧ b.isComposite = false

/-- The owners of concrete ports are atomic components. -/
theorem mem_collectAllComponents {root : Component} (hwf : root.WellFormed) {c : ComponentRef}
    (h : c ∈ collectAllComponents root ∨ c = root.self) (hc : c.isComposite = false) :
    c ∈ collectAllComponents root := by
  rcases h with h | rfl
  · exact h
  · rw [collectAllComponents_eq]
    refine List.mem_map_of_mem (List.mem_filter.mpr ⟨root.mem_preorder_self, ?_⟩)
    rw [← hwf.isComposite root root.mem_preorder_self, hc]
    rfl

/-! ### The graph -/

/-- `SchedulingGraph::NodeType`. -/
inductive NodeType
  | source
  | sink
  | processor
  deriving DecidableEq, Repr

/-- The values of the enumerators, which order the nodes. -/
def NodeType.toNat : NodeType → ℕ
  | source => 0
  | sink => 1
  | processor => 2

/-- A node with the component it stands for; the source stands for none. -/
structure ProcessingNode where
  type : NodeType
  node : Option ComponentRef
  deriving DecidableEq, Repr

namespace ProcessingNode

/-- The node of an atomic component. -/
def processor (atom : ComponentRef) : ProcessingNode := ⟨.processor, some atom⟩

/-- The order of the underlying tuples: by type, then by address. -/
def lt (a b : ProcessingNode) : Bool :=
  let address (n : ProcessingNode) : ℕ := (n.node.map (·.address)).getD 0
  a.type.toNat < b.type.toNat ||
    (a.type.toNat == b.type.toNat && address a < address b)

end ProcessingNode

/-- The dependency graph.  A vertex descriptor is a position in `nodes`. -/
structure SchedulingGraph where
  nodes : List ProcessingNode
  edges : List (ℕ × ℕ)
  vertexLookup : List (ProcessingNode × ℕ)
  sourceVertex : ℕ
  sinkVertex : ℕ

namespace SchedulingGraph

/-- Adds a vertex and enters it in the lookup table, which is a map ordered by the nodes. -/
def addNode (g : SchedulingGraph) (node : ProcessingNode) : SchedulingGraph :=
  { g with
    nodes := g.nodes ++ [node]
    vertexLookup := (g.vertexLookup.filter fun entry => entry.1 ≠ node).orderedInsert
      (fun a b => a.1.lt b.1) (node, g.nodes.length) }

/-- Adds an edge.  Parallel edges are possible: the check for duplicates has no effect. -/
def insertDependencyEdge (g : SchedulingGraph) (sourceVertex destVertex : ℕ) : SchedulingGraph :=
  { g with edges := g.edges ++ [(sourceVertex, destVertex)] }

/-- The vertex of an atomic component. -/
def findVertex (g : SchedulingGraph) (atom : ComponentRef) : Option ℕ :=
  (g.vertexLookup.find? fun entry => entry.1 = ProcessingNode.processor atom).map Prod.snd

/-- Insertion into a set of pointers. -/
def insertPointer (c : ComponentRef) (set : List ComponentRef) : List ComponentRef :=
  if c ∈ set then set else set.orderedInsert (fun a b => a.address < b.address) c

/-- The components that `atom` receives from, except for composite ones, that is, for
external inputs. -/
def predecessors (deps : List (ComponentRef × ComponentRef)) (atom : ComponentRef) :
    List ComponentRef :=
  deps.foldl (fun set d =>
    if d.1.isComposite then set else if d.2 = atom then insertPointer d.1 set else set) []

/-- The components that `atom` sends to, if it is not composite. -/
def successors (deps : List (ComponentRef × ComponentRef)) (atom : ComponentRef) :
    List ComponentRef :=
  deps.foldl (fun set d =>
    if d.1.isComposite then set else if d.1 = atom then insertPointer d.2 set else set) []

/-- The edge from a preceding component.  It has no result when that component has no
vertex, since the end iterator is dereferenced then. -/
def insertPredecessorEdge (destVertex : ℕ) (g : SchedulingGraph) (precAtom : ComponentRef) :
    Option SchedulingGraph :=
  (g.findVertex precAtom).map fun sendVertex => g.insertDependencyEdge sendVertex destVertex

/-- The edges into a vertex, from the source if there are no predecessors. -/
def connectPredecessors (deps : List (ComponentRef × ComponentRef)) (atom : ComponentRef)
    (vertex : ℕ) (g : SchedulingGraph) : Option SchedulingGraph :=
  if predecessors deps atom = [] then some (g.insertDependencyEdge g.sourceVertex vertex)
  else (predecessors deps atom).foldlM (insertPredecessorEdge vertex) g

/-- The edge to the sink, if there are no successors. -/
def connectSink (deps : List (ComponentRef × ComponentRef)) (type : NodeType)
    (atom : ComponentRef) (vertex : ℕ) (g : SchedulingGraph) : SchedulingGraph :=
  if successors deps atom = [] ∧ type ≠ .sink then g.insertDependencyEdge vertex g.sinkVertex
  else g

/-- The body of the loop of `initialise` over the vertices, which skips the source. -/
def connectVertex (deps : List (ComponentRef × ComponentRef)) (g : SchedulingGraph)
    (atomVertex : ProcessingNode × ℕ) : Option SchedulingGraph :=
  if atomVertex.1.type = .source then some g
  else do
    let atom ← atomVertex.1.node
    let g ← g.connectPredecessors deps atom atomVertex.2
    return g.connectSink deps atomVertex.1.type atom atomVertex.2

/-- The vertices of the graph of a flow. -/
def vertices (flow : Component) : SchedulingGraph :=
  let empty : SchedulingGraph := ⟨[], [], [], 0, 1⟩
  -- the flow itself is the sink, which captures the connections to external outputs
  let g := (empty.addNode ⟨.source, none⟩).addNode ⟨.sink, some flow.self⟩
  (collectAllComponents flow).foldl (fun g atom => g.addNode (.processor atom)) g

/-- Builds the graph of a flow. -/
def initialise (flow : Component) (connections : AudioConnectionMap)
    (parameterConnections : ParameterConnectionMap) : Option SchedulingGraph :=
  let g := vertices flow
  g.vertexLookup.foldlM (connectVertex (dependencies connections parameterConnections)) g

/-- The targets of the edges from a vertex. -/
def outVertices (g : SchedulingGraph) (u : ℕ) : List ℕ :=
  (g.edges.filter fun e => e.1 = u).map Prod.snd

def nodeName (node : ProcessingNode) : String :=
  match node.type, node.node with
  | .source, _ => "Source"
  | .sink, _ => "Sink"
  | .processor, some atom => atom.fullName
  | .processor, none => ""

/-- Searches for cycles from the source. -/
def checkAcyclicGraph (lib : GraphLibrary) (g : SchedulingGraph) : CheckResult :=
  let backEdges := lib.depthFirstVisit g.outVertices g.nodes.length g.sourceVertex
  let name (u : ℕ) : String := ((g.nodes[u]?).map nodeName).getD ""
  if backEdges ≠ [] then
    CheckResult.passed.fail ("SchedulingGraph: Graph contains cycles: " ++
      String.join (backEdges.map fun e => name e.1 ++ "->" ++ name e.2 ++ ", "))
  else .passed

/-- The atomic component of a vertex; the artificial vertices have none. -/
def processorOf (g : SchedulingGraph) (u : ℕ) : Option ComponentRef :=
  match g.nodes[u]? with
  | some ⟨.processor, atom⟩ => atom
  | _ => none

/-- The schedule, or the exception thrown. -/
def sequentialSchedule (lib : GraphLibrary) (g : SchedulingGraph) :
    Except Exception (List ComponentRef) :=
  let check := g.checkAcyclicGraph lib
  if check.result = false then .error (.invalidArgument (String.join check.messages))
  else match lib.topologicalSort g.outVertices g.nodes.length with
    | none => .error (.invalidArgument "The graph must be a DAG.")
    | some topoSort =>
      if topoSort.length ≠ g.vertexLookup.length then
        .error (.logicError ("SchedulingGraph::sequentialSchedule(): Internal logic failure: " ++
          "Generated schedule does not contain all atoms (including the artificial source " ++
          "and sink nodes)."))
      else .ok (topoSort.reverse.filterMap g.processorOf)

/-! ### Predecessors and successors -/

section Sets

variable {deps : List (ComponentRef × ComponentRef)} {atom c : ComponentRef}

theorem mem_insertPointer {p : ComponentRef} {set : List ComponentRef} :
    p ∈ insertPointer c set ↔ p = c ∨ p ∈ set := by
  unfold insertPointer
  by_cases hc : c ∈ set
  · rw [if_pos hc]
    constructor
    · exact Or.inr
    · intro h
      cases h with
      | inl h => rwa [h]
      | inr h => exact h
  · rw [if_neg hc, List.mem_orderedInsert]

theorem mem_predecessors :
    c ∈ predecessors deps atom ↔ (c, atom) ∈ deps ∧ c.isComposite = false := by
  -- the set grows by the senders of the component, but for composite ones
  have hfold : ∀ set : List ComponentRef,
      c ∈ deps.foldl (fun set d => if d.1.isComposite then set
        else if d.2 = atom then insertPointer d.1 set else set) set ↔
      c ∈ set ∨ (c, atom) ∈ deps ∧ c.isComposite = false := by
    induction deps with
    | nil => simp
    | cons d deps ih =>
      intro set
      obtain ⟨a, b⟩ := d
      rw [List.foldl_cons, ih, List.mem_cons, Prod.mk.injEq]
      dsimp only
      by_cases ha : a.isComposite = true
      · rw [if_pos ha]
        have hne : c = a → c.isComposite ≠ false := by
          intro h
          rw [h, ha]
          exact Bool.true_eq_false_eq_False
        tauto
      · rw [if_neg ha]
        rw [Bool.not_eq_true] at ha
        have heq : c = a → c.isComposite = false := by
          intro h
          rw [h, ha]
        by_cases hb : b = atom
        · rw [if_pos hb, mem_insertPointer]
          tauto
        · rw [if_neg hb]
          have hb' : ¬ atom = b := fun h => hb h.symm
          tauto
  rw [predecessors, hfold]
  simp

end Sets

/-! ### The vertices -/

/-- All nodes are different, and the lookup table contains each with its position. -/
structure Labelled (g : SchedulingGraph) : Prop where
  nodup : g.nodes.Nodup
  lookup : g.vertexLookup.Perm g.nodes.zipIdx

theorem Labelled.addNode {g : SchedulingGraph} (h : g.Labelled) (node : ProcessingNode)
    (hnew : node ∉ g.nodes) : (g.addNode node).Labelled := by
  -- nothing is replaced in the lookup table
  have hfilter : (g.vertexLookup.filter fun entry => entry.1 ≠ node) = g.vertexLookup := by
    rw [List.filter_eq_self]
    intro entry hentry
    have hmem : entry.1 ∈ g.nodes := List.fst_mem_of_mem_zipIdx (h.lookup.mem_iff.mp hentry)
    have hne : entry.1 ≠ node := by
      intro heq
      rw [heq] at hmem
      exact hnew hmem
    simp [hne]
  constructor
  · exact List.nodup_append.mpr ⟨h.nodup, List.nodup_singleton node, fun a ha b hb hab => by
      rw [List.mem_singleton.mp hb] at hab
      exact hnew (hab ▸ ha)⟩
  · change (List.orderedInsert _ _ _).Perm (g.nodes ++ [node]).zipIdx
    rw [hfilter, List.zipIdx_append]
    refine (List.perm_orderedInsert _ _ _).trans ?_
    refine (h.lookup.cons _).trans ?_
    have hcomm := @List.perm_append_comm _ [(node, g.nodes.length)] g.nodes.zipIdx
    simpa using hcomm

theorem foldl_addNode {atoms : List ComponentRef} (hnodup : atoms.Nodup) {g : SchedulingGraph}
    (hg : g.Labelled) (hnew : ∀ atom ∈ atoms, ProcessingNode.processor atom ∉ g.nodes) :
    let g' := atoms.foldl (fun g atom => g.addNode (.processor atom)) g
    g'.Labelled ∧ g'.nodes = g.nodes ++ atoms.map .processor ∧ g'.edges = g.edges ∧
      g'.sourceVertex = g.sourceVertex ∧ g'.sinkVertex = g.sinkVertex := by
  induction atoms generalizing g with
  | nil => exact ⟨hg, by simp, rfl, rfl, rfl⟩
  | cons atom atoms ih =>
    obtain ⟨hnot, hnodup⟩ := List.nodup_cons.mp hnodup
    obtain ⟨hatom, hnew⟩ := List.forall_mem_cons.mp hnew
    have hnew' : ∀ a ∈ atoms, ProcessingNode.processor a ∉ (g.addNode (.processor atom)).nodes := by
      intro a ha hmem
      rcases List.mem_append.mp hmem with hmem | hmem
      · exact hnew a ha hmem
      · have heq : ProcessingNode.processor a = .processor atom := List.mem_singleton.mp hmem
        have haa : a = atom := Option.some.inj (congrArg ProcessingNode.node heq)
        rw [haa] at ha
        exact hnot ha
    obtain ⟨hl, hnodes, hedges, hsource, hsink⟩ := ih hnodup (hg.addNode _ hatom) hnew'
    refine ⟨hl, ?_, hedges, hsource, hsink⟩
    rw [List.foldl_cons, hnodes]
    simp [SchedulingGraph.addNode]

/-- The vertices of a flow: source, sink and the atomic components. -/
theorem vertices_spec {flow : Component} (hwf : flow.WellFormed) :
    (vertices flow).Labelled ∧
      (vertices flow).nodes = ⟨.source, none⟩ :: ⟨.sink, some flow.self⟩ ::
        (collectAllComponents flow).map .processor ∧
      (vertices flow).edges = [] ∧ (vertices flow).sourceVertex = 0 ∧
      (vertices flow).sinkVertex = 1 := by
  have hempty : Labelled ⟨[], [], [], 0, 1⟩ := ⟨List.nodup_nil, List.Perm.nil⟩
  have hsource := hempty.addNode ⟨.source, none⟩ List.not_mem_nil
  have hsink := hsource.addNode ⟨.sink, some flow.self⟩
    (by simp [SchedulingGraph.addNode])
  have hnew : ∀ atom ∈ collectAllComponents flow, ProcessingNode.processor atom ∉
      ((SchedulingGraph.addNode ⟨[], [], [], 0, 1⟩ ⟨.source, none⟩).addNode
        ⟨.sink, some flow.self⟩).nodes := by
    intro atom _
    simp [SchedulingGraph.addNode, ProcessingNode.processor]
  obtain ⟨hl, hnodes, hedges, hs, ht⟩ :=
    foldl_addNode (nodup_collectAllComponents hwf) hsink hnew
  exact ⟨hl, hnodes, hedges, hs, ht⟩

theorem Labelled.mem_lookup {g : SchedulingGraph} (h : g.Labelled) {node : ProcessingNode}
    {v : ℕ} : (node, v) ∈ g.vertexLookup ↔ g.nodes[v]? = some node := by
  rw [h.lookup.mem_iff, List.mem_zipIdx_iff_getElem?]

theorem Labelled.findVertex {g : SchedulingGraph} (h : g.Labelled) {atom : ComponentRef} {v : ℕ} :
    g.findVertex atom = some v ↔ g.nodes[v]? = some (.processor atom) := by
  unfold SchedulingGraph.findVertex
  constructor
  · intro hfind
    obtain ⟨⟨node, v'⟩, hentry, rfl⟩ := Option.map_eq_some_iff.mp hfind
    have hnode : node = .processor atom := by simpa using List.find?_some hentry
    rw [← hnode]
    exact h.mem_lookup.mp (List.mem_of_find?_eq_some hentry)
  · intro hv
    have hmem := h.mem_lookup.mpr hv
    rcases hfind : g.vertexLookup.find? (fun entry => entry.1 = .processor atom) with
      _ | ⟨node, v'⟩
    · have hnone := List.find?_eq_none.mp hfind _ hmem
      simp at hnone
    · -- the node occurs only once
      have hnode : node = .processor atom := by simpa using List.find?_some hfind
      have hv' := h.mem_lookup.mp (List.mem_of_find?_eq_some hfind)
      rw [hnode] at hv'
      have hlt : v < g.nodes.length := (List.getElem?_eq_some_iff.mp hv).1
      have hvv : v = v' := (List.getElem?_inj hlt h.nodup).mp (hv.trans hv'.symm)
      rw [hfind, Option.map_some, hvv]

/-! ### The edges -/

/-- The edges that `connectPredecessors` inserts. -/
def edgesInto (deps : List (ComponentRef × ComponentRef)) (g : SchedulingGraph)
    (atom : ComponentRef) (vertex : ℕ) : List (ℕ × ℕ) :=
  if predecessors deps atom = [] then [(g.sourceVertex, vertex)]
  else (predecessors deps atom).filterMap fun p => (g.findVertex p).map fun u => (u, vertex)

/-- The edge that `connectSink` inserts, if any. -/
def edgesToSink (deps : List (ComponentRef × ComponentRef)) (g : SchedulingGraph)
    (type : NodeType) (atom : ComponentRef) (vertex : ℕ) : List (ℕ × ℕ) :=
  if successors deps atom = [] ∧ type ≠ .sink then [(vertex, g.sinkVertex)] else []

/-- The edges that `connectVertex` inserts. -/
def newEdges (deps : List (ComponentRef × ComponentRef)) (g : SchedulingGraph)
    (atomVertex : ProcessingNode × ℕ) : List (ℕ × ℕ) :=
  match atomVertex.1.node with
  | none => []
  | some atom => edgesInto deps g atom atomVertex.2 ++
      edgesToSink deps g atomVertex.1.type atom atomVertex.2

/-- The same vertices with some edges. -/
def withEdges (g : SchedulingGraph) (edges : List (ℕ × ℕ)) : SchedulingGraph :=
  { g with edges := edges }

theorem foldlM_insertPredecessorEdge {g : SchedulingGraph} {preds : List ComponentRef}
    {vertex : ℕ} (h : ∀ p ∈ preds, ∃ v, g.findVertex p = some v) (edges : List (ℕ × ℕ)) :
    preds.foldlM (insertPredecessorEdge vertex) (g.withEdges edges) =
      some (g.withEdges (edges ++ preds.filterMap fun p =>
        (g.findVertex p).map fun u => (u, vertex))) := by
  induction preds generalizing edges with
  | nil => simp
  | cons p preds ih =>
    obtain ⟨⟨v, hv⟩, h⟩ := List.forall_mem_cons.mp h
    have hstep : insertPredecessorEdge vertex (g.withEdges edges) p =
        some (g.withEdges (edges ++ [(v, vertex)])) := by
      have hfind : (g.withEdges edges).findVertex p = some v := hv
      rw [insertPredecessorEdge, hfind]
      rfl
    have hhead : (p :: preds).filterMap (fun p => (g.findVertex p).map fun u => (u, vertex)) =
        (v, vertex) :: preds.filterMap fun p => (g.findVertex p).map fun u => (u, vertex) := by
      rw [List.filterMap_cons, hv]
      rfl
    rw [List.foldlM_cons, hstep, Option.bind_eq_bind, Option.bind_some, ih h, hhead,
      List.append_assoc]
    rfl

theorem connectPredecessors_eq {deps : List (ComponentRef × ComponentRef)} {g : SchedulingGraph}
    {atom : ComponentRef} (h : ∀ p ∈ predecessors deps atom, ∃ v, g.findVertex p = some v)
    (vertex : ℕ) (edges : List (ℕ × ℕ)) :
    (g.withEdges edges).connectPredecessors deps atom vertex =
      some (g.withEdges (edges ++ edgesInto deps g atom vertex)) := by
  unfold connectPredecessors edgesInto
  by_cases hnil : predecessors deps atom = []
  · rw [if_pos hnil, if_pos hnil]
    rfl
  · rw [if_neg hnil, if_neg hnil]
    exact foldlM_insertPredecessorEdge h edges

theorem connectSink_eq (deps : List (ComponentRef × ComponentRef)) (g : SchedulingGraph)
    (type : NodeType) (atom : ComponentRef) (vertex : ℕ) (edges : List (ℕ × ℕ)) :
    (g.withEdges edges).connectSink deps type atom vertex =
      g.withEdges (edges ++ edgesToSink deps g type atom vertex) := by
  unfold connectSink edgesToSink
  by_cases hsucc : successors deps atom = [] ∧ type ≠ .sink
  · rw [if_pos hsucc, if_pos hsucc]
    rfl
  · rw [if_neg hsucc, if_neg hsucc, List.append_nil]

/-- One vertex, when the atomic components that send to it have vertices. -/
theorem connectVertex_eq {deps : List (ComponentRef × ComponentRef)} {g : SchedulingGraph}
    {atomVertex : ProcessingNode × ℕ}
    (htype : atomVertex.1.type = .source ↔ atomVertex.1.node = none)
    (h : ∀ atom, ∀ p ∈ predecessors deps atom, ∃ v, g.findVertex p = some v)
    (edges : List (ℕ × ℕ)) :
    connectVertex deps (g.withEdges edges) atomVertex =
      some (g.withEdges (edges ++ newEdges deps g atomVertex)) := by
  obtain ⟨⟨type, node⟩, v⟩ := atomVertex
  cases node with
  | none =>
    have hsource : type = .source := htype.mpr rfl
    subst hsource
    simp [connectVertex, newEdges]
  | some atom =>
    have hnot : type ≠ .source := by
      intro hsource
      exact absurd (htype.mp hsource) (Option.some_ne_none atom)
    unfold connectVertex newEdges
    rw [if_neg hnot]
    dsimp only
    rw [Option.bind_eq_bind, Option.bind_some, connectPredecessors_eq (h atom), Option.bind_eq_bind,
      Option.bind_some, connectSink_eq, List.append_assoc]
    rfl

theorem foldlM_connectVertex {deps : List (ComponentRef × ComponentRef)} {g : SchedulingGraph}
    (h : ∀ atom, ∀ p ∈ predecessors deps atom, ∃ v, g.findVertex p = some v)
    {l : List (ProcessingNode × ℕ)}
    (hl : ∀ entry ∈ l, entry.1.type = .source ↔ entry.1.node = none) (edges : List (ℕ × ℕ)) :
    l.foldlM (connectVertex deps) (g.withEdges edges) =
      some (g.withEdges (edges ++ l.flatMap (newEdges deps g))) := by
  induction l generalizing edges with
  | nil => simp
  | cons entry l ih =>
    obtain ⟨hentry, hl⟩ := List.forall_mem_cons.mp hl
    rw [List.foldlM_cons, connectVertex_eq hentry h, Option.bind_eq_bind, Option.bind_some,
      ih hl, List.flatMap_cons, List.append_assoc]

/-- The graph of a flow: its vertices, and its edges as far as they matter.  Nothing leads
to the source or away from the sink, and between atomic components the edges are the
dependencies. -/
structure Represents (flow : Component) (maps : FlatConnections flow) (g : SchedulingGraph) :
    Prop where
  nodes : g.nodes = ⟨.source, none⟩ :: ⟨.sink, some flow.self⟩ ::
    (collectAllComponents flow).map .processor
  nodup : g.nodes.Nodup
  lookup_length : g.vertexLookup.length = g.nodes.length
  sourceVertex : g.sourceVertex = 0
  closed : ∀ e ∈ g.edges, e.1 < g.nodes.length ∧ e.2 < g.nodes.length
  noneToSource : ∀ e ∈ g.edges, e.2 ≠ 0
  noneFromSink : ∀ e ∈ g.edges, e.1 ≠ 1
  dependencies : ∀ i j a b, g.nodes[i]? = some (.processor a) →
    g.nodes[j]? = some (.processor b) →
    ((i, j) ∈ g.edges ↔ DependsOn maps.connections maps.parameterConnections a b)

theorem mem_newEdges {deps : List (ComponentRef × ComponentRef)} {g : SchedulingGraph}
    (hg : g.Labelled) {type : NodeType} {node : Option ComponentRef} {v : ℕ} {e : ℕ × ℕ} :
    e ∈ newEdges deps g (⟨type, node⟩, v) ↔ ∃ atom, node = some atom ∧
      ((predecessors deps atom = [] ∧ e = (g.sourceVertex, v)) ∨
        (∃ p ∈ predecessors deps atom, g.nodes[e.1]? = some (.processor p) ∧ e.2 = v) ∨
        (successors deps atom = [] ∧ type ≠ .sink ∧ e = (v, g.sinkVertex))) := by
  cases node with
  | none => simp [newEdges]
  | some atom =>
    have hpred : (∃ p ∈ predecessors deps atom,
          (g.findVertex p).map (fun sendVertex => (sendVertex, v)) = some e) ↔
        ∃ p ∈ predecessors deps atom, g.nodes[e.1]? = some (.processor p) ∧ e.2 = v := by
      refine exists_congr fun p => and_congr_right fun _ => ?_
      rw [Option.map_eq_some_iff]
      constructor
      · rintro ⟨u, hu, rfl⟩
        exact ⟨hg.findVertex.mp hu, rfl⟩
      · rintro ⟨hu, rfl⟩
        exact ⟨e.1, hg.findVertex.mpr hu, rfl⟩
    -- a component without predecessors gets an edge from the source, one without successors to the
    -- sink
    have hinto : e ∈ edgesInto deps g atom v ↔
        (predecessors deps atom = [] ∧ e = (g.sourceVertex, v)) ∨
        ∃ p ∈ predecessors deps atom, g.nodes[e.1]? = some (.processor p) ∧ e.2 = v := by
      unfold edgesInto
      by_cases hnil : predecessors deps atom = []
      · rw [if_pos hnil, List.mem_singleton, hnil]
        simp
      · rw [if_neg hnil, List.mem_filterMap, hpred]
        simp [hnil]
    have hsink : e ∈ edgesToSink deps g type atom v ↔
        successors deps atom = [] ∧ type ≠ .sink ∧ e = (v, g.sinkVertex) := by
      unfold edgesToSink
      by_cases hsucc : successors deps atom = [] ∧ type ≠ .sink
      · rw [if_pos hsucc, List.mem_singleton]
        simp [hsucc]
      · rw [if_neg hsucc]
        constructor
        · intro hmem
          cases hmem
        · intro hcon
          exact absurd ⟨hcon.1, hcon.2.1⟩ hsucc
    unfold newEdges
    dsimp only
    rw [List.mem_append, hinto, hsink, or_assoc]
    constructor
    · intro hmem
      exact ⟨atom, rfl, hmem⟩
    · rintro ⟨atom', hatom, hmem⟩
      cases hatom
      exact hmem

/-- **The graph of a flow** is built without looking up a vertex in vain. -/
theorem initialise_represents {flow : Component} (hwf : flow.WellFormed)
    (maps : FlatConnections flow) :
    ∃ g, initialise flow maps.connections maps.parameterConnections = some g ∧
      Represents flow maps g := by
  obtain ⟨hlabelled, hnodes, hedges, hsource, hsink⟩ := vertices_spec hwf
  let deps := dependencies maps.connections maps.parameterConnections
  let g := vertices flow
  have hzero : g.nodes[0]? = some ⟨.source, none⟩ := by rw [hnodes]; rfl
  have hone : g.nodes[1]? = some ⟨.sink, some flow.self⟩ := by rw [hnodes]; rfl
  have htype : ∀ entry ∈ g.vertexLookup, entry.1.type = .source ↔ entry.1.node = none := by
    intro entry hentry
    have hmem : entry.1 ∈ g.nodes :=
      List.fst_mem_of_mem_zipIdx (hlabelled.lookup.mem_iff.mp hentry)
    rw [hnodes] at hmem
    rcases List.mem_cons.mp hmem with h | hmem
    · simp [h]
    · rcases List.mem_cons.mp hmem with h | hmem
      · simp [h]
      · obtain ⟨atom, -, h⟩ := List.mem_map.mp hmem
        simp [← h, ProcessingNode.processor]
  -- the concrete senders are atomic components of the flow
  have hfind : ∀ atom, ∀ p ∈ predecessors deps atom, ∃ v, g.findVertex p = some v := by
    intro atom p hp
    obtain ⟨hdep, hconcrete⟩ := mem_predecessors.mp hp
    have hatom := mem_collectAllComponents hwf (maps.sender _ hdep) hconcrete
    have hmem : ProcessingNode.processor p ∈ g.nodes := by
      rw [hnodes]
      exact List.mem_cons_of_mem _ (List.mem_cons_of_mem _ (List.mem_map_of_mem hatom))
    obtain ⟨v, hv⟩ := List.getElem?_of_mem hmem
    exact ⟨v, hlabelled.findVertex.mpr hv⟩
  have hstart : g = g.withEdges [] := by
    rw [withEdges, ← hedges]
  have hinit : initialise flow maps.connections maps.parameterConnections =
      some (g.withEdges (g.vertexLookup.flatMap (newEdges deps g))) := by
    have hfold := foldlM_connectVertex hfind htype []
    rw [← hstart, List.nil_append] at hfold
    exact hfold
  have hmem : ∀ e, e ∈ g.vertexLookup.flatMap (newEdges deps g) ↔
      ∃ type atom v, g.nodes[v]? = some ⟨type, some atom⟩ ∧
        ((predecessors deps atom = [] ∧ e = (0, v)) ∨
          (∃ p ∈ predecessors deps atom, g.nodes[e.1]? = some (.processor p) ∧ e.2 = v) ∨
          (successors deps atom = [] ∧ type ≠ .sink ∧ e = (v, 1))) := by
    intro e
    rw [List.mem_flatMap]
    constructor
    · rintro ⟨⟨⟨type, node⟩, v⟩, hlookup, he⟩
      obtain ⟨atom, rfl, hcases⟩ := (mem_newEdges hlabelled).mp he
      rw [hsource, hsink] at hcases
      exact ⟨type, atom, v, hlabelled.mem_lookup.mp hlookup, hcases⟩
    · rintro ⟨type, atom, v, hv, hcases⟩
      refine ⟨_, hlabelled.mem_lookup.mpr hv, (mem_newEdges hlabelled).mpr ⟨atom, rfl, ?_⟩⟩
      rw [hsource, hsink]
      exact hcases
  have hlt : ∀ {v node}, g.nodes[v]? = some node → v < g.nodes.length := by
    intro v node hv
    exact (List.getElem?_eq_some_iff.mp hv).1
  refine ⟨_, hinit, ?_⟩
  constructor
  case nodes => exact hnodes
  case nodup => exact hlabelled.nodup
  case lookup_length =>
    change g.vertexLookup.length = g.nodes.length
    rw [hlabelled.lookup.length_eq, List.length_zipIdx]
  case sourceVertex => exact hsource
  case closed =>
    intro e he
    change e.1 < g.nodes.length ∧ e.2 < g.nodes.length
    obtain ⟨type, atom, v, hv, hcases⟩ := (hmem e).mp he
    rcases hcases with ⟨-, rfl⟩ | ⟨p, -, hp, rfl⟩ | ⟨-, -, rfl⟩
    · exact ⟨hlt hzero, hlt hv⟩
    · exact ⟨hlt hp, hlt hv⟩
    · exact ⟨hlt hv, hlt hone⟩
  case noneToSource =>
    intro e he heq
    obtain ⟨type, atom, v, hv, hcases⟩ := (hmem e).mp he
    have hne : v ≠ 0 := by
      intro h0
      rw [h0, hzero] at hv
      cases hv
    rcases hcases with ⟨-, rfl⟩ | ⟨p, -, hp, rfl⟩ | ⟨-, -, rfl⟩
    · exact hne heq
    · exact hne heq
    · exact absurd heq Nat.one_ne_zero
  case noneFromSink =>
    intro e he heq
    obtain ⟨type, atom, v, hv, hcases⟩ := (hmem e).mp he
    rcases hcases with ⟨-, rfl⟩ | ⟨p, -, hp, rfl⟩ | ⟨-, htype, rfl⟩
    · exact absurd heq Nat.zero_ne_one
    · rw [heq, hone] at hp
      cases hp
    · dsimp only at heq
      rw [heq, hone] at hv
      cases hv
      exact htype rfl
  case dependencies =>
    intro i j a b hi hj
    constructor
    · intro he
      obtain ⟨type, atom, v, hv, hcases⟩ := (hmem (i, j)).mp he
      rcases hcases with ⟨-, heq⟩ | ⟨p, hp, hp', hjv⟩ | ⟨-, -, heq⟩
      · -- the source is not an atomic component
        have hi0 : i = 0 := congrArg Prod.fst heq
        rw [hi0] at hi
        cases hzero.symm.trans hi
      · have hpa : p = a := by
          have hsome := hp'.symm.trans hi
          exact Option.some.inj (congrArg ProcessingNode.node (Option.some.inj hsome))
        have hjv' : j = v := hjv
        have hatom : atom = b := by
          rw [← hjv'] at hv
          have hsome := hv.symm.trans hj
          exact Option.some.inj (congrArg ProcessingNode.node (Option.some.inj hsome))
        rw [hpa, hatom] at hp
        obtain ⟨hdep, hconcrete⟩ := mem_predecessors.mp hp
        refine ⟨hdep, hconcrete, ?_⟩
        refine isComposite_of_mem_collectAllComponents hwf ?_
        have hbmem : ProcessingNode.processor b ∈ g.nodes := List.mem_of_getElem? hj
        rw [hnodes] at hbmem
        simpa [ProcessingNode.processor] using hbmem
      · -- nor is the sink
        have hj1 : j = 1 := congrArg Prod.snd heq
        rw [hj1] at hj
        cases hone.symm.trans hj
    · rintro ⟨hdep, hconcrete, -⟩
      exact (hmem (i, j)).mpr ⟨.processor, b, j, hj, Or.inr (Or.inl
        ⟨a, mem_predecessors.mpr ⟨hdep, hconcrete⟩, hi, rfl⟩)⟩

/-! ### The schedule -/

section Schedule

variable {flow : Component} {maps : FlatConnections flow} {g : SchedulingGraph}

theorem edge_iff {u v : ℕ} : DepthFirst.Edge g.outVertices u v ↔ (u, v) ∈ g.edges := by
  unfold DepthFirst.Edge outVertices
  rw [List.mem_map]
  constructor
  · rintro ⟨⟨a, b⟩, he, rfl⟩
    obtain ⟨hmem, ha⟩ := List.mem_filter.mp he
    have ha' : a = u := by simpa using ha
    rwa [← ha']
  · intro h
    exact ⟨(u, v), List.mem_filter.mpr ⟨h, by simp⟩, rfl⟩

theorem Represents.closed_out (h : Represents flow maps g) :
    ∀ u < g.nodes.length, ∀ v ∈ g.outVertices u, v < g.nodes.length := by
  intro u _ v hv
  exact (h.closed _ (edge_iff.mp hv)).2

theorem Represents.exists_vertex (h : Represents flow maps g) {a : ComponentRef}
    (ha : a ∈ collectAllComponents flow) :
    ∃ i : ℕ, g.nodes[i]? = some (ProcessingNode.processor a) := by
  refine List.getElem?_of_mem ?_
  rw [h.nodes]
  exact List.mem_cons_of_mem _ (List.mem_cons_of_mem _ (List.mem_map_of_mem ha))

/-- The components that a dependency connects are atomic components of the flow. -/
theorem mem_of_dependsOn (hwf : flow.WellFormed) {a b : ComponentRef}
    (h : DependsOn maps.connections maps.parameterConnections a b) :
    a ∈ collectAllComponents flow ∧ b ∈ collectAllComponents flow := by
  obtain ⟨hmem, ha, hb⟩ := h
  exact ⟨mem_collectAllComponents hwf (maps.sender _ hmem) ha,
    mem_collectAllComponents hwf (maps.receiver _ hmem) hb⟩

/-- A vertex between two edges is an atomic component. -/
theorem Represents.processor_of_edges (h : Represents flow maps g) {u v w : ℕ}
    (hin : (u, v) ∈ g.edges) (hout : (v, w) ∈ g.edges) :
    ∃ a, g.nodes[v]? = some (ProcessingNode.processor a) := by
  have hlt : v < g.nodes.length := (h.closed _ hin).2
  have hne0 : v ≠ 0 := h.noneToSource _ hin
  have hne1 : v ≠ 1 := h.noneFromSink _ hout
  obtain ⟨k, rfl⟩ : ∃ k, v = k + 2 := ⟨v - 2, by omega⟩
  have hget := List.getElem?_eq_getElem hlt
  have hmap : g.nodes[k + 2]? = ((collectAllComponents flow).map ProcessingNode.processor)[k]? := by
    rw [h.nodes]
    rfl
  rw [hmap, List.getElem?_map] at hget
  obtain ⟨a, -, ha⟩ := Option.map_eq_some_iff.mp hget
  refine ⟨a, ?_⟩
  rw [List.getElem?_eq_getElem hlt, ha]

/-- A path between atomic components consists of dependencies. -/
theorem Represents.dependsOn_of_path (h : Represents flow maps g) {i j : ℕ} {a b : ComponentRef}
    (hi : g.nodes[i]? = some (.processor a)) (hj : g.nodes[j]? = some (.processor b))
    (hpath : TransGen (DepthFirst.Edge g.outVertices) i j) :
    TransGen (DependsOn maps.connections maps.parameterConnections) a b := by
  induction hpath using TransGen.head_induction_on generalizing a with
  | single hedge => exact TransGen.single ((h.dependencies _ _ a b hi hj).mp (edge_iff.mp hedge))
  | head hedge hrest ih =>
    rename_i u v
    obtain ⟨w, hvw, -⟩ := TransGen.head'_iff.mp hrest
    obtain ⟨c, hc⟩ := h.processor_of_edges (edge_iff.mp hedge) (edge_iff.mp hvw)
    exact TransGen.head ((h.dependencies _ _ a c hi hc).mp (edge_iff.mp hedge)) (ih hc)

/-- **Cycles of the graph** are cycles of the dependencies: none passes through the
artificial vertices. -/
theorem Represents.cyclic_iff (h : Represents flow maps g) (hwf : flow.WellFormed) :
    (∃ u < g.nodes.length, TransGen (DepthFirst.Edge g.outVertices) u u) ↔
      ∃ a, TransGen (DependsOn maps.connections maps.parameterConnections) a a := by
  constructor
  · rintro ⟨u, -, hcycle⟩
    obtain ⟨v, huv, -⟩ := TransGen.head'_iff.mp hcycle
    obtain ⟨w, -, hwu⟩ := TransGen.tail'_iff.mp hcycle
    obtain ⟨a, ha⟩ := h.processor_of_edges (edge_iff.mp hwu) (edge_iff.mp huv)
    exact ⟨a, h.dependsOn_of_path ha ha hcycle⟩
  · rintro ⟨a, hcycle⟩
    -- an atomic component corresponds to its vertex
    have hpath : ∀ b, TransGen (DependsOn maps.connections maps.parameterConnections) a b →
        ∀ i j, g.nodes[i]? = some (.processor a) → g.nodes[j]? = some (.processor b) →
          TransGen (DepthFirst.Edge g.outVertices) i j := by
      intro b hab
      induction hab with
      | single hdep =>
        intro i j hi hj
        exact TransGen.single (edge_iff.mpr ((h.dependencies i j _ _ hi hj).mpr hdep))
      | tail _ hdep ih =>
        intro i j hi hj
        obtain ⟨k, hk⟩ := h.exists_vertex (mem_of_dependsOn hwf hdep).1
        exact (ih i k hi hk).tail (edge_iff.mpr ((h.dependencies k j _ _ hk hj).mpr hdep))
    obtain ⟨b, hab, -⟩ := TransGen.head'_iff.mp hcycle
    obtain ⟨i, hi⟩ := h.exists_vertex (mem_of_dependsOn hwf hab).1
    exact ⟨i, (List.getElem?_eq_some_iff.mp hi).1, hpath a hcycle i i hi hi⟩

theorem processorOf_eq_some {u : ℕ} {a : ComponentRef} :
    g.processorOf u = some a ↔ g.nodes[u]? = some (.processor a) := by
  unfold processorOf
  rcases hnode : g.nodes[u]? with _ | ⟨type, node⟩
  · simp
  · cases type with
    | source => simp [ProcessingNode.processor]
    | sink => simp [ProcessingNode.processor]
    | processor => simp [ProcessingNode.processor]

/-- The schedule read off a topological order. -/
theorem Represents.schedule_of_order (h : Represents flow maps g) {order : List ℕ}
    (hperm : order.Perm (List.range g.nodes.length))
    (hsorted : DepthFirst.SuccessorsFirst g.outVertices order) :
    (order.reverse.filterMap g.processorOf).Nodup ∧
    (∀ c, c ∈ order.reverse.filterMap g.processorOf ↔ c ∈ collectAllComponents flow) ∧
    ∀ a b, a ∈ collectAllComponents flow → b ∈ collectAllComponents flow →
      DependsOn maps.connections maps.parameterConnections a b →
      [a, b].Sublist (order.reverse.filterMap g.processorOf) := by
  refine ⟨?_, ?_, ?_⟩
  · have hnodup : order.reverse.Nodup :=
      List.nodup_reverse.mpr (hperm.nodup_iff.mpr List.nodup_range)
    refine hnodup.filterMap ?_
    intro u v a hu hv
    have hu' := processorOf_eq_some.mp hu
    have hv' := processorOf_eq_some.mp hv
    exact (List.getElem?_inj (List.getElem?_eq_some_iff.mp hu').1 h.nodup).mp (hu'.trans hv'.symm)
  · intro c
    rw [List.mem_filterMap]
    constructor
    · rintro ⟨u, -, hu⟩
      have hmem := List.mem_of_getElem? (processorOf_eq_some.mp hu)
      rw [h.nodes] at hmem
      simpa [ProcessingNode.processor] using hmem
    · intro hc
      obtain ⟨u, hu⟩ := h.exists_vertex hc
      refine ⟨u, List.mem_reverse.mpr (hperm.mem_iff.mpr (List.mem_range.mpr ?_)),
        processorOf_eq_some.mpr hu⟩
      exact (List.getElem?_eq_some_iff.mp hu).1
  · intro a b ha hb hdep
    obtain ⟨i, hi⟩ := h.exists_vertex ha
    obtain ⟨j, hj⟩ := h.exists_vertex hb
    have hedge := edge_iff.mpr ((h.dependencies i j a b hi hj).mpr hdep)
    have hi' : i ∈ order := by
      rw [hperm.mem_iff, List.mem_range]
      exact (List.getElem?_eq_some_iff.mp hi).1
    -- in the order, the receiver comes first, and it is read off backwards
    have hsub := List.reverse_sublist.mpr (hsorted i hi' j hedge)
    have hmap := hsub.filterMap g.processorOf
    have hpair : [j, i].reverse.filterMap g.processorOf = [a, b] := by
      simp [processorOf_eq_some.mpr hi, processorOf_eq_some.mpr hj]
    rw [hpair] at hmap
    exact hmap

/-- The cycle check raises no false alarm. -/
theorem Represents.checkAcyclicGraph_failed (h : Represents flow maps g) (lib : GraphLibrary)
    (hfail : (g.checkAcyclicGraph lib).result = false) :
    ∃ u < g.nodes.length, TransGen (DepthFirst.Edge g.outVertices) u u := by
  unfold checkAcyclicGraph at hfail
  dsimp only at hfail
  by_cases hnil : lib.depthFirstVisit g.outVertices g.nodes.length g.sourceVertex ≠ []
  · obtain ⟨e, he⟩ := List.exists_mem_of_ne_nil _ hnil
    have hstart : g.sourceVertex < g.nodes.length := by
      rw [h.sourceVertex, h.nodes]
      exact Nat.succ_pos _
    obtain ⟨hedge, hback⟩ := lib.backEdge h.closed_out hstart e he
    exact ⟨e.1, (h.closed _ (edge_iff.mp hedge)).1, TransGen.head' hedge hback⟩
  · rw [if_neg hnil] at hfail
    cases hfail

/-- Behind the cycle check, the schedule is read off the order of the topological sort.  It always
has all the vertices. -/
theorem Represents.sequentialSchedule_eq (h : Represents flow maps g) (lib : GraphLibrary)
    (hpass : ¬ (g.checkAcyclicGraph lib).result = false) :
    g.sequentialSchedule lib = match lib.topologicalSort g.outVertices g.nodes.length with
      | none => .error (.invalidArgument "The graph must be a DAG.")
      | some topoSort => .ok (topoSort.reverse.filterMap g.processorOf) := by
  unfold sequentialSchedule
  dsimp only
  rw [if_neg hpass]
  rcases horder : lib.topologicalSort g.outVertices g.nodes.length with _ | order
  · rfl
  · have hlength : order.length = g.vertexLookup.length := by
      rw [(lib.sort_perm h.closed_out horder).length_eq, List.length_range, h.lookup_length]
    exact if_neg (not_not.mpr hlength)

/-- **Scheduling is sound and complete.**  It throws exactly when the dependencies between
the atomic components are cyclic.  Otherwise the schedule contains each atomic component
once, and the sender of every connection before the receiver. -/
theorem sequentialSchedule_spec (lib : GraphLibrary) (flow : Flow)
    (maps : FlatConnections flow.root) :
    ∃ g, initialise flow.root maps.connections maps.parameterConnections = some g ∧
      ((∃ e, g.sequentialSchedule lib = .error e) ↔
        ∃ a, TransGen (DependsOn maps.connections maps.parameterConnections) a a) ∧
      ∀ schedule, g.sequentialSchedule lib = .ok schedule →
        schedule.Nodup ∧ (∀ c, c ∈ schedule ↔ c ∈ collectAllComponents flow.root) ∧
        (∀ conn ∈ maps.connections,
          conn.1.port.parent ∈ collectAllComponents flow.root →
          conn.2.port.parent ∈ collectAllComponents flow.root →
          [conn.1.port.parent, conn.2.port.parent].Sublist schedule) ∧
        ∀ conn ∈ maps.parameterConnections,
          conn.2.parent ∈ collectAllComponents flow.root →
          conn.1.parent ∈ collectAllComponents flow.root →
          [conn.2.parent, conn.1.parent].Sublist schedule := by
  have hwf := flow.wellFormed
  obtain ⟨g, hinit, hg⟩ := initialise_represents hwf maps
  have hcyclic := hg.cyclic_iff hwf
  have hsort := lib.sort_eq_none hg.closed_out
  refine ⟨g, hinit, ?_, ?_⟩
  · rw [← hcyclic]
    by_cases hfail : (g.checkAcyclicGraph lib).result = false
    · rw [sequentialSchedule, if_pos hfail]
      exact ⟨fun _ => hg.checkAcyclicGraph_failed lib hfail, fun _ => ⟨_, rfl⟩⟩
    · -- the sort fails for cycles that the check has not found from the source
      rw [hg.sequentialSchedule_eq lib hfail, ← hsort]
      rcases lib.topologicalSort g.outVertices g.nodes.length with _ | order
      · exact ⟨fun _ => rfl, fun _ => ⟨_, rfl⟩⟩
      · constructor
        · rintro ⟨e, he⟩
          cases he
        · intro h
          cases h
  · intro schedule hschedule
    by_cases hfail : (g.checkAcyclicGraph lib).result = false
    · rw [sequentialSchedule, if_pos hfail] at hschedule
      cases hschedule
    rw [hg.sequentialSchedule_eq lib hfail] at hschedule
    rcases horder : lib.topologicalSort g.outVertices g.nodes.length with _ | order
    · rw [horder] at hschedule
      cases hschedule
    rw [horder] at hschedule
    cases hschedule
    have hperm := lib.sort_perm hg.closed_out horder
    obtain ⟨hnodup, hmem, hsub⟩ := hg.schedule_of_order hperm (lib.sort_order hg.closed_out horder)
    -- only atomic components have edges
    have hconcrete : ∀ {c}, c ∈ collectAllComponents flow.root → c.isComposite = false :=
      fun hc => isComposite_of_mem_collectAllComponents hwf hc
    refine ⟨hnodup, hmem, ?_, ?_⟩
    · intro conn hconn hs hr
      refine hsub _ _ hs hr ⟨List.mem_append_left _ ?_, hconcrete hs, hconcrete hr⟩
      exact List.mem_map_of_mem hconn
    · intro conn hconn hs hr
      refine hsub _ _ hs hr ⟨List.mem_append_right _ ?_, hconcrete hs, hconcrete hr⟩
      exact List.mem_map.mpr ⟨conn, hconn, rfl⟩

end Schedule

end SchedulingGraph

end Visr
