import Mathlib.Data.List.Nodup
import Mathlib.Data.List.Perm.Subperm
import Mathlib.Logic.Relation

/-!
# Depth-first search and topological sorting

A depth-first search over a finite graph, given by the list of successors of each vertex.
It notes the vertices in the order in which they are finished, and the back edges, which
lead to a vertex on the path to the current one.

## Main definitions

* `Edge` — the edge relation.
* `visit` — the search from one vertex; `search` — from all vertices of a list.
* `topologicalSort` — the order of finishing, if there are no back edges.
* `SuccessorsFirst` — a list contains the successors of each vertex before it.

## Main results

* `visit_backEdges` — a back edge closes a cycle.
* `topologicalSort_eq_none_iff` — sorting fails exactly on cyclic graphs.
* `topologicalSort_perm`, `topologicalSort_successorsFirst` — the sorted order.
-/

namespace DepthFirst

open Relation (ReflTransGen TransGen)

variable {V : Type*} (adj : V → List V)

/-- There is an edge from `u` to `v`. -/
def Edge (u v : V) : Prop := v ∈ adj u

/-- The list contains the successors of each of its vertices, at an earlier place. -/
def SuccessorsFirst (l : List V) : Prop := ∀ u ∈ l, ∀ v, Edge adj u v → [v, u].Sublist l

/-! ### Lists that are sorted topologically -/

variable {adj}

theorem successorsFirst_nil : SuccessorsFirst adj [] := by
  intro u hu
  cases hu

theorem SuccessorsFirst.snoc {l : List V} (h : SuccessorsFirst adj l) {u : V}
    (hu : ∀ v, Edge adj u v → v ∈ l) : SuccessorsFirst adj (l ++ [u]) := by
  intro w hw v hv
  rcases List.mem_append.mp hw with hw | hw
  · exact (h w hw v hv).trans (List.sublist_append_left _ _)
  · obtain rfl := List.mem_singleton.mp hw
    exact (List.singleton_sublist.mpr (hu v hv)).append (List.Sublist.refl [w])

section Acyclic

variable [DecidableEq V]

theorem idxOf_lt_of_sublist {l : List V} (hnodup : l.Nodup) {a b : V} (h : [a, b].Sublist l) :
    l.idxOf a < l.idxOf b := by
  have hpair : l.Pairwise fun a b => l.idxOf a < l.idxOf b := by
    rw [List.pairwise_iff_getElem]
    intro i j hi hj hij
    rwa [hnodup.idxOf_getElem, hnodup.idxOf_getElem]
  exact List.pairwise_iff_forall_sublist.mp hpair h

/-- A graph whose vertices can be sorted has no cycles. -/
theorem SuccessorsFirst.acyclic {l : List V} (h : SuccessorsFirst adj l) (hnodup : l.Nodup)
    {u : V} (hu : u ∈ l) : ¬ TransGen (Edge adj) u u := by
  -- along a path the position decreases
  have hdesc : ∀ v, TransGen (Edge adj) u v → v ∈ l ∧ l.idxOf v < l.idxOf u := by
    intro v hv
    induction hv with
    | single hv =>
      have hsub := h u hu _ hv
      exact ⟨hsub.subset List.mem_cons_self, idxOf_lt_of_sublist hnodup hsub⟩
    | tail _ hv ih =>
      have hsub := h _ ih.1 _ hv
      exact ⟨hsub.subset List.mem_cons_self,
        Nat.lt_trans (idxOf_lt_of_sublist hnodup hsub) ih.2⟩
  intro hcycle
  exact Nat.lt_irrefl _ (hdesc u hcycle).2

end Acyclic

/-! ### The search -/

/-- The vertices finished so far, in the order of finishing, and the back edges found. -/
structure State (V : Type*) where
  finished : List V
  backEdges : List (V × V)

variable [DecidableEq V]

/-- Looks at the edge from `u` to `v` while the vertices of `path` are being visited. -/
def explore (visit : State V → V → State V) (path : List V) (u : V) (s : State V) (v : V) :
    State V :=
  if v ∈ path then { s with backEdges := s.backEdges ++ [(u, v)] }
  else if v ∈ s.finished then s
  else visit s v

variable (adj)

/-- Visits the vertex `u`, coming along `path`.  The fuel has to be the number of vertices
not on the path. -/
def visit : ℕ → List V → State V → V → State V
  | 0, _, s, _ => s
  | fuel + 1, path, s, u =>
    let s := (adj u).foldl (explore (visit fuel (u :: path)) (u :: path) u) s
    { s with finished := s.finished ++ [u] }

/-- Visits all vertices of a list. -/
def search (vertices : List V) : State V :=
  vertices.foldl (fun s v => if v ∈ s.finished then s else visit adj vertices.length [] s v)
    ⟨[], []⟩

/-- The order in which the vertices are finished, or `none` if there are back edges. -/
def topologicalSort (vertices : List V) : Option (List V) :=
  let s := search adj vertices
  if s.backEdges = [] then some s.finished else none

/-- What holds of the search while the vertices of `path` are being visited. -/
structure Invariant (vertices path : List V) (s : State V) : Prop where
  nodup : s.finished.Nodup
  subset : s.finished ⊆ vertices
  disjoint : ∀ v ∈ path, v ∉ s.finished
  backEdges : ∀ e ∈ s.backEdges,
    e.1 ∈ vertices ∧ Edge adj e.1 e.2 ∧ ReflTransGen (Edge adj) e.2 e.1
  sorted : s.backEdges = [] → SuccessorsFirst adj s.finished

/-- Nothing that has been found is lost. -/
structure Extends (s s' : State V) : Prop where
  finished : s.finished ⊆ s'.finished
  backEdges : s'.backEdges = [] → s.backEdges = []

omit [DecidableEq V] in
theorem Extends.refl (s : State V) : Extends s s := ⟨List.Subset.refl _, id⟩

omit [DecidableEq V] in
theorem Extends.trans {s s' s'' : State V} (h : Extends s s') (h' : Extends s' s'') :
    Extends s s'' := by
  constructor
  · exact List.Subset.trans h.finished h'.finished
  · intro hnil
    exact h.backEdges (h'.backEdges hnil)

/-- What a visit of `v` achieves. -/
def Visited (vertices path : List V) (s : State V) (v : V) (s' : State V) : Prop :=
  Invariant adj vertices path s' ∧ Extends s s' ∧ v ∈ s'.finished

omit [DecidableEq V] in
theorem invariant_start (vertices : List V) : Invariant adj vertices [] ⟨[], []⟩ where
  nodup := List.nodup_nil
  subset := List.nil_subset _
  disjoint _ hv := absurd hv List.not_mem_nil
  backEdges _ he := absurd he List.not_mem_nil
  sorted _ := successorsFirst_nil

variable {adj}

/-- One edge of the vertex `u`, which is the last of the path. -/
theorem explore_spec {vertices path : List V} {u v : V} (hu : u ∈ vertices)
    {visit : State V → V → State V}
    (hvisit : ∀ s, Invariant adj vertices path s → v ∉ path → v ∉ s.finished →
      Visited adj vertices path s v (visit s v))
    (hreach : ∀ w ∈ path, ReflTransGen (Edge adj) w u) (hedge : Edge adj u v) {s : State V}
    (hs : Invariant adj vertices path s) :
    Invariant adj vertices path (explore visit path u s v) ∧
      Extends s (explore visit path u s v) ∧
      ((explore visit path u s v).backEdges = [] → v ∈ (explore visit path u s v).finished) := by
  unfold explore
  by_cases hpath : v ∈ path
  · -- a back edge
    rw [if_pos hpath]
    refine ⟨⟨hs.nodup, hs.subset, hs.disjoint, ?_, ?_⟩, ⟨List.Subset.refl _, ?_⟩, ?_⟩
    · intro e he
      rcases List.mem_append.mp he with he | he
      · exact hs.backEdges e he
      · obtain rfl := List.mem_singleton.mp he
        exact ⟨hu, hedge, hreach v hpath⟩
    · intro hnil
      simp at hnil
    · intro hnil
      simp at hnil
    · intro hnil
      simp at hnil
  · rw [if_neg hpath]
    by_cases hfin : v ∈ s.finished
    · rw [if_pos hfin]
      exact ⟨hs, Extends.refl s, fun _ => hfin⟩
    · rw [if_neg hfin]
      obtain ⟨hinv, hext, hmem⟩ := hvisit s hs hpath hfin
      exact ⟨hinv, hext, fun _ => hmem⟩

/-- All edges of a vertex. -/
theorem foldl_explore_spec {vertices path : List V} {u : V} (hu : u ∈ vertices)
    {visit : State V → V → State V} {l : List V}
    (hvisit : ∀ v ∈ l, ∀ s, Invariant adj vertices path s → v ∉ path →
      v ∉ s.finished → Visited adj vertices path s v (visit s v))
    (hreach : ∀ w ∈ path, ReflTransGen (Edge adj) w u) (hedge : ∀ v ∈ l, Edge adj u v)
    {s : State V} (hs : Invariant adj vertices path s) :
    Invariant adj vertices path (l.foldl (explore visit path u) s) ∧
      Extends s (l.foldl (explore visit path u) s) ∧
      ((l.foldl (explore visit path u) s).backEdges = [] →
        ∀ v ∈ l, v ∈ (l.foldl (explore visit path u) s).finished) := by
  induction l generalizing s with
  | nil => exact ⟨hs, Extends.refl s, fun _ v hv => absurd hv List.not_mem_nil⟩
  | cons v l ih =>
    obtain ⟨hv, hl⟩ := List.forall_mem_cons.mp hvisit
    obtain ⟨hvedge, hledge⟩ := List.forall_mem_cons.mp hedge
    obtain ⟨hinv, hext, hmem⟩ := explore_spec hu hv hreach hvedge hs
    obtain ⟨hinv', hext', hmem'⟩ := ih hl hledge hinv
    refine ⟨hinv', hext.trans hext', ?_⟩
    intro hnil w hw
    rcases List.mem_cons.mp hw with rfl | hw
    · exact hext'.finished (hmem (hext'.backEdges hnil))
    · exact hmem' hnil w hw

/-- **The visit of a vertex**, by induction on the number of vertices not on the path. -/
theorem visit_spec {vertices : List V} (hclosed : ∀ u ∈ vertices, ∀ v, Edge adj u v → v ∈ vertices)
    {fuel : ℕ} {path : List V} {u : V} (hfuel : vertices.length ≤ fuel + path.length)
    (hnodup : (u :: path).Nodup) (hsubset : u :: path ⊆ vertices)
    (hreach : ∀ w ∈ path, ReflTransGen (Edge adj) w u) {s : State V}
    (hs : Invariant adj vertices path s) (hu : u ∉ s.finished) :
    Visited adj vertices path s u (visit adj fuel path s u) := by
  induction fuel generalizing path u s with
  | zero =>
    have hlen := (List.subperm_of_subset hnodup hsubset).length_le
    rw [List.length_cons] at hlen
    omega
  | succ fuel ih =>
    have huv : u ∈ vertices := hsubset List.mem_cons_self
    have hreach' : ∀ w ∈ u :: path, ReflTransGen (Edge adj) w u :=
      List.forall_mem_cons.mpr ⟨ReflTransGen.refl, hreach⟩
    -- the vertex is on the path while its successors are explored, and finished after them
    have hs' : Invariant adj vertices (u :: path) s :=
      ⟨hs.nodup, hs.subset, List.forall_mem_cons.mpr ⟨hu, hs.disjoint⟩, hs.backEdges, hs.sorted⟩
    have hvisit : ∀ v ∈ adj u, ∀ s, Invariant adj vertices (u :: path) s → v ∉ u :: path →
        v ∉ s.finished →
        Visited adj vertices (u :: path) s v (visit adj fuel (u :: path) s v) := by
      intro v hv s hs hpath hfin
      refine ih ?_ (List.nodup_cons.mpr ⟨hpath, hnodup⟩) ?_ ?_ hs hfin
      · rw [List.length_cons]
        omega
      · exact List.cons_subset.mpr ⟨hclosed u huv v hv, hsubset⟩
      · intro w hw
        exact (hreach' w hw).tail hv
    obtain ⟨hinv, hext, hmem⟩ := foldl_explore_spec huv hvisit hreach' (fun _ hv => hv) hs'
    rw [visit]
    generalize (adj u).foldl (explore (visit adj fuel (u :: path)) (u :: path) u) s = s' at *
    obtain ⟨hu', hdisjoint⟩ := List.forall_mem_cons.mp hinv.disjoint
    refine ⟨⟨?_, ?_, ?_, hinv.backEdges, ?_⟩, ⟨?_, hext.backEdges⟩, ?_⟩
    · exact List.nodup_append.mpr ⟨hinv.nodup, List.nodup_singleton u, fun a ha b hb hab => by
        obtain rfl := List.mem_singleton.mp hb
        exact hu' (hab ▸ ha)⟩
    · exact List.append_subset.mpr ⟨hinv.subset, List.cons_subset.mpr ⟨huv, List.nil_subset _⟩⟩
    · intro v hv hfin
      rcases List.mem_append.mp hfin with hfin | hfin
      · exact hdisjoint v hv hfin
      · obtain rfl := List.mem_singleton.mp hfin
        exact (List.nodup_cons.mp hnodup).1 hv
    · intro hnil
      exact (hinv.sorted hnil).snoc (hmem hnil)
    · exact List.Subset.trans hext.finished (List.subset_append_left _ _)
    · exact List.mem_append_right _ List.mem_cons_self

/-- **The whole search.** -/
theorem search_spec {vertices : List V}
    (hclosed : ∀ u ∈ vertices, ∀ v, Edge adj u v → v ∈ vertices) :
    Invariant adj vertices [] (search adj vertices) ∧
      ∀ v ∈ vertices, v ∈ (search adj vertices).finished := by
  -- each vertex is visited unless it has been finished before
  have hfold : ∀ l ⊆ vertices, ∀ s, Invariant adj vertices [] s →
      Invariant adj vertices [] (l.foldl (fun s v =>
        if v ∈ s.finished then s else visit adj vertices.length [] s v) s) ∧
      Extends s (l.foldl (fun s v =>
        if v ∈ s.finished then s else visit adj vertices.length [] s v) s) ∧
      ∀ v ∈ l, v ∈ (l.foldl (fun s v =>
        if v ∈ s.finished then s else visit adj vertices.length [] s v) s).finished := by
    intro l hl
    induction l with
    | nil => exact fun s hs => ⟨hs, Extends.refl s, fun v hv => absurd hv List.not_mem_nil⟩
    | cons v l ih =>
      intro s hs
      obtain ⟨hv, hl⟩ := List.cons_subset.mp hl
      have hstep : Visited adj vertices [] s v
          (if v ∈ s.finished then s else visit adj vertices.length [] s v) := by
        by_cases hfin : v ∈ s.finished
        · rw [if_pos hfin]
          exact ⟨hs, Extends.refl s, hfin⟩
        · rw [if_neg hfin]
          exact visit_spec hclosed (Nat.le_refl _) (List.nodup_singleton v)
            (List.cons_subset.mpr ⟨hv, List.nil_subset _⟩)
            (fun w hw => absurd hw List.not_mem_nil) hs hfin
      obtain ⟨hinv, hext, hmem⟩ := hstep
      obtain ⟨hinv', hext', hmem'⟩ := ih hl _ hinv
      exact ⟨hinv', hext.trans hext',
        List.forall_mem_cons.mpr ⟨hext'.finished hmem, hmem'⟩⟩
  obtain ⟨hinv, -, hmem⟩ := hfold vertices (List.Subset.refl _) _ (invariant_start adj vertices)
  exact ⟨hinv, hmem⟩

/-! ### Back edges and sorting -/

section Results

variable {vertices : List V} (hclosed : ∀ u ∈ vertices, ∀ v, Edge adj u v → v ∈ vertices)

include hclosed

/-- A back edge closes a cycle. -/
theorem visit_backEdges {u : V} (hu : u ∈ vertices) {e : V × V}
    (he : e ∈ (visit adj vertices.length [] ⟨[], []⟩ u).backEdges) :
    Edge adj e.1 e.2 ∧ ReflTransGen (Edge adj) e.2 e.1 := by
  obtain ⟨hinv, -, -⟩ := visit_spec hclosed (Nat.le_refl _) (List.nodup_singleton u)
    (List.cons_subset.mpr ⟨hu, List.nil_subset _⟩) (fun w hw => absurd hw List.not_mem_nil)
    (invariant_start adj vertices) List.not_mem_nil
  exact (hinv.backEdges e he).2

theorem topologicalSort_successorsFirst {order : List V}
    (h : topologicalSort adj vertices = some order) : SuccessorsFirst adj order := by
  obtain ⟨hinv, -⟩ := search_spec hclosed
  unfold topologicalSort at h
  by_cases hnil : (search adj vertices).backEdges = []
  · rw [if_pos hnil] at h
    cases h
    exact hinv.sorted hnil
  · rw [if_neg hnil] at h
    cases h

theorem topologicalSort_perm (hnodup : vertices.Nodup) {order : List V}
    (h : topologicalSort adj vertices = some order) : order.Perm vertices := by
  obtain ⟨hinv, hmem⟩ := search_spec hclosed
  unfold topologicalSort at h
  by_cases hnil : (search adj vertices).backEdges = []
  · rw [if_pos hnil] at h
    cases h
    rw [List.perm_ext_iff_of_nodup hinv.nodup hnodup]
    exact fun v => ⟨fun hv => hinv.subset hv, hmem v⟩
  · rw [if_neg hnil] at h
    cases h

/-- **Sorting fails exactly on cyclic graphs.** -/
theorem topologicalSort_eq_none_iff (hnodup : vertices.Nodup) :
    topologicalSort adj vertices = none ↔ ∃ u ∈ vertices, TransGen (Edge adj) u u := by
  constructor
  · intro h
    obtain ⟨hinv, -⟩ := search_spec hclosed
    unfold topologicalSort at h
    by_cases hnil : (search adj vertices).backEdges = []
    · rw [if_pos hnil] at h
      cases h
    · obtain ⟨e, he⟩ := List.exists_mem_of_ne_nil _ hnil
      obtain ⟨hu, hedge, hback⟩ := hinv.backEdges e he
      exact ⟨e.1, hu, TransGen.head' hedge hback⟩
  · rintro ⟨u, hu, hcycle⟩
    rcases hsort : topologicalSort adj vertices with _ | order
    · rfl
    · have hperm := topologicalSort_perm hclosed hnodup hsort
      exact absurd hcycle ((topologicalSort_successorsFirst hclosed hsort).acyclic
        (hperm.nodup_iff.mpr hnodup) (hperm.mem_iff.mpr hu))

end Results

end DepthFirst
