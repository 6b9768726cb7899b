import Mathlib.Data.List.Dedup
import Mathlib.Logic.Relation

/-!
# Connected components of an undirected graph

The edges of the graph are processed one after another; each merges the classes of its
two vertices.  The classes are numbered in the order of their first vertices.

## Main definitions

* `Connected` — the equivalence generated by the edges.
* `representative` — the representative of the class of a vertex.
* `components`, `label` — the numbering of the classes.

## Main results

* `representative_eq_iff` — equal representatives mean connected vertices.
* `label_lt`, `label_eq_iff`, `exists_label_eq` — the labels number the components.
-/

namespace ConnectedComponents

open Relation (EqvGen)

variable {V : Type*}

/-- There is a path between two vertices, regardless of the direction of the edges. -/
def Connected (edges : List (V × V)) : V → V → Prop := EqvGen fun u v => (u, v) ∈ edges

/-- A generated equivalence is contained in any that contains its generators. -/
theorem eqvGen_of_le {r r' : V → V → Prop} (h : ∀ a b, r a b → EqvGen r' a b) {a b : V}
    (hab : EqvGen r a b) : EqvGen r' a b := by
  induction hab with
  | rel a b hab => exact h a b hab
  | refl a => exact EqvGen.refl a
  | symm a b _ ih => exact ih.symm
  | trans a b c _ _ ih ih' => exact ih.trans _ _ _ ih'

variable [DecidableEq V]

/-- Merges the classes of the two vertices of an edge. -/
def merge (rep : V → V) (e : V × V) : V → V := fun w =>
  if rep w = rep e.2 then rep e.1 else rep w

/-- The representative of the class of a vertex. -/
def representative (edges : List (V × V)) : V → V := edges.foldl merge id

theorem merge_fst (rep : V → V) (e : V × V) : merge rep e e.1 = rep e.1 := by
  unfold merge
  by_cases h : rep e.1 = rep e.2
  · rw [if_pos h]
  · rw [if_neg h]

theorem merge_snd (rep : V → V) (e : V × V) : merge rep e e.2 = rep e.1 := if_pos rfl

/-- Vertices that are merged were in the same class, or in those of the two vertices. -/
theorem eqvGen_of_merge_eq {rep : V → V} {e : V × V} {r : V → V → Prop}
    (hrep : ∀ u v, rep u = rep v → EqvGen r u v) (he : EqvGen r e.1 e.2) {u v : V}
    (h : merge rep e u = merge rep e v) : EqvGen r u v := by
  -- every vertex is connected with what it is merged into
  have hmerge : ∀ w, (rep w = rep e.2 ∧ merge rep e w = rep e.1) ∨ merge rep e w = rep w := by
    intro w
    by_cases hw : rep w = rep e.2
    · exact Or.inl ⟨hw, if_pos hw⟩
    · exact Or.inr (if_neg hw)
  rcases hmerge u with ⟨hu, hu'⟩ | hu' <;> rcases hmerge v with ⟨hv, hv'⟩ | hv'
  · exact hrep u v (hu.trans hv.symm)
  · rw [hu', hv'] at h
    exact ((hrep u e.2 hu).trans _ _ _ he.symm).trans _ _ _ (hrep e.1 v h)
  · rw [hu', hv'] at h
    exact ((hrep u e.1 h).trans _ _ _ he).trans _ _ _ (hrep v e.2 hv).symm
  · rw [hu', hv'] at h
    exact hrep u v h

theorem foldl_merge_eq_iff (edges : List (V × V)) (rep : V → V) (a b : V) :
    edges.foldl merge rep a = edges.foldl merge rep b ↔
      EqvGen (fun u v => rep u = rep v ∨ (u, v) ∈ edges) a b := by
  induction edges generalizing rep with
  | nil =>
    constructor
    · intro h
      exact EqvGen.rel _ _ (Or.inl h)
    · intro h
      induction h with
      | rel a b hab => exact hab.resolve_right List.not_mem_nil
      | refl a => rfl
      | symm a b _ ih => exact ih.symm
      | trans a b c _ _ ih ih' => exact ih.trans ih'
  | cons e edges ih =>
    rw [List.foldl_cons, ih]
    constructor
    · refine eqvGen_of_le fun u v huv => ?_
      cases huv with
      | inl huv =>
        -- two points of one class after the merge were in one class or at the ends of the edge
        refine eqvGen_of_merge_eq (fun u v h => EqvGen.rel u v (Or.inl h)) ?_ huv
        exact EqvGen.rel _ _ (Or.inr List.mem_cons_self)
      | inr huv => exact EqvGen.rel _ _ (Or.inr (List.mem_cons_of_mem e huv))
    · refine eqvGen_of_le fun u v huv => ?_
      refine EqvGen.rel u v ?_
      cases huv with
      | inl huv =>
        left
        unfold merge
        rw [huv]
      | inr huv =>
        cases List.mem_cons.mp huv with
        | inl heq =>
          left
          have hfst := merge_fst rep e
          have hsnd := merge_snd rep e
          rw [← heq] at hfst hsnd ⊢
          exact hfst.trans hsnd.symm
        | inr huv => exact Or.inr huv

/-- **Equal representatives** mean connected vertices. -/
theorem representative_eq_iff {edges : List (V × V)} {a b : V} :
    representative edges a = representative edges b ↔ Connected edges a b := by
  rw [representative, foldl_merge_eq_iff]
  constructor
  · refine eqvGen_of_le fun u v huv => ?_
    cases huv with
    | inl heq =>
      have huv : u = v := heq
      rw [huv]
      exact EqvGen.refl v
    | inr huv => exact EqvGen.rel u v huv
  · refine eqvGen_of_le fun u v huv => ?_
    exact EqvGen.rel u v (Or.inr huv)

/-- The representatives of the components, in the order of their first vertices. -/
def components (edges : List (V × V)) (vertices : List V) : List V :=
  (vertices.map (representative edges)).reverse.dedup.reverse

/-- The number of the component of a vertex. -/
def label (edges : List (V × V)) (vertices : List V) (v : V) : ℕ :=
  (components edges vertices).idxOf (representative edges v)

variable {edges : List (V × V)} {vertices : List V}

theorem mem_components {r : V} :
    r ∈ components edges vertices ↔ ∃ v ∈ vertices, representative edges v = r := by
  simp [components]

theorem label_lt {v : V} (hv : v ∈ vertices) :
    label edges vertices v < (components edges vertices).length :=
  List.idxOf_lt_length_of_mem (mem_components.mpr ⟨v, hv, rfl⟩)

theorem label_eq_iff {u v : V} (hu : u ∈ vertices) :
    label edges vertices u = label edges vertices v ↔ Connected edges u v := by
  rw [← representative_eq_iff]
  exact List.idxOf_inj (mem_components.mpr ⟨u, hu, rfl⟩)

theorem exists_label_eq {c : ℕ} (hc : c < (components edges vertices).length) :
    ∃ v ∈ vertices, label edges vertices v = c := by
  have hnodup : (components edges vertices).Nodup :=
    List.nodup_reverse.mpr (List.nodup_dedup _)
  obtain ⟨v, hv, hrep⟩ := mem_components.mp (List.getElem_mem hc)
  refine ⟨v, hv, ?_⟩
  rw [label, hrep, hnodup.idxOf_getElem]

end ConnectedComponents
