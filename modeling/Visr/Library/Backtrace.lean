import Mathlib.Data.List.Nodup
import Mathlib.Data.List.Perm.Subperm
import Mathlib.Data.List.Infix
import Mathlib.Tactic.ByContra

/-!
# Tracing a relation backwards through hidden vertices

A directed relation on a type of vertices some of which are *hidden* induces a
relation on the visible ones: `a` feeds `b` when a path leads from `a` to `b`
whose inner vertices are all hidden.  An algorithm that eliminates the hidden
vertices follows the edges backwards from `b`, one predecessor at a time, until
it meets a visible vertex, and has to notice when it never will.

This file states what such a trace can do when every vertex has at most one
predecessor, given by a partial function `next`: it ends at a visible vertex, at
a hidden vertex without a predecessor, or it runs into a cycle of hidden
vertices, and only one of the three happens.

## Main definitions

* `Via edge hidden a b` — a path from `a` to `b` through hidden vertices.
* `Back next` — the edges of a predecessor function.
* `Trail next hidden r l` — `l` is a backward trace from `r`, last vertex first.
* `HitsEnd`, `HitsCycle` — the two ways a trace never meets a visible vertex.

## Main results

* `Via.linear` — two backward traces from one vertex lie on one line.
* `Via.of_cycle` — everything behind a cycle of hidden vertices is on it.
* `not_hitsEnd_of_via`, `not_hitsCycle_of_via` — the three outcomes exclude each
  other.
* `Trail.hitsCycle_of_length` — a trace longer than its range runs into a cycle.
* `exists_via_visible` — a visible vertex is met forwards from a vertex without a predecessor.
-/

namespace Backtrace

variable {α : Type*}

/-- A path `a → p₁ → ⋯ → pₙ → b`, `n ≥ 0`, whose inner vertices are hidden. -/
inductive Via (edge : α → α → Prop) (hidden : α → Prop) : α → α → Prop
  | single {a b : α} : edge a b → Via edge hidden a b
  | snoc {a p b : α} : Via edge hidden a p → hidden p → edge p b → Via edge hidden a b

namespace Via

variable {edge edge' : α → α → Prop} {hidden : α → Prop}

theorem trans {a p b : α} (hap : Via edge hidden a p) (hp : hidden p)
    (hpb : Via edge hidden p b) : Via edge hidden a b := by
  induction hpb with
  | single h => exact snoc hap hp h
  | snoc _ hq he ih => exact snoc ih hq he

theorem cons {a p b : α} (hap : edge a p) (hp : hidden p) (hpb : Via edge hidden p b) :
    Via edge hidden a b :=
  (single hap).trans hp hpb

theorem mono (h : ∀ a b, edge a b → edge' a b) {a b : α} (hab : Via edge hidden a b) :
    Via edge' hidden a b := by
  induction hab with
  | single he => exact single (h _ _ he)
  | snoc _ hq he ih => exact snoc ih hq (h _ _ he)

/-- The last edge of a path, and what is before it. -/
theorem exists_last {a b : α} (h : Via edge hidden a b) :
    ∃ p, edge p b ∧ (p = a ∨ hidden p ∧ Via edge hidden a p) := by
  cases h with
  | single he => exact ⟨a, he, Or.inl rfl⟩
  | snoc hap hp he => exact ⟨_, he, Or.inr ⟨hp, hap⟩⟩

/-- The first edge of a path, and what is after it. -/
theorem exists_first {a b : α} (h : Via edge hidden a b) :
    ∃ p, edge a p ∧ (p = b ∨ hidden p ∧ Via edge hidden p b) := by
  induction h with
  | single he => exact ⟨_, he, Or.inl rfl⟩
  | snoc hap hp he ih =>
    obtain ⟨q, haq, hq⟩ := ih
    rcases hq with rfl | ⟨hq, hqp⟩
    · exact ⟨q, haq, Or.inr ⟨hp, single he⟩⟩
    · exact ⟨q, haq, Or.inr ⟨hq, snoc hqp hp he⟩⟩

end Via

/-! ### Predecessor functions -/

/-- The edges of a predecessor function: `a` is the predecessor of `b`. -/
def Back (next : α → Option α) (a b : α) : Prop := next b = some a

/-- Tracing back from `r` arrives at a hidden vertex without a predecessor. -/
def HitsEnd (next : α → Option α) (hidden : α → Prop) (r : α) : Prop :=
  ∃ p, hidden p ∧ Via (Back next) hidden p r ∧ next p = none

/-- Tracing back from `r` visits a hidden vertex that lies on a cycle of hidden
vertices, so it visits that vertex again and again. -/
def HitsCycle (next : α → Option α) (hidden : α → Prop) (r : α) : Prop :=
  ∃ p, hidden p ∧ Via (Back next) hidden p r ∧ Via (Back next) hidden p p

section Functional

variable {next : α → Option α} {hidden : α → Prop}

theorem Via.next_ne_none {a b : α} (h : Via (Back next) hidden a b) : next b ≠ none := by
  obtain ⟨p, hp, -⟩ := h.exists_last
  rw [hp]
  exact Option.some_ne_none p

/-- Two backward traces from one vertex lie on one line. -/
theorem Via.linear {a a' b : α} (h : Via (Back next) hidden a b)
    (h' : Via (Back next) hidden a' b) :
    a = a' ∨ hidden a' ∧ Via (Back next) hidden a a' ∨
      hidden a ∧ Via (Back next) hidden a' a := by
  induction h with
  | single he =>
    obtain ⟨p, hp, hcase⟩ := h'.exists_last
    obtain rfl : p = a := Option.some.inj (hp.symm.trans he)
    rcases hcase with rfl | ⟨hhid, hvia⟩
    · exact Or.inl rfl
    · exact Or.inr (Or.inr ⟨hhid, hvia⟩)
  | snoc hap hp he ih =>
    obtain ⟨q, hq, hcase⟩ := h'.exists_last
    obtain rfl := Option.some.inj (hq.symm.trans he)
    rcases hcase with rfl | ⟨-, hvia⟩
    · exact Or.inr (Or.inl ⟨hp, hap⟩)
    · exact ih hvia

/-- Everything behind a vertex on a cycle of hidden vertices is on that cycle. -/
theorem Via.of_cycle {a b : α} (h : Via (Back next) hidden a b) (hb : hidden b)
    (hcyc : Via (Back next) hidden b b) : hidden a ∧ Via (Back next) hidden a a := by
  induction h with
  | single he =>
    obtain ⟨p, hp, hcase⟩ := hcyc.exists_last
    obtain rfl := Option.some.inj (hp.symm.trans he)
    rcases hcase with rfl | ⟨hhid, hvia⟩
    · exact ⟨hb, hcyc⟩
    · exact ⟨hhid, (Via.single he).trans hb hvia⟩
  | snoc _ hp he ih =>
    obtain ⟨q, hq, hcase⟩ := hcyc.exists_last
    obtain rfl := Option.some.inj (hq.symm.trans he)
    rcases hcase with rfl | ⟨-, hvia⟩
    · exact ih hb hcyc
    · exact ih hp ((Via.single he).trans hb hvia)

/-- A trace that meets a visible vertex does not end at a hidden one. -/
theorem not_hitsEnd_of_via {s r : α} (hs : ¬ hidden s) (h : Via (Back next) hidden s r) :
    ¬ HitsEnd next hidden r := by
  rintro ⟨p, hp, hpr, hend⟩
  rcases h.linear hpr with rfl | ⟨-, hsp⟩ | ⟨hhid, -⟩
  · exact hs hp
  · exact hsp.next_ne_none hend
  · exact hs hhid

/-- A trace that meets a visible vertex does not run into a cycle. -/
theorem not_hitsCycle_of_via {s r : α} (hs : ¬ hidden s) (h : Via (Back next) hidden s r) :
    ¬ HitsCycle next hidden r := by
  rintro ⟨p, hp, hpr, hcyc⟩
  rcases h.linear hpr with rfl | ⟨-, hsp⟩ | ⟨hhid, -⟩
  · exact hs hp
  · exact hs (hsp.of_cycle hp hcyc).1
  · exact hs hhid

/-- A trace meets at most one visible vertex. -/
theorem Via.unique {s s' r : α} (hs : ¬ hidden s) (hs' : ¬ hidden s')
    (h : Via (Back next) hidden s r) (h' : Via (Back next) hidden s' r) : s = s' := by
  rcases h.linear h' with rfl | ⟨hhid, -⟩ | ⟨hhid, -⟩
  · rfl
  · exact absurd hhid hs'
  · exact absurd hhid hs

/-! ### Trails -/

/-- `l` lists the hidden vertices visited by tracing back from `r`, the last one
first. -/
inductive Trail (next : α → Option α) (hidden : α → Prop) (r : α) : List α → Prop
  | nil : Trail next hidden r []
  | cons {p : α} {l : List α} : Trail next hidden r l → next (l.headD r) = some p →
      hidden p → Trail next hidden r (p :: l)

namespace Trail

variable {r : α}

theorem tail {p : α} {l : List α} (h : Trail next hidden r (p :: l)) : Trail next hidden r l := by
  cases h with
  | cons h _ _ => exact h

theorem of_append {l₁ l₂ : List α} (h : Trail next hidden r (l₁ ++ l₂)) :
    Trail next hidden r l₂ := by
  induction l₁ with
  | nil => exact h
  | cons p l₁ ih => exact ih h.tail

/-- The last vertex of a trail is reached from its start. -/
theorem via_head {p : α} {l : List α} (h : Trail next hidden r (p :: l)) :
    hidden p ∧ Via (Back next) hidden p r := by
  induction l generalizing p with
  | nil =>
    cases h with
    | cons _ hnext hp => exact ⟨hp, Via.single hnext⟩
  | cons q l ih =>
    cases h with
    | cons h hnext hp =>
      obtain ⟨hq, hvia⟩ := ih h
      exact ⟨hp, Via.cons hnext hq hvia⟩

/-- The vertex before the last one of a trail is behind its start. -/
theorem via_next {a : α} {l : List α} (h : Trail next hidden r l)
    (hnext : next (l.headD r) = some a) : Via (Back next) hidden a r := by
  cases l with
  | nil => exact Via.single hnext
  | cons p l =>
    obtain ⟨hp, hvia⟩ := h.via_head
    exact Via.cons hnext hp hvia

theorem via_of_mem {p : α} {l : List α} (h : Trail next hidden r l) (hp : p ∈ l) :
    hidden p ∧ Via (Back next) hidden p r := by
  obtain ⟨l₁, l₂, rfl⟩ := List.append_of_mem hp
  exact h.of_append.via_head

/-- Along a trail the later vertices are behind the earlier ones. -/
theorem via_later {p : α} {l₁ l₂ : List α} (h : Trail next hidden r (l₁ ++ p :: l₂)) {q : α}
    (hq : q ∈ l₁) : Via (Back next) hidden q p := by
  induction l₁ generalizing q with
  | nil => exact absurd hq List.not_mem_nil
  | cons q' l₁ ih =>
    have htail : Trail next hidden r (l₁ ++ p :: l₂) := h.tail
    rcases List.mem_cons.mp hq with rfl | hq
    · cases h with
      | cons _ hnext hhid =>
        cases l₁ with
        | nil => exact Via.single hnext
        | cons q'' l₁ =>
          have hedge : Back next q q'' := hnext
          have hq'' : hidden q'' := (htail.via_of_mem List.mem_cons_self).1
          exact Via.cons hedge hq'' (ih htail List.mem_cons_self)
    · exact ih htail hq

/-- A trail that visits a vertex twice runs into a cycle. -/
theorem hitsCycle_of_not_nodup {l : List α} (h : Trail next hidden r l) (hdup : ¬ l.Nodup) :
    HitsCycle next hidden r := by
  induction l with
  | nil => exact absurd List.nodup_nil hdup
  | cons q l ih =>
    by_cases hq : q ∈ l
    · obtain ⟨l₁, l₂, rfl⟩ := List.append_of_mem hq
      obtain ⟨hhid, hvia⟩ := h.via_head
      have h' : Trail next hidden r ((q :: l₁) ++ q :: l₂) := h
      have hcyc : Via (Back next) hidden q q := h'.via_later List.mem_cons_self
      exact ⟨q, hhid, hvia, hcyc⟩
    · exact ih h.tail fun hnd => hdup (List.nodup_cons.mpr ⟨hq, hnd⟩)

/-- A trail with more vertices than its range holds runs into a cycle. -/
theorem hitsCycle_of_length {l : List α} (h : Trail next hidden r l) (range : List α)
    (hrange : ∀ p ∈ l, p ∈ range) (hlen : range.length < l.length) :
    HitsCycle next hidden r := by
  refine h.hitsCycle_of_not_nodup fun hnd => ?_
  have hsub : l.Subperm range := List.subperm_of_subset hnd hrange
  exact absurd hsub.length_le (by omega)

/-- A trail from a vertex goes on from each hidden successor of it. -/
theorem concat {r' : α} {l : List α} (h : Trail next hidden r l) (hr : hidden r)
    (hnext : next r' = some r) : Trail next hidden r' (l ++ [r]) := by
  induction h with
  | nil => exact Trail.nil.cons hnext hr
  | @cons p l _ hp hhid ih =>
    refine Trail.cons ih ?_ hhid
    cases l with
    | nil => exact hp
    | cons q l => exact hp

theorem mem_range {l range : List α} (h : Trail next hidden r l)
    (hrange : ∀ a b, Back next a b → a ∈ range) {p : α} (hp : p ∈ l) : p ∈ range := by
  obtain ⟨q, hq, -⟩ := (h.via_of_mem hp).2.exists_first
  exact hrange p q hq

end Trail

/-! ### Tracing forwards -/

/-- A vertex without a predecessor feeds a visible vertex, if the hidden vertices that it feeds have
successors. -/
theorem exists_via_visible (hidden : α → Prop) (range : List α) {s : α} (hs : next s = none)
    (hrange : ∀ a b, Back next a b → a ∈ range) (hfirst : ∃ b, Back next s b)
    (hsucc : ∀ p, hidden p → Via (Back next) hidden s p → ∃ b, Back next p b) :
    ∃ r, ¬ hidden r ∧ Via (Back next) hidden s r := by
  by_contra hnone
  have hhidden : ∀ r, Via (Back next) hidden s r → hidden r := fun r hr => by
    by_contra hvisible
    exact hnone ⟨r, hvisible, hr⟩
  -- otherwise there are arbitrarily long trails back to the vertex
  have htrail : ∀ n, ∃ r l, Trail next hidden r l ∧ l.length = n ∧
      Via (Back next) hidden s r := by
    intro n
    induction n with
    | zero =>
      obtain ⟨b, hb⟩ := hfirst
      exact ⟨b, [], Trail.nil, rfl, Via.single hb⟩
    | succ n ih =>
      obtain ⟨r, l, hl, hlen, hvia⟩ := ih
      obtain ⟨r', hr'⟩ := hsucc r (hhidden r hvia) hvia
      refine ⟨r', l ++ [r], hl.concat (hhidden r hvia) hr', ?_, hvia.snoc (hhidden r hvia) hr'⟩
      rw [List.length_append, hlen, List.length_singleton]
  obtain ⟨r, l, hl, hlen, hvia⟩ := htrail (range.length + 1)
  obtain ⟨p, hp, hpr, hcycle⟩ := hl.hitsCycle_of_length range
    (fun q hq => hl.mem_range hrange hq) (by omega)
  rcases hvia.linear hpr with rfl | ⟨-, hsp⟩ | ⟨-, hps⟩
  · exact hcycle.next_ne_none hs
  · exact (hsp.of_cycle hp hcycle).2.next_ne_none hs
  · exact hps.next_ne_none hs

end Functional

end Backtrace
