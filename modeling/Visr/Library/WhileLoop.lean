import Mathlib.Data.List.Basic
import Mathlib.Order.Basic

/-!
# While loops

A loop with a condition and a body on states, executed with a bound on the number of its
iterations, together with the states at the beginning of these.

## Main definitions

* `WhileLoop.run` — the states at the beginning of the iterations, and the final state.

## Main results

* `WhileLoop.run_terminates` — invariants and variants.
* `WhileLoop.count_run` — a position that advances is passed once.
* `WhileLoop.run_simulation` — loops that are related step by step.
-/

namespace WhileLoop

variable {σ : Type*} {cond : σ → Bool} {body : σ → σ}

/-- The execution of at most `n` iterations; there is no result if these do not suffice. -/
def run (cond : σ → Bool) (body : σ → σ) : ℕ → σ → Option (List σ × σ)
  | 0, s => if cond s then none else some ([], s)
  | n + 1, s =>
    if cond s then (run cond body n (body s)).map fun r => (s :: r.1, r.2)
    else some ([], s)

theorem run_of_false {s : σ} (h : cond s = false) (n : ℕ) : run cond body n s = some ([], s) := by
  cases n <;> rw [run, h] <;> rfl

theorem run_succ_of_true {s : σ} (h : cond s = true) (n : ℕ) :
    run cond body (n + 1) s = (run cond body n (body s)).map fun r => (s :: r.1, r.2) := by
  rw [run, if_pos h]

/-- **Loops terminate with their invariant**, if every iteration decreases a number. -/
theorem run_terminates {I : σ → Prop} {measure : σ → ℕ}
    (hbody : ∀ s, I s → cond s = true → I (body s) ∧ measure (body s) < measure s) {n : ℕ}
    {s : σ} (hs : I s) (hn : measure s ≤ n) :
    ∃ visited last, run cond body n s = some (visited, last) ∧
      (∀ t ∈ visited, I t ∧ cond t = true) ∧ I last ∧ cond last = false := by
  induction n generalizing s with
  | zero =>
    have hfalse : cond s = false := by
      refine eq_false_of_ne_true fun hcond => ?_
      have hlt := (hbody s hs hcond).2
      omega
    exact ⟨[], s, run_of_false hfalse 0, List.forall_mem_nil _, hs, hfalse⟩
  | succ n ih =>
    by_cases hcond : cond s = true
    · obtain ⟨hI, hlt⟩ := hbody s hs hcond
      obtain ⟨visited, last, hrun, hvisited, hlast⟩ := ih hI (by omega)
      refine ⟨s :: visited, last, ?_, List.forall_mem_cons.mpr ⟨⟨hs, hcond⟩, hvisited⟩, hlast⟩
      rw [run_succ_of_true hcond, hrun]
      rfl
    · have hfalse := eq_false_of_ne_true hcond
      exact ⟨[], s, run_of_false hfalse _, List.forall_mem_nil _, hs, hfalse⟩

/-- The induction over the iterations of an execution. -/
theorem run_induction {P : σ → List σ → σ → Prop}
    (hstop : ∀ s, cond s = false → P s [] s)
    (hstep : ∀ s visited last, cond s = true → P (body s) visited last → P s (s :: visited) last)
    {n : ℕ} {s last : σ} {visited : List σ} (h : run cond body n s = some (visited, last)) :
    P s visited last := by
  induction n generalizing s visited with
  | zero =>
    rw [run] at h
    split at h
    · cases h
    next hcond =>
      cases h
      exact hstop _ (eq_false_of_ne_true hcond)
  | succ n ih =>
    rw [run] at h
    split at h
    next hcond =>
      obtain ⟨⟨visited', last'⟩, hrun, heq⟩ := Option.map_eq_some_iff.mp h
      cases heq
      exact hstep s visited' last' hcond (ih hrun)
    next hcond =>
      cases h
      exact hstop _ (eq_false_of_ne_true hcond)

/-- **A position that advances is passed once**: exactly one iteration gets from at most `k` to
more than `k`, for each `k` that is passed at all. -/
theorem count_run (position : σ → ℕ) {n : ℕ} {s last : σ} {visited : List σ}
    (h : run cond body n s = some (visited, last))
    (hadvance : ∀ t ∈ visited, position t ≤ position (body t)) {k : ℕ}
    (hk : position s ≤ k ∧ k < position last) :
    visited.countP (fun t => position t ≤ k ∧ k < position (body t)) = 1 := by
  have hall : (∀ t ∈ visited, position t ≤ position (body t)) → position s ≤ position last ∧
      visited.countP (fun t => position t ≤ k ∧ k < position (body t)) =
        if position s ≤ k ∧ k < position last then 1 else 0 := by
    refine run_induction (P := fun s visited last =>
      (∀ t ∈ visited, position t ≤ position (body t)) → position s ≤ position last ∧
        visited.countP (fun t => position t ≤ k ∧ k < position (body t)) =
          if position s ≤ k ∧ k < position last then 1 else 0) ?_ ?_ h
    · intro s _ _
      refine ⟨Nat.le_refl _, ?_⟩
      rw [if_neg (by omega)]
      rfl
    · intro s visited last hcond ih hadvance
      obtain ⟨hs, hvisited⟩ := List.forall_mem_cons.mp hadvance
      obtain ⟨hlast, hcount⟩ := ih hvisited
      refine ⟨Nat.le_trans hs hlast, ?_⟩
      rw [List.countP_cons, hcount]
      -- the first iteration passes the position, or it is left to the others
      by_cases hfirst : position s ≤ k ∧ k < position (body s)
      · rw [if_neg (by omega), if_pos (decide_eq_true hfirst), if_pos (by omega)]
      · have hnot : ¬ decide (position s ≤ k ∧ k < position (body s)) = true := fun h =>
          hfirst (of_decide_eq_true h)
        rw [if_neg hnot]
        by_cases hrest : position (body s) ≤ k ∧ k < position last
        · rw [if_pos hrest, if_pos (by omega)]
        · rw [if_neg hrest, if_neg (by omega)]
  rw [(hall hadvance).2, if_pos hk]

/-- **Simulation**: two loops that decide in the same way and keep a relation between their states
visit related states. -/
theorem run_simulation {τ : Type*} {cond' : τ → Bool} {body' : τ → τ} {R : σ → τ → Prop}
    (hcond : ∀ s t, R s t → cond s = cond' t) (hbody : ∀ s t, R s t → R (body s) (body' t))
    {n : ℕ} {s last : σ} {t last' : τ} {visited : List σ} {visited' : List τ} (hR : R s t)
    (h : run cond body n s = some (visited, last))
    (h' : run cond' body' n t = some (visited', last')) :
    List.Forall₂ R visited visited' ∧ R last last' := by
  induction n generalizing s t visited visited' with
  | zero =>
    rw [run] at h h'
    split at h
    · cases h
    · split at h'
      · cases h'
      · cases h
        cases h'
        exact ⟨.nil, hR⟩
  | succ n ih =>
    rw [run] at h h'
    split at h
    next hs =>
      obtain ⟨⟨rest, _⟩, hrun, heq⟩ := Option.map_eq_some_iff.mp h
      cases heq
      rw [if_pos ((hcond s t hR).symm.trans hs)] at h'
      obtain ⟨⟨rest', _⟩, hrun', heq'⟩ := Option.map_eq_some_iff.mp h'
      cases heq'
      obtain ⟨hvisited, hlast⟩ := ih (hbody s t hR) hrun hrun'
      exact ⟨.cons hR hvisited, hlast⟩
    next hs =>
      have ht : ¬ cond' t = true := fun ht => hs ((hcond s t hR).trans ht)
      rw [if_neg ht] at h'
      cases h
      cases h'
      exact ⟨.nil, hR⟩

end WhileLoop
