import Mathlib.Data.List.Basic

/-!
# Executions

A step function on states may refuse an event.  This file relates the execution of a
whole list of events to its parts, and packages the induction over executions.

## Main definitions

* `exec step l s` — the state after the events of `l`, if none of them is refused.
* `Throughout step P l s` — each event of `l` satisfies `P` in the state where it happens.

## Main results

* `exec_append`, `throughout_append` — an execution can be cut anywhere.
* `exec_invariant` — what every step preserves holds after the execution.
* `throughout_of_invariant` — what an invariant implies in each state.
* `forall_visited_iff` — what exactly the events with a property preserve.
-/

namespace Execution

variable {σ ε : Type*} {step : ε → σ → Option σ}

/-- The state after a list of events, if none of them is refused. -/
def exec (step : ε → σ → Option σ) : List ε → σ → Option σ
  | [], s => some s
  | e :: l, s => (step e s).bind (exec step l)

@[simp] theorem exec_nil (s : σ) : exec step [] s = some s := rfl

theorem exec_cons (e : ε) (l : List ε) (s : σ) :
    exec step (e :: l) s = (step e s).bind (exec step l) := rfl

@[simp] theorem exec_singleton (e : ε) (s : σ) : exec step [e] s = step e s := by
  rw [exec_cons]
  cases step e s with
  | none => rfl
  | some s' => rfl

theorem exec_append (l l' : List ε) (s : σ) :
    exec step (l ++ l') s = (exec step l s).bind (exec step l') := by
  induction l generalizing s with
  | nil => rfl
  | cons e l ih =>
    rw [List.cons_append, exec_cons, exec_cons, Option.bind_assoc]
    congr 1
    funext s'
    exact ih s'

theorem exec_append_eq_some {l l' : List ε} {s s'' : σ} :
    exec step (l ++ l') s = some s'' ↔
      ∃ s', exec step l s = some s' ∧ exec step l' s' = some s'' := by
  rw [exec_append, Option.bind_eq_some_iff]

theorem exec_cons_eq_some {e : ε} {l : List ε} {s s'' : σ} :
    exec step (e :: l) s = some s'' ↔ ∃ s', step e s = some s' ∧ exec step l s' = some s'' := by
  rw [exec_cons, Option.bind_eq_some_iff]

/-- The last event of an execution. -/
theorem exec_concat_eq_some {l : List ε} {e : ε} {s s'' : σ} :
    exec step (l ++ [e]) s = some s'' ↔
      ∃ s', exec step l s = some s' ∧ step e s' = some s'' := by
  rw [exec_append_eq_some]
  simp only [exec_singleton]

/-- During the execution of a list of events, each event satisfies a condition in the state
in which it happens. -/
def Throughout (step : ε → σ → Option σ) (P : ε → σ → Prop) : List ε → σ → Prop
  | [], _ => True
  | e :: l, s => P e s ∧ ∀ s', step e s = some s' → Throughout step P l s'

section Throughout

variable {P Q : ε → σ → Prop}

@[simp] theorem throughout_nil (s : σ) : Throughout step P [] s := trivial

theorem throughout_cons {e : ε} {l : List ε} {s : σ} :
    Throughout step P (e :: l) s ↔
      P e s ∧ ∀ s', step e s = some s' → Throughout step P l s' := Iff.rfl

theorem throughout_append {l l' : List ε} {s : σ} :
    Throughout step P (l ++ l') s ↔
      Throughout step P l s ∧ ∀ s', exec step l s = some s' → Throughout step P l' s' := by
  induction l generalizing s with
  | nil => simp
  | cons e l ih =>
    rw [List.cons_append, throughout_cons, throughout_cons, and_assoc]
    refine and_congr_right fun _ => ⟨fun h => ⟨fun s₁ hs₁ => (ih.mp (h s₁ hs₁)).1, ?_⟩, ?_⟩
    · intro s' hs'
      obtain ⟨s₁, hs₁, hexec⟩ := exec_cons_eq_some.mp hs'
      exact (ih.mp (h s₁ hs₁)).2 s' hexec
    · rintro ⟨hl, hl'⟩ s₁ hs₁
      exact ih.mpr ⟨hl s₁ hs₁, fun s' hs' => hl' s' (exec_cons_eq_some.mpr ⟨s₁, hs₁, hs'⟩)⟩

/-- The condition of the last event of an execution. -/
theorem throughout_concat {l : List ε} {e : ε} {s s' : σ} (h : exec step l s = some s') :
    Throughout step P (l ++ [e]) s ↔ Throughout step P l s ∧ P e s' := by
  rw [throughout_append]
  refine and_congr_right fun _ => ⟨fun hlast => (hlast s' h).1, ?_⟩
  intro he s₁ hs₁
  cases h.symm.trans hs₁
  exact ⟨he, fun _ _ => trivial⟩

/-- **Invariants.**  What holds at the start and is preserved by each event that satisfies
the condition holds at the end. -/
theorem exec_invariant {I : σ → Prop}
    (hstep : ∀ e s s', P e s → I s → step e s = some s' → I s') {l : List ε} {s s' : σ}
    (hl : Throughout step P l s) (hs : I s) (h : exec step l s = some s') : I s' := by
  induction l generalizing s with
  | nil =>
    cases h
    exact hs
  | cons e l ih =>
    obtain ⟨next, hnext, hexec⟩ := exec_cons_eq_some.mp h
    exact ih (hl.2 next hnext) (hstep e s next hl.1 hs hnext) hexec

/-- A condition that does not mention the states can be checked on the list. -/
theorem throughout_of_forall {p : ε → Prop} {l : List ε} (hl : ∀ e ∈ l, p e) (s : σ) :
    Throughout step (fun e _ => p e) l s := by
  induction l generalizing s with
  | nil => exact trivial
  | cons e l ih =>
    obtain ⟨he, hl⟩ := List.forall_mem_cons.mp hl
    exact ⟨he, fun s' _ => ih hl s'⟩

theorem throughout_mono (hmono : ∀ e s, P e s → Q e s) {l : List ε} {s : σ}
    (hl : Throughout step P l s) : Throughout step Q l s := by
  induction l generalizing s with
  | nil => exact trivial
  | cons e l ih => exact ⟨hmono e s hl.1, fun s' hs' => ih (hl.2 s' hs')⟩

theorem throughout_and {l : List ε} {s : σ} (hP : Throughout step P l s)
    (hQ : Throughout step Q l s) : Throughout step (fun e s => P e s ∧ Q e s) l s := by
  induction l generalizing s with
  | nil => exact trivial
  | cons e l ih => exact ⟨⟨hP.1, hQ.1⟩, fun s' hs' => ih (hP.2 s' hs') (hQ.2 s' hs')⟩

/-- What an invariant implies in each state of an execution. -/
theorem throughout_of_invariant {I : σ → Prop}
    (hstep : ∀ e s s', P e s → I s → step e s = some s' → I s')
    (hQ : ∀ e s, P e s → I s → Q e s) {l : List ε} {s : σ} (hl : Throughout step P l s)
    (hs : I s) : Throughout step Q l s := by
  induction l generalizing s with
  | nil => exact trivial
  | cons e l ih =>
    refine ⟨hQ e s hl.1 hs, fun s' hs' => ?_⟩
    exact ih (hl.2 s' hs') (hstep e s s' hl.1 hs hs')

/-- Conditions that are equivalent in all states. -/
theorem throughout_congr (hcongr : ∀ e s, P e s ↔ Q e s) {l : List ε} {s : σ} :
    Throughout step P l s ↔ Throughout step Q l s := by
  induction l generalizing s with
  | nil => exact Iff.rfl
  | cons e l ih => exact and_congr (hcongr e s) (forall₂_congr fun _ _ => ih)

/-- What is preserved exactly by the events that satisfy a condition holds during a whole
execution if and only if each event satisfies it. -/
theorem forall_visited_iff {I : σ → Prop}
    (hstep : ∀ e s s', I s → step e s = some s' → (I s' ↔ P e s)) {l : List ε} {s s' : σ}
    (hs : I s) (h : exec step l s = some s') :
    (∀ past later t, l = past ++ later → exec step past s = some t → I t) ↔
      Throughout step P l s := by
  induction l generalizing s with
  | nil =>
    refine iff_of_true (fun past later t heq ht => ?_) trivial
    obtain ⟨rfl, rfl⟩ := List.append_eq_nil_iff.mp heq.symm
    cases ht
    exact hs
  | cons e l ih =>
    obtain ⟨next, hnext, hexec⟩ := exec_cons_eq_some.mp h
    have hI := hstep e s next hs hnext
    constructor
    · intro hall
      -- the state after the first event is one that is visited
      have hInext : I next := hall [e] l next rfl (by rw [exec_singleton, hnext])
      refine ⟨hI.mp hInext, fun t ht => ?_⟩
      cases hnext.symm.trans ht
      refine (ih hInext hexec).mp fun past later t heq hpast => ?_
      exact hall (e :: past) later t (by rw [heq]; rfl)
        (exec_cons_eq_some.mpr ⟨next, hnext, hpast⟩)
    · rintro ⟨hP, hrest⟩ past later t heq hpast
      have hInext : I next := hI.mpr hP
      cases past with
      | nil =>
        cases hpast
        exact hs
      | cons e' past =>
        obtain ⟨rfl, rfl⟩ := List.cons.inj heq
        obtain ⟨next', hnext', hpast⟩ := exec_cons_eq_some.mp hpast
        cases hnext.symm.trans hnext'
        exact (ih hInext hexec).mpr (hrest next hnext) past later t rfl hpast

end Throughout

end Execution
