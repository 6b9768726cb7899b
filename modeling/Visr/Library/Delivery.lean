import Mathlib.Data.List.Perm.Basic
import Mathlib.Data.List.Perm.Subperm
import Visr.Library.Execution

/-!
# Delivery of messages

Messages travel from a sender to a receiver through several places.  What can be said about the
messages that have arrived follows from what may happen to them on the way, one disturbance
at a time.

## Main definitions

* `Disturbance` — what may happen to messages that are under way.
* `Guarantee` — a relation between the messages received and sent that is not affected by
  other messages in front and behind.
* `Tolerates` — a disturbance does not break a guarantee.

## Main results

* `guarantee_eq`, `guarantee_sublist`, `guarantee_subperm`, `guarantee_accounted` — the
  guarantees, and the disturbances that they tolerate.
* `delivered_of_exec` — **the guarantee holds after each execution** whose events disturb the
  messages only in ways that are tolerated.
* `exists_exec_of_decreasing` — if there is always something left to do that brings the goal
  nearer, then the goal can be reached.
-/

namespace Delivery

open Execution

/-- What may happen to messages that are under way. -/
inductive Disturbance
  | loss
  | reordering
  | duplication
  /-- A message that has not been sent. -/
  | noise
  deriving DecidableEq, Repr

variable {α : Type*} {noise : α → Prop} {R : List α → List α → Prop}

/-- A relation between the messages received and sent that is not affected by other messages
in front and behind. -/
structure Guarantee (R : List α → List α → Prop) : Prop where
  refl : ∀ l, R l l
  trans : ∀ {l₁ l₂ l₃}, R l₁ l₂ → R l₂ l₃ → R l₁ l₃
  append : ∀ {l₁ l₂} l, R l₁ l₂ → R (l₁ ++ l) (l₂ ++ l)
  prepend : ∀ {l₁ l₂} l, R l₁ l₂ → R (l ++ l₁) (l ++ l₂)

/-- A disturbance does not break a guarantee. -/
def Tolerates (noise : α → Prop) (R : List α → List α → Prop) : Disturbance → Prop
  | .loss => ∀ l₁ a l₂, R (l₁ ++ l₂) (l₁ ++ a :: l₂)
  | .reordering => ∀ l₁ l₂, l₁.Perm l₂ → R l₁ l₂
  | .duplication => ∀ l a, a ∈ l → R (l ++ [a]) l
  | .noise => ∀ l a, noise a → R (l ++ [a]) l

/-- Nothing is lost, and the order is kept. -/
theorem guarantee_eq : Guarantee (α := α) (· = ·) where
  refl _ := rfl
  trans := Eq.trans
  append l h := congrArg (· ++ l) h
  prepend l h := congrArg (l ++ ·) h

theorem guarantee_sublist : Guarantee (α := α) List.Sublist where
  refl := List.Sublist.refl
  trans := List.Sublist.trans
  append l h := h.append_right l
  prepend l h := h.append_left l

theorem sublist_tolerates_loss : Tolerates noise List.Sublist .loss := by
  intro l₁ a l₂
  exact (List.sublist_cons_self a l₂).append_left l₁

theorem guarantee_subperm : Guarantee (α := α) List.Subperm where
  refl := List.Subperm.refl
  trans := List.Subperm.trans
  append l h := (List.subperm_append_right l).mpr h
  prepend l h := (List.subperm_append_left l).mpr h

theorem subperm_tolerates_loss : Tolerates noise List.Subperm .loss := by
  intro l₁ a l₂
  exact ((List.sublist_cons_self a l₂).append_left l₁).subperm

theorem subperm_tolerates_reordering : Tolerates noise List.Subperm .reordering := by
  intro l₁ l₂ h
  exact h.subperm

/-- Each message that is received has been sent, or is noise. -/
def Accounted (noise : α → Prop) (l₁ l₂ : List α) : Prop := ∀ a ∈ l₁, noise a ∨ a ∈ l₂

theorem guarantee_accounted : Guarantee (Accounted noise) where
  refl _ _ h := .inr h
  trans h h' a ha := (h a ha).elim .inl (h' a)
  append l h a ha := by
    rcases List.mem_append.mp ha with ha | ha
    · exact (h a ha).imp_right (List.mem_append_left l)
    · exact .inr (List.mem_append_right _ ha)
  prepend l h a ha := by
    rcases List.mem_append.mp ha with ha | ha
    · exact .inr (List.mem_append_left _ ha)
    · exact (h a ha).imp_right (List.mem_append_right l)

/-- Nothing can happen that is not accounted for. -/
theorem accounted_tolerates (d : Disturbance) : Tolerates noise (Accounted noise) d := by
  cases d with
  | loss =>
    intro l₁ b l₂ a ha
    simp only [List.mem_append, List.mem_cons] at ha ⊢
    exact .inr (ha.imp_right .inr)
  | reordering =>
    intro l₁ l₂ h a ha
    exact .inr (h.mem_iff.mp ha)
  | duplication =>
    intro l b hb a ha
    rcases List.mem_append.mp ha with ha | ha
    · exact .inr ha
    · rw [List.mem_singleton.mp ha]
      exact .inr hb
  | noise =>
    intro l b hb a ha
    rcases List.mem_append.mp ha with ha | ha
    · exact .inr ha
    · rw [List.mem_singleton.mp ha]
      exact .inl hb

section Execution

variable {σ ε : Type*} {step : ε → σ → Option σ} {P : ε → σ → Prop} {I : σ → Prop}

/-- **Delivery.**  Each event sends messages, and disturbs those that are on the way at most
in ways that the guarantee tolerates. -/
theorem delivered_of_exec (hR : Guarantee R) {contents sent : σ → List α}
    (hstep : ∀ e s s', P e s → I s → step e s = some s' →
      I s' ∧ ∃ new, sent s' = sent s ++ new ∧ R (contents s') (contents s ++ new))
    {events : List ε} {s s' : σ} (hP : Throughout step P events s) (hI : I s)
    (hs : R (contents s) (sent s)) (h : exec step events s = some s') :
    R (contents s') (sent s') := by
  refine (exec_invariant (I := fun s => I s ∧ R (contents s) (sent s)) ?_ hP ⟨hI, hs⟩ h).2
  rintro e s s' hPe ⟨hI, hs⟩ h
  obtain ⟨hI', new, hsent, hnew⟩ := hstep e s s' hPe hI h
  refine ⟨hI', ?_⟩
  rw [hsent]
  exact hR.trans hnew (hR.append new hs)

/-- If there is always something left to do that brings the goal nearer, then the goal can be
reached. -/
theorem exists_exec_of_decreasing {distance : σ → ℕ}
    (hstep : ∀ s, I s → distance s ≠ 0 →
      ∃ e s', step e s = some s' ∧ P e s ∧ I s' ∧ distance s' < distance s) {s : σ} (hI : I s) :
    ∃ events s', exec step events s = some s' ∧ Throughout step P events s ∧ I s' ∧
      distance s' = 0 := by
  induction hn : distance s using Nat.strongRecOn generalizing s with
  | ind n ih =>
    by_cases hzero : distance s = 0
    · exact ⟨[], s, rfl, trivial, hI, hzero⟩
    · obtain ⟨e, next, hnext, hPe, hInext, hlt⟩ := hstep s hI hzero
      obtain ⟨events, s', hexec, hP, hI', hzero'⟩ := ih _ (hn ▸ hlt) hInext rfl
      refine ⟨e :: events, s', exec_cons_eq_some.mpr ⟨next, hnext, hexec⟩, ⟨hPe, ?_⟩, hI', hzero'⟩
      intro t ht
      cases hnext.symm.trans ht
      exact hP

end Execution

end Delivery
