import Mathlib.Logic.Function.Basic

/-!
# Partial functions as relations

A set of pairs stands for a partial function if it contains the pairs of arguments and values, and
no others.

## Main definitions

* `IsGraph` — the pairs are those of a partial function.

## Main results

* `IsGraph.unique` — there is at most one value for an argument.
* `IsGraph.update`, `IsGraph.remove` — changes of one pair.
-/

variable {α β : Type*}

/-- The pairs are the arguments and values of a partial function. -/
def IsGraph (r : α → β → Prop) (f : α → Option β) : Prop := ∀ a b, r a b ↔ f a = some b

namespace IsGraph

variable {r r' : α → β → Prop} {f : α → Option β}

theorem empty (h : ∀ a b, ¬r a b) : IsGraph r fun _ => none := by
  intro a b
  exact iff_of_false (h a b) nofun

/-- **There is at most one value for an argument.** -/
theorem unique (h : IsGraph r f) {a : α} {b b' : β} (hb : r a b) (hb' : r a b') : b = b' := by
  rw [h] at hb hb'
  exact Option.some.inj (hb.symm.trans hb')

variable [DecidableEq α]

/-- **A pair is added**, and there is no other one for its argument. -/
theorem update (h : IsGraph r f) {a : α} {b : β} (hother : ∀ b', r a b' → b' = b)
    (hr : ∀ a' b', r' a' b' ↔ r a' b' ∨ a' = a ∧ b' = b) :
    IsGraph r' (Function.update f a (some b)) := by
  intro a' b'
  rw [hr]
  by_cases ha : a' = a
  · subst ha
    rw [Function.update_self, Option.some.injEq]
    constructor
    · rintro (hb | ⟨-, hb⟩)
      · exact (hother b' hb).symm
      · exact hb.symm
    · intro hb
      exact Or.inr ⟨rfl, hb.symm⟩
  · rw [Function.update_of_ne ha, ← h a' b']
    exact or_iff_left fun hpair => ha hpair.1

/-- **A pair is removed**, if it is there. -/
theorem remove [DecidableEq β] (h : IsGraph r f) {a : α} {b : β}
    (hr : ∀ a' b', r' a' b' ↔ r a' b' ∧ ¬(a' = a ∧ b' = b)) :
    IsGraph r' (if f a = some b then Function.update f a none else f) := by
  intro a' b'
  rw [hr, h]
  by_cases hfa : f a = some b
  · rw [if_pos hfa]
    by_cases ha : a' = a
    · subst ha
      rw [Function.update_self, hfa, Option.some.injEq]
      constructor
      · rintro ⟨hb, hne⟩
        exact absurd ⟨rfl, hb.symm⟩ hne
      · exact nofun
    · rw [Function.update_of_ne ha]
      exact and_iff_left fun hpair => ha hpair.1
  · rw [if_neg hfa]
    apply and_iff_left_of_imp
    rintro hb ⟨rfl, rfl⟩
    exact hfa hb

end IsGraph
