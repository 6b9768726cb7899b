import Mathlib.Data.List.Basic
import Mathlib.Logic.Function.Basic

/-!
# Change detection

A sender with a value for each channel sends a message when a value differs from the one that has
been sent last.  It remembers what it has sent.

## Main definitions

* `lastSent` — the last message of a channel.
* `update` — the remembered values and the messages after a channel has got a new value.
* `Remembers` — the remembered values are those of the last messages.

## Main results

* `Remembers.update` — **what is remembered is what has been sent**, at any time.
* `update_same` — the remembered value agrees with the new one.
-/

namespace ChangeDetection

variable {C M V : Type*} [DecidableEq C]

/-- The last message with an index. -/
def lastSent (index : M → C) (messages : List M) (c : C) : Option M :=
  messages.reverse.find? fun m => index m = c

section LastSent

variable {index : M → C}

@[simp] theorem lastSent_nil (c : C) : lastSent index [] c = none := rfl

theorem lastSent_concat (messages : List M) (m : M) (c : C) :
    lastSent index (messages ++ [m]) c =
      if index m = c then some m else lastSent index messages c := by
  unfold lastSent
  rw [List.reverse_append, List.reverse_singleton, List.singleton_append, List.find?_cons]
  by_cases h : index m = c
  · simp [h]
  · simp [h]

end LastSent

/-- The value of the last message, or the initial value. -/
def lastValue (index : M → C) (value : M → V) (initial : C → V) (messages : List M) (c : C) : V :=
  (lastSent index messages c).elim (initial c) value

/-- The remembered values are those of the messages. -/
def Remembers (index : M → C) (value : M → V) (initial : C → V) (messages : List M)
    (previous : C → V) : Prop :=
  ∀ c, previous c = lastValue index value initial messages c

/-- A channel gets a new value, which is sent unless it is the same as the remembered one. -/
def update (message : C → V → M) (same : V → V → Bool) (previous : C → V) (c : C) (new : V) :
    (C → V) × List M :=
  if same (previous c) new then (previous, [])
  else (Function.update previous c new, [message c new])

section Update

variable {index : M → C} {value : M → V} {message : C → V → M} {same : V → V → Bool}
  {initial : C → V}

theorem remembers_nil : Remembers index value initial [] initial := fun _ => rfl

/-- **What is remembered is what has been sent.** -/
theorem Remembers.update (hindex : ∀ c v, index (message c v) = c)
    (hvalue : ∀ c v, value (message c v) = v) {messages : List M} {previous : C → V}
    (h : Remembers index value initial messages previous) (c : C) (new : V) :
    Remembers index value initial
      (messages ++ (ChangeDetection.update message same previous c new).2)
      (ChangeDetection.update message same previous c new).1 := by
  unfold ChangeDetection.update
  split
  · -- nothing is sent
    rw [List.append_nil]
    exact h
  · intro d
    unfold lastValue
    rw [lastSent_concat, hindex]
    by_cases hd : c = d
    · subst hd
      simp [hvalue]
    · rw [if_neg hd]
      exact (Function.update_of_ne (Ne.symm hd) new previous).trans (h d)

/-- **The remembered value agrees with the new one.** -/
theorem update_same (hrefl : ∀ v, same v v = true) (previous : C → V) (c : C) (new : V) :
    same ((ChangeDetection.update message same previous c new).1 c) new = true := by
  unfold ChangeDetection.update
  split
  next h => exact h
  next => simpa using hrefl new

/-- The other channels are not concerned. -/
theorem update_other (previous : C → V) {c d : C} (new : V) (h : d ≠ c) :
    (ChangeDetection.update message same previous c new).1 d = previous d := by
  unfold ChangeDetection.update
  split
  · rfl
  · exact Function.update_of_ne h new previous

end Update

end ChangeDetection
