import Mathlib.Data.List.Induction
import Visr.Library.Execution

/-!
# Results that are recalculated

A component has two inputs, each with a flag that tells whether there is a new value.  The second
one configures the component, and a new value of the first one leads to a new result.

## Main definitions

* `Input` — a value with its flag.
* `System`, `State`, `process` — the component.
* `Event`, `step` — what may happen, in any order.
* `Timely` — a new value of the second input is never seen without a new one of the first.

## Main results

* `inv_exec` — what is known after any run.
* `exec_result` — **the result is that of the values received last**, in timely runs.
-/

namespace Recalculation

open Execution

/-- A value, and whether it has been received since the flag was reset. -/
structure Input (V : Type*) where
  data : V
  changed : Bool

namespace Input

variable {V : Type*}

def receive (_ : Input V) (v : V) : Input V := ⟨v, true⟩

def resetChanged (i : Input V) : Input V := { i with changed := false }

end Input

variable {A B C R : Type*}

/-- How the component is configured, and how the result is computed, if this does not fail. -/
structure System (A B C R : Type*) where
  configure : B → C → C
  compute : C → A → Option R

/-- The configuration depends on the last value only. -/
def System.Overwrites (sys : System A B C R) : Prop :=
  ∀ b b' c, sys.configure b (sys.configure b' c) = sys.configure b c

structure State (A B C R : Type*) where
  first : Input A
  second : Input B
  config : C
  result : R

/-- New values of the second input are taken into account whenever there is a new value of the
first input. -/
def process (sys : System A B C R) (s : State A B C R) : Option (State A B C R) :=
  let s :=
    if s.second.changed = true then
      { s with
        config := sys.configure s.second.data s.config
        second := s.second.resetChanged }
    else s
  if s.first.changed = true then
    (sys.compute s.config s.first.data).map fun r =>
      { s with result := r, first := s.first.resetChanged }
  else some s

inductive Event (A B : Type*)
  | first (a : A)
  | second (b : B)
  | process

def step (sys : System A B C R) (e : Event A B) (s : State A B C R) :
    Option (State A B C R) :=
  match e with
  | .first a => some { s with first := s.first.receive a }
  | .second b => some { s with second := s.second.receive b }
  | .process => process sys s

/-! ### Histories -/

def Event.first? : Event A B → Option A
  | .first a => some a
  | _ => none

def Event.second? : Event A B → Option B
  | .second b => some b
  | _ => none

def Event.isProcess : Event A B → Bool
  | .process => true
  | _ => false

section Histories

variable {V : Type*} (value : Event A B → Option V) (events : List (Event A B))

/-- The value that was received last. -/
def latest : Option V := events.reverse.findSome? value

/-- What happened since the last call, in the reverse order. -/
def sinceProcess : List (Event A B) := events.reverse.takeWhile fun e => !e.isProcess

/-- A value was received since the last call. -/
def pending : Bool := (sinceProcess events).any fun e => (value e).isSome

/-- Before each call, a value of the second input was received since the last call only if a value
of the first input was received as well, or if none was received so far. -/
def Timely : Prop :=
  ∀ past later, events = past ++ .process :: later → pending Event.second? past = true →
    pending Event.first? past = true ∨ latest Event.first? past = none

variable {value events}

theorem Timely.past {later : List (Event A B)} (h : Timely (events ++ later)) : Timely events :=
  fun past' later' heq => h past' (later' ++ later) (by rw [heq, List.append_assoc]; rfl)

theorem latest_concat (e : Event A B) :
    latest value (events ++ [e]) = (value e).or (latest value events) := by
  unfold latest
  rw [List.reverse_concat, List.findSome?_cons]
  cases value e with
  | none => rfl
  | some v => rfl

theorem pending_concat (e : Event A B) :
    pending value (events ++ [e]) =
      (!e.isProcess && ((value e).isSome || pending value events)) := by
  unfold pending sinceProcess
  rw [List.reverse_concat, List.takeWhile_cons]
  cases e.isProcess with
  | true => rfl
  | false => rfl

theorem latest_process (hnone : value .process = none) :
    latest value (events ++ [.process]) = latest value events := by
  rw [latest_concat, hnone]
  rfl

theorem pending_process : pending value (events ++ [.process]) = false := by
  rw [pending_concat]
  rfl

theorem exists_latest (h : pending value events = true) : ∃ v, latest value events = some v := by
  obtain ⟨e, hmem, he⟩ := List.any_eq_true.mp h
  cases hlatest : latest value events with
  | some v => exact ⟨v, rfl⟩
  | none =>
    rw [List.findSome?_eq_none_iff.mp hlatest e (List.takeWhile_subset _ hmem)] at he
    cases he

end Histories

/-! ### Runs -/

section Runs

variable (sys : System A B C R) (c₀ : C)

/-- The configuration for a value of the second input, if one was received. -/
def configured : Option B → C
  | some b => sys.configure b c₀
  | none => c₀

/-- What is known after some events. -/
structure Inv (events : List (Event A B)) (s : State A B C R) : Prop where
  first_changed : s.first.changed = pending Event.first? events
  first_data : ∀ a, latest Event.first? events = some a → s.first.data = a
  second_changed : s.second.changed = pending Event.second? events
  second_data : ∀ b, latest Event.second? events = some b → s.second.data = b
  known : ∃ b, s.config = configured sys c₀ b
  config : pending Event.second? events = false →
    s.config = configured sys c₀ (latest Event.second? events)
  result : pending Event.first? events = false → ∀ a, latest Event.first? events = some a →
    sys.compute s.config a = some s.result

variable {sys c₀}

/-- A call, before the result is calculated. -/
theorem Inv.configure (hsys : sys.Overwrites) {events : List (Event A B)} {s : State A B C R}
    (h : Inv sys c₀ events s) :
    (if s.second.changed = true then
      { s with
        config := sys.configure s.second.data s.config
        second := s.second.resetChanged }
    else s) = { s with
      config := configured sys c₀ (latest Event.second? events)
      second := s.second.resetChanged } := by
  rw [h.second_changed]
  cases hpending : pending Event.second? events with
  | true =>
    obtain ⟨b, hb⟩ := exists_latest hpending
    obtain ⟨b', hb'⟩ := h.known
    rw [if_pos rfl, hb, h.second_data b hb, hb']
    cases b' with
    | none => rfl
    | some b' =>
      -- the configuration depends on the latest value only
      show { s with
        config := sys.configure b (sys.configure b' c₀)
        second := s.second.resetChanged } = _
      rw [hsys]
      rfl
  | false =>
    have hreset : s.second = s.second.resetChanged :=
      congrArg (fun changed => { s.second with changed := changed })
        (h.second_changed.trans hpending)
    rw [if_neg Bool.false_ne_true, ← h.config hpending, ← hreset]

/-- **One event.** -/
theorem inv_step (hsys : sys.Overwrites) {events : List (Event A B)} {e : Event A B}
    (htimely : e = .process → pending Event.second? events = true →
      pending Event.first? events = true ∨ latest Event.first? events = none)
    {s s' : State A B C R} (h : Inv sys c₀ events s) (hstep : step sys e s = some s') :
    Inv sys c₀ (events ++ [e]) s' := by
  cases e with
  | first a =>
    cases hstep
    constructor
    · rw [pending_concat]
      rfl
    · intro a' ha'
      rw [latest_concat] at ha'
      exact Option.some.inj ha'
    · rw [pending_concat]
      exact h.second_changed
    · intro b hb
      rw [latest_concat] at hb
      exact h.second_data b hb
    · exact h.known
    · intro hpending
      rw [pending_concat] at hpending
      rw [latest_concat]
      exact h.config hpending
    · intro hpending
      rw [pending_concat] at hpending
      cases hpending
  | second b =>
    cases hstep
    constructor
    · rw [pending_concat]
      exact h.first_changed
    · intro a ha
      rw [latest_concat] at ha
      exact h.first_data a ha
    · rw [pending_concat]
      rfl
    · intro b' hb'
      rw [latest_concat] at hb'
      exact Option.some.inj hb'
    · exact h.known
    · intro hpending
      rw [pending_concat] at hpending
      cases hpending
    · intro hpending a ha
      rw [pending_concat] at hpending
      rw [latest_concat] at ha
      exact h.result hpending a ha
  | process =>
    unfold step process at hstep
    rw [h.configure hsys] at hstep
    dsimp only at hstep
    split at hstep
    next hchanged =>
      rw [h.first_changed] at hchanged
      obtain ⟨a, ha⟩ := exists_latest hchanged
      obtain ⟨r, hr, rfl⟩ := Option.map_eq_some_iff.mp hstep
      rw [h.first_data a ha] at hr
      constructor
      · exact pending_process.symm
      · intro a' ha'
        rw [latest_process rfl] at ha'
        exact h.first_data a' ha'
      · exact pending_process.symm
      · intro b hb
        rw [latest_process rfl] at hb
        exact h.second_data b hb
      · exact ⟨_, rfl⟩
      · intro _
        rw [latest_process rfl]
      · intro _ a' ha'
        rw [latest_process rfl, ha] at ha'
        rw [← Option.some.inj ha']
        exact hr
    next hchanged =>
      cases hstep
      rw [h.first_changed, Bool.not_eq_true] at hchanged
      constructor
      · rw [pending_process]
        exact h.first_changed.trans hchanged
      · intro a' ha'
        rw [latest_process rfl] at ha'
        exact h.first_data a' ha'
      · exact pending_process.symm
      · intro b hb
        rw [latest_process rfl] at hb
        exact h.second_data b hb
      · exact ⟨_, rfl⟩
      · intro _
        rw [latest_process rfl]
      · intro _ a ha
        rw [latest_process rfl] at ha
        -- There is a new configuration only if no value of the first input was received.
        have hold : pending Event.second? events = false := by
          by_contra hpending
          rcases htimely rfl (Bool.not_eq_false _ ▸ hpending) with hfirst | hnone
          · rw [hchanged] at hfirst
            cases hfirst
          · rw [hnone] at ha
            cases ha
        show sys.compute (configured sys c₀ (latest Event.second? events)) a = some s.result
        rw [← h.config hold]
        exact h.result hchanged a ha

/-- **What is known after any timely run.** -/
theorem inv_exec (hsys : sys.Overwrites) {s₀ : State A B C R}
    (hfirst : s₀.first.changed = false) (hsecond : s₀.second.changed = false)
    {events : List (Event A B)} (htimely : Timely events) {s : State A B C R}
    (h : exec (step sys) events s₀ = some s) : Inv sys s₀.config events s := by
  induction events using List.reverseRecOn generalizing s with
  | nil =>
    cases h
    exact ⟨hfirst, nofun, hsecond, nofun, ⟨none, rfl⟩, fun _ => rfl, fun _ => nofun⟩
  | append_singleton past e ih =>
    obtain ⟨s', hs', hstep⟩ := exec_concat_eq_some.mp h
    refine inv_step hsys (fun he => ?_) (ih htimely.past hs') hstep
    subst he
    exact htimely past [] rfl

/-- **After each call, the result is that of the values received last.** -/
theorem exec_result (hsys : sys.Overwrites) {s₀ : State A B C R}
    (hfirst : s₀.first.changed = false) (hsecond : s₀.second.changed = false)
    {events : List (Event A B)} (htimely : Timely (events ++ [.process])) {s : State A B C R}
    (h : exec (step sys) (events ++ [.process]) s₀ = some s) {a : A}
    (ha : latest Event.first? events = some a) :
    sys.compute (configured sys s₀.config (latest Event.second? events)) a = some s.result := by
  have hinv := inv_exec hsys hfirst hsecond htimely h
  have hconfig := hinv.config pending_process
  have hresult := hinv.result pending_process a ((latest_process rfl).trans ha)
  rw [hconfig, latest_process rfl] at hresult
  exact hresult

end Runs

end Recalculation
