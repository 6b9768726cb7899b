import Mathlib.Data.Set.Card
import Mathlib.Logic.Function.Basic
import Visr.Library.Execution

/-!
# Finite maps of a limited size

A container of values by keys is changed by calls, some of which may be refused.  What it contains
is told by the history of its calls alone.

## Main definitions

* `Call`, `Result` — the calls and how they end.
* `lookup` — the values of the last accepted calls of a history.
* `Session`, `step` — a container with the history of its calls.
* `BehavesAsMap` — the container and the results are those of a map with a limited size.
* `Implements` — what each single call does.

## Main results

* `behavesAsMap_iff` — **a container behaves as a map if and only if** it reports correctly what it
  has removed.
-/

namespace BoundedMap

open Execution

variable {κ α ε S : Type*}

/-- A value is set for a key, or the value of a key is removed. -/
inductive Call (κ α : Type*)
  | set (key : κ) (value : α)
  | remove (key : κ)

/-- A value has been set or refused, or it is reported whether there has been one to remove. -/
inductive Result (ε : Type*)
  | done
  | refused (error : ε)
  | removed (present : Bool)

section Histories

variable [DecidableEq κ]

/-- What a call changes, depending on its result. -/
def apply (content : κ → Option α) : Call κ α × Result ε → κ → Option α
  | (.set key value, .done) => Function.update content key (some value)
  | (.remove key, _) => Function.update content key none
  | (.set _ _, _) => content

/-- The value that has been set last and has not been removed since. -/
def lookup (start : κ → Option α) (history : List (Call κ α × Result ε)) : κ → Option α :=
  history.foldl apply start

@[simp] theorem lookup_nil (start : κ → Option α) :
    lookup start ([] : List (Call κ α × Result ε)) = start := rfl

@[simp] theorem lookup_concat (start : κ → Option α) (history : List (Call κ α × Result ε))
    (entry : Call κ α × Result ε) :
    lookup start (history ++ [entry]) = apply (lookup start history) entry := by
  unfold lookup
  rw [List.foldl_append, List.foldl_cons, List.foldl_nil]

end Histories

/-- The number of keys with a value. -/
noncomputable def size (content : κ → Option α) : ℕ := Set.ncard { key | content key ≠ none }

/-! ### Sessions -/

/-- A container with the history of its calls. -/
structure Session (S κ α ε : Type*) where
  state : S
  history : List (Call κ α × Result ε)

/-- A call, which is entered into the history with its result. -/
def step (call : Call κ α → S → Result ε × S) (c : Call κ α) (s : Session S κ α ε) :
    Option (Session S κ α ε) :=
  some ⟨(call c s.state).2, s.history ++ [(c, (call c s.state).1)]⟩

section Behaviour

variable [DecidableEq κ]

/-- There is a place for a value: its key has one already, or the map is not full. -/
def HasRoom (capacity : ℕ) (content : κ → Option α) (key : κ) : Prop :=
  content key ≠ none ∨ size content < capacity

/-- **The container is the map** that its history tells, and the results of the calls are those of
this map: values are set if they are admissible and there is room for them, and otherwise refused;
what is removed is reported. -/
structure BehavesAsMap (content : S → κ → Option α) (admissible : κ → α → Prop) (capacity : ℕ)
    (start : κ → Option α) (s : Session S κ α ε) : Prop where
  content_eq : content s.state = lookup start s.history
  size_le : size (content s.state) ≤ capacity
  set : ∀ past key value result later, s.history = past ++ (.set key value, result) :: later →
    (result = .done ↔ admissible key value ∧ HasRoom capacity (lookup start past) key) ∧
    ((∃ error, result = .refused error) ↔
      ¬(admissible key value ∧ HasRoom capacity (lookup start past) key))
  remove : ∀ past key result later, s.history = past ++ (.remove key, result) :: later →
    result = .removed (lookup start past key).isSome

/-- What each single call does to containers that satisfy an invariant. -/
structure Implements (call : Call κ α → S → Result ε × S) (Valid : S → Prop)
    (content : S → κ → Option α) (admissible : κ → α → Prop) (capacity : ℕ)
    (reported : κ → S → Bool) : Prop where
  size_le : ∀ s, Valid s → size (content s) ≤ capacity
  set : ∀ s key value, Valid s → admissible key value → HasRoom capacity (content s) key →
    ∃ s', call (.set key value) s = (.done, s') ∧ Valid s' ∧
      content s' = Function.update (content s) key (some value)
  refuse : ∀ s key value, Valid s →
    ¬(admissible key value ∧ HasRoom capacity (content s) key) →
    ∃ error, call (.set key value) s = (.refused error, s)
  remove : ∀ s key, Valid s →
    ∃ s', call (.remove key) s = (.removed (reported key s), s') ∧ Valid s' ∧
      content s' = Function.update (content s) key none

variable {call : Call κ α → S → Result ε × S} {Valid : S → Prop} {content : S → κ → Option α}
  {admissible : κ → α → Prop} {capacity : ℕ} {reported : κ → S → Bool} {start : κ → Option α}

/-- The report of a removal is correct. -/
def ReportsCorrectly (content : S → κ → Option α) (reported : κ → S → Bool) :
    Call κ α → Session S κ α ε → Prop
  | .remove key, s => reported key s.state = (content s.state key).isSome
  | .set _ _, _ => True

omit [DecidableEq κ] in
/-- The last entry of a history, or one before. -/
theorem concat_eq_append_cons {A : Type*} {l past later : List A} {a b : A}
    (h : l ++ [a] = past ++ b :: later) :
    (past = l ∧ b = a ∧ later = []) ∨ ∃ rest, later = rest ++ [a] ∧ l = past ++ b :: rest := by
  cases later using List.reverseRecOn with
  | nil =>
    obtain ⟨hl, hb⟩ := List.append_inj' h rfl
    exact Or.inl ⟨hl.symm, (List.singleton_inj.mp hb).symm, rfl⟩
  | append_singleton rest c =>
    rw [← List.cons_append, ← List.append_assoc] at h
    obtain ⟨hl, hc⟩ := List.append_inj' h rfl
    exact Or.inr ⟨rest, by rw [List.singleton_inj.mp hc], hl⟩

/-- A history continues to be that of a map if its last entry is as it should be. -/
theorem BehavesAsMap.concat {s : Session S κ α ε} {s' : S} {entry : Call κ α × Result ε}
    (h : BehavesAsMap content admissible capacity start s)
    (hcontent : content s' = apply (content s.state) entry) (hsize : size (content s') ≤ capacity)
    (hset : ∀ key value, entry.1 = .set key value →
      (entry.2 = .done ↔ admissible key value ∧ HasRoom capacity (content s.state) key) ∧
      ((∃ error, entry.2 = .refused error) ↔
        ¬(admissible key value ∧ HasRoom capacity (content s.state) key)))
    (hremove : ∀ key, entry.1 = .remove key →
      entry.2 = .removed (content s.state key).isSome) :
    BehavesAsMap content admissible capacity start ⟨s', s.history ++ [entry]⟩ where
  content_eq := by rw [lookup_concat, hcontent, h.content_eq]
  size_le := hsize
  set past key value result later heq := by
    rcases concat_eq_append_cons heq with ⟨rfl, hentry, -⟩ | ⟨rest, -, hpast⟩
    · have hlast := hset key value (congrArg Prod.fst hentry).symm
      rw [← hentry, h.content_eq] at hlast
      exact hlast
    · exact h.set past key value result rest hpast
  remove past key result later heq := by
    rcases concat_eq_append_cons heq with ⟨rfl, hentry, -⟩ | ⟨rest, -, hpast⟩
    · have hlast := hremove key (congrArg Prod.fst hentry).symm
      rw [← hentry, h.content_eq] at hlast
      exact hlast
    · exact h.remove past key result rest hpast

/-- **One call.**  The container remains valid, and it continues to behave as a map if and only if
the report of a removal is correct. -/
theorem Implements.step (himpl : Implements call Valid content admissible capacity reported)
    {s s' : Session S κ α ε} {c : Call κ α} (hvalid : Valid s.state)
    (h : BehavesAsMap content admissible capacity start s)
    (hstep : BoundedMap.step call c s = some s') :
    Valid s'.state ∧
      (BehavesAsMap content admissible capacity start s' ↔
        ReportsCorrectly content reported c s) := by
  cases hstep
  cases c with
  | set key value =>
    by_cases hroom : admissible key value ∧ HasRoom capacity (content s.state) key
    · obtain ⟨next, hcall, hvalid', hcontent⟩ := himpl.set s.state key value hvalid hroom.1 hroom.2
      dsimp only
      rw [hcall]
      refine ⟨hvalid', iff_of_true ?_ trivial⟩
      refine h.concat hcontent (himpl.size_le next hvalid') ?_ nofun
      rintro _ _ ⟨⟩
      simp [hroom]
    · obtain ⟨error, hcall⟩ := himpl.refuse s.state key value hvalid hroom
      dsimp only
      rw [hcall]
      refine ⟨hvalid, iff_of_true ?_ trivial⟩
      refine h.concat rfl (himpl.size_le s.state hvalid) ?_ nofun
      rintro _ _ ⟨⟩
      simp [hroom]
  | remove key =>
    obtain ⟨next, hcall, hvalid', hcontent⟩ := himpl.remove s.state key hvalid
    dsimp only
    rw [hcall]
    refine ⟨hvalid', ?_, fun hreport => ?_⟩
    · intro hmap
      -- the last call of the history is this removal
      have hlast := hmap.remove s.history key _ [] rfl
      rw [← h.content_eq] at hlast
      exact Result.removed.inj hlast
    · refine h.concat hcontent (himpl.size_le next hvalid') nofun ?_
      rintro _ ⟨⟩
      exact congrArg Result.removed hreport

theorem Implements.valid_exec
    (himpl : Implements call Valid content admissible capacity reported) {calls : List (Call κ α)}
    {s t : Session S κ α ε} (hs : Valid s.state) (h : exec (BoundedMap.step call) calls s = some t) :
    Valid t.state := by
  refine exec_invariant (I := fun t : Session S κ α ε => Valid t.state) (P := fun _ _ => True) ?_
    (throughout_of_forall (fun _ _ => trivial) s) hs h
  intro c s s' _ hvalid hstep
  cases hstep
  cases c with
  | set key value =>
    by_cases hroom : admissible key value ∧ HasRoom capacity (content s.state) key
    · obtain ⟨next, hcall, hnext, -⟩ := himpl.set s.state key value hvalid hroom.1 hroom.2
      simpa [hcall] using hnext
    · obtain ⟨error, hcall⟩ := himpl.refuse s.state key value hvalid hroom
      simpa [hcall] using hvalid
  | remove key =>
    obtain ⟨next, hcall, hnext, -⟩ := himpl.remove s.state key hvalid
    simpa [hcall] using hnext

omit [DecidableEq κ] in
/-- No call is refused by the session. -/
theorem exists_exec (call : Call κ α → S → Result ε × S) (calls : List (Call κ α))
    (s : Session S κ α ε) : ∃ t, exec (BoundedMap.step call) calls s = some t := by
  induction calls generalizing s with
  | nil => exact ⟨s, rfl⟩
  | cons c calls ih =>
    obtain ⟨t, ht⟩ := ih ⟨(call c s.state).2, s.history ++ [(c, (call c s.state).1)]⟩
    exact ⟨t, exec_cons_eq_some.mpr ⟨_, rfl, ht⟩⟩

/-- At the beginning there is no history. -/
theorem Implements.behavesAsMap_nil
    (himpl : Implements call Valid content admissible capacity reported) {s : S} (hs : Valid s) :
    BehavesAsMap content admissible capacity (content s) ⟨s, ([] : List (Call κ α × Result ε))⟩ where
  content_eq := rfl
  size_le := himpl.size_le s hs
  set _ _ _ _ _ heq := by simp at heq
  remove _ _ _ _ heq := by simp at heq

/-- **A container behaves as a map** during a run if and only if it reports correctly what it has
removed. -/
theorem behavesAsMap_iff (himpl : Implements call Valid content admissible capacity reported)
    {s : S} (hs : Valid s) (calls : List (Call κ α)) :
    (∀ past later t, calls = past ++ later → exec (step call) past ⟨s, []⟩ = some t →
      BehavesAsMap content admissible capacity (content s) t) ↔
    Throughout (step call) (fun c t => ReportsCorrectly content reported c t) calls ⟨s, []⟩ := by
  obtain ⟨last, hlast⟩ := exists_exec call calls ⟨s, []⟩
  have hiff := forall_visited_iff
    (I := fun t : Session S κ α ε =>
      Valid t.state ∧ BehavesAsMap content admissible capacity (content s) t)
    (P := fun c t => ReportsCorrectly content reported c t)
    (fun c t t' ht hstep => by
      obtain ⟨hvalid, hmap⟩ := himpl.step ht.1 ht.2 hstep
      exact (and_iff_right hvalid).trans hmap)
    ⟨hs, himpl.behavesAsMap_nil hs⟩ hlast
  refine Iff.trans ⟨fun hall past later t heq hpast => ?_, fun hall past later t heq hpast => ?_⟩
    hiff
  · -- the invariant holds in any case
    refine ⟨himpl.valid_exec hs hpast, hall past later t heq hpast⟩
  · exact (hall past later t heq hpast).2

end Behaviour

end BoundedMap
