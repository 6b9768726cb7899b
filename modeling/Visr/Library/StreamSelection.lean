import Mathlib.Data.List.Basic
import Mathlib.Data.List.Induction
import Mathlib.Order.Lattice

/-!
# Selection from a stream

An element with the smallest key, and among these the latest time, is looked for in one pass, in
which each element is only compared with the one that was found before.

## Main definitions

* `StreamSelection.running` — the elements that are found on the way.
* `StreamSelection.Preferred` — the element that is looked for.

## Main results

* `StreamSelection.exists_preferred` — there is one.
* `StreamSelection.running_of_preferred` — **it is found if no time is later than its own**.
* `StreamSelection.time_le_of_head` — the times of what is found on the way.
-/

namespace Visr

namespace StreamSelection

variable {M F T : Type} [LinearOrder F] [LinearOrder T] (key : M → F) (time : M → T)

/-- The elements in the running: those before which there is nothing in the running with a smaller
key or a later time.  The list starts with the latest element. -/
def running : List M → List M
  | [] => []
  | m :: earlier =>
    if ∀ r ∈ running earlier, key m ≤ key r ∧ time r ≤ time m then m :: running earlier
    else running earlier

/-- The element between two parts of a list has the smallest key and, among the elements with this
key, the latest time, and is the last one of these. -/
structure Preferred (before : List M) (p : M) (after : List M) : Prop where
  key_le : ∀ q ∈ before ++ p :: after, key p ≤ key q
  time_le : ∀ q ∈ before, key q = key p → time q ≤ time p
  time_lt : ∀ q ∈ after, key q = key p → time q < time p

variable {key} {time}

theorem running_cons_of {m : M} {earlier : List M}
    (h : ∀ r ∈ running key time earlier, key m ≤ key r ∧ time r ≤ time m) :
    running key time (m :: earlier) = m :: running key time earlier := if_pos h

theorem running_cons_of_not {m : M} {earlier : List M}
    (h : ¬∀ r ∈ running key time earlier, key m ≤ key r ∧ time r ≤ time m) :
    running key time (m :: earlier) = running key time earlier := if_neg h

/-- The last element in the running has the smallest key and the latest time of these. -/
theorem le_of_head {l : List M} {m : M} {rest : List M} (h : running key time l = m :: rest) :
    ∀ r ∈ m :: rest, key m ≤ key r ∧ time r ≤ time m := by
  induction l with
  | nil => cases h
  | cons q earlier ih =>
    by_cases hq : ∀ r ∈ running key time earlier, key q ≤ key r ∧ time r ≤ time q
    · rw [running_cons_of hq] at h
      obtain ⟨rfl, rfl⟩ := List.cons.inj h
      intro r hr
      rcases List.mem_cons.mp hr with rfl | hr
      · exact ⟨le_rfl, le_rfl⟩
      · exact hq r hr
    · rw [running_cons_of_not hq] at h
      exact ih h

/-- The comparison with the last element in the running is that with all of them. -/
theorem forall_running_iff {l : List M} {m : M} {rest : List M}
    (h : running key time l = m :: rest) (q : M) :
    (∀ r ∈ running key time l, key q ≤ key r ∧ time r ≤ time q) ↔
      key q ≤ key m ∧ time m ≤ time q := by
  rw [h]
  constructor
  · intro hall
    exact hall m List.mem_cons_self
  · rintro ⟨hkey, htime⟩ r hr
    obtain ⟨hkey', htime'⟩ := le_of_head h r hr
    exact ⟨hkey.trans hkey', htime'.trans htime⟩

/-- What is in the running stays there. -/
theorem mem_running_append (later : List M) {l : List M} {r : M} (h : r ∈ running key time l) :
    r ∈ running key time (later ++ l) := by
  induction later with
  | nil => exact h
  | cons q later ih =>
    rw [List.cons_append]
    by_cases hq : ∀ r ∈ running key time (later ++ l), key q ≤ key r ∧ time r ≤ time q
    · rw [running_cons_of hq]
      exact List.mem_cons_of_mem q ih
    · rw [running_cons_of_not hq]
      exact ih

theorem mem_of_mem_running {l : List M} {r : M} (h : r ∈ running key time l) : r ∈ l := by
  induction l with
  | nil => cases h
  | cons q earlier ih =>
    by_cases hq : ∀ r ∈ running key time earlier, key q ≤ key r ∧ time r ≤ time q
    · rw [running_cons_of hq] at h
      rcases List.mem_cons.mp h with rfl | h
      · exact List.mem_cons_self
      · exact List.mem_cons_of_mem q (ih h)
    · rw [running_cons_of_not hq] at h
      exact List.mem_cons_of_mem q (ih h)

variable (key time) in
/-- The first element of a stream is in the running. -/
theorem running_ne_nil {l : List M} (h : l ≠ []) : running key time l ≠ [] := by
  induction l with
  | nil => exact absurd rfl h
  | cons q earlier ih =>
    by_cases hq : ∀ r ∈ running key time earlier, key q ≤ key r ∧ time r ≤ time q
    · rw [running_cons_of hq]
      exact List.cons_ne_nil _ _
    · rw [running_cons_of_not hq]
      refine ih fun hnil => hq ?_
      rw [hnil]
      exact List.forall_mem_nil _

theorem Preferred.time_le_of_mem {before : List M} {p : M} {after : List M}
    (hp : Preferred key time before p after) {q : M} (hq : q ∈ before ++ p :: after)
    (hkey : key q = key p) : time q ≤ time p := by
  rw [List.mem_append, List.mem_cons] at hq
  rcases hq with hq | rfl | hq
  · exact hp.time_le q hq hkey
  · exact le_rfl
  · exact (hp.time_lt q hq hkey).le

/-- The key and the time that are looked for are determined. -/
theorem Preferred.eq_of_eq {before : List M} {p : M} {after : List M}
    (hp : Preferred key time before p after) {before' : List M} {p' : M} {after' : List M}
    (hp' : Preferred key time before' p' after')
    (h : before ++ p :: after = before' ++ p' :: after') : key p = key p' ∧ time p = time p' := by
  have hmem : p ∈ before' ++ p' :: after' := by
    rw [← h]
    exact List.mem_append_right _ List.mem_cons_self
  have hmem' : p' ∈ before ++ p :: after := by
    rw [h]
    exact List.mem_append_right _ List.mem_cons_self
  have hkey : key p = key p' := (hp.key_le p' hmem').antisymm (hp'.key_le p hmem)
  refine ⟨hkey, ?_⟩
  exact (hp'.time_le_of_mem hmem hkey).antisymm (hp.time_le_of_mem hmem' hkey.symm)

variable (key time) in
/-- **There is an element that is looked for.** -/
theorem exists_preferred {l : List M} (h : l ≠ []) :
    ∃ before p after, l = before ++ p :: after ∧ Preferred key time before p after := by
  induction l using List.reverseRecOn with
  | nil => exact absurd rfl h
  | append_singleton l m ih =>
    by_cases hnil : l = []
    · subst hnil
      refine ⟨[], m, [], rfl, ?_, List.forall_mem_nil _, List.forall_mem_nil _⟩
      rintro q hq
      rw [List.nil_append, List.mem_singleton] at hq
      rw [hq]
    · obtain ⟨before, p, after, hsplit, hp⟩ := ih hnil
      by_cases hbetter : key m < key p ∨ (key m = key p ∧ time p ≤ time m)
      · -- the new element is preferred to the one before
        have hle : key m ≤ key p := by
          rcases hbetter with hlt | ⟨heq, -⟩
          · exact hlt.le
          · exact heq.le
        refine ⟨l, m, [], rfl, ?_, ?_, List.forall_mem_nil _⟩
        · intro q hq
          rcases List.mem_append.mp hq with hq | hq
          · exact hle.trans (hp.key_le q (hsplit ▸ hq))
          · rw [List.mem_singleton.mp hq]
        · intro q hq hkey
          have hpq : key p ≤ key q := hp.key_le q (hsplit ▸ hq)
          rcases hbetter with hlt | ⟨heq, htime⟩
          · exact absurd hkey (hlt.trans_le hpq).ne'
          · have hkey' : key q = key p := hkey.trans heq
            exact (hp.time_le_of_mem (hsplit ▸ hq) hkey').trans htime
      · rw [not_or, not_and, not_lt, not_le] at hbetter
        refine ⟨before, p, after ++ [m], ?_, ?_, hp.time_le, ?_⟩
        · rw [hsplit, List.append_assoc, List.cons_append]
        · intro q hq
          rw [← List.cons_append, ← List.append_assoc, ← hsplit] at hq
          rcases List.mem_append.mp hq with hq | hq
          · exact hp.key_le q (hsplit ▸ hq)
          · rw [List.mem_singleton.mp hq]
            exact hbetter.1
        · intro q hq hkey
          rcases List.mem_append.mp hq with hq | hq
          · exact hp.time_lt q hq hkey
          · rw [List.mem_singleton.mp hq] at hkey ⊢
            exact hbetter.2 hkey

/-- **The element is found**, if nothing with a later time is in the running before it. -/
theorem running_of_preferred {before : List M} {p : M} {after : List M}
    (hp : Preferred key time before p after)
    (h : ∀ r ∈ running key time before.reverse, time r ≤ time p) :
    running key time (before ++ p :: after).reverse = p :: running key time before.reverse := by
  have hfound : running key time (p :: before.reverse) = p :: running key time before.reverse := by
    refine running_cons_of fun r hr => ⟨hp.key_le r ?_, h r hr⟩
    exact List.mem_append_left _ (List.mem_reverse.mp (mem_of_mem_running hr))
  -- nothing that comes later is preferred to it
  have hstays : ∀ later : List M, (∀ q ∈ later, q ∈ after) →
      running key time (later ++ p :: before.reverse) = p :: running key time before.reverse := by
    intro later hlater
    induction later with
    | nil => exact hfound
    | cons q later ih =>
      obtain ⟨hq, hlater⟩ := List.forall_mem_cons.mp hlater
      have hlater' := ih hlater
      rw [List.cons_append, running_cons_of_not, hlater']
      rw [forall_running_iff hlater']
      rintro ⟨hkey, htime⟩
      have hle : key p ≤ key q :=
        hp.key_le q (List.mem_append_right _ (List.mem_cons_of_mem p hq))
      exact absurd htime (not_le.mpr (hp.time_lt q hq (hkey.antisymm hle)))
  have hreverse : (before ++ p :: after).reverse = after.reverse ++ p :: before.reverse := by
    rw [List.reverse_append, List.reverse_cons, List.append_assoc, List.singleton_append]
  rw [hreverse]
  exact hstays after.reverse fun q hq => List.mem_reverse.mp hq

/-- The times of what is in the running are not later than that of what is found in the end. -/
theorem time_le_of_head {before later : List M} {m : M} {rest : List M}
    (h : running key time (before ++ later).reverse = m :: rest) :
    ∀ r ∈ running key time before.reverse, time r ≤ time m := by
  intro r hr
  rw [List.reverse_append] at h
  have hmem := mem_running_append later.reverse hr
  rw [h] at hmem
  exact (le_of_head h r hmem).2

end StreamSelection

end Visr
