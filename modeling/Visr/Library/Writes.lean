import Mathlib.Logic.Function.Basic
import Visr.Libefl.Basic

/-!
# Writes to memory

A list of writes leaves in each cell of a memory what the last of them has written there.

## Main definitions

* `applyWrites` — the memory after some writes.

## Main results

* `applyWrites_eq` — **the last write counts**.
* `applyWrites_of_find?` — the last write that concerns a cell.
* `foldl_eq_applyWrites` — a loop whose iterations are seen as writes.
* `foldlM_ok_iff` — a loop that may fail, and whose iterations are known.
* `foldlM_inv`, `foldlM_ne_error` — invariants of loops that may fail.
* `foldlM_writes` — a loop whose iterations change one cell each.
* `foldlM_fresh` — a loop whose iterations only write to cells that are free.
-/

namespace Visr

variable {α ε C M V W : Type}

/-- The memory after some writes, where `value w c` is what `w` writes to the cell `c`. -/
def applyWrites (value : W → C → Option V) (ws : List W) (m : C → V) : C → V :=
  ws.foldl (fun m w c => (value w c).getD (m c)) m

section Writes

variable (value : W → C → Option V)

@[simp] theorem applyWrites_nil (m : C → V) : applyWrites value [] m = m := rfl

@[simp] theorem applyWrites_cons (w : W) (ws : List W) (m : C → V) :
    applyWrites value (w :: ws) m =
      applyWrites value ws fun c => (value w c).getD (m c) := rfl

theorem applyWrites_append (ws ws' : List W) (m : C → V) :
    applyWrites value (ws ++ ws') m = applyWrites value ws' (applyWrites value ws m) :=
  List.foldl_append

/-- The loop over the elements of a list, each of which brings some writes. -/
theorem foldl_applyWrites (writes : α → List W) (l : List α) (m : C → V) :
    l.foldl (fun m a => applyWrites value (writes a) m) m =
      applyWrites value (l.flatMap writes) m := by
  induction l generalizing m with
  | nil => rfl
  | cons a l ih =>
    rw [List.foldl_cons, ih, List.flatMap_cons, applyWrites_append]

/-- A loop whose iterations are seen as writes. -/
theorem foldl_eq_applyWrites (view : M → C → V) {run : M → W → M}
    (h : ∀ m w c, view (run m w) c = (value w c).getD (view m c)) (ws : List W) (m : M) :
    view (ws.foldl run m) = applyWrites value ws (view m) := by
  induction ws generalizing m with
  | nil => rfl
  | cons w ws ih =>
    rw [List.foldl_cons, ih, applyWrites_cons]
    congr 1
    funext c
    exact h m w c

/-- **The last write counts.** -/
theorem applyWrites_eq (ws : List W) (m : C → V) (c : C) :
    applyWrites value ws m c = (ws.reverse.findSome? fun w => value w c).getD (m c) := by
  induction ws generalizing m with
  | nil => rfl
  | cons w ws ih =>
    rw [applyWrites_cons, ih, List.reverse_cons, List.findSome?_append]
    cases ws.reverse.findSome? fun w => value w c with
    | some v => rfl
    | none =>
      rw [Option.none_or, List.findSome?_singleton]
      rfl

section LastWrite

variable {value} {p : W → Bool} {ws : List W} {c : C}

/-- The value of a cell is that of the last write that concerns it. -/
theorem applyWrites_of_find? (hothers : ∀ w, p w = false → value w c = none) {w : W}
    (h : ws.reverse.find? p = some w) {v : V} (hv : value w c = some v) (m : C → V) :
    applyWrites value ws m c = v := by
  rw [applyWrites_eq]
  generalize ws.reverse = later at h ⊢
  induction later with
  | nil => cases h
  | cons w' later ih =>
    rw [List.find?_cons] at h
    rw [List.findSome?_cons]
    cases hp : p w' with
    | true =>
      rw [hp] at h
      cases h
      rw [hv]
      rfl
    | false =>
      rw [hp] at h
      rw [hothers w' hp]
      exact ih h

/-- A cell that no write concerns. -/
theorem applyWrites_of_find?_none (hothers : ∀ w, p w = false → value w c = none)
    (h : ws.reverse.find? p = none) (m : C → V) : applyWrites value ws m c = m c := by
  have hnone : ws.reverse.findSome? (fun w => value w c) = none := by
    refine List.findSome?_eq_none_iff.mpr fun w hw => hothers w ?_
    simpa using List.find?_eq_none.mp h w hw
  rw [applyWrites_eq, hnone]
  rfl

end LastWrite

end Writes

/-- **A loop that may fail** succeeds if all iterations do. -/
theorem foldlM_ok_iff {step : M → α → Except ε M} {P : α → Prop} {run : M → α → M}
    (h : ∀ m a m', step m a = .ok m' ↔ P a ∧ run m a = m') (l : List α) (m m' : M) :
    l.foldlM step m = .ok m' ↔ (∀ a ∈ l, P a) ∧ l.foldl run m = m' := by
  induction l generalizing m with
  | nil =>
    rw [List.foldlM_nil, List.foldl_nil]
    exact ⟨fun hok => ⟨List.forall_mem_nil P, Except.ok.inj hok⟩,
      fun heq => congrArg Except.ok heq.2⟩
  | cons a l ih =>
    rw [List.foldlM_cons, List.foldl_cons, List.forall_mem_cons]
    constructor
    · intro hok
      obtain ⟨m1, hstep, hrest⟩ := exists_of_bind_ok hok
      obtain ⟨ha, rfl⟩ := (h m a m1).mp hstep
      obtain ⟨hall, heq⟩ := (ih _).mp hrest
      exact ⟨⟨ha, hall⟩, heq⟩
    · rintro ⟨⟨ha, hall⟩, heq⟩
      rw [(h m a (run m a)).mpr ⟨ha, rfl⟩]
      exact (ih _).mpr ⟨hall, heq⟩

section Loops

variable {step : M → α → Except ε M} {I : M → Prop} {v : M → C → V} {k : α → C}

/-- **The invariant of a loop** that may fail. -/
theorem foldlM_inv {l : List α} (hstep : ∀ a ∈ l, ∀ m m', I m → step m a = .ok m' → I m')
    {m m' : M} (hm : I m) (h : l.foldlM step m = .ok m') : I m' := by
  induction l generalizing m with
  | nil =>
    cases h
    exact hm
  | cons a l ih =>
    rw [List.foldlM_cons] at h
    obtain ⟨m₁, hfirst, hrest⟩ := exists_of_bind_ok h
    exact ih (fun b hb => hstep b (List.mem_cons_of_mem a hb))
      (hstep a List.mem_cons_self m m₁ hm hfirst) hrest

/-- A loop does not fail in a certain way if none of its iterations does. -/
theorem foldlM_ne_error {e : ε} {l : List α}
    (hstep : ∀ a ∈ l, ∀ m, I m → step m a ≠ .error e ∧ ∀ m', step m a = .ok m' → I m')
    {m : M} (hm : I m) : l.foldlM step m ≠ .error e := by
  induction l generalizing m with
  | nil =>
    intro h
    cases h
  | cons a l ih =>
    obtain ⟨hne, hnext⟩ := hstep a List.mem_cons_self m hm
    rw [List.foldlM_cons]
    cases hfirst : step m a with
    | error e' =>
      intro heq
      rw [hfirst] at hne
      exact hne (congrArg Except.error (Except.error.inj heq))
    | ok m₁ => exact ih (fun b hb => hstep b (List.mem_cons_of_mem a hb)) (hnext m₁ hfirst)

/-- **A loop whose iterations change one cell each.**  The cells of different iterations are
changed once, and all others not at all. -/
theorem foldlM_writes {R : α → V → V → Prop} {l : List α}
    (hstep : ∀ a ∈ l, ∀ m m', I m → step m a = .ok m' →
      I m' ∧ R a (v m (k a)) (v m' (k a)) ∧ ∀ c, c ≠ k a → v m' c = v m c)
    {m m' : M} (hm : I m) (h : l.foldlM step m = .ok m') :
    I m' ∧ ((l.map k).Nodup → ∀ a ∈ l, R a (v m (k a)) (v m' (k a))) ∧
      ∀ c, c ∉ l.map k → v m' c = v m c := by
  induction l generalizing m with
  | nil =>
    cases h
    exact ⟨hm, fun _ => List.forall_mem_nil _, fun _ _ => rfl⟩
  | cons a l ih =>
    rw [List.foldlM_cons] at h
    obtain ⟨m₁, hfirst, hrest⟩ := exists_of_bind_ok h
    obtain ⟨hm₁, ha, hothers⟩ := hstep a List.mem_cons_self m m₁ hm hfirst
    obtain ⟨hm', hcells, hkept⟩ :=
      ih (fun b hb => hstep b (List.mem_cons_of_mem a hb)) hm₁ hrest
    -- the cell of the first iteration is none of the others
    refine ⟨hm', fun hnodup => ?_, fun c hc => ?_⟩
    · rw [List.map_cons, List.nodup_cons] at hnodup
      refine List.forall_mem_cons.mpr ⟨?_, fun b hb => ?_⟩
      · rw [hkept (k a) hnodup.1]
        exact ha
      · have hne : k b ≠ k a := fun heq =>
          hnodup.1 (heq ▸ List.mem_map_of_mem hb)
        have hb' := hcells hnodup.2 b hb
        rwa [hothers (k b) hne] at hb'
    · rw [List.map_cons, List.mem_cons, not_or] at hc
      rw [hkept c hc.2, hothers c hc.1]

/-- **A loop whose iterations only write to cells that are free** never writes to a cell twice. -/
theorem foldlM_fresh {p : V → Prop} {l : List α}
    (hstep : ∀ a ∈ l, ∀ m m', I m → step m a = .ok m' →
      I m' ∧ p (v m (k a)) ∧ ¬p (v m' (k a)) ∧
        ∀ c, c ≠ k a → v m' c = v m c)
    {m m' : M} (hm : I m) (h : l.foldlM step m = .ok m') :
    (l.map k).Nodup ∧ ∀ a ∈ l, p (v m (k a)) := by
  induction l generalizing m with
  | nil => exact ⟨List.nodup_nil, List.forall_mem_nil _⟩
  | cons a l ih =>
    rw [List.foldlM_cons] at h
    obtain ⟨m₁, hfirst, hrest⟩ := exists_of_bind_ok h
    obtain ⟨hm₁, hfree, hused, hothers⟩ := hstep a List.mem_cons_self m m₁ hm hfirst
    obtain ⟨hnodup, hall⟩ := ih (fun b hb => hstep b (List.mem_cons_of_mem a hb)) hm₁ hrest
    have hne : ∀ b ∈ l, k b ≠ k a := by
      intro b hb heq
      have hb' := hall b hb
      rw [heq] at hb'
      exact hused hb'
    refine ⟨?_, List.forall_mem_cons.mpr ⟨hfree, fun b hb => ?_⟩⟩
    · rw [List.map_cons, List.nodup_cons]
      refine ⟨fun hmem => ?_, hnodup⟩
      obtain ⟨b, hb, heq⟩ := List.mem_map.mp hmem
      exact hne b hb heq
    · rw [← hothers (k b) (hne b hb)]
      exact hall b hb

end Loops

end Visr
