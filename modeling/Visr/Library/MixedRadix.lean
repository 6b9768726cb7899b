import Visr.Library.Dft

/-!
# Fast transforms of mixed radix

A transform of size `p * m` consists of `p` transforms of size `m`, whose results are combined
column by column: the elements at distance `m` belong together.

## Main definitions

* `MixedRadix.combine ω m p F` — the elements of the large transform that are computed from one
  column of the small ones.
* `MixedRadix.Columns` — an update that maps each column of an array to a new one, and leaves the
  other elements alone.

## Main results

* `dft_eq_combine` — **decimation in time**.
* `columns_foldl`, `blocks_foldl` — loops whose iterations update one column or one block each.
* `combine_mod` — the columns of a root of unity.
-/

namespace MixedRadix

open Finset Dft

section Ring

variable {R : Type*} [CommRing R]

/-- Element `u + q * m` of a transform, from element `u` of the transforms of the decimated
signals. -/
def combine (ω : R) (m p : ℕ) (F : ℕ → R) (u q : ℕ) : R :=
  ∑ r ∈ range p, F r * ω ^ (r * (u + q * m))

theorem combine_congr (ω : R) (m : ℕ) {p : ℕ} {F G : ℕ → R} (h : ∀ r < p, F r = G r)
    (u q : ℕ) : combine ω m p F u q = combine ω m p G u q := by
  apply Finset.sum_congr rfl
  intro r hr
  rw [h r (mem_range.mp hr)]

/-- **Decimation in time.** -/
theorem dft_eq_combine {ω : R} {p m : ℕ} (hω : ω ^ (p * m) = 1) (x : ℕ → R) (u q : ℕ) :
    dft ω (p * m) x (u + q * m) =
      combine ω m p (fun r => dft (ω ^ p) m (fun n => x (n * p + r)) u) u q := by
  have hterm : ∀ n r, x (n * p + r) * ω ^ ((n * p + r) * (u + q * m)) =
      x (n * p + r) * (ω ^ p) ^ (n * u) * ω ^ (r * (u + q * m)) := by
    intro n r
    have hexp : (n * p + r) * (u + q * m) =
        p * (n * u) + r * (u + q * m) + p * m * (n * q) := by ring
    rw [hexp, pow_add, pow_mul ω (p * m), hω, one_pow, mul_one, pow_add, pow_mul, mul_assoc]
  calc dft ω (p * m) x (u + q * m)
      = ∑ n ∈ range m, ∑ r ∈ range p, x (n * p + r) * ω ^ ((n * p + r) * (u + q * m)) := by
        rw [sum_range_mul m p fun k => x k * ω ^ (k * (u + q * m)), Nat.mul_comm m p]
        rfl
    _ = ∑ r ∈ range p, ∑ n ∈ range m,
          x (n * p + r) * (ω ^ p) ^ (n * u) * ω ^ (r * (u + q * m)) := by
        rw [Finset.sum_comm]
        simp only [hterm]
    _ = combine ω m p (fun r => dft (ω ^ p) m (fun n => x (n * p + r)) u) u q := by
        simp only [combine, dft, Finset.sum_mul]

/-- The rotation of an element by the twiddle factor of its column. -/
def twisted (ω : R) (F : ℕ → R) (u r : ℕ) : R := F r * ω ^ (r * u)

/-- A column is a small transform of the elements, rotated by the twiddle factors. -/
theorem combine_eq (ω : R) (m p : ℕ) (F : ℕ → R) (u q : ℕ) :
    combine ω m p F u q = dft (ω ^ m) p (twisted ω F u) q := by
  apply Finset.sum_congr rfl
  intro r _
  rw [twisted, mul_assoc, ← pow_mul, ← pow_add]
  congr 2
  ring

/-- The columns of a root of unity need its first powers only. -/
theorem combine_mod {ω : R} {m p : ℕ} (hω : (ω ^ m) ^ p = 1) (F : ℕ → R) (u q : ℕ) :
    combine ω m p F u q = ∑ r ∈ range p, twisted ω F u r * (ω ^ m) ^ (r * q % p) := by
  rw [combine_eq]
  apply Finset.sum_congr rfl
  intro r _
  rw [← pow_eq_pow_mod _ hω]

end Ring

/-! ### Loops over the columns -/

section Loop

variable {α : Type*} {m p offset : ℕ}

/-- The elements that start at an offset are mapped column by column. -/
structure Columns (m p offset : ℕ) (K : ℕ → (ℕ → α) → ℕ → α) (a b : ℕ → α) : Prop where
  column : ∀ u < m, ∀ q < p,
    b (offset + u + q * m) = K u (fun r => a (offset + u + r * m)) q
  other : ∀ j, j < offset ∨ offset + p * m ≤ j → b j = a j

/-- The position of an element determines its column. -/
theorem column_unique {u u' q q' : ℕ} (hu : u < m) (hu' : u' < m)
    (h : offset + u + q * m = offset + u' + q' * m) : u = u' ∧ q = q' := by
  have hsum : u + q * m = u' + q' * m := by omega
  have hmod := congrArg (· % m) hsum
  have hdiv := congrArg (· / m) hsum
  simp only [Nat.add_mul_mod_self_right, Nat.mod_eq_of_lt hu, Nat.mod_eq_of_lt hu'] at hmod
  simp only [Nat.add_mul_div_right _ _ (Nat.zero_lt_of_lt hu), Nat.div_eq_of_lt hu,
    Nat.div_eq_of_lt hu'] at hdiv
  exact ⟨hmod, by omega⟩

/-- An update of one column. -/
def UpdatesColumn (m p offset : ℕ) (K : ℕ → (ℕ → α) → ℕ → α) (u : ℕ) (a b : ℕ → α) : Prop :=
  (∀ q < p, b (offset + u + q * m) = K u (fun r => a (offset + u + r * m)) q) ∧
    ∀ j, (∀ q < p, j ≠ offset + u + q * m) → b j = a j

/-- **A loop over the columns** of an array that is a part of the state. -/
theorem columns_foldl {σ : Type*} {view : σ → ℕ → α} {K : ℕ → (ℕ → α) → ℕ → α}
    {body : σ → ℕ → σ}
    (h : ∀ s, ∀ u < m, UpdatesColumn m p offset K u (view s) (view (body s u))) (s : σ) :
    Columns m p offset K (view s) (view ((List.range m).foldl body s)) := by
  have hrun : ∀ n ≤ m,
      (∀ u < n, ∀ q < p, view ((List.range n).foldl body s) (offset + u + q * m) =
        K u (fun r => view s (offset + u + r * m)) q) ∧
      ∀ j, (∀ u < n, ∀ q < p, j ≠ offset + u + q * m) →
        view ((List.range n).foldl body s) j = view s j := by
    intro n hn
    induction n with
    | zero => exact ⟨fun u hu => absurd hu (Nat.not_lt_zero u), fun _ _ => rfl⟩
    | succ n ih =>
      obtain ⟨hdone, hother⟩ := ih (by omega)
      obtain ⟨hnew, hrest⟩ := h ((List.range n).foldl body s) n (by omega)
      have hcolumn : (fun r => view ((List.range n).foldl body s) (offset + n + r * m)) =
          fun r => view s (offset + n + r * m) := by
        funext r
        refine hother _ fun u hu q _ heq => ?_
        have := (column_unique (by omega) (by omega) heq).1
        omega
      rw [List.range_succ, List.foldl_append, List.foldl_cons, List.foldl_nil]
      refine ⟨fun u hu q hq => ?_, fun j hj => ?_⟩
      · rcases Nat.lt_succ_iff_lt_or_eq.mp hu with hlt | rfl
        · rw [hrest _ fun q' _ heq => ?_]
          · exact hdone u hlt q hq
          · have := (column_unique (by omega) (by omega) heq).1
            omega
        · rw [hnew q hq, hcolumn]
      · rw [hrest j (hj n (Nat.lt_succ_self n))]
        exact hother j fun u hu => hj u (by omega)
  obtain ⟨hdone, hother⟩ := hrun m (Nat.le_refl m)
  refine ⟨hdone, fun j hj => hother j fun u hu q hq heq => ?_⟩
  have hle : q * m + m ≤ p * m := by
    rw [← Nat.succ_mul]
    exact Nat.mul_le_mul_right m hq
  omega

/-- **A loop over the blocks** of an array, each of which is written by one iteration. -/
theorem blocks_foldl {σ : Type*} {view : σ → ℕ → α} {value : ℕ → ℕ → α} {body : σ → ℕ → σ}
    (h : ∀ s, ∀ q < p, (∀ u < m, view (body s q) (offset + q * m + u) = value q u) ∧
      ∀ j, j < offset + q * m ∨ offset + q * m + m ≤ j → view (body s q) j = view s j) (s : σ) :
    (∀ q < p, ∀ u < m,
      view ((List.range p).foldl body s) (offset + q * m + u) = value q u) ∧
      ∀ j, j < offset ∨ offset + p * m ≤ j →
        view ((List.range p).foldl body s) j = view s j := by
  have hrun : ∀ n ≤ p,
      (∀ q < n, ∀ u < m, view ((List.range n).foldl body s) (offset + q * m + u) = value q u) ∧
      ∀ j, j < offset ∨ offset + n * m ≤ j →
        view ((List.range n).foldl body s) j = view s j := by
    intro n hn
    induction n with
    | zero => exact ⟨fun q hq => absurd hq (Nat.not_lt_zero q), fun _ _ => rfl⟩
    | succ n ih =>
      obtain ⟨hdone, hother⟩ := ih (by omega)
      obtain ⟨hnew, hrest⟩ := h ((List.range n).foldl body s) n (by omega)
      rw [List.range_succ, List.foldl_append, List.foldl_cons, List.foldl_nil]
      refine ⟨fun q hq u hu => ?_, fun j hj => ?_⟩
      · rcases Nat.lt_succ_iff_lt_or_eq.mp hq with hlt | rfl
        · have hle : q * m + m ≤ n * m := by
            rw [← Nat.succ_mul]
            exact Nat.mul_le_mul_right m hlt
          rw [hrest _ (.inl (by omega))]
          exact hdone q hlt u hu
        · exact hnew u hu
      · rw [Nat.succ_mul] at hj
        rw [hrest j (by omega)]
        exact hother j (by omega)
  exact hrun p (Nat.le_refl p)

/-- **A loop whose iterations all write the final values**, some of them more than once. -/
theorem targets_foldl {σ ι : Type*} {view : σ → ι → α} {body : σ → ℕ → σ} {target : ι → α}
    {touched : ℕ → ι → Prop} {n : ℕ}
    (h : ∀ s, ∀ j < n, ∀ i, (touched j i → view (body s j) i = target i) ∧
      (¬ touched j i → view (body s j) i = view s i)) (s : σ) (i : ι) :
    ((∃ j < n, touched j i) → view ((List.range n).foldl body s) i = target i) ∧
      ((∀ j < n, ¬ touched j i) → view ((List.range n).foldl body s) i = view s i) := by
  induction n with
  | zero => exact ⟨fun ⟨j, hj, _⟩ => absurd hj (Nat.not_lt_zero j), fun _ => rfl⟩
  | succ n ih =>
    obtain ⟨hdone, hother⟩ := ih fun s j hj => h s j (by omega)
    obtain ⟨hnew, hrest⟩ := h ((List.range n).foldl body s) n (Nat.lt_succ_self n) i
    rw [List.range_succ, List.foldl_append, List.foldl_cons, List.foldl_nil]
    refine ⟨fun ⟨j, hj, htouched⟩ => ?_, fun hnone => ?_⟩
    · by_cases hn : touched n i
      · exact hnew hn
      · have hlt : j < n := by
          refine Nat.lt_of_le_of_ne (by omega) fun heq => hn ?_
          rwa [heq] at htouched
        rw [hrest hn]
        exact hdone ⟨j, hlt, htouched⟩
    · rw [hrest (hnone n (Nat.lt_succ_self n))]
      exact hother fun j hj => hnone j (by omega)

end Loop

end MixedRadix
