import Mathlib.Algebra.Order.Field.Basic
import Mathlib.Data.Nat.Cast.Order.Field
import Mathlib.Tactic.FieldSimp
import Mathlib.Tactic.Linarith
import Mathlib.Tactic.Ring

/-!
# Crossfades

A crossfade leads from a source to a target within a number of samples.  It proceeds in
blocks, and may be given a new target at any time.

## Main definitions

* `weight T n` — the weight of the target in sample `n` of a transition of `T` samples.
* `Fade` — source, target and the number of blocks since the start.
* `Fade.mix` — a quantity in the middle of the transition.
* `Fade.push`, `Fade.redirect` — two ways to give a crossfade a new target: what was the
  target so far becomes the source, or does so only if a new transition is started.
* `Fade.Settled` — only the target matters from here on.
* `Fade.Alike` — two crossfades that cannot be told apart.

## Main results

* `Fade.Alike.push_redirect` — the two ways agree on all but running transitions.
* `Fade.mix_of_settled` — a transition comes to its end.
-/

namespace Crossfade

section Weight

variable {K : Type*} [Field K]

/-- The weight of the target in sample `n` of a transition of `T` samples. -/
def weight (K : Type*) [Field K] (T n : ℕ) : K := if n < T then ((n + 1 : ℕ) : K) / T else 1

theorem weight_of_le {T n : ℕ} (h : T ≤ n) : weight K T n = 1 := if_neg (Nat.not_lt.mpr h)

/-- The last sample of the transition has reached the target. -/
theorem weight_eq_one [CharZero K] {T n : ℕ} (h : T ≤ n + 1) : weight K T n = 1 := by
  unfold weight
  split
  next hlt =>
    obtain rfl : T = n + 1 := by omega
    exact div_self (Nat.cast_ne_zero.mpr (Nat.succ_ne_zero n))
  · rfl

theorem weight_nonneg [LinearOrder K] [IsStrictOrderedRing K] (T n : ℕ) : 0 ≤ weight K T n := by
  unfold weight
  split
  · exact div_nonneg (Nat.cast_nonneg _) (Nat.cast_nonneg _)
  · exact zero_le_one

theorem weight_le_one [LinearOrder K] [IsStrictOrderedRing K] (T n : ℕ) : weight K T n ≤ 1 := by
  unfold weight
  split
  next hlt =>
    have hle : ((n + 1 : ℕ) : K) ≤ T := Nat.cast_le.mpr hlt
    exact div_le_one_of_le₀ hle (Nat.cast_nonneg T)
  · exact le_refl 1

end Weight

/-- A crossfade; the position counts blocks. -/
structure Fade (φ : Type*) where
  source : φ
  target : φ
  position : ℕ

namespace Fade

variable {φ : Type*}

/-- Everything has been the same for ever. -/
def constant (value : φ) (last : ℕ) : Fade φ := ⟨value, value, last⟩

/-- A new target, with the present target as the source. -/
def push (f : Fade φ) (target : φ) (restart : Bool) : Fade φ where
  source := f.target
  target := target
  position := if restart then 0 else f.position

/-- A new target, towards which a running transition continues unless it is restarted. -/
def redirect (f : Fade φ) (target : φ) (restart : Bool) : Fade φ where
  source := if restart then f.target else f.source
  target := target
  position := if restart then 0 else f.position

/-- One block further, up to the last one. -/
def advance (f : Fade φ) (last : ℕ) : Fade φ := { f with position := min (f.position + 1) last }

/-- Both ends of the transition are subject to a function. -/
def map {ψ : Type*} (g : φ → ψ) (f : Fade φ) : Fade ψ := ⟨g f.source, g f.target, f.position⟩

/-- Only the target matters from the present block on. -/
def Settled (T B : ℕ) (f : Fade φ) : Prop := T ≤ f.position * B + 1

instance (T B : ℕ) (f : Fade φ) : Decidable (f.Settled T B) := inferInstanceAs (Decidable (_ ≤ _))

variable {K : Type*} [Field K]

/-- A quantity in sample `s` of the present block. -/
def mix (T B : ℕ) (f : Fade φ) (value : φ → K) (s : ℕ) : K :=
  (1 - weight K T (f.position * B + s)) * value f.source +
    weight K T (f.position * B + s) * value f.target

theorem mix_of_settled [CharZero K] {T B : ℕ} {f : Fade φ} (h : f.Settled T B) (value : φ → K)
    (s : ℕ) : f.mix T B value s = value f.target := by
  have hle : T ≤ f.position * B + s + 1 := by
    unfold Settled at h
    omega
  rw [mix, weight_eq_one hle, sub_self, zero_mul, one_mul, zero_add]

/-- A transition between equal quantities goes unnoticed. -/
theorem mix_of_eq {T B : ℕ} {f : Fade φ} {value : φ → K} (h : value f.source = value f.target)
    (s : ℕ) : f.mix T B value s = value f.target := by
  rw [mix, h]
  ring

theorem settled_advance {T B last : ℕ} {f : Fade φ} (hlast : T ≤ last * B + 1)
    (h : f.Settled T B) : (f.advance last).Settled T B := by
  show T ≤ min (f.position + 1) last * B + 1
  rcases Nat.le_total (f.position + 1) last with hle | hle
  · have hsucc : (f.position + 1) * B = f.position * B + B := Nat.succ_mul _ _
    rw [Nat.min_eq_left hle, hsucc]
    unfold Settled at h
    omega
  · rw [Nat.min_eq_right hle]
    exact hlast

/-! ### Crossfades that cannot be told apart -/

/-- Two crossfades to the same target, which differ in the source at most if it has no
influence any more. -/
structure Alike (T B : ℕ) (f g : Fade φ) : Prop where
  target : f.target = g.target
  position : f.position = g.position
  source : g.Settled T B ∨ f.source = g.source

theorem Alike.refl (T B : ℕ) (f : Fade φ) : Alike T B f f := ⟨rfl, rfl, Or.inr rfl⟩

theorem Alike.mix [CharZero K] {T B : ℕ} {f g : Fade φ} (h : Alike T B f g) (value : φ → K)
    (s : ℕ) : f.mix T B value s = g.mix T B value s := by
  rcases h.source with hsettled | hsource
  · have hf : f.Settled T B := by
      unfold Settled
      rw [h.position]
      exact hsettled
    rw [mix_of_settled hf, mix_of_settled hsettled, h.target]
  · unfold Fade.mix
    rw [h.position, h.target, hsource]

theorem Alike.advance {T B last : ℕ} {f g : Fade φ} (hlast : T ≤ last * B + 1)
    (h : Alike T B f g) : Alike T B (f.advance last) (g.advance last) where
  target := h.target
  position := by
    show min (f.position + 1) last = min (g.position + 1) last
    rw [h.position]
  source := h.source.imp_left (settled_advance hlast)

/-- **New targets.**  The two ways to give a crossfade a new target agree if a transition is
started, or the present one has settled or leads from a value to itself. -/
theorem Alike.push_redirect {T B : ℕ} {f g : Fade φ} (h : Alike T B f g) (target : φ)
    {restart : Bool} (hcond : restart = false → g.Settled T B ∨ g.source = g.target) :
    Alike T B (f.push target restart) (g.redirect target restart) where
  target := rfl
  position := by
    show (if restart then 0 else f.position) = if restart then 0 else g.position
    rw [h.position]
  source := by
    cases restart with
    | true => exact Or.inr h.target
    | false =>
      rcases hcond rfl with hsettled | hsource
      · exact Or.inl hsettled
      · exact Or.inr (h.target.trans hsource.symm)

end Fade

end Crossfade
