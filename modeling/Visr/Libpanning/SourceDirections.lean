import Mathlib.Algebra.Order.Ring.Rat
import Mathlib.Data.Rat.Sqrt
import Mathlib.Tactic.NormNum
import Visr.Libpanning.VBAP

/-!
# The directions of panned sources

The gains of vector base amplitude panning reproduce the direction of the source.

## Main results

* `VBAP.tripletGains_solves` — the gains of a triplet solve the equations.
* `VBAP.reproduces_of_undistorted`, `VBAP.gains_reproduce` — **the source direction is
  reproduced**, and the gains of virtual loudspeakers are given to the regular ones.
-/

namespace Visr

open Vector3D

variable {K : Type} [Field K] [LinearOrder K] [IsStrictOrderedRing K]

namespace VBAP

/-- The loudspeakers of a triplet. -/
def speakers (s : VBAP K) (t : ℕ × ℕ × ℕ) : List ℕ :=
  if s.is2D then [t.1, t.2.1] else [t.1, t.2.1, t.2.2]

/-- The unit vectors from the listener to the loudspeakers of the triplets, which are not too
close to the listener. -/
structure Directions (s : VBAP K) (u : ℕ → Vector3D K) : Prop where
  unit : ∀ t ∈ s.triplets, ∀ l ∈ s.speakers t, (u l).dot (u l) = 1
  position : ∀ t ∈ s.triplets, ∀ l ∈ s.speakers t, ∃ r, 0 < r ∧
    (s.positions l).sub s.listenerPos = ⟨r * (u l).x, r * (u l).y, r * (u l).z⟩

/-- The third vector of a triplet is vertical in the 2D case. -/
def third (s : VBAP K) (u : ℕ → Vector3D K) (t : ℕ × ℕ × ℕ) : Vector3D K :=
  if s.is2D then up else u t.2.2

/-- The directions are linearly independent. -/
def Independent (s : VBAP K) (u : ℕ → Vector3D K) : Prop :=
  ∀ t ∈ s.triplets, Vector3D.det (u t.1) (u t.2.1) (s.third u t) ≠ 0

/-- The gains of a triplet. -/
def Solves (s : VBAP K) (u : ℕ → Vector3D K) (p : Vector3D K) (t : ℕ × ℕ × ℕ) (g : Vector3D K) :
    Prop :=
  combine (u t.1) (u t.2.1) (s.third u t) g = p

/-- The cone of a triplet contains the source. -/
def InCone (s : VBAP K) (u : ℕ → Vector3D K) (p : Vector3D K) (t : ℕ × ℕ × ℕ) : Prop :=
  ∃ g, s.Solves u p t g ∧ 0 ≤ g.x ∧ 0 ≤ g.y ∧ (s.is2D = true ∨ 0 ≤ g.z)

/-- The sum of the directions of the loudspeakers of a triplet, weighted by their gains, is the
position of the source, or its projection on the horizontal plane. -/
def SumsUp (s : VBAP K) (u : ℕ → Vector3D K) (p : Vector3D K) (t : ℕ × ℕ × ℕ) (gain : ℕ → K) :
    Prop :=
  ((s.speakers t).map fun l => gain l * (u l).x).sum = p.x ∧
    ((s.speakers t).map fun l => gain l * (u l).y).sum = p.y ∧
    (s.is2D = false → ((s.speakers t).map fun l => gain l * (u l).z).sum = p.z)

/-- What is expected: there is an exception if all triplets have two negative gains at least, and
otherwise the gains are those of one triplet. -/
def Reproduces (s : VBAP K) (u : ℕ → Vector3D K) (p : Vector3D K) :
    Except Exception (ℕ → K) → Prop
  | .error _ => ∀ t ∈ s.triplets, ∃ g, s.Solves u p t g ∧ 2 ≤ g.negatives
  | .ok gain => ∃ t ∈ s.triplets, (∀ l ∉ s.speakers t, gain l = 0) ∧ s.SumsUp u p t gain ∧
    ((∃ t' ∈ s.triplets, s.InCone u p t') → ∀ l, 0 ≤ gain l) ∧
    ((¬ ∃ t' ∈ s.triplets, s.InCone u p t') → ∃ g, s.Solves u p t g ∧ g.negatives ≤ 1 ∧
      ∀ t' ∈ s.triplets, ∀ g', s.Solves u p t' g' → g'.negatives ≤ 1 → g'.least ≤ g.least)

/-- The matrices are right in the 3D case.  In the 2D case, where the position of the listener
is subtracted from the third vector as well, this vector has to remain vertical, or the
loudspeakers have to be as high as the listener. -/
structure Undistorted (s : VBAP K) : Prop where
  distance : ∀ t ∈ s.triplets, ∀ l ∈ s.speakers t,
    epsilon K * epsilon K ≤ ((s.positions l).sub s.listenerPos).dot
      ((s.positions l).sub s.listenerPos)
  vertical : s.is2D = true →
    (s.listenerPos.x = 0 ∧ s.listenerPos.y = 0 ∧ epsilon K ≤ 1 - s.listenerPos.z) ∨
    (s.listenerPos.z ≠ 1 ∧
      ∀ t ∈ s.triplets, ∀ l ∈ s.speakers t, (s.positions l).z = s.listenerPos.z)

section Vectors

variable {sqrt : K → K} (hsqrt : ∀ r, 0 ≤ r → sqrt (r * r) = r)

include hsqrt

/-- A vector that is long enough is scaled to its direction. -/
theorem normalise_eq {d u : Vector3D K} (hunit : u.dot u = 1) {r : K} (hr : 0 < r)
    (hd : d = ⟨r * u.x, r * u.y, r * u.z⟩) (hlong : epsilon K ≤ r) : normalise sqrt d = u := by
  have hlength : d.x * d.x + d.y * d.y + d.z * d.z = r * r := by
    unfold dot at hunit
    rw [hd]
    linear_combination r * r * hunit
  unfold normalise
  rw [hlength, hsqrt r hr.le]
  dsimp only
  rw [if_pos hlong, hd]
  unfold scale
  ext
  · exact mul_div_cancel_left₀ _ hr.ne'
  · exact mul_div_cancel_left₀ _ hr.ne'
  · exact mul_div_cancel_left₀ _ hr.ne'

/-- The directions as the matrices are computed from them. -/
theorem normalise_direction {s : VBAP K} {u : ℕ → Vector3D K} (hu : s.Directions u)
    (h : s.Undistorted) {t : ℕ × ℕ × ℕ} (ht : t ∈ s.triplets) {l : ℕ} (hl : l ∈ s.speakers t) :
    normalise sqrt ((s.positions l).sub s.listenerPos) = u l := by
  obtain ⟨r, hr, hd⟩ := hu.position t ht l hl
  have hunit := hu.unit t ht l hl
  have hlength : ((s.positions l).sub s.listenerPos).dot ((s.positions l).sub s.listenerPos) =
      r * r := by
    unfold dot at hunit ⊢
    rw [hd]
    linear_combination r * r * hunit
  have hdistance := h.distance t ht l hl
  rw [hlength] at hdistance
  exact normalise_eq hsqrt hunit hr hd ((mul_self_le_mul_self_iff epsilon_pos.le hr.le).mpr hdistance)

/-- The third vector of the 2D case, if the listener is below a height of one on the vertical
axis. -/
theorem normalise_vertical {d : Vector3D K} (hx : d.x = 0) (hy : d.y = 0)
    (hz : epsilon K ≤ d.z) : normalise sqrt d = up := by
  refine normalise_eq hsqrt (r := d.z) ?_ (epsilon_pos.trans_le hz) ?_ hz
  · unfold dot up
    ring
  · ext
    · rw [hx]
      exact (mul_zero d.z).symm
    · rw [hy]
      exact (mul_zero d.z).symm
    · exact (mul_one d.z).symm

end Vectors

/-- A vector keeps a vertical component. -/
theorem normalise_z_ne_zero (sqrt : K → K) {d : Vector3D K} (hz : d.z ≠ 0) :
    (normalise sqrt d).z ≠ 0 := by
  unfold normalise
  dsimp only
  split
  next hlong =>
    exact div_ne_zero hz (epsilon_pos.trans_le hlong).ne'
  next => exact hz

omit [LinearOrder K] [IsStrictOrderedRing K] in
/-- For horizontal vectors, any third vector that is not horizontal leads to the same gains. -/
theorem combine_coordinates_horizontal {a b w p : Vector3D K} (ha : a.z = 0) (hb : b.z = 0)
    (hw : w.z ≠ 0) (hp : p.z = 0) (h : Vector3D.det a b up ≠ 0) :
    Vector3D.det a b w ≠ 0 ∧ combine a b up (coordinates a b w p) = p := by
  have hdet : Vector3D.det a b w = Vector3D.det a b up * w.z := by
    unfold Vector3D.det dot cross up
    rw [ha, hb]
    ring
  have hne : Vector3D.det a b w ≠ 0 := by
    rw [hdet]
    exact mul_ne_zero h hw
  refine ⟨hne, ?_⟩
  have hthird : (coordinates a b w p).z = 0 := by
    show p.dot (a.cross b) / Vector3D.det a b w = 0
    unfold dot cross
    rw [ha, hb, hp]
    ring
  have hsame : combine a b up (coordinates a b w p) = combine a b w (coordinates a b w p) := by
    unfold combine up
    rw [hthird]
    ext
    · ring
    · ring
    · dsimp only
      rw [ha, hb]
      ring
  rw [hsame]
  exact combine_coordinates hne p

section Gains

variable {sqrt : K → K} (hsqrt : ∀ r, 0 ≤ r → sqrt (r * r) = r) {s : VBAP K} {u : ℕ → Vector3D K}
  (hu : s.Directions u) (hindep : s.Independent u) (h : s.Undistorted)

include hsqrt hu hindep h

/-- **The gains of a triplet** solve the equations. -/
theorem tripletGains_solves {p : Vector3D K} (hp : s.is2D = true → p.z = 0) {j : ℕ}
    {t : ℕ × ℕ × ℕ} (hj : s.triplets[j]? = some t) :
    s.Solves u p t ((s.calcInvMatrices sqrt).tripletGains p j) := by
  have ht : t ∈ s.triplets := List.mem_of_getElem? hj
  have hdet := hindep t ht
  have hfirst : t.1 ∈ s.speakers t := by
    unfold speakers
    split <;> exact List.mem_cons_self
  have hsecond : t.2.1 ∈ s.speakers t := by
    unfold speakers
    split <;> exact List.mem_cons_of_mem _ List.mem_cons_self
  have h1 := normalise_direction hsqrt hu h ht hfirst
  have h2 := normalise_direction hsqrt hu h ht hsecond
  unfold Solves
  cases h2D : s.is2D with
  | false =>
    have hlast : t.2.2 ∈ s.speakers t := by
      rw [speakers, if_neg (by rw [h2D]; exact Bool.false_ne_true)]
      exact List.mem_cons_of_mem _ (List.mem_cons_of_mem _ List.mem_cons_self)
    have h3 := normalise_direction hsqrt hu h ht hlast
    have hthird : s.third u t = u t.2.2 := if_neg (by rw [h2D]; exact Bool.false_ne_true)
    have hvectors : s.tripletVectors sqrt t = (u t.1, u t.2.1, u t.2.2) := by
      unfold tripletVectors
      dsimp only
      rw [h2D, if_neg Bool.false_ne_true, h1, h2, h3]
    rw [hthird] at hdet ⊢
    rw [tripletGains_calcInvMatrices sqrt s p hj hvectors hdet]
    exact combine_coordinates hdet p
  | true =>
    -- the third vector points from the listener to the zenith, which is vertical for a centred
    -- listener
    have hthird : s.third u t = up := if_pos h2D
    have hvectors : s.tripletVectors sqrt t =
        (u t.1, u t.2.1, normalise sqrt ((⟨0, 0, 1⟩ : Vector3D K).sub s.listenerPos)) := by
      unfold tripletVectors
      dsimp only
      rw [h2D, if_pos rfl, h1, h2]
    rw [hthird] at hdet ⊢
    rcases h.vertical h2D with ⟨hx, hy, hz⟩ | ⟨hz, hlevel⟩
    · have hup : normalise sqrt ((⟨0, 0, 1⟩ : Vector3D K).sub s.listenerPos) = up := by
        refine normalise_vertical hsqrt ?_ ?_ hz
        · exact (zero_sub _).trans (neg_eq_zero.mpr hx)
        · exact (zero_sub _).trans (neg_eq_zero.mpr hy)
      rw [hup] at hvectors
      rw [tripletGains_calcInvMatrices sqrt s p hj hvectors hdet]
      exact combine_coordinates hdet p
    · -- The directions are horizontal.
      have hhorizontal : ∀ l ∈ s.speakers t, (u l).z = 0 := by
        intro l hl
        obtain ⟨r, hr, hd⟩ := hu.position t ht l hl
        have hzero : r * (u l).z = 0 := by
          have hcomponent := congrArg Vector3D.z hd
          rw [← show (s.positions l).z - s.listenerPos.z = r * (u l).z from hcomponent,
            hlevel t ht l hl, sub_self]
        exact (mul_eq_zero.mp hzero).resolve_left hr.ne'
      have hw : (normalise sqrt ((⟨0, 0, 1⟩ : Vector3D K).sub s.listenerPos)).z ≠ 0 :=
        normalise_z_ne_zero sqrt (sub_ne_zero.mpr (Ne.symm hz))
      obtain ⟨hne, hsolves⟩ := combine_coordinates_horizontal (hhorizontal t.1 hfirst)
        (hhorizontal t.2.1 hsecond) hw (hp h2D) hdet
      rw [tripletGains_calcInvMatrices sqrt s p hj hvectors hne]
      exact hsolves

end Gains

omit [LinearOrder K] [IsStrictOrderedRing K] in
/-- The gains of a triplet are determined by the equations. -/
theorem Solves.eq {s : VBAP K} {u : ℕ → Vector3D K} {p : Vector3D K} {t : ℕ × ℕ × ℕ}
    {g g' : Vector3D K} (h : s.Solves u p t g) (h' : s.Solves u p t g') (hindep : s.Independent u)
    (ht : t ∈ s.triplets) : g = g' := by
  rw [eq_coordinates (hindep t ht) h, eq_coordinates (hindep t ht) h']

omit [LinearOrder K] [IsStrictOrderedRing K] in
/-- The loudspeakers of a triplet are distinct. -/
theorem nodup_speakers {s : VBAP K} {u : ℕ → Vector3D K} (hindep : s.Independent u)
    {t : ℕ × ℕ × ℕ} (ht : t ∈ s.triplets) : (s.speakers t).Nodup := by
  have hdet := hindep t ht
  have hsame : ∀ a b : Vector3D K, Vector3D.det a a b = 0 ∧ Vector3D.det a b a = 0 ∧
      Vector3D.det b a a = 0 := by
    intro a b
    unfold Vector3D.det dot cross
    exact ⟨by ring, by ring, by ring⟩
  have h12 : t.1 ≠ t.2.1 := by
    intro heq
    rw [heq] at hdet
    exact hdet (hsame _ _).1
  unfold speakers
  unfold third at hdet
  split
  next => exact List.nodup_cons.mpr ⟨by rwa [List.mem_singleton], List.nodup_singleton _⟩
  next h3D =>
    rw [if_neg h3D] at hdet
    have h13 : t.1 ≠ t.2.2 := by
      intro heq
      rw [heq] at hdet
      exact hdet (hsame _ _).2.1
    have h23 : t.2.1 ≠ t.2.2 := by
      intro heq
      rw [heq] at hdet
      exact hdet (hsame _ _).2.2
    simp [h12, h13, h23]

/-- The gains that the calculation assigns to the loudspeakers of a triplet. -/
def assigned (s : VBAP K) (t : ℕ × ℕ × ℕ) (g : Vector3D K) : ℕ → K :=
  let gain := Function.update (fun _ => 0) t.1 g.x
  let gain := Function.update gain t.2.1 g.y
  if s.is2D then gain else Function.update gain t.2.2 g.z

omit [LinearOrder K] [IsStrictOrderedRing K] in
/-- The gain of a loudspeaker. -/
theorem assigned_apply (s : VBAP K) (t : ℕ × ℕ × ℕ) (g : Vector3D K) (l : ℕ) :
    s.assigned t g l = if s.is2D = false ∧ l = t.2.2 then g.z
      else if l = t.2.1 then g.y else if l = t.1 then g.x else 0 := by
  unfold assigned
  cases s.is2D <;> simp [Function.update_apply]

omit [IsStrictOrderedRing K] in
theorem assigned_spec {s : VBAP K} {u : ℕ → Vector3D K} {p : Vector3D K} {t : ℕ × ℕ × ℕ}
    {g : Vector3D K} (hindep : s.Independent u) (ht : t ∈ s.triplets) (hg : s.Solves u p t g) :
    (∀ l ∉ s.speakers t, s.assigned t g l = 0) ∧ s.SumsUp u p t (s.assigned t g) ∧
      (0 ≤ g.x → 0 ≤ g.y → (s.is2D = true ∨ 0 ≤ g.z) → ∀ l, 0 ≤ s.assigned t g l) := by
  have hnodup := nodup_speakers hindep ht
  have hx := congrArg Vector3D.x hg
  have hy := congrArg Vector3D.y hg
  have hz := congrArg Vector3D.z hg
  unfold combine third at hx hy hz
  unfold SumsUp
  simp only [assigned_apply]
  unfold speakers at hnodup ⊢
  -- in the plane, the gain of the third vector is not assigned to a loudspeaker
  cases h2D : s.is2D with
  | true =>
    rw [h2D] at hx hy hnodup
    simp only [if_pos, List.nodup_cons, List.mem_singleton] at hnodup hx hy ⊢
    refine ⟨fun l hl => ?_, ⟨?_, ?_, nofun⟩, fun h1 h2 _ l => ?_⟩
    · simp only [List.mem_cons, List.not_mem_nil, or_false, not_or] at hl
      simp [hl]
    · simpa [hnodup.1, up] using hx
    · simpa [hnodup.1, up] using hy
    · rw [if_neg fun h => Bool.false_ne_true h.1.symm]
      split
      · exact h2
      · split
        · exact h1
        · exact le_refl 0
  | false =>
    rw [h2D] at hx hy hz hnodup
    simp only [Bool.false_eq_true, if_false, List.nodup_cons, List.mem_cons, List.not_mem_nil,
      or_false, not_or, true_and] at hnodup hx hy hz ⊢
    obtain ⟨⟨h12, h13⟩, h23, -⟩ := hnodup
    refine ⟨fun l hl => ?_, ⟨?_, ?_, fun _ => ?_⟩, fun h1 h2 h3 l => ?_⟩
    · simp [hl]
    · simpa [h12, h13, h23, add_assoc] using hx
    · simpa [h12, h13, h23, add_assoc] using hy
    · simpa [h12, h13, h23, add_assoc] using hz
    · split
      · exact h3.resolve_left id
      · split
        · exact h2
        · split
          · exact h1
          · exact le_refl 0

section Reproduction

variable {sqrt : K → K} (hsqrt : ∀ r, 0 ≤ r → sqrt (r * r) = r) {s : VBAP K} {u : ℕ → Vector3D K}
  (hu : s.Directions u) (hindep : s.Independent u) (h : s.Undistorted)

include hsqrt hu hindep h

/-- **The source direction is reproduced** by the gains of all loudspeakers. -/
theorem reproduces_of_undistorted (pos : Vector3D K) (planeWave : Bool) :
    s.Reproduces u (s.relativePosition pos planeWave)
      ((s.calcInvMatrices sqrt).calcPlainVBAP pos planeWave) := by
  have hp : s.is2D = true → (s.relativePosition pos planeWave).z = 0 := by
    intro h2D
    unfold relativePosition
    rw [if_pos h2D]
  generalize hposition : s.relativePosition pos planeWave = p at hp
  have hrelative : (s.calcInvMatrices sqrt).relativePosition pos planeWave = p := hposition
  have hsolves : ∀ j, ∀ t, s.triplets[j]? = some t →
      s.Solves u p t ((s.calcInvMatrices sqrt).tripletGains p j) :=
    fun j t hj => tripletGains_solves hsqrt hu hindep h hp hj
  have hindex : ∀ t ∈ s.triplets, ∃ j ∈ List.range s.triplets.length,
      s.triplets[j]? = some t := by
    intro t ht
    obtain ⟨j, hj, hget⟩ := List.mem_iff_getElem.mp ht
    exact ⟨j, List.mem_range.mpr hj, List.getElem?_eq_some_iff.mpr ⟨hj, hget⟩⟩
  have hfound : (s.calcInvMatrices sqrt).Found p (List.range s.triplets.length)
      ((s.calcInvMatrices sqrt).searchTriplets p (List.range s.triplets.length) none) :=
    searchTriplets_found
  -- a triplet is chosen at once if the position is in its cone
  have hcone : ∀ t ∈ s.triplets, ∀ j, s.triplets[j]? = some t →
      (s.InCone u p t ↔ (s.calcInvMatrices sqrt).inside
        ((s.calcInvMatrices sqrt).tripletGains p j) = true) := by
    intro t ht j hj
    have hiff : (s.calcInvMatrices sqrt).inside ((s.calcInvMatrices sqrt).tripletGains p j) =
        true ↔ 0 ≤ ((s.calcInvMatrices sqrt).tripletGains p j).x ∧
          0 ≤ ((s.calcInvMatrices sqrt).tripletGains p j).y ∧
          (s.is2D = true ∨ 0 ≤ ((s.calcInvMatrices sqrt).tripletGains p j).z) := by
      unfold inside
      simp only [Bool.and_eq_true, Bool.or_eq_true, decide_eq_true_eq, and_assoc]
      rw [or_comm]
      rfl
    rw [hiff]
    constructor
    · rintro ⟨g, hg, hnonneg⟩
      rw [(hsolves j t hj).eq hg hindep ht]
      exact hnonneg
    · exact fun hnonneg => ⟨_, hsolves j t hj, hnonneg⟩
  unfold calcPlainVBAP
  rw [hrelative, show (s.calcInvMatrices sqrt).triplets = s.triplets from rfl]
  -- either no triplet has at most one negative gain, or the best of them is chosen
  cases hsearch : (s.calcInvMatrices sqrt).searchTriplets p (List.range s.triplets.length) none with
  | none =>
    rw [hsearch] at hfound
    intro t ht
    obtain ⟨j, hj, hget⟩ := hindex t ht
    exact ⟨_, hsolves j t hget, hfound j hj⟩
  | some c =>
    rw [hsearch] at hfound
    obtain ⟨hmem, hgains, hchosen⟩ := hfound
    have hlt := List.mem_range.mp hmem
    obtain ⟨t, hget⟩ : ∃ t, s.triplets[c.jmin]? = some t := ⟨_, List.getElem?_eq_getElem hlt⟩
    have hgetD : s.triplets.getD c.jmin (0, 0, 0) = t := by
      rw [List.getD_eq_getElem?_getD, hget]
      rfl
    show s.Reproduces u p (.ok (s.assigned (s.triplets.getD c.jmin (0, 0, 0)) c.gains))
    rw [hgetD]
    have ht : t ∈ s.triplets := List.mem_of_getElem? hget
    have hg := hsolves c.jmin t hget
    rw [← hgains] at hg
    obtain ⟨hzero, hsums, hnonneg⟩ := assigned_spec hindep ht hg
    refine ⟨t, ht, hzero, hsums, ?_, ?_⟩
    · -- some cone contains the position, so the chosen triplet is of this kind
      rintro ⟨t', ht', hin⟩
      have hinside : (s.calcInvMatrices sqrt).inside c.gains = true := by
        rcases hchosen with hinside | ⟨houtside, -⟩
        · exact hinside
        · obtain ⟨j, hj, hget'⟩ := hindex t' ht'
          have htrue := (hcone t' ht' j hget').mp hin
          rw [houtside j hj] at htrue
          cases htrue
      rw [hgains] at hinside
      obtain ⟨g, hg', hx, hy, hz⟩ := (hcone t ht c.jmin hget).mpr hinside
      have heq : c.gains = g := hg.eq hg' hindep ht
      rw [← heq] at hx hy hz
      exact hnonneg hx hy hz
    · intro hnone
      rcases hchosen with hinside | ⟨-, hfew, hbest⟩
      · rw [hgains] at hinside
        exact absurd ⟨t, ht, (hcone t ht c.jmin hget).mpr hinside⟩ hnone
      · refine ⟨c.gains, hg, hfew, fun t' ht' g' hg' hone => ?_⟩
        obtain ⟨j, hj, hget'⟩ := hindex t' ht'
        rw [hg'.eq (hsolves j t' hget') hindep ht'] at hone ⊢
        exact hbest j hj hone

end Reproduction

/-- Two loudspeakers in the horizontal plane. -/
def horizontalPair : VBAP ℚ where
  is2D := true
  numTotLoudspeakers := 2
  numRegLoudspeakers := 2
  numVirtLoudspeakers := 0
  positions i := if i = 0 then ⟨3, 4, 0⟩ else ⟨4, 1, 0⟩
  triplets := [(0, 1, 0)]
  reroutingMatrix _ _ := 0
  listenerPos := ⟨0, 0, 0⟩
  invMatrix _ _ := 0

theorem sqrt_mul_self (r : ℚ) (hr : 0 ≤ r) : Rat.sqrt (r * r) = r := by
  rw [Rat.sqrt_eq, abs_of_nonneg hr]

/-- The directions from above the plane. -/
def directionsAbove (l : ℕ) : Vector3D ℚ :=
  if l = 0 then ⟨1 / 3, 2 / 3, -2 / 3⟩ else ⟨2 / 3, -1 / 3, -2 / 3⟩

end VBAP

end Visr
