import Mathlib.Data.Rat.Sqrt
import Mathlib.Tactic.Linarith
import Visr.Libpanning.CAP
import Visr.Libpanning.LoudspeakerConfiguration
import Visr.Libpanning.SourceDirections

/-!
# Plain gains for high frequencies

The gains of the variant of vector base amplitude panning that never fails, for any calls that set
the position of the listener or the threshold for listeners close to a triplet.

## Main results

* `CAP_VBAP.coherent_run` — the matrices are those of the last position of the listener.
* `CAP_VBAP.inRange_iff` — **when the gains are as expected**.
-/

namespace Visr

open Vector3D

variable {K : Type} [Field K] [LinearOrder K]

namespace CAP_VBAP

variable (math : CMath K)

/-! ### The calls -/

/-- The flags of the triplets remain those for the last threshold. -/
def setNearTripletBoundaryCosTheta (s : CAP_VBAP K) (t : K) : CAP_VBAP K :=
  { s with nearTripletBoundaryCosTheta := t }

inductive Call (K : Type)
  | setListenerPosition (x y z : K)
  | setNearTripletBoundaryCosTheta (t : K)

def call (s : CAP_VBAP K) : Call K → CAP_VBAP K
  | .setListenerPosition x y z => s.setListenerPosition math x y z
  | .setNearTripletBoundaryCosTheta t => s.setNearTripletBoundaryCosTheta t

/-- The calculator after some calls. -/
def run (lsarray : LoudspeakerArray K) (calls : List (Call K)) : CAP_VBAP K :=
  calls.foldl (call math) (create math lsarray)

/-! ### What is expected -/

/-- The triplets and their members through which the positions are read when the matrices are
computed. -/
def positionReads (s : CAP_VBAP K) : List (ℕ × Fin 3) :=
  (List.range s.triplets.length).flatMap fun j => [(j, 0), (j, 1), (j, 2)]

/-- The first triplet that is accepted by the search. -/
def accepted (s : CAP_VBAP K) (p : Vector3D K) : Option ℕ :=
  (List.range s.triplets.length).find? fun j => s.selects (s.tripletGains p j) j

/-- The triplet and its members through which the gains are written. -/
def gainWrites (s : CAP_VBAP K) (pos : Vector3D K) (planeWave : Bool) : List (ℕ × Fin 3) :=
  match s.accepted (s.relativePosition pos planeWave) with
  | none => []
  | some j => if s.is2D then [(j, 0), (j, 1)] else [(j, 0), (j, 1), (j, 2)]

/-- The unit vector from the listener to a loudspeaker; a vector that is very short is left as it
is. -/
def direction (s : CAP_VBAP K) (l : ℕ) : Vector3D K :=
  let relative := if s.isInfinite then s.positions l else (s.positions l).sub s.listenerPos
  VBAP.normalise math.sqrt (if s.is2D then { relative with z := 0 } else relative)

/-- The listener is near to the boundary of the triplet, by the threshold that has been set
last. -/
def IsNear (s : CAP_VBAP K) (t : ℕ × ℕ × ℕ) : Prop :=
  (s.direction math t.1).x * (s.direction math t.2.1).x +
    (s.direction math t.1).y * (s.direction math t.2.1).y < s.nearTripletBoundaryCosTheta

/-- The sum of the directions of the loudspeakers of a triplet, weighted by their gains. -/
def weightedSum (s : CAP_VBAP K) (t : ℕ × ℕ × ℕ) (gain : ℕ → K) : Vector3D K :=
  ⟨∑ l ∈ (s.speakers t).toFinset, gain l * (s.direction math l).x,
    ∑ l ∈ (s.speakers t).toFinset, gain l * (s.direction math l).y,
    ∑ l ∈ (s.speakers t).toFinset, gain l * (s.direction math l).z⟩

/-- The gains are zero outside a triplet, and are the coordinates of `p` in its unit vectors. -/
structure Represents (s : CAP_VBAP K) (t : ℕ × ℕ × ℕ) (p : Vector3D K) (gain : ℕ → K) : Prop where
  zero : ∀ l ∉ s.speakers t, gain l = 0
  sum : s.weightedSum math t gain = p
  unit : ∀ l, gain l ≠ 0 → (s.direction math l).dot (s.direction math l) = 1

/-- The opposite direction. -/
def opposite (p : Vector3D K) : Vector3D K := ⟨-p.x, -p.y, -p.z⟩

/-- **What is expected**: no gain is negative, the gains are zero or are those of one triplet, and
the third member of a triplet is not used in the 2D case. -/
structure InRange (s : CAP_VBAP K) (pos : Vector3D K) (planeWave : Bool) : Prop where
  nonneg : ∀ l, 0 ≤ s.calcPlainGains pos planeWave l
  triplet : (∀ l, s.calcPlainGains pos planeWave l = 0) ∨ ∃ t ∈ s.triplets,
    s.Represents math t (s.relativePosition pos planeWave) (s.calcPlainGains pos planeWave) ∨
    s.IsNear math t ∧ s.Represents math t (opposite (s.relativePosition pos planeWave))
      (s.calcPlainGains pos planeWave)
  members : s.is2D = true →
    ∀ access ∈ s.positionReads ++ s.gainWrites pos planeWave, access.2 ≠ 2

/-- The members of a triplet with their coordinates. -/
def members (t : ℕ × ℕ × ℕ) (g : Vector3D K) : List (ℕ × K) :=
  [(t.1, g.x), (t.2.1, g.y), (t.2.2, g.z)]

/-- The condition: there are no triplets, or the array is 3D and the first triplet that is accepted
is independent and not too close to the listener; if it contains the opposite direction, the source
is in the plane of the first two loudspeakers, which are near by the threshold set last. -/
def Sound (s : CAP_VBAP K) (pos : Vector3D K) (planeWave : Bool) : Prop :=
  s.triplets = [] ∨ s.is2D = false ∧ ∀ j t,
    s.accepted (s.relativePosition pos planeWave) = some j → s.triplets[j]? = some t →
    let g := s.tripletGains (s.relativePosition pos planeWave) j
    g = ⟨0, 0, 0⟩ ∨
      Vector3D.det (s.direction math t.1) (s.direction math t.2.1) (s.direction math t.2.2) ≠ 0 ∧
      (∀ m ∈ members t g, m.2 ≠ 0 → (s.direction math m.1).dot (s.direction math m.1) = 1) ∧
      (s.inside g = true ∨ g.z = 0 ∧ ∃ t' ∈ s.triplets, s.IsNear math t' ∧
        ∀ m ∈ members t g, m.2 ≠ 0 → m.1 ∈ s.speakers t')

/-! ### The matrices -/

/-- The matrices are those of the position of the listener. -/
def Coherent (s : CAP_VBAP K) : Prop :=
  ∀ j t, s.triplets[j]? = some t →
    s.invMatrix j = VBAP.inverseMatrix (s.tripletVectors math t).1 (s.tripletVectors math t).2.1
      (s.tripletVectors math t).2.2

theorem coherent_setListenerPosition (s : CAP_VBAP K) (x y z : K) :
    (s.setListenerPosition math x y z).Coherent math := by
  intro j t ht
  have hget : s.triplets[j]? = some t := ht
  unfold setListenerPosition calcInvMatrices
  dsimp only
  rw [hget]
  rfl

theorem Coherent.call {math : CMath K} {s : CAP_VBAP K} (h : s.Coherent math) (c : Call K) :
    (s.call math c).Coherent math := by
  cases c with
  | setListenerPosition x y z => exact coherent_setListenerPosition math s x y z
  | setNearTripletBoundaryCosTheta t => exact h

/-- **The matrices are those of the last position of the listener**, after any calls. -/
theorem coherent_run (lsarray : LoudspeakerArray K) (calls : List (Call K)) :
    (run math lsarray calls).Coherent math := by
  have hinit : (create math lsarray).Coherent math := coherent_setListenerPosition math _ 0 0 0
  unfold run
  generalize create math lsarray = s at hinit
  induction calls generalizing s with
  | nil => exact hinit
  | cons c calls ih => exact ih _ (hinit.call c)

/-! ### The gains of a triplet -/

section Triplet

variable {math} {s : CAP_VBAP K} (h3D : s.is2D = false)

include h3D

theorem tripletVectors_eq (t : ℕ × ℕ × ℕ) : s.tripletVectors math t =
    (s.direction math t.1, s.direction math t.2.1, s.direction math t.2.2) := by
  unfold tripletVectors direction
  simp only [h3D, Bool.false_eq_true, if_false]

/-- The gains of a triplet that is accepted have the same sign. -/
theorem selects_signs {g : Vector3D K} {j : ℕ} (h : s.selects g j = true) :
    0 ≤ g.x ∧ 0 ≤ g.y ∧ 0 ≤ g.z ∨ g.x ≤ 0 ∧ g.y ≤ 0 ∧ g.z ≤ 0 := by
  unfold selects VBAP.inside at h
  simp only [h3D, Bool.or_false, Bool.or_eq_true, Bool.and_eq_true, decide_eq_true_eq] at h
  rcases h with ⟨⟨hx, hy⟩, hz⟩ | ⟨⟨⟨hx, hy⟩, hz⟩, -⟩
  · exact Or.inl ⟨hx, hy, hz⟩
  · exact Or.inr ⟨hx, hy, hz⟩

variable (hcoherent : s.Coherent math) {j : ℕ} {t : ℕ × ℕ × ℕ} (ht : s.triplets[j]? = some t)

include hcoherent ht

/-- The gains of a triplet that is not independent are its cofactors. -/
theorem tripletGains_dependent (p : Vector3D K) (hdet : Vector3D.det (s.direction math t.1)
    (s.direction math t.2.1) (s.direction math t.2.2) = 0) :
    s.tripletGains p j =
      ⟨p.dot ((s.direction math t.2.1).cross (s.direction math t.2.2)),
        p.dot ((s.direction math t.2.2).cross (s.direction math t.1)),
        p.dot ((s.direction math t.1).cross (s.direction math t.2.1))⟩ := by
  have hmatrix := hcoherent j t ht
  rw [tripletVectors_eq h3D] at hmatrix
  dsimp only at hmatrix
  revert hmatrix hdet
  generalize s.direction math t.1 = l1, s.direction math t.2.1 = l2, s.direction math t.2.2 = l3
  intro hdet hmatrix
  have htemp : l1.x * (l2.y * l3.z - l2.z * l3.y) - l1.y * (l2.x * l3.z - l2.z * l3.x) +
      l1.z * (l2.x * l3.y - l2.y * l3.x) = 0 := by
    rw [← hdet]
    unfold Vector3D.det dot cross
    ring
  unfold VBAP.tripletGains
  rw [hmatrix]
  unfold VBAP.inverseMatrix
  dsimp only
  -- the matrix is not divided by a determinant of zero, which leaves the cofactors
  rw [htemp, if_neg (not_not.mpr rfl)]
  ext
  · show p.x * ((l2.y * l3.z - l2.z * l3.y) * 1) + p.y * ((l2.x * l3.z - l2.z * l3.x) * -1) +
      p.z * ((l2.x * l3.y - l2.y * l3.x) * 1) = p.dot (l2.cross l3)
    unfold dot cross
    ring
  · show p.x * ((l1.y * l3.z - l1.z * l3.y) * -1) + p.y * ((l1.x * l3.z - l1.z * l3.x) * 1) +
      p.z * ((l1.x * l3.y - l1.y * l3.x) * -1) = p.dot (l3.cross l1)
    unfold dot cross
    ring
  · show p.x * ((l1.y * l2.z - l1.z * l2.y) * 1) + p.y * ((l1.x * l2.z - l1.z * l2.x) * -1) +
      p.z * ((l1.x * l2.y - l1.y * l2.x) * 1) = p.dot (l1.cross l2)
    unfold dot cross
    ring

/-- The sum of the directions, weighted by the gains of the triplet. -/
theorem combine_tripletGains (p : Vector3D K) :
    combine (s.direction math t.1) (s.direction math t.2.1) (s.direction math t.2.2)
      (s.tripletGains p j) =
        if Vector3D.det (s.direction math t.1) (s.direction math t.2.1) (s.direction math t.2.2) = 0
        then ⟨0, 0, 0⟩ else p := by
  by_cases hdet : Vector3D.det (s.direction math t.1) (s.direction math t.2.1)
      (s.direction math t.2.2) = 0
  · rw [if_pos hdet, tripletGains_dependent h3D hcoherent ht p hdet, combine_cofactors, hdet,
      zero_mul, zero_mul, zero_mul]
  · have hmatrix := hcoherent j t ht
    rw [tripletVectors_eq h3D] at hmatrix
    rw [if_neg hdet]
    unfold VBAP.tripletGains
    rw [hmatrix, VBAP.inverseMatrix_mul hdet]
    exact combine_coordinates hdet p

/-- A triplet that is accepted has distinct members, unless all its gains are zero. -/
theorem members_distinct [IsStrictOrderedRing K] {p : Vector3D K}
    (hselects : s.selects (s.tripletGains p j) j = true) (hne : s.tripletGains p j ≠ ⟨0, 0, 0⟩) :
    t.1 ≠ t.2.1 ∧ t.1 ≠ t.2.2 ∧ t.2.1 ≠ t.2.2 := by
  have hgains := tripletGains_dependent h3D hcoherent ht p
  have hsigns := selects_signs h3D hselects
  have hzero : ∀ a b : K, (0 ≤ a ∧ 0 ≤ b ∨ a ≤ 0 ∧ b ≤ 0) → a = -b → a = 0 ∧ b = 0 := by
    intro a b hab heq
    rcases hab with ⟨ha, hb⟩ | ⟨ha, hb⟩
    · exact ⟨by linarith, by linarith⟩
    · exact ⟨by linarith, by linarith⟩
  -- two members that agree get opposite gains, and the third one gets none
  refine ⟨fun heq => hne ?_, fun heq => hne ?_, fun heq => hne ?_⟩
  · rw [heq] at hgains
    have hg := hgains (by unfold Vector3D.det dot cross; ring)
    have hx : (s.tripletGains p j).x = -(s.tripletGains p j).y := by
      rw [hg]
      exact dot_cross_swap _ _ _
    have hz : (s.tripletGains p j).z = 0 := by
      rw [hg]
      exact dot_cross_self _ _
    obtain ⟨hx0, hy0⟩ := hzero _ _
      (hsigns.imp (fun h => ⟨h.1, h.2.1⟩) fun h => ⟨h.1, h.2.1⟩) hx
    exact Vector3D.ext hx0 hy0 hz
  · rw [heq] at hgains
    have hg := hgains (by unfold Vector3D.det dot cross; ring)
    have hx : (s.tripletGains p j).x = -(s.tripletGains p j).z := by
      rw [hg]
      exact dot_cross_swap _ _ _
    have hy : (s.tripletGains p j).y = 0 := by
      rw [hg]
      exact dot_cross_self _ _
    obtain ⟨hx0, hz0⟩ := hzero _ _
      (hsigns.imp (fun h => ⟨h.1, h.2.2⟩) fun h => ⟨h.1, h.2.2⟩) hx
    exact Vector3D.ext hx0 hy hz0
  · rw [heq] at hgains
    have hg := hgains (dot_cross_self _ _)
    have hy : (s.tripletGains p j).y = -(s.tripletGains p j).z := by
      rw [hg]
      exact dot_cross_swap _ _ _
    have hx : (s.tripletGains p j).x = 0 := by
      rw [hg]
      exact dot_cross_self _ _
    obtain ⟨hy0, hz0⟩ := hzero _ _
      (hsigns.imp (fun h => ⟨h.2.1, h.2.2⟩) fun h => ⟨h.2.1, h.2.2⟩) hy
    exact Vector3D.ext hx hy0 hz0

end Triplet

/-! ### The gains of all loudspeakers -/

section Gains

/-- The signs of the first two gains are changed if none of them is positive. -/
def flipped (g : Vector3D K) : Vector3D K :=
  if g.x ≤ 0 ∧ g.y ≤ 0 then { g with x := -g.x, y := -g.y } else g

variable {s : CAP_VBAP K} {pos : Vector3D K} {planeWave : Bool}

theorem calcPlainGains_of_none
    (h : s.accepted (s.relativePosition pos planeWave) = none) (l : ℕ) :
    s.calcPlainGains pos planeWave l = 0 := by
  unfold accepted at h
  unfold calcPlainGains
  rw [h]

theorem calcPlainGains_of_accepted {j : ℕ} {t : ℕ × ℕ × ℕ}
    (h : s.accepted (s.relativePosition pos planeWave) = some j) (ht : s.triplets[j]? = some t) :
    s.calcPlainGains pos planeWave =
      s.assigned t (flipped (s.tripletGains (s.relativePosition pos planeWave) j)) := by
  have hgetD : s.triplets.getD j (0, 0, 0) = t := by
    rw [List.getD_eq_getElem?_getD, ht]
    rfl
  unfold accepted at h
  unfold calcPlainGains
  dsimp only
  rw [h]
  dsimp only
  rw [hgetD]
  rfl

theorem selects_of_accepted {p : Vector3D K} {j : ℕ} (h : s.accepted p = some j) :
    j < s.triplets.length ∧ s.selects (s.tripletGains p j) j = true :=
  ⟨List.mem_range.mp (List.mem_of_find?_eq_some h),
    List.find?_some (p := fun j => s.selects (s.tripletGains p j) j) h⟩

variable {t : ℕ × ℕ × ℕ} (h3D : s.is2D = false)

omit [LinearOrder K] in
/-- Sums over two triplets are the same if all gains outside are zero. -/
theorem sum_eq_of_zero {gain f : ℕ → K} {T T' : Finset ℕ} (hT : ∀ l ∉ T, gain l = 0)
    (hT' : ∀ l ∉ T', gain l = 0) : ∑ l ∈ T, gain l * f l = ∑ l ∈ T', gain l * f l := by
  rw [Finset.sum_subset (Finset.subset_union_left : T ⊆ T ∪ T') fun l _ hl => by
      rw [hT l hl, zero_mul],
    Finset.sum_subset (Finset.subset_union_right : T' ⊆ T ∪ T') fun l _ hl => by
      rw [hT' l hl, zero_mul]]

theorem weightedSum_eq_of_zero {math : CMath K} {t' : ℕ × ℕ × ℕ} {gain : ℕ → K}
    (h : ∀ l ∉ s.speakers t, gain l = 0) (h' : ∀ l ∉ s.speakers t', gain l = 0) :
    s.weightedSum math t gain = s.weightedSum math t' gain := by
  have hzero : ∀ l ∉ (s.speakers t).toFinset, gain l = 0 := fun l hl =>
    h l fun hmem => hl (List.mem_toFinset.mpr hmem)
  have hzero' : ∀ l ∉ (s.speakers t').toFinset, gain l = 0 := fun l hl =>
    h' l fun hmem => hl (List.mem_toFinset.mpr hmem)
  unfold weightedSum
  rw [sum_eq_of_zero hzero hzero', sum_eq_of_zero hzero hzero', sum_eq_of_zero hzero hzero']

include h3D

omit [Field K] [LinearOrder K] in
theorem speakers_eq : s.speakers t = [t.1, t.2.1, t.2.2] := by
  unfold VBAP.speakers
  simp [h3D]

omit [LinearOrder K] in
theorem assigned_zero (g : Vector3D K) : ∀ l ∉ s.speakers t, s.assigned t g l = 0 := by
  intro l hl
  rw [speakers_eq h3D] at hl
  simp only [List.mem_cons, List.not_mem_nil, or_false, not_or] at hl
  rw [VBAP.assigned_apply]
  simp [hl]

omit h3D in
theorem assigned_nonneg {g : Vector3D K} (hg : 0 ≤ g.x ∧ 0 ≤ g.y ∧ 0 ≤ g.z) (l : ℕ) :
    0 ≤ s.assigned t g l := by
  obtain ⟨hx, hy, hz⟩ := hg
  rw [VBAP.assigned_apply]
  split
  · exact hz
  · split
    · exact hy
    · split
      · exact hx
      · exact le_refl 0

variable (hdistinct : t.1 ≠ t.2.1 ∧ t.1 ≠ t.2.2 ∧ t.2.1 ≠ t.2.2)

include hdistinct

omit [LinearOrder K] in
theorem assigned_members (g : Vector3D K) : s.assigned t g t.1 = g.x ∧
    s.assigned t g t.2.1 = g.y ∧ s.assigned t g t.2.2 = g.z := by
  obtain ⟨h12, h13, h23⟩ := hdistinct
  simp only [VBAP.assigned_apply]
  simp [h3D, h12, h13, h23]

theorem weightedSum_assigned (math : CMath K) (g : Vector3D K) :
    s.weightedSum math t (s.assigned t g) =
      combine (s.direction math t.1) (s.direction math t.2.1) (s.direction math t.2.2) g := by
  obtain ⟨hx, hy, hz⟩ := assigned_members h3D hdistinct g
  obtain ⟨h12, h13, h23⟩ := hdistinct
  have hsum : ∀ f : ℕ → K,
      ∑ l ∈ (s.speakers t).toFinset, f l = f t.1 + f t.2.1 + f t.2.2 := by
    intro f
    rw [speakers_eq h3D, List.toFinset_cons, List.toFinset_cons, List.toFinset_cons,
      List.toFinset_nil, insert_empty_eq, Finset.sum_insert (by simp [h12, h13]),
      Finset.sum_insert (by simp [h23]), Finset.sum_singleton, add_assoc]
  unfold weightedSum combine
  rw [hsum, hsum, hsum, hx, hy, hz]

end Gains

/-! ### The condition -/

section Condition

variable {math : CMath K} {s : CAP_VBAP K} {pos : Vector3D K} {planeWave : Bool}

/-- In the 2D case, the third members are used as soon as there is a triplet. -/
theorem triplets_eq_nil (h : s.InRange math pos planeWave) (h2D : s.is2D = true) :
    s.triplets = [] := by
  cases htriplets : s.triplets with
  | nil => rfl
  | cons t triplets =>
    have hread : (0, 2) ∈ s.positionReads := by
      refine List.mem_flatMap.mpr ⟨0, ?_, ?_⟩
      · rw [List.mem_range, htriplets]
        exact Nat.succ_pos _
      · exact List.mem_cons_of_mem _ (List.mem_cons_of_mem _ List.mem_cons_self)
    exact absurd rfl (h.members h2D (0, 2) (List.mem_append_left _ hread))

/-- Without triplets, all gains are zero. -/
theorem inRange_of_nil (h : s.triplets = []) : s.InRange math pos planeWave := by
  have hnone : s.accepted (s.relativePosition pos planeWave) = none := by
    unfold accepted
    rw [h]
    rfl
  have hzero := calcPlainGains_of_none hnone
  refine ⟨fun l => (hzero l).ge, Or.inl hzero, fun _ access haccess => ?_⟩
  unfold positionReads gainWrites at haccess
  rw [hnone, h] at haccess
  exact absurd haccess (List.not_mem_nil)

omit [LinearOrder K] in
/-- A source in the position of the listener has no gains. -/
theorem tripletGains_zero (j : ℕ) : s.tripletGains ⟨0, 0, 0⟩ j = ⟨0, 0, 0⟩ := by
  unfold VBAP.tripletGains
  simp

/-- The gains that are not zero are those of the members whose coordinates are not zero. -/
theorem assigned_flipped_ne_zero_iff (h3D : s.is2D = false) {t : ℕ × ℕ × ℕ}
    (hdistinct : t.1 ≠ t.2.1 ∧ t.1 ≠ t.2.2 ∧ t.2.1 ≠ t.2.2) (g : Vector3D K)
    (l : ℕ) : s.assigned t (flipped g) l ≠ 0 ↔ ∃ m ∈ members t g, m.2 ≠ 0 ∧ m.1 = l := by
  -- a change of the signs keeps the zeros
  have hx : (flipped g).x = 0 ↔ g.x = 0 := by
    unfold flipped
    split
    · exact neg_eq_zero
    · rfl
  have hy : (flipped g).y = 0 ↔ g.y = 0 := by
    unfold flipped
    split
    · exact neg_eq_zero
    · rfl
  have hz : (flipped g).z = 0 ↔ g.z = 0 := by
    unfold flipped
    split
    · rfl
    · rfl
  obtain ⟨h12, h13, h23⟩ := hdistinct
  rw [VBAP.assigned_apply]
  unfold members
  simp only [h3D, List.mem_cons, List.not_mem_nil, or_false, exists_eq_or_imp, exists_eq_left,
    true_and]
  by_cases h1 : l = t.1
  · simp [h1, h12, h13, h12.symm, h13.symm, hx]
  by_cases h2 : l = t.2.1
  · simp [h2, h12, h23, h23.symm, hy]
  by_cases h3 : l = t.2.2
  · simp [h3, h13, h23, hz]
  · simp [h1, h2, h3, Ne.symm h1, Ne.symm h2, Ne.symm h3]

omit [LinearOrder K] in
theorem exists_member_ne_zero {t : ℕ × ℕ × ℕ} {g : Vector3D K} (h : g ≠ ⟨0, 0, 0⟩) :
    ∃ m ∈ members t g, m.2 ≠ 0 := by
  unfold members
  by_contra hnot
  simp only [List.mem_cons, List.not_mem_nil, or_false, exists_eq_or_imp, exists_eq_left, not_or,
    not_not] at hnot
  exact h (Vector3D.ext hnot.1 hnot.2.1 hnot.2.2)

/-- Gains without a sign change if the triplet contains the source. -/
theorem flipped_of_inside (h3D : s.is2D = false) {g : Vector3D K} (h : s.inside g = true) :
    flipped g = g ∧ 0 ≤ g.x ∧ 0 ≤ g.y ∧ 0 ≤ g.z := by
  unfold VBAP.inside at h
  simp only [h3D, Bool.or_false, Bool.and_eq_true, decide_eq_true_eq] at h
  obtain ⟨⟨hx, hy⟩, hz⟩ := h
  refine ⟨?_, hx, hy, hz⟩
  unfold flipped
  by_cases hneg : g.x ≤ 0 ∧ g.y ≤ 0
  · rw [if_pos hneg]
    have hx0 : g.x = 0 := le_antisymm hneg.1 hx
    have hy0 : g.y = 0 := le_antisymm hneg.2 hy
    ext
    · exact (neg_eq_zero.mpr hx0).trans hx0.symm
    · exact (neg_eq_zero.mpr hy0).trans hy0.symm
    · rfl
  · rw [if_neg hneg]

/-- The first two gains change their signs if the triplet contains the opposite direction. -/
theorem flipped_of_not_inside (h3D : s.is2D = false) {g : Vector3D K} {j : ℕ}
    (hselects : s.selects g j = true) (h : ¬s.inside g = true) :
    flipped g = ⟨-g.x, -g.y, g.z⟩ ∧ g.x ≤ 0 ∧ g.y ≤ 0 ∧ g.z ≤ 0 := by
  obtain ⟨hx, hy, hz⟩ : g.x ≤ 0 ∧ g.y ≤ 0 ∧ g.z ≤ 0 := by
    rcases selects_signs h3D hselects with ⟨hx, hy, hz⟩ | hneg
    · refine absurd ?_ h
      unfold VBAP.inside
      simp [hx, hy, hz]
    · exact hneg
  refine ⟨?_, hx, hy, hz⟩
  unfold flipped
  rw [if_pos ⟨hx, hy⟩]

/-- No loudspeaker has a gain if and only if the triplet has none. -/
theorem assigned_flipped_eq_zero_iff (h3D : s.is2D = false) {t : ℕ × ℕ × ℕ}
    (hdistinct : t.1 ≠ t.2.1 ∧ t.1 ≠ t.2.2 ∧ t.2.1 ≠ t.2.2) (g : Vector3D K) :
    (∀ l, s.assigned t (flipped g) l = 0) ↔ g = ⟨0, 0, 0⟩ := by
  constructor
  · intro hzero
    by_contra hne
    obtain ⟨m, hm, hmne⟩ := exists_member_ne_zero (t := t) hne
    exact (assigned_flipped_ne_zero_iff h3D hdistinct g m.1).mpr ⟨m, hm, hmne, rfl⟩ (hzero m.1)
  · rintro rfl l
    rw [VBAP.assigned_apply]
    simp [flipped]

omit [LinearOrder K] in
theorem opposite_eq_zero_iff {p : Vector3D K} : opposite p = ⟨0, 0, 0⟩ ↔ p = ⟨0, 0, 0⟩ := by
  constructor
  · intro h
    exact Vector3D.ext (neg_eq_zero.mp (congrArg Vector3D.x h))
      (neg_eq_zero.mp (congrArg Vector3D.y h)) (neg_eq_zero.mp (congrArg Vector3D.z h))
  · rintro rfl
    simp [opposite]

/-- If the third gain is zero, the triplet represents the opposite direction. -/
theorem combine_flipped (h3D : s.is2D = false) {g : Vector3D K} {j : ℕ}
    (hselects : s.selects g j = true) (hinside : ¬s.inside g = true) (hz : g.z = 0)
    (a b c : Vector3D K) : combine a b c (flipped g) = opposite (combine a b c g) := by
  rw [(flipped_of_not_inside h3D hselects hinside).1]
  unfold combine opposite
  rw [hz]
  ext
  · dsimp only
    ring
  · dsimp only
    ring
  · dsimp only
    ring

variable [IsStrictOrderedRing K]

/-- The opposite of a direction is another one. -/
theorem eq_zero_of_opposite {p : Vector3D K} (h : p = opposite p) : p = ⟨0, 0, 0⟩ := by
  have hzero : ∀ a : K, a = -a → a = 0 := fun a ha => by linarith
  exact Vector3D.ext (hzero _ (congrArg Vector3D.x h)) (hzero _ (congrArg Vector3D.y h))
    (hzero _ (congrArg Vector3D.z h))

/-- **When the gains are as expected**, for one accepted triplet. -/
theorem accepted_iff (hcoherent : s.Coherent math) (h3D : s.is2D = false) {p : Vector3D K} {j : ℕ}
    {t : ℕ × ℕ × ℕ} (hselects : s.selects (s.tripletGains p j) j = true)
    (ht : s.triplets[j]? = some t) (hne : s.tripletGains p j ≠ ⟨0, 0, 0⟩) :
    ((∀ l, 0 ≤ s.assigned t (flipped (s.tripletGains p j)) l) ∧ ∃ t' ∈ s.triplets,
        s.Represents math t' p (s.assigned t (flipped (s.tripletGains p j))) ∨
        s.IsNear math t' ∧
          s.Represents math t' (opposite p) (s.assigned t (flipped (s.tripletGains p j)))) ↔
      Vector3D.det (s.direction math t.1) (s.direction math t.2.1) (s.direction math t.2.2) ≠ 0 ∧
        (∀ m ∈ members t (s.tripletGains p j), m.2 ≠ 0 →
          (s.direction math m.1).dot (s.direction math m.1) = 1) ∧
        (s.inside (s.tripletGains p j) = true ∨ (s.tripletGains p j).z = 0 ∧
          ∃ t' ∈ s.triplets, s.IsNear math t' ∧
            ∀ m ∈ members t (s.tripletGains p j), m.2 ≠ 0 → m.1 ∈ s.speakers t') := by
  have hdistinct := members_distinct h3D hcoherent ht hselects hne
  have hcombine := combine_tripletGains h3D hcoherent ht p
  have hp : p ≠ ⟨0, 0, 0⟩ := by
    rintro rfl
    exact hne (tripletGains_zero j)
  generalize hg : s.tripletGains p j = g at *
  have hnonzero := assigned_flipped_ne_zero_iff h3D hdistinct g
  have hzero : ∀ l ∉ s.speakers t, s.assigned t (flipped g) l = 0 := assigned_zero h3D _
  have hsum := weightedSum_assigned h3D hdistinct math (flipped g)
  have hmembers := assigned_members h3D hdistinct (flipped g)
  -- gains outside are flipped; the third one then has to vanish
  have hnear : ¬s.inside g = true → (∀ l, 0 ≤ s.assigned t (flipped g) l) → g.z = 0 := by
    intro hinside hnonneg
    obtain ⟨hflipped, -, -, hz⟩ := flipped_of_not_inside h3D hselects hinside
    have hthird := hnonneg t.2.2
    rw [hmembers.2.2, hflipped] at hthird
    exact le_antisymm hz hthird
  constructor
  · rintro ⟨hnonneg, t', ht', hrep⟩
    -- the triplet represents the position or, if it is near, the opposite one
    obtain ⟨q, hq, hrep⟩ : ∃ q, (q = p ∨ s.IsNear math t' ∧ q = opposite p) ∧
        s.Represents math t' q (s.assigned t (flipped g)) := by
      rcases hrep with hrep | ⟨hnear, hrep⟩
      · exact ⟨p, Or.inl rfl, hrep⟩
      · exact ⟨opposite p, Or.inr ⟨hnear, rfl⟩, hrep⟩
    have hq0 : q ≠ ⟨0, 0, 0⟩ := by
      rcases hq with rfl | ⟨-, rfl⟩
      · exact hp
      · exact fun h => hp (opposite_eq_zero_iff.mp h)
    have hcombineq : combine (s.direction math t.1) (s.direction math t.2.1)
        (s.direction math t.2.2) (flipped g) = q := by
      rw [← hsum, weightedSum_eq_of_zero hzero hrep.zero, hrep.sum]
    have hdet : Vector3D.det (s.direction math t.1) (s.direction math t.2.1)
        (s.direction math t.2.2) ≠ 0 := by
      intro hdet
      rw [if_pos hdet] at hcombine
      refine hq0 (hcombineq.symm.trans ?_)
      by_cases hinside : s.inside g = true
      · rw [(flipped_of_inside h3D hinside).1, hcombine]
      · rw [combine_flipped h3D hselects hinside (hnear hinside hnonneg), hcombine]
        exact opposite_eq_zero_iff.mpr rfl
    rw [if_neg hdet] at hcombine
    refine ⟨hdet, fun m hm hne => hrep.unit _ ((hnonzero _).mpr ⟨m, hm, hne, rfl⟩), ?_⟩
    by_cases hinside : s.inside g = true
    · exact Or.inl hinside
    · have hz := hnear hinside hnonneg
      -- flipped gains represent the opposite position
      have hqp : q = opposite p := by
        rw [← hcombineq, combine_flipped h3D hselects hinside hz, hcombine]
      rcases hq with heq | ⟨hnear', -⟩
      · exact absurd (eq_zero_of_opposite (heq.symm.trans hqp)) hp
      · refine Or.inr ⟨hz, t', ht', hnear', fun m hm hne => ?_⟩
        by_contra hnot
        exact (hnonzero m.1).mpr ⟨m, hm, hne, rfl⟩ (hrep.zero _ hnot)
  · rintro ⟨hdet, hunit, hcases⟩
    rw [if_neg hdet] at hcombine
    have hunits : ∀ l, s.assigned t (flipped g) l ≠ 0 →
        (s.direction math l).dot (s.direction math l) = 1 := by
      intro l hl
      obtain ⟨m, hm, hne, rfl⟩ := (hnonzero l).mp hl
      exact hunit m hm hne
    by_cases hinside : s.inside g = true
    · obtain ⟨hflipped, hx, hy, hz⟩ := flipped_of_inside h3D hinside
      refine ⟨assigned_nonneg ?_, t, List.mem_of_getElem? ht, Or.inl ⟨hzero, ?_, hunits⟩⟩
      · rw [hflipped]
        exact ⟨hx, hy, hz⟩
      · rw [hsum, hflipped, hcombine]
    · obtain ⟨hz, t', ht', hnear', hsupport⟩ := hcases.resolve_left hinside
      obtain ⟨hflipped, hx, hy, -⟩ := flipped_of_not_inside h3D hselects hinside
      have hzero' : ∀ l ∉ s.speakers t', s.assigned t (flipped g) l = 0 := by
        intro l hl
        by_contra hne
        obtain ⟨m, hm, hmne, rfl⟩ := (hnonzero l).mp hne
        exact hl (hsupport m hm hmne)
      refine ⟨assigned_nonneg ?_, t', ht', Or.inr ⟨hnear', hzero', ?_, hunits⟩⟩
      · rw [hflipped]
        exact ⟨neg_nonneg.mpr hx, neg_nonneg.mpr hy, hz.ge⟩
      · rw [← weightedSum_eq_of_zero hzero hzero', hsum, combine_flipped h3D hselects hinside hz,
          hcombine]

/-- **When the gains are as expected**, for any calls and any source. -/
theorem inRange_iff (math : CMath K) (lsarray : LoudspeakerArray K) (calls : List (Call K))
    (pos : Vector3D K) (planeWave : Bool) :
    (run math lsarray calls).InRange math pos planeWave ↔
      (run math lsarray calls).Sound math pos planeWave := by
  have hcoherent := coherent_run math lsarray calls
  generalize run math lsarray calls = s at hcoherent
  by_cases hnil : s.triplets = []
  · exact iff_of_true (inRange_of_nil hnil) (Or.inl hnil)
  cases h2D : s.is2D with
  | true =>
    refine iff_of_false (fun h => hnil (triplets_eq_nil h h2D)) ?_
    rintro (h | ⟨h, -⟩)
    · exact hnil h
    · rw [h2D] at h
      cases h
  | false =>
    unfold Sound
    rw [or_iff_right hnil, and_iff_right h2D]
    cases haccepted : s.accepted (s.relativePosition pos planeWave) with
    | none =>
      have hzero := calcPlainGains_of_none haccepted
      refine iff_of_true ⟨fun l => (hzero l).ge, Or.inl hzero, fun h => ?_⟩ nofun
      rw [h2D] at h
      cases h
    | some j =>
      obtain ⟨hlt, hselects⟩ := selects_of_accepted haccepted
      obtain ⟨t, ht⟩ : ∃ t, s.triplets[j]? = some t := ⟨_, List.getElem?_eq_getElem hlt⟩
      have hgains := calcPlainGains_of_accepted haccepted ht
      have haccess : ∀ h : s.is2D = true,
          ∀ access ∈ s.positionReads ++ s.gainWrites pos planeWave, access.2 ≠ 2 := by
        intro h
        rw [h2D] at h
        cases h
      -- only the first triplet that is accepted counts
      have honly : ∀ {P : ℕ → ℕ × ℕ × ℕ → Prop}, (∀ j' t', some j = some j' →
          s.triplets[j']? = some t' → P j' t') ↔ P j t := by
        intro P
        constructor
        · exact fun h => h j t rfl ht
        · rintro h j' t' hj ht'
          obtain rfl := Option.some.inj hj
          obtain rfl := Option.some.inj (ht.symm.trans ht')
          exact h
      rw [honly]
      dsimp only
      by_cases hne : s.tripletGains (s.relativePosition pos planeWave) j = ⟨0, 0, 0⟩
      · have hzero : ∀ l, s.calcPlainGains pos planeWave l = 0 := by
          intro l
          rw [hgains, hne, VBAP.assigned_apply]
          simp [flipped]
        exact iff_of_true ⟨fun l => (hzero l).ge, Or.inl hzero, haccess⟩ (Or.inl hne)
      · rw [or_iff_right hne, ← accepted_iff hcoherent h2D hselects ht hne, ← hgains]
        have hdistinct := members_distinct h2D hcoherent ht hselects hne
        have hsome : ¬∀ l, s.calcPlainGains pos planeWave l = 0 := by
          rw [hgains]
          exact fun hzero => hne ((assigned_flipped_eq_zero_iff h2D hdistinct _).mp hzero)
        exact ⟨fun h => ⟨h.nonneg, h.triplet.resolve_left hsome⟩,
          fun h => ⟨h.1, Or.inr h.2, haccess⟩⟩

end Condition

/-! ### Loudspeakers on the axes -/

/-- Exact square roots of rational squares; there are no angles. -/
def rationalRoots : CMath ℚ := ⟨Rat.sqrt, fun _ => 1, fun _ => 0, 0⟩

/-- An array of three loudspeakers, with a triplet or with a pair of the first two. -/
def axesArray (is2D : Bool) : LoudspeakerArray ℚ where
  is2D := is2D
  isInfinite := false
  numberOfSpeakers := 3
  position := fun i => if i = 0 then ⟨1, 0, 0, false⟩ else
    if i = 1 then ⟨0, 1, 0, false⟩ else ⟨0, 0, 1, false⟩
  triplet := [(0, 1, if is2D then LoudspeakerArray.unusedIndex else 2)]
  channel := [0, 1, 2]
  id := OrderedMap.empty
  subwooferChannels := []
  subwooferGains := fun _ _ => 0
  reRoutingCoeff := fun _ _ => 0
  gainAdjustment := fun _ => 1
  delayAdjustment := fun _ => 0
  outputEqs := none

/-- A plane wave from between the loudspeakers of a triplet, after the threshold has been
changed. -/
theorem inRange_between : (run rationalRoots (axesArray false)
    [.setNearTripletBoundaryCosTheta 1]).InRange rationalRoots ⟨1, 1, 1⟩ true := by
  refine (inRange_iff _ _ _ _ _).mpr (Or.inr ⟨rfl, fun j t hj ht => Or.inr ⟨?_, ?_, Or.inl ?_⟩⟩)
  all_goals
    obtain rfl : 0 = j := Option.some.inj ((by decide +kernel : some 0 = _).trans hj)
    obtain rfl : (0, 1, 2) = t := Option.some.inj ht
  · decide +kernel
  · have hunit : ∀ l < 3, ((run rationalRoots (axesArray false)
        [.setNearTripletBoundaryCosTheta 1]).direction rationalRoots l).dot
          ((run rationalRoots (axesArray false)
            [.setNearTripletBoundaryCosTheta 1]).direction rationalRoots l) = 1 := by
      decide +kernel
    unfold members
    intro m hm _
    simp only [List.mem_cons, List.not_mem_nil, or_false] at hm
    rcases hm with rfl | rfl | rfl
    · exact hunit 0 (by decide)
    · exact hunit 1 (by decide)
    · exact hunit 2 (by decide)
  · decide +kernel

/-- A pair of loudspeakers: the matrices are computed from a position with the unused index. -/
theorem not_inRange_pair :
    ((run rationalRoots (axesArray true) []).triplets[0]?.map fun t => t.2.2) =
        some LoudspeakerArray.unusedIndex ∧
      (0, 2) ∈ (run rationalRoots (axesArray true) []).positionReads ∧
      ¬(run rationalRoots (axesArray true) []).InRange rationalRoots ⟨1, 1, 0⟩ true := by
  have hread : (0, 2) ∈ (run rationalRoots (axesArray true) []).positionReads := by decide
  exact ⟨rfl, hread, fun h => h.members rfl (0, 2) (List.mem_append_left _ hread) rfl⟩

end CAP_VBAP

end Visr
