import Mathlib.Algebra.BigOperators.Group.Finset.Basic
import Mathlib.Data.Fin.VecNotation
import Visr.Libefl.VectorFunctions
import Visr.Libpanning.LoudspeakerArray
import Visr.Library.Vector3D

/-!
# Vector base amplitude panning

A source is played back by one triplet of loudspeakers, with gains that are the coordinates of its
position with respect to the directions of these loudspeakers.

## Main results

* `VBAP.tripletGains_setListenerPosition` — the gains of a triplet are coordinates.
* `VBAP.searchTriplets_spec` — what the search finds.
* `VBAP.applyRerouting_eq` — the gains after rerouting.
-/

namespace Visr

open Vector3D

variable {K : Type} [Field K] [LinearOrder K]

/-- The rows of the inverse matrices have nine elements. -/
structure VBAP (K : Type) where
  is2D : Bool
  numTotLoudspeakers : ℕ
  numRegLoudspeakers : ℕ
  numVirtLoudspeakers : ℕ
  positions : ℕ → Vector3D K
  triplets : List (ℕ × ℕ × ℕ)
  reroutingMatrix : ℕ → ℕ → K
  listenerPos : Vector3D K
  invMatrix : ℕ → Fin 9 → K

namespace VBAP

section Matrices

variable (sqrt : K → K)

/-- A vector of unit length, unless it is very short. -/
def normalise (a : Vector3D K) : Vector3D K :=
  let l := sqrt (a.x * a.x + a.y * a.y + a.z * a.z)
  if l ≥ epsilon K then a.scale l else a

/-- The inverse of the matrix of three vectors. -/
def inverseMatrix (l1 l2 l3 : Vector3D K) : Fin 9 → K :=
  let temp := l1.x * (l2.y * l3.z - l2.z * l3.y) - l1.y * (l2.x * l3.z - l2.z * l3.x) +
    l1.z * (l2.x * l3.y - l2.y * l3.x)
  let det := if temp ≠ 0 then 1 / temp else 1
  ![(l2.y * l3.z - l2.z * l3.y) * det,
    (l2.x * l3.z - l2.z * l3.x) * -det,
    (l2.x * l3.y - l2.y * l3.x) * det,
    (l1.y * l3.z - l1.z * l3.y) * -det,
    (l1.x * l3.z - l1.z * l3.x) * det,
    (l1.x * l3.y - l1.y * l3.x) * -det,
    (l1.y * l2.z - l1.z * l2.y) * det,
    (l1.x * l2.z - l1.z * l2.x) * -det,
    (l1.x * l2.y - l1.y * l2.x) * det]

/-- The vectors of a triplet.  In the 2D case, the third one is vertical. -/
def tripletVectors (s : VBAP K) (triplet : ℕ × ℕ × ℕ) : Vector3D K × Vector3D K × Vector3D K :=
  let l1 := s.positions triplet.1
  let l2 := s.positions triplet.2.1
  let l3 := if s.is2D then ⟨0, 0, 1⟩ else s.positions triplet.2.2
  (normalise sqrt (l1.sub s.listenerPos), normalise sqrt (l2.sub s.listenerPos),
    normalise sqrt (l3.sub s.listenerPos))

def calcInvMatrices (s : VBAP K) : VBAP K :=
  { s with invMatrix := fun i =>
      match s.triplets[i]? with
      | some triplet =>
        let (l1, l2, l3) := s.tripletVectors sqrt triplet
        inverseMatrix l1 l2 l3
      | none => s.invMatrix i }

def setListenerPosition (s : VBAP K) (listenerPos : Vector3D K) : VBAP K :=
  calcInvMatrices sqrt { s with listenerPos := listenerPos }

/-- Only the last position of the listener counts. -/
theorem setListenerPosition_idem (s : VBAP K) (pos pos' : Vector3D K) :
    setListenerPosition sqrt (setListenerPosition sqrt s pos') pos =
      setListenerPosition sqrt s pos := by
  unfold setListenerPosition calcInvMatrices
  congr 1
  funext i
  dsimp only
  cases s.triplets[i]? with
  | none => rfl
  | some triplet => rfl

/-- The constructor. -/
def create (lsarray : LoudspeakerArray K) (listenerPos : Vector3D K) : VBAP K :=
  setListenerPosition sqrt {
    is2D := lsarray.is2D
    numTotLoudspeakers := lsarray.getNumSpeakers
    numRegLoudspeakers := lsarray.getNumRegularSpeakers
    numVirtLoudspeakers := lsarray.getNumSpeakers - lsarray.getNumRegularSpeakers
    positions := fun i => ⟨(lsarray.position i).x, (lsarray.position i).y, (lsarray.position i).z⟩
    triplets := lsarray.triplet
    reroutingMatrix := lsarray.reRoutingCoeff
    listenerPos := listenerPos
    invMatrix := fun _ _ => 0 } listenerPos

end Matrices

/-- The source as it is seen by the listener. -/
def relativePosition (s : VBAP K) (pos : Vector3D K) (planeWave : Bool) : Vector3D K :=
  let p := if planeWave then pos else pos.sub s.listenerPos
  if s.is2D then { p with z := 0 } else p

/-- The gains of the triplet with the index `j`. -/
def tripletGains (s : VBAP K) (p : Vector3D K) (j : ℕ) : Vector3D K :=
  let inv := s.invMatrix j
  ⟨p.x * inv 0 + p.y * inv 1 + p.z * inv 2, p.x * inv 3 + p.y * inv 4 + p.z * inv 5,
    p.x * inv 6 + p.y * inv 7 + p.z * inv 8⟩

/-- The variables of the search: the candidate with its gains, and the smallest of them. -/
structure Candidate (K : Type) where
  jmin : ℕ
  gains : Vector3D K
  gmin : K

/-- The source is inside the triplet, or between both loudspeakers in the 2D case. -/
def inside (s : VBAP K) (g : Vector3D K) : Bool :=
  decide (0 ≤ g.x) && decide (0 ≤ g.y) && (decide (0 ≤ g.z) || s.is2D)

/-- The loop over the triplets. -/
def searchTriplets (s : VBAP K) (p : Vector3D K) :
    List ℕ → Option (Candidate K) → Option (Candidate K)
  | [], candidate => candidate
  | j :: rest, candidate =>
    let g := s.tripletGains p j
    if s.inside g then
      -- The search ends.
      some ⟨j, g, (candidate.elim 0 Candidate.gmin)⟩
    else if g.negatives ≤ 1 ∧
        candidate.all fun c => decide (c.gmin < g.x) && decide (c.gmin < g.y) && decide (c.gmin < g.z)
    then
      let gmin := g.x
      let gmin := if g.y < gmin then g.y else gmin
      let gmin := if g.z < gmin then g.z else gmin
      s.searchTriplets p rest (some ⟨j, g, gmin⟩)
    else s.searchTriplets p rest candidate

/-- The gains of all loudspeakers. -/
def calcPlainVBAP (s : VBAP K) (pos : Vector3D K) (planeWave : Bool) : Except Exception (ℕ → K) :=
  match s.searchTriplets (s.relativePosition pos planeWave) (List.range s.triplets.length) none with
  | none => .error (.runtimeError "calcPlainVBAP: no triplet with a correct gain.")
  | some candidate =>
    let (l1, l2, l3) := s.triplets.getD candidate.jmin (0, 0, 0)
    let gain := Function.update (fun _ => 0) l1 candidate.gains.x
    let gain := Function.update gain l2 candidate.gains.y
    .ok (if s.is2D then gain else Function.update gain l3 candidate.gains.z)

/-- The gains of the virtual loudspeakers are added to those of the regular ones. -/
def applyRerouting (s : VBAP K) (gain : ℕ → K) : ℕ → K :=
  (List.range s.numRegLoudspeakers).foldl (fun gain i =>
    (List.range s.numVirtLoudspeakers).foldl (fun gain j =>
      Function.update gain i
        (gain i + s.reroutingMatrix j i * gain (s.numRegLoudspeakers + j))) gain) gain

/-- The gains of the regular loudspeakers. -/
def calculateGainsUnNormalised (s : VBAP K) (pos : Vector3D K) (planeWave : Bool) :
    Except Exception (ℕ → K) :=
  match s.calcPlainVBAP pos planeWave with
  | .ok gain => .ok (s.applyRerouting gain)
  | .error e => .error e

/-- The gains are scaled to the power one, unless they are very small.  The alignment of zero, for
which the multiplication asks, is met by all vectors. -/
def powerNormalisation (sqrt : K → K) (input : ℕ → K) (numberOfElements : ℕ) : ℕ → K :=
  let sigPower := (List.range numberOfElements).foldl (fun acc i => acc + input i * input i) 0
  let normFactor := 1 / max (sqrt sigPower) (epsilon K)
  fun i => normFactor * input i

/-- The gains of the regular loudspeakers after normalisation. -/
def calculateGains (sqrt : K → K) (s : VBAP K) (pos : Vector3D K) (planeWave : Bool) :
    Except Exception (ℕ → K) :=
  match s.calcPlainVBAP pos planeWave with
  | .ok gain => .ok (powerNormalisation sqrt (s.applyRerouting gain) s.numRegLoudspeakers)
  | .error e => .error e

/-! ### The gains of a triplet -/

section Gains

variable (sqrt : K → K)

theorem inverseMatrix_mul {l1 l2 l3 : Vector3D K} (h : Vector3D.det l1 l2 l3 ≠ 0) (p : Vector3D K) :
    (⟨p.x * inverseMatrix l1 l2 l3 0 + p.y * inverseMatrix l1 l2 l3 1 +
          p.z * inverseMatrix l1 l2 l3 2,
        p.x * inverseMatrix l1 l2 l3 3 + p.y * inverseMatrix l1 l2 l3 4 +
          p.z * inverseMatrix l1 l2 l3 5,
        p.x * inverseMatrix l1 l2 l3 6 + p.y * inverseMatrix l1 l2 l3 7 +
          p.z * inverseMatrix l1 l2 l3 8⟩ : Vector3D K) = coordinates l1 l2 l3 p := by
  -- the denominator is the determinant, and the rows are cofactors
  have htemp : l1.x * (l2.y * l3.z - l2.z * l3.y) - l1.y * (l2.x * l3.z - l2.z * l3.x) +
      l1.z * (l2.x * l3.y - l2.y * l3.x) = Vector3D.det l1 l2 l3 := by
    unfold Vector3D.det dot cross
    ring
  unfold inverseMatrix coordinates
  rw [htemp, if_pos h]
  ext
  · show p.x * ((l2.y * l3.z - l2.z * l3.y) * (1 / Vector3D.det l1 l2 l3)) +
      p.y * ((l2.x * l3.z - l2.z * l3.x) * -(1 / Vector3D.det l1 l2 l3)) +
      p.z * ((l2.x * l3.y - l2.y * l3.x) * (1 / Vector3D.det l1 l2 l3)) =
        p.dot (l2.cross l3) / Vector3D.det l1 l2 l3
    unfold dot cross
    ring
  · show p.x * ((l1.y * l3.z - l1.z * l3.y) * -(1 / Vector3D.det l1 l2 l3)) +
      p.y * ((l1.x * l3.z - l1.z * l3.x) * (1 / Vector3D.det l1 l2 l3)) +
      p.z * ((l1.x * l3.y - l1.y * l3.x) * -(1 / Vector3D.det l1 l2 l3)) =
        p.dot (l3.cross l1) / Vector3D.det l1 l2 l3
    unfold dot cross
    ring
  · show p.x * ((l1.y * l2.z - l1.z * l2.y) * (1 / Vector3D.det l1 l2 l3)) +
      p.y * ((l1.x * l2.z - l1.z * l2.x) * -(1 / Vector3D.det l1 l2 l3)) +
      p.z * ((l1.x * l2.y - l1.y * l2.x) * (1 / Vector3D.det l1 l2 l3)) =
        p.dot (l1.cross l2) / Vector3D.det l1 l2 l3
    unfold dot cross
    ring

/-- **The gains of a triplet** are the coordinates of the source. -/
theorem tripletGains_calcInvMatrices (s : VBAP K) (p : Vector3D K) {j : ℕ} {triplet : ℕ × ℕ × ℕ}
    (hj : s.triplets[j]? = some triplet) {l1 l2 l3 : Vector3D K}
    (hvectors : s.tripletVectors sqrt triplet = (l1, l2, l3))
    (hdet : Vector3D.det l1 l2 l3 ≠ 0) :
    (s.calcInvMatrices sqrt).tripletGains p j = coordinates l1 l2 l3 p := by
  have hmatrix : (s.calcInvMatrices sqrt).invMatrix j = inverseMatrix l1 l2 l3 := by
    show (match s.triplets[j]? with
      | some triplet =>
        let (l1, l2, l3) := s.tripletVectors sqrt triplet
        inverseMatrix l1 l2 l3
      | none => s.invMatrix j) = _
    rw [hj]
    dsimp only
    rw [hvectors]
  rw [← inverseMatrix_mul hdet, tripletGains, hmatrix]

end Gains

/-! ### The search -/

section Search

variable (s : VBAP K) (p : Vector3D K)

/-- What is known after some triplets, none of which has the source inside. -/
structure Searched (done : List ℕ) (candidate : Option (Candidate K)) : Prop where
  outside : ∀ j ∈ done, s.inside (s.tripletGains p j) = false
  none : candidate = none → ∀ j ∈ done, 2 ≤ (s.tripletGains p j).negatives
  some : ∀ c, candidate = some c → c.jmin ∈ done ∧ c.gains = s.tripletGains p c.jmin ∧
    c.gmin = c.gains.least ∧ c.gains.negatives ≤ 1 ∧
    ∀ j ∈ done, (s.tripletGains p j).negatives ≤ 1 → (s.tripletGains p j).least ≤ c.gains.least

/-- The result of the search: a triplet with the source inside, or the best one, or none. -/
def Found (all : List ℕ) : Option (Candidate K) → Prop
  | none => ∀ j ∈ all, 2 ≤ (s.tripletGains p j).negatives
  | some c => c.jmin ∈ all ∧ c.gains = s.tripletGains p c.jmin ∧
    (s.inside c.gains = true ∨
      (∀ j ∈ all, s.inside (s.tripletGains p j) = false) ∧ c.gains.negatives ≤ 1 ∧
        ∀ j ∈ all, (s.tripletGains p j).negatives ≤ 1 →
          (s.tripletGains p j).least ≤ c.gains.least)

omit [Field K] in
/-- The smallest gain, as the search computes it. -/
theorem gmin_eq_least (g : Vector3D K) :
    (if g.z < (if g.y < g.x then g.y else g.x) then g.z else if g.y < g.x then g.y else g.x) =
      g.least := by
  have hmin : ∀ a b : K, (if b < a then b else a) = min a b := by
    intro a b
    split
    next h => exact (min_eq_right h.le).symm
    next h => exact (min_eq_left (not_lt.mp h)).symm
  rw [hmin, hmin]
  rfl

variable {s p}

theorem searchTriplets_spec (rest : List ℕ) {done : List ℕ} {candidate : Option (Candidate K)}
    (h : s.Searched p done candidate) :
    s.Found p (done ++ rest) (s.searchTriplets p rest candidate) := by
  -- by induction on the triplets that are left
  induction rest generalizing done candidate with
  | nil =>
    rw [List.append_nil, searchTriplets]
    cases candidate with
    | none => exact h.none rfl
    | some c =>
      obtain ⟨hmem, hgains, -, hnegatives, hbest⟩ := h.some c rfl
      exact ⟨hmem, hgains, Or.inr ⟨h.outside, hnegatives, hbest⟩⟩
  | cons j rest ih =>
    have happend : done ++ j :: rest = (done ++ [j]) ++ rest := by
      rw [List.append_assoc]
      rfl
    rw [searchTriplets]
    by_cases hinside : s.inside (s.tripletGains p j) = true
    · rw [if_pos hinside]
      exact ⟨List.mem_append_right _ List.mem_cons_self, rfl, Or.inl hinside⟩
    · have houtside : ∀ i ∈ done ++ [j], s.inside (s.tripletGains p i) = false := by
        rintro i hi
        rcases List.mem_append.mp hi with hi | hi
        · exact h.outside i hi
        · rw [List.mem_singleton.mp hi]
          exact eq_false_of_ne_true hinside
      rw [if_neg hinside, happend]
      -- the fallback is the triplet whose least gain is the largest
      by_cases hnegatives : (s.tripletGains p j).negatives ≤ 1
      · by_cases hbetter : (candidate.all fun c => decide (c.gmin < (s.tripletGains p j).x) &&
            decide (c.gmin < (s.tripletGains p j).y) &&
            decide (c.gmin < (s.tripletGains p j).z)) = true
        · -- The new triplet is better than all those before.
          rw [if_pos ⟨hnegatives, hbetter⟩]
          refine ih ⟨houtside, nofun, ?_⟩
          rintro c ⟨⟩
          refine ⟨List.mem_append_right _ List.mem_cons_self, rfl, gmin_eq_least _, hnegatives, ?_⟩
          intro i hi hone
          rcases List.mem_append.mp hi with hi | hi
          · cases candidate with
            | none =>
              have htwo := h.none rfl i hi
              omega
            | some c =>
              obtain ⟨-, -, hgmin, -, hbest⟩ := h.some c rfl
              have hlt : c.gmin < (s.tripletGains p j).least := by
                simpa [least, and_assoc] using hbetter
              rw [hgmin] at hlt
              exact (hbest i hi hone).trans hlt.le
          · rw [List.mem_singleton.mp hi]
        · rw [if_neg fun hcond => hbetter hcond.2]
          cases candidate with
          | none => exact absurd rfl hbetter
          | some c =>
            obtain ⟨hmem, hgains, hgmin, hfew, hbest⟩ := h.some c rfl
            refine ih ⟨houtside, nofun, ?_⟩
            rintro c' ⟨⟩
            refine ⟨List.mem_append_left _ hmem, hgains, hgmin, hfew, fun i hi hone => ?_⟩
            rcases List.mem_append.mp hi with hi | hi
            · exact hbest i hi hone
            · rw [List.mem_singleton.mp hi]
              have hle : ¬ c.gmin < (s.tripletGains p j).least := by
                intro hlt
                refine hbetter ?_
                simpa [least, and_assoc] using hlt
              rw [hgmin] at hle
              exact not_lt.mp hle
      · rw [if_neg fun hcond => hnegatives hcond.1]
        refine ih ⟨houtside, ?_, ?_⟩
        · intro hnone i hi
          rcases List.mem_append.mp hi with hi | hi
          · exact h.none hnone i hi
          · rw [List.mem_singleton.mp hi]
            omega
        · intro c hc
          obtain ⟨hmem, hgains, hgmin, hfew, hbest⟩ := h.some c hc
          refine ⟨List.mem_append_left _ hmem, hgains, hgmin, hfew, fun i hi hone => ?_⟩
          rcases List.mem_append.mp hi with hi | hi
          · exact hbest i hi hone
          · rw [List.mem_singleton.mp hi] at hone
            exact absurd hone hnegatives

/-- What the search finds among all triplets. -/
theorem searchTriplets_found :
    s.Found p (List.range s.triplets.length)
      (s.searchTriplets p (List.range s.triplets.length) none) :=
  searchTriplets_spec (List.range s.triplets.length)
    (show s.Searched p [] none from
      ⟨List.forall_mem_nil _, fun _ => List.forall_mem_nil _, nofun⟩)

end Search

/-! ### Rerouting -/

omit [LinearOrder K] in
/-- One gain after the virtual loudspeakers have been added. -/
theorem foldl_reroute (s : VBAP K) {i : ℕ} (hi : i < s.numRegLoudspeakers) (n : ℕ) (gain : ℕ → K) :
    (List.range n).foldl (fun gain j => Function.update gain i
      (gain i + s.reroutingMatrix j i * gain (s.numRegLoudspeakers + j))) gain =
      Function.update gain i (gain i + ∑ j ∈ Finset.range n,
        s.reroutingMatrix j i * gain (s.numRegLoudspeakers + j)) := by
  induction n with
  | zero =>
    rw [List.range_zero, List.foldl_nil, Finset.sum_range_zero, add_zero, Function.update_eq_self]
  | succ n ih =>
    have hvirtual : s.numRegLoudspeakers + n ≠ i := by omega
    rw [List.range_succ, List.foldl_append, ih, List.foldl_cons, List.foldl_nil,
      Function.update_idem, Function.update_self, Function.update_of_ne hvirtual,
      Finset.sum_range_succ, add_assoc]

omit [LinearOrder K] in
/-- **The gains after rerouting.** -/
theorem applyRerouting_eq (s : VBAP K) (gain : ℕ → K) (l : ℕ) :
    s.applyRerouting gain l =
      if l < s.numRegLoudspeakers then
        gain l + ∑ j ∈ Finset.range s.numVirtLoudspeakers,
          s.reroutingMatrix j l * gain (s.numRegLoudspeakers + j)
      else gain l := by
  have hall : ∀ n, n ≤ s.numRegLoudspeakers → ∀ l,
      (List.range n).foldl (fun gain i =>
        (List.range s.numVirtLoudspeakers).foldl (fun gain j => Function.update gain i
          (gain i + s.reroutingMatrix j i * gain (s.numRegLoudspeakers + j))) gain) gain l =
      if l < n then
        gain l + ∑ j ∈ Finset.range s.numVirtLoudspeakers,
          s.reroutingMatrix j l * gain (s.numRegLoudspeakers + j)
      else gain l := by
    intro n
    induction n with
    | zero => exact fun _ l => (if_neg (Nat.not_lt_zero l)).symm
    | succ n ih =>
      intro hn l
      have ih := ih (by omega)
      rw [List.range_succ, List.foldl_append, List.foldl_cons, List.foldl_nil,
        foldl_reroute s (by omega)]
      -- the gains of the virtual loudspeakers are behind the ones that are changed
      by_cases hl : l = n
      · subst hl
        rw [Function.update_self, ih, if_neg (by omega), if_pos (by omega)]
        refine congrArg (gain l + ·) (Finset.sum_congr rfl fun j _ => ?_)
        rw [ih, if_neg (by omega)]
      · rw [Function.update_of_ne hl, ih]
        by_cases hlt : l < n
        · rw [if_pos hlt, if_pos (by omega)]
        · rw [if_neg hlt, if_neg (by omega)]
  exact hall s.numRegLoudspeakers (Nat.le_refl _) l

end VBAP

end Visr
