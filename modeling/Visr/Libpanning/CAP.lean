import Visr.Libpanning.VBAP

/-!
# Compensated amplitude panning

Panning that depends on the position of the listener and on the direction of the axis through the
ears, and amplitude panning for the listener's position at higher frequencies.

## Main results

* `CAP_VBAP.setListenerPosition_idem` — only the last position of the listener counts.
-/

namespace Visr

open Vector3D

/-- The functions and constants of the mathematics libraries. -/
structure CMath (K : Type) where
  sqrt : K → K
  cos : K → K
  sin : K → K
  degree : K

variable {K : Type} [Field K] [LinearOrder K]

/-- The square roots are exact. -/
structure CMath.Exact (math : CMath K) : Prop where
  sqrt_nonneg : ∀ x, 0 ≤ x → 0 ≤ math.sqrt x
  sqrt_mul_self : ∀ x, 0 ≤ x → math.sqrt x * math.sqrt x = x

namespace XYZ

omit [LinearOrder K] in
def getLength (math : CMath K) (v : Vector3D K) : K :=
  math.sqrt (v.x * v.x + v.y * v.y + v.z * v.z)

/-- `XYZ::normalise()`, where only the zero vector is not scaled. -/
def normalise (math : CMath K) (v : Vector3D K) : Vector3D K :=
  let l := getLength math v
  if l ≠ 0 then v.scale l else v

/-- The coordinates. -/
def vector (p : XYZ K) : Vector3D K := ⟨p.x, p.y, p.z⟩

end XYZ

structure CAP (K : Type) where
  array : LoudspeakerArray K
  listenerPos : Vector3D K
  listenerAuralAxis : Vector3D K
  nSources : ℕ
  maxGainPreComp : K
  maxGain : K
  HFmode : Bool

namespace CAP

variable (math : CMath K)

def setListenerPosition (s : CAP K) (x y z : K) : CAP K := { s with listenerPos := ⟨x, y, z⟩ }

def setListenerAuralAxis (s : CAP K) (x y z : K) : CAP K :=
  { s with listenerAuralAxis := ⟨x, y, z⟩ }

/-- The axis through the ears, for angles in radian. -/
def setListenerOrientation (s : CAP K) (yaw pitch roll : K) : CAP K :=
  let cy := math.cos yaw
  let sy := math.sin yaw
  let cp := math.cos pitch
  let sp := math.sin pitch
  let cr := math.cos roll
  let sr := math.sin roll
  { s with listenerAuralAxis := ⟨cy * sp * sr - sy * cr, sy * sp * sr + cy * cr, -cp * sr⟩ }

/-- The direction from the listener to a loudspeaker. -/
def speakerDirection (s : CAP K) (i : ℕ) : Vector3D K :=
  XYZ.normalise math ((s.array.position i).vector.sub s.listenerPos)

/-- The image as it is seen by the listener. -/
def imagePosition (s : CAP K) (source : XYZ K) : Vector3D K :=
  if source.isInfinite then source.vector else source.vector.sub s.listenerPos

/-- Three or more loudspeakers: the gains of minimal energy. -/
def energyGains (s : CAP K) (n : ℕ) (source : XYZ K) (i : ℕ) : K :=
  let rI0 := XYZ.getLength math source.vector
  let rI' := s.imagePosition source
  let rI_ := XYZ.getLength math rI'
  let rI := XYZ.normalise math rI'
  let a := fun i => s.listenerAuralAxis.dot ((s.speakerDirection math i).sub rI)
  let b := (List.range n).foldl (fun b i => b + a i) 0
  let c := (List.range n).foldl (fun c i => c + a i * a i) 0
  let d := (c * n - b * b) * (rI_ + 1 / 100) / rI0
  let g := fun i => (-b * a i + c) / d
  let gMax := (List.range n).foldl (fun gMax i => if g i > gMax then g i else gMax) 0
  if gMax > s.maxGain then g i * (s.maxGain / gMax) else g i

/-- Both gains are scaled if one of them exceeds a limit. -/
def limitGains (limit : K) (g : K × K) : K × K :=
  let gMax := if |g.2| > |g.1| then |g.2| else |g.1|
  if gMax > limit then (g.1 * (limit / gMax), g.2 * (limit / gMax)) else g

/-- Two loudspeakers: the linear formula. -/
def pairGains (s : CAP K) (source : XYZ K) : K × K :=
  let rI0 := XYZ.getLength math source.vector
  let rI' := s.imagePosition source
  let rI_ := XYZ.getLength math rI'
  let rI := XYZ.normalise math rI'
  let g1 := s.listenerAuralAxis.dot (rI.sub (s.speakerDirection math 1))
  let g2 := -s.listenerAuralAxis.dot (rI.sub (s.speakerDirection math 0))
  let d := |g1 + g2|
  let d := if d < 1 / 1000 then 1 / 1000 else d
  let g := (g1 / d, g2 / d)
  let g :=
    if s.HFmode then
      if g.1 * g.2 > 0 then
        let g := (math.sqrt g.1, math.sqrt g.2)
        let f := 1 / math.sqrt (g.1 * g.1 + g.2 * g.2)
        (g.1 * f, g.2 * f)
      else (0, 0)
    else g
  let g := limitGains s.maxGainPreComp g
  let rI_ := if rI_ < 1 / 1000 then 1 / 1000 else rI_
  let c := rI0 / rI_
  limitGains s.maxGain (g.1 * c, g.2 * c)

/-- The gain of a source, by the number of regular loudspeakers. -/
def calcGains (s : CAP K) (sourcePos : ℕ → XYZ K) (j i : ℕ) : K :=
  let n := s.array.getNumRegularSpeakers
  if n ≥ 3 then if i < n then s.energyGains math n (sourcePos j) i else 0
  else if n = 2 then
    let g := s.pairGains math (sourcePos j)
    if i = 0 then g.1 else if i = 1 then g.2 else 0
  else if i = 0 then 1 else 0

end CAP

/-! ### Amplitude panning without failures -/

structure CAP_VBAP (K : Type) extends VBAP K where
  isInfinite : Bool
  nearTripletBoundaryCosTheta : K
  listenerIsNearTripletBoundary : ℕ → Bool

namespace CAP_VBAP

variable (math : CMath K)

/-- The vectors of a triplet.  In the 2D case, the first two are horizontal and the third one is
vertical. -/
def tripletVectors (s : CAP_VBAP K) (triplet : ℕ × ℕ × ℕ) : Vector3D K × Vector3D K × Vector3D K :=
  let relative := fun i =>
    if s.isInfinite then s.positions i else (s.positions i).sub s.listenerPos
  let l1 := relative triplet.1
  let l2 := relative triplet.2.1
  let l3 := relative triplet.2.2
  let (l1, l2, l3) :=
    if s.is2D then ({ l1 with z := 0 }, { l2 with z := 0 }, up) else (l1, l2, l3)
  (VBAP.normalise math.sqrt l1, VBAP.normalise math.sqrt l2, VBAP.normalise math.sqrt l3)

def calcInvMatrices (s : CAP_VBAP K) : CAP_VBAP K :=
  { s with
    invMatrix := fun i =>
      match s.triplets[i]? with
      | some triplet =>
        let (l1, l2, l3) := s.tripletVectors math triplet
        VBAP.inverseMatrix l1 l2 l3
      | none => s.invMatrix i
    listenerIsNearTripletBoundary := fun i =>
      match s.triplets[i]? with
      | some triplet =>
        let (l1, l2, _) := s.tripletVectors math triplet
        decide (l1.x * l2.x + l1.y * l2.y < s.nearTripletBoundaryCosTheta)
      | none => s.listenerIsNearTripletBoundary i }

def setListenerPosition (s : CAP_VBAP K) (x y z : K) : CAP_VBAP K :=
  calcInvMatrices math { s with listenerPos := ⟨x, y, z⟩ }

/-- The constructor, for a listener in the origin. -/
def create (lsarray : LoudspeakerArray K) : CAP_VBAP K :=
  setListenerPosition math {
    toVBAP := VBAP.create math.sqrt lsarray ⟨0, 0, 0⟩
    isInfinite := lsarray.isInfinite
    nearTripletBoundaryCosTheta := -1
    listenerIsNearTripletBoundary := fun _ => false } 0 0 0

/-- The source is inside the triplet, or it is on the opposite side and the listener is near to
the boundary of the triplet. -/
def selects (s : CAP_VBAP K) (g : Vector3D K) (j : ℕ) : Bool :=
  s.inside g ||
    decide (g.x ≤ 0) && decide (g.y ≤ 0) && (decide (g.z ≤ 0) || s.is2D) &&
      s.listenerIsNearTripletBoundary j

/-- The gains of all loudspeakers, which are zero if no triplet is found. -/
def calcPlainGains (s : CAP_VBAP K) (pos : Vector3D K) (planeWave : Bool) : ℕ → K :=
  let p := s.relativePosition pos planeWave
  match (List.range s.triplets.length).find? fun j => s.selects (s.tripletGains p j) j with
  | none => fun _ => 0
  | some jmin =>
    let g := s.tripletGains p jmin
    let g := if g.x ≤ 0 ∧ g.y ≤ 0 then { g with x := -g.x, y := -g.y } else g
    let (l1, l2, l3) := s.triplets.getD jmin (0, 0, 0)
    let gain := Function.update (fun _ => 0) l1 g.x
    let gain := Function.update gain l2 g.y
    if s.is2D then gain else Function.update gain l3 g.z

def calculateGainsUnNormalised (s : CAP_VBAP K) (pos : Vector3D K) (planeWave : Bool) : ℕ → K :=
  s.applyRerouting (s.calcPlainGains pos planeWave)

/-- **Only the last position of the listener counts.** -/
theorem setListenerPosition_idem (s : CAP_VBAP K) (x y z x' y' z' : K) :
    (s.setListenerPosition math x' y' z').setListenerPosition math x y z =
      s.setListenerPosition math x y z := by
  unfold setListenerPosition calcInvMatrices
  congr 1
  · congr 1
    funext i
    dsimp only
    cases s.triplets[i]? with
    | none => rfl
    | some triplet => rfl
  · funext i
    dsimp only
    cases s.triplets[i]? with
    | none => rfl
    | some triplet => rfl

end CAP_VBAP

end Visr
