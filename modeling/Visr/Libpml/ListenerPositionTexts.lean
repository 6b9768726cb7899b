import Visr.Libpml.ListenerPosition
import Visr.Librbbl.RotationFormats
import Visr.Librbbl.WholeNumber

/-!
# Texts of listener positions

A listener position is written in one of three formats for the rotation, and read again.

## Main results

* `Pml.ListenerPosition.roundTrip_iff` — **the positions with a round trip**.
-/

namespace Visr

open PropertyTree Rbbl

open AngleFunctions (real)

namespace PropertyTree

theorem count_pos_iff {t : PropertyTree} {key : String} :
    0 < t.count key ↔ (t.find? key).isSome = true := by
  unfold count find?
  cases t.equalRange key <;> simp

theorem getDefault_of_find? {α : Type} {read : String → Option α} {key text : String}
    {t : PropertyTree} {value : α} (h : t.find? key = some (node text []))
    (hread : read text = some value) (default : α) : t.getDefault read [key] default = value := by
  rw [getDefault, getOptional_singleton, h]
  show (read text).getD default = value
  rw [hread]
  rfl

theorem getDefault_of_none {α : Type} {read : String → Option α} {key : String}
    {t : PropertyTree} (h : t.find? key = none) (default : α) :
    t.getDefault read [key] default = default := by
  rw [getDefault, getOptional_singleton, h]
  rfl

end PropertyTree

namespace Pml

namespace ListenerPosition

/-- The numbers that are written for a rotation. -/
noncomputable def rotationNumbers (q : Quaternion ℝ) : RotationFormat → List ℝ
  | .ypr =>
    [radian2degree real (yaw real q), radian2degree real (pitch real q),
      radian2degree real (roll real q)]
  | .rotationVector =>
    [radian2degree real (rotationAngle real q), (Rbbl.rotationVector real .float q).x,
      (Rbbl.rotationVector real .float q).y, (Rbbl.rotationVector real .float q).z]
  | .quaternion => [q.re, q.imI, q.imJ, q.imK]

end ListenerPosition

/-- The numbers and the tree of a position are read back exactly. -/
structure ListenerFormats.ReadsBack (formats : ListenerFormats ℝ) (pos : ListenerPosition ℝ)
    (rotationFormat : RotationFormat) : Prop where
  position : ∀ x ∈ [pos.position.x, pos.position.y, pos.position.z],
    formats.getCoordinate (formats.putCoordinate x) = some x
  rotation : ∀ x ∈ ListenerPosition.rotationNumbers pos.orientation rotationFormat,
    formats.getCoordinate (formats.putCoordinate x) = some x
  unsigned : ∀ n, formats.getUnsigned (formats.putUnsigned n) = some n
  size : ∀ n, formats.getSize (formats.putSize n) = some n
  json : ∀ prettyPrint, ∃ text,
    formats.writeJson (pos.writeJsonTree real formats rotationFormat PropertyTree.new)
      prettyPrint = .ok text ∧
    formats.readJson text = .ok (pos.writeJsonTree real formats rotationFormat PropertyTree.new)

/-- The rotations that are recovered: not all of those through a right angle from yaw, pitch and
roll, and not all small ones from an axis. -/
def RotationFormat.Recovers (q : Quaternion ℝ) : RotationFormat → Prop
  | .ypr => |sinPitch q| < 1 ∨ (q.imI = 0 ∧ q.imK = 0)
  | .rotationVector =>
    CoordinateType.float.epsilon ℝ < vectorNorm real q ∨ (0 ≤ q.imI ∧ q.imJ = 0 ∧ q.imK = 0)
  | .quaternion => True

namespace ListenerPosition

/-- All members have their values again, where the orientation represents the same rotation. -/
structure Restored (pos pos' : ListenerPosition ℝ) : Prop where
  position : pos'.position = pos.position
  orientation : SameRotation pos'.orientation pos.orientation
  timeNs : pos'.timeNs = pos.timeNs
  faceID : pos'.faceID = pos.faceID
  numberOfListeners : pos'.numberOfListeners = pos.numberOfListeners

/-- **The position is read, into any object, from the texts that are written for it.** -/
def RoundTrip (formats : ListenerFormats ℝ) (pos : ListenerPosition ℝ)
    (rotationFormat : RotationFormat) : Prop :=
  ∀ written ∈ [pos.writeJson real formats rotationFormat false,
      pos.writeJson real formats rotationFormat true,
      pos.writeJsonString real formats rotationFormat false,
      pos.writeJsonString real formats rotationFormat true],
    ∃ text, written = .ok text ∧ ∀ target, ∃ pos',
      run (parseJson real formats text) target = (.ok (), pos') ∧ Restored pos pos'

/-! ### The tree -/

section Tree

variable {formats : ListenerFormats ℝ} {pos : ListenerPosition ℝ} {rotationFormat : RotationFormat}

/-- The children of the tree. -/
theorem find?_writeJsonTree (formats : ListenerFormats ℝ) (pos : ListenerPosition ℝ)
    (rotationFormat : RotationFormat) :
    let tree := pos.writeJsonTree real formats rotationFormat PropertyTree.new
    tree.find? "x" = some (node (formats.putCoordinate pos.position.x) []) ∧
      tree.find? "y" = some (node (formats.putCoordinate pos.position.y) []) ∧
      tree.find? "z" = some (node (formats.putCoordinate pos.position.z) []) ∧
      tree.find? "orientation" =
        some (orientationTree real formats pos.orientation rotationFormat) ∧
      tree.find? "timeStamp" =
        (if pos.timeNs ≠ 0 then some (node (formats.putSize pos.timeNs) []) else none) ∧
      tree.find? "faceId" =
        (if pos.faceID ≠ 0 then some (node (formats.putUnsigned pos.faceID) []) else none) ∧
      tree.find? "numListeners" = some (node (formats.putSize pos.numberOfListeners) []) := by
  unfold writeJsonTree
  by_cases htime : pos.timeNs ≠ 0
  · by_cases hface : pos.faceID ≠ 0
    · simp [htime, hface]
    · simp [htime, hface]
  · by_cases hface : pos.faceID ≠ 0
    · simp [htime, hface]
    · simp [htime, hface]

/-- **Everything but the orientation is read back.** -/
theorem ofTree_writeJsonTree (h : formats.ReadsBack pos rotationFormat) (q : Quaternion ℝ) :
    ofTree formats (pos.writeJsonTree real formats rotationFormat PropertyTree.new) q =
      { pos with orientation := q } := by
  obtain ⟨hx, hy, hz, -, htime, hface, hnumber⟩ :=
    find?_writeJsonTree formats pos rotationFormat
  have htimeNs : (pos.writeJsonTree real formats rotationFormat PropertyTree.new).getDefault
      formats.getSize ["timeStamp"] 0 = pos.timeNs := by
    by_cases hzero : pos.timeNs = 0
    · rw [if_neg (not_not_intro hzero)] at htime
      rw [getDefault_of_none htime, hzero]
    · rw [if_pos hzero] at htime
      exact getDefault_of_find? htime (h.size _) 0
  have hfaceID : (pos.writeJsonTree real formats rotationFormat PropertyTree.new).getDefault
      formats.getUnsigned ["faceId"] 0 = pos.faceID := by
    by_cases hzero : pos.faceID = 0
    · rw [if_neg (not_not_intro hzero)] at hface
      rw [getDefault_of_none hface, hzero]
    · rw [if_pos hzero] at hface
      exact getDefault_of_find? hface (h.unsigned _) 0
  unfold ofTree
  rw [htimeNs, hfaceID, getDefault_of_find? hx (h.position _ (by simp)),
    getDefault_of_find? hy (h.position _ (by simp)),
    getDefault_of_find? hz (h.position _ (by simp)), getDefault_of_find? hnumber (h.size _)]

theorem degree2radian_radian2degree (a : ℝ) : degree2radian real (radian2degree real a) = a := by
  have hpi : real.pi ≠ 0 := Real.pi_ne_zero
  unfold degree2radian radian2degree
  field_simp

theorem lift_ok_bind {α : Type} (x : α) (next : α → Method ℝ Unit) :
    (liftM (Except.ok x : Except Abort α) >>= next : Method ℝ Unit) = next x := rfl

/-- The quaternion itself is read back. -/
theorem parse_quaternion (h : formats.ReadsBack pos .quaternion) :
    parseOrientationTree real formats (orientationTree real formats pos.orientation .quaternion) =
      setOrientationQuaternion pos.orientation := by
  have hread := h.rotation
  simp only [rotationNumbers, List.forall_mem_cons] at hread
  obtain ⟨hw, hx, hy, hz, -⟩ := hread
  unfold parseOrientationTree
  simp [count_pos_iff, orientationTree, getChild, getChild?, get_singleton, convert_of hw,
    convert_of hx, convert_of hy, convert_of hz, lift_ok_bind]
  rfl

theorem parse_ypr (h : formats.ReadsBack pos .ypr) :
    parseOrientationTree real formats (orientationTree real formats pos.orientation .ypr) =
      setOrientationYPR real (yaw real pos.orientation) (pitch real pos.orientation)
        (roll real pos.orientation) := by
  have hread := h.rotation
  simp only [rotationNumbers, List.forall_mem_cons] at hread
  obtain ⟨hyaw, hpitch, hroll, -⟩ := hread
  unfold parseOrientationTree
  simp [count_pos_iff, orientationTree, getDefault, getOptional_singleton, hyaw, hpitch, hroll,
    degree2radian_radian2degree]

theorem parse_rotationVector (h : formats.ReadsBack pos .rotationVector) :
    parseOrientationTree real formats
        (orientationTree real formats pos.orientation .rotationVector) =
      setOrientationRotationVector real (Rbbl.rotationVector real .float pos.orientation)
        (rotationAngle real pos.orientation) := by
  have hread := h.rotation
  simp only [rotationNumbers, List.forall_mem_cons] at hread
  obtain ⟨hangle, hx, hy, hz, -⟩ := hread
  unfold parseOrientationTree
  simp [count_pos_iff, orientationTree, getChild, getChild?, get_singleton, convert_of hangle,
    convert_of hx, convert_of hy, convert_of hz, lift_ok_bind, degree2radian_radian2degree]

/-- **The orientation that is read.** -/
theorem exists_recovered (h : formats.ReadsBack pos rotationFormat)
    (hunit : ‖pos.orientation‖ = 1) :
    ∃ q, SetsOrientation (parseOrientation real formats
        (pos.writeJsonTree real formats rotationFormat PropertyTree.new)) (.ok q) ∧
      (SameRotation q pos.orientation ↔ rotationFormat.Recovers pos.orientation) := by
  obtain ⟨-, -, -, hchild, -⟩ := find?_writeJsonTree formats pos rotationFormat
  have hparse : parseOrientation real formats
        (pos.writeJsonTree real formats rotationFormat PropertyTree.new) =
      parseOrientationTree real formats
        (orientationTree real formats pos.orientation rotationFormat) := by
    unfold parseOrientation
    rw [if_pos (count_pos_iff.mpr (by rw [hchild]; rfl)), getChild, getChild?, hchild]
    rfl
  rw [hparse]
  cases rotationFormat with
  | ypr =>
    rw [parse_ypr h]
    exact ⟨_, setsOrientation_ok _, fromYPR_angles_iff hunit⟩
  | rotationVector =>
    obtain ⟨q, hq, hiff⟩ := setRotationVector_iff .float hunit
    rw [parse_rotationVector h, setOrientationRotationVector, hq]
    exact ⟨q, setsOrientation_ok q, hiff⟩
  | quaternion =>
    rw [parse_quaternion h]
    exact ⟨_, setsOrientation_ok _, iff_of_true (Or.inl rfl) trivial⟩

/-- **Each of the texts is read as the same position.** -/
theorem exists_read (h : formats.ReadsBack pos rotationFormat) (hunit : ‖pos.orientation‖ = 1) :
    ∃ q, (SameRotation q pos.orientation ↔ rotationFormat.Recovers pos.orientation) ∧
      ∀ prettyPrint, ∃ text, pos.writeJson real formats rotationFormat prettyPrint = .ok text ∧
        ∀ target, run (parseJson real formats text) target =
          (.ok (), { pos with orientation := q }) := by
  obtain ⟨q, hq, hiff⟩ := exists_recovered h hunit
  refine ⟨q, hiff, fun prettyPrint => ?_⟩
  obtain ⟨text, hwrite, hread⟩ := h.json prettyPrint
  refine ⟨text, hwrite, fun target => ?_⟩
  unfold parseJson
  rw [hread]
  refine (run_parseJsonTree hq target).trans ?_
  dsimp only
  rw [ofTree_writeJsonTree h]

end Tree

/-! ### Round trips -/

section RoundTrips

variable {formats : ListenerFormats ℝ} {pos : ListenerPosition ℝ} {rotationFormat : RotationFormat}

theorem recovers_of_roundTrip (h : formats.ReadsBack pos rotationFormat)
    (hunit : ‖pos.orientation‖ = 1) (hall : RoundTrip formats pos rotationFormat) :
    rotationFormat.Recovers pos.orientation := by
  obtain ⟨q, hiff, hread⟩ := exists_read h hunit
  obtain ⟨text, hwrite, hrun⟩ := hread false
  obtain ⟨text', hwrite', hrestored⟩ := hall _ List.mem_cons_self
  obtain rfl : text' = text := Except.ok.inj (hwrite'.symm.trans hwrite)
  obtain ⟨pos', hpos', hsame⟩ := hrestored ListenerPosition.new
  rw [hrun] at hpos'
  obtain rfl := (Prod.mk.inj hpos').2
  exact hiff.mp hsame.orientation

theorem roundTrip_of_recovers (h : formats.ReadsBack pos rotationFormat)
    (hunit : ‖pos.orientation‖ = 1) (hrecovers : rotationFormat.Recovers pos.orientation) :
    RoundTrip formats pos rotationFormat := by
  obtain ⟨q, hiff, hread⟩ := exists_read h hunit
  have hsame := hiff.mpr hrecovers
  have hstream : ∀ prettyPrint, ∃ text,
      pos.writeJson real formats rotationFormat prettyPrint = .ok text ∧ ∀ target, ∃ pos',
        run (parseJson real formats text) target = (.ok (), pos') ∧ Restored pos pos' := by
    intro prettyPrint
    obtain ⟨text, hwrite, hrun⟩ := hread prettyPrint
    exact ⟨text, hwrite, fun target => ⟨_, hrun target, rfl, hsame, rfl, rfl, rfl⟩⟩
  unfold RoundTrip
  rw [List.forall_mem_cons, List.forall_mem_cons, List.forall_mem_cons, List.forall_mem_singleton]
  exact ⟨hstream false, hstream true, hstream false, hstream false⟩

/-- **The positions with a round trip**, and a text that is rejected leaves the object as it
was. -/
theorem roundTrip_iff (h : formats.ReadsBack pos rotationFormat)
    (hunit : quaternionNorm real pos.orientation = 1) :
    (RoundTrip formats pos rotationFormat ↔ rotationFormat.Recovers pos.orientation) ∧
      ∀ (text : List UInt8) (target target' : ListenerPosition ℝ) (abort : Abort),
        run (parseJson real formats text) target = (.error abort, target') → target' = target := by
  rw [quaternionNorm_eq] at hunit
  refine ⟨⟨?_, ?_⟩, ?_⟩
  · exact recovers_of_roundTrip h hunit
  · exact roundTrip_of_recovers h hunit
  · intro text target target' abort hrun
    exact parseJson_rejected hrun

end RoundTrips

/-! ### Positions and their texts -/

section Texts

/-- The JSON library, with the short and the long text of a tree and the numbers in it. -/
noncomputable def wholeFormats (tree : PropertyTree) (short long : List UInt8) :
    ListenerFormats ℝ where
  putCoordinate x := toString ⌊x⌋₊
  getCoordinate := WholeNumber.read fun n => (n : ℝ)
  putUnsigned n := toString n.val
  getUnsigned := WholeNumber.read (Fin.ofNat (2 ^ 32))
  putSize n := toString n.val
  getSize := WholeNumber.read (Fin.ofNat (2 ^ 64))
  writeJson _ prettyPrint := .ok (if prettyPrint then long else short)
  readJson text :=
    if text = short ∨ text = long then .ok tree
    else .error (.runtimeError "<unspecified file>(1): expected value")

variable {tree : PropertyTree} {short long : List UInt8}

theorem putCoordinate_wholeFormats (n : ℕ) :
    (wholeFormats tree short long).putCoordinate (n : ℝ) = toString n :=
  congrArg toString (Nat.floor_natCast n)

theorem readsBack_wholeFormats {pos : ListenerPosition ℝ} {rotationFormat : RotationFormat}
    (hnumbers : ∀ x ∈ [pos.position.x, pos.position.y, pos.position.z] ++
      rotationNumbers pos.orientation rotationFormat, ∃ n : ℕ, x = n)
    (htree : pos.writeJsonTree real (wholeFormats tree short long) rotationFormat
      PropertyTree.new = tree) :
    (wholeFormats tree short long).ReadsBack pos rotationFormat := by
  have hread : ∀ x : ℝ, (∃ n : ℕ, x = n) →
      (wholeFormats tree short long).getCoordinate
        ((wholeFormats tree short long).putCoordinate x) = some x := by
    rintro x ⟨n, rfl⟩
    rw [putCoordinate_wholeFormats]
    exact WholeNumber.read_toString _ n
  refine ⟨?_, ?_, ?_, ?_, ?_⟩
  · intro x hx
    exact hread x (hnumbers x (List.mem_append_left _ hx))
  · intro x hx
    exact hread x (hnumbers x (List.mem_append_right _ hx))
  · intro n
    refine (WholeNumber.read_toString (Fin.ofNat (2 ^ 32)) n.val).trans (congrArg some ?_)
    exact Fin.ext (Nat.mod_eq_of_lt n.isLt)
  · intro n
    refine (WholeNumber.read_toString (Fin.ofNat (2 ^ 64)) n.val).trans (congrArg some ?_)
    exact Fin.ext (Nat.mod_eq_of_lt n.isLt)
  · intro prettyPrint
    refine ⟨_, rfl, ?_⟩
    rw [htree]
    refine if_pos ?_
    cases prettyPrint
    · exact Or.inl rfl
    · exact Or.inr rfl

/-- A position to the left. -/
def positionWith (orientation : Quaternion ℝ) : ListenerPosition ℝ where
  position := ⟨1, ((2 : ℕ) : ℝ), 0⟩
  orientation := orientation
  timeNs := 0
  faceID := 7
  numberOfListeners := 1

/-- The tree of the position. -/
def treeWith (orientation : PropertyTree) : PropertyTree :=
  node "" [("x", node "1" []), ("y", node "2" []), ("z", node "0" []),
    ("orientation", orientation), ("faceId", node "7" []), ("numListeners", node "1" [])]

theorem writeJsonTree_positionWith {formats : ListenerFormats ℝ}
    (hnumbers : ∀ n : ℕ, formats.putCoordinate (n : ℝ) = toString n)
    (hunsigned : ∀ n, formats.putUnsigned n = toString n.val)
    (hsize : ∀ n, formats.putSize n = toString n.val) (q : Quaternion ℝ)
    (rotationFormat : RotationFormat) :
    (positionWith q).writeJsonTree real formats rotationFormat PropertyTree.new =
      treeWith (orientationTree real formats q rotationFormat) := by
  have hzero := hnumbers 0
  have hone := hnumbers 1
  have htwo := hnumbers 2
  rw [Nat.cast_zero] at hzero
  rw [Nat.cast_one] at hone
  unfold writeJsonTree positionWith
  dsimp only
  rw [hzero, hone, htwo, hunsigned, hsize]
  simp [put, updateFirst, addChild, PropertyTree.new, children, data, treeWith]
  decide

/-- The texts of the position and their tree. -/
noncomputable def formatsWith (orientation : PropertyTree) (short long : String) :
    ListenerFormats ℝ :=
  wholeFormats (treeWith orientation)
    ("\x7b\"x\":\"1\",\"y\":\"2\",\"z\":\"0\",\"orientation\":" ++ short ++
      ",\"faceId\":\"7\",\"numListeners\":\"1\"\x7d\n").toUTF8.toList
    ("\x7b\n    \"x\": \"1\",\n    \"y\": \"2\",\n    \"z\": \"0\",\n    \"orientation\": " ++
      long ++ ",\n    \"faceId\": \"7\",\n    \"numListeners\": \"1\"\n\x7d\n").toUTF8.toList

theorem readsBack_formatsWith {q : Quaternion ℝ} {rotationFormat : RotationFormat}
    {orientation : PropertyTree} {short long : String}
    (hnumbers : ∀ x ∈ rotationNumbers q rotationFormat, ∃ n : ℕ, x = n)
    (htree : orientationTree real (formatsWith orientation short long) q rotationFormat =
      orientation) :
    (formatsWith orientation short long).ReadsBack (positionWith q) rotationFormat := by
  refine readsBack_wholeFormats ?_ ?_
  · intro x hx
    rcases List.mem_append.mp hx with hx | hx
    · rcases List.mem_cons.mp hx with rfl | hx
      · exact ⟨1, Nat.cast_one.symm⟩
      · rcases List.mem_cons.mp hx with rfl | hx
        · exact ⟨2, rfl⟩
        · exact ⟨0, (List.mem_singleton.mp hx).trans Nat.cast_zero.symm⟩
    · exact hnumbers x hx
  · refine (writeJsonTree_positionWith putCoordinate_wholeFormats ?_ ?_ q rotationFormat).trans ?_
    · exact fun _ => rfl
    · exact fun _ => rfl
    · exact congrArg treeWith htree

/-- A listener who looks down, turned by a right angle before. -/
noncomputable def uprightQuaternion : Quaternion ℝ :=
  ⟨1 / (1 + 1), 1 / (1 + 1), 1 / (1 + 1), -(1 / (1 + 1))⟩

theorem uprightQuaternion_eq : uprightQuaternion = ⟨1 / 2, 1 / 2, 1 / 2, -(1 / 2)⟩ := by
  rw [uprightQuaternion, one_add_one_eq_two]

theorem norm_uprightQuaternion : ‖uprightQuaternion‖ = 1 := by
  rw [← quaternionNorm_eq, uprightQuaternion_eq]
  show Real.sqrt (1 / 2 * (1 / 2) + 1 / 2 * (1 / 2) + 1 / 2 * (1 / 2) + -(1 / 2) * -(1 / 2)) = 1
  norm_num

theorem sinPitch_uprightQuaternion : sinPitch uprightQuaternion = 1 := by
  rw [uprightQuaternion_eq]
  show (1 + 1) * (1 / 2 * (1 / 2) - -(1 / 2) * (1 / 2) : ℝ) = 1
  norm_num

theorem radian2degree_right_angle : radian2degree real (1 * (Real.pi / 2)) = ((90 : ℕ) : ℝ) := by
  have hpi := Real.pi_ne_zero
  show ((180 : ℕ) : ℝ) / Real.pi * (1 * (Real.pi / 2)) = _
  field_simp
  norm_num

/-- Only the right angle is written. -/
theorem rotationNumbers_uprightQuaternion :
    rotationNumbers uprightQuaternion .ypr = [((0 : ℕ) : ℝ), ((90 : ℕ) : ℝ), ((0 : ℕ) : ℝ)] := by
  obtain ⟨hyaw, hpitch, hroll⟩ :=
    angles_right_angle norm_uprightQuaternion (Or.inl rfl) sinPitch_uprightQuaternion
  have hzero : radian2degree real (0 : ℝ) = ((0 : ℕ) : ℝ) := by
    rw [radian2degree, mul_zero, Nat.cast_zero]
  rw [rotationNumbers, hyaw, hpitch, hroll, radian2degree_right_angle, hzero]

noncomputable def uprightFormats : ListenerFormats ℝ :=
  formatsWith (node "" [("yaw", node "0" []), ("pitch", node "90" []), ("roll", node "0" [])])
    "\x7b\"yaw\":\"0\",\"pitch\":\"90\",\"roll\":\"0\"\x7d"
    ("\x7b\n        \"yaw\": \"0\",\n        \"pitch\": \"90\",\n        \"roll\": \"0\"\n" ++
      "    \x7d")

theorem readsBack_uprightFormats :
    uprightFormats.ReadsBack (positionWith uprightQuaternion) .ypr := by
  have hnumbers := rotationNumbers_uprightQuaternion
  refine readsBack_formatsWith ?_ ?_
  · rw [hnumbers]
    intro x hx
    rcases List.mem_cons.mp hx with hx | hx
    · exact ⟨0, hx⟩
    · rcases List.mem_cons.mp hx with hx | hx
      · exact ⟨90, hx⟩
      · exact ⟨0, List.mem_singleton.mp hx⟩
  · obtain ⟨hyaw, hpitch, hroll⟩ : _ ∧ _ ∧ _ := by
      simpa only [rotationNumbers, List.cons.injEq, and_true] using hnumbers
    unfold orientationTree
    rw [hyaw, hpitch, hroll]
    simp only [formatsWith, putCoordinate_wholeFormats]
    simp [put, updateFirst, PropertyTree.new, children, data]
    decide

/-- The right angle alone is read as another rotation. -/
theorem not_roundTrip_upright :
    uprightFormats.ReadsBack (positionWith uprightQuaternion) .ypr ∧
      quaternionNorm real (positionWith uprightQuaternion).orientation = 1 ∧
      ¬RoundTrip uprightFormats (positionWith uprightQuaternion) .ypr := by
  refine ⟨readsBack_uprightFormats, ?_, fun hall => ?_⟩
  · rw [quaternionNorm_eq]
    exact norm_uprightQuaternion
  · have hrecovers := recovers_of_roundTrip readsBack_uprightFormats norm_uprightQuaternion hall
    rcases hrecovers with hlt | ⟨hI, -⟩
    · have hone : |sinPitch uprightQuaternion| = 1 := by
        rw [sinPitch_uprightQuaternion, abs_one]
      exact hlt.ne hone
    · have hhalf : uprightQuaternion.imI = 1 / 2 := by rw [uprightQuaternion_eq]
      have hzero : uprightQuaternion.imI = 0 := hI
      rw [hhalf] at hzero
      norm_num at hzero

noncomputable def frontFormats : ListenerFormats ℝ :=
  formatsWith (node "" [("quaternion",
      node "" [("w", node "1" []), ("x", node "0" []), ("y", node "0" []), ("z", node "0" [])])])
    "\x7b\"quaternion\":\x7b\"w\":\"1\",\"x\":\"0\",\"y\":\"0\",\"z\":\"0\"\x7d\x7d"
    ("\x7b\n        \"quaternion\": \x7b\n            \"w\": \"1\",\n            \"x\": \"0\",\n" ++
      "            \"y\": \"0\",\n            \"z\": \"0\"\n        \x7d\n    \x7d")

theorem readsBack_frontFormats : frontFormats.ReadsBack (positionWith 1) .quaternion := by
  have hone : (1 : Quaternion ℝ).re = ((1 : ℕ) : ℝ) ∧ (1 : Quaternion ℝ).imI = ((0 : ℕ) : ℝ) ∧
      (1 : Quaternion ℝ).imJ = ((0 : ℕ) : ℝ) ∧ (1 : Quaternion ℝ).imK = ((0 : ℕ) : ℝ) :=
    ⟨Nat.cast_one.symm, Nat.cast_zero.symm, Nat.cast_zero.symm, Nat.cast_zero.symm⟩
  refine readsBack_formatsWith ?_ ?_
  · simp only [rotationNumbers, List.forall_mem_cons]
    exact ⟨⟨1, hone.1⟩, ⟨0, hone.2.1⟩, ⟨0, hone.2.2.1⟩, ⟨0, hone.2.2.2⟩, List.forall_mem_nil _⟩
  · unfold orientationTree
    rw [hone.1, hone.2.1, hone.2.2.1, hone.2.2.2]
    simp only [formatsWith, putCoordinate_wholeFormats]
    simp [put, updateFirst, PropertyTree.new, children, data, addChild]
    decide

/-- A listener who looks to the front. -/
theorem roundTrip_front : RoundTrip frontFormats (positionWith 1) .quaternion := by
  have hunit : quaternionNorm real (positionWith 1).orientation = 1 := by
    rw [quaternionNorm_eq]
    exact norm_one
  exact (roundTrip_iff readsBack_frontFormats hunit).1.mpr trivial

end Texts

end ListenerPosition

end Pml

end Visr
