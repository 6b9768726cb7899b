import Visr.Libobjectmodel.ObjectVectorParser

/-!
# What the parsers of the objects read back

For each class of objects, the result of parsing what was written.

## Main results

* `ObjectParser.parse_write` and its namesakes — **the attributes are read back**, for each class.
* `PointSourceExtentParser.parse_write` — objects with extent are rejected.
-/

namespace Visr

open Grammar PropertyTree FloatArithmetic

variable {F : Type} [FloatArithmetic F] {env : Platform F}

/-! ### Attributes -/

/-- The trees have the same children for the given keys. -/
def AgreeOn (keys : List String) (t t' : PropertyTree) : Prop :=
  ∀ key ∈ keys, t.equalRange key = t'.equalRange key

namespace AgreeOn

variable {keys : List String} {t t' t'' : PropertyTree}

theorem refl (keys : List String) (t : PropertyTree) : AgreeOn keys t t := fun _ _ => rfl

theorem trans (h : AgreeOn keys t t') (h' : AgreeOn keys t' t'') : AgreeOn keys t t'' :=
  fun key hkey => (h key hkey).trans (h' key hkey)

theorem mono {keys' : List String} (h : AgreeOn keys t t') (hsub : keys' ⊆ keys) :
    AgreeOn keys' t t' := fun key hkey => h key (hsub hkey)

/-- Writing another attribute changes nothing. -/
theorem put {key : String} (h : key ∉ keys) (path : List String) (value : String)
    (t : PropertyTree) : AgreeOn keys (t.put (key :: path) value) t := by
  intro key' hkey'
  rw [equalRange_put, if_neg]
  rintro rfl
  exact h hkey'

theorem putChild {key : String} (h : key ∉ keys) (child t : PropertyTree) :
    AgreeOn keys (t.putChild key child) t := by
  intro key' hkey'
  rw [equalRange_putChild, if_neg]
  rintro rfl
  exact h hkey'

theorem find? (h : AgreeOn keys t t') {key : String} (hkey : key ∈ keys) :
    t.find? key = t'.find? key := find?_congr (h key hkey)

end AgreeOn

/-! ### All objects -/

/-- What remains of an object after its small gains are lost. -/
def Object.withoutSmallGains (obj : Object F) : Object F :=
  { obj with
    eqCoefficients := obj.eqCoefficients.map ParametricIirCoefficient.withoutSmallGain }

/-- All channel indices are in the range of the type `int`. -/
def Object.ChannelsReadable (obj : Object F) : Prop := ∀ i ∈ obj.channelIndices, i.val < 2 ^ 31

namespace ObjectParser

/-- The keys of the attributes of all objects. -/
def attributes : List String := ["type", "channels", "id", "group", "level", "priority", "eq"]

/-- The result depends on the attributes only. -/
theorem parse_congr {t t' : PropertyTree} (h : AgreeOn attributes t t') (obj : Object F) :
    parse env t obj = parse env t' obj := by
  have hchannels : t.find? "channels" = t'.find? "channels" := h.find? (by decide)
  have hgroup : t.find? "group" = t'.find? "group" := h.find? (by decide)
  have hlevel : t.find? "level" = t'.find? "level" := h.find? (by decide)
  have hpriority : t.find? "priority" = t'.find? "priority" := h.find? (by decide)
  have heq : t.find? "eq" = t'.find? "eq" := h.find? (by decide)
  simp only [parse, tryChannels, parseChannels, parseEq, get_singleton, hchannels, hgroup,
    hlevel, hpriority, heq]

/-- Other keys are not written. -/
theorem equalRange_write {key : String} (h : key ∉ attributes) (type : ObjectTypeId)
    (obj : Object F) (t : PropertyTree) :
    (write env type obj t).equalRange key = t.equalRange key := by
  simp only [attributes, List.mem_cons, List.not_mem_nil, or_false, not_or] at h
  obtain ⟨htype, hchannels, hid, hgroup, hlevel, hpriority, heq⟩ := h
  unfold write
  split
  · simp only [equalRange_put, Ne.symm htype, Ne.symm hchannels, Ne.symm hid, Ne.symm hgroup,
      Ne.symm hlevel, Ne.symm hpriority, if_false]
  · simp only [equalRange_addChild, equalRange_put, Ne.symm htype, Ne.symm hchannels, Ne.symm hid,
      Ne.symm hgroup, Ne.symm hlevel, Ne.symm hpriority, Ne.symm heq, if_false, List.append_nil]

theorem find?_write {key : String} (h : key ∉ attributes) (type : ObjectTypeId)
    (obj : Object F) (t : PropertyTree) : (write env type obj t).find? key = t.find? key :=
  find?_congr (equalRange_write h type obj t)

section Written

variable (env : Platform F) (type : ObjectTypeId) (obj : Object F)

theorem find?_write_type :
    (write env type obj new).find? "type" = some (node (objectTypeToString type) []) := by
  unfold write
  split <;> simp

theorem find?_write_channels :
    (write env type obj new).find? "channels" =
      some (node (commaText ((obj.channelIndices.map Fin.val).map toString)) []) := by
  unfold write
  split <;> simp

theorem find?_write_id :
    (write env type obj new).find? "id" = some (node (env.putUnsigned obj.id) []) := by
  unfold write
  split <;> simp

theorem find?_write_group :
    (write env type obj new).find? "group" = some (node (env.putUnsigned obj.groupId) []) := by
  unfold write
  split <;> simp

theorem find?_write_level :
    (write env type obj new).find? "level" = some (node (env.putFloat obj.level) []) := by
  unfold write
  split <;> simp

theorem find?_write_priority :
    (write env type obj new).find? "priority" = some (node (env.putPriority obj.priority) []) := by
  unfold write
  split <;> simp

theorem find?_write_eq :
    (write env type obj new).find? "eq" =
      if obj.eqCoefficients.isEmpty then none
      else some (ParametricIirCoefficientList.writeXml env obj.eqCoefficients new) := by
  unfold write
  split <;> simp

end Written

theorem parseChannels_write (type : ObjectTypeId) {obj : Object F} (h : obj.ChannelsReadable)
    (src : Object F) :
    parseChannels env (write env type obj new) src =
      .ok { src with channelIndices := obj.channelIndices } := by
  have hread : IndexSequence.parse env.capacity
      (commaText ((obj.channelIndices.map Fin.val).map toString)) =
        .ok (obj.channelIndices.map Fin.val) := by
    refine IndexSequence.parse_indices env.capacity fun i hi => ?_
    obtain ⟨j, hj, rfl⟩ := List.mem_map.mp hi
    exact h j hj
  have hcast : (obj.channelIndices.map Fin.val).map (Fin.ofNat (2 ^ 32)) = obj.channelIndices := by
    rw [List.map_map]
    refine (List.map_congr_left fun i _ => ?_).trans (List.map_id _)
    exact Fin.ext (Nat.mod_eq_of_lt i.isLt)
  have hget : (write env type obj new).get some ["channels"] =
      .ok (commaText ((obj.channelIndices.map Fin.val).map toString)) :=
    get_of_find? (find?_write_channels env type obj)
  rw [parseChannels, hget, ok_bind, hread, ok_bind, hcast]
  rfl

/-- **What is written is read back**, if the channel indices are in range. -/
theorem parse_write (h : env.NumbersReadBack) (type : ObjectTypeId) {obj : Object F}
    (hchannels : obj.ChannelsReadable) {src : Object F} (hid : src.id = obj.id) :
    parse env (write env type obj new) src = .ok obj.withoutSmallGains := by
  have heq : parseEq env (write env type obj new) =
      .ok (obj.eqCoefficients.map ParametricIirCoefficient.withoutSmallGain) := by
    rw [parseEq, find?_write_eq]
    by_cases hempty : obj.eqCoefficients.isEmpty = true
    · rw [if_pos hempty, List.isEmpty_iff.mp hempty]
      rfl
    · rw [if_neg hempty]
      exact ParametricIirCoefficientList.loadJson_writeXml h obj.eqCoefficients
  have hgroup : (write env type obj new).get env.getUnsigned ["group"] = .ok obj.groupId :=
    (get_of_find? (find?_write_group env type obj)).trans (h.convert_unsigned _)
  have hlevel : (write env type obj new).get env.getFloat ["level"] = .ok obj.level :=
    (get_of_find? (find?_write_level env type obj)).trans (h.convert_float _)
  have hpriority : (write env type obj new).get env.getPriority ["priority"] = .ok obj.priority :=
    (get_of_find? (find?_write_priority env type obj)).trans (h.convert_priority _)
  rw [parse, tryChannels, parseChannels_write type hchannels]
  simp only [ok_bind, hgroup, hlevel, hpriority, heq]
  show Except.ok _ = Except.ok _
  rw [Object.withoutSmallGains, hid]

omit [FloatArithmetic F] in
theorem tryChannels_id {tree : PropertyTree} {src obj : Object F}
    (h : tryChannels env tree src = .ok obj) : obj.id = src.id := by
  unfold tryChannels at h
  split at h
  next parsed hparsed =>
    cases h
    obtain ⟨text, -, hparsed⟩ := exists_of_bind_ok hparsed
    obtain ⟨indices, -, hparsed⟩ := exists_of_bind_ok hparsed
    cases hparsed
    rfl
  next a _ =>
    split at h <;> cases h
    rfl

/-- The id of an object is not changed. -/
theorem parse_id {tree : PropertyTree} {src obj : Object F} (h : parse env tree src = .ok obj) :
    obj.id = src.id := by
  obtain ⟨obj', hobj', h⟩ := exists_of_bind_ok h
  obtain ⟨groupId, -, h⟩ := exists_of_bind_ok h
  obtain ⟨level, -, h⟩ := exists_of_bind_ok h
  obtain ⟨priority, -, h⟩ := exists_of_bind_ok h
  obtain ⟨eqCoeffs, -, h⟩ := exists_of_bind_ok h
  cases h
  show obj'.id = src.id
  exact tryChannels_id hobj'

/-- The channel indices of a parsed object are in range. -/
theorem parse_channelsReadable {tree : PropertyTree} {src obj : Object F}
    (hsrc : src.ChannelsReadable) (h : parse env tree src = .ok obj) : obj.ChannelsReadable := by
  obtain ⟨obj', hobj', h⟩ := exists_of_bind_ok h
  obtain ⟨groupId, -, h⟩ := exists_of_bind_ok h
  obtain ⟨level, -, h⟩ := exists_of_bind_ok h
  obtain ⟨priority, -, h⟩ := exists_of_bind_ok h
  obtain ⟨eqCoeffs, -, h⟩ := exists_of_bind_ok h
  cases h
  have hchannels : obj'.ChannelsReadable := by
    unfold tryChannels at hobj'
    split at hobj'
    next parsed hparsed =>
      cases hobj'
      obtain ⟨text, -, hparsed⟩ := exists_of_bind_ok hparsed
      obtain ⟨indices, hindices, hparsed⟩ := exists_of_bind_ok hparsed
      cases hparsed
      intro i hi
      obtain ⟨j, hj, rfl⟩ := List.mem_map.mp hi
      have hlt := IndexSequence.parse_result hindices j hj
      exact (Nat.mod_le j _).trans_lt hlt
    next a _ =>
      split at hobj' <;> cases hobj'
      exact hsrc
  exact hchannels

end ObjectParser

/-! ### Point sources -/

namespace PointSourceParser

/-- A position as it is written. -/
def positionTree (env : Platform F) (x y z : F) : PropertyTree :=
  ((new.put ["x"] (env.putFloat x)).put ["y"] (env.putFloat y)).put ["z"] (env.putFloat z)

theorem parsePosition_positionTree (h : env.NumbersReadBack) (x y z : F) :
    parsePosition env (positionTree env x y z) = .ok (x, y, z) := by
  have hfind : ∀ key, (positionTree env x y z).find? key =
      if "z" = key then some (node (env.putFloat z) [])
      else if "y" = key then some (node (env.putFloat y) [])
      else if "x" = key then some (node (env.putFloat x) []) else none := by
    intro key
    simp only [positionTree, find?_put, find?_new, Option.getD_none]
    by_cases hz : "z" = key
    · subst hz
      simp
    · by_cases hy : "y" = key
      · subst hy
        simp
      · by_cases hx : "x" = key
        · subst hx
          simp
        · simp [hx, hy, hz]
  have hx : (positionTree env x y z).getOptional env.getFloat ["x"] = some x := by
    rw [getOptional_singleton, hfind]
    exact h.getFloat_putFloat x
  have hy : (positionTree env x y z).getOptional env.getFloat ["y"] = some y := by
    rw [getOptional_singleton, hfind]
    exact h.getFloat_putFloat y
  have hz : (positionTree env x y z).getOptional env.getFloat ["z"] = some z := by
    rw [getOptional_singleton, hfind]
    exact h.getFloat_putFloat z
  -- no attribute of the spherical form is there, so the Cartesian one is read
  have haz : (positionTree env x y z).getOptional env.getFloat ["az"] = none := by
    rw [getOptional_singleton, hfind]
    rfl
  have hel : (positionTree env x y z).getOptional env.getFloat ["el"] = none := by
    rw [getOptional_singleton, hfind]
    rfl
  have hradius : (positionTree env x y z).getOptional env.getFloat ["radius"] = none := by
    rw [getOptional_singleton, hfind]
    rfl
  rw [parsePosition]
  simp [hx, hy, hz, haz, hel, hradius]

/-- The keys of the attributes of point sources. -/
def attributes : List String := ["position", "channelLock"] ++ ObjectParser.attributes

theorem parse_congr {t t' : PropertyTree} (h : AgreeOn attributes t t') (src : PointSource F) :
    parse env t src = parse env t' src := by
  have hobj : ∀ obj : Object F, ObjectParser.parse env t obj = ObjectParser.parse env t' obj :=
    ObjectParser.parse_congr (h.mono (List.subset_append_right _ _))
  have hposition : t.getChild ["position"] = t'.getChild ["position"] := by
    rw [getChild, getChild, getChild?_congr (h "position" (by decide))]
  have hlock : t.getDefault env.getFloat ["channelLock"] 0 =
      t'.getDefault env.getFloat ["channelLock"] 0 := getDefault_congr (h _ (by decide)) _ _
  simp only [parse, parseAttributes, hobj, hposition, hlock]

/-- Other keys are not written. -/
theorem equalRange_write {key : String} (h : key ∉ attributes) (type : ObjectTypeId)
    (psObj : PointSource F) (t : PropertyTree) :
    (write env type psObj t).equalRange key = t.equalRange key := by
  have hposition : "position" ≠ key := fun heq => h (heq ▸ by decide)
  have hlock : "channelLock" ≠ key := fun heq => h (heq ▸ by decide)
  have hobj : key ∉ ObjectParser.attributes := fun hmem => h (List.mem_append_right _ hmem)
  unfold write
  split <;> simp only [equalRange_put, hposition, hlock, if_false,
    ObjectParser.equalRange_write hobj]

theorem agreeOn_write (type : ObjectTypeId) (psObj : PointSource F) (t : PropertyTree) :
    AgreeOn ObjectParser.attributes (write env type psObj t)
      (ObjectParser.write env type psObj.toObject t) := by
  have hposition : "position" ∉ ObjectParser.attributes := by decide
  have hlock : "channelLock" ∉ ObjectParser.attributes := by decide
  have htree : ∀ path value tree, AgreeOn ObjectParser.attributes
      (PropertyTree.put ("position" :: path) value tree) tree := fun path value tree =>
    AgreeOn.put hposition path value tree
  have hpositions := ((htree ["z"] (env.putFloat psObj.z) _).trans
    (htree ["y"] (env.putFloat psObj.y) _)).trans (htree ["x"] (env.putFloat psObj.x)
      (ObjectParser.write env type psObj.toObject t))
  unfold write
  split
  · exact (AgreeOn.put hlock [] _ _).trans hpositions
  · exact hpositions

theorem find?_write_position (env : Platform F) (type : ObjectTypeId) (psObj : PointSource F) :
    (write env type psObj new).find? "position" =
      some (positionTree env psObj.x psObj.y psObj.z) := by
  have hnone : (ObjectParser.write env type psObj.toObject new).find? "position" = none :=
    ObjectParser.find?_write (by decide) type _ new
  unfold write
  split <;> simp [hnone, positionTree]

theorem getDefault_write_channelLock (h : env.NumbersReadBack) (type : ObjectTypeId)
    (psObj : PointSource F) :
    (write env type psObj new).getDefault env.getFloat ["channelLock"] 0 =
      psObj.channelLockDistance := by
  have hnone : (ObjectParser.write env type psObj.toObject new).find? "channelLock" = none :=
    ObjectParser.find?_write (by decide) type _ new
  rw [getDefault, getOptional_singleton]
  unfold write
  split
  next hne => simp [hnone, h.getFloat_putFloat]
  next heq =>
    rw [not_not] at heq
    simp [hnone, heq]

/-- **What is written is read back.** -/
theorem parse_write (h : env.NumbersReadBack) (type : ObjectTypeId) {psObj : PointSource F}
    (hchannels : psObj.ChannelsReadable) {src : PointSource F} (hid : src.id = psObj.id) :
    parse env (write env type psObj new) src =
      .ok { psObj with toObject := psObj.toObject.withoutSmallGains } := by
  have hobj := ObjectParser.parse_write h type hchannels hid
  rw [← ObjectParser.parse_congr (agreeOn_write type psObj new)] at hobj
  have hposition : (write env type psObj new).getChild ["position"] =
      .ok (positionTree env psObj.x psObj.y psObj.z) := by
    rw [getChild, getChild?, find?_write_position]
    rfl
  rw [parse, hobj, ok_bind, parseAttributes, hposition, ok_bind, parsePosition_positionTree h,
    ok_bind, getDefault_write_channelLock h]
  rfl

/-- The common attributes are parsed by the parser of the base class. -/
theorem parse_toObject {tree : PropertyTree} {src psObj : PointSource F}
    (hparse : parse env tree src = .ok psObj) :
    ObjectParser.parse env tree src.toObject = .ok psObj.toObject := by
  obtain ⟨obj, hobj, hparse⟩ := exists_of_bind_ok hparse
  obtain ⟨posTree, -, hparse⟩ := exists_of_bind_ok (ok_of_mapError hparse)
  obtain ⟨position, -, hparse⟩ := exists_of_bind_ok hparse
  cases hparse
  exact hobj

end PointSourceParser

namespace PointSourceWithDiffusenessParser

theorem agreeOn_write (type : ObjectTypeId) (pswdObj : PointSourceWithDiffuseness F)
    (t : PropertyTree) :
    AgreeOn PointSourceParser.attributes (write env type pswdObj t)
      (PointSourceParser.write env type pswdObj.toPointSource t) :=
  AgreeOn.put (by decide) [] _ _

theorem parse_write (h : env.NumbersReadBack) (type : ObjectTypeId)
    {pswdObj : PointSourceWithDiffuseness F} (hchannels : pswdObj.ChannelsReadable)
    {src : PointSourceWithDiffuseness F} (hid : src.id = pswdObj.id) :
    parse env (write env type pswdObj new) src =
      .ok { pswdObj with toObject := pswdObj.toObject.withoutSmallGains } := by
  have hpoint : PointSourceParser.parse env
      (PointSourceParser.write env type pswdObj.toPointSource new) src.toPointSource = .ok _ :=
    PointSourceParser.parse_write h type hchannels hid
  have hnone : (PointSourceParser.write env type pswdObj.toPointSource new).find? "diffuseness" =
      none := find?_congr (PointSourceParser.equalRange_write (by decide) type _ new)
  have hdiffuseness : (write env type pswdObj new).get env.getFloat ["diffuseness"] =
      .ok pswdObj.diffuseness := (get_put hnone).trans (h.convert_float pswdObj.diffuseness)
  rw [← PointSourceParser.parse_congr (agreeOn_write type pswdObj new)] at hpoint
  rw [parse, hpoint, ok_bind, hdiffuseness]
  rfl

theorem parse_toObject {tree : PropertyTree} {src pswdObj : PointSourceWithDiffuseness F}
    (hparse : parse env tree src = .ok pswdObj) :
    ObjectParser.parse env tree src.toObject = .ok pswdObj.toObject := by
  obtain ⟨pointSrc, hpoint, hparse⟩ := exists_of_bind_ok (ok_of_mapError hparse)
  obtain ⟨diffuseness, -, hparse⟩ := exists_of_bind_ok hparse
  cases hparse
  exact PointSourceParser.parse_toObject hpoint

end PointSourceWithDiffusenessParser

namespace PointSourceExtentParser

theorem agreeOn_write (type : ObjectTypeId) (pseObj : PointSourceExtent F) (t : PropertyTree) :
    AgreeOn PointSourceParser.attributes (write env type pseObj t)
      (PointSourceParser.write env type pseObj.toPointSource t) :=
  ((AgreeOn.put (by decide) [] _ _).trans (AgreeOn.put (by decide) [] _ _)).trans
    (AgreeOn.put (by decide) [] _ _)

/-- **What is written is rejected**, as no diffuseness is written. -/
theorem parse_write (type : ObjectTypeId) (pseObj src result : PointSourceExtent F) :
    parse env (write env type pseObj new) src ≠ .ok result := by
  intro hparse
  obtain ⟨pointSrc, hpoint, -⟩ := exists_of_bind_ok (ok_of_mapError hparse)
  obtain ⟨base, -, hdiffuse⟩ := exists_of_bind_ok (ok_of_mapError hpoint)
  obtain ⟨diffuseness, hget, -⟩ := exists_of_bind_ok hdiffuse
  have hnone : (PointSourceParser.write env type pseObj.toPointSource new).find? "diffuseness" =
      none := find?_congr (PointSourceParser.equalRange_write (by decide) type _ new)
  have hfind : (write env type pseObj new).find? "diffuseness" = none := by
    simp [write, hnone]
  rw [get_singleton, hfind] at hget
  cases hget

theorem parse_toObject {tree : PropertyTree} {src pseObj : PointSourceExtent F}
    (hparse : parse env tree src = .ok pseObj) :
    ObjectParser.parse env tree src.toObject = .ok pseObj.toObject := by
  obtain ⟨extentPointSrc, hpoint, hparse⟩ := exists_of_bind_ok (ok_of_mapError hparse)
  obtain ⟨width, -, hparse⟩ := exists_of_bind_ok hparse
  obtain ⟨height, -, hparse⟩ := exists_of_bind_ok hparse
  cases hparse
  exact PointSourceWithDiffusenessParser.parse_toObject hpoint

end PointSourceExtentParser

/-! ### Plane waves, diffuse sources and sound fields -/

namespace PlaneWaveParser

theorem agreeOn_write (type : ObjectTypeId) (pwObj : PlaneWave F) (t : PropertyTree) :
    AgreeOn ObjectParser.attributes (write env type pwObj t)
      (ObjectParser.write env type pwObj.toObject t) := by
  have hkey : "direction" ∉ ObjectParser.attributes := by decide
  exact ((AgreeOn.put hkey ["refdist"] _ _).trans (AgreeOn.put hkey ["el"] _ _)).trans
    (AgreeOn.put hkey ["az"] _ _)

theorem parse_write (h : env.NumbersReadBack) (type : ObjectTypeId) {pwObj : PlaneWave F}
    (hchannels : pwObj.ChannelsReadable) {src : PlaneWave F} (hid : src.id = pwObj.id) :
    parse env (write env type pwObj new) src =
      .ok { pwObj with toObject := pwObj.toObject.withoutSmallGains } := by
  have hobj := ObjectParser.parse_write h type hchannels hid
  have hnone : (ObjectParser.write env type pwObj.toObject new).find? "direction" = none :=
    ObjectParser.find?_write (by decide) type _ new
  have hdirection : (write env type pwObj new).find? "direction" =
      some (((new.put ["az"] (env.putFloat pwObj.incidenceAzimuth)).put ["el"]
        (env.putFloat pwObj.incidenceElevation)).put ["refdist"]
          (env.putFloat pwObj.referenceDistance)) := by
    simp [write, hnone]
  have hget : ∀ (key : String) (x : F) (cs : List (String × PropertyTree)),
      (write env type pwObj new).getChild? ["direction", key] = some (node (env.putFloat x) cs) →
      (write env type pwObj new).get env.getFloat ["direction", key] = .ok x := by
    intro key x cs hchild
    rw [PropertyTree.get, getChild, hchild, ok_bind, data_node, h.convert_float]
  have haz := hget "az" pwObj.incidenceAzimuth [] (by simp [getChild?, hdirection])
  have hel := hget "el" pwObj.incidenceElevation [] (by simp [getChild?, hdirection])
  have hdistance := hget "refdist" pwObj.referenceDistance [] (by simp [getChild?, hdirection])
  rw [← ObjectParser.parse_congr (agreeOn_write type pwObj new)] at hobj
  rw [parse, hobj, ok_bind, haz, ok_bind, hel, ok_bind, hdistance]
  rfl

theorem parse_toObject {tree : PropertyTree} {src pwObj : PlaneWave F}
    (hparse : parse env tree src = .ok pwObj) :
    ObjectParser.parse env tree src.toObject = .ok pwObj.toObject := by
  obtain ⟨obj, hobj, hparse⟩ := exists_of_bind_ok hparse
  obtain ⟨azimuth, -, hparse⟩ := exists_of_bind_ok (ok_of_mapError hparse)
  obtain ⟨elevation, -, hparse⟩ := exists_of_bind_ok hparse
  obtain ⟨distance, -, hparse⟩ := exists_of_bind_ok hparse
  cases hparse
  exact hobj

end PlaneWaveParser

namespace DiffuseSourceParser

theorem parse_write (h : env.NumbersReadBack) (type : ObjectTypeId) {obj : DiffuseSource F}
    (hchannels : obj.ChannelsReadable) {src : DiffuseSource F} (hid : src.id = obj.id) :
    parse env (write env type obj new) src =
      .ok { obj with toObject := obj.toObject.withoutSmallGains } := by
  rw [parse, write, ObjectParser.parse_write h type hchannels hid]
  rfl

theorem parse_toObject {tree : PropertyTree} {src diffuseObj : DiffuseSource F}
    (hparse : parse env tree src = .ok diffuseObj) :
    ObjectParser.parse env tree src.toObject = .ok diffuseObj.toObject := by
  obtain ⟨obj, hobj, hparse⟩ := exists_of_bind_ok (ok_of_mapError hparse)
  cases hparse
  exact hobj

end DiffuseSourceParser

/-- The number of channels is the one for the order, computed with unsigned numbers. -/
def HoaSource.Complete (hoaObj : HoaSource F) : Prop :=
  ((hoaObj.order + 1) * (hoaObj.order + 1)).val = hoaObj.numberOfChannels

namespace HoaSourceParser

theorem agreeOn_write (type : ObjectTypeId) (hoaObj : HoaSource F) (t : PropertyTree) :
    AgreeOn ObjectParser.attributes (write env type hoaObj t)
      (ObjectParser.write env type hoaObj.toObject t) := AgreeOn.put (by decide) [] _ _

theorem parse_write (h : env.NumbersReadBack) (type : ObjectTypeId) {hoaObj : HoaSource F}
    (hchannels : hoaObj.ChannelsReadable) (hcomplete : hoaObj.Complete) {src : HoaSource F}
    (hid : src.id = hoaObj.id) :
    parse env (write env type hoaObj new) src =
      .ok { hoaObj with toObject := hoaObj.toObject.withoutSmallGains } := by
  have hobj := ObjectParser.parse_write h type hchannels hid
  have hnone : (ObjectParser.write env type hoaObj.toObject new).find? "order" = none :=
    ObjectParser.find?_write (by decide) type _ new
  have horder : (write env type hoaObj new).get env.getUnsigned ["order"] = .ok hoaObj.order := by
    exact (get_put hnone).trans (h.convert_unsigned hoaObj.order)
  rw [← ObjectParser.parse_congr (agreeOn_write type hoaObj new)] at hobj
  have hnumber : ((hoaObj.order + 1) * (hoaObj.order + 1)).val =
      hoaObj.toObject.withoutSmallGains.numberOfChannels := hcomplete
  rw [parse, hobj, ok_bind, horder, ok_bind, if_neg (not_not.mpr hnumber)]
  rfl

/-- Parsed objects have the right number of channels. -/
theorem parse_result {tree : PropertyTree} {src hoaObj : HoaSource F}
    (hparse : parse env tree src = .ok hoaObj) :
    ObjectParser.parse env tree src.toObject = .ok hoaObj.toObject ∧ hoaObj.Complete := by
  obtain ⟨obj, hobj, hparse⟩ := exists_of_bind_ok hparse
  obtain ⟨order, horder, hparse⟩ := exists_of_bind_ok (ok_of_mapError hparse)
  split at hparse
  · cases hparse
  next hcomplete =>
    cases hparse
    exact ⟨hobj, not_not.mp hcomplete⟩

end HoaSourceParser

end Visr
