import Visr.Libobjectmodel.ObjectCodec

/-!
# What the parser of point sources with reverberation reads back

The early reflections are the elements of an array, and the late reverberation has sequences of
numbers as texts.

## Main results

* `PointSourceWithReverbParser.parseRoom_writeRoom` — **the room is read back.**
* `PointSourceWithReverbParser.parse_write` — the attributes are read back.
-/

namespace Visr

open Grammar PropertyTree FloatArithmetic

variable {F : Type} [FloatArithmetic F] {env : Platform F}

namespace PointSourceWithReverbParser

theorem setReflectionFilters_toList
    (filters : List.Vector (BiquadCoefficient F) cNumDiscreteReflectionBiquads) :
    setReflectionFilters filters.toList = .ok filters := by
  have hlength : filters.toList.length = cNumDiscreteReflectionBiquads := filters.toList_length
  unfold setReflectionFilters
  rw [dif_pos hlength.le]
  congr 1
  apply List.Vector.eq
  show filters.toList ++ List.replicate _ _ = filters.toList
  rw [hlength, Nat.sub_self, List.replicate_zero, List.append_nil]

theorem parseReflection_writeReflection (h : env.NumbersReadBack) (refl : DiscreteReflection F) :
    parseReflection env (writeReflection env refl) = .ok refl := by
  have hposition : (writeReflection env refl).getChild ["position"] =
      .ok (PointSourceParser.positionTree env refl.positionX refl.positionY refl.positionZ) := by
    simp [getChild, getChild?, writeReflection, PointSourceParser.positionTree]
  have hdelay : (writeReflection env refl).get env.getFloat ["delay"] = .ok refl.delay := by
    simp [get_singleton, writeReflection, h]
  have hlevel : (writeReflection env refl).get env.getFloat ["level"] = .ok refl.level := by
    simp [get_singleton, writeReflection, h]
  have hbiquads : (writeReflection env refl).getChild ["biquadsos"] =
      .ok (BiquadCoefficientList.writeJson env refl.reflectionFilters.toList new) := by
    simp [getChild, getChild?, writeReflection]
  rw [parseReflection, hposition, ok_bind, PointSourceParser.parsePosition_positionTree h, ok_bind]
  simp only [hdelay, hlevel, hbiquads, ok_bind, BiquadCoefficientList.loadJson_writeJson h,
    setReflectionFilters_toList]
  rfl

/-- A sequence with a value for each subband is read back. -/
theorem parseCoeffs_toString (h : env.NumbersReadBack) {tree : PropertyTree} {key : String}
    (coeffs : LateReverbCoeffs F)
    (hfind : tree.find? key =
      some (node (FloatSequence.toString env.insertFloat coeffs.toList) [])) :
    parseCoeffs env tree key = .ok coeffs := by
  have hlength : coeffs.toList.length = cNumberOfSubBands := coeffs.toList_length
  have hne : coeffs.toList ≠ [] := by
    intro hnil
    rw [hnil] at hlength
    cases hlength
  have hread : FloatSequence.parse env.capacity env.float_
      (FloatSequence.toString env.insertFloat coeffs.toList) = .ok coeffs.toList :=
    FloatSequence.parse_toString env.capacity h.float_insertFloat hne
  have hget : tree.get some [key] =
      .ok (FloatSequence.toString env.insertFloat coeffs.toList) := get_of_find? hfind
  rw [parseCoeffs, hget, ok_bind, hread, ok_bind, dif_pos hlength]
  congr 1

theorem parseLateReverb_writeLateReverb (h : env.NumbersReadBack) (lateReverb : LateReverb F) :
    parseLateReverb env (writeLateReverb env lateReverb) = .ok lateReverb := by
  have honset : (writeLateReverb env lateReverb).get env.getFloat ["delay"] =
      .ok lateReverb.onsetDelay := by
    simp [get_singleton, writeLateReverb, h]
  have hlevels : parseCoeffs env (writeLateReverb env lateReverb) "level" =
      .ok lateReverb.levels := by
    refine parseCoeffs_toString h _ ?_
    simp [writeLateReverb]
  have hattack : parseCoeffs env (writeLateReverb env lateReverb) "attacktime" =
      .ok lateReverb.attackTimes := by
    refine parseCoeffs_toString h _ ?_
    simp [writeLateReverb]
  have hdecay : parseCoeffs env (writeLateReverb env lateReverb) "decayconst" =
      .ok lateReverb.decayCoeffs := by
    refine parseCoeffs_toString h _ ?_
    simp [writeLateReverb]
  simp only [parseLateReverb, honset, hlevels, hattack, hdecay, ok_bind]
  rfl

theorem parseReflections_writeRoom (h : env.NumbersReadBack)
    (pswdObj : PointSourceWithReverb F) :
    parseReflections env (writeRoom env pswdObj) = .ok pswdObj.discreteReflections := by
  unfold parseReflections writeRoom
  by_cases hempty : pswdObj.discreteReflections.isEmpty = true
  · have hcount : (new.putChild "lreverb" (writeLateReverb env pswdObj.lateReverb)).count
        "ereflect" = 0 := by
      simp [count, equalRange_putChild]
    rw [if_pos hempty, if_pos hcount, List.isEmpty_iff.mp hempty]
  · have hcount : ((new.addChild "ereflect" (new.addChildren ""
        (pswdObj.discreteReflections.map (writeReflection env)))).putChild "lreverb"
          (writeLateReverb env pswdObj.lateReverb)).count "ereflect" ≠ 0 := by
      simp [count, equalRange_putChild, equalRange_addChild]
    have hchild : ((new.addChild "ereflect" (new.addChildren ""
        (pswdObj.discreteReflections.map (writeReflection env)))).putChild "lreverb"
          (writeLateReverb env pswdObj.lateReverb)).getChild ["ereflect"] =
        .ok (new.addChildren "" (pswdObj.discreteReflections.map (writeReflection env))) := by
      simp [getChild, getChild?]
    simp only [if_neg hempty, if_neg hcount, hchild, ok_bind, equalRange_addChildren]
    refine (loadAll_map fun refl _ => parseReflection_writeReflection h refl).trans ?_
    rw [List.map_id']

/-- **The room is read back.** -/
theorem parseRoom_writeRoom (h : env.NumbersReadBack) (pswdObj : PointSourceWithReverb F) :
    parseRoom env (writeRoom env pswdObj) =
      .ok (pswdObj.discreteReflections, pswdObj.lateReverb) := by
  have hcount : (writeRoom env pswdObj).count "lreverb" = 1 := by
    unfold writeRoom
    split <;> simp [count, equalRange_putChild, equalRange_addChild, updateHead]
  have hchild : (writeRoom env pswdObj).getChild ["lreverb"] =
      .ok (writeLateReverb env pswdObj.lateReverb) := by
    simp [getChild, getChild?, writeRoom]
  rw [parseRoom, parseReflections_writeRoom h, ok_bind, if_neg (not_not.mpr hcount), hchild,
    ok_bind, parseLateReverb_writeLateReverb h]
  rfl

theorem agreeOn_write (type : ObjectTypeId) (pswdObj : PointSourceWithReverb F)
    (t : PropertyTree) :
    AgreeOn PointSourceParser.attributes (write env type pswdObj t)
      (PointSourceParser.write env type pswdObj.toPointSource t) :=
  AgreeOn.putChild (by decide) _ _

/-- **The attributes are read back.** -/
theorem parse_write (h : env.NumbersReadBack) (type : ObjectTypeId)
    {pswdObj : PointSourceWithReverb F} (hchannels : pswdObj.ChannelsReadable)
    {src : PointSourceWithReverb F} (hid : src.id = pswdObj.id) :
    parse env (write env type pswdObj new) src =
      .ok { pswdObj with toObject := pswdObj.toObject.withoutSmallGains } := by
  have hpoint : PointSourceParser.parse env
      (PointSourceParser.write env type pswdObj.toPointSource new) src.toPointSource = .ok _ :=
    PointSourceParser.parse_write h type hchannels hid
  have hnone : (PointSourceParser.write env type pswdObj.toPointSource new).equalRange "room" =
      [] := PointSourceParser.equalRange_write (by decide) type _ new
  have hcount : (write env type pswdObj new).count "room" = 1 := by
    simp [count, write, equalRange_putChild, hnone, updateHead]
  have hchild : (write env type pswdObj new).getChild ["room"] = .ok (writeRoom env pswdObj) := by
    simp [getChild, getChild?, write]
  rw [← PointSourceParser.parse_congr (agreeOn_write type pswdObj new)] at hpoint
  rw [parse, hpoint, ok_bind, if_neg (not_not.mpr hcount), hchild, ok_bind,
    parseRoom_writeRoom h]
  rfl

theorem parse_toObject {tree : PropertyTree} {src pswdObj : PointSourceWithReverb F}
    (hparse : parse env tree src = .ok pswdObj) :
    ObjectParser.parse env tree src.toObject = .ok pswdObj.toObject := by
  obtain ⟨pointSrc, hpoint, hparse⟩ := exists_of_bind_ok (ok_of_mapError hparse)
  split at hparse
  · cases hparse
  · obtain ⟨roomTree, -, hparse⟩ := exists_of_bind_ok hparse
    obtain ⟨room, -, hparse⟩ := exists_of_bind_ok hparse
    cases hparse
    exact PointSourceParser.parse_toObject hpoint

end PointSourceWithReverbParser

end Visr
