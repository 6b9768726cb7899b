import Visr.Libobjectmodel.ObjectVectorParser

/-!
# Failures of the parsers

What is wrong with a message is reported by exceptions derived from `std::exception`, with
a few exceptions: the texts of sequences may lead to string literals being thrown and to numbers
out of the range of `int`.

## Main results

* `ObjectVectorParser.handled_updateObjectVector_iff` — the messages all failures of which are
  caught.
-/

namespace Visr

open PropertyTree

variable {F : Type} [FloatArithmetic F] (env : Platform F)

/-! ### All objects -/

namespace ObjectParser

/-- The text of the channel indices, if there is one, does no harm. -/
def HarmlessChannels (tree : PropertyTree) : Prop :=
  ∀ channelString, tree.get some ["channels"] = .ok channelString →
    IndexSequence.HarmlessText env.capacity channelString

omit [FloatArithmetic F] in
theorem handled_tryChannels_iff {tree : PropertyTree} {obj : Object F} :
    Handled (tryChannels env tree obj) ↔ HarmlessChannels env tree := by
  have hparse : Handled (parseChannels env tree obj) ↔ HarmlessChannels env tree := by
    refine (handled_bind_iff_of_handled (handled_get _ _ _)).trans ?_
    refine forall_congr' fun channelString => forall_congr' fun _ => ?_
    rw [handled_bind_iff_left fun _ => handled_pure _, IndexSequence.handled_parse_iff]
  rw [← hparse, tryChannels]
  cases parseChannels env tree obj with
  | ok obj' => exact Iff.rfl
  | error a =>
    show Handled (if a.isCaught = true then _ else _) ↔ _
    rw [handled_error]
    by_cases ha : a.isCaught = true
    · rw [if_pos ha]
      exact iff_of_true (handled_ok _) ha
    · rw [if_neg ha, handled_error]

theorem handled_parseEq (tree : PropertyTree) : Handled (parseEq env tree) := by
  unfold parseEq
  split
  · exact ParametricIirCoefficientList.handled_loadJson env _
  · exact handled_ok _

theorem handled_parse_iff {tree : PropertyTree} {obj : Object F} :
    Handled (parse env tree obj) ↔ HarmlessChannels env tree := by
  refine (handled_bind_iff_left fun obj => ?_).trans (handled_tryChannels_iff env)
  exact (handled_get _ _ _).bind fun _ => (handled_get _ _ _).bind fun _ =>
    (handled_get _ _ _).bind fun _ => (handled_parseEq env tree).bind fun _ => handled_pure _

end ObjectParser

open ObjectParser

/-! ### The classes without further sequences -/

section Classes

variable {tree : PropertyTree}

theorem PointSourceParser.handled_parsePosition (posTree : PropertyTree) :
    Handled (parsePosition env posTree) := by
  unfold parsePosition
  dsimp only
  repeat' split
  all_goals first | exact handled_ok _ | exact handled_error.mpr rfl

theorem PointSourceParser.handled_parse_iff {src : PointSource F} :
    Handled (parse env tree src) ↔ HarmlessChannels env tree := by
  refine (handled_bind_iff_left fun obj => ?_).trans (ObjectParser.handled_parse_iff env)
  rw [handled_rethrow]
  exact (handled_getChild _ _).bind fun posTree =>
    (handled_parsePosition env posTree).bind fun _ => handled_pure _

theorem PointSourceWithDiffusenessParser.handled_parse_iff {src : PointSourceWithDiffuseness F} :
    Handled (parse env tree src) ↔ HarmlessChannels env tree := by
  rw [parse, handled_rethrow]
  refine (handled_bind_iff_left fun _ => ?_).trans (PointSourceParser.handled_parse_iff env)
  exact (handled_get _ _ _).bind fun _ => handled_pure _

theorem PointSourceExtentParser.handled_parse_iff {src : PointSourceExtent F} :
    Handled (parse env tree src) ↔ HarmlessChannels env tree := by
  rw [parse, handled_rethrow]
  refine (handled_bind_iff_left fun _ => ?_).trans
    (PointSourceWithDiffusenessParser.handled_parse_iff env)
  exact (handled_get _ _ _).bind fun _ => (handled_get _ _ _).bind fun _ => handled_pure _

theorem PlaneWaveParser.handled_parse_iff {pwSrc : PlaneWave F} :
    Handled (parse env tree pwSrc) ↔ HarmlessChannels env tree := by
  refine (handled_bind_iff_left fun obj => ?_).trans (ObjectParser.handled_parse_iff env)
  rw [handled_rethrow]
  exact (handled_get _ _ _).bind fun _ => (handled_get _ _ _).bind fun _ =>
    (handled_get _ _ _).bind fun _ => handled_pure _

theorem DiffuseSourceParser.handled_parse_iff {obj : DiffuseSource F} :
    Handled (parse env tree obj) ↔ HarmlessChannels env tree := by
  rw [parse, handled_rethrow]
  exact (handled_bind_iff_left fun _ => handled_pure _).trans (ObjectParser.handled_parse_iff env)

theorem HoaSourceParser.handled_parse_iff {hoaSrc : HoaSource F} :
    Handled (parse env tree hoaSrc) ↔ HarmlessChannels env tree := by
  refine (handled_bind_iff_left fun obj => ?_).trans (ObjectParser.handled_parse_iff env)
  rw [handled_rethrow]
  refine (handled_get _ _ _).bind fun order => ?_
  split
  · exact handled_error.mpr rfl
  · exact handled_ok _

theorem ChannelObjectParser.handled_parse_iff {chObj : ChannelObject F} :
    Handled (parse env tree chObj) ↔ HarmlessChannels env tree := by
  rw [parse, handled_rethrow]
  refine (handled_bind_iff_left fun obj => ?_).trans (ObjectParser.handled_parse_iff env)
  refine (handled_get _ _ _).bind fun outChannelStr => ?_
  refine Handled.bind ?_ fun channelIds => ?_
  · unfold parseOutputChannels
    dsimp only
    split
    · exact handled_error.mpr rfl
    · exact handled_ok _
  · split
    · exact handled_error.mpr rfl
    · exact handled_ok _

end Classes

/-! ### Point sources with reverberation -/

namespace PointSourceWithReverbParser

theorem handled_parseReflections (roomTree : PropertyTree) :
    Handled (parseReflections env roomTree) := by
  unfold parseReflections
  split
  · exact handled_ok _
  refine (handled_getChild _ _).bind fun ereflTree => handled_loadAll (fun earlyTree => ?_) _
  refine (handled_getChild _ _).bind fun posTree =>
    (PointSourceParser.handled_parsePosition env posTree).bind fun _ =>
      (handled_get _ _ _).bind fun _ => (handled_get _ _ _).bind fun _ =>
        (handled_getChild _ _).bind fun biquadTree =>
          (BiquadCoefficientList.handled_loadJson env biquadTree).bind fun biqList => ?_
  refine Handled.bind ?_ fun _ => handled_pure _
  unfold setReflectionFilters
  split
  · exact handled_ok _
  · exact handled_error.mpr rfl

/-- The text with the values of an attribute, if there is one, does no harm. -/
def HarmlessCoeffs (lateTree : PropertyTree) (key : String) : Prop :=
  ∀ text, lateTree.get some [key] = .ok text →
    FloatSequence.HarmlessText env.capacity env.float_ text

theorem handled_parseCoeffs_iff {lateTree : PropertyTree} {key : String} :
    Handled (parseCoeffs env lateTree key) ↔ HarmlessCoeffs env lateTree key := by
  refine (handled_bind_iff_of_handled (handled_get _ _ _)).trans ?_
  refine forall_congr' fun text => forall_congr' fun _ => ?_
  refine (handled_bind_iff_left fun values => ?_).trans FloatSequence.handled_parse_iff
  split
  · exact handled_ok _
  · exact handled_error.mpr rfl

/-- The attributes are read in this order, and a text is read if all before it are accepted. -/
def HarmlessLateReverb (lateTree : PropertyTree) : Prop :=
  (∃ onset, lateTree.get env.getFloat ["delay"] = .ok onset) →
    HarmlessCoeffs env lateTree "level" ∧
    ((∃ levels, parseCoeffs env lateTree "level" = .ok levels) →
      HarmlessCoeffs env lateTree "attacktime" ∧
      ((∃ attackTimes, parseCoeffs env lateTree "attacktime" = .ok attackTimes) →
        HarmlessCoeffs env lateTree "decayconst"))

theorem handled_parseLateReverb_iff {lateTree : PropertyTree} :
    Handled (parseLateReverb env lateTree) ↔ HarmlessLateReverb env lateTree := by
  refine (handled_bind_iff_of_handled (handled_get _ _ _)).trans ?_
  rw [HarmlessLateReverb, forall_exists_index]
  refine forall_congr' fun onset => forall_congr' fun _ => ?_
  rw [handled_bind, handled_parseCoeffs_iff, forall_exists_index]
  refine and_congr_right fun _ => forall_congr' fun levels => forall_congr' fun _ => ?_
  rw [handled_bind, handled_parseCoeffs_iff, forall_exists_index]
  refine and_congr_right fun _ => forall_congr' fun attackTimes => forall_congr' fun _ => ?_
  rw [handled_bind_iff_left fun _ => handled_pure _, handled_parseCoeffs_iff]

/-- The late reverberation of a room, if it is reached, does no harm. -/
def HarmlessRoom (roomTree : PropertyTree) : Prop :=
  (∃ reflections, parseReflections env roomTree = .ok reflections) →
    roomTree.count "lreverb" = 1 →
      ∀ lateTree, roomTree.getChild ["lreverb"] = .ok lateTree → HarmlessLateReverb env lateTree

theorem handled_parseRoom_iff {roomTree : PropertyTree} :
    Handled (parseRoom env roomTree) ↔ HarmlessRoom env roomTree := by
  refine (handled_bind_iff_of_handled (handled_parseReflections env roomTree)).trans ?_
  rw [HarmlessRoom, forall_exists_index]
  refine forall_congr' fun reflections => forall_congr' fun _ => ?_
  by_cases hcount : roomTree.count "lreverb" = 1
  · rw [if_neg (not_not_intro hcount), imp_iff_right hcount,
      handled_bind_iff_of_handled (handled_getChild _ _)]
    refine forall_congr' fun lateTree => forall_congr' fun _ => ?_
    rw [handled_bind_iff_left fun _ => handled_pure _, handled_parseLateReverb_iff]
  · rw [if_pos hcount]
    exact iff_of_true (handled_error.mpr rfl) fun h => absurd h hcount

/-- The channel indices and the room do no harm. -/
def Harmless (tree : PropertyTree) (src : PointSourceWithReverb F) : Prop :=
  HarmlessChannels env tree ∧
    ((∃ pointSrc, PointSourceParser.parse env tree src.toPointSource = .ok pointSrc) →
      tree.count "room" = 1 →
        ∀ roomTree, tree.getChild ["room"] = .ok roomTree → HarmlessRoom env roomTree)

theorem handled_parse_iff {tree : PropertyTree} {src : PointSourceWithReverb F} :
    Handled (parse env tree src) ↔ Harmless env tree src := by
  rw [parse, handled_rethrow, handled_bind, PointSourceParser.handled_parse_iff, Harmless,
    forall_exists_index]
  refine and_congr_right fun _ => forall_congr' fun pointSrc => forall_congr' fun _ => ?_
  by_cases hcount : tree.count "room" = 1
  · rw [if_neg (not_not_intro hcount), imp_iff_right hcount,
      handled_bind_iff_of_handled (handled_getChild _ _)]
    refine forall_congr' fun roomTree => forall_congr' fun _ => ?_
    rw [handled_bind_iff_left fun _ => handled_pure _, handled_parseRoom_iff]
  · rw [if_pos hcount]
    exact iff_of_true (handled_error.mpr rfl) fun h => absurd h hcount

end PointSourceWithReverbParser

/-! ### Any object -/

/-- The texts that are read into the object do no harm. -/
def AnyObject.Harmless (tree : PropertyTree) : AnyObject F → Prop
  | pointSourceWithReverb src => PointSourceWithReverbParser.Harmless env tree src
  | _ => HarmlessChannels env tree

theorem AnyObject.handled_parse_iff {tree : PropertyTree} {src : AnyObject F} :
    Handled (AnyObject.parse env tree src) ↔ src.Harmless env tree := by
  cases src with
  | pointSource src => exact handled_map.trans (PointSourceParser.handled_parse_iff env)
  | planeWave src => exact handled_map.trans (PlaneWaveParser.handled_parse_iff env)
  | diffuseSource src => exact handled_map.trans (DiffuseSourceParser.handled_parse_iff env)
  | pointSourceWithDiffuseness src =>
    exact handled_map.trans (PointSourceWithDiffusenessParser.handled_parse_iff env)
  | pointSourceWithReverb src =>
    exact handled_map.trans (PointSourceWithReverbParser.handled_parse_iff env)
  | pointSourceExtent src => exact handled_map.trans (PointSourceExtentParser.handled_parse_iff env)
  | hoaSource src => exact handled_map.trans (HoaSourceParser.handled_parse_iff env)
  | channelObject src => exact handled_map.trans (ChannelObjectParser.handled_parse_iff env)

/-! ### Messages -/

namespace ObjectVectorParser

/-- The attributes of an object of a message, if they are reached, do no harm. -/
def Harmless (subtree : PropertyTree) (res : ObjectVector F) : Prop :=
  ∀ objTypeStr, subtree.get some ["type"] = .ok objTypeStr →
    ∀ objId, subtree.get env.getUnsigned ["id"] = .ok objId →
      ∀ objTypeId, stringToObjectType objTypeStr = .ok objTypeId →
        ∀ src, newObject res objTypeId objId = .ok src → src.Harmless env subtree

theorem handled_stringToObjectType (typeString : String) :
    Handled (stringToObjectType typeString) := by
  unfold stringToObjectType
  split
  · exact handled_ok _
  · exact handled_error.mpr rfl

theorem handled_create (objTypeId : ObjectTypeId) (objId : UnsignedInt) :
    Handled (ObjectFactory.create objTypeId objId : Except Abort (AnyObject F)) := by
  cases objTypeId <;> first | exact handled_ok _ | exact handled_error.mpr rfl

theorem handled_newObject (res : ObjectVector F) (objTypeId : ObjectTypeId) (objId : UnsignedInt) :
    Handled (newObject res objTypeId objId) := by
  unfold newObject
  split
  · split
    · exact handled_ok _
    · exact handled_create objTypeId objId
  · exact handled_create objTypeId objId

theorem handled_parseObject_iff {subtree : PropertyTree} {res : ObjectVector F} :
    Handled (parseObject env subtree res) ↔ Harmless env subtree res := by
  refine (handled_bind_iff_of_handled (handled_get _ _ _)).trans ?_
  refine forall_congr' fun objTypeStr => forall_congr' fun _ => ?_
  rw [handled_bind_iff_of_handled (handled_get _ _ _)]
  refine forall_congr' fun objId => forall_congr' fun _ => ?_
  rw [handled_bind_iff_of_handled (handled_stringToObjectType _)]
  refine forall_congr' fun objTypeId => forall_congr' fun _ => ?_
  cases objTypeId with
  | ExtendedSource =>
    -- There is neither a parser for this type nor an object of it.
    refine iff_of_true (handled_error.mpr rfl) fun src hsrc => ?_
    have htype := (newObject_ok hsrc).2.1
    cases src <;> cases htype
  | _ =>
    refine (handled_bind_iff_of_handled (handled_newObject _ _ _)).trans ?_
    refine forall_congr' fun src => forall_congr' fun _ => ?_
    exact (handled_bind_iff_left fun _ => handled_pure _).trans (AnyObject.handled_parse_iff env)

/-- All objects of a message, up to the first faulty one, do no harm. -/
def AllHarmless : List PropertyTree → ObjectVector F → Prop
  | [], _ => True
  | subtree :: subtrees, res =>
    Harmless env subtree res ∧
      ∀ res', parseObject env subtree res = .ok res' → AllHarmless subtrees res'

theorem handled_parseObjects_iff {subtrees : List PropertyTree} {res : ObjectVector F} :
    Handled (parseObjects env subtrees res).2 ↔ AllHarmless env subtrees res := by
  induction subtrees generalizing res with
  | nil => exact iff_of_true (handled_ok _) trivial
  | cons subtree subtrees ih =>
    rw [AllHarmless, ← handled_parseObject_iff, parseObjects]
    cases parseObject env subtree res with
    | ok res' =>
      refine ih.trans ⟨fun h => ⟨handled_ok _, ?_⟩, fun h => h.2 res' rfl⟩
      rintro _ ⟨⟩
      exact h
    | error a =>
      show Handled (.error (a.rethrow _)) ↔ _
      rw [handled_error, handled_error, Abort.isCaught_rethrow]
      refine and_iff_left_iff_imp.mpr ?_ |>.symm
      intro _ res' hres
      cases hres

/-- **Messages all failures of which are caught.** -/
theorem handled_updateObjectVector_iff {message : List UInt8} {res : ObjectVector F} :
    Handled (updateObjectVector env message res).2 ↔ AllHarmless env (entries env message) res := by
  rcases updateObjectVector_cases env message res with h | ⟨hnil, a, ha, h⟩
  · rw [h, handled_parseObjects_iff]
  · rw [h, hnil]
    exact iff_of_true (handled_error.mpr ha) trivial

end ObjectVectorParser

end Visr
