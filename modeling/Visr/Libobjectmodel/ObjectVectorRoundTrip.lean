import Visr.Libobjectmodel.ChannelObjectCodec
import Visr.Libobjectmodel.PointSourceWithReverbCodec
import Visr.Librbbl.WholeNumber

/-!
# Encoding and decoding object vectors

An object vector is encoded into a message, from which any object vector is filled.

## Main results

* `AnyObject.parse_write` — an object of any class is read back.
* `ObjectVectorParser.updateObjectVector_readable` — all decoded objects are readable.
* `ObjectVector.readsBack_iff` — **a vector is read back if and only if all of its objects are
  transmissible.**
-/

namespace Visr

open Grammar PropertyTree FloatArithmetic

variable {F : Type} [FloatArithmetic F] {env : Platform F}

namespace AnyObject

/-- What remains of an object after its small gains are lost. -/
def withoutSmallGains (o : AnyObject F) : AnyObject F :=
  o.withObject o.toObject.withoutSmallGains

@[simp] theorem toObject_withoutSmallGains (o : AnyObject F) :
    o.withoutSmallGains.toObject = o.toObject.withoutSmallGains := o.toObject_withObject _

@[simp] theorem id_withoutSmallGains (o : AnyObject F) : o.withoutSmallGains.id = o.id := by
  rw [id, toObject_withoutSmallGains]
  rfl

/-- All gains of the equaliser are large enough to be written, or zero. -/
def GainsKept (o : AnyObject F) : Prop :=
  ∀ c ∈ o.toObject.eqCoefficients, c.gain = 0 ∨ c.gainWritten = true

theorem withoutSmallGains_eq_iff {o : AnyObject F} : o.withoutSmallGains = o ↔ o.GainsKept := by
  have hlist : o.GainsKept ↔
      o.toObject.eqCoefficients.map ParametricIirCoefficient.withoutSmallGain =
        o.toObject.eqCoefficients := by
    have hmap : o.toObject.eqCoefficients.map ParametricIirCoefficient.withoutSmallGain =
        o.toObject.eqCoefficients.map (fun c => c) ↔
          ∀ c ∈ o.toObject.eqCoefficients, c.withoutSmallGain = c := List.map_inj_left
    rw [List.map_id'] at hmap
    rw [hmap]
    exact forall₂_congr fun c _ => ParametricIirCoefficient.withoutSmallGain_eq_iff.symm
  rw [hlist]
  constructor
  · intro h
    have hobject := congrArg toObject h
    rw [toObject_withoutSmallGains] at hobject
    exact congrArg Object.eqCoefficients hobject
  · intro h
    rw [withoutSmallGains, Object.withoutSmallGains, h]
    exact o.withObject_toObject

/-- The labels of a channel object are admitted by the grammar. -/
def LabelsAdmitted (o : AnyObject F) : Prop :=
  ∀ chObj, o = channelObject chObj →
    ∀ labels ∈ chObj.outputChannels, ∀ l ∈ labels, ChannelObjectParser.IsLabel l

/-- What all decoded objects have in common. -/
structure Readable (o : AnyObject F) : Prop where
  channels : o.toObject.ChannelsReadable
  hoa : ∀ hoaObj, o = hoaSource hoaObj → hoaObj.Complete
  labels : o.LabelsAdmitted

/-- The objects that are encoded and decoded without a loss: they have no extent, their channel
indices are of the type `int`, no gain is lost, a sound field has the right number of channels,
and a channel object has labels for each of its channels, which are at least one, all of
which the grammar admits. -/
structure Transmissible (o : AnyObject F) : Prop where
  type : o.type ≠ .PointSourceExtent
  channels : o.toObject.ChannelsReadable
  gains : o.GainsKept
  hoa : ∀ hoaObj, o = hoaSource hoaObj → hoaObj.Complete
  outputChannels : ∀ chObj, o = channelObject chObj →
    chObj.numberOfChannels = chObj.outputChannels.length ∧ chObj.outputChannels ≠ []
  labels : o.LabelsAdmitted

/-! ### Objects of any class -/

/-- The class and the id are written in the same way for all classes. -/
theorem agreeOn_write {o : AnyObject F} {tree : PropertyTree}
    (hwrite : o.write env new = .ok tree) :
    AgreeOn ObjectParser.attributes tree (ObjectParser.write env o.type o.toObject new) := by
  have hsub : ObjectParser.attributes ⊆ PointSourceParser.attributes :=
    List.subset_append_right _ _
  cases o with
  | pointSource o =>
    cases hwrite
    exact PointSourceParser.agreeOn_write _ o new
  | planeWave o =>
    cases hwrite
    exact PlaneWaveParser.agreeOn_write _ o new
  | diffuseSource o =>
    cases hwrite
    exact AgreeOn.refl _ _
  | pointSourceWithDiffuseness o =>
    cases hwrite
    exact ((PointSourceWithDiffusenessParser.agreeOn_write _ o new).mono hsub).trans
      (PointSourceParser.agreeOn_write _ o.toPointSource new)
  | pointSourceWithReverb o =>
    cases hwrite
    exact ((PointSourceWithReverbParser.agreeOn_write _ o new).mono hsub).trans
      (PointSourceParser.agreeOn_write _ o.toPointSource new)
  | pointSourceExtent o =>
    cases hwrite
    exact ((PointSourceExtentParser.agreeOn_write _ o new).mono hsub).trans
      (PointSourceParser.agreeOn_write _ o.toPointSource new)
  | hoaSource o =>
    cases hwrite
    exact HoaSourceParser.agreeOn_write _ o new
  | channelObject o => exact ChannelObjectParser.agreeOn_write hwrite

/-- **What is written is read back** into a new object, but for small gains. -/
theorem parse_write (h : env.NumbersReadBack) {o : AnyObject F} (htype : o.type ≠ .PointSourceExtent)
    (hreadable : o.Readable) {tree : PropertyTree} (hwrite : o.write env new = .ok tree) :
    ∃ src, ObjectFactory.create o.type o.id = .ok src ∧
      AnyObject.parse env tree src = .ok o.withoutSmallGains := by
  have hchannels := hreadable.channels
  cases o with
  | pointSource o =>
    cases hwrite
    refine ⟨.pointSource (.create o.id), rfl, ?_⟩
    have hid : (PointSource.create o.id : PointSource F).id = o.id := rfl
    rw [AnyObject.parse, PointSourceParser.parse_write h _ hchannels hid]
    rfl
  | planeWave o =>
    cases hwrite
    refine ⟨.planeWave (.create o.id), rfl, ?_⟩
    have hid : (PlaneWave.create o.id : PlaneWave F).id = o.id := rfl
    rw [AnyObject.parse, PlaneWaveParser.parse_write h _ hchannels hid]
    rfl
  | diffuseSource o =>
    cases hwrite
    refine ⟨.diffuseSource (.create o.id), rfl, ?_⟩
    have hid : (DiffuseSource.create o.id : DiffuseSource F).id = o.id := rfl
    rw [AnyObject.parse, DiffuseSourceParser.parse_write h _ hchannels hid]
    rfl
  | pointSourceWithDiffuseness o =>
    cases hwrite
    refine ⟨.pointSourceWithDiffuseness (.create o.id), rfl, ?_⟩
    have hid : (PointSourceWithDiffuseness.create o.id : PointSourceWithDiffuseness F).id = o.id := rfl
    rw [AnyObject.parse, PointSourceWithDiffusenessParser.parse_write h _ hchannels hid]
    rfl
  | pointSourceWithReverb o =>
    cases hwrite
    refine ⟨.pointSourceWithReverb (.create o.id), rfl, ?_⟩
    have hid : (PointSourceWithReverb.create o.id : PointSourceWithReverb F).id = o.id := rfl
    rw [AnyObject.parse, PointSourceWithReverbParser.parse_write h _ hchannels hid]
    rfl
  | pointSourceExtent o => exact absurd rfl htype
  | hoaSource o =>
    cases hwrite
    refine ⟨.hoaSource (.create o.id), rfl, ?_⟩
    have hid : (HoaSource.create o.id : HoaSource F).id = o.id := rfl
    rw [AnyObject.parse, HoaSourceParser.parse_write h _ hchannels (hreadable.hoa o rfl) hid]
    rfl
  | channelObject o =>
    refine ⟨.channelObject (.create o.id), rfl, ?_⟩
    have hid : (ChannelObject.create o.id : ChannelObject F).id = o.id := rfl
    rw [AnyObject.parse, ChannelObjectParser.parse_write h _ hchannels (hreadable.labels o rfl)
      hwrite hid]
    rfl

/-- Parsing reads the common attributes in the same way for all classes, and keeps the class. -/
theorem parse_toObject {tree : PropertyTree} {src o : AnyObject F}
    (hparse : AnyObject.parse env tree src = .ok o) :
    ObjectParser.parse env tree src.toObject = .ok o.toObject ∧ o.type = src.type ∧
      (∀ hoaObj, o = hoaSource hoaObj → hoaObj.Complete) ∧
      ∀ chObj, o = channelObject chObj →
        ∀ labels ∈ chObj.outputChannels, ∀ l ∈ labels, ChannelObjectParser.IsLabel l := by
  cases src with
  | pointSource src =>
    obtain ⟨o', ho', rfl⟩ := exists_of_map_ok hparse
    exact ⟨PointSourceParser.parse_toObject ho', rfl, nofun, nofun⟩
  | planeWave src =>
    obtain ⟨o', ho', rfl⟩ := exists_of_map_ok hparse
    exact ⟨PlaneWaveParser.parse_toObject ho', rfl, nofun, nofun⟩
  | diffuseSource src =>
    obtain ⟨o', ho', rfl⟩ := exists_of_map_ok hparse
    exact ⟨DiffuseSourceParser.parse_toObject ho', rfl, nofun, nofun⟩
  | pointSourceWithDiffuseness src =>
    obtain ⟨o', ho', rfl⟩ := exists_of_map_ok hparse
    exact ⟨PointSourceWithDiffusenessParser.parse_toObject ho', rfl, nofun, nofun⟩
  | pointSourceWithReverb src =>
    obtain ⟨o', ho', rfl⟩ := exists_of_map_ok hparse
    exact ⟨PointSourceWithReverbParser.parse_toObject ho', rfl, nofun, nofun⟩
  | pointSourceExtent src =>
    obtain ⟨o', ho', rfl⟩ := exists_of_map_ok hparse
    exact ⟨PointSourceExtentParser.parse_toObject ho', rfl, nofun, nofun⟩
  | hoaSource src =>
    obtain ⟨o', ho', rfl⟩ := exists_of_map_ok hparse
    obtain ⟨hobj, hcomplete⟩ := HoaSourceParser.parse_result ho'
    refine ⟨hobj, rfl, ?_, nofun⟩
    rintro _ ⟨⟩
    exact hcomplete
  | channelObject src =>
    obtain ⟨o', ho', rfl⟩ := exists_of_map_ok hparse
    obtain ⟨hobj, hlabels⟩ := ChannelObjectParser.parse_result ho'
    refine ⟨hobj, rfl, nofun, ?_⟩
    rintro _ ⟨⟩
    exact hlabels

/-- **Parsed objects are readable.** -/
theorem readable_of_parse {tree : PropertyTree} {src o : AnyObject F}
    (hsrc : src.toObject.ChannelsReadable) (hparse : AnyObject.parse env tree src = .ok o) :
    o.Readable := by
  obtain ⟨hobj, -, hhoa, hlabels⟩ := parse_toObject hparse
  exact ⟨ObjectParser.parse_channelsReadable hsrc hobj, hhoa, hlabels⟩

end AnyObject

/-! ### Object vectors -/

namespace ObjectVectorParser

/-- All objects of a vector are readable. -/
def AllReadable (v : ObjectVector F) : Prop := ∀ id o, v.find? id = some o → o.Readable

theorem parseObject_readable {subtree : PropertyTree} {res res' : ObjectVector F}
    (hres : AllReadable res) (h : parseObject env subtree res = .ok res') : AllReadable res' := by
  obtain ⟨_, _, objId, src, o, -, -, -, hsrc, ho, rfl⟩ := parseObject_ok h
  have hchannels : src.toObject.ChannelsReadable := by
    obtain ⟨-, -, hfind | hnil⟩ := newObject_ok hsrc
    · exact (hres objId src hfind).channels
    · intro i hi
      rw [hnil] at hi
      cases hi
  intro id o' ho'
  rw [ObjectVector.find?_insert] at ho'
  split at ho'
  · cases ho'
    exact AnyObject.readable_of_parse hchannels ho
  · exact hres id o' ho'

theorem parseObjects_readable (subtrees : List PropertyTree) {res : ObjectVector F}
    (hres : AllReadable res) : AllReadable (parseObjects env subtrees res).1 := by
  induction subtrees generalizing res with
  | nil => exact hres
  | cons subtree subtrees ih =>
    rw [parseObjects]
    split
    next res' hres' => exact ih (parseObject_readable hres hres')
    next => exact hres

/-- **All decoded objects are readable**, whatever the message is. -/
theorem updateObjectVector_readable (env : Platform F) (message : List UInt8) {res : ObjectVector F}
    (hres : AllReadable res) : AllReadable (updateObjectVector env message res).1 := by
  unfold updateObjectVector
  split
  · exact hres
  · split
    · exact hres
    · exact parseObjects_readable _ hres

/-! ### Encoding and decoding -/

/-- The class and the id of a written object are read. -/
theorem get_write (h : env.NumbersReadBack) {o : AnyObject F} {tree : PropertyTree}
    (hwrite : o.write env new = .ok tree) :
    tree.get some ["type"] = .ok (objectTypeToString o.type) ∧
      tree.get env.getUnsigned ["id"] = .ok o.id := by
  have hagree := AnyObject.agreeOn_write hwrite
  have htype : tree.find? "type" = some (node (objectTypeToString o.type) []) :=
    (hagree.find? (by decide)).trans (ObjectParser.find?_write_type env o.type o.toObject)
  have hid : tree.find? "id" = some (node (env.putUnsigned o.id) []) :=
    (hagree.find? (by decide)).trans (ObjectParser.find?_write_id env o.type o.toObject)
  exact ⟨get_of_find? htype, (get_of_find? hid).trans (h.convert_unsigned o.id)⟩

/-- A written object is inserted, if its id is new. -/
theorem parseObject_write (h : env.NumbersReadBack) {o : AnyObject F}
    (htype : o.type ≠ .PointSourceExtent) (hreadable : o.Readable) {tree : PropertyTree}
    (hwrite : o.write env new = .ok tree) {v : ObjectVector F} (hnew : v.find? o.id = none) :
    parseObject env tree v = .ok (v.insert o.withoutSmallGains) := by
  obtain ⟨src, hsrc, hparse⟩ := AnyObject.parse_write h htype hreadable hwrite
  obtain ⟨htypeStr, hid⟩ := get_write h hwrite
  have hparser : ObjectFactory.parser env o.type = .ok (AnyObject.parse env) := by
    cases o <;> rfl
  have hnewObject : newObject v o.type o.id = .ok src := by
    rw [newObject, hnew]
    exact hsrc
  rw [parseObject, htypeStr, ok_bind, hid, ok_bind, stringToObjectType_objectTypeToString, ok_bind,
    hparser, ok_bind, hnewObject, ok_bind, hparse]
  rfl

/-- An object with extent is never decoded from what was written. -/
theorem parseObject_extent (h : env.NumbersReadBack) {o : AnyObject F}
    (htype : o.type = .PointSourceExtent) {tree : PropertyTree}
    (hwrite : o.write env new = .ok tree) {v v' : ObjectVector F} :
    parseObject env tree v ≠ .ok v' := by
  intro hparse
  obtain ⟨typeStr, typeId, objId, src, o', htypeStr, htypeId, -, hsrc, hparse, -⟩ :=
    parseObject_ok hparse
  rw [(get_write h hwrite).1] at htypeStr
  cases htypeStr
  rw [stringToObjectType_objectTypeToString, htype] at htypeId
  cases htypeId
  cases o with
  | pointSourceExtent o =>
    obtain ⟨-, hsrcType, -⟩ := newObject_ok hsrc
    cases src with
    | pointSourceExtent src =>
      cases hwrite
      obtain ⟨result, hresult, -⟩ := exists_of_map_ok hparse
      exact PointSourceExtentParser.parse_write _ o src result hresult
    | _ => cases hsrcType
  | _ => cases htype

section Objects

variable {objects : List (AnyObject F)} {trees : List PropertyTree}

/-- Written objects with new and distinct ids are inserted one by one. -/
theorem parseObjects_write (h : env.NumbersReadBack)
    (htrees : List.Forall₂ (fun o tree => o.write env new = .ok tree) objects trees)
    (htype : ∀ o ∈ objects, o.type ≠ .PointSourceExtent) (hreadable : ∀ o ∈ objects, o.Readable)
    (hnodup : (objects.map AnyObject.id).Nodup) {v : ObjectVector F}
    (hnew : ∀ o ∈ objects, v.find? o.id = none) :
    parseObjects env trees v =
      ((objects.map AnyObject.withoutSmallGains).foldl ObjectVector.insert v, .ok ()) := by
  induction htrees generalizing v with
  | nil => rfl
  | @cons o tree objects trees hwrite htrees ih =>
    obtain ⟨hotype, htype⟩ := List.forall_mem_cons.mp htype
    obtain ⟨horeadable, hreadable⟩ := List.forall_mem_cons.mp hreadable
    obtain ⟨honew, hnew⟩ := List.forall_mem_cons.mp hnew
    obtain ⟨hfirst, hrest⟩ := List.nodup_cons.mp hnodup
    rw [parseObjects, parseObject_write h hotype horeadable hwrite honew]
    refine ih htype hreadable hrest fun o' ho' => ?_
    have hne : o'.id ≠ o.id := fun heq => hfirst (heq ▸ List.mem_map_of_mem ho')
    rw [ObjectVector.find?_insert, AnyObject.id_withoutSmallGains, if_neg hne]
    exact hnew o' ho'

/-- If written objects are decoded, none of them has an extent. -/
theorem type_ne_of_parseObjects (h : env.NumbersReadBack)
    (htrees : List.Forall₂ (fun o tree => o.write env new = .ok tree) objects trees)
    {v : ObjectVector F} (hok : (parseObjects env trees v).2 = .ok ()) :
    ∀ o ∈ objects, o.type ≠ .PointSourceExtent := by
  induction htrees generalizing v with
  | nil => exact List.forall_mem_nil _
  | @cons o tree objects trees hwrite htrees ih =>
    rw [parseObjects] at hok
    cases hparse : parseObject env tree v with
    | error a =>
      rw [hparse] at hok
      cases hok
    | ok v' =>
      rw [hparse] at hok
      refine List.forall_mem_cons.mpr ⟨?_, ih hok⟩
      intro htype
      exact parseObject_extent h htype hwrite hparse

end Objects

/-- What it means that a vector is filled from the message of a tree. -/
theorem fillObjectVector_eq_ok_iff {message : List UInt8} {trees : List PropertyTree}
    (hread : env.readJson message = .ok (vectorTree trees)) {old v : ObjectVector F} :
    fillObjectVector env message old = (v, .ok ()) ↔
      parseObjects env trees .empty = (v, .ok ()) := by
  have hupdate : updateObjectVector env message .empty = parseObjects env trees .empty := by
    rw [updateObjectVector, hread]
    simp only [getChild_vectorTree, trees_addChildren]
  rw [fillObjectVector, hupdate]
  rcases parseObjects env trees .empty with ⟨w, _ | _⟩
  · constructor <;> intro h <;> cases h
  · rfl

/-- All objects of a vector that was filled are readable. -/
theorem fillObjectVector_readable {message : List UInt8} {old v : ObjectVector F}
    (h : fillObjectVector env message old = (v, .ok ())) : AllReadable v := by
  have hempty : AllReadable (ObjectVector.empty : ObjectVector F) := fun _ _ ho => nomatch ho
  have hreadable := updateObjectVector_readable env message hempty
  unfold fillObjectVector at h
  split at h
  next newVec hnew =>
    cases h
    rw [hnew] at hreadable
    exact hreadable
  next => cases h

end ObjectVectorParser

namespace AnyObject

/-- Transmissible objects are written. -/
theorem Transmissible.write {o : AnyObject F} (h : o.Transmissible) (e : Platform F) :
    ∃ tree, o.write e new = .ok tree := by
  cases o with
  | channelObject o =>
    obtain ⟨hsize, hne⟩ := h.outputChannels o rfl
    exact ⟨_, ChannelObjectParser.write_eq_ok_iff.mpr ⟨hsize, hne, rfl⟩⟩
  | _ => exact ⟨_, rfl⟩

theorem Transmissible.readable {o : AnyObject F} (h : o.Transmissible) : o.Readable :=
  ⟨h.channels, h.hoa, h.labels⟩

/-- Readable objects that are written and have no extent may lose small gains only. -/
theorem Readable.transmissible {o : AnyObject F} (h : o.Readable)
    (htype : o.type ≠ .PointSourceExtent) (hgains : o.GainsKept) {tree : PropertyTree}
    (hwrite : o.write env new = .ok tree) : o.Transmissible := by
  refine ⟨htype, h.channels, hgains, h.hoa, ?_, h.labels⟩
  rintro chObj rfl
  obtain ⟨hsize, hne, -⟩ := ChannelObjectParser.write_eq_ok_iff.mp hwrite
  exact ⟨hsize, hne⟩

end AnyObject

namespace ObjectVector

open ObjectVectorParser

/-- Any object vector that is filled from the message of a vector is equal to that vector
afterwards. -/
def ReadsBack (objects : ObjectVector F) (env : Platform F) : Prop :=
  ∀ old : ObjectVector F, ∃ message, encodeObjectVector env objects = .ok message ∧
    fillObjectVector env message old = (objects, .ok ())

/-- The JSON library reads back the tree that is written for a vector, if its texts contain
only the characters of numbers, of the names of attributes and of admitted labels. -/
def JsonReadsBack (objects : ObjectVector F) (env : Platform F) : Prop :=
  (∀ o ∈ objects.toList, o.LabelsAdmitted) →
    ∀ trees, loadAll (fun obj : AnyObject F => obj.write env new) objects.toList = .ok trees →
      env.JsonReadsBack (vectorTree trees)

/-- What is decoded from the message of a vector with readable objects. -/
theorem parseObjects_toList (h : env.NumbersReadBack) {objects : ObjectVector F}
    {trees : List PropertyTree}
    (htrees : loadAll (fun obj : AnyObject F => obj.write env new) objects.toList = .ok trees)
    (htype : ∀ o ∈ objects.toList, o.type ≠ .PointSourceExtent)
    (hreadable : ∀ o ∈ objects.toList, o.Readable) :
    parseObjects env trees .empty =
      ((objects.toList.map AnyObject.withoutSmallGains).foldl insert .empty, .ok ()) :=
  parseObjects_write h (loadAll_ok htrees) htype hreadable objects.nodup_ids fun _ _ => rfl

/-- **A vector is decoded from the message into which it is encoded if and only if all of its
objects are transmissible.** -/
theorem readsBack_iff (h : env.NumbersReadBack) {objects : ObjectVector F}
    (hjson : objects.JsonReadsBack env) :
    objects.ReadsBack env ↔ ∀ o ∈ objects.toList, o.Transmissible := by
  constructor
  · intro hback o ho
    obtain ⟨message, hencode, hfill⟩ := hback .empty
    obtain ⟨trees, htrees, hwrite⟩ := exists_of_bind_ok hencode
    have hwritten := loadAll_ok htrees
    have hreadable : ∀ o ∈ objects.toList, o.Readable := fun o ho =>
      fillObjectVector_readable hfill o.id o (mem_toList.mp ho)
    obtain ⟨text, htext, hread⟩ := hjson (fun o ho => (hreadable o ho).labels) trees htrees
    have hmessage : text = message := by
      rw [htext] at hwrite
      exact Except.ok.inj hwrite
    rw [hmessage] at hread
    have hparse := (fillObjectVector_eq_ok_iff hread).mp hfill
    have htype := type_ne_of_parseObjects h hwritten (congrArg Prod.snd hparse)
    -- The decoded vector has the objects without their small gains.
    have hfold : objects =
        (objects.toList.map AnyObject.withoutSmallGains).foldl insert .empty :=
      congrArg Prod.fst (hparse.symm.trans (parseObjects_toList h htrees htype hreadable))
    have hgains : o.withoutSmallGains = o := by
      have hnodup : ((objects.toList.map AnyObject.withoutSmallGains).map AnyObject.id).Nodup := by
        have hids : (objects.toList.map AnyObject.withoutSmallGains).map AnyObject.id =
            objects.toList.map AnyObject.id := by
          rw [List.map_map]
          exact List.map_congr_left fun o _ => AnyObject.id_withoutSmallGains o
        rw [hids]
        exact objects.nodup_ids
      have hfind := find?_foldl_insert hnodup (List.mem_map_of_mem ho) .empty
      rw [← hfold, AnyObject.id_withoutSmallGains, mem_toList.mp ho] at hfind
      exact (Option.some.inj hfind).symm
    obtain ⟨tree, hotree⟩ := exists_loadAll_iff.mp ⟨trees, htrees⟩ o ho
    exact (hreadable o ho).transmissible (htype o ho)
      (AnyObject.withoutSmallGains_eq_iff.mp hgains) hotree
  · intro hobjects old
    obtain ⟨trees, htrees⟩ := exists_loadAll_iff.mpr fun o ho =>
      (hobjects o ho).write env
    obtain ⟨message, hmessage, hread⟩ := hjson (fun o ho => (hobjects o ho).labels) trees htrees
    refine ⟨message, ?_, (fillObjectVector_eq_ok_iff hread).mpr ?_⟩
    · rw [encodeObjectVector, htrees, ok_bind, hmessage]
      rfl
    · rw [parseObjects_toList h htrees (fun o ho => (hobjects o ho).type)
        fun o ho => (hobjects o ho).readable]
      have hid : objects.toList.map AnyObject.withoutSmallGains = objects.toList := by
        rw [List.map_congr_left fun o ho =>
          AnyObject.withoutSmallGains_eq_iff.mpr (hobjects o ho).gains, List.map_id']
      rw [hid, objects.foldl_insert_toList]

end ObjectVector

namespace ObjectVector

open ObjectVectorParser WholeNumber

/-- A point source with two channels. -/
def pointVector : ObjectVector WholeNumber :=
  empty.insert (.pointSource {
    id := 1
    groupId := 0
    level := ⟨1⟩
    priority := 5
    channelIndices := [0, 7]
    eqCoefficients := []
    x := ⟨2⟩
    y := ⟨0⟩
    z := ⟨0⟩
    channelLockDistance := ⟨0⟩ })

/-- The tree of the object. -/
def pointTree : PropertyTree :=
  node "" [("type", node "point" []), ("channels", node "0, 7" []), ("id", node "1" []),
    ("group", node "0" []), ("level", node "1" []), ("priority", node "5" []),
    ("position", node "" [("x", node "2" []), ("y", node "0" []), ("z", node "0" [])])]

/-- The message. -/
def pointText : List UInt8 :=
  ("\x7b\"objects\":[\x7b\"type\":\"point\",\"channels\":\"0, 7\",\"id\":\"1\",\"group\":\"0\"," ++
    "\"level\":\"1\",\"priority\":\"5\",\"position\":\x7b\"x\":\"2\",\"y\":\"0\"," ++
    "\"z\":\"0\"\x7d\x7d]\x7d\n").toUTF8.toList

def pointPlatform : Platform WholeNumber := platform [(pointText, vectorTree [pointTree])]

theorem jsonReadsBack_pointVector : pointVector.JsonReadsBack pointPlatform := by
  intro _ trees htrees
  have hwrite : loadAll (fun obj => AnyObject.write pointPlatform obj new) pointVector.toList =
      .ok [pointTree] := rfl
  rw [hwrite] at htrees
  cases htrees
  exact ⟨pointText, rfl, readJson_platform pointText (vectorTree [pointTree]) []⟩

theorem readsBack_iff_point : pointVector.ReadsBack pointPlatform := by
  refine (readsBack_iff (numbersReadBack_platform _) jsonReadsBack_pointVector).mpr ?_
  intro o ho
  cases List.mem_singleton.mp ho
  refine ⟨by decide, ?_, List.forall_mem_nil _, nofun, nofun, nofun⟩
  show ∀ i ∈ ([0, 7] : List UnsignedInt), i.val < 2 ^ 31
  rw [List.forall_mem_cons, List.forall_mem_singleton]
  decide

/-- A point source with extent. -/
def extentVector : ObjectVector WholeNumber :=
  empty.insert (.pointSourceExtent {
    id := 1
    groupId := 0
    level := ⟨1⟩
    priority := 5
    channelIndices := [0]
    eqCoefficients := []
    x := ⟨2⟩
    y := ⟨0⟩
    z := ⟨0⟩
    channelLockDistance := ⟨0⟩
    diffuseness := ⟨0⟩
    width := ⟨3⟩
    height := ⟨3⟩
    depth := ⟨0⟩ })

/-- The tree of the object. -/
def extentTree : PropertyTree :=
  node "" [("type", node "pointextent" []), ("channels", node "0" []), ("id", node "1" []),
    ("group", node "0" []), ("level", node "1" []), ("priority", node "5" []),
    ("position", node "" [("x", node "2" []), ("y", node "0" []), ("z", node "0" [])]),
    ("width", node "3" []), ("height", node "3" []), ("depth", node "0" [])]

/-- The message. -/
def extentText : List UInt8 :=
  ("\x7b\"objects\":[\x7b\"type\":\"pointextent\",\"channels\":\"0\",\"id\":\"1\"," ++
    "\"group\":\"0\",\"level\":\"1\",\"priority\":\"5\",\"position\":\x7b\"x\":\"2\"," ++
    "\"y\":\"0\",\"z\":\"0\"\x7d,\"width\":\"3\",\"height\":\"3\",\"depth\":\"0\"\x7d]" ++
    "\x7d\n").toUTF8.toList

def extentPlatform : Platform WholeNumber := platform [(extentText, vectorTree [extentTree])]

/-- The message of the point source with extent is written, but rejected, although the
libraries read everything back. -/
theorem readsBack_extent :
    extentPlatform.NumbersReadBack ∧ extentVector.JsonReadsBack extentPlatform ∧
    (∃ message what, encodeObjectVector extentPlatform extentVector = .ok message ∧
      fillObjectVector extentPlatform message empty =
        (empty, .error (.exception (.invalidArgument what)))) ∧
    ¬ extentVector.ReadsBack extentPlatform := by
  have hwrite : loadAll (fun obj => AnyObject.write extentPlatform obj new) extentVector.toList =
      .ok [extentTree] := rfl
  have hencode : encodeObjectVector extentPlatform extentVector = .ok extentText := by
    rw [encodeObjectVector, hwrite]
    rfl
  have hread : extentPlatform.readJson extentText = .ok (vectorTree [extentTree]) :=
    readJson_platform extentText (vectorTree [extentTree]) []
  -- the parser demands a diffuseness, which has not been written
  obtain ⟨what, hparse⟩ : ∃ what, parseObjects extentPlatform [extentTree] empty =
      (empty, .error (.exception (.invalidArgument what))) := ⟨_, rfl⟩
  have hfill : fillObjectVector extentPlatform extentText empty =
      (empty, .error (.exception (.invalidArgument what))) := by
    rw [fillObjectVector, updateObjectVector, hread]
    simp only [getChild_vectorTree, trees_addChildren, hparse]
  have hjson : extentVector.JsonReadsBack extentPlatform := by
    intro _ trees htrees
    rw [hwrite] at htrees
    cases htrees
    exact ⟨extentText, rfl, hread⟩
  refine ⟨numbersReadBack_platform _, hjson, ⟨extentText, what, hencode, hfill⟩, fun hback => ?_⟩
  obtain ⟨message, hmessage, hok⟩ := hback empty
  rw [hencode] at hmessage
  cases hmessage
  rw [hfill] at hok
  cases hok

end ObjectVector

end Visr
