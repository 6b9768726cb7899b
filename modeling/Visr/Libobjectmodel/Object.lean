import Mathlib.Data.Vector.Defs
import Mathlib.Order.Fin.Basic
import Visr.Librbbl.FilterCoefficients
import Visr.Library.OrderedMap

/-!
# Audio objects and object vectors

The classes of audio objects and the container that keeps them by their ids.

## Main results

* `stringToObjectType_objectTypeToString` — the names are distinct.
* `ObjectVector.find?_insert`, `ObjectVector.ext_find?` — what a vector contains.
-/

namespace Visr

variable {F : Type}

/-- The type `unsigned int` of object ids, group ids, channel indices and orders. -/
abbrev UnsignedInt := Fin (2 ^ 32)

/-- What all objects have in common. -/
structure Object (F : Type) where
  id : UnsignedInt
  groupId : UnsignedInt
  level : F
  priority : Fin (2 ^ 8)
  channelIndices : List UnsignedInt
  eqCoefficients : List (ParametricIirCoefficient F)

def Object.numberOfChannels (o : Object F) : ℕ := o.channelIndices.length

structure PointSource (F : Type) extends Object F where
  x : F
  y : F
  z : F
  channelLockDistance : F

structure PointSourceWithDiffuseness (F : Type) extends PointSource F where
  diffuseness : F

structure PointSourceExtent (F : Type) extends PointSourceWithDiffuseness F where
  width : F
  height : F
  depth : F

structure PlaneWave (F : Type) extends Object F where
  incidenceAzimuth : F
  incidenceElevation : F
  referenceDistance : F

structure DiffuseSource (F : Type) extends Object F

structure HoaSource (F : Type) extends Object F where
  order : UnsignedInt

/-- Each channel of the object has a list of labels of output channels. -/
structure ChannelObject (F : Type) extends Object F where
  outputChannels : List (List String)
  diffuseness : F

/-- `PointSourceWithReverb::cNumberOfSubBands`. -/
def cNumberOfSubBands : ℕ := 9

/-- `PointSourceWithReverb::cNumDiscreteReflectionBiquads`. -/
def cNumDiscreteReflectionBiquads : ℕ := 10

structure DiscreteReflection (F : Type) where
  positionX : F
  positionY : F
  positionZ : F
  delay : F
  level : F
  reflectionFilters : List.Vector (BiquadCoefficient F) cNumDiscreteReflectionBiquads

abbrev LateReverbCoeffs (F : Type) := List.Vector F cNumberOfSubBands

structure LateReverb (F : Type) where
  onsetDelay : F
  attackTimes : LateReverbCoeffs F
  decayCoeffs : LateReverbCoeffs F
  levels : LateReverbCoeffs F

structure PointSourceWithReverb (F : Type) extends PointSource F where
  discreteReflections : List (DiscreteReflection F)
  lateReverb : LateReverb F

/-! ### The types of objects -/

inductive ObjectTypeId
  | PointSource
  | PlaneWave
  | DiffuseSource
  | PointSourceWithDiffuseness
  | ExtendedSource
  | PointSourceWithReverb
  | PointSourceExtent
  | HoaSource
  | ChannelObject
  deriving DecidableEq, Repr

def objectTypeToString : ObjectTypeId → String
  | .PointSource => "point"
  | .PointSourceExtent => "pointextent"
  | .PlaneWave => "plane"
  | .DiffuseSource => "diffuse"
  | .PointSourceWithDiffuseness => "pointdiffuse"
  | .ExtendedSource => "extended"
  | .HoaSource => "hoa"
  | .ChannelObject => "channel"
  | .PointSourceWithReverb => "pointreverb"

/-- The keys of the table `stringToObjectLookup`, by type. -/
def ObjectTypeId.all : List ObjectTypeId :=
  [.PointSource, .PlaneWave, .DiffuseSource, .PointSourceWithDiffuseness, .ExtendedSource,
    .PointSourceWithReverb, .PointSourceExtent, .HoaSource, .ChannelObject]

def stringToObjectType (typeString : String) : Except Abort ObjectTypeId :=
  match ObjectTypeId.all.find? fun type => objectTypeToString type = typeString with
  | some type => .ok type
  | none => .error (.exception (.logicError
      " The given string representation does not match an existing source type."))

/-- **The names of the types are distinct.** -/
@[simp] theorem stringToObjectType_objectTypeToString (type : ObjectTypeId) :
    stringToObjectType (objectTypeToString type) = .ok type := by
  cases type <;> rfl

/-- An object of one of the classes. -/
inductive AnyObject (F : Type)
  | pointSource (o : PointSource F)
  | planeWave (o : PlaneWave F)
  | diffuseSource (o : DiffuseSource F)
  | pointSourceWithDiffuseness (o : PointSourceWithDiffuseness F)
  | pointSourceWithReverb (o : PointSourceWithReverb F)
  | pointSourceExtent (o : PointSourceExtent F)
  | hoaSource (o : HoaSource F)
  | channelObject (o : ChannelObject F)

namespace AnyObject

def toObject : AnyObject F → Object F
  | pointSource o => o.toObject
  | planeWave o => o.toObject
  | diffuseSource o => o.toObject
  | pointSourceWithDiffuseness o => o.toObject
  | pointSourceWithReverb o => o.toObject
  | pointSourceExtent o => o.toObject
  | hoaSource o => o.toObject
  | channelObject o => o.toObject

def id (o : AnyObject F) : UnsignedInt := o.toObject.id

def type : AnyObject F → ObjectTypeId
  | pointSource _ => .PointSource
  | planeWave _ => .PlaneWave
  | diffuseSource _ => .DiffuseSource
  | pointSourceWithDiffuseness _ => .PointSourceWithDiffuseness
  | pointSourceWithReverb _ => .PointSourceWithReverb
  | pointSourceExtent _ => .PointSourceExtent
  | hoaSource _ => .HoaSource
  | channelObject _ => .ChannelObject

/-- The object with another base class subobject. -/
def withObject (o : AnyObject F) (obj : Object F) : AnyObject F :=
  match o with
  | pointSource o => pointSource { o with toObject := obj }
  | planeWave o => planeWave { o with toObject := obj }
  | diffuseSource o => diffuseSource { o with toObject := obj }
  | pointSourceWithDiffuseness o => pointSourceWithDiffuseness { o with toObject := obj }
  | pointSourceWithReverb o => pointSourceWithReverb { o with toObject := obj }
  | pointSourceExtent o => pointSourceExtent { o with toObject := obj }
  | hoaSource o => hoaSource { o with toObject := obj }
  | channelObject o => channelObject { o with toObject := obj }

@[simp] theorem toObject_withObject (o : AnyObject F) (obj : Object F) :
    (o.withObject obj).toObject = obj := by
  cases o <;> rfl

@[simp] theorem withObject_toObject (o : AnyObject F) : o.withObject o.toObject = o := by
  cases o <;> rfl

end AnyObject

section Constructors

variable [FloatArithmetic F]

/-- The constructor from an id.  It does not initialise the level and the priority, which are
arbitrary here. -/
def Object.create (id : UnsignedInt) : Object F where
  id := id
  groupId := 0
  level := 0
  priority := 0
  channelIndices := []
  eqCoefficients := []

def PointSource.create (id : UnsignedInt) : PointSource F where
  toObject := Object.create id
  x := 0
  y := 0
  z := 0
  channelLockDistance := 0

def PointSourceWithDiffuseness.create (id : UnsignedInt) : PointSourceWithDiffuseness F where
  toPointSource := PointSource.create id
  diffuseness := 0

def PointSourceExtent.create (id : UnsignedInt) : PointSourceExtent F where
  toPointSourceWithDiffuseness := PointSourceWithDiffuseness.create id
  width := 0
  height := 0
  depth := 0

/-- The constructor does not initialise the members, which are arbitrary here. -/
def PlaneWave.create (id : UnsignedInt) : PlaneWave F where
  toObject := Object.create id
  incidenceAzimuth := 0
  incidenceElevation := 0
  referenceDistance := 0

def DiffuseSource.create (id : UnsignedInt) : DiffuseSource F where
  toObject := Object.create id

def HoaSource.create (id : UnsignedInt) : HoaSource F where
  toObject := Object.create id
  order := 0

def ChannelObject.create (id : UnsignedInt) : ChannelObject F where
  toObject := Object.create id
  outputChannels := []
  diffuseness := 0

def DiscreteReflection.create : DiscreteReflection F where
  positionX := 0
  positionY := 0
  positionZ := 0
  delay := 0
  level := 0
  reflectionFilters := List.Vector.replicate _ BiquadCoefficient.default

def LateReverb.create : LateReverb F where
  onsetDelay := 0
  attackTimes := List.Vector.replicate _ 0
  decayCoeffs := List.Vector.replicate _ 0
  levels := List.Vector.replicate _ 0

def PointSourceWithReverb.create (id : UnsignedInt) : PointSourceWithReverb F where
  toPointSource := PointSource.create id
  discreteReflections := []
  lateReverb := LateReverb.create

/-- `ObjectFactory::create()`, with the registered types only. -/
def ObjectFactory.create (typeId : ObjectTypeId) (objectId : UnsignedInt) :
    Except Abort (AnyObject F) :=
  match typeId with
  | .ChannelObject => .ok (.channelObject (.create objectId))
  | .PointSource => .ok (.pointSource (.create objectId))
  | .PointSourceExtent => .ok (.pointSourceExtent (.create objectId))
  | .PlaneWave => .ok (.planeWave (.create objectId))
  | .PointSourceWithDiffuseness => .ok (.pointSourceWithDiffuseness (.create objectId))
  | .DiffuseSource => .ok (.diffuseSource (.create objectId))
  | .PointSourceWithReverb => .ok (.pointSourceWithReverb (.create objectId))
  | .HoaSource => .ok (.hoaSource (.create objectId))
  | .ExtendedSource => .error (.exception
      (.invalidArgument "ObjectFactory: The specified object type is not registered."))

end Constructors

/-! ### Object vectors -/

/-- The objects by their ids. -/
structure ObjectVector (F : Type) where
  mObjects : OrderedMap UnsignedInt (AnyObject F)
  id_of_find? : ∀ id o, mObjects.find? id = some o → o.id = id

namespace ObjectVector

def empty : ObjectVector F := ⟨OrderedMap.empty, fun _ _ h => nomatch h⟩

def find? (v : ObjectVector F) (id : UnsignedInt) : Option (AnyObject F) := v.mObjects.find? id

/-- The objects in the order of their ids. -/
def toList (v : ObjectVector F) : List (AnyObject F) := v.mObjects.values

theorem find?_erase_insert (m : OrderedMap UnsignedInt (AnyObject F)) (o : AnyObject F)
    (id : UnsignedInt) :
    ((m.erase o.id).insert o.id o).find? id = if id = o.id then some o else m.find? id := by
  have hnone : (m.erase o.id).find? o.id = none := by rw [OrderedMap.find?_erase, if_pos rfl]
  rw [OrderedMap.find?_insert o hnone]
  by_cases h : id = o.id
  · rw [if_pos h, if_pos h]
  · rw [if_neg h, if_neg h, OrderedMap.find?_erase, if_neg h]

/-- An object with the same id is removed first. -/
def insert (v : ObjectVector F) (o : AnyObject F) : ObjectVector F where
  mObjects := (v.mObjects.erase o.id).insert o.id o
  id_of_find? := by
    intro id o' h
    rw [find?_erase_insert] at h
    split at h
    next hid => rw [← Option.some.inj h, hid]
    next => exact v.id_of_find? id o' h

@[simp] theorem find?_empty (id : UnsignedInt) : (empty : ObjectVector F).find? id = none := rfl

/-- **What a vector contains after an insertion.** -/
theorem find?_insert (v : ObjectVector F) (o : AnyObject F) (id : UnsignedInt) :
    (v.insert o).find? id = if id = o.id then some o else v.find? id :=
  find?_erase_insert v.mObjects o id

/-- A vector is determined by the objects that are found in it. -/
theorem ext_find? {v v' : ObjectVector F} (h : ∀ id, v.find? id = v'.find? id) : v = v' := by
  have heq : v.mObjects = v'.mObjects := OrderedMap.ext_find? h
  cases v
  cases v'
  cases heq
  rfl

theorem mem_toList {v : ObjectVector F} {o : AnyObject F} :
    o ∈ v.toList ↔ v.find? o.id = some o := by
  constructor
  · intro h
    obtain ⟨⟨id, o'⟩, hmem, rfl⟩ := List.mem_map.mp h
    have hfind := OrderedMap.find?_of_mem hmem
    show v.mObjects.find? o'.id = some o'
    rw [v.id_of_find? id o' hfind]
    exact hfind
  · intro h
    exact List.mem_map.mpr ⟨(o.id, o), OrderedMap.mem_of_find? h, rfl⟩

theorem nodup_ids (v : ObjectVector F) : (v.toList.map AnyObject.id).Nodup := by
  have hkeys : v.toList.map AnyObject.id = v.mObjects.keys := by
    rw [toList, OrderedMap.values, OrderedMap.keys, List.map_map]
    refine List.map_congr_left fun e he => ?_
    exact v.id_of_find? e.1 e.2 (OrderedMap.find?_of_mem he)
  rw [hkeys]
  exact v.mObjects.nodup_keys

theorem find?_foldl_insert_of_not_mem {l : List (AnyObject F)} {id : UnsignedInt}
    (h : id ∉ l.map AnyObject.id) (v : ObjectVector F) :
    (l.foldl insert v).find? id = v.find? id := by
  induction l generalizing v with
  | nil => rfl
  | cons o l ih =>
    rw [List.map_cons, List.mem_cons, not_or] at h
    rw [List.foldl_cons, ih h.2, find?_insert, if_neg h.1]

/-- After the insertion of objects with distinct ids, each of them is found. -/
theorem find?_foldl_insert {l : List (AnyObject F)} (hnodup : (l.map AnyObject.id).Nodup)
    {o : AnyObject F} (ho : o ∈ l) (v : ObjectVector F) :
    (l.foldl insert v).find? o.id = some o := by
  induction l generalizing v with
  | nil => cases ho
  | cons o' l ih =>
    obtain ⟨hfirst, hrest⟩ := List.nodup_cons.mp hnodup
    rw [List.foldl_cons]
    rcases List.mem_cons.mp ho with rfl | ho
    · rw [find?_foldl_insert_of_not_mem hfirst, find?_insert, if_pos rfl]
    · exact ih hrest ho _

/-- Inserting the objects of a vector one by one gives the vector. -/
theorem foldl_insert_toList (v : ObjectVector F) : v.toList.foldl insert empty = v := by
  refine ext_find? fun id => ?_
  by_cases hid : id ∈ v.toList.map AnyObject.id
  · obtain ⟨o, ho, rfl⟩ := List.mem_map.mp hid
    rw [find?_foldl_insert v.nodup_ids ho, mem_toList.mp ho]
  · rw [find?_foldl_insert_of_not_mem hid, find?_empty]
    cases hfind : v.find? id with
    | none => rfl
    | some o =>
      have ho : o.id = id := v.id_of_find? id o hfind
      subst ho
      exact absurd (List.mem_map_of_mem (mem_toList.mpr hfind)) hid

end ObjectVector

end Visr
