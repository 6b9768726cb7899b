import Visr.Libobjectmodel.ObjectVectorRoundTrip

/-!
# Updates of object vectors

The effect of messages on an object vector is described object by object: an object is what
those entries with its id make of it that are applied.

## Main results

* `ObjectVectorParser.find?_updateAll` — **each object after several messages.**
-/

namespace Visr

namespace ObjectVectorParser

variable {F : Type} [FloatArithmetic F]

section Definitions

variable (env : Platform F)

/-- The entries that are applied: those before the first faulty one. -/
def applied : List PropertyTree → ObjectVector F → List PropertyTree
  | [], _ => []
  | subtree :: subtrees, res =>
    match parseObject env subtree res with
    | .ok res' => subtree :: applied subtrees res'
    | .error _ => []

/-- `newObject`, from the object that has the id, if there is one. -/
def reusedObject (old : Option (AnyObject F)) (objTypeId : ObjectTypeId) (objId : UnsignedInt) :
    Except Abort (AnyObject F) :=
  match old with
  | some obj => if obj.type = objTypeId then .ok obj else ObjectFactory.create objTypeId objId
  | none => ObjectFactory.create objTypeId objId

/-- What an entry makes of the object that has its id, if there is one. -/
def parsedObject (subtree : PropertyTree) (old : Option (AnyObject F)) :
    Except Abort (AnyObject F) := do
  let objTypeStr ← subtree.get some ["type"]
  let objId ← subtree.get env.getUnsigned ["id"]
  let objTypeId ← stringToObjectType objTypeStr
  let objParser ← ObjectFactory.parser env objTypeId
  let newObj ← reusedObject old objTypeId objId
  objParser subtree newObj

/-- What an entry makes of the object with a given id. -/
def objectAfterEntry (id : UnsignedInt) (subtree : PropertyTree) (old : Option (AnyObject F)) :
    Option (AnyObject F) :=
  match subtree.get env.getUnsigned ["id"], parsedObject env subtree old with
  | .ok objId, .ok obj => if id = objId then some obj else old
  | _, _ => old

/-- What a list of entries makes of the object with a given id. -/
def objectAfter (id : UnsignedInt) (subtrees : List PropertyTree) (old : Option (AnyObject F)) :
    Option (AnyObject F) :=
  subtrees.foldl (fun old subtree => objectAfterEntry env id subtree old) old

/-- The vector after several messages. -/
def updateAll (messages : List (List UInt8)) (res : ObjectVector F) : ObjectVector F :=
  messages.foldl (fun res message => (updateObjectVector env message res).1) res

/-- The entries of several messages that are applied. -/
def appliedAll : List (List UInt8) → ObjectVector F → List PropertyTree
  | [], _ => []
  | message :: messages, res =>
    applied env (entries env message) res ++
      appliedAll messages (updateObjectVector env message res).1

end Definitions

variable {env : Platform F}

/-- **An entry changes the object with its id only.** -/
theorem find?_parseObject {subtree : PropertyTree} {res res' : ObjectVector F}
    (h : parseObject env subtree res = .ok res') (id : UnsignedInt) :
    res'.find? id = objectAfterEntry env id subtree (res.find? id) := by
  obtain ⟨objTypeStr, objTypeId, objId, src, o, htypeStr, htype, hid, hsrc, ho, rfl⟩ :=
    parseObject_ok h
  have hobjId : o.id = objId := by
    rw [← (newObject_ok hsrc).1]
    exact ObjectParser.parse_id (AnyObject.parse_toObject ho).1
  rw [ObjectVector.find?_insert, hobjId, objectAfterEntry, hid]
  by_cases heq : id = objId
  · have hparsed : parsedObject env subtree (res.find? objId) = .ok o := by
      have hparser : ObjectFactory.parser env objTypeId = .ok (AnyObject.parse env) := by
        rw [← (newObject_ok hsrc).2.1]
        cases src <;> rfl
      have hreused : reusedObject (res.find? objId) objTypeId objId = .ok src := hsrc
      rw [parsedObject, htypeStr, ok_bind, hid, ok_bind, htype, ok_bind, hparser, ok_bind,
        hreused, ok_bind]
      exact ho
    subst heq
    rw [hparsed, if_pos rfl]
    exact (if_pos rfl).symm
  · rw [if_neg heq]
    cases parsedObject env subtree (res.find? id) with
    | ok obj => exact (if_neg heq).symm
    | error a => rfl

theorem find?_parseObjects (subtrees : List PropertyTree) (res : ObjectVector F)
    (id : UnsignedInt) :
    (parseObjects env subtrees res).1.find? id =
      objectAfter env id (applied env subtrees res) (res.find? id) := by
  induction subtrees generalizing res with
  | nil => rfl
  | cons subtree subtrees ih =>
    rw [parseObjects, applied]
    cases hparse : parseObject env subtree res with
    | error a => rfl
    | ok res' =>
      show (parseObjects env subtrees res').1.find? id = _
      rw [ih, find?_parseObject hparse]
      rfl

theorem objectAfter_append (id : UnsignedInt) (subtrees subtrees' : List PropertyTree)
    (old : Option (AnyObject F)) :
    objectAfter env id (subtrees ++ subtrees') old =
      objectAfter env id subtrees' (objectAfter env id subtrees old) := List.foldl_append

/-- **Each object after several messages.** -/
theorem find?_updateAll (messages : List (List UInt8)) (res : ObjectVector F)
    (id : UnsignedInt) :
    (updateAll env messages res).find? id =
      objectAfter env id (appliedAll env messages res) (res.find? id) := by
  induction messages generalizing res with
  | nil => rfl
  | cons message messages ih =>
    show (updateAll env messages (updateObjectVector env message res).1).find? id = _
    rw [ih, appliedAll, objectAfter_append, updateObjectVector_fst, find?_parseObjects]

theorem updateAll_append (messages messages' : List (List UInt8)) (res : ObjectVector F) :
    updateAll env (messages ++ messages') res =
      updateAll env messages' (updateAll env messages res) := List.foldl_append

end ObjectVectorParser

end Visr
