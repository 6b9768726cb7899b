import Visr.Libobjectmodel.ObjectParsers

/-!
# Messages about objects

A message is the JSON representation of a list of objects.  It may be applied to an object
vector, where it changes the objects it mentions, or replace the vector.

## Main results

* `ObjectVectorParser.parseObject_ok` — **what an object of a message changes.**
* `ObjectVectorParser.parseObjects_faulty` — a faulty object changes nothing.
-/

namespace Visr

open PropertyTree

variable {F : Type} [FloatArithmetic F] (env : Platform F)

/-- `ObjectFactory::parser()`.  All parsers are objects of one interface. -/
def ObjectFactory.parser (typeId : ObjectTypeId) :
    Except Abort (PropertyTree → AnyObject F → Except Abort (AnyObject F)) :=
  match typeId with
  | .ExtendedSource => .error (.exception
      (.invalidArgument "ObjectFactory: The specified object type is not registered."))
  | _ => .ok (AnyObject.parse env)

namespace ObjectVectorParser

/-- The object with the id of the message, if it has the right type, and a new one otherwise. -/
def newObject (res : ObjectVector F) (objTypeId : ObjectTypeId) (objId : UnsignedInt) :
    Except Abort (AnyObject F) :=
  match res.find? objId with
  | some obj => if obj.type = objTypeId then .ok obj else ObjectFactory.create objTypeId objId
  | none => ObjectFactory.create objTypeId objId

/-- The attributes are parsed into a copy of the object, which is inserted in the end. -/
def parseObject (subtree : PropertyTree) (res : ObjectVector F) :
    Except Abort (ObjectVector F) := do
  let objTypeStr ← subtree.get some ["type"]
  let objId ← subtree.get env.getUnsigned ["id"]
  let objTypeId ← stringToObjectType objTypeStr
  let objParser ← ObjectFactory.parser env objTypeId
  let newObj ← newObject res objTypeId objId
  let newObj ← objParser subtree newObj
  return res.insert newObj

/-- The loop over the objects of a message.  It changes the vector until an object is faulty. -/
def parseObjects : List PropertyTree → ObjectVector F → ObjectVector F × Except Abort Unit
  | [], res => (res, .ok ())
  | subtree :: subtrees, res =>
    match parseObject env subtree res with
    | .ok res' => parseObjects subtrees res'
    | .error a => (res, .error (a.rethrow "Error while parsing the json message content: "))

/-- The vector after the call, and whether the call returns normally. -/
def updateObjectVector (message : List UInt8) (res : ObjectVector F) :
    ObjectVector F × Except Abort Unit :=
  match env.readJson message with
  | .error e =>
    (res, .error (.exception
      (.invalidArgument ("Error while parsing a json object message: " ++ e.what))))
  | .ok propTree =>
    match propTree.getChild ["objects"] with
    | .error a => (res, .error a)
    | .ok objects => parseObjects env (objects.children.map Prod.snd) res

/-- The message is decoded into a new vector, which replaces the old one. -/
def fillObjectVector (message : List UInt8) (res : ObjectVector F) :
    ObjectVector F × Except Abort Unit :=
  match updateObjectVector env message .empty with
  | (newVec, .ok ()) => (newVec, .ok ())
  | (_, .error a) => (res, .error a)

/-- The tree of a vector, from the trees of its objects. -/
def vectorTree (objectTrees : List PropertyTree) : PropertyTree :=
  new.putChild "objects" (new.addChildren "" objectTrees)

def encodeObjectVector (objects : ObjectVector F) : Except Abort (List UInt8) := do
  let objectTrees ← loadAll (fun obj : AnyObject F => obj.write env new) objects.toList
  (env.writeJson (vectorTree objectTrees)).mapError .exception

/-! ### What a message changes -/

variable {env}

/-- A new object has no channels. -/
theorem channelIndices_create {type : ObjectTypeId} {id : UnsignedInt} {o : AnyObject F}
    (h : ObjectFactory.create type id = .ok o) :
    o.toObject.channelIndices = [] ∧ o.id = id ∧ o.type = type := by
  cases type <;> cases h <;> exact ⟨rfl, rfl, rfl⟩

/-- What is known about an object of a message that is parsed without a failure. -/
theorem parseObject_ok {subtree : PropertyTree} {res res' : ObjectVector F}
    (h : parseObject env subtree res = .ok res') :
    ∃ objTypeStr objTypeId objId src o, subtree.get some ["type"] = .ok objTypeStr ∧
      stringToObjectType objTypeStr = .ok objTypeId ∧
      subtree.get env.getUnsigned ["id"] = .ok objId ∧ newObject res objTypeId objId = .ok src ∧
      AnyObject.parse env subtree src = .ok o ∧ res' = res.insert o := by
  obtain ⟨objTypeStr, htypeStr, h⟩ := exists_of_bind_ok h
  obtain ⟨objId, hid, h⟩ := exists_of_bind_ok h
  obtain ⟨objTypeId, htype, h⟩ := exists_of_bind_ok h
  obtain ⟨objParser, hparser, h⟩ := exists_of_bind_ok h
  obtain ⟨src, hsrc, h⟩ := exists_of_bind_ok h
  obtain ⟨o, ho, h⟩ := exists_of_bind_ok h
  cases h
  have hparse : objParser = AnyObject.parse env := by
    cases objTypeId <;> cases hparser <;> rfl
  subst hparse
  exact ⟨objTypeStr, objTypeId, objId, src, o, htypeStr, htype, hid, hsrc, ho, rfl⟩

/-- The object into which the attributes are parsed. -/
theorem newObject_ok {res : ObjectVector F} {objTypeId : ObjectTypeId} {objId : UnsignedInt}
    {src : AnyObject F} (h : newObject res objTypeId objId = .ok src) :
    src.id = objId ∧ src.type = objTypeId ∧
      (res.find? objId = some src ∨ src.toObject.channelIndices = []) := by
  unfold newObject at h
  split at h
  next obj hobj =>
    split at h
    next htype =>
      cases h
      exact ⟨res.id_of_find? objId src hobj, htype, Or.inl hobj⟩
    · obtain ⟨hchannels, hid, htype⟩ := channelIndices_create h
      exact ⟨hid, htype, Or.inr hchannels⟩
  next =>
    obtain ⟨hchannels, hid, htype⟩ := channelIndices_create h
    exact ⟨hid, htype, Or.inr hchannels⟩

/-- The objects of a message, if it is read. -/
def entries (env : Platform F) (message : List UInt8) : List PropertyTree :=
  match env.readJson message with
  | .error _ => []
  | .ok propTree =>
    match propTree.getChild ["objects"] with
    | .error _ => []
    | .ok objects => objects.children.map Prod.snd

/-- A message that is not read is reported by an exception, and changes nothing. -/
theorem updateObjectVector_cases (env : Platform F) (message : List UInt8) (res : ObjectVector F) :
    updateObjectVector env message res = parseObjects env (entries env message) res ∨
      entries env message = [] ∧ ∃ a, a.isCaught = true ∧
        updateObjectVector env message res = (res, .error a) := by
  unfold updateObjectVector entries
  cases env.readJson message with
  | error e => exact Or.inr ⟨rfl, _, rfl, rfl⟩
  | ok propTree =>
    dsimp only
    cases hobjects : propTree.getChild ["objects"] with
    | error a => exact Or.inr ⟨rfl, a, handled_getChild _ _ a hobjects, rfl⟩
    | ok objects => exact Or.inl rfl

theorem updateObjectVector_fst (message : List UInt8) (res : ObjectVector F) :
    (updateObjectVector env message res).1 = (parseObjects env (entries env message) res).1 := by
  rcases updateObjectVector_cases env message res with h | ⟨hnil, a, -, h⟩
  · rw [h]
  · rw [h, hnil]
    rfl

/-- **A faulty object ends the loop**, and the vector is what the objects before it made of it. -/
theorem parseObjects_faulty {before after : List PropertyTree} {faulty : PropertyTree}
    {res res' : ObjectVector F} {a : Abort} (hbefore : parseObjects env before res = (res', .ok ()))
    (hfaulty : parseObject env faulty res' = .error a) :
    parseObjects env (before ++ faulty :: after) res =
      (res', .error (a.rethrow "Error while parsing the json message content: ")) := by
  induction before generalizing res with
  | nil =>
    cases hbefore
    rw [List.nil_append, parseObjects, hfaulty]
  | cons subtree before ih =>
    rw [parseObjects] at hbefore
    rw [List.cons_append, parseObjects]
    cases hparse : parseObject env subtree res with
    | error a =>
      rw [hparse] at hbefore
      cases hbefore
    | ok next =>
      rw [hparse] at hbefore
      exact ih hbefore

theorem getChild_vectorTree (objectTrees : List PropertyTree) :
    (vectorTree objectTrees).getChild ["objects"] = .ok (new.addChildren "" objectTrees) := by
  rw [getChild, getChild?, vectorTree, find?_putChild, if_pos rfl]
  rfl

theorem trees_addChildren (objectTrees : List PropertyTree) :
    (new.addChildren "" objectTrees).children.map Prod.snd = objectTrees := by
  rw [children_addChildren]
  show (List.map _ objectTrees).map Prod.snd = objectTrees
  rw [List.map_map]
  exact List.map_id' objectTrees

end ObjectVectorParser

end Visr
