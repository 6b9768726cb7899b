import Visr.Libobjectmodel.ObjectVectorUpdates
import Visr.Library.Memory

/-!
# Failing parsers and the objects in memory

The parsers change objects in place, and may fail when they have changed a part of the attributes.
The objects of a vector are safe from this, because the parser of an entry works on another object,
which is handed over to the vector in the end.

## Main results

* `AnyObject.parse_congr_object` — attributes from before do not matter, unless they are channels.
* `ObjectStore.parseObject_spec` — the refinement of `ObjectVectorParser.parseObject`.
* `ObjectStore.parsing_atomic` — **what is left after a failure, and what is not after a success**.
-/

namespace Visr

open PropertyTree

variable {F : Type} [FloatArithmetic F] (env : Platform F)

/-! ### What a parser takes from the object -/

namespace ObjectParser

/-- The text of the channel indices is there and accepted. -/
def AcceptsChannels (tree : PropertyTree) : Prop :=
  ∃ text indices, tree.get some ["channels"] = .ok text ∧
    IndexSequence.parse env.capacity text = .ok indices

variable {env} {tree : PropertyTree}

omit [FloatArithmetic F] in
theorem tryChannels_of_accepts (h : AcceptsChannels env tree) :
    ∃ indices : List UnsignedInt, ∀ obj : Object F,
      tryChannels env tree obj = .ok { obj with channelIndices := indices } := by
  obtain ⟨text, indices, htext, hindices⟩ := h
  refine ⟨indices.map (Fin.ofNat (2 ^ 32)), fun obj => ?_⟩
  unfold tryChannels parseChannels
  rw [htext, ok_bind, hindices]
  rfl

/-- **The channels are the only attribute** that may be kept. -/
theorem parse_congr_object {obj obj' : Object F} (hid : obj.id = obj'.id)
    (h : obj.channelIndices = obj'.channelIndices ∨ AcceptsChannels env tree) :
    parse env tree obj = parse env tree obj' := by
  obtain ⟨id, groupId, level, priority, channels, eqs⟩ := obj
  obtain ⟨id', groupId', level', priority', channels', eqs'⟩ := obj'
  cases hid
  unfold parse
  rcases h with h | h
  · cases h
    unfold tryChannels parseChannels
    cases tree.get some ["channels"] with
    | error a =>
      show Except.bind (if a.isCaught then _ else _) _ = Except.bind (if a.isCaught then _ else _) _
      cases a.isCaught <;> rfl
    | ok text =>
      rw [ok_bind, ok_bind]
      cases IndexSequence.parse env.capacity text with
      | error a =>
        show Except.bind (if a.isCaught then _ else _) _ =
          Except.bind (if a.isCaught then _ else _) _
        cases a.isCaught <;> rfl
      | ok indices => rfl
  · obtain ⟨indices, htry⟩ := tryChannels_of_accepts h
    rw [htry, htry, ok_bind, ok_bind]

end ObjectParser

section Congruence

variable {env} {tree : PropertyTree}

theorem PointSourceParser.parse_congr_object {src src' : PointSource F}
    (h : ObjectParser.parse env tree src.toObject = ObjectParser.parse env tree src'.toObject) :
    parse env tree src = parse env tree src' := by
  unfold parse
  rw [h]
  rfl

theorem PointSourceWithDiffusenessParser.parse_congr_object
    {src src' : PointSourceWithDiffuseness F}
    (h : ObjectParser.parse env tree src.toObject = ObjectParser.parse env tree src'.toObject) :
    parse env tree src = parse env tree src' := by
  unfold parse
  rw [PointSourceParser.parse_congr_object h]

/-- **The object only matters through its type, its id and its channels.** -/
theorem AnyObject.parse_congr_object {src src' : AnyObject F} (htype : src.type = src'.type)
    (h : ObjectParser.parse env tree src.toObject = ObjectParser.parse env tree src'.toObject) :
    AnyObject.parse env tree src = AnyObject.parse env tree src' := by
  cases src with
  | pointSource src =>
    cases src' <;> cases htype
    exact congrArg (Except.map AnyObject.pointSource) (PointSourceParser.parse_congr_object h)
  | planeWave src =>
    cases src' <;> cases htype
    refine congrArg (Except.map AnyObject.planeWave) ?_
    unfold PlaneWaveParser.parse
    rw [show ObjectParser.parse env tree src.toObject = _ from h]
    rfl
  | diffuseSource src =>
    cases src' <;> cases htype
    refine congrArg (Except.map AnyObject.diffuseSource) ?_
    unfold DiffuseSourceParser.parse
    rw [show ObjectParser.parse env tree src.toObject = _ from h]
    rfl
  | pointSourceWithDiffuseness src =>
    cases src' <;> cases htype
    refine congrArg (Except.map AnyObject.pointSourceWithDiffuseness) ?_
    exact PointSourceWithDiffusenessParser.parse_congr_object h
  | pointSourceWithReverb src =>
    cases src' <;> cases htype
    refine congrArg (Except.map AnyObject.pointSourceWithReverb) ?_
    unfold PointSourceWithReverbParser.parse
    rw [PointSourceParser.parse_congr_object h]
  | pointSourceExtent src =>
    cases src' <;> cases htype
    refine congrArg (Except.map AnyObject.pointSourceExtent) ?_
    unfold PointSourceExtentParser.parse
    rw [PointSourceWithDiffusenessParser.parse_congr_object h]
  | hoaSource src =>
    cases src' <;> cases htype
    refine congrArg (Except.map AnyObject.hoaSource) ?_
    unfold HoaSourceParser.parse
    rw [show ObjectParser.parse env tree src.toObject = _ from h]
    rfl
  | channelObject src =>
    cases src' <;> cases htype
    refine congrArg (Except.map AnyObject.channelObject) ?_
    unfold ChannelObjectParser.parse
    rw [show ObjectParser.parse env tree src.toObject = _ from h]
    rfl

end Congruence

namespace ObjectVectorParser

/-- The object that an entry inserts into a vector. -/
def Inserts (v : ObjectVector F) (subtree : PropertyTree) (o : AnyObject F) : Prop :=
  ∃ objTypeStr objTypeId objId src, subtree.get some ["type"] = .ok objTypeStr ∧
    stringToObjectType objTypeStr = .ok objTypeId ∧
    subtree.get env.getUnsigned ["id"] = .ok objId ∧ newObject v objTypeId objId = .ok src ∧
    AnyObject.parse env subtree src = .ok o

end ObjectVectorParser

/-! ### Objects in memory -/

/-- The memory, and the addresses of the objects of a vector by their ids. -/
structure ObjectStore (F : Type) where
  memory : Memory (AnyObject F)
  mObjects : OrderedMap UnsignedInt ℕ

namespace ObjectStore

/-- The object with an id. -/
def find? (s : ObjectStore F) (id : UnsignedInt) : Option (AnyObject F) :=
  (s.mObjects.find? id).bind s.memory.cells

/-- The objects are those of a vector. -/
def Represents (s : ObjectStore F) (v : ObjectVector F) : Prop :=
  s.memory.Represents s.mObjects v.mObjects

/-- The object with an id is at the same place, with the same value. -/
def SameObject (s s' : ObjectStore F) (id : UnsignedInt) : Prop :=
  s'.mObjects.find? id = s.mObjects.find? id ∧
    ∀ a, s.mObjects.find? id = some a → s'.memory.cells a = s.memory.cells a

/-- All objects are. -/
def Unchanged (s s' : ObjectStore F) : Prop :=
  s'.mObjects = s.mObjects ∧ ∀ id, SameObject s s' id

/-- `ObjectVector::insert()`, which deletes the object that had the id. -/
def insert (s : ObjectStore F) (newObj : ℕ) : ObjectStore F :=
  match s.memory.cells newObj with
  | none => s
  | some obj =>
    let r := s.memory.replace s.mObjects obj.id newObj
    { memory := r.1, mObjects := r.2 }

/-- The object into which an entry is parsed, before it is parsed, and its parser. -/
def prepare (subtree : PropertyTree) (s : ObjectStore F) :
    Except Abort ((PropertyTree → AnyObject F → Except Abort (AnyObject F)) × AnyObject F) := do
  let objTypeStr ← subtree.get some ["type"]
  let objId ← subtree.get env.getUnsigned ["id"]
  let objTypeId ← stringToObjectType objTypeStr
  let objParser ← ObjectFactory.parser env objTypeId
  let newObj ← ObjectVectorParser.reusedObject (s.find? objId) objTypeId objId
  return (objParser, newObj)

/-- The parser changes the new object.  What it leaves there if it fails is `leftover`, which is
deleted when the exception is passed on. -/
def parseObject (leftover : PropertyTree → AnyObject F → AnyObject F) (subtree : PropertyTree)
    (s : ObjectStore F) : ObjectStore F × Except Abort Unit :=
  match prepare env subtree s with
  | .error a => (s, .error a)
  | .ok (objParser, obj) =>
    let newObj := s.memory.next
    let memory := s.memory.new obj
    match objParser subtree obj with
    | .error a =>
      let memory := (memory.write newObj (leftover subtree obj)).delete newObj
      ({ s with memory := memory }, .error a)
    | .ok obj => (insert { s with memory := memory.write newObj obj } newObj, .ok ())

def parseObjects (leftover : PropertyTree → AnyObject F → AnyObject F) :
    List PropertyTree → ObjectStore F → ObjectStore F × Except Abort Unit
  | [], s => (s, .ok ())
  | subtree :: subtrees, s =>
    match parseObject env leftover subtree s with
    | (s', .ok ()) => parseObjects leftover subtrees s'
    | (s', .error a) => (s', .error (a.rethrow "Error while parsing the json message content: "))

def updateObjectVector (leftover : PropertyTree → AnyObject F → AnyObject F)
    (message : List UInt8) (s : ObjectStore F) : ObjectStore F × Except Abort Unit :=
  match env.readJson message with
  | .error e =>
    (s, .error (.exception
      (.invalidArgument ("Error while parsing a json object message: " ++ e.what))))
  | .ok propTree =>
    match propTree.getChild ["objects"] with
    | .error a => (s, .error a)
    | .ok objects => parseObjects env leftover (objects.children.map Prod.snd) s

/-- The vectors are swapped after a success, and the objects of the local one are deleted in any
case. -/
def fillObjectVector (leftover : PropertyTree → AnyObject F → AnyObject F)
    (message : List UInt8) (s : ObjectStore F) : ObjectStore F × Except Abort Unit :=
  match updateObjectVector env leftover message { s with mObjects := .empty } with
  | (newVec, .ok ()) =>
    ({ newVec with memory := newVec.memory.deleteAll s.mObjects.values }, .ok ())
  | (newVec, .error a) =>
    ({ s with memory := newVec.memory.deleteAll newVec.mObjects.values }, .error a)

section Refinement

variable (leftover : PropertyTree → AnyObject F → AnyObject F) {s : ObjectStore F}
  {v : ObjectVector F}

omit [FloatArithmetic F] in
theorem Represents.find?_eq (h : s.Represents v) (id : UnsignedInt) : s.find? id = v.find? id :=
  (Memory.Represents.find? h id).symm

omit [FloatArithmetic F] in
/-- The objects of a vector are the same if none of their cells has changed. -/
theorem Represents.unchanged {m : Memory (AnyObject F)} (h : s.Represents v)
    (hkeeps : Memory.Keeps s.memory m) : Unchanged s { s with memory := m } := by
  refine ⟨rfl, fun id => ⟨rfl, ?_⟩⟩
  intro a ha
  obtain ⟨o, ho⟩ := h.allocated id a ha
  rw [ho]
  exact hkeeps a o ho

theorem parseObject_eq (h : s.Represents v) (subtree : PropertyTree) :
    ObjectVectorParser.parseObject env subtree v =
      (prepare env subtree s).bind fun r => (r.1 subtree r.2).map v.insert := by
  unfold ObjectVectorParser.parseObject prepare
  -- the steps are the same, up to where the object is stored
  cases subtree.get some ["type"] with
  | error a => rfl
  | ok objTypeStr =>
    simp only [ok_bind]
    cases subtree.get env.getUnsigned ["id"] with
    | error a => rfl
    | ok objId =>
      simp only [ok_bind]
      rw [h.find?_eq objId]
      cases stringToObjectType objTypeStr with
      | error a => rfl
      | ok objTypeId =>
        simp only [ok_bind]
        cases (ObjectFactory.parser env objTypeId :
          Except Abort (PropertyTree → AnyObject F → Except Abort (AnyObject F))) with
        | error a => rfl
        | ok objParser =>
          simp only [ok_bind]
          show (ObjectVectorParser.newObject v objTypeId objId).bind _ =
            ((ObjectVectorParser.newObject v objTypeId objId).bind _).bind _
          cases ObjectVectorParser.newObject v objTypeId objId with
          | error a => rfl
          | ok newObj =>
            show (objParser subtree newObj).bind _ = (objParser subtree newObj).map _
            cases objParser subtree newObj <;> rfl

theorem inserts_of_prepare (h : s.Represents v) {subtree : PropertyTree}
    {objParser : PropertyTree → AnyObject F → Except Abort (AnyObject F)} {obj o : AnyObject F}
    (hprepare : prepare env subtree s = .ok (objParser, obj)) (ho : objParser subtree obj = .ok o) :
    ObjectVectorParser.Inserts env v subtree o := by
  obtain ⟨objTypeStr, htypeStr, hprepare⟩ := exists_of_bind_ok hprepare
  obtain ⟨objId, hid, hprepare⟩ := exists_of_bind_ok hprepare
  obtain ⟨objTypeId, htype, hprepare⟩ := exists_of_bind_ok hprepare
  obtain ⟨objParser', hparser, hprepare⟩ := exists_of_bind_ok hprepare
  obtain ⟨src, hsrc, hprepare⟩ := exists_of_bind_ok hprepare
  cases hprepare
  rw [h.find?_eq objId] at hsrc
  have hparse : objParser = AnyObject.parse env := by
    cases objTypeId <;> cases hparser <;> rfl
  subst hparse
  exact ⟨objTypeStr, objTypeId, objId, obj, htypeStr, htype, hid, hsrc, ho⟩

omit [FloatArithmetic F] in
/-- **A new object that is handed over.** -/
theorem insert_spec (h : s.Represents v) {m : Memory (AnyObject F)} {newObj : ℕ} {o : AnyObject F}
    (hcell : m.cells newObj = some o) (hkeeps : Memory.Keeps s.memory m)
    (hnew : s.memory.cells newObj = none) :
    (insert { s with memory := m } newObj).Represents (v.insert o) ∧
      ∀ id, id ≠ o.id → SameObject s (insert { s with memory := m } newObj) id := by
  have hnot : ∀ id, s.mObjects.find? id ≠ some newObj := by
    intro id hid
    obtain ⟨x, hx⟩ := h.allocated id newObj hid
    rw [hnew] at hx
    cases hx
  unfold insert
  dsimp only
  rw [hcell]
  constructor
  · exact (Memory.Represents.of_keeps h hkeeps).replace hcell hnot
  · intro id hne
    constructor
    · exact (Memory.find?_replace _ _ _ _ id).trans (if_neg hne)
    · intro a ha
      obtain ⟨x, hx⟩ := h.allocated id a ha
      have hsame : m.cells a = s.memory.cells a := (hkeeps a x hx).trans hx.symm
      rw [← hsame]
      apply Memory.cells_replace_of_ne
      intro hid
      exact hne (h.injective id o.id a ha hid)

/-- **An entry on objects in memory**: the object is handed over, or no object has changed. -/
theorem parseObject_spec (h : s.Represents v) (subtree : PropertyTree) :
    match ObjectVectorParser.parseObject env subtree v with
    | .ok v' => ∃ s' o, parseObject env leftover subtree s = (s', .ok ()) ∧ v' = v.insert o ∧
        ObjectVectorParser.Inserts env v subtree o ∧ s'.Represents v' ∧
        ∀ id, id ≠ o.id → SameObject s s' id
    | .error a => ∃ s', parseObject env leftover subtree s = (s', .error a) ∧ s'.Represents v ∧
        Unchanged s s' := by
  rw [parseObject_eq env h]
  unfold parseObject
  cases hprepare : prepare env subtree s with
  | error a => exact ⟨s, rfl, h, rfl, fun id => ⟨rfl, fun _ _ => rfl⟩⟩
  | ok r =>
    obtain ⟨objParser, obj⟩ := r
    have hfresh := s.memory.fresh s.memory.next (Nat.le_refl _)
    show match (objParser subtree obj).map v.insert with | .ok v' => _ | .error a => _
    dsimp only
    cases hparse : objParser subtree obj with
    | error a =>
      -- the new object is gone, with all that the parser has changed in it
      have hkeeps := s.memory.keeps_delete_write_new obj (leftover subtree obj)
      exact ⟨_, rfl, Memory.Represents.of_keeps h hkeeps, h.unchanged hkeeps⟩
    | ok o =>
      have hcell := Memory.cells_write_self (x := o) (s.memory.cells_new_self obj)
      have hkeeps : Memory.Keeps s.memory ((s.memory.new obj).write s.memory.next o) := by
        intro a x hx
        rw [Memory.cells_write_of_ne (Nat.ne_of_lt (Memory.lt_next hx))]
        exact s.memory.keeps_new obj a x hx
      obtain ⟨hrep, hsame⟩ := insert_spec h hcell hkeeps hfresh
      have hinserts := inserts_of_prepare env h hprepare hparse
      exact ⟨_, o, rfl, rfl, hinserts, hrep, hsame⟩

/-- Objects of another vector are left alone. -/
theorem foreign_parseObject {a : ℕ} {x : AnyObject F} (ha : s.memory.Foreign s.mObjects a x)
    (subtree : PropertyTree) :
    (parseObject env leftover subtree s).1.memory.Foreign
      (parseObject env leftover subtree s).1.mObjects a x := by
  have hne : a ≠ s.memory.next := Nat.ne_of_lt (Memory.lt_next ha.cell)
  unfold parseObject
  cases prepare env subtree s with
  | error abort => exact ha
  | ok r =>
    obtain ⟨objParser, obj⟩ := r
    dsimp only
    cases objParser subtree obj with
    | error abort => exact ha.of_keeps (s.memory.keeps_delete_write_new obj (leftover subtree obj))
    | ok o =>
      have hwrite : ((s.memory.new obj).write s.memory.next o).Foreign s.mObjects a x := by
        refine ⟨?_, ha.not_owned⟩
        rw [Memory.cells_write_of_ne hne]
        exact s.memory.keeps_new obj a x ha.cell
      unfold insert
      dsimp only
      rw [Memory.cells_write_self (s.memory.cells_new_self obj)]
      exact hwrite.replace hne

theorem foreign_parseObjects {a : ℕ} {x : AnyObject F} (ha : s.memory.Foreign s.mObjects a x)
    (subtrees : List PropertyTree) :
    (parseObjects env leftover subtrees s).1.memory.Foreign
      (parseObjects env leftover subtrees s).1.mObjects a x := by
  induction subtrees generalizing s with
  | nil => exact ha
  | cons subtree subtrees ih =>
    have hstep := foreign_parseObject env leftover ha subtree
    rw [parseObjects]
    generalize parseObject env leftover subtree s = r at hstep ⊢
    obtain ⟨s', a | _⟩ := r
    · exact hstep
    · exact ih hstep

theorem parseObjects_spec (h : s.Represents v) (subtrees : List PropertyTree) :
    (parseObjects env leftover subtrees s).1.Represents
      (ObjectVectorParser.parseObjects env subtrees v).1 ∧
    (parseObjects env leftover subtrees s).2 =
      (ObjectVectorParser.parseObjects env subtrees v).2 := by
  induction subtrees generalizing s v with
  | nil => exact ⟨h, rfl⟩
  | cons subtree subtrees ih =>
    have hspec := parseObject_spec env leftover h subtree
    rw [parseObjects, ObjectVectorParser.parseObjects]
    cases hparse : ObjectVectorParser.parseObject env subtree v with
    | error a =>
      rw [hparse] at hspec
      obtain ⟨s', hs', hrep, -⟩ := hspec
      rw [hs']
      exact ⟨hrep, rfl⟩
    | ok v' =>
      rw [hparse] at hspec
      obtain ⟨s', o, hs', -, -, hrep, -⟩ := hspec
      rw [hs']
      exact ih hrep

theorem updateObjectVector_spec (h : s.Represents v) (message : List UInt8) :
    (updateObjectVector env leftover message s).1.Represents
      (ObjectVectorParser.updateObjectVector env message v).1 ∧
    (updateObjectVector env leftover message s).2 =
      (ObjectVectorParser.updateObjectVector env message v).2 := by
  unfold updateObjectVector ObjectVectorParser.updateObjectVector
  cases env.readJson message with
  | error e => exact ⟨h, rfl⟩
  | ok propTree =>
    dsimp only
    cases propTree.getChild ["objects"] with
    | error a => exact ⟨h, rfl⟩
    | ok objects => exact parseObjects_spec env leftover h _

theorem foreign_updateObjectVector {a : ℕ} {x : AnyObject F}
    (ha : s.memory.Foreign s.mObjects a x) (message : List UInt8) :
    (updateObjectVector env leftover message s).1.memory.Foreign
      (updateObjectVector env leftover message s).1.mObjects a x := by
  unfold updateObjectVector
  cases env.readJson message with
  | error e => exact ha
  | ok propTree =>
    dsimp only
    cases propTree.getChild ["objects"] with
    | error a => exact ha
    | ok objects => exact foreign_parseObjects env leftover ha _

/-- **A message on objects in memory**: the vector is replaced, or no object has changed. -/
theorem fillObjectVector_spec (h : s.Represents v) (message : List UInt8) :
    match ObjectVectorParser.updateObjectVector env message .empty with
    | (v', .ok ()) => ∃ s', fillObjectVector env leftover message s = (s', .ok ()) ∧
        s'.Represents v'
    | (_, .error a) => ∃ s', fillObjectVector env leftover message s = (s', .error a) ∧
        Unchanged s s' := by
  -- the objects of the vector do not belong to the local one
  have hforeign : ∀ {id a}, s.mObjects.find? id = some a → ∃ x, s.memory.cells a = some x ∧
      (updateObjectVector env leftover message { s with mObjects := .empty }).1.memory.Foreign
        (updateObjectVector env leftover message { s with mObjects := .empty }).1.mObjects a x := by
    intro id a ha
    obtain ⟨x, hx⟩ := h.allocated id a ha
    have hnot : s.memory.Foreign (OrderedMap.empty : OrderedMap UnsignedInt ℕ) a x :=
      ⟨hx, fun _ => nofun⟩
    exact ⟨x, hx, foreign_updateObjectVector env leftover
      (s := { s with mObjects := .empty }) hnot message⟩
  obtain ⟨hrep, hresult⟩ := updateObjectVector_spec env leftover
    (s := { s with mObjects := .empty }) (v := .empty) (Memory.represents_empty s.memory) message
  unfold fillObjectVector
  generalize updateObjectVector env leftover message { s with mObjects := .empty } = r at *
  generalize ObjectVectorParser.updateObjectVector env message .empty = r' at *
  obtain ⟨newVec, result⟩ := r
  obtain ⟨v', result'⟩ := r'
  cases hresult
  cases result with
  | error a =>
    refine ⟨_, rfl, rfl, fun id => ⟨rfl, ?_⟩⟩
    intro a ha
    obtain ⟨x, hx, hkept⟩ := hforeign ha
    rw [hx]
    exact hkept.cells_deleteAll
  | ok _ =>
    refine ⟨_, rfl, Memory.Represents.of_cells hrep ?_⟩
    intro id a ha
    apply Memory.cells_deleteAll_of_not_mem
    intro hmem
    obtain ⟨⟨id', a'⟩, hentry, rfl⟩ := List.mem_map.mp hmem
    obtain ⟨x, -, hkept⟩ := hforeign (OrderedMap.find?_of_mem hentry)
    exact hkept.not_owned id ha

end Refinement

end ObjectStore

/-! ### What an entry describes -/

namespace ObjectVectorParser

/-- The object that an entry describes.  The channels that are given are those of the object if
the entry has no channels, or faulty ones. -/
def describedObject (subtree : PropertyTree) (channels : List UnsignedInt) :
    Except Abort (AnyObject F) := do
  let objTypeStr ← subtree.get some ["type"]
  let objId ← subtree.get env.getUnsigned ["id"]
  let objTypeId ← stringToObjectType objTypeStr
  let objParser ← ObjectFactory.parser env objTypeId
  let newObj ← ObjectFactory.create objTypeId objId
  objParser subtree (newObj.withObject { newObj.toObject with channelIndices := channels })

omit [FloatArithmetic F] in
/-- The channels of the object that had the id and the type of an object. -/
def previousChannels (v : ObjectVector F) (o : AnyObject F) : List UnsignedInt :=
  match v.find? o.id with
  | some obj => if obj.type = o.type then obj.toObject.channelIndices else []
  | none => []

variable {env}

theorem newObject_channels {v : ObjectVector F} {objTypeId : ObjectTypeId} {objId : UnsignedInt}
    {src : AnyObject F} (h : newObject v objTypeId objId = .ok src) :
    src.toObject.channelIndices = previousChannels v src := by
  obtain ⟨hid, htype, -⟩ := newObject_ok h
  unfold previousChannels
  rw [hid, htype]
  unfold newObject at h
  cases hfind : v.find? objId with
  | none =>
    rw [hfind] at h
    exact (channelIndices_create h).1
  | some obj =>
    rw [hfind] at h
    dsimp only at h ⊢
    by_cases hsame : obj.type = objTypeId
    · rw [if_pos hsame] at h ⊢
      cases h
      rfl
    · rw [if_neg hsame] at h ⊢
      exact (channelIndices_create h).1

/-- **An object that is inserted is the one that the entry describes.** -/
theorem describedObject_of_inserts {subtree : PropertyTree} {v : ObjectVector F} {o : AnyObject F}
    (h : Inserts env v subtree o) :
    describedObject env subtree (previousChannels v o) = .ok o ∧
      (ObjectParser.AcceptsChannels env subtree →
        ∀ channels, describedObject env subtree channels = .ok o) := by
  obtain ⟨objTypeStr, objTypeId, objId, src, htypeStr, htype, hid, hsrc, ho⟩ := h
  obtain ⟨hsrcId, hsrcType, -⟩ := newObject_ok hsrc
  -- the object that is parsed into has the channels of the earlier one, or none
  have hprevious : src.toObject.channelIndices = previousChannels v o := by
    obtain ⟨hbase, hoType, -⟩ := AnyObject.parse_toObject ho
    have hoId : o.id = src.id := ObjectParser.parse_id hbase
    rw [newObject_channels hsrc, previousChannels, previousChannels, hoId, hoType]
  obtain ⟨newObj, hcreate⟩ : ∃ newObj : AnyObject F,
      ObjectFactory.create objTypeId objId = .ok newObj := by
    rw [← hsrcType]
    cases src <;> exact ⟨_, rfl⟩
  obtain ⟨-, hnewId, hnewType⟩ := channelIndices_create hcreate
  have hparser : ObjectFactory.parser env objTypeId = .ok (AnyObject.parse env) := by
    rw [← hsrcType]
    cases src <;> rfl
  -- a new object differs from it in what parsing overwrites
  have hdescribed : ∀ channels, src.toObject.channelIndices = channels ∨
      ObjectParser.AcceptsChannels env subtree →
        describedObject env subtree channels = .ok o := by
    intro channels hchannels
    unfold describedObject
    rw [htypeStr, ok_bind, hid, ok_bind, htype, ok_bind, hparser, ok_bind, hcreate, ok_bind, ← ho]
    apply AnyObject.parse_congr_object
    · rw [hsrcType, ← hnewType]
      cases newObj <;> rfl
    · rw [AnyObject.toObject_withObject]
      apply ObjectParser.parse_congr_object
      · exact hnewId.trans hsrcId.symm
      · exact hchannels.imp Eq.symm id
  refine ⟨hdescribed _ (Or.inl hprevious), ?_⟩
  intro haccepts channels
  exact hdescribed channels (Or.inr haccepts)

theorem applied_of_ok {subtrees : List PropertyTree} {v : ObjectVector F}
    (h : (parseObjects env subtrees v).2 = .ok ()) : applied env subtrees v = subtrees := by
  induction subtrees generalizing v with
  | nil => rfl
  | cons subtree subtrees ih =>
    rw [parseObjects] at h
    rw [applied]
    cases hparse : parseObject env subtree v with
    | error a =>
      rw [hparse] at h
      cases h
    | ok v' =>
      rw [hparse] at h
      exact congrArg _ (ih h)

/-- **A message that is accepted** is applied as a whole. -/
theorem find?_updateObjectVector_of_ok {message : List UInt8} {v v' : ObjectVector F}
    (h : updateObjectVector env message v = (v', .ok ())) :
    applied env (entries env message) v = entries env message ∧
      ∀ id, v'.find? id = objectAfter env id (entries env message) (v.find? id) := by
  rcases updateObjectVector_cases env message v with heq | ⟨-, a, -, heq⟩
  · rw [heq] at h
    have happlied : applied env (entries env message) v = entries env message := by
      apply applied_of_ok
      rw [h]
    refine ⟨happlied, fun id => ?_⟩
    have hfind : (parseObjects env (entries env message) v).1.find? id =
        objectAfter env id (applied env (entries env message) v) (v.find? id) :=
      find?_parseObjects _ v id
    rw [h, happlied] at hfind
    exact hfind
  · rw [heq] at h
    cases h

end ObjectVectorParser

/-! ### Atomicity -/

namespace ObjectStore

open ObjectVectorParser

variable (leftover : PropertyTree → AnyObject F → AnyObject F)

/-- The object that an entry describes is inserted, where channels from before are kept only if
the entry does not have valid ones, or an exception is thrown and nothing has changed. -/
def EntryAtomic (s : ObjectStore F) (v : ObjectVector F) (subtree : PropertyTree) : Prop :=
  match parseObject env leftover subtree s with
  | (s', .error a) => a ≠ .undefined → Unchanged s s'
  | (s', .ok ()) => ∃ o, s'.Represents (v.insert o) ∧ (∀ id, id ≠ o.id → SameObject s s' id) ∧
      describedObject env subtree (previousChannels v o) = .ok o ∧
      (ObjectParser.AcceptsChannels env subtree →
        ∀ channels, describedObject env subtree channels = .ok o)

/-- The objects of the message replace those of the vector, or an exception is thrown and nothing
has changed. -/
def MessageAtomic (s : ObjectStore F) (message : List UInt8) : Prop :=
  match fillObjectVector env leftover message s with
  | (s', .error a) => a ≠ .undefined → Unchanged s s'
  | (s', .ok ()) => ∃ v', s'.Represents v' ∧
      applied env (entries env message) .empty = entries env message ∧
      ∀ id, v'.find? id = objectAfter env id (entries env message) none

/-- **Entries and messages are applied as a whole or not at all**, whatever a parser that fails
leaves behind. -/
theorem parsing_atomic {s : ObjectStore F} {v : ObjectVector F} (h : s.Represents v) :
    (∀ subtree, EntryAtomic env leftover s v subtree) ∧
      ∀ message, MessageAtomic env leftover s message := by
  constructor
  · intro subtree
    have hspec := parseObject_spec env leftover h subtree
    -- the specification tells what the parser makes of the vector
    unfold EntryAtomic
    cases hparse : ObjectVectorParser.parseObject env subtree v with
    | error a =>
      rw [hparse] at hspec
      obtain ⟨s', hs', -, hunchanged⟩ := hspec
      rw [hs']
      exact fun _ => hunchanged
    | ok v' =>
      rw [hparse] at hspec
      obtain ⟨s', o, hs', rfl, hinserts, hrep, hsame⟩ := hspec
      rw [hs']
      exact ⟨o, hrep, hsame, describedObject_of_inserts hinserts⟩
  · intro message
    have hspec := fillObjectVector_spec env leftover h message
    unfold MessageAtomic
    cases hupdate : ObjectVectorParser.updateObjectVector env message .empty with
    | mk v' result =>
      rw [hupdate] at hspec
      cases result with
      | error a =>
        obtain ⟨s', hs', hunchanged⟩ := hspec
        rw [hs']
        exact fun _ => hunchanged
      | ok _ =>
        obtain ⟨s', hs', hrep⟩ := hspec
        rw [hs']
        exact ⟨v', hrep, find?_updateObjectVector_of_ok hupdate⟩

/-! ### A point source in memory -/

open WholeNumber

def pointObject : AnyObject WholeNumber := .pointSource {
  id := 1
  groupId := 0
  level := ⟨1⟩
  priority := 5
  channelIndices := [0, 7]
  eqCoefficients := []
  x := ⟨2⟩
  y := ⟨0⟩
  z := ⟨0⟩
  channelLockDistance := ⟨0⟩ }

/-- The object is at the address zero. -/
def pointStore : ObjectStore WholeNumber where
  memory := Memory.empty.new pointObject
  mObjects := OrderedMap.empty.insert 1 0

theorem represents_pointStore : pointStore.Represents (ObjectVector.empty.insert pointObject) := by
  have hempty : (Memory.empty : Memory (AnyObject WholeNumber)).Represents
      (OrderedMap.empty : OrderedMap UnsignedInt ℕ) OrderedMap.empty := Memory.represents_empty _
  have hkeeps := (Memory.empty : Memory (AnyObject WholeNumber)).keeps_new pointObject
  exact (hempty.of_keeps hkeeps).replace (Memory.cells_new_self _ pointObject) fun _ => nofun

theorem parsing_atomic_point :
    (∀ subtree, EntryAtomic (platform []) (fun _ obj => obj) pointStore
      (ObjectVector.empty.insert pointObject) subtree) ∧
    ∀ message, MessageAtomic (platform []) (fun _ obj => obj) pointStore message :=
  parsing_atomic (platform []) (fun _ obj => obj) represents_pointStore

/-- An entry with another level, and channels that are not accepted. -/
def faultyChannelsTree : PropertyTree :=
  node "" [("type", node "point" []), ("channels", node "x" []), ("id", node "1" []),
    ("group", node "0" []), ("level", node "3" []), ("priority", node "5" []),
    ("position", node "" [("x", node "2" []), ("y", node "0" []), ("z", node "0" [])])]

/-- The entry changes the level of the object, which keeps channels that are not in the entry. -/
theorem parseObject_faulty_channels :
    ¬(Unchanged pointStore
        (parseObject (platform []) (fun _ obj => obj) faultyChannelsTree pointStore).1 ∨
      ∃ o, (parseObject (platform []) (fun _ obj => obj) faultyChannelsTree pointStore).1.find? 1 =
        some o ∧ describedObject (platform []) faultyChannelsTree [] = .ok o) := by
  have hlevel : ((parseObject (platform []) (fun _ obj => obj) faultyChannelsTree
      pointStore).1.find? 1).map (fun o => o.toObject.level) = some ⟨3⟩ := by decide +kernel
  have hkept : ((parseObject (platform []) (fun _ obj => obj) faultyChannelsTree
      pointStore).1.find? 1).map (fun o => o.toObject.channelIndices) = some [0, 7] := by
    decide +kernel
  have hdescribed : (describedObject (platform []) faultyChannelsTree []).map
      (fun o => o.toObject.channelIndices) = .ok [] := by decide +kernel
  rintro (⟨hobjects, hsame⟩ | ⟨o, hfind, ho⟩)
  · have hpointer : pointStore.mObjects.find? 1 = some 0 := by decide +kernel
    have hcell : pointStore.memory.cells 0 = some pointObject := rfl
    unfold find? at hlevel
    rw [hobjects, hpointer, Option.bind_some, (hsame 1).2 0 hpointer, hcell] at hlevel
    exact absurd hlevel (by decide)
  · rw [hfind, Option.map_some] at hkept
    rw [ho] at hdescribed
    have hempty : o.toObject.channelIndices = [] := Except.ok.inj hdescribed
    rw [hempty] at hkept
    cases hkept

end ObjectStore

end Visr
