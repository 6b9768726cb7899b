import Mathlib.Data.List.GetD
import Visr.Library.KeyedSet
import Visr.Library.Writes
import Visr.Librbbl.PropertyTree

/-!
# Lists of routings

What the lists of filter routings and of gain routings have in common.  Both are sets ordered by a
part of the routings, and both are read from an array of specifications, in which numbers may be
sequences.

## Main results

* `RoutingList.addRouting_eq` — an entry takes the place of the one with its key.
* `RoutingList.fromTree_eq` — the routings of all specifications are put in one list.
* `RoutingList.loadAll_documented` — reading an array is a matter of the single specifications.
-/

namespace Visr

open PropertyTree (loadAll)

namespace RoutingList

variable {F κ R α : Type} [LinearOrder κ] {key : R → κ}

/-! ### Changes -/

/-- An entry with the key of the new one is removed first. -/
def addRouting (message : String) (routings : KeyedSet key) (newEntry : R) :
    Except Abort (KeyedSet key) :=
  let routings := if (routings.find? (key newEntry)).isSome then routings.erase (key newEntry)
    else routings
  match routings.insert? newEntry with
  | some routings => .ok routings
  | none => .error (.exception (.logicError message))

/-- Removes the entry with the key of another one, and reports whether there has been one. -/
def removeRouting (routings : KeyedSet key) (entry : R) : Bool × KeyedSet key :=
  if (routings.find? (key entry)).isSome then (true, routings.erase (key entry))
  else (false, routings)

/-- **An entry takes the place of the one with its key.** -/
theorem addRouting_eq (message : String) (routings : KeyedSet key) (newEntry : R) :
    addRouting message routings newEntry = .ok (routings.put newEntry) := by
  have herase : (if (routings.find? (key newEntry)).isSome then routings.erase (key newEntry)
      else routings) = routings.erase (key newEntry) := by
    split
    · rfl
    next hnone =>
      rw [Bool.not_eq_true, Option.isSome_eq_false_iff, Option.isNone_iff_eq_none] at hnone
      exact (KeyedSet.erase_eq_self hnone).symm
  unfold addRouting
  dsimp only
  rw [herase, KeyedSet.insert?_erase]

theorem removeRouting_eq (routings : KeyedSet key) (entry : R) :
    removeRouting routings entry =
      ((routings.find? (key entry)).isSome, routings.erase (key entry)) := by
  unfold removeRouting
  split
  next hsome => rw [hsome]
  next hnone =>
    rw [Bool.not_eq_true] at hnone
    rw [hnone, KeyedSet.erase_eq_self]
    rwa [Option.isSome_eq_false_iff, Option.isNone_iff_eq_none] at hnone

/-! ### Sequences -/

/-- `values[idx]`, which is not checked. -/
def element (values : List α) (idx : ℕ) : Except Abort α :=
  match values[idx]? with
  | some value => .ok value
  | none => .error .undefined

/-- `values.size( ) == 1 ? values[0] : values[entryIdx]`. -/
def scalarOrElement (values : List α) (entryIdx : ℕ) : Except Abort α :=
  if values.length = 1 then element values 0 else element values entryIdx

/-- A sequence is a scalar, or it has a certain length. -/
def Fits (n : ℕ) (values : List α) : Prop := values.length = 1 ∨ values.length = n

instance (n : ℕ) (values : List α) : Decidable (Fits n values) :=
  inferInstanceAs (Decidable (_ ∨ _))

/-- An element of a sequence, where a scalar is repeated. -/
def repeated (default : α) (values : List α) (i : ℕ) : α :=
  values.getD (if values.length = 1 then 0 else i) default

theorem element_of_lt {values : List α} (default : α) {idx : ℕ} (h : idx < values.length) :
    element values idx = .ok (values.getD idx default) := by
  unfold element
  rw [List.getElem?_eq_getElem h, List.getD_eq_getElem _ _ h]

/-- An element of a sequence with the right number of elements. -/
theorem element_of_length {n : ℕ} {values : List α} (h : values.length = n) (default : α) {i : ℕ}
    (hi : i < n) : element values i = .ok (repeated default values i) := by
  rw [element_of_lt default (by omega)]
  unfold repeated
  split
  next hscalar => rw [show i = 0 by omega]
  · rfl

theorem scalarOrElement_of_fits {n : ℕ} {values : List α} (h : Fits n values) (default : α) {i : ℕ}
    (hi : i < n) : scalarOrElement values i = .ok (repeated default values i) := by
  unfold scalarOrElement
  by_cases hscalar : values.length = 1
  · rw [if_pos hscalar, element_of_lt default (by omega)]
    unfold repeated
    rw [if_pos hscalar]
  · rw [if_neg hscalar]
    exact element_of_length (h.resolve_left hscalar) default hi

/-- Nothing is thrown by an access. -/
theorem element_error {values : List α} {idx : ℕ} {abort : Abort}
    (h : element values idx = .error abort) : abort = .undefined := by
  unfold element at h
  split at h
  · cases h
  · cases h
    rfl

theorem scalarOrElement_error {values : List α} {entryIdx : ℕ} {abort : Abort}
    (h : scalarOrElement values entryIdx = .error abort) : abort = .undefined := by
  unfold scalarOrElement at h
  split at h
  · exact element_error h
  · exact element_error h

/-! ### Reading -/

/-- The routings of the children of a tree, where `parse` reads a specification. -/
def fromTree (message : String) (parse : PropertyTree → Except Abort (List R))
    (propTree : PropertyTree) : Except Abort (KeyedSet key) :=
  propTree.children.foldlM (fun newList v => do
    let routings ← parse v.2
    routings.foldlM (addRouting message) newList) .empty

/-- A text that is not JSON is reported with a message. -/
def fromJson (env : Platform F) (jsonMessage message : String)
    (parse : PropertyTree → Except Abort (List R)) (initString : List UInt8) :
    Except Abort (KeyedSet key) :=
  match env.readJson initString with
  | .error ex => .error (.exception (.invalidArgument (jsonMessage ++ ex.what)))
  | .ok propTree => fromTree message parse propTree

/-- The new list takes the place of the old one if it could be read. -/
def parseJson (newList : Except Abort (KeyedSet key)) (routings : KeyedSet key) :
    Except Abort Unit × KeyedSet key :=
  match newList with
  | .error abort => (.error abort, routings)
  | .ok newList => (.ok (), newList)

theorem foldlM_addRouting (message : String) (l : List R) (routings : KeyedSet key) :
    l.foldlM (addRouting message) routings = .ok (l.foldl KeyedSet.put routings) := by
  induction l generalizing routings with
  | nil => rfl
  | cons entry l ih =>
    rw [List.foldlM_cons, addRouting_eq, ok_bind, ih]
    rfl

/-- The specifications are read one after the other, and each routing is added then. -/
theorem fromTree_eq (message : String) (parse : PropertyTree → Except Abort (List R))
    (propTree : PropertyTree) :
    (fromTree message parse propTree : Except Abort (KeyedSet key)) =
      (loadAll parse (propTree.children.map Prod.snd)).map fun l =>
        l.flatten.foldl KeyedSet.put .empty := by
  have hall : ∀ (children : List (String × PropertyTree)) (routings : KeyedSet key),
      (children.foldlM (fun newList v => do
        let l ← parse v.2
        l.foldlM (addRouting message) newList) routings) =
      (loadAll parse (children.map Prod.snd)).map fun l => l.flatten.foldl KeyedSet.put routings := by
    intro children
    induction children with
    | nil => intro routings; rfl
    | cons child children ih =>
      intro routings
      rw [List.foldlM_cons, List.map_cons, loadAll]
      cases parse child.2 with
      | error abort => rfl
      | ok l =>
        rw [ok_bind, ok_bind, foldlM_addRouting, ok_bind, ih]
        cases loadAll parse (children.map Prod.snd) with
        | error abort => rfl
        | ok rest =>
          show Except.ok _ = Except.ok ((l :: rest).flatten.foldl KeyedSet.put routings)
          rw [List.flatten_cons, List.foldl_append]
  exact hall propTree.children .empty

/-- What becomes of a list when a text is read that is JSON. -/
theorem parseJson_fromJson (env : Platform F) (jsonMessage message : String)
    (parse : PropertyTree → Except Abort (List R)) (routings : KeyedSet key) {encoded : List UInt8}
    {propTree : PropertyTree} (h : env.readJson encoded = .ok propTree) :
    parseJson (fromJson env jsonMessage message parse encoded) routings =
      match loadAll parse (propTree.children.map Prod.snd) with
      | .error abort => (.error abort, routings)
      | .ok l => (.ok (), l.flatten.foldl KeyedSet.put .empty) := by
  unfold fromJson
  rw [h]
  dsimp only
  rw [fromTree_eq]
  cases loadAll parse (propTree.children.map Prod.snd) with
  | error abort => rfl
  | ok l => rfl

/-! ### What an array says -/

section Documented

variable (specified : PropertyTree → Option (List R)) (rejected : PropertyTree → Abort → Prop)
  (parse : PropertyTree → Except Abort (List R))

/-- A specification contributes the routings that it stands for, or it is rejected. -/
def Documented (node : PropertyTree) : Prop :=
  match specified node with
  | some routings => parse node = .ok routings
  | none => ∃ abort, parse node = .error abort ∧ rejected node abort

/-- A condition on all specifications up to the first one that stands for no routings. -/
def AllSpecified (p : PropertyTree → Prop) : List PropertyTree → Prop
  | [] => True
  | node :: nodes => p node ∧ (specified node ≠ none → AllSpecified p nodes)

theorem allSpecified_congr {p q : PropertyTree → Prop} (h : ∀ node, p node ↔ q node)
    (nodes : List PropertyTree) : AllSpecified specified p nodes ↔ AllSpecified specified q nodes := by
  induction nodes with
  | nil => exact Iff.rfl
  | cons node nodes ih => rw [AllSpecified, AllSpecified, h node, ih]

/-- **An array is read as its specifications say**: all of them are, or one is rejected. -/
theorem loadAll_documented {nodes : List PropertyTree}
    (h : AllSpecified specified (Documented specified rejected parse) nodes) :
    (∃ l, nodes.mapM specified = some l ∧ loadAll parse nodes = .ok l) ∨
      nodes.mapM specified = none ∧ ∃ node ∈ nodes, ∃ abort, specified node = none ∧
        loadAll parse nodes = .error abort ∧ rejected node abort := by
  induction nodes with
  | nil => exact .inl ⟨[], rfl, rfl⟩
  | cons node nodes ih =>
    obtain ⟨hnode, hnodes⟩ := h
    unfold Documented at hnode
    rw [loadAll, List.mapM_cons]
    cases hspecified : specified node with
    | none =>
      rw [hspecified] at hnode
      obtain ⟨abort, hparse, hrejected⟩ := hnode
      refine .inr ⟨rfl, node, List.mem_cons_self, abort, hspecified, ?_, hrejected⟩
      rw [hparse, error_bind]
    | some routings =>
      rw [hspecified] at hnode
      dsimp only at hnode
      rw [hnode, ok_bind]
      -- the rest of the array is only read after a specification that is accepted
      rcases ih (hnodes (by simp [hspecified])) with ⟨l, hl, hload⟩ |
          ⟨hl, node', hnode', abort, hnone, hload, hrejected⟩
      · refine .inl ⟨routings :: l, ?_, ?_⟩
        · rw [hl]
          rfl
        · rw [hload]
          rfl
      · refine .inr ⟨?_, node', List.mem_cons_of_mem node hnode', abort, hnone, ?_, hrejected⟩
        · rw [hl]
          rfl
        · rw [hload]
          rfl

end Documented

end RoutingList

end Visr
