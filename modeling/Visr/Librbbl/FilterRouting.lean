import Mathlib.Data.Prod.Lex
import Visr.Librbbl.RoutingList
import Visr.Librbbl.WholeNumber

/-!
# Filter routings

The routings of a multichannel filter engine, and their JSON representation, where each of the
numbers of a routing may be a sequence.

## Main results

* `FilterRoutingList.documented_iff_proper` — which specifications are read as documented.
* `FilterRoutingList.readAsDocumented_iff` — the same for arrays.
-/

namespace Visr

open RoutingList

/-- A filter between an input and an output. -/
structure FilterRouting (F : Type) where
  inputIndex : ℕ
  outputIndex : ℕ
  filterIndex : ℕ
  gainLinear : F
  deriving DecidableEq

/-- `CompareEntries`: the input is compared first. -/
def FilterRouting.key {F : Type} (r : FilterRouting F) : ℕ ×ₗ ℕ := toLex (r.inputIndex, r.outputIndex)

abbrev FilterRoutingList (F : Type) := KeyedSet (FilterRouting.key (F := F))

namespace FilterRoutingList

variable {F : Type} [FloatArithmetic F] (env : Platform F)

/-- The sequences of a specification. -/
structure Specification (F : Type) where
  inIndices : List ℕ
  outIndices : List ℕ
  filterIndices : List ℕ
  gainVector : List F

/-! ### Reading -/

def readSequences (routingNode : PropertyTree) : Except Abort (Specification F) := do
  let inIdxStr ← routingNode.get some ["input"]
  let outIdxStr ← routingNode.get some ["output"]
  let filterIdxStr ← routingNode.get some ["filter"]
  let gain := routingNode.getDefault some ["gain"] "1.0"
  let inIndices ← IndexSequence.parse env.capacity inIdxStr
  let outIndices ← IndexSequence.parse env.capacity outIdxStr
  let filterIndices ← IndexSequence.parse env.capacity filterIdxStr
  let gainVector ← FloatSequence.parse env.capacity env.float_ gain
  pure ⟨inIndices, outIndices, filterIndices, gainVector⟩

def sameNumber {α : Type} : Except Abort α :=
  .error (.exception (.invalidArgument ("FilterRoutingList:parseJson: All non-scalar entries must " ++
    "have the same number of indices")))

/-- The number of routings, from the inputs and the outputs. -/
def checkOutputs (s : Specification F) : Except Abort ℕ :=
  let numEntries := s.inIndices.length
  if s.outIndices.length ≠ numEntries then
    if numEntries = 1 then .ok s.outIndices.length
    else if s.outIndices.length ≠ 1 then sameNumber
    else .ok numEntries
  else .ok numEntries

/-- The checks of the sizes, and the number of routings. -/
def checkSizes (s : Specification F) : Except Abort ℕ := do
  let numEntries ← checkOutputs s
  -- only a single routing is compared with the number of filters
  if s.filterIndices.length ≠ numEntries ∧ numEntries = 1 ∧ s.filterIndices.length ≠ 1 then
    sameNumber
  else if s.gainVector.length ≠ 1 ∧ s.gainVector.length ≠ numEntries then
    .error (.exception (.invalidArgument ("FilterRoutingList:parseJson: If the \"input\" and/or " ++
      "the \"output\" entry of a routing is non-scalar, the \"gain\" entry must have the same " ++
      "number of indices")))
  else pure numEntries

/-- The routing with a number. -/
def entry (s : Specification F) (entryIdx : ℕ) : Except Abort (FilterRouting F) := do
  let inIdx ← scalarOrElement s.inIndices entryIdx
  let outIdx ← scalarOrElement s.outIndices entryIdx
  let filterIdx ← scalarOrElement s.filterIndices entryIdx
  let gain ← scalarOrElement s.gainVector entryIdx
  pure ⟨inIdx, outIdx, filterIdx, gain⟩

/-- The routings of a specification. -/
def parseRouting (routingNode : PropertyTree) : Except Abort (List (FilterRouting F)) := do
  let s ← readSequences env routingNode
  let numEntries ← checkSizes s
  PropertyTree.loadAll (entry s) (List.range numEntries)

def fromJson (initString : List UInt8) : Except Abort (FilterRoutingList F) :=
  RoutingList.fromJson env "FilterRoutingList::parseJson(): Error while reading JSON data:"
    "FilterRoutingList::addRouting(): Error inserting element: " (parseRouting env) initString

def parseJson (routings : FilterRoutingList F) (encoded : List UInt8) :
    Except Abort Unit × FilterRoutingList F :=
  RoutingList.parseJson (fromJson env encoded) routings

/-! ### What a specification stands for -/

/-- The number of elements is that of the inputs, or of the outputs if there is one input only. -/
def Specification.numberOfElements (s : Specification F) : ℕ :=
  if s.inIndices.length = 1 then s.outIndices.length else s.inIndices.length

/-- All entries are scalars, or they have as many elements as there are. -/
def Specification.Consistent (s : Specification F) : Prop :=
  Fits s.numberOfElements s.inIndices ∧ Fits s.numberOfElements s.outIndices ∧
    Fits s.numberOfElements s.filterIndices ∧ Fits s.numberOfElements s.gainVector

instance (s : Specification F) : Decidable s.Consistent :=
  inferInstanceAs (Decidable (_ ∧ _))

/-- A routing for each element, with scalars repeated. -/
def Specification.routings (s : Specification F) : List (FilterRouting F) :=
  (List.range s.numberOfElements).map fun i =>
    ⟨repeated 0 s.inIndices i, repeated 0 s.outIndices i, repeated 0 s.filterIndices i,
      repeated 0 s.gainVector i⟩

/-- The routings that a specification stands for, unless a field is missing, or not a sequence, or
the lengths of the sequences are different. -/
def specified (node : PropertyTree) : Option (List (FilterRouting F)) :=
  match readSequences env node with
  | .ok s => if s.Consistent then some s.routings else none
  | .error _ => none

/-- Specifications are rejected with `std::invalid_argument`. -/
def rejected (_ : PropertyTree) (abort : Abort) : Prop :=
  ∃ what, abort = .exception (.invalidArgument what)

/-- All errors are of the class `std::invalid_argument`. -/
def InvalidOnly {α : Type} (x : Except Abort α) : Prop :=
  ∀ abort, x = .error abort → ∃ what, abort = .exception (.invalidArgument what)

/-- The number of filters is right, unless it is compared with the number of routings or something
else is wrong. -/
def Specification.FilterMatches (s : Specification F) : Prop :=
  ¬Fits s.numberOfElements s.outIndices ∨ ¬Fits s.numberOfElements s.gainVector ∨
    s.numberOfElements = 1 ∨ Fits s.numberOfElements s.filterIndices

/-- No field is missing, the first one that is not a sequence is rejected with
`std::invalid_argument`, and the number of filters is right. -/
def Proper (node : PropertyTree) : Prop :=
  ∃ inIdxStr outIdxStr filterIdxStr, node.get some ["input"] = .ok inIdxStr ∧
    node.get some ["output"] = .ok outIdxStr ∧ node.get some ["filter"] = .ok filterIdxStr ∧
    InvalidOnly (IndexSequence.parse env.capacity inIdxStr) ∧
    ∀ inIndices, IndexSequence.parse env.capacity inIdxStr = .ok inIndices →
      InvalidOnly (IndexSequence.parse env.capacity outIdxStr) ∧
      ∀ outIndices, IndexSequence.parse env.capacity outIdxStr = .ok outIndices →
        InvalidOnly (IndexSequence.parse env.capacity filterIdxStr) ∧
        ∀ filterIndices, IndexSequence.parse env.capacity filterIdxStr = .ok filterIndices →
          InvalidOnly (FloatSequence.parse env.capacity env.float_
            (node.getDefault some ["gain"] "1.0")) ∧
          ∀ gainVector, FloatSequence.parse env.capacity env.float_
              (node.getDefault some ["gain"] "1.0") = .ok gainVector →
            Specification.FilterMatches ⟨inIndices, outIndices, filterIndices, gainVector⟩

/-- An array of specifications is read as these say: the new list has all their routings, or
`std::invalid_argument` is thrown and the old list is still there. -/
def ReadAsDocumented (routings : FilterRoutingList F) (encoded : List UInt8) : Prop :=
  match env.readJson encoded with
  | .error _ => ∃ what,
      parseJson env routings encoded = (.error (.exception (.invalidArgument what)), routings)
  | .ok propTree =>
    let nodes := propTree.children.map Prod.snd
    AllSpecified (specified env) (Documented (specified env) rejected (parseRouting env)) nodes ∧
      match nodes.mapM (specified env) with
      | some l => parseJson env routings encoded = (.ok (), l.flatten.foldl KeyedSet.put .empty)
      | none => ∃ what,
          parseJson env routings encoded = (.error (.exception (.invalidArgument what)), routings)

/-! ### Single specifications -/

section InvalidOnly

variable {α β : Type} {x : Except Abort α}

theorem invalidOnly_ok (a : α) : InvalidOnly (.ok a : Except Abort α) := nofun

theorem invalidOnly_bind {f : α → Except Abort β} :
    InvalidOnly (x >>= f) ↔ InvalidOnly x ∧ ∀ a, x = .ok a → InvalidOnly (f a) := by
  cases x with
  | error abort =>
    rw [error_bind]
    refine ⟨fun h => ⟨fun abort' heq => ?_, nofun⟩, fun h abort' heq => ?_⟩
    · cases heq
      exact h abort rfl
    · cases heq
      exact h.1 abort rfl
  | ok a =>
    rw [ok_bind]
    refine ⟨fun h => ⟨invalidOnly_ok a, fun a' heq => ?_⟩, fun h => h.2 a rfl⟩
    cases heq
    exact h

/-- A missing field is reported by an exception of another class. -/
theorem invalidOnly_get_iff {node : PropertyTree} {path : List String} :
    InvalidOnly (node.get some path) ↔ ∃ text, node.get some path = .ok text := by
  cases hget : node.get some path with
  | ok text => exact iff_of_true (invalidOnly_ok text) ⟨text, rfl⟩
  | error abort =>
    refine iff_of_false (fun h => ?_) (fun ⟨text, htext⟩ => nomatch htext)
    obtain ⟨what, rfl⟩ := h abort rfl
    unfold PropertyTree.get PropertyTree.getChild at hget
    split at hget
    · cases hget
    · cases hget

end InvalidOnly

/-- What has to hold for the sequences of a specification. -/
theorem proper_iff {node : PropertyTree} :
    Proper env node ↔ InvalidOnly (readSequences env node) ∧
      ∀ s, readSequences env node = .ok s → s.FilterMatches := by
  unfold readSequences
  constructor
  · rintro ⟨inIdxStr, outIdxStr, filterIdxStr, hin, hout, hfilter, hinputs, h⟩
    rw [hin, hout, hfilter, ok_bind, ok_bind, ok_bind]
    refine ⟨invalidOnly_bind.mpr ⟨hinputs, fun inIndices hi => invalidOnly_bind.mpr
      ⟨(h _ hi).1, fun outIndices ho => invalidOnly_bind.mpr
        ⟨((h _ hi).2 _ ho).1, fun filterIndices hf => invalidOnly_bind.mpr
          ⟨(((h _ hi).2 _ ho).2 _ hf).1, fun _ _ => invalidOnly_ok _⟩⟩⟩⟩, fun s hs => ?_⟩
    obtain ⟨inIndices, hi, hs⟩ := exists_of_bind_ok hs
    obtain ⟨outIndices, ho, hs⟩ := exists_of_bind_ok hs
    obtain ⟨filterIndices, hf, hs⟩ := exists_of_bind_ok hs
    obtain ⟨gainVector, hg, hs⟩ := exists_of_bind_ok hs
    cases hs
    exact (((h _ hi).2 _ ho).2 _ hf).2 _ hg
  · -- the attributes are read one after the other, so each one matters after the earlier ones only
    rintro ⟨hinvalid, hmatches⟩
    obtain ⟨hget, hinvalid⟩ := invalidOnly_bind.mp hinvalid
    obtain ⟨inIdxStr, hin⟩ := invalidOnly_get_iff.mp hget
    obtain ⟨hget, hinvalid⟩ := invalidOnly_bind.mp (hinvalid _ hin)
    obtain ⟨outIdxStr, hout⟩ := invalidOnly_get_iff.mp hget
    obtain ⟨hget, hinvalid⟩ := invalidOnly_bind.mp (hinvalid _ hout)
    obtain ⟨filterIdxStr, hfilter⟩ := invalidOnly_get_iff.mp hget
    obtain ⟨hinputs, hinvalid⟩ := invalidOnly_bind.mp (hinvalid _ hfilter)
    refine ⟨inIdxStr, outIdxStr, filterIdxStr, hin, hout, hfilter, hinputs, fun inIndices hi => ?_⟩
    obtain ⟨houtputs, hinvalid⟩ := invalidOnly_bind.mp (hinvalid _ hi)
    refine ⟨houtputs, fun outIndices ho => ?_⟩
    obtain ⟨hfilters, hinvalid⟩ := invalidOnly_bind.mp (hinvalid _ ho)
    refine ⟨hfilters, fun filterIndices hf => ?_⟩
    obtain ⟨hgains, -⟩ := invalidOnly_bind.mp (hinvalid _ hf)
    refine ⟨hgains, fun gainVector hg => hmatches _ ?_⟩
    rw [hin, hout, hfilter, ok_bind, ok_bind, ok_bind, hi, ok_bind, ho, ok_bind, hf, ok_bind, hg]
    rfl

omit [FloatArithmetic F] in
theorem fits_inIndices (s : Specification F) : Fits s.numberOfElements s.inIndices := by
  unfold Fits Specification.numberOfElements
  split
  next hscalar => exact .inl hscalar
  next => exact .inr rfl

omit [FloatArithmetic F] in
theorem checkOutputs_of_fits {s : Specification F} (h : Fits s.numberOfElements s.outIndices) :
    checkOutputs s = .ok s.numberOfElements := by
  unfold checkOutputs Specification.numberOfElements
  dsimp only
  by_cases hscalar : s.inIndices.length = 1
  · rw [if_pos hscalar, if_pos hscalar]
    split
    · rfl
    next hsame => rw [not_not.mp hsame]
  · unfold Fits Specification.numberOfElements at h
    rw [if_neg hscalar] at h
    rw [if_neg hscalar, if_neg hscalar]
    rcases h with hone | hsame
    · rw [if_neg (not_not.mpr hone), ite_self]
    · rw [if_neg (not_not.mpr hsame)]

omit [FloatArithmetic F] in
theorem checkOutputs_of_not_fits {s : Specification F}
    (h : ¬Fits s.numberOfElements s.outIndices) : checkOutputs s = sameNumber := by
  unfold Fits Specification.numberOfElements at h
  rw [not_or] at h
  unfold checkOutputs
  dsimp only
  by_cases hscalar : s.inIndices.length = 1
  · rw [if_pos hscalar] at h
    exact absurd rfl h.2
  · rw [if_neg hscalar] at h
    rw [if_pos h.2, if_neg hscalar, if_pos h.1]

omit [FloatArithmetic F] in
/-- Without a routing too many, the number of filters does not matter. -/
theorem checkSizes_of_fits {s : Specification F} (hout : Fits s.numberOfElements s.outIndices)
    (hgain : Fits s.numberOfElements s.gainVector)
    (hfilter : s.numberOfElements = 1 → s.filterIndices.length = 1) :
    checkSizes s = .ok s.numberOfElements := by
  unfold checkSizes
  rw [checkOutputs_of_fits hout, ok_bind, if_neg, if_neg]
  · rfl
  · rintro ⟨hone, hsame⟩
    exact hgain.elim hone hsame
  · rintro ⟨-, hsingle, hone⟩
    exact hone (hfilter hsingle)

/-- A specification all of whose entries have the right length. -/
theorem entries_of_consistent {s : Specification F} (h : s.Consistent) :
    PropertyTree.loadAll (entry s) (List.range s.numberOfElements) = .ok s.routings := by
  have hentry : ∀ i ∈ List.range s.numberOfElements, entry s i =
      .ok ⟨repeated 0 s.inIndices i, repeated 0 s.outIndices i, repeated 0 s.filterIndices i,
        repeated 0 s.gainVector i⟩ := by
    intro i hi
    have hlt := List.mem_range.mp hi
    unfold entry
    rw [scalarOrElement_of_fits h.1 0 hlt, ok_bind, scalarOrElement_of_fits h.2.1 0 hlt, ok_bind,
      scalarOrElement_of_fits h.2.2.1 0 hlt, ok_bind, scalarOrElement_of_fits h.2.2.2 0 hlt]
    rfl
  have hall : PropertyTree.loadAll (entry s) ((List.range s.numberOfElements).map id) =
      .ok s.routings := PropertyTree.loadAll_map hentry
  rwa [List.map_id] at hall

omit [FloatArithmetic F] in
/-- Nothing is thrown while the elements of sequences are accessed. -/
theorem entries_error {s : Specification F} {n : ℕ} {abort : Abort}
    (h : PropertyTree.loadAll (entry s) (List.range n) = .error abort) : abort = .undefined := by
  obtain ⟨i, -, hentry⟩ := PropertyTree.exists_of_loadAll_error h
  rcases exists_of_bind_error hentry with h | ⟨inIdx, -, hentry⟩
  · exact scalarOrElement_error h
  · rcases exists_of_bind_error hentry with h | ⟨outIdx, -, hentry⟩
    · exact scalarOrElement_error h
    · rcases exists_of_bind_error hentry with h | ⟨filterIdx, -, hentry⟩
      · exact scalarOrElement_error h
      · rcases exists_of_bind_error hentry with h | ⟨gain, -, hentry⟩
        · exact scalarOrElement_error h
        · cases hentry

/-- **The sequences of a specification** are dealt with as documented if the number of filters is
right. -/
theorem sizes_iff {s : Specification F} :
    (if s.Consistent then
      (checkSizes s >>= fun n => PropertyTree.loadAll (entry s) (List.range n)) = .ok s.routings
      else ∃ what, (checkSizes s >>= fun n => PropertyTree.loadAll (entry s) (List.range n)) =
        .error (.exception (.invalidArgument what))) ↔ s.FilterMatches := by
  by_cases hout : Fits s.numberOfElements s.outIndices
  swap
  · -- the outputs do not fit
    rw [if_neg fun h => hout h.2.1]
    refine iff_of_true ?_ (.inl hout)
    unfold checkSizes
    rw [checkOutputs_of_not_fits hout]
    exact ⟨_, rfl⟩
  by_cases hgain : Fits s.numberOfElements s.gainVector
  swap
  · rw [if_neg fun h => hgain h.2.2.2]
    refine iff_of_true ?_ (.inr (.inl hgain))
    unfold checkSizes
    rw [checkOutputs_of_fits hout, ok_bind]
    split
    · exact ⟨_, rfl⟩
    · rw [if_pos (not_or.mp hgain)]
      exact ⟨_, rfl⟩
  by_cases hfilter : Fits s.numberOfElements s.filterIndices
  · have hconsistent : s.Consistent := ⟨fits_inIndices s, hout, hfilter, hgain⟩
    rw [if_pos hconsistent]
    refine iff_of_true ?_ (.inr (.inr (.inr hfilter)))
    have hone : s.numberOfElements = 1 → s.filterIndices.length = 1 := by
      intro hsingle
      exact hfilter.elim id fun hsame => hsame.trans hsingle
    rw [checkSizes_of_fits hout hgain hone, ok_bind, entries_of_consistent hconsistent]
  · rw [if_neg fun h => hfilter h.2.2.1]
    have hlength := not_or.mp hfilter
    by_cases hsingle : s.numberOfElements = 1
    · refine iff_of_true ?_ (.inr (.inr (.inl hsingle)))
      unfold checkSizes
      rw [checkOutputs_of_fits hout, ok_bind, if_pos ⟨hlength.2, hsingle, hlength.1⟩]
      exact ⟨_, rfl⟩
    · -- the number of filters is not compared with anything
      refine iff_of_false ?_ ?_
      · rintro ⟨what, hresult⟩
        rw [checkSizes_of_fits hout hgain fun h => absurd h hsingle, ok_bind] at hresult
        have habort := entries_error hresult
        cases habort
      · rintro (h | h | h | h)
        · exact h hout
        · exact h hgain
        · exact hsingle h
        · exact hfilter h

/-- **Which specifications are read as documented.** -/
theorem documented_iff_proper {node : PropertyTree} :
    Documented (specified env) rejected (parseRouting env) node ↔ Proper env node := by
  rw [proper_iff]
  unfold Documented specified parseRouting
  cases hread : readSequences env node with
  | error abort =>
    dsimp only
    rw [error_bind]
    unfold rejected
    refine ⟨?_, fun h => ⟨abort, rfl, h.1 abort rfl⟩⟩
    rintro ⟨abort', habort, hwhat⟩
    cases habort
    refine ⟨fun abort' habort => ?_, nofun⟩
    cases habort
    exact hwhat
  | ok s =>
    dsimp only
    rw [ok_bind]
    have hsizes := sizes_iff (s := s)
    refine Iff.trans ?_ (hsizes.trans ⟨fun h => ⟨invalidOnly_ok s, fun s' hs' => ?_⟩,
      fun h => h.2 s rfl⟩)
    · by_cases hconsistent : s.Consistent
      · rw [if_pos hconsistent, if_pos hconsistent]
      · rw [if_neg hconsistent, if_neg hconsistent]
        unfold rejected
        constructor
        · rintro ⟨abort, habort, what, rfl⟩
          exact ⟨what, habort⟩
        · rintro ⟨what, habort⟩
          exact ⟨_, habort, what, rfl⟩
    · cases hs'
      exact h

/-! ### Arrays -/

/-- Two routings with two inputs and outputs, and with no filters. -/
def fewFilters : PropertyTree :=
  .node "" [("input", .node "0,1" []), ("output", .node "0,1" []), ("filter", .node "" []),
    ("gain", .node "1" [])]

def fewFiltersText : List UInt8 :=
  ("[\x7b\"input\":\"0,1\",\"output\":\"0,1\",\"filter\":\"\",\"gain\":\"1\"\x7d]").toUTF8.toList

def fewFiltersPlatform : Platform WholeNumber :=
  WholeNumber.platform [(fewFiltersText, .node "" [("", fewFilters)])]

end FilterRoutingList

end Visr
