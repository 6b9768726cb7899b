import Mathlib.Data.Nat.Basic
import Visr.Librbbl.RoutingList
import Visr.Librbbl.WholeNumber

/-!
# Gain routings

The routing points of a sparse gain matrix, and their JSON representation.  A point has a number by
which it is found; row and column play no role in a search.

## Main results

* `SparseGainRoutingList.documented_iff_matches` — which specifications are read as documented.
* `SparseGainRoutingList.readAsDocumented_iff_forall` — the same for arrays.
* `SparseGainRoutingList.removesPoint_iff` — which points can be removed by their row and column.
-/

namespace Visr

open RoutingList

/-- A routing point of a matrix with its gain. -/
structure SparseGainRouting (F : Type) where
  entryIndex : ℕ
  rowIndex : ℕ
  columnIndex : ℕ
  gain : F
  deriving DecidableEq

/-- `CompareEntries`: only the numbers of the points are compared. -/
def SparseGainRouting.key {F : Type} (r : SparseGainRouting F) : ℕ := r.entryIndex

abbrev SparseGainRoutingList (F : Type) := KeyedSet (SparseGainRouting.key (F := F))

namespace SparseGainRoutingList

variable {F : Type} [FloatArithmetic F] (env : Platform F)

/-- The sequences of a specification. -/
structure Specification (F : Type) where
  entryIndices : List ℕ
  rowIndices : List ℕ
  columnIndices : List ℕ
  gainVector : List F

/-! ### Reading -/

def readSequences (routingNode : PropertyTree) : Except Abort (Specification F) := do
  let entryIdxStr ← routingNode.get some ["index"]
  let rowIdxStr ← routingNode.get some ["row"]
  let columnIdxStr ← routingNode.get some ["column"]
  let gain ← routingNode.get some ["gain"]
  let entryIndices ← IndexSequence.parse env.capacity entryIdxStr
  let rowIndices ← IndexSequence.parse env.capacity rowIdxStr
  let columnIndices ← IndexSequence.parse env.capacity columnIdxStr
  let gainVector ← FloatSequence.parse env.capacity env.float_ gain
  pure ⟨entryIndices, rowIndices, columnIndices, gainVector⟩

def sameNumber {α : Type} : Except Abort α :=
  .error (.exception (.invalidArgument ("SparseGainRoutingList:parseJson: All non-scalar entries " ++
    "must have the same number of indices")))

/-- The number of points, which is that of the numbers in all cases. -/
def checkRows (s : Specification F) : Except Abort ℕ :=
  let numEntries := s.entryIndices.length
  if s.rowIndices.length ≠ numEntries then
    if numEntries = 1 then .ok s.entryIndices.length
    else if s.rowIndices.length ≠ 1 then sameNumber
    else .ok numEntries
  else .ok numEntries

/-- The checks of the sizes, and the number of points. -/
def checkSizes (s : Specification F) : Except Abort ℕ := do
  let numEntries ← checkRows s
  if s.columnIndices.length ≠ numEntries ∧ numEntries = 1 ∧ s.columnIndices.length ≠ 1 then
    sameNumber
  else if s.gainVector.length ≠ 1 ∧ s.gainVector.length ≠ numEntries then
    .error (.exception (.invalidArgument ("SparseGainRoutingList:parseJson: If the \"input\" " ++
      "and/or the \"output\" entry of a routing is non-scalar, the \"gain\" entry must have the " ++
      "same number of indices")))
  else pure numEntries

/-- The routing point with a number. -/
def entry (s : Specification F) (entryIdx : ℕ) : Except Abort (SparseGainRouting F) := do
  let entryId ← element s.entryIndices entryIdx
  let rowIdx ← scalarOrElement s.rowIndices entryIdx
  let columnIdx ← scalarOrElement s.columnIndices entryIdx
  let gain ← scalarOrElement s.gainVector entryIdx
  pure ⟨entryId, rowIdx, columnIdx, gain⟩

/-- The routing points of a specification. -/
def parseRouting (routingNode : PropertyTree) : Except Abort (List (SparseGainRouting F)) := do
  let s ← readSequences env routingNode
  let numEntries ← checkSizes s
  PropertyTree.loadAll (entry s) (List.range numEntries)

def fromJson (initString : List UInt8) : Except Abort (SparseGainRoutingList F) :=
  RoutingList.fromJson env "SparseGainRoutingList::parseJson(): Error while reading JSON data:"
    "SparseGainRoutingList::addRouting(): Error inserting element: " (parseRouting env) initString

def parseJson (routings : SparseGainRoutingList F) (encoded : List UInt8) :
    Except Abort Unit × SparseGainRoutingList F :=
  RoutingList.parseJson (fromJson env encoded) routings

/-! ### What a specification stands for -/

/-- The length of the entries that are not scalars, which is that of the first one of them. -/
def Specification.commonLength (s : Specification F) : ℕ :=
  if s.entryIndices.length ≠ 1 then s.entryIndices.length
  else if s.rowIndices.length ≠ 1 then s.rowIndices.length
  else if s.columnIndices.length ≠ 1 then s.columnIndices.length
  else s.gainVector.length

/-- All entries that are not scalars have the same length. -/
def Specification.Consistent (s : Specification F) : Prop :=
  Fits s.commonLength s.entryIndices ∧ Fits s.commonLength s.rowIndices ∧
    Fits s.commonLength s.columnIndices ∧ Fits s.commonLength s.gainVector

instance (s : Specification F) : Decidable s.Consistent :=
  inferInstanceAs (Decidable (_ ∧ _))

/-- A routing point for each element, with scalars repeated. -/
def Specification.routings (s : Specification F) : List (SparseGainRouting F) :=
  (List.range s.commonLength).map fun i =>
    ⟨repeated 0 s.entryIndices i, repeated 0 s.rowIndices i, repeated 0 s.columnIndices i,
      repeated 0 s.gainVector i⟩

/-- The routing points that a specification stands for. -/
def specified (node : PropertyTree) : Option (List (SparseGainRouting F)) :=
  match readSequences env node with
  | .ok s => if s.Consistent then some s.routings else none
  | .error _ => none

/-- Sequences of different lengths are rejected by an exception. -/
def rejected (node : PropertyTree) (abort : Abort) : Prop :=
  ∀ s, readSequences env node = .ok s → ∃ ex, abort = .exception ex

/-- An array of specifications is read as these say: the new list has all their points, or an
exception is thrown and the old list is still there. -/
def ReadAsDocumented (routings : SparseGainRoutingList F) (encoded : List UInt8) : Prop :=
  match env.readJson encoded with
  | .error _ => ∃ ex, parseJson env routings encoded = (.error (.exception ex), routings)
  | .ok propTree =>
    let nodes := propTree.children.map Prod.snd
    AllSpecified (specified env) (Documented (specified env) (rejected env) (parseRouting env))
        nodes ∧
      match nodes.mapM (specified env) with
      | some l => parseJson env routings encoded = (.ok (), l.flatten.foldl KeyedSet.put .empty)
      | none => ∃ node ∈ nodes, ∃ abort, specified env node = none ∧ rejected env node abort ∧
          parseJson env routings encoded = (.error abort, routings)

/-- The lengths for which the checks do what they should. -/
def Specification.Matches (s : Specification F) : Prop :=
  if s.entryIndices.length = 1 then s.commonLength = 1 ∨ ¬s.Consistent
  else ¬Fits s.entryIndices.length s.rowIndices ∨ ¬Fits s.entryIndices.length s.gainVector ∨
    Fits s.entryIndices.length s.columnIndices

/-- If the fields of a specification are sequences, their lengths are good for the checks. -/
def Matches (node : PropertyTree) : Prop :=
  ∀ s, readSequences env node = .ok s → s.Matches

/-! ### Single specifications -/

omit [FloatArithmetic F] in
theorem commonLength_of_ne {s : Specification F} (h : s.entryIndices.length ≠ 1) :
    s.commonLength = s.entryIndices.length := if_pos h

omit [FloatArithmetic F] in
/-- Only scalars have the common length one. -/
theorem scalars_of_commonLength {s : Specification F} (h : s.commonLength = 1) :
    s.entryIndices.length = 1 ∧ s.rowIndices.length = 1 ∧ s.columnIndices.length = 1 ∧
      s.gainVector.length = 1 := by
  unfold Specification.commonLength at h
  split at h
  next hne => exact absurd h hne
  next hentry =>
    split at h
    next hne => exact absurd h hne
    next hrow =>
      split at h
      next hne => exact absurd h hne
      next hcolumn => exact ⟨not_not.mp hentry, not_not.mp hrow, not_not.mp hcolumn, h⟩

omit [FloatArithmetic F] in
theorem checkRows_of_fits {s : Specification F} (h : Fits s.entryIndices.length s.rowIndices) :
    checkRows s = .ok s.entryIndices.length := by
  unfold checkRows
  dsimp only
  split
  next hne =>
    rw [if_neg (not_not.mpr (h.resolve_right hne)), ite_self]
  · rfl

omit [FloatArithmetic F] in
/-- With a single number, nothing is compared with the number of rows. -/
theorem checkRows_of_scalar {s : Specification F} (h : s.entryIndices.length = 1) :
    checkRows s = .ok 1 := by
  unfold checkRows
  dsimp only
  rw [if_pos h, h, ite_self]

omit [FloatArithmetic F] in
/-- The checks, where a number of columns is compared with one only. -/
theorem checkSizes_of_fits {s : Specification F} {n : ℕ} (hrows : checkRows s = .ok n)
    (hgain : Fits n s.gainVector) (hcolumn : n = 1 → s.columnIndices.length = 1) :
    checkSizes s = .ok n := by
  unfold checkSizes
  rw [hrows, ok_bind, if_neg, if_neg]
  · rfl
  · rintro ⟨hone, hsame⟩
    exact hgain.elim hone hsame
  · rintro ⟨-, hsingle, hone⟩
    exact hone (hcolumn hsingle)

omit [FloatArithmetic F] in
theorem checkSizes_of_not_fits {s : Specification F} {n : ℕ} (hrows : checkRows s = .ok n)
    (h : n = 1 ∧ s.columnIndices.length ≠ 1 ∨ ¬Fits n s.gainVector) :
    ∃ what, checkSizes s = .error (.exception (.invalidArgument what)) := by
  unfold checkSizes
  rw [hrows, ok_bind]
  split
  · exact ⟨_, rfl⟩
  next hcolumn =>
    rcases h with ⟨rfl, hone⟩ | hgain
    · exact absurd ⟨hone, rfl, hone⟩ hcolumn
    · rw [if_pos (not_or.mp hgain)]
      exact ⟨_, rfl⟩

omit [FloatArithmetic F] in
/-- Nothing is thrown while the elements of sequences are accessed. -/
theorem entries_error {s : Specification F} {n : ℕ} {abort : Abort}
    (h : PropertyTree.loadAll (entry s) (List.range n) = .error abort) : abort = .undefined := by
  obtain ⟨i, -, hentry⟩ := PropertyTree.exists_of_loadAll_error h
  rcases exists_of_bind_error hentry with h | ⟨entryId, -, hentry⟩
  · exact element_error h
  · rcases exists_of_bind_error hentry with h | ⟨rowIdx, -, hentry⟩
    · exact scalarOrElement_error h
    · rcases exists_of_bind_error hentry with h | ⟨columnIdx, -, hentry⟩
      · exact scalarOrElement_error h
      · rcases exists_of_bind_error hentry with h | ⟨gain, -, hentry⟩
        · exact scalarOrElement_error h
        · cases hentry

/-- A specification all of whose entries have the right length, with as many numbers. -/
theorem entries_of_consistent {s : Specification F} (h : s.Consistent)
    (hlength : s.commonLength = s.entryIndices.length) :
    PropertyTree.loadAll (entry s) (List.range s.commonLength) = .ok s.routings := by
  have hentry : ∀ i ∈ List.range s.commonLength, entry s i =
      .ok ⟨repeated 0 s.entryIndices i, repeated 0 s.rowIndices i, repeated 0 s.columnIndices i,
        repeated 0 s.gainVector i⟩ := by
    intro i hi
    have hlt := List.mem_range.mp hi
    unfold entry
    rw [element_of_length hlength.symm 0 hlt, ok_bind, scalarOrElement_of_fits h.2.1 0 hlt, ok_bind,
      scalarOrElement_of_fits h.2.2.1 0 hlt, ok_bind, scalarOrElement_of_fits h.2.2.2 0 hlt]
    rfl
  have hall : PropertyTree.loadAll (entry s) ((List.range s.commonLength).map id) =
      .ok s.routings := PropertyTree.loadAll_map hentry
  rwa [List.map_id] at hall

omit [FloatArithmetic F] in
theorem consistent_of_commonLength {s : Specification F} (h : s.commonLength = 1) :
    s.Consistent := by
  obtain ⟨hentry, hrow, hcolumn, hgain⟩ := scalars_of_commonLength h
  exact ⟨.inl hentry, .inl hrow, .inl hcolumn, .inl hgain⟩

omit [FloatArithmetic F] in
/-- With a single number and scalars elsewhere, the rows give the common length. -/
theorem commonLength_of_rows {s : Specification F} (hentry : s.entryIndices.length = 1)
    (hcolumn : s.columnIndices.length = 1) (hgain : s.gainVector.length = 1)
    (hone : s.commonLength ≠ 1) : s.commonLength = s.rowIndices.length := by
  unfold Specification.commonLength at hone ⊢
  rw [if_neg (not_not.mpr hentry)] at hone ⊢
  split
  · rfl
  next hrow =>
    rw [if_neg hrow, if_neg (not_not.mpr hcolumn)] at hone
    exact absurd hgain hone

/-- A single point is read where there are scalars only. -/
theorem sizes_of_scalars {s : Specification F} (h : s.commonLength = 1) :
    (checkSizes s >>= fun n => PropertyTree.loadAll (entry s) (List.range n)) = .ok s.routings := by
  obtain ⟨hentry, -, hcolumn, hgain⟩ := scalars_of_commonLength h
  have hentries := entries_of_consistent (consistent_of_commonLength h) (h.trans hentry.symm)
  rw [h] at hentries
  rw [checkSizes_of_fits (checkRows_of_scalar hentry) (.inl hgain) fun _ => hcolumn, ok_bind,
    hentries]

/-- A single point is read even where the rows are a sequence. -/
theorem sizes_of_rows {s : Specification F} (hentry : s.entryIndices.length = 1)
    (hcolumn : s.columnIndices.length = 1) (hgain : s.gainVector.length = 1)
    (hone : s.commonLength ≠ 1) :
    (checkSizes s >>= fun n => PropertyTree.loadAll (entry s) (List.range n)) ≠
      .ok s.routings := by
  intro h
  rw [checkSizes_of_fits (checkRows_of_scalar hentry) (.inl hgain) fun _ => hcolumn, ok_bind] at h
  have hcount := (PropertyTree.loadAll_ok h).length_eq
  unfold Specification.routings at hcount
  rw [List.length_map, List.length_range, List.length_range] at hcount
  exact hone hcount.symm

omit [FloatArithmetic F] in
theorem checkSizes_of_not_fits_rows {s : Specification F} (hentry : s.entryIndices.length ≠ 1)
    (hrow : ¬Fits s.entryIndices.length s.rowIndices) :
    ∃ what, checkSizes s = .error (.exception (.invalidArgument what)) := by
  have hne := not_or.mp hrow
  unfold checkSizes checkRows
  dsimp only
  rw [if_pos hne.2, if_neg hentry, if_pos hne.1]
  exact ⟨_, rfl⟩

/-- **The sequences of a specification** are dealt with as documented if their lengths are good for
the checks. -/
theorem sizes_iff {s : Specification F} :
    (if s.Consistent then
      (checkSizes s >>= fun n => PropertyTree.loadAll (entry s) (List.range n)) = .ok s.routings
      else ∃ ex, (checkSizes s >>= fun n => PropertyTree.loadAll (entry s) (List.range n)) =
        .error (.exception ex)) ↔ s.Matches := by
  have hthrown : (∃ what, checkSizes s = .error (.exception (.invalidArgument what))) →
      ∃ ex, (checkSizes s >>= fun n => PropertyTree.loadAll (entry s) (List.range n)) =
        .error (.exception ex) := by
    rintro ⟨what, hwhat⟩
    exact ⟨.invalidArgument what, by rw [hwhat, error_bind]⟩
  unfold Specification.Matches
  by_cases hscalar : s.entryIndices.length = 1
  · rw [if_pos hscalar]
    by_cases hone : s.commonLength = 1
    · rw [if_pos (consistent_of_commonLength hone)]
      exact iff_of_true (sizes_of_scalars hone) (.inl hone)
    · by_cases hthrows : s.columnIndices.length ≠ 1 ∨ ¬Fits 1 s.gainVector
      · have hresult := hthrown (checkSizes_of_not_fits (checkRows_of_scalar hscalar)
          (hthrows.imp (fun h => ⟨rfl, h⟩) id))
        by_cases hconsistent : s.Consistent
        · -- the sequences have the same length, but it is compared with one
          rw [if_pos hconsistent]
          refine iff_of_false (fun h => ?_) (not_or.mpr ⟨hone, not_not.mpr hconsistent⟩)
          obtain ⟨ex, hex⟩ := hresult
          cases h.symm.trans hex
        · rw [if_neg hconsistent]
          exact iff_of_true hresult (.inr hconsistent)
      · -- the rows are the only sequence, and one point is read
        rw [not_or, not_not, not_not] at hthrows
        have hgain : s.gainVector.length = 1 := hthrows.2.elim id id
        have hlength := commonLength_of_rows hscalar hthrows.1 hgain hone
        have hconsistent : s.Consistent :=
          ⟨.inl hscalar, .inr hlength.symm, .inl hthrows.1, .inl hgain⟩
        rw [if_pos hconsistent]
        exact iff_of_false (sizes_of_rows hscalar hthrows.1 hgain hone)
          (not_or.mpr ⟨hone, not_not.mpr hconsistent⟩)
  · rw [if_neg hscalar]
    have hlength := commonLength_of_ne hscalar
    by_cases hrow : Fits s.entryIndices.length s.rowIndices
    swap
    · rw [if_neg fun h => hrow (hlength ▸ h.2.1)]
      exact iff_of_true (hthrown (checkSizes_of_not_fits_rows hscalar hrow)) (.inl hrow)
    have hrows := checkRows_of_fits hrow
    by_cases hgain : Fits s.entryIndices.length s.gainVector
    swap
    · rw [if_neg fun h => hgain (hlength ▸ h.2.2.2)]
      exact iff_of_true (hthrown (checkSizes_of_not_fits hrows (.inr hgain))) (.inr (.inl hgain))
    have hsizes := checkSizes_of_fits hrows hgain fun h => absurd h hscalar
    by_cases hcolumn : Fits s.entryIndices.length s.columnIndices
    · have hconsistent : s.Consistent := by
        unfold Specification.Consistent
        rw [hlength]
        exact ⟨.inr rfl, hrow, hcolumn, hgain⟩
      rw [if_pos hconsistent]
      refine iff_of_true ?_ (.inr (.inr hcolumn))
      rw [hsizes, ok_bind, ← hlength, entries_of_consistent hconsistent hlength]
    · -- the number of columns is not compared with anything
      rw [if_neg fun h => hcolumn (hlength ▸ h.2.2.1)]
      refine iff_of_false ?_ ?_
      · rintro ⟨ex, hresult⟩
        rw [hsizes, ok_bind] at hresult
        cases entries_error hresult
      · rintro (h | h | h)
        · exact h hrow
        · exact h hgain
        · exact hcolumn h

/-- **Which specifications are read as documented.** -/
theorem documented_iff_matches {node : PropertyTree} :
    Documented (specified env) (rejected env) (parseRouting env) node ↔ Matches env node := by
  unfold Documented specified rejected parseRouting Matches
  cases hread : readSequences env node with
  | error abort =>
    dsimp only
    rw [error_bind]
    exact iff_of_true ⟨abort, rfl, nofun⟩ nofun
  | ok s =>
    dsimp only
    rw [ok_bind]
    have hmatches : s.Matches ↔ ∀ s', (.ok s : Except Abort (Specification F)) = .ok s' →
        s'.Matches := by
      refine ⟨fun h s' hs' => ?_, fun h => h s rfl⟩
      cases hs'
      exact h
    rw [← hmatches, ← sizes_iff]
    by_cases hconsistent : s.Consistent
    · rw [if_pos hconsistent, if_pos hconsistent]
    · rw [if_neg hconsistent, if_neg hconsistent]
      constructor
      · rintro ⟨abort, habort, hex⟩
        obtain ⟨ex, rfl⟩ := hex s rfl
        exact ⟨ex, habort⟩
      · rintro ⟨ex, habort⟩
        exact ⟨_, habort, fun _ _ => ⟨ex, rfl⟩⟩

/-- A point in two rows. -/
def severalRows : PropertyTree :=
  .node "" [("index", .node "0" []), ("row", .node "0,1" []), ("column", .node "0" []),
    ("gain", .node "1" [])]

def severalRowsText : List UInt8 :=
  ("[\x7b\"index\":\"0\",\"row\":\"0,1\",\"column\":\"0\",\"gain\":\"1\"\x7d]").toUTF8.toList

def severalRowsPlatform : Platform WholeNumber :=
  WholeNumber.platform [(severalRowsText, .node "" [("", severalRows)])]

/-- `cInvalidIndex`. -/
def cInvalidIndex : ℕ := 2 ^ 32 - 1

/-- The point that is looked for has the first argument as its number. -/
def removeRouting (routings : SparseGainRoutingList F) (inputIdx outputIdx : ℕ) :
    Bool × SparseGainRoutingList F :=
  RoutingList.removeRouting routings ⟨inputIdx, outputIdx, cInvalidIndex, 1⟩

/-- The routing point with a row and a column is removed, and no other one. -/
structure RemovesPoint (routings : SparseGainRoutingList F) (rowIdx columnIdx : ℕ)
    (result : Bool × SparseGainRoutingList F) : Prop where
  found : result.1 = true ↔ ∃ r ∈ routings, r.rowIndex = rowIdx ∧ r.columnIndex = columnIdx
  removed : ∀ r ∈ result.2, ¬(r.rowIndex = rowIdx ∧ r.columnIndex = columnIdx)
  kept : ∀ r ∈ routings, ¬(r.rowIndex = rowIdx ∧ r.columnIndex = columnIdx) → r ∈ result.2
  unchanged : ∀ r ∈ result.2, r ∈ routings

/-- **Which points are removed by their row and column**: the point has its row as its number, and
no other point has this number. -/
theorem removesPoint_iff (routings : SparseGainRoutingList F) (rowIdx columnIdx : ℕ) :
    RemovesPoint routings rowIdx columnIdx (removeRouting routings rowIdx columnIdx) ↔
      ∀ r ∈ routings, (r.rowIndex = rowIdx ∧ r.columnIndex = columnIdx) ↔ r.entryIndex = rowIdx := by
  -- the row is taken for the number of a point, and the column is not read
  have hresult : removeRouting routings rowIdx columnIdx =
      ((routings.find? rowIdx).isSome, routings.erase rowIdx) := removeRouting_eq _ _
  have hmem : ∀ r, r ∈ routings.erase rowIdx ↔ r ∈ routings ∧ r.entryIndex ≠ rowIdx :=
    fun r => KeyedSet.mem_erase
  have hfound : (routings.find? rowIdx).isSome = true ↔ ∃ r ∈ routings, r.entryIndex = rowIdx := by
    simp only [Option.isSome_iff_exists, KeyedSet.find?_eq_some_iff]
    exact Iff.rfl
  rw [hresult]
  constructor
  · intro h r hr
    constructor
    · intro hpoint
      by_contra hne
      exact h.removed r ((hmem r).mpr ⟨hr, hne⟩) hpoint
    · intro hentry
      by_contra hpoint
      exact ((hmem r).mp (h.kept r hr hpoint)).2 hentry
  · intro h
    refine ⟨?_, fun r hr hpoint => ?_, fun r hr hpoint => ?_, fun r hr => ((hmem r).mp hr).1⟩
    · rw [hfound]
      constructor
      · rintro ⟨r, hr, hentry⟩
        exact ⟨r, hr, (h r hr).mpr hentry⟩
      · rintro ⟨r, hr, hpoint⟩
        exact ⟨r, hr, (h r hr).mp hpoint⟩
    · obtain ⟨hr, hne⟩ := (hmem r).mp hr
      exact hne ((h r hr).mp hpoint)
    · exact (hmem r).mpr ⟨hr, fun hentry => hpoint ((h r hr).mpr hentry)⟩

/-- A point whose number is not its row is not found. -/
theorem not_removesPoint_second :
    ¬RemovesPoint (KeyedSet.empty.put ⟨1, 0, 0, (⟨1⟩ : WholeNumber)⟩) 0 0
      (removeRouting (KeyedSet.empty.put ⟨1, 0, 0, (⟨1⟩ : WholeNumber)⟩) 0 0) := by
  intro h
  have hfound := h.found.mpr ⟨⟨1, 0, 0, ⟨1⟩⟩, KeyedSet.mem_put.mpr (.inl rfl), rfl, rfl⟩
  exact absurd hfound (by decide)

end SparseGainRoutingList

end Visr
