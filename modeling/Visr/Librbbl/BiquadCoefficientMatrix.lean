import Visr.Librbbl.FilterCoefficients
import Visr.Librbbl.WholeNumber

/-!
# Matrices of biquad filters

The filters of several channels, with the same number of sections each, and how they are read from
JSON.

## Main results

* `BiquadCoefficientMatrix.loadJson_of_rectangular` — matrices are read.
* `BiquadCoefficientMatrix.loadsExactly_iff` — **the documents that are read as they are written**.
-/

namespace Visr

open PropertyTree

variable {F : Type}

/-- The rows are the filters of the channels, all of which have the same number of sections. -/
structure BiquadCoefficientMatrix (F : Type) where
  mRows : List (List (BiquadCoefficient F))
  sameSize : ∀ row ∈ mRows, row.length = (mRows.headD []).length

namespace BiquadCoefficientMatrix

variable [FloatArithmetic F]

def numberOfFilters (m : BiquadCoefficientMatrix F) : ℕ := m.mRows.length

def numberOfSections (m : BiquadCoefficientMatrix F) : ℕ := (m.mRows.headD []).length

/-- All elements are filters that change nothing. -/
def resize (numberOfFilters numberOfBiquads : ℕ) : BiquadCoefficientMatrix F where
  mRows := List.replicate numberOfFilters (List.replicate numberOfBiquads .default)
  sameSize row hrow := by
    cases numberOfFilters with
    | zero => cases hrow
    | succ n =>
      rw [(List.mem_replicate.mp hrow).2]
      rfl

omit [FloatArithmetic F] in
theorem length_headD_set {rows : List (List (BiquadCoefficient F))}
    {row : List (BiquadCoefficient F)}
    (h : row.length = (rows.headD []).length) (filterIdx : ℕ) :
    ((rows.set filterIdx row).headD []).length = (rows.headD []).length := by
  cases rows with
  | nil => rfl
  | cons first rows =>
    cases filterIdx with
    | zero => exact h
    | succ filterIdx => rfl

omit [FloatArithmetic F] in
/-- The rows of a matrix still have the same size if one of them is replaced by one of that size. -/
theorem sameSize_set (m : BiquadCoefficientMatrix F) {row : List (BiquadCoefficient F)}
    (h : row.length = (m.mRows.headD []).length) (filterIdx : ℕ) :
    ∀ r ∈ m.mRows.set filterIdx row,
      r.length = ((m.mRows.set filterIdx row).headD []).length := by
  intro r hr
  rw [length_headD_set h]
  rcases List.mem_or_eq_of_mem_set hr with hr | rfl
  · exact m.sameSize r hr
  · exact h

/-- Shorter filters are filled up with sections that change nothing.  The address of the first
section is computed also for a filter without sections. -/
def setFilter (m : BiquadCoefficientMatrix F) (filterIdx : ℕ)
    (newFilter : List (BiquadCoefficient F)) : Except Abort (BiquadCoefficientMatrix F) :=
  if filterIdx ≥ m.numberOfFilters then
    .error (.exception (.outOfRange ("BiquadCoefficientMatrix::setFilter(): " ++
      "Filter index exceeds maximum admissible value.")))
  else if hsize : newFilter.length > m.numberOfSections then
    .error (.exception (.invalidArgument ("BiquadCoefficientMatrix::setFilter(): " ++
      "The number index exceeds maximum admissible value.")))
  else if newFilter = [] then .error .undefined
  else .ok
    { mRows := m.mRows.set filterIdx
        (newFilter ++ List.replicate (m.numberOfSections - newFilter.length) .default)
      sameSize := by
        have hlength : (newFilter ++ List.replicate (m.numberOfSections - newFilter.length)
            (BiquadCoefficient.default : BiquadCoefficient F)).length =
              (m.mRows.headD []).length := by
          rw [List.length_append, List.length_replicate]
          unfold numberOfSections at hsize ⊢
          omega
        intro row hrow
        rw [length_headD_set hlength]
        rcases List.mem_or_eq_of_mem_set hrow with hrow | rfl
        · exact m.sameSize row hrow
        · exact hlength }

/-- The constructor from all rows. -/
def ofInitList (initList : List (List (BiquadCoefficient F))) :
    Except Exception (BiquadCoefficientMatrix F) :=
  if h : ∀ row ∈ initList, row.length = (initList.headD []).length then .ok ⟨initList, h⟩
  else .error (.invalidArgument "Matrix row sizes are inconsistent.")

omit [FloatArithmetic F] in
/-! ### Reading -/

variable (env : Platform F)

/-- Reads the rows one after the other.  The first one determines the size of the matrix.  For a
row of a different size, an exception is created, but not thrown. -/
def loadRows (numChannels : ℕ) : List PropertyTree → ℕ → BiquadCoefficientMatrix F →
    Except Abort Unit × BiquadCoefficientMatrix F
  | [], _, m => (.ok (), m)
  | channelTree :: channelTrees, rowIdx, m =>
    match BiquadCoefficientList.loadJson env channelTree with
    | .error abort => (.error abort, m)
    | .ok rowFilters =>
      let m := if rowIdx = 0 then resize numChannels rowFilters.length else m
      match m.setFilter rowIdx rowFilters with
      | .error abort => (.error abort, m)
      | .ok m => loadRows numChannels channelTrees (rowIdx + 1) m

/-- The result, and the matrix after it. -/
def loadJson (m : BiquadCoefficientMatrix F) (tree : PropertyTree) :
    Except Abort Unit × BiquadCoefficientMatrix F :=
  let channelNodes := tree.equalRange ""
  let numChannels := channelNodes.length
  let m := if numChannels = 0 then resize 0 0 else m
  loadRows env numChannels channelNodes 0 m

/-- The same for a text. -/
def loadJsonText (m : BiquadCoefficientMatrix F) (stream : List UInt8) :
    Except Abort Unit × BiquadCoefficientMatrix F :=
  match env.readJson stream with
  | .error ex => (.error (.exception (.invalidArgument
      ("Error while parsing a JSON BiquadCoefficientMatrix representation: " ++ ex.what))), m)
  | .ok tree => m.loadJson env tree

/-- The filters of a document. -/
def filters (tree : PropertyTree) : Except Abort (List (List (BiquadCoefficient F))) :=
  loadAll (BiquadCoefficientList.loadJson env) (tree.equalRange "")

/-- A document whose rows are filters with the same number of sections, one at least. -/
def Rectangular (tree : PropertyTree) : Prop :=
  ∃ rows, filters env tree = .ok rows ∧ ∃ n, 0 < n ∧ ∀ row ∈ rows, row.length = n

section Rows

variable {env} {numChannels : ℕ}

theorem setFilter_of_length_eq (m : BiquadCoefficientMatrix F) {filterIdx : ℕ}
    (hidx : filterIdx < m.numberOfFilters) {newFilter : List (BiquadCoefficient F)}
    (hlength : newFilter.length = m.numberOfSections) (hne : newFilter ≠ []) :
    ∃ m', m.setFilter filterIdx newFilter = .ok m' ∧
      m'.mRows = m.mRows.set filterIdx newFilter := by
  unfold setFilter
  rw [if_neg (by omega), dif_neg (by omega), if_neg hne]
  refine ⟨_, rfl, ?_⟩
  dsimp only
  rw [hlength, Nat.sub_self, List.replicate_zero, List.append_nil]

theorem setFilter_eq_ok {m m' : BiquadCoefficientMatrix F} {filterIdx : ℕ}
    {newFilter : List (BiquadCoefficient F)} (h : m.setFilter filterIdx newFilter = .ok m') :
    m'.numberOfFilters = m.numberOfFilters ∧ newFilter ≠ [] := by
  unfold setFilter at h
  split at h
  · cases h
  · split at h
    · cases h
    · split at h
      · cases h
      next hne =>
        cases h
        exact ⟨List.length_set, hne⟩

/-- **Rows of one size** replace those of the matrix one after the other. -/
theorem loadRows_of_sameSize (numChannels : ℕ) {channelTrees : List PropertyTree}
    {rows : List (List (BiquadCoefficient F))}
    (hrows : List.Forall₂ (fun t row => BiquadCoefficientList.loadJson env t = .ok row)
      channelTrees rows) {rowIdx : ℕ} (hidx : rowIdx ≠ 0) {m : BiquadCoefficientMatrix F}
    (hfilters : rowIdx + rows.length = m.numberOfFilters) (hsections : 0 < m.numberOfSections)
    (hsize : ∀ row ∈ rows, row.length = m.numberOfSections) :
    ∃ m', loadRows env numChannels channelTrees rowIdx m = (.ok (), m') ∧
      m'.mRows = m.mRows.take rowIdx ++ rows := by
  induction hrows generalizing rowIdx m with
  | nil =>
    refine ⟨m, rfl, ?_⟩
    rw [List.append_nil, List.take_of_length_le]
    exact Nat.le_of_eq hfilters.symm
  | cons hrow hrows ih =>
    rename_i t row ts rows
    obtain ⟨hlength, hsize⟩ := List.forall_mem_cons.mp hsize
    rw [List.length_cons] at hfilters
    have hne : row ≠ [] := by
      rintro rfl
      rw [← hlength] at hsections
      exact Nat.lt_irrefl 0 hsections
    have hlt : rowIdx < m.numberOfFilters := by omega
    obtain ⟨m', hset, hmRows⟩ := setFilter_of_length_eq m hlt hlength hne
    have hnumber := (setFilter_eq_ok hset).1
    -- the number of sections is that of the first row, which has been set to the same size
    have hnext : m'.numberOfSections = m.numberOfSections := by
      unfold numberOfSections
      rw [hmRows, length_headD_set hlength]
    obtain ⟨m'', hload, hresult⟩ := ih (Nat.succ_ne_zero rowIdx) (m := m') (by omega)
      (by rw [hnext]; exact hsections) (by rw [hnext]; exact hsize)
    refine ⟨m'', ?_, ?_⟩
    · rw [loadRows, hrow]
      dsimp only
      rw [if_neg hidx, hset]
      exact hload
    · unfold numberOfFilters at hlt
      have htake : (m.mRows.take rowIdx).length = rowIdx := List.length_take_of_le (by omega)
      rw [hresult, hmRows, List.set_eq_take_append_cons_drop, if_pos hlt, List.take_append, htake,
        List.take_of_length_le (by omega), Nat.succ_sub (Nat.le_refl rowIdx), Nat.sub_self]
      simp

/-- **Documents that stand for a matrix** are read. -/
theorem loadJson_of_rectangular (m : BiquadCoefficientMatrix F) {tree : PropertyTree}
    {rows : List (List (BiquadCoefficient F))} (hrows : filters env tree = .ok rows) {n : ℕ}
    (hn : 0 < n) (hsize : ∀ row ∈ rows, row.length = n) :
    ∃ m', m.loadJson env tree = (.ok (), m') ∧ m'.mRows = rows := by
  unfold filters at hrows
  unfold loadJson
  generalize tree.equalRange "" = trees at hrows ⊢
  cases loadAll_ok hrows with
  | nil => exact ⟨resize 0 0, rfl, rfl⟩
  | cons hrow hrest =>
    rename_i t row ts rows
    obtain ⟨hfirst, hsize⟩ := List.forall_mem_cons.mp hsize
    dsimp only
    have hne : ¬(t :: ts).length = 0 := Nat.succ_ne_zero ts.length
    rw [if_neg hne, loadRows, hrow]
    dsimp only
    rw [if_pos rfl]
    -- the first row determines the size
    have hsections : (resize (ts.length + 1) row.length :
        BiquadCoefficientMatrix F).numberOfSections = row.length := List.length_replicate
    have hfilters : (resize (ts.length + 1) row.length :
        BiquadCoefficientMatrix F).numberOfFilters = ts.length + 1 := List.length_replicate
    have hlt : 0 < (resize (ts.length + 1) row.length :
        BiquadCoefficientMatrix F).numberOfFilters := by omega
    obtain ⟨m', hset, hmRows⟩ := setFilter_of_length_eq (resize (ts.length + 1) row.length) hlt
      hsections.symm (List.ne_nil_of_length_pos (by omega))
    have hnumber := (setFilter_eq_ok hset).1
    have hsections' : m'.numberOfSections = n := by
      unfold numberOfSections
      rw [hmRows]
      exact hfirst
    obtain ⟨m'', hload, hresult⟩ := loadRows_of_sameSize (ts.length + 1) hrest
      Nat.one_ne_zero (m := m') (by rw [hnumber, hfilters, ← hrest.length_eq, Nat.add_comm])
      (by omega) (fun row hrow => (hsize row hrow).trans hsections'.symm)
    refine ⟨m'', ?_, ?_⟩
    · change (match setFilter (resize (ts.length + 1) row.length) 0 row with
        | .error abort => _
        | .ok m => _) = _
      rw [hset]
      exact hload
    · rw [hresult, hmRows]
      rfl

/-! ### Failures -/

theorem get_ne_invalidArgument {α : Type} {read : String → Option α} {path : List String}
    {tree : PropertyTree} {what : String} :
    tree.get read path ≠ .error (.exception (.invalidArgument what)) := by
  unfold PropertyTree.get getChild convert
  cases tree.getChild? path with
  | none => exact nofun
  | some child =>
    dsimp only
    rw [ok_bind]
    cases read child.data with
    | none => exact nofun
    | some value => exact nofun

/-- The exceptions of the property tree are of another class. -/
theorem loadJson_ne_invalidArgument {tree : PropertyTree} {what : String} :
    BiquadCoefficient.loadJson env tree ≠ .error (.exception (.invalidArgument what)) := by
  intro h
  unfold BiquadCoefficient.loadJson at h
  dsimp only at h
  rcases exists_of_bind_error h with h | ⟨_, -, h⟩
  · exact get_ne_invalidArgument h
  rcases exists_of_bind_error h with h | ⟨_, -, h⟩
  · exact get_ne_invalidArgument h
  rcases exists_of_bind_error h with h | ⟨_, -, h⟩
  · exact get_ne_invalidArgument h
  rcases exists_of_bind_error h with h | ⟨_, -, h⟩
  · exact get_ne_invalidArgument h
  rcases exists_of_bind_error h with h | ⟨_, -, h⟩
  · exact get_ne_invalidArgument h
  · cases h

theorem loadJsonList_ne_invalidArgument {tree : PropertyTree} {what : String} :
    BiquadCoefficientList.loadJson env tree ≠ .error (.exception (.invalidArgument what)) := by
  intro h
  obtain ⟨x, -, hx⟩ := exists_of_loadAll_error h
  exact loadJson_ne_invalidArgument hx

/-- **A row that is too long is reported** after the matrix has been resized. -/
theorem numberOfFilters_of_invalidArgument {channelTrees : List PropertyTree} {rowIdx : ℕ}
    {m : BiquadCoefficientMatrix F} (hm : rowIdx = 0 ∨ m.numberOfFilters = numChannels)
    {what : String}
    (h : (loadRows env numChannels channelTrees rowIdx m).1 =
      .error (.exception (.invalidArgument what))) :
    (loadRows env numChannels channelTrees rowIdx m).2.numberOfFilters = numChannels := by
  induction channelTrees generalizing rowIdx m with
  | nil => cases h
  | cons t ts ih =>
    rw [loadRows] at h ⊢
    cases hrow : BiquadCoefficientList.loadJson env t with
    | error abort =>
      rw [hrow] at h
      cases h
      exact absurd hrow loadJsonList_ne_invalidArgument
    | ok row =>
      rw [hrow] at h
      dsimp only at h ⊢
      -- the first row resizes the matrix, before it is set
      have hresized : (if rowIdx = 0 then resize numChannels row.length else m).numberOfFilters =
          numChannels := by
        by_cases hzero : rowIdx = 0
        · rw [if_pos hzero]
          exact List.length_replicate
        · rw [if_neg hzero]
          exact hm.resolve_left hzero
      generalize (if rowIdx = 0 then resize numChannels row.length else m) = m₁ at h hresized ⊢
      cases hset : m₁.setFilter rowIdx row with
      | error abort => exact hresized
      | ok m₂ =>
        rw [hset] at h
        exact ih (Or.inr ((setFilter_eq_ok hset).1.trans hresized)) h

/-- If nothing fails, all rows are filters with at least one section. -/
theorem rows_of_ok {channelTrees : List PropertyTree} {rowIdx : ℕ} {m : BiquadCoefficientMatrix F}
    (h : (loadRows env numChannels channelTrees rowIdx m).1 = .ok ()) :
    ∃ rows, loadAll (BiquadCoefficientList.loadJson env) channelTrees = .ok rows ∧
      ∀ row ∈ rows, row ≠ [] := by
  induction channelTrees generalizing rowIdx m with
  | nil => exact ⟨[], rfl, List.forall_mem_nil _⟩
  | cons t ts ih =>
    rw [loadRows] at h
    cases hrow : BiquadCoefficientList.loadJson env t with
    | error abort =>
      rw [hrow] at h
      cases h
    | ok row =>
      rw [hrow] at h
      dsimp only at h
      generalize (if rowIdx = 0 then resize numChannels row.length else m) = m₁ at h
      cases hset : m₁.setFilter rowIdx row with
      | error abort =>
        rw [hset] at h
        cases h
      | ok m₂ =>
        rw [hset] at h
        obtain ⟨rows, hrows, hne⟩ := ih h
        refine ⟨row :: rows, ?_, List.forall_mem_cons.mpr ⟨(setFilter_eq_ok hset).2, hne⟩⟩
        rw [loadAll, hrow, ok_bind, hrows]
        rfl

end Rows

/-! ### Documents -/

/-- An exception is thrown and the matrix is left as it was, or the matrix consists of the filters
of the document, all of which have the same number of sections. -/
def LoadsExactly (m : BiquadCoefficientMatrix F) (tree : PropertyTree)
    (r : Except Abort Unit × BiquadCoefficientMatrix F) : Prop :=
  (∃ what, r.1 = .error (.exception (.invalidArgument what)) ∧ r.2 = m) ∨
    (r.1 = .ok () ∧ ∃ rows, filters env tree = .ok rows ∧ r.2.mRows = rows ∧
      ∃ n, ∀ row ∈ rows, row.length = n)

variable {env}

/-- **The documents that are read as they are written**, whatever the matrix was before: those
whose rows have the same number of sections. -/
theorem loadsExactly_tree_iff (tree : PropertyTree) :
    (∀ m : BiquadCoefficientMatrix F, LoadsExactly env m tree (m.loadJson env tree)) ↔
      Rectangular env tree := by
  constructor
  · intro h
    -- a matrix with another number of rows cannot be left as it was
    let m : BiquadCoefficientMatrix F := resize ((tree.equalRange "").length + 1) 0
    rcases h m with ⟨what, herror, hsame⟩ | ⟨hok, rows, hrows, -, n, hsize⟩
    · have hnumber := numberOfFilters_of_invalidArgument (Or.inl rfl) herror
      have hm : m.numberOfFilters = (tree.equalRange "").length + 1 := List.length_replicate
      rw [← hsame] at hm
      unfold loadJson at hm
      dsimp only at hm
      omega
    · obtain ⟨rows', hrows', hne⟩ := rows_of_ok hok
      obtain rfl : rows = rows' := Except.ok.inj (hrows.symm.trans hrows')
      refine ⟨rows, hrows, ?_⟩
      cases rows with
      | nil => exact ⟨1, Nat.one_pos, List.forall_mem_nil _⟩
      | cons row rows =>
        refine ⟨n, ?_, hsize⟩
        rw [← hsize row List.mem_cons_self]
        exact List.length_pos_of_ne_nil (hne row List.mem_cons_self)
  · rintro ⟨rows, hrows, n, hn, hsize⟩ m
    obtain ⟨m', hload, hmRows⟩ := loadJson_of_rectangular m hrows hn hsize
    rw [hload]
    exact Or.inr ⟨rfl, rows, hrows, hmRows, n, hsize⟩

/-- The same for a text, which must be JSON in order to be read. -/
def LoadsTextExactly (env : Platform F) (m : BiquadCoefficientMatrix F) (stream : List UInt8) :
    Prop :=
  match env.readJson stream with
  | .error _ => ∃ what, m.loadJsonText env stream = (.error (.exception (.invalidArgument what)), m)
  | .ok tree => LoadsExactly env m tree (m.loadJsonText env stream)

/-- **The documents that are read as they are written**, or rejected without a change of the
matrix. -/
theorem loadsExactly_iff (env : Platform F) :
    (∀ tree, (∀ m : BiquadCoefficientMatrix F, LoadsExactly env m tree (m.loadJson env tree)) ↔
      Rectangular env tree) ∧
    ∀ stream, (∀ m : BiquadCoefficientMatrix F, LoadsTextExactly env m stream) ↔
      ∀ tree, env.readJson stream = .ok tree → Rectangular env tree := by
  refine ⟨loadsExactly_tree_iff, fun stream => ?_⟩
  unfold LoadsTextExactly loadJsonText
  cases hjson : env.readJson stream with
  | error ex => exact iff_of_true (fun m => ⟨_, rfl⟩) nofun
  | ok tree =>
    dsimp only
    rw [loadsExactly_tree_iff]
    constructor
    · intro h tree' htree
      cases htree
      exact h
    · intro h
      exact h tree rfl

/-- The tree of a filter. -/
def unitTree : PropertyTree :=
  (BiquadCoefficient.default : BiquadCoefficient WholeNumber).writeJson (WholeNumber.platform []) new

/-- Two sections in the first row, and one in the second. -/
def differingRowsTree : PropertyTree :=
  .node "" [("", .node "" [("", unitTree), ("", unitTree)]), ("", .node "" [("", unitTree)])]

theorem loadJson_differing_rows :
    ¬LoadsExactly (WholeNumber.platform []) (resize 0 0) differingRowsTree
      ((resize 0 0).loadJson (WholeNumber.platform []) differingRowsTree) := by
  have hrows : filters (WholeNumber.platform []) differingRowsTree =
      .ok [[.default, .default], [.default]] := by decide +kernel
  have hok : ((resize 0 0).loadJson (WholeNumber.platform []) differingRowsTree).1 = .ok () := by
    decide +kernel
  rintro (⟨what, herror, -⟩ | ⟨-, rows, hfilters, -, n, hsize⟩)
  · rw [hok] at herror
    cases herror
  · rw [hrows] at hfilters
    cases hfilters
    have hfirst := hsize [.default, .default] (by simp)
    have hsecond := hsize [.default] (by simp)
    simp at hfirst hsecond
    omega

end BiquadCoefficientMatrix

end Visr
