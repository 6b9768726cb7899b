import Mathlib.Algebra.Order.Ring.Nat
import Mathlib.Data.Nat.Cast.Defs
import Visr.Libefl.VectorFunctions

/-!
# Aligned vectors and matrices

Vectors and matrices keep their elements in aligned memory, where the rows of a matrix start at
aligned positions.

## Main results

* `Efl.BasicVector.copy_spec`, `Efl.BasicMatrix.copy_spec` — **copies are exact**, whatever the
  alignments, and only different sizes are refused.
-/

namespace Visr

namespace Efl

variable {α : Type}

/-- Memory whose address is a multiple of an alignment, which is a power of two. -/
structure AlignedArray (α : Type) where
  alignmentElements : ℕ
  size : ℕ
  address : ℕ
  data : ℕ → α
  alignment_valid : ∃ k < 64, alignmentElements = 2 ^ k
  address_aligned : alignmentElements ∣ address

namespace AlignedArray

/-- No particular alignment. -/
theorem one_valid : ∃ k < 64, 1 = 2 ^ k := ⟨0, by decide, rfl⟩

theorem one_dvd_zero : 1 ∣ 0 := Nat.dvd_zero 1

def pointer (a : AlignedArray α) : Pointer α := ⟨a.address, a.data⟩

/-- The default alignment of vectors is a valid one. -/
theorem cVectorAlignmentSamples_valid : ∃ k < 64, cVectorAlignmentSamples = 2 ^ k :=
  ⟨4, by decide, rfl⟩

theorem cVectorAlignmentSamples_dvd_zero : cVectorAlignmentSamples ∣ 0 := Nat.dvd_zero _

/-- Zeros with the default alignment. -/
def zeros (α : Type) [Zero α] (length : ℕ) : AlignedArray α :=
  ⟨cVectorAlignmentSamples, length, 0, fun _ => 0, cVectorAlignmentSamples_valid,
    cVectorAlignmentSamples_dvd_zero⟩

/-- New memory with the same alignment, at some aligned address; its elements are arbitrary. -/
def resize (a : AlignedArray α) (newLength : ℕ) : AlignedArray α :=
  { a with size := newLength, address := 0, address_aligned := Nat.dvd_zero _ }

theorem alignmentIsPowerOfTwo_pow : ∀ k < 64, alignmentIsPowerOfTwo (2 ^ k) = true := by decide

/-- The smaller one of two alignments divides both. -/
theorem min_dvd (a b : AlignedArray α) :
    min a.alignmentElements b.alignmentElements ∣ a.alignmentElements ∧
      min a.alignmentElements b.alignmentElements ∣ b.alignmentElements := by
  obtain ⟨i, -, hi⟩ := a.alignment_valid
  obtain ⟨k, -, hk⟩ := b.alignment_valid
  rw [hi, hk]
  rcases Nat.le_total i k with hle | hle
  · rw [Nat.min_eq_left (Nat.pow_le_pow_right (by decide) hle)]
    exact ⟨Nat.dvd_refl _, Nat.pow_dvd_pow 2 hle⟩
  · rw [Nat.min_eq_right (Nat.pow_le_pow_right (by decide) hle)]
    exact ⟨Nat.pow_dvd_pow 2 hle, Nat.dvd_refl _⟩

/-- Addresses that are aligned for one of two arrays pass the check for the smaller alignment. -/
theorem checkAlignment_min (a b : AlignedArray α) {address : ℕ}
    (h : a.alignmentElements ∣ address ∨ b.alignmentElements ∣ address) :
    checkAlignment address (min a.alignmentElements b.alignmentElements) = true := by
  obtain ⟨ha, hb⟩ := a.min_dvd b
  refine checkAlignment_of_dvd (Or.inr ?_) fun _ => ?_
  · obtain ⟨i, hi, hai⟩ := a.alignment_valid
    obtain ⟨k, hk, hbk⟩ := b.alignment_valid
    rcases Nat.le_total a.alignmentElements b.alignmentElements with hle | hle
    · rw [Nat.min_eq_left hle, hai]
      exact alignmentIsPowerOfTwo_pow i hi
    · rw [Nat.min_eq_right hle, hbk]
      exact alignmentIsPowerOfTwo_pow k hk
  · rcases h with h | h
    · exact ha.trans h
    · exact hb.trans h

end AlignedArray

structure BasicVector (α : Type) where
  array : AlignedArray α

namespace BasicVector

def size (v : BasicVector α) : ℕ := v.array.size

/-- The pointer to the elements, `data()`. -/
def data (v : BasicVector α) : Pointer α := v.array.pointer

/-- An element, `operator[]`. -/
def get (v : BasicVector α) (idx : ℕ) : α := v.array.data idx

/-- The vector after its memory has been written to. -/
def setData (v : BasicVector α) (data : ℕ → α) : BasicVector α :=
  ⟨{ v.array with data := data }⟩

/-- The vector after one element has been written. -/
def set (v : BasicVector α) (idx : ℕ) (value : α) : BasicVector α :=
  v.setData fun i => if i = idx then value else v.get i

/-- The same numbers as values of another type. -/
def map {β : Type} (f : α → β) (v : BasicVector α) : BasicVector β :=
  ⟨{ v.array with data := fun idx => f (v.get idx) }⟩

/-- Zeros with the default alignment. -/
def zeros (α : Type) [Zero α] (size : ℕ) : BasicVector α := ⟨.zeros α size⟩

/-- The size, and the default alignment. -/
def HasLayout (v : BasicVector α) (size : ℕ) : Prop :=
  v.size = size ∧ v.array.alignmentElements = cVectorAlignmentSamples

def fillValue (v : BasicVector α) (val : α) : Except Exception (BasicVector α) := do
  let data ← throwOnError "Filling of vector failed" (vectorFill val v.data v.size 0)
  .ok (v.setData data)

def zeroFill [CommRing α] (v : BasicVector α) : Except Exception (BasicVector α) := do
  let data ← throwOnError "Zeroing of vector failed" (vectorZero v.data v.size 0)
  .ok (v.setData data)

def copy (v rhs : BasicVector α) : Except Exception (BasicVector α) :=
  let minAlignment := min v.array.alignmentElements rhs.array.alignmentElements
  if v.size ≠ rhs.size then
    .error (.invalidArgument "BasicVector::copy(): Vector size inconsistent.")
  else do
    let data ← throwOnError "BasicVector::copy() failed: "
      (vectorCopy rhs.array.pointer v.array.pointer v.size minAlignment)
    .ok { v with array := { v.array with data := data } }

/-- **Copies of vectors are exact.** -/
theorem copy_spec {v rhs : BasicVector α} (h : v.size = rhs.size) :
    ∃ result, v.copy rhs = .ok result ∧ result.size = rhs.size ∧
      ∀ idx < rhs.size, result.array.data idx = rhs.array.data idx := by
  have hsource := v.array.checkAlignment_min rhs.array (Or.inr rhs.array.address_aligned)
  have hdest := v.array.checkAlignment_min rhs.array (Or.inl v.array.address_aligned)
  unfold copy
  dsimp only
  rw [if_neg (not_not.mpr h)]
  unfold vectorCopy AlignedArray.pointer
  dsimp only
  rw [hsource, hdest]
  exact ⟨_, rfl, h, fun idx hidx => if_pos (h.symm ▸ hidx)⟩

@[simp] theorem size_setData (v : BasicVector α) (data : ℕ → α) :
    (v.setData data).size = v.size := rfl

@[simp] theorem get_setData (v : BasicVector α) (data : ℕ → α) (idx : ℕ) :
    (v.setData data).get idx = data idx := rfl

@[simp] theorem data_setData (v : BasicVector α) (data : ℕ → α) :
    (v.setData data).data.data = data := rfl

theorem HasLayout.setData {v : BasicVector α} {size : ℕ} (h : v.HasLayout size) (data : ℕ → α) :
    (v.setData data).HasLayout size := h

theorem hasLayout_zeros (α : Type) [Zero α] (size : ℕ) : (zeros α size).HasLayout size :=
  ⟨rfl, rfl⟩

theorem HasLayout.aligned {v : BasicVector α} {size : ℕ} (h : v.HasLayout size) :
    checkAlignment v.data.address cVectorAlignmentSamples = true :=
  checkAlignment_default (h.2 ▸ v.array.address_aligned)

/-- No alignment is needed. -/
theorem fillValue_eq (v : BasicVector α) (val : α) :
    v.fillValue val = .ok (v.setData fun idx => if idx < v.size then val else v.get idx) := rfl

theorem zeroFill_eq [CommRing α] (v : BasicVector α) :
    v.zeroFill = .ok (v.setData fun idx => if idx < v.size then 0 else v.get idx) := rfl

end BasicVector

/-- The rows of a matrix have a stride, which is the next aligned size. -/
structure BasicMatrix (α : Type) where
  array : AlignedArray α
  numberOfRows : ℕ
  numberOfColumns : ℕ
  size_eq : array.size = nextAlignedSize numberOfColumns array.alignmentElements * numberOfRows

namespace BasicMatrix

def stride (m : BasicMatrix α) : ℕ := nextAlignedSize m.numberOfColumns m.array.alignmentElements

/-- A pointer to a row. -/
def row (m : BasicMatrix α) (rowIdx : ℕ) : Pointer α := m.array.pointer.offset (rowIdx * m.stride)

/-- An element, `operator()`. -/
def get (m : BasicMatrix α) (rowIdx colIdx : ℕ) : α := m.array.data (rowIdx * m.stride + colIdx)

/-- All elements of the resized matrix are zero. -/
def resize [Zero α] (m : BasicMatrix α) (newNumberOfRows newNumberOfColumns : ℕ) :
    BasicMatrix α where
  array := { m.array.resize
    (nextAlignedSize newNumberOfColumns m.array.alignmentElements * newNumberOfRows) with
    data := fun _ => 0 }
  numberOfRows := newNumberOfRows
  numberOfColumns := newNumberOfColumns
  size_eq := rfl

/-- A matrix of zeros with the default alignment. -/
def zeros (α : Type) [Zero α] (numberOfRows numberOfColumns : ℕ) : BasicMatrix α where
  array := .zeros α (nextAlignedSize numberOfColumns cVectorAlignmentSamples * numberOfRows)
  numberOfRows := numberOfRows
  numberOfColumns := numberOfColumns
  size_eq := rfl

/-- The dimensions, and the default alignment. -/
def HasLayout (m : BasicMatrix α) (numberOfRows numberOfColumns : ℕ) : Prop :=
  m.numberOfRows = numberOfRows ∧ m.numberOfColumns = numberOfColumns ∧
    m.array.alignmentElements = cVectorAlignmentSamples

/-- The matrix after the first elements of a row have been written. -/
def storeRow (m : BasicMatrix α) (rowIdx numElements : ℕ) (values : ℕ → α) : BasicMatrix α :=
  { m with array := { m.array with
      data := overwrite m.array.data (rowIdx * m.stride) numElements values } }

/-- The data are exchanged.  As the layouts have to be equal, these are the matrices. -/
def swap (m rhs : BasicMatrix α) : Except Exception (BasicMatrix α × BasicMatrix α) :=
  if m.numberOfRows ≠ rhs.numberOfRows ∨ m.numberOfColumns ≠ rhs.numberOfColumns ∨
      m.stride ≠ rhs.stride ∨ m.array.alignmentElements ≠ rhs.array.alignmentElements then
    .error (.logicError "BasicMatrix::swap(): Matrix layout must be consistent for swapping")
  else .ok (rhs, m)

/-- One row is copied. -/
def copyRow (m rhs : BasicMatrix α) (minAlignment : ℕ) (data : ℕ → α) (rowIdx : ℕ) :
    Except Exception (ℕ → α) := do
  let values ← throwOnError "BasicMatrix::copy() failed: "
    (vectorCopy (rhs.row rowIdx) (Pointer.offset ⟨m.array.address, data⟩ (rowIdx * m.stride))
      m.numberOfColumns minAlignment)
  .ok (overwrite data (rowIdx * m.stride) m.numberOfColumns values)

/-- The matrices are copied as a whole if their strides are equal, and row by row otherwise. -/
def copy (m rhs : BasicMatrix α) : Except Exception (BasicMatrix α) :=
  let minAlignment := min m.array.alignmentElements rhs.array.alignmentElements
  if m.numberOfRows ≠ rhs.numberOfRows ∨ m.numberOfColumns ≠ rhs.numberOfColumns then
    .error (.invalidArgument "BasicMatrix::copy(): Matrix size inconsistent.")
  else if rhs.stride = m.stride then do
    let data ← throwOnError "BasicMatrix::copy() failed: "
      (vectorCopy rhs.array.pointer m.array.pointer (m.numberOfRows * m.stride) minAlignment)
    .ok { m with array := { m.array with data := data } }
  else do
    let data ← (List.range m.numberOfRows).foldlM (copyRow m rhs minAlignment) m.array.data
    .ok { m with array := { m.array with data := data } }

theorem numberOfColumns_le_stride (m : BasicMatrix α) : m.numberOfColumns ≤ m.stride :=
  le_nextAlignedSize _ _

/-- All rows are aligned. -/
theorem row_aligned (m : BasicMatrix α) (rowIdx : ℕ) :
    m.array.alignmentElements ∣ m.array.address + rowIdx * m.stride := by
  have hne : m.array.alignmentElements ≠ 0 := by
    obtain ⟨k, -, hk⟩ := m.array.alignment_valid
    rw [hk]
    exact (Nat.two_pow_pos k).ne'
  exact Nat.dvd_add m.array.address_aligned
    (Nat.dvd_mul_left_of_dvd (dvd_nextAlignedSize _ hne) rowIdx)

/-- An element is inside the memory of its row. -/
theorem index_lt {m : BasicMatrix α} {rowIdx colIdx n : ℕ} (hr : rowIdx < n)
    (hc : colIdx < m.numberOfColumns) : rowIdx * m.stride + colIdx < n * m.stride := by
  have hle := m.numberOfColumns_le_stride
  calc rowIdx * m.stride + colIdx < rowIdx * m.stride + m.stride := by omega
    _ = (rowIdx + 1) * m.stride := (Nat.succ_mul rowIdx m.stride).symm
    _ ≤ n * m.stride := Nat.mul_le_mul_right _ hr

theorem hasLayout_zeros (α : Type) [Zero α] (numberOfRows numberOfColumns : ℕ) :
    (zeros α numberOfRows numberOfColumns).HasLayout numberOfRows numberOfColumns :=
  ⟨rfl, rfl, rfl⟩

theorem HasLayout.storeRow {m : BasicMatrix α} {numberOfRows numberOfColumns : ℕ}
    (h : m.HasLayout numberOfRows numberOfColumns) (rowIdx numElements : ℕ) (values : ℕ → α) :
    (m.storeRow rowIdx numElements values).HasLayout numberOfRows numberOfColumns := h

theorem HasLayout.row_aligned {m : BasicMatrix α} {numberOfRows numberOfColumns : ℕ}
    (h : m.HasLayout numberOfRows numberOfColumns) (rowIdx : ℕ) :
    checkAlignment (m.row rowIdx).address cVectorAlignmentSamples = true :=
  checkAlignment_default (h.2.2 ▸ m.row_aligned rowIdx)

/-- Matrices with one layout can be exchanged. -/
theorem HasLayout.swap_eq {m rhs : BasicMatrix α} {numberOfRows numberOfColumns : ℕ}
    (h : m.HasLayout numberOfRows numberOfColumns)
    (hrhs : rhs.HasLayout numberOfRows numberOfColumns) : m.swap rhs = .ok (rhs, m) := by
  obtain ⟨hrows, hcolumns, halignment⟩ := h
  obtain ⟨hrows', hcolumns', halignment'⟩ := hrhs
  unfold BasicMatrix.swap stride
  rw [hrows, hrows', hcolumns, hcolumns', halignment, halignment']
  simp

theorem get_storeRow_self (m : BasicMatrix α) (rowIdx : ℕ) {numElements colIdx : ℕ}
    (values : ℕ → α) (h : colIdx < numElements) :
    (m.storeRow rowIdx numElements values).get rowIdx colIdx = values colIdx :=
  overwrite_inside _ _ _ h

/-- Other rows are not written to. -/
theorem get_storeRow_of_ne (m : BasicMatrix α) {rowIdx rowIdx' colIdx : ℕ} (values : ℕ → α)
    (h : rowIdx' ≠ rowIdx) (hc : colIdx < m.numberOfColumns) :
    (m.storeRow rowIdx m.numberOfColumns values).get rowIdx' colIdx = m.get rowIdx' colIdx := by
  refine overwrite_outside _ _ ?_
  have hle := m.numberOfColumns_le_stride
  rcases Nat.lt_or_gt_of_ne h with hlt | hgt
  · exact Or.inl (index_lt hlt hc)
  · refine Or.inr (le_trans ?_ (Nat.le_add_right _ _))
    calc rowIdx * m.stride + m.numberOfColumns ≤ (rowIdx + 1) * m.stride := by
          rw [Nat.succ_mul]; omega
      _ ≤ rowIdx' * m.stride := Nat.mul_le_mul_right _ hgt

/-- **The loop over the rows**: the elements of the first rows are those of the other matrix. -/
theorem foldlM_copyRow (m rhs : BasicMatrix α) (n : ℕ) : ∃ data, (List.range n).foldlM
      (copyRow m rhs (min m.array.alignmentElements rhs.array.alignmentElements)) m.array.data =
        .ok data ∧
      ∀ rowIdx < n, ∀ colIdx < m.numberOfColumns,
        data (rowIdx * m.stride + colIdx) = rhs.get rowIdx colIdx := by
  induction n with
  | zero => exact ⟨_, rfl, fun rowIdx hr => absurd hr (Nat.not_lt_zero rowIdx)⟩
  | succ n ih =>
    obtain ⟨data, hdata, helements⟩ := ih
    have hsource := m.array.checkAlignment_min rhs.array (Or.inr (rhs.row_aligned n))
    have hdest := m.array.checkAlignment_min rhs.array (Or.inl (m.row_aligned n))
    have hrow : ∃ values, copyRow m rhs
        (min m.array.alignmentElements rhs.array.alignmentElements) data n =
          .ok (overwrite data (n * m.stride) m.numberOfColumns values) ∧
        ∀ colIdx < m.numberOfColumns, values colIdx = rhs.get n colIdx := by
      unfold copyRow vectorCopy row AlignedArray.pointer Pointer.offset
      dsimp only
      rw [hsource, hdest]
      exact ⟨_, rfl, fun colIdx hc => if_pos hc⟩
    obtain ⟨values, hok, hvalues⟩ := hrow
    rw [List.range_succ, List.foldlM_append, hdata, ok_bind, List.foldlM_cons, hok, ok_bind]
    refine ⟨_, rfl, fun rowIdx hr colIdx hc => ?_⟩
    rcases Nat.lt_succ_iff_lt_or_eq.mp hr with hlt | rfl
    · rw [overwrite_outside _ _ (Or.inl (index_lt hlt hc))]
      exact helements rowIdx hlt colIdx hc
    · rw [overwrite_inside _ _ _ hc]
      exact hvalues colIdx hc

/-- **Copies of matrices are exact.** -/
theorem copy_spec {m rhs : BasicMatrix α} (hrows : m.numberOfRows = rhs.numberOfRows)
    (hcolumns : m.numberOfColumns = rhs.numberOfColumns) :
    ∃ result, m.copy rhs = .ok result ∧ result.numberOfRows = rhs.numberOfRows ∧
      result.numberOfColumns = rhs.numberOfColumns ∧
      ∀ rowIdx < rhs.numberOfRows, ∀ colIdx < rhs.numberOfColumns,
        result.get rowIdx colIdx = rhs.get rowIdx colIdx := by
  unfold copy
  dsimp only
  rw [if_neg (not_or.mpr ⟨not_not.mpr hrows, not_not.mpr hcolumns⟩)]
  by_cases hstride : rhs.stride = m.stride
  · have hsource := m.array.checkAlignment_min rhs.array (Or.inr rhs.array.address_aligned)
    have hdest := m.array.checkAlignment_min rhs.array (Or.inl m.array.address_aligned)
    rw [if_pos hstride]
    unfold vectorCopy AlignedArray.pointer
    dsimp only
    rw [hsource, hdest]
    refine ⟨_, rfl, hrows, hcolumns, fun rowIdx hr colIdx hc => ?_⟩
    have hlt := index_lt (m := m) (hrows.symm ▸ hr) (hcolumns.symm ▸ hc)
    show (if rowIdx * m.stride + colIdx < m.numberOfRows * m.stride then _ else _) = _
    rw [if_pos hlt]
    show rhs.array.data (rowIdx * m.stride + colIdx) =
      rhs.array.data (rowIdx * rhs.stride + colIdx)
    rw [hstride]
  · obtain ⟨data, hdata, helements⟩ := foldlM_copyRow m rhs m.numberOfRows
    rw [if_neg hstride, hdata, ok_bind]
    exact ⟨_, rfl, hrows, hcolumns, fun rowIdx hr colIdx hc =>
      helements rowIdx (hrows.symm ▸ hr) colIdx (hcolumns.symm ▸ hc)⟩

/-- Matrices of different sizes are not copied. -/
theorem copy_error {m rhs : BasicMatrix α} (h : m.numberOfRows ≠ rhs.numberOfRows ∨
    m.numberOfColumns ≠ rhs.numberOfColumns) :
    m.copy rhs = .error (.invalidArgument "BasicMatrix::copy(): Matrix size inconsistent.") :=
  if_pos h

/-- A copy has the dimensions of the matrix that is copied. -/
theorem rows_of_copy {m rhs result : BasicMatrix α} (h : m.copy rhs = .ok result) :
    result.numberOfRows = rhs.numberOfRows := by
  by_cases hsize : m.numberOfRows ≠ rhs.numberOfRows ∨ m.numberOfColumns ≠ rhs.numberOfColumns
  · cases (copy_error hsize).symm.trans h
  · obtain ⟨hrows, hcolumns⟩ := not_or.mp hsize
    obtain ⟨_, hok, hresult, -⟩ := copy_spec (not_not.mp hrows) (not_not.mp hcolumns)
    cases hok.symm.trans h
    exact hresult

end BasicMatrix

end Efl

end Visr
