import Mathlib.Algebra.Field.Rat
import Visr.Libefl.AlignedStorage
import Visr.Libpml.DoubleBufferingProtocol

/-!
# The assignment of parameter objects

A parameter object is assigned through its base class, which finds the assignment operator of its
type.  Each of these operators copies the elements in its own way.

## Main results

* `Pml.Parameter.assign_iff` — **assignment is faithful**, alone and as a part of a swap of the
  buffers, except for panning matrices that are not square: their gains are resized with the
  dimensions exchanged.
-/

namespace Visr

namespace Pml

open Efl

variable {α γ τ : Type}

/-! ### The parameter types -/

/-- A matrix parameter is a matrix. -/
abbrev MatrixParameter (α : Type) := BasicMatrix α

/-- A vector parameter is a vector. -/
abbrev VectorParameter (α : Type) := BasicVector α

/-- The frames follow each other, with a row for each of their channels. -/
structure TimeFrequencyParameter (γ : Type) where
  data : BasicMatrix γ
  numberOfChannels : ℕ

/-- Gains with a row for each object, and the start and the duration of its transition. -/
structure PanningMatrixParameter (α τ : Type) where
  gains : BasicMatrix α
  timeStamps : AlignedArray τ
  transitionTimes : AlignedArray τ
  timeStamps_size : timeStamps.size = gains.numberOfRows
  transitionTimes_size : transitionTimes.size = gains.numberOfRows

def MatrixParameter.assign (p rhs : MatrixParameter α) : Except Exception (MatrixParameter α) :=
  p.copy rhs

def VectorParameter.assign (p rhs : VectorParameter α) : Except Exception (VectorParameter α) :=
  if p.size ≠ rhs.size then
    .error (.outOfRange "VectorParameter assignment: Sizes are different.")
  else p.copy rhs

/-- `rhs` is a different object; nothing is done otherwise. -/
def TimeFrequencyParameter.assign [Zero γ] (p rhs : TimeFrequencyParameter γ) :
    Except Exception (TimeFrequencyParameter γ) := do
  let data ← (p.data.resize rhs.data.numberOfRows rhs.data.numberOfColumns).copy rhs.data
  .ok { data := data, numberOfChannels := rhs.numberOfChannels }

namespace PanningMatrixParameter

def numberOfObjects (p : PanningMatrixParameter α τ) : ℕ := p.gains.numberOfRows

def numberOfLoudspeakers (p : PanningMatrixParameter α τ) : ℕ := p.gains.numberOfColumns

/-- A new array with equal elements, at some aligned address. -/
def createConstantArray (val : τ) (size alignment : ℕ) (valid : ∃ k < 64, alignment = 2 ^ k) :
    AlignedArray τ where
  alignmentElements := alignment
  size := size
  address := 0
  data := fun _ => val
  alignment_valid := valid
  address_aligned := Nat.dvd_zero _

/-- The constructor sets all gains to zero, and there are no transitions. -/
def create [Zero α] (cTimeStampInfinity : τ) (numberOfObjects numberOfLoudspeakers alignment : ℕ)
    (valid : ∃ k < 64, alignment = 2 ^ k) : PanningMatrixParameter α τ where
  gains :=
    { array := createConstantArray 0
        (nextAlignedSize numberOfLoudspeakers alignment * numberOfObjects) alignment valid
      numberOfRows := numberOfObjects
      numberOfColumns := numberOfLoudspeakers
      size_eq := rfl }
  timeStamps := createConstantArray cTimeStampInfinity numberOfObjects alignment valid
  transitionTimes := createConstantArray cTimeStampInfinity numberOfObjects alignment valid
  timeStamps_size := rfl
  transitionTimes_size := rfl

/-- The local `copy` for arrays. -/
def copyArray (src dest : AlignedArray τ) : AlignedArray τ :=
  { dest with data := fun idx => if idx < src.size then src.data idx else dest.data idx }

/-- `rhs` is a different object; nothing is done otherwise. -/
def assign [Zero α] (p rhs : PanningMatrixParameter α τ) :
    Except Exception (PanningMatrixParameter α τ) :=
  let timeStamps := p.timeStamps.resize rhs.numberOfObjects
  let transitionTimes := p.transitionTimes.resize rhs.numberOfObjects
  -- the matrix is resized as if it had a row for each loudspeaker
  let resized := p.gains.resize rhs.numberOfLoudspeakers rhs.numberOfObjects
  match h : resized.copy rhs.gains with
  | .error e => .error e
  | .ok gains => .ok
    { gains := gains
      timeStamps := copyArray rhs.timeStamps timeStamps
      transitionTimes := copyArray rhs.transitionTimes transitionTimes
      timeStamps_size := (BasicMatrix.rows_of_copy h).symm
      transitionTimes_size := (BasicMatrix.rows_of_copy h).symm }

end PanningMatrixParameter

/-! ### Objects of all types -/

/-- The parameter objects, by their dynamic type. -/
inductive Parameter (α γ τ : Type)
  | matrix (p : MatrixParameter α)
  | vector (p : VectorParameter α)
  | timeFrequency (p : TimeFrequencyParameter γ)
  | panningMatrix (p : PanningMatrixParameter α τ)

namespace Parameter

/-- `ParameterBase::assign`: the assignment operator of the type is called. -/
def assign [Zero α] [Zero γ] :
    Parameter α γ τ → Parameter α γ τ → Except Exception (Parameter α γ τ)
  | matrix p, matrix rhs => do .ok (matrix (← p.assign rhs))
  | vector p, vector rhs => do .ok (vector (← p.assign rhs))
  | timeFrequency p, timeFrequency rhs => do .ok (timeFrequency (← p.assign rhs))
  | panningMatrix p, panningMatrix rhs => do .ok (panningMatrix (← p.assign rhs))
  | _, _ => .error (.invalidArgument "Assign: Types are not compatible.")

end Parameter

/-- The dimensions of two matrices are equal. -/
def MatrixParameter.SameDimensions (p q : MatrixParameter α) : Prop :=
  p.numberOfRows = q.numberOfRows ∧ p.numberOfColumns = q.numberOfColumns

/-- The elements of two matrices are equal, as far as both have them. -/
def MatrixParameter.SameElements (p q : MatrixParameter α) : Prop :=
  ∀ rowIdx < q.numberOfRows, ∀ colIdx < q.numberOfColumns, p.get rowIdx colIdx = q.get rowIdx colIdx

/-- Two arrays have the same size and the same elements. -/
def SameArray (p q : AlignedArray τ) : Prop :=
  p.size = q.size ∧ ∀ idx < q.size, p.data idx = q.data idx

namespace Parameter

/-- Two objects have the same type and the same dimensions. -/
def SameDimensions : Parameter α γ τ → Parameter α γ τ → Prop
  | matrix p, matrix q => MatrixParameter.SameDimensions p q
  | vector p, vector q => p.size = q.size
  | timeFrequency p, timeFrequency q =>
    MatrixParameter.SameDimensions p.data q.data ∧ p.numberOfChannels = q.numberOfChannels
  | panningMatrix p, panningMatrix q => MatrixParameter.SameDimensions p.gains q.gains
  | _, _ => False

/-- Two objects have the same type and the same dimensions, and all their elements are equal. -/
def SameValue : Parameter α γ τ → Parameter α γ τ → Prop
  | matrix p, matrix q => MatrixParameter.SameDimensions p q ∧ MatrixParameter.SameElements p q
  | vector p, vector q => SameArray p.array q.array
  | timeFrequency p, timeFrequency q =>
    MatrixParameter.SameDimensions p.data q.data ∧ MatrixParameter.SameElements p.data q.data ∧
      p.numberOfChannels = q.numberOfChannels
  | panningMatrix p, panningMatrix q =>
    MatrixParameter.SameDimensions p.gains q.gains ∧
      MatrixParameter.SameElements p.gains q.gains ∧ SameArray p.timeStamps q.timeStamps ∧
        SameArray p.transitionTimes q.transitionTimes
  | _, _ => False

/-- A panning matrix has as many objects as loudspeakers; nothing is said of the other types. -/
def IsSquarePanning : Parameter α γ τ → Prop
  | panningMatrix p => p.numberOfObjects = p.numberOfLoudspeakers
  | _ => True

end Parameter

/-! ### The assignment operators -/

theorem MatrixParameter.assign_spec {p rhs : MatrixParameter α}
    (h : MatrixParameter.SameDimensions p rhs) :
    ∃ result, MatrixParameter.assign p rhs = .ok result ∧
      MatrixParameter.SameDimensions result rhs ∧ MatrixParameter.SameElements result rhs := by
  obtain ⟨result, hok, hrows, hcolumns, helements⟩ := BasicMatrix.copy_spec h.1 h.2
  exact ⟨result, hok, ⟨hrows, hcolumns⟩, helements⟩

theorem VectorParameter.assign_spec {p rhs : VectorParameter α} (h : p.size = rhs.size) :
    ∃ result, VectorParameter.assign p rhs = .ok result ∧ SameArray result.array rhs.array := by
  obtain ⟨result, hok, hsize, helements⟩ := BasicVector.copy_spec h
  refine ⟨result, ?_, hsize, helements⟩
  unfold VectorParameter.assign
  rw [if_neg (not_not.mpr h)]
  exact hok

/-- The data is resized first, so that all dimensions are accepted. -/
theorem TimeFrequencyParameter.assign_spec [Zero γ] (p rhs : TimeFrequencyParameter γ) :
    ∃ result, p.assign rhs = .ok result ∧
      MatrixParameter.SameDimensions result.data rhs.data ∧
      MatrixParameter.SameElements result.data rhs.data ∧
      result.numberOfChannels = rhs.numberOfChannels := by
  have hdimensions : MatrixParameter.SameDimensions
      (p.data.resize rhs.data.numberOfRows rhs.data.numberOfColumns) rhs.data := ⟨rfl, rfl⟩
  obtain ⟨data, hok, hdata, helements⟩ := MatrixParameter.assign_spec hdimensions
  refine ⟨⟨data, rhs.numberOfChannels⟩, ?_, hdata, helements, rfl⟩
  unfold TimeFrequencyParameter.assign
  rw [show (p.data.resize _ _).copy rhs.data = .ok data from hok, ok_bind]

namespace PanningMatrixParameter

theorem sameArray_copyArray {src dest : AlignedArray τ} (h : dest.size = src.size) :
    SameArray (copyArray src dest) src :=
  ⟨h, fun _ hidx => if_pos hidx⟩

theorem assign_spec [Zero α] {p rhs : PanningMatrixParameter α τ}
    (h : rhs.numberOfObjects = rhs.numberOfLoudspeakers) :
    ∃ result, p.assign rhs = .ok result ∧
      MatrixParameter.SameDimensions result.gains rhs.gains ∧
      MatrixParameter.SameElements result.gains rhs.gains ∧
      SameArray result.timeStamps rhs.timeStamps ∧
      SameArray result.transitionTimes rhs.transitionTimes := by
  have hdimensions : MatrixParameter.SameDimensions
      (p.gains.resize rhs.numberOfLoudspeakers rhs.numberOfObjects) rhs.gains := ⟨h.symm, h⟩
  obtain ⟨gains, hok, hgains, helements⟩ := MatrixParameter.assign_spec hdimensions
  unfold assign
  dsimp only
  split
  · rename_i e heq
    cases hok.symm.trans heq
  · rename_i copied heq
    cases hok.symm.trans heq
    exact ⟨_, rfl, hgains, helements, sameArray_copyArray rhs.timeStamps_size.symm,
      sameArray_copyArray rhs.transitionTimes_size.symm⟩

theorem assign_error [Zero α] {p rhs : PanningMatrixParameter α τ}
    (h : rhs.numberOfObjects ≠ rhs.numberOfLoudspeakers) :
    p.assign rhs =
      .error (.invalidArgument "BasicMatrix::copy(): Matrix size inconsistent.") := by
  have hcopy : (p.gains.resize rhs.numberOfLoudspeakers rhs.numberOfObjects).copy rhs.gains =
      .error (.invalidArgument "BasicMatrix::copy(): Matrix size inconsistent.") :=
    BasicMatrix.copy_error (Or.inl h.symm)
  unfold assign
  dsimp only
  split
  · rename_i e heq
    cases hcopy.symm.trans heq
    rfl
  · rename_i copied heq
    cases hcopy.symm.trans heq

end PanningMatrixParameter

namespace Parameter

variable [Zero α] [Zero γ]

theorem assign_spec {target source : Parameter α γ τ} (h : target.SameDimensions source)
    (hsquare : source.IsSquarePanning) :
    ∃ result, target.assign source = .ok result ∧ result.SameValue source := by
  cases target <;> cases source <;> try exact h.elim
  case matrix.matrix p q =>
    obtain ⟨result, hok, hvalue⟩ := MatrixParameter.assign_spec h
    exact ⟨matrix result, bind_of_ok hok _, hvalue⟩
  case vector.vector p q =>
    obtain ⟨result, hok, hvalue⟩ := VectorParameter.assign_spec h
    exact ⟨vector result, bind_of_ok hok _, hvalue⟩
  case timeFrequency.timeFrequency p q =>
    obtain ⟨result, hok, hvalue⟩ := TimeFrequencyParameter.assign_spec p q
    exact ⟨timeFrequency result, bind_of_ok hok _, hvalue⟩
  case panningMatrix.panningMatrix p q =>
    obtain ⟨result, hok, hvalue⟩ := PanningMatrixParameter.assign_spec (p := p) hsquare
    exact ⟨panningMatrix result, bind_of_ok hok _, hvalue⟩

/-- A panning matrix that is not square is refused, whatever it is assigned to. -/
theorem assign_ne_ok {target source : Parameter α γ τ} (hsquare : ¬ source.IsSquarePanning)
    (result : Parameter α γ τ) : target.assign source ≠ .ok result := by
  cases source with
  | panningMatrix q =>
    cases target with
    | panningMatrix p =>
      show (PanningMatrixParameter.assign p q >>= _) ≠ _
      rw [PanningMatrixParameter.assign_error hsquare]
      exact nofun
    | matrix p => exact nofun
    | vector p => exact nofun
    | timeFrequency p => exact nofun
  | matrix q => exact absurd trivial hsquare
  | vector q => exact absurd trivial hsquare
  | timeFrequency q => exact absurd trivial hsquare

/-- **Assignment is faithful**: the target gets the dimensions and the elements of the source,
and a swap of the buffers with copying leaves equal values with the writer and with the
receivers. -/
theorem assign_iff {target source : Parameter α γ τ} (h : target.SameDimensions source) :
    ((∃ result, target.assign source = .ok result ∧ result.SameValue source) ∧
      ∀ p : DoubleBufferingProtocol (Parameter α γ τ),
        p.backValue = target → p.frontValue = source →
          ∃ p', p.swapBuffersBy assign true = .ok p' ∧ p'.backValue = source ∧
            p'.frontValue.SameValue p'.backValue) ↔ source.IsSquarePanning := by
  refine ⟨fun hfaithful => ?_, fun hsquare => ?_⟩
  · obtain ⟨⟨result, hok, -⟩, -⟩ := hfaithful
    by_contra hsquare
    exact assign_ne_ok hsquare result hok
  · obtain ⟨result, hok, hvalue⟩ := assign_spec h hsquare
    refine ⟨⟨result, hok, hvalue⟩, fun p hback hfront => ?_⟩
    subst hback hfront
    obtain ⟨p', hswap, hfront', hback'⟩ := DoubleBufferingProtocol.swapBuffersBy_ok hok
    refine ⟨p', hswap, hback', ?_⟩
    rw [hfront', hback']
    exact hvalue

/-- The parameter for two objects and two loudspeakers. -/
def squareParameter : Parameter ℚ ℚ ℕ :=
  .panningMatrix (PanningMatrixParameter.create 0 2 2 1 ⟨0, by decide, rfl⟩)

/-- The parameter for one object and two loudspeakers. -/
def flatParameter : Parameter ℚ ℚ ℕ :=
  .panningMatrix (PanningMatrixParameter.create 0 1 2 1 ⟨0, by decide, rfl⟩)

/-- Parameters for two objects and two loudspeakers are copied. -/
theorem assign_twoByTwo :
    ∃ result, squareParameter.assign squareParameter = .ok result ∧
      result.SameValue squareParameter :=
  ((@assign_iff ℚ ℚ ℕ _ _ squareParameter squareParameter ⟨rfl, rfl⟩).mpr rfl).1

/-- The gains of one object for two loudspeakers are not copied, and the buffers that the
protocol creates for them are not swapped. -/
theorem assign_oneByTwo :
    flatParameter.SameDimensions flatParameter ∧
      flatParameter.assign flatParameter =
        .error (.invalidArgument "BasicMatrix::copy(): Matrix size inconsistent.") ∧
      ∀ p', (DoubleBufferingProtocol.create flatParameter flatParameter).swapBuffersBy
        assign true ≠ .ok p' :=
  ⟨⟨rfl, rfl⟩, rfl, nofun⟩

end Parameter

end Pml

end Visr
