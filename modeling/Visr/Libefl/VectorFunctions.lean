import Mathlib.Algebra.Order.Field.Basic
import Mathlib.Tactic.Positivity
import Visr.Libefl.Basic

/-!
# Functions on aligned vectors

The element-wise operations used by the signal processing code.  Each of them checks that
its arguments are aligned as promised by the caller and reports an error code otherwise.
-/

namespace Visr

/-- Whether a number is an integer power of two; zero is not. -/
def alignmentIsPowerOfTwo (alignmentVal : ℕ) : Bool :=
  alignmentVal ≠ 0 &&
    (BitVec.ofNat 64 alignmentVal &&& (~~~(BitVec.ofNat 64 alignmentVal) + 1))
      == BitVec.ofNat 64 alignmentVal

/-- Whether an address, counted in elements, meets an alignment.  For a power of two the
bit mask of the address is its remainder. -/
def checkAlignment (address alignment : ℕ) : Bool :=
  alignment = 0 || (alignmentIsPowerOfTwo alignment && address % alignment = 0)

/-- The elements behind a pointer, whose address is counted in elements. -/
structure Pointer (α : Type) where
  address : ℕ
  data : ℕ → α

/-- Pointer arithmetic. -/
def Pointer.offset {α : Type} (p : Pointer α) (n : ℕ) : Pointer α where
  address := p.address + n
  data k := p.data (n + k)

/-- The memory after a block of values has been stored at a position. -/
def overwrite {α : Type} (memory : ℕ → α) (start size : ℕ) (values : ℕ → α) : ℕ → α :=
  fun p => if start ≤ p ∧ p < start + size then values (p - start) else memory p

theorem overwrite_inside {α : Type} (memory values : ℕ → α) (start : ℕ) {size k : ℕ}
    (hk : k < size) : overwrite memory start size values (start + k) = values k := by
  rw [overwrite, if_pos (by omega), Nat.add_sub_cancel_left]

theorem overwrite_outside {α : Type} (memory values : ℕ → α) {start size p : ℕ}
    (hp : p < start ∨ start + size ≤ p) : overwrite memory start size values p = memory p :=
  if_neg (by omega)

theorem checkAlignment_of_dvd {address alignment : ℕ}
    (h : alignment = 0 ∨ alignmentIsPowerOfTwo alignment = true)
    (hdvd : alignment ≠ 0 → alignment ∣ address) : checkAlignment address alignment = true := by
  by_cases hzero : alignment = 0
  · simp [checkAlignment, hzero]
  · have hpow := h.resolve_left hzero
    have hmod := Nat.mod_eq_zero_of_dvd (hdvd hzero)
    simp [checkAlignment, hpow, hmod]

/-- All powers of two but the first are even. -/
theorem eq_one_or_even_of_alignmentIsPowerOfTwo {alignment : ℕ} (hlt : alignment < 2 ^ 64)
    (h : alignmentIsPowerOfTwo alignment = true) : alignment = 1 ∨ 2 ∣ alignment := by
  by_cases heven : 2 ∣ alignment
  · exact Or.inr heven
  · refine Or.inl ?_
    simp only [alignmentIsPowerOfTwo, Bool.and_eq_true, decide_eq_true_eq, beq_iff_eq] at h
    have hmask := h.2
    generalize hx : BitVec.ofNat 64 alignment = x at hmask
    have hnat : x.toNat = alignment := by
      rw [← hx, BitVec.toNat_ofNat]
      exact Nat.mod_eq_of_lt hlt
    -- the increment only changes the lowest bit
    have hlow : ~~~x &&& 1#64 = 0#64 := by
      apply BitVec.eq_of_toNat_eq
      rw [BitVec.toNat_and, BitVec.toNat_not, hnat]
      show (2 ^ 64 - 1 - alignment) &&& 1 = 0
      rw [Nat.and_one_is_mod]
      omega
    have hadd : ~~~x + 1 = ~~~x ||| 1#64 := BitVec.add_eq_or_of_and_eq_zero _ _ hlow
    have hone : x &&& 1#64 = x := by
      rw [hadd, BitVec.and_or_distrib_left, BitVec.and_not_self] at hmask
      exact (BitVec.zero_or).symm.trans hmask
    have hbit : x.toNat &&& 1 = x.toNat := congrArg BitVec.toNat hone
    rw [Nat.and_one_is_mod, hnat] at hbit
    omega

/-- The start of an aligned array meets every alignment that some address meets. -/
theorem checkAlignment_zero {address alignment : ℕ}
    (h : checkAlignment address alignment = true) : checkAlignment 0 alignment = true := by
  simp only [checkAlignment, Bool.or_eq_true, Bool.and_eq_true, decide_eq_true_eq] at h ⊢
  cases h with
  | inl hzero => exact Or.inl hzero
  | inr hpow => exact Or.inr ⟨hpow.1, Nat.zero_mod alignment⟩

/-- The alignment of vectors, in samples of four bytes. -/
def cVectorAlignmentSamples : ℕ := 64 / 4

/-- An address that is a multiple of the default alignment. -/
theorem checkAlignment_default {address : ℕ} (h : cVectorAlignmentSamples ∣ address) :
    checkAlignment address cVectorAlignmentSamples = true :=
  checkAlignment_of_dvd (Or.inr (by decide)) fun _ => h

/-- The channels of an audio port, whose memory the runtime system allocates aligned. -/
structure AudioChannels (R : Type) where
  channel : ℕ → Pointer R
  aligned : ∀ channelIdx, cVectorAlignmentSamples ∣ (channel channelIdx).address

/-- An error code is reported as an exception. -/
def throwOnError {α : Type} (what : String) : Except ErrorCode α → Except Exception α
  | .ok result => .ok result
  | .error _ => .error (.runtimeError what)

theorem throwOnError_ok {α : Type} (what : String) (result : α) :
    throwOnError what (.ok result) = .ok result := rfl

def vectorFill {T : Type} (value : T) (dest : Pointer T) (numElements alignment : ℕ) :
    Except ErrorCode (ℕ → T) :=
  if !checkAlignment dest.address alignment then .error .alignmentError
  else .ok fun idx => if idx < numElements then value else dest.data idx

def vectorCopy {T : Type} (source dest : Pointer T) (numElements alignment : ℕ) :
    Except ErrorCode (ℕ → T) :=
  if !checkAlignment source.address alignment then .error .alignmentError
  else if !checkAlignment dest.address alignment then .error .alignmentError
  else .ok fun idx => if idx < numElements then source.data idx else dest.data idx

theorem vectorCopy_of_aligned {T : Type} {source dest : Pointer T} (numElements : ℕ)
    {alignment : ℕ} (hsource : checkAlignment source.address alignment = true)
    (hdest : checkAlignment dest.address alignment = true) :
    vectorCopy source dest numElements alignment = .ok fun idx =>
      if idx < numElements then source.data idx else dest.data idx := by
  unfold vectorCopy
  rw [hsource, hdest]
  rfl

section Operations

variable {T : Type} [CommRing T]

def vectorZero (dest : Pointer T) (numElements alignment : ℕ) : Except ErrorCode (ℕ → T) :=
  vectorFill 0 dest numElements alignment

def vectorAddInplace (op1 op2Result : Pointer T) (numElements alignment : ℕ) :
    Except ErrorCode (ℕ → T) :=
  if !checkAlignment op1.address alignment then .error .alignmentError
  else if !checkAlignment op2Result.address alignment then .error .alignmentError
  else .ok fun idx =>
    if idx < numElements then op2Result.data idx + op1.data idx else op2Result.data idx

/-- The parameters have the names that they have in the source. -/
def vectorSubtract (subtrahend minuend result : Pointer T) (numElements alignment : ℕ) :
    Except ErrorCode (ℕ → T) :=
  if !checkAlignment subtrahend.address alignment then .error .alignmentError
  else if !checkAlignment minuend.address alignment then .error .alignmentError
  else if !checkAlignment result.address alignment then .error .alignmentError
  else .ok fun idx =>
    if idx < numElements then subtrahend.data idx - minuend.data idx else result.data idx

def vectorMultiply (factor1 factor2 result : Pointer T) (numElements alignment : ℕ) :
    Except ErrorCode (ℕ → T) :=
  if !checkAlignment factor1.address alignment then .error .alignmentError
  else if !checkAlignment factor2.address alignment then .error .alignmentError
  else if !checkAlignment result.address alignment then .error .alignmentError
  else .ok fun idx =>
    if idx < numElements then factor1.data idx * factor2.data idx else result.data idx

def vectorMultiplyInplace (factor1 factor2Result : Pointer T) (numElements alignment : ℕ) :
    Except ErrorCode (ℕ → T) :=
  if !checkAlignment factor1.address alignment then .error .alignmentError
  else if !checkAlignment factor2Result.address alignment then .error .alignmentError
  else .ok fun idx =>
    if idx < numElements then factor2Result.data idx * factor1.data idx
    else factor2Result.data idx

def vectorMultiplyAddInplace (factor1 factor2 accumulator : Pointer T)
    (numElements alignment : ℕ) : Except ErrorCode (ℕ → T) :=
  if !checkAlignment factor1.address alignment then .error .alignmentError
  else if !checkAlignment factor2.address alignment then .error .alignmentError
  else if !checkAlignment accumulator.address alignment then .error .alignmentError
  else .ok fun idx =>
    if idx < numElements then accumulator.data idx + factor1.data idx * factor2.data idx
    else accumulator.data idx

def vectorMultiplyConstant (constantValue : T) (factor result : Pointer T)
    (numElements alignment : ℕ) : Except ErrorCode (ℕ → T) :=
  if !checkAlignment factor.address alignment then .error .alignmentError
  else if !checkAlignment result.address alignment then .error .alignmentError
  else .ok fun idx =>
    if idx < numElements then constantValue * factor.data idx else result.data idx

def vectorMultiplyConstantAddInplace (constFactor : T) (factor accumulator : Pointer T)
    (numElements alignment : ℕ) : Except ErrorCode (ℕ → T) :=
  if !checkAlignment factor.address alignment then .error .alignmentError
  else if !checkAlignment accumulator.address alignment then .error .alignmentError
  else .ok fun idx =>
    if idx < numElements then accumulator.data idx + constFactor * factor.data idx
    else accumulator.data idx

/-- Scales a block of samples with `baseGain + rampGain * ramp`.  The alignments are checked in
debug builds only. -/
def vectorRampScaling (input ramp output : ℕ → T) (baseGain rampGain : T)
    (numberOfElements : ℕ) (accumulate : Bool) : ℕ → T := fun idx =>
  if idx < numberOfElements then
    let scale := baseGain + rampGain * ramp idx
    if accumulate then output idx + scale * input idx else scale * input idx
  else output idx

theorem vectorMultiplyConstant_of_aligned (constantValue : T) {factor result : Pointer T}
    (numElements : ℕ) {alignment : ℕ} (hfactor : checkAlignment factor.address alignment = true)
    (hresult : checkAlignment result.address alignment = true) :
    vectorMultiplyConstant constantValue factor result numElements alignment = .ok fun idx =>
      if idx < numElements then constantValue * factor.data idx else result.data idx := by
  unfold vectorMultiplyConstant
  rw [hfactor, hresult]
  rfl

theorem vectorAddInplace_of_aligned {op1 op2Result : Pointer T} (numElements : ℕ) {alignment : ℕ}
    (hop1 : checkAlignment op1.address alignment = true)
    (hop2 : checkAlignment op2Result.address alignment = true) :
    vectorAddInplace op1 op2Result numElements alignment = .ok fun idx =>
      if idx < numElements then op2Result.data idx + op1.data idx else op2Result.data idx := by
  unfold vectorAddInplace
  rw [hop1, hop2]
  rfl

theorem vectorSubtract_of_aligned {subtrahend minuend result : Pointer T} (numElements : ℕ)
    {alignment : ℕ} (hsubtrahend : checkAlignment subtrahend.address alignment = true)
    (hminuend : checkAlignment minuend.address alignment = true)
    (hresult : checkAlignment result.address alignment = true) :
    vectorSubtract subtrahend minuend result numElements alignment = .ok fun idx =>
      if idx < numElements then subtrahend.data idx - minuend.data idx else result.data idx := by
  unfold vectorSubtract
  rw [hsubtrahend, hminuend, hresult]
  rfl

theorem vectorMultiplyAddInplace_of_aligned {factor1 factor2 accumulator : Pointer T}
    (numElements : ℕ) {alignment : ℕ} (hfactor1 : checkAlignment factor1.address alignment = true)
    (hfactor2 : checkAlignment factor2.address alignment = true)
    (haccumulator : checkAlignment accumulator.address alignment = true) :
    vectorMultiplyAddInplace factor1 factor2 accumulator numElements alignment = .ok fun idx =>
      if idx < numElements then accumulator.data idx + factor1.data idx * factor2.data idx
      else accumulator.data idx := by
  unfold vectorMultiplyAddInplace
  rw [hfactor1, hfactor2, haccumulator]
  rfl

theorem vectorAddInplace_eq_ok {op1 op2Result : Pointer T} {numElements alignment : ℕ}
    {result : ℕ → T} (h : vectorAddInplace op1 op2Result numElements alignment = .ok result)
    {idx : ℕ} (hidx : idx < numElements) : result idx = op2Result.data idx + op1.data idx := by
  unfold vectorAddInplace at h
  split at h
  · cases h
  · split at h
    · cases h
    · cases h
      exact if_pos hidx

theorem vectorMultiplyInplace_eq_ok {factor1 factor2Result : Pointer T}
    {numElements alignment : ℕ} {result : ℕ → T}
    (h : vectorMultiplyInplace factor1 factor2Result numElements alignment = .ok result)
    {idx : ℕ} (hidx : idx < numElements) :
    result idx = factor2Result.data idx * factor1.data idx := by
  unfold vectorMultiplyInplace at h
  split at h
  · cases h
  · split at h
    · cases h
    · cases h
      exact if_pos hidx

theorem vectorMultiplyAddInplace_eq_ok {factor1 factor2 accumulator : Pointer T}
    {numElements alignment : ℕ} {result : ℕ → T}
    (h : vectorMultiplyAddInplace factor1 factor2 accumulator numElements alignment = .ok result)
    {idx : ℕ} (hidx : idx < numElements) :
    result idx = accumulator.data idx + factor1.data idx * factor2.data idx := by
  unfold vectorMultiplyAddInplace at h
  split at h
  · cases h
  · split at h
    · cases h
    · split at h
      · cases h
      · cases h
        exact if_pos hidx

end Operations

/-- `std::numeric_limits<SampleType>::epsilon()`. -/
def epsilon (K : Type) [Field K] : K := 1 / 2 ^ 23

theorem epsilon_pos {K : Type} [Field K] [LinearOrder K] [IsStrictOrderedRing K] :
    (0 : K) < epsilon K := by
  unfold epsilon
  positivity

/-- A ramp between two values, each of which it may contain or not. -/
def vectorRamp {T : Type} [Field T] (dest : Pointer T) (numElements : ℕ) (startVal endVal : T)
    (startInclusive endInclusive : Bool) (alignment : ℕ) : Except ErrorCode (ℕ → T) :=
  if !checkAlignment dest.address alignment then .error .alignmentError
  else if numElements = 0 then .ok dest.data
  else if numElements = 1 then
    -- the value in the middle, stored before if both flags are equal, is overwritten
    .ok fun idx =>
      if idx < 1 then (if startInclusive then startVal else endVal) else dest.data idx
  else
    let numSteps :=
      numElements + 1 - (if startInclusive then 1 else 0) - (if endInclusive then 1 else 0)
    let step := (endVal - startVal) / (numSteps : T)
    let calcIdx := if startInclusive then 0 else 1
    .ok fun idx =>
      if idx < numElements then startVal + ((calcIdx + idx : ℕ) : T) * step else dest.data idx

end Visr
