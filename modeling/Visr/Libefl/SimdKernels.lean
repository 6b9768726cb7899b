import Mathlib.Algebra.QuadraticAlgebra.Defs
import Visr.Libefl.VectorFunctions
import Visr.Library.SimdRegisters

/-!
# Kernels for x86-64 processors

The vector functions that are written with the vector instructions of these processors.  Addresses
are counted in numbers, of which a complex number has two.
-/

namespace Visr

open Simd

/-- `std::complex`. -/
abbrev Complex (R : Type) [CommRing R] := QuadraticAlgebra R (-1) 0

/-- The numbers of an array of complex numbers. -/
def interleave {R : Type} [CommRing R] (f : ℕ → Complex R) : ℕ → R :=
  fun p => if p % 2 = 0 then (f (p / 2)).re else (f (p / 2)).im

/-- `reinterpret_cast`.  The address is rounded if it is not that of a pair of numbers. -/
def Pointer.complex {R : Type} [CommRing R] (p : Pointer R) : Pointer (Complex R) where
  address := p.address / 2
  data k := ⟨p.data (2 * k), p.data (2 * k + 1)⟩

/-- The check of an alignment for elements of `elementSize` numbers. -/
def checkElementAlignment (elementSize address alignment : ℕ) : Bool :=
  alignment = 0 || (alignmentIsPowerOfTwo alignment && address % (alignment * elementSize) = 0)

namespace IntelX86_64

/-- `__AVX__`, `__AVX2__`, and whether `NDEBUG` is not defined. -/
structure Build where
  avx : Bool
  avx2 : Bool
  debug : Bool

/-- The result of a kernel, if all its instructions are executed. -/
abbrev Written (R : Type) := Except ErrorCode (ℕ → R)

section Kernels

variable {R : Type} [CommRing R] (build : Build)

/-- The lanes from an element on. -/
def loadAt (aligned : Bool) (n : ℕ) (p : Pointer R) (start : ℕ) : Except Trap (Register R n) :=
  load aligned n (p.offset start).address (p.offset start).data

/-- The product is added in one instruction, if there is one. -/
def mulAdd {n : ℕ} (a b acc : Register R n) : Register R n :=
  if build.avx2 then fmadd a b acc else add (mul a b) acc

def mulAddScalar {n : ℕ} (a b acc : Register R n) : Register R n :=
  if build.avx2 then fmaddScalar a b acc else addScalar (mulScalar a b) acc

/-! ### Multiplication and addition -/

def multiplyAddBlock (aligned : Bool) (n : ℕ) (pf1 pf2 : Pointer R) (y start : ℕ)
    (memory : ℕ → R) : Except Trap (ℕ → R) := do
  let a ← loadAt aligned n pf1 start
  let b ← loadAt aligned n pf2 start
  let acc ← loadAt aligned n ⟨y, memory⟩ start
  store aligned y memory start (mulAdd build a b acc)

def multiplyAddSingle (n : ℕ) [NeZero n] (pf1 pf2 : Pointer R) (start : ℕ) (memory : ℕ → R) :
    Except Trap (ℕ → R) :=
  let a : Register R n := loadScalar n (pf1.offset start).data
  let b := loadScalar n (pf2.offset start).data
  let acc := loadScalar n fun k => memory (start + k)
  .ok (storeScalar memory start (mulAddScalar build a b acc))

/-- The kernel for numbers of which `w` fit into a register of 256 bits and `half` into one of
128 bits. -/
def vectorMultiplyAddInplaceReal (w half : ℕ) [NeZero half]
    (factor1 factor2 accumulator : Pointer R) (numElements alignment : ℕ) :
    Except Trap (Written R) := do
  if !checkAlignment factor1.address alignment then return .error .alignmentError
  if !checkAlignment factor2.address alignment then return .error .alignmentError
  if !checkAlignment accumulator.address alignment then return .error .alignmentError
  let y := accumulator.address
  let mut p : Progress R := ⟨0, numElements, accumulator.data⟩
  if build.avx then
    p ← whileAtLeast w (multiplyAddBlock build (w ≤ alignment) w factor1 factor2 y) p
    if p.count = 0 then return .ok p.memory
  p ← whileAtLeast half (multiplyAddBlock build false half factor1 factor2 y) p
  p ← whileAtLeast 1 (multiplyAddSingle build half factor1 factor2) p
  return .ok p.memory

def vectorMultiplyAddInplaceFloat (factor1 factor2 accumulator : Pointer R)
    (numElements alignment : ℕ) : Except Trap (Written R) :=
  vectorMultiplyAddInplaceReal build 8 4 factor1 factor2 accumulator numElements alignment

def vectorMultiplyAddInplaceDouble (factor1 factor2 accumulator : Pointer R)
    (numElements alignment : ℕ) : Except Trap (Written R) :=
  vectorMultiplyAddInplaceReal build 4 2 factor1 factor2 accumulator numElements alignment

/-- The products of pairs of lanes. -/
def multiplyPairs {m : ℕ} (a b : Register R (4 * m)) : Register R (4 * m) :=
  let aHigh := permute a 0xA0
  let a := permute a 0xF5
  let partRes1 := mul b aHigh
  let b := permute b 0xB1
  let partRes2 := mul b a
  addSub partRes1 partRes2

/-- The products of pairs of lanes and one pair. -/
def scalePairs {m : ℕ} (cReal cImag ab : Register R (4 * m)) : Register R (4 * m) :=
  let acbc := mul cReal ab
  let ba := shuffle ab ab 0xB1
  let bdad := mul cImag ba
  addSub acbc bdad

def complexMultiplyAddBlock (aligned : Bool) (m : ℕ) (pf1 pf2 : Pointer R) (pAcc start : ℕ)
    (memory : ℕ → R) : Except Trap (ℕ → R) := do
  let a ← loadAt aligned (4 * m) pf1 (2 * start)
  let b ← loadAt aligned (4 * m) pf2 (2 * start)
  let acc ← loadAt aligned (4 * m) ⟨pAcc, memory⟩ (2 * start)
  store aligned pAcc memory (2 * start) (add (multiplyPairs a b) acc)

def complexMultiplyAddSingle (pf1 pf2 : Pointer R) (start : ℕ) (memory : ℕ → R) :
    Except Trap (ℕ → R) :=
  let cReal : Register R 4 := broadcast 4 (pf1.data (2 * start))
  let cImag : Register R 4 := broadcast 4 (pf1.data (2 * start + 1))
  let ab := loadLow cReal (pf2.offset (2 * start)).data
  let acc := loadLow cReal fun k => memory (2 * start + k)
  .ok (storeLow memory (2 * start) (add (scalePairs (m := 1) cReal cImag ab) acc))

def vectorMultiplyAddInplaceComplex (factor1 factor2 accumulator : Pointer R)
    (numElements alignment : ℕ) : Except Trap (Written R) := do
  if !checkElementAlignment 2 factor1.address alignment then return .error .alignmentError
  if !checkElementAlignment 2 factor2.address alignment then return .error .alignmentError
  if !checkElementAlignment 2 accumulator.address alignment then return .error .alignmentError
  let pAcc := accumulator.address
  let mut p : Progress R := ⟨0, numElements, accumulator.data⟩
  if build.avx then
    p ← whileAtLeast 4 (complexMultiplyAddBlock (4 ≤ alignment) 2 factor1 factor2 pAcc) p
    if p.count = 0 then return .ok p.memory
    if 2 ≤ alignment then
      p ← whileAtLeast 2 (complexMultiplyAddBlock true 1 factor1 factor2 pAcc) p
  p ← whileAtLeast 1 (complexMultiplyAddSingle factor1 factor2) p
  return .ok p.memory

/-! ### Multiplication by a constant and addition -/

def multiplyConstantAddBlock (alignedLoad alignedStore : Bool) (n : ℕ) (constFactor : R)
    (x : Pointer R) (y start : ℕ) (memory : ℕ → R) : Except Trap (ℕ → R) := do
  let c := broadcast n constFactor
  let a ← loadAt alignedLoad n x start
  let acc ← loadAt alignedLoad n ⟨y, memory⟩ start
  store alignedStore y memory start (mulAdd build a c acc)

def multiplyConstantAddSingle (constFactor : R) (x : Pointer R) (start : ℕ) (memory : ℕ → R) :
    Except Trap (ℕ → R) :=
  let c := broadcast 4 constFactor
  let a : Register R 4 := loadScalar 4 (x.offset start).data
  let acc := loadScalar 4 fun k => memory (start + k)
  .ok (storeScalar memory start (mulAddScalar build a c acc))

/-- The alignments are not checked.  Blocks of four elements are stored with an instruction that
requires an aligned address, but loaded without that requirement. -/
def vectorMultiplyConstantAddInplaceFloat (constFactor : R) (factor accumulator : Pointer R)
    (numElements alignment : ℕ) : Except Trap (Written R) := do
  let y := accumulator.address
  let mut p : Progress R := ⟨0, numElements, accumulator.data⟩
  if build.avx then
    p ← whileAtLeast 8 (multiplyConstantAddBlock build (8 ≤ alignment) (8 ≤ alignment) 8
      constFactor factor y) p
    if p.count = 0 then return .ok p.memory
  p ← whileAtLeast 4 (multiplyConstantAddBlock build false true 4 constFactor factor y) p
  p ← whileAtLeast 1 (multiplyConstantAddSingle build constFactor factor) p
  return .ok p.memory

def complexMultiplyConstantAddBlock (aligned : Bool) (m : ℕ) (constFactor : Complex R)
    (x : Pointer R) (y start : ℕ) (memory : ℕ → R) : Except Trap (ℕ → R) := do
  let cReal : Register R (4 * m) := broadcast (4 * m) constFactor.re
  let cImag : Register R (4 * m) := broadcast (4 * m) constFactor.im
  let ab ← loadAt aligned (4 * m) x (2 * start)
  let acc ← loadAt aligned (4 * m) ⟨y, memory⟩ (2 * start)
  store aligned y memory (2 * start) (add (scalePairs cReal cImag ab) acc)

def complexMultiplyConstantAddSingle (constFactor : Complex R) (x : Pointer R) (start : ℕ)
    (memory : ℕ → R) : Except Trap (ℕ → R) :=
  let cReal : Register R 4 := broadcast 4 constFactor.re
  let cImag : Register R 4 := broadcast 4 constFactor.im
  let ab := loadLow cReal (x.offset (2 * start)).data
  let acc := loadLow cReal fun k => memory (2 * start + k)
  .ok (storeLow memory (2 * start) (add (scalePairs (m := 1) cReal cImag ab) acc))

/-- The alignments are not checked. -/
def vectorMultiplyConstantAddInplaceComplex (constFactor : Complex R)
    (factor accumulator : Pointer R) (numElements alignment : ℕ) : Except Trap (Written R) := do
  let y := accumulator.address
  let mut p : Progress R := ⟨0, numElements, accumulator.data⟩
  if build.avx then
    p ← whileAtLeast 4 (complexMultiplyConstantAddBlock (4 ≤ alignment) 2 constFactor factor y) p
    if p.count = 0 then return .ok p.memory
  if 2 ≤ alignment then
    p ← whileAtLeast 2 (complexMultiplyConstantAddBlock true 1 constFactor factor y) p
  p ← whileAtLeast 1 (complexMultiplyConstantAddSingle constFactor factor) p
  return .ok p.memory

/-! ### Multiplication -/

def multiplyBlock (aligned : Bool) (n : ℕ) (pf1 pf2 : Pointer R) (pRes start : ℕ)
    (memory : ℕ → R) : Except Trap (ℕ → R) := do
  let a ← loadAt aligned n pf1 start
  let b ← loadAt aligned n pf2 start
  store aligned pRes memory start (mul a b)

def multiplySingle (n : ℕ) [NeZero n] (pf1 pf2 : Pointer R) (start : ℕ) (memory : ℕ → R) :
    Except Trap (ℕ → R) :=
  let a : Register R n := loadScalar n (pf1.offset start).data
  let b := loadScalar n (pf2.offset start).data
  .ok (storeScalar memory start (mulScalar a b))

/-- The kernel for numbers of which `w` fit into a register of 256 bits and `half` into one of
128 bits. -/
def vectorMultiplyReal (w half : ℕ) [NeZero half] (factor1 factor2 result : Pointer R)
    (numElements alignment : ℕ) : Except Trap (Written R) := do
  if !checkAlignment factor1.address alignment then return .error .alignmentError
  if !checkAlignment factor2.address alignment then return .error .alignmentError
  if !checkAlignment result.address alignment then return .error .alignmentError
  let mut p : Progress R := ⟨0, numElements, result.data⟩
  if build.avx then
    p ← whileAtLeast w (multiplyBlock (w ≤ alignment) w factor1 factor2 result.address) p
  p ← whileAtLeast 1 (multiplySingle half factor1 factor2) p
  return .ok p.memory

def vectorMultiplyFloat (factor1 factor2 result : Pointer R) (numElements alignment : ℕ) :
    Except Trap (Written R) :=
  vectorMultiplyReal build 8 4 factor1 factor2 result numElements alignment

def vectorMultiplyDouble (factor1 factor2 result : Pointer R) (numElements alignment : ℕ) :
    Except Trap (Written R) :=
  vectorMultiplyReal build 4 2 factor1 factor2 result numElements alignment

def complexMultiplyBlock (alignedLoad alignedStore : Bool) (m : ℕ) (pf1 pf2 : Pointer R)
    (pRes start : ℕ) (memory : ℕ → R) : Except Trap (ℕ → R) := do
  let a ← loadAt alignedLoad (4 * m) pf1 (2 * start)
  let b ← loadAt alignedLoad (4 * m) pf2 (2 * start)
  store alignedStore pRes memory (2 * start) (multiplyPairs a b)

def complexMultiplySingle (pf1 pf2 : Pointer R) (start : ℕ) (memory : ℕ → R) :
    Except Trap (ℕ → R) :=
  let cReal : Register R 4 := broadcast 4 (pf1.data (2 * start))
  let cImag : Register R 4 := broadcast 4 (pf1.data (2 * start + 1))
  let ab := loadLow cReal (pf2.offset (2 * start)).data
  .ok (storeLow memory (2 * start) (scalePairs (m := 1) cReal cImag ab))

def vectorMultiplyComplex (factor1 factor2 result : Pointer R) (numElements alignment : ℕ) :
    Except Trap (Written R) := do
  if !checkElementAlignment 2 factor1.address alignment then return .error .alignmentError
  if !checkElementAlignment 2 factor2.address alignment then return .error .alignmentError
  if !checkElementAlignment 2 result.address alignment then return .error .alignmentError
  let pRes := result.address
  let mut p : Progress R := ⟨0, numElements, result.data⟩
  if build.avx then
    p ← whileAtLeast 4 (complexMultiplyBlock (4 ≤ alignment) (4 ≤ alignment) 2 factor1 factor2
      pRes) p
    if p.count = 0 then return .ok p.memory
    if 2 ≤ alignment then
      p ← whileAtLeast 2 (complexMultiplyBlock false true 1 factor1 factor2 pRes) p
  p ← whileAtLeast 1 (complexMultiplySingle factor1 factor2) p
  return .ok p.memory

/-! ### Scaling with a ramp -/

def rampScalingBlock (aligned : Bool) (n : ℕ) (base gain : Register R n) (accumulate : Bool)
    (input ramp : Pointer R) (output start : ℕ) (memory : ℕ → R) : Except Trap (ℕ → R) := do
  let rampPart ← loadAt aligned n ramp start
  let inPart ← loadAt aligned n input start
  let scale := mulAdd build rampPart gain base
  if accumulate then
    let outPart ← loadAt aligned n ⟨output, memory⟩ start
    store aligned output memory start (mulAdd build scale inPart outPart)
  else store aligned output memory start (mul scale inPart)

def rampScalingSingle (base gain : Register R 4) (accumulate : Bool) (input ramp : Pointer R)
    (start : ℕ) (memory : ℕ → R) : Except Trap (ℕ → R) :=
  let rampPart := loadScalar 4 (ramp.offset start).data
  let inPart := loadScalar 4 (input.offset start).data
  let scale := addScalar (mul rampPart gain) base
  if accumulate then
    let outPart := loadScalar 4 fun k => memory (start + k)
    .ok (storeScalar memory start (addScalar (mul scale inPart) outPart))
  else .ok (storeScalar memory start (mul scale inPart))

/-- A number in all lanes of a register of 128 bits. -/
def splat (c : R) : Register R 4 :=
  if build.avx then broadcast 4 c
  else
    let scalar : Register R 4 := loadScalar 4 fun _ => c
    shuffle (m := 1) scalar scalar 0x00

/-- The alignments are checked in debug builds only. -/
def vectorRampScaling (input ramp output : Pointer R) (baseGain rampGain : R)
    (numberOfElements : ℕ) (accumulate : Bool) (alignmentElements : ℕ) :
    Except Trap (Written R) := do
  if build.debug && !checkAlignment input.address alignmentElements then
    return .error .alignmentError
  if build.debug && !checkAlignment ramp.address alignmentElements then
    return .error .alignmentError
  if build.debug && !checkAlignment output.address alignmentElements then
    return .error .alignmentError
  let mut p : Progress R := ⟨0, numberOfElements, output.data⟩
  if build.avx then
    p ← whileAtLeast 8 (rampScalingBlock build (8 ≤ alignmentElements) 8 (broadcast 8 baseGain)
      (broadcast 8 rampGain) accumulate input ramp output.address) p
  p ← whileAtLeast 4 (rampScalingBlock build (4 ≤ alignmentElements) 4 (splat build baseGain)
    (splat build rampGain) accumulate input ramp output.address) p
  p ← whileAtLeast 1 (rampScalingSingle (splat build baseGain) (splat build rampGain) accumulate
    input ramp) p
  return .ok p.memory

end Kernels

end IntelX86_64

end Visr
