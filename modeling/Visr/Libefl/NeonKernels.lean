import Visr.Libefl.SimdKernels
import Visr.Library.ArrayKernels

/-!
# Kernels for 32 bit ARM processors

The vector functions that are written with the vector instructions of these processors, and those
for all processors.  Addresses are counted in numbers, of which a complex number has two.
-/

namespace Visr

open ArrayKernel
open Matrix (vecHead vecTail)

/-! ### Functions of several arguments -/

section Arguments

variable {α β : Type}

def unary (f : α → β) (x : Fin 1 → α) : β := f (vecHead x)

def binary (f : α → α → β) (x : Fin 2 → α) : β := f (vecHead x) (vecHead (vecTail x))

def ternary (f : α → α → α → β) (x : Fin 3 → α) : β :=
  f (vecHead x) (vecHead (vecTail x)) (vecHead (vecTail (vecTail x)))

end Arguments

/-! ### Elements in memory -/

/-- How the elements of an array are stored. -/
structure Layout (R T : Type) where
  size : ℕ
  decode : (Fin size → R) → T
  encode : T → Fin size → R

def floatLayout (R : Type) : Layout R R := ⟨1, vecHead, fun a _ => a⟩

def complexLayout (R : Type) [CommRing R] : Layout R (Complex R) :=
  ⟨2, binary fun re im => ⟨re, im⟩, fun z => ![z.re, z.im]⟩

/-- What a function returns and leaves in memory, unless it accesses an address that is not
mapped. -/
abbrev Outcome (R : Type) := Option (Except ErrorCode (AddressSpace R))

/-- The checks of alignments, if there are any, and the loops of a function. -/
def checked {R : Type} (enabled : Bool) (elementSize : ℕ) (operands : List ℕ) (alignment : ℕ)
    (loops : Option (AddressSpace R)) : Outcome R :=
  if enabled && !operands.all (checkElementAlignment elementSize · alignment) then
    some (.error .alignmentError)
  else loops.map .ok

/-! ### The vector functions -/

namespace Reference

variable {R T : Type} (layout : Layout R T) {k : ℕ}

/-- A function that combines the elements of its inputs one after the other. -/
def elementKernel (operands : List ℕ) (o : Operands k) (f : (Fin k → T) → T)
    (numElements alignment : ℕ) (m : AddressSpace R) : Outcome R :=
  checked true layout.size operands alignment
    (elementwise (fun x => layout.encode (f fun j => layout.decode (x j))) o 0 numElements m)

variable [CommRing T]

def vectorAdd (op1 op2 result : ℕ) : ℕ → ℕ → AddressSpace R → Outcome R :=
  elementKernel layout [op1, op2, result] ⟨![op1, op2], result⟩ (binary fun a b => a + b)

def vectorAddInplace (op1 op2Result : ℕ) : ℕ → ℕ → AddressSpace R → Outcome R :=
  elementKernel layout [op1, op2Result] ⟨![op1, op2Result], op2Result⟩ (binary fun a b => b + a)

def vectorAddConstant (constantValue : T) (op result : ℕ) :
    ℕ → ℕ → AddressSpace R → Outcome R :=
  elementKernel layout [op, result] ⟨![op], result⟩ (unary fun x => x + constantValue)

def vectorAddConstantInplace (constantValue : T) (opResult : ℕ) :
    ℕ → ℕ → AddressSpace R → Outcome R :=
  elementKernel layout [opResult] ⟨![opResult], opResult⟩ (unary fun x => x + constantValue)

def vectorMultiply (factor1 factor2 result : ℕ) : ℕ → ℕ → AddressSpace R → Outcome R :=
  elementKernel layout [factor1, factor2, result] ⟨![factor1, factor2], result⟩
    (binary fun a b => a * b)

def vectorMultiplyInplace (factor1 factor2Result : ℕ) : ℕ → ℕ → AddressSpace R → Outcome R :=
  elementKernel layout [factor1, factor2Result] ⟨![factor1, factor2Result], factor2Result⟩
    (binary fun a b => b * a)

def vectorMultiplyConstant (constantValue : T) (factor result : ℕ) :
    ℕ → ℕ → AddressSpace R → Outcome R :=
  elementKernel layout [factor, result] ⟨![factor], result⟩ (unary fun x => constantValue * x)

def vectorMultiplyConstantInplace (constantValue : T) (factorResult : ℕ) :
    ℕ → ℕ → AddressSpace R → Outcome R :=
  elementKernel layout [factorResult] ⟨![factorResult], factorResult⟩
    (unary fun x => x * constantValue)

def vectorMultiplyAdd (factor1 factor2 addend result : ℕ) :
    ℕ → ℕ → AddressSpace R → Outcome R :=
  elementKernel layout [factor1, factor2, addend, result] ⟨![factor1, factor2, addend], result⟩
    (ternary fun a b c => c + a * b)

def vectorMultiplyAddInplace (factor1 factor2 accumulator : ℕ) :
    ℕ → ℕ → AddressSpace R → Outcome R :=
  elementKernel layout [factor1, factor2, accumulator]
    ⟨![factor1, factor2, accumulator], accumulator⟩ (ternary fun a b c => c + a * b)

def vectorMultiplyConstantAdd (constFactor : T) (factor addend result : ℕ) :
    ℕ → ℕ → AddressSpace R → Outcome R :=
  elementKernel layout [factor, addend, result] ⟨![factor, addend], result⟩
    (binary fun a b => b + constFactor * a)

def vectorMultiplyConstantAddInplace (constFactor : T) (factor accumulator : ℕ) :
    ℕ → ℕ → AddressSpace R → Outcome R :=
  elementKernel layout [factor, accumulator] ⟨![factor, accumulator], accumulator⟩
    (binary fun a b => b + constFactor * a)

end Reference

namespace Armv7lNeon32bit

open Simd (Register broadcast add mul)

/-- Whether `NDEBUG` is not defined, and what registers hold that have not been initialised. -/
structure Build (R : Type) where
  debug : Bool
  registers : ℕ → ℕ → Register R 2

/-! ### Registers -/

section Registers

variable {R : Type} {k c w : ℕ}

/-- `vmla_f32`, `vmlaq_f32`. -/
def mla [Add R] [Mul R] (a b c : Register R w) : Register R w := fun i => a i + b i * c i

/-- `vmls_f32`, `vmlsq_f32`. -/
def mls [Sub R] [Mul R] (a b c : Register R w) : Register R w := fun i => a i - b i * c i

/-- `vld1_f32`, `vld2_f32` and the like, for elements of `c` numbers: there is a register for the
first numbers of the elements, one for the second numbers, and so on. -/
def deinterleave (x : Fin (w * c) → R) : Fin c → Register R w :=
  fun e i => x (finProdFinEquiv (i, e))

/-- An operation on blocks that are loaded with `vld1_f32`, `vld2_f32` and the like, and stored with
`vst1_f32`, `vst2_f32` and the like. -/
def onRegisters (op : (Fin k → Fin c → Register R w) → Fin c → Register R w)
    (x : Fin k → Fin (w * c) → R) : Fin (w * c) → R :=
  fun p => op (fun j => deinterleave (x j)) p.modNat p.divNat

/-- `vld1_lane_f32`, `vld2_lane_f32` for the lane 0. -/
def loadLane (x : R) (a : Register R 2) : Register R 2 := fun i => if i.val = 0 then x else a i

/-- An operation on elements that are loaded with `vld1_lane_f32` and `vld2_lane_f32`, and stored
with `vst1_lane_f32` and `vst2_lane_f32`. -/
def onLane (registers : ℕ → ℕ → Register R 2)
    (op : (Fin k → Fin c → Register R 2) → Fin c → Register R 2) (x : Fin k → Fin c → R) :
    Fin c → R :=
  fun e => vecHead (op (fun j e => loadLane (x j e) (registers j e)) e)

/-- Blocks of four elements, of two elements, and a single element. -/
def blockKernel (registers : ℕ → ℕ → Register R 2)
    (quad : (Fin k → Fin c → Register R 4) → Fin c → Register R 4)
    (pair : (Fin k → Fin c → Register R 2) → Fin c → Register R 2) (o : Operands k)
    (numElements : ℕ) (m : AddressSpace R) : Option (AddressSpace R) := do
  let p ← whileAtLeast 4 (fun start => transform (onRegisters quad) (o.offset (start * c)))
    ⟨0, numElements, m⟩
  let p ← once 2 (fun start => transform (onRegisters pair) (o.offset (start * c))) p
  let p ← once 1 (fun start => transform (onLane registers pair) (o.offset (start * c))) p
  return p.memory

/-- Blocks of two complex numbers, and a single complex number. -/
def pairKernel (quad : (Fin k → Register R (2 * 2)) → Register R (2 * 2))
    (pair : (Fin k → Register R 2) → Register R 2) (o : Operands k) (numElements : ℕ)
    (m : AddressSpace R) : Option (AddressSpace R) := do
  let p ← whileAtLeast 2 (fun start => transform quad (o.offset (start * 2))) ⟨0, numElements, m⟩
  let p ← once 1 (fun start => transform pair (o.offset (start * 2))) p
  return p.memory

end Registers

/-! ### Kernels for real numbers -/

section Float

variable {R : Type} [CommRing R] (build : Build R) {k : ℕ}

/-- A kernel for arrays of real numbers, which checks alignments in debug builds. -/
def floatKernel (operands : List ℕ) (o : Operands k)
    (quad : (Fin k → Register R 4) → Register R 4) (pair : (Fin k → Register R 2) → Register R 2)
    (numElements alignment : ℕ) (m : AddressSpace R) : Outcome R :=
  checked build.debug 1 operands alignment
    (blockKernel (c := 1) build.registers (fun x _ => quad fun j => vecHead (x j))
      (fun x _ => pair fun j => vecHead (x j)) o numElements m)

def vectorAddFloat (addend1 addend2 result : ℕ) : ℕ → ℕ → AddressSpace R → Outcome R :=
  floatKernel build [addend1, addend2, result] ⟨![addend1, addend2], result⟩
    (binary add) (binary add)

def vectorAddInplaceFloat (addend1 addend2Result : ℕ) : ℕ → ℕ → AddressSpace R → Outcome R :=
  floatKernel build [addend1, addend2Result] ⟨![addend1, addend2Result], addend2Result⟩
    (binary add) (binary add)

def vectorAddConstantFloat (constantValue : R) (addend result : ℕ) :
    ℕ → ℕ → AddressSpace R → Outcome R :=
  floatKernel build [addend, result] ⟨![addend], result⟩
    (unary fun a => add a (broadcast 4 constantValue))
    (unary fun a => add (broadcast 2 constantValue) a)

def vectorAddConstantInplaceFloat (constantValue : R) (addendResult : ℕ) :
    ℕ → ℕ → AddressSpace R → Outcome R :=
  floatKernel build [addendResult] ⟨![addendResult], addendResult⟩
    (unary fun a => add a (broadcast 4 constantValue))
    (unary fun a => add (broadcast 2 constantValue) a)

def vectorMultiplyFloat (factor1 factor2 result : ℕ) : ℕ → ℕ → AddressSpace R → Outcome R :=
  floatKernel build [factor1, factor2, result] ⟨![factor1, factor2], result⟩
    (binary mul) (binary mul)

def vectorMultiplyInplaceFloat (factor1 factor2Result : ℕ) :
    ℕ → ℕ → AddressSpace R → Outcome R :=
  floatKernel build [factor1, factor2Result] ⟨![factor1, factor2Result], factor2Result⟩
    (binary mul) (binary mul)

def vectorMultiplyConstantFloat (constantValue : R) (factor result : ℕ) :
    ℕ → ℕ → AddressSpace R → Outcome R :=
  floatKernel build [factor, result] ⟨![factor], result⟩
    (unary fun f => mul f (broadcast 4 constantValue))
    (unary fun f => mul (broadcast 2 constantValue) f)

def vectorMultiplyConstantInplaceFloat (constantValue : R) (factorResult : ℕ) :
    ℕ → ℕ → AddressSpace R → Outcome R :=
  floatKernel build [factorResult] ⟨![factorResult], factorResult⟩
    (unary fun f => mul f (broadcast 4 constantValue))
    (unary fun f => mul (broadcast 2 constantValue) f)

def vectorMultiplyAddFloat (factor1 factor2 addend result : ℕ) :
    ℕ → ℕ → AddressSpace R → Outcome R :=
  floatKernel build [factor1, factor2, addend, result] ⟨![factor1, factor2, addend], result⟩
    (ternary fun f1 f2 acc => mla acc f1 f2) (ternary fun f1 f2 acc => mla acc f1 f2)

def vectorMultiplyAddInplaceFloat (factor1 factor2 accumulator : ℕ) :
    ℕ → ℕ → AddressSpace R → Outcome R :=
  floatKernel build [factor1, factor2, accumulator]
    ⟨![factor1, factor2, accumulator], accumulator⟩
    (ternary fun f1 f2 acc => mla acc f1 f2) (ternary fun f1 f2 acc => mla acc f1 f2)

def vectorMultiplyConstantAddFloat (constFactor : R) (factor addend result : ℕ) :
    ℕ → ℕ → AddressSpace R → Outcome R :=
  floatKernel build [factor, addend, result] ⟨![factor, addend], result⟩
    (binary fun f acc => mla acc f (broadcast 4 constFactor))
    (binary fun f acc => mla acc f (broadcast 2 constFactor))

def vectorMultiplyConstantAddInplaceFloat (constFactor : R) (factor accumulator : ℕ) :
    ℕ → ℕ → AddressSpace R → Outcome R :=
  floatKernel build [factor, accumulator] ⟨![factor, accumulator], accumulator⟩
    (binary fun f acc => mla acc f (broadcast 4 constFactor))
    (binary fun f acc => mla acc f (broadcast 2 constFactor))

end Float

/-! ### Kernels for complex numbers -/

section Complex

variable {R : Type} [CommRing R] (build : Build R) {k w : ℕ}

/-- The sums of neighbouring numbers, which are checked in debug builds. -/
def complexSumKernel (operands : List ℕ) (o : Operands k)
    (quad : (Fin k → Register R (2 * 2)) → Register R (2 * 2))
    (pair : (Fin k → Register R 2) → Register R 2) (numElements alignment : ℕ)
    (m : AddressSpace R) : Outcome R :=
  checked build.debug 2 operands alignment (pairKernel quad pair o numElements m)

def vectorAddComplex (addend1 addend2 result : ℕ) : ℕ → ℕ → AddressSpace R → Outcome R :=
  complexSumKernel build [addend1, addend2, result] ⟨![addend1, addend2], result⟩
    (binary add) (binary add)

def vectorAddInplaceComplex (addend1 addend2Result : ℕ) : ℕ → ℕ → AddressSpace R → Outcome R :=
  complexSumKernel build [addend1, addend2Result] ⟨![addend1, addend2Result], addend2Result⟩
    (binary add) (binary add)

def vectorAddConstantComplex (constantValue : Complex R) (addend result : ℕ) :
    ℕ → ℕ → AddressSpace R → Outcome R :=
  let rV := constantValue.re
  let iV := constantValue.im
  complexSumKernel build [addend, result] ⟨![addend], result⟩
    (unary fun a => add a ![rV, iV, rV, iV]) (unary fun a => add a ![rV, iV])

def vectorAddConstantInplaceComplex (constantValue : Complex R) (addendResult : ℕ) :
    ℕ → ℕ → AddressSpace R → Outcome R :=
  let rV := constantValue.re
  let iV := constantValue.im
  complexSumKernel build [addendResult] ⟨![addendResult], addendResult⟩
    (unary fun a => add ![rV, iV, rV, iV] a) (unary fun a => add ![rV, iV] a)

/-- `val[0]`, the real parts. -/
def val0 (f : Fin 2 → Register R w) : Register R w := vecHead f

/-- `val[1]`, the imaginary parts. -/
def val1 (f : Fin 2 → Register R w) : Register R w := vecHead (vecTail f)

/-- A complex number in all lanes. -/
def complexBroadcast (w : ℕ) (c : Complex R) : Fin 2 → Register R w :=
  ![broadcast w c.re, broadcast w c.im]

/-- The products of the lanes. -/
def complexMul (f1 f2 : Fin 2 → Register R w) : Fin 2 → Register R w :=
  ![mls (mul (val0 f1) (val0 f2)) (val1 f1) (val1 f2),
    mla (mul (val0 f1) (val1 f2)) (val1 f1) (val0 f2)]

/-- The products of the lanes are added. -/
def complexMla (res f1 f2 : Fin 2 → Register R w) : Fin 2 → Register R w :=
  ![mls (mla (val0 res) (val0 f1) (val0 f2)) (val1 f1) (val1 f2),
    mla (mla (val1 res) (val0 f1) (val1 f2)) (val1 f1) (val0 f2)]

/-- A kernel for arrays of complex numbers. -/
def complexKernel (check : Bool) (operands : List ℕ) (o : Operands k)
    (quad : (Fin k → Fin 2 → Register R 4) → Fin 2 → Register R 4)
    (pair : (Fin k → Fin 2 → Register R 2) → Fin 2 → Register R 2) (numElements alignment : ℕ)
    (m : AddressSpace R) : Outcome R :=
  checked check 2 operands alignment (blockKernel build.registers quad pair o numElements m)

def vectorMultiplyComplex (factor1 factor2 result : ℕ) : ℕ → ℕ → AddressSpace R → Outcome R :=
  complexKernel build build.debug [factor1, factor2, result] ⟨![factor1, factor2], result⟩
    (binary complexMul) (binary complexMul)

def vectorMultiplyInplaceComplex (factor1 factor2Result : ℕ) :
    ℕ → ℕ → AddressSpace R → Outcome R :=
  complexKernel build build.debug [factor1, factor2Result]
    ⟨![factor1, factor2Result], factor2Result⟩
    (binary complexMul) (binary complexMul)

def vectorMultiplyConstantComplex (constantValue : Complex R) (factor result : ℕ) :
    ℕ → ℕ → AddressSpace R → Outcome R :=
  complexKernel build build.debug [factor, result] ⟨![factor], result⟩
    (unary fun f => complexMul f (complexBroadcast 4 constantValue))
    (unary fun f => complexMul f (complexBroadcast 2 constantValue))

def vectorMultiplyConstantInplaceComplex (constantValue : Complex R) (factorResult : ℕ) :
    ℕ → ℕ → AddressSpace R → Outcome R :=
  complexKernel build build.debug [factorResult] ⟨![factorResult], factorResult⟩
    (unary fun f => complexMul f (complexBroadcast 4 constantValue))
    (unary fun f => complexMul f (complexBroadcast 2 constantValue))

def vectorMultiplyAddComplex (factor1 factor2 addend result : ℕ) :
    ℕ → ℕ → AddressSpace R → Outcome R :=
  complexKernel build build.debug [factor1, factor2, addend, result]
    ⟨![factor1, factor2, addend], result⟩
    (ternary fun f1 f2 acc => complexMla acc f1 f2)
    (ternary fun f1 f2 acc => complexMla acc f1 f2)

/-- The alignments are checked in all builds. -/
def vectorMultiplyAddInplaceComplex (factor1 factor2 accumulator : ℕ) :
    ℕ → ℕ → AddressSpace R → Outcome R :=
  complexKernel build true [factor1, factor2, accumulator]
    ⟨![factor1, factor2, accumulator], accumulator⟩
    (ternary fun f1 f2 acc => complexMla acc f1 f2)
    (ternary fun f1 f2 acc => complexMla acc f1 f2)

def vectorMultiplyConstantAddComplex (constFactor : Complex R) (factor addend result : ℕ) :
    ℕ → ℕ → AddressSpace R → Outcome R :=
  complexKernel build build.debug [factor, addend, result] ⟨![factor, addend], result⟩
    (binary fun f acc => complexMla acc f (complexBroadcast 4 constFactor))
    (binary fun f acc => complexMla acc f (complexBroadcast 2 constFactor))

def vectorMultiplyConstantAddInplaceComplex (constFactor : Complex R) (factor accumulator : ℕ) :
    ℕ → ℕ → AddressSpace R → Outcome R :=
  complexKernel build build.debug [factor, accumulator] ⟨![factor, accumulator], accumulator⟩
    (binary fun f acc => complexMla acc f (complexBroadcast 4 constFactor))
    (binary fun f acc => complexMla acc f (complexBroadcast 2 constFactor))

end Complex

end Armv7lNeon32bit

end Visr
