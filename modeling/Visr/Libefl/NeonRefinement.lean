import Mathlib.Algebra.QuadraticAlgebra.Basic
import Mathlib.Algebra.Ring.Int.Defs
import Mathlib.Tactic.FinCases
import Mathlib.Tactic.Ring
import Visr.Libefl.NeonKernels

/-!
# The kernels for ARM processors compute what the vector functions do

## Main results

* `Armv7lNeon32bit.blockKernel_eq`, `Armv7lNeon32bit.pairKernel_eq` — loops over blocks.
* `Armv7lNeon32bit.runFloat_eq`, `Armv7lNeon32bit.runComplex_eq` — the kernels element by element.
* `Armv7lNeon32bit.run_refines` — **the kernels do what the vector functions do**.
-/

namespace Visr.Armv7lNeon32bit

open ArrayKernel
open Simd (Register broadcast add mul)

/-! ### Loops over blocks -/

section Kernels

variable {R : Type} {k c w : ℕ} {o : Operands k} {g : (Fin k → Fin c → R) → Fin c → R}

/-- An operation on registers that does the same in each lane. -/
def LaneWise (op : (Fin k → Fin c → Register R w) → Fin c → Register R w)
    (g : (Fin k → Fin c → R) → Fin c → R) : Prop :=
  ∀ x e i, op x e i = g (fun j e => x j e i) e

theorem LaneWise.isBlockOf {op : (Fin k → Fin c → Register R w) → Fin c → Register R w}
    (h : LaneWise op g) : IsBlockOf (onRegisters op) g :=
  fun _ p => h _ p.modNat p.divNat

/-- It does not matter what the other lane holds. -/
theorem LaneWise.onLane_eq {op : (Fin k → Fin c → Register R 2) → Fin c → Register R 2}
    (h : LaneWise op g) (registers : ℕ → ℕ → Register R 2) : onLane registers op = g := by
  funext x e
  exact h _ e 0

/-- The last element of an array. -/
theorem once_last {body : ℕ → AddressSpace R → Option (AddressSpace R)} {p : Progress R}
    (hcount : p.count < 2)
    (hbody : ∀ start memory, body start memory = transform g (o.offset (start * c)) memory) :
    ((once 1 body p).bind fun p => some p.memory) = p.remaining g o := by
  apply once_bind
  · intro _ memory
    rw [hbody, elementwise_one]
  · intro memory hle
    have hzero : p.count - 1 = 0 := by omega
    unfold Progress.remaining
    rw [hzero, elementwise_zero]
  · intro hlt
    have hzero : p.count = 0 := by omega
    unfold Progress.remaining
    rw [hzero, elementwise_zero]

variable {numElements : ℕ} {m : AddressSpace R}

/-- **A kernel with registers for four and for two elements.** -/
theorem blockKernel_eq {quad : (Fin k → Fin c → Register R 4) → Fin c → Register R 4}
    {pair : (Fin k → Fin c → Register R 2) → Fin c → Register R 2}
    (registers : ℕ → ℕ → Register R 2) (hquad : LaneWise quad g) (hpair : LaneWise pair g)
    (hseparate : o.Separate (min 4 numElements * c)) :
    blockKernel registers quad pair o numElements m = elementwise g o 0 numElements m := by
  unfold blockKernel
  refine whileAtLeast_bind (g := g) (o := o) (p := ⟨0, numElements, m⟩) (by decide) ?_ ?_
  · intro hle start memory
    apply transform_eq_elementwise hquad.isBlockOf
    exact hseparate.mono (Nat.mul_le_mul_right c (le_min le_rfl hle))
  · intro p hlt hcount
    refine once_bind ?_ ?_ ?_
    · intro hle memory
      apply transform_eq_elementwise hpair.isBlockOf
      exact hseparate.mono (Nat.mul_le_mul_right c (le_min (by decide) (hle.trans hcount)))
    · intro memory hle
      refine once_last (by dsimp only; omega) fun start memory => ?_
      rw [hpair.onLane_eq]
    · intro hlt
      refine once_last hlt fun start memory => ?_
      rw [hpair.onLane_eq]

/-- **A kernel with registers for two elements and for one.** -/
theorem pairKernel_eq {g : (Fin k → Fin 2 → R) → Fin 2 → R}
    {quad : (Fin k → Register R (2 * 2)) → Register R (2 * 2)}
    {pair : (Fin k → Register R 2) → Register R 2}
    (hquad : IsBlockOf quad g) (hpair : pair = g)
    (hseparate : o.Separate (min 4 numElements * 2)) :
    pairKernel quad pair o numElements m = elementwise g o 0 numElements m := by
  unfold pairKernel
  refine whileAtLeast_bind (g := g) (o := o) (p := ⟨0, numElements, m⟩) (by decide) ?_ ?_
  · intro hle start memory
    apply transform_eq_elementwise hquad
    exact hseparate.mono (Nat.mul_le_mul_right 2 (le_min (by decide) hle))
  · intro p hlt _
    refine once_last hlt fun start memory => ?_
    rw [hpair]

end Kernels

/-! ### Calls -/

/-- The calls of the vector functions, without the number of elements and the alignment. -/
inductive Call (T : Type)
  | add (op1 op2 result : ℕ)
  | addInplace (op1 op2Result : ℕ)
  | addConstant (constantValue : T) (op result : ℕ)
  | addConstantInplace (constantValue : T) (opResult : ℕ)
  | multiply (factor1 factor2 result : ℕ)
  | multiplyInplace (factor1 factor2Result : ℕ)
  | multiplyConstant (constantValue : T) (factor result : ℕ)
  | multiplyConstantInplace (constantValue : T) (factorResult : ℕ)
  | multiplyAdd (factor1 factor2 addend result : ℕ)
  | multiplyAddInplace (factor1 factor2 accumulator : ℕ)
  | multiplyConstantAdd (constFactor : T) (factor addend result : ℕ)
  | multiplyConstantAddInplace (constFactor : T) (factor accumulator : ℕ)

/-- Arrays, and what is made of their elements. -/
structure Combination (T : Type) where
  arity : ℕ
  operands : Operands arity
  element : (Fin arity → T) → T

/-- The elements one after the other. -/
def Combination.elements {R T : Type} (layout : Layout R T) (b : Combination T) (numElements : ℕ)
    (m : AddressSpace R) : Option (AddressSpace R) :=
  elementwise (fun x => layout.encode (b.element fun j => layout.decode (x j))) b.operands 0
    numElements m

theorem Combination.elements_of_mapped {R T : Type} (layout : Layout R T) (b : Combination T)
    {numElements : ℕ} {m : AddressSpace R}
    (h : b.operands.Mapped m (numElements * layout.size)) :
    ∃ m', b.elements layout numElements m = some m' ∧ m'.mapped = m.mapped ∧
      ∀ p, p < b.operands.result ∨ b.operands.result + numElements * layout.size ≤ p →
        m'.value p = m.value p := by
  have hstart : (b.operands.offset (0 * layout.size)).Mapped m (numElements * layout.size) := by
    rw [Nat.zero_mul]
    exact h
  obtain ⟨m', hrun, hsame, hrest⟩ := elementwise_of_mapped hstart
  refine ⟨m', hrun, hsame, fun p hp => hrest p ?_⟩
  rwa [Nat.zero_mul, Nat.add_zero, Nat.zero_add]

namespace Call

variable {R T : Type}

/-- The vector function for all processors. -/
def reference [CommRing T] (layout : Layout R T) : Call T → ℕ → ℕ → AddressSpace R → Outcome R
  | add op1 op2 result => Reference.vectorAdd layout op1 op2 result
  | addInplace op1 op2Result => Reference.vectorAddInplace layout op1 op2Result
  | addConstant c op result => Reference.vectorAddConstant layout c op result
  | addConstantInplace c opResult => Reference.vectorAddConstantInplace layout c opResult
  | multiply factor1 factor2 result => Reference.vectorMultiply layout factor1 factor2 result
  | multiplyInplace factor1 factor2Result =>
    Reference.vectorMultiplyInplace layout factor1 factor2Result
  | multiplyConstant c factor result => Reference.vectorMultiplyConstant layout c factor result
  | multiplyConstantInplace c factorResult =>
    Reference.vectorMultiplyConstantInplace layout c factorResult
  | multiplyAdd factor1 factor2 addend result =>
    Reference.vectorMultiplyAdd layout factor1 factor2 addend result
  | multiplyAddInplace factor1 factor2 accumulator =>
    Reference.vectorMultiplyAddInplace layout factor1 factor2 accumulator
  | multiplyConstantAdd c factor addend result =>
    Reference.vectorMultiplyConstantAdd layout c factor addend result
  | multiplyConstantAddInplace c factor accumulator =>
    Reference.vectorMultiplyConstantAddInplace layout c factor accumulator

/-- The kernel for real numbers. -/
def runFloat [CommRing R] (build : Build R) : Call R → ℕ → ℕ → AddressSpace R → Outcome R
  | add op1 op2 result => vectorAddFloat build op1 op2 result
  | addInplace op1 op2Result => vectorAddInplaceFloat build op1 op2Result
  | addConstant c op result => vectorAddConstantFloat build c op result
  | addConstantInplace c opResult => vectorAddConstantInplaceFloat build c opResult
  | multiply factor1 factor2 result => vectorMultiplyFloat build factor1 factor2 result
  | multiplyInplace factor1 factor2Result =>
    vectorMultiplyInplaceFloat build factor1 factor2Result
  | multiplyConstant c factor result => vectorMultiplyConstantFloat build c factor result
  | multiplyConstantInplace c factorResult =>
    vectorMultiplyConstantInplaceFloat build c factorResult
  | multiplyAdd factor1 factor2 addend result =>
    vectorMultiplyAddFloat build factor1 factor2 addend result
  | multiplyAddInplace factor1 factor2 accumulator =>
    vectorMultiplyAddInplaceFloat build factor1 factor2 accumulator
  | multiplyConstantAdd c factor addend result =>
    vectorMultiplyConstantAddFloat build c factor addend result
  | multiplyConstantAddInplace c factor accumulator =>
    vectorMultiplyConstantAddInplaceFloat build c factor accumulator

/-- The kernel for complex numbers. -/
def runComplex [CommRing R] (build : Build R) :
    Call (Complex R) → ℕ → ℕ → AddressSpace R → Outcome R
  | add op1 op2 result => vectorAddComplex build op1 op2 result
  | addInplace op1 op2Result => vectorAddInplaceComplex build op1 op2Result
  | addConstant c op result => vectorAddConstantComplex build c op result
  | addConstantInplace c opResult => vectorAddConstantInplaceComplex build c opResult
  | multiply factor1 factor2 result => vectorMultiplyComplex build factor1 factor2 result
  | multiplyInplace factor1 factor2Result =>
    vectorMultiplyInplaceComplex build factor1 factor2Result
  | multiplyConstant c factor result => vectorMultiplyConstantComplex build c factor result
  | multiplyConstantInplace c factorResult =>
    vectorMultiplyConstantInplaceComplex build c factorResult
  | multiplyAdd factor1 factor2 addend result =>
    vectorMultiplyAddComplex build factor1 factor2 addend result
  | multiplyAddInplace factor1 factor2 accumulator =>
    vectorMultiplyAddInplaceComplex build factor1 factor2 accumulator
  | multiplyConstantAdd c factor addend result =>
    vectorMultiplyConstantAddComplex build c factor addend result
  | multiplyConstantAddInplace c factor accumulator =>
    vectorMultiplyConstantAddInplaceComplex build c factor accumulator

/-! #### What a call computes -/

/-- The addresses whose alignment is checked. -/
def addresses : Call T → List ℕ
  | add op1 op2 result => [op1, op2, result]
  | addInplace op1 op2Result => [op1, op2Result]
  | addConstant _ op result => [op, result]
  | addConstantInplace _ opResult => [opResult]
  | multiply factor1 factor2 result => [factor1, factor2, result]
  | multiplyInplace factor1 factor2Result => [factor1, factor2Result]
  | multiplyConstant _ factor result => [factor, result]
  | multiplyConstantInplace _ factorResult => [factorResult]
  | multiplyAdd factor1 factor2 addend result => [factor1, factor2, addend, result]
  | multiplyAddInplace factor1 factor2 accumulator => [factor1, factor2, accumulator]
  | multiplyConstantAdd _ factor addend result => [factor, addend, result]
  | multiplyConstantAddInplace _ factor accumulator => [factor, accumulator]

/-- The arrays, and an element of the result. -/
def combination [CommRing T] : Call T → Combination T
  | add op1 op2 result => ⟨2, ⟨![op1, op2], result⟩, binary fun a b => a + b⟩
  | addInplace op1 op2Result => ⟨2, ⟨![op1, op2Result], op2Result⟩, binary fun a b => b + a⟩
  | addConstant c op result => ⟨1, ⟨![op], result⟩, unary fun x => x + c⟩
  | addConstantInplace c opResult => ⟨1, ⟨![opResult], opResult⟩, unary fun x => x + c⟩
  | multiply factor1 factor2 result => ⟨2, ⟨![factor1, factor2], result⟩, binary fun a b => a * b⟩
  | multiplyInplace factor1 factor2Result =>
    ⟨2, ⟨![factor1, factor2Result], factor2Result⟩, binary fun a b => b * a⟩
  | multiplyConstant c factor result => ⟨1, ⟨![factor], result⟩, unary fun x => c * x⟩
  | multiplyConstantInplace c factorResult =>
    ⟨1, ⟨![factorResult], factorResult⟩, unary fun x => x * c⟩
  | multiplyAdd factor1 factor2 addend result =>
    ⟨3, ⟨![factor1, factor2, addend], result⟩, ternary fun x y z => z + x * y⟩
  | multiplyAddInplace factor1 factor2 accumulator =>
    ⟨3, ⟨![factor1, factor2, accumulator], accumulator⟩, ternary fun x y z => z + x * y⟩
  | multiplyConstantAdd c factor addend result =>
    ⟨2, ⟨![factor, addend], result⟩, binary fun a b => b + c * a⟩
  | multiplyConstantAddInplace c factor accumulator =>
    ⟨2, ⟨![factor, accumulator], accumulator⟩, binary fun a b => b + c * a⟩

theorem reference_eq [CommRing T] (layout : Layout R T) (call : Call T)
    (numElements alignment : ℕ) (m : AddressSpace R) :
    call.reference layout numElements alignment m =
      checked true layout.size call.addresses alignment
        (call.combination.elements layout numElements m) := by
  cases call <;> rfl

end Call

/-! ### Kernels for real numbers -/

section Float

variable {R : Type} [CommRing R] {build : Build R} {k numElements alignment : ℕ}
variable {m : AddressSpace R}

omit [CommRing R] in
theorem floatKernel_eq {operands : List ℕ} {o : Operands k}
    {quad : (Fin k → Register R 4) → Register R 4} {pair : (Fin k → Register R 2) → Register R 2}
    {f : (Fin k → R) → R} (hquad : ∀ x i, quad x i = f fun j => x j i)
    (hpair : ∀ x i, pair x i = f fun j => x j i) (hseparate : o.Separate (min 4 numElements * 1)) :
    floatKernel build operands o quad pair numElements alignment m =
      checked build.debug 1 operands alignment
        (Combination.elements (floatLayout R) ⟨k, o, f⟩ numElements m) := by
  unfold floatKernel
  refine congrArg (checked build.debug 1 operands alignment) (blockKernel_eq build.registers ?_ ?_
    hseparate)
  · intro x _ i
    exact hquad (fun j => x j 0) i
  · intro x _ i
    exact hpair (fun j => x j 0) i

theorem runFloat_eq (call : Call R)
    (hseparate : call.combination.operands.Separate (min 4 numElements * 1)) :
    call.runFloat build numElements alignment m =
      checked build.debug 1 call.addresses alignment
        (call.combination.elements (floatLayout R) numElements m) := by
  -- the goals of each case are the elements of the blocks, and those of the rest
  cases call with
  | add op1 op2 result =>
    rw [Call.runFloat, vectorAddFloat]
    refine floatKernel_eq (fun x i => ?_) (fun x i => ?_) hseparate
    · rfl
    · rfl
  | addInplace op1 op2Result =>
    rw [Call.runFloat, vectorAddInplaceFloat]
    refine floatKernel_eq (fun x i => ?_) (fun x i => ?_) hseparate
    · exact add_comm _ _
    · exact add_comm _ _
  | addConstant c op result =>
    rw [Call.runFloat, vectorAddConstantFloat]
    refine floatKernel_eq (fun x i => ?_) (fun x i => ?_) hseparate
    · rfl
    · exact add_comm _ _
  | addConstantInplace c opResult =>
    rw [Call.runFloat, vectorAddConstantInplaceFloat]
    refine floatKernel_eq (fun x i => ?_) (fun x i => ?_) hseparate
    · rfl
    · exact add_comm _ _
  | multiply factor1 factor2 result =>
    rw [Call.runFloat, vectorMultiplyFloat]
    refine floatKernel_eq (fun x i => ?_) (fun x i => ?_) hseparate
    · rfl
    · rfl
  | multiplyInplace factor1 factor2Result =>
    rw [Call.runFloat, vectorMultiplyInplaceFloat]
    refine floatKernel_eq (fun x i => ?_) (fun x i => ?_) hseparate
    · exact mul_comm _ _
    · exact mul_comm _ _
  | multiplyConstant c factor result =>
    rw [Call.runFloat, vectorMultiplyConstantFloat]
    refine floatKernel_eq (fun x i => ?_) (fun x i => ?_) hseparate
    · exact mul_comm _ _
    · rfl
  | multiplyConstantInplace c factorResult =>
    rw [Call.runFloat, vectorMultiplyConstantInplaceFloat]
    refine floatKernel_eq (fun x i => ?_) (fun x i => ?_) hseparate
    · rfl
    · exact mul_comm _ _
  | multiplyAdd factor1 factor2 addend result =>
    rw [Call.runFloat, vectorMultiplyAddFloat]
    refine floatKernel_eq (fun x i => ?_) (fun x i => ?_) hseparate
    · rfl
    · rfl
  | multiplyAddInplace factor1 factor2 accumulator =>
    rw [Call.runFloat, vectorMultiplyAddInplaceFloat]
    refine floatKernel_eq (fun x i => ?_) (fun x i => ?_) hseparate
    · rfl
    · rfl
  | multiplyConstantAdd c factor addend result =>
    rw [Call.runFloat, vectorMultiplyConstantAddFloat]
    refine floatKernel_eq (fun x i => ?_) (fun x i => ?_) hseparate
    · exact congrArg _ (mul_comm _ _)
    · exact congrArg _ (mul_comm _ _)
  | multiplyConstantAddInplace c factor accumulator =>
    rw [Call.runFloat, vectorMultiplyConstantAddInplaceFloat]
    refine floatKernel_eq (fun x i => ?_) (fun x i => ?_) hseparate
    · exact congrArg _ (mul_comm _ _)
    · exact congrArg _ (mul_comm _ _)

end Float

/-! ### Kernels for complex numbers -/

section Complex

variable {R : Type} [CommRing R] {build : Build R} {k w numElements alignment : ℕ}
variable {m : AddressSpace R}

/-- A complex number, one part of which is in a lane of each register. -/
abbrev lane (x : Fin 2 → Register R w) (i : Fin w) : Complex R :=
  (complexLayout R).decode fun e => x e i

theorem lane_eq (x : Fin 2 → Register R w) (i : Fin w) : lane x i = ⟨val0 x i, val1 x i⟩ := rfl

theorem complexMul_apply (f1 f2 : Fin 2 → Register R w) (e : Fin 2) (i : Fin w) :
    complexMul f1 f2 e i = (complexLayout R).encode (lane f1 i * lane f2 i) e := by
  rw [lane_eq, lane_eq]
  fin_cases e
  · simp [complexMul, mls, mul, complexLayout]
    ring
  · simp [complexMul, mla, mul, complexLayout]

theorem complexMla_apply (res f1 f2 : Fin 2 → Register R w) (e : Fin 2) (i : Fin w) :
    complexMla res f1 f2 e i =
      (complexLayout R).encode (lane res i + lane f1 i * lane f2 i) e := by
  rw [lane_eq, lane_eq, lane_eq]
  fin_cases e
  · simp [complexMla, mls, mla, complexLayout]
    ring
  · simp [complexMla, mla, complexLayout]
    ring

@[simp] theorem lane_complexBroadcast (c : Complex R) (i : Fin w) :
    lane (complexBroadcast w c) i = c := rfl

/-- The products with a constant. -/
theorem complexMul_broadcast (f : Fin 2 → Register R w) (c : Complex R) (e : Fin 2) (i : Fin w) :
    complexMul f (complexBroadcast w c) e i = (complexLayout R).encode (c * lane f i) e := by
  rw [complexMul_apply, lane_complexBroadcast, mul_comm]

theorem complexMla_broadcast (res f : Fin 2 → Register R w) (c : Complex R) (e : Fin 2)
    (i : Fin w) : complexMla res f (complexBroadcast w c) e i =
      (complexLayout R).encode (lane res i + c * lane f i) e := by
  rw [complexMla_apply, lane_complexBroadcast, mul_comm]

theorem complexKernel_eq {check : Bool} {operands : List ℕ} {o : Operands k}
    {quad : (Fin k → Fin 2 → Register R 4) → Fin 2 → Register R 4}
    {pair : (Fin k → Fin 2 → Register R 2) → Fin 2 → Register R 2}
    {f : (Fin k → Complex R) → Complex R}
    (hquad : ∀ x e i, quad x e i = (complexLayout R).encode (f fun j => lane (x j) i) e)
    (hpair : ∀ x e i, pair x e i = (complexLayout R).encode (f fun j => lane (x j) i) e)
    (hseparate : o.Separate (min 4 numElements * 2)) :
    complexKernel build check operands o quad pair numElements alignment m =
      checked check 2 operands alignment
        (Combination.elements (complexLayout R) ⟨k, o, f⟩ numElements m) := by
  unfold complexKernel
  exact congrArg (checked check 2 operands alignment)
    (blockKernel_eq build.registers hquad hpair hseparate)

theorem encode_decode (x : Fin 2 → R) (e : Fin 2) :
    (complexLayout R).encode ((complexLayout R).decode x) e = x e := by
  fin_cases e
  · rfl
  · rfl

theorem encode_add (a b : Complex R) (e : Fin 2) :
    (complexLayout R).encode (a + b) e =
      (complexLayout R).encode a e + (complexLayout R).encode b e := by
  fin_cases e
  · rfl
  · rfl

/-- One of two complex numbers in a register. -/
def part (x : Register R (2 * 2)) (p : Fin (2 * 2)) : Complex R :=
  (complexLayout R).decode fun i => x (finProdFinEquiv (p.divNat, i))

theorem encode_part (x : Register R (2 * 2)) (p : Fin (2 * 2)) :
    (complexLayout R).encode (part x p) p.modNat = x p := by
  refine (encode_decode _ _).trans ?_
  exact congrArg x (finProdFinEquiv.apply_symm_apply p)

theorem encode_constant (c : Complex R) (p : Fin (2 * 2)) :
    (complexLayout R).encode c p.modNat = ![c.re, c.im, c.re, c.im] p := by
  fin_cases p
  · rfl
  · rfl
  · rfl
  · rfl

theorem complexSumKernel_eq {operands : List ℕ} {o : Operands k}
    {quad : (Fin k → Register R (2 * 2)) → Register R (2 * 2)}
    {pair : (Fin k → Register R 2) → Register R 2} {f : (Fin k → Complex R) → Complex R}
    (hquad : ∀ x p, quad x p = (complexLayout R).encode (f fun j => part (x j) p) p.modNat)
    (hpair : ∀ x e, pair x e =
      (complexLayout R).encode (f fun j => (complexLayout R).decode (x j)) e)
    (hseparate : o.Separate (min 4 numElements * 2)) :
    complexSumKernel build operands o quad pair numElements alignment m =
      checked build.debug 2 operands alignment
        (Combination.elements (complexLayout R) ⟨k, o, f⟩ numElements m) := by
  unfold complexSumKernel
  refine congrArg (checked build.debug 2 operands alignment) (pairKernel_eq hquad ?_ hseparate)
  funext x e
  exact hpair x e

/-- Whether the alignments are checked. -/
def Call.checksAlignment {T : Type} (build : Build R) : Call T → Bool
  | multiplyAddInplace .. => true
  | _ => build.debug

theorem runComplex_eq (call : Call (Complex R))
    (hseparate : call.combination.operands.Separate (min 4 numElements * 2)) :
    call.runComplex build numElements alignment m =
      checked (call.checksAlignment build) 2 call.addresses alignment
        (call.combination.elements (complexLayout R) numElements m) := by
  -- sums work on the parts of a register, products on its complex numbers
  cases call with
  | add op1 op2 result =>
    rw [Call.runComplex, vectorAddComplex]
    refine complexSumKernel_eq (fun x p => ?_) (fun x e => ?_) hseparate
    · show x 0 p + x 1 p = (complexLayout R).encode (part (x 0) p + part (x 1) p) p.modNat
      rw [encode_add, encode_part, encode_part]
    · show x 0 e + x 1 e = (complexLayout R).encode
        ((complexLayout R).decode (x 0) + (complexLayout R).decode (x 1)) e
      rw [encode_add, encode_decode, encode_decode]
  | addInplace op1 op2Result =>
    rw [Call.runComplex, vectorAddInplaceComplex]
    refine complexSumKernel_eq (fun x p => ?_) (fun x e => ?_) hseparate
    · show x 0 p + x 1 p = (complexLayout R).encode (part (x 1) p + part (x 0) p) p.modNat
      rw [encode_add, encode_part, encode_part, add_comm]
    · show x 0 e + x 1 e = (complexLayout R).encode
        ((complexLayout R).decode (x 1) + (complexLayout R).decode (x 0)) e
      rw [encode_add, encode_decode, encode_decode, add_comm]
  | addConstant c op result =>
    rw [Call.runComplex, vectorAddConstantComplex]
    refine complexSumKernel_eq (fun x p => ?_) (fun x e => ?_) hseparate
    · show x 0 p + ![c.re, c.im, c.re, c.im] p =
        (complexLayout R).encode (part (x 0) p + c) p.modNat
      rw [encode_add, encode_part, encode_constant]
    · show x 0 e + ![c.re, c.im] e = (complexLayout R).encode ((complexLayout R).decode (x 0) + c) e
      rw [encode_add, encode_decode]
      rfl
  | addConstantInplace c opResult =>
    rw [Call.runComplex, vectorAddConstantInplaceComplex]
    refine complexSumKernel_eq (fun x p => ?_) (fun x e => ?_) hseparate
    · show ![c.re, c.im, c.re, c.im] p + x 0 p =
        (complexLayout R).encode (part (x 0) p + c) p.modNat
      rw [encode_add, encode_part, encode_constant, add_comm]
    · show ![c.re, c.im] e + x 0 e = (complexLayout R).encode ((complexLayout R).decode (x 0) + c) e
      rw [encode_add, encode_decode, add_comm]
      rfl
  | multiply factor1 factor2 result =>
    rw [Call.runComplex, vectorMultiplyComplex]
    refine complexKernel_eq (fun x e i => ?_) (fun x e i => ?_) hseparate
    · exact complexMul_apply _ _ e i
    · exact complexMul_apply _ _ e i
  | multiplyInplace factor1 factor2Result =>
    rw [Call.runComplex, vectorMultiplyInplaceComplex]
    refine complexKernel_eq (fun x e i => ?_) (fun x e i => ?_) hseparate
    · refine (complexMul_apply (x 0) (x 1) e i).trans ?_
      rw [mul_comm]
      rfl
    · refine (complexMul_apply (x 0) (x 1) e i).trans ?_
      rw [mul_comm]
      rfl
  | multiplyConstant c factor result =>
    rw [Call.runComplex, vectorMultiplyConstantComplex]
    refine complexKernel_eq (fun x e i => ?_) (fun x e i => ?_) hseparate
    · exact complexMul_broadcast (x 0) c e i
    · exact complexMul_broadcast (x 0) c e i
  | multiplyConstantInplace c factorResult =>
    rw [Call.runComplex, vectorMultiplyConstantInplaceComplex]
    refine complexKernel_eq (fun x e i => ?_) (fun x e i => ?_) hseparate
    · exact complexMul_apply (x 0) (complexBroadcast _ c) e i
    · exact complexMul_apply (x 0) (complexBroadcast _ c) e i
  | multiplyAdd factor1 factor2 addend result =>
    rw [Call.runComplex, vectorMultiplyAddComplex]
    refine complexKernel_eq (fun x e i => ?_) (fun x e i => ?_) hseparate
    · exact complexMla_apply _ _ _ e i
    · exact complexMla_apply _ _ _ e i
  | multiplyAddInplace factor1 factor2 accumulator =>
    rw [Call.runComplex, vectorMultiplyAddInplaceComplex]
    refine complexKernel_eq (fun x e i => ?_) (fun x e i => ?_) hseparate
    · exact complexMla_apply _ _ _ e i
    · exact complexMla_apply _ _ _ e i
  | multiplyConstantAdd c factor addend result =>
    rw [Call.runComplex, vectorMultiplyConstantAddComplex]
    refine complexKernel_eq (fun x e i => ?_) (fun x e i => ?_) hseparate
    · exact complexMla_broadcast (x 1) (x 0) c e i
    · exact complexMla_broadcast (x 1) (x 0) c e i
  | multiplyConstantAddInplace c factor accumulator =>
    rw [Call.runComplex, vectorMultiplyConstantAddInplaceComplex]
    refine complexKernel_eq (fun x e i => ?_) (fun x e i => ?_) hseparate
    · exact complexMla_broadcast (x 1) (x 0) c e i
    · exact complexMla_broadcast (x 1) (x 0) c e i

end Complex

/-! ### All calls -/

/-- The calls with real and with complex numbers. -/
inductive Invocation (R : Type) [CommRing R]
  | float (call : Call R)
  | complex (call : Call (Complex R))

namespace Invocation

variable {R : Type} [CommRing R]

/-- The kernel. -/
def run (build : Build R) : Invocation R → ℕ → ℕ → AddressSpace R → Outcome R
  | float call => call.runFloat build
  | complex call => call.runComplex build

/-- The vector function for all processors. -/
def reference : Invocation R → ℕ → ℕ → AddressSpace R → Outcome R
  | float call => call.reference (floatLayout R)
  | complex call => call.reference (complexLayout R)

/-- The alignment that the kernel requires, if there is a check. -/
def requiredAlignment (build : Build R) (alignment : ℕ) : Invocation R → ℕ
  | float _ => if build.debug then alignment else 0
  | complex call => if call.checksAlignment build then alignment else 0

def elementSize : Invocation R → ℕ
  | float _ => 1
  | complex _ => 2

def result : Invocation R → ℕ
  | float call => call.combination.operands.result
  | complex call => call.combination.operands.result

/-- All elements of the arrays can be accessed. -/
def Mapped (f : Invocation R) (numElements : ℕ) (m : AddressSpace R) : Prop :=
  match f with
  | float call => call.combination.operands.Mapped m (numElements * f.elementSize)
  | complex call => call.combination.operands.Mapped m (numElements * f.elementSize)

/-- The result does not begin after the first but among the first four elements of an input. -/
def Separate (f : Invocation R) (numElements : ℕ) : Prop :=
  match f with
  | float call => call.combination.operands.Separate (min 4 numElements * f.elementSize)
  | complex call => call.combination.operands.Separate (min 4 numElements * f.elementSize)

end Invocation

section Checks

variable {R : Type} {elementSize alignment : ℕ} {operands : List ℕ}
variable {loops : Option (AddressSpace R)}

theorem checked_eq (enabled : Bool) :
    checked enabled elementSize operands alignment loops =
      checked true elementSize operands (if enabled then alignment else 0) loops := by
  cases enabled with
  | false => simp [checked, checkElementAlignment]
  | true => rfl

theorem checked_of_ok {enabled : Bool} {m' : AddressSpace R}
    (h : checked true elementSize operands alignment loops = some (.ok m')) :
    checked enabled elementSize operands alignment loops = some (.ok m') := by
  unfold checked at h ⊢
  split at h
  next => cases h
  next hchecks =>
    rw [if_neg, h]
    intro hfails
    exact hchecks ((Bool.and_eq_true_iff.mp hfails).2)

end Checks

variable {R : Type} [CommRing R]

/-- A kernel and the vector function consist of checks and the same loops. -/
theorem exists_loops (build : Build R) (f : Invocation R) (numElements : ℕ) (m : AddressSpace R)
    (hseparate : f.Separate numElements) :
    ∃ (enabled : Bool) (operands : List ℕ) (loops : Option (AddressSpace R)),
      (∀ alignment, f.run build numElements alignment m =
        checked enabled f.elementSize operands alignment loops) ∧
      (∀ alignment, f.reference numElements alignment m =
        checked true f.elementSize operands alignment loops) ∧
      (∀ alignment, f.requiredAlignment build alignment = if enabled then alignment else 0) ∧
      (f.Mapped numElements m → ∃ m', loops = some m' ∧ m'.mapped = m.mapped ∧
        ∀ p, p < f.result ∨ f.result + numElements * f.elementSize ≤ p →
          m'.value p = m.value p) := by
  cases f with
  | float call =>
    exact ⟨build.debug, call.addresses, call.combination.elements (floatLayout R) numElements m,
      fun _ => runFloat_eq call hseparate, fun alignment => call.reference_eq _ _ alignment m,
      fun _ => rfl, fun h => call.combination.elements_of_mapped (floatLayout R) h⟩
  | complex call =>
    exact ⟨call.checksAlignment build, call.addresses,
      call.combination.elements (complexLayout R) numElements m,
      fun _ => runComplex_eq call hseparate, fun alignment => call.reference_eq _ _ alignment m,
      fun _ => rfl, fun h => call.combination.elements_of_mapped (complexLayout R) h⟩

/-- **The kernels do what the vector functions do**, with the alignment that they require.  They
access nothing but the elements of the arrays, and change nothing but those of the result. -/
theorem run_refines (build : Build R) (f : Invocation R) (numElements alignment : ℕ)
    (m : AddressSpace R) (hseparate : f.Separate numElements) :
    f.run build numElements alignment m =
        f.reference numElements (f.requiredAlignment build alignment) m ∧
      (∀ m', f.reference numElements alignment m = some (.ok m') →
        f.run build numElements alignment m = some (.ok m')) ∧
      (f.Mapped numElements m → ∃ r, f.run build numElements alignment m = some r ∧
        ∀ m', r = .ok m' → m'.mapped = m.mapped ∧
          ∀ p, p < f.result ∨ f.result + numElements * f.elementSize ≤ p →
            m'.value p = m.value p) := by
  obtain ⟨enabled, operands, loops, hrun, hreference, hrequired, hmapped⟩ :=
    exists_loops build f numElements m hseparate
  refine ⟨?_, fun m' hok => ?_, fun h => ?_⟩
  · rw [hrun, hreference, hrequired, checked_eq]
  · rw [hreference] at hok
    rw [hrun, checked_of_ok hok]
  · obtain ⟨m₁, rfl, hsame, hrest⟩ := hmapped h
    rw [hrun]
    unfold checked
    split
    next => exact ⟨_, rfl, nofun⟩
    next =>
      refine ⟨_, rfl, fun m' hm' => ?_⟩
      cases hm'
      exact ⟨hsame, hrest⟩

/-- Seven products of complex numbers in a release build, where nothing but the arrays can be
accessed. -/
theorem run_refines_seven :
    let f : Invocation ℤ := .complex (.multiplyAdd 0 20 40 60)
    let m : AddressSpace ℤ := ⟨fun p => p < 80 && p % 20 < 14, fun p => p⟩
    (∀ alignment, f.run ⟨false, fun _ _ _ => 0⟩ 7 alignment m = f.reference 7 0 m) ∧
      ∃ r, f.run ⟨false, fun _ _ _ => 0⟩ 7 3 m = some r := by
  intro f m
  have hseparate : f.Separate 7 :=
    show Operands.Separate ⟨![0, 20, 40], 60⟩ (min 4 7 * 2) by decide
  have hmapped : f.Mapped 7 m :=
    show Operands.Mapped ⟨![0, 20, 40], 60⟩ m (7 * 2) by decide
  refine ⟨fun alignment => (run_refines _ f 7 alignment m hseparate).1, ?_⟩
  obtain ⟨r, hr, -⟩ := (run_refines ⟨false, fun _ _ _ => 0⟩ f 7 3 m hseparate).2.2 hmapped
  exact ⟨r, hr⟩

/-- A result that begins at the second element of an input, and arrays that are not aligned in a
release build. -/
theorem not_run_refines :
    let build : Build ℤ := ⟨false, fun _ _ _ => 0⟩
    let m : AddressSpace ℤ := ⟨fun _ => true, fun _ => 1⟩
    let overlapping : Invocation ℤ := .float (.multiplyConstant 2 0 1)
    let unaligned : Invocation ℤ := .float (.multiplyConstant 2 1 9)
    (overlapping.Mapped 4 m ∧
        overlapping.run build 4 0 m ≠ overlapping.reference 4 0 m) ∧
      unaligned.Mapped 4 m ∧ unaligned.Separate 4 ∧
        unaligned.run build 4 4 m ≠ unaligned.reference 4 4 m := by
  intro build m overlapping unaligned
  -- the number at an address, if there is no error
  let valueAt (p : ℕ) (r : Outcome ℤ) : Option (Option ℤ) :=
    r.map fun q => q.toOption.map fun m => m.value p
  refine ⟨⟨?_, fun h => ?_⟩, ?_, ?_, fun h => ?_⟩
  · exact show Operands.Mapped ⟨![0], 1⟩ m (4 * 1) by decide
  · have hvalue := congrArg (valueAt 2) h
    revert hvalue
    decide
  · exact show Operands.Mapped ⟨![1], 9⟩ m (4 * 1) by decide
  · exact show Operands.Separate ⟨![1], 9⟩ (min 4 4 * 1) by decide
  · have hvalue := congrArg (valueAt 9) h
    revert hvalue
    decide

end Visr.Armv7lNeon32bit
