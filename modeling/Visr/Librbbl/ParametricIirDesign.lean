import Mathlib.Analysis.SpecialFunctions.Pow.Real
import Visr.Library.SecondOrderSection
import Visr.Librcl.ObjectGainEqCalculator

/-!
# Designs of parametric equalisers

The formulas of the equaliser sections, over the real numbers.  The same function is evaluated with
numbers that become undefined where it would divide by zero.

## Main results

* `ParametricIir.design_quotient` — a design is the quotient of two quadratic polynomials.
* `ParametricIir.stable_denominator` — the denominator is in the stability triangle.
* `ParametricIir.design_stable_nominal` — **designs are stable and have their nominal gains**.
-/

namespace Visr

open FloatArithmetic

variable {F : Type}

/-! ### Checked numbers -/

/-- A number, or the result of an operation that is not defined. -/
def CheckedNumber (F : Type) := Option F

namespace CheckedNumber

/-- A number that is defined. -/
def of (x : F) : CheckedNumber F := some x

/-- A function without restrictions. -/
def lift (f : F → F) (x : CheckedNumber F) : CheckedNumber F := Option.map f x

/-- An operation without restrictions. -/
def lift₂ (f : F → F → F) (x y : CheckedNumber F) : CheckedNumber F :=
  Option.bind x fun x => Option.map (f x) y

variable [FloatArithmetic F]

/-- The division, for a divisor other than zero. -/
def div (x y : CheckedNumber F) : CheckedNumber F :=
  Option.bind x fun x => Option.bind y fun y => if y = 0 then none else some (x / y)

/-- A comparison, which is false if an operand is not defined. -/
def compare (r : F → F → Bool) (x y : CheckedNumber F) : Bool :=
  (Option.bind x fun x => Option.map (r x) y).getD false

instance [NeZero (1 : F)] : FloatArithmetic (CheckedNumber F) where
  zero := of 0
  one := of 1
  add := lift₂ (· + ·)
  mul := lift₂ (· * ·)
  div := div
  decidableEq := inferInstanceAs (DecidableEq (Option F))
  le := compare le
  lt := compare lt
  abs := lift abs
  cos := lift cos
  sin := lift sin
  epsilon := of FloatArithmetic.epsilon
  degree := of FloatArithmetic.degree
  div_one := by
    rintro (_ | x)
    · rfl
    · exact (if_neg (NeZero.ne 1)).trans (congrArg some (FloatArithmetic.div_one x))

@[simp] theorem lift_of {F : Type} (f : F → F) (x : F) : lift f (of x) = of (f x) := rfl

@[simp] theorem lift₂_of {F : Type} (f : F → F → F) (x y : F) :
    lift₂ f (of x) (of y) = of (f x y) := rfl

section Values

variable [NeZero (1 : F)] (x : F) {y : F}

@[simp] theorem add_of : of x + of y = of (x + y) := rfl

@[simp] theorem mul_of : of x * of y = of (x * y) := rfl

@[simp] theorem sin_of : sin (of x) = of (sin x) := rfl

@[simp] theorem cos_of : cos (of x) = of (cos x) := rfl

@[simp] theorem one_eq : (1 : CheckedNumber F) = of 1 := rfl

@[simp] theorem zero_eq : (0 : CheckedNumber F) = of 0 := rfl

@[simp] theorem div_of (hy : y ≠ 0) : of x / of y = of (x / y) := if_neg hy

end Values

end CheckedNumber

/-- The parameters with their numbers replaced. -/
def ParametricIirCoefficient.map {G : Type} (f : F → G) (param : ParametricIirCoefficient F) :
    ParametricIirCoefficient G :=
  ⟨param.type, f param.frequency, f param.quality, f param.gain⟩

/-- The coefficients with their numbers replaced. -/
def BiquadCoefficient.map {G : Type} (f : F → G) (coeffs : BiquadCoefficient F) :
    BiquadCoefficient G :=
  ⟨f coeffs.b0, f coeffs.b1, f coeffs.b2, f coeffs.a1, f coeffs.a2⟩

namespace IirMath

variable [FloatArithmetic F] (math : IirMath F)

/-- The functions for checked numbers.  Negative numbers have no square root. -/
def checked : IirMath (CheckedNumber F) where
  neg := CheckedNumber.lift math.neg
  sub := CheckedNumber.lift₂ math.sub
  sqrt x := Option.bind x fun x => if lt x 0 then none else some (math.sqrt x)
  pi := .of math.pi
  dB2linear := CheckedNumber.lift math.dB2linear

/-- The intermediate values `alpha`, `cw0` and `A`, and the root of `A`. -/
structure Intermediate (F : Type) where
  alpha : F
  cw0 : F
  A : F
  Asqrt : F

def intermediate (param : ParametricIirCoefficient F) (samplingFrequency : F) : Intermediate F :=
  let w0 := (1 + 1) * math.pi * param.frequency / samplingFrequency
  let A := math.sqrt (math.dB2linear param.gain)
  ⟨sin w0 / ((1 + 1) * param.quality), cos w0, A, math.sqrt A⟩

/-- The leading coefficient `a0` that a section is normalised with. -/
def leading (type : ParametricIirType) (v : Intermediate F) : F :=
  match type with
  | .lowpass | .highpass | .bandpass | .bandstop | .allpass => 1 + v.alpha
  | .peak => 1 + v.alpha / v.A
  | .lowshelf => (v.A + 1) + math.sub v.A 1 * v.cw0 + (1 + 1) * v.Asqrt * v.alpha
  | .highshelf => math.sub (v.A + 1) (math.sub v.A 1 * v.cw0) + (1 + 1) * v.Asqrt * v.alpha

/-- All operations of the formulas are defined. -/
structure Regular (param : ParametricIirCoefficient F) (samplingFrequency : F) : Prop where
  rate : samplingFrequency ≠ 0
  quality : (1 + 1) * param.quality ≠ 0
  gain : lt (math.dB2linear param.gain) 0 = false
  amplitude : (math.intermediate param samplingFrequency).A ≠ 0
  nonneg : lt (math.intermediate param samplingFrequency).A 0 = false
  leading : math.leading param.type (math.intermediate param samplingFrequency) ≠ 0
  twice : (1 + 1) * math.leading param.type (math.intermediate param samplingFrequency) ≠ 0

@[simp] theorem checked_pi : math.checked.pi = .of math.pi := rfl

@[simp] theorem checked_neg_of (x : F) : math.checked.neg (.of x) = .of (math.neg x) := rfl

@[simp] theorem checked_sub_of (x y : F) :
    math.checked.sub (.of x) (.of y) = .of (math.sub x y) := rfl

@[simp] theorem checked_dB2linear_of (x : F) :
    math.checked.dB2linear (.of x) = .of (math.dB2linear x) := rfl

theorem checked_sqrt_of {x : F} (hx : lt x 0 = false) :
    math.checked.sqrt (.of x) = .of (math.sqrt x) :=
  if_neg (by rw [hx]; exact Bool.false_ne_true)

/-- No operation of the formulas is undefined. -/
theorem Regular.calculate_checked [NeZero (1 : F)] {math : IirMath F}
    {param : ParametricIirCoefficient F} {samplingFrequency : F}
    (h : math.Regular param samplingFrequency) :
    math.checked.calculateIirCoefficients (param.map .of) (.of samplingFrequency) =
      (math.calculateIirCoefficients param samplingFrequency).map .of := by
  obtain ⟨hrate, hquality, hgain, hA, hnonneg, hleading, htwice⟩ := h
  obtain ⟨type, frequency, quality, gain⟩ := param
  have hsqrt := math.checked_sqrt_of hgain
  have hsqrt' := math.checked_sqrt_of hnonneg
  cases type <;>
    simp only [intermediate, IirMath.leading] at hA hsqrt' hleading htwice <;>
    simp [calculateIirCoefficients, ParametricIirCoefficient.map, BiquadCoefficient.map, *]

end IirMath

/-! ### Transfer functions -/

namespace BiquadCoefficient

/-- The transfer function of a section, where `a0` is one. -/
noncomputable def transferFunction (coeffs : BiquadCoefficient ℝ) (z : ℂ) : ℂ :=
  (coeffs.b0 + coeffs.b1 * z⁻¹ + coeffs.b2 * z⁻¹ ^ 2) /
    (1 + coeffs.a1 * z⁻¹ + coeffs.a2 * z⁻¹ ^ 2)

/-- All poles are inside of the unit circle. -/
def PolesInside (coeffs : BiquadCoefficient ℝ) : Prop :=
  ∀ z : ℂ, z ^ 2 + coeffs.a1 * z + coeffs.a2 = 0 → ‖z‖ < 1

/-- The section of two polynomials, normalised with the leading coefficient of the denominator. -/
noncomputable def quotient (num den : QuadraticPolynomial) : BiquadCoefficient ℝ :=
  ⟨num.c0 / den.c0, num.c1 / den.c0, num.c2 / den.c0, den.c1 / den.c0, den.c2 / den.c0⟩

theorem transferFunction_quotient (num : QuadraticPolynomial) {den : QuadraticPolynomial}
    (h : den.c0 ≠ 0) (z : ℂ) :
    (quotient num den).transferFunction z = num.eval z⁻¹ / den.eval z⁻¹ := by
  have hlead : (den.c0 : ℂ) ≠ 0 := Complex.ofReal_ne_zero.mpr h
  have hnum : num.eval z⁻¹ = den.c0 * ((num.c0 / den.c0 : ℝ) + (num.c1 / den.c0 : ℝ) * z⁻¹ +
      (num.c2 / den.c0 : ℝ) * z⁻¹ ^ 2) := by
    push_cast
    rw [QuadraticPolynomial.eval]
    field_simp
  have hden : den.eval z⁻¹ = den.c0 * (1 + (den.c1 / den.c0 : ℝ) * z⁻¹ +
      (den.c2 / den.c0 : ℝ) * z⁻¹ ^ 2) := by
    push_cast
    rw [QuadraticPolynomial.eval]
    field_simp
  rw [hnum, hden, mul_div_mul_left _ _ hlead]
  rfl

theorem polesInside_quotient (num : QuadraticPolynomial) {den : QuadraticPolynomial}
    (h : den.Stable) : (quotient num den).PolesInside := by
  intro z hz
  by_contra hout
  have hlead : (den.c0 : ℂ) ≠ 0 := Complex.ofReal_ne_zero.mpr h.c0_pos.ne'
  have hnorm : 1 ≤ ‖z‖ := not_lt.mp hout
  have hne : z ≠ 0 := norm_pos_iff.mp (one_pos.trans_le hnorm)
  refine h.eval_ne_zero (w := z⁻¹) ?_ ?_
  · rw [norm_inv]
    exact inv_le_one_of_one_le₀ hnorm
  · simp only [quotient] at hz
    push_cast at hz
    rw [QuadraticPolynomial.eval]
    field_simp at hz ⊢
    linear_combination hz

/-- The inequalities of the stability triangle, for normalised coefficients. -/
theorem abs_quotient_lt (num : QuadraticPolynomial) {den : QuadraticPolynomial} (h : den.Stable) :
    |(quotient num den).a2| < 1 ∧ |(quotient num den).a1| < 1 + (quotient num den).a2 := by
  have hpos := h.c0_pos
  simp only [quotient, abs_div, abs_of_pos hpos]
  constructor
  · exact (div_lt_one hpos).mpr h.last
  · have hone : 1 + den.c2 / den.c0 = (den.c0 + den.c2) / den.c0 := by
      rw [add_div, div_self hpos.ne']
    rw [hone]
    exact div_lt_div_of_pos_right h.middle hpos

end BiquadCoefficient

namespace ParametricIir

open IirMath QuadraticPolynomial BiquadCoefficient

/-! ### Designs over the real numbers -/

/-- The arithmetic of the real numbers. -/
noncomputable abbrev realArithmetic : FloatArithmetic ℝ where
  decidableEq := inferInstance
  le x y := decide (x ≤ y)
  lt x y := decide (x < y)
  abs := abs
  cos := Real.cos
  sin := Real.sin
  epsilon := 0
  degree := Real.pi / 180
  div_one := div_one

/-- The functions of the real numbers. -/
noncomputable def realMath : IirMath ℝ where
  neg x := -x
  sub x y := x - y
  sqrt := Real.sqrt
  pi := Real.pi
  dB2linear dB := 10 ^ (0.05 * dB)

variable (param : ParametricIirCoefficient ℝ) (samplingFrequency : ℝ)

/-- `calculateIirCoefficients()` over the real numbers. -/
noncomputable def design : BiquadCoefficient ℝ :=
  @calculateIirCoefficients ℝ realArithmetic realMath param samplingFrequency

theorem one_ne_zero_real : @NeZero ℝ realArithmetic.toZero realArithmetic.toOne.one :=
  ⟨one_ne_zero⟩

/-- The same function, with a result that is not defined if a division by zero occurs. -/
noncomputable def checkedDesign : BiquadCoefficient (CheckedNumber ℝ) :=
  letI := realArithmetic
  haveI := one_ne_zero_real
  realMath.checked.calculateIirCoefficients (param.map .of) (.of samplingFrequency)

/-- The angle of the centre frequency. -/
noncomputable def angle : ℝ := (1 + 1) * Real.pi * param.frequency / samplingFrequency

/-- The linear gain. -/
noncomputable def linearGain : ℝ := 10 ^ (0.05 * param.gain)

/-- The intermediate values. -/
noncomputable def values : Intermediate ℝ :=
  ⟨Real.sin (angle param samplingFrequency) / ((1 + 1) * param.quality),
    Real.cos (angle param samplingFrequency), √(linearGain param), √√(linearGain param)⟩

/-- The numerator of a filter type, before it is normalised. -/
noncomputable def numerator (v : Intermediate ℝ) : ParametricIirType → QuadraticPolynomial
  | .lowpass => ⟨(1 - v.cw0) / (1 + 1), 1 - v.cw0, (1 - v.cw0) / (1 + 1)⟩
  | .highpass => ⟨(1 + v.cw0) / (1 + 1), -(1 + v.cw0), (1 + v.cw0) / (1 + 1)⟩
  | .bandpass => ⟨v.alpha, 0, -v.alpha⟩
  | .bandstop => ⟨1, -(1 + 1) * v.cw0, 1⟩
  | .allpass => ⟨1 - v.alpha, -(1 + 1) * v.cw0, 1 + v.alpha⟩
  | .peak => ⟨1 + v.A * v.alpha, -(1 + 1) * v.cw0, 1 - v.A * v.alpha⟩
  | .lowshelf =>
    ⟨v.A * (v.A + 1 - (v.A - 1) * v.cw0 + (1 + 1) * v.Asqrt * v.alpha),
      (1 + 1) * v.A * (v.A - 1 - (v.A + 1) * v.cw0),
      v.A * (v.A + 1 - (v.A - 1) * v.cw0 - (1 + 1) * v.Asqrt * v.alpha)⟩
  | .highshelf =>
    ⟨v.A * (v.A + 1 + (v.A - 1) * v.cw0 + (1 + 1) * v.Asqrt * v.alpha),
      -(1 + 1) * v.A * (v.A - 1 + (v.A + 1) * v.cw0),
      v.A * (v.A + 1 + (v.A - 1) * v.cw0 - (1 + 1) * v.Asqrt * v.alpha)⟩

/-- The denominator of a filter type. -/
noncomputable def denominator (v : Intermediate ℝ) : ParametricIirType → QuadraticPolynomial
  | .peak => ⟨1 + v.alpha / v.A, -(1 + 1) * v.cw0, 1 - v.alpha / v.A⟩
  | .lowshelf =>
    ⟨v.A + 1 + (v.A - 1) * v.cw0 + (1 + 1) * v.Asqrt * v.alpha,
      -(1 + 1) * (v.A - 1 + (v.A + 1) * v.cw0),
      v.A + 1 + (v.A - 1) * v.cw0 - (1 + 1) * v.Asqrt * v.alpha⟩
  | .highshelf =>
    ⟨v.A + 1 - (v.A - 1) * v.cw0 + (1 + 1) * v.Asqrt * v.alpha,
      (1 + 1) * (v.A - 1 - (v.A + 1) * v.cw0),
      v.A + 1 - (v.A - 1) * v.cw0 - (1 + 1) * v.Asqrt * v.alpha⟩
  | _ => ⟨1 + v.alpha, -(1 + 1) * v.cw0, 1 - v.alpha⟩

/-- The values of the transfer function `H` that a filter type stands for. -/
def Nominal (type : ParametricIirType) (ω gain : ℝ) (H : ℂ → ℂ) : Prop :=
  let centre := Complex.exp (ω * Complex.I)
  match type with
  | .lowpass => H 1 = 1 ∧ H (-1) = 0
  | .highpass => H 1 = 0 ∧ H (-1) = 1
  | .bandpass => H 1 = 0 ∧ H (-1) = 0 ∧ H centre = 1
  | .bandstop => H 1 = 1 ∧ H (-1) = 1 ∧ H centre = 0
  | .allpass => ∀ z : ℂ, ‖z‖ = 1 → ‖H z‖ = 1
  | .peak => H 1 = 1 ∧ H (-1) = 1 ∧ H centre = gain
  | .lowshelf => H 1 = gain ∧ H (-1) = 1
  | .highshelf => H 1 = 1 ∧ H (-1) = gain

/-- The ranges of the intermediate values. -/
structure Valid (v : Intermediate ℝ) : Prop where
  alpha_pos : 0 < v.alpha
  neg_one_lt : -1 < v.cw0
  lt_one : v.cw0 < 1
  A_pos : 0 < v.A
  Asqrt_pos : 0 < v.Asqrt

section Values

variable {param samplingFrequency} (hlow : 0 < param.frequency)
  (hhigh : param.frequency < samplingFrequency / 2) (hquality : 0 < param.quality)

include hlow hhigh

theorem samplingFrequency_pos : 0 < samplingFrequency := by linarith

/-- The centre frequency is on the open upper half of the unit circle. -/
theorem angle_mem : angle param samplingFrequency ∈ Set.Ioo 0 Real.pi := by
  have hpos := samplingFrequency_pos hlow hhigh
  constructor
  · exact div_pos (mul_pos (mul_pos (by norm_num) Real.pi_pos) hlow) hpos
  · rw [angle, div_lt_iff₀ hpos]
    nlinarith [Real.pi_pos]

theorem sin_angle_pos : 0 < Real.sin (angle param samplingFrequency) :=
  Real.sin_pos_of_mem_Ioo (angle_mem hlow hhigh)

include hquality in
theorem valid_values : Valid (values param samplingFrequency) := by
  have hsin := sin_angle_pos hlow hhigh
  have hcos : Real.cos (angle param samplingFrequency) ^ 2 < 1 ^ 2 := by
    nlinarith [Real.sin_sq_add_cos_sq (angle param samplingFrequency)]
  have hgain : 0 < linearGain param := Real.rpow_pos_of_pos (by norm_num) _
  obtain ⟨hneg, hlt⟩ := abs_lt.mp (sq_lt_sq.mp hcos |>.trans_eq (abs_one))
  exact
    { alpha_pos := div_pos hsin (mul_pos (by norm_num) hquality)
      neg_one_lt := hneg
      lt_one := hlt
      A_pos := Real.sqrt_pos.mpr hgain
      Asqrt_pos := Real.sqrt_pos.mpr (Real.sqrt_pos.mpr hgain) }

end Values

theorem stable_denominator {v : Intermediate ℝ} (h : Valid v) (type : ParametricIirType) :
    (denominator v type).Stable := by
  obtain ⟨halpha, hneg, hlt, hA, hroot⟩ := h
  have hpeak : 0 < v.alpha / v.A := div_pos halpha hA
  have hslope : 0 < 2 * v.Asqrt * v.alpha := by positivity
  have hupper : 0 < v.A * (1 - v.cw0) := mul_pos hA (sub_pos.mpr hlt)
  have hlower : 0 < v.A * (1 + v.cw0) := mul_pos hA (by linarith)
  cases type <;> constructor <;> simp only [denominator] <;> rw [abs_lt] <;> constructor <;>
    nlinarith

variable {param samplingFrequency}

theorem cos_real (x : ℝ) : @FloatArithmetic.cos ℝ realArithmetic x = Real.cos x := rfl

theorem sin_real (x : ℝ) : @FloatArithmetic.sin ℝ realArithmetic x = Real.sin x := rfl

theorem intermediate_eq :
    @intermediate ℝ realArithmetic realMath param samplingFrequency =
      values param samplingFrequency := rfl

theorem leading_eq (v : Intermediate ℝ) (type : ParametricIirType) :
    @leading ℝ realArithmetic realMath type v = (denominator v type).c0 := by
  cases type
  all_goals rfl

/-- The formulas with the intermediate values, in the operations of the real numbers. -/
theorem design_quotient (h : Valid (values param samplingFrequency)) :
    design param samplingFrequency =
      .quotient (numerator (values param samplingFrequency) param.type)
        (denominator (values param samplingFrequency) param.type) := by
  have hlead := (stable_denominator h param.type).c0_pos.ne'
  obtain ⟨type, frequency, quality, gain⟩ := param
  cases type <;>
    simp only [denominator, values, angle, linearGain] at hlead <;>
    simp only [design, calculateIirCoefficients, realMath, cos_real, sin_real, quotient, numerator,
      denominator, values, angle, linearGain, neg_div, div_div, zero_div, div_self hlead]

/-- No division by zero occurs. -/
theorem checkedDesign_eq (hrate : samplingFrequency ≠ 0) (hquality : param.quality ≠ 0)
    (h : Valid (values param samplingFrequency)) :
    checkedDesign param samplingFrequency = (design param samplingFrequency).map .of := by
  have hlead := (stable_denominator h param.type).c0_pos.ne'
  have hgain : 0 < linearGain param := Real.rpow_pos_of_pos (by norm_num) _
  have htwo (x : ℝ) (hx : x ≠ 0) : (1 + 1) * x ≠ 0 := by
    rw [one_add_one_eq_two]
    exact mul_ne_zero two_ne_zero hx
  have hA : (@intermediate ℝ realArithmetic realMath param samplingFrequency).A =
      (values param samplingFrequency).A := by rw [intermediate_eq]
  have hleading : @leading ℝ realArithmetic realMath param.type
      (@intermediate ℝ realArithmetic realMath param samplingFrequency) =
        (denominator (values param samplingFrequency) param.type).c0 := by
    rw [intermediate_eq, leading_eq]
  exact @Regular.calculate_checked ℝ realArithmetic one_ne_zero_real _ _ _
    (@Regular.mk ℝ realArithmetic _ _ _ hrate (htwo _ hquality) (decide_eq_false hgain.not_gt)
      (hA ▸ h.A_pos.ne') (hA ▸ decide_eq_false h.A_pos.not_gt) (hleading ▸ hlead)
      (hleading ▸ htwo _ hlead))

/-! ### The values of the transfer functions -/

/-- The quotient of the polynomials at one. -/
theorem transferFunction_one (num : QuadraticPolynomial) {den : QuadraticPolynomial}
    (h : den.Stable) {r : ℝ}
    (hr : num.c0 + num.c1 + num.c2 = r * (den.c0 + den.c1 + den.c2)) :
    (quotient num den).transferFunction 1 = r := by
  have hne : den.eval 1 ≠ 0 := h.eval_ne_zero (by rw [norm_one])
  rw [transferFunction_quotient num h.c0_pos.ne', inv_one, div_eq_iff hne, eval_one, eval_one, hr,
    Complex.ofReal_mul]

/-- The quotient of the polynomials at minus one. -/
theorem transferFunction_neg_one (num : QuadraticPolynomial) {den : QuadraticPolynomial}
    (h : den.Stable) {r : ℝ}
    (hr : num.c0 - num.c1 + num.c2 = r * (den.c0 - den.c1 + den.c2)) :
    (quotient num den).transferFunction (-1) = r := by
  have hne : den.eval (-1) ≠ 0 := h.eval_ne_zero (by rw [norm_neg, norm_one])
  rw [transferFunction_quotient num h.c0_pos.ne', inv_neg, inv_one, div_eq_iff hne, eval_neg_one,
    eval_neg_one, hr, Complex.ofReal_mul]

/-- The quotient of two resonators at their angle is that of their parameters. -/
theorem transferFunction_resonator (β : ℝ) {γ ω : ℝ} (hω : 0 < Real.sin ω)
    (h : (resonator γ ω).Stable) {num : QuadraticPolynomial}
    (hnum : num.eval (Complex.exp (-(ω * Complex.I))) =
      (resonator β ω).eval (Complex.exp (-(ω * Complex.I)))) :
    (quotient num (resonator γ ω)).transferFunction (Complex.exp (ω * Complex.I)) =
      (β / γ : ℝ) := by
  have hsin : Complex.sin ω ≠ 0 := by
    rw [← Complex.ofReal_sin]
    exact Complex.ofReal_ne_zero.mpr hω.ne'
  have hexp := Complex.exp_ne_zero (-(ω * Complex.I))
  rw [transferFunction_quotient num h.c0_pos.ne', ← Complex.exp_neg, hnum, eval_resonator,
    eval_resonator, mul_div_mul_left _ _ (mul_ne_zero (mul_ne_zero (mul_ne_zero two_ne_zero
      Complex.I_ne_zero) hsin) hexp), Complex.ofReal_div]

/-- The numerator of a bandpass differs from a resonator by a polynomial that is zero. -/
theorem eval_bandpass (α ω : ℝ) :
    (⟨α, 0, -α⟩ : QuadraticPolynomial).eval (Complex.exp (-(ω * Complex.I))) =
      (resonator α ω).eval (Complex.exp (-(ω * Complex.I))) := by
  have hzero := eval_resonator 0 ω
  simp only [eval, resonator] at hzero ⊢
  push_cast at hzero ⊢
  linear_combination -hzero

/-- The gain of an all-pass. -/
theorem norm_transferFunction_reverse {den : QuadraticPolynomial} (h : den.Stable) {z : ℂ}
    (hz : ‖z‖ = 1) : ‖(quotient den.reverse den).transferFunction z‖ = 1 := by
  have hw : ‖z⁻¹‖ = 1 := by rw [norm_inv, hz, inv_one]
  have hne : den.eval z⁻¹ ≠ 0 := h.eval_ne_zero hw.le
  rw [transferFunction_quotient den.reverse h.c0_pos.ne', norm_div, norm_eval_reverse den hw,
    div_self (norm_ne_zero_iff.mpr hne)]

/-- The quotient of the polynomials of a filter type has the nominal values. -/
theorem nominal_quotient {v : Intermediate ℝ} (h : Valid v) {ω : ℝ} (hω : 0 < Real.sin ω)
    (hcos : v.cw0 = Real.cos ω) (type : ParametricIirType) :
    Nominal type ω (v.A * v.A)
      (quotient (numerator v type) (denominator v type)).transferFunction := by
  have hstable := stable_denominator h type
  have halpha := h.alpha_pos.ne'
  have hA := h.A_pos.ne'
  -- the gains at the frequencies zero and one half, and those of resonators at the centre
  cases type
  case lowpass =>
    have hone := transferFunction_one (numerator v .lowpass) hstable (r := 1)
      (by simp only [numerator, denominator]; ring)
    have hneg := transferFunction_neg_one (numerator v .lowpass) hstable (r := 0)
      (by simp only [numerator]; ring)
    exact ⟨hone.trans Complex.ofReal_one, hneg.trans Complex.ofReal_zero⟩
  case highpass =>
    have hone := transferFunction_one (numerator v .highpass) hstable (r := 0)
      (by simp only [numerator]; ring)
    have hneg := transferFunction_neg_one (numerator v .highpass) hstable (r := 1)
      (by simp only [numerator, denominator]; ring)
    exact ⟨hone.trans Complex.ofReal_zero, hneg.trans Complex.ofReal_one⟩
  case bandpass =>
    have hone := transferFunction_one (numerator v .bandpass) hstable (r := 0)
      (by simp only [numerator]; ring)
    have hneg := transferFunction_neg_one (numerator v .bandpass) hstable (r := 0)
      (by simp only [numerator]; ring)
    have hden : denominator v .bandpass = resonator v.alpha ω := by
      simp only [denominator, resonator, hcos]
    rw [hden] at hstable
    have hcentre := transferFunction_resonator v.alpha hω hstable (eval_bandpass v.alpha ω)
    rw [div_self halpha, ← hden] at hcentre
    exact ⟨hone.trans Complex.ofReal_zero, hneg.trans Complex.ofReal_zero,
      hcentre.trans Complex.ofReal_one⟩
  case bandstop =>
    have hone := transferFunction_one (numerator v .bandstop) hstable (r := 1)
      (by simp only [numerator, denominator]; ring)
    have hneg := transferFunction_neg_one (numerator v .bandstop) hstable (r := 1)
      (by simp only [numerator, denominator]; ring)
    have hnum : numerator v .bandstop = resonator 0 ω := by
      simp only [numerator, resonator, hcos, add_zero, sub_zero]
    have hden : denominator v .bandstop = resonator v.alpha ω := by
      simp only [denominator, resonator, hcos]
    rw [hden] at hstable
    have hcentre := transferFunction_resonator 0 hω hstable rfl
    rw [zero_div, ← hden, ← hnum] at hcentre
    exact ⟨hone.trans Complex.ofReal_one, hneg.trans Complex.ofReal_one,
      hcentre.trans Complex.ofReal_zero⟩
  case allpass => exact fun z hz => norm_transferFunction_reverse hstable hz
  case peak =>
    have hone := transferFunction_one (numerator v .peak) hstable (r := 1)
      (by simp only [numerator, denominator]; ring)
    have hneg := transferFunction_neg_one (numerator v .peak) hstable (r := 1)
      (by simp only [numerator, denominator]; ring)
    have hnum : numerator v .peak = resonator (v.A * v.alpha) ω := by
      simp only [numerator, resonator, hcos]
    have hden : denominator v .peak = resonator (v.alpha / v.A) ω := by
      simp only [denominator, resonator, hcos]
    have hgain : v.A * v.alpha / (v.alpha / v.A) = v.A * v.A := by
      field_simp
    rw [hden] at hstable
    have hcentre := transferFunction_resonator (v.A * v.alpha) hω hstable rfl
    rw [hgain, ← hden, ← hnum] at hcentre
    exact ⟨hone.trans Complex.ofReal_one, hneg.trans Complex.ofReal_one, hcentre⟩
  case lowshelf =>
    have hone := transferFunction_one (numerator v .lowshelf) hstable (r := v.A * v.A)
      (by simp only [numerator, denominator]; ring)
    have hneg := transferFunction_neg_one (numerator v .lowshelf) hstable (r := 1)
      (by simp only [numerator, denominator]; ring)
    exact ⟨hone, hneg.trans Complex.ofReal_one⟩
  case highshelf =>
    have hone := transferFunction_one (numerator v .highshelf) hstable (r := 1)
      (by simp only [numerator, denominator]; ring)
    have hneg := transferFunction_neg_one (numerator v .highshelf) hstable (r := v.A * v.A)
      (by simp only [numerator, denominator]; ring)
    exact ⟨hone.trans Complex.ofReal_one, hneg⟩

/-- **Designs are stable and have their nominal gains**, and they are calculated without a division
by zero. -/
theorem design_stable_nominal (hlow : 0 < param.frequency)
    (hhigh : param.frequency < samplingFrequency / 2) (hquality : 0 < param.quality) :
    checkedDesign param samplingFrequency = (design param samplingFrequency).map .of ∧
      |(design param samplingFrequency).a2| < 1 ∧
      |(design param samplingFrequency).a1| < 1 + (design param samplingFrequency).a2 ∧
      (design param samplingFrequency).PolesInside ∧
      Nominal param.type (angle param samplingFrequency) (linearGain param)
        (design param samplingFrequency).transferFunction := by
  have hvalid := valid_values hlow hhigh hquality
  have hstable := stable_denominator hvalid param.type
  have hsq : (values param samplingFrequency).A * (values param samplingFrequency).A =
      linearGain param := Real.mul_self_sqrt (Real.rpow_pos_of_pos (by norm_num) _).le
  have hrate := (samplingFrequency_pos hlow hhigh).ne'
  refine ⟨checkedDesign_eq hrate hquality.ne' hvalid, ?_⟩
  rw [design_quotient hvalid]
  obtain ⟨hlast, hmiddle⟩ := abs_quotient_lt
    (numerator (values param samplingFrequency) param.type) hstable
  refine ⟨hlast, hmiddle, polesInside_quotient _ hstable, ?_⟩
  rw [← hsq]
  exact nominal_quotient hvalid (sin_angle_pos hlow hhigh) rfl param.type

/-- A low shelf at an eighth of the sampling rate. -/
theorem design_stable_nominal_lowshelf :
    let param : ParametricIirCoefficient ℝ := ⟨.lowshelf, 1, 1, 6⟩
    checkedDesign param 8 = (design param 8).map .of ∧ |(design param 8).a2| < 1 ∧
      |(design param 8).a1| < 1 + (design param 8).a2 ∧ (design param 8).PolesInside ∧
      Nominal param.type (angle param 8) (linearGain param) (design param 8).transferFunction :=
  design_stable_nominal one_pos (by norm_num) one_pos

end ParametricIir

end Visr
