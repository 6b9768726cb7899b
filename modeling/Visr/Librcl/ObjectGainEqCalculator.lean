import Mathlib.Algebra.Field.Rat
import Mathlib.Algebra.Order.Ring.Unbundled.Rat
import Visr.Libobjectmodel.Object
import Visr.Libpml.InputBase
import Visr.Librbbl.BiquadCoefficientMatrix
import Visr.Library.Writes
import Visr.Librcl.MessageLoop

/-!
# Gains and equalisers of objects

For each audio channel, the level and the equaliser of the object that uses it are published.  Two
buffers take turns for each of the outputs.

## Main results

* `ObjectGainEqCalculator.calculate_ok_iff` — which object vectors are accepted.
* `ObjectGainEqCalculator.historyIndependent_iff` — **which runs do not depend on what was before**.
-/

namespace Visr

variable {F : Type} [FloatArithmetic F]

/-! ### Equaliser sections -/

/-- Arithmetic and functions of the mathematics libraries. -/
structure IirMath (F : Type) where
  neg : F → F
  sub : F → F → F
  sqrt : F → F
  pi : F
  /-- `efl::dB2linear()`. -/
  dB2linear : F → F

namespace IirMath

open FloatArithmetic

/-- `ParametricIirCoefficientCalculator::calculateIirCoefficients()` for one section. -/
def calculateIirCoefficients (math : IirMath F) (param : ParametricIirCoefficient F)
    (samplingFrequency : F) : BiquadCoefficient F :=
  let two : F := 1 + 1
  let w0 := two * math.pi * param.frequency / samplingFrequency
  let alpha := sin w0 / (two * param.quality)
  let cw0 := cos w0
  match param.type with
  | .lowpass =>
    let a0 := 1 + alpha
    let b0 := math.sub 1 cw0 / (two * a0)
    ⟨b0, math.sub 1 cw0 / a0, b0, math.neg two * cw0 / a0, math.sub 1 alpha / a0⟩
  | .highpass =>
    let a0 := 1 + alpha
    let b0 := (1 + cw0) / (two * a0)
    ⟨b0, math.neg (1 + cw0) / a0, b0, math.neg two * cw0 / a0, math.sub 1 alpha / a0⟩
  | .bandpass =>
    let a0 := 1 + alpha
    let b0 := alpha / a0
    ⟨b0, 0, math.neg b0, math.neg two * cw0 / a0, math.sub 1 alpha / a0⟩
  | .bandstop =>
    let a0 := 1 + alpha
    let b0 := 1 / a0
    ⟨b0, math.neg two * cw0 / a0, b0, math.neg two * cw0 / a0, math.sub 1 alpha / a0⟩
  | .allpass =>
    let a0 := 1 + alpha
    let b0 := math.sub 1 alpha / a0
    let b1 := math.neg two * cw0 / a0
    ⟨b0, b1, 1, b1, b0⟩
  | .peak =>
    let A := math.sqrt (math.dB2linear param.gain)
    let a0 := 1 + alpha / A
    let b1 := math.neg two * cw0 / a0
    ⟨(1 + A * alpha) / a0, b1, math.sub 1 (A * alpha) / a0, b1, math.sub 1 (alpha / A) / a0⟩
  | .lowshelf =>
    let A := math.sqrt (math.dB2linear param.gain)
    let Asqrt := math.sqrt A
    let a0 := (A + 1) + math.sub A 1 * cw0 + two * Asqrt * alpha
    ⟨A * (math.sub (A + 1) (math.sub A 1 * cw0) + two * Asqrt * alpha) / a0,
      two * A * math.sub (math.sub A 1) ((A + 1) * cw0) / a0,
      A * math.sub (math.sub (A + 1) (math.sub A 1 * cw0)) (two * Asqrt * alpha) / a0,
      math.neg two * (math.sub A 1 + (A + 1) * cw0) / a0,
      math.sub ((A + 1) + math.sub A 1 * cw0) (two * Asqrt * alpha) / a0⟩
  | .highshelf =>
    let A := math.sqrt (math.dB2linear param.gain)
    let Asqrt := math.sqrt A
    let a0 := math.sub (A + 1) (math.sub A 1 * cw0) + two * Asqrt * alpha
    ⟨A * ((A + 1) + math.sub A 1 * cw0 + two * Asqrt * alpha) / a0,
      math.neg two * A * (math.sub A 1 + (A + 1) * cw0) / a0,
      A * math.sub ((A + 1) + math.sub A 1 * cw0) (two * Asqrt * alpha) / a0,
      two * math.sub (math.sub A 1) ((A + 1) * cw0) / a0,
      math.sub (math.sub (A + 1) (math.sub A 1 * cw0)) (two * Asqrt * alpha) / a0⟩

/-- The sections of an equaliser, filled up with sections that change nothing. -/
def sections (math : IirMath F) (samplingFrequency : F) (numberOfSections : ℕ)
    (params : List (ParametricIirCoefficient F)) : List (BiquadCoefficient F) :=
  params.map (fun param => math.calculateIirCoefficients param samplingFrequency) ++
    List.replicate (numberOfSections - params.length) .default

@[simp] theorem sections_nil (math : IirMath F) (samplingFrequency : F) (numberOfSections : ℕ) :
    math.sections samplingFrequency numberOfSections [] =
      List.replicate numberOfSections .default := rfl

theorem length_sections {math : IirMath F} {samplingFrequency : F} {numberOfSections : ℕ}
    {params : List (ParametricIirCoefficient F)} (h : params.length ≤ numberOfSections) :
    (math.sections samplingFrequency numberOfSections params).length = numberOfSections := by
  unfold sections
  rw [List.length_append, List.length_map, List.length_replicate]
  omega

/-- The same function for the sections of a row, which is as long as the other ones. -/
def calculateRow (math : IirMath F) (m : BiquadCoefficientMatrix F) (filterIdx : ℕ)
    (params : List (ParametricIirCoefficient F)) (samplingFrequency : F) :
    Except Exception (BiquadCoefficientMatrix F) :=
  if hsize : params.length > m.numberOfSections then
    .error (.invalidArgument ("calculateIirCoefficients(): The output argument list \"coeffs\" " ++
      "holds less elements than the input list \"params\"."))
  else .ok
    { mRows := m.mRows.set filterIdx (math.sections samplingFrequency m.numberOfSections params)
      sameSize := m.sameSize_set (length_sections (Nat.not_lt.mp hsize)) filterIdx }

theorem calculateRow_of_le (math : IirMath F) {m : BiquadCoefficientMatrix F}
    {params : List (ParametricIirCoefficient F)} (h : params.length ≤ m.numberOfSections)
    (filterIdx : ℕ) (samplingFrequency : F) :
    ∃ m', math.calculateRow m filterIdx params samplingFrequency = .ok m' ∧
      m'.mRows =
        m.mRows.set filterIdx (math.sections samplingFrequency m.numberOfSections params) :=
  ⟨_, dif_neg (Nat.not_lt.mpr h), rfl⟩

theorem calculateRow_of_lt (math : IirMath F) {m : BiquadCoefficientMatrix F}
    {params : List (ParametricIirCoefficient F)} (h : m.numberOfSections < params.length)
    (filterIdx : ℕ) (samplingFrequency : F) :
    ∃ e, math.calculateRow m filterIdx params samplingFrequency = .error e :=
  ⟨_, dif_pos h⟩

end IirMath

/-! ### The component -/

/-- The component, with the protocols its outputs are connected to. -/
structure ObjectGainEqCalculator (F : Type) where
  fullName : String
  cNumberOfObjectChannels : ℕ
  cNumberOfBiquadSections : ℕ
  cSamplingFrequency : F
  objectInput : InputBase (ObjectVector F)
  gainOutput : DoubleBufferingProtocol (List F)
  eqOutput : DoubleBufferingProtocol (BiquadCoefficientMatrix F)

namespace ObjectGainEqCalculator

/-- The parameters that are written. -/
structure Output (F : Type) where
  objectSignalGains : List F
  objectChannelEqs : BiquadCoefficientMatrix F

/-- The buffers are created with gains of zero and with equalisers that change nothing. -/
def create (fullName : String) (numberOfObjectChannels numberOfBiquadSections : ℕ)
    (samplingFrequency : F) : ObjectGainEqCalculator F where
  fullName := fullName
  cNumberOfObjectChannels := numberOfObjectChannels
  cNumberOfBiquadSections := numberOfBiquadSections
  cSamplingFrequency := samplingFrequency
  objectInput := ⟨ObjectVector.empty, false⟩
  gainOutput := .create (List.replicate numberOfObjectChannels 0)
    (List.replicate numberOfObjectChannels 0)
  eqOutput := .create (.resize numberOfObjectChannels numberOfBiquadSections)
    (.resize numberOfObjectChannels numberOfBiquadSections)

variable (math : IirMath F)

/-- One channel of an object.  The error is an exception, so that the loop is not continued. -/
def writeSignal (s : ObjectGainEqCalculator F) (obj : Object F) (signalChannelIdx : ℕ)
    (out : Output F) : Output F × Except Exception Unit :=
  if signalChannelIdx ≥ s.cNumberOfObjectChannels then
    (out, .error (status s.fullName ("Signal index " ++ toString signalChannelIdx ++
      " exceeds number of object signal channels (" ++ toString s.cNumberOfObjectChannels ++ ")")))
  else
    let out :=
      { out with objectSignalGains := out.objectSignalGains.set signalChannelIdx obj.level }
    match math.calculateRow out.objectChannelEqs signalChannelIdx obj.eqCoefficients
      s.cSamplingFrequency with
    | .error e => (out, .error e)
    | .ok objectChannelEqs => ({ out with objectChannelEqs := objectChannelEqs }, .ok ())

/-- The loop over the channels of the objects, which is left with an exception. -/
def writeSignals (s : ObjectGainEqCalculator F) :
    List (Object F × ℕ) → Output F → Output F × Except Exception Unit
  | [], out => (out, .ok ())
  | (obj, signalChannelIdx) :: signals, out =>
    match s.writeSignal math obj signalChannelIdx out with
    | (out, .error e) => (out, .error e)
    | (out, .ok _) => s.writeSignals signals out

/-- The channels of an object. -/
def signalsOf (obj : Object F) : List (Object F × ℕ) :=
  obj.channelIndices.map fun channelIndex => (obj, channelIndex.val)

/-- The channels of all objects, in the order of the loops. -/
def signals (objects : ObjectVector F) : List (Object F × ℕ) :=
  (objects.toList.map AnyObject.toObject).flatMap signalsOf

/-- The internal `process()`.  The gains are cleared, the equalisers are not. -/
def calculate (s : ObjectGainEqCalculator F) (objects : ObjectVector F) (out : Output F) :
    Output F × Except Exception Unit :=
  if out.objectSignalGains.length ≠ s.cNumberOfObjectChannels then
    (out, .error (.invalidArgument ("ObjectGainEqCalculator::process(): The parameter " ++
      "\"objectSignalGains\" must hold numberOfObjectChannels elements")))
  else if out.objectChannelEqs.numberOfFilters ≠ s.cNumberOfObjectChannels ∨
      out.objectChannelEqs.numberOfSections ≠ s.cNumberOfBiquadSections then
    (out, .error (.invalidArgument ("ObjectGainEqCalculator::process(): The parameter " ++
      "\"objectChannelEqs\" must have a matrix dimension of numberOfObjectChannels x " ++
      "numberOfBiquadSections")))
  else
    s.writeSignals math (signals objects)
      { out with objectSignalGains := List.replicate out.objectSignalGains.length 0 }

/-- The writer modifies its buffers in place. -/
def modifyOutputs (s : ObjectGainEqCalculator F) (out : Output F) : ObjectGainEqCalculator F :=
  { s with
    gainOutput := s.gainOutput.modifyBuffer s.gainOutput.frontData fun _ => out.objectSignalGains
    eqOutput := s.eqOutput.modifyBuffer s.eqOutput.frontData fun _ => out.objectChannelEqs }

/-- The buffers are swapped, and the input is reset. -/
def publish (s : ObjectGainEqCalculator F) : ObjectGainEqCalculator F :=
  { s with
    gainOutput := s.gainOutput.exchange
    eqOutput := s.eqOutput.exchange
    objectInput := s.objectInput.resetChanged }

/-- After an exception, the buffers are not swapped, and the input is not reset. -/
def process (s : ObjectGainEqCalculator F) : ObjectGainEqCalculator F × Except Exception Unit :=
  if s.objectInput.changed then
    match s.calculate math s.objectInput.data ⟨s.gainOutput.frontValue, s.eqOutput.frontValue⟩ with
    | (out, .error e) => (s.modifyOutputs out, .error e)
    | (out, .ok _) => ((s.modifyOutputs out).publish, .ok ())
  else (s, .ok ())

/-! ### What is intended -/

/-- The last object that uses an audio channel. -/
def lastObject (objects : ObjectVector F) (ch : ℕ) : Option (Object F) :=
  (objects.toList.map AnyObject.toObject).reverse.find? fun obj =>
    ch ∈ obj.channelIndices.map Fin.val

/-- **The published values** are the level and the equaliser of the object that uses a channel,
and no gain and a neutral equaliser for a channel that is not used. -/
structure Renders (s : ObjectGainEqCalculator F) (objects : ObjectVector F) : Prop where
  gains : ∀ ch < s.cNumberOfObjectChannels, s.gainOutput.backValue[ch]? =
    some (((lastObject objects ch).map Object.level).getD 0)
  equalisers : ∀ ch < s.cNumberOfObjectChannels, s.eqOutput.backValue.mRows[ch]? =
    some (math.sections s.cSamplingFrequency s.cNumberOfBiquadSections
      (((lastObject objects ch).map Object.eqCoefficients).getD []))

/-- An object vector arrives, or the component is called. -/
inductive Event (F : Type)
  | objects (newObjects : ObjectVector F)
  | process

/-- The component after an event. -/
def step (s : ObjectGainEqCalculator F) : Event F → ObjectGainEqCalculator F
  | .objects newObjects => { s with objectInput := s.objectInput.receive newObjects }
  | .process => (s.process math).1

/-- The object vector that a call uses, which is that of the call before if there is no new one. -/
def currentObjects (s : ObjectGainEqCalculator F) (previous : Option (ObjectVector F)) :
    Option (ObjectVector F) :=
  if s.objectInput.changed then some s.objectInput.data else previous

/-- **A run in which all calls publish the values of the current objects**, also for channels and
objects next to a channel index that is out of range. -/
def AsIntended (s : ObjectGainEqCalculator F) (previous : Option (ObjectVector F)) :
    List (Event F) → Prop
  | [] => True
  | .objects newObjects :: events => AsIntended (s.step math (.objects newObjects)) previous events
  | .process :: events =>
    (s.process math).2 = .ok () ∧
      (∀ objects, s.currentObjects previous = some objects →
        (s.process math).1.Renders math objects) ∧
      AsIntended (s.step math .process) (s.currentObjects previous) events

/-- The vector is accepted: all channel indices are in range, and the equalisers have sections
enough.  There is no matrix with sections but without rows. -/
structure Accepted (s : ObjectGainEqCalculator F) (objects : ObjectVector F) : Prop where
  inRange : ∀ signal ∈ signals objects, signal.2 < s.cNumberOfObjectChannels
  fits : ∀ signal ∈ signals objects,
    signal.1.eqCoefficients.length ≤ s.cNumberOfBiquadSections
  dimension : s.cNumberOfObjectChannels = 0 → s.cNumberOfBiquadSections = 0

/-- The vector is accepted, and in the buffer that is to be written, the equalisers of the channels
it does not use are neutral. -/
structure Admissible (s : ObjectGainEqCalculator F) (objects : ObjectVector F) : Prop
    extends Accepted s objects where
  neutral : ∀ ch < s.cNumberOfObjectChannels, lastObject objects ch = none →
    s.eqOutput.frontValue.mRows[ch]? =
      some (List.replicate s.cNumberOfBiquadSections .default)

/-- All calls find admissible object vectors. -/
def AllAdmissible (s : ObjectGainEqCalculator F) : List (Event F) → Prop
  | [] => True
  | .objects newObjects :: events => AllAdmissible (s.step math (.objects newObjects)) events
  | .process :: events =>
    (s.objectInput.changed = true → s.Admissible s.objectInput.data) ∧
      AllAdmissible (s.step math .process) events

/-! ### The loop -/

/-- The dimensions of the parameters. -/
structure Sized (s : ObjectGainEqCalculator F) (out : Output F) : Prop where
  gains : out.objectSignalGains.length = s.cNumberOfObjectChannels
  filters : out.objectChannelEqs.mRows.length = s.cNumberOfObjectChannels
  sections : ∀ row ∈ out.objectChannelEqs.mRows, row.length = s.cNumberOfBiquadSections

/-- The gain and the equaliser of a channel. -/
def Output.view (out : Output F) (ch : ℕ) : Option F × Option (List (BiquadCoefficient F)) :=
  (out.objectSignalGains[ch]?, out.objectChannelEqs.mRows[ch]?)

/-- What the channel of an object writes. -/
def written (s : ObjectGainEqCalculator F) (signal : Object F × ℕ) (ch : ℕ) :
    Option (Option F × Option (List (BiquadCoefficient F))) :=
  if signal.2 = ch then
    some (some signal.1.level, some (math.sections s.cSamplingFrequency s.cNumberOfBiquadSections
      signal.1.eqCoefficients))
  else none

section Loop

variable {s : ObjectGainEqCalculator F} {out out' : Output F}

omit [FloatArithmetic F] in
theorem Sized.numberOfSections (h : s.Sized out) {ch : ℕ} (hch : ch < s.cNumberOfObjectChannels) :
    out.objectChannelEqs.numberOfSections = s.cNumberOfBiquadSections := by
  obtain ⟨first, rows, hrows⟩ := List.exists_cons_of_length_pos
    (Nat.lt_of_le_of_lt (Nat.zero_le ch) (h.filters ▸ hch))
  unfold BiquadCoefficientMatrix.numberOfSections
  rw [hrows]
  exact h.sections first (hrows ▸ List.mem_cons_self)

/-- **One channel of an object**, if its index is in range and the equaliser fits. -/
theorem writeSignal_of_fits (h : s.Sized out) {obj : Object F} {ch : ℕ}
    (hrange : ch < s.cNumberOfObjectChannels)
    (hsize : obj.eqCoefficients.length ≤ s.cNumberOfBiquadSections) :
    ∃ out', s.writeSignal math obj ch out = (out', .ok ()) ∧
      out'.objectSignalGains = out.objectSignalGains.set ch obj.level ∧
      out'.objectChannelEqs.mRows = out.objectChannelEqs.mRows.set ch
        (math.sections s.cSamplingFrequency s.cNumberOfBiquadSections obj.eqCoefficients) := by
  have hsections := h.numberOfSections hrange
  obtain ⟨eqs, heqs, hrows⟩ := math.calculateRow_of_le
    (hsize.trans_eq hsections.symm) ch s.cSamplingFrequency
  refine ⟨⟨out.objectSignalGains.set ch obj.level, eqs⟩, ?_, rfl, hsections ▸ hrows⟩
  unfold writeSignal
  rw [if_neg (Nat.not_le.mpr hrange)]
  dsimp only
  rw [heqs]

/-- Otherwise there is an exception. -/
theorem writeSignal_error (h : s.Sized out) {obj : Object F} {ch : ℕ}
    (hbad : ¬(ch < s.cNumberOfObjectChannels ∧
      obj.eqCoefficients.length ≤ s.cNumberOfBiquadSections)) :
    ∃ out' e, s.writeSignal math obj ch out = (out', .error e) := by
  unfold writeSignal
  by_cases hrange : ch ≥ s.cNumberOfObjectChannels
  · exact ⟨_, _, if_pos hrange⟩
  · have hlt := Nat.not_le.mp hrange
    have hsize : out.objectChannelEqs.numberOfSections < obj.eqCoefficients.length := by
      rw [h.numberOfSections hlt]
      exact Nat.not_le.mp fun hle => hbad ⟨hlt, hle⟩
    obtain ⟨e, he⟩ := math.calculateRow_of_lt hsize ch s.cSamplingFrequency
    rw [if_neg hrange]
    dsimp only
    rw [he]
    exact ⟨_, e, rfl⟩

/-- The dimensions are kept, and one channel is written. -/
theorem writeSignal_spec (h : s.Sized out) {obj : Object F} {ch : ℕ}
    (hrange : ch < s.cNumberOfObjectChannels)
    (hsize : obj.eqCoefficients.length ≤ s.cNumberOfBiquadSections) :
    ∃ out', s.writeSignal math obj ch out = (out', .ok ()) ∧ s.Sized out' ∧
      ∀ c, out'.view c = (s.written math (obj, ch) c).getD (out.view c) := by
  obtain ⟨out', hok, hgains, hrows⟩ := writeSignal_of_fits math h hrange hsize
  refine ⟨out', hok, ⟨?_, ?_, fun row hrow => ?_⟩, fun c => ?_⟩
  · rw [hgains, List.length_set, h.gains]
  · rw [hrows, List.length_set, h.filters]
  · rw [hrows] at hrow
    rcases List.mem_or_eq_of_mem_set hrow with hrow | rfl
    · exact h.sections row hrow
    · exact IirMath.length_sections hsize
  · unfold Output.view written
    rw [hgains, hrows]
    by_cases hc : ch = c
    · subst hc
      rw [if_pos rfl, List.getElem?_set_self (h.gains ▸ hrange),
        List.getElem?_set_self (h.filters ▸ hrange)]
      rfl
    · rw [if_neg hc, List.getElem?_set_ne hc, List.getElem?_set_ne hc]
      rfl

/-- **The loop**, if all channels are in range and all equalisers fit. -/
theorem writeSignals_spec (h : s.Sized out) {signals : List (Object F × ℕ)}
    (hrange : ∀ signal ∈ signals, signal.2 < s.cNumberOfObjectChannels)
    (hsize : ∀ signal ∈ signals,
      signal.1.eqCoefficients.length ≤ s.cNumberOfBiquadSections) :
    ∃ out', s.writeSignals math signals out = (out', .ok ()) ∧ s.Sized out' ∧
      out'.view = applyWrites (s.written math) signals out.view := by
  induction signals generalizing out with
  | nil => exact ⟨out, rfl, h, rfl⟩
  | cons signal signals ih =>
    obtain ⟨obj, ch⟩ := signal
    obtain ⟨out₁, hok₁, hsized₁, hview₁⟩ := writeSignal_spec math h
      (hrange _ List.mem_cons_self) (hsize _ List.mem_cons_self)
    obtain ⟨out', hok, hsized, hview⟩ := ih hsized₁
      (fun signal hs => hrange signal (List.mem_cons_of_mem _ hs))
      (fun signal hs => hsize signal (List.mem_cons_of_mem _ hs))
    refine ⟨out', ?_, hsized, ?_⟩
    · unfold writeSignals
      rw [hok₁]
      exact hok
    · rw [hview, applyWrites_cons, funext hview₁]

/-- Otherwise the loop ends with an exception. -/
theorem writeSignals_error (h : s.Sized out) {signals : List (Object F × ℕ)}
    (hbad : ¬∀ signal ∈ signals, signal.2 < s.cNumberOfObjectChannels ∧
      signal.1.eqCoefficients.length ≤ s.cNumberOfBiquadSections) :
    ∃ out' e, s.writeSignals math signals out = (out', .error e) := by
  induction signals generalizing out with
  | nil => exact absurd (fun signal hs => absurd hs List.not_mem_nil) hbad
  | cons signal signals ih =>
    obtain ⟨obj, ch⟩ := signal
    unfold writeSignals
    by_cases hfirst : ch < s.cNumberOfObjectChannels ∧
        obj.eqCoefficients.length ≤ s.cNumberOfBiquadSections
    · obtain ⟨out₁, hok₁, hsized₁, -⟩ := writeSignal_spec math h hfirst.1 hfirst.2
      rw [hok₁]
      refine ih hsized₁ fun hall => hbad fun signal hs => ?_
      rcases List.mem_cons.mp hs with rfl | hs
      · exact hfirst
      · exact hall signal hs
    · obtain ⟨out', e, he⟩ := writeSignal_error math h hfirst
      rw [he]
      exact ⟨out', e, rfl⟩

/-! ### The object that a channel belongs to -/

omit [FloatArithmetic F] in
theorem find?_signalsOf (obj : Object F) (ch : ℕ) :
    (signalsOf obj).reverse.find? (fun signal => signal.2 = ch) =
      if ch ∈ obj.channelIndices.map Fin.val then some (obj, ch) else none := by
  unfold signalsOf
  split
  next hmem =>
    cases hfind : (obj.channelIndices.map fun channelIndex =>
        (obj, channelIndex.val)).reverse.find? fun signal => signal.2 = ch with
    | none =>
      obtain ⟨channelIndex, hindex, rfl⟩ := List.mem_map.mp hmem
      have hnone := List.find?_eq_none.mp hfind (obj, channelIndex.val)
        (List.mem_reverse.mpr (List.mem_map_of_mem hindex))
      exact absurd (decide_eq_true rfl) hnone
    | some signal =>
      have hch : signal.2 = ch := by simpa using List.find?_some hfind
      obtain ⟨_, -, rfl⟩ :=
        List.mem_map.mp (List.mem_reverse.mp (List.mem_of_find?_eq_some hfind))
      rw [← hch]
  next hmem =>
    refine List.find?_eq_none.mpr fun signal hsignal heq => hmem ?_
    obtain ⟨channelIndex, hindex, rfl⟩ := List.mem_map.mp (List.mem_reverse.mp hsignal)
    exact List.mem_map.mpr ⟨channelIndex, hindex, of_decide_eq_true heq⟩

omit [FloatArithmetic F] in
/-- The last write of a channel is that of the last object that uses it. -/
theorem find?_flatMap_signalsOf (objects : List (Object F)) (ch : ℕ) :
    (objects.flatMap signalsOf).reverse.find? (fun signal => signal.2 = ch) =
      (objects.reverse.find? fun obj => ch ∈ obj.channelIndices.map Fin.val).map
        fun obj => (obj, ch) := by
  induction objects with
  | nil => rfl
  | cons obj objects ih =>
    rw [List.flatMap_cons, List.reverse_append, List.find?_append, ih, find?_signalsOf,
      List.reverse_cons, List.find?_append, Option.map_or]
    congr 1
    by_cases hmem : ch ∈ obj.channelIndices.map Fin.val
    · rw [if_pos hmem, List.find?_cons_of_pos (by simpa using hmem)]
      rfl
    · rw [if_neg hmem, List.find?_cons_of_neg (by simpa using hmem)]
      rfl

/-! ### One object vector -/

/-- What is left of a buffer when the gains have been cleared. -/
theorem view_cleared (h : s.Sized out) {ch : ℕ} (hch : ch < s.cNumberOfObjectChannels) :
    (Output.mk (List.replicate out.objectSignalGains.length 0) out.objectChannelEqs).view ch =
      (some 0, out.objectChannelEqs.mRows[ch]?) := by
  unfold Output.view
  rw [List.getElem?_replicate, if_pos (h.gains ▸ hch)]

omit [FloatArithmetic F] in
theorem numberOfSections_eq_iff (h : s.Sized out) :
    out.objectChannelEqs.numberOfSections = s.cNumberOfBiquadSections ↔
      (s.cNumberOfObjectChannels = 0 → s.cNumberOfBiquadSections = 0) := by
  rcases Nat.eq_zero_or_pos s.cNumberOfObjectChannels with hzero | hpos
  · have hrows : out.objectChannelEqs.mRows = [] :=
      List.eq_nil_of_length_eq_zero (h.filters.trans hzero)
    unfold BiquadCoefficientMatrix.numberOfSections
    rw [hrows]
    exact ⟨fun heq _ => heq.symm, fun himp => (himp hzero).symm⟩
  · exact iff_of_true (h.numberOfSections hpos) fun hzero => absurd hzero hpos.ne'

omit [FloatArithmetic F] in
/-- The check of the matrix. -/
theorem dimensions_iff (h : s.Sized out) :
    (out.objectChannelEqs.numberOfFilters ≠ s.cNumberOfObjectChannels ∨
      out.objectChannelEqs.numberOfSections ≠ s.cNumberOfBiquadSections) ↔
      ¬(s.cNumberOfObjectChannels = 0 → s.cNumberOfBiquadSections = 0) := by
  rw [← numberOfSections_eq_iff h]
  exact or_iff_right (not_not.mpr h.filters)

theorem Sized.cleared (h : s.Sized out) :
    s.Sized ⟨List.replicate out.objectSignalGains.length 0, out.objectChannelEqs⟩ :=
  ⟨by rw [List.length_replicate, h.gains], h.filters, h.sections⟩

/-- **An accepted vector**: the values of the objects, and what was there before for the equalisers
of channels that are not used. -/
theorem calculate_of_accepted (h : s.Sized out) {objects : ObjectVector F}
    (haccepted : s.Accepted objects) :
    ∃ out', s.calculate math objects out = (out', .ok ()) ∧ s.Sized out' ∧
      ∀ ch < s.cNumberOfObjectChannels, out'.view ch =
        match lastObject objects ch with
        | some obj => (some obj.level, some (math.sections s.cSamplingFrequency
            s.cNumberOfBiquadSections obj.eqCoefficients))
        | none => (some 0, out.objectChannelEqs.mRows[ch]?) := by
  obtain ⟨out', hok, hsized, hview⟩ :=
    writeSignals_spec math h.cleared haccepted.inRange haccepted.fits
  refine ⟨out', ?_, hsized, fun ch hch => ?_⟩
  · unfold calculate
    rw [if_neg (not_not.mpr h.gains),
      if_neg (mt (dimensions_iff h).mp (not_not.mpr haccepted.dimension))]
    exact hok
  · -- the last signal of a channel is the one that remains
    have hothers : ∀ signal : Object F × ℕ, decide (signal.2 = ch) = false →
        s.written math signal ch = none := fun signal hne => if_neg (of_decide_eq_false hne)
    have hfind : (signals objects).reverse.find? (fun signal => signal.2 = ch) =
        (lastObject objects ch).map fun obj => (obj, ch) := find?_flatMap_signalsOf _ ch
    rw [hview]
    cases hlast : lastObject objects ch with
    | some obj =>
      rw [hlast] at hfind
      exact applyWrites_of_find? hothers hfind (if_pos rfl) _
    | none =>
      rw [hlast] at hfind
      rw [applyWrites_of_find?_none hothers hfind]
      exact view_cleared h hch

/-- A vector that is not accepted. -/
theorem calculate_error (h : s.Sized out) {objects : ObjectVector F}
    (hbad : ¬s.Accepted objects) :
    ∃ out' e, s.calculate math objects out = (out', .error e) := by
  unfold calculate
  rw [if_neg (not_not.mpr h.gains)]
  by_cases hdimension : s.cNumberOfObjectChannels = 0 → s.cNumberOfBiquadSections = 0
  · rw [if_neg (mt (dimensions_iff h).mp (not_not.mpr hdimension))]
    exact writeSignals_error math h.cleared fun hall => hbad
      ⟨fun signal hs => (hall signal hs).1, fun signal hs => (hall signal hs).2, hdimension⟩
  · exact ⟨_, _, if_pos ((dimensions_iff h).mpr hdimension)⟩

/-! ### Runs -/

/-- The dimensions of all buffers, and what is published. -/
structure Inv (s : ObjectGainEqCalculator F) (previous : Option (ObjectVector F)) : Prop where
  front : s.Sized ⟨s.gainOutput.frontValue, s.eqOutput.frontValue⟩
  back : s.Sized ⟨s.gainOutput.backValue, s.eqOutput.backValue⟩
  rendered : ∀ objects, previous = some objects → s.Renders math objects

omit [FloatArithmetic F] in
/-- What is published, and what the writer continues from. -/
theorem publish_modifyOutputs (s : ObjectGainEqCalculator F) (out : Output F) :
    (s.modifyOutputs out).publish.gainOutput.backValue = out.objectSignalGains ∧
      (s.modifyOutputs out).publish.eqOutput.backValue = out.objectChannelEqs ∧
      (s.modifyOutputs out).publish.gainOutput.frontValue = s.gainOutput.backValue ∧
      (s.modifyOutputs out).publish.eqOutput.frontValue = s.eqOutput.backValue := by
  unfold publish modifyOutputs
  simp

/-- **The residues.**  The values of an accepted vector are published if the equalisers of the
channels it does not use have been neutral before. -/
theorem renders_publish_iff {objects : ObjectVector F}
    (hview : ∀ ch < s.cNumberOfObjectChannels, out'.view ch =
      match lastObject objects ch with
      | some obj => (some obj.level, some (math.sections s.cSamplingFrequency
          s.cNumberOfBiquadSections obj.eqCoefficients))
      | none => (some 0, out.objectChannelEqs.mRows[ch]?)) :
    (s.modifyOutputs out').publish.Renders math objects ↔
      ∀ ch < s.cNumberOfObjectChannels, lastObject objects ch = none →
        out.objectChannelEqs.mRows[ch]? =
          some (List.replicate s.cNumberOfBiquadSections .default) := by
  obtain ⟨hgains, hequalisers, -, -⟩ := s.publish_modifyOutputs out'
  constructor
  · intro hrenders ch hch hlast
    have hchannel := hview ch hch
    rw [hlast] at hchannel
    have hrow := hrenders.equalisers ch hch
    rw [hlast, hequalisers] at hrow
    exact (congrArg Prod.snd hchannel).symm.trans hrow
  · intro hneutral
    refine ⟨fun ch hch => ?_, fun ch hch => ?_⟩
    · rw [hgains]
      have hchannel := congrArg Prod.fst (hview ch hch)
      cases hlast : lastObject objects ch with
      | some obj =>
        rw [hlast] at hchannel
        exact hchannel
      | none =>
        rw [hlast] at hchannel
        exact hchannel
    · -- the equalisers of a channel without an object are left as they have been
      rw [hequalisers]
      have hchannel := congrArg Prod.snd (hview ch hch)
      cases hlast : lastObject objects ch with
      | some obj =>
        rw [hlast] at hchannel
        exact hchannel
      | none =>
        rw [hlast] at hchannel
        exact hchannel.trans (hneutral ch hch hlast)

variable {math} {previous : Option (ObjectVector F)}

/-- A call with a vector that is not accepted reports an error. -/
theorem Inv.process_error (h : s.Inv math previous) (hchanged : s.objectInput.changed = true)
    (hbad : ¬s.Accepted s.objectInput.data) : (s.process math).2 ≠ .ok () := by
  obtain ⟨out', e, he⟩ := calculate_error math h.front hbad
  unfold process
  rw [if_pos hchanged, he]
  exact nofun

/-- **A call with an accepted vector.** -/
theorem Inv.process_accepted (h : s.Inv math previous) (hchanged : s.objectInput.changed = true)
    (haccepted : s.Accepted s.objectInput.data) :
    (s.process math).2 = .ok () ∧
      ((s.process math).1.Renders math s.objectInput.data ↔
        s.Admissible s.objectInput.data) ∧
      (s.Admissible s.objectInput.data →
        (s.process math).1.Inv math (some s.objectInput.data)) := by
  obtain ⟨out', hok, hsized, hview⟩ := calculate_of_accepted math h.front haccepted
  have hprocess : s.process math = ((s.modifyOutputs out').publish, .ok ()) := by
    unfold process
    rw [if_pos hchanged, hok]
  have hrenders := renders_publish_iff math hview
  have hadmissible : (s.process math).1.Renders math s.objectInput.data ↔
      s.Admissible s.objectInput.data := by
    rw [hprocess]
    exact hrenders.trans ⟨fun hneutral => ⟨haccepted, hneutral⟩, fun hadm => hadm.neutral⟩
  refine ⟨congrArg Prod.snd hprocess, hadmissible, fun hadm => ?_⟩
  have hafter := hadmissible.mpr hadm
  rw [hprocess] at hafter ⊢
  -- the front and the back of both buffers are exchanged
  obtain ⟨hgains, hequalisers, hgains', hequalisers'⟩ := s.publish_modifyOutputs out'
  refine ⟨?_, ?_, fun objects hobjects => ?_⟩
  · dsimp only
    rw [hgains', hequalisers']
    exact ⟨h.back.gains, h.back.filters, h.back.sections⟩
  · dsimp only
    rw [hgains, hequalisers]
    exact ⟨hsized.gains, hsized.filters, hsized.sections⟩
  · cases hobjects
    exact hafter

theorem process_of_not_changed (hchanged : s.objectInput.changed = false) :
    s.process math = (s, .ok ()) := by
  unfold process
  rw [hchanged]
  rfl

/-- One event after another, for any state with the invariant. -/
theorem asIntended_iff_of_inv (h : s.Inv math previous) (events : List (Event F)) :
    s.AsIntended math previous events ↔ s.AllAdmissible math events := by
  induction events generalizing s previous with
  | nil => exact Iff.rfl
  | cons event events ih =>
    cases event with
    | objects newObjects =>
      exact ih (s := s.step math (.objects newObjects))
        ⟨⟨h.front.gains, h.front.filters, h.front.sections⟩,
          ⟨h.back.gains, h.back.filters, h.back.sections⟩,
          fun objects hobjects =>
            ⟨(h.rendered objects hobjects).gains, (h.rendered objects hobjects).equalisers⟩⟩
    | process =>
      unfold AsIntended AllAdmissible currentObjects
      cases hchanged : s.objectInput.changed with
      | false =>
        have hstep : s.step math .process = s :=
          congrArg Prod.fst (process_of_not_changed hchanged)
        rw [hstep, process_of_not_changed hchanged]
        constructor
        · exact fun hintended => ⟨nofun, (ih h).mp hintended.2.2⟩
        · exact fun hall => ⟨rfl, h.rendered, (ih h).mpr hall.2⟩
      | true =>
        -- a vector that is not accepted ends the run with an exception
        by_cases haccepted : s.Accepted s.objectInput.data
        · obtain ⟨hok, hrenders, hinv⟩ := h.process_accepted hchanged haccepted
          constructor
          · rintro ⟨-, hcurrent, hrest⟩
            have hadm := hrenders.mp (hcurrent _ rfl)
            exact ⟨fun _ => hadm, (ih (s := s.step math .process) (hinv hadm)).mp hrest⟩
          · rintro ⟨hadm, hrest⟩
            refine ⟨hok, fun objects hobjects => ?_,
              (ih (s := s.step math .process) (hinv (hadm rfl))).mpr hrest⟩
            cases hobjects
            exact hrenders.mpr (hadm rfl)
        · exact iff_of_false (fun hintended => h.process_error hchanged haccepted hintended.1)
            fun hall => haccepted (hall.1 rfl).toAccepted

end Loop

/-- The buffers that are created. -/
theorem inv_create (math : IirMath F) (fullName : String)
    (numberOfObjectChannels numberOfBiquadSections : ℕ) (samplingFrequency : F) :
    (create fullName numberOfObjectChannels numberOfBiquadSections samplingFrequency).Inv math
      none := by
  have hsized : Sized (create fullName numberOfObjectChannels numberOfBiquadSections
      samplingFrequency) ⟨List.replicate numberOfObjectChannels 0,
        .resize numberOfObjectChannels numberOfBiquadSections⟩ := by
    refine ⟨List.length_replicate, List.length_replicate, fun row hrow => ?_⟩
    obtain rfl := List.eq_of_mem_replicate hrow
    exact List.length_replicate
  exact ⟨hsized, hsized, nofun⟩

/-- **Which runs do not depend on what was before**: those in which all calls find admissible object
vectors. -/
theorem historyIndependent_iff (math : IirMath F) (fullName : String)
    (numberOfObjectChannels numberOfBiquadSections : ℕ) (samplingFrequency : F)
    (events : List (Event F)) :
    (create fullName numberOfObjectChannels numberOfBiquadSections samplingFrequency).AsIntended
        math none events ↔
      (create fullName numberOfObjectChannels numberOfBiquadSections
        samplingFrequency).AllAdmissible math events :=
  asIntended_iff_of_inv
    (inv_create math fullName numberOfObjectChannels numberOfBiquadSections samplingFrequency)
    events

/-! ### A residue -/

/-- Rational numbers, with sine and cosine at a quarter of the sampling frequency. -/
structure QuarterNumber where
  value : ℚ
  deriving DecidableEq

instance : FloatArithmetic QuarterNumber where
  zero := ⟨0⟩
  one := ⟨1⟩
  add x y := ⟨x.value + y.value⟩
  mul x y := ⟨x.value * y.value⟩
  div x y := ⟨x.value / y.value⟩
  decidableEq := inferInstance
  le x y := decide (x.value ≤ y.value)
  lt x y := decide (x.value < y.value)
  abs x := ⟨if x.value < 0 then -x.value else x.value⟩
  cos _ := ⟨0⟩
  sin _ := ⟨1⟩
  epsilon := ⟨1 / 8388608⟩
  degree := ⟨1 / 57⟩
  div_one x := congrArg QuarterNumber.mk (div_one x.value)

def quarterMath : IirMath QuarterNumber where
  neg x := ⟨-x.value⟩
  sub x y := ⟨x.value - y.value⟩
  sqrt x := x
  pi := ⟨3⟩
  dB2linear x := x

/-- An object that uses the first channel, with a band-stop filter. -/
def filteredObject : ObjectVector QuarterNumber :=
  ObjectVector.empty.insert (.diffuseSource {
    id := 0
    groupId := 0
    level := ⟨1⟩
    priority := 0
    channelIndices := [0]
    eqCoefficients := [⟨.bandstop, ⟨1⟩, ⟨1 / 2⟩, ⟨0⟩⟩] })

/-- Two vectors without objects after one with an object: the second one is written to the buffer
in which the equaliser of the object has remained. -/
theorem not_asIntended_residue :
    ¬(create "calculator" 1 1 ⟨4⟩).AsIntended quarterMath none
      [.objects filteredObject, .process, .objects .empty, .process, .objects .empty,
        .process] := by
  rintro ⟨-, -, -, -, -, hrenders, -⟩
  have hrow := (hrenders ObjectVector.empty rfl).equalisers 0 Nat.one_pos
  revert hrow
  decide +kernel

end ObjectGainEqCalculator

end Visr
