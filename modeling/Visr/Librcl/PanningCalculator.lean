import Mathlib.Algebra.Order.BigOperators.Group.Finset
import Mathlib.Algebra.Order.Field.Basic
import Visr.Librcl.CAPGainCalculator
import Visr.Library.Writes

/-!
# The calculation of panning gains

The component that computes the gains of all audio channels from the objects of a scene.

## Main results

* `PanningCalculator.fillLabelLookup_lt` — the labels are those of regular loudspeakers.
-/

namespace Visr

namespace PanningCalculator

/-- `PanningCalculator::Normalisation`. -/
inductive Normalisation
  | Default
  | Amplitude
  | Energy
  deriving DecidableEq, Repr

/-- The bits of `PanningCalculator::PanningMode`, one for each output matrix. -/
inductive Band
  | lf
  | hf
  | diffuse
  deriving DecidableEq, Repr

end PanningCalculator

open PanningCalculator Vector3D

/-- The gains of the loudspeakers for each audio channel, that is, the columns of the matrices of
the bands.  A gain that is `none` is not a number. -/
abbrev GainColumns (K : Type) := Band × ℕ → ℕ → Option K

/-- The component.  The normalisations have been chosen, and the labels are those of regular
loudspeakers. -/
structure PanningCalculator (K : Type) where
  numberOfObjects : ℕ
  adaptiveListenerPosition : Bool
  numberOfRegularLoudspeakers : ℕ
  vbapCalculator : VBAP K
  panningMode : Band → Bool
  normalisation : Band → { mode : Normalisation // mode ≠ .Default }
  labelLookup : OrderedMap String ℕ
  labelLookup_lt : ∀ label l, labelLookup.find? label = some l → l < numberOfRegularLoudspeakers

variable {K : Type}

/-- `ChannelObject::outputChannel()`. -/
def ChannelObject.outputChannel (co : ChannelObject K) (index : ℕ) :
    Except Exception (List String) :=
  match co.outputChannels[index]? with
  | some outputChannels => .ok outputChannels
  | none => .error (.outOfRange "Index exceeds number of output channels.")

namespace PanningCalculator

variable [Field K] [LinearOrder K]

/-- A square root, which is not a number if the argument is negative. -/
def squareRoot (math : CMath K) (val : K) : Option K :=
  if val < 0 then none else some (math.sqrt val)

section Normalise

/-- The variable `sigNorm` of `normalise()`. -/
def sigNorm (math : CMath K) (mode : Normalisation) (numberOfElements : ℕ) (g : ℕ → Option K) :
    Option K :=
  match mode with
  | .Amplitude =>
    (List.range numberOfElements).foldlM (fun acc i => (g i).map fun val => acc + |val|) 0
  | .Energy =>
    ((List.range numberOfElements).foldlM (fun acc i => (g i).map fun val => acc + val * val)
      0).map math.sqrt
  | .Default => some 1

def normalise (math : CMath K) (mode : Normalisation) (numberOfElements : ℕ)
    (g : ℕ → Option K) (targetLevel : K) (i : ℕ) : Option K :=
  match sigNorm math mode numberOfElements g with
  | some norm => (g i).map fun val => targetLevel / max norm (epsilon K) * val
  | none => none

end Normalise

/-- One of the columns of an audio channel, if there is an output for the band.  For an audio
channel out of range, some gains are written behind the end of the matrix. -/
def writeColumn (s : PanningCalculator K) (math : CMath K) (band : Band) (channel : ℕ)
    (g : ℕ → Option K) (level : K) (gains : GainColumns K) : Except Abort (GainColumns K) :=
  if s.panningMode band = true then
    if 0 < s.numberOfRegularLoudspeakers ∧ s.numberOfObjects ≤ channel then .error .undefined
    else .ok (Function.update gains (band, channel)
      (normalise math (s.normalisation band) s.numberOfRegularLoudspeakers g level))
  else .ok gains

/-- All columns of an audio channel. -/
def writeColumns (s : PanningCalculator K) (math : CMath K) (channel : ℕ)
    (g : Band → ℕ → Option K) (level : Band → K) (gains : GainColumns K) :
    Except Abort (GainColumns K) :=
  [.lf, .hf, .diffuse].foldlM (fun gains band =>
    s.writeColumn math band channel (g band) (level band) gains) gains

/-- The variables `directRatio` and `diffuseRatio`. -/
def ratio (diffuseRatio : K) : Band → K
  | .diffuse => diffuseRatio
  | _ => 1 - diffuseRatio

/-- The lookup of an unknown label is the end of the map, whose value is used after a warning. -/
def setLabelGain (s : PanningCalculator K) (tmpGains : ℕ → K) (outLabel : String) :
    Except Abort (ℕ → K) :=
  match s.labelLookup.find? outLabel with
  | some l => .ok (Function.update tmpGains l 1)
  | none => .error .undefined

/-- The gains of an audio channel that is played back by the loudspeakers with these labels. -/
def labelGains (s : PanningCalculator K) (outputChannels : List String) :
    Except Abort (ℕ → K) :=
  outputChannels.foldlM s.setLabelGain fun _ => 0

/-- One iteration of the loop over the audio channels of a channel object. -/
def processChannel (s : PanningCalculator K) (math : CMath K) (co : ChannelObject K)
    (gains : GainColumns K) (ch : UnsignedInt × ℕ) : Except Abort (GainColumns K) := do
  let outputChannels ← (co.outputChannel ch.2).mapError .exception
  let tmpGains ← s.labelGains outputChannels
  s.writeColumns math ch.1 (fun _ l => some (tmpGains l)) (ratio co.diffuseness) gains

/-- The position of a source, whether it is infinitely far away, and its diffuseness. -/
structure PannedSource (K : Type) where
  position : Vector3D K
  planeWave : Bool
  diffuseRatio : K

/-- The sources that are handled by the panning algorithm. -/
def pannedSource (math : CMath K) : AnyObject K → Option (PannedSource K)
  | .planeWave pw =>
    some ⟨math.spherical2cartesian pw.incidenceAzimuth pw.incidenceElevation pw.referenceDistance,
      true, 0⟩
  | .pointSource ps => some ⟨⟨ps.x, ps.y, ps.z⟩, false, 0⟩
  | .pointSourceWithReverb ps => some ⟨⟨ps.x, ps.y, ps.z⟩, false, 0⟩
  | .pointSourceWithDiffuseness psd => some ⟨⟨psd.x, psd.y, psd.z⟩, false, psd.diffuseness⟩
  | .pointSourceExtent psd => some ⟨⟨psd.x, psd.y, psd.z⟩, false, psd.diffuseness⟩
  | _ => none

/-- The gains of a source before they are normalised.  The diffuse part is played back by all
loudspeakers. -/
def sourceGains (math : CMath K) (source : PannedSource K) (tmpGains : ℕ → K) :
    Band → ℕ → Option K
  | .lf, l => some (tmpGains l)
  | .hf, l => squareRoot math (tmpGains l)
  | .diffuse, _ => some (if epsilon K ≤ source.diffuseRatio then 1 else 0)

/-- The branches for plane waves and point sources. -/
def processSource (s : PanningCalculator K) (math : CMath K) (source : PannedSource K)
    (channel : ℕ) (gains : GainColumns K) : Except Abort (GainColumns K) := do
  let tmpGains ← (s.vbapCalculator.calculateGainsUnNormalised source.position
    source.planeWave).mapError .exception
  s.writeColumns math channel (sourceGains math source tmpGains) (ratio source.diffuseRatio) gains

/-- The branches for objects with one audio channel. -/
def processSingleChannel (s : PanningCalculator K) (math : CMath K) (gains : GainColumns K)
    (obj : AnyObject K) (channel : ℕ) : Except Abort (GainColumns K) :=
  match obj with
  | .diffuseSource _ => s.writeColumn math .diffuse channel (fun _ => some 1) 1 gains
  | obj =>
    match pannedSource math obj with
    | some source => s.processSource math source channel gains
    | none => .ok gains

/-- One iteration of the loop over the objects. -/
def processObject (s : PanningCalculator K) (math : CMath K) (gains : GainColumns K)
    (obj : AnyObject K) : Except Abort (GainColumns K) :=
  match obj with
  | .channelObject co => co.channelIndices.zipIdx.foldlM (s.processChannel math co) gains
  | obj =>
    match obj.toObject.channelIndices with
    | [channel] => s.processSingleChannel math gains obj channel
    | _ => .ok gains

/-- The loop over the objects, after the matrices have been filled with zeros. -/
def processObjects (s : PanningCalculator K) (math : CMath K) (objects : ObjectVector K) :
    Except Abort (GainColumns K) :=
  objects.toList.foldlM (s.processObject math) fun _ _ => some 0

/-! ### The construction -/

/-- `PanningCalculator::fillLabelLookup()`. -/
def fillLabelLookup (config : LoudspeakerArray K) : Except Exception (OrderedMap String ℕ) :=
  (List.range config.getNumRegularSpeakers).foldlM (fun table channelIndex => do
    let lspId ← config.loudspeakerId channelIndex
    if (table.find? lspId).isSome then
      .error (.invalidArgument "Insertion of channel index routing failed.")
    else .ok (table.insert lspId channelIndex)) OrderedMap.empty

omit [Field K] [LinearOrder K] in
theorem fillLabelLookup_lt {config : LoudspeakerArray K} {table : OrderedMap String ℕ}
    (h : fillLabelLookup config = .ok table) (label : String) (l : ℕ)
    (hl : table.find? label = some l) : l < config.getNumRegularSpeakers := by
  -- a label is entered with the index at which it is met
  have hall : ∀ (indices : List ℕ) (start table : OrderedMap String ℕ),
      indices.foldlM (fun table channelIndex => do
        let lspId ← config.loudspeakerId channelIndex
        if (table.find? lspId).isSome then
          .error (.invalidArgument "Insertion of channel index routing failed.")
        else .ok (table.insert lspId channelIndex)) start = .ok table →
      ∀ l, table.find? label = some l → start.find? label = some l ∨ l ∈ indices := by
    intro indices
    induction indices with
    | nil =>
      intro start table h l hl
      rw [Except.ok.inj h]
      exact Or.inl hl
    | cons i indices ih =>
      intro start table h l hl
      rw [List.foldlM_cons] at h
      obtain ⟨start', hstep, hrest⟩ := exists_of_bind_ok h
      obtain ⟨lspId, -, hstep⟩ := exists_of_bind_ok hstep
      split at hstep
      · cases hstep
      next hnew =>
        cases Except.ok.inj hstep
        have hnone : start.find? lspId = none := by
          rw [← Option.not_isSome_iff_eq_none]
          exact hnew
        rcases ih _ _ hrest l hl with hl | hl
        · rw [OrderedMap.find?_insert i hnone] at hl
          split at hl
          · rw [← Option.some.inj hl]
            exact Or.inr List.mem_cons_self
          · exact Or.inl hl
        · exact Or.inr (List.mem_cons_of_mem i hl)
  rcases hall _ _ _ h l hl with hl | hl
  · cases hl
  · exact List.mem_range.mp hl

theorem Normalisation.amplitude_ne_default : Amplitude ≠ Default := nofun

theorem Normalisation.energy_ne_default : Energy ≠ Default := nofun

/-- The default normalisations are replaced. -/
def chosenNormalisation (panningMode : Band → Bool) (normalisation : Band → Normalisation)
    (band : Band) : { mode : Normalisation // mode ≠ .Default } :=
  match normalisation band with
  | .Amplitude => ⟨.Amplitude, Normalisation.amplitude_ne_default⟩
  | .Energy => ⟨.Energy, Normalisation.energy_ne_default⟩
  | .Default =>
    if band = .lf ∧ panningMode .hf = true then ⟨.Amplitude, Normalisation.amplitude_ne_default⟩
    else ⟨.Energy, Normalisation.energy_ne_default⟩

/-- The constructor. -/
def create (math : CMath K) (numberOfObjects : ℕ) (arrayConfig : LoudspeakerArray K)
    (adaptiveListenerPosition : Bool) (panningMode : Band → Bool)
    (normalisation : Band → Normalisation) (listenerPosition : Vector3D K) :
    Except Exception (PanningCalculator K) :=
  match h : fillLabelLookup arrayConfig with
  | .error e => .error e
  | .ok labelLookup => .ok {
      numberOfObjects := numberOfObjects
      adaptiveListenerPosition := adaptiveListenerPosition
      numberOfRegularLoudspeakers := arrayConfig.getNumRegularSpeakers
      vbapCalculator := VBAP.setListenerPosition math.sqrt
        (VBAP.create math.sqrt arrayConfig ⟨0, 0, 0⟩) listenerPosition
      panningMode := panningMode
      normalisation := chosenNormalisation panningMode normalisation
      labelLookup := labelLookup
      labelLookup_lt := fillLabelLookup_lt h }

end PanningCalculator

end Visr
