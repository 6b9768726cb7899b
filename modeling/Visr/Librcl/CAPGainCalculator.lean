import Mathlib.Algebra.Order.Field.Basic
import Mathlib.Tactic.Linarith
import Mathlib.Tactic.Positivity
import Visr.Libobjectmodel.Object
import Visr.Libpanning.CAP
import Visr.Library.Writes

/-!
# Gains for compensated amplitude panning

The gains of all audio channels for compensated amplitude panning, and optionally those for high
frequencies.

## Main results

* `CAPGainCalculator.levels_sources`, `CAPGainCalculator.positions_sources` — what the loop over the
  objects leaves.
* `CAPGainCalculator.appliesLevels_iff` — **when the direct levels are applied**.
-/

namespace Visr

open Vector3D

variable {K : Type} [Field K] [LinearOrder K]

/-- `efl::spherical2cartesian()`. -/
def CMath.spherical2cartesian (math : CMath K) (az el radius : K) : Vector3D K :=
  ⟨math.cos az * math.cos el * radius, math.sin az * math.cos el * radius,
    math.sin el * radius⟩

/-- `efl::degree2radian()`. -/
def CMath.degree2radian (math : CMath K) (deg : K) : K := math.degree * deg

/-- The calculators of the component. -/
structure CAPGainCalculator (K : Type) where
  numberOfObjects : ℕ
  numberOfLoudspeakers : ℕ
  capCalculator : CAP K
  vbipCalculator : Option (CAP_VBAP K)

namespace CAPGainCalculator

/-- The positions and the levels of the sources, by their audio channels. -/
structure Sources (K : Type) where
  positions : ℕ → XYZ K
  levels : ℕ → K

/-- The position and the level of one source. -/
def Sources.set (sources : Sources K) (channelId : ℕ) (position : XYZ K) (level : K) :
    Sources K where
  positions := Function.update sources.positions channelId position
  levels := Function.update sources.levels channelId level

/-- One iteration of the loop over the objects.  The level of a point source with diffuseness is
overwritten by the code for point sources, which follows after it. -/
def setSource (s : CAPGainCalculator K) (math : CMath K) (sources : Sources K)
    (obj : AnyObject K) : Sources K :=
  match obj.toObject.channelIndices with
  | [channelId] =>
    if s.numberOfObjects ≤ channelId then sources
    else
      match obj with
      | .pointSourceWithDiffuseness psdSrc =>
        let sources :=
          { sources with
            levels := Function.update sources.levels channelId (1 - psdSrc.diffuseness) }
        sources.set channelId ⟨psdSrc.x, psdSrc.y, psdSrc.z, false⟩ 1
      | .pointSource pointSrc => sources.set channelId ⟨pointSrc.x, pointSrc.y, pointSrc.z, false⟩ 1
      | .planeWave planeSrc =>
        let pos := math.spherical2cartesian (math.degree2radian planeSrc.incidenceAzimuth)
          (math.degree2radian planeSrc.incidenceElevation) 1
        sources.set channelId ⟨pos.x, pos.y, pos.z, true⟩ 1
      | _ => { sources with levels := Function.update sources.levels channelId 0 }
  | _ => sources

/-- All sources; channels without an object have a default position. -/
def sources (s : CAPGainCalculator K) (math : CMath K) (objects : ObjectVector K) : Sources K :=
  objects.toList.foldl (s.setSource math) ⟨fun _ => ⟨1, 0, 0, false⟩, fun _ => 0⟩

/-- The gains of an audio channel for high frequencies.  The square roots, which `std::for_each`
computes, are not stored. -/
def vbipGains (s : CAPGainCalculator K) (math : CMath K) (vbipCalculator : CAP_VBAP K)
    (pos : XYZ K) (level : K) (outIdx : ℕ) : K :=
  let tempHfGains := vbipCalculator.calculateGainsUnNormalised pos.vector pos.isInfinite
  let sigNorm := math.sqrt ((List.range s.numberOfLoudspeakers).foldl
    (fun acc l => acc + tempHfGains l * tempHfGains l) 0)
  level / max sigNorm (epsilon K) * tempHfGains outIdx

/-- The gains, by loudspeakers and audio channels, and those for high frequencies if they are
calculated. -/
structure Gains (K : Type) where
  gains : ℕ → ℕ → K
  hfGains : Option (ℕ → ℕ → K)

/-- `CAPGainCalculator::process()` for an object vector. -/
def gains (s : CAPGainCalculator K) (math : CMath K) (objects : ObjectVector K) : Gains K :=
  let sources := s.sources math objects
  { gains := fun outIdx chIdx =>
      if chIdx < s.numberOfObjects ∧ outIdx < s.numberOfLoudspeakers then
        sources.levels chIdx * s.capCalculator.calcGains math sources.positions chIdx outIdx
      else 0
    hfGains := s.vbipCalculator.map fun vbipCalculator outIdx chIdx =>
      if chIdx < s.numberOfObjects ∧ outIdx < s.numberOfLoudspeakers then
        s.vbipGains math vbipCalculator (sources.positions chIdx) (sources.levels chIdx) outIdx
      else 0 }

/-! ### The object of a channel -/

/-- A single-channel object is the source of an audio channel. -/
def Feeds (s : CAPGainCalculator K) (obj : AnyObject K) (ch : ℕ) : Prop :=
  obj.toObject.channelIndices.map Fin.val = [ch] ∧ ch < s.numberOfObjects

instance (s : CAPGainCalculator K) (obj : AnyObject K) (ch : ℕ) : Decidable (s.Feeds obj ch) :=
  inferInstanceAs (Decidable (_ ∧ _))

/-- The last object of an audio channel. -/
def lastObject (s : CAPGainCalculator K) (objects : ObjectVector K) (ch : ℕ) :
    Option (AnyObject K) :=
  objects.toList.reverse.find? fun obj => s.Feeds obj ch

/-- The level of the direct sound of an object. -/
def directLevel : AnyObject K → K
  | .pointSourceWithDiffuseness psdSrc => 1 - psdSrc.diffuseness
  | .pointSource _ => 1
  | .planeWave _ => 1
  | _ => 0

/-- The level that remains for an object. -/
def writtenLevel : AnyObject K → K
  | .pointSourceWithDiffuseness _ => 1
  | .pointSource _ => 1
  | .planeWave _ => 1
  | _ => 0

/-- The position of an object, if it is of a type that is panned. -/
def sourcePosition (math : CMath K) : AnyObject K → Option (XYZ K)
  | .pointSourceWithDiffuseness psdSrc => some ⟨psdSrc.x, psdSrc.y, psdSrc.z, false⟩
  | .pointSource pointSrc => some ⟨pointSrc.x, pointSrc.y, pointSrc.z, false⟩
  | .planeWave planeSrc =>
    let pos := math.spherical2cartesian (math.degree2radian planeSrc.incidenceAzimuth)
      (math.degree2radian planeSrc.incidenceElevation) 1
    some ⟨pos.x, pos.y, pos.z, true⟩
  | _ => none

/-- The gain for high frequencies of a position, before the normalisation. -/
def hfGain (vbipCalculator : CAP_VBAP K) (pos : XYZ K) (outIdx : ℕ) : K :=
  vbipCalculator.calculateGainsUnNormalised pos.vector pos.isInfinite outIdx

/-- **The gains are those of the positions and direct levels** of the objects, and zero for channels
without an object that is panned. -/
structure AppliesLevels (s : CAPGainCalculator K) (math : CMath K) (objects : ObjectVector K) :
    Prop where
  lf : ∀ ch < s.numberOfObjects, ∀ outIdx < s.numberOfLoudspeakers,
    (s.gains math objects).gains outIdx ch = ((s.lastObject objects ch).bind fun obj =>
      (sourcePosition math obj).map fun pos =>
        directLevel obj * s.capCalculator.calcGains math (fun _ => pos) ch outIdx).getD 0
  hf : ∀ vbipCalculator ∈ s.vbipCalculator, ∃ hfGains ∈ (s.gains math objects).hfGains,
    ∀ ch < s.numberOfObjects, ∀ outIdx < s.numberOfLoudspeakers,
      hfGains outIdx ch = ((s.lastObject objects ch).bind fun obj =>
        (sourcePosition math obj).map fun pos =>
          s.vbipGains math vbipCalculator pos (directLevel obj) outIdx).getD 0

/-- All gains of a position are zero. -/
def Silent (s : CAPGainCalculator K) (math : CMath K) (ch : ℕ) (pos : XYZ K) : Prop :=
  ∀ outIdx < s.numberOfLoudspeakers,
    s.capCalculator.calcGains math (fun _ => pos) ch outIdx = 0 ∧
      ∀ vbipCalculator ∈ s.vbipCalculator, hfGain vbipCalculator pos outIdx = 0

/-! ### The loop over the objects -/

variable (s : CAPGainCalculator K) (math : CMath K)

omit [LinearOrder K] in
/-- **One iteration** leaves the sources alone, or sets that of one channel. -/
theorem setSource_cases (sources : Sources K) (obj : AnyObject K) :
    ((∀ ch, ¬s.Feeds obj ch) ∧ s.setSource math sources obj = sources) ∨
      ∃ channelId, (∀ ch, s.Feeds obj ch ↔ ch = channelId) ∧
        s.setSource math sources obj =
          { positions := ((sourcePosition math obj).map
              (Function.update sources.positions channelId)).getD sources.positions
            levels := Function.update sources.levels channelId (writtenLevel obj) } := by
  unfold setSource Feeds
  cases hindices : obj.toObject.channelIndices with
  | nil => exact Or.inl ⟨fun ch => by simp, rfl⟩
  | cons channelId channels =>
    cases channels with
    | cons channelId' channels => exact Or.inl ⟨fun ch => by simp, rfl⟩
    | nil =>
      dsimp only
      -- a channel that does not exist is skipped
      by_cases hrange : s.numberOfObjects ≤ channelId
      · rw [if_pos hrange]
        refine Or.inl ⟨fun ch => ?_, rfl⟩
        rintro ⟨hch, hlt⟩
        cases hch
        exact Nat.not_le.mpr hlt hrange
      · rw [if_neg hrange]
        refine Or.inr ⟨channelId, fun ch => ?_, ?_⟩
        · rw [List.map_singleton, List.singleton_inj, eq_comm]
          refine and_iff_left_of_imp ?_
          rintro rfl
          exact Nat.not_le.mp hrange
        · cases obj <;> simp [Sources.set, writtenLevel, sourcePosition]

omit [LinearOrder K] in
theorem levels_setSource (sources : Sources K) (obj : AnyObject K) (ch : ℕ) :
    (s.setSource math sources obj).levels ch =
      (if s.Feeds obj ch then some (writtenLevel obj) else none).getD (sources.levels ch) := by
  rcases s.setSource_cases math sources obj with ⟨hnone, heq⟩ |
    ⟨channelId, hfeeds, heq⟩
  · rw [heq, if_neg (hnone ch)]
    rfl
  · rw [heq]
    by_cases hch : ch = channelId
    · simp [hfeeds, hch]
    · simp [hfeeds, hch]

omit [LinearOrder K] in
theorem positions_setSource (sources : Sources K) (obj : AnyObject K) (ch : ℕ) :
    (s.setSource math sources obj).positions ch =
      (if s.Feeds obj ch then sourcePosition math obj else none).getD (sources.positions ch) := by
  rcases s.setSource_cases math sources obj with ⟨hnone, heq⟩ |
    ⟨channelId, hfeeds, heq⟩
  · rw [heq, if_neg (hnone ch)]
    rfl
  · rw [heq]
    cases sourcePosition math obj with
    | none => simp
    | some pos =>
      by_cases hch : ch = channelId
      · simp [hfeeds, hch]
      · simp [hfeeds, hch]

variable {s math} {objects : ObjectVector K} {ch : ℕ}

omit [LinearOrder K] in
/-- **The levels** that remain after the loop. -/
theorem levels_sources :
    (s.sources math objects).levels ch = ((s.lastObject objects ch).map writtenLevel).getD 0 := by
  let value : AnyObject K → ℕ → Option K := fun obj ch =>
    if s.Feeds obj ch then some (writtenLevel obj) else none
  have hothers : ∀ obj, decide (s.Feeds obj ch) = false → value obj ch = none := fun obj h =>
    if_neg (of_decide_eq_false h)
  unfold sources
  rw [foldl_eq_applyWrites value Sources.levels (s.levels_setSource math)]
  cases hlast : s.lastObject objects ch with
  | none => exact applyWrites_of_find?_none hothers hlast _
  | some obj =>
    have hfeeds : s.Feeds obj ch := by simpa using List.find?_some hlast
    exact applyWrites_of_find? hothers hlast (if_pos hfeeds) _

omit [LinearOrder K] in
/-- **The positions** of objects that are panned remain. -/
theorem positions_sources {obj : AnyObject K} (hlast : s.lastObject objects ch = some obj)
    {pos : XYZ K} (hpos : sourcePosition math obj = some pos) :
    (s.sources math objects).positions ch = pos := by
  let value : AnyObject K → ℕ → Option (XYZ K) := fun obj ch =>
    if s.Feeds obj ch then sourcePosition math obj else none
  have hothers : ∀ obj, decide (s.Feeds obj ch) = false → value obj ch = none := fun obj h =>
    if_neg (of_decide_eq_false h)
  have hfeeds : s.Feeds obj ch := by simpa using List.find?_some hlast
  unfold sources
  rw [foldl_eq_applyWrites value Sources.positions (s.positions_setSource math)]
  exact applyWrites_of_find? hothers hlast ((if_pos hfeeds).trans hpos) _

/-! ### The gains -/

/-- The gains of a source depend on its own position only. -/
theorem calcGains_congr (cap : CAP K) {positions : ℕ → XYZ K} {pos : XYZ K}
    (h : positions ch = pos) (outIdx : ℕ) :
    cap.calcGains math positions ch outIdx = cap.calcGains math (fun _ => pos) ch outIdx := by
  unfold CAP.calcGains
  rw [h]

/-- The gains with the levels that remain. -/
theorem gains_lf (hch : ch < s.numberOfObjects) {outIdx : ℕ}
    (hout : outIdx < s.numberOfLoudspeakers) :
    (s.gains math objects).gains outIdx ch = ((s.lastObject objects ch).bind fun obj =>
      (sourcePosition math obj).map fun pos =>
        writtenLevel obj * s.capCalculator.calcGains math (fun _ => pos) ch outIdx).getD 0 := by
  unfold gains
  dsimp only
  rw [if_pos ⟨hch, hout⟩, levels_sources]
  cases hlast : s.lastObject objects ch with
  | none => exact zero_mul _
  | some obj =>
    cases hpos : sourcePosition math obj with
    | some pos =>
      rw [calcGains_congr _ (positions_sources hlast hpos)]
      simp [hpos]
    | none =>
      -- other types have a level of zero
      have hlevel : writtenLevel obj = 0 := by
        cases obj <;> first | rfl | cases hpos
      simp [hpos, hlevel]

theorem gains_hf (objects : ObjectVector K) {vbipCalculator : CAP_VBAP K}
    (hvbip : s.vbipCalculator = some vbipCalculator) :
    ∃ hfGains, (s.gains math objects).hfGains = some hfGains ∧
      ∀ ch < s.numberOfObjects, ∀ outIdx < s.numberOfLoudspeakers,
        hfGains outIdx ch = ((s.lastObject objects ch).bind fun obj =>
          (sourcePosition math obj).map fun pos =>
            s.vbipGains math vbipCalculator pos (writtenLevel obj) outIdx).getD 0 := by
  unfold gains
  rw [hvbip]
  refine ⟨_, rfl, fun ch hch outIdx hout => ?_⟩
  dsimp only
  rw [if_pos ⟨hch, hout⟩, levels_sources]
  cases hlast : s.lastObject objects ch with
  | none => simp [vbipGains]
  | some obj =>
    cases hpos : sourcePosition math obj with
    | some pos =>
      rw [positions_sources hlast hpos]
      simp [hpos]
    | none =>
      have hlevel : writtenLevel obj = 0 := by
        cases obj <;> first | rfl | cases hpos
      simp [hpos, hlevel, vbipGains]

/-- The objects with diffuseness that are the sources of a channel are fully direct, or all gains of
their positions are zero. -/
def Unaffected (s : CAPGainCalculator K) (math : CMath K) (objects : ObjectVector K) : Prop :=
  ∀ ch < s.numberOfObjects, ∀ psdSrc,
    s.lastObject objects ch = some (.pointSourceWithDiffuseness psdSrc) →
    psdSrc.diffuseness = 0 ∨ s.Silent math ch ⟨psdSrc.x, psdSrc.y, psdSrc.z, false⟩

section Levels

variable [IsStrictOrderedRing K]

variable (s math) in
/-- Two levels make no difference for the high frequencies if they are the same or if there is no
gain. -/
theorem vbipGains_eq_iff (vbipCalculator : CAP_VBAP K) (pos : XYZ K) (level level' : K)
    (outIdx : ℕ) :
    s.vbipGains math vbipCalculator pos level outIdx =
        s.vbipGains math vbipCalculator pos level' outIdx ↔
      level = level' ∨ hfGain vbipCalculator pos outIdx = 0 := by
  have hnorm : ∀ sigNorm : K, max sigNorm (epsilon K) ≠ 0 := fun sigNorm =>
    (lt_of_lt_of_le epsilon_pos (le_max_right sigNorm (epsilon K))).ne'
  unfold vbipGains hfGain
  dsimp only
  rw [mul_eq_mul_right_iff, div_left_inj' (hnorm _)]

/-- **When the direct levels are applied**, for any object vector. -/
theorem appliesLevels_iff (s : CAPGainCalculator K) (math : CMath K) (objects : ObjectVector K) :
    s.AppliesLevels math objects ↔ s.Unaffected math objects := by
  constructor
  · rintro ⟨hlf, hhf⟩ ch hch psdSrc hlast
    rw [or_iff_not_imp_left]
    intro hdiffuse outIdx hout
    -- with a diffuse part, the two levels are different, so the gains have to be zero
    have hlevel : (1 : K) ≠ 1 - psdSrc.diffuseness := fun h => hdiffuse (by linarith)
    refine ⟨?_, fun vbipCalculator hvbip => ?_⟩
    · have heq := (gains_lf hch hout).symm.trans (hlf ch hch outIdx hout)
      rw [hlast] at heq
      exact (mul_eq_mul_right_iff.mp heq).resolve_left hlevel
    · obtain ⟨hfGains, hgains, hdirect⟩ := hhf vbipCalculator hvbip
      obtain ⟨hfGains', hgains', hwritten⟩ := gains_hf objects hvbip
      obtain rfl := Option.some.inj (hgains.symm.trans hgains')
      have heq := (hwritten ch hch outIdx hout).symm.trans (hdirect ch hch outIdx hout)
      rw [hlast] at heq
      exact ((vbipGains_eq_iff _ _ _ _ _ _ _).mp heq).resolve_left hlevel
  · intro hunaffected
    -- only the levels of objects with a diffuse part are mixed up
    have hlevel : ∀ ch < s.numberOfObjects, ∀ obj, s.lastObject objects ch = some obj →
        writtenLevel obj = directLevel obj ∨
          ∀ pos, sourcePosition math obj = some pos → s.Silent math ch pos := by
      intro ch hch obj hlast
      cases obj with
      | pointSourceWithDiffuseness psdSrc =>
        rcases hunaffected ch hch psdSrc hlast with hzero | hsilent
        · exact Or.inl (by simp [writtenLevel, directLevel, hzero])
        · refine Or.inr fun pos hpos => ?_
          cases hpos
          exact hsilent
      | _ => exact Or.inl rfl
    refine ⟨fun ch hch outIdx hout => ?_, fun vbipCalculator hvbip => ?_⟩
    · rw [gains_lf hch hout]
      cases hlast : s.lastObject objects ch with
      | none => rfl
      | some obj =>
        rcases hlevel ch hch obj hlast with heq | hsilent
        · rw [Option.bind_some, Option.bind_some, heq]
        · cases hpos : sourcePosition math obj with
          | none => simp [hpos]
          | some pos => simp [hpos, (hsilent pos hpos outIdx hout).1]
    · obtain ⟨hfGains, hgains, hwritten⟩ := gains_hf objects hvbip
      refine ⟨hfGains, hgains, fun ch hch outIdx hout => ?_⟩
      rw [hwritten ch hch outIdx hout]
      cases hlast : s.lastObject objects ch with
      | none => rfl
      | some obj =>
        rcases hlevel ch hch obj hlast with heq | hsilent
        · rw [Option.bind_some, Option.bind_some, heq]
        · cases hpos : sourcePosition math obj with
          | none => simp [hpos]
          | some pos =>
            have hzero := (hsilent pos hpos outIdx hout).2 vbipCalculator hvbip
            have heq := (vbipGains_eq_iff s math vbipCalculator pos (writtenLevel obj)
              (directLevel obj) outIdx).mpr (Or.inr hzero)
            simp [hpos, heq]

end Levels

/-! ### One loudspeaker -/

/-- A calculator for one audio channel and one loudspeaker, without gains for high frequencies. -/
def oneLoudspeaker : CAPGainCalculator ℚ where
  numberOfObjects := 1
  numberOfLoudspeakers := 1
  capCalculator := {
    array := {
      is2D := false
      isInfinite := false
      numberOfSpeakers := 1
      position := fun _ => ⟨1, 0, 0, false⟩
      triplet := []
      channel := [0]
      id := OrderedMap.empty
      subwooferChannels := []
      subwooferGains := fun _ _ => 0
      reRoutingCoeff := fun _ _ => 0
      gainAdjustment := fun _ => 1
      delayAdjustment := fun _ => 0
      outputEqs := none }
    listenerPos := ⟨0, 0, 0⟩
    listenerAuralAxis := ⟨0, 1, 0⟩
    nSources := 1
    maxGainPreComp := 1
    maxGain := 1
    HFmode := false }
  vbipCalculator := none

/-- A point source with diffuseness, for the first audio channel. -/
def oneSource (diffuseness : ℚ) : ObjectVector ℚ :=
  ObjectVector.empty.insert (.pointSourceWithDiffuseness {
    id := 0
    groupId := 0
    level := 1
    priority := 0
    channelIndices := [0]
    eqCoefficients := []
    x := 1
    y := 0
    z := 0
    channelLockDistance := 0
    diffuseness := diffuseness })

theorem lastObject_oneSource (diffuseness : ℚ) : ∃ psdSrc,
    oneLoudspeaker.lastObject (oneSource diffuseness) 0 = some (.pointSourceWithDiffuseness psdSrc)
      ∧ psdSrc.diffuseness = diffuseness :=
  ⟨_, rfl, rfl⟩

/-- The source is fully direct. -/
theorem appliesLevels_direct :
    oneLoudspeaker.AppliesLevels ⟨id, id, id, 1⟩ (oneSource 0) := by
  refine (appliesLevels_iff _ _ _).mpr fun ch hch psdSrc hlast => Or.inl ?_
  obtain rfl := Nat.lt_one_iff.mp hch
  obtain ⟨psdSrc', hlast', hdirect⟩ := lastObject_oneSource 0
  obtain rfl := AnyObject.pointSourceWithDiffuseness.inj
    (Option.some.inj (hlast.symm.trans hlast'))
  exact hdirect

/-- The source is fully diffuse, and its gain is not zero. -/
theorem not_appliesLevels_diffuse :
    (oneLoudspeaker.gains ⟨id, id, id, 1⟩ (oneSource 1)).gains 0 0 = 1 ∧
      ¬oneLoudspeaker.AppliesLevels ⟨id, id, id, 1⟩ (oneSource 1) := by
  obtain ⟨psdSrc, hlast, hdiffuse⟩ := lastObject_oneSource 1
  have hcap : ∀ pos : XYZ ℚ, oneLoudspeaker.capCalculator.calcGains ⟨id, id, id, 1⟩
      (fun _ => pos) 0 0 = 1 := fun _ => rfl
  have hgain : (oneLoudspeaker.gains ⟨id, id, id, 1⟩ (oneSource 1)).gains 0 0 = 1 := by
    rw [gains_lf Nat.zero_lt_one Nat.zero_lt_one, hlast]
    simp [sourcePosition, writtenLevel, hcap]
  refine ⟨hgain, fun happlies => ?_⟩
  have hdirect := happlies.lf 0 Nat.zero_lt_one 0 Nat.zero_lt_one
  rw [hgain, hlast] at hdirect
  simp [sourcePosition, directLevel, hdiffuse] at hdirect

end CAPGainCalculator

end Visr
