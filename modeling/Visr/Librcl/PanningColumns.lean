import Mathlib.Analysis.Real.Sqrt
import Mathlib.Analysis.SpecialFunctions.Trigonometric.Basic
import Mathlib.Data.Rat.Sqrt
import Visr.Librcl.PanningNorm

/-!
# The columns of the gain matrices

What the panning calculator leaves in its output matrices for an object vector.

## Main results

* `PanningCalculator.processObject_ok_iff` — what is written for an object.
* `PanningCalculator.processObjects_ok_iff` — what is written for all objects.
* `PanningCalculator.wellDefined_iff` — **when the columns are well-defined**.
-/

namespace Visr

open PanningCalculator Vector3D

/-- An audio channel of an object: the matrices to which it is written, its gains before they are
normalised, and their norm after this. -/
structure PannedChannel (K : Type) where
  channel : ℕ
  bands : Band → Bool
  gains : Band → ℕ → Option K
  level : Band → K

variable {K : Type} [Field K] [LinearOrder K]

namespace PanningCalculator

variable (s : PanningCalculator K) (math : CMath K)

/-- All labels are labels of loudspeakers. -/
def known (outputChannels : List String) : Bool :=
  outputChannels.all fun label => (s.labelLookup.find? label).isSome

/-- All audio channels have output channels whose labels are known. -/
def labelled (co : ChannelObject K) : Bool :=
  co.channelIndices.zipIdx.all fun ch => (co.outputChannels[ch.2]?).any s.known

/-- An audio channel is played back by the loudspeakers with the labels of its output channels. -/
def labelledChannel (co : ChannelObject K) (ch : UnsignedInt × ℕ) : PannedChannel K where
  channel := ch.1
  bands := fun _ => true
  gains := fun _ l => some (if ∃ label ∈ co.outputChannels.getD ch.2 [],
    s.labelLookup.find? label = some l then 1 else 0)
  level := ratio co.diffuseness

/-- The audio channel of a diffuse source, which is played back by all loudspeakers. -/
def diffuseChannel (channel : ℕ) : PannedChannel K where
  channel := channel
  bands := fun band => decide (band = .diffuse)
  gains := fun _ _ => some 1
  level := fun _ => 1

/-- The audio channel of a plane wave or a point source, unless the source cannot be panned. -/
def sourceChannels (source : PannedSource K) (channel : ℕ) : Option (List (PannedChannel K)) :=
  match s.vbapCalculator.calculateGainsUnNormalised source.position source.planeWave with
  | .ok tmpGains => some [{
      channel := channel
      bands := fun _ => true
      gains := sourceGains math source tmpGains
      level := ratio source.diffuseRatio }]
  | .error _ => none

/-- The audio channels of an object that has one. -/
def singleChannel (obj : AnyObject K) (channel : ℕ) : Option (List (PannedChannel K)) :=
  match obj with
  | .diffuseSource _ => some [diffuseChannel channel]
  | obj =>
    match pannedSource math obj with
    | some source => s.sourceChannels math source channel
    | none => some []

/-- The audio channels of an object, unless a label is not known or the source cannot be
panned.  There are none for objects that are not handled. -/
def objectChannels : AnyObject K → Option (List (PannedChannel K))
  | .channelObject co =>
    if s.labelled co = true then some (co.channelIndices.zipIdx.map (s.labelledChannel co))
    else none
  | obj =>
    match obj.toObject.channelIndices with
    | [channel] => s.singleChannel math obj channel
    | _ => some []

/-- The audio channels of an object, which is skipped if they are not known or one of them is out
of range. -/
def pannedChannels (obj : AnyObject K) : List (PannedChannel K) :=
  match s.objectChannels math obj with
  | some channels =>
    if channels.all fun w => decide (w.channel < s.numberOfObjects) then channels else []
  | none => []

/-- The last object that has a given audio channel. -/
def lastChannel (objects : ObjectVector K) (band : Band) (c : ℕ) : Option (PannedChannel K) :=
  (objects.toList.flatMap (s.pannedChannels math)).reverse.find? fun w =>
    w.bands band && decide (w.channel = c)

/-- What is expected: the columns of audio channels without an object are zero, and the other ones
have the right norm unless all gains are zero. -/
structure WellDefined (objects : ObjectVector K) (gains : GainColumns K) : Prop where
  empty : ∀ band c, s.panningMode band = true → c < s.numberOfObjects →
    s.lastChannel math objects band c = none →
    ∀ l < s.numberOfRegularLoudspeakers, gains (band, c) l = some 0
  normalised : ∀ band c w, s.panningMode band = true → c < s.numberOfObjects →
    s.lastChannel math objects band c = some w →
    (∃ l < s.numberOfRegularLoudspeakers, w.gains band l ≠ some 0) →
    sigNorm math (s.normalisation band) s.numberOfRegularLoudspeakers (gains (band, c)) =
      some (w.level band)

/-- No gain is written behind the end of a matrix. -/
def Fits (w : PannedChannel K) : Prop :=
  ∀ band, s.panningMode band = true → w.bands band = true →
    0 < s.numberOfRegularLoudspeakers → w.channel < s.numberOfObjects

/-- The audio channels of the object are known, and no gain is written behind the end of a
matrix. -/
def Processable (obj : AnyObject K) : Prop :=
  ∃ channels, s.objectChannels math obj = some channels ∧ ∀ w ∈ channels, s.Fits w

/-- All objects can be processed, and the gains that remain in the matrices can be normalised. -/
structure Admissible (objects : ObjectVector K) : Prop where
  processable : ∀ obj ∈ objects.toList, s.Processable math obj
  normalisable : ∀ band c w, s.panningMode band = true → c < s.numberOfObjects →
    s.lastChannel math objects band c = some w →
    Normalisable math (s.normalisation band) s.numberOfRegularLoudspeakers (w.gains band)
      (w.level band)

/-! ### One audio channel -/

/-- The column that is written for an audio channel. -/
def column (w : PannedChannel K) (band : Band) : ℕ → Option K :=
  normalise math (s.normalisation band) s.numberOfRegularLoudspeakers (w.gains band)
    (w.level band)

/-- The columns that are written for an audio channel. -/
def written (w : PannedChannel K) (cell : Band × ℕ) : Option (ℕ → Option K) :=
  if s.panningMode cell.1 = true ∧ w.bands cell.1 = true ∧ w.channel = cell.2 then
    some (s.column math w cell.1)
  else none

theorem writeColumn_ok_iff (band : Band) (channel : ℕ) (g : ℕ → Option K) (level : K)
    (gains gains' : GainColumns K) :
    s.writeColumn math band channel g level gains = .ok gains' ↔
      (s.panningMode band = true → 0 < s.numberOfRegularLoudspeakers →
        channel < s.numberOfObjects) ∧
      (fun cell => if s.panningMode band = true ∧ cell = (band, channel) then
        normalise math (s.normalisation band) s.numberOfRegularLoudspeakers g level
        else gains cell) = gains' := by
  unfold writeColumn
  by_cases hmode : s.panningMode band = true
  · rw [if_pos hmode]
    have hupdate : (fun cell => if s.panningMode band = true ∧ cell = (band, channel) then
        normalise math (s.normalisation band) s.numberOfRegularLoudspeakers g level
        else gains cell) = Function.update gains (band, channel)
          (normalise math (s.normalisation band) s.numberOfRegularLoudspeakers g level) := by
      funext cell
      rw [Function.update_apply]
      exact if_congr (and_iff_right hmode) rfl rfl
    rw [hupdate]
    -- without loudspeakers, the loop does not look at the channel
    by_cases hrange : 0 < s.numberOfRegularLoudspeakers ∧ s.numberOfObjects ≤ channel
    · rw [if_pos hrange]
      exact iff_of_false nofun fun h => absurd (h.1 hmode hrange.1) (Nat.not_lt.mpr hrange.2)
    · rw [if_neg hrange, Except.ok.injEq]
      exact (and_iff_right fun _ hpos => Nat.not_le.mp fun hle => hrange ⟨hpos, hle⟩).symm
  · rw [if_neg hmode, Except.ok.injEq]
    have hsame : (fun cell => if s.panningMode band = true ∧ cell = (band, channel) then
        normalise math (s.normalisation band) s.numberOfRegularLoudspeakers g level
        else gains cell) = gains := by
      funext cell
      exact if_neg fun h => hmode h.1
    rw [hsame]
    exact (and_iff_right fun h => absurd h hmode).symm

theorem writeColumns_ok_iff (channel : ℕ) (g : Band → ℕ → Option K) (level : Band → K)
    (gains gains' : GainColumns K) :
    s.writeColumns math channel g level gains = .ok gains' ↔
      s.Fits ⟨channel, fun _ => true, g, level⟩ ∧
        applyWrites (s.written math) [⟨channel, fun _ => true, g, level⟩] gains = gains' := by
  unfold writeColumns
  rw [foldlM_ok_iff fun gains band gains' =>
    s.writeColumn_ok_iff math band channel (g band) (level band) gains gains']
  refine and_congr ?_ (Eq.congr_left ?_)
  · constructor
    · intro h band hmode _
      refine h band ?_ hmode
      cases band with
      | lf => exact List.mem_cons_self
      | hf => exact List.mem_cons_of_mem _ List.mem_cons_self
      | diffuse => exact List.mem_cons_of_mem _ (List.mem_cons_of_mem _ List.mem_cons_self)
    · exact fun h band _ hmode => h band hmode rfl
  · funext cell
    obtain ⟨band, c⟩ := cell
    simp only [List.foldl_cons, List.foldl_nil, applyWrites_cons, applyWrites_nil, written,
      Prod.mk.injEq, true_and]
    cases band <;> simp only [column, reduceCtorEq, false_and, and_false, if_false, true_and]
    all_goals
      split
      next h => rw [if_pos ⟨h.1, h.2.symm⟩, Option.getD_some]
      next h => rw [if_neg fun h' => h ⟨h'.1, h'.2.symm⟩, Option.getD_none]

/-! ### One object -/

omit [LinearOrder K] in
theorem setLabelGain_ok_iff (g : ℕ → K) (label : String) (g' : ℕ → K) :
    s.setLabelGain g label = .ok g' ↔ (s.labelLookup.find? label).isSome = true ∧
      (fun l => if s.labelLookup.find? label = some l then 1 else g l) = g' := by
  unfold setLabelGain
  cases s.labelLookup.find? label with
  | none => exact iff_of_false nofun fun h => nomatch h.1
  | some l =>
    dsimp only
    rw [Except.ok.injEq, Option.isSome_some, and_iff_right rfl]
    refine Eq.congr_left (funext fun l' => ?_)
    rw [Function.update_apply]
    exact if_congr (eq_comm.trans Option.some_inj.symm) rfl rfl

omit [LinearOrder K] in
/-- The gains of loudspeakers with labels that are known. -/
theorem labelGains_ok_iff (outputChannels : List String) (tmpGains : ℕ → K) :
    s.labelGains outputChannels = .ok tmpGains ↔ s.known outputChannels = true ∧
      (fun l => if ∃ label ∈ outputChannels, s.labelLookup.find? label = some l then 1 else 0) =
        tmpGains := by
  have hfold : ∀ (labels : List String) (g : ℕ → K),
      labels.foldl (fun g label l => if s.labelLookup.find? label = some l then 1 else g l) g =
        fun l => if ∃ label ∈ labels, s.labelLookup.find? label = some l then 1 else g l := by
    intro labels
    induction labels with
    | nil =>
      intro g
      funext l
      exact (if_neg fun ⟨_, hmem, _⟩ => nomatch hmem).symm
    | cons label labels ih =>
      intro g
      rw [List.foldl_cons, ih]
      funext l
      by_cases hrest : ∃ label ∈ labels, s.labelLookup.find? label = some l
      · rw [if_pos hrest, if_pos (List.exists_mem_cons_of_exists hrest)]
      · rw [if_neg hrest]
        refine if_congr ⟨fun h => ⟨label, List.mem_cons_self, h⟩, fun h => ?_⟩ rfl rfl
        exact (List.or_exists_of_exists_mem_cons h).resolve_right hrest
  unfold labelGains known
  rw [foldlM_ok_iff s.setLabelGain_ok_iff, hfold, List.all_eq_true]

/-- The audio channels are known, and they are written. -/
def Writes (channels : Option (List (PannedChannel K))) (gains gains' : GainColumns K) : Prop :=
  (∃ ws, channels = some ws ∧ ∀ w ∈ ws, s.Fits w) ∧
    applyWrites (s.written math) (channels.getD []) gains = gains'

theorem writes_singleton (w : PannedChannel K) (gains gains' : GainColumns K) :
    s.Writes math (some [w]) gains gains' ↔
      s.Fits w ∧ applyWrites (s.written math) [w] gains = gains' := by
  refine and_congr ⟨?_, fun h => ⟨[w], rfl, List.forall_mem_singleton.mpr h⟩⟩ Iff.rfl
  rintro ⟨_, ⟨⟩, h⟩
  exact List.forall_mem_singleton.mp h

/-- Nothing is written for objects that are not handled. -/
theorem writes_nil (gains gains' : GainColumns K) :
    s.Writes math (some []) gains gains' ↔
      (.ok gains : Except Abort (GainColumns K)) = .ok gains' := by
  rw [Except.ok.injEq]
  exact and_iff_right ⟨[], rfl, List.forall_mem_nil _⟩

theorem not_writes_none (gains gains' : GainColumns K) : ¬ s.Writes math none gains gains' :=
  fun ⟨⟨_, h, _⟩, _⟩ => nomatch h

/-- One audio channel of a channel object. -/
theorem processChannel_ok_iff (co : ChannelObject K) (gains : GainColumns K)
    (ch : UnsignedInt × ℕ) (gains' : GainColumns K) :
    s.processChannel math co gains ch = .ok gains' ↔
      ((co.outputChannels[ch.2]?).any s.known = true ∧ s.Fits (s.labelledChannel co ch)) ∧
        applyWrites (s.written math) [s.labelledChannel co ch] gains = gains' := by
  unfold processChannel ChannelObject.outputChannel labelledChannel
  rw [List.getD_eq_getElem?_getD]
  cases co.outputChannels[ch.2]? with
  | none => exact iff_of_false nofun fun h => nomatch h.1.1
  | some outputChannels =>
    show (s.labelGains outputChannels >>= fun tmpGains => _) = _ ↔ _
    rw [Option.any_some, Option.getD_some, and_assoc]
    constructor
    · intro hok
      obtain ⟨tmpGains, hlabels, hwrite⟩ := exists_of_bind_ok hok
      obtain ⟨hknown, rfl⟩ := (s.labelGains_ok_iff outputChannels tmpGains).mp hlabels
      exact ⟨hknown, (s.writeColumns_ok_iff math _ _ _ gains gains').mp hwrite⟩
    · rintro ⟨hknown, hwrite⟩
      rw [(s.labelGains_ok_iff outputChannels _).mpr ⟨hknown, rfl⟩]
      exact (s.writeColumns_ok_iff math _ _ _ gains gains').mpr hwrite

/-- The branch for channel objects. -/
theorem processChannels_ok_iff (co : ChannelObject K) (gains gains' : GainColumns K) :
    co.channelIndices.zipIdx.foldlM (s.processChannel math co) gains = .ok gains' ↔
      s.Writes math (s.objectChannels math (.channelObject co)) gains gains' := by
  rw [foldlM_ok_iff (s.processChannel_ok_iff math co),
    foldl_applyWrites (s.written math) fun ch => [s.labelledChannel co ch],
    ← List.map_eq_flatMap]
  have hlabelled : s.labelled co = true ↔ ∀ ch ∈ co.channelIndices.zipIdx,
      (co.outputChannels[ch.2]?).any s.known = true := List.all_eq_true
  show _ ↔ s.Writes math (if s.labelled co = true then _ else none) gains gains'
  by_cases h : s.labelled co = true
  · rw [if_pos h]
    refine and_congr ?_ Iff.rfl
    constructor
    · exact fun hall => ⟨_, rfl, List.forall_mem_map.mpr fun ch hch => (hall ch hch).2⟩
    · rintro ⟨_, ⟨⟩, hfits⟩ ch hch
      exact ⟨hlabelled.mp h ch hch, List.forall_mem_map.mp hfits ch hch⟩
  · rw [if_neg h]
    refine iff_of_false (fun hall => h (hlabelled.mpr fun ch hch => ?_))
      (s.not_writes_none math gains gains')
    exact (hall.1 ch hch).1

/-- The branches for plane waves and point sources. -/
theorem processSource_ok_iff (source : PannedSource K) (channel : ℕ)
    (gains gains' : GainColumns K) :
    s.processSource math source channel gains = .ok gains' ↔
      s.Writes math (s.sourceChannels math source channel) gains gains' := by
  unfold processSource sourceChannels
  cases s.vbapCalculator.calculateGainsUnNormalised source.position source.planeWave with
  | error e => exact iff_of_false nofun (s.not_writes_none math gains gains')
  | ok tmpGains =>
    exact (s.writeColumns_ok_iff math channel _ _ gains gains').trans
      (s.writes_singleton math _ gains gains').symm

/-- The branch for diffuse sources. -/
theorem processDiffuse_ok_iff (channel : ℕ) (gains gains' : GainColumns K) :
    s.writeColumn math .diffuse channel (fun _ => some 1) 1 gains = .ok gains' ↔
      s.Writes math (some [diffuseChannel channel]) gains gains' := by
  rw [writeColumn_ok_iff, writes_singleton]
  refine and_congr ?_ (Eq.congr_left ?_)
  · constructor
    · intro h band hmode hband
      rw [of_decide_eq_true hband] at hmode
      exact h hmode
    · exact fun h hmode => h .diffuse hmode rfl
  · funext cell
    obtain ⟨band, c⟩ := cell
    rw [applyWrites_cons, applyWrites_nil]
    unfold written
    by_cases h : s.panningMode band = true ∧ band = .diffuse ∧ channel = c
    · obtain ⟨hmode, rfl, rfl⟩ := h
      rw [if_pos ⟨hmode, rfl⟩, if_pos ⟨hmode, rfl, rfl⟩]
      rfl
    · have hcell : ¬ (s.panningMode .diffuse = true ∧ (band, c) = (.diffuse, channel)) := by
        rintro ⟨hmode, heq⟩
        obtain ⟨rfl, rfl⟩ := Prod.mk.inj heq
        exact h ⟨hmode, rfl, rfl⟩
      rw [if_neg hcell, if_neg fun hw => h ⟨hw.1, of_decide_eq_true hw.2.1, hw.2.2⟩]
      rfl

/-- The branches for objects with one audio channel. -/
theorem processSingleChannel_ok_iff (gains : GainColumns K) (obj : AnyObject K) (channel : ℕ)
    (gains' : GainColumns K) :
    s.processSingleChannel math gains obj channel = .ok gains' ↔
      s.Writes math (s.singleChannel math obj channel) gains gains' := by
  have hpanned : (match pannedSource math obj with
        | some source => s.processSource math source channel gains
        | none => .ok gains) = .ok gains' ↔
      s.Writes math (match pannedSource math obj with
        | some source => s.sourceChannels math source channel
        | none => some []) gains gains' := by
    cases pannedSource math obj with
    | none => exact (s.writes_nil math gains gains').symm
    | some source => exact s.processSource_ok_iff math source channel gains gains'
  cases obj with
  | diffuseSource o => exact s.processDiffuse_ok_iff math channel gains gains'
  | _ => exact hpanned

/-- **What is written for an object.** -/
theorem processObject_ok_iff (gains : GainColumns K) (obj : AnyObject K)
    (gains' : GainColumns K) :
    s.processObject math gains obj = .ok gains' ↔
      s.Writes math (s.objectChannels math obj) gains gains' := by
  have hindices : ∀ indices : List UnsignedInt,
      (match indices with
        | [channel] => s.processSingleChannel math gains obj channel
        | _ => .ok gains) = .ok gains' ↔
      s.Writes math (match indices with
        | [channel] => s.singleChannel math obj channel
        | _ => some []) gains gains' := by
    intro indices
    match indices with
    | [] => exact (s.writes_nil math gains gains').symm
    | [channel] => exact s.processSingleChannel_ok_iff math gains obj channel gains'
    | _ :: _ :: _ => exact (s.writes_nil math gains gains').symm
  cases obj with
  | channelObject co => exact s.processChannels_ok_iff math co gains gains'
  | _ => exact hindices _

/-- **What is written for all objects.** -/
theorem processObjects_ok_iff (objects : ObjectVector K) (gains' : GainColumns K) :
    s.processObjects math objects = .ok gains' ↔
      (∀ obj ∈ objects.toList, s.Processable math obj) ∧
      applyWrites (s.written math)
        (objects.toList.flatMap fun obj => (s.objectChannels math obj).getD [])
        (fun _ _ => some 0) = gains' := by
  unfold processObjects
  rw [foldlM_ok_iff (s.processObject_ok_iff math), foldl_applyWrites]
  rfl

/-! ### The columns -/

/-- All audio channels of an object are written to the same matrices. -/
theorem bands_eq {obj : AnyObject K} {ws : List (PannedChannel K)}
    (h : s.objectChannels math obj = some ws) {w w' : PannedChannel K} (hw : w ∈ ws)
    (hw' : w' ∈ ws) : w.bands = w'.bands := by
  -- all objects but channel objects have one channel at most
  have hshort : ∀ {w0 : List (PannedChannel K)}, w0.length ≤ 1 → some w0 = some ws →
      w.bands = w'.bands := by
    rintro w0 hlength ⟨⟩
    match ws with
    | [] => cases hw
    | [w0] => rw [List.mem_singleton.mp hw, List.mem_singleton.mp hw']
  have hsource : ∀ channel : ℕ, (match pannedSource math obj with
        | some source => s.sourceChannels math source channel
        | none => some []) = some ws → w.bands = w'.bands := by
    intro channel
    cases pannedSource math obj with
    | none => exact hshort (Nat.zero_le 1)
    | some source =>
      dsimp only [sourceChannels]
      split
      · exact hshort (Nat.le_refl 1)
      · exact nofun
  have hsingle : ∀ channel : ℕ, s.singleChannel math obj channel = some ws →
      w.bands = w'.bands := by
    intro channel
    cases obj with
    | diffuseSource o => exact hshort (Nat.le_refl 1)
    | _ => exact hsource channel
  have hindices : ∀ indices : List UnsignedInt, (match indices with
        | [channel] => s.singleChannel math obj channel
        | _ => some []) = some ws → w.bands = w'.bands := by
    intro indices
    match indices with
    | [] => exact hshort (Nat.zero_le 1)
    | [channel] => exact hsingle channel
    | _ :: _ :: _ => exact hshort (Nat.zero_le 1)
  cases obj with
  | channelObject co =>
    dsimp only [objectChannels] at h
    split at h
    · cases h
      obtain ⟨ch, -, rfl⟩ := List.mem_map.mp hw
      obtain ⟨ch', -, rfl⟩ := List.mem_map.mp hw'
      rfl
    · cases h
  | _ => exact hindices _ h

section Columns

variable {s math} {band : Band} (hpos : 0 < s.numberOfRegularLoudspeakers)
  (hmode : s.panningMode band = true)

include hpos hmode

/-- No object is skipped if all of them can be processed. -/
theorem filter_pannedChannels {obj : AnyObject K} (h : s.Processable math obj) :
    (s.pannedChannels math obj).filter (fun w => w.bands band) =
      ((s.objectChannels math obj).getD []).filter (fun w => w.bands band) := by
  obtain ⟨ws, hws, hfits⟩ := h
  unfold pannedChannels
  rw [hws, Option.getD_some]
  dsimp only
  split
  · rfl
  next hrange =>
    -- An audio channel that is out of range is not written to the matrix of this band, and then
    -- the other ones are not written to it either.
    have hnone : ∀ w ∈ ws, ¬ w.bands band = true := by
      intro w hw hband
      refine hrange (List.all_eq_true.mpr fun w' hw' => decide_eq_true ?_)
      rw [s.bands_eq math hws hw hw'] at hband
      exact hfits w' hw' band hmode hband hpos
    rw [List.filter_eq_nil_iff.mpr hnone]
    rfl

/-- **The columns of the audio channels** come from the last objects that have them. -/
theorem applyWrites_column {objects : ObjectVector K}
    (h : ∀ obj ∈ objects.toList, s.Processable math obj) (gains : GainColumns K) (c : ℕ) :
    applyWrites (s.written math)
        (objects.toList.flatMap fun obj => (s.objectChannels math obj).getD []) gains (band, c) =
      ((s.lastChannel math objects band c).map fun w => s.column math w band).getD
        (gains (band, c)) := by
  have hfilter : (objects.toList.flatMap (s.pannedChannels math)).filter (fun w => w.bands band) =
      (objects.toList.flatMap fun obj => (s.objectChannels math obj).getD []).filter
        (fun w => w.bands band) := by
    rw [List.filter_flatMap, List.filter_flatMap]
    refine List.flatMap_congr fun obj hobj => ?_
    exact filter_pannedChannels hpos hmode (h obj hobj)
  -- a column is written by the channels of its number in a band that is panned
  have hwritten : (fun w => s.written math w (band, c)) =
      Option.map (fun w => s.column math w band) ∘
        Option.guard fun w => w.bands band && decide (w.channel = c) := by
    funext w
    have hiff : (s.panningMode band = true ∧ w.bands band = true ∧ w.channel = c) ↔
        (w.bands band && decide (w.channel = c)) = true := by
      rw [Bool.and_eq_true, decide_eq_true_iff]
      exact and_iff_right hmode
    unfold written
    rw [Function.comp_apply, Option.guard]
    by_cases hw : (w.bands band && decide (w.channel = c)) = true
    · rw [if_pos (hiff.mpr hw), if_pos hw]
      rfl
    · rw [if_neg fun h => hw (hiff.mp h), if_neg hw]
      rfl
  have hfind : ∀ l : List (PannedChannel K),
      l.reverse.find? (fun w => w.bands band && decide (w.channel = c)) =
        (l.filter fun w => w.bands band).reverse.find? fun w => decide (w.channel = c) := by
    intro l
    rw [← List.filter_reverse, List.find?_filter]
    simp only [Bool.decide_and, Bool.decide_eq_true]
  rw [applyWrites_eq, hwritten, ← List.map_findSome?, List.findSome?_guard, lastChannel, hfind,
    hfind, hfilter]

end Columns

/-- **When the columns are well-defined**: the labels are known, the sources can be panned, no
audio channel is out of range, and the gains that remain can be normalised. -/
theorem wellDefined_iff [IsStrictOrderedRing K] {math : CMath K} (hmath : math.Exact)
    (s : PanningCalculator K) (objects : ObjectVector K) :
    (∃ gains, s.processObjects math objects = .ok gains ∧ s.WellDefined math objects gains) ↔
      s.Admissible math objects := by
  have hnonzero : ∀ {n : ℕ} {g : ℕ → Option K}, ¬ (∀ l < n, g l = some 0) ↔
      ∃ l < n, g l ≠ some 0 := by
    intro n g
    push Not
    rfl
  constructor
  · rintro ⟨gains, hok, hwell⟩
    obtain ⟨hall, heq⟩ := (s.processObjects_ok_iff math objects gains).mp hok
    refine ⟨hall, fun band c w hmode hc hlast => ?_⟩
    -- a column of zeros has no norm that could be wrong
    by_cases hzero : ∀ l < s.numberOfRegularLoudspeakers, w.gains band l = some 0
    · exact Or.inl hzero
    · obtain ⟨l, hl, hne⟩ := hnonzero.mp hzero
      have hnorm := hwell.normalised band c w hmode hc hlast ⟨l, hl, hne⟩
      rw [← heq, applyWrites_column (Nat.zero_lt_of_lt hl) hmode hall, hlast, Option.map_some,
        Option.getD_some] at hnorm
      exact (sigNorm_normalise_iff hmath (s.normalisation band).property (w.level band) hl
        hne).mp hnorm
  · rintro ⟨hall, hnormalisable⟩
    refine ⟨_, (s.processObjects_ok_iff math objects _).mpr ⟨hall, rfl⟩, ?_, ?_⟩
    · intro band c hmode hc hlast l hl
      rw [applyWrites_column (Nat.zero_lt_of_lt hl) hmode hall, hlast]
      rfl
    · rintro band c w hmode hc hlast ⟨l, hl, hne⟩
      rw [applyWrites_column (Nat.zero_lt_of_lt hl) hmode hall, hlast, Option.map_some,
        Option.getD_some]
      exact (sigNorm_normalise_iff hmath (s.normalisation band).property (w.level band) hl
        hne).mpr (hnormalisable band c w hmode hc hlast)

/-! ### One loudspeaker -/

/-- A calculator for one object and one loudspeaker, whose label is `"L"`. -/
def oneLoudspeaker (K : Type) [Field K] : PanningCalculator K where
  numberOfObjects := 1
  adaptiveListenerPosition := true
  numberOfRegularLoudspeakers := 1
  vbapCalculator := {
    is2D := true
    numTotLoudspeakers := 1
    numRegLoudspeakers := 1
    numVirtLoudspeakers := 0
    positions := fun _ => ⟨1, 0, 0⟩
    triplets := []
    reroutingMatrix := fun _ _ => 0
    listenerPos := ⟨0, 0, 0⟩
    invMatrix := fun _ _ => 0 }
  panningMode := fun _ => true
  normalisation := fun _ => ⟨.Energy, PanningCalculator.Normalisation.energy_ne_default⟩
  labelLookup := OrderedMap.empty.insert "L" 0
  labelLookup_lt := by
    intro label l h
    rw [OrderedMap.find?_insert 0 rfl] at h
    split at h
    · rw [← Option.some.inj h]
      exact Nat.zero_lt_one
    · cases h

/-- An object vector with a channel object. -/
def oneChannelObject (K : Type) [Field K] (channel : UnsignedInt) (label : String) :
    ObjectVector K :=
  ObjectVector.empty.insert (.channelObject {
    id := 0
    groupId := 0
    level := 1
    priority := 0
    channelIndices := [channel]
    eqCoefficients := []
    outputChannels := [[label]]
    diffuseness := 1 / (2 : ℕ) })

omit [LinearOrder K] in
theorem toList_oneChannelObject (channel : UnsignedInt) (label : String) :
    (oneChannelObject K channel label).toList = [.channelObject {
      id := 0
      groupId := 0
      level := 1
      priority := 0
      channelIndices := [channel]
      eqCoefficients := []
      outputChannels := [[label]]
      diffuseness := 1 / 2 }] := rfl

/-- The columns are well-defined for an object with the label of the loudspeaker. -/
theorem wellDefined_oneLoudspeaker :
    ∃ gains, (oneLoudspeaker ℝ).processObjects ⟨Real.sqrt, Real.cos, Real.sin, Real.pi / 180⟩
        (oneChannelObject ℝ 0 "L") = .ok gains ∧
      (oneLoudspeaker ℝ).WellDefined ⟨Real.sqrt, Real.cos, Real.sin, Real.pi / 180⟩
        (oneChannelObject ℝ 0 "L")
        gains := by
  refine (wellDefined_iff ⟨fun x _ => Real.sqrt_nonneg x, fun x => Real.mul_self_sqrt⟩ _ _).mpr
    ⟨?_, ?_⟩
  · rw [toList_oneChannelObject]
    refine List.forall_mem_singleton.mpr ⟨_, rfl, List.forall_mem_singleton.mpr ?_⟩
    exact fun _ _ _ _ => Nat.zero_lt_one
  · rintro band c w - hc hlast
    obtain rfl : c = 0 := by
      have hone : c < 1 := hc
      omega
    obtain rfl := Option.some.inj (show some _ = some w from hlast)
    refine Or.inr ⟨fun _ => 1, fun l hl => ?_, Or.inr ⟨?_, ?_⟩⟩
    · obtain rfl : l = 0 := by
        have hone : l < 1 := hl
        omega
      exact congrArg some (if_pos ⟨"L", List.mem_cons_self, rfl⟩)
    · show 0 ≤ ratio (1 / 2 : ℝ) band
      cases band <;> norm_num [ratio]
    · show epsilon ℝ ≤ Real.sqrt (∑ i ∈ Finset.range 1, 1 * 1)
      rw [Finset.sum_range_one, one_mul, Real.sqrt_one]
      norm_num [epsilon]

/-- An object whose label is not known, and an object whose audio channel is out of range, are
not skipped. -/
theorem not_wellDefined_unknown :
    (¬ ∃ gains, (oneLoudspeaker ℚ).processObjects ⟨Rat.sqrt, fun _ => 1, fun _ => 0, 0⟩
        (oneChannelObject ℚ 0 "R") = .ok gains ∧
      (oneLoudspeaker ℚ).WellDefined ⟨Rat.sqrt, fun _ => 1, fun _ => 0, 0⟩
        (oneChannelObject ℚ 0 "R") gains) ∧
    ¬ ∃ gains, (oneLoudspeaker ℚ).processObjects ⟨Rat.sqrt, fun _ => 1, fun _ => 0, 0⟩
        (oneChannelObject ℚ 1 "L") = .ok gains ∧
      (oneLoudspeaker ℚ).WellDefined ⟨Rat.sqrt, fun _ => 1, fun _ => 0, 0⟩
        (oneChannelObject ℚ 1 "L") gains := by
  have hunknown : (oneLoudspeaker ℚ).processObjects ⟨Rat.sqrt, fun _ => 1, fun _ => 0, 0⟩
      (oneChannelObject ℚ 0 "R") = .error .undefined := rfl
  have hrange : (oneLoudspeaker ℚ).processObjects ⟨Rat.sqrt, fun _ => 1, fun _ => 0, 0⟩
      (oneChannelObject ℚ 1 "L") = .error .undefined := rfl
  constructor
  · rintro ⟨gains, hok, -⟩
    rw [hunknown] at hok
    cases hok
  · rintro ⟨gains, hok, -⟩
    rw [hrange] at hok
    cases hok

end PanningCalculator

end Visr
