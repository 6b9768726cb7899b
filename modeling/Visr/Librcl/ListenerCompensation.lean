import Visr.Libpanning.CheckedGains

/-!
# Compensation of the position of the listener

Gains and delays for the loudspeakers of an array, so that the signals of all loudspeakers arrive
with the same level and at the same time.

## Main results

* `ListenerCompensation.calcGainComp_eq`, `ListenerCompensation.calcDelayComp_eq` — the vectors that
  are calculated, if there is space for all loudspeakers.
* `ListenerCompensation.process_compensates_iff` — **when the listener is compensated for**.
-/

namespace Visr

open Vector3D

variable {K : Type} [Field K] [LinearOrder K]

/-- The speed of sound. -/
def c_0 (K : Type) [Field K] : K := (344 : ℕ)

/-- An element of a vector is written, without a check of the index. -/
def setElement (v : List K) (i : ℕ) (x : K) : Except Abort (List K) :=
  if i < v.length then .ok (v.set i x) else .error .undefined

/-- An element of a vector is read, without a check of the index. -/
def getElement (v : List K) (i : ℕ) : Except Abort K :=
  match v[i]? with
  | some x => .ok x
  | none => .error .undefined

/-- The component; its outputs are vectors for the regular loudspeakers. -/
structure ListenerCompensation (K : Type) where
  array : LoudspeakerArray K
  listenerPos : Vector3D K
  numberOfLoudspeakers : ℕ
  numberOfLoudspeakers_eq : numberOfLoudspeakers = array.getNumRegularSpeakers

namespace ListenerCompensation

section Definitions

variable (math : CMath K)

def create (arrayConfig : LoudspeakerArray K) : ListenerCompensation K where
  array := arrayConfig
  listenerPos := ⟨0, 0, 0⟩
  numberOfLoudspeakers := arrayConfig.getNumRegularSpeakers
  numberOfLoudspeakers_eq := rfl

def setListenerPosition (s : ListenerCompensation K) (pos : Vector3D K) : ListenerCompensation K :=
  { s with listenerPos := pos }

/-- The distance of a loudspeaker from the listener. -/
def rad (s : ListenerCompensation K) (i : ℕ) : K :=
  XYZ.getLength math ((s.array.position i).vector.sub s.listenerPos)

/-- The first loop: the distances are written, and the largest one is looked for. -/
def writeDistances (s : ListenerCompensation K) (comp : List K) : Except Abort (List K × K) :=
  (List.range s.array.getNumSpeakers).foldlM (fun (comp, max_rad) i => do
    let comp ← setElement comp i (s.rad math i)
    .ok (comp, if s.rad math i > max_rad then s.rad math i else max_rad)) (comp, 0)

def calcGainComp (s : ListenerCompensation K) (gainComp : List K) : Except Abort (List K) := do
  let (gainComp, max_rad) ← s.writeDistances math gainComp
  (List.range s.array.getNumSpeakers).foldlM (fun gainComp i => do
    let rad ← getElement gainComp i
    match divide rad max_rad with
    | some gain => setElement gainComp i gain
    | none => .error .undefined) gainComp

def calcDelayComp (s : ListenerCompensation K) (delayComp : List K) : Except Abort (List K) := do
  let (delayComp, max_rad) ← s.writeDistances math delayComp
  (List.range s.array.getNumSpeakers).foldlM (fun delayComp i => do
    let rad ← getElement delayComp i
    match divide |rad - max_rad| (c_0 K) with
    | some delay => setElement delayComp i delay
    | none => .error .undefined) delayComp

/-- `ListenerCompensation::process()` for the position of the listener, if it has changed, and the
output vectors.  The vectors are published. -/
def process (s : ListenerCompensation K) (positionInput : Option (Vector3D K))
    (gains delays : List K) : Except Abort (ListenerCompensation K × List K × List K) :=
  match positionInput with
  | none => .ok (s, gains, delays)
  | some pos => do
    if gains.length ≠ s.numberOfLoudspeakers ∨ delays.length ≠ s.numberOfLoudspeakers then
      .error (.exception (.invalidArgument
        ("ListenerCompensation::process(): The size of the gain or delay vector does not match " ++
          "the number of loudspeaker channels.")))
    else
      let s := s.setListenerPosition pos
      let gains ← s.calcGainComp math gains
      let delays ← s.calcDelayComp math delays
      .ok (s, gains, delays)

end Definitions

/-! ### Loops over the elements of a vector -/

section Loops

omit [Field K] [LinearOrder K] in
theorem getElem?_map_range (f : ℕ → K) {n i : ℕ} {x : K} :
    ((List.range n).map f)[i]? = some x ↔ i < n ∧ f i = x := by
  by_cases hi : i < n
  · rw [List.getElem?_map, List.getElem?_range hi]
    simp [hi]
  · rw [List.getElem?_eq_none (by simpa using hi)]
    simp [hi]

omit [Field K] [LinearOrder K] in
/-- The first elements have been written. -/
theorem setElement_next {n m : ℕ} (f : ℕ → K) (v : List K) (hv : v.length = n) (hm : m < n) :
    setElement ((List.range m).map f ++ v.drop m) m (f m) =
      .ok ((List.range (m + 1)).map f ++ v.drop (m + 1)) := by
  have hlength : ((List.range m).map f).length = m := by
    rw [List.length_map, List.length_range]
  unfold setElement
  rw [if_pos]
  · rw [List.set_append_right _ _ hlength.le, hlength, Nat.sub_self,
      List.drop_eq_getElem_cons (hv.symm ▸ hm), List.set_cons_zero, List.range_succ,
      List.map_append, List.append_assoc]
    rfl
  · rw [List.length_append, hlength, List.length_drop]
    omega

omit [Field K] [LinearOrder K] in
theorem setElement_end (v : List K) (x : K) : setElement v v.length x = .error .undefined :=
  if_neg (Nat.lt_irrefl _)

omit [Field K] [LinearOrder K] in
/-- The next element has not been written yet. -/
theorem getElement_prefix {n m : ℕ} (f g : ℕ → K) (hm : m < n) :
    getElement ((List.range m).map f ++ ((List.range n).map g).drop m) m = .ok (g m) := by
  unfold getElement
  have hget : ((List.range m).map f ++ ((List.range n).map g).drop m)[m]? = some (g m) := by
    rw [List.getElem?_append_right (by simp)]
    simp [hm]
  rw [hget]

omit [Field K] [LinearOrder K] in
/-- **The second loop**, which computes each element from the distance that it holds. -/
theorem foldlM_update {n : ℕ} (f : K → Option K) (g rad : ℕ → K)
    (hf : ∀ i < n, f (rad i) = some (g i)) (m : ℕ) (hm : m ≤ n) :
    (List.range m).foldlM (fun v i => do
      let rad ← getElement v i
      match f rad with
      | some x => setElement v i x
      | none => .error .undefined) ((List.range n).map rad) =
        .ok ((List.range m).map g ++ ((List.range n).map rad).drop m) := by
  induction m with
  | zero => rfl
  | succ m ih =>
    have hlt : m < n := Nat.lt_of_succ_le hm
    rw [List.range_succ, List.foldlM_append, ih hlt.le, ok_bind, List.foldlM_cons,
      getElement_prefix g rad hlt, ok_bind, hf m hlt]
    dsimp only
    rw [setElement_next g _ (by simp) hlt, ← List.range_succ]
    rfl

variable (math : CMath K) (s : ListenerCompensation K)

/-- The largest distance of the first loudspeakers. -/
def maxRad (m : ℕ) : K :=
  (List.range m).foldl (fun max_rad i => if s.rad math i > max_rad then s.rad math i else max_rad) 0

/-- **The first loop**, as far as there is space. -/
theorem foldlM_writeDistances (comp : List K) (m : ℕ) (hm : m ≤ comp.length) :
    (List.range m).foldlM (fun ((comp, max_rad) : List K × K) i => do
      let comp ← setElement comp i (s.rad math i)
      (.ok (comp, if s.rad math i > max_rad then s.rad math i else max_rad) :
        Except Abort (List K × K))) (comp, 0) =
        .ok ((List.range m).map (s.rad math) ++ comp.drop m, s.maxRad math m) := by
  induction m with
  | zero => rfl
  | succ m ih =>
    have hlt : m < comp.length := Nat.lt_of_succ_le hm
    have hmax : s.maxRad math (m + 1) =
        if s.rad math m > s.maxRad math m then s.rad math m else s.maxRad math m := by
      unfold maxRad
      rw [List.range_succ, List.foldl_append]
      rfl
    rw [List.range_succ, List.foldlM_append, ih hlt.le, ok_bind, List.foldlM_cons]
    dsimp only
    rw [setElement_next (s.rad math) comp rfl hlt, ← List.range_succ, hmax]
    rfl

theorem writeDistances_eq {comp : List K} (h : comp.length = s.array.getNumSpeakers) :
    s.writeDistances math comp =
      .ok ((List.range comp.length).map (s.rad math), s.maxRad math comp.length) := by
  have hloop := s.foldlM_writeDistances math comp comp.length le_rfl
  rw [List.drop_length, List.append_nil] at hloop
  unfold writeDistances
  rw [← h]
  exact hloop

/-- Without space for all loudspeakers, an element behind the end is written. -/
theorem writeDistances_undefined {comp : List K} (h : comp.length < s.array.getNumSpeakers) :
    s.writeDistances math comp = .error .undefined := by
  obtain ⟨k, hk⟩ := Nat.exists_eq_add_of_lt h
  have hloop := s.foldlM_writeDistances math comp comp.length le_rfl
  rw [List.drop_length, List.append_nil] at hloop
  have hlength : ((List.range comp.length).map (s.rad math)).length = comp.length := by
    rw [List.length_map, List.length_range]
  unfold writeDistances
  have hend := setElement_end ((List.range comp.length).map (s.rad math))
    (s.rad math comp.length)
  rw [hlength] at hend
  rw [hk, add_assoc, List.range_add, List.range_succ_eq_map, List.map_cons, add_zero,
    List.foldlM_append]
  refine (congrArg (· >>= _) hloop).trans ?_
  rw [ok_bind, List.foldlM_cons]
  dsimp only
  rw [hend]
  rfl

end Loops

/-! ### Both vectors -/

section Vectors

variable (math : CMath K) (s : ListenerCompensation K)

/-- **The gains** are relative to the largest distance. -/
theorem calcGainComp_eq {gainComp : List K} (h : gainComp.length = s.array.getNumSpeakers)
    (hmax : s.maxRad math gainComp.length ≠ 0) :
    s.calcGainComp math gainComp = .ok ((List.range gainComp.length).map fun i =>
      s.rad math i / s.maxRad math gainComp.length) := by
  have hloop := foldlM_update (fun rad => divide rad (s.maxRad math gainComp.length))
    (fun i => s.rad math i / s.maxRad math gainComp.length) (s.rad math)
    (fun i (_ : i < gainComp.length) => divide_of_ne _ hmax) gainComp.length le_rfl
  unfold calcGainComp
  rw [s.writeDistances_eq math h, ok_bind, ← h]
  dsimp only
  rw [hloop, List.drop_eq_nil_of_le (by simp), List.append_nil]

/-- **The delays** are relative to the largest distance. -/
theorem calcDelayComp_eq [CharZero K] {delayComp : List K}
    (h : delayComp.length = s.array.getNumSpeakers) :
    s.calcDelayComp math delayComp = .ok ((List.range delayComp.length).map fun i =>
      |s.rad math i - s.maxRad math delayComp.length| / c_0 K) := by
  have hspeed : c_0 K ≠ 0 := Nat.cast_ne_zero.mpr (by decide)
  have hloop := foldlM_update (fun rad => divide |rad - s.maxRad math delayComp.length| (c_0 K))
    (fun i => |s.rad math i - s.maxRad math delayComp.length| / c_0 K) (s.rad math)
    (fun i (_ : i < delayComp.length) => divide_of_ne _ hspeed) delayComp.length le_rfl
  unfold calcDelayComp
  rw [s.writeDistances_eq math h, ok_bind, ← h]
  dsimp only
  rw [hloop, List.drop_eq_nil_of_le (by simp), List.append_nil]

end Vectors

/-! ### What is expected -/

/-- The distance of a loudspeaker from a position. -/
def distance (math : CMath K) (array : LoudspeakerArray K) (pos : Vector3D K) (i : ℕ) : K :=
  XYZ.getLength math ((array.position i).vector.sub pos)

/-- No regular loudspeaker is farther away. -/
def Farthest (math : CMath K) (array : LoudspeakerArray K) (pos : Vector3D K) (i : ℕ) : Prop :=
  i < array.getNumRegularSpeakers ∧
    ∀ k < array.getNumRegularSpeakers, distance math array pos k ≤ distance math array pos i

/-- **What is expected**: one gain and one delay for each regular loudspeaker, so that the signals
arrive at the same time with levels that are proportional to the distances. -/
structure Compensates (math : CMath K) (array : LoudspeakerArray K) (pos : Vector3D K)
    (gains delays : List K) : Prop where
  gains_length : gains.length = array.getNumRegularSpeakers
  delays_length : delays.length = array.getNumRegularSpeakers
  delay_nonneg : ∀ delay ∈ delays, 0 ≤ delay
  delay_farthest : ∀ i, Farthest math array pos i → delays[i]? = some 0
  delay_arrival : ∃ arrival, ∀ i delay, delays[i]? = some delay →
    delay * c_0 K + distance math array pos i = arrival
  gain_range : ∀ gain ∈ gains, 0 ≤ gain ∧ gain ≤ 1
  gain_farthest : ∀ i, Farthest math array pos i → gains[i]? = some 1
  gain_proportional : ∃ c, ∀ i gain, gains[i]? = some gain → gain = c * distance math array pos i

section Compensation

variable [IsStrictOrderedRing K] {math : CMath K} (hmath : math.Exact)

include hmath

/-- The largest distance is positive if two loudspeakers are at distinct positions. -/
theorem maxRad_pos (s : ListenerCompensation K) {n : ℕ} (hdistinct : ∃ i < n, ∃ k < n,
    (s.array.position i).vector ≠ (s.array.position k).vector) : 0 < s.maxRad math n := by
  obtain ⟨hnonneg, hupper, -⟩ := foldl_max_spec (s.rad math) 0 n
  refine lt_of_le_of_ne hnonneg fun hzero => ?_
  obtain ⟨i, hi, k, hk, hne⟩ := hdistinct
  have hhere : ∀ l < n, (s.array.position l).vector.sub s.listenerPos = ⟨0, 0, 0⟩ := by
    intro l hl
    have hle : s.rad math l ≤ 0 := (hupper l hl).trans hzero.ge
    exact (XYZ.getLength_eq_zero_iff hmath _).mp (le_antisymm hle (XYZ.getLength_nonneg hmath _))
  refine hne ?_
  have heq := (hhere i hi).trans (hhere k hk).symm
  exact Vector3D.ext (sub_left_injective (congrArg Vector3D.x heq))
    (sub_left_injective (congrArg Vector3D.y heq)) (sub_left_injective (congrArg Vector3D.z heq))

/-- The vectors that are calculated are as expected. -/
theorem compensates (s : ListenerCompensation K)
    (hdistinct : ∃ i < s.array.getNumRegularSpeakers, ∃ k < s.array.getNumRegularSpeakers,
      (s.array.position i).vector ≠ (s.array.position k).vector) :
    Compensates math s.array s.listenerPos
      ((List.range s.array.getNumRegularSpeakers).map fun i =>
        s.rad math i / s.maxRad math s.array.getNumRegularSpeakers)
      ((List.range s.array.getNumRegularSpeakers).map fun i =>
        |s.rad math i - s.maxRad math s.array.getNumRegularSpeakers| / c_0 K) := by
  have hpos := s.maxRad_pos hmath hdistinct
  -- the largest radius is that of a loudspeaker, since one of them is not at the listener
  obtain ⟨-, hupper, hattained⟩ := foldl_max_spec (s.rad math) 0 s.array.getNumRegularSpeakers
  have hupper : ∀ i < s.array.getNumRegularSpeakers,
      s.rad math i ≤ s.maxRad math s.array.getNumRegularSpeakers := hupper
  have hspeed : 0 < c_0 K := Nat.cast_pos.mpr (by decide)
  have hnonneg : ∀ i, 0 ≤ s.rad math i := fun i => XYZ.getLength_nonneg hmath _
  have hfarthest : ∀ i, Farthest math s.array s.listenerPos i →
      i < s.array.getNumRegularSpeakers ∧
        s.rad math i = s.maxRad math s.array.getNumRegularSpeakers := by
    rintro i ⟨hi, hle⟩
    refine ⟨hi, le_antisymm (hupper i hi) ?_⟩
    rcases hattained with hzero | ⟨k, hk, heq⟩
    · exact absurd hzero hpos.ne'
    · exact heq.le.trans (hle k hk)
  generalize s.maxRad math s.array.getNumRegularSpeakers = m at hpos hupper hfarthest
  generalize hn : s.array.getNumRegularSpeakers = n at hupper hfarthest
  have hbehind : ∀ i < n, |s.rad math i - m| = m - s.rad math i := fun i hi => by
    rw [abs_sub_comm, abs_of_nonneg (sub_nonneg.mpr (hupper i hi))]
  refine ⟨?_, ?_, ?_, fun i hi => ?_, ⟨m, fun i delay h => ?_⟩, ?_, fun i hi => ?_,
    ⟨m⁻¹, fun i gain h => ?_⟩⟩
  · rw [List.length_map, List.length_range, hn]
  · rw [List.length_map, List.length_range, hn]
  · refine List.forall_mem_map.mpr fun i _ => ?_
    exact div_nonneg (abs_nonneg _) hspeed.le
  · obtain ⟨hlt, heq⟩ := hfarthest i hi
    refine (getElem?_map_range _).mpr ⟨hlt, ?_⟩
    rw [heq, sub_self, abs_zero, zero_div]
  · obtain ⟨hlt, rfl⟩ := (getElem?_map_range _).mp h
    rw [div_mul_cancel₀ _ hspeed.ne', hbehind i hlt]
    exact sub_add_cancel m (s.rad math i)
  · refine List.forall_mem_map.mpr fun i hi => ?_
    exact ⟨div_nonneg (hnonneg i) hpos.le,
      (div_le_one hpos).mpr (hupper i (List.mem_range.mp hi))⟩
  · obtain ⟨hlt, heq⟩ := hfarthest i hi
    refine (getElem?_map_range _).mpr ⟨hlt, ?_⟩
    rw [heq, div_self hpos.ne']
  · obtain ⟨-, rfl⟩ := (getElem?_map_range _).mp h
    exact div_eq_inv_mul _ _

/-- **When the listener is compensated for**: there are no virtual loudspeakers. -/
theorem process_compensates_iff (s : ListenerCompensation K)
    (hregular : s.array.getNumRegularSpeakers ≤ s.array.getNumSpeakers)
    (hdistinct : ∃ i < s.array.getNumRegularSpeakers, ∃ k < s.array.getNumRegularSpeakers,
      (s.array.position i).vector ≠ (s.array.position k).vector) (pos : Vector3D K)
    {gains delays : List K} (hgains : gains.length = s.array.getNumRegularSpeakers)
    (hdelays : delays.length = s.array.getNumRegularSpeakers) :
    (∃ s' gains' delays', s.process math (some pos) gains delays = .ok (s', gains', delays') ∧
      Compensates math s.array pos gains' delays') ↔
        s.array.getNumSpeakers = s.array.getNumRegularSpeakers := by
  have hsizes : ¬(gains.length ≠ s.numberOfLoudspeakers ∨
      delays.length ≠ s.numberOfLoudspeakers) := by
    rw [s.numberOfLoudspeakers_eq, hgains, hdelays]
    simp
  unfold process
  dsimp only
  rw [if_neg hsizes]
  constructor
  · rintro ⟨s', gains', delays', hprocess, -⟩
    -- the vectors have no room for the virtual loudspeakers
    by_contra hvirtual
    have hlt : gains.length < (s.setListenerPosition pos).array.getNumSpeakers := by
      rw [hgains]
      exact lt_of_le_of_ne hregular (Ne.symm hvirtual)
    unfold calcGainComp at hprocess
    rw [writeDistances_undefined math _ hlt] at hprocess
    cases hprocess
  · intro hall
    have hgains' : gains.length = (s.setListenerPosition pos).array.getNumSpeakers :=
      hgains.trans hall.symm
    have hdelays' : delays.length = (s.setListenerPosition pos).array.getNumSpeakers :=
      hdelays.trans hall.symm
    have hpos := (s.setListenerPosition pos).maxRad_pos hmath hdistinct
    rw [calcGainComp_eq math _ hgains' (by rw [hgains]; exact hpos.ne'), ok_bind,
      calcDelayComp_eq math _ hdelays', ok_bind, hgains, hdelays]
    exact ⟨_, _, _, rfl, (s.setListenerPosition pos).compensates hmath hdistinct⟩

end Compensation

/-! ### Two loudspeakers -/

/-- A component for two loudspeakers, and possibly a virtual one. -/
def twoLoudspeakers (K : Type) [Field K] (numberOfSpeakers : ℕ) : ListenerCompensation K :=
  create {
    is2D := false
    isInfinite := false
    numberOfSpeakers := numberOfSpeakers
    position := fun i => ⟨i, 0, 0, false⟩
    triplet := []
    channel := [0, 1]
    id := OrderedMap.empty
    subwooferChannels := []
    subwooferGains := fun _ _ => 0
    reRoutingCoeff := fun _ _ => 0
    gainAdjustment := fun _ => 1
    delayAdjustment := fun _ => 0
    outputEqs := none }

theorem distinct_twoLoudspeakers (numberOfSpeakers : ℕ) : ∃ i < 2, ∃ k < 2,
    ((twoLoudspeakers ℝ numberOfSpeakers).array.position i).vector ≠
      ((twoLoudspeakers ℝ numberOfSpeakers).array.position k).vector := by
  refine ⟨0, by decide, 1, by decide, fun h => ?_⟩
  have hx : ((0 : ℕ) : ℝ) = (1 : ℕ) := congrArg Vector3D.x h
  simp at hx

/-- The listener is at the first loudspeaker. -/
theorem process_compensates_here : ∃ s' gains delays,
    (twoLoudspeakers ℝ 2).process ⟨Real.sqrt, Real.cos, Real.sin, Real.pi / 180⟩ (some ⟨0, 0, 0⟩)
        [0, 0] [0, 0] = .ok (s', gains, delays) ∧
      Compensates ⟨Real.sqrt, Real.cos, Real.sin, Real.pi / 180⟩ (twoLoudspeakers ℝ 2).array
        ⟨0, 0, 0⟩ gains delays :=
  (process_compensates_iff CAP.exact_real (twoLoudspeakers ℝ 2) le_rfl (distinct_twoLoudspeakers 2)
    ⟨0, 0, 0⟩ rfl rfl).mpr rfl

/-- For a virtual loudspeaker, an element behind the end of the vectors is written. -/
theorem process_virtual : (twoLoudspeakers ℝ 3).process
    ⟨Real.sqrt, Real.cos, Real.sin, Real.pi / 180⟩ (some ⟨0, 0, 0⟩) [0, 0] [0, 0] =
      .error .undefined := by
  have hlt : ([0, 0] : List ℝ).length <
      ((twoLoudspeakers ℝ 3).setListenerPosition ⟨0, 0, 0⟩).array.getNumSpeakers := by decide
  have hsizes : ¬(([0, 0] : List ℝ).length ≠ (twoLoudspeakers ℝ 3).numberOfLoudspeakers ∨
      ([0, 0] : List ℝ).length ≠ (twoLoudspeakers ℝ 3).numberOfLoudspeakers) := by decide
  unfold process
  dsimp only
  rw [if_neg hsizes]
  unfold calcGainComp
  rw [writeDistances_undefined _ _ hlt]
  rfl

end ListenerCompensation

end Visr
