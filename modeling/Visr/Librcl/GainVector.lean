import Visr.Librbbl.GainMatrix
import Visr.Librcl.DelayVector

/-!
# Gain vectors

A component that applies a gain to each of its channels.  New gains start a transition, which is
meant to lead from the gains in force to the new ones.

## Main results

* `GainVector.OnWay.inForce_iff` — when a transition starts from the gain in force.
* `GainVector.followsPlan_iff` — **which runs follow the plan**.
-/

namespace Visr

variable {K : Type} [Field K]

/-- The component after setup. -/
structure GainVector (K : Type) where
  numberOfChannels : ℕ
  /-- Whether there is a gain input. -/
  controlInputs : Bool
  currentGains : ℕ → K
  nextGains : ℕ → K
  interpolationPeriods : ℕ
  interpolationCounter : ℕ
  fader : GainFader K

namespace GainVector

def setup (period : ℕ) (hperiod : 0 < period) (numberOfChannels interpolationSteps : ℕ)
    (controlInputs : Bool) (initialGainsLinear : ℕ → K) : Except Exception (GainVector K) := do
  let fader ← GainFader.create period hperiod interpolationSteps cVectorAlignmentSamples
  pure
    { numberOfChannels := numberOfChannels
      controlInputs := controlInputs
      currentGains := initialGainsLinear
      nextGains := initialGainsLinear
      interpolationPeriods := (interpolationSteps + period - 1) / period
      interpolationCounter := 0
      fader := fader }

/-- The next gains become the current ones. -/
def updated (s : GainVector K) (newGains : BasicVector K) : GainVector K :=
  { s with
    currentGains := s.nextGains
    nextGains := newGains.data
    interpolationCounter := 0 }

/-- The vectors are copied without a demand on their alignment, which never fails. -/
def setGain (s : GainVector K) (newGains : BasicVector K) : Except Exception (GainVector K) :=
  if newGains.size ≠ s.numberOfChannels then
    .error (.invalidArgument ("GainVector::setGain(): The number of elements in the argument " ++
      "does not match the number of channels."))
  else .ok (s.updated newGains)

/-- The value of the gain input, if there is one and it has changed. -/
def arriving (s : GainVector K) (gainInput : Option (BasicVector K)) : Option (BasicVector K) :=
  if s.controlInputs then gainInput else none

def receive (s : GainVector K) (gainInput : Option (BasicVector K)) :
    Except Exception (GainVector K) :=
  match s.arriving gainInput with
  | none => .ok s
  | some newGains => s.setGain newGains

/-- The signals of a block. -/
def scaleChannels (s : GainVector K) (input output : ℕ → ℕ → K) : ℕ → ℕ → K := fun chIdx =>
  if chIdx < s.numberOfChannels then
    s.fader.scale (input chIdx) (output chIdx) (s.currentGains chIdx) (s.nextGains chIdx)
      s.interpolationCounter
  else output chIdx

/-- The counter goes on after a block. -/
def advance (s : GainVector K) : GainVector K :=
  { s with interpolationCounter := min (s.interpolationCounter + 1) s.interpolationPeriods }

/-- `gainInput` is given if the value of the port has changed. -/
def process (s : GainVector K) (gainInput : Option (BasicVector K)) (input output : ℕ → ℕ → K) :
    Except Exception (GainVector K × (ℕ → ℕ → K)) := do
  let s ← s.receive gainInput
  pure (s.advance, s.scaleChannels input output)

/-! ### The documented transitions -/

/-- New gains are the targets of glides that start from the gains in force. -/
def retarget (interpolationSteps : ℕ) (newGains : Option (BasicVector K)) (plan : ℕ → Glide K) :
    ℕ → Glide K :=
  match newGains with
  | none => plan
  | some values => fun chIdx => (plan chIdx).retarget interpolationSteps (values.data chIdx)

/-- **The documented behaviour** of a run, with the glides of the gains before it.  Sample `k`
after an update, counted from one, has the gain at `k / interpolationSteps` of the way. -/
def FollowsPlan (interpolationSteps : ℕ) (s : GainVector K) (plan : ℕ → Glide K) :
    List (Option (BasicVector K)) → Prop
  | [] => True
  | gainInput :: updates =>
    let current := retarget interpolationSteps (s.arriving gainInput) plan
    ∃ s', (∀ input output, ∃ result, s.process gainInput input output = .ok (s', result) ∧
        ∀ chIdx < s.numberOfChannels, ∀ idx < s.fader.blockSize, result chIdx idx =
          (current chIdx).value interpolationSteps ((current chIdx).elapsed + idx + 1) *
            input chIdx idx) ∧
      FollowsPlan interpolationSteps s' (fun chIdx => (current chIdx).advance s.fader.blockSize)
        updates

/-- The latest transition is over, or none of its gains has to change. -/
def Settled (s : GainVector K) : Prop :=
  s.interpolationPeriods ≤ s.interpolationCounter ∨
    ∀ chIdx < s.numberOfChannels, s.currentGains chIdx = s.nextGains chIdx

/-- New gains arrive in settled states only. -/
def UpdatesInTime (s : GainVector K) : List (Option (BasicVector K)) → Prop
  | [] => True
  | gainInput :: updates =>
    (s.arriving gainInput ≠ none → s.Settled) ∧
      ∀ s', s.receive gainInput = .ok s' → UpdatesInTime s'.advance updates

/-! ### The invariant -/

/-- The glides are those that the component is about to play; `blocks` blocks of them are over. -/
structure OnWay (period periods : ℕ) (s : GainVector K) (plan : ℕ → Glide K) (blocks : ℕ) :
    Prop where
  periods_pos : 0 < periods
  created : ∃ hperiod : 0 < period,
    GainFader.create period hperiod (periods * period) cVectorAlignmentSamples = .ok s.fader
  interpolationPeriods_eq : s.interpolationPeriods = periods
  counter_eq : s.interpolationCounter = min blocks periods
  plan_eq : ∀ chIdx < s.numberOfChannels,
    plan chIdx = ⟨s.currentGains chIdx, s.nextGains chIdx, blocks * period⟩

/-- Between two calls: before the first block, there is nothing to change. -/
structure Inv (period periods : ℕ) (s : GainVector K) (plan : ℕ → Glide K) (blocks : ℕ) : Prop
    extends OnWay period periods s plan blocks where
  first : blocks = 0 → ∀ chIdx < s.numberOfChannels, s.currentGains chIdx = s.nextGains chIdx

section Steps

variable [CharZero K] {period periods blocks : ℕ} {s : GainVector K} {plan : ℕ → Glide K}

/-- The signals of a block are made of the glides. -/
theorem OnWay.scaleChannels_eq (h : OnWay period periods s plan blocks) (input output : ℕ → ℕ → K)
    {chIdx : ℕ} (hch : chIdx < s.numberOfChannels) {idx : ℕ} (hidx : idx < period) :
    s.scaleChannels input output chIdx idx =
      (plan chIdx).value (periods * period) ((plan chIdx).elapsed + idx + 1) *
        input chIdx idx := by
  obtain ⟨hperiod, hcreate⟩ := h.created
  have hsize := (GainFader.create_periods hcreate).1
  unfold scaleChannels
  rw [if_pos hch, GainFader.scale_of_lt _ _ _ _ _ _ (hsize ▸ hidx), h.counter_eq,
    GainFader.gain_eq h.periods_pos hcreate _ _ (blocks * period) blocks hidx, h.plan_eq chIdx hch]

omit [CharZero K] in
/-- What a block leaves behind. -/
theorem OnWay.advance (h : OnWay period periods s plan blocks) :
    Inv period periods s.advance (fun chIdx => (plan chIdx).advance period) (blocks + 1) where
  periods_pos := h.periods_pos
  created := h.created
  interpolationPeriods_eq := h.interpolationPeriods_eq
  counter_eq := by
    show min (s.interpolationCounter + 1) s.interpolationPeriods = _
    rw [h.interpolationPeriods_eq, h.counter_eq]
    omega
  plan_eq chIdx hch := by
    show (plan chIdx).advance period = _
    rw [h.plan_eq chIdx hch, Nat.succ_mul]
    rfl
  first hblocks := absurd hblocks (Nat.succ_ne_zero blocks)

/-- **The start of a transition.**  The gains in force are the targets of the latest transition
if it is over, or if there was nothing to change. -/
theorem OnWay.inForce_iff (h : OnWay period periods s plan blocks) :
    (∀ chIdx < s.numberOfChannels,
      s.nextGains chIdx = (plan chIdx).present (periods * period)) ↔ s.Settled := by
  obtain ⟨hperiod, -⟩ := h.created
  unfold Settled
  rw [h.interpolationPeriods_eq, h.counter_eq]
  by_cases hover : periods ≤ blocks
  · refine iff_of_true (fun chIdx hch => ?_) (Or.inl (Nat.le_min.mpr ⟨hover, le_rfl⟩))
    rw [h.plan_eq chIdx hch]
    exact (Glide.value_of_le (Nat.mul_le_mul_right period hover)
      ⟨s.currentGains chIdx, s.nextGains chIdx, blocks * period⟩).symm
  · -- a part of the way that is not zero is left
    have hlt : blocks * period < periods * period :=
      Nat.mul_lt_mul_of_pos_right (Nat.not_le.mp hover) hperiod
    have hsteps : ((periods * period : ℕ) : K) ≠ 0 := Nat.cast_ne_zero.mpr (by omega)
    have hleft : ((periods * period : ℕ) : K) - ((blocks * period : ℕ) : K) ≠ 0 :=
      sub_ne_zero.mpr fun heq => hlt.ne' (Nat.cast_injective heq)
    have hchannel : ∀ chIdx < s.numberOfChannels,
        (s.nextGains chIdx = (plan chIdx).present (periods * period) ↔
          s.currentGains chIdx = s.nextGains chIdx) := by
      intro chIdx hch
      have hpresent : s.nextGains chIdx - (plan chIdx).present (periods * period) =
          (((periods * period : ℕ) : K) - ((blocks * period : ℕ) : K)) /
            ((periods * period : ℕ) : K) * (s.nextGains chIdx - s.currentGains chIdx) := by
        rw [h.plan_eq chIdx hch]
        show _ - Glide.value (periods * period) _ (blocks * period) = _
        rw [Glide.value_of_lt hlt]
        unfold between
        field_simp
        ring
      rw [← sub_eq_zero, hpresent, mul_eq_zero, or_iff_right (div_ne_zero hleft hsteps),
        sub_eq_zero]
      exact eq_comm
    constructor
    · exact fun hall => Or.inr fun chIdx hch => (hchannel chIdx hch).mp (hall chIdx hch)
    · rintro (hle | hall)
      · exact absurd (hle.trans (Nat.min_le_left _ _)) hover
      · exact fun chIdx hch => (hchannel chIdx hch).mpr (hall chIdx hch)

omit [CharZero K] in
/-- Only the glides of the channels matter. -/
theorem OnWay.congr {plan' : ℕ → Glide K} (h : OnWay period periods s plan blocks)
    (hplan : ∀ chIdx < s.numberOfChannels, plan' chIdx = plan chIdx) :
    OnWay period periods s plan' blocks :=
  { h with plan_eq := fun chIdx hch => (hplan chIdx hch).trans (h.plan_eq chIdx hch) }

omit [CharZero K] in
/-- What an update leaves behind, with glides from the targets of the latest transition. -/
theorem OnWay.update (h : OnWay period periods s plan blocks) (newGains : BasicVector K) :
    OnWay period periods (s.updated newGains)
      (fun chIdx => ⟨s.nextGains chIdx, newGains.data chIdx, 0⟩) 0 where
  periods_pos := h.periods_pos
  created := h.created
  interpolationPeriods_eq := h.interpolationPeriods_eq
  counter_eq := (Nat.zero_min periods).symm
  plan_eq _ _ := by rw [Nat.zero_mul]; rfl

/-- The first sample after an update tells where the transition has started. -/
theorem Inv.settled (h : Inv period periods s plan blocks) {newGains : BasicVector K}
    (hsample : ∀ chIdx < s.numberOfChannels,
      (Glide.mk (s.nextGains chIdx) (newGains.data chIdx) 0).value (periods * period) 1 =
        ((plan chIdx).retarget (periods * period) (newGains.data chIdx)).value
          (periods * period) 1) : s.Settled := by
  obtain ⟨hperiod, -⟩ := h.created
  have hsteps := Nat.mul_pos h.periods_pos hperiod
  by_cases hone : periods * period = 1
  · -- a transition of a single sample ends with the block
    rcases Nat.eq_zero_or_pos blocks with hzero | hpos
    · exact Or.inr (h.first hzero)
    · refine Or.inl ?_
      rw [h.interpolationPeriods_eq, h.counter_eq, Nat.eq_one_of_mul_eq_one_right hone]
      omega
  · refine h.inForce_iff.mp fun chIdx hch => ?_
    have hlt : 1 < periods * period := by omega
    have hrest : (1 : K) - ((1 : ℕ) : K) / ((periods * period : ℕ) : K) ≠ 0 := by
      have hne : ((periods * period : ℕ) : K) ≠ 0 := Nat.cast_ne_zero.mpr (by omega)
      rw [sub_ne_zero, ne_eq, eq_div_iff hne, one_mul]
      exact fun heq => hone (Nat.cast_injective heq)
    have hvalue := hsample chIdx hch
    rw [Glide.value_of_lt hlt, Glide.value_of_lt hlt] at hvalue
    exact mul_left_cancel₀ hrest (add_right_cancel hvalue)

/-- In a settled state, these are the glides from the gains in force. -/
theorem OnWay.retarget (h : OnWay period periods s plan blocks) (hsettled : s.Settled)
    (newGains : BasicVector K) :
    OnWay period periods (s.updated newGains)
      (GainVector.retarget (periods * period) (some newGains) plan) 0 :=
  (h.update newGains).congr fun chIdx hch => by
    show Glide.mk _ _ _ = Glide.mk _ _ _
    rw [h.inForce_iff.mpr hsettled chIdx hch]

omit [Field K] [CharZero K] in
/-- New gains of the right size are accepted. -/
theorem receive_some {gainInput : Option (BasicVector K)} {newGains : BasicVector K}
    (harriving : s.arriving gainInput = some newGains)
    (hsize : newGains.size = s.numberOfChannels) :
    s.receive gainInput = .ok (s.updated newGains) := by
  unfold receive setGain
  rw [harriving]
  exact if_neg (not_not.mpr hsize)

omit [CharZero K] in
theorem process_of_receive {gainInput : Option (BasicVector K)} {s₁ : GainVector K}
    (h : s.receive gainInput = .ok s₁) (input output : ℕ → ℕ → K) :
    s.process gainInput input output = .ok (s₁.advance, s₁.scaleChannels input output) :=
  bind_of_ok h _

/-! ### Runs -/

/-- One call after another, for any state with the invariant. -/
theorem followsPlan_iff_of_inv (updates : List (Option (BasicVector K)))
    (hsizes : ∀ newGains, some newGains ∈ updates → newGains.size = s.numberOfChannels)
    (h : Inv period periods s plan blocks) :
    FollowsPlan (periods * period) s plan updates ↔ UpdatesInTime s updates := by
  induction updates generalizing s plan blocks with
  | nil => exact Iff.rfl
  | cons gainInput updates ih =>
    obtain ⟨hperiod, hcreate⟩ := h.created
    have hblock := (GainFader.create_periods hcreate).1
    have hrest : ∀ newGains, some newGains ∈ updates → newGains.size = s.numberOfChannels :=
      fun newGains hmem => hsizes newGains (List.mem_cons_of_mem _ hmem)
    unfold FollowsPlan UpdatesInTime
    rw [hblock]
    cases harriving : s.arriving gainInput with
    | none =>
      have hreceive : s.receive gainInput = .ok s := by
        unfold receive
        rw [harriving]
      have hnext := ih (s := s.advance) hrest h.advance
      constructor
      · rintro ⟨s', hcall, hfollows⟩
        obtain ⟨result, hresult, -⟩ := hcall 0 0
        cases (process_of_receive hreceive 0 0).symm.trans hresult
        refine ⟨fun hne => absurd rfl hne, fun s' hs' => ?_⟩
        cases hreceive.symm.trans hs'
        exact hnext.mp hfollows
      · rintro ⟨-, htime⟩
        exact ⟨s.advance, fun input output => ⟨_, process_of_receive hreceive input output,
          fun chIdx hch idx hidx => h.scaleChannels_eq input output hch hidx⟩,
          hnext.mpr (htime s hreceive)⟩
    | some newGains =>
      have hmem : gainInput = some newGains := by
        unfold arriving at harriving
        split at harriving
        · exact harriving
        · cases harriving
      have hsize := hsizes newGains (hmem ▸ List.mem_cons_self)
      have hreceive := receive_some harriving hsize
      have hupdate := h.update newGains
      constructor
      · rintro ⟨s', hcall, hfollows⟩
        obtain ⟨result, hresult, hsignal⟩ := hcall 1 0
        cases (process_of_receive hreceive 1 0).symm.trans hresult
        -- the first sample of a constant signal shows the gain from which the new fade starts
        have hsettled : s.Settled := h.settled fun chIdx hch => by
          have hfirst := hsignal chIdx hch 0 hperiod
          rw [hupdate.scaleChannels_eq 1 0 hch hperiod] at hfirst
          exact mul_right_cancel₀ one_ne_zero hfirst
        refine ⟨fun _ => hsettled, fun s' hs' => ?_⟩
        cases hreceive.symm.trans hs'
        exact (ih (s := (s.updated newGains).advance) hrest
          (h.retarget hsettled newGains).advance).mp hfollows
      · rintro ⟨hsettled, htime⟩
        have hway := h.retarget (hsettled (Option.some_ne_none _)) newGains
        exact ⟨_, fun input output => ⟨_, process_of_receive hreceive input output,
          fun chIdx hch idx hidx => hway.scaleChannels_eq input output hch hidx⟩,
          (ih (s := (s.updated newGains).advance) hrest hway.advance).mpr (htime _ hreceive)⟩

omit [CharZero K] in
theorem inv_of_setup {numberOfChannels : ℕ} {hperiod : 0 < period} {controlInputs : Bool}
    {initialGainsLinear : ℕ → K} (hperiods : 0 < periods)
    (h : setup period hperiod numberOfChannels (periods * period) controlInputs
      initialGainsLinear = .ok s) :
    Inv period periods s (fun chIdx => Glide.still (initialGainsLinear chIdx)) 0 ∧
      s.numberOfChannels = numberOfChannels := by
  unfold setup at h
  obtain ⟨fader, hfader, h⟩ := exists_of_bind_ok h
  cases h
  have hcount : (periods * period + period - 1) / period = periods := by
    rw [Nat.add_sub_assoc hperiod, Nat.mul_comm, Nat.mul_add_div hperiod,
      Nat.div_eq_of_lt (by omega), Nat.add_zero]
  exact ⟨⟨⟨hperiods, ⟨hperiod, hfader⟩, hcount, (Nat.zero_min periods).symm,
    fun chIdx hch => by rw [Nat.zero_mul]; rfl⟩, fun _ _ _ => rfl⟩, rfl⟩

end Steps

/-- A channel that is silent at first, with transitions of two blocks of one sample. -/
theorem exists_oneChannel : ∃ f : GainFader ℚ,
    setup 1 Nat.one_pos 1 2 true (fun _ => 0) = .ok ⟨1, true, fun _ => 0, fun _ => 0, 2, 0, f⟩ := by
  obtain ⟨f, hf⟩ := GainFader.exists_create (K := ℚ) 1 Nat.one_pos (2 * 1)
    (by decide : alignmentIsPowerOfTwo (if cVectorAlignmentSamples = 0 then 1
      else cVectorAlignmentSamples) = true)
  exact ⟨f, bind_of_ok hf _⟩

end GainVector

end Visr
