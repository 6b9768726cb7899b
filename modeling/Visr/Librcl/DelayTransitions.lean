import Mathlib.Data.Rat.Floor
import Visr.Librcl.DelayVector

/-!
# Smooth transitions of delays and gains

What the outputs of a delay vector or a delay matrix are made of, after any calls of its
methods.

## Main results

* `DelayComponent.Follows.perform` — what a call preserves.
* `transitions_glide` — in runs with resumable transitions, delays and gains follow the plan.
-/

namespace Visr

variable {K : Type} [Field K] [LinearOrder K] [FloorRing K] {L : DelayLayout K} {q : DelaySetup K}

/-- The calls of a component.  The inputs of `process()` are given if they have changed. -/
inductive DelayCall (L : DelayLayout K)
  | setGain (newGains : L.Parameter)
  | setDelay (newDelays : L.Parameter)
  | setDelayAndGain (newDelays newGains : L.Parameter)
  | process (input : ℕ → ℕ → K) (gainInput delayInput : Option L.Parameter)

namespace DelayCall

def perform (s : DelayComponent L q) : DelayCall L → Except Exception (DelayComponent L q)
  | setGain newGains => s.setGain newGains
  | setDelay newDelays => s.setDelay newDelays
  | setDelayAndGain newDelays newGains => s.setDelayAndGain newDelays newGains
  | process input gainInput delayInput => (s.process input gainInput delayInput).map Prod.fst

/-- A call in a run without exceptions. -/
def step (c : DelayCall L) (s : DelayComponent L q) : Option (DelayComponent L q) :=
  (c.perform s).toOption

/-- The gains that a call sets. -/
def newGains (ports : ControlPortConfig) : DelayCall L → Option L.Parameter
  | setGain newGains => some newGains
  | setDelay _ => none
  | setDelayAndGain _ newGains => some newGains
  | process _ gainInput _ => if ports.hasGain then gainInput else none

/-- The delays that a call sets. -/
def newDelays (ports : ControlPortConfig) : DelayCall L → Option L.Parameter
  | setGain _ => none
  | setDelay newDelays => some newDelays
  | setDelayAndGain newDelays _ => some newDelays
  | process _ _ delayInput => if ports.hasDelay then delayInput else none

/-- The number of samples that a call processes. -/
def samples (q : DelaySetup K) : DelayCall L → ℕ
  | process _ _ _ => q.period
  | _ => 0

/-- The parameters have the right size, and the delays are admissible. -/
def Admissible (c : DelayCall L) (s : DelayComponent L q) : Prop :=
  (∀ newGains, c.newGains q.controlInputs = some newGains → ∃ values,
    L.entries newGains = some values) ∧
  ∀ newDelays, c.newDelays q.controlInputs = some newDelays → ∃ values,
    L.entries newDelays = some values ∧ ∀ entry, s.delayLine.Admissible (values entry)

/-- The transitions that the call replaces can be resumed, and the delays are not limited. -/
def Resumes (c : DelayCall L) (s : DelayComponent L q) : Prop :=
  (c.newGains q.controlInputs ≠ none → s.gains.Resumable) ∧
  (c.newDelays q.controlInputs ≠ none → s.delays.Resumable) ∧
  ∀ newDelays values, c.newDelays q.controlInputs = some newDelays →
    L.entries newDelays = some values → ∀ entry, ¬s.delayLine.Limited (values entry)

end DelayCall

/-! ### What the transitions are meant to be -/

/-- The glides of the gains and of the delays. -/
structure DelayPlan (ι K : Type) where
  gain : ι → Glide K
  delay : ι → Glide K

namespace DelayPlan

variable {ι : Type}

/-- The values set with `setup()`. -/
def initial (delays gains : ι → K) : DelayPlan ι K where
  gain idx := Glide.still (gains idx)
  delay idx := Glide.still (delays idx)

/-- New targets, if there are any. -/
def retarget (steps : ℕ) (values : Option (ι → K)) (g : ι → Glide K) : ι → Glide K :=
  match values with
  | none => g
  | some values => fun idx => (g idx).retarget steps (values idx)

/-- The new values that come with a call are the new targets. -/
def update (q : DelaySetup K) (c : DelayCall L) (p : DelayPlan L.Entry K) :
    DelayPlan L.Entry K where
  gain := retarget q.interpolationSteps ((c.newGains q.controlInputs).bind L.entries) p.gain
  delay := retarget q.interpolationSteps ((c.newDelays q.controlInputs).bind L.entries) p.delay

def advance (n : ℕ) (p : DelayPlan ι K) : DelayPlan ι K where
  gain idx := (p.gain idx).advance n
  delay idx := (p.delay idx).advance n

/-- The plan after a number of calls. -/
def after (q : DelaySetup K) (p : DelayPlan L.Entry K) (calls : List (DelayCall L)) :
    DelayPlan L.Entry K :=
  calls.foldl (fun p c => (p.update q c).advance (c.samples q)) p

/-- No value changes by more than its share of the way from one sample to the next. -/
def Smooth (steps : ℕ) (p : DelayPlan ι K) : Prop :=
  ∀ idx k,
    |(p.gain idx).value steps (k + 1) - (p.gain idx).value steps k| ≤
      |(p.gain idx).target - (p.gain idx).start| / steps ∧
    |(p.delay idx).value steps (k + 1) - (p.delay idx).value steps k| ≤
      |(p.delay idx).target - (p.delay idx).start| / steps

end DelayPlan

namespace DelayComponent

/-- The next call of `process()` returns, and each sample of its outputs is made of samples with
the delays and gains of the plan. -/
def PlaysPlan (s : DelayComponent L q) (p : DelayPlan L.Entry K) (input : ℕ → ℕ → K)
    (gainInput delayInput : Option L.Parameter) : Prop :=
  ∃ s' values, s.process input gainInput delayInput = .ok (s', L.assemble values) ∧
    ∀ entry, ∀ n < q.period, values entry n =
      s'.delayLine.sampleAt (L.inputChannel entry) n
        ((p.delay entry).value q.interpolationSteps ((p.delay entry).elapsed + n + 1))
        ((p.gain entry).value q.interpolationSteps ((p.gain entry).elapsed + n + 1))

/-! ### One call -/

/-- A delay that is used as it is given. -/
def Plain (s : DelayComponent L q) (delay : K) : Prop :=
  s.delayLine.Admissible delay ∧ ¬s.delayLine.Limited delay

/-- The transitions follow a plan, with delays that are used as they are. -/
structure Follows (s : DelayComponent L q) (p : DelayPlan L.Entry K) : Prop where
  blocks_pos : 0 < q.interpolationBlocks
  steps_eq : q.interpolationSteps = q.interpolationBlocks * q.period
  blockLength : s.delayLine.blockLength = q.period
  channels : s.delayLine.numberOfChannels = L.numberOfInputs
  gains : s.gains.Tracks q.period p.gain
  delays : s.delays.Tracks q.period p.delay
  current : ∀ entry, s.Plain (s.delays.current entry)
  next : ∀ entry, s.Plain (s.delays.next entry)

variable [IsStrictOrderedRing K] {s : DelayComponent L q} {p : DelayPlan L.Entry K}

omit [IsStrictOrderedRing K] in
theorem setup_follows {initialDelays initialGains : L.Entry → K}
    (h : setup L q initialDelays initialGains = .ok s)
    (hinitial : ∀ entry, s.Plain (initialDelays entry)) :
    s.Follows (DelayPlan.initial initialDelays initialGains) := by
  unfold setup at h
  split at h
  · cases h
  next hmod =>
    split at h
    · cases h
    next hblocks =>
      obtain ⟨line, hline, hs⟩ := exists_of_bind_ok h
      cases hs
      -- the transition takes a whole number of blocks
      have hparts := Nat.div_add_mod q.interpolationSteps q.period
      rw [not_not.mp hmod, Nat.add_zero, Nat.mul_comm] at hparts
      have hconstants : line.blockLength = q.period ∧ line.numberOfChannels = L.numberOfInputs := by
        unfold MultichannelDelayLine.create at hline
        split at hline
        · cases hline
        · cases hline
          exact ⟨rfl, rfl⟩
      exact
        { blocks_pos := Nat.not_lt.mp hblocks
          steps_eq := hparts.symm
          blockLength := hconstants.1
          channels := hconstants.2
          gains := ParameterTransition.tracks_initial _ _ _
          delays := ParameterTransition.tracks_initial _ _ _
          current := hinitial
          next := hinitial }

omit [FloorRing K] in
/-- The two ways to compute the ratio. -/
theorem gain_ratio {counter blocks : ℕ} (hblocks : 0 < blocks) (h : counter ≤ blocks) :
    1 - ((blocks - counter : ℕ) : K) / blocks = (counter : K) / blocks := by
  have hne : (blocks : K) ≠ 0 := Nat.cast_ne_zero.mpr (by omega)
  rw [Nat.cast_sub h]
  field_simp
  ring

theorem Follows.setGain (h : s.Follows p) (hresumable : s.gains.Resumable)
    {newGains : L.Parameter} {values : L.Entry → K} (hvalues : L.entries newGains = some values) :
    ∃ s', s.setGain newGains = .ok s' ∧ s'.delays = s.delays ∧ s'.delayLine = s.delayLine ∧
      s'.Follows ⟨DelayPlan.retarget q.interpolationSteps (some values) p.gain, p.delay⟩ := by
  have hset := h.gains.set h.blocks_pos q.period_pos hresumable values
  rw [← h.steps_eq, ← gain_ratio h.blocks_pos s.gains.counter_le] at hset
  unfold DelayComponent.setGain
  rw [hvalues]
  exact ⟨_, rfl, rfl, rfl, { h with gains := hset }⟩

theorem Follows.setDelay (h : s.Follows p) (hresumable : s.delays.Resumable)
    {newDelays : L.Parameter} {values : L.Entry → K} (hvalues : L.entries newDelays = some values)
    (hplain : ∀ entry, s.Plain (values entry)) :
    ∃ s', s.setDelay newDelays = .ok s' ∧ s'.gains = s.gains ∧ s'.delayLine = s.delayLine ∧
      s'.Follows ⟨p.gain, DelayPlan.retarget q.interpolationSteps (some values) p.delay⟩ := by
  have hset := h.delays.set h.blocks_pos q.period_pos hresumable values
  rw [← h.steps_eq] at hset
  have hcurrent : ∀ entry, s.Plain
      ((s.delays.set ((s.delays.interpolationCounter : K) / q.interpolationBlocks) values).current
        entry) := by
    intro entry
    -- the new start is the present value, which is between the current and the next one
    rw [ParameterTransition.current_set h.blocks_pos hresumable values entry,
      ParameterTransition.startValue_eq]
    exact MultichannelDelayLine.admissible_between (h.current entry) (h.next entry)
      (ParameterTransition.ratio_mem s.delays.counter_le)
  unfold DelayComponent.setDelay
  rw [hvalues]
  exact ⟨_, rfl, rfl, rfl, { h with delays := hset, current := hcurrent, next := hplain }⟩

/-- The gain input at the start of a block. -/
theorem Follows.receiveGain (h : s.Follows p) {gainInput : Option L.Parameter}
    (hentries : ∀ newGains, (if q.controlInputs.hasGain then gainInput else none) = some newGains →
      ∃ values, L.entries newGains = some values)
    (hresumable : (if q.controlInputs.hasGain then gainInput else none) ≠ none →
      s.gains.Resumable) :
    ∃ s', s.receiveGain gainInput = .ok s' ∧ s'.delays = s.delays ∧
      s'.delayLine = s.delayLine ∧
      s'.Follows ⟨DelayPlan.retarget q.interpolationSteps
        ((if q.controlInputs.hasGain then gainInput else none).bind L.entries) p.gain, p.delay⟩ := by
  unfold DelayComponent.receiveGain
  cases hport : q.controlInputs.hasGain with
  | false => exact ⟨s, rfl, rfl, rfl, h⟩
  | true =>
    rw [hport] at hentries hresumable
    cases gainInput with
    | none => exact ⟨s, rfl, rfl, rfl, h⟩
    | some newGains =>
      obtain ⟨values, hvalues⟩ := hentries newGains rfl
      obtain ⟨s', hset, hdelays, hline, hfollows⟩ :=
        h.setGain (hresumable (Option.some_ne_none newGains)) hvalues
      refine ⟨s', hset, hdelays, hline, ?_⟩
      show s'.Follows
        ⟨DelayPlan.retarget q.interpolationSteps (L.entries newGains) p.gain, p.delay⟩
      rw [hvalues]
      exact hfollows

/-- The delay input at the start of a block. -/
theorem Follows.receiveDelay (h : s.Follows p) {delayInput : Option L.Parameter}
    (hentries : ∀ newDelays,
      (if q.controlInputs.hasDelay then delayInput else none) = some newDelays →
        ∃ values, L.entries newDelays = some values ∧ ∀ entry, s.Plain (values entry))
    (hresumable : (if q.controlInputs.hasDelay then delayInput else none) ≠ none →
      s.delays.Resumable) :
    ∃ s', s.receiveDelay delayInput = .ok s' ∧
      s'.Follows ⟨p.gain, DelayPlan.retarget q.interpolationSteps
        ((if q.controlInputs.hasDelay then delayInput else none).bind L.entries) p.delay⟩ := by
  unfold DelayComponent.receiveDelay
  cases hport : q.controlInputs.hasDelay with
  | false => exact ⟨s, rfl, h⟩
  | true =>
    rw [hport] at hentries hresumable
    cases delayInput with
    | none => exact ⟨s, rfl, h⟩
    | some newDelays =>
      obtain ⟨values, hvalues, hplain⟩ := hentries newDelays rfl
      obtain ⟨s', hset, -, -, hfollows⟩ :=
        h.setDelay (hresumable (Option.some_ne_none newDelays)) hvalues hplain
      refine ⟨s', hset, ?_⟩
      show s'.Follows
        ⟨p.gain, DelayPlan.retarget q.interpolationSteps (L.entries newDelays) p.delay⟩
      rw [hvalues]
      exact hfollows

/-- What remains of a block after the inputs have been received. -/
theorem Follows.block (h : s.Follows p) (input : ℕ → ℕ → K) :
    ∃ line values, s.delayLine.write input L.numberOfInputs = .ok line ∧
      L.collect (fun entry => line.interpolate (L.inputChannel entry) q.period
        (s.delays.startValue entry) (s.delays.endValue entry) (s.gains.startValue entry)
        (s.gains.endValue entry)) = .ok (L.assemble values) ∧
      (∀ entry, ∀ n < q.period, values entry n = line.sampleAt (L.inputChannel entry) n
        ((p.delay entry).value q.interpolationSteps ((p.delay entry).elapsed + n + 1))
        ((p.gain entry).value q.interpolationSteps ((p.gain entry).elapsed + n + 1))) ∧
      DelayComponent.Follows (L := L) (q := q) ⟨s.gains.advance, s.delays.advance, line⟩
        (p.advance q.period) := by
  obtain ⟨line, hwrite, halike⟩ := s.delayLine.write_ok input
  rw [h.channels] at hwrite
  have hlength : line.blockLength = q.period := halike.blockLength.trans h.blockLength
  have hchannel : ∀ entry, (L.inputChannel entry : ℕ) < line.numberOfChannels := by
    intro entry
    rw [halike.numberOfChannels, h.channels]
    exact (L.inputChannel entry).isLt
  -- a delay between two admissible ones is admissible, and needs no limit
  have hends : ∀ entry {n : ℕ}, n ≤ q.interpolationBlocks →
      s.Plain (between (s.delays.current entry) (s.delays.next entry)
        ((n : K) / q.interpolationBlocks)) := fun entry _ hn =>
    MultichannelDelayLine.admissible_between (h.current entry) (h.next entry)
      (ParameterTransition.ratio_mem hn)
  have hstart : ∀ entry, line.Admissible (s.delays.startValue entry) ∧
      ¬line.Limited (s.delays.startValue entry) := fun entry =>
    halike.admissible.mpr (hends entry s.delays.counter_le)
  have hend : ∀ entry, line.Admissible (s.delays.endValue entry) ∧
      ¬line.Limited (s.delays.endValue entry) := fun entry =>
    halike.admissible.mpr (hends entry (Nat.min_le_right _ _))
  choose values hvalues hsamples using fun entry =>
    MultichannelDelayLine.interpolate_spec (hchannel entry) (hstart entry) (hend entry)
      (s.gains.startValue entry) (s.gains.endValue entry)
  rw [hlength] at hvalues hsamples
  refine ⟨line, values, hwrite, L.collect_ok _ values hvalues, fun entry n hn => ?_, ?_⟩
  · rw [hsamples entry n hn, h.steps_eq, h.delays.block h.blocks_pos q.period_pos entry hn,
      h.gains.block h.blocks_pos q.period_pos entry hn]
  · exact
      { blocks_pos := h.blocks_pos
        steps_eq := h.steps_eq
        blockLength := hlength
        channels := halike.numberOfChannels.trans h.channels
        gains := h.gains.advance
        delays := h.delays.advance
        current := fun entry => halike.admissible.mpr (h.current entry)
        next := fun entry => halike.admissible.mpr (h.next entry) }

omit [FloorRing K] [IsStrictOrderedRing K] in
/-- The delays that come with a call are used as they are. -/
theorem plain_of_resumes {c : DelayCall L} (hadmissible : c.Admissible s) (hresumes : c.Resumes s)
    (newDelays : L.Parameter) (h : c.newDelays q.controlInputs = some newDelays) :
    ∃ values, L.entries newDelays = some values ∧ ∀ entry, s.Plain (values entry) := by
  obtain ⟨values, hvalues, hline⟩ := hadmissible.2 newDelays h
  exact ⟨values, hvalues, fun entry =>
    ⟨hline entry, hresumes.2.2 newDelays values h hvalues entry⟩⟩

/-- **One block.**  The samples have the delays and gains of the plan. -/
theorem Follows.process (h : s.Follows p) {input : ℕ → ℕ → K}
    {gainInput delayInput : Option L.Parameter}
    (hadmissible : (DelayCall.process input gainInput delayInput).Admissible s)
    (hresumes : (DelayCall.process input gainInput delayInput).Resumes s) :
    s.PlaysPlan (p.update q (.process input gainInput delayInput)) input gainInput delayInput ∧
      ∃ s' output, s.process input gainInput delayInput = .ok (s', output) ∧
        s'.Follows ((p.update q (.process input gainInput delayInput)).advance q.period) := by
  obtain ⟨s₁, hgain, hdelays, hline, hfollows₁⟩ := h.receiveGain hadmissible.1 hresumes.1
  have hplain := plain_of_resumes hadmissible hresumes
  obtain ⟨s₂, hdelay, hfollows₂⟩ := hfollows₁.receiveDelay
    (fun newDelays hnew => by
      obtain ⟨values, hvalues, hentry⟩ := hplain newDelays hnew
      refine ⟨values, hvalues, fun entry => ?_⟩
      show s₁.delayLine.Admissible (values entry) ∧ ¬s₁.delayLine.Limited (values entry)
      rw [hline]
      exact hentry entry)
    (fun hnew => by
      rw [hdelays]
      exact hresumes.2.1 hnew)
  obtain ⟨line, values, hwrite, hcollect, hsamples, hnext⟩ := hfollows₂.block input
  have hprocess : s.process input gainInput delayInput =
      .ok (⟨s₂.gains.advance, s₂.delays.advance, line⟩, L.assemble values) := by
    unfold DelayComponent.process
    rw [hgain, ok_bind, hdelay, ok_bind, hwrite, ok_bind, hcollect]
    rfl
  exact ⟨⟨_, values, hprocess, hsamples⟩, _, _, hprocess, hnext⟩

/-- **One call.** -/
theorem Follows.perform (h : s.Follows p) {c : DelayCall L} (hadmissible : c.Admissible s)
    (hresumes : c.Resumes s) :
    ∃ s', c.perform s = .ok s' ∧ s'.Follows ((p.update q c).advance (c.samples q)) := by
  cases c with
  | setGain newGains =>
    obtain ⟨values, hvalues⟩ := hadmissible.1 newGains rfl
    obtain ⟨s', hset, -, -, hfollows⟩ :=
      h.setGain (hresumes.1 (Option.some_ne_none newGains)) hvalues
    refine ⟨s', hset, ?_⟩
    rw [← hvalues] at hfollows
    exact hfollows
  | setDelay newDelays =>
    obtain ⟨values, hvalues, hplain⟩ := plain_of_resumes hadmissible hresumes newDelays rfl
    obtain ⟨s', hset, -, -, hfollows⟩ :=
      h.setDelay (hresumes.2.1 (Option.some_ne_none newDelays)) hvalues hplain
    refine ⟨s', hset, ?_⟩
    rw [← hvalues] at hfollows
    exact hfollows
  | setDelayAndGain newDelays newGains =>
    obtain ⟨delays, hdelays, hplain⟩ := plain_of_resumes hadmissible hresumes newDelays rfl
    obtain ⟨gains, hgains⟩ := hadmissible.1 newGains rfl
    obtain ⟨s₁, hdelay, hsame, -, hfollows₁⟩ :=
      h.setDelay (hresumes.2.1 (Option.some_ne_none newDelays)) hdelays hplain
    -- the gains are still those of the first state
    have hresumable : s₁.gains.Resumable := by
      rw [hsame]
      exact hresumes.1 (Option.some_ne_none newGains)
    obtain ⟨s₂, hgain, -, -, hfollows₂⟩ := hfollows₁.setGain hresumable hgains
    refine ⟨s₂, ?_, ?_⟩
    · show (s.setDelay newDelays >>= fun s => s.setGain newGains) = .ok s₂
      rw [hdelay]
      exact hgain
    · rw [← hdelays, ← hgains] at hfollows₂
      exact hfollows₂
  | process input gainInput delayInput =>
    obtain ⟨-, s', output, hprocess, hfollows⟩ := h.process hadmissible hresumes
    refine ⟨s', ?_, hfollows⟩
    show (s.process input gainInput delayInput).map Prod.fst = .ok s'
    rw [hprocess]
    rfl

/-- **Runs.** -/
theorem Follows.exec (h : s.Follows p) {calls : List (DelayCall L)}
    (hcalls : Execution.Throughout DelayCall.step (fun c s => c.Admissible s ∧ c.Resumes s)
      calls s) :
    ∃ s', Execution.exec DelayCall.step calls s = some s' ∧ s'.Follows (p.after q calls) := by
  induction calls generalizing s p with
  | nil => exact ⟨s, rfl, h⟩
  | cons c calls ih =>
    obtain ⟨⟨hadmissible, hresumes⟩, hrest⟩ := hcalls
    obtain ⟨s₁, hperform, hfollows⟩ := h.perform hadmissible hresumes
    have hstep : c.step s = some s₁ := congrArg Except.toOption hperform
    obtain ⟨s', hexec, hlast⟩ := ih hfollows (hrest s₁ hstep)
    exact ⟨s', Execution.exec_cons_eq_some.mpr ⟨s₁, hstep, hexec⟩, hlast⟩

end DelayComponent

/-- **Smooth transitions.**  If each update finds a transition that can be resumed, and no delay is
limited, then every block of a run is made of the delays and gains of the plan: `k` samples after
an update, a value is the point `k / interpolationSteps` of the way from the value in force
before the update to the one set by it, and the latter from the end of the transition on. -/
theorem transitions_glide [IsStrictOrderedRing K] {kind : DelayKind}
    {initialDelays initialGains : (kind.layout K).Entry → K}
    {s₀ : DelayComponent (kind.layout K) q}
    (hsetup : DelayComponent.setup (kind.layout K) q initialDelays initialGains = .ok s₀)
    (hinitial : ∀ entry, s₀.Plain (initialDelays entry))
    (calls : List (DelayCall (kind.layout K))) (input : ℕ → ℕ → K)
    (gainInput delayInput : Option (kind.layout K).Parameter)
    (hcalls : Execution.Throughout DelayCall.step (fun c s => c.Admissible s ∧ c.Resumes s)
      (calls ++ [.process input gainInput delayInput]) s₀) :
    ∃ s plan, Execution.exec DelayCall.step calls s₀ = some s ∧
      plan = ((DelayPlan.initial initialDelays initialGains).after q calls).update q
        (.process input gainInput delayInput) ∧
      s.PlaysPlan plan input gainInput delayInput ∧ plan.Smooth q.interpolationSteps := by
  have hstart := DelayComponent.setup_follows hsetup hinitial
  obtain ⟨hbefore, hlast⟩ := Execution.throughout_append.mp hcalls
  obtain ⟨s, hexec, hfollows⟩ := hstart.exec hbefore
  obtain ⟨⟨hadmissible, hresumes⟩, -⟩ := hlast s hexec
  have hsteps : 0 < q.interpolationSteps := by
    rw [hstart.steps_eq]
    exact Nat.mul_pos hstart.blocks_pos q.period_pos
  exact ⟨s, _, hexec, rfl, (hfollows.process hadmissible hresumes).1, fun entry k =>
    ⟨Glide.step_le hsteps _ k, Glide.step_le hsteps _ k⟩⟩

/-- A delay vector of one channel, with transitions of two blocks. -/
def oneChannelDelay : DelaySetup ℚ where
  period := 1
  period_pos := Nat.one_pos
  samplingFrequency := 1
  interpolationSteps := 2
  maximumDelaySeconds := 1
  interpolationMethod := "nearestSample"
  methodDelayPolicy := .Add
  controlInputs := .None

def unityGain : BasicVector ℚ := ⟨1, fun _ => 1⟩

theorem transitions_glide_once :
    ∃ s₀, DelayComponent.setup (DelayKind.layout ℚ (.delayVector 1)) oneChannelDelay
        (fun _ => 0) (fun _ => 0) = .ok s₀ ∧
      ∃ s plan, Execution.exec DelayCall.step [.setGain unityGain] s₀ = some s ∧
        plan = ((DelayPlan.initial (fun _ => 0) fun _ => 0).after oneChannelDelay
          [.setGain unityGain]).update oneChannelDelay (.process (fun _ _ => 1) none none) ∧
        s.PlaysPlan plan (fun _ _ => 1) none none ∧ plan.Smooth 2 := by
  have hline : (DelayComponent.setup (DelayKind.layout ℚ (.delayVector 1)) oneChannelDelay
      (fun _ => 0) (fun _ => 0)).toOption.map (fun s => (s.delayLine.samplingFrequency,
        s.delayLine.maxDelaySamples, s.delayLine.methodDelayPolicy)) = some (1, 1, .Add) := by
    decide +kernel
  obtain ⟨s₀, hs₀, hparts⟩ := Option.map_eq_some_iff.mp hline
  have hsetup := toOption_eq_some hs₀
  obtain ⟨hfrequency, hmax, hpolicy⟩ : s₀.delayLine.samplingFrequency = 1 ∧
      s₀.delayLine.maxDelaySamples = 1 ∧ s₀.delayLine.methodDelayPolicy = .Add := by
    simpa only [Prod.mk.injEq] using hparts
  have hinitial : s₀.Plain 0 := by
    unfold DelayComponent.Plain MultichannelDelayLine.Admissible MultichannelDelayLine.Limited
    rw [hpolicy, hmax]
    simp
  have hfollows := DelayComponent.setup_follows hsetup fun _ => hinitial
  -- the first transition leads nowhere yet
  have hresumable : s₀.gains.Resumable := Or.inr (Or.inr fun entry =>
    (hfollows.gains.start entry).symm.trans (hfollows.gains.target entry))
  refine ⟨s₀, hsetup, transitions_glide hsetup (fun _ => hinitial) [.setGain unityGain]
    (fun _ _ => 1) none none ⟨⟨⟨?_, ?_⟩, fun _ => hresumable, ?_, ?_⟩, ?_⟩⟩
  · intro newGains hnew
    cases hnew
    exact ⟨_, rfl⟩
  · exact fun _ hnew => nomatch hnew
  · exact fun hnew => absurd rfl hnew
  · exact fun _ _ hnew => nomatch hnew
  · -- nothing is set with the block
    intro s₁ _
    refine ⟨⟨⟨?_, ?_⟩, fun hnew => absurd rfl hnew, fun hnew => absurd rfl hnew, ?_⟩,
      fun _ _ => trivial⟩
    · exact fun _ hnew => nomatch hnew
    · exact fun _ hnew => nomatch hnew
    · exact fun _ _ hnew => nomatch hnew

/-- Two updates between two blocks: the gain jumps to its new value. -/
theorem not_transitions_glide_twice :
    ∃ s₀ s, DelayComponent.setup (DelayKind.layout ℚ (.delayVector 1)) oneChannelDelay
        (fun _ => 0) (fun _ => 0) = .ok s₀ ∧
      Execution.exec DelayCall.step [.setGain unityGain, .setGain unityGain] s₀ = some s ∧
      ¬s.PlaysPlan (((DelayPlan.initial (fun _ => 0) fun _ => 0).after oneChannelDelay
        [.setGain unityGain, .setGain unityGain]).update oneChannelDelay
          (.process (fun _ _ => 1) none none)) (fun _ _ => 1) none none := by
  let plan := ((DelayPlan.initial (fun _ => 0) fun _ => 0).after
    (L := DelayKind.layout ℚ (.delayVector 1)) oneChannelDelay
    [.setGain unityGain, .setGain unityGain]).update oneChannelDelay
      (.process (fun _ _ => 1) none none)
  have hrun : ((DelayComponent.setup (DelayKind.layout ℚ (.delayVector 1)) oneChannelDelay
      (fun _ => 0) (fun _ => 0)).toOption.bind fun s₀ =>
        (Execution.exec DelayCall.step [.setGain unityGain, .setGain unityGain] s₀).bind fun s =>
          (s.process (fun _ _ => 1) none none).toOption.map fun result =>
            (result.2.map fun signal => signal 0, result.1.delayLine.sampleAt 0 0
              ((plan.delay (0 : Fin 1)).value 2 ((plan.delay (0 : Fin 1)).elapsed + 0 + 1))
              ((plan.gain (0 : Fin 1)).value 2 ((plan.gain (0 : Fin 1)).elapsed + 0 + 1)))) =
      some ([1], 1 / 2) := by
    decide +kernel
  obtain ⟨s₀, hs₀, hrest⟩ := Option.bind_eq_some_iff.mp hrun
  obtain ⟨s, hs, hlast⟩ := Option.bind_eq_some_iff.mp hrest
  obtain ⟨result, hresult, hparts⟩ := Option.map_eq_some_iff.mp hlast
  refine ⟨s₀, s, toOption_eq_some hs₀, hs, ?_⟩
  rintro ⟨s', values, hprocess, hvalues⟩
  cases (toOption_eq_some hresult).symm.trans hprocess
  obtain ⟨houtput, hexpected⟩ := Prod.mk.inj hparts
  -- the output that there is, and the one according to the plan
  have hone : values (0 : Fin 1) 0 = 1 := (List.cons.inj houtput).1
  have hhalf := hvalues (0 : Fin 1) 0 Nat.one_pos
  rw [hone] at hhalf
  exact absurd (hhalf.trans hexpected) (by norm_num)

end Visr
