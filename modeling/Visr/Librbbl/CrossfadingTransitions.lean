import Visr.Librbbl.CrossfadingConvolverRuns

/-!
# Transitions of the crossfading convolver

The two versions of a filter in the filter memory compared with the transitions as they are
documented, in runs in which transitions are interrupted and filters initialised anew.

## Main results

* `run_continues` — **a transition continues with its new target**.
* `initFilters_takesEffect` — **an initialisation of the filters takes effect**.
-/

namespace Visr

open Dft Crossfade Execution

variable {R C : Type} [Field R] [CommRing C] [Algebra R C]

namespace CrossfadingConvolverUniform

variable {q : CrossfadingParameters R C}

/-! ### Transitions as documented -/

/-- The transition of a filter in terms of impulse responses. -/
def responses (c : CrossfadingConvolverUniform q) (f : ℕ) : Fade (ℕ → R) :=
  (c.fade f).map q.core.responseOf

/-- A convolver in use, with the transitions of its filters as they are documented. -/
structure Tracked (q : CrossfadingParameters R C) where
  session : Session q
  documented : ℕ → Fade (ℕ → R)

/-- The effect of a call on the transitions: a filter that is set becomes the new target,
towards which a running transition continues unless a new one is started. -/
def Operation.document (op : Operation R C) (after : Session q) (returned : Bool)
    (documented : ℕ → Fade (ℕ → R)) : ℕ → Fade (ℕ → R) :=
  match op, returned with
  | .setImpulseResponse r filterIdx startTransition, true =>
    Function.update documented filterIdx
      ((documented filterIdx).redirect r.coefficient startTransition)
  | .setTransformedFilter fdFilter filterIdx startTransition _, true =>
    Function.update documented filterIdx
      ((documented filterIdx).redirect (q.core.responseOf fdFilter.data) startTransition)
  | .process _, true => fun f => (documented f).advance (q.numRampBlocks - 1)
  -- both ends are what is in the filter memory then
  | .clearFilters, _ => after.convolver.responses
  | .initFilters _, _ => after.convolver.responses
  | _, _ => documented

namespace Tracked

def start (c : CrossfadingConvolverUniform q) : Tracked q := ⟨⟨c, 0⟩, c.responses⟩

def step (signal : ℕ → ℕ → R) (op : Operation R C) (t : Tracked q) : Option (Tracked q) :=
  (t.session.step signal op).map fun after =>
    ⟨after, op.document after (t.session.call signal op).2.isNone t.documented⟩

end Tracked

/-- The part of the condition that concerns the transition: a filter may be set without
starting a new transition if none is in progress or the present one leads from a filter to
itself. -/
def MayReplace (q : CrossfadingParameters R C) (documented : Fade (ℕ → R))
    (startTransition : Bool) : Prop :=
  startTransition = false →
    documented.Settled q.transitionSamples q.core.blockLength ∨
      documented.source = documented.target

/-- The calls for which the two versions in the filter memory are enough. -/
def Operation.Continues (op : Operation R C) (t : Tracked q) : Prop :=
  match op with
  | .setImpulseResponse r filterIdx startTransition =>
    q.core.Keeps r ∧ MayReplace q (t.documented filterIdx) startTransition
  | .setTransformedFilter fdFilter filterIdx startTransition alignment =>
    q.core.Represents fdFilter.data (q.core.responseOf fdFilter.data) ∧
      checkAlignment fdFilter.address (min alignment q.core.complexAlignment) = true ∧
      MayReplace q (t.documented filterIdx) startTransition
  | _ => True

/-- The filter memory holds a transition that cannot be told from the documented one. -/
def Plays (q : CrossfadingParameters R C) (f : Fade (ℕ → C)) (documented : Fade (ℕ → R)) : Prop :=
  ∃ a, RepresentsFade q.core f a ∧
    Fade.Alike q.transitionSamples q.core.blockLength a documented

theorem settled_last (q : CrossfadingParameters R C) :
    q.transitionSamples ≤ (q.numRampBlocks - 1) * q.core.blockLength + 1 :=
  Nat.le_succ_of_le q.transitionSamples_le

theorem Plays.advance {f : Fade (ℕ → C)} {d : Fade (ℕ → R)} (h : Plays q f d) :
    Plays q (f.advance (q.numRampBlocks - 1)) (d.advance (q.numRampBlocks - 1)) := by
  obtain ⟨a, ha, halike⟩ := h
  refine ⟨a.advance (q.numRampBlocks - 1), ⟨ha.source, ha.target, ?_⟩,
    halike.advance (settled_last q)⟩
  show min (f.position + 1) _ = min (a.position + 1) _
  rw [ha.position]

theorem Plays.replace {f : Fade (ℕ → C)} {d : Fade (ℕ → R)} (h : Plays q f d)
    {fdFilter : ℕ → C} {response : ℕ → R} (hfilter : q.core.Represents fdFilter response)
    {startTransition : Bool} (hmay : MayReplace q d startTransition) :
    Plays q (f.push fdFilter startTransition) (d.redirect response startTransition) := by
  obtain ⟨a, ha, halike⟩ := h
  refine ⟨a.push response startTransition, ⟨ha.target, hfilter, ?_⟩,
    halike.push_redirect response hmay⟩
  show (if startTransition then 0 else f.position) = if startTransition then 0 else a.position
  rw [ha.position]

/-- Whatever is in the filter memory is played, if it is the transform of something. -/
theorem plays_responses {c : CrossfadingConvolverUniform q} {filters : ℕ → ℕ → R}
    (h : ∀ f, q.core.Represents (c.coreConvolver.filterPartitionsFrequencyDomain f) (filters f))
    (f : ℕ) : Plays q (c.fade f) (c.responses f) :=
  ⟨c.responses f, ⟨(h _).self, (h _).self, rfl⟩, Fade.Alike.refl _ _ _⟩

/-- All transitions are played as documented. -/
structure Tracked.Holds (signal : ℕ → ℕ → R) (t : Tracked q) : Prop where
  session : t.session.Holds signal
  plays : ∀ f, f < q.maxNumFilters → Plays q (t.session.convolver.fade f) (t.documented f)

theorem tracked_start {initialRoutings : List (RoutingEntry R)} {initialFilters : BasicMatrix R}
    {c : CrossfadingConvolverUniform q} (h : create q initialRoutings initialFilters = .ok c)
    (signal : ℕ → ℕ → R) : (Tracked.start c).Holds signal := by
  refine ⟨holds_create h signal, fun f _ => ?_⟩
  obtain ⟨⟨core, hcore, rfl⟩, -⟩ := create_spec h
  exact plays_responses (CoreConvolverUniform.create_holds hcore signal).1.represents f

/-- A filter that has been set is played as documented. -/
theorem plays_replaced {c : CrossfadingConvolverUniform q} {documented : ℕ → Fade (ℕ → R)}
    (h : ∀ f, f < q.maxNumFilters → Plays q (c.fade f) (documented f))
    {core : CoreConvolverUniform q.core} {f : ℕ} (hf : f < q.maxNumFilters) {fdFilter : ℕ → C}
    (hcore : core = { c.coreConvolver with
      filterPartitionsFrequencyDomain :=
        Function.update c.coreConvolver.filterPartitionsFrequencyDomain
          (fadeOutFilterIdx q (c.currentFilterOutput f) f) fdFilter })
    {response : ℕ → R} (hfilter : q.core.Represents fdFilter response) {startTransition : Bool}
    (hmay : MayReplace q (documented f) startTransition) {g : ℕ} (hg : g < q.maxNumFilters) :
    Plays q (({ c with
      coreConvolver := core
      currentFilterOutput := Function.update c.currentFilterOutput f
        (if c.currentFilterOutput f = 0 then 1 else 0)
      currentRampBlock :=
        if startTransition then Function.update c.currentRampBlock f 0
        else c.currentRampBlock } : CrossfadingConvolverUniform q).fade g)
      (Function.update documented f ((documented f).redirect response startTransition) g) := by
  rw [fade_store c hf (by rw [hcore]) startTransition hg]
  by_cases heq : g = f
  · subst heq
    rw [if_pos rfl, Function.update_self]
    exact (h g hg).replace hfilter hmay
  · rw [if_neg heq, Function.update_of_ne heq]
    exact h g hg

/-- **Every call** that the two versions are enough for is carried out as documented. -/
theorem Tracked.Holds.step {signal : ℕ → ℕ → R} {t t' : Tracked q} (ht : t.Holds signal)
    {op : Operation R C} (hop : op.Continues t) (h : t.step signal op = some t') :
    t'.Holds signal := by
  obtain ⟨after, hafter, rfl⟩ := Option.map_eq_some_iff.mp h
  obtain ⟨result, hcall, hresult⟩ := Session.step_eq_some hafter
  refine ⟨ht.session.step hafter, fun f hf => ?_⟩
  show Plays q (after.convolver.fade f)
    (op.document after (t.session.call signal op).2.isNone t.documented f)
  rw [hcall]
  -- one case for each call; a call that throws an exception changes nothing
  cases op with
  | setRoutingEntry routing =>
    simp only [Session.call] at hcall
    cases hset : t.session.convolver.setRoutingEntry routing with
    | error e =>
      rw [hset] at hcall
      cases hcall
      exact ht.plays f hf
    | ok c =>
      rw [hset] at hcall
      cases hcall
      obtain ⟨hrange, rfl⟩ := setRoutingEntry_eq_ok hset
      exact ht.plays f hf
  | removeRoutingEntry inputIdx outputIdx =>
    cases hcall
    exact ht.plays f hf
  | clearRoutingTable =>
    cases hcall
    exact ht.plays f hf
  | initRoutingTable routings =>
    obtain ⟨table, outcome, hset⟩ := initRoutingTable_eq t.session.convolver routings
    simp only [Session.call, hset] at hcall
    cases outcome <;> cases hcall <;> exact ht.plays f hf
  | clearFilters =>
    cases hcall
    exact plays_responses (fun _ => ConvolverParameters.represents_zero) f
  | initFilters newFilters =>
    simp only [Session.call] at hcall
    cases hload : t.session.convolver.initFilters newFilters with
    | mk c outcome =>
      obtain ⟨core, rfl, -, hfilters⟩ := initFilters_state hload
      rw [hload] at hcall
      cases outcome <;> cases hcall <;> exact plays_responses hfilters.represents f
  | setImpulseResponse r filterIdx startTransition =>
    simp only [Session.call] at hcall
    cases hset : t.session.convolver.setImpulseResponse r filterIdx startTransition with
    | error fault =>
      rw [hset] at hcall
      cases hcall
      exact ht.plays f hf
    | ok c =>
      rw [hset] at hcall
      cases hcall
      obtain ⟨hlt, core, hload, rfl⟩ := switchFilter_eq_ok hset
      obtain ⟨fdFilter, hcore, -, hfilter⟩ := CoreConvolverUniform.setImpulseResponse_eq_ok hload
      exact plays_replaced ht.plays hlt hcore (hfilter.congr fun k _ => hop.1.effective k) hop.2 hf
  | setTransformedFilter fdFilter filterIdx startTransition alignment =>
    obtain ⟨hfilter, haligned, hmay⟩ := hop
    simp only [Session.call] at hcall
    cases hset : t.session.convolver.setTransformedFilter fdFilter filterIdx startTransition
        alignment with
    | error fault =>
      rw [hset] at hcall
      cases hcall
      exact ht.plays f hf
    | ok c =>
      rw [hset] at hcall
      cases hcall
      obtain ⟨hlt, core, hload, rfl⟩ := switchFilter_eq_ok hset
      obtain ⟨row, hcore, hrow⟩ := CoreConvolverUniform.setFilter_aligned hload haligned hfilter
      exact plays_replaced ht.plays hlt hcore hrow hmay hf
  | process output =>
    -- only a block moves the ramps on
    by_cases hlength : 0 < q.core.maxFilterLength
    · simp only [Session.call] at hcall
      cases hprocess : t.session.convolver.process (t.session.inputBlock signal) output with
      | mk c outcome =>
        obtain ⟨-, -, -, -, hfade⟩ := process_state ht.session.initialised ht.session.inputs
          hlength hprocess
        rw [hprocess] at hcall
        cases outcome with
        | error fault =>
          cases hcall
          show Plays q (c.fade f) (t.documented f)
          rw [hfade f]
          exact ht.plays f hf
        | ok samples =>
          cases hcall
          show Plays q (c.fade f) ((t.documented f).advance (q.numRampBlocks - 1))
          rw [hfade f]
          exact (ht.plays f hf).advance
    · simp only [Session.call, process_of_noPartitions ht.session.inputs hlength] at hcall
      cases hcall
      -- without partitions, the call does not return, which is no step
      obtain ⟨e, he⟩ := hresult _ rfl
      cases he

theorem Tracked.session_holds {signal : ℕ → ℕ → R} {t t' : Tracked q}
    (ht : t.session.Holds signal) {ops : List (Operation R C)}
    (h : exec (Tracked.step signal) ops t = some t') : t'.session.Holds signal := by
  refine exec_invariant (P := fun _ _ => True) (I := fun t => t.session.Holds signal)
    (fun op t t' _ ht hstep => ?_) (throughout_of_forall (fun _ _ => trivial) t) ht h
  obtain ⟨after, hafter, rfl⟩ := Option.map_eq_some_iff.mp hstep
  exact ht.step hafter

/-- The transitions that are played determine the next block. -/
theorem Tracked.Holds.output [CharZero R] {signal : ℕ → ℕ → R} {t : Tracked q}
    (ht : t.Holds signal) {output : OutputBuffer R} (haligned : OutputAligned q output)
    {c' : CrossfadingConvolverUniform q} {samples : ℕ → ℕ → R}
    (h : t.session.convolver.process (t.session.inputBlock signal) output = (c', .ok samples))
    {o s : ℕ} (ho : o < q.core.numberOfOutputs) (hs : s < q.core.blockLength) :
    samples o s = MultichannelConvolverUniform.routingSum
      t.session.convolver.routingTable.entries o fun e =>
        fadedConvolution q (t.documented e.filterIdx) (signal e.inputIdx)
          (t.session.blocks * q.core.blockLength) s := by
  have hlength : 0 < q.core.maxFilterLength := by
    by_contra hnone
    rw [process_of_noPartitions ht.session.inputs hnone] at h
    cases h
  have hfilters := process_filters h
  have : Nonempty (Fade (ℕ → R)) := ⟨.constant (fun _ => 0) 0⟩
  choose! fades hfades using fun f (hf : f < q.maxNumFilters) => ht.plays f hf
  rw [process_output ht.session.initialised ht.session.inputs hlength
    (fun e he => (hfades e.filterIdx (hfilters e he)).1) haligned h ho hs]
  apply MultichannelConvolverUniform.routingSum_congr
  intro e he
  exact (hfades e.filterIdx (hfilters e he)).2.mix _ s

/-- **A transition continues with its new target.**  In every run in which filters are set
without starting a transition only when none is in progress, each block is the mixture of the
convolutions with the documented source and target, at the documented position of the
ramp; and with aligned buffers and existing filters, the block is finished. -/
theorem run_continues [CharZero R] {initialRoutings : List (RoutingEntry R)}
    {initialFilters : BasicMatrix R} {c₀ : CrossfadingConvolverUniform q}
    (hcreate : create q initialRoutings initialFilters = .ok c₀) (signal : ℕ → ℕ → R)
    {ops : List (Operation R C)} {t : Tracked q}
    (hrun : exec (Tracked.step signal) ops (.start c₀) = some t)
    (hops : Throughout (Tracked.step signal) Operation.Continues ops (.start c₀))
    {output : OutputBuffer R} (haligned : OutputAligned q output) :
    (∀ c' samples,
      t.session.convolver.process (t.session.inputBlock signal) output = (c', .ok samples) →
      ∀ o s, o < q.core.numberOfOutputs → s < q.core.blockLength →
        samples o s = MultichannelConvolverUniform.routingSum
          t.session.convolver.routingTable.entries o fun e =>
            fadedConvolution q (t.documented e.filterIdx) (signal e.inputIdx)
              (t.session.blocks * q.core.blockLength) s) ∧
    (0 < q.core.maxFilterLength →
      (q.core.alignment ≠ 0 → q.core.alignment ∣ q.core.blockLength) →
      t.session.convolver.IndicesValid → ∃ c' samples,
        t.session.convolver.process (t.session.inputBlock signal) output = (c', .ok samples)) := by
  have ht : t.Holds signal := exec_invariant (fun _ _ _ hop ht hstep => ht.step hop hstep) hops
    (tracked_start hcreate signal) hrun
  refine ⟨fun c' samples h o s ho hs => ht.output haligned h ho hs, ?_⟩
  intro hlength hblock hvalid
  exact process_returns ht.session.initialised ht.session.inputs hlength hblock
    (fun e he => (hvalid e he).2.2) haligned

theorem keeps_gainResponse (transitionSamples : ℕ) (gain : ℝ) :
    (singleParameters transitionSamples).core.Keeps (gainResponse gain) := by
  intro k _
  refine ⟨rfl, ?_⟩
  show checkAlignment (0 + k / 1 * 1) (min 0 0) = true
  simp [checkAlignment]

theorem aligned_silentBuffer (transitionSamples : ℕ) :
    OutputAligned (singleParameters transitionSamples) silentBuffer := by
  intro o _
  refine ⟨?_, ?_⟩
  · show checkAlignment _ 0 = true
    simp [checkAlignment]
  · show checkAlignment _ (min 0 0) = true
    simp [checkAlignment]

/-- The response to an impulse of the only filter is its only coefficient. -/
theorem convolution_single (transitionSamples : ℕ) (h : ℕ → ℝ) :
    convolution h (singleParameters transitionSamples).core.capacity
      (fun n => if n = 0 then 1 else 0) 0 = h 0 := by
  show convolution h ((1 + 1 - 1) / 1 * 1) _ 0 = h 0
  exact convolution_impulse h Nat.one_pos

theorem coefficient_gainResponse (gain : ℝ) : (gainResponse gain).coefficient 0 = gain :=
  if_pos Nat.one_pos

/-- A filter that is not in transition is replaced at once. -/
theorem run_continues_settled :
    ∃ c₀ t c' samples, create (singleParameters 2) [⟨0, 0, 0, 1⟩] (gainMatrix 0) = .ok c₀ ∧
      exec (Tracked.step fun _ n => if n = 0 then 1 else 0)
        [.setImpulseResponse (gainResponse 1) 0 false] (.start c₀) = some t ∧
      t.session.convolver.process (fun _ n => if n = 0 then 1 else 0) silentBuffer =
        (c', .ok samples) ∧ samples 0 0 = 1 := by
  obtain ⟨c₀, hcreate, hramp, t, hrun, hblocks, htable, htarget, hposition⟩ :
      ∃ c₀, create (singleParameters 2) [⟨0, 0, 0, 1⟩] (gainMatrix 0) = .ok c₀ ∧
        c₀.currentRampBlock 0 = 2 ∧
        ∃ t, exec (Tracked.step fun _ n => if n = 0 then 1 else 0)
            [.setImpulseResponse (gainResponse 1) 0 false] (.start c₀) = some t ∧
          t.session.blocks = 0 ∧ t.session.convolver.routingTable.entries = [⟨0, 0, 0, 1⟩] ∧
          (t.documented 0).target = (gainResponse 1).coefficient ∧ (t.documented 0).position = 2 :=
    ⟨_, rfl, rfl, _, rfl, rfl, rfl, rfl, rfl⟩
  -- the transition is over from the start
  have hmay : MayReplace (singleParameters 2) ((Tracked.start c₀).documented 0) false := by
    intro _
    refine Or.inl ?_
    show 2 ≤ c₀.currentRampBlock 0 * 1 + 1
    rw [hramp]
    decide
  have hcontinues := run_continues hcreate _ hrun
    ⟨⟨keeps_gainResponse 2 1, hmay⟩, fun _ _ => trivial⟩ (aligned_silentBuffer 2)
  have hvalid : t.session.convolver.IndicesValid := by
    intro e he
    rw [htable, List.mem_singleton] at he
    subst he
    exact ⟨Nat.one_pos, Nat.one_pos, Nat.one_pos⟩
  have hinput : t.session.inputBlock (fun _ n => if n = 0 then (1 : ℝ) else 0) =
      fun _ n => if n = 0 then 1 else 0 := by
    funext ch k
    simp [Session.inputBlock, hblocks]
  obtain ⟨c', samples, hprocess⟩ := hcontinues.2 (by decide) (fun h => absurd rfl h) hvalid
  refine ⟨c₀, t, c', samples, hcreate, hrun, hinput ▸ hprocess, ?_⟩
  have hsettled : (t.documented 0).Settled 2 1 := by
    show 2 ≤ (t.documented 0).position * 1 + 1
    rw [hposition]
    decide
  have hmix : fadedConvolution (singleParameters 2) (t.documented 0)
      (fun n => if n = 0 then 1 else 0) (0 * 1) 0 = 1 := by
    refine (Fade.mix_of_settled hsettled _ 0).trans ?_
    rw [htarget]
    exact (convolution_single 2 _).trans (coefficient_gainResponse 1)
  rw [hcontinues.1 c' samples hprocess 0 0 Nat.one_pos Nat.one_pos, htable, hblocks,
    MultichannelConvolverUniform.routingSum_cons, if_pos rfl, one_mul]
  show fadedConvolution (singleParameters 2) (t.documented 0) _ (0 * 1) 0 + _ = 1
  rw [hmix]
  simp [MultichannelConvolverUniform.routingSum]

/-- A new target in the middle of a transition from one to zero: the transition should
continue from one, but the output is zero at once. -/
theorem run_interrupted :
    ∃ c₀ t c' samples, create (singleParameters 2) [⟨0, 0, 0, 1⟩] (gainMatrix 1) = .ok c₀ ∧
      exec (Tracked.step fun _ n => if n = 0 then 1 else 0)
        [.setImpulseResponse (gainResponse 0) 0 true, .setImpulseResponse (gainResponse 0) 0 false]
        (.start c₀) = some t ∧
      t.session.convolver.process (fun _ n => if n = 0 then 1 else 0) silentBuffer =
        (c', .ok samples) ∧
      samples 0 0 = 0 ∧
      fadedConvolution (singleParameters 2) (t.documented 0) (fun n => if n = 0 then 1 else 0) 0 0 =
        1 / 2 := by
  obtain ⟨c₀, core₀, hcreate, hcore₀, hstored, t, hrun, core₁, core₂, hload₁, hload₂, hcore,
      hblocks, htable, hcurrent, hdocumented, hposition⟩ :
      ∃ c₀ core₀, create (singleParameters 2) [⟨0, 0, 0, 1⟩] (gainMatrix 1) = .ok c₀ ∧
        CoreConvolverUniform.create (singleParameters 2).core (gainMatrix 1) = .ok core₀ ∧
        c₀.coreConvolver = core₀ ∧
        ∃ t, exec (Tracked.step fun _ n => if n = 0 then 1 else 0)
            [.setImpulseResponse (gainResponse 0) 0 true,
              .setImpulseResponse (gainResponse 0) 0 false] (.start c₀) = some t ∧
          ∃ core₁ core₂, core₀.setImpulseResponse (gainResponse 0) 1 = .ok core₁ ∧
            core₁.setImpulseResponse (gainResponse 0) 0 = .ok core₂ ∧
            t.session.convolver.coreConvolver = core₂ ∧
          t.session.blocks = 0 ∧ t.session.convolver.routingTable.entries = [⟨0, 0, 0, 1⟩] ∧
          t.session.convolver.currentFilterOutput 0 = 0 ∧
          t.documented 0 = ⟨(c₀.responses 0).target, (gainResponse 0).coefficient, 0⟩ ∧
          t.session.convolver.currentRampBlock 0 = 0 :=
    ⟨_, _, rfl, rfl, rfl, _, rfl, _, _, rfl, rfl, rfl, rfl, rfl, rfl, rfl, rfl⟩
  -- both versions are zero, while the documented source is one
  have ht : t.session.Holds fun _ n => if n = 0 then (1 : ℝ) else 0 :=
    Tracked.session_holds (holds_create hcreate _) hrun
  have hrows := (CoreConvolverUniform.create_holds hcore₀ fun _ _ => (0 : ℝ)).1
  have hfilters := CoreConvolverUniform.setImpulseResponse_holds
    (CoreConvolverUniform.setImpulseResponse_holds hrows hload₁) hload₂
  have hzero := hfilters.represents 0
  have hone := hfilters.represents 1
  rw [Function.update_self] at hzero
  rw [Function.update_of_ne Nat.one_ne_zero, Function.update_self] at hone
  have hfade : RepresentsFade (singleParameters 2).core (t.session.convolver.fade 0)
      ⟨(gainResponse 0).coefficient, (gainResponse 0).coefficient, 0⟩ := by
    refine ⟨?_, ?_, hposition⟩
    · show (singleParameters 2).core.Represents
        (t.session.convolver.coreConvolver.filterPartitionsFrequencyDomain
          (fadeOutFilterIdx _ (t.session.convolver.currentFilterOutput 0) 0)) _
      rw [hcurrent, hcore]
      exact hone.congr fun k _ => (keeps_gainResponse 2 0).effective k
    · show (singleParameters 2).core.Represents
        (t.session.convolver.coreConvolver.filterPartitionsFrequencyDomain
          (fadeInFilterIdx _ (t.session.convolver.currentFilterOutput 0) 0)) _
      rw [hcurrent, hcore]
      exact hzero.congr fun k _ => (keeps_gainResponse 2 0).effective k
  have hinput : t.session.inputBlock (fun _ n => if n = 0 then (1 : ℝ) else 0) =
      fun _ n => if n = 0 then 1 else 0 := by
    funext ch k
    simp [Session.inputBlock, hblocks]
  have hvalid : ∀ e ∈ t.session.convolver.routingTable.entries,
      e.filterIdx < (singleParameters 2).maxNumFilters := by
    intro e he
    rw [htable, List.mem_singleton] at he
    subst he
    exact Nat.one_pos
  obtain ⟨c', samples, hprocess⟩ := process_returns ht.initialised ht.inputs (by decide)
    (fun h => absurd rfl h) hvalid (aligned_silentBuffer 2)
  have hsource : (c₀.responses 0).target 0 = 1 := by
    have hrow := (hrows.represents 0).responseOf (k := 0) Nat.one_pos
    show (singleParameters 2).core.responseOf (c₀.coreConvolver.filterPartitionsFrequencyDomain
      (fadeInFilterIdx _ (c₀.currentFilterOutput 0) 0)) 0 = 1
    rw [(create_spec hcreate).2.2.1 0, hstored]
    refine hrow.trans ?_
    show (1 : ℝ) * (if checkAlignment (0 + 0 * 1 + 0 / 1 * 1) (min 0 0) = true
      then (if 0 < 1 then 1 else 0) else 0) = 1
    simp [checkAlignment]
  refine ⟨c₀, t, c', samples, hcreate, hrun, hinput ▸ hprocess, ?_, ?_⟩
  · have hfades : ∀ e ∈ t.session.convolver.routingTable.entries,
        RepresentsFade (singleParameters 2).core (t.session.convolver.fade e.filterIdx)
          (Function.const ℕ ⟨(gainResponse 0).coefficient, (gainResponse 0).coefficient, 0⟩
            e.filterIdx) := by
      intro e he
      rw [htable, List.mem_singleton] at he
      subst he
      exact hfade
    rw [process_output ht.initialised ht.inputs (by decide) hfades (aligned_silentBuffer 2)
      hprocess Nat.one_pos Nat.one_pos, htable, MultichannelConvolverUniform.routingSum_cons,
      if_pos rfl, one_mul, hblocks]
    have hmix : fadedConvolution (singleParameters 2)
        ⟨(gainResponse 0).coefficient, (gainResponse 0).coefficient, 0⟩
        (fun n => if n = 0 then 1 else 0) (0 * 1) 0 = 0 :=
      (Fade.mix_of_eq rfl 0).trans ((convolution_single 2 _).trans (coefficient_gainResponse 0))
    refine (congrArg₂ (· + ·) hmix ?_).trans (add_zero 0)
    simp [MultichannelConvolverUniform.routingSum]
  · rw [hdocumented]
    show (1 - weight ℝ 2 (0 * 1 + 0)) * convolution (c₀.responses 0).target
      (singleParameters 2).core.capacity (fun n => if n = 0 then 1 else 0) 0 +
      weight ℝ 2 (0 * 1 + 0) * convolution (gainResponse 0).coefficient
        (singleParameters 2).core.capacity (fun n => if n = 0 then 1 else 0) 0 = 1 / 2
    have hweight : weight ℝ 2 (0 * 1 + 0) = 1 / 2 := by norm_num [weight]
    rw [convolution_single, convolution_single, hsource, hweight, coefficient_gainResponse]
    norm_num

/-! ### Initialising the filters -/

/-- The filter in a row of a matrix; those beyond its rows are silent. -/
def rowFilter (newFilters : BasicMatrix R) (f : ℕ) : ImpulseResponse R :=
  CoreConvolverUniform.rowResponses newFilters newFilters.numberOfRows f

/-- Initialising the filters takes effect for a filter: its first version is the current one
and no transition is in progress, or both versions are given the same coefficients. -/
def InitTakesEffect (c : CrossfadingConvolverUniform q) (newFilters : BasicMatrix R) (f : ℕ) :
    Prop :=
  q.core.Keeps (rowFilter newFilters f) ∧
    ((c.currentFilterOutput f = 0 ∧ (c.fade f).Settled q.transitionSamples q.core.blockLength) ∨
      (q.core.Keeps (rowFilter newFilters (f + q.maxNumFilters)) ∧
        (rowFilter newFilters (f + q.maxNumFilters)).coefficient =
          (rowFilter newFilters f).coefficient))

/-- Each audible filter has faded to its row of the matrix, or is fading from it to itself. -/
structure PlaysRows (newFilters : BasicMatrix R) (table : RoutingTable q.core)
    (c : CrossfadingConvolverUniform q) : Prop where
  routingTable : c.routingTable = table
  length_le : newFilters.numberOfColumns ≤ q.core.maxFilterLength
  fades : ∀ f, ∃ a, RepresentsFade q.core (c.fade f) a ∧
    ∀ e ∈ table.entries, e.filterIdx = f → e.gainLinear ≠ 0 →
      a.target = (rowFilter newFilters f).coefficient ∧
        (a.Settled q.transitionSamples q.core.blockLength ∨
          a.source = (rowFilter newFilters f).coefficient)

/-- The coefficients of a filter as they have arrived in the filter memory. -/
def arrived (q : CrossfadingParameters R C) (newFilters : BasicMatrix R) (f k : ℕ) : R :=
  q.core.fftRepresentation.forwardScalingFactor * q.core.effective (rowFilter newFilters f) k

theorem arrived_of_keeps {newFilters : BasicMatrix R} {f : ℕ}
    (h : q.core.Keeps (rowFilter newFilters f)) :
    arrived q newFilters f = (rowFilter newFilters f).coefficient :=
  funext h.effective

/-- The transition of a filter after all versions have been replaced. -/
theorem representsFade_initFilters {c : CrossfadingConvolverUniform q}
    {core : CoreConvolverUniform q.core} {newFilters : BasicMatrix R}
    (hfilters : core.HoldsFilters (rowFilter newFilters)) (f : ℕ) :
    RepresentsFade q.core (({ c with coreConvolver := core } :
        CrossfadingConvolverUniform q).fade f)
      ⟨arrived q newFilters (fadeOutFilterIdx q (c.currentFilterOutput f) f),
        arrived q newFilters (fadeInFilterIdx q (c.currentFilterOutput f) f),
        c.currentRampBlock f⟩ :=
  ⟨hfilters.represents _, hfilters.represents _, rfl⟩

theorem initFilters_playsRows {c c' : CrossfadingConvolverUniform q} {newFilters : BasicMatrix R}
    (h : c.initFilters newFilters = (c', .ok ()))
    (heffect : ∀ e ∈ c.routingTable.entries, e.gainLinear ≠ 0 →
      c.InitTakesEffect newFilters e.filterIdx) :
    PlaysRows newFilters c.routingTable c' := by
  obtain ⟨core, rfl, -, hfilters⟩ := initFilters_state h
  have hcolumns : newFilters.numberOfColumns ≤ q.core.maxFilterLength := by
    by_contra hlong
    unfold initFilters CoreConvolverUniform.initFilters at h
    simp only [gt_iff_lt, Nat.not_le.mp hlong, if_true] at h
    split at h
    next hok =>
      split at hok
      · cases hok
      · cases hok
    · cases h
  refine ⟨rfl, hcolumns, fun f => ⟨_, representsFade_initFilters hfilters f, ?_⟩⟩
  rintro e he rfl hgain
  obtain ⟨hkeeps, ⟨hcurrent, hsettled⟩ | ⟨hkeeps', hequal⟩⟩ := heffect e he hgain
  · -- the transition has ended with the first version
    refine ⟨?_, Or.inl hsettled⟩
    show arrived q newFilters (fadeInFilterIdx q _ _) = _
    rw [fadeInFilterIdx, if_pos hcurrent, arrived_of_keeps hkeeps]
  · -- both versions are the same
    have hsecond := (arrived_of_keeps hkeeps').trans hequal
    have hfirst := arrived_of_keeps hkeeps
    refine ⟨?_, Or.inr ?_⟩
    · show arrived q newFilters (fadeInFilterIdx q _ _) = _
      unfold fadeInFilterIdx
      split
      · exact hfirst
      · exact hsecond
    · show arrived q newFilters (fadeOutFilterIdx q _ _) = _
      unfold fadeOutFilterIdx
      split
      · exact hsecond
      · exact hfirst

theorem PlaysRows.process {newFilters : BasicMatrix R} {table : RoutingTable q.core}
    {signal : ℕ → ℕ → R} {s s' : Session q} (hs : s.Holds signal)
    (h : PlaysRows newFilters table s.convolver) {output : OutputBuffer R}
    (hstep : s.step signal (.process output) = some s') :
    PlaysRows newFilters table s'.convolver := by
  obtain ⟨result, hcall, hresult⟩ := Session.step_eq_some hstep
  -- a block only advances the transitions, also if an exception ends it
  by_cases hlength : 0 < q.core.maxFilterLength
  · simp only [Session.call] at hcall
    cases hprocess : s.convolver.process (s.inputBlock signal) output with
    | mk c outcome =>
      obtain ⟨-, -, htable, -, hfade⟩ := process_state hs.initialised hs.inputs hlength hprocess
      rw [hprocess] at hcall
      have hconvolver : s'.convolver = c := by
        cases outcome <;> cases hcall <;> rfl
      rw [hconvolver]
      refine ⟨htable.trans h.routingTable, h.length_le, fun f => ?_⟩
      obtain ⟨a, ha, haudible⟩ := h.fades f
      rw [hfade f]
      cases outcome with
      | error fault => exact ⟨a, ha, haudible⟩
      | ok samples =>
        refine ⟨a.advance (q.numRampBlocks - 1), ⟨ha.source, ha.target, ?_⟩, ?_⟩
        · show min ((s.convolver.fade f).position + 1) _ = min (a.position + 1) _
          rw [ha.position]
        · intro e he hf hgain
          obtain ⟨htarget, hend⟩ := haudible e he hf hgain
          exact ⟨htarget, hend.imp_left (Fade.settled_advance (settled_last q))⟩
  · simp only [Session.call, process_of_noPartitions hs.inputs hlength] at hcall
    cases hcall
    obtain ⟨e, he⟩ := hresult _ rfl
    cases he

/-- The rows of the matrix are what is heard. -/
theorem PlaysRows.output [CharZero R] {newFilters : BasicMatrix R} {table : RoutingTable q.core}
    {signal : ℕ → ℕ → R} {s : Session q} (hs : s.Holds signal)
    (h : PlaysRows newFilters table s.convolver) {output : OutputBuffer R}
    (haligned : OutputAligned q output) {c' : CrossfadingConvolverUniform q}
    {samples : ℕ → ℕ → R}
    (hprocess : s.convolver.process (s.inputBlock signal) output = (c', .ok samples)) {o k : ℕ}
    (ho : o < q.core.numberOfOutputs) (hk : k < q.core.blockLength) :
    samples o k = MultichannelConvolverUniform.routingSum table.entries o fun e =>
      convolution (rowFilter newFilters e.filterIdx).coefficient
        (rowFilter newFilters e.filterIdx).filterLength (signal e.inputIdx)
        (s.blocks * q.core.blockLength + k) := by
  have hlength : 0 < q.core.maxFilterLength := by
    by_contra hnone
    rw [process_of_noPartitions hs.inputs hnone] at hprocess
    cases hprocess
  choose fades hfades using h.fades
  rw [process_output hs.initialised hs.inputs hlength (fun e _ => (hfades e.filterIdx).1) haligned
    hprocess ho hk, h.routingTable]
  unfold MultichannelConvolverUniform.routingSum
  congr 1
  apply List.map_congr_left
  intro e he
  -- an entry without gain may still be in transition
  by_cases hgain : e.gainLinear = 0
  · rw [hgain, zero_mul, zero_mul]
  · obtain ⟨htarget, hend⟩ := (hfades e.filterIdx).2 e (List.mem_of_mem_filter he) rfl hgain
    have hmix : fadedConvolution q (fades e.filterIdx) (signal e.inputIdx)
        (s.blocks * q.core.blockLength) k =
        convolution (fades e.filterIdx).target q.core.capacity (signal e.inputIdx)
          (s.blocks * q.core.blockLength + k) := by
      rcases hend with hsettled | hsource
      · exact Fade.mix_of_settled hsettled _ k
      · exact Fade.mix_of_eq (by rw [hsource, htarget]) k
    -- the coefficients after the end of the row are zero
    have hcolumns : (rowFilter newFilters e.filterIdx).filterLength ≤ q.core.capacity := by
      refine Nat.le_trans ?_ q.core.maxFilterLength_le_capacity
      unfold rowFilter CoreConvolverUniform.rowResponses
      split
      · exact h.length_le
      · exact Nat.zero_le _
    congr 1
    dsimp only
    rw [hmix, htarget, convolution_of_le _ _ hcolumns
      fun j hj => (rowFilter newFilters e.filterIdx).coefficient_of_le hj]

/-- **An initialisation of the filters takes effect**, after any sequence of calls, if it
does so for each filter that is heard: from then on, every block is the sum of the direct
convolutions with the rows of the matrix, until something else is called. -/
theorem initFilters_takesEffect [CharZero R] {initialRoutings : List (RoutingEntry R)}
    {initialFilters : BasicMatrix R} {c₀ : CrossfadingConvolverUniform q}
    (hcreate : create q initialRoutings initialFilters = .ok c₀) (signal : ℕ → ℕ → R)
    {ops : List (Operation R C)} {s : Session q}
    (hrun : exec (Session.step signal) ops ⟨c₀, 0⟩ = some s) {newFilters : BasicMatrix R}
    {c₁ : CrossfadingConvolverUniform q}
    (hinit : s.convolver.initFilters newFilters = (c₁, .ok ()))
    (heffect : ∀ e ∈ s.convolver.routingTable.entries, e.gainLinear ≠ 0 →
      s.convolver.InitTakesEffect newFilters e.filterIdx)
    {outputs : List (OutputBuffer R)} {s' : Session q}
    (hlater : exec (Session.step signal) (outputs.map .process) ⟨c₁, s.blocks⟩ = some s')
    {output : OutputBuffer R} (haligned : OutputAligned q output)
    {c' : CrossfadingConvolverUniform q} {samples : ℕ → ℕ → R}
    (hprocess : s'.convolver.process (s'.inputBlock signal) output = (c', .ok samples)) {o k : ℕ}
    (ho : o < q.core.numberOfOutputs) (hk : k < q.core.blockLength) :
    samples o k = MultichannelConvolverUniform.routingSum s.convolver.routingTable.entries o
      fun e => convolution (rowFilter newFilters e.filterIdx).coefficient
        (rowFilter newFilters e.filterIdx).filterLength (signal e.inputIdx)
        (s'.blocks * q.core.blockLength + k) := by
  have hs : s.Holds signal := Session.holds_exec (holds_create hcreate signal) hrun
  have hstart : (⟨c₁, s.blocks⟩ : Session q).Holds signal := by
    have hstep : s.step signal (.initFilters newFilters) = some ⟨c₁, s.blocks⟩ :=
      Session.step_always (congrArg s.always hinit)
    exact hs.step hstep
  have hkind : ∀ op ∈ outputs.map (.process : OutputBuffer R → Operation R C),
      ∃ output, op = .process output := by
    intro op hop
    obtain ⟨output, -, rfl⟩ := List.mem_map.mp hop
    exact ⟨output, rfl⟩
  -- a block changes neither the rows nor the routings
  have hend := exec_invariant
    (I := fun s' : Session q => s'.Holds signal ∧
      PlaysRows newFilters s.convolver.routingTable s'.convolver)
    (fun op s₁ s₂ hop hI hstep => by
      obtain ⟨output, rfl⟩ := hop
      exact ⟨hI.1.step hstep, hI.2.process hI.1 hstep⟩)
    (throughout_of_forall hkind _) ⟨hstart, initFilters_playsRows hinit heffect⟩ hlater
  exact hend.2.output hend.1 haligned hprocess ho hk

theorem keeps_gainMatrix (transitionSamples f : ℕ) (gain : ℝ) :
    (singleParameters transitionSamples).core.Keeps (rowFilter (gainMatrix gain) f) := by
  intro k _
  refine ⟨rfl, ?_⟩
  show checkAlignment _ (min 0 _) = true
  rw [Nat.zero_min]
  rfl

/-- After two updates of the filter, the first version is the current one again. -/
theorem initFilters_takesEffect_twice :
    ∃ c₀ s c₁ c' samples, create (singleParameters 0) [⟨0, 0, 0, 1⟩] (gainMatrix 0) = .ok c₀ ∧
      exec (Session.step fun _ n => if n = 0 then 1 else 0)
        [.setImpulseResponse (gainResponse 0) 0 true, .setImpulseResponse (gainResponse 0) 0 true]
        ⟨c₀, 0⟩ = some s ∧
      s.convolver.initFilters (gainMatrix 1) = (c₁, .ok ()) ∧
      c₁.process (fun _ n => if n = 0 then 1 else 0) silentBuffer = (c', .ok samples) ∧
      samples 0 0 = 1 := by
  obtain ⟨c₀, hcreate, s, hrun, c₁, hinit, hblocks, htable, htable₁, hcurrent⟩ :
      ∃ c₀, create (singleParameters 0) [⟨0, 0, 0, 1⟩] (gainMatrix 0) = .ok c₀ ∧
        ∃ s, exec (Session.step fun _ n => if n = 0 then 1 else 0)
            [.setImpulseResponse (gainResponse 0) 0 true,
              .setImpulseResponse (gainResponse 0) 0 true] ⟨c₀, 0⟩ = some s ∧
          ∃ c₁, s.convolver.initFilters (gainMatrix 1) = (c₁, .ok ()) ∧
            s.blocks = 0 ∧ s.convolver.routingTable.entries = [⟨0, 0, 0, 1⟩] ∧
            c₁.routingTable.entries = [⟨0, 0, 0, 1⟩] ∧ s.convolver.currentFilterOutput 0 = 0 :=
    ⟨_, rfl, _, rfl, _, rfl, rfl, rfl, rfl, rfl⟩
  -- the version that `initFilters()` writes is the current one
  have heffect : ∀ e ∈ s.convolver.routingTable.entries, e.gainLinear ≠ 0 →
      s.convolver.InitTakesEffect (gainMatrix 1) e.filterIdx := by
    intro e he _
    rw [htable, List.mem_singleton] at he
    subst he
    exact ⟨keeps_gainMatrix 0 0 1, Or.inl ⟨hcurrent, Nat.zero_le _⟩⟩
  have hs : (⟨c₁, s.blocks⟩ : Session (singleParameters 0)).Holds
      fun _ n => if n = 0 then (1 : ℝ) else 0 := by
    have hbefore := Session.holds_exec (holds_create hcreate _) hrun
    have hstep : s.step (fun _ n => if n = 0 then (1 : ℝ) else 0) (.initFilters (gainMatrix 1)) =
        some ⟨c₁, s.blocks⟩ := Session.step_always (congrArg s.always hinit)
    exact hbefore.step hstep
  have hvalid : ∀ e ∈ c₁.routingTable.entries, e.filterIdx < (singleParameters 0).maxNumFilters := by
    intro e he
    rw [htable₁, List.mem_singleton] at he
    subst he
    exact Nat.one_pos
  obtain ⟨c', samples, hprocess⟩ := process_returns hs.initialised hs.inputs (by decide)
    (fun h => absurd rfl h) hvalid (aligned_silentBuffer 0)
  have hinput : (⟨c₁, s.blocks⟩ : Session (singleParameters 0)).inputBlock
      (fun _ n => if n = 0 then (1 : ℝ) else 0) = fun _ n => if n = 0 then 1 else 0 := by
    funext ch k
    simp [Session.inputBlock, hblocks]
  refine ⟨c₀, s, c₁, c', samples, hcreate, hrun, hinit, hinput ▸ hprocess, ?_⟩
  have hnone : exec (Session.step fun _ n => if n = 0 then (1 : ℝ) else 0)
      (([] : List (OutputBuffer ℝ)).map .process) ⟨c₁, s.blocks⟩ = some ⟨c₁, s.blocks⟩ := rfl
  rw [initFilters_takesEffect hcreate _ hrun hinit heffect hnone (aligned_silentBuffer 0) hprocess
    Nat.one_pos Nat.one_pos, htable, hblocks, MultichannelConvolverUniform.routingSum_cons,
    if_pos rfl, one_mul]
  have hconv : convolution (rowFilter (gainMatrix 1) 0).coefficient 1
      (fun n => if n = 0 then (1 : ℝ) else 0) (0 * 1 + 0) = 1 :=
    (convolution_impulse _ Nat.one_pos).trans (if_pos Nat.one_pos)
  refine (congrArg₂ (· + ·) hconv ?_).trans (add_zero 1)
  simp [MultichannelConvolverUniform.routingSum]

/-- After a single update, the second version is the current one, and stays silent. -/
theorem initFilters_silent :
    ∃ c₀ s c₁ c' samples, create (singleParameters 0) [⟨0, 0, 0, 1⟩] (gainMatrix 0) = .ok c₀ ∧
      exec (Session.step fun _ n => if n = 0 then 1 else 0)
        [.setImpulseResponse (gainResponse 0) 0 true] ⟨c₀, 0⟩ = some s ∧
      s.convolver.initFilters (gainMatrix 1) = (c₁, .ok ()) ∧
      c₁.process (fun _ n => if n = 0 then 1 else 0) silentBuffer = (c', .ok samples) ∧
      samples 0 0 = 0 ∧
      convolution (rowFilter (gainMatrix 1) 0).coefficient 1 (fun n => if n = 0 then 1 else 0) 0 =
        1 := by
  obtain ⟨c₀, hcreate, s, hrun, c₁, hinit, hblocks, htable₁, hcurrent⟩ :
      ∃ c₀, create (singleParameters 0) [⟨0, 0, 0, 1⟩] (gainMatrix 0) = .ok c₀ ∧
        ∃ s, exec (Session.step fun _ n => if n = 0 then 1 else 0)
            [.setImpulseResponse (gainResponse 0) 0 true] ⟨c₀, 0⟩ = some s ∧
          ∃ c₁, s.convolver.initFilters (gainMatrix 1) = (c₁, .ok ()) ∧
            s.blocks = 0 ∧ c₁.routingTable.entries = [⟨0, 0, 0, 1⟩] ∧
            s.convolver.currentFilterOutput 0 = 1 :=
    ⟨_, rfl, _, rfl, _, rfl, rfl, rfl, rfl⟩
  have hbefore := Session.holds_exec (holds_create hcreate _) hrun
  have hs : (⟨c₁, s.blocks⟩ : Session (singleParameters 0)).Holds
      fun _ n => if n = 0 then (1 : ℝ) else 0 := by
    have hstep : s.step (fun _ n => if n = 0 then (1 : ℝ) else 0) (.initFilters (gainMatrix 1)) =
        some ⟨c₁, s.blocks⟩ := Session.step_always (congrArg s.always hinit)
    exact hbefore.step hstep
  have hvalid : ∀ e ∈ c₁.routingTable.entries, e = ⟨0, 0, 0, 1⟩ := by
    intro e he
    rwa [htable₁, List.mem_singleton] at he
  obtain ⟨c', samples, hprocess⟩ := process_returns hs.initialised hs.inputs (by decide)
    (fun h => absurd rfl h) (fun e he => by rw [hvalid e he]; exact Nat.one_pos)
    (aligned_silentBuffer 0)
  have hinput : (⟨c₁, s.blocks⟩ : Session (singleParameters 0)).inputBlock
      (fun _ n => if n = 0 then (1 : ℝ) else 0) = fun _ n => if n = 0 then 1 else 0 := by
    funext ch k
    simp [Session.inputBlock, hblocks]
  refine ⟨c₀, s, c₁, c', samples, hcreate, hrun, hinit, hinput ▸ hprocess, ?_,
    (convolution_impulse _ Nat.one_pos).trans (if_pos Nat.one_pos)⟩
  obtain ⟨core, hcore, -, hfilters⟩ := initFilters_state hinit
  have hfades : ∀ e ∈ c₁.routingTable.entries,
      RepresentsFade (singleParameters 0).core (c₁.fade e.filterIdx)
        (Function.const ℕ ⟨arrived (singleParameters 0) (gainMatrix 1)
            (fadeOutFilterIdx (singleParameters 0) (s.convolver.currentFilterOutput 0) 0),
          arrived (singleParameters 0) (gainMatrix 1)
            (fadeInFilterIdx (singleParameters 0) (s.convolver.currentFilterOutput 0) 0),
          s.convolver.currentRampBlock 0⟩ e.filterIdx) := by
    intro e he
    rw [hvalid e he, hcore]
    exact representsFade_initFilters hfilters 0
  rw [process_output hs.initialised hs.inputs (by decide) hfades (aligned_silentBuffer 0)
    hprocess Nat.one_pos Nat.one_pos, htable₁, MultichannelConvolverUniform.routingSum_cons,
    if_pos rfl, one_mul, hblocks, hcurrent]
  have hmix : fadedConvolution (singleParameters 0)
      ⟨arrived (singleParameters 0) (gainMatrix 1) 0, arrived (singleParameters 0) (gainMatrix 1) 1,
        s.convolver.currentRampBlock 0⟩ (fun n => if n = 0 then 1 else 0) (0 * 1) 0 = 0 := by
    -- the transition is over, and the slot it leads to has not been written by `initFilters()`
    have hsettled : (⟨arrived (singleParameters 0) (gainMatrix 1) 0,
        arrived (singleParameters 0) (gainMatrix 1) 1,
        s.convolver.currentRampBlock 0⟩ : Fade (ℕ → ℝ)).Settled 0 1 := Nat.zero_le _
    refine (Fade.mix_of_settled hsettled _ 0).trans ((convolution_single 0 _).trans ?_)
    rw [arrived_of_keeps (keeps_gainMatrix 0 1 1)]
    exact ImpulseResponse.coefficient_none 0
  refine (congrArg₂ (· + ·) hmix ?_).trans (add_zero 0)
  simp [MultichannelConvolverUniform.routingSum]

end CrossfadingConvolverUniform

end Visr
