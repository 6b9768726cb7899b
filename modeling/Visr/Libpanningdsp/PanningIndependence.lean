import Visr.Libpanningdsp.PanningSlopes

/-!
# Independence of the objects

The gains of an object depend on the entries for this object only, unless there is an entry for
some object that is late: it leads to an exception, and none of the objects is processed.

## Main results

* `PanningGainMatrix.sameGains_of_admissible` — **the gains of an object depend on its entries.**
-/

namespace Visr

open WhileLoop

variable {K : Type} [Field K] {numObjs numLsp : ℕ}

/-- The loops agree on everything but the output signals. -/
structure SlopeLoop.SameSlope (s t : SlopeLoop K numLsp) : Prop where
  object : s.object = t.object
  currentTime : s.currentTime = t.currentTime
  bufferOffset : s.bufferOffset = t.bufferOffset

namespace SlopeLoop

theorem SameSlope.iterate {s t : SlopeLoop K numLsp} (h : SameSlope s t) (blockEndTime : ℕ)
    (input input' : ℕ → K) (accumulate accumulate' : Bool) :
    SameSlope (s.iterate blockEndTime input accumulate)
      (t.iterate blockEndTime input' accumulate') := by
  obtain ⟨object, currentTime, bufferOffset, output⟩ := s
  obtain ⟨object', currentTime', bufferOffset', output'⟩ := t
  obtain ⟨hobject, hcurrent, hoffset⟩ := h
  dsimp only at hobject hcurrent hoffset
  subst hobject hcurrent hoffset
  exact ⟨rfl, rfl, rfl⟩

omit [Field K] in
theorem SameSlope.continues {s t : SlopeLoop K numLsp} (h : SameSlope s t) (blockEndTime : ℕ) :
    s.continues blockEndTime = t.continues blockEndTime := by
  unfold SlopeLoop.continues
  rw [h.currentTime]

theorem gainAt_eq_of_same {blockEndTime : ℕ} {slopes slopes' : List (SlopeLoop K numLsp)}
    (h : List.Forall₂ SameSlope slopes slopes') (lspIdx : Fin numLsp) (k : ℕ) :
    gainAt blockEndTime slopes lspIdx k = gainAt blockEndTime slopes' lspIdx k := by
  induction h with
  | nil => rfl
  | @cons s t slopes slopes' hst _ ih =>
    have hcontains : containsSample blockEndTime k s = containsSample blockEndTime k t := by
      unfold containsSample duration
      rw [hst.object, hst.currentTime, hst.bufferOffset]
    by_cases hk : containsSample blockEndTime k s = true
    · have hgain : s.gain lspIdx (k - s.bufferOffset) = t.gain lspIdx (k - t.bufferOffset) := by
        unfold gain
        rw [hst.object, hst.currentTime, hst.bufferOffset]
      rw [gainAt, gainAt, List.find?_cons_of_pos hk, List.find?_cons_of_pos (hcontains ▸ hk)]
      exact hgain
    · rw [gainAt, gainAt, List.find?_cons_of_neg hk, List.find?_cons_of_neg (hcontains ▸ hk)]
      exact ih

end SlopeLoop

namespace PanningGainMatrix

/-- What a message makes of an object, if none of its entries is late. -/
theorem updateTransitions_object {time : ℕ} {newParams : PanningMatrixParameter K numObjs numLsp}
    {rest : List (Fin numObjs)} (hnodup : rest.Nodup)
    {objects objects' : Fin numObjs → ObjectState K numLsp}
    (h : updateTransitions time newParams rest objects = (objects', .ok ())) (i : Fin numObjs) :
    if i ∈ rest then (objects i).updateTransition time (newParams i) = .ok (objects' i)
    else objects' i = objects i := by
  induction rest generalizing objects with
  | nil =>
    cases h
    rw [if_neg List.not_mem_nil]
  | cons objIdx rest ih =>
    obtain ⟨hnotmem, hnodup⟩ := List.nodup_cons.mp hnodup
    rw [updateTransitions] at h
    split at h
    next obj hobj =>
      have hrest := ih hnodup h
      by_cases hi : i = objIdx
      · subst hi
        rw [if_neg hnotmem, Function.update_self] at hrest
        rw [if_pos List.mem_cons_self, hobj, hrest]
      · rw [Function.update_of_ne hi] at hrest
        simp only [List.mem_cons, hi, false_or]
        exact hrest
    next => cases h

/-- The slopes of an object, and what they make of it. -/
theorem processObjects_object {time period : ℕ} {input : Fin numObjs → ℕ → K}
    {rest : List (Fin numObjs)} (hnodup : rest.Nodup)
    {objects objects' : Fin numObjs → ObjectState K numLsp} {output output' : Fin numLsp → ℕ → K}
    {slopes : List (Fin numObjs × ObjectSlopes K numLsp)}
    (h : processObjects time period input rest objects output = some (slopes, objects', output'))
    (i : Fin numObjs) :
    if i ∈ rest then ∃ os start accumulate, slopes.find? (fun entry => entry.1 = i) = some (i, os) ∧
      objects' i = os.last.object ∧
      run (SlopeLoop.continues (TimeType.add time period))
          (SlopeLoop.iterate (TimeType.add time period) (input i) accumulate) period
          { object := objects i, currentTime := time, bufferOffset := 0, output := start } =
        some (os.slopes, os.last)
    else objects' i = objects i := by
  induction rest generalizing objects output slopes with
  | nil =>
    cases h
    rw [if_neg List.not_mem_nil]
  | cons objIdx rest ih =>
    obtain ⟨hnotmem, hnodup⟩ := List.nodup_cons.mp hnodup
    obtain ⟨⟨visited, last⟩, hrun, h⟩ := Option.bind_eq_some_iff.mp h
    obtain ⟨⟨slopes', objects'', output''⟩, hrest, heq⟩ := Option.map_eq_some_iff.mp h
    cases heq
    have hi' := ih hnodup hrest
    -- the objects differ, so the loop over the others leaves this one alone
    by_cases hi : i = objIdx
    · subst hi
      rw [if_neg hnotmem, Function.update_self] at hi'
      rw [if_pos List.mem_cons_self]
      refine ⟨⟨visited, last⟩, output, decide (i.val ≠ 0), ?_, hi', hrun⟩
      exact List.find?_cons_of_pos (decide_eq_true rfl)
    · rw [Function.update_of_ne hi] at hi'
      simp only [List.mem_cons, hi, false_or]
      split at hi'
      next hmem =>
        rw [if_pos hmem]
        obtain ⟨os, start, accumulate, hfind, hobject, hrun'⟩ := hi'
        refine ⟨os, start, accumulate, ?_, hobject, hrun'⟩
        rw [List.find?_cons_of_neg (by simpa using fun h => hi h.symm)]
        exact hfind
      next hmem =>
        rw [if_neg hmem]
        exact hi'

/-! ### Runs -/

/-- The entry for an object, if there is an active one. -/
def activeEntry (i : Fin numObjs) (block : Block K numObjs numLsp) :
    Option (PanningMatrixEntry K numLsp) :=
  block.message.bind fun message =>
    if (message i).timeStamp = cTimeStampInfinity then none else some (message i)

/-- The gain that is applied to a sample of an object in a block, if the block is processed. -/
def appliedGain (time period : ℕ) (i : Fin numObjs) (lspIdx : Fin numLsp) (k : ℕ) :
    Outcome K numObjs numLsp → Option K
  | .error _ => none
  | .ok none => none
  | .ok (some (slopes, _)) =>
    (slopes.find? fun entry => entry.1 = i).map fun entry =>
      gainAt (time + period) entry.2.slopes lspIdx k

/-- The entries for an object agree in all blocks. -/
def SameEntries (i : Fin numObjs) (blocks blocks' : List (Block K numObjs numLsp)) : Prop :=
  blocks.map (activeEntry i) = blocks'.map (activeEntry i)

/-- The gains of an object agree for all samples, from the block with the number `n` on. -/
def SameGains (period : ℕ) (i : Fin numObjs) :
    ℕ → List (Outcome K numObjs numLsp) → List (Outcome K numObjs numLsp) → Prop
  | _, [], [] => True
  | n, outcome :: outcomes, outcome' :: outcomes' =>
    (∀ lspIdx k, k < period → appliedGain (n * period) period i lspIdx k outcome =
      appliedGain (n * period) period i lspIdx k outcome') ∧
      SameGains period i (n + 1) outcomes outcomes'
  | _, _, _ => False

/-- What a message that is not late makes of an object. -/
theorem processParameters_object {time : ℕ} {s : PanningGainMatrix K numObjs numLsp}
    (h : AllOrdered s.objects time) (hchanged : s.changed = false)
    {block : Block K numObjs numLsp}
    (hblock : ∀ message, block.message = some message → ∀ i, (message i).Admissible time) :
    ∃ objects, (s.receive block.message).processParameters time =
        ({ s.receive block.message with objects := objects, changed := false }, .ok ()) ∧
      AllOrdered objects time ∧
      ∀ i, (match activeEntry i block with
        | none => .ok (s.objects i)
        | some entry => (s.objects i).updateTransition time entry) = Except.ok (objects i) := by
  unfold processParameters activeEntry
  cases hmessage : block.message with
  | none =>
    refine ⟨s.objects, ?_, h, fun i => rfl⟩
    rw [if_neg (by rw [show (s.receive none).changed = false from hchanged]; exact Bool.false_ne_true)]
    rw [← hchanged]
    rfl
  | some message =>
    obtain ⟨objects, hupdate, hordered⟩ :=
      updateTransitions_ordered (hblock message hmessage) (List.finRange numObjs) h
    refine ⟨objects, ?_, hordered, fun i => ?_⟩
    · rw [show s.receive (some message) = { s with gainInput := message, changed := true } from rfl]
      dsimp only
      rw [if_pos rfl, hupdate]
    · -- the loop updates each object once, with its own entry
      have hi := updateTransitions_object (List.nodup_finRange numObjs) hupdate i
      rw [if_pos (List.mem_finRange i)] at hi
      rw [Option.bind_some]
      by_cases hinf : (message i).timeStamp = cTimeStampInfinity
      · rw [if_pos hinf]
        rw [ObjectState.updateTransition, if_pos hinf] at hi
        exact hi
      · rw [if_neg hinf]
        exact hi

/-- What a block makes of an object, and the gains that are applied to it. -/
theorem process_object {time period : ℕ} (hend : time + period < cTimeStampInfinity)
    {s : PanningGainMatrix K numObjs numLsp} (h : AllOrdered s.objects time)
    (hchanged : s.changed = false) {block : Block K numObjs numLsp}
    (hblock : ∀ message, block.message = some message → ∀ i, (message i).Admissible time)
    (i : Fin numObjs) :
    ∃ (obj : ObjectState K numLsp) (os : ObjectSlopes K numLsp) (start : Fin numLsp → ℕ → K)
        (accumulate : Bool),
      (match activeEntry i block with
        | none => .ok (s.objects i)
        | some entry => (s.objects i).updateTransition time entry) = Except.ok obj ∧
      obj.Ordered time ∧
      run (SlopeLoop.continues (time + period))
          (SlopeLoop.iterate (time + period) (block.input i) accumulate) period
          { object := obj, currentTime := time, bufferOffset := 0, output := start } =
        some (os.slopes, os.last) ∧
      ((s.receive block.message).process time period block.input block.output).1.objects i =
        os.last.object ∧
      ∀ lspIdx k, appliedGain time period i lspIdx k
          ((s.receive block.message).process time period block.input block.output).2 =
        some (gainAt (time + period) os.slopes lspIdx k) := by
  obtain ⟨objects, hparameters, hordered, hobjects⟩ :=
    processParameters_object h hchanged hblock
  have hzero : numObjs ≠ 0 := fun h => (h ▸ i).elim0
  obtain ⟨slopes, objects', output', hprocess, -⟩ :=
    processObjects_spec hend block.input (List.finRange numObjs) (List.nodup_finRange numObjs)
      block.output fun i _ => hordered i
  -- no object but this one writes its slopes and its state
  have hi := processObjects_object (List.nodup_finRange numObjs) hprocess i
  rw [if_pos (List.mem_finRange i),
    TimeType.add_eq (by unfold cTimeStampInfinity at hend; omega)] at hi
  obtain ⟨os, start, accumulate, hfind, hobject, hrun⟩ := hi
  have hresult : (s.receive block.message).process time period block.input block.output =
      ({ s.receive block.message with objects := objects', changed := false },
        .ok (some (slopes, output'))) := by
    rw [process, hparameters]
    dsimp only
    rw [processAudio, if_neg hzero, hprocess]
  refine ⟨objects i, os, start, accumulate, hobjects i, hordered i, hrun, ?_, fun lspIdx k => ?_⟩
  · rw [hresult]
    exact hobject
  · rw [hresult, appliedGain, hfind]
    rfl

/-- The gains of an object agree in runs that agree on the object and its entries. -/
theorem sameGains_from {period : ℕ} (i : Fin numObjs)
    {blocks blocks' : List (Block K numObjs numLsp)} {n : ℕ}
    {s s' : PanningGainMatrix K numObjs numLsp} (h : AllOrdered s.objects (n * period))
    (h' : AllOrdered s'.objects (n * period)) (hchanged : s.changed = false)
    (hchanged' : s'.changed = false) (hobject : s.objects i = s'.objects i)
    (hblocks : AllAdmissible period n blocks) (hblocks' : AllAdmissible period n blocks')
    (hentries : SameEntries i blocks blocks')
    (hend : (n + blocks.length) * period < cTimeStampInfinity) :
    SameGains period i n (outcomes period n blocks s) (outcomes period n blocks' s') := by
  induction blocks generalizing n s s' blocks' with
  | nil =>
    cases List.map_eq_nil_iff.mp hentries.symm
    exact trivial
  | cons block blocks ih =>
    cases blocks' with
    | nil => cases hentries
    | cons block' blocks' =>
      obtain ⟨hentry, hrest⟩ := List.cons.inj hentries
      obtain ⟨hblock, hblocks⟩ := hblocks
      obtain ⟨hblock', hblocks'⟩ := hblocks'
      rw [List.length_cons, ← Nat.add_assoc, Nat.add_right_comm] at hend
      have hnext : (n + 1) * period ≤ (n + 1 + blocks.length) * period :=
        Nat.mul_le_mul_right _ (Nat.le_add_right _ _)
      have hsucc : n * period + period = (n + 1) * period := (Nat.succ_mul n period).symm
      have hblockEnd : n * period + period < cTimeStampInfinity := by omega
      have htime : n * period % 2 ^ 64 = n * period := by
        refine Nat.mod_eq_of_lt ?_
        unfold cTimeStampInfinity at hend
        omega
      obtain ⟨obj, os, start, accumulate, hobj, -, hrun, hafter, hgain⟩ :=
        process_object hblockEnd h hchanged hblock i
      obtain ⟨obj', os', start', accumulate', hobj', -, hrun', hafter', hgain'⟩ :=
        process_object hblockEnd h' hchanged' hblock' i
      have heq : obj = obj' := by
        rw [hentry, hobject, hobj'] at hobj
        exact (Except.ok.inj hobj).symm
      subst heq
      have hstart : SlopeLoop.SameSlope
          { object := obj, currentTime := n * period, bufferOffset := 0, output := start }
          { object := obj, currentTime := n * period, bufferOffset := 0, output := start' } :=
        ⟨rfl, rfl, rfl⟩
      -- the loops go through the same slopes, whatever the samples are
      obtain ⟨hslopes, hlast⟩ := run_simulation (fun s t hst => hst.continues (n * period + period))
        (fun s t hst => hst.iterate (n * period + period) (block.input i) (block'.input i)
          accumulate accumulate') hstart hrun hrun'
      -- both states are ready for the next block
      have hready := receive_ready h hchanged hblock
      have hready' := receive_ready h' hchanged' hblock'
      obtain ⟨-, hordered, hreset⟩ :=
        process_partitioned hblockEnd hready.1 hready.2 block.input block.output
      obtain ⟨-, hordered', hreset'⟩ :=
        process_partitioned hblockEnd hready'.1 hready'.2 block'.input block'.output
      rw [outcomes, outcomes, htime]
      rw [hsucc] at hordered hordered'
      refine ⟨fun lspIdx k _ => ?_, ih hordered hordered' hreset hreset' ?_ hblocks hblocks' hrest
        hend⟩
      · rw [hgain, hgain', SlopeLoop.gainAt_eq_of_same hslopes]
      · rw [hafter, hafter', hlast.object]

/-- **The gains of an object depend on the entries for it only**, in runs without late entries. -/
theorem sameGains_of_admissible (period : ℕ) (i : Fin numObjs)
    {s s' : PanningGainMatrix K numObjs numLsp} (h : Starts s) (h' : Starts s')
    (hobject : s.objects i = s'.objects i) {blocks blocks' : List (Block K numObjs numLsp)}
    (hblocks : AllAdmissible period 0 blocks) (hblocks' : AllAdmissible period 0 blocks')
    (hentries : SameEntries i blocks blocks')
    (hend : blocks.length * period < cTimeStampInfinity) :
    SameGains period i 0 (outcomes period 0 blocks s) (outcomes period 0 blocks' s') := by
  refine sameGains_from i ?_ ?_ h.ordered.2 h'.ordered.2 hobject hblocks hblocks' hentries ?_
  · rw [Nat.zero_mul]
    exact h.ordered.1
  · rw [Nat.zero_mul]
    exact h'.ordered.1
  · rw [Nat.zero_add]
    exact hend

/-! ### A late entry -/

/-- A block with a message about the second one of two objects, or none. -/
def secondObject (message : Option (PanningMatrixEntry ℚ 1)) : Block ℚ 2 1 where
  message := message.map fun entry i => if i.val = 1 then entry else
    { timeStamp := cTimeStampInfinity, transitionTime := 0, gains := fun _ => 0 }
  input _ _ := 1
  output _ _ := 0

/-- The gains of the first object are the same with and without a message about the second. -/
theorem sameGains_secondObject :
    SameGains 4 0 0 (outcomes 4 0 [secondObject none, secondObject none] (create fun _ _ => 1))
      (outcomes 4 0 [secondObject none, secondObject (some
        { timeStamp := 5, transitionTime := 2, gains := fun _ => 1 })] (create fun _ _ => 1)) := by
  refine sameGains_of_admissible 4 0 (.initialGains _) (.initialGains _) rfl ?_ ?_ rfl (by decide)
  · exact ⟨nofun, nofun, trivial⟩
  · refine ⟨nofun, ?_, trivial⟩
    rintro message ⟨⟩ i
    by_cases hi : i.val = 1
    · show PanningMatrixEntry.Admissible (if i.val = 1 then _ else _) _
      rw [if_pos hi]
      exact Or.inr ⟨(by decide : 1 * 4 ≤ 5), (by decide : 5 + 2 < cTimeStampInfinity)⟩
    · show PanningMatrixEntry.Admissible (if i.val = 1 then _ else _) _
      rw [if_neg hi]
      exact Or.inl rfl

/-- With a late entry for the second object, the first object is not processed either, in the
block of the message and in the one after it. -/
theorem not_sameGains_late :
    SameEntries 0 [secondObject none, secondObject none, secondObject none]
      [secondObject none, secondObject (some
        { timeStamp := 3, transitionTime := 2, gains := fun _ => 1 }), secondObject none] ∧
    (outcomes 4 0 [secondObject none, secondObject (some
        { timeStamp := 3, transitionTime := 2, gains := fun _ => 1 }), secondObject none]
        (create fun _ _ => 1)).tail =
      [.error (.runtimeError "Time stamp of gain change is in the past."),
        .error (.runtimeError "Time stamp of gain change is in the past.")] ∧
    ¬ SameGains 4 0 0
      (outcomes 4 0 [secondObject none, secondObject none, secondObject none]
        (create fun _ _ => 1))
      (outcomes 4 0 [secondObject none, secondObject (some
        { timeStamp := 3, transitionTime := 2, gains := fun _ => 1 }), secondObject none]
        (create fun _ _ => 1)) := by
  refine ⟨rfl, rfl, ?_⟩
  rintro ⟨-, hsecond, -⟩
  have hsample := hsecond 0 0 (by decide)
  cases hsample

end PanningGainMatrix

end Visr
