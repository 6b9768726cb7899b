import Mathlib.Data.Rat.Defs
import Mathlib.Algebra.Field.Rat
import Visr.Libpanningdsp.PanningGainMatrix

/-!
# The slopes of the panning gain matrix

In each block, the loop over the slopes of an object passes each sample once.

## Main results

* `SlopeLoop.slopes_spec` — **the slopes of an object partition the block.**
* `PanningGainMatrix.outcomes_partitioned` — **the same for all blocks of a run.**
-/

namespace Visr

open WhileLoop

variable {K : Type} [Field K] {numObjs numLsp : ℕ}

namespace SlopeLoop

/-- The assertions at the beginning of the body of the loop. -/
structure Asserted (s : SlopeLoop K numLsp) : Prop where
  previous_lt_target : s.object.previousTime < s.object.targetTime
  previous_le_current : s.object.previousTime ≤ s.currentTime
  current_lt_target : s.currentTime < s.object.targetTime
  current_lt_pending : s.currentTime < s.object.pending.timeStamp

/-- The sample belongs to the slope. -/
def containsSample (blockEndTime k : ℕ) (s : SlopeLoop K numLsp) : Bool :=
  s.bufferOffset ≤ k ∧ k < s.bufferOffset + s.duration blockEndTime

omit [Field K] in
theorem asserted_of_ordered {s : SlopeLoop K numLsp} (h : s.object.Ordered s.currentTime) :
    s.Asserted where
  previous_lt_target := h.previous_le.trans_lt h.lt_target
  previous_le_current := h.previous_le
  current_lt_target := h.lt_target
  current_lt_pending := h.lt_target.trans_le h.target_le

section Slopes

variable {time period : ℕ} (input : ℕ → K) (accumulate : Bool)
  (output : Fin numLsp → ℕ → K) {obj : ObjectState K numLsp}

/-- What holds at the beginning of each iteration in a block that begins at a time. -/
structure InBlock (time period : ℕ) (s : SlopeLoop K numLsp) : Prop where
  ordered : s.object.Ordered s.currentTime
  currentTime_le : s.currentTime ≤ time + period
  currentTime_eq : s.currentTime = time + s.bufferOffset

/-- One iteration. -/
theorem inBlock_iterate {s : SlopeLoop K numLsp} (h : InBlock time period s)
    (hend : time + period < cTimeStampInfinity) (hlt : s.currentTime < time + period) :
    InBlock time period (s.iterate (time + period) input accumulate) ∧
      s.currentTime < (s.iterate (time + period) input accumulate).currentTime := by
  obtain ⟨htime, hsum⟩ :=
    currentTime_iterate input accumulate h.ordered hend hlt
  have htarget := h.ordered.lt_target
  refine ⟨⟨ordered_iterate input accumulate h.ordered hend hlt, by omega, ?_⟩, by omega⟩
  have heq := h.currentTime_eq
  show (s.iterate (time + period) input accumulate).currentTime =
    time + (s.bufferOffset + s.duration (time + period))
  omega

/-- The number of samples that are left. -/
def remaining (time period : ℕ) (s : SlopeLoop K numLsp) : ℕ := time + period - s.currentTime

/-- **The slopes of an object partition the block.**  The loop terminates; at the beginning
of each iteration the assertions hold; and the object is ready for the next block. -/
theorem slopes_spec (h : obj.Ordered time) (hend : time + period < cTimeStampInfinity) :
    ∃ visited last, run (continues (time + period)) (iterate (time + period) input accumulate)
        period { object := obj, currentTime := time, bufferOffset := 0, output := output } =
          some (visited, last) ∧
      (∀ s ∈ visited, InBlock time period s ∧ s.currentTime < time + period) ∧
      last.object.Ordered (time + period) ∧ last.bufferOffset = period := by
  -- each slope has a sample at least, so less of the block remains
  have hbody : ∀ s : SlopeLoop K numLsp, InBlock time period s →
      continues (time + period) s = true →
      InBlock time period (s.iterate (time + period) input accumulate) ∧
        remaining time period (s.iterate (time + period) input accumulate) <
          remaining time period s := by
    intro s hs hcond
    have hlt : s.currentTime < time + period := of_decide_eq_true hcond
    obtain ⟨hin, hadvance⟩ := inBlock_iterate input accumulate hs hend hlt
    refine ⟨hin, ?_⟩
    unfold remaining
    omega
  have hstart : InBlock time period
      { object := obj, currentTime := time, bufferOffset := 0, output := output } :=
    ⟨h, Nat.le_add_right _ _, rfl⟩
  obtain ⟨visited, last, hrun, hvisited, hlast, hstop⟩ :=
    run_terminates hbody hstart (Nat.add_sub_cancel_left time period).le
  have hcurrent : last.currentTime = time + period := by
    have hle := hlast.currentTime_le
    have hnot : ¬ last.currentTime < time + period := of_decide_eq_false hstop
    omega
  refine ⟨visited, last, hrun, fun s hs => ?_, hcurrent ▸ hlast.ordered, ?_⟩
  · obtain ⟨hin, hcond⟩ := hvisited s hs
    exact ⟨hin, of_decide_eq_true hcond⟩
  · have heq := hlast.currentTime_eq
    omega

variable {input accumulate output}

/-- Each sample of the block belongs to one slope, and the slopes stay in the block. -/
theorem count_slopes (h : obj.Ordered time) (hend : time + period < cTimeStampInfinity)
    {visited : List (SlopeLoop K numLsp)} {last : SlopeLoop K numLsp}
    (hrun : run (continues (time + period)) (iterate (time + period) input accumulate) period
      { object := obj, currentTime := time, bufferOffset := 0, output := output } =
        some (visited, last)) :
    (∀ k, k < period → visited.countP (containsSample (time + period) k) = 1) ∧
      ∀ s ∈ visited, s.Asserted ∧ 0 < s.duration (time + period) ∧
        s.bufferOffset + s.duration (time + period) ≤ period := by
  obtain ⟨visited', last', hrun', hvisited, -, hlast⟩ :=
    slopes_spec input accumulate output h hend
  rw [hrun] at hrun'
  cases hrun'
  constructor
  · intro k hk
    have hcount := count_run bufferOffset hrun
      (fun t _ => Nat.le_add_right _ _) (k := k) ⟨Nat.zero_le k, by rw [hlast]; exact hk⟩
    rw [← hcount]
    rfl
  · intro s hs
    obtain ⟨hin, hlt⟩ := hvisited s hs
    obtain ⟨-, hpos⟩ := duration_eq hin.ordered hend hlt
    obtain ⟨-, hsum⟩ :=
      currentTime_iterate input accumulate hin.ordered hend hlt
    have heq := hin.currentTime_eq
    exact ⟨asserted_of_ordered hin.ordered, hpos, by omega⟩

end Slopes

end SlopeLoop

/-- The gain that is applied to a sample, from the slope it belongs to. -/
def gainAt (blockEndTime : ℕ) (slopes : List (SlopeLoop K numLsp)) (lspIdx : Fin numLsp) (k : ℕ) :
    K :=
  match slopes.find? (SlopeLoop.containsSample blockEndTime k) with
  | some s => s.gain lspIdx (k - s.bufferOffset)
  | none => 0

/-- What an iteration does to a sample. -/
theorem output_iterate (blockEndTime : ℕ) (input : ℕ → K) (accumulate : Bool)
    (s : SlopeLoop K numLsp) (lspIdx : Fin numLsp) (k : ℕ) :
    (s.iterate blockEndTime input accumulate).output lspIdx k =
      if SlopeLoop.containsSample blockEndTime k s then
        (if accumulate then s.output lspIdx k else 0) +
          s.gain lspIdx (k - s.bufferOffset) * input k
      else s.output lspIdx k := by
  unfold SlopeLoop.iterate SlopeLoop.processAudioSingleSlope overwrite SlopeLoop.containsSample
  dsimp only
  by_cases hk : s.bufferOffset ≤ k ∧ k < s.bufferOffset + s.duration blockEndTime
  · have hsum : s.bufferOffset + (k - s.bufferOffset) = k := by omega
    rw [if_pos hk, if_pos (decide_eq_true hk), hsum]
    cases accumulate with
    | true => rfl
    | false => exact (zero_add _).symm
  · rw [if_neg hk, if_neg (by simpa using hk)]

/-- The output signals after the loop over the slopes. -/
theorem output_run {blockEndTime n : ℕ} {input : ℕ → K} {accumulate : Bool}
    {s last : SlopeLoop K numLsp} {visited : List (SlopeLoop K numLsp)}
    (h : run (SlopeLoop.continues blockEndTime) (SlopeLoop.iterate blockEndTime input accumulate) n s =
      some (visited, last)) (lspIdx : Fin numLsp) (k : ℕ) :
    last.output lspIdx k =
      if (visited.find? (SlopeLoop.containsSample blockEndTime k)).isSome then
        (if accumulate then s.output lspIdx k else 0) +
          gainAt blockEndTime visited lspIdx k * input k
      else s.output lspIdx k := by
  have hall : (∀ t ∈ visited, s.bufferOffset ≤ t.bufferOffset) ∧ last.output lspIdx k =
      if (visited.find? (SlopeLoop.containsSample blockEndTime k)).isSome then
        (if accumulate then s.output lspIdx k else 0) +
          gainAt blockEndTime visited lspIdx k * input k
      else s.output lspIdx k := by
    refine run_induction (P := fun s visited last =>
      (∀ t ∈ visited, s.bufferOffset ≤ t.bufferOffset) ∧ last.output lspIdx k =
        if (visited.find? (SlopeLoop.containsSample blockEndTime k)).isSome then
          (if accumulate then s.output lspIdx k else 0) +
            gainAt blockEndTime visited lspIdx k * input k
        else s.output lspIdx k) ?_ ?_ h
    · exact fun s _ => ⟨List.forall_mem_nil _, rfl⟩
    · rintro s visited last - ⟨hoffset, houtput⟩
      refine ⟨List.forall_mem_cons.mpr ⟨Nat.le_refl _, fun t ht =>
        (Nat.le_add_right _ _).trans (hoffset t ht)⟩, ?_⟩
      rw [houtput, output_iterate]
      by_cases hk : SlopeLoop.containsSample blockEndTime k s = true
      · -- No other slope contains the sample.
        have hbounds : s.bufferOffset ≤ k ∧ k < s.bufferOffset + s.duration blockEndTime :=
          of_decide_eq_true hk
        have hnone : visited.find? (SlopeLoop.containsSample blockEndTime k) = none := by
          refine List.find?_eq_none.mpr fun t ht hcontains => ?_
          have htk : t.bufferOffset ≤ k ∧ k < t.bufferOffset + t.duration blockEndTime :=
            of_decide_eq_true hcontains
          have hle : s.bufferOffset + s.duration blockEndTime ≤ t.bufferOffset := hoffset t ht
          omega
        have hgain : gainAt blockEndTime (s :: visited) lspIdx k =
            s.gain lspIdx (k - s.bufferOffset) := by
          rw [gainAt, List.find?_cons_of_pos hk]
        rw [hnone, List.find?_cons_of_pos hk, hgain, if_pos hk]
        rfl
      · have hgain : gainAt blockEndTime (s :: visited) lspIdx k =
            gainAt blockEndTime visited lspIdx k := by
          rw [gainAt, gainAt, List.find?_cons_of_neg hk]
        rw [List.find?_cons_of_neg hk, hgain, if_neg hk]
  exact hall.2

/-! ### All objects -/

namespace PanningGainMatrix

/-- What is expected of a block: the call returns; the loop over the slopes of each object
meets its assertions, with slopes that have a positive length, stay in the block and contain
each sample once; and each sample of the output signals has the contributions of all objects. -/
def Partitioned (time period : ℕ) (input : Fin numObjs → ℕ → K) :
    Outcome K numObjs numLsp → Prop
  | .error _ => False
  | .ok none => False
  | .ok (some (slopes, output)) =>
    slopes.map Prod.fst = List.finRange numObjs ∧
    (∀ entry ∈ slopes, (∀ s ∈ entry.2.slopes, s.Asserted ∧ 0 < s.duration (time + period) ∧
        s.bufferOffset + s.duration (time + period) ≤ period) ∧
      ∀ k, k < period →
        entry.2.slopes.countP (SlopeLoop.containsSample (time + period) k) = 1) ∧
    ∀ lspIdx k, k < period → output lspIdx k = (slopes.map fun entry =>
      gainAt (time + period) entry.2.slopes lspIdx k * input entry.1 k).sum

/-- The times of all objects are ordered. -/
def AllOrdered (objects : Fin numObjs → ObjectState K numLsp) (time : ℕ) : Prop :=
  ∀ i, (objects i).Ordered time

/-- A message that is not late is accepted, and keeps the order. -/
theorem updateTransitions_ordered {time : ℕ} {newParams : PanningMatrixParameter K numObjs numLsp}
    (hparams : ∀ i, (newParams i).Admissible time) (rest : List (Fin numObjs))
    {objects : Fin numObjs → ObjectState K numLsp} (h : AllOrdered objects time) :
    ∃ objects', updateTransitions time newParams rest objects = (objects', .ok ()) ∧
      AllOrdered objects' time := by
  induction rest generalizing objects with
  | nil => exact ⟨objects, rfl, h⟩
  | cons objIdx rest ih =>
    obtain ⟨obj, hobj, hordered⟩ := (h objIdx).updateTransition (hparams objIdx)
    have hobjects : AllOrdered (Function.update objects objIdx obj) time := by
      intro i
      by_cases hi : i = objIdx
      · subst hi
        rw [Function.update_self]
        exact hordered
      · rw [Function.update_of_ne hi]
        exact h i
    obtain ⟨objects', hrest, hordered'⟩ := ih hobjects
    refine ⟨objects', ?_, hordered'⟩
    rw [updateTransitions, hobj]
    exact hrest

/-- The loop over some objects.  The first object of all does not accumulate. -/
theorem processObjects_spec {time period : ℕ} (hend : time + period < cTimeStampInfinity)
    (input : Fin numObjs → ℕ → K) (rest : List (Fin numObjs)) (hnodup : rest.Nodup)
    {objects : Fin numObjs → ObjectState K numLsp} (output : Fin numLsp → ℕ → K)
    (h : ∀ i ∈ rest, (objects i).Ordered time) :
    ∃ slopes objects' output', processObjects time period input rest objects output =
        some (slopes, objects', output') ∧
      (∀ i ∈ rest, (objects' i).Ordered (time + period)) ∧ (∀ i ∉ rest, objects' i = objects i) ∧
      slopes.map Prod.fst = rest ∧
      (∀ entry ∈ slopes, (∀ s ∈ entry.2.slopes, s.Asserted ∧ 0 < s.duration (time + period) ∧
          s.bufferOffset + s.duration (time + period) ≤ period) ∧
        ∀ k, k < period →
          entry.2.slopes.countP (SlopeLoop.containsSample (time + period) k) = 1) ∧
      ∀ lspIdx k, k < period → output' lspIdx k =
        slopes.foldl (fun sum entry => (if entry.1.val ≠ 0 then sum else 0) +
          gainAt (time + period) entry.2.slopes lspIdx k * input entry.1 k) (output lspIdx k) := by
  have hblockEnd : TimeType.add time period = time + period :=
    TimeType.add_eq (by unfold cTimeStampInfinity at hend; omega)
  induction rest generalizing objects output with
  | nil =>
    exact ⟨[], objects, output, rfl, List.forall_mem_nil _, fun _ _ => rfl, rfl,
      List.forall_mem_nil _, fun _ _ _ => rfl⟩
  | cons objIdx rest ih =>
    obtain ⟨hnotmem, hnodup⟩ := List.nodup_cons.mp hnodup
    obtain ⟨hobj, hrest⟩ := List.forall_mem_cons.mp h
    obtain ⟨visited, last, hrun, -, hordered, -⟩ :=
      SlopeLoop.slopes_spec (input objIdx) (decide (objIdx.val ≠ 0)) output hobj hend
    obtain ⟨hcount, hslopes⟩ := SlopeLoop.count_slopes hobj hend hrun
    have hkept : ∀ i ∈ rest, (Function.update objects objIdx last.object i).Ordered time := by
      intro i hi
      have hne : i ≠ objIdx := fun heq => hnotmem (heq ▸ hi)
      rw [Function.update_of_ne hne]
      exact hrest i hi
    obtain ⟨slopes, objects', output', hprocess, hordered', hother, hfst, hall, houtput⟩ :=
      ih hnodup last.output hkept
    refine ⟨(objIdx, ⟨visited, last⟩) :: slopes, objects', output', ?_, ?_, ?_, ?_, ?_, ?_⟩
    · rw [processObjects, hblockEnd]
      rw [hrun, Option.bind_some, hprocess]
      rfl
    · refine List.forall_mem_cons.mpr ⟨?_, hordered'⟩
      rw [hother objIdx hnotmem, Function.update_self]
      exact hordered
    · intro i hi
      rw [List.mem_cons, not_or] at hi
      rw [hother i hi.2, Function.update_of_ne hi.1]
    · rw [List.map_cons, hfst]
    · exact List.forall_mem_cons.mpr ⟨⟨hslopes, hcount⟩, hall⟩
    · intro lspIdx k hk
      -- exactly one slope of the object contains the sample, and this one has written it
      have hfound : (visited.find? (SlopeLoop.containsSample (time + period) k)).isSome = true := by
        rw [List.find?_isSome]
        have hpos : 0 < visited.countP (SlopeLoop.containsSample (time + period) k) := by
          rw [hcount k hk]
          exact Nat.one_pos
        exact List.countP_pos_iff.mp hpos
      rw [houtput lspIdx k hk, List.foldl_cons, output_run hrun lspIdx k, if_pos hfound]
      by_cases hzero : objIdx.val = 0
      · simp [hzero]
      · simp [hzero]

/-- The contributions of all objects. -/
theorem foldl_contributions {slopes : List (Fin numObjs × ObjectSlopes K numLsp)}
    (hfst : slopes.map Prod.fst = List.finRange numObjs) (hpos : numObjs ≠ 0)
    (contribution : Fin numObjs × ObjectSlopes K numLsp → K) (init : K) :
    slopes.foldl (fun sum entry => (if entry.1.val ≠ 0 then sum else 0) + contribution entry) init =
      (slopes.map contribution).sum := by
  -- after the first object, the contributions are accumulated
  have hacc : ∀ (rest : List (Fin numObjs × ObjectSlopes K numLsp)) (sum : K),
      (∀ entry ∈ rest, entry.1.val ≠ 0) →
      rest.foldl (fun sum entry => (if entry.1.val ≠ 0 then sum else 0) + contribution entry) sum =
        sum + (rest.map contribution).sum := by
    intro rest
    induction rest with
    | nil => exact fun sum _ => (add_zero sum).symm
    | cons entry rest ih =>
      intro sum hrest
      obtain ⟨hentry, hrest⟩ := List.forall_mem_cons.mp hrest
      rw [List.foldl_cons, if_pos hentry, ih _ hrest, List.map_cons, List.sum_cons, add_assoc]
  obtain ⟨n, rfl⟩ := Nat.exists_eq_succ_of_ne_zero hpos
  cases slopes with
  | nil =>
    rw [List.finRange_succ] at hfst
    cases hfst
  | cons first rest =>
    rw [List.finRange_succ, List.map_cons, List.cons.injEq] at hfst
    obtain ⟨hfirst, hrest⟩ := hfst
    have hnonzero : ∀ entry ∈ rest, entry.1.val ≠ 0 := by
      intro entry hentry
      have hmem : entry.1 ∈ rest.map Prod.fst := List.mem_map_of_mem hentry
      rw [hrest] at hmem
      obtain ⟨i, -, hi⟩ := List.mem_map.mp hmem
      rw [← hi]
      exact Nat.succ_ne_zero i.val
    have hzero : ¬ (0 : Fin n.succ).val ≠ 0 := not_not_intro rfl
    rw [List.foldl_cons, hacc rest _ hnonzero, hfirst, List.map_cons, List.sum_cons,
      if_neg hzero, zero_add]

/-- One block, with a message that is not late. -/
theorem process_partitioned {time period : ℕ} (hend : time + period < cTimeStampInfinity)
    {s : PanningGainMatrix K numObjs numLsp} (h : AllOrdered s.objects time)
    (hmessage : s.changed = true → ∀ i, (s.gainInput i).Admissible time)
    (input : Fin numObjs → ℕ → K) (output : Fin numLsp → ℕ → K) :
    Partitioned time period input (s.process time period input output).2 ∧
      AllOrdered (s.process time period input output).1.objects (time + period) ∧
      (s.process time period input output).1.changed = false := by
  obtain ⟨objects, hparameters, hordered⟩ : ∃ objects,
      s.processParameters time = ({ s with objects := objects, changed := false }, .ok ()) ∧
        AllOrdered objects time := by
    unfold processParameters
    cases hchanged : s.changed with
    | true =>
      obtain ⟨objects, hupdate, hordered⟩ :=
        updateTransitions_ordered (hmessage hchanged) (List.finRange numObjs) h
      refine ⟨objects, ?_, hordered⟩
      rw [if_pos rfl, hupdate]
    | false =>
      refine ⟨s.objects, ?_, h⟩
      rw [if_neg Bool.false_ne_true, ← hchanged]
  rw [process, hparameters]
  dsimp only
  -- without objects, the output is left as it is
  by_cases hzero : numObjs = 0
  · subst hzero
    rw [processAudio, if_pos rfl]
    exact ⟨⟨rfl, List.forall_mem_nil _, fun _ _ _ => rfl⟩, fun i => i.elim0, rfl⟩
  · obtain ⟨slopes, objects', output', hprocess, hordered', -, hfst, hall, houtput⟩ :=
      processObjects_spec hend input (List.finRange numObjs) (List.nodup_finRange numObjs)
        output fun i _ => hordered i
    rw [processAudio, if_neg hzero, hprocess]
    refine ⟨⟨hfst, hall, fun lspIdx k hk => ?_⟩, fun i => hordered' i (List.mem_finRange i), rfl⟩
    rw [houtput lspIdx k hk]
    exact foldl_contributions hfst hzero _ _

/-- The states after the constructors, the last of which demands entries that are not late. -/
inductive Starts : PanningGainMatrix K numObjs numLsp → Prop
  | initialGains (initialGains : Fin numObjs → Fin numLsp → K) : Starts (create initialGains)
  | initialTransitions (initialGains : Fin numObjs → Fin numLsp → K)
      (initialTransitions : PanningMatrixParameter K numObjs numLsp)
      (s : PanningGainMatrix K numObjs numLsp)
      (hentries : ∀ i, (initialTransitions i).Admissible 0)
      (hs : createTransitions initialGains initialTransitions = .ok s) : Starts s

theorem Starts.ordered {s : PanningGainMatrix K numObjs numLsp} (h : Starts s) :
    AllOrdered s.objects 0 ∧ s.changed = false := by
  cases h with
  | initialGains initialGains => exact ⟨fun i => ObjectState.ordered_create _, rfl⟩
  | initialTransitions initialGains initialTransitions _ hentries hs =>
    obtain ⟨objects, hupdate, hordered⟩ := updateTransitions_ordered hentries
      (List.finRange numObjs)
      (show AllOrdered (create initialGains).objects 0 from fun i => ObjectState.ordered_create _)
    rw [createTransitions, hupdate] at hs
    cases hs
    exact ⟨hordered, rfl⟩

/-- The entries of the messages of a run, from the block with the number `n` on, are not late. -/
def AllAdmissible (period : ℕ) : ℕ → List (Block K numObjs numLsp) → Prop
  | _, [] => True
  | n, block :: blocks =>
    (∀ message, block.message = some message → ∀ i, (message i).Admissible (n * period)) ∧
      AllAdmissible period (n + 1) blocks

/-- What is expected of all blocks of a run. -/
def AllPartitioned (period : ℕ) :
    ℕ → List (Block K numObjs numLsp) → List (Outcome K numObjs numLsp) → Prop
  | _, [], [] => True
  | n, block :: blocks, outcome :: outcomes =>
    Partitioned (n * period) period block.input outcome ∧
      AllPartitioned period (n + 1) blocks outcomes
  | _, _, _ => False

omit [Field K] in
/-- The arrival of a message that is not late. -/
theorem receive_ready {time : ℕ} {s : PanningGainMatrix K numObjs numLsp}
    (h : AllOrdered s.objects time) (hchanged : s.changed = false)
    {block : Block K numObjs numLsp}
    (hblock : ∀ message, block.message = some message → ∀ i, (message i).Admissible time) :
    AllOrdered (s.receive block.message).objects time ∧
      ((s.receive block.message).changed = true →
        ∀ i, ((s.receive block.message).gainInput i).Admissible time) := by
  cases hmessage : block.message with
  | none =>
    refine ⟨h, fun htrue => ?_⟩
    rw [show (s.receive none).changed = false from hchanged] at htrue
    cases htrue
  | some message => exact ⟨h, fun _ => hblock message hmessage⟩

/-- A run from any block on. -/
theorem outcomes_partitioned_from {period : ℕ} {blocks : List (Block K numObjs numLsp)} {n : ℕ}
    {s : PanningGainMatrix K numObjs numLsp} (h : AllOrdered s.objects (n * period))
    (hchanged : s.changed = false) (hblocks : AllAdmissible period n blocks)
    (hend : (n + blocks.length) * period < cTimeStampInfinity) :
    AllPartitioned period n blocks (outcomes period n blocks s) := by
  induction blocks generalizing n s with
  | nil => exact trivial
  | cons block blocks ih =>
    obtain ⟨hblock, hblocks⟩ := hblocks
    rw [List.length_cons, ← Nat.add_assoc, Nat.add_right_comm] at hend
    have hnext : (n + 1) * period ≤ (n + 1 + blocks.length) * period :=
      Nat.mul_le_mul_right _ (Nat.le_add_right _ _)
    have hsucc : n * period + period = (n + 1) * period := (Nat.succ_mul n period).symm
    have htime : n * period % 2 ^ 64 = n * period := by
      refine Nat.mod_eq_of_lt ?_
      unfold cTimeStampInfinity at hend
      omega
    have hreceive := receive_ready h hchanged hblock
    have hblockEnd : n * period + period < cTimeStampInfinity := by omega
    obtain ⟨hpartitioned, hordered, hreset⟩ :=
      process_partitioned hblockEnd hreceive.1 hreceive.2 block.input block.output
    rw [outcomes, htime]
    rw [hsucc] at hordered
    exact ⟨hpartitioned, ih hordered hreset hblocks hend⟩

/-- **The slopes partition all blocks of a run**, as long as the entries of the messages are not
late and all times are before the one that stands for infinity. -/
theorem outcomes_partitioned (period : ℕ) {s : PanningGainMatrix K numObjs numLsp} (h : Starts s)
    {blocks : List (Block K numObjs numLsp)} (hblocks : AllAdmissible period 0 blocks)
    (hend : blocks.length * period < cTimeStampInfinity) :
    AllPartitioned period 0 blocks (outcomes period 0 blocks s) := by
  refine outcomes_partitioned_from ?_ h.ordered.2 hblocks ?_
  · rw [Nat.zero_mul]
    exact h.ordered.1
  · rw [Nat.zero_add]
    exact hend

/-- One object and one loudspeaker, with a transition that starts in the first block and ends in
the second one. -/
def oneTransition : List (Block ℚ 1 1) := [
  { message := some fun _ => { timeStamp := 2, transitionTime := 3, gains := fun _ => 1 }
    input := fun _ _ => 1
    output := fun _ _ => 0 },
  { message := none, input := fun _ _ => 1, output := fun _ _ => 0 }]

theorem outcomes_partitioned_oneTransition :
    AllPartitioned 4 0 oneTransition (outcomes 4 0 oneTransition (create fun _ _ => 0)) := by
  refine outcomes_partitioned 4 (.initialGains _) ⟨?_, ?_, trivial⟩ (by decide)
  · rintro message ⟨⟩ i
    exact Or.inr ⟨(by decide : 0 * 4 ≤ 2), (by decide : 2 + 3 < cTimeStampInfinity)⟩
  · intro message hmessage
    cases hmessage

end PanningGainMatrix

end Visr
