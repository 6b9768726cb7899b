import Mathlib.Algebra.CharZero.Defs
import Mathlib.Data.Nat.Cast.Order.Basic
import Mathlib.Tactic.FieldSimp
import Mathlib.Tactic.Ring
import Visr.Libpanningdsp.PanningIndependence

/-!
# The gain trajectories of the panning gain matrix

The gains follow the documented trajectory, unless a message interrupts a transition.

## Main results

* `SlopeLoop.slope_follows` — a slope follows the plan.
* `PanningGainMatrix.outcomes_follow` — **runs in which no transition is interrupted follow
  the documented trajectory.**
-/

namespace Visr

open WhileLoop

variable {K : Type} [Field K] {numObjs numLsp : ℕ}

/-! ### The documented trajectory -/

/-- A transition between gains, between two times. -/
structure Trajectory (K : Type) (numLsp : ℕ) where
  previousTime : ℕ
  targetTime : ℕ
  previousGains : Fin numLsp → K
  targetGains : Fin numLsp → K

/-- The gain at a time: it is interpolated during the transition, and constant afterwards. -/
def Trajectory.value (tr : Trajectory K numLsp) (t : ℕ) (lspIdx : Fin numLsp) : K :=
  if tr.targetTime ≤ t then tr.targetGains lspIdx
  else tr.previousGains lspIdx +
    ((t : K) - tr.previousTime) / ((tr.targetTime : K) - tr.previousTime) *
      (tr.targetGains lspIdx - tr.previousGains lspIdx)

/-- The transition in force, and the stored one. -/
structure Plan (K : Type) (numLsp : ℕ) where
  current : Trajectory K numLsp
  stored : Option (PanningMatrixEntry K numLsp)

namespace Plan

/-- Constant gains. -/
def create (initialGains : Fin numLsp → K) : Plan K numLsp where
  current := {
    previousTime := 0
    targetTime := 0
    previousGains := initialGains
    targetGains := initialGains }
  stored := none

/-- An entry of a message overwrites the stored transition. -/
def receive (plan : Plan K numLsp) (entry : Option (PanningMatrixEntry K numLsp)) :
    Plan K numLsp :=
  { plan with stored := entry.or plan.stored }

/-- The transition that starts at a time from the value of another one at this time. -/
def start (current : Trajectory K numLsp) (t : ℕ) (entry : PanningMatrixEntry K numLsp) :
    Trajectory K numLsp where
  previousTime := t
  targetTime := t + entry.transitionTime
  previousGains := current.value t
  targetGains := entry.gains

/-- The stored transition comes into force at its start time. -/
def advance (plan : Plan K numLsp) (t : ℕ) : Plan K numLsp :=
  match plan.stored with
  | none => plan
  | some entry =>
    if entry.timeStamp = t then { current := start plan.current t entry, stored := none } else plan

/-- The plan after some samples. -/
def steps (t : ℕ) : ℕ → Plan K numLsp → Plan K numLsp
  | 0, plan => plan
  | n + 1, plan => (steps t n plan).advance (t + n + 1)

theorem steps_add (t a b : ℕ) (plan : Plan K numLsp) :
    plan.steps t (a + b) = (plan.steps t a).steps (t + a) b := by
  induction b with
  | zero => rfl
  | succ b ih =>
    show (plan.steps t (a + b)).advance (t + (a + b) + 1) = _
    rw [ih, ← Nat.add_assoc]
    rfl

/-- Nothing is stored that starts before a time. -/
def QuietBefore (plan : Plan K numLsp) (t : ℕ) : Prop :=
  ∀ entry, plan.stored = some entry → t ≤ entry.timeStamp

theorem QuietBefore.advance {plan : Plan K numLsp} {t : ℕ} (h : plan.QuietBefore t) {u : ℕ}
    (hu : u < t) : plan.advance u = plan := by
  unfold Plan.advance
  cases hstored : plan.stored with
  | none => rfl
  | some entry =>
    have hle := h entry hstored
    exact if_neg (by omega)

theorem QuietBefore.steps {plan : Plan K numLsp} {t : ℕ} (h : plan.QuietBefore t) {u n : ℕ}
    (hu : u + n < t) : plan.steps u n = plan := by
  induction n with
  | zero => rfl
  | succ n ih =>
    rw [Plan.steps, ih (by omega)]
    exact h.advance hu

end Plan

/-! ### The state of an object -/

namespace ObjectState

/-- The gain that the object is going to have at a time, if nothing is stored. -/
def value (obj : ObjectState K numLsp) (t : ℕ) (lspIdx : Fin numLsp) : K :=
  if obj.targetTime ≤ t then obj.targetGains lspIdx
  else if obj.targetTime = cTimeStampInfinity then obj.previousGains lspIdx
  else obj.previousGains lspIdx +
    ((t : K) - obj.previousTime) / ((obj.targetTime : K) - obj.previousTime) *
      (obj.targetGains lspIdx - obj.previousGains lspIdx)

/-- The object is going to do what the plan says, from a time on. -/
structure Follows (obj : ObjectState K numLsp) (plan : Plan K numLsp) (t : ℕ) : Prop where
  stored : plan.stored =
    if obj.pending.timeStamp = cTimeStampInfinity then none else some obj.pending
  value : ∀ u, t ≤ u → ∀ lspIdx, plan.current.value u lspIdx = obj.value u lspIdx
  constant : obj.targetTime = cTimeStampInfinity → obj.previousGains = obj.targetGains

theorem Follows.mono {obj : ObjectState K numLsp} {plan : Plan K numLsp} {t u : ℕ}
    (h : obj.Follows plan t) (htu : t ≤ u) : obj.Follows plan u :=
  ⟨h.stored, fun v hv => h.value v (htu.trans hv), h.constant⟩

theorem Follows.quietBefore {obj : ObjectState K numLsp} {plan : Plan K numLsp} {t u : ℕ}
    (h : obj.Follows plan t) (hordered : obj.Ordered u) : plan.QuietBefore obj.targetTime := by
  intro entry hentry
  rw [h.stored] at hentry
  split at hentry
  · cases hentry
  · cases hentry
    exact hordered.target_le

/-- An entry does not interrupt a transition: it does not start before its end, or the gains
do not change, or it starts at once and either from the beginning of the transition or without
a gain in between. -/
def Undisturbed (obj : ObjectState K numLsp) (time : ℕ) (entry : PanningMatrixEntry K numLsp) :
    Prop :=
  obj.targetTime ≤ entry.timeStamp ∨ obj.previousGains = obj.targetGains ∨
    entry.timeStamp = time ∧ (entry.transitionTime ≤ 1 ∨ obj.previousTime = time)

theorem follows_create (initialGains : Fin numLsp → K) :
    (create initialGains).Follows (.create initialGains) 0 := by
  refine ⟨rfl, fun u _ lspIdx => ?_, fun _ => rfl⟩
  have hconstant : (create initialGains).value u lspIdx = initialGains lspIdx := by
    show (if cTimeStampInfinity ≤ u then initialGains lspIdx
      else if cTimeStampInfinity = cTimeStampInfinity then initialGains lspIdx else _) = _
    rw [if_pos rfl, ite_self]
  rw [hconstant]
  exact if_pos (Nat.zero_le u)

/-- The value of a state with constant gains. -/
theorem value_of_constant {obj : ObjectState K numLsp} (h : obj.previousGains = obj.targetGains)
    (t : ℕ) (lspIdx : Fin numLsp) : obj.value t lspIdx = obj.targetGains lspIdx := by
  unfold ObjectState.value
  rw [h, sub_self, mul_zero, add_zero, ite_self, ite_self]

/-- **The end of a transition** is the time at which the stored one may come into force. -/
theorem Follows.reachTarget {obj : ObjectState K numLsp} {plan : Plan K numLsp} {t : ℕ}
    (h : obj.Follows plan obj.targetTime) (hordered : obj.Ordered t)
    (hfinite : obj.targetTime < cTimeStampInfinity) :
    (obj.reachTarget obj.targetTime).Follows (plan.advance obj.targetTime) obj.targetTime := by
  -- the old transition stays at its target gains
  have hvalue : ∀ u, obj.targetTime ≤ u → ∀ lspIdx,
      plan.current.value u lspIdx = obj.targetGains lspIdx := by
    intro u hu lspIdx
    exact (h.value u hu lspIdx).trans (if_pos hu)
  unfold ObjectState.reachTarget
  by_cases hstart : obj.pending.timeStamp = obj.targetTime
  · have hend := hordered.pending_end (by omega)
    have hstored : plan.stored = some obj.pending := by
      rw [h.stored, if_neg (by omega)]
    have hadvance : plan.advance obj.targetTime =
        { current := Plan.start plan.current obj.targetTime obj.pending, stored := none } := by
      unfold Plan.advance
      rw [hstored]
      exact if_pos hstart
    rw [if_pos hstart, hadvance]
    by_cases hzero : obj.pending.transitionTime = 0
    · rw [if_pos hzero]
      refine ⟨(if_pos rfl).symm, fun u hu lspIdx => ?_, fun _ => rfl⟩
      rw [value_of_constant rfl]
      exact if_pos (by show obj.targetTime + obj.pending.transitionTime ≤ u; omega)
    · rw [if_neg hzero]
      have hadd : TimeType.add obj.targetTime obj.pending.transitionTime =
          obj.targetTime + obj.pending.transitionTime :=
        TimeType.add_eq (by unfold cTimeStampInfinity at hend; omega)
      refine ⟨(if_pos rfl).symm, fun u hu lspIdx => ?_, fun htarget => ?_⟩
      · have hfinite' : obj.targetTime + obj.pending.transitionTime ≠ cTimeStampInfinity := by omega
        unfold ObjectState.value Trajectory.value Plan.start
        dsimp only
        rw [hadd, hvalue obj.targetTime (Nat.le_refl _), if_neg hfinite']
      · rw [show TimeType.add obj.targetTime obj.pending.transitionTime = cTimeStampInfinity
          from htarget] at hadd
        omega
  · rw [if_neg hstart]
    -- the stored entry is not due yet, or there is none
    have hadvance : plan.advance obj.targetTime = plan := by
      unfold Plan.advance
      rw [h.stored]
      by_cases hinf : obj.pending.timeStamp = cTimeStampInfinity
      · rw [if_pos hinf]
      · rw [if_neg hinf]
        exact if_neg hstart
    rw [hadvance]
    refine ⟨h.stored, fun u hu lspIdx => ?_, fun _ => rfl⟩
    rw [value_of_constant rfl]
    exact hvalue u hu lspIdx

/-- A transition that starts at once begins with the previous gains of the old one: these are not
interpolated, as the ratio is computed after the previous time has been set. -/
theorem startTransition_eq {obj : ObjectState K numLsp} {t duration : ℕ}
    (hzero : duration ≠ 0) (hend : t + duration < cTimeStampInfinity) (gains : Fin numLsp → K) :
    obj.startTransition t duration gains = { obj with
      previousTime := t
      targetTime := t + duration
      targetGains := gains } := by
  have hadd : TimeType.add t duration = t + duration :=
    TimeType.add_eq (by unfold cTimeStampInfinity at hend; omega)
  -- the previous time is the current one already
  have hratio : interpolationRatio (K := K) t t obj.targetTime = 0 := by
    unfold interpolationRatio
    split
    · rfl
    · have hsub : TimeType.sub t t = 0 := by
        rw [TimeType.sub_eq (Nat.le_refl t) (by unfold cTimeStampInfinity at hend; omega),
          Nat.sub_self]
      rw [hsub, Nat.cast_zero, zero_div]
  have hprevious : obj.interpolate 0 = obj.previousGains := by
    funext lspIdx
    rw [interpolate]
    ring
  unfold startTransition
  dsimp only
  rw [if_neg hzero, hadd, hratio]
  exact congrArg (fun previousGains => { obj with
    previousTime := t
    targetTime := t + duration
    previousGains := previousGains
    targetGains := gains }) hprevious

/-- A transition between equal gains may be cut. -/
theorem cutTransition_of_constant {obj : ObjectState K numLsp}
    (h : obj.previousGains = obj.targetGains) {currentTime startTime : ℕ}
    (hcut : startTime < obj.targetTime) :
    obj.cutTransition currentTime startTime = { obj with targetTime := startTime } := by
  have hinterpolate : ∀ alpha, obj.interpolate alpha = obj.targetGains := by
    intro alpha
    funext lspIdx
    rw [interpolate, h]
    ring
  rw [cutTransition, if_pos hcut]
  dsimp only
  rw [hinterpolate]

/-- The transition of an entry for the current time starts at once. -/
theorem Follows.start {obj : ObjectState K numLsp} {plan : Plan K numLsp} {t u : ℕ}
    {entry : PanningMatrixEntry K numLsp} (h : obj.Follows plan t) (hcurrent : t < obj.targetTime)
    (htu : t ≤ u) (hend : t + entry.transitionTime < cTimeStampInfinity)
    (hundisturbed : obj.previousGains = obj.targetGains ∨ t + entry.transitionTime ≤ u ∨
      obj.previousTime = t) :
    ((obj.startTransition t entry.transitionTime entry.gains).clearPending).Follows
      { current := Plan.start plan.current t entry, stored := none } u := by
  by_cases hzero : entry.transitionTime = 0
  · rw [startTransition, if_pos hzero]
    refine ⟨(if_pos rfl).symm, fun v hv lspIdx => ?_, fun _ => rfl⟩
    rw [value_of_constant rfl]
    exact if_pos (by show t + entry.transitionTime ≤ v; omega)
  · have hfinite : t + entry.transitionTime ≠ cTimeStampInfinity := by omega
    rw [startTransition_eq hzero (by omega)]
    refine ⟨(if_pos rfl).symm, fun v hv lspIdx => ?_, fun htarget => absurd htarget hfinite⟩
    unfold clearPending ObjectState.value Trajectory.value Plan.start
    dsimp only
    by_cases hdone : t + entry.transitionTime ≤ v
    · rw [if_pos hdone, if_pos hdone]
    · -- the new transition starts with the previous gains, which the plan has to have reached
      have hvalue : plan.current.value t lspIdx = obj.previousGains lspIdx := by
        rw [h.value t (Nat.le_refl t)]
        rcases hundisturbed with hgains | hdone' | hstart
        · rw [value_of_constant hgains, hgains]
        · omega
        · unfold ObjectState.value
          rw [if_neg (by omega), hstart, sub_self, zero_div, zero_mul, add_zero, ite_self]
      rw [if_neg hdone, if_neg hdone, if_neg hfinite, hvalue]

/-- An entry for a later time is stored, and the transition in force ends when it starts. -/
theorem Follows.store {obj : ObjectState K numLsp} {plan : Plan K numLsp} {t u : ℕ}
    {entry : PanningMatrixEntry K numLsp} (h : obj.Follows plan t) (htu : t ≤ u)
    (hactive : entry.timeStamp ≠ cTimeStampInfinity)
    (hundisturbed : obj.targetTime ≤ entry.timeStamp ∨ obj.previousGains = obj.targetGains) :
    ({ obj.cutTransition t entry.timeStamp with pending := entry }).Follows
      (plan.receive (some entry)) u := by
  refine ⟨(if_neg hactive).symm, ?_, ?_⟩
  · intro v hv lspIdx
    show plan.current.value v lspIdx = _
    rw [h.value v (htu.trans hv)]
    by_cases hcut : entry.timeStamp < obj.targetTime
    · have hgains := hundisturbed.resolve_left (Nat.not_le.mpr hcut)
      rw [cutTransition_of_constant hgains hcut, value_of_constant hgains]
      have hcutGains : ∀ cut : ObjectState K numLsp, cut.previousGains = obj.previousGains →
          cut.targetGains = obj.targetGains → obj.targetGains lspIdx = cut.value v lspIdx := by
        intro cut hprevious htarget
        rw [value_of_constant (hprevious.trans (hgains.trans htarget.symm)), htarget]
      exact hcutGains _ rfl rfl
    · rw [cutTransition, if_neg hcut]
      rfl
  · unfold cutTransition
    by_cases hcut : entry.timeStamp < obj.targetTime
    · rw [if_pos hcut]
      intro htarget
      exact absurd htarget hactive
    · rw [if_neg hcut]
      exact h.constant

/-- **An entry that does not interrupt a transition** is received as documented. -/
theorem Follows.receive {obj obj' : ObjectState K numLsp} {plan : Plan K numLsp} {t u : ℕ}
    {entry : PanningMatrixEntry K numLsp} (h : obj.Follows plan t) (hordered : obj.Ordered t)
    (htu : t ≤ u) (hentry : entry.Admissible t) (hactive : entry.timeStamp ≠ cTimeStampInfinity)
    (hundisturbed : obj.targetTime ≤ entry.timeStamp ∨ obj.previousGains = obj.targetGains ∨
      entry.timeStamp = t ∧ (t + entry.transitionTime ≤ u ∨ obj.previousTime = t))
    (hobj : obj.updateTransition t entry = .ok obj') :
    obj'.Follows ((plan.receive (some entry)).advance t) u := by
  obtain ⟨hle, hend⟩ := hentry.resolve_left hactive
  have hcurrent := hordered.lt_target
  rw [updateTransition, if_neg hactive, if_neg (by omega)] at hobj
  -- an entry for the current time is not stored, as the plan starts it at once
  by_cases hnow : entry.timeStamp = t
  · rw [if_pos hnow] at hobj
    cases hobj
    have hadvance : (plan.receive (some entry)).advance t =
        { current := Plan.start plan.current t entry, stored := none } := if_pos hnow
    rw [hadvance]
    refine h.start hcurrent htu (by omega) ?_
    rcases hundisturbed with htarget | hgains | ⟨-, hstart⟩
    · omega
    · exact Or.inl hgains
    · exact Or.inr hstart
  · rw [if_neg hnow] at hobj
    cases hobj
    have hadvance : (plan.receive (some entry)).advance t = plan.receive (some entry) :=
      if_neg hnow
    rw [hadvance]
    refine h.store htu hactive ?_
    rcases hundisturbed with htarget | hgains | ⟨hnow', -⟩
    · exact Or.inl htarget
    · exact Or.inr hgains
    · exact absurd hnow' hnow

end ObjectState

/-! ### The slopes of a block -/

namespace SlopeLoop

variable {time period : ℕ} (input : ℕ → K) (accumulate : Bool)

/-- The gain of a sample of a slope is the value of the transition at the next sample. -/
theorem gain_eq_value [CharZero K] {s : SlopeLoop K numLsp} (h : s.object.Ordered s.currentTime)
    (hconstant : s.object.targetTime = cTimeStampInfinity →
      s.object.previousGains = s.object.targetGains)
    {k : ℕ} (hk : s.currentTime + k + 1 ≤ s.object.targetTime) (lspIdx : Fin numLsp) :
    s.gain lspIdx k = s.object.value (s.currentTime + k + 1) lspIdx := by
  have hprevious := h.previous_le
  have hcurrent := h.lt_target
  have hinf := h.target_le.trans h.pending_le
  by_cases htarget : s.object.targetTime = cTimeStampInfinity
  · rw [ObjectState.value_of_constant (hconstant htarget)]
    unfold gain
    dsimp only
    rw [hconstant htarget, sub_self]
    ring
  · -- no subtraction wraps around
    have hstart : TimeType.sub s.currentTime s.object.previousTime =
        s.currentTime - s.object.previousTime :=
      TimeType.sub_eq hprevious (by unfold cTimeStampInfinity at hinf; omega)
    have hlength : TimeType.sub s.object.targetTime s.object.previousTime =
        s.object.targetTime - s.object.previousTime :=
      TimeType.sub_eq (by omega) (by unfold cTimeStampInfinity at hinf; omega)
    have hne : (s.object.targetTime : K) - s.object.previousTime ≠ 0 := by
      refine sub_ne_zero.mpr fun heq => ?_
      have := Nat.cast_injective heq
      omega
    have hgain : s.gain lspIdx k = s.object.previousGains lspIdx +
        (((s.currentTime + k + 1 : ℕ) : K) - s.object.previousTime) /
          ((s.object.targetTime : K) - s.object.previousTime) *
          (s.object.targetGains lspIdx - s.object.previousGains lspIdx) := by
      unfold gain interpolationRatio gainIncRatio
      dsimp only
      rw [if_neg htarget, if_neg htarget, hstart, hlength, Nat.cast_sub hprevious,
        Nat.cast_sub (by omega : s.object.previousTime ≤ s.object.targetTime)]
      push_cast
      field_simp
      ring
    rw [hgain]
    unfold ObjectState.value
    by_cases hdone : s.object.targetTime ≤ s.currentTime + k + 1
    · -- the last sample of the transition has the target gain in both forms
      have heq : s.currentTime + k + 1 = s.object.targetTime := by omega
      rw [if_pos hdone, heq, div_self hne]
      ring
    · rw [if_neg hdone, if_neg htarget]

/-- **A slope follows the plan**, and so does the object at its end. -/
theorem slope_follows [CharZero K] {s : SlopeLoop K numLsp} {plan : Plan K numLsp}
    (hin : InBlock time period s) (hend : time + period < cTimeStampInfinity)
    (hlt : s.currentTime < time + period) (h : s.object.Follows plan (s.currentTime + 1)) :
    (∀ lspIdx k, k < s.duration (time + period) → s.gain lspIdx k =
        (plan.steps s.currentTime k).current.value (s.currentTime + k + 1) lspIdx) ∧
      (s.iterate (time + period) input accumulate).object.Follows
        (plan.steps s.currentTime (s.duration (time + period)))
        (s.iterate (time + period) input accumulate).currentTime := by
  have htarget := hin.ordered.lt_target
  obtain ⟨hiterate, hsum⟩ :=
    currentTime_iterate input accumulate hin.ordered hend hlt
  have hquiet := h.quietBefore hin.ordered
  constructor
  · intro lspIdx k hk
    have hbefore : s.currentTime + k < s.object.targetTime := by omega
    rw [gain_eq_value hin.ordered h.constant hbefore, hquiet.steps hbefore,
      h.value (s.currentTime + k + 1) (by omega)]
  · rw [hiterate]
    have hadd : TimeType.add s.currentTime (s.duration (time + period)) =
        min s.object.targetTime (time + period) := hiterate
    show (if TimeType.add s.currentTime (s.duration (time + period)) = s.object.targetTime then
      s.object.reachTarget (TimeType.add s.currentTime (s.duration (time + period)))
      else s.object).Follows _ _
    rw [hadd]
    -- the slope ends with the transition or with the block
    by_cases hreach : min s.object.targetTime (time + period) = s.object.targetTime
    · rw [if_pos hreach, hreach]
      obtain ⟨k, hk⟩ : ∃ k, s.duration (time + period) = k + 1 :=
        ⟨s.duration (time + period) - 1, by omega⟩
      have hsteps : plan.steps s.currentTime (s.duration (time + period)) =
          plan.advance s.object.targetTime := by
        have hbefore : s.currentTime + k < s.object.targetTime := by omega
        rw [hk, Plan.steps, hquiet.steps hbefore]
        have htime : s.currentTime + k + 1 = s.object.targetTime := by omega
        rw [htime]
      rw [hsteps]
      exact (h.mono (by omega)).reachTarget hin.ordered (by omega)
    · have hbefore : s.currentTime + s.duration (time + period) < s.object.targetTime := by omega
      rw [if_neg hreach, hquiet.steps hbefore]
      exact h.mono (by omega)

variable {input accumulate}

/-- **The slopes of a block follow the plan**, with the samples counted from the beginning of the
loop. -/
theorem slopes_follow [CharZero K] (hend : time + period < cTimeStampInfinity) {n : ℕ}
    {s last : SlopeLoop K numLsp} {visited : List (SlopeLoop K numLsp)}
    (hrun : run (continues (time + period)) (iterate (time + period) input accumulate) n s =
      some (visited, last)) (hin : InBlock time period s) {plan : Plan K numLsp}
    (h : s.object.Follows plan (s.currentTime + 1)) (hlt : s.currentTime < time + period) :
    (∀ lspIdx k, s.currentTime + k < time + period →
        gainAt (time + period) visited lspIdx (s.bufferOffset + k) =
          (plan.steps s.currentTime k).current.value (s.currentTime + k + 1) lspIdx) ∧
      last.object.Follows (plan.steps s.currentTime (time + period - s.currentTime))
        (time + period) := by
  -- where the loop stops, the plan has to be followed already, and not from the next sample on
  refine run_induction (P := fun s visited last => ∀ plan : Plan K numLsp,
    InBlock time period s → s.object.Follows plan (s.currentTime + 1) →
    (s.currentTime < time + period ∨ s.object.Follows plan s.currentTime) →
    (∀ lspIdx k, s.currentTime + k < time + period →
        gainAt (time + period) visited lspIdx (s.bufferOffset + k) =
          (plan.steps s.currentTime k).current.value (s.currentTime + k + 1) lspIdx) ∧
      last.object.Follows (plan.steps s.currentTime (time + period - s.currentTime))
        (time + period)) ?_ ?_ hrun plan hin h (Or.inl hlt)
  · intro s hstop plan hin _ hnow
    have hnot : ¬ s.currentTime < time + period := of_decide_eq_false hstop
    have hle := hin.currentTime_le
    have heq : s.currentTime = time + period := by omega
    refine ⟨fun lspIdx k hk => absurd hk (by omega), ?_⟩
    rw [heq, Nat.sub_self]
    exact heq ▸ hnow.resolve_left hnot
  · intro s visited last hcond ih plan hin hnext _
    have hlt : s.currentTime < time + period := of_decide_eq_true hcond
    obtain ⟨hgains, hfollows⟩ :=
      slope_follows input accumulate hin hend hlt hnext
    obtain ⟨htime, hsum⟩ :=
      currentTime_iterate input accumulate hin.ordered hend hlt
    have hbody := (inBlock_iterate input accumulate hin hend hlt).1
    obtain ⟨hrest, hlast⟩ := ih _ hbody (hfollows.mono (Nat.le_succ _)) (Or.inr hfollows)
    have hle := hbody.currentTime_le
    constructor
    · intro lspIdx k hk
      -- the sample is in the first slope or in one of the others
      by_cases hfirst : k < s.duration (time + period)
      · have hcontains : containsSample (time + period) (s.bufferOffset + k) s = true :=
          decide_eq_true ⟨Nat.le_add_right _ _, Nat.add_lt_add_left hfirst _⟩
        rw [gainAt, List.find?_cons_of_pos hcontains]
        dsimp only
        rw [Nat.add_sub_cancel_left]
        exact hgains lspIdx k hfirst
      · obtain ⟨j, rfl⟩ := Nat.exists_eq_add_of_le (Nat.le_of_not_lt hfirst)
        have hcontains : ¬ containsSample (time + period)
            (s.bufferOffset + (s.duration (time + period) + j)) s = true := by
          intro hcontains
          have hbounds := of_decide_eq_true hcontains
          omega
        have hcurrent : (s.iterate (time + period) input accumulate).currentTime =
            s.currentTime + s.duration (time + period) := by omega
        have hsample := hrest lspIdx j (by omega)
        rw [gainAt, List.find?_cons_of_neg hcontains]
        rw [hcurrent, ← Plan.steps_add, Nat.add_assoc s.currentTime] at hsample
        rw [← hsample, ← Nat.add_assoc]
        rfl
    · have hcurrent : (s.iterate (time + period) input accumulate).currentTime =
          s.currentTime + s.duration (time + period) := by omega
      rw [hcurrent, ← Plan.steps_add] at hlast
      have hlength : s.duration (time + period) +
          (time + period - (s.currentTime + s.duration (time + period))) =
            time + period - s.currentTime := by omega
      rw [hlength] at hlast
      exact hlast

end SlopeLoop

/-! ### Runs -/

namespace PanningGainMatrix

/-- The plan for a block that begins at a time, after the arrival of its message. -/
def blockPlan (time : ℕ) (i : Fin numObjs) (plan : Plan K numLsp) (block : Block K numObjs numLsp) :
    Plan K numLsp :=
  (plan.receive (activeEntry i block)).advance time

/-- The gains that are applied to an object are those of the plan, which goes on from the block
with the number `n`: at each sample, it is the value at the next one of the transition in force. -/
def FollowsPlan (period : ℕ) (i : Fin numObjs) : ℕ → Plan K numLsp →
    List (Block K numObjs numLsp) → List (Outcome K numObjs numLsp) → Prop
  | _, _, [], [] => True
  | n, plan, block :: blocks, outcome :: outcomes =>
    (∀ lspIdx k, k < period → appliedGain (n * period) period i lspIdx k outcome =
      some (((blockPlan (n * period) i plan block).steps (n * period) k).current.value
        (n * period + k + 1) lspIdx)) ∧
      FollowsPlan period i (n + 1)
        ((blockPlan (n * period) i plan block).steps (n * period) period) blocks outcomes
  | _, _, _, _ => False

/-- No entry for an object interrupts a transition, in the blocks from the number `n` on. -/
def AllUndisturbed (period : ℕ) (i : Fin numObjs) :
    ℕ → List (Block K numObjs numLsp) → PanningGainMatrix K numObjs numLsp → Prop
  | _, [], _ => True
  | n, block :: blocks, s =>
    (∀ entry, activeEntry i block = some entry →
      (s.objects i).Undisturbed (n * period) entry) ∧
      AllUndisturbed period i (n + 1) blocks
        ((s.receive block.message).process (n * period % 2 ^ 64) period block.input block.output).1

/-- The states after the constructors, with the plan for an object. -/
inductive StartsWith (i : Fin numObjs) : PanningGainMatrix K numObjs numLsp → Plan K numLsp → Prop
  | initialGains (initialGains : Fin numObjs → Fin numLsp → K) :
    StartsWith i (create initialGains) (.create (initialGains i))
  | initialTransitions (initialGains : Fin numObjs → Fin numLsp → K)
      (initialTransitions : PanningMatrixParameter K numObjs numLsp)
      (s : PanningGainMatrix K numObjs numLsp)
      (hentries : ∀ i, (initialTransitions i).Admissible 0)
      (hs : createTransitions initialGains initialTransitions = .ok s) :
    StartsWith i s (blockPlan 0 i (.create (initialGains i))
      { message := some initialTransitions, input := 0, output := 0 })

/-- An entry of a message that does not interrupt a transition, if there is one. -/
theorem follows_blockPlan {time u : ℕ} {i : Fin numObjs} {obj obj' : ObjectState K numLsp}
    {plan : Plan K numLsp} {block : Block K numObjs numLsp} (h : obj.Follows plan time)
    (hordered : obj.Ordered time) (htu : time ≤ u)
    (hblock : ∀ message, block.message = some message → ∀ i, (message i).Admissible time)
    (hundisturbed : ∀ entry, activeEntry i block = some entry →
      obj.targetTime ≤ entry.timeStamp ∨ obj.previousGains = obj.targetGains ∨
        entry.timeStamp = time ∧ (time + entry.transitionTime ≤ u ∨ obj.previousTime = time))
    (hobj : (match activeEntry i block with
      | none => .ok obj
      | some entry => obj.updateTransition time entry) = Except.ok obj') :
    obj'.Follows (blockPlan time i plan block) u := by
  unfold blockPlan
  cases hentry : activeEntry i block with
  | none =>
    rw [hentry] at hobj
    cases hobj
    -- a stored entry is not due before the transition in force has ended
    have hadvance : (plan.receive none).advance time = plan :=
      (h.quietBefore hordered).advance hordered.lt_target
    rw [hadvance]
    exact h.mono htu
  | some entry =>
    rw [hentry] at hobj
    have hactive : entry.timeStamp ≠ cTimeStampInfinity ∧ entry.Admissible time := by
      obtain ⟨message, hmessage, hactive⟩ := Option.bind_eq_some_iff.mp hentry
      split at hactive
      · cases hactive
      next hfinite =>
        cases hactive
        exact ⟨hfinite, hblock message hmessage i⟩
    exact h.receive hordered htu hactive.2 hactive.1 (hundisturbed entry hentry) hobj

theorem StartsWith.follows {i : Fin numObjs} {s : PanningGainMatrix K numObjs numLsp}
    {plan : Plan K numLsp} (h : StartsWith i s plan) : Starts s ∧ (s.objects i).Follows plan 0 := by
  cases h with
  | initialGains initialGains => exact ⟨.initialGains _, ObjectState.follows_create _⟩
  | initialTransitions initialGains initialTransitions _ hentries hs =>
    refine ⟨.initialTransitions _ _ _ hentries hs, ?_⟩
    obtain ⟨objects, hupdate, -⟩ := updateTransitions_ordered hentries (List.finRange numObjs)
      (show AllOrdered (create initialGains).objects 0 from fun i => ObjectState.ordered_create _)
    have hi := updateTransitions_object (List.nodup_finRange numObjs) hupdate i
    rw [if_pos (List.mem_finRange i)] at hi
    rw [createTransitions, hupdate] at hs
    cases hs
    refine follows_blockPlan (ObjectState.follows_create _) (ObjectState.ordered_create _)
      (Nat.le_refl 0) (fun message hmessage => ?_) (fun entry _ => Or.inr (Or.inl rfl)) ?_
    · cases hmessage
      exact hentries
    · show (match (if (initialTransitions i).timeStamp = cTimeStampInfinity then none
        else some (initialTransitions i)) with
        | none => .ok _
        | some entry => _) = Except.ok (objects i)
      by_cases hinf : (initialTransitions i).timeStamp = cTimeStampInfinity
      · rw [if_pos hinf]
        rw [ObjectState.updateTransition, if_pos hinf] at hi
        exact hi
      · rw [if_neg hinf]
        exact hi

/-- Without samples, there is nothing to follow. -/
theorem followsPlan_zero (i : Fin numObjs) {blocks : List (Block K numObjs numLsp)} {n : ℕ}
    {s : PanningGainMatrix K numObjs numLsp} {plan : Plan K numLsp} :
    FollowsPlan 0 i n plan blocks (outcomes 0 n blocks s) := by
  induction blocks generalizing n s plan with
  | nil => exact trivial
  | cons block blocks ih => exact ⟨fun lspIdx k hk => absurd hk (Nat.not_lt_zero k), ih⟩

/-- The gains of a run from any block on. -/
theorem outcomes_follow_from [CharZero K] {period : ℕ} (hpos : 0 < period) (i : Fin numObjs)
    {blocks : List (Block K numObjs numLsp)} {n : ℕ} {s : PanningGainMatrix K numObjs numLsp}
    {plan : Plan K numLsp} (hordered : AllOrdered s.objects (n * period))
    (hchanged : s.changed = false) (h : (s.objects i).Follows plan (n * period))
    (hblocks : AllAdmissible period n blocks) (hundisturbed : AllUndisturbed period i n blocks s)
    (hend : (n + blocks.length) * period < cTimeStampInfinity) :
    FollowsPlan period i n plan blocks (outcomes period n blocks s) := by
  induction blocks generalizing n s plan with
  | nil => exact trivial
  | cons block blocks ih =>
    obtain ⟨hblock, hblocks⟩ := hblocks
    obtain ⟨hentry, hrest⟩ := hundisturbed
    rw [List.length_cons, ← Nat.add_assoc, Nat.add_right_comm] at hend
    have hnext : (n + 1) * period ≤ (n + 1 + blocks.length) * period :=
      Nat.mul_le_mul_right _ (Nat.le_add_right _ _)
    have hsucc : n * period + period = (n + 1) * period := (Nat.succ_mul n period).symm
    have hblockEnd : n * period + period < cTimeStampInfinity := by omega
    -- the time does not overflow before the end of the run
    have htime : n * period % 2 ^ 64 = n * period := by
      refine Nat.mod_eq_of_lt ?_
      unfold cTimeStampInfinity at hend
      omega
    obtain ⟨obj, os, start, accumulate, hobj, hobjOrdered, hrun, hafter, hgain⟩ :=
      process_object hblockEnd hordered hchanged hblock i
    have hready := receive_ready hordered hchanged hblock
    obtain ⟨-, hordered', hreset⟩ :=
      process_partitioned hblockEnd hready.1 hready.2 block.input block.output
    have hfollows : obj.Follows (blockPlan (n * period) i plan block) (n * period + 1) := by
      refine follows_blockPlan h (hordered i) (Nat.le_succ _) hblock (fun entry hactive => ?_) hobj
      rcases hentry entry hactive with htarget | hgains | ⟨hnow, hshort | hprevious⟩
      · exact Or.inl htarget
      · exact Or.inr (Or.inl hgains)
      · exact Or.inr (Or.inr ⟨hnow, Or.inl (Nat.add_le_add_left hshort _)⟩)
      · exact Or.inr (Or.inr ⟨hnow, Or.inr hprevious⟩)
    have hin : SlopeLoop.InBlock (n * period) period
        { object := obj, currentTime := n * period, bufferOffset := 0, output := start } :=
      ⟨hobjOrdered, Nat.le_add_right _ _, rfl⟩
    obtain ⟨hgains, hlast⟩ := SlopeLoop.slopes_follow hblockEnd hrun hin hfollows
      (Nat.lt_add_of_pos_right hpos)
    rw [outcomes, htime]
    rw [htime] at hrest
    rw [hsucc] at hordered'
    refine ⟨fun lspIdx k hk => ?_, ih hordered' hreset ?_ hblocks hrest hend⟩
    · rw [hgain, ← hgains lspIdx k (Nat.add_lt_add_left hk _), Nat.zero_add]
    · rw [hafter, ← hsucc]
      rw [Nat.add_sub_cancel_left] at hlast
      exact hlast

/-- **The gains of an object follow the documented trajectory**, in runs in which no transition
of the object is interrupted. -/
theorem outcomes_follow [CharZero K] (period : ℕ) (i : Fin numObjs)
    {s : PanningGainMatrix K numObjs numLsp} {plan : Plan K numLsp} (h : StartsWith i s plan)
    {blocks : List (Block K numObjs numLsp)} (hblocks : AllAdmissible period 0 blocks)
    (hundisturbed : AllUndisturbed period i 0 blocks s)
    (hend : blocks.length * period < cTimeStampInfinity) :
    FollowsPlan period i 0 plan blocks (outcomes period 0 blocks s) := by
  obtain ⟨hstarts, hfollows⟩ := h.follows
  rcases Nat.eq_zero_or_pos period with rfl | hpos
  · exact followsPlan_zero i
  · refine outcomes_follow_from hpos i ?_ hstarts.ordered.2 ?_ hblocks hundisturbed ?_
    · rw [Nat.zero_mul]
      exact hstarts.ordered.1
    · rw [Nat.zero_mul]
      exact hfollows
    · rw [Nat.zero_add]
      exact hend

/-- A block with an entry for one object and one loudspeaker, or none. -/
def singleEntry (entry : Option (PanningMatrixEntry ℚ 1)) : Block ℚ 1 1 where
  message := entry.map fun entry _ => entry
  input _ _ := 1
  output _ _ := 0

/-- A transition that starts in the middle of the first block, and one that starts at its end. -/
def laterTransition : List (Block ℚ 1 1) := [
  singleEntry (some { timeStamp := 2, transitionTime := 6, gains := fun _ => 1 }),
  singleEntry (some { timeStamp := 8, transitionTime := 2, gains := fun _ => 0 }),
  singleEntry none]

theorem outcomes_follow_laterTransition :
    FollowsPlan 4 0 0 (.create fun _ => 0) laterTransition
      (outcomes 4 0 laterTransition (create fun _ _ => 0)) := by
  refine outcomes_follow 4 0 (.initialGains fun _ _ => 0) ⟨?_, ?_, nofun, trivial⟩
    ⟨?_, ?_, nofun, trivial⟩ (by decide)
  · rintro message ⟨⟩ i
    exact Or.inr ⟨(by decide : 0 * 4 ≤ 2), (by decide : 2 + 6 < cTimeStampInfinity)⟩
  · rintro message ⟨⟩ i
    exact Or.inr ⟨(by decide : 1 * 4 ≤ 8), (by decide : 8 + 2 < cTimeStampInfinity)⟩
  · rintro entry ⟨⟩
    exact Or.inr (Or.inl rfl)
  · rintro entry ⟨⟩
    exact Or.inl (by decide +kernel)

/-- A transition in the first two blocks, and one that starts at a time in the second block. -/
def interruptedTransition (timeStamp : ℕ) : List (Block ℚ 1 1) := [
  singleEntry (some { timeStamp := 0, transitionTime := 8, gains := fun _ => 1 }),
  singleEntry (some { timeStamp := timeStamp, transitionTime := 4, gains := fun _ => 0 })]

/-- The entries are not late, but the gains jump back to zero if the second transition starts at
once, and fall behind the first transition if it starts later. -/
theorem not_followsPlan_interrupted :
    AllAdmissible 4 0 (interruptedTransition 4) ∧
    ¬ FollowsPlan 4 0 0 (.create fun _ => 0) (interruptedTransition 4)
      (outcomes 4 0 (interruptedTransition 4) (create fun _ _ => 0)) ∧
    AllAdmissible 4 0 (interruptedTransition 6) ∧
    ¬ FollowsPlan 4 0 0 (.create fun _ => 0) (interruptedTransition 6)
      (outcomes 4 0 (interruptedTransition 6) (create fun _ _ => 0)) := by
  have hadmissible : ∀ timeStamp, 4 ≤ timeStamp → timeStamp < 8 →
      AllAdmissible 4 0 (interruptedTransition timeStamp) := by
    intro timeStamp hle hlt
    refine ⟨?_, ?_, trivial⟩
    · rintro message ⟨⟩ i
      exact Or.inr ⟨(by decide : 0 * 4 ≤ 0), (by decide : 0 + 8 < cTimeStampInfinity)⟩
    · rintro message ⟨⟩ i
      refine Or.inr ⟨?_, ?_⟩
      · show 1 * 4 ≤ timeStamp
        omega
      · show timeStamp + 4 < cTimeStampInfinity
        unfold cTimeStampInfinity
        omega
  refine ⟨hadmissible 4 (by decide) (by decide), ?_, hadmissible 6 (by decide) (by decide), ?_⟩
  · rintro ⟨-, hsecond, -⟩
    exact absurd (hsecond 0 0 (by decide)) (by decide +kernel)
  · rintro ⟨-, hsecond, -⟩
    exact absurd (hsecond 0 0 (by decide)) (by decide +kernel)

end PanningGainMatrix

end Visr
