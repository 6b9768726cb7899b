import Mathlib.Algebra.Field.Basic
import Mathlib.Algebra.BigOperators.Fin
import Mathlib.Data.Fintype.BigOperators
import Visr.Libefl.Basic
import Visr.Libefl.VectorFunctions
import Visr.Library.WhileLoop

/-!
# The panning gain matrix

Each audio object is played back by all loudspeakers, with gains that change linearly during
transitions.  Transitions are announced by messages and start and end at any sample.

## Main results

* `ObjectState.Ordered.updateTransition`, `SlopeLoop.ordered_iterate` — the times of an object
  keep their order.
-/

namespace Visr

open WhileLoop

/-- `std::numeric_limits< TimeType >::max()`, for times of 64 bits. -/
def cTimeStampInfinity : ℕ := 2 ^ 64 - 1

/-- The sum of two times. -/
def TimeType.add (a b : ℕ) : ℕ := (a + b) % 2 ^ 64

/-- The difference of two times, which are unsigned. -/
def TimeType.sub (a b : ℕ) : ℕ := (a + (2 ^ 64 - b)) % 2 ^ 64

theorem TimeType.add_eq {a b : ℕ} (h : a + b < 2 ^ 64) : TimeType.add a b = a + b :=
  Nat.mod_eq_of_lt h

theorem TimeType.sub_eq {a b : ℕ} (h : b ≤ a) (ha : a < 2 ^ 64) : TimeType.sub a b = a - b := by
  unfold TimeType.sub
  omega

/-- The entry of a message for one object: the start of the transition, which may be
infinity, its duration, and the gains at its end. -/
structure PanningMatrixEntry (K : Type) (numLsp : ℕ) where
  timeStamp : ℕ
  transitionTime : ℕ
  gains : Fin numLsp → K

/-- A message. -/
abbrev PanningMatrixParameter (K : Type) (numObjs numLsp : ℕ) :=
  Fin numObjs → PanningMatrixEntry K numLsp

/-- The members of the component that concern one object. -/
structure ObjectState (K : Type) (numLsp : ℕ) where
  previousTime : ℕ
  targetTime : ℕ
  previousGains : Fin numLsp → K
  targetGains : Fin numLsp → K
  pending : PanningMatrixEntry K numLsp

variable {K : Type} [Field K] {numObjs numLsp : ℕ}

def interpolationRatio (currentTime previousTime targetTime : ℕ) : K :=
  if targetTime = cTimeStampInfinity then 0
  else (TimeType.sub currentTime previousTime : K) / TimeType.sub targetTime previousTime

def gainIncRatio (previousTime targetTime : ℕ) : K :=
  if targetTime = cTimeStampInfinity then 0
  else 1 / TimeType.sub targetTime previousTime

namespace ObjectState

/-- The state after the constructor. -/
def create (initialGains : Fin numLsp → K) : ObjectState K numLsp where
  previousTime := 0
  targetTime := cTimeStampInfinity
  previousGains := initialGains
  targetGains := initialGains
  pending := {
    timeStamp := cTimeStampInfinity
    transitionTime := cTimeStampInfinity
    gains := 0 }

/-- The gains on the way from the previous to the target gains. -/
def interpolate (obj : ObjectState K numLsp) (alpha : K) : Fin numLsp → K := fun lspIdx =>
  alpha * obj.targetGains lspIdx + (1 - alpha) * obj.previousGains lspIdx

/-- No transition is stored. -/
def clearPending (obj : ObjectState K numLsp) : ObjectState K numLsp :=
  { obj with pending := {
      timeStamp := cTimeStampInfinity
      transitionTime := cTimeStampInfinity
      gains := obj.targetGains } }

/-- The transition starts now. -/
def startTransition (obj : ObjectState K numLsp) (currentTime duration : ℕ)
    (gains : Fin numLsp → K) : ObjectState K numLsp :=
  let obj := { obj with previousTime := currentTime }
  if duration = 0 then
    { obj with previousGains := gains, targetGains := gains, targetTime := cTimeStampInfinity }
  else
    let alpha := interpolationRatio currentTime obj.previousTime obj.targetTime
    { obj with
      previousGains := obj.interpolate alpha
      targetGains := gains
      targetTime := TimeType.add currentTime duration }

/-- The running transition ends when the new one starts. -/
def cutTransition (obj : ObjectState K numLsp) (currentTime startTime : ℕ) :
    ObjectState K numLsp :=
  if startTime < obj.targetTime then
    let alpha := interpolationRatio currentTime obj.previousTime obj.targetTime
    { obj with targetGains := obj.interpolate alpha, targetTime := startTime }
  else obj

/-- A time stamp in the past is reported as an error status, which throws an exception. -/
def updateTransition (obj : ObjectState K numLsp) (currentTime : ℕ)
    (entry : PanningMatrixEntry K numLsp) : Except Exception (ObjectState K numLsp) :=
  if entry.timeStamp = cTimeStampInfinity then .ok obj
  else if entry.timeStamp < currentTime then
    .error (.runtimeError "Time stamp of gain change is in the past.")
  else if entry.timeStamp = currentTime then
    .ok (obj.startTransition currentTime entry.transitionTime entry.gains).clearPending
  else .ok { obj.cutTransition currentTime entry.timeStamp with pending := entry }

/-- What happens at the end of a transition. -/
def reachTarget (obj : ObjectState K numLsp) (currentTime : ℕ) : ObjectState K numLsp :=
  let obj := { obj with previousTime := currentTime }
  if obj.pending.timeStamp = currentTime then
    let obj :=
      if obj.pending.transitionTime = 0 then
        { obj with previousGains := obj.pending.gains, targetTime := cTimeStampInfinity }
      else
        { obj with
          previousGains := obj.targetGains
          targetTime := TimeType.add currentTime obj.pending.transitionTime }
    { obj with
      targetGains := obj.pending.gains
      pending := { obj.pending with
        timeStamp := cTimeStampInfinity
        transitionTime := cTimeStampInfinity } }
  else
    { obj with targetTime := obj.pending.timeStamp, previousGains := obj.targetGains }

end ObjectState

/-- The variables of the loop over the slopes of an object: `output` are the output signals. -/
structure SlopeLoop (K : Type) (numLsp : ℕ) where
  object : ObjectState K numLsp
  currentTime : ℕ
  bufferOffset : ℕ
  output : Fin numLsp → ℕ → K

namespace SlopeLoop

/-- The length of the slope. -/
def duration (blockEndTime : ℕ) (s : SlopeLoop K numLsp) : ℕ :=
  TimeType.sub (min s.object.targetTime blockEndTime) s.currentTime

/-- The gain of a sample of the slope, counted from its beginning, where the ramp starts
with one. -/
def gain (s : SlopeLoop K numLsp) (lspIdx : Fin numLsp) (k : ℕ) : K :=
  let startRatio : K :=
    interpolationRatio s.currentTime s.object.previousTime s.object.targetTime
  let incRatio : K := gainIncRatio s.object.previousTime s.object.targetTime
  let startGain := s.object.previousGains lspIdx +
    startRatio * (s.object.targetGains lspIdx - s.object.previousGains lspIdx)
  let gainInc := incRatio * (s.object.targetGains lspIdx - s.object.previousGains lspIdx)
  let mScalingRamp : K := 1 + (k : K) * 1
  startGain + gainInc * mScalingRamp

/-- `processAudioSingleSlope()`: the samples of the slope are scaled. -/
def processAudioSingleSlope (s : SlopeLoop K numLsp) (input : ℕ → K) (duration : ℕ)
    (accumulate : Bool) : Fin numLsp → ℕ → K := fun lspIdx =>
  overwrite (s.output lspIdx) s.bufferOffset duration fun k =>
    let scaled := s.gain lspIdx k * input (s.bufferOffset + k)
    if accumulate then s.output lspIdx (s.bufferOffset + k) + scaled else scaled

/-- `currentTime < blockEndTime`. -/
def continues (blockEndTime : ℕ) (s : SlopeLoop K numLsp) : Bool := s.currentTime < blockEndTime

/-- The body of the loop. -/
def iterate (blockEndTime : ℕ) (input : ℕ → K) (accumulate : Bool) (s : SlopeLoop K numLsp) :
    SlopeLoop K numLsp :=
  let duration := s.duration blockEndTime
  let output := s.processAudioSingleSlope input duration accumulate
  let currentTime := TimeType.add s.currentTime duration
  { object :=
      if currentTime = s.object.targetTime then s.object.reachTarget currentTime else s.object
    currentTime := currentTime
    bufferOffset := s.bufferOffset + duration
    output := output }

end SlopeLoop

/-- What happens to an object in a block: the states at the beginning of the iterations, and the
final one. -/
structure ObjectSlopes (K : Type) (numLsp : ℕ) where
  slopes : List (SlopeLoop K numLsp)
  last : SlopeLoop K numLsp

/-- The members of the component.  The receiving port has the current message, and a flag which
tells whether it is new. -/
structure PanningGainMatrix (K : Type) (numObjs numLsp : ℕ) where
  objects : Fin numObjs → ObjectState K numLsp
  gainInput : PanningMatrixParameter K numObjs numLsp
  changed : Bool

namespace PanningGainMatrix

/-- The loop over the objects, up to the first one whose time stamp is in the past. -/
def updateTransitions (currentTime : ℕ) (newParams : PanningMatrixParameter K numObjs numLsp) :
    List (Fin numObjs) → (Fin numObjs → ObjectState K numLsp) →
      (Fin numObjs → ObjectState K numLsp) × Except Exception Unit
  | [], objects => (objects, .ok ())
  | objIdx :: rest, objects =>
    match (objects objIdx).updateTransition currentTime (newParams objIdx) with
    | .ok obj =>
      updateTransitions currentTime newParams rest (Function.update objects objIdx obj)
    | .error e => (objects, .error e)

/-- The flag is reset if there is no exception. -/
def processParameters (s : PanningGainMatrix K numObjs numLsp) (currentTime : ℕ) :
    PanningGainMatrix K numObjs numLsp × Except Exception Unit :=
  if s.changed then
    match updateTransitions currentTime s.gainInput (List.finRange numObjs) s.objects with
    | (objects, .ok ()) => ({ s with objects := objects, changed := false }, .ok ())
    | (objects, .error e) => ({ s with objects := objects }, .error e)
  else (s, .ok ())

/-- The loop over the objects in `processAudio()`.  Each of them has at most one slope for each
sample, unless its loop does not terminate. -/
def processObjects (time period : ℕ) (input : Fin numObjs → ℕ → K) :
    List (Fin numObjs) → (Fin numObjs → ObjectState K numLsp) → (Fin numLsp → ℕ → K) →
      Option (List (Fin numObjs × ObjectSlopes K numLsp) × (Fin numObjs → ObjectState K numLsp) ×
        (Fin numLsp → ℕ → K))
  | [], objects, output => some ([], objects, output)
  | objIdx :: rest, objects, output =>
    let accumulateFlag := decide (objIdx.val ≠ 0)
    let blockEndTime := TimeType.add time period
    (run (SlopeLoop.continues blockEndTime)
        (SlopeLoop.iterate blockEndTime (input objIdx) accumulateFlag) period
        { object := objects objIdx, currentTime := time, bufferOffset := 0, output := output }).bind
      fun slopes =>
        (processObjects time period input rest
          (Function.update objects objIdx slopes.2.object) slopes.2.output).map fun r =>
            ((objIdx, ⟨slopes.1, slopes.2⟩) :: r.1, r.2)

/-- `processAudio()`.  Without objects, the output signals are set to zero. -/
def processAudio (time period : ℕ) (input : Fin numObjs → ℕ → K) (output : Fin numLsp → ℕ → K)
    (objects : Fin numObjs → ObjectState K numLsp) :
    Option (List (Fin numObjs × ObjectSlopes K numLsp) × (Fin numObjs → ObjectState K numLsp) ×
      (Fin numLsp → ℕ → K)) :=
  if numObjs = 0 then some ([], objects, fun _ _ => 0)
  else processObjects time period input (List.finRange numObjs) objects output

/-- How a call of `process()` ends: with an exception, never, or with the slopes of all objects
and the output signals. -/
abbrev Outcome (K : Type) (numObjs numLsp : ℕ) :=
  Except Exception
    (Option (List (Fin numObjs × ObjectSlopes K numLsp) × (Fin numLsp → ℕ → K)))

def process (s : PanningGainMatrix K numObjs numLsp) (time period : ℕ)
    (input : Fin numObjs → ℕ → K) (output : Fin numLsp → ℕ → K) :
    PanningGainMatrix K numObjs numLsp × Outcome K numObjs numLsp :=
  match s.processParameters time with
  | (s, .error e) => (s, .error e)
  | (s, .ok ()) =>
    match processAudio time period input output s.objects with
    | none => (s, .ok none)
    | some (slopes, objects, output) => ({ s with objects := objects }, .ok (some (slopes, output)))

/-- What the component finds at the beginning of a block: a new message, if there is one, the
input signals and the contents of the buffers of the output signals. -/
structure Block (K : Type) (numObjs numLsp : ℕ) where
  message : Option (PanningMatrixParameter K numObjs numLsp)
  input : Fin numObjs → ℕ → K
  output : Fin numLsp → ℕ → K

/-- The arrival of a message. -/
def receive (s : PanningGainMatrix K numObjs numLsp) :
    Option (PanningMatrixParameter K numObjs numLsp) → PanningGainMatrix K numObjs numLsp
  | none => s
  | some message => { s with gainInput := message, changed := true }

/-- A run from the block with the number `n` on. -/
def outcomes (period : ℕ) : ℕ → List (Block K numObjs numLsp) →
    PanningGainMatrix K numObjs numLsp → List (Outcome K numObjs numLsp)
  | _, [], _ => []
  | n, block :: blocks, s =>
    let r := (s.receive block.message).process (n * period % 2 ^ 64) period block.input block.output
    r.2 :: outcomes period (n + 1) blocks r.1

/-- The constructors with initial gains, where the port has not received a message. -/
def create (initialGains : Fin numObjs → Fin numLsp → K) : PanningGainMatrix K numObjs numLsp where
  objects i := .create (initialGains i)
  gainInput _ := { timeStamp := cTimeStampInfinity, transitionTime := cTimeStampInfinity, gains := 0 }
  changed := false

/-- The constructor with initial transitions. -/
def createTransitions (initialGains : Fin numObjs → Fin numLsp → K)
    (initialTransitions : PanningMatrixParameter K numObjs numLsp) :
    Except Exception (PanningGainMatrix K numObjs numLsp) :=
  match updateTransitions 0 initialTransitions (List.finRange numObjs)
    (create initialGains).objects with
  | (objects, .ok ()) => .ok { create initialGains with objects := objects }
  | (_, .error e) => .error e

end PanningGainMatrix

/-! ### The times of an object -/

/-- An entry that may arrive at a time: it is inactive, or it does not start before that time and
ends before the time that stands for infinity. -/
def PanningMatrixEntry.Admissible (entry : PanningMatrixEntry K numLsp) (time : ℕ) : Prop :=
  entry.timeStamp = cTimeStampInfinity ∨
    time ≤ entry.timeStamp ∧ entry.timeStamp + entry.transitionTime < cTimeStampInfinity

namespace ObjectState

/-- **The order of the times of an object.**  The running transition has begun and is not
complete, and the stored one does not start before its end. -/
structure Ordered (obj : ObjectState K numLsp) (time : ℕ) : Prop where
  previous_le : obj.previousTime ≤ time
  lt_target : time < obj.targetTime
  target_le : obj.targetTime ≤ obj.pending.timeStamp
  pending_le : obj.pending.timeStamp ≤ cTimeStampInfinity
  pending_end : obj.pending.timeStamp ≠ cTimeStampInfinity →
    obj.pending.timeStamp + obj.pending.transitionTime < cTimeStampInfinity

theorem ordered_create (initialGains : Fin numLsp → K) : (create initialGains).Ordered 0 :=
  ⟨Nat.le_refl 0, Nat.zero_lt_succ _, Nat.le_refl _, Nat.le_refl _, fun h => absurd rfl h⟩

/-- Messages keep the order, if they are not late. -/
theorem Ordered.updateTransition {obj : ObjectState K numLsp} {time : ℕ} (h : obj.Ordered time)
    {entry : PanningMatrixEntry K numLsp} (hentry : entry.Admissible time) :
    ∃ obj', obj.updateTransition time entry = .ok obj' ∧ obj'.Ordered time := by
  unfold ObjectState.updateTransition
  by_cases hinf : entry.timeStamp = cTimeStampInfinity
  · rw [if_pos hinf]
    exact ⟨obj, rfl, h⟩
  obtain ⟨hle, hend⟩ := hentry.resolve_left hinf
  rw [if_neg hinf, if_neg (by omega)]
  by_cases hnow : entry.timeStamp = time
  · rw [if_pos hnow]
    refine ⟨_, rfl, ?_⟩
    have hlt : time < cTimeStampInfinity := by omega
    unfold startTransition clearPending
    by_cases hzero : entry.transitionTime = 0
    · rw [if_pos hzero]
      exact ⟨Nat.le_refl _, hlt, Nat.le_refl _, Nat.le_refl _, fun h => absurd rfl h⟩
    · rw [if_neg hzero]
      have hadd : TimeType.add time entry.transitionTime = time + entry.transitionTime :=
        TimeType.add_eq (by unfold cTimeStampInfinity at hend; omega)
      refine ⟨Nat.le_refl _, ?_, ?_, Nat.le_refl _, fun h => absurd rfl h⟩
      · show time < TimeType.add time entry.transitionTime
        omega
      · show TimeType.add time entry.transitionTime ≤ cTimeStampInfinity
        omega
  · rw [if_neg hnow]
    refine ⟨_, rfl, ?_⟩
    unfold cutTransition
    -- the transition in force ends at the latest when the new one starts
    by_cases hcut : entry.timeStamp < obj.targetTime
    · rw [if_pos hcut]
      refine ⟨h.previous_le, ?_, Nat.le_refl _, ?_, fun _ => hend⟩
      · show time < entry.timeStamp
        omega
      · show entry.timeStamp ≤ cTimeStampInfinity
        omega
    · rw [if_neg hcut]
      refine ⟨h.previous_le, h.lt_target, ?_, ?_, fun _ => hend⟩
      · show obj.targetTime ≤ entry.timeStamp
        omega
      · show entry.timeStamp ≤ cTimeStampInfinity
        omega

omit [Field K] in
/-- The end of a transition keeps the order, where it is before the time for infinity. -/
theorem Ordered.reachTarget {obj : ObjectState K numLsp} {time : ℕ} (h : obj.Ordered time)
    (hfinite : obj.targetTime < cTimeStampInfinity) :
    (obj.reachTarget obj.targetTime).Ordered obj.targetTime := by
  unfold ObjectState.reachTarget
  have hle := h.target_le
  by_cases hstart : obj.pending.timeStamp = obj.targetTime
  · have hend := h.pending_end (by omega)
    rw [if_pos hstart]
    by_cases hzero : obj.pending.transitionTime = 0
    · rw [if_pos hzero]
      exact ⟨Nat.le_refl _, hfinite, Nat.le_refl _, Nat.le_refl _, fun h => absurd rfl h⟩
    · rw [if_neg hzero]
      have hadd : TimeType.add obj.targetTime obj.pending.transitionTime =
          obj.targetTime + obj.pending.transitionTime :=
        TimeType.add_eq (by unfold cTimeStampInfinity at hend; omega)
      refine ⟨Nat.le_refl _, ?_, ?_, Nat.le_refl _, fun h => absurd rfl h⟩
      · show obj.targetTime < TimeType.add obj.targetTime obj.pending.transitionTime
        omega
      · show TimeType.add obj.targetTime obj.pending.transitionTime ≤ cTimeStampInfinity
        omega
  · rw [if_neg hstart]
    refine ⟨Nat.le_refl _, ?_, Nat.le_refl _, h.pending_le, h.pending_end⟩
    show obj.targetTime < obj.pending.timeStamp
    omega

end ObjectState

/-! ### The slopes of a block -/

namespace SlopeLoop

variable {blockEndTime : ℕ} {s : SlopeLoop K numLsp}

omit [Field K] in
/-- The length of a slope, which is positive. -/
theorem duration_eq (h : s.object.Ordered s.currentTime) (hend : blockEndTime < cTimeStampInfinity)
    (hlt : s.currentTime < blockEndTime) :
    s.duration blockEndTime = min s.object.targetTime blockEndTime - s.currentTime ∧
      0 < s.duration blockEndTime := by
  have hduration : s.duration blockEndTime =
      min s.object.targetTime blockEndTime - s.currentTime := by
    have := h.lt_target
    refine TimeType.sub_eq (by omega) ?_
    unfold cTimeStampInfinity at hend
    omega
  refine ⟨hduration, ?_⟩
  have := h.lt_target
  omega

/-- The end of a slope. -/
theorem currentTime_iterate (input : ℕ → K) (accumulate : Bool)
    (h : s.object.Ordered s.currentTime)
    (hend : blockEndTime < cTimeStampInfinity) (hlt : s.currentTime < blockEndTime) :
    (s.iterate blockEndTime input accumulate).currentTime =
        min s.object.targetTime blockEndTime ∧
      s.currentTime + s.duration blockEndTime = min s.object.targetTime blockEndTime := by
  obtain ⟨hduration, -⟩ := duration_eq h hend hlt
  have := h.lt_target
  have hsum : s.currentTime + s.duration blockEndTime = min s.object.targetTime blockEndTime := by
    omega
  refine ⟨?_, hsum⟩
  show TimeType.add s.currentTime (s.duration blockEndTime) = _
  rw [TimeType.add_eq, hsum]
  rw [hsum]
  unfold cTimeStampInfinity at hend
  omega

/-- An iteration keeps the order of the times. -/
theorem ordered_iterate (input : ℕ → K) (accumulate : Bool)
    (h : s.object.Ordered s.currentTime)
    (hend : blockEndTime < cTimeStampInfinity) (hlt : s.currentTime < blockEndTime) :
    (s.iterate blockEndTime input accumulate).object.Ordered
      (s.iterate blockEndTime input accumulate).currentTime := by
  obtain ⟨htime, -⟩ := currentTime_iterate input accumulate h hend hlt
  rw [htime]
  have hcurrent : TimeType.add s.currentTime (s.duration blockEndTime) =
      min s.object.targetTime blockEndTime := htime
  show (if TimeType.add s.currentTime (s.duration blockEndTime) = s.object.targetTime then
    s.object.reachTarget (TimeType.add s.currentTime (s.duration blockEndTime))
    else s.object).Ordered _
  rw [hcurrent]
  have := h.lt_target
  by_cases htarget : min s.object.targetTime blockEndTime = s.object.targetTime
  · rw [if_pos htarget, htarget]
    exact h.reachTarget (by omega)
  · rw [if_neg htarget]
    exact ⟨by have := h.previous_le; omega, by omega, h.target_le, h.pending_le, h.pending_end⟩

end SlopeLoop

end Visr
