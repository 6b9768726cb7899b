import Mathlib.Algebra.Order.Ring.Rat
import Mathlib.Data.Rat.Sqrt
import Visr.Libpml.InputBase
import Visr.Librcl.CAPGainCalculator
import Visr.Librcl.PanningCalculator

/-!
# Updates of panning gains

The components that calculate panning gains receive object vectors and listener positions in any
order.

## Main results

* `PanningCalculator.exec_toState`, `CAPGainCalculator.exec_toState` — both components
  recalculate their gains in the same way.
* `gains_follow` — **when the gains are those of the current inputs**.
-/

namespace Visr

open Execution Recalculation

variable {K : Type} [Field K] [LinearOrder K]

/-- A listener position with the angles of its orientation. -/
structure ListenerPosition (K : Type) where
  x : K
  y : K
  z : K
  yaw : K
  pitch : K
  roll : K

/-- A component with the ports `objectVectorInput` and `listenerPosition`. -/
structure GainComponent (K C R : Type) where
  calculator : C
  objectVectorInput : InputBase (ObjectVector K)
  listenerPositionInput : InputBase (ListenerPosition K)
  gainOutput : R

namespace GainComponent

variable {C R : Type}

/-- What happens: object vectors and listener positions arrive, and the component is called. -/
abbrev Event (K : Type) := Recalculation.Event (ObjectVector K) (ListenerPosition K)

/-- One event, for the `process()` function of a component. -/
def step (process : GainComponent K C R → Option (GainComponent K C R)) (e : Event K)
    (s : GainComponent K C R) : Option (GainComponent K C R) :=
  match e with
  | .first objects => some { s with objectVectorInput := s.objectVectorInput.receive objects }
  | .second listener =>
    some { s with listenerPositionInput := s.listenerPositionInput.receive listener }
  | .process => process s

def toState (s : GainComponent K C R) :
    State (ObjectVector K) (ListenerPosition K) C R where
  first := s.objectVectorInput
  second := s.listenerPositionInput
  config := s.calculator
  result := s.gainOutput

omit [Field K] [LinearOrder K] in
/-- A component whose calls recalculate the result as long as a condition holds. -/
theorem exec_toState {process : GainComponent K C R → Option (GainComponent K C R)}
    {sys : System (ObjectVector K) (ListenerPosition K) C R} {I : C → Prop}
    (h : ∀ s s', I s.calculator → process s = some s' →
      I s'.calculator ∧ Recalculation.process sys s.toState = some s'.toState)
    {events : List (Event K)} {s₀ s : GainComponent K C R} (hI : I s₀.calculator)
    (hexec : exec (step process) events s₀ = some s) :
    exec (Recalculation.step sys) events s₀.toState = some s.toState := by
  induction events generalizing s₀ with
  | nil =>
    cases hexec
    rfl
  | cons e events ih =>
    obtain ⟨s₁, hstep, hrest⟩ := exec_cons_eq_some.mp hexec
    cases e with
    | first objects =>
      cases hstep
      refine ih ?_ hrest
      exact hI
    | second listener =>
      cases hstep
      refine ih ?_ hrest
      exact hI
    | process =>
      obtain ⟨hI', hprocess⟩ := h s₀ s₁ hI hstep
      exact exec_cons_eq_some.mpr ⟨s₁.toState, hprocess, ih hI' hrest⟩

end GainComponent

/-! ### The calls -/

namespace PanningCalculator

variable (math : CMath K)

/-- `PanningCalculator::setListenerPosition()`. -/
def setListenerPosition (listener : ListenerPosition K) (s : PanningCalculator K) :
    PanningCalculator K :=
  { s with
    vbapCalculator :=
      VBAP.setListenerPosition math.sqrt s.vbapCalculator ⟨listener.x, listener.y, listener.z⟩ }

/-- `PanningCalculator::process()`. -/
def process (s : GainComponent K (PanningCalculator K) (GainColumns K)) :
    Except Abort (GainComponent K (PanningCalculator K) (GainColumns K)) :=
  let listenerPosChanged :=
    s.calculator.adaptiveListenerPosition && s.listenerPositionInput.changed
  let s :=
    if listenerPosChanged = true then
      { s with
        calculator := s.calculator.setListenerPosition math s.listenerPositionInput.data
        listenerPositionInput := s.listenerPositionInput.resetChanged }
    else s
  if s.objectVectorInput.changed = true then
    (s.calculator.processObjects math s.objectVectorInput.data).map fun gains =>
      { s with gainOutput := gains, objectVectorInput := s.objectVectorInput.resetChanged }
  else .ok s

/-- The abstract component: the gains are not calculated if `processObjects` fails. -/
def system : System (ObjectVector K) (ListenerPosition K) (PanningCalculator K)
    (GainColumns K) where
  configure := setListenerPosition math
  compute s objects := (s.processObjects math objects).toOption

theorem overwrites_system : (system math).Overwrites := by
  intro listener listener' s
  show { s with vbapCalculator := VBAP.setListenerPosition _ (VBAP.setListenerPosition _ _ _) _ } = _
  rw [VBAP.setListenerPosition_idem]
  rfl

/-- **The component** with an input for the listener position. -/
theorem process_toState (s s' : GainComponent K (PanningCalculator K) (GainColumns K))
    (hadaptive : s.calculator.adaptiveListenerPosition = true)
    (h : (process math s).toOption = some s') :
    s'.calculator.adaptiveListenerPosition = true ∧
      Recalculation.process (system math) s.toState = some s'.toState := by
  obtain ⟨calculator, ⟨objects, objectsChanged⟩, ⟨listener, listenerChanged⟩, gainOutput⟩ := s
  have hmap : ∀ (c : PanningCalculator K) (i : InputBase (ListenerPosition K)),
      c.adaptiveListenerPosition = true →
      ((c.processObjects math objects).map fun gains =>
        (⟨c, ⟨objects, false⟩, i, gains⟩ :
          GainComponent K (PanningCalculator K) (GainColumns K))).toOption = some s' →
      s'.calculator.adaptiveListenerPosition = true ∧
        ((c.processObjects math objects).toOption.map fun gains =>
          (⟨⟨objects, false⟩, i, c, gains⟩ : State (ObjectVector K) (ListenerPosition K)
            (PanningCalculator K) (GainColumns K))) = some s'.toState := by
    intro c i hc hok
    cases hgains : c.processObjects math objects with
    | error e =>
      rw [hgains] at hok
      cases hok
    | ok gains =>
      rw [hgains] at hok
      cases hok
      exact ⟨hc, rfl⟩
  -- the listener position comes first, and the gains are computed for changed objects only
  unfold process at h
  dsimp only at h hadaptive
  rw [hadaptive, Bool.true_and] at h
  cases listenerChanged with
  | true =>
    cases objectsChanged with
    | true => exact hmap (calculator.setListenerPosition math listener) ⟨listener, false⟩ hadaptive h
    | false =>
      cases h
      exact ⟨hadaptive, rfl⟩
  | false =>
    cases objectsChanged with
    | true => exact hmap calculator ⟨listener, false⟩ hadaptive h
    | false =>
      cases h
      exact ⟨hadaptive, rfl⟩

end PanningCalculator

namespace CAPGainCalculator

variable (math : CMath K)

def setListenerPosition (listener : ListenerPosition K) (s : CAPGainCalculator K) :
    CAPGainCalculator K :=
  { s with
    capCalculator :=
      (s.capCalculator.setListenerPosition listener.x listener.y
        listener.z).setListenerOrientation math listener.yaw listener.pitch listener.roll
    vbipCalculator := s.vbipCalculator.map fun vbipCalculator =>
      vbipCalculator.setListenerPosition math listener.x listener.y listener.z }

/-- `CAPGainCalculator::process()`.  The flag of the listener position has been reset when it is
tested. -/
def process (s : GainComponent K (CAPGainCalculator K) (Gains K)) :
    GainComponent K (CAPGainCalculator K) (Gains K) :=
  let s :=
    if s.listenerPositionInput.changed = true then
      { s with
        calculator := s.calculator.setListenerPosition math s.listenerPositionInput.data
        listenerPositionInput := s.listenerPositionInput.resetChanged }
    else s
  let s :=
    if (s.objectVectorInput.changed || s.listenerPositionInput.changed) = true then
      { s with gainOutput := s.calculator.gains math s.objectVectorInput.data }
    else s
  if s.objectVectorInput.changed = true then
    { s with objectVectorInput := s.objectVectorInput.resetChanged }
  else s

/-- The abstract component, which never fails. -/
def system : System (ObjectVector K) (ListenerPosition K) (CAPGainCalculator K) (Gains K) where
  configure := setListenerPosition math
  compute s objects := some (s.gains math objects)

theorem overwrites_system : (system math).Overwrites := by
  intro listener listener' s
  show { s with
    capCalculator := _
    vbipCalculator := (s.vbipCalculator.map _).map _ } = _
  cases hvbip : s.vbipCalculator with
  | none =>
    show _ = setListenerPosition math listener s
    unfold setListenerPosition
    rw [hvbip]
    rfl
  | some vbipCalculator =>
    show _ = setListenerPosition math listener s
    unfold setListenerPosition
    rw [hvbip]
    dsimp only [Option.map_some]
    rw [CAP_VBAP.setListenerPosition_idem]
    rfl

/-- **The component.** -/
theorem process_toState (s : GainComponent K (CAPGainCalculator K) (Gains K)) :
    Recalculation.process (system math) s.toState = some (process math s).toState := by
  obtain ⟨calculator, ⟨objects, objectsChanged⟩, ⟨listener, listenerChanged⟩, gainOutput⟩ := s
  cases listenerChanged with
  | true =>
    cases objectsChanged with
    | true => rfl
    | false => rfl
  | false =>
    cases objectsChanged with
    | true => rfl
    | false => rfl

end CAPGainCalculator

/-! ### The gains -/

/-- The calculator for the listener position that was received last, if there was one. -/
def configuredFor {C : Type} (setListenerPosition : ListenerPosition K → C → C) (c : C)
    (events : List (GainComponent.Event K)) : C :=
  match latest Event.second? events with
  | some listener => setListenerPosition listener c
  | none => c

omit [Field K] [LinearOrder K] in
theorem configured_eq_configuredFor {C R : Type}
    (sys : System (ObjectVector K) (ListenerPosition K) C R) (c : C)
    (events : List (GainComponent.Event K)) :
    configured sys c (latest Event.second? events) = configuredFor sys.configure c events := by
  unfold configuredFor
  cases latest Event.second? events with
  | none => rfl
  | some listener => rfl

/-- **The gains are those of the current inputs** after each call, if no call has found a new
listener position without a new object vector, unless no object vector was received so far. -/
theorem gains_follow (math : CMath K) (events : List (GainComponent.Event K))
    (htimely : Timely (events ++ [.process])) (objects : ObjectVector K)
    (hobjects : latest Event.first? events = some objects) :
    (∀ s₀ s : GainComponent K (PanningCalculator K) (GainColumns K),
      s₀.calculator.adaptiveListenerPosition = true →
      s₀.objectVectorInput.changed = false → s₀.listenerPositionInput.changed = false →
      exec (GainComponent.step fun s => (PanningCalculator.process math s).toOption)
        (events ++ [.process]) s₀ = some s →
      (configuredFor (PanningCalculator.setListenerPosition math) s₀.calculator
        events).processObjects math objects = .ok s.gainOutput) ∧
    ∀ s₀ s : GainComponent K (CAPGainCalculator K) (CAPGainCalculator.Gains K),
      s₀.objectVectorInput.changed = false → s₀.listenerPositionInput.changed = false →
      exec (GainComponent.step fun s => some (CAPGainCalculator.process math s))
        (events ++ [.process]) s₀ = some s →
      (configuredFor (CAPGainCalculator.setListenerPosition math) s₀.calculator events).gains math
        objects = s.gainOutput := by
  constructor
  · -- both components go through the states of one system, which overwrites its result
    intro s₀ s hadaptive hfirst hsecond hexec
    have hstate := GainComponent.exec_toState
      (I := fun c : PanningCalculator K => c.adaptiveListenerPosition = true)
      (PanningCalculator.process_toState math) hadaptive hexec
    have hresult := exec_result (PanningCalculator.overwrites_system math) hfirst hsecond htimely
      hstate hobjects
    rw [configured_eq_configuredFor] at hresult
    exact toOption_eq_some hresult
  · intro s₀ s hfirst hsecond hexec
    have hstate := GainComponent.exec_toState (I := fun _ => True)
      (fun s s' _ h => ⟨trivial, Option.some.inj h ▸ CAPGainCalculator.process_toState math s⟩)
      trivial hexec
    have hresult := exec_result (CAPGainCalculator.overwrites_system math) hfirst hsecond htimely
      hstate hobjects
    rw [configured_eq_configuredFor] at hresult
    exact Option.some.inj hresult

/-! ### Three loudspeakers -/

/-- Exact square roots of rational squares; there are no angles. -/
def rationalMath : CMath ℚ := ⟨Rat.sqrt, fun _ => 1, fun _ => 0, 0⟩

/-- A calculator for one object and three loudspeakers on the axes. -/
def axesCalculator : PanningCalculator ℚ where
  numberOfObjects := 1
  adaptiveListenerPosition := true
  numberOfRegularLoudspeakers := 3
  vbapCalculator := VBAP.setListenerPosition Rat.sqrt {
    is2D := false
    numTotLoudspeakers := 3
    numRegLoudspeakers := 3
    numVirtLoudspeakers := 0
    positions := fun i => if i = 0 then ⟨4, 0, 0⟩ else if i = 1 then ⟨0, 3, 0⟩ else ⟨0, 0, 12⟩
    triplets := [(0, 1, 2)]
    reroutingMatrix := fun _ _ => 0
    listenerPos := ⟨0, 0, 0⟩
    invMatrix := fun _ _ => 0 } ⟨0, 0, 0⟩
  panningMode := fun band => decide (band = .lf)
  normalisation := fun _ => ⟨.Amplitude, PanningCalculator.Normalisation.amplitude_ne_default⟩
  labelLookup := OrderedMap.empty
  labelLookup_lt := nofun

/-- The component with this calculator, before anything was received. -/
def axesComponent : GainComponent ℚ (PanningCalculator ℚ) (GainColumns ℚ) where
  calculator := axesCalculator
  objectVectorInput := ⟨ObjectVector.empty, false⟩
  listenerPositionInput := ⟨⟨0, 0, 0, 0, 0, 0⟩, false⟩
  gainOutput := fun _ _ => some 0

/-- The component for compensated amplitude panning with one loudspeaker. -/
def capComponent : GainComponent ℚ (CAPGainCalculator ℚ) (CAPGainCalculator.Gains ℚ) where
  calculator := {
    numberOfObjects := 1
    numberOfLoudspeakers := 1
    capCalculator := {
      array := {
        is2D := true
        isInfinite := false
        numberOfSpeakers := 1
        position := fun _ => ⟨1, 0, 0, false⟩
        triplet := []
        channel := [0]
        id := OrderedMap.empty.insert "L" 0
        subwooferChannels := []
        subwooferGains := fun _ _ => 0
        reRoutingCoeff := fun _ _ => 0
        gainAdjustment := fun _ => 1
        delayAdjustment := fun _ => 0
        outputEqs := none }
      listenerPos := ⟨0, 0, 0⟩
      listenerAuralAxis := ⟨1, 0, 0⟩
      nSources := 1
      maxGainPreComp := 3 / 2
      maxGain := 10
      HFmode := false }
    vbipCalculator := none }
  objectVectorInput := ⟨ObjectVector.empty, false⟩
  listenerPositionInput := ⟨⟨0, 0, 0, 0, 0, 0⟩, false⟩
  gainOutput := ⟨fun _ _ => 0, none⟩

/-- A point source. -/
def onePointSource : ObjectVector ℚ :=
  ObjectVector.empty.insert (.pointSource {
    id := 0
    groupId := 0
    level := 1
    priority := 0
    channelIndices := [0]
    eqCoefficients := []
    x := 1
    y := 1
    z := 1
    channelLockDistance := 0 })

def awayFromOrigin : ListenerPosition ℚ := ⟨4, 3, 0, 0, 0, 0⟩

/-- The gain of the first loudspeaker. -/
def firstGain (gains : Except Abort (GainColumns ℚ)) : Option ℚ :=
  match gains with
  | .ok gains => gains (.lf, 0) 0
  | .error _ => none

theorem firstGain_origin :
    firstGain (axesCalculator.processObjects rationalMath onePointSource) = some (1 / 3) := by
  decide +kernel

theorem firstGain_away :
    firstGain ((axesCalculator.setListenerPosition rationalMath awayFromOrigin).processObjects
      rationalMath onePointSource) = some (7 / 22) := by
  decide +kernel

/-- The object vector and the listener position arrive between the same calls. -/
theorem timely_together (objects : ObjectVector ℚ) (listener : ListenerPosition ℚ) :
    Timely ([.first objects, .second listener] ++ [.process]) := by
  intro past later heq _
  match past with
  | [] => cases heq
  | [_] => cases heq
  | [_, _] =>
    cases heq
    exact Or.inl rfl
  | _ :: _ :: _ :: past =>
    have hlength := congrArg List.length heq
    simp only [List.length_append, List.length_cons, List.length_nil] at hlength
    omega

/-- There are gains if the first loudspeaker has one. -/
theorem exists_ok_of_firstGain {gains : Except Abort (GainColumns ℚ)} {gain : ℚ}
    (h : firstGain gains = some gain) : ∃ columns, gains = .ok columns := by
  cases gains with
  | error e => cases h
  | ok columns => exact ⟨columns, rfl⟩

/-- The gains are those of the current inputs after a call that finds both of them. -/
theorem gains_follow_together :
    (∃ s, exec (GainComponent.step fun s => (PanningCalculator.process rationalMath s).toOption)
        ([.first onePointSource, .second awayFromOrigin] ++ [.process]) axesComponent = some s ∧
      (axesCalculator.setListenerPosition rationalMath awayFromOrigin).processObjects rationalMath
        onePointSource = .ok s.gainOutput) ∧
    ∃ s, exec (GainComponent.step fun s => some (CAPGainCalculator.process rationalMath s))
        ([.first onePointSource, .second awayFromOrigin] ++ [.process]) capComponent = some s ∧
      (capComponent.calculator.setListenerPosition rationalMath awayFromOrigin).gains rationalMath
        onePointSource = s.gainOutput := by
  have hboth := gains_follow rationalMath [.first onePointSource, .second awayFromOrigin]
    (timely_together onePointSource awayFromOrigin) onePointSource rfl
  obtain ⟨gains, hgains⟩ := exists_ok_of_firstGain firstGain_away
  have hexec : exec
      (GainComponent.step fun s => (PanningCalculator.process rationalMath s).toOption)
      ([.first onePointSource, .second awayFromOrigin] ++ [.process]) axesComponent =
      some ⟨axesCalculator.setListenerPosition rationalMath awayFromOrigin,
        ⟨onePointSource, false⟩, ⟨awayFromOrigin, false⟩, gains⟩ := by
    show Option.bind (Except.toOption (Except.map _
      ((axesCalculator.setListenerPosition rationalMath awayFromOrigin).processObjects rationalMath
        onePointSource))) _ = _
    rw [hgains]
    rfl
  exact ⟨⟨_, hexec, hboth.1 axesComponent _ rfl rfl rfl hexec⟩,
    _, rfl, hboth.2 capComponent _ rfl rfl rfl⟩

/-- A listener position that arrives alone does not lead to new gains. -/
theorem not_gains_follow_alone :
    ∃ s, exec (GainComponent.step fun s => (PanningCalculator.process rationalMath s).toOption)
        ([.first onePointSource, .process, .second awayFromOrigin] ++ [.process]) axesComponent =
          some s ∧
      (axesCalculator.setListenerPosition rationalMath awayFromOrigin).processObjects rationalMath
        onePointSource ≠ .ok s.gainOutput := by
  obtain ⟨gains, hgains⟩ := exists_ok_of_firstGain firstGain_origin
  have hexec : exec
      (GainComponent.step fun s => (PanningCalculator.process rationalMath s).toOption)
      ([.first onePointSource, .process, .second awayFromOrigin] ++ [.process]) axesComponent =
      some ⟨axesCalculator.setListenerPosition rationalMath awayFromOrigin,
        ⟨onePointSource, false⟩, ⟨awayFromOrigin, false⟩, gains⟩ := by
    show Option.bind (Except.toOption (Except.map _
      (axesCalculator.processObjects rationalMath onePointSource))) _ = _
    rw [hgains]
    rfl
  refine ⟨_, hexec, fun hsame => ?_⟩
  have horigin := firstGain_origin
  have haway := firstGain_away
  rw [hgains] at horigin
  rw [hsame, show firstGain (.ok gains) = some (1 / 3) from horigin] at haway
  have hne : (1 / 3 : ℚ) ≠ 7 / 22 := by decide +kernel
  exact hne (Option.some.inj haway)

end Visr
