import Mathlib.Algebra.BigOperators.Fin
import Visr.Librbbl.MultichannelDelayLine
import Visr.Librbbl.CoreConvolverUniform
import Visr.Librcl.ParameterTransition
import Visr.Library.Execution

/-!
# Delay vectors and delay matrices

Two components apply delays and gains that change smoothly: one to each of its channels, and
one to each pair of an input and an output.  They share all but the shape of their parameters
and the way in which the delayed signals make up the outputs.
-/

namespace Visr

variable {K : Type}

structure BasicVector (K : Type) where
  size : ℕ
  data : ℕ → K

/-- A component with one delay and one gain for each entry.  The outputs are collected from
the signals of the entries, in the order of the loops of the source. -/
structure DelayLayout (K : Type) where
  className : String
  Entry : Type
  Parameter : Type
  /-- The values of a parameter of the right size. -/
  entries : Parameter → Option (Entry → K)
  numberOfInputs : ℕ
  inputChannel : Entry → Fin numberOfInputs
  collect : (Entry → Except Exception (ℕ → K)) → Except Exception (List (ℕ → K))
  /-- The outputs if no signal fails. -/
  assemble : (Entry → ℕ → K) → List (ℕ → K)
  collect_ok : ∀ signal values, (∀ entry, signal entry = .ok (values entry)) →
    collect signal = .ok (assemble values)

theorem mapM_ok {ε α β : Type} {f : α → Except ε β} {g : α → β} (l : List α)
    (h : ∀ a, f a = .ok (g a)) : l.mapM f = .ok (l.map g) := by
  induction l with
  | nil => rfl
  | cons a l ih =>
    rw [List.mapM_cons, h a, ih]
    rfl

theorem foldlM_add_ok [AddCommMonoid K] {ε α : Type} {f : α → Except ε (ℕ → K)}
    {g : α → ℕ → K} (l : List α) (h : ∀ a, f a = .ok (g a)) (acc : ℕ → K) :
    l.foldlM (fun acc a => (f a).map fun tmpResult => acc + tmpResult) acc =
      .ok (acc + (l.map g).sum) := by
  induction l generalizing acc with
  | nil => simp [pure, Except.pure]
  | cons a l ih =>
    rw [List.foldlM_cons, h a]
    show List.foldlM _ (acc + g a) l = _
    rw [ih, List.map_cons, List.sum_cons, add_assoc]

/-- The channels of a delay vector have one entry each. -/
def DelayVector.layout (K : Type) (numberOfChannels : ℕ) : DelayLayout K where
  className := "DelayVector"
  Entry := Fin numberOfChannels
  Parameter := BasicVector K
  entries newValues :=
    if newValues.size ≠ numberOfChannels then none else some fun chIdx => newValues.data chIdx
  numberOfInputs := numberOfChannels
  inputChannel chIdx := chIdx
  collect signal := (List.finRange numberOfChannels).mapM signal
  assemble values := (List.finRange numberOfChannels).map values
  collect_ok _ _ h := mapM_ok _ h

/-- The entries of a delay matrix are pairs of an output and an input.  An output is the sum of
its delayed inputs. -/
def DelayMatrix.layout (K : Type) [AddCommMonoid K] (numberOfOutputs numberOfInputs : ℕ) :
    DelayLayout K where
  className := "DelayMatrix"
  Entry := Fin numberOfOutputs × Fin numberOfInputs
  Parameter := BasicMatrix K
  entries newValues :=
    if newValues.numberOfRows ≠ numberOfOutputs ∨ newValues.numberOfColumns ≠ numberOfInputs
    then none
    else some fun entry => newValues.data entry.1 entry.2
  numberOfInputs := numberOfInputs
  inputChannel entry := entry.2
  collect signal := (List.finRange numberOfOutputs).mapM fun outIdx =>
    (List.finRange numberOfInputs).foldlM (fun outChannel inIdx =>
      (signal (outIdx, inIdx)).map fun tmpResult => outChannel + tmpResult) 0
  assemble values := (List.finRange numberOfOutputs).map fun outIdx =>
    ((List.finRange numberOfInputs).map fun inIdx => values (outIdx, inIdx)).sum
  collect_ok signal values h := mapM_ok _ fun outIdx => by
    rw [foldlM_add_ok (g := fun inIdx => values (outIdx, inIdx)) _ fun inIdx => h (outIdx, inIdx),
      zero_add]

/-- The two components with parameter transitions. -/
inductive DelayKind
  | delayVector (numberOfChannels : ℕ)
  | delayMatrix (numberOfOutputs numberOfInputs : ℕ)

def DelayKind.layout (K : Type) [AddCommMonoid K] : DelayKind → DelayLayout K
  | .delayVector numberOfChannels => DelayVector.layout K numberOfChannels
  | .delayMatrix numberOfOutputs numberOfInputs =>
    DelayMatrix.layout K numberOfOutputs numberOfInputs

/-- The parameter inputs of a component. -/
inductive ControlPortConfig
  | None
  | Delay
  | Gain
  | All
  deriving DecidableEq, Repr

def ControlPortConfig.hasGain : ControlPortConfig → Bool
  | None => false
  | Delay => false
  | Gain => true
  | All => true

def ControlPortConfig.hasDelay : ControlPortConfig → Bool
  | None => false
  | Delay => true
  | Gain => false
  | All => true

/-- The arguments of `setup()` and the context of the component. -/
structure DelaySetup (K : Type) where
  period : ℕ
  period_pos : 0 < period
  samplingFrequency : ℕ
  interpolationSteps : ℕ
  maximumDelaySeconds : K
  interpolationMethod : String
  methodDelayPolicy : MethodDelayPolicy
  controlInputs : ControlPortConfig

def DelaySetup.interpolationBlocks (q : DelaySetup K) : ℕ := q.interpolationSteps / q.period

/-- A component after setup. -/
structure DelayComponent (L : DelayLayout K) (q : DelaySetup K) where
  gains : ParameterTransition L.Entry K q.interpolationBlocks
  delays : ParameterTransition L.Entry K q.interpolationBlocks
  delayLine : MultichannelDelayLine K

namespace DelayComponent

variable [Field K] [LinearOrder K] [FloorRing K] {L : DelayLayout K} {q : DelaySetup K}

def setup (L : DelayLayout K) (q : DelaySetup K) (initialDelays initialGains : L.Entry → K) :
    Except Exception (DelayComponent L q) :=
  if q.interpolationSteps % q.period ≠ 0 then
    .error (.invalidArgument (L.className ++ "::setup(): The parameter interpolationSteps must " ++
      "be a nonzero multiple of the processing block size."))
  else if q.interpolationBlocks < 1 then
    .error (.invalidArgument (L.className ++ "::setup(): The parameter interpolationSteps must " ++
      "be greater or equal than the block size."))
  else do
    let delayLine ← MultichannelDelayLine.create L.numberOfInputs q.samplingFrequency q.period
      q.period_pos q.maximumDelaySeconds q.interpolationMethod q.methodDelayPolicy
      cVectorAlignmentSamples
    pure
      { gains := ParameterTransition.initial q.interpolationBlocks initialGains
        delays := ParameterTransition.initial q.interpolationBlocks initialDelays
        delayLine := delayLine }

def setDelay (s : DelayComponent L q) (newDelays : L.Parameter) :
    Except Exception (DelayComponent L q) :=
  match L.entries newDelays with
  | none =>
    .error (.invalidArgument (L.className ++ "::setDelay(): The number of elements in the " ++
      "argument does not match the number of channels."))
  | some values =>
    let ratio := (s.delays.interpolationCounter : K) / q.interpolationBlocks
    .ok { s with delays := s.delays.set ratio values }

/-- The ratio is the complement of what remains of the transition. -/
def setGain (s : DelayComponent L q) (newGains : L.Parameter) :
    Except Exception (DelayComponent L q) :=
  match L.entries newGains with
  | none =>
    .error (.invalidArgument (L.className ++ "::setGain(): The number of elements in the " ++
      "argument does not match the number of channels."))
  | some values =>
    let ratio := 1 - ((q.interpolationBlocks - s.gains.interpolationCounter : ℕ) : K) /
      q.interpolationBlocks
    .ok { s with gains := s.gains.set ratio values }

def setDelayAndGain (s : DelayComponent L q) (newDelays newGains : L.Parameter) :
    Except Exception (DelayComponent L q) := do
  let s ← s.setDelay newDelays
  s.setGain newGains

/-- The gain input, if there is one and it has changed. -/
def receiveGain (s : DelayComponent L q) (gainInput : Option L.Parameter) :
    Except Exception (DelayComponent L q) :=
  match q.controlInputs.hasGain, gainInput with
  | true, some newGains => s.setGain newGains
  | _, _ => .ok s

/-- The delay input, if there is one and it has changed. -/
def receiveDelay (s : DelayComponent L q) (delayInput : Option L.Parameter) :
    Except Exception (DelayComponent L q) :=
  match q.controlInputs.hasDelay, delayInput with
  | true, some newDelays => s.setDelay newDelays
  | _, _ => .ok s

/-- One block.  The second result are the output signals. -/
def process (s : DelayComponent L q) (input : ℕ → ℕ → K)
    (gainInput delayInput : Option L.Parameter) :
    Except Exception (DelayComponent L q × List (ℕ → K)) := do
  let s ← s.receiveGain gainInput
  let s ← s.receiveDelay delayInput
  let delayLine ← s.delayLine.write input L.numberOfInputs
  let output ← L.collect fun entry =>
    delayLine.interpolate (L.inputChannel entry) q.period (s.delays.startValue entry)
      (s.delays.endValue entry) (s.gains.startValue entry) (s.gains.endValue entry)
  pure (⟨s.gains.advance, s.delays.advance, delayLine⟩, output)

end DelayComponent

end Visr
