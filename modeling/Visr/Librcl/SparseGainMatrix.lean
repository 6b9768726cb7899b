import Mathlib.Algebra.BigOperators.Group.List.Basic
import Visr.Libpml.InputBase
import Visr.Librbbl.GainMatrix
import Visr.Librbbl.SparseGainRouting
import Visr.Librcl.MessageLoop

/-!
# Sparse gain matrices

A matrix that has gains at some routing points only.  Lists of routing points and vectors of
gains arrive at different ports.  Both start a transition from the gains before.

## Main results

* `SparseGainMatrix.process_refused` — what a call does if it finds such a list.
* `SparseGainMatrix.asIntended_iff` — **which runs are as intended**.
-/

namespace Visr

variable {K : Type}

/-- The component.  The ports for the routing list, the routing points and the gains depend on the
configuration. -/
structure SparseGainMatrix (K : Type) where
  fullName : String
  numberOfInputs : ℕ
  numberOfOutputs : ℕ
  numRoutingPoints : ℕ
  previousGains : ℕ → K
  nextGains : ℕ → K
  routings : SparseGainRoutingList K
  rampIndex : ℕ
  gainRamp : GainFader K
  routingListInput : Option (InputBase (SparseGainRoutingList K))
  routingPointInput : Option (List (SparseGainRouting K))
  /-- The vector has an element for each routing point. -/
  gainInput : Option (InputBase (ℕ → K))

namespace SparseGainMatrix

/-- The value of a port, if there is a new one. -/
def pending {V : Type} : Option (InputBase V) → Option V
  | some ⟨data, true⟩ => some data
  | _ => none

/-! ### The routing points -/

/-- The checks of a routing point. -/
def check (s : SparseGainMatrix K) (r : SparseGainRouting K) : Except Exception Unit :=
  if r.entryIndex ≥ s.numRoutingPoints then
    .error (status s.fullName ("Entry index '" ++ toString r.entryIndex ++
      "' exceeds number of routing points (" ++ toString s.numRoutingPoints ++ ")."))
  else if r.rowIndex ≥ s.numberOfOutputs then
    .error (status s.fullName ("Row index '" ++ toString r.rowIndex ++
      "' exceeds number of output channels (" ++ toString s.numberOfOutputs ++ ")."))
  else if r.columnIndex ≥ s.numberOfInputs then
    .error (status s.fullName ("Column index '" ++ toString r.columnIndex ++
      "' exceeds number of input channels (" ++ toString s.numberOfInputs ++ ")."))
  else .ok ()

/-- The loop over the routing points, which may end with some of the gains written. -/
def writeGains (s : SparseGainMatrix K) :
    List (SparseGainRouting K) → (ℕ → K) → (ℕ → K) × Except Exception Unit
  | [], gains => (gains, .ok ())
  | r :: newRoutings, gains =>
    match s.check r with
    | .error e => (gains, .error e)
    | .ok _ => s.writeGains newRoutings (Function.update gains r.entryIndex r.gain)

def setRoutings (s : SparseGainMatrix K) (newRoutings : SparseGainRoutingList K) :
    SparseGainMatrix K × Except Exception Unit :=
  match s.writeGains newRoutings.toList s.nextGains with
  | (gains, .error e) => ({ s with nextGains := gains }, .error e)
  | (gains, .ok _) => ({ s with nextGains := gains, routings := newRoutings }, .ok ())

/-! ### The calls -/

/-- Both gain vectors are exchanged. -/
def swapGains (s : SparseGainMatrix K) : SparseGainMatrix K :=
  { s with previousGains := s.nextGains, nextGains := s.previousGains }

/-- The constructor, with a flag for each of the control ports. -/
def create [Field K] (fullName : String) (period : ℕ) (hperiod : 0 < period)
    (numberOfInputs numberOfOutputs interpolationSteps maxRoutingPoints : ℕ)
    (initialRoutings : SparseGainRoutingList K)
    (routingPointsPort routingListPort gainPort : Bool) :
    Except Exception (SparseGainMatrix K) := do
  let gainRamp ← GainFader.create period hperiod interpolationSteps cVectorAlignmentSamples
  let s : SparseGainMatrix K :=
    { fullName := fullName
      numberOfInputs := numberOfInputs
      numberOfOutputs := numberOfOutputs
      numRoutingPoints := maxRoutingPoints
      previousGains := fun _ => 0
      nextGains := fun _ => 0
      routings := KeyedSet.empty
      rampIndex := 0
      gainRamp := gainRamp
      routingListInput := if routingListPort then some ⟨KeyedSet.empty, false⟩ else none
      routingPointInput := if routingPointsPort then some [] else none
      gainInput := if gainPort then some ⟨fun _ => 0, false⟩ else none }
  match s.setRoutings initialRoutings with
  | (_, .error e) => .error e
  | (s, .ok _) => .ok s

/-- The gains are swapped before the list is checked, and the input is reset after that. -/
def receiveRoutings (s : SparseGainMatrix K) : SparseGainMatrix K × Except Exception Unit :=
  match pending s.routingListInput with
  | none => (s, .ok ())
  | some newRoutings =>
    match s.swapGains.setRoutings newRoutings with
    | (s, .error e) => (s, .error e)
    | (s, .ok _) =>
      ({ s with
        rampIndex := 0
        routingListInput := s.routingListInput.map .resetChanged }, .ok ())

/-- Single routing points are taken from the queue and not used. -/
def receiveRoutingPoints (s : SparseGainMatrix K) : SparseGainMatrix K :=
  { s with routingPointInput := s.routingPointInput.map fun _ => [] }

/-- The next gains, which are swapped with the previous ones, are replaced. -/
def receiveGains (s : SparseGainMatrix K) : SparseGainMatrix K :=
  match pending s.gainInput with
  | none => s
  | some newGains =>
    { s with
      previousGains := s.nextGains
      nextGains := newGains
      rampIndex := 0
      gainInput := s.gainInput.map .resetChanged }

/-- The outputs are cleared, and the routing points are added. -/
def mix [Field K] (s : SparseGainMatrix K) (input output : ℕ → ℕ → K) : ℕ → ℕ → K :=
  s.routings.toList.foldl
    (fun result r => Function.update result r.rowIndex
      (s.gainRamp.scaleAndAccumulate (input r.columnIndex) (result r.rowIndex)
        (s.previousGains r.entryIndex) (s.nextGains r.entryIndex) s.rampIndex))
    fun outIdx idx =>
      if outIdx < s.numberOfOutputs ∧ idx < s.gainRamp.blockSize then 0 else output outIdx idx

def advance (s : SparseGainMatrix K) : SparseGainMatrix K :=
  { s with rampIndex := min (s.rampIndex + 1) s.gainRamp.interpolationPeriods }

/-- What an exception leaves behind is kept. -/
def process [Field K] (s : SparseGainMatrix K) (input output : ℕ → ℕ → K) :
    SparseGainMatrix K × Except Exception (ℕ → ℕ → K) :=
  match s.receiveRoutings with
  | (s, .error e) => (s, .error e)
  | (s, .ok _) =>
    let s := s.receiveRoutingPoints.receiveGains
    (s.advance, .ok (s.mix input output))

/-- What arrives at the ports, and the calls. -/
inductive Event (K : Type)
  | routingList (newRoutings : SparseGainRoutingList K)
  | routingPoint (r : SparseGainRouting K)
  | gains (newGains : ℕ → K)
  | process (input output : ℕ → ℕ → K)

/-- A value arrives at a port, if there is one. -/
def send [Field K] (s : SparseGainMatrix K) : Event K → SparseGainMatrix K
  | .routingList newRoutings =>
    { s with routingListInput := s.routingListInput.map fun p => p.receive newRoutings }
  | .routingPoint r => { s with routingPointInput := s.routingPointInput.map fun l => l ++ [r] }
  | .gains newGains => { s with gainInput := s.gainInput.map fun p => p.receive newGains }
  | .process input output => (s.process input output).1

/-! ### What is commanded -/

/-- The current routing points, the gains last commanded and the number of samples since then. -/
structure Commanded (K : Type) where
  routings : SparseGainRoutingList K
  gain : ℕ → K
  elapsed : ℕ

namespace Commanded

/-- A routing list commands the gains of its points. -/
def setRoutings (c : Commanded K) (newRoutings : SparseGainRoutingList K) : Commanded K where
  routings := newRoutings
  gain entryIdx := ((newRoutings.find? entryIdx).map SparseGainRouting.gain).getD (c.gain entryIdx)
  elapsed := 0

theorem gain_setRoutings (c : Commanded K) {newRoutings : SparseGainRoutingList K}
    {r : SparseGainRouting K} (hr : r ∈ newRoutings.toList) :
    (c.setRoutings newRoutings).gain r.entryIndex = r.gain := by
  show ((newRoutings.find? r.entryIndex).map SparseGainRouting.gain).getD _ = r.gain
  have hfind : newRoutings.find? r.entryIndex = some r :=
    KeyedSet.find?_eq_some_iff.mpr ⟨hr, rfl⟩
  rw [hfind]
  rfl

/-- A gain vector commands all gains. -/
def setGains (c : Commanded K) (newGains : ℕ → K) : Commanded K :=
  { c with gain := newGains, elapsed := 0 }

/-- What is new at the ports, where the routing list comes first. -/
def receive (c : Commanded K) (newRoutings : Option (SparseGainRoutingList K))
    (newGains : Option (ℕ → K)) : Commanded K :=
  let c := newRoutings.elim c c.setRoutings
  newGains.elim c c.setGains

def advance (c : Commanded K) (n : ℕ) : Commanded K := { c with elapsed := c.elapsed + n }

/-- Without gains, a routing list is commanded. -/
def initial [Zero K] (initialRoutings : SparseGainRoutingList K) : Commanded K :=
  setRoutings ⟨KeyedSet.empty, fun _ => 0, 0⟩ initialRoutings

end Commanded

/-! ### What is intended -/

/-- All indices of a routing point are in range. -/
def InRange (s : SparseGainMatrix K) (r : SparseGainRouting K) : Prop :=
  r.entryIndex < s.numRoutingPoints ∧ r.rowIndex < s.numberOfOutputs ∧
    r.columnIndex < s.numberOfInputs

/-- There is a new routing list that names an index out of range. -/
def Refused (s : SparseGainMatrix K) : Prop :=
  ∃ newRoutings, pending s.routingListInput = some newRoutings ∧
    ∃ r ∈ newRoutings.toList, ¬s.InRange r

variable [Field K]

/-- A call reports an error and changes neither the routing points nor the gains nor the position
of the ramp.  The error is not reported again by another call. -/
def RejectedOnce (s : SparseGainMatrix K) (input output : ℕ → ℕ → K) : Prop :=
  (∃ message, (s.process input output).2 = .error (status s.fullName message)) ∧
    (s.process input output).1.routings = s.routings ∧
    (∀ entryIdx < s.numRoutingPoints,
      (s.process input output).1.previousGains entryIdx = s.previousGains entryIdx ∧
        (s.process input output).1.nextGains entryIdx = s.nextGains entryIdx) ∧
    (s.process input output).1.rampIndex = s.rampIndex ∧
    ∀ nextInput nextOutput, ∃ result,
      ((s.process input output).1.process nextInput nextOutput).2 = .ok result

/-- From the last sample of the transition on, each output is the sum over its routing points of
the commanded gain times the input. -/
def Converged (interpolationSteps numberOfOutputs blockSize : ℕ) (c : Commanded K)
    (input result : ℕ → ℕ → K) : Prop :=
  ∀ outIdx < numberOfOutputs, ∀ idx < blockSize, interpolationSteps ≤ c.elapsed + idx + 1 →
    result outIdx idx = ((c.routings.toList.filter fun r => r.rowIndex = outIdx).map fun r =>
      c.gain r.entryIndex * input r.columnIndex idx).sum

/-- **A run in which lists are rejected atomically and the outputs converge.** -/
def AsIntended (interpolationSteps : ℕ) (s : SparseGainMatrix K) (c : Commanded K) :
    List (Event K) → Prop
  | [] => True
  | .process input output :: events =>
    let received :=
      c.receive (pending s.routingListInput) (pending s.gainInput)
    (s.Refused → s.RejectedOnce input output ∧
      AsIntended interpolationSteps (s.send (.process input output)) c events) ∧
    (¬s.Refused → (∃ result, (s.process input output).2 = .ok result ∧
        Converged interpolationSteps s.numberOfOutputs s.gainRamp.blockSize received input result) ∧
      AsIntended interpolationSteps (s.send (.process input output))
        (received.advance s.gainRamp.blockSize) events)
  | event :: events => AsIntended interpolationSteps (s.send event) c events

/-- No call finds a routing list that names an index out of range. -/
def NoneRefused (s : SparseGainMatrix K) : List (Event K) → Prop
  | [] => True
  | .process input output :: events =>
    ¬s.Refused ∧ NoneRefused (s.send (.process input output)) events
  | event :: events => NoneRefused (s.send event) events

/-! ### Routing lists -/

section Lists

omit [Field K]

theorem check_of_inRange {s : SparseGainMatrix K} {r : SparseGainRouting K} (h : s.InRange r) :
    s.check r = .ok () := by
  obtain ⟨hentry, hrow, hcolumn⟩ := h
  unfold check
  rw [if_neg (by omega), if_neg (by omega), if_neg (by omega)]

theorem check_of_not_inRange {s : SparseGainMatrix K} {r : SparseGainRouting K}
    (h : ¬s.InRange r) : ∃ message, s.check r = .error (status s.fullName message) := by
  unfold check
  by_cases hentry : r.entryIndex ≥ s.numRoutingPoints
  · exact ⟨_, if_pos hentry⟩
  · rw [if_neg hentry]
    by_cases hrow : r.rowIndex ≥ s.numberOfOutputs
    · exact ⟨_, if_pos hrow⟩
    · rw [if_neg hrow]
      by_cases hcolumn : r.columnIndex ≥ s.numberOfInputs
      · exact ⟨_, if_pos hcolumn⟩
      · exact absurd ⟨Nat.not_le.mp hentry, Nat.not_le.mp hrow, Nat.not_le.mp hcolumn⟩ h

/-- One gain after another is written. -/
theorem writeGains_of_inRange {s : SparseGainMatrix K} {newRoutings : List (SparseGainRouting K)}
    (h : ∀ r ∈ newRoutings, s.InRange r) (gains : ℕ → K) :
    s.writeGains newRoutings gains =
      (newRoutings.foldl (fun gains r => Function.update gains r.entryIndex r.gain) gains,
        .ok ()) := by
  induction newRoutings generalizing gains with
  | nil => rfl
  | cons r newRoutings ih =>
    unfold writeGains
    rw [check_of_inRange (h r List.mem_cons_self)]
    exact ih (fun r' hr' => h r' (List.mem_cons_of_mem r hr')) _

/-- The loop stops at the first point that is out of range. -/
theorem writeGains_of_not_inRange {s : SparseGainMatrix K}
    {newRoutings : List (SparseGainRouting K)} (h : ∃ r ∈ newRoutings, ¬s.InRange r)
    (gains : ℕ → K) : ∃ gains' message,
      s.writeGains newRoutings gains = (gains', .error (status s.fullName message)) := by
  induction newRoutings generalizing gains with
  | nil =>
    obtain ⟨r, hr, -⟩ := h
    exact absurd hr List.not_mem_nil
  | cons r newRoutings ih =>
    unfold writeGains
    by_cases hrange : s.InRange r
    · rw [check_of_inRange hrange]
      refine ih ?_ _
      obtain ⟨r', hr', hbad⟩ := h
      rcases List.mem_cons.mp hr' with rfl | hr'
      · exact absurd hrange hbad
      · exact ⟨r', hr', hbad⟩
    · obtain ⟨message, hmessage⟩ := check_of_not_inRange hrange
      rw [hmessage]
      exact ⟨gains, message, rfl⟩

theorem foldl_update_of_not_mem {newRoutings : List (SparseGainRouting K)} {entryIdx : ℕ}
    (h : entryIdx ∉ newRoutings.map SparseGainRouting.key) (gains : ℕ → K) :
    newRoutings.foldl (fun gains r => Function.update gains r.entryIndex r.gain) gains entryIdx =
      gains entryIdx := by
  induction newRoutings generalizing gains with
  | nil => rfl
  | cons r newRoutings ih =>
    rw [List.map_cons, List.mem_cons, not_or] at h
    rw [List.foldl_cons, ih h.2, Function.update_of_ne (show entryIdx ≠ r.entryIndex from h.1)]

/-- As the points have different numbers, each one has its gain in the end. -/
theorem foldl_update_of_mem {newRoutings : List (SparseGainRouting K)}
    (hnodup : (newRoutings.map SparseGainRouting.key).Nodup) {r : SparseGainRouting K}
    (hr : r ∈ newRoutings) (gains : ℕ → K) :
    newRoutings.foldl (fun gains r => Function.update gains r.entryIndex r.gain) gains
      r.entryIndex = r.gain := by
  induction newRoutings generalizing gains with
  | nil => exact absurd hr List.not_mem_nil
  | cons first newRoutings ih =>
    rw [List.map_cons, List.nodup_cons] at hnodup
    rw [List.foldl_cons]
    rcases List.mem_cons.mp hr with rfl | hr
    · have hfresh : r.entryIndex ∉ newRoutings.map SparseGainRouting.key := hnodup.1
      rw [foldl_update_of_not_mem hfresh, Function.update_self]
    · exact ih hnodup.2 hr _

/-- What an accepted list leaves behind. -/
theorem setRoutings_of_ok {s s' : SparseGainMatrix K} {newRoutings : SparseGainRoutingList K}
    {u : Unit} (h : s.setRoutings newRoutings = (s', .ok u)) :
    s' =
      { s with
        nextGains := newRoutings.toList.foldl
          (fun gains r => Function.update gains r.entryIndex r.gain) s.nextGains
        routings := newRoutings } := by
  unfold setRoutings at h
  by_cases hbad : ∃ r ∈ newRoutings.toList, ¬s.InRange r
  · obtain ⟨gains, message, hwrite⟩ := writeGains_of_not_inRange hbad s.nextGains
    rw [hwrite] at h
    cases h
  · have hrange : ∀ r ∈ newRoutings.toList, s.InRange r := by simpa using hbad
    rw [writeGains_of_inRange hrange] at h
    cases h
    rfl

/-- **A list that names an index out of range.**  The gains are swapped, and some of them may be
written. -/
theorem receiveRoutings_of_refused {s : SparseGainMatrix K} (h : s.Refused) :
    ∃ gains message, s.receiveRoutings =
      ({ s with previousGains := s.nextGains, nextGains := gains },
        .error (status s.fullName message)) := by
  obtain ⟨newRoutings, hpending, hbad⟩ := h
  obtain ⟨gains, message, hwrite⟩ :=
    writeGains_of_not_inRange (s := s.swapGains) hbad s.swapGains.nextGains
  refine ⟨gains, message, ?_⟩
  unfold receiveRoutings setRoutings
  rw [hpending]
  dsimp only
  rw [hwrite]
  rfl

/-- A list whose indices are in range replaces the routing points and sets their gains. -/
theorem receiveRoutings_of_pending {s : SparseGainMatrix K}
    {newRoutings : SparseGainRoutingList K}
    (hpending : pending s.routingListInput = some newRoutings) (h : ¬s.Refused) :
    s.receiveRoutings =
      ({ s with
        previousGains := s.nextGains
        nextGains := newRoutings.toList.foldl
          (fun gains r => Function.update gains r.entryIndex r.gain) s.previousGains
        routings := newRoutings
        rampIndex := 0
        routingListInput := s.routingListInput.map .resetChanged }, .ok ()) := by
  have hrange : ∀ r ∈ newRoutings.toList, s.swapGains.InRange r := by
    intro r hr
    by_contra hbad
    exact h ⟨newRoutings, hpending, r, hr, hbad⟩
  unfold receiveRoutings setRoutings
  rw [hpending]
  dsimp only
  rw [writeGains_of_inRange hrange]
  rfl

theorem receiveRoutings_of_none {s : SparseGainMatrix K}
    (hpending : pending s.routingListInput = none) : s.receiveRoutings = (s, .ok ()) := by
  unfold receiveRoutings
  rw [hpending]

end Lists

/-- **What a call does** if it finds a list that names an index out of range: an error is
reported, and the list will be found again. -/
theorem process_refused {s : SparseGainMatrix K} (h : s.Refused) :
    ∃ gains message, ∀ input output, s.process input output =
      ({ s with previousGains := s.nextGains, nextGains := gains },
        .error (status s.fullName message)) := by
  obtain ⟨gains, message, hreceive⟩ := receiveRoutings_of_refused h
  refine ⟨gains, message, fun input output => ?_⟩
  unfold process
  rw [hreceive]

/-- The error is reported once more by the next call. -/
theorem not_rejectedOnce {s : SparseGainMatrix K} (h : s.Refused) (input output : ℕ → ℕ → K) :
    ¬s.RejectedOnce input output := by
  rintro ⟨-, -, -, -, hnext⟩
  obtain ⟨gains, message, hprocess⟩ := process_refused h
  rw [hprocess input output] at hnext
  obtain ⟨gains', message', hagain⟩ := process_refused
    (s := { s with previousGains := s.nextGains, nextGains := gains }) h
  obtain ⟨result, hresult⟩ := hnext input output
  rw [hagain] at hresult
  cases hresult

/-! ### The outputs -/

/-- The routing points of a row are added to its output. -/
theorem foldl_scaleAndAccumulate (s : SparseGainMatrix K) (input : ℕ → ℕ → K) {idx : ℕ}
    (hidx : idx < s.gainRamp.blockSize) (outIdx : ℕ) (points : List (SparseGainRouting K))
    (result : ℕ → ℕ → K) :
    points.foldl
        (fun result r => Function.update result r.rowIndex
          (s.gainRamp.scaleAndAccumulate (input r.columnIndex) (result r.rowIndex)
            (s.previousGains r.entryIndex) (s.nextGains r.entryIndex) s.rampIndex))
        result outIdx idx =
      result outIdx idx + ((points.filter fun r => r.rowIndex = outIdx).map fun r =>
        s.gainRamp.gain (s.previousGains r.entryIndex) (s.nextGains r.entryIndex) s.rampIndex idx *
          input r.columnIndex idx).sum := by
  induction points generalizing result with
  | nil => exact (add_zero _).symm
  | cons r points ih =>
    rw [List.foldl_cons, ih, List.filter_cons]
    by_cases hrow : r.rowIndex = outIdx
    · rw [if_pos (by simpa using hrow), List.map_cons, List.sum_cons, ← add_assoc, ← hrow,
        Function.update_self, GainFader.scaleAndAccumulate_of_lt _ _ _ _ _ _ hidx]
    · rw [if_neg (by simpa using hrow), Function.update_of_ne (Ne.symm hrow)]

/-- The outputs of a block. -/
theorem mix_eq (s : SparseGainMatrix K) (input output : ℕ → ℕ → K) {outIdx idx : ℕ}
    (hout : outIdx < s.numberOfOutputs) (hidx : idx < s.gainRamp.blockSize) :
    s.mix input output outIdx idx =
      ((s.routings.toList.filter fun r => r.rowIndex = outIdx).map fun r =>
        s.gainRamp.gain (s.previousGains r.entryIndex) (s.nextGains r.entryIndex) s.rampIndex idx *
          input r.columnIndex idx).sum := by
  unfold mix
  rw [s.foldl_scaleAndAccumulate input hidx, if_pos ⟨hout, hidx⟩, zero_add]

/-! ### The invariant -/

/-- The routing points and their gains are those that have been commanded; `blocks` blocks have
been processed since then. -/
structure Inv (blockSize interpolationSteps : ℕ) (s : SparseGainMatrix K) (c : Commanded K)
    (blocks : ℕ) : Prop where
  created : ∃ hblock : 0 < blockSize,
    GainFader.create blockSize hblock interpolationSteps cVectorAlignmentSamples = .ok s.gainRamp
  rampIndex_eq : s.rampIndex = min blocks s.gainRamp.interpolationPeriods
  elapsed_eq : c.elapsed = blocks * blockSize
  routings_eq : c.routings = s.routings
  gain_eq : ∀ r ∈ s.routings.toList, s.nextGains r.entryIndex = c.gain r.entryIndex

section Steps

variable [CharZero K] {blockSize interpolationSteps blocks : ℕ} {s : SparseGainMatrix K}
  {c : Commanded K}

omit [CharZero K] in
/-- What waits at the ports does not matter. -/
theorem Inv.ports (h : Inv blockSize interpolationSteps s c blocks)
    (routingListInput : Option (InputBase (SparseGainRoutingList K)))
    (routingPointInput : Option (List (SparseGainRouting K)))
    (gainInput : Option (InputBase (ℕ → K))) :
    Inv blockSize interpolationSteps { s with routingListInput, routingPointInput, gainInput }
      c blocks :=
  ⟨h.created, h.rampIndex_eq, h.elapsed_eq, h.routings_eq, h.gain_eq⟩

omit [CharZero K] in
/-- What a routing list leaves behind. -/
theorem Inv.receiveRoutings (h : Inv blockSize interpolationSteps s c blocks) (hok : ¬s.Refused) :
    ∃ s' blocks', s.receiveRoutings = (s', .ok ()) ∧
      Inv blockSize interpolationSteps s'
        (c.receive (pending s.routingListInput) none) blocks' ∧
      s'.numberOfOutputs = s.numberOfOutputs ∧ s'.gainInput = s.gainInput := by
  cases hpending : pending s.routingListInput with
  | none => exact ⟨s, blocks, receiveRoutings_of_none hpending, h, rfl, rfl⟩
  | some newRoutings =>
    refine ⟨_, 0, receiveRoutings_of_pending hpending hok, ?_, rfl, rfl⟩
    refine ⟨h.created, (Nat.zero_min _).symm, (Nat.zero_mul _).symm, rfl, fun r hr => ?_⟩
    exact (foldl_update_of_mem newRoutings.nodup_keys hr _).trans (c.gain_setRoutings hr).symm

omit [CharZero K] in
/-- What a gain vector leaves behind. -/
theorem Inv.receiveGains (h : Inv blockSize interpolationSteps s c blocks) :
    ∃ blocks', Inv blockSize interpolationSteps s.receiveRoutingPoints.receiveGains
      (c.receive none (pending s.gainInput)) blocks' := by
  unfold SparseGainMatrix.receiveGains SparseGainMatrix.receiveRoutingPoints
  dsimp only
  cases hpending : pending s.gainInput with
  | none =>
    exact ⟨blocks, h.created, h.rampIndex_eq, h.elapsed_eq, h.routings_eq, h.gain_eq⟩
  | some newGains =>
    exact ⟨0, h.created, (Nat.zero_min _).symm, (Nat.zero_mul _).symm, h.routings_eq,
      fun r hr => rfl⟩

/-- What a block leaves behind. -/
theorem Inv.advance (h : Inv blockSize interpolationSteps s c blocks) :
    Inv blockSize interpolationSteps s.advance (c.advance s.gainRamp.blockSize) (blocks + 1) where
  created := h.created
  rampIndex_eq := by
    show min (s.rampIndex + 1) s.gainRamp.interpolationPeriods = _
    rw [h.rampIndex_eq]
    show _ = min (blocks + 1) s.gainRamp.interpolationPeriods
    omega
  elapsed_eq := by
    obtain ⟨hblock, hcreate⟩ := h.created
    show c.elapsed + s.gainRamp.blockSize = _
    rw [h.elapsed_eq, Nat.succ_mul, (GainFader.create_spec hcreate).1]
  routings_eq := h.routings_eq
  gain_eq := h.gain_eq

/-- The block that is mixed with the gains in force. -/
theorem Inv.converged_mix (h : Inv blockSize interpolationSteps s c blocks)
    (input output : ℕ → ℕ → K) :
    Converged interpolationSteps s.numberOfOutputs s.gainRamp.blockSize c input
      (s.mix input output) := by
  obtain ⟨_, hcreate⟩ := h.created
  have hsize := (GainFader.create_spec hcreate).1
  intro outIdx hout idx hidx hover
  rw [mix_eq _ input output hout hidx, h.routings_eq]
  refine congrArg List.sum (List.map_congr_left fun r hr => ?_)
  rw [h.elapsed_eq] at hover
  rw [h.rampIndex_eq, GainFader.gain_of_le hcreate _ _ (hsize ▸ hidx) hover,
    h.gain_eq r (List.mem_filter.mp hr).1]

/-- **A call that finds no index out of range.** -/
theorem Inv.process (h : Inv blockSize interpolationSteps s c blocks) (hok : ¬s.Refused)
    (input output : ℕ → ℕ → K) :
    (∃ result, (s.process input output).2 = .ok result ∧
      Converged interpolationSteps s.numberOfOutputs s.gainRamp.blockSize
        (c.receive (pending s.routingListInput) (pending s.gainInput)) input result) ∧
    ∃ blocks', Inv blockSize interpolationSteps (s.process input output).1
      ((c.receive (pending s.routingListInput) (pending s.gainInput)).advance
        s.gainRamp.blockSize) blocks' := by
  obtain ⟨hblock, hcreate⟩ := h.created
  have hsize := (GainFader.create_spec hcreate).1
  -- the three inputs are read one after the other, each of which keeps the invariant
  obtain ⟨s₁, blocks₁, hreceive, h₁, houtputs₁, hgains₁⟩ := h.receiveRoutings hok
  obtain ⟨blocks₂, h₂⟩ := h₁.receiveGains
  rw [hgains₁] at h₂
  have houtputs₂ : s₁.receiveRoutingPoints.receiveGains.numberOfOutputs = s.numberOfOutputs := by
    rw [← houtputs₁]
    unfold SparseGainMatrix.receiveGains
    split
    · rfl
    · rfl
  have hprocess : s.process input output =
      (s₁.receiveRoutingPoints.receiveGains.advance,
        .ok (s₁.receiveRoutingPoints.receiveGains.mix input output)) := by
    unfold SparseGainMatrix.process
    rw [hreceive]
  rw [hprocess]
  obtain ⟨_, hcreate₂⟩ := h₂.created
  have hsize₂ := (GainFader.create_spec hcreate₂).1
  refine ⟨⟨_, rfl, ?_⟩, blocks₂ + 1, ?_⟩
  · have hmix := h₂.converged_mix input output
    rwa [houtputs₂, hsize₂.trans hsize.symm] at hmix
  · have hnext := h₂.advance
    rwa [hsize₂.trans hsize.symm] at hnext

/-! ### Runs -/

/-- One event after another, for any state with the invariant. -/
theorem asIntended_iff_of_inv (h : Inv blockSize interpolationSteps s c blocks)
    (events : List (Event K)) :
    AsIntended interpolationSteps s c events ↔ NoneRefused s events := by
  induction events generalizing s c blocks with
  | nil => exact Iff.rfl
  | cons event events ih =>
    cases event with
    | routingList newRoutings => exact ih (s := s.send (.routingList newRoutings)) (h.ports _ _ _)
    | routingPoint r => exact ih (s := s.send (.routingPoint r)) (h.ports _ _ _)
    | gains newGains => exact ih (s := s.send (.gains newGains)) (h.ports _ _ _)
    | process input output =>
      unfold AsIntended NoneRefused
      by_cases hrefused : s.Refused
      · -- the list is found again
        refine iff_of_false (fun hintended => ?_) fun hnone => hnone.1 hrefused
        exact not_rejectedOnce hrefused input output (hintended.1 hrefused).1
      · obtain ⟨hresult, blocks', hnext⟩ := h.process hrefused input output
        have hrest := ih (s := s.send (.process input output)) hnext
        constructor
        · exact fun hintended => ⟨hrefused, hrest.mp (hintended.2 hrefused).2⟩
        · exact fun hnone => ⟨fun hr => absurd hr hrefused, fun _ => ⟨hresult, hrest.mpr hnone.2⟩⟩

omit [CharZero K] in
theorem inv_of_create {fullName : String} {hperiod : 0 < blockSize}
    {numberOfInputs numberOfOutputs maxRoutingPoints : ℕ}
    {initialRoutings : SparseGainRoutingList K} {routingPointsPort routingListPort gainPort : Bool}
    (h : create fullName blockSize hperiod numberOfInputs numberOfOutputs interpolationSteps
      maxRoutingPoints initialRoutings routingPointsPort routingListPort gainPort = .ok s) :
    Inv blockSize interpolationSteps s (Commanded.initial initialRoutings) 0 := by
  unfold create at h
  obtain ⟨gainRamp, hramp, h⟩ := exists_of_bind_ok h
  dsimp only at h
  split at h
  · cases h
  next s' u hset =>
    cases h
    rw [setRoutings_of_ok hset]
    refine ⟨⟨hperiod, hramp⟩, (Nat.zero_min _).symm, (Nat.zero_mul _).symm, rfl, fun r hr => ?_⟩
    exact (foldl_update_of_mem initialRoutings.nodup_keys hr _).trans
      (Commanded.gain_setRoutings _ hr).symm

end Steps

/-- A routing point with gain two. -/
def twice : SparseGainRoutingList ℚ := ⟨[⟨0, 0, 0, 2⟩], by decide⟩

/-- The same, with a second point whose number is out of range. -/
def twiceAndInvalid : SparseGainRoutingList ℚ := ⟨[⟨0, 0, 0, 2⟩, ⟨5, 0, 0, 1⟩], by decide⟩

/-- A matrix with one input, one output and two routing points, and no routings at first. -/
def oneByOne (f : GainFader ℚ) : SparseGainMatrix ℚ :=
  ⟨"matrix", 1, 1, 2, fun _ => 0, fun _ => 0, KeyedSet.empty, 0, f, some ⟨KeyedSet.empty, false⟩,
    none, some ⟨fun _ => 0, false⟩⟩

theorem exists_oneByOne : ∃ f : GainFader ℚ,
    create "matrix" 1 Nat.one_pos 1 1 1 2 KeyedSet.empty false true true = .ok (oneByOne f) := by
  obtain ⟨f, hf⟩ := GainFader.exists_create (K := ℚ) 1 Nat.one_pos 1
    (by decide : alignmentIsPowerOfTwo (if cVectorAlignmentSamples = 0 then 1
      else cVectorAlignmentSamples) = true)
  exact ⟨f, bind_of_ok hf _⟩

end SparseGainMatrix

end Visr
