import Mathlib.Algebra.Group.Int.Defs
import Mathlib.Data.Prod.Lex
import Visr.Library.PartialFunction
import Visr.Libpml.SignalRoutingParameter

/-!
# Signal routing

A component that copies input channels to output channels, according to a table of pairs.  The
table is meant to be a partial function from outputs to inputs, which is changed from outside or
through a control port.

## Main results

* `SignalRouting.perform_correct` — an admissible call in a state that shows some connections.
* `SignalRouting.render_eq` — each output is its input, or silent.
* `SignalRouting.reaches_correct` — **what holds after admissible calls**.
-/

namespace Visr

/-- `SignalRoutingParameter::cInvalidIndex`. -/
def cInvalidIndex : ℕ := 2 ^ 64 - 1

/-- `RoutingEntry`: an output and an input, in lexicographic order. -/
abbrev SignalRouting.RoutingTable := KeyedSet fun e : ℕ × ℕ => (toLex e : ℕ ×ₗ ℕ)

/-- The port for new routings, and whether they have changed. -/
structure ControlInput where
  changed : Bool
  data : SignalRoutingParameter

/-- The widths of the ports, whether they have buffers, and the table. -/
structure SignalRouting where
  inputWidth : ℕ
  outputWidth : ℕ
  initialised : Bool
  mControlInput : Option ControlInput
  mRoutings : SignalRouting.RoutingTable

namespace SignalRouting

def create : SignalRouting where
  inputWidth := 0
  outputWidth := 0
  initialised := false
  mControlInput := none
  mRoutings := KeyedSet.empty

/-! ### Changes of the table -/

/-- The widths are set first, and the table is cleared last.  There may be one control port only. -/
def setup (s : SignalRouting) (inputWidth outputWidth : ℕ) (controlPort : Bool) :
    Except Abort Unit × SignalRouting :=
  if s.initialised then
    (.error (.exception (.logicError
      "Audio port: Attempt to set the width of an initialised port.")), s)
  else
    let s := { s with inputWidth := inputWidth, outputWidth := outputWidth }
    if controlPort then
      match s.mControlInput with
      | some _ => (.error (.exception (.invalidArgument ("ComponentImplementation::" ++
          "registerParameterPort(): port with given name already exists"))), s)
      | none =>
        (.ok (), { s with
          mControlInput := some { changed := false, data := .create }
          mRoutings := KeyedSet.empty })
    else (.ok (), { s with mRoutings := KeyedSet.empty })

/-- An invalid index is accepted as input. -/
def checkRoutingIndexRanges (s : SignalRouting) (input output : ℕ) : Except Abort Unit :=
  if input ≠ cInvalidIndex ∧ input ≥ s.inputWidth then
    .error (.exception (.invalidArgument
      "SignalRouting: routing specification with invalid input index."))
  else if output ≥ s.outputWidth ∨ output = cInvalidIndex then
    .error (.exception (.invalidArgument
      "SignalRouting: routing specification with invalid input index."))
  else .ok ()

/-- The loops that check the entries of a list and insert them into a table. -/
def insertAll (s : SignalRouting) :
    List SignalRoutingEntry → RoutingTable → Except Abort Unit × RoutingTable
  | [], table => (.ok (), table)
  | e :: entries, table =>
    match s.checkRoutingIndexRanges e.input e.output with
    | .error a => (.error a, table)
    | .ok _ => s.insertAll entries (table.put (e.output, e.input))

/-- The control port is not passed on. -/
def setupRouting (s : SignalRouting) (inputWidth outputWidth : ℕ)
    (initialRouting : SignalRoutingParameter) (_controlPort : Bool) :
    Except Abort Unit × SignalRouting :=
  match s.setup inputWidth outputWidth false with
  | (.error a, s) => (.error a, s)
  | (.ok _, s) =>
    let r := s.insertAll initialRouting.routings.toList s.mRoutings
    (r.1, { s with mRoutings := r.2 })

/-- The table is cleared before the entries are checked. -/
def setRoutings (s : SignalRouting) (newRouting : SignalRoutingParameter) :
    Except Abort Unit × SignalRouting :=
  let r := s.insertAll newRouting.routings.toList KeyedSet.empty
  (r.1, { s with mRoutings := r.2 })

/-- Other entries for the output are kept. -/
def setRouting (s : SignalRouting) (input output : ℕ) : Except Abort Unit × SignalRouting :=
  match s.checkRoutingIndexRanges input output with
  | .error a => (.error a, s)
  | .ok _ => (.ok (), { s with mRoutings := s.mRoutings.put (output, input) })

def removeRouting (s : SignalRouting) (input output : ℕ) : Except Abort Unit × SignalRouting :=
  match s.checkRoutingIndexRanges input output with
  | .error a => (.error a, s)
  | .ok _ => (.ok (), { s with mRoutings := s.mRoutings.erase (toLex (output, input)) })

/-- The first part of `process()`, which looks for changes at the control port.  An exception is
reported. -/
def updateRoutings (s : SignalRouting) : Except Abort Unit × SignalRouting :=
  match s.mControlInput with
  | none => (.ok (), s)
  | some control =>
    if control.changed then
      let mControlInput := some { control with changed := false }
      match s.insertAll control.data.routings.toList KeyedSet.empty with
      | (.ok _, tmpRouting) =>
        (.ok (), { s with mControlInput := mControlInput, mRoutings := tmpRouting })
      | (.error a, _) => (.error a, { s with mControlInput := mControlInput })
    else (.ok (), s)

/-! ### Signals -/

section Signals

variable {B : Type} [AddZeroClass B]

/-- An input channel is added to an output channel.  Channels outside of the ports are not
checked. -/
def addRoute (s : SignalRouting) (input : ℕ → B) (out : ℕ → B) (e : ℕ × ℕ) :
    Except Abort (ℕ → B) :=
  if e.2 < s.inputWidth ∧ e.1 < s.outputWidth then
    .ok (Function.update out e.1 (out e.1 + input e.2))
  else .error .undefined

/-- The second part of `process()`, for the current blocks of all channels. -/
def render (s : SignalRouting) (input : ℕ → B) : Except Abort (ℕ → B) :=
  if s.initialised then s.mRoutings.toList.foldlM (s.addRoute input) fun _ => 0
  else .error .undefined

/-- The output, the report of the control port, and the component after the call. -/
def process (s : SignalRouting) (input : ℕ → B) :
    Except Abort (ℕ → B) × Except Abort Unit × SignalRouting :=
  let r := s.updateRoutings
  (r.2.render input, r)

end Signals

/-! ### Calls -/

/-- The calls, where `sendControl` is what the sender of the control port does, and
`connectBuffers` is what the signal flow does to the ports. -/
inductive Call
  | setup (inputWidth outputWidth : ℕ) (controlPort : Bool)
  | setupRouting (inputWidth outputWidth : ℕ) (initialRouting : SignalRoutingParameter)
      (controlPort : Bool)
  | setRoutings (newRouting : SignalRoutingParameter)
  | setRouting (input output : ℕ)
  | removeRouting (input output : ℕ)
  | connectBuffers (initialised : Bool)
  | sendControl (newRouting : SignalRoutingParameter)
  | process

/-- The component after a call, and the exception that is thrown or reported. -/
def perform (s : SignalRouting) : Call → Except Abort Unit × SignalRouting
  | .setup inputWidth outputWidth controlPort => s.setup inputWidth outputWidth controlPort
  | .setupRouting inputWidth outputWidth initialRouting controlPort =>
    s.setupRouting inputWidth outputWidth initialRouting controlPort
  | .setRoutings newRouting => s.setRoutings newRouting
  | .setRouting input output => s.setRouting input output
  | .removeRouting input output => s.removeRouting input output
  | .connectBuffers initialised => (.ok (), { s with initialised := initialised })
  | .sendControl newRouting =>
    (.ok (), { s with
      mControlInput := s.mControlInput.map fun _ => { changed := true, data := newRouting } })
  | .process => s.updateRoutings

/-! ### The documented connections -/

/-- No connection for the invalid index. -/
def validInput (input : ℕ) : Option ℕ := if input = cInvalidIndex then none else some input

/-- The connections of a list. -/
def connections (p : SignalRoutingParameter) : ℕ → Option ℕ := fun output =>
  (p.getInput output).bind validInput

/-- The connections after a call that returns, if they were `d` before. -/
def documented (s : SignalRouting) (d : ℕ → Option ℕ) : Call → ℕ → Option ℕ
  | .setup _ _ _ => fun _ => none
  | .setupRouting _ _ initialRouting _ => connections initialRouting
  | .setRoutings newRouting => connections newRouting
  | .setRouting input output => Function.update d output (validInput input)
  | .removeRouting input output =>
    if d output = some input then Function.update d output none else d
  | .connectBuffers _ => d
  | .sendControl _ => d
  | .process =>
    match s.mControlInput with
    | none => d
    | some control => if control.changed then connections control.data else d

/-- The connections after a call, which stay if it throws. -/
def connectionsAfter (s : SignalRouting) (d : ℕ → Option ℕ) (call : Call) : ℕ → Option ℕ :=
  match (s.perform call).1 with
  | .ok _ => s.documented d call
  | .error _ => d

/-- The table has an entry for a connection. -/
def Connected (s : SignalRouting) (output input : ℕ) : Prop := (output, input) ∈ s.mRoutings

/-- All entries are channels of the ports. -/
def Within (s : SignalRouting) (inputWidth outputWidth : ℕ) : Prop :=
  ∀ output input, s.Connected output input → output < outputWidth ∧ input < inputWidth

/-- An entry is in the range of the ports. -/
def AdmissibleEntry (inputWidth outputWidth : ℕ) (e : SignalRoutingEntry) : Prop :=
  e.input < inputWidth ∧ e.input ≠ cInvalidIndex ∧ e.output < outputWidth ∧
    e.output ≠ cInvalidIndex

/-- The calls that do what they should. -/
def Admissible (s : SignalRouting) : Call → Prop
  | .setup inputWidth outputWidth controlPort =>
    s.initialised = true ∨ controlPort = false ∨ s.mControlInput = none ∨
      s.Within inputWidth outputWidth
  | .setupRouting inputWidth outputWidth initialRouting _ =>
    s.initialised = true ∨
      ∀ e ∈ initialRouting.routings, AdmissibleEntry inputWidth outputWidth e
  | .setRoutings newRouting =>
    ∀ e ∈ newRouting.routings, AdmissibleEntry s.inputWidth s.outputWidth e
  | .setRouting input output =>
    (∃ a, s.checkRoutingIndexRanges input output = .error a) ∨
      input ≠ cInvalidIndex ∧ ∀ other, s.Connected output other → other = input
  | .removeRouting _ _ => True
  | .connectBuffers _ => True
  | .sendControl _ => True
  | .process => s.initialised = true ∧
      ∀ control, s.mControlInput = some control → control.changed = true →
        (∃ e ∈ control.data.routings, ∃ a,
          s.checkRoutingIndexRanges e.input e.output = .error a) ∨
        ∀ e ∈ control.data.routings, e.input ≠ cInvalidIndex

/-- The states after admissible calls, with the documented connections. -/
inductive Reaches : SignalRouting → (ℕ → Option ℕ) → Prop
  | start : Reaches create fun _ => none
  | step {s : SignalRouting} {d : ℕ → Option ℕ} (h : Reaches s d) {call : Call}
      (hcall : s.Admissible call) : Reaches (s.perform call).2 (s.connectionsAfter d call)

/-! ### Tables -/

section Tables

variable {s : SignalRouting} {input output : ℕ}

theorem check_error {a : Abort} (h : s.checkRoutingIndexRanges input output = .error a) :
    ∃ ex, a = .exception ex := by
  unfold checkRoutingIndexRanges at h
  split at h
  · cases h
    exact ⟨_, rfl⟩
  · split at h <;> cases h
    exact ⟨_, rfl⟩

/-- Valid inputs are in the range of the port. -/
theorem check_ok_iff (hvalid : input ≠ cInvalidIndex) :
    s.checkRoutingIndexRanges input output = .ok () ↔
      input < s.inputWidth ∧ output < s.outputWidth ∧ output ≠ cInvalidIndex := by
  unfold checkRoutingIndexRanges
  by_cases hin : input < s.inputWidth
  · rw [if_neg fun h => Nat.not_le.mpr hin h.2]
    by_cases hout : output ≥ s.outputWidth ∨ output = cInvalidIndex
    · rw [if_pos hout]
      refine iff_of_false nofun ?_
      rintro ⟨-, hlt, hne⟩
      exact hout.elim (Nat.not_le.mpr hlt) hne
    · rw [if_neg hout]
      rw [not_or, Nat.not_le] at hout
      exact iff_of_true rfl ⟨hin, hout⟩
  · rw [if_pos ⟨hvalid, Nat.not_lt.mp hin⟩]
    exact iff_of_false nofun fun h => hin h.1

theorem mem_put {table : RoutingTable} {e e' : ℕ × ℕ} : e' ∈ table.put e ↔ e' = e ∨ e' ∈ table := by
  rw [KeyedSet.mem_put]
  by_cases h : e' = e
  · simp [h]
  · simp [h]

/-- What a loop without failure inserts. -/
theorem insertAll_ok {entries : List SignalRoutingEntry} {table table' : RoutingTable}
    (h : s.insertAll entries table = (.ok (), table')) :
    (∀ e ∈ entries, s.checkRoutingIndexRanges e.input e.output = .ok ()) ∧
      ∀ x, x ∈ table' ↔ x ∈ table ∨ ∃ e ∈ entries, x = (e.output, e.input) := by
  induction entries generalizing table with
  | nil =>
    cases h
    exact ⟨List.forall_mem_nil _, fun x => by simp⟩
  | cons e entries ih =>
    rw [insertAll] at h
    cases hcheck : s.checkRoutingIndexRanges e.input e.output with
    | error a =>
      rw [hcheck] at h
      cases h
    | ok _ =>
      rw [hcheck] at h
      obtain ⟨hchecks, hmem⟩ := ih h
      refine ⟨List.forall_mem_cons.mpr ⟨hcheck, hchecks⟩, fun x => ?_⟩
      rw [hmem, mem_put, List.exists_mem_cons_iff]
      tauto

theorem insertAll_of_check {entries : List SignalRoutingEntry}
    (h : ∀ e ∈ entries, s.checkRoutingIndexRanges e.input e.output = .ok ())
    (table : RoutingTable) : ∃ table', s.insertAll entries table = (.ok (), table') := by
  induction entries generalizing table with
  | nil => exact ⟨table, rfl⟩
  | cons e entries ih =>
    obtain ⟨he, hentries⟩ := List.forall_mem_cons.mp h
    rw [insertAll, he]
    exact ih hentries _

theorem insertAll_error {entries : List SignalRoutingEntry} {table : RoutingTable} {a : Abort}
    (h : (s.insertAll entries table).1 = .error a) : ∃ ex, a = .exception ex := by
  induction entries generalizing table with
  | nil => cases h
  | cons e entries ih =>
    rw [insertAll] at h
    cases hcheck : s.checkRoutingIndexRanges e.input e.output with
    | error a' =>
      rw [hcheck] at h
      cases h
      exact check_error hcheck
    | ok _ =>
      rw [hcheck] at h
      exact ih h

/-- The connections of a list without invalid inputs. -/
theorem connections_eq_some_iff {p : SignalRoutingParameter} :
    connections p output = some input ↔
      ∃ e ∈ p.routings, e.input ≠ cInvalidIndex ∧ (output, input) = (e.output, e.input) := by
  unfold connections SignalRoutingParameter.getInput
  constructor
  · intro h
    obtain ⟨i, hi, hvalid⟩ := Option.bind_eq_some_iff.mp h
    obtain ⟨e, he, rfl⟩ := Option.map_eq_some_iff.mp hi
    obtain ⟨hmem, rfl⟩ := KeyedSet.find?_eq_some_iff.mp he
    unfold validInput at hvalid
    split at hvalid
    · cases hvalid
    next hne =>
      cases hvalid
      exact ⟨e, hmem, hne, rfl⟩
  · rintro ⟨e, hmem, hne, heq⟩
    cases heq
    rw [KeyedSet.find?_eq_some_iff.mpr ⟨hmem, rfl⟩]
    exact if_neg hne

/-- **The table of a list** shows its connections. -/
theorem isGraph_insertAll {p : SignalRoutingParameter} {table : RoutingTable}
    (h : s.insertAll p.routings.toList KeyedSet.empty = (.ok (), table))
    (hvalid : ∀ e ∈ p.routings, e.input ≠ cInvalidIndex) :
    IsGraph (fun output input => (output, input) ∈ table) (connections p) ∧
      ∀ output input, (output, input) ∈ table → output < s.outputWidth ∧ input < s.inputWidth := by
  obtain ⟨hchecks, hmem⟩ := insertAll_ok h
  constructor
  · intro output input
    dsimp only
    rw [hmem, connections_eq_some_iff]
    constructor
    · rintro (hempty | ⟨e, he, heq⟩)
      · exact absurd hempty (KeyedSet.not_mem_empty _)
      · exact ⟨e, he, hvalid e he, heq⟩
    · rintro ⟨e, he, -, heq⟩
      exact Or.inr ⟨e, he, heq⟩
  · intro output input hpair
    rcases (hmem _).mp hpair with hempty | ⟨e, he, heq⟩
    · exact absurd hempty (KeyedSet.not_mem_empty _)
    · cases heq
      obtain ⟨hin, hout, -⟩ := (check_ok_iff (hvalid e he)).mp (hchecks e he)
      exact ⟨hout, hin⟩

theorem exists_insertAll {p : SignalRoutingParameter}
    (h : ∀ e ∈ p.routings, AdmissibleEntry s.inputWidth s.outputWidth e) :
    ∃ table, s.insertAll p.routings.toList KeyedSet.empty = (.ok (), table) ∧
      IsGraph (fun output input => (output, input) ∈ table) (connections p) ∧
      ∀ output input, (output, input) ∈ table → output < s.outputWidth ∧ input < s.inputWidth := by
  have hchecks : ∀ e ∈ p.routings.toList, s.checkRoutingIndexRanges e.input e.output = .ok () := by
    intro e he
    obtain ⟨hin, hvalid, hout⟩ := h e he
    exact (check_ok_iff hvalid).mpr ⟨hin, hout⟩
  obtain ⟨table, htable⟩ := insertAll_of_check hchecks KeyedSet.empty
  exact ⟨table, htable, isGraph_insertAll htable fun e he => (h e he).2.1⟩

end Tables

/-! ### One call -/

/-- The table shows some connections, all of which are in the range of the ports. -/
structure Shows (s : SignalRouting) (d : ℕ → Option ℕ) : Prop where
  isGraph : IsGraph s.Connected d
  within : s.Within s.inputWidth s.outputWidth

/-- A call throws, or reports an exception, and the table is as it was, or it shows the documented
connections. -/
def Correct (s : SignalRouting) (d : ℕ → Option ℕ) (call : Call) : Prop :=
  (∃ ex s', s.perform call = (.error (.exception ex), s') ∧ s'.mRoutings = s.mRoutings) ∨
    ∃ s', s.perform call = (.ok (), s') ∧ IsGraph s'.Connected (s.documented d call)

variable {s : SignalRouting} {d : ℕ → Option ℕ}

/-- What a call does that returns. -/
theorem correct_of_ok {call : Call} {s' : SignalRouting} (h : s.perform call = (.ok (), s'))
    (hgraph : IsGraph s'.Connected (s.documented d call))
    (hwithin : s'.Within s'.inputWidth s'.outputWidth) :
    s.Correct d call ∧ (s.perform call).2.Shows (s.connectionsAfter d call) := by
  refine ⟨Or.inr ⟨s', h, hgraph⟩, ?_⟩
  unfold connectionsAfter
  rw [h]
  exact ⟨hgraph, hwithin⟩

/-- What a call does that throws. -/
theorem correct_of_error (hs : s.Shows d) {call : Call} {s' : SignalRouting} {ex : Exception}
    (h : s.perform call = (.error (.exception ex), s')) (hsame : s'.mRoutings = s.mRoutings)
    (hwithin : s.Within s'.inputWidth s'.outputWidth) :
    s.Correct d call ∧ (s.perform call).2.Shows (s.connectionsAfter d call) := by
  refine ⟨Or.inl ⟨ex, s', h, hsame⟩, ?_⟩
  have hconnected : s'.Connected = s.Connected := by
    unfold Connected
    rw [hsame]
  unfold connectionsAfter
  rw [h]
  refine ⟨?_, ?_⟩
  · show IsGraph s'.Connected d
    rw [hconnected]
    exact hs.isGraph
  · show s'.Within s'.inputWidth s'.outputWidth
    unfold Within
    rw [hconnected]
    exact hwithin

theorem not_connected_empty {s : SignalRouting} (h : s.mRoutings = KeyedSet.empty)
    (output input : ℕ) : ¬s.Connected output input := by
  unfold Connected
  rw [h]
  exact KeyedSet.not_mem_empty _

/-- A new table, which is empty. -/
theorem correct_of_empty {call : Call} {s' : SignalRouting} (h : s.perform call = (.ok (), s'))
    (hempty : s'.mRoutings = KeyedSet.empty) (hdocumented : s.documented d call = fun _ => none) :
    s.Correct d call ∧ (s.perform call).2.Shows (s.connectionsAfter d call) := by
  apply correct_of_ok h
  · rw [hdocumented]
    exact IsGraph.empty (not_connected_empty hempty)
  · intro output input hconnected
    exact absurd hconnected (not_connected_empty hempty output input)

theorem setup_correct (hs : s.Shows d) {inputWidth outputWidth : ℕ} {controlPort : Bool}
    (hcall : s.Admissible (.setup inputWidth outputWidth controlPort)) :
    s.Correct d (.setup inputWidth outputWidth controlPort) ∧
      (s.perform (.setup inputWidth outputWidth controlPort)).2.Shows
        (s.connectionsAfter d (.setup inputWidth outputWidth controlPort)) := by
  have hperform : s.perform (.setup inputWidth outputWidth controlPort) =
      s.setup inputWidth outputWidth controlPort := rfl
  unfold setup at hperform
  by_cases hinit : s.initialised = true
  · rw [if_pos hinit] at hperform
    exact correct_of_error hs hperform rfl hs.within
  · rw [if_neg hinit] at hperform
    cases controlPort with
    | false => exact correct_of_empty hperform rfl rfl
    | true =>
      rw [if_pos rfl] at hperform
      cases hcontrol : s.mControlInput with
      | none =>
        rw [hcontrol] at hperform
        exact correct_of_empty hperform rfl rfl
      | some control =>
        rw [hcontrol] at hperform
        -- the widths have been changed already
        have hwithin : s.Within inputWidth outputWidth := by
          rcases hcall with h | h | h | h
          · exact absurd h hinit
          · cases h
          · rw [hcontrol] at h
            cases h
          · exact h
        exact correct_of_error hs hperform rfl hwithin

theorem setupRouting_correct (hs : s.Shows d) {inputWidth outputWidth : ℕ}
    {initialRouting : SignalRoutingParameter} {controlPort : Bool}
    (hcall : s.Admissible (.setupRouting inputWidth outputWidth initialRouting controlPort)) :
    s.Correct d (.setupRouting inputWidth outputWidth initialRouting controlPort) ∧
      (s.perform (.setupRouting inputWidth outputWidth initialRouting controlPort)).2.Shows
        (s.connectionsAfter d
          (.setupRouting inputWidth outputWidth initialRouting controlPort)) := by
  have hperform : s.perform (.setupRouting inputWidth outputWidth initialRouting controlPort) =
      s.setupRouting inputWidth outputWidth initialRouting controlPort := rfl
  unfold setupRouting setup at hperform
  by_cases hinit : s.initialised = true
  · rw [if_pos hinit] at hperform
    exact correct_of_error hs hperform rfl hs.within
  · rw [if_neg hinit] at hperform
    obtain ⟨table, htable, hgraph, hwithin⟩ := exists_insertAll
      (s := { s with
        inputWidth := inputWidth, outputWidth := outputWidth, mRoutings := KeyedSet.empty })
      (hcall.resolve_left hinit)
    have hreturns : s.perform (.setupRouting inputWidth outputWidth initialRouting controlPort) =
        (.ok (), { s with
          inputWidth := inputWidth, outputWidth := outputWidth, mRoutings := table }) := by
      rw [hperform]
      simp [htable]
    exact correct_of_ok hreturns hgraph hwithin

theorem setRoutings_correct {newRouting : SignalRoutingParameter}
    (hcall : s.Admissible (.setRoutings newRouting)) :
    s.Correct d (.setRoutings newRouting) ∧
      (s.perform (.setRoutings newRouting)).2.Shows
        (s.connectionsAfter d (.setRoutings newRouting)) := by
  obtain ⟨table, htable, hgraph, hwithin⟩ := exists_insertAll hcall
  have hreturns : s.perform (.setRoutings newRouting) =
      (.ok (), { s with mRoutings := table }) := by
    show s.setRoutings newRouting = _
    unfold setRoutings
    rw [htable]
  exact correct_of_ok hreturns hgraph hwithin

theorem setRouting_correct (hs : s.Shows d) {input output : ℕ}
    (hcall : s.Admissible (.setRouting input output)) :
    s.Correct d (.setRouting input output) ∧
      (s.perform (.setRouting input output)).2.Shows
        (s.connectionsAfter d (.setRouting input output)) := by
  have hperform : s.perform (.setRouting input output) = s.setRouting input output := rfl
  unfold setRouting at hperform
  cases hcheck : s.checkRoutingIndexRanges input output with
  | error a =>
    rw [hcheck] at hperform
    obtain ⟨ex, rfl⟩ := check_error hcheck
    exact correct_of_error hs hperform rfl hs.within
  | ok _ =>
    rw [hcheck] at hperform
    rcases hcall with ⟨a, ha⟩ | ⟨hvalid, hother⟩
    · rw [hcheck] at ha
      cases ha
    obtain ⟨hin, hout, -⟩ := (check_ok_iff hvalid).mp hcheck
    apply correct_of_ok hperform
    · -- the pair is added, and no other pair has its output
      have hinput : validInput input = some input := if_neg hvalid
      show IsGraph _ (Function.update d output (validInput input))
      rw [hinput]
      apply hs.isGraph.update hother
      intro output' input'
      unfold Connected
      dsimp only
      rw [mem_put, Prod.mk.injEq]
      exact Or.comm
    · intro output' input' hconnected
      rcases mem_put.mp hconnected with heq | hold
      · cases heq
        exact ⟨hout, hin⟩
      · exact hs.within output' input' hold

theorem removeRouting_correct (hs : s.Shows d) (input output : ℕ) :
    s.Correct d (.removeRouting input output) ∧
      (s.perform (.removeRouting input output)).2.Shows
        (s.connectionsAfter d (.removeRouting input output)) := by
  have hperform : s.perform (.removeRouting input output) = s.removeRouting input output := rfl
  unfold removeRouting at hperform
  cases hcheck : s.checkRoutingIndexRanges input output with
  | error a =>
    rw [hcheck] at hperform
    obtain ⟨ex, rfl⟩ := check_error hcheck
    exact correct_of_error hs hperform rfl hs.within
  | ok _ =>
    rw [hcheck] at hperform
    apply correct_of_ok hperform
    · apply hs.isGraph.remove
      intro output' input'
      unfold Connected
      dsimp only
      rw [KeyedSet.mem_erase]
      simp
    · intro output' input' hconnected
      exact hs.within output' input' (KeyedSet.mem_erase.mp hconnected).1

theorem process_correct (hs : s.Shows d) (hcall : s.Admissible .process) :
    s.Correct d .process ∧ (s.perform .process).2.Shows (s.connectionsAfter d .process) := by
  have hperform : s.perform .process = s.updateRoutings := rfl
  unfold updateRoutings at hperform
  cases hcontrol : s.mControlInput with
  | none =>
    rw [hcontrol] at hperform
    apply correct_of_ok hperform _ hs.within
    unfold documented
    rw [hcontrol]
    exact hs.isGraph
  | some control =>
    rw [hcontrol] at hperform
    dsimp only at hperform
    by_cases hchanged : control.changed = true
    · rw [if_pos hchanged] at hperform
      rcases hinsert : s.insertAll control.data.routings.toList KeyedSet.empty with ⟨a | _, table⟩
      · rw [hinsert] at hperform
        obtain ⟨ex, rfl⟩ := insertAll_error (congrArg Prod.fst hinsert)
        exact correct_of_error hs hperform rfl hs.within
      · rw [hinsert] at hperform
        -- no entry has been rejected
        have hvalid : ∀ e ∈ control.data.routings, e.input ≠ cInvalidIndex := by
          rcases hcall.2 control hcontrol hchanged with ⟨e, he, a, ha⟩ | hvalid
          · rw [(insertAll_ok hinsert).1 e he] at ha
            cases ha
          · exact hvalid
        obtain ⟨hgraph, hwithin⟩ := isGraph_insertAll hinsert hvalid
        apply correct_of_ok hperform _ hwithin
        unfold documented
        rw [hcontrol]
        dsimp only
        rw [if_pos hchanged]
        exact hgraph
    · rw [if_neg hchanged] at hperform
      apply correct_of_ok hperform _ hs.within
      unfold documented
      rw [hcontrol]
      dsimp only
      rw [if_neg hchanged]
      exact hs.isGraph

/-- **An admissible call** does what is documented, or fails without an effect on the table. -/
theorem perform_correct (hs : s.Shows d) {call : Call} (hcall : s.Admissible call) :
    s.Correct d call ∧ (s.perform call).2.Shows (s.connectionsAfter d call) := by
  cases call with
  | setup inputWidth outputWidth controlPort => exact setup_correct hs hcall
  | setupRouting inputWidth outputWidth initialRouting controlPort =>
    exact setupRouting_correct hs hcall
  | setRoutings newRouting => exact setRoutings_correct hcall
  | setRouting input output => exact setRouting_correct hs hcall
  | removeRouting input output => exact removeRouting_correct hs input output
  | connectBuffers initialised => exact correct_of_ok rfl hs.isGraph hs.within
  | sendControl newRouting => exact correct_of_ok rfl hs.isGraph hs.within
  | process => exact process_correct hs hcall

/-! ### Outputs -/

section Outputs

variable {B : Type} [AddZeroClass B]

/-- Entries for different outputs do not interfere with each other. -/
theorem foldlM_addRoute {entries : List (ℕ × ℕ)} (input : ℕ → B)
    (hwithin : ∀ e ∈ entries, e.2 < s.inputWidth ∧ e.1 < s.outputWidth)
    (hnodup : (entries.map Prod.fst).Nodup) (out : ℕ → B) :
    ∃ out', entries.foldlM (s.addRoute input) out = .ok out' ∧
      (∀ e ∈ entries, out' e.1 = out e.1 + input e.2) ∧
      ∀ o, o ∉ entries.map Prod.fst → out' o = out o := by
  induction entries generalizing out with
  | nil => exact ⟨out, rfl, List.forall_mem_nil _, fun _ _ => rfl⟩
  | cons e entries ih =>
    obtain ⟨he, hentries⟩ := List.forall_mem_cons.mp hwithin
    rw [List.map_cons, List.nodup_cons] at hnodup
    obtain ⟨out', hout', hmem, hother⟩ := ih hentries hnodup.2
      (Function.update out e.1 (out e.1 + input e.2))
    refine ⟨out', ?_, ?_, ?_⟩
    · rw [List.foldlM_cons, addRoute, if_pos he]
      exact hout'
    · refine List.forall_mem_cons.mpr ⟨?_, fun e' he' => ?_⟩
      · rw [hother e.1 hnodup.1, Function.update_self]
      · have hne : e'.1 ≠ e.1 := fun heq => hnodup.1 (heq ▸ List.mem_map_of_mem he')
        rw [hmem e' he', Function.update_of_ne hne]
    · intro o ho
      rw [List.map_cons, List.mem_cons, not_or] at ho
      rw [hother o ho.2, Function.update_of_ne ho.1]

/-- **Each output is its input, or silent.** -/
theorem render_eq (hs : s.Shows d) (hinit : s.initialised = true) (input : ℕ → B) :
    ∃ out, s.render input = .ok out ∧ ∀ o, out o = (d o).elim 0 input := by
  have hnodup : (s.mRoutings.toList.map Prod.fst).Nodup := by
    apply List.Nodup.map_on
    · rintro ⟨o, i⟩ he ⟨o', i'⟩ he' heq
      cases heq
      rw [hs.isGraph.unique he he']
    · exact List.Nodup.of_map _ s.mRoutings.nodup_keys
  obtain ⟨out, hout, hmem, hother⟩ := foldlM_addRoute (s := s) input
    (fun e he => (hs.within e.1 e.2 he).symm) hnodup fun _ => 0
  refine ⟨out, ?_, fun o => ?_⟩
  · unfold render
    rw [if_pos hinit]
    exact hout
  · cases hd : d o with
    | some i =>
      have hconnected : s.Connected o i := (hs.isGraph o i).mpr hd
      rw [hmem (o, i) hconnected, zero_add]
      rfl
    | none =>
      refine hother o fun ho => ?_
      obtain ⟨⟨o', i⟩, he, rfl⟩ := List.mem_map.mp ho
      rw [(hs.isGraph o' i).mp he] at hd
      cases hd

end Outputs

theorem shows_of_reaches (h : Reaches s d) : s.Shows d := by
  induction h with
  | start =>
    refine ⟨IsGraph.empty (not_connected_empty rfl), ?_⟩
    intro output input hconnected
    exact absurd hconnected (not_connected_empty rfl output input)
  | step _ hcall ih => exact (perform_correct ih hcall).2

/-- `process()` keeps the buffers. -/
theorem initialised_updateRoutings (s : SignalRouting) :
    s.updateRoutings.2.initialised = s.initialised := by
  unfold updateRoutings
  cases s.mControlInput with
  | none => rfl
  | some control =>
    dsimp only
    split
    · rcases s.insertAll control.data.routings.toList KeyedSet.empty with ⟨_ | _, _⟩ <;> rfl
    · rfl

/-- **What holds after admissible calls**: outputs have one input at most, the next call is
correct, and the outputs are those inputs or silent. -/
theorem reaches_correct {B : Type} [AddZeroClass B] (h : Reaches s d) :
    (∀ output input input', s.Connected output input → s.Connected output input' →
      input = input') ∧
    (∀ output input, s.Connected output input ↔ d output = some input) ∧
    (∀ call, s.Admissible call → s.Correct d call) ∧
    (s.Admissible .process → ∀ input : ℕ → B, ∃ out, (s.process input).1 = .ok out ∧
      ∀ o, out o = (s.connectionsAfter d .process o).elim 0 input) := by
  have hs := shows_of_reaches h
  refine ⟨?_, hs.isGraph, fun call hcall => (perform_correct hs hcall).1, fun hcall input => ?_⟩
  · intro output input input' hinput hinput'
    exact hs.isGraph.unique hinput hinput'
  · have hafter := (perform_correct hs hcall).2
    have hinit : (s.perform .process).2.initialised = true :=
      (initialised_updateRoutings s).trans hcall.1
    exact render_eq hafter hinit input

/-! ### Two inputs for one output -/

/-- Two inputs, one output, and a connection between the first input and the output. -/
def connected : SignalRouting := ((create.setup 2 1 false).2.setRouting 0 0).2

theorem reaches_connected : Reaches connected (Function.update (fun _ => none) 0 (some 0)) := by
  have hsetup : create.Admissible (.setup 2 1 false) := Or.inr (Or.inl rfl)
  have hrouting : (create.setup 2 1 false).2.Admissible (.setRouting 0 0) := by
    refine Or.inr ⟨by decide, ?_⟩
    intro other hother
    exact absurd hother (not_connected_empty rfl 0 other)
  have hreaches := (Reaches.start.step hsetup).step hrouting
  have hd : SignalRouting.connectionsAfter (create.perform (.setup 2 1 false)).2
      (create.connectionsAfter (fun _ => none) (.setup 2 1 false)) (.setRouting 0 0) =
      Function.update (fun _ => none) 0 (some 0) := rfl
  rw [hd] at hreaches
  exact hreaches

theorem reaches_correct_connected :
    (∀ output input input', connected.Connected output input →
      connected.Connected output input' → input = input') ∧
    (∀ output input, connected.Connected output input ↔
      Function.update (fun _ => none) 0 (some 0) output = some input) ∧
    (∀ call, connected.Admissible call →
      connected.Correct (Function.update (fun _ => none) 0 (some 0)) call) ∧
    (connected.Admissible .process → ∀ input : ℕ → ℤ, ∃ out,
      (connected.process input).1 = .ok out ∧ ∀ o, out o = (connected.connectionsAfter
        (Function.update (fun _ => none) 0 (some 0)) .process o).elim 0 input) :=
  reaches_correct reaches_connected

/-- The first input stays connected when the second one is. -/
theorem setRouting_connected :
    Reaches connected (Function.update (fun _ => none) 0 (some 0)) ∧
    ¬connected.Correct (Function.update (fun _ => none) 0 (some 0)) (.setRouting 1 0) := by
  refine ⟨reaches_connected, ?_⟩
  rintro (⟨ex, s', hs', -⟩ | ⟨s', hs', hgraph⟩)
  · have hok : (connected.perform (.setRouting 1 0)).1 = .ok () := by decide
    rw [hs'] at hok
    cases hok
  · have hmem : (0, 0) ∈ (connected.perform (.setRouting 1 0)).2.mRoutings := by decide
    rw [hs'] at hmem
    have hdocumented := (hgraph 0 0).mp hmem
    revert hdocumented
    decide

end SignalRouting

end Visr
