import Mathlib.Data.List.Induction
import Mathlib.Data.List.Nodup
import Mathlib.Logic.Function.Basic
import Mathlib.Tactic.Tauto
import Visr.Libefl.Basic
import Visr.Library.Execution

/-!
# The double-buffering protocol

A writer modifies a value in the front buffer; swapping the buffers makes it visible to
any number of receivers, each of which has a flag that tells whether there was a swap.

## Main results

* `DoubleBufferingProtocol.publish_spec` — what is published is seen.
* `run_publishes` — **the protocol over whole runs.**
-/

namespace Visr

/-- A parameter type with its assignment, which may refuse a value (matrices and vectors
demand equal dimensions) and copies it otherwise. -/
class ParameterBase (V : Type) where
  assign (target source : V) : Except Exception V
  assign_eq {target source result : V} (h : assign target source = .ok result) : result = source

/-- The two parameter objects created by the constructor. -/
inductive BufferId
  | first
  | second
  deriving DecidableEq, Repr

/-- The other one of the two. -/
def BufferId.other : BufferId → BufferId
  | first => second
  | second => first

@[simp] theorem BufferId.other_other (b : BufferId) : b.other.other = b := by cases b <;> rfl

@[simp] theorem BufferId.other_ne (b : BufferId) : b.other ≠ b := by cases b <;> decide

/-- The protocol with values in `V`.  `frontData` tells which buffer `mFrontData` points to;
`mBackData` points to the other one.  Ports are identified by numbers. -/
structure DoubleBufferingProtocol (V : Type) where
  buffers : BufferId → V
  frontData : BufferId
  output : Option ℕ
  inputs : List ℕ

namespace DoubleBufferingProtocol

variable {V : Type}

/-- The constructor creates two parameter objects. -/
def create (backValue frontValue : V) : DoubleBufferingProtocol V where
  buffers
    | .first => backValue
    | .second => frontValue
  frontData := .second
  output := none
  inputs := []

def backData (p : DoubleBufferingProtocol V) : BufferId := p.frontData.other

/-- The value the writer continues from. -/
def frontValue (p : DoubleBufferingProtocol V) : V := p.buffers p.frontData

/-- The value the receivers see. -/
def backValue (p : DoubleBufferingProtocol V) : V := p.buffers p.backData

/-- Modification of a buffer through a reference to it. -/
def modifyBuffer (p : DoubleBufferingProtocol V) (b : BufferId) (f : V → V) :
    DoubleBufferingProtocol V :=
  { p with buffers := Function.update p.buffers b (f (p.buffers b)) }

/-- The exchange of the buffers, without the notification of the receivers. -/
def swapBuffers [ParameterBase V] (p : DoubleBufferingProtocol V) (copyValue : Bool) :
    Except Exception (DoubleBufferingProtocol V) := do
  let p ←
    if copyValue then do
      let back ← ParameterBase.assign p.backValue p.frontValue
      pure (p.modifyBuffer p.backData fun _ => back)
    else pure p
  return { p with frontData := p.backData }

@[simp] theorem frontValue_modifyBuffer (p : DoubleBufferingProtocol V) (f : V → V) :
    (p.modifyBuffer p.frontData f).frontValue = f p.frontValue := by
  simp [frontValue, modifyBuffer]

@[simp] theorem backValue_modifyBuffer (p : DoubleBufferingProtocol V) (f : V → V) :
    (p.modifyBuffer p.frontData f).backValue = p.backValue := by
  simp [backValue, backData, modifyBuffer]

/-- What a swap does to the buffers, if the assignment is accepted. -/
theorem swapBuffers_spec [ParameterBase V] {p p' : DoubleBufferingProtocol V} {copyValue : Bool}
    (h : p.swapBuffers copyValue = .ok p') :
    p'.backValue = p.frontValue ∧
      p'.frontValue = (if copyValue then p.frontValue else p.backValue) ∧
      p'.inputs = p.inputs := by
  have hne : p.frontData ≠ p.frontData.other := fun h => BufferId.other_ne _ h.symm
  cases copyValue with
  | false =>
    cases h
    refine ⟨?_, rfl, rfl⟩
    show p.buffers p.frontData.other.other = p.buffers p.frontData
    rw [BufferId.other_other]
  | true =>
    obtain ⟨back, hback, hp'⟩ := exists_of_bind_ok h
    cases hp'
    cases ParameterBase.assign_eq hback
    refine ⟨?_, ?_, rfl⟩
    · show Function.update p.buffers p.frontData.other _ p.frontData.other.other = _
      rw [BufferId.other_other, Function.update_of_ne hne]
      rfl
    · show Function.update p.buffers p.frontData.other _ p.frontData.other = _
      rw [Function.update_self]
      rfl

/-- The exchange of the buffers when the values are parameter objects whose assignment keeps
memory of its own, so that the result need not be the assigned object itself. -/
def swapBuffersBy (assign : V → V → Except Exception V) (p : DoubleBufferingProtocol V)
    (copyValue : Bool) : Except Exception (DoubleBufferingProtocol V) := do
  let p ←
    if copyValue then do
      let back ← assign p.backValue p.frontValue
      pure (p.modifyBuffer p.backData fun _ => back)
    else pure p
  return { p with frontData := p.backData }

/-- The exchange of the buffers without copying, for any parameter type. -/
def exchange (p : DoubleBufferingProtocol V) : DoubleBufferingProtocol V :=
  { p with frontData := p.backData }

@[simp] theorem frontValue_exchange (p : DoubleBufferingProtocol V) :
    p.exchange.frontValue = p.backValue := rfl

@[simp] theorem backValue_exchange (p : DoubleBufferingProtocol V) :
    p.exchange.backValue = p.frontValue := by
  show p.buffers p.frontData.other.other = p.buffers p.frontData
  rw [BufferId.other_other]

/-- After a swap with copying, the writer has the result of the assignment, and the receivers
have the assigned object. -/
theorem swapBuffersBy_ok {assign : V → V → Except Exception V} {p : DoubleBufferingProtocol V}
    {result : V} (h : assign p.backValue p.frontValue = .ok result) :
    ∃ p', p.swapBuffersBy assign true = .ok p' ∧ p'.frontValue = result ∧
      p'.backValue = p.frontValue := by
  have hne : p.frontData ≠ p.frontData.other := fun h => BufferId.other_ne _ h.symm
  have hswap : p.swapBuffersBy assign true =
      .ok { p.modifyBuffer p.backData fun _ => result with frontData := p.backData } := by
    unfold swapBuffersBy
    rw [if_pos rfl, h]
    rfl
  refine ⟨_, hswap, ?_, ?_⟩
  · exact Function.update_self _ _ _
  · show Function.update p.buffers p.frontData.other _ p.frontData.other.other = _
    rw [BufferId.other_other, Function.update_of_ne hne]
    rfl

/-- The writer leaves a value in the front buffer, and swaps the buffers without copying. -/
def publish [ParameterBase V] (p : DoubleBufferingProtocol V) (value : V) :
    Except Exception (DoubleBufferingProtocol V) :=
  (p.modifyBuffer p.frontData fun _ => value).swapBuffers false

/-- **A value that is published is seen**, and the writer continues from the value before. -/
theorem publish_spec [ParameterBase V] (p : DoubleBufferingProtocol V) (value : V) :
    ∃ p', p.publish value = .ok p' ∧ p'.backValue = value ∧ p'.frontValue = p.backValue := by
  have hok : p.publish value = .ok
      { p.modifyBuffer p.frontData fun _ => value with frontData := p.backData } := rfl
  obtain ⟨hback, hfront, -⟩ := swapBuffers_spec hok
  refine ⟨_, hok, ?_, ?_⟩
  · simpa using hback
  · simpa using hfront

end DoubleBufferingProtocol

/-- The protocol and the ports: whether their protocol pointer is set, and the flags of the
receivers. -/
structure DoubleBufferingSystem (V : Type) where
  protocol : DoubleBufferingProtocol V
  inputConnected : ℕ → Bool
  outputConnected : ℕ → Bool
  changed : ℕ → Bool

namespace DoubleBufferingSystem

open Execution DoubleBufferingProtocol

variable {V : Type}

/-- A new protocol and ports that are not attached to it; no change is signalled. -/
def create (backValue frontValue : V) : DoubleBufferingSystem V where
  protocol := .create backValue frontValue
  inputConnected _ := false
  outputConnected _ := false
  changed _ := false

/-! ### The ports -/

/-- `InputBase::data()`.  There is no result when the protocol pointer is null. -/
def inputData (s : DoubleBufferingSystem V) (port : ℕ) : Option V :=
  if s.inputConnected port then some s.protocol.backValue else none

def resetChanged (s : DoubleBufferingSystem V) (port : ℕ) : DoubleBufferingSystem V :=
  { s with changed := Function.update s.changed port false }

/-- `OutputBase::data()`: a reference to the front buffer. -/
def outputData (s : DoubleBufferingSystem V) (port : ℕ) : Option BufferId :=
  if s.outputConnected port then some s.protocol.frontData else none

/-- Modification of the value through `OutputBase::data()`. -/
def modify (s : DoubleBufferingSystem V) (port : ℕ) (f : V → V) :
    Option (DoubleBufferingSystem V) :=
  (s.outputData port).map fun b => { s with protocol := s.protocol.modifyBuffer b f }

/-- `OutputBase::swapBuffers()`, which marks all attached receivers as changed. -/
def swapBuffers [ParameterBase V] (s : DoubleBufferingSystem V) (port : ℕ) (copyValue : Bool) :
    Option (Except Exception (DoubleBufferingSystem V)) :=
  if s.outputConnected port then
    some ((s.protocol.swapBuffers copyValue).map fun protocol => { s with
      protocol := protocol
      changed := fun r => if r ∈ s.protocol.inputs then true else s.changed r })
  else none

/-! ### Connections -/

def connectInput (s : DoubleBufferingSystem V) (port : ℕ) : DoubleBufferingSystem V :=
  { s with
    protocol :=
      if port ∈ s.protocol.inputs then s.protocol
      else { s.protocol with inputs := s.protocol.inputs ++ [port] }
    inputConnected := Function.update s.inputConnected port true }

def connectOutput (s : DoubleBufferingSystem V) (port : ℕ) :
    Except Exception (DoubleBufferingSystem V) :=
  if s.protocol.output.isSome then
    .error (.invalidArgument
      "DoubleBufferingProtocol::connectOutput(): output port already set.")
  else .ok { s with
    protocol := { s.protocol with output := some port }
    outputConnected := Function.update s.outputConnected port true }

/-- The result tells whether the port was attached. -/
def disconnectInput (s : DoubleBufferingSystem V) (port : ℕ) : Bool × DoubleBufferingSystem V :=
  if port ∉ s.protocol.inputs then (false, s)
  else (true, { s with
    protocol := { s.protocol with inputs := s.protocol.inputs.erase port }
    inputConnected := Function.update s.inputConnected port false })

def disconnectOutput (s : DoubleBufferingSystem V) (port : ℕ) : Bool × DoubleBufferingSystem V :=
  if s.protocol.output ≠ some port then (false, s)
  else (true, { s with
    protocol := { s.protocol with output := none }
    outputConnected := Function.update s.outputConnected port false })

/-! ### The attached receivers -/

/-- The protocol pointers of the receivers agree with the list kept by the protocol. -/
structure Attached (s : DoubleBufferingSystem V) : Prop where
  nodup : s.protocol.inputs.Nodup
  inputs : ∀ port, s.inputConnected port = true ↔ port ∈ s.protocol.inputs

theorem attached_create (backValue frontValue : V) : (create backValue frontValue).Attached :=
  ⟨List.nodup_nil, by simp [create, DoubleBufferingProtocol.create]⟩

theorem Attached.connectInput {s : DoubleBufferingSystem V} (h : s.Attached) (port : ℕ) :
    (s.connectInput port).Attached := by
  have hinputs : ∀ r, r ∈ (s.connectInput port).protocol.inputs ↔
      r ∈ s.protocol.inputs ∨ r = port := by
    intro r
    unfold DoubleBufferingSystem.connectInput
    by_cases hmem : port ∈ s.protocol.inputs
    · simp only [if_pos hmem]
      refine ⟨Or.inl, ?_⟩
      rintro (hr | rfl)
      · exact hr
      · exact hmem
    · simp [if_neg hmem]
  constructor
  · show (if port ∈ s.protocol.inputs then s.protocol
      else { s.protocol with inputs := s.protocol.inputs ++ [port] }).inputs.Nodup
    split
    · exact h.nodup
    next hmem =>
      rw [← List.concat_eq_append]
      exact h.nodup.concat hmem
  · intro r
    rw [hinputs]
    show Function.update s.inputConnected port true r = true ↔ _
    by_cases hr : r = port
    · simp [hr]
    · simp [hr, h.inputs r]

theorem Attached.disconnectInput {s : DoubleBufferingSystem V} (h : s.Attached) (port : ℕ) :
    (s.disconnectInput port).2.Attached := by
  unfold DoubleBufferingSystem.disconnectInput
  split
  · exact h
  · refine ⟨h.nodup.erase port, fun r => ?_⟩
    show Function.update s.inputConnected port false r = true ↔ r ∈ s.protocol.inputs.erase port
    rw [h.nodup.mem_erase_iff]
    by_cases hr : r = port
    · simp [hr]
    · simp [hr, h.inputs r]

/-! ### Runs -/

/-- What may happen, in any order. -/
inductive Operation (V : Type)
  | inputData (port : ℕ)
  | resetChanged (port : ℕ)
  | modify (port : ℕ) (f : V → V)
  | swapBuffers (port : ℕ) (copyValue : Bool)
  | connectInput (port : ℕ)
  | connectOutput (port : ℕ)
  | disconnectInput (port : ℕ)
  | disconnectOutput (port : ℕ)

/-- The state after an operation that may throw, which leaves it as it is then. -/
def afterwards (s : DoubleBufferingSystem V) :
    Except Exception (DoubleBufferingSystem V) → DoubleBufferingSystem V
  | .ok s' => s'
  | .error _ => s

variable [ParameterBase V]

/-- One operation.  There is no result when a null pointer is dereferenced. -/
def step (op : Operation V) (s : DoubleBufferingSystem V) : Option (DoubleBufferingSystem V) :=
  match op with
  | .inputData port => (s.inputData port).map fun _ => s
  | .resetChanged port => some (s.resetChanged port)
  | .modify port f => s.modify port f
  | .swapBuffers port copyValue => (s.swapBuffers port copyValue).map s.afterwards
  | .connectInput port => some (s.connectInput port)
  | .connectOutput port => some (s.afterwards (s.connectOutput port))
  | .disconnectInput port => some (s.disconnectInput port).2
  | .disconnectOutput port => some (s.disconnectOutput port).2

/-- The operation is a swap that takes place: it does not throw. -/
def Operation.swaps (op : Operation V) (s : DoubleBufferingSystem V) : Prop :=
  ∃ port copyValue s', op = .swapBuffers port copyValue ∧
    s.swapBuffers port copyValue = some (.ok s')

def Operation.isResetOf (port : ℕ) : Operation V → Bool
  | .resetChanged port' => port' = port
  | _ => false

/-- `v` is the value that the writer's data held at the most recent swap of a run from `s₀`,
or the initial value if there was none. -/
def Publishes (s₀ : DoubleBufferingSystem V) (ops : List (Operation V)) (v : V) : Prop :=
  (∃ past op later before after, ops = past ++ op :: later ∧
      exec step past s₀ = some before ∧ op.swaps before ∧ step op before = some after ∧
      Throughout step (fun op s => ¬ op.swaps s) later after ∧ v = before.protocol.frontValue) ∨
    Throughout step (fun op s => ¬ op.swaps s) ops s₀ ∧ v = s₀.protocol.backValue

/-- In a run from `s₀`, a swap happened while a receiver was connected, and the receiver has
not reset its flag since. -/
def ChangedSince (s₀ : DoubleBufferingSystem V) (ops : List (Operation V)) (port : ℕ) : Prop :=
  ∃ past op later before, ops = past ++ op :: later ∧
    exec step past s₀ = some before ∧ op.swaps before ∧ before.inputConnected port = true ∧
    ∀ op ∈ later, op.isResetOf port = false

theorem not_swaps {s : DoubleBufferingSystem V} {op : Operation V}
    (h : ∀ port copyValue, op ≠ .swapBuffers port copyValue) : ¬ op.swaps s := by
  rintro ⟨port, copyValue, _, heq, -⟩
  exact h port copyValue heq

/-- What an operation other than a swap does to the buffers and the flags. -/
structure Quiet (s s' : DoubleBufferingSystem V) (op : Operation V) : Prop where
  backValue : s'.protocol.backValue = s.protocol.backValue
  changed : ∀ port, s'.changed port = if op.isResetOf port then false else s.changed port
  attached : s.Attached → s'.Attached

/-- **One operation.**  Only a swap publishes a value and raises the flags. -/
theorem step_cases {s s' : DoubleBufferingSystem V} {op : Operation V}
    (h : step op s = some s') :
    (op.swaps s ∧ s'.protocol.backValue = s.protocol.frontValue ∧
      s'.protocol.inputs = s.protocol.inputs ∧ s'.inputConnected = s.inputConnected ∧
      ∀ r, s'.changed r = if r ∈ s.protocol.inputs then true else s.changed r) ∨
    (¬ op.swaps s ∧ Quiet s s' op) := by
  cases op with
  | swapBuffers port copyValue =>
    obtain ⟨result, hresult, rfl⟩ := Option.map_eq_some_iff.mp h
    -- a swap that throws an exception publishes nothing
    cases result with
    | error e =>
      refine Or.inr ⟨?_, rfl, fun _ => rfl, id⟩
      rintro ⟨_, _, _, heq, hok⟩
      cases heq
      cases hresult.symm.trans hok
    | ok s' =>
      have hswaps : (Operation.swapBuffers port copyValue).swaps s := ⟨_, _, _, rfl, hresult⟩
      unfold swapBuffers at hresult
      split at hresult
      · obtain ⟨protocol, hprotocol, hs'⟩ := exists_of_map_ok (Option.some.inj hresult)
        cases hs'
        obtain ⟨hback, -, hinputs⟩ := swapBuffers_spec hprotocol
        exact Or.inl ⟨hswaps, hback, hinputs, rfl, fun _ => rfl⟩
      · cases hresult
  | inputData port =>
    obtain ⟨_, _, rfl⟩ := Option.map_eq_some_iff.mp h
    exact Or.inr ⟨not_swaps nofun, rfl, fun _ => rfl, id⟩
  | resetChanged port =>
    cases h
    refine Or.inr ⟨not_swaps nofun, rfl, fun r => ?_, fun h => ⟨h.nodup, h.inputs⟩⟩
    show Function.update s.changed port false r = _
    by_cases hr : port = r
    · simp [Operation.isResetOf, hr]
    · simp [Operation.isResetOf, hr, Ne.symm hr]
  | modify port f =>
    obtain ⟨b, hb, rfl⟩ := Option.map_eq_some_iff.mp h
    unfold outputData at hb
    split at hb
    · cases hb
      exact Or.inr ⟨not_swaps nofun, backValue_modifyBuffer _ _, fun _ => rfl,
        fun h => ⟨h.nodup, h.inputs⟩⟩
    · cases hb
  | connectInput port =>
    cases h
    refine Or.inr ⟨not_swaps nofun, ?_, fun _ => rfl, fun h => h.connectInput port⟩
    show (if port ∈ s.protocol.inputs then s.protocol
      else { s.protocol with inputs := s.protocol.inputs ++ [port] }).backValue = _
    split <;> rfl
  | connectOutput port =>
    cases h
    refine Or.inr ⟨not_swaps nofun, ?_⟩
    unfold connectOutput
    split
    · exact ⟨rfl, fun _ => rfl, id⟩
    · exact ⟨rfl, fun _ => rfl, fun h => ⟨h.nodup, h.inputs⟩⟩
  | disconnectInput port =>
    cases h
    refine Or.inr ⟨not_swaps nofun, ?_, fun r => ?_, fun h => h.disconnectInput port⟩
    · unfold DoubleBufferingSystem.disconnectInput
      split <;> rfl
    · unfold DoubleBufferingSystem.disconnectInput
      split <;> rfl
  | disconnectOutput port =>
    cases h
    refine Or.inr ⟨not_swaps nofun, ?_⟩
    unfold disconnectOutput
    split
    · exact ⟨rfl, fun _ => rfl, id⟩
    · exact ⟨rfl, fun _ => rfl, fun h => ⟨h.nodup, h.inputs⟩⟩

theorem step_attached {s s' : DoubleBufferingSystem V} {op : Operation V} (hs : s.Attached)
    (h : step op s = some s') : s'.Attached := by
  rcases step_cases h with ⟨-, -, hinputs, hconnected, -⟩ | ⟨-, hquiet⟩
  · refine ⟨?_, fun r => ?_⟩
    · rw [hinputs]
      exact hs.nodup
    · rw [hinputs, hconnected]
      exact hs.inputs r
  · exact hquiet.attached hs

theorem exec_attached {s₀ s : DoubleBufferingSystem V} {ops : List (Operation V)}
    (h₀ : s₀.Attached) (h : exec step ops s₀ = some s) : s.Attached :=
  exec_invariant (P := fun _ _ => True) (fun _ _ _ _ hs hstep => step_attached hs hstep)
    (throughout_of_forall (fun _ _ => trivial) s₀) h₀ h

/-! ### What is published -/

/-- Without a swap, the receivers keep seeing the same value. -/
theorem exec_backValue {s s' : DoubleBufferingSystem V} {ops : List (Operation V)}
    (hops : Throughout step (fun op s => ¬ op.swaps s) ops s) (h : exec step ops s = some s') :
    s'.protocol.backValue = s.protocol.backValue := by
  refine exec_invariant (I := fun x => x.protocol.backValue = s.protocol.backValue)
    (fun op x x' hop hx hstep => ?_) hops rfl h
  rcases step_cases hstep with ⟨hswaps, -⟩ | ⟨-, hquiet⟩
  · exact absurd hswaps hop
  · rw [hquiet.backValue, hx]

/-- The receivers see the value published. -/
theorem Publishes.backValue {s₀ s : DoubleBufferingSystem V} {ops : List (Operation V)} {v : V}
    (hv : Publishes s₀ ops v) (h : exec step ops s₀ = some s) : s.protocol.backValue = v := by
  rcases hv with ⟨past, op, later, before, after, rfl, hpast, hswaps, hstep, hlater, rfl⟩ |
    ⟨hops, rfl⟩
  · obtain ⟨before', hpast', hrest⟩ := exec_append_eq_some.mp h
    cases hpast.symm.trans hpast'
    obtain ⟨after', hstep', hexec⟩ := exec_cons_eq_some.mp hrest
    cases hstep.symm.trans hstep'
    rw [exec_backValue hlater hexec]
    rcases step_cases hstep with ⟨-, hback, -⟩ | ⟨hnot, -⟩
    · exact hback
    · exact absurd hswaps hnot
  · exact exec_backValue hops h

/-- Some value has always been published. -/
theorem exists_publishes {s₀ s : DoubleBufferingSystem V} {ops : List (Operation V)}
    (h : exec step ops s₀ = some s) : ∃ v, Publishes s₀ ops v := by
  induction ops using List.reverseRecOn generalizing s with
  | nil => exact ⟨_, Or.inr ⟨trivial, rfl⟩⟩
  | append_singleton ops op ih =>
    obtain ⟨before, hbefore, hstep⟩ := exec_concat_eq_some.mp h
    by_cases hop : op.swaps before
    · exact ⟨_, Or.inl ⟨ops, op, [], before, s, rfl, hbefore, hop, hstep, trivial, rfl⟩⟩
    · -- the most recent swap is an earlier one
      obtain ⟨v, hv⟩ := ih hbefore
      rcases hv with ⟨past, first, later, start, next, rfl, hpast, hswaps, hfirst, hlater, hv⟩ |
        ⟨hops, hv⟩
      · obtain ⟨start', hpast', hrest⟩ := exec_append_eq_some.mp hbefore
        cases hpast.symm.trans hpast'
        obtain ⟨next', hfirst', hexec⟩ := exec_cons_eq_some.mp hrest
        cases hfirst.symm.trans hfirst'
        exact ⟨v, Or.inl ⟨past, first, later ++ [op], start, next, by simp, hpast, hswaps, hfirst,
          (throughout_concat hexec).mpr ⟨hlater, hop⟩, hv⟩⟩
      · exact ⟨v, Or.inr ⟨(throughout_concat hbefore).mpr ⟨hops, hop⟩, hv⟩⟩

theorem publishes_iff {s₀ s : DoubleBufferingSystem V} {ops : List (Operation V)} {v : V}
    (h : exec step ops s₀ = some s) : Publishes s₀ ops v ↔ s.protocol.backValue = v := by
  refine ⟨fun hv => hv.backValue h, ?_⟩
  rintro rfl
  obtain ⟨v, hv⟩ := exists_publishes h
  rwa [hv.backValue h]

/-! ### The flags -/

/-- The history of a flag before the last operation. -/
theorem changedSince_concat {s₀ s : DoubleBufferingSystem V} {ops : List (Operation V)}
    {op : Operation V} (h : exec step ops s₀ = some s) (port : ℕ) :
    ChangedSince s₀ (ops ++ [op]) port ↔
      (op.swaps s ∧ s.inputConnected port = true) ∨
        (op.isResetOf port = false ∧ ChangedSince s₀ ops port) := by
  constructor
  · rintro ⟨past, first, later, before, heq, hpast, hswaps, hconnected, hlater⟩
    induction later using List.reverseRecOn with
    | nil =>
      -- the last operation is the swap
      obtain ⟨rfl, hop⟩ := List.append_inj' heq rfl
      cases hop
      cases h.symm.trans hpast
      exact Or.inl ⟨hswaps, hconnected⟩
    | append_singleton later op' _ =>
      rw [← List.cons_append, ← List.append_assoc] at heq
      obtain ⟨rfl, hop⟩ := List.append_inj' heq rfl
      cases hop
      rw [List.forall_mem_append] at hlater
      exact Or.inr ⟨hlater.2 op (List.mem_singleton_self op), past, first, later, before, rfl,
        hpast, hswaps, hconnected, hlater.1⟩
  · rintro (⟨hswaps, hconnected⟩ | ⟨hreset, past, first, later, before, rfl, hpast, hswaps,
      hconnected, hlater⟩)
    · exact ⟨ops, op, [], s, rfl, h, hswaps, hconnected, by simp⟩
    · refine ⟨past, first, later ++ [op], before, by simp, hpast, hswaps, hconnected, ?_⟩
      rw [List.forall_mem_append]
      exact ⟨hlater, by simpa using hreset⟩

/-- A flag is raised exactly if there is a swap that has not been acknowledged. -/
theorem changed_iff {s₀ s : DoubleBufferingSystem V} (h₀ : s₀.Attached)
    (hflags : ∀ port, s₀.changed port = false) {ops : List (Operation V)}
    (h : exec step ops s₀ = some s) (port : ℕ) :
    s.changed port = true ↔ ChangedSince s₀ ops port := by
  induction ops using List.reverseRecOn generalizing s with
  | nil =>
    cases h
    rw [hflags]
    refine iff_of_false Bool.false_ne_true ?_
    rintro ⟨past, first, later, before, heq, -⟩
    simp at heq
  | append_singleton ops op ih =>
    obtain ⟨before, hbefore, hstep⟩ := exec_concat_eq_some.mp h
    rw [changedSince_concat hbefore, ← ih hbefore]
    rcases step_cases hstep with ⟨hswaps, -, -, -, hchanged⟩ | ⟨hnot, hquiet⟩
    · have hreset : op.isResetOf port = false := by
        obtain ⟨_, _, _, rfl, -⟩ := hswaps
        rfl
      rw [hchanged, (exec_attached h₀ hbefore).inputs]
      by_cases hmem : port ∈ before.protocol.inputs
      · simp [hmem, hswaps]
      · simp [hmem, hreset]
    · rw [hquiet.changed]
      rcases op.isResetOf port with _ | _
      · simp [hnot]
      · simp [hnot]

/-! ### Whole runs -/

/-- **The protocol over whole runs.**  Every connected receiver reads the value that the
writer's data held at the most recent swap; its flag is raised exactly if a swap happened
while it was connected and it has not reset the flag since; and after a swap the writer
continues from the value just published if copying was requested, and otherwise from the
value published before. -/
theorem run_publishes (backValue frontValue : V) {ops : List (Operation V)}
    {s : DoubleBufferingSystem V} (h : exec step ops (create backValue frontValue) = some s) :
    (∀ port, s.inputConnected port = true → ∀ v,
      s.inputData port = some v ↔ Publishes (create backValue frontValue) ops v) ∧
    (∀ port, s.changed port = true ↔ ChangedSince (create backValue frontValue) ops port) ∧
    ∀ port copyValue s', s.swapBuffers port copyValue = some (.ok s') → ∀ v,
      Publishes (create backValue frontValue) ops v →
        s'.protocol.frontValue = if copyValue then s.protocol.frontValue else v := by
  refine ⟨fun port hconnected v => ?_, changed_iff (attached_create _ _) (fun _ => rfl) h,
    fun port copyValue s' hswap v hv => ?_⟩
  · rw [publishes_iff h, inputData, if_pos hconnected, Option.some.injEq]
  · unfold swapBuffers at hswap
    split at hswap
    · obtain ⟨protocol, hprotocol, rfl⟩ := exists_of_map_ok (Option.some.inj hswap)
      rw [← hv.backValue h]
      exact (swapBuffers_spec hprotocol).2.1
    · cases hswap

/-- A vector; vectors of different lengths are not assigned to each other. -/
instance : ParameterBase (List ℕ) where
  assign target source :=
    if target.length ≠ source.length then
      .error (.outOfRange "VectorParameter assignment: Sizes are different.")
    else .ok source
  assign_eq {target source result} h := by
    split at h
    · cases h
    · cases h
      rfl

/-- A modification made after the swap is not seen. -/
theorem run_publishes_late :
    ∃ s, exec step [.connectOutput 0, .connectInput 1, .modify 0 (fun _ => [5]),
      .swapBuffers 0 true, .modify 0 (fun v => v ++ [1])] (create [0] [0]) = some s ∧
      s.inputData 1 = some [5] ∧ s.changed 1 = true := by
  have hrun : exec step [.connectOutput 0, .connectInput 1, .modify 0 (fun _ => [5]),
    .swapBuffers 0 true, .modify 0 (fun v => v ++ [1])] (create [0] [0]) = some _ := rfl
  obtain ⟨hdata, hchanged, -⟩ := run_publishes [0] [0] hrun
  refine ⟨_, hrun, (hdata 1 rfl [5]).mpr ?_, (hchanged 1).mpr ?_⟩
  · refine Or.inl ⟨[.connectOutput 0, .connectInput 1, .modify 0 fun _ => [5]], _,
      [.modify 0 fun v => v ++ [1]], _, _, rfl, rfl, ⟨_, _, _, rfl, rfl⟩, rfl, ?_, rfl⟩
    exact ⟨not_swaps nofun, fun _ _ => trivial⟩
  · exact ⟨[.connectOutput 0, .connectInput 1, .modify 0 fun _ => [5]], _,
      [.modify 0 fun v => v ++ [1]], _, rfl, rfl, ⟨_, _, _, rfl, rfl⟩, rfl,
      by simp [Operation.isResetOf]⟩

end DoubleBufferingSystem

end Visr
