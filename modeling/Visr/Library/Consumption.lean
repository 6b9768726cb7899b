import Mathlib.Data.List.Basic
import Visr.Library.Execution

/-!
# Components that take messages from their inputs

A component has several inputs for messages.  A call of the component takes messages from the
inputs, applies them to the inner part of the component, reports those that are refused, and
performs the work of the call.

## Main definitions

* `Handling`, `Call` — what is done with a message, and the outcome of a call.
* `Component` — a component with its inputs.
* `Session`, `step` — messages that arrive and calls, in any order.
* `Conforms` — a call takes each message from its input that it applies or reports, and fails only
  if it has reported one.
* `ConsumesOnce` — all calls of a run do so, and no message is lost or handled twice.
* `InTurn` — messages are accepted when it is their turn.
* `Takes`, `Accepts` — what is known of a component that meets such messages only.

## Main results

* `accounting` — **what has arrived has been handled or is pending**, if all calls conform.
* `consumesOnce_of_accepted` — the rule for components that meet no message that is refused.
-/

namespace Consumption

open Execution

variable {S K ι M N τ ε α : Type*}

/-- What is done with a message. -/
inductive Handling (M : Type*)
  | applied (m : M)
  | reported (m : M)

def Handling.message : Handling M → M
  | .applied m => m
  | .reported m => m

/-- A call: the state afterwards, what has been done with messages, and the result. -/
structure Call (S M ε α : Type*) where
  after : S
  handled : List (Handling M)
  result : Except ε α

/-- A part of a call, which may have failed. -/
structure Stage (S M ε : Type*) where
  after : S
  handled : List (Handling M)
  failure : Option ε

/-- The next part of a call, unless there has been a failure. -/
def Stage.andThen (part : Stage S M ε) (next : S → Stage S M ε) : Stage S M ε :=
  match part.failure with
  | some _ => part
  | none =>
    let following := next part.after
    { following with handled := part.handled ++ following.handled }

/-- The last part of a call, which has a result. -/
def Stage.finish (part : Stage S M ε) (work : S → S × Except ε α) : Call S M ε α :=
  match part.failure with
  | some failure => ⟨part.after, part.handled, .error failure⟩
  | none => ⟨(work part.after).1, part.handled, (work part.after).2⟩

/-- A component.  Some inputs are queues, the others hold the newest message only. -/
structure Component (S K ι M τ ε α : Type*) where
  port : M → ι
  isQueue : ι → Prop
  pending : S → ι → List M
  /-- A message arrives, if there is an input for it. -/
  receive : M → S → Option S
  inner : S → K
  /-- What it means to apply a message to the inner part. -/
  apply : M → K → K × Except ε Unit
  /-- The work of a call. -/
  perform : τ → K → K × Except ε α
  process : τ → S → Call S M ε α
  /-- After such a failure, the component can be called again. -/
  survives : ε → Bool

/-- The messages for an input. -/
def onPort [DecidableEq ι] (port : M → ι) (i : ι) (messages : List M) : List M :=
  messages.filter fun m => port m = i

section OnPort

variable [DecidableEq ι] {port : M → ι} {i : ι}

@[simp] theorem onPort_nil : onPort port i [] = [] := rfl

@[simp] theorem onPort_append (l l' : List M) :
    onPort port i (l ++ l') = onPort port i l ++ onPort port i l' := List.filter_append l l'

theorem onPort_singleton (m : M) : onPort port i [m] = if port m = i then [m] else [] := by
  by_cases h : port m = i
  · simp [onPort, h]
  · simp [onPort, h]

theorem onPort_of_forall {l : List M} (h : ∀ m ∈ l, port m = i) : onPort port i l = l := by
  apply List.filter_eq_self.mpr
  intro m hm
  simp [h m hm]

theorem onPort_of_forall_ne {l : List M} (h : ∀ m ∈ l, port m ≠ i) : onPort port i l = [] := by
  apply List.filter_eq_nil_iff.mpr
  intro m hm
  simp [h m hm]

end OnPort

/-- A component with what has happened to it. -/
structure Session (S M : Type*) where
  component : S
  arrived : List M
  handled : List (Handling M)

/-- The messages that have been handled. -/
def Session.messages (s : Session S M) : List M := s.handled.map Handling.message

inductive Event (M τ : Type*)
  | arrive (m : M)
  | call (argument : τ)

namespace Component

variable (comp : Component S K ι M τ ε α)

/-- One event. -/
def step (e : Event M τ) (s : Session S M) : Option (Session S M) :=
  match e with
  | .arrive m =>
    (comp.receive m s.component).map fun component =>
      { s with component := component, arrived := s.arrived ++ [m] }
  | .call argument =>
    let call := comp.process argument s.component
    match call.result with
    | .ok _ => some { s with component := call.after, handled := s.handled ++ call.handled }
    | .error failure =>
      if comp.survives failure then
        some { s with component := call.after, handled := s.handled ++ call.handled }
      else none

/-- The handling of messages leads from one state of the inner part to another; it is those
messages that are reported that cannot be applied. -/
def Replays : List (Handling M) → K → K → Prop
  | [], c, c' => c' = c
  | .applied m :: handled, c, c' =>
    (comp.apply m c).2 = .ok () ∧ Replays handled (comp.apply m c).1 c'
  | .reported m :: handled, c, c' =>
    (∃ failure, (comp.apply m c).2 = .error failure ∧ comp.survives failure = true) ∧
      Replays handled (comp.apply m c).1 c'

section Conforms

variable [DecidableEq ι]

/-- A call handles the messages of each input in their order and removes those that it has
handled.  It fails only if it has reported a message; otherwise no message is left, and the work
of the call has been done. -/
structure ConformsAt (argument : τ) (s : S) (call : Call S M ε α) : Prop where
  removes : ∀ i, comp.pending s i =
    onPort comp.port i (call.handled.map Handling.message) ++ comp.pending call.after i
  handles : ∃ c, comp.Replays call.handled (comp.inner s) c ∧
    ∀ output, call.result = .ok output → (∀ i, comp.pending call.after i = []) ∧
      comp.perform argument c = (comp.inner call.after, .ok output)
  fails : ∀ failure, call.result = .error failure →
    comp.survives failure = true ∧ ∃ m, .reported m ∈ call.handled

def Conforms (e : Event M τ) (s : Session S M) : Prop :=
  match e with
  | .arrive _ => True
  | .call argument => comp.ConformsAt argument s.component (comp.process argument s.component)

/-- The messages that have arrived at a queue are those that have been handled, each of them once
and in their order, and those that are pending. -/
def Accounts (s : Session S M) : Prop :=
  ∀ i, comp.isQueue i →
    onPort comp.port i s.messages ++ comp.pending s.component i = onPort comp.port i s.arrived

/-- **Each message is applied or reported exactly once**, during a run. -/
def ConsumesOnce (s : Session S M) (events : List (Event M τ)) : Prop :=
  Throughout comp.step comp.Conforms events s ∧
    ∀ past later t, events = past ++ later → exec comp.step past s = some t → comp.Accounts t

/-- The inputs of a component. -/
structure Inputs : Prop where
  inner : ∀ m s s', comp.receive m s = some s' → comp.inner s' = comp.inner s
  queue : ∀ m s s' i, comp.receive m s = some s' → comp.isQueue i →
    comp.pending s' i = comp.pending s i ++ onPort comp.port i [m]

end Conforms

/-! ### Runs -/

variable {comp}

theorem step_arrive {m : M} {s t : Session S M} (h : comp.step (.arrive m) s = some t) :
    ∃ component, comp.receive m s.component = some component ∧
      t = { s with component := component, arrived := s.arrived ++ [m] } := by
  obtain ⟨component, hcomponent, ht⟩ := Option.map_eq_some_iff.mp h
  exact ⟨component, hcomponent, ht.symm⟩

theorem step_call {argument : τ} {s t : Session S M}
    (h : comp.step (.call argument) s = some t) :
    t = { s with
      component := (comp.process argument s.component).after
      handled := s.handled ++ (comp.process argument s.component).handled } := by
  simp only [step] at h
  split at h
  · cases h
    rfl
  · split at h
    · cases h
      rfl
    · cases h

section Conforms

variable [DecidableEq ι]

/-- One event keeps the accounts, if it is not a call that does not conform. -/
theorem Accounts.step (hinputs : comp.Inputs) {e : Event M τ} {s t : Session S M}
    (hs : comp.Accounts s) (hconforms : comp.Conforms e s) (h : comp.step e s = some t) :
    comp.Accounts t := by
  intro i hi
  cases e with
  | arrive m =>
    obtain ⟨component, hcomponent, rfl⟩ := step_arrive h
    have hpending := hinputs.queue m s.component component i hcomponent hi
    simp only [Session.messages, onPort_append, hpending]
    rw [← hs i hi, List.append_assoc]
    rfl
  | call argument =>
    have ht := step_call h
    subst ht
    have hremoves := hconforms.removes i
    simp only [Session.messages, List.map_append, onPort_append]
    rw [List.append_assoc, ← hremoves]
    exact hs i hi

/-- **What has arrived has been handled or is pending.** -/
theorem accounting (hinputs : comp.Inputs) {events : List (Event M τ)} {s : Session S M}
    (hs : comp.Accounts s) (hconforms : Throughout comp.step comp.Conforms events s) :
    comp.ConsumesOnce s events := by
  refine ⟨hconforms, ?_⟩
  intro past later t hevents ht
  subst hevents
  apply exec_invariant (fun e s t hP hI hstep => hI.step hinputs hP hstep) _ hs ht
  exact (throughout_append.mp hconforms).1

end Conforms

/-! ### Messages that are accepted -/

/-- The inner part after messages have been applied. -/
def applyAll (comp : Component S K ι M τ ε α) (messages : List M) (c : K) : K :=
  messages.foldl (fun c m => (comp.apply m c).1) c

/-- Each message satisfies a condition when it is its turn. -/
def InTurn (comp : Component S K ι M τ ε α) (accepted : M → K → Prop) : List M → K → Prop
  | [], _ => True
  | m :: messages, c => accepted m c ∧ InTurn comp accepted messages (comp.apply m c).1

section InTurn

variable {accepted : M → K → Prop}

@[simp] theorem applyAll_nil (c : K) : comp.applyAll [] c = c := rfl

@[simp] theorem applyAll_cons (m : M) (messages : List M) (c : K) :
    comp.applyAll (m :: messages) c = comp.applyAll messages (comp.apply m c).1 := rfl

theorem applyAll_append (l l' : List M) (c : K) :
    comp.applyAll (l ++ l') c = comp.applyAll l' (comp.applyAll l c) := List.foldl_append

theorem inTurn_append {l l' : List M} {c : K} :
    comp.InTurn accepted (l ++ l') c ↔
      comp.InTurn accepted l c ∧ comp.InTurn accepted l' (comp.applyAll l c) := by
  induction l generalizing c with
  | nil => simp [InTurn]
  | cons m l ih => simp [InTurn, ih, and_assoc]

/-- What applying an accepted message keeps, applying all messages keeps. -/
theorem inTurn_keeps {I : K → Prop}
    (hstep : ∀ m c, accepted m c → I c → I (comp.apply m c).1) {messages : List M} {c : K}
    (h : comp.InTurn accepted messages c) (hc : I c) : I (comp.applyAll messages c) := by
  induction messages generalizing c with
  | nil => exact hc
  | cons m messages ih => exact ih h.2 (hstep m c h.1 hc)

/-- Messages that are applied without a failure. -/
theorem replays_applied (haccepted : ∀ m c, accepted m c → (comp.apply m c).2 = .ok ())
    {messages : List M} {c : K} (h : comp.InTurn accepted messages c) :
    comp.Replays (messages.map .applied) c (comp.applyAll messages c) := by
  induction messages generalizing c with
  | nil => exact rfl
  | cons m messages ih => exact ⟨haccepted m c h.1, ih h.2⟩

end InTurn

/-- A part of a call applies the messages of some inputs, one input after the other, if they are
accepted, and leaves the other inputs alone. -/
def Takes [DecidableEq ι] (comp : Component S K ι M τ ε α) (accepted : M → K → Prop)
    (part : S → Stage S M ε) (ports : List ι) : Prop :=
  ∀ s, comp.InTurn accepted (ports.flatMap (comp.pending s)) (comp.inner s) →
    ∃ s', part s = ⟨s', (ports.flatMap (comp.pending s)).map .applied, none⟩ ∧
      comp.inner s' = comp.applyAll (ports.flatMap (comp.pending s)) (comp.inner s) ∧
      ∀ i, comp.pending s' i = if i ∈ ports then [] else comp.pending s i

/-- What is known of a component when the messages that it meets are accepted: a call applies the
messages of all inputs, and does its work. -/
structure Accepts [DecidableEq ι] (comp : Component S K ι M τ ε α) (I : K → Prop)
    (accepted : M → K → Prop) (ready : τ → Prop) (ports : List ι) (part : S → Stage S M ε)
    (work : τ → S → S × Except ε α) : Prop where
  inputs : comp.Inputs
  nodup : ports.Nodup
  complete : ∀ i, i ∈ ports
  port : ∀ s i, ∀ m ∈ comp.pending s i, comp.port m = i
  apply : ∀ m c, accepted m c → (comp.apply m c).2 = .ok ()
  keeps : ∀ m c, accepted m c → I c → I (comp.apply m c).1
  perform : ∀ argument c, ready argument → I c →
    (∃ output, (comp.perform argument c).2 = .ok output) ∧ I (comp.perform argument c).1
  process : ∀ argument s, comp.process argument s = (part s).finish (work argument)
  takes : comp.Takes accepted part ports
  work : ∀ argument s, (work argument s).2 = (comp.perform argument (comp.inner s)).2 ∧
    comp.inner (work argument s).1 = (comp.perform argument (comp.inner s)).1 ∧
    ∀ i, comp.pending (work argument s).1 i = comp.pending s i

/-- The condition on a call. -/
def Accepted (comp : Component S K ι M τ ε α) (accepted : M → K → Prop) (ready : τ → Prop)
    (ports : List ι) (e : Event M τ) (s : Session S M) : Prop :=
  match e with
  | .arrive _ => True
  | .call argument => ready argument ∧
      comp.InTurn accepted (ports.flatMap (comp.pending s.component)) (comp.inner s.component)

section Accepts

variable [DecidableEq ι] {I : K → Prop} {accepted : M → K → Prop} {ready : τ → Prop}
  {ports : List ι} {part : S → Stage S M ε} {work : τ → S → S × Except ε α}

omit [DecidableEq ι] in
theorem flatMap_pending_congr {s s' : S} {l : List ι}
    (h : ∀ i ∈ l, comp.pending s' i = comp.pending s i) :
    l.flatMap (comp.pending s') = l.flatMap (comp.pending s) := by
  induction l with
  | nil => rfl
  | cons i l ih =>
    rw [List.flatMap_cons, List.flatMap_cons, h i List.mem_cons_self,
      ih fun j hj => h j (List.mem_cons_of_mem i hj)]

/-- **One part after the other.** -/
theorem Takes.andThen {first second : S → Stage S M ε} {l l' : List ι}
    (hfirst : comp.Takes accepted first l) (hsecond : comp.Takes accepted second l')
    (hdisjoint : ∀ i ∈ l', i ∉ l) :
    comp.Takes accepted (fun s => (first s).andThen second) (l ++ l') := by
  intro s h
  rw [List.flatMap_append] at h
  obtain ⟨hl, hl'⟩ := inTurn_append.mp h
  obtain ⟨s₁, hpart, hinner, hpending⟩ := hfirst s hl
  -- the inputs of the second part are as they were
  have hsame : l'.flatMap (comp.pending s₁) = l'.flatMap (comp.pending s) := by
    apply flatMap_pending_congr
    intro i hi
    rw [hpending, if_neg (hdisjoint i hi)]
  rw [← hinner, ← hsame] at hl'
  obtain ⟨s₂, hpart', hinner', hpending'⟩ := hsecond s₁ hl'
  refine ⟨s₂, ?_, ?_, ?_⟩
  · simp only [Stage.andThen, hpart, hpart', hsame, List.flatMap_append, List.map_append]
  · rw [hinner', hinner, hsame, List.flatMap_append, applyAll_append]
  · intro i
    rw [hpending', hpending]
    by_cases hi' : i ∈ l'
    · simp [hi']
    · simp [hi']

/-- The pending messages of an input are those for it. -/
theorem onPort_flatMap {s : S} (hport : ∀ i, ∀ m ∈ comp.pending s i, comp.port m = i)
    {l : List ι} (hl : l.Nodup) {i : ι} :
    onPort comp.port i (l.flatMap (comp.pending s)) =
      if i ∈ l then comp.pending s i else [] := by
  induction l with
  | nil => rfl
  | cons j l ih =>
    obtain ⟨hj, hl⟩ := List.nodup_cons.mp hl
    rw [List.flatMap_cons, onPort_append, ih hl]
    by_cases hij : i = j
    · subst hij
      rw [onPort_of_forall (hport i), if_neg hj, if_pos List.mem_cons_self, List.append_nil]
    · have hne : ∀ m ∈ comp.pending s j, comp.port m ≠ i := by
        intro m hm heq
        exact hij (heq.symm.trans (hport j m hm))
      rw [onPort_of_forall_ne hne, List.nil_append]
      simp [hij]

theorem map_message_applied (l : List M) :
    (l.map Handling.applied).map Handling.message = l := by
  rw [List.map_map]
  exact List.map_id l

/-- **A call that meets no message that is refused.** -/
theorem Accepts.call (h : comp.Accepts I accepted ready ports part work) {argument : τ} {s : S}
    (hready : ready argument) (hI : I (comp.inner s))
    (hturn : comp.InTurn accepted (ports.flatMap (comp.pending s)) (comp.inner s)) :
    comp.ConformsAt argument s (comp.process argument s) ∧
      I (comp.inner (comp.process argument s).after) := by
  obtain ⟨s', hpart, hinner, hpending⟩ := h.takes s hturn
  obtain ⟨hresult, hafter, hwork⟩ := h.work argument s'
  obtain ⟨⟨output, houtput⟩, hc'⟩ := h.perform argument _ hready (inTurn_keeps h.keeps hturn hI)
  rw [hinner] at hresult hafter
  have hempty : ∀ i, comp.pending (work argument s').1 i = [] := by
    intro i
    rw [hwork, hpending, if_pos (h.complete i)]
  rw [h.process, hpart]
  refine ⟨⟨?_, ⟨_, replays_applied h.apply hturn, ?_⟩, ?_⟩, ?_⟩
  · intro i
    simp only [Stage.finish, map_message_applied, hempty, List.append_nil]
    rw [onPort_flatMap (h.port s) h.nodup, if_pos (h.complete i)]
  · intro output' houtput'
    refine ⟨hempty, Prod.ext hafter.symm ?_⟩
    exact hresult.symm.trans houtput'
  · intro failure hfailure
    change (work argument s').2 = .error failure at hfailure
    rw [hresult, houtput] at hfailure
    cases hfailure
  · show I (comp.inner (work argument s').1)
    rw [hafter]
    exact hc'

/-- Calls that meet no message that is refused conform. -/
theorem Accepts.conforms (h : comp.Accepts I accepted ready ports part work)
    {events : List (Event M τ)} {s : Session S M} (hs : I (comp.inner s.component))
    (hevents : Throughout comp.step (comp.Accepted accepted ready ports) events s) :
    Throughout comp.step comp.Conforms events s := by
  induction events generalizing s with
  | nil => exact trivial
  | cons e events ih =>
    obtain ⟨he, hlater⟩ := hevents
    cases e with
    | arrive m =>
      refine ⟨trivial, ?_⟩
      intro t ht
      obtain ⟨component, hcomponent, rfl⟩ := step_arrive ht
      apply ih _ (hlater _ ht)
      rw [h.inputs.inner m s.component component hcomponent]
      exact hs
    | call argument =>
      obtain ⟨hconforms, hI⟩ := h.call he.1 hs he.2
      refine ⟨hconforms, ?_⟩
      intro t ht
      have heq := step_call ht
      subst heq
      exact ih hI (hlater _ ht)

/-- **Components that meet no message that is refused** consume each message once. -/
theorem consumesOnce_of_accepted (h : comp.Accepts I accepted ready ports part work)
    {events : List (Event M τ)} {s : S} (hs : I (comp.inner s))
    (hempty : ∀ i, comp.pending s i = [])
    (hevents : Throughout comp.step (comp.Accepted accepted ready ports) events ⟨s, [], []⟩) :
    comp.ConsumesOnce ⟨s, [], []⟩ events := by
  apply accounting h.inputs
  · -- nothing has arrived
    intro i _
    simp [Session.messages, hempty]
  · exact h.conforms hs hevents

end Accepts

/-! ### Messages that are refused -/

/-- A call that reports a message without removing it does not conform. -/
theorem not_conformsAt_of_kept [DecidableEq ι] {argument : τ} {s : S} {call : Call S M ε α} {m : M}
    (hhandled : call.handled = [.reported m])
    (hkept : comp.pending call.after (comp.port m) = comp.pending s (comp.port m)) :
    ¬comp.ConformsAt argument s call := by
  intro h
  have hremoves := h.removes (comp.port m)
  rw [hhandled, hkept] at hremoves
  have hlength := congrArg List.length hremoves
  simp [onPort_singleton, Handling.message] at hlength

/-- A call that reports a message and changes nothing does not conform. -/
theorem not_conformsAt_of_unchanged [DecidableEq ι] {argument : τ} {s : S} {m : M} {failure : ε}
    (h : comp.process argument s = ⟨s, [.reported m], .error failure⟩) :
    ¬comp.ConformsAt argument s (comp.process argument s) := by
  rw [h]
  exact not_conformsAt_of_kept rfl rfl

/-- The first message leads to a call that does not conform. -/
theorem not_consumesOnce_of_call [DecidableEq ι] {argument : τ} {s s' : S} {m : M}
    (hreceive : comp.receive m s = some s')
    (h : ¬comp.ConformsAt argument s' (comp.process argument s')) :
    ¬comp.ConsumesOnce ⟨s, [], []⟩ [.arrive m, .call argument] := by
  intro hconsumes
  obtain ⟨-, hcall⟩ := hconsumes.1
  have hstep : comp.step (.arrive m) ⟨s, [], []⟩ = some ⟨s', [m], []⟩ := by
    simp only [step, hreceive, Option.map_some, List.nil_append]
  exact h (hcall _ hstep).1

end Component

end Consumption
