import Visr.Library.Consumption
import Visr.Libpml.MessageQueueProtocol
import Visr.Librbbl.CoreConvolverUniform

/-!
# Loops over message queues

Components with message queues apply the messages at the beginning of a call, in a loop that
reports those for which an exception is thrown.

## Main results

* `MessageLoop.takes_takeMessages` — **messages that are accepted** are taken from the queue.
* `MessageLoop.consume_of_refused` — **the loop stops at a message that is refused**, which remains
  in the queue.
-/

namespace Visr

open Consumption

/-- `ComponentImplementation::status()` for an error. -/
def status (fullName message : String) : Exception :=
  .runtimeError (fullName ++ ": \"" ++ message ++ "\".")

/-- Components can be called again after an exception, but not after an undefined operation. -/
def Fault.survives : Fault → Bool
  | .thrown _ => true
  | _ => false

/-- An operation that has no effect when it fails. -/
def attempt {K : Type} (c : K) : Except Fault K → K × Except Fault Unit
  | .ok c' => (c', .ok ())
  | .error fault => (c, .error fault)

namespace MessageLoop

variable {K M N : Type}

/-- An error message with the text of the exception. -/
def report (fullName message : String) (e : Exception) : Exception :=
  status fullName (message ++ e.what)

/-- What has become of the queue and of the inner part of a component. -/
structure Outcome (K M N : Type) where
  queue : MessageQueueProtocol N
  inner : K
  handled : List (Handling M)
  failure : Option Fault

/-- The places of a loop where an exception is caught and reported: when the message is read, and
when it is removed. -/
structure TryBlock where
  front : Bool
  pop : Bool

/-- An exception, which is reported if it is caught. -/
def raise (report : Exception → Exception) (caught : Bool) (e : Exception) : Fault :=
  .thrown (if caught then report e else e)

/-- The loop, for at most `n` messages.  The exception by which a message is reported leaves the
loop before the message is removed. -/
def consume (wrap : N → M) (apply : M → K → K × Except Fault Unit)
    (report : Exception → Exception) (block : TryBlock) :
    ℕ → MessageQueueProtocol N → K → Outcome K M N
  | 0, queue, c => ⟨queue, c, [], none⟩
  | n + 1, queue, c =>
    if queue.empty then ⟨queue, c, [], none⟩
    else
      match queue.nextElement with
      | .error e => ⟨queue, c, [], some (raise report block.front e)⟩
      | .ok m =>
        match apply (wrap m) c with
        | (c, .error (.thrown e)) =>
          ⟨queue, c, [.reported (wrap m)], some (.thrown (report e))⟩
        | (c, .error fault) => ⟨queue, c, [], some fault⟩
        | (c, .ok ()) =>
          match queue.popNextElement with
          | .error e => ⟨queue, c, [.applied (wrap m)], some (raise report block.pop e)⟩
          | .ok queue =>
            let rest := consume wrap apply report block n queue c
            { rest with handled := .applied (wrap m) :: rest.handled }

/-- The messages in an input that may be missing. -/
def pendingMessages (input : Option (MessageQueueProtocol N)) : List N :=
  match input with
  | none => []
  | some queue => queue.elements

@[simp] theorem pendingMessages_none :
    pendingMessages (none : Option (MessageQueueProtocol N)) = [] := rfl

@[simp] theorem pendingMessages_some (queue : MessageQueueProtocol N) :
    pendingMessages (some queue) = queue.elements := rfl

/-- The part of a call that takes the messages from a queue, if there is one. -/
def takeMessages {S : Type} (input : S → Option (MessageQueueProtocol N)) (inner : S → K)
    (store : S → MessageQueueProtocol N → K → S) (wrap : N → M)
    (apply : M → K → K × Except Fault Unit) (report : S → Exception → Exception)
    (block : TryBlock) (s : S) : Stage S M Fault :=
  match input s with
  | none => ⟨s, [], none⟩
  | some queue =>
    let outcome :=
      consume wrap apply (report s) block queue.numberOfElements queue (inner s)
    ⟨store s outcome.queue outcome.inner, outcome.handled, outcome.failure⟩

/-! ### Messages that are accepted -/

section Accepted

variable {S ι τ α : Type} {comp : Component S K ι M τ Fault α} {accepted : M → K → Prop}
  {wrap : N → M}

/-- The loop applies the messages one after the other. -/
theorem consume_of_inTurn (report : Exception → Exception) (block : TryBlock)
    (haccepted : ∀ m c, accepted m c → (comp.apply m c).2 = .ok ())
    {messages : List N} {queue : MessageQueueProtocol N} {c : K}
    (hqueue : queue.elements = messages) (h : comp.InTurn accepted (messages.map wrap) c) :
    ∃ queue', consume wrap comp.apply report block queue.numberOfElements queue c =
        ⟨queue', comp.applyAll (messages.map wrap) c,
          (messages.map wrap).map .applied, none⟩ ∧ queue'.elements = [] := by
  rw [← MessageQueueProtocol.length_elements, hqueue]
  induction messages generalizing queue c with
  | nil => exact ⟨queue, rfl, hqueue⟩
  | cons m messages ih =>
    obtain ⟨hm, hlater⟩ := h
    obtain ⟨queue', hpop, hqueue'⟩ := MessageQueueProtocol.popNextElement_of_elements hqueue
    obtain ⟨queue'', hrest, hempty⟩ := ih hqueue' hlater
    have happly : comp.apply (wrap m) c = ((comp.apply (wrap m) c).1, .ok ()) :=
      Prod.ext rfl (haccepted _ _ hm)
    refine ⟨queue'', ?_, hempty⟩
    simp only [List.length_cons, consume, MessageQueueProtocol.empty_of_elements hqueue,
      MessageQueueProtocol.nextElement_of_elements hqueue, Bool.false_eq_true, if_false]
    rw [happly]
    simp only [hpop, hrest]
    rfl

/-- **The messages of a queue are taken**, and the other inputs are left alone. -/
theorem takes_takeMessages [DecidableEq ι] {input : S → Option (MessageQueueProtocol N)}
    {store : S → MessageQueueProtocol N → K → S} (report : S → Exception → Exception)
    (block : TryBlock) (i : ι)
    (haccepted : ∀ m c, accepted m c → (comp.apply m c).2 = .ok ())
    (hpending : ∀ s, comp.pending s i = (pendingMessages (input s)).map wrap)
    (hinner : ∀ s queue c, comp.inner (store s queue c) = c)
    (hinput : ∀ s queue c, input (store s queue c) = some queue)
    (hothers : ∀ s queue c j, j ≠ i → comp.pending (store s queue c) j = comp.pending s j) :
    comp.Takes accepted
      (takeMessages input comp.inner store wrap comp.apply report block) [i] := by
  intro s h
  rw [List.flatMap_singleton] at h ⊢
  unfold takeMessages
  cases hqueue : input s with
  | none =>
    have hempty : comp.pending s i = [] := by simp [hpending, hqueue]
    refine ⟨s, ?_, ?_, ?_⟩
    · simp [hempty]
    · simp [hempty]
    · intro j
      by_cases hj : j = i
      · simp [hj, hempty]
      · simp [hj]
  | some queue =>
    rw [hpending, hqueue, pendingMessages_some] at h ⊢
    obtain ⟨queue', hconsume, hempty⟩ := consume_of_inTurn (report s) block haccepted rfl h
    refine ⟨store s queue' _, ?_, hinner _ _ _, ?_⟩
    · simp only [hconsume]
    · intro j
      by_cases hj : j = i
      · subst hj
        simp [hpending, hinput, hempty]
      · simp [hj, hothers _ _ _ _ hj]

end Accepted

/-! ### Messages that are refused -/

section Refused

variable {apply : M → K → K × Except Fault Unit} {wrap : N → M} {m : N} {messages : List N}
  {queue : MessageQueueProtocol N} {c c' : K} {e : Exception}

/-- **The loop stops at a message that is refused.** -/
theorem consume_of_refused (report : Exception → Exception) (block : TryBlock)
    (hqueue : queue.elements = m :: messages)
    (h : apply (wrap m) c = (c', .error (.thrown e))) :
    consume wrap apply report block queue.numberOfElements queue c =
      ⟨queue, c', [.reported (wrap m)], some (.thrown (report e))⟩ := by
  rw [← MessageQueueProtocol.length_elements, hqueue, List.length_cons]
  simp only [consume, MessageQueueProtocol.empty_of_elements hqueue,
    MessageQueueProtocol.nextElement_of_elements hqueue, Bool.false_eq_true, if_false, h]

/-- The next message of a queue is refused without any effect. -/
def Blocked {S : Type} (input : S → Option (MessageQueueProtocol N)) (inner : S → K) (wrap : N → M)
    (apply : M → K → K × Except Fault Unit) (s : S) : Prop :=
  ∃ queue m messages e, input s = some queue ∧ queue.elements = m :: messages ∧
    apply (wrap m) (inner s) = (inner s, .error (.thrown e))

section Blocked

variable {S : Type} {input : S → Option (MessageQueueProtocol N)} {inner : S → K}
  {s : S}

/-- **Nothing happens** to a queue whose next message is refused. -/
theorem Blocked.takeMessages (h : Blocked input inner wrap apply s)
    (store : S → MessageQueueProtocol N → K → S) (report : S → Exception → Exception)
    (block : TryBlock) (hstore : ∀ queue, input s = some queue → store s queue (inner s) = s) :
    ∃ m e, takeMessages input inner store wrap apply report block s =
      ⟨s, [.reported (wrap m)], some (.thrown e)⟩ := by
  obtain ⟨queue, m, messages, e, hinput, hqueue, hrefused⟩ := h
  refine ⟨m, report s e, ?_⟩
  simp only [MessageLoop.takeMessages, hinput,
    consume_of_refused (report s) block hqueue hrefused, hstore queue hinput]

end Blocked

end Refused

end MessageLoop

end Visr
