import Visr.Libefl.Basic

/-!
# The message queue protocol

A queue between one sender and one receiver of messages.

## Main results

* `MessageQueueProtocol.elements_enqueue`, `MessageQueueProtocol.popNextElement_of_elements` —
  first in, first out.
-/

namespace Visr

structure MessageQueueProtocol (M : Type) where
  queue : List M

namespace MessageQueueProtocol

variable {M : Type}

/-- Remove all elements from the message queue. -/
def clear (_p : MessageQueueProtocol M) : MessageQueueProtocol M := { queue := [] }

def empty (p : MessageQueueProtocol M) : Bool := p.queue.isEmpty

def numberOfElements (p : MessageQueueProtocol M) : ℕ := p.queue.length

/-- `mQueue.push_front( std::move( val ) )`. -/
def enqueue (p : MessageQueueProtocol M) (val : M) : MessageQueueProtocol M :=
  { queue := val :: p.queue }

/-- `mQueue.back()`. -/
def nextElement (p : MessageQueueProtocol M) : Except Exception M :=
  match p.queue.getLast? with
  | none => .error (.logicError "Calling nextElement() on an empty message queue.")
  | some val => .ok val

/-- `mQueue.pop_back()`. -/
def popNextElement (p : MessageQueueProtocol M) : Except Exception (MessageQueueProtocol M) :=
  if p.empty then .error (.logicError "Calling nextElement() on an empty message queue.")
  else .ok { queue := p.queue.dropLast }

/-- The messages in the order in which they are taken from the queue. -/
def elements (p : MessageQueueProtocol M) : List M := p.queue.reverse

@[simp] theorem elements_clear (p : MessageQueueProtocol M) : p.clear.elements = [] := rfl

@[simp] theorem elements_enqueue (p : MessageQueueProtocol M) (val : M) :
    (p.enqueue val).elements = p.elements ++ [val] := List.reverse_cons

theorem length_elements (p : MessageQueueProtocol M) :
    p.elements.length = p.numberOfElements := List.length_reverse

theorem empty_eq_true_iff {p : MessageQueueProtocol M} :
    p.empty = true ↔ p.elements = [] := by
  rw [empty, List.isEmpty_iff, elements, List.reverse_eq_nil_iff]

section Cons

variable {p : MessageQueueProtocol M} {val : M} {rest : List M}

theorem empty_of_elements (h : p.elements = val :: rest) : p.empty = false := by
  refine eq_false_of_ne_true fun hempty => ?_
  rw [empty_eq_true_iff.mp hempty] at h
  cases h

/-- The oldest message is the next one. -/
theorem nextElement_of_elements (h : p.elements = val :: rest) : p.nextElement = .ok val := by
  have hqueue : p.queue = rest.reverse ++ [val] := by
    rw [← List.reverse_cons, ← h, elements, List.reverse_reverse]
  rw [nextElement, hqueue, List.getLast?_append, List.getLast?_singleton]
  rfl

/-- The oldest message is removed. -/
theorem popNextElement_of_elements (h : p.elements = val :: rest) :
    ∃ p', p.popNextElement = .ok p' ∧ p'.elements = rest := by
  have hqueue : p.queue = rest.reverse ++ [val] := by
    rw [← List.reverse_cons, ← h, elements, List.reverse_reverse]
  refine ⟨{ queue := rest.reverse }, ?_, List.reverse_reverse rest⟩
  rw [popNextElement, empty_of_elements h, if_neg Bool.false_ne_true, hqueue,
    List.dropLast_concat]

end Cons

end MessageQueueProtocol

end Visr
