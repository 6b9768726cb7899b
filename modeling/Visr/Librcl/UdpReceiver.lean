import Visr.Libpml.MessageQueueProtocol

/-!
# The UDP receiver

The component receives datagrams by asynchronous operations of a socket, all of which use the
same buffer.  The handler of an operation copies the data into a queue, from which it is sent
within the next call of the `process()` function.

## Main results

* `UdpReceiver.Impl.receive_spec`, `UdpReceiver.Impl.complete_spec`,
  `UdpReceiver.Impl.process_spec` — datagrams become messages in the order of their arrival, and
  there is still one operation.
-/

namespace Visr

namespace UdpReceiver

inductive Mode
  | synchronous
  | asynchronous
  deriving DecidableEq, Repr

def cMaxMessageLength : ℕ := 65536

structure Impl where
  mMode : Mode
  mReceiveBuffer : List UInt8
  mInternalMessageBuffer : List (List UInt8)
  /-- The operations that were started by `async_receive_from` and whose handlers have not been
  called, with the number of bytes that were received. -/
  operations : List (Option ℕ)

/-- `mSocket->async_receive_from()`. -/
def Impl.asyncReceiveFrom (impl : Impl) : Impl :=
  { impl with operations := impl.operations ++ [none] }

/-- The state after the constructor. -/
def Impl.create (mode : Mode) (buffer : List UInt8) : Impl :=
  Impl.asyncReceiveFrom ⟨mode, buffer, [], []⟩

/-- `UdpReceiver::Impl::handleReceiveData()`, which does not look at the error. -/
def Impl.handleReceiveData (numBytesTransferred : ℕ) (impl : Impl) : Impl :=
  { impl with mInternalMessageBuffer := impl.mInternalMessageBuffer ++
      [impl.mReceiveBuffer.take numBytesTransferred] }.asyncReceiveFrom

/-- The bytes of a buffer after others have been written to its beginning. -/
def overwrite (data buffer : List UInt8) : List UInt8 := data ++ buffer.drop data.length

/-- The network stack stores a datagram for the `k`-th operation, as far as there is space. -/
def Impl.receive (k : ℕ) (datagram : List UInt8) (impl : Impl) : Option Impl :=
  match impl.operations[k]? with
  | some none =>
    let data := datagram.take impl.mReceiveBuffer.length
    some { impl with
      mReceiveBuffer := overwrite data impl.mReceiveBuffer
      operations := impl.operations.set k (some data.length) }
  | _ => none

/-- The `k`-th operation fails. -/
def Impl.receiveError (k : ℕ) (impl : Impl) : Option Impl :=
  match impl.operations[k]? with
  | some none => some { impl with operations := impl.operations.set k (some 0) }
  | _ => none

/-- The handler of the `k`-th operation is called. -/
def Impl.complete (k : ℕ) (impl : Impl) : Option Impl :=
  match impl.operations[k]? with
  | some (some numBytesTransferred) =>
    some ({ impl with operations := impl.operations.eraseIdx k }.handleReceiveData
      numBytesTransferred)
  | _ => none

/-- `mIoService->poll()`, which calls handlers until nothing more is ready.  What is ready
depends on the network stack; this is the result after `n` attempts. -/
def Impl.poll : ℕ → Impl → List (List UInt8) → Impl × List (List UInt8)
  | 0, impl, socket => (impl, socket)
  | n + 1, impl, socket =>
    match impl.complete 0 with
    | some impl => poll n impl socket
    | none =>
      match socket with
      | [] => (impl, [])
      | datagram :: socket =>
        match impl.receive 0 datagram with
        | some impl => poll n impl socket
        | none => (impl, datagram :: socket)

/-- The loop of `process()`. -/
def enqueueAll (messageOutput : MessageQueueProtocol (List UInt8)) :
    List (List UInt8) → MessageQueueProtocol (List UInt8)
  | [] => messageOutput
  | nextMsg :: messages => enqueueAll (messageOutput.enqueue nextMsg) messages

/-- What a call of `process()` has done. -/
structure Outcome where
  impl : Impl
  socket : List (List UInt8)
  messageOutput : MessageQueueProtocol (List UInt8)

/-- `UdpReceiver::Impl::process()`. -/
def Impl.process (polls : ℕ) (impl : Impl) (socket : List (List UInt8))
    (messageOutput : MessageQueueProtocol (List UInt8)) : Outcome :=
  let (impl, socket) :=
    match impl.mMode with
    | .synchronous => impl.poll polls socket
    | .asynchronous => (impl, socket)
  ⟨{ impl with mInternalMessageBuffer := [] }, socket,
    enqueueAll messageOutput impl.mInternalMessageBuffer⟩

/-! ### The order of the messages -/

/-- The message for a datagram. -/
def received (datagram : List UInt8) : List UInt8 := datagram.take cMaxMessageLength

/-- The messages for the datagrams that the network stack has stored. -/
def Impl.arrived (impl : Impl) : List (List UInt8) :=
  impl.mInternalMessageBuffer ++ impl.operations.filterMap fun operation =>
    operation.map impl.mReceiveBuffer.take

/-- There is one operation, and nothing else uses the buffer. -/
structure Impl.Listening (impl : Impl) : Prop where
  length : impl.mReceiveBuffer.length = cMaxMessageLength
  operation : ∃ done, impl.operations = [done]

theorem Impl.listening_create (mode : Mode) {buffer : List UInt8}
    (h : buffer.length = cMaxMessageLength) : (Impl.create mode buffer).Listening where
  length := h
  operation := ⟨none, rfl⟩

theorem length_overwrite {data buffer : List UInt8} (h : data.length ≤ buffer.length) :
    (overwrite data buffer).length = buffer.length := by
  rw [overwrite, List.length_append, List.length_drop]
  omega

@[simp] theorem take_overwrite (data buffer : List UInt8) :
    (overwrite data buffer).take data.length = data := by
  rw [overwrite, List.take_left]

section Operations

variable {impl impl' : Impl} {k : ℕ} {datagram : List UInt8}

theorem Impl.Listening.getElem? (h : impl.Listening) {done : Option ℕ}
    (hk : impl.operations[k]? = some done) : k = 0 ∧ impl.operations = [done] := by
  obtain ⟨done', hoperations⟩ := h.operation
  rw [hoperations, List.getElem?_singleton] at hk
  split at hk
  · exact ⟨‹k = 0›, by rw [hoperations, Option.some.inj hk]⟩
  · cases hk

/-- **No bytes of earlier datagrams appear** in the message for a datagram. -/
theorem Impl.receive_spec (h : impl.Listening) (hreceive : impl.receive k datagram = some impl') :
    impl'.Listening ∧ impl'.mMode = impl.mMode ∧
      impl'.arrived = impl.arrived ++ [received datagram] := by
  obtain ⟨mode, buffer, messages, operations⟩ := impl
  unfold receive at hreceive
  cases hk : operations[k]? with
  | none => simp [hk] at hreceive
  | some done =>
    obtain ⟨rfl, rfl⟩ := h.getElem? hk
    cases done with
    | some n => cases hreceive
    | none =>
      obtain rfl := Option.some.inj hreceive
      have hlength : buffer.length = cMaxMessageLength := h.length
      refine ⟨⟨?_, ⟨_, rfl⟩⟩, rfl, ?_⟩
      · rw [← hlength]
        exact length_overwrite (List.length_take_le _ _)
      · simp [arrived, hlength, received, -List.length_take]

/-- **An error makes an empty message.** -/
theorem Impl.receiveError_spec (h : impl.Listening)
    (hreceive : impl.receiveError k = some impl') :
    impl'.Listening ∧ impl'.mMode = impl.mMode ∧ impl'.arrived = impl.arrived ++ [[]] := by
  obtain ⟨mode, buffer, messages, operations⟩ := impl
  unfold receiveError at hreceive
  cases hk : operations[k]? with
  | none => simp [hk] at hreceive
  | some done =>
    obtain ⟨rfl, rfl⟩ := h.getElem? hk
    cases done with
    | some n => cases hreceive
    | none =>
      obtain rfl := Option.some.inj hreceive
      exact ⟨⟨h.length, ⟨_, rfl⟩⟩, rfl, by simp [arrived]⟩

/-- **The handler saves the message before it starts the next operation.** -/
theorem Impl.complete_spec (h : impl.Listening) (hcomplete : impl.complete k = some impl') :
    impl'.Listening ∧ impl'.mMode = impl.mMode ∧ impl'.arrived = impl.arrived ∧
      impl'.operations = [none] := by
  obtain ⟨mode, buffer, messages, operations⟩ := impl
  unfold complete at hcomplete
  cases hk : operations[k]? with
  | none => simp [hk] at hcomplete
  | some done =>
    obtain ⟨rfl, rfl⟩ := h.getElem? hk
    cases done with
    | none => cases hcomplete
    | some n =>
      obtain rfl := Option.some.inj hcomplete
      exact ⟨⟨h.length, ⟨none, rfl⟩⟩, rfl, by simp [arrived, handleReceiveData, asyncReceiveFrom],
        rfl⟩

/-- The handlers that are called from `process()` keep the order. -/
theorem Impl.poll_spec (h : impl.Listening) (n : ℕ) (socket : List (List UInt8)) :
    ∃ impl' socket', impl.poll n socket = (impl', socket') ∧ impl'.Listening ∧
      impl'.mMode = impl.mMode ∧
      impl'.arrived ++ socket'.map received = impl.arrived ++ socket.map received := by
  induction n generalizing impl socket with
  | zero => exact ⟨impl, socket, rfl, h, rfl, rfl⟩
  | succ n ih =>
    unfold poll
    cases hcomplete : impl.complete 0 with
    | some completed =>
      obtain ⟨hlistening, hmode, harrived, -⟩ := complete_spec h hcomplete
      rw [← hmode, ← harrived]
      exact ih hlistening socket
    | none =>
      cases socket with
      | nil => exact ⟨impl, [], rfl, h, rfl, rfl⟩
      | cons datagram socket =>
        cases hreceive : impl.receive 0 datagram with
        | none =>
          simp only [hreceive]
          exact ⟨impl, _, rfl, h, rfl, rfl⟩
        | some filled =>
          obtain ⟨hlistening, hmode, harrived⟩ := receive_spec h hreceive
          obtain ⟨impl', socket', hpoll, hlistening', hmode', hsame⟩ := ih hlistening socket
          simp only [hreceive]
          refine ⟨impl', socket', hpoll, hlistening', hmode'.trans hmode, ?_⟩
          rw [hsame, harrived, List.map_cons, List.append_assoc, List.singleton_append]

@[simp] theorem elements_enqueueAll (messageOutput : MessageQueueProtocol (List UInt8))
    (messages : List (List UInt8)) :
    (enqueueAll messageOutput messages).elements = messageOutput.elements ++ messages := by
  induction messages generalizing messageOutput with
  | nil => simp [enqueueAll]
  | cons m messages ih => simp [enqueueAll, ih]

/-- **`process()` passes the messages on** in the order of their arrival. -/
theorem Impl.process_spec (h : impl.Listening) (polls : ℕ) (socket : List (List UInt8))
    (messageOutput : MessageQueueProtocol (List UInt8)) :
    ∃ outcome, impl.process polls socket messageOutput = outcome ∧ outcome.impl.Listening ∧
      outcome.impl.mMode = impl.mMode ∧ outcome.impl.mInternalMessageBuffer = [] ∧
      outcome.messageOutput.elements ++
          (outcome.impl.arrived ++ outcome.socket.map received) =
        messageOutput.elements ++ (impl.arrived ++ socket.map received) := by
  obtain ⟨impl', socket', hpolled, hlistening, hmode, hsame⟩ : ∃ impl' socket',
      (match impl.mMode with
        | .synchronous => impl.poll polls socket
        | .asynchronous => (impl, socket)) = (impl', socket') ∧ impl'.Listening ∧
      impl'.mMode = impl.mMode ∧
      impl'.arrived ++ socket'.map received = impl.arrived ++ socket.map received := by
    cases hmode : impl.mMode with
    | synchronous => simpa only [hmode] using poll_spec h polls socket
    | asynchronous => exact ⟨impl, socket, rfl, h, hmode, rfl⟩
  refine ⟨_, rfl, ?_⟩
  unfold process
  rw [hpolled]
  refine ⟨⟨hlistening.length, hlistening.operation⟩, hmode, rfl, ?_⟩
  rw [elements_enqueueAll, ← hsame]
  simp [arrived, List.append_assoc]

end Operations

end UdpReceiver

end Visr
