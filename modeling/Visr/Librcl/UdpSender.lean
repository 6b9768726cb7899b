import Visr.Librcl.SceneDecoder

/-!
# The UDP sender

The component sends the messages in its input as datagrams, either within the call of its
`process()` function or by asynchronous operations of a socket.  The handler of an operation
starts the next one.

## Main results

* `UdpSender.Impl.process_spec`, `UdpSender.Impl.transmit_spec`,
  `UdpSender.Impl.complete_spec` — the datagrams leave the component in the order of the
  messages, and the operations remain orderly.
-/

namespace Visr

namespace UdpSender

inductive Mode
  | synchronous
  | asynchronous
  deriving DecidableEq, Repr

/-- An operation that was started by `async_send_to`. -/
structure SendOperation where
  buffer : List UInt8
  /-- What its handler is called with, when the network stack has dealt with it: an error or
  the number of bytes. -/
  outcome : Option (Except Unit ℕ)
  deriving DecidableEq

structure Impl where
  mMode : Mode
  mInternalMessageBuffer : List (List UInt8)
  /-- The operations of the socket whose handlers have not been called. -/
  operations : List SendOperation

/-- `mSocket->async_send_to()` for the message at the front, if there is one. -/
def Impl.asyncSendTo (impl : Impl) : Impl :=
  match impl.mInternalMessageBuffer with
  | [] => impl
  | nextMsg :: _ => { impl with operations := impl.operations ++ [⟨nextMsg, none⟩] }

@[simp] theorem Impl.mMode_asyncSendTo (impl : Impl) : impl.asyncSendTo.mMode = impl.mMode := by
  unfold asyncSendTo
  split <;> rfl

@[simp] theorem Impl.mInternalMessageBuffer_asyncSendTo (impl : Impl) :
    impl.asyncSendTo.mInternalMessageBuffer = impl.mInternalMessageBuffer := by
  unfold asyncSendTo
  split <;> rfl

/-- What a call of `process()` has done. -/
structure Outcome where
  impl : Impl
  messageInput : MessageQueueProtocol (List UInt8)
  /-- The datagrams that were sent within the call. -/
  sent : List (List UInt8)
  result : Except Exception Unit

/-- `process()` in the synchronous mode, for at most `n` messages.  The calls of `send_to` return
the number of bytes or throw. -/
def processSynchronous : ℕ → (ℕ → Except Exception ℕ) → MessageQueueProtocol (List UInt8) →
    MessageQueueProtocol (List UInt8) × List (List UInt8) × Except Exception Unit
  | 0, _, messageInput => (messageInput, [], .ok ())
  | n + 1, sendTo, messageInput =>
    if messageInput.empty then (messageInput, [], .ok ())
    else
      match messageInput.nextElement with
      | .error e => (messageInput, [], .error e)
      | .ok nextMsg =>
        match sendTo 0 with
        | .error e => (messageInput, [], .error e)
        | .ok bytesSent =>
          let datagram := nextMsg.take bytesSent
          if bytesSent ≠ nextMsg.length then
            (messageInput, [datagram],
              .error (.runtimeError "Number of sent bytes differs from message size."))
          else
            match messageInput.popNextElement with
            | .error e => (messageInput, [datagram], .error e)
            | .ok messageInput =>
              let (messageInput, sent, result) :=
                processSynchronous n (fun k => sendTo (k + 1)) messageInput
              (messageInput, datagram :: sent, result)

/-- The loop of `process()` in the asynchronous mode, for at most `n` messages. -/
def moveMessages : ℕ → MessageQueueProtocol (List UInt8) → List (List UInt8) →
    MessageQueueProtocol (List UInt8) × List (List UInt8) × Except Exception Unit
  | 0, messageInput, buffer => (messageInput, buffer, .ok ())
  | n + 1, messageInput, buffer =>
    if messageInput.empty then (messageInput, buffer, .ok ())
    else
      match messageInput.nextElement with
      | .error e => (messageInput, buffer, .error e)
      | .ok nextMsg =>
        let buffer := buffer ++ [StringParameter.str nextMsg]
        match messageInput.popNextElement with
        | .error e => (messageInput, buffer, .error e)
        | .ok messageInput => moveMessages n messageInput buffer

/-- `UdpSender::Impl::process()`. -/
def Impl.process (sendTo : ℕ → Except Exception ℕ) (impl : Impl)
    (messageInput : MessageQueueProtocol (List UInt8)) : Outcome :=
  match impl.mMode with
  | .synchronous =>
    let (messageInput, sent, result) :=
      processSynchronous messageInput.numberOfElements sendTo messageInput
    ⟨impl, messageInput, sent, result⟩
  | .asynchronous =>
    let transmissionPending := !impl.mInternalMessageBuffer.isEmpty
    let (messageInput, buffer, result) :=
      moveMessages messageInput.numberOfElements messageInput impl.mInternalMessageBuffer
    let impl := { impl with mInternalMessageBuffer := buffer }
    match result with
    | .error e => ⟨impl, messageInput, [], .error e⟩
    | .ok () =>
      ⟨if transmissionPending then impl else impl.asyncSendTo, messageInput, [], .ok ()⟩

/-- The network stack deals with the `k`-th operation: it sends the first bytes or fails. -/
def Impl.transmit (k : ℕ) (outcome : Except Unit ℕ) (impl : Impl) :
    Option (Impl × List (List UInt8)) :=
  match impl.operations[k]? with
  | none => none
  | some operation =>
    if operation.outcome.isSome then none
    else
      let operations := impl.operations.set k { operation with outcome := some outcome }
      some ({ impl with operations := operations },
        match outcome with
        | .ok n => [operation.buffer.take n]
        | .error () => [])

/-- `UdpSender::Impl::handleSentData()`. -/
def Impl.handleSentData (outcome : Except Unit ℕ) (impl : Impl) : Except Abort Impl :=
  match outcome with
  | .error () => .error (.exception (.runtimeError
      "UdpSender: Asynchronous send operation resulted in an error."))
  | .ok numBytesTransferred =>
    match impl.mInternalMessageBuffer with
    | [] => .error .undefined
    | currMsg :: buffer =>
      if currMsg.length ≠ numBytesTransferred then
        .error (.exception (.runtimeError ("UdpSender: Asynchronous send operation " ++
          "transmitted less bytes than the message length.")))
      else .ok { impl with mInternalMessageBuffer := buffer }.asyncSendTo

/-- The thread of the socket calls the handler of the `k`-th operation. -/
def Impl.complete (k : ℕ) (impl : Impl) : Option (Except Abort Impl) :=
  match impl.operations[k]? with
  | some ⟨_, some outcome⟩ =>
    some ({ impl with operations := impl.operations.eraseIdx k }.handleSentData outcome)
  | _ => none

/-! ### The order of the datagrams -/

/-- The datagram that is sent for a message. -/
def Mode.datagram : Mode → List UInt8 → List UInt8
  | .synchronous, message => message
  | .asynchronous, message => StringParameter.str message

/-- The datagrams in the buffer that have not been sent. -/
def Impl.untransmitted (impl : Impl) : List (List UInt8) :=
  match impl.operations with
  | ⟨_, some (.ok _)⟩ :: _ => impl.mInternalMessageBuffer.tail
  | _ => impl.mInternalMessageBuffer

/-- There is exactly one operation while there are messages in the buffer: for the message at
the front, which is sent as a whole. -/
structure Impl.Orderly (impl : Impl) : Prop where
  synchronous : impl.mMode = .synchronous → impl.mInternalMessageBuffer = []
  idle : impl.mInternalMessageBuffer = [] → impl.operations = []
  busy : ∀ msg buffer, impl.mInternalMessageBuffer = msg :: buffer →
    ∃ outcome, impl.operations = [⟨msg, outcome⟩] ∧
      ∀ n, outcome = some (.ok n) → n = msg.length

/-- The network stack has not dealt with any operation. -/
def Impl.Fresh (impl : Impl) : Prop := ∀ operation ∈ impl.operations, operation.outcome = none

theorem Impl.Fresh.untransmitted_eq {impl : Impl} (h : impl.Fresh) :
    impl.untransmitted = impl.mInternalMessageBuffer := by
  unfold untransmitted
  split
  next hoperations =>
    have hnone := h _ (hoperations ▸ List.mem_cons_self)
    cases hnone
  next => rfl

/-- Calls of `send_to` send the whole message or throw. -/
def SendsWhole (sendTo : ℕ → Except Exception ℕ) (messages : List (List UInt8)) : Prop :=
  ∀ k m n, messages[k]? = some m → sendTo k = .ok n → n = m.length

section Process

variable {impl : Impl} {messageInput : MessageQueueProtocol (List UInt8)}
  {messages : List (List UInt8)} {sendTo : ℕ → Except Exception ℕ}

/-- Messages that are sent are taken from the queue, and those for which the socket throws
are not. -/
theorem processSynchronous_spec (hqueue : messageInput.elements = messages)
    (hwhole : SendsWhole sendTo messages) :
    ∃ messageInput' sent result,
      processSynchronous messages.length sendTo messageInput = (messageInput', sent, result) ∧
      sent ++ messageInput'.elements = messages ∧
      (result = .ok () → messageInput'.elements = []) ∧
      ((∀ k, ∃ n, sendTo k = .ok n) → result = .ok ()) := by
  induction messages generalizing messageInput sendTo with
  | nil => exact ⟨messageInput, [], .ok (), rfl, hqueue, fun _ => hqueue, fun _ => rfl⟩
  | cons m messages ih =>
    obtain ⟨popped, hpop, hpopped⟩ := MessageQueueProtocol.popNextElement_of_elements hqueue
    simp only [List.length_cons, processSynchronous, MessageQueueProtocol.empty_of_elements hqueue,
      MessageQueueProtocol.nextElement_of_elements hqueue, Bool.false_eq_true, if_false]
    cases hsend : sendTo 0 with
    | error e =>
      refine ⟨messageInput, [], .error e, rfl, hqueue, nofun, fun hsent => ?_⟩
      obtain ⟨n, hn⟩ := hsent 0
      cases hsend.symm.trans hn
    | ok n =>
      have hn : n = m.length := hwhole 0 m n rfl hsend
      obtain ⟨messageInput', sent, result, hrest, hsent, hempty, hok⟩ :=
        ih hpopped fun k m n hm => hwhole (k + 1) m n hm
      simp only [hn, ne_eq, not_true_eq_false, if_false, hpop, hrest, List.take_length]
      exact ⟨messageInput', m :: sent, result, rfl, by rw [List.cons_append, hsent], hempty,
        fun h => hok fun k => h (k + 1)⟩

/-- All messages are moved, up to their first zero. -/
theorem moveMessages_spec (hqueue : messageInput.elements = messages)
    (buffer : List (List UInt8)) :
    ∃ messageInput', moveMessages messages.length messageInput buffer =
        (messageInput', buffer ++ messages.map StringParameter.str, .ok ()) ∧
      messageInput'.elements = [] := by
  induction messages generalizing messageInput buffer with
  | nil => exact ⟨messageInput, by simp [moveMessages], hqueue⟩
  | cons m messages ih =>
    obtain ⟨popped, hpop, hpopped⟩ := MessageQueueProtocol.popNextElement_of_elements hqueue
    obtain ⟨messageInput', hrest, hempty⟩ := ih hpopped (buffer ++ [StringParameter.str m])
    refine ⟨messageInput', ?_, hempty⟩
    simp only [List.length_cons, moveMessages, MessageQueueProtocol.empty_of_elements hqueue,
      MessageQueueProtocol.nextElement_of_elements hqueue, Bool.false_eq_true, if_false, hpop,
      hrest, List.map_cons, List.append_assoc, List.singleton_append]

/-- Messages behind others wait for them. -/
theorem Impl.Orderly.append (h : impl.Orderly) (hmode : impl.mMode = .asynchronous)
    {msg : List UInt8} {buffer : List (List UInt8)}
    (hbuffer : impl.mInternalMessageBuffer = msg :: buffer) (later : List (List UInt8)) :
    { impl with mInternalMessageBuffer := impl.mInternalMessageBuffer ++ later }.Orderly ∧
      { impl with mInternalMessageBuffer :=
        impl.mInternalMessageBuffer ++ later }.untransmitted = impl.untransmitted ++ later := by
  obtain ⟨outcome, hoperations, hwhole⟩ := h.busy msg buffer hbuffer
  refine ⟨⟨fun hsync => ?_, fun hnil => ?_, fun msg' buffer' heq => ?_⟩, ?_⟩
  · simp [hmode] at hsync
  · simp [hbuffer] at hnil
  · rw [hbuffer] at heq
    obtain ⟨rfl, -⟩ := List.cons.inj heq
    exact ⟨outcome, hoperations, hwhole⟩
  · unfold untransmitted
    rw [hoperations, hbuffer]
    rcases outcome with _ | _ | n <;> rfl

/-- The first message of an idle component is sent at once. -/
theorem Impl.orderly_asyncSendTo (impl : Impl) (hmode : impl.mMode = .asynchronous)
    (hidle : impl.operations = []) : impl.asyncSendTo.Orderly ∧ impl.asyncSendTo.Fresh := by
  cases hbuffer : impl.mInternalMessageBuffer with
  | nil =>
    have hsame : impl.asyncSendTo = impl := by simp [asyncSendTo, hbuffer]
    rw [hsame]
    refine ⟨⟨fun _ => hbuffer, fun _ => hidle, fun msg buffer heq => ?_⟩, ?_⟩
    · simp [hbuffer] at heq
    · simp [Fresh, hidle]
  | cons msg buffer =>
    have hstarted : impl.asyncSendTo = { impl with operations := [⟨msg, none⟩] } := by
      simp [asyncSendTo, hbuffer, hidle]
    rw [hstarted]
    refine ⟨⟨fun hsync => ?_, fun hnil => ?_, fun msg' buffer' heq => ?_⟩, by simp [Fresh]⟩
    · simp [hmode] at hsync
    · simp [hbuffer] at hnil
    · have heq' : msg :: buffer = msg' :: buffer' := hbuffer.symm.trans heq
      obtain ⟨rfl, -⟩ := List.cons.inj heq'
      exact ⟨none, rfl, nofun⟩

/-- **`process()` keeps the order.**  Only an exception of the socket leaves messages in the
queue. -/
theorem Impl.process_spec (h : impl.Orderly)
    (hwhole : SendsWhole sendTo messageInput.elements) :
    ∃ outcome, impl.process sendTo messageInput = outcome ∧ outcome.impl.Orderly ∧
      outcome.impl.mMode = impl.mMode ∧
      outcome.sent ++ (outcome.impl.untransmitted ++
          outcome.messageInput.elements.map impl.mMode.datagram) =
        impl.untransmitted ++ messageInput.elements.map impl.mMode.datagram ∧
      (outcome.result = .ok () → outcome.messageInput.elements = []) ∧
      ((∀ k, ∃ n, sendTo k = .ok n) → outcome.result = .ok ()) ∧
      (impl.operations = [] → outcome.impl.Fresh) := by
  refine ⟨_, rfl, ?_⟩
  obtain ⟨mode, buffer, operations⟩ := impl
  cases mode with
  | synchronous =>
    obtain ⟨messageInput', sent, result, hprocess, hsent, hempty, hok⟩ :=
      processSynchronous_spec rfl hwhole
    obtain rfl : buffer = [] := h.synchronous rfl
    obtain rfl : operations = [] := h.idle rfl
    have hid : Mode.synchronous.datagram = id := rfl
    have hnone : Impl.untransmitted ⟨.synchronous, [], []⟩ = [] := rfl
    simp only [process, ← MessageQueueProtocol.length_elements, hprocess, hnone, hid, List.map_id,
      List.nil_append]
    exact ⟨h, trivial, hsent, hempty, hok, fun _ => nofun⟩
  | asynchronous =>
    obtain ⟨messageInput', hmove, hempty⟩ :=
      moveMessages_spec (rfl : messageInput.elements = messageInput.elements) buffer
    have hstr : Mode.asynchronous.datagram = StringParameter.str := rfl
    simp only [process, ← MessageQueueProtocol.length_elements, hmove, hempty, hstr,
      List.map_nil, List.append_nil, List.nil_append]
    cases buffer with
    | nil =>
      obtain rfl : operations = [] := h.idle rfl
      obtain ⟨hstarted, hfresh⟩ := orderly_asyncSendTo
        ⟨.asynchronous, messageInput.elements.map StringParameter.str, []⟩ rfl rfl
      refine ⟨hstarted, mMode_asyncSendTo _, ?_, fun _ => trivial, fun _ => trivial,
        fun _ => hfresh⟩
      exact hfresh.untransmitted_eq.trans (mInternalMessageBuffer_asyncSendTo _)
    | cons msg buffer =>
      obtain ⟨happend, huntransmitted⟩ :=
        h.append rfl rfl (messageInput.elements.map StringParameter.str)
      refine ⟨happend, rfl, huntransmitted, fun _ => trivial, fun _ => trivial, fun hnone => ?_⟩
      obtain ⟨outcome, hoperations, -⟩ := h.busy msg buffer rfl
      cases hoperations.symm.trans hnone

end Process

section Operations

variable {impl impl' : Impl} {k : ℕ} {outcome : Except Unit ℕ}

/-- While there are operations there is one, for the message at the front. -/
theorem Impl.Orderly.operation (h : impl.Orderly) {operation : SendOperation}
    (hk : impl.operations[k]? = some operation) :
    k = 0 ∧ ∃ buffer, impl.mInternalMessageBuffer = operation.buffer :: buffer ∧
      impl.operations = [operation] ∧ impl.mMode = .asynchronous ∧
      ∀ n, operation.outcome = some (.ok n) → n = operation.buffer.length := by
  cases hbuffer : impl.mInternalMessageBuffer with
  | nil => simp [h.idle hbuffer] at hk
  | cons msg buffer =>
    obtain ⟨outcome, hoperations, hwhole⟩ := h.busy msg buffer hbuffer
    have hmode : impl.mMode = .asynchronous := by
      cases hmode : impl.mMode with
      | synchronous => simp [h.synchronous hmode] at hbuffer
      | asynchronous => rfl
    rw [hoperations] at hk
    obtain ⟨hzero, rfl⟩ : k = 0 ∧ ⟨msg, outcome⟩ = operation := by
      rw [List.getElem?_singleton] at hk
      split at hk
      · exact ⟨‹k = 0›, Option.some.inj hk⟩
      · cases hk
    exact ⟨hzero, buffer, rfl, hoperations, hmode, hwhole⟩

theorem Impl.Orderly.buffer_eq_nil (h : impl.Orderly) (hidle : impl.operations = []) :
    impl.mInternalMessageBuffer = [] := by
  cases hbuffer : impl.mInternalMessageBuffer with
  | nil => rfl
  | cons message later =>
    obtain ⟨outcome, hoperations, -⟩ := h.busy message later hbuffer
    cases hoperations.symm.trans hidle

/-- The network stack sends the message of an operation as a whole, or fails. -/
def Impl.TransmitsWhole (k : ℕ) (outcome : Except Unit ℕ) (impl : Impl) : Prop :=
  ∀ operation n, impl.operations[k]? = some operation → outcome = .ok n →
    n = operation.buffer.length

/-- **The oldest message is sent.** -/
theorem Impl.transmit_spec (h : impl.Orderly) (hwhole : impl.TransmitsWhole k outcome)
    {sent : List (List UInt8)} (htransmit : impl.transmit k outcome = some (impl', sent)) :
    impl'.Orderly ∧ impl'.mMode = impl.mMode ∧
      sent ++ impl'.untransmitted = impl.untransmitted := by
  obtain ⟨mode, messages, operations⟩ := impl
  unfold transmit at htransmit
  cases hk : operations[k]? with
  | none => simp [hk] at htransmit
  | some operation =>
    obtain ⟨rfl, buffer, rfl, rfl, rfl, -⟩ := h.operation hk
    obtain ⟨msg, done⟩ := operation
    cases done with
    | some done => cases htransmit
    | none =>
      obtain ⟨rfl, rfl⟩ := Prod.mk.inj (Option.some.inj htransmit)
      refine ⟨⟨nofun, nofun, fun msg' buffer' heq => ?_⟩, rfl, ?_⟩
      · obtain ⟨rfl, rfl⟩ := List.cons.inj heq
        exact ⟨some outcome, rfl, fun n hn => hwhole _ n hk (Option.some.inj hn)⟩
      · cases outcome with
        | error _ => rfl
        | ok n =>
          obtain rfl : n = msg.length := hwhole _ n hk rfl
          simp [untransmitted]

/-- **The handler starts the next operation**, unless the socket has failed. -/
theorem Impl.complete_spec (h : impl.Orderly) {result : Except Abort Impl}
    (hcomplete : impl.complete k = some result) :
    (∃ impl', result = .ok impl' ∧ impl'.Orderly ∧ impl'.mMode = impl.mMode ∧
      impl'.untransmitted = impl.untransmitted ∧ impl'.Fresh ∧
      impl'.mInternalMessageBuffer.length < impl.mInternalMessageBuffer.length) ∨
    (∃ msg, impl.operations[k]? = some ⟨msg, some (.error ())⟩ ∧
      result = .error (.exception (.runtimeError
        "UdpSender: Asynchronous send operation resulted in an error."))) := by
  obtain ⟨mode, messages, operations⟩ := impl
  unfold complete at hcomplete
  cases hk : operations[k]? with
  | none => simp [hk] at hcomplete
  | some operation =>
    obtain ⟨rfl, buffer, rfl, rfl, rfl, hwhole⟩ := h.operation hk
    obtain ⟨msg, done⟩ := operation
    rcases done with _ | _ | n
    · cases hcomplete
    · exact .inr ⟨msg, rfl, (Option.some.inj hcomplete).symm⟩
    · obtain rfl : n = msg.length := hwhole n rfl
      obtain ⟨hstarted, hfresh⟩ :=
        orderly_asyncSendTo ⟨.asynchronous, buffer, []⟩ rfl rfl
      have hresult : result = .ok (Impl.mk .asynchronous buffer []).asyncSendTo := by
        refine (Option.some.inj hcomplete).symm.trans ?_
        exact if_neg (not_not_intro rfl)
      refine .inl ⟨_, hresult, hstarted, mMode_asyncSendTo _, ?_, hfresh, by simp⟩
      exact hfresh.untransmitted_eq.trans (mInternalMessageBuffer_asyncSendTo _)

end Operations

end UdpSender

end Visr
