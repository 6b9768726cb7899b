import Visr.Library.Delivery
import Visr.Librcl.UdpReceiver
import Visr.Librcl.UdpSender

/-!
# Messages over UDP

A sender and a receiver that are connected by a network which may lose, duplicate and
reorder datagrams.  The calls of the `process()` functions, the handlers in the threads of the
sockets and the steps of the network happen in any order.

## Main results

* `UdpTransport.delivered` — **what is received**, depending on what the network does.
* `UdpTransport.operations_orderly` — **the operations of the sockets** do not interfere.
* `UdpTransport.delivery_completes` — **no message is stuck.**
-/

namespace Visr

namespace UdpTransport

open Delivery Execution UdpReceiver UdpSender

structure State where
  messageInput : MessageQueueProtocol (List UInt8)
  sender : UdpSender.Impl
  /-- The datagrams that are on the way. -/
  network : List (List UInt8)
  /-- The datagrams that wait at the port of the receiver. -/
  socket : List (List UInt8)
  receiver : UdpReceiver.Impl
  messageOutput : MessageQueueProtocol (List UInt8)
  /-- The messages that were passed to the sender so far. -/
  enqueued : List (List UInt8)
  /-- The messages that were taken from the receiver so far. -/
  taken : List (List UInt8)

/-- The state after the constructors. -/
def initial (senderMode : UdpSender.Mode) (receiverMode : UdpReceiver.Mode)
    (buffer : List UInt8) : State where
  messageInput := ⟨[]⟩
  sender := ⟨senderMode, [], []⟩
  network := []
  socket := []
  receiver := UdpReceiver.Impl.create receiverMode buffer
  messageOutput := ⟨[]⟩
  enqueued := []
  taken := []

inductive Event
  /-- A component sends a message to the input of the sender. -/
  | enqueue (message : List UInt8)
  /-- The `process()` function of the sender, with the results of `send_to`. -/
  | senderProcess (sendTo : ℕ → Except Exception ℕ)
  /-- The network stack deals with an asynchronous operation of the sender. -/
  | transmit (k : ℕ) (outcome : Except Unit ℕ)
  | handleSentData (k : ℕ)
  | lose (i : ℕ)
  | duplicate (i : ℕ)
  | arrive (i : ℕ)
  /-- The network stack stores a datagram for an operation of the receiver. -/
  | receive (k : ℕ)
  | receiveError (k : ℕ)
  | handleReceiveData (k : ℕ)
  /-- The `process()` function of the receiver. -/
  | receiverProcess (polls : ℕ)
  /-- A component takes a message from the output of the receiver. -/
  | take

/-- What happens at an event.  Nothing happens any more after an exception in the thread of a
socket, which terminates the program. -/
def step : Event → State → Option State
  | .enqueue message, s =>
    some { s with
      messageInput := s.messageInput.enqueue message
      enqueued := s.enqueued ++ [message] }
  | .senderProcess sendTo, s =>
    let outcome := s.sender.process sendTo s.messageInput
    some { s with
      sender := outcome.impl
      messageInput := outcome.messageInput
      network := s.network ++ outcome.sent }
  | .transmit k outcome, s =>
    (s.sender.transmit k outcome).map fun x =>
      { s with sender := x.1, network := s.network ++ x.2 }
  | .handleSentData k, s =>
    match s.sender.complete k with
    | some (.ok sender) => some { s with sender := sender }
    | _ => none
  | .lose i, s =>
    if i < s.network.length then some { s with network := s.network.eraseIdx i } else none
  | .duplicate i, s =>
    s.network[i]?.map fun datagram => { s with network := s.network ++ [datagram] }
  | .arrive i, s =>
    s.network[i]?.map fun datagram =>
      { s with socket := s.socket ++ [datagram], network := s.network.eraseIdx i }
  | .receive k, s =>
    match s.socket with
    | [] => none
    | datagram :: socket =>
      (s.receiver.receive k datagram).map fun receiver =>
        { s with receiver := receiver, socket := socket }
  | .receiveError k, s =>
    (s.receiver.receiveError k).map fun receiver => { s with receiver := receiver }
  | .handleReceiveData k, s =>
    -- there is no thread in the synchronous mode
    if s.receiver.mMode = .synchronous then none
    else (s.receiver.complete k).map fun receiver => { s with receiver := receiver }
  | .receiverProcess polls, s =>
    let outcome := s.receiver.process polls s.socket s.messageOutput
    some { s with
      receiver := outcome.impl
      socket := outcome.socket
      messageOutput := outcome.messageOutput }
  | .take, s =>
    match s.messageOutput.nextElement, s.messageOutput.popNextElement with
    | .ok message, .ok messageOutput =>
      some { s with messageOutput := messageOutput, taken := s.taken ++ [message] }
    | _, _ => none

/-- What the network or the socket does to messages at an event. -/
def Event.disturbance : Event → Option Disturbance
  | .lose _ => some .loss
  | .duplicate _ => some .duplication
  | .arrive (_ + 1) => some .reordering
  | .receiveError _ => some .noise
  | _ => none

/-- The network stack sends datagrams as a whole, or fails. -/
def Event.Whole : Event → State → Prop
  | .senderProcess sendTo, s => SendsWhole sendTo s.messageInput.elements
  | .transmit k outcome, s => s.sender.TransmitsWhole k outcome
  | _, _ => True

/-- The message that is received when a message is sent. -/
def transported (mode : UdpSender.Mode) (message : List UInt8) : List UInt8 :=
  received (mode.datagram message)

/-- The datagrams that have not been received. -/
def State.underWay (s : State) : List (List UInt8) :=
  s.socket ++ (s.network ++ (s.sender.untransmitted ++
    s.messageInput.elements.map s.sender.mMode.datagram))

/-- The messages, from those that were taken from the receiver to those in the input of the
sender, in the form in which they are received. -/
def State.contents (s : State) : List (List UInt8) :=
  s.taken ++ (s.messageOutput.elements ++ (s.receiver.arrived ++ s.underWay.map received))

/-- The operations of both sockets are in order. -/
structure State.Orderly (mode : UdpSender.Mode) (s : State) : Prop where
  sender : s.sender.Orderly
  mode : s.sender.mMode = mode
  receiver : s.receiver.Listening

section Step

variable {mode : UdpSender.Mode} {s s' : State} {e : Event}
  {R : List (List UInt8) → List (List UInt8) → Prop}

/-- The message after an error of the socket. -/
def Noise (message : List UInt8) : Prop := message = []

/-- An event sends messages, and all others are still there. -/
def Delivers (R : List (List UInt8) → List (List UInt8) → Prop) (mode : UdpSender.Mode)
    (s s' : State) : Prop :=
  s'.Orderly mode ∧ ∃ new, s'.enqueued = s.enqueued ++ new ∧
    R s'.contents (s.contents ++ new.map (transported mode))

/-- Nothing is sent. -/
theorem Delivers.intro (horderly : s'.Orderly mode) (henqueued : s'.enqueued = s.enqueued)
    (hcontents : R s'.contents s.contents) : Delivers R mode s s' := by
  refine ⟨horderly, [], ?_, ?_⟩
  · rw [henqueued, List.append_nil]
  · rwa [List.map_nil, List.append_nil]

/-- What happens to the datagrams happens to the messages. -/
theorem contents_underWay (hR : Guarantee R) (htaken : s'.taken = s.taken)
    (houtput : s'.messageOutput = s.messageOutput) (hreceiver : s'.receiver = s.receiver)
    (h : R (s'.underWay.map received) (s.underWay.map received)) : R s'.contents s.contents := by
  unfold State.contents
  rw [htaken, houtput, hreceiver]
  exact hR.prepend _ (hR.prepend _ (hR.prepend _ h))

theorem delivers_enqueue (hR : Guarantee R) (h : s.Orderly mode) (message : List UInt8) :
    Delivers R mode s { s with
      messageInput := s.messageInput.enqueue message
      enqueued := s.enqueued ++ [message] } := by
  refine ⟨⟨h.sender, h.mode, h.receiver⟩, [message], rfl, ?_⟩
  have hsame : s.contents ++ [message].map (transported mode) =
      State.contents { s with
        messageInput := s.messageInput.enqueue message
        enqueued := s.enqueued ++ [message] } := by
    simp [State.contents, State.underWay, transported, h.mode]
  rw [hsame]
  exact hR.refl _

theorem delivers_senderProcess (hR : Guarantee R) (h : s.Orderly mode)
    {sendTo : ℕ → Except Exception ℕ} (hwhole : SendsWhole sendTo s.messageInput.elements)
    (hstep : step (.senderProcess sendTo) s = some s') : Delivers R mode s s' := by
  obtain ⟨outcome, hprocess, horderly, hmode, hsame, -⟩ :=
    UdpSender.Impl.process_spec h.sender hwhole
  simp only [step, hprocess, Option.some.injEq] at hstep
  subst hstep
  refine .intro ⟨horderly, hmode.trans h.mode, h.receiver⟩ rfl ?_
  refine contents_underWay hR rfl rfl rfl ?_
  simp only [State.underWay, hmode, List.append_assoc, hsame]
  exact hR.refl _

theorem delivers_transmit (hR : Guarantee R) (h : s.Orderly mode) {k : ℕ}
    {outcome : Except Unit ℕ} (hwhole : s.sender.TransmitsWhole k outcome)
    (hstep : step (.transmit k outcome) s = some s') : Delivers R mode s s' := by
  obtain ⟨⟨sender, sent⟩, htransmit, rfl⟩ := Option.map_eq_some_iff.mp hstep
  obtain ⟨horderly, hmode, hsame⟩ := UdpSender.Impl.transmit_spec h.sender hwhole htransmit
  refine .intro ⟨horderly, hmode.trans h.mode, h.receiver⟩ rfl (contents_underWay hR rfl rfl rfl ?_)
  simp only [hmode, List.append_assoc, ← hsame, State.underWay]
  exact hR.refl _

theorem delivers_handleSentData (hR : Guarantee R) (h : s.Orderly mode) {k : ℕ}
    (hstep : step (.handleSentData k) s = some s') : Delivers R mode s s' := by
  simp only [step] at hstep
  cases hcomplete : s.sender.complete k with
  | none => simp [hcomplete] at hstep
  | some result =>
    rcases UdpSender.Impl.complete_spec h.sender hcomplete with
      ⟨sender, rfl, horderly, hmode, hsame, -⟩ | ⟨msg, -, rfl⟩
    · simp only [hcomplete, Option.some.injEq] at hstep
      subst hstep
      refine .intro ⟨horderly, hmode.trans h.mode, h.receiver⟩ rfl
        (contents_underWay hR rfl rfl rfl ?_)
      simp only [hmode, hsame, State.underWay]
      exact hR.refl _
    · simp [hcomplete] at hstep

/-- The events of the network. -/
theorem delivers_network (hR : Guarantee R) (h : s.Orderly mode)
    (socket network : List (List UInt8))
    (hnetwork : R ((socket ++ network).map received) ((s.socket ++ s.network).map received)) :
    Delivers R mode s { s with socket := socket, network := network } := by
  refine .intro ⟨h.sender, h.mode, h.receiver⟩ rfl (contents_underWay hR rfl rfl rfl ?_)
  have happend := hR.append ((s.sender.untransmitted ++
    s.messageInput.elements.map s.sender.mMode.datagram).map received) hnetwork
  simpa only [State.underWay, List.map_append, List.append_assoc] using happend

theorem delivers_lose (hR : Guarantee R) (h : s.Orderly mode)
    (hloss : Tolerates Noise R .loss) {i : ℕ} (hstep : step (.lose i) s = some s') :
    Delivers R mode s s' := by
  simp only [step] at hstep
  split at hstep
  next hi =>
    obtain rfl := Option.some.inj hstep
    refine delivers_network hR h _ _ ?_
    have hcut : s.network = s.network.take i ++ s.network[i] :: s.network.drop (i + 1) := by
      rw [List.getElem_cons_drop, List.take_append_drop]
    rw [List.eraseIdx_eq_take_drop_succ]
    conv => rhs; rw [hcut]
    simp only [List.map_append, List.map_cons]
    rw [← List.append_assoc, ← List.append_assoc]
    exact hloss _ _ _
  next => cases hstep

theorem delivers_duplicate (hR : Guarantee R) (h : s.Orderly mode)
    (hduplication : Tolerates Noise R .duplication) {i : ℕ}
    (hstep : step (.duplicate i) s = some s') : Delivers R mode s s' := by
  obtain ⟨datagram, hi, rfl⟩ := Option.map_eq_some_iff.mp hstep
  refine delivers_network hR h s.socket _ ?_
  rw [← List.append_assoc, List.map_append]
  refine hduplication _ _ (List.mem_map_of_mem ?_)
  exact List.mem_append_right _ (List.mem_of_getElem? hi)

theorem delivers_arrive (hR : Guarantee R) (h : s.Orderly mode) {i : ℕ}
    (hreordering : i = 0 ∨ Tolerates Noise R .reordering)
    (hstep : step (.arrive i) s = some s') : Delivers R mode s s' := by
  obtain ⟨datagram, hi, rfl⟩ := Option.map_eq_some_iff.mp hstep
  refine delivers_network hR h _ _ ?_
  rw [List.append_assoc, List.singleton_append]
  rcases hreordering with rfl | hreordering
  · cases hnetwork : s.network with
    | nil => simp [hnetwork] at hi
    | cons d network =>
      obtain rfl : d = datagram := by simpa [hnetwork] using hi
      exact hR.refl _
  · refine hreordering _ _ (List.Perm.map _ (List.Perm.append_left _ ?_))
    obtain ⟨hlt, rfl⟩ := List.getElem?_eq_some_iff.mp hi
    exact List.getElem_cons_eraseIdx_perm hlt

theorem delivers_receive (hR : Guarantee R) (h : s.Orderly mode) {k : ℕ}
    (hstep : step (.receive k) s = some s') : Delivers R mode s s' := by
  simp only [step] at hstep
  cases hsocket : s.socket with
  | nil => simp [hsocket] at hstep
  | cons datagram socket =>
    simp only [hsocket] at hstep
    obtain ⟨receiver, hreceive, rfl⟩ := Option.map_eq_some_iff.mp hstep
    obtain ⟨hlistening, -, harrived⟩ := UdpReceiver.Impl.receive_spec h.receiver hreceive
    refine .intro ⟨h.sender, h.mode, hlistening⟩ rfl ?_
    simp only [State.contents, State.underWay, harrived, hsocket, List.append_assoc,
      List.cons_append, List.map_cons, List.nil_append]
    exact hR.refl _

theorem delivers_receiveError (hR : Guarantee R) (h : s.Orderly mode)
    (hnoise : Tolerates Noise R .noise) {k : ℕ} (hstep : step (.receiveError k) s = some s') :
    Delivers R mode s s' := by
  obtain ⟨receiver, hreceive, rfl⟩ := Option.map_eq_some_iff.mp hstep
  obtain ⟨hlistening, -, harrived⟩ := UdpReceiver.Impl.receiveError_spec h.receiver hreceive
  refine .intro ⟨h.sender, h.mode, hlistening⟩ rfl ?_
  refine hR.prepend _ (hR.prepend _ (hR.append _ ?_))
  rw [harrived]
  exact hnoise _ _ rfl

theorem delivers_handleReceiveData (hR : Guarantee R) (h : s.Orderly mode) {k : ℕ}
    (hstep : step (.handleReceiveData k) s = some s') : Delivers R mode s s' := by
  simp only [step] at hstep
  split at hstep
  next => cases hstep
  next =>
    obtain ⟨receiver, hcomplete, rfl⟩ := Option.map_eq_some_iff.mp hstep
    obtain ⟨hlistening, -, harrived, -⟩ := UdpReceiver.Impl.complete_spec h.receiver hcomplete
    refine .intro ⟨h.sender, h.mode, hlistening⟩ rfl ?_
    simp only [State.contents, harrived]
    exact hR.refl _

theorem delivers_receiverProcess (hR : Guarantee R) (h : s.Orderly mode) {polls : ℕ}
    (hstep : step (.receiverProcess polls) s = some s') : Delivers R mode s s' := by
  obtain ⟨outcome, hprocess, hlistening, -, -, hsame⟩ :=
    UdpReceiver.Impl.process_spec h.receiver polls s.socket s.messageOutput
  simp only [step, hprocess, Option.some.injEq] at hstep
  subst hstep
  refine .intro ⟨h.sender, h.mode, hlistening⟩ rfl ?_
  have hcontents := congrArg (fun l => s.taken ++ (l ++ (s.network ++ (s.sender.untransmitted ++
    s.messageInput.elements.map s.sender.mMode.datagram)).map received)) hsame
  simp only [State.contents, State.underWay, List.map_append, List.append_assoc] at hcontents ⊢
  rw [hcontents]
  exact hR.refl _

theorem delivers_take (hR : Guarantee R) (h : s.Orderly mode) (hstep : step .take s = some s') :
    Delivers R mode s s' := by
  simp only [step] at hstep
  cases helements : s.messageOutput.elements with
  | nil =>
    have hqueue : s.messageOutput.queue = [] := List.reverse_eq_nil_iff.mp helements
    simp [MessageQueueProtocol.nextElement, hqueue] at hstep
  | cons message messages =>
    obtain ⟨popped, hpop, hpopped⟩ := MessageQueueProtocol.popNextElement_of_elements helements
    simp only [MessageQueueProtocol.nextElement_of_elements helements, hpop,
      Option.some.injEq] at hstep
    subst hstep
    refine .intro ⟨h.sender, h.mode, h.receiver⟩ rfl ?_
    simp only [State.contents, State.underWay, hpopped, helements, List.append_assoc,
      List.cons_append, List.nil_append]
    exact hR.refl _

/-- **What one event does**: the messages remain where the guarantee wants them. -/
theorem delivers_step (hR : Guarantee R) (h : s.Orderly mode) (hwhole : e.Whole s)
    (htolerates : ∀ d, e.disturbance = some d → Tolerates Noise R d)
    (hstep : step e s = some s') : Delivers R mode s s' := by
  cases e with
  | enqueue message =>
    obtain rfl := Option.some.inj hstep
    exact delivers_enqueue hR h message
  | senderProcess sendTo => exact delivers_senderProcess hR h hwhole hstep
  | transmit k outcome => exact delivers_transmit hR h hwhole hstep
  | handleSentData k => exact delivers_handleSentData hR h hstep
  | lose i => exact delivers_lose hR h (htolerates _ rfl) hstep
  | duplicate i => exact delivers_duplicate hR h (htolerates _ rfl) hstep
  | arrive i =>
    refine delivers_arrive hR h ?_ hstep
    cases i with
    | zero => exact .inl rfl
    | succ i => exact .inr (htolerates _ rfl)
  | receive k => exact delivers_receive hR h hstep
  | receiveError k => exact delivers_receiveError hR h (htolerates _ rfl) hstep
  | handleReceiveData k => exact delivers_handleReceiveData hR h hstep
  | receiverProcess polls => exact delivers_receiverProcess hR h hstep
  | take => exact delivers_take hR h hstep

end Step

/-! ### Runs -/

/-- A message with a zero is sent, received and taken. -/
def oneMessage : List Event :=
  [.enqueue [72, 0, 105], .senderProcess fun _ => .ok 3, .transmit 0 (.ok 1), .handleSentData 0,
    .arrive 0, .receive 0, .handleReceiveData 0, .receiverProcess 0, .take]

/-- The state afterwards. -/
def afterOneMessage : State where
  messageInput := ⟨[]⟩
  sender := ⟨.asynchronous, [], []⟩
  network := []
  socket := []
  receiver := ⟨.asynchronous,
    UdpReceiver.overwrite [72] (List.replicate cMaxMessageLength 0), [], [none]⟩
  messageOutput := ⟨[]⟩
  enqueued := [[72, 0, 105]]
  taken := [[72]]

theorem exec_oneMessage :
    exec step oneMessage
        (initial .asynchronous .asynchronous (List.replicate cMaxMessageLength 0)) =
      some afterOneMessage := by
  have htake : ([72] : List UInt8).take cMaxMessageLength = [72] := rfl
  simp [oneMessage, afterOneMessage, exec_cons, step, initial, Impl.create, Impl.asyncReceiveFrom,
    MessageQueueProtocol.enqueue, UdpSender.Impl.process, moveMessages,
    MessageQueueProtocol.numberOfElements, MessageQueueProtocol.empty,
    MessageQueueProtocol.nextElement, MessageQueueProtocol.popNextElement, StringParameter.str,
    UdpSender.Impl.asyncSendTo, UdpSender.Impl.transmit, UdpSender.Impl.complete,
    UdpSender.Impl.handleSentData, Impl.receive, UdpReceiver.Impl.complete,
    UdpReceiver.Impl.process, Impl.handleReceiveData, enqueueAll, htake,
    UdpReceiver.overwrite]

theorem whole_oneMessage :
    Throughout step Event.Whole oneMessage
      (initial .asynchronous .asynchronous (List.replicate cMaxMessageLength 0)) := by
  refine ⟨trivial, fun s hs => ?_⟩
  obtain rfl := Option.some.inj hs
  refine ⟨fun k m n hm hn => ?_, fun s hs => ?_⟩
  · obtain ⟨hk, rfl⟩ : k = 0 ∧ [72, 0, 105] = m := by
      simpa [MessageQueueProtocol.enqueue, MessageQueueProtocol.elements, initial,
        List.getElem?_singleton] using hm
    exact (Except.ok.inj hn).symm
  obtain rfl := Option.some.inj hs
  refine ⟨fun operation n hk hn => ?_, ?_⟩
  · obtain rfl := Option.some.inj hk
    exact (Except.ok.inj hn).symm
  exact fun _ _ => ⟨trivial, fun _ _ => ⟨trivial, fun _ _ => ⟨trivial, fun _ _ =>
    ⟨trivial, fun _ _ => ⟨trivial, fun _ _ => ⟨trivial, fun _ _ => trivial⟩⟩⟩⟩⟩⟩

section Runs

variable {senderMode : UdpSender.Mode} {receiverMode : UdpReceiver.Mode} {buffer : List UInt8}
  {events : List Event} {s : State}

theorem orderly_initial (hbuffer : buffer.length = cMaxMessageLength) :
    (initial senderMode receiverMode buffer).Orderly senderMode where
  sender := ⟨fun _ => rfl, fun _ => rfl, nofun⟩
  mode := rfl
  receiver := Impl.listening_create receiverMode hbuffer

/-- The operations remain in order. -/
theorem orderly_exec (hbuffer : buffer.length = cMaxMessageLength)
    (hwhole : Throughout step Event.Whole events (initial senderMode receiverMode buffer))
    (hexec : exec step events (initial senderMode receiverMode buffer) = some s) :
    s.Orderly senderMode := by
  refine exec_invariant (fun e s s' hwhole h hstep => ?_) hwhole (orderly_initial hbuffer) hexec
  exact (delivers_step guarantee_accounted h hwhole (fun d _ => accounted_tolerates d) hstep).1

/-- The messages at the end of a run, for each guarantee that survives what happened. -/
theorem contents_exec {R : List (List UInt8) → List (List UInt8) → Prop} (hR : Guarantee R)
    (hbuffer : buffer.length = cMaxMessageLength)
    (hwhole : Throughout step Event.Whole events (initial senderMode receiverMode buffer))
    (hexec : exec step events (initial senderMode receiverMode buffer) = some s)
    (htolerates : ∀ e ∈ events, ∀ d, e.disturbance = some d → Tolerates Noise R d) :
    R s.contents (s.enqueued.map (transported senderMode)) := by
  have hstep : ∀ e s s', (e.Whole s ∧ ∀ d, e.disturbance = some d → Tolerates Noise R d) →
      s.Orderly senderMode → step e s = some s' → s'.Orderly senderMode ∧
        ∃ new, s'.enqueued.map (transported senderMode) =
            s.enqueued.map (transported senderMode) ++ new ∧
          R s'.contents (s.contents ++ new) := by
    rintro e s s' ⟨hwhole, htolerates⟩ h hstep
    obtain ⟨horderly, new, henqueued, hnew⟩ := delivers_step hR h hwhole htolerates hstep
    refine ⟨horderly, new.map (transported senderMode), ?_, hnew⟩
    rw [henqueued, List.map_append]
  exact delivered_of_exec hR hstep (throughout_and hwhole (throughout_of_forall htolerates _))
    (orderly_initial hbuffer) (hR.refl []) hexec

/-- **What is received.**  Whatever the order in which the components and the threads of the
sockets run, the messages are received in their order if the network does not disturb them, some are
missing if it loses datagrams, the order may change if it reorders them, and in any case only
messages that were sent, or empty ones, are received. -/
theorem delivered (hbuffer : buffer.length = cMaxMessageLength)
    (hwhole : Throughout step Event.Whole events (initial senderMode receiverMode buffer))
    (hexec : exec step events (initial senderMode receiverMode buffer) = some s) :
    ((∀ e ∈ events, e.disturbance = none) →
      s.taken <+: s.enqueued.map (transported senderMode)) ∧
    ((∀ e ∈ events, ∀ d, e.disturbance = some d → d = .loss) →
      s.taken.Sublist (s.enqueued.map (transported senderMode))) ∧
    ((∀ e ∈ events, ∀ d, e.disturbance = some d → d = .loss ∨ d = .reordering) →
      s.taken.Subperm (s.enqueued.map (transported senderMode))) ∧
    ∀ message ∈ s.taken, message = [] ∨
      ∃ sent ∈ s.enqueued, message = transported senderMode sent := by
  have htaken : s.taken <+: s.contents := List.prefix_append _ _
  refine ⟨fun h => ?_, fun h => ?_, fun h => ?_, fun message hmessage => ?_⟩
  · have hcontents := contents_exec guarantee_eq hbuffer hwhole hexec fun e he d hd => by
      rw [h e he] at hd
      cases hd
    rwa [hcontents] at htaken
  · have hcontents := contents_exec guarantee_sublist hbuffer hwhole hexec fun e he d hd => by
      rw [h e he d hd]
      exact sublist_tolerates_loss
    exact htaken.sublist.trans hcontents
  · have hcontents := contents_exec guarantee_subperm hbuffer hwhole hexec fun e he d hd => by
      rcases h e he d hd with rfl | rfl
      · exact subperm_tolerates_loss
      · exact subperm_tolerates_reordering
    exact htaken.sublist.subperm.trans hcontents
  · have hcontents : Accounted Noise s.contents (s.enqueued.map (transported senderMode)) :=
      contents_exec guarantee_accounted hbuffer hwhole hexec fun e _ d _ => accounted_tolerates d
    refine (hcontents message (htaken.subset hmessage)).imp_right fun hsent => ?_
    obtain ⟨sent, hmem, heq⟩ := List.mem_map.mp hsent
    exact ⟨sent, hmem, heq.symm⟩

theorem delivered_oneMessage : afterOneMessage.taken <+: afterOneMessage.enqueued.map
    (transported .asynchronous) :=
  (delivered (List.length_replicate ..) whole_oneMessage exec_oneMessage).1
    (by simp [oneMessage, Event.disturbance])

/-- **The operations of the sockets do not interfere.**  There is always exactly one operation
that receives, and there is one that sends while there are messages in the buffer of the
sender: for the first of them, which stays there until the handler is called.  The handler
always finds this message, and reports an error only if the socket does. -/
theorem operations_orderly (hbuffer : buffer.length = cMaxMessageLength)
    (hwhole : Throughout step Event.Whole events (initial senderMode receiverMode buffer))
    (hexec : exec step events (initial senderMode receiverMode buffer) = some s) :
    (∃ done, s.receiver.operations = [done]) ∧
    (s.sender.operations = [] ↔ s.sender.mInternalMessageBuffer = []) ∧
    (∀ operation ∈ s.sender.operations, s.sender.operations = [operation] ∧
      ∃ later, s.sender.mInternalMessageBuffer = operation.buffer :: later) ∧
    ∀ k result, s.sender.complete k = some result →
      (∃ sender, result = .ok sender) ∨
      (∃ message, s.sender.operations[k]? = some ⟨message, some (.error ())⟩) ∧
        result = .error (.exception (.runtimeError
          "UdpSender: Asynchronous send operation resulted in an error.")) := by
  have h := orderly_exec hbuffer hwhole hexec
  refine ⟨h.receiver.operation, ⟨h.sender.buffer_eq_nil, h.sender.idle⟩, fun operation hmem => ?_,
    fun k result hcomplete => ?_⟩
  · obtain ⟨k, hk⟩ := List.mem_iff_getElem?.mp hmem
    obtain ⟨-, later, hlater, honly, -⟩ := h.sender.operation hk
    exact ⟨honly, later, hlater⟩
  · rcases UdpSender.Impl.complete_spec h.sender hcomplete with
      ⟨sender, hresult, -⟩ | ⟨message, hk, hresult⟩
    · exact .inl ⟨sender, hresult⟩
    · exact .inr ⟨⟨message, hk⟩, hresult⟩

theorem operations_orderly_oneMessage : ∃ done, afterOneMessage.receiver.operations = [done] :=
  (operations_orderly (List.length_replicate ..) whole_oneMessage exec_oneMessage).1

end Runs

/-! ### Progress -/

section Progress

variable {mode : UdpSender.Mode} {s s' : State}

/-- No operation of the sender has failed. -/
def State.Healthy (s : State) : Prop :=
  ∀ operation ∈ s.sender.operations, operation.outcome ≠ some (.error ())

/-- How far the messages are from the component that takes them. -/
def State.distance (s : State) : ℕ :=
  9 * s.messageInput.elements.length + 7 * s.sender.untransmitted.length +
    s.sender.mInternalMessageBuffer.length + 6 * s.network.length + 5 * s.socket.length +
    4 * (s.receiver.operations.filterMap id).length +
    3 * s.receiver.mInternalMessageBuffer.length + 2 * s.messageOutput.elements.length

/-- A new message. -/
def Event.isEnqueue : Event → Bool
  | .enqueue _ => true
  | _ => false

/-- An event without a new message or a disturbance. -/
def Event.Undisturbed (e : Event) (s : State) : Prop :=
  e.Whole s ∧ e.disturbance = none ∧ e.isEnqueue = false

/-- A message advances. -/
def Advances (s : State) : Prop :=
  ∃ e s', step e s = some s' ∧ e.Undisturbed s ∧ s'.Healthy ∧ s'.enqueued = s.enqueued ∧
    s'.distance < s.distance

theorem advances_output (h : s.Healthy) (houtput : s.messageOutput.elements ≠ []) :
    Advances s := by
  obtain ⟨message, messages, helements⟩ := List.exists_cons_of_ne_nil houtput
  obtain ⟨popped, hpop, hpopped⟩ := MessageQueueProtocol.popNextElement_of_elements helements
  refine ⟨.take, { s with messageOutput := popped, taken := s.taken ++ [message] }, ?_,
    ⟨trivial, rfl, rfl⟩, h, rfl, ?_⟩
  · simp only [step, MessageQueueProtocol.nextElement_of_elements helements, hpop]
  · simp only [State.distance, hpopped, helements, List.length_cons]
    omega

theorem advances_receiver (h : s.Healthy) (hreceiver : s.receiver.Listening)
    (hmessages : s.receiver.arrived ≠ []) : Advances s := by
  obtain ⟨input, sender, network, socket, ⟨rmode, rbuffer, messages, operations⟩, output,
    enqueued, taken⟩ := s
  obtain ⟨done, rfl : operations = [done]⟩ := hreceiver.operation
  cases done with
  | none =>
    -- only the messages in the buffer are left
    have hne : messages ≠ [] := by simpa [Impl.arrived] using hmessages
    have hlength : 0 < messages.length := List.length_pos_iff.mpr hne
    refine ⟨.receiverProcess 0, _, rfl, ⟨trivial, rfl, rfl⟩, h, rfl, ?_⟩
    cases rmode <;> simp [State.distance, UdpReceiver.Impl.process, Impl.poll] <;> omega
  | some n =>
    cases rmode with
    | synchronous =>
      refine ⟨.receiverProcess 1, _, rfl, ⟨trivial, rfl, rfl⟩, h, rfl, ?_⟩
      simp [State.distance, UdpReceiver.Impl.process, Impl.poll, UdpReceiver.Impl.complete,
        Impl.handleReceiveData, Impl.asyncReceiveFrom]
      omega
    | asynchronous =>
      refine ⟨.handleReceiveData 0, _, rfl, ⟨trivial, rfl, rfl⟩, h, rfl, ?_⟩
      simp [State.distance, Impl.handleReceiveData, Impl.asyncReceiveFrom]
      omega

theorem advances_socket (h : s.Healthy) (hreceiver : s.receiver.Listening)
    (hidle : s.receiver.arrived = []) (hsocket : s.socket ≠ []) : Advances s := by
  obtain ⟨input, sender, network, socket, ⟨rmode, rbuffer, messages, operations⟩, output,
    enqueued, taken⟩ := s
  obtain ⟨done, rfl : operations = [done]⟩ := hreceiver.operation
  obtain ⟨datagram, datagrams, rfl : socket = _⟩ := List.exists_cons_of_ne_nil hsocket
  cases done with
  | some n => simp [Impl.arrived] at hidle
  | none =>
    refine ⟨.receive 0, _, rfl, ⟨trivial, rfl, rfl⟩, h, rfl, ?_⟩
    simp [State.distance]
    omega

theorem advances_network (h : s.Healthy) (hnetwork : s.network ≠ []) : Advances s := by
  obtain ⟨datagram, datagrams, hdatagrams⟩ := List.exists_cons_of_ne_nil hnetwork
  refine ⟨.arrive 0, { s with socket := s.socket ++ [datagram], network := datagrams }, ?_,
    ⟨trivial, rfl, rfl⟩, h, rfl, ?_⟩
  · simp [step, hdatagrams]
  · simp only [State.distance, hdatagrams, List.length_append, List.length_cons, List.length_nil]
    omega

theorem advances_operation (h : s.Healthy) (hsender : s.sender.Orderly)
    (hoperations : s.sender.operations ≠ []) : Advances s := by
  obtain ⟨operation, operations, hcons⟩ := List.exists_cons_of_ne_nil hoperations
  have hk : s.sender.operations[0]? = some operation := by rw [hcons, List.getElem?_cons_zero]
  obtain ⟨-, later, hlater, honly, -⟩ := hsender.operation hk
  obtain ⟨message, outcome⟩ := operation
  rcases outcome with _ | _ | n
  · -- the network stack has to send the message
    have htransmit : s.sender.transmit 0 (.ok message.length) =
        some ({ s.sender with operations := [⟨message, some (.ok message.length)⟩] },
          [message]) := by
      simp [UdpSender.Impl.transmit, honly]
    refine ⟨.transmit 0 (.ok message.length), _, congrArg (Option.map _) htransmit,
      ⟨?_, rfl, rfl⟩, ?_, rfl, ?_⟩
    · intro operation n hoperation hn
      obtain rfl := Option.some.inj (hk.symm.trans hoperation)
      exact (Except.ok.inj hn).symm
    · intro operation hmem
      rw [List.mem_singleton.mp hmem]
      simp
    · simp [State.distance, UdpSender.Impl.untransmitted, honly, hlater]
      omega
  · exact absurd rfl (h _ (List.mem_of_getElem? hk))
  · -- the handler has to be called
    cases hcomplete : s.sender.complete 0 with
    | none => simp [UdpSender.Impl.complete, hk] at hcomplete
    | some result =>
      rcases UdpSender.Impl.complete_spec hsender hcomplete with
        ⟨sender, rfl, -, -, hsame, hfresh, hlt⟩ | ⟨message', hfailed, -⟩
      · refine ⟨.handleSentData 0, { s with sender := sender }, ?_, ⟨trivial, rfl, rfl⟩, ?_,
          rfl, ?_⟩
        · simp only [step, hcomplete]
        · intro operation hmem
          rw [hfresh operation hmem]
          simp
        · simp only [State.distance, hsame]
          omega
      · exact absurd rfl (h _ (List.mem_of_getElem? hfailed))

theorem advances_input (hsender : s.sender.Orderly) (hidle : s.sender.operations = [])
    (hinput : s.messageInput.elements ≠ []) : Advances s := by
  let sendTo : ℕ → Except Exception ℕ := fun k =>
    .ok ((s.messageInput.elements[k]?.map List.length).getD 0)
  have hwhole : SendsWhole sendTo s.messageInput.elements := by
    intro k m n hm hn
    have hlength : (s.messageInput.elements[k]?.map List.length).getD 0 = n := Except.ok.inj hn
    rw [hm] at hlength
    exact hlength.symm
  obtain ⟨outcome, hprocess, -, -, hsame, hempty, hok, hfresh⟩ :=
    UdpSender.Impl.process_spec hsender hwhole
  refine ⟨.senderProcess sendTo, _, rfl, ⟨hwhole, rfl, rfl⟩, ?_, rfl, ?_⟩
  · intro operation hmem
    simp only [hprocess] at hmem
    rw [hfresh hidle operation hmem]
    simp
  · have hbuffer := hsender.buffer_eq_nil hidle
    have hnothing : s.sender.untransmitted = [] := by
      simp [UdpSender.Impl.untransmitted, hidle, hbuffer]
    have hnone := hempty (hok fun k => ⟨_, rfl⟩)
    have hpos : 0 < s.messageInput.elements.length := List.length_pos_iff.mpr hinput
    have hlength := congrArg List.length hsame
    simp only [hnone, hnothing, List.length_append, List.length_map, List.length_nil] at hlength
    simp only [State.distance, hprocess, hnone, hbuffer, hnothing,
      (hfresh hidle).untransmitted_eq, List.length_append, List.length_nil] at hlength ⊢
    omega

theorem distance_eq_zero_iff (h : s.receiver.Listening) : s.distance = 0 ↔
    s.messageOutput.elements = [] ∧ s.receiver.arrived = [] ∧ s.socket = [] ∧ s.network = [] ∧
      s.sender.untransmitted = [] ∧ s.sender.mInternalMessageBuffer = [] ∧
      s.messageInput.elements = [] := by
  obtain ⟨done, hdone⟩ := h.operation
  rcases done with _ | n
  · simp only [State.distance, Impl.arrived, hdone, Nat.add_eq_zero_iff, Nat.mul_eq_zero,
      List.length_eq_zero_iff]
    simp
    tauto
  · simp [State.distance, Impl.arrived, hdone]

/-- Some message advances, unless all have been taken. -/
theorem advances (h : s.Orderly mode) (hhealthy : s.Healthy) (hdistance : s.distance ≠ 0) :
    Advances s := by
  by_cases houtput : s.messageOutput.elements = []
  · by_cases harrived : s.receiver.arrived = []
    · by_cases hsocket : s.socket = []
      · by_cases hnetwork : s.network = []
        · by_cases hoperations : s.sender.operations = []
          · refine advances_input h.sender hoperations fun hinput => hdistance ?_
            have hbuffer := h.sender.buffer_eq_nil hoperations
            have hnothing : s.sender.untransmitted = [] := by
              simp [UdpSender.Impl.untransmitted, hoperations, hbuffer]
            exact (distance_eq_zero_iff h.receiver).mpr
              ⟨houtput, harrived, hsocket, hnetwork, hnothing, hbuffer, hinput⟩
          · exact advances_operation hhealthy h.sender hoperations
        · exact advances_network hhealthy hnetwork
      · exact advances_socket hhealthy h.receiver harrived hsocket
    · exact advances_receiver hhealthy h.receiver harrived
  · exact advances_output hhealthy houtput

/-- The messages of another state are still there, and can be received. -/
structure Retained (mode : UdpSender.Mode) (s s' : State) : Prop where
  orderly : s'.Orderly mode
  healthy : s'.Healthy
  enqueued : s'.enqueued = s.enqueued
  contents : s'.contents = s.contents

theorem Retained.advances {t : State} (h : Retained mode s t) (hdistance : t.distance ≠ 0) :
    ∃ e t', step e t = some t' ∧ e.Undisturbed t ∧ Retained mode s t' ∧
      t'.distance < t.distance := by
  obtain ⟨e, t', hstep, hundisturbed, hhealthy, hsame, hlt⟩ :=
    UdpTransport.advances h.orderly h.healthy hdistance
  obtain ⟨horderly, new, hnew, hmoved⟩ := delivers_step guarantee_eq h.orderly hundisturbed.1
    (fun d hd => by rw [hundisturbed.2.1] at hd; cases hd) hstep
  obtain rfl : new = [] := by simpa [hsame] using hnew
  rw [List.map_nil, List.append_nil] at hmoved
  exact ⟨e, t', hstep, hundisturbed,
    ⟨horderly, hhealthy, hsame.trans h.enqueued, hmoved.trans h.contents⟩, hlt⟩

/-- **No message is stuck.**  After any run in which no operation of the sender has failed, all
messages that are not lost can be received without further messages and without any
disturbance. -/
theorem delivery_completes {senderMode : UdpSender.Mode} {receiverMode : UdpReceiver.Mode}
    {buffer : List UInt8} {events : List Event} (hbuffer : buffer.length = cMaxMessageLength)
    (hwhole : Throughout step Event.Whole events (initial senderMode receiverMode buffer))
    (hexec : exec step events (initial senderMode receiverMode buffer) = some s)
    (hhealthy : s.Healthy) :
    ∃ later s', exec step later s = some s' ∧ Throughout step Event.Undisturbed later s ∧
      s'.taken = s.contents ∧ s'.enqueued = s.enqueued ∧
      ((∀ e ∈ events, e.disturbance = none) →
        s'.taken = s.enqueued.map (transported senderMode)) := by
  have horderly := orderly_exec hbuffer hwhole hexec
  obtain ⟨later, s', hlater, hundisturbed, hretained, hzero⟩ :=
    exists_exec_of_decreasing (fun t h hdistance => Retained.advances h hdistance)
      (Retained.mk horderly hhealthy rfl rfl)
  obtain ⟨houtput, harrived, hsocket, hnetwork, huntransmitted, -, hinput⟩ :=
    (distance_eq_zero_iff hretained.orderly.receiver).mp hzero
  have htaken : s'.taken = s.contents := by
    rw [← hretained.contents, State.contents, State.underWay, houtput, harrived, hsocket, hnetwork,
      huntransmitted, hinput]
    simp
  refine ⟨later, s', hlater, hundisturbed, htaken, hretained.enqueued, fun hnone => ?_⟩
  rw [htaken]
  refine contents_exec guarantee_eq hbuffer hwhole hexec fun e he d hd => ?_
  rw [hnone e he] at hd
  cases hd

theorem delivery_completes_oneMessage :
    ∃ later s', exec step later afterOneMessage = some s' ∧
      s'.taken = afterOneMessage.enqueued.map (transported .asynchronous) := by
  obtain ⟨later, s', hlater, -, -, -, htaken⟩ := delivery_completes (List.length_replicate ..)
    whole_oneMessage exec_oneMessage (by simp [State.Healthy, afterOneMessage])
  exact ⟨later, s', hlater, htaken (by simp [oneMessage, Event.disturbance])⟩

end Progress

end UdpTransport

end Visr
