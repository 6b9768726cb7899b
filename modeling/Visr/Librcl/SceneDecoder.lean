import Mathlib.Algebra.Ring.Parity
import Visr.Libobjectmodel.ObjectVectorUpdates
import Visr.Libobjectmodel.ParserFailures
import Visr.Libpml.DoubleBufferingProtocol
import Visr.Libpml.MessageQueueProtocol

/-!
# The scene decoder

The component takes messages about objects from a queue and updates the object vectors in
the buffers of its output.

## Main results

* `SceneDecoder.failuresContained_iff` — **malformed messages are contained unless they do harm.**
* `Session.upToDate_iff` — **the runs in which no update is lost.**
-/

namespace Visr

open ObjectVectorParser Execution

/-- `StringParameter::str()`, which is converted to a string again: it ends at the first zero. -/
def StringParameter.str (mStr : List UInt8) : List UInt8 := mStr.takeWhile fun c => c ≠ 0

/-- All object vectors can be assigned to each other. -/
instance {F : Type} : ParameterBase (ObjectVector F) where
  assign _ source := .ok source
  assign_eq h := (Except.ok.inj h).symm

/-- The component with the protocols its ports are connected to. -/
structure SceneDecoder (F : Type) where
  datagramInput : MessageQueueProtocol (List UInt8)
  objectVectorOutput : DoubleBufferingProtocol (ObjectVector F)

/-! ### Diffuse sources -/

section DiffuseSources

open PropertyTree WholeNumber

/-- The tree of a diffuse source. -/
def diffuseTree (id channels : String) : PropertyTree :=
  node "" [("type", node "diffuse" []), ("channels", node channels []), ("id", node id []),
    ("group", node "0" []), ("level", node "1" []), ("priority", node "5" [])]

/-- A text of ASCII characters. -/
def asciiText (text : String) : List UInt8 := text.toList.map fun c => UInt8.ofNat c.toNat

/-- A message about a diffuse source. -/
def diffuseText (id channels : String) : List UInt8 :=
  asciiText ("\x7b\"objects\":[\x7b\"type\":\"diffuse\",\"channels\":\"" ++ channels ++
    "\",\"id\":" ++ id ++ ",\"group\":0,\"level\":1,\"priority\":5\x7d]\x7d")

/-- The JSON library reads messages about some sources with their channels. -/
def diffusePlatform (sources : List (String × String)) : Platform WholeNumber :=
  platform (sources.map fun source => (diffuseText source.1 source.2,
    vectorTree [diffuseTree source.1 source.2]))

end DiffuseSources

namespace SceneDecoder

variable {F : Type}

/-- A call of `process()`: how it leaves the ports, the datagrams with the outcome of their
decoding, and whether the call returns normally. -/
structure Call (F : Type) where
  decoder : SceneDecoder F
  decoding : List (List UInt8 × Except Abort Unit)
  result : Except Abort Unit

/-- The handler tells whether an outcome is caught. -/
instance (outcome : Except Abort Unit) : Decidable (Handled outcome) :=
  match outcome with
  | .ok _ => isTrue (handled_ok _)
  | .error _ => decidable_of_iff _ handled_error.symm

section Process

variable [FloatArithmetic F] (env : Platform F)

/-- The body of the `try` block, where `objects` is a reference to one of the buffers. -/
def decode (objects : BufferId) (nextMsg : List UInt8) (s : SceneDecoder F) :
    SceneDecoder F × Except Abort Unit :=
  let updated := updateObjectVector env nextMsg (s.objectVectorOutput.buffers objects)
  let output := s.objectVectorOutput.modifyBuffer objects fun _ => updated.1
  match updated.2 with
  | .error a => ({ s with objectVectorOutput := output }, .error a)
  | .ok () =>
    match output.swapBuffers false with
    | .error e => ({ s with objectVectorOutput := output }, .error (.exception e))
    | .ok output => ({ s with objectVectorOutput := output }, .ok ())

/-- The loop, for at most `n` datagrams. -/
def loop (objects : BufferId) : ℕ → SceneDecoder F → Call F
  | 0, s => { decoder := s, decoding := [], result := .ok () }
  | n + 1, s =>
    if s.datagramInput.empty then { decoder := s, decoding := [], result := .ok () }
    else
      match s.datagramInput.nextElement with
      | .error e => { decoder := s, decoding := [], result := .error (.exception e) }
      | .ok datagram =>
        let (s, outcome) := decode env objects (StringParameter.str datagram) s
        if ¬ Handled outcome then
          { decoder := s, decoding := [(datagram, outcome)], result := outcome }
        else
          match s.datagramInput.popNextElement with
          | .error e =>
            { decoder := s, decoding := [(datagram, outcome)], result := .error (.exception e) }
          | .ok input =>
            let rest := loop objects n { s with datagramInput := input }
            { rest with decoding := (datagram, outcome) :: rest.decoding }

/-- The reference to the front buffer is obtained before the loop. -/
def process (s : SceneDecoder F) : Call F :=
  loop env s.objectVectorOutput.frontData s.datagramInput.numberOfElements s

/-! ### What the loop does -/

/-- The outcomes of decoding datagrams into a vector, up to one that is not caught. -/
def decodings : List (List UInt8) → ObjectVector F → List (List UInt8 × Except Abort Unit)
  | [], _ => []
  | datagram :: datagrams, res =>
    let updated := updateObjectVector env (StringParameter.str datagram) res
    (datagram, updated.2) ::
      if Handled updated.2 then decodings datagrams updated.1 else []

/-- The datagrams that were decoded without a failure. -/
def decoded (log : List (List UInt8 × Except Abort Unit)) : List (List UInt8) :=
  log.filterMap fun entry =>
    match entry.2 with
    | .ok () => some entry.1
    | .error _ => none

/-- The vector after the datagrams. -/
def absorb (datagrams : List (List UInt8)) (res : ObjectVector F) : ObjectVector F :=
  updateAll env (datagrams.map StringParameter.str) res

end Process

variable [FloatArithmetic F] {env : Platform F}

@[simp] theorem absorb_nil (res : ObjectVector F) : absorb env [] res = res := rfl

theorem absorb_cons (datagram : List UInt8) (datagrams : List (List UInt8))
    (res : ObjectVector F) :
    absorb env (datagram :: datagrams) res =
      absorb env datagrams (updateObjectVector env (StringParameter.str datagram) res).1 := rfl

theorem absorb_append (datagrams datagrams' : List (List UInt8)) (res : ObjectVector F) :
    absorb env (datagrams ++ datagrams') res =
      absorb env datagrams' (absorb env datagrams res) := by
  rw [absorb, List.map_append, updateAll_append]
  rfl

theorem decoded_cons_ok (datagram : List UInt8) (log : List (List UInt8 × Except Abort Unit)) :
    decoded ((datagram, .ok ()) :: log) = datagram :: decoded log := rfl

theorem decoded_cons_error (datagram : List UInt8) (a : Abort)
    (log : List (List UInt8 × Except Abort Unit)) :
    decoded ((datagram, .error a) :: log) = decoded log := rfl

/-- What the `try` block does: the buffers are exchanged if the message is decoded. -/
theorem decode_eq (objects : BufferId) (nextMsg : List UInt8) (s : SceneDecoder F) :
    decode env objects nextMsg s =
      let updated := updateObjectVector env nextMsg (s.objectVectorOutput.buffers objects)
      let output := s.objectVectorOutput.modifyBuffer objects fun _ => updated.1
      ({ s with objectVectorOutput := { output with
          frontData := if updated.2 = .ok () then output.frontData.other else output.frontData } },
        updated.2) := by
  unfold decode
  dsimp only
  cases (updateObjectVector env nextMsg (s.objectVectorOutput.buffers objects)).2 with
  | error a => rfl
  | ok _ => rfl

/-- One more exchange of the buffers. -/
theorem other_of_odd (n : ℕ) (b : BufferId) :
    (if Odd n then b.other.other else b.other) = if Odd (n + 1) then b.other else b := by
  by_cases hodd : Odd n
  · rw [if_pos hodd, if_neg (Nat.odd_add_one.not.mpr (not_not_intro hodd)), BufferId.other_other]
  · rw [if_neg hodd, if_pos (Nat.odd_add_one.mpr hodd)]

/-- How the loop leaves the ports. -/
structure LoopSpec (env : Platform F) (objects : BufferId) (s : SceneDecoder F) (call : Call F) :
    Prop where
  decoding : call.decoding =
    decodings env s.datagramInput.elements (s.objectVectorOutput.buffers objects)
  buffer : call.decoder.objectVectorOutput.buffers objects =
    absorb env (call.decoding.map Prod.fst) (s.objectVectorOutput.buffers objects)
  other : call.decoder.objectVectorOutput.buffers objects.other =
    s.objectVectorOutput.buffers objects.other
  frontData : call.decoder.objectVectorOutput.frontData =
    if Odd (decoded call.decoding).length then s.objectVectorOutput.frontData.other
    else s.objectVectorOutput.frontData
  returns : call.result = .ok () ↔ ∀ entry ∈ call.decoding, Handled entry.2
  popped : call.result = .ok () → call.decoder.datagramInput.elements = [] ∧
    call.decoding.map Prod.fst = s.datagramInput.elements

theorem loop_spec (objects : BufferId) {n : ℕ} {s : SceneDecoder F}
    (hn : s.datagramInput.elements.length ≤ n) :
    LoopSpec env objects s (loop env objects n s) := by
  -- by induction on the length of the queue, which each iteration shortens
  induction n generalizing s with
  | zero =>
    have hnil : s.datagramInput.elements = [] := List.length_eq_zero_iff.mp (by omega)
    rw [loop]
    exact ⟨by rw [hnil]; rfl, rfl, rfl, rfl, by simp, fun _ => ⟨hnil, hnil.symm⟩⟩
  | succ n ih =>
    cases helements : s.datagramInput.elements with
    | nil =>
      rw [loop, if_pos (MessageQueueProtocol.empty_eq_true_iff.mpr helements)]
      exact ⟨by rw [helements]; rfl, rfl, rfl, rfl, by simp, fun _ => ⟨helements, helements.symm⟩⟩
    | cons datagram datagrams =>
      obtain ⟨input, hpop, hinput⟩ := MessageQueueProtocol.popNextElement_of_elements helements
      have hother : objects.other ≠ objects := BufferId.other_ne objects
      rw [loop, MessageQueueProtocol.empty_of_elements helements, if_neg Bool.false_ne_true,
        MessageQueueProtocol.nextElement_of_elements helements]
      dsimp only
      rw [decode_eq]
      dsimp only
      rw [hpop]
      generalize hupdated : updateObjectVector env (StringParameter.str datagram)
        (s.objectVectorOutput.buffers objects) = updated
      have hself : (s.objectVectorOutput.modifyBuffer objects fun _ => updated.1).buffers objects =
          updated.1 := Function.update_self ..
      have hkept : (s.objectVectorOutput.modifyBuffer objects fun _ => updated.1).buffers
          objects.other = s.objectVectorOutput.buffers objects.other := Function.update_of_ne hother ..
      by_cases hhandled : Handled updated.2
      · -- The datagram is removed from the queue.
        rw [if_neg (not_not_intro hhandled)]
        have hlength : input.elements.length ≤ n := by
          rw [hinput]
          rw [helements, List.length_cons] at hn
          omega
        set output := s.objectVectorOutput.modifyBuffer objects fun _ => updated.1 with houtput
        have hrest := ih (s := { datagramInput := input, objectVectorOutput := { output with
          frontData := if updated.2 = .ok () then output.frontData.other else output.frontData } })
          hlength
        refine ⟨?_, ?_, hrest.other.trans hkept, ?_, ?_, fun hok => ⟨(hrest.popped hok).1, ?_⟩⟩
        · rw [helements, decodings, hupdated, if_pos hhandled]
          dsimp only
          rw [hrest.decoding, ← hself, ← hinput]
        · rw [List.map_cons, absorb_cons, hupdated, ← hself]
          exact hrest.buffer
        · refine hrest.frontData.trans ?_
          have hfront : output.frontData = s.objectVectorOutput.frontData := rfl
          rw [hfront]
          cases updated.2 with
          | ok _ =>
            rw [decoded_cons_ok, List.length_cons]
            exact other_of_odd _ _
          | error a =>
            rw [decoded_cons_error]
            rfl
        · rw [hrest.returns, List.forall_mem_cons]
          exact (and_iff_right hhandled).symm
        · rw [helements, List.map_cons, (hrest.popped hok).2]
          exact congrArg _ hinput
      · -- the outcome is not caught: the loop ends, and the datagram stays
        rw [if_pos hhandled]
        obtain ⟨a, ha⟩ : ∃ a, updated.2 = .error a := by
          cases houtcome : updated.2 with
          | ok _ => exact absurd (houtcome ▸ handled_ok _) hhandled
          | error a => exact ⟨a, rfl⟩
        refine ⟨?_, ?_, hkept, ?_, ?_, ?_⟩
        · rw [helements, decodings, hupdated, if_neg hhandled]
        · show _ = absorb env [datagram] _
          rw [absorb_cons, absorb_nil, hupdated]
          exact hself
        · rw [ha]
          rfl
        · rw [List.forall_mem_singleton]
          refine iff_of_false ?_ hhandled
          rw [ha]
          exact nofun
        · rw [ha]
          exact nofun

/-- A call of `process()`. -/
theorem process_spec (env : Platform F) (s : SceneDecoder F) :
    LoopSpec env s.objectVectorOutput.frontData s (s.process env) :=
  loop_spec _ (MessageQueueProtocol.length_elements s.datagramInput).le

/-! ### Malformed messages -/

/-- What is expected of a call: it returns normally, every datagram is decoded once and in
order, after which it is removed, and a faulty entry of a message leaves the vector as the
entries before it have left it. -/
structure FailuresContained (env : Platform F) (s : SceneDecoder F) : Prop where
  returns : (s.process env).result = .ok ()
  popped : (s.process env).decoder.datagramInput.elements = []
  order : (s.process env).decoding.map Prod.fst = s.datagramInput.elements
  vector : (s.process env).decoder.objectVectorOutput.buffers s.objectVectorOutput.frontData =
    absorb env s.datagramInput.elements s.objectVectorOutput.frontValue
  faulty : ∀ past datagram later, s.datagramInput.elements = past ++ datagram :: later →
    ∀ before entry after res a, entries env (StringParameter.str datagram) =
        before ++ entry :: after →
      parseObjects env before (absorb env past s.objectVectorOutput.frontValue) = (res, .ok ()) →
        parseObject env entry res = .error a →
          absorb env (past ++ [datagram]) s.objectVectorOutput.frontValue = res

/-- All entries of the messages that are reached do no harm. -/
def HarmlessQueue (env : Platform F) : List (List UInt8) → ObjectVector F → Prop
  | [], _ => True
  | datagram :: datagrams, res =>
    AllHarmless env (entries env (StringParameter.str datagram)) res ∧
      HarmlessQueue env datagrams (updateObjectVector env (StringParameter.str datagram) res).1

theorem handled_decodings_iff {datagrams : List (List UInt8)} {res : ObjectVector F} :
    (∀ entry ∈ decodings env datagrams res, Handled entry.2) ↔
      HarmlessQueue env datagrams res := by
  induction datagrams generalizing res with
  | nil => exact iff_of_true (List.forall_mem_nil _) trivial
  | cons datagram datagrams ih =>
    rw [decodings, List.forall_mem_cons, HarmlessQueue, ← handled_updateObjectVector_iff]
    refine and_congr_right fun h => ?_
    rw [if_pos h]
    exact ih

/-- **Malformed messages are contained if and only if the texts of all entries that are reached
do no harm.** -/
theorem failuresContained_iff (s : SceneDecoder F) :
    s.FailuresContained env ↔
      HarmlessQueue env s.datagramInput.elements s.objectVectorOutput.frontValue := by
  have hspec := process_spec env s
  have hreturns : (s.process env).result = .ok () ↔
      HarmlessQueue env s.datagramInput.elements s.objectVectorOutput.frontValue := by
    rw [hspec.returns, hspec.decoding]
    exact handled_decodings_iff
  refine ⟨fun h => hreturns.mp h.returns, fun h => ?_⟩
  obtain ⟨hpopped, horder⟩ := hspec.popped (hreturns.mpr h)
  refine ⟨hreturns.mpr h, hpopped, horder, ?_, ?_⟩
  · rw [hspec.buffer, horder]
    rfl
  · intro past datagram later _ before entry after res a hentries hbefore hentry
    rw [absorb_append, absorb_cons, absorb_nil, updateObjectVector_fst, hentries,
      parseObjects_faulty hbefore hentry]

/-- A message with a negative channel index is in the queue. -/
def negativeDecoder : SceneDecoder WholeNumber where
  datagramInput := { queue := [diffuseText "1" "-1"] }
  objectVectorOutput := .create .empty .empty

/-- The call ends with a string literal, and the message stays in the queue. -/
theorem not_failuresContained_negative :
    (negativeDecoder.process (diffusePlatform [("1", "-1")])).result = .error
        (.literal "IndexSequence: Indices must be greater or equal than zero.") ∧
      (negativeDecoder.process (diffusePlatform [("1", "-1")])).decoder.datagramInput.elements =
        [diffuseText "1" "-1"] ∧
      ¬ negativeDecoder.FailuresContained (diffusePlatform [("1", "-1")]) := by
  have hresult : (negativeDecoder.process (diffusePlatform [("1", "-1")])).result = .error
      (.literal "IndexSequence: Indices must be greater or equal than zero.") := by
    decide +kernel
  have helements : (negativeDecoder.process
      (diffusePlatform [("1", "-1")])).decoder.datagramInput.elements =
        [diffuseText "1" "-1"] := by
    decide +kernel
  refine ⟨hresult, helements, fun h => ?_⟩
  have hreturns := h.returns
  rw [hresult] at hreturns
  cases hreturns

end SceneDecoder

/-! ### Updates -/

/-- The component and the datagrams that have been decoded so far. -/
structure Session (F : Type) where
  decoder : SceneDecoder F
  decoded : List (List UInt8)

/-- What happens to the component. -/
inductive Session.Event
  | receive (datagram : List UInt8)
  | process

namespace Session

open SceneDecoder

variable {F : Type} [FloatArithmetic F] (env : Platform F)

/-- Both buffers are created empty. -/
def start : Session F where
  decoder := { datagramInput := { queue := [] }, objectVectorOutput := .create .empty .empty }
  decoded := []

/-- There is nothing after undefined behaviour. -/
def step : Event → Session F → Option (Session F)
  | .receive datagram, s => some { s with decoder := { s.decoder with
      datagramInput := s.decoder.datagramInput.enqueue datagram } }
  | .process, s =>
    let call := s.decoder.process env
    if call.result = .error .undefined then none
    else some { decoder := call.decoder, decoded := s.decoded ++ SceneDecoder.decoded call.decoding }

/-- The receivers see the result of all updates that have been decoded. -/
def UpToDate (s : Session F) : Prop :=
  s.decoder.objectVectorOutput.backValue = absorb env s.decoded .empty

end Session

namespace SceneDecoder

variable {F : Type} [FloatArithmetic F] (env : Platform F)

/-- The entries of datagrams that are applied to a vector. -/
def appliedEntries (datagrams : List (List UInt8)) (res : ObjectVector F) : List PropertyTree :=
  appliedAll env (datagrams.map StringParameter.str) res

/-- The condition on a call under which no update is lost.  If an odd number of datagrams is
decoded, each object of the front buffer must be brought by the entries of the call to where
the decoded entries bring the object that is visible; in particular the buffers agree on all
objects without an entry.  If an even number is decoded, these must not change what is visible. -/
def CatchesUp (s : SceneDecoder F) : Prop :=
  let log := decodings env s.datagramInput.elements s.objectVectorOutput.frontValue
  let front := s.objectVectorOutput.frontValue
  let back := s.objectVectorOutput.backValue
  if Odd (decoded log).length then
    ∀ id, objectAfter env id (appliedEntries env (log.map Prod.fst) front) (front.find? id) =
      objectAfter env id (appliedEntries env (decoded log) back) (back.find? id)
  else
    ∀ id, objectAfter env id (appliedEntries env (decoded log) back) (back.find? id) = back.find? id

variable {env}

theorem absorb_eq_iff {datagrams : List (List UInt8)} {res res' : ObjectVector F} :
    res' = absorb env datagrams res ↔
      ∀ id, res'.find? id =
        objectAfter env id (appliedEntries env datagrams res) (res.find? id) := by
  constructor
  · rintro rfl id
    exact find?_updateAll _ res id
  · intro h
    refine ObjectVector.ext_find? fun id => ?_
    rw [h id]
    exact (find?_updateAll _ res id).symm

/-- If the buffers agree and an odd number of datagrams is decoded, none of them with a failure,
nothing is lost. -/
theorem catchesUp_of_buffers_eq {s : SceneDecoder F}
    (hbuffers : s.objectVectorOutput.frontValue = s.objectVectorOutput.backValue)
    {datagrams : List (List UInt8)}
    (hlog : decodings env s.datagramInput.elements s.objectVectorOutput.frontValue =
      datagrams.map fun datagram => (datagram, .ok ()))
    (hodd : Odd datagrams.length) : s.CatchesUp env := by
  have hdecoded : decoded (datagrams.map fun datagram => (datagram, .ok ())) = datagrams := by
    rw [decoded, List.filterMap_map]
    exact List.filterMap_some
  have hfst : (datagrams.map fun datagram => (datagram, Except.ok ())).map
      (Prod.fst : List UInt8 × Except Abort Unit → List UInt8) = datagrams := by
    rw [List.map_map]
    exact List.map_id' datagrams
  unfold CatchesUp
  dsimp only
  rw [hlog, hdecoded, if_pos hodd, hfst, hbuffers]
  exact fun _ => rfl

/-- What is visible after a call. -/
theorem backValue_process (s : SceneDecoder F) :
    (s.process env).decoder.objectVectorOutput.backValue =
      if Odd (decoded (s.process env).decoding).length then
        absorb env ((s.process env).decoding.map Prod.fst) s.objectVectorOutput.frontValue
      else s.objectVectorOutput.backValue := by
  have hspec := process_spec env s
  show (s.process env).decoder.objectVectorOutput.buffers
    (s.process env).decoder.objectVectorOutput.frontData.other = _
  rw [hspec.frontData]
  split
  · rw [BufferId.other_other, hspec.buffer]
    rfl
  · exact hspec.other

/-- The updates of a call are all visible exactly if the call catches up. -/
theorem catchesUp_iff (s : SceneDecoder F) :
    s.CatchesUp env ↔ (s.process env).decoder.objectVectorOutput.backValue =
      absorb env (decoded (s.process env).decoding) s.objectVectorOutput.backValue := by
  rw [backValue_process, (process_spec env s).decoding]
  unfold CatchesUp
  dsimp only
  split
  next hodd =>
    rw [if_pos (show Odd (decoded (decodings env s.datagramInput.elements
      (s.objectVectorOutput.buffers s.objectVectorOutput.frontData))).length from hodd),
      absorb_eq_iff]
    refine forall_congr' fun id => ?_
    rw [show (absorb env _ s.objectVectorOutput.frontValue).find? id = _ from
      find?_updateAll _ s.objectVectorOutput.frontValue id]
    rfl
  next heven =>
    rw [if_neg (show ¬ Odd (decoded (decodings env s.datagramInput.elements
      (s.objectVectorOutput.buffers s.objectVectorOutput.frontData))).length from heven),
      absorb_eq_iff]
    exact forall_congr' fun id => eq_comm

end SceneDecoder

namespace Session

open SceneDecoder

variable {F : Type} [FloatArithmetic F] {env : Platform F}

/-- The condition on an event. -/
def CatchesUp (env : Platform F) : Event → Session F → Prop
  | .receive _, _ => True
  | .process, s => s.decoder.CatchesUp env

theorem catchesUp_process (s : Session F) :
    CatchesUp env .process s ↔ s.decoder.CatchesUp env := Iff.rfl

/-- One event. -/
theorem upToDate_step (e : Event) (s s' : Session F) (hs : s.UpToDate env)
    (h : step env e s = some s') : s'.UpToDate env ↔ CatchesUp env e s := by
  cases e with
  | receive datagram =>
    cases h
    exact iff_of_true hs trivial
  | process =>
    unfold step at h
    dsimp only at h
    split at h <;> cases h
    show _ = absorb env (s.decoded ++ _) .empty ↔ s.decoder.CatchesUp env
    rw [absorb_append, ← hs, catchesUp_iff]

/-- **The runs in which no update is lost.**  All updates decoded so far are visible
throughout a run if and only if each call catches up. -/
theorem upToDate_iff {events : List Event} {s : Session F}
    (h : exec (step env) events start = some s) :
    (∀ past later t, events = past ++ later → exec (step env) past start = some t →
      t.UpToDate env) ↔ Throughout (step env) (CatchesUp env) events start :=
  forall_visited_iff upToDate_step (rfl : UpToDate env start) h

/-- After a single message, the object is visible. -/
theorem upToDate_first :
    ∃ s, exec (step (diffusePlatform [("1", "0")])) [.receive (diffuseText "1" "0"), .process]
      start = some s ∧ s.UpToDate (diffusePlatform [("1", "0")]) := by
  have hrun : exec (step (diffusePlatform [("1", "0")]))
      [.receive (diffuseText "1" "0"), .process] start = some _ := rfl
  have hlog : decodings (diffusePlatform [("1", "0")]) [diffuseText "1" "0"] .empty =
      [diffuseText "1" "0"].map fun datagram => (datagram, .ok ()) := by
    decide +kernel
  refine ⟨_, hrun, (upToDate_iff hrun).mpr ⟨trivial, ?_⟩ _ [] _ (List.append_nil _).symm hrun⟩
  rintro _ ⟨⟩
  refine ⟨?_, fun _ _ => trivial⟩
  rw [catchesUp_process]
  exact catchesUp_of_buffers_eq rfl hlog (show Odd [diffuseText "1" "0"].length from odd_one)

/-- The second message is applied to the buffer that does not contain the object of the first
one, which is lost. -/
theorem not_upToDate_alternating :
    ∃ s, exec (step (diffusePlatform [("1", "0"), ("2", "1")]))
        [.receive (diffuseText "1" "0"), .process, .receive (diffuseText "2" "1"), .process]
        start = some s ∧
      s.decoded = [diffuseText "1" "0", diffuseText "2" "1"] ∧
      s.decoder.objectVectorOutput.backValue.find? 1 = none ∧
      ¬ s.UpToDate (diffusePlatform [("1", "0"), ("2", "1")]) := by
  have hrun : (exec (step (diffusePlatform [("1", "0"), ("2", "1")]))
      [.receive (diffuseText "1" "0"), .process, .receive (diffuseText "2" "1"), .process]
      start).map (fun s => (s.decoded, (s.decoder.objectVectorOutput.backValue.find? 1).isNone)) =
        some ([diffuseText "1" "0", diffuseText "2" "1"], true) := by
    decide +kernel
  have hexpected : ((absorb (diffusePlatform [("1", "0"), ("2", "1")])
      [diffuseText "1" "0", diffuseText "2" "1"] .empty).find? 1).isSome = true := by
    decide +kernel
  obtain ⟨s, hs, heq⟩ := Option.map_eq_some_iff.mp hrun
  obtain ⟨hdecoded, hnone⟩ := Prod.mk.inj heq
  rw [Option.isNone_iff_eq_none] at hnone
  refine ⟨s, hs, hdecoded, hnone, fun h => ?_⟩
  rw [UpToDate, hdecoded] at h
  rw [← h, hnone] at hexpected
  cases hexpected

end Session

end Visr
