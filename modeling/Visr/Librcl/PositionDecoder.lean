import Visr.Libpml.ListenerPositionTexts
import Visr.Library.StreamSelection
import Visr.Librcl.SceneDecoder

/-!
# The position decoder

The component takes messages about listeners from a queue and publishes the position of one of
them.

## Main results

* `PositionDecoder.process_eq` — what is published.
* `PositionDecoder.selectsNewest_iff` — **the newest message of the smallest id is published if
  and only if it is in the running**.
-/

namespace Visr

open StreamSelection

/-- All listener positions can be assigned to each other. -/
instance {K : Type} [Field K] : ParameterBase (Pml.ListenerPosition K) where
  assign _ source := .ok source
  assign_eq h := (Except.ok.inj h).symm

/-- The component with the protocols its ports are connected to. -/
structure PositionDecoder (K : Type) [Field K] where
  datagramInput : MessageQueueProtocol (List UInt8)
  positionOutput : DoubleBufferingProtocol (Pml.ListenerPosition K)
  offsetPosition : Rbbl.Position3D K
  orientationRotation : Quaternion K

namespace PositionDecoder

/-- `std::numeric_limits< unsigned int >::max()`. -/
def maxFaceId : Fin (2 ^ 32) := ⟨2 ^ 32 - 1, by decide⟩

/-- The local variables of `process()` apart from the object that is parsed into. -/
structure Selection (K : Type) [Field K] where
  foundPos : Pml.ListenerPosition K
  smallestFaceId : Fin (2 ^ 32)
  latestTimeStamp : Fin (2 ^ 64)

section Process

variable {K : Type} [Field K] [LinearOrder K] (math : AngleFunctions K)
  (formats : Pml.ListenerFormats K)

/-- The initial values. -/
def Selection.start : Selection K where
  foundPos := Pml.ListenerPosition.new
  smallestFaceId := maxFaceId
  latestTimeStamp := 0

/-- The comparison of a message with the one that was found before. -/
def Selection.consider (newPos : Pml.ListenerPosition K) (found : Selection K) : Selection K :=
  if newPos.faceID ≤ found.smallestFaceId then
    if found.latestTimeStamp ≤ newPos.timeNs then
      { foundPos := newPos, smallestFaceId := newPos.faceID, latestTimeStamp := newPos.timeNs }
    else found
  else found

def translatePosition (s : PositionDecoder K) (pos : Pml.ListenerPosition K) :
    Pml.ListenerPosition K :=
  pos.transform s.orientationRotation s.offsetPosition

/-- The `try` block and its handler. -/
def decode (nextMsg : List UInt8) (newPos : Pml.ListenerPosition K) (found : Selection K) :
    Except Abort (Pml.ListenerPosition K × Selection K) :=
  match Pml.ListenerPosition.run (Pml.ListenerPosition.parseJson math formats nextMsg) newPos with
  | (.ok (), newPos) => .ok (newPos, found.consider newPos)
  | (.error abort, newPos) =>
    if abort.isCaught then .ok (newPos, found) else .error abort

/-- The loop, for at most `n` datagrams, each of which is parsed into the same object. -/
def loop : ℕ → PositionDecoder K → Pml.ListenerPosition K → Selection K →
    Except Abort (PositionDecoder K × Selection K)
  | 0, s, _, found => .ok (s, found)
  | n + 1, s, newPos, found =>
    if s.datagramInput.empty then .ok (s, found)
    else
      match s.datagramInput.nextElement with
      | .error e => .error (.exception e)
      | .ok datagram =>
        match decode math formats (StringParameter.str datagram) newPos found with
        | .error abort => .error abort
        | .ok (newPos, found) =>
          match s.datagramInput.popNextElement with
          | .error e => .error (.exception e)
          | .ok input => loop n { s with datagramInput := input } newPos found

def process (s : PositionDecoder K) : Except Abort (PositionDecoder K) :=
  match loop math formats s.datagramInput.numberOfElements s .new .start with
  | .error abort => .error abort
  | .ok (s, found) =>
    if found.smallestFaceId ≠ maxFaceId then
      match s.positionOutput.publish (s.translatePosition found.foundPos) with
      | .error e => .error (.exception e)
      | .ok output => .ok { s with positionOutput := output }
    else .ok s

/-! ### What is expected -/

/-- The message in a text, if it is parsed. -/
def parsed (text : List UInt8) : Option (Pml.ListenerPosition K) :=
  match Pml.ListenerPosition.run (Pml.ListenerPosition.parseJson math formats text) .new with
  | (.ok (), pos) => some pos
  | (.error _, _) => none

/-- The messages in the queue that are parsed. -/
def received (s : PositionDecoder K) : List (Pml.ListenerPosition K) :=
  s.datagramInput.elements.filterMap fun datagram =>
    parsed math formats (StringParameter.str datagram)

/-- **What is expected of a call**: it returns, takes all datagrams from the queue, and publishes
the newest message of the smallest id, if there is a message. -/
structure SelectsNewest (s : PositionDecoder K) : Prop where
  returns : ∃ s', process math formats s = .ok s'
  popped : ∀ s', process math formats s = .ok s' → s'.datagramInput.elements = []
  nothing : received math formats s = [] → ∀ s', process math formats s = .ok s' →
    s'.positionOutput = s.positionOutput
  newest : received math formats s ≠ [] → ∃ before p after,
    received math formats s = before ++ p :: after ∧
    Preferred Pml.ListenerPosition.faceID Pml.ListenerPosition.timeNs before p after ∧
    ∀ s', process math formats s = .ok s' →
      .ok s'.positionOutput = s.positionOutput.publish (s.translatePosition p)

/-- The newest message of the smallest id is in the running: nothing with a later time stamp is in
the running before it.  Its id is not the largest number. -/
def NewestInTheRunning (messages : List (Pml.ListenerPosition K)) : Prop :=
  ∀ before p after, messages = before ++ p :: after →
    Preferred Pml.ListenerPosition.faceID Pml.ListenerPosition.timeNs before p after →
      p.faceID ≠ maxFaceId ∧
        ∀ r ∈ running Pml.ListenerPosition.faceID Pml.ListenerPosition.timeNs before.reverse,
          r.timeNs ≤ p.timeNs

end Process

/-! ### What is found -/

section Found

variable {K : Type} [Field K]

theorem le_maxFaceId (n : Fin (2 ^ 32)) : n ≤ maxFaceId := by
  rw [Fin.le_def]
  have hlt := n.isLt
  show n.val ≤ 2 ^ 32 - 1
  omega

/-- The elements in the running are represented by the last one of them. -/
def Selection.Represents (found : Selection K) : List (Pml.ListenerPosition K) → Prop
  | [] => found = .start
  | m :: _ => found = { foundPos := m, smallestFaceId := m.faceID, latestTimeStamp := m.timeNs }

/-- **One more message.** -/
theorem Selection.Represents.consider {found : Selection K}
    {earlier : List (Pml.ListenerPosition K)}
    (h : found.Represents
      (running Pml.ListenerPosition.faceID Pml.ListenerPosition.timeNs earlier))
    (newPos : Pml.ListenerPosition K) :
    (found.consider newPos).Represents
      (running Pml.ListenerPosition.faceID Pml.ListenerPosition.timeNs (newPos :: earlier)) := by
  cases hrunning : running Pml.ListenerPosition.faceID Pml.ListenerPosition.timeNs earlier with
  | nil =>
    rw [hrunning] at h
    have hall : ∀ r ∈ running Pml.ListenerPosition.faceID Pml.ListenerPosition.timeNs earlier,
        newPos.faceID ≤ r.faceID ∧ r.timeNs ≤ newPos.timeNs := by
      rw [hrunning]
      exact List.forall_mem_nil _
    rw [running_cons_of hall, h]
    exact (if_pos (le_maxFaceId _)).trans (if_pos (Fin.zero_le _))
  | cons m rest =>
    -- the last message in the running is as good as all of them
    have hiff := forall_running_iff hrunning newPos
    rw [hrunning] at h
    unfold Selection.consider
    rw [h]
    dsimp only
    by_cases hall : newPos.faceID ≤ m.faceID ∧ m.timeNs ≤ newPos.timeNs
    · rw [if_pos hall.1, if_pos hall.2, running_cons_of (hiff.mpr hall)]
      rfl
    · rw [running_cons_of_not (hiff.not.mpr hall), hrunning]
      show (if _ then (if _ then _ else _) else _) = _
      rcases not_and_or.mp hall with hface | htime
      · rw [if_neg hface]
      · rw [if_neg htime, ite_self]

end Found

variable {K : Type} [Field K] [LinearOrder K] [IsStrictOrderedRing K] {math : AngleFunctions K}
  {formats : Pml.ListenerFormats K}

/-- **What becomes of a datagram.** -/
theorem decode_eq (math : AngleFunctions K) (formats : Pml.ListenerFormats K)
    (nextMsg : List UInt8) (newPos : Pml.ListenerPosition K) (found : Selection K) :
    ∃ newPos', decode math formats nextMsg newPos found =
      .ok (newPos', match parsed math formats nextMsg with
        | some pos => found.consider pos
        | none => found) := by
  obtain ⟨value, hhandled, hvalue⟩ :=
    Pml.ListenerPosition.exists_run_parseJson math formats nextMsg
  unfold decode parsed
  rw [hvalue newPos, hvalue .new]
  cases value with
  | error abort =>
    refine ⟨newPos, ?_⟩
    dsimp only
    rw [if_pos (handled_error.mp hhandled)]
  | ok result => exact ⟨result, rfl⟩

variable (math formats) in
/-- **The loop.** -/
theorem loop_eq {n : ℕ} {s : PositionDecoder K} (hn : s.datagramInput.elements.length ≤ n)
    (newPos : Pml.ListenerPosition K) {found : Selection K}
    {earlier : List (Pml.ListenerPosition K)}
    (h : found.Represents
      (running Pml.ListenerPosition.faceID Pml.ListenerPosition.timeNs earlier)) :
    ∃ input found', loop math formats n s newPos found =
        .ok ({ s with datagramInput := input }, found') ∧ input.elements = [] ∧
      found'.Represents (running Pml.ListenerPosition.faceID Pml.ListenerPosition.timeNs
        ((received math formats s).reverse ++ earlier)) := by
  induction n generalizing s newPos found earlier with
  | zero =>
    have hnil : s.datagramInput.elements = [] := List.length_eq_zero_iff.mp (by omega)
    refine ⟨s.datagramInput, found, rfl, hnil, ?_⟩
    rw [received, hnil]
    exact h
  | succ n ih =>
    cases helements : s.datagramInput.elements with
    | nil =>
      rw [loop, if_pos (MessageQueueProtocol.empty_eq_true_iff.mpr helements)]
      refine ⟨s.datagramInput, found, rfl, helements, ?_⟩
      rw [received, helements]
      exact h
    | cons datagram datagrams =>
      obtain ⟨input, hpop, hinput⟩ := MessageQueueProtocol.popNextElement_of_elements helements
      obtain ⟨newPos', hdecode⟩ :=
        decode_eq math formats (StringParameter.str datagram) newPos found
      have hlength : input.elements.length ≤ n := by
        rw [hinput]
        rw [helements, List.length_cons] at hn
        omega
      rw [loop, MessageQueueProtocol.empty_of_elements helements, if_neg Bool.false_ne_true,
        MessageQueueProtocol.nextElement_of_elements helements]
      dsimp only
      rw [hdecode]
      dsimp only
      rw [hpop]
      dsimp only
      -- a datagram that is not understood counts for nothing
      have hrest : received math formats s =
          (parsed math formats (StringParameter.str datagram)).toList ++
            received math formats { s with datagramInput := input } := by
        unfold received
        rw [helements, hinput, List.filterMap_cons]
        cases parsed math formats (StringParameter.str datagram) <;> rfl
      rw [hrest]
      cases hparsed : parsed math formats (StringParameter.str datagram) with
      | none => exact ih (s := { s with datagramInput := input }) hlength newPos' h
      | some pos =>
        obtain ⟨input', found', hloop, hempty, hfound⟩ :=
          ih (s := { s with datagramInput := input }) hlength newPos' (h.consider pos)
        refine ⟨input', found', hloop, hempty, ?_⟩
        rw [Option.toList_some, List.singleton_append, List.reverse_cons, List.append_assoc]
        exact hfound

/-- **What is published** is the last message in the running, if its id is not the largest
number. -/
theorem process_eq (math : AngleFunctions K) (formats : Pml.ListenerFormats K)
    (s : PositionDecoder K) :
    ∃ s', process math formats s = .ok s' ∧ s'.datagramInput.elements = [] ∧
      match running Pml.ListenerPosition.faceID Pml.ListenerPosition.timeNs
          (received math formats s).reverse with
      | [] => s'.positionOutput = s.positionOutput
      | m :: _ =>
        if m.faceID = maxFaceId then s'.positionOutput = s.positionOutput
        else .ok s'.positionOutput = s.positionOutput.publish (s.translatePosition m) := by
  have hstart : (Selection.start (K := K)).Represents
      (running Pml.ListenerPosition.faceID Pml.ListenerPosition.timeNs []) := rfl
  obtain ⟨input, found, hloop, hempty, hfound⟩ := loop_eq math formats
    (MessageQueueProtocol.length_elements s.datagramInput).le .new hstart
  rw [List.append_nil] at hfound
  unfold process
  rw [hloop]
  dsimp only
  cases hrunning : running Pml.ListenerPosition.faceID Pml.ListenerPosition.timeNs
      (received math formats s).reverse with
  | nil =>
    rw [hrunning] at hfound
    rw [hfound]
    exact ⟨_, if_neg (not_not_intro rfl), hempty, rfl⟩
  | cons m rest =>
    rw [hrunning] at hfound
    rw [hfound]
    dsimp only
    -- the largest id stands for no message at all
    by_cases hmax : m.faceID = maxFaceId
    · exact ⟨_, if_neg (not_not_intro hmax), hempty, (if_pos hmax).mpr rfl⟩
    · exact ⟨_, if_pos hmax, hempty, (if_neg hmax).mpr rfl⟩

/-! ### The newest message of the smallest id -/

/-- Publishing a value changes the buffers. -/
theorem publish_ne_self {V : Type} [ParameterBase V] (p : DoubleBufferingProtocol V) (value : V) :
    p.publish value ≠ .ok p := by
  intro h
  have hfront : p.frontData.other = p.frontData :=
    congrArg DoubleBufferingProtocol.frontData (Except.ok.inj h)
  exact BufferId.other_ne _ hfront

theorem publish_injective {V : Type} [ParameterBase V] {p : DoubleBufferingProtocol V}
    {value value' : V} (h : p.publish value = p.publish value') : value = value' := by
  obtain ⟨output, hpublish, hback, -⟩ := p.publish_spec value
  obtain ⟨output', hpublish', hback', -⟩ := p.publish_spec value'
  obtain rfl : output = output' := Except.ok.inj (hpublish.symm.trans (h.trans hpublish'))
  exact hback.symm.trans hback'

theorem newestInTheRunning_of_selectsNewest {s : PositionDecoder K}
    (h : SelectsNewest math formats s) : NewestInTheRunning (received math formats s) := by
  intro before p after hsplit hp
  have hne : received math formats s ≠ [] := by
    rw [hsplit]
    exact List.append_ne_nil_of_right_ne_nil _ (List.cons_ne_nil _ _)
  obtain ⟨s', hprocess, -, hpublished⟩ := process_eq math formats s
  obtain ⟨before', p', after', hsplit', hp', hnewest⟩ := h.newest hne
  have houtput := hnewest s' hprocess
  obtain ⟨hkey, htime⟩ := hp'.eq_of_eq hp (hsplit'.symm.trans hsplit)
  obtain ⟨m, rest, hrunning⟩ := List.exists_cons_of_ne_nil
    (running_ne_nil Pml.ListenerPosition.faceID Pml.ListenerPosition.timeNs
      (List.reverse_eq_nil_iff.not.mpr hne))
  rw [hrunning] at hpublished
  dsimp only at hpublished
  by_cases hmax : m.faceID = maxFaceId
  · rw [if_pos hmax] at hpublished
    rw [hpublished] at houtput
    exact absurd houtput.symm (publish_ne_self _ _)
  · -- the published message has the id and the time stamp of the expected one
    rw [if_neg hmax] at hpublished
    have hsame := publish_injective (hpublished.symm.trans houtput)
    have hface : m.faceID = p'.faceID := by
      show (s.translatePosition m).faceID = (s.translatePosition p').faceID
      rw [hsame]
    have hstamp : m.timeNs = p'.timeNs := by
      show (s.translatePosition m).timeNs = (s.translatePosition p').timeNs
      rw [hsame]
    refine ⟨fun hp => hmax (hface.trans (hkey.trans hp)), ?_⟩
    rw [← htime, ← hstamp]
    rw [hsplit] at hrunning
    exact time_le_of_head hrunning

theorem selectsNewest_of_newestInTheRunning {s : PositionDecoder K}
    (h : NewestInTheRunning (received math formats s)) : SelectsNewest math formats s := by
  obtain ⟨s', hprocess, hempty, hpublished⟩ := process_eq math formats s
  have hunique : ∀ t, process math formats s = .ok t → t = s' := fun t ht =>
    Except.ok.inj (ht.symm.trans hprocess)
  refine ⟨⟨s', hprocess⟩, fun t ht => ?_, fun hnil t ht => ?_, fun hne => ?_⟩
  · rw [hunique t ht]
    exact hempty
  · rw [hnil] at hpublished
    rw [hunique t ht]
    exact hpublished
  · obtain ⟨before, p, after, hsplit, hp⟩ := exists_preferred
      Pml.ListenerPosition.faceID Pml.ListenerPosition.timeNs hne
    obtain ⟨hmax, htimes⟩ := h before p after hsplit hp
    rw [hsplit, running_of_preferred hp htimes] at hpublished
    dsimp only at hpublished
    rw [if_neg hmax] at hpublished
    refine ⟨before, p, after, hsplit, hp, fun t ht => ?_⟩
    rw [hunique t ht]
    exact hpublished

/-- **The newest message of the smallest id is published if and only if it is in the running.** -/
theorem selectsNewest_iff (math : AngleFunctions K) (formats : Pml.ListenerFormats K)
    (s : PositionDecoder K) :
    SelectsNewest math formats s ↔ NewestInTheRunning (received math formats s) := by
  constructor
  · exact newestInTheRunning_of_selectsNewest
  · exact selectsNewest_of_newestInTheRunning

/-! ### Two listeners -/

section Messages

open PropertyTree SceneDecoder

/-- The tree of a message. -/
def messageTree (faceId timeStamp : String) : PropertyTree :=
  node "" [("faceId", node faceId []), ("timeStamp", node timeStamp [])]

def messageText (faceId timeStamp : String) : List UInt8 :=
  asciiText ("\x7b\"faceId\":" ++ faceId ++ ",\"timeStamp\":" ++ timeStamp ++ "\x7d")

/-- The JSON library reads two messages. -/
noncomputable def messageFormats : Pml.ListenerFormats ℝ :=
  { Pml.ListenerPosition.wholeFormats PropertyTree.new [] [] with
    readJson := fun text =>
      if text = messageText "2" "100" then .ok (messageTree "2" "100")
      else if text = messageText "1" "50" then .ok (messageTree "1" "50")
      else .error (.runtimeError "<unspecified file>(1): expected value") }

/-- What is received for a message. -/
noncomputable def messagePosition (faceId timeStamp : String) : Pml.ListenerPosition ℝ :=
  Pml.ListenerPosition.ofTree messageFormats (messageTree faceId timeStamp) 1

theorem parsed_messageFormats {faceId timeStamp : String}
    (h : messageFormats.readJson (messageText faceId timeStamp) =
      .ok (messageTree faceId timeStamp)) :
    parsed AngleFunctions.real messageFormats (messageText faceId timeStamp) =
      some (messagePosition faceId timeStamp) := by
  have horientation : Pml.ListenerPosition.SetsOrientation
      (Pml.ListenerPosition.parseOrientation AngleFunctions.real messageFormats
        (messageTree faceId timeStamp)) (.ok 1) := fun _ => rfl
  unfold parsed Pml.ListenerPosition.parseJson
  rw [h]
  dsimp only
  rw [Pml.ListenerPosition.run_parseJsonTree horientation]
  rfl

theorem str_messageText : StringParameter.str (messageText "2" "100") = messageText "2" "100" ∧
    StringParameter.str (messageText "1" "50") = messageText "1" "50" := by
  decide +kernel

theorem readJson_messageFormats :
    messageFormats.readJson (messageText "2" "100") = .ok (messageTree "2" "100") ∧
      messageFormats.readJson (messageText "1" "50") = .ok (messageTree "1" "50") := by
  have hne : ¬messageText "1" "50" = messageText "2" "100" := by decide +kernel
  unfold messageFormats
  dsimp only
  rw [if_pos rfl, if_neg hne, if_pos rfl]
  exact ⟨rfl, rfl⟩

/-- The component with a list of datagrams, the oldest of which is the first one. -/
noncomputable def decoderWith (datagrams : List (List UInt8)) : PositionDecoder ℝ where
  datagramInput := { queue := datagrams.reverse }
  positionOutput := .create .new .new
  offsetPosition := ⟨0, 0, 0⟩
  orientationRotation := 1

theorem received_decoderWith :
    received AngleFunctions.real messageFormats
        (decoderWith [messageText "2" "100", messageText "1" "50"]) =
      [messagePosition "2" "100", messagePosition "1" "50"] := by
  unfold received decoderWith MessageQueueProtocol.elements
  dsimp only
  rw [List.reverse_reverse]
  simp only [List.filterMap_cons, List.filterMap_nil, str_messageText.1, str_messageText.2,
    parsed_messageFormats readJson_messageFormats.1,
    parsed_messageFormats readJson_messageFormats.2]

theorem members_messagePosition :
    (messagePosition "2" "100").faceID = 2 ∧ (messagePosition "2" "100").timeNs = 100 ∧
      (messagePosition "1" "50").faceID = 1 ∧ (messagePosition "1" "50").timeNs = 50 := by
  refine ⟨?_, ?_, ?_, ?_⟩ <;> decide +kernel

/-- An older message of a smaller id is not published. -/
theorem not_selectsNewest_older :
    ¬SelectsNewest AngleFunctions.real messageFormats
      (decoderWith [messageText "2" "100", messageText "1" "50"]) := by
  intro h
  have hrunning := newestInTheRunning_of_selectsNewest h
  obtain ⟨hface, htime, hface', htime'⟩ := members_messagePosition
  have hpreferred : Preferred Pml.ListenerPosition.faceID Pml.ListenerPosition.timeNs
      [messagePosition "2" "100"] (messagePosition "1" "50") [] := by
    refine ⟨fun q hq => ?_, fun q hq hkey => ?_, List.forall_mem_nil _⟩
    · rcases List.mem_cons.mp hq with rfl | hq
      · rw [hface, hface']
        decide
      · rw [List.mem_singleton.mp hq]
    · rw [List.mem_singleton.mp hq, hface, hface'] at hkey
      exact absurd hkey (by decide)
  obtain ⟨-, htimes⟩ := hrunning _ _ _ received_decoderWith hpreferred
  have hle := htimes (messagePosition "2" "100") List.mem_cons_self
  rw [htime, htime'] at hle
  exact absurd hle (by decide)

/-- A single message is published. -/
theorem selectsNewest_single :
    SelectsNewest AngleFunctions.real messageFormats (decoderWith [messageText "1" "50"]) := by
  have hreceived : received AngleFunctions.real messageFormats
      (decoderWith [messageText "1" "50"]) = [messagePosition "1" "50"] := by
    unfold received decoderWith MessageQueueProtocol.elements
    dsimp only
    rw [List.reverse_reverse]
    simp only [List.filterMap_cons, List.filterMap_nil, str_messageText.2,
      parsed_messageFormats readJson_messageFormats.2]
  rw [selectsNewest_iff, hreceived]
  intro before p after hsplit _
  obtain ⟨rfl, rfl, -⟩ : before = [] ∧ messagePosition "1" "50" = p ∧ after = [] := by
    cases before with
    | nil =>
      obtain ⟨hp, hafter⟩ := List.cons.inj hsplit
      exact ⟨rfl, hp, hafter.symm⟩
    | cons q before =>
      obtain ⟨-, hnil⟩ := List.cons.inj hsplit
      exact absurd hnil.symm (List.append_ne_nil_of_right_ne_nil _ (List.cons_ne_nil _ _))
  refine ⟨?_, List.forall_mem_nil _⟩
  rw [members_messagePosition.2.2.1]
  decide

end Messages

end PositionDecoder

end Visr
