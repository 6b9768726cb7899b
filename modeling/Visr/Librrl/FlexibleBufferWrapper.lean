import Mathlib.Data.List.Perm.Basic
import Mathlib.Tactic.Ring
import Visr.Librbbl.CircularBuffer

/-!
# Processing with arbitrary block sizes

A signal flow processes blocks of one period.  The wrapper collects the input in one
circular buffer until a period is complete and hands out the output from another one,
so that it can be called with any number of frames, at the cost of a latency of one
period.

## Main results

* `processChunk_spec` — one chunk of frames.
* `run_output` — the output of any sequence of calls.
* `run_agreement_iff` — when the two overloads agree.
-/

namespace Visr

open Signal (past)

variable {α σ : Type}

/-- A signal flow as the wrapper sees it: a state machine that turns a block of input
samples for each capture channel into a block of output samples for each playback
channel.  A wrapper for a period of zero cannot be constructed. -/
structure BlockFlow (α σ : Type) where
  period : ℕ
  numberOfCaptureChannels : ℕ
  numberOfPlaybackChannels : ℕ
  process : σ → (Fin numberOfCaptureChannels → Fin period → α) →
    σ × (Fin numberOfPlaybackChannels → Fin period → α)
  period_pos : 0 < period

namespace BlockFlow

variable (flow : BlockFlow α σ)

/-- The block `b` of a multichannel signal. -/
def blockOf (x : ℕ → ℕ → α) (b : ℕ) : Fin flow.numberOfCaptureChannels → Fin flow.period → α :=
  fun ch k => x ch (b * flow.period + k)

/-- The state of the flow after `b` blocks of the input `x`. -/
def stateAfter (s : σ) (x : ℕ → ℕ → α) : ℕ → σ
  | 0 => s
  | b + 1 => (flow.process (stateAfter s x b) (flow.blockOf x b)).1

variable [Zero α]

/-- A block of output samples, extended by zeros. -/
def extend (block : Fin flow.numberOfPlaybackChannels → Fin flow.period → α) (ch k : ℕ) : α :=
  if h : ch < flow.numberOfPlaybackChannels ∧ k < flow.period then block ⟨ch, h.1⟩ ⟨k, h.2⟩
  else 0

/-- The output of the flow when it is run period by period on the input `x`. -/
def output (s : σ) (x : ℕ → ℕ → α) (ch t : ℕ) : α :=
  let b := t / flow.period
  flow.extend (flow.process (flow.stateAfter s x b) (flow.blockOf x b)).2 ch (t % flow.period)

/-- The output of the flow delayed by one period of zeros. -/
def delayedOutput (s : σ) (x : ℕ → ℕ → α) (ch t : ℕ) : α :=
  if t < flow.period then 0 else flow.output s x ch (t - flow.period)

theorem output_block (s : σ) (x : ℕ → ℕ → α) (ch b : ℕ) {k : ℕ} (hk : k < flow.period) :
    flow.output s x ch (b * flow.period + k) =
      flow.extend (flow.process (flow.stateAfter s x b) (flow.blockOf x b)).2 ch k := by
  have hdiv : (b * flow.period + k) / flow.period = b := by
    rw [Nat.mul_comm, Nat.mul_add_div flow.period_pos, Nat.div_eq_of_lt hk, Nat.add_zero]
  have hmod : (b * flow.period + k) % flow.period = k := by
    rw [Nat.mul_comm, Nat.mul_add_mod, Nat.mod_eq_of_lt hk]
  rw [output]
  simp only [hdiv, hmod]

theorem delayedOutput_block (s : σ) (x : ℕ → ℕ → α) (ch b : ℕ) {k : ℕ} (hk : k < flow.period) :
    flow.delayedOutput s x ch (flow.period + b * flow.period + k) =
      flow.extend (flow.process (flow.stateAfter s x b) (flow.blockOf x b)).2 ch k := by
  have hsub : flow.period + b * flow.period + k - flow.period = b * flow.period + k := by omega
  rw [delayedOutput, if_neg (by omega), hsub, output_block flow s x ch b hk]

end BlockFlow

/-- The wrapper around a flow, together with the state of the flow. -/
structure FlexibleBufferWrapper (flow : BlockFlow α σ) where
  flowState : σ
  inputBuffer : CircularBuffer α
  outputBuffer : CircularBuffer α
  inputBufferLevel : ℕ
  outputBufferLevel : ℕ

namespace FlexibleBufferWrapper

variable [Zero α] {flow : BlockFlow α σ} {A : Type}

/-- The constructor: two buffers of two periods, the output buffer with one period of
zeros in it. -/
def create (flow : BlockFlow α σ) (flowState : σ) :
    Except Exception (FlexibleBufferWrapper flow) := do
  have hlength : 0 < 2 * flow.period := Nat.mul_pos Nat.two_pos flow.period_pos
  let inputBuffer := .create flow.numberOfCaptureChannels (2 * flow.period) 0 hlength
  let outputBuffer := .create flow.numberOfPlaybackChannels (2 * flow.period) 0 hlength
  let outputBuffer ← CircularBuffer.writeMatrix outputBuffer (fun _ _ => 0)
    flow.numberOfPlaybackChannels flow.period
  return ⟨flowState, inputBuffer, outputBuffer, 0, flow.period⟩

/-- Copies a chunk of frames to the input buffer. -/
def fillInput (w : FlexibleBufferWrapper flow) (capture : ℕ → ℕ → α) (chunkFrames : ℕ) :
    Except Exception (FlexibleBufferWrapper flow) := do
  let inputBuffer ← (w.inputBuffer.store chunkFrames capture).commitWrite chunkFrames
  return {
    flowState := w.flowState
    inputBuffer := inputBuffer
    outputBuffer := w.outputBuffer
    inputBufferLevel := w.inputBufferLevel + chunkFrames
    outputBufferLevel := w.outputBufferLevel }

/-- One invocation of the flow, when the input buffer contains a full period. -/
def processFlow (w : FlexibleBufferWrapper flow) :
    Except Exception (FlexibleBufferWrapper flow) := do
  let result := flow.process w.flowState fun ch k => w.inputBuffer.readAt ch flow.period k
  let outputBuffer ←
    (w.outputBuffer.store flow.period (flow.extend result.2)).commitWrite flow.period
  return {
    flowState := result.1
    inputBuffer := w.inputBuffer
    outputBuffer := outputBuffer
    inputBufferLevel := w.inputBufferLevel - flow.period
    outputBufferLevel := w.outputBufferLevel + flow.period }

/-- Takes in a chunk of frames and runs the flow if that completes a period. -/
def takeInput (w : FlexibleBufferWrapper flow) (capture : ℕ → ℕ → α) (chunkFrames : ℕ) :
    Except Exception (FlexibleBufferWrapper flow) := do
  let w ← w.fillInput capture chunkFrames
  if w.inputBufferLevel = flow.period then w.processFlow else .ok w

/-- The body of the loop of `process`: one chunk of frames.  Sample `k` of the chunk is
read from `capture ch k` and written to `address ch k`. -/
def processChunk (w : FlexibleBufferWrapper flow) (capture : ℕ → ℕ → α) (address : ℕ → ℕ → A)
    (chunkFrames : ℕ) : Except Exception (FlexibleBufferWrapper flow × List (A × α)) := do
  let w ← w.takeInput capture chunkFrames
  let writes := (List.range flow.numberOfPlaybackChannels).flatMap fun ch =>
    (List.range chunkFrames).map fun k =>
      (address ch k, w.outputBuffer.readAt ch w.outputBufferLevel k)
  return ({ w with outputBufferLevel := w.outputBufferLevel - chunkFrames }, writes)

/-- The loop of `process`, which splits the frames into chunks at the ends of the periods.
The accesses of a chunk depend on the frames processed before it.  Every chunk has at
least one frame, so the number of frames is enough fuel. -/
def processLoop (capture : ℕ → ℕ → ℕ → α) (address : ℕ → ℕ → ℕ → A) :
    ℕ → ℕ → ℕ → FlexibleBufferWrapper flow →
    Except Exception (FlexibleBufferWrapper flow × List (A × α))
  | 0, _, _, w => .ok (w, [])
  | fuel + 1, processedFrames, remainingFrames, w =>
    if remainingFrames = 0 then .ok (w, [])
    else do
      let chunkFrames := min remainingFrames (flow.period - w.inputBufferLevel)
      let (w, writes) ←
        w.processChunk (capture processedFrames) (address processedFrames) chunkFrames
      let (w, moreWrites) ← processLoop capture address fuel (processedFrames + chunkFrames)
        (remainingFrames - chunkFrames) w
      return (w, writes ++ moreWrites)

/-- The overload for arrays of channel pointers.  An element is addressed by channel and
sample index. -/
def process (w : FlexibleBufferWrapper flow) (captureSamples : ℕ → ℕ → α) (numFrames : ℕ) :
    Except Exception (FlexibleBufferWrapper flow × List ((ℕ × ℕ) × α)) :=
  processLoop (fun processedFrames ch k => captureSamples ch (processedFrames + k))
    (fun processedFrames ch k => (ch, processedFrames + k)) numFrames 0 numFrames w

/-- The overload for matrices with channel and sample strides.  An element is addressed by
its offset from the first one. -/
def processStrided (w : FlexibleBufferWrapper flow) (captureSamples : ℕ → α)
    (captureChannelStride captureSampleStride playbackChannelStride playbackSampleStride
      numFrames : ℕ) : Except Exception (FlexibleBufferWrapper flow × List (ℕ × α)) :=
  processLoop
    (fun processedFrames ch k => captureSamples
      (processedFrames * captureSampleStride + ch * captureChannelStride + k * captureSampleStride))
    -- the frames processed are not multiplied by the sample stride on this side
    (fun processedFrames ch k =>
      processedFrames + ch * playbackChannelStride + k * playbackSampleStride)
    numFrames 0 numFrames w

/-! ### One chunk -/

/-- The state of the buffers when `inTime` frames of the input `x` have been taken in and
`outTime` frames of output have been handed out: the input buffer holds the input, the
output buffer the delayed output of all complete periods. -/
structure Buffered (s : σ) (x : ℕ → ℕ → α) (inTime outTime : ℕ)
    (w : FlexibleBufferWrapper flow) : Prop where
  inputLevel : w.inputBufferLevel = inTime % flow.period
  outputLevel : w.outputBufferLevel + outTime =
    flow.period + inTime / flow.period * flow.period
  flowState : w.flowState = flow.stateAfter s x (inTime / flow.period)
  inputChannels : w.inputBuffer.numberOfChannels = flow.numberOfCaptureChannels
  inputLength : w.inputBuffer.length = 2 * flow.period
  inputHolds : w.inputBuffer.Holds x inTime
  outputChannels : w.outputBuffer.numberOfChannels = flow.numberOfPlaybackChannels
  outputLength : w.outputBuffer.length = 2 * flow.period
  outputHolds : w.outputBuffer.Holds (flow.delayedOutput s x)
    (flow.period + inTime / flow.period * flow.period)

/-- What holds between two chunks, when `time` frames have been processed. -/
def Synchronous (s : σ) (x : ℕ → ℕ → α) (time : ℕ) (w : FlexibleBufferWrapper flow) : Prop :=
  Buffered s x time time w

/-- The elements written for the frames from `time` on, `n` of them for each channel. -/
def expectedWrites (flow : BlockFlow α σ) (s : σ) (x : ℕ → ℕ → α) (time : ℕ)
    (address : ℕ → ℕ → A) (n : ℕ) : List (A × α) :=
  (List.range flow.numberOfPlaybackChannels).flatMap fun ch =>
    (List.range n).map fun k => (address ch k, flow.delayedOutput s x ch (time + k))

theorem div_mod_of_lt {t n p : ℕ} (h : t % p + n < p) :
    (t + n) / p = t / p ∧ (t + n) % p = t % p + n := by
  have hsplit : t + n = p * (t / p) + (t % p + n) := by
    have := Nat.div_add_mod t p
    omega
  have hp : 0 < p := by omega
  rw [hsplit, Nat.mul_add_div hp, Nat.mul_add_mod, Nat.div_eq_of_lt h, Nat.mod_eq_of_lt h]
  exact ⟨rfl, rfl⟩

theorem div_mod_of_eq {t n p : ℕ} (hp : 0 < p) (h : t % p + n = p) :
    (t + n) / p = t / p + 1 ∧ (t + n) % p = 0 := by
  have hsplit : t + n = p * (t / p + 1) := by
    have := Nat.div_add_mod t p
    rw [Nat.mul_add, Nat.mul_one]
    omega
  rw [hsplit, Nat.mul_div_cancel_left _ hp, Nat.mul_mod_right]
  exact ⟨rfl, rfl⟩

section Chunk

variable {s : σ} {x : ℕ → ℕ → α} {time n : ℕ} {w : FlexibleBufferWrapper flow}

/-- The input buffer after taking in the next frames. -/
theorem Synchronous.fillInput (h : Synchronous s x time w)
    (hn : time % flow.period + n ≤ flow.period) {capture : ℕ → ℕ → α}
    (hcapture : ∀ ch k, capture ch k = x ch (time + k)) :
    ∃ inputBuffer, w.fillInput capture n =
        .ok ⟨w.flowState, inputBuffer, w.outputBuffer, w.inputBufferLevel + n,
          w.outputBufferLevel⟩ ∧
      inputBuffer.numberOfChannels = flow.numberOfCaptureChannels ∧
      inputBuffer.length = 2 * flow.period ∧ inputBuffer.Holds x (time + n) := by
  have hlength : n ≤ w.inputBuffer.length := by
    rw [h.inputLength]
    omega
  have halloc : n ≤ w.inputBuffer.allocatedLength := Nat.le_trans hlength w.inputBuffer.length_le
  refine ⟨(w.inputBuffer.store n capture).advanceWriteIndex n, ?_, ?_, ?_, ?_⟩
  · rw [FlexibleBufferWrapper.fillInput, CircularBuffer.commitWrite_store hlength]
    rfl
  · exact h.inputChannels
  · exact h.inputLength
  · exact h.inputHolds.store_advance halloc capture fun ch k _ _ => hcapture ch k

/-- Frames that do not complete a period are only taken in. -/
theorem Synchronous.fillInput_of_lt (h : Synchronous s x time w)
    (hn : time % flow.period + n < flow.period) {capture : ℕ → ℕ → α}
    (hcapture : ∀ ch k, capture ch k = x ch (time + k)) :
    ∃ w', w.fillInput capture n = .ok w' ∧ w'.inputBufferLevel ≠ flow.period ∧
      Buffered s x (time + n) time w' := by
  obtain ⟨inputBuffer, htake, hchannels, hlength, hholds⟩ := h.fillInput hn.le hcapture
  obtain ⟨hdiv, hmod⟩ := div_mod_of_lt hn
  have hlevel : w.inputBufferLevel + n = time % flow.period + n := by rw [h.inputLevel]
  refine ⟨_, htake, by dsimp only; omega, ?_⟩
  constructor
  · rw [hmod]
    exact hlevel
  · rw [hdiv]
    exact h.outputLevel
  · rw [hdiv]
    exact h.flowState
  · exact hchannels
  · exact hlength
  · exact hholds
  · exact h.outputChannels
  · exact h.outputLength
  · rw [hdiv]
    exact h.outputHolds

/-- One invocation of the flow on the block `b`. -/
theorem processFlow_spec {b : ℕ} (hstate : w.flowState = flow.stateAfter s x b)
    (hinChannels : w.inputBuffer.numberOfChannels = flow.numberOfCaptureChannels)
    (hinLength : w.inputBuffer.length = 2 * flow.period)
    (hin : w.inputBuffer.Holds x (b * flow.period + flow.period))
    (houtLength : w.outputBuffer.length = 2 * flow.period)
    (hout : w.outputBuffer.Holds (flow.delayedOutput s x) (flow.period + b * flow.period)) :
    ∃ outputBuffer, w.processFlow =
        .ok ⟨flow.stateAfter s x (b + 1), w.inputBuffer, outputBuffer,
          w.inputBufferLevel - flow.period, w.outputBufferLevel + flow.period⟩ ∧
      outputBuffer.numberOfChannels = w.outputBuffer.numberOfChannels ∧
      outputBuffer.length = 2 * flow.period ∧
      outputBuffer.Holds (flow.delayedOutput s x) (flow.period + (b + 1) * flow.period) := by
  have hinAlloc := w.inputBuffer.length_le
  have houtAlloc := w.outputBuffer.length_le
  -- the flow reads the block that has just been completed
  have hblock : (fun (ch : Fin flow.numberOfCaptureChannels) (k : Fin flow.period) =>
      w.inputBuffer.readAt ch flow.period k) = flow.blockOf x b := by
    funext ch k
    have hk := k.isLt
    rw [hin.readAt (by rw [hinChannels]; exact ch.isLt) (by omega) hk,
      Signal.past_of_le _ (by omega), BlockFlow.blockOf]
    congr 1
    omega
  -- and its output continues the delayed output
  let result := flow.process (flow.stateAfter s x b) (flow.blockOf x b)
  have hnext := hout.store_advance (by omega) (flow.extend result.2) fun ch k _ hk =>
    (flow.delayedOutput_block s x ch b hk).symm
  have hfits : flow.period ≤ w.outputBuffer.length := by omega
  have htime : flow.period + (b + 1) * flow.period =
      flow.period + b * flow.period + flow.period := by ring
  refine ⟨(w.outputBuffer.store flow.period (flow.extend result.2)).advanceWriteIndex
    flow.period, ?_, ?_, ?_, ?_⟩
  · rw [processFlow, hblock, hstate]
    rw [CircularBuffer.commitWrite_store hfits]
    rfl
  · rfl
  · exact houtLength
  · rw [htime]
    exact hnext

/-- Frames that complete a period are taken in and then processed by the flow. -/
theorem Synchronous.fillInput_of_eq (h : Synchronous s x time w)
    (hn : time % flow.period + n = flow.period) {capture : ℕ → ℕ → α}
    (hcapture : ∀ ch k, capture ch k = x ch (time + k)) :
    ∃ w' w'', w.fillInput capture n = .ok w' ∧ w'.inputBufferLevel = flow.period ∧
      w'.processFlow = .ok w'' ∧ Buffered s x (time + n) time w'' := by
  obtain ⟨inputBuffer, htake, hchannels, hlength, hholds⟩ := h.fillInput hn.le hcapture
  obtain ⟨hdiv, hmod⟩ := div_mod_of_eq flow.period_pos hn
  have hlevel : w.inputBufferLevel + n = flow.period := by rw [h.inputLevel, hn]
  have htime : time + n = time / flow.period * flow.period + flow.period := by
    have := Nat.div_add_mod' time flow.period
    omega
  -- the samples in the buffer are those of the period that has just become complete
  have hin := hholds
  rw [htime] at hin
  obtain ⟨outputBuffer, hflow, houtChannels, houtLength, hout⟩ :=
    processFlow_spec (w := ⟨w.flowState, inputBuffer, w.outputBuffer, w.inputBufferLevel + n,
      w.outputBufferLevel⟩) h.flowState hchannels hlength hin h.outputLength h.outputHolds
  refine ⟨_, _, htake, hlevel, hflow, ?_⟩
  have houtLevel := h.outputLevel
  constructor
  · rw [hmod]
    dsimp only
    omega
  · rw [hdiv, Nat.add_mul, Nat.one_mul]
    dsimp only
    omega
  · rw [hdiv]
  · exact hchannels
  · exact hlength
  · exact hholds
  · exact houtChannels.trans h.outputChannels
  · exact houtLength
  · rw [hdiv]
    exact hout

/-- The delayed output is read from the output buffer. -/
theorem Buffered.readOutput {inTime outTime : ℕ} (h : Buffered s x inTime outTime w)
    (hlevel : w.outputBufferLevel ≤ 2 * flow.period) {ch k : ℕ}
    (hch : ch < flow.numberOfPlaybackChannels) (hk : k < w.outputBufferLevel) :
    w.outputBuffer.readAt ch w.outputBufferLevel k = flow.delayedOutput s x ch (outTime + k) := by
  have halloc := w.outputBuffer.length_le
  have hlength := h.outputLength
  have hout := h.outputLevel
  rw [h.outputHolds.readAt (by rw [h.outputChannels]; exact hch) (by omega) hk,
    Signal.past_of_le _ (by omega)]
  congr 1
  omega

/-- The next `n` frames, which may complete the period but not exceed it, are taken in. -/
theorem Synchronous.takeInput (h : Synchronous s x time w)
    (hn : time % flow.period + n ≤ flow.period) {capture : ℕ → ℕ → α}
    (hcapture : ∀ ch k, capture ch k = x ch (time + k)) :
    ∃ w', w.takeInput capture n = .ok w' ∧ Buffered s x (time + n) time w' := by
  unfold FlexibleBufferWrapper.takeInput
  rcases Nat.lt_or_eq_of_le hn with hlt | heq
  · obtain ⟨w', hfill, hne, hbuf⟩ := h.fillInput_of_lt hlt hcapture
    refine ⟨w', ?_, hbuf⟩
    rw [hfill]
    exact if_neg hne
  · obtain ⟨w', w'', hfill, hfull, hflow, hbuf⟩ := h.fillInput_of_eq heq hcapture
    refine ⟨w'', ?_, hbuf⟩
    rw [hfill]
    exact (if_pos hfull).trans hflow

/-- **One chunk.**  The next `n` frames are exchanged for as many frames of the delayed
output. -/
theorem processChunk_spec (h : Synchronous s x time w)
    (hn : time % flow.period + n ≤ flow.period) {capture : ℕ → ℕ → α}
    (hcapture : ∀ ch k, capture ch k = x ch (time + k)) (address : ℕ → ℕ → A) :
    ∃ w', w.processChunk capture address n =
        .ok (w', expectedWrites flow s x time address n) ∧
      Synchronous s x (time + n) w' := by
  obtain ⟨w', htake, hbuf⟩ := h.takeInput hn hcapture
  have hlevel := hbuf.outputLevel
  have hdiv := Nat.div_add_mod' (time + n) flow.period
  have hmod := Nat.mod_lt (time + n) flow.period_pos
  refine ⟨{ w' with outputBufferLevel := w'.outputBufferLevel - n }, ?_, ?_⟩
  · rw [processChunk, htake]
    refine congrArg (fun writes => Except.ok (_, writes)) ?_
    unfold expectedWrites
    refine List.flatMap_congr fun ch hch => List.map_congr_left fun k hk => ?_
    have hch := List.mem_range.mp hch
    have hk := List.mem_range.mp hk
    rw [hbuf.readOutput (by omega) hch (by omega)]
  · exact { hbuf with outputLevel := by dsimp only; omega }

end Chunk

/-! ### Sequences of calls -/

/-- Successive frames of a channel, split after the first `n`. -/
theorem expectedWrites_append (flow : BlockFlow α σ) (s : σ) (x : ℕ → ℕ → α) (time : ℕ)
    (address : ℕ → ℕ → A) (n n' : ℕ) :
    (expectedWrites flow s x time address n ++
      expectedWrites flow s x (time + n) (fun ch k => address ch (n + k)) n').Perm
      (expectedWrites flow s x time address (n + n')) := by
  unfold expectedWrites
  refine (List.flatMap_append_perm _ _ _).trans (List.Perm.of_eq ?_)
  refine List.flatMap_congr fun ch _ => ?_
  rw [List.range_add, List.map_append, List.map_map]
  simp only [Function.comp_def, Nat.add_assoc]

variable {s : σ} {x : ℕ → ℕ → α}

/-- **The loop.**  All remaining frames are exchanged, whatever the chunks. -/
theorem processLoop_spec {fuel time processed remaining : ℕ} (hfuel : remaining ≤ fuel)
    {w : FlexibleBufferWrapper flow} (h : Synchronous s x (time + processed) w)
    {capture : ℕ → ℕ → ℕ → α}
    (hcapture : ∀ p ch k, capture p ch k = x ch (time + p + k)) :
    ∃ w' writes, processLoop capture (fun p ch k => (ch, p + k)) fuel processed remaining w =
        .ok (w', writes) ∧
      writes.Perm (expectedWrites flow s x (time + processed)
        (fun ch k => (ch, processed + k)) remaining) ∧
      Synchronous s x (time + processed + remaining) w' := by
  induction fuel generalizing processed remaining w with
  | zero =>
    obtain rfl := Nat.le_zero.mp hfuel
    refine ⟨w, [], rfl, ?_, h⟩
    simp [expectedWrites]
  | succ fuel ih =>
    rw [processLoop]
    by_cases hzero : remaining = 0
    · subst hzero
      refine ⟨w, [], if_pos rfl, ?_, h⟩
      simp [expectedWrites]
    · rw [if_neg hzero]
      have hlt := Nat.mod_lt (time + processed) flow.period_pos
      have hlevel := h.inputLevel
      -- the size of the chunk, at least one frame and at most up to the end of the period
      generalize hchunk : min remaining (flow.period - w.inputBufferLevel) = chunk
      have hpos : 0 < chunk := by omega
      have hle : chunk ≤ remaining := by omega
      have hn : (time + processed) % flow.period + chunk ≤ flow.period := by omega
      obtain ⟨w₁, hstep, hsync⟩ := processChunk_spec h hn
        (hcapture processed) (fun ch k => (ch, processed + k))
      rw [Nat.add_assoc time] at hsync
      have hfuel' : remaining - chunk ≤ fuel := by omega
      obtain ⟨w₂, writes, hrest, hperm, hsync₂⟩ := ih hfuel' hsync
      refine ⟨w₂, expectedWrites flow s x (time + processed) (fun ch k => (ch, processed + k))
        chunk ++ writes, ?_, ?_, ?_⟩
      · simp only [bind, Except.bind, hstep, hrest]
        rfl
      · refine (hperm.append_left _).trans ?_
        have happend := expectedWrites_append flow s x (time + processed)
          (fun ch k => (ch, processed + k)) chunk (remaining - chunk)
        rw [Nat.add_sub_cancel' hle] at happend
        simpa only [Nat.add_assoc] using happend
      · have htotal : time + (processed + chunk) + (remaining - chunk) =
            time + processed + remaining := by omega
        rw [← htotal]
        exact hsync₂

/-- A sequence of calls of `process` with the given numbers of frames, which cut the input
`x` into pieces from `offset` on.  The elements written by a call are numbered on from
those of the calls before it. -/
def run (x : ℕ → ℕ → α) : ℕ → List ℕ → FlexibleBufferWrapper flow →
    Except Exception (FlexibleBufferWrapper flow × List ((ℕ × ℕ) × α))
  | _, [], w => .ok (w, [])
  | offset, numFrames :: calls, w => do
    let (w, writes) ← w.process (fun ch k => x ch (offset + k)) numFrames
    let (w, moreWrites) ← run x (offset + numFrames) calls w
    return (w, writes.map (fun e => ((e.1.1, offset + e.1.2), e.2)) ++ moreWrites)

/-- One call, which processes the frames of `x` from `time` on. -/
theorem process_spec {time : ℕ} {w : FlexibleBufferWrapper flow} (h : Synchronous s x time w)
    (numFrames : ℕ) :
    ∃ w' writes, w.process (fun ch k => x ch (time + k)) numFrames = .ok (w', writes) ∧
      writes.Perm (expectedWrites flow s x time (fun ch k => (ch, k)) numFrames) ∧
      Synchronous s x (time + numFrames) w' := by
  have hcapture : ∀ p ch k, x ch (time + (p + k)) = x ch (time + p + k) := by
    intro p ch k
    rw [Nat.add_assoc]
  have hstart : Synchronous s x (time + 0) w := h
  have hloop := processLoop_spec (Nat.le_refl numFrames) hstart hcapture
  simpa only [process, Nat.add_zero, Nat.zero_add] using hloop

/-- A sequence of calls, by induction on the calls. -/
theorem run_spec {time : ℕ} (calls : List ℕ) {w : FlexibleBufferWrapper flow}
    (h : Synchronous s x time w) :
    ∃ w' writes, run x time calls w = .ok (w', writes) ∧
      writes.Perm (expectedWrites flow s x time (fun ch k => (ch, time + k)) calls.sum) ∧
      Synchronous s x (time + calls.sum) w' := by
  induction calls generalizing time w with
  | nil => exact ⟨w, [], rfl, by simp [expectedWrites], h⟩
  | cons n calls ih =>
    obtain ⟨w₁, writes₁, hcall, hperm₁, hsync₁⟩ := process_spec h n
    obtain ⟨w₂, writes₂, hrest, hperm₂, hsync₂⟩ := ih hsync₁
    refine ⟨w₂, writes₁.map (fun e => ((e.1.1, time + e.1.2), e.2)) ++ writes₂, ?_, ?_, ?_⟩
    · rw [run, hcall]
      simp only [bind, Except.bind, hrest]
      rfl
    · have hshift : (expectedWrites flow s x time (fun ch k => (ch, k)) n).map
          (fun e => ((e.1.1, time + e.1.2), e.2)) =
          expectedWrites flow s x time (fun ch k => (ch, time + k)) n := by
        simp [expectedWrites, List.map_flatMap, Function.comp_def]
      have happend := expectedWrites_append flow s x time (fun ch k => (ch, time + k)) n calls.sum
      rw [List.sum_cons]
      refine ((hperm₁.map _).append hperm₂).trans ?_
      rw [hshift]
      simpa only [Nat.add_assoc] using happend
    · rw [List.sum_cons, ← Nat.add_assoc]
      exact hsync₂

/-- The wrapper as constructed. -/
theorem create_spec (flow : BlockFlow α σ) (s : σ) (x : ℕ → ℕ → α) :
    ∃ w, create flow s = .ok w ∧ Synchronous s x 0 w := by
  have hlength : 0 < 2 * flow.period := Nat.mul_pos Nat.two_pos flow.period_pos
  let input : CircularBuffer α := .create flow.numberOfCaptureChannels (2 * flow.period) 0 hlength
  let output : CircularBuffer α :=
    .create flow.numberOfPlaybackChannels (2 * flow.period) 0 hlength
  have hfits : flow.period ≤ output.length := Nat.le_mul_of_pos_left flow.period Nat.two_pos
  have hwrite : output.writeMatrix (fun _ _ => 0) flow.numberOfPlaybackChannels flow.period =
      .ok ((output.store flow.period fun _ _ => 0).advanceWriteIndex flow.period) := by
    exact (if_neg (not_not.mpr rfl)).trans (if_neg (Nat.not_lt.mpr hfits))
  -- the first period of the delayed output consists of zeros
  have hzeros : ∀ ch k, ch < output.numberOfChannels → k < flow.period →
      (0 : α) = flow.delayedOutput s x ch (0 + k) := by
    intro ch k _ hk
    rw [Nat.zero_add, BlockFlow.delayedOutput, if_pos hk]
  have hout := (CircularBuffer.holds_create flow.numberOfPlaybackChannels (2 * flow.period) 0
    hlength (flow.delayedOutput s x)).store_advance
    (Nat.le_trans hfits output.length_le) (fun _ _ => 0) hzeros
  refine ⟨⟨s, input, (output.store flow.period fun _ _ => 0).advanceWriteIndex flow.period, 0,
    flow.period⟩, ?_, ?_⟩
  · rw [create, hwrite]
    rfl
  · constructor
    · exact (Nat.zero_mod flow.period).symm
    · simp
    · simp [BlockFlow.stateAfter]
    · rfl
    · rfl
    · exact CircularBuffer.holds_create _ _ _ hlength x
    · rfl
    · rfl
    · simpa using hout

/-- **Chunking independence.**  Whatever the numbers of frames of the calls, together they
write every frame of every playback channel exactly once, namely the output of the flow
run period by period, delayed by one period of zeros; and between calls the fill levels
of the two buffers add up to the period. -/
theorem run_output (flow : BlockFlow α σ) (s : σ) (x : ℕ → ℕ → α) (calls : List ℕ) :
    ∃ w w' writes, create flow s = .ok w ∧ run x 0 calls w = .ok (w', writes) ∧
      writes.Perm ((List.range flow.numberOfPlaybackChannels).flatMap fun ch =>
        (List.range calls.sum).map fun t => ((ch, t),
          if t < flow.period then 0 else flow.output s x ch (t - flow.period))) ∧
      w'.inputBufferLevel + w'.outputBufferLevel = flow.period := by
  obtain ⟨w, hcreate, hsync⟩ := create_spec flow s x
  obtain ⟨w', writes, hrun, hperm, hsync'⟩ := run_spec calls hsync
  refine ⟨w, w', writes, hcreate, hrun, ?_, ?_⟩
  · simpa only [expectedWrites, BlockFlow.delayedOutput, Nat.zero_add] using hperm
  · have hin := hsync'.inputLevel
    have hout := hsync'.outputLevel
    have hdiv := Nat.div_add_mod' (0 + calls.sum) flow.period
    omega

/-! ### The two overloads -/

/-- One call with strides, for which the pointer arrays of the other overload point at the
same capture samples. -/
structure StridedCall (α : Type) where
  captureSamples : ℕ → α
  captureChannelStride : ℕ
  captureSampleStride : ℕ
  playbackChannelStride : ℕ
  playbackSampleStride : ℕ
  numFrames : ℕ

namespace StridedCall

/-- Sample `k` of the capture channel `ch`. -/
def capture (call : StridedCall α) (ch k : ℕ) : α :=
  call.captureSamples (ch * call.captureChannelStride + k * call.captureSampleStride)

/-- The offset of sample `k` of the playback channel `ch`. -/
def playback (call : StridedCall α) (ch k : ℕ) : ℕ :=
  ch * call.playbackChannelStride + k * call.playbackSampleStride

def processStrided (call : StridedCall α) (w : FlexibleBufferWrapper flow) :
    Except Exception (FlexibleBufferWrapper flow × List (ℕ × α)) :=
  w.processStrided call.captureSamples call.captureChannelStride call.captureSampleStride
    call.playbackChannelStride call.playbackSampleStride call.numFrames

def process (call : StridedCall α) (w : FlexibleBufferWrapper flow) :
    Except Exception (FlexibleBufferWrapper flow × List ((ℕ × ℕ) × α)) :=
  w.process call.capture call.numFrames

end StridedCall

/-- In a sequence of calls, the overload with strides always has the same effect on the
wrapper as the one for pointer arrays and writes the same values, each to the place of
its sample in the playback matrix, and nothing else. -/
def Agree : List (StridedCall α) → FlexibleBufferWrapper flow → Prop
  | [], _ => True
  | call :: calls, w => ∃ w' strided pointers,
      call.processStrided w = .ok (w', strided) ∧ call.process w = .ok (w', pointers) ∧
      (∀ a v, (a, v) ∈ strided ↔ ∃ ch k, a = call.playback ch k ∧ ((ch, k), v) ∈ pointers) ∧
      Agree calls w'

/-- Every call of a sequence writes no samples at all, has a playback sample stride of one,
or does not exceed the period begun before it, of which `level` frames are there. -/
def SingleChunks (flow : BlockFlow α σ) : ℕ → List (StridedCall α) → Prop
  | _, [] => True
  | level, call :: calls =>
      (flow.numberOfPlaybackChannels = 0 ∨ call.playbackSampleStride = 1 ∨
        call.numFrames ≤ flow.period - level) ∧
      SingleChunks flow ((level + call.numFrames) % flow.period) calls

/-- The state in which a wrapper accepts samples. -/
structure Ready (w : FlexibleBufferWrapper flow) : Prop where
  level_lt : w.inputBufferLevel < flow.period
  inputLength : w.inputBuffer.length = 2 * flow.period
  outputLength : w.outputBuffer.length = 2 * flow.period

section Overloads

variable {w : FlexibleBufferWrapper flow}

theorem processFlow_ok (hout : w.outputBuffer.length = 2 * flow.period) :
    ∃ w', w.processFlow = .ok w' ∧ w'.inputBuffer = w.inputBuffer ∧
      w'.outputBuffer.length = 2 * flow.period ∧
      w'.inputBufferLevel = w.inputBufferLevel - flow.period := by
  unfold processFlow
  dsimp only
  rw [CircularBuffer.commitWrite_store (by omega)]
  exact ⟨_, rfl, rfl, hout, rfl⟩

theorem Ready.takeInput (hw : w.Ready) {n : ℕ} (hn : w.inputBufferLevel + n ≤ flow.period)
    (capture : ℕ → ℕ → α) :
    ∃ w', w.takeInput capture n = .ok w' ∧ w'.Ready ∧
      w'.inputBufferLevel = (w.inputBufferLevel + n) % flow.period := by
  have hin := hw.inputLength
  have hout := hw.outputLength
  have hfill : w.fillInput capture n = .ok ⟨w.flowState,
      (w.inputBuffer.store n capture).advanceWriteIndex n, w.outputBuffer,
      w.inputBufferLevel + n, w.outputBufferLevel⟩ := by
    rw [fillInput, CircularBuffer.commitWrite_store (by omega)]
    rfl
  unfold FlexibleBufferWrapper.takeInput
  rw [hfill]
  by_cases hfull : w.inputBufferLevel + n = flow.period
  · obtain ⟨w', hflow, hin', hout', hlevel⟩ := processFlow_ok (w := ⟨w.flowState,
      (w.inputBuffer.store n capture).advanceWriteIndex n, w.outputBuffer,
      w.inputBufferLevel + n, w.outputBufferLevel⟩) hout
    have hzero : w'.inputBufferLevel = 0 := by rw [hlevel, hfull, Nat.sub_self]
    refine ⟨w', (if_pos hfull).trans hflow, ⟨?_, ?_, hout'⟩, ?_⟩
    · rw [hzero]
      exact flow.period_pos
    · rw [hin']
      exact hin
    · rw [hzero, hfull, Nat.mod_self]
  · have hlt : w.inputBufferLevel + n < flow.period := by omega
    exact ⟨_, if_neg hfull, ⟨hlt, hin, hout⟩, (Nat.mod_eq_of_lt hlt).symm⟩

theorem Ready.processChunk (hw : w.Ready) {n : ℕ} (hn : w.inputBufferLevel + n ≤ flow.period)
    (capture : ℕ → ℕ → α) :
    ∃ (w' : FlexibleBufferWrapper flow) (value : ℕ → ℕ → α),
      (∀ {A : Type} (address : ℕ → ℕ → A), w.processChunk capture address n =
        .ok (w', (List.range flow.numberOfPlaybackChannels).flatMap fun ch =>
          (List.range n).map fun k => (address ch k, value ch k))) ∧
      w'.Ready ∧ w'.inputBufferLevel = (w.inputBufferLevel + n) % flow.period := by
  obtain ⟨w', htake, hready, hlevel⟩ := hw.takeInput hn capture
  refine ⟨{ w' with outputBufferLevel := w'.outputBufferLevel - n },
    fun ch k => w'.outputBuffer.readAt ch w'.outputBufferLevel k, ?_, ?_, hlevel⟩
  · intro A address
    rw [FlexibleBufferWrapper.processChunk, htake]
    rfl
  · exact ⟨hready.level_lt, hready.inputLength, hready.outputLength⟩

/-- An access of the loop: the frames processed before the chunk, the channel and the
sample within the chunk. -/
abbrev Access := ℕ × ℕ × ℕ

/-- What the accesses of a loop look like that starts at `processed` with `remaining`
frames: they stay within these, and the last sample of the last channel is among them. -/
structure Covers (flow : BlockFlow α σ) (processed remaining level : ℕ)
    (writes : List (Access × α)) : Prop where
  within : ∀ p ch k v, ((p, ch, k), v) ∈ writes →
    ch < flow.numberOfPlaybackChannels ∧ processed ≤ p ∧ p + k < processed + remaining ∧
    (p = processed → k < flow.period - level) ∧ (remaining ≤ flow.period - level → p = processed)
  last : ∀ ch, ch + 1 = flow.numberOfPlaybackChannels → 0 < remaining →
    ∃ p k v, ((p, ch, k), v) ∈ writes ∧ p + k + 1 = processed + remaining ∧
      (flow.period - level < remaining → processed < p)

omit [Zero α] in
theorem covers_nil (flow : BlockFlow α σ) (processed level : ℕ) :
    Covers flow processed 0 level ([] : List (Access × α)) where
  within _ _ _ _ h := by cases h
  last _ _ h := by omega

omit [Zero α] in
/-- The accesses of the first chunk and of the rest of the loop. -/
theorem Covers.chunk_append (value : ℕ → ℕ → α) {processed remaining chunk level level' : ℕ}
    {writes : List (Access × α)} (hchunk : chunk = min remaining (flow.period - level))
    (hlevel : level < flow.period) (hremaining : remaining ≠ 0)
    (hrest : Covers flow (processed + chunk) (remaining - chunk) level' writes) :
    Covers flow processed remaining level
      (((List.range flow.numberOfPlaybackChannels).flatMap fun ch =>
        (List.range chunk).map fun k => ((processed, ch, k), value ch k)) ++ writes) := by
  constructor
  · intro p ch k v h
    rcases List.mem_append.mp h with hfirst | hmore
    · obtain ⟨ch', hch', hmem⟩ := List.mem_flatMap.mp hfirst
      obtain ⟨k', hk', heq⟩ := List.mem_map.mp hmem
      cases heq
      have := List.mem_range.mp hch'
      have := List.mem_range.mp hk'
      omega
    · have := hrest.within p ch k v hmore
      omega
  · intro ch hch _
    by_cases hsingle : chunk = remaining
    · -- the last sample is in the first chunk
      refine ⟨processed, chunk - 1, value ch (chunk - 1), ?_, by omega, by omega⟩
      refine List.mem_append_left _ (List.mem_flatMap.mpr ⟨ch, List.mem_range.mpr (by omega), ?_⟩)
      exact List.mem_map.mpr ⟨chunk - 1, List.mem_range.mpr (by omega), rfl⟩
    · obtain ⟨p, k, v, hmem, hlast, _⟩ := hrest.last ch hch (by omega)
      have := (hrest.within p ch k v hmem).2.1
      exact ⟨p, k, v, List.mem_append_right _ hmem, by omega, by omega⟩

/-- The loop makes the same accesses for any addressing. -/
theorem Ready.processLoop {fuel remaining : ℕ} (processed : ℕ) (hfuel : remaining ≤ fuel)
    (hw : w.Ready) (capture : ℕ → ℕ → ℕ → α) :
    ∃ (w' : FlexibleBufferWrapper flow) (writes : List (Access × α)),
      (∀ {A : Type} (address : ℕ → ℕ → ℕ → A),
        processLoop capture address fuel processed remaining w =
          .ok (w', writes.map fun e => (address e.1.1 e.1.2.1 e.1.2.2, e.2))) ∧
      Covers flow processed remaining w.inputBufferLevel writes ∧ w'.Ready ∧
      w'.inputBufferLevel = (w.inputBufferLevel + remaining) % flow.period := by
  induction fuel generalizing processed remaining w with
  | zero =>
    obtain rfl := Nat.le_zero.mp hfuel
    refine ⟨w, [], fun _ => rfl, covers_nil flow _ _, hw, ?_⟩
    exact (Nat.mod_eq_of_lt hw.level_lt).symm
  | succ fuel ih =>
    have hlt := hw.level_lt
    by_cases hzero : remaining = 0
    · subst hzero
      refine ⟨w, [], ?_, covers_nil flow _ _, hw, (Nat.mod_eq_of_lt hlt).symm⟩
      intro A address
      exact if_pos rfl
    · -- a chunk ends with the frames or with the period, so the fuel suffices
      generalize hchunk : min remaining (flow.period - w.inputBufferLevel) = chunk
      have hn : w.inputBufferLevel + chunk ≤ flow.period := by omega
      obtain ⟨w₁, value, hstep, hready, hlevel⟩ := hw.processChunk hn (capture processed)
      have hfuel' : remaining - chunk ≤ fuel := by omega
      obtain ⟨w₂, writes, hrest, hcovers, hready₂, hlevel₂⟩ := ih _ hfuel' hready
      refine ⟨w₂, _, ?_, hcovers.chunk_append value hchunk.symm hlt hzero, hready₂, ?_⟩
      · intro A address
        rw [FlexibleBufferWrapper.processLoop, if_neg hzero]
        simp only [hchunk, bind, Except.bind, hstep, hrest]
        simp [pure, Except.pure, List.map_flatMap, Function.comp_def]
      · have hsum : w.inputBufferLevel + chunk + (remaining - chunk) =
            w.inputBufferLevel + remaining := by omega
        rw [hlevel₂, hlevel, Nat.mod_add_mod, hsum]

omit [Zero α] in
/-- The places the overload with strides writes to are those of the samples written exactly
if the loop has no second chunk that would need the missing factor. -/
theorem Covers.agree_iff {numFrames level : ℕ} {writes : List (Access × α)}
    (h : Covers flow 0 numFrames level writes) (channelStride sampleStride : ℕ) :
    (∀ a v, (a, v) ∈ writes.map (fun e =>
        (e.1.1 + e.1.2.1 * channelStride + e.1.2.2 * sampleStride, e.2)) ↔
      ∃ ch k, a = ch * channelStride + k * sampleStride ∧
        ((ch, k), v) ∈ writes.map fun e => ((e.1.2.1, e.1.1 + e.1.2.2), e.2)) ↔
    flow.numberOfPlaybackChannels = 0 ∨ sampleStride = 1 ∨ numFrames ≤ flow.period - level := by
  constructor
  · intro hagree
    by_contra hcon
    obtain ⟨ch, hch⟩ := Nat.exists_eq_succ_of_ne_zero (fun h0 => hcon (Or.inl h0))
    obtain ⟨p, k, v, hmem, hlast, hpos⟩ := h.last ch hch.symm (by omega)
    have hp : 0 < p := hpos (by omega)
    have hchannel : ∀ ch', ch' < flow.numberOfPlaybackChannels →
        ch' * channelStride ≤ ch * channelStride := by
      intro ch' hlt
      exact Nat.mul_le_mul_right _ (by omega)
    by_cases hzero : sampleStride = 0
    · -- the last sample is written too far right
      subst hzero
      obtain ⟨ch', k', haddress, hmem'⟩ := (hagree _ v).mp (List.mem_map_of_mem hmem)
      obtain ⟨⟨⟨p₁, ch₁, k₁⟩, v₁⟩, hmem₁, heq⟩ := List.mem_map.mp hmem'
      have hch₁ : ch₁ = ch' := congrArg (fun e => e.1.1) heq
      have := hchannel ch₁ (h.within _ _ _ _ hmem₁).1
      have haddress' : p + ch * channelStride + k * 0 = ch' * channelStride + k' * 0 := haddress
      subst hch₁
      omega
    · -- the place of the last sample is not reached
      obtain ⟨⟨⟨p₁, ch₁, k₁⟩, v₁⟩, hmem₁, heq⟩ := List.mem_map.mp
        ((hagree _ v).mpr ⟨ch, p + k, rfl, List.mem_map_of_mem hmem⟩)
      obtain ⟨hch₁, _, hk₁, hfirst, _⟩ := h.within _ _ _ _ hmem₁
      have haddress : p₁ + ch₁ * channelStride + k₁ * sampleStride =
          ch * channelStride + (p + k) * sampleStride := congrArg Prod.fst heq
      have hstride : 2 ≤ sampleStride := by omega
      have hshort : p₁ + k₁ * sampleStride < (p + k) * sampleStride := by
        rcases Nat.eq_zero_or_pos p₁ with h0 | hp₁
        · have hlt : k₁ < p + k := by
            have := hfirst h0
            omega
          rw [h0, Nat.zero_add]
          exact Nat.mul_lt_mul_of_pos_right hlt (by omega)
        · calc p₁ + k₁ * sampleStride < p₁ * sampleStride + k₁ * sampleStride := by
                have := Nat.mul_le_mul_left p₁ hstride
                omega
            _ = (p₁ + k₁) * sampleStride := (Nat.add_mul _ _ _).symm
            _ ≤ (p + k) * sampleStride := Nat.mul_le_mul_right _ (by omega)
      have := hchannel ch₁ hch₁
      omega
  · intro hcond a v
    -- for the accesses that are made the two ways of addressing agree
    have hplace : ∀ p ch k v, ((p, ch, k), v) ∈ writes →
        p + ch * channelStride + k * sampleStride =
          ch * channelStride + (p + k) * sampleStride := by
      intro p ch k v hmem
      obtain ⟨hch, _, _, _, hsingle⟩ := h.within p ch k v hmem
      rcases hcond with h0 | h1 | hn
      · omega
      · subst h1
        omega
      · rw [hsingle hn]
        simp
    constructor
    · intro hmem
      obtain ⟨⟨⟨p, ch, k⟩, v⟩, hwrite, heq⟩ := List.mem_map.mp hmem
      cases heq
      exact ⟨ch, p + k, hplace p ch k v hwrite, List.mem_map_of_mem hwrite⟩
    · rintro ⟨ch, k, ha, hmem⟩
      obtain ⟨⟨⟨p, ch, k⟩, v⟩, hwrite, heq⟩ := List.mem_map.mp hmem
      cases heq
      refine List.mem_map.mpr ⟨_, hwrite, ?_⟩
      rw [ha, ← hplace p ch k v hwrite]

/-- One call of either overload. -/
theorem Ready.call (hw : w.Ready) (call : StridedCall α) :
    ∃ (w' : FlexibleBufferWrapper flow) (writes : List (Access × α)),
      call.processStrided w = .ok (w', writes.map fun e =>
        (e.1.1 + e.1.2.1 * call.playbackChannelStride + e.1.2.2 * call.playbackSampleStride,
          e.2)) ∧
      call.process w = .ok (w', writes.map fun e => ((e.1.2.1, e.1.1 + e.1.2.2), e.2)) ∧
      Covers flow 0 call.numFrames w.inputBufferLevel writes ∧ w'.Ready ∧
      w'.inputBufferLevel = (w.inputBufferLevel + call.numFrames) % flow.period := by
  have hrun := hw.processLoop 0 (Nat.le_refl call.numFrames) fun processedFrames ch k =>
    call.capture ch (processedFrames + k)
  obtain ⟨w', writes, hloop, hcovers, hready, hlevel⟩ := hrun
  refine ⟨w', writes, ?_, hloop _, hcovers, hready, hlevel⟩
  -- the capture side has the stride in both places
  have hcapture : (fun processedFrames ch k => call.captureSamples
      (processedFrames * call.captureSampleStride + ch * call.captureChannelStride +
        k * call.captureSampleStride)) =
      fun processedFrames ch k => call.capture ch (processedFrames + k) := by
    funext p ch k
    rw [StridedCall.capture]
    congr 1
    ring
  rw [StridedCall.processStrided, processStrided, hcapture]
  exact hloop _

theorem Ready.agree_iff (hw : w.Ready) (calls : List (StridedCall α)) :
    Agree calls w ↔ SingleChunks flow w.inputBufferLevel calls := by
  induction calls generalizing w with
  | nil => exact Iff.rfl
  | cons call calls ih =>
    obtain ⟨w', writes, hstrided, hpointers, hcovers, hready, hlevel⟩ := hw.call call
    have hfirst := hcovers.agree_iff call.playbackChannelStride call.playbackSampleStride
    rw [SingleChunks, ← hlevel, ← ih hready, ← hfirst]
    constructor
    · rintro ⟨w₁, strided, pointers, hs, hp, hsame, hrest⟩
      rw [hstrided] at hs
      rw [hpointers] at hp
      cases hs
      cases hp
      exact ⟨hsame, hrest⟩
    · rintro ⟨hsame, hrest⟩
      exact ⟨w', _, _, hstrided, hpointers, hsame, hrest⟩

end Overloads

theorem create_ready (flow : BlockFlow α σ) (s : σ) :
    ∃ w, create flow s = .ok w ∧ w.Ready ∧ w.inputBufferLevel = 0 := by
  obtain ⟨w, hcreate, hsync⟩ := create_spec flow s fun _ _ => 0
  have hlevel : w.inputBufferLevel = 0 := hsync.inputLevel.trans (Nat.zero_mod _)
  have hlt : w.inputBufferLevel < flow.period := by
    rw [hlevel]
    exact flow.period_pos
  exact ⟨w, hcreate, ⟨hlt, hsync.inputLength, hsync.outputLength⟩, hlevel⟩

/-- **Agreement of the overloads.**  On a sequence of calls of a new wrapper the overload
with strides does what the one for pointer arrays does exactly if no call that crosses the
end of a period has a playback sample stride other than one. -/
theorem run_agreement_iff (flow : BlockFlow α σ) (s : σ) (calls : List (StridedCall α)) :
    (∃ w, create flow s = .ok w ∧ Agree calls w) ↔ SingleChunks flow 0 calls := by
  obtain ⟨w, hcreate, hready, hlevel⟩ := create_ready flow s
  rw [← hlevel, ← hready.agree_iff calls]
  constructor
  · rintro ⟨w', hcreate', hagree⟩
    rw [hcreate] at hcreate'
    cases hcreate'
    exact hagree
  · intro hagree
    exact ⟨w, hcreate, hagree⟩

/-- A stereo flow with a period of one frame that passes its input on. -/
def stereo : BlockFlow ℕ Unit where
  period := 1
  numberOfCaptureChannels := 2
  numberOfPlaybackChannels := 2
  process s block := (s, block)
  period_pos := Nat.one_pos

/-- Two interleaved frames. -/
def interleaved : StridedCall ℕ where
  captureSamples n := n + 1
  captureChannelStride := 1
  captureSampleStride := 2
  playbackChannelStride := 1
  playbackSampleStride := 2
  numFrames := 2

/-- On interleaved samples the second frame overwrites the second channel of the first
one, and the place of its own second channel is never written. -/
theorem run_agreement_interleaved :
    (do let w ← create stereo ()
        return (← interleaved.processStrided w).2) =
      .ok [(0, 0), (1, 0), (1, 1), (2, 2)] ∧
    (do let w ← create stereo ()
        return (← interleaved.process w).2) =
      .ok [((0, 0), 0), ((1, 0), 0), ((0, 1), 1), ((1, 1), 2)] ∧
    ¬ ∃ w, create stereo () = .ok w ∧ Agree [interleaved] w := by
  have hnot : ¬ SingleChunks stereo 0 [interleaved] := by
    rintro ⟨h | h | h, _⟩ <;> revert h <;> decide
  obtain ⟨w, hcreate, hready, hlevel⟩ := create_ready stereo ()
  refine ⟨by decide +kernel, by decide +kernel, ?_⟩
  rintro ⟨w', hcreate', hagree⟩
  rw [hcreate] at hcreate'
  cases hcreate'
  rw [hready.agree_iff, hlevel] at hagree
  exact hnot hagree

end FlexibleBufferWrapper

end Visr
