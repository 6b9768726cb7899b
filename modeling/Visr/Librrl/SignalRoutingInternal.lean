import Visr.Library.Slices
import Visr.Libefl.VectorFunctions
import Visr.Libvisr.Component

/-!
# Routing components of the runtime system

Components that copy some channels of their input to the channels of their output.  The runtime
system inserts them in front of receive ports whose senders are not next to each other.

## Main results

* `SignalRoutingInternal.process_eq` — **all channels are copied**, if the pointers are aligned.
-/

namespace Visr

/-- The buffers of a port: the address of the first channel, and the number of samples between
channels. -/
structure Buffer where
  basePointer : ℕ
  channelStrideSamples : ℕ
  deriving DecidableEq, Repr

/-- The address of a channel, `operator[]`. -/
def Buffer.channelPointer (buffer : Buffer) (sampleType : AudioSampleType) (idx : ℕ) : ℕ :=
  buffer.basePointer + idx * buffer.channelStrideSamples * sampleType.typeSize

/-- The addresses of the objects that are created later.  They are used by nothing else. -/
structure ObjectAddresses (root : Component) where
  component : ℕ → ℕ
  port : ℕ → Direction → ℕ
  component_injective : ∀ k k', component k = component k' → k = k'
  component_fresh : ∀ k, component k ∉ root.preorder.map (·.self.address)
  port_injective : ∀ k d k' d', port k d = port k' d' → k = k' ∧ d = d'
  port_fresh : ∀ k d, port k d ∉ (root.preorder.flatMap Component.audioPorts).map (·.address)

/-- A component that copies the channels `inputIndices` of its input. -/
structure SignalRoutingInternal where
  self : ComponentRef
  sampleType : AudioSampleType
  inputAddress : ℕ
  outputAddress : ℕ
  inputWidth : ℕ
  inputIndices : List ℕ
  indices_lt : ∀ i ∈ inputIndices, i < inputWidth
  deriving DecidableEq

namespace SignalRoutingInternal

def input (routing : SignalRoutingInternal) : AudioPort :=
  ⟨⟨routing.inputAddress, "in", routing.self, .input⟩, routing.sampleType, routing.inputWidth⟩

def output (routing : SignalRoutingInternal) : AudioPort :=
  ⟨⟨routing.outputAddress, "out", routing.self, .output⟩, routing.sampleType,
    routing.inputIndices.length⟩

/-- The component in the tree of components. -/
def component (routing : SignalRoutingInternal) : Component :=
  .atomic routing.self [routing.input, routing.output] []

/-- Whether there is a routing component for a sample type. -/
def supported : AudioSampleType → Bool
  | .complexFloat => false
  | .complexDouble => false
  | _ => true

end SignalRoutingInternal

/-- Creates a routing component in a composite that contains components with the given names. -/
def createSignalRoutingComponent {root : Component} (addresses : ObjectAddresses root) (k : ℕ)
    (names : List String) (sampleType : AudioSampleType) (name : String) (inputWidth : ℕ)
    (signalIndices : List ℕ) : Except Exception SignalRoutingInternal :=
  if SignalRoutingInternal.supported sampleType = false then
    .error (.invalidArgument "createSignalRoutingComponent(): Sample type not supported.")
  else if name ∈ names then
    .error (.invalidArgument ("CompositeComponentImplementation::registerChildComponent(): " ++
      "Component named \"" ++ name ++ "\" already exists."))
  else if h : ∀ i ∈ signalIndices, i < inputWidth then
    .ok ⟨⟨addresses.component k, name, name, false, false⟩, sampleType, addresses.port k .input,
      addresses.port k .output, inputWidth, signalIndices, h⟩
  else
    .error (.invalidArgument
      "rrl::SignalRoutingInternal: An input channel index exceeds the width of the input port.")

/-! ### Processing -/

namespace SignalRoutingInternal

open Slices

variable {β : Type}

/-- The alignment check of the vector functions, for addresses in bytes. -/
def aligned (sampleType : AudioSampleType) (address : ℕ) : Bool :=
  address % (cVectorAlignmentSamples * sampleType.typeSize) = 0

/-- `vectorCopy` on the bytes of the memory. -/
def copyChannel (sampleType : AudioSampleType) (numElements source dest : ℕ) (m : ℕ → β) :
    Except ErrorCode (ℕ → β) :=
  if aligned sampleType source && aligned sampleType dest then
    .ok (store m dest (load m source (numElements * sampleType.typeSize)))
  else .error .alignmentError

/-- The body of the loop over the output channels. -/
def processChannel (routing : SignalRoutingInternal) (blockSize : ℕ) (inBuffer outBuffer : Buffer)
    (m : ℕ → β) (entry : ℕ × ℕ) : Except Exception (ℕ → β) :=
  match copyChannel routing.sampleType blockSize
      (inBuffer.channelPointer routing.sampleType entry.1)
      (outBuffer.channelPointer routing.sampleType entry.2) m with
  | .ok m => .ok m
  | .error _ =>
    .error (.runtimeError "rrl::SignalRoutingInternal: Copying of sample vector failed.")

/-- Copies the channels, one after the other. -/
def process (routing : SignalRoutingInternal) (blockSize : ℕ) (inBuffer outBuffer : Buffer)
    (m : ℕ → β) : Except Exception (ℕ → β) :=
  routing.inputIndices.zipIdx.foldlM (routing.processChannel blockSize inBuffer outBuffer) m

/-- What is written by the copies, all of which are made from the same memory. -/
def copies (routing : SignalRoutingInternal) (blockSize : ℕ) (inBuffer outBuffer : Buffer)
    (source : ℕ → β) (entries : List (ℕ × ℕ)) (m : ℕ → β) : ℕ → β :=
  entries.foldl (fun m entry =>
    store m (outBuffer.channelPointer routing.sampleType entry.2)
      (load source (inBuffer.channelPointer routing.sampleType entry.1)
        (blockSize * routing.sampleType.typeSize))) m

variable (routing : SignalRoutingInternal) (blockSize : ℕ) (inBuffer outBuffer : Buffer)

/-- The pointers of a copy are aligned. -/
def PairAligned (entry : ℕ × ℕ) : Prop :=
  aligned routing.sampleType (inBuffer.channelPointer routing.sampleType entry.1) = true ∧
    aligned routing.sampleType (outBuffer.channelPointer routing.sampleType entry.2) = true

/-- One copy. -/
theorem processChannel_of_aligned {entry : ℕ × ℕ}
    (h : routing.PairAligned inBuffer outBuffer entry) (m : ℕ → β) :
    routing.processChannel blockSize inBuffer outBuffer m entry =
      .ok (store m (outBuffer.channelPointer routing.sampleType entry.2)
        (load m (inBuffer.channelPointer routing.sampleType entry.1)
          (blockSize * routing.sampleType.typeSize))) := by
  unfold processChannel copyChannel
  rw [h.1, h.2]
  rfl

/-- **All channels are copied.**  The outputs must not overlap with the inputs. -/
theorem process_eq {m : ℕ → β}
    (haligned : ∀ entry ∈ routing.inputIndices.zipIdx,
      routing.PairAligned inBuffer outBuffer entry)
    (hapart : ∀ entry ∈ routing.inputIndices.zipIdx, ∀ entry' ∈ routing.inputIndices.zipIdx,
      Apart (inBuffer.channelPointer routing.sampleType entry.1)
        (blockSize * routing.sampleType.typeSize)
        (outBuffer.channelPointer routing.sampleType entry'.2)
        (blockSize * routing.sampleType.typeSize)) :
    routing.process blockSize inBuffer outBuffer m =
      .ok (routing.copies blockSize inBuffer outBuffer m routing.inputIndices.zipIdx m) := by
  -- the inputs remain as they have been in the memory `source`
  have hloop : ∀ (entries : List (ℕ × ℕ)), entries ⊆ routing.inputIndices.zipIdx →
      ∀ source m : ℕ → β,
      (∀ entry ∈ entries, load m (inBuffer.channelPointer routing.sampleType entry.1)
          (blockSize * routing.sampleType.typeSize) =
        load source (inBuffer.channelPointer routing.sampleType entry.1)
          (blockSize * routing.sampleType.typeSize)) →
      entries.foldlM (routing.processChannel blockSize inBuffer outBuffer) m =
        .ok (routing.copies blockSize inBuffer outBuffer source entries m) := by
    intro entries
    induction entries with
    | nil => exact fun _ _ _ _ => rfl
    | cons entry entries ih =>
      intro hsub source m hload
      obtain ⟨hmem, hsub⟩ := List.cons_subset.mp hsub
      obtain ⟨hentry, hload⟩ := List.forall_mem_cons.mp hload
      rw [List.foldlM_cons,
        processChannel_of_aligned routing blockSize inBuffer outBuffer (haligned entry hmem),
        ok_bind, hentry]
      refine ih hsub source _ fun entry' hentry' => ?_
      rw [load_store_apart, hload entry' hentry']
      rw [length_load]
      exact hapart entry' (hsub hentry') entry hmem
  exact hloop _ (List.Subset.refl _) m m fun _ _ => rfl

end SignalRoutingInternal

end Visr
