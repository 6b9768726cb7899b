import Mathlib.Algebra.BigOperators.Group.Finset.Basic
import Visr.Libefl.AlignedStorage
import Visr.Libobjectmodel.Object
import Visr.Libpanning.SourceDirections
import Visr.Libpml.InputBase
import Visr.Libpml.ListenerPosition
import Visr.Librcl.MessageLoop

/-!
# Gains of Ambisonics sources

The gains of the channels of Ambisonics sources are taken from a decoder with a maximum order, and
written over a matrix of gains.

## Main results

* `HoaAllRadGainCalculator.writeSources_cases` — what is written and reported.
* `HoaAllRadGainCalculator.harmonics_conform_iff` — **the calls that are as expected**.
-/

namespace Visr

variable {K : Type} [Field K] [LinearOrder K]

/-! ### Elements of matrices -/

namespace Efl.BasicMatrix

variable {α : Type}

/-- An element that is inside the matrix is read. -/
def read (m : BasicMatrix α) (rowIdx colIdx : ℕ) : Except Fault α :=
  if rowIdx < m.numberOfRows ∧ colIdx < m.numberOfColumns then .ok (m.get rowIdx colIdx)
  else .error .outOfRange

/-- An element that is inside the matrix is written. -/
def write (m : BasicMatrix α) (rowIdx colIdx : ℕ) (value : α) : Except Fault (BasicMatrix α) :=
  if rowIdx < m.numberOfRows ∧ colIdx < m.numberOfColumns then
    .ok { m with array :=
      { m.array with data := Function.update m.array.data (rowIdx * m.stride + colIdx) value } }
  else .error .outOfRange

end Efl.BasicMatrix

/-! ### The decoder -/

/-- A decoder for a regular array, and the panning of this array to the real one. -/
structure AllRAD (K : Type) where
  mRegularLoudspeakerPositions : ℕ → Vector3D K
  mRealDecoder : VBAP K
  mNumberOfHarmonics : ℕ
  mRegularDecodeCoefficients : ℕ → ℕ → K
  mRealDecodeCoefficients : ℕ → ℕ → K
  mRegularArraySize : ℕ

namespace AllRAD

section Update

variable (sqrt : K → K)

/-- The product of the matrices for the regular array and for the real one. -/
def updateDecodingCoefficients (s : AllRAD K) : Except Exception (AllRAD K) := do
  let gains ← (List.range s.mRegularArraySize).mapM fun regSpeakerIdx =>
    VBAP.calculateGains sqrt s.mRealDecoder (s.mRegularLoudspeakerPositions regSpeakerIdx) false
  .ok { s with mRealDecodeCoefficients := fun rowIdx colIdx =>
    ∑ runIdx ∈ Finset.range s.mRegularArraySize,
      s.mRegularDecodeCoefficients rowIdx runIdx * (gains.getD runIdx fun _ => 0) colIdx }

def setListenerPosition (s : AllRAD K) (pos : Vector3D K) : AllRAD K × Except Exception Unit :=
  let s := { s with mRealDecoder := VBAP.setListenerPosition sqrt s.mRealDecoder pos }
  match s.updateDecodingCoefficients sqrt with
  | .error e => (s, .error e)
  | .ok s => (s, .ok ())

end Update

/-- The number of loudspeakers of the real array. -/
def numberOfColumns (s : AllRAD K) : ℕ := s.mRealDecoder.numRegLoudspeakers

/-- An element of the matrix `decodingGains()`. -/
def decodingGains (s : AllRAD K) (sigIdx spkIdx : ℕ) : Except Fault K :=
  if sigIdx < s.mNumberOfHarmonics ∧ spkIdx < s.numberOfColumns then
    .ok (s.mRealDecodeCoefficients sigIdx spkIdx)
  else .error .outOfRange

/-- The gain of a harmonic, which is zero for harmonics that the decoder does not have. -/
def harmonicGain (s : AllRAD K) (sigIdx spkIdx : ℕ) : K :=
  if sigIdx < s.mNumberOfHarmonics then s.mRealDecodeCoefficients sigIdx spkIdx else 0

end AllRAD

/-! ### The component -/

structure HoaAllRadGainCalculator (K : Type) [Field K] where
  fullName : String
  objectInput : InputBase (ObjectVector K)
  gainMatrixInput : Efl.BasicMatrix K
  gainMatrixOutput : Efl.BasicMatrix K
  listenerInput : Option (InputBase (Pml.ListenerPosition K))
  allRadCalculator : AllRAD K

namespace HoaAllRadGainCalculator

section Process

variable (sqrt : K → K)

/-- The block for a listener that has moved. -/
def updateListener (s : HoaAllRadGainCalculator K) :
    HoaAllRadGainCalculator K × Except Exception Unit :=
  match s.listenerInput with
  | none => (s, .ok ())
  | some listenerInput =>
    if listenerInput.changed then
      match s.allRadCalculator.setListenerPosition sqrt listenerInput.data.position with
      | (allRad, .error e) => ({ s with allRadCalculator := allRad }, .error e)
      | (allRad, .ok ()) =>
        ({ s with
          allRadCalculator := allRad
          listenerInput := some listenerInput.resetChanged }, .ok ())
    else (s, .ok ())

/-- The loop over the loudspeakers. -/
def writeColumn (decodeGains : AllRAD K) (sigIdx chIdx : ℕ) :
    List ℕ → Efl.BasicMatrix K → Efl.BasicMatrix K × Except Fault Unit
  | [], outMtx => (outMtx, .ok ())
  | spkIdx :: rest, outMtx =>
    match decodeGains.decodingGains sigIdx spkIdx with
    | .error fault => (outMtx, .error fault)
    | .ok gain =>
      match outMtx.write spkIdx chIdx gain with
      | .error fault => (outMtx, .error fault)
      | .ok outMtx => writeColumn decodeGains sigIdx chIdx rest outMtx

/-- The loop over the harmonics, with their channels. -/
def writeHarmonics (decodeGains : AllRAD K) (numChannels numLoudspeakers : ℕ) :
    List (ℕ × ℕ) → Efl.BasicMatrix K → Efl.BasicMatrix K × Except Fault Unit
  | [], outMtx => (outMtx, .ok ())
  | (sigIdx, chIdx) :: rest, outMtx =>
    if chIdx ≥ numChannels then
      (outMtx, .error (.thrown (.runtimeError "Channel index exceeds maximum admissible value.")))
    else
      match writeColumn decodeGains sigIdx chIdx (List.range numLoudspeakers) outMtx with
      | (outMtx, .error fault) => (outMtx, .error fault)
      | (outMtx, .ok ()) => writeHarmonics decodeGains numChannels numLoudspeakers rest outMtx

/-- The harmonics of a source, with their channels. -/
def harmonicsOf (hoaSrc : HoaSource K) : List (ℕ × ℕ) :=
  hoaSrc.channelIndices.zipIdx.map fun entry => (entry.2, entry.1.val)

/-- The `try` block. -/
def writeSource (decodeGains : AllRAD K) (numChannels numLoudspeakers : ℕ) (hoaSrc : HoaSource K)
    (outMtx : Efl.BasicMatrix K) : Efl.BasicMatrix K × Except Fault Unit :=
  if hoaSrc.numberOfChannels ≠ ((hoaSrc.order + 1) * (hoaSrc.order + 1)).val then
    (outMtx, .error (.thrown (.runtimeError
      "The number of harmonic signals is inconsistent with the HOA order.")))
  else writeHarmonics decodeGains numChannels numLoudspeakers (harmonicsOf hoaSrc) outMtx

/-- The loop over the objects. -/
def writeSources (decodeGains : AllRAD K) (numChannels numLoudspeakers : ℕ) :
    List (AnyObject K) → Efl.BasicMatrix K → Efl.BasicMatrix K × Except Fault Unit
  | [], outMtx => (outMtx, .ok ())
  | .hoaSource hoaSrc :: rest, outMtx =>
    match writeSource decodeGains numChannels numLoudspeakers hoaSrc outMtx with
    | (outMtx, .error fault) => (outMtx, .error fault)
    | (outMtx, .ok ()) => writeSources decodeGains numChannels numLoudspeakers rest outMtx
  | _ :: rest, outMtx => writeSources decodeGains numChannels numLoudspeakers rest outMtx

def process (s : HoaAllRadGainCalculator K) : HoaAllRadGainCalculator K × Except Fault Unit :=
  match s.updateListener sqrt with
  | (s, .error e) => (s, .error (.thrown e))
  | (s, .ok ()) =>
    match s.gainMatrixOutput.copy s.gainMatrixInput with
    | .error e => (s, .error (.thrown e))
    | .ok outMtx =>
      match writeSources s.allRadCalculator outMtx.numberOfColumns outMtx.numberOfRows
        s.objectInput.data.toList outMtx with
      | (outMtx, .error (.thrown e)) =>
        ({ s with gainMatrixOutput := outMtx },
          .error (.thrown (status s.fullName ("Error decoding HOA source: " ++ e.what))))
      | (outMtx, .error fault) => ({ s with gainMatrixOutput := outMtx }, .error fault)
      | (outMtx, .ok ()) =>
        ({ s with
          gainMatrixOutput := outMtx
          objectInput := s.objectInput.resetChanged }, .ok ())

end Process

/-! ### What is expected -/

section Expected

variable (sqrt : K → K)

/-- The harmonics of all sources, in the order of the loops. -/
def harmonics (objects : List (AnyObject K)) : List (ℕ × ℕ) :=
  objects.flatMap fun
    | .hoaSource hoaSrc => harmonicsOf hoaSrc
    | _ => []

/-- The last harmonic that uses a channel. -/
def lastHarmonic (harmonics : List (ℕ × ℕ)) (chIdx : ℕ) : Option ℕ :=
  (harmonics.reverse.find? fun harmonic => harmonic.2 = chIdx).map Prod.fst

/-- **What is expected of a call**: it reports an error, or all gains are those of the input, apart
from the channels of harmonics. -/
def Conforms (s : HoaAllRadGainCalculator K) : Prop :=
  (∃ e, (s.process sqrt).2 = .error (.thrown e)) ∨
    (s.process sqrt).2 = .ok () ∧
      ∀ spkIdx < s.gainMatrixOutput.numberOfRows,
        ∀ chIdx < s.gainMatrixOutput.numberOfColumns,
          (s.process sqrt).1.gainMatrixOutput.get spkIdx chIdx =
            match lastHarmonic (harmonics s.objectInput.data.toList) chIdx with
            | some sigIdx => (s.process sqrt).1.allRadCalculator.harmonicGain sigIdx spkIdx
            | none => s.gainMatrixInput.get spkIdx chIdx

/-- The ports are connected to matrices of one size, and the decoder is one for the loudspeakers. -/
structure Connected (s : HoaAllRadGainCalculator K) : Prop where
  rows : s.gainMatrixOutput.numberOfRows = s.gainMatrixInput.numberOfRows
  columns : s.gainMatrixOutput.numberOfColumns = s.gainMatrixInput.numberOfColumns
  loudspeakers : s.gainMatrixOutput.numberOfRows = s.allRadCalculator.numberOfColumns

def hoaSources (objects : List (AnyObject K)) : List (HoaSource K) :=
  objects.filterMap fun
    | .hoaSource hoaSrc => some hoaSrc
    | _ => none

/-- The number of channels is that of the harmonics. -/
def Consistent (hoaSrc : HoaSource K) : Prop :=
  hoaSrc.numberOfChannels = ((hoaSrc.order + 1) * (hoaSrc.order + 1)).val

/-- No error is reported for a source. -/
def Accepted (numChannels : ℕ) (hoaSrc : HoaSource K) : Prop :=
  Consistent hoaSrc ∧ ∀ chIdx ∈ hoaSrc.channelIndices, chIdx.val < numChannels

/-- A source with more harmonics than the decoder has is refused, either itself, for one of the
channels up to that of the first such harmonic, or with a source before it. -/
def WithinDecoder (numHarmonics numChannels : ℕ) (sources : List (HoaSource K)) : Prop :=
  ∀ before hoaSrc after, sources = before ++ hoaSrc :: after →
    (∀ source ∈ before, Accepted numChannels source) → Consistent hoaSrc →
      numHarmonics < hoaSrc.numberOfChannels →
        ∃ chIdx ∈ hoaSrc.channelIndices.take (numHarmonics + 1), numChannels ≤ chIdx.val

end Expected

/-! ### Columns -/

section Columns

variable {R : Type} {decodeGains : AllRAD R} {outMtx : Efl.BasicMatrix R}

/-- Elements of a matrix are different if their indices are. -/
theorem index_injective {α : Type} {m : Efl.BasicMatrix α} {r r' c c' : ℕ}
    (hc : c < m.numberOfColumns) (hc' : c' < m.numberOfColumns)
    (h : r * m.stride + c = r' * m.stride + c') : r = r' ∧ c = c' := by
  rcases Nat.lt_trichotomy r r' with hlt | heq | hlt
  · have hindex := Efl.BasicMatrix.index_lt hlt hc
    omega
  · subst heq
    exact ⟨rfl, Nat.add_left_cancel h⟩
  · have hindex := Efl.BasicMatrix.index_lt hlt hc'
    omega

theorem write_spec {spkIdx chIdx : ℕ} (hr : spkIdx < outMtx.numberOfRows)
    (hc : chIdx < outMtx.numberOfColumns) (gain : R) :
    ∃ result, outMtx.write spkIdx chIdx gain = .ok result ∧
      result.numberOfRows = outMtx.numberOfRows ∧
      result.numberOfColumns = outMtx.numberOfColumns ∧
      ∀ r, ∀ c < outMtx.numberOfColumns,
        result.get r c = if r = spkIdx ∧ c = chIdx then gain else outMtx.get r c := by
  refine ⟨_, if_pos ⟨hr, hc⟩, rfl, rfl, fun r c hc' => ?_⟩
  show Function.update outMtx.array.data (spkIdx * outMtx.stride + chIdx) gain
    (r * outMtx.stride + c) = _
  by_cases h : r = spkIdx ∧ c = chIdx
  · rw [if_pos h, h.1, h.2, Function.update_self]
  · rw [if_neg h, Function.update_of_ne]
    · rfl
    · exact fun heq => h (index_injective hc' hc heq)

/-- **The column of a harmonic that the decoder has.** -/
theorem writeColumn_spec {sigIdx chIdx : ℕ} (hsig : sigIdx < decodeGains.mNumberOfHarmonics)
    (hch : chIdx < outMtx.numberOfColumns)
    (hsize : outMtx.numberOfRows = decodeGains.numberOfColumns) {spkIdxs : List ℕ}
    (hspk : ∀ spkIdx ∈ spkIdxs, spkIdx < outMtx.numberOfRows) :
    ∃ result, writeColumn decodeGains sigIdx chIdx spkIdxs outMtx = (result, .ok ()) ∧
      result.numberOfRows = outMtx.numberOfRows ∧
      result.numberOfColumns = outMtx.numberOfColumns ∧
      ∀ r, ∀ c < outMtx.numberOfColumns, result.get r c =
        if r ∈ spkIdxs ∧ c = chIdx then decodeGains.mRealDecodeCoefficients sigIdx r
        else outMtx.get r c := by
  induction spkIdxs generalizing outMtx with
  | nil =>
    refine ⟨outMtx, rfl, rfl, rfl, fun r c _ => ?_⟩
    rw [if_neg fun h => List.not_mem_nil h.1]
  | cons spkIdx rest ih =>
    obtain ⟨hfirst, hrest⟩ := List.forall_mem_cons.mp hspk
    have hread : decodeGains.decodingGains sigIdx spkIdx =
        .ok (decodeGains.mRealDecodeCoefficients sigIdx spkIdx) :=
      if_pos ⟨hsig, hsize ▸ hfirst⟩
    obtain ⟨written, hwrite, hrows, hcolumns, helements⟩ :=
      write_spec hfirst hch (decodeGains.mRealDecodeCoefficients sigIdx spkIdx)
    obtain ⟨result, hresult, hrows', hcolumns', helements'⟩ :=
      @ih written (hcolumns ▸ hch) (hrows.trans hsize) (hrows ▸ hrest)
    refine ⟨result, ?_, hrows'.trans hrows, hcolumns'.trans hcolumns, fun r c hc => ?_⟩
    · rw [writeColumn, hread]
      dsimp only
      rw [hwrite]
      exact hresult
    · -- an element is written by the rest of the loop, or now, or not at all
      rw [helements' r c (hcolumns ▸ hc), helements r c hc]
      by_cases hmem : r ∈ rest ∧ c = chIdx
      · rw [if_pos hmem, if_pos ⟨List.mem_cons_of_mem spkIdx hmem.1, hmem.2⟩]
      · rw [if_neg hmem]
        by_cases hhead : r = spkIdx ∧ c = chIdx
        · rw [if_pos hhead, if_pos ⟨hhead.1 ▸ List.mem_cons_self, hhead.2⟩, hhead.1]
        · rw [if_neg hhead, if_neg]
          rintro ⟨hr, hc'⟩
          rcases List.mem_cons.mp hr with hr | hr
          · exact hhead ⟨hr, hc'⟩
          · exact hmem ⟨hr, hc'⟩

/-- A harmonic that the decoder does not have is read from outside of the matrix. -/
theorem writeColumn_outOfRange {sigIdx : ℕ} (hsig : decodeGains.mNumberOfHarmonics ≤ sigIdx)
    (chIdx : ℕ) {n : ℕ} (hn : n ≠ 0) (outMtx : Efl.BasicMatrix R) :
    writeColumn decodeGains sigIdx chIdx (List.range n) outMtx = (outMtx, .error .outOfRange) := by
  obtain ⟨m, rfl⟩ := Nat.exists_eq_succ_of_ne_zero hn
  have hread : decodeGains.decodingGains sigIdx 0 = .error .outOfRange :=
    if_neg fun h => absurd h.1 (not_lt.mpr hsig)
  rw [List.range_succ_eq_map, writeColumn, hread]

/-! ### Harmonics -/

@[simp] theorem lastHarmonic_nil (chIdx : ℕ) : lastHarmonic [] chIdx = none := rfl

theorem lastHarmonic_append (first later : List (ℕ × ℕ)) (chIdx : ℕ) :
    lastHarmonic (first ++ later) chIdx =
      (lastHarmonic later chIdx).or (lastHarmonic first chIdx) := by
  unfold lastHarmonic
  rw [List.reverse_append, List.find?_append, Option.map_or]

theorem lastHarmonic_singleton (sigIdx chIdx' chIdx : ℕ) :
    lastHarmonic [(sigIdx, chIdx')] chIdx = if chIdx' = chIdx then some sigIdx else none := by
  unfold lastHarmonic
  by_cases h : chIdx' = chIdx <;> simp [h]

/-- The elements after some harmonics have been written. -/
structure Written (decodeGains : AllRAD R) (harmonics : List (ℕ × ℕ))
    (outMtx result : Efl.BasicMatrix R) : Prop where
  rows : result.numberOfRows = outMtx.numberOfRows
  columns : result.numberOfColumns = outMtx.numberOfColumns
  elements : ∀ r < outMtx.numberOfRows, ∀ c < outMtx.numberOfColumns, result.get r c =
    match lastHarmonic harmonics c with
    | some sigIdx => decodeGains.mRealDecodeCoefficients sigIdx r
    | none => outMtx.get r c

theorem Written.append {first later : List (ℕ × ℕ)} {between result : Efl.BasicMatrix R}
    (h : Written decodeGains first outMtx between) (h' : Written decodeGains later between result) :
    Written decodeGains (first ++ later) outMtx result := by
  refine ⟨h'.rows.trans h.rows, h'.columns.trans h.columns, fun r hr c hc => ?_⟩
  rw [h'.elements r (h.rows ▸ hr) c (h.columns ▸ hc), lastHarmonic_append]
  cases lastHarmonic later c with
  | some sigIdx => rfl
  | none => exact h.elements r hr c hc

/-- A harmonic with a channel, for which the decoder has gains if there are loudspeakers. -/
def Fine (decodeGains : AllRAD R) (numChannels numLoudspeakers : ℕ) (harmonic : ℕ × ℕ) : Prop :=
  harmonic.2 < numChannels ∧
    (numLoudspeakers ≠ 0 → harmonic.1 < decodeGains.mNumberOfHarmonics)

/-- One harmonic. -/
theorem writeColumn_range {harmonic : ℕ × ℕ} (hsize : outMtx.numberOfRows = decodeGains.numberOfColumns)
    (h : Fine decodeGains outMtx.numberOfColumns outMtx.numberOfRows harmonic) :
    ∃ result, writeColumn decodeGains harmonic.1 harmonic.2 (List.range outMtx.numberOfRows)
        outMtx = (result, .ok ()) ∧
      Written decodeGains [harmonic] outMtx result := by
  by_cases hzero : outMtx.numberOfRows = 0
  · rw [hzero]
    refine ⟨outMtx, rfl, rfl, rfl, fun r hr => ?_⟩
    omega
  · obtain ⟨result, hresult, hrows, hcolumns, helements⟩ := writeColumn_spec (h.2 hzero) h.1 hsize
      (fun spkIdx hspk => List.mem_range.mp hspk)
    refine ⟨result, hresult, hrows, hcolumns, fun r hr c hc => ?_⟩
    rw [helements r c hc, lastHarmonic_singleton]
    by_cases hch : c = harmonic.2
    · rw [if_pos ⟨List.mem_range.mpr hr, hch⟩, if_pos hch.symm]
    · rw [if_neg fun h => hch h.2, if_neg fun h => hch h.symm]

/-- **The loop over the harmonics** ends with the first one that is not fine. -/
theorem writeHarmonics_cases (hsize : outMtx.numberOfRows = decodeGains.numberOfColumns)
    (harmonics : List (ℕ × ℕ)) :
    ((∀ harmonic ∈ harmonics,
          Fine decodeGains outMtx.numberOfColumns outMtx.numberOfRows harmonic) ∧
        ∃ result, writeHarmonics decodeGains outMtx.numberOfColumns outMtx.numberOfRows harmonics
            outMtx = (result, .ok ()) ∧ Written decodeGains harmonics outMtx result) ∨
      ∃ before harmonic after result fault, harmonics = before ++ harmonic :: after ∧
        (∀ earlier ∈ before,
          Fine decodeGains outMtx.numberOfColumns outMtx.numberOfRows earlier) ∧
        writeHarmonics decodeGains outMtx.numberOfColumns outMtx.numberOfRows harmonics outMtx =
          (result, .error fault) ∧
        ((outMtx.numberOfColumns ≤ harmonic.2 ∧ ∃ e, fault = .thrown e) ∨
          (harmonic.2 < outMtx.numberOfColumns ∧ outMtx.numberOfRows ≠ 0 ∧
            decodeGains.mNumberOfHarmonics ≤ harmonic.1 ∧ fault = .outOfRange)) := by
  induction harmonics generalizing outMtx with
  | nil =>
    refine Or.inl ⟨List.forall_mem_nil _, outMtx, rfl, rfl, rfl, fun r _ c _ => rfl⟩
  | cons harmonic rest ih =>
    by_cases hch : outMtx.numberOfColumns ≤ harmonic.2
    · refine Or.inr ⟨[], harmonic, rest, _, _, rfl, List.forall_mem_nil _, if_pos hch, ?_⟩
      exact Or.inl ⟨hch, _, rfl⟩
    · by_cases hfine : outMtx.numberOfRows ≠ 0 → harmonic.1 < decodeGains.mNumberOfHarmonics
      · have hharmonic : Fine decodeGains outMtx.numberOfColumns outMtx.numberOfRows harmonic :=
          ⟨not_le.mp hch, hfine⟩
        obtain ⟨between, hbetween, hwritten⟩ := writeColumn_range hsize hharmonic
        have hunfold : writeHarmonics decodeGains outMtx.numberOfColumns outMtx.numberOfRows
            (harmonic :: rest) outMtx =
            writeHarmonics decodeGains between.numberOfColumns between.numberOfRows rest
              between := by
          rw [writeHarmonics, if_neg hch, hbetween, hwritten.rows, hwritten.columns]
        have hrest := @ih between (hwritten.rows.trans hsize)
        rw [← hunfold, hwritten.rows, hwritten.columns] at hrest
        rcases hrest with ⟨hall, result, hresult, hlater⟩ |
          ⟨before, later, after, result, fault, hsplit, hbefore, hresult, hfault⟩
        · refine Or.inl ⟨List.forall_mem_cons.mpr ⟨hharmonic, hall⟩, result, hresult, ?_⟩
          exact hwritten.append hlater
        · refine Or.inr ⟨harmonic :: before, later, after, result, fault, ?_, ?_, hresult, hfault⟩
          · rw [hsplit, List.cons_append]
          · exact List.forall_mem_cons.mpr ⟨hharmonic, hbefore⟩
      · -- the decoder has no such row, which is noticed if there is a loudspeaker to write for
        obtain ⟨hne, hsig⟩ := Classical.not_imp.mp hfine
        refine Or.inr ⟨[], harmonic, rest, outMtx, .outOfRange, rfl, List.forall_mem_nil _, ?_, ?_⟩
        · rw [writeHarmonics, if_neg hch, writeColumn_outOfRange (not_lt.mp hsig) _ hne]
        · exact Or.inr ⟨not_le.mp hch, hne, not_lt.mp hsig, rfl⟩

end Columns

/-! ### Sources -/

section Sources

variable {R : Type} {decodeGains : AllRAD R} {outMtx : Efl.BasicMatrix R} {hoaSrc : HoaSource R}

theorem getElem?_harmonicsOf (hoaSrc : HoaSource R) (k : ℕ) :
    (harmonicsOf hoaSrc)[k]? = hoaSrc.channelIndices[k]?.map fun chIdx => (k, chIdx.val) := by
  unfold harmonicsOf
  rw [List.getElem?_map, List.getElem?_zipIdx, Option.map_map, Nat.zero_add]
  rfl

/-- The harmonics before one of them. -/
theorem harmonicsOf_split {before after : List (ℕ × ℕ)} {harmonic : ℕ × ℕ}
    (h : harmonicsOf hoaSrc = before ++ harmonic :: after) :
    harmonic.1 = before.length ∧
      (∃ chIdx, hoaSrc.channelIndices[before.length]? = some chIdx ∧ chIdx.val = harmonic.2) ∧
      ∀ k < before.length, ∃ chIdx, hoaSrc.channelIndices[k]? = some chIdx ∧
        (k, chIdx.val) ∈ before := by
  have hget := getElem?_harmonicsOf hoaSrc
  rw [h] at hget
  have hself := hget before.length
  rw [List.getElem?_append_right le_rfl, Nat.sub_self, List.getElem?_cons_zero] at hself
  obtain ⟨chIdx, hchIdx, heq⟩ := Option.map_eq_some_iff.mp hself.symm
  refine ⟨by rw [← heq], ⟨chIdx, hchIdx, by rw [← heq]⟩, fun k hk => ?_⟩
  have hearlier := hget k
  rw [List.getElem?_append_left hk, List.getElem?_eq_getElem hk] at hearlier
  obtain ⟨chIdx', hchIdx', heq'⟩ := Option.map_eq_some_iff.mp hearlier.symm
  refine ⟨chIdx', hchIdx', ?_⟩
  rw [heq']
  exact List.getElem_mem hk

/-- Harmonics for which the decoder has gains are before the first one for which it has not. -/
theorem length_le_of_fine {before after : List (ℕ × ℕ)} {harmonic : ℕ × ℕ} {numChannels n : ℕ}
    (h : harmonicsOf hoaSrc = before ++ harmonic :: after)
    (hfine : ∀ earlier ∈ before, Fine decodeGains numChannels n earlier) (hn : n ≠ 0) :
    before.length ≤ decodeGains.mNumberOfHarmonics := by
  by_contra hlt
  obtain ⟨-, -, hearlier⟩ := harmonicsOf_split h
  obtain ⟨chIdx, -, hmem⟩ := hearlier decodeGains.mNumberOfHarmonics (not_le.mp hlt)
  exact absurd ((hfine _ hmem).2 hn) (lt_irrefl _)

theorem mem_take {chIdx : UnsignedInt} {k n : ℕ} (h : hoaSrc.channelIndices[k]? = some chIdx)
    (hk : k < n) : chIdx ∈ hoaSrc.channelIndices.take n := by
  rw [← List.getElem?_take_of_lt hk] at h
  exact List.mem_of_getElem? h

/-- **What becomes of a source.** -/
theorem writeSource_cases (hsize : outMtx.numberOfRows = decodeGains.numberOfColumns)
    (hoaSrc : HoaSource R) :
    (∃ result, writeSource decodeGains outMtx.numberOfColumns outMtx.numberOfRows hoaSrc outMtx =
        (result, .ok ()) ∧ Written decodeGains (harmonicsOf hoaSrc) outMtx result ∧
      (outMtx.numberOfRows ≠ 0 → hoaSrc.numberOfChannels ≤ decodeGains.mNumberOfHarmonics) ∧
      Accepted outMtx.numberOfColumns hoaSrc) ∨
    (∃ result e, writeSource decodeGains outMtx.numberOfColumns outMtx.numberOfRows hoaSrc outMtx =
        (result, .error (.thrown e)) ∧ ¬Accepted outMtx.numberOfColumns hoaSrc ∧
      (outMtx.numberOfRows ≠ 0 → Consistent hoaSrc →
        ∃ chIdx ∈ hoaSrc.channelIndices.take (decodeGains.mNumberOfHarmonics + 1),
          outMtx.numberOfColumns ≤ chIdx.val)) ∨
    (∃ result, writeSource decodeGains outMtx.numberOfColumns outMtx.numberOfRows hoaSrc outMtx =
        (result, .error .outOfRange) ∧ outMtx.numberOfRows ≠ 0 ∧ Consistent hoaSrc ∧
      decodeGains.mNumberOfHarmonics < hoaSrc.numberOfChannels ∧
      ∀ chIdx ∈ hoaSrc.channelIndices.take (decodeGains.mNumberOfHarmonics + 1),
        chIdx.val < outMtx.numberOfColumns) := by
  by_cases hconsistent : Consistent hoaSrc
  · have hsource : writeSource decodeGains outMtx.numberOfColumns outMtx.numberOfRows hoaSrc outMtx =
        writeHarmonics decodeGains outMtx.numberOfColumns outMtx.numberOfRows
          (harmonicsOf hoaSrc) outMtx := if_neg (not_not_intro hconsistent)
    rw [hsource]
    rcases writeHarmonics_cases hsize (harmonicsOf hoaSrc) with ⟨hall, result, hresult, hwritten⟩ |
      ⟨before, harmonic, after, result, fault, hsplit, hbefore, hresult, hfault⟩
    · have hfine : ∀ k chIdx, hoaSrc.channelIndices[k]? = some chIdx →
          Fine decodeGains outMtx.numberOfColumns outMtx.numberOfRows (k, chIdx.val) := by
        intro k chIdx hget
        refine hall _ (List.mem_of_getElem? (i := k) ?_)
        rw [getElem?_harmonicsOf, hget]
        rfl
      refine Or.inl ⟨result, hresult, hwritten, fun hrows => ?_, hconsistent, fun chIdx hmem => ?_⟩
      · by_contra hlt
        have hget := List.getElem?_eq_getElem (not_le.mp hlt)
        exact absurd ((hfine _ _ hget).2 hrows) (lt_irrefl _)
      · obtain ⟨k, hget⟩ := List.mem_iff_getElem?.mp hmem
        exact (hfine k chIdx hget).1
    · -- the loop has stopped: the channel is too large, or the decoder has no such row
      obtain ⟨hindex, ⟨chIdx, hget, hch⟩, hearlier⟩ := harmonicsOf_split hsplit
      rcases hfault with ⟨hlarge, e, rfl⟩ | ⟨hsmall, hrows, hsig, rfl⟩
      · rw [← hch] at hlarge
        refine Or.inr (Or.inl ⟨result, e, hresult, fun haccepted => ?_, fun hrows _ => ?_⟩)
        · exact absurd (haccepted.2 chIdx (List.mem_of_getElem? hget)) (not_lt.mpr hlarge)
        · have hle := length_le_of_fine hsplit hbefore hrows
          exact ⟨chIdx, mem_take hget (Nat.lt_succ_of_le hle), hlarge⟩
      · -- all harmonics that the decoder has rows for are written before the first one without
        have hle := length_le_of_fine hsplit hbefore hrows
        have heq : before.length = decodeGains.mNumberOfHarmonics := by omega
        rw [heq] at hget hearlier
        obtain ⟨hlt, -⟩ := List.getElem?_eq_some_iff.mp hget
        refine Or.inr (Or.inr ⟨result, hresult, hrows, hconsistent, hlt, fun chIdx' hmem => ?_⟩)
        obtain ⟨k, hk⟩ := List.mem_iff_getElem?.mp hmem
        have hk' := (List.getElem?_eq_some_iff.mp hk).1
        rw [List.length_take] at hk'
        rw [List.getElem?_take_of_lt (by omega)] at hk
        rcases Nat.lt_or_ge k decodeGains.mNumberOfHarmonics with hlt' | hge
        · obtain ⟨chIdx'', hget'', hmem''⟩ := hearlier k hlt'
          obtain rfl : chIdx'' = chIdx' := Option.some.inj (hget''.symm.trans hk)
          exact (hbefore _ hmem'').1
        · obtain rfl : k = decodeGains.mNumberOfHarmonics := by omega
          obtain rfl : chIdx = chIdx' := Option.some.inj (hget.symm.trans hk)
          exact hch ▸ hsmall
  · refine Or.inr (Or.inl ⟨_, _, if_pos hconsistent, fun h => hconsistent h.1, fun _ h => ?_⟩)
    exact absurd h hconsistent

/-- One more source in front. -/
theorem withinDecoder_cons_iff {numHarmonics numChannels : ℕ} {sources : List (HoaSource R)} :
    WithinDecoder numHarmonics numChannels (hoaSrc :: sources) ↔
      (Consistent hoaSrc → numHarmonics < hoaSrc.numberOfChannels →
        ∃ chIdx ∈ hoaSrc.channelIndices.take (numHarmonics + 1), numChannels ≤ chIdx.val) ∧
      (Accepted numChannels hoaSrc → WithinDecoder numHarmonics numChannels sources) := by
  constructor
  · intro h
    refine ⟨h [] hoaSrc sources rfl (List.forall_mem_nil _), fun haccepted => ?_⟩
    intro before source after hsplit hbefore
    refine h (hoaSrc :: before) source after ?_ (List.forall_mem_cons.mpr ⟨haccepted, hbefore⟩)
    rw [hsplit, List.cons_append]
  · rintro ⟨hfirst, hrest⟩ before source after hsplit hbefore
    cases before with
    | nil =>
      obtain ⟨rfl, rfl⟩ := List.cons.inj hsplit
      exact hfirst
    | cons b before =>
      obtain ⟨rfl, rfl⟩ := List.cons.inj hsplit
      obtain ⟨haccepted, hbefore⟩ := List.forall_mem_cons.mp hbefore
      exact hrest haccepted before source after rfl hbefore

theorem lt_of_mem_harmonicsOf {harmonic : ℕ × ℕ} (h : harmonic ∈ harmonicsOf hoaSrc) :
    harmonic.1 < hoaSrc.numberOfChannels := by
  obtain ⟨k, hk⟩ := List.mem_iff_getElem?.mp h
  rw [getElem?_harmonicsOf] at hk
  obtain ⟨chIdx, hget, rfl⟩ := Option.map_eq_some_iff.mp hk
  exact (List.getElem?_eq_some_iff.mp hget).1

/-- **The loop over the objects.** -/
theorem writeSources_cases (hsize : outMtx.numberOfRows = decodeGains.numberOfColumns)
    (objects : List (AnyObject R)) :
    (∃ result, writeSources decodeGains outMtx.numberOfColumns outMtx.numberOfRows objects outMtx =
        (result, .ok ()) ∧ Written decodeGains (harmonics objects) outMtx result ∧
      (outMtx.numberOfRows ≠ 0 →
        (∀ harmonic ∈ harmonics objects, harmonic.1 < decodeGains.mNumberOfHarmonics) ∧
        WithinDecoder decodeGains.mNumberOfHarmonics outMtx.numberOfColumns (hoaSources objects))) ∨
    (∃ result e, writeSources decodeGains outMtx.numberOfColumns outMtx.numberOfRows objects
        outMtx = (result, .error (.thrown e)) ∧
      (outMtx.numberOfRows ≠ 0 →
        WithinDecoder decodeGains.mNumberOfHarmonics outMtx.numberOfColumns (hoaSources objects))) ∨
    (∃ result, writeSources decodeGains outMtx.numberOfColumns outMtx.numberOfRows objects outMtx =
        (result, .error .outOfRange) ∧ outMtx.numberOfRows ≠ 0 ∧
      ¬WithinDecoder decodeGains.mNumberOfHarmonics outMtx.numberOfColumns
        (hoaSources objects)) := by
  induction objects generalizing outMtx with
  | nil =>
    refine Or.inl ⟨outMtx, rfl, ⟨rfl, rfl, fun r _ c _ => rfl⟩, fun _ => ?_⟩
    refine ⟨List.forall_mem_nil _, fun before hoaSrc after hsplit => ?_⟩
    exact absurd hsplit.symm (List.append_ne_nil_of_right_ne_nil _ (List.cons_ne_nil _ _))
  | cons obj rest ih =>
    cases obj with
    | hoaSource hoaSrc =>
      have hsources : hoaSources (.hoaSource hoaSrc :: rest) = hoaSrc :: hoaSources rest := rfl
      have hharmonics : harmonics (.hoaSource hoaSrc :: rest) =
          harmonicsOf hoaSrc ++ harmonics rest := rfl
      rw [hsources, hharmonics, withinDecoder_cons_iff, writeSources]
      rcases writeSource_cases hsize hoaSrc with ⟨between, hbetween, hwritten, hlength, haccepted⟩ |
        ⟨between, e, hbetween, hrefused, hlarge⟩ |
        ⟨between, hbetween, hrows, hconsistent, hlength, hsmall⟩
      · rw [hbetween]
        have hrest := @ih between (hwritten.rows.trans hsize)
        rw [hwritten.rows, hwritten.columns] at hrest
        -- a source that has been written has no harmonic without a row
        have hfirst : outMtx.numberOfRows ≠ 0 → Consistent hoaSrc →
            decodeGains.mNumberOfHarmonics < hoaSrc.numberOfChannels →
              ∃ chIdx ∈ hoaSrc.channelIndices.take (decodeGains.mNumberOfHarmonics + 1),
                outMtx.numberOfColumns ≤ chIdx.val :=
          fun hrows _ hlt => absurd (hlength hrows) (not_le.mpr hlt)
        rcases hrest with ⟨result, hresult, hlater, hwithin⟩ | ⟨result, e, hresult, hwithin⟩ |
          ⟨result, hresult, hrows, hwithin⟩
        · refine Or.inl ⟨result, hresult, hwritten.append hlater, fun hrows => ?_⟩
          obtain ⟨hall, hwithin⟩ := hwithin hrows
          refine ⟨fun harmonic hmem => ?_, hfirst hrows, fun _ => hwithin⟩
          rcases List.mem_append.mp hmem with hmem | hmem
          · exact (lt_of_mem_harmonicsOf hmem).trans_le (hlength hrows)
          · exact hall harmonic hmem
        · refine Or.inr (Or.inl ⟨result, e, hresult, fun hrows => ?_⟩)
          exact ⟨hfirst hrows, fun _ => hwithin hrows⟩
        · exact Or.inr (Or.inr ⟨result, hresult, hrows, fun h => hwithin (h.2 haccepted)⟩)
      · rw [hbetween]
        refine Or.inr (Or.inl ⟨between, e, rfl, fun hrows => ?_⟩)
        exact ⟨fun hconsistent _ => hlarge hrows hconsistent, fun h => absurd h hrefused⟩
      · rw [hbetween]
        refine Or.inr (Or.inr ⟨between, rfl, hrows, fun h => ?_⟩)
        obtain ⟨chIdx, hmem, hge⟩ := h.1 hconsistent hlength
        exact absurd (hsmall chIdx hmem) (not_lt.mpr hge)
    | pointSource o => exact ih hsize
    | planeWave o => exact ih hsize
    | diffuseSource o => exact ih hsize
    | pointSourceWithDiffuseness o => exact ih hsize
    | pointSourceWithReverb o => exact ih hsize
    | pointSourceExtent o => exact ih hsize
    | channelObject o => exact ih hsize

end Sources

/-! ### The calls that are as expected -/

variable {sqrt : K → K} {s : HoaAllRadGainCalculator K}

/-- The dimensions of the decoder do not depend on the listener. -/
theorem setListenerPosition_size (sqrt : K → K) (allRad : AllRAD K) (pos : Vector3D K) :
    (allRad.setListenerPosition sqrt pos).1.numberOfColumns = allRad.numberOfColumns ∧
      (allRad.setListenerPosition sqrt pos).1.mNumberOfHarmonics = allRad.mNumberOfHarmonics := by
  unfold AllRAD.setListenerPosition
  dsimp only
  cases hupdate : AllRAD.updateDecodingCoefficients sqrt
      { allRad with mRealDecoder := VBAP.setListenerPosition sqrt allRad.mRealDecoder pos } with
  | error e => exact ⟨rfl, rfl⟩
  | ok updated =>
    obtain ⟨gains, -, hok⟩ := exists_of_bind_ok hupdate
    cases hok
    exact ⟨rfl, rfl⟩

/-- What an update leaves as it is. -/
theorem updateListener_spec (sqrt : K → K) (s : HoaAllRadGainCalculator K) :
    (s.updateListener sqrt).1.objectInput = s.objectInput ∧
      (s.updateListener sqrt).1.gainMatrixInput = s.gainMatrixInput ∧
      (s.updateListener sqrt).1.gainMatrixOutput = s.gainMatrixOutput ∧
      (s.updateListener sqrt).1.allRadCalculator.numberOfColumns =
        s.allRadCalculator.numberOfColumns ∧
      (s.updateListener sqrt).1.allRadCalculator.mNumberOfHarmonics =
        s.allRadCalculator.mNumberOfHarmonics := by
  unfold updateListener
  cases s.listenerInput with
  | none => exact ⟨rfl, rfl, rfl, rfl, rfl⟩
  | some listenerInput =>
    dsimp only
    by_cases hchanged : listenerInput.changed = true
    · rw [if_pos hchanged]
      obtain ⟨hcolumns, hharmonics⟩ :=
        setListenerPosition_size sqrt s.allRadCalculator listenerInput.data.position
      cases hresult : s.allRadCalculator.setListenerPosition sqrt listenerInput.data.position with
      | mk allRad outcome =>
        rw [hresult] at hcolumns hharmonics
        cases outcome with
        | error e => exact ⟨rfl, rfl, rfl, hcolumns, hharmonics⟩
        | ok _ => exact ⟨rfl, rfl, rfl, hcolumns, hharmonics⟩
    · rw [if_neg hchanged]
      exact ⟨rfl, rfl, rfl, rfl, rfl⟩

/-- A call after the update of the decoder. -/
theorem process_of_update {s' : HoaAllRadGainCalculator K}
    (hupdate : s.updateListener sqrt = (s', .ok ())) {outMtx : Efl.BasicMatrix K}
    (hcopy : s'.gainMatrixOutput.copy s'.gainMatrixInput = .ok outMtx) {result : Efl.BasicMatrix K}
    {outcome : Except Fault Unit}
    (hwrite : writeSources s'.allRadCalculator outMtx.numberOfColumns outMtx.numberOfRows
      s'.objectInput.data.toList outMtx = (result, outcome)) :
    (s.process sqrt).1.gainMatrixOutput = result ∧
      (s.process sqrt).1.allRadCalculator = s'.allRadCalculator ∧
      ((s.process sqrt).2 = .ok () ↔ outcome = .ok ()) ∧
      ((∃ e, (s.process sqrt).2 = .error (.thrown e)) ↔ ∃ e, outcome = .error (.thrown e)) := by
  unfold process
  rw [hupdate]
  dsimp only
  rw [hcopy]
  dsimp only
  rw [hwrite]
  cases outcome with
  | ok _ => exact ⟨rfl, rfl, Iff.rfl, Iff.rfl⟩
  | error fault =>
    cases fault with
    | thrown e => exact ⟨rfl, rfl, iff_of_false nofun nofun, iff_of_true ⟨_, rfl⟩ ⟨e, rfl⟩⟩
    | divisionByZero => exact ⟨rfl, rfl, Iff.rfl, Iff.rfl⟩
    | outOfRange => exact ⟨rfl, rfl, Iff.rfl, Iff.rfl⟩

/-- **The calls that are as expected** are those in which the decoder is not updated for a new
listener position, in which there are no loudspeakers, and in which no harmonic is reached that the
decoder does not have. -/
theorem harmonics_conform_iff (h : Connected s) :
    Conforms sqrt s ↔ (∃ e, (s.updateListener sqrt).2 = .error e) ∨
      s.gainMatrixOutput.numberOfRows = 0 ∨
      WithinDecoder s.allRadCalculator.mNumberOfHarmonics s.gainMatrixOutput.numberOfColumns
        (hoaSources s.objectInput.data.toList) := by
  obtain ⟨hobjects, hinput, houtput, hcolumns, hharmonics⟩ := updateListener_spec sqrt s
  cases hupdate : s.updateListener sqrt with
  | mk s' outcome =>
    rw [hupdate] at hobjects hinput houtput hcolumns hharmonics
    cases outcome with
    | error e =>
      refine iff_of_true (Or.inl ⟨e, ?_⟩) (Or.inl ⟨e, rfl⟩)
      unfold process
      rw [hupdate]
    | ok _ =>
      have hrows : s'.gainMatrixOutput.numberOfRows = s'.gainMatrixInput.numberOfRows := by
        rw [houtput, hinput, h.rows]
      have hcols : s'.gainMatrixOutput.numberOfColumns = s'.gainMatrixInput.numberOfColumns := by
        rw [houtput, hinput, h.columns]
      -- all sizes agree, so the matrix can be copied before the sources are written
      obtain ⟨outMtx, hcopy, hcopyRows, hcopyCols, helements⟩ :=
        Efl.BasicMatrix.copy_spec hrows hcols
      rw [hinput] at hcopyRows hcopyCols helements
      have hsize : outMtx.numberOfRows = s'.allRadCalculator.numberOfColumns := by
        rw [hcopyRows, hcolumns, ← h.rows, h.loudspeakers]
      rw [or_iff_right (by rintro ⟨e, he⟩; cases he), h.rows, h.columns, ← hcopyRows, ← hcopyCols,
        ← hharmonics, ← hobjects]
      unfold Conforms
      rcases writeSources_cases hsize s'.objectInput.data.toList with
        ⟨result, hresult, hwritten, hwithin⟩ | ⟨result, e, hresult, hwithin⟩ |
        ⟨result, hresult, hne, hwithin⟩
      · obtain ⟨hmtx, hdecoder, hok, hthrown⟩ := process_of_update hupdate hcopy hresult
        refine iff_of_true (Or.inr ⟨hok.mpr rfl, fun spkIdx hspk chIdx hch => ?_⟩) ?_
        · rw [h.rows, ← hcopyRows] at hspk
          rw [h.columns, ← hcopyCols] at hch
          rw [hmtx, hdecoder, hwritten.elements spkIdx hspk chIdx hch, ← hobjects]
          -- a channel without a harmonic keeps the gains of the copy
          cases hlast : lastHarmonic (harmonics s'.objectInput.data.toList) chIdx with
          | none => exact helements spkIdx (hcopyRows ▸ hspk) chIdx (hcopyCols ▸ hch)
          | some sigIdx =>
            obtain ⟨harmonic, hfind, rfl⟩ := Option.map_eq_some_iff.mp hlast
            have hmem := List.mem_reverse.mp (List.mem_of_find?_eq_some hfind)
            exact (if_pos ((hwithin (by omega)).1 harmonic hmem)).symm
        · by_cases hzero : outMtx.numberOfRows = 0
          · exact Or.inl hzero
          · exact Or.inr (hwithin hzero).2
      · obtain ⟨-, -, -, hthrown⟩ := process_of_update hupdate hcopy hresult
        refine iff_of_true (Or.inl (hthrown.mpr ⟨e, rfl⟩)) ?_
        by_cases hzero : outMtx.numberOfRows = 0
        · exact Or.inl hzero
        · exact Or.inr (hwithin hzero)
      · obtain ⟨-, -, hok, hthrown⟩ := process_of_update hupdate hcopy hresult
        refine iff_of_false ?_ (not_or.mpr ⟨hne, hwithin⟩)
        rintro (hall | ⟨hall, -⟩)
        · obtain ⟨e, he⟩ := hthrown.mp hall
          cases he
        · cases hok.mp hall

/-! ### A source of a higher order -/

/-- A matrix of zeros. -/
def zeros (rows columns : ℕ) : Efl.BasicMatrix ℚ where
  array := {
    alignmentElements := 1
    size := nextAlignedSize columns 1 * rows
    address := 0
    data := fun _ => 0
    alignment_valid := Efl.AlignedArray.one_valid
    address_aligned := Efl.AlignedArray.one_dvd_zero }
  numberOfRows := rows
  numberOfColumns := columns
  size_eq := rfl

/-- The decoder of order zero for a pair of loudspeakers, which is also the regular array. -/
def pairDecoder : AllRAD ℚ where
  mRegularLoudspeakerPositions := VBAP.horizontalPair.positions
  mRealDecoder := VBAP.horizontalPair
  mNumberOfHarmonics := 1
  mRegularDecodeCoefficients := fun _ _ => 1 / 2
  mRealDecodeCoefficients := fun _ _ => 1 / 2
  mRegularArraySize := 2

/-- A source of an order with the first channels. -/
def sourceOfOrder (order : UnsignedInt) (channelIndices : List UnsignedInt) : ObjectVector ℚ :=
  ObjectVector.empty.insert (.hoaSource {
    id := 0
    groupId := 0
    level := 1
    priority := 0
    channelIndices := channelIndices
    eqCoefficients := []
    order := order })

def pairCalculator (objects : ObjectVector ℚ) : HoaAllRadGainCalculator ℚ where
  fullName := "hoa"
  objectInput := ⟨objects, true⟩
  gainMatrixInput := zeros 2 4
  gainMatrixOutput := zeros 2 4
  listenerInput := none
  allRadCalculator := pairDecoder

theorem connected_pairCalculator (objects : ObjectVector ℚ) :
    Connected (pairCalculator objects) := ⟨rfl, rfl, rfl⟩

/-- The gains of the second harmonic are read, which the decoder does not have. -/
theorem not_conforms_first_order :
    Connected (pairCalculator (sourceOfOrder 1 [0, 1, 2, 3])) ∧
      ¬Conforms Rat.sqrt (pairCalculator (sourceOfOrder 1 [0, 1, 2, 3])) := by
  have hresult : ((pairCalculator (sourceOfOrder 1 [0, 1, 2, 3])).process Rat.sqrt).2 =
      .error .outOfRange := by decide +kernel
  refine ⟨connected_pairCalculator _, ?_⟩
  unfold Conforms
  rw [hresult]
  rintro (⟨e, he⟩ | ⟨hok, -⟩)
  · cases he
  · cases hok

/-- A source of the order of the decoder. -/
theorem conforms_order_zero : Conforms Rat.sqrt (pairCalculator (sourceOfOrder 0 [1])) := by
  have hsources : hoaSources (pairCalculator (sourceOfOrder 0 [1])).objectInput.data.toList =
      [{ id := 0, groupId := 0, level := 1, priority := 0, channelIndices := [1],
         eqCoefficients := [], order := 0 }] := rfl
  rw [harmonics_conform_iff (connected_pairCalculator _), hsources, withinDecoder_cons_iff]
  refine Or.inr (Or.inr ⟨fun _ hlt => absurd hlt (by decide), fun _ => ?_⟩)
  intro before hoaSrc after hsplit
  exact absurd hsplit.symm (List.append_ne_nil_of_right_ne_nil _ (List.cons_ne_nil _ _))

end HoaAllRadGainCalculator

end Visr
