import Mathlib.Algebra.BigOperators.Group.Finset.Basic
import Mathlib.Algebra.BigOperators.Intervals
import Visr.Libefl.AlignedStorage
import Visr.Library.Execution
import Visr.Library.Signal

/-!
# Filters with upsampled impulse responses

A filter with one input and several outputs.  Between the taps of the impulse responses, samples
of the input are left out.  The input is kept in a circular buffer.

## Main results

* `FIR.Inv.process` — **a block of outputs**, if the buffer holds what is needed.
* `FIR.conforms_iff` — in which sequences all calls conform: the length of the filters has to fit
  when it is set, because only the ratio is checked.
-/

namespace Visr

open Execution

open Signal (past continued)

/-- The filter.  The constructor makes the buffer of `nBufferSamples` zeros. -/
structure FIR (K : Type) where
  nFIRs : ℕ
  nFIRsamples : ℕ
  B : Efl.BasicMatrix K
  nUpsample : ℕ
  inBuffer : ℕ → K
  iBuf : ℕ

namespace FIR

def nBlockSamples : ℕ := 64

def maxnFIRblocks : ℕ := 32

def maxnFIRsamples : ℕ := nBlockSamples * maxnFIRblocks

def nBufferSamples : ℕ := nBlockSamples * (maxnFIRblocks + 1)

section Operations

variable {K : Type} [CommRing K]

def create (K : Type) [CommRing K] : FIR K where
  nFIRs := 0
  nFIRsamples := 0
  B :=
    { array := ⟨1, 0, 0, fun _ => 0, Efl.AlignedArray.one_valid, Efl.AlignedArray.one_dvd_zero⟩
      numberOfRows := 0
      numberOfColumns := 0
      size_eq := rfl }
  nUpsample := 1
  inBuffer _ := 0
  iBuf := 0

/-! ### Configuration -/

def setNumFIRs (f : FIR K) (n : ℕ) : ℤ × FIR K :=
  (0, { f with nFIRs := n, B := f.B.resize n f.nFIRsamples })

def setNumFIRsamples (f : FIR K) (n : ℕ) : ℤ × FIR K :=
  (0, { f with nFIRsamples := n, B := f.B.resize f.nFIRs n })

/-- The product is not defined if it exceeds the range of `int`. -/
def setUpsampleRatio (f : FIR K) (n : ℕ) : Option (ℤ × FIR K) :=
  if 2 ^ 31 ≤ n * f.nFIRsamples then none
  else if n * f.nFIRsamples > maxnFIRsamples then some (-1, f)
  else some (0, { f with nUpsample := n })

def loadFIRs (f : FIR K) (filterCoeffs : Efl.BasicMatrix K) : Except Exception (FIR K) :=
  if filterCoeffs.numberOfRows ≠ f.nFIRs ∨ filterCoeffs.numberOfColumns ≠ f.nFIRsamples then
    .error (.invalidArgument ("FIR::loadFIRs: The dimension of the filterCoeffs parameter does " ++
      "not match the dimension of the filter."))
  else do
    let B ← f.B.copy filterCoeffs
    .ok { f with B := B }

/-! ### Processing -/

/-- An access to the buffer, which has to be inside of it. -/
def bufferAt (f : FIR K) (iBuf : ℤ) : Option K :=
  if 0 ≤ iBuf ∧ iBuf < nBufferSamples then some (f.inBuffer iBuf.toNat) else none

/-- The buffer after `n` samples of a block have been written. -/
def setInput (f : FIR K) (input : ℕ → K) : ℕ → Option (ℕ → K)
  | 0 => some f.inBuffer
  | n + 1 => do
    let inBuffer ← setInput f input n
    if f.iBuf + n < nBufferSamples then
      some (overwrite inBuffer (f.iBuf + n) 1 fun _ => input n)
    else none

/-- The contribution of a tap to the first `n` outputs. -/
def accumulate (f : FIR K) (j : ℕ) (iBuf : ℤ) : ℕ → (ℕ → K) → Option (ℕ → K)
  | 0, out => some out
  | n + 1, out => do
    let out ← accumulate f j iBuf n out
    let x ← f.bufferAt iBuf
    some fun k => if k = n then out k + f.B.get k j * x else out k

/-- The next position, with a single wrap-around. -/
def previous (f : FIR K) (iBuf : ℤ) : ℤ :=
  let iBuf := iBuf - f.nUpsample
  if iBuf < 0 then iBuf + nBufferSamples else iBuf

/-- The contributions of `n` taps, of which `j` is the first. -/
def convolve (f : FIR K) : ℕ → ℕ → ℤ → (ℕ → K) → Option (ℕ → K)
  | 0, _, _, out => some out
  | n + 1, j, iBuf, out => do
    let out ← f.accumulate j iBuf f.nFIRs out
    convolve f n (j + 1) (f.previous iBuf) out

/-- The first `n` samples of the outputs. -/
def outputs (f : FIR K) : ℕ → Option (ℕ → ℕ → K)
  | 0 => some fun _ _ => 0
  | n + 1 => do
    let out ← outputs f n
    let sample ← f.convolve f.nFIRsamples 0 (f.iBuf + n) fun _ => 0
    some fun k i => if i = n then sample k else out k i

/-- A block of input gives a block for each output. -/
def process (f : FIR K) (input : ℕ → K) : Option ((ℕ → ℕ → K) × FIR K) := do
  let inBuffer ← f.setInput input nBlockSamples
  let f := { f with inBuffer := inBuffer }
  let out ← f.outputs nBlockSamples
  let iBuf := f.iBuf + nBlockSamples
  some (out, { f with iBuf := if iBuf ≥ nBufferSamples then 0 else iBuf })

end Operations

/-! ### Sequences of calls -/

/-- The calls.  The numbers are positive values of type `int`. -/
inductive Call (K : Type)
  | setNumFIRs (n : ℕ) (h : 0 < n ∧ n < 2 ^ 31)
  | setNumFIRsamples (n : ℕ) (h : 0 < n ∧ n < 2 ^ 31)
  | setUpsampleRatio (n : ℕ) (h : 0 < n ∧ n < 2 ^ 31)
  | loadFIRs (filterCoeffs : Efl.BasicMatrix K)
  | process (input : ℕ → K)

/-- What a call returns. -/
inductive Result (K : Type)
  | code (c : ℤ)
  | exception (e : Exception)
  | done
  | samples (out : ℕ → ℕ → K)

section Sessions

variable {K : Type} [CommRing K]

/-- A call, unless its behaviour is not defined. -/
def call (f : FIR K) : Call K → Option (Result K × FIR K)
  | .setNumFIRs n _ => some (.code (f.setNumFIRs n).1, (f.setNumFIRs n).2)
  | .setNumFIRsamples n _ => some (.code (f.setNumFIRsamples n).1, (f.setNumFIRsamples n).2)
  | .setUpsampleRatio n _ => do
    let (c, f) ← f.setUpsampleRatio n
    some (.code c, f)
  | .loadFIRs filterCoeffs =>
    match f.loadFIRs filterCoeffs with
    | .error e => some (.exception e, f)
    | .ok f => some (.done, f)
  | .process input => do
    let (out, f) ← f.process input
    some (.samples out, f)

/-- A filter together with the blocks that it has processed. -/
structure Session (K : Type) where
  filter : FIR K
  blocks : ℕ
  input : ℕ → K

/-- The samples of the input including a further block. -/
def Session.inputWith (s : Session K) (block : ℕ → K) : ℕ → K :=
  continued s.input (nBlockSamples * s.blocks) block

def Session.start (K : Type) [CommRing K] : Session K := ⟨create K, 0, fun _ => 0⟩

def Session.step (c : Call K) (s : Session K) : Option (Session K) := do
  let (_, f) ← s.filter.call c
  match c with
  | .process block => some ⟨f, s.blocks + 1, s.inputWith block⟩
  | _ => some ⟨f, s.blocks, s.input⟩

/-- With this length and this ratio, the oldest sample that is needed for a block is in the buffer
when the block has been written. -/
def CanHold (nFIRsamples nUpsample : ℕ) : Prop :=
  (nFIRsamples - 1) * nUpsample + nBlockSamples ≤ nBufferSamples

/-- Sample `n` of output `k` is the convolution with the upsampled impulse response. -/
def Session.convolution (s : Session K) (block : ℕ → K) (k n : ℕ) : K :=
  ∑ j ∈ Finset.range s.filter.nFIRsamples,
    s.filter.B.get k j * past (s.inputWith block) (nBlockSamples * s.blocks + n)
      (j * s.filter.nUpsample)

/-- What a call is meant to do: it is defined, blocks are convolved, and a combination of length
and ratio for which the buffer is too small is refused. -/
def ConformsAt (c : Call K) (s : Session K) : Prop :=
  ∃ result f, s.filter.call c = some (result, f) ∧
    match c with
    | .process block =>
      ∃ out, result = .samples out ∧
        ∀ k < s.filter.nFIRs, ∀ n < nBlockSamples, out k n = s.convolution block k n
    | .loadFIRs filterCoeffs =>
      (result = .done ∧ ∀ k < f.nFIRs, ∀ j < f.nFIRsamples,
        f.B.get k j = filterCoeffs.get k j) ∨ (∃ e, result = .exception e) ∧ f = s.filter
    | .setNumFIRsamples n _ =>
      ¬CanHold n s.filter.nUpsample → result ≠ .code 0 ∧ f = s.filter
    | .setUpsampleRatio n _ =>
      ¬CanHold s.filter.nFIRsamples n → result ≠ .code 0 ∧ f = s.filter
    | _ => True

/-- The length fits when it is set, and no product overflows. -/
def Fits (c : Call K) (s : Session K) : Prop :=
  match c with
  | .setNumFIRsamples n _ => CanHold n s.filter.nUpsample
  | .setUpsampleRatio n _ => n * s.filter.nFIRsamples < 2 ^ 31
  | _ => True

end Sessions

/-! ### Positions in the buffer -/

section Positions

variable {K : Type} {f : FIR K}

/-- Where a sample of some age is, `n` samples after the beginning of a block. -/
def position (f : FIR K) (n age : ℕ) : ℤ :=
  if age ≤ f.iBuf + n then f.iBuf + n - age else f.iBuf + n + nBufferSamples - age

theorem position_zero (n : ℕ) : f.position n 0 = f.iBuf + n := by
  simp [position]

/-- A single wrap-around suffices as long as the samples are in the buffer. -/
theorem previous_position {n age : ℕ} (h : age + f.nUpsample + nBlockSamples ≤ nBufferSamples) :
    f.previous (f.position n age) = f.position n (age + f.nUpsample) := by
  unfold previous position
  dsimp only
  push_cast
  by_cases hwrapped : age ≤ f.iBuf + n
  · rw [if_pos hwrapped]
    by_cases hnext : age + f.nUpsample ≤ f.iBuf + n
    · rw [if_neg (by omega), if_pos hnext]
      omega
    · rw [if_pos (by omega), if_neg hnext]
      omega
  · rw [if_neg hwrapped, if_neg (by omega), if_neg (by omega)]
    omega

/-- The buffer has room for a block. -/
def HasRoom (f : FIR K) : Prop := f.iBuf + nBlockSamples ≤ nBufferSamples

theorem bufferAt_position (hroom : f.HasRoom) {n age : ℕ} (hn : n < nBlockSamples)
    (hage : age + nBlockSamples ≤ nBufferSamples) :
    f.bufferAt (f.position n age) = some (f.inBuffer (f.position n age).toNat) := by
  unfold HasRoom at hroom
  apply if_pos
  unfold position
  split <;> omega

end Positions

/-! ### A block -/

section Blocks

variable {K : Type} [CommRing K] {f : FIR K}

omit [CommRing K] in
theorem setInput_eq (hroom : f.HasRoom) (input : ℕ → K) {n : ℕ} (hn : n ≤ nBlockSamples) :
    f.setInput input n = some (overwrite f.inBuffer f.iBuf n input) := by
  unfold HasRoom at hroom
  induction n with
  | zero =>
    refine congrArg some (funext fun p => ?_)
    exact (if_neg (by omega)).symm
  | succ n ih =>
    rw [setInput, ih (by omega)]
    dsimp only [Option.bind_eq_bind, Option.bind_some]
    rw [if_pos (by omega)]
    refine congrArg some (funext fun p => ?_)
    unfold overwrite
    by_cases hlast : p = f.iBuf + n
    · rw [if_pos (by omega), if_pos (by omega), hlast, Nat.add_sub_cancel_left]
    · rw [if_neg (by omega)]
      by_cases hbefore : f.iBuf ≤ p ∧ p < f.iBuf + n
      · rw [if_pos hbefore, if_pos (by omega)]
      · rw [if_neg hbefore, if_neg (by omega)]

theorem accumulate_eq {iBuf : ℤ} {x : K} (hx : f.bufferAt iBuf = some x) (j n : ℕ) (out : ℕ → K) :
    f.accumulate j iBuf n out =
      some fun k => if k < n then out k + f.B.get k j * x else out k := by
  induction n with
  | zero => rfl
  | succ n ih =>
    rw [accumulate, ih, hx]
    dsimp only [Option.bind_eq_bind, Option.bind_some]
    refine congrArg some (funext fun k => ?_)
    by_cases hk : k = n
    · rw [if_pos hk, if_neg (by omega), if_pos (by omega)]
    · rw [if_neg hk]
      by_cases hlt : k < n
      · rw [if_pos hlt, if_pos (by omega)]
      · rw [if_neg hlt, if_neg (by omega)]

/-- The value that a tap is multiplied by. -/
def tapValue (f : FIR K) (i j : ℕ) : K := f.inBuffer (f.position i (j * f.nUpsample)).toNat

/-- **The loop over the taps.**  The position after the last of them is not used. -/
theorem convolve_eq (hroom : f.HasRoom) {i : ℕ} (hi : i < nBlockSamples) {n j : ℕ}
    (hhold : CanHold (j + n) f.nUpsample) (out : ℕ → K) {iBuf : ℤ}
    (hpos : n ≠ 0 → iBuf = f.position i (j * f.nUpsample)) :
    f.convolve n j iBuf out = some fun k =>
      if k < f.nFIRs then out k + ∑ m ∈ Finset.range n, f.B.get k (j + m) * f.tapValue i (j + m)
      else out k := by
  induction n generalizing j out iBuf with
  | zero => simp [convolve]
  | succ n ih =>
    have hlast : (j + n) * f.nUpsample + nBlockSamples ≤ nBufferSamples := hhold
    have hage : j * f.nUpsample ≤ (j + n) * f.nUpsample := Nat.mul_le_mul_right _ (by omega)
    rw [convolve, hpos n.succ_ne_zero,
      accumulate_eq (bufferAt_position hroom hi (by omega))]
    dsimp only [Option.bind_eq_bind, Option.bind_some]
    rw [ih (by rw [Nat.add_right_comm]; exact hhold)]
    · refine congrArg some (funext fun k => ?_)
      by_cases hk : k < f.nFIRs
      · rw [if_pos hk, if_pos hk, if_pos hk, Finset.sum_range_succ', add_assoc, add_comm (_ * _)]
        simp only [Nat.add_zero, Nat.add_assoc, Nat.add_comm 1]
        rfl
      · rw [if_neg hk, if_neg hk, if_neg hk]
    · intro hn
      have hnext : (j + 1) * f.nUpsample ≤ (j + n) * f.nUpsample :=
        Nat.mul_le_mul_right _ (by omega)
      rw [Nat.succ_mul] at hnext ⊢
      exact previous_position (by omega)

theorem outputs_eq (hroom : f.HasRoom) (hhold : CanHold f.nFIRsamples f.nUpsample) {n : ℕ}
    (hn : n ≤ nBlockSamples) : ∃ out, f.outputs n = some out ∧
      ∀ k < f.nFIRs, ∀ i < n,
        out k i = ∑ j ∈ Finset.range f.nFIRsamples, f.B.get k j * f.tapValue i j := by
  induction n with
  | zero => exact ⟨_, rfl, fun k _ i hi => absurd hi (Nat.not_lt_zero i)⟩
  | succ n ih =>
    obtain ⟨out, hout, hvalues⟩ := ih (by omega)
    have hsample := convolve_eq hroom (show n < nBlockSamples by omega) (n := f.nFIRsamples)
      (j := 0) (by rw [Nat.zero_add]; exact hhold) (fun _ => 0)
      (show f.nFIRsamples ≠ 0 → (f.iBuf + n : ℤ) = f.position n (0 * f.nUpsample) from
        fun _ => by rw [Nat.zero_mul, position_zero])
    rw [outputs, hout]
    dsimp only [Option.bind_eq_bind, Option.bind_some]
    rw [hsample]
    refine ⟨_, rfl, fun k hk i hi => ?_⟩
    by_cases hlast : i = n
    · subst hlast
      simp [hk]
    · rw [if_neg hlast]
      exact hvalues k hk i (by omega)

end Blocks

/-! ### The invariant -/

section Invariant

variable {K : Type} [CommRing K] {s s' : Session K}

/-- The buffer holds the input before the next block, which begins at a multiple of the size of a
block. -/
structure Inv (s : Session K) : Prop where
  rows : s.filter.B.numberOfRows = s.filter.nFIRs
  columns : s.filter.B.numberOfColumns = s.filter.nFIRsamples
  canHold : CanHold s.filter.nFIRsamples s.filter.nUpsample
  start : ∃ m ≤ maxnFIRblocks, s.filter.iBuf = nBlockSamples * m
  recorded : ∀ age, 0 < age → age ≤ nBufferSamples →
    s.filter.inBuffer (s.filter.position 0 age).toNat = past s.input (nBlockSamples * s.blocks) age

theorem inv_start : Inv (Session.start K) where
  rows := rfl
  columns := rfl
  canHold := show (0 - 1) * 1 + nBlockSamples ≤ nBufferSamples by decide
  start := ⟨0, by decide, rfl⟩
  recorded age hage _ := (Signal.past_of_lt _ hage).symm

namespace Inv

theorem hasRoom (h : Inv s) : s.filter.HasRoom := by
  obtain ⟨m, hm, hstart⟩ := h.start
  unfold HasRoom nBufferSamples
  rw [hstart, ← Nat.mul_succ]
  exact Nat.mul_le_mul_left _ (by omega)

/-- The samples that are found in the buffer after a block has been written. -/
theorem overwritten (h : Inv s) (block : ℕ → K) {n age : ℕ} (hn : n - age < nBlockSamples)
    (hage : age + nBlockSamples ≤ nBufferSamples + n) :
    overwrite s.filter.inBuffer s.filter.iBuf nBlockSamples block
        (s.filter.position n age).toNat =
      past (s.inputWith block) (nBlockSamples * s.blocks + n) age := by
  have hroom := h.hasRoom
  unfold HasRoom at hroom
  by_cases hle : age ≤ n
  · -- a sample of the block
    have hpos : (s.filter.position n age).toNat = s.filter.iBuf + (n - age) := by
      unfold position
      rw [if_pos (by omega)]
      omega
    rw [hpos, overwrite_inside _ _ _ (by omega), Signal.past_of_le _ (by omega),
      Nat.add_sub_assoc hle, Session.inputWith, Signal.continued_add]
  · -- an older sample
    obtain ⟨a, rfl⟩ : ∃ a, age = a + n := ⟨age - n, by omega⟩
    have hpos : s.filter.position n (a + n) = s.filter.position 0 a := by
      unfold position
      split <;> split <;> omega
    rw [hpos, overwrite_outside, h.recorded a (by omega) (by omega), Signal.past_add_add]
    · refine Signal.past_congr (fun t ht => ?_) (by omega)
      exact (Signal.continued_of_lt _ _ ht).symm
    · unfold position
      split <;> omega

/-- **A block of outputs.** -/
theorem process (h : Inv s) (block : ℕ → K) :
    ∃ out f, s.filter.process block = some (out, f) ∧
      (∀ k < s.filter.nFIRs, ∀ n < nBlockSamples, out k n = s.convolution block k n) ∧
      Inv ⟨f, s.blocks + 1, s.inputWith block⟩ := by
  have hroom := h.hasRoom
  unfold FIR.process
  rw [setInput_eq hroom block le_rfl]
  dsimp only [Option.bind_eq_bind, Option.bind_some]
  obtain ⟨out, hout, hvalues⟩ := outputs_eq (n := nBlockSamples)
    (f := { s.filter with
      inBuffer := overwrite s.filter.inBuffer s.filter.iBuf nBlockSamples block })
    hroom h.canHold le_rfl
  rw [hout]
  refine ⟨out, _, rfl, fun k hk n hn => ?_, ?_⟩
  · rw [hvalues k hk n hn]
    refine Finset.sum_congr rfl fun j hj => congrArg _ ?_
    have hcanHold := h.canHold
    unfold CanHold at hcanHold
    have hle : j * s.filter.nUpsample ≤ (s.filter.nFIRsamples - 1) * s.filter.nUpsample := by
      have hlt : j < s.filter.nFIRsamples := Finset.mem_range.mp hj
      exact Nat.mul_le_mul_right _ (by omega)
    have hage : j * s.filter.nUpsample + nBlockSamples ≤ nBufferSamples + n := by omega
    exact h.overwritten block (by omega) hage
  · obtain ⟨m, hm, hstart⟩ := h.start
    unfold HasRoom at hroom
    refine ⟨h.rows, h.columns, h.canHold, ?_, fun age hpos hage => ?_⟩
    · -- the next block
      dsimp only
      split
      next => exact ⟨0, Nat.zero_le _, rfl⟩
      next hlt =>
        rw [hstart, ← Nat.mul_succ] at hlt ⊢
        have hsucc : m + 1 < maxnFIRblocks + 1 :=
          Nat.lt_of_mul_lt_mul_left (Nat.not_le.mp hlt)
        exact ⟨m + 1, by omega, rfl⟩
    · have hblock : 0 < nBlockSamples := by decide
      refine Eq.trans ?_ (h.overwritten block (n := nBlockSamples) (by omega) (by omega))
      refine congrArg (overwrite _ _ _ _ ∘ Int.toNat) ?_
      unfold position
      dsimp only
      split <;> split <;> split <;> omega

/-- Other calls leave the buffer as it is. -/
theorem configured (h : Inv s) {f : FIR K} (hbuffer : f.inBuffer = s.filter.inBuffer)
    (hiBuf : f.iBuf = s.filter.iBuf) (hrows : f.B.numberOfRows = f.nFIRs)
    (hcolumns : f.B.numberOfColumns = f.nFIRsamples) (hhold : CanHold f.nFIRsamples f.nUpsample) :
    Inv ⟨f, s.blocks, s.input⟩ where
  rows := hrows
  columns := hcolumns
  canHold := hhold
  start := hiBuf ▸ h.start
  recorded age hpos hage := by
    have hposition : f.position 0 age = s.filter.position 0 age := by
      unfold position
      rw [hiBuf]
    dsimp only
    rw [hbuffer, hposition]
    exact h.recorded age hpos hage

theorem setUpsampleRatio (h : Inv s) {n : ℕ} (hfits : n * s.filter.nFIRsamples < 2 ^ 31) :
    ∃ c f, s.filter.setUpsampleRatio n = some (c, f) ∧
      (¬CanHold s.filter.nFIRsamples n → c ≠ 0 ∧ f = s.filter) ∧
      Inv ⟨f, s.blocks, s.input⟩ := by
  unfold FIR.setUpsampleRatio
  rw [if_neg (by omega)]
  split
  next => exact ⟨_, _, rfl, fun _ => ⟨by decide, rfl⟩, h⟩
  next hle =>
    have hhold : CanHold s.filter.nFIRsamples n := by
      have hmul : (s.filter.nFIRsamples - 1) * n ≤ n * s.filter.nFIRsamples := by
        rw [Nat.mul_comm]
        exact Nat.mul_le_mul_left _ (by omega)
      unfold CanHold nBufferSamples
      rw [Nat.mul_succ]
      exact Nat.add_le_add_right (hmul.trans (Nat.not_lt.mp hle)) _
    exact ⟨_, _, rfl, fun hnot => absurd hhold hnot, h.configured rfl rfl h.rows h.columns hhold⟩

theorem loadFIRs (h : Inv s) (filterCoeffs : Efl.BasicMatrix K) :
    (∃ f, s.filter.loadFIRs filterCoeffs = .ok f ∧ Inv ⟨f, s.blocks, s.input⟩ ∧
      ∀ k < f.nFIRs, ∀ j < f.nFIRsamples, f.B.get k j = filterCoeffs.get k j) ∨
      ∃ e, s.filter.loadFIRs filterCoeffs = .error e := by
  unfold FIR.loadFIRs
  split
  next => exact Or.inr ⟨_, rfl⟩
  next hdim =>
    obtain ⟨hrows, hcolumns⟩ := not_or.mp hdim
    rw [not_not] at hrows hcolumns
    obtain ⟨B, hB, hBrows, hBcolumns, hvalues⟩ := Efl.BasicMatrix.copy_spec
      (h.rows.trans hrows.symm) (h.columns.trans hcolumns.symm)
    rw [hB]
    refine Or.inl ⟨_, rfl, h.configured rfl rfl (hBrows.trans hrows) (hBcolumns.trans hcolumns)
      h.canHold, fun k hk j hj => ?_⟩
    exact hvalues k (hrows ▸ hk) j (hcolumns ▸ hj)

/-- **A call that fits** does what it is meant to do, and the next one finds the invariant. -/
theorem conforms (h : Inv s) {c : Call K} (hfits : Fits c s) :
    ConformsAt c s ∧ ∀ s', s.step c = some s' → Inv s' := by
  -- each call is one of the invariant's own lemmas, apart from the form of its result
  cases c with
  | setNumFIRs n hn =>
    refine ⟨⟨_, _, rfl, trivial⟩, fun s' hs' => ?_⟩
    cases hs'
    exact h.configured rfl rfl rfl rfl h.canHold
  | setNumFIRsamples n hn =>
    refine ⟨⟨_, _, rfl, fun hnot => absurd hfits hnot⟩, fun s' hs' => ?_⟩
    cases hs'
    exact h.configured rfl rfl rfl rfl hfits
  | setUpsampleRatio n hn =>
    obtain ⟨c, f, hcall, hrefused, hinv⟩ := h.setUpsampleRatio hfits
    have hok : s.filter.call (.setUpsampleRatio n hn) = some (.code c, f) := by
      rw [call, hcall]
      rfl
    refine ⟨⟨_, _, hok, fun hnot => ?_⟩, fun s' hs' => ?_⟩
    · obtain ⟨hc, hf⟩ := hrefused hnot
      exact ⟨fun heq => hc (Result.code.inj heq), hf⟩
    · rw [Session.step, hok] at hs'
      cases hs'
      exact hinv
  | loadFIRs filterCoeffs =>
    rcases h.loadFIRs filterCoeffs with ⟨f, hload, hinv, hvalues⟩ | ⟨e, hload⟩
    · have hok : s.filter.call (.loadFIRs filterCoeffs) = some (.done, f) := by
        rw [call, hload]
      refine ⟨⟨_, _, hok, Or.inl ⟨rfl, hvalues⟩⟩, fun s' hs' => ?_⟩
      rw [Session.step, hok] at hs'
      cases hs'
      exact hinv
    · have hok : s.filter.call (.loadFIRs filterCoeffs) = some (.exception e, s.filter) := by
        rw [call, hload]
      refine ⟨⟨_, _, hok, Or.inr ⟨⟨e, rfl⟩, rfl⟩⟩, fun s' hs' => ?_⟩
      rw [Session.step, hok] at hs'
      cases hs'
      exact h
  | process block =>
    obtain ⟨out, f, hprocess, hvalues, hinv⟩ := h.process block
    have hok : s.filter.call (.process block) = some (.samples out, f) := by
      rw [call, hprocess]
      rfl
    refine ⟨⟨_, _, hok, out, rfl, hvalues⟩, fun s' hs' => ?_⟩
    rw [Session.step, hok] at hs'
    cases hs'
    exact hinv

end Inv

/-- A call that does not fit is not refused, or its behaviour is not defined. -/
theorem ConformsAt.fits {c : Call K} (h : ConformsAt c s) : Fits c s := by
  obtain ⟨result, f, hcall, hmeant⟩ := h
  cases c with
  | setNumFIRsamples n hn =>
    cases hcall
    by_contra hnot
    exact (hmeant hnot).1 rfl
  | setUpsampleRatio n hn =>
    refine Nat.not_le.mp fun hle => ?_
    rw [call, FIR.setUpsampleRatio, if_pos hle] at hcall
    cases hcall
  | setNumFIRs | loadFIRs | process => trivial

/-- **When all calls conform.**  The setter of the length accepts any value, so this depends on the
order of the calls; the setter of the ratio refuses what does not fit, unless the product
overflows. -/
theorem conforms_iff (calls : List (Call K)) :
    Throughout Session.step ConformsAt calls (Session.start K) ↔
      Throughout Session.step Fits calls (Session.start K) := by
  constructor
  · exact throughout_mono fun c s h => h.fits
  · intro h
    refine throughout_of_invariant (I := Inv) (fun c s s' hfits hinv => ?_)
      (fun c s hfits hinv => ?_) h inv_start
    · exact (hinv.conforms hfits).2 s'
    · exact (hinv.conforms hfits).1

end Invariant

/-- If the ratio is set first, the buffer may be too small for the length. -/
theorem not_conforms_ratio_first :
    ¬Throughout Session.step ConformsAt
      [Call.setUpsampleRatio 100 (by decide), Call.setNumFIRsamples 100 (by decide)]
      (Session.start ℤ) := by
  intro h
  have hlast := (h.2 _ rfl).1.fits
  have hsize : ¬(100 - 1) * 100 + nBlockSamples ≤ nBufferSamples := by decide
  exact hsize hlast

end FIR

end Visr
