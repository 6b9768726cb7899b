import Visr.Librbbl.CoreConvolverUniform

/-!
# Multichannel partitioned convolution

A convolver with a routing table: each entry leads an input through a filter and a gain to
an output.

## Main results

* `run_output` — what the convolver computes for all filters and routings.
* `run_convolves_iff` — **the output is the direct convolution exactly if** the forward
  transform is not scaled and all partitions with non-zero coefficients are loaded.
-/

namespace Visr

open Dft

variable {R C : Type} [Field R] [CommRing C] [Algebra R C]

structure RoutingEntry (R : Type) where
  inputIdx : ℕ
  outputIdx : ℕ
  filterIdx : ℕ
  gainLinear : R

/-- The order of the routing table. -/
def compareRoutings {R : Type} (lhs rhs : RoutingEntry R) : Bool :=
  if lhs.outputIdx = rhs.outputIdx then lhs.inputIdx < rhs.inputIdx
  else lhs.outputIdx < rhs.outputIdx

/-- Two entries that are equivalent in the order of the table. -/
def equivalentRoutings {R : Type} (lhs rhs : RoutingEntry R) : Bool :=
  !compareRoutings lhs rhs && !compareRoutings rhs lhs

theorem equivalentRoutings_iff {R : Type} (lhs rhs : RoutingEntry R) :
    equivalentRoutings lhs rhs = true ↔
      lhs.outputIdx = rhs.outputIdx ∧ lhs.inputIdx = rhs.inputIdx := by
  unfold equivalentRoutings compareRoutings
  by_cases h : lhs.outputIdx = rhs.outputIdx
  · rw [if_pos h, if_pos h.symm]
    simp only [Bool.and_eq_true, Bool.not_eq_true', decide_eq_false_iff_not]
    omega
  · rw [if_neg h, if_neg (Ne.symm h)]
    simp only [Bool.and_eq_true, Bool.not_eq_true', decide_eq_false_iff_not]
    omega

/-- The table, whose entries are in range and belong to different pairs of an input and
an output. -/
structure RoutingTable (p : ConvolverParameters R C) where
  entries : List (RoutingEntry R)
  unique : entries.Pairwise fun a b => ¬equivalentRoutings a b
  in_range : ∀ e ∈ entries, e.inputIdx < p.numberOfInputs ∧ e.outputIdx < p.numberOfOutputs ∧
    e.filterIdx < p.maxNumberOfFilterEntries

namespace RoutingTable

variable {p : ConvolverParameters R C}

def empty : RoutingTable p := ⟨[], List.Pairwise.nil, by simp⟩

/-- Inserts an entry before the first greater one. -/
def insertEntry {R : Type} (newEntry : RoutingEntry R) :
    List (RoutingEntry R) → List (RoutingEntry R)
  | [] => [newEntry]
  | e :: entries =>
      if compareRoutings newEntry e then newEntry :: e :: entries
      else e :: insertEntry newEntry entries

theorem insertEntry_perm {R : Type} (newEntry : RoutingEntry R) (entries : List (RoutingEntry R)) :
    (insertEntry newEntry entries).Perm (newEntry :: entries) := by
  induction entries with
  | nil => exact List.Perm.refl _
  | cons e entries ih =>
    unfold insertEntry
    split
    · exact List.Perm.refl _
    · exact (ih.cons e).trans (List.Perm.swap newEntry e entries)

/-- The entries other than the one for the same input and output. -/
def others (table : RoutingTable p) (newEntry : RoutingEntry R) : List (RoutingEntry R) :=
  table.entries.eraseP fun e => equivalentRoutings e newEntry

theorem mem_of_mem_others {table : RoutingTable p} {newEntry e : RoutingEntry R}
    (h : e ∈ table.others newEntry) : e ∈ table.entries :=
  List.mem_of_mem_eraseP h

theorem not_equivalent_of_mem_others {table : RoutingTable p} {newEntry e : RoutingEntry R}
    (h : e ∈ table.others newEntry) : ¬equivalentRoutings newEntry e := by
  intro heq
  have hkey := (equivalentRoutings_iff _ _).mp heq
  have hself : equivalentRoutings e newEntry = true :=
    (equivalentRoutings_iff _ _).mpr ⟨hkey.1.symm, hkey.2.symm⟩
  unfold others at h
  rcases List.exists_or_eq_self_of_eraseP (fun e => equivalentRoutings e newEntry) table.entries
    with hnone | ⟨found, before, after, hbefore, hfound, hentries, herase⟩
  · -- no equivalent entry has been found
    rw [hnone] at h
    exact List.eraseP_eq_self_iff.mp hnone e h hself
  · -- the only equivalent entry has been removed
    rw [herase] at h
    cases List.mem_append.mp h with
    | inl hmem => exact hbefore e hmem hself
    | inr hmem =>
      have hunique := table.unique
      rw [hentries] at hunique
      have hpair := (List.pairwise_cons.mp (List.pairwise_append.mp hunique).2.1).1 e hmem
      have hfoundKey := (equivalentRoutings_iff _ _).mp hfound
      exact hpair ((equivalentRoutings_iff _ _).mpr
        ⟨hfoundKey.1.trans hkey.1, hfoundKey.2.trans hkey.2⟩)

/-- The table with one entry replaced or added. -/
def set (table : RoutingTable p) (newEntry : RoutingEntry R)
    (h : newEntry.inputIdx < p.numberOfInputs ∧ newEntry.outputIdx < p.numberOfOutputs ∧
      newEntry.filterIdx < p.maxNumberOfFilterEntries) : RoutingTable p where
  entries := insertEntry newEntry (table.others newEntry)
  unique := by
    have hcons : (newEntry :: table.others newEntry).Pairwise
        fun a b => ¬equivalentRoutings a b :=
      List.pairwise_cons.mpr ⟨fun _ => not_equivalent_of_mem_others, table.unique.eraseP _⟩
    refine (insertEntry_perm newEntry _).symm.pairwise hcons ?_
    intro a b hab hba
    have hkey := (equivalentRoutings_iff _ _).mp hba
    exact hab ((equivalentRoutings_iff _ _).mpr ⟨hkey.1.symm, hkey.2.symm⟩)
  in_range := by
    intro e he
    cases List.mem_cons.mp ((insertEntry_perm newEntry _).mem_iff.mp he) with
    | inl heq => rw [heq]; exact h
    | inr hmem => exact table.in_range e (mem_of_mem_others hmem)

/-- An entry for a new pair of an input and an output replaces none. -/
theorem others_of_new {table : RoutingTable p} {newEntry : RoutingEntry R}
    (h : ∀ e ∈ table.entries, ¬equivalentRoutings e newEntry) :
    table.others newEntry = table.entries :=
  List.eraseP_of_forall_not h

theorem mem_set {table : RoutingTable p} {newEntry e : RoutingEntry R}
    (h : newEntry.inputIdx < p.numberOfInputs ∧ newEntry.outputIdx < p.numberOfOutputs ∧
      newEntry.filterIdx < p.maxNumberOfFilterEntries) :
    e ∈ (table.set newEntry h).entries ↔ e = newEntry ∨ e ∈ table.others newEntry :=
  (insertEntry_perm newEntry _).mem_iff.trans List.mem_cons

theorem length_set {table : RoutingTable p} {newEntry : RoutingEntry R}
    (h : newEntry.inputIdx < p.numberOfInputs ∧ newEntry.outputIdx < p.numberOfOutputs ∧
      newEntry.filterIdx < p.maxNumberOfFilterEntries) :
    (table.set newEntry h).entries.length = (table.others newEntry).length + 1 :=
  (insertEntry_perm newEntry _).length_eq

/-- The table without the entry for an input and an output. -/
def erase (table : RoutingTable p) (testEntry : RoutingEntry R) : RoutingTable p where
  entries := table.entries.filter fun e => !equivalentRoutings e testEntry
  unique := table.unique.filter _
  in_range e he := table.in_range e (List.mem_of_mem_filter he)

end RoutingTable

/-- The convolver.  The frequency-domain outputs are left out: `process` clears them. -/
structure MultichannelConvolverUniform (p : ConvolverParameters R C) (maxRoutingPoints : ℕ) where
  coreConvolver : CoreConvolverUniform p
  routingTable : RoutingTable p

namespace MultichannelConvolverUniform

variable {p : ConvolverParameters R C} {maxRoutingPoints : ℕ}

def clearRoutingTable (c : MultichannelConvolverUniform p maxRoutingPoints) :
    MultichannelConvolverUniform p maxRoutingPoints :=
  { c with routingTable := .empty }

def setRoutingEntry (c : MultichannelConvolverUniform p maxRoutingPoints)
    (routing : RoutingEntry R) : Except Exception (MultichannelConvolverUniform p maxRoutingPoints) :=
  if hin : routing.inputIdx ≥ p.numberOfInputs then
    .error (.invalidArgument
      "CoreConvolverUniform::setRoutingEntry(): Input index exceeds the admissible range.")
  else if hout : routing.outputIdx ≥ p.numberOfOutputs then
    .error (.invalidArgument
      "CoreConvolverUniform::setRoutingEntry(): Output index exceeds the admissible range.")
  else if hfilter : routing.filterIdx ≥ p.maxNumberOfFilterEntries then
    .error (.invalidArgument
      "CoreConvolverUniform::setRoutingEntry(): Filter index exceeds the admissible range.")
  else if (c.routingTable.others routing).length ≥ maxRoutingPoints then
    .error (.invalidArgument ("CoreConvolverUniform::setRoutingEntry(): Maximum number of " ++
      "routing points already reached."))
  else
    .ok { c with
      routingTable := c.routingTable.set routing
        ⟨Nat.lt_of_not_ge hin, Nat.lt_of_not_ge hout, Nat.lt_of_not_ge hfilter⟩ }

/-- The result compares the start of the range that has been erased with the end of the
table: it tells whether some entry does not precede the range. -/
def removeRoutingEntry (c : MultichannelConvolverUniform p maxRoutingPoints)
    (inputIdx outputIdx : ℕ) : Bool × MultichannelConvolverUniform p maxRoutingPoints :=
  let testEntry : RoutingEntry R := ⟨inputIdx, outputIdx, 0, 0⟩
  (c.routingTable.entries.any fun e => !compareRoutings e testEntry,
    { c with routingTable := c.routingTable.erase testEntry })

def initRoutingTable (c : MultichannelConvolverUniform p maxRoutingPoints)
    (routings : List (RoutingEntry R)) :
    Except Exception (MultichannelConvolverUniform p maxRoutingPoints) :=
  if routings.length > maxRoutingPoints then
    .error (.invalidArgument ("MultichannelConvolverUniform:initRoutingTable() exceeds the " ++
      "maximum admissible number of elements "))
  else routings.foldlM setRoutingEntry c.clearRoutingTable

/-- The constructor. -/
def create (p : ConvolverParameters R C) (maxRoutingPoints : ℕ)
    (initialRoutings : List (RoutingEntry R)) (initialFilters : BasicMatrix R) :
    Except Exception (MultichannelConvolverUniform p maxRoutingPoints) := do
  let coreConvolver ← CoreConvolverUniform.create p initialFilters
  initRoutingTable { coreConvolver := coreConvolver, routingTable := .empty } initialRoutings

def clearFilters (c : MultichannelConvolverUniform p maxRoutingPoints) :
    MultichannelConvolverUniform p maxRoutingPoints :=
  { c with coreConvolver := c.coreConvolver.clearFilters }

def initFilters (c : MultichannelConvolverUniform p maxRoutingPoints)
    (newFilters : BasicMatrix R) :
    Except Exception (MultichannelConvolverUniform p maxRoutingPoints) := do
  let coreConvolver ← c.coreConvolver.initFilters newFilters
  pure { c with coreConvolver := coreConvolver }

def setImpulseResponse (c : MultichannelConvolverUniform p maxRoutingPoints)
    (r : ImpulseResponse R) (filterIdx : ℕ) :
    Except Exception (MultichannelConvolverUniform p maxRoutingPoints) := do
  let coreConvolver ← c.coreConvolver.setImpulseResponse r filterIdx
  pure { c with coreConvolver := coreConvolver }

/-- One step of the loop over the routing table, which adds to a row of the
frequency-domain outputs. -/
def processRouting (core : CoreConvolverUniform p) (frequencyDomainOutput : ℕ → ℕ → C)
    (routing : RoutingEntry R) : Except Fault (ℕ → ℕ → C) := do
  let row ← core.processFilter routing.inputIdx routing.filterIdx routing.gainLinear
    (frequencyDomainOutput routing.outputIdx) true
  pure (Function.update frequencyDomainOutput routing.outputIdx row)

/-- The samples stored at the output pointers, by output and sample. -/
def processOutputs (c : MultichannelConvolverUniform p maxRoutingPoints) :
    Except Fault (ℕ → ℕ → R) := do
  let frequencyDomainOutput ← c.routingTable.entries.foldlM (processRouting c.coreConvolver)
    fun _ _ => 0
  pure fun outputIdx => CoreConvolverUniform.transformOutput p (frequencyDomainOutput outputIdx)

def process (c : MultichannelConvolverUniform p maxRoutingPoints) (input : ℕ → ℕ → R) :
    Except Fault (MultichannelConvolverUniform p maxRoutingPoints × (ℕ → ℕ → R)) := do
  let coreConvolver ← c.coreConvolver.processInputs input
  let processed := { c with coreConvolver := coreConvolver }
  let output ← processed.processOutputs
  pure (processed, output)

/-- Processes the first blocks of the input signals one after the other, each into its
place in the output signals. -/
def run (c : MultichannelConvolverUniform p maxRoutingPoints) (input : ℕ → ℕ → R) :
    ℕ → Except Fault (MultichannelConvolverUniform p maxRoutingPoints × (ℕ → ℕ → R))
  | 0 => .ok (c, fun _ _ => 0)
  | numBlocks + 1 => do
      let (before, output) ← run c input numBlocks
      let (after, block) ← before.process fun ch k => input ch (numBlocks * p.blockLength + k)
      pure (after, fun outputIdx =>
        if outputIdx < p.numberOfOutputs then
          overwrite (output outputIdx) (numBlocks * p.blockLength) p.blockLength (block outputIdx)
        else output outputIdx)

/-! ### The states before the first block -/

/-- The states reached from the constructor by operations on filters and routings, with
the impulse response last loaded for each filter. -/
inductive Configured :
    MultichannelConvolverUniform p maxRoutingPoints → (ℕ → ImpulseResponse R) → Prop
  | create {c} (initialRoutings : List (RoutingEntry R)) (initialFilters : BasicMatrix R)
      (h : create p maxRoutingPoints initialRoutings initialFilters = .ok c) :
      Configured c
        (CoreConvolverUniform.rowResponses initialFilters initialFilters.numberOfRows)
  | clearFilters {c filters} (h : Configured c filters) : Configured c.clearFilters fun _ => .none
  | initFilters {c c' filters} (newFilters : BasicMatrix R) (h : Configured c filters)
      (hstep : c.initFilters newFilters = .ok c') :
      Configured c' (CoreConvolverUniform.rowResponses newFilters newFilters.numberOfRows)
  | setImpulseResponse {c c' filters} (r : ImpulseResponse R) (filterIdx : ℕ)
      (h : Configured c filters) (hstep : c.setImpulseResponse r filterIdx = .ok c') :
      Configured c' (Function.update filters filterIdx r)
  | clearRoutingTable {c filters} (h : Configured c filters) :
      Configured c.clearRoutingTable filters
  | initRoutingTable {c c' filters} (routings : List (RoutingEntry R)) (h : Configured c filters)
      (hstep : c.initRoutingTable routings = .ok c') : Configured c' filters
  | setRoutingEntry {c c' filters} (routing : RoutingEntry R) (h : Configured c filters)
      (hstep : c.setRoutingEntry routing = .ok c') : Configured c' filters

/-- The convolver holds given filters and the past of given signals. -/
structure Holds (c : MultichannelConvolverUniform p maxRoutingPoints)
    (filters : ℕ → ImpulseResponse R) (signal : ℕ → ℕ → R) (time : ℕ) : Prop where
  filters : c.coreConvolver.HoldsFilters filters
  inputs : c.coreConvolver.HoldsInputs signal time

theorem setRoutingEntry_eq_ok {c c' : MultichannelConvolverUniform p maxRoutingPoints}
    {routing : RoutingEntry R} (h : c.setRoutingEntry routing = .ok c') :
    ∃ hrange, c' = { c with routingTable := c.routingTable.set routing hrange } := by
  unfold setRoutingEntry at h
  split at h
  · cases h
  next hin =>
    split at h
    · cases h
    next hout =>
      split at h
      · cases h
      next hfilter =>
        split at h
        · cases h
        · cases h
          exact ⟨⟨Nat.lt_of_not_ge hin, Nat.lt_of_not_ge hout, Nat.lt_of_not_ge hfilter⟩, rfl⟩

/-- An entry in range is set if there is room for it. -/
theorem setRoutingEntry_of_room (c : MultichannelConvolverUniform p maxRoutingPoints)
    (routing : RoutingEntry R) (hrange : routing.inputIdx < p.numberOfInputs ∧
      routing.outputIdx < p.numberOfOutputs ∧ routing.filterIdx < p.maxNumberOfFilterEntries)
    (hroom : (c.routingTable.others routing).length < maxRoutingPoints) :
    c.setRoutingEntry routing =
      .ok { c with routingTable := c.routingTable.set routing hrange } := by
  rw [setRoutingEntry, dif_neg (Nat.not_le.mpr hrange.1), dif_neg (Nat.not_le.mpr hrange.2.1),
    dif_neg (Nat.not_le.mpr hrange.2.2), if_neg (Nat.not_le.mpr hroom)]

theorem setRoutingEntry_eq_ok_iff (c : MultichannelConvolverUniform p maxRoutingPoints)
    (routing : RoutingEntry R) :
    (∃ c', c.setRoutingEntry routing = .ok c') ↔
      (routing.inputIdx < p.numberOfInputs ∧ routing.outputIdx < p.numberOfOutputs ∧
        routing.filterIdx < p.maxNumberOfFilterEntries) ∧
      (c.routingTable.others routing).length < maxRoutingPoints := by
  constructor
  · rintro ⟨c', hc'⟩
    obtain ⟨hrange, -⟩ := setRoutingEntry_eq_ok hc'
    refine ⟨hrange, Nat.not_le.mp fun hfull => ?_⟩
    rw [setRoutingEntry, dif_neg (Nat.not_le.mpr hrange.1), dif_neg (Nat.not_le.mpr hrange.2.1),
      dif_neg (Nat.not_le.mpr hrange.2.2), if_pos hfull] at hc'
    cases hc'
  · rintro ⟨hrange, hroom⟩
    exact ⟨_, setRoutingEntry_of_room c routing hrange hroom⟩

theorem setRoutingEntry_core {c c' : MultichannelConvolverUniform p maxRoutingPoints}
    {routing : RoutingEntry R} (h : c.setRoutingEntry routing = .ok c') :
    c'.coreConvolver = c.coreConvolver := by
  obtain ⟨_, rfl⟩ := setRoutingEntry_eq_ok h
  rfl

theorem foldlM_setRoutingEntry_core {routings : List (RoutingEntry R)} :
    ∀ {c c' : MultichannelConvolverUniform p maxRoutingPoints},
      routings.foldlM setRoutingEntry c = .ok c' → c'.coreConvolver = c.coreConvolver := by
  induction routings with
  | nil =>
    intro c c' h
    cases h
    rfl
  | cons routing routings ih =>
    intro c c' h
    rw [List.foldlM_cons] at h
    obtain ⟨next, hnext, hrest⟩ := exists_of_bind_ok h
    rw [ih hrest, setRoutingEntry_core hnext]

theorem initRoutingTable_core {c c' : MultichannelConvolverUniform p maxRoutingPoints}
    {routings : List (RoutingEntry R)} (h : c.initRoutingTable routings = .ok c') :
    c'.coreConvolver = c.coreConvolver := by
  unfold initRoutingTable at h
  split at h
  · cases h
  · have hfold := foldlM_setRoutingEntry_core h
    exact hfold

/-- Before the first block, the convolver holds the filters last loaded and silence. -/
theorem Configured.holds {c : MultichannelConvolverUniform p maxRoutingPoints}
    {filters : ℕ → ImpulseResponse R} (h : Configured c filters) (signal : ℕ → ℕ → R) :
    c.Holds filters signal 0 := by
  -- each call writes the filters or the routings, and never the input memory
  induction h with
  | create initialRoutings initialFilters h =>
    obtain ⟨core, hcore, hrest⟩ := exists_of_bind_ok h
    have heq := initRoutingTable_core hrest
    obtain ⟨hfilters, hinputs⟩ := CoreConvolverUniform.create_holds hcore signal
    constructor
    · rw [heq]; exact hfilters
    · rw [heq]; exact hinputs
  | clearFilters h ih =>
    exact ⟨CoreConvolverUniform.clearFilters_holds _, ih.inputs.of_same ⟨rfl, rfl, rfl⟩⟩
  | initFilters newFilters h hstep ih =>
    obtain ⟨core, hcore, heq⟩ := exists_of_bind_ok hstep
    cases heq
    obtain ⟨hfilters, hsame⟩ := CoreConvolverUniform.initFilters_holds hcore
    exact ⟨hfilters, ih.inputs.of_same hsame⟩
  | setImpulseResponse r filterIdx h hstep ih =>
    obtain ⟨core, hcore, heq⟩ := exists_of_bind_ok hstep
    cases heq
    exact ⟨CoreConvolverUniform.setImpulseResponse_holds ih.filters hcore,
      ih.inputs.of_same (CoreConvolverUniform.setImpulseResponse_inputs hcore)⟩
  | clearRoutingTable h ih => exact ⟨ih.filters, ih.inputs⟩
  | initRoutingTable routings h hstep ih =>
    have heq := initRoutingTable_core hstep
    constructor
    · rw [heq]; exact ih.filters
    · rw [heq]; exact ih.inputs
  | setRoutingEntry routing h hstep ih =>
    have heq := setRoutingEntry_core hstep
    constructor
    · rw [heq]; exact ih.filters
    · rw [heq]; exact ih.inputs

/-! ### One block -/

/-- The sum over the routing entries that lead to an output. -/
def routingSum (entries : List (RoutingEntry R)) (outputIdx : ℕ)
    (value : RoutingEntry R → R) : R :=
  ((entries.filter fun e => e.outputIdx = outputIdx).map fun e => e.gainLinear * value e).sum

theorem routingSum_cons (e : RoutingEntry R) (entries : List (RoutingEntry R)) (o : ℕ)
    (value : RoutingEntry R → R) :
    routingSum (e :: entries) o value =
      (if e.outputIdx = o then e.gainLinear * value e else 0) + routingSum entries o value := by
  unfold routingSum
  by_cases h : e.outputIdx = o
  · rw [List.filter_cons_of_pos (by simpa using h), List.map_cons, List.sum_cons, if_pos h]
  · rw [List.filter_cons_of_neg (by simpa using h), if_neg h, zero_add]

theorem routingSum_mul_left (c : R) (entries : List (RoutingEntry R)) (o : ℕ)
    (value : RoutingEntry R → R) :
    c * routingSum entries o value = routingSum entries o fun e => c * value e := by
  induction entries with
  | nil => simp [routingSum]
  | cons e entries ih =>
    rw [routingSum_cons, routingSum_cons, mul_add, ih]
    split
    · ring
    · rw [mul_zero]

theorem routingSum_congr {entries : List (RoutingEntry R)} {value value' : RoutingEntry R → R}
    (o : ℕ) (h : ∀ e ∈ entries, value e = value' e) :
    routingSum entries o value = routingSum entries o value' := by
  unfold routingSum
  congr 1
  apply List.map_congr_left
  intro e he
  rw [h e (List.mem_of_mem_filter he)]

/-- **The loop over the routing table.**  If the rows of the frequency-domain outputs are
spectra before the loop, they are spectra after it, of signals to which the contributions
of all entries have been added. -/
theorem foldlM_processRouting {core : CoreConvolverUniform p}
    {filters : ℕ → ImpulseResponse R} {signal : ℕ → ℕ → R} {time : ℕ}
    (hfilters : core.HoldsFilters filters) (hinputs : core.HoldsInputs signal time)
    (hparts : 0 < p.numberOfFilterPartitions) {entries : List (RoutingEntry R)}
    (hrange : ∀ e ∈ entries, e.inputIdx < p.numberOfInputs) :
    ∀ {fd : ℕ → ℕ → C} {y : ℕ → ℕ → R},
      (∀ o k, k ≤ p.blockLength → fd o k = p.blockSpectrum (y o) k) →
      ∃ fd', entries.foldlM (processRouting core) fd = .ok fd' ∧
        ∀ o k, k ≤ p.blockLength → fd' o k = p.blockSpectrum
          (fun n => y o n + routingSum entries o fun e =>
            CoreConvolverUniform.contribution p (p.effective (filters e.filterIdx))
              (signal e.inputIdx) time n) k := by
  induction entries with
  | nil =>
    intro fd y hfd
    refine ⟨fd, rfl, ?_⟩
    intro o k hk
    simpa [routingSum] using hfd o k hk
  | cons e entries ih =>
    intro fd y hfd
    obtain ⟨row, hrow, hvalue⟩ := core.processFilter_eq hparts e.inputIdx e.filterIdx
      e.gainLinear (fd e.outputIdx)
    -- the row of this entry's output after the entry
    have hnext : ∀ o k, k ≤ p.blockLength →
        Function.update fd e.outputIdx row o k = p.blockSpectrum
          (fun n => y o n + if e.outputIdx = o then e.gainLinear *
            CoreConvolverUniform.contribution p (p.effective (filters e.filterIdx))
              (signal e.inputIdx) time n else 0) k := by
      intro o k hk
      by_cases ho : e.outputIdx = o
      · subst ho
        have hsize := p.dftRepresentationSize_eq
        have hpadded := p.dftRepresentationSize_le
        rw [Function.update_self, hvalue k (by omega), hfd e.outputIdx k hk,
          CoreConvolverUniform.sum_blockProduct hfilters hinputs
            (hrange e List.mem_cons_self) e.filterIdx hk]
        simp only [if_true, ConvolverParameters.blockSpectrum, spectrumOf_add,
          spectrumOf_mul_left]
      · rw [Function.update_of_ne (Ne.symm ho), hfd o k hk]
        simp only [if_neg ho, add_zero]
    obtain ⟨fd', hfold, hfd'⟩ := ih (fun e' he' => hrange e' (List.mem_cons_of_mem e he')) hnext
    refine ⟨fd', ?_, ?_⟩
    · rw [List.foldlM_cons]
      simp only [processRouting, hrow, bind, Except.bind, pure, Except.pure]
      exact hfold
    · intro o k hk
      rw [hfd' o k hk]
      simp only [routingSum_cons, add_assoc]

/-- The output signals in terms of the coefficients that have reached the filter memory. -/
def effectiveOutput (c : MultichannelConvolverUniform p maxRoutingPoints)
    (filters : ℕ → ImpulseResponse R) (signal : ℕ → ℕ → R) (outputIdx n : ℕ) : R :=
  routingSum c.routingTable.entries outputIdx fun e =>
    p.fftRepresentation.forwardScalingFactor *
      convolution (p.effective (filters e.filterIdx)) p.maxFilterLength (signal e.inputIdx) n

theorem numberOfFilterPartitions_pos_iff (p : ConvolverParameters R C) :
    0 < p.numberOfFilterPartitions ↔ 0 < p.maxFilterLength := by
  have hpos := p.blockLength_pos
  change 0 < (p.maxFilterLength + p.blockLength - 1) / p.blockLength ↔ _
  rw [Nat.div_pos_iff]
  omega

/-- **One block.** -/
theorem process_holds {c : MultichannelConvolverUniform p maxRoutingPoints}
    {filters : ℕ → ImpulseResponse R} {signal : ℕ → ℕ → R} {time : ℕ}
    (h : c.Holds filters signal time) (hlength : 0 < p.maxFilterLength) :
    ∃ c' block, c.process (fun ch k => signal ch (time + k)) = .ok (c', block) ∧
      c'.Holds filters signal (time + p.blockLength) ∧ c'.routingTable = c.routingTable ∧
      ∀ o s, s < p.blockLength → block o s = c.effectiveOutput filters signal o (time + s) := by
  have hparts := (numberOfFilterPartitions_pos_iff p).mpr hlength
  obtain ⟨core, hcore, hinputs, hmemory⟩ :=
    CoreConvolverUniform.processInputs_holds h.inputs hparts fun ch k _ _ => rfl
  have hfilters : core.HoldsFilters filters := by
    refine ⟨h.filters.length_le, ?_⟩
    intro f q k hq hk
    rw [← h.filters.spectra f q k hq hk]
    simp only [CoreConvolverUniform.getFdFilterPartition, hmemory]
  have hzero : ∀ o k, k ≤ p.blockLength →
      (fun _ _ => 0 : ℕ → ℕ → C) o k = p.blockSpectrum (fun _ => 0) k :=
    fun _ _ _ => (spectrumOf_zero _ _ _).symm
  obtain ⟨fd, hfold, hfd⟩ := foldlM_processRouting hfilters hinputs hparts
    (fun e he => (c.routingTable.in_range e he).1) hzero
  refine ⟨⟨core, c.routingTable⟩,
    fun o => CoreConvolverUniform.transformOutput p (fd o), ?_, ⟨hfilters, hinputs⟩, rfl, ?_⟩
  · simp only [process, processOutputs, hcore, hfold, bind, Except.bind, pure, Except.pure]
  · intro o s hs
    have hsize : calculateDftSize p.blockLength = 2 * p.blockLength := rfl
    change p.fftRepresentation.inverseTransform (fd o) (p.blockLength + s) = _
    rw [p.fftRepresentation.inverse_exact _ (fd o) (fun k hk => hfd o k (by omega)) _ (by omega),
      zero_add, routingSum_mul_left, routingSum_mul_left]
    apply routingSum_congr
    intro e _
    -- the second half of the transform is the linear convolution
    have hupper := CoreConvolverUniform.contribution_upper_half p
      (p.effective (filters e.filterIdx)) (signal e.inputIdx) time hs
    have hconv := convolution_of_le (p.effective (filters e.filterIdx)) (signal e.inputIdx)
      p.maxFilterLength_le_capacity
      (fun k hk => p.effective_of_le _ (Nat.le_trans (h.filters.length_le e.filterIdx) hk))
      (time + s)
    exact hupper.trans (congrArg _ hconv)

/-- The convolver holds some filters and the past of some signals. -/
def Operating (c : MultichannelConvolverUniform p maxRoutingPoints) : Prop :=
  ∃ filters signal time, c.Holds filters signal time

/-- Any block can be processed. -/
theorem Operating.process {c : MultichannelConvolverUniform p maxRoutingPoints} (h : c.Operating)
    (hlength : 0 < p.maxFilterLength) (input : ℕ → ℕ → R) :
    ∃ c' block, c.process input = .ok (c', block) ∧ c'.Operating := by
  obtain ⟨filters, signal, time, h⟩ := h
  have hnext : c.Holds filters (fun ch => Signal.continued (signal ch) time (input ch)) time :=
    ⟨h.filters, h.inputs.continued input⟩
  obtain ⟨c', block, hprocess, hafter, -, -⟩ := process_holds hnext hlength
  simp only [Signal.continued_add] at hprocess
  exact ⟨c', block, hprocess, _, _, _, hafter⟩

theorem Operating.setImpulseResponse {c c' : MultichannelConvolverUniform p maxRoutingPoints}
    (h : c.Operating) {r : ImpulseResponse R} {filterIdx : ℕ}
    (hstep : c.setImpulseResponse r filterIdx = .ok c') : c'.Operating := by
  obtain ⟨filters, signal, time, h⟩ := h
  obtain ⟨core, hcore, heq⟩ := exists_of_bind_ok hstep
  cases heq
  exact ⟨_, signal, time, CoreConvolverUniform.setImpulseResponse_holds h.filters hcore,
    h.inputs.of_same (CoreConvolverUniform.setImpulseResponse_inputs hcore)⟩

theorem Operating.of_core {c c' : MultichannelConvolverUniform p maxRoutingPoints}
    (h : c.Operating) (hcore : c'.coreConvolver = c.coreConvolver) : c'.Operating := by
  obtain ⟨filters, signal, time, h⟩ := h
  refine ⟨filters, signal, time, ?_, ?_⟩
  · rw [hcore]
    exact h.filters
  · rw [hcore]
    exact h.inputs

/-! ### Whole runs -/

theorem run_holds {c : MultichannelConvolverUniform p maxRoutingPoints}
    {filters : ℕ → ImpulseResponse R} {signal : ℕ → ℕ → R} (h : c.Holds filters signal 0)
    (hlength : 0 < p.maxFilterLength) (numBlocks : ℕ) :
    ∃ c' output, c.run signal numBlocks = .ok (c', output) ∧
      c'.Holds filters signal (numBlocks * p.blockLength) ∧ c'.routingTable = c.routingTable ∧
      ∀ o n, o < p.numberOfOutputs → n < numBlocks * p.blockLength →
        output o n = c.effectiveOutput filters signal o n := by
  induction numBlocks with
  | zero =>
    rw [Nat.zero_mul]
    refine ⟨c, fun _ _ => 0, rfl, h, rfl, ?_⟩
    intro o n _ hn
    omega
  | succ numBlocks ih =>
    obtain ⟨before, output, hrun, hbefore, htable, houtput⟩ := ih
    obtain ⟨after, block, hprocess, hafter, htable', hblock⟩ := process_holds hbefore hlength
    rw [Nat.succ_mul]
    refine ⟨after, fun outputIdx =>
      if outputIdx < p.numberOfOutputs then
        overwrite (output outputIdx) (numBlocks * p.blockLength) p.blockLength (block outputIdx)
      else output outputIdx, ?_, hafter, htable'.trans htable, ?_⟩
    · simp only [run, hrun, hprocess, bind, Except.bind, pure, Except.pure]
    · intro o n ho hn
      simp only [if_pos ho]
      by_cases hold : n < numBlocks * p.blockLength
      · rw [overwrite_outside _ _ (Or.inl hold), houtput o n ho hold]
      · -- a sample of the last block
        have hsplit : n = numBlocks * p.blockLength + (n - numBlocks * p.blockLength) := by omega
        rw [hsplit, overwrite_inside _ _ _ (by omega), hblock o _ (by omega)]
        simp only [effectiveOutput, htable]

/-- Without room for a coefficient, the first block is never finished. -/
theorem run_of_noPartitions {c : MultichannelConvolverUniform p maxRoutingPoints}
    {filters : ℕ → ImpulseResponse R} {signal : ℕ → ℕ → R} (h : c.Holds filters signal 0)
    (hlength : ¬0 < p.maxFilterLength) : c.run signal 1 = .error .divisionByZero := by
  have hparts : p.numberOfFilterPartitions = 0 :=
    Nat.eq_zero_of_not_pos fun hpos => hlength ((numberOfFilterPartitions_pos_iff p).mp hpos)
  have hinputs := CoreConvolverUniform.processInputs_of_noPartitions h.inputs hparts
    fun ch k => signal ch (0 * p.blockLength + k)
  simp only [run, process, hinputs, bind, Except.bind]

/-- The sum over all routing entries for an output of the gain times the convolution of
the input with the filter. -/
def directConvolution (c : MultichannelConvolverUniform p maxRoutingPoints)
    (filters : ℕ → ImpulseResponse R) (signal : ℕ → ℕ → R) (outputIdx n : ℕ) : R :=
  routingSum c.routingTable.entries outputIdx fun e =>
    convolution (filters e.filterIdx).coefficient (filters e.filterIdx).filterLength
      (signal e.inputIdx) n

/-- Block after block, the outputs are the direct convolutions of all input signals. -/
def Convolves (c : MultichannelConvolverUniform p maxRoutingPoints)
    (filters : ℕ → ImpulseResponse R) : Prop :=
  ∀ (signal : ℕ → ℕ → R) (numBlocks : ℕ), ∃ c' output, c.run signal numBlocks = .ok (c', output) ∧
    ∀ o n, o < p.numberOfOutputs → n < numBlocks * p.blockLength →
      output o n = c.directConvolution filters signal o n

/-- Every coefficient that some routing makes audible is loaded, and loaded without the
scaling of the forward transform. -/
def CoefficientsKept (c : MultichannelConvolverUniform p maxRoutingPoints)
    (filters : ℕ → ImpulseResponse R) : Prop :=
  ∀ e ∈ c.routingTable.entries, e.gainLinear ≠ 0 → ∀ k, (filters e.filterIdx).coefficient k ≠ 0 →
    p.fftRepresentation.forwardScalingFactor = 1 ∧
      p.Loads (filters e.filterIdx) (k / p.blockLength)

theorem CoefficientsKept.effective {c : MultichannelConvolverUniform p maxRoutingPoints}
    {filters : ℕ → ImpulseResponse R} (h : c.CoefficientsKept filters) {e : RoutingEntry R}
    (he : e ∈ c.routingTable.entries) (hgain : e.gainLinear ≠ 0) (k : ℕ) :
    p.fftRepresentation.forwardScalingFactor * p.effective (filters e.filterIdx) k =
      (filters e.filterIdx).coefficient k :=
  ConvolverParameters.Keeps.effective (h e he hgain) k

/-- The condition is enough: each entry contributes its direct convolution. -/
theorem effectiveOutput_eq {c : MultichannelConvolverUniform p maxRoutingPoints}
    {filters : ℕ → ImpulseResponse R} (h : c.CoefficientsKept filters)
    (hlength : ∀ f, (filters f).filterLength ≤ p.maxFilterLength) (signal : ℕ → ℕ → R)
    (o n : ℕ) :
    c.effectiveOutput filters signal o n = c.directConvolution filters signal o n := by
  unfold effectiveOutput directConvolution routingSum
  congr 1
  apply List.map_congr_left
  intro e he
  by_cases hgain : e.gainLinear = 0
  · rw [hgain, zero_mul, zero_mul]
  · have hkept := h.effective (List.mem_of_mem_filter he) hgain
    congr 1
    calc p.fftRepresentation.forwardScalingFactor *
          convolution (p.effective (filters e.filterIdx)) p.maxFilterLength (signal e.inputIdx) n
        = convolution (filters e.filterIdx).coefficient p.maxFilterLength
            (signal e.inputIdx) n := by rw [← convolution_mul_left, funext hkept]
      _ = convolution (filters e.filterIdx).coefficient (filters e.filterIdx).filterLength
            (signal e.inputIdx) n :=
          convolution_of_le _ _ (hlength e.filterIdx)
            (fun k hk => (filters e.filterIdx).coefficient_of_le hk) n

/-- An impulse at the input of one entry; all other inputs are silent. -/
def impulse (R : Type) [Field R] (inputIdx ch m : ℕ) : R :=
  if ch = inputIdx then (if m = 0 then 1 else 0) else 0

theorem convolution_impulse_self (h : ℕ → R) {L n : ℕ} (hn : n < L) (i : ℕ) :
    convolution h L (impulse R i i) n = h n := by
  have himpulse : impulse R i i = fun m => if m = 0 then 1 else 0 := by
    funext m
    exact if_pos rfl
  rw [himpulse, convolution_impulse h hn]

theorem convolution_impulse_other (h : ℕ → R) (L n : ℕ) {i j : ℕ} (hij : j ≠ i) :
    convolution h L (impulse R i j) n = 0 := by
  have hsilent : impulse R i j = fun _ => 0 := by
    funext m
    exact if_neg hij
  rw [hsilent, convolution_silence]

/-- Only one entry of the table leads from an input to an output. -/
theorem routingSum_single {entries : List (RoutingEntry R)}
    (hunique : entries.Pairwise fun a b => ¬equivalentRoutings a b) {e : RoutingEntry R}
    (he : e ∈ entries) {value : RoutingEntry R → R}
    (hvalue : ∀ e', e'.inputIdx ≠ e.inputIdx → value e' = 0) :
    routingSum entries e.outputIdx value = e.gainLinear * value e := by
  induction entries with
  | nil => cases he
  | cons e' entries ih =>
    obtain ⟨hfirst, hrest⟩ := List.pairwise_cons.mp hunique
    rw [routingSum_cons]
    cases List.mem_cons.mp he with
    | inl heq =>
      -- the remaining entries for this output belong to other inputs
      subst heq
      have hothers : routingSum entries e.outputIdx value = 0 := by
        unfold routingSum
        apply List.sum_eq_zero
        intro x hx
        obtain ⟨e'', hmem, rfl⟩ := List.mem_map.mp hx
        obtain ⟨hentry, hout⟩ := List.mem_filter.mp hmem
        have hne : e''.inputIdx ≠ e.inputIdx := by
          intro hin
          exact hfirst e'' hentry ((equivalentRoutings_iff _ _).mpr
            ⟨(of_decide_eq_true hout).symm, hin.symm⟩)
        rw [hvalue e'' hne, mul_zero]
      rw [if_pos rfl, hothers, add_zero]
    | inr hmem =>
      have hzero : (if e'.outputIdx = e.outputIdx then e'.gainLinear * value e' else 0) = 0 := by
        by_cases hout : e'.outputIdx = e.outputIdx
        · have hne : e'.inputIdx ≠ e.inputIdx := by
            intro hin
            exact hfirst e hmem ((equivalentRoutings_iff _ _).mpr ⟨hout, hin⟩)
          rw [hvalue e' hne, mul_zero, ite_self]
        · exact if_neg hout
      rw [hzero, zero_add, ih hrest hmem]

/-- The condition is necessary: the response of an entry to an impulse is its filter. -/
theorem coefficientsKept_of_eq {c : MultichannelConvolverUniform p maxRoutingPoints}
    {filters : ℕ → ImpulseResponse R}
    (hlength : ∀ f, (filters f).filterLength ≤ p.maxFilterLength)
    (h : ∀ signal o n, o < p.numberOfOutputs →
      c.effectiveOutput filters signal o n = c.directConvolution filters signal o n) :
    c.CoefficientsKept filters := by
  intro e he hgain k hk
  have hshort : k < (filters e.filterIdx).filterLength := by
    by_contra hge
    exact hk ((filters e.filterIdx).coefficient_of_le (Nat.le_of_not_lt hge))
  have hlong := Nat.lt_of_lt_of_le hshort (hlength e.filterIdx)
  have hout := (c.routingTable.in_range e he).2.1
  have hresponse := h (impulse R e.inputIdx) e.outputIdx k hout
  unfold effectiveOutput directConvolution at hresponse
  rw [routingSum_single c.routingTable.unique he fun e' hne => by
      rw [convolution_impulse_other _ _ _ hne, mul_zero],
    routingSum_single c.routingTable.unique he fun e' hne =>
      convolution_impulse_other _ _ _ hne,
    convolution_impulse_self _ hlong, convolution_impulse_self _ hshort] at hresponse
  have hcoefficient := mul_left_cancel₀ hgain hresponse
  unfold ConvolverParameters.effective at hcoefficient
  by_cases hloads : p.Loads (filters e.filterIdx) (k / p.blockLength)
  · rw [if_pos hloads] at hcoefficient
    exact ⟨(mul_eq_right₀ hk).mp hcoefficient, hloads⟩
  · rw [if_neg hloads, mul_zero] at hcoefficient
    exact absurd hcoefficient.symm hk

/-- The exact condition for a convolver that holds its filters and silence. -/
theorem convolves_iff {c : MultichannelConvolverUniform p maxRoutingPoints}
    {filters : ℕ → ImpulseResponse R} (h : ∀ signal, c.Holds filters signal 0) :
    c.Convolves filters ↔ 0 < p.maxFilterLength ∧ c.CoefficientsKept filters := by
  have hlengths := (h fun _ _ => 0).filters.length_le
  constructor
  · intro hconv
    have hlength : 0 < p.maxFilterLength := by
      by_contra hnone
      obtain ⟨c', output, hrun, _⟩ := hconv (fun _ _ => 0) 1
      rw [run_of_noPartitions (h _) hnone] at hrun
      cases hrun
    refine ⟨hlength, coefficientsKept_of_eq hlengths ?_⟩
    intro signal o n ho
    -- a run long enough to reach the sample
    have hn : n < (n + 1) * p.blockLength :=
      Nat.lt_of_lt_of_le (Nat.lt_succ_self n) (Nat.le_mul_of_pos_right _ p.blockLength_pos)
    obtain ⟨c', output, hrun, hdirect⟩ := hconv signal (n + 1)
    obtain ⟨c'', output', hrun', _, _, heffective⟩ := run_holds (h signal) hlength (n + 1)
    rw [hrun] at hrun'
    cases hrun'
    rw [← heffective o n ho hn, hdirect o n ho hn]
  · rintro ⟨hlength, hkept⟩ signal numBlocks
    obtain ⟨c', output, hrun, _, _, heffective⟩ := run_holds (h signal) hlength numBlocks
    refine ⟨c', output, hrun, ?_⟩
    intro o n ho hn
    rw [heffective o n ho hn, effectiveOutput_eq hkept hlengths]

/-- **Partitioned convolution equals direct convolution exactly if** there is room for a
coefficient and every coefficient that some routing makes audible is kept. -/
theorem run_convolves_iff {c : MultichannelConvolverUniform p maxRoutingPoints}
    {filters : ℕ → ImpulseResponse R} (h : Configured c filters) :
    c.Convolves filters ↔ 0 < p.maxFilterLength ∧ c.CoefficientsKept filters :=
  convolves_iff h.holds

/-- A convolver with blocks of two samples and one filter of up to three coefficients. -/
noncomputable def delayParameters (alignment : ℕ) : ConvolverParameters ℝ ℂ where
  alignment := alignment
  numberOfInputs := 1
  numberOfOutputs := 1
  blockLength := 2
  maxFilterLength := 3
  maxNumberOfFilterEntries := 1
  fftRepresentation :=
    FftWrapper.unscaled (calculateDftSize 2) (by decide)
  blockLength_pos := by decide

/-- A delay by two samples. -/
noncomputable def delayFilter (alignment : ℕ) : BasicMatrix ℝ where
  numberOfRows := 1
  numberOfColumns := 3
  alignmentElements := alignment
  address := 0
  data _ k := if k = 2 then 1 else 0

/-- With an alignment of two, all partitions are loaded. -/
theorem run_convolves_iff_delay :
    ∃ c, create (delayParameters 2) 1 [⟨0, 0, 0, 1⟩] (delayFilter 2) = .ok c ∧
      c.Convolves (CoreConvolverUniform.rowResponses (delayFilter 2) 1) := by
  have hcreate : ∃ c, create (delayParameters 2) 1 [⟨0, 0, 0, 1⟩] (delayFilter 2) = .ok c ∧
      c.routingTable.entries = [⟨0, 0, 0, 1⟩] := ⟨_, rfl, rfl⟩
  obtain ⟨c, hc, hentries⟩ := hcreate
  refine ⟨c, hc, (run_convolves_iff (Configured.create _ _ hc)).mpr ⟨by decide, ?_⟩⟩
  intro e he _ k hk
  rw [hentries, List.mem_singleton] at he
  subst he
  refine ⟨rfl, ?_⟩
  have hlt : k < 3 := by
    by_contra hge
    exact hk (if_neg hge)
  change checkAlignment (0 + 0 * 4 + k / 2 * 2) 2 = true
  interval_cases k <;> decide

/-- With an alignment of four, the second partition is dropped without an error: an impulse
yields silence. -/
theorem run_misaligned :
    ∃ c c' output, create (delayParameters 4) 1 [⟨0, 0, 0, 1⟩] (delayFilter 4) = .ok c ∧
      c.run (fun _ n => if n = 0 then 1 else 0) 2 = .ok (c', output) ∧
      output 0 2 = 0 ∧
      c.directConvolution (CoreConvolverUniform.rowResponses (delayFilter 4) 1)
        (fun _ n => if n = 0 then 1 else 0) 0 2 = 1 := by
  have hcreate : ∃ c, create (delayParameters 4) 1 [⟨0, 0, 0, 1⟩] (delayFilter 4) = .ok c ∧
      c.routingTable.entries = [⟨0, 0, 0, 1⟩] := ⟨_, rfl, rfl⟩
  obtain ⟨c, hc, hentries⟩ := hcreate
  have hholds := (Configured.create _ _ hc).holds fun _ n => if n = 0 then (1 : ℝ) else 0
  have hlength : 0 < (delayParameters 4).maxFilterLength := by decide
  obtain ⟨c', output, hrun, _, _, houtput⟩ := run_holds hholds hlength 2
  refine ⟨c, c', output, hc, hrun, ?_, ?_⟩
  · -- the second partition starts at the third coefficient
    have hdropped : ¬(delayParameters 4).Loads
        (CoreConvolverUniform.rowResponses (delayFilter 4) (delayFilter 4).numberOfRows 0) 1 := by
      change ¬checkAlignment (0 + 0 * 4 + 1 * 2) 4 = true
      decide
    have hzero : (delayParameters 4).effective (CoreConvolverUniform.rowResponses
        (delayFilter 4) (delayFilter 4).numberOfRows 0) 2 = 0 := if_neg hdropped
    rw [houtput 0 2 (by decide) (by decide), effectiveOutput, hentries, routingSum_cons,
      convolution_impulse _ (by decide), hzero]
    simp [routingSum]
  · rw [directConvolution, hentries, routingSum_cons, convolution_impulse _ (by decide)]
    have hone : (CoreConvolverUniform.rowResponses (delayFilter 4) 1 0).coefficient 2 = 1 := by
      simp [CoreConvolverUniform.rowResponses, CoreConvolverUniform.rowResponse,
        ImpulseResponse.coefficient, delayFilter, BasicMatrix.row]
    simp [hone, routingSum]

end MultichannelConvolverUniform

end Visr
