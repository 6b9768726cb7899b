import Visr.Librbbl.CrossfadingConvolverRuns
import Visr.Library.BoundedMap
import Visr.Library.Writes

/-!
# Calls that change a routing table

The routing tables of the convolvers as maps from pairs of an input and an output to filters and
gains.

## Main results

* `RoutingTable.find?_set`, `RoutingTable.find?_erase` — only one pair is concerned.
* `RoutingTable.implements` — what the calls do.
* `routingTables_behaveAsMaps` — **when the tables behave as maps.**
-/

namespace Visr

open BoundedMap Execution

variable {R C : Type} [Field R] [CommRing C] [Algebra R C]

namespace RoutingTable

variable {p : ConvolverParameters R C}

/-- The filter and the gain of a pair of an input and an output. -/
def find? (table : RoutingTable p) (key : ℕ × ℕ) : Option (ℕ × R) :=
  (table.entries.find? fun e => (e.inputIdx, e.outputIdx) = key).map
    fun e => (e.filterIdx, e.gainLinear)

/-- The pair that an entry is for. -/
def key {R : Type} (e : RoutingEntry R) : ℕ × ℕ := (e.inputIdx, e.outputIdx)

/-- What an entry tells about its pair. -/
def value {R : Type} (e : RoutingEntry R) : ℕ × R := (e.filterIdx, e.gainLinear)

theorem equivalentRoutings_iff_key {R : Type} {e e' : RoutingEntry R} :
    equivalentRoutings e e' = true ↔ key e = key e' := by
  rw [equivalentRoutings_iff, key, key, Prod.mk.injEq, and_comm]

theorem nodup_keys (table : RoutingTable p) : (table.entries.map key).Nodup :=
  List.pairwise_map.mpr (table.unique.imp fun h heq => h (equivalentRoutings_iff_key.mpr heq))

/-- Entries for the same pair are the same. -/
theorem eq_of_key {table : RoutingTable p} {e e' : RoutingEntry R} (he : e ∈ table.entries)
    (he' : e' ∈ table.entries) (hkey : key e = key e') : e = e' :=
  List.inj_on_of_nodup_map table.nodup_keys he he' hkey

theorem find?_eq_some_iff {table : RoutingTable p} {k : ℕ × ℕ} {v : ℕ × R} :
    table.find? k = some v ↔ ∃ e ∈ table.entries, key e = k ∧ value e = v := by
  unfold find?
  rw [Option.map_eq_some_iff]
  constructor
  · rintro ⟨e, hfind, rfl⟩
    exact ⟨e, List.mem_of_find?_eq_some hfind, by simpa [key] using List.find?_some hfind, rfl⟩
  · rintro ⟨e, he, rfl, rfl⟩
    cases hfind : table.entries.find? fun e' => (e'.inputIdx, e'.outputIdx) = key e with
    | none =>
      have hnone := List.find?_eq_none.mp hfind e he
      simp [key] at hnone
    | some e' =>
      have hkey : key e' = key e := by simpa [key] using List.find?_some hfind
      rw [eq_of_key (List.mem_of_find?_eq_some hfind) he hkey]
      exact ⟨e, rfl, rfl⟩

theorem find?_ne_none_iff {table : RoutingTable p} {k : ℕ × ℕ} :
    table.find? k ≠ none ↔ ∃ e ∈ table.entries, key e = k := by
  rw [Option.ne_none_iff_exists']
  constructor
  · rintro ⟨v, hv⟩
    obtain ⟨e, he, hkey, -⟩ := find?_eq_some_iff.mp hv
    exact ⟨e, he, hkey⟩
  · rintro ⟨e, he, hkey⟩
    exact ⟨value e, find?_eq_some_iff.mpr ⟨e, he, hkey, rfl⟩⟩

/-- Each pair has one entry. -/
theorem size_find? (table : RoutingTable p) : size table.find? = table.entries.length := by
  have hset : { k | table.find? k ≠ none } = ((table.entries.map key).toFinset : Set (ℕ × ℕ)) := by
    ext k
    simpa using find?_ne_none_iff
  unfold size
  rw [hset, Set.ncard_coe_finset, List.toFinset_card_of_nodup table.nodup_keys, List.length_map]

/-! ### Changes of one pair -/

theorem mem_others {table : RoutingTable p} {newEntry e : RoutingEntry R} :
    e ∈ table.others newEntry ↔ e ∈ table.entries ∧ key e ≠ key newEntry := by
  constructor
  · intro h
    refine ⟨mem_of_mem_others h, fun hkey => not_equivalent_of_mem_others h ?_⟩
    exact equivalentRoutings_iff_key.mpr hkey.symm
  · rintro ⟨he, hkey⟩
    apply (List.mem_eraseP_of_neg _).mpr he
    intro heq
    exact hkey (equivalentRoutings_iff_key.mp heq)

theorem mem_erase {table : RoutingTable p} {testEntry e : RoutingEntry R} :
    e ∈ (table.erase testEntry).entries ↔ e ∈ table.entries ∧ key e ≠ key testEntry := by
  unfold erase
  rw [List.mem_filter]
  refine and_congr_right fun _ => ?_
  rw [Bool.not_eq_true', ← Bool.not_eq_true, equivalentRoutings_iff_key]

/-- **An entry that is set** replaces the one for its pair. -/
theorem find?_set {table : RoutingTable p} {newEntry : RoutingEntry R}
    (h : newEntry.inputIdx < p.numberOfInputs ∧ newEntry.outputIdx < p.numberOfOutputs ∧
      newEntry.filterIdx < p.maxNumberOfFilterEntries) :
    (table.set newEntry h).find? =
      Function.update table.find? (key newEntry) (some (value newEntry)) := by
  funext k
  apply Option.ext
  intro v
  rw [find?_eq_some_iff]
  -- the entries for the pair are removed before the new one is inserted
  by_cases hk : k = key newEntry
  · subst hk
    rw [Function.update_self, Option.some.injEq]
    constructor
    · rintro ⟨e, he, hkey, rfl⟩
      rcases (mem_set h).mp he with rfl | hother
      · rfl
      · exact absurd hkey (mem_others.mp hother).2
    · rintro rfl
      exact ⟨newEntry, (mem_set h).mpr (Or.inl rfl), rfl, rfl⟩
  · rw [Function.update_of_ne hk, find?_eq_some_iff]
    constructor
    · rintro ⟨e, he, rfl, rfl⟩
      rcases (mem_set h).mp he with rfl | hother
      · exact absurd rfl hk
      · exact ⟨e, (mem_others.mp hother).1, rfl, rfl⟩
    · rintro ⟨e, he, rfl, rfl⟩
      exact ⟨e, (mem_set h).mpr (Or.inr (mem_others.mpr ⟨he, hk⟩)), rfl, rfl⟩

/-- **An entry that is removed** is no longer found, and all others are. -/
theorem find?_erase (table : RoutingTable p) (testEntry : RoutingEntry R) :
    (table.erase testEntry).find? = Function.update table.find? (key testEntry) none := by
  funext k
  apply Option.ext
  intro v
  rw [find?_eq_some_iff]
  by_cases hk : k = key testEntry
  · subst hk
    simp [mem_erase]
    tauto
  · rw [Function.update_of_ne hk, find?_eq_some_iff]
    constructor
    · rintro ⟨e, he, rfl, rfl⟩
      exact ⟨e, (mem_erase.mp he).1, rfl, rfl⟩
    · rintro ⟨e, he, rfl, rfl⟩
      exact ⟨e, mem_erase.mpr ⟨he, hk⟩, rfl, rfl⟩

/-- There is room for an entry exactly if the other ones leave some. -/
theorem hasRoom_iff {table : RoutingTable p} (newEntry : RoutingEntry R) {capacity : ℕ}
    (hsize : table.entries.length ≤ capacity) :
    HasRoom capacity table.find? (key newEntry) ↔ (table.others newEntry).length < capacity := by
  unfold HasRoom
  rw [size_find?, find?_ne_none_iff]
  constructor
  · rintro (⟨e, he, hkey⟩ | hlt)
    · have heq : equivalentRoutings e newEntry = true := equivalentRoutings_iff_key.mpr hkey
      have hlength : (table.others newEntry).length = table.entries.length - 1 :=
        List.length_eraseP_of_mem he heq
      have hpos := List.length_pos_of_mem he
      omega
    · exact Nat.lt_of_le_of_lt (List.length_eraseP_le) hlt
  · intro hroom
    by_cases hex : ∃ e ∈ table.entries, key e = key newEntry
    · exact Or.inl hex
    · refine Or.inr ?_
      rwa [others_of_new] at hroom
      intro e he heq
      exact hex ⟨e, he, equivalentRoutings_iff_key.mp heq⟩

/-! ### Reports of removals -/

/-- The start of the range of entries for a pair is not the end of the table. -/
def reported (table : RoutingTable p) (k : ℕ × ℕ) : Bool :=
  table.entries.any fun e => !compareRoutings e ⟨k.1, k.2, 0, 0⟩

/-- The result of a removal is correct: the pair has an entry, or the table has none for a greater
pair. -/
def ReportsRemoval (table : RoutingTable p) (k : ℕ × ℕ) : Prop :=
  table.find? k ≠ none ∨ ∀ e ∈ table.entries, compareRoutings ⟨k.1, k.2, 0, 0⟩ e = false

/-- The pairs are ordered by their outputs and then by their inputs. -/
theorem not_compareRoutings_iff {R : Type} {e e' : RoutingEntry R} :
    compareRoutings e e' = false ↔ key e = key e' ∨ compareRoutings e' e = true := by
  unfold compareRoutings key
  rw [Prod.mk.injEq]
  by_cases h : e.outputIdx = e'.outputIdx
  · rw [if_pos h, if_pos h.symm, decide_eq_false_iff_not, decide_eq_true_eq]
    omega
  · rw [if_neg h, if_neg (Ne.symm h), decide_eq_false_iff_not, decide_eq_true_eq]
    omega

theorem reported_eq_isSome_iff {table : RoutingTable p} {k : ℕ × ℕ} :
    table.reported k = (table.find? k).isSome ↔ table.ReportsRemoval k := by
  unfold reported ReportsRemoval
  cases hfind : table.find? k with
  | none =>
    -- the pair has no entry, so that only entries for greater pairs count
    have hnone : ∀ e ∈ table.entries, key e ≠ k := by
      intro e he hkey
      exact find?_ne_none_iff.mpr ⟨e, he, hkey⟩ hfind
    simp only [Option.isSome_none, List.any_eq_false, Bool.not_eq_true', ne_eq, not_true_eq_false,
      false_or]
    refine forall₂_congr fun e he => ?_
    rw [not_compareRoutings_iff, Bool.eq_false_iff, not_iff_not]
    exact or_iff_right (hnone e he)
  | some v =>
    obtain ⟨e, he, rfl, -⟩ := find?_eq_some_iff.mp hfind
    refine iff_of_true ?_ (Or.inl (Option.some_ne_none v))
    rw [Option.isSome_some, List.any_eq_true]
    refine ⟨e, he, ?_⟩
    rw [Bool.not_eq_true', not_compareRoutings_iff]
    exact Or.inl rfl

end RoutingTable

/-! ### The calls of the convolvers -/

/-- The indices of an entry are in range. -/
abbrev ConvolverParameters.Admits (p : ConvolverParameters R C) (k : ℕ × ℕ) (v : ℕ × R) : Prop :=
  k.1 < p.numberOfInputs ∧ k.2 < p.numberOfOutputs ∧ v.1 < p.maxNumberOfFilterEntries

section Calls

variable {p : ConvolverParameters R C} {S : Type}

/-- A call of one of the two operations, with its result. -/
def tableCall (setRoutingEntry : S → RoutingEntry R → Except Exception S)
    (removeRoutingEntry : S → ℕ → ℕ → Bool × S) :
    Call (ℕ × ℕ) (ℕ × R) → S → Result Exception × S
  | .set k v, s =>
    match setRoutingEntry s ⟨k.1, k.2, v.1, v.2⟩ with
    | .ok s' => (.done, s')
    | .error e => (.refused e, s)
  | .remove k, s => (.removed (removeRoutingEntry s k.1 k.2).1, (removeRoutingEntry s k.1 k.2).2)

/-- **What the calls do**, if entries are set exactly if they are in range and there is room. -/
theorem implements_tableCall {table : S → RoutingTable p} {capacity : ℕ}
    {setRoutingEntry : S → RoutingEntry R → Except Exception S}
    {removeRoutingEntry : S → ℕ → ℕ → Bool × S}
    (hset : ∀ s (routing : RoutingEntry R)
      (hrange : p.Admits (RoutingTable.key routing) (RoutingTable.value routing)),
      ((table s).others routing).length < capacity →
      ∃ s', setRoutingEntry s routing = .ok s' ∧ table s' = (table s).set routing hrange)
    (hrefuse : ∀ s (routing : RoutingEntry R),
      ¬(p.Admits (RoutingTable.key routing) (RoutingTable.value routing) ∧
        ((table s).others routing).length < capacity) →
      ∃ e, setRoutingEntry s routing = .error e)
    (hremove : ∀ s i o, (removeRoutingEntry s i o).1 = (table s).reported (i, o) ∧
      table (removeRoutingEntry s i o).2 = (table s).erase ⟨i, o, 0, 0⟩) :
    Implements (tableCall setRoutingEntry removeRoutingEntry)
      (fun s => (table s).entries.length ≤ capacity) (fun s => (table s).find?) p.Admits capacity
      fun k s => (table s).reported k where
  size_le s hs := (RoutingTable.size_find? _).trans_le hs
  set s k v hs hadmits hroom := by
    obtain ⟨i, o⟩ := k
    obtain ⟨f, g⟩ := v
    have hothers := (RoutingTable.hasRoom_iff ⟨i, o, f, g⟩ hs).mp hroom
    obtain ⟨s', hcall, htable⟩ := hset s ⟨i, o, f, g⟩ hadmits hothers
    refine ⟨s', by simp only [tableCall, hcall], ?_, ?_⟩
    · rw [htable]
      exact (RoutingTable.length_set hadmits).trans_le hothers
    · rw [htable]
      exact RoutingTable.find?_set hadmits
  refuse s k v hs hnot := by
    obtain ⟨e, hcall⟩ := hrefuse s ⟨k.1, k.2, v.1, v.2⟩ fun h =>
      hnot ⟨h.1, (RoutingTable.hasRoom_iff ⟨k.1, k.2, v.1, v.2⟩ hs).mpr h.2⟩
    exact ⟨e, by simp only [tableCall, hcall]⟩
  remove s k hs := by
    obtain ⟨hreport, htable⟩ := hremove s k.1 k.2
    refine ⟨_, by rw [tableCall, hreport], ?_, ?_⟩
    · rw [htable]
      exact (List.length_filter_le _ _).trans hs
    · rw [htable]
      exact RoutingTable.find?_erase _ _

end Calls

namespace MultichannelConvolverUniform

variable {p : ConvolverParameters R C} {maxRoutingPoints : ℕ}

/-- A call with its result. -/
def call : Call (ℕ × ℕ) (ℕ × R) → MultichannelConvolverUniform p maxRoutingPoints →
    Result Exception × MultichannelConvolverUniform p maxRoutingPoints :=
  tableCall setRoutingEntry removeRoutingEntry

theorem implements_call : Implements call
    (fun c : MultichannelConvolverUniform p maxRoutingPoints =>
      c.routingTable.entries.length ≤ maxRoutingPoints) (fun c => c.routingTable.find?)
    p.Admits maxRoutingPoints fun k c => c.routingTable.reported k := by
  apply implements_tableCall
  · intro c routing hrange hroom
    exact ⟨_, c.setRoutingEntry_of_room routing hrange hroom, rfl⟩
  · intro c routing hnot
    cases hset : c.setRoutingEntry routing with
    | error e => exact ⟨e, rfl⟩
    | ok c' => exact absurd ((setRoutingEntry_eq_ok_iff c routing).mp ⟨c', hset⟩) hnot
  · exact fun c i o => ⟨rfl, rfl⟩

/-- The table never grows beyond its capacity. -/
theorem length_create {initialRoutings : List (RoutingEntry R)} {initialFilters : BasicMatrix R}
    {c : MultichannelConvolverUniform p maxRoutingPoints}
    (h : create p maxRoutingPoints initialRoutings initialFilters = .ok c) :
    c.routingTable.entries.length ≤ maxRoutingPoints := by
  obtain ⟨core, -, h⟩ := exists_of_bind_ok h
  unfold initRoutingTable at h
  split at h
  · cases h
  · refine foldlM_inv
      (I := fun c : MultichannelConvolverUniform p maxRoutingPoints =>
        c.routingTable.entries.length ≤ maxRoutingPoints) ?_ (Nat.zero_le _) h
    intro routing _ c c' _ hset
    have hroom := ((setRoutingEntry_eq_ok_iff c routing).mp ⟨c', hset⟩).2
    obtain ⟨hrange, rfl⟩ := setRoutingEntry_eq_ok hset
    exact (RoutingTable.length_set hrange).trans_le hroom

end MultichannelConvolverUniform

namespace CrossfadingConvolverUniform

variable {q : CrossfadingParameters R C}

/-- A call with its result. -/
def call : Call (ℕ × ℕ) (ℕ × R) → CrossfadingConvolverUniform q →
    Result Exception × CrossfadingConvolverUniform q :=
  tableCall setRoutingEntry removeRoutingEntry

theorem implements_call : Implements (call (q := q))
    (fun c => c.routingTable.entries.length ≤ q.maxNumberOfRoutingPoints)
    (fun c => c.routingTable.find?) q.core.Admits q.maxNumberOfRoutingPoints
    fun k c => c.routingTable.reported k := by
  apply implements_tableCall
  · intro c routing hrange hroom
    obtain ⟨c', hset⟩ := (setRoutingEntry_eq_ok_iff c routing).mpr ⟨hrange, hroom⟩
    obtain ⟨hrange', rfl⟩ := setRoutingEntry_eq_ok hset
    exact ⟨_, hset, rfl⟩
  · intro c routing hnot
    cases hset : c.setRoutingEntry routing with
    | error e => exact ⟨e, rfl⟩
    | ok c' => exact absurd ((setRoutingEntry_eq_ok_iff c routing).mp ⟨c', hset⟩) hnot
  · exact fun c i o => ⟨rfl, rfl⟩

/-- The table never grows beyond its capacity. -/
theorem length_setRoutingEntries (routings : List (RoutingEntry R)) :
    ∀ c : CrossfadingConvolverUniform q,
      c.routingTable.entries.length ≤ q.maxNumberOfRoutingPoints →
      (c.setRoutingEntries routings).1.routingTable.entries.length ≤
        q.maxNumberOfRoutingPoints := by
  induction routings with
  | nil => exact fun c hc => hc
  | cons routing routings ih =>
    intro c hc
    rw [setRoutingEntries]
    cases hset : c.setRoutingEntry routing with
    | error e => exact hc
    | ok c' =>
      have hroom := ((setRoutingEntry_eq_ok_iff c routing).mp ⟨c', hset⟩).2
      obtain ⟨hrange, rfl⟩ := setRoutingEntry_eq_ok hset
      apply ih
      exact (RoutingTable.length_set hrange).trans_le hroom

theorem length_create {initialRoutings : List (RoutingEntry R)} {initialFilters : BasicMatrix R}
    {c : CrossfadingConvolverUniform q} (h : create q initialRoutings initialFilters = .ok c) :
    c.routingTable.entries.length ≤ q.maxNumberOfRoutingPoints := by
  obtain ⟨-, -, -, -, c₀, hinit⟩ := create_spec h
  unfold initRoutingTable at hinit
  dsimp only at hinit
  split at hinit
  · cases (Prod.mk.inj hinit).2
  · have hlength := length_setRoutingEntries initialRoutings c₀.clearRoutingTable (Nat.zero_le _)
    rw [hinit] at hlength
    exact hlength

end CrossfadingConvolverUniform

/-! ### Runs -/

section Runs

variable {p : ConvolverParameters R C} {S : Type}

/-- Removals are for pairs in the table, or for pairs after which there is none. -/
def RemovalsReported (table : S → RoutingTable p) :
    Call (ℕ × ℕ) (ℕ × R) → Session S (ℕ × ℕ) (ℕ × R) Exception → Prop
  | .remove k, s => (table s.state).ReportsRemoval k
  | .set _ _, _ => True

theorem reportsCorrectly_iff {table : S → RoutingTable p} (c : Call (ℕ × ℕ) (ℕ × R))
    (s : Session S (ℕ × ℕ) (ℕ × R) Exception) :
    ReportsCorrectly (fun s => (table s).find?) (fun k s => (table s).reported k) c s ↔
      RemovalsReported table c s := by
  cases c with
  | set k v => exact Iff.rfl
  | remove k => exact RoutingTable.reported_eq_isSome_iff

end Runs

/-- **When the routing tables behave as maps.**  After every call, the tables of both convolvers
are the maps told by the history of the calls, and all results are right, if and only if entries
are only removed if they are in the table or if the table has none after them. -/
theorem routingTables_behaveAsMaps :
    (∀ (p : ConvolverParameters R C) (maxRoutingPoints : ℕ) (initialRoutings : List (RoutingEntry R))
      (initialFilters : BasicMatrix R) (c : MultichannelConvolverUniform p maxRoutingPoints),
      MultichannelConvolverUniform.create p maxRoutingPoints initialRoutings initialFilters = .ok c →
      ∀ calls : List (Call (ℕ × ℕ) (ℕ × R)),
        ((∀ past later t, calls = past ++ later →
          exec (step MultichannelConvolverUniform.call) past ⟨c, []⟩ = some t →
          BehavesAsMap (fun c => c.routingTable.find?) p.Admits maxRoutingPoints
            c.routingTable.find? t) ↔
        Throughout (step MultichannelConvolverUniform.call)
          (RemovalsReported fun c => c.routingTable) calls ⟨c, []⟩)) ∧
    ∀ (q : CrossfadingParameters R C) (initialRoutings : List (RoutingEntry R))
      (initialFilters : BasicMatrix R) (c : CrossfadingConvolverUniform q),
      CrossfadingConvolverUniform.create q initialRoutings initialFilters = .ok c →
      ∀ calls : List (Call (ℕ × ℕ) (ℕ × R)),
        ((∀ past later t, calls = past ++ later →
          exec (step CrossfadingConvolverUniform.call) past ⟨c, []⟩ = some t →
          BehavesAsMap (fun c => c.routingTable.find?) q.core.Admits q.maxNumberOfRoutingPoints
            c.routingTable.find? t) ↔
        Throughout (step CrossfadingConvolverUniform.call)
          (RemovalsReported fun c => c.routingTable) calls ⟨c, []⟩) := by
  refine ⟨?_, ?_⟩
  · intro p maxRoutingPoints initialRoutings initialFilters c hcreate calls
    have hlength := MultichannelConvolverUniform.length_create hcreate
    have hiff := behavesAsMap_iff MultichannelConvolverUniform.implements_call hlength calls
    exact hiff.trans (throughout_congr fun k s => reportsCorrectly_iff k s)
  · intro q initialRoutings initialFilters c hcreate calls
    have hlength := CrossfadingConvolverUniform.length_create hcreate
    have hiff := behavesAsMap_iff CrossfadingConvolverUniform.implements_call hlength calls
    exact hiff.trans (throughout_congr fun k s => reportsCorrectly_iff k s)

/-- The parameters of a delay with a second output. -/
noncomputable def twoOutputs : ConvolverParameters ℝ ℂ :=
  { MultichannelConvolverUniform.delayParameters 2 with numberOfOutputs := 2 }

/-- An entry is replaced in a full table and removed twice. -/
theorem routingTables_behaveAsMaps_single :
    ∃ c t, MultichannelConvolverUniform.create twoOutputs 1 [⟨0, 1, 0, 1⟩]
        (MultichannelConvolverUniform.delayFilter 2) = .ok c ∧
      exec (step MultichannelConvolverUniform.call)
        [.set (0, 1) (0, 2), .remove (0, 1), .remove (0, 1)] ⟨c, []⟩ = some t ∧
      BehavesAsMap (fun c => c.routingTable.find?) twoOutputs.Admits 1 c.routingTable.find? t := by
  obtain ⟨c, hcreate, hset, hremove⟩ : ∃ c, MultichannelConvolverUniform.create twoOutputs 1
      [⟨0, 1, 0, 1⟩] (MultichannelConvolverUniform.delayFilter 2) = .ok c ∧
      (MultichannelConvolverUniform.call (.set (0, 1) (0, 2)) c).2.routingTable.entries =
        [⟨0, 1, 0, 2⟩] ∧
      (MultichannelConvolverUniform.call (.remove (0, 1))
        (MultichannelConvolverUniform.call (.set (0, 1) (0, 2)) c).2).2.routingTable.entries = [] :=
    ⟨_, rfl, rfl, rfl⟩
  obtain ⟨t, ht⟩ := exists_exec MultichannelConvolverUniform.call
    [.set (0, 1) (0, 2), .remove (0, 1), .remove (0, 1)]
    (⟨c, []⟩ : Session _ _ _ Exception)
  refine ⟨c, t, hcreate, ht, ?_⟩
  refine (routingTables_behaveAsMaps.1 _ _ _ _ c hcreate _).mpr ?_ _ [] t
    (List.append_nil _).symm ht
  -- the first removal finds the entry, the second one an empty table
  refine ⟨trivial, ?_⟩
  rintro _ ⟨⟩
  refine ⟨Or.inl (RoutingTable.find?_ne_none_iff.mpr ?_), ?_⟩
  · dsimp only
    rw [hset]
    exact ⟨_, List.mem_cons_self, rfl⟩
  rintro _ ⟨⟩
  refine ⟨Or.inr ?_, fun _ _ => trivial⟩
  dsimp only
  rw [hremove]
  exact List.forall_mem_nil _

/-- The removal of an entry that does not exist is reported, because there is an entry for a
greater output. -/
theorem removeRoutingEntry_absent :
    ∃ c t, MultichannelConvolverUniform.create twoOutputs 1 [⟨0, 1, 0, 1⟩]
        (MultichannelConvolverUniform.delayFilter 2) = .ok c ∧
      exec (step MultichannelConvolverUniform.call) [.remove (0, 0)] ⟨c, []⟩ = some t ∧
      t.history = [(.remove (0, 0), .removed true)] ∧ c.routingTable.find? (0, 0) = none ∧
      ¬BehavesAsMap (fun c => c.routingTable.find?) twoOutputs.Admits 1 c.routingTable.find? t := by
  obtain ⟨c, hcreate, hentries⟩ : ∃ c, MultichannelConvolverUniform.create twoOutputs 1
      [⟨0, 1, 0, 1⟩] (MultichannelConvolverUniform.delayFilter 2) = .ok c ∧
      c.routingTable.entries = [⟨0, 1, 0, 1⟩] := ⟨_, rfl, rfl⟩
  have hfind : c.routingTable.find? (0, 0) = none := by simp [RoutingTable.find?, hentries]
  have hreport : c.routingTable.reported (0, 0) = true := by
    simp [RoutingTable.reported, hentries, compareRoutings]
  have hhistory : [(Call.remove (0, 0), Result.removed (c.routingTable.reported (0, 0)))] =
      [((Call.remove (0, 0) : Call (ℕ × ℕ) (ℕ × ℝ)), (Result.removed true : Result Exception))] := by
    rw [hreport]
  refine ⟨c, _, hcreate, rfl, hhistory, hfind, fun h => ?_⟩
  have hremove := h.remove [] (0, 0) _ [] hhistory
  simp [hfind] at hremove

end Visr
