import Mathlib.Data.List.Sort
import Visr.Libefl.Basic
import Visr.Library.OrderedMap

/-!
# Allocation of rendering channels to objects

A limited number of channels is allocated to a changing set of objects, so that an object
keeps its channel as long as it exists.

## Main results

* `removeEntries_spec`, `insertEntries_spec` — the two passes of `setObjects`.
* `setObjects_stable` — allocation is a partition, complete, and stable over whole runs.
* `getObjectForChannel_eq` — the inverse lookup.
-/

namespace Visr

/-- Object ids are unsigned integers. -/
abbrev ObjectId := ℕ

/-- `Object::cInvalidObjectId`. -/
def cInvalidObjectId : ObjectId := 4294967295

/-- The channels in use by object, and a stack of unused channels with its top at the end. -/
structure ObjectChannelAllocator where
  maxChannels : ℕ
  lookup : OrderedMap ObjectId ℕ
  unusedChannels : List ℕ
  deriving DecidableEq

namespace ObjectChannelAllocator

/-- The constructor fills the stack in descending order. -/
def create (numChannels : ℕ) : ObjectChannelAllocator where
  maxChannels := numChannels
  lookup := .empty
  unusedChannels := (List.range numChannels).map fun idx => numChannels - 1 - idx

def numberUsedChannels (a : ObjectChannelAllocator) : ℕ := a.lookup.keys.length

def releaseChannel (a : ObjectChannelAllocator) (channel : ℕ) : ObjectChannelAllocator :=
  { a with unusedChannels := a.unusedChannels ++ [channel] }

def getUnusedChannel (a : ObjectChannelAllocator) :
    Except Exception (ℕ × ObjectChannelAllocator) :=
  match a.unusedChannels.getLast? with
  | none =>
    .error (.runtimeError
      "ObjectChannelAllocator::getUnusedChannel(): Maximum channel number exceeded.")
  | some nextChannel =>
    .ok (nextChannel, { a with unusedChannels := a.unusedChannels.dropLast })

/-- Erases the entry of an object and releases its channel. -/
def eraseEntry (a : ObjectChannelAllocator) (entry : ObjectId × ℕ) : ObjectChannelAllocator :=
  releaseChannel { a with lookup := a.lookup.erase entry.1 } entry.2

/-- The first pass over the sorted ids and the entries of the table, which removes the
entries of objects that no longer exist. -/
def removeEntries : List ObjectId → List (ObjectId × ℕ) → ObjectChannelAllocator →
    ObjectChannelAllocator
  | _, [], a => a
  | [], entry :: entries, a => removeEntries [] entries (a.eraseEntry entry)
  | id :: ids, entry :: entries, a =>
    if id < entry.1 then removeEntries ids (entry :: entries) a
    else if id = entry.1 then removeEntries ids entries a
    else removeEntries (id :: ids) entries (a.eraseEntry entry)
termination_by ids entries => ids.length + entries.length

/-- Whether the iterator `lookupIt` into the table is past the place of an id.  An iterator
is represented by the key that it points to, with `none` for the end of the table. -/
def isPast (lookupIt : Option ObjectId) (id : ObjectId) : Bool :=
  match lookupIt with
  | none => true
  | some key => id < key

/-- `++lookupIt`. -/
def nextEntry (a : ObjectChannelAllocator) (lookupIt : Option ObjectId) : Option ObjectId :=
  match lookupIt with
  | none => none
  | some key => a.lookup.first fun k => key < k

/-- The second pass over the sorted ids, which inserts the objects that are not yet in the
table.  It returns the state also when it throws. -/
def insertEntries : List ObjectId → Option ObjectId → ObjectChannelAllocator →
    Except Exception Unit × ObjectChannelAllocator
  | [], _, a => (.ok (), a)
  | id :: ids, lookupIt, a =>
    if isPast lookupIt id then
      match a.getUnusedChannel with
      | .error e => (.error e, a)
      | .ok (newChannelId, a) =>
        if (a.lookup.find? id).isSome then
          (.error (.logicError "Tried to insert a duplicate channel ID."), a)
        else insertEntries ids lookupIt { a with lookup := a.lookup.insert id newChannelId }
    else insertEntries ids (a.nextEntry lookupIt) a

/-- Sets the objects that exist from now on. -/
def setObjects (a : ObjectChannelAllocator) (objectIds : List ObjectId) :
    Except Exception Unit × ObjectChannelAllocator :=
  if objectIds.length > a.maxChannels then
    (.error (.invalidArgument ("ObjectChannelAllocator:setObjects(): " ++
      "Object id vector exceeds number of channels.")), a)
  else
    let sortedIds := objectIds.mergeSort
    let removed := removeEntries sortedIds a.lookup.entries a
    insertEntries sortedIds (removed.lookup.first fun _ => true) removed

/-- The object that a channel is allocated to. -/
def getObjectForChannel (a : ObjectChannelAllocator) (channelId : ℕ) : ObjectId :=
  match a.lookup.entries.find? fun entry => entry.2 = channelId with
  | none => cInvalidObjectId
  | some entry => entry.1

/-! ### The partition of the channels -/

/-- Each of the channels is either in use by exactly one object or unused. -/
def Partitioned (a : ObjectChannelAllocator) (numChannels : ℕ) : Prop :=
  (a.lookup.values ++ a.unusedChannels).Perm (List.range numChannels)

theorem partitioned_create (numChannels : ℕ) :
    (create numChannels).Partitioned numChannels := by
  have hreverse : (List.range numChannels).map (fun idx => numChannels - 1 - idx) =
      (List.range numChannels).reverse := by
    rw [List.range_eq_range', List.reverse_range', List.range_eq_range']
    simp
  show ([] ++ (List.range numChannels).map fun idx => numChannels - 1 - idx).Perm _
  rw [List.nil_append, hreverse]
  exact List.reverse_perm _

/-- Erasing an entry moves its channel to the unused ones. -/
theorem eraseEntry_perm {a : ObjectChannelAllocator} {entry : ObjectId × ℕ}
    (h : a.lookup.find? entry.1 = some entry.2) :
    ((a.eraseEntry entry).lookup.values ++ (a.eraseEntry entry).unusedChannels).Perm
      (a.lookup.values ++ a.unusedChannels) := by
  show ((a.lookup.erase entry.1).values ++ (a.unusedChannels ++ [entry.2])).Perm _
  calc (a.lookup.erase entry.1).values ++ (a.unusedChannels ++ [entry.2])
      |>.Perm ((a.unusedChannels ++ [entry.2]) ++ (a.lookup.erase entry.1).values) :=
        List.perm_append_comm
    _ |>.Perm (a.unusedChannels ++ (entry.2 :: (a.lookup.erase entry.1).values)) := by simp
    _ |>.Perm (a.unusedChannels ++ a.lookup.values) :=
        (OrderedMap.values_erase_perm h).symm.append_left _
    _ |>.Perm (a.lookup.values ++ a.unusedChannels) := List.perm_append_comm

/-- Inserting an entry takes its channel from the unused ones. -/
theorem insertEntry_perm {a : ObjectChannelAllocator} {id : ObjectId} {channel : ℕ}
    {unused : List ℕ} (h : a.lookup.find? id = none)
    (hunused : a.unusedChannels = unused ++ [channel]) :
    ((a.lookup.insert id channel).values ++ unused).Perm (a.lookup.values ++ a.unusedChannels) := by
  calc (a.lookup.insert id channel).values ++ unused
      |>.Perm (channel :: (a.lookup.values ++ unused)) :=
        (OrderedMap.values_insert_perm channel h).append_right _
    _ |>.Perm (a.lookup.values ++ (channel :: unused)) := List.perm_middle.symm
    _ |>.Perm (a.lookup.values ++ (unused ++ [channel])) :=
        (List.perm_append_singleton channel unused).symm.append_left _
    _ |>.Perm (a.lookup.values ++ a.unusedChannels) := by rw [hunused]

/-! ### The first pass -/

/-- Some entries have been removed from the table, and their channels have been released. -/
structure Removed (a a' : ObjectChannelAllocator) (gone : ObjectId → Prop) : Prop where
  maxChannels : a'.maxChannels = a.maxChannels
  find_gone : ∀ j, gone j → a'.lookup.find? j = none
  find_kept : ∀ j, ¬gone j → a'.lookup.find? j = a.lookup.find? j
  perm : (a'.lookup.values ++ a'.unusedChannels).Perm (a.lookup.values ++ a.unusedChannels)

theorem Removed.refl (a : ObjectChannelAllocator) {gone : ObjectId → Prop}
    (h : ∀ j, ¬gone j) : Removed a a gone :=
  ⟨rfl, fun j hj => absurd hj (h j), fun _ _ => rfl, List.Perm.refl _⟩

theorem Removed.congr {a a' : ObjectChannelAllocator} {gone gone' : ObjectId → Prop}
    (h : Removed a a' gone) (hgone : ∀ j, gone j ↔ gone' j) : Removed a a' gone' := by
  have heq : gone = gone' := funext fun j => propext (hgone j)
  rwa [← heq]

/-- Removing one more entry first. -/
theorem Removed.erase {a a' : ObjectChannelAllocator} {entry : ObjectId × ℕ}
    {gone : ObjectId → Prop} (hentry : a.lookup.find? entry.1 = some entry.2)
    (h : Removed (a.eraseEntry entry) a' gone) :
    Removed a a' fun j => j = entry.1 ∨ gone j where
  maxChannels := h.maxChannels
  find_gone j hj := by
    by_cases hg : gone j
    · exact h.find_gone j hg
    · rw [h.find_kept j hg]
      show (a.lookup.erase entry.1).find? j = none
      rw [OrderedMap.find?_erase, if_pos (hj.resolve_right hg)]
  find_kept j hj := by
    rw [not_or] at hj
    rw [h.find_kept j hj.2]
    show (a.lookup.erase entry.1).find? j = _
    rw [OrderedMap.find?_erase, if_neg hj.1]
  perm := h.perm.trans (eraseEntry_perm hentry)

/-- The remaining entries of the table are still in it after one of them is erased. -/
theorem find_eraseEntry {a : ObjectChannelAllocator} {entry : ObjectId × ℕ}
    {entries : List (ObjectId × ℕ)} (hfirst : ∀ e ∈ entries, entry.1 < e.1)
    (hfind : ∀ e ∈ entries, a.lookup.find? e.1 = some e.2) :
    ∀ e ∈ entries, (a.eraseEntry entry).lookup.find? e.1 = some e.2 := by
  intro e he
  show (a.lookup.erase entry.1).find? e.1 = _
  rw [OrderedMap.find?_erase, if_neg (ne_of_gt (hfirst e he)), hfind e he]

/-- **The first pass** removes the objects that are not among the sorted ids. -/
theorem removeEntries_spec (ids : List ObjectId) (entries : List (ObjectId × ℕ))
    (a : ObjectChannelAllocator) (hids : ids.Pairwise (· < ·))
    (hentries : entries.Pairwise fun e e' => e.1 < e'.1)
    (hfind : ∀ e ∈ entries, a.lookup.find? e.1 = some e.2) :
    Removed a (removeEntries ids entries a)
      fun j => j ∈ entries.map Prod.fst ∧ j ∉ ids := by
  induction ids, entries, a using removeEntries.induct with
  | case1 ids a =>
    rw [removeEntries]
    exact Removed.refl a (by simp)
  | case2 a entry entries ih =>
    -- no more ids: everything that is left is removed
    obtain ⟨hfirst, hrest⟩ := List.pairwise_cons.mp hentries
    obtain ⟨hentry, hfind⟩ := List.forall_mem_cons.mp hfind
    rw [removeEntries]
    have hremoved := (ih hids hrest (find_eraseEntry hfirst hfind)).erase hentry
    exact hremoved.congr (by simp)
  | case3 id ids entry entries a hlt ih =>
    -- an id that is not in the table
    rw [removeEntries, if_pos hlt]
    refine (ih hids.of_cons hentries hfind).congr fun j => ?_
    have hne : j ∈ (entry :: entries).map Prod.fst → j ≠ id := by
      intro hj
      obtain ⟨e, he, rfl⟩ := List.mem_map.mp hj
      rcases List.mem_cons.mp he with rfl | he
      · exact ne_of_gt hlt
      · exact ne_of_gt (lt_trans hlt ((List.pairwise_cons.mp hentries).1 e he))
    rw [List.mem_cons (a := j) (b := id)]
    tauto
  | case4 ids entry entries a hge ih =>
    -- an object that still exists
    obtain ⟨hfirst, hrest⟩ := List.pairwise_cons.mp hentries
    obtain ⟨hentry, hfind⟩ := List.forall_mem_cons.mp hfind
    rw [removeEntries, if_neg hge, if_pos rfl]
    refine (ih hids.of_cons hrest hfind).congr fun j => ?_
    have hne : j ∈ entries.map Prod.fst → j ≠ entry.1 := by
      intro hj
      obtain ⟨e, he, rfl⟩ := List.mem_map.mp hj
      exact ne_of_gt (hfirst e he)
    rw [List.map_cons, List.mem_cons, List.mem_cons]
    tauto
  | case5 id ids entry entries a hge hne ih =>
    -- an object that no longer exists
    obtain ⟨hfirst, hrest⟩ := List.pairwise_cons.mp hentries
    obtain ⟨hentry, hfind⟩ := List.forall_mem_cons.mp hfind
    rw [removeEntries, if_neg hge, if_neg hne]
    have hremoved := (ih hids hrest (find_eraseEntry hfirst hfind)).erase hentry
    refine hremoved.congr fun j => ?_
    have hmissing : entry.1 ∉ id :: ids := by
      rw [List.mem_cons, not_or]
      exact ⟨Ne.symm hne, fun hmem => hge ((List.pairwise_cons.mp hids).1 _ hmem)⟩
    rw [List.map_cons, List.mem_cons (b := entry.1)]
    constructor
    · rintro (rfl | ⟨hj, hj'⟩)
      · exact ⟨Or.inl rfl, hmissing⟩
      · exact ⟨Or.inr hj, hj'⟩
    · rintro ⟨hj, hj'⟩
      rcases hj with rfl | hj
      · exact Or.inl rfl
      · exact Or.inr ⟨hj, hj'⟩

/-! ### The second pass -/

/-- The iterator into the table points to the first entry of an object that is still to be
visited, and all other entries belong to smaller ids. -/
structure Synchronised (a : ObjectChannelAllocator) (ids : List ObjectId)
    (lookupIt : Option ObjectId) : Prop where
  iterator : lookupIt = a.lookup.first fun k => k ∈ ids
  keys : ∀ k ∈ a.lookup.keys, k ∈ ids ∨ ∀ j ∈ ids, k < j

/-- All ids have been entered into the table with channels that have been unused. -/
structure Inserted (a a' : ObjectChannelAllocator) (ids : List ObjectId) : Prop where
  maxChannels : a'.maxChannels = a.maxChannels
  find_kept : ∀ j channel, a.lookup.find? j = some channel → a'.lookup.find? j = some channel
  keys : ∀ j, j ∈ a'.lookup.keys ↔ j ∈ ids ∨ j ∈ a.lookup.keys
  perm : (a'.lookup.values ++ a'.unusedChannels).Perm (a.lookup.values ++ a.unusedChannels)

/-- An id is new exactly if the iterator is past its place. -/
theorem Synchronised.isPast_iff {a : ObjectChannelAllocator} {id : ObjectId} {ids : List ObjectId}
    {lookupIt : Option ObjectId} (h : a.Synchronised (id :: ids) lookupIt)
    (hids : (id :: ids).Pairwise (· < ·)) :
    isPast lookupIt id = true ↔ id ∉ a.lookup.keys := by
  have hiterator := h.iterator
  cases lookupIt with
  | none =>
    refine iff_of_true rfl fun hmem => ?_
    have hnone := OrderedMap.first_eq_none.mp hiterator.symm id hmem
    simp at hnone
  | some key =>
    obtain ⟨hkey, hmem, hleast⟩ := OrderedMap.first_eq_some.mp hiterator.symm
    simp only [decide_eq_true_eq] at hmem hleast
    show decide (id < key) = true ↔ _
    rw [decide_eq_true_eq]
    constructor
    · intro hlt hid
      have hle := hleast id hid List.mem_cons_self
      exact absurd hlt (Nat.not_lt.mpr hle)
    · intro hid
      rcases List.mem_cons.mp hmem with rfl | hlater
      · exact absurd hkey hid
      · exact (List.pairwise_cons.mp hids).1 key hlater

/-- Advancing past the entry of an object that is in the table. -/
theorem Synchronised.next {a : ObjectChannelAllocator} {id : ObjectId} {ids : List ObjectId}
    {lookupIt : Option ObjectId} (h : a.Synchronised (id :: ids) lookupIt)
    (hids : (id :: ids).Pairwise (· < ·)) (hid : id ∈ a.lookup.keys) :
    a.Synchronised ids (a.nextEntry lookupIt) := by
  obtain ⟨hafter, -⟩ := List.pairwise_cons.mp hids
  -- the iterator is at the least key that is not before the object
  have hfirst : lookupIt = some id := by
    rw [h.iterator, OrderedMap.first_eq_some]
    refine ⟨hid, by simp, fun j _ hj => ?_⟩
    simp only [List.mem_cons, decide_eq_true_eq] at hj
    rcases hj with rfl | hj
    · exact le_refl _
    · exact le_of_lt (hafter j hj)
  constructor
  · rw [hfirst]
    show a.lookup.first (fun k => id < k) = _
    refine OrderedMap.first_congr fun k hk => ?_
    rw [decide_eq_decide]
    constructor
    · intro hlt
      rcases h.keys k hk with hmem | hbefore
      · exact (List.mem_cons.mp hmem).resolve_left (ne_of_gt hlt)
      · exact absurd (hbefore id List.mem_cons_self) (lt_asymm hlt)
    · exact hafter k
  · intro k hk
    rcases h.keys k hk with hmem | hbefore
    · rcases List.mem_cons.mp hmem with rfl | hmem
      · exact Or.inr hafter
      · exact Or.inl hmem
    · exact Or.inr fun j hj => hbefore j (List.mem_cons_of_mem _ hj)

/-- Entering a new object leaves the iterator where it is. -/
theorem Synchronised.insert {a : ObjectChannelAllocator} {id : ObjectId} {ids : List ObjectId}
    {lookupIt : Option ObjectId} (h : a.Synchronised (id :: ids) lookupIt)
    (hids : (id :: ids).Pairwise (· < ·)) (hid : a.lookup.find? id = none) (channel : ℕ)
    (unused : List ℕ) :
    Synchronised { a with lookup := a.lookup.insert id channel, unusedChannels := unused }
      ids lookupIt := by
  obtain ⟨hafter, -⟩ := List.pairwise_cons.mp hids
  have hkeys : ∀ k, k ∈ (a.lookup.insert id channel).keys ↔ k = id ∨ k ∈ a.lookup.keys := by
    intro k
    rw [(OrderedMap.keys_insert_perm channel hid).mem_iff, List.mem_cons]
  have hself : id ∉ ids := fun hmem => lt_irrefl id (hafter id hmem)
  constructor
  · show lookupIt = (a.lookup.insert id channel).first _
    rw [h.iterator]
    have hnew := OrderedMap.find?_eq_none_iff.mp hid
    -- the new entry is none of the objects still to be visited
    rcases hfirst : (a.lookup.insert id channel).first (fun k => k ∈ ids) with _ | key
    · rw [OrderedMap.first_eq_none] at hfirst ⊢
      intro k hk
      have hnot := hfirst k ((hkeys k).mpr (Or.inr hk))
      have hne : k ≠ id := fun heq => hnew (heq ▸ hk)
      simpa [hne] using hnot
    · rw [OrderedMap.first_eq_some] at hfirst ⊢
      obtain ⟨hmem, hlater, hleast⟩ := hfirst
      simp only [decide_eq_true_eq] at hlater hleast ⊢
      have hne : key ≠ id := fun heq => hself (heq ▸ hlater)
      refine ⟨((hkeys key).mp hmem).resolve_left hne, List.mem_cons_of_mem _ hlater, ?_⟩
      intro j hj hj'
      have hjne : j ≠ id := fun heq => hnew (heq ▸ hj)
      exact hleast j ((hkeys j).mpr (Or.inr hj)) ((List.mem_cons.mp hj').resolve_left hjne)
  · intro k hk
    rcases (hkeys k).mp hk with rfl | hk
    · exact Or.inr hafter
    · rcases h.keys k hk with hmem | hbefore
      · rcases List.mem_cons.mp hmem with rfl | hmem
        · exact Or.inr hafter
        · exact Or.inl hmem
      · exact Or.inr fun j hj => hbefore j (List.mem_cons_of_mem _ hj)

/-- As long as there are more channels than objects, some channel is unused. -/
theorem exists_unused {a : ObjectChannelAllocator} {numChannels : ℕ}
    (h : a.Partitioned numChannels) (hfree : a.lookup.keys.length < numChannels) :
    ∃ unused channel, a.unusedChannels = unused ++ [channel] := by
  have hlength := h.length_eq
  rw [List.length_append, List.length_range, ← OrderedMap.length_keys] at hlength
  have hne : a.unusedChannels ≠ [] := by
    intro hnil
    rw [hnil, List.length_nil] at hlength
    omega
  exact ⟨_, _, (List.dropLast_append_getLast hne).symm⟩

theorem getUnusedChannel_eq {a : ObjectChannelAllocator} {unused : List ℕ} {channel : ℕ}
    (h : a.unusedChannels = unused ++ [channel]) :
    a.getUnusedChannel = .ok (channel, { a with unusedChannels := unused }) := by
  simp [getUnusedChannel, h]

/-- **The second pass** enters all ids, if there are enough channels. -/
theorem insertEntries_spec {numChannels : ℕ} (ids : List ObjectId)
    (hids : ids.Pairwise (· < ·)) (lookupIt : Option ObjectId) (a : ObjectChannelAllocator)
    (hsync : a.Synchronised ids lookupIt) (hpart : a.Partitioned numChannels)
    (hroom : ∀ keys : List ObjectId, keys.Nodup → (∀ j ∈ keys, j ∈ ids ∨ j ∈ a.lookup.keys) →
      keys.length ≤ numChannels) :
    ∃ a', insertEntries ids lookupIt a = (.ok (), a') ∧ Inserted a a' ids := by
  -- by induction on the ids, which come in the order of the map
  induction ids generalizing lookupIt a with
  | nil =>
    exact ⟨a, rfl, ⟨rfl, fun _ _ h => h, by simp, List.Perm.refl _⟩⟩
  | cons id ids ih =>
    rw [insertEntries]
    by_cases hnew : id ∈ a.lookup.keys
    · -- the object keeps its entry
      have hpast : ¬isPast lookupIt id = true := fun h => (hsync.isPast_iff hids).mp h hnew
      rw [if_neg hpast]
      obtain ⟨a', hrest, hins⟩ := ih hids.of_cons _ a (hsync.next hids hnew) hpart
        fun keys hnodup hkeys => hroom keys hnodup fun j hj =>
          (hkeys j hj).imp_left (List.mem_cons_of_mem _)
      refine ⟨a', hrest, ⟨hins.maxChannels, hins.find_kept, fun j => ?_, hins.perm⟩⟩
      rw [hins.keys, List.mem_cons]
      constructor
      · rintro (hj | hj)
        · exact Or.inl (Or.inr hj)
        · exact Or.inr hj
      · rintro ((rfl | hj) | hj)
        · exact Or.inr hnew
        · exact Or.inl hj
        · exact Or.inr hj
    · -- a new object takes the channel on top of the stack
      have hnone := OrderedMap.find?_eq_none_iff.mpr hnew
      have hfree : a.lookup.keys.length < numChannels := by
        have hle := hroom (id :: a.lookup.keys)
          (List.nodup_cons.mpr ⟨hnew, a.lookup.nodup_keys⟩) ?_
        · rw [List.length_cons] at hle
          omega
        · intro j hj
          rcases List.mem_cons.mp hj with rfl | hj
          · exact Or.inl List.mem_cons_self
          · exact Or.inr hj
      obtain ⟨unused, channel, hunused⟩ := exists_unused hpart hfree
      have hperm := insertEntry_perm hnone hunused
      rw [if_pos ((hsync.isPast_iff hids).mpr hnew), getUnusedChannel_eq hunused]
      simp only [hnone, Option.isSome_none, Bool.false_eq_true, if_false]
      have hkeys : ∀ j, j ∈ (a.lookup.insert id channel).keys ↔ j = id ∨ j ∈ a.lookup.keys := by
        intro j
        rw [(OrderedMap.keys_insert_perm channel hnone).mem_iff, List.mem_cons]
      have hroom' : ∀ keys : List ObjectId, keys.Nodup →
          (∀ j ∈ keys, j ∈ ids ∨ j ∈ (a.lookup.insert id channel).keys) →
          keys.length ≤ numChannels := by
        intro keys hnodup hmem
        refine hroom keys hnodup fun j hj => ?_
        rw [List.mem_cons]
        rcases hmem j hj with hj | hj
        · exact Or.inl (Or.inr hj)
        · rcases (hkeys j).mp hj with rfl | hj
          · exact Or.inl (Or.inl rfl)
          · exact Or.inr hj
      obtain ⟨a', hrest, hins⟩ := ih hids.of_cons lookupIt _
        (hsync.insert hids hnone channel unused) (hperm.trans hpart) hroom'
      refine ⟨a', hrest, ⟨hins.maxChannels, ?_, ?_, hins.perm.trans hperm⟩⟩
      · intro j ch hj
        have hne : j ≠ id := by
          rintro rfl
          rw [hnone] at hj
          cases hj
        apply hins.find_kept
        rw [OrderedMap.find?_insert channel hnone, if_neg hne, hj]
      · intro j
        rw [hins.keys, hkeys, List.mem_cons]
        tauto

/-! ### Whole runs -/

/-- The states reached from the constructor by calls with distinct ids. -/
inductive Reachable (numChannels : ℕ) : ObjectChannelAllocator → Prop
  | create : Reachable numChannels (create numChannels)
  | setObjects {a : ObjectChannelAllocator} (h : Reachable numChannels a)
      {objectIds : List ObjectId} (hdistinct : objectIds.Nodup) :
      Reachable numChannels (a.setObjects objectIds).2

/-- Too many objects are refused. -/
theorem setObjects_refused {a : ObjectChannelAllocator} {objectIds : List ObjectId}
    (h : a.maxChannels < objectIds.length) :
    a.setObjects objectIds = (.error (.invalidArgument ("ObjectChannelAllocator:setObjects(): " ++
      "Object id vector exceeds number of channels.")), a) :=
  if_pos h

/-- One call: all objects are allocated, and those known before keep their channels. -/
theorem setObjects_spec {a : ObjectChannelAllocator} (hpart : a.Partitioned a.maxChannels)
    {objectIds : List ObjectId} (hdistinct : objectIds.Nodup)
    (hsize : objectIds.length ≤ a.maxChannels) :
    ∃ a', a.setObjects objectIds = (.ok (), a') ∧ a'.maxChannels = a.maxChannels ∧
      a'.Partitioned a.maxChannels ∧ (∀ id, id ∈ a'.lookup.keys ↔ id ∈ objectIds) ∧
      ∀ id ∈ objectIds, ∀ channel, a.lookup.find? id = some channel →
        a'.lookup.find? id = some channel := by
  have hmem : ∀ id, id ∈ objectIds.mergeSort ↔ id ∈ objectIds := fun _ => List.mem_mergeSort
  have hsorted : (objectIds.mergeSort).Pairwise (· < ·) := by
    have hle : (objectIds.mergeSort).Pairwise (· ≤ ·) := List.pairwise_mergeSort' _ _
    have hne : (objectIds.mergeSort).Nodup := (List.mergeSort_perm _ _).nodup_iff.mpr hdistinct
    exact hle.imp₂ (fun _ _ h h' => lt_of_le_of_ne h h') hne
  have hremoved := removeEntries_spec objectIds.mergeSort a.lookup.entries a hsorted
    (List.pairwise_map.mp a.lookup.sorted) fun e he => OrderedMap.find?_of_mem he
  generalize hremovedState : removeEntries objectIds.mergeSort a.lookup.entries a = removed
    at hremoved
  -- what is left in the table are objects that still exist
  have hkept : ∀ k, k ∈ removed.lookup.keys → k ∈ objectIds := by
    intro k hk
    by_contra hnot
    refine OrderedMap.find?_eq_none_iff.mp ?_ hk
    by_cases hold : k ∈ a.lookup.keys
    · exact hremoved.find_gone k ⟨hold, fun h => hnot ((hmem k).mp h)⟩
    · rw [hremoved.find_kept k fun h => hold h.1]
      exact OrderedMap.find?_eq_none_iff.mpr hold
  have hsync : removed.Synchronised objectIds.mergeSort
      (removed.lookup.first fun _ => true) := by
    constructor
    · refine OrderedMap.first_congr fun k hk => ?_
      rw [eq_comm, decide_eq_true_eq, hmem]
      exact hkept k hk
    · exact fun k hk => Or.inl ((hmem k).mpr (hkept k hk))
  obtain ⟨a', hrun, hins⟩ := insertEntries_spec objectIds.mergeSort hsorted _ removed hsync
    (hremoved.perm.trans hpart) fun keys hnodup hkeys => by
      have hsub : keys.Subperm objectIds := List.subperm_of_subset hnodup fun j hj => by
        rcases hkeys j hj with hj | hj
        · exact (hmem j).mp hj
        · exact hkept j hj
      exact hsub.length_le.trans hsize
  refine ⟨a', ?_, hins.maxChannels.trans hremoved.maxChannels,
    hins.perm.trans (hremoved.perm.trans hpart), fun id => ?_, fun id hid channel hfind => ?_⟩
  · rw [setObjects, if_neg (Nat.not_lt.mpr hsize)]
    show insertEntries objectIds.mergeSort _ _ = _
    rw [hremovedState]
    exact hrun
  · rw [hins.keys, hmem]
    exact ⟨fun h => h.elim (fun hid => hid) (hkept id), Or.inl⟩
  · apply hins.find_kept
    rw [hremoved.find_kept id fun h => h.2 ((hmem id).mpr hid), hfind]

theorem Reachable.partitioned {numChannels : ℕ} {a : ObjectChannelAllocator}
    (h : Reachable numChannels a) : a.maxChannels = numChannels ∧ a.Partitioned numChannels := by
  induction h with
  | create => exact ⟨rfl, partitioned_create numChannels⟩
  | @setObjects a h objectIds hdistinct ih =>
    obtain ⟨hmax, hpart⟩ := ih
    subst hmax
    by_cases hsize : objectIds.length ≤ a.maxChannels
    · obtain ⟨a', hrun, hmax, hpart', -⟩ := setObjects_spec hpart hdistinct hsize
      rw [hrun]
      exact ⟨hmax, hpart'⟩
    · rw [setObjects_refused (Nat.not_le.mp hsize)]
      exact ⟨rfl, hpart⟩

/-- **Allocation is a partition, complete and stable.**  In every run, the channels in use
and the unused ones together are all channels, each of them once; objects that stay keep
their channels; too many objects are refused without any change, and otherwise exactly
the given objects are allocated. -/
theorem setObjects_stable {numChannels : ℕ} {a : ObjectChannelAllocator}
    (h : Reachable numChannels a) {objectIds : List ObjectId} (hdistinct : objectIds.Nodup) :
    (a.setObjects objectIds).2.Partitioned numChannels ∧
    (∀ id channel, a.lookup.find? id = some channel →
      id ∈ (a.setObjects objectIds).2.lookup.keys →
      (a.setObjects objectIds).2.lookup.find? id = some channel) ∧
    (numChannels < objectIds.length →
      (∃ what, (a.setObjects objectIds).1 = .error (.invalidArgument what)) ∧
        (a.setObjects objectIds).2 = a) ∧
    (objectIds.length ≤ numChannels → (a.setObjects objectIds).1 = .ok () ∧
      ∀ id, id ∈ (a.setObjects objectIds).2.lookup.keys ↔ id ∈ objectIds) := by
  obtain ⟨hmax, hpart⟩ := h.partitioned
  subst hmax
  by_cases hsize : objectIds.length ≤ a.maxChannels
  · obtain ⟨a', hrun, hmax, hpart', hkeys, hkept⟩ := setObjects_spec hpart hdistinct hsize
    rw [hrun]
    refine ⟨hpart', fun id channel hfind hid => ?_, fun hlt => ?_, fun _ => ⟨rfl, hkeys⟩⟩
    · exact hkept id ((hkeys id).mp hid) channel hfind
    · omega
  · rw [setObjects_refused (Nat.not_le.mp hsize)]
    exact ⟨hpart, fun _ _ hfind _ => hfind, fun _ => ⟨⟨_, rfl⟩, rfl⟩, fun hle => absurd hle hsize⟩

/-- An object that stays keeps its channel while others come and go. -/
theorem setObjects_stable_example :
    ((((create 2).setObjects [7, 3]).2.setObjects [9, 3]).2).lookup.find? 3 = some 0 := by
  have hreach : Reachable 2 ((create 2).setObjects [7, 3]).2 :=
    Reachable.create.setObjects (by decide)
  have hdistinct : ([9, 3] : List ObjectId).Nodup := by decide
  obtain ⟨-, hkept, -, hkeys⟩ := setObjects_stable hreach hdistinct
  refine hkept 3 0 ?_ (((hkeys (by decide)).2 3).mpr (by decide))
  simp [setObjects, create, removeEntries, insertEntries, isPast, getUnusedChannel,
    OrderedMap.first, OrderedMap.find?, OrderedMap.insert, OrderedMap.insertEntry,
    OrderedMap.empty, OrderedMap.keys, List.mergeSort, List.range, List.range.loop]

/-- The inverse lookup finds an object of the channel, or none. -/
theorem getObjectForChannel_cases (a : ObjectChannelAllocator) (channel : ℕ) :
    a.getObjectForChannel channel = cInvalidObjectId ∨
      a.lookup.find? (a.getObjectForChannel channel) = some channel := by
  unfold getObjectForChannel
  split
  next => exact Or.inl rfl
  next entry hentry =>
    have hchannel : entry.2 = channel := by simpa using List.find?_some hentry
    refine Or.inr ?_
    rw [← hchannel]
    exact OrderedMap.find?_of_mem (List.mem_of_find?_eq_some hentry)

/-- The inverse lookup finds the object of a channel in use. -/
theorem getObjectForChannel_eq {numChannels : ℕ} {a : ObjectChannelAllocator}
    (h : Reachable numChannels a) {id : ObjectId} {channel : ℕ}
    (hfind : a.lookup.find? id = some channel) : a.getObjectForChannel channel = id := by
  have hmem := OrderedMap.mem_of_find? hfind
  have hnodup : a.lookup.values.Nodup := by
    have hall := h.partitioned.2.nodup_iff.mpr List.nodup_range
    exact (List.nodup_append.mp hall).1
  unfold getObjectForChannel
  split
  next hnone =>
    have hnot := List.find?_eq_none.mp hnone _ hmem
    simp at hnot
  next entry hentry =>
    have hchannel : entry.2 = channel := by simpa using List.find?_some hentry
    have heq := List.inj_on_of_nodup_map hnodup (List.mem_of_find?_eq_some hentry) hmem hchannel
    rw [heq]

end ObjectChannelAllocator

end Visr
