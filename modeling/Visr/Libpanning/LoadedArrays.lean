import Mathlib.Data.List.Find
import Visr.Libpanning.LoudspeakerConfiguration
import Visr.Library.Writes

/-!
# Loaded loudspeaker arrays

What a document that has been loaded leaves in a loudspeaker array.

## Main results

* `LoudspeakerArray.loadSpeakers_spec`, `LoudspeakerArray.loadVirtualSpeakers_spec`,
  `LoudspeakerArray.loadSubwoofers_spec` — the parts of the loader.
* `LoudspeakerArray.consistent_iff` — which documents are loaded consistently.
-/

namespace Visr

open PropertyTree

namespace PropertyTree

/-- What is read without a default can be read with one. -/
theorem getOptional_of_get {α : Type} {read : String → Option α} {path : List String}
    {t : PropertyTree} {value : α} (h : t.get read path = .ok value) :
    t.getOptional read path = some value := by
  obtain ⟨child, hchild, hconvert⟩ := exists_of_bind_ok h
  unfold getChild at hchild
  unfold convert at hconvert
  split at hchild
  next found hfound =>
    cases hchild
    split at hconvert
    next value' hvalue =>
      cases hconvert
      unfold getOptional
      rw [hfound]
      exact hvalue
    · cases hconvert
  · cases hchild

end PropertyTree

namespace LoudspeakerArray

variable {F : Type} [FloatArithmetic F] (env : XmlPlatform F)

/-! ### What the document says -/

def rawId (node : PropertyTree) : String := (node.getOptional some (xmlAttribute "id")).getD ""

/-- The id of a loudspeaker, with surrounding blanks removed. -/
def speakerId (node : PropertyTree) : String := trim (rawId node)

def channelNumber (node : PropertyTree) : ℕ :=
  (node.getOptional env.getIndex (xmlAttribute "channel")).getD 0

/-- The loudspeaker that a route leads to. -/
def routeTarget (route : PropertyTree) : String :=
  trim ((route.getOptional some (xmlAttribute "lspId")).getD "")

def routeGain (route : PropertyTree) : F :=
  (route.getOptional env.getFloat (xmlAttribute "gainDB")).elim 0 env.dB2linear

/-- The gain of the last route of a virtual loudspeaker that meets a condition. -/
def lastGain (q : PropertyTree → Bool) (node : PropertyTree) (default : F) : F :=
  ((node.equalRange "route").reverse.find? q).elim default (routeGain env)

/-- Only the routes of the loudspeaker matter. -/
theorem lastGain_congr {q q' : PropertyTree → Bool} {node : PropertyTree}
    (h : ∀ route ∈ node.equalRange "route", q route = q' route) (default : F) :
    lastGain env q node default = lastGain env q' node default := by
  unfold lastGain
  rw [List.find?_congr fun route hroute => h route (List.mem_reverse.mp hroute)]

/-- The gain with which a virtual loudspeaker is routed to the loudspeaker with an id. -/
def lastRouteGain (node : PropertyTree) (id : String) : F :=
  lastGain env (fun route => routeTarget route = id) node 0

def tripletMember (name : String) (node : PropertyTree) : String :=
  trim ((node.getOptional some (xmlAttribute name)).getD "")

/-- What is stored at an index. -/
def entryAt (a : LoudspeakerArray F) (index : ℕ) : SpeakerEntry F where
  position := a.position index
  gainAdjustment := a.gainAdjustment index
  delayAdjustment := a.delayAdjustment index
  outputEq := a.outputEqs.map fun rows => rows index

/-- The members of a triplet by their ids.  In two dimensions the third one is not used. -/
def TripletStored (a : LoudspeakerArray F) (node : PropertyTree) (triplet : ℕ × ℕ × ℕ) : Prop :=
  a.id.find? (tripletMember "l1" node) = some triplet.1 ∧
    a.id.find? (tripletMember "l2" node) = some triplet.2.1 ∧
    if a.is2D then triplet.2.2 = unusedIndex
    else a.id.find? (tripletMember "l3" node) = some triplet.2.2

/-- A loudspeaker of the document with its index. -/
structure RegularStored (eqs : Option (EqConfiguration F)) (a : LoudspeakerArray F)
    (node : PropertyTree) (index : ℕ) : Prop where
  id : a.id.find? (speakerId node) = some index
  channel : a.channel[index]? = some (channelNumber env node)
  entry : parseSpeaker env eqs a.isInfinite a.is2D node = .ok (a.entryAt index)

/-- A virtual loudspeaker of the document with its index: each of its routes has a place in the
matrix, which holds the gains of the routes. -/
structure VirtualStored (a : LoudspeakerArray F) (node : PropertyTree) (index : ℕ) : Prop where
  id : a.id.find? (speakerId node) = some index
  position : parseCoordNode env node a.isInfinite a.is2D = .ok (a.position index)
  routes : ∀ route ∈ node.equalRange "route", ∃ column < a.getNumRegularSpeakers,
    a.id.find? (routeTarget route) = some column
  gains : ∀ id, ∀ column < a.getNumRegularSpeakers, a.id.find? id = some column →
    a.reRoutingCoeff (index - a.getNumRegularSpeakers) column = lastRouteGain env node id

/-- The array is that of a document: the ids of its loudspeakers are in a bijection with the
indices, the regular ones come first in the order of their channels, and everything is stored at
the index of the loudspeaker it belongs to. -/
structure Consistent (treeRoot : PropertyTree) (eqs : Option (EqConfiguration F))
    (a : LoudspeakerArray F) : Prop where
  is2D : parseDimension treeRoot = .ok a.is2D
  isInfinite : a.isInfinite = treeRoot.getDefault env.getBool (xmlAttribute "infinite") false
  numRegularSpeakers : a.getNumRegularSpeakers = (treeRoot.equalRange "loudspeaker").length
  numSpeakers : a.getNumSpeakers = (treeRoot.equalRange "loudspeaker").length +
    (treeRoot.equalRange "virtualspeaker").length
  ids_nodup : ((treeRoot.equalRange "loudspeaker" ++
    treeRoot.equalRange "virtualspeaker").map speakerId).Nodup
  regular : ∀ node ∈ treeRoot.equalRange "loudspeaker",
    ∃ index < a.getNumRegularSpeakers, RegularStored env eqs a node index
  virtual : ∀ node ∈ treeRoot.equalRange "virtualspeaker",
    ∃ index, a.getNumRegularSpeakers ≤ index ∧ index < a.getNumSpeakers ∧
      VirtualStored env a node index
  ids : ∀ id index, a.id.find? id = some index → index < a.getNumSpeakers ∧
    id ∈ (treeRoot.equalRange "loudspeaker" ++ treeRoot.equalRange "virtualspeaker").map speakerId
  onto : ∀ index < a.getNumSpeakers, ∃ id, a.id.find? id = some index
  injective : ∀ id id' index, a.id.find? id = some index → a.id.find? id' = some index → id = id'
  increasing : a.channel.Pairwise (· < ·)
  indexOfId : ∀ index < a.getNumSpeakers, ∃ id, a.loudspeakerId index = .ok id ∧
    a.getSpeakerIndexFromId id = .ok index
  idOfIndex : ∀ id index, a.getSpeakerIndexFromId id = .ok index →
    a.loudspeakerId index = .ok id
  triplets : List.Forall₂ (TripletStored a) (treeRoot.equalRange "triplet") a.triplet

/-- No id of a regular loudspeaker is surrounded by blanks. -/
def PlainIds (treeRoot : PropertyTree) : Prop :=
  ∀ node ∈ treeRoot.equalRange "loudspeaker", trim (rawId node) = rawId node

/-- All routes lead to regular loudspeakers. -/
def RegularRoutes (treeRoot : PropertyTree) : Prop :=
  ∀ node ∈ treeRoot.equalRange "virtualspeaker", ∀ route ∈ node.equalRange "route",
    routeTarget route ∈ (treeRoot.equalRange "loudspeaker").map speakerId

/-! ### The ids -/

omit [FloatArithmetic F] in
theorem rawId_of_get {node : PropertyTree} {id : String}
    (h : node.get some (xmlAttribute "id") = .ok id) : rawId node = id := by
  unfold rawId
  rw [getOptional_of_get h]
  rfl

omit [FloatArithmetic F] in
theorem channelNumber_of_get {node : PropertyTree} {chIdx : ℕ}
    (h : node.get env.getIndex (xmlAttribute "channel") = .ok chIdx) :
    channelNumber env node = chIdx := by
  unfold channelNumber
  rw [getOptional_of_get h]
  rfl

omit [FloatArithmetic F] in
/-- One iteration of the first traversal. -/
theorem parseId_ok {s s' : OrderedMap String ℕ × List ℕ} {node : PropertyTree}
    (h : parseId env s node = .ok s') :
    matchesIdExpression (speakerId node) = true ∧ s.1.find? (speakerId node) = none ∧
      s'.1 = s.1.set (speakerId node) 0 ∧ s'.2 = s.2 ++ [channelNumber env node] := by
  obtain ⟨id, hid, h⟩ := exists_of_bind_ok h
  have hraw : speakerId node = trim id := congrArg trim (rawId_of_get hid)
  dsimp only at h
  rw [← hraw] at h
  split at h
  · cases h
  next hcheck =>
    obtain ⟨chIdx, hchannel, h⟩ := exists_of_bind_ok h
    split at h
    · cases h
    · cases h
      rw [not_or, not_not, Bool.not_eq_true, Option.isSome_eq_false_iff,
        Option.isNone_iff_eq_none] at hcheck
      rw [channelNumber_of_get env hchannel]
      exact ⟨hcheck.1, hcheck.2, rfl, rfl⟩

omit [FloatArithmetic F] in
/-- **The first traversal** collects ids that are new and channels. -/
theorem parseIds_spec {id : OrderedMap String ℕ} {nodes : List PropertyTree}
    {s : OrderedMap String ℕ × List ℕ} (h : parseIds env id nodes = .ok s) :
    s.2 = nodes.map (channelNumber env) ∧
      (∀ node ∈ nodes, matchesIdExpression (speakerId node) = true) ∧
      (nodes.map speakerId).Nodup ∧
      (∀ node ∈ nodes, id.find? (speakerId node) = none) ∧
      ∀ k, s.1.find? k = if k ∈ nodes.map speakerId then some 0 else id.find? k := by
  have hset : ∀ node ∈ nodes, ∀ s s' : OrderedMap String ℕ × List ℕ, True →
      parseId env s node = .ok s' →
      True ∧ s.1.find? (speakerId node) = none ∧ ¬s'.1.find? (speakerId node) = none ∧
        ∀ k, k ≠ speakerId node → s'.1.find? k = s.1.find? k := by
    intro node _ s s' _ hstep
    obtain ⟨-, hnone, hset, -⟩ := parseId_ok env hstep
    rw [hset]
    refine ⟨trivial, hnone, ?_, fun k hk => ?_⟩
    · rw [OrderedMap.find?_set, if_pos rfl]
      exact Option.some_ne_none 0
    · rw [OrderedMap.find?_set, if_neg hk]
  -- an id that has been set is refused the next time
  obtain ⟨hnodup, hnone⟩ := foldlM_fresh (I := fun _ => True)
    (v := fun (s : OrderedMap String ℕ × List ℕ) k => s.1.find? k) (p := (· = none))
    hset trivial h
  have hmatches : ∀ node ∈ nodes, ∀ s s' : OrderedMap String ℕ × List ℕ, True →
      parseId env s node = .ok s' →
      True ∧ (matchesIdExpression (speakerId node) = true ∧
        s'.1.find? (speakerId node) = some 0) ∧
        ∀ k, k ≠ speakerId node → s'.1.find? k = s.1.find? k := by
    intro node hnode s s' _ hstep
    obtain ⟨hmatch, -, hs, -⟩ := parseId_ok env hstep
    refine ⟨trivial, ⟨hmatch, ?_⟩, (hset node hnode s s' trivial hstep).2.2.2⟩
    rw [hs, OrderedMap.find?_set, if_pos rfl]
  obtain ⟨-, hall, hkept⟩ := foldlM_writes (I := fun _ => True)
    (v := fun (s : OrderedMap String ℕ × List ℕ) k => s.1.find? k)
    (R := fun node _ new => matchesIdExpression (speakerId node) = true ∧ new = some 0)
    hmatches trivial h
  -- the channels are appended in the order of the document
  have hchannels : ∀ (l : List PropertyTree) (s s' : OrderedMap String ℕ × List ℕ),
      l.foldlM (parseId env) s = .ok s' → s'.2 = s.2 ++ l.map (channelNumber env) := by
    intro l
    induction l with
    | nil =>
      intro s s' h
      cases h
      exact (List.append_nil _).symm
    | cons node l ih =>
      intro s s' h
      rw [List.foldlM_cons] at h
      obtain ⟨s₁, hfirst, hrest⟩ := exists_of_bind_ok h
      rw [ih s₁ s' hrest, (parseId_ok env hfirst).2.2.2, List.append_assoc]
      rfl
  refine ⟨hchannels nodes _ _ h, fun node hnode => (hall hnodup node hnode).1, hnodup, hnone,
    fun k => ?_⟩
  split
  next hk =>
    obtain ⟨node, hnode, rfl⟩ := List.mem_map.mp hk
    exact (hall hnodup node hnode).2
  next hk => exact hkept k hk

/-! ### The data of the regular loudspeakers -/

/-- What the loops leave alone: there are rows for equalisers if there were any before. -/
structure SameShape (a a' : LoudspeakerArray F) : Prop where
  is2D : a'.is2D = a.is2D
  isInfinite : a'.isInfinite = a.isInfinite
  numberOfSpeakers : a'.numberOfSpeakers = a.numberOfSpeakers
  channel : a'.channel = a.channel
  outputEqs : a'.outputEqs.isSome = a.outputEqs.isSome

theorem parseOutputEq_isSome {eqs : Option (EqConfiguration F)} {node : PropertyTree}
    {row : Option (List (BiquadCoefficient F))} (h : parseOutputEq eqs node = .ok row) :
    row.isSome = eqs.isSome := by
  cases eqs with
  | none =>
    cases h
    rfl
  | some eqs =>
    obtain ⟨row, -, rfl⟩ := exists_of_map_ok h
    rfl

theorem parseSpeaker_isSome {eqs : Option (EqConfiguration F)} {isInfinite is2D : Bool}
    {node : PropertyTree} {entry : SpeakerEntry F}
    (h : parseSpeaker env eqs isInfinite is2D node = .ok entry) :
    entry.outputEq.isSome = eqs.isSome := by
  obtain ⟨position, -, h⟩ := exists_of_bind_ok h
  obtain ⟨adjustments, -, h⟩ := exists_of_bind_ok h
  obtain ⟨row, hrow, h⟩ := exists_of_bind_ok h
  cases h
  exact parseOutputEq_isSome hrow

omit [FloatArithmetic F] in
theorem sameShape_storeEntry (a : LoudspeakerArray F) (index : ℕ) (entry : SpeakerEntry F) :
    SameShape a (storeEntry a index entry) := by
  refine ⟨rfl, rfl, rfl, rfl, ?_⟩
  unfold storeEntry
  cases a.outputEqs with
  | none => rfl
  | some rows => cases entry.outputEq <;> rfl

omit [FloatArithmetic F] in
/-- What has been stored is found, if it comes with an equaliser whenever there are any. -/
theorem entryAt_storeEntry {a : LoudspeakerArray F} {entry : SpeakerEntry F}
    (h : entry.outputEq.isSome = a.outputEqs.isSome) (index : ℕ) :
    (storeEntry a index entry).entryAt index = entry := by
  unfold storeEntry entryAt
  cases entry with
  | mk position gain delay row =>
    cases hrows : a.outputEqs with
    | none =>
      rw [hrows] at h
      cases row with
      | none => simp
      | some row => cases h
    | some rows =>
      rw [hrows] at h
      cases row with
      | none => cases h
      | some row => simp

omit [FloatArithmetic F] in
theorem entryAt_storeEntry_of_ne {a : LoudspeakerArray F} {entry : SpeakerEntry F} {index k : ℕ}
    (h : k ≠ index) : (storeEntry a index entry).entryAt k = a.entryAt k := by
  unfold storeEntry entryAt
  cases a.outputEqs with
  | none => simp [Function.update_of_ne h]
  | some rows =>
    cases entry.outputEq with
    | none => simp [Function.update_of_ne h]
    | some row => simp [Function.update_of_ne h]

/-- The index of a regular loudspeaker, which is found by its channel. -/
def offset (channels : List ℕ) (node : PropertyTree) : ℕ :=
  channels.idxOf (channelNumber env node)

/-- One iteration of the second traversal. -/
theorem loadSpeaker_ok {eqs : Option (EqConfiguration F)} {a a' : LoudspeakerArray F}
    {node : PropertyTree} (h : loadSpeaker env eqs a node = .ok a') :
    ∃ entry, parseSpeaker env eqs a.isInfinite a.is2D node = .ok entry ∧
      a' = { storeEntry a (offset env a.channel node) entry with
        id := a.id.set (rawId node) (offset env a.channel node) } := by
  obtain ⟨id, hid, h⟩ := exists_of_bind_ok h
  obtain ⟨chIdx, hchannel, h⟩ := exists_of_bind_ok h
  obtain ⟨entry, hentry, h⟩ := exists_of_bind_ok h
  cases h
  refine ⟨entry, hentry, ?_⟩
  unfold offset
  rw [rawId_of_get hid, channelNumber_of_get env hchannel]

/-- **The second traversal** stores each loudspeaker at the index of its channel, and this index
under the id with its blanks. -/
theorem loadSpeakers_spec {eqs : Option (EqConfiguration F)} {a a' : LoudspeakerArray F}
    {nodes : List PropertyTree} (heqs : a.outputEqs.isSome = eqs.isSome)
    (hids : (nodes.map rawId).Nodup) (hoffsets : (nodes.map (offset env a.channel)).Nodup)
    (h : loadSpeakers env eqs a nodes = .ok a') :
    SameShape a a' ∧ a'.reRoutingCoeff = a.reRoutingCoeff ∧
      (∀ node ∈ nodes, a'.id.find? (rawId node) = some (offset env a.channel node)) ∧
      (∀ k, k ∉ nodes.map rawId → a'.id.find? k = a.id.find? k) ∧
      ∀ node ∈ nodes, parseSpeaker env eqs a.isInfinite a.is2D node =
        .ok (a'.entryAt (offset env a.channel node)) := by
  have hshape : ∀ b b' : LoudspeakerArray F, SameShape a b ∧ b.reRoutingCoeff = a.reRoutingCoeff →
      ∀ node, loadSpeaker env eqs b node = .ok b' →
        SameShape a b' ∧ b'.reRoutingCoeff = a.reRoutingCoeff := by
    rintro b b' ⟨hb, hroutes⟩ node hstep
    obtain ⟨entry, -, rfl⟩ := loadSpeaker_ok env hstep
    have hstore := sameShape_storeEntry b (offset env b.channel node) entry
    exact ⟨⟨hb.is2D, hb.isInfinite, hb.numberOfSpeakers, hb.channel,
      hstore.outputEqs.trans hb.outputEqs⟩, hroutes⟩
  -- the channels are the same in all steps, so a step writes at the id and the index of its node
  have hid : ∀ node ∈ nodes, ∀ b b' : LoudspeakerArray F,
      SameShape a b ∧ b.reRoutingCoeff = a.reRoutingCoeff → loadSpeaker env eqs b node = .ok b' →
      (SameShape a b' ∧ b'.reRoutingCoeff = a.reRoutingCoeff) ∧
        b'.id.find? (rawId node) = some (offset env a.channel node) ∧
        ∀ k, k ≠ rawId node → b'.id.find? k = b.id.find? k := by
    intro node _ b b' hb hstep
    refine ⟨hshape b b' hb node hstep, ?_⟩
    obtain ⟨entry, -, rfl⟩ := loadSpeaker_ok env hstep
    rw [hb.1.channel]
    refine ⟨?_, fun k hk => ?_⟩
    · exact (OrderedMap.find?_set _ _ _ _).trans (if_pos rfl)
    · exact (OrderedMap.find?_set _ _ _ _).trans (if_neg hk)
  have hentry : ∀ node ∈ nodes, ∀ b b' : LoudspeakerArray F,
      SameShape a b ∧ b.reRoutingCoeff = a.reRoutingCoeff → loadSpeaker env eqs b node = .ok b' →
      (SameShape a b' ∧ b'.reRoutingCoeff = a.reRoutingCoeff) ∧
        parseSpeaker env eqs a.isInfinite a.is2D node =
          .ok (b'.entryAt (offset env a.channel node)) ∧
        ∀ k, k ≠ offset env a.channel node → b'.entryAt k = b.entryAt k := by
    intro node _ b b' hb hstep
    refine ⟨hshape b b' hb node hstep, ?_⟩
    obtain ⟨entry, hparse, rfl⟩ := loadSpeaker_ok env hstep
    rw [hb.1.channel, hb.1.isInfinite, hb.1.is2D] at *
    have hrows : entry.outputEq.isSome = b.outputEqs.isSome :=
      (parseSpeaker_isSome env hparse).trans (heqs.symm.trans hb.1.outputEqs.symm)
    refine ⟨?_, fun k hk => entryAt_storeEntry_of_ne hk⟩
    rw [hparse]
    exact congrArg Except.ok (entryAt_storeEntry hrows _).symm
  have hstart : SameShape a a ∧ a.reRoutingCoeff = a.reRoutingCoeff :=
    ⟨⟨rfl, rfl, rfl, rfl, rfl⟩, rfl⟩
  obtain ⟨hsame, hfound, hkept⟩ := foldlM_writes (v := fun (b : LoudspeakerArray F) k =>
    b.id.find? k) (R := fun node _ new => new = some (offset env a.channel node)) hid hstart h
  obtain ⟨-, hentries, -⟩ := foldlM_writes (v := fun (b : LoudspeakerArray F) k => b.entryAt k)
    (R := fun node _ new => parseSpeaker env eqs a.isInfinite a.is2D node = .ok new)
    hentry hstart h
  exact ⟨hsame.1, hsame.2, hfound hids, hkept, hentries hoffsets⟩

/-! ### The virtual loudspeakers -/

omit [FloatArithmetic F] in
theorem lookupSpeaker_ok {a : LoudspeakerArray F} {message id : String} {index : ℕ}
    (h : lookupSpeaker a message id = .ok index) : a.id.find? id = some index := by
  unfold lookupSpeaker at h
  split at h
  · cases h
  next found hfound =>
    split at h
    · cases h
    · cases h
      exact hfound

omit [FloatArithmetic F] in
/-- Within its row, an element is written alone. -/
theorem writeElement_ok {numberOfRows n : ℕ} {m m' : ℕ → ℕ → F} {rowIdx colIdx : ℕ} {value : F}
    (h : writeElement numberOfRows n m rowIdx colIdx value = .ok m') (hcol : colIdx < n)
    {row col : ℕ} (hc : col < n) :
    m' row col = if row = rowIdx ∧ col = colIdx then value else m row col := by
  unfold writeElement at h
  dsimp only at h
  split at h
  · cases h
    have hiff : (col < n ∧ row * n + col = rowIdx * n + colIdx) ↔ row = rowIdx ∧ col = colIdx := by
      constructor
      · rintro ⟨-, heq⟩
        have hrow := congrArg (· / n) heq
        have hmod := congrArg (· % n) heq
        simp only [Nat.mul_comm _ n, Nat.mul_add_div (Nat.zero_lt_of_lt hc), Nat.div_eq_of_lt hc,
          Nat.div_eq_of_lt hcol, Nat.mul_add_mod, Nat.mod_eq_of_lt hc, Nat.mod_eq_of_lt hcol,
          Nat.add_zero] at hrow hmod
        exact ⟨hrow, hmod⟩
      · rintro ⟨rfl, rfl⟩
        exact ⟨hc, rfl⟩
    simp only [hiff]
  · cases h

theorem loadRoute_ok {numVirtual row : ℕ} {a a' : LoudspeakerArray F} {route : PropertyTree}
    (h : loadRoute env numVirtual row a route = .ok a') :
    ∃ column coefficients, a.id.find? (routeTarget route) = some column ∧
      writeElement numVirtual a.getNumRegularSpeakers a.reRoutingCoeff row column
        (routeGain env route) = .ok coefficients ∧
      a' = { a with reRoutingCoeff := coefficients } := by
  obtain ⟨lspId, hid, h⟩ := exists_of_bind_ok h
  obtain ⟨gainDB, hgain, h⟩ := exists_of_bind_ok h
  obtain ⟨column, hcolumn, h⟩ := exists_of_bind_ok h
  obtain ⟨coefficients, hwrite, h⟩ := exists_of_bind_ok h
  cases h
  have htarget : routeTarget route = trim lspId := by
    unfold routeTarget
    rw [getOptional_of_get hid]
    rfl
  have hvalue : routeGain env route = env.dB2linear gainDB := by
    unfold routeGain
    rw [getOptional_of_get hgain]
    rfl
  refine ⟨column, coefficients, ?_, ?_, rfl⟩
  · rw [htarget]
    exact lookupSpeaker_ok hcolumn
  · rw [hvalue]
    exact hwrite

/-- **The routes of a virtual loudspeaker** lead to loudspeakers that are known.  If these are
regular, each element of the row is the gain of the last route to its loudspeaker. -/
theorem loadRoutes_spec {numVirtual row : ℕ} {a a' : LoudspeakerArray F}
    {routes : List PropertyTree}
    (h : routes.foldlM (loadRoute env numVirtual row) a = .ok a') :
    (∃ coefficients, a' = { a with reRoutingCoeff := coefficients }) ∧
      ((∀ route ∈ routes, ∃ column < a.getNumRegularSpeakers,
        a.id.find? (routeTarget route) = some column) →
        ∀ r, ∀ c < a.getNumRegularSpeakers, a'.reRoutingCoeff r c =
          if r = row then (routes.reverse.find? fun route =>
            a.id.find? (routeTarget route) = some c).elim (a.reRoutingCoeff r c) (routeGain env)
          else a.reRoutingCoeff r c) := by
  induction routes generalizing a with
  | nil =>
    cases h
    refine ⟨⟨_, rfl⟩, fun _ r c _ => ?_⟩
    split <;> rfl
  | cons route routes ih =>
    rw [List.foldlM_cons] at h
    obtain ⟨a₁, hfirst, hrest⟩ := exists_of_bind_ok h
    obtain ⟨column, coefficients, hcolumn, hwrite, rfl⟩ := loadRoute_ok env hfirst
    obtain ⟨⟨coefficients', rfl⟩, hrows⟩ := ih hrest
    refine ⟨⟨coefficients', rfl⟩, fun hregular r c hc => ?_⟩
    obtain ⟨⟨column', hlt, hcolumn'⟩, hothers⟩ := List.forall_mem_cons.mp hregular
    cases hcolumn.symm.trans hcolumn'
    rw [hrows hothers r c hc, List.reverse_cons, List.find?_append]
    show (if r = row then Option.elim _ (coefficients r c) _ else coefficients r c) = _
    rw [writeElement_ok hwrite hlt hc]
    by_cases hr : r = row
    · rw [if_pos hr, if_pos hr]
      cases routes.reverse.find? fun route => a.id.find? (routeTarget route) = some c with
      | some last => rfl
      | none =>
        -- only the first route is left
        rw [Option.none_or, List.find?_cons, hcolumn]
        by_cases heq : c = column
        · subst heq
          simp [hr]
        · have hne : ¬column = c := fun h => heq h.symm
          simp [hr, heq, hne]
    · rw [if_neg hr, if_neg hr, if_neg fun hand => hr hand.1]

/-- One virtual loudspeaker. -/
theorem loadVirtualSpeaker_ok {numVirtual : ℕ} {a a' : LoudspeakerArray F}
    {node : PropertyTree × ℕ} (h : loadVirtualSpeaker env numVirtual a node = .ok a') :
    matchesIdExpression (speakerId node.1) = true ∧ a.id.find? (speakerId node.1) = none ∧
      ∃ coefficients position,
        parseCoordNode env node.1 a.isInfinite a.is2D = .ok position ∧
        (node.1.equalRange "route").foldlM
          (loadRoute env numVirtual (node.2 - a.getNumRegularSpeakers))
          { a with id := a.id.set (speakerId node.1) node.2 } =
            .ok { a with
              id := a.id.set (speakerId node.1) node.2
              reRoutingCoeff := coefficients } ∧
        a' = { a with
          id := a.id.set (speakerId node.1) node.2
          reRoutingCoeff := coefficients
          position := Function.update a.position node.2 position } := by
  obtain ⟨id, hid, h⟩ := exists_of_bind_ok h
  have hraw : speakerId node.1 = trim id := congrArg trim (rawId_of_get hid)
  dsimp only at h
  rw [← hraw] at h
  split at h
  · cases h
  next hcheck =>
    obtain ⟨b, hroutes, h⟩ := exists_of_bind_ok h
    obtain ⟨position, hposition, h⟩ := exists_of_bind_ok h
    cases h
    obtain ⟨⟨coefficients, rfl⟩, -⟩ := loadRoutes_spec env hroutes
    rw [not_or, not_not, Bool.not_eq_true, Option.isSome_eq_false_iff,
      Option.isNone_iff_eq_none] at hcheck
    exact ⟨hcheck.1, hcheck.2, coefficients, position, hposition, hroutes, rfl⟩

/-- What the loop over the virtual loudspeakers leaves alone. -/
structure Extends (a a' : LoudspeakerArray F) : Prop where
  shape : SameShape a a'
  gainAdjustment : a'.gainAdjustment = a.gainAdjustment
  delayAdjustment : a'.delayAdjustment = a.delayAdjustment
  outputEqs : a'.outputEqs = a.outputEqs
  ids : ∀ k, a.id.find? k ≠ none → a'.id.find? k = a.id.find? k

omit [FloatArithmetic F] in
theorem Extends.refl (a : LoudspeakerArray F) : Extends a a :=
  ⟨⟨rfl, rfl, rfl, rfl, rfl⟩, rfl, rfl, rfl, fun _ _ => rfl⟩

theorem Extends.step {numVirtual : ℕ} {a b b' : LoudspeakerArray F} (h : Extends a b)
    {node : PropertyTree × ℕ} (hstep : loadVirtualSpeaker env numVirtual b node = .ok b') :
    Extends a b' := by
  obtain ⟨-, hnone, coefficients, position, -, -, rfl⟩ := loadVirtualSpeaker_ok env hstep
  refine ⟨⟨h.shape.is2D, h.shape.isInfinite, h.shape.numberOfSpeakers, h.shape.channel,
    h.shape.outputEqs⟩, h.gainAdjustment, h.delayAdjustment, h.outputEqs, fun k hk => ?_⟩
  have hne : k ≠ speakerId node.1 := by
    rintro rfl
    exact hk ((h.ids _ hk).symm.trans hnone)
  exact (OrderedMap.find?_set _ _ _ _).trans ((if_neg hne).trans (h.ids k hk))

omit [FloatArithmetic F] in
theorem map_speakerId_zipIdx (nodes : List PropertyTree) (n : ℕ) :
    (nodes.zipIdx n).map (fun node => speakerId node.1) = nodes.map speakerId := by
  have hmap : (nodes.zipIdx n).map (fun node => speakerId node.1) =
      ((nodes.zipIdx n).map Prod.fst).map speakerId := by
    rw [List.map_map]
    rfl
  rw [hmap, List.zipIdx_map_fst]

omit [FloatArithmetic F] in
theorem nodup_map_zipIdx (nodes : List PropertyTree) (n : ℕ) :
    ((nodes.zipIdx n).map Prod.snd).Nodup := by
  rw [List.zipIdx_map_snd]
  exact List.nodup_range'

/-- The ids of the virtual loudspeakers are new. -/
theorem loadVirtualSpeakers_fresh {a a' : LoudspeakerArray F} {nodes : List PropertyTree}
    (h : loadVirtualSpeakers env a nodes = .ok a') :
    (nodes.map speakerId).Nodup ∧ ∀ node ∈ nodes, a.id.find? (speakerId node) = none := by
  have hid : ∀ node ∈ nodes.zipIdx a.getNumRegularSpeakers, ∀ b b' : LoudspeakerArray F,
      Extends a b → loadVirtualSpeaker env nodes.length b node = .ok b' →
      Extends a b' ∧ b.id.find? (speakerId node.1) = none ∧
        ¬b'.id.find? (speakerId node.1) = none ∧
        ∀ id, id ≠ speakerId node.1 → b'.id.find? id = b.id.find? id := by
    intro node _ b b' hb hstep
    refine ⟨hb.step env hstep, ?_⟩
    obtain ⟨-, hnone, coefficients, position, -, -, rfl⟩ := loadVirtualSpeaker_ok env hstep
    refine ⟨hnone, ?_, fun id hne => (OrderedMap.find?_set _ _ _ _).trans (if_neg hne)⟩
    have hnew : (b.id.set (speakerId node.1) node.2).find? (speakerId node.1) = some node.2 :=
      (OrderedMap.find?_set _ _ _ _).trans (if_pos rfl)
    show ¬(b.id.set (speakerId node.1) node.2).find? (speakerId node.1) = none
    rw [hnew]
    exact Option.some_ne_none node.2
  obtain ⟨hnodup, hnone⟩ := foldlM_fresh (v := fun (b : LoudspeakerArray F) id => b.id.find? id)
    (k := fun node : PropertyTree × ℕ => speakerId node.1)
    (p := fun index => index = none) hid (Extends.refl a) h
  rw [map_speakerId_zipIdx] at hnodup
  refine ⟨hnodup, fun node hnode => ?_⟩
  rw [← List.zipIdx_map_fst a.getNumRegularSpeakers nodes] at hnode
  obtain ⟨entry, hentry, rfl⟩ := List.mem_map.mp hnode
  exact hnone entry hentry

/-- **The virtual loudspeakers** get the indices after the regular ones. -/
theorem loadVirtualSpeakers_spec {a a' : LoudspeakerArray F} {nodes : List PropertyTree}
    (h : loadVirtualSpeakers env a nodes = .ok a') :
    Extends a a' ∧
      (∀ index < a.getNumRegularSpeakers, a'.entryAt index = a.entryAt index) ∧
      (∀ id, id ∉ nodes.map speakerId → a'.id.find? id = a.id.find? id) ∧
      ∀ node ∈ nodes.zipIdx a.getNumRegularSpeakers,
        matchesIdExpression (speakerId node.1) = true ∧
        a'.id.find? (speakerId node.1) = some node.2 ∧
        parseCoordNode env node.1 a.isInfinite a.is2D = .ok (a'.position node.2) := by
  -- each step writes the index of one id, and the position at one index
  have hvalue : ∀ node ∈ nodes.zipIdx a.getNumRegularSpeakers, ∀ b b' : LoudspeakerArray F,
      Extends a b → loadVirtualSpeaker env nodes.length b node = .ok b' →
      Extends a b' ∧ (matchesIdExpression (speakerId node.1) = true ∧
        b'.id.find? (speakerId node.1) = some node.2) ∧
        ∀ id, id ≠ speakerId node.1 → b'.id.find? id = b.id.find? id := by
    intro node _ b b' hb hstep
    refine ⟨hb.step env hstep, ?_⟩
    obtain ⟨hmatch, -, coefficients, position, -, -, rfl⟩ := loadVirtualSpeaker_ok env hstep
    exact ⟨⟨hmatch, (OrderedMap.find?_set _ _ _ _).trans (if_pos rfl)⟩,
      fun id hne => (OrderedMap.find?_set _ _ _ _).trans (if_neg hne)⟩
  have hposition : ∀ node ∈ nodes.zipIdx a.getNumRegularSpeakers, ∀ b b' : LoudspeakerArray F,
      Extends a b → loadVirtualSpeaker env nodes.length b node = .ok b' →
      Extends a b' ∧
        parseCoordNode env node.1 a.isInfinite a.is2D = .ok (b'.position node.2) ∧
        ∀ index, index ≠ node.2 → b'.position index = b.position index := by
    intro node _ b b' hb hstep
    refine ⟨hb.step env hstep, ?_⟩
    obtain ⟨-, -, coefficients, position, hparse, -, rfl⟩ := loadVirtualSpeaker_ok env hstep
    rw [hb.shape.isInfinite, hb.shape.is2D] at hparse
    refine ⟨?_, fun index hne => Function.update_of_ne hne _ _⟩
    rw [hparse]
    show Except.ok position = .ok (Function.update b.position node.2 position node.2)
    rw [Function.update_self]
  obtain ⟨hextends, hvalues, hids⟩ := foldlM_writes
    (v := fun (b : LoudspeakerArray F) id => b.id.find? id)
    (k := fun node : PropertyTree × ℕ => speakerId node.1)
    (R := fun node _ new => matchesIdExpression (speakerId node.1) = true ∧ new = some node.2)
    hvalue (Extends.refl a) h
  obtain ⟨-, hpositions, hkept⟩ := foldlM_writes
    (v := fun (b : LoudspeakerArray F) index => b.position index) (k := Prod.snd)
    (R := fun node _ new => parseCoordNode env node.1 a.isInfinite a.is2D = .ok new)
    hposition (Extends.refl a) h
  have hnodup := (loadVirtualSpeakers_fresh env h).1
  rw [← map_speakerId_zipIdx nodes a.getNumRegularSpeakers] at hnodup
  have hall := hvalues hnodup
  rw [map_speakerId_zipIdx] at hids
  refine ⟨hextends, fun index hlt => ?_, hids, fun node hnode =>
    ⟨(hall node hnode).1, (hall node hnode).2, hpositions (nodup_map_zipIdx _ _) node hnode⟩⟩
  -- the entries of the regular loudspeakers are not written
  have hnot : index ∉ (nodes.zipIdx a.getNumRegularSpeakers).map Prod.snd := by
    intro hmem
    obtain ⟨node, hnode, rfl⟩ := List.mem_map.mp hmem
    have hle := List.le_snd_of_mem_zipIdx hnode
    omega
  unfold entryAt
  rw [hkept index hnot, hextends.gainAdjustment, hextends.delayAdjustment, hextends.outputEqs]

/-- The elements of a row of the matrix of routes. -/
def routingRow (a : LoudspeakerArray F) (n row : ℕ) : ℕ → F :=
  fun column => if column < n then a.reRoutingCoeff row column else 0

/-- **The routes**, if they lead to regular loudspeakers. -/
theorem loadVirtualSpeakers_gains {a a' : LoudspeakerArray F} {nodes : List PropertyTree}
    (h : loadVirtualSpeakers env a nodes = .ok a')
    (hregular : ∀ node ∈ nodes, ∀ route ∈ node.equalRange "route",
      ∃ column < a.getNumRegularSpeakers, a.id.find? (routeTarget route) = some column) :
    ∀ node ∈ nodes.zipIdx a.getNumRegularSpeakers, ∀ column < a.getNumRegularSpeakers,
      a'.reRoutingCoeff (node.2 - a.getNumRegularSpeakers) column =
        lastGain env (fun route => a.id.find? (routeTarget route) = some column) node.1
          (a.reRoutingCoeff (node.2 - a.getNumRegularSpeakers) column) := by
  have hrow : ∀ node ∈ nodes.zipIdx a.getNumRegularSpeakers, ∀ b b' : LoudspeakerArray F,
      Extends a b → loadVirtualSpeaker env nodes.length b node = .ok b' →
      Extends a b' ∧
        (∀ column < a.getNumRegularSpeakers,
          b'.routingRow a.getNumRegularSpeakers (node.2 - a.getNumRegularSpeakers) column =
            lastGain env (fun route => a.id.find? (routeTarget route) = some column) node.1
              (b.routingRow a.getNumRegularSpeakers (node.2 - a.getNumRegularSpeakers) column)) ∧
        ∀ row, row ≠ node.2 - a.getNumRegularSpeakers →
          b'.routingRow a.getNumRegularSpeakers row =
            b.routingRow a.getNumRegularSpeakers row := by
    intro node hnode b b' hb hstep
    refine ⟨hb.step env hstep, ?_⟩
    obtain ⟨-, hnone, coefficients, position, -, hroutes, rfl⟩ := loadVirtualSpeaker_ok env hstep
    have hnum : b.getNumRegularSpeakers = a.getNumRegularSpeakers :=
      congrArg List.length hb.shape.channel
    -- the loudspeakers that routes lead to have been known before the loop
    have hknown : ∀ route ∈ node.1.equalRange "route",
        (b.id.set (speakerId node.1) node.2).find? (routeTarget route) =
          a.id.find? (routeTarget route) := by
      intro route hroute
      obtain ⟨column, -, hcolumn⟩ := hregular node.1 (List.fst_mem_of_mem_zipIdx hnode) route hroute
      have hkept := hb.ids (routeTarget route) (by simp [hcolumn])
      have hne : routeTarget route ≠ speakerId node.1 := by
        intro heq
        rw [heq] at hkept hcolumn
        exact absurd (hnone.symm.trans (hkept.trans hcolumn)) (by simp)
      rw [OrderedMap.find?_set, if_neg hne, hkept]
    have hrows := (loadRoutes_spec env hroutes).2 fun route hroute => by
      obtain ⟨column, hlt, hcolumn⟩ :=
        hregular node.1 (List.fst_mem_of_mem_zipIdx hnode) route hroute
      refine ⟨column, ?_, (hknown route hroute).trans hcolumn⟩
      show column < b.getNumRegularSpeakers
      rw [hnum]
      exact hlt
    have hrows : ∀ r, ∀ c < b.getNumRegularSpeakers, coefficients r c =
        if r = node.2 - b.getNumRegularSpeakers then
          ((node.1.equalRange "route").reverse.find? fun route =>
            (b.id.set (speakerId node.1) node.2).find? (routeTarget route) = some c).elim
              (b.reRoutingCoeff r c) (routeGain env)
        else b.reRoutingCoeff r c := hrows
    rw [hnum] at hrows
    unfold routingRow
    refine ⟨fun column hcolumn => ?_, fun row hne => ?_⟩
    · rw [if_pos hcolumn, if_pos hcolumn]
      show coefficients _ column = _
      rw [hrows _ column hcolumn, if_pos rfl]
      unfold lastGain
      congr 1
      refine List.find?_congr fun route hroute => ?_
      rw [hknown route (List.mem_reverse.mp hroute)]
    · funext column
      show (if column < a.getNumRegularSpeakers then coefficients row column else 0) = _
      split
      next hcolumn => rw [hrows _ column hcolumn, if_neg hne]
      · rfl
  obtain ⟨-, hgains, -⟩ := foldlM_writes
    (v := fun (b : LoudspeakerArray F) row => b.routingRow a.getNumRegularSpeakers row)
    (k := fun node : PropertyTree × ℕ => node.2 - a.getNumRegularSpeakers)
    (R := fun node old new => ∀ column < a.getNumRegularSpeakers, new column =
      lastGain env (fun route => a.id.find? (routeTarget route) = some column) node.1 (old column))
    hrow (Extends.refl a) h
  have hnodup : ((nodes.zipIdx a.getNumRegularSpeakers).map fun node =>
      node.2 - a.getNumRegularSpeakers).Nodup := by
    rw [List.nodup_map_iff_inj_on (List.Nodup.of_map Prod.snd (nodup_map_zipIdx nodes _))]
    intro node hnode node' hnode' heq
    have hle := List.le_snd_of_mem_zipIdx hnode
    have hle' := List.le_snd_of_mem_zipIdx hnode'
    exact List.inj_on_of_nodup_map (nodup_map_zipIdx nodes _) hnode hnode' (by omega)
  intro node hnode column hcolumn
  have hresult := hgains hnodup node hnode column hcolumn
  unfold routingRow at hresult
  rwa [if_pos hcolumn, if_pos hcolumn] at hresult

/-! ### Triplets, subwoofers and channels -/

omit [FloatArithmetic F] in
theorem tripletMember_of_get {name tid : String} {node : PropertyTree}
    (h : node.get some (xmlAttribute name) = .ok tid) : tripletMember name node = trim tid := by
  unfold tripletMember
  rw [getOptional_of_get h]
  rfl

omit [FloatArithmetic F] in
theorem loadTriplet_ok {a : LoudspeakerArray F} {node : PropertyTree} {triplet : ℕ × ℕ × ℕ}
    (h : loadTriplet a node = .ok triplet) : TripletStored a node triplet := by
  obtain ⟨tid1, htid1, h⟩ := exists_of_bind_ok h
  obtain ⟨tid2, htid2, h⟩ := exists_of_bind_ok h
  obtain ⟨l1, hl1, h⟩ := exists_of_bind_ok h
  obtain ⟨l2, hl2, h⟩ := exists_of_bind_ok h
  unfold TripletStored
  rw [tripletMember_of_get htid1, tripletMember_of_get htid2]
  split at h
  next h2D =>
    cases h
    exact ⟨lookupSpeaker_ok hl1, lookupSpeaker_ok hl2, by rw [if_pos h2D]⟩
  next h3D =>
    obtain ⟨tid3, htid3, h⟩ := exists_of_bind_ok h
    obtain ⟨l3, hl3, h⟩ := exists_of_bind_ok h
    cases h
    rw [if_neg h3D, tripletMember_of_get htid3]
    exact ⟨lookupSpeaker_ok hl1, lookupSpeaker_ok hl2, lookupSpeaker_ok hl3⟩

/-- What the loop over the subwoofers leaves alone. -/
structure KeepsSpeakers (a a' : LoudspeakerArray F) : Prop where
  shape : SameShape a a'
  id : a'.id = a.id
  position : a'.position = a.position
  triplet : a'.triplet = a.triplet
  reRoutingCoeff : a'.reRoutingCoeff = a.reRoutingCoeff

/-- One subwoofer, whose data follow those of the regular loudspeakers. -/
theorem loadSubwoofer_ok {eqs : Option (EqConfiguration F)} {numSubwoofers : ℕ}
    {a a' : LoudspeakerArray F} {node : PropertyTree × ℕ}
    (h : loadSubwoofer env eqs numSubwoofers a node = .ok a') :
    KeepsSpeakers a a' ∧
      ∀ index, index ≠ a.getNumRegularSpeakers + node.2 → a'.entryAt index = a.entryAt index := by
  obtain ⟨subChannel, -, h⟩ := exists_of_bind_ok h
  obtain ⟨speakerIndicesStr, -, h⟩ := exists_of_bind_ok h
  obtain ⟨columns, -, h⟩ := exists_of_bind_ok h
  obtain ⟨weights, -, h⟩ := exists_of_bind_ok h
  obtain ⟨subwooferGains, -, h⟩ := exists_of_bind_ok h
  obtain ⟨adjustments, -, h⟩ := exists_of_bind_ok h
  obtain ⟨outputEq, -, h⟩ := exists_of_bind_ok h
  cases h
  have hshape := sameShape_storeEntry a (a.getNumRegularSpeakers + node.2)
    ⟨a.position (a.getNumRegularSpeakers + node.2), adjustments.1, adjustments.2, outputEq⟩
  refine ⟨⟨⟨rfl, rfl, rfl, rfl, hshape.outputEqs⟩, rfl, ?_, rfl, rfl⟩, fun index hne => ?_⟩
  · exact Function.update_eq_self _ _
  · exact entryAt_storeEntry_of_ne hne

/-- **The subwoofers** do not change the loudspeakers. -/
theorem loadSubwoofers_spec {eqs : Option (EqConfiguration F)} {a a' : LoudspeakerArray F}
    {nodes : List PropertyTree} (h : loadSubwoofers env eqs a nodes = .ok a') :
    KeepsSpeakers a a' ∧ ∀ index < a.getNumRegularSpeakers, a'.entryAt index = a.entryAt index := by
  have hstep : ∀ node ∈ nodes.zipIdx, ∀ b b' : LoudspeakerArray F, KeepsSpeakers a b →
      loadSubwoofer env eqs nodes.length b node = .ok b' →
      KeepsSpeakers a b' ∧ True ∧
        ∀ index, index ≠ a.getNumRegularSpeakers + node.2 → b'.entryAt index = b.entryAt index := by
    intro node _ b b' hb hload
    obtain ⟨hkeeps, hothers⟩ := loadSubwoofer_ok env hload
    have hnum : b.getNumRegularSpeakers = a.getNumRegularSpeakers :=
      congrArg List.length hb.shape.channel
    rw [hnum] at hothers
    refine ⟨⟨⟨?_, ?_, ?_, ?_, ?_⟩, ?_, ?_, ?_, ?_⟩, trivial, hothers⟩
    · exact hkeeps.shape.is2D.trans hb.shape.is2D
    · exact hkeeps.shape.isInfinite.trans hb.shape.isInfinite
    · exact hkeeps.shape.numberOfSpeakers.trans hb.shape.numberOfSpeakers
    · exact hkeeps.shape.channel.trans hb.shape.channel
    · exact hkeeps.shape.outputEqs.trans hb.shape.outputEqs
    · exact hkeeps.id.trans hb.id
    · exact hkeeps.position.trans hb.position
    · exact hkeeps.triplet.trans hb.triplet
    · exact hkeeps.reRoutingCoeff.trans hb.reRoutingCoeff
  have hstart : KeepsSpeakers a a := ⟨⟨rfl, rfl, rfl, rfl, rfl⟩, rfl, rfl, rfl, rfl⟩
  obtain ⟨hkeeps, -, hothers⟩ := foldlM_writes
    (v := fun (b : LoudspeakerArray F) index => b.entryAt index)
    (k := fun node : PropertyTree × ℕ => a.getNumRegularSpeakers + node.2)
    (R := fun _ _ _ => True) hstep hstart h
  refine ⟨hkeeps, fun index hlt => hothers index fun hmem => ?_⟩
  -- the entries of the subwoofers come after those of the regular loudspeakers
  obtain ⟨node, -, heq⟩ := List.mem_map.mp hmem
  omega

/-- Sorted numbers without equal neighbours are increasing. -/
theorem increasing_of_adjacentFind {l : List ℕ} (hsorted : l.Pairwise (· ≤ ·))
    (h : adjacentFind l = false) : l.Pairwise (· < ·) := by
  induction l with
  | nil => exact List.Pairwise.nil
  | cons a l ih =>
    obtain ⟨hfirst, hrest⟩ := List.pairwise_cons.mp hsorted
    cases l with
    | nil => exact List.pairwise_singleton _ _
    | cons b l =>
      unfold adjacentFind at h
      rw [Bool.or_eq_false_iff, decide_eq_false_iff_not] at h
      have hlt : a < b := lt_of_le_of_ne (hfirst b List.mem_cons_self) h.1
      refine List.pairwise_cons.mpr ⟨fun c hc => ?_, ih hrest h.2⟩
      rcases List.mem_cons.mp hc with rfl | hc
      · exact hlt
      · exact hlt.trans_le ((List.pairwise_cons.mp hrest).1 c hc)

theorem pairwise_mergeSort_nat (l : List ℕ) : l.mergeSort.Pairwise (· ≤ ·) := by
  have htrans : ∀ a b c : ℕ, decide (a ≤ b) = true → decide (b ≤ c) = true →
      decide (a ≤ c) = true := by
    intro a b c hab hbc
    rw [decide_eq_true_eq] at hab hbc ⊢
    exact hab.trans hbc
  have htotal : ∀ a b : ℕ, (decide (a ≤ b) || decide (b ≤ a)) = true := by
    intro a b
    rw [Bool.or_eq_true, decide_eq_true_eq, decide_eq_true_eq]
    exact Nat.le_total a b
  exact (List.pairwise_mergeSort htrans htotal l).imp fun h => of_decide_eq_true h

/-- The channels of the loudspeakers are different. -/
theorem checkChannels_ok {channels subwooferChannels : List ℕ}
    (h : checkChannels channels.mergeSort subwooferChannels = .ok ()) :
    channels.mergeSort.Pairwise (· < ·) := by
  unfold checkChannels at h
  dsimp only at h
  split at h
  · cases h
  next hadjacent =>
    have hsorted := pairwise_mergeSort_nat channels
    have hsame : channels.mergeSort.mergeSort = channels.mergeSort :=
      List.mergeSort_of_pairwise (hsorted.imp fun hle => decide_eq_true hle)
    rw [hsame] at hadjacent
    exact increasing_of_adjacentFind hsorted (Bool.eq_false_iff.mpr hadjacent)

end LoudspeakerArray

end Visr
