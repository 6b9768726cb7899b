import Mathlib.Data.List.DropRight
import Visr.Libpanning.LoadedArrays
import Visr.Librbbl.WholeNumber

/-!
# Consistency of loaded loudspeaker arrays

A loaded array is that of its document if the object had no ids before, and if the document
neither has ids with surrounding blanks nor routes to virtual loudspeakers.

## Main results

* `LoudspeakerArray.find?_iff` — the ids of a loaded array.
* `LoudspeakerArray.consistent_iff` — which documents are loaded consistently.
-/

namespace Visr

open PropertyTree

namespace LoudspeakerArray

variable {F : Type} [FloatArithmetic F] (env : XmlPlatform F)

/-! ### Blanks -/

theorem trim_trim (id : String) : trim (trim id) = trim id := by
  have hleft : ∀ l : List Char, ((l.dropWhile isBlank).rdropWhile isBlank).dropWhile isBlank =
      (l.dropWhile isBlank).rdropWhile isBlank := by
    intro l
    obtain ⟨rest, hrest⟩ := List.rdropWhile_prefix isBlank (l := l.dropWhile isBlank)
    have hfirst := List.head?_dropWhile_not isBlank l
    cases hl : (l.dropWhile isBlank).rdropWhile isBlank with
    | nil => rfl
    | cons c rest' =>
      rw [← hrest, hl] at hfirst
      exact List.dropWhile_cons_of_neg (by simpa using hfirst)
  show String.ofList (((String.ofList ((id.toList.dropWhile isBlank).rdropWhile
    isBlank)).toList.dropWhile isBlank).rdropWhile isBlank) =
      String.ofList ((id.toList.dropWhile isBlank).rdropWhile isBlank)
  rw [String.toList_ofList, hleft, List.rdropWhile_idempotent]

theorem isBlank_of_isIdCharacter {c : Char} (h : isIdCharacter c = true) : ¬isBlank c = true := by
  unfold isBlank
  intro hblank
  rw [Bool.or_eq_true, decide_eq_true_eq, decide_eq_true_eq] at hblank
  rcases hblank with rfl | rfl
  · exact absurd h (by decide)
  · exact absurd h (by decide)

/-- An admissible id contains no blanks. -/
theorem trim_of_matchesIdExpression {id : String} (h : matchesIdExpression id = true) :
    trim id = id := by
  unfold matchesIdExpression at h
  rw [Bool.and_eq_true, List.all_eq_true] at h
  have hleft : id.toList.dropWhile isBlank = id.toList :=
    List.dropWhile_eq_self_iff.mpr fun hpos =>
      isBlank_of_isIdCharacter (h.2 _ (List.getElem_mem hpos))
  have hright : id.toList.rdropWhile isBlank = id.toList :=
    List.rdropWhile_eq_self_iff.mpr fun hne =>
      isBlank_of_isIdCharacter (h.2 _ (List.getLast_mem hne))
  show String.ofList ((id.toList.dropWhile isBlank).rdropWhile isBlank) = id
  rw [hleft, hright, String.ofList_toList]

/-! ### The stages of the loader -/

/-- The states of the array while a document is loaded: after the regular and after the virtual
loudspeakers. -/
structure Loading (a a' : LoudspeakerArray F) (treeRoot : PropertyTree)
    (eqs : Option (EqConfiguration F)) where
  is2D : Bool
  idsAndChannels : OrderedMap String ℕ × List ℕ
  regular : LoudspeakerArray F
  virtual : LoudspeakerArray F
  triplet : List (ℕ × ℕ × ℕ)
  dimension_ok : parseDimension treeRoot = .ok is2D
  ids_ok : parseIds env a.id (treeRoot.equalRange "loudspeaker") = .ok idsAndChannels
  regular_ok : loadSpeakers env eqs
    (prepare a is2D (treeRoot.getDefault env.getBool (xmlAttribute "infinite") false)
      ((treeRoot.equalRange "loudspeaker").length + (treeRoot.equalRange "virtualspeaker").length)
      eqs idsAndChannels)
    (treeRoot.equalRange "loudspeaker") = .ok regular
  virtual_ok : loadVirtualSpeakers env regular (treeRoot.equalRange "virtualspeaker") = .ok virtual
  triplet_ok : loadAll (loadTriplet virtual) (treeRoot.equalRange "triplet") = .ok triplet
  subwoofers_ok : loadSubwoofers env eqs
    { virtual with triplet := triplet, subwooferChannels := [], subwooferGains := fun _ _ => 0 }
    (treeRoot.equalRange "subwoofer") = .ok a'
  channels_ok : checkChannels a'.channel a'.subwooferChannels = .ok ()

theorem loadXmlTree_ok {a a' : LoudspeakerArray F} {parseTree : PropertyTree}
    (h : a.loadXmlTree env parseTree = .ok a') :
    ∃ treeRoot eqs, parseTree.getChild ["panningConfiguration"] = .ok treeRoot ∧
      parseEqConfiguration env treeRoot = .ok eqs ∧ Nonempty (Loading env a a' treeRoot eqs) := by
  obtain ⟨treeRoot, hroot, h⟩ := exists_of_bind_ok h
  obtain ⟨is2D, hdimension, h⟩ := exists_of_bind_ok h
  obtain ⟨eqs, heqs, h⟩ := exists_of_bind_ok h
  obtain ⟨idsAndChannels, hids, h⟩ := exists_of_bind_ok h
  obtain ⟨regular, hregular, h⟩ := exists_of_bind_ok h
  obtain ⟨virtual, hvirtual, h⟩ := exists_of_bind_ok h
  obtain ⟨triplet, htriplet, h⟩ := exists_of_bind_ok h
  obtain ⟨result, hsubwoofers, h⟩ := exists_of_bind_ok h
  obtain ⟨⟨⟩, hchannels, h⟩ := exists_of_bind_ok h
  cases h
  exact ⟨treeRoot, eqs, hroot, heqs, ⟨⟨is2D, idsAndChannels, regular, virtual, triplet, hdimension,
    hids, hregular, hvirtual, htriplet, hsubwoofers, hchannels⟩⟩⟩

/-- The second traversal only adds ids, with their indices. -/
theorem loadSpeakers_ids {eqs : Option (EqConfiguration F)} {a a' : LoudspeakerArray F}
    {nodes : List PropertyTree} (h : loadSpeakers env eqs a nodes = .ok a') :
    SameShape a a' ∧ a'.reRoutingCoeff = a.reRoutingCoeff ∧
      (∀ node ∈ nodes, a'.id.find? (rawId node) ≠ none) ∧
      ∀ k, a'.id.find? k = a.id.find? k ∨
        ∃ node ∈ nodes, rawId node = k ∧ a'.id.find? k = some (offset env a.channel node) := by
  induction nodes generalizing a with
  | nil =>
    cases h
    exact ⟨⟨rfl, rfl, rfl, rfl, rfl⟩, rfl, List.forall_mem_nil _, fun k => .inl rfl⟩
  | cons node nodes ih =>
    unfold loadSpeakers at h
    rw [List.foldlM_cons] at h
    obtain ⟨a₁, hfirst, hrest⟩ := exists_of_bind_ok h
    obtain ⟨hshape, hroutes, hkeys, hids⟩ := ih hrest
    obtain ⟨entry, -, rfl⟩ := loadSpeaker_ok env hfirst
    have hstore := sameShape_storeEntry a (offset env a.channel node) entry
    have hset : ∀ k, (a.id.set (rawId node) (offset env a.channel node)).find? k =
        if k = rawId node then some (offset env a.channel node) else a.id.find? k :=
      fun k => OrderedMap.find?_set _ _ _ k
    refine ⟨⟨hshape.is2D, hshape.isInfinite, hshape.numberOfSpeakers, hshape.channel,
      hshape.outputEqs.trans hstore.outputEqs⟩, hroutes, ?_, fun k => ?_⟩
    · refine List.forall_mem_cons.mpr ⟨?_, hkeys⟩
      rcases hids (rawId node) with hkept | ⟨other, -, -, hsome⟩
      · rw [hkept]
        show (a.id.set (rawId node) (offset env a.channel node)).find? (rawId node) ≠ none
        rw [hset, if_pos rfl]
        exact Option.some_ne_none _
      · rw [hsome]
        exact Option.some_ne_none _
    · -- the last node with an id is the one whose index is kept
      rcases hids k with hkept | ⟨other, hother, hraw, hsome⟩
      · rw [hkept]
        show (a.id.set (rawId node) (offset env a.channel node)).find? k = _ ∨ _
        rw [hset]
        by_cases hk : k = rawId node
        · refine .inr ⟨node, List.mem_cons_self, hk.symm, ?_⟩
          rw [if_pos hk]
        · rw [if_neg hk]
          exact .inl rfl
      · exact .inr ⟨other, List.mem_cons_of_mem node hother, hraw, hsome⟩

namespace Loading

variable {env} {a a' : LoudspeakerArray F} {treeRoot : PropertyTree}
  {eqs : Option (EqConfiguration F)} (st : Loading env a a' treeRoot eqs)

include st

/-- The shape of the array is that of the document. -/
theorem shape :
    a'.is2D = st.is2D ∧
      a'.isInfinite = treeRoot.getDefault env.getBool (xmlAttribute "infinite") false ∧
      a'.numberOfSpeakers = (treeRoot.equalRange "loudspeaker").length +
        (treeRoot.equalRange "virtualspeaker").length ∧
      a'.channel = ((treeRoot.equalRange "loudspeaker").map (channelNumber env)).mergeSort := by
  have hregular := (loadSpeakers_ids env st.regular_ok).1
  have hvirtual := (loadVirtualSpeakers_spec env st.virtual_ok).1.shape
  have hsubwoofers := (loadSubwoofers_spec env st.subwoofers_ok).1.shape
  refine ⟨?_, ?_, ?_, ?_⟩
  · exact hsubwoofers.is2D.trans (hvirtual.is2D.trans hregular.is2D)
  · exact hsubwoofers.isInfinite.trans (hvirtual.isInfinite.trans hregular.isInfinite)
  · exact hsubwoofers.numberOfSpeakers.trans
      (hvirtual.numberOfSpeakers.trans hregular.numberOfSpeakers)
  · rw [← (parseIds_spec env st.ids_ok).1]
    exact hsubwoofers.channel.trans (hvirtual.channel.trans hregular.channel)

theorem channel_regular : st.regular.channel = a'.channel := by
  have hvirtual := (loadVirtualSpeakers_spec env st.virtual_ok).1.shape
  have hsubwoofers := (loadSubwoofers_spec env st.subwoofers_ok).1.shape
  exact (hsubwoofers.channel.trans hvirtual.channel).symm

theorem channel_prepare : st.idsAndChannels.2.mergeSort = a'.channel :=
  (loadSpeakers_ids env st.regular_ok).1.channel.symm.trans st.channel_regular

theorem id_virtual : a'.id = st.virtual.id := (loadSubwoofers_spec env st.subwoofers_ok).1.id

theorem getNumRegularSpeakers_eq :
    a'.getNumRegularSpeakers = (treeRoot.equalRange "loudspeaker").length := by
  unfold getNumRegularSpeakers
  rw [st.shape.2.2.2, List.length_mergeSort, List.length_map]

/-- The channels of an accepted document are different. -/
theorem increasing : a'.channel.Pairwise (· < ·) := by
  have hchannels := st.channels_ok
  rw [st.shape.2.2.2] at hchannels ⊢
  exact checkChannels_ok hchannels

/-! ### Indices of regular loudspeakers -/

theorem channelNumber_mem {node : PropertyTree} (h : node ∈ treeRoot.equalRange "loudspeaker") :
    channelNumber env node ∈ a'.channel := by
  rw [st.shape.2.2.2, List.mem_mergeSort]
  exact List.mem_map_of_mem h

theorem offset_lt {node : PropertyTree} (h : node ∈ treeRoot.equalRange "loudspeaker") :
    offset env a'.channel node < a'.getNumRegularSpeakers :=
  List.idxOf_lt_length_of_mem (st.channelNumber_mem h)

theorem getElem?_offset {node : PropertyTree} (h : node ∈ treeRoot.equalRange "loudspeaker") :
    a'.channel[offset env a'.channel node]? = some (channelNumber env node) :=
  List.getElem?_idxOf (st.channelNumber_mem h)

theorem nodup_channels :
    ((treeRoot.equalRange "loudspeaker").map (channelNumber env)).Nodup := by
  have hnodup : a'.channel.Nodup := st.increasing.imp fun hlt => hlt.ne
  rw [st.shape.2.2.2] at hnodup
  exact (List.mergeSort_perm _ _).nodup_iff.mp hnodup

theorem offset_injective {node node' : PropertyTree}
    (h : node ∈ treeRoot.equalRange "loudspeaker") (h' : node' ∈ treeRoot.equalRange "loudspeaker")
    (heq : offset env a'.channel node = offset env a'.channel node') : node = node' := by
  have hchannel : some (channelNumber env node) = some (channelNumber env node') := by
    rw [← st.getElem?_offset h, ← st.getElem?_offset h', heq]
  exact List.inj_on_of_nodup_map st.nodup_channels h h' (Option.some.inj hchannel)

theorem nodup_offsets :
    ((treeRoot.equalRange "loudspeaker").map (offset env a'.channel)).Nodup := by
  rw [List.nodup_map_iff_inj_on (List.Nodup.of_map _ st.nodup_channels)]
  intro node h node' h' heq
  exact st.offset_injective h h' heq

/-- Each index below the number of regular loudspeakers belongs to one of them. -/
theorem exists_offset {index : ℕ} (h : index < a'.getNumRegularSpeakers) :
    ∃ node ∈ treeRoot.equalRange "loudspeaker", offset env a'.channel node = index := by
  have hiff : ∀ chIdx, chIdx ∈ a'.channel ↔
      chIdx ∈ (treeRoot.equalRange "loudspeaker").map (channelNumber env) := by
    intro chIdx
    rw [st.shape.2.2.2, List.mem_mergeSort]
  obtain ⟨node, hnode, hchannel⟩ := List.mem_map.mp ((hiff _).mp (List.getElem_mem h))
  refine ⟨node, hnode, ?_⟩
  have hnodup : a'.channel.Nodup := st.increasing.imp fun hlt => hlt.ne
  unfold offset
  rw [hchannel]
  exact hnodup.idxOf_getElem index h

/-! ### What becomes of ids -/

/-- Ids that have been there stay. -/
theorem find?_ne_none {id : String} (h : a.id.find? id ≠ none) : a'.id.find? id ≠ none := by
  have hparsed : st.idsAndChannels.1.find? id ≠ none := by
    rw [(parseIds_spec env st.ids_ok).2.2.2.2 id]
    split
    · exact Option.some_ne_none 0
    · exact h
  have hregular : st.regular.id.find? id ≠ none := by
    rcases (loadSpeakers_ids env st.regular_ok).2.2.2 id with hkept | ⟨node, -, -, hsome⟩
    · rw [hkept]
      exact hparsed
    · rw [hsome]
      exact Option.some_ne_none _
  rw [st.id_virtual, (loadVirtualSpeakers_spec env st.virtual_ok).1.ids id hregular]
  exact hregular

/-- The ids of the document are new. -/
theorem fresh {id : String} (h : a.id.find? id ≠ none) :
    id ∉ (treeRoot.equalRange "loudspeaker" ++
      treeRoot.equalRange "virtualspeaker").map speakerId := by
  intro hmem
  rw [List.map_append, List.mem_append] at hmem
  rcases hmem with hmem | hmem
  · obtain ⟨node, hnode, rfl⟩ := List.mem_map.mp hmem
    exact h ((parseIds_spec env st.ids_ok).2.2.2.1 node hnode)
  · obtain ⟨node, hnode, rfl⟩ := List.mem_map.mp hmem
    have hnone := (loadVirtualSpeakers_fresh env st.virtual_ok).2 node hnode
    rcases (loadSpeakers_ids env st.regular_ok).2.2.2 (speakerId node) with hkept |
        ⟨other, -, -, hsome⟩
    · have hparsed := (parseIds_spec env st.ids_ok).2.2.2.2 (speakerId node)
      have hkept : st.regular.id.find? (speakerId node) =
        st.idsAndChannels.1.find? (speakerId node) := hkept
      rw [hkept, hparsed] at hnone
      split at hnone
      · cases hnone
      · exact h hnone
    · rw [hnone] at hsome
      cases hsome

/-- The id of a regular loudspeaker is stored with its blanks. -/
theorem find?_rawId {node : PropertyTree} (h : node ∈ treeRoot.equalRange "loudspeaker") :
    a'.id.find? (rawId node) ≠ none := by
  have hregular := (loadSpeakers_ids env st.regular_ok).2.2.1 node h
  rw [st.id_virtual, (loadVirtualSpeakers_spec env st.virtual_ok).1.ids _ hregular]
  exact hregular

theorem matchesIdExpression_speakerId {id : String}
    (h : id ∈ (treeRoot.equalRange "loudspeaker" ++
      treeRoot.equalRange "virtualspeaker").map speakerId) : matchesIdExpression id = true := by
  rw [List.map_append, List.mem_append] at h
  rcases h with h | h
  · obtain ⟨node, hnode, rfl⟩ := List.mem_map.mp h
    exact (parseIds_spec env st.ids_ok).2.1 node hnode
  · obtain ⟨node, hnode, rfl⟩ := List.mem_map.mp h
    have hvirtual := (loadVirtualSpeakers_spec env st.virtual_ok).2.2.2
    rw [← List.zipIdx_map_fst st.regular.getNumRegularSpeakers
      (treeRoot.equalRange "virtualspeaker")] at hnode
    obtain ⟨entry, hentry, rfl⟩ := List.mem_map.mp hnode
    exact (hvirtual entry hentry).1

/-! ### Documents that are loaded consistently -/

/-- What the second traversal stores. -/
theorem regular_spec (hplain : PlainIds treeRoot) :
    (∀ node ∈ treeRoot.equalRange "loudspeaker",
        st.regular.id.find? (speakerId node) = some (offset env a'.channel node)) ∧
      (∀ id, id ∉ (treeRoot.equalRange "loudspeaker").map speakerId →
        st.regular.id.find? id = a.id.find? id) ∧
      ∀ node ∈ treeRoot.equalRange "loudspeaker",
        parseSpeaker env eqs a'.isInfinite a'.is2D node =
          .ok (a'.entryAt (offset env a'.channel node)) := by
  -- without blanks around them, the ids of both traversals are the same
  have hraw : (treeRoot.equalRange "loudspeaker").map rawId =
      (treeRoot.equalRange "loudspeaker").map speakerId :=
    List.map_congr_left fun node hnode => (hplain node hnode).symm
  have hparsed := parseIds_spec env st.ids_ok
  have hoffsets : ((treeRoot.equalRange "loudspeaker").map
      (offset env st.idsAndChannels.2.mergeSort)).Nodup := by
    rw [st.channel_prepare]
    exact st.nodup_offsets
  obtain ⟨-, -, hids, hothers, hentries⟩ := loadSpeakers_spec env (Option.isSome_map)
    (by rw [hraw]; exact hparsed.2.2.1) hoffsets st.regular_ok
  have hentries : ∀ node ∈ treeRoot.equalRange "loudspeaker",
      parseSpeaker env eqs (treeRoot.getDefault env.getBool (xmlAttribute "infinite") false)
        st.is2D node = .ok (st.regular.entryAt (offset env st.idsAndChannels.2.mergeSort node)) :=
    hentries
  have hids : ∀ node ∈ treeRoot.equalRange "loudspeaker", st.regular.id.find? (rawId node) =
      some (offset env st.idsAndChannels.2.mergeSort node) := hids
  rw [st.channel_prepare] at hids hentries
  rw [hraw] at hothers
  refine ⟨fun node hnode => ?_, fun id hid => ?_, fun node hnode => ?_⟩
  · rw [← hids node hnode]
    exact congrArg st.regular.id.find? (hplain node hnode)
  · refine (hothers id hid).trans ((hparsed.2.2.2.2 id).trans (if_neg hid))
  · have hlt := st.offset_lt hnode
    -- the loops after this one write behind the regular loudspeakers
    have hnum : a'.getNumRegularSpeakers = st.regular.getNumRegularSpeakers :=
      congrArg List.length st.channel_regular.symm
    have hnum' : a'.getNumRegularSpeakers = st.virtual.getNumRegularSpeakers :=
      congrArg List.length (loadSubwoofers_spec env st.subwoofers_ok).1.shape.channel
    rw [st.shape.1, st.shape.2.1, hentries node hnode,
      ← (loadVirtualSpeakers_spec env st.virtual_ok).2.1 _ (hnum ▸ hlt)]
    exact congrArg Except.ok ((loadSubwoofers_spec env st.subwoofers_ok).2 _ (hnum' ▸ hlt)).symm

/-- The ids after the regular loudspeakers. -/
theorem find?_regular_iff (hfresh : a.id = OrderedMap.empty) (hplain : PlainIds treeRoot)
    {id : String} {index : ℕ} :
    st.regular.id.find? id = some index ↔ ∃ node ∈ treeRoot.equalRange "loudspeaker",
      speakerId node = id ∧ offset env a'.channel node = index := by
  obtain ⟨hids, hothers, -⟩ := st.regular_spec hplain
  constructor
  · intro hfind
    by_cases hmem : id ∈ (treeRoot.equalRange "loudspeaker").map speakerId
    · obtain ⟨node, hnode, rfl⟩ := List.mem_map.mp hmem
      exact ⟨node, hnode, rfl, Option.some.inj ((hids node hnode).symm.trans hfind)⟩
    · rw [hothers id hmem, hfresh] at hfind
      cases hfind
  · rintro ⟨node, hnode, rfl, rfl⟩
    exact hids node hnode

/-- **The ids of a loaded array** are those of the regular loudspeakers, at the indices of their
channels, and those of the virtual ones in the order of the document. -/
theorem find?_iff (hfresh : a.id = OrderedMap.empty) (hplain : PlainIds treeRoot)
    {id : String} {index : ℕ} :
    a'.id.find? id = some index ↔
      (∃ node ∈ treeRoot.equalRange "loudspeaker",
        speakerId node = id ∧ offset env a'.channel node = index) ∨
      ∃ node ∈ (treeRoot.equalRange "virtualspeaker").zipIdx a'.getNumRegularSpeakers,
        speakerId node.1 = id ∧ node.2 = index := by
  obtain ⟨hextends, -, hothers, hvirtual⟩ := loadVirtualSpeakers_spec env st.virtual_ok
  have hnew := (loadVirtualSpeakers_fresh env st.virtual_ok).2
  have hnum : st.regular.getNumRegularSpeakers = a'.getNumRegularSpeakers :=
    congrArg List.length st.channel_regular
  rw [hnum] at hvirtual
  rw [st.id_virtual, ← st.find?_regular_iff hfresh hplain]
  constructor
  · intro hfind
    by_cases hmem : id ∈ (treeRoot.equalRange "virtualspeaker").map speakerId
    · rw [← map_speakerId_zipIdx _ a'.getNumRegularSpeakers] at hmem
      obtain ⟨node, hnode, rfl⟩ := List.mem_map.mp hmem
      exact .inr ⟨node, hnode, rfl,
        Option.some.inj ((hvirtual node hnode).2.1.symm.trans hfind)⟩
    · exact .inl ((hothers id hmem).symm.trans hfind)
  · rintro (hfind | ⟨node, hnode, rfl, rfl⟩)
    · rw [hextends.ids id (by simp [hfind]), hfind]
    · exact (hvirtual node hnode).2.1

omit st in
theorem mem_zipIdx_bounds {nodes : List PropertyTree} {n : ℕ} {node : PropertyTree × ℕ}
    (h : node ∈ nodes.zipIdx n) : n ≤ node.2 ∧ node.2 < n + nodes.length := by
  obtain ⟨hle, hlt, -⟩ := List.mem_zipIdx (x := node.1) (i := node.2) h
  omega

/-- Different loudspeakers have different indices. -/
theorem find?_injective (hfresh : a.id = OrderedMap.empty) (hplain : PlainIds treeRoot)
    {id id' : String} {index : ℕ} (h : a'.id.find? id = some index)
    (h' : a'.id.find? id' = some index) : id = id' := by
  rw [st.find?_iff hfresh hplain] at h h'
  rcases h with ⟨node, hnode, rfl, rfl⟩ | ⟨node, hnode, rfl, rfl⟩
  · rcases h' with ⟨node', hnode', rfl, heq⟩ | ⟨node', hnode', rfl, heq⟩
    · rw [st.offset_injective hnode' hnode heq]
    · have hlt := st.offset_lt hnode
      have hle := mem_zipIdx_bounds hnode'
      omega
  · rcases h' with ⟨node', hnode', rfl, heq⟩ | ⟨node', hnode', rfl, heq⟩
    · have hlt := st.offset_lt hnode'
      have hle := mem_zipIdx_bounds hnode
      omega
    · rw [List.inj_on_of_nodup_map (nodup_map_zipIdx _ _) hnode hnode' heq.symm]

omit [FloatArithmetic F] st in
/-- The id of an index, if no other id has this index. -/
theorem loudspeakerId_of_find? {b : LoudspeakerArray F} {id : String} {index : ℕ}
    (hunique : ∀ id', b.id.find? id' = some index → id' = id)
    (h : b.id.find? id = some index) : b.loudspeakerId index = .ok id := by
  unfold loudspeakerId
  cases hentry : b.id.entries.find? fun entry => entry.2 = index with
  | none =>
    have hnone := List.find?_eq_none.mp hentry (id, index) (OrderedMap.mem_of_find? h)
    simp at hnone
  | some entry =>
    have hindex : entry.2 = index := by simpa using List.find?_some hentry
    have hmem : (entry.1, index) ∈ b.id.entries := by
      rw [← hindex]
      exact List.mem_of_find?_eq_some hentry
    exact congrArg Except.ok (hunique entry.1 (OrderedMap.find?_of_mem hmem))

/-- The routes of a virtual loudspeaker. -/
theorem virtualStored (hfresh : a.id = OrderedMap.empty) (hplain : PlainIds treeRoot)
    (hroutes : RegularRoutes treeRoot) {node : PropertyTree × ℕ}
    (hnode : node ∈ (treeRoot.equalRange "virtualspeaker").zipIdx a'.getNumRegularSpeakers) :
    VirtualStored env a' node.1 node.2 := by
  have hkeeps := (loadSubwoofers_spec env st.subwoofers_ok).1
  obtain ⟨hextends, -, -, hvirtual⟩ := loadVirtualSpeakers_spec env st.virtual_ok
  have hnum : st.regular.getNumRegularSpeakers = a'.getNumRegularSpeakers :=
    congrArg List.length st.channel_regular
  have htarget : ∀ vnode ∈ treeRoot.equalRange "virtualspeaker",
      ∀ route ∈ vnode.equalRange "route", ∃ column < a'.getNumRegularSpeakers,
        st.regular.id.find? (routeTarget route) = some column := by
    intro vnode hvnode route hroute
    obtain ⟨target, htarget, heq⟩ := List.mem_map.mp (hroutes vnode hvnode route hroute)
    exact ⟨_, st.offset_lt htarget,
      (st.find?_regular_iff hfresh hplain).mpr ⟨target, htarget, heq, rfl⟩⟩
  have hgains := loadVirtualSpeakers_gains env st.virtual_ok (by rw [hnum]; exact htarget)
  rw [hnum] at hvirtual hgains
  have hmem := List.fst_mem_of_mem_zipIdx hnode
  refine ⟨?_, ?_, fun route hroute => ?_, fun id column hcolumn hfind => ?_⟩
  · exact (st.find?_iff hfresh hplain).mpr (.inr ⟨node, hnode, rfl, rfl⟩)
  · have hposition := (hvirtual node hnode).2.2
    rw [← hextends.shape.isInfinite, ← hextends.shape.is2D] at hposition
    rw [hkeeps.shape.isInfinite, hkeeps.shape.is2D, hkeeps.position]
    exact hposition
  · obtain ⟨column, hlt, hfind⟩ := htarget node.1 hmem route hroute
    refine ⟨column, hlt, ?_⟩
    rw [st.id_virtual, hextends.ids _ (by simp [hfind]), hfind]
  · have hzero : st.regular.reRoutingCoeff = fun _ _ => 0 := (loadSpeakers_ids env st.regular_ok).2.1
    have hgain := hgains node hnode column hcolumn
    rw [hkeeps.reRoutingCoeff]
    refine hgain.trans ?_
    rw [hzero]
    refine lastGain_congr env (fun route hroute => ?_) 0
    obtain ⟨column', -, hfind'⟩ := htarget node.1 hmem route hroute
    -- the loudspeaker of a route has the index of an id if and only if it has that id
    have hall : a'.id.find? (routeTarget route) = some column' := by
      rw [st.id_virtual, hextends.ids _ (by simp [hfind']), hfind']
    rw [hfind']
    refine decide_eq_decide.mpr ⟨fun heq => ?_, fun heq => ?_⟩
    · rw [heq] at hall
      exact st.find?_injective hfresh hplain hall hfind
    · rw [heq] at hall
      exact hall.symm.trans hfind

/-- **Documents without blanks around ids and with routes to regular loudspeakers only** are loaded
consistently by an array without ids. -/
theorem consistent (hfresh : a.id = OrderedMap.empty) (hplain : PlainIds treeRoot)
    (hroutes : RegularRoutes treeRoot) : Consistent env treeRoot eqs a' := by
  have hkeeps := (loadSubwoofers_spec env st.subwoofers_ok).1
  have hvirtual := (loadVirtualSpeakers_spec env st.virtual_ok).1
  have hiff : ∀ id index, a'.id.find? id = some index ↔
      (∃ node ∈ treeRoot.equalRange "loudspeaker",
        speakerId node = id ∧ offset env a'.channel node = index) ∨
      ∃ node ∈ (treeRoot.equalRange "virtualspeaker").zipIdx a'.getNumRegularSpeakers,
        speakerId node.1 = id ∧ node.2 = index :=
    fun id index => st.find?_iff hfresh hplain
  have hspeakers : a'.getNumSpeakers = a'.getNumRegularSpeakers +
      (treeRoot.equalRange "virtualspeaker").length := by
    rw [st.getNumRegularSpeakers_eq]
    exact st.shape.2.2.1
  -- every index belongs to a regular loudspeaker or to a virtual one
  have honto : ∀ index < a'.getNumSpeakers, ∃ id, a'.id.find? id = some index := by
    intro index hlt
    by_cases hregular : index < a'.getNumRegularSpeakers
    · obtain ⟨node, hnode, heq⟩ := st.exists_offset hregular
      exact ⟨speakerId node, (hiff _ _).mpr (.inl ⟨node, hnode, rfl, heq⟩)⟩
    · have hindex : index - a'.getNumRegularSpeakers <
          (treeRoot.equalRange "virtualspeaker").length := by omega
      have hmem := List.mk_add_mem_zipIdx_iff_getElem? (k := a'.getNumRegularSpeakers).mpr
        (List.getElem?_eq_getElem hindex)
      rw [show a'.getNumRegularSpeakers + (index - a'.getNumRegularSpeakers) = index by omega]
        at hmem
      exact ⟨_, (hiff _ _).mpr (.inr ⟨_, hmem, rfl, rfl⟩)⟩
  have hinj : ∀ id id' index, a'.id.find? id = some index → a'.id.find? id' = some index →
      id = id' := fun id id' index h h' => st.find?_injective hfresh hplain h h'
  have hindex : ∀ id index, a'.id.find? id = some index → a'.loudspeakerId index = .ok id :=
    fun id index h => loudspeakerId_of_find? (fun id' h' => hinj id' id index h' h) h
  -- the function of the array looks ids up in the same map
  have hfind : ∀ id index, a'.getSpeakerIndexFromId id = .ok index ↔
      a'.id.find? id = some index := by
    intro id index
    unfold getSpeakerIndexFromId
    cases a'.id.find? id with
    | none => exact ⟨nofun, nofun⟩
    | some found =>
      constructor
      · exact fun h => congrArg some (Except.ok.inj h)
      · exact fun h => congrArg _ (Option.some.inj h)
  refine
    { is2D := by rw [st.shape.1]; exact st.dimension_ok
      isInfinite := st.shape.2.1
      numRegularSpeakers := st.getNumRegularSpeakers_eq
      numSpeakers := st.shape.2.2.1
      ids_nodup := ?_
      regular := fun node hnode => ?_
      virtual := fun node hnode => ?_
      ids := fun id index h => ?_
      onto := honto
      injective := hinj
      increasing := st.increasing
      indexOfId := fun index hlt => ?_
      idOfIndex := fun id index h => hindex id index ((hfind id index).mp h)
      triplets := ?_ }
  · -- no id is used twice
    rw [List.map_append, List.nodup_append]
    refine ⟨(parseIds_spec env st.ids_ok).2.2.1, (loadVirtualSpeakers_fresh env st.virtual_ok).1,
      fun id hid id' hid' heq => ?_⟩
    obtain ⟨node, hnode, rfl⟩ := List.mem_map.mp hid
    obtain ⟨node', hnode', rfl⟩ := List.mem_map.mp hid'
    have hnone := (loadVirtualSpeakers_fresh env st.virtual_ok).2 node' hnode'
    rw [← heq, (st.regular_spec hplain).1 node hnode] at hnone
    cases hnone
  · refine ⟨_, st.offset_lt hnode, ?_, st.getElem?_offset hnode,
      (st.regular_spec hplain).2.2 node hnode⟩
    exact (hiff _ _).mpr (.inl ⟨node, hnode, rfl, rfl⟩)
  · rw [← List.zipIdx_map_fst a'.getNumRegularSpeakers
      (treeRoot.equalRange "virtualspeaker")] at hnode
    obtain ⟨entry, hentry, rfl⟩ := List.mem_map.mp hnode
    have hbounds := mem_zipIdx_bounds hentry
    exact ⟨entry.2, hbounds.1, hspeakers ▸ hbounds.2,
      st.virtualStored hfresh hplain hroutes hentry⟩
  · rw [List.map_append, List.mem_append]
    rcases (hiff id index).mp h with ⟨node, hnode, rfl, rfl⟩ | ⟨node, hnode, rfl, rfl⟩
    · have hlt := st.offset_lt hnode
      exact ⟨by omega, .inl (List.mem_map_of_mem hnode)⟩
    · exact ⟨hspeakers ▸ (mem_zipIdx_bounds hnode).2,
        .inr (List.mem_map_of_mem (List.fst_mem_of_mem_zipIdx hnode))⟩
  · obtain ⟨id, h⟩ := honto index hlt
    exact ⟨id, hindex id index h, (hfind id index).mpr h⟩
  · -- the triplets are resolved with the final map of ids
    rw [hkeeps.triplet]
    refine (loadAll_ok st.triplet_ok).imp fun node triplet hload => ?_
    have hstored := loadTriplet_ok hload
    unfold TripletStored at hstored ⊢
    rw [hkeeps.id, hkeeps.shape.is2D]
    exact hstored

/-- A consistent array has no other ids than those of the document, and none of them has blanks
around it. -/
theorem plain_of_consistent (h : Consistent env treeRoot eqs a') :
    a.id = OrderedMap.empty ∧ PlainIds treeRoot ∧ RegularRoutes treeRoot := by
  have hids : ∀ id, a'.id.find? id ≠ none → id ∈ (treeRoot.equalRange "loudspeaker" ++
      treeRoot.equalRange "virtualspeaker").map speakerId := by
    intro id hid
    obtain ⟨index, hindex⟩ := Option.ne_none_iff_exists'.mp hid
    exact (h.ids id index hindex).2
  refine ⟨OrderedMap.ext_find? fun id => ?_, fun node hnode => ?_,
    fun node hnode route hroute => ?_⟩
  · by_contra hne
    exact st.fresh hne (hids id (st.find?_ne_none hne))
  · exact trim_of_matchesIdExpression
      (st.matchesIdExpression_speakerId (hids _ (st.find?_rawId hnode)))
  · obtain ⟨_, _, _, hstored⟩ := h.virtual node hnode
    obtain ⟨column, hlt, hcolumn⟩ := hstored.routes route hroute
    have hmem := (h.ids _ _ hcolumn).2
    rw [List.map_append, List.mem_append] at hmem
    rcases hmem with hmem | hmem
    · exact hmem
    · -- a virtual loudspeaker has an index after those of the regular ones
      obtain ⟨vnode, hvnode, heq⟩ := List.mem_map.mp hmem
      obtain ⟨index, hle, -, hvirtual⟩ := h.virtual vnode hvnode
      have hindex := hvirtual.id
      rw [heq, hcolumn] at hindex
      cases hindex
      omega

end Loading

/-- The platform for documents with whole numbers. -/
def xmlPlatform : XmlPlatform WholeNumber where
  toPlatform := WholeNumber.platform []
  getIndex := WholeNumber.read fun n => n
  getBool text := if text = "true" then some true else if text = "false" then some false else none
  gainFromDB x := x
  dB2linear x := x

/-- An array that has not been loaded yet. -/
def emptyArray : LoudspeakerArray WholeNumber where
  is2D := false
  isInfinite := false
  numberOfSpeakers := 0
  position _ := ⟨0, 0, 0, false⟩
  triplet := []
  channel := []
  id := OrderedMap.empty
  subwooferChannels := []
  subwooferGains _ _ := 0
  reRoutingCoeff _ _ := 0
  gainAdjustment _ := 1
  delayAdjustment _ := 0
  outputEqs := none

/-- A node with attributes and children. -/
def xmlNode (attributes : List (String × String)) (children : List (String × PropertyTree)) :
    PropertyTree :=
  .node "" (("<xmlattr>", .node "" (attributes.map fun entry => (entry.1, .node entry.2 []))) ::
    children)

/-- A loudspeaker in front of the listener. -/
def frontSpeaker (id : String) (channel : String) : String × PropertyTree :=
  ("loudspeaker", xmlNode [("id", id), ("channel", channel)]
    [("cart", xmlNode [("x", "1"), ("y", "0"), ("z", "0")] [])])

def document (nodes : List (String × PropertyTree)) : PropertyTree :=
  .node "" [("panningConfiguration", xmlNode [] nodes)]

end LoudspeakerArray

end Visr
