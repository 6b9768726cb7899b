import Visr.Libpanning.ArrayConsistency

/-!
# Accesses to the tables of loudspeaker arrays

The matrices for routes and subwoofers have a column for each regular loudspeaker, but the ids by
which the loader finds the columns are also those of virtual loudspeakers, and of arrays that have
been loaded before.

## Main results

* `LoudspeakerArray.Loading.find?_trimmed` — what an id means after loading.
* `LoudspeakerArray.defined_loadXmlTree` — documents with which no access is out of memory.
* `LoudspeakerArray.staysWithin_iff` — with which documents the loader stays within its tables.
-/

namespace Visr

open PropertyTree

namespace LoudspeakerArray

variable {F : Type} [FloatArithmetic F] (env : XmlPlatform F)

/-! ### What a document names -/

/-- The loudspeakers a subwoofer is assigned to. -/
def assignedIds (node : PropertyTree) : List String :=
  (splitTokens (((node.getOptional some (xmlAttribute "assignedLoudspeakers")).getD "").toList.filter
    fun c => !Grammar.isSpace c)).map String.ofList

/-- All indices that belong to names of the document are in range. -/
structure WithinTables (treeRoot : PropertyTree) (a : LoudspeakerArray F) : Prop where
  routes : ∀ node ∈ treeRoot.equalRange "virtualspeaker", ∀ route ∈ node.equalRange "route",
    ∃ column < a.getNumRegularSpeakers, a.id.find? (routeTarget route) = some column
  subwoofers : ∀ node ∈ treeRoot.equalRange "subwoofer", ∀ id ∈ assignedIds node,
    ∃ column < a.getNumRegularSpeakers, a.id.find? id = some column
  triplets : ∀ triplet ∈ a.triplet, triplet.1 < a.getNumSpeakers ∧
    triplet.2.1 < a.getNumSpeakers ∧
    (triplet.2.2 < a.getNumSpeakers ∨ a.is2D = true ∧ triplet.2.2 = unusedIndex)

/-- The loader throws, or it only accesses elements of the tables. -/
def StaysWithin (parseTree : PropertyTree) : Except Abort (LoudspeakerArray F) → Prop
  | .error abort => abort ≠ .undefined
  | .ok a => ∃ treeRoot, parseTree.getChild ["panningConfiguration"] = .ok treeRoot ∧
      WithinTables treeRoot a

/-- An id is not that of a virtual loudspeaker, and if it is left from before, its index is that
of a regular loudspeaker. -/
def NamesRegular (a : LoudspeakerArray F) (treeRoot : PropertyTree) (id : String) : Prop :=
  id ∉ (treeRoot.equalRange "virtualspeaker").map speakerId ∧
    ∀ index, a.id.find? id = some index → index < (treeRoot.equalRange "loudspeaker").length

/-- The attributes of a triplet that are read. -/
def tripletAttributes (treeRoot : PropertyTree) : List String :=
  match parseDimension treeRoot with
  | .ok true => ["l1", "l2"]
  | _ => ["l1", "l2", "l3"]

/-- The document only names loudspeakers in places where these have a place in the tables. -/
structure SpeakersNamed (a : LoudspeakerArray F) (treeRoot : PropertyTree) : Prop where
  routes : ∀ node ∈ treeRoot.equalRange "virtualspeaker", ∀ route ∈ node.equalRange "route",
    NamesRegular a treeRoot (routeTarget route)
  subwoofers : ∀ node ∈ treeRoot.equalRange "subwoofer", ∀ id ∈ assignedIds node,
    NamesRegular a treeRoot id
  triplets : ∀ node ∈ treeRoot.equalRange "triplet", ∀ name ∈ tripletAttributes treeRoot,
    ∀ index, a.id.find? (tripletMember name node) = some index →
      index < (treeRoot.equalRange "loudspeaker").length +
        (treeRoot.equalRange "virtualspeaker").length

/-! ### Ids without blanks -/

theorem trim_routeTarget (route : PropertyTree) : trim (routeTarget route) = routeTarget route :=
  trim_trim _

theorem trim_tripletMember (name : String) (node : PropertyTree) :
    trim (tripletMember name node) = tripletMember name node := trim_trim _

/-- A text without blanks is not changed. -/
theorem trim_of_all {l : List Char} (h : ∀ c ∈ l, ¬isBlank c = true) :
    trim (String.ofList l) = String.ofList l := by
  have hleft : l.dropWhile isBlank = l :=
    List.dropWhile_eq_self_iff.mpr fun hpos => h _ (List.getElem_mem hpos)
  have hright : l.rdropWhile isBlank = l :=
    List.rdropWhile_eq_self_iff.mpr fun hne => h _ (List.getLast_mem hne)
  show String.ofList (((String.ofList l).toList.dropWhile isBlank).rdropWhile isBlank) =
    String.ofList l
  rw [String.toList_ofList, hleft, hright]

theorem mem_of_mem_compressTokens {tokens : List (List Char)} {token : List Char}
    (h : token ∈ compressTokens tokens) : token ∈ tokens := by
  fun_induction compressTokens tokens with
  | case1 => exact h
  | case2 last => exact h
  | case3 first tokens hne hempty ih => exact List.mem_cons_of_mem first (ih h)
  | case4 first tokens hne hempty ih =>
    rcases List.mem_cons.mp h with rfl | h
    · exact List.mem_cons_self
    · exact List.mem_cons_of_mem first (ih h)

/-- The names in the list of a subwoofer contain no blanks at all. -/
theorem trim_of_mem_assignedIds {node : PropertyTree} {id : String} (h : id ∈ assignedIds node) :
    trim id = id := by
  unfold assignedIds at h
  obtain ⟨token, htoken, rfl⟩ := List.mem_map.mp h
  refine trim_of_all fun c hc hblank => ?_
  have htoken' : token ∈ (((node.getOptional some (xmlAttribute "assignedLoudspeakers")).getD
      "").toList.filter fun c => !Grammar.isSpace c).splitOn ',' := by
    unfold splitTokens at htoken
    split at htoken
    · cases htoken
    next first tokens hsplit =>
      rw [hsplit]
      rcases List.mem_cons.mp htoken with rfl | htoken
      · exact List.mem_cons_self
      · exact List.mem_cons_of_mem first (mem_of_mem_compressTokens htoken)
  have hspace := (List.mem_filter.mp (Grammar.mem_of_mem_splitOn htoken' hc)).2
  unfold isBlank at hblank
  rw [Bool.or_eq_true, decide_eq_true_eq, decide_eq_true_eq] at hblank
  rcases hblank with rfl | rfl
  · exact absurd hspace (by decide)
  · exact absurd hspace (by decide)

/-! ### What an id means -/

section Regular

variable {env} {a b : LoudspeakerArray F} {nodes : List PropertyTree}
  {s : OrderedMap String ℕ × List ℕ} {eqs : Option (EqConfiguration F)} {is2D isInfinite : Bool}
  {numTotalSpeakers : ℕ} (hids : parseIds env a.id nodes = .ok s)
  (hregular : loadSpeakers env eqs (prepare a is2D isInfinite numTotalSpeakers eqs s) nodes = .ok b)

include hids hregular

theorem getNumRegularSpeakers_loadSpeakers : b.getNumRegularSpeakers = nodes.length := by
  have hchannel : b.channel = s.2.mergeSort := (loadSpeakers_ids env hregular).1.channel
  unfold getNumRegularSpeakers
  rw [hchannel, List.length_mergeSort, (parseIds_spec env hids).1, List.length_map]

/-- After the regular loudspeakers, an id without blanks is that of one of them, or it is left
from before. -/
theorem find?_loadSpeakers {id : String} (hid : trim id = id) :
    (id ∈ nodes.map speakerId → ∃ index < nodes.length, b.id.find? id = some index) ∧
      (id ∉ nodes.map speakerId → b.id.find? id = a.id.find? id) := by
  obtain ⟨hchannels, -, -, -, hparsed⟩ := parseIds_spec env hids
  rcases (loadSpeakers_ids env hregular).2.2.2 id with hkept | ⟨node, hnode, hraw, hsome⟩
  · have hkept : b.id.find? id = s.1.find? id := hkept
    rw [hkept, hparsed]
    refine ⟨fun hmem => ⟨0, ?_, if_pos hmem⟩, fun hmem => if_neg hmem⟩
    obtain ⟨node, hnode, -⟩ := List.mem_map.mp hmem
    exact List.length_pos_of_mem hnode
  · have hsome : b.id.find? id = some (offset env s.2.mergeSort node) := hsome
    refine ⟨fun _ => ⟨_, ?_, hsome⟩, fun hmem => ?_⟩
    · have hmem : channelNumber env node ∈ s.2.mergeSort := by
        rw [List.mem_mergeSort, hchannels]
        exact List.mem_map_of_mem hnode
      have hlength : s.2.mergeSort.length = nodes.length := by
        rw [List.length_mergeSort, hchannels, List.length_map]
      exact (List.idxOf_lt_length_of_mem hmem).trans_eq hlength
    · -- the id with its blanks is the id itself
      refine absurd (List.mem_map.mpr ⟨node, hnode, ?_⟩) hmem
      show trim (rawId node) = id
      rw [hraw, hid]

theorem lt_of_namesRegular {treeRoot : PropertyTree}
    (hnodes : treeRoot.equalRange "loudspeaker" = nodes) {id : String} (hid : trim id = id) (hnames : NamesRegular a treeRoot id) {index : ℕ}
    (hfind : b.id.find? id = some index) : index < b.getNumRegularSpeakers := by
  obtain ⟨hnew, hold⟩ := find?_loadSpeakers hids hregular hid
  rw [getNumRegularSpeakers_loadSpeakers hids hregular]
  by_cases hmem : id ∈ nodes.map speakerId
  · obtain ⟨index', hlt, hindex⟩ := hnew hmem
    cases hfind.symm.trans hindex
    exact hlt
  · rw [hold hmem] at hfind
    rw [← hnodes]
    exact hnames.2 index hfind

end Regular

namespace Loading

variable {env} {a a' : LoudspeakerArray F} {treeRoot : PropertyTree}
  {eqs : Option (EqConfiguration F)} (st : Loading env a a' treeRoot eqs)

include st

/-- **What an id without blanks means** after loading: a regular loudspeaker, a virtual one, or what
it has been before. -/
theorem find?_trimmed {id : String} (hid : trim id = id) :
    (id ∈ (treeRoot.equalRange "loudspeaker").map speakerId →
      ∃ index < (treeRoot.equalRange "loudspeaker").length, a'.id.find? id = some index) ∧
      (id ∈ (treeRoot.equalRange "virtualspeaker").map speakerId →
        ∃ index, (treeRoot.equalRange "loudspeaker").length ≤ index ∧
          index < (treeRoot.equalRange "loudspeaker").length +
            (treeRoot.equalRange "virtualspeaker").length ∧ a'.id.find? id = some index) ∧
      (id ∉ (treeRoot.equalRange "loudspeaker").map speakerId →
        id ∉ (treeRoot.equalRange "virtualspeaker").map speakerId →
        a'.id.find? id = a.id.find? id) := by
  obtain ⟨hregular, hother⟩ := find?_loadSpeakers st.ids_ok st.regular_ok hid
  obtain ⟨hextends, -, hkept, hvirtual⟩ := loadVirtualSpeakers_spec env st.virtual_ok
  have hnum : st.regular.getNumRegularSpeakers = (treeRoot.equalRange "loudspeaker").length := by
    rw [← st.getNumRegularSpeakers_eq]
    exact congrArg List.length st.channel_regular
  rw [hnum] at hvirtual
  rw [st.id_virtual]
  refine ⟨fun hmem => ?_, fun hmem => ?_, fun hmem hmem' => ?_⟩
  · obtain ⟨index, hlt, hfind⟩ := hregular hmem
    exact ⟨index, hlt, (hextends.ids id (by simp [hfind])).trans hfind⟩
  · rw [← map_speakerId_zipIdx _ (treeRoot.equalRange "loudspeaker").length] at hmem
    obtain ⟨node, hnode, rfl⟩ := List.mem_map.mp hmem
    have hbounds := mem_zipIdx_bounds hnode
    exact ⟨node.2, hbounds.1, hbounds.2, (hvirtual node hnode).2.1⟩
  · rw [hkept id hmem', hother hmem]

/-- An id that is found is that of a regular loudspeaker if and only if the document may name it. -/
theorem namesRegular_iff {id : String} (hid : trim id = id) (hfind : a'.id.find? id ≠ none) :
    (∃ column < a'.getNumRegularSpeakers, a'.id.find? id = some column) ↔
      NamesRegular a treeRoot id := by
  obtain ⟨hregular, hvirtual, hother⟩ := st.find?_trimmed hid
  rw [st.getNumRegularSpeakers_eq]
  unfold NamesRegular
  by_cases hmem : id ∈ (treeRoot.equalRange "virtualspeaker").map speakerId
  · refine iff_of_false ?_ fun h => h.1 hmem
    rintro ⟨column, hlt, hcolumn⟩
    obtain ⟨index, hle, -, hindex⟩ := hvirtual hmem
    rw [hcolumn] at hindex
    cases hindex
    omega
  · by_cases hmem' : id ∈ (treeRoot.equalRange "loudspeaker").map speakerId
    · refine iff_of_true (hregular hmem') ⟨hmem, fun index hindex => ?_⟩
      have hne : a.id.find? id ≠ none := by simp [hindex]
      refine absurd ?_ (st.fresh hne)
      rw [List.map_append]
      exact List.mem_append_left _ hmem'
    · -- an id that the document does not define keeps the index of the earlier array
      rw [hother hmem' hmem] at hfind ⊢
      refine ⟨?_, ?_⟩
      · rintro ⟨column, hlt, hcolumn⟩
        refine ⟨hmem, fun index hindex => ?_⟩
        cases hcolumn.symm.trans hindex
        exact hlt
      · rintro ⟨-, hold⟩
        obtain ⟨index, hindex⟩ := Option.ne_none_iff_exists'.mp hfind
        exact ⟨index, hold index hindex, hindex⟩

/-- An index is in range if it is not left from before, or if it has been in range then. -/
theorem lt_getNumSpeakers_iff {id : String} (hid : trim id = id) {index : ℕ}
    (hfind : a'.id.find? id = some index) :
    index < a'.getNumSpeakers ↔ ∀ old, a.id.find? id = some old →
      old < (treeRoot.equalRange "loudspeaker").length +
        (treeRoot.equalRange "virtualspeaker").length := by
  obtain ⟨hregular, hvirtual, hother⟩ := st.find?_trimmed hid
  have hnum : a'.getNumSpeakers = (treeRoot.equalRange "loudspeaker").length +
      (treeRoot.equalRange "virtualspeaker").length := st.shape.2.2.1
  have hnew : id ∈ (treeRoot.equalRange "loudspeaker" ++
      treeRoot.equalRange "virtualspeaker").map speakerId → ∀ old, a.id.find? id ≠ some old :=
    fun hmem old hold => st.fresh (by simp [hold]) hmem
  rw [List.map_append, List.mem_append] at hnew
  rw [hnum]
  by_cases hmem : id ∈ (treeRoot.equalRange "loudspeaker").map speakerId
  · obtain ⟨index', hlt, hindex⟩ := hregular hmem
    cases hfind.symm.trans hindex
    exact iff_of_true (by omega) fun old hold => absurd hold (hnew (.inl hmem) old)
  · by_cases hmem' : id ∈ (treeRoot.equalRange "virtualspeaker").map speakerId
    · obtain ⟨index', -, hlt, hindex⟩ := hvirtual hmem'
      cases hfind.symm.trans hindex
      exact iff_of_true hlt fun old hold => absurd hold (hnew (.inr hmem') old)
    · rw [hother hmem hmem'] at hfind
      refine ⟨fun hlt old hold => ?_, fun h => h index hfind⟩
      cases hfind.symm.trans hold
      exact hlt

end Loading

/-! ### Names in accepted documents -/

theorem loadRoutes_known {numVirtual row : ℕ} {a a' : LoudspeakerArray F}
    {routes : List PropertyTree} (h : routes.foldlM (loadRoute env numVirtual row) a = .ok a') :
    ∀ route ∈ routes, a.id.find? (routeTarget route) ≠ none := by
  induction routes generalizing a with
  | nil => exact List.forall_mem_nil _
  | cons route routes ih =>
    rw [List.foldlM_cons] at h
    obtain ⟨a₁, hfirst, hrest⟩ := exists_of_bind_ok h
    obtain ⟨column, coefficients, hcolumn, -, rfl⟩ := loadRoute_ok env hfirst
    have hothers := ih hrest
    refine List.forall_mem_cons.mpr ⟨?_, hothers⟩
    rw [hcolumn]
    exact Option.some_ne_none column

theorem loadVirtualSpeaker_known {numVirtual : ℕ} {a a' : LoudspeakerArray F}
    {node : PropertyTree × ℕ} (h : loadVirtualSpeaker env numVirtual a node = .ok a') :
    ∀ route ∈ node.1.equalRange "route", a'.id.find? (routeTarget route) ≠ none := by
  obtain ⟨-, -, coefficients, position, -, hroutes, rfl⟩ := loadVirtualSpeaker_ok env h
  have hknown := loadRoutes_known env hroutes
  exact hknown

/-- The loudspeakers that routes lead to are known. -/
theorem loadVirtualSpeakers_known {numVirtual : ℕ} {a a' : LoudspeakerArray F}
    {nodes : List (PropertyTree × ℕ)}
    (h : nodes.foldlM (loadVirtualSpeaker env numVirtual) a = .ok a') :
    ∀ node ∈ nodes, ∀ route ∈ node.1.equalRange "route",
      a'.id.find? (routeTarget route) ≠ none := by
  induction nodes generalizing a with
  | nil => exact List.forall_mem_nil _
  | cons node nodes ih =>
    rw [List.foldlM_cons] at h
    obtain ⟨a₁, hfirst, hrest⟩ := exists_of_bind_ok h
    refine List.forall_mem_cons.mpr ⟨fun route hroute => ?_, ih hrest⟩
    have hextends : Extends a₁ a' := foldlM_inv
      (fun _ _ _ _ hb hstep => hb.step env hstep) (Extends.refl a₁) hrest
    have hknown := loadVirtualSpeaker_known env hfirst route hroute
    rw [hextends.ids _ hknown]
    exact hknown

theorem assignedIds_of_get {node : PropertyTree} {text : String}
    (h : node.get some (xmlAttribute "assignedLoudspeakers") = .ok text) :
    assignedIds node = (splitTokens (text.toList.filter fun c =>
      !Grammar.isSpace c)).map String.ofList := by
  unfold assignedIds
  rw [getOptional_of_get h]
  rfl

theorem loadSubwoofer_known {eqs : Option (EqConfiguration F)} {numSubwoofers : ℕ}
    {a a' : LoudspeakerArray F} {node : PropertyTree × ℕ}
    (h : loadSubwoofer env eqs numSubwoofers a node = .ok a') :
    ∀ id ∈ assignedIds node.1, a.id.find? id ≠ none := by
  obtain ⟨subChannel, -, h⟩ := exists_of_bind_ok h
  obtain ⟨text, htext, h⟩ := exists_of_bind_ok h
  obtain ⟨columns, hcolumns, -⟩ := exists_of_bind_ok h
  rw [assignedIds_of_get htext]
  intro id hid
  obtain ⟨column, hcolumn⟩ := exists_loadAll_iff.mp ⟨columns, hcolumns⟩ id hid
  rw [lookupSpeaker_ok hcolumn]
  exact Option.some_ne_none column

/-- The loudspeakers that subwoofers are assigned to are known. -/
theorem loadSubwoofers_known {eqs : Option (EqConfiguration F)} {numSubwoofers : ℕ}
    {a a' : LoudspeakerArray F} {nodes : List (PropertyTree × ℕ)}
    (h : nodes.foldlM (loadSubwoofer env eqs numSubwoofers) a = .ok a') :
    ∀ node ∈ nodes, ∀ id ∈ assignedIds node.1, a.id.find? id ≠ none := by
  induction nodes generalizing a with
  | nil => exact List.forall_mem_nil _
  | cons node nodes ih =>
    rw [List.foldlM_cons] at h
    obtain ⟨a₁, hfirst, hrest⟩ := exists_of_bind_ok h
    refine List.forall_mem_cons.mpr ⟨loadSubwoofer_known env hfirst, ?_⟩
    rw [← (loadSubwoofer_ok env hfirst).1.id]
    exact ih hrest

/-! ### Accepted documents -/

theorem forall_iff_of_forall₂ {α β : Type} {R : α → β → Prop} {P : α → Prop} {Q : β → Prop}
    {l : List α} {l' : List β} (h : List.Forall₂ R l l') (hiff : ∀ x y, R x y → (Q y ↔ P x)) :
    (∀ y ∈ l', Q y) ↔ ∀ x ∈ l, P x := by
  induction h with
  | nil => exact iff_of_true (List.forall_mem_nil _) (List.forall_mem_nil _)
  | cons hfirst _ ih => rw [List.forall_mem_cons, List.forall_mem_cons, hiff _ _ hfirst, ih]

/-- The loudspeakers that are routed to are known. -/
theorem Loading.routes_known {a a' : LoudspeakerArray F} {treeRoot : PropertyTree}
    {eqs : Option (EqConfiguration F)} (st : Loading env a a' treeRoot eqs) :
    ∀ node ∈ treeRoot.equalRange "virtualspeaker", ∀ route ∈ node.equalRange "route",
      a'.id.find? (routeTarget route) ≠ none := by
  intro node hnode route hroute
  rw [← List.zipIdx_map_fst st.regular.getNumRegularSpeakers
    (treeRoot.equalRange "virtualspeaker")] at hnode
  obtain ⟨entry, hentry, rfl⟩ := List.mem_map.mp hnode
  rw [st.id_virtual]
  exact loadVirtualSpeakers_known env st.virtual_ok entry hentry route hroute

theorem Loading.subwoofers_known {a a' : LoudspeakerArray F} {treeRoot : PropertyTree}
    {eqs : Option (EqConfiguration F)} (st : Loading env a a' treeRoot eqs) :
    ∀ node ∈ treeRoot.equalRange "subwoofer", ∀ id ∈ assignedIds node, a'.id.find? id ≠ none := by
  intro node hnode id hid
  rw [← List.zipIdx_map_fst 0 (treeRoot.equalRange "subwoofer")] at hnode
  obtain ⟨entry, hentry, rfl⟩ := List.mem_map.mp hnode
  rw [(loadSubwoofers_spec env st.subwoofers_ok).1.id]
  exact loadSubwoofers_known env st.subwoofers_ok entry hentry id hid

/-- The corners of the triplets are in the tables if the earlier array has no index for their names,
or one that lies in the new tables. -/
theorem Loading.triplets_iff {a a' : LoudspeakerArray F} {treeRoot : PropertyTree}
    {eqs : Option (EqConfiguration F)} (st : Loading env a a' treeRoot eqs) :
    (∀ triplet ∈ a'.triplet, triplet.1 < a'.getNumSpeakers ∧
      triplet.2.1 < a'.getNumSpeakers ∧
      (triplet.2.2 < a'.getNumSpeakers ∨ a'.is2D = true ∧ triplet.2.2 = unusedIndex)) ↔
      ∀ node ∈ treeRoot.equalRange "triplet", ∀ name ∈ tripletAttributes treeRoot,
        ∀ index, a.id.find? (tripletMember name node) = some index →
          index < (treeRoot.equalRange "loudspeaker").length +
            (treeRoot.equalRange "virtualspeaker").length := by
  have hkeeps := (loadSubwoofers_spec env st.subwoofers_ok).1
  rw [hkeeps.triplet]
  refine forall_iff_of_forall₂ (loadAll_ok st.triplet_ok) fun node triplet hload => ?_
  have hstored := loadTriplet_ok hload
  have hmember : ∀ name index, st.virtual.id.find? (tripletMember name node) = some index →
      (index < a'.getNumSpeakers ↔ ∀ old, a.id.find? (tripletMember name node) = some old →
        old < (treeRoot.equalRange "loudspeaker").length +
          (treeRoot.equalRange "virtualspeaker").length) := by
    intro name index hfind
    rw [← st.id_virtual] at hfind
    exact st.lt_getNumSpeakers_iff (trim_tripletMember name node) hfind
  -- in the plane, the third corner is not read
  have h2D : st.virtual.is2D = st.is2D := hkeeps.shape.is2D.symm.trans st.shape.1
  unfold TripletStored at hstored
  rw [h2D] at hstored
  unfold tripletAttributes
  rw [st.dimension_ok, st.shape.1]
  obtain ⟨h1, h2, h3⟩ := hstored
  rw [hmember _ _ h1, hmember _ _ h2]
  cases hdimension : st.is2D with
  | true =>
    rw [hdimension, if_pos rfl] at h3
    simp [h3]
  | false =>
    rw [hdimension, if_neg Bool.false_ne_true] at h3
    rw [hmember _ _ h3]
    simp

/-- **With an accepted document**, all indices have been in range if and only if the document only
names loudspeakers that are in the tables. -/
theorem Loading.withinTables_iff {a a' : LoudspeakerArray F} {treeRoot : PropertyTree}
    {eqs : Option (EqConfiguration F)} (st : Loading env a a' treeRoot eqs) :
    WithinTables treeRoot a' ↔ SpeakersNamed a treeRoot := by
  constructor
  · intro h
    refine ⟨fun node hnode route hmem => ?_, fun node hnode id hmem => ?_,
      st.triplets_iff.mp h.triplets⟩
    · have hknown := st.routes_known env node hnode route hmem
      exact (st.namesRegular_iff (trim_routeTarget route) hknown).mp
        (h.routes node hnode route hmem)
    · have hknown := st.subwoofers_known env node hnode id hmem
      exact (st.namesRegular_iff (trim_of_mem_assignedIds hmem) hknown).mp
        (h.subwoofers node hnode id hmem)
  · intro h
    refine ⟨fun node hnode route hmem => ?_, fun node hnode id hmem => ?_,
      st.triplets_iff.mpr h.triplets⟩
    · have hknown := st.routes_known env node hnode route hmem
      exact (st.namesRegular_iff (trim_routeTarget route) hknown).mpr
        (h.routes node hnode route hmem)
    · have hknown := st.subwoofers_known env node hnode id hmem
      exact (st.namesRegular_iff (trim_of_mem_assignedIds hmem) hknown).mpr
        (h.subwoofers node hnode id hmem)

/-! ### Accesses out of memory -/

theorem defined_foldlM {M α : Type} {step : M → α → Except Abort M}
    (h : ∀ m x, Defined (step m x)) (l : List α) (m : M) : Defined (l.foldlM step m) :=
  foldlM_ne_error (I := fun _ => True) (fun x _ m _ => ⟨h m x, fun _ _ => trivial⟩) trivial

theorem defined_get {α : Type} (read : String → Option α) (path : List String)
    (t : PropertyTree) : Defined (t.get read path) := (handled_get read path t).defined

theorem defined_parseCoordNode (node : PropertyTree) (isInfinite is2D : Bool) :
    Defined (parseCoordNode env node isInfinite is2D) := by
  unfold parseCoordNode
  dsimp only
  split
  · exact defined_exception _
  · split
    · refine (handled_getChild _ _).defined.bind fun _ _ => (defined_get _ _ _).bind fun _ _ =>
        (defined_get _ _ _).bind fun _ _ => ?_
      split
      · exact (defined_pure _).bind fun _ _ => defined_pure _
      · exact (defined_get _ _ _).bind fun _ _ => defined_pure _
    · refine (handled_getChild _ _).defined.bind fun _ _ => (defined_get _ _ _).bind fun _ _ => ?_
      split
      · exact (defined_pure _).bind fun _ _ => (defined_get _ _ _).bind fun _ _ => defined_pure _
      · exact (defined_get _ _ _).bind fun _ _ => (defined_get _ _ _).bind fun _ _ =>
          defined_pure _

theorem defined_parseGainDelayAdjustments (node : PropertyTree) :
    Defined (parseGainDelayAdjustments env node) := by
  unfold parseGainDelayAdjustments
  dsimp only
  split
  · exact defined_exception _
  · exact defined_ok _
  · exact defined_ok _
  · exact defined_ok _

theorem defined_parseEqConfiguration (treeRoot : PropertyTree) :
    Defined (parseEqConfiguration env treeRoot) := by
  unfold parseEqConfiguration
  dsimp only
  split
  · exact defined_exception _
  · split
    · refine (handled_getChild _ _).defined.bind fun _ _ => (defined_get _ _ _).bind fun _ _ =>
        Defined.bind ?_ fun _ _ => defined_pure _
      exact defined_foldlM (fun _ nodeTree => (defined_get _ _ _).bind fun _ _ =>
        (BiquadCoefficientList.handled_loadXml _ nodeTree).defined.bind fun _ _ =>
          defined_pure _) _ _
    · exact defined_pure _

theorem defined_parseOutputEq (eqs : Option (EqConfiguration F)) (node : PropertyTree) :
    Defined (parseOutputEq eqs node) := by
  have hrow : ∀ (n : ℕ) (newFilter : List (BiquadCoefficient F)),
      Defined (filterRow n newFilter) := by
    intro n newFilter
    unfold filterRow
    split
    · exact defined_exception _
    · exact defined_ok _
  cases eqs with
  | none => exact defined_ok _
  | some eqs =>
    refine Defined.map ?_ some
    unfold parseEqFilter
    split
    · split
      · exact defined_exception _
      · exact hrow _ _
    · exact hrow _ _

theorem defined_parseSpeaker (eqs : Option (EqConfiguration F)) (isInfinite is2D : Bool)
    (node : PropertyTree) : Defined (parseSpeaker env eqs isInfinite is2D node) :=
  (defined_parseCoordNode env node isInfinite is2D).bind fun _ _ =>
    (defined_parseGainDelayAdjustments env node).bind fun _ _ =>
      (defined_parseOutputEq eqs node).bind fun _ _ => defined_pure _

omit [FloatArithmetic F] in
theorem defined_parseIds (id : OrderedMap String ℕ) (nodes : List PropertyTree) :
    Defined (parseIds env id nodes) := by
  refine defined_foldlM (fun s node => ?_) _ _
  refine (defined_get _ _ _).bind fun rawId _ => ?_
  dsimp only
  split
  · exact defined_exception _
  · refine (defined_get _ _ _).bind fun chIdx _ => ?_
    split
    · exact defined_exception _
    · exact defined_pure _

theorem defined_loadSpeakers (eqs : Option (EqConfiguration F)) (a : LoudspeakerArray F)
    (nodes : List PropertyTree) : Defined (loadSpeakers env eqs a nodes) :=
  defined_foldlM (fun _ node => (defined_get _ _ _).bind fun _ _ => (defined_get _ _ _).bind
    fun _ _ => (defined_parseSpeaker env eqs _ _ node).bind fun _ _ => defined_pure _) _ _

omit [FloatArithmetic F] in
theorem defined_lookupSpeaker (a : LoudspeakerArray F) (message id : String) :
    Defined (lookupSpeaker a message id) := by
  unfold lookupSpeaker
  split
  · exact defined_exception _
  · split
    · exact defined_exception _
    · exact defined_ok _

omit [FloatArithmetic F] in
theorem defined_loadTriplet (a : LoudspeakerArray F) (node : PropertyTree) :
    Defined (loadTriplet a node) := by
  refine (defined_get _ _ _).bind fun _ _ => (defined_get _ _ _).bind fun _ _ =>
    (defined_lookupSpeaker a _ _).bind fun _ _ => (defined_lookupSpeaker a _ _).bind fun _ _ => ?_
  split
  · exact defined_pure _
  · exact (defined_get _ _ _).bind fun _ _ => (defined_lookupSpeaker a _ _).bind fun _ _ =>
      defined_pure _

theorem defined_checkChannels (channels subwooferChannels : List ℕ) :
    Defined (checkChannels channels subwooferChannels) := by
  unfold checkChannels
  dsimp only
  split
  · exact defined_exception _
  · split
    · exact defined_exception _
    · split
      · exact defined_exception _
      · exact defined_ok _

theorem defined_parseDimension (treeRoot : PropertyTree) : Defined (parseDimension treeRoot) := by
  unfold parseDimension
  split
  · exact defined_ok _
  · split
    · exact defined_ok _
    · split
      · exact defined_ok _
      · exact defined_exception _

theorem defined_parseWeights (node : PropertyTree) (count : ℕ) :
    Defined (parseWeights env node count) := by
  unfold parseWeights
  split
  · exact defined_ok _
  · refine (FloatSequence.defined_parse _ _ _).bind fun _ _ => ?_
    split
    · exact defined_exception _
    · exact defined_pure _

omit [FloatArithmetic F] in
/-- An element within its row is in the memory. -/
theorem defined_writeElement {numberOfRows numberOfColumns rowIdx colIdx : ℕ} (m : ℕ → ℕ → F)
    (value : F) (hrow : rowIdx < numberOfRows) (hcol : colIdx < numberOfColumns) :
    Defined (writeElement numberOfRows numberOfColumns m rowIdx colIdx value) := by
  have haddress : rowIdx * numberOfColumns + colIdx < numberOfRows * numberOfColumns := by
    have hrows := Nat.mul_le_mul_right numberOfColumns hrow
    rw [Nat.succ_mul] at hrows
    omega
  unfold writeElement
  dsimp only
  rw [if_pos haddress]
  exact defined_ok _

/-- Routes to regular loudspeakers. -/
theorem defined_loadRoutes {numVirtual row : ℕ} (hrow : row < numVirtual)
    {routes : List PropertyTree} {a : LoudspeakerArray F}
    (h : ∀ route ∈ routes, ∀ column, a.id.find? (routeTarget route) = some column →
      column < a.getNumRegularSpeakers) :
    Defined (routes.foldlM (loadRoute env numVirtual row) a) := by
  refine foldlM_ne_error (I := fun b : LoudspeakerArray F => b.id = a.id ∧
    b.channel = a.channel) (fun route hroute b hb => ⟨?_, fun b' hstep => ?_⟩) ⟨rfl, rfl⟩
  · refine (handled_get _ _ _).defined.bind fun lspId hid => (defined_get _ _ _).bind fun _ _ =>
      (defined_lookupSpeaker b _ _).bind fun column hcolumn => ?_
    have htarget : routeTarget route = trim lspId := by
      unfold routeTarget
      rw [getOptional_of_get hid]
      rfl
    have hfind := lookupSpeaker_ok hcolumn
    rw [← htarget, hb.1] at hfind
    have hlt : column < b.getNumRegularSpeakers := by
      have hcolumn' := h route hroute column hfind
      unfold getNumRegularSpeakers at hcolumn' ⊢
      rwa [hb.2]
    exact (defined_writeElement _ _ hrow hlt).bind fun _ _ => defined_pure _
  · obtain ⟨column, coefficients, -, -, rfl⟩ := loadRoute_ok env hstep
    exact hb

/-- **The virtual loudspeakers**, if their routes lead to regular ones. -/
theorem defined_loadVirtualSpeakers {a : LoudspeakerArray F} {nodes : List PropertyTree}
    (h : ∀ node ∈ nodes, ∀ route ∈ node.equalRange "route",
      routeTarget route ∉ nodes.map speakerId ∧
        ∀ column, a.id.find? (routeTarget route) = some column →
          column < a.getNumRegularSpeakers) :
    Defined (loadVirtualSpeakers env a nodes) := by
  -- only the ids of virtual loudspeakers get another meaning
  refine foldlM_ne_error (I := fun b : LoudspeakerArray F => b.channel = a.channel ∧
    ∀ id, id ∉ nodes.map speakerId → b.id.find? id = a.id.find? id)
    (fun node hnode b hb => ⟨?_, fun b' hstep => ?_⟩) ⟨rfl, fun _ _ => rfl⟩
  · have hmem := List.fst_mem_of_mem_zipIdx hnode
    have hbounds := Loading.mem_zipIdx_bounds hnode
    have hnum : b.getNumRegularSpeakers = a.getNumRegularSpeakers := congrArg List.length hb.1
    refine (handled_get _ _ _).defined.bind fun rawId hraw => ?_
    dsimp only
    split
    · exact defined_exception _
    · have hrow : node.2 - b.getNumRegularSpeakers < nodes.length := by omega
      refine Defined.bind (defined_loadRoutes env hrow fun route hroute column hcolumn => ?_)
        fun _ _ => (defined_parseCoordNode env _ _ _).bind fun _ _ => defined_pure _
      obtain ⟨hnot, hlt⟩ := h node.1 hmem route hroute
      have hne : routeTarget route ≠ trim rawId := by
        intro heq
        refine hnot (List.mem_map.mpr ⟨node.1, hmem, ?_⟩)
        rw [heq, ← rawId_of_get hraw]
        rfl
      have hfind : (b.id.set (trim rawId) node.2).find? (routeTarget route) = some column := hcolumn
      rw [OrderedMap.find?_set, if_neg hne, hb.2 _ hnot] at hfind
      show column < b.getNumRegularSpeakers
      rw [hnum]
      exact hlt column hfind
  · have hmem := List.fst_mem_of_mem_zipIdx hnode
    obtain ⟨-, -, coefficients, position, -, -, rfl⟩ := loadVirtualSpeaker_ok env hstep
    refine ⟨hb.1, fun id hid => ?_⟩
    have hne : id ≠ speakerId node.1 := by
      rintro rfl
      exact hid (List.mem_map_of_mem hmem)
    exact (OrderedMap.find?_set _ _ _ _).trans ((if_neg hne).trans (hb.2 id hid))

/-- **The subwoofers**, if they are assigned to regular loudspeakers. -/
theorem defined_loadSubwoofers {eqs : Option (EqConfiguration F)} {a : LoudspeakerArray F}
    {nodes : List PropertyTree}
    (h : ∀ node ∈ nodes, ∀ id ∈ assignedIds node, ∀ column, a.id.find? id = some column →
      column < a.getNumRegularSpeakers) :
    Defined (loadSubwoofers env eqs a nodes) := by
  refine foldlM_ne_error (I := fun b : LoudspeakerArray F => b.channel = a.channel ∧ b.id = a.id)
    (fun node hnode b hb => ⟨?_, fun b' hstep => ?_⟩) ⟨rfl, rfl⟩
  · have hmem := List.fst_mem_of_mem_zipIdx hnode
    have hbounds := Loading.mem_zipIdx_bounds hnode
    have hnum : b.getNumRegularSpeakers = a.getNumRegularSpeakers := congrArg List.length hb.1
    refine (defined_get _ _ _).bind fun _ _ => (defined_get _ _ _).bind fun text htext =>
      (defined_loadAll fun id _ => defined_lookupSpeaker b _ id).bind fun columns hcolumns =>
        (defined_parseWeights env _ _).bind fun weights _ => Defined.bind ?_ fun _ _ =>
          (defined_parseGainDelayAdjustments env _).bind fun _ _ =>
            (defined_parseOutputEq eqs _).bind fun _ _ => defined_pure _
    -- each of the columns belongs to a loudspeaker the subwoofer is assigned to
    have hlt : ∀ column ∈ columns, column < b.getNumRegularSpeakers := by
      intro column hmember
      obtain ⟨id, hid, hlookup⟩ := exists_of_mem_loadAll hcolumns hmember
      have hfind := lookupSpeaker_ok hlookup
      rw [hb.2] at hfind
      rw [hnum]
      refine h node.1 hmem id ?_ column hfind
      rw [assignedIds_of_get htext]
      exact hid
    refine foldlM_ne_error (I := fun _ => True) (fun entry hentry gains _ => ⟨?_, fun _ _ => trivial⟩)
      trivial
    exact defined_writeElement _ _ (by omega) (hlt _ (List.of_mem_zip hentry).1)
  · obtain ⟨hkeeps, -⟩ := loadSubwoofer_ok env hstep
    exact ⟨hkeeps.shape.channel.trans hb.1, hkeeps.id.trans hb.2⟩

/-- **The loader throws or has a result** if the document only names loudspeakers that are in the
tables. -/
theorem defined_loadXmlTree {a : LoudspeakerArray F} {parseTree treeRoot : PropertyTree}
    (hroot : parseTree.getChild ["panningConfiguration"] = .ok treeRoot)
    (h : SpeakersNamed a treeRoot) : Defined (a.loadXmlTree env parseTree) := by
  unfold loadXmlTree
  rw [hroot, ok_bind]
  refine (defined_parseDimension treeRoot).bind fun is2D _ =>
    (defined_parseEqConfiguration env treeRoot).bind fun eqs _ =>
      (defined_parseIds env a.id _).bind fun s hids =>
        (defined_loadSpeakers env eqs _ _).bind fun b hregular => ?_
  -- the ids that are named are those of regular loudspeakers, whose indices are in range
  have hregularIds : ∀ {id : String} {index : ℕ}, trim id = id → NamesRegular a treeRoot id →
      b.id.find? id = some index → index < b.getNumRegularSpeakers :=
    fun hid hnames hfind => lt_of_namesRegular hids hregular rfl hid hnames hfind
  refine Defined.bind (defined_loadVirtualSpeakers env fun node hnode route hroute => ?_)
    fun c hvirtual => (defined_loadAll fun node _ => defined_loadTriplet c node).bind
      fun triplet _ => ?_
  · have hnames := h.routes node hnode route hroute
    exact ⟨hnames.1, fun column => hregularIds (trim_routeTarget route) hnames⟩
  · obtain ⟨hextends, -, hothers, -⟩ := loadVirtualSpeakers_spec env hvirtual
    refine Defined.bind (defined_loadSubwoofers env fun node hnode id hid column hfind => ?_)
      fun a' _ => (defined_checkChannels _ _).bind fun _ _ => defined_pure _
    have hnames := h.subwoofers node hnode id hid
    have hfind : c.id.find? id = some column := hfind
    rw [hothers id hnames.1] at hfind
    have hlt := hregularIds (trim_of_mem_assignedIds hid) hnames hfind
    have hnum : c.getNumRegularSpeakers = b.getNumRegularSpeakers :=
      congrArg List.length hextends.shape.channel
    show column < c.getNumRegularSpeakers
    rwa [hnum]

/-- **With which documents the loader stays within its tables**, if it does not throw. -/
theorem staysWithin_iff {a : LoudspeakerArray F} {parseTree : PropertyTree}
    (h : ∀ abort, a.loadXmlTree env parseTree = .error abort → abort = .undefined) :
    StaysWithin parseTree (a.loadXmlTree env parseTree) ↔
      ∃ treeRoot, parseTree.getChild ["panningConfiguration"] = .ok treeRoot ∧
        SpeakersNamed a treeRoot := by
  cases hload : a.loadXmlTree env parseTree with
  | error abort =>
    cases h abort hload
    refine iff_of_false (fun hne => hne rfl) ?_
    rintro ⟨treeRoot, hroot, hnamed⟩
    exact defined_loadXmlTree env hroot hnamed hload
  | ok a' =>
    obtain ⟨treeRoot, eqs, hroot, -, ⟨st⟩⟩ := loadXmlTree_ok env hload
    refine exists_congr fun treeRoot' => and_congr_right fun hroot' => ?_
    cases hroot.symm.trans hroot'
    exact st.withinTables_iff env

/-! ### Documents with one route -/

/-- A virtual loudspeaker above the listener with a route. -/
def topSpeaker (id target : String) : String × PropertyTree :=
  ("virtualspeaker", xmlNode [("id", id)]
    [("cart", xmlNode [("x", "0"), ("y", "0"), ("z", "1")] []),
      ("route", xmlNode [("lspId", target), ("gainDB", "0")] [])])

/-- A virtual loudspeaker that is routed to a regular one. -/
theorem staysWithin_regularRoute : StaysWithin (document [frontSpeaker "A" "1", topSpeaker "V" "A"])
    (emptyArray.loadXmlTree xmlPlatform
      (document [frontSpeaker "A" "1", topSpeaker "V" "A"])) := by
  obtain ⟨a', hload, -⟩ := exists_of_any (q := fun _ => true) (x := emptyArray.loadXmlTree
    xmlPlatform (document [frontSpeaker "A" "1", topSpeaker "V" "A"])) (by decide +kernel)
  refine (staysWithin_iff xmlPlatform fun abort habort => ?_).mpr
    ⟨xmlNode [] [frontSpeaker "A" "1", topSpeaker "V" "A"], rfl, ?_, ?_, ?_⟩
  · rw [hload] at habort
    cases habort
  · show ∀ node ∈ [(topSpeaker "V" "A").2], _
    rw [List.forall_mem_singleton]
    show ∀ route ∈ [xmlNode [("lspId", "A"), ("gainDB", "0")] []], _
    rw [List.forall_mem_singleton]
    refine ⟨?_, fun index hindex => nomatch hindex⟩
    show routeTarget _ ∉ [speakerId (topSpeaker "V" "A").2]
    decide +kernel
  · exact fun node hnode => absurd hnode List.not_mem_nil
  · exact fun node hnode => absurd hnode List.not_mem_nil

/-- The route of a virtual loudspeaker to itself is accepted. -/
theorem not_staysWithin_virtualRoute :
    ¬StaysWithin (document [frontSpeaker "A" "1", topSpeaker "V" "V", topSpeaker "W" "A"])
      (emptyArray.loadXmlTree xmlPlatform
        (document [frontSpeaker "A" "1", topSpeaker "V" "V", topSpeaker "W" "A"])) := by
  obtain ⟨a', hload, hresult⟩ := exists_of_any
    (q := fun a => decide (a.id.find? "V" = some 1 ∧ a.getNumRegularSpeakers = 1))
    (x := emptyArray.loadXmlTree xmlPlatform
      (document [frontSpeaker "A" "1", topSpeaker "V" "V", topSpeaker "W" "A"])) (by decide +kernel)
  obtain ⟨hid, hnum⟩ := of_decide_eq_true hresult
  rw [hload]
  rintro ⟨treeRoot, hroot, h⟩
  cases hroot
  obtain ⟨column, hlt, hcolumn⟩ := h.routes (topSpeaker "V" "V").2 List.mem_cons_self
    (xmlNode [("lspId", "V"), ("gainDB", "0")] []) List.mem_cons_self
  have htarget : routeTarget (xmlNode [("lspId", "V"), ("gainDB", "0")] []) = "V" := by
    decide +kernel
  rw [htarget, hid] at hcolumn
  cases hcolumn
  omega

end LoudspeakerArray

end Visr
