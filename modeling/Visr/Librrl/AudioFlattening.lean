import Visr.Librrl.AudioLayout
import Visr.Librrl.ParameterConnectionMap

/-!
# Flattening of the audio connections

The connections between the atomic components of a flow, and the external ports, that remain when
the hierarchy of the composite components is removed.

## Main results

* `checkAudioConnectionIntegrity_result` — the check passes exactly if all levels are wired.
* `flattened_of_wired` — **each channel of an atomic component is connected**, if the connections of
  a flow that passes the check can be resolved.
* `resolvePlaceholders_checked` — they can unless a placeholder feeds itself.
-/

namespace Visr

/-! ### The check of all levels -/

mutual

/-- `checkAudioConnectionIntegrity` with `hierarchical = true`. -/
def checkAudioConnectionIntegrity : Component → CheckResult
  | .atomic .. => .passed
  | .composite self aps pps comps acs pcs =>
    checkAudioComponents (checkAudioConnectionsLocal (.composite self aps pps comps acs pcs)) comps

/-- The loop over the children, which does not stop at the first problem. -/
def checkAudioComponents (check : CheckResult) : List Component → CheckResult
  | [] => check
  | c :: comps => checkAudioComponents (check.append (checkAudioConnectionIntegrity c)) comps

end

/-- Every level of the component is wired. -/
def AudioWired (component : Component) : Prop :=
  ∀ c ∈ component.preorder, c.isComposite = true → LevelWired c

theorem audioWired_composite {self aps pps comps acs pcs} :
    AudioWired (.composite self aps pps comps acs pcs) ↔
      LevelWired (.composite self aps pps comps acs pcs) ∧ ∀ c ∈ comps, AudioWired c := by
  unfold AudioWired
  rw [Component.preorder_eq, List.forall_mem_cons]
  refine and_congr ⟨fun h => h rfl, fun h _ => h⟩
    ⟨fun h c hc c' hc' => h c' (List.mem_flatMap.mpr ⟨c, hc, hc'⟩), ?_⟩
  intro h c' hc'
  obtain ⟨c, hc, hc'⟩ := List.mem_flatMap.mp hc'
  exact h c hc c' hc'

private theorem checkAudioComponents_result {comps : List Component}
    (ih : ∀ c ∈ comps, (checkAudioConnectionIntegrity c).result = true ↔ AudioWired c)
    (check : CheckResult) :
    (checkAudioComponents check comps).result = true ↔
      check.result = true ∧ ∀ c ∈ comps, AudioWired c := by
  induction comps generalizing check with
  | nil => simp [checkAudioComponents]
  | cons c comps ihcomps =>
    obtain ⟨ihc, ih⟩ := List.forall_mem_cons.mp ih
    rw [checkAudioComponents, ihcomps ih, List.forall_mem_cons, CheckResult.append_result,
      Bool.and_eq_true, ihc, and_assoc]

/-- **The check of all levels passes exactly when all of them are wired.** -/
theorem checkAudioConnectionIntegrity_result (component : Component) :
    (checkAudioConnectionIntegrity component).result = true ↔ AudioWired component := by
  induction component using Component.induct with
  | atomic self aps pps =>
    refine iff_of_true rfl fun c hc hcomposite => ?_
    obtain rfl := List.mem_singleton.mp hc
    exact absurd hcomposite Bool.false_ne_true
  | composite self aps pps comps acs pcs ih =>
    rw [checkAudioConnectionIntegrity, checkAudioComponents_result ih, audioWired_composite,
      checkAudioConnectionsLocal_result]

/-- The constructor of an audio connection map with `recursive = true`. -/
def AudioConnectionMap.ofComponent (component : Component) :
    Except Exception AudioConnectionMap :=
  let filled := AudioConnectionMap.fill component true
  if filled.result then .ok filled.connections
  else .error (.invalidArgument ("AudioConnectionMap: audio connections are not consistent:\n" ++
    String.join filled.messages))

/-- The connections of wired levels are accepted. -/
theorem AudioConnectionMap.ofComponent_of_wired {component : Component}
    (h : AudioWired component) :
    ∃ connections, AudioConnectionMap.ofComponent component = .ok connections ∧
      connections.Perm (AudioConnectionMap.allPairs component) := by
  have hvalid : AudioConnectionMap.LevelsValid component := by
    intro c hc connection hconnection
    have hcomposite : c.isComposite = true := by
      cases c with
      | atomic => exact absurd hconnection List.not_mem_nil
      | composite => rfl
    exact (h c hc hcomposite).valid connection hconnection
  have hresult : (AudioConnectionMap.fill component true).result = true :=
    (AudioConnectionMap.fillRecursive_result component _).mpr ⟨rfl, hvalid⟩
  have hperm := AudioConnectionMap.fillRecursive_connections component hvalid ⟨.passed, []⟩ rfl
  rw [List.append_nil] at hperm
  exact ⟨_, if_pos hresult, hperm⟩

/-- The steps of the resolution. -/
theorem AudioConnectionMap.resolvePlaceholders_cases {m : AudioConnectionMap}
    (hm : m.SingleSender) :
    ((∃ err, m.resolvePlaceholders = .error err) ∧
      ∃ r, r.isPlaceholder = false ∧ (m.TraceLoops r ∨ m.TraceDangles r)) ∨
    ∃ resolved, m.resolvePlaceholders = .ok resolved ∧ m.Extended m [] resolved := by
  rcases foldlM_resolveConnection hm (List.Subset.refl m) [] with
    ⟨e, -, hr, htrouble, err, -, hres⟩ | hok
  · exact Or.inl ⟨⟨err, hres⟩, e.2, hr, htrouble⟩
  · exact Or.inr hok

/-- A channel that is fed has a connection. -/
theorem AudioConnectionMap.Feeds.exists_connection {m : AudioConnectionMap} {s r : AudioChannel}
    (h : m.Feeds s r) : r ∈ m.map Prod.snd := by
  obtain ⟨p, hp, -⟩ := h.exists_last
  exact List.mem_map.mpr ⟨(p, r), hp, rfl⟩

theorem AudioConnectionMap.Extended.mem_resolved {m resolved : AudioConnectionMap}
    (h : m.Extended m [] resolved) (s r : AudioChannel) : (s, r) ∈ resolved ↔
      s.isPlaceholder = false ∧ r.isPlaceholder = false ∧ m.Feeds s r := by
  rw [h.mem_iff, or_iff_right List.not_mem_nil]
  exact and_iff_right_of_imp fun hsr => Feeds.exists_connection hsr.2.2

/-- The resolution does not fail at channels that are fed. -/
theorem AudioConnectionMap.Extended.not_trouble {m resolved : AudioConnectionMap}
    (hm : m.SingleSender) (h : m.Extended m [] resolved) {r : AudioChannel}
    (hr : r.isPlaceholder = false) : ¬ (m.TraceLoops r ∨ m.TraceDangles r) := by
  intro htrouble
  have hfed : ∃ p, m.Feeds p r := by
    rcases htrouble with ⟨p, -, hp, -⟩ | ⟨p, -, hp, -⟩
    · exact ⟨p, hp⟩
    · exact ⟨p, hp⟩
  obtain ⟨p, hp⟩ := hfed
  obtain ⟨e, he, rfl⟩ := List.mem_map.mp (Feeds.exists_connection hp)
  obtain ⟨s, hs, hsr⟩ := h.fed e he hr
  exact not_trouble_of_feeds hm hs hsr htrouble

/-! ### Positions in the tree -/

namespace Component

/-- Different components of a tree have different addresses. -/
theorem eq_of_self {root c c' : Component} (h : (root.preorder.map (·.self.address)).Nodup)
    (hc : c ∈ root.preorder) (hc' : c' ∈ root.preorder) (heq : c.self = c'.self) : c = c' :=
  List.inj_on_of_nodup_map h hc hc' (congrArg ComponentRef.address heq)

/-- What is inside of a component. -/
theorem mem_inside {root p c : Component} (hp : p ∈ root.preorder) (hc : c ∈ p.components) :
    c ∈ root.components.flatMap preorder := by
  rw [preorder_eq] at hp
  rcases List.mem_cons.mp hp with rfl | hp
  · exact List.mem_flatMap.mpr ⟨c, hc, c.mem_preorder_self⟩
  · obtain ⟨child, hchild, hp⟩ := List.mem_flatMap.mp hp
    exact List.mem_flatMap.mpr ⟨child, hchild, mem_preorder_of_mem_components hp hc⟩

/-- The root is inside of no other component. -/
theorem root_not_inside {root : Component} (h : (root.preorder.map (·.self.address)).Nodup) :
    root ∉ root.components.flatMap preorder := by
  rw [preorder_eq, List.map_cons, List.nodup_cons] at h
  exact fun hmem => h.1 (List.mem_map_of_mem (f := fun c : Component => c.self.address) hmem)

/-- A component is inside of one child only. -/
theorem child_unique {root c child child' : Component}
    (h : (root.preorder.map (·.self.address)).Nodup) (hchild : child ∈ root.components)
    (hchild' : child' ∈ root.components) (hc : c ∈ child.preorder) (hc' : c ∈ child'.preorder) :
    child = child' := by
  rw [preorder_eq] at h
  have hnodup := (List.nodup_cons.mp (List.Nodup.of_map _ h)).2
  have hdisjoint : root.components.Pairwise fun a b => List.Disjoint a.preorder b.preorder :=
    (List.nodup_flatMap.mp hnodup).2
  have hsymm : Std.Symm fun a b : Component => List.Disjoint a.preorder b.preorder :=
    ⟨fun _ _ h => h.symm⟩
  by_contra hne
  exact hdisjoint.forall hchild hchild' hne hc hc'

/-- Different components have different children. -/
theorem parent_unique {root p p' c : Component} (h : (root.preorder.map (·.self.address)).Nodup)
    (hp : p ∈ root.preorder) (hp' : p' ∈ root.preorder) (hc : c ∈ p.components)
    (hc' : c ∈ p'.components) : p = p' := by
  -- the children of the root are not inside of other children
  have houter : ∀ {root c child q : Component}, (root.preorder.map (·.self.address)).Nodup →
      c ∈ root.components → child ∈ root.components → q ∈ child.preorder →
      c ∉ q.components := by
    intro root c child q h hc hchild hq hcq
    have hcInside := mem_preorder_of_mem_components hq hcq
    obtain rfl := child_unique h hc hchild c.mem_preorder_self hcInside
    refine root_not_inside ?_ (mem_inside hq hcq)
    rw [preorder_eq] at h
    refine h.sublist ?_
    refine List.Sublist.map _ (List.Sublist.cons _ ?_)
    exact List.sublist_flatten_of_mem (List.mem_map_of_mem hc)
  induction root using induct with
  | atomic self aps pps =>
    rw [List.mem_singleton.mp hp] at hc
    exact absurd hc List.not_mem_nil
  | composite self aps pps comps acs pcs ih =>
    have hroot := preorder_eq (.composite self aps pps comps acs pcs)
    rw [hroot] at hp hp'
    rcases List.mem_cons.mp hp with rfl | hp
    · rcases List.mem_cons.mp hp' with rfl | hp'
      · rfl
      · obtain ⟨child, hchild, hp'⟩ := List.mem_flatMap.mp hp'
        exact absurd hc' (houter h hc hchild hp')
    · obtain ⟨child, hchild, hp⟩ := List.mem_flatMap.mp hp
      rcases List.mem_cons.mp hp' with rfl | hp'
      · exact absurd hc (houter h hc' hchild hp)
      · obtain ⟨child', hchild', hp'⟩ := List.mem_flatMap.mp hp'
        obtain rfl := child_unique h hchild hchild'
          (mem_preorder_of_mem_components hp hc) (mem_preorder_of_mem_components hp' hc')
        refine ih child hchild ?_ hp hp'
        rw [hroot] at h
        refine h.sublist (List.Sublist.map _ (List.Sublist.cons _ ?_))
        exact List.sublist_flatten_of_mem (List.mem_map_of_mem hchild)

end Component

/-! ### Channels of a level -/

section Levels

variable {flow : Flow} {l l' : Component} {c : AudioChannel}

/-- A receive channel belongs to one level only. -/
theorem ReceiveChannel.level_unique (hl : l ∈ flow.root.preorder) (hl' : l' ∈ flow.root.preorder)
    (h : ReceiveChannel l c) (h' : ReceiveChannel l' c) : l = l' := by
  have hwf := flow.wellFormed
  have heq : ∀ {a b : Component}, a ∈ flow.root.preorder → b ∈ flow.root.preorder →
      c.port ∈ a.audioPorts → c.port ∈ b.audioPorts → a = b := by
    intro a b ha hb hpa hpb
    refine Component.eq_of_self hwf.addresses ha hb ?_
    rw [← hwf.audioParent a ha _ hpa, hwf.audioParent b hb _ hpb]
  rcases h.2 with ⟨hown, hdir⟩ | ⟨child, hchild, hown, hdir⟩
  · rcases h'.2 with ⟨hown', -⟩ | ⟨child', -, -, hdir'⟩
    · exact heq hl hl' hown hown'
    · rw [hdir] at hdir'
      cases hdir'
  · rcases h'.2 with ⟨-, hdir'⟩ | ⟨child', hchild', hown', -⟩
    · rw [hdir] at hdir'
      cases hdir'
    · obtain rfl := heq (Component.mem_preorder_of_mem_components hl hchild)
        (Component.mem_preorder_of_mem_components hl' hchild') hown hown'
      exact Component.parent_unique hwf.addresses hl hl' hchild hchild'

theorem mem_allPairs {root : Component} {e : AudioChannel × AudioChannel} :
    e ∈ AudioConnectionMap.allPairs root ↔ ∃ l ∈ root.preorder, e ∈ levelPairs l :=
  List.mem_flatMap

/-- Only composites have connections. -/
theorem isComposite_of_mem_levelPairs {e : AudioChannel × AudioChannel} (he : e ∈ levelPairs l) :
    l.isComposite = true := by
  cases l with
  | atomic => exact absurd he List.not_mem_nil
  | composite => rfl

/-- The connections of a wired level lead from its send channels to its receive channels. -/
theorem LevelWired.channels (h : LevelWired l) {e : AudioChannel × AudioChannel}
    (he : e ∈ levelPairs l) : SendChannel l e.1 ∧ ReceiveChannel l e.2 := by
  obtain ⟨connection, hconnection, he⟩ := List.mem_flatMap.mp he
  exact channels_of_valid (h.valid connection hconnection) he

/-- The ports of the flow itself, and of the atomic components, are no placeholders. -/
theorem isPlaceholder_eq (hl : l ∈ flow.root.preorder) (hport : c.port ∈ l.audioPorts) :
    c.isPlaceholder = true ↔ l.isComposite = true ∧ l ≠ flow.root := by
  have hwf := flow.wellFormed
  unfold AudioChannel.isPlaceholder
  rw [isPlaceholderPort_iff, hwf.audioParent l hl _ hport, hwf.isComposite l hl]
  refine and_congr_right fun _ => ⟨?_, fun hne => ?_⟩
  · rintro htop rfl
    rw [hwf.topLevel] at htop
    cases htop
  · rcases Component.exists_parent hl with rfl | ⟨p, hp, hlp⟩
    · exact absurd rfl hne
    · exact hwf.nested p hp l hlp

end Levels

/-! ### The connections of all levels -/

section Wired

variable {flow : Flow} (hwired : AudioWired flow.root)

include hwired

theorem channels_of_mem_allPairs {s r : AudioChannel}
    (h : (s, r) ∈ AudioConnectionMap.allPairs flow.root) :
    ∃ l ∈ flow.root.preorder, LevelWired l ∧ SendChannel l s ∧ ReceiveChannel l r := by
  obtain ⟨l, hl, he⟩ := mem_allPairs.mp h
  have hlevel := hwired l hl (isComposite_of_mem_levelPairs he)
  exact ⟨l, hl, hlevel, hlevel.channels he⟩

/-- Each receive channel of a level has exactly one sender. -/
theorem count_allPairs {l : Component} (hl : l ∈ flow.root.preorder) (hlevel : LevelWired l)
    {c : AudioChannel} (hc : ReceiveChannel l c) :
    ((AudioConnectionMap.allPairs flow.root).map Prod.snd).count c = 1 := by
  have hzero : ∀ l' ∈ flow.root.preorder, l' ≠ l → ((levelPairs l').map Prod.snd).count c = 0 := by
    intro l' hl' hne
    refine List.count_eq_zero.mpr fun hmem => hne ?_
    obtain ⟨e, he, rfl⟩ := List.mem_map.mp hmem
    exact ReceiveChannel.level_unique hl' hl
      ((hwired l' hl' (isComposite_of_mem_levelPairs he)).channels he).2 hc
  have hsum : ∀ rest : List Component, (∀ l' ∈ rest, l' ∈ flow.root.preorder ∧ l' ≠ l) →
      ((rest.flatMap levelPairs).map Prod.snd).count c = 0 := by
    intro rest hrest
    refine List.count_eq_zero.mpr fun hmem => ?_
    obtain ⟨e, he, rfl⟩ := List.mem_map.mp hmem
    obtain ⟨l', hl', he⟩ := List.mem_flatMap.mp he
    have hcount := hzero l' (hrest l' hl').1 (hrest l' hl').2
    exact List.count_eq_zero.mp hcount (List.mem_map_of_mem he)
  show ((flow.root.preorder.flatMap levelPairs).map Prod.snd).count c = 1
  obtain ⟨before, after, heq⟩ := List.append_of_mem hl
  have hnodup : (before ++ l :: after).Nodup :=
    heq ▸ List.Nodup.of_map _ flow.wellFormed.addresses
  have hmem : ∀ l', l' ∈ before ∨ l' ∈ after → l' ∈ flow.root.preorder ∧ l' ≠ l := by
    intro l' hl'
    have hnot := List.nodup_middle.mp hnodup
    refine ⟨?_, ?_⟩
    · rw [heq]
      rcases hl' with hl' | hl'
      · exact List.mem_append_left _ hl'
      · exact List.mem_append_right _ (List.mem_cons_of_mem _ hl')
    · rintro rfl
      exact (List.nodup_cons.mp hnot).1 (List.mem_append.mpr hl')
  rw [heq, List.flatMap_append, List.flatMap_cons, List.map_append, List.map_append,
    List.count_append, List.count_append, hsum before fun l' hl' => hmem l' (Or.inl hl'),
    hsum after fun l' hl' => hmem l' (Or.inr hl'), hlevel.receive c hc]

theorem singleSender_allPairs :
    AudioConnectionMap.SingleSender (AudioConnectionMap.allPairs flow.root) := by
  rintro ⟨s, r⟩ he ⟨s', r'⟩ he' heq
  dsimp only at heq
  subst heq
  obtain ⟨l, hl, hlevel, -, hreceive⟩ := channels_of_mem_allPairs hwired he
  exact eq_of_count_eq_one (count_allPairs hwired hl hlevel hreceive) he he'

/-- Every send channel of a level is connected. -/
theorem exists_receiver {l : Component} (hl : l ∈ flow.root.preorder)
    (hcomposite : l.isComposite = true) {c : AudioChannel} (hc : SendChannel l c) :
    ∃ r, (c, r) ∈ AudioConnectionMap.allPairs flow.root := by
  obtain ⟨e, he, rfl⟩ := List.mem_map.mp ((hwired l hl hcomposite).send c hc)
  exact ⟨e.2, mem_allPairs.mpr ⟨l, hl, he⟩⟩

/-- A placeholder that receives on one side of its composite sends on the other side. -/
theorem exists_receiver_of_placeholder {p q : AudioChannel} (hp : p.isPlaceholder = true)
    (hq : (q, p) ∈ AudioConnectionMap.allPairs flow.root) :
    ∃ r, (p, r) ∈ AudioConnectionMap.allPairs flow.root := by
  obtain ⟨l, hl, -, -, hwidth, hreceive⟩ := channels_of_mem_allPairs hwired hq
  rcases hreceive with ⟨hown, hdir⟩ | ⟨child, hchild, hown, hdir⟩
  · -- an output of `l`, which sends on the level above
    obtain ⟨-, hne⟩ := (isPlaceholder_eq hl hown).mp hp
    obtain ⟨parent, hparent, hlparent⟩ := (Component.exists_parent hl).resolve_left hne
    exact exists_receiver hwired hparent (ParameterConnectionMap.isComposite_of_mem_components hlparent)
      ⟨hwidth, Or.inr ⟨l, hlparent, hown, hdir⟩⟩
  · -- an input of a composite child, which sends on the level below
    have hmem := Component.mem_preorder_of_mem_components hl hchild
    obtain ⟨hcomposite, -⟩ := (isPlaceholder_eq hmem hown).mp hp
    exact exists_receiver hwired hmem hcomposite ⟨hwidth, Or.inl ⟨hown, hdir⟩⟩

/-- Every receive channel of a level is connected. -/
theorem exists_sender {l : Component} (hl : l ∈ flow.root.preorder)
    (hcomposite : l.isComposite = true) {c : AudioChannel} (hc : ReceiveChannel l c) :
    ∃ s, (s, c) ∈ AudioConnectionMap.allPairs flow.root := by
  have hcount := count_allPairs hwired hl (hwired l hl hcomposite) hc
  have hpos : 0 < ((AudioConnectionMap.allPairs flow.root).map Prod.snd).count c := by
    rw [hcount]
    exact Nat.one_pos
  obtain ⟨e, he, rfl⟩ := List.mem_map.mp (List.count_pos_iff.mp hpos)
  exact ⟨e.1, he⟩

/-- A placeholder that sends on one side of its composite receives on the other side. -/
theorem exists_sender_of_placeholder {p q : AudioChannel} (hp : p.isPlaceholder = true)
    (hq : (p, q) ∈ AudioConnectionMap.allPairs flow.root) :
    ∃ s, (s, p) ∈ AudioConnectionMap.allPairs flow.root := by
  obtain ⟨l, hl, -, ⟨hwidth, hsend⟩, -⟩ := channels_of_mem_allPairs hwired hq
  rcases hsend with ⟨hown, hdir⟩ | ⟨child, hchild, hown, hdir⟩
  · -- an input of `l`, which receives on the level above
    obtain ⟨-, hne⟩ := (isPlaceholder_eq hl hown).mp hp
    obtain ⟨parent, hparent, hlparent⟩ := (Component.exists_parent hl).resolve_left hne
    exact exists_sender hwired hparent (ParameterConnectionMap.isComposite_of_mem_components hlparent)
      ⟨hwidth, Or.inr ⟨l, hlparent, hown, hdir⟩⟩
  · -- an output of a composite child, which receives on the level below
    have hmem := Component.mem_preorder_of_mem_components hl hchild
    obtain ⟨hcomposite, -⟩ := (isPlaceholder_eq hmem hown).mp hp
    exact exists_sender hwired hmem hcomposite ⟨hwidth, Or.inl ⟨hown, hdir⟩⟩

/-- No channel is fed by a placeholder without a sender. -/
theorem not_traceDangles (r : AudioChannel) :
    ¬ AudioConnectionMap.TraceDangles (AudioConnectionMap.allPairs flow.root) r := by
  rintro ⟨p, hp, hfeeds, hnone⟩
  obtain ⟨q, hq, -⟩ := hfeeds.exists_first
  obtain ⟨s, hs⟩ := exists_sender_of_placeholder hwired hp hq
  exact hnone s hs

end Wired

/-! ### Channels without placeholders -/

/-- The channels of the external ports with the direction `own`, and of the ports of atomic components
with the direction `inner`. -/
def ConcreteChannel (own inner : Direction) (root : Component) (c : AudioChannel) : Prop :=
  c.channel < c.port.width ∧ (c.port ∈ root.audioPorts ∧ c.port.direction = own ∨
    ∃ atom ∈ root.preorder, atom.isComposite = false ∧ c.port ∈ atom.audioPorts ∧
      c.port.direction = inner)

/-- The channels that are written from the outside, or by an atomic component. -/
abbrev ConcreteSend := ConcreteChannel .input .output

/-- The channels that are read from the outside, or by an atomic component. -/
abbrev ConcreteReceive := ConcreteChannel .output .input

/-- The connections without the hierarchy. -/
structure Flattened (root : Component) (flat : AudioConnectionMap) : Prop where
  complete : Complete root flat
  feeds : ∀ s r, (s, r) ∈ flat ↔ s.isPlaceholder = false ∧ r.isPlaceholder = false ∧
    AudioConnectionMap.Feeds (AudioConnectionMap.allPairs root) s r
  sends : ∀ c, (∃ r, (c, r) ∈ flat) ↔ ConcreteSend root c
  receives : ∀ c, (∃ s, (s, c) ∈ flat) ↔ ConcreteReceive root c

section Concrete

variable {flow : Flow} (hcomposite : flow.root.isComposite = true)

include hcomposite

theorem concreteChannel_iff {own inner : Direction} {c : AudioChannel} :
    ConcreteChannel own inner flow.root c ↔ c.isPlaceholder = false ∧
      ∃ l ∈ flow.root.preorder, l.isComposite = true ∧ c.channel < c.port.width ∧
        (c.port ∈ l.audioPorts ∧ c.port.direction = own ∨
          ∃ child ∈ l.components, c.port ∈ child.audioPorts ∧ c.port.direction = inner) := by
  have hroot := flow.root.mem_preorder_self
  constructor
  · rintro ⟨hwidth, ⟨hown, hdir⟩ | ⟨atom, hatom, hatomic, hown, hdir⟩⟩
    · refine ⟨?_, flow.root, hroot, hcomposite, hwidth, Or.inl ⟨hown, hdir⟩⟩
      rw [← Bool.not_eq_true, isPlaceholder_eq hroot hown]
      exact fun h => h.2 rfl
    · refine ⟨?_, ?_⟩
      · rw [← Bool.not_eq_true, isPlaceholder_eq hatom hown, hatomic]
        exact fun h => Bool.false_ne_true h.1
      · rcases Component.exists_parent hatom with rfl | ⟨p, hp, hatomp⟩
        · rw [hatomic] at hcomposite
          cases hcomposite
        · exact ⟨p, hp, ParameterConnectionMap.isComposite_of_mem_components hatomp, hwidth,
            Or.inr ⟨atom, hatomp, hown, hdir⟩⟩
  · rintro ⟨hconcrete, l, hl, hlcomposite, hwidth, ⟨hown, hdir⟩ | ⟨child, hchild, hown, hdir⟩⟩
    · refine ⟨hwidth, Or.inl ?_⟩
      rw [← Bool.not_eq_true, isPlaceholder_eq hl hown] at hconcrete
      have hroot : l = flow.root := by
        by_contra hne
        exact hconcrete ⟨hlcomposite, hne⟩
      exact ⟨hroot ▸ hown, hdir⟩
    · have hmem := Component.mem_preorder_of_mem_components hl hchild
      refine ⟨hwidth, Or.inr ⟨child, hmem, ?_, hown, hdir⟩⟩
      rw [← Bool.not_eq_true, isPlaceholder_eq hmem hown] at hconcrete
      rw [← Bool.not_eq_true]
      intro hchildComposite
      refine hconcrete ⟨hchildComposite, ?_⟩
      rintro rfl
      exact Component.root_not_inside flow.wellFormed.addresses (Component.mem_inside hl hchild)

/-- No channel without placeholders sends and receives. -/
theorem ConcreteSend.port_ne {s r : AudioChannel} (hs : ConcreteSend flow.root s)
    (hr : ConcreteReceive flow.root r) : s.port ≠ r.port := by
  have hwf := flow.wellFormed
  have hother : ∀ {atom : Component}, atom ∈ flow.root.preorder → atom.isComposite = false →
      s.port ∈ atom.audioPorts → s.port ∉ flow.root.audioPorts := by
    intro atom hatom hatomic hown hroot
    have hself : atom = flow.root := by
      refine Component.eq_of_self hwf.addresses hatom flow.root.mem_preorder_self ?_
      rw [← hwf.audioParent atom hatom _ hown,
        hwf.audioParent _ flow.root.mem_preorder_self _ hroot]
    rw [hself, hcomposite] at hatomic
    cases hatomic
  intro heq
  rcases hs.2 with ⟨hown, hdir⟩ | ⟨atom, hatom, hatomic, hown, hdir⟩
  · rcases hr.2 with ⟨-, hdir'⟩ | ⟨atom, hatom, hatomic, hown', -⟩
    · rw [heq, hdir'] at hdir
      cases hdir
    · exact hother hatom hatomic (heq ▸ hown') hown
  · rcases hr.2 with ⟨hown', -⟩ | ⟨-, -, -, -, hdir'⟩
    · exact hother hatom hatomic hown (heq ▸ hown')
    · rw [heq, hdir'] at hdir
      cases hdir

/-- A concrete send channel does not receive anything. -/
theorem ConcreteSend.not_receives (hwired : AudioWired flow.root) {c q : AudioChannel}
    (hc : ConcreteSend flow.root c) : (q, c) ∉ AudioConnectionMap.allPairs flow.root := by
  intro hq
  obtain ⟨l, hl, he⟩ := mem_allPairs.mp hq
  have hlcomposite := isComposite_of_mem_levelPairs he
  have hreceive := ((hwired l hl hlcomposite).channels he).2
  have hconcrete := ((concreteChannel_iff hcomposite).mp hc).1
  exact ConcreteSend.port_ne hcomposite hc
    ((concreteChannel_iff hcomposite).mpr ⟨hconcrete, l, hl, hlcomposite, hreceive⟩) rfl

/-- The signal of a concrete send channel arrives somewhere. -/
theorem exists_feeds (hwired : AudioWired flow.root) {c : AudioChannel}
    (hc : ConcreteSend flow.root c) :
    ∃ r, r.isPlaceholder = false ∧
      AudioConnectionMap.Feeds (AudioConnectionMap.allPairs flow.root) c r := by
  have hsingle := singleSender_allPairs hwired
  obtain ⟨-, l, hl, hlcomposite, hsend⟩ := (concreteChannel_iff hcomposite).mp hc
  have hback : ∀ {a b}, Backtrace.Back
      (AudioConnectionMap.senderOf (AudioConnectionMap.allPairs flow.root)) a b ↔
      (a, b) ∈ AudioConnectionMap.allPairs flow.root :=
    AudioConnectionMap.senderOf_eq_some_iff hsingle
  have hnone : AudioConnectionMap.senderOf (AudioConnectionMap.allPairs flow.root) c = none := by
    rw [Option.eq_none_iff_forall_ne_some]
    intro q hq
    exact ConcreteSend.not_receives hcomposite hwired hc (hback.mp hq)
  obtain ⟨r, hvisible, hvia⟩ := Backtrace.exists_via_visible (fun c => c.isPlaceholder = true)
    ((AudioConnectionMap.allPairs flow.root).map Prod.fst) hnone
    (fun a b hab => List.mem_map_of_mem (f := Prod.fst) (hback.mp hab))
    (by
      obtain ⟨r, hr⟩ := exists_receiver hwired hl hlcomposite hsend
      exact ⟨r, hback.mpr hr⟩)
    (by
      intro p hp hvia
      obtain ⟨q, hq, -⟩ := hvia.exists_last
      obtain ⟨r, hr⟩ := exists_receiver_of_placeholder hwired hp (hback.mp hq)
      exact ⟨r, hback.mpr hr⟩)
  refine ⟨r, Bool.not_eq_true _ ▸ hvisible, ?_⟩
  rw [AudioConnectionMap.feeds_eq hsingle]
  exact hvia

/-- Connected ports carry samples of the same type. -/
def SameSampleTypes (root : Component) : Prop :=
  ∀ l ∈ root.preorder, ∀ connection ∈ l.audioConnections,
    connection.sender.sampleType = connection.receiver.sampleType

omit hcomposite in
theorem SameSampleTypes.feeds (h : SameSampleTypes flow.root) {s r : AudioChannel}
    (hfeeds : AudioConnectionMap.Feeds (AudioConnectionMap.allPairs flow.root) s r) :
    s.port.sampleType = r.port.sampleType := by
  have hedge : ∀ {a b : AudioChannel}, (a, b) ∈ AudioConnectionMap.allPairs flow.root →
      a.port.sampleType = b.port.sampleType := by
    intro a b hab
    obtain ⟨l, hl, he⟩ := mem_allPairs.mp hab
    obtain ⟨connection, hconnection, he⟩ := List.mem_flatMap.mp he
    obtain ⟨i, -, heq⟩ := List.mem_map.mp he
    obtain ⟨rfl, rfl⟩ := Prod.mk.inj heq
    exact h l hl connection hconnection
  induction hfeeds with
  | single hab => exact hedge hab
  | snoc _ _ hab ih => exact ih.trans (hedge hab)

/-- **Each channel of an atomic component is connected**, and so is each external channel. -/
theorem flattened_of_wired (hwired : AudioWired flow.root) (htypes : SameSampleTypes flow.root)
    {connections flat : AudioConnectionMap}
    (hconnections : connections.Perm (AudioConnectionMap.allPairs flow.root))
    (hflat : connections.resolvePlaceholders = .ok flat) : Flattened flow.root flat := by
  have hedges : ∀ {a b : AudioChannel}, AudioConnectionMap.Connects connections a b ↔
      AudioConnectionMap.Connects (AudioConnectionMap.allPairs flow.root) a b :=
    hconnections.mem_iff
  have hfeeds : ∀ {s r : AudioChannel}, AudioConnectionMap.Feeds connections s r ↔
      AudioConnectionMap.Feeds (AudioConnectionMap.allPairs flow.root) s r :=
    ⟨fun h => h.mono fun _ _ => hedges.mp, fun h => h.mono fun _ _ => hedges.mpr⟩
  have hsingle : AudioConnectionMap.SingleSender connections := by
    intro e he e' he' heq
    exact singleSender_allPairs hwired e (hconnections.mem_iff.mp he) e'
      (hconnections.mem_iff.mp he') heq
  rcases AudioConnectionMap.resolvePlaceholders_cases hsingle with
    ⟨⟨err, herr⟩, -⟩ | ⟨resolved, hresolved, hext⟩
  · rw [hflat] at herr
    cases herr
  rw [hflat] at hresolved
  obtain rfl := Except.ok.inj hresolved
  have hmem := hext.mem_resolved
  simp only [hfeeds] at hmem
  -- the ends of a connection are channels of the flow
  have hends : ∀ {s r : AudioChannel}, (s, r) ∈ flat →
      ConcreteSend flow.root s ∧ ConcreteReceive flow.root r := by
    intro s r he
    obtain ⟨hs, hr, hvia⟩ := (hmem s r).mp he
    obtain ⟨p, hp, -⟩ := hvia.exists_first
    obtain ⟨q, hq, -⟩ := hvia.exists_last
    obtain ⟨l, hl, hpl⟩ := mem_allPairs.mp hp
    obtain ⟨l', hl', hql'⟩ := mem_allPairs.mp hq
    have hlcomposite := isComposite_of_mem_levelPairs hpl
    have hlcomposite' := isComposite_of_mem_levelPairs hql'
    exact ⟨(concreteChannel_iff hcomposite).mpr
        ⟨hs, l, hl, hlcomposite, ((hwired l hl hlcomposite).channels hpl).1⟩,
      (concreteChannel_iff hcomposite).mpr
        ⟨hr, l', hl', hlcomposite', ((hwired l' hl' hlcomposite').channels hql').2⟩⟩
  have hreceives : ∀ c, ConcreteReceive flow.root c → (flat.map Prod.snd).count c = 1 := by
    intro c hc
    obtain ⟨hconcrete, l, hl, hlcomposite, hreceive⟩ := (concreteChannel_iff hcomposite).mp hc
    rw [hext.count c hconcrete, (hconnections.map Prod.snd).count_eq, List.map_nil,
      List.count_nil, Nat.zero_add]
    exact count_allPairs hwired hl (hwired l hl hlcomposite) hreceive
  have haddress : ∀ {own inner : Direction} {c : AudioChannel},
      ConcreteChannel own inner flow.root c →
      c.port.address ∈ (flow.root.preorder.flatMap Component.audioPorts).map (·.address) := by
    rintro own inner c ⟨-, ⟨hown, -⟩ | ⟨atom, hatom, -, hown, -⟩⟩
    · exact List.mem_map_of_mem (List.mem_flatMap.mpr ⟨_, flow.root.mem_preorder_self, hown⟩)
    · exact List.mem_map_of_mem (List.mem_flatMap.mpr ⟨atom, hatom, hown⟩)
  refine ⟨⟨?_, ?_, ?_, ?_, ?_, ?_, ?_⟩, hmem, fun c => ?_, fun c => ?_⟩
  · exact fun e he => (hends he).1.1
  · exact fun e he => (hends he).2.1
  · intro e he ch hch
    exact hreceives ⟨e.2.port, ch⟩ ⟨hch, (hends he).2.2⟩
  · exact fun e he => htypes.feeds ((hmem e.1 e.2).mp he).2.2
  · exact fun e he e' he' => ConcreteSend.port_ne hcomposite (hends he).1 (hends he').2
  · exact fun e he => haddress (hends he).1
  · exact fun e he => haddress (hends he).2
  · constructor
    · rintro ⟨r, hr⟩
      exact (hends hr).1
    · intro hc
      obtain ⟨r, hr, hvia⟩ := exists_feeds hcomposite hwired hc
      exact ⟨r, (hmem c r).mpr ⟨((concreteChannel_iff hcomposite).mp hc).1, hr, hvia⟩⟩
  · constructor
    · rintro ⟨s, hs⟩
      exact (hends hs).2
    · intro hc
      have hpos : 0 < (flat.map Prod.snd).count c := by
        rw [hreceives c hc]
        exact Nat.one_pos
      obtain ⟨⟨s, c'⟩, he, rfl⟩ := List.mem_map.mp (List.count_pos_iff.mp hpos)
      exact ⟨s, he⟩

end Concrete

/-! ### A flow that exchanges two channels -/

/-- A flow that exchanges two channels. -/
def swapRef : ComponentRef := ⟨10, "flow", "flow", true, true⟩

def mixRef : ComponentRef := ⟨11, "mix", "flow:mix", false, false⟩

def swapIn : AudioPort := ⟨⟨1, "in", swapRef, .input⟩, .float, 2⟩

def swapOut : AudioPort := ⟨⟨2, "out", swapRef, .output⟩, .float, 1⟩

def mixIn : AudioPort := ⟨⟨3, "in", mixRef, .input⟩, .float, 2⟩

def mixOut : AudioPort := ⟨⟨4, "out", mixRef, .output⟩, .float, 1⟩

/-- A component that gets two channels in the other order, which takes a routing component. -/
def swapFlow : Flow where
  root := .composite swapRef [swapIn, swapOut] [] [.atomic mixRef [mixIn, mixOut] []]
    [⟨swapIn, [0, 1], mixIn, [1, 0]⟩, ⟨mixOut, [0], swapOut, [0]⟩] []
  wellFormed := by constructor <;> decide

/-- Its connections, which have no hierarchy. -/
def swapConnections : AudioConnectionMap :=
  [(⟨swapIn, 0⟩, ⟨mixIn, 1⟩), (⟨swapIn, 1⟩, ⟨mixIn, 0⟩), (⟨mixOut, 0⟩, ⟨swapOut, 0⟩)]

theorem ofComponent_swap : AudioConnectionMap.ofComponent swapFlow.root = .ok swapConnections := by
  decide

theorem resolve_swap : swapConnections.resolvePlaceholders = .ok swapConnections := by decide

theorem sameSampleTypes_swap : SameSampleTypes swapFlow.root := by
  unfold SameSampleTypes
  decide

theorem checked_swap : (checkAudioConnectionIntegrity swapFlow.root).result = true := by decide

end Visr
