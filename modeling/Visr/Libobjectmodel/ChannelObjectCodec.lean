import Visr.Libobjectmodel.ObjectCodec

/-!
# What the parser of channel objects reads back

The labels of output channels are written to a text of their own, which is read by a grammar.

## Main results

* `ChannelObjectParser.parseOutputChannels_text` — **admitted labels are read back.**
* `ChannelObjectParser.parseOutputChannels_labels` — no other labels are read.
* `ChannelObjectParser.write_eq_ok_iff`, `ChannelObjectParser.parse_write` — which objects are written,
  and that they are read back.
-/

namespace Visr

open Grammar PropertyTree FloatArithmetic

variable {F : Type} [FloatArithmetic F] {env : Platform F}

namespace ChannelObjectParser

/-- The label is not empty and consists of letters, digits and some other characters. -/
def IsLabel (l : String) : Prop := l ≠ "" ∧ ∀ c ∈ l.toList, isLabelChar c = true

/-! ### Characters -/

theorem isSpace_of_isLabelChar {c : Char} (h : isLabelChar c = true) : isSpace c = false := by
  rcases hspace : isSpace c with _ | _
  · rfl
  · have hcases : c.toNat = 32 ∨ 9 ≤ c.toNat ∧ c.toNat ≤ 13 := by
      rw [isSpace, Bool.or_eq_true, decide_eq_true_eq, Bool.and_eq_true, decide_eq_true_eq,
        decide_eq_true_eq] at hspace
      rcases hspace with rfl | hrange
      · exact Or.inl rfl
      · exact Or.inr hrange
    have hlow : c.toNat ≤ 32 := by omega
    have hne : ∀ d : Char, 32 < d.toNat → c ≠ d := by
      rintro d hd rfl
      omega
    have hval : c.val.toNat ≤ 32 := hlow
    have halpha : c.isAlpha = (decide (c.val ≥ 'A'.val ∧ c.val ≤ 'Z'.val) ||
        decide (c.val ≥ 'a'.val) && decide (c.val ≤ 'z'.val)) := rfl
    simp only [isLabelChar, Char.isAlphanum, halpha, Char.isDigit, Bool.or_eq_true,
      Bool.and_eq_true, decide_eq_true_eq, UInt32.le_iff_toNat_le, ge_iff_le, hne '&' (by decide), hne '@' (by decide), hne '+' (by decide),
      hne '_' (by decide), hne '-' (by decide), or_false] at h
    rcases h with (h | h) | h <;> obtain ⟨hle, -⟩ := h
    · exact absurd (hle.trans hval) (by decide)
    · exact absurd (hle.trans hval) (by decide)
    · exact absurd (hle.trans hval) (by decide)

theorem labelChars_skip (s : List Char) : labelChars (skip s) = labelChars s := by
  induction s with
  | nil => rfl
  | cons c s ih =>
    rcases h : isSpace c with _ | _
    · rw [skip_cons_of_not h]
    · rw [skip_cons_space h, ih, labelChars, if_pos h]

/-- The label ends in front of another character. -/
theorem labelChars_stop {s : List Char} (h : ∀ c ∈ (skip s).head?, isLabelChar c = false) :
    labelChars s = ([], skip s) := by
  rw [← labelChars_skip]
  cases hs : skip s with
  | nil => rfl
  | cons c rest =>
    have hspace : isSpace c = false := by
      rcases hc : isSpace c with _ | _
      · rfl
      · have hskip : skip (c :: rest) = c :: rest := by rw [← hs, skip_skip]
        rw [skip_cons_space hc] at hskip
        have hlength := congrArg List.length hskip
        have hle : (skip rest).length ≤ rest.length := (List.dropWhile_sublist _).length_le
        rw [List.length_cons] at hlength
        omega
    have hlabel : isLabelChar c = false := h c (by rw [hs]; rfl)
    simp [labelChars, hspace, hlabel]

theorem labelChars_append {t : List Char} (ht : ∀ c ∈ t, isLabelChar c = true) {rest : List Char}
    (hrest : ∀ c ∈ (skip rest).head?, isLabelChar c = false) :
    labelChars (t ++ rest) = (t, skip rest) := by
  induction t with
  | nil => exact labelChars_stop hrest
  | cons c t ih =>
    obtain ⟨hc, ht⟩ := List.forall_mem_cons.mp ht
    rw [List.cons_append, labelChars, isSpace_of_isLabelChar hc, hc, ih ht]
    rfl

/-- All characters of a label are admitted. -/
theorem labelChars_result (s : List Char) : ∀ c ∈ (labelChars s).1, isLabelChar c = true := by
  induction s with
  | nil => exact List.forall_mem_nil _
  | cons c s ih =>
    rw [labelChars]
    split
    · exact ih
    · split
      next hc => exact List.forall_mem_cons.mpr ⟨hc, ih⟩
      · exact List.forall_mem_nil _

/-! ### Labels -/

theorem label_skip (s : List Char) : label (skip s) = label s := by
  rw [label, label, labelChars_skip]

theorem label_reads {stop : Char → Prop} (hstop : ∀ c, stop c → isLabelChar c = false)
    {l : String} (hl : IsLabel l) : Reads label stop l.toList l := by
  intro rest hrest
  have hchars := labelChars_append hl.2 fun c hc => hstop c (hrest c hc)
  have hne : l.toList ≠ [] := by
    rw [Ne, String.toList_eq_nil_iff]
    exact hl.1
  rw [label, hchars]
  simp only [if_neg hne, String.ofList_toList]

theorem label_eq_none {s : List Char} (h : ∀ c ∈ (skip s).head?, isLabelChar c = false) :
    label s = none := by
  rw [label, labelChars_stop h]
  rfl

theorem label_result {s : List Char} {r : String × List Char} (h : label s = some r) :
    IsLabel r.1 := by
  unfold label at h
  dsimp only at h
  split at h
  · cases h
  next hne =>
    cases h
    constructor
    · intro hempty
      have hlist : (String.ofList (labelChars s).1).toList = [] := congrArg String.toList hempty
      rw [String.toList_ofList] at hlist
      exact hne hlist
    · rw [String.toList_ofList]
      exact labelChars_result s

/-! ### Lists of labels -/

theorem outputChannel_skip (s : List Char) : outputChannel (skip s) = outputChannel s := by
  rw [outputChannel, outputChannel, label_skip, char, token_skip]

/-- A list of labels in brackets. -/
theorem outputChannel_brackets {labels : List String} {inner rest : List Char}
    (hinner : (list label ',' (skip (inner ++ ']' :: rest))).getD ([], skip (inner ++ ']' :: rest)) =
      (labels, ']' :: rest)) :
    outputChannel ('[' :: (inner ++ ']' :: rest)) = some (labels, skip rest) := by
  have hopening : isSpace '[' = false := by decide
  have hclosing : isSpace ']' = false := by decide
  have hnone : label ('[' :: (inner ++ ']' :: rest)) = none := by
    refine label_eq_none fun c hc => ?_
    rw [skip_cons_of_not hopening] at hc
    cases hc
    decide
  rw [outputChannel, hnone]
  simp only [char_cons hopening, Option.bind_some, hinner, char_cons hclosing, Option.map_some]

theorem isLabelChar_of_comma {c : Char} (h : c = ',' ∨ False) : isLabelChar c = false := by
  rw [h.resolve_right id]
  decide

theorem outputChannel_reads {labels : List String} (h : ∀ l ∈ labels, IsLabel l) :
    Reads outputChannel (fun c => c = ',' ∨ False) (outputChannelText labels).toList labels := by
  intro rest hrest
  have hclosing : isSpace ']' = false := by decide
  unfold outputChannelText
  split
  next =>
    show outputChannel ('[' :: ([] ++ ']' :: rest)) = _
    refine outputChannel_brackets ?_
    -- an empty list has no label before its bracket
    have hnone : label (']' :: rest) = none := by
      refine label_eq_none fun c hc => ?_
      rw [skip_cons_of_not hclosing] at hc
      cases hc
      decide
    rw [List.nil_append, skip_cons_of_not hclosing, list, hnone]
    rfl
  next l =>
    -- a single label has no brackets
    have hl := h l List.mem_cons_self
    have hread := label_reads (fun c => isLabelChar_of_comma) hl rest hrest
    rw [outputChannel, hread]
  next hnil hsingle =>
    have htext : ("[ " ++ commaText labels ++ " ]").toList ++ rest =
        '[' :: ((' ' :: (commaSeparated (labels.map String.toList) ++ [' '])) ++ ']' :: rest) := by
      simp only [String.toList_append, toList_commaText]
      show ('[' :: ' ' :: commaSeparated _) ++ [' ', ']'] ++ rest = _
      simp
    rw [htext]
    refine outputChannel_brackets ?_
    have hblank : isSpace ' ' = true := by decide
    have hlist := list_reads (p := label) (Q := fun c => c = ']') (t := String.toList)
      (v := id) label_skip (by decide) (fun heq => hnil heq)
      (fun l hl => label_reads (fun c hc => by rcases hc with rfl | rfl <;> decide) (h l hl))
      (' ' :: ']' :: rest) (fun c hc => by
        rw [skip_cons_space hblank, skip_cons_of_not hclosing] at hc
        exact (Option.some.inj hc).symm)
    rw [skip_cons_space hblank, skip_cons_of_not hclosing, List.map_id] at hlist
    have hinner : (' ' :: (commaSeparated (labels.map String.toList) ++ [' '])) ++ ']' :: rest =
        ' ' :: (commaSeparated (labels.map String.toList) ++ ' ' :: ']' :: rest) := by
      simp
    rw [hinner, skip_cons_space hblank, list_skip label_skip, hlist]
    rfl

/-- **All labels are admitted** in the lists that are read. -/
theorem parseOutputChannels_labels {text : String} {channels : List (List String)}
    (h : parseOutputChannels text = .ok channels) : ∀ labels ∈ channels, ∀ l ∈ labels, IsLabel l := by
  have hlist : ∀ s r, list label ',' s = some r → ∀ l ∈ r.1, IsLabel l := fun s r =>
    list_result fun _ _ => label_result
  have hchannel : ∀ s r, outputChannel s = some r → ∀ l ∈ r.1, IsLabel l := by
    intro s r hr
    unfold outputChannel at hr
    split at hr
    next r' hr' =>
      cases hr
      intro l hl
      rw [List.mem_singleton.mp hl]
      exact label_result hr'
    next =>
      obtain ⟨opening, -, hr⟩ := Option.bind_eq_some_iff.mp hr
      obtain ⟨closing, -, rfl⟩ := Option.map_eq_some_iff.mp hr
      cases hlabels : list label ',' opening.2 with
      | none => exact List.forall_mem_nil _
      | some labels => exact hlist _ labels hlabels
  unfold parseOutputChannels at h
  dsimp only at h
  split at h <;> cases h
  cases hstate : list outputChannel ',' text.toList with
  | none => exact List.forall_mem_nil _
  | some state => exact list_result (P := fun labels => ∀ l ∈ labels, IsLabel l) hchannel hstate

/-- **Lists of admitted labels are read back.** -/
theorem parseOutputChannels_text {channels : List (List String)} (hne : channels ≠ [])
    (h : ∀ labels ∈ channels, ∀ l ∈ labels, IsLabel l) :
    parseOutputChannels (commaText (channels.map outputChannelText)) = .ok channels := by
  have hread := list_reads (p := outputChannel) (Q := fun _ => False)
    (t := String.toList ∘ outputChannelText) (v := id) outputChannel_skip id hne
    (fun labels hlabels => outputChannel_reads (h labels hlabels)) [] (fun c hc => nomatch hc)
  rw [List.append_nil, List.map_id] at hread
  rw [parseOutputChannels, toList_commaText, List.map_map, hread]
  rfl

/-! ### Channel objects -/

/-- **Which objects are written, and how.** -/
theorem write_eq_ok_iff {type : ObjectTypeId} {chObj : ChannelObject F} {t tree : PropertyTree} :
    write env type chObj t = .ok tree ↔
      chObj.numberOfChannels = chObj.outputChannels.length ∧ chObj.outputChannels ≠ [] ∧
        tree = (writeDiffuseness env chObj.diffuseness
          (ObjectParser.write env type chObj.toObject t)).put ["outputChannels"]
            (commaText (chObj.outputChannels.map outputChannelText)) := by
  unfold write outputChannelsText
  by_cases hsize : chObj.numberOfChannels = chObj.outputChannels.length
  · rw [if_neg (not_not.mpr hsize)]
    by_cases hempty : chObj.outputChannels = []
    · rw [if_pos hempty]
      constructor
      · nofun
      · exact fun h => absurd hempty h.2.1
    · rw [if_neg hempty]
      constructor
      · intro h
        exact ⟨hsize, hempty, (Except.ok.inj h).symm⟩
      · rintro ⟨-, -, rfl⟩
        rfl
  · rw [if_pos hsize]
    constructor
    · nofun
    · exact fun h => absurd h.1 hsize

theorem agreeOn_writeDiffuseness (diffuseness : F) (tree : PropertyTree) :
    AgreeOn ("outputChannels" :: ObjectParser.attributes) (writeDiffuseness env diffuseness tree)
      tree := by
  unfold writeDiffuseness
  split
  · exact AgreeOn.put (by decide) [] _ _
  · exact AgreeOn.refl _ _

theorem agreeOn_write {type : ObjectTypeId} {chObj : ChannelObject F} {t tree : PropertyTree}
    (hwrite : write env type chObj t = .ok tree) :
    AgreeOn ObjectParser.attributes tree (ObjectParser.write env type chObj.toObject t) := by
  obtain ⟨-, -, rfl⟩ := write_eq_ok_iff.mp hwrite
  exact (AgreeOn.put (by decide) [] _ _).trans
    ((agreeOn_writeDiffuseness _ _).mono (List.subset_cons_self _ _))

theorem getDefault_writeDiffuseness (h : env.NumbersReadBack) (diffuseness : F)
    {tree : PropertyTree} (hnone : tree.find? "diffuseness" = none) :
    (writeDiffuseness env diffuseness tree).getDefault env.getFloat ["diffuseness"] 0 =
      diffuseness := by
  rw [getDefault, getOptional_singleton, writeDiffuseness]
  split
  next => simp [hnone, h.getFloat_putFloat]
  next heq =>
    rw [not_not] at heq
    simp [hnone, heq]

/-- **The attributes of a channel object are read back**, if it is written at all. -/
theorem parse_write (h : env.NumbersReadBack) (type : ObjectTypeId) {chObj : ChannelObject F}
    (hchannels : chObj.ChannelsReadable)
    (hlabels : ∀ labels ∈ chObj.outputChannels, ∀ l ∈ labels, IsLabel l) {tree : PropertyTree}
    (hwrite : write env type chObj new = .ok tree) {src : ChannelObject F}
    (hid : src.id = chObj.id) :
    parse env tree src = .ok { chObj with toObject := chObj.toObject.withoutSmallGains } := by
  have hobj := ObjectParser.parse_write h type hchannels hid
  rw [← ObjectParser.parse_congr (agreeOn_write hwrite)] at hobj
  obtain ⟨hsize, hne, rfl⟩ := write_eq_ok_iff.mp hwrite
  have hnone : ∀ key, key ∉ ObjectParser.attributes →
      (ObjectParser.write env type chObj.toObject new).find? key = none := fun key hkey =>
    ObjectParser.find?_write hkey type _ new
  have hagree : AgreeOn _ (writeDiffuseness env chObj.diffuseness
      (ObjectParser.write env type chObj.toObject new)) _ := agreeOn_writeDiffuseness _ _
  have hdiffuseness := getDefault_writeDiffuseness h chObj.diffuseness
    (hnone "diffuseness" (by decide))
  have htext : ((writeDiffuseness env chObj.diffuseness
      (ObjectParser.write env type chObj.toObject new)).put ["outputChannels"]
        (commaText (chObj.outputChannels.map outputChannelText))).get some ["outputChannels"] =
      .ok (commaText (chObj.outputChannels.map outputChannelText)) := by
    refine (get_put ?_).trans (convert_some _)
    rw [hagree.find? List.mem_cons_self]
    exact hnone _ (by decide)
  -- the labels are written after the diffuseness and leave it alone
  have hkey : ∀ text (t : PropertyTree),
      (t.put ["outputChannels"] text).getDefault env.getFloat ["diffuseness"] 0 =
        t.getDefault env.getFloat ["diffuseness"] 0 := by
    intro text t
    have hagree' : AgreeOn ["diffuseness"] (t.put ["outputChannels"] text) t :=
      AgreeOn.put (by decide) [] text t
    exact getDefault_congr (hagree' _ List.mem_cons_self) _ _
  have hnumber : ¬ chObj.outputChannels.length ≠
      chObj.toObject.withoutSmallGains.numberOfChannels := not_not.mpr hsize.symm
  rw [parse, hobj, ok_bind, hkey, hdiffuseness, htext, ok_bind, parseOutputChannels_text hne hlabels,
    ok_bind, if_neg hnumber]
  rfl

/-- The labels of parsed objects are admitted. -/
theorem parse_result {tree : PropertyTree} {src chObj : ChannelObject F}
    (hparse : parse env tree src = .ok chObj) :
    ObjectParser.parse env tree src.toObject = .ok chObj.toObject ∧
      ∀ labels ∈ chObj.outputChannels, ∀ l ∈ labels, IsLabel l := by
  obtain ⟨obj, hobj, hparse⟩ := exists_of_bind_ok (ok_of_mapError hparse)
  obtain ⟨text, htext, hparse⟩ := exists_of_bind_ok hparse
  obtain ⟨channels, hread, hparse⟩ := exists_of_bind_ok hparse
  split at hparse
  · cases hparse
  · cases hparse
    exact ⟨hobj, parseOutputChannels_labels hread⟩

end ChannelObjectParser

end Visr
