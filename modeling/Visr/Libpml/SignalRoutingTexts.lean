import Visr.Library.GrammarTexts
import Visr.Libpml.SignalRoutingParameter

/-!
# Signal routings as texts

A signal routing is given by a text with pairs of an input and an output, which are separated by
commas or white space according to a comment.  The parser skips white space before each part of
its grammar, and thus also before a separator, so that it never finds white space as a separator.

## Main results

* `SignalRoutingParameter.separator_eq` — the only separator that is found is a comma.
* `SignalRoutingParameter.parse_eq` — nothing is left of pairs that are not complete.
* `SignalRoutingParameter.list_eq_some_iff` — what is accepted.
* `SignalRoutingParameter.routingText_unique` — a text stands for one list of pairs at most.
* `SignalRoutingParameter.hasRoutings_ofEntries` — pairs are added in order.
* `SignalRoutingParameter.parsesAsDocumented_iff` — **the texts that are parsed as documented**.
-/

namespace Visr

open Grammar

/-! ### The texts -/

/-- `x=y`, with white space around the numbers. -/
def PairText (t : List Char) (e : SignalRoutingEntry) : Prop :=
  ∃ t₁ t₂, TokenText (UnsignedText 32) t₁ e.input ∧ TokenText (UnsignedText 32) t₂ e.output ∧
    t = t₁ ++ '=' :: t₂

/-- A comma or white space. -/
def IsSeparator (u : List Char) : Prop := u = [','] ∨ ∃ c, isSpace c = true ∧ u = [c]

/-- A sequence of pairs, "where the pairs are separated by whitespace or a comma". -/
def RoutingText : List Char → List SignalRoutingEntry → Prop := SeparatedText PairText IsSeparator

/-- A sequence of pairs that are separated by commas. -/
def CommaText : List Char → List SignalRoutingEntry → Prop := ListText PairText ','

theorem padded_pairText : Padded PairText where
  left := by
    rintro w _ e hw ⟨t₁, t₂, h₁, h₂, rfl⟩
    exact ⟨w ++ t₁, t₂, (padded_tokenText _).left hw h₁, h₂, (List.append_assoc _ _ _).symm⟩
  right := by
    rintro w _ e ⟨t₁, t₂, h₁, h₂, rfl⟩ hw
    exact ⟨t₁, t₂ ++ w, h₁, (padded_tokenText _).right h₂ hw, by simp⟩

namespace SignalRoutingParameter

/-! ### The parser -/

/-- `ParseState`.  The index is set before it is used. -/
structure ParseState where
  mInIdx : ℕ
  retValue : SignalRoutingParameter

namespace ParseState

def setInIdx (s : ParseState) (inIdx : ℕ) : ParseState := { s with mInIdx := inIdx }

def setOutIdx (s : ParseState) (outIdx : ℕ) : ParseState :=
  { s with retValue := s.retValue.addRouting { input := s.mInIdx, output := outIdx } }

end ParseState

/-- `qi::uint_`. -/
def uint_ : Parser ℕ := token (unsigned 32)

/-- `qi::blank`: a blank or a tab. -/
def blank : Parser Unit := token fun s =>
  match s with
  | [] => none
  | c :: s => if c = ' ' ∨ c = '\t' then some ((), s) else none

/-- `',' | qi::blank`. -/
def separator : Parser Unit := fun s => (char ',' s).or (blank s)

/-- A pair with its actions, which also take place if the rest of the pair is not there. -/
def parsePair (s : ParseState) (text : List Char) : ParseState × Option (List Char) :=
  match uint_ text with
  | none => (s, none)
  | some (inIdx, text) =>
    let s := s.setInIdx inIdx
    match char '=' text with
    | none => (s, none)
    | some (_, text) =>
      match uint_ text with
      | none => (s, none)
      | some (outIdx, text) => (s.setOutIdx outIdx, some text)

/-- Further pairs, each after a separator.  A separator without a pair is left. -/
def parseFurther : ℕ → ParseState → List Char → ParseState × List Char
  | 0, s, text => (s, text)
  | n + 1, s, text =>
    match separator text with
    | none => (s, text)
    | some (_, text') =>
      match parsePair s text' with
      | (s', none) => (s', text)
      | (s', some text'') => parseFurther n s' text''

/-- The result, and the routing after the call. -/
def parse (p : SignalRoutingParameter) (encoded : String) : Bool × SignalRoutingParameter :=
  match parsePair { mInIdx := 0, retValue := create } encoded.toList with
  | (_, none) => (false, p)
  | (s, some text) =>
    let r := parseFurther text.length s text
    if r.2 ≠ [] then (false, p) else (true, r.1.retValue)

/-! ### The parser without its state -/

/-- A pair. -/
def pair : Parser SignalRoutingEntry := fun text =>
  match uint_ text with
  | none => none
  | some (inIdx, text) =>
    match char '=' text with
    | none => none
    | some (_, text) =>
      match uint_ text with
      | none => none
      | some (outIdx, text) => some ({ input := inIdx, output := outIdx }, text)

/-- White space is not there any more when a blank is looked for. -/
theorem blank_eq_none (s : List Char) : blank s = none := by
  unfold blank token
  cases hs : skip s with
  | nil => rfl
  | cons c s' =>
    have hspace : ¬(c = ' ' ∨ c = '\t') := by
      intro h
      have hc : isSpace c = true := by rcases h with rfl | rfl <;> rfl
      -- What remains after white space has been skipped would be shorter than itself.
      have hskip : skip s' = c :: s' := by rw [← skip_cons_space hc, ← hs, skip_skip]
      have hle : (skip s').length ≤ s'.length := (List.dropWhile_suffix _).length_le
      rw [hskip, List.length_cons] at hle
      omega
    simp [hspace]

/-- **The only separator that is found is a comma.** -/
theorem separator_eq : separator = char ',' := by
  funext s
  unfold separator
  rw [blank_eq_none, Option.or_none]

/-- A pair is added to the routings when it is complete. -/
theorem parsePair_eq (s : ParseState) (text : List Char) :
    ∃ inIdx, parsePair s text =
      match pair text with
      | none => ({ s with mInIdx := inIdx }, none)
      | some (e, text) =>
        ({ mInIdx := inIdx, retValue := s.retValue.addRouting e }, some text) := by
  unfold parsePair pair
  cases uint_ text with
  | none => exact ⟨s.mInIdx, rfl⟩
  | some r =>
    obtain ⟨inIdx, text⟩ := r
    dsimp only
    refine ⟨inIdx, ?_⟩
    cases char '=' text with
    | none => rfl
    | some r =>
      obtain ⟨_, text⟩ := r
      dsimp only
      cases uint_ text <;> rfl

/-- The routing of a list of pairs, where later pairs replace earlier ones with their output. -/
def ofEntries (entries : List SignalRoutingEntry) : SignalRoutingParameter :=
  entries.foldl addRouting create

theorem parseFurther_eq (n : ℕ) (s : ParseState) (text : List Char) :
    (parseFurther n s text).1.retValue = (further pair ',' n text).1.foldl addRouting s.retValue ∧
      (parseFurther n s text).2 = (further pair ',' n text).2 := by
  induction n generalizing s text with
  | zero => exact ⟨rfl, rfl⟩
  | succ n ih =>
    unfold parseFurther further
    rw [separator_eq]
    cases char ',' text with
    | none => exact ⟨rfl, rfl⟩
    | some r =>
      obtain ⟨_, text'⟩ := r
      dsimp only
      obtain ⟨inIdx, hpair⟩ := parsePair_eq s text'
      rw [hpair]
      cases pair text' with
      | none => exact ⟨rfl, rfl⟩
      | some r =>
        obtain ⟨e, text''⟩ := r
        exact ih _ text''

/-- **Nothing is left of pairs that are not complete**, and of texts that are not accepted. -/
theorem parse_eq (p : SignalRoutingParameter) (encoded : String) :
    p.parse encoded =
      match list pair ',' encoded.toList with
      | some (entries, []) => (true, ofEntries entries)
      | _ => (false, p) := by
  unfold parse list
  obtain ⟨inIdx, hpair⟩ := parsePair_eq { mInIdx := 0, retValue := create } encoded.toList
  rw [hpair]
  cases pair encoded.toList with
  | none => rfl
  | some r =>
    obtain ⟨e, text⟩ := r
    dsimp only [Option.map_some]
    obtain ⟨hvalue, hrest⟩ := parseFurther_eq text.length
      { mInIdx := inIdx, retValue := create.addRouting e } text
    rw [hvalue, hrest]
    cases (further pair ',' text.length text).2 with
    | nil => exact if_neg (not_not_intro rfl)
    | cons c text' => exact if_pos (List.cons_ne_nil c text')

/-! ### What is accepted -/

theorem pair_skip (s : List Char) : pair (skip s) = pair s := by
  unfold pair uint_
  rw [token_skip]

theorem pair_sound : Sound pair PairText := by
  intro s e rest hread
  unfold pair at hread
  cases hin : uint_ s with
  | none => rw [hin] at hread; cases hread
  | some r =>
    obtain ⟨inIdx, s₁⟩ := r
    simp only [hin] at hread
    cases heq : char '=' s₁ with
    | none => rw [heq] at hread; cases hread
    | some r =>
      obtain ⟨_, s₂⟩ := r
      simp only [heq] at hread
      cases hout : uint_ s₂ with
      | none => rw [hout] at hread; cases hread
      | some r =>
        obtain ⟨outIdx, s₃⟩ := r
        simp only [hout] at hread
        cases hread
        obtain ⟨t₁, rfl, h₁⟩ := token_sound (unsigned_sound 32) _ _ _ hin
        obtain ⟨_, rfl, w, _, w', hw, rfl, hw', rfl⟩ := char_sound '=' _ _ _ heq
        obtain ⟨t₂, rfl, h₂⟩ := token_sound (unsigned_sound 32) _ _ _ hout
        -- The white space around the sign goes to the numbers.
        refine ⟨t₁ ++ w ++ '=' :: (w' ++ t₂), by simp, t₁ ++ w, w' ++ t₂, ?_, ?_, rfl⟩
        · exact (padded_tokenText _).right h₁ hw
        · exact (padded_tokenText _).left hw' h₂

/-- The characters that may follow a number. -/
def IsNoDigit (c : Char) : Prop := c.isDigit = false

theorem isNoDigit_of_isSpace {c : Char} (hc : isSpace c = true) : IsNoDigit c := by
  unfold IsNoDigit
  by_contra hdigit
  rw [Bool.not_eq_false] at hdigit
  rw [not_isSpace_of_isDigit hdigit] at hc
  cases hc

theorem uint_complete : CompleteToken uint_ (TokenText (UnsignedText 32)) IsNoDigit := by
  apply token_complete (unsigned_complete 32)
  · intro t n h
    exact startsVisible_of_digitsText h.1
  · intro c hc
    exact isNoDigit_of_isSpace hc

theorem pair_complete : CompleteToken pair PairText IsNoDigit := by
  rintro _ e rest ⟨t₁, t₂, h₁, h₂, rfl⟩ hrest
  have hin := uint_complete t₁ e.input ('=' :: (t₂ ++ rest)) h₁ (by simp [IsNoDigit])
  have hout := uint_complete t₂ e.output rest h₂ hrest
  unfold pair
  rw [List.append_assoc, List.cons_append, hin]
  dsimp only
  rw [skip_cons_of_not rfl, char_cons rfl]
  dsimp only
  rw [show uint_ (skip (t₂ ++ rest)) = uint_ (t₂ ++ rest) from token_skip _ _, hout]

/-- **A text is accepted if it is a sequence of pairs with commas**, and not otherwise. -/
theorem list_eq_some_iff (text : List Char) (entries : List SignalRoutingEntry) :
    list pair ',' text = some (entries, []) ↔ CommaText text entries := by
  constructor
  · intro hread
    obtain ⟨t, ht, hlist⟩ := list_sound pair_sound padded_pairText _ _ _ hread
    rw [List.append_nil] at ht
    rwa [ht]
  · intro h
    exact list_complete pair_complete pair_skip rfl (by rfl : IsNoDigit ',') h

/-! ### What should be accepted -/

/-- The pairs of a text in their order, whatever the separators are. -/
def pairsOf : ℕ → List Char → List SignalRoutingEntry
  | 0, _ => []
  | n + 1, text =>
    match pair text with
    | none => []
    | some (e, text) =>
      match char ',' text with
      | none => e :: pairsOf n text
      | some (_, text) => e :: pairsOf n text

theorem pairsOf_skip (n : ℕ) (text : List Char) : pairsOf n (skip text) = pairsOf n text := by
  cases n with
  | zero => rfl
  | succ n => rw [pairsOf, pairsOf, pair_skip]

theorem pairsOf_nil (n : ℕ) : pairsOf n [] = [] := by
  cases n <;> rfl

/-- A pair starts with its input. -/
theorem isDigit_of_pairText {t : List Char} {e : SignalRoutingEntry} (h : PairText t e)
    (rest : List Char) : ∃ c s, skip (t ++ rest) = c :: s ∧ c.isDigit = true := by
  obtain ⟨_, t₂, ⟨w, t, w', hw, ⟨⟨hne, hdigits, -⟩, -⟩, -, rfl⟩, -, rfl⟩ := h
  cases t with
  | nil => exact absurd rfl hne
  | cons c t =>
    have hc : c.isDigit = true := hdigits c List.mem_cons_self
    refine ⟨c, t ++ (w' ++ ('=' :: (t₂ ++ rest))), ?_, hc⟩
    simp only [List.append_assoc, List.cons_append]
    rw [skip_append_of_blank hw, skip_cons_of_not (not_isSpace_of_isDigit hc)]

theorem isDigit_of_routingText {text : List Char} {entries : List SignalRoutingEntry}
    (h : RoutingText text entries) : ∃ c s, skip text = c :: s ∧ c.isDigit = true := by
  cases h with
  | @single _ e h =>
    obtain ⟨c, s, hskip, hc⟩ := isDigit_of_pairText h []
    exact ⟨c, s, by rwa [List.append_nil] at hskip, hc⟩
  | cons h _ _ => exact isDigit_of_pairText h _

theorem pairsOf_of_routingText {text : List Char} {entries : List SignalRoutingEntry}
    (h : RoutingText text entries) {n : ℕ} (hn : entries.length ≤ n) :
    pairsOf n text = entries := by
  induction h generalizing n with
  | @single t e h =>
    obtain ⟨n, rfl⟩ := Nat.exists_eq_add_of_le' hn
    have hread := pair_complete t e [] h nofun
    rw [List.append_nil] at hread
    simp [pairsOf, hread, pairsOf_nil]
  | @cons t e u ts es h hu hs ih =>
    rw [List.length_cons] at hn
    cases n with
    | zero => omega
    | succ n =>
      have hn' : es.length ≤ n := Nat.le_of_succ_le_succ hn
      rcases hu with rfl | ⟨c, hc, rfl⟩
      -- After a comma.
      · have hread := pair_complete t e (',' :: ts) h (by simp [IsNoDigit])
        rw [skip_cons_of_not rfl] at hread
        rw [pairsOf, List.singleton_append, hread]
        simp [char_cons (c := ',') rfl, pairsOf_skip, ih hn']
      -- After white space the next pair starts, and there is no comma.
      · have hread := pair_complete t e (c :: ts) h (by simp [isNoDigit_of_isSpace hc])
        rw [skip_cons_space hc] at hread
        have hcomma : char ',' (skip ts) = none := by
          apply char_eq_none
          obtain ⟨d, s, hskip, hd⟩ := isDigit_of_routingText hs
          rw [skip_skip, hskip]
          rintro _ ⟨⟩ rfl
          cases hd
        rw [pairsOf, List.singleton_append, hread]
        simp [hcomma, pairsOf_skip, ih hn']

/-- **A text stands for one list of pairs at most**, although there are two kinds of separators. -/
theorem routingText_unique {text : List Char} {entries entries' : List SignalRoutingEntry}
    (h : RoutingText text entries) (h' : RoutingText text entries') : entries = entries' :=
  calc entries = pairsOf (entries.length + entries'.length) text :=
        (pairsOf_of_routingText h (Nat.le_add_right _ _)).symm
    _ = entries' := pairsOf_of_routingText h' (Nat.le_add_left _ _)

theorem routingText_of_commaText {text : List Char} {entries : List SignalRoutingEntry}
    (h : CommaText text entries) : RoutingText text entries :=
  separatedText_of_listText (Or.inl rfl) h

/-- The last pair of a list for its output. -/
def IsLastFor (entries : List SignalRoutingEntry) (e : SignalRoutingEntry) : Prop :=
  ∃ before after, entries = before ++ e :: after ∧ ∀ e' ∈ after, e'.output ≠ e.output

theorem isLastFor_append_singleton (entries : List SignalRoutingEntry) (e e' : SignalRoutingEntry) :
    IsLastFor (entries ++ [e']) e ↔ e = e' ∨ IsLastFor entries e ∧ e.output ≠ e'.output := by
  constructor
  · rintro ⟨before, after, hsplit, hafter⟩
    rcases List.eq_nil_or_concat after with rfl | ⟨after, d, rfl⟩
    · obtain ⟨-, heq⟩ := List.append_inj' hsplit rfl
      exact Or.inl (List.singleton_inj.mp heq).symm
    · rw [List.concat_eq_append] at hsplit hafter
      rw [← List.cons_append, ← List.append_assoc] at hsplit
      obtain ⟨hentries, heq⟩ := List.append_inj' hsplit rfl
      obtain rfl := List.singleton_inj.mp heq
      refine Or.inr ⟨⟨before, after, hentries, ?_⟩, ?_⟩
      · intro d hd
        exact hafter d (List.mem_append_left _ hd)
      · exact (hafter _ (List.mem_append_right _ List.mem_cons_self)).symm
  · rintro (rfl | ⟨⟨before, after, rfl, hafter⟩, hne⟩)
    · exact ⟨entries, [], rfl, List.forall_mem_nil _⟩
    · refine ⟨before, after ++ [e'], by simp, ?_⟩
      intro d hd
      rcases List.mem_append.mp hd with hd | hd
      · exact hafter d hd
      · rw [List.mem_singleton.mp hd]
        exact hne.symm

/-- The routings are those of the list, where a later pair with the same output replaces an
earlier one. -/
def HasRoutings (p : SignalRoutingParameter) (entries : List SignalRoutingEntry) : Prop :=
  ∀ e, e ∈ p.routings ↔ IsLastFor entries e

/-- **Pairs are added in order.** -/
theorem hasRoutings_ofEntries (entries : List SignalRoutingEntry) :
    (ofEntries entries).HasRoutings entries := by
  induction entries using List.reverseRecOn with
  | nil =>
    intro e
    refine iff_of_false (KeyedSet.not_mem_empty e) ?_
    rintro ⟨before, after, hsplit, -⟩
    simp at hsplit
  | append_singleton entries e' ih =>
    intro e
    have hlast : ofEntries (entries ++ [e']) = (ofEntries entries).addRouting e' := by
      simp [ofEntries]
    rw [hlast, routings_addRouting, KeyedSet.mem_put, ih e, isLastFor_append_singleton]

/-- A text is parsed as the comment says: a sequence of pairs replaces the routings, and any other
text is refused and leaves them as they are. -/
def ParsesAsDocumented (p : SignalRoutingParameter) (encoded : String) : Prop :=
  ((p.parse encoded).1 = true ↔ ∃ entries, RoutingText encoded.toList entries) ∧
    (∀ entries, RoutingText encoded.toList entries → (p.parse encoded).2.HasRoutings entries) ∧
    ((p.parse encoded).1 = false → (p.parse encoded).2 = p)

/-- What is parsed is a sequence of pairs with commas between them. -/
theorem parse_of_commaText (p : SignalRoutingParameter) {encoded : String}
    {entries : List SignalRoutingEntry} (h : CommaText encoded.toList entries) :
    p.parse encoded = (true, ofEntries entries) := by
  rw [parse_eq, (list_eq_some_iff _ _).mpr h]

theorem parse_of_not_commaText (p : SignalRoutingParameter) {encoded : String}
    (h : ¬∃ entries, CommaText encoded.toList entries) : p.parse encoded = (false, p) := by
  rw [parse_eq]
  split
  next entries hread => exact absurd ⟨entries, (list_eq_some_iff _ _).mp hread⟩ h
  next => rfl

/-- **A text is parsed as documented** unless it is a sequence of pairs in which white space alone
separates two of them. -/
theorem parsesAsDocumented_iff (p : SignalRoutingParameter) (encoded : String) :
    p.ParsesAsDocumented encoded ↔
      ∀ entries, RoutingText encoded.toList entries → CommaText encoded.toList entries := by
  by_cases hcomma : ∃ entries, CommaText encoded.toList entries
  · obtain ⟨entries, h⟩ := hcomma
    have hparse := p.parse_of_commaText h
    have hrouting := routingText_of_commaText h
    refine iff_of_true ⟨?_, ?_, ?_⟩ ?_
    · rw [hparse]
      exact iff_of_true rfl ⟨entries, hrouting⟩
    · intro entries' h'
      rw [hparse, routingText_unique h' hrouting]
      exact hasRoutings_ofEntries entries
    · rw [hparse]
      nofun
    · intro entries' h'
      rwa [routingText_unique h' hrouting]
  · have hparse := p.parse_of_not_commaText hcomma
    constructor
    · rintro ⟨haccepts, -, -⟩ entries h
      have haccepted := haccepts.mpr ⟨entries, h⟩
      rw [hparse] at haccepted
      cases haccepted
    · intro h
      -- a documented text would have commas, and the parser would have accepted it
      have hnone : ¬∃ entries, RoutingText encoded.toList entries := by
        rintro ⟨entries, hentries⟩
        exact hcomma ⟨entries, h entries hentries⟩
      refine ⟨?_, ?_, ?_⟩
      · rw [hparse]
        exact iff_of_false Bool.false_ne_true hnone
      · intro entries hentries
        exact absurd ⟨entries, hentries⟩ hnone
      · intro _
        rw [hparse]

/-- Two pairs with a blank between them are refused. -/
theorem parse_blank_separator : ¬create.ParsesAsDocumented "1=2 3=4" := by
  rintro ⟨haccepts, -, -⟩
  have hdigit {c : Char} {n : ℕ} (hc : c.isDigit = true) (hn : n = c.toNat - '0'.toNat)
      (hlt : n < 2 ^ 32) : TokenText (UnsignedText 32) [c] n := by
    have hvalue : n = Nat.ofDigitChars 10 [c] 0 := by simp [hn, Nat.ofDigitChars]
    have hdigits : DigitsText [c] n := ⟨List.cons_ne_nil _ _, by simpa using hc, hvalue⟩
    exact ⟨[], [c], [], blank_nil, ⟨hdigits, hlt⟩, blank_nil, rfl⟩
  have hfirst : PairText ['1', '=', '2'] { input := 1, output := 2 } :=
    ⟨['1'], ['2'], hdigit rfl rfl (by decide), hdigit rfl rfl (by decide), rfl⟩
  have hsecond : PairText ['3', '=', '4'] { input := 3, output := 4 } :=
    ⟨['3'], ['4'], hdigit rfl rfl (by decide), hdigit rfl rfl (by decide), rfl⟩
  have htext : RoutingText (['1', '=', '2'] ++ ([' '] ++ ['3', '=', '4'])) _ :=
    .cons hfirst (Or.inr ⟨' ', rfl, rfl⟩) (.single hsecond)
  have haccepted := haccepts.mpr ⟨_, htext⟩
  have hrefused : (create.parse "1=2 3=4").1 = false := by decide
  rw [hrefused] at haccepted
  cases haccepted

end SignalRoutingParameter

end Visr
