import Mathlib.Data.List.TakeWhile
import Visr.Library.Grammar

/-!
# The texts of a grammar

What the parsers of a grammar accept, as relations between texts and values that do not mention
the parsers.

## Main definitions

* `Blank`, `Padded` — white space, and relations that do not mind it around a text.
* `TokenText`, `ListText`, `SignedText` — the texts of a token, a list and a number.
* `SeparatedText` — the texts of a list whose separators are a language of their own.
* `Sound` — what a parser takes from a text is a text for its result.
* `Complete` — a text is read as what it stands for, if the next character may follow it.

## Main results

* `token_sound`, `list_sound`, `signed_sound` — **the parsers are sound**.
* `token_complete`, `list_complete`, `unsigned_complete` — **the parsers are complete**.
-/

namespace Grammar

variable {α : Type}

/-- White space only. -/
def Blank (s : List Char) : Prop := ∀ c ∈ s, isSpace c = true

@[simp] theorem blank_nil : Blank [] := List.forall_mem_nil _

theorem Blank.append {s s' : List Char} (h : Blank s) (h' : Blank s') : Blank (s ++ s') := by
  intro c hc
  rcases List.mem_append.mp hc with hc | hc
  · exact h c hc
  · exact h' c hc

/-- White space is skipped. -/
theorem exists_blank_skip (s : List Char) : ∃ w, Blank w ∧ s = w ++ skip s := by
  refine ⟨s.takeWhile isSpace, ?_, List.takeWhile_append_dropWhile.symm⟩
  intro c hc
  exact List.mem_takeWhile_imp hc

/-- White space around a text does not change what it means. -/
structure Padded (R : List Char → α → Prop) : Prop where
  left : ∀ {w t a}, Blank w → R t a → R (w ++ t) a
  right : ∀ {w t a}, R t a → Blank w → R (t ++ w) a

/-- A text with white space before and after it. -/
def TokenText (R : List Char → α → Prop) (t : List Char) (a : α) : Prop :=
  ∃ w t' w', Blank w ∧ R t' a ∧ Blank w' ∧ t = w ++ t' ++ w'

/-- Elements with separators between them. -/
inductive ListText (R : List Char → α → Prop) (sep : Char) : List Char → List α → Prop
  | single {t a} (h : R t a) : ListText R sep t [a]
  | cons {t a ts as} (h : R t a) (hs : ListText R sep ts as) :
      ListText R sep (t ++ sep :: ts) (a :: as)

/-- Decimal digits. -/
def DigitsText (t : List Char) (n : ℕ) : Prop :=
  t ≠ [] ∧ (∀ c ∈ t, c.isDigit = true) ∧ n = Nat.ofDigitChars 10 t 0

/-- An integer with an optional sign, of `bits` bits. -/
inductive SignedText (bits : ℕ) : List Char → ℤ → Prop
  | negative {t n} (h : DigitsText t n) (hn : n ≤ 2 ^ (bits - 1)) :
      SignedText bits ('-' :: t) (-(n : ℤ))
  | positive {t n} (h : DigitsText t n) (hn : n < 2 ^ (bits - 1)) : SignedText bits ('+' :: t) n
  | unsigned {t n} (h : DigitsText t n) (hn : n < 2 ^ (bits - 1)) : SignedText bits t n

/-- An integer without a sign, of `bits` bits. -/
def UnsignedText (bits : ℕ) (t : List Char) (n : ℕ) : Prop := DigitsText t n ∧ n < 2 ^ bits

/-- Elements with separators of a language between them. -/
inductive SeparatedText (R : List Char → α → Prop) (S : List Char → Prop) :
    List Char → List α → Prop
  | single {t a} (h : R t a) : SeparatedText R S t [a]
  | cons {t a u ts as} (h : R t a) (hu : S u) (hs : SeparatedText R S ts as) :
      SeparatedText R S (t ++ (u ++ ts)) (a :: as)

/-- The text of an integer with white space around it. -/
def IntText (bits : ℕ) : List Char → ℤ → Prop := TokenText (SignedText bits)

theorem padded_tokenText (R : List Char → α → Prop) : Padded (TokenText R) where
  left := by
    rintro w _ a hw ⟨w₁, t, w₂, hw₁, ht, hw₂, rfl⟩
    exact ⟨w ++ w₁, t, w₂, hw.append hw₁, ht, hw₂, by simp⟩
  right := by
    rintro w _ a ⟨w₁, t, w₂, hw₁, ht, hw₂, rfl⟩ hw
    exact ⟨w₁, t, w₂ ++ w, hw₁, ht, hw₂.append hw, by simp⟩

theorem padded_listText {R : List Char → α → Prop} (hR : Padded R) (sep : Char) :
    Padded (ListText R sep) where
  left := by
    intro w t as hw h
    cases h with
    | single h => exact .single (hR.left hw h)
    | cons h hs =>
      rw [← List.append_assoc]
      exact .cons (hR.left hw h) hs
  right := by
    intro w t as h hw
    induction h with
    | single h => exact .single (hR.right h hw)
    | cons h hs ih =>
      rw [List.append_assoc, List.cons_append]
      exact .cons h ih

/-! ### Soundness -/

/-- What a parser takes from a text is a text for its result. -/
def Sound (p : Parser α) (R : List Char → α → Prop) : Prop :=
  ∀ s a rest, p s = some (a, rest) → ∃ t, s = t ++ rest ∧ R t a

theorem token_sound {p : Parser α} {R : List Char → α → Prop} (h : Sound p R) :
    Sound (token p) (TokenText R) := by
  intro s a rest hread
  obtain ⟨⟨a', rest'⟩, hp, heq⟩ := Option.map_eq_some_iff.mp hread
  cases heq
  obtain ⟨t, hs, ht⟩ := h _ _ _ hp
  obtain ⟨w, hw, hskip⟩ := exists_blank_skip s
  obtain ⟨w', hw', hrest⟩ := exists_blank_skip rest'
  refine ⟨w ++ t ++ w', ?_, w, t, w', hw, ht, hw', rfl⟩
  calc s = w ++ (t ++ rest') := by rw [← hs, ← hskip]
    _ = w ++ (t ++ (w' ++ skip rest')) := by rw [← hrest]
    _ = w ++ t ++ w' ++ skip rest' := by simp

/-- A separator with white space around it. -/
theorem char_sound (c : Char) : Sound (char c) (TokenText fun t _ => t = [c]) := by
  apply token_sound
  intro s a rest hread
  cases s with
  | nil => cases hread
  | cons d s =>
    dsimp only at hread
    split at hread
    next hd =>
      cases hread
      exact ⟨[d], rfl, by rw [hd]⟩
    next => cases hread

section Lists

variable {p : Parser α} {R : List Char → α → Prop} {sep : Char}

/-- The further elements of a list are a text of their own after a separator. -/
theorem further_sound (hp : Sound p R) (hR : Padded R) (sep : Char) (n : ℕ) (s : List Char) :
    ((further p sep n s).1 = [] ∧ (further p sep n s).2 = s) ∨
      ∃ w t, Blank w ∧ s = w ++ sep :: t ++ (further p sep n s).2 ∧
        ListText R sep t (further p sep n s).1 := by
  induction n generalizing s with
  | zero => exact Or.inl ⟨rfl, rfl⟩
  | succ n ih =>
    unfold further
    split
    · exact Or.inl ⟨rfl, rfl⟩
    next s' hsep =>
      split
      · exact Or.inl ⟨rfl, rfl⟩
      next a s'' hread =>
        obtain ⟨_, hs, w, _, w', hw, rfl, hw', rfl⟩ := char_sound sep s () s' hsep
        obtain ⟨t, ht, hR'⟩ := hp _ _ _ hread
        refine Or.inr ⟨w, ?_⟩
        -- the separator, the element, and the further ones, if there are any
        have hfurther := ih s''
        dsimp only
        generalize further p sep n s'' = r at hfurther ⊢
        rcases hfurther with ⟨hnone, hrest⟩ | ⟨w₁, t₁, hw₁, hs₁, hlist⟩
        · rw [hnone, hrest]
          refine ⟨w' ++ t, hw, ?_, .single (hR.left hw' hR')⟩
          rw [hs, ht]
          simp
        · refine ⟨w' ++ t ++ w₁ ++ sep :: t₁, hw, ?_, .cons (hR.right (hR.left hw' hR') hw₁) hlist⟩
          rw [hs, ht, hs₁]
          simp

theorem list_sound (hp : Sound p R) (hR : Padded R) : Sound (list p sep) (ListText R sep) := by
  intro s as rest hread
  obtain ⟨⟨a, s'⟩, hfirst, heq⟩ := Option.map_eq_some_iff.mp hread
  obtain ⟨t, ht, hR'⟩ := hp _ _ _ hfirst
  cases heq
  rcases further_sound hp hR sep s'.length s' with ⟨hnone, hrest⟩ | ⟨w, t', hw, hs', hlist⟩
  · dsimp only
    rw [hnone, hrest]
    exact ⟨t, ht, .single hR'⟩
  · refine ⟨t ++ w ++ sep :: t', ?_, .cons (hR.right hR' hw) hlist⟩
    dsimp only at hs' ⊢
    rw [ht]
    nth_rewrite 1 [hs']
    simp

end Lists

theorem digits_sound : Sound digits DigitsText := by
  intro s n rest hread
  unfold digits at hread
  dsimp only at hread
  split at hread
  · cases hread
  next hne =>
    cases hread
    refine ⟨s.takeWhile Char.isDigit, List.takeWhile_append_dropWhile.symm, hne, ?_, rfl⟩
    intro c hc
    exact List.mem_takeWhile_imp hc

theorem signed_sound (bits : ℕ) : Sound (signed bits) (SignedText bits) := by
  intro s a rest hread
  unfold signed at hread
  split at hread
  next s =>
    obtain ⟨⟨n, s'⟩, hdigits, hn⟩ := Option.bind_eq_some_iff.mp hread
    split at hn <;> cases hn
    next hle =>
      obtain ⟨t, rfl, ht⟩ := digits_sound _ _ _ hdigits
      exact ⟨'-' :: t, rfl, .negative ht hle⟩
  next s =>
    obtain ⟨⟨n, s'⟩, hdigits, hn⟩ := Option.bind_eq_some_iff.mp hread
    split at hn <;> cases hn
    next hlt =>
      obtain ⟨t, rfl, ht⟩ := digits_sound _ _ _ hdigits
      exact ⟨'+' :: t, rfl, .positive ht hlt⟩
  next s _ _ =>
    obtain ⟨⟨n, s'⟩, hdigits, hn⟩ := Option.bind_eq_some_iff.mp hread
    split at hn <;> cases hn
    next hlt =>
      obtain ⟨t, rfl, ht⟩ := digits_sound _ _ _ hdigits
      exact ⟨t, rfl, .unsigned ht hlt⟩

/-- **Integers are read as they are written.** -/
theorem int_sound (bits : ℕ) : Sound (int bits) (IntText bits) := token_sound (signed_sound bits)

/-- An integer without a sign.  Any other one is not matched. -/
def unsigned (bits : ℕ) : Parser ℕ := fun s =>
  (digits s).bind fun r => if r.1 < 2 ^ bits then some r else none

theorem unsigned_sound (bits : ℕ) : Sound (unsigned bits) (UnsignedText bits) := by
  intro s n rest hread
  obtain ⟨⟨n', s'⟩, hdigits, hn⟩ := Option.bind_eq_some_iff.mp hread
  split at hn <;> cases hn
  next hlt =>
    obtain ⟨t, hs, ht⟩ := digits_sound _ _ _ hdigits
    exact ⟨t, hs, ht, hlt⟩

/-! ### Completeness -/

/-- A text is read as what it stands for, if the next character may follow it. -/
def Complete (p : Parser α) (R : List Char → α → Prop) (follow : Char → Prop) : Prop :=
  ∀ t a rest, R t a → (∀ c ∈ rest.head?, follow c) → p (t ++ rest) = some (a, rest)

/-- The same for a token, whose parser also takes the white space after it. -/
def CompleteToken (p : Parser α) (R : List Char → α → Prop) (follow : Char → Prop) : Prop :=
  ∀ t a rest, R t a → (∀ c ∈ rest.head?, follow c) → p (t ++ rest) = some (a, skip rest)

theorem skip_append_of_blank {w : List Char} (hw : Blank w) (s : List Char) :
    skip (w ++ s) = skip s := by
  induction w with
  | nil => rfl
  | cons c w ih =>
    obtain ⟨hc, hw⟩ := List.forall_mem_cons.mp hw
    rw [List.cons_append, skip_cons_space hc, ih hw]

/-- A text that does not start with white space. -/
def StartsVisible (t : List Char) : Prop := ∃ c s, t = c :: s ∧ isSpace c = false

theorem StartsVisible.skip_append {t : List Char} (h : StartsVisible t) (s : List Char) :
    skip (t ++ s) = t ++ s := by
  obtain ⟨c, s', rfl, hc⟩ := h
  exact skip_cons_of_not hc _

/-- **A token is read** with white space around it. -/
theorem token_complete {p : Parser α} {R : List Char → α → Prop} {follow : Char → Prop}
    (h : Complete p R follow) (hvisible : ∀ t a, R t a → StartsVisible t)
    (hspace : ∀ c, isSpace c = true → follow c) :
    CompleteToken (token p) (TokenText R) follow := by
  rintro _ a rest ⟨w, t, w', hw, ht, hw', rfl⟩ hrest
  have hfollow : ∀ c ∈ (w' ++ rest).head?, follow c := by
    cases w' with
    | nil => exact hrest
    | cons c w' =>
      intro d hd
      cases hd
      exact hspace c (hw' c List.mem_cons_self)
  unfold token
  rw [List.append_assoc, List.append_assoc, skip_append_of_blank hw,
    (hvisible t a ht).skip_append, h t a _ ht hfollow, Option.map_some,
    skip_append_of_blank hw']

theorem startsVisible_of_digitsText {t : List Char} {n : ℕ} (h : DigitsText t n) :
    StartsVisible t := by
  obtain ⟨hne, hdigits, -⟩ := h
  cases t with
  | nil => exact absurd rfl hne
  | cons c t => exact ⟨c, t, rfl, not_isSpace_of_isDigit (hdigits c List.mem_cons_self)⟩

theorem digits_complete : Complete digits DigitsText fun c => c.isDigit = false := by
  rintro t n rest ⟨hne, hdigits, rfl⟩ hrest
  have hstop : rest.takeWhile Char.isDigit = [] ∧ rest.dropWhile Char.isDigit = rest := by
    cases rest with
    | nil => exact ⟨rfl, rfl⟩
    | cons c rest =>
      have hc : c.isDigit = false := hrest c rfl
      exact ⟨by rw [List.takeWhile_cons, hc]; rfl, by rw [List.dropWhile_cons, hc]; rfl⟩
  unfold digits
  rw [List.takeWhile_append_of_pos hdigits, hstop.1, List.append_nil,
    List.dropWhile_append_of_pos hdigits, hstop.2]
  exact if_neg hne

theorem unsigned_complete (bits : ℕ) :
    Complete (unsigned bits) (UnsignedText bits) fun c => c.isDigit = false := by
  rintro t n rest ⟨ht, hn⟩ hrest
  unfold unsigned
  rw [digits_complete t n rest ht hrest, Option.bind_some]
  exact if_pos hn

section Lists

variable {p : Parser α} {R : List Char → α → Prop} {sep : Char} {follow : Char → Prop}

theorem length_le_of_listText {t : List Char} {as : List α} (h : ListText R sep t as) :
    as.length ≤ t.length + 1 := by
  induction h with
  | single _ => exact Nat.le_add_left 1 _
  | cons _ _ ih =>
    rw [List.length_cons, List.length_append, List.length_cons]
    omega

theorem further_complete (hp : CompleteToken p R follow) (hskip : ∀ s, p (skip s) = p s)
    (hsep : isSpace sep = false) (hfollow : follow sep) {ts : List Char} {as : List α}
    (h : ListText R sep ts as) {n : ℕ} (hn : as.length ≤ n) :
    further p sep n (sep :: ts) = (as, []) := by
  induction h generalizing n with
  | @single t a h =>
    obtain ⟨n, rfl⟩ := Nat.exists_eq_add_of_le' hn
    have hread := hp t a [] h nofun
    rw [List.append_nil] at hread
    rw [List.length_singleton, further, char_cons hsep]
    dsimp only
    rw [hskip, hread]
    cases n <;> rfl
  | @cons t a ts as h _ ih =>
    rw [List.length_cons] at hn
    cases n with
    | zero => omega
    | succ n =>
      have hread := hp t a (sep :: ts) h (fun c hc => Option.some.inj hc ▸ hfollow)
      rw [further, char_cons hsep]
      dsimp only
      rw [hskip, hread]
      dsimp only
      rw [skip_cons_of_not hsep, ih (Nat.le_of_succ_le_succ hn)]

/-- **A list is read** to the end of its text. -/
theorem list_complete (hp : CompleteToken p R follow) (hskip : ∀ s, p (skip s) = p s)
    (hsep : isSpace sep = false) (hfollow : follow sep) {t : List Char} {as : List α}
    (h : ListText R sep t as) : list p sep t = some (as, []) := by
  unfold list
  cases h with
  | single h =>
    rename_i a
    have hread := hp t a [] h nofun
    rw [List.append_nil] at hread
    rw [hread]
    rfl
  | @cons t a ts as h hs =>
    have hread := hp t a (sep :: ts) h (fun c hc => Option.some.inj hc ▸ hfollow)
    have hlength : as.length ≤ (sep :: ts).length := length_le_of_listText hs
    rw [hread, Option.map_some]
    dsimp only
    rw [skip_cons_of_not hsep, further_complete hp hskip hsep hfollow hs hlength]

theorem separatedText_of_listText {S : List Char → Prop} (hsep : S [sep]) {t : List Char}
    {as : List α} (h : ListText R sep t as) : SeparatedText R S t as := by
  induction h with
  | single h => exact .single h
  | cons h _ ih => exact .cons h hsep ih

end Lists

end Grammar
