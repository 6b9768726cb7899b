import Mathlib.Algebra.Group.Int.Defs
import Mathlib.Algebra.Group.Nat.Defs
import Mathlib.Data.Int.Notation
import Mathlib.Data.List.Basic
import Mathlib.Data.Nat.Notation

/-!
# Grammars over characters

Parsers that take a text from its beginning and give what they leave of it.  White space
may stand before and after each token.

## Main definitions

* `Parser` — a parser over lists of characters.
* `token`, `char`, `list` — white space around a parser, a single character, and one or
  more elements with a separator.
* `digits`, `int` — decimal numbers.
* `Reads` — a parser reads a given text, whatever follows it.
* `commaSeparated` — the text of a list.

## Main results

* `list_reads` — **a list of elements is read back from its text.**
* `int_reads` — a number is read back from its digits.
-/

namespace Grammar

variable {α β : Type}

/-- A parser gives its result and what it leaves of the text. -/
abbrev Parser (α : Type) := List Char → Option (α × List Char)

/-- The characters that count as white space: blank, tab, line feed, vertical tab, form feed
and carriage return. -/
def isSpace (c : Char) : Bool := c = ' ' || (9 ≤ c.toNat && c.toNat ≤ 13)

def skip (s : List Char) : List Char := s.dropWhile isSpace

theorem skip_cons_of_not {c : Char} (h : isSpace c = false) (s : List Char) :
    skip (c :: s) = c :: s := by
  rw [skip, List.dropWhile_cons, h]
  rfl

theorem skip_cons_space {c : Char} (h : isSpace c = true) (s : List Char) :
    skip (c :: s) = skip s := by
  rw [skip, List.dropWhile_cons, h]
  rfl

@[simp] theorem skip_nil : skip [] = [] := rfl

@[simp] theorem skip_skip (s : List Char) : skip (skip s) = skip s := by
  induction s with
  | nil => rfl
  | cons c s ih =>
    rcases h : isSpace c with _ | _
    · rw [skip_cons_of_not h, skip_cons_of_not h]
    · rw [skip_cons_space h, ih]

/-- The parser with white space before and after what it reads. -/
def token (p : Parser α) : Parser α := fun s =>
  (p (skip s)).map fun r => (r.1, skip r.2)

@[simp] theorem token_skip (p : Parser α) (s : List Char) : token p (skip s) = token p s := by
  rw [token, token, skip_skip]

/-! ### Pieces of a text -/

/-- What is between separators is a part of the text. -/
theorem mem_of_mem_splitOn {a c : Char} {l token : List Char} (htoken : token ∈ l.splitOn a)
    (hc : c ∈ token) : c ∈ l := by
  induction l generalizing token with
  | nil =>
    rw [List.splitOn_nil, List.mem_singleton] at htoken
    rwa [htoken] at hc
  | cons d l ih =>
    rw [List.splitOn_cons_eq_if_modifyHead] at htoken
    split at htoken
    · rcases List.mem_cons.mp htoken with rfl | htoken
      · cases hc
      · exact List.mem_cons_of_mem d (ih htoken hc)
    · cases hsplit : l.splitOn a with
      | nil =>
        rw [hsplit] at htoken
        cases htoken
      | cons first tokens =>
        rw [hsplit, List.modifyHead_cons] at htoken
        rcases List.mem_cons.mp htoken with rfl | htoken
        · rcases List.mem_cons.mp hc with rfl | hc
          · exact List.mem_cons_self
          · exact List.mem_cons_of_mem d (ih (hsplit ▸ List.mem_cons_self) hc)
        · exact List.mem_cons_of_mem d (ih (hsplit ▸ List.mem_cons_of_mem first htoken) hc)

/-- The last piece of a text and the first one of a text after it become one piece. -/
theorem splitOn_append (sep : Char) (s t : List Char) : ∃ pieces last first pieces',
    s.splitOn sep = pieces ++ [last] ∧ t.splitOn sep = first :: pieces' ∧
      (s ++ t).splitOn sep = pieces ++ (last ++ first) :: pieces' := by
  induction s with
  | nil =>
    cases ht : t.splitOn sep with
    | nil => exact absurd ht (List.splitOn_ne_nil sep t)
    | cons first pieces' => exact ⟨[], [], first, pieces', rfl, rfl, ht⟩
  | cons c s ih =>
    obtain ⟨pieces, last, first, pieces', hs, ht, hst⟩ := ih
    rw [List.cons_append, List.splitOn_cons_eq_if_modifyHead, List.splitOn_cons_eq_if_modifyHead,
      hs, hst]
    by_cases hc : (c == sep) = true
    · rw [if_pos hc, if_pos hc]
      exact ⟨[] :: pieces, last, first, pieces', rfl, ht, rfl⟩
    · rw [if_neg hc, if_neg hc]
      cases pieces with
      | nil => exact ⟨[], c :: last, first, pieces', rfl, ht, rfl⟩
      | cons piece pieces => exact ⟨(c :: piece) :: pieces, last, first, pieces', rfl, ht, rfl⟩

/-- The character `c`. -/
def char (c : Char) : Parser Unit := token fun s =>
  match s with
  | [] => none
  | d :: s => if d = c then some ((), s) else none

@[simp] theorem char_nil (c : Char) : char c [] = none := rfl

theorem char_cons {c : Char} (h : isSpace c = false) (s : List Char) :
    char c (c :: s) = some ((), skip s) := by
  rw [char, token, skip_cons_of_not h]
  simp

theorem char_eq_none {c : Char} {s : List Char} (h : ∀ d ∈ (skip s).head?, d ≠ c) :
    char c s = none := by
  rw [char, token]
  cases hs : skip s with
  | nil => rfl
  | cons d s' =>
    have hd : d ≠ c := h d (by rw [hs]; rfl)
    simp [hd]

/-- Further elements of a list, each after a separator.  A separator that no element follows
is left.  The number bounds the number of elements. -/
def further (p : Parser α) (sep : Char) : ℕ → List Char → List α × List Char
  | 0, s => ([], s)
  | n + 1, s =>
    match char sep s with
    | none => ([], s)
    | some (_, s') =>
      match p s' with
      | none => ([], s)
      | some (a, s'') =>
        let r := further p sep n s''
        (a :: r.1, r.2)

/-- One or more elements, with separators between them. -/
def list (p : Parser α) (sep : Char) : Parser (List α) := fun s =>
  (p s).map fun r =>
    let r' := further p sep r.2.length r.2
    (r.1 :: r'.1, r'.2)

/-! ### Numbers -/

/-- One or more decimal digits. -/
def digits : Parser ℕ := fun s =>
  let d := s.takeWhile Char.isDigit
  if d = [] then none else some (Nat.ofDigitChars 10 d 0, s.dropWhile Char.isDigit)

/-- An integer with an optional sign, of `bits` bits.  Any other one is not matched. -/
def signed (bits : ℕ) : Parser ℤ
  | '-' :: s => (digits s).bind fun r => if r.1 ≤ 2 ^ (bits - 1) then some (-r.1, r.2) else none
  | '+' :: s => (digits s).bind fun r => if r.1 < 2 ^ (bits - 1) then some (r.1, r.2) else none
  | s => (digits s).bind fun r => if r.1 < 2 ^ (bits - 1) then some (r.1, r.2) else none

/-- An integer as a token. -/
def int (bits : ℕ) : Parser ℤ := token (signed bits)

/-! ### Reading back -/

/-- The parser reads the text `t` as `a`, if nothing follows, or white space and then one of
the characters that may stop it. -/
def Reads (p : Parser α) (stop : Char → Prop) (t : List Char) (a : α) : Prop :=
  ∀ rest, (∀ c ∈ (skip rest).head?, stop c) → p (t ++ rest) = some (a, skip rest)

/-- A blank after each comma. -/
def commaTail : List (List Char) → List Char
  | [] => []
  | t :: ts => ',' :: ' ' :: (t ++ commaTail ts)

/-- The elements of a list with commas between them. -/
def commaSeparated : List (List Char) → List Char
  | [] => []
  | t :: ts => t ++ commaTail ts

/-- The same for strings. -/
def commaText (ts : List String) : String :=
  String.ofList (commaSeparated (ts.map String.toList))

@[simp] theorem toList_commaText (ts : List String) :
    (commaText ts).toList = commaSeparated (ts.map String.toList) := by
  rw [commaText, String.toList_ofList]

theorem length_le_commaTail (ts : List (List Char)) : ts.length ≤ (commaTail ts).length := by
  induction ts with
  | nil => exact Nat.le_refl 0
  | cons t ts ih =>
    simp only [commaTail, List.length_cons, List.length_append]
    omega

theorem skip_commaTail_append (ts : List (List Char)) (h : ts ≠ []) (rest : List Char) :
    skip (commaTail ts ++ rest) = commaTail ts ++ rest := by
  cases ts with
  | nil => exact absurd rfl h
  | cons t ts => rfl

section Lists

variable {p : Parser α} {Q : Char → Prop} {t : β → List Char} {v : β → α}

theorem further_reads (hp : ∀ s, p (skip s) = p s) (hQ : ¬ Q ',') {xs : List β}
    (h : ∀ x ∈ xs, Reads p (fun c => c = ',' ∨ Q c) (t x) (v x)) {n : ℕ}
    (hn : xs.length ≤ n) {rest : List Char} (hrest : ∀ c ∈ (skip rest).head?, Q c) :
    further p ',' n (skip (commaTail (xs.map t) ++ rest)) = (xs.map v, skip rest) := by
  induction xs generalizing n with
  | nil =>
    have hnone : char ',' (skip rest) = none := by
      refine char_eq_none fun d hd => ?_
      rw [skip_skip] at hd
      rintro rfl
      exact hQ (hrest _ hd)
    show further p ',' n (skip rest) = ([], skip rest)
    cases n with
    | zero => rfl
    | succ n =>
      rw [further, hnone]
  | cons x xs ih =>
    obtain ⟨hx, hxs⟩ := List.forall_mem_cons.mp h
    cases n with
    | zero => exact absurd hn (by simp)
    | succ n =>
      have hcomma : isSpace ',' = false := rfl
      have hblank : isSpace ' ' = true := rfl
      show further p ',' (n + 1)
        (skip (',' :: ' ' :: (t x ++ commaTail (xs.map t)) ++ rest)) = _
      rw [List.cons_append, List.cons_append, List.append_assoc, skip_cons_of_not hcomma, further,
        char_cons hcomma, skip_cons_space hblank]
      -- what follows the element is a comma or the rest, and neither belongs to it
      have hread : p (skip (t x ++ (commaTail (xs.map t) ++ rest))) =
          some (v x, skip (commaTail (xs.map t) ++ rest)) := by
        rw [hp]
        refine hx _ fun c hc => ?_
        cases xs with
        | nil => exact Or.inr (hrest c hc)
        | cons y ys =>
          rw [skip_commaTail_append _ (by simp)] at hc
          exact Or.inl (Option.some.inj hc).symm
      simp only [hread, ih hxs (Nat.le_of_succ_le_succ hn), List.map_cons]

/-- **A list is read back from the texts of its elements.** -/
theorem list_reads (hp : ∀ s, p (skip s) = p s) (hQ : ¬ Q ',') {xs : List β}
    (hne : xs ≠ []) (h : ∀ x ∈ xs, Reads p (fun c => c = ',' ∨ Q c) (t x) (v x)) :
    Reads (list p ',') Q (commaSeparated (xs.map t)) (xs.map v) := by
  intro rest hrest
  cases xs with
  | nil => exact absurd rfl hne
  | cons x xs =>
    obtain ⟨hx, hxs⟩ := List.forall_mem_cons.mp h
    have hread : p (t x ++ (commaTail (xs.map t) ++ rest)) =
        some (v x, skip (commaTail (xs.map t) ++ rest)) := by
      refine hx _ fun c hc => ?_
      cases xs with
      | nil => exact Or.inr (hrest c hc)
      | cons y ys =>
        rw [skip_commaTail_append _ (by simp)] at hc
        exact Or.inl (Option.some.inj hc).symm
    -- each element takes a comma at least, so the text is long enough to count them
    have hlength : xs.length ≤ (skip (commaTail (xs.map t) ++ rest)).length := by
      cases xs with
      | nil => exact Nat.zero_le _
      | cons y ys =>
        rw [skip_commaTail_append _ (by simp), List.length_append]
        have hle := length_le_commaTail ((y :: ys).map t)
        rw [List.length_map] at hle
        omega
    show list p ',' (t x ++ commaTail (xs.map t) ++ rest) = _
    rw [List.append_assoc, list, hread]
    simp only [Option.map_some, further_reads hp hQ hxs hlength hrest, List.map_cons]

end Lists

section Results

variable {p : Parser α} {P : α → Prop}

theorem token_result (h : ∀ s r, p s = some r → P r.1) {s : List Char} {r : α × List Char}
    (hr : token p s = some r) : P r.1 := by
  obtain ⟨r', hr', rfl⟩ := Option.map_eq_some_iff.mp hr
  exact h _ r' hr'

theorem further_result (h : ∀ s r, p s = some r → P r.1) (sep : Char) (n : ℕ)
    (s : List Char) : ∀ a ∈ (further p sep n s).1, P a := by
  induction n generalizing s with
  | zero => exact List.forall_mem_nil _
  | succ n ih =>
    unfold further
    split
    · exact List.forall_mem_nil _
    · split
      · exact List.forall_mem_nil _
      next s' _ a s'' hread =>
        refine List.forall_mem_cons.mpr ⟨h _ _ hread, ih s''⟩

/-- What all results of a parser have in common, all elements of a list have. -/
theorem list_result (h : ∀ s r, p s = some r → P r.1) {sep : Char} {s : List Char}
    {r : List α × List Char} (hr : list p sep s = some r) : ∀ a ∈ r.1, P a := by
  obtain ⟨r', hr', rfl⟩ := Option.map_eq_some_iff.mp hr
  exact List.forall_mem_cons.mpr ⟨h _ _ hr', further_result h sep _ _⟩

end Results

theorem signed_result {bits : ℕ} {s : List Char} {r : ℤ × List Char}
    (h : signed bits s = some r) : r.1 < 2 ^ (bits - 1) := by
  have hpow : (0 : ℤ) < 2 ^ (bits - 1) := Int.pow_pos (by decide)
  unfold signed at h
  split at h <;> obtain ⟨r', -, hr'⟩ := Option.bind_eq_some_iff.mp h <;> split at hr' <;> cases hr'
  · show -(r'.1 : ℤ) < _
    omega
  next hlt =>
    show (r'.1 : ℤ) < _
    exact_mod_cast hlt
  next hlt =>
    show (r'.1 : ℤ) < _
    exact_mod_cast hlt

/-- A list parser does not mind white space before the text, as its elements do not. -/
theorem list_skip {p : Parser α} (hp : ∀ s, p (skip s) = p s) (sep : Char) (s : List Char) :
    list p sep (skip s) = list p sep s := by
  rw [list, list, hp]

theorem digits_toDigits (n : ℕ) {rest : List Char} (h : ∀ c ∈ rest.head?, c.isDigit = false) :
    digits (Nat.toDigits 10 n ++ rest) = some (n, rest) := by
  have hdigit : ∀ c ∈ Nat.toDigits 10 n, c.isDigit = true := fun c hc =>
    Nat.isDigit_of_mem_toDigits (by decide) (by decide) hc
  have hstop : rest.takeWhile Char.isDigit = [] ∧ rest.dropWhile Char.isDigit = rest := by
    cases rest with
    | nil => exact ⟨rfl, rfl⟩
    | cons c rest =>
      have hc : c.isDigit = false := h c rfl
      exact ⟨by rw [List.takeWhile_cons, hc]; rfl, by rw [List.dropWhile_cons, hc]; rfl⟩
  have htake : (Nat.toDigits 10 n ++ rest).takeWhile Char.isDigit = Nat.toDigits 10 n := by
    rw [List.takeWhile_append_of_pos hdigit, hstop.1, List.append_nil]
  have hdrop : (Nat.toDigits 10 n ++ rest).dropWhile Char.isDigit = rest := by
    rw [List.dropWhile_append_of_pos hdigit, hstop.2]
  rw [digits]
  simp only [htake, hdrop, if_neg Nat.toDigits_ne_nil, Nat.ofDigitChars_ten_toDigits]

/-- The digits of a number are not matched if the number is too large. -/
theorem signed_toDigits (bits n : ℕ) {rest : List Char} (h : ∀ c ∈ rest.head?, c.isDigit = false) :
    signed bits (Nat.toDigits 10 n ++ rest) =
      if n < 2 ^ (bits - 1) then some ((n : ℤ), rest) else none := by
  have hread := digits_toDigits n h
  cases hd : Nat.toDigits 10 n with
  | nil => exact absurd hd Nat.toDigits_ne_nil
  | cons c s =>
    have hc : c.isDigit = true :=
      Nat.isDigit_of_mem_toDigits (by decide) (by decide) (hd ▸ List.mem_cons_self)
    have hminus : c ≠ '-' := by
      rintro rfl
      exact Bool.noConfusion hc
    have hplus : c ≠ '+' := by
      rintro rfl
      exact Bool.noConfusion hc
    rw [hd] at hread
    rw [List.cons_append] at hread ⊢
    rw [signed]
    · rw [hread]
      rfl
    · exact fun s' hs' => hminus (List.cons.inj hs').1
    · exact fun s' hs' => hplus (List.cons.inj hs').1

theorem not_isSpace_of_isDigit {c : Char} (h : c.isDigit = true) : isSpace c = false := by
  have hrange : 48 ≤ c.val ∧ c.val ≤ 57 := by
    rw [Char.isDigit, Bool.and_eq_true, decide_eq_true_eq, decide_eq_true_eq] at h
    exact h
  have hlow : 48 ≤ c.toNat := UInt32.le_iff_toNat_le.mp hrange.1
  have hblank : c ≠ ' ' := by
    rintro rfl
    exact absurd hlow (by decide)
  rw [isSpace, decide_eq_false hblank, Bool.false_or, Bool.and_eq_false_iff,
    decide_eq_false_iff_not, decide_eq_false_iff_not]
  omega

theorem skip_toDigits_append (n : ℕ) (rest : List Char) :
    skip (Nat.toDigits 10 n ++ rest) = Nat.toDigits 10 n ++ rest := by
  cases hd : Nat.toDigits 10 n with
  | nil => exact absurd hd Nat.toDigits_ne_nil
  | cons c s =>
    have hc : c.isDigit = true :=
      Nat.isDigit_of_mem_toDigits (by decide) (by decide) (hd ▸ List.mem_cons_self)
    exact skip_cons_of_not (not_isSpace_of_isDigit hc) _

theorem isDigit_head_of_stop {stop : Char → Prop} (hstop : ∀ c, stop c → c.isDigit = false)
    {rest : List Char} (h : ∀ c ∈ (skip rest).head?, stop c) :
    ∀ c ∈ rest.head?, c.isDigit = false := by
  cases rest with
  | nil => nofun
  | cons d rest =>
    intro c hc
    cases hc
    rcases hd : isSpace d with _ | _
    · rw [skip_cons_of_not hd] at h
      exact hstop d (h d rfl)
    · rcases hdigit : d.isDigit with _ | _
      · rfl
      · rw [not_isSpace_of_isDigit hdigit] at hd
        exact Bool.noConfusion hd

/-- A number that fits is read back from its digits. -/
theorem int_reads {b n : ℕ} (hn : n < 2 ^ (b - 1)) {stop : Char → Prop}
    (hstop : ∀ c, stop c → c.isDigit = false) :
    Reads (int b) stop (Nat.toDigits 10 n) (n : ℤ) := by
  intro rest hrest
  rw [int, token, skip_toDigits_append, signed_toDigits b n (isDigit_head_of_stop hstop hrest),
    if_pos hn]
  rfl

end Grammar
