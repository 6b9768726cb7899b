import Mathlib.Data.List.TakeWhile
import Mathlib.Tactic.Cases
import Visr.Library.Grammar

/-!
# Lists with optional commas, and comments

A list of elements, between which there may be a comma, in texts where a percent sign starts a
comment that ends with its line.

## Main definitions

* `elements` — the elements at the beginning of a text, and what is left of it.
* `Further` — the elements after the first one, as a relation.
* `complete` — the elements of a text that consists of nothing else.
* `visible`, `hidden` — what is before the first percent sign, and the rest.
* `skipComments`, `visibleParser`, `outsideComments` — the elements outside comments.
* `ElementParser` — what the parser of the elements is assumed to do.

## Main results

* `moreElements_further`, `Further.unique` — the loop computes the relation.
* `Further.extend` — **elements are read in the same way if something follows**.
* `elements_append_comment` — a list before a percent sign.
* `outsideComments_iff` — what it takes that the elements before the first percent sign are all
  elements outside comments.
-/

namespace Grammar

variable {α : Type}

/-! ### Lists with optional commas -/

section Elements

variable (skip : List Char → List Char) (p : Parser α)

/-- At most one comma. -/
def optionalComma (s : List Char) : List Char :=
  match skip s with
  | ',' :: s' => s'
  | s' => s'

/-- Further elements, each with a comma before it or without.  A comma that no element follows is
left.  The number bounds the number of elements. -/
def moreElements : ℕ → List Char → List α × List Char
  | 0, s => ([], s)
  | n + 1, s =>
    match p (skip (optionalComma skip s)) with
    | none => ([], s)
    | some (x, r) => (x :: (moreElements n r).1, (moreElements n r).2)

/-- The elements at the beginning of a text. -/
def elements (s : List Char) : List α × List Char :=
  match p (skip s) with
  | none => ([], s)
  | some (x, r) => (x :: (moreElements skip p r.length r).1, (moreElements skip p r.length r).2)

/-- The elements of a text without anything else. -/
def complete (s : List Char) : Option (List α) :=
  if skip (elements skip p s).2 = [] then some (elements skip p s).1 else none

/-- The elements after the first one, and what is left. -/
inductive Further : List Char → List α → List Char → Prop
  | stop {s : List Char} : p (skip (optionalComma skip s)) = none → Further s [] s
  | next {s r rest : List Char} {x : α} {xs : List α} :
    p (skip (optionalComma skip s)) = some (x, r) → Further r xs rest → Further s (x :: xs) rest

variable {skip p}

theorem optionalComma_length (hskip : ∀ s, (skip s).length ≤ s.length) (s : List Char) :
    (optionalComma skip s).length ≤ s.length := by
  have hle := hskip s
  unfold optionalComma
  split
  next s' hs =>
    rw [hs, List.length_cons] at hle
    omega
  · exact hle

/-- There is nothing left that the loop could read. -/
theorem moreElements_further (hskip : ∀ s, (skip s).length ≤ s.length)
    (hp : ∀ s x r, p s = some (x, r) → r.length < s.length) (n : ℕ) (s : List Char)
    (hn : s.length ≤ n) : Further skip p s (moreElements skip p n s).1 (moreElements skip p n s).2 := by
  induction n generalizing s with
  | zero =>
    refine .stop ?_
    have hlength := (hskip _).trans (optionalComma_length hskip s)
    cases hread : p (skip (optionalComma skip s)) with
    | none => rfl
    | some xr =>
      have := hp _ xr.1 xr.2 hread
      omega
  | succ n ih =>
    unfold moreElements
    split
    next hread => exact .stop hread
    next x r hread =>
      have hlength := (hskip _).trans (optionalComma_length hskip s)
      have := hp _ x r hread
      exact .next hread (ih r (by omega))

theorem exists_further (hskip : ∀ s, (skip s).length ≤ s.length)
    (hp : ∀ s x r, p s = some (x, r) → r.length < s.length) (s : List Char) :
    ∃ xs rest, Further skip p s xs rest :=
  ⟨_, _, moreElements_further hskip hp s.length s le_rfl⟩

theorem Further.unique {s : List Char} {xs ys : List α} {rest rest' : List Char}
    (h : Further skip p s xs rest) (h' : Further skip p s ys rest') : xs = ys ∧ rest = rest' := by
  induction h generalizing ys with
  | stop hread =>
    cases h' with
    | stop _ => exact ⟨rfl, rfl⟩
    | next hread' _ => cases hread.symm.trans hread'
  | next hread _ ih =>
    cases h' with
    | stop hread' => cases hread.symm.trans hread'
    | next hread' hfurther =>
      cases hread.symm.trans hread'
      obtain ⟨rfl, rfl⟩ := ih hfurther
      exact ⟨rfl, rfl⟩

/-- The first element, and the further ones. -/
theorem elements_of_some (hskip : ∀ s, (skip s).length ≤ s.length)
    (hp : ∀ s x r, p s = some (x, r) → r.length < s.length) {s r rest : List Char} {x : α}
    {xs : List α} (hread : p (skip s) = some (x, r)) :
    elements skip p s = (x :: xs, rest) ↔ Further skip p r xs rest := by
  have hfurther := moreElements_further hskip hp r.length r le_rfl
  unfold elements
  rw [hread]
  simp only [Prod.mk.injEq, List.cons.injEq, true_and]
  constructor
  · rintro ⟨rfl, rfl⟩
    exact hfurther
  · exact fun h => hfurther.unique h

theorem elements_of_none {s : List Char} (hread : p (skip s) = none) :
    elements skip p s = ([], s) := by
  unfold elements
  rw [hread]

end Elements

/-! ### Comments -/

/-- The text before the first percent sign. -/
def visible (s : List Char) : List Char := s.takeWhile (· ≠ '%')

/-- The first percent sign, and what follows it. -/
def hidden (s : List Char) : List Char := s.dropWhile (· ≠ '%')

theorem visible_append_hidden (s : List Char) : visible s ++ hidden s = s :=
  List.takeWhile_append_dropWhile

theorem not_mem_visible (s : List Char) : '%' ∉ visible s := by
  intro hmem
  have hne := List.mem_takeWhile_imp (p := fun c => decide (c ≠ '%')) hmem
  exact of_decide_eq_true hne rfl

theorem hidden_cases (s : List Char) : hidden s = [] ∨ ∃ t, hidden s = '%' :: t := by
  induction s with
  | nil => exact Or.inl rfl
  | cons c s ih =>
    unfold hidden at ih ⊢
    by_cases hc : c = '%'
    · subst hc
      exact Or.inr ⟨s, rfl⟩
    · rw [List.dropWhile_cons_of_pos (p := fun c => decide (c ≠ '%')) (decide_eq_true hc)]
      exact ih

/-- A text is cut at its first percent sign. -/
theorem visible_append {s : List Char} (h : '%' ∉ s) {t : List Char}
    (ht : t = [] ∨ ∃ u, t = '%' :: u) : visible (s ++ t) = s ∧ hidden (s ++ t) = t := by
  have hall : ∀ c ∈ s, decide (c ≠ '%') = true := fun c hc =>
    decide_eq_true (ne_of_mem_of_not_mem hc h)
  unfold visible hidden
  rw [List.takeWhile_append_of_pos hall, List.dropWhile_append_of_pos hall]
  rcases ht with rfl | ⟨u, rfl⟩
  · exact ⟨List.append_nil s, rfl⟩
  · exact ⟨List.append_nil s, rfl⟩

/-- White space and comments are passed over.  The flag tells whether a comment has begun. -/
def skipComments : Bool → List Char → List Char
  | _, [] => []
  | true, c :: s => if c = '\n' then skipComments false s else skipComments true s
  | false, c :: s =>
    if c = '%' then skipComments true s
    else if isSpace c then skipComments false s else c :: s

/-- An element ends before a comment. -/
def visibleParser (p : Parser α) : Parser α := fun s =>
  (p (visible s)).map fun r => (r.1, r.2 ++ hidden s)

/-- The elements of a text outside its comments. -/
def outsideComments (p : Parser α) : List Char → Option (List α) :=
  complete (skipComments false) (visibleParser p)

/-- A list that may end with a comment, to which everything after its percent sign belongs. -/
def commented (p : Parser α) (s : List Char) : Option (List α) :=
  match skip (elements skip p s).2 with
  | [] => some (elements skip p s).1
  | '%' :: _ => some (elements skip p s).1
  | _ => none

/-- What the parser of the elements does: it takes something, it does not start at a percent sign,
and it does not mind a percent sign after the place where it stops. -/
structure ElementParser (p : Parser α) : Prop where
  consumes : ∀ {s r : List Char} {x : α}, p s = some (x, r) → ∃ t, t ≠ [] ∧ s = t ++ r
  starts : ∀ s, p ('%' :: s) = none
  proceeds : ∀ {s r : List Char} {x : α} (t : List Char), p s = some (x, r) →
    p (s ++ '%' :: t) = some (x, r ++ '%' :: t)

theorem skip_length (s : List Char) : (skip s).length ≤ s.length :=
  (List.dropWhile_suffix _).length_le

theorem skip_append (s t : List Char) :
    skip (s ++ t) = if skip s = [] then skip t else skip s ++ t := by
  unfold skip
  rw [List.dropWhile_append]
  simp only [List.isEmpty_iff]

theorem not_mem_skip {s : List Char} (h : '%' ∉ s) : '%' ∉ skip s := fun hmem =>
  h ((List.dropWhile_suffix _).mem hmem)

/-- Without percent signs, there are no comments to pass over. -/
theorem skipComments_append {s : List Char} (h : '%' ∉ s) (t : List Char) :
    skipComments false (s ++ t) = if skip s = [] then skipComments false t else skip s ++ t := by
  induction s with
  | nil => rfl
  | cons c s ih =>
    obtain ⟨hc, hs⟩ := not_or.mp (mt List.mem_cons.mpr h)
    rw [List.cons_append, skipComments, if_neg (Ne.symm hc)]
    cases hspace : isSpace c with
    | true => rw [if_pos rfl, ih hs, skip_cons_space hspace]
    | false =>
      rw [if_neg Bool.false_ne_true, skip_cons_of_not hspace, if_neg (List.cons_ne_nil c s)]
      rfl

theorem skipComments_length (b : Bool) (s : List Char) : (skipComments b s).length ≤ s.length := by
  induction s generalizing b with
  | nil => cases b <;> exact le_rfl
  | cons c s ih =>
    cases b <;> unfold skipComments <;> split
    · exact (ih _).trans (Nat.le_succ _)
    · split
      · exact (ih _).trans (Nat.le_succ _)
      · exact le_rfl
    · exact (ih _).trans (Nat.le_succ _)
    · exact (ih _).trans (Nat.le_succ _)

/-! ### Reading on -/

section Extension

variable {p : Parser α} (hp : ElementParser p)

include hp

theorem ElementParser.length {s r : List Char} {x : α} (h : p s = some (x, r)) :
    r.length < s.length := by
  obtain ⟨t, ht, rfl⟩ := hp.consumes h
  have hpos := List.length_pos_of_ne_nil ht
  rw [List.length_append]
  omega

theorem ElementParser.nil : p [] = none := by
  cases hread : p [] with
  | none => rfl
  | some xr =>
    have := hp.length (x := xr.1) (r := xr.2) hread
    exact absurd this (Nat.not_lt_zero _)

theorem ElementParser.not_mem {s r : List Char} {x : α} (h : p s = some (x, r)) (hs : '%' ∉ s) :
    '%' ∉ r := by
  obtain ⟨t, -, rfl⟩ := hp.consumes h
  exact fun hmem => hs (List.mem_append_right t hmem)

omit hp in
theorem optionalComma_not_mem {s : List Char} (hs : '%' ∉ s) : '%' ∉ optionalComma skip s := by
  have hskip := not_mem_skip hs
  unfold optionalComma
  split
  next s' heq =>
    rw [heq] at hskip
    exact fun hmem => hskip (List.mem_cons_of_mem _ hmem)
  · exact hskip

/-- The loop looks for its element after white space, a comma and white space. -/
theorem ElementParser.skip_ne_nil {s r : List Char} {x : α}
    (h : p (skip (optionalComma skip s)) = some (x, r)) :
    skip s ≠ [] ∧ skip (optionalComma skip s) ≠ [] := by
  have hne : skip (optionalComma skip s) ≠ [] := by
    intro hnil
    rw [hnil, hp.nil] at h
    cases h
  refine ⟨fun hnil => hne ?_, hne⟩
  rw [optionalComma, hnil]
  rfl

/-- Elements of texts without percent signs are read in the same way by another parser, if the
text `h` follows. -/
structure Continues (p : Parser α) (skip' : List Char → List Char) (p' : Parser α)
    (h : List Char) : Prop where
  read : ∀ {s r : List Char} {x : α}, '%' ∉ s → p s = some (x, r) → p' (s ++ h) = some (x, r ++ h)
  skip : ∀ {s : List Char}, '%' ∉ s → skip s ≠ [] → skip' (s ++ h) = skip s ++ h

section Continued

variable {skip' : List Char → List Char} {p' : Parser α} {h : List Char}
  (hc : Continues p skip' p' h)

include hc

omit hp in
theorem Continues.optionalComma_append {s : List Char} (hs : '%' ∉ s) (hne : Grammar.skip s ≠ []) :
    optionalComma skip' (s ++ h) = optionalComma Grammar.skip s ++ h := by
  unfold optionalComma
  rw [hc.skip hs hne]
  cases hskip : Grammar.skip s with
  | nil => exact absurd hskip hne
  | cons c t =>
    by_cases hcomma : c = ','
    · subst hcomma
      rfl
    · rw [List.cons_append]
      split
      next heq => exact absurd (List.cons.inj heq).1 hcomma
      · split
        next heq => exact absurd (List.cons.inj heq).1 hcomma
        · rfl

theorem Continues.step {s r : List Char} {x : α} (hs : '%' ∉ s)
    (hread : p (Grammar.skip (optionalComma Grammar.skip s)) = some (x, r)) :
    p' (skip' (optionalComma skip' (s ++ h))) = some (x, r ++ h) := by
  obtain ⟨hne, hne'⟩ := hp.skip_ne_nil hread
  have hcomma := optionalComma_not_mem hs
  rw [hc.optionalComma_append hs hne, hc.skip hcomma hne']
  exact hc.read (not_mem_skip hcomma) hread

/-- **The elements are read in the same way if something follows**, and then those after it. -/
theorem Continues.further {s rest : List Char} {xs : List α}
    (hxs : Further Grammar.skip p s xs rest) (hs : '%' ∉ s) :
    '%' ∉ rest ∧ ∀ ys rest', Further skip' p' (rest ++ h) ys rest' →
      Further skip' p' (s ++ h) (xs ++ ys) rest' := by
  induction hxs with
  | stop _ => exact ⟨hs, fun _ _ hfurther => hfurther⟩
  | next hread _ ih =>
    obtain ⟨hrest, hon⟩ := ih (hp.not_mem hread (not_mem_skip (optionalComma_not_mem hs)))
    exact ⟨hrest, fun ys rest' hfurther => .next (hc.step hp hs hread) (hon ys rest' hfurther)⟩

end Continued

/-- A percent sign does not change how the elements before it are read. -/
theorem ElementParser.continues_comment (t : List Char) :
    Continues p Grammar.skip p ('%' :: t) where
  read _ hread := hp.proceeds t hread
  skip _ hne := by rw [skip_append, if_neg hne]

omit hp in
/-- Elements outside comments are read before the first percent sign. -/
theorem continues_hidden {t : List Char} (ht : t = [] ∨ ∃ u, t = '%' :: u) :
    Continues p (skipComments false) (visibleParser p) t where
  read hs hread := by
    obtain ⟨hvisible, hhidden⟩ := visible_append hs ht
    unfold visibleParser
    rw [hvisible, hhidden, hread]
    rfl
  skip hs hne := by rw [skipComments_append hs, if_neg hne]

omit hp in
/-- The loop has nothing to read where it stops. -/
theorem Further.stops {skip : List Char → List Char} {s rest : List Char} {xs : List α}
    (h : Further skip p s xs rest) : p (skip (optionalComma skip rest)) = none := by
  induction h with
  | stop hread => exact hread
  | next _ _ ih => exact ih

/-- The elements of a text, and those after it if something follows. -/
theorem Continues.elements {skip' : List Char → List Char} {p' : Parser α} {h : List Char}
    (hc : Continues p skip' p' h) (hskip' : ∀ s, (skip' s).length ≤ s.length)
    (hp' : ∀ s x r, p' s = some (x, r) → r.length < s.length) {s rest : List Char} {xs : List α}
    (hs : '%' ∉ s) (hxs : Grammar.elements Grammar.skip p s = (xs, rest)) :
    (p (Grammar.skip s) = none ∧ xs = [] ∧ rest = s) ∨
      xs ≠ [] ∧ '%' ∉ rest ∧ p (Grammar.skip (optionalComma Grammar.skip rest)) = none ∧
        ∀ ys rest', Further skip' p' (rest ++ h) ys rest' →
          Grammar.elements skip' p' (s ++ h) = (xs ++ ys, rest') := by
  cases hread : p (Grammar.skip s) with
  | none =>
    rw [elements_of_none hread] at hxs
    cases hxs
    exact Or.inl ⟨rfl, rfl, rfl⟩
  | some xr =>
    obtain ⟨x, r⟩ := xr
    cases xs with
    | nil =>
      unfold Grammar.elements at hxs
      rw [hread] at hxs
      cases hxs
    | cons y xs =>
      obtain rfl : y = x := by
        unfold Grammar.elements at hxs
        rw [hread] at hxs
        exact (List.cons.inj (Prod.mk.inj hxs).1).1.symm
      have hne : Grammar.skip s ≠ [] := by
        intro hnil
        rw [hnil, hp.nil] at hread
        cases hread
      -- the first element is read in both texts, and the others by the lemma for them
      have hfurther := (elements_of_some skip_length (fun _ _ _ => hp.length) hread).mp hxs
      have hr := hp.not_mem hread (not_mem_skip hs)
      obtain ⟨hrest, hon⟩ := hc.further hp hfurther hr
      have hread' : p' (skip' (s ++ h)) = some (y, r ++ h) := by
        rw [hc.skip hs hne]
        exact hc.read (not_mem_skip hs) hread
      exact Or.inr ⟨List.cons_ne_nil y xs, hrest, hfurther.stops, fun ys rest' hf =>
        (elements_of_some hskip' hp' hread').mpr (hon ys rest' hf)⟩

/-! ### Lists before a comment -/

/-- What a list leaves of a text without percent signs has none. -/
theorem ElementParser.not_mem_rest {s : List Char} (hs : '%' ∉ s) :
    '%' ∉ (elements skip p s).2 := by
  rcases (hp.continues_comment []).elements hp skip_length (fun _ _ _ => hp.length) hs
    (Prod.eta (elements skip p s)).symm with ⟨-, -, hrest⟩ | ⟨-, hrest, -⟩
  · rw [hrest]
    exact hs
  · exact hrest

/-- Without percent signs, there is no comment. -/
theorem ElementParser.commented_of_not_mem {s : List Char} (hs : '%' ∉ s) :
    commented p s = complete skip p s := by
  have hrest := not_mem_skip (hp.not_mem_rest hs)
  unfold commented complete
  split
  next heq => rw [if_pos heq]
  next heq =>
    rw [heq] at hrest
    exact absurd List.mem_cons_self hrest
  next hnil _ => rw [if_neg hnil]

omit hp in
theorem complete_eq_some {skip : List Char → List Char} {s : List Char} {xs : List α} :
    complete skip p s = some xs ↔ ∃ rest, elements skip p s = (xs, rest) ∧ skip rest = [] := by
  unfold complete
  split
  next hrest =>
    refine ⟨fun h => ⟨_, Prod.ext (Option.some.inj h) rfl, hrest⟩, ?_⟩
    rintro ⟨rest, heq, -⟩
    rw [heq]
  next hrest =>
    constructor
    · intro h
      cases h
    · rintro ⟨rest, heq, hnil⟩
      rw [heq] at hrest
      exact absurd hnil hrest

omit hp in
theorem commented_eq_some {s : List Char} {xs : List α} :
    commented p s = some xs ↔ ∃ rest, elements skip p s = (xs, rest) ∧
      (skip rest = [] ∨ ∃ t, skip rest = '%' :: t) := by
  unfold commented
  constructor
  · intro h
    split at h
    next heq => exact ⟨_, Prod.ext (Option.some.inj h) rfl, Or.inl heq⟩
    next t heq => exact ⟨_, Prod.ext (Option.some.inj h) rfl, Or.inr ⟨t, heq⟩⟩
    · cases h
  · rintro ⟨rest, heq, hnil | ⟨t, ht⟩⟩
    · rw [heq, hnil]
    · rw [heq, ht]
      rfl

/-- A list before a percent sign is read as if the text ended there. -/
theorem ElementParser.commented_append {s : List Char} (hs : '%' ∉ s) {xs : List α}
    (h : complete skip p s = some xs) (t : List Char) : commented p (s ++ '%' :: t) = some xs := by
  obtain ⟨rest, hxs, hrest⟩ := complete_eq_some.mp h
  have hpercent : skip ('%' :: t) = '%' :: t := skip_cons_of_not rfl t
  have hblank (u : List Char) (hu : skip u = []) : skip (u ++ '%' :: t) = '%' :: t := by
    rw [skip_append, if_pos hu, hpercent]
  refine commented_eq_some.mpr ⟨rest ++ '%' :: t, ?_, Or.inr ⟨t, hblank rest hrest⟩⟩
  rcases (hp.continues_comment t).elements hp skip_length (fun _ _ _ => hp.length) hs hxs with
    ⟨hread, rfl, rfl⟩ | ⟨-, -, -, hon⟩
  · refine elements_of_none ?_
    rw [hblank _ hrest]
    exact hp.starts t
  · have hstop : Further skip p (rest ++ '%' :: t) [] (rest ++ '%' :: t) := by
      refine .stop ?_
      have hcomma : optionalComma skip (rest ++ '%' :: t) = '%' :: t := by
        rw [optionalComma, hblank rest hrest]
        rfl
      rw [hcomma, hpercent]
      exact hp.starts t
    rw [hon [] _ hstop, List.append_nil]

/-- A list before the first percent sign is read as the whole text. -/
theorem ElementParser.commented_of_complete {s : List Char} {xs : List α}
    (h : complete skip p (visible s) = some xs) : commented p s = some xs := by
  have hs := not_mem_visible s
  have hsplit := visible_append_hidden s
  rcases hidden_cases s with hnil | ⟨t, ht⟩
  · rw [hnil, List.append_nil] at hsplit
    rw [← hsplit, hp.commented_of_not_mem hs, h]
  · have hsame := hp.commented_append hs h t
    rwa [← ht, hsplit] at hsame

/-! ### Elements outside comments -/

theorem ElementParser.visibleParser_length {s r : List Char} {x : α}
    (h : visibleParser p s = some (x, r)) : r.length < s.length := by
  obtain ⟨⟨y, u⟩, hread, heq⟩ := Option.map_eq_some_iff.mp h
  cases heq
  have hlt := hp.length hread
  have hsum := congrArg List.length (visible_append_hidden s)
  rw [List.length_append] at hsum ⊢
  dsimp only
  omega

theorem ElementParser.visibleParser_nil : visibleParser p [] = none := by
  unfold visibleParser
  rw [show visible [] = [] from rfl, hp.nil]
  rfl

omit hp in
/-- An element that is not there without a comment is not there with it. -/
theorem visibleParser_append {s t : List Char} (hs : '%' ∉ s) (ht : t = [] ∨ ∃ u, t = '%' :: u)
    (hread : p s = none) : visibleParser p (s ++ t) = none := by
  unfold visibleParser
  rw [(visible_append hs ht).1, hread]
  rfl

/-- A list before the first percent sign has all elements, if there is nothing on the lines after
it. -/
theorem ElementParser.outsideComments_of_complete {s : List Char} {xs : List α}
    (h : complete skip p (visible s) = some xs) :
    outsideComments p s = some xs ↔ skipComments false (hidden s) = [] := by
  obtain ⟨rest, hxs, hrest⟩ := complete_eq_some.mp h
  have hs := not_mem_visible s
  have hsplit := visible_append_hidden s
  have hcontinues := continues_hidden (p := p) (hidden_cases s)
  have hafter (u : List Char) (hu : '%' ∉ u) (hnil : skip u = []) :
      skipComments false (u ++ hidden s) = skipComments false (hidden s) := by
    rw [skipComments_append hu, if_pos hnil]
  unfold outsideComments
  rw [complete_eq_some]
  rcases hcontinues.elements hp (skipComments_length false)
    (fun _ _ _ => hp.visibleParser_length) hs hxs with
    ⟨-, rfl, rfl⟩ | ⟨hne, hmem, -, hon⟩
  · -- no element before the comment: then none may follow it either
    have hread := hafter _ hs hrest
    rw [hsplit] at hread
    constructor
    · rintro ⟨rest', heq, hrest'⟩
      cases hfirst : visibleParser p (skipComments false s) with
      | none =>
        rw [elements_of_none hfirst] at heq
        cases heq
        rw [← hread, hrest']
      | some xr =>
        unfold elements at heq
        rw [hfirst] at heq
        cases heq
    · intro hnil
      rw [hnil] at hread
      refine ⟨s, elements_of_none ?_, hread⟩
      rw [hread, hp.visibleParser_nil]
  · constructor
    · rintro ⟨rest', heq, hrest'⟩
      obtain ⟨ys, rest₁, hfurther⟩ := exists_further (skipComments_length false)
        (fun _ _ _ => hp.visibleParser_length) (rest ++ hidden s)
      -- the elements go on behind the comment, but the list without comments has no more of them
      have hall := hon ys rest₁ hfurther
      rw [hsplit] at hall
      obtain ⟨hys, rfl⟩ := Prod.mk.inj (heq.symm.trans hall)
      obtain rfl := List.self_eq_append_right.mp hys
      cases hfurther
      rw [← hafter rest hmem hrest, hrest']
    · intro hnil
      have hend : skipComments false (rest ++ hidden s) = [] := by
        rw [hafter rest hmem hrest, hnil]
      have hstop : Further (skipComments false) (visibleParser p) (rest ++ hidden s) []
          (rest ++ hidden s) := by
        refine .stop ?_
        have hcomma : optionalComma (skipComments false) (rest ++ hidden s) = [] := by
          rw [optionalComma, hend]
        rw [hcomma]
        exact hp.visibleParser_nil
      have hall := hon [] _ hstop
      rw [hsplit, List.append_nil] at hall
      exact ⟨_, hall, hend⟩

omit hp in
/-- If there is nothing after an optional comma, there is a comma. -/
theorem skip_eq_comma {s : List Char} (hs : skip s ≠ []) (h : skip (optionalComma skip s) = []) :
    ∃ u, skip s = ',' :: u := by
  cases hskip : skip s with
  | nil => exact absurd hskip hs
  | cons c u =>
    by_cases hc : c = ','
    · exact ⟨u, by rw [hc]⟩
    · have hsame : optionalComma skip s = skip s := by
        unfold optionalComma
        split
        next heq => exact absurd (List.cons.inj (hskip.symm.trans heq)).1 hc
        · rfl
      rw [hsame, skip_skip] at h
      exact absurd h hs

/-- What the list before the first percent sign leaves is not an element outside comments, unless
it is a comma that the comment follows, which is not read as a list with a comment. -/
theorem ElementParser.rest_eq_nil {s rest : List Char} {xs ys : List α}
    (h : commented p s = some xs) (houtside : outsideComments p s = some xs)
    (hys : elements skip p (visible s) = (ys, rest)) : skip rest = [] := by
  have hs := not_mem_visible s
  have hsplit := visible_append_hidden s
  have hoff := continues_hidden (p := p) (hidden_cases s)
  obtain ⟨rest', hxs, hrest'⟩ := complete_eq_some.mp houtside
  by_contra hrest
  rcases hoff.elements hp (skipComments_length false) (fun _ _ _ => hp.visibleParser_length) hs
    hys with ⟨hread, rfl, rfl⟩ | ⟨hne, hmem, hstop, hon⟩
  · -- no element has been read before the comment
    have hskip := hoff.skip hs hrest
    have hnone := visibleParser_append (not_mem_skip hs) (hidden_cases s) hread
    rw [← hskip, hsplit] at hnone
    rw [elements_of_none hnone] at hxs
    cases hxs
    rw [hsplit, hrest'] at hskip
    exact hrest (List.append_eq_nil_iff.mp hskip.symm).1
  · have hmem' := optionalComma_not_mem hmem
    have hcomma := hoff.optionalComma_append hmem hrest
    -- either a comma is all that is left, or something that is not an element
    by_cases hend : skip (optionalComma skip rest) = []
    · obtain ⟨u, hu⟩ := skip_eq_comma hrest hend
      rcases hidden_cases s with hnil | ⟨t, ht⟩
      · rw [hnil, List.append_nil] at hsplit
        have hsame := hp.commented_of_not_mem hs
        rw [hsplit, h] at hsame
        obtain ⟨rest₁, hys', hrest₁⟩ := complete_eq_some.mp hsame.symm
        rw [hsplit, hys'] at hys
        cases hys
        exact hrest hrest₁
      · -- the text with its comment is not accepted, since the comma is not skipped
        have hcode := hp.continues_comment t
        have hpercent : Further skip p (rest ++ '%' :: t) [] (rest ++ '%' :: t) := by
          refine .stop ?_
          rw [hcode.optionalComma_append hmem hrest, skip_append, if_pos hend,
            skip_cons_of_not rfl]
          exact hp.starts t
        rcases hcode.elements hp skip_length (fun _ _ _ => hp.length) hs hys with
          ⟨-, hnil, -⟩ | ⟨-, -, -, hon'⟩
        · exact hne hnil
        · have hall := hon' [] _ hpercent
          rw [← ht, hsplit] at hall
          obtain ⟨rest₁, hxs', hrest₁⟩ := commented_eq_some.mp h
          cases hall.symm.trans hxs'
          rw [skip_append, if_neg hrest, hu, List.cons_append] at hrest₁
          rcases hrest₁ with hnil | ⟨_, hcons⟩
          · cases hnil
          · exact absurd (List.cons.inj hcons).1 (by decide)
    · have hnone := visibleParser_append (not_mem_skip hmem') (hidden_cases s) hstop
      rw [← hoff.skip hmem' hend, ← hcomma] at hnone
      have hall := hon [] _ (.stop hnone)
      rw [hsplit] at hall
      cases hall.symm.trans hxs
      rw [hoff.skip hmem hrest] at hrest'
      exact hrest (List.append_eq_nil_iff.mp hrest').1

/-- A text that is read as a list with a comment consists of a list before the first percent sign,
if its elements are those outside comments. -/
theorem ElementParser.complete_of_outsideComments {s : List Char} {xs : List α}
    (h : commented p s = some xs) (houtside : outsideComments p s = some xs) :
    complete skip p (visible s) = some xs := by
  have hrest := hp.rest_eq_nil h houtside (Prod.eta (elements skip p (visible s))).symm
  have hys := complete_eq_some.mpr ⟨_, (Prod.eta (elements skip p (visible s))).symm, hrest⟩
  have hsame := hp.commented_of_complete hys
  rw [h] at hsame
  rw [hys, hsame]

/-- **When the elements before the first percent sign are all elements outside comments.** -/
theorem ElementParser.outsideComments_iff {s : List Char} {xs : List α}
    (h : commented p s = some xs) :
    outsideComments p s = some xs ↔
      complete skip p (visible s) = some xs ∧ skipComments false (hidden s) = [] := by
  constructor
  · intro houtside
    have hcomplete := hp.complete_of_outsideComments h houtside
    exact ⟨hcomplete, (hp.outsideComments_of_complete hcomplete).mp houtside⟩
  · exact fun hwhen => (hp.outsideComments_of_complete hwhen.1).mpr hwhen.2

end Extension

end Grammar
