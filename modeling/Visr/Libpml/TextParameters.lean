import Mathlib.Tactic.NormNum
import Visr.Libefl.Basic
import Visr.Library.CommentedTexts

/-!
# Matrix and vector parameters from texts

The rows of a matrix are the lines of a text, which may be divided by semicolons.  Comments start at
a percent sign.  The lines are divided before the comments are looked for, and a vector is read as
a whole.

## Main results

* `Pml.readLines_spec` — the loops over the pieces of the lines.
* `Pml.reads_iff` — **when matrices and vectors are read as intended**.
-/

namespace Visr

namespace Pml

open Grammar

variable {α : Type}

/-! ### Matrices -/

/-- The elements of a matrix that has been read. -/
structure TextMatrix (α : Type) where
  rows : List (List α)
  numberOfColumns : ℕ
  length_eq : ∀ row ∈ rows, row.length = numberOfColumns

/-- The rows that have been read, with the sizes of the shortest and of the longest one. -/
structure RowStorage (α : Type) where
  tmpStorage : List (List α)
  minSize : ℕ
  maxSize : ℕ
  minSize_lt : minSize < 2 ^ 64
  bounded : ∀ row ∈ tmpStorage, minSize ≤ row.length ∧ row.length ≤ maxSize

namespace RowStorage

/-- Nothing has been read. -/
def empty : RowStorage α where
  tmpStorage := []
  minSize := 2 ^ 64 - 1
  maxSize := 0
  minSize_lt := by norm_num
  bounded := List.forall_mem_nil _

/-- A row is stored, unless it is empty. -/
def store (s : RowStorage α) (v : List α) : RowStorage α :=
  if v.length ≠ 0 then
    { tmpStorage := s.tmpStorage ++ [v]
      minSize := min s.minSize v.length
      maxSize := max s.maxSize v.length
      minSize_lt := (min_le_left _ _).trans_lt s.minSize_lt
      bounded := by
        intro row hrow
        rcases List.mem_append.mp hrow with hrow | hrow
        · exact ⟨(min_le_left _ _).trans (s.bounded row hrow).1,
            (s.bounded row hrow).2.trans (le_max_left _ _)⟩
        · cases List.mem_singleton.mp hrow
          exact ⟨min_le_right _ _, le_max_right _ _⟩ }
  else s

end RowStorage

variable (p : Parser α)

/-- The pieces of a line, each of which is a list of numbers that may end with a comment. -/
def readPieces : List (List Char) → RowStorage α → Except Exception (RowStorage α)
  | [], s => .ok s
  | piece :: pieces, s =>
    match commented p piece with
    | none => .error (.invalidArgument "MatrixParameter::fromStream(): Error while parsing line.")
    | some v => readPieces pieces (s.store v)

/-- The lines of a text. -/
def readLines : List (List Char) → RowStorage α → Except Exception (RowStorage α)
  | [], s => .ok s
  | line :: lines, s =>
    match readPieces p (line.splitOn ';') s with
    | .error e => .error e
    | .ok s' => readLines lines s'

/-- `MatrixParameter::fromStream()`. -/
def fromStream (text : List Char) : Except Exception (TextMatrix α) :=
  match readLines p (text.splitOn '\n') .empty with
  | .error e => .error e
  | .ok s =>
    if hsize : s.tmpStorage ≠ [] ∧ s.minSize ≠ s.maxSize then
      .error (.invalidArgument ("MatrixParameter::fromStream(): Matrix rows (text lines) have " ++
        "different numbers of elements."))
    else if hempty : s.tmpStorage = [] then
      .ok ⟨[], 0, List.forall_mem_nil _⟩
    else
      .ok
        { rows := s.tmpStorage
          numberOfColumns := s.minSize
          length_eq := by
            intro row hrow
            have hsame : s.minSize = s.maxSize := by
              by_contra hne
              exact hsize ⟨hempty, hne⟩
            have hbounded := s.bounded row hrow
            omega }

/-! ### Vectors -/

/-- `VectorParameter::fromString()`, which reads the text as a whole. -/
def vectorFromString (text : List Char) : Except Exception (List α) :=
  match commented p text with
  | none => .error (.invalidArgument "VectorParameter::fromStream(): Error while parsing line.")
  | some v => .ok v

/-! ### What is intended -/

/-- The pieces of the lines, without the comments. -/
def visiblePieces (text : List Char) : List (List Char) :=
  (text.splitOn '\n').flatMap fun line => (visible line).splitOn ';'

/-- The rows of a text that are not empty. -/
def intendedRows (text : List Char) : Option (List (List α)) :=
  ((visiblePieces text).mapM (complete skip p)).map fun rows => rows.filter (· ≠ [])

/-- **A matrix is read as intended**, or an exception is thrown. -/
def ReadsRows (text : List Char) : Prop :=
  (∃ e, fromStream p text = .error e) ∨
    ∃ m, fromStream p text = .ok m ∧ intendedRows p text = some m.rows

/-- **A vector is read as intended**, or an exception is thrown. -/
def ReadsNumbers (text : List Char) : Prop :=
  (∃ e, vectorFromString p text = .error e) ∨
    ∃ v, vectorFromString p text = .ok v ∧ outsideComments p text = some v

/-- The pieces of all lines, as the loops find them. -/
def pieces (text : List Char) : List (List Char) :=
  (text.splitOn '\n').flatMap fun line => line.splitOn ';'

/-- The numbers at the beginning of a piece. -/
def numbers (piece : List Char) : List α := (elements skip p piece).1

/-- The text is not rejected: all pieces are lists of numbers that may end with a comment, and all
of them that are not empty have the same size. -/
def Accepted (text : List Char) : Prop :=
  (∀ piece ∈ pieces text, (commented p piece).isSome = true) ∧
    ∃ n < 2 ^ 64, ∀ piece ∈ pieces text, numbers p piece = [] ∨ (numbers p piece).length = n

/-- **The condition for matrices.**  The text is rejected, or all pieces before the comments are
lists of numbers, and no piece after a semicolon in a comment starts with a number. -/
def ReadsRowsWhen (text : List Char) : Prop :=
  ¬Accepted p text ∨ ∀ line ∈ text.splitOn '\n',
    (∀ piece ∈ (visible line).splitOn ';', (complete skip p piece).isSome = true) ∧
      ∀ piece ∈ ((hidden line).splitOn ';').tail, numbers p piece = []

/-- **The condition for vectors.**  The text is rejected, or what is before the first percent sign
is a list of numbers, and there is nothing outside the comments after it. -/
def ReadsNumbersWhen (text : List Char) : Prop :=
  commented p text = none ∨
    (complete skip p (visible text)).isSome = true ∧ skipComments false (hidden text) = []

/-! ### The loops -/

theorem RowStorage.tmpStorage_store (s : RowStorage α) (v : List α) :
    (s.store v).tmpStorage = s.tmpStorage ++ [v].filter (· ≠ []) := by
  unfold store
  by_cases hv : v.length ≠ 0
  · have hne : decide (v ≠ []) = true := decide_eq_true (mt List.length_eq_zero_iff.mpr hv)
    rw [if_pos hv, List.filter_singleton, hne]
    rfl
  · have hnil : v = [] := List.length_eq_zero_iff.mp (not_not.mp hv)
    rw [if_neg hv, hnil]
    exact (List.append_nil _).symm

/-- The rows of pieces. -/
def rowsOf (ps : List (List Char)) : List (List α) := (ps.map (numbers p)).filter (· ≠ [])

theorem rowsOf_append (ps ps' : List (List Char)) :
    rowsOf p (ps ++ ps') = rowsOf p ps ++ rowsOf p ps' := by
  rw [rowsOf, List.map_append, List.filter_append]
  rfl

variable {p}

theorem numbers_of_commented {piece : List Char} {v : List α} (h : commented p piece = some v) :
    numbers p piece = v := by
  obtain ⟨rest, heq, -⟩ := commented_eq_some.mp h
  exact (Prod.mk.inj heq).1

theorem readPieces_append (ps ps' : List (List Char)) (s : RowStorage α) :
    readPieces p (ps ++ ps') s =
      match readPieces p ps s with
      | .error e => .error e
      | .ok s' => readPieces p ps' s' := by
  induction ps generalizing s with
  | nil => rfl
  | cons piece ps ih =>
    rw [List.cons_append, readPieces, readPieces]
    cases commented p piece with
    | none => rfl
    | some v => exact ih (s.store v)

/-- The two loops are one over the pieces of all lines. -/
theorem readLines_eq (lines : List (List Char)) (s : RowStorage α) :
    readLines p lines s = readPieces p (lines.flatMap fun line => line.splitOn ';') s := by
  induction lines generalizing s with
  | nil => rfl
  | cons line lines ih =>
    rw [List.flatMap_cons, readPieces_append, readLines]
    cases readPieces p (line.splitOn ';') s with
    | error e => rfl
    | ok s' => exact ih s'

/-- **The loop over pieces.**  It stores the rows, or one of the pieces is refused. -/
theorem readPieces_spec (ps : List (List Char)) (s : RowStorage α) :
    ((∀ piece ∈ ps, (commented p piece).isSome = true) ∧
        ∃ s', readPieces p ps s = .ok s' ∧ s'.tmpStorage = s.tmpStorage ++ rowsOf p ps) ∨
      (¬∀ piece ∈ ps, (commented p piece).isSome = true) ∧ ∃ e, readPieces p ps s = .error e := by
  induction ps generalizing s with
  | nil => exact Or.inl ⟨List.forall_mem_nil _, s, rfl, (List.append_nil _).symm⟩
  | cons piece ps ih =>
    rw [readPieces]
    cases hread : commented p piece with
    | none =>
      refine Or.inr ⟨fun hall => ?_, _, rfl⟩
      have := hall piece List.mem_cons_self
      rw [hread] at this
      exact Bool.false_ne_true this
    | some v =>
      rcases ih (s.store v) with ⟨hall, s', hok, hrows⟩ | ⟨hnot, herror⟩
      · refine Or.inl ⟨List.forall_mem_cons.mpr ⟨by rw [hread]; rfl, hall⟩, s', hok, ?_⟩
        rw [hrows, RowStorage.tmpStorage_store, List.append_assoc, ← numbers_of_commented hread]
        exact congrArg _ (rowsOf_append p [piece] ps).symm
      · exact Or.inr ⟨fun hall => hnot (List.forall_mem_cons.mp hall).2, herror⟩

/-- The sizes if all rows have `n` elements. -/
def RowStorage.Uniform (n : ℕ) (s : RowStorage α) : Prop :=
  (s.tmpStorage = [] ∧ s.minSize = 2 ^ 64 - 1 ∧ s.maxSize = 0) ∨ s.minSize = n ∧ s.maxSize = n

theorem RowStorage.Uniform.store {n : ℕ} (hn : n < 2 ^ 64) {s : RowStorage α} (h : s.Uniform n)
    {v : List α} (hv : v = [] ∨ v.length = n) : (s.store v).Uniform n := by
  unfold RowStorage.store
  by_cases hzero : v.length ≠ 0
  · have hlength : v.length = n := hv.resolve_left fun hnil => hzero (by rw [hnil]; rfl)
    rw [if_pos hzero]
    unfold Uniform at h ⊢
    dsimp only
    omega
  · rw [if_neg hzero]
    exact h

theorem readPieces_uniform {n : ℕ} (hn : n < 2 ^ 64) (ps : List (List Char)) {s s' : RowStorage α}
    (h : s.Uniform n) (hps : ∀ piece ∈ ps, numbers p piece = [] ∨ (numbers p piece).length = n)
    (hok : readPieces p ps s = .ok s') : s'.Uniform n := by
  induction ps generalizing s with
  | nil =>
    cases hok
    exact h
  | cons piece ps ih =>
    obtain ⟨hpiece, hps⟩ := List.forall_mem_cons.mp hps
    rw [readPieces] at hok
    cases hread : commented p piece with
    | none =>
      rw [hread] at hok
      cases hok
    | some v =>
      rw [hread] at hok
      exact ih (h.store hn (numbers_of_commented hread ▸ hpiece)) hps hok

theorem mem_rowsOf {ps : List (List Char)} {row : List α} :
    row ∈ rowsOf p ps ↔ (∃ piece ∈ ps, numbers p piece = row) ∧ row ≠ [] := by
  rw [rowsOf, List.mem_filter, List.mem_map, decide_eq_true_eq]

/-- The rows have the same size. -/
theorem length_of_stored {s : RowStorage α} (hsize : ¬(s.tmpStorage ≠ [] ∧ s.minSize ≠ s.maxSize))
    {row : List α} (hrow : row ∈ s.tmpStorage) : row.length = s.minSize := by
  have hsame : s.minSize = s.maxSize := by
    by_contra hne
    exact hsize ⟨List.ne_nil_of_mem hrow, hne⟩
  have hbounded := s.bounded row hrow
  omega

/-- **Accepted texts give the rows of their pieces**, and no other texts are accepted. -/
theorem fromStream_spec (text : List Char) :
    (Accepted p text ∧ ∃ m, fromStream p text = .ok m ∧ m.rows = rowsOf p (pieces text)) ∨
      ¬Accepted p text ∧ ∃ e, fromStream p text = .error e := by
  have hloop : readLines p (text.splitOn '\n') .empty = readPieces p (pieces text) .empty :=
    readLines_eq _ _
  unfold fromStream
  rcases readPieces_spec (pieces text) (.empty : RowStorage α) with
    ⟨hall, s, hok, hrows⟩ | ⟨hnot, e, herror⟩
  · rw [hloop, hok]
    change s.tmpStorage = rowsOf p (pieces text) at hrows
    dsimp only
    -- the shortest and the longest row tell whether all of them have one length
    by_cases hsize : s.tmpStorage ≠ [] ∧ s.minSize ≠ s.maxSize
    · rw [dif_pos hsize]
      refine Or.inr ⟨?_, _, rfl⟩
      rintro ⟨-, n, hn, hsame⟩
      rcases readPieces_uniform hn _ (Or.inl ⟨rfl, rfl, rfl⟩) hsame hok with
        ⟨hempty, -⟩ | ⟨hmin, hmax⟩
      · exact hsize.1 hempty
      · exact hsize.2 (hmin.trans hmax.symm)
    · rw [dif_neg hsize]
      refine Or.inl ⟨⟨hall, s.minSize, s.minSize_lt, fun piece hpiece => ?_⟩, ?_⟩
      · by_cases hnil : numbers p piece = []
        · exact Or.inl hnil
        · refine Or.inr (length_of_stored hsize ?_)
          rw [hrows]
          exact mem_rowsOf.mpr ⟨⟨piece, hpiece, rfl⟩, hnil⟩
      · by_cases hempty : s.tmpStorage = []
        · rw [dif_pos hempty]
          exact ⟨_, rfl, hempty.symm.trans hrows⟩
        · rw [dif_neg hempty]
          exact ⟨_, rfl, hrows⟩
  · rw [hloop, herror]
    exact Or.inr ⟨fun haccepted => hnot haccepted.1, e, rfl⟩

/-! ### Comments in lines -/

theorem numbers_of_complete {piece : List Char} {v : List α} (h : complete skip p piece = some v) :
    numbers p piece = v := by
  obtain ⟨rest, heq, -⟩ := complete_eq_some.mp h
  exact (Prod.mk.inj heq).1

theorem mapM_complete_eq_some {ps : List (List Char)} {rows : List (List α)} :
    ps.mapM (complete skip p) = some rows ↔
      (∀ piece ∈ ps, (complete skip p piece).isSome = true) ∧ rows = ps.map (numbers p) := by
  induction ps generalizing rows with
  | nil =>
    rw [List.mapM_nil]
    exact ⟨fun h => ⟨List.forall_mem_nil _, (Option.some.inj h).symm⟩, fun h => by rw [h.2]; rfl⟩
  | cons piece ps ih =>
    rw [List.mapM_cons, List.map_cons, List.forall_mem_cons]
    cases hread : complete skip p piece with
    | none => simp
    | some v =>
      rw [numbers_of_complete hread]
      change (ps.mapM (complete skip p)).bind (fun rows => some (v :: rows)) = some rows ↔ _
      constructor
      · intro h
        obtain ⟨rows', hrows', heq⟩ := Option.bind_eq_some_iff.mp h
        obtain ⟨hall, rfl⟩ := ih.mp hrows'
        exact ⟨⟨rfl, hall⟩, (Option.some.inj heq).symm⟩
      · rintro ⟨⟨-, hall⟩, rfl⟩
        exact Option.bind_eq_some_iff.mpr ⟨_, ih.mpr ⟨hall, rfl⟩, rfl⟩

/-- The rows that are intended are those of the pieces before the comments, if these are lists. -/
theorem intendedRows_eq_some {text : List Char} {rows : List (List α)} :
    intendedRows p text = some rows ↔
      (∀ piece ∈ visiblePieces text, (complete skip p piece).isSome = true) ∧
        rows = rowsOf p (visiblePieces text) := by
  unfold intendedRows
  rw [Option.map_eq_some_iff]
  constructor
  · rintro ⟨rows', hrows', rfl⟩
    obtain ⟨hall, rfl⟩ := mapM_complete_eq_some.mp hrows'
    exact ⟨hall, rfl⟩
  · rintro ⟨hall, rfl⟩
    exact ⟨_, mapM_complete_eq_some.mpr ⟨hall, rfl⟩, rfl⟩

/-- The first piece of what follows a list is empty, or it is a comment. -/
theorem numbers_append_first (hp : ElementParser p) {line last first : List Char}
    {ps : List (List Char)} (hfirst : (hidden line).splitOn ';' = first :: ps)
    (hmem : '%' ∉ last) (hlast : (complete skip p last).isSome = true) :
    numbers p (last ++ first) = numbers p last := by
  obtain ⟨v, hv⟩ := Option.isSome_iff_exists.mp hlast
  rcases hidden_cases line with hnil | ⟨t, ht⟩
  · rw [hnil, List.splitOn_nil] at hfirst
    cases hfirst
    rw [List.append_nil]
  · have hne : ¬('%' == ';') = true := by decide
    rw [ht, List.splitOn_cons_eq_if_modifyHead, if_neg hne] at hfirst
    cases hsplit : t.splitOn ';' with
    | nil => exact absurd hsplit (List.splitOn_ne_nil ';' t)
    | cons c cs =>
      rw [hsplit, List.modifyHead_cons] at hfirst
      cases hfirst
      rw [numbers_of_commented (hp.commented_append hmem hv c), numbers_of_complete hv]

/-- **The rows of a line** are those before its comment, and those of the pieces in its comment. -/
theorem rowsOf_line (hp : ElementParser p) {line : List Char}
    (hvisible : ∀ piece ∈ (visible line).splitOn ';', (complete skip p piece).isSome = true) :
    rowsOf p (line.splitOn ';') =
      rowsOf p ((visible line).splitOn ';') ++ rowsOf p ((hidden line).splitOn ';').tail := by
  obtain ⟨ps, last, first, ps', hv, hh, hline⟩ :=
    splitOn_append ';' (visible line) (hidden line)
  rw [visible_append_hidden] at hline
  have hin : last ∈ (visible line).splitOn ';' := by
    rw [hv]
    exact List.mem_append_right _ List.mem_cons_self
  have hmem : '%' ∉ last := fun hpercent =>
    not_mem_visible line (mem_of_mem_splitOn hin hpercent)
  have hsame : rowsOf p [last ++ first] = rowsOf p [last] := by
    rw [rowsOf, List.map_singleton, numbers_append_first hp hh hmem (hvisible last hin)]
    rfl
  calc rowsOf p (line.splitOn ';')
      = rowsOf p (ps ++ ([last ++ first] ++ ps')) := by rw [hline]; rfl
    _ = rowsOf p ps ++ (rowsOf p [last] ++ rowsOf p ps') := by
      rw [rowsOf_append, rowsOf_append, hsame]
    _ = rowsOf p ((visible line).splitOn ';') ++ rowsOf p ((hidden line).splitOn ';').tail := by
      rw [hv, hh, List.tail_cons, rowsOf_append, List.append_assoc]

theorem rowsOf_flatMap (f : List Char → List (List Char)) (lines : List (List Char)) :
    rowsOf p (lines.flatMap f) = lines.flatMap fun line => rowsOf p (f line) := by
  induction lines with
  | nil => rfl
  | cons line lines ih => rw [List.flatMap_cons, List.flatMap_cons, rowsOf_append, ih]

/-- Nothing is added to parts of a list if the list is the same without it. -/
theorem flatMap_append_eq_iff {β γ : Type} (a b : β → List γ) (l : List β) :
    (l.flatMap fun x => a x ++ b x) = l.flatMap a ↔ ∀ x ∈ l, b x = [] := by
  have hlength (l : List β) :
      (l.flatMap a).length ≤ (l.flatMap fun x => a x ++ b x).length := by
    induction l with
    | nil => exact le_rfl
    | cons x l ih =>
      simp only [List.flatMap_cons, List.length_append]
      omega
  induction l with
  | nil => exact iff_of_true rfl (List.forall_mem_nil _)
  | cons x l ih =>
    rw [List.forall_mem_cons, List.flatMap_cons, List.flatMap_cons, List.append_assoc,
      List.append_cancel_left_eq]
    constructor
    · intro h
      have hle := hlength l
      have hsum := congrArg List.length h
      rw [List.length_append] at hsum
      have hnil : b x = [] := List.length_eq_zero_iff.mp (by omega)
      rw [hnil, List.nil_append] at h
      exact ⟨hnil, ih.mp h⟩
    · rintro ⟨hnil, hall⟩
      rw [hnil, List.nil_append]
      exact ih.mpr hall

theorem rowsOf_eq_nil {ps : List (List Char)} :
    rowsOf p ps = [] ↔ ∀ piece ∈ ps, numbers p piece = [] := by
  rw [List.eq_nil_iff_forall_not_mem]
  constructor
  · intro h piece hpiece
    by_contra hne
    exact h _ (mem_rowsOf.mpr ⟨⟨piece, hpiece, rfl⟩, hne⟩)
  · intro h row hrow
    obtain ⟨⟨piece, hpiece, rfl⟩, hne⟩ := mem_rowsOf.mp hrow
    exact hne (h piece hpiece)

/-- **When matrices are read as intended.** -/
theorem readsRows_iff (hp : ElementParser p) (text : List Char) :
    ReadsRows p text ↔ ReadsRowsWhen p text := by
  rcases fromStream_spec (p := p) text with ⟨haccepted, m, hok, hrows⟩ | ⟨hnot, herror⟩
  · have hcode : ReadsRows p text ↔ intendedRows p text = some (rowsOf p (pieces text)) := by
      constructor
      · rintro (⟨e, he⟩ | ⟨m', hm', hintended⟩)
        · cases hok.symm.trans he
        · cases hok.symm.trans hm'
          rwa [hrows] at hintended
      · exact fun hintended => Or.inr ⟨m, hok, by rwa [hrows]⟩
    -- the pieces of a line are those before the comment, and those in it, the first of which goes
    -- on with the last one before
    have hwhen : ReadsRowsWhen p text ↔ ∀ line ∈ text.splitOn '\n',
        (∀ piece ∈ (visible line).splitOn ';', (complete skip p piece).isSome = true) ∧
          ∀ piece ∈ ((hidden line).splitOn ';').tail, numbers p piece = [] :=
      or_iff_right (not_not.mpr haccepted)
    rw [hcode, hwhen, intendedRows_eq_some]
    unfold visiblePieces pieces
    rw [List.forall_mem_flatMap, rowsOf_flatMap, rowsOf_flatMap]
    constructor
    · rintro ⟨hvisible, hsame⟩
      have hparts := List.flatMap_congr fun line hline =>
        rowsOf_line hp (hvisible line hline)
      rw [hparts, flatMap_append_eq_iff] at hsame
      exact fun line hline => ⟨hvisible line hline, rowsOf_eq_nil.mp (hsame line hline)⟩
    · intro hall
      have hparts := List.flatMap_congr fun line hline => rowsOf_line hp (hall line hline).1
      rw [hparts, flatMap_append_eq_iff]
      exact ⟨fun line hline => (hall line hline).1, fun line hline =>
        rowsOf_eq_nil.mpr (hall line hline).2⟩
  · exact iff_of_true (Or.inl herror) (Or.inl hnot)

/-- **When vectors are read as intended.** -/
theorem readsNumbers_iff (hp : ElementParser p) (text : List Char) :
    ReadsNumbers p text ↔ ReadsNumbersWhen p text := by
  unfold ReadsNumbers ReadsNumbersWhen vectorFromString
  cases hread : commented p text with
  | none => exact iff_of_true (Or.inl ⟨_, rfl⟩) (Or.inl rfl)
  | some v =>
    constructor
    · rintro (⟨e, he⟩ | ⟨v', hv', houtside⟩)
      · cases he
      · cases hv'
        obtain ⟨hcomplete, hhidden⟩ := (hp.outsideComments_iff hread).mp houtside
        exact Or.inr ⟨Option.isSome_iff_exists.mpr ⟨v, hcomplete⟩, hhidden⟩
    · rintro (hnone | ⟨hsome, hhidden⟩)
      · cases hnone
      · obtain ⟨v', hv'⟩ := Option.isSome_iff_exists.mp hsome
        cases hread.symm.trans (hp.commented_of_complete hv')
        exact Or.inr ⟨v, rfl, (hp.outsideComments_iff hread).mpr ⟨hv', hhidden⟩⟩

/-- **When matrices and vectors are read as intended.** -/
theorem reads_iff (hp : ElementParser p) (text : List Char) :
    (ReadsRows p text ↔ ReadsRowsWhen p text) ∧ (ReadsNumbers p text ↔ ReadsNumbersWhen p text) :=
  ⟨readsRows_iff hp text, readsNumbers_iff hp text⟩

/-- The decimal digits of a number as a parser of elements. -/
theorem elementParser_digits : ElementParser digits where
  consumes := by
    intro s r x h
    unfold digits at h
    dsimp only at h
    split at h
    · cases h
    next hne =>
      cases h
      exact ⟨_, hne, List.takeWhile_append_dropWhile.symm⟩
  starts _ := rfl
  proceeds := by
    intro s r x t h
    unfold digits at h ⊢
    dsimp only at h ⊢
    split at h
    · cases h
    next hne =>
      cases h
      have hpercent : Char.isDigit '%' = false := rfl
      -- a percent sign is no digit, so nothing is read across it
      have htake : (s ++ '%' :: t).takeWhile Char.isDigit = s.takeWhile Char.isDigit := by
        rw [List.takeWhile_append]
        split
        next hall =>
          rw [List.takeWhile_cons, hpercent]
          exact (List.append_nil s).trans ((List.takeWhile_prefix _).eq_of_length hall).symm
        · rfl
      have hdrop : (s ++ '%' :: t).dropWhile Char.isDigit =
          s.dropWhile Char.isDigit ++ '%' :: t := by
        rw [List.dropWhile_append]
        split
        next hall =>
          rw [List.isEmpty_iff.mp hall, List.dropWhile_cons, hpercent]
          rfl
        · rfl
      rw [htake, hdrop, if_neg hne]

/-- A matrix with a comment that contains a semicolon. -/
theorem reads_iff_semicolon :
    (ReadsRows digits "1 2 % a; 3 4".toList ↔ ReadsRowsWhen digits "1 2 % a; 3 4".toList) ∧
      (ReadsNumbers digits "1 2 % a; 3 4".toList ↔
        ReadsNumbersWhen digits "1 2 % a; 3 4".toList) :=
  reads_iff elementParser_digits _

/-- **Texts that are not read as intended.**  What follows a semicolon in a comment becomes a row,
and the numbers on the line after a comment do not become elements of a vector. -/
theorem not_reads_comment :
    ¬ReadsRows digits "1 2 % a; 3 4".toList ∧ ¬ReadsNumbers digits "1 % c\n2".toList := by
  constructor
  · have hcode : (fromStream digits "1 2 % a; 3 4".toList).map TextMatrix.rows =
        .ok [[1, 2], [3, 4]] := by rfl
    have hintended : intendedRows digits "1 2 % a; 3 4".toList = some [[1, 2]] := by rfl
    rintro (⟨e, he⟩ | ⟨m, hm, hrows⟩)
    · rw [he] at hcode
      cases hcode
    · rw [hm] at hcode
      rw [hintended] at hrows
      cases (Option.some.inj hrows).trans (Except.ok.inj hcode)
  · have hcode : vectorFromString digits "1 % c\n2".toList = .ok [1] := by rfl
    have hintended : outsideComments digits "1 % c\n2".toList = some [1, 2] := by rfl
    rintro (⟨e, he⟩ | ⟨v, hv, houtside⟩)
    · cases hcode.symm.trans he
    · cases hcode.symm.trans hv
      cases hintended.symm.trans houtside

end Pml

end Visr
