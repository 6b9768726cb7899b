import Mathlib.Data.Int.Init
import Mathlib.Tactic.Ring
import Visr.Library.GrammarTexts
import Visr.Librbbl.Sequences

/-!
# Ranges in index sequences

What the text of an index sequence stands for, and the texts that are expanded as they say.

## Main results

* `grow_enough`, `grow_undefined`, `grow_short` — what the loops append.
* `IndexSequence.finish_of_accepted`, `IndexSequence.finish_of_not_accepted` — one group.
* `IndexSequence.parse_expands_iff` — **when ranges are expanded as they are written.**
-/

namespace Visr

open Grammar

/-! ### The loops -/

section Loops

variable {V : Type} {stop : V → Bool} {next : V → Option V} {f : ℕ → V} {n capacity : ℕ}

/-- A loop that stops after `n` values for which there is room. -/
theorem grow_enough (hn : n ≤ capacity)
    (hstep : ∀ k < n, stop (f k) = false ∧ next (f k) = some (f (k + 1)))
    (hstop : stop (f n) = true) :
    grow stop next capacity (f 0) = .ok ((List.range n).map f) := by
  induction n generalizing f capacity with
  | zero =>
    cases capacity with
    | zero => simp [grow, hstop]
    | succ capacity => simp [grow, hstop]
  | succ n ih =>
    obtain ⟨capacity, rfl⟩ : ∃ c, capacity = c + 1 := ⟨capacity - 1, by omega⟩
    obtain ⟨hfirst, hnext⟩ := hstep 0 (Nat.succ_pos n)
    have hrest := ih (f := fun k => f (k + 1)) (Nat.le_of_succ_le_succ hn)
      (fun k hk => hstep (k + 1) (Nat.succ_lt_succ hk)) hstop
    rw [grow, hfirst, hnext]
    simp only [Bool.false_eq_true, if_false]
    rw [hrest, List.range_succ_eq_map]
    simp [Except.map]

/-- A loop in which a value has no successor. -/
theorem grow_undefined (hn : n < capacity)
    (hstep : ∀ k < n, stop (f k) = false ∧ next (f k) = some (f (k + 1)))
    (hstop : stop (f n) = false) (hnone : next (f n) = none) :
    grow stop next capacity (f 0) = .error .undefined := by
  induction n generalizing f capacity with
  | zero =>
    obtain ⟨capacity, rfl⟩ : ∃ c, capacity = c + 1 := ⟨capacity - 1, by omega⟩
    simp [grow, hstop, hnone]
  | succ n ih =>
    obtain ⟨capacity, rfl⟩ : ∃ c, capacity = c + 1 := ⟨capacity - 1, by omega⟩
    obtain ⟨hfirst, hnext⟩ := hstep 0 (Nat.succ_pos n)
    have hrest := ih (f := fun k => f (k + 1)) (Nat.lt_of_succ_lt_succ hn)
      (fun k hk => hstep (k + 1) (Nat.succ_lt_succ hk)) hstop hnone
    rw [grow, hfirst, hnext]
    simp only [Bool.false_eq_true, if_false]
    rw [hrest]
    rfl

/-- A loop for whose values there is not enough room. -/
theorem grow_short
    (hstep : ∀ k < capacity, stop (f k) = false ∧ next (f k) = some (f (k + 1)))
    (hstop : stop (f capacity) = false) :
    grow stop next capacity (f 0) = .error .badAlloc := by
  induction capacity generalizing f with
  | zero => simp [grow, hstop]
  | succ capacity ih =>
    obtain ⟨hfirst, hnext⟩ := hstep 0 (Nat.succ_pos capacity)
    have hrest := ih (f := fun k => f (k + 1))
      (fun k hk => hstep (k + 1) (Nat.succ_lt_succ hk)) hstop
    rw [grow, hfirst, hnext]
    simp only [Bool.false_eq_true, if_false]
    rw [hrest]
    rfl

end Loops

namespace IndexSequence

/-! ### Ranges -/

/-- The number of values of a range. -/
def terms (start inc last : ℤ) : ℕ :=
  if 0 < inc then (if last < start then 0 else ((last - start) / inc).toNat + 1)
  else (if start < last then 0 else ((start - last) / -inc).toNat + 1)

/-- The values from `start` in steps of `inc` that are not beyond `last`. -/
def progression (start inc last : ℤ) : List ℕ :=
  (List.range (terms start inc last)).map fun (k : ℕ) => (start + k * inc).toNat

/-- The values of an ascending range do not exceed its end. -/
theorem lt_terms_iff_of_pos {start inc last : ℤ} (hinc : 0 < inc) {k : ℕ} :
    k < terms start inc last ↔ start + k * inc ≤ last := by
  have hk : 0 ≤ (k : ℤ) * inc := Int.mul_nonneg (Int.natCast_nonneg k) hinc.le
  unfold terms
  rw [if_pos hinc]
  split
  next hlt => exact iff_of_false (Nat.not_lt_zero k) (by omega)
  next hge =>
    have hdiv : (k : ℤ) ≤ (last - start) / inc ↔ (k : ℤ) * inc ≤ last - start :=
      Int.le_ediv_iff_mul_le hinc
    have hnonneg : 0 ≤ (last - start) / inc := Int.ediv_nonneg (by omega) hinc.le
    omega

/-- The values of a descending range are not less than its end. -/
theorem lt_terms_iff_of_neg {start inc last : ℤ} (hinc : inc < 0) {k : ℕ} :
    k < terms start inc last ↔ last ≤ start + k * inc := by
  have hneg : 0 < -inc := by omega
  have hk : (k : ℤ) * -inc = -(k * inc) := by ring
  have hk' : 0 ≤ (k : ℤ) * -inc := Int.mul_nonneg (Int.natCast_nonneg k) hneg.le
  unfold terms
  rw [if_neg (by omega)]
  split
  next hlt => exact iff_of_false (Nat.not_lt_zero k) (by omega)
  next hge =>
    have hdiv : (k : ℤ) ≤ (start - last) / -inc ↔ (k : ℤ) * -inc ≤ start - last :=
      Int.le_ediv_iff_mul_le hneg
    have hnonneg : 0 ≤ (start - last) / -inc := Int.ediv_nonneg (by omega) hneg.le
    omega

/-- The indices that a group stands for. -/
def expansion : List ℤ → List ℕ
  | [val] => [val.toNat]
  | [start, last] => progression start 1 last
  | [start, inc, last] => progression start inc last
  | _ => []

/-- Groups that stand for indices. -/
def Valid : List ℤ → Prop
  | [val] => 0 ≤ val
  | [start, last] => 0 ≤ start ∧ 0 ≤ last
  | [start, inc, last] => 0 ≤ start ∧ 0 ≤ last ∧ inc ≠ 0
  | _ => False

/-- There is memory for the values of a range. -/
def Fits (capacity : ℕ) : List ℤ → Prop
  | [start, last] => terms start 1 last ≤ capacity
  | [start, inc, last] => terms start inc last ≤ capacity
  | _ => True

/-- Groups for which no exception is thrown. -/
def Accepted (capacity : ℕ) (group : List ℤ) : Prop := Valid group ∧ Fits capacity group

/-- The value after the last one of an ascending range exceeds the range of `int`. -/
def Wraps : List ℤ → Prop
  | [start, inc, last] => 0 < inc ∧ start ≤ last ∧ intMax < start + terms start inc last * inc
  | _ => False

/-! ### Groups -/

section Groups

variable {capacity : ℕ}

/-- The loop of a range without an increment. -/
theorem finish_pair {start last : ℤ} (h : 0 ≤ start ∧ 0 ≤ last) :
    finish capacity [start, last] =
      if terms start 1 last ≤ capacity then .ok (progression start 1 last)
      else .error .badAlloc := by
  have hnext : ∀ k : ℕ, (start + k * 1).toNat + 1 = (start + (k + 1 : ℕ) * 1).toNat := by
    intro k
    omega
  have hgo : ∀ k : ℕ, k < terms start 1 last →
      decide (last.toNat < (start + k * 1).toNat) = false := by
    intro k hk
    rw [lt_terms_iff_of_pos Int.one_pos] at hk
    exact decide_eq_false (by omega)
  have hzero : start.toNat = (start + (0 : ℕ) * 1).toNat := by omega
  rw [finish, if_neg (by omega), hzero]
  split
  next hfits =>
    refine grow_enough (f := fun k : ℕ => (start + k * 1).toNat) hfits
      (fun k hk => ⟨hgo k hk, congrArg some (hnext k)⟩) ?_
    have hend := Nat.lt_irrefl (terms start 1 last)
    rw [lt_terms_iff_of_pos Int.one_pos] at hend
    exact decide_eq_true (by omega)
  next hfits =>
    exact grow_short (f := fun k : ℕ => (start + k * 1).toNat)
      (fun k hk => ⟨hgo k (by omega), congrArg some (hnext k)⟩) (hgo capacity (by omega))

/-- The loop of a range with an increment. -/
def steps (capacity : ℕ) (start inc last : ℤ) : Except Abort (List ℤ) :=
  grow (fun val => if inc > 0 then last < val else val < last)
    (fun val => if val + inc ≤ intMax then some (val + inc) else none) capacity start

section Steps

variable {start inc last : ℤ}

theorem value_succ (start inc : ℤ) (k : ℕ) :
    start + (k + 1 : ℕ) * inc = start + k * inc + inc := by
  push_cast
  ring

/-- The loop goes on for the values of the range. -/
theorem not_beyond (hinc : inc ≠ 0) {k : ℕ} (hk : k < terms start inc last) :
    (if inc > 0 then decide (last < start + k * inc)
      else decide (start + k * inc < last)) = false := by
  rcases lt_or_gt_of_ne hinc with hneg | hpos
  · rw [lt_terms_iff_of_neg hneg] at hk
    rw [if_neg (by omega)]
    exact decide_eq_false (by omega)
  · rw [lt_terms_iff_of_pos hpos] at hk
    rw [if_pos hpos]
    exact decide_eq_false (by omega)

/-- The loop stops after them. -/
theorem beyond (hinc : inc ≠ 0) {k : ℕ} (hk : ¬k < terms start inc last) :
    (if inc > 0 then decide (last < start + k * inc)
      else decide (start + k * inc < last)) = true := by
  rcases lt_or_gt_of_ne hinc with hneg | hpos
  · rw [lt_terms_iff_of_neg hneg] at hk
    rw [if_neg (by omega)]
    exact decide_eq_true (by omega)
  · rw [lt_terms_iff_of_pos hpos] at hk
    rw [if_pos hpos]
    exact decide_eq_true (by omega)

/-- The value after one of the range is in the range of `int`, unless it is the last one. -/
theorem next_le_intMax (hinc : inc ≠ 0) (hstart : start < 2 ^ 31) (hlast : last < 2 ^ 31) {k : ℕ}
    (hk : k < terms start inc last)
    (hnext : k + 1 < terms start inc last ∨ ¬Wraps [start, inc, last]) :
    start + k * inc + inc ≤ intMax := by
  rw [← value_succ]
  unfold intMax
  rcases lt_or_gt_of_ne hinc with hneg | hpos
  · -- descending values are not greater than the first one
    have hnonpos : (k + 1 : ℕ) * inc ≤ 0 :=
      Int.mul_nonpos_of_nonneg_of_nonpos (Int.natCast_nonneg _) hneg.le
    omega
  · by_cases hlt : k + 1 < terms start inc last
    · rw [lt_terms_iff_of_pos hpos] at hlt
      omega
    · have hterms : terms start inc last = k + 1 := by omega
      have hle : start ≤ last := by
        by_contra hgt
        unfold terms at hk
        rw [if_pos hpos, if_pos (by omega)] at hk
        exact Nat.not_lt_zero k hk
      have hwraps : ¬(0 < inc ∧ start ≤ last ∧
          intMax < start + terms start inc last * inc) := hnext.resolve_left hlt
      rw [hterms] at hwraps
      unfold intMax at hwraps
      omega

/-- What one pass of the loop does. -/
theorem pass (hinc : inc ≠ 0) (hstart : start < 2 ^ 31) (hlast : last < 2 ^ 31) {k : ℕ}
    (hk : k < terms start inc last)
    (hnext : k + 1 < terms start inc last ∨ ¬Wraps [start, inc, last]) :
    (if inc > 0 then decide (last < start + k * inc)
        else decide (start + k * inc < last)) = false ∧
      (if start + k * inc + inc ≤ intMax then some (start + k * inc + inc) else none) =
        some (start + (k + 1 : ℕ) * inc) := by
  refine ⟨not_beyond hinc hk, ?_⟩
  rw [if_pos (next_le_intMax hinc hstart hlast hk hnext), value_succ]

theorem value_zero (start inc : ℤ) : start + (0 : ℕ) * inc = start := by simp

/-- The loop starts with the first value of the range. -/
theorem steps_eq (capacity : ℕ) (start inc last : ℤ) :
    steps capacity start inc last =
      grow (fun val => if inc > 0 then last < val else val < last)
        (fun val => if val + inc ≤ intMax then some (val + inc) else none) capacity
        (start + (0 : ℕ) * inc) := by
  rw [value_zero, steps]

/-- A range for whose values there is no memory. -/
theorem steps_of_short (hinc : inc ≠ 0) (hstart : start < 2 ^ 31) (hlast : last < 2 ^ 31)
    (hshort : capacity < terms start inc last) :
    steps capacity start inc last = .error .badAlloc := by
  rw [steps_eq]
  apply grow_short (f := fun k : ℕ => start + k * inc)
  · intro k hk
    exact pass hinc hstart hlast (by omega) (Or.inl (by omega))
  · exact not_beyond hinc hshort

/-- The value after the last one of a range is computed. -/
theorem steps_of_wraps (hinc : inc ≠ 0) (hstart : start < 2 ^ 31) (hlast : last < 2 ^ 31)
    (hfits : terms start inc last ≤ capacity) (hwraps : Wraps [start, inc, last]) :
    steps capacity start inc last = .error .undefined := by
  obtain ⟨hpos, hle, hmax⟩ : 0 < inc ∧ start ≤ last ∧
      intMax < start + terms start inc last * inc := hwraps
  obtain ⟨n, hn⟩ : ∃ n, terms start inc last = n + 1 := by
    have hfirst : 0 < terms start inc last :=
      (lt_terms_iff_of_pos hpos).mpr (by rw [value_zero]; exact hle)
    exact ⟨terms start inc last - 1, by omega⟩
  rw [hn, value_succ] at hmax
  rw [steps_eq]
  apply grow_undefined (f := fun k : ℕ => start + k * inc) (n := n)
  · omega
  · intro k hk
    exact pass hinc hstart hlast (by omega) (Or.inl (by omega))
  · exact not_beyond hinc (by omega)
  · exact if_neg (by omega)

/-- The loop stops after the values of the range. -/
theorem steps_of_fits (hinc : inc ≠ 0) (hstart : start < 2 ^ 31) (hlast : last < 2 ^ 31)
    (hfits : terms start inc last ≤ capacity) (hwraps : ¬Wraps [start, inc, last]) :
    steps capacity start inc last =
      .ok ((List.range (terms start inc last)).map fun (k : ℕ) => start + k * inc) := by
  rw [steps_eq]
  apply grow_enough (f := fun k : ℕ => start + k * inc) hfits
  · intro k hk
    exact pass hinc hstart hlast hk (Or.inr hwraps)
  · exact beyond hinc (Nat.lt_irrefl _)

end Steps

theorem finish_triple {start inc last : ℤ} (h : 0 ≤ start ∧ 0 ≤ last) (hinc : inc ≠ 0) :
    finish capacity [start, inc, last] = (steps capacity start inc last).map
      (List.map Int.toNat) := by
  rw [finish, if_neg (by omega), if_neg hinc]
  rfl

variable {group : List ℤ}

/-- **Ranges are expanded.** -/
theorem finish_of_accepted (hgroup : ∀ v ∈ group, v < 2 ^ 31) (haccepted : Accepted capacity group)
    (hwraps : ¬Wraps group) : finish capacity group = .ok (expansion group) := by
  obtain ⟨hvalid, hfits⟩ := haccepted
  match group with
  | [] => exact hvalid.elim
  | [val] => exact if_neg (by simpa [Valid] using hvalid)
  | [start, last] =>
    rw [finish_pair hvalid]
    exact if_pos hfits
  | [start, inc, last] =>
    obtain ⟨hstart, hlast, hinc⟩ := hvalid
    rw [finish_triple ⟨hstart, hlast⟩ hinc, steps_of_fits hinc (hgroup start (by simp))
      (hgroup last (by simp)) hfits hwraps]
    simp [Except.map, expansion, progression]
  | _ :: _ :: _ :: _ :: _ => exact hvalid.elim

/-- A value that exceeds the range of `int` is computed. -/
theorem finish_of_wraps (hgroup : ∀ v ∈ group, v < 2 ^ 31) (haccepted : Accepted capacity group)
    (hwraps : Wraps group) : finish capacity group = .error .undefined := by
  obtain ⟨hvalid, hfits⟩ := haccepted
  match group with
  | [] => exact hwraps.elim
  | [_] => exact hwraps.elim
  | [_, _] => exact hwraps.elim
  | [start, inc, last] =>
    obtain ⟨hstart, hlast, hinc⟩ := hvalid
    rw [finish_triple ⟨hstart, hlast⟩ hinc, steps_of_wraps hinc (hgroup start (by simp))
      (hgroup last (by simp)) hfits hwraps]
    rfl
  | _ :: _ :: _ :: _ :: _ => exact hwraps.elim

/-- An exception is thrown. -/
theorem finish_of_not_accepted (hgroup : ∀ v ∈ group, v < 2 ^ 31)
    (haccepted : ¬Accepted capacity group) :
    ∃ e, finish capacity group = .error e ∧ e ≠ .undefined := by
  match group with
  | [] => exact ⟨_, rfl, by simp⟩
  | [val] =>
    have hneg : val < 0 := by simpa [Accepted, Valid, Fits] using haccepted
    exact ⟨_, if_pos hneg, by simp⟩
  | [start, last] =>
    by_cases hvalid : 0 ≤ start ∧ 0 ≤ last
    · have hfits : ¬terms start 1 last ≤ capacity := fun hfits => haccepted ⟨hvalid, hfits⟩
      rw [finish_pair hvalid, if_neg hfits]
      exact ⟨_, rfl, by simp⟩
    · exact ⟨_, if_pos (by omega), by simp⟩
  | [start, inc, last] =>
    by_cases hsign : 0 ≤ start ∧ 0 ≤ last
    · by_cases hinc : inc = 0
      · rw [finish, if_neg (by omega), if_pos hinc]
        exact ⟨_, rfl, by simp⟩
      · have hfits : ¬terms start inc last ≤ capacity :=
          fun hfits => haccepted ⟨⟨hsign.1, hsign.2, hinc⟩, hfits⟩
        rw [finish_triple hsign hinc, steps_of_short hinc (hgroup start (by simp))
          (hgroup last (by simp)) (by omega)]
        exact ⟨_, rfl, by simp⟩
    · exact ⟨_, if_pos (by omega), by simp⟩
  | _ :: _ :: _ :: _ :: _ => exact ⟨_, rfl, by simp⟩

end Groups

/-! ### Texts -/

/-- No group that is reached computes a value beyond the range of `int`. -/
def Unwrapped (capacity : ℕ) (groups : List (List ℤ)) : Prop :=
  ∀ before group after, groups = before ++ group :: after →
    (∀ g ∈ before ++ [group], Accepted capacity g) → ¬Wraps group

section Texts

variable {capacity : ℕ}

theorem unwrapped_nil : Unwrapped capacity [] := by
  intro before group after h
  simp at h

theorem unwrapped_cons {group : List ℤ} {groups : List (List ℤ)} :
    Unwrapped capacity (group :: groups) ↔
      (Accepted capacity group → ¬Wraps group ∧ Unwrapped capacity groups) := by
  constructor
  · intro h hgroup
    constructor
    · exact h [] group groups rfl (by simpa using hgroup)
    · intro before g after heq haccepted
      apply h (group :: before) g after (by rw [heq]; rfl)
      exact List.forall_mem_cons.mpr ⟨hgroup, haccepted⟩
  · intro h before g after heq haccepted
    cases before with
    | nil =>
      cases heq
      exact (h (by simpa using haccepted)).1
    | cons first before =>
      cases heq
      obtain ⟨hfirst, hrest⟩ := List.forall_mem_cons.mp haccepted
      exact (h hfirst).2 before g after rfl hrest

/-- What a text without a failure, with an exception and with an overflow yields. -/
inductive Outcome (capacity : ℕ) (groups : List (List ℤ)) : Except Abort (List ℕ) → Prop
  | expanded (hwraps : Unwrapped capacity groups) (hvalid : ∀ g ∈ groups, Valid g) :
      Outcome capacity groups (.ok (groups.flatMap expansion))
  | thrown {e} (hwraps : Unwrapped capacity groups) (he : e ≠ .undefined) :
      Outcome capacity groups (.error e)
  | undefined (hwraps : ¬Unwrapped capacity groups) : Outcome capacity groups (.error .undefined)

/-- The groups are expanded one after the other. -/
theorem contents_outcome {groups : List (List ℤ)} (h : ∀ group ∈ groups, ∀ v ∈ group, v < 2 ^ 31) :
    Outcome capacity groups (contents (finish capacity) groups) := by
  induction groups with
  | nil => exact .expanded unwrapped_nil (List.forall_mem_nil _)
  | cons group groups ih =>
    obtain ⟨hgroup, hgroups⟩ := List.forall_mem_cons.mp h
    rw [contents]
    by_cases haccepted : Accepted capacity group
    · by_cases hwraps : Wraps group
      · rw [finish_of_wraps hgroup haccepted hwraps]
        exact .undefined fun hunwrapped => (unwrapped_cons.mp hunwrapped haccepted).1 hwraps
      · rw [finish_of_accepted hgroup haccepted hwraps]
        have hrest := ih hgroups
        have hiff : Unwrapped capacity (group :: groups) ↔ Unwrapped capacity groups := by
          rw [unwrapped_cons]
          exact ⟨fun h => (h haccepted).2, fun h _ => ⟨hwraps, h⟩⟩
        generalize contents (finish capacity) groups = r at hrest
        cases hrest with
        | expanded hunwrapped hvalid =>
          exact .expanded (hiff.mpr hunwrapped)
            (List.forall_mem_cons.mpr ⟨haccepted.1, hvalid⟩)
        | thrown hunwrapped he => exact .thrown (hiff.mpr hunwrapped) he
        | undefined hunwrapped => exact .undefined (mt hiff.mp hunwrapped)
    · obtain ⟨e, he, hne⟩ := finish_of_not_accepted hgroup haccepted
      rw [he]
      exact .thrown (unwrapped_cons.mpr fun h => absurd h haccepted) hne

/-- The groups of integers that a text consists of. -/
inductive Denotes : List Char → List (List ℤ) → Prop
  | empty {t} (h : Blank t) : Denotes t []
  | groups {t gs} (h : ListText (ListText (IntText 32) ':') ',' t gs) : Denotes t gs

theorem denotes_groups {val : String}
    (hrest : ((grammar val.toList).getD ([], skip val.toList)).2 = []) :
    Denotes val.toList (groups val) := by
  unfold groups
  cases hgrammar : grammar val.toList with
  | none =>
    rw [hgrammar] at hrest
    obtain ⟨w, hw, hskip⟩ := exists_blank_skip val.toList
    have hblank : val.toList = w := by
      rw [hskip, show skip val.toList = [] from hrest, List.append_nil]
    exact .empty (hblank ▸ hw)
  | some r =>
    rw [hgrammar] at hrest
    have hsound : Sound grammar (ListText (ListText (IntText 32) ':') ',') :=
      list_sound (list_sound (int_sound 32) (padded_tokenText _) )
        (padded_listText (padded_tokenText _) _)
    obtain ⟨t, ht, hlist⟩ := hsound val.toList r.1 r.2 hgrammar
    rw [show r.2 = [] from hrest, List.append_nil] at ht
    exact .groups (ht ▸ hlist)

/-- **Ranges are expanded as they are written, or an exception is thrown, exactly if no ascending
range is reached for which the value after the last one exceeds the range of `int`.** -/
theorem parse_expands_iff (capacity : ℕ) (val : String) :
    ((∃ e, parse capacity val = .error e ∧ e ≠ .undefined) ∨
      ∃ gs, Denotes val.toList gs ∧ (∀ g ∈ gs, Valid g) ∧
        parse capacity val = .ok (gs.flatMap expansion)) ↔
      ∀ before group after, groups val = before ++ group :: after →
        (∀ g ∈ before ++ [group], Accepted capacity g) → ¬Wraps group := by
  have hcontents : Outcome capacity (groups val) (contents (finish capacity) (groups val)) :=
    contents_outcome lt_of_mem_groups
  have hparse : parse capacity val = contents (finish capacity) (groups val) >>= fun mContents =>
      if ((grammar val.toList).getD ([], skip val.toList)).2 ≠ [] then
        .error (.exception (.invalidArgument "IndexSequence: Parsing of initialiser string failed."))
      else .ok mContents := rfl
  rw [hparse]
  change _ ↔ Unwrapped capacity (groups val)
  generalize contents (finish capacity) (groups val) = r at hcontents
  cases hcontents with
  | expanded hunwrapped hvalid =>
    refine iff_of_true ?_ hunwrapped
    -- the ranges are expanded before a rest of the text is noticed
    by_cases hrest : ((grammar val.toList).getD ([], skip val.toList)).2 = []
    · refine Or.inr ⟨groups val, denotes_groups hrest, hvalid, ?_⟩
      exact if_neg (not_not_intro hrest)
    · exact Or.inl ⟨_, if_pos hrest, nofun⟩
  | thrown hunwrapped he => exact iff_of_true (Or.inl ⟨_, rfl, he⟩) hunwrapped
  | undefined hwraps =>
    refine iff_of_false ?_ hwraps
    rintro (⟨e, he, hne⟩ | ⟨gs, -, -, hgs⟩)
    · cases he
      exact hne rfl
    · cases hgs

/-- A range at the end of the range of `int`. -/
theorem parse_largest_int :
    ¬((∃ e, parse 2 "2147483647:1:2147483647" = .error e ∧ e ≠ .undefined) ∨
      ∃ gs, Denotes "2147483647:1:2147483647".toList gs ∧ (∀ g ∈ gs, Valid g) ∧
        parse 2 "2147483647:1:2147483647" = .ok (gs.flatMap expansion)) := by
  have hparse : parse 2 "2147483647:1:2147483647" = .error .undefined := by decide +kernel
  rw [hparse]
  rintro (⟨e, he, hne⟩ | ⟨gs, -, -, hgs⟩)
  · cases he
    exact hne rfl
  · cases hgs

end Texts

end IndexSequence

end Visr
