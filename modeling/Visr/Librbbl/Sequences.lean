import Mathlib.Data.Int.Notation
import Visr.Libefl.Basic
import Visr.Library.Grammar

/-!
# Sequences of indices and of numbers as texts

`IndexSequence` and `FloatSequence` are given as texts: values and ranges `start:end` or
`start:increment:end`, separated by commas.

## Main results

* `IndexSequence.parse_indices`, `FloatSequence.parse_toString` — sequences without ranges are
  read back.
* `IndexSequence.parse_result` — all indices are less than `2 ^ 31`.
* `IndexSequence.handled_parse_iff`, `FloatSequence.handled_parse_iff` — the texts with which
  only exceptions of the standard library are thrown.
-/

namespace Visr

open Grammar

/-- `while( not stop( val ) ) { push_back( val ); val = next( val ); }`, where there is memory for
`capacity` values and the next value may be undefined. -/
def grow {V : Type} (stop : V → Bool) (next : V → Option V) : ℕ → V → Except Abort (List V)
  | 0, val => if stop val then .ok [] else .error .badAlloc
  | capacity + 1, val =>
    if stop val then .ok []
    else
      match next val with
      | none => .error .undefined
      | some val' => (grow stop next capacity val').map (val :: ·)

theorem grow_result {V : Type} {stop : V → Bool} {next : V → Option V} {P : V → Prop}
    (hnext : ∀ v v', P v → next v = some v' → P v') {capacity : ℕ} {val : V} (hval : P val)
    {values : List V} (h : grow stop next capacity val = .ok values) :
    ∀ v ∈ values, P v ∧ stop v = false := by
  induction capacity generalizing val values with
  | zero =>
    rw [grow] at h
    split at h <;> cases h
    exact List.forall_mem_nil _
  | succ capacity ih =>
    rw [grow] at h
    split at h
    · cases h
      exact List.forall_mem_nil _
    next hstop =>
      split at h
      · cases h
      next val' hval' =>
        obtain ⟨rest, hrest, rfl⟩ := exists_of_map_ok h
        refine List.forall_mem_cons.mpr ⟨⟨hval, ?_⟩, ih (hnext _ _ hval hval') hrest⟩
        exact eq_false_of_ne_true hstop

/-- The action at the end of each group, for all groups of a text. -/
def contents {V W : Type} (finish : List V → Except Abort (List W)) :
    List (List V) → Except Abort (List W)
  | [] => .ok []
  | group :: groups => do
    let values ← finish group
    let rest ← contents finish groups
    return values ++ rest

theorem contents_result {V W : Type} {finish : List V → Except Abort (List W)} {Q : V → Prop}
    {P : W → Prop}
    (hfinish : ∀ group values, (∀ v ∈ group, Q v) → finish group = .ok values → ∀ w ∈ values, P w)
    {groups : List (List V)} (hgroups : ∀ group ∈ groups, ∀ v ∈ group, Q v) {values : List W}
    (h : contents finish groups = .ok values) : ∀ w ∈ values, P w := by
  induction groups generalizing values with
  | nil =>
    cases h
    exact List.forall_mem_nil _
  | cons group groups ih =>
    obtain ⟨hgroup, hgroups⟩ := List.forall_mem_cons.mp hgroups
    obtain ⟨first, hfirst, h⟩ := exists_of_bind_ok h
    obtain ⟨rest, hrest, h⟩ := exists_of_bind_ok h
    cases h
    intro w hw
    rcases List.mem_append.mp hw with hw | hw
    · exact hfinish group first hgroup hfirst w hw
    · exact ih hgroups hrest w hw

/-- Groups of one value each, if single values are appended as they are. -/
theorem contents_singletons {V W : Type} {finish : List V → Except Abort (List W)} {f : W → V}
    {values : List W} (hfinish : ∀ w ∈ values, finish [f w] = .ok [w]) :
    contents finish (values.map fun w => [f w]) = .ok values := by
  induction values with
  | nil => rfl
  | cons w values ih =>
    obtain ⟨hw, hvalues⟩ := List.forall_mem_cons.mp hfinish
    rw [List.map_cons, contents, hw, ih hvalues]
    rfl

/-! ### Failures -/

/-- The loop throws `std::bad_alloc` at most, if the next value is always defined. -/
theorem handled_grow {V : Type} {stop : V → Bool} {next : V → Option V} {P : V → Prop}
    (hnext : ∀ v, P v → ∃ v', next v = some v' ∧ P v') {val : V} (hval : P val) (capacity : ℕ) :
    Handled (grow stop next capacity val) := by
  induction capacity generalizing val with
  | zero =>
    rw [grow]
    split
    · exact handled_ok _
    · exact handled_error.mpr rfl
  | succ capacity ih =>
    obtain ⟨val', hval', hP⟩ := hnext val hval
    rw [grow, hval']
    split
    · exact handled_ok _
    · exact handled_map.mpr (ih hP)

/-- A condition on all groups up to the first one that is not accepted. -/
def AllReached {V W : Type} (finish : List V → Except Abort (List W)) (P : List V → Prop) :
    List (List V) → Prop
  | [] => True
  | group :: groups =>
    P group ∧ ∀ values, finish group = .ok values → AllReached finish P groups

theorem handled_contents_iff {V W : Type} {finish : List V → Except Abort (List W)}
    {P : List V → Prop} {groups : List (List V)}
    (h : ∀ group ∈ groups, Handled (finish group) ↔ P group) :
    Handled (contents finish groups) ↔ AllReached finish P groups := by
  induction groups with
  | nil => exact iff_of_true (handled_ok _) trivial
  | cons group groups ih =>
    obtain ⟨hgroup, hgroups⟩ := List.forall_mem_cons.mp h
    rw [contents, handled_bind, hgroup, AllReached]
    refine and_congr_right fun _ => forall_congr' fun values => forall_congr' fun _ => ?_
    rw [handled_bind, ih hgroups]
    exact and_iff_left fun _ _ => handled_pure _

theorem defined_contents {V W : Type} {finish : List V → Except Abort (List W)}
    {groups : List (List V)} (h : ∀ group, Defined (finish group)) :
    Defined (contents finish groups) := by
  induction groups with
  | nil => exact defined_ok _
  | cons group groups ih => exact (h group).bind fun _ _ => ih.bind fun _ _ => defined_pure _

/-! ### Indices -/

namespace IndexSequence

/-- The largest value of the type `int`. -/
def intMax : ℤ := 2 ^ 31 - 1

/-- `ParseState::finish()`, applied to the values of a group. -/
def finish (capacity : ℕ) : List ℤ → Except Abort (List ℕ)
  | [] => .error (.exception (.invalidArgument "Internal parse error."))
  | [val] =>
    if val < 0 then
      .error (.literal "IndexSequence: Indices must be greater or equal than zero.")
    else .ok [val.toNat]
  | [start, last] =>
    if start < 0 ∨ last < 0 then
      .error (.literal ("IndexSequence: The start and end values of a range must be greater or " ++
        "equal than zero."))
    else grow (fun val => last.toNat < val) (fun val => some (val + 1)) capacity start.toNat
  | [start, inc, last] =>
    if start < 0 ∨ last < 0 then
      .error (.literal ("IndexSequence: The start and end values of a range must be greater or " ++
        "equal than zero."))
    else if inc = 0 then
      .error (.literal "IndexSequence: The increment of a range must not be zero.")
    else
      (grow (fun val => if inc > 0 then last < val else val < last)
        (fun val => if val + inc ≤ intMax then some (val + inc) else none) capacity start).map
          (List.map Int.toNat)
  | _ => .error (.exception
      (.invalidArgument "IndexSequence: Sequence of more than three colon-separated values."))

/-- Values separated by colons, in groups that are separated by commas. -/
def grammar : Parser (List (List ℤ)) := list (list (int 32) ':') ','

/-- The constructor from a text, which may be empty. -/
def parse (capacity : ℕ) (val : String) : Except Abort (List ℕ) := do
  let parsed := (grammar val.toList).getD ([], skip val.toList)
  let mContents ← contents (finish capacity) parsed.1
  if parsed.2 ≠ [] then
    .error (.exception (.invalidArgument "IndexSequence: Parsing of initialiser string failed."))
  else .ok mContents

theorem finish_result {capacity : ℕ} {group : List ℤ} {values : List ℕ}
    (hgroup : ∀ v ∈ group, v < 2 ^ 31) (h : finish capacity group = .ok values) :
    ∀ i ∈ values, i < 2 ^ 31 := by
  unfold finish at h
  split at h
  · cases h
  next val =>
    split at h <;> cases h
    have hval := hgroup val List.mem_cons_self
    intro i hi
    rw [List.mem_singleton] at hi
    omega
  next start last =>
    split at h
    · cases h
    · intro i hi
      -- a value that has been appended is not greater than the last one
      have hstop := (grow_result (P := fun _ => True) (fun _ _ _ _ => trivial) trivial h i hi).2
      have hlast := hgroup last (by simp)
      have hle := of_decide_eq_false hstop
      omega
  next start inc last =>
    split at h
    · cases h
    · split at h
      · cases h
      · obtain ⟨ints, hints, rfl⟩ := exists_of_map_ok h
        have hstart := hgroup start (by simp)
        -- the next value has been compared with the greatest integer
        have hmem := grow_result (P := fun v => v < 2 ^ 31) ?_ hstart hints
        · intro i hi
          obtain ⟨v, hv, rfl⟩ := List.mem_map.mp hi
          have hlt := (hmem v hv).1
          omega
        · intro v v' _ hv'
          split at hv' <;> cases hv'
          next hmax =>
            unfold intMax at hmax
            omega
  · cases h

/-- The groups of a text, up to the first one that does not match the grammar. -/
def groups (val : String) : List (List ℤ) :=
  ((grammar val.toList).getD ([], skip val.toList)).1

/-- All numbers in a text are of the type `int`. -/
theorem lt_of_mem_groups {val : String} :
    ∀ group ∈ groups val, ∀ v ∈ group, v < 2 ^ 31 := by
  unfold groups
  cases hgrammar : grammar val.toList with
  | none => exact List.forall_mem_nil _
  | some r =>
    have hint : ∀ s r, int 32 s = some r → r.1 < 2 ^ 31 := fun s r =>
      token_result (P := fun v => v < 2 ^ 31) fun _ _ => signed_result
    have hgroup : ∀ s r, list (int 32) ':' s = some r → ∀ v ∈ r.1, v < 2 ^ 31 := fun s r =>
      list_result hint
    exact list_result (P := fun group => ∀ v ∈ group, v < 2 ^ 31) hgroup hgrammar

/-- **All indices are less than `2 ^ 31`**, as the values in the text are of the type `int`. -/
theorem parse_result {capacity : ℕ} {val : String} {indices : List ℕ}
    (h : parse capacity val = .ok indices) : ∀ i ∈ indices, i < 2 ^ 31 := by
  unfold parse at h
  obtain ⟨values, hvalues, h⟩ := exists_of_bind_ok h
  have heq : values = indices := by
    by_cases hrest : ((grammar val.toList).getD ([], skip val.toList)).2 ≠ []
    · rw [if_pos hrest] at h
      cases h
    · rw [if_neg hrest] at h
      exact Except.ok.inj h
  subst heq
  exact contents_result (Q := fun v => v < 2 ^ 31) (fun _ _ => finish_result) lt_of_mem_groups
    hvalues

/-- The groups for which no string literal is thrown, and for which no index is computed that
exceeds the range of `int`. -/
def Harmless (capacity : ℕ) : List ℤ → Prop
  | [val] => 0 ≤ val
  | [start, last] => 0 ≤ start ∧ 0 ≤ last
  | [start, inc, last] => 0 ≤ start ∧ 0 ≤ last ∧ inc ≠ 0 ∧
      (0 < inc → ∀ k < capacity, start + k * inc ≤ last → start + (k + 1) * inc ≤ intMax)
  | _ => True

/-- A range with a positive increment, as long as there is memory. -/
theorem handled_grow_iff {inc : ℤ} (hinc : 0 < inc) (start last : ℤ) (capacity : ℕ) :
    Handled (grow (fun val => last < val)
        (fun val => if val + inc ≤ intMax then some (val + inc) else none) capacity start) ↔
      ∀ k < capacity, start + k * inc ≤ last → start + (k + 1) * inc ≤ intMax := by
  have hmul (k : ℤ) : (k + 1) * inc = k * inc + inc := by rw [Int.add_mul, Int.one_mul]
  induction capacity generalizing start with
  | zero =>
    refine iff_of_true ?_ nofun
    rw [grow]
    split
    · exact handled_ok _
    · exact handled_error.mpr rfl
  | succ capacity ih =>
    rw [grow]
    by_cases hlast : last < start
    · rw [if_pos (decide_eq_true hlast)]
      refine iff_of_true (handled_ok _) fun k _ hk => ?_
      have hnonneg : 0 ≤ k * inc := Int.mul_nonneg (Int.natCast_nonneg k) (Int.le_of_lt hinc)
      omega
    · rw [if_neg (by simpa using hlast)]
      by_cases hmax : start + inc ≤ intMax
      · rw [if_pos hmax]
        dsimp only
        refine handled_map.trans ((ih (start + inc)).trans ?_)
        constructor
        · intro h k hk hle
          cases k with
          | zero =>
            rw [hmul]
            omega
          | succ k =>
            have hnext := h k (by omega)
            rw [Int.natCast_succ] at hle ⊢
            simp only [hmul] at hnext hle ⊢
            omega
        · intro h k hk hle
          have hnext := h (k + 1) (by omega)
          rw [Int.natCast_succ] at hnext
          simp only [hmul] at hnext ⊢
          omega
      · -- the next value overflows, although the current one is in the range
        rw [if_neg hmax]
        refine iff_of_false (fun h => absurd (handled_error.mp h) Bool.false_ne_true) fun h => ?_
        have hfirst := h 0 (Nat.succ_pos capacity)
        rw [hmul] at hfirst
        omega

theorem handled_finish_iff {capacity : ℕ} {group : List ℤ} (hgroup : ∀ v ∈ group, v < 2 ^ 31) :
    Handled (finish capacity group) ↔ Harmless capacity group := by
  have hliteral : ∀ {what : String} {α : Type}, ¬ Handled (.error (.literal what) :
      Except Abort α) := fun h => absurd (handled_error.mp h) Bool.false_ne_true
  match group with
  | [] => exact iff_of_true (handled_error.mpr rfl) trivial
  | [val] =>
    rw [finish, Harmless]
    split
    next hneg => exact iff_of_false hliteral (by omega)
    next hnonneg => exact iff_of_true (handled_ok _) (by omega)
  | [start, last] =>
    rw [finish, Harmless]
    split
    next hneg => exact iff_of_false hliteral (by omega)
    next hnonneg =>
      refine iff_of_true ?_ (by omega)
      exact handled_grow (P := fun _ => True) (fun v _ => ⟨v + 1, rfl, trivial⟩) trivial capacity
  | [start, inc, last] =>
    rw [finish, Harmless]
    split
    next hneg => exact iff_of_false hliteral (by omega)
    next hnonneg =>
      split
      next hzero => exact iff_of_false hliteral (by omega)
      next hzero =>
        rw [handled_map]
        by_cases hinc : 0 < inc
        · simp only [gt_iff_lt, hinc, if_true]
          rw [handled_grow_iff hinc]
          exact ⟨fun h => ⟨by omega, by omega, hzero, fun _ => h⟩, fun h => h.2.2.2 trivial⟩
        · -- The values decrease.
          refine iff_of_true ?_ ⟨by omega, by omega, hzero, fun h => absurd h hinc⟩
          refine handled_grow (P := fun val => val ≤ intMax) (fun v hv => ?_) ?_ capacity
          · exact ⟨v + inc, if_pos (by omega), by omega⟩
          · have hstart := hgroup start List.mem_cons_self
            unfold intMax
            omega
  | _ :: _ :: _ :: _ :: _ => exact iff_of_true (handled_error.mpr rfl) trivial

/-- The texts with which the constructor throws nothing but exceptions of the standard
library: up to the first group that is not accepted, all groups are harmless. -/
def HarmlessText (capacity : ℕ) (val : String) : Prop :=
  AllReached (finish capacity) (Harmless capacity) (groups val)

theorem handled_parse_iff {capacity : ℕ} {val : String} :
    Handled (parse capacity val) ↔ HarmlessText capacity val := by
  have hfinish : ∀ group ∈ groups val, Handled (finish capacity group) ↔ Harmless capacity group :=
    fun group hgroup => handled_finish_iff (lt_of_mem_groups group hgroup)
  have hcontents := handled_contents_iff hfinish
  unfold parse
  rw [handled_bind]
  refine Iff.trans (and_iff_left fun _ _ => ?_) hcontents
  split
  · exact handled_error.mpr rfl
  · exact handled_ok _

/-- A single number is a group. -/
theorem group_reads {i : ℕ} (hi : i < 2 ^ 31) :
    Reads (list (int 32) ':') (fun c => c = ',' ∨ False) (toString i).toList [(i : ℤ)] := by
  intro rest hrest
  have hstop : ∀ c, (c = ',' ∨ False) → c.isDigit = false := by
    rintro c (rfl | h)
    · rfl
    · exact h.elim
  have hread := int_reads (b := 32) hi hstop rest hrest
  have hcolon : char ':' (skip rest) = none := by
    refine char_eq_none fun d hd => ?_
    rw [skip_skip] at hd
    rcases hrest d hd with rfl | h
    · decide
    · exact h.elim
  have hfurther : ∀ n, further (int 32) ':' n (skip rest) = ([], skip rest) := by
    intro n
    cases n with
    | zero => rfl
    | succ n => rw [further, hcolon]
  rw [Nat.toString_eq_ofList_toDigits, String.toList_ofList, list, hread]
  simp only [Option.map_some, hfurther]

/-- **Indices that are separated by commas are read back.** -/
theorem parse_indices (capacity : ℕ) {indices : List ℕ} (h : ∀ i ∈ indices, i < 2 ^ 31) :
    parse capacity (commaText (indices.map toString)) = .ok indices := by
  have hcontents : contents (finish capacity) (indices.map fun (i : ℕ) => [(i : ℤ)]) =
      .ok indices := by
    refine contents_singletons fun i _ => ?_
    rw [finish, if_neg (by omega), Int.toNat_natCast]
  have hgrammar : (grammar (commaText (indices.map toString)).toList).getD
      ([], skip (commaText (indices.map toString)).toList) =
        (indices.map fun (i : ℕ) => [(i : ℤ)], []) := by
    rw [toList_commaText, List.map_map]
    by_cases hne : indices = []
    · subst hne
      rfl
    · have hread := list_reads (p := list (int 32) ':') (Q := fun _ => False)
        (t := String.toList ∘ toString) (v := fun (i : ℕ) => [(i : ℤ)])
        (list_skip (token_skip _) ':') id hne (fun i hi => group_reads (h i hi)) []
        (fun c hc => nomatch hc)
      rw [List.append_nil] at hread
      rw [grammar, hread]
      rfl
  rw [parse, hgrammar]
  show (contents (finish capacity) (indices.map fun (i : ℕ) => [(i : ℤ)]) >>= _) = _
  rw [hcontents]
  rfl

end IndexSequence

/-! ### Numbers -/

/-- The operations on the type of the numbers, and the constants of the libraries for it. -/
class FloatArithmetic (F : Type) extends Zero F, One F, Add F, Mul F, Div F where
  decidableEq : DecidableEq F
  le : F → F → Bool
  lt : F → F → Bool
  abs : F → F
  cos : F → F
  sin : F → F
  epsilon : F
  degree : F
  div_one (x : F) : x / 1 = x

instance {F : Type} [FloatArithmetic F] : DecidableEq F := FloatArithmetic.decidableEq

namespace FloatSequence

open FloatArithmetic

variable {F : Type} [FloatArithmetic F]

/-- `ParseState::finish()`, applied to the values of a group. -/
def finish (capacity : ℕ) : List F → Except Abort (List F)
  | [] => .error (.exception (.invalidArgument "Internal parse error."))
  | [val] => .ok [val]
  | [start, last] => grow (fun val => !le val last) (fun val => some (val + 1)) capacity start
  | [start, inc, last] =>
    if lt (abs inc) FloatArithmetic.epsilon then
      .error (.literal "FloatSequence: The increment of a range must not be zero.")
    else
      grow (fun val => if lt 0 inc then !le val last else !le last val)
        (fun val => some (val + inc)) capacity start
  | _ => .error (.exception
      (.invalidArgument "FloatSequence: Sequence of more than three colon-separated values."))

/-- The groups for which no string literal is thrown. -/
def Harmless : List F → Prop
  | [_, inc, _] => lt (abs inc) FloatArithmetic.epsilon = false
  | _ => True

theorem handled_finish_iff {capacity : ℕ} {group : List F} :
    Handled (finish capacity group) ↔ Harmless group := by
  have hgrow : ∀ (stop : F → Bool) (next : F → F) (val : F),
      Handled (grow stop (fun val => some (next val)) capacity val) := fun stop next val =>
    handled_grow (P := fun _ => True) (fun v _ => ⟨next v, rfl, trivial⟩) trivial capacity
  match group with
  | [] => exact iff_of_true (handled_error.mpr rfl) trivial
  | [val] => exact iff_of_true (handled_ok _) trivial
  | [start, last] => exact iff_of_true (hgrow _ _ _) trivial
  | [start, inc, last] =>
    rw [finish, Harmless]
    split
    next hsmall =>
      rw [hsmall]
      exact iff_of_false (fun h => Bool.false_ne_true (handled_error.mp h)) nofun
    next hlarge => exact iff_of_true (hgrow _ _ _) (eq_false_of_ne_true hlarge)
  | _ :: _ :: _ :: _ :: _ => exact iff_of_true (handled_error.mpr rfl) trivial

/-- The grammar, over a parser for single numbers. -/
def grammar (float_ : Parser F) : Parser (List (List F)) := list (list (token float_) ':') ','

/-- The constructor from a text. -/
def parse (capacity : ℕ) (float_ : Parser F) (val : String) : Except Abort (List F) :=
  let invalid : Abort :=
    .exception (.invalidArgument "SignalList: Parsing of initialiser string failed.")
  match grammar float_ val.toList with
  | none => .error invalid
  | some (groups, rest) => do
    let mContents ← contents (finish capacity) groups
    if rest ≠ [] then .error invalid else .ok mContents

/-- The texts with which the constructor throws nothing but exceptions of the standard
library: up to the first group that is not accepted, all groups are harmless. -/
def HarmlessText (capacity : ℕ) (float_ : Parser F) (val : String) : Prop :=
  ∀ groups rest, grammar float_ val.toList = some (groups, rest) →
    AllReached (finish capacity) Harmless groups

theorem handled_parse_iff {capacity : ℕ} {float_ : Parser F} {val : String} :
    Handled (parse capacity float_ val) ↔ HarmlessText capacity float_ val := by
  unfold parse HarmlessText
  cases grammar float_ val.toList with
  | none => exact iff_of_true (handled_error.mpr rfl) nofun
  | some r =>
    have hcontents : Handled (contents (finish capacity) r.1) ↔
        AllReached (finish capacity) Harmless r.1 :=
      handled_contents_iff fun _ _ => handled_finish_iff
    dsimp only
    rw [handled_bind, hcontents]
    refine ⟨?_, fun h => ⟨h r.1 r.2 rfl, fun _ _ => ?_⟩⟩
    · rintro ⟨h, -⟩ groups rest ⟨⟩
      exact h
    · split
      · exact handled_error.mpr rfl
      · exact handled_ok _

/-- Whatever the text is, the constructor has a result or throws. -/
theorem defined_parse (capacity : ℕ) (float_ : Parser F) (val : String) :
    Defined (parse capacity float_ val) := by
  have hfinish : ∀ group : List F, Defined (finish capacity group) := by
    intro group
    by_cases hgroup : Harmless group
    · exact (handled_finish_iff.mpr hgroup).defined
    · -- only the string literal is not handled
      match group with
      | [start, inc, last] =>
        have hsmall : lt (abs inc) FloatArithmetic.epsilon = true := eq_true_of_ne_false hgroup
        rw [finish, if_pos hsmall]
        exact nofun
      | [] => exact absurd trivial hgroup
      | [_] => exact absurd trivial hgroup
      | [_, _] => exact absurd trivial hgroup
      | _ :: _ :: _ :: _ :: _ => exact absurd trivial hgroup
  unfold parse
  cases grammar float_ val.toList with
  | none => exact defined_exception _
  | some r =>
    refine (defined_contents hfinish).bind fun values _ => ?_
    split
    · exact defined_exception _
    · exact defined_ok _

/-- `toString( ", " )`, where `insert` prints a single number. -/
def toString (insert : F → String) (values : List F) : String := commaText (values.map insert)

/-- **The values of a sequence are read back from its text**, if single numbers are. -/
theorem parse_toString (capacity : ℕ) {float_ : Parser F} {insert : F → String}
    (h : ∀ x, Reads (token float_) (fun c => c = ',') (insert x).toList x) {values : List F}
    (hne : values ≠ []) : parse capacity float_ (toString insert values) = .ok values := by
  have hgroup : ∀ x ∈ values, Reads (list (token float_) ':') (fun c => c = ',' ∨ False)
      (insert x).toList [x] := by
    intro x _ rest hrest
    have hread := h x rest fun c hc => (hrest c hc).resolve_right id
    -- no range begins with the number, as a comma or the end follows it
    have hcolon : char ':' (skip rest) = none := by
      refine char_eq_none fun d hd => ?_
      rw [skip_skip] at hd
      rw [(hrest d hd).resolve_right id]
      decide
    have hfurther : ∀ n, further (token float_) ':' n (skip rest) = ([], skip rest) := by
      intro n
      cases n with
      | zero => rfl
      | succ n => rw [further, hcolon]
    rw [list, hread]
    simp only [Option.map_some, hfurther]
  have hread := list_reads (p := list (token float_) ':') (Q := fun _ => False)
    (t := String.toList ∘ insert) (v := fun x => [x]) (list_skip (token_skip _) ':') id hne
    hgroup [] (by simp)
  rw [List.append_nil] at hread
  have hcontents : contents (finish capacity) (values.map fun x => [x]) = .ok values :=
    contents_singletons (f := id) fun x _ => rfl
  rw [parse, toString, toList_commaText, List.map_map, grammar, hread]
  show (contents (finish capacity) (values.map fun x => [x]) >>= _) = _
  rw [hcontents]
  rfl

end FloatSequence

end Visr
