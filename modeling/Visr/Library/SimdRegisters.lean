import Mathlib.Algebra.Ring.Defs
import Mathlib.Data.Nat.Init
import Mathlib.Tactic.IntervalCases

/-!
# Vector instructions

Registers of several lanes, the instructions on them, and loops that process an array in blocks
of the width of a register.  Addresses are counted in lanes.

## Main definitions

* `Register`, `Trap` — registers, and accesses that the processor refuses.
* `load`, `store`, `loadScalar`, `storeScalar`, `loadLow`, `storeLow` — accesses to memory.
* `permute`, `shuffle`, `addSub` — instructions across lanes.
* `whileAtLeast` — a loop over blocks.
* `applyOn` — the effect of an operation on the elements of an array.

## Main results

* `store_eq_ok` — storing a register, lane by lane.
* `permute_lower`, `permute_upper`, `permute_swap` — the lanes of pairs.
* `Progress.Reaches.whileAtLeast` — **what a loop over blocks has done**.
-/

namespace Simd

variable {R : Type}

/-- The lanes of a register. -/
abbrev Register (R : Type) (n : ℕ) := Fin n → R

/-- An instruction is not executed. -/
inductive Trap
  /-- An access that requires an address which is a multiple of its size. -/
  | unalignedAccess
  deriving DecidableEq, Repr

/-! ### Accesses to memory -/

/-- Whether an access of `n` lanes is possible. -/
def allowed (aligned : Bool) (n address : ℕ) : Bool := !aligned || address % n = 0

/-- `_mm_load_ps`, `_mm_loadu_ps` and the like. -/
def load (aligned : Bool) (n address : ℕ) (data : ℕ → R) : Except Trap (Register R n) :=
  if allowed aligned n address then .ok fun i => data i else .error .unalignedAccess

/-- `_mm_store_ps`, `_mm_storeu_ps` and the like, where `memory` begins at the address `base`. -/
def store (aligned : Bool) {n : ℕ} (base : ℕ) (memory : ℕ → R) (start : ℕ) (x : Register R n) :
    Except Trap (ℕ → R) :=
  if allowed aligned n (base + start) then
    .ok fun p => if h : start ≤ p ∧ p < start + n then x ⟨p - start, by omega⟩ else memory p
  else .error .unalignedAccess

/-- `_mm_load_ss`, `_mm_load_sd`: the other lanes are zero. -/
def loadScalar [Zero R] (n : ℕ) (data : ℕ → R) : Register R n :=
  fun i => if i.val = 0 then data 0 else 0

/-- `_mm_store_ss`, `_mm_store_sd`. -/
def storeScalar {n : ℕ} [NeZero n] (memory : ℕ → R) (start : ℕ) (x : Register R n) : ℕ → R :=
  fun p => if p = start then x 0 else memory p

/-- `_mm_loadl_pi`: the upper lanes are those of a register. -/
def loadLow (a : Register R 4) (data : ℕ → R) : Register R 4 :=
  fun i => if i.val < 2 then data i else a i

/-- `_mm_storel_pi`. -/
def storeLow (memory : ℕ → R) (start : ℕ) (x : Register R 4) : ℕ → R :=
  fun p => if h : start ≤ p ∧ p < start + 2 then x ⟨p - start, by omega⟩ else memory p

/-! ### Arithmetic -/

section Arithmetic

variable {n : ℕ}

/-- `_mm_set_ps1`, `_mm256_broadcast_ss` and the like. -/
def broadcast (n : ℕ) (c : R) : Register R n := fun _ => c

def mul [Mul R] (a b : Register R n) : Register R n := fun i => a i * b i

def add [Add R] (a b : Register R n) : Register R n := fun i => a i + b i

/-- The product of `a` and `b`, plus `c`. -/
def fmadd [Add R] [Mul R] (a b c : Register R n) : Register R n := fun i => a i * b i + c i

/-- An operation on the lowest lane; the other lanes are those of the first operand. -/
def onScalar (f : R → R → R) (a b : Register R n) : Register R n :=
  fun i => if i.val = 0 then f (a i) (b i) else a i

/-- `_mm_mul_ss`, `_mm_mul_sd`. -/
def mulScalar [Mul R] (a b : Register R n) : Register R n := onScalar (· * ·) a b

/-- `_mm_add_ss`, `_mm_add_sd`. -/
def addScalar [Add R] (a b : Register R n) : Register R n := onScalar (· + ·) a b

/-- `_mm_fmadd_ss`, `_mm_fmadd_sd`. -/
def fmaddScalar [Add R] [Mul R] (a b c : Register R n) : Register R n :=
  fun i => if i.val = 0 then a i * b i + c i else a i

/-- `_mm_addsub_ps`, `_mm256_addsub_ps`. -/
def addSub [Add R] [Sub R] (a b : Register R n) : Register R n :=
  fun i => if i.val % 2 = 0 then a i - b i else a i + b i

end Arithmetic

/-! ### Permutations -/

section Permutations

variable {m : ℕ}

/-- `_mm_permute_ps`, `_mm256_permute_ps`: in each group of four lanes, two bits of the control
select the source of a lane. -/
def permute (a : Register R (4 * m)) (control : ℕ) : Register R (4 * m) :=
  fun i => a ⟨4 * (i.val / 4) + control / 4 ^ (i.val % 4) % 4, by omega⟩

/-- `_mm_shuffle_ps`, `_mm256_shuffle_ps`: the lower two lanes of each group are taken from the
first register. -/
def shuffle (a b : Register R (4 * m)) (control : ℕ) : Register R (4 * m) :=
  fun i => if i.val % 4 < 2 then permute a control i else permute b control i

theorem shuffle_self (a : Register R (4 * m)) (control : ℕ) :
    shuffle a a control = permute a control := by
  funext i
  exact ite_self _

/-- The source of a lane, if it is known for each lane of a group. -/
theorem permute_eq {a : Register R (4 * m)} {control : ℕ} {f : ℕ → ℕ} {i : Fin (4 * m)}
    (hsource : ∀ k, f (4 * (i.val / 4) + k) = 4 * (i.val / 4) + f k)
    (hcontrol : ∀ k < 4, control / 4 ^ k % 4 = f k) (hlt : f i.val < 4 * m) :
    permute a control i = a ⟨f i.val, hlt⟩ := by
  unfold permute
  congr 2
  rw [hcontrol _ (Nat.mod_lt _ (by decide)), ← hsource, Nat.div_add_mod]

/-- The first lane of each pair. -/
theorem permute_lower (a : Register R (4 * m)) (i : Fin (4 * m)) :
    permute a 0xA0 i = a ⟨i.val / 2 * 2, by omega⟩ := by
  refine permute_eq (f := fun k => k / 2 * 2) (fun k => by omega) (fun k hk => ?_) _
  interval_cases k <;> rfl

/-- The second lane of each pair. -/
theorem permute_upper (a : Register R (4 * m)) (i : Fin (4 * m)) :
    permute a 0xF5 i = a ⟨i.val / 2 * 2 + 1, by omega⟩ := by
  refine permute_eq (f := fun k => k / 2 * 2 + 1) (fun k => by omega) (fun k hk => ?_) _
  interval_cases k <;> rfl

/-- The other lane of each pair. -/
theorem permute_swap (a : Register R (4 * m)) (i : Fin (4 * m)) :
    permute a 0xB1 i = a ⟨i.val / 2 * 2 + (1 - i.val % 2), by omega⟩ := by
  refine permute_eq (f := fun k => k / 2 * 2 + (1 - k % 2)) (fun k => by omega)
    (fun k hk => ?_) _
  interval_cases k <;> rfl

end Permutations

/-! ### Effects on arrays -/

/-- The memory after an operation on some elements, which may depend on their positions. -/
def applyOn (g : ℕ → R → R) (start size : ℕ) (memory : ℕ → R) : ℕ → R :=
  fun p => if start ≤ p ∧ p < start + size then g p (memory p) else memory p

section Effects

variable {g : ℕ → R → R} {start : ℕ} {memory : ℕ → R}

@[simp] theorem applyOn_zero : applyOn g start 0 memory = memory := by
  funext p
  exact if_neg (by omega)

/-- Neighbouring blocks. -/
theorem applyOn_add (start first second : ℕ) :
    applyOn g (start + first) second (applyOn g start first memory) =
      applyOn g start (first + second) memory := by
  funext p
  unfold applyOn
  by_cases hfirst : start ≤ p ∧ p < start + first
  · rw [if_neg (by omega), if_pos hfirst, if_pos (by omega)]
  · by_cases hsecond : start + first ≤ p ∧ p < start + first + second
    · rw [if_pos hsecond, if_neg hfirst, if_pos (by omega)]
    · rw [if_neg hsecond, if_neg hfirst, if_neg (by omega)]

theorem load_eq_ok {aligned : Bool} {n address : ℕ} (h : aligned = true → address % n = 0)
    (data : ℕ → R) : load aligned n address data = .ok fun i : Fin n => data i := by
  unfold load
  apply if_pos
  cases aligned
  · rfl
  · exact decide_eq_true (h rfl)

/-- **A register is stored** lane by lane. -/
theorem store_eq_ok {aligned : Bool} {n base : ℕ} {x : Register R n}
    (h : aligned = true → (base + start) % n = 0)
    (hx : ∀ i : Fin n, x i = g (start + i) (memory (start + i))) :
    store aligned base memory start x = .ok (applyOn g start n memory) := by
  have hallowed : allowed aligned n (base + start) = true := by
    cases aligned
    · rfl
    · exact decide_eq_true (h rfl)
  unfold store
  rw [if_pos hallowed]
  congr 1
  funext p
  unfold applyOn
  by_cases hp : start ≤ p ∧ p < start + n
  · have heq : start + (p - start) = p := by omega
    rw [dif_pos hp, if_pos hp, hx]
    simp only [heq]
  · rw [dif_neg hp, if_neg hp]

theorem store_unaligned {n base : ℕ} {x : Register R n} (h : (base + start) % n ≠ 0) :
    store true base memory start x = .error .unalignedAccess := by
  unfold store allowed
  simp [h]

@[simp] theorem loadScalar_zero [Zero R] {n : ℕ} [NeZero n] (data : ℕ → R) :
    loadScalar n data 0 = data 0 := by
  simp [loadScalar]

/-- The lower lanes of a register into which two numbers have been loaded. -/
theorem loadLow_of_lt {a : Register R 4} {data : ℕ → R} {i : Fin 4} (hi : i.val < 2) :
    loadLow a data i = data i := if_pos hi

theorem storeScalar_eq {n : ℕ} [NeZero n] {x : Register R n}
    (hx : x 0 = g start (memory start)) :
    storeScalar memory start x = applyOn g start 1 memory := by
  funext p
  unfold storeScalar applyOn
  by_cases hp : p = start
  · rw [if_pos hp, if_pos (by omega), hx, hp]
  · rw [if_neg hp, if_neg (by omega)]

theorem storeLow_eq {x : Register R 4} (h0 : x 0 = g start (memory start))
    (h1 : x 1 = g (start + 1) (memory (start + 1))) :
    storeLow memory start x = applyOn g start 2 memory := by
  funext p
  unfold storeLow applyOn
  by_cases hp : start ≤ p ∧ p < start + 2
  · rw [dif_pos hp, if_pos hp]
    obtain rfl | rfl : p = start ∨ p = start + 1 := by omega
    · simpa using h0
    · simpa using h1
  · rw [dif_neg hp, if_neg hp]

end Effects

/-! ### Loops -/

/-- The state of a loop: how many elements are done, how many are left, and the memory that is
written to. -/
structure Progress (R : Type) where
  done : ℕ
  count : ℕ
  memory : ℕ → R

/-- The iterations of a loop that processes `w` elements in each of them. -/
def blocks (w : ℕ) (body : ℕ → (ℕ → R) → Except Trap (ℕ → R)) :
    ℕ → Progress R → Except Trap (Progress R)
  | 0, p => .ok p
  | fuel + 1, p =>
    if w ≤ p.count then do
      let memory ← body p.done p.memory
      blocks w body fuel ⟨p.done + w, p.count - w, memory⟩
    else .ok p

/-- `while( count >= w ) { body; count -= w; }`. -/
def whileAtLeast (w : ℕ) (body : ℕ → (ℕ → R) → Except Trap (ℕ → R)) (p : Progress R) :
    Except Trap (Progress R) := blocks w body p.count p

/-- An operation is done for the first elements, each of which has `size` lanes. -/
structure Progress.Reaches (g : ℕ → R → R) (size n : ℕ) (memory : ℕ → R) (p : Progress R) :
    Prop where
  total : p.done + p.count = n
  effect : p.memory = applyOn g 0 (size * p.done) memory

section Loops

variable {g : ℕ → R → R} {size n w : ℕ} {memory : ℕ → R}
variable {body : ℕ → (ℕ → R) → Except Trap (ℕ → R)}

theorem Progress.reaches_start : Progress.Reaches g size n memory ⟨0, n, memory⟩ :=
  ⟨Nat.zero_add n, by simp⟩

/-- At the end of the array, the operation is done. -/
theorem Progress.Reaches.memory_eq {p : Progress R} (h : p.Reaches g size n memory)
    (hcount : p.count = 0) : p.memory = applyOn g 0 (size * n) memory := by
  have hdone : p.done = n := by
    have htotal := h.total
    omega
  rw [h.effect, hdone]

theorem Progress.Reaches.blocks (hw : 0 < w) {fuel : ℕ} {p : Progress R}
    (hp : p.Reaches g size n memory) (hfuel : p.count ≤ fuel)
    (hbody : ∀ start, start % w = p.done % w → ∀ memory,
      body start memory = .ok (applyOn g (size * start) (size * w) memory)) :
    ∃ p', blocks w body fuel p = .ok p' ∧ p'.Reaches g size n memory ∧
      p'.count = p.count % w ∧ p'.done % w = p.done % w := by
  induction fuel generalizing p with
  | zero =>
    have hzero : p.count = 0 := by omega
    exact ⟨p, rfl, hp, by rw [hzero, Nat.zero_mod], rfl⟩
  | succ fuel ih =>
    unfold Simd.blocks
    by_cases hle : w ≤ p.count
    · rw [if_pos hle, hbody p.done rfl]
      -- the next block
      have hnext : Progress.Reaches g size n memory
          ⟨p.done + w, p.count - w, applyOn g (size * p.done) (size * w) p.memory⟩ := by
        refine ⟨?_, ?_⟩
        · have htotal := hp.total
          dsimp only
          omega
        · rw [hp.effect, Nat.mul_add]
          simpa using applyOn_add 0 (size * p.done) (size * w)
      obtain ⟨p', hrun, hreaches, hcount, hdone⟩ := ih hnext (by dsimp only; omega)
        (fun start hstart => hbody start (by rw [hstart, Nat.add_mod_right]))
      refine ⟨p', hrun, hreaches, ?_, ?_⟩
      · rw [hcount, Nat.mod_eq_sub_mod hle]
      · rw [hdone, Nat.add_mod_right]
    · rw [if_neg hle]
      exact ⟨p, rfl, hp, (Nat.mod_eq_of_lt (by omega)).symm, rfl⟩

/-- **A loop over blocks** applies an operation to all of them. -/
theorem Progress.Reaches.whileAtLeast (hw : 0 < w) {p : Progress R}
    (hp : p.Reaches g size n memory)
    (hbody : ∀ start, start % w = p.done % w → ∀ memory,
      body start memory = .ok (applyOn g (size * start) (size * w) memory)) :
    ∃ p', whileAtLeast w body p = .ok p' ∧ p'.Reaches g size n memory ∧
      p'.count = p.count % w ∧ p'.done % w = p.done % w :=
  hp.blocks hw le_rfl hbody

/-- What follows a loop over blocks. -/
theorem Progress.Reaches.bind {β : Type} (hw : 0 < w) {p : Progress R}
    (hp : p.Reaches g size n memory)
    (hbody : ∀ start, start % w = p.done % w → ∀ memory,
      body start memory = .ok (applyOn g (size * start) (size * w) memory))
    {rest : Progress R → Except Trap β} {r : Except Trap β}
    (hrest : ∀ p', p'.Reaches g size n memory → p'.count = p.count % w →
      p'.done % w = p.done % w → rest p' = r) :
    (Simd.whileAtLeast w body p >>= rest) = r := by
  obtain ⟨p', hrun, hreaches, hcount, hdone⟩ := hp.whileAtLeast hw hbody
  rw [hrun]
  exact hrest p' hreaches hcount hdone

/-- A loop over the remaining elements, one by one. -/
theorem Progress.Reaches.bind_last {β : Type} {p : Progress R} (hp : p.Reaches g size n memory)
    (hbody : ∀ start memory, body start memory = .ok (applyOn g (size * start) (size * 1) memory))
    (f : (ℕ → R) → β) :
    (Simd.whileAtLeast 1 body p >>= fun p => pure (f p.memory)) =
      .ok (f (applyOn g 0 (size * n) memory)) := by
  apply hp.bind Nat.one_pos fun start _ => hbody start
  intro p' hp' hcount _
  rw [hp'.memory_eq (by rw [hcount, Nat.mod_one])]
  rfl

/-- A loop whose first iteration fails. -/
theorem whileAtLeast_error {p : Progress R} {t : Trap} (hw : 0 < w) (hle : w ≤ p.count)
    (hbody : body p.done p.memory = .error t) : whileAtLeast w body p = .error t := by
  obtain ⟨fuel, hfuel⟩ : ∃ fuel, p.count = fuel + 1 := ⟨p.count - 1, by omega⟩
  unfold whileAtLeast
  rw [hfuel, blocks, if_pos hle, hbody]
  rfl

end Loops

end Simd
