import Mathlib.Logic.Equiv.Fin.Basic

/-!
# Kernels on arrays

Functions that combine arrays in memory, one element after the other or in blocks of several
elements that are loaded, processed and stored together.  The arrays may share addresses.

## Main definitions

* `AddressSpace`, `Operands` — numbers in memory, and the addresses of arrays.
* `transform` — numbers are loaded from all inputs, and others are stored.
* `elementwise` — the elements one after the other.
* `IsBlockOf` — an operation on a block that does the same for each element.
* `whileAtLeast`, `once` — loops over blocks.

## Main results

* `transform_eq_elementwise` — **when a block is as good as its elements**.
* `whileAtLeast_bind`, `once_bind` — what is left after a loop over blocks.
* `elementwise_of_mapped` — which addresses are accessed, and which are written to.
-/

namespace ArrayKernel

variable {R : Type} {k c s : ℕ}

/-! ### Accesses to memory -/

/-- Numbers in memory.  An access to an address that is not mapped fails. -/
@[ext] structure AddressSpace (R : Type) where
  mapped : ℕ → Bool
  value : ℕ → R

/-- Whether all of some numbers can be accessed. -/
def AddressSpace.Maps (m : AddressSpace R) (size address : ℕ) : Prop :=
  ∀ i < size, m.mapped (address + i) = true

instance (m : AddressSpace R) (size address : ℕ) : Decidable (m.Maps size address) :=
  inferInstanceAs (Decidable (∀ i < size, m.mapped (address + i) = true))

def AddressSpace.write (m : AddressSpace R) (address : ℕ) (x : Fin c → R) : AddressSpace R where
  mapped := m.mapped
  value p := if h : address ≤ p ∧ p - address < c then x ⟨p - address, h.2⟩ else m.value p

def store (m : AddressSpace R) (address : ℕ) (x : Fin c → R) : Option (AddressSpace R) :=
  if m.Maps c address then some (m.write address x) else none

/-- The addresses of arrays. -/
structure Operands (k : ℕ) where
  inputs : Fin k → ℕ
  result : ℕ

def Operands.offset (o : Operands k) (d : ℕ) : Operands k := ⟨fun j => o.inputs j + d, o.result + d⟩

/-- The numbers at the beginning of all inputs. -/
def loadAll (c : ℕ) (m : AddressSpace R) (o : Operands k) : Option (Fin k → Fin c → R) :=
  if ∀ j, m.Maps c (o.inputs j) then some fun j i => m.value (o.inputs j + i) else none

/-- Numbers are loaded from all inputs, and the result is stored. -/
def transform (f : (Fin k → Fin c → R) → Fin c → R) (o : Operands k) (m : AddressSpace R) :
    Option (AddressSpace R) := do
  let x ← loadAll c m o
  store m o.result (f x)

/-- `for( idx = start; idx < start + n; ++idx )`, for elements of `c` numbers. -/
def elementwise (g : (Fin k → Fin c → R) → Fin c → R) (o : Operands k) :
    ℕ → ℕ → AddressSpace R → Option (AddressSpace R)
  | _, 0, m => some m
  | start, n + 1, m => do
    let m ← transform g (o.offset (start * c)) m
    elementwise g o (start + 1) n m

/-- Some numbers of each array can be accessed. -/
def Operands.Mapped (o : Operands k) (m : AddressSpace R) (size : ℕ) : Prop :=
  (∀ j, m.Maps size (o.inputs j)) ∧ m.Maps size o.result

/-- The result does not begin after the first but among the first `size` numbers of an input. -/
def Operands.Separate (o : Operands k) (size : ℕ) : Prop :=
  ∀ j, o.result ≤ o.inputs j ∨ o.inputs j + size ≤ o.result

instance (o : Operands k) (m : AddressSpace R) (size : ℕ) : Decidable (o.Mapped m size) :=
  inferInstanceAs (Decidable (_ ∧ _))

instance (o : Operands k) (size : ℕ) : Decidable (o.Separate size) :=
  inferInstanceAs (Decidable (∀ j, o.result ≤ o.inputs j ∨ o.inputs j + size ≤ o.result))

theorem Operands.Separate.mono {o : Operands k} {size size' : ℕ} (h : o.Separate size)
    (hle : size' ≤ size) : o.Separate size' :=
  fun j => (h j).imp_right fun hj => (Nat.add_le_add_left hle _).trans hj

/-! ### Single transformations -/

section Transformations

variable {m : AddressSpace R} {o : Operands k} {f : (Fin k → Fin c → R) → Fin c → R}

theorem Operands.inputs_offset (o : Operands k) (d : ℕ) (j : Fin k) :
    (o.offset d).inputs j = o.inputs j + d := rfl

theorem Operands.result_offset (o : Operands k) (d : ℕ) : (o.offset d).result = o.result + d := rfl

@[simp] theorem AddressSpace.mapped_write (m : AddressSpace R) (address : ℕ) (x : Fin c → R) :
    (m.write address x).mapped = m.mapped := rfl

theorem AddressSpace.value_write_add (m : AddressSpace R) (address : ℕ) (x : Fin c → R)
    (i : Fin c) : (m.write address x).value (address + i) = x i := by
  unfold write
  dsimp only
  rw [dif_pos (by omega)]
  congr 1
  exact Fin.ext (Nat.add_sub_cancel_left _ _)

theorem AddressSpace.value_write_of_not_mem (m : AddressSpace R) {address p : ℕ} (x : Fin c → R)
    (h : p < address ∨ address + c ≤ p) : (m.write address x).value p = m.value p :=
  dif_neg (by omega)

theorem AddressSpace.Maps.mono {size size' address d : ℕ} (h : m.Maps size address)
    (hle : d + size' ≤ size) : m.Maps size' (address + d) := by
  intro i hi
  rw [Nat.add_assoc]
  exact h (d + i) (by omega)

theorem Operands.Mapped.of_le {size size' : ℕ} (h : o.Mapped m size) (hle : size' ≤ size) :
    o.Mapped m size' :=
  ⟨fun j i hi => h.1 j i (hi.trans_le hle), fun i hi => h.2 i (hi.trans_le hle)⟩

theorem Operands.Mapped.mono {size size' d d' : ℕ} (h : (o.offset d).Mapped m size)
    (hle : d' + size' ≤ size) : (o.offset (d + d')).Mapped m size' := by
  refine ⟨fun j => ?_, ?_⟩
  · rw [inputs_offset, ← Nat.add_assoc]
    exact (h.1 j).mono hle
  · rw [result_offset, ← Nat.add_assoc]
    exact h.2.mono hle

theorem transform_of_mapped (h : o.Mapped m c) :
    transform f o m = some (m.write o.result (f fun j i => m.value (o.inputs j + i))) := by
  unfold transform loadAll store
  rw [if_pos h.1]
  exact if_pos h.2

theorem mapped_of_transform {m' : AddressSpace R} (h : transform f o m = some m') :
    o.Mapped m c ∧ m'.mapped = m.mapped := by
  unfold transform at h
  obtain ⟨x, hload, hstore⟩ := Option.bind_eq_some_iff.mp h
  unfold loadAll at hload
  unfold store at hstore
  split at hload
  next hinputs =>
    split at hstore
    next hresult =>
      cases hstore
      exact ⟨⟨hinputs, hresult⟩, rfl⟩
    next => cases hstore
  next => cases hload

end Transformations

/-! ### One element after the other -/

section Elements

variable {m m' : AddressSpace R} {o : Operands k} {g : (Fin k → Fin c → R) → Fin c → R}
variable {start n : ℕ}

theorem AddressSpace.Maps.append {size size' address : ℕ} (h : m.Maps size address)
    (h' : m.Maps size' (address + size)) : m.Maps (size + size') address := by
  intro i hi
  rcases Nat.lt_or_ge i size with hlt | hge
  · exact h i hlt
  · have hlater := h' (i - size) (by omega)
    rwa [Nat.add_assoc, Nat.add_sub_cancel' hge] at hlater

theorem Operands.Mapped.append {size size' d : ℕ} (h : (o.offset d).Mapped m size)
    (h' : (o.offset (d + size)).Mapped m size') : (o.offset d).Mapped m (size + size') := by
  refine ⟨fun j => (h.1 j).append ?_, h.2.append ?_⟩
  · have hinput := h'.1 j
    rwa [inputs_offset, ← Nat.add_assoc] at hinput
  · have hresult := h'.2
    rwa [result_offset, ← Nat.add_assoc] at hresult

theorem Operands.Mapped.congr {size : ℕ} (h : o.Mapped m size) (hsame : m'.mapped = m.mapped) :
    o.Mapped m' size := by
  unfold Mapped AddressSpace.Maps
  rw [hsame]
  exact h

@[simp] theorem elementwise_zero : elementwise g o start 0 m = some m := rfl

theorem elementwise_succ :
    elementwise g o start (n + 1) m =
      (transform g (o.offset (start * c)) m).bind (elementwise g o (start + 1) n) := rfl

theorem elementwise_one : elementwise g o start 1 m = transform g (o.offset (start * c)) m := by
  rw [elementwise_succ]
  exact Option.bind_fun_some _

theorem elementwise_add (first second : ℕ) :
    elementwise g o start (first + second) m =
      (elementwise g o start first m).bind (elementwise g o (start + first) second) := by
  induction first generalizing start m with
  | zero => rw [Nat.zero_add, elementwise_zero, Option.bind_some, Nat.add_zero]
  | succ first ih =>
    rw [Nat.add_right_comm, elementwise_succ, elementwise_succ, Option.bind_assoc]
    congr 1
    funext m
    rw [ih, Nat.add_right_comm start, Nat.add_assoc start]

/-- What has been accessed was mapped. -/
theorem mapped_of_elementwise (h : elementwise g o start n m = some m') :
    (o.offset (start * c)).Mapped m (n * c) ∧ m'.mapped = m.mapped := by
  induction n generalizing start m with
  | zero =>
    cases h
    rw [Nat.zero_mul]
    exact ⟨⟨fun j i hi => absurd hi i.not_lt_zero, fun i hi => absurd hi i.not_lt_zero⟩, rfl⟩
  | succ n ih =>
    obtain ⟨m₁, hfirst, hrest⟩ := Option.bind_eq_some_iff.mp h
    obtain ⟨hmapped, hsame⟩ := mapped_of_transform hfirst
    obtain ⟨hlater, hsame'⟩ := ih hrest
    rw [Nat.succ_mul, Nat.add_comm]
    refine ⟨hmapped.append ?_, hsame'.trans hsame⟩
    rw [← Nat.succ_mul]
    exact hlater.congr hsame.symm

/-- **Which addresses are accessed**, and which of them are written to. -/
theorem elementwise_of_mapped (h : (o.offset (start * c)).Mapped m (n * c)) :
    ∃ m', elementwise g o start n m = some m' ∧ m'.mapped = m.mapped ∧
      ∀ p, p < o.result + start * c ∨ o.result + (start + n) * c ≤ p →
        m'.value p = m.value p := by
  induction n generalizing start m with
  | zero => exact ⟨m, rfl, rfl, fun _ _ => rfl⟩
  | succ n ih =>
    rw [Nat.succ_mul, Nat.add_comm] at h
    have hfirst : (o.offset (start * c)).Mapped m c := h.of_le (Nat.le_add_right _ _)
    have hlater : (o.offset ((start + 1) * c)).Mapped m (n * c) := by
      rw [Nat.succ_mul]
      exact h.mono le_rfl
    rw [elementwise_succ, transform_of_mapped hfirst, Option.bind_some]
    obtain ⟨m', hrun, hsame, hrest⟩ := ih (hlater.congr (AddressSpace.mapped_write _ _ _))
    refine ⟨m', hrun, hsame, fun p hp => ?_⟩
    have hfold : start + 1 + n = start + (n + 1) := Nat.add_right_comm start 1 n
    have hstep : (start + (n + 1)) * c = start * c + n * c + c := by
      rw [← Nat.add_assoc, Nat.succ_mul, Nat.add_mul]
    rw [hrest p (by rw [Nat.succ_mul, hfold]; omega),
      AddressSpace.value_write_of_not_mem _ _ (by rw [Operands.result_offset]; omega)]

/-- The result holds what an operation makes of each element, and nothing else has changed. -/
structure Computes (g : (Fin k → Fin c → R) → Fin c → R) (o : Operands k) (start n : ℕ)
    (m m' : AddressSpace R) : Prop where
  mapped : m'.mapped = m.mapped
  element : ∀ l < n, ∀ e : Fin c, m'.value (o.result + ((start + l) * c + e)) =
    g (fun j i => m.value (o.inputs j + ((start + l) * c + i))) e
  rest : ∀ p, p < o.result + start * c ∨ o.result + (start + n) * c ≤ p → m'.value p = m.value p

/-- An address among those of the elements is that of a number of one element. -/
theorem exists_element {p first n : ℕ} (hle : first ≤ p) (hlt : p < first + n * c) :
    ∃ l < n, ∃ e : Fin c, p = first + (l * c + e) := by
  have hc : 0 < c := by
    rcases Nat.eq_zero_or_pos c with rfl | hpos
    · omega
    · exact hpos
  refine ⟨(p - first) / c, ?_, ⟨(p - first) % c, Nat.mod_lt _ hc⟩, ?_⟩
  · rw [Nat.div_lt_iff_lt_mul hc]
    omega
  · rw [Nat.mul_comm, Nat.div_add_mod]
    omega

theorem Computes.unique {m₁ m₂ : AddressSpace R} (h₁ : Computes g o start n m m₁)
    (h₂ : Computes g o start n m m₂) : m₁ = m₂ := by
  apply AddressSpace.ext (h₁.mapped.trans h₂.mapped.symm)
  funext p
  by_cases hp : p < o.result + start * c ∨ o.result + (start + n) * c ≤ p
  · rw [h₁.rest p hp, h₂.rest p hp]
  · rw [Nat.add_mul] at hp
    obtain ⟨l, hl, e, rfl⟩ : ∃ l < n, ∃ e : Fin c, p = o.result + start * c + (l * c + e) :=
      exists_element (by omega) (by omega)
    rw [Nat.add_assoc, ← Nat.add_assoc (start * c), ← Nat.add_mul, h₁.element l hl, h₂.element l hl]

theorem element_lt {l i : ℕ} (hl : l < n) (hi : i < c) : l * c + i < n * c := by
  calc l * c + i < (l + 1) * c := by rw [Nat.succ_mul]; omega
    _ ≤ n * c := Nat.mul_le_mul_right c hl

/-- Another element of each array. -/
theorem Computes.next {m₁ : AddressSpace R} (h : Computes g o start n m m₁)
    (hseparate : o.Separate ((n + 1) * c)) :
    Computes g o start (n + 1) m
      (m₁.write (o.result + (start + n) * c)
        (g fun j i => m₁.value (o.inputs j + (start + n) * c + i))) := by
  have hnext : (n + 1) * c = n * c + c := Nat.succ_mul n c
  have hbegin : (start + n) * c = start * c + n * c := Nat.add_mul start n c
  have hend : (start + (n + 1)) * c = start * c + n * c + c := by
    rw [← Nat.add_assoc, Nat.succ_mul, hbegin]
  -- the inputs have not been written to
  have hinputs : (fun j (i : Fin c) => m₁.value (o.inputs j + (start + n) * c + i)) =
      fun j (i : Fin c) => m.value (o.inputs j + ((start + n) * c + i)) := by
    funext j i
    have hj := hseparate j
    rw [h.rest _ (by omega), Nat.add_assoc]
  refine ⟨h.mapped, fun l hl e => ?_, fun p hp => ?_⟩
  · rcases Nat.lt_succ_iff_lt_or_eq.mp hl with hlt | rfl
    · have hbefore : (start + l) * c + e < (start + n) * c := element_lt (by omega) e.isLt
      rw [AddressSpace.value_write_of_not_mem _ _ (Or.inl (by omega)), h.element l hlt]
    · rw [← Nat.add_assoc, AddressSpace.value_write_add, hinputs]
  · rw [AddressSpace.value_write_of_not_mem _ _ (by omega), h.rest p (by omega)]

/-- **Neighbouring elements of arrays**, none of which is stored where another one is loaded from
later. -/
theorem elementwise_computes (hmapped : (o.offset (start * c)).Mapped m (n * c))
    (hseparate : o.Separate (n * c)) :
    ∃ m', elementwise g o start n m = some m' ∧ Computes g o start n m m' := by
  induction n with
  | zero => exact ⟨m, rfl, rfl, fun l hl => absurd hl l.not_lt_zero, fun p _ => rfl⟩
  | succ n ih =>
    rw [Nat.succ_mul] at hmapped
    obtain ⟨m₁, hrun, h⟩ := ih (hmapped.of_le (Nat.le_add_right _ _)) fun j => by
      have hj := hseparate j
      rw [Nat.succ_mul] at hj
      omega
    have hlast : (o.offset ((start + n) * c)).Mapped m c := by
      rw [Nat.add_mul]
      exact hmapped.mono le_rfl
    refine ⟨_, ?_, h.next hseparate⟩
    rw [elementwise_add, hrun, Option.bind_some, elementwise_one,
      transform_of_mapped (hlast.congr h.mapped)]
    rfl

end Elements

/-! ### Blocks -/

/-- An operation on a block of elements that does the same for each of them. -/
def IsBlockOf (f : (Fin k → Fin (s * c) → R) → Fin (s * c) → R)
    (g : (Fin k → Fin c → R) → Fin c → R) : Prop :=
  ∀ x p, f x p = g (fun j i => x j (finProdFinEquiv (p.divNat, i))) p.modNat

section Blocks

variable {m : AddressSpace R} {o : Operands k} {g : (Fin k → Fin c → R) → Fin c → R}
variable {f : (Fin k → Fin (s * c) → R) → Fin (s * c) → R} {start : ℕ}

theorem transform_computes (hf : IsBlockOf f g)
    (hmapped : (o.offset (start * c)).Mapped m (s * c)) :
    ∃ m', transform f (o.offset (start * c)) m = some m' ∧ Computes g o start s m m' := by
  refine ⟨_, transform_of_mapped hmapped, rfl, fun l hl e => ?_, fun p hp => ?_⟩
  · have hposition (i : Fin c) : (finProdFinEquiv (⟨l, hl⟩, i) : ℕ) = l * c + i := by
      rw [finProdFinEquiv_apply_val, Nat.add_comm, Nat.mul_comm]
    have hsymm := finProdFinEquiv.symm_apply_apply ((⟨l, hl⟩, e) : Fin s × Fin c)
    obtain ⟨hdiv, hmod⟩ := Prod.ext_iff.mp hsymm
    have hstart (i : Fin c) : (start + l) * c + i = start * c + finProdFinEquiv (⟨l, hl⟩, i) := by
      rw [hposition, Nat.add_mul, Nat.add_assoc]
    rw [hstart, ← Nat.add_assoc]
    refine (AddressSpace.value_write_add _ _ _ _).trans ?_
    rw [hf, show (finProdFinEquiv (⟨l, hl⟩, e)).divNat = ⟨l, hl⟩ from hdiv,
      show (finProdFinEquiv (⟨l, hl⟩, e)).modNat = e from hmod]
    congr 1
    funext j i
    rw [hstart, Operands.inputs_offset, Nat.add_assoc]
  · apply AddressSpace.value_write_of_not_mem
    rw [Nat.add_mul] at hp
    rw [Operands.result_offset]
    omega

/-- **A block is as good as its elements**, if none of these is stored where another one is loaded
from. -/
theorem transform_eq_elementwise (hf : IsBlockOf f g) (hseparate : o.Separate (s * c)) :
    transform f (o.offset (start * c)) m = elementwise g o start s m := by
  by_cases hmapped : (o.offset (start * c)).Mapped m (s * c)
  · obtain ⟨m₁, hblock, h₁⟩ := transform_computes hf hmapped
    obtain ⟨m₂, helements, h₂⟩ := elementwise_computes hmapped hseparate
    rw [hblock, helements, h₁.unique h₂]
  · -- both access an address that is not mapped
    have hblock : transform f (o.offset (start * c)) m = none := by
      rw [Option.eq_none_iff_forall_ne_some]
      exact fun m' h => hmapped (mapped_of_transform h).1
    have helements : elementwise g o start s m = none := by
      rw [Option.eq_none_iff_forall_ne_some]
      exact fun m' h => hmapped (mapped_of_elementwise h).1
    rw [hblock, helements]

end Blocks

/-! ### Loops -/

/-- How many elements are done, how many are left, and the memory. -/
structure Progress (R : Type) where
  done : ℕ
  count : ℕ
  memory : AddressSpace R

/-- `if( count >= s ) { body; count -= s; }`. -/
def once (s : ℕ) (body : ℕ → AddressSpace R → Option (AddressSpace R)) (p : Progress R) :
    Option (Progress R) :=
  if s ≤ p.count then do
    let memory ← body p.done p.memory
    return ⟨p.done + s, p.count - s, memory⟩
  else some p

/-- The iterations of a loop. -/
def blocks (s : ℕ) (body : ℕ → AddressSpace R → Option (AddressSpace R)) :
    ℕ → Progress R → Option (Progress R)
  | 0, p => some p
  | fuel + 1, p =>
    if s ≤ p.count then do
      let memory ← body p.done p.memory
      blocks s body fuel ⟨p.done + s, p.count - s, memory⟩
    else some p

/-- `while( count >= s ) { body; count -= s; }`. -/
def whileAtLeast (s : ℕ) (body : ℕ → AddressSpace R → Option (AddressSpace R)) (p : Progress R) :
    Option (Progress R) := blocks s body p.count p

/-- What is left, element by element. -/
def Progress.remaining (g : (Fin k → Fin c → R) → Fin c → R) (o : Operands k) (p : Progress R) :
    Option (AddressSpace R) := elementwise g o p.done p.count p.memory

section Loops

variable {o : Operands k} {g : (Fin k → Fin c → R) → Fin c → R} {p : Progress R}
variable {body : ℕ → AddressSpace R → Option (AddressSpace R)}

/-- A block, and what is left after it. -/
theorem Progress.remaining_of_le (hle : s ≤ p.count) :
    p.remaining g o = (elementwise g o p.done s p.memory).bind fun memory =>
      Progress.remaining g o ⟨p.done + s, p.count - s, memory⟩ := by
  unfold remaining
  rw [← elementwise_add, Nat.add_sub_cancel' hle]

/-- A block, if there are enough elements left. -/
theorem once_bind {rest : Progress R → Option (AddressSpace R)}
    (hbody : s ≤ p.count → ∀ memory, body p.done memory = elementwise g o p.done s memory)
    (hrest : ∀ memory, s ≤ p.count → rest ⟨p.done + s, p.count - s, memory⟩ =
      Progress.remaining g o ⟨p.done + s, p.count - s, memory⟩)
    (hskip : p.count < s → rest p = p.remaining g o) :
    (once s body p).bind rest = p.remaining g o := by
  unfold once
  by_cases hle : s ≤ p.count
  · rw [if_pos hle, hbody hle, Progress.remaining_of_le hle]
    refine (Option.bind_assoc _ _ _).trans ?_
    congr 1
    funext memory
    exact hrest memory hle
  · rw [if_neg hle]
    exact hskip (Nat.not_le.mp hle)

theorem blocks_bind (hs : 0 < s) {fuel : ℕ} (hfuel : p.count ≤ fuel)
    {rest : Progress R → Option (AddressSpace R)}
    (hbody : s ≤ p.count → ∀ start memory, body start memory = elementwise g o start s memory)
    (hrest : ∀ q : Progress R, q.count < s → q.count ≤ p.count → rest q = q.remaining g o) :
    (blocks s body fuel p).bind rest = p.remaining g o := by
  induction fuel generalizing p with
  | zero =>
    have hzero : p.count = 0 := Nat.le_zero.mp hfuel
    exact hrest p (by omega) le_rfl
  | succ fuel ih =>
    unfold blocks
    by_cases hle : s ≤ p.count
    · rw [if_pos hle, hbody hle, Progress.remaining_of_le hle]
      refine (Option.bind_assoc _ _ _).trans ?_
      congr 1
      funext memory
      refine ih ?_ (fun _ => hbody hle) fun q hlt hq => hrest q hlt ?_
      · dsimp only
        omega
      · dsimp only at hq
        omega
    · rw [if_neg hle]
      exact hrest p (Nat.not_le.mp hle) le_rfl

/-- **A loop over blocks**, and what is left after it. -/
theorem whileAtLeast_bind (hs : 0 < s) {rest : Progress R → Option (AddressSpace R)}
    (hbody : s ≤ p.count → ∀ start memory, body start memory = elementwise g o start s memory)
    (hrest : ∀ q : Progress R, q.count < s → q.count ≤ p.count → rest q = q.remaining g o) :
    (whileAtLeast s body p).bind rest = p.remaining g o :=
  blocks_bind hs le_rfl hbody hrest

end Loops

end ArrayKernel
