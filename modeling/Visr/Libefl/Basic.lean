import Mathlib.Algebra.Group.Nat.Defs
import Mathlib.Data.Nat.Notation

/-!
# Errors and alignment

The exception classes and error codes used throughout, and the rounding of sizes to an
alignment.
-/

namespace Visr

/-- The exceptions thrown by checks and constructors, by their C++ class. -/
inductive Exception
  | invalidArgument (what : String)
  | logicError (what : String)
  | runtimeError (what : String)
  | outOfRange (what : String)
  deriving DecidableEq, Repr

/-- The text of an exception. -/
def Exception.what : Exception → String
  | invalidArgument what => what
  | logicError what => what
  | runtimeError what => what
  | outOfRange what => what

/-- How a computation ends before it has a result. -/
inductive Abort
  /-- An exception of one of the classes derived from `std::exception`. -/
  | exception (e : Exception)
  /-- `std::bad_alloc`, which is derived from `std::exception`, too. -/
  | badAlloc
  /-- A string literal is thrown. -/
  | literal (what : String)
  /-- Nothing is thrown, but nothing is guaranteed from here on. -/
  | undefined
  deriving DecidableEq, Repr

/-- The handler is `catch( std::exception const & ex )`. -/
def Abort.isCaught : Abort → Bool
  | exception _ => true
  | badAlloc => true
  | literal _ => false
  | undefined => false

/-- A handler that throws `std::invalid_argument( message + ex.what() )`. -/
def Abort.rethrow (message : String) : Abort → Abort
  | exception e => exception (.invalidArgument (message ++ e.what))
  | badAlloc => exception (.invalidArgument (message ++ "std::bad_alloc"))
  | literal what => literal what
  | undefined => undefined

@[simp] theorem Abort.isCaught_rethrow (message : String) (a : Abort) :
    (a.rethrow message).isCaught = a.isCaught := by
  cases a <;> rfl

/-- The error codes of the vector functions. -/
inductive ErrorCode
  | noError
  | alignmentError
  | arithmeticError
  | logicError
  deriving DecidableEq, Repr

/-- The description of an error code. -/
def errorMessage : ErrorCode → String
  | .noError => "No error"
  | .alignmentError => "Alignment error"
  | .arithmeticError => "Arithmetic error"
  | .logicError => "Unknown error code"

@[simp] theorem ok_bind {ε α β : Type} (a : α) (f : α → Except ε β) : (.ok a >>= f) = f a := rfl

@[simp] theorem error_bind {ε α β : Type} (e : ε) (f : α → Except ε β) :
    (.error e >>= f) = .error e := rfl

/-- A computation goes on with the result of its first step. -/
theorem bind_of_ok {ε α β : Type} {x : Except ε α} {a : α} (h : x = .ok a)
    (f : α → Except ε β) : (x >>= f) = f a := by rw [h, ok_bind]

/-- A computation that goes on after a first step succeeds through the result of that
step. -/
theorem exists_of_bind_ok {ε α β : Type} {x : Except ε α} {f : α → Except ε β} {b : β}
    (h : (x >>= f) = .ok b) : ∃ a, x = .ok a ∧ f a = .ok b := by
  cases x with
  | error e => cases h
  | ok a => exact ⟨a, rfl, h⟩

/-- A computation fails in its first step or in what follows. -/
theorem exists_of_bind_error {ε α β : Type} {x : Except ε α} {f : α → Except ε β} {e : ε}
    (h : (x >>= f) = .error e) : x = .error e ∨ ∃ a, x = .ok a ∧ f a = .error e := by
  cases x with
  | error e' =>
    cases h
    exact .inl rfl
  | ok a => exact .inr ⟨a, rfl, h⟩

theorem exists_of_map_ok {ε α β : Type} {x : Except ε α} {f : α → β} {b : β}
    (h : x.map f = .ok b) : ∃ a, x = .ok a ∧ f a = b := by
  cases x with
  | error e => cases h
  | ok a => exact ⟨a, rfl, Except.ok.inj h⟩

theorem ok_of_mapError {ε ε' α : Type} {x : Except ε α} {f : ε → ε'} {a : α}
    (h : x.mapError f = .ok a) : x = .ok a := by
  cases x with
  | error e => cases h
  | ok b => exact congrArg Except.ok (Except.ok.inj h)

theorem exists_of_mapError {ε ε' α : Type} {x : Except ε α} {f : ε → ε'} {e' : ε'}
    (h : x.mapError f = .error e') : ∃ e, x = .error e ∧ f e = e' := by
  cases x with
  | error e => exact ⟨e, rfl, Except.error.inj h⟩
  | ok b => cases h

theorem toOption_eq_some {ε α : Type} {x : Except ε α} {a : α} (h : x.toOption = some a) :
    x = .ok a := by
  cases x with
  | error e => cases h
  | ok b => exact congrArg Except.ok (Option.some.inj h)

/-- A computation whose result meets a condition has one. -/
theorem exists_of_any {ε α : Type} {x : Except ε α} {q : α → Bool}
    (h : x.toOption.any q = true) : ∃ a, x = .ok a ∧ q a = true := by
  cases x with
  | error e => cases h
  | ok a => exact ⟨a, rfl, h⟩

/-! ### Computations whose failures are caught -/

/-- Whatever the computation throws is caught by a handler for `std::exception`. -/
def Handled {α : Type} (x : Except Abort α) : Prop := ∀ a, x = .error a → a.isCaught = true

section Handled

variable {α β : Type} {x : Except Abort α}

@[simp] theorem handled_ok (a : α) : Handled (.ok a : Except Abort α) := nofun

@[simp] theorem handled_pure (a : α) : Handled (pure a : Except Abort α) := nofun

@[simp] theorem handled_error {a : Abort} :
    Handled (.error a : Except Abort α) ↔ a.isCaught = true := by
  refine ⟨fun h => h a rfl, fun h b hb => ?_⟩
  cases hb
  exact h

/-- What follows a first step matters if that step succeeds. -/
theorem handled_bind {f : α → Except Abort β} :
    Handled (x >>= f) ↔ Handled x ∧ ∀ a, x = .ok a → Handled (f a) := by
  cases x with
  | error a =>
    rw [error_bind, handled_error, handled_error]
    exact ⟨fun h => ⟨h, nofun⟩, And.left⟩
  | ok a =>
    rw [ok_bind]
    refine ⟨fun h => ⟨handled_ok a, fun b hb => ?_⟩, fun h => h.2 a rfl⟩
    cases hb
    exact h

theorem handled_bind_iff_of_handled {f : α → Except Abort β} (hx : Handled x) :
    Handled (x >>= f) ↔ ∀ a, x = .ok a → Handled (f a) :=
  handled_bind.trans (and_iff_right hx)

theorem handled_bind_iff_left {f : α → Except Abort β} (hf : ∀ a, Handled (f a)) :
    Handled (x >>= f) ↔ Handled x :=
  handled_bind.trans (and_iff_left fun a _ => hf a)

theorem Handled.bind {f : α → Except Abort β} (hx : Handled x) (hf : ∀ a, Handled (f a)) :
    Handled (x >>= f) :=
  (handled_bind_iff_left hf).mpr hx

@[simp] theorem handled_map {f : α → β} : Handled (x.map f) ↔ Handled x := by
  cases x with
  | error a => exact handled_error.trans handled_error.symm
  | ok a => exact iff_of_true (handled_ok _) (handled_ok a)

@[simp] theorem handled_rethrow {message : String} :
    Handled (x.mapError (Abort.rethrow message)) ↔ Handled x := by
  cases x with
  | error a =>
    show Handled (.error (a.rethrow message)) ↔ _
    rw [handled_error, handled_error, Abort.isCaught_rethrow]
  | ok a => exact iff_of_true (handled_ok a) (handled_ok a)

end Handled

/-! ### Computations that are defined -/

/-- The computation has a result, or it throws. -/
def Defined {α : Type} (x : Except Abort α) : Prop := x ≠ .error .undefined

section Defined

variable {α β : Type} {x : Except Abort α}

@[simp] theorem defined_ok (a : α) : Defined (.ok a : Except Abort α) := nofun

@[simp] theorem defined_pure (a : α) : Defined (pure a : Except Abort α) := nofun

theorem defined_exception (e : Exception) : Defined (.error (.exception e) : Except Abort α) :=
  nofun

theorem Handled.defined (h : Handled x) : Defined x := by
  intro hx
  exact Bool.false_ne_true (h .undefined hx)

theorem Defined.bind {f : α → Except Abort β} (hx : Defined x)
    (hf : ∀ a, x = .ok a → Defined (f a)) : Defined (x >>= f) := by
  cases x with
  | error a =>
    rw [error_bind]
    intro h
    cases h
    exact hx rfl
  | ok a => exact hf a rfl

theorem Defined.map (hx : Defined x) (f : α → β) : Defined (x.map f) := by
  cases x with
  | error a =>
    intro h
    cases h
    exact hx rfl
  | ok a => exact defined_ok (f a)

end Defined

/-- The smallest number not below `size` that is a multiple of `alignment`.  An alignment
of zero demands nothing. -/
def nextAlignedSize (size alignment : ℕ) : ℕ :=
  if alignment = 0 then size
  else
    let rem := size % alignment
    if rem = 0 then size
    else (size / alignment + 1) * alignment

theorem le_nextAlignedSize (size alignment : ℕ) : size ≤ nextAlignedSize size alignment := by
  unfold nextAlignedSize
  split
  · exact Nat.le_refl size
  next hne =>
    dsimp only
    split
    · exact Nat.le_refl size
    · have hlt : size < alignment * (size / alignment + 1) :=
        Nat.lt_mul_div_succ size (Nat.pos_of_ne_zero hne)
      rw [Nat.mul_comm]
      exact Nat.le_of_lt hlt

theorem dvd_nextAlignedSize (size : ℕ) {alignment : ℕ} (h : alignment ≠ 0) :
    alignment ∣ nextAlignedSize size alignment := by
  unfold nextAlignedSize
  rw [if_neg h]
  dsimp only
  split
  next hrem => exact Nat.dvd_of_mod_eq_zero hrem
  · exact Nat.dvd_mul_left alignment _

end Visr
