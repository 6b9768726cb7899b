import Visr.Librbbl.PropertyTree

/-!
# Whole numbers

A platform whose numbers are whole, and which knows the texts of some trees.

## Main results

* `WholeNumber.numbersReadBack_platform` — numbers are read back from their texts.
-/

namespace Visr

open Grammar PropertyTree

structure WholeNumber where
  value : ℕ
  deriving DecidableEq

namespace WholeNumber

instance : FloatArithmetic WholeNumber where
  zero := ⟨0⟩
  one := ⟨1⟩
  add x y := ⟨x.value + y.value⟩
  mul x y := ⟨x.value * y.value⟩
  div x y := ⟨x.value / y.value⟩
  decidableEq := inferInstance
  le x y := x.value ≤ y.value
  lt x y := x.value < y.value
  abs x := x
  cos _ := ⟨1⟩
  sin _ := ⟨0⟩
  epsilon := ⟨1⟩
  degree := ⟨1⟩
  div_one x := congrArg WholeNumber.mk (Nat.div_one x.value)

/-- Reads a number from its digits. -/
def read {α : Type} (f : ℕ → α) (text : String) : Option α :=
  (digits text.toList).map fun r => f r.1

theorem read_toString {α : Type} (f : ℕ → α) (n : ℕ) : read f (toString n) = some (f n) := by
  have hend : ∀ c ∈ ([] : List Char).head?, c.isDigit = false := nofun
  have hdigits := digits_toDigits n hend
  rw [List.append_nil] at hdigits
  rw [read, Nat.toString_eq_ofList_toDigits, String.toList_ofList, hdigits]
  rfl

/-- The platform, with a list of texts and the trees they represent. -/
def platform (table : List (List UInt8 × PropertyTree)) : Platform WholeNumber where
  capacity := 100
  putFloat x := toString x.value
  getFloat := read WholeNumber.mk
  putUnsigned n := toString n.val
  getUnsigned := read (Fin.ofNat (2 ^ 32))
  putPriority n := toString n.val
  getPriority := read (Fin.ofNat (2 ^ 8))
  insertFloat x := toString x.value
  float_ s := (digits s).map fun r => (⟨r.1⟩, r.2)
  writeJson _ :=
    match table with
    | [] => .error (.runtimeError "unspecified")
    | entry :: _ => .ok entry.1
  readJson message :=
    match table.find? fun entry => entry.1 = message with
    | some entry => .ok entry.2
    | none => .error (.runtimeError "<unspecified file>(1): expected value")

theorem readJson_platform (message : List UInt8) (t : PropertyTree)
    (table : List (List UInt8 × PropertyTree)) :
    (platform ((message, t) :: table)).readJson message = .ok t := by
  have hfind : ((message, t) :: table).find? (fun entry => entry.1 = message) =
      some (message, t) := List.find?_cons_of_pos (decide_eq_true rfl)
  show (match List.find? _ ((message, t) :: table) with | some entry => _ | none => _) = _
  rw [hfind]

theorem numbersReadBack_platform (table : List (List UInt8 × PropertyTree)) :
    (platform table).NumbersReadBack where
  getFloat_putFloat x := read_toString WholeNumber.mk x.value
  getUnsigned_putUnsigned n := by
    refine (read_toString (Fin.ofNat (2 ^ 32)) n.val).trans (congrArg some ?_)
    exact Fin.ext (Nat.mod_eq_of_lt n.isLt)
  getPriority_putPriority n := by
    refine (read_toString (Fin.ofNat (2 ^ 8)) n.val).trans (congrArg some ?_)
    exact Fin.ext (Nat.mod_eq_of_lt n.isLt)
  float_insertFloat x := by
    intro rest hrest
    have hhead := isDigit_head_of_stop (fun c hc => by rw [hc]; decide) hrest
    show token _ ((toString x.value).toList ++ rest) = _
    rw [Nat.toString_eq_ofList_toDigits, String.toList_ofList, token, skip_toDigits_append]
    show Option.map _ ((digits (Nat.toDigits 10 x.value ++ rest)).map _) = _
    rw [digits_toDigits x.value hhead]
    rfl

end WholeNumber

end Visr
