import Mathlib.Order.Nat
import Visr.Library.KeyedSet
import Visr.Libpml.DoubleBufferingProtocol

/-!
# Signal routings

The parameter type for routings between input and output channels.  An output has at most one
input.

## Main results

* `SignalRoutingParameter.find?_addRouting`, `SignalRoutingParameter.find?_removeEntry` — only one
  output is concerned.
* `SignalRoutingParameter.mem_routings_iff` — the entries are the inputs of the outputs.
-/

namespace Visr

/-- `SignalRoutingParameter::Entry`. -/
structure SignalRoutingEntry where
  input : ℕ
  output : ℕ
  deriving DecidableEq, Repr

structure SignalRoutingParameter where
  routings : KeyedSet SignalRoutingEntry.output

/-- All routings can be assigned to each other. -/
instance : ParameterBase SignalRoutingParameter where
  assign _ source := .ok source
  assign_eq h := (Except.ok.inj h).symm

namespace SignalRoutingParameter

/-- The default constructor. -/
def create : SignalRoutingParameter := ⟨KeyedSet.empty⟩

/-- An existing entry for the output is removed first. -/
def addRouting (p : SignalRoutingParameter) (newEntry : SignalRoutingEntry) :
    SignalRoutingParameter :=
  let routings :=
    if (p.routings.find? newEntry.output).isSome then p.routings.erase newEntry.output
    else p.routings
  -- The result of `std::set::insert()` is not used.
  ⟨(routings.insert? newEntry).getD routings⟩

/-- Removes the entry for an output, and reports whether there has been one. -/
def removeEntry (p : SignalRoutingParameter) (outputIdx : ℕ) : Bool × SignalRoutingParameter :=
  if (p.routings.find? outputIdx).isSome then (true, ⟨p.routings.erase outputIdx⟩)
  else (false, p)

/-- The input of an output; there is none if the source returns `cInvalidIndex`. -/
def getInput (p : SignalRoutingParameter) (outputIdx : ℕ) : Option ℕ :=
  (p.routings.find? outputIdx).map SignalRoutingEntry.input

/-- **The new entry takes the place of the one for its output.** -/
theorem routings_addRouting (p : SignalRoutingParameter) (newEntry : SignalRoutingEntry) :
    (p.addRouting newEntry).routings = p.routings.put newEntry := by
  have herase : (if (p.routings.find? newEntry.output).isSome then
      p.routings.erase newEntry.output else p.routings) = p.routings.erase newEntry.output := by
    cases hfind : p.routings.find? newEntry.output with
    | none => simp [KeyedSet.erase_eq_self hfind]
    | some e => simp
  unfold addRouting
  dsimp only
  rw [herase, KeyedSet.insert?_erase]
  rfl

theorem routings_removeEntry (p : SignalRoutingParameter) (outputIdx : ℕ) :
    (p.removeEntry outputIdx).2.routings = p.routings.erase outputIdx := by
  unfold removeEntry
  cases hfind : p.routings.find? outputIdx with
  | none => simp [KeyedSet.erase_eq_self hfind]
  | some e => simp

@[simp] theorem find?_addRouting (p : SignalRoutingParameter) (newEntry : SignalRoutingEntry)
    (outputIdx : ℕ) :
    (p.addRouting newEntry).routings.find? outputIdx =
      if outputIdx = newEntry.output then some newEntry else p.routings.find? outputIdx := by
  rw [routings_addRouting]
  exact KeyedSet.find?_put p.routings newEntry outputIdx

@[simp] theorem find?_removeEntry (p : SignalRoutingParameter) (outputIdx outputIdx' : ℕ) :
    (p.removeEntry outputIdx).2.routings.find? outputIdx' =
      if outputIdx' = outputIdx then none else p.routings.find? outputIdx' := by
  rw [routings_removeEntry]
  exact KeyedSet.find?_erase p.routings outputIdx outputIdx'

theorem mem_routings_iff {p : SignalRoutingParameter} {input output : ℕ} :
    ⟨input, output⟩ ∈ p.routings ↔ p.getInput output = some input := by
  unfold getInput
  rw [Option.map_eq_some_iff]
  constructor
  · intro h
    exact ⟨_, KeyedSet.find?_eq_some_iff.mpr ⟨h, rfl⟩, rfl⟩
  · rintro ⟨e, he, rfl⟩
    obtain ⟨hmem, rfl⟩ := KeyedSet.find?_eq_some_iff.mp he
    exact hmem

@[simp] theorem getInput_addRouting (p : SignalRoutingParameter) (newEntry : SignalRoutingEntry)
    (outputIdx : ℕ) :
    (p.addRouting newEntry).getInput outputIdx =
      if outputIdx = newEntry.output then some newEntry.input else p.getInput outputIdx := by
  unfold getInput
  rw [find?_addRouting]
  split
  · rfl
  · rfl

end SignalRoutingParameter

end Visr
