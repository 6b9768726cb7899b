import Visr.Libpml.DoubleBufferingProtocol
import Visr.Library.Recalculation

/-!
# Receivers of the double-buffering protocol

What a receiver sees of the protocol: a value, and a flag.

## Main results

* `DoubleBufferingSystem.input_step` — **a receiver** obtains a value at each swap and otherwise
  changes only when it resets the flag.
-/

namespace Visr

/-- `DoubleBufferingProtocol::InputBase`. -/
abbrev InputBase (V : Type) := Recalculation.Input V

namespace DoubleBufferingSystem

variable {V : Type}

/-- `InputBase::data()` and `InputBase::changed()`. -/
def input (s : DoubleBufferingSystem V) (port : ℕ) : InputBase V :=
  ⟨s.protocol.backValue, s.changed port⟩

/-- **One operation, as a receiver sees it.** -/
theorem input_step [ParameterBase V] {s s' : DoubleBufferingSystem V} {op : Operation V}
    (hs : s.Attached) {port : ℕ} (hconnected : s.inputConnected port = true)
    (h : step op s = some s') :
    (op.swaps s ∧ s'.input port = (s.input port).receive s.protocol.frontValue) ∨
      (¬ op.swaps s ∧ s'.input port =
        if op.isResetOf port = true then (s.input port).resetChanged else s.input port) := by
  rcases step_cases h with ⟨hswaps, hback, -, -, hchanged⟩ | ⟨hswaps, hquiet⟩
  · refine Or.inl ⟨hswaps, ?_⟩
    unfold input
    rw [hback, hchanged, if_pos ((hs.inputs port).mp hconnected)]
    rfl
  · refine Or.inr ⟨hswaps, ?_⟩
    unfold input
    rw [hquiet.backValue, hquiet.changed]
    split <;> rfl

end DoubleBufferingSystem

end Visr
