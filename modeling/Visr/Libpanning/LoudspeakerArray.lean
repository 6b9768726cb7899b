import Mathlib.Data.String.Basic
import Visr.Libefl.Basic
import Visr.Library.OrderedMap
import Visr.Librbbl.FilterCoefficients

/-!
# Loudspeaker arrays

The positions of the loudspeakers of an array, and how they are divided into triplets.
-/

namespace Visr

/-- A position, which may be infinitely far away. -/
structure XYZ (F : Type) where
  x : F
  y : F
  z : F
  isInfinite : Bool

/-- The data of an array: there is a channel for each regular loudspeaker, and the virtual ones
follow after these.  The adjustments and the filters are also those of the subwoofers, which come
after the regular loudspeakers. -/
structure LoudspeakerArray (F : Type) where
  is2D : Bool
  isInfinite : Bool
  numberOfSpeakers : ℕ
  position : ℕ → XYZ F
  triplet : List (ℕ × ℕ × ℕ)
  channel : List ℕ
  id : OrderedMap String ℕ
  subwooferChannels : List ℕ
  subwooferGains : ℕ → ℕ → F
  reRoutingCoeff : ℕ → ℕ → F
  gainAdjustment : ℕ → F
  delayAdjustment : ℕ → F
  outputEqs : Option (ℕ → List (BiquadCoefficient F))

namespace LoudspeakerArray

variable {F : Type}

def getNumSpeakers (a : LoudspeakerArray F) : ℕ := a.numberOfSpeakers

def getNumRegularSpeakers (a : LoudspeakerArray F) : ℕ := a.channel.length

/-- The id of a loudspeaker, which is the first one in the order of the ids. -/
def loudspeakerId (a : LoudspeakerArray F) (index : ℕ) : Except Exception String :=
  match a.id.entries.find? fun entry => entry.2 = index with
  | some entry => .ok entry.1
  | none => .error (.outOfRange ("LoudspeakerArray::loudspeakerId(): The given numeric " ++
      "loudspeaker id \"" ++ toString index ++ "\" is outside the admissible range."))

/-- The index of a loudspeaker; the lookup fails as `std::map::at` does. -/
def getSpeakerIndexFromId (a : LoudspeakerArray F) (id : String) : Except Exception ℕ :=
  match a.id.find? id with
  | some index => .ok index
  | none => .error (.outOfRange "map::at")

end LoudspeakerArray

end Visr
