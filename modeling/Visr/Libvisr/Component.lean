import Mathlib.Data.List.Basic
import Mathlib.Data.Nat.Notation

/-!
# Components, ports and connections

The data a signal flow is made of: a tree of components, each with its audio and
parameter ports, the composite ones also with the connections of their own level.

Objects that the source compares by address carry that address in a field, and two
pointers are equal exactly when the records they stand for are.
-/

namespace Visr

/-! ### Sample types -/

/-- The sample types of audio ports (`AudioSampleType::Id`). -/
inductive AudioSampleType
  | float
  | double
  | longDouble
  | uint8
  | int8
  | uint16
  | int16
  | uint32
  | int32
  | complexFloat
  | complexDouble
  deriving DecidableEq, Repr

namespace AudioSampleType

/-- The value of the enumerator, which orders the types in a `std::set`. -/
def id : AudioSampleType → ℕ
  | float => 0
  | double => 1
  | longDouble => 2
  | uint8 => 3
  | int8 => 4
  | uint16 => 5
  | int16 => 6
  | uint32 => 7
  | int32 => 8
  | complexFloat => 9
  | complexDouble => 10

/-- The number of bytes of one sample. -/
def typeSize : AudioSampleType → ℕ
  | float => 4
  | double => 8
  | longDouble => 16
  | uint8 => 1
  | int8 => 1
  | uint16 => 2
  | int16 => 2
  | uint32 => 4
  | int32 => 4
  | complexFloat => 8
  | complexDouble => 16

end AudioSampleType

/-! ### Ports -/

/-- The direction of a port (`PortBase::Direction`), seen from its own component. -/
inductive Direction
  | input
  | output
  deriving DecidableEq, Repr

/-- What a pointer to a `ComponentImplementation` gives access to, apart from the
ports and the contained components. -/
structure ComponentRef where
  address : ℕ
  name : String
  fullName : String
  isComposite : Bool
  isTopLevel : Bool
  deriving DecidableEq, Repr

/-- The part of a port that audio and parameter ports share
(`PortBaseImplementation`). -/
structure PortBase where
  address : ℕ
  name : String
  parent : ComponentRef
  direction : Direction
  deriving DecidableEq, Repr

/-- An audio port (`AudioPortBaseImplementation`). -/
structure AudioPort extends PortBase where
  sampleType : AudioSampleType
  width : ℕ
  deriving DecidableEq, Repr

/-- The configuration of a parameter port.  The constructors are the classes derived
from `ParameterConfigBase`. -/
inductive ParameterConfig
  | empty
  | vector (numberOfElements : ℕ)
  | matrix (numberOfRows numberOfColumns : ℕ)
  | timeFrequency (numberOfDftBins numberOfChannels numberOfFrames : ℕ)
  | interpolation (numberOfInterpolants : ℕ)
  deriving DecidableEq, Repr

/-- A parameter port (`ParameterPortBaseImplementation`).  Types and protocols are
identified by 64-bit hashes; the configuration may be missing. -/
structure ParameterPort extends PortBase where
  parameterType : BitVec 64
  protocolType : BitVec 64
  parameterConfig : Option ParameterConfig
  deriving DecidableEq, Repr

/-! ### Connections -/

/-- A connection between two audio ports (`AudioConnection`).  The channel lists are
meant to be read in parallel. -/
structure AudioConnection where
  sender : AudioPort
  sendIndices : List ℕ
  receiver : AudioPort
  receiveIndices : List ℕ
  deriving DecidableEq, Repr

/-- A connection between two parameter ports (`ParameterConnection`). -/
structure ParameterConnection where
  sender : ParameterPort
  receiver : ParameterPort
  deriving DecidableEq, Repr

/-! ### Components -/

/-- A component with its ports in the order of registration.  Composite components
hold their children in the order of registration and the connection tables in the
order in which they are iterated. -/
inductive Component
  | atomic (self : ComponentRef) (audioPorts : List AudioPort)
      (parameterPorts : List ParameterPort)
  | composite (self : ComponentRef) (audioPorts : List AudioPort)
      (parameterPorts : List ParameterPort) (components : List Component)
      (audioConnections : List AudioConnection)
      (parameterConnections : List ParameterConnection)

namespace Component

/-- The component as the `parent()` of its ports. -/
def self : Component → ComponentRef
  | atomic self _ _ => self
  | composite self _ _ _ _ _ => self

def audioPorts : Component → List AudioPort
  | atomic _ ports _ => ports
  | composite _ ports _ _ _ _ => ports

def parameterPorts : Component → List ParameterPort
  | atomic _ _ ports => ports
  | composite _ _ ports _ _ _ => ports

/-- The direct children (`componentBegin()`, `componentEnd()`). -/
def components : Component → List Component
  | atomic .. => []
  | composite _ _ _ components _ _ => components

def audioConnections : Component → List AudioConnection
  | atomic .. => []
  | composite _ _ _ _ connections _ => connections

def parameterConnections : Component → List ParameterConnection
  | atomic .. => []
  | composite _ _ _ _ _ connections => connections

def isComposite : Component → Bool
  | atomic .. => false
  | composite .. => true

/-- Induction over the tree: a composite may assume the statement of its children. -/
theorem induct {P : Component → Prop}
    (atomic : ∀ self aps pps, P (.atomic self aps pps))
    (composite : ∀ self aps pps comps acs pcs, (∀ c ∈ comps, P c) →
      P (.composite self aps pps comps acs pcs)) (c : Component) : P c := by
  refine @Component.rec P (fun comps => ∀ c ∈ comps, P c) atomic composite ?nil ?cons c
  case nil => exact fun c hc => absurd hc List.not_mem_nil
  case cons =>
    intro c comps hc hcomps c' hc'
    rcases List.mem_cons.mp hc' with rfl | hc'
    · exact hc
    · exact hcomps c' hc'

mutual

/-- A component with everything it contains, at any depth, parents first. -/
def preorder : Component → List Component
  | atomic self aps pps => [atomic self aps pps]
  | composite self aps pps comps acs pcs =>
    composite self aps pps comps acs pcs :: preorderList comps

/-- The components of a list with everything they contain. -/
def preorderList : List Component → List Component
  | [] => []
  | c :: comps => preorder c ++ preorderList comps

end

theorem preorderList_eq (comps : List Component) :
    preorderList comps = comps.flatMap preorder := by
  induction comps with
  | nil => rfl
  | cons c comps ih => rw [preorderList, ih, List.flatMap_cons]

theorem preorder_eq (c : Component) : c.preorder = c :: c.components.flatMap preorder := by
  cases c with
  | atomic => rfl
  | composite => rw [preorder, preorderList_eq]; rfl

theorem mem_preorder_self (c : Component) : c ∈ c.preorder := by
  rw [preorder_eq]
  exact List.mem_cons_self

/-- Everything below the root is the child of some component of the tree. -/
theorem exists_parent {root c : Component} (h : c ∈ root.preorder) :
    c = root ∨ ∃ p ∈ root.preorder, c ∈ p.components := by
  induction root using induct with
  | atomic self aps pps =>
    rw [preorder_eq] at h
    exact Or.inl (List.mem_singleton.mp h)
  | composite self aps pps comps acs pcs ih =>
    rw [preorder_eq] at h
    rcases List.mem_cons.mp h with rfl | h
    · exact Or.inl rfl
    · obtain ⟨child, hchild, hc⟩ := List.mem_flatMap.mp h
      right
      rcases ih child hchild hc with rfl | ⟨p, hp, hcp⟩
      · exact ⟨_, mem_preorder_self _, hchild⟩
      · refine ⟨p, ?_, hcp⟩
        rw [preorder_eq]
        exact List.mem_cons_of_mem _ (List.mem_flatMap.mpr ⟨child, hchild, hp⟩)

/-- The children of a component of the tree belong to the tree. -/
theorem mem_preorder_of_mem_components {root p c : Component} (hp : p ∈ root.preorder)
    (hc : c ∈ p.components) : c ∈ root.preorder := by
  induction root using induct with
  | atomic self aps pps =>
    rw [preorder_eq] at hp
    obtain rfl := List.mem_singleton.mp hp
    exact absurd hc List.not_mem_nil
  | composite self aps pps comps acs pcs ih =>
    rw [preorder_eq] at hp ⊢
    rcases List.mem_cons.mp hp with rfl | hp
    · exact List.mem_cons_of_mem _ (List.mem_flatMap.mpr ⟨c, hc, mem_preorder_self c⟩)
    · obtain ⟨child, hchild, hp⟩ := List.mem_flatMap.mp hp
      exact List.mem_cons_of_mem _ (List.mem_flatMap.mpr ⟨child, hchild, ih child hchild hp⟩)

/-- What holds of every component tree by the way it is constructed: components
register with their parent under a name of their own, ports register with the
component they belong to under a name of their own, and different objects have different
addresses. -/
structure WellFormed (root : Component) : Prop where
  topLevel : root.self.isTopLevel = true
  nested : ∀ p ∈ root.preorder, ∀ c ∈ p.components, c.self.isTopLevel = false
  isComposite : ∀ c ∈ root.preorder, c.self.isComposite = c.isComposite
  audioParent : ∀ c ∈ root.preorder, ∀ p ∈ c.audioPorts, p.parent = c.self
  parameterParent : ∀ c ∈ root.preorder, ∀ p ∈ c.parameterPorts, p.parent = c.self
  childNames : ∀ c ∈ root.preorder, (c.components.map (·.self.name)).Nodup
  parameterNames : ∀ c ∈ root.preorder, (c.parameterPorts.map (·.name)).Nodup
  addresses : (root.preorder.map (·.self.address)).Nodup
  audioAddresses : ((root.preorder.flatMap audioPorts).map (·.address)).Nodup
  parameterAddresses : ((root.preorder.flatMap parameterPorts).map (·.address)).Nodup

end Component

/-- A complete signal flow, ready to be handed to the runtime. -/
structure Flow where
  root : Component
  wellFormed : root.WellFormed

end Visr
