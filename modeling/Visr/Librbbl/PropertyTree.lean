import Mathlib.Algebra.GroupWithZero.Nat
import Mathlib.Data.List.Forall2
import Visr.Librbbl.Sequences

/-!
# Property trees

The trees between the objects and their JSON representation: a node has a text and a list of
children with keys, in which a key may occur several times.  Numbers are kept as texts.

## Main results

* `PropertyTree.equalRange_put`, `PropertyTree.find?_put` — what is found after writing.
-/

namespace Visr

/-- A node with its text and its children.  The elements of an array are children with an
empty key. -/
inductive PropertyTree
  | node (data : String) (children : List (String × PropertyTree))

namespace PropertyTree

def data : PropertyTree → String
  | node data _ => data

def children : PropertyTree → List (String × PropertyTree)
  | node _ children => children

@[simp] theorem data_node (data : String) (children : List (String × PropertyTree)) :
    (node data children).data = data := rfl

/-- A new tree. -/
def new : PropertyTree := node "" []

/-- All children with a key, in their order. -/
def equalRange (t : PropertyTree) (key : String) : List PropertyTree :=
  t.children.filterMap fun child => if child.1 = key then some child.2 else none

def count (t : PropertyTree) (key : String) : ℕ := (t.equalRange key).length

/-- The first child with a key. -/
def find? (t : PropertyTree) (key : String) : Option PropertyTree := (t.equalRange key).head?

/-! ### Reading -/

/-- The node at the end of a path. -/
def getChild? : List String → PropertyTree → Option PropertyTree
  | [], t => some t
  | key :: path, t => (t.find? key).bind (getChild? path)

def getChild (path : List String) (t : PropertyTree) : Except Abort PropertyTree :=
  match t.getChild? path with
  | some child => .ok child
  | none => .error (.exception (.runtimeError ("No such node (" ++ ".".intercalate path ++ ")")))

section Values

variable {α : Type}

/-- The conversion of a text, which fails if `read` does. -/
def convert (read : String → Option α) (text : String) : Except Abort α :=
  match read text with
  | some value => .ok value
  | none => .error (.exception (.runtimeError "conversion of data to type failed"))

/-- The value at the end of a path. -/
def get (read : String → Option α) (path : List String) (t : PropertyTree) : Except Abort α := do
  let child ← t.getChild path
  convert read child.data

def getOptional (read : String → Option α) (path : List String) (t : PropertyTree) : Option α :=
  (t.getChild? path).bind fun child => read child.data

def getDefault (read : String → Option α) (path : List String) (default : α) (t : PropertyTree) :
    α :=
  (t.getOptional read path).getD default

theorem handled_getChild (path : List String) (t : PropertyTree) : Handled (t.getChild path) := by
  unfold getChild
  split
  · exact handled_ok _
  · exact handled_error.mpr rfl

/-- A value that is missing or has the wrong type is reported by an exception. -/
theorem handled_get (read : String → Option α) (path : List String) (t : PropertyTree) :
    Handled (t.get read path) := by
  refine (handled_getChild path t).bind fun child => ?_
  unfold convert
  split
  · exact handled_ok _
  · exact handled_error.mpr rfl

end Values

/-! ### Writing -/

/-- Replaces the first child with a key, or appends one. -/
def updateFirst (key : String) (f : PropertyTree → PropertyTree) :
    List (String × PropertyTree) → List (String × PropertyTree)
  | [] => [(key, f new)]
  | child :: children =>
    if child.1 = key then (key, f child.2) :: children
    else child :: updateFirst key f children

/-- Sets the text of the node at the end of a path, where the nodes that do not exist are
created. -/
def put : List String → String → PropertyTree → PropertyTree
  | [], value, t => node value t.children
  | key :: path, value, t => node t.data (updateFirst key (put path value) t.children)

def putChild (t : PropertyTree) (key : String) (child : PropertyTree) : PropertyTree :=
  node t.data (updateFirst key (fun _ => child) t.children)

/-- Appends a child, also if there is one with its key. -/
def addChild (t : PropertyTree) (key : String) (child : PropertyTree) : PropertyTree :=
  node t.data (t.children ++ [(key, child)])

/-! ### What is found after writing -/

/-- What an update makes of the children with its key. -/
def updateHead (f : PropertyTree → PropertyTree) : List PropertyTree → List PropertyTree
  | [] => [f new]
  | t :: ts => f t :: ts

@[simp] theorem equalRange_new (key : String) : new.equalRange key = [] := rfl

theorem equalRange_updateFirst (data key : String) (f : PropertyTree → PropertyTree)
    (children : List (String × PropertyTree)) (key' : String) :
    (node data (updateFirst key f children)).equalRange key' =
      if key = key' then updateHead f ((node data children).equalRange key')
      else (node data children).equalRange key' := by
  induction children with
  | nil =>
    by_cases h : key = key'
    · subst h
      rw [if_pos rfl]
      simp [equalRange, PropertyTree.children, updateFirst, updateHead]
    · simp [equalRange, PropertyTree.children, updateFirst, h]
  | cons child rest ih =>
    unfold equalRange PropertyTree.children at ih ⊢
    rw [updateFirst]
    by_cases hchild : child.1 = key
    · by_cases h : key = key'
      · subst h
        simp [hchild, updateHead]
      · simp [hchild, h]
    · rw [if_neg hchild, List.filterMap_cons, ih]
      by_cases h : key = key'
      · subst h
        simp [hchild]
      · by_cases hchild' : child.1 = key' <;> simp [h, hchild']

/-- **The children with a key after writing a value.** -/
theorem equalRange_put (key : String) (path : List String) (value : String) (t : PropertyTree)
    (key' : String) :
    (t.put (key :: path) value).equalRange key' =
      if key = key' then updateHead (put path value) (t.equalRange key') else t.equalRange key' :=
  equalRange_updateFirst t.data key (put path value) t.children key'

/-- **The children with a key after writing a child.** -/
theorem equalRange_putChild (key : String) (child t : PropertyTree) (key' : String) :
    (t.putChild key child).equalRange key' =
      if key = key' then updateHead (fun _ => child) (t.equalRange key') else t.equalRange key' :=
  equalRange_updateFirst t.data key (fun _ => child) t.children key'

theorem equalRange_addChild (key : String) (child t : PropertyTree) (key' : String) :
    (t.addChild key child).equalRange key' =
      t.equalRange key' ++ if key = key' then [child] else [] := by
  unfold equalRange addChild PropertyTree.children
  rw [List.filterMap_append]
  by_cases h : key = key' <;> simp [h]

section Congruence

variable {α : Type} {t t' : PropertyTree} {key : String} {path : List String}

theorem find?_congr (h : t.equalRange key = t'.equalRange key) : t.find? key = t'.find? key := by
  rw [find?, find?, h]

theorem getChild?_congr (h : t.equalRange key = t'.equalRange key) :
    t.getChild? (key :: path) = t'.getChild? (key :: path) := by
  rw [getChild?, getChild?, find?_congr h]

theorem getDefault_congr (h : t.equalRange key = t'.equalRange key) (read : String → Option α)
    (default : α) :
    t.getDefault read (key :: path) default = t'.getDefault read (key :: path) default := by
  rw [getDefault, getDefault, getOptional, getOptional, getChild?_congr h]

end Congruence

section Finding

variable {α : Type}

@[simp] theorem find?_new (key : String) : new.find? key = none := rfl

@[simp] theorem data_put_nil (value : String) (t : PropertyTree) : (t.put [] value).data = value :=
  rfl

@[simp] theorem put_nil_new (value : String) : new.put [] value = node value [] := rfl

@[simp] theorem find?_put (key : String) (path : List String) (value : String) (t : PropertyTree)
    (key' : String) :
    (t.put (key :: path) value).find? key' =
      if key = key' then some (((t.find? key').getD new).put path value) else t.find? key' := by
  rw [find?, equalRange_put, find?]
  by_cases h : key = key'
  · rw [if_pos h, if_pos h]
    cases t.equalRange key' <;> rfl
  · rw [if_neg h, if_neg h]

@[simp] theorem find?_putChild (key : String) (child t : PropertyTree) (key' : String) :
    (t.putChild key child).find? key' = if key = key' then some child else t.find? key' := by
  rw [find?, equalRange_putChild, find?]
  by_cases h : key = key'
  · rw [if_pos h, if_pos h]
    cases t.equalRange key' <;> rfl
  · rw [if_neg h, if_neg h]

@[simp] theorem find?_addChild (key : String) (child t : PropertyTree) (key' : String) :
    (t.addChild key child).find? key' =
      (t.find? key').or (if key = key' then some child else none) := by
  rw [find?, equalRange_addChild, find?, List.head?_append]
  by_cases h : key = key' <;> simp [h]

/-- A number or text is read, if the node is there. -/
theorem get_singleton (read : String → Option α) (key : String) (t : PropertyTree) :
    t.get read [key] =
      match t.find? key with
      | some child => convert read child.data
      | none => .error (.exception (.runtimeError ("No such node (" ++ key ++ ")"))) := by
  rw [get, getChild, getChild?]
  cases t.find? key <;> rfl

theorem get_of_find? {read : String → Option α} {key : String} {t child : PropertyTree}
    (h : t.find? key = some child) : t.get read [key] = convert read child.data := by
  rw [get_singleton, h]

/-- A value that was written to a new node is read. -/
theorem get_put {read : String → Option α} {key : String} {t : PropertyTree} {text : String}
    (h : t.find? key = none) : (t.put [key] text).get read [key] = convert read text := by
  rw [get_singleton, find?_put, if_pos rfl, h]
  rfl

theorem getOptional_singleton (read : String → Option α) (key : String) (t : PropertyTree) :
    t.getOptional read [key] = (t.find? key).bind fun child => read child.data := by
  rw [getOptional, getChild?]
  cases t.find? key <;> rfl

@[simp] theorem convert_some (text : String) : convert some text = .ok text := rfl

theorem convert_of {read : String → Option α} {text : String} {value : α}
    (h : read text = some value) : convert read text = .ok value := by
  rw [convert, h]

end Finding

/-! ### Several nodes -/

section Elements

variable {α β : Type}

/-- Converts one element after the other, as long as this does not fail. -/
def loadAll (load : β → Except Abort α) : List β → Except Abort (List α)
  | [] => .ok []
  | x :: xs => do
    let value ← load x
    let values ← loadAll load xs
    return value :: values

theorem handled_loadAll {load : β → Except Abort α} (h : ∀ x, Handled (load x)) (xs : List β) :
    Handled (loadAll load xs) := by
  induction xs with
  | nil => exact handled_ok _
  | cons x xs ih => exact (h x).bind fun _ => ih.bind fun _ => handled_pure _

theorem defined_loadAll {load : β → Except Abort α} {xs : List β}
    (h : ∀ x ∈ xs, Defined (load x)) : Defined (loadAll load xs) := by
  induction xs with
  | nil => exact defined_ok _
  | cons x xs ih =>
    obtain ⟨hx, hxs⟩ := List.forall_mem_cons.mp h
    exact hx.bind fun _ _ => (ih hxs).bind fun _ _ => defined_pure _

theorem loadAll_map {γ : Type} {load : β → Except Abort α} {tree : γ → β} {value : γ → α}
    {xs : List γ} (h : ∀ x ∈ xs, load (tree x) = .ok (value x)) :
    loadAll load (xs.map tree) = .ok (xs.map value) := by
  induction xs with
  | nil => rfl
  | cons x xs ih =>
    obtain ⟨hx, hxs⟩ := List.forall_mem_cons.mp h
    rw [List.map_cons, loadAll, hx, ih hxs]
    rfl

/-- If all elements are converted, each of them is. -/
theorem loadAll_ok {load : β → Except Abort α} {xs : List β} {values : List α}
    (h : loadAll load xs = .ok values) : List.Forall₂ (fun x v => load x = .ok v) xs values := by
  induction xs generalizing values with
  | nil =>
    cases h
    exact List.Forall₂.nil
  | cons x xs ih =>
    obtain ⟨value, hvalue, h⟩ := exists_of_bind_ok h
    obtain ⟨rest, hrest, h⟩ := exists_of_bind_ok h
    cases h
    exact List.Forall₂.cons hvalue (ih hrest)

/-- The conversion fails for one of the elements. -/
theorem exists_of_loadAll_error {load : β → Except Abort α} {xs : List β} {abort : Abort}
    (h : loadAll load xs = .error abort) : ∃ x ∈ xs, load x = .error abort := by
  induction xs with
  | nil => cases h
  | cons x xs ih =>
    rcases exists_of_bind_error h with hfirst | ⟨value, -, h⟩
    · exact ⟨x, List.mem_cons_self, hfirst⟩
    · rcases exists_of_bind_error h with hrest | ⟨values, -, h⟩
      · obtain ⟨y, hy, hload⟩ := ih hrest
        exact ⟨y, List.mem_cons_of_mem x hy, hload⟩
      · cases h

/-- Each value is that of an element. -/
theorem exists_of_mem_loadAll {load : β → Except Abort α} {xs : List β} {values : List α}
    (h : loadAll load xs = .ok values) {value : α} (hvalue : value ∈ values) :
    ∃ x ∈ xs, load x = .ok value := by
  induction xs generalizing values with
  | nil =>
    cases h
    cases hvalue
  | cons x xs ih =>
    obtain ⟨first, hfirst, h⟩ := exists_of_bind_ok h
    obtain ⟨rest, hrest, h⟩ := exists_of_bind_ok h
    cases h
    rcases List.mem_cons.mp hvalue with rfl | hvalue
    · exact ⟨x, List.mem_cons_self, hfirst⟩
    · obtain ⟨y, hy, hload⟩ := ih hrest hvalue
      exact ⟨y, List.mem_cons_of_mem x hy, hload⟩

/-- All elements are converted if and only if each of them is. -/
theorem exists_loadAll_iff {load : β → Except Abort α} {xs : List β} :
    (∃ values, loadAll load xs = .ok values) ↔ ∀ x ∈ xs, ∃ value, load x = .ok value := by
  induction xs with
  | nil => exact ⟨fun _ => List.forall_mem_nil _, fun _ => ⟨[], rfl⟩⟩
  | cons x xs ih =>
    constructor
    · rintro ⟨values, h⟩
      obtain ⟨value, hvalue, h⟩ := exists_of_bind_ok h
      obtain ⟨rest, hrest, -⟩ := exists_of_bind_ok h
      exact List.forall_mem_cons.mpr ⟨⟨value, hvalue⟩, ih.mp ⟨rest, hrest⟩⟩
    · intro h
      obtain ⟨⟨value, hvalue⟩, hxs⟩ := List.forall_mem_cons.mp h
      obtain ⟨rest, hrest⟩ := ih.mpr hxs
      refine ⟨value :: rest, ?_⟩
      rw [loadAll, hvalue, ok_bind, hrest]
      rfl

/-- Appends a child for each of several values. -/
def addChildren (t : PropertyTree) (key : String) (trees : List PropertyTree) : PropertyTree :=
  trees.foldl (fun t child => t.addChild key child) t

theorem children_addChildren (t : PropertyTree) (key : String) (trees : List PropertyTree) :
    (t.addChildren key trees).children = t.children ++ trees.map fun child => (key, child) := by
  induction trees generalizing t with
  | nil => exact (List.append_nil _).symm
  | cons child trees ih =>
    show ((t.addChild key child).addChildren key trees).children = _
    rw [ih, List.map_cons]
    show (t.children ++ [(key, child)]) ++ _ = _
    rw [List.append_assoc]
    rfl

theorem equalRange_addChildren (t : PropertyTree) (key : String) (trees : List PropertyTree) :
    (t.addChildren key trees).equalRange key = t.equalRange key ++ trees := by
  rw [equalRange, children_addChildren, List.filterMap_append, List.filterMap_map]
  congr 1
  have hsome : (fun child : String × PropertyTree =>
      if child.1 = key then some child.2 else none) ∘ (fun child => (key, child)) = some := by
    funext child
    exact if_pos rfl
  rw [hsome, List.filterMap_some]

end Elements

end PropertyTree

/-! ### The platform -/

open Grammar

/-- There are numbers of the type `unsigned int`. -/
instance neZero_two_pow_thirtyTwo : NeZero (2 ^ 32) := ⟨by decide⟩

/-- There are numbers of the type of priorities. -/
instance neZero_two_pow_eight : NeZero (2 ^ 8) := ⟨by decide⟩

/-- What the code relies on.  The fields named after the functions of the libraries convert
between numbers and their texts: `put` and `get` of the property trees, the parser `float_` of
the grammars, and the insertion into a stream.  A message is a list of bytes. -/
structure Platform (F : Type) where
  /-- The number of values after which an ever-growing sequence runs out of memory. -/
  capacity : ℕ
  putFloat : F → String
  getFloat : String → Option F
  putUnsigned : Fin (2 ^ 32) → String
  getUnsigned : String → Option (Fin (2 ^ 32))
  putPriority : Fin (2 ^ 8) → String
  getPriority : String → Option (Fin (2 ^ 8))
  insertFloat : F → String
  float_ : Parser F
  writeJson : PropertyTree → Except Exception (List UInt8)
  readJson : List UInt8 → Except Exception PropertyTree

namespace Platform

variable {F : Type}

/-- Numbers are read back exactly. -/
structure NumbersReadBack (env : Platform F) : Prop where
  getFloat_putFloat : ∀ x, env.getFloat (env.putFloat x) = some x
  getUnsigned_putUnsigned : ∀ n, env.getUnsigned (env.putUnsigned n) = some n
  getPriority_putPriority : ∀ n, env.getPriority (env.putPriority n) = some n
  float_insertFloat : ∀ x, Reads (token env.float_) (fun c => c = ',') (env.insertFloat x).toList x

section NumbersReadBack

variable {env : Platform F} (h : env.NumbersReadBack)

include h

@[simp] theorem NumbersReadBack.convert_float (x : F) :
    PropertyTree.convert env.getFloat (env.putFloat x) = .ok x :=
  PropertyTree.convert_of (h.getFloat_putFloat x)

@[simp] theorem NumbersReadBack.convert_unsigned (n : Fin (2 ^ 32)) :
    PropertyTree.convert env.getUnsigned (env.putUnsigned n) = .ok n :=
  PropertyTree.convert_of (h.getUnsigned_putUnsigned n)

@[simp] theorem NumbersReadBack.convert_priority (n : Fin (2 ^ 8)) :
    PropertyTree.convert env.getPriority (env.putPriority n) = .ok n :=
  PropertyTree.convert_of (h.getPriority_putPriority n)

end NumbersReadBack

/-- The JSON library writes a tree and reads the same tree back. -/
def JsonReadsBack (env : Platform F) (t : PropertyTree) : Prop :=
  ∃ message, env.writeJson t = .ok message ∧ env.readJson message = .ok t

end Platform

end Visr
