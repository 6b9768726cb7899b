import Mathlib.Data.List.Forall2
import Mathlib.Data.List.Nodup
import Mathlib.Logic.Function.Basic

/-!
# Dataflow in buffers

Nodes turn the values at their inputs into values at their outputs.  The inputs are connected to
outputs, and the nodes are executed one after the other.

The values are first thought of as a partial function, which tells what is known so far in a
pass over the nodes.  An implementation keeps the values in buffers, which still hold the values
of the last pass until they are overwritten, and may need further nodes that copy values from one
buffer to another.

## Main definitions

* `Network` — the inputs and outputs of the nodes, and the connections.
* `Network.run` — executes nodes; an input whose value is not known is an error.
* `Scheduled` — each input is known when its node is executed.
* `Fitting` — the values that the nodes make fit their outputs.
* `Buffers`, `Buffers.run` — a memory with a place for each end of a connection, and the execution
  on it.
* `Bypass` — some nodes are copies, and another network does without them.

## Main results

* `run_of_scheduled` — in a scheduled order, no value is missing.
* `Buffers.run_corresponds` — **buffers hold what is known**.
* `Buffers.run_invariant` — what all writes preserve.
* `Bypass.run_corresponds` — **copies make no difference**.
-/

namespace Dataflow

/-- Nodes `N` with inputs `R` and outputs `W`, and the output that each input is connected to. -/
structure Network (N R W : Type*) where
  inputs : N → List R
  outputs : N → List W
  source : R → Option W

/-- What the nodes do with the values of their inputs.  They share a state. -/
abbrev Behaviour (N S V ε : Type*) := N → S → List V → Except ε (S × List V)

variable {N R W S V ε M X Y : Type*}

/-- Two computations fail in the same way, or have results that are related. -/
def Corresponds (rel : X → Y → Prop) : Except ε X → Except ε Y → Prop
  | .ok x, .ok y => rel x y
  | .error e, .error e' => e = e'
  | .ok _, .error _ => False
  | .error _, .ok _ => False

theorem Corresponds.exists_ok {rel : X → Y → Prop} {x : X} {b : Except ε Y}
    (h : Corresponds rel (.ok x) b) : ∃ y, b = .ok y ∧ rel x y := by
  cases b with
  | error e => exact h.elim
  | ok y => exact ⟨y, rfl, h⟩

theorem Corresponds.eq_error {rel : X → Y → Prop} {e : ε} {b : Except ε Y}
    (h : Corresponds rel (.error e) b) : b = .error e := by
  cases b with
  | error e' => exact congrArg Except.error (Eq.symm h)
  | ok y => exact h.elim

/-! ### What is known -/

section Assign

variable [DecidableEq W]

/-- The values after some outputs have got new ones. -/
def assign (entries : List (W × V)) (known : W → Option V) : W → Option V :=
  entries.foldl (fun known e => Function.update known e.1 (some e.2)) known

theorem assign_cons (e : W × V) (entries : List (W × V)) (known : W → Option V) :
    assign (e :: entries) known = assign entries (Function.update known e.1 (some e.2)) := rfl

theorem assign_of_not_mem {entries : List (W × V)} {known : W → Option V} {w : W}
    (h : w ∉ entries.map Prod.fst) : assign entries known w = known w := by
  induction entries generalizing known with
  | nil => rfl
  | cons e entries ih =>
    rw [List.map_cons, List.mem_cons, not_or] at h
    rw [assign_cons, ih h.2, Function.update_of_ne h.1]

/-- An output that gets a value has one of those that it gets. -/
theorem exists_assign_of_mem {entries : List (W × V)} (known : W → Option V) {w : W}
    (h : w ∈ entries.map Prod.fst) : ∃ v, (w, v) ∈ entries ∧ assign entries known w = some v := by
  induction entries generalizing known with
  | nil => exact absurd h List.not_mem_nil
  | cons e entries ih =>
    rw [assign_cons]
    by_cases hmem : w ∈ entries.map Prod.fst
    · obtain ⟨v, hv, heq⟩ := ih _ hmem
      exact ⟨v, List.mem_cons_of_mem _ hv, heq⟩
    · rw [List.map_cons, List.mem_cons] at h
      obtain rfl := h.resolve_right hmem
      refine ⟨e.2, List.mem_cons_self, ?_⟩
      rw [assign_of_not_mem hmem, Function.update_self]

/-- What gets a value depends only on the values that are assigned. -/
theorem assign_congr_of_mem {entries : List (W × V)} (known known' : W → Option V) {w : W}
    (h : w ∈ entries.map Prod.fst) : assign entries known w = assign entries known' w := by
  induction entries generalizing known known' with
  | nil => exact absurd h List.not_mem_nil
  | cons e entries ih =>
    rw [assign_cons, assign_cons]
    by_cases hmem : w ∈ entries.map Prod.fst
    · exact ih _ _ hmem
    · rw [List.map_cons, List.mem_cons] at h
      obtain rfl := h.resolve_right hmem
      rw [assign_of_not_mem hmem, assign_of_not_mem hmem, Function.update_self,
        Function.update_self]

end Assign

theorem mem_fst_zip {l : List W} {values : List V} (hlen : values.length = l.length) {w : W} :
    w ∈ (l.zip values).map Prod.fst ↔ w ∈ l := by
  rw [List.map_fst_zip (Nat.le_of_eq hlen.symm)]

namespace Network

variable (net : Network N R W)

/-- The value of an input, as far as it is known. -/
def valueOf (known : W → Option V) (r : R) : Option V := (net.source r).bind known

variable [DecidableEq W]

/-- Executes a node. -/
def step (b : Behaviour N S V ε) (missing : ε) (x : S × (W → Option V)) (n : N) :
    Except ε (S × (W → Option V)) :=
  match (net.inputs n).mapM (net.valueOf x.2) with
  | none => .error missing
  | some values => (b n x.1 values).map fun result =>
      (result.1, assign ((net.outputs n).zip result.2) x.2)

/-- Executes nodes one after the other. -/
def run (b : Behaviour N S V ε) (missing : ε) (nodes : List N) (x : S × (W → Option V)) :
    Except ε (S × (W → Option V)) :=
  nodes.foldlM (net.step b missing) x

theorem run_cons (b : Behaviour N S V ε) (missing : ε) (n : N) (nodes : List N)
    (x : S × (W → Option V)) :
    net.run b missing (n :: nodes) x = net.step b missing x n >>= net.run b missing nodes := rfl

/-- Only the behaviour of the nodes that are executed matters. -/
theorem run_congr {b b' : Behaviour N S V ε} (missing : ε) {nodes : List N}
    (h : ∀ n ∈ nodes, b n = b' n) (x : S × (W → Option V)) :
    net.run b missing nodes x = net.run b' missing nodes x := by
  induction nodes generalizing x with
  | nil => rfl
  | cons n nodes ih =>
    obtain ⟨hn, h⟩ := List.forall_mem_cons.mp h
    have hstep : net.step b missing x n = net.step b' missing x n := by
      unfold step
      rw [hn]
    rw [run_cons, run_cons, hstep]
    exact bind_congr fun y => ih h y

end Network

/-- The values of the inputs of a node fit the outputs that they come from. -/
def InputsFit (net : Network N R W) (fits : W → V → Prop) (n : N) (values : List V) : Prop :=
  List.Forall₂ (fun r v => ∃ w, net.source r = some w ∧ fits w v) (net.inputs n) values

/-- From values that fit, the nodes make values that fit their outputs. -/
def Fitting (net : Network N R W) (fits : W → V → Prop) (b : Behaviour N S V ε) (nodes : List N) :
    Prop :=
  ∀ n ∈ nodes, ∀ s values s' results, InputsFit net fits n values →
    b n s values = .ok (s', results) → List.Forall₂ fits (net.outputs n) results

/-! ### Scheduled nodes -/

/-- Each input is known when its node is executed: it is known from the start, or is the output of
a node before. -/
def Scheduled (net : Network N R W) (known : W → Prop) : List N → Prop
  | [] => True
  | n :: nodes =>
    (∀ r ∈ net.inputs n, ∃ w, net.source r = some w ∧ known w) ∧
      Scheduled net (fun w => known w ∨ w ∈ net.outputs n) nodes

/-- An order in which the nodes that an input comes from are executed before. -/
theorem scheduled_of_order {net : Network N R W} {known : W → Prop} {nodes : List N}
    (h : ∀ before n after, nodes = before ++ n :: after → ∀ r ∈ net.inputs n,
      ∃ w, net.source r = some w ∧ (known w ∨ ∃ n' ∈ before, w ∈ net.outputs n')) :
    Scheduled net known nodes := by
  induction nodes generalizing known with
  | nil => exact trivial
  | cons n nodes ih =>
    refine ⟨fun r hr => ?_, ih fun before n' after heq r hr => ?_⟩
    · obtain ⟨w, hw, hknown⟩ := h [] n nodes rfl r hr
      exact ⟨w, hw, hknown.resolve_right fun ⟨n', hn', _⟩ => (nomatch hn')⟩
    · obtain ⟨w, hw, hknown⟩ := h (n :: before) n' after (by rw [heq]; rfl) r hr
      refine ⟨w, hw, ?_⟩
      rcases hknown with hknown | ⟨n'', hn'', hout⟩
      · exact Or.inl (Or.inl hknown)
      · rcases List.mem_cons.mp hn'' with rfl | hn''
        · exact Or.inl (Or.inr hout)
        · exact Or.inr ⟨n'', hn'', hout⟩

/-- The values that are known, all of which fit. -/
structure Covers (fits : W → V → Prop) (known : W → Prop) (values : W → Option V) : Prop where
  exists_value : ∀ w, known w → ∃ v, values w = some v
  fits : ∀ w v, values w = some v → fits w v

theorem mapM_eq_some {f : R → Option V} {P : R → V → Prop} {l : List R}
    (h : ∀ r ∈ l, ∃ v, f r = some v ∧ P r v) :
    ∃ values, l.mapM f = some values ∧ List.Forall₂ P l values := by
  induction l with
  | nil => exact ⟨[], rfl, List.Forall₂.nil⟩
  | cons r l ih =>
    obtain ⟨⟨v, hv, hP⟩, hl⟩ := List.forall_mem_cons.mp h
    obtain ⟨values, hvalues, hall⟩ := ih hl
    refine ⟨v :: values, ?_, List.Forall₂.cons hP hall⟩
    rw [List.mapM_cons, hv, hvalues]
    rfl

theorem map_of_mapM {f : R → Option V} {l : List R} {values : List V}
    (h : l.mapM f = some values) : l.map f = values.map some := by
  induction l generalizing values with
  | nil =>
    obtain rfl := Option.some.inj h
    rfl
  | cons r l ih =>
    rw [List.mapM_cons] at h
    obtain ⟨v, hv, h⟩ := Option.bind_eq_some_iff.mp h
    obtain ⟨values', hvalues', h⟩ := Option.bind_eq_some_iff.mp h
    obtain rfl := Option.some.inj h
    rw [List.map_cons, hv, ih hvalues', List.map_cons]

section Schedule

variable [DecidableEq W] {net : Network N R W} {fits : W → V → Prop} {b : Behaviour N S V ε}
  {known : W → Prop}

theorem Covers.assign {values : W → Option V} (h : Covers fits known values) {outputs : List W}
    {results : List V} (hresults : List.Forall₂ fits outputs results) :
    Covers fits (fun w => known w ∨ w ∈ outputs) (assign (outputs.zip results) values) := by
  obtain ⟨hlen, hfits⟩ := List.forall₂_iff_zip.mp hresults
  refine ⟨fun w hw => ?_, fun w v hw => ?_⟩
  · by_cases hmem : w ∈ outputs
    · obtain ⟨v, -, hv⟩ :=
        exists_assign_of_mem values ((mem_fst_zip hlen.symm).mpr hmem)
      exact ⟨v, hv⟩
    · obtain ⟨v, hv⟩ := h.exists_value w (hw.resolve_right hmem)
      exact ⟨v, (assign_of_not_mem fun h => hmem ((mem_fst_zip hlen.symm).mp h)).trans hv⟩
  · by_cases hmem : w ∈ (outputs.zip results).map Prod.fst
    · obtain ⟨v', hentry, hv'⟩ := exists_assign_of_mem values hmem
      obtain rfl := Option.some.inj (hv'.symm.trans hw)
      exact hfits hentry
    · rw [assign_of_not_mem hmem] at hw
      exact h.fits w v hw

omit [DecidableEq W] in
/-- The inputs of the first node are known. -/
theorem Scheduled.exists_values {n : N} {nodes : List N} (h : Scheduled net known (n :: nodes))
    {values : W → Option V} (hvalues : Covers fits known values) :
    ∃ inputs, (net.inputs n).mapM (net.valueOf values) = some inputs ∧
      InputsFit net fits n inputs := by
  refine mapM_eq_some fun r hr => ?_
  obtain ⟨w, hw, hknown⟩ := h.1 r hr
  obtain ⟨v, hv⟩ := hvalues.exists_value w hknown
  exact ⟨v, by rw [Network.valueOf, hw, Option.bind_some, hv], w, hw, hvalues.fits w v hv⟩

/-- **In a scheduled order, no value is missing.**  An execution that fails does so because a node
fails, and afterwards all outputs of the nodes are known. -/
theorem run_of_scheduled {nodes : List N} (hb : Fitting net fits b nodes) (missing : ε)
    (h : Scheduled net known nodes) {x : S × (W → Option V)} (hx : Covers fits known x.2) :
    match net.run b missing nodes x with
    | .ok y => Covers fits (fun w => known w ∨ ∃ n ∈ nodes, w ∈ net.outputs n) y.2
    | .error e => ∃ n ∈ nodes, ∃ s values, b n s values = .error e := by
  induction nodes generalizing x known with
  | nil => exact ⟨fun w hw => hx.exists_value w (hw.resolve_right (by simp)), hx.fits⟩
  | cons n nodes ih =>
    obtain ⟨inputs, hinputs, hfit⟩ := h.exists_values hx
    obtain ⟨hn, hb⟩ := List.forall_mem_cons.mp hb
    rw [Network.run_cons, Network.step, hinputs]
    dsimp only
    rcases hresult : b n x.1 inputs with e | ⟨s', results⟩
    · exact ⟨n, List.mem_cons_self, x.1, inputs, hresult⟩
    · let x' := (s', assign ((net.outputs n).zip results) x.2)
      have hrun := ih hb h.2 (x := x') (hx.assign (hn x.1 inputs s' results hfit hresult))
      show match net.run b missing nodes x' with
        | .ok y => _
        | .error e => _
      rcases hy : net.run b missing nodes x' with e | y
      · rw [hy] at hrun
        obtain ⟨n', hn', hfail⟩ := hrun
        exact ⟨n', List.mem_cons_of_mem _ hn', hfail⟩
      · rw [hy] at hrun
        refine ⟨fun w hw => hrun.exists_value w ?_, hrun.fits⟩
        rcases hw with hw | ⟨n', hn', hw⟩
        · exact Or.inl (Or.inl hw)
        · rcases List.mem_cons.mp hn' with rfl | hn'
          · exact Or.inl (Or.inr hw)
          · exact Or.inr ⟨n', hn', hw⟩

end Schedule

/-! ### Buffers -/

/-- A memory that values are read from by the inputs, and written to by the outputs. -/
structure Buffers (M R W V : Type*) where
  read : M → R → V
  write : M → W → V → M

namespace Buffers

variable (buffers : Buffers M R W V)

/-- Writes the values of several outputs. -/
def store (entries : List (W × V)) (m : M) : M :=
  entries.foldl (fun m e => buffers.write m e.1 e.2) m

/-- Executes a node on a memory. -/
def step (net : Network N R W) (b : Behaviour N S V ε) (x : S × M) (n : N) : Except ε (S × M) :=
  (b n x.1 ((net.inputs n).map (buffers.read x.2))).map fun result =>
    (result.1, buffers.store ((net.outputs n).zip result.2) x.2)

/-- Executes nodes one after the other. -/
def run (net : Network N R W) (b : Behaviour N S V ε) (nodes : List N) (x : S × M) :
    Except ε (S × M) :=
  nodes.foldlM (buffers.step net b) x

theorem run_cons (net : Network N R W) (b : Behaviour N S V ε) (n : N) (nodes : List N)
    (x : S × M) :
    buffers.run net b (n :: nodes) x = buffers.step net b x n >>= buffers.run net b nodes := rfl

/-- A value that fits is read by the inputs that are connected to its output, and by no others. -/
structure Faithful (net : Network N R W) (fits : W → V → Prop) : Prop where
  read_write_same : ∀ m r w v, net.source r = some w → fits w v →
    buffers.read (buffers.write m w v) r = v
  read_write_other : ∀ m r w w' v, net.source r = some w → w ≠ w' → fits w' v →
    buffers.read (buffers.write m w' v) r = buffers.read m r

/-- The inputs read what is known of their outputs. -/
def Holds (net : Network N R W) (known : W → Option V) (m : M) : Prop :=
  ∀ r w v, net.source r = some w → known w = some v → buffers.read m r = v

variable {buffers} {net : Network N R W} {fits : W → V → Prop}

theorem Holds.write [DecidableEq W] (hfaithful : buffers.Faithful net fits) {known : W → Option V}
    {m : M} (h : buffers.Holds net known m) {w : W} {v : V} (hv : fits w v) :
    buffers.Holds net (Function.update known w (some v)) (buffers.write m w v) := by
  intro r w' v' hr hknown
  by_cases hw : w' = w
  · rw [hw, Function.update_self] at hknown
    obtain rfl := Option.some.inj hknown
    exact hfaithful.read_write_same m r w v (hw ▸ hr) hv
  · rw [Function.update_of_ne hw] at hknown
    rw [hfaithful.read_write_other m r w' w v hr hw hv]
    exact h r w' v' hr hknown

theorem Holds.store [DecidableEq W] (hfaithful : buffers.Faithful net fits)
    {entries : List (W × V)} (hentries : ∀ e ∈ entries, fits e.1 e.2) {known : W → Option V} {m : M}
    (h : buffers.Holds net known m) :
    buffers.Holds net (assign entries known) (buffers.store entries m) := by
  induction entries generalizing known m with
  | nil => exact h
  | cons e entries ih =>
    obtain ⟨he, hentries⟩ := List.forall_mem_cons.mp hentries
    exact ih hentries (h.write hfaithful he)

/-- A node reads what is known at its inputs. -/
theorem Holds.map_read {known : W → Option V} {m : M} (h : buffers.Holds net known m) {l : List R}
    {values : List V} (hvalues : l.mapM (net.valueOf known) = some values) :
    l.map (buffers.read m) = values := by
  have hread : ∀ r v, net.valueOf known r = some v → buffers.read m r = v := by
    intro r v hv
    obtain ⟨w, hw, hknown⟩ := Option.bind_eq_some_iff.mp hv
    exact h r w v hw hknown
  have hmap := map_of_mapM hvalues
  have hlen : l.length = values.length := by simpa using congrArg List.length hmap
  refine List.ext_getElem (by simpa using hlen) fun i hi hi' => ?_
  rw [List.getElem_map]
  apply hread
  have hget := congrArg (fun l => l[i]?) hmap
  simp only [List.getElem?_map] at hget
  rw [List.getElem?_eq_getElem (by simpa using hi), List.getElem?_eq_getElem hi'] at hget
  exact Option.some.inj hget

/-- **Buffers hold what is known.**  The execution of scheduled nodes can be done in buffers. -/
theorem run_corresponds [DecidableEq W] (hfaithful : buffers.Faithful net fits)
    {b : Behaviour N S V ε} {nodes : List N} (hb : Fitting net fits b nodes) (missing : ε)
    {known : W → Prop} (hscheduled : Scheduled net known nodes) {x : S × (W → Option V)}
    (hx : Covers fits known x.2) {m : M} (h : buffers.Holds net x.2 m) :
    Corresponds (fun x y => x.1 = y.1 ∧ buffers.Holds net x.2 y.2)
      (net.run b missing nodes x) (buffers.run net b nodes (x.1, m)) := by
  induction nodes generalizing x m known with
  | nil => exact ⟨rfl, h⟩
  | cons n nodes ih =>
    obtain ⟨inputs, hinputs, hfit⟩ := hscheduled.exists_values hx
    obtain ⟨hn, hb⟩ := List.forall_mem_cons.mp hb
    rw [Network.run_cons, Network.step, run_cons, step, hinputs, h.map_read hinputs]
    dsimp only
    rcases hresult : b n x.1 inputs with e | ⟨s', results⟩
    · rfl
    · have hresults := hn x.1 inputs s' results hfit hresult
      exact ih hb hscheduled.2 (hx.assign hresults)
        (h.store hfaithful fun e he => (List.forall₂_iff_zip.mp hresults).2 he)

theorem store_invariant {P : M → Prop}
    (hwrite : ∀ m w v, fits w v → P m → P (buffers.write m w v)) {entries : List (W × V)}
    (hentries : ∀ e ∈ entries, fits e.1 e.2) {m : M} (hm : P m) : P (buffers.store entries m) := by
  induction entries generalizing m with
  | nil => exact hm
  | cons e entries ih =>
    obtain ⟨he, hentries⟩ := List.forall_mem_cons.mp hentries
    exact ih hentries (hwrite m e.1 e.2 he hm)

/-- What each write of a value that fits preserves **is preserved by the execution**. -/
theorem run_invariant {P : M → Prop} {b : Behaviour N S V ε} {nodes : List N}
    (hb : Fitting net fits b nodes)
    (hread : ∀ m r w, net.source r = some w → fits w (buffers.read m r))
    (hsource : ∀ n ∈ nodes, ∀ r ∈ net.inputs n, ∃ w, net.source r = some w)
    (hwrite : ∀ m w v, fits w v → P m → P (buffers.write m w v)) {x y : S × M} (hx : P x.2)
    (hok : buffers.run net b nodes x = .ok y) : P y.2 := by
  induction nodes generalizing x with
  | nil =>
    obtain rfl := Except.ok.inj hok
    exact hx
  | cons n nodes ih =>
    obtain ⟨hn, hb⟩ := List.forall_mem_cons.mp hb
    obtain ⟨hsources, hsource⟩ := List.forall_mem_cons.mp hsource
    have hinputs : InputsFit net fits n ((net.inputs n).map (buffers.read x.2)) := by
      unfold InputsFit
      rw [List.forall₂_map_right_iff, List.forall₂_same]
      intro r hr
      obtain ⟨w, hw⟩ := hsources r hr
      exact ⟨w, hw, hread x.2 r w hw⟩
    rw [run_cons, step] at hok
    rcases hresult : b n x.1 ((net.inputs n).map (buffers.read x.2)) with e | ⟨s', results⟩
    · rw [hresult] at hok
      cases hok
    · rw [hresult] at hok
      have hresults := hn x.1 _ s' results hinputs hresult
      refine ih hb hsource (store_invariant hwrite (fun e he => ?_) hx) hok
      exact (List.forall₂_iff_zip.mp hresults).2 he

end Buffers

/-! ### Copies -/

/-- The nodes of the network `net` for which `isCopy` holds copy their inputs to their outputs.  In
the network `net'`, the inputs of the other nodes are connected to what is copied. -/
structure Bypass (net net' : Network N R W) (b : Behaviour N S V ε) (isCopy : N → Bool)
    (original : W → W) (n : N) : Prop where
  copies : isCopy n = true → ∀ s values, values.length = (net.inputs n).length →
    b n s values = .ok (s, values)
  copied : isCopy n = true → ∀ e ∈ (net.inputs n).zip (net.outputs n),
    (net.source e.1).map original = some (original e.2)
  inputs : isCopy n = false → net'.inputs n = net.inputs n
  outputs : isCopy n = false → net'.outputs n = net.outputs n
  uncopied : isCopy n = false → ∀ w ∈ net.outputs n, original w = w
  source : isCopy n = false → ∀ r ∈ net.inputs n, net'.source r = (net.source r).map original

namespace Bypass

/-- What is known in one network is known in the other one, too. -/
def Agrees (original : W → W) (known known' : W → Option V) : Prop :=
  ∀ w v, known w = some v → known' (original w) = some v

variable {net net' : Network N R W} {b : Behaviour N S V ε} {isCopy : N → Bool}
  {original : W → W}

section Node

variable {n : N} (h : Bypass net net' b isCopy original n)

include h

/-- A copy does not tell anything new. -/
theorem agrees_copy [DecidableEq W] (hn : isCopy n = true) {known known' : W → Option V}
    (hagrees : Agrees original known known') {values : List V}
    (hvalues : (net.inputs n).mapM (net.valueOf known) = some values) :
    Agrees original (assign ((net.outputs n).zip values) known) known' := by
  intro w v hw
  by_cases hmem : w ∈ ((net.outputs n).zip values).map Prod.fst
  · obtain ⟨v', hentry, hv'⟩ := exists_assign_of_mem known hmem
    obtain rfl := Option.some.inj (hw.symm.trans hv')
    -- the value has been read at the input with the same position
    obtain ⟨i, hi, hget⟩ := List.getElem_of_mem hentry
    rw [List.getElem_zip, Prod.mk.injEq] at hget
    rw [List.length_zip] at hi
    have hmap := map_of_mapM hvalues
    have hlen : (net.inputs n).length = values.length := by
      simpa using congrArg List.length hmap
    have hin : i < (net.inputs n).length := by omega
    have hread := congrArg (fun l => l[i]?) hmap
    simp only [List.getElem?_map] at hread
    rw [List.getElem?_eq_getElem hin, List.getElem?_eq_getElem (by omega)] at hread
    have hvalue : net.valueOf known (net.inputs n)[i] = some v := by
      rw [← hget.2]
      exact Option.some.inj hread
    obtain ⟨w₀, hw₀, hknown⟩ := Option.bind_eq_some_iff.mp hvalue
    have hpair : ((net.inputs n)[i], w) ∈ (net.inputs n).zip (net.outputs n) := by
      refine List.mem_iff_getElem.mpr ⟨i, by rw [List.length_zip]; omega, ?_⟩
      rw [List.getElem_zip, hget.1]
    have horiginal := h.copied hn _ hpair
    rw [hw₀, Option.map_some, Option.some.injEq] at horiginal
    rw [← horiginal]
    exact hagrees w₀ v hknown
  · rw [assign_of_not_mem hmem] at hw
    exact hagrees w v hw

/-- What an ordinary node reads. -/
theorem mapM_valueOf (hn : isCopy n = false) {known known' : W → Option V}
    (hagrees : Agrees original known known') {values : List V}
    (hvalues : (net.inputs n).mapM (net.valueOf known) = some values) :
    (net'.inputs n).mapM (net'.valueOf known') = some values := by
  have hvalue : ∀ r ∈ net.inputs n, ∀ v, net.valueOf known r = some v →
      net'.valueOf known' r = some v := by
    intro r hr v hv
    obtain ⟨w, hw, hknown⟩ := Option.bind_eq_some_iff.mp hv
    rw [Network.valueOf, h.source hn r hr, hw, Option.map_some, Option.bind_some]
    exact hagrees w v hknown
  rw [h.inputs hn]
  clear hn
  generalize net.inputs n = l at hvalues hvalue
  induction l generalizing values with
  | nil => exact hvalues
  | cons r l ih =>
    obtain ⟨hr, hl⟩ := List.forall_mem_cons.mp hvalue
    rw [List.mapM_cons] at hvalues ⊢
    obtain ⟨v, hv, hvalues⟩ := Option.bind_eq_some_iff.mp hvalues
    obtain ⟨values', hvalues', hcons⟩ := Option.bind_eq_some_iff.mp hvalues
    rw [hr v hv, Option.bind_eq_bind, Option.bind_some, ih hvalues' hl]
    exact hcons

/-- The outputs of an ordinary node, which have not been known before. -/
theorem agrees_ordinary [DecidableEq W] (hn : isCopy n = false)
    {known known' : W → Option V} (hagrees : Agrees original known known')
    (hfresh : ∀ w ∈ net'.outputs n, known' w = none) (results : List V) :
    Agrees original (assign ((net.outputs n).zip results) known)
      (assign ((net'.outputs n).zip results) known') := by
  intro w v hw
  rw [h.outputs hn] at hfresh ⊢
  by_cases hmem : w ∈ ((net.outputs n).zip results).map Prod.fst
  · have hout : w ∈ net.outputs n := by
      obtain ⟨e, he, rfl⟩ := List.mem_map.mp hmem
      exact (List.of_mem_zip he).1
    rw [h.uncopied hn w hout, assign_congr_of_mem known' known hmem]
    exact hw
  · rw [assign_of_not_mem hmem] at hw
    have hknown := hagrees w v hw
    rw [assign_of_not_mem, hknown]
    intro hmem'
    obtain ⟨e, he, heq⟩ := List.mem_map.mp hmem'
    rw [heq.symm, hfresh _ (List.of_mem_zip he).1] at hknown
    cases hknown

end Node

/-- **Copies make no difference.**  If each output is the output of one node at most, the copies
can be left out. -/
theorem run_corresponds [DecidableEq W] {fits : W → V → Prop} {nodes : List N}
    (hb : Fitting net fits b nodes) (h : ∀ n ∈ nodes, Bypass net net' b isCopy original n)
    (missing : ε) {known : W → Prop} (hscheduled : Scheduled net known nodes)
    {x : S × (W → Option V)} (hx : Covers fits known x.2) {known' : W → Option V}
    (hagrees : Agrees original x.2 known')
    (hnodup : ((nodes.filter fun n => !isCopy n).flatMap net'.outputs).Nodup)
    (hfresh : ∀ w ∈ (nodes.filter fun n => !isCopy n).flatMap net'.outputs, known' w = none) :
    Corresponds (fun x y => x.1 = y.1 ∧ Agrees original x.2 y.2)
      (net.run b missing nodes x)
      (net'.run b missing (nodes.filter fun n => !isCopy n) (x.1, known')) := by
  induction nodes generalizing x known known' with
  | nil => exact ⟨rfl, hagrees⟩
  | cons n nodes ih =>
    obtain ⟨inputs, hinputs, hfit⟩ := hscheduled.exists_values hx
    obtain ⟨hn, hb⟩ := List.forall_mem_cons.mp hb
    obtain ⟨hbypass, h⟩ := List.forall_mem_cons.mp h
    rw [Network.run_cons, Network.step, hinputs]
    dsimp only
    rcases hcopy : isCopy n with _ | _
    · -- the same node is executed in the other network
      have hkeep : (!isCopy n) = true := by rw [hcopy]; rfl
      rw [List.filter_cons_of_pos (p := fun n => !isCopy n) hkeep] at hnodup hfresh ⊢
      rw [List.flatMap_cons, List.nodup_append'] at hnodup
      obtain ⟨-, hnodup, hdisjoint⟩ := hnodup
      simp only [List.flatMap_cons, List.mem_append] at hfresh
      rw [Network.run_cons, Network.step, hbypass.mapM_valueOf hcopy hagrees hinputs]
      dsimp only
      rcases hresult : b n x.1 inputs with e | ⟨s', results⟩
      · rfl
      · have hresults := hn x.1 inputs s' results hfit hresult
        refine ih hb h hscheduled.2 (hx.assign hresults)
          (hbypass.agrees_ordinary hcopy hagrees (fun w hw => hfresh w (Or.inl hw)) results) hnodup ?_
        intro w hw
        rw [assign_of_not_mem]
        · exact hfresh w (Or.inr hw)
        · intro hmem
          obtain ⟨e, he, rfl⟩ := List.mem_map.mp hmem
          exact hdisjoint (List.of_mem_zip he).1 hw
    · -- a copy is executed in one network only
      have hskip : ¬ (!isCopy n) = true := by rw [hcopy]; exact Bool.false_ne_true
      rw [List.filter_cons_of_neg (p := fun n => !isCopy n) hskip] at hnodup hfresh ⊢
      have hresult := hbypass.copies hcopy x.1 inputs hfit.length_eq.symm
      have hresults := hn x.1 inputs _ _ hfit hresult
      rw [hresult]
      exact ih hb h hscheduled.2 (hx.assign hresults) (hbypass.agrees_copy hcopy hagrees hinputs) hnodup hfresh

end Bypass

end Dataflow
