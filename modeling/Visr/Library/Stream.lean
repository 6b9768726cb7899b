import Visr.Library.Dataflow

/-!
# Streams of blocks

A computation with a state is applied to one block after the other.  A dataflow is such a
computation: the values of some outputs are given from the outside, and those that arrive at some
inputs are its result.

## Main definitions

* `stream` — applies a computation to a list of blocks.
* `Network.transform` — executes the nodes once, between values from the outside.

## Main results

* `stream_corresponds` — computations that correspond for each block correspond for all runs.
* `Bypass.transform_corresponds` — **a pass in buffers, with copies, is a pass of the dataflow**.
-/

namespace Dataflow

variable {N R W S S' V ε M X X' Y Y' : Type*}

/-! ### Runs -/

/-- Applies a computation to one block after the other. -/
def stream (step : S → X → Except ε (S × Y)) : S → List X → Except ε (S × List Y)
  | s, [] => .ok (s, [])
  | s, x :: blocks =>
    match step s x with
    | .error e => .error e
    | .ok (s', y) => (stream step s' blocks).map fun result => (result.1, y :: result.2)

theorem stream_cons_error {step : S → X → Except ε (S × Y)} {s : S} {x : X} {e : ε}
    (h : step s x = .error e) (blocks : List X) : stream step s (x :: blocks) = .error e := by
  rw [stream, h]

theorem stream_cons_ok {step : S → X → Except ε (S × Y)} {s s' : S} {x : X} {y : Y}
    (h : step s x = .ok (s', y)) (blocks : List X) :
    stream step s (x :: blocks) =
      (stream step s' blocks).map fun result => (result.1, y :: result.2) := by
  rw [stream, h]

/-- Computations that correspond for each block **correspond for all runs**. -/
theorem stream_corresponds (rel : S → S' → Prop) (relX : X → X' → Prop) (relY : Y → Y' → Prop)
    {step : S → X → Except ε (S × Y)} {step' : S' → X' → Except ε (S' × Y')}
    (hstep : ∀ s s' x x', rel s s' → relX x x' →
      Corresponds (fun a b => rel a.1 b.1 ∧ relY a.2 b.2) (step s x) (step' s' x'))
    {blocks : List X} {blocks' : List X'} (hblocks : List.Forall₂ relX blocks blocks') {s : S}
    {s' : S'} (hs : rel s s') :
    Corresponds (fun a b => rel a.1 b.1 ∧ List.Forall₂ relY a.2 b.2) (stream step s blocks)
      (stream step' s' blocks') := by
  induction hblocks generalizing s s' with
  | nil => exact ⟨hs, List.Forall₂.nil⟩
  | @cons x x' rest rest' hx _ ih =>
    have h := hstep s s' x x' hs hx
    rcases hresult : step s x with e | ⟨t, y⟩
    · rw [hresult] at h
      rw [stream_cons_error hresult, stream_cons_error h.eq_error]
      rfl
    · rw [hresult] at h
      obtain ⟨⟨t', y'⟩, hresult', ht, hy⟩ := h.exists_ok
      rw [stream_cons_ok hresult, stream_cons_ok hresult']
      have hrest := ih ht
      rcases hrun : stream step t rest with e | z
      · rw [hrun] at hrest
        rw [hrest.eq_error]
        rfl
      · rw [hrun] at hrest
        obtain ⟨z', hrun', hz, hall⟩ := hrest.exists_ok
        rw [hrun']
        exact ⟨hz, List.Forall₂.cons hy hall⟩

/-- What each block preserves is preserved by a run. -/
theorem stream_invariant {P : ℕ → S → Prop} {step : S → X → Except ε (S × Y)}
    (hstep : ∀ n s x s' y, P n s → step s x = .ok (s', y) → P (n + 1) s') {blocks : List X} {n : ℕ}
    {s : S} (hs : P n s) {result : S × List Y} (hresult : stream step s blocks = .ok result) :
    P (n + blocks.length) result.1 := by
  induction blocks generalizing n s result with
  | nil =>
    obtain rfl := Except.ok.inj hresult
    exact hs
  | cons x blocks ih =>
    rcases hx : step s x with e | ⟨s', y⟩
    · rw [stream_cons_error hx] at hresult
      cases hresult
    · rw [stream_cons_ok hx] at hresult
      rcases hrest : stream step s' blocks with e | z
      · rw [hrest] at hresult
        cases hresult
      · rw [hrest] at hresult
        obtain rfl := Except.ok.inj hresult
        have hz := ih (hstep n s x s' y hs hx) hrest
        rwa [Nat.add_assoc, Nat.add_comm 1, ← List.length_cons (a := x)] at hz

theorem Corresponds.imp {rel rel' : X → Y → Prop} {a : Except ε X} {b : Except ε Y}
    (h : Corresponds rel a b) (himp : ∀ x y, a = .ok x → rel x y → rel' x y) :
    Corresponds rel' a b := by
  cases a with
  | ok x =>
    obtain ⟨y, rfl, hxy⟩ := h.exists_ok
    exact himp x y rfl hxy
  | error e =>
    rw [h.eq_error]
    rfl

/-! ### Passes of a dataflow -/

section Transform

variable [DecidableEq W]

/-- Executes the nodes once.  The values of the outputs `captures` are given, and those that arrive
at the inputs `playbacks` are the result. -/
def Network.transform (net : Network N R W) (b : Behaviour N S V ε) (missing : ε) (nodes : List N)
    (captures : List W) (playbacks : List R) (s : S) (values : List V) : Except ε (S × List V) :=
  match net.run b missing nodes (s, assign (captures.zip values) fun _ => none) with
  | .error e => .error e
  | .ok x =>
    match playbacks.mapM (net.valueOf x.2) with
    | none => .error missing
    | some results => .ok (x.1, results)

/-- What is known from the outside. -/
theorem covers_captures {fits : W → V → Prop} {captures : List W} {values : List V}
    (h : List.Forall₂ fits captures values) :
    Covers fits (· ∈ captures) (assign (captures.zip values) fun _ => none) := by
  have hnone : Covers fits (fun _ => False) (fun _ => none : W → Option V) :=
    ⟨fun _ h => h.elim, fun _ _ h => (nomatch h)⟩
  have hassign := hnone.assign h
  exact ⟨fun w hw => hassign.exists_value w (Or.inr hw), hassign.fits⟩

theorem mapM_eq_map {f : R → Option V} {g : R → V} {l : List R} (h : ∀ r ∈ l, f r = some (g r)) :
    l.mapM f = some (l.map g) := by
  induction l with
  | nil => rfl
  | cons r l ih =>
    obtain ⟨hr, hl⟩ := List.forall_mem_cons.mp h
    rw [List.mapM_cons, hr, ih hl]
    rfl

variable {net net' : Network N R W} {b b' : Behaviour N S V ε} {isCopy : N → Bool}
  {original : W → W} {fits : W → V → Prop} {buffers : Buffers M R W V} {nodes : List N}
  {captures : List W} {playbacks : List R}

/-- **A pass in buffers, with copies, is a pass of the dataflow.** -/
theorem Bypass.transform_corresponds (hfaithful : buffers.Faithful net fits)
    (hb : Fitting net fits b nodes) (h : ∀ n ∈ nodes, Bypass net net' b isCopy original n)
    (hb' : ∀ n ∈ nodes, isCopy n = false → b n = b' n)
    (hscheduled : Scheduled net (· ∈ captures) nodes)
    (hcaptures : ∀ w ∈ captures, original w = w)
    (hnodup : ((nodes.filter fun n => !isCopy n).flatMap net'.outputs).Nodup)
    (hfresh : ∀ w ∈ (nodes.filter fun n => !isCopy n).flatMap net'.outputs, w ∉ captures)
    (hplaybacks : ∀ r ∈ playbacks, ∃ w, net.source r = some w ∧
      net'.source r = some (original w) ∧ (w ∈ captures ∨ ∃ n ∈ nodes, w ∈ net.outputs n))
    {values : List V} (hvalues : List.Forall₂ fits captures values) (missing : ε) (s : S) (m : M) :
    Corresponds (fun x y => x.1 = y.1 ∧ x.2 = playbacks.map (buffers.read y.2))
      (net'.transform b' missing (nodes.filter fun n => !isCopy n) captures playbacks s values)
      (buffers.run net b nodes (s, buffers.store (captures.zip values) m)) := by
  let known := assign (captures.zip values) fun _ => none
  have hcovers : Covers fits (· ∈ captures) known := covers_captures hvalues
  have hknown : ∀ w ∉ captures, known w = none := fun w hw =>
    assign_of_not_mem fun hmem => hw ((mem_fst_zip hvalues.length_eq.symm).mp hmem)
  have hagrees : Agrees original known known := by
    intro w v hw
    have hmem : w ∈ captures := by
      by_contra hnot
      rw [hknown w hnot] at hw
      cases hw
    rw [hcaptures w hmem, hw]
  have hholds : buffers.Holds net known (buffers.store (captures.zip values) m) := by
    refine Buffers.Holds.store hfaithful (fun e he => (List.forall₂_iff_zip.mp hvalues).2 he) ?_
    exact fun _ _ _ _ h => (nomatch h)
  have hrun := run_of_scheduled hb missing hscheduled (x := (s, known)) hcovers
  have hcopies := run_corresponds hb h missing hscheduled (x := (s, known)) hcovers
    hagrees hnodup fun w hw => hknown w (hfresh w hw)
  have hbuffers := Buffers.run_corresponds hfaithful hb missing hscheduled
    (x := (s, known)) hcovers hholds
  have hkept : ∀ n ∈ nodes.filter fun n => !isCopy n, b n = b' n := by
    intro n hn
    obtain ⟨hn, hcopy⟩ := List.mem_filter.mp hn
    exact hb' n hn (by simpa using hcopy)
  rw [Network.run_congr net' missing hkept] at hcopies
  unfold Network.transform
  change Corresponds _ (match net'.run b' missing _ (s, known) with
    | .error e => _
    | .ok x => _) _
  rcases hx : net.run b missing nodes (s, known) with e | x
  · rw [hx] at hcopies hbuffers
    rw [hcopies.eq_error, hbuffers.eq_error]
    rfl
  · rw [hx] at hcopies hbuffers hrun
    obtain ⟨y, hy, hstate, hcopied⟩ := hcopies.exists_ok
    obtain ⟨z, hz, hstate', hread⟩ := hbuffers.exists_ok
    rw [hy, hz]
    dsimp only
    have hresults : playbacks.mapM (net'.valueOf y.2) = some (playbacks.map (buffers.read z.2)) := by
      refine mapM_eq_map fun r hr => ?_
      obtain ⟨w, hw, hw', hsource⟩ := hplaybacks r hr
      obtain ⟨v, hv⟩ := hrun.exists_value w hsource
      rw [hread r w v hw hv, Network.valueOf, hw', Option.bind_some]
      exact hcopied w v hv
    rw [hresults]
    exact ⟨hstate.symm.trans hstate', rfl⟩

end Transform

end Dataflow
