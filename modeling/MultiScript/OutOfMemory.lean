/-
The exception bucket `out_of_memory_bucket` of the OCaml runtime (`fail.c`), which has to be
ready before memory is short. A run of a unit registers it as a root at its start and removes
it at its end, whatever is around the run; a closure that the host calls does neither.
-/
import MultiScript.UnitTables

namespace MultiScript.Ocaml

open Run

/-- How an activation of the interpreter was entered: `custom_caml_run_code`, or
`caml_callbackN_exn`. -/
inductive FrameKind
  | run
  | call
deriving DecidableEq, Repr

/-- What a global root points to: `out_of_memory_bucket.exn`, or a named value. -/
inductive Root
  | outOfMemory
  | named (name : Bytes)
deriving DecidableEq, Repr

/-- `caml_register_global_root`. -/
def camlRegisterGlobalRoot (r : Root) (roots : List Root) : List Root := if r ∈ roots then roots else r :: roots

/-- `caml_remove_global_root`. -/
def camlRemoveGlobalRoot (r : Root) (roots : List Root) : List Root := roots.erase r

/-- The units, how each of the `frames` was entered, `caml_global_roots`, and
`out_of_memory_bucket.exn`, by the global data whose entry it is. -/
structure Bucketed where
  running : Running
  kinds : List FrameKind
  roots : List Root
  exn : Option Nat

namespace Bucketed

/-- `caml_init_exceptions`. -/
def camlInitExceptions (b : Bucketed) : Bucketed :=
  { b with exn := some b.running.rt.tables.globalData, roots := camlRegisterGlobalRoot .outOfMemory b.roots }

/-- `caml_deinit_exceptions`. -/
def camlDeinitExceptions (b : Bucketed) : Bucketed :=
  { b with exn := some b.running.rt.tables.globalData, roots := camlRemoveGlobalRoot .outOfMemory b.roots }

/-- The event has led to `s`. -/
def next (b : Bucketed) (s : Running) : UnitEvent → Bucketed
  | .executeString _ => { b with running := s, kinds := .run :: b.kinds }.camlInitExceptions
  | .endCall _ => { b with running := s, kinds := .call :: b.kinds }
  | .register name _ => { b with running := s, roots := camlRegisterGlobalRoot (.named name) b.roots }
  | .registerFunction _ => { b with running := s }
  | .finish =>
    match b.kinds with
    | .run :: kinds => { b with running := s, kinds }.camlDeinitExceptions
    | .call :: kinds => { b with running := s, kinds }
    | [] => { b with running := s }

def start : Bucketed := { running := .start, kinds := [], roots := [], exn := none }

end Bucketed

def buckets (builtins : List Bytes) : Machine Bucketed UnitEvent Unit Unit where
  step e b := (unitStep builtins e b.running).map fun r => ((), b.next r.2 e)

/-- The bucket is good for what is being interpreted, and it is a root once at most. -/
structure BucketValid (b : Bucketed) : Prop where
  root : b.running.frames ≠ [] → .outOfMemory ∈ b.roots
  exn : ∀ code ∈ b.running.frames.head?, ∃ t, b.running.rt.built code = some t ∧ b.exn = some t.globalData
  once : b.roots.count .outOfMemory ≤ 1

/-- A closure is called inside a run, and belongs to the unit loaded last; and a run has
nothing around it when it ends. -/
def Bracketed : UnitEvent → Bucketed → Prop
  | .endCall name, b => b.running.frames ≠ [] ∧ ∀ c ∈ b.running.rt.named name, c.code = b.running.rt.startCode
  | .finish, b => b.kinds.head? = some .run → b.running.frames.tail = []
  | _, _ => True

/-! ## Brackets -/

/-- Down to the innermost run, all that is being interpreted belongs to the unit. -/
def Inner (code : Nat) : List Nat → List FrameKind → Prop
  | [], [] => True
  | c :: _, .run :: _ => c = code
  | c :: frames, .call :: kinds => c = code ∧ frames ≠ [] ∧ Inner code frames kinds
  | _, _ => False

/-- What the brackets keep. -/
structure InBrackets (b : Bucketed) : Prop where
  consistent : Consistent b.running
  kinds : b.kinds.length = b.running.frames.length
  inner : Inner b.running.rt.startCode b.running.frames b.kinds
  root : .outOfMemory ∈ b.roots ↔ b.running.frames ≠ []
  exn : b.running.frames ≠ [] → b.exn = some b.running.rt.startCode
  once : b.roots.count .outOfMemory ≤ 1

variable {builtins : List Bytes} {b b' : Bucketed} {e : UnitEvent}

theorem Inner.head {code : Nat} : ∀ {frames : List Nat} {kinds : List FrameKind}, Inner code frames kinds →
    ∀ c ∈ frames.head?, c = code
  | c :: _, .run :: _, h, _, hc => by cases hc; exact h
  | c :: _, .call :: _, h, _, hc => by cases hc; exact h.1

theorem count_register (r : Root) (roots : List Root) (h : roots.count .outOfMemory ≤ 1) :
    (camlRegisterGlobalRoot r roots).count .outOfMemory ≤ 1 := by
  unfold camlRegisterGlobalRoot
  split
  · exact h
  · rename_i hr
    by_cases ho : r = .outOfMemory
    · subst ho
      have hzero := List.count_eq_zero_of_not_mem hr
      rw [List.count_cons_self]
      omega
    · rw [List.count_cons_of_ne ho]
      exact h

theorem mem_register (r : Root) (roots : List Root) : r ∈ camlRegisterGlobalRoot r roots := by
  unfold camlRegisterGlobalRoot
  split
  · assumption
  · exact List.mem_cons_self

theorem mem_register_named (name : Bytes) (roots : List Root) :
    .outOfMemory ∈ camlRegisterGlobalRoot (.named name) roots ↔ .outOfMemory ∈ roots := by
  unfold camlRegisterGlobalRoot
  split
  · exact Iff.rfl
  · rw [List.mem_cons]
    simp

/-- A root that is registered once is gone once it is removed. -/
theorem not_mem_remove {roots : List Root} (h : roots.count .outOfMemory ≤ 1) :
    .outOfMemory ∉ camlRemoveGlobalRoot .outOfMemory roots := by
  rw [camlRemoveGlobalRoot, ← List.count_eq_zero, List.count_erase_self]
  omega

theorem InBrackets.valid (h : InBrackets b) : BucketValid b := by
  refine ⟨h.root.mpr, fun code hcode => ?_, h.once⟩
  have hne : b.running.frames ≠ [] := by
    intro hnil
    rw [hnil] at hcode
    cases hcode
  have hlast : code = b.running.rt.startCode := h.inner.head code hcode
  have hlt := h.consistent.frames code (List.mem_of_mem_head? hcode)
  have hloaded : b.running.rt.loaded ≠ [] := by
    intro hnil
    rw [hnil] at hlt
    exact absurd hlt (Nat.not_lt_zero _)
  have hbuilt := h.consistent.current hloaded
  refine ⟨b.running.rt.tables, hlast ▸ hbuilt, ?_⟩
  rw [h.exn hne, h.consistent.globals _ _ hbuilt]

theorem buckets_inv {o : Unit} (h : (buckets builtins).step e b = .ok (o, b')) :
    ∃ s, unitStep builtins e b.running = .ok ((), s) ∧ b' = b.next s e := by
  simp only [buckets] at h
  cases hs : unitStep builtins e b.running with
  | error f => rw [hs] at h; cases h
  | ok r => rw [hs] at h; cases h; exact ⟨r.2, rfl, rfl⟩

theorem executeString_inBrackets {file : Bytecode} {s : Running} (h : InBrackets b)
    (hs : unitStep builtins (.executeString file) b.running = .ok ((), s)) :
      InBrackets (b.next s (.executeString file)) := by
  have hconsistent : Consistent s := unitStep_consistent h.consistent hs
  cases hl : customCamlLoadCode builtins file b.running.rt with
  | none => simp [unitStep, hl] at hs
  | some r =>
    obtain ⟨code, rt⟩ := r
    obtain ⟨hstart, hglobals, -⟩ := customCamlLoadCode_some hl
    simp only [unitStep, hl] at hs
    cases hs
    refine ⟨hconsistent, ?_, rfl, ?_, fun _ => ?_, count_register _ _ h.once⟩
    · show (b.kinds.length + 1) = (b.running.frames.length + 1)
      rw [h.kinds]
    · exact ⟨fun _ => List.cons_ne_nil _ _, fun _ => mem_register _ _⟩
    · show some code.tables.globalData = some code.startCode
      rw [hglobals, hstart]

theorem endCall_inBrackets {name : Bytes} {s : Running} (h : InBrackets b) (hne : b.running.frames ≠ [])
    (hlast : ∀ c ∈ b.running.rt.named name, c.code = b.running.rt.startCode)
    (hs : unitStep builtins (.endCall name) b.running = .ok ((), s)) : InBrackets (b.next s (.endCall name)) := by
  have hconsistent : Consistent s := unitStep_consistent h.consistent hs
  cases hn : b.running.rt.named name with
  | none => simp [unitStep, hn] at hs
  | some c =>
    simp only [unitStep, hn] at hs
    cases hs
    refine ⟨hconsistent, ?_, ⟨hlast c hn, hne, h.inner⟩, ?_, fun _ => h.exn hne, h.once⟩
    · show (b.kinds.length + 1) = (b.running.frames.length + 1)
      rw [h.kinds]
    · exact ⟨fun _ => List.cons_ne_nil _ _, fun _ => h.root.mpr hne⟩

theorem finish_inBrackets {s : Running} (h : InBrackets b)
    (hbare : b.kinds.head? = some .run → b.running.frames.tail = [])
    (hs : unitStep builtins .finish b.running = .ok ((), s)) : InBrackets (b.next s .finish) := by
  have hconsistent : Consistent s := unitStep_consistent h.consistent hs
  obtain ⟨⟨rt, frames⟩, kinds, roots, exn⟩ := b
  obtain ⟨hC, hkinds, hinner, hroot, hexn, honce⟩ := h
  cases frames with
  | nil => simp [unitStep] at hs
  | cons c frames =>
    cases hs
    cases kinds with
    | nil => cases hinner
    | cons kind kinds =>
      have hlength : kinds.length = frames.length := by simpa using hkinds
      cases kind with
      | run =>
        have hnil : frames = [] := hbare rfl
        subst hnil
        have hkinds' : kinds = [] := List.length_eq_zero_iff.mp hlength
        subst hkinds'
        have hremoved := not_mem_remove honce
        refine ⟨hconsistent, rfl, trivial, ⟨fun h => absurd h hremoved, fun h => absurd rfl h⟩,
          fun h => absurd rfl h, ?_⟩
        show (camlRemoveGlobalRoot .outOfMemory roots).count .outOfMemory ≤ 1
        rw [List.count_eq_zero_of_not_mem hremoved]
        omega
      | call =>
        obtain ⟨-, hne, hinner'⟩ := hinner
        have hmem : Root.outOfMemory ∈ roots := hroot.mpr (List.cons_ne_nil _ _)
        exact ⟨hconsistent, hlength, hinner', ⟨fun _ => hne, fun _ => hmem⟩,
          fun _ => hexn (List.cons_ne_nil _ _), honce⟩

/-- What keeps to the brackets stays in them. -/
theorem inBrackets_step {o : Unit} (h : InBrackets b) (hs : (buckets builtins).step e b = .ok (o, b'))
    (hQ : Bracketed e b) :
    InBrackets b' := by
  obtain ⟨s, hunit, rfl⟩ := buckets_inv hs
  clear hs
  have hconsistent : Consistent s := unitStep_consistent h.consistent hunit
  cases e with
  | executeString file => exact executeString_inBrackets h hunit
  | endCall name => exact endCall_inBrackets h hQ.1 hQ.2 hunit
  | finish => exact finish_inBrackets h hQ hunit
  | register name entry =>
    obtain ⟨⟨rt, frames⟩, kinds, roots, exn⟩ := b
    cases frames with
    | nil => simp [unitStep] at hunit
    | cons code rest =>
      cases hunit
      refine ⟨hconsistent, h.kinds, h.inner, ?_, h.exn, count_register _ _ h.once⟩
      exact (mem_register_named name roots).trans h.root
  | registerFunction f =>
    cases hunit
    exact ⟨hconsistent, h.kinds, h.inner, h.root, h.exn, h.once⟩

/-- Where the bucket is good after a step, the step has kept to the brackets. -/
theorem bracketed_of_valid {o : Unit} (h : InBrackets b) (hs : (buckets builtins).step e b = .ok (o, b'))
    (hvalid : BucketValid b') : Bracketed e b := by
  obtain ⟨s, hunit, rfl⟩ := buckets_inv hs
  clear hs
  cases e with
  | endCall name =>
    cases hn : b.running.rt.named name with
    | none => simp [unitStep, hn] at hunit
    | some c =>
      simp only [unitStep, hn] at hunit
      cases hunit
      have hmem : Root.outOfMemory ∈ b.roots := hvalid.root (List.cons_ne_nil _ _)
      have hne : b.running.frames ≠ [] := h.root.mp hmem
      obtain ⟨t, hbuilt, hexn⟩ := hvalid.exn c.code rfl
      have hglobals := h.consistent.globals _ _ hbuilt
      refine ⟨hne, fun c' hc' => ?_⟩
      rw [hn] at hc'
      cases hc'
      have hstart : some b.running.rt.startCode = some t.globalData := (h.exn hne).symm.trans hexn
      rw [← hglobals, ← Option.some.inj hstart]
  | finish =>
    intro hrun
    obtain ⟨⟨rt, frames⟩, kinds, roots, exn⟩ := b
    cases frames with
    | nil => simp [unitStep] at hunit
    | cons c frames =>
      cases hunit
      cases kinds with
      | nil => cases hrun
      | cons kind kinds =>
        cases hrun
        by_contra hne
        exact not_mem_remove h.once (hvalid.root hne)
  | executeString file => trivial
  | register name entry => trivial
  | registerFunction f => trivial

theorem start_inBrackets : InBrackets .start where
  consistent := start_consistent
  kinds := rfl
  inner := trivial
  root := ⟨fun h => absurd h List.not_mem_nil, fun h => absurd rfl h⟩
  exn h := absurd rfl h
  once := Nat.zero_le 1

theorem remove_once {roots : List Root} (h : roots.count .outOfMemory ≤ 1) :
    (camlRemoveGlobalRoot .outOfMemory roots).count .outOfMemory ≤ 1 := by
  rw [List.count_eq_zero_of_not_mem (not_mem_remove h)]
  omega

/-- The bucket is never a root twice. -/
theorem once_step {o : Unit} (h : b.roots.count .outOfMemory ≤ 1) (hs : (buckets builtins).step e b = .ok (o, b')) :
    b'.roots.count .outOfMemory ≤ 1 := by
  obtain ⟨s, -, rfl⟩ := buckets_inv hs
  cases e with
  | executeString file => exact count_register _ _ h
  | endCall name => exact h
  | register name entry => exact count_register _ _ h
  | registerFunction f => exact h
  | finish =>
    obtain ⟨running, kinds, roots, exn⟩ := b
    rcases kinds with _ | ⟨_ | _, kinds⟩
    · exact h
    · exact remove_once h
    · exact h

/-- **The bucket.** In a run the bucket is good all along exactly if closures are called inside
runs and belong to the unit loaded last, and no run ends inside anything else. In every run it
is a root once at most. -/
theorem out_of_memory_bucket_iff (builtins : List Bytes) (es : List UnitEvent) (os : List Unit) (b : Bucketed)
    (hrun : (buckets builtins).run es .start = .ok (os, b)) :
    ((buckets builtins).Always BucketValid es .start ↔ (buckets builtins).Meets Bracketed es .start) ∧
      b.roots.count .outOfMemory ≤ 1 := by
  constructor
  · exact Machine.always_iff (fun _ => InBrackets.valid) (fun _ _ _ _ h _ hs hQ => inBrackets_step h hs hQ)
      (fun _ _ _ _ h _ hs hvalid => bracketed_of_valid h hs hvalid) start_inBrackets (Machine.meets_true _ _ _) hrun
  · exact Machine.run_inv (I := fun b : Bucketed => b.roots.count .outOfMemory ≤ 1)
      (fun _ _ _ _ h _ hs => once_step h hs) start_inBrackets.once (Machine.meets_true _ _ _) hrun

/-- A unit registers a closure, and a function it calls calls it. -/
theorem out_of_memory_bucket_called :
    let file : Bytecode := { content := 0, reqPrims := [] }
    (buckets []).Always BucketValid [.executeString file, .register (cstr "f") 4, .endCall (cstr "f"), .finish, .finish]
      .start := by
  intro file
  have hrun := out_of_memory_bucket_iff []
    [.executeString file, .register (cstr "f") 4, .endCall (cstr "f"), .finish, .finish] _ _ rfl
  refine hrun.1.mpr ?_
  refine Machine.meets_cons trivial rfl (Machine.meets_cons trivial rfl (Machine.meets_cons ?_ rfl
    (Machine.meets_cons ?_ rfl (Machine.meets_cons ?_ rfl trivial))))
  · refine ⟨List.cons_ne_nil _ _, fun c hc => ?_⟩
    cases hc
    rfl
  · intro h
    cases h
  · exact fun _ => rfl

/-- A closure is called after its unit has run, and a unit goes on after one that was run inside
it: in both the bucket is no root. -/
theorem out_of_memory_bucket_unrooted :
    let file : Bytecode := { content := 0, reqPrims := [] }
    (∃ os b, (buckets []).run [.executeString file, .register (cstr "f") 4, .finish, .endCall (cstr "f")]
      .start = .ok (os, b) ∧
      b.running.frames = [0] ∧ .outOfMemory ∉ b.roots ∧ ¬ BucketValid b) ∧
    (∃ os b, (buckets []).run [.executeString file, .executeString file, .finish] .start = .ok (os, b) ∧
      b.running.frames = [0] ∧ .outOfMemory ∉ b.roots ∧ b.exn = some 1 ∧ ¬ BucketValid b) := by
  intro file
  refine ⟨⟨_, _, rfl, rfl, by decide, fun h => ?_⟩, ⟨_, _, rfl, rfl, by decide, rfl, fun h => ?_⟩⟩
  · exact absurd (h.root (List.cons_ne_nil _ _)) (by decide)
  · exact absurd (h.root (List.cons_ne_nil _ _)) (by decide)

end MultiScript.Ocaml
