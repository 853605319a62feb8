/-
Structured output (`extern.c`). The blocks that have been written are marked in the heap: their
header gets blue and their first field is the number of the object. A trail keeps what was
there, and is replayed at the end and before every exception, so the heap is afterwards what
it was.
-/
import MultiScript.Ocaml.Format
import Mathlib.Data.List.Perm.Subperm

namespace MultiScript.Ocaml.Marshal

open Act

/-- `struct trail_entry`. -/
structure TrailEntry where
  obj : Nat
  color : Color
  field0 : Value

/-- `ENTRIES_PER_TRAIL_BLOCK`. -/
def entriesPerTrailBlock : Nat := 1025

/-- `SIZE_EXTERN_OUTPUT_BLOCK`. -/
def sizeExternOutputBlock : Nat := 8100

/-- The output: the blocks up to the current one, or the buffer of the caller. -/
structure Output where
  userprovided : Bool
  blocks : List Bytes
  cur : Bytes
  limit : Nat

/-- The variables of the file, and the heap; of the trail the current block comes first.
`memory` says which of the next calls of `malloc` fail. -/
structure Extern where
  heap : Heap
  trail : List (List TrailEntry)
  objCounter : Nat
  size32 : Nat
  size64 : Nat
  out : Output
  memory : List Bool

abbrev ExternM := IoM Extern

/-- `malloc`: whether there was memory. -/
def malloc : ExternM Bool := do
  let s ← get
  set { s with memory := s.memory.tail }
  return s.memory.headD true

/-- What an entry of the trail says is written back. -/
def undo (h : Heap) (ent : TrailEntry) : Heap :=
  match h[ent.obj]? with
  | some b => h.set ent.obj { b with color := ent.color, fields := b.fields.set 0 ent.field0 }
  | none => h

/-- `extern_replay_trail`. -/
def externReplayTrail : ExternM Unit :=
  modify fun s => { s with heap := s.trail.flatten.foldl undo s.heap, trail := [[]] }

/-- `free_extern_output`. -/
def freeExternOutput : ExternM Unit :=
  modify fun s => if s.out.userprovided then s else { s with out := { s.out with blocks := [], cur := [] } }

/-- `extern_out_of_memory`. -/
def externOutOfMemory {α : Type} : ExternM α := do
  externReplayTrail
  freeExternOutput
  raise .outOfMemory

/-- `extern_invalid_argument`. -/
def externInvalidArgument {α : Type} (msg : String) : ExternM α := do
  externReplayTrail
  freeExternOutput
  raise (.invalidArgument msg)

/-- `grow_extern_output`. -/
def growExternOutput (required : Nat) : ExternM Unit := do
  if (← get).out.userprovided then do
    externReplayTrail
    raise (.failure "Marshal.to_buffer: buffer overflow")
  else do
    let extra := if required ≤ sizeExternOutputBlock / 2 then 0 else required
    if ← malloc then
      modify fun s => { s with out := { s.out with
        blocks := s.out.blocks ++ [s.out.cur], cur := [], limit := sizeExternOutputBlock + extra } }
    else externOutOfMemory

/-- `Write`, `writecode8` to `writecode32` and `writeblock`: where it does not fit, there is
room in a new block. -/
def externWrite (p : Bytes) : ExternM Unit := do
  let s ← get
  if s.out.limit < s.out.cur.length + p.length then growExternOutput p.length
  modify fun s => { s with out := { s.out with cur := s.out.cur ++ p } }

/-- `size_32` and `size_64` are counted up. -/
def countSizes (sz32 sz64 : Nat) : ExternM Unit :=
  modify fun s => { s with size32 := s.size32 + sz32, size64 := s.size64 + sz64 }

variable (env : Env)

/-- `extern_record_location`, up to where there is room for an entry. -/
def growTrail : ExternM Unit := do
  if (← get).trail.head?.any (fun blk => blk.length == entriesPerTrailBlock) then
    if ← malloc then modify fun s => { s with trail := [] :: s.trail }
    else externOutOfMemory

/-- `extern_record_location`. -/
def externRecordLocation (obj : Nat) : ExternM Unit := do
  if env.ignoreSharing then return
  else do
    growTrail
    let s ← get
    match s.heap[obj]? with
    | none => wild
    | some b =>
      let ent : TrailEntry := { obj, color := b.color, field0 := field s.heap (.block obj) 0 }
      let trail := match s.trail with
        | blk :: blks => (blk ++ [ent]) :: blks
        | [] => [[ent]]
      set { s with
        heap := s.heap.set obj { b with color := .blue, fields := b.fields.set 0 (.word (BitVec.ofNat 32 s.objCounter)) }
        trail, objCounter := s.objCounter + 1 }

/-- `extern_rec`, for a block whose contents are no values. -/
def externBytes (p : Nat) (b : Block) : ExternM Unit :=
  if b.tag = Tag.string then do
    let len := camlStringLength b.fields
    externWrite (stringCode len)
    externWrite ((blockBytes b.fields).take len)
    countSizes (1 + (len + 4) / 4) (1 + (len + 8) / 8)
    externRecordLocation env p
  else if b.tag = Tag.double then do
    externWrite doubleCode
    externWrite ((blockBytes b.fields).take 8)
    countSizes (1 + 2) (1 + 1)
    externRecordLocation env p
  else if b.tag = Tag.doubleArray then do
    let nfloats := b.fields.length / doubleWosize
    externWrite (doubleArrayCode nfloats)
    externWrite ((blockBytes b.fields).take (8 * nfloats))
    countSizes (1 + nfloats * 2) (1 + nfloats)
    externRecordLocation env p
  else if b.tag = Tag.abstract then externInvalidArgument "output_value: abstract value (Abstract)"
  else
    match env.customAt (b.fields.headD (.word 0)).bits with
    | none => wild
    | some ops =>
      match ops.serialize with
      | none => externInvalidArgument "output_value: abstract value (Custom)"
      | some serialize => do
        externWrite [0x12]
        externWrite (ops.identifier ++ [0])
        let r := serialize (b.fields.tail.map Value.bits)
        r.1.forM externWrite
        countSizes (2 + (r.2.1 + 3) / 4) (2 + (r.2.2 + 7) / 8)
        externRecordLocation env p

/-- `extern_rec`, so deep. -/
def externRec : Nat → Value → ExternM Unit
  | 0, _ => outOfTurns
  | _ + 1, .word w =>
    if (Value.word w).isLong then externWrite (longCode w)
    else externInvalidArgument "output_value: abstract value (outside heap)"
  | _ + 1, .code ofs =>
    if env.closures then do
      externWrite (code32 0x10 ofs)
      externWrite env.checksum
    else externInvalidArgument "output_value: functional value"
  | _ + 1, .atom tag => externWrite (atomCode { wosize := 0, color := .white, tag })
  | n + 1, .inside p ofs => do
    externWrite (code32 0x11 (.ofNat (4 * ofs)))
    externRec n (.block p)
  | n + 1, .block p => do
    let h := (← get).heap
    match h[p]? with
    | none => wild
    | some b =>
      if b.tag = Tag.forward ∧ shortCircuits h (field h (.block p) 0) = true then externRec n (field h (.block p) 0)
      else if b.fields = [] then externWrite (atomCode { wosize := 0, color := b.color, tag := b.tag })
      else if b.color = .blue then do
        let d := (← get).objCounter - (field h (.block p) 0).bits.toNat
        externWrite (sharedCode d)
      else if Tag.abstract ≤ b.tag then externBytes env p b
      else do
        let sz := b.fields.length
        externWrite (blockCode { wosize := sz, color := b.color, tag := b.tag })
        countSizes (1 + sz) (1 + sz)
        externRecordLocation env p
        externRec n (b.fields.headD (.word 0))
        (List.range' 1 (sz - 1)).forM fun i => do
          let h := (← get).heap
          externRec n (field h (.block p) i)

/-- The sizes are written into the header, behind the magic number. -/
def writeSizes (block : Bytes) (resLen objCounter size32 size64 : Nat) : Bytes :=
  block.take 4 ++ (wordBytes (.ofNat (resLen - 20)) ++ wordBytes (.ofNat objCounter) ++ wordBytes (.ofNat size32) ++
    wordBytes (.ofNat size64)) ++ block.drop 20

/-- `extern_value`: the blocks of the output. Each level of the recursion marks a block, but
where it goes from a forward block or an infix header to what is behind it. -/
def externValue (v : Value) : ExternM (List Bytes) := do
  externWrite (wordBytes intextMagicNumber)
  modify fun s => { s with out := { s.out with cur := s.out.cur ++ List.replicate 16 0 } }
  externRec env (3 * (← get).heap.length + 3) v
  externReplayTrail
  let s ← get
  let blocks := s.out.blocks ++ [s.out.cur]
  match blocks with
  | [] => return []
  | block :: blocks =>
    return writeSizes block (block.length + (blocks.map List.length).sum) s.objCounter s.size32 s.size64 :: blocks

/-- The variables before `extern_value`, with the output in blocks. -/
def Extern.init (heap : Heap) (memory : List Bool) : Extern :=
  { heap, trail := [[]], objCounter := 0, size32 := 0, size64 := 0,
    out := { userprovided := false, blocks := [], cur := [], limit := sizeExternOutputBlock }, memory }

/-- The same, with the buffer of the caller: `caml_output_value_to_buffer`, `caml_output_value_to_block`. -/
def Extern.initBuffer (heap : Heap) (len : Nat) (memory : List Bool) : Extern :=
  { Extern.init heap memory with out := { userprovided := true, blocks := [], cur := [], limit := len } }

/-- It is gone on where an action on other variables has come to an end. -/
def finish {σ γ α β : Type} (k : α → σ → IoM γ β) : Except (IoStop × σ) (α × σ) → IoM γ β
  | .ok (a, s) => k a s
  | .error (e, _) => fun ch => .error (e, ch)

/-- `caml_output_val`: the heap after it. -/
def camlOutputVal (heap : Heap) (memory : List Bool) (v : Value) : IoM OutputChannel Heap := do
  let ch ← get
  if ch.binary then
    if memory.headD true then
      finish (fun blocks s => do
        blocks.forM camlReallyPutblock
        return s.heap) (externValue env v (Extern.init heap memory.tail))
    else raise .outOfMemory
  else raise (.failure "output_value: not a binary channel")

/-! ## Marks -/

/-- The heap `h`, with the blocks `objs` marked by their numbers, as the trail says. -/
structure Marked (h : Heap) (objs : List Nat) (s : Extern) : Prop where
  trail : s.trail.reverse.flatten.map TrailEntry.obj = objs
  nodup : objs.Nodup
  entries : ∀ ent ∈ s.trail.flatten, ∃ b, h[ent.obj]? = some b ∧ b.color = ent.color ∧ b.fields.head? = some ent.field0
  marks : ∀ k p, objs[k]? = some p → ∃ b : Block, h[p]? = some b ∧
    s.heap[p]? = some { b with color := .blue, fields := b.fields.set 0 (.word (BitVec.ofNat 32 k)) }
  rest : ∀ p, p ∉ objs → s.heap[p]? = h[p]?
  counter : s.objCounter = objs.length

/-- The heap is what it was, where an action is left by an exception. -/
def Stopped (h : Heap) (f : IoStop × Extern) : Prop :=
  (∃ e, f.1 = .raised e ∧ f.2.heap = h) ∨ f.1 = .turns ∨ f.1 = .wild

variable {env : Env} {h : Heap} {objs : List Nat} {s : Extern}

/-- Entries of a trail are undone in any order. -/
theorem undo_all : ∀ (es : List TrailEntry) {g : Heap}, (es.map TrailEntry.obj).Nodup →
    (∀ ent ∈ es, ∃ (b : Block) (k : Word), h[ent.obj]? = some b ∧ b.color = ent.color ∧
      b.fields.head? = some ent.field0 ∧
      g[ent.obj]? = some { b with color := .blue, fields := b.fields.set 0 (.word k) }) →
    (∀ p, p ∉ es.map TrailEntry.obj → g[p]? = h[p]?) → es.foldl undo g = h
  | [], g, _, _, hrest => List.ext_getElem? fun p => hrest p List.not_mem_nil
  | ent :: es, g, hnodup, hmarks, hrest => by
    rw [List.map_cons, List.nodup_cons] at hnodup
    obtain ⟨⟨b, k, hb, hcolor, hfield, hg⟩, hmarks'⟩ := List.forall_mem_cons.mp hmarks
    have hlt : ent.obj < g.length := (List.getElem?_eq_some_iff.mp hg).1
    have hundo : undo g ent = g.set ent.obj b := by
      have hback : (b.fields.set 0 (.word k)).set 0 ent.field0 = b.fields := by
        rw [List.set_set]
        cases hfields : b.fields with
        | nil => rfl
        | cons f fs =>
          rw [hfields] at hfield
          cases hfield
          rfl
      simp only [undo, hg, hback, ← hcolor]
    refine undo_all es hnodup.2 (fun e he => ?_) (fun p hp => ?_)
    · obtain ⟨b', k', hb', hcolor', hfield', hg'⟩ := hmarks' e he
      refine ⟨b', k', hb', hcolor', hfield', ?_⟩
      have hne : ent.obj ≠ e.obj := fun heq => hnodup.1 (heq ▸ List.mem_map_of_mem he)
      rw [hundo, List.getElem?_set_ne hne, hg']
    · rw [hundo]
      by_cases heq : ent.obj = p
      · subst heq
        rw [List.getElem?_set_self hlt, hb]
      · rw [List.getElem?_set_ne heq]
        refine hrest p ?_
        rw [List.map_cons, List.mem_cons]
        exact fun hmem => hmem.elim (fun h => heq h.symm) hp

theorem mem_flatten_reverse {α : Type} {xss : List (List α)} {x : α} : x ∈ xss.reverse.flatten ↔ x ∈ xss.flatten := by
  simp only [List.mem_flatten, List.mem_reverse]

namespace Marked

/-- `extern_replay_trail` gives the heap back. -/
theorem replay (hm : Marked h objs s) : s.trail.flatten.foldl undo s.heap = h := by
  have hperm : s.trail.reverse.flatten.Perm s.trail.flatten := (List.reverse_perm s.trail).flatten
  have hnodup : (s.trail.flatten.map TrailEntry.obj).Nodup := by
    rw [← (hperm.map TrailEntry.obj).nodup_iff, hm.trail]
    exact hm.nodup
  refine undo_all _ hnodup (fun ent he => ?_) (fun p hp => hm.rest p ?_)
  · obtain ⟨b, hb, hcolor, hfield⟩ := hm.entries ent he
    have hobj : ent.obj ∈ objs := by
      rw [← hm.trail]
      exact List.mem_map_of_mem (mem_flatten_reverse.mpr he)
    obtain ⟨k, hk⟩ := List.getElem?_of_mem hobj
    obtain ⟨b', hb', hmark⟩ := hm.marks k _ hk
    rw [hb] at hb'
    cases hb'
    exact ⟨b, _, hb, hcolor, hfield, hmark⟩
  · intro hmem
    rw [← hm.trail] at hmem
    exact hp ((hperm.map TrailEntry.obj).mem_iff.mp hmem)

theorem congr (hm : Marked h objs s) {s' : Extern} (hheap : s'.heap = s.heap) (htrail : s'.trail = s.trail)
    (hcounter : s'.objCounter = s.objCounter) : Marked h objs s' := by
  refine ⟨by rw [htrail]; exact hm.trail, hm.nodup, by rw [htrail]; exact hm.entries, fun k p hk => ?_, fun p hp => ?_, ?_⟩
  · rw [hheap]
    exact hm.marks k p hk
  · rw [hheap]
    exact hm.rest p hp
  · rw [hcounter]
    exact hm.counter

theorem outOfMemory (hm : Marked h objs s) {α : Type} {Q : α → Extern → Prop} :
    Ends externOutOfMemory s Q (Stopped h) := by
  refine .inl ⟨.outOfMemory, rfl, ?_⟩
  show (if s.out.userprovided then _ else _ : Extern).heap = h
  split <;> exact hm.replay

theorem invalidArgument (hm : Marked h objs s) {α : Type} {Q : α → Extern → Prop} (msg : String) :
    Ends (externInvalidArgument msg) s Q (Stopped h) := by
  refine .inl ⟨.invalidArgument msg, rfl, ?_⟩
  show (if s.out.userprovided then _ else _ : Extern).heap = h
  split <;> exact hm.replay

end Marked

/-! ## What has been written -/

/-- The block of the output that comes first. -/
def Output.first (out : Output) : Bytes := (out.blocks ++ [out.cur]).headD []

theorem Output.first_grow (out : Output) (limit : Nat) :
    ({ out with blocks := out.blocks ++ [out.cur], cur := [], limit } : Output).first = out.first := by
  unfold Output.first
  cases out.blocks with
  | nil => rfl
  | cons block blocks => rfl

theorem Output.first_append (out : Output) (p : Bytes) :
    out.first.length ≤ ({ out with cur := out.cur ++ p } : Output).first.length := by
  unfold Output.first
  cases out.blocks with
  | nil =>
    show out.cur.length ≤ (out.cur ++ p).length
    rw [List.length_append]
    exact Nat.le_add_right _ _
  | cons block blocks => exact Nat.le_refl _

/-- After `objs` have been written the output is `out`, and they take up so many words. Where
`ok` holds there is memory, the output is in blocks, and the first one has the header. -/
structure At (ok : Prop) (h : Heap) (objs : List Nat) (out : Bytes) (words : Nat) (s : Extern) : Prop where
  marked : Marked h objs s
  out : s.out.blocks.flatten ++ s.out.cur = out
  words : s.size32 = words
  plain : ok → s.memory = [] ∧ s.out.userprovided = false ∧ 20 ≤ s.out.first.length

variable {ok : Prop} {out : Bytes} {words : Nat}

namespace At

theorem malloc (hs : At ok h objs out words s) : ∃ b s', Marshal.malloc s = .ok (b, s') ∧ At ok h objs out words s' ∧
    (ok → b = true) := by
  refine ⟨_, _, rfl, ⟨hs.marked.congr rfl rfl rfl, hs.out, hs.words, fun h => ?_⟩, fun h => ?_⟩
  · obtain ⟨hmemory, huser⟩ := hs.plain h
    exact ⟨by rw [hmemory]; rfl, huser⟩
  · rw [(hs.plain h).1]
    rfl

theorem grow (hs : At ok h objs out words s) (required : Nat) : Ends (growExternOutput required) s
    (fun _ s' => At ok h objs out words s') (fun f => Stopped h f ∧ ¬ ok) := by
  show Ends (if s.out.userprovided = true then _ else _) s _ _
  by_cases huser : s.out.userprovided = true
  · rw [if_pos huser]
    refine ⟨.inl ⟨_, rfl, hs.marked.replay⟩, fun h => ?_⟩
    rw [(hs.plain h).2.1] at huser
    cases huser
  · rw [if_neg huser]
    obtain ⟨b, s₁, hmalloc, h₁, hok⟩ := hs.malloc
    refine Ends.seq hmalloc ?_
    cases b with
    | true =>
      refine ⟨h₁.marked.congr rfl rfl rfl, ?_, h₁.words, fun h => ?_⟩
      · show (s₁.out.blocks ++ [s₁.out.cur]).flatten ++ [] = out
        rw [List.flatten_append, List.append_nil, ← h₁.out]
        simp
      · obtain ⟨hmemory, huser, hfirst⟩ := h₁.plain h
        exact ⟨hmemory, huser, by rw [Output.first_grow]; exact hfirst⟩
    | false =>
      have hnot : ¬ ok := fun h => absurd (hok h) Bool.false_ne_true
      exact (h₁.marked.outOfMemory).faults fun f hf => ⟨hf, hnot⟩

theorem append (hs : At ok h objs out words s) (p : Bytes) :
    At ok h objs (out ++ p) words { s with out := { s.out with cur := s.out.cur ++ p } } := by
  refine ⟨hs.marked.congr rfl rfl rfl, ?_, hs.words, fun h => ?_⟩
  · show s.out.blocks.flatten ++ (s.out.cur ++ p) = out ++ p
    rw [← List.append_assoc, hs.out]
  · obtain ⟨hmemory, huser, hfirst⟩ := hs.plain h
    exact ⟨hmemory, huser, Nat.le_trans hfirst (s.out.first_append p)⟩

theorem write (hs : At ok h objs out words s) (p : Bytes) : Ends (externWrite p) s
    (fun _ s' => At ok h objs (out ++ p) words s') (fun f => Stopped h f ∧ ¬ ok) := by
  show Ends (if s.out.limit < s.out.cur.length + p.length then _ else _) s _ _
  by_cases hlimit : s.out.limit < s.out.cur.length + p.length
  · rw [if_pos hlimit]
    exact (hs.grow p.length).bind fun _ s' h' => h'.append p
  · rw [if_neg hlimit]
    exact hs.append p

theorem writes : ∀ (ps : List Bytes) {out : Bytes} {s : Extern}, At ok h objs out words s → Ends (ps.forM externWrite) s
    (fun _ s' => At ok h objs (out ++ ps.flatten) words s') (fun f => Stopped h f ∧ ¬ ok)
  | [], out, s, hs => by
    show At ok h objs (out ++ []) words s
    rwa [List.append_nil]
  | p :: ps, out, s, hs => by
    refine (hs.write p).bind fun _ s₁ h₁ => (writes ps h₁).mono fun _ s' h' => ?_
    rwa [List.append_assoc] at h'

theorem count (hs : At ok h objs out words s) (sz32 sz64 : Nat) {E : IoStop × Extern → Prop} :
    Ends (countSizes sz32 sz64) s (fun _ s' => At ok h objs out (words + sz32) s') E :=
  ⟨hs.marked.congr rfl rfl rfl, hs.out, congrArg (· + sz32) hs.words, hs.plain⟩

/-- The blocks that have been written, with one more: none are kept where sharing is ignored. -/
def seen (env : Env) (objs : List Nat) (p : Nat) : List Nat := if env.ignoreSharing then objs else objs ++ [p]

/-- A mark, with its entry in the trail. -/
theorem mark (hs : At ok h objs out words s) {p : Nat} {b : Block} {f : Value} (hp : p ∉ objs) (horig : h[p]? = some b)
    (hf : b.fields.head? = some f) {trail : List (List TrailEntry)}
    (htrail : trail.reverse.flatten = s.trail.reverse.flatten ++ [{ obj := p, color := b.color, field0 := f }]) :
    At ok h (objs ++ [p]) out words { s with
      heap := s.heap.set p { b with color := .blue, fields := b.fields.set 0 (.word (BitVec.ofNat 32 s.objCounter)) }
      trail, objCounter := s.objCounter + 1 } := by
  have hm := hs.marked
  have hlt : p < s.heap.length := (List.getElem?_eq_some_iff.mp ((hm.rest p hp).trans horig)).1
  refine ⟨⟨?_, ?_, fun ent he => ?_, fun k q hk => ?_, fun q hq => ?_, ?_⟩, hs.out, hs.words, hs.plain⟩
  · show trail.reverse.flatten.map TrailEntry.obj = objs ++ [p]
    rw [htrail, List.map_append, hm.trail]
    rfl
  · exact List.nodup_append.mpr ⟨hm.nodup, List.pairwise_singleton _ p, fun a ha c hc => by
      rw [List.mem_singleton.mp hc]
      exact fun heq => hp (heq ▸ ha)⟩
  · have he' : ent ∈ trail.reverse.flatten := mem_flatten_reverse.mpr he
    rw [htrail, List.mem_append, List.mem_singleton] at he'
    rcases he' with hold | rfl
    · exact hm.entries ent (mem_flatten_reverse.mp hold)
    · exact ⟨b, horig, rfl, hf⟩
  · show ∃ b' : Block, h[q]? = some b' ∧ (s.heap.set p _)[q]? = _
    by_cases hold : k < objs.length
    · rw [List.getElem?_append_left hold] at hk
      obtain ⟨b', hb', hmark⟩ := hm.marks k q hk
      have hne : p ≠ q := fun heq => hp (heq ▸ List.mem_of_getElem? hk)
      exact ⟨b', hb', by rw [List.getElem?_set_ne hne, hmark]⟩
    · rw [List.getElem?_append_right (by omega)] at hk
      obtain ⟨hklt, hkq⟩ := List.getElem?_eq_some_iff.mp hk
      rw [List.length_singleton] at hklt
      have hq : p = q := by simpa using hkq
      subst hq
      have hnum : s.objCounter = k := by
        rw [hm.counter]
        omega
      exact ⟨b, horig, by rw [List.getElem?_set_self hlt, hnum]⟩
  · rw [List.mem_append, List.mem_singleton, not_or] at hq
    show (s.heap.set p _)[q]? = _
    rw [List.getElem?_set_ne fun heq => hq.2 heq.symm, hm.rest q hq.1]
  · show s.objCounter + 1 = (objs ++ [p]).length
    rw [hm.counter, List.length_append, List.length_singleton]

theorem growTrail (hs : At ok h objs out words s) : Ends Marshal.growTrail s
    (fun _ s' => At ok h objs out words s') (fun f => Stopped h f ∧ ¬ ok) := by
  show Ends (if s.trail.head?.any (fun blk => blk.length == entriesPerTrailBlock) then _ else _) s _ _
  split
  · obtain ⟨b, s₁, hmalloc, h₁, hok⟩ := hs.malloc
    refine Ends.seq hmalloc ?_
    cases b with
    | true =>
      have hm := h₁.marked
      refine ⟨⟨?_, hm.nodup, fun ent he => hm.entries ent ?_, hm.marks, hm.rest, hm.counter⟩, h₁.out,
        h₁.words, h₁.plain⟩
      · show (([] :: s₁.trail).reverse.flatten).map TrailEntry.obj = objs
        rw [List.reverse_cons, List.flatten_append, ← hm.trail]
        simp
      · exact he
    | false =>
      have hnot : ¬ ok := fun h => absurd (hok h) Bool.false_ne_true
      exact (h₁.marked.outOfMemory).faults fun f hf => ⟨hf, hnot⟩
  · exact hs

theorem record (hs : At ok h objs out words s) {p : Nat} {b : Block} {f : Value} (hp : p ∉ objs) (horig : h[p]? = some b)
    (hf : b.fields.head? = some f) : Ends (externRecordLocation env p) s
      (fun _ s' => At ok h (seen env objs p) out words s') (fun f => Stopped h f ∧ ¬ ok) := by
  show Ends (if env.ignoreSharing = true then _ else _) s _ _
  by_cases hignore : env.ignoreSharing = true
  · rw [if_pos hignore, seen, if_pos hignore]
    exact hs
  · rw [if_neg hignore, seen, if_neg hignore]
    refine hs.growTrail.bind fun _ s₁ h₁ => ?_
    have hb : s₁.heap[p]? = some b := (h₁.marked.rest p hp).trans horig
    show Ends (match s₁.heap[p]? with | none => _ | some b => _) s₁ _ _
    rw [hb]
    have hfield : field s₁.heap (.block p) 0 = f := by
      have hget : b.fields[0]? = some f := by rw [← List.head?_eq_getElem?, hf]
      simp only [field, hb, Option.bind_some, hget, Option.getD_some]
    refine h₁.mark hp horig hf ?_
    rw [hfield]
    cases s₁.trail with
    | nil => rfl
    | cons blk blks => simp

end At

/-! ## The heap is given back -/

/-- Whatever has been written, the marks are those of the trail. -/
def Kept (h : Heap) (s : Extern) : Prop := ∃ objs out words, At False h objs out words s

theorem At.kept (hs : At False h objs out words s) : Kept h s := ⟨objs, out, words, hs⟩

theorem head?_of_ne {α : Type} {xs : List α} (h : xs ≠ []) : ∃ x, xs.head? = some x := by
  cases xs with
  | nil => exact absurd rfl h
  | cons x xs => exact ⟨x, rfl⟩

/-- A block that is not marked is as it was. -/
theorem Marked.unmarked (hm : Marked h objs s) {p : Nat} {b : Block} (hb : s.heap[p]? = some b)
    (hblue : b.color ≠ .blue) :
    p ∉ objs ∧ h[p]? = some b := by
  have hp : p ∉ objs := by
    intro hmem
    obtain ⟨k, hk⟩ := List.getElem?_of_mem hmem
    obtain ⟨b', -, hmark⟩ := hm.marks k p hk
    rw [hb] at hmark
    cases hmark
    exact hblue rfl
  exact ⟨hp, by rw [← hm.rest p hp, hb]⟩

theorem externBytes_kept (hs : At False h objs out words s) {p : Nat} {b : Block} (hp : p ∉ objs) (hb : h[p]? = some b)
    (hne : b.fields ≠ []) : Ends (externBytes env p b) s (fun _ s' => Kept h s') (Stopped h) := by
  obtain ⟨f, hf⟩ := head?_of_ne hne
  -- what comes last in each case
  have hlast : ∀ {out : Bytes} {s : Extern} (sz32 sz64 : Nat), At False h objs out words s →
      Ends (do countSizes sz32 sz64; externRecordLocation env p) s (fun _ s' => Kept h s') (Stopped h) := by
    intro out s sz32 sz64 hs
    refine (hs.count sz32 sz64).bind fun _ s₁ h₁ => ?_
    exact ((h₁.record hp hb hf).faults fun f hf => hf.1).mono fun _ s' h' => h'.kept
  have hwrite : ∀ {out : Bytes} {s : Extern} (q : Bytes) {k : Unit → ExternM Unit}, At False h objs out words s →
      (∀ {s}, At False h objs (out ++ q) words s → Ends (k ()) s (fun _ s' => Kept h s') (Stopped h)) →
      Ends (externWrite q >>= k) s (fun _ s' => Kept h s') (Stopped h) := by
    intro out s q k hs hk
    exact ((hs.write q).faults fun f hf => hf.1).bind fun _ s₁ h₁ => hk h₁
  unfold externBytes
  split
  · exact hwrite _ hs fun h₁ => hwrite _ h₁ fun h₂ => hlast _ _ h₂
  split
  · exact hwrite _ hs fun h₁ => hwrite _ h₁ fun h₂ => hlast _ _ h₂
  split
  · exact hwrite _ hs fun h₁ => hwrite _ h₁ fun h₂ => hlast _ _ h₂
  split
  · exact hs.marked.invalidArgument _
  split
  · exact .inr (.inr rfl)
  split
  · exact hs.marked.invalidArgument _
  · refine hwrite _ hs fun h₁ => hwrite _ h₁ fun h₂ => ?_
    exact ((h₂.writes _).faults fun f hf => hf.1).bind fun _ s₃ h₃ => hlast _ _ h₃

/-- The recursion keeps the trail to the marks. -/
theorem externRec_kept : ∀ (n : Nat) (v : Value) {s : Extern}, Kept h s →
    Ends (externRec env n v) s (fun _ s' => Kept h s') (Stopped h)
  | 0, v, s, _ => .inr (.inl rfl)
  | n + 1, .word w, s, hs => by
    obtain ⟨objs, out, words, hs⟩ := hs
    rw [externRec]
    split
    · exact ((hs.write _).faults fun f hf => hf.1).mono fun _ s' h' => h'.kept
    · exact hs.marked.invalidArgument _
  | n + 1, .code ofs, s, hs => by
    obtain ⟨objs, out, words, hs⟩ := hs
    rw [externRec]
    split
    · refine ((hs.write _).faults fun f hf => hf.1).bind fun _ s₁ h₁ => ?_
      exact ((h₁.write _).faults fun f hf => hf.1).mono fun _ s' h' => h'.kept
    · exact hs.marked.invalidArgument _
  | n + 1, .atom tag, s, hs => by
    obtain ⟨objs, out, words, hs⟩ := hs
    exact ((hs.write _).faults fun f hf => hf.1).mono fun _ s' h' => h'.kept
  | n + 1, .inside p ofs, s, hs => by
    obtain ⟨objs, out, words, hs⟩ := hs
    exact ((hs.write _).faults fun f hf => hf.1).bind fun _ s₁ h₁ => externRec_kept n _ h₁.kept
  | n + 1, .block p, s, hs => by
    obtain ⟨objs, out, words, hs⟩ := hs
    have hcode : ∀ q, Ends (externWrite q) s (fun _ s' => Kept h s') (Stopped h) := fun q =>
      ((hs.write q).faults fun f hf => hf.1).mono fun _ s' h' => h'.kept
    show Ends (match s.heap[p]? with | none => _ | some b => _) s _ _
    cases hb : s.heap[p]? with
    | none => exact .inr (.inr rfl)
    | some b =>
      dsimp only
      split
      · exact externRec_kept n _ hs.kept
      split
      · exact hcode _
      split
      · exact hcode _
      rename_i hne hblue
      obtain ⟨hp, horig⟩ := hs.marked.unmarked hb hblue
      split
      · exact externBytes_kept hs hp horig hne
      · obtain ⟨f, hf⟩ := head?_of_ne hne
        refine ((hs.write _).faults fun f hf => hf.1).bind fun _ s₁ h₁ => ?_
        refine (h₁.count _ _).bind fun _ s₂ h₂ => ?_
        refine ((h₂.record hp horig hf).faults fun f hf => hf.1).bind fun _ s₃ h₃ => ?_
        refine (externRec_kept n _ h₃.kept).bind fun _ s₄ h₄ => ?_
        exact Ends.forM (fun i s hs => .get (externRec_kept n _ hs)) _ h₄

theorem externValue_heap (v : Value) (hs : Marked h [] s) :
    Ends (externValue env v) s (fun _ s' => s'.heap = h) (Stopped h) := by
  have h₀ : At False h [] (s.out.blocks.flatten ++ s.out.cur) s.size32 s := ⟨hs, rfl, rfl, False.elim⟩
  refine ((h₀.write _).faults fun f hf => hf.1).bind fun _ s₁ h₁ => ?_
  have hheader := (h₁.append (List.replicate 16 0)).kept
  refine Ends.seq (a := ()) rfl (.get ?_)
  refine (externRec_kept (3 * s₁.heap.length + 3) v hheader).bind fun _ s₂ h₂ => ?_
  obtain ⟨objs, out, words, h₂⟩ := h₂
  show Ends (match s₂.out.blocks ++ [s₂.out.cur] with | [] => _ | block :: blocks => _)
    { s₂ with heap := s₂.trail.flatten.foldl undo s₂.heap, trail := [[]] } _ _
  split
  · exact h₂.marked.replay
  · exact h₂.marked.replay

theorem Marked.init (hheap : s.heap = h) (htrail : s.trail = [[]]) (hcounter : s.objCounter = 0) :
    Marked h [] s := by
  refine ⟨by rw [htrail]; rfl, List.nodup_nil, fun ent he => ?_, fun k p hk => (by cases hk), fun p _ => ?_, hcounter⟩
  · rw [htrail] at he
    cases he
  · rw [hheap]

/-- **Marshalling leaves the heap as it was.** However `extern_value` ends, with its output, for
want of memory or of room in the caller's buffer, or because of a value that cannot be written,
the marks that it has made in the heap are undone. -/
theorem externValue_restores (env : Env) (v : Value) (heap : Heap) (memory : List Bool) (len : Nat) :
    Ends (externValue env v) (Extern.init heap memory) (fun _ s => s.heap = heap) (Stopped heap) ∧
      Ends (externValue env v) (Extern.initBuffer heap len memory) (fun _ s => s.heap = heap) (Stopped heap) :=
  ⟨externValue_heap v (.init rfl rfl rfl), externValue_heap v (.init rfl rfl rfl)⟩

/-! ## The output is the code of the value -/

/-- A block that stands for itself. -/
def Stays (h : Heap) (p : Nat) : Prop := follow h (.block p) = .block p

variable {p : Nat} {b : Block}

theorem stays (hb : h[p]? = some b) (htag : b.tag ≠ Tag.forward) : Stays h p := by
  have hkept : (b.tag == Tag.forward) = false := beq_false_of_ne htag
  simp only [Stays, follow, hb, Option.any_some, hkept, Bool.false_and, Bool.false_eq_true, if_false]

theorem follow_forward (hb : h[p]? = some b) (htag : b.tag = Tag.forward)
    (hcut : shortCircuits h (field h (.block p) 0) = true) : follow h (.block p) = field h (.block p) 0 := by
  simp only [follow, hb, Option.any_some, htag, beq_self_eq_true, hcut, Bool.and_self, if_true]

/-- What a forward block is written as does not forward. -/
theorem follow_cut {f : Value} (hcut : shortCircuits h f = true) : follow h f = f := by
  cases f with
  | block q =>
    cases hq : h[q]? with
    | none => simp only [follow, hq, Option.any_none, Bool.false_and, Bool.false_eq_true, if_false]
    | some b =>
      refine stays hq fun htag => ?_
      simp [shortCircuits, hq, htag] at hcut
  | _ => rfl

/-- How often it is gone on to another value before a block is marked. -/
def hops (h : Heap) : Value → Nat
  | .block p => if (h[p]?).any (fun b => b.tag == Tag.forward) then 3 else 1
  | .inside _ _ => 2
  | _ => 1

theorem hops_le (v : Value) : 1 ≤ hops h v ∧ hops h v ≤ 3 := by
  cases v with
  | block p =>
    by_cases hforward : (h[p]?).any (fun b => b.tag == Tag.forward) = true
    · rw [hops, if_pos hforward]
      decide
    · rw [hops, if_neg hforward]
      decide
  | _ => simp [hops]

theorem hops_stays (hb : h[p]? = some b) (htag : b.tag ≠ Tag.forward) : hops h (.block p) = 1 := by
  have hkept : (b.tag == Tag.forward) = false := beq_false_of_ne htag
  simp only [hops, hb, Option.any_some, hkept, Bool.false_eq_true, if_false]

theorem hops_cut {f : Value} (hcut : shortCircuits h f = true) : hops h f ≤ 2 := by
  cases f with
  | block q =>
    cases hq : h[q]? with
    | none =>
      rw [hops, hq]
      exact Nat.le_of_lt (by decide)
    | some b =>
      rw [hops_stays hq fun htag => ?_]
      · decide
      · simp [shortCircuits, hq, htag] at hcut
  | _ => simp [hops]

/-- No action ends with a fault. -/
def Never {α : Type} (_ : α) : Prop := False

theorem finish_ends {σ γ α β : Type} {m : IoM σ α} {t : σ} {Q : α → σ → Prop} {k : α → σ → IoM γ β} {ch : γ}
    {P : β → γ → Prop} {E : IoStop × γ → Prop} (hm : Ends m t Q Never) (hk : ∀ a t', Q a t' → Ends (k a t') ch P E) :
    Ends (finish k (m t)) ch P E := by
  cases hrun : m t with
  | ok r => exact hk _ _ (hm.ok hrun)
  | error f => exact (hm.error hrun).elim

/-- The blocks `objs` have been written, and each stands for itself. -/
structure Output.Holds (h : Heap) (objs : List Nat) (out : Bytes) (words : Nat) (s : Extern) : Prop where
  state : At True h objs out words s
  stays : ∀ p ∈ objs, Stays h p

/-- After the output `out`, `v` has been written. -/
def Written (env : Env) (h : Heap) (objs : List Nat) (out : Bytes) (words : Nat) (v : Value) (s : Extern) : Prop :=
  ∃ new bytes w, Code env h objs v bytes new w ∧ Output.Holds h (objs ++ new) (out ++ bytes) (words + w) s

/-- After the output `out`, all of `vs` have been written. -/
def WrittenAll (env : Env) (h : Heap) (objs : List Nat) (out : Bytes) (words : Nat) (vs : List Value)
    (s : Extern) : Prop :=
  ∃ new bytes w, Codes env h objs vs bytes new w ∧ Output.Holds h (objs ++ new) (out ++ bytes) (words + w) s

theorem At.write_ok (hs : At True h objs out words s) (p : Bytes) :
    Ends (externWrite p) s (fun _ s' => At True h objs (out ++ p) words s') Never :=
  (hs.write p).faults fun _ hf => absurd trivial hf.2

theorem At.record_ok (hs : At True h objs out words s) (hsharing : env.ignoreSharing = false) (hp : p ∉ objs)
    (hb : h[p]? = some b) (hne : b.fields ≠ []) :
    Ends (externRecordLocation env p) s (fun _ s' => At True h (objs ++ [p]) out words s') Never := by
  obtain ⟨f, hf⟩ := head?_of_ne hne
  have hrecord : Ends (externRecordLocation env p) s (fun _ s' => At True h (At.seen env objs p) out words s') Never :=
    (hs.record hp hb hf).faults fun _ hf => absurd trivial hf.2
  have hseen : At.seen env objs p = objs ++ [p] := by
    rw [At.seen, hsharing]
    rfl
  rwa [hseen] at hrecord

/-- Marks leave the tags as they are. -/
theorem Marked.tag (hm : Marked h objs s) (p : Nat) : (s.heap[p]?).map Block.tag = (h[p]?).map Block.tag := by
  by_cases hp : p ∈ objs
  · obtain ⟨k, hk⟩ := List.getElem?_of_mem hp
    obtain ⟨b, hb, hmark⟩ := hm.marks k p hk
    rw [hb, hmark]
    rfl
  · rw [hm.rest p hp]

theorem shortCircuits_tag {h' : Heap} (htag : ∀ p : Nat, (h'[p]?).map Block.tag = (h[p]?).map Block.tag) (f : Value) :
    shortCircuits h' f = shortCircuits h f := by
  have hall : ∀ (o : Option Block),
    (o.all fun b => !(b.tag == Tag.forward || b.tag == Tag.lazy || b.tag == Tag.double)) =
      (o.map Block.tag).all fun t => !(t == Tag.forward || t == Tag.lazy || t == Tag.double) := by
    intro o
    cases o <;> rfl
  cases f with
  | block p => simp only [shortCircuits, hall, htag p]
  | _ => rfl

/-- The blocks that have been written are no more than there are. -/
theorem length_lt (hnodup : objs.Nodup) (hmem : ∀ q ∈ objs, q < h.length) (hp : p ∉ objs) (hlt : p < h.length) :
    objs.length < h.length := by
  have hsub : p :: objs ⊆ List.range h.length := by
    intro q hq
    rw [List.mem_range]
    rcases List.mem_cons.mp hq with rfl | hq
    · exact hlt
    · exact hmem q hq
  have hle := ((List.nodup_cons.mpr ⟨hp, hnodup⟩).subperm hsub).length_le
  rw [List.length_range, List.length_cons] at hle
  exact hle

theorem Marked.mem_lt (hm : Marked h objs s) : ∀ q ∈ objs, q < h.length := by
  intro q hq
  obtain ⟨k, hk⟩ := List.getElem?_of_mem hq
  obtain ⟨b, hb, -⟩ := hm.marks k q hk
  exact (List.getElem?_eq_some_iff.mp hb).1

theorem Contents.ne_nil {bytes : Bytes} (hc : Contents env b bytes words) : b.fields ≠ [] := by
  have hpos : 0 < b.fields.length := by
    cases hc with
    | string =>
      rename_i color str
      have := (stringFields_spec str).1
      show 0 < (stringFields str).length
      omega
    | double hlength =>
      rw [hlength]
      decide
    | doubles hn hlength =>
      rw [hlength, doubleWosize]
      omega
    | custom => exact Nat.succ_pos _
  exact List.ne_nil_of_length_pos hpos

/-- The blocks whose contents are no values have tags of their own. -/
theorem Contents.tag {bytes : Bytes} (hc : Contents env b bytes words) :
    Tag.abstract ≤ b.tag ∧ b.tag ≠ Tag.forward := by
  cases hc with
  | string => exact (by decide : Tag.abstract ≤ Tag.string ∧ Tag.string ≠ Tag.forward)
  | double => exact (by decide : Tag.abstract ≤ Tag.double ∧ Tag.double ≠ Tag.forward)
  | doubles => exact (by decide : Tag.abstract ≤ Tag.doubleArray ∧ Tag.doubleArray ≠ Tag.forward)
  | custom => exact (by decide : Tag.abstract ≤ Tag.custom ∧ Tag.custom ≠ Tag.forward)

theorem externBytes_written {bytes : Bytes} {w : Nat} (hsharing : env.ignoreSharing = false)
    (hs : At True h objs out words s)
    (hp : p ∉ objs) (hb : h[p]? = some b) (hcontents : Contents env b bytes w) :
    Ends (externBytes env p b) s (fun _ s' => At True h (objs ++ [p]) (out ++ bytes) (words + w) s') Never := by
  have hne := hcontents.ne_nil
  -- what comes last in each case
  have hlast : ∀ {out' : Bytes} {s : Extern} (sz32 sz64 : Nat), At True h objs out' words s →
    sz32 = w → out' = out ++ bytes →
      Ends (do countSizes sz32 sz64; externRecordLocation env p) s
        (fun _ s' => At True h (objs ++ [p]) (out ++ bytes) (words + w) s') Never := by
    intro out' s sz32 sz64 hs hw hout
    subst hw hout
    exact (hs.count sz32 sz64).bind fun _ s₁ h₁ => h₁.record_ok hsharing hp hb hne
  cases hcontents with
  | string =>
    rename_i color str
    obtain ⟨-, hlen, hbytes, -⟩ := stringFields_spec str
    refine (hs.write_ok _).bind fun _ s₁ h₁ => (h₁.write_ok _).bind fun _ s₂ h₂ => hlast _ _ h₂ ?_ ?_
    · show 1 + (camlStringLength (stringFields str) + 4) / 4 = _
      rw [hlen]
    · show out ++ stringCode (camlStringLength (stringFields str)) ++
        (blockBytes (stringFields str)).take (camlStringLength (stringFields str)) = _
      rw [hlen, hbytes, List.append_assoc]
  | double hlength hwords =>
    rename_i color fields
    refine (hs.write_ok _).bind fun _ s₁ h₁ => (h₁.write_ok _).bind fun _ s₂ h₂ => hlast _ _ h₂ rfl ?_
    have hall : (blockBytes fields).length = 8 := by rw [blockBytes_length, hlength, doubleWosize]
    rw [List.append_assoc, List.take_of_length_le (Nat.le_of_eq hall)]
  | doubles hn hlength hwords =>
    rename_i color fields n
    have hnfloats : fields.length / doubleWosize = n := by
      rw [hlength]
      exact Nat.mul_div_cancel n (by decide)
    refine (hs.write_ok _).bind fun _ s₁ h₁ => (h₁.write_ok _).bind fun _ s₂ h₂ => hlast _ _ h₂ ?_ ?_
    · show 1 + fields.length / doubleWosize * 2 = _
      rw [hnfloats]
    · have hall : (blockBytes fields).length = 8 * n := by
        rw [blockBytes_length, hlength, doubleWosize]
        omega
      show out ++ doubleArrayCode (fields.length / doubleWosize) ++
        (blockBytes fields).take (8 * (fields.length / doubleWosize)) = _
      rw [hnfloats, List.append_assoc, List.take_of_length_le (Nat.le_of_eq hall)]
  | custom hser =>
    rename_i color a ws ident data
    obtain ⟨ops, serialize, sz64, hops, hident, hserialize, chunks, sz32, hrun, hdata, hsize⟩ := hser.written
    have hwords : (ws.map Value.word).map Value.bits = ws := by
      rw [List.map_map]
      exact List.map_id _
    show Ends (match env.customAt a with | none => _ | some ops => _) s _ _
    rw [hops]
    show Ends (match ops.serialize with | none => _ | some serialize => _) s _ _
    rw [hserialize]
    refine (hs.write_ok _).bind fun _ s₁ h₁ => (h₁.write_ok _).bind fun _ s₂ h₂ => ?_
    refine ((h₂.writes (serialize ((ws.map Value.word).map Value.bits)).1).faults fun _ hf => absurd trivial hf.2).bind
      fun _ s₃ h₃ => hlast _ _ h₃ ?_ ?_
    · show 2 + ((serialize ((ws.map Value.word).map Value.bits)).2.1 + 3) / 4 = _
      rw [hwords, hrun]
      show 2 + (sz32 + 3) / 4 = _
      rw [hsize]
    · rw [hwords, hrun, hident]
      show out ++ [0x12] ++ (ident ++ [0]) ++ chunks.flatten = _
      rw [hdata]
      simp only [List.append_assoc]

variable {R : Nat → Prop}

/-- The value of a block goes on to its fields, from the second one on. -/
theorem fields_written {n : Nat} (hb : h[p]? = some b) (hfields : ∀ v ∈ b.fields, Valid env h R v) {m : Nat}
    (hrec : ∀ v {objs out words s}, Output.Holds h objs out words s → p ∈ objs → m ≤ objs.length → Valid env h R v →
      Ends (externRec env n v) s (fun _ s' => Written env h objs out words v s') Never) :
    ∀ (k i : Nat) {objs out words s}, i + k = b.fields.length → 0 < i → Output.Holds h objs out words s → p ∈ objs →
      m ≤ objs.length →
      Ends ((List.range' i k).forM fun i => do
        let h := (← get).heap
        externRec env n (field h (.block p) i)) s (fun _ s' =>
          WrittenAll env h objs out words (b.fields.drop i) s') Never := by
  intro k
  induction k with
  | zero =>
    intro i objs out words s hi _ hs _ _
    rw [List.drop_of_length_le (by omega)]
    exact ⟨[], [], 0, .nil, by simpa using hs⟩
  | succ k ih =>
    intro i objs out words s hi hpos hs hmem hm
    have hlt : i < b.fields.length := by omega
    have hdrop : b.fields.drop i = b.fields[i] :: b.fields.drop (i + 1) := List.drop_eq_getElem_cons hlt
    -- the field is as it was: only the first one is changed
    have hfield : field s.heap (.block p) i = b.fields[i] := by
      obtain ⟨j, hj⟩ := List.getElem?_of_mem hmem
      obtain ⟨b', hb', hmark⟩ := hs.state.marked.marks j p hj
      rw [hb] at hb'
      cases hb'
      have hset : (b.fields.set 0 (.word (BitVec.ofNat 32 j)))[i]? = some b.fields[i] := by
        rw [List.getElem?_set_ne (by omega), List.getElem?_eq_getElem hlt]
      simp only [field, hmark, Option.bind_some, hset, Option.getD_some]
    have hstep := hrec b.fields[i] hs hmem hm (hfields _ (List.getElem_mem hlt))
    refine Ends.bind (Q := fun _ s' => Written env h objs out words b.fields[i] s') ?_ ?_
    · refine .get ?_
      show Ends (externRec env n (field s.heap (.block p) i)) s _ _
      rw [hfield]
      exact hstep
    intro _ s₁ h₁
    obtain ⟨new, bytes, w, hcode, h₁⟩ := h₁
    have hmem' : p ∈ objs ++ new := List.mem_append_left _ hmem
    have hm' : m ≤ (objs ++ new).length := by
      rw [List.length_append]
      omega
    refine (ih (i + 1) (by omega) (by omega) h₁ hmem' hm').mono fun _ s' h' => ?_
    obtain ⟨new', bytes', w', hcodes, h'⟩ := h'
    rw [hdrop]
    refine ⟨new ++ new', bytes ++ bytes', w + w', .cons hcode hcodes, ?_⟩
    simpa only [List.append_assoc, Nat.add_assoc] using h'

theorem Writable.stays_tag (hw : Writable env h R p) (hstays : Stays h p) :
    ∃ b : Block, h[p]? = some b ∧ b.tag ≠ Tag.forward ∧ b.fields ≠ [] := by
  cases hw with
  | fields hb _ hscan htag _ => exact ⟨_, hb, htag, hscan.some⟩
  | contents hb _ _ hcontents => exact ⟨_, hb, hcontents.tag.2, hcontents.ne_nil⟩
  | forward hb htag hcut _ =>
    -- what such a block stands for is not the block
    rw [Stays, follow_forward hb htag hcut] at hstays
    rw [hstays] at hcut
    simp [shortCircuits, hb, htag] at hcut

theorem Output.Holds.snoc (hs : Output.Holds h objs out words s) {out' : Bytes} {words' : Nat} {s' : Extern}
    (h' : At True h (objs ++ [p]) out' words' s') (hp : Stays h p) : Output.Holds h (objs ++ [p]) out' words' s' := by
  refine ⟨h', fun q hq => ?_⟩
  rcases List.mem_append.mp hq with hq | hq
  · exact hs.stays q hq
  · rw [List.mem_singleton.mp hq]
    exact hp

theorem Output.Holds.plain (hs : Output.Holds h objs out words s) {bytes : Bytes} {s' : Extern} {v : Value}
    (hcode : Code env h objs v bytes [] 0) (h' : At True h objs (out ++ bytes) words s') :
      Written env h objs out words v s' :=
  ⟨[], bytes, 0, hcode, by rwa [List.append_nil], by rw [List.append_nil]; exact hs.stays⟩

/-- A block that is marked is written as a reference back. -/
theorem externRec_shared (hsmall : h.length < 2 ^ 32) (hs : Output.Holds h objs out words s) (hR : Writable env h R p)
    (hp : p ∈ objs) (n : Nat) : Ends (externRec env (n + 1) (.block p)) s
    (fun _ s' => Written env h objs out words (.block p) s') Never := by
  have hm := hs.state.marked
  obtain ⟨k, hk⟩ := List.getElem?_of_mem hp
  obtain ⟨b, hb, hmark⟩ := hm.marks k p hk
  obtain ⟨b', hb', htag, hne⟩ := hR.stays_tag (hs.stays p hp)
  rw [hb] at hb'
  cases hb'
  have hklt : k < objs.length := (List.getElem?_eq_some_iff.mp hk).1
  have hnum : objs.length ≤ h.length := by
    have hsub : objs ⊆ List.range h.length := fun q hq => List.mem_range.mpr (hm.mem_lt q hq)
    have hle := (hm.nodup.subperm hsub).length_le
    rwa [List.length_range] at hle
  have hset : b.fields.set 0 (.word (BitVec.ofNat 32 k)) ≠ [] := by
    intro hnil
    exact hne (List.length_eq_zero_iff.mp (by rw [← List.length_set, hnil, List.length_nil]))
  have hfield : (field s.heap (.block p) 0).bits.toNat = k := by
    have hget : (b.fields.set 0 (.word (BitVec.ofNat 32 k)))[0]? = some (.word (BitVec.ofNat 32 k)) :=
      List.getElem?_set_self (List.length_pos_of_ne_nil hne)
    simp only [field, hmark, Option.bind_some, hget, Option.getD_some, Value.bits, BitVec.toNat_ofNat]
    omega
  show Ends (match s.heap[p]? with | none => _ | some b => _) s _ _
  rw [hmark]
  dsimp only
  rw [if_neg fun hand => htag hand.1, if_neg hset, if_pos rfl]
  refine .get ?_
  rw [hfield, hm.counter]
  exact (hs.state.write_ok _).mono fun _ s' h' => hs.plain (.shared (hs.stays p hp) hk) h'

/-- A block is written with its fields, where these are by a depth that is one less. -/
theorem externRec_fields {n : Nat} (hsharing : env.ignoreSharing = false) (hs : Output.Holds h objs out words s)
    (hp : p ∉ objs)
    (hb : h[p]? = some b) (hcolor : b.color ≠ .blue) (hscan : b.Scanned) (htag : b.tag ≠ Tag.forward)
    (hfields : ∀ v ∈ b.fields, Valid env h R v)
    (hrec : ∀ v {objs' out words s}, Output.Holds h objs' out words s → p ∈ objs' → objs.length + 1 ≤ objs'.length →
      Valid env h R v → Ends (externRec env n v) s (fun _ s' => Written env h objs' out words v s') Never) :
    Ends (externRec env (n + 1) (.block p)) s (fun _ s' => Written env h objs out words (.block p) s') Never := by
  have hwhite : ¬ Tag.abstract ≤ b.tag := UInt8.not_le.mpr hscan.scan
  obtain ⟨f, rest, hcons⟩ := List.exists_cons_of_ne_nil hscan.some
  have hhead : b.fields.headD (.word 0) = f := by rw [hcons]; rfl
  have hdrop : b.fields.drop 1 = rest := by rw [hcons]; rfl
  have hlen : 1 + (b.fields.length - 1) = b.fields.length := by
    have := List.length_pos_of_ne_nil hscan.some
    omega
  have hfvalid : Valid env h R f := hfields f (by rw [hcons]; exact List.mem_cons_self)
  show Ends (match s.heap[p]? with | none => _ | some b => _) s _ _
  rw [hs.state.marked.rest p hp, hb]
  dsimp only
  rw [if_neg fun hand => htag hand.1, if_neg hscan.some, if_neg hcolor, if_neg hwhite, hhead]
  -- the header, the mark, the first field and the others
  refine (hs.state.write_ok _).bind fun _ s₁ h₁ => (h₁.count _ _).bind fun _ s₂ h₂ => ?_
  refine (h₂.record_ok hsharing hp hb hscan.some).bind fun _ s₃ h₃ => ?_
  have hmem : p ∈ objs ++ [p] := List.mem_append_right _ (List.mem_singleton_self p)
  have hm₃ : objs.length + 1 ≤ (objs ++ [p]).length := by simp
  refine (hrec f (hs.snoc h₃ (stays hb htag)) hmem hm₃ hfvalid).bind fun _ s₄ h₄ => ?_
  obtain ⟨new, bytes, w, hcode, h₄⟩ := h₄
  have hm₄ : objs.length + 1 ≤ (objs ++ [p] ++ new).length := by
    rw [List.length_append]
    omega
  refine (fields_written hb hfields hrec (b.fields.length - 1) 1 hlen Nat.one_pos h₄
    (List.mem_append_left _ hmem) hm₄).mono
    fun _ s' h' => ?_
  obtain ⟨new', bytes', w', hcodes, h'⟩ := h'
  rw [hdrop] at hcodes
  refine ⟨p :: (new ++ new'), _, _, .block (stays hb htag) hp hb hscan (by rw [hcons]; exact .cons hcode hcodes), ?_⟩
  simpa only [List.append_assoc, List.cons_append, List.nil_append, Nat.add_assoc] using h'

/-- A value that has been closed over is written, as its code. -/
theorem externRec_written (hclosed : Closed env h R) (hsharing : env.ignoreSharing = false)
    (hsmall : h.length < 2 ^ 32) :
    ∀ (n : Nat) (v : Value) {objs out words s}, Output.Holds h objs out words s → Valid env h R v →
      3 * (h.length - objs.length) + hops h v ≤ n →
      Ends (externRec env n v) s (fun _ s' => Written env h objs out words v s') Never
  | 0, v, objs, out, words, s, _, _, hn => by
    have := (hops_le (h := h) v).1
    omega
  | n + 1, .word w, objs, out, words, s, hs, hv, _ => by
    have hlong : (Value.word w).isLong = true := hv
    rw [externRec, if_pos hlong]
    exact (hs.state.write_ok _).mono fun _ s' h' => hs.plain (.long hlong) h'
  | n + 1, .code ofs, objs, out, words, s, hs, hv, _ => by
    have hclosures : env.closures = true := hv
    rw [externRec, if_pos hclosures]
    refine (hs.state.write_ok _).bind fun _ s₁ h₁ => (h₁.write_ok _).mono fun _ s' h' => hs.plain .code ?_
    rwa [List.append_assoc] at h'
  | n + 1, .atom tag, objs, out, words, s, hs, _, _ => (hs.state.write_ok _).mono fun _ s' h' => hs.plain .atom h'
  | n + 1, .inside p ofs, objs, out, words, s, hs, hv, hn => by
    obtain ⟨hR, hofs, hfollow⟩ := hv
    obtain ⟨b, hb, htag, -⟩ := (hclosed p hR).stays_tag hfollow
    have hn' : 3 * (h.length - objs.length) + hops h (.block p) ≤ n := by
      rw [hops_stays hb htag]
      have : hops h (.inside p ofs) = 2 := rfl
      omega
    refine (hs.state.write_ok _).bind fun _ s₁ h₁ => ?_
    refine (externRec_written hclosed hsharing hsmall n (.block p) ⟨h₁, hs.stays⟩ hR hn').mono fun _ s' h' => ?_
    obtain ⟨new, bytes, w, hcode, h'⟩ := h'
    exact ⟨new, _, w, .inside hofs hfollow hcode, by rwa [List.append_assoc] at h'⟩
  | n + 1, .block p, objs, out, words, s, hs, hR, hn => by
    have hm := hs.state.marked
    by_cases hp : p ∈ objs
    · exact externRec_shared hsmall hs (hclosed p hR) hp n
    have hrest := hm.rest p hp
    cases hclosed p hR with
    | contents hb hcolor hsize hcontents =>
      obtain ⟨habstract, htag⟩ := hcontents.tag
      show Ends (match s.heap[p]? with | none => _ | some b => _) s _ _
      rw [hrest, hb]
      dsimp only
      rw [if_neg fun hand => htag hand.1, if_neg hcontents.ne_nil, if_neg hcolor, if_pos habstract]
      refine (externBytes_written hsharing hs.state hp hb hcontents).mono fun _ s' h' => ?_
      exact ⟨[p], _, _, .bytes (stays hb htag) hp hb hsize hcontents, hs.snoc h' (stays hb htag)⟩
    | forward hb htag hcut hvalid =>
      have hfield : field s.heap (.block p) 0 = field h (.block p) 0 := by simp only [field, hrest]
      have hhops : hops h (.block p) = 3 := by simp [hops, hb, htag]
      have hle := hops_cut hcut
      show Ends (match s.heap[p]? with | none => _ | some b => _) s _ _
      rw [hrest, hb]
      dsimp only
      rw [hfield, shortCircuits_tag hm.tag, if_pos ⟨htag, hcut⟩]
      refine (externRec_written hclosed hsharing hsmall n _ hs hvalid (by omega)).mono fun _ s' h' => ?_
      obtain ⟨new, bytes, w, hcode, h'⟩ := h'
      exact ⟨new, bytes, w, .forward (follow_forward hb htag hcut) (follow_cut hcut) hcode, h'⟩
    | fields hb hcolor hscan htag hfields =>
      have hroom := length_lt hm.nodup hm.mem_lt hp (List.getElem?_eq_some_iff.mp hb).1
      have hhops := hops_stays hb htag
      refine externRec_fields hsharing hs hp hb hcolor hscan htag hfields fun v objs' out' words' s' hs' _ hm' hv => ?_
      -- there is one block less to come, so that the depth suffices
      have := (hops_le (h := h) v).2
      exact externRec_written hclosed hsharing hsmall n v hs' hv (by omega)

/-- What stands before the code: the magic number, the length, the number of objects, and the
sizes in words. -/
def header (len objCounter size32 size64 : Nat) : Bytes :=
  wordBytes intextMagicNumber ++ (wordBytes (.ofNat len) ++ wordBytes (.ofNat objCounter) ++ wordBytes
    (.ofNat size32) ++
    wordBytes (.ofNat size64))

/-- `extern_value`, where there is memory: the code of the value, behind its header. -/
theorem externValue_written (hclosed : Closed env h R) (hsharing : env.ignoreSharing = false)
    (hsmall : h.length < 2 ^ 32)
    {v : Value} (hv : Valid env h R v) : Ends (externValue env v) (Extern.init h [])
      (fun blocks s => s.heap = h ∧ ∃ new bytes words size64, Code env h [] v bytes new words ∧ new.Nodup ∧
        blocks.flatten = header bytes.length new.length words size64 ++ bytes) Never := by
  have hmagic : (wordBytes intextMagicNumber).length = 4 := rfl
  have hwrite : externWrite (wordBytes intextMagicNumber) (Extern.init h []) = .ok ((), { Extern.init h [] with
      out := { (Extern.init h []).out with cur := wordBytes intextMagicNumber } }) := rfl
  refine Ends.seq hwrite (Ends.seq (a := ()) rfl (.get ?_))
  show Ends (externRec env (3 * h.length + 3) v >>= _) { Extern.init h [] with
    out := { (Extern.init h []).out with cur := wordBytes intextMagicNumber ++ List.replicate 16 0 } } _ _
  generalize hstart : wordBytes intextMagicNumber ++ List.replicate 16 (0 : UInt8) = start
  have hstartlen : start.length = 20 := by rw [← hstart]; rfl
  have hholds : Output.Holds h [] start 0
    { Extern.init h [] with out := { (Extern.init h []).out with cur := start } } :=
    ⟨⟨.init rfl rfl rfl, rfl, rfl, fun _ => ⟨rfl, rfl, Nat.le_of_eq hstartlen.symm⟩⟩,
      fun q hq => absurd hq List.not_mem_nil⟩
  have hdepth : 3 * (h.length - ([] : List Nat).length) + hops h v ≤ 3 * h.length + 3 := by
    have := (hops_le (h := h) v).2
    simp only [List.length_nil]
    omega
  refine (externRec_written hclosed hsharing hsmall _ v hholds hv hdepth).bind fun _ s h' => ?_
  obtain ⟨new, bytes, words, hcode, ⟨hmarked, hout, hwords, hplain⟩, -⟩ := h'
  have hcounter := hmarked.counter
  obtain ⟨-, -, hfirst⟩ := hplain trivial
  rw [List.nil_append] at hcounter
  rw [Nat.zero_add] at hwords
  have hall : (s.out.blocks ++ [s.out.cur]).flatten = start ++ bytes := by
    rw [← hout, List.flatten_append]
    simp
  show Ends (match s.out.blocks ++ [s.out.cur] with | [] => _ | block :: blocks => _)
    { s with heap := s.trail.flatten.foldl undo s.heap, trail := [[]] } _ _
  cases hblocks : s.out.blocks ++ [s.out.cur] with
  | nil => exact absurd hblocks (by simp)
  | cons block blocks =>
    have hblock : 20 ≤ block.length := by
      rw [Output.first, hblocks] at hfirst
      exact hfirst
    rw [hblocks, List.flatten_cons] at hall
    -- the header is at the beginning of the first block
    have htake : block.take 4 = wordBytes intextMagicNumber := by
      have hfour := congrArg (List.take 4) hall
      rw [List.take_append_of_le_length (by omega), ← hstart, List.append_assoc, List.take_left' hmagic] at hfour
      exact hfour
    have hdrop : block.drop 20 ++ blocks.flatten = bytes := by
      have hrest := congrArg (List.drop 20) hall
      rw [List.drop_append_of_le_length hblock, List.drop_left' hstartlen] at hrest
      exact hrest
    have hlen : block.length + (blocks.map List.length).sum = 20 + bytes.length := by
      have hlength := congrArg List.length hall
      rwa [List.length_append, List.length_flatten, List.length_append, hstartlen] at hlength
    refine ⟨hmarked.replay, new, bytes, words, s.size64, hcode, hmarked.nodup, ?_⟩
    show writeSizes block (block.length + (blocks.map List.length).sum) s.objCounter s.size32
      s.size64 ++ blocks.flatten = _
    rw [writeSizes, hlen, hcounter, hwords, htake, Nat.add_sub_cancel_left, List.append_assoc _ (block.drop 20), hdrop]
    rfl

end MultiScript.Ocaml.Marshal
