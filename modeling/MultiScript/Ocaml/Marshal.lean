/-
What is marshalled into a file is read back from it. The bytes of `extern_value` go through an
output channel, however the system takes them, and come back through an input channel, however
it gives them; what `caml_input_val` makes of them is the graph under the value, block by block.
-/
import MultiScript.Ocaml.Intern
import Mathlib.Algebra.Order.BigOperators.Group.List
import Mathlib.Algebra.Order.Ring.Nat

namespace MultiScript.Ocaml.Marshal

open Act File

/-! ## The graph under a value -/

/-- The blocks `objs` are those under `v`, each once. -/
structure Graph (h : Heap) (v : Value) (objs : List Nat) : Prop where
  nodup : objs.Nodup
  root : Covers h objs v
  whole : ∀ p ∈ objs, Whole h objs p

/-- The words of all blocks. -/
def heapWords (h : Heap) : Nat := (h.map fun b => 1 + b.fields.length).sum

variable {env : Env} {h : Heap} {v : Value} {objs : List Nat}

theorem map_blockWords (h : Heap) : (List.range h.length).map (blockWords h) = h.map fun b => 1 + b.fields.length := by
  refine List.ext_getElem (by simp) fun i hi hi' => ?_
  have hlt : i < h.length := by simpa using hi
  rw [List.getElem_map, List.getElem_range, List.getElem_map, blockWords_eq (List.getElem?_eq_getElem hlt)]

namespace Graph

theorem lt (hg : Graph h v objs) : ∀ p ∈ objs, p < h.length := by
  intro p hp
  obtain ⟨b, hb, -⟩ := hg.whole p hp
  exact (List.getElem?_eq_some_iff.mp hb).1

theorem subperm (hg : Graph h v objs) : objs.Subperm (List.range h.length) :=
  hg.nodup.subperm fun p hp => List.mem_range.mpr (hg.lt p hp)

theorem words_le (hg : Graph h v objs) : (objs.map (blockWords h)).sum ≤ heapWords h := by
  obtain ⟨sub, hperm, hsub⟩ := hg.subperm
  have hsum : (objs.map (blockWords h)).sum = (sub.map (blockWords h)).sum := ((hperm.symm).map _).sum_eq
  rw [hsum, heapWords, ← map_blockWords]
  exact (hsub.map (blockWords h)).sum_le_sum fun _ _ => Nat.zero_le _

theorem length_le (hg : Graph h v objs) : 2 * objs.length ≤ (objs.map (blockWords h)).sum := by
  have hle : ∀ n ∈ objs.map (blockWords h), 2 ≤ n := by
    intro n hn
    obtain ⟨p, hp, rfl⟩ := List.mem_map.mp hn
    obtain ⟨b, hb, hne, -⟩ := hg.whole p hp
    have := List.length_pos_of_ne_nil hne
    rw [blockWords_eq hb]
    omega
  have hsum := List.card_nsmul_le_sum _ 2 hle
  rw [List.length_map, Nat.nsmul_eq_mul] at hsum
  omega

end Graph

/-! ## Input from a channel -/

/-- These bytes come next. -/
def Ahead (r : Reader) (p : Bytes) : Prop := r.next p.length = p

variable {r : Reader} {ch : InputChannel} {errors : Set IoExn}

theorem Ahead.split {p q : Bytes} (hr : Ahead r (p ++ q)) : Ahead r p ∧ Ahead (r.skip p.length) q := by
  rw [Ahead, List.length_append, r.next_add] at hr
  have hlength : (r.next p.length).length = p.length := by
    have hall := congrArg List.length hr
    have hp := r.next_length p.length
    have hq := (r.skip p.length).next_length q.length
    rw [List.length_append, List.length_append] at hall
    omega
  exact List.append_inj hr hlength

theorem Ahead.left {p : Bytes} (hr : Ahead r p) : p.length ≤ r.left := by
  have hlength := r.next_length p.length
  rw [hr] at hlength
  omega

/-- An action is left by an exception that the system led to. -/
def Fails (errors : Set IoExn) {γ : Type} (f : IoStop × γ) : Prop := ∃ e, f.1 = .raised e ∧ e ∈ errors

theorem camlGetword_ahead {w : UInt32} {p : Bytes} (hch : ch.Reads errors r) (hr : Ahead r (wordBytes w ++ p)) :
    Ends camlGetword ch (fun w' ch' => w' = w ∧ ∃ r' : Reader, r' = r.skip 4 ∧ ch'.Reads errors r' ∧ Ahead r' p)
      (Fails errors) := by
  obtain ⟨hword, hrest⟩ := hr.split
  have hleft := hword.left
  have hlength : (wordBytes w).length = 4 := rfl
  rw [hlength] at hrest hleft
  refine (hch.getword.faults fun f hf => ?_).mono fun w' ch' hw => ?_
  · obtain ⟨e, k, he, -, hk, -, herr | ⟨-, -, heof⟩⟩ := hf
    · exact ⟨e, he, herr⟩
    · omega
  · obtain ⟨-, rfl, hch'⟩ := hw
    have hnext : r.next 4 = wordBytes w := hword
    refine ⟨?_, _, rfl, hch', hrest⟩
    rw [hnext]
    exact bigEndian_wordBytes w

theorem camlReallyGetblock_ahead {p : Bytes} (hch : ch.Reads errors r) (hr : Ahead r p) :
    Ends (camlReallyGetblock p.length) ch (fun b ch' => b = (p, true) ∧ ch'.Reads errors (r.skip p.length))
      (Fails errors) := by
  have hleft := hr.left
  refine ((hch.reallyGetblock p.length).faults fun f hf => ?_).mono fun b ch' hb => ?_
  · obtain ⟨e, k, he, -, -, -, herr | ⟨heof, -⟩⟩ := hf
    · exact ⟨e, he, herr⟩
    · cases heof
  · obtain ⟨rfl, hch'⟩ := hb
    rw [Nat.min_eq_left hleft] at hch'
    refine ⟨?_, hch'⟩
    rw [decide_eq_true hleft]
    exact congrArg (·, true) hr

/-- The room for the copy suffices. -/
theorem allocRoom_le {words : Nat} (hone : words ≠ 1) (hfits : 4 * words + 4095 < 2 ^ 32) :
    words ≤ allocRoom words := by
  unfold allocRoom
  split
  · omega
  split
  · exact Nat.le_refl _
  · omega

/-- The copy can be begun. -/
theorem internAlloc_ready (hg : Graph h v objs) (hfits : 4 * heapWords h + 4095 < 2 ^ 32) (heap : Heap) (src : Bytes) :
    ∃ s, internAlloc heap [] src (objs.map (blockWords h)).sum objs.length = some s ∧ s.src = src ∧ s.heap = heap ∧
      Ready h objs heap.length [] s := by
  have hwords := hg.words_le
  have hlength := hg.length_le
  generalize hsum : (objs.map (blockWords h)).sum = words at hwords hlength
  have hroom : words ≤ allocRoom words := by
    refine allocRoom_le ?_ (by omega)
    intro hone
    cases objs with
    | nil =>
      rw [← hsum] at hone
      cases hone
    | cons p objs =>
      rw [List.length_cons] at hlength
      omega
  by_cases hzero : words = 0
  · have hnil : objs = [] := List.eq_nil_of_length_eq_zero (by omega)
    refine ⟨_, if_pos hzero, rfl, rfl, rfl, rfl, ?_, fun hne => absurd hnil hne, rfl⟩
    rw [hsum]
    exact hroom
  · have hsome : objs ≠ [] := by
      intro hnil
      rw [hnil] at hsum
      exact hzero hsum.symm
    have hpos := List.length_pos_of_ne_nil hsome
    have hmod : objs.length % 2 ^ 30 = objs.length := Nat.mod_eq_of_lt (by omega)
    have halloc : internAlloc heap [] src words objs.length = some
        { src, heap, dest := 0, room := allocRoom words, objs := [], table := some objs.length } := by
      simp only [internAlloc, if_neg hzero, List.headD_nil, List.tail_nil, if_true, if_neg (Nat.ne_of_gt hpos), hmod]
    refine ⟨_, halloc, rfl, rfl, rfl, rfl, ?_, fun _ => rfl, rfl⟩
    rw [hsum]
    exact hroom

/-- Where the code of a value comes next. -/
theorem inputExterned_ahead (hg : Graph h v objs) (hfits : 4 * heapWords h + 4095 < 2 ^ 32) {bytes : Bytes}
    {words size64 : Nat}
    (hcode : Code env h [] v bytes objs words) (hlen : bytes.length < 2 ^ 31) (heap : Heap) (hch : ch.Reads errors r)
    (hr : Ahead r (header bytes.length objs.length words size64 ++ bytes)) :
    Ends (inputExterned env heap []) ch (fun x ch' => x.1 = image h objs heap.length v ∧
        x.2 = heap ++ objs.map (copy env.color h objs heap.length) ∧ ch'.Reads errors (r.skip (20 + bytes.length)))
      (Fails errors) := by
  have hwords := hcode.words
  have hle := hg.words_le
  have hnum := hg.length_le
  rw [← hwords] at hle hnum
  simp only [header, List.append_assoc] at hr
  refine (camlGetword_ahead hch hr).bind fun w ch₁ h₁ => ?_
  obtain ⟨rfl, r₁, hr₁, hch₁, hr⟩ := h₁
  rw [if_neg (not_not.mpr rfl)]
  refine (camlGetword_ahead hch₁ hr).bind fun w ch₂ h₂ => ?_
  obtain ⟨rfl, r₂, hr₂, hch₂, hr⟩ := h₂
  refine (camlGetword_ahead hch₂ hr).bind fun w ch₃ h₃ => ?_
  obtain ⟨rfl, r₃, hr₃, hch₃, hr⟩ := h₃
  refine (camlGetword_ahead hch₃ hr).bind fun w ch₄ h₄ => ?_
  obtain ⟨rfl, r₄, hr₄, hch₄, hr⟩ := h₄
  refine (camlGetword_ahead hch₄ hr).bind fun w ch₅ h₅ => ?_
  obtain ⟨rfl, r₅, hr₅, hch₅, hr⟩ := h₅
  have hword : ∀ n, n < 2 ^ 32 → (UInt32.ofNat n).toNat = n := fun n hn => by
    rw [UInt32.toNat_ofNat', Nat.mod_eq_of_lt hn]
  have hmemory : ([] : List Bool).headD true = true := rfl
  rw [if_pos hmemory, hword bytes.length (by omega), if_pos hlen]
  refine (camlReallyGetblock_ahead hch₅ hr).bind fun block ch₆ h₆ => ?_
  obtain ⟨rfl, hch₆⟩ := h₆
  have hall : (bytes, true).2 = true := rfl
  dsimp only
  rw [if_pos hall, hword words (by omega), hword objs.length (by omega), hwords]
  obtain ⟨s, halloc, hsrc, hheap, hready⟩ := internAlloc_ready hg hfits heap bytes
  rw [List.tail_nil, halloc]
  dsimp only
  have hread : Ends (internRec env (bytes.length + 1)) s
      (fun v' s' => v' = image h objs heap.length v ∧ Done env h objs heap.length [] objs s [] s') Never :=
    hcode.read hg.nodup (by omega) (Nat.lt_succ_self _) (by rw [hsrc, List.append_nil]) hready (List.append_nil _)
  refine finish_ends hread fun v' s' hv => ?_
  obtain ⟨rfl, hdone⟩ := hv
  refine ⟨rfl, ?_, ?_⟩
  · show s'.heap = _
    rw [hdone.heap, hheap]
  · have hskip : r₅.skip bytes.length = r.skip (20 + bytes.length) := by
      simp only [hr₅, hr₄, hr₃, hr₂, hr₁, Reader.skip_skip]
    rwa [hskip] at hch₆

/-- `caml_input_val`, where the code of a value comes next. -/
theorem camlInputVal_ahead (hg : Graph h v objs) (hfits : 4 * heapWords h + 4095 < 2 ^ 32) {bytes : Bytes}
    {words size64 : Nat}
    (hcode : Code env h [] v bytes objs words) (hlen : bytes.length < 2 ^ 31) (heap : Heap) (hch : ch.Reads errors r)
    (hr : Ahead r (header bytes.length objs.length words size64 ++ bytes)) :
    Ends (camlInputVal env heap []) ch (fun x ch' => x.1 = image h objs heap.length v ∧
        x.2 = heap ++ objs.map (copy env.color h objs heap.length) ∧ ch'.Reads errors (r.skip (20 + bytes.length)))
      (Fails errors) := by
  have hbinary : camlInputVal env heap [] ch = inputExterned env heap [] ch := by
    show (if ch.binary = true then inputExterned env heap [] else raise _) ch = _
    rw [if_pos hch.binary]
  exact .of_eq hbinary (inputExterned_ahead hg hfits hcode hlen heap hch hr)

/-! ## Output to a channel -/

theorem putBlocks : ∀ (blocks : List Bytes) {out : OutputChannel} {w : Writer}, out.Writes errors w →
    Ends (blocks.forM camlReallyPutblock) out (fun _ out' => out'.Writes errors (w.put blocks.flatten)) (Fails errors)
  | [], out, w, hout => by
    show out.Writes errors (w.put [])
    rwa [w.put_nil]
  | block :: blocks, out, w, hout => by
    refine ((hout.reallyPutblock block).faults fun f hf => ?_).bind fun _ out₁ h₁ =>
      (putBlocks blocks h₁).mono fun _ out' h' => ?_
    · obtain ⟨e, k, he, herr, -⟩ := hf
      exact ⟨e, he, herr⟩
    · rwa [w.put_put] at h'

variable {R : Nat → Prop}

/-- What `extern_value` makes of a value is the code of all that this leads to. -/
theorem externValue_graph (hclosed : Closed env h R) (hsharing : env.ignoreSharing = false)
    (hfits : 4 * heapWords h + 4095 < 2 ^ 32)
    (hv : Valid env h R v) : Ends (externValue env v) (Extern.init h [])
      (fun blocks s => s.heap = h ∧ ∃ objs bytes words size64, Graph h v objs ∧ Code env h [] v bytes objs words ∧
        blocks.flatten = header bytes.length objs.length words size64 ++ bytes) Never := by
  have hsmall : h.length < 2 ^ 32 := by
    have hle : h.length • 1 ≤ (h.map fun b => 1 + b.fields.length).sum := by
      have hlength : (h.map fun b => 1 + b.fields.length).length = h.length := List.length_map _
      rw [← hlength]
      refine List.card_nsmul_le_sum _ 1 fun n hn => ?_
      obtain ⟨b, -, rfl⟩ := List.mem_map.mp hn
      exact Nat.le_add_right _ _
    rw [Nat.nsmul_eq_mul, ← heapWords] at hle
    omega
  refine (externValue_written hclosed hsharing hsmall hv).mono fun blocks s hs => ?_
  obtain ⟨hheap, objs, bytes, words, size64, hcode, hnodup, hblocks⟩ := hs
  obtain ⟨hroot, hwhole⟩ := hcode.covers
  exact ⟨hheap, objs, bytes, words, size64, ⟨hnodup, hroot, hwhole⟩, hcode, hblocks⟩

theorem camlOutputVal_eq {out : OutputChannel} {blocks : List Bytes} {s : Extern} (hbinary : out.binary = true)
    (hrun : externValue env v (Extern.init h []) = .ok (blocks, s)) :
    camlOutputVal env h [] v out = (do
      blocks.forM camlReallyPutblock
      return s.heap : IoM OutputChannel Heap) out := by
  show (if out.binary = true then finish _ (externValue env v (Extern.init h [])) else raise _) out = _
  rw [if_pos hbinary, hrun]
  rfl

/-- `caml_output_val`: the code of a value is put. -/
theorem camlOutputVal_puts (hclosed : Closed env h R) (hsharing : env.ignoreSharing = false)
    (hfits : 4 * heapWords h + 4095 < 2 ^ 32) (hv : Valid env h R v) : ∃ objs bytes words size64, Graph h v objs ∧
      Code env h [] v bytes objs words ∧ ∀ {errors : Set IoExn} {out : OutputChannel} {w : Writer},
      out.Writes errors w →
        Ends (camlOutputVal env h [] v) out (fun h' out' => h' = h ∧
          out'.Writes errors (w.put (header bytes.length objs.length words size64 ++ bytes))) (Fails errors) := by
  have hwritten := externValue_graph hclosed hsharing hfits hv
  cases hrun : externValue env v (Extern.init h []) with
  | error f => exact (hwritten.error hrun).elim
  | ok x =>
    obtain ⟨blocks, s⟩ := x
    obtain ⟨hheap, objs, bytes, words, size64, hg, hcode, hblocks⟩ := hwritten.ok hrun
    refine ⟨objs, bytes, words, size64, hg, hcode, fun {errors out w} hout => ?_⟩
    refine .of_eq (camlOutputVal_eq hout.binary hrun) ((putBlocks blocks hout).bind fun _ out' h' => ⟨hheap, ?_⟩)
    rwa [hblocks] at h'

/-- What has been put into a fresh channel and flushed is in the file. -/
theorem flushed_content {fd : Descriptor UInt8} {out : OutputChannel} {p : Bytes} (hne : p ≠ [])
    (hout : out.Writes errors (Writer.put { content := fd.content, pos := fd.pos, flushed := true } p))
    (hbuff : out.buff = []) :
    out.fd.content = overwrite fd.content fd.pos p ∧ out.posOut = fd.pos + p.length := by
  have hall := hout.content
  have hat := hout.pos
  rw [hbuff, overwrite_nil, Writer.put, if_neg hne] at hall
  rw [Writer.put, if_neg hne] at hat
  refine ⟨hall, ?_⟩
  rw [OutputChannel.posOut, ← Int.natCast_add, hat, Int.natCast_add]

theorem openDescriptorOut_writes (fd : Descriptor UInt8) :
    (camlOpenDescriptorOut fd true).Writes (errorsOf fd) { content := fd.content, pos := fd.pos, flushed := true } :=
  ⟨rfl, rfl, overwrite_nil _ _, rfl, Nat.zero_le _, fun _ => rfl, fun e he hne => ⟨e, he, hne, rfl⟩⟩

/-- The file after `caml_output_val` and a flush. -/
theorem output_file {blocks : List Bytes} {s : Extern} (hrun : externValue env v (Extern.init h []) = .ok (blocks, s))
    (hne : blocks.flatten ≠ []) (fd : Descriptor UInt8) :
    Ends (do
        let h' ← camlOutputVal env h [] v
        camlFlush
        return h') (camlOpenDescriptorOut fd true)
      (fun _ out => out.fd.content = overwrite fd.content fd.pos blocks.flatten) (Fails (errorsOf fd)) := by
  have hopen := openDescriptorOut_writes fd
  have hput : Ends (camlOutputVal env h [] v) (camlOpenDescriptorOut fd true) (fun _ out => out.Writes (errorsOf fd)
      (Writer.put { content := fd.content, pos := fd.pos, flushed := true } blocks.flatten)) (Fails (errorsOf fd)) :=
    .of_eq (camlOutputVal_eq hopen.binary hrun) ((putBlocks blocks hopen).bind fun _ out' h' => h')
  refine hput.bind fun h' out₁ h₁ => (h₁.flush.faults fun f hf => ?_).bind fun _ out h₂ => ?_
  · obtain ⟨e, he, herr, -⟩ := hf
    exact ⟨e, he, herr⟩
  · exact (flushed_content hne h₂.1 h₂.2).1

/-- **Marshalling, there and back.** A value that is put into a file by `output_value`, with
all that it leads to, comes back by `input_value` from there as a copy: the blocks under it, shared
and cyclic as they were, are made behind those of the heap, whatever this has; the reader ends
where the writer did. Only errors of the system stop this. -/
theorem output_input (hclosed : Closed env h R) (hsharing : env.ignoreSharing = false)
    (hfits : 4 * heapWords h + 4095 < 2 ^ 32) (hv : Valid env h R v) (fd : Descriptor UInt8) :
    Ends (do
        let h' ← camlOutputVal env h [] v
        camlFlush
        return h') (camlOpenDescriptorOut fd true)
      (fun h' out => h' = h ∧ (out.fd.content.length < 2 ^ 31 → ∃ objs, Graph h v objs ∧
        ∀ (fd' : Descriptor UInt8) (heap : Heap), fd'.content = out.fd.content → fd'.pos = fd.pos →
          Ends (camlInputVal env heap []) (camlOpenDescriptorIn fd' true)
            (fun x inp => x.1 = image h objs heap.length v ∧
              x.2 = heap ++ objs.map (copy env.color h objs heap.length) ∧
              inp.posIn = out.posOut)
            (Fails (errorsOf fd'))))
      (Fails (errorsOf fd)) := by
  obtain ⟨objs, bytes, words, size64, hg, hcode, hput⟩ := camlOutputVal_puts hclosed hsharing hfits hv
  refine (hput (openDescriptorOut_writes fd)).bind fun h' out₁ h₁ => ?_
  obtain ⟨rfl, hout₁⟩ := h₁
  refine (hout₁.flush.faults fun f hf => ?_).bind fun _ out h₂ =>
    ⟨rfl, fun hlen => ⟨objs, hg, fun fd' heap hcontent hpos => ?_⟩⟩
  · obtain ⟨e, he, herr, -⟩ := hf
    exact ⟨e, he, herr⟩
  obtain ⟨hout, hbuff⟩ := h₂
  generalize hp : header bytes.length objs.length words size64 ++ bytes = p at hout
  have hplen : p.length = 20 + bytes.length := by
    rw [← hp, List.length_append]
    rfl
  have hne : p ≠ [] := List.ne_nil_of_length_pos (by omega)
  obtain ⟨hfile, hend⟩ := flushed_content hne hout hbuff
  have hahead : Ahead { content := fd'.content, pos := fd'.pos } p := by
    rw [Ahead, Reader.next, hcontent, hpos, hfile]
    exact slice_overwrite _ _ _
  have hbytes : bytes.length < 2 ^ 31 := by
    have hleft : p.length ≤ fd'.content.length - fd'.pos := hahead.left
    rw [hcontent] at hleft
    omega
  rw [← hp] at hahead
  refine (camlInputVal_ahead hg hfits hcode hbytes heap (openDescriptorIn_reads fd') hahead).mono fun x inp hx => ?_
  obtain ⟨hroot, hheap, hinp⟩ := hx
  refine ⟨hroot, hheap, ?_⟩
  rw [hinp.posIn, hend, hplen]
  show ((fd'.pos + (20 + bytes.length) : Nat) : Int) = _
  rw [hpos, Int.natCast_add]

/-- A block that is in itself, with a string twice. -/
def sampleHeap : Heap :=
  [{ tag := 0, color := .white, fields := [.block 0, .block 1, .block 1, .word 3] },
    { tag := Tag.string, color := .white, fields := stringFields [97, 98] }]

def sampleEnv : Env :=
  { closures := false, ignoreSharing := false, checksum := List.replicate 16 0, customAt := fun _ => none,
    registered := [],
    color := .white, digest := rfl }

theorem sample_closed : Closed sampleEnv sampleHeap (· < 2) := by
  intro p hp
  match p, hp with
  | 0, _ =>
    refine .fields rfl nofun ⟨by decide, by decide, nofun⟩ (by decide) fun v hv => ?_
    simp only [List.mem_cons, List.not_mem_nil, or_false] at hv
    rcases hv with rfl | rfl | rfl | rfl
    · exact (by decide : 0 < 2)
    · exact (by decide : 1 < 2)
    · exact (by decide : 1 < 2)
    · rfl
  | 1, _ => exact .contents rfl nofun (by decide) .string

/-- The sample in a file: 29 bytes. -/
theorem sample_length {h' : Heap} {out : OutputChannel} (hrun : (do
    let h' ← camlOutputVal sampleEnv sampleHeap [] (.block 0)
    camlFlush
    return h' : IoM OutputChannel Heap) (camlOpenDescriptorOut { content := [], pos := 0 } true) = .ok (h', out)) :
    out.fd.content.length = 29 := by
  obtain ⟨blocks, s, hval, hlength⟩ : ∃ blocks s, externValue sampleEnv (.block 0) (Extern.init sampleHeap []) =
    .ok (blocks, s) ∧
      blocks.flatten.length = 29 := ⟨_, _, rfl, rfl⟩
  have hne : blocks.flatten ≠ [] := List.ne_nil_of_length_pos (by omega)
  have hfile : out.fd.content = overwrite [] ([] : Bytes).length blocks.flatten :=
    (output_file hval hne { content := [], pos := 0 }).ok hrun
  rw [hfile, overwrite_end, List.nil_append, hlength]

/-- It is put into a file, and comes back. -/
theorem output_input_sample : ∃ h' out objs x inp, (do
    let h' ← camlOutputVal sampleEnv sampleHeap [] (.block 0)
    camlFlush
    return h' : IoM OutputChannel Heap) (camlOpenDescriptorOut { content := [], pos := 0 } true) = .ok (h', out) ∧
      h' = sampleHeap ∧ Graph sampleHeap (.block 0) objs ∧
      camlInputVal sampleEnv [] [] (camlOpenDescriptorIn { content := out.fd.content, pos := 0 } true) = .ok (x, inp) ∧
      x.1 = image sampleHeap objs 0 (.block 0) ∧ x.2 = objs.map (copy .white sampleHeap objs 0) ∧
      inp.posIn = out.posOut := by
  have hends := output_input sample_closed rfl (by decide) (v := .block 0) (by decide : 0 < 2)
    { content := [], pos := 0 }
  cases hrun : (do
    let h' ← camlOutputVal sampleEnv sampleHeap [] (.block 0)
    camlFlush
    return h' : IoM OutputChannel Heap) (camlOpenDescriptorOut { content := [], pos := 0 } true) with
  | error f =>
    obtain ⟨e, -, errno, hfails, -⟩ := hends.error hrun
    cases hfails
  | ok r =>
    obtain ⟨h', out⟩ := r
    obtain ⟨rfl, hread⟩ := hends.ok hrun
    obtain ⟨objs, hg, hread⟩ := hread (by rw [sample_length hrun]; decide)
    have hinput := hread { content := out.fd.content, pos := 0 } [] rfl rfl
    cases hin : camlInputVal sampleEnv [] [] (camlOpenDescriptorIn { content := out.fd.content, pos := 0 } true) with
    | error f =>
      obtain ⟨e, -, errno, hfails, -⟩ := hinput.error hin
      cases hfails
    | ok y =>
      obtain ⟨x, inp⟩ := y
      obtain ⟨hroot, hheap, hpos⟩ := hinput.ok hin
      exact ⟨_, _, objs, x, inp, rfl, rfl, hg, hin, hroot, hheap, hpos⟩

end MultiScript.Ocaml.Marshal
