/-
An output channel as `ocaml_io.c` has it: the buffer and a pointer into it, from which bytes
are moved and written. What `write` takes may be less than it is given; the hook on the
standard channels takes all. With the hook this is the channel that is a list of bytes.
-/
import MultiScript.Lib.Loop
import MultiScript.Ocaml.Channel

namespace MultiScript.Ocaml

open Run Loop

/-- `INT_MAX`. -/
def intMax : Nat := 2147483647

/-- `struct channel`: `curr` from `buff` on, and the bytes of the buffer. `end` is
`IO_BUFFER_SIZE` from `buff`. -/
structure ChannelMemory where
  fd : Nat
  offset : BitVec 64
  curr : Int
  buff : Nat → UInt8

/-- How a call fails to return: the turns given to a loop did not suffice, or bytes were
moved outside the buffer. -/
inductive ChannelStop
  | turns
  | fault (f : Fault)
deriving DecidableEq, Repr

namespace ChannelMemory

/-- The first `n` bytes of the buffer. -/
def bytes (ch : ChannelMemory) (n : Nat) : Bytes := (List.range n).map ch.buff

/-- `memmove(buff + dst, p, ...)`, inside the buffer. -/
def move (ch : ChannelMemory) (dst : Int) (p : Bytes) : Except ChannelStop ChannelMemory :=
  if 0 ≤ dst ∧ dst + p.length ≤ ioBufferSize then
    .ok { ch with
      buff := fun i => if dst.toNat ≤ i ∧ i < dst.toNat + p.length then p.getD (i - dst.toNat) 0 else ch.buff i }
  else .error (.fault .bufferOverrun)

/-- What is said to have been written is counted. -/
def written (ch : ChannelMemory) (n : Nat) : ChannelMemory := { ch with offset := ch.offset + BitVec.ofNat 64 n }

variable (write : Nat → Bytes → Nat)

/-- `do_write` with the hook set: what goes to the hook, and how much is said to have been
written. -/
def doWrite (fd : Nat) (p : Bytes) : List Bytes × Nat :=
  if fd = 1 ∨ fd = 2 then ([p], p.length) else ([], write fd p)

/-- `caml_flush_partial`: whether the buffer is empty after it. -/
def flushPartial (ch : ChannelMemory) : Except ChannelStop ((Bool × List Bytes) × ChannelMemory) :=
  let towrite := ch.curr
  if 0 < towrite then do
    let p := ch.bytes towrite.toNat
    let r := doWrite write ch.fd p
    let ch := ch.written r.2
    let ch ← if r.2 < towrite then ch.move 0 (p.drop r.2) else .ok ch
    let ch := { ch with curr := ch.curr - r.2 }
    return ((ch.curr == 0, r.1), ch)
  else return ((ch.curr == 0, []), ch)

/-- `caml_putblock`: how many of the bytes were taken. -/
def putblock (ch : ChannelMemory) (p : Bytes) : Except ChannelStop ((Int × List Bytes) × ChannelMemory) :=
  let n : Int := if intMax ≤ p.length then intMax else p.length
  let free : Int := ioBufferSize - ch.curr
  if n < free then do
    let ch ← ch.move ch.curr (p.take n.toNat)
    return ((n, []), { ch with curr := ch.curr + n })
  else do
    let ch ← ch.move ch.curr (p.take free.toNat)
    let towrite := ioBufferSize
    let q := ch.bytes towrite
    let r := doWrite write ch.fd q
    let ch ← if r.2 < towrite then ch.move 0 (q.drop r.2) else .ok ch
    return ((free, r.1), { ch.written r.2 with curr := ioBufferSize - r.2 })

/-- What a loop over a channel works on: the bytes left to put, whether a flush is done, and
what has been handed on. -/
structure Loop where
  ch : ChannelMemory
  p : Bytes := []
  done : Bool := false
  chunks : List Bytes := []

def ended (r : Option Loop) : Except ChannelStop Loop :=
  match r with
  | some l => .ok l
  | none => .error .turns

/-- A turn of `caml_flush`, until the flush is done. -/
def flushMore (l : Loop) : Bool := !l.done

def flushTurn (l : Loop) : Except ChannelStop Loop := do
  let r ← l.ch.flushPartial write
  return { l with ch := r.2, done := r.1.1, chunks := l.chunks ++ r.1.2 }

/-- `caml_flush`. -/
def flush (turns : Nat) (ch : ChannelMemory) : Except ChannelStop Loop := do
  ended (← whileLoop flushMore (flushTurn write) turns { ch })

/-- A turn of `caml_really_putblock`, as long as there are bytes left. -/
def putMore (l : Loop) : Bool := !l.p.isEmpty

def putTurn (l : Loop) : Except ChannelStop Loop := do
  let r ← l.ch.putblock write l.p
  return { l with ch := r.2, p := l.p.drop r.1.1.toNat, chunks := l.chunks ++ r.1.2 }

/-- `caml_really_putblock`. -/
def reallyPutblock (turns : Nat) (ch : ChannelMemory) (p : Bytes) : Except ChannelStop Loop := do
  ended (← whileLoop putMore (putTurn write) turns { ch, p })

/-! ## The bytes between `buff` and `curr` -/

/-- A standard channel whose buffer holds, up to `curr`, the bytes of the other one. -/
structure Holds (ch : ChannelMemory) (c : Channel) : Prop where
  fd : ch.fd = 1 ∨ ch.fd = 2
  curr : ch.curr = c.buff.length
  content : ch.bytes c.buff.length = c.buff

variable {write} {ch : ChannelMemory} {c : Channel}

theorem holds_reset (n : Nat) (hfd : ch.fd = 1 ∨ ch.fd = 2) : Holds { ch.written n with curr := 0 } .empty :=
  ⟨hfd, rfl, rfl⟩

theorem bytes_length (ch : ChannelMemory) (n : Nat) : (ch.bytes n).length = n := by
  rw [bytes, List.length_map, List.length_range]

/-- What is moved to `curr` comes behind what was there. -/
theorem move_ok {p : Bytes} {n : Nat} (h : n + p.length ≤ ioBufferSize) :
    ∃ ch', ch.move n p = .ok ch' ∧ ch'.fd = ch.fd ∧
    ch'.offset = ch.offset ∧ ch'.curr = ch.curr ∧ ch'.bytes (n + p.length) = ch.bytes n ++ p := by
  refine ⟨_, if_pos ⟨by omega, by omega⟩, rfl, rfl, rfl, ?_⟩
  refine List.ext_getElem (by simp [bytes]) fun i hi hi' => ?_
  rw [bytes_length] at hi
  simp only [bytes, List.getElem_map, List.getElem_range, Int.toNat_natCast, List.getElem_append, List.length_map,
    List.length_range]
  by_cases hn : i < n
  · rw [if_neg (by omega), dif_pos hn]
  · have hin : i - n < p.length := by omega
    rw [if_pos (by omega), dif_neg hn, List.getD_eq_getElem?_getD, List.getElem?_eq_getElem hin, Option.getD_some]

theorem doWrite_hook {fd : Nat} (h : fd = 1 ∨ fd = 2) (p : Bytes) : doWrite write fd p = ([p], p.length) := if_pos h

/-- How far the chunks move the offset. -/
def moved (offset : BitVec 64) (chunks : List Bytes) : BitVec 64 := offset + BitVec.ofNat 64 chunks.flatten.length

theorem moved_nil (offset : BitVec 64) : moved offset [] = offset := by simp [moved]

theorem moved_append (offset : BitVec 64) (xs ys : List Bytes) :
    moved offset (xs ++ ys) = moved (moved offset xs) ys := by
  simp only [moved, List.flatten_append, List.length_append, BitVec.ofNat_add, BitVec.add_assoc]

theorem flushPartial_holds (h : ch.Holds c) : ∃ ch', ch.flushPartial write = .ok ((true, c.flush.1), ch') ∧
    ch'.Holds c.flush.2 ∧ ch'.offset = moved ch.offset c.flush.1 := by
  have hcurr : ch.curr = c.buff.length := h.curr
  by_cases hempty : c.buff = []
  · have hflush : c.flush = ([], c) := if_pos hempty
    have hzero : ch.curr = 0 := by rw [hcurr, hempty]; rfl
    rw [hflush]
    refine ⟨ch, ?_, h, (moved_nil _).symm⟩
    rw [flushPartial, hzero]
    rfl
  · have hpos : (0 : Int) < c.buff.length := by
      have hlength := List.length_pos_iff.mpr hempty
      omega
    have hflush : c.flush = ([c.buff], .empty) := if_neg hempty
    rw [hflush]
    refine ⟨{ ch.written c.buff.length with curr := 0 }, ?_, holds_reset _ h.fd, by simp [written, moved]⟩
    simp only [flushPartial, hcurr, if_pos hpos, Int.toNat_natCast, h.content, doWrite_hook h.fd, Int.lt_irrefl,
      if_false]
    show Except.ok (((ch.curr - c.buff.length == 0), [c.buff]), { ch.written c.buff.length with
      curr := ch.curr - c.buff.length }) = _
    rw [hcurr, Int.sub_self]
    rfl

theorem putblock_holds (h : ch.Holds c) (p : Bytes) : ∃ ch', ch.putblock write p =
      .ok ((((c.putblock p).1.1 : Nat), (c.putblock p).1.2), ch') ∧
    ch'.Holds (c.putblock p).2 ∧ ch'.offset = moved ch.offset (c.putblock p).1.2 := by
  have hfits := c.fits
  have hmax : ioBufferSize < intMax := by decide
  have hcurr : ch.curr = c.buff.length := h.curr
  by_cases hroom : p.length < ioBufferSize - c.buff.length
  · rw [Channel.putblock_room hroom]
    obtain ⟨ch', hmove, hfd, hoffset, hcurr', hbytes⟩ := @move_ok ch p c.buff.length (by omega)
    have hn : ¬ intMax ≤ p.length := by omega
    have hlt : (p.length : Int) < ioBufferSize - (c.buff.length : Int) := by omega
    refine ⟨{ ch' with curr := ch'.curr + p.length }, ?_, ⟨hfd ▸ h.fd, ?_, ?_⟩, by rw [moved_nil]; exact hoffset⟩
    · simp only [putblock, if_neg hn, hcurr, if_pos hlt, Int.toNat_natCast, List.take_length, hmove]
      rfl
    · show ch'.curr + p.length = ((c.buff ++ p).length : Int)
      rw [hcurr', hcurr, List.length_append, Int.natCast_add]
    · show ch'.bytes (c.buff ++ p).length = c.buff ++ p
      rw [List.length_append, hbytes, h.content]
  · rw [Channel.putblock_full hroom]
    have hlength : (p.take (ioBufferSize - c.buff.length)).length = ioBufferSize - c.buff.length := by
      rw [List.length_take]
      omega
    obtain ⟨ch', hmove, hfd, hoffset, hcurr', hbytes⟩ :=
      @move_ok ch (p.take (ioBufferSize - c.buff.length)) c.buff.length (by omega)
    have hfull : ch'.bytes ioBufferSize = c.buff ++ p.take (ioBufferSize - c.buff.length) := by
      have hall : c.buff.length + (p.take (ioBufferSize - c.buff.length)).length = ioBufferSize := by omega
      rw [hall, h.content] at hbytes
      exact hbytes
    have hfree : (ioBufferSize : Int) - c.buff.length = ((ioBufferSize - c.buff.length : Nat) : Int) := by omega
    have hn : ¬ (if intMax ≤ p.length then (intMax : Int) else p.length) <
      ((ioBufferSize - c.buff.length : Nat) : Int) := by
      split <;> omega
    have hwrite : doWrite write ch'.fd (ch'.bytes ioBufferSize) =
        ([c.buff ++ p.take (ioBufferSize - c.buff.length)], ioBufferSize) := by
      rw [doWrite_hook (hfd ▸ h.fd), bytes_length, hfull]
    refine ⟨{ ch'.written ioBufferSize with curr := 0 }, ?_, ?_, ?_⟩
    · simp only [putblock, hcurr, hfree, if_neg hn, Int.toNat_natCast, hmove]
      show (do
        let ch ← if (doWrite write ch'.fd (ch'.bytes ioBufferSize)).2 < ioBufferSize then
          ch'.move 0 ((ch'.bytes ioBufferSize).drop (doWrite write ch'.fd (ch'.bytes ioBufferSize)).2) else .ok ch'
        return ((((ioBufferSize - c.buff.length : Nat) : Int), (doWrite write ch'.fd (ch'.bytes ioBufferSize)).1),
          { ch.written (doWrite write ch'.fd (ch'.bytes ioBufferSize)).2 with
            curr := ioBufferSize - (doWrite write ch'.fd (ch'.bytes ioBufferSize)).2 })) = _
      rw [hwrite, if_neg (Nat.lt_irrefl _)]
      simp only [Int.sub_self]
      rfl
    · exact holds_reset _ (hfd ▸ h.fd)
    · show ch'.offset + BitVec.ofNat 64 ioBufferSize = _
      rw [hoffset, moved, ← hfull]
      simp [bytes_length]

theorem flush_holds (h : ch.Holds c) {turns : Nat} (ht : 1 ≤ turns) : ∃ l, ch.flush write turns = .ok l ∧
    l.ch.Holds c.flush.2 ∧ l.chunks = c.flush.1 ∧ l.ch.offset = moved ch.offset c.flush.1 := by
  obtain ⟨ch', hflush, hholds, hoffset⟩ := @flushPartial_holds write ch c h
  -- one turn empties the buffer
  let I : Loop → Prop := fun l => (l.done = false → l = { ch }) ∧ (l.done = true → l.ch = ch' ∧ l.chunks = c.flush.1)
  have hbody : ∀ l : Loop, I l → flushMore l = true →
      ∃ l', flushTurn write l = .ok l' ∧ I l' ∧ (if l'.done then 0 else 1) < (if l.done then 0 else 1) := by
    intro l hl hdone
    rw [flushMore, Bool.not_eq_true'] at hdone
    obtain rfl := hl.1 hdone
    refine ⟨{ ch := ch', done := true, chunks := c.flush.1 }, ?_, ⟨fun h => (by cases h), fun _ => ⟨rfl, rfl⟩⟩,
      Nat.zero_lt_one⟩
    simp only [flushTurn, hflush]
    rfl
  obtain ⟨l, hloop, hl, hend⟩ := @whileLoop_ends Loop ChannelStop flushMore (flushTurn write) I
    (fun l => if l.done then 0 else 1) hbody turns { ch } ⟨fun _ => rfl, fun h => (by cases h)⟩ ht
  rw [flushMore, Bool.not_eq_false'] at hend
  obtain ⟨hch, hchunks⟩ := hl.2 hend
  refine ⟨l, ?_, hch ▸ hholds, hchunks, hch ▸ hoffset⟩
  rw [flush, hloop]
  rfl

/-- The turns that `caml_really_putblock` takes at most: one may only make room. -/
def turnsLeft (ch : ChannelMemory) (p : Bytes) : Nat := 2 * p.length + if ch.curr = ioBufferSize then 1 else 0

theorem putblock_turns {ch' : ChannelMemory} {p : Bytes} (h : ch.Holds c) (h' : ch'.Holds (c.putblock p).2) (hp : p ≠ []) :
    turnsLeft ch' (p.drop (c.putblock p).1.1) < turnsLeft ch p := by
  have hlength : 0 < p.length := List.length_pos_iff.mpr hp
  have hfits := c.fits
  have hcurr := h.curr
  have hcurr' := h'.curr
  by_cases hroom : p.length < ioBufferSize - c.buff.length
  · simp only [turnsLeft, List.length_drop, Channel.putblock_room hroom]
    split <;> split <;> omega
  · have hzero : ch'.curr = 0 := by
      rw [Channel.putblock_full hroom] at hcurr'
      exact hcurr'
    have hsize : ¬ ch'.curr = ioBufferSize := by
      rw [hzero]
      decide
    simp only [turnsLeft, List.length_drop, Channel.putblock_full hroom, if_neg hsize]
    split <;> omega

theorem reallyPutblock_holds (h : ch.Holds c) (p : Bytes) {turns : Nat} (ht : 2 * p.length + 1 ≤ turns) :
    ∃ l, ch.reallyPutblock write turns p = .ok l ∧ l.ch.Holds (c.output p).2 ∧ l.chunks = (c.output p).1 ∧
      l.ch.offset = moved ch.offset (c.output p).1 := by
  -- what is left to put gives the rest of what the whole gives
  let I : Loop → Prop := fun l => ∃ c', l.ch.Holds c' ∧ l.chunks ++ (c'.output l.p).1 = (c.output p).1 ∧
    (c'.output l.p).2 = (c.output p).2 ∧ l.ch.offset = moved ch.offset l.chunks
  have hbody : ∀ l : Loop, I l → putMore l = true →
      ∃ l', putTurn write l = .ok l' ∧ I l' ∧ turnsLeft l'.ch l'.p < turnsLeft l.ch l.p := by
    rintro l ⟨c', hholds, hchunks, hlast, hoffset⟩ hleft
    have hp : l.p ≠ [] := by simpa [putMore] using hleft
    obtain ⟨ch', hput, hholds', hoffset'⟩ := @putblock_holds write l.ch c' hholds l.p
    rw [Channel.output_block hp] at hchunks hlast
    refine ⟨{ l with ch := ch', p := l.p.drop (c'.putblock l.p).1.1, chunks := l.chunks ++ (c'.putblock l.p).1.2 }, ?_, ?_,
      putblock_turns hholds hholds' hp⟩
    · simp only [putTurn, hput]
      rfl
    · refine ⟨_, hholds', by rw [List.append_assoc, hchunks], hlast, ?_⟩
      show ch'.offset = _
      rw [hoffset', hoffset, moved_append]
  have hsize : turnsLeft ch p ≤ turns := by
    unfold turnsLeft
    split <;> omega
  obtain ⟨l, hloop, ⟨c', hholds, hchunks, hlast, hoffset⟩, hend⟩ :=
    @whileLoop_ends Loop ChannelStop putMore (putTurn write) I
    (fun l => turnsLeft l.ch l.p) hbody turns { ch, p } ⟨c, h, rfl, rfl, (moved_nil _).symm⟩ hsize
  have hnil : l.p = [] := by simpa [putMore] using hend
  rw [hnil, Channel.output_nil] at hchunks hlast
  have hall : l.chunks = (c.output p).1 := by rw [← hchunks, List.append_nil]
  refine ⟨l, ?_, hlast ▸ hholds, hall, hall ▸ hoffset⟩
  rw [reallyPutblock, hloop]
  rfl

end ChannelMemory

/-! ## Runs -/

/-- What the runtime does to put bytes on a channel. -/
inductive PutOp
  | putblock (p : Bytes)
  | reallyPutblock (p : Bytes)
  | flushPartial
  | flush
deriving DecidableEq, Repr

/-- The chunks handed to the hook, and what `caml_putblock` answers. -/
structure PutSeen where
  chunks : List Bytes
  answer : Int := 0

/-- The bytes of an operation that were put: `caml_putblock` puts as many as it answers, and
`caml_really_putblock` all. -/
def PutOp.put : PutOp → PutSeen → Bytes
  | .putblock p, seen => p.take seen.answer.toNat
  | .reallyPutblock p, _ => p
  | _, _ => []

/-- The bytes that a run put. -/
def allPut (ops : List PutOp) (seen : List PutSeen) : Bytes :=
  (ops.zip seen).flatMap fun x => x.1.put x.2

def PutOp.perform (write : Nat → Bytes → Nat) (turns : Nat) :
    PutOp → ChannelMemory → Except ChannelStop (PutSeen × ChannelMemory)
  | .putblock p, ch => (ch.putblock write p).map fun r => ({ chunks := r.1.2, answer := r.1.1 }, r.2)
  | .reallyPutblock p, ch => (ch.reallyPutblock write turns p).map fun l => ({ chunks := l.chunks }, l.ch)
  | .flushPartial, ch => (ch.flushPartial write).map fun r => ({ chunks := r.1.2 }, r.2)
  | .flush, ch => (ch.flush write turns).map fun l => ({ chunks := l.chunks }, l.ch)

/-- The turns its loop takes at most. -/
def PutOp.turns : PutOp → Nat
  | .reallyPutblock p => 2 * p.length + 1
  | _ => 1

def putMachine (write : Nat → Bytes → Nat) (turns : Nat) : Machine ChannelMemory PutOp PutSeen ChannelStop :=
  ⟨PutOp.perform write turns⟩

variable {write : Nat → Bytes → Nat} {turns : Nat} {ch : ChannelMemory} {c : Channel}

/-- Each operation returns, and between what it hands on and what stays nothing is lost. -/
theorem perform_holds (op : PutOp) (h : ch.Holds c) (ht : op.turns ≤ turns) : ∃ seen ch' c',
    op.perform write turns ch = .ok (seen, ch') ∧ ch'.Holds c' ∧
      seen.chunks.flatten ++ c'.buff = c.buff ++ op.put seen ∧
      ch'.offset = ChannelMemory.moved ch.offset seen.chunks := by
  have hflushed : c.flush.1.flatten ++ c.flush.2.buff = c.buff ++ [] := by
    rw [(Channel.flush_content c).1, (Channel.flush_content c).2]
  cases op with
  | putblock p =>
    obtain ⟨ch', hput, hholds, hoffset⟩ := @ChannelMemory.putblock_holds write ch c h p
    refine ⟨{ chunks := (c.putblock p).1.2, answer := (c.putblock p).1.1 }, ch', _, ?_, hholds, ?_, hoffset⟩
    · simp only [PutOp.perform, hput, Except.map]
    · rw [PutOp.put, Int.toNat_natCast]
      exact Channel.putblock_content c p
  | reallyPutblock p =>
    obtain ⟨l, hput, hholds, hchunks, hoffset⟩ := @ChannelMemory.reallyPutblock_holds write ch c h p turns ht
    refine ⟨{ chunks := l.chunks }, l.ch, _, ?_, hholds, ?_, hchunks ▸ hoffset⟩
    · simp only [PutOp.perform, hput, Except.map]
    · rw [hchunks]
      exact Channel.output_content c p
  | flushPartial =>
    obtain ⟨ch', hflush, hholds, hoffset⟩ := @ChannelMemory.flushPartial_holds write ch c h
    refine ⟨{ chunks := c.flush.1 }, ch', _, ?_, hholds, hflushed, hoffset⟩
    simp only [PutOp.perform, hflush, Except.map]
  | flush =>
    obtain ⟨l, hflush, hholds, hchunks, hoffset⟩ := @ChannelMemory.flush_holds write ch c h turns ht
    refine ⟨{ chunks := l.chunks }, l.ch, _, ?_, hholds, ?_, hchunks ▸ hoffset⟩
    · simp only [PutOp.perform, hflush, Except.map]
    · rw [hchunks]
      exact hflushed

theorem putMachine_holds : ∀ {ops : List PutOp} {ch : ChannelMemory} {c : Channel}, ch.Holds c →
    (∀ op ∈ ops, op.turns ≤ turns) →
      ∃ seen ch' c', (putMachine write turns).run ops ch = .ok (seen, ch') ∧ ch'.Holds c' ∧
      (seen.flatMap PutSeen.chunks).flatten ++ c'.buff = c.buff ++ allPut ops seen ∧
      ch'.offset = ChannelMemory.moved ch.offset (seen.flatMap PutSeen.chunks)
  | [], ch, c, h, _ => by
    refine ⟨[], ch, c, rfl, h, ?_, (ChannelMemory.moved_nil _).symm⟩
    rw [allPut, List.zip_nil_left, List.flatMap_nil, List.flatMap_nil, List.flatten_nil, List.nil_append,
      List.append_nil]
  | op :: ops, ch, c, h, ht => by
    obtain ⟨hop, hops⟩ := List.forall_mem_cons.mp ht
    obtain ⟨o, ch₁, c₁, hperform, h₁, hcontent₁, hoffset₁⟩ := @perform_holds write turns ch c op h hop
    obtain ⟨os, ch', c', hrun, h', hcontent, hoffset⟩ := putMachine_holds h₁ hops
    refine ⟨o :: os, ch', c', ?_, h', ?_, ?_⟩
    · rw [Machine.run_cons _ ops hperform, hrun]
      rfl
    · rw [allPut, List.zip_cons_cons, List.flatMap_cons, List.flatMap_cons, List.flatten_append,
        List.append_assoc, hcontent,
        ← List.append_assoc, hcontent₁, List.append_assoc]
      rfl
    · rw [hoffset, hoffset₁, List.flatMap_cons, ChannelMemory.moved_append]

theorem enough_turns : ∀ ops : List PutOp, ∃ enough, ∀ op ∈ ops, op.turns ≤ enough
  | [] => ⟨0, fun _ h => absurd h List.not_mem_nil⟩
  | op :: ops => by
    obtain ⟨enough, h⟩ := enough_turns ops
    refine ⟨op.turns + enough, List.forall_mem_cons.mpr ⟨by omega, fun o ho => ?_⟩⟩
    have hle := h o ho
    omega

/-- A standard channel, `curr` inside its buffer. -/
structure ChannelMemory.Standard (ch : ChannelMemory) : Prop where
  fd : ch.fd = 1 ∨ ch.fd = 2
  buff : 0 ≤ ch.curr
  fits : ch.curr ≤ ioBufferSize

theorem ChannelMemory.Standard.holds (h : ch.Standard) : ∃ c, ch.Holds c ∧ c.buff = ch.bytes ch.curr.toNat := by
  have hbuff := h.buff
  have hfits := h.fits
  refine ⟨⟨ch.bytes ch.curr.toNat, by rw [ChannelMemory.bytes_length]; omega⟩, ⟨h.fd, ?_, ?_⟩, rfl⟩
  · show ch.curr = ((ch.bytes ch.curr.toNat).length : Int)
    rw [ChannelMemory.bytes_length]
    omega
  · show ch.bytes (ch.bytes ch.curr.toNat).length = ch.bytes ch.curr.toNat
    rw [ChannelMemory.bytes_length]

theorem ChannelMemory.Holds.standard (h : ch.Holds c) : ch.Standard ∧ ch.bytes ch.curr.toNat = c.buff := by
  have hcurr := h.curr
  have hfits := c.fits
  refine ⟨⟨h.fd, by omega, by omega⟩, ?_⟩
  rw [hcurr, Int.toNat_natCast, h.content]

/-- **The redirected standard output.** With turns enough for its loops any sequence of
operations on a standard channel returns, with `curr` inside the buffer; what the hook was given
and what is still in the buffer is what was in the buffer and what was put, in order; and the
offset has moved by the bytes that the hook was given. -/
theorem stdout_lossless (write : Nat → Bytes → Nat) (ops : List PutOp) (ch : ChannelMemory) (hch : ch.Standard) :
    ∃ enough, ∀ turns, enough ≤ turns →
      ∃ seen ch', (putMachine write turns).run ops ch = .ok (seen, ch') ∧ ch'.Standard ∧
      (seen.flatMap PutSeen.chunks).flatten ++ ch'.bytes ch'.curr.toNat =
        ch.bytes ch.curr.toNat ++ allPut ops seen ∧
      ch'.offset = ch.offset + BitVec.ofNat 64 (seen.flatMap PutSeen.chunks).flatten.length := by
  obtain ⟨c, hholds, hcontent⟩ := hch.holds
  obtain ⟨enough, henough⟩ := enough_turns ops
  refine ⟨enough, fun turns ht => ?_⟩
  obtain ⟨seen, ch', c', hrun, hholds', hall, hoffset⟩ :=
    @putMachine_holds write turns ops ch c hholds fun op hop => Nat.le_trans (henough op hop) ht
  obtain ⟨hstandard, hcontent'⟩ := hholds'.standard
  exact ⟨seen, ch', hrun, hstandard, by rw [hcontent', hall, hcontent], hoffset⟩

/-- The standard output as `caml_open_descriptor_out` makes it. -/
def ChannelMemory.stdout : ChannelMemory := { fd := 1, offset := 0, curr := 0, buff := fun _ => 0 }

/-- More is put than the buffer holds, and flushed. -/
theorem stdout_lossless_overflow :
    let ops : List PutOp := [.reallyPutblock (List.replicate 5000 65), .putblock [66], .flush]
    ∃ enough, ∀ turns, enough ≤ turns →
      ∃ seen ch', (putMachine (fun _ _ => 0) turns).run ops .stdout = .ok (seen, ch') ∧
      (seen.flatMap PutSeen.chunks).flatten ++ ch'.bytes ch'.curr.toNat = allPut ops seen := by
  intro ops
  have hstdout : ChannelMemory.stdout.Standard := ⟨.inl rfl, by decide, by decide⟩
  obtain ⟨enough, h⟩ := stdout_lossless (fun _ _ => 0) ops .stdout hstdout
  refine ⟨enough, fun turns ht => ?_⟩
  obtain ⟨seen, ch', hrun, -, hall, -⟩ := h turns ht
  exact ⟨seen, ch', hrun, hall⟩

end MultiScript.Ocaml
