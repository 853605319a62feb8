/-
The output channels of the OCaml runtime (`ocaml_io.c`). Bytes are kept in a buffer of
`IO_BUFFER_SIZE`, and are handed on in chunks when it is flushed or gets full. For the
standard channels `do_write` gives each chunk to the hook for output, which takes all of it.
-/
import MultiScript.Interface

namespace MultiScript.Ocaml

open Run

/-- `IO_BUFFER_SIZE`. -/
def ioBufferSize : Nat := 4096

/-- A channel: what lies between `buff` and `curr`. -/
structure Channel where
  buff : Bytes
  fits : buff.length ≤ ioBufferSize

namespace Channel

def empty : Channel := ⟨[], by decide⟩

/-- `caml_flush_partial`, and `caml_flush`: the hook takes the whole buffer at once. -/
def flush (ch : Channel) : List Bytes × Channel :=
  if ch.buff = [] then ([], ch) else ([ch.buff], empty)

/-- `caml_putblock`: how many of the bytes were taken, and the chunk that was handed on if the
buffer got full. -/
def putblock (ch : Channel) (p : Bytes) : (Nat × List Bytes) × Channel :=
  let free := ioBufferSize - ch.buff.length
  if h : p.length < free then
    ((p.length, []), ⟨ch.buff ++ p, by rw [List.length_append]; omega⟩)
  else ((free, [ch.buff ++ p.take free]), empty)

theorem putblock_room {ch : Channel} {p : Bytes} (h : p.length < ioBufferSize - ch.buff.length) :
    ch.putblock p = ((p.length, []), ⟨ch.buff ++ p, by rw [List.length_append]; omega⟩) := dif_pos h

theorem putblock_full {ch : Channel} {p : Bytes} (h : ¬ p.length < ioBufferSize - ch.buff.length) :
    ch.putblock p
      = ((ioBufferSize - ch.buff.length, [ch.buff ++ p.take (ioBufferSize - ch.buff.length)]), empty) := dif_neg h

/-- A block takes bytes, or finds the buffer full and empties it. -/
theorem putblock_progress (ch : Channel) {p : Bytes} (hp : p ≠ []) :
    (p.drop (ch.putblock p).1.1).length < p.length ∨
      (p.drop (ch.putblock p).1.1).length = p.length ∧ (ch.putblock p).2.buff.length < ch.buff.length := by
  have hpos : 0 < p.length := List.length_pos_iff.mpr hp
  have hsize := ch.fits
  have hio : 0 < ioBufferSize := by decide
  by_cases h : p.length < ioBufferSize - ch.buff.length
  · simp only [putblock_room h, List.length_drop]
    omega
  · have hempty : empty.buff.length = 0 := rfl
    simp only [putblock_full h, List.length_drop, hempty]
    omega

/-- `caml_ml_output`, and `caml_really_putblock`: blocks until all is taken. -/
def output (ch : Channel) (p : Bytes) : List Bytes × Channel :=
  if p = [] then ([], ch)
  else
    let r := ch.putblock p
    let r' := r.2.output (p.drop r.1.1)
    (r.1.2 ++ r'.1, r'.2)
termination_by (p.length, ch.buff.length)
decreasing_by exact Prod.lex_def.mpr (putblock_progress ch ‹_›)

theorem output_nil (ch : Channel) : ch.output [] = ([], ch) := by
  rw [output, if_pos rfl]

theorem output_block {ch : Channel} {p : Bytes} (hp : p ≠ []) :
    ch.output p = ((ch.putblock p).1.2 ++ ((ch.putblock p).2.output (p.drop (ch.putblock p).1.1)).1,
      ((ch.putblock p).2.output (p.drop (ch.putblock p).1.1)).2) := by
  rw [output, if_neg hp]

/-- The macro `putch`. -/
def putch (ch : Channel) (b : UInt8) : List Bytes × Channel :=
  if h : ch.buff.length < ioBufferSize then ([], ⟨ch.buff ++ [b], by rw [List.length_append]; exact h⟩)
  else ([ch.buff], ⟨[b], Nat.succ_le_succ (Nat.zero_le _)⟩)

end Channel

/-- What the runtime does with an output channel. -/
inductive ChannelOp
  | putblock (p : Bytes)
  | output (p : Bytes)
  | putch (b : UInt8)
  | flush
deriving DecidableEq, Repr

/-- The chunks an operation hands on, and the channel after it. -/
def ChannelOp.perform : ChannelOp → Channel → List Bytes × Channel
  | .putblock p, ch => ((ch.putblock p).1.2, (ch.putblock p).2)
  | .output p, ch => ch.output p
  | .putch b, ch => ch.putch b
  | .flush, ch => ch.flush

/-- A standard channel, with the chunks for the hook as observations. -/
def stdChannel : Machine Channel ChannelOp (List Bytes) Fault := ⟨fun op ch => .ok (op.perform ch)⟩

/-! ## Nothing is lost -/

variable {ch : Channel} {p : Bytes}

theorem Channel.putblock_content (ch : Channel) (p : Bytes) :
    (ch.putblock p).1.2.flatten ++ (ch.putblock p).2.buff = ch.buff ++ p.take (ch.putblock p).1.1 := by
  by_cases h : p.length < ioBufferSize - ch.buff.length
  · simp [putblock_room h]
  · simp [putblock_full h, empty]

/-- The chunks, and what is left in the buffer after them, are what was in the buffer and
what was written, in order. -/
theorem Channel.output_content (ch : Channel) (p : Bytes) :
    (ch.output p).1.flatten ++ (ch.output p).2.buff = ch.buff ++ p := by
  induction ch, p using Channel.output.induct with
  | case1 ch => simp [output_nil]
  | case2 ch p hp r ih =>
    have hblock := putblock_content ch p
    rw [output_block hp, List.flatten_append, List.append_assoc, ih, ← List.append_assoc, hblock, List.append_assoc,
      List.take_append_drop]

theorem Channel.flush_content (ch : Channel) : ch.flush.1.flatten = ch.buff ∧ ch.flush.2.buff = [] := by
  unfold Channel.flush
  by_cases h : ch.buff = []
  · simp [h]
  · simp [h, Channel.empty]

/-! ## How large the chunks are -/

/-- The buffer of `OcamlPrintCallback`. -/
def printBufferSize : Nat := 1024

/-- A chunk fits that buffer, with the terminator. -/
def FitsPrint (chunk : Bytes) : Prop := chunk.length + 1 ≤ printBufferSize

/-- The operation leaves the channel's buffer with room, or flushes less than fills the
callback's. -/
def Small : ChannelOp → Channel → Prop
  | .putblock p, ch => ch.buff.length + p.length < ioBufferSize
  | .output p, ch => p = [] ∨ ch.buff.length + p.length < ioBufferSize
  | .putch _, ch => ch.buff.length < ioBufferSize
  | .flush, ch => ch.buff.length < printBufferSize

instance : ∀ (op : ChannelOp) (ch : Channel), Decidable (Small op ch)
  | .putblock _, _ => inferInstanceAs (Decidable (_ < _))
  | .output _, _ => inferInstanceAs (Decidable (_ ∨ _))
  | .putch _, _ => inferInstanceAs (Decidable (_ < _))
  | .flush, _ => inferInstanceAs (Decidable (_ < _))

/-- A block that overflows the channel's buffer goes on with all of it. -/
theorem Channel.putblock_chunks :
    (∀ chunk ∈ (ch.putblock p).1.2, FitsPrint chunk) ↔ ch.buff.length + p.length < ioBufferSize := by
  have hsize := ch.fits
  by_cases h : p.length < ioBufferSize - ch.buff.length
  · have hroom : ch.buff.length + p.length < ioBufferSize := by omega
    simp [putblock_room h, hroom]
  · have hroom : ¬ ch.buff.length + p.length < ioBufferSize := by omega
    have hlength : (ch.buff ++ p.take (ioBufferSize - ch.buff.length)).length = ioBufferSize := by
      rw [List.length_append, List.length_take]
      omega
    have hlarge : ¬ ioBufferSize + 1 ≤ printBufferSize := by decide
    simp only [putblock_full h, List.mem_singleton, forall_eq, FitsPrint, hlength, hroom, hlarge]

theorem Channel.output_chunks :
    (∀ chunk ∈ (ch.output p).1, FitsPrint chunk) ↔ p = [] ∨ ch.buff.length + p.length < ioBufferSize := by
  by_cases hp : p = []
  · simp [hp, output_nil]
  · rw [output_block hp]
    simp only [List.forall_mem_append, Channel.putblock_chunks, hp, false_or]
    constructor
    · intro h
      exact h.1
    · intro hroom
      have hfree : p.length < ioBufferSize - ch.buff.length := by omega
      -- all of it was taken, so the loop ends here
      simp [hroom, putblock_room hfree, output_nil]

/-- The chunks of an operation fit exactly if it is small. -/
theorem perform_chunks (op : ChannelOp) (ch : Channel) : (∀ chunk ∈ (op.perform ch).1, FitsPrint chunk) ↔
    Small op ch := by
  cases op with
  | putblock p => exact Channel.putblock_chunks
  | output p => exact Channel.output_chunks
  | putch b =>
    simp only [ChannelOp.perform, Channel.putch, Small]
    by_cases h : ch.buff.length < ioBufferSize
    · simp [h]
    · have hfull : ¬ FitsPrint ch.buff := by
        simp only [FitsPrint, ioBufferSize, printBufferSize] at *
        omega
      simp only [h, dite_false, List.mem_singleton, forall_eq, hfull]
  | flush =>
    simp only [ChannelOp.perform, Channel.flush, Small]
    by_cases h : ch.buff = []
    · simp [h, printBufferSize]
    · simp only [h, if_false, List.mem_singleton, forall_eq, FitsPrint]
      omega

/-- All chunks of a run fit exactly if its operations are small. -/
theorem run_chunks (ops : List ChannelOp) (ch : Channel) : ∃ os ch', stdChannel.run ops ch = .ok (os, ch') ∧
    ((∀ chunks ∈ os, ∀ chunk ∈ chunks, FitsPrint chunk) ↔ stdChannel.Meets Small ops ch) :=
  Machine.observed_iff (fun op ch => ⟨_, _, rfl, perform_chunks op ch⟩) ops ch

end MultiScript.Ocaml
