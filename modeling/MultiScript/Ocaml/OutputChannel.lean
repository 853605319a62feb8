/-
An output channel of the OCaml runtime over a file (`ocaml_io.c`), where `write` may take less
than it is given and may fail. The functions are those of `ChannelMemory`, without the hook;
here the bytes come to a file, at `offset`. What is in the buffer counts as written there: so
a channel is a writer at a position, until a seek or a flush, and after that too.
-/
import MultiScript.Ocaml.InputChannel

namespace MultiScript.Ocaml

open Run Loop Act File

/-- `struct channel`, for output: the bytes between `buff` and `curr`, and the mode of the
descriptor. -/
structure OutputChannel where
  fd : Descriptor UInt8
  binary : Bool
  offset : Nat
  buff : Bytes

/-- `caml_open_descriptor_out`. -/
def camlOpenDescriptorOut (fd : Descriptor UInt8) (binary : Bool) : OutputChannel :=
  { fd, binary, offset := fd.pos, buff := [] }

/-- The loop of `do_write`, with `n` of the bytes: where the write would block it is tried again
with one of them. -/
def writeAgain (fd : Descriptor UInt8) (p : Bytes) (n : Nat) : Except Errno Nat × Descriptor UInt8 :=
  match _h : fd.write (p.take n) with
  | (.error .eintr, fd') => writeAgain fd' p n
  | (.error .eagain, fd') => if 1 < n then writeAgain fd' p 1 else (.error .eagain, fd')
  | r => r
termination_by fd.replies.length
decreasing_by all_goals exact Descriptor.write_error _h

/-- `do_write`: how much was written. -/
def doWriteFile (p : Bytes) : IoM OutputChannel Nat := do
  let ch ← get
  let r := writeAgain ch.fd p p.length
  set { ch with fd := r.2 }
  match r.1 with
  | .ok k => return k
  | .error e => raise (sysIoError e)

/-- `caml_flush_partial`: whether the buffer is empty after it. -/
def camlFlushPartial : IoM OutputChannel Bool := do
  let ch ← get
  if 0 < ch.buff.length then do
    let written ← doWriteFile ch.buff
    modify fun ch => { ch with offset := ch.offset + written, buff := ch.buff.drop written }
  return (← get).buff.isEmpty

/-- A turn of `caml_flush`. -/
def camlFlushTurn (_ : Unit) : IoM OutputChannel (Unit ⊕ Unit) := do
  if ← camlFlushPartial then return .inr () else return .inl ()

/-- `caml_flush`. -/
def camlFlush : IoM OutputChannel Unit := do
  let ch ← get
  loopM outOfTurns camlFlushTurn (ch.buff.length + 1) ()

/-- The macro `putch`. -/
def putch (c : UInt8) : IoM OutputChannel Unit := do
  let ch ← get
  if ioBufferSize ≤ ch.buff.length then do
    let _ ← camlFlushPartial
  modify fun ch => { ch with buff := ch.buff ++ [c] }

/-- The bytes of a number, the highest first. -/
def wordBytes (w : UInt32) : Bytes := [(w >>> 24).toUInt8, (w >>> 16).toUInt8, (w >>> 8).toUInt8, w.toUInt8]

/-- `caml_putword`. -/
def camlPutword (w : UInt32) : IoM OutputChannel Unit := do
  let ch ← get
  if ch.binary then (wordBytes w).forM putch
  else raise (.failure "output_binary_int: not a binary channel")

/-- `caml_putblock`: how many of the bytes were taken. -/
def camlPutblock (p : Bytes) : IoM OutputChannel Nat := do
  let ch ← get
  let n := if intMax ≤ p.length then intMax else p.length
  let free := ioBufferSize - ch.buff.length
  if n < free then do
    set { ch with buff := ch.buff ++ p.take n }
    return n
  else do
    let towrite := ch.buff ++ p.take free
    let written ← doWriteFile towrite
    modify fun ch => { ch with offset := ch.offset + written, buff := towrite.drop written }
    return free

/-- A turn of `caml_really_putblock`, with what is left to put. -/
def reallyPutblockTurn (p : Bytes) : IoM OutputChannel (Bytes ⊕ Unit) := do
  if 0 < p.length then do
    let written ← camlPutblock p
    return .inl (p.drop written)
  else return .inr ()

/-- `caml_really_putblock`, and `caml_ml_output`: a turn may only make room. -/
def camlReallyPutblock (p : Bytes) : IoM OutputChannel Unit := loopM outOfTurns reallyPutblockTurn (2 * p.length + 2) p

/-- `caml_seek_out`. -/
def camlSeekOut (dest : Int) : IoM OutputChannel Unit := do
  camlFlush
  let ch ← get
  match ch.fd.seekSet dest with
  | (some _, fd) => set { ch with fd, offset := dest.toNat }
  | (none, _) => raise .sysError

/-- `caml_pos_out`. -/
def OutputChannel.posOut (ch : OutputChannel) : Int := ch.offset + ch.buff.length

/-! ## What is written -/

/-- What the runtime asks of an output channel. -/
inductive OutputOp
  | outputChar (c : UInt8)
  | outputInt (w : UInt32)
  | outputPartial (p : Bytes)
  | output (p : Bytes)
  | flushPartial
  | flush
  | seekOut (dest : Int)
  | posOut
deriving DecidableEq, Repr

inductive OutputAnswer
  | unit
  | taken (n : Nat)
  | empty (b : Bool)
  | number (n : Int)
  | raised (e : IoExn)
deriving DecidableEq, Repr

def OutputOp.perform : OutputOp → IoM OutputChannel OutputAnswer
  | .outputChar c => do
    putch c
    return .unit
  | .outputInt w => do
    camlPutword w
    return .unit
  | .outputPartial p => return .taken (← camlPutblock p)
  | .output p => do
    camlReallyPutblock p
    return .unit
  | .flushPartial => return .empty (← camlFlushPartial)
  | .flush => do
    camlFlush
    return .unit
  | .seekOut dest => do
    camlSeekOut dest
    return .unit
  | .posOut => return .number (← get).posOut

def outputMachine : Machine OutputChannel OutputOp OutputAnswer Unit := ⟨fun op => answered .raised op.perform⟩

/-- A position in a content that is written to. `flushed` says that all of it is in the file. -/
structure Writer where
  content : Bytes
  pos : Nat
  flushed : Bool
deriving DecidableEq, Repr

def Writer.put (w : Writer) (p : Bytes) : Writer :=
  if p = [] then w else { content := overwrite w.content w.pos p, pos := w.pos + p.length, flushed := false }

/-- The bytes that an operation puts. -/
def OutputOp.puts : OutputOp → Bytes
  | .outputChar c => [c]
  | .outputInt w => wordBytes w
  | .outputPartial p => p
  | .output p => p
  | _ => []

/-- What a writer does, where the system may fail with `errors`: what raises has put less
than it wanted, and a part of a block may be none where there was no room. -/
inductive Writer.Does (errors : Set IoExn) : OutputOp → Writer → OutputAnswer → Writer → Prop
  | char {w c} : Does errors (.outputChar c) w .unit (w.put [c])
  | word {w n} : Does errors (.outputInt n) w .unit (w.put (wordBytes n))
  | part {w p k} (h : k ≤ p.length) : Does errors (.outputPartial p) w (.taken k) (w.put (p.take k))
  | all {w p} : Does errors (.output p) w .unit (w.put p)
  | flushPartial {w b} : Does errors .flushPartial w (.empty b) { w with flushed := w.flushed || b }
  | flush {w} : Does errors .flush w .unit { w with flushed := true }
  | seek {w} {dest : Int} (h : 0 ≤ dest) :
      Does errors (.seekOut dest) w .unit { w with pos := dest.toNat, flushed := true }
  | seekFails {w} {dest : Int} (h : dest < 0) :
      Does errors (.seekOut dest) w (.raised .sysError) { w with flushed := true }
  | pos {w} : Does errors .posOut w (.number w.pos) w
  | fails {op w e k} (h : e ∈ errors) (hk : k < op.puts.length ∨ k = 0) :
      Does errors op w (.raised e) (w.put (op.puts.take k))

/-! ## Writing the file -/

/-- The channel stands where the writer does: the content is the file's with the buffer
written at `offset`. -/
structure OutputChannel.Writes (errors : Set IoExn) (ch : OutputChannel) (w : Writer) : Prop where
  binary : ch.binary = true
  offset : ch.fd.pos = ch.offset
  content : overwrite ch.fd.content ch.offset ch.buff = w.content
  pos : ch.offset + ch.buff.length = w.pos
  fits : ch.buff.length ≤ ioBufferSize
  flushed : w.flushed = true → ch.buff = []
  errors : ∀ e, ch.fd.Fails e → e ≠ .eintr → sysIoError e ∈ errors

/-- An action that was to put `p` is left by an exception. -/
def RaisesPut (errors : Set IoExn) (w : Writer) (p : Bytes) (f : IoStop × OutputChannel) : Prop :=
  ∃ e k, f.1 = .raised e ∧ e ∈ errors ∧ (k < p.length ∨ k = 0) ∧ f.2.Writes errors (w.put (p.take k))

variable {errors : Set IoExn} {ch : OutputChannel} {w : Writer} {p : Bytes}

namespace Writer

theorem put_nil (w : Writer) : w.put [] = w := if_pos rfl

theorem put_put (w : Writer) (p q : Bytes) : (w.put p).put q = w.put (p ++ q) := by
  by_cases hp : p = []
  · rw [hp, put_nil, List.nil_append]
  by_cases hq : q = []
  · rw [hq, put_nil, List.append_nil]
  have hpq : p ++ q ≠ [] := by simp [hp]
  rw [put, if_neg hq, put, if_neg hp, put, if_neg hpq, overwrite_append, List.length_append, Nat.add_assoc]

end Writer

theorem RaisesPut.of_error {f : IoStop × OutputChannel} (h : ∃ e, f.1 = .raised e ∧ e ∈ errors ∧ f.2.Writes errors w) :
    RaisesPut errors w p f := by
  obtain ⟨e, hf, he, hwrites⟩ := h
  exact ⟨e, 0, hf, he, .inr rfl, by rwa [List.take_zero, w.put_nil]⟩

/-- What raises when some bytes had been put. -/
theorem RaisesPut.after {f : IoStop × OutputChannel} {q : Bytes} (h : RaisesPut errors (w.put p) q f) (hq : q ≠ []) :
    RaisesPut errors w (p ++ q) f := by
  obtain ⟨e, k, hf, he, hk, hwrites⟩ := h
  have hpos := List.length_pos_iff.mpr hq
  refine ⟨e, p.length + k, hf, he, .inl (by rw [List.length_append]; omega), ?_⟩
  rwa [w.put_put, ← List.take_length_add_append] at hwrites

namespace OutputChannel.Writes

/-- How a write ends that is tried again where it was interrupted. -/
def Settled (fd : Descriptor UInt8) (p : Bytes) (r : Except Errno Nat × Descriptor UInt8) : Prop :=
  fd.Wrote p r.1 r.2 ∧ r.1 ≠ .error .eintr

theorem writeAgain_settled {p : Bytes} : ∀ (calls : Nat) (fd : Descriptor UInt8) (n : Nat), fd.replies.length ≤ calls →
    (n = 0 → p = []) → Settled fd p (writeAgain fd p n) := by
  intro calls
  induction calls with
  | zero =>
    intro fd n hcalls hn
    have hnone : fd.replies = [] := List.eq_nil_of_length_eq_zero (Nat.le_zero.mp hcalls)
    have hwrote := fd.write_wrote (p.take n)
    rw [writeAgain]
    split
    · rename_i h
      have hlt := Descriptor.write_error h
      omega
    · rename_i h
      have hlt := Descriptor.write_error h
      omega
    · rename_i hne _
      exact ⟨hwrote.of_take hn, fun heq => hne _ (Prod.ext heq rfl)⟩
  | succ calls ih =>
    intro fd n hcalls hn
    have hwrote := fd.write_wrote (p.take n)
    rw [writeAgain]
    split
    · rename_i fd' h
      have hlt := Descriptor.write_error h
      rw [h] at hwrote
      obtain ⟨hagain, hne⟩ := ih fd' n (by omega) hn
      exact ⟨hwrote.again hagain, hne⟩
    · rename_i fd' h
      have hlt := Descriptor.write_error h
      rw [h] at hwrote
      split
      · obtain ⟨hagain, hne⟩ := ih fd' 1 (by omega) (fun h1 => absurd h1 (by decide))
        exact ⟨hwrote.again hagain, hne⟩
      · exact ⟨hwrote.of_take hn, nofun⟩
    · rename_i hne _
      exact ⟨hwrote.of_take hn, fun heq => hne _ (Prod.ext heq rfl)⟩

/-- A write, where the descriptor stands. -/
theorem write (h : ch.Writes errors w) {p : Bytes} : Ends (doWriteFile p) ch (fun k ch' => ∃ fd, ch' = { ch with fd } ∧
      fd.content = overwrite ch.fd.content ch.offset (p.take k) ∧ fd.pos = ch.offset + k ∧ k ≤ p.length ∧
      (k = 0 → p = []) ∧
      ∀ e, fd.Fails e → e ≠ .eintr → sysIoError e ∈ errors)
    (fun f => ∃ e, f.1 = .raised e ∧ e ∈ errors ∧ f.2.Writes errors w) := by
  obtain ⟨hwrote, hne⟩ := writeAgain_settled _ ch.fd p.length (Nat.le_refl _) List.eq_nil_of_length_eq_zero
  have hwrite : doWriteFile p ch = (match (writeAgain ch.fd p p.length).1 with
    | .ok k => .ok (k, { ch with fd := (writeAgain ch.fd p p.length).2 })
    | .error e => .error (.raised (sysIoError e), { ch with fd := (writeAgain ch.fd p p.length).2 })) := by
    show (match (writeAgain ch.fd p p.length).1 with
      | .ok k => (pure k : IoM OutputChannel Nat)
      | .error e => raise (sysIoError e)) { ch with fd := (writeAgain ch.fd p p.length).2 } = _
    cases (writeAgain ch.fd p p.length).1 <;> rfl
  unfold Ends
  rw [hwrite]
  generalize writeAgain ch.fd p p.length = res at hwrote hne
  obtain ⟨res, fd⟩ := res
  cases hwrote with
  | ok le some content pos replies =>
    rw [h.offset] at content pos
    exact ⟨fd, rfl, content, pos, le, some, fun e he => h.errors e (replies _ he)⟩
  | @error e _ fails content pos replies =>
    have hnot : e ≠ .eintr := fun heq => hne (by rw [heq])
    refine ⟨sysIoError e, rfl, h.errors e fails hnot, ?_⟩
    refine ⟨h.binary, pos.trans h.offset, ?_, h.pos, h.fits, h.flushed, fun e' he' => h.errors e' (replies _ he')⟩
    rw [← h.content]
    exact congrArg (fun c => overwrite c ch.offset ch.buff) content

/-- Bytes are put into the buffer. -/
theorem put (h : ch.Writes errors w) (p : Bytes) (hfits : (ch.buff ++ p).length ≤ ioBufferSize) :
    { ch with buff := ch.buff ++ p }.Writes errors (w.put p) := by
  by_cases hp : p = []
  · rw [hp, w.put_nil, List.append_nil]
    exact h
  rw [Writer.put, if_neg hp]
  refine ⟨h.binary, h.offset, ?_, ?_, hfits, fun h => (by cases h), h.errors⟩
  · show overwrite ch.fd.content ch.offset (ch.buff ++ p) = overwrite w.content w.pos p
    rw [overwrite_append, h.content, h.pos]
  · show ch.offset + (ch.buff ++ p).length = w.pos + p.length
    rw [List.length_append, ← h.pos, Nat.add_assoc]

/-- What was written goes from the buffer to the file. -/
theorem written (h : ch.Writes errors w) {fd : Descriptor UInt8} {k : Nat}
    (hcontent : fd.content = overwrite ch.fd.content ch.offset (ch.buff.take k)) (hfd : fd.pos = ch.offset + k)
    (hk : k ≤ ch.buff.length) (hfails : ∀ e, fd.Fails e → e ≠ .eintr → sysIoError e ∈ errors) :
    OutputChannel.Writes errors { ch with fd, offset := ch.offset + k, buff := ch.buff.drop k } w := by
  have hfits := h.fits
  have hdrop : (ch.buff.drop k).length = ch.buff.length - k := List.length_drop
  have hpos := h.pos
  refine ⟨h.binary, hfd, ?_, ?_, ?_, fun hf => ?_, hfails⟩
  · show overwrite fd.content (ch.offset + k) (ch.buff.drop k) = w.content
    have htake : (ch.buff.take k).length = k := by
      rw [List.length_take]
      omega
    have happend := overwrite_append ch.fd.content ch.offset (ch.buff.take k) (ch.buff.drop k)
    rw [List.take_append_drop, htake] at happend
    rw [hcontent, ← happend, h.content]
  · show ch.offset + k + (ch.buff.drop k).length = w.pos
    omega
  · show (ch.buff.drop k).length ≤ ioBufferSize
    omega
  · show ch.buff.drop k = []
    rw [h.flushed hf, List.drop_nil]

/-- An empty buffer: all is in the file. -/
theorem all_flushed (h : ch.Writes errors w) (hnil : ch.buff = []) (b : Bool) :
    ch.Writes errors { w with flushed := b } :=
  ⟨h.binary, h.offset, h.content, h.pos, h.fits, fun _ => hnil, h.errors⟩

theorem flushPartial (h : ch.Writes errors w) : Ends camlFlushPartial ch
    (fun b ch' => ch'.Writes errors w ∧ b = ch'.buff.isEmpty ∧ (ch'.buff = [] ∨ ch'.buff.length < ch.buff.length))
    (fun f => ∃ e, f.1 = .raised e ∧ e ∈ errors ∧ f.2.Writes errors w) := by
  show Ends (if 0 < ch.buff.length then _ else _) ch _ _
  by_cases hsome : 0 < ch.buff.length
  · rw [if_pos hsome]
    refine h.write.bind fun k ch₁ hk => ?_
    obtain ⟨fd, rfl, hcontent, hfd, hle, hnone, hfails⟩ := hk
    refine ⟨h.written hcontent hfd hle hfails, rfl, .inr ?_⟩
    show (ch.buff.drop k).length < ch.buff.length
    have hpos : k ≠ 0 := fun h0 => absurd (hnone h0) (List.ne_nil_of_length_pos hsome)
    rw [List.length_drop]
    omega
  · rw [if_neg hsome]
    exact ⟨h, rfl, .inl (List.eq_nil_of_length_eq_zero (by omega))⟩

theorem flush (h : ch.Writes errors w) : Ends camlFlush ch
    (fun _ ch' => ch'.Writes errors w ∧ ch'.buff = [])
    (fun f => ∃ e, f.1 = .raised e ∧ e ∈ errors ∧ f.2.Writes errors w) := by
  refine @loopM_ends _ _ _ _ outOfTurns camlFlushTurn (fun _ ch => ch.Writes errors w) (fun ch => ch.buff.length) _ _
    (fun _ ch h => ?_) (ch.buff.length + 1) () ch h (Nat.lt_succ_self _)
  refine h.flushPartial.bind fun b ch' hb => ?_
  obtain ⟨h', hempty, hless⟩ := hb
  cases b with
  | true => exact ⟨h', List.isEmpty_iff.mp hempty.symm⟩
  | false =>
    refine ⟨h', hless.resolve_left fun hnil => ?_⟩
    rw [hnil] at hempty
    cases hempty

/-- There is room for a byte, if the buffer was not empty after a flush too. -/
theorem putch (h : ch.Writes errors w) (c : UInt8) :
    Ends (Ocaml.putch c) ch (fun _ ch' => ch'.Writes errors (w.put [c]))
    (fun f => ∃ e, f.1 = .raised e ∧ e ∈ errors ∧ f.2.Writes errors w) := by
  have hfits := h.fits
  have hroom : ∀ {ch : OutputChannel}, ch.Writes errors w → ch.buff.length < ioBufferSize →
      { ch with buff := ch.buff ++ [c] }.Writes errors (w.put [c]) := by
    intro ch h hlt
    refine h.put [c] ?_
    rw [List.length_append, List.length_singleton]
    exact hlt
  show Ends (if ioBufferSize ≤ ch.buff.length then _ else _) ch _ _
  by_cases hfull : ioBufferSize ≤ ch.buff.length
  · rw [if_pos hfull]
    refine h.flushPartial.bind fun b ch' hb => ?_
    obtain ⟨h', -, hless⟩ := hb
    refine hroom h' ?_
    rcases hless with hnil | hlt
    · rw [hnil]
      decide
    · omega
  · rw [if_neg hfull]
    exact hroom h (by omega)

theorem putBytes : ∀ (p : Bytes) {ch : OutputChannel} {w : Writer}, ch.Writes errors w →
    Ends (p.forM Ocaml.putch) ch (fun _ ch' => ch'.Writes errors (w.put p)) (RaisesPut errors w p)
  | [], ch, w, h => by
    show ch.Writes errors (w.put [])
    rwa [w.put_nil]
  | c :: p, ch, w, h => by
    refine ((h.putch c).faults fun f hf => .of_error hf).bind fun _ ch₁ h₁ => ?_
    by_cases hp : p = []
    · subst hp
      exact h₁
    · refine ((putBytes p h₁).faults fun f hf => hf.after hp).mono fun _ ch' h' => ?_
      rwa [w.put_put] at h'

theorem putword (h : ch.Writes errors w) (n : UInt32) :
    Ends (camlPutword n) ch (fun _ ch' => ch'.Writes errors (w.put (wordBytes n)))
      (RaisesPut errors w (wordBytes n)) := by
  have hbinary : camlPutword n ch = (wordBytes n).forM Ocaml.putch ch := by
    show (if ch.binary = true then (wordBytes n).forM Ocaml.putch else raise _) ch = _
    rw [if_pos h.binary]
  unfold Ends
  rw [hbinary]
  exact putBytes _ h

/-- The turns that `caml_really_putblock` takes at most. -/
def turnsLeft (p : Bytes) (ch : OutputChannel) : Nat := 2 * p.length + if ch.buff.length = ioBufferSize then 1 else 0

theorem putblock (h : ch.Writes errors w) (p : Bytes) : Ends (camlPutblock p) ch
    (fun k ch' => k ≤ p.length ∧ ch'.Writes errors (w.put (p.take k)) ∧
      (p ≠ [] → turnsLeft (p.drop k) ch' < turnsLeft p ch))
    (fun f => ∃ e, f.1 = .raised e ∧ e ∈ errors ∧ f.2.Writes errors w) := by
  have hfits := h.fits
  obtain ⟨n, hn, hle, hpos⟩ : ∃ n, (if intMax ≤ p.length then intMax else p.length) = n ∧ n ≤ p.length ∧
      (p ≠ [] → 0 < n) := by
    have hmax : 0 < intMax := by decide
    split
    · exact ⟨_, rfl, ‹_›, fun _ => hmax⟩
    · exact ⟨_, rfl, Nat.le_refl _, List.length_pos_iff.mpr⟩
  show Ends (if (if intMax ≤ p.length then intMax else p.length) < ioBufferSize - ch.buff.length then _ else _) ch _ _
  rw [hn]
  by_cases hroom : n < ioBufferSize - ch.buff.length
  · rw [if_pos hroom]
    have hlength : (ch.buff ++ p.take n).length = ch.buff.length + n := by
      rw [List.length_append, List.length_take]
      omega
    refine ⟨hle, h.put _ (by omega), fun hne => ?_⟩
    have hsome := hpos hne
    show 2 * (p.drop n).length + (if (ch.buff ++ p.take n).length = ioBufferSize then 1 else 0) < _
    rw [List.length_drop, hlength, if_neg (by omega), turnsLeft]
    omega
  · rw [if_neg hroom]
    have hlength : (ch.buff ++ p.take (ioBufferSize - ch.buff.length)).length = ioBufferSize := by
      rw [List.length_append, List.length_take]
      omega
    refine h.write.bind fun k ch₁ hk => ?_
    obtain ⟨fd, rfl, hcontent, hfd, hk, hnone, hfails⟩ := hk
    have hput := (h.put (p.take (ioBufferSize - ch.buff.length)) (by omega)).written hcontent hfd hk hfails
    refine ⟨by omega, hput, fun hne => ?_⟩
    have hsome := hpos hne
    show 2 * (p.drop (ioBufferSize - ch.buff.length)).length +
      (if ((ch.buff ++ p.take (ioBufferSize - ch.buff.length)).drop
      k).length = ioBufferSize then 1 else 0) < 2 * p.length + _
    rw [List.length_drop, List.length_drop, hlength]
    by_cases hfree : ch.buff.length = ioBufferSize
    · -- no room at first, but some after it
      have hk0 : k ≠ 0 := by
        intro h0
        rw [hnone h0] at hlength
        exact absurd hlength (by decide)
      rw [if_neg (by omega), if_pos hfree]
      omega
    · rw [if_neg hfree]
      split <;> omega

theorem reallyPutblock (h : ch.Writes errors w) (p : Bytes) :
    Ends (camlReallyPutblock p) ch (fun _ ch' => ch'.Writes errors (w.put p)) (RaisesPut errors w p) := by
  -- `q` has been put
  let I : Nat → Bytes → OutputChannel → Prop := fun m left ch => m = turnsLeft left ch ∧
    ∃ q, q ++ left = p ∧ ch.Writes errors (w.put q)
  refine @loopM_down _ _ _ _ outOfTurns reallyPutblockTurn I _ _ ?_ (2 * p.length + 2) (turnsLeft p ch) p ch
    ⟨rfl, [], rfl, by rwa [w.put_nil]⟩ ?_
  · intro m left ch hi
    obtain ⟨rfl, q, hq, hwrites⟩ := hi
    unfold reallyPutblockTurn
    by_cases hmore : 0 < left.length
    · have hne : left ≠ [] := List.length_pos_iff.mp hmore
      rw [if_pos hmore]
      refine ((hwrites.putblock left).faults fun f hf => ?_).bind fun k ch₁ hk => ?_
      · rw [← hq]
        exact RaisesPut.after (.of_error hf) hne
      · obtain ⟨hle, hwrites₁, hless⟩ := hk
        refine ⟨_, hless hne, rfl, q ++ left.take k, ?_, ?_⟩
        · rw [List.append_assoc, List.take_append_drop, hq]
        · rwa [w.put_put] at hwrites₁
    · have hnil : left = [] := List.eq_nil_of_length_eq_zero (by omega)
      rw [if_neg hmore]
      rw [hnil, List.append_nil] at hq
      rw [hq] at hwrites
      exact hwrites
  · unfold turnsLeft
    split <;> omega

theorem seekOut (h : ch.Writes errors w) (dest : Int) : Ends (camlSeekOut dest) ch
    (fun _ ch' => 0 ≤ dest ∧ ch'.Writes errors { w with pos := dest.toNat, flushed := true })
    (fun f => ∃ e, f.1 = .raised e ∧ (e ∈ errors ∧ f.2.Writes errors w ∨
      dest < 0 ∧ e = .sysError ∧ f.2.Writes errors { w with flushed := true })) := by
  refine (h.flush.faults fun f hf => ?_).bind fun _ ch₁ h₁ => ?_
  · obtain ⟨e, hf, he, hwrites⟩ := hf
    exact ⟨e, hf, .inl ⟨he, hwrites⟩⟩
  obtain ⟨h₁, hnil⟩ := h₁
  show Ends (match ch₁.fd.seekSet dest with
    | (some _, fd) => (set { ch₁ with fd, offset := dest.toNat } : IoM OutputChannel PUnit)
    | (none, _) => raise .sysError) ch₁ _ _
  by_cases hpos : 0 ≤ dest
  · have hseek : ch₁.fd.seekSet dest = (some dest.toNat, { ch₁.fd with pos := dest.toNat }) := if_pos hpos
    rw [hseek]
    refine ⟨hpos, h₁.binary, rfl, ?_, ?_, h₁.fits, fun _ => hnil, h₁.errors⟩
    · show overwrite ch₁.fd.content dest.toNat ch₁.buff = w.content
      rw [← h₁.content, hnil, overwrite_nil, overwrite_nil]
    · show dest.toNat + ch₁.buff.length = dest.toNat
      rw [hnil]
      rfl
  · have hseek : ch₁.fd.seekSet dest = (none, ch₁.fd) := if_neg hpos
    rw [hseek]
    exact ⟨_, rfl, .inr ⟨by omega, rfl, h₁.all_flushed hnil true⟩⟩

end OutputChannel.Writes

/-- An operation does what the writer does. -/
theorem output_does (op : OutputOp) (h : ch.Writes errors w) : ∃ a ch' w', outputMachine.step op ch = .ok (a, ch') ∧
    Writer.Does errors op w a w' ∧ ch'.Writes errors w' := by
  suffices hends : Ends op.perform ch (fun a ch' => ∃ w', Writer.Does errors op w a w' ∧ ch'.Writes errors w')
      (fun f => ∃ e, f.1 = .raised e ∧ ∃ w', Writer.Does errors op w (.raised e) w' ∧ f.2.Writes errors w') by
    obtain ⟨a, ch', hstep, w', hdoes, hwrites⟩ := answered_ends hends
    exact ⟨a, ch', w', hstep, hdoes, hwrites⟩
  have hput : ∀ f, RaisesPut errors w op.puts f →
      ∃ e, f.1 = .raised e ∧ ∃ w', Writer.Does errors op w (.raised e) w' ∧ f.2.Writes errors w' := by
    intro f hf
    obtain ⟨e, k, hf, he, hk, hwrites⟩ := hf
    exact ⟨e, hf, _, .fails he hk, hwrites⟩
  cases op with
  | outputChar c => exact ((h.putch c).faults fun f hf => hput f (.of_error hf)).bind fun _ ch' h' => ⟨_, .char, h'⟩
  | outputInt n => exact ((h.putword n).faults hput).bind fun _ ch' h' => ⟨_, .word, h'⟩
  | outputPartial p =>
    refine ((h.putblock p).faults fun f hf => hput f (.of_error hf)).bind fun k ch' hk => ?_
    exact ⟨_, .part hk.1, hk.2.1⟩
  | output p => exact ((h.reallyPutblock p).faults hput).bind fun _ ch' h' => ⟨_, .all, h'⟩
  | flushPartial =>
    refine (h.flushPartial.faults fun f hf => hput f (.of_error hf)).bind fun b ch' hb => ?_
    obtain ⟨h', hempty, -⟩ := hb
    refine ⟨_, .flushPartial, h'.binary, h'.offset, h'.content, h'.pos, h'.fits, fun hf => ?_, h'.errors⟩
    rcases Bool.or_eq_true_iff.mp hf with hold | hnew
    · exact h'.flushed hold
    · rw [hempty] at hnew
      exact List.isEmpty_iff.mp hnew
  | flush =>
    refine (h.flush.faults fun f hf => hput f (.of_error hf)).bind fun _ ch' h' => ?_
    exact ⟨_, .flush, h'.1.all_flushed h'.2 true⟩
  | seekOut dest =>
    refine ((h.seekOut dest).faults fun f hf => ?_).bind fun _ ch' h' => ⟨_, .seek h'.1, h'.2⟩
    obtain ⟨e, hf, ⟨he, hwrites⟩ | ⟨hneg, rfl, hwrites⟩⟩ := hf
    · exact hput f (.of_error ⟨e, hf, he, hwrites⟩)
    · exact ⟨_, hf, _, .seekFails hneg, hwrites⟩
  | posOut =>
    refine ⟨w, ?_, h⟩
    have hpos : ch.posOut = w.pos := by
      rw [OutputChannel.posOut, ← h.pos, Int.natCast_add]
    rw [hpos]
    exact .pos

/-- **Output channels.** However much the system takes of each write, any sequence of
operations on a binary channel over a file does what a writer does; the content that this has is the
file's with the buffer written at `offset`, and the file's own where all has been flushed. -/
theorem output_channel_writes (fd : Descriptor UInt8) (ops : List OutputOp) : ∃ answers ch w,
    outputMachine.run ops (camlOpenDescriptorOut fd true) = .ok (answers, ch) ∧
      Machine.Allowed (Writer.Does (errorsOf fd)) ops { content := fd.content, pos := fd.pos, flushed := true }
        answers w ∧
      ch.posOut = w.pos ∧ overwrite ch.fd.content ch.offset ch.buff = w.content ∧ ch.buff.length ≤ ioBufferSize ∧
      (w.flushed = true → ch.fd.content = w.content) := by
  have hopen : (camlOpenDescriptorOut fd true).Writes (errorsOf fd)
    { content := fd.content, pos := fd.pos, flushed := true } :=
    ⟨rfl, rfl, overwrite_nil _ _, rfl, Nat.zero_le _, fun _ => rfl, fun e he hne => ⟨e, he, hne, rfl⟩⟩
  obtain ⟨answers, ch, w, hrun, hallowed, hwrites⟩ :=
    Machine.run_allowed (m := outputMachine) (fun op ch w h => output_does op h) ops hopen
  refine ⟨answers, ch, w, hrun, hallowed, ?_, hwrites.content, hwrites.fits, fun hf => ?_⟩
  · rw [OutputChannel.posOut, ← hwrites.pos, Int.natCast_add]
  · rw [← hwrites.content, hwrites.flushed hf, overwrite_nil]

end MultiScript.Ocaml
