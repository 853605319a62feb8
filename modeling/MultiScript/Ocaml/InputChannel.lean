/-
An input channel of the OCaml runtime over a file (`ocaml_io.c`): a buffer of
`IO_BUFFER_SIZE` that is filled by as much as `read` gives, and `offset`, where the
descriptor stands. Over it the reader that the functions are for, a position in the
content; each of them is what the reader does, however the system cuts up the reads.
-/
import MultiScript.Lib.File
import MultiScript.Lib.Loop
import MultiScript.Lib.Run
import MultiScript.Ocaml.ChannelMemory
import Mathlib.Data.Set.Defs

namespace MultiScript.Ocaml

open Run Loop Act File

/-! ## Exceptions -/

/-- An exception raised by the runtime: `caml_raise_end_of_file`, `caml_sys_error`,
`caml_raise_sys_blocked_io`, `caml_failwith`, `caml_invalid_argument`,
`caml_raise_out_of_memory`. -/
inductive IoExn
  | endOfFile
  | sysError
  | sysBlockedIo
  | failure (msg : String)
  | invalidArgument (msg : String)
  | outOfMemory
deriving DecidableEq, Repr

/-- An action of the runtime is left by an exception or a fatal error; or its loops need more
turns than they were given, or memory is accessed that is not its own. -/
inductive IoStop
  | raised (e : IoExn)
  | fatal (msg : String)
  | turns
  | wild
deriving DecidableEq, Repr

/-- C code that works on `γ` and may raise. -/
abbrev IoM (γ α : Type) := StateT γ (Except (IoStop × γ)) α

def raise {γ α : Type} (e : IoExn) : IoM γ α := fun s => .error (.raised e, s)

def fatal {γ α : Type} (msg : String) : IoM γ α := fun s => .error (.fatal msg, s)

def outOfTurns {γ α : Type} : IoM γ α := fun s => .error (.turns, s)

def wild {γ α : Type} : IoM γ α := fun s => .error (.wild, s)

/-- `caml_sys_io_error`. -/
def sysIoError (e : Errno) : IoExn := if e = .eagain then .sysBlockedIo else .sysError

/-! ## The channel -/

/-- `struct channel`, for input: `curr` from `buff` on, and the bytes up to `max`. `binary` is
the mode of the descriptor, which `caml_channel_binary_mode` answers; what the system makes of
line ends in the other mode is left out. -/
structure InputChannel where
  fd : Descriptor UInt8
  binary : Bool
  offset : Nat
  curr : Nat
  buff : Bytes

/-- `caml_open_descriptor_in`. -/
def camlOpenDescriptorIn (fd : Descriptor UInt8) (binary : Bool) : InputChannel :=
  { fd, binary, offset := fd.pos, curr := 0, buff := [] }

/-- The loop of `caml_do_read`. -/
def readAgain (fd : Descriptor UInt8) (n : Nat) : Except Errno Bytes × Descriptor UInt8 :=
  match _h : fd.read n with
  | (.error .eintr, fd') => readAgain fd' n
  | r => r
termination_by fd.replies.length
decreasing_by exact Descriptor.read_error _h

/-- `caml_do_read`. -/
def camlDoRead (n : Nat) : IoM InputChannel Bytes := do
  let ch ← get
  let r := readAgain ch.fd n
  set { ch with fd := r.2 }
  match r.1 with
  | .ok p => return p
  | .error e => raise (sysIoError e)

/-- `caml_refill`. -/
def camlRefill : IoM InputChannel UInt8 := do
  let p ← camlDoRead ioBufferSize
  if p = [] then raise .endOfFile
  else do
    modify fun ch => { ch with offset := ch.offset + p.length, buff := p, curr := 1 }
    return p.headD 0

/-- The macro `getch`. -/
def getch : IoM InputChannel UInt8 := do
  let ch ← get
  if ch.buff.length ≤ ch.curr then camlRefill
  else do
    set { ch with curr := ch.curr + 1 }
    return ch.buff.getD ch.curr 0

/-- The loop of `caml_getword`, for so many more bytes. -/
def getBytes : Nat → UInt32 → IoM InputChannel UInt32
  | 0, res => return res
  | i + 1, res => do
    let c ← getch
    getBytes i ((res <<< 8) + c.toUInt32)

/-- `caml_getword`. -/
def camlGetword : IoM InputChannel UInt32 := do
  let ch ← get
  if ch.binary then getBytes 4 0
  else raise (.failure "input_binary_int: not a binary channel")

/-- `caml_getblock`: what is moved to `p`. -/
def camlGetblock (len : Nat) : IoM InputChannel Bytes := do
  let ch ← get
  let n := if intMax ≤ len then intMax else len
  let avail := ch.buff.length - ch.curr
  if n ≤ avail then do
    set { ch with curr := ch.curr + n }
    return slice ch.buff ch.curr n
  else if 0 < avail then do
    set { ch with curr := ch.curr + avail }
    return slice ch.buff ch.curr avail
  else do
    let p ← camlDoRead ioBufferSize
    let n := if p.length < n then p.length else n
    modify fun ch => { ch with offset := ch.offset + p.length, buff := p, curr := n }
    return p.take n

/-- A turn of `caml_really_getblock`, with the bytes so far and how many more are wanted. -/
def reallyGetblockTurn (a : Bytes × Nat) : IoM InputChannel ((Bytes × Nat) ⊕ (Bytes × Bool)) := do
  if 0 < a.2 then do
    let r ← camlGetblock a.2
    if r = [] then return .inr (a.1, false) else return .inl (a.1 ++ r, a.2 - r.length)
  else return .inr (a.1, true)

/-- `caml_really_getblock`: the block, and whether all of it was there. -/
def camlReallyGetblock (n : Nat) : IoM InputChannel (Bytes × Bool) :=
  loopM outOfTurns reallyGetblockTurn (n + 1) ([], n)

/-- `caml_seek_in`. -/
def camlSeekIn (dest : Int) : IoM InputChannel Unit := do
  let ch ← get
  if (ch.offset : Int) - ch.buff.length ≤ dest ∧ dest ≤ ch.offset then
    set { ch with curr := (ch.buff.length - (ch.offset - dest) : Int).toNat }
  else
    match ch.fd.seekSet dest with
    | (some _, fd) => set { ch with fd, offset := dest.toNat, curr := 0, buff := [] }
    | (none, _) => raise .sysError

/-- `caml_pos_in`. -/
def InputChannel.posIn (ch : InputChannel) : Int := ch.offset - ((ch.buff.length : Int) - ch.curr)

/-- `caml_channel_size`, for a channel whose offset is `offset`. -/
def camlChannelSize (offset : Nat) (fd : Descriptor UInt8) : Except IoExn Nat × Descriptor UInt8 :=
  match fd.seekEnd 0 with
  | (none, fd) => (.error .sysError, fd)
  | (some end_, fd) =>
    match fd.seekSet offset with
    | (some pos, fd) => (if pos = offset then .ok end_ else .error .sysError, fd)
    | (none, fd) => (.error .sysError, fd)

/-- `caml_channel_size`. -/
def InputChannel.camlChannelSize : IoM InputChannel Nat := do
  let ch ← get
  let r := Ocaml.camlChannelSize ch.offset ch.fd
  set { ch with fd := r.2 }
  match r.1 with
  | .ok size => return size
  | .error e => raise e

/-- What `caml_input_scan_line` does where `p` has come to `max`, and the unread part is at the
beginning of the buffer. -/
def scanLineFill (p : Nat) : IoM InputChannel (Nat ⊕ Int) := do
  let ch ← get
  if ioBufferSize ≤ ch.buff.length then return .inr (-ch.buff.length)
  else do
    let s ← camlDoRead (ioBufferSize - ch.buff.length)
    if s = [] then return .inr (-ch.buff.length)
    else do
      modify fun ch => { ch with offset := ch.offset + s.length, buff := ch.buff ++ s }
      let ch ← get
      if ch.buff.getD p 0 ≠ 10 then return .inl (p + 1) else return .inr (p + 1)

/-- A turn of `caml_input_scan_line`, with `p` from `buff` on. -/
def scanLineTurn (p : Nat) : IoM InputChannel (Nat ⊕ Int) := do
  let ch ← get
  if ch.buff.length ≤ p then do
    set { ch with buff := ch.buff.drop ch.curr, curr := 0 }
    scanLineFill (p - ch.curr)
  else if ch.buff.getD p 0 ≠ 10 then return .inl (p + 1)
  else return .inr (p + 1 - ch.curr)

/-- `caml_input_scan_line`. -/
def camlInputScanLine : IoM InputChannel Int := do
  let ch ← get
  loopM outOfTurns scanLineTurn (ioBufferSize + 1) ch.curr

/-! ## What is read -/

/-- What the runtime asks of an input channel. -/
inductive InputOp
  | inputChar
  | inputInt
  | getblock (len : Nat)
  | reallyGetblock (n : Nat)
  | seekIn (dest : Int)
  | posIn
  | scanLine
  | channelSize
deriving DecidableEq, Repr

inductive InputAnswer
  | char (c : UInt8)
  | word (w : UInt32)
  | block (p : Bytes) (all : Bool)
  | number (n : Int)
  | unit
  | raised (e : IoExn)
deriving DecidableEq, Repr

def InputOp.perform : InputOp → IoM InputChannel InputAnswer
  | .inputChar => return .char (← getch)
  | .inputInt => return .word (← camlGetword)
  | .getblock len => do
    let p ← camlGetblock len
    return .block p (p.length == len)
  | .reallyGetblock n => do
    let r ← camlReallyGetblock n
    return .block r.1 r.2
  | .seekIn dest => do
    camlSeekIn dest
    return .unit
  | .posIn => return .number (← get).posIn
  | .scanLine => return .number (← camlInputScanLine)
  | .channelSize => return .number (← InputChannel.camlChannelSize)

/-- What raises answers the exception. -/
def answered {γ ω : Type} (raised : IoExn → ω) (m : IoM γ ω) (s : γ) : Except Unit (ω × γ) :=
  match m s with
  | .ok r => .ok r
  | .error (.raised e, s') => .ok (raised e, s')
  | .error _ => .error ()

def inputMachine : Machine InputChannel InputOp InputAnswer Unit := ⟨fun op => answered .raised op.perform⟩

/-! ## The reader -/

/-- A position in a content. -/
structure Reader where
  content : Bytes
  pos : Nat
deriving DecidableEq, Repr

namespace Reader

def left (r : Reader) : Nat := r.content.length - r.pos

/-- The next `n` bytes, as far as they are there. -/
def next (r : Reader) (n : Nat) : Bytes := slice r.content r.pos n

def skip (r : Reader) (n : Nat) : Reader := { r with pos := r.pos + n }

end Reader

/-- A number by its bytes, the highest first. -/
def bigEndian (p : Bytes) : UInt32 := p.foldl (fun res c => (res <<< 8) + c.toUInt32) 0

/-- How many bytes an operation cannot do without. -/
def InputOp.wants : InputOp → Nat
  | .inputChar => 1
  | .inputInt => 4
  | .getblock _ => 1
  | .reallyGetblock n => n
  | _ => 1

def InputOp.whole : InputOp → Bool
  | .inputChar | .inputInt => true
  | _ => false

/-- What a reader does, where the system may fail with `errors`: a block may be any part of
what is asked for that is not empty; a line is looked for in as much as the buffer holds, and
its length is negative where there is no end of line in that; what raises has gone on by less
than it wanted. -/
inductive Reader.Does (errors : Set IoExn) : InputOp → Reader → InputAnswer → Reader → Prop
  | char {r c} (h : r.next 1 = [c]) : Does errors .inputChar r (.char c) (r.skip 1)
  | word {r} (h : 4 ≤ r.left) : Does errors .inputInt r (.word (bigEndian (r.next 4))) (r.skip 4)
  | block {r len k} (h : k ≤ min len r.left) (hsome : k = 0 → min len r.left = 0) :
      Does errors (.getblock len) r (.block (r.next k) (k == len)) (r.skip k)
  | all {r n} : Does errors (.reallyGetblock n) r (.block (r.next n) (decide (n ≤ r.left))) (r.skip (min n r.left))
  | seek {r} {dest : Int} (h : 0 ≤ dest) : Does errors (.seekIn dest) r .unit { r with pos := dest.toNat }
  | seekFails {r} {dest : Int} (h : dest < 0) : Does errors (.seekIn dest) r (.raised .sysError) r
  | pos {r} : Does errors .posIn r (.number r.pos) r
  | line {r p} (h : r.next (p.length + 1) = p ++ [10]) (hline : 10 ∉ p) (hfits : p.length < ioBufferSize) :
      Does errors .scanLine r (.number (p.length + 1)) r
  | noLine {r k} (h : k = min ioBufferSize r.left) (hline : 10 ∉ r.next k) : Does errors .scanLine r (.number (-k)) r
  | size {r} : Does errors .channelSize r (.number r.content.length) r
  | endOfFile {op r} (hop : op.whole = true) (h : r.left < op.wants) :
      Does errors op r (.raised .endOfFile) (r.skip r.left)
  | fails {op r e k} (h : e ∈ errors) (hk : k < op.wants) (hleft : k ≤ r.left) : Does errors op r (.raised e) (r.skip k)

/-- The exceptions that the replies of the system lead to. -/
def errorsOf (fd : Descriptor UInt8) : Set IoExn := fun x => ∃ e, fd.Fails e ∧ e ≠ .eintr ∧ sysIoError e = x

/-! ## Reading the file -/

/-- The channel stands where the reader does: what it has not handed on is what comes next. -/
structure InputChannel.Reads (errors : Set IoExn) (ch : InputChannel) (r : Reader) : Prop where
  binary : ch.binary = true
  content : ch.fd.content = r.content
  offset : ch.fd.pos = ch.offset
  buff : ch.buff = slice r.content (ch.offset - ch.buff.length) ch.buff.length
  fits : ch.buff.length ≤ ioBufferSize
  held : ch.buff.length ≤ ch.offset
  curr : ch.curr ≤ ch.buff.length
  pos : r.pos + (ch.buff.length - ch.curr) = ch.offset
  errors : ∀ e, ch.fd.Fails e → e ≠ .eintr → sysIoError e ∈ errors

/-- An action that was to take `n` bytes is left by an exception. -/
def Raises (errors : Set IoExn) (r : Reader) (n : Nat) (eof : Bool) (f : IoStop × InputChannel) : Prop :=
  ∃ e k, f.1 = .raised e ∧ f.2.Reads errors (r.skip k) ∧ k < n ∧ k ≤ r.left ∧
    (e ∈ errors ∨ eof = true ∧ e = .endOfFile ∧ k = r.left)

variable {errors : Set IoExn} {ch : InputChannel} {r : Reader} {n : Nat}

namespace Reader

theorem next_length (r : Reader) (n : Nat) : (r.next n).length = min n r.left := slice_length _ _ _

theorem skip_skip (r : Reader) (m n : Nat) : (r.skip m).skip n = r.skip (m + n) := by
  rw [skip, skip, skip, Nat.add_assoc]

theorem skip_left (r : Reader) (n : Nat) : (r.skip n).left = r.left - n := by
  simp only [skip, left]
  omega

theorem next_add (r : Reader) (m n : Nat) : r.next (m + n) = r.next m ++ (r.skip m).next n := slice_add _ _ _ _

theorem next_zero (r : Reader) : r.next 0 = [] := slice_zero _ _

/-- All that is left is no more than that. -/
theorem next_left (r : Reader) (n : Nat) : r.next (min n r.left) = r.next n := by
  have hself := slice_self r.content r.pos n
  rwa [slice_length] at hself

end Reader

namespace InputChannel.Reads

/-- What lies between `curr` and `max`. -/
theorem unread (h : ch.Reads errors r) : ch.buff.drop ch.curr = r.next (ch.buff.length - ch.curr) := by
  have hpos := h.pos
  have hheld := h.held
  have hcurr := h.curr
  have hstart : ch.offset - ch.buff.length + ch.curr = r.pos := by omega
  rw [h.buff, slice_drop, ← h.buff, hstart]
  rfl

theorem unread_left (h : ch.Reads errors r) : ch.buff.length - ch.curr ≤ r.left := by
  have hlength := congrArg List.length h.unread
  rw [List.length_drop, r.next_length] at hlength
  omega

/-- Bytes are taken from the buffer. -/
theorem move (h : ch.Reads errors r) {curr' : Nat} (hcurr : ch.curr ≤ curr') (hle : curr' ≤ ch.buff.length) :
    { ch with curr := curr' : InputChannel }.Reads errors (r.skip (curr' - ch.curr)) := by
  have hpos := h.pos
  refine ⟨h.binary, h.content, h.offset, h.buff, h.fits, h.held, hle, ?_, h.errors⟩
  show r.pos + (curr' - ch.curr) + (ch.buff.length - curr') = ch.offset
  omega

/-- A read, from where the descriptor stands. -/
theorem readAgain_took (fd : Descriptor UInt8) (n : Nat) : fd.Took n (readAgain fd n).1 (readAgain fd n).2 ∧
    (readAgain fd n).1 ≠ .error .eintr := by
  induction fd using readAgain.induct (n := n) with
  | case1 fd fd' hread ih =>
    have htook := fd.read_took n
    rw [hread] at htook
    have hagain : readAgain fd n = readAgain fd' n := by
      rw [readAgain]
      split
      · rename_i h
        rw [hread] at h
        cases h
        rfl
      · rename_i hne
        exact absurd hread (hne fd')
    rw [hagain]
    exact ⟨htook.again ih.1, ih.2⟩
  | case2 fd hne =>
    have hagain : readAgain fd n = fd.read n := by
      rw [readAgain]
      split
      · rename_i h
        exact absurd h (hne _)
      · rfl
    rw [hagain]
    exact ⟨fd.read_took n, fun h => hne _ (Prod.ext h rfl)⟩

/-- A read, from where the descriptor stands. -/
theorem read (h : ch.Reads errors r) (n : Nat) : Ends (camlDoRead n) ch (fun p ch' => ∃ fd, ch' = { ch with fd } ∧
      fd.content = r.content ∧ fd.pos = ch.offset + p.length ∧ p = slice r.content ch.offset p.length ∧ p.length ≤ n ∧
      (p = [] → n = 0 ∨ r.content.length ≤ ch.offset) ∧ ∀ e, fd.Fails e → e ≠ .eintr → sysIoError e ∈ errors)
    (fun f => ∃ e, f.1 = .raised e ∧ f.2.Reads errors r ∧ e ∈ errors) := by
  obtain ⟨htook, hne⟩ := readAgain_took ch.fd n
  have hread : camlDoRead n ch = (match (readAgain ch.fd n).1 with
    | .ok p => .ok (p, { ch with fd := (readAgain ch.fd n).2 })
    | .error e => .error (.raised (sysIoError e), { ch with fd := (readAgain ch.fd n).2 })) := by
    show (match (readAgain ch.fd n).1 with
      | .ok p => (pure p : IoM InputChannel Bytes)
      | .error e => raise (sysIoError e)) { ch with fd := (readAgain ch.fd n).2 } = _
    cases (readAgain ch.fd n).1 <;> rfl
  unfold Ends
  rw [hread]
  generalize readAgain ch.fd n = res at htook hne
  obtain ⟨res, fd⟩ := res
  cases htook with
  | ok slice le some content pos replies =>
    refine ⟨fd, rfl, content.trans h.content, ?_, ?_, le, ?_, fun e he => h.errors e (replies _ he)⟩
    · rw [pos, h.offset]
    · rwa [h.content, h.offset] at slice
    · rwa [h.content, h.offset] at some
  | @error e _ fails content pos replies =>
    have hnot : e ≠ .eintr := fun heq => hne (by rw [heq])
    refine ⟨sysIoError e, rfl, ?_, h.errors e fails hnot⟩
    exact ⟨h.binary, content.trans h.content, pos.trans h.offset, h.buff, h.fits, h.held, h.curr, h.pos,
      fun e' he' => h.errors e' (replies _ he')⟩

/-- The buffer is empty, and filled by a read. -/
theorem filled (h : ch.Reads errors r) (hempty : ch.buff.length ≤ ch.curr) {fd : Descriptor UInt8} {p : Bytes} {k : Nat}
    (hcontent : fd.content = r.content) (hfd : fd.pos = ch.offset + p.length)
    (hp : p = slice r.content ch.offset p.length)
    (hfits : p.length ≤ ioBufferSize) (hfails : ∀ e, fd.Fails e → e ≠ .eintr → sysIoError e ∈ errors)
    (hk : k ≤ p.length) :
    p.take k = r.next k ∧
      { ch with fd, offset := ch.offset + p.length, curr := k, buff := p : InputChannel }.Reads errors (r.skip k) := by
  have hpos := h.pos
  have hat : r.pos = ch.offset := by omega
  refine ⟨?_, h.binary, hcontent, hfd, ?_, hfits, Nat.le_add_left _ _, hk, ?_, hfails⟩
  · rw [hp, slice_take _ _ hk, Reader.next, hat]
  · show p = slice r.content (ch.offset + p.length - p.length) p.length
    rwa [Nat.add_sub_cancel]
  · show r.pos + k + (p.length - k) = ch.offset + p.length
    omega

/-- The unread part is moved to the beginning of the buffer. -/
theorem shifted (h : ch.Reads errors r) :
    { ch with buff := ch.buff.drop ch.curr, curr := 0 : InputChannel }.Reads errors r := by
  have hpos := h.pos
  have hheld := h.held
  have hcurr := h.curr
  have hfits := h.fits
  have hlength : (ch.buff.drop ch.curr).length = ch.buff.length - ch.curr := List.length_drop
  refine ⟨h.binary, h.content, h.offset, ?_, ?_, ?_, Nat.zero_le _, ?_, h.errors⟩
  · show ch.buff.drop ch.curr = slice r.content (ch.offset - (ch.buff.drop ch.curr).length)
      (ch.buff.drop ch.curr).length
    have hstart : ch.offset - (ch.buff.length - ch.curr) = r.pos := by omega
    rw [hlength, hstart]
    exact h.unread
  · show (ch.buff.drop ch.curr).length ≤ ioBufferSize
    omega
  · show (ch.buff.drop ch.curr).length ≤ ch.offset
    omega
  · show r.pos + ((ch.buff.drop ch.curr).length - 0) = ch.offset
    omega

/-- A read behind what the buffer holds. -/
theorem extended (h : ch.Reads errors r) {fd : Descriptor UInt8} {p : Bytes} (hcontent : fd.content = r.content)
    (hfd : fd.pos = ch.offset + p.length) (hp : p = slice r.content ch.offset p.length)
    (hfits : ch.buff.length + p.length ≤ ioBufferSize) (hfails : ∀ e, fd.Fails e → e ≠ .eintr → sysIoError e ∈ errors) :
    { ch with fd, offset := ch.offset + p.length, buff := ch.buff ++ p : InputChannel }.Reads errors r := by
  have hpos := h.pos
  have hheld := h.held
  have hcurr := h.curr
  refine ⟨h.binary, hcontent, hfd, ?_, ?_, ?_, ?_, ?_, hfails⟩
  · show ch.buff ++ p = slice r.content (ch.offset + p.length - (ch.buff ++ p).length) (ch.buff ++ p).length
    have hstart : ch.offset + p.length - (ch.buff.length + p.length) = ch.offset - ch.buff.length := by omega
    have hend : ch.offset - ch.buff.length + ch.buff.length = ch.offset := by omega
    rw [List.length_append, hstart, slice_add, hend, ← hp, ← h.buff]
  · show (ch.buff ++ p).length ≤ ioBufferSize
    rwa [List.length_append]
  · show (ch.buff ++ p).length ≤ ch.offset + p.length
    rw [List.length_append]
    omega
  · show ch.curr ≤ (ch.buff ++ p).length
    rw [List.length_append]
    omega
  · show r.pos + ((ch.buff ++ p).length - ch.curr) = ch.offset + p.length
    rw [List.length_append]
    omega

/-- The byte at an index of the buffer. -/
theorem next_byte (h : ch.Reads errors r) {q : Nat} (hq : ch.curr + q < ch.buff.length) :
    r.next (q + 1) = r.next q ++ [ch.buff.getD (ch.curr + q) 0] := by
  have hle : q + 1 ≤ ch.buff.length - ch.curr := by omega
  have htake : ∀ k, k ≤ ch.buff.length - ch.curr → r.next k = (ch.buff.drop ch.curr).take k := by
    intro k hk
    rw [h.unread, Reader.next, Reader.next, slice_take _ _ hk]
  have hget : (ch.buff.drop ch.curr)[q]? = some (ch.buff.getD (ch.curr + q) 0) := by
    rw [List.getElem?_drop, List.getD_eq_getElem?_getD, List.getElem?_eq_getElem hq, Option.getD_some]
  rw [htake _ hle, htake q (by omega), List.take_add_one, hget]
  rfl

end InputChannel.Reads

theorem Raises.of_error {f : IoStop × InputChannel} {eof : Bool} (hn : 0 < n)
    (h : ∃ e, f.1 = .raised e ∧ f.2.Reads errors r ∧ e ∈ errors) : Raises errors r n eof f := by
  obtain ⟨e, hf, hreads, he⟩ := h
  exact ⟨e, 0, hf, hreads, hn, Nat.zero_le _, .inl he⟩

/-- What raises when some bytes had been taken. -/
theorem Raises.after {f : IoStop × InputChannel} {eof : Bool} {k m : Nat} (h : Raises errors (r.skip k) m eof f)
    (hle : k + m ≤ n) (hleft : k ≤ r.left) : Raises errors r n eof f := by
  obtain ⟨e, j, hf, hreads, hlt, hj, he⟩ := h
  rw [r.skip_left] at hj he
  rw [r.skip_skip] at hreads
  refine ⟨e, k + j, hf, hreads, by omega, by omega, he.imp_right fun he => ⟨he.1, he.2.1, ?_⟩⟩
  have hall := he.2.2
  omega

namespace InputChannel.Reads

theorem refill (h : ch.Reads errors r) (hempty : ch.buff.length ≤ ch.curr) :
    Ends camlRefill ch (fun c ch' => r.next 1 = [c] ∧ ch'.Reads errors (r.skip 1)) (Raises errors r 1 true) := by
  refine ((h.read ioBufferSize).faults fun f hf => .of_error Nat.zero_lt_one hf).bind fun p ch₁ hp => ?_
  obtain ⟨fd, rfl, hcontent, hfd, hslice, hfits, hnone, hfails⟩ := hp
  by_cases hnil : p = []
  · rw [if_pos hnil]
    have hpast : r.content.length ≤ ch.offset := (hnone hnil).resolve_left (by decide)
    have hpos := h.pos
    have hleft : r.left = 0 := by
      rw [Reader.left]
      omega
    have hreads : { ch with fd : InputChannel }.Reads errors r := by
      refine ⟨h.binary, hcontent, ?_, h.buff, h.fits, h.held, h.curr, h.pos, hfails⟩
      rw [hfd, hnil]
      rfl
    exact ⟨.endOfFile, 0, rfl, hreads, Nat.zero_lt_one, Nat.zero_le _, .inr ⟨rfl, rfl, hleft.symm⟩⟩
  · rw [if_neg hnil]
    obtain ⟨c, s, rfl⟩ := List.exists_cons_of_ne_nil hnil
    obtain ⟨htake, hreads⟩ := h.filled hempty (k := 1) hcontent hfd hslice hfits hfails (by simp)
    exact ⟨htake.symm, hreads⟩

theorem getch (h : ch.Reads errors r) :
    Ends Ocaml.getch ch (fun c ch' => r.next 1 = [c] ∧ ch'.Reads errors (r.skip 1)) (Raises errors r 1 true) := by
  show Ends (if ch.buff.length ≤ ch.curr then camlRefill else _) ch _ _
  by_cases hempty : ch.buff.length ≤ ch.curr
  · rw [if_pos hempty]
    exact h.refill hempty
  · rw [if_neg hempty]
    have hlt : ch.curr + 0 < ch.buff.length := by omega
    have hbyte := h.next_byte hlt
    have hmove := h.move (Nat.le_add_right ch.curr 1) (by omega)
    rw [Nat.add_sub_cancel_left] at hmove
    exact ⟨hbyte, hmove⟩

theorem getBytes : ∀ (i : Nat) (res : UInt32) {ch : InputChannel} {r : Reader}, ch.Reads errors r →
    Ends (Ocaml.getBytes i res) ch (fun w ch' => i ≤ r.left ∧
      w = (r.next i).foldl (fun (w : UInt32) c => (w <<< 8) + c.toUInt32) res ∧
      ch'.Reads errors (r.skip i)) (Raises errors r i true)
  | 0, res, ch, r, h => ⟨Nat.zero_le _, rfl, h⟩
  | i + 1, res, ch, r, h => by
    refine (h.getch.faults fun f hf => ?_).bind fun c ch₁ hc => ?_
    · obtain ⟨e, k, he, hreads, hk, hrest⟩ := hf
      exact ⟨e, k, he, hreads, by omega, hrest⟩
    obtain ⟨hnext, h₁⟩ := hc
    have hleft : 1 ≤ r.left := by
      have hlength := r.next_length 1
      rw [hnext, List.length_singleton] at hlength
      omega
    refine ((getBytes i _ h₁).faults fun f hf => hf.after (by omega) hleft).mono fun w ch' hw => ?_
    obtain ⟨hi, hval, h'⟩ := hw
    rw [r.skip_left] at hi
    rw [r.skip_skip, Nat.add_comm] at h'
    refine ⟨by omega, ?_, h'⟩
    rw [hval, Nat.add_comm i 1, r.next_add, hnext]
    rfl

theorem getword (h : ch.Reads errors r) :
    Ends camlGetword ch (fun w ch' => 4 ≤ r.left ∧ w = bigEndian (r.next 4) ∧ ch'.Reads errors (r.skip 4))
      (Raises errors r 4 true) := by
  have hbinary : camlGetword ch = Ocaml.getBytes 4 0 ch := by
    show (if ch.binary = true then Ocaml.getBytes 4 0 else raise _) ch = _
    rw [if_pos h.binary]
  unfold Ends
  rw [hbinary]
  exact h.getBytes 4 0

theorem getblock (h : ch.Reads errors r) (len : Nat) : Ends (camlGetblock len) ch (fun p ch' => ∃ k, p = r.next k ∧
      p.length = k ∧ k ≤ len ∧ k ≤ r.left ∧ (k = 0 → min len r.left = 0) ∧
      ch'.Reads errors (r.skip k)) (Raises errors r 1 false) := by
  have hcurr := h.curr
  have hunread := h.unread_left
  have hbound : ∃ n, (if intMax ≤ len then intMax else len) = n ∧ n ≤ len ∧ (n = 0 → len = 0) := by
    have hmax : intMax ≠ 0 := by decide
    split
    · exact ⟨_, rfl, ‹_›, fun h0 => absurd h0 hmax⟩
    · exact ⟨_, rfl, Nat.le_refl _, id⟩
  obtain ⟨n, hn, hle, hzero⟩ := hbound
  have htake : ∀ k, k ≤ ch.buff.length - ch.curr → slice ch.buff ch.curr k = r.next k ∧ (r.next k).length = k := by
    intro k hk
    refine ⟨?_, by rw [r.next_length]; omega⟩
    rw [slice, h.unread, Reader.next, Reader.next, slice_take _ _ hk]
  show Ends (if (if intMax ≤ len then intMax else len) ≤ ch.buff.length - ch.curr then _ else _) ch _ _
  rw [hn]
  by_cases hroom : n ≤ ch.buff.length - ch.curr
  · rw [if_pos hroom]
    obtain ⟨hslice, hlength⟩ := htake n hroom
    have hmove := h.move (Nat.le_add_right ch.curr n) (by omega)
    rw [Nat.add_sub_cancel_left] at hmove
    exact ⟨n, hslice, by rw [hslice]; exact hlength, hle, by omega, by omega, hmove⟩
  · rw [if_neg hroom]
    show Ends (if 0 < ch.buff.length - ch.curr then _ else _) ch _ _
    by_cases havail : 0 < ch.buff.length - ch.curr
    · rw [if_pos havail]
      obtain ⟨hslice, hlength⟩ := htake _ (Nat.le_refl (ch.buff.length - ch.curr))
      have hmove := h.move (Nat.le_add_right ch.curr (ch.buff.length - ch.curr)) (by omega)
      rw [Nat.add_sub_cancel_left] at hmove
      exact ⟨_, hslice, by rw [hslice]; exact hlength, by omega, hunread, by omega, hmove⟩
    · rw [if_neg havail]
      refine ((h.read ioBufferSize).faults fun f hf => .of_error Nat.zero_lt_one hf).bind fun p ch₁ hp => ?_
      obtain ⟨fd, rfl, hcontent, hfd, hslice, hfits, hnone, hfails⟩ := hp
      obtain ⟨k, hk, hkp, hkn, hk0⟩ : ∃ k, (if p.length < n then p.length else n) = k ∧ k ≤ p.length ∧ k ≤ n ∧
          (k = 0 → p = []) := by
        split
        · exact ⟨_, rfl, Nat.le_refl _, by omega, List.eq_nil_of_length_eq_zero⟩
        · exact ⟨_, rfl, by omega, Nat.le_refl _, fun h0 => absurd h0 (by omega)⟩
      obtain ⟨htake', hreads⟩ := h.filled (by omega) hcontent hfd hslice hfits hfails hkp
      have hlength : (p.take k).length = k := by
        rw [List.length_take]
        omega
      have hleft : k ≤ r.left := by
        rw [htake', r.next_length] at hlength
        omega
      refine ⟨k, ?_, ?_, by omega, hleft, fun h0 => ?_, ?_⟩
      · show p.take (if p.length < n then p.length else n) = _
        rw [hk, htake']
      · show (p.take (if p.length < n then p.length else n)).length = k
        rw [hk, hlength]
      · have hpast : r.content.length ≤ ch.offset := (hnone (hk0 h0)).resolve_left (by decide)
        have hpos := h.pos
        rw [Reader.left]
        omega
      · show InputChannel.Reads errors { ch with fd, offset := ch.offset + p.length, curr := _, buff := p } _
        rw [hk]
        exact hreads

theorem reallyGetblock (h : ch.Reads errors r) (n : Nat) : Ends (camlReallyGetblock n) ch
    (fun b ch' => b = (r.next n, decide (n ≤ r.left)) ∧ ch'.Reads errors (r.skip (min n r.left)))
    (Raises errors r n false) := by
  -- `k` bytes have been read
  let I : Nat → Bytes × Nat → InputChannel → Prop := fun m a ch => m = a.2 ∧
    ∃ k, a.1 = r.next k ∧ k + a.2 = n ∧ k ≤ r.left ∧ ch.Reads errors (r.skip k)
  refine @loopM_down _ _ _ _ outOfTurns reallyGetblockTurn I _ _ ?_ (n + 1) n ([], n) ch
    ⟨rfl, 0, r.next_zero.symm, Nat.zero_add n, Nat.zero_le _, h⟩ (Nat.lt_succ_self n)
  intro m a ch hi
  obtain ⟨rfl, k, hk, hsum, hleft, hreads⟩ := hi
  unfold reallyGetblockTurn
  by_cases hmore : 0 < a.2
  · rw [if_pos hmore]
    refine ((hreads.getblock a.2).faults fun f hf => hf.after (by omega) hleft).bind fun p ch₁ hp => ?_
    obtain ⟨j, rfl, hlength, hle, hj, hnone, hreads₁⟩ := hp
    rw [r.skip_left] at hj hnone
    rw [r.skip_skip] at hreads₁
    by_cases hnil : (r.skip k).next j = []
    · rw [if_pos hnil]
      have hzero : j = 0 := by
        rw [hnil] at hlength
        exact hlength.symm
      have hend := hnone hzero
      have hall : min n r.left = k := by omega
      have hnext := r.next_left n
      rw [hall] at hnext
      refine ⟨?_, ?_⟩
      · rw [hk, hnext, decide_eq_false (by omega)]
      · rw [hall]
        rwa [hzero] at hreads₁
    · rw [if_neg hnil]
      have hpos : j ≠ 0 := by
        intro hzero
        rw [hzero] at hnil
        exact hnil ((r.skip k).next_zero)
      refine ⟨a.2 - j, by omega, ?_, k + j, ?_, ?_, by omega, hreads₁⟩
      · show a.2 - j = a.2 - ((r.skip k).next j).length
        rw [hlength]
      · show a.1 ++ (r.skip k).next j = _
        rw [hk, r.next_add]
      · show k + j + (a.2 - ((r.skip k).next j).length) = n
        rw [hlength]
        omega
  · rw [if_neg hmore]
    have hall : k = n := by omega
    subst hall
    refine ⟨?_, ?_⟩
    · rw [hk, decide_eq_true hleft]
    · rwa [Nat.min_eq_left hleft]

/-- What has been scanned for the end of a line. -/
structure Scanned (errors : Set IoExn) (r : Reader) (p : Nat) (ch : InputChannel) : Prop where
  reads : ch.Reads errors r
  from_curr : ch.curr ≤ p
  to_max : p ≤ ch.buff.length
  hline : 10 ∉ r.next (p - ch.curr)

/-- A byte is looked at. -/
theorem Scanned.look {p : Nat} (h : Scanned errors r p ch) (hp : p < ch.buff.length) :
    (ch.buff.getD p 0 ≠ 10 → Scanned errors r (p + 1) ch) ∧
      (ch.buff.getD p 0 = 10 → r.next (p - ch.curr + 1) = r.next (p - ch.curr) ++ [10]) := by
  have hfrom := h.from_curr
  have hat : ch.curr + (p - ch.curr) = p := by omega
  have hbyte := h.reads.next_byte (q := p - ch.curr) (by omega)
  rw [hat] at hbyte
  refine ⟨fun hne => ⟨h.reads, by omega, hp, ?_⟩, fun heq => by rw [hbyte, heq]⟩
  have hsucc : p + 1 - ch.curr = p - ch.curr + 1 := by omega
  rw [hsucc, hbyte, List.mem_append, List.mem_singleton]
  exact fun hmem => hmem.elim h.hline fun h10 => hne h10.symm

/-- What a line that is found, or not, answers. -/
def Line (errors : Set IoExn) (r : Reader) (n : Int) (ch : InputChannel) : Prop :=
  ch.Reads errors r ∧
    ((∃ p : Bytes, n = p.length + 1 ∧ r.next (p.length + 1) = p ++ [10] ∧ 10 ∉ p ∧ p.length < ioBufferSize) ∨
    ∃ k : Nat, n = -k ∧ k = min ioBufferSize r.left ∧ 10 ∉ r.next k)

theorem Scanned.line {p : Nat} (h : Scanned errors r p ch) (hp : p < ch.buff.length) (heq : ch.buff.getD p 0 = 10) :
    Line errors r (p + 1 - ch.curr) ch := by
  have hfrom := h.from_curr
  have hfits := h.reads.fits
  have hleft := h.reads.unread_left
  have hlength : (r.next (p - ch.curr)).length = p - ch.curr := by
    rw [r.next_length]
    omega
  refine ⟨h.reads, .inl ⟨r.next (p - ch.curr), ?_, ?_, h.hline, ?_⟩⟩
  · rw [hlength]
    omega
  · rw [hlength]
    exact (h.look hp).2 heq
  · omega

/-- A turn goes on behind one more byte, or ends the scan. -/
def Scans (errors : Set IoExn) (r : Reader) (q : Nat) (a : Nat ⊕ Int) (ch : InputChannel) : Prop :=
  match a with
  | .inl p => Scanned errors r p ch ∧ p - ch.curr = q + 1
  | .inr n => Line errors r n ch

theorem scanLineFill {p : Nat} (h : Scanned errors r p ch) (hzero : ch.curr = 0) (hmax : p = ch.buff.length) :
    Ends (Ocaml.scanLineFill p) ch (Scans errors r p) (Raises errors r 1 false) := by
  have hpos := h.reads.pos
  have hleft := h.reads.unread_left
  have hline := h.hline
  rw [hzero, Nat.sub_zero, hmax] at hline
  show Ends (if ioBufferSize ≤ ch.buff.length then _ else _) ch _ _
  by_cases hfull : ioBufferSize ≤ ch.buff.length
  · rw [if_pos hfull]
    have hfits := h.reads.fits
    exact ⟨h.reads, .inr ⟨ch.buff.length, rfl, by omega, hline⟩⟩
  · rw [if_neg hfull]
    refine ((h.reads.read _).faults fun f hf => .of_error Nat.zero_lt_one hf).bind fun s ch₁ hs => ?_
    obtain ⟨fd, rfl, hcontent, hfd, hslice, hfits, hnone, hfails⟩ := hs
    have hreads := h.reads.extended hcontent hfd hslice (by omega) hfails
    by_cases hnil : s = []
    · rw [if_pos hnil]
      have hpast : r.content.length ≤ ch.offset := (hnone hnil).resolve_left (by omega)
      have hend : r.left = ch.buff.length := by
        rw [Reader.left] at hleft ⊢
        omega
      subst hnil
      rw [List.append_nil] at hreads
      exact ⟨hreads, .inr ⟨ch.buff.length, rfl, by omega, hline⟩⟩
    · rw [if_neg hnil]
      have hs := List.length_pos_iff.mpr hnil
      have h₁ : Scanned errors r p { ch with fd, offset := ch.offset + s.length, buff := ch.buff ++ s } := by
        refine ⟨hreads, h.from_curr, ?_, h.hline⟩
        show p ≤ (ch.buff ++ s).length
        rw [List.length_append]
        omega
      have hlt : p < (ch.buff ++ s).length := by
        rw [List.length_append]
        omega
      show Ends (if (ch.buff ++ s).getD p 0 ≠ 10 then _ else _) _ _ _
      by_cases hne : (ch.buff ++ s).getD p 0 ≠ 10
      · rw [if_pos hne]
        refine ⟨(h₁.look hlt).1 hne, ?_⟩
        show p + 1 - ch.curr = p + 1
        rw [hzero, Nat.sub_zero]
      · rw [if_neg hne]
        have hval : (p : Int) + 1 - ch.curr = p + 1 := by
          rw [hzero]
          omega
        have hfound := h₁.line hlt (not_not.mp hne)
        rw [← hval]
        exact hfound

theorem scanLineTurn {p : Nat} (h : Scanned errors r p ch) :
    Ends (Ocaml.scanLineTurn p) ch (Scans errors r (p - ch.curr)) (Raises errors r 1 false) := by
  have hfrom := h.from_curr
  have hto := h.to_max
  show Ends (if ch.buff.length ≤ p then _ else _) ch _ _
  by_cases hmax : ch.buff.length ≤ p
  · rw [if_pos hmax]
    have hq : p - ch.curr = (ch.buff.drop ch.curr).length := by
      rw [List.length_drop]
      omega
    have h₁ : Scanned errors r (p - ch.curr) { ch with buff := ch.buff.drop ch.curr, curr := 0 } :=
      ⟨h.reads.shifted, Nat.zero_le _, Nat.le_of_eq hq, h.hline⟩
    exact scanLineFill h₁ rfl hq
  · rw [if_neg hmax]
    have hlt : p < ch.buff.length := by omega
    by_cases hne : ch.buff.getD p 0 ≠ 10
    · rw [if_pos hne]
      refine ⟨(h.look hlt).1 hne, ?_⟩
      show p + 1 - ch.curr = _
      omega
    · rw [if_neg hne]
      exact h.line hlt (not_not.mp hne)

theorem inputScanLine (h : ch.Reads errors r) :
    Ends camlInputScanLine ch (Line errors r) (Raises errors r 1 false) := by
  let I : Nat → Nat → InputChannel → Prop := fun m p ch => Scanned errors r p ch ∧ m + (p - ch.curr) = ioBufferSize
  refine @loopM_down _ _ _ _ outOfTurns Ocaml.scanLineTurn I _ _ ?_ (ioBufferSize + 1) ioBufferSize ch.curr ch
    ⟨⟨h, Nat.le_refl _, h.curr, ?_⟩, ?_⟩ (Nat.lt_succ_self _)
  · intro m p ch hi
    obtain ⟨hscanned, hm⟩ := hi
    refine (scanLineTurn hscanned).mono fun a ch' ha => ?_
    cases a with
    | inl p' =>
      obtain ⟨hscanned', hnext⟩ := ha
      have hfits := hscanned'.reads.fits
      have hto := hscanned'.to_max
      exact ⟨m - 1, by omega, hscanned', by omega⟩
    | inr n => exact ha
  · rw [Nat.sub_self, r.next_zero]
    exact List.not_mem_nil
  · rw [Nat.sub_self, Nat.add_zero]

theorem seekIn (h : ch.Reads errors r) (dest : Int) : Ends (camlSeekIn dest) ch
    (fun _ ch' => 0 ≤ dest ∧ ch'.Reads errors { r with pos := dest.toNat })
    (fun f => dest < 0 ∧ f.1 = .raised .sysError ∧ f.2.Reads errors r) := by
  have hheld := h.held
  have hcurr := h.curr
  show Ends (if _ then _ else _) ch _ _
  by_cases hin : (ch.offset : Int) - ch.buff.length ≤ dest ∧ dest ≤ ch.offset
  · rw [if_pos hin]
    refine ⟨by omega, h.binary, h.content, h.offset, h.buff, h.fits, hheld, ?_, ?_, h.errors⟩
    · show ((ch.buff.length : Int) - (ch.offset - dest)).toNat ≤ ch.buff.length
      omega
    · show dest.toNat + (ch.buff.length - ((ch.buff.length : Int) - (ch.offset - dest)).toNat) = ch.offset
      omega
  · rw [if_neg hin]
    by_cases hneg : 0 ≤ dest
    · have hseek : ch.fd.seekSet dest = (some dest.toNat, { ch.fd with pos := dest.toNat }) := if_pos hneg
      rw [hseek]
      exact ⟨hneg, h.binary, h.content, rfl, rfl, Nat.zero_le _, Nat.zero_le _, Nat.le_refl _, Nat.add_zero _, h.errors⟩
    · have hseek : ch.fd.seekSet dest = (none, ch.fd) := if_neg hneg
      rw [hseek]
      exact ⟨by omega, rfl, h⟩

theorem posIn (h : ch.Reads errors r) : ch.posIn = r.pos := by
  have hpos := h.pos
  have hcurr := h.curr
  rw [InputChannel.posIn]
  omega

theorem channelSize (h : ch.Reads errors r) : Ends InputChannel.camlChannelSize ch
    (fun n ch' => n = r.content.length ∧ ch'.Reads errors r) (fun _ => False) := by
  have hsize : Ocaml.camlChannelSize ch.offset ch.fd = (.ok ch.fd.content.length, ch.fd) := by
    have hend : ch.fd.seekEnd 0 = (some ch.fd.content.length, { ch.fd with pos := ch.fd.content.length }) := by
      rw [Descriptor.seekEnd, Int.add_zero, Descriptor.seekSet, if_pos (Int.natCast_nonneg _), Int.toNat_natCast]
    have hback : ({ ch.fd with pos := ch.fd.content.length } : Descriptor UInt8).seekSet ch.offset =
      (some ch.offset, ch.fd) := by
      rw [Descriptor.seekSet, if_pos (Int.natCast_nonneg _), Int.toNat_natCast, ← h.offset]
    rw [Ocaml.camlChannelSize, hend]
    simp only [hback, if_true]
  show Ends (match (Ocaml.camlChannelSize ch.offset ch.fd).1 with
    | .ok size => (pure size : IoM InputChannel Nat)
    | .error e => raise e) { ch with fd := (Ocaml.camlChannelSize ch.offset ch.fd).2 } _ _
  rw [hsize, ← h.content]
  exact ⟨rfl, h⟩

end InputChannel.Reads

theorem answered_ends {γ ω : Type} {raised : IoExn → ω} {m : IoM γ ω} {s : γ} {P : ω → γ → Prop}
    (h : Ends m s P (fun f => ∃ e, f.1 = .raised e ∧ P (raised e) f.2)) :
      ∃ a s', answered raised m s = .ok (a, s') ∧ P a s' := by
  unfold Ends at h
  unfold answered
  split at h
  · rename_i a s' hm
    exact ⟨a, s', by rw [hm], h⟩
  · rename_i f hm
    obtain ⟨e, hf, hP⟩ := h
    obtain ⟨stop, s'⟩ := f
    cases hf
    exact ⟨_, s', by rw [hm], hP⟩

/-- What raises does as the reader may. -/
theorem Raises.does {f : IoStop × InputChannel} {eof : Bool} (op : InputOp) (h : Raises errors r n eof f)
    (hn : n ≤ op.wants)
    (heof : eof = true → op.whole = true) :
    ∃ e, f.1 = .raised e ∧ ∃ r', Reader.Does errors op r (.raised e) r' ∧ f.2.Reads errors r' := by
  obtain ⟨e, k, hf, hreads, hk, hleft, he | ⟨hall, rfl, rfl⟩⟩ := h
  · exact ⟨e, hf, _, .fails he (by omega) hleft, hreads⟩
  · exact ⟨_, hf, _, .endOfFile (heof hall) (by omega), hreads⟩

/-- An operation does what the reader does. -/
theorem perform_does (op : InputOp) (h : ch.Reads errors r) : ∃ a ch' r', inputMachine.step op ch = .ok (a, ch') ∧
    Reader.Does errors op r a r' ∧ ch'.Reads errors r' := by
  suffices hends : Ends op.perform ch (fun a ch' => ∃ r', Reader.Does errors op r a r' ∧ ch'.Reads errors r')
      (fun f => ∃ e, f.1 = .raised e ∧ ∃ r', Reader.Does errors op r (.raised e) r' ∧ f.2.Reads errors r') by
    obtain ⟨a, ch', hstep, r', hdoes, hreads⟩ := answered_ends hends
    exact ⟨a, ch', r', hstep, hdoes, hreads⟩
  cases op with
  | inputChar =>
    refine (h.getch.faults fun f hf => hf.does .inputChar (Nat.le_refl 1) fun _ => rfl).bind fun c ch' hc => ?_
    exact ⟨_, .char hc.1, hc.2⟩
  | inputInt =>
    refine (h.getword.faults fun f hf => hf.does .inputInt (Nat.le_refl 4) fun _ => rfl).bind fun w ch' hw => ?_
    obtain ⟨hleft, rfl, hreads⟩ := hw
    exact ⟨_, .word hleft, hreads⟩
  | getblock len =>
    refine ((h.getblock len).faults fun f hf => hf.does (.getblock len) (Nat.le_refl 1) nofun).bind fun p ch' hp => ?_
    obtain ⟨k, rfl, hlength, hle, hleft, hsome, hreads⟩ := hp
    refine ⟨_, ?_, hreads⟩
    show Reader.Does errors _ r (.block (r.next k) ((r.next k).length == len)) _
    rw [hlength]
    exact .block (by omega) hsome
  | reallyGetblock n =>
    refine ((h.reallyGetblock n).faults fun f hf => hf.does (.reallyGetblock n) (Nat.le_refl n) nofun).bind
      fun b ch' hb => ?_
    obtain ⟨rfl, hreads⟩ := hb
    exact ⟨_, .all, hreads⟩
  | seekIn dest =>
    refine ((h.seekIn dest).faults fun f hf => ?_).bind fun _ ch' hs => ⟨_, .seek hs.1, hs.2⟩
    exact ⟨.sysError, hf.2.1, r, .seekFails hf.1, hf.2.2⟩
  | posIn =>
    refine ⟨r, ?_, h⟩
    rw [h.posIn]
    exact .pos
  | scanLine =>
    refine (h.inputScanLine.faults fun f hf => hf.does .scanLine (Nat.le_refl 1) nofun).bind fun n ch' hn => ?_
    obtain ⟨hreads, ⟨p, rfl, hline, hnone, hfits⟩ | ⟨k, rfl, hk, hnone⟩⟩ := hn
    · exact ⟨r, .line hline hnone hfits, hreads⟩
    · exact ⟨r, .noLine hk hnone, hreads⟩
  | channelSize =>
    refine (h.channelSize.faults fun f hf => hf.elim).bind fun n ch' hn => ?_
    obtain ⟨rfl, hreads⟩ := hn
    exact ⟨r, .size, hreads⟩

theorem openDescriptorIn_reads (fd : Descriptor UInt8) :
    (camlOpenDescriptorIn fd true).Reads (errorsOf fd) { content := fd.content, pos := fd.pos } :=
  ⟨rfl, rfl, rfl, rfl, Nat.zero_le _, Nat.zero_le _, Nat.le_refl _, rfl, fun e he hne => ⟨e, he, hne, rfl⟩⟩

/-- **Input channels.** However the system cuts up the reads, any sequence of operations on a
binary channel over a file answers what a reader of the content does, and the channel is where
that is; what fails leaves it there too. -/
theorem input_channel_reads (fd : Descriptor UInt8) (ops : List InputOp) : ∃ answers ch r,
    inputMachine.run ops (camlOpenDescriptorIn fd true) = .ok (answers, ch) ∧
      Machine.Allowed (Reader.Does (errorsOf fd)) ops { content := fd.content, pos := fd.pos } answers r ∧
      ch.posIn = r.pos := by
  obtain ⟨answers, ch, r, hrun, hallowed, hreads⟩ :=
    Machine.run_allowed (m := inputMachine) (fun op ch r h => perform_does op h) ops (openDescriptorIn_reads fd)
  exact ⟨answers, ch, r, hrun, hallowed, hreads.posIn⟩

end MultiScript.Ocaml
