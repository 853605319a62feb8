/-
Structured input (`intern.c`). The blocks are made one behind the other in a chunk that is
allocated for all of them, and kept in a table by which references back are resolved. What the
code of a value stands for is read back as a copy of its blocks, in the order of the code.
-/
import MultiScript.Ocaml.Extern

namespace MultiScript.Ocaml.Marshal

open Act

/-- The variables of the file, and the heap, with the blocks that have been made at its end:
`dest` counts their words, for which there is `room`; `table` is the size of the table of objects. -/
structure Intern where
  src : Bytes
  heap : Heap
  dest : Nat
  room : Nat
  objs : List Value
  table : Option Nat

abbrev InternM := IoM Intern

/-! ## Reading the block -/

def read8u : InternM UInt8 := do
  let s ← get
  match s.src with
  | [] => wild
  | b :: rest => do
    set { s with src := rest }
    return b

def read16u : InternM UInt32 := do
  let b₁ ← read8u
  let b₀ ← read8u
  return (b₁.toUInt32 <<< 8) + b₀.toUInt32

def read32u : InternM UInt32 := do
  let b₃ ← read8u
  let b₂ ← read8u
  let b₁ ← read8u
  let b₀ ← read8u
  return (b₃.toUInt32 <<< 24) + (b₂.toUInt32 <<< 16) + (b₁.toUInt32 <<< 8) + b₀.toUInt32

/-- `Sign_extend`. -/
def signExtend (b : UInt8) : Word := b.toBitVec.signExtend 32

def byteWord (b : UInt8) : Word := b.toBitVec.zeroExtend 32

def read8s : InternM Word := return signExtend (← read8u)

def read16s : InternM Word := do
  let b₁ ← read8u
  let b₀ ← read8u
  return (signExtend b₁ <<< 8) + byteWord b₀

def read32s : InternM Word := do
  let b₃ ← read8u
  let b₂ ← read8u
  let b₁ ← read8u
  let b₀ ← read8u
  return (signExtend b₃ <<< 24) + (byteWord b₂ <<< 16) + (byteWord b₁ <<< 8) + byteWord b₀

/-- `readblock`: what is copied. -/
def readblock (len : Nat) : InternM Bytes := do
  let s ← get
  if s.src.length < len then wild
  else do
    set { s with src := s.src.drop len }
    return s.src.take len

/-! ## Values -/

variable (env : Env)

/-- A block is entered into the table. -/
def internRecord (v : Value) : InternM Unit := do
  let s ← get
  match s.table with
  | none => return
  | some size => if s.objs.length < size then set { s with objs := s.objs ++ [v] } else wild

/-- A block at `intern_dest`, and its entry in the table. -/
def internBlock (tag : UInt8) (fields : List Value) : InternM Value := do
  let s ← get
  -- what does not fit, or has a size that its header cannot say
  if s.room < s.dest + 1 + fields.length ∨ maxWosize < fields.length then wild
  else do
    let v := Value.block s.heap.length
    let b : Block := { tag, color := env.color, fields }
    set { s with heap := s.heap ++ [b], dest := s.dest + 1 + fields.length }
    internRecord v
    return v

/-- `*dest = v`, for a field of a block. -/
def internStore (block : Value) (i : Nat) (v : Value) : InternM Unit :=
  match block with
  | .block p => modify fun s => { s with heap := s.heap.modify p fun b => { b with fields := b.fields.set i v } }
  | _ => wild

/-- The label `read_block`, where `intern` reads a value. -/
def readBlock (intern : InternM Value) (tag : UInt8) (size : Nat) : InternM Value := do
  if size = 0 then return .atom tag
  else do
    let v ← internBlock env tag (List.replicate size (.word 0))
    (List.range size).forM fun i => do
      let f ← intern
      internStore v i f
    return v

/-- The label `read_string`. -/
def readString (len : Nat) : InternM Value := do
  let s ← readblock len
  internBlock env Tag.string (stringFields s)

/-- The label `read_shared`. -/
def readShared (ofs : Nat) : InternM Value := do
  let s ← get
  if ofs = 0 ∨ s.objs.length < ofs then wild
  else return s.objs.getD (s.objs.length - ofs) (.word 0)

/-- `Reverse_64`, of so many floats. -/
def reverse64 (len : Nat) (p : Bytes) : Bytes := (List.range len).flatMap fun i => (File.slice p (8 * i) 8).reverse

/-- `CODE_DOUBLE_LITTLE` and `CODE_DOUBLE_BIG`; the label `read_double_array`. -/
def readDoubles (tag : UInt8) (little : Bool) (len : Nat) : InternM Value := do
  let p ← readblock (8 * len)
  internBlock env tag (packFields (if little then p else reverse64 len p))

/-- `CODE_CODEPOINTER`. -/
def readCode : InternM Value := do
  let ofs ← read32u
  let cksum ← readblock 16
  if cksum ≠ env.checksum then raise (.failure "input_value: code mismatch")
  else return .code ofs

/-- `CODE_INFIXPOINTER`. -/
def readInfix (intern : InternM Value) : InternM Value := do
  let ofs ← read32u
  match ← intern with
  | .block p => return .inside p (ofs.toNat / 4)
  | _ => wild

/-- `CODE_CUSTOM`. -/
def readCustom : InternM Value := do
  let s ← get
  match camlFindCustomOperations env s.src env.registered with
  | none => wild
  | some none => raise (.failure "input_value: unknown custom block identifier")
  | some (some a) =>
    match env.customAt a with
    | none => wild
    | some ops =>
      match ops.deserialize ((s.src.dropWhile (· ≠ 0)).drop 1) with
      | .error msg => raise (.failure msg)
      | .ok (ws, size, rest) => do
        set { s with src := rest }
        if ws.length = (size + 3) / 4 then internBlock env Tag.custom (.word a :: ws.map .word) else wild

/-- The switch of `intern_rec`. -/
def internSwitch (intern : InternM Value) : Nat → InternM Value
  | 0x0 => do return .word (valLong (← read8s))
  | 0x1 => do return .word (valLong (← read16s))
  | 0x2 => do return .word (valLong (← read32s))
  | 0x3 => raise (.failure "input_value: integer too large")
  | 0x4 => do readShared (← read8u).toNat
  | 0x5 => do readShared (← read16u).toNat
  | 0x6 => do readShared (← read32u).toNat
  | 0x8 => do
    let header ← read32u
    readBlock env intern (UInt8.ofNat header.toNat) (header.toNat / 1024)
  | 0x13 => raise (.failure "input_value: data block too large")
  | 0x9 => do readString env (← read8u).toNat
  | 0xA => do readString env (← read32u).toNat
  | 0xC => readDoubles env Tag.double true 1
  | 0xB => readDoubles env Tag.double false 1
  | 0xE => do readDoubles env Tag.doubleArray true (← read8u).toNat
  | 0xD => do readDoubles env Tag.doubleArray false (← read8u).toNat
  | 0x7 => do readDoubles env Tag.doubleArray true (← read32u).toNat
  | 0xF => do readDoubles env Tag.doubleArray false (← read32u).toNat
  | 0x10 => readCode env
  | 0x11 => readInfix intern
  | 0x12 => readCustom env
  | _ => raise (.failure "input_value: ill-formed message")

/-- `intern_rec`, so deep: what is stored at `dest`. -/
def internRec : Nat → InternM Value
  | 0 => outOfTurns
  | n + 1 => do
    let code ← read8u
    if 0x40 ≤ code then
      if 0x80 ≤ code then readBlock env (internRec n) (code &&& 0xF) ((code >>> 4) &&& 0x7).toNat
      else return .word (valLong (BitVec.ofNat 32 (code &&& 0x3F).toNat))
    else if 0x20 ≤ code then readString env (code &&& 0x1F).toNat
    else internSwitch env (internRec n) code.toNat

/-- The words that `intern_alloc` makes room for: a string, or a chunk of whole pages. -/
def allocRoom (whsize : Nat) : Nat :=
  if whsize ≤ 1 then 0
  else if whsize - 1 ≤ maxWosize then whsize
  else (4 * whsize + 4095) % 2 ^ 32 / 4096 * 1024

/-- `intern_alloc`, and what is set before it; nothing where a call of `malloc` fails. -/
def internAlloc (heap : Heap) (memory : List Bool) (src : Bytes) (whsize numObjects : Nat) : Option Intern :=
  let s : Intern := { src, heap, dest := 0, room := allocRoom whsize, objs := [], table := none }
  if whsize = 0 then some s
  else if memory.headD true then
    if numObjects = 0 then some s
    else if memory.tail.headD true then some { s with table := some (numObjects % 2 ^ 30) }
    else none
  else none

/-- `caml_input_val` from the magic number on: the value, and the heap. -/
def inputExterned (heap : Heap) (memory : List Bool) : IoM InputChannel (Value × Heap) := do
  let magic ← camlGetword
  if magic ≠ intextMagicNumber then raise (.failure "input_value: bad object")
  else do
    let blockLen ← camlGetword
    let numObjects ← camlGetword
    let size32 ← camlGetword
    let _ ← camlGetword
    if memory.headD true then do
      -- a length that is negative as an `intnat` reads nothing
      let block ← if blockLen.toNat < 2 ^ 31 then camlReallyGetblock blockLen.toNat else pure ([], false)
      if block.2 then
        match internAlloc heap memory.tail block.1 size32.toNat numObjects.toNat with
        | none => raise .outOfMemory
        | some s =>
          finish (fun v s' => return (v, s'.heap)) (internRec env (block.1.length + 1) s)
      else raise (.failure "input_value: truncated object")
    else raise .outOfMemory

/-- `caml_input_val`. -/
def camlInputVal (heap : Heap) (memory : List Bool) : IoM InputChannel (Value × Heap) := do
  let ch ← get
  if ch.binary then inputExterned env heap memory
  else raise (.failure "input_value: not a binary channel")

/-! ## Numbers -/

theorem bigEndian_eq (b₃ b₂ b₁ b₀ : UInt8) : bigEndian [b₃, b₂, b₁, b₀] =
    (b₃.toUInt32 <<< 24) + (b₂.toUInt32 <<< 16) + (b₁.toUInt32 <<< 8) + b₀.toUInt32 := by
  have h₀ := b₀.toNat_lt
  have h₁ := b₁.toNat_lt
  have h₂ := b₂.toNat_lt
  have h₃ := b₃.toNat_lt
  apply UInt32.toNat_inj.mp
  simp only [bigEndian, List.foldl_cons, List.foldl_nil, UInt32.toNat_add, UInt32.toNat_shiftLeft, UInt8.toNat_toUInt32,
    UInt32.toNat_ofNat, Nat.shiftLeft_eq, Nat.reducePow, Nat.reduceMod]
  omega

/-- The bytes of a word, as numbers. -/
theorem bytes_toNat (w : UInt32) : (w >>> 24).toUInt8.toNat = w.toNat / 16777216 % 256 ∧
    (w >>> 16).toUInt8.toNat = w.toNat / 65536 % 256 ∧ (w >>> 8).toUInt8.toNat = w.toNat / 256 % 256 ∧
    w.toUInt8.toNat = w.toNat % 256 := by
  have hbyte : ∀ k : UInt32, (w >>> k).toUInt8.toNat = w.toNat / 2 ^ (k.toNat % 32) % 256 := by
    intro k
    rw [UInt32.toNat_toUInt8, UInt32.toNat_shiftRight, Nat.shiftRight_eq_div_pow]
  exact ⟨hbyte 24, hbyte 16, hbyte 8, UInt32.toNat_toUInt8 w⟩

theorem bigEndian_wordBytes (w : UInt32) : bigEndian (wordBytes w) = w := by
  have hw := w.toNat_lt
  obtain ⟨h₃, h₂, h₁, h₀⟩ := bytes_toNat w
  apply UInt32.toNat_inj.mp
  rw [wordBytes, bigEndian_eq]
  simp only [UInt32.toNat_add, UInt32.toNat_shiftLeft, UInt8.toNat_toUInt32, UInt32.toNat_ofNat,
    Nat.shiftLeft_eq, h₀, h₁, h₂, h₃,
    Nat.reducePow, Nat.reduceMod]
  omega

theorem signExtend_toNat (b : UInt8) : (signExtend b).toNat = b.toNat + if 128 ≤ b.toNat then 2 ^ 32 - 256 else 0 := by
  have hb := b.toNat_lt
  have hmsb : b.toBitVec.msb = decide (128 ≤ b.toNat) := BitVec.msb_eq_decide _
  rw [signExtend, BitVec.toNat_signExtend, BitVec.toNat_setWidth, UInt8.toNat_toBitVec, hmsb]
  simp only [decide_eq_true_eq, Nat.reducePow]
  omega

theorem byteWord_toNat (b : UInt8) : (byteWord b).toNat = b.toNat := by
  have hb := b.toNat_lt
  rw [byteWord, BitVec.zeroExtend, BitVec.toNat_setWidth, UInt8.toNat_toBitVec]
  omega

theorem ofBitVec_toNat (x : Word) : (UInt32.ofBitVec x).toNat = x.toNat := rfl

/-- A number is read back by its bytes, where it has so few. -/
theorem signed8 {x : Word} (hlo : -128 ≤ x.toInt) (hhi : x.toInt < 128) :
    signExtend (UInt32.ofBitVec x).toUInt8 = x := by
  have hx := x.isLt
  obtain ⟨-, -, -, h₀⟩ := bytes_toNat (.ofBitVec x)
  rw [BitVec.toInt_eq_toNat_cond] at hlo hhi
  apply BitVec.eq_of_toNat_eq
  rw [signExtend_toNat, h₀, ofBitVec_toNat]
  split <;> omega

theorem signed16 {x : Word} (hlo : -32768 ≤ x.toInt) (hhi : x.toInt < 32768) :
    (signExtend (UInt32.ofBitVec x >>> 8).toUInt8 <<< 8) + byteWord (UInt32.ofBitVec x).toUInt8 = x := by
  have hx := x.isLt
  obtain ⟨-, -, h₁, h₀⟩ := bytes_toNat (.ofBitVec x)
  rw [BitVec.toInt_eq_toNat_cond] at hlo hhi
  apply BitVec.eq_of_toNat_eq
  rw [BitVec.toNat_add, BitVec.toNat_shiftLeft, signExtend_toNat, byteWord_toNat, h₀, h₁, ofBitVec_toNat,
    Nat.shiftLeft_eq]
  split <;> omega

theorem signed32 (x : Word) : (signExtend (UInt32.ofBitVec x >>> 24).toUInt8 <<< 24) +
    (byteWord (UInt32.ofBitVec x >>> 16).toUInt8 <<< 16) + (byteWord (UInt32.ofBitVec x >>> 8).toUInt8 <<< 8) +
    byteWord (UInt32.ofBitVec x).toUInt8 = x := by
  have hx := x.isLt
  obtain ⟨h₃, h₂, h₁, h₀⟩ := bytes_toNat (.ofBitVec x)
  apply BitVec.eq_of_toNat_eq
  simp only [BitVec.toNat_add, BitVec.toNat_shiftLeft, signExtend_toNat, byteWord_toNat, h₀, h₁, h₂, h₃, ofBitVec_toNat,
    Nat.shiftLeft_eq, Nat.reducePow]
  split <;> omega

/-- An odd word is the integer that it stands for. -/
theorem valLong_longVal {w : Word} (h : (Value.word w).isLong = true) : valLong (longVal w) = w := by
  have hw := w.isLt
  have hodd : w.toNat % 2 = 1 := by simpa [Value.isLong] using h
  apply BitVec.eq_of_toNat_eq
  rw [valLong, longVal, BitVec.toNat_add, BitVec.toNat_shiftLeft, BitVec.toNat_sshiftRight, Nat.shiftLeft_eq,
    Nat.shiftRight_eq_div_pow]
  have hone : (1 : Word).toNat = 1 := rfl
  rw [hone]
  split <;> omega

/-! ## What the functions read -/

variable {env : Env} {s : Intern} {rest : Bytes}

theorem read8u_eq {b : UInt8} (h : s.src = b :: rest) : read8u s = .ok (b, { s with src := rest }) := by
  show (match s.src with
    | [] => (wild : InternM UInt8)
    | b :: rest => do
      set { s with src := rest }
      return b) s = _
  rw [h]
  rfl

theorem read16u_eq {w : UInt32} (hw : w.toNat < 65536) (h : s.src = (w >>> 8).toUInt8 :: w.toUInt8 :: rest) :
    read16u s = .ok (w, { s with src := rest }) := by
  obtain ⟨-, -, h₁, h₀⟩ := bytes_toNat w
  have hval : ((w >>> 8).toUInt8.toUInt32 <<< 8) + w.toUInt8.toUInt32 = w := by
    apply UInt32.toNat_inj.mp
    simp only [UInt32.toNat_add, UInt32.toNat_shiftLeft, UInt8.toNat_toUInt32, UInt32.toNat_ofNat,
      Nat.shiftLeft_eq, h₀, h₁,
      Nat.reducePow, Nat.reduceMod]
    omega
  refine (bind_ok (read8u_eq h)).trans ((bind_ok (read8u_eq rfl)).trans ?_)
  rw [hval]
  rfl

theorem read32u_eq {w : UInt32} (h : s.src = wordBytes w ++ rest) : read32u s = .ok (w, { s with src := rest }) := by
  have hval := bigEndian_wordBytes w
  rw [wordBytes, bigEndian_eq] at hval
  refine (bind_ok (read8u_eq h)).trans ((bind_ok (read8u_eq rfl)).trans ((bind_ok (read8u_eq rfl)).trans
    ((bind_ok (read8u_eq rfl)).trans ?_)))
  rw [hval]
  rfl

theorem read8s_eq {x : Word} (hlo : -128 ≤ x.toInt) (hhi : x.toInt < 128)
    (h : s.src = (UInt32.ofBitVec x).toUInt8 :: rest) :
    read8s s = .ok (x, { s with src := rest }) := by
  refine (bind_ok (read8u_eq h)).trans ?_
  rw [signed8 hlo hhi]
  rfl

theorem read16s_eq {x : Word} (hlo : -32768 ≤ x.toInt) (hhi : x.toInt < 32768)
    (h : s.src = (UInt32.ofBitVec x >>> 8).toUInt8 :: (UInt32.ofBitVec x).toUInt8 :: rest) :
    read16s s = .ok (x, { s with src := rest }) := by
  refine (bind_ok (read8u_eq h)).trans ((bind_ok (read8u_eq rfl)).trans ?_)
  rw [signed16 hlo hhi]
  rfl

theorem read32s_eq {x : Word} (h : s.src = wordBytes (.ofBitVec x) ++ rest) :
    read32s s = .ok (x, { s with src := rest }) := by
  refine (bind_ok (read8u_eq h)).trans ((bind_ok (read8u_eq rfl)).trans ((bind_ok (read8u_eq rfl)).trans
    ((bind_ok (read8u_eq rfl)).trans ?_)))
  rw [signed32]
  rfl

theorem readblock_eq {p : Bytes} (h : s.src = p ++ rest) : readblock p.length s = .ok (p, { s with src := rest }) := by
  have hlength : ¬ s.src.length < p.length := by
    rw [h, List.length_append]
    omega
  show (if s.src.length < p.length then (wild : InternM Bytes) else do
    set { s with src := s.src.drop p.length }
    return s.src.take p.length) s = _
  rw [if_neg hlength, h, List.take_left, List.drop_left]
  rfl

/-! ## Which code is read -/

section Lead

variable {n : Nat} {code : UInt8} {Q : Value → Intern → Prop} {E : IoStop × Intern → Prop}

theorem internRec_int (hlo : 0x40 ≤ code) (hhi : code < 0x80) (h : s.src = code :: rest)
    (hk : Q (.word (valLong (BitVec.ofNat 32 (code.toNat % 64)))) { s with src := rest }) :
    Ends (internRec env (n + 1)) s Q E := by
  have hmask : (code &&& 0x3F).toNat = code.toNat % 64 := Nat.and_two_pow_sub_one_eq_mod code.toNat 6
  refine Ends.seq (read8u_eq h) ?_
  rw [if_pos hlo, if_neg (UInt8.not_le.mpr hhi), hmask]
  exact hk

theorem internRec_block (hlo : 0x80 ≤ code) (h : s.src = code :: rest)
    (hk : Ends (readBlock env (internRec env n) (UInt8.ofNat (code.toNat % 16)) (code.toNat / 16 % 8))
      { s with src := rest } Q E) :
    Ends (internRec env (n + 1)) s Q E := by
  have htag : code &&& 0xF = UInt8.ofNat (code.toNat % 16) := by
    apply UInt8.toNat_inj.mp
    have hmask : (code &&& 0xF).toNat = code.toNat % 16 := Nat.and_two_pow_sub_one_eq_mod code.toNat 4
    rw [hmask, UInt8.toNat_ofNat']
    omega
  have hsize : ((code >>> 4) &&& 0x7).toNat = code.toNat / 16 % 8 := by
    have hshift : (code >>> 4).toNat = code.toNat / 16 := by
      rw [UInt8.toNat_shiftRight, Nat.shiftRight_eq_div_pow]
      rfl
    rw [← hshift]
    exact Nat.and_two_pow_sub_one_eq_mod (code >>> 4).toNat 3
  have hint : (0x40 : UInt8) ≤ code := UInt8.le_trans (by decide) hlo
  refine Ends.seq (read8u_eq h) ?_
  rw [if_pos hint, if_pos hlo, htag, hsize]
  exact hk

theorem internRec_string (hlo : 0x20 ≤ code) (hhi : code < 0x40) (h : s.src = code :: rest)
    (hk : Ends (readString env (code.toNat % 32)) { s with src := rest } Q E) : Ends (internRec env (n + 1)) s Q E := by
  have hmask : (code &&& 0x1F).toNat = code.toNat % 32 := Nat.and_two_pow_sub_one_eq_mod code.toNat 5
  refine Ends.seq (read8u_eq h) ?_
  rw [if_neg (UInt8.not_le.mpr hhi), if_pos hlo, hmask]
  exact hk

theorem internRec_switch (hcode : code < 0x20) (h : s.src = code :: rest)
    (hk : Ends (internSwitch env (internRec env n) code.toNat) { s with src := rest } Q E) :
    Ends (internRec env (n + 1)) s Q E := by
  have hint : ¬ (0x40 : UInt8) ≤ code := UInt8.not_le.mpr (UInt8.lt_trans hcode (by decide))
  refine Ends.seq (read8u_eq h) ?_
  rw [if_neg hint, if_neg (UInt8.not_le.mpr hcode)]
  exact hk

end Lead

theorem internRec_long {n : Nat} {w : Word} (hw : (Value.word w).isLong = true) (h : s.src = longCode w ++ rest)
    {Q : Value → Intern → Prop} {E : IoStop × Intern → Prop} (hQ : Q (.word w) { s with src := rest }) :
    Ends (internRec env (n + 1)) s Q E := by
  have hval := valLong_longVal hw
  unfold longCode at h
  dsimp only at h
  split at h
  · rename_i hsmall
    obtain ⟨hlo, hhi⟩ := hsmall
    have hcode : (UInt8.ofNat (0x40 + (longVal w).toInt.toNat)).toNat = 0x40 + (longVal w).toInt.toNat := by
      rw [UInt8.toNat_ofNat']
      omega
    have hword : BitVec.ofNat 32 ((0x40 + (longVal w).toInt.toNat) % 64) = longVal w := by
      apply BitVec.eq_of_toNat_eq
      rw [BitVec.toInt_eq_toNat_cond] at hlo hhi ⊢
      rw [BitVec.toNat_ofNat]
      split at hlo <;> split <;> omega
    refine internRec_int (UInt8.le_iff_toNat_le.mpr ?_) (UInt8.lt_iff_toNat_lt.mpr ?_) h ?_
    · rw [hcode]
      exact Nat.le_add_right _ _
    · rw [hcode]
      show _ < 128
      omega
    · rw [hcode, hword, hval]
      exact hQ
  split at h
  · rename_i hbyte
    refine internRec_switch (by decide) h (Ends.seq (read8s_eq hbyte.1 hbyte.2 rfl) ?_)
    rw [hval]
    exact hQ
  split at h
  · rename_i hshort
    refine internRec_switch (by decide) h (Ends.seq (read16s_eq hshort.1 hshort.2 rfl) ?_)
    rw [hval]
    exact hQ
  · refine internRec_switch (by decide) h (Ends.seq (read32s_eq rfl) ?_)
    rw [hval]
    exact hQ

/-! ## The copy -/

/-- A value in the copy, where the objects are made from `base` on. -/
def image (h : Heap) (all : List Nat) (base : Nat) (v : Value) : Value :=
  match follow h v with
  | .block p => .block (base + all.idxOf p)
  | .inside p ofs => .inside (base + all.idxOf p) ofs
  | v => v

/-- A block in the copy. -/
def copy (color : Color) (h : Heap) (all : List Nat) (base p : Nat) : Block :=
  match h[p]? with
  | some b => { tag := b.tag, color, fields := b.fields.map (image h all base) }
  | none => { tag := 0, color, fields := [] }

/-- The objects `objs` have been made, of `all`. -/
structure Ready (h : Heap) (all : List Nat) (base : Nat) (objs : List Nat) (s : Intern) : Prop where
  heap : s.heap.length = base + objs.length
  dest : s.dest = (objs.map (blockWords h)).sum
  room : (all.map (blockWords h)).sum ≤ s.room
  table : all ≠ [] → s.table = some all.length
  objs : s.objs = (List.range objs.length).map fun k => .block (base + k)

/-- The objects `new` have been made in addition, and `rest` is left. -/
structure Done (env : Env) (h : Heap) (all : List Nat) (base : Nat) (objs new : List Nat) (s : Intern) (rest : Bytes)
    (s' : Intern) : Prop where
  src : s'.src = rest
  ready : Ready h all base (objs ++ new) s'
  heap : s'.heap = s.heap ++ new.map (copy env.color h all base)

variable {h : Heap} {all objs : List Nat} {base : Nat} {p : Nat} {b : Block} {E : IoStop × Intern → Prop}

theorem Ready.congr (hs : Ready h all base objs s) (rest : Bytes) : Ready h all base objs { s with src := rest } :=
  ⟨hs.heap, hs.dest, hs.room, hs.table, hs.objs⟩

theorem Ready.done (hs : Ready h all base objs s) : Done env h all base objs [] s rest { s with src := rest } :=
  ⟨rfl, by rw [List.append_nil]; exact hs.congr rest, (List.append_nil _).symm⟩

theorem internRecord_eq {size : Nat} (htable : s.table = some size) (hlt : s.objs.length < size) (v : Value) :
    internRecord v s = .ok ((), { s with objs := s.objs ++ [v] }) := by
  obtain ⟨src, heap, dest, room, objs, table⟩ := s
  cases htable
  show (if objs.length < size then (set (⟨src, heap, dest, room, objs ++ [v], some size⟩ : Intern) : InternM PUnit) else
    wild) _ = _
  rw [if_pos hlt]
  rfl

theorem Ready.make (hs : Ready h all base objs s) {more : List Nat} (hall : objs ++ p :: more = all)
    (hb : h[p]? = some b)
    (hsize : b.fields.length ≤ maxWosize) {tag : UInt8} {fields : List Value} (hlen : fields.length = b.fields.length) :
    Ends (internBlock env tag fields) s (fun v s' => v = .block (base + objs.length) ∧ s'.src = s.src ∧
      s'.heap = s.heap ++ [{ tag, color := env.color, fields }] ∧ Ready h all base (objs ++ [p]) s') E := by
  have hwords := blockWords_eq hb
  have hroom : s.dest + 1 + fields.length ≤ s.room := by
    have hsum := hs.room
    rw [← hall, List.map_append, List.map_cons, List.sum_append, List.sum_cons, ← hs.dest] at hsum
    omega
  have hlt : s.objs.length < all.length := by
    rw [← hall, hs.objs, List.length_map, List.length_range, List.length_append, List.length_cons]
    omega
  have htable : s.table = some all.length := hs.table (by rw [← hall]; simp)
  have hrecord := internRecord_eq (s := { s with
    heap := s.heap ++ [({ tag, color := env.color, fields } : Block)], dest := s.dest + 1 + fields.length })
    htable hlt (.block s.heap.length)
  show Ends (if s.room < s.dest + 1 + fields.length ∨ maxWosize < fields.length then _ else _) s _ _
  rw [if_neg (by omega)]
  refine Ends.seq (a := ()) rfl (Ends.seq hrecord ⟨by rw [hs.heap], rfl, rfl, ?_⟩)
  refine ⟨?_, ?_, hs.room, hs.table, ?_⟩
  · show (s.heap ++ [_]).length = _
    rw [List.length_append, List.length_append, hs.heap]
    exact Nat.add_assoc _ _ _
  · show s.dest + 1 + fields.length = _
    rw [List.map_append, List.sum_append, hs.dest, hlen, List.map_singleton, List.sum_singleton, hwords, Nat.add_assoc]
  · show s.objs ++ [Value.block s.heap.length] = _
    rw [List.length_append, List.length_singleton, List.range_succ, List.map_append, ← hs.objs, hs.heap]
    rfl

/-- The words of a block are the same in the copy. -/
theorem image_words {fields : List Value} (hwords : ∀ v ∈ fields, ∃ w, v = .word w) :
    fields.map (image h all base) = fields := by
  refine (List.map_congr_left (g := id) fun v hv => ?_).trans (List.map_id fields)
  obtain ⟨w, rfl⟩ := hwords v hv
  rfl

theorem copy_eq {color : Color} (hb : h[p]? = some b) :
    copy color h all base p = { tag := b.tag, color, fields := b.fields.map (image h all base) } := by
  rw [copy, hb]

/-- A block whose contents are no values is made at once. -/
theorem Ready.contents (hs : Ready h all base objs s) {more : List Nat} (hall : objs ++ p :: more = all)
    (hb : h[p]? = some b)
    (hsize : b.fields.length ≤ maxWosize) (hwords : ∀ v ∈ b.fields, ∃ w, v = .word w) (hsrc : s.src = rest) :
    Ends (internBlock env b.tag b.fields) s
      (fun v s' => v = .block (base + objs.length) ∧ Done env h all base objs [p] s rest s') E := by
  refine (hs.make hall hb hsize rfl).mono fun v s' hv => ?_
  obtain ⟨rfl, hsrc', hheap, hready⟩ := hv
  refine ⟨rfl, hsrc'.trans hsrc, hready, ?_⟩
  rw [hheap, List.map_singleton, copy_eq hb, image_words hwords]

theorem words_map (ws : List Word) : ∀ v ∈ ws.map Value.word, ∃ w, v = .word w := by
  intro v hv
  obtain ⟨w, -, rfl⟩ := List.mem_map.mp hv
  exact ⟨w, rfl⟩

theorem byte_ofNat {n : Nat} (hn : n < 256) : (UInt32.ofNat n).toUInt8.toNat = n := by
  rw [UInt32.toNat_toUInt8, UInt32.toNat_ofNat']
  omega

theorem readString_eq (hs : Ready h all base objs s) {more : List Nat} (hall : objs ++ p :: more = all) {color : Color}
    {str : Bytes} (hb : h[p]? = some { tag := Tag.string, color, fields := stringFields str })
    (hsize : (stringFields str).length ≤ maxWosize) (hsrc : s.src = str ++ rest) :
    Ends (readString env str.length) s
      (fun v s' => v = .block (base + objs.length) ∧ Done env h all base objs [p] s rest s') E := by
  refine Ends.seq (readblock_eq hsrc) ?_
  refine ((hs.congr rest).contents hall hb hsize (stringFields_spec str).2.2.2 rfl).mono fun v s' hv => ?_
  exact ⟨hv.1, hv.2.src, hv.2.ready, hv.2.heap⟩

theorem readDoubles_eq (hs : Ready h all base objs s) {more : List Nat} (hall : objs ++ p :: more = all)
    (hb : h[p]? = some b)
    (hsize : b.fields.length ≤ maxWosize) {n : Nat} (hlength : b.fields.length = n * doubleWosize)
    (hwords : ∀ v ∈ b.fields, ∃ w, v = .word w) (hsrc : s.src = blockBytes b.fields ++ rest) :
    Ends (readDoubles env b.tag true n) s
      (fun v s' => v = .block (base + objs.length) ∧ Done env h all base objs [p] s rest s') E := by
  have hlen : (blockBytes b.fields).length = 8 * n := by
    rw [blockBytes_length, hlength, doubleWosize]
    omega
  unfold readDoubles
  rw [← hlen]
  refine Ends.seq (readblock_eq hsrc) ?_
  rw [if_pos rfl, packFields_blockBytes hwords]
  refine ((hs.congr rest).contents hall hb hsize hwords rfl).mono fun v s' hv => ?_
  exact ⟨hv.1, hv.2.src, hv.2.ready, hv.2.heap⟩

theorem readCustom_eq (hs : Ready h all base objs s) {more : List Nat} (hall : objs ++ p :: more = all) {color : Color}
    {a : Word} {ws : List Word} {ident data : Bytes} (hser : Serializes env a ws ident data)
    (hb : h[p]? = some { tag := Tag.custom, color, fields := .word a :: ws.map .word })
    (hsize : (Value.word a :: ws.map .word).length ≤ maxWosize) (hsrc : s.src = (ident ++ [0]) ++ data ++ rest) :
    Ends (readCustom env) s (fun v s' => v = .block (base + objs.length) ∧
      Done env h all base objs [p] s rest s') E := by
  obtain ⟨ops, size, hops, hlength, hread⟩ := hser.read
  have hskip : (s.src.dropWhile (· ≠ 0)).drop 1 = data ++ rest := by
    have hident : ∀ c ∈ ident, decide (c ≠ 0) = true := fun c hc => decide_eq_true fun h0 => hser.terminated (h0 ▸ hc)
    rw [hsrc, List.append_assoc, List.append_assoc, List.dropWhile_append_of_pos hident]
    rfl
  have hfind : camlFindCustomOperations env s.src env.registered = some (some a) := by
    rw [hsrc, List.append_assoc (ident ++ [0])]
    exact hser.found _
  show Ends (match camlFindCustomOperations env s.src env.registered with
    | none => wild
    | some none => raise (.failure "input_value: unknown custom block identifier")
    | some (some a) => _) s _ _
  rw [hfind]
  show Ends (match env.customAt a with | none => _ | some ops => _) s _ _
  rw [hops]
  show Ends (match ops.deserialize ((s.src.dropWhile (· ≠ 0)).drop 1) with
    | .error msg => _
    | .ok (ws, size, rest) => _) s _ _
  rw [hskip, hread]
  refine Ends.seq (a := ()) rfl ?_
  rw [if_pos hlength.symm]
  have hwords : ∀ v ∈ Value.word a :: ws.map .word, ∃ w, v = .word w :=
    List.forall_mem_cons.mpr ⟨⟨a, rfl⟩, words_map ws⟩
  refine ((hs.congr rest).contents hall hb hsize hwords rfl).mono fun v s' hv => ?_
  exact ⟨hv.1, hv.2.src, hv.2.ready, hv.2.heap⟩

/-- A block whose contents are no values is read. -/
theorem Contents.read {bytes : Bytes} {words n : Nat} (hc : Contents env b bytes words) (hb : h[p]? = some b)
    (hsize : b.fields.length ≤ maxWosize) (hs : Ready h all base objs s) {more : List Nat}
    (hall : objs ++ p :: more = all)
    (hsrc : s.src = bytes ++ rest) :
    Ends (internRec env (n + 1)) s (fun v s' => v = .block (base + objs.length) ∧
      Done env h all base objs [p] s rest s') E := by
  -- the code is passed by, and what follows is read
  have hafter : ∀ {m : InternM Value} {src : Bytes},
      Ends m { s with src } (fun v s' => v = .block (base + objs.length) ∧
        Done env h all base objs [p] { s with src } rest s') E →
      Ends m { s with src } (fun v s' => v = .block (base + objs.length) ∧ Done env h all base objs [p] s rest s') E :=
    fun hm => hm.mono fun v s' hv => ⟨hv.1, hv.2.src, hv.2.ready, hv.2.heap⟩
  cases hc with
  | string =>
    rename_i color str
    have hlen := (stringFields_spec str).1
    have hmax : (str.length + 4) / 4 ≤ maxWosize := by
      rw [← hlen]
      exact hsize
    unfold stringCode at hsrc
    split at hsrc
    · rename_i hsmall
      have hcode : (UInt8.ofNat (0x20 + str.length)).toNat = 0x20 + str.length := by
        rw [UInt8.toNat_ofNat']
        omega
      refine internRec_string (UInt8.le_iff_toNat_le.mpr ?_) (UInt8.lt_iff_toNat_lt.mpr ?_) hsrc ?_
      · rw [hcode]
        exact Nat.le_add_right _ _
      · rw [hcode]
        show _ < 64
        omega
      · have hmod : (0x20 + str.length) % 32 = str.length := by omega
        rw [hcode, hmod]
        exact hafter (readString_eq (hs.congr _) hall hb hsize rfl)
    split at hsrc
    · rename_i hbyte
      refine internRec_switch (by decide) hsrc (Ends.seq (read8u_eq rfl) ?_)
      rw [byte_ofNat hbyte]
      exact hafter (readString_eq (hs.congr _) hall hb hsize rfl)
    · have hword : (UInt32.ofNat str.length).toNat = str.length := by
        rw [UInt32.toNat_ofNat', Nat.mod_eq_of_lt]
        simp only [maxWosize] at hmax
        omega
      rw [code32, List.cons_append, List.cons_append, List.append_assoc] at hsrc
      refine internRec_switch (by decide) hsrc (Ends.seq (read32u_eq rfl) ?_)
      rw [hword]
      exact hafter (readString_eq (hs.congr _) hall hb hsize rfl)
  | double hlength hwords =>
    rename_i color fields
    exact internRec_switch (by decide) hsrc (hafter (readDoubles_eq (hs.congr _) hall hb hsize hlength hwords rfl))
  | doubles hn hlength hwords =>
    rename_i color fields k
    unfold doubleArrayCode at hsrc
    split at hsrc
    · rename_i hbyte
      refine internRec_switch (by decide) hsrc (Ends.seq (read8u_eq rfl) ?_)
      rw [byte_ofNat hbyte]
      exact hafter (readDoubles_eq (hs.congr _) hall hb hsize hlength hwords rfl)
    · have hword : (UInt32.ofNat k).toNat = k := by
        rw [UInt32.toNat_ofNat', Nat.mod_eq_of_lt]
        have hmax : k * doubleWosize ≤ maxWosize := by
          rw [← hlength]
          exact hsize
        simp only [maxWosize, doubleWosize] at hmax
        omega
      rw [code32, List.cons_append, List.cons_append, List.append_assoc] at hsrc
      refine internRec_switch (by decide) hsrc (Ends.seq (read32u_eq rfl) ?_)
      rw [hword]
      exact hafter (readDoubles_eq (hs.congr _) hall hb hsize hlength hwords rfl)
  | custom hser =>
    exact internRec_switch (by decide) hsrc (hafter (readCustom_eq (hs.congr _) hall hser hb hsize (by simp)))

/-! ## Values are read back -/

theorem idxOf_next {more : List Nat} (hnodup : all.Nodup) (hall : objs ++ p :: more = all) :
    all.idxOf p = objs.length := by
  have hp : p ∉ objs := by
    rw [← hall] at hnodup
    exact fun hmem => (List.nodup_append.mp hnodup).2.2 p hmem p List.mem_cons_self rfl
  rw [← hall, List.idxOf_append_of_notMem hp, List.idxOf_cons_self, Nat.add_zero]

theorem idxOf_seen {more : List Nat} {k : Nat} (hnodup : all.Nodup) (hall : objs ++ more = all)
    (hk : objs[k]? = some p) :
    all.idxOf p = k := by
  obtain ⟨hlt, hget⟩ := List.getElem?_eq_some_iff.mp hk
  have hlt' : k < all.length := by
    rw [← hall, List.length_append]
    omega
  have hget' : all[k] = p := by
    simp only [← hall, List.getElem_append_left hlt, hget]
  rw [← hget', hnodup.idxOf_getElem]

theorem image_block (hfollow : follow h (.block p) = .block p) :
    image h all base (.block p) = .block (base + all.idxOf p) := by
  rw [image, hfollow]

theorem readShared_eq (hs : Ready h all base objs s) {k : Nat} (hk : k < objs.length) :
    readShared (objs.length - k) s = .ok (.block (base + k), s) := by
  have hlength : s.objs.length = objs.length := by rw [hs.objs, List.length_map, List.length_range]
  have hback : objs.length - (objs.length - k) = k := by omega
  have hget : s.objs.getD (objs.length - (objs.length - k)) (.word 0) = .block (base + k) := by
    rw [hback, hs.objs, List.getD_eq_getElem?_getD, List.getElem?_map, List.getElem?_range hk]
    rfl
  show (if objs.length - k = 0 ∨ s.objs.length < objs.length - k then (wild : InternM Value)
    else pure (s.objs.getD (s.objs.length - (objs.length - k)) (.word 0))) s = _
  rw [if_neg (by omega), hlength, hget]
  rfl

theorem modify_middle (H N : List Block) (b : Block) (f : Block → Block) :
    (H ++ b :: N).modify H.length f = H ++ f b :: N := by
  induction H with
  | nil => rfl
  | cons a H ih =>
    show a :: (H ++ b :: N).modify H.length f = _
    rw [ih]
    rfl

theorem set_middle (done rest : List Value) (v f : Value) :
    (done ++ v :: rest).set done.length f = done ++ [f] ++ rest := by
  rw [List.set_append_right _ _ (Nat.le_refl _), Nat.sub_self, List.set_cons_zero, List.append_assoc]
  rfl

theorem atom_read {n : Nat} {tag : UInt8} (hs : Ready h all base objs s)
    (hsrc : s.src = atomCode { wosize := 0, color := .white, tag } ++ rest) :
    Ends (internRec env (n + 1)) s (fun v s' => v = .atom tag ∧ Done env h all base objs [] s rest s') E := by
  unfold atomCode at hsrc
  split at hsrc
  · rename_i htag
    have hlt : tag.toNat < 16 := htag
    have hcode : (0x80 + tag).toNat = 128 + tag.toNat := by
      rw [UInt8.toNat_add]
      show (128 + tag.toNat) % 256 = _
      omega
    have hsize : (0x80 + tag).toNat / 16 % 8 = 0 := by omega
    have hmod : UInt8.ofNat ((0x80 + tag).toNat % 16) = tag := by
      rw [← UInt8.toNat_inj, UInt8.toNat_ofNat']
      omega
    refine internRec_block (UInt8.le_iff_toNat_le.mpr ?_) hsrc ?_
    · rw [hcode]
      exact Nat.le_add_right _ _
    · rw [hsize, hmod]
      exact ⟨rfl, hs.done⟩
  · have hlt := tag.toNat_lt
    have hword : (Header.word { wosize := 0, color := .white, tag }).toNat = tag.toNat := by
      show (UInt32.ofNat (0 * 1024 + 0 * 256 + tag.toNat)).toNat = _
      rw [UInt32.toNat_ofNat']
      omega
    have hsize : tag.toNat / 1024 = 0 := by omega
    refine internRec_switch (by decide) hsrc (Ends.seq (read32u_eq rfl) ?_)
    rw [hword, hsize, UInt8.ofNat_toNat]
    exact ⟨rfl, hs.done⟩

/-- The header of a block is read. -/
theorem blockCode_read {n : Nat} {hd : Header} (hsize : hd.wosize ≤ maxWosize) (hsrc : s.src = blockCode hd ++ rest)
    {Q : Value → Intern → Prop} (hk : Ends (readBlock env (internRec env n) hd.tag hd.wosize)
      { s with src := rest } Q E) :
    Ends (internRec env (n + 1)) s Q E := by
  obtain ⟨wosize, color, tag⟩ := hd
  have hlt := tag.toNat_lt
  unfold blockCode at hsrc
  dsimp only at hsrc hsize hk
  split at hsrc
  · rename_i hsmall
    have htag : tag.toNat < 16 := hsmall.1
    have hcode : (UInt8.ofNat (0x80 + tag.toNat + wosize * 16)).toNat = 0x80 + tag.toNat + wosize * 16 := by
      rw [UInt8.toNat_ofNat']
      omega
    have hwosize : (0x80 + tag.toNat + wosize * 16) / 16 % 8 = wosize := by omega
    have hmod : UInt8.ofNat ((0x80 + tag.toNat + wosize * 16) % 16) = tag := by
      rw [← UInt8.toNat_inj, UInt8.toNat_ofNat']
      omega
    refine internRec_block (UInt8.le_iff_toNat_le.mpr ?_) hsrc ?_
    · rw [hcode]
      show 128 ≤ _
      omega
    · rw [hcode, hwosize, hmod]
      exact hk
  · have hword : (Header.word (Header.white { wosize, color, tag })).toNat = wosize * 1024 + tag.toNat := by
      show (UInt32.ofNat (wosize * 1024 + 0 * 256 + tag.toNat)).toNat = _
      simp only [maxWosize] at hsize
      rw [UInt32.toNat_ofNat']
      omega
    have hwosize : (wosize * 1024 + tag.toNat) / 1024 = wosize := by omega
    have htag : UInt8.ofNat (wosize * 1024 + tag.toNat) = tag := by
      rw [← UInt8.toNat_inj, UInt8.toNat_ofNat']
      omega
    refine internRec_switch (by decide) hsrc (Ends.seq (read32u_eq rfl) ?_)
    rw [hword, hwosize, htag]
    exact hk

theorem shared_read {n k : Nat} (hsmall : all.length < 2 ^ 32) (hs : Ready h all base objs s) {more : List Nat}
    (hall : objs ++ more = all) (hk : k < objs.length) (hsrc : s.src = sharedCode (objs.length - k) ++ rest) :
    Ends (internRec env (n + 1)) s (fun v s' => v = .block (base + k) ∧ Done env h all base objs [] s rest s') E := by
  have hd : objs.length - k < 2 ^ 32 := by
    rw [← hall, List.length_append] at hsmall
    omega
  have hword : (UInt32.ofNat (objs.length - k)).toNat = objs.length - k := by
    rw [UInt32.toNat_ofNat']
    omega
  have hread : Ends (readShared (objs.length - k)) { s with src := rest }
      (fun v s' => v = .block (base + k) ∧ Done env h all base objs [] s rest s') E :=
    .of_ok (readShared_eq (hs.congr _) hk) ⟨rfl, hs.done⟩
  unfold sharedCode at hsrc
  split at hsrc
  · rename_i hbyte
    refine internRec_switch (by decide) hsrc (Ends.seq (read8u_eq rfl) ?_)
    rw [byte_ofNat hbyte]
    exact hread
  split at hsrc
  · rename_i hshort
    refine internRec_switch (by decide) hsrc (Ends.seq (read16u_eq (by rw [hword]; exact hshort) rfl) ?_)
    rw [hword]
    exact hread
  · refine internRec_switch (by decide) hsrc (Ends.seq (read32u_eq rfl) ?_)
    rw [hword]
    exact hread

/-- A value is stored into a field of a block that has been made. -/
theorem internStore_eq {H N : List Block} {tag : UInt8} {color : Color} {done fields : List Value} {f v : Value}
    (hheap : s.heap = H ++ { tag, color, fields := done ++ v :: fields } :: N) :
    internStore (.block H.length) done.length f s =
      .ok ((), { s with heap := H ++ { tag, color, fields := done ++ [f] ++ fields } :: N }) := by
  show Except.ok
    ((), { s with heap := s.heap.modify H.length fun b => { b with fields := b.fields.set done.length f } }) = _
  rw [hheap, modify_middle]
  dsimp only
  rw [set_middle]

mutual

/-- The code of a value is read as its image, by a depth that is more than its length. -/
theorem Code.read (hnodup : all.Nodup) (hsmall : all.length < 2 ^ 32) : ∀ {objs v bytes new words},
    Code env h objs v bytes new words → ∀ {n : Nat} {s : Intern} {rest : Bytes} {more : List Nat}, bytes.length < n →
      s.src = bytes ++ rest → Ready h all base objs s → objs ++ new ++ more = all →
      Ends (internRec env n) s (fun v' s' => v' = image h all base v ∧ Done env h all base objs new s rest s') E
  | _, _, _, _, _, .long hw, n + 1, s, rest, _, _, hsrc, hs, _ => internRec_long hw hsrc ⟨rfl, hs.done⟩
  | _, _, _, _, _, .code, n + 1, s, rest, _, _, hsrc, hs, _ => by
    rw [code32, List.cons_append, List.cons_append, List.append_assoc] at hsrc
    refine internRec_switch (by decide) hsrc (Ends.seq (read32u_eq rfl) ?_)
    have hsum := readblock_eq (s := { s with src := env.checksum ++ rest }) (p := env.checksum) rfl
    rw [env.digest] at hsum
    refine Ends.seq hsum ?_
    rw [if_neg (not_not.mpr rfl)]
    exact ⟨rfl, hs.done⟩
  | _, _, _, _, _, .atom, n + 1, s, rest, _, _, hsrc, hs, _ => atom_read hs hsrc
  | _, _, _, _, _, @Code.inside _ _ _ _ ofs bytes _ _ hofs hfollow hc, n + 1, s, rest, _, hn, hsrc, hs, hall => by
    rw [code32, List.cons_append, List.cons_append, List.append_assoc] at hsrc
    have hdepth : bytes.length < n := by
      have hlead : (code32 0x11 (.ofNat (4 * ofs))).length = 5 := rfl
      rw [List.length_append] at hn
      omega
    have hword : (UInt32.ofNat (4 * ofs)).toNat / 4 = ofs := by
      simp only [maxWosize] at hofs
      rw [UInt32.toNat_ofNat']
      omega
    refine internRec_switch (by decide) hsrc (Ends.seq (read32u_eq rfl) ?_)
    refine (Code.read hnodup hsmall hc hdepth rfl (hs.congr _) hall).bind fun v s' hv => ?_
    obtain ⟨rfl, hdone⟩ := hv
    rw [image_block hfollow, hword]
    exact ⟨rfl, hdone.src, hdone.ready, hdone.heap⟩
  | _, _, _, _, _, @Code.forward _ _ _ p f _ _ _ hfollow hend hc, n + 1, s, rest, _, hn, hsrc, hs, hall => by
    have himage : image h all base (.block p) = image h all base f := by rw [image, image, hfollow, hend]
    rw [himage]
    exact Code.read hnodup hsmall hc hn hsrc hs hall
  | _, _, _, _, _, .shared hfollow hk, n + 1, s, rest, _, _, hsrc, hs, hall => by
    rw [List.append_nil] at hall
    rw [image_block hfollow, idxOf_seen hnodup hall hk]
    exact shared_read hsmall hs hall (List.getElem?_eq_some_iff.mp hk).1 hsrc
  | _, _, _, _, _, @Code.bytes _ _ objs p _ _ _ hfollow _ hb hsize hcontents, n + 1, s, rest, more,
      _, hsrc, hs, hall => by
    have hall' : objs ++ p :: more = all := by rw [← hall, List.append_assoc, List.singleton_append]
    rw [image_block hfollow, idxOf_next hnodup hall']
    exact hcontents.read hb hsize hs hall' hsrc
  | _, _, _, _, _, @Code.block _ _ objs p b bytes new _ hfollow _ hb hscan hc, n + 1, s, rest,
      more, hn, hsrc, hs, hall => by
    have hall' : objs ++ p :: (new ++ more) = all := by rw [← hall, List.append_assoc]; rfl
    have hall₁ : objs ++ [p] ++ new ++ more = all := by
      simp only [← hall', List.append_assoc, List.cons_append, List.nil_append]
    have hpos := List.length_pos_of_ne_nil hscan.some
    have hdepth : bytes.length < n := by
      have hlead : 0 < (blockCode { wosize := b.fields.length, color := b.color, tag := b.tag }).length := by
        unfold blockCode
        split <;> exact Nat.succ_pos _
      rw [List.length_append] at hn
      omega
    rw [image_block hfollow, idxOf_next hnodup hall']
    rw [List.append_assoc] at hsrc
    refine blockCode_read hscan.size hsrc ?_
    show Ends (if b.fields.length = 0 then _ else _) { s with src := bytes ++ rest } _ _
    rw [if_neg (by omega)]
    have hlen : (List.replicate b.fields.length (Value.word 0)).length = b.fields.length := List.length_replicate
    refine ((hs.congr (bytes ++ rest)).make hall' hb hscan.size hlen).bind fun v s₁ hv => ?_
    obtain ⟨rfl, hsrc₁, hheap₁, hs₁⟩ := hv
    have hheap₂ : s₁.heap = s.heap ++ { tag := b.tag, color := env.color,
                                        fields := [] ++ List.replicate b.fields.length (Value.word 0) } :: [] := hheap₁
    rw [List.range_eq_range', ← hs.heap]
    refine (Codes.read hnodup hsmall hc hdepth hsrc₁ hs₁ hall₁ hheap₂).bind fun _ s' h' => ?_
    obtain ⟨hsrc', hs', hheap'⟩ := h'
    refine ⟨rfl, hsrc', ?_, ?_⟩
    · rwa [List.append_assoc] at hs'
    · rw [hheap', List.map_cons, copy_eq hb]
      rfl

/-- The values in a row are read into the fields of a block. -/
theorem Codes.read (hnodup : all.Nodup) (hsmall : all.length < 2 ^ 32) : ∀ {objs vs bytes new words},
    Codes env h objs vs bytes new words → ∀ {n : Nat} {s : Intern} {rest : Bytes} {more : List Nat} {H N : List Block}
      {tag : UInt8} {done : List Value}, bytes.length < n → s.src = bytes ++ rest → Ready h all base objs s →
      objs ++ new ++ more = all →
      s.heap = H ++ { tag, color := env.color, fields := done ++ List.replicate vs.length (.word 0) } :: N →
      Ends ((List.range' done.length vs.length).forM fun i => do
        let f ← internRec env n
        internStore (.block H.length) i f) s (fun _ s' => s'.src = rest ∧ Ready h all base (objs ++ new) s' ∧
          s'.heap = H ++ { tag, color := env.color, fields := done ++ vs.map (image h all base) } ::
            (N ++ new.map (copy env.color h all base))) E
  | _, _, _, _, _, .nil, n, s, rest, _, H, N, tag, done, _, hsrc, hs, _, hheap => by
    rw [List.append_nil]
    exact ⟨hsrc, hs, by
      rw [hheap]
      simp only [List.length_nil, List.replicate_zero, List.map_nil, List.append_nil]⟩
  | _, _, _, _, _, @Codes.cons _ _ objs v vs bytes bytes' new new' _ _ hv hvs, n, s, rest, more, H, N, tag, done, hn,
      hsrc, hs, hall, hheap => by
    rw [List.length_append] at hn
    rw [List.append_assoc] at hsrc
    have hall₁ : objs ++ new ++ (new' ++ more) = all := by simp only [← hall, List.append_assoc]
    have hall₂ : objs ++ new ++ new' ++ more = all := by simp only [← hall, List.append_assoc]
    have hbody : Ends (do
        let f ← internRec env n
        internStore (.block H.length) done.length f) s
        (fun _ s' => s'.src = bytes' ++ rest ∧ Ready h all base (objs ++ new) s' ∧
          s'.heap = H ++ { tag, color := env.color,
                           fields := (done ++ [image h all base v]) ++ List.replicate vs.length (.word 0) } ::
            (N ++ new.map (copy env.color h all base))) E := by
      refine (Code.read hnodup hsmall hv (by omega) hsrc hs hall₁).bind fun f s₁ hf => ?_
      obtain ⟨rfl, hsrc₁, hs₁, hheap₁⟩ := hf
      have hheap₁' : s₁.heap = H ++ { tag, color := env.color,
                                      fields := done ++ Value.word 0 :: List.replicate vs.length (.word 0) } ::
          (N ++ new.map (copy env.color h all base)) := by
        rw [hheap₁, hheap, List.append_assoc]
        rfl
      refine .of_ok (internStore_eq hheap₁') ⟨hsrc₁, ⟨?_, hs₁.dest, hs₁.room, hs₁.table, hs₁.objs⟩, rfl⟩
      rw [← hs₁.heap, hheap₁']
      simp only [List.length_append, List.length_cons]
    show Ends ((List.range' done.length (vs.length + 1)).forM _) s _ _
    rw [List.range'_succ]
    refine hbody.bind fun _ s₁ h₁ => ?_
    obtain ⟨hsrc₁, hs₁, hheap₁⟩ := h₁
    have hnext : done.length + 1 = (done ++ [image h all base v]).length := by
      rw [List.length_append, List.length_singleton]
    rw [hnext]
    refine (Codes.read hnodup hsmall hvs (by omega) hsrc₁ hs₁ hall₂ hheap₁).mono fun _ s' h' => ?_
    obtain ⟨hsrc', hs', hheap'⟩ := h'
    refine ⟨hsrc', ?_, ?_⟩
    · rwa [List.append_assoc] at hs'
    · simp only [hheap', List.map_cons, List.map_append, List.append_assoc, List.singleton_append]

end

/-! ## What is copied -/

/-- What a value stands for is made with the objects `objs`. -/
def Covers (h : Heap) (objs : List Nat) (v : Value) : Prop :=
  match follow h v with
  | .block p => p ∈ objs
  | .inside p _ => p ∈ objs
  | _ => True

/-- A block that is not an atom, with fields that are made with the objects `objs`. -/
def Whole (h : Heap) (objs : List Nat) (p : Nat) : Prop :=
  ∃ b, h[p]? = some b ∧ b.fields ≠ [] ∧ ∀ f ∈ b.fields, Covers h objs f

theorem Covers.mono {objs' : List Nat} {v : Value} (hv : Covers h objs v) (hsub : ∀ p ∈ objs, p ∈ objs') :
    Covers h objs' v := by
  unfold Covers at hv ⊢
  split at hv
  · exact hsub _ hv
  · exact hsub _ hv
  · trivial

theorem Whole.mono {objs' : List Nat} (hp : Whole h objs p) (hsub : ∀ p ∈ objs, p ∈ objs') : Whole h objs' p := by
  obtain ⟨b, hb, hne, hfields⟩ := hp
  exact ⟨b, hb, hne, fun f hf => (hfields f hf).mono hsub⟩

theorem covers_block (hfollow : follow h (.block p) = .block p) (hp : p ∈ objs) : Covers h objs (.block p) := by
  rw [Covers, hfollow]
  exact hp

theorem Contents.words_only {bytes : Bytes} {words : Nat} (hc : Contents env b bytes words) :
    ∀ v ∈ b.fields, ∃ w, v = .word w := by
  cases hc with
  | string => exact (stringFields_spec _).2.2.2
  | double _ hwords => exact hwords
  | doubles _ _ hwords => exact hwords
  | custom => exact List.forall_mem_cons.mpr ⟨⟨_, rfl⟩, words_map _⟩

mutual

/-- The code of a value makes all that it leads to. -/
theorem Code.covers : ∀ {objs v bytes new words}, Code env h objs v bytes new words →
    Covers h (objs ++ new) v ∧ ∀ p ∈ new, Whole h (objs ++ new) p
  | _, _, _, _, _, .long _ => ⟨trivial, fun _ hp => absurd hp List.not_mem_nil⟩
  | _, _, _, _, _, .code => ⟨trivial, fun _ hp => absurd hp List.not_mem_nil⟩
  | _, _, _, _, _, .atom => ⟨trivial, fun _ hp => absurd hp List.not_mem_nil⟩
  | _, _, _, _, _, .inside _ hfollow hc => by
    obtain ⟨hroot, hnew⟩ := hc.covers
    rw [Covers, hfollow] at hroot
    exact ⟨hroot, hnew⟩
  | _, _, _, _, _, .forward hfollow hend hc => by
    obtain ⟨hroot, hnew⟩ := hc.covers
    rw [Covers, hend] at hroot
    refine ⟨?_, hnew⟩
    rw [Covers, hfollow]
    exact hroot
  | _, _, _, _, _, .shared hfollow hk => by
    rw [List.append_nil]
    exact ⟨covers_block hfollow (List.mem_of_getElem? hk), fun _ hp => absurd hp List.not_mem_nil⟩
  | _, _, _, _, _, .bytes hfollow _ hb _ hcontents => by
    refine ⟨covers_block hfollow (List.mem_append_right _ (List.mem_singleton_self _)), fun q hq => ?_⟩
    rw [List.mem_singleton.mp hq]
    refine ⟨_, hb, hcontents.ne_nil, fun f hf => ?_⟩
    obtain ⟨w, rfl⟩ := hcontents.words_only f hf
    trivial
  | _, _, _, _, _, @Code.block _ _ objs p b _ new _ hfollow _ hb hscan hc => by
    obtain ⟨hfields, hnew⟩ := hc.covers
    have hsub : objs ++ [p] ++ new = objs ++ p :: new := by rw [List.append_assoc]; rfl
    rw [hsub] at hfields hnew
    refine ⟨covers_block hfollow (List.mem_append_right _ List.mem_cons_self), fun q hq => ?_⟩
    rcases List.mem_cons.mp hq with rfl | hq
    · exact ⟨b, hb, hscan.some, hfields⟩
    · exact hnew q hq

theorem Codes.covers : ∀ {objs vs bytes new words}, Codes env h objs vs bytes new words →
    (∀ v ∈ vs, Covers h (objs ++ new) v) ∧ ∀ p ∈ new, Whole h (objs ++ new) p
  | _, _, _, _, _, .nil => ⟨fun _ hv => absurd hv List.not_mem_nil, fun _ hp => absurd hp List.not_mem_nil⟩
  | _, _, _, _, _, @Codes.cons _ _ objs v vs _ _ new new' _ _ hv hvs => by
    obtain ⟨hroot, hnew⟩ := hv.covers
    obtain ⟨hroots, hnew'⟩ := hvs.covers
    rw [List.append_assoc] at hroots hnew'
    have hsub : ∀ p ∈ objs ++ new, p ∈ objs ++ (new ++ new') := by
      intro p hp
      rw [← List.append_assoc]
      exact List.mem_append_left _ hp
    refine ⟨List.forall_mem_cons.mpr ⟨hroot.mono hsub, hroots⟩, fun p hp => ?_⟩
    rcases List.mem_append.mp hp with hp | hp
    · exact (hnew p hp).mono hsub
    · exact hnew' p hp

end

end MultiScript.Ocaml.Marshal
