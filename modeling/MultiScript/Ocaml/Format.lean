/-
The compact format of marshalled values (`intext.h`). `Code` says which bytes stand for a value
of a heap, where some of its blocks have come before: a block is numbered when its code begins,
and one that has a number is a reference back by the difference. Writing and reading are both
told over it.
-/
import MultiScript.Ocaml.Heap
import MultiScript.Ocaml.OutputChannel
import Mathlib.Algebra.Order.Ring.Nat

namespace MultiScript.Ocaml.Marshal

/-! ## Codes -/

/-- `Intext_magic_number`. -/
def intextMagicNumber : UInt32 := 0x8495A6BE

def code8 (code : UInt8) (val : UInt32) : Bytes := [code, val.toUInt8]

def code16 (code : UInt8) (val : UInt32) : Bytes := [code, (val >>> 8).toUInt8, val.toUInt8]

def code32 (code : UInt8) (val : UInt32) : Bytes := code :: wordBytes val

/-- An integer: `PREFIX_SMALL_INT`, `CODE_INT8`, `CODE_INT16`, `CODE_INT32`. -/
def longCode (w : Word) : Bytes :=
  let n := (longVal w).toInt
  if 0 ≤ n ∧ n < 0x40 then [UInt8.ofNat (0x40 + n.toNat)]
  else if -128 ≤ n ∧ n < 128 then code8 0x0 (.ofBitVec (longVal w))
  else if -32768 ≤ n ∧ n < 32768 then code16 0x1 (.ofBitVec (longVal w))
  else code32 0x2 (.ofBitVec (longVal w))

/-- An atom: `PREFIX_SMALL_BLOCK`, `CODE_BLOCK32`. -/
def atomCode (hd : Header) : Bytes :=
  if hd.tag < 16 then [0x80 + hd.tag] else code32 0x8 hd.word

/-- The header of a block: `PREFIX_SMALL_BLOCK`, `CODE_BLOCK32`. -/
def blockCode (hd : Header) : Bytes :=
  if hd.tag < 16 ∧ hd.wosize < 8 then [UInt8.ofNat (0x80 + hd.tag.toNat + hd.wosize * 16)] else code32 0x8 hd.white.word

/-- `CODE_SHARED8`, `CODE_SHARED16`, `CODE_SHARED32`. -/
def sharedCode (d : Nat) : Bytes :=
  if d < 0x100 then code8 0x4 (.ofNat d) else if d < 0x10000 then code16 0x5 (.ofNat d) else code32 0x6 (.ofNat d)

/-- `PREFIX_SMALL_STRING`, `CODE_STRING8`, `CODE_STRING32`. -/
def stringCode (len : Nat) : Bytes :=
  if len < 0x20 then [UInt8.ofNat (0x20 + len)]
  else if len < 0x100 then code8 0x9 (.ofNat len)
  else code32 0xA (.ofNat len)

/-- `CODE_DOUBLE_LITTLE`. -/
def doubleCode : Bytes := [0xC]

/-- `CODE_DOUBLE_ARRAY8_LITTLE`, `CODE_DOUBLE_ARRAY32_LITTLE`. -/
def doubleArrayCode (nfloats : Nat) : Bytes :=
  if nfloats < 0x100 then code8 0xE (.ofNat nfloats) else code32 0x7 (.ofNat nfloats)

/-! ## What the code depends on -/

/-- `struct custom_operations`: how the words of a block are serialized, chunk by chunk, with
`wsize_32` and `wsize_64`, and how they are read from what follows, with their size; or the
message of `caml_deserialize_error`. -/
structure CustomOperations where
  identifier : Bytes
  serialize : Option (List Word → List Bytes × Nat × Nat)
  deserialize : Bytes → Except String (List Word × Nat × Bytes)

/-- `EXTERN_CLOSURES` and `EXTERN_NO_SHARING` of the flags, `caml_code_checksum`, which is an MD5
digest, the custom operations by their address, and those that are registered; `intern_color`. -/
structure Env where
  closures : Bool
  ignoreSharing : Bool
  checksum : Bytes
  customAt : Word → Option CustomOperations
  registered : List Word
  color : Color
  digest : checksum.length = 16

/-- `caml_find_custom_operations`; nothing is answered where `strcmp` reads on behind the end. -/
def camlFindCustomOperations (env : Env) (ident : Bytes) : List Word → Option (Option Word)
  | [] => some none
  | a :: l =>
    match env.customAt a with
    | none => none
    | some ops =>
      if (ops.identifier ++ [0]).isPrefixOf ident then some (some a)
      else if ident.isPrefixOf (ops.identifier ++ [0]) then none
      else camlFindCustomOperations env ident l

/-- A forward block is written as what it points to, unless that is one of these blocks. -/
def shortCircuits (h : Heap) (f : Value) : Bool :=
  match f with
  | .block p => (h[p]?).all fun b => !(b.tag == Tag.forward || b.tag == Tag.lazy || b.tag == Tag.double)
  | _ => true

/-- What a value stands for. -/
def follow (h : Heap) (v : Value) : Value :=
  match v with
  | .block p =>
    if (h[p]?).any (fun b => b.tag == Tag.forward) && shortCircuits h (field h v 0) then field h v 0 else v
  | _ => v

/-! ## The format -/

/-- A custom block of the operations at `a` can be written as `data` and read back. -/
structure Serializes (env : Env) (a : Word) (ws : List Word) (ident data : Bytes) : Prop where
  written : ∃ ops serialize sz64, env.customAt a = some ops ∧ ops.identifier = ident ∧ ops.serialize = some serialize ∧
    ∃ chunks sz32, serialize ws = (chunks, sz32, sz64) ∧ chunks.flatten = data ∧ (sz32 + 3) / 4 = ws.length
  terminated : 0 ∉ ident
  found : ∀ rest, camlFindCustomOperations env (ident ++ [0] ++ rest) env.registered = some (some a)
  read : ∃ ops size, env.customAt a = some ops ∧ (size + 3) / 4 = ws.length ∧
    ∀ rest, ops.deserialize (data ++ rest) = .ok (ws, size, rest)

/-- The code of a block whose contents are no values, and the words that it takes. -/
inductive Contents (env : Env) : Block → Bytes → Nat → Prop
  | string {color s} : Contents env { tag := Tag.string, color, fields := stringFields s } (stringCode s.length ++ s)
      (1 + (s.length + 4) / 4)
  | double {color fields} (hlength : fields.length = doubleWosize) (hwords : ∀ v ∈ fields, ∃ w, v = .word w) :
      Contents env { tag := Tag.double, color, fields } (doubleCode ++ blockBytes fields) (1 + 2)
  | doubles {color fields n} (hn : 0 < n) (hlength : fields.length = n * doubleWosize)
      (hwords : ∀ v ∈ fields, ∃ w, v = .word w) :
      Contents env { tag := Tag.doubleArray, color, fields } (doubleArrayCode n ++ blockBytes fields) (1 + n * 2)
  | custom {color a ws ident data} (h : Serializes env a ws ident data) :
      Contents env { tag := Tag.custom, color, fields := .word a :: ws.map .word } ([0x12] ++ (ident ++ [0]) ++ data)
        (2 + ws.length)

/-- A block that is written with its fields. -/
structure Block.Scanned (b : Block) : Prop where
  scan : b.tag < Tag.abstract
  size : b.fields.length ≤ maxWosize
  some : b.fields ≠ []

mutual

/-- The bytes that stand for a value where the blocks `objs` have come before, the blocks that
come with it, and the words that these take. -/
inductive Code (env : Env) (h : Heap) : List Nat → Value → Bytes → List Nat → Nat → Prop
  | long {objs w} (hw : (Value.word w).isLong = true) : Code env h objs (.word w) (longCode w) [] 0
  | code {objs ofs} : Code env h objs (.code ofs) (code32 0x10 ofs ++ env.checksum) [] 0
  | atom {objs tag} : Code env h objs (.atom tag) (atomCode { wosize := 0, color := .white, tag }) [] 0
  | inside {objs p ofs bytes new words} (hofs : ofs ≤ maxWosize) (hfollow : follow h (.block p) = .block p)
      (hc : Code env h objs (.block p) bytes new words) :
      Code env h objs (.inside p ofs) (code32 0x11 (.ofNat (4 * ofs)) ++ bytes) new words
  | forward {objs p f bytes new words} (hfollow : follow h (.block p) = f) (hend : follow h f = f)
      (hc : Code env h objs f bytes new words) : Code env h objs (.block p) bytes new words
  | shared {objs p k} (hfollow : follow h (.block p) = .block p) (hk : objs[k]? = some p) :
      Code env h objs (.block p) (sharedCode (objs.length - k)) [] 0
  | bytes {objs p b bytes words} (hfollow : follow h (.block p) = .block p) (hp : p ∉ objs) (hb : h[p]? = some b)
      (hsize : b.fields.length ≤ maxWosize) (hcontents : Contents env b bytes words) :
        Code env h objs (.block p) bytes [p] words
  | block {objs p b bytes new words} (hfollow : follow h (.block p) = .block p) (hp : p ∉ objs) (hb : h[p]? = some b)
      (hscan : b.Scanned) (hc : Codes env h (objs ++ [p]) b.fields bytes new words) :
      Code env h objs (.block p) (blockCode { wosize := b.fields.length, color := b.color, tag := b.tag } ++ bytes)
        (p :: new)
        (1 + b.fields.length + words)

/-- The same for values in a row. -/
inductive Codes (env : Env) (h : Heap) : List Nat → List Value → Bytes → List Nat → Nat → Prop
  | nil {objs} : Codes env h objs [] [] [] 0
  | cons {objs v vs bytes bytes' new new' words words'} (hv : Code env h objs v bytes new words)
      (hvs : Codes env h (objs ++ new) vs bytes' new' words') :
      Codes env h objs (v :: vs) (bytes ++ bytes') (new ++ new') (words + words')

end

/-! ## The words of the blocks -/

/-- The words of a block, with its header. -/
def blockWords (h : Heap) (p : Nat) : Nat := (h[p]?).elim 0 fun b => 1 + b.fields.length

theorem blockWords_eq {h : Heap} {p : Nat} {b : Block} (hb : h[p]? = some b) :
    blockWords h p = 1 + b.fields.length := by
  rw [blockWords, hb, Option.elim_some]

theorem Contents.words {env : Env} {b : Block} {bytes : Bytes} {words : Nat} (hc : Contents env b bytes words) :
    words = 1 + b.fields.length := by
  cases hc with
  | string =>
    rename_i color s
    rw [(stringFields_spec s).1]
  | double hlength =>
    rw [hlength]
    rfl
  | doubles hn hlength =>
    rw [hlength]
    rfl
  | custom h =>
    rw [List.length_cons, List.length_map]
    omega

mutual

theorem Code.words {env : Env} {h : Heap} : ∀ {objs v bytes new words}, Code env h objs v bytes new words →
    words = (new.map (blockWords h)).sum
  | _, _, _, _, _, .long _ => rfl
  | _, _, _, _, _, .code => rfl
  | _, _, _, _, _, .atom => rfl
  | _, _, _, _, _, .inside _ _ hc => hc.words
  | _, _, _, _, _, .forward _ _ hc => hc.words
  | _, _, _, _, _, .shared _ _ => rfl
  | _, _, _, _, _, .bytes _ _ hb _ hcontents => by
    rw [hcontents.words, ← blockWords_eq hb]
    simp
  | _, _, _, _, _, .block _ _ hb _ hc => by
    rw [hc.words, ← blockWords_eq hb]
    simp

theorem Codes.words {env : Env} {h : Heap} : ∀ {objs vs bytes new words}, Codes env h objs vs bytes new words →
    words = (new.map (blockWords h)).sum
  | _, _, _, _, _, .nil => rfl
  | _, _, _, _, _, .cons hv hvs => by rw [hv.words, hvs.words, List.map_append, List.sum_append]

end

/-! ## What can be written -/

/-- A value that can be written, with blocks among `R`. -/
def Valid (env : Env) (h : Heap) (R : Nat → Prop) : Value → Prop
  | .word w => (Value.word w).isLong = true
  | .block p => R p
  | .inside p ofs => R p ∧ ofs ≤ maxWosize ∧ follow h (.block p) = .block p
  | .atom _ => True
  | .code _ => env.closures = true

/-- A block that can be written: with its fields, by its contents, or as what it forwards to. -/
inductive Writable (env : Env) (h : Heap) (R : Nat → Prop) (p : Nat) : Prop
  | fields {b : Block} (hb : h[p]? = some b) (hcolor : b.color ≠ .blue) (hscan : b.Scanned) (htag : b.tag ≠ Tag.forward)
      (hfields : ∀ v ∈ b.fields, Valid env h R v)
  | contents {b : Block} {bytes : Bytes} {words : Nat} (hb : h[p]? = some b) (hcolor : b.color ≠ .blue)
      (hsize : b.fields.length ≤ maxWosize) (hcontents : Contents env b bytes words)
  | forward {b : Block} (hb : h[p]? = some b) (htag : b.tag = Tag.forward)
      (hcut : shortCircuits h (field h (.block p) 0) = true) (hvalid : Valid env h R (field h (.block p) 0))

/-- The blocks of `R` can be written, with all that they lead to: no forward block among them
is kept. -/
def Closed (env : Env) (h : Heap) (R : Nat → Prop) : Prop := ∀ p, R p → Writable env h R p

end MultiScript.Ocaml.Marshal
