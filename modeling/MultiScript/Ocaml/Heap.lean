/-
Values and blocks of the OCaml heap (`mlvalues.h`), as the marshalling code sees them, 32-bit
build. A block has its fields to itself, and a pointer is to a block; the contents of strings
and floats are words, the lowest byte first.
-/
import MultiScript.Ocaml.Instruct

namespace MultiScript.Ocaml.Marshal

inductive Color
  | white
  | gray
  | blue
  | black
deriving DecidableEq, Repr

/-- A value: a word that points to none of what follows, and is an integer where it is odd; a
block; a place in a closure, so many words behind its beginning, with an infix header before
it; an atom; code, by its offset in the code area. -/
inductive Value
  | word (w : Word)
  | block (p : Nat)
  | inside (p ofs : Nat)
  | atom (tag : UInt8)
  | code (ofs : UInt32)
deriving DecidableEq, Repr

structure Block where
  tag : UInt8
  color : Color
  fields : List Value
deriving DecidableEq, Repr

abbrev Heap := List Block

namespace Tag

def lazy : UInt8 := 246
def infixTag : UInt8 := 249
def forward : UInt8 := 250
def abstract : UInt8 := 251
def string : UInt8 := 252
def double : UInt8 := 253
def doubleArray : UInt8 := 254
def custom : UInt8 := 255

end Tag

/-- `Max_wosize`. -/
def maxWosize : Nat := 2 ^ 22 - 1

/-- `Double_wosize`. -/
def doubleWosize : Nat := 2

structure Header where
  wosize : Nat
  color : Color
  tag : UInt8
deriving DecidableEq, Repr

def Color.bits : Color → Nat
  | .white => 0
  | .gray => 1
  | .blue => 2
  | .black => 3

/-- The word of a header. -/
def Header.word (hd : Header) : UInt32 := UInt32.ofNat (hd.wosize * 1024 + hd.color.bits * 256 + hd.tag.toNat)

/-- `Whitehd_hd`. -/
def Header.white (hd : Header) : Header := { hd with color := .white }

/-- `Field(v, i)`. -/
def field (h : Heap) (v : Value) (i : Nat) : Value :=
  match v with
  | .block p => (h[p]?.bind fun b => b.fields[i]?).getD (.word 0)
  | _ => .word 0

/-- `Is_long`. -/
def Value.isLong : Value → Bool
  | .word w => w.toNat % 2 == 1
  | _ => false

/-! ## Bytes -/

def Value.bits : Value → Word
  | .word w => w
  | _ => 0

def leBytes (w : Word) : Bytes :=
  [UInt8.ofNat w.toNat, UInt8.ofNat (w.toNat / 256), UInt8.ofNat (w.toNat / 65536), UInt8.ofNat (w.toNat / 16777216)]

def leWord (b₀ b₁ b₂ b₃ : UInt8) : Word :=
  BitVec.ofNat 32 (b₀.toNat + 256 * b₁.toNat + 65536 * b₂.toNat + 16777216 * b₃.toNat)

/-- The bytes of a block. -/
def blockBytes (fields : List Value) : Bytes := fields.flatMap fun v => leBytes v.bits

/-- The fields with these bytes. -/
def packFields : Bytes → List Value
  | b₀ :: b₁ :: b₂ :: b₃ :: rest => .word (leWord b₀ b₁ b₂ b₃) :: packFields rest
  | _ => []

/-- The fields of a string: the rest of the last word is filled, and its last byte says by how
much. -/
def stringFields (s : Bytes) : List Value :=
  let ofsInd := 4 * ((s.length + 4) / 4) - 1
  packFields (s ++ List.replicate (ofsInd - s.length) 0 ++ [UInt8.ofNat (ofsInd - s.length)])

/-- `caml_string_length`. -/
def camlStringLength (fields : List Value) : Nat :=
  let temp := 4 * fields.length - 1
  temp - ((blockBytes fields).getD temp 0).toNat

theorem leBytes_leWord (b₀ b₁ b₂ b₃ : UInt8) : leBytes (leWord b₀ b₁ b₂ b₃) = [b₀, b₁, b₂, b₃] := by
  have h₀ := b₀.toNat_lt
  have h₁ := b₁.toNat_lt
  have h₂ := b₂.toNat_lt
  have h₃ := b₃.toNat_lt
  have hword : (leWord b₀ b₁ b₂ b₃).toNat = b₀.toNat + 256 * b₁.toNat + 65536 * b₂.toNat + 16777216 * b₃.toNat := by
    rw [leWord, BitVec.toNat_ofNat]
    omega
  have hbyte : ∀ (b : UInt8) (n : Nat), n % 256 = b.toNat → UInt8.ofNat n = b := by
    intro b n h
    rw [← UInt8.toNat_inj, UInt8.toNat_ofNat']
    exact h
  rw [leBytes, hword, hbyte b₀ _ (by omega), hbyte b₁ _ (by omega), hbyte b₂ _ (by omega), hbyte b₃ _ (by omega)]

theorem leWord_leBytes (w : Word) : leWord (UInt8.ofNat w.toNat) (UInt8.ofNat (w.toNat / 256))
    (UInt8.ofNat (w.toNat / 65536))
    (UInt8.ofNat (w.toNat / 16777216)) = w := by
  have hw := w.isLt
  apply BitVec.eq_of_toNat_eq
  rw [leWord, BitVec.toNat_ofNat]
  simp only [UInt8.toNat_ofNat']
  omega

theorem packFields_blockBytes : ∀ {fields : List Value}, (∀ v ∈ fields, ∃ w, v = .word w) →
    packFields (blockBytes fields) = fields
  | [], _ => rfl
  | v :: fields, h => by
    obtain ⟨⟨w, rfl⟩, hrest⟩ := List.forall_mem_cons.mp h
    have ih := packFields_blockBytes hrest
    show Value.word (leWord (UInt8.ofNat w.toNat) (UInt8.ofNat (w.toNat / 256)) (UInt8.ofNat (w.toNat / 65536))
      (UInt8.ofNat (w.toNat / 16777216))) :: packFields (blockBytes fields) = _
    rw [ih, leWord_leBytes]

theorem blockBytes_length (fields : List Value) : (blockBytes fields).length = 4 * fields.length := by
  induction fields with
  | nil => rfl
  | cons v fields ih =>
    have hcons : blockBytes (v :: fields) = leBytes v.bits ++ blockBytes fields := rfl
    rw [hcons, List.length_append, ih, List.length_cons]
    show 4 + 4 * fields.length = _
    omega

theorem blockBytes_packFields : ∀ (n : Nat) {s : Bytes}, s.length = 4 * n →
    blockBytes (packFields s) = s ∧ (packFields s).length = n ∧ ∀ v ∈ packFields s, ∃ w, v = .word w
  | 0, s, h => by
    obtain rfl := List.eq_nil_of_length_eq_zero (by omega : s.length = 0)
    exact ⟨rfl, rfl, fun v hv => absurd hv List.not_mem_nil⟩
  | n + 1, s, h => by
    match s, h with
    | b₀ :: b₁ :: b₂ :: b₃ :: rest, h =>
      have hrest : rest.length = 4 * n := by
        simp only [List.length_cons] at h
        omega
      obtain ⟨hbytes, hlength, hwords⟩ := blockBytes_packFields n hrest
      refine ⟨?_, by rw [packFields, List.length_cons, hlength], ?_⟩
      · show leBytes (leWord b₀ b₁ b₂ b₃) ++ blockBytes (packFields rest) = _
        rw [leBytes_leWord, hbytes]
        rfl
      · rw [packFields]
        exact List.forall_mem_cons.mpr ⟨⟨_, rfl⟩, hwords⟩

/-- What a string of `s` has: its size, its length and its bytes. -/
theorem stringFields_spec (s : Bytes) : (stringFields s).length = (s.length + 4) / 4 ∧
    camlStringLength (stringFields s) = s.length ∧ (blockBytes (stringFields s)).take s.length = s ∧
    ∀ v ∈ stringFields s, ∃ w, v = .word w := by
  generalize hsize : (s.length + 4) / 4 = size
  have hpos : 4 * size - 1 - s.length < 4 ∧ s.length ≤ 4 * size - 1 := by omega
  have hfields : stringFields s = packFields (s ++ List.replicate (4 * size - 1 - s.length) 0 ++
      [UInt8.ofNat (4 * size - 1 - s.length)]) := by
    rw [stringFields, hsize]
  have hall : (s ++ List.replicate (4 * size - 1 - s.length) 0 ++ [UInt8.ofNat (4 * size - 1 - s.length)]).length =
      4 * size := by
    simp only [List.length_append, List.length_replicate, List.length_singleton]
    omega
  obtain ⟨hbytes, hlength, hwords⟩ := blockBytes_packFields size hall
  rw [← hfields] at hbytes hlength hwords
  refine ⟨hlength, ?_, ?_, hwords⟩
  · have hlast : (s ++ List.replicate (4 * size - 1 - s.length) 0 ++ [UInt8.ofNat (4 * size - 1 - s.length)]).getD
        (4 * size - 1) 0 = UInt8.ofNat (4 * size - 1 - s.length) := by
      have hfront : (s ++ List.replicate (4 * size - 1 - s.length) (0 : UInt8)).length = 4 * size - 1 := by
        simp only [List.length_append, List.length_replicate]
        omega
      rw [List.getD_eq_getElem?_getD, List.getElem?_append_right (by omega), hfront, Nat.sub_self]
      rfl
    rw [camlStringLength, hlength, hbytes, hlast, UInt8.toNat_ofNat']
    omega
  · rw [hbytes, List.append_assoc, List.take_left]

end MultiScript.Ocaml.Marshal
