/-
`printf` formats: bytes that stand for themselves, and directives that take an argument.
What a directive makes of its argument is a parameter (`Convert`); a format that ends
inside a directive, and a directive without an argument, have no result.

The main fact is about texts passed as formats: without arguments a text comes out as it
is exactly if it has no `%` (`format_self_iff`).
-/
import Mathlib.Logic.Basic

namespace MultiScript.Printf

variable {A : Type}

/-- What a directive makes of an argument, by its modifiers and its letter. -/
abbrev Convert (A : Type) := List UInt8 → UInt8 → A → Option (List UInt8)

/-- The byte `%`. -/
def percent : UInt8 := 37

/-- Flags, field width, precision and length: `-+ #0123456789.hljztL`. A width or precision
given as `*` is not written out. -/
def isModifier (b : UInt8) : Bool :=
  b ∈ [45, 43, 32, 35, 46, 104, 108, 106, 122, 116, 76] || (48 ≤ b && b ≤ 57)

/-- The output of a format, in a directive with its modifiers so far, or outside one. A NUL
ends the format. -/
def scan (cv : Convert A) : Option (List UInt8) → List UInt8 → List A → Option (List UInt8)
  | none, [], _ => some []
  | some _, [], _ => none
  | none, b :: s, args =>
    if b = 0 then some []
    else if b = percent then scan cv (some []) s args
    else (scan cv none s args).map (b :: ·)
  | some mods, b :: s, args =>
    if b = percent then if mods = [] then (scan cv none s args).map (percent :: ·) else none
    else if isModifier b then scan cv (some (mods ++ [b])) s args
    else match args with
      | [] => none
      | a :: args => (cv mods b a).bind fun t => (scan cv none s args).map (t ++ ·)

/-- What `printf(s, args)` prints. -/
def format (cv : Convert A) (s : List UInt8) (args : List A) : Option (List UInt8) := scan cv none s args

variable {cv : Convert A} {s t : List UInt8} {args : List A}

theorem format_nil : format cv [] args = some [] := rfl

theorem format_cons {b : UInt8} (h0 : b ≠ 0) (hb : b ≠ percent) :
    format cv (b :: s) args = (format cv s args).map (b :: ·) := by
  simp only [format, scan, if_neg h0, if_neg hb]

theorem format_percent : format cv (percent :: s) args = scan cv (some []) s args := by
  have h0 : percent ≠ 0 := by decide
  simp only [format, scan, if_neg h0, if_true]

/-- A letter converts the next argument, by the modifiers before it. -/
theorem scan_modifiers {b : UInt8} {a : A} (hb : b ≠ percent) (hm : isModifier b = false) :
    ∀ (mods seen : List UInt8), (∀ m ∈ mods, m ≠ percent ∧ isModifier m = true) →
      scan cv (some seen) (mods ++ b :: s) (a :: args) =
        (cv (seen ++ mods) b a).bind fun t => (format cv s args).map (t ++ ·)
  | [], seen, _ => by
    rw [List.nil_append, List.append_nil]
    simp only [scan, if_neg hb, hm, Bool.false_eq_true, if_false]
    rfl
  | m :: mods, seen, h => by
    obtain ⟨hp, hmod⟩ := h m List.mem_cons_self
    have ih := scan_modifiers (a := a) hb hm mods (seen ++ [m]) fun x hx => h x (List.mem_cons_of_mem _ hx)
    rw [List.append_assoc] at ih
    rw [List.cons_append]
    simp only [scan, if_neg hp, hmod, if_true]
    exact ih

/-- Literal text comes out as it is, whatever follows it. -/
theorem format_append_plain : ∀ {l : List UInt8}, 0 ∉ l → percent ∉ l →
    format cv (l ++ s) args = (format cv s args).map (l ++ ·)
  | [], _, _ => by cases h : format cv s args <;> simp [h]
  | b :: l, h0, hp => by
    have hb0 : b ≠ 0 := fun h => h0 (h ▸ List.mem_cons_self)
    have hbp : b ≠ percent := fun h => hp (h ▸ List.mem_cons_self)
    rw [List.cons_append, format_cons hb0 hbp, format_append_plain (fun h => h0 (List.mem_cons_of_mem _ h))
      (fun h => hp (List.mem_cons_of_mem _ h)), Option.map_map]
    rfl

theorem format_plain (h0 : 0 ∉ s) (hp : percent ∉ s) : format cv s args = some s := by
  have h := @format_append_plain A cv [] args s h0 hp
  rw [List.append_nil, format_nil] at h
  rw [h, Option.map_some, List.append_nil]

/-- Without arguments a directive adds no byte, so nothing comes out longer. -/
theorem scan_length : ∀ {s : List UInt8} {state : Option (List UInt8)} {t : List UInt8},
    scan cv state s [] = some t → t.length ≤ s.length
  | [], none, _, h => by cases h; exact Nat.le_refl _
  | [], some _, _, h => by cases h
  | b :: s, none, t, h => by
    unfold scan at h
    split at h
    · cases h
      exact Nat.zero_le _
    · split at h
      · exact Nat.le_succ_of_le (scan_length h)
      · obtain ⟨t', ht, rfl⟩ := Option.map_eq_some_iff.mp h
        exact Nat.succ_le_succ (scan_length ht)
  | b :: s, some mods, t, h => by
    unfold scan at h
    split at h
    · split at h
      · obtain ⟨t', ht, rfl⟩ := Option.map_eq_some_iff.mp h
        exact Nat.succ_le_succ (scan_length ht)
      · cases h
    · split at h
      · exact Nat.le_succ_of_le (scan_length h)
      · cases h

/-- A `%` is lost, with or without what follows it. -/
theorem format_length_lt : ∀ {s t : List UInt8}, 0 ∉ s → percent ∈ s → format cv s [] = some t → t.length < s.length
  | [], _, _, hp, _ => absurd hp List.not_mem_nil
  | b :: s, t, h0, hp, h => by
    by_cases hb : b = percent
    · subst hb
      rw [format_percent] at h
      exact Nat.lt_succ_of_le (scan_length h)
    · have hb0 : b ≠ 0 := fun he => h0 (he ▸ List.mem_cons_self)
      have hs : percent ∈ s := (List.mem_cons.mp hp).resolve_left fun he => hb he.symm
      rw [format_cons hb0 hb] at h
      obtain ⟨t', ht, rfl⟩ := Option.map_eq_some_iff.mp h
      exact Nat.succ_lt_succ (format_length_lt (fun h => h0 (List.mem_cons_of_mem _ h)) hs ht)

/-- **A text passed as a format.** -/
theorem format_self_iff (h0 : 0 ∉ s) : format cv s [] = some s ↔ percent ∉ s := by
  constructor
  · intro h hp
    exact absurd (format_length_lt h0 hp h) (Nat.lt_irrefl _)
  · intro hp
    exact format_plain h0 hp

/-! ## Formats in pieces -/

/-- A piece of a format: text, or a directive of a letter after modifiers, with its
argument. -/
inductive Piece (A : Type)
  | text (s : List UInt8)
  | arg (mods : List UInt8) (letter : UInt8) (a : A)

namespace Piece

/-- Text has no `%` and no NUL, and only what comes before a letter are modifiers. -/
def Plain : Piece A → Prop
  | text s => 0 ∉ s ∧ percent ∉ s
  | arg mods letter _ => (letter ≠ percent ∧ isModifier letter = false) ∧ ∀ m ∈ mods, m ≠ percent ∧ isModifier m = true

/-- The format that pieces spell. -/
def spell : List (Piece A) → List UInt8
  | [] => []
  | text s :: ps => s ++ spell ps
  | arg mods letter _ :: ps => percent :: (mods ++ letter :: spell ps)

/-- The arguments of pieces. -/
def arguments : List (Piece A) → List A
  | [] => []
  | text _ :: ps => arguments ps
  | arg _ _ a :: ps => a :: arguments ps

/-- What pieces print. -/
def output (cv : Convert A) : List (Piece A) → Option (List UInt8)
  | [] => some []
  | text s :: ps => (output cv ps).map (s ++ ·)
  | arg mods letter a :: ps => (cv mods letter a).bind fun t => (output cv ps).map (t ++ ·)

end Piece

theorem format_pieces : ∀ {ps : List (Piece A)}, (∀ p ∈ ps, p.Plain) →
    format cv (Piece.spell ps) (Piece.arguments ps) = Piece.output cv ps
  | [], _ => rfl
  | .text s :: ps, h => by
    obtain ⟨h0, hp⟩ : 0 ∉ s ∧ percent ∉ s := h _ List.mem_cons_self
    have ih := format_pieces fun p hm => h p (List.mem_cons_of_mem _ hm)
    rw [Piece.spell, Piece.arguments, format_append_plain h0 hp, ih, Piece.output]
  | .arg mods letter a :: ps, h => by
    obtain ⟨⟨hl, hm⟩, hmods⟩ : (Piece.arg mods letter a).Plain := h _ List.mem_cons_self
    have ih := format_pieces fun p hm => h p (List.mem_cons_of_mem _ hm)
    rw [Piece.spell, Piece.arguments, format_percent, scan_modifiers hl hm mods [] hmods, ih,
      List.nil_append, Piece.output]

/-! ## Into a buffer -/

/-- `sprintf_s`: the output and its terminator fit a buffer of `size` bytes. -/
def sprintf (cv : Convert A) (size : Nat) (s : List UInt8) (args : List A) : Option (List UInt8) :=
  (format cv s args).bind fun t => if t.length + 1 ≤ size then some t else none

theorem sprintf_fits {size : Nat} (h : format cv s args = some t) :
    sprintf cv size s args = if t.length + 1 ≤ size then some t else none := by
  rw [sprintf, h, Option.bind_some]

end MultiScript.Printf
