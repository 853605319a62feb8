/-
Where the Squirrel lexer is in a text. `At` holds of a state whose next characters are the
given ones, over any read function that gives them one by one and then the end.
-/
import MultiScript.Squirrel.Lexer

namespace MultiScript.Squirrel

open Act Loop

/-- ASCII as in the "C" locale, which a process starts in. -/
def CLocale.Ascii (locale : CLocale) : Prop :=
  ∀ c : UInt8, c < 128 →
    locale.isalpha c = (chr c).isAlpha ∧ locale.toupper c = if (chr c).isLower then c - 32 else c

/-- The byte of `'\n'`. -/
def lineEnd : UInt8 := 10

theorem chr_inj {c d : UInt8} (h : chr c = chr d) : c = d := by
  have hval : c.toUInt32 = d.toUInt32 := congrArg (fun x : Char => x.val) h
  exact UInt8.toUInt32_inj.mp hval

theorem getIDType_ne (s : Bytes) : getIDType s ≠ 0 := by
  have hall : ∀ k ∈ keywords, k.2 ≠ 0 := by decide
  rw [getIDType]
  cases hk : keywords.lookup (cString s) with
  | none => decide
  | some t =>
    obtain ⟨l₁, l₂, hl, -⟩ := List.lookup_eq_some_iff.mp hk
    exact hall (cString s, t) (by rw [hl]; simp)

namespace SQLexer

variable {R α β : Type}

/-- A compiler that asks for tokens until the 0. -/
def untilEnd (tokens : List (Int × SQLexer)) : Bool := tokens.getLast?.all (·.1 ≠ 0)

/-- What the reader has still to give: these characters, and the end. -/
def Gives (src : LexSource R) : Bytes → R → Prop
  | [], r => ∃ r', src.readf r = .ok (0, r')
  | c :: text, r => ∃ t r', src.readf r = .ok (t, r') ∧ t ≠ 0 ∧ t ≤ maxChar ∧ lexChar t = c ∧ Gives src text r'

/-- The lexer is at the first of these characters, or at the end. -/
def At (src : LexSource R) : Bytes → Lexing R → Prop
  | [], s => s.lexer.currdata = squirrelEob
  | c :: text, s => c ≠ squirrelEob ∧ s.lexer.currdata = c ∧ squirrelEob ∉ text ∧ Gives src text s.reader

/-- The lexer after `NEXT()`, before this text. -/
def passed (l : SQLexer) (text : Bytes) : SQLexer :=
  { l with currdata := text.headD squirrelEob, currentcolumn := l.currentcolumn + 1 }

namespace At

variable {src : LexSource R} {text rest : Bytes} {s : Lexing R} {c : UInt8} {Q : β → Lexing R → Prop}
  {E : LexStop × Lexing R → Prop}

theorem cur (h : At src text s) : s.lexer.currdata = text.headD squirrelEob := by
  cases text with
  | nil => exact h
  | cons c text => exact h.2.1

/-- Only the character and the reader tell where the lexer is. -/
theorem congr {s' : Lexing R} (h : At src text s) (hc : s'.lexer.currdata = s.lexer.currdata)
    (hr : s'.reader = s.reader) : At src text s' := by
  cases text with
  | nil => exact hc.trans h
  | cons c text => exact ⟨h.1, hc.trans h.2.1, h.2.2.1, hr ▸ h.2.2.2⟩

/-- A read goes on to the first character that is given. -/
theorem next_gives (h0 : squirrelEob ∉ text) (h : Gives src text s.reader) :
    ∃ s', next src s = .ok ((), s') ∧ At src text s' ∧
      s'.lexer = { s.lexer with currdata := text.headD squirrelEob } := by
  cases text with
  | nil =>
    obtain ⟨r, hr⟩ := h
    have hread : readf src s = .ok (0, { s with reader := r }) := by simp only [readf, hr]
    refine ⟨{ lexer := { s.lexer with currdata := squirrelEob }, reader := r }, ?_, rfl, rfl⟩
    rw [next, bind_ok hread]
    rfl
  | cons c text =>
    obtain ⟨t, r, hr, ht, hmax, rfl, hgives⟩ := h
    rw [List.mem_cons, not_or] at h0
    have hread : readf src s = .ok (t, { s with reader := r }) := by simp only [readf, hr]
    refine ⟨{ lexer := { s.lexer with currdata := lexChar t }, reader := r }, ?_,
      ⟨fun he => h0.1 he.symm, rfl, h0.2, hgives⟩, rfl⟩
    rw [next, bind_ok hread, if_neg (Int.not_lt.mpr hmax), if_pos ht]
    rfl

theorem next_ok (h : At src (c :: text) s) :
    ∃ s', nextColumn src s = .ok ((), s') ∧ At src text s' ∧ s'.lexer = passed s.lexer text := by
  obtain ⟨s', hok, hat, hl⟩ := next_gives h.2.2.1 h.2.2.2
  refine ⟨{ s' with lexer := { s'.lexer with currentcolumn := s'.lexer.currentcolumn + 1 } }, ?_, hat.congr rfl rfl, ?_⟩
  · rw [nextColumn, bind_ok hok]
    rfl
  · simp only [hl]
    rfl

/-! ## The steps of a `do` block -/

theorem next (h : At src (c :: text) s) {k : Unit → LexM R β}
    (hk : ∀ s', At src text s' → s'.lexer = passed s.lexer text → Ends (k ()) s' Q E) :
    Ends (nextColumn src >>= k) s Q E := by
  obtain ⟨s', hok, hat, hl⟩ := h.next_ok
  exact Ends.seq hok (hk s' hat hl)

theorem look (h : At src text s) {k : UInt8 → LexM R β} (hk : Ends (k (text.headD squirrelEob)) s Q E) :
    Ends (curChar >>= k) s Q E := by
  rw [← h.cur] at hk
  exact hk

/-- What is set in the lexer is not the character. -/
theorem set {f : SQLexer → SQLexer} (h : At src text s) {k : Unit → LexM R β}
    (hf : (f s.lexer).currdata = s.lexer.currdata)
    (hk : ∀ s', At src text s' → s'.lexer = f s.lexer → Ends (k ()) s' Q E) :
    Ends (setLexer f >>= k) s Q E :=
  hk { s with lexer := f s.lexer } (h.congr hf rfl) rfl

end At

end SQLexer

end MultiScript.Squirrel
