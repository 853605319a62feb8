/-
How far the Squirrel lexer reads a script. `SquirrelReadCallback` makes the end of the text
a `NULL` pointer, which one more call would follow; the lexer has to look for the end before
every `NEXT()`. Nothing but the character it is at is known of the text, so the reader is
first any that ends (`Feed`).
-/
import MultiScript.Squirrel.Lexer
import Mathlib.Data.List.Basic

namespace MultiScript.Squirrel

open Act Loop SQLexer

/-! ## A reader that ends -/

variable {R α β : Type} {src : LexSource R}

/-- While the reader is open a read gives a character, or the end, which closes it. Each
leaves less to read, and the loops have the turns for all there is. -/
structure Feed (src : LexSource R) where
  Open : R → Prop
  Ended : R → Prop
  left : R → Nat
  turns : ∀ r, left r < src.turns
  reads : ∀ r, Open r → ∃ t r', src.readf r = .ok (t, r') ∧ t ≤ maxChar ∧ left r' < left r ∧
    if t = 0 then Ended r' else lexChar t ≠ squirrelEob ∧ Open r'

namespace Feed

variable (feed : Feed src)

/-- The lexer is at the end exactly if the reader has come to it. -/
def Fed (s : Lexing R) : Prop :=
  if s.lexer.currdata = squirrelEob then feed.Ended s.reader else feed.Open s.reader

/-- In step, with less than `b` left to read. -/
def Under (b : Nat) (s : Lexing R) : Prop := feed.Fed s ∧ feed.left s.reader < b

/-- The compilation stops with an error of the lexer, which is in step. -/
def Harmless (x : LexStop × Lexing R) : Prop := (∃ err, x.1 = .error err) ∧ feed.Fed x.2

/-- What a turn of a loop comes to: it has read and goes on, or it leaves the loop. -/
def After (J : α → Lexing R → Prop) (P : β → Lexing R → Prop) (b : Nat) : α ⊕ β → Lexing R → Prop
  | .inl a, s => feed.Under b s ∧ J a s
  | .inr a, s => feed.Under (b + 1) s ∧ P a s

/-- The same where nothing else is to be known. -/
abbrev AfterTurn (b : Nat) : α ⊕ β → Lexing R → Prop := feed.After (fun _ _ => True) (fun _ _ => True) b

variable {feed} {s : Lexing R} {b c : Nat} {Q : β → Lexing R → Prop} {E : LexStop × Lexing R → Prop}

theorem Under.mono (h : feed.Under b s) (hbc : b ≤ c) : feed.Under c s := ⟨h.1, Nat.lt_of_lt_of_le h.2 hbc⟩

theorem Under.succ (h : feed.Under b s) : feed.Under (b + 1) s := h.mono (Nat.le_succ b)

theorem Fed.under (h : feed.Fed s) : feed.Under (feed.left s.reader + 1) s := ⟨h, Nat.lt_succ_self _⟩

/-! ## The steps of a `do` block -/

theorem set_then {f : SQLexer → SQLexer} {k : Unit → LexM R β} (h : Ends (k ()) { s with lexer := f s.lexer } Q E) :
    Ends (setLexer f >>= k) s Q E := h

/-- What is set in the lexer is not the character. -/
theorem set_keep {f : SQLexer → SQLexer} {k : Unit → LexM R β} (h : feed.Under b s)
    (hf : (f s.lexer).currdata = s.lexer.currdata)
    (hk : ∀ s', feed.Under b s' → s'.lexer = f s.lexer → s'.lexer.currdata = s.lexer.currdata → Ends (k ()) s' Q E) :
    Ends (setLexer f >>= k) s Q E := by
  refine set_then (hk _ ⟨?_, h.2⟩ rfl hf)
  have hfed := h.1
  unfold Fed at hfed ⊢
  rw [hf]
  exact hfed

theorem cur_then {k : UInt8 → LexM R β} (h : Ends (k s.lexer.currdata) s Q E) : Ends (curChar >>= k) s Q E := h

theorem longstr_then {k : Bytes → LexM R β} (h : Ends (k s.lexer.longstr) s Q E) : Ends (getLongstr >>= k) s Q E := h

theorem error_ends (err : String) (h : feed.Fed s) : Ends (SQLexer.error err : LexM R β) s Q feed.Harmless :=
  ⟨⟨err, rfl⟩, h⟩

/-- A read of an open reader brings the lexer in step. -/
theorem next_open (h : feed.Open s.reader) :
    Ends (next src) s (fun _ s' => feed.Under (feed.left s.reader) s' ∧ s'.lexer.longstr = s.lexer.longstr)
      feed.Harmless := by
  obtain ⟨t, r, hread, hmax, hleft, hend⟩ := feed.reads s.reader h
  have hreadf : SQLexer.readf src s = .ok (t, { s with reader := r }) := by simp only [SQLexer.readf, hread]
  refine Ends.seq hreadf ?_
  rw [if_neg (Int.not_lt.mpr hmax)]
  by_cases ht : t = 0
  · rw [if_pos ht] at hend
    rw [if_neg (not_not.mpr ht)]
    refine ⟨⟨?_, hleft⟩, rfl⟩
    rw [Fed, if_pos rfl]
    exact hend
  · rw [if_neg ht] at hend
    rw [if_pos ht]
    refine ⟨⟨?_, hleft⟩, rfl⟩
    rw [Fed, if_neg hend.1]
    exact hend.2

/-- `NEXT()` where the lexer is not at the end. -/
theorem nextColumn_ends (h : feed.Under (b + 1) s) (hc : s.lexer.currdata ≠ squirrelEob) :
    Ends (nextColumn src) s (fun _ s' => feed.Under b s' ∧ s'.lexer.longstr = s.lexer.longstr) feed.Harmless := by
  obtain ⟨hfed, hleft⟩ := h
  rw [Fed, if_neg hc] at hfed
  refine (next_open hfed).bind fun _ s' hs' => ?_
  exact ⟨⟨hs'.1.1, Nat.lt_of_lt_of_le hs'.1.2 (Nat.le_of_lt_succ hleft)⟩, hs'.2⟩

theorem next_then {k : Unit → LexM R β} (h : feed.Under (b + 1) s) (hc : s.lexer.currdata ≠ squirrelEob)
    (hk : ∀ s', feed.Under b s' → Ends (k ()) s' Q feed.Harmless) : Ends (nextColumn src >>= k) s Q feed.Harmless :=
  (nextColumn_ends h hc).bind fun _ s' hs' => hk s' hs'.1

/-- A loop, by one turn of it from a state in step. -/
theorem loop_ends {J : α → Lexing R → Prop} {P : β → Lexing R → Prop} {body : α → LexM R (α ⊕ β)}
    (hbody : ∀ a s, feed.Fed s → J a s → Ends (body a) s (feed.After J P (feed.left s.reader)) feed.Harmless)
    {a : α} (h : feed.Under b s) (hJ : J a s) :
    Ends (loopM outOfTurns body src.turns a) s (fun r s' => feed.Under b s' ∧ P r s') feed.Harmless := by
  refine @loopM_ends (Lexing R) _ α β outOfTurns body (fun a s => feed.Under b s ∧ J a s)
    (fun s => feed.left s.reader) _ _
    (fun a s hs => ?_) src.turns a s ⟨h, hJ⟩ (feed.turns s.reader)
  refine (hbody a s hs.1.1 hs.2).mono fun r s' hr => ?_
  cases r with
  | inl a' => exact ⟨⟨hr.1.mono (Nat.le_of_lt hs.1.2), hr.2⟩, hr.1.2⟩
  | inr a' => exact ⟨hr.1.mono hs.1.2, hr.2⟩

/-- A loop that keeps to being in step. -/
theorem loop_under {body : α → LexM R (α ⊕ β)}
    (hbody : ∀ a s, feed.Fed s → Ends (body a) s (feed.AfterTurn (feed.left s.reader)) feed.Harmless) {a : α}
    (h : feed.Under b s) :
    Ends (loopM outOfTurns body src.turns a) s (fun _ => feed.Under b) feed.Harmless :=
  (loop_ends (fun a s hf _ => hbody a s hf) h trivial).mono fun _ _ hs => hs.1

theorem go_on (h : feed.Under b s) (a : α) :
    Ends (pure (.inl a) : LexM R (α ⊕ β)) s (feed.AfterTurn b) feed.Harmless :=
  .pure ⟨h, trivial⟩

theorem leave (h : feed.Under (b + 1) s) (r : β) :
    Ends (pure (.inr r) : LexM R (α ⊕ β)) s (feed.AfterTurn b) feed.Harmless :=
  .pure ⟨h, trivial⟩

/-! ## What is no end -/

theorem ne_eob {c : UInt8} {x : Char} (h : chr c = x) (hx : x ≠ '\x00') : c ≠ squirrelEob := by
  rintro rfl
  exact hx h.symm

theorem ne_eob_of_not {c : UInt8} (h : chr c = '\x00' → False) : c ≠ squirrelEob := fun he => h (congrArg chr he)

/-- No table has the end among its characters. -/
theorem lookup_ne {γ : Type} {l : List (Char × γ)} {c : UInt8} {x : γ} (hl : l.lookup '\x00' = none)
    (h : l.lookup (chr c) = some x) : c ≠ squirrelEob := by
  intro he
  rw [he, show chr squirrelEob = '\x00' from rfl, hl] at h
  cases h

theorem isdigit_ne {c : UInt8} (h : isdigit c = true) : c ≠ squirrelEob := by
  rintro rfl
  cases h

theorem isxdigit_ne {c : UInt8} (h : isxdigit c = true) : c ≠ squirrelEob := by
  rintro rfl
  cases h

theorem isexponent_ne {c : UInt8} (h : isexponent c = true) : c ≠ squirrelEob := by
  rintro rfl
  cases h

theorem isalnum_ne {locale : CLocale} {c : UInt8} (h : locale.isalnum c = true) : c ≠ squirrelEob := by
  rintro rfl
  rw [CLocale.isalnum, squirrelEob, locale.isalpha_nul] at h
  cases h

theorem toupper_ne {locale : CLocale} {c : UInt8} {x : Char} (h : chr (locale.toupper c) = x) (hx : x ≠ '\x00') :
    c ≠ squirrelEob := by
  rintro rfl
  rw [squirrelEob, locale.toupper_nul] at h
  exact hx h.symm

/-! ## Comments -/

theorem lexBlockComment_ends (h : feed.Under b s) :
    Ends (lexBlockComment src) s (fun _ => feed.Under b) feed.Harmless := by
  refine loop_under (fun _ s hf => cur_then ?_) h
  split
  · next hc =>
    refine next_then hf.under (ne_eob hc (by decide)) fun s₁ h₁ => cur_then ?_
    split
    · next hslash => exact next_then h₁.succ (ne_eob hslash (by decide)) fun s₂ h₂ => leave h₂.succ ()
    · exact go_on h₁ ()
  · next hc => exact set_then (next_then hf.under (ne_eob hc (by decide)) fun s₁ h₁ => go_on h₁ ())
  · exact error_ends _ hf
  · next hc =>
    exact next_then hf.under (ne_eob_of_not hc) fun s₁ h₁ => go_on h₁ ()

/-- The lexer is at the second slash. -/
theorem lexLineComment_ends (h : feed.Under b s) (hc : s.lexer.currdata ≠ squirrelEob) :
    Ends (lexLineComment src) s (fun _ => feed.Under b) feed.Harmless := by
  refine (loop_ends (J := fun _ s => s.lexer.currdata ≠ squirrelEob) (P := fun _ _ => True)
    (fun _ s hf hc => ?_) h hc).mono
    fun _ _ hs => hs.1
  refine next_then hf.under hc fun s₁ h₁ => cur_then ?_
  split
  · next hmore => exact .pure ⟨h₁, fun he => hmore.2 (by rw [he]; exact UInt8.le_refl _)⟩
  · exact .pure ⟨h₁.succ, trivial⟩

/-! ## Strings -/

theorem set_ends {f : SQLexer → SQLexer} (h : feed.Under b { s with lexer := f s.lexer }) :
    Ends (setLexer f) s (fun _ => feed.Under b) feed.Harmless := h

theorem next_ends (h : feed.Under (b + 1) s) (hc : s.lexer.currdata ≠ squirrelEob) :
    Ends (nextColumn src) s (fun _ => feed.Under b) feed.Harmless :=
  (nextColumn_ends h hc).mono fun _ _ hs => hs.1

/-- The lexer is at the `x`. -/
theorem readHexEscape_ends (h : feed.Under b s) (hc : s.lexer.currdata ≠ squirrelEob) :
    Ends (readHexEscape src) s (fun _ => feed.Under b) feed.Harmless := by
  refine next_then h.succ hc fun s₁ h₁ => cur_then ?_
  split
  · exact error_ends _ h₁.1
  · refine (loop_under (fun temp s hf => cur_then ?_) h₁).bind fun temp s₂ h₂ => set_ends h₂
    split
    · next hdigit => exact next_then hf.under (isxdigit_ne hdigit.1) fun s₃ h₃ => go_on h₃ _
    · exact leave hf.under temp

theorem readEscape_ends (h : feed.Under b s) : Ends (readEscape src) s (fun _ => feed.Under b) feed.Harmless := by
  refine cur_then ?_
  split
  · next hx => exact readHexEscape_ends h (ne_eob hx (by decide))
  · split
    · next e he =>
      exact set_then (next_ends h.succ (lookup_ne rfl he))
    · exact error_ends _ h.1

/-- At the end of the inner loop the lexer is at the delimiter. -/
theorem readUpTo_ends (ndelim : UInt8) (verbatim : Bool) (h : feed.Under b s) :
    Ends (readUpTo src ndelim verbatim) s (fun _ s' => feed.Under b s' ∧ s'.lexer.currdata = ndelim) feed.Harmless := by
  refine loop_ends (J := fun _ _ => True) (fun _ s hf _ => cur_then ?_) h trivial
  split
  · split
    · exact error_ends _ hf
    · next hc =>
      split
      · exact error_ends _ hf
      · exact set_then (next_then hf.under (ne_eob hc (by decide)) fun s₁ h₁ => set_then (.pure ⟨h₁, trivial⟩))
    · next hc =>
      have hne := ne_eob hc (by decide)
      split
      · exact set_then (next_then hf.under hne fun s₁ h₁ => .pure ⟨h₁, trivial⟩)
      · exact next_then hf.under hne fun s₁ h₁ => (readEscape_ends h₁).bind fun _ s₂ h₂ => .pure ⟨h₂, trivial⟩
    · next hc _ _ =>
      exact set_then (next_then hf.under (ne_eob_of_not hc) fun s₁ h₁ => .pure ⟨h₁, trivial⟩)
  · next hdelim => exact .pure ⟨hf.under, not_not.mp hdelim⟩

theorem stringToken_ends (ndelim : UInt8) (h : feed.Under b s) :
    Ends (stringToken ndelim : LexM R Int) s (fun _ => feed.Under b) feed.Harmless := by
  refine set_then (longstr_then ?_)
  split
  · split
    · exact error_ends _ h.1
    · split
      · exact error_ends _ h.1
      · exact set_then (.pure h)
  · exact set_then (.pure h)

/-- The lexer is at the delimiter that the string begins with. -/
theorem readString_ends {ndelim : UInt8} (verbatim : Bool) (h : feed.Under b s) (hc : s.lexer.currdata ≠ squirrelEob)
    (hd : ndelim ≠ squirrelEob) : Ends (readString src ndelim verbatim) s (fun _ => feed.Under b) feed.Harmless := by
  refine set_then (next_then (b := b) h.succ hc fun s₁ h₁ => cur_then ?_)
  split
  · exact .pure h₁
  · refine (loop_under (fun _ s hf => ?_) h₁).bind fun _ s₂ h₂ => stringToken_ends ndelim h₂
    refine (readUpTo_ends ndelim verbatim hf.under).bind fun _ s₃ h₃ => ?_
    refine next_then h₃.1 (by rw [h₃.2]; exact hd) fun s₄ h₄ => cur_then ?_
    split
    · next hquote => exact set_then (next_then h₄.succ (ne_eob hquote.2 (by decide)) fun s₅ h₅ => go_on h₅ ())
    · exact leave h₄.succ ()

/-! ## Numbers and identifiers -/

theorem readHexDigits_ends (h : feed.Under b s) (hall : s.lexer.longstr.all isxdigit = true) :
    Ends (readHexDigits src) s (fun _ s' => feed.Under b s' ∧ s'.lexer.longstr.all isxdigit = true) feed.Harmless := by
  refine (loop_ends (J := fun _ s => s.lexer.longstr.all isxdigit = true)
    (P := fun _ s => s.lexer.longstr.all isxdigit = true)
    (fun _ s hf hall => cur_then ?_) h hall).bind fun _ s₁ h₁ => longstr_then ?_
  · split
    · next hdigit =>
      refine set_keep hf.under rfl fun s₁ h₁ heq hcur => ?_
      refine (nextColumn_ends h₁ (by rw [hcur]; exact isxdigit_ne hdigit)).bind fun _ s₂ h₂ => .pure ⟨h₂.1, ?_⟩
      show s₂.lexer.longstr.all isxdigit = true
      rw [h₂.2, heq, List.all_append, hall]
      simp [hdigit]
    · exact .pure ⟨hf.under, hall⟩
  · split
    · exact error_ends _ h₁.1.1
    · exact .pure h₁

/-- The lexer is at the `e`, and then at the first digit of the exponent. -/
theorem readExponent_ends (type : NumberType) (c : UInt8) (h : feed.Under b s) (hc : s.lexer.currdata ≠ squirrelEob) :
    Ends (readExponent src type c) s (fun _ s' => feed.Under b s' ∧ isdigit s'.lexer.currdata = true)
      feed.Harmless := by
  unfold readExponent
  split
  · exact error_ends _ h.1
  · refine set_then (next_then (b := b) h.succ hc fun s₁ h₁ => cur_then ?_)
    split
    · next hsign =>
      have hne : s₁.lexer.currdata ≠ squirrelEob :=
        hsign.elim (fun hs => ne_eob hs (by decide)) fun hs => ne_eob hs (by decide)
      refine set_then (next_then (b := b) h₁.succ hne fun s₂ h₂ => cur_then ?_)
      split
      · exact error_ends _ h₂.1
      · next hdigit => exact .pure ⟨h₂, not_not.mp hdigit⟩
    · split
      · exact error_ends _ h₁.1
      · next hdigit => exact .pure ⟨h₁, not_not.mp hdigit⟩

/-- The digits are none of a hexadecimal number. -/
theorem readDigits_ends (h : feed.Under b s) :
    Ends (readDigits src) s (fun type s' => feed.Under b s' ∧ type ≠ .hex) feed.Harmless := by
  refine loop_ends (J := fun type _ => type ≠ .hex) (fun type s hf htype => cur_then ?_) h (by decide)
  split
  · next hmore =>
    have hne : s.lexer.currdata ≠ squirrelEob :=
      hmore.elim (fun hs => ne_eob hs (by decide)) fun hs => hs.elim isdigit_ne isexponent_ne
    simp only
    split
    · refine (readExponent_ends _ _ hf.under hne).bind fun _ s₁ h₁ => cur_then (set_then ?_)
      exact next_then h₁.1 (isdigit_ne h₁.2) fun s₂ h₂ => .pure ⟨h₂, fun h => nomatch h⟩
    · refine set_then (next_then hf.under hne fun s₁ h₁ => .pure ⟨h₁, ?_⟩)
      show (if chr s.lexer.currdata = '.' then NumberType.float else type) ≠ .hex
      split
      · exact fun h => nomatch h
      · exact htype
  · exact .pure ⟨hf.under, htype⟩

theorem numberToken_ends {type : NumberType} (h : feed.Under b s)
    (hhex : type = .hex → s.lexer.longstr.all isxdigit = true) :
    Ends (numberToken src type) s (fun _ => feed.Under b) feed.Harmless := by
  refine set_then (longstr_then ?_)
  cases type with
  | scientific => exact set_then (.pure h)
  | float => exact set_then (.pure h)
  | int => exact set_then (.pure h)
  | hex =>
    have hall := hhex rfl
    have hnul : (0 : UInt8) ∉ s.lexer.longstr := fun hmem => isxdigit_ne (List.all_eq_true.mp hall 0 hmem) rfl
    have hvalue : lexHexadecimal src.locale (s.lexer.longstr ++ [0]) =
        some (hexadecimal src.locale.toupper s.lexer.longstr) := by
      rw [lexHexadecimal, cString_terminated hnul, if_pos hall]
    simp only [hvalue]
    exact set_then (.pure h)

/-- The lexer is at the first digit. -/
theorem readNumber_ends (h : feed.Under b s) (hc : s.lexer.currdata ≠ squirrelEob) :
    Ends (readNumber src) s (fun _ => feed.Under b) feed.Harmless := by
  refine cur_then (set_keep h rfl fun s₀ h₀ heq hcur => ?_)
  refine (nextColumn_ends h₀.succ (by rw [hcur]; exact hc)).bind fun _ s₁ h₁ => cur_then ?_
  split
  · next hx =>
    refine (nextColumn_ends h₁.1.succ (toupper_ne hx.2 (by decide))).bind fun _ s₂ h₂ => ?_
    have hempty : s₂.lexer.longstr = [] := by rw [h₂.2, h₁.2, heq]
    refine (readHexDigits_ends h₂.1 (by rw [hempty]; rfl)).bind fun _ s₃ h₃ => ?_
    exact numberToken_ends h₃.1 fun _ => h₃.2
  · refine set_keep h₁.1 rfl fun s₂ h₂ _ _ => (readDigits_ends h₂).bind fun type s₃ h₃ => ?_
    exact numberToken_ends h₃.1 fun htype => absurd htype h₃.2

/-- The lexer is at the first letter. -/
theorem readID_ends (h : feed.Under b s) (hc : s.lexer.currdata ≠ squirrelEob) :
    Ends (readID src) s (fun _ => feed.Under b) feed.Harmless := by
  refine set_keep h rfl fun s₀ h₀ _ hcur => ?_
  have hc₀ : s₀.lexer.currdata ≠ squirrelEob := by
    rw [hcur]
    exact hc
  refine (loop_ends (J := fun _ s => s.lexer.currdata ≠ squirrelEob) (P := fun _ _ => True)
    (fun _ s hf hc => ?_) h₀ hc₀).bind
    fun _ s₁ h₁ => set_then (longstr_then ?_)
  · refine cur_then (set_then (next_then hf.under hc fun s₁ h₁ => cur_then ?_))
    split
    · next hmore => exact .pure ⟨h₁, hmore.elim isalnum_ne fun hs => ne_eob hs (by decide)⟩
    · exact .pure ⟨h₁.succ, trivial⟩
  · simp only
    split
    · exact set_then (.pure h₁.1)
    · exact .pure h₁.1

/-! ## `Lex` -/

theorem returnToken_ends (t : Int) (h : feed.Under (b + 1) s) :
    Ends (returnToken t) s (feed.AfterTurn b) feed.Harmless :=
  set_then (.pure ⟨h, trivial⟩)

theorem next_token (t : Int) (h : feed.Under (b + 1) s) (hc : s.lexer.currdata ≠ squirrelEob) :
    Ends (do nextColumn src; returnToken t) s (feed.AfterTurn b) feed.Harmless :=
  next_then h hc fun _ h₁ => returnToken_ends t h₁.succ

/-- The longer operators go on with a character. -/
theorem lexOperator_ends (c : UInt8) {longer : List (Char × Int)} (hl : longer.lookup '\x00' = none)
    (h : feed.Under (b + 1) s) (hc : s.lexer.currdata ≠ squirrelEob) :
    Ends (lexOperator src c longer) s (feed.AfterTurn b) feed.Harmless := by
  refine next_then h hc fun s₁ h₁ => cur_then ?_
  split
  · next t ht => exact next_token t h₁.succ (lookup_ne hl ht)
  · exact returnToken_ends _ h₁.succ

theorem lexSlash_ends (h : feed.Under (b + 1) s) (hc : s.lexer.currdata ≠ squirrelEob) :
    Ends (lexSlash src) s (feed.AfterTurn b) feed.Harmless := by
  refine next_then h hc fun s₁ h₁ => cur_then ?_
  split
  · next hstar =>
    refine next_then h₁.succ (ne_eob hstar (by decide)) fun s₂ h₂ => ?_
    exact (lexBlockComment_ends h₂).bind fun _ s₃ h₃ => go_on h₃ ()
  · next hslash => exact (lexLineComment_ends h₁ (ne_eob hslash (by decide))).bind fun _ s₂ h₂ => go_on h₂ ()
  · next heq => exact next_token _ h₁.succ (ne_eob heq (by decide))
  · next hgreater => exact next_token _ h₁.succ (ne_eob hgreater (by decide))
  · exact returnToken_ends _ h₁.succ

theorem lexGreater_ends (h : feed.Under (b + 1) s) (hc : s.lexer.currdata ≠ squirrelEob) :
    Ends (lexGreater src) s (feed.AfterTurn b) feed.Harmless := by
  refine next_then h hc fun s₁ h₁ => cur_then ?_
  split
  · next heq => exact next_token _ h₁.succ (ne_eob heq (by decide))
  · next hgreater =>
    refine next_then h₁.succ (ne_eob hgreater (by decide)) fun s₂ h₂ => cur_then ?_
    split
    · next hthird => exact next_token _ h₂.succ (ne_eob hthird (by decide))
    · exact returnToken_ends _ h₂.succ
  · exact returnToken_ends _ h₁.succ

theorem lexPoint_ends (h : feed.Under (b + 1) s) (hc : s.lexer.currdata ≠ squirrelEob) :
    Ends (lexPoint src) s (feed.AfterTurn b) feed.Harmless := by
  refine next_then h hc fun s₁ h₁ => cur_then ?_
  split
  · exact returnToken_ends _ h₁.succ
  · next hsecond =>
    refine next_then h₁.succ (ne_eob (not_not.mp hsecond) (by decide)) fun s₂ h₂ => cur_then ?_
    split
    · exact error_ends _ h₂.1
    · next hthird => exact next_token _ h₂.succ (ne_eob (not_not.mp hthird) (by decide))

theorem lexString_ends {ndelim : UInt8} (verbatim : Bool) (h : feed.Under (b + 1) s)
    (hc : s.lexer.currdata ≠ squirrelEob)
    (hd : ndelim ≠ squirrelEob) : Ends (lexString src ndelim verbatim) s (feed.AfterTurn b) feed.Harmless := by
  refine (readString_ends verbatim h hc hd).bind fun stype s₁ h₁ => ?_
  split
  · exact returnToken_ends _ h₁
  · exact error_ends _ h₁.1

theorem lexVerbatim_ends (h : feed.Under (b + 1) s) (hc : s.lexer.currdata ≠ squirrelEob) :
    Ends (lexVerbatim src) s (feed.AfterTurn b) feed.Harmless := by
  refine next_then h hc fun s₁ h₁ => cur_then ?_
  split
  · exact error_ends _ h₁.1
  · next hquote => exact lexString_ends true h₁.succ (ne_eob (not_not.mp hquote) (by decide)) (by decide)

theorem lexDefault_ends (c : UInt8) (h : feed.Under (b + 1) s) (hc : s.lexer.currdata ≠ squirrelEob) :
    Ends (lexDefault src c) s (feed.AfterTurn b) feed.Harmless := by
  unfold lexDefault
  split
  · exact (readNumber_ends h hc).bind fun t s₁ h₁ => returnToken_ends t h₁
  · split
    · exact (readID_ends h hc).bind fun t s₁ h₁ => returnToken_ends t h₁
    · split
      · exact error_ends _ h.1
      · exact next_token _ h hc

/-- The `switch` begins at a character. -/
theorem lexSwitch_ends (h : feed.Under (b + 1) s) (hc : s.lexer.currdata ≠ squirrelEob) :
    Ends (lexSwitch src s.lexer.currdata) s (feed.AfterTurn b) feed.Harmless := by
  have hspace : Ends (do nextColumn src; return .inl () : LexM R (Unit ⊕ Int)) s (feed.AfterTurn b) feed.Harmless :=
    next_then h hc fun s₁ h₁ => go_on h₁ ()
  unfold lexSwitch
  split
  case h_4 =>
    refine set_keep h rfl fun s₁ h₁ _ hcur => ?_
    exact next_then h₁ (by rw [hcur]; exact hc) fun s₂ h₂ => set_then (.pure ⟨h₂, trivial⟩)
  case h_5 => exact lexSlash_ends h hc
  case h_8 => exact lexGreater_ends h hc
  case h_10 => exact lexVerbatim_ends h hc
  case h_11 | h_12 => exact lexString_ends false h hc hc
  all_goals first
    | exact hspace
    | exact lexOperator_ends _ rfl h hc
    | exact lexPoint_ends h hc
    | exact leave h 0
    | exact lexDefault_ends _ h hc

theorem lex_ends (h : feed.Under b s) : Ends (lex src) s (fun _ => feed.Under b) feed.Harmless := by
  refine set_then (loop_under (fun _ s hf => cur_then ?_) h)
  split
  · next hc => exact lexSwitch_ends hf.under hc
  · exact leave hf.under 0

/-! ## The compiler -/

theorem compileFrom_ends (more : List (Int × SQLexer) → Bool) :
    ∀ (n : Nat) (tokens : List (Int × SQLexer)) {s : Lexing R},
    feed.Under b s → Ends (compileFrom src more n tokens) s (fun _ => feed.Under b) feed.Harmless
  | 0, _, _, h => .pure h
  | n + 1, tokens, s, h => by
    unfold compileFrom
    split
    · exact (lex_ends h).bind fun token s₁ h₁ => compileFrom_ends more n _ h₁
    · exact .pure h

/-- A compilation that begins with an open reader ends in step with it. -/
theorem compile_ends (more : List (Int × SQLexer) → Bool) (n : Nat) (h : feed.Open s.reader) :
    Ends (compile src more n) s (fun _ => feed.Fed) feed.Harmless := by
  have hinit : Ends (init src) s (fun _ => feed.Under (feed.left s.reader)) feed.Harmless := by
    refine set_then ?_
    refine (next_open ?_).mono fun _ _ hs => hs.1
    exact h
  exact hinit.bind fun _ s₁ h₁ => (compileFrom_ends more n [] h₁).mono fun _ _ hs => hs.1

end Feed

/-! ## The text of a script -/

/-- `m_currentStringProgram`, by how far it is in the text, and what the calls of
`SquirrelReadCallback` have returned; a call that does not return is among them too. -/
structure StringProgram where
  current : Option Nat
  calls : List (Option Int)
deriving DecidableEq, Repr

/-- `SquirrelReadCallback`. -/
def squirrelReadCallback (string : Bytes) : StateT StringProgram (Except (Fault × StringProgram)) Int := fun p =>
  match p.current with
  | none => .error (.nullDeref, { p with calls := p.calls ++ [none] })
  | some i =>
    match string[i]? with
    | none => .error (.wildDeref, { p with calls := p.calls ++ [none] })
    | some currentChar =>
      let returned := currentChar.toInt8.toInt
      .ok (returned, { current := if currentChar ≠ 0 then some (i + 1) else none, calls := p.calls ++ [some returned] })

/-! ### Bytes as `char` -/

theorem toInt8_cond (c : UInt8) : c.toInt8.toInt = if 2 * c.toNat < 2 ^ 8 then (c.toNat : Int) else c.toNat - 2 ^ 8 :=
  BitVec.toInt_eq_toNat_cond _

/-- The cast back. -/
theorem lexChar_toInt8 (c : UInt8) : lexChar c.toInt8.toInt = c := by
  have hlt := c.toNat_lt
  refine UInt8.toNat_inj.mp ?_
  rw [lexChar, UInt8.ofInt, UInt8.toNat_ofNat', toInt8_cond]
  split <;> omega

theorem toInt8_eq_zero {c : UInt8} (h : c.toInt8.toInt = 0) : c = 0 := by
  rw [← lexChar_toInt8 c, h]
  rfl

theorem toInt8_le_maxChar (c : UInt8) : c.toInt8.toInt ≤ maxChar := by
  have hlt := c.toNat_lt
  rw [toInt8_cond, maxChar]
  split <;> omega

/-! ### A compilation -/

/-- What a compilation is given: the locale of the process, the turns of a loop, the
compiler above the lexer with the tokens it is followed for, and what is in the memory of
the lexer before `Init`. -/
structure Compilation where
  locale : CLocale
  turns : Nat
  more : List (Int × SQLexer) → Bool
  tokens : Nat
  lexer : SQLexer

def Compilation.source (k : Compilation) (string : Bytes) : LexSource StringProgram where
  readf := squirrelReadCallback string
  locale := k.locale
  turns := k.turns

/-- `ExecuteString` up to the end of `sq_compile`. -/
def compileString (k : Compilation) (string : Bytes) :
    Except (LexStop × Lexing StringProgram) (List (Int × SQLexer) × Lexing StringProgram) :=
  compile (k.source string) k.more k.tokens { lexer := k.lexer, reader := { current := some 0, calls := [] } }

/-- The state at the end, or where it stops. -/
def lastState {ε σ α : Type} : Except (ε × σ) (α × σ) → σ
  | .ok r => r.2
  | .error r => r.2

/-- What the callback returns for a byte. -/
def returned (c : UInt8) : Option Int := some c.toInt8.toInt

namespace StringProgram

variable {text behind : Bytes} {p : StringProgram}

/-- So much of the text has been returned. -/
def Open (text : Bytes) (p : StringProgram) : Prop :=
  ∃ n, n ≤ text.length ∧ p.current = some n ∧ p.calls = (text.take n).map returned

/-- The text has been returned, and the end. -/
def Ended (text : Bytes) (p : StringProgram) : Prop := p.current = none ∧ p.calls = text.map returned ++ [some 0]

/-- The calls to come. -/
def left (text : Bytes) (p : StringProgram) : Nat := text.length + 1 - p.calls.length

theorem Open.left {n : Nat} (hn : n ≤ text.length) (hcalls : p.calls = (text.take n).map returned) :
    p.left text = text.length + 1 - n := by
  rw [StringProgram.left, hcalls, List.length_map, List.length_take, Nat.min_eq_left hn]

/-- A call while the text is not at its end. -/
theorem read_ok (h0 : (0 : UInt8) ∉ text) (h : p.Open text) :
    ∃ t p', squirrelReadCallback (text ++ 0 :: behind) p = .ok (t, p') ∧ t ≤ maxChar ∧ p'.left text < p.left text ∧
      if t = 0 then p'.Ended text else lexChar t ≠ squirrelEob ∧ p'.Open text := by
  obtain ⟨n, hn, hcurrent, hcalls⟩ := h
  have hleft := Open.left hn hcalls
  rcases Nat.lt_or_eq_of_le hn with hlt | rfl
  · have hchar : (text ++ 0 :: behind)[n]? = some text[n] := by
      rw [List.getElem?_append_left hlt, List.getElem?_eq_getElem hlt]
    have hne : text[n] ≠ 0 := fun he => h0 (he ▸ List.getElem_mem hlt)
    have hopen : StringProgram.Open text { current := some (n + 1), calls := p.calls ++ [returned text[n]] } := by
      refine ⟨n + 1, hlt, rfl, ?_⟩
      show p.calls ++ [returned text[n]] = _
      rw [hcalls, List.take_add_one, List.getElem?_eq_getElem hlt, List.map_append]
      rfl
    refine ⟨_, { current := some (n + 1), calls := p.calls ++ [returned text[n]] }, ?_,
      toInt8_le_maxChar text[n], ?_, ?_⟩
    · simp only [squirrelReadCallback, hcurrent, hchar, if_pos hne]
      rfl
    · obtain ⟨m, hm, hcurrent', hcalls'⟩ := hopen
      cases hcurrent'
      rw [hleft, Open.left hm hcalls']
      omega
    · rw [if_neg fun ht => hne (toInt8_eq_zero ht), lexChar_toInt8]
      exact ⟨hne, hopen⟩
  · have hchar : (text ++ 0 :: behind)[text.length]? = some 0 := by simp
    have hall : p.calls = text.map returned := by rw [hcalls, List.take_length]
    refine ⟨0, { current := none, calls := p.calls ++ [some 0] }, ?_, by decide, ?_, ?_⟩
    · simp only [squirrelReadCallback, hcurrent, hchar]
      rfl
    · simp only [StringProgram.left, List.length_append, hall, List.length_map, List.length_singleton]
      omega
    · rw [if_pos rfl]
      exact ⟨rfl, by rw [hall]⟩

/-- The lexer is fed from the text. -/
def feed (k : Compilation) (behind : Bytes) (h0 : (0 : UInt8) ∉ text) (ht : text.length + 1 < k.turns) :
    Feed (k.source (text ++ 0 :: behind)) where
  Open := StringProgram.Open text
  Ended := StringProgram.Ended text
  left := StringProgram.left text
  turns _ := Nat.lt_of_le_of_lt (Nat.sub_le _ _) ht
  reads _ h := read_ok h0 h

/-- The calls so far are the first of those for the whole text. -/
theorem calls_prefix (h : p.Open text ∨ p.Ended text) : p.calls <+: text.map returned ++ [some 0] := by
  rcases h with ⟨n, -, -, hcalls⟩ | ⟨-, hcalls⟩
  · rw [hcalls, List.map_take]
    exact (List.take_prefix _ _).trans (List.prefix_append _ _)
  · exact ⟨[], by rw [hcalls, List.append_nil]⟩

end StringProgram

/-- Wherever a compilation ends or stops, the callback has been in the text: what it
returned are the first of the bytes and the NUL, and only the lexer's errors stop it. -/
theorem compileString_in_text (k : Compilation) {text : Bytes} (behind : Bytes) (h0 : (0 : UInt8) ∉ text)
    (ht : text.length + 1 < k.turns) :
    (lastState (compileString k (text ++ 0 :: behind))).reader.calls <+: text.map returned ++ [some 0] ∧
      ∀ stop s, compileString k (text ++ 0 :: behind) = .error (stop, s) → ∃ err, stop = .error err := by
  let feed := StringProgram.feed k behind h0 ht
  have hfed : ∀ s, feed.Fed s → s.reader.Open text ∨ s.reader.Ended text := by
    intro s hs
    unfold Feed.Fed at hs
    split at hs
    · exact .inr hs
    · exact .inl hs
  have hopen : StringProgram.Open text { current := some 0, calls := [] } := ⟨0, Nat.zero_le _, rfl, rfl⟩
  have hends := feed.compile_ends (s := { lexer := k.lexer, reader := _ }) k.more k.tokens hopen
  cases hr : compileString k (text ++ 0 :: behind) with
  | ok r => exact ⟨StringProgram.calls_prefix (hfed _ (hends.ok hr)), fun stop s h => nomatch h⟩
  | error r =>
    obtain ⟨herr, hs⟩ := hends.error hr
    refine ⟨StringProgram.calls_prefix (hfed _ hs), fun stop s h => ?_⟩
    cases h
    exact herr

/-- During `sq_compile` the callback is called once for each byte of the script and once for
the end at most, not after it has returned 0, and never with `NULL`. -/
theorem reader_not_past_end (k : Compilation) {text : Bytes} (behind : Bytes) (h0 : (0 : UInt8) ∉ text)
    (ht : text.length + 1 < k.turns) :
    let string := text ++ 0 :: behind
    let calls := (lastState (compileString k string)).reader.calls
    calls.length ≤ strlen string + 1 ∧ (∀ before after, calls = before ++ some 0 :: after → after = []) ∧
      none ∉ calls ∧ ∀ stop s, compileString k string = .error (stop, s) → ∃ err, stop = .error err := by
  intro string calls
  obtain ⟨⟨rest, hrest⟩, herrors⟩ := compileString_in_text k behind h0 ht
  have hall : calls ++ rest = text.map returned ++ [some 0] := hrest
  have hzero : some 0 ∉ text.map returned := by
    intro hmem
    obtain ⟨c, hc, heq⟩ := List.mem_map.mp hmem
    exact h0 (toInt8_eq_zero (Option.some.inj heq) ▸ hc)
  refine ⟨?_, fun before after heq => ?_, fun hnone => ?_, herrors⟩
  · have hlength := congrArg List.length hall
    simp only [List.length_append, List.length_map, List.length_singleton] at hlength
    show calls.length ≤ strlen (text ++ 0 :: behind) + 1
    rw [strlen_terminated h0]
    omega
  · rw [heq, List.append_assoc, List.cons_append] at hall
    obtain ⟨-, -, hnil⟩ := (List.append_cons_inj_of_notMem hzero List.not_mem_nil).mp hall.symm
    exact (List.append_eq_nil_iff.mp hnil.symm).1
  · have hmem : none ∈ text.map returned ++ [some 0] := hall ▸ List.mem_append_left _ hnone
    simp [returned] at hmem

/-- A comment that does not end, in the "C" locale; the text has no number with a point. -/
def openComment : Compilation where
  locale :=
    { isalpha := fun c => (chr c).isAlpha
      iscntrl := fun c => c < 32 || c = 127
      toupper := fun c => if (chr c).isLower then c - 32 else c
      strtod := fun _ => .ofInt 0
      isalpha_nul := by decide
      toupper_nul := by decide }
  turns := 4
  more := fun tokens => tokens.getLast?.all (·.1 > 0)
  tokens := 10
  lexer :=
    { curtoken := 0, prevtoken := 0, currentline := 0, lasttokenline := 0, currentcolumn := 0,
      svalue := [], nvalue := 0,
      fvalue := .ofInt 0, currdata := 0, longstr := [] }

theorem reader_not_past_end_comment :
    let r := compileString openComment (cstr "/*" ++ 0 :: [])
    (lastState r).reader.calls = [some 47, some 42, some 0] ∧ none ∉ (lastState r).reader.calls ∧
      ∀ stop s, r = .error (stop, s) → ∃ err, stop = .error err := by
  have hin := @reader_not_past_end openComment (cstr "/*") [] (by decide) (by decide)
  exact ⟨by decide, hin.2.2⟩

end MultiScript.Squirrel
