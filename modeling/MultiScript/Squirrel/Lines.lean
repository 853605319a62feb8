/-
Where the Squirrel lexer is said to be, and that it comes to the end. The line it counts is
the line of the text at every token and at every error, whatever has been read as a
comment or a string; and each token but the last takes a character of the text.
-/
import MultiScript.Squirrel.Scan
import MultiScript.ScriptReader

namespace MultiScript.Squirrel

open Act Loop

namespace SQLexer

variable {R α β : Type}

/-- The lexer is in the text with less than `b` characters to come, and so many lines ahead
of its place as `d`. -/
def Spot (src : LexSource R) (text : Bytes) (d : Int) (b : Nat) (s : Lexing R) : Prop :=
  ∃ before rest, text = before ++ rest ∧ At src rest s ∧ s.lexer.currentline = 1 + before.count lineEnd + d ∧
    rest.length < b

/-- The compilation stops with an error of the lexer, which counts as many lines as there are. -/
def Told (src : LexSource R) (text : Bytes) (x : LexStop × Lexing R) : Prop :=
  (∃ err, x.1 = .error err) ∧ ∃ b, Spot src text 0 b x.2

/-- What a turn of a loop comes to. -/
def Turned (src : LexSource R) (text : Bytes) (J : α → Lexing R → Prop) (P : Nat → β → Lexing R → Prop) (b : Nat) :
    α ⊕ β → Lexing R → Prop
  | .inl a, s => Spot src text 0 b s ∧ J a s
  | .inr r, s => P b r s

/-- The loop has been left, with a character to come or none. -/
def Left (src : LexSource R) (text : Bytes) (P : β → Lexing R → Prop) (b : Nat) (r : β) (s : Lexing R) : Prop :=
  Spot src text 0 (b + 1) s ∧ P r s

/-- The loop has been left, and a character taken. -/
def Taken (src : LexSource R) (text : Bytes) (P : β → Lexing R → Prop) (b : Nat) (r : β) (s : Lexing R) : Prop :=
  Spot src text 0 b s ∧ P r s

/-- A turn of which nothing else is to be known. -/
abbrev AfterTurn (src : LexSource R) (text : Bytes) (b : Nat) : α ⊕ β → Lexing R → Prop :=
  Turned src text (fun _ _ => True) (Left src text fun _ _ => True) b

namespace Spot

variable {src : LexSource R} {text : Bytes} {d : Int} {b : Nat} {s : Lexing R} {Q : β → Lexing R → Prop}
  {E : LexStop × Lexing R → Prop}

theorem mono {c : Nat} (h : Spot src text d b s) (hbc : b ≤ c) : Spot src text d c s := by
  obtain ⟨before, rest, htext, hat, hline, hb⟩ := h
  exact ⟨before, rest, htext, hat, hline, Nat.lt_of_lt_of_le hb hbc⟩

theorem succ (h : Spot src text d b s) : Spot src text d (b + 1) s := h.mono (Nat.le_succ b)

/-! ## The steps of a `do` block -/

/-- What is set is neither the character nor the line. -/
theorem set {f : SQLexer → SQLexer} {k : Unit → LexM R β} (h : Spot src text d b s)
    (hc : (f s.lexer).currdata = s.lexer.currdata) (hl : (f s.lexer).currentline = s.lexer.currentline)
    (hk : ∀ s', Spot src text d b s' → s'.lexer = f s.lexer → Ends (k ()) s' Q E) : Ends (setLexer f >>= k) s Q E := by
  obtain ⟨before, rest, htext, hat, hline, hb⟩ := h
  exact hat.set hc fun s' hat' he => hk s' ⟨before, rest, htext, hat', by rw [he, hl, hline], hb⟩ he

/-- The line is counted. -/
theorem line {f : SQLexer → SQLexer} {k : Unit → LexM R β} (h : Spot src text d b s)
    (hc : (f s.lexer).currdata = s.lexer.currdata) (hl : (f s.lexer).currentline = s.lexer.currentline + 1)
    (hk : ∀ s', Spot src text (d + 1) b s' → s'.lexer = f s.lexer → Ends (k ()) s' Q E) :
    Ends (setLexer f >>= k) s Q E := by
  obtain ⟨before, rest, htext, hat, hline, hb⟩ := h
  exact hat.set hc fun s' hat' he => hk s' ⟨before, rest, htext, hat', by rw [he, hl, hline]; omega, hb⟩ he

theorem cur {k : UInt8 → LexM R β} (h : Ends (k s.lexer.currdata) s Q E) : Ends (curChar >>= k) s Q E := h

theorem longstr {k : Bytes → LexM R β} (h : Ends (k s.lexer.longstr) s Q E) : Ends (getLongstr >>= k) s Q E := h

/-- `NEXT()` from a character. -/
theorem next_any {k : Unit → LexM R β} (h : Spot src text d (b + 1) s) (hc : s.lexer.currdata ≠ squirrelEob)
    (hk : ∀ s', Spot src text (if s.lexer.currdata = lineEnd then d - 1 else d) b s' →
      s'.lexer.longstr = s.lexer.longstr →
      Ends (k ()) s' Q E) :
    Ends (nextColumn src >>= k) s Q E := by
  obtain ⟨before, rest, htext, hat, hline, hb⟩ := h
  cases rest with
  | nil => exact absurd hat hc
  | cons c rest =>
    have hcur : s.lexer.currdata = c := hat.cur
    refine hat.next fun s' hat' he => hk s' ⟨before ++ [c], rest, ?_, hat', ?_, by simpa using hb⟩ (by rw [he]; rfl)
    · rw [htext, List.append_assoc]
      rfl
    · rw [he, hcur, List.count_append, List.count_singleton, show (passed s.lexer rest).currentline =
        s.lexer.currentline from rfl,
        hline]
      by_cases hn : c = lineEnd
      · rw [if_pos hn, if_pos (by simp [hn])]
        omega
      · rw [if_neg hn, if_neg (by simp [hn])]
        omega

theorem next {k : Unit → LexM R β} (h : Spot src text d (b + 1) s) (hc : s.lexer.currdata ≠ squirrelEob)
    (hn : s.lexer.currdata ≠ lineEnd)
    (hk : ∀ s', Spot src text d b s' → s'.lexer.longstr = s.lexer.longstr → Ends (k ()) s' Q E) :
    Ends (nextColumn src >>= k) s Q E := by
  refine h.next_any hc fun s' hs' => hk s' ?_
  rwa [if_neg hn] at hs'

/-- Past the end of a line. -/
theorem next_line {k : Unit → LexM R β} (h : Spot src text d (b + 1) s) (hn : s.lexer.currdata = lineEnd)
    (hk : ∀ s', Spot src text (d - 1) b s' → Ends (k ()) s' Q E) : Ends (nextColumn src >>= k) s Q E := by
  refine h.next_any (by rw [hn]; decide) fun s' hs' _ => hk s' ?_
  rwa [if_pos hn] at hs'

theorem error (err : String) (h : Spot src text 0 b s) : Ends (SQLexer.error err : LexM R β) s Q (Told src text) :=
  ⟨⟨err, rfl⟩, b, h⟩

/-- A loop, by one turn of it; there are turns for all of the text. -/
theorem loop_turned {J : α → Lexing R → Prop} {P : Nat → β → Lexing R → Prop} {body : α → LexM R (α ⊕ β)} {turns : Nat}
    (hP : ∀ {m n r s}, m ≤ n → P m r s → P n r s) (ht : text.length < turns)
    (hbody : ∀ b a s, Spot src text 0 (b + 1) s → J a s →
      Ends (body a) s (Turned src text J P b) (Told src text)) {a : α}
    (h : Spot src text 0 (b + 1) s) (hJ : J a s) : Ends (loopM outOfTurns body turns a) s (P b) (Told src text) := by
  obtain ⟨before, rest, htext, hat, hline, hb⟩ := h
  have hlt : rest.length < turns := by
    have hlength := congrArg List.length htext
    rw [List.length_append] at hlength
    omega
  refine loopM_down (I := fun n a s => n ≤ b ∧ Spot src text 0 (n + 1) s ∧ J a s) (fun n a s hi => ?_) turns
    ⟨Nat.le_of_lt_succ hb, ⟨before, rest, htext, hat, hline, Nat.lt_succ_self _⟩, hJ⟩ hlt
  obtain ⟨hn, hs, ha⟩ := hi
  refine (hbody n a s hs ha).mono fun r s' hr => ?_
  cases r with
  | inl a' =>
    obtain ⟨before, rest, htext, hat, hline, hlt⟩ := hr.1
    exact ⟨rest.length, hlt, by omega, ⟨before, rest, htext, hat, hline, Nat.lt_succ_self _⟩, hr.2⟩
  | inr r => exact hP hn hr

theorem loop {J : α → Lexing R → Prop} {P : β → Lexing R → Prop} {body : α → LexM R (α ⊕ β)} {turns : Nat}
    (ht : text.length < turns)
    (hbody : ∀ b a s, Spot src text 0 (b + 1) s → J a s →
      Ends (body a) s (Turned src text J (Left src text P) b) (Told src text)) {a : α}
    (h : Spot src text 0 b s) (hJ : J a s) :
    Ends (loopM outOfTurns body turns a) s (fun r s' => Spot src text 0 b s' ∧ P r s') (Told src text) := by
  obtain ⟨m, rfl⟩ : ∃ m, b = m + 1 := by
    obtain ⟨before, rest, -, -, -, hlt⟩ := h
    exact ⟨b - 1, by omega⟩
  exact loop_turned (fun hmn hs => ⟨hs.1.mono (Nat.succ_le_succ hmn), hs.2⟩) ht hbody h hJ

/-- A loop of which nothing else is to be known. -/
theorem loop_on {body : α → LexM R (α ⊕ β)} {turns : Nat} (ht : text.length < turns)
    (hbody : ∀ b a s, Spot src text 0 (b + 1) s → Ends (body a) s (AfterTurn src text b) (Told src text)) {a : α}
    (h : Spot src text 0 b s) :
    Ends (loopM outOfTurns body turns a) s (fun _ => Spot src text 0 b) (Told src text) :=
  (loop ht (fun b a s hs _ => hbody b a s hs) h trivial).mono fun _ _ hs => hs.1

theorem go_on (h : Spot src text 0 b s) (a : α) :
    Ends (pure (.inl a) : LexM R (α ⊕ β)) s (AfterTurn src text b) (Told src text) :=
  .pure ⟨h, trivial⟩

theorem leave (h : Spot src text 0 (b + 1) s) (r : β) :
    Ends (pure (.inr r) : LexM R (α ⊕ β)) s (AfterTurn src text b) (Told src text) :=
  .pure ⟨h, trivial⟩

/-! ## Characters that end no line -/

theorem ne_end {c : UInt8} {x : Char} (h : chr c = x) (hx : x ≠ '\n') : c ≠ lineEnd := by
  rintro rfl
  exact hx h.symm

theorem ne_end_of_not {c : UInt8} (h : chr c = '\n' → False) : c ≠ lineEnd := fun he => h (congrArg chr he)

theorem lookup_ne_end {γ : Type} {l : List (Char × γ)} {c : UInt8} {x : γ} (hl : l.lookup '\n' = none)
    (h : l.lookup (chr c) = some x) : c ≠ lineEnd := by
  intro he
  rw [he, show chr lineEnd = '\n' from rfl, hl] at h
  cases h

theorem isdigit_ne_end {c : UInt8} (h : isdigit c = true) : c ≠ lineEnd := by
  rintro rfl
  cases h

theorem isxdigit_ne_end {c : UInt8} (h : isxdigit c = true) : c ≠ lineEnd := by
  rintro rfl
  cases h

theorem isexponent_ne_end {c : UInt8} (h : isexponent c = true) : c ≠ lineEnd := by
  rintro rfl
  cases h

theorem isalnum_ne_end {locale : CLocale} (hlocale : locale.Ascii) {c : UInt8} (h : locale.isalnum c = true) :
    c ≠ lineEnd := by
  rintro rfl
  rw [CLocale.isalnum, (hlocale lineEnd (by decide)).1] at h
  cases h

theorem toupper_ne_end {locale : CLocale} (hlocale : locale.Ascii) {c : UInt8} {x : Char}
    (h : chr (locale.toupper c) = x)
    (hx : x ≠ '\n') : c ≠ lineEnd := by
  rintro rfl
  rw [(hlocale lineEnd (by decide)).2] at h
  exact hx h.symm

/-! ## Comments -/

open Feed (ne_eob ne_eob_of_not lookup_ne isdigit_ne isxdigit_ne isexponent_ne isalnum_ne toupper_ne)

theorem lexBlockComment_spot (ht : text.length < src.turns) (h : Spot src text 0 b s) :
    Ends (lexBlockComment src) s (fun _ => Spot src text 0 b) (Told src text) := by
  refine loop_on ht (fun b _ s h => cur ?_) h
  split
  · next hc =>
    refine h.next (ne_eob hc (by decide)) (ne_end hc (by decide)) fun s₁ h₁ _ => cur ?_
    split
    · next hslash =>
      exact h₁.succ.next (ne_eob hslash (by decide)) (ne_end hslash (by decide)) fun s₂ h₂ _ => leave h₂.succ ()
    · exact go_on h₁ ()
  · next hc =>
    have hend : s.lexer.currdata = lineEnd := chr_inj hc
    refine h.line rfl rfl fun s₁ h₁ he => ?_
    exact h₁.next_line (by rw [he]; exact hend) fun s₂ h₂ => go_on (by simpa using h₂) ()
  · exact error _ h
  · next hstar hend hnul =>
    exact h.next (ne_eob_of_not hnul) (ne_end_of_not hend) fun s₁ h₁ _ => go_on h₁ ()

/-- The lexer is at the second slash. -/
theorem lexLineComment_spot (ht : text.length < src.turns) (h : Spot src text 0 b s)
    (hc : s.lexer.currdata ≠ squirrelEob)
    (hn : s.lexer.currdata ≠ lineEnd) : Ends (lexLineComment src) s (fun _ => Spot src text 0 b) (Told src text) := by
  refine (loop (J := fun _ s => s.lexer.currdata ≠ squirrelEob ∧ s.lexer.currdata ≠ lineEnd) (P := fun _ _ => True) ht
    (fun b _ s h hc => ?_) h ⟨hc, hn⟩).mono fun _ _ hs => hs.1
  refine h.next hc.1 hc.2 fun s₁ h₁ _ => cur ?_
  split
  · next hmore => exact .pure ⟨h₁, fun he => hmore.2 (by rw [he]; exact UInt8.le_refl _),
      fun he => hmore.1 (by rw [he]; rfl)⟩
  · exact .pure ⟨h₁.succ, trivial⟩

/-! ## Strings -/

theorem set_last {f : SQLexer → SQLexer} (h : Spot src text d b s) (hc : (f s.lexer).currdata = s.lexer.currdata)
    (hl : (f s.lexer).currentline = s.lexer.currentline) : Ends (setLexer f) s (fun _ => Spot src text d b) E :=
  h.set hc hl fun _ hs _ => .pure hs

theorem next_last (h : Spot src text d (b + 1) s) (hc : s.lexer.currdata ≠ squirrelEob)
    (hn : s.lexer.currdata ≠ lineEnd) :
    Ends (nextColumn src) s (fun _ => Spot src text d b) E := by
  rw [← bind_pure (nextColumn src)]
  exact h.next hc hn fun _ hs _ => .pure hs

/-- The lexer is at the `x`. -/
theorem readHexEscape_spot (ht : text.length < src.turns) (h : Spot src text 0 b s)
    (hc : s.lexer.currdata ≠ squirrelEob)
    (hn : s.lexer.currdata ≠ lineEnd) : Ends (readHexEscape src) s (fun _ => Spot src text 0 b) (Told src text) := by
  refine h.succ.next hc hn fun s₁ h₁ _ => cur ?_
  split
  · exact error _ h₁
  · refine (loop_on ht (fun b temp s h => cur ?_) h₁).bind fun temp s₂ h₂ => h₂.set_last rfl rfl
    split
    · next hdigit => exact h.next (isxdigit_ne hdigit.1) (isxdigit_ne_end hdigit.1) fun s₃ h₃ _ => go_on h₃ _
    · exact leave h temp

theorem readEscape_spot (ht : text.length < src.turns) (h : Spot src text 0 b s) :
    Ends (readEscape src) s (fun _ => Spot src text 0 b) (Told src text) := by
  refine cur ?_
  split
  · next hx => exact readHexEscape_spot ht h (ne_eob hx (by decide)) (ne_end hx (by decide))
  · split
    · next e he =>
      refine h.set rfl rfl fun s₁ h₁ heq => h₁.succ.next_last ?_ ?_
      · rw [heq]
        exact lookup_ne rfl he
      · rw [heq]
        exact lookup_ne_end rfl he
    · exact error _ h

/-- At the end of the inner loop the lexer is at the delimiter. -/
theorem readUpTo_spot (ht : text.length < src.turns) (ndelim : UInt8) (verbatim : Bool) (h : Spot src text 0 b s) :
    Ends (readUpTo src ndelim verbatim) s (fun _ s' => Spot src text 0 b s' ∧ s'.lexer.currdata = ndelim)
      (Told src text) := by
  refine loop (J := fun _ _ => True) ht (fun b _ s h _ => cur ?_) h trivial
  split
  · split
    · exact error _ h
    · next hc =>
      split
      · exact error _ h
      · have hend : s.lexer.currdata = lineEnd := chr_inj hc
        refine h.set rfl rfl fun s₁ h₁ heq => h₁.next_line (by rw [heq]; exact hend) fun s₂ h₂ => ?_
        exact h₂.line rfl rfl fun s₃ h₃ _ => .pure ⟨by simpa using h₃, trivial⟩
    · next hc =>
      have hne := ne_eob hc (by decide)
      have hn := ne_end hc (by decide)
      split
      · exact h.set rfl rfl fun s₁ h₁ heq => h₁.next (by rw [heq]; exact hne) (by rw [heq]; exact hn) fun s₂ h₂ _ =>
          .pure ⟨h₂, trivial⟩
      · exact h.next hne hn fun s₁ h₁ _ => (readEscape_spot ht h₁).bind fun _ s₂ h₂ => .pure ⟨h₂, trivial⟩
    · next hnul hend _ =>
      exact h.set rfl rfl fun s₁ h₁ heq => h₁.next (by rw [heq]; exact ne_eob_of_not hnul)
        (by rw [heq]; exact ne_end_of_not hend)
        fun s₂ h₂ _ => .pure ⟨h₂, trivial⟩
  · next hdelim => exact .pure ⟨h, not_not.mp hdelim⟩

theorem stringToken_spot (ndelim : UInt8) (h : Spot src text 0 b s) :
    Ends (stringToken ndelim : LexM R Int) s (fun t s' => Spot src text 0 b s' ∧ t ≠ 0) (Told src text) := by
  refine h.set rfl rfl fun s₁ h₁ _ => longstr ?_
  split
  · split
    · exact error _ h₁
    · split
      · exact error _ h₁
      · exact h₁.set rfl rfl fun s₂ h₂ _ => .pure ⟨h₂, by decide⟩
  · exact h₁.set rfl rfl fun s₂ h₂ _ => .pure ⟨h₂, by decide⟩

/-- The lexer is at the delimiter that the string begins with. -/
theorem readString_spot (ht : text.length < src.turns) {ndelim : UInt8} (verbatim : Bool)
    (h : Spot src text 0 (b + 1) s)
    (hc : s.lexer.currdata = ndelim) (hd : ndelim ≠ squirrelEob) (hn : ndelim ≠ lineEnd) :
    Ends (readString src ndelim verbatim) s (fun t s' => Spot src text 0 b s' ∧ t ≠ 0) (Told src text) := by
  refine h.set rfl rfl fun s₁ h₁ heq => h₁.next (by rw [heq]; exact hc ▸ hd)
    (by rw [heq]; exact hc ▸ hn) fun s₂ h₂ _ => cur ?_
  split
  · exact .pure ⟨h₂, by decide⟩
  · refine (loop_on ht (fun b _ s h => ?_) h₂).bind fun _ s₃ h₃ => stringToken_spot ndelim h₃
    refine (readUpTo_spot ht ndelim verbatim h).bind fun _ s₄ h₄ => ?_
    refine h₄.1.next (by rw [h₄.2]; exact hd) (by rw [h₄.2]; exact hn) fun s₅ h₅ _ => cur ?_
    split
    · next hquote =>
      exact h₅.set rfl rfl fun s₆ h₆ heq => h₆.succ.next (by rw [heq]; exact ne_eob hquote.2 (by decide))
        (by rw [heq]; exact ne_end hquote.2 (by decide)) fun s₇ h₇ _ => go_on h₇ ()
    · exact leave h₅.succ ()

/-! ## Numbers and identifiers -/

theorem readHexDigits_spot (ht : text.length < src.turns) (h : Spot src text 0 b s)
    (hall : s.lexer.longstr.all isxdigit = true) :
    Ends (readHexDigits src) s (fun _ s' => Spot src text 0 b s' ∧ s'.lexer.longstr.all isxdigit = true)
      (Told src text) := by
  refine (loop (J := fun _ s => s.lexer.longstr.all isxdigit = true)
    (P := fun _ s => s.lexer.longstr.all isxdigit = true) ht
    (fun b _ s h hall => cur ?_) h hall).bind fun _ s₁ h₁ => longstr ?_
  · split
    · next hdigit =>
      refine h.set rfl rfl fun s₁ h₁ heq => ?_
      refine h₁.next (by rw [heq]; exact isxdigit_ne hdigit) (by rw [heq]; exact isxdigit_ne_end hdigit)
        fun s₂ h₂ hlong =>
        .pure ⟨h₂, ?_⟩
      show s₂.lexer.longstr.all isxdigit = true
      rw [hlong, heq]
      show (s.lexer.longstr ++ [s.lexer.currdata]).all isxdigit = true
      rw [List.all_append, hall]
      simp [hdigit]
    · exact .pure ⟨h, hall⟩
  · split
    · exact error _ h₁.1
    · exact .pure h₁

/-- The lexer is at the `e`, and then at the first digit of the exponent. -/
theorem readExponent_spot (type : NumberType) (c : UInt8) (h : Spot src text 0 b s)
    (hc : s.lexer.currdata ≠ squirrelEob)
    (hn : s.lexer.currdata ≠ lineEnd) :
    Ends (readExponent src type c) s (fun _ s' => Spot src text 0 b s' ∧ isdigit s'.lexer.currdata = true)
      (Told src text) := by
  unfold readExponent
  split
  · exact error _ h
  · refine h.set rfl rfl fun s₁ h₁ heq => h₁.succ.next (by rw [heq]; exact hc)
      (by rw [heq]; exact hn) fun s₂ h₂ _ => cur ?_
    split
    · next hsign =>
      have hne : s₂.lexer.currdata ≠ squirrelEob :=
        hsign.elim (fun hs => ne_eob hs (by decide)) fun hs => ne_eob hs (by decide)
      have hnl : s₂.lexer.currdata ≠ lineEnd :=
        hsign.elim (fun hs => ne_end hs (by decide)) fun hs => ne_end hs (by decide)
      refine h₂.set rfl rfl fun s₃ h₃ heq => h₃.succ.next (by rw [heq]; exact hne)
        (by rw [heq]; exact hnl) fun s₄ h₄ _ => cur ?_
      split
      · exact error _ h₄
      · next hdigit => exact .pure ⟨h₄, not_not.mp hdigit⟩
    · split
      · exact error _ h₂
      · next hdigit => exact .pure ⟨h₂, not_not.mp hdigit⟩

/-- The digits are none of a hexadecimal number. -/
theorem readDigits_spot (ht : text.length < src.turns) (h : Spot src text 0 b s) :
    Ends (readDigits src) s (fun type s' => Spot src text 0 b s' ∧ type ≠ .hex) (Told src text) := by
  refine loop (J := fun type _ => type ≠ .hex) ht (fun b type s h htype => cur ?_) h (by decide)
  split
  · next hmore =>
    have hne : s.lexer.currdata ≠ squirrelEob :=
      hmore.elim (fun hs => ne_eob hs (by decide)) fun hs => hs.elim isdigit_ne isexponent_ne
    have hn : s.lexer.currdata ≠ lineEnd :=
      hmore.elim (fun hs => ne_end hs (by decide)) fun hs => hs.elim isdigit_ne_end isexponent_ne_end
    simp only
    split
    · refine (readExponent_spot _ _ h hne hn).bind fun _ s₁ h₁ => cur (h₁.1.set rfl rfl fun s₂ h₂ heq => ?_)
      exact h₂.next (by rw [heq]; exact isdigit_ne h₁.2) (by rw [heq]; exact isdigit_ne_end h₁.2) fun s₃ h₃ _ =>
        .pure ⟨h₃, fun h => nomatch h⟩
    · refine h.set rfl rfl fun s₁ h₁ heq => h₁.next (by rw [heq]; exact hne) (by rw [heq]; exact hn) fun s₂ h₂ _ =>
        .pure ⟨h₂, ?_⟩
      show (if chr s.lexer.currdata = '.' then NumberType.float else type) ≠ .hex
      split
      · exact fun h => nomatch h
      · exact htype
  · exact .pure ⟨h, htype⟩

theorem numberToken_spot {type : NumberType} (h : Spot src text 0 b s)
    (hhex : type = .hex → s.lexer.longstr.all isxdigit = true) :
    Ends (numberToken src type) s (fun t s' => Spot src text 0 b s' ∧ t ≠ 0) (Told src text) := by
  refine h.set rfl rfl fun s₁ h₁ heq => longstr ?_
  cases type with
  | scientific => exact h₁.set rfl rfl fun s₂ h₂ _ => .pure ⟨h₂, by decide⟩
  | float => exact h₁.set rfl rfl fun s₂ h₂ _ => .pure ⟨h₂, by decide⟩
  | int => exact h₁.set rfl rfl fun s₂ h₂ _ => .pure ⟨h₂, by decide⟩
  | hex =>
    have hall := hhex rfl
    have hnul : (0 : UInt8) ∉ s.lexer.longstr := fun hmem => isxdigit_ne (List.all_eq_true.mp hall 0 hmem) rfl
    have hvalue : lexHexadecimal src.locale s₁.lexer.longstr =
      some (hexadecimal src.locale.toupper s.lexer.longstr) := by
      rw [heq]
      show lexHexadecimal src.locale (s.lexer.longstr ++ [0]) = _
      rw [lexHexadecimal, cString_terminated hnul, if_pos hall]
    simp only [hvalue]
    exact h₁.set rfl rfl fun s₂ h₂ _ => .pure ⟨h₂, by decide⟩

/-- The lexer is at the first digit. -/
theorem readNumber_spot (ht : text.length < src.turns) (hlocale : src.locale.Ascii) (h : Spot src text 0 (b + 1) s)
    (hc : isdigit s.lexer.currdata = true) :
    Ends (readNumber src) s (fun t s' => Spot src text 0 b s' ∧ t ≠ 0) (Told src text) := by
  refine cur (h.set rfl rfl fun s₁ h₁ heq => ?_)
  refine h₁.next (by rw [heq]; exact isdigit_ne hc) (by rw [heq]; exact isdigit_ne_end hc) fun s₂ h₂ hlong => cur ?_
  split
  · next hx =>
    refine h₂.succ.next (toupper_ne hx.2 (by decide)) (toupper_ne_end hlocale hx.2 (by decide)) fun s₃ h₃ hlong' => ?_
    have hempty : s₃.lexer.longstr = [] := by rw [hlong', hlong, heq]
    refine (readHexDigits_spot ht h₃ (by rw [hempty]; rfl)).bind fun _ s₄ h₄ => ?_
    exact numberToken_spot h₄.1 fun _ => h₄.2
  · refine h₂.set rfl rfl fun s₃ h₃ _ => (readDigits_spot ht h₃).bind fun type s₄ h₄ => ?_
    exact numberToken_spot h₄.1 fun htype => absurd htype h₄.2

/-- The lexer is at the first letter. -/
theorem readID_spot (ht : text.length < src.turns) (hlocale : src.locale.Ascii) (h : Spot src text 0 (b + 1) s)
    (hc : s.lexer.currdata ≠ squirrelEob) (hn : s.lexer.currdata ≠ lineEnd) :
    Ends (readID src) s (fun t s' => Spot src text 0 b s' ∧ t ≠ 0) (Told src text) := by
  refine h.set rfl rfl fun s₁ h₁ heq => ?_
  refine (loop_turned (J := fun _ s => s.lexer.currdata ≠ squirrelEob ∧ s.lexer.currdata ≠ lineEnd)
    (P := fun b _ s => Spot src text 0 b s) (fun hmn hs => hs.mono hmn) ht (fun b _ s h hc => ?_) h₁
    (by rw [heq]; exact ⟨hc, hn⟩)).bind fun _ s₂ h₂ => h₂.set rfl rfl fun s₃ h₃ _ => longstr ?_
  · refine cur (h.set rfl rfl fun s₁ h₁ heq => h₁.next (by rw [heq]; exact hc.1)
      (by rw [heq]; exact hc.2) fun s₂ h₂ _ => cur ?_)
    split
    · next hmore =>
      exact .pure ⟨h₂, hmore.elim isalnum_ne fun hs => ne_eob hs (by decide),
        hmore.elim (isalnum_ne_end hlocale) fun hs => ne_end hs (by decide)⟩
    · exact .pure h₂
  · simp only
    split
    · exact h₃.set rfl rfl fun s₄ h₄ _ => .pure ⟨h₄, getIDType_ne _⟩
    · exact .pure ⟨h₃, getIDType_ne _⟩

/-! ## `Lex` -/

/-- A turn of the loop of `Lex` that begins at a character takes it. -/
abbrev Switched (src : LexSource R) (text : Bytes) (b : Nat) : Unit ⊕ Int → Lexing R → Prop :=
  Turned src text (fun _ _ => True) (Taken src text fun t _ => t ≠ 0) b

theorem return_spot {t : Int} (h : Spot src text 0 b s) (ht : t ≠ 0) :
    Ends (returnToken t) s (Switched src text b) (Told src text) :=
  h.set rfl rfl fun _ hs _ => .pure ⟨hs, ht⟩

theorem next_token {t : Int} (h : Spot src text 0 (b + 1) s) (hc : s.lexer.currdata ≠ squirrelEob)
    (hn : s.lexer.currdata ≠ lineEnd) (ht : t ≠ 0) :
    Ends (do nextColumn src; returnToken t) s (Switched src text b) (Told src text) :=
  h.next hc hn fun _ hs _ => hs.return_spot ht

theorem toNat_ne {c : UInt8} (hc : c ≠ squirrelEob) : (c.toNat : Int) ≠ 0 := fun h =>
  hc (UInt8.toNat_inj.mp (Int.ofNat_inj.mp h))

/-- The longer operators go on with a character. -/
theorem lexOperator_spot {longer : List (Char × Int)} (hl : longer.all fun l => l.1 ≠ '\x00' ∧ l.1 ≠ '\n' ∧ l.2 ≠ 0)
    (h : Spot src text 0 (b + 1) s) (hc : s.lexer.currdata ≠ squirrelEob) (hn : s.lexer.currdata ≠ lineEnd) :
    Ends (lexOperator src s.lexer.currdata longer) s (Switched src text b) (Told src text) := by
  refine h.next hc hn fun s₁ h₁ _ => cur ?_
  split
  · next t ht =>
    obtain ⟨l₁, l₂, heq, -⟩ := List.lookup_eq_some_iff.mp ht
    have hall := List.all_eq_true.mp hl (chr s₁.lexer.currdata, t) (by rw [heq]; simp)
    simp only [decide_eq_true_eq] at hall
    exact h₁.succ.next_token (ne_eob rfl hall.1) (ne_end rfl hall.2.1) hall.2.2
  · exact h₁.return_spot (toNat_ne hc)

theorem lexSlash_spot (ht : text.length < src.turns) (h : Spot src text 0 (b + 1) s)
    (hc : s.lexer.currdata ≠ squirrelEob)
    (hn : s.lexer.currdata ≠ lineEnd) : Ends (lexSlash src) s (Switched src text b) (Told src text) := by
  refine h.next hc hn fun s₁ h₁ _ => cur ?_
  split
  · next hstar =>
    refine h₁.succ.next (ne_eob hstar (by decide)) (ne_end hstar (by decide)) fun s₂ h₂ _ => ?_
    exact (lexBlockComment_spot ht h₂).bind fun _ s₃ h₃ => .pure ⟨h₃, trivial⟩
  · next hslash =>
    exact (lexLineComment_spot ht h₁ (ne_eob hslash (by decide)) (ne_end hslash (by decide))).bind fun _ s₂ h₂ =>
      .pure ⟨h₂, trivial⟩
  · next heq => exact h₁.succ.next_token (ne_eob heq (by decide)) (ne_end heq (by decide)) (by decide)
  · next hgreater => exact h₁.succ.next_token (ne_eob hgreater (by decide)) (ne_end hgreater (by decide)) (by decide)
  · exact h₁.return_spot (by decide)

theorem lexGreater_spot (h : Spot src text 0 (b + 1) s) (hc : s.lexer.currdata ≠ squirrelEob)
    (hn : s.lexer.currdata ≠ lineEnd) :
    Ends (lexGreater src) s (Switched src text b) (Told src text) := by
  refine h.next hc hn fun s₁ h₁ _ => cur ?_
  split
  · next heq => exact h₁.succ.next_token (ne_eob heq (by decide)) (ne_end heq (by decide)) (by decide)
  · next hgreater =>
    refine h₁.succ.next (ne_eob hgreater (by decide)) (ne_end hgreater (by decide)) fun s₂ h₂ _ => cur ?_
    split
    · next hthird => exact h₂.succ.next_token (ne_eob hthird (by decide)) (ne_end hthird (by decide)) (by decide)
    · exact h₂.return_spot (by decide)
  · exact h₁.return_spot (by decide)

theorem lexPoint_spot (h : Spot src text 0 (b + 1) s) (hc : s.lexer.currdata ≠ squirrelEob)
    (hn : s.lexer.currdata ≠ lineEnd) :
    Ends (lexPoint src) s (Switched src text b) (Told src text) := by
  refine h.next hc hn fun s₁ h₁ _ => cur ?_
  split
  · exact h₁.return_spot (by decide)
  · next hsecond =>
    have hpoint := not_not.mp hsecond
    refine h₁.succ.next (ne_eob hpoint (by decide)) (ne_end hpoint (by decide)) fun s₂ h₂ _ => cur ?_
    split
    · exact error _ h₂
    · next hthird =>
      have hpoint := not_not.mp hthird
      exact h₂.succ.next_token (ne_eob hpoint (by decide)) (ne_end hpoint (by decide)) (by decide)

theorem lexString_spot (ht : text.length < src.turns) {ndelim : UInt8} (verbatim : Bool) (h : Spot src text 0 (b + 1) s)
    (hc : s.lexer.currdata = ndelim) (hd : ndelim ≠ squirrelEob) (hn : ndelim ≠ lineEnd) :
    Ends (lexString src ndelim verbatim) s (Switched src text b) (Told src text) := by
  refine (readString_spot ht verbatim h hc hd hn).bind fun stype s₁ h₁ => ?_
  split
  · exact h₁.1.return_spot h₁.2
  · exact error _ h₁.1

theorem lexVerbatim_spot (ht : text.length < src.turns) (h : Spot src text 0 (b + 1) s)
    (hc : s.lexer.currdata ≠ squirrelEob)
    (hn : s.lexer.currdata ≠ lineEnd) : Ends (lexVerbatim src) s (Switched src text b) (Told src text) := by
  refine h.next hc hn fun s₁ h₁ _ => cur ?_
  split
  · exact error _ h₁
  · next hquote => exact lexString_spot ht true h₁.succ (chr_inj (not_not.mp hquote)) (by decide) (by decide)

theorem lexDefault_spot (ht : text.length < src.turns) (hlocale : src.locale.Ascii) (h : Spot src text 0 (b + 1) s)
    (hc : s.lexer.currdata ≠ squirrelEob) (hn : s.lexer.currdata ≠ lineEnd) :
    Ends (lexDefault src s.lexer.currdata) s (Switched src text b) (Told src text) := by
  unfold lexDefault
  split
  · next hdigit => exact (readNumber_spot ht hlocale h hdigit).bind fun t s₁ h₁ => h₁.1.return_spot h₁.2
  · split
    · exact (readID_spot ht hlocale h hc hn).bind fun t s₁ h₁ => h₁.1.return_spot h₁.2
    · split
      · exact error _ h
      · exact h.next_token hc hn (toNat_ne hc)

/-- The `switch` begins at a character. -/
theorem lexSwitch_spot (ht : text.length < src.turns) (hlocale : src.locale.Ascii) (h : Spot src text 0 (b + 1) s)
    (hc : s.lexer.currdata ≠ squirrelEob) :
    Ends (lexSwitch src s.lexer.currdata) s (Switched src text b) (Told src text) := by
  have hspace (hn : s.lexer.currdata ≠ lineEnd) :
      Ends (do nextColumn src; return .inl () : LexM R (Unit ⊕ Int)) s (Switched src text b) (Told src text) :=
    h.next hc hn fun s₁ h₁ _ => .pure ⟨h₁, trivial⟩
  unfold lexSwitch
  split
  case h_4 hend =>
    refine h.line rfl rfl fun s₁ h₁ heq => h₁.next_line (by rw [heq]; exact chr_inj hend) fun s₂ h₂ => ?_
    exact h₂.set rfl rfl fun s₃ h₃ _ => .pure ⟨by simpa using h₃, trivial⟩
  case h_5 hx => exact lexSlash_spot ht h hc (ne_end hx (by decide))
  case h_8 hx => exact lexGreater_spot h hc (ne_end hx (by decide))
  case h_10 hx => exact lexVerbatim_spot ht h hc (ne_end hx (by decide))
  case h_11 hx | h_12 hx => exact lexString_spot ht false h rfl hc (ne_end hx (by decide))
  case h_32 hx => exact absurd (chr_inj hx) hc
  case h_33 hend _ _ _ _ _ _ _ _ _ _ _ _ _ _ _ _ _ _ _ _ _ _ _ _ _ _ _ _ =>
    exact lexDefault_spot ht hlocale h hc (ne_end_of_not hend)
  all_goals rename_i hx
  all_goals first
    | exact hspace (ne_end hx (by decide))
    | exact lexOperator_spot (by decide) h hc (ne_end hx (by decide))
    | exact lexPoint_spot h hc (ne_end hx (by decide))

/-- A token is 0 exactly at the end of the text. -/
def Lexed (src : LexSource R) (text : Bytes) (b : Nat) (t : Int) (s : Lexing R) : Prop :=
  (t = 0 → Spot src text 0 (b + 1) s ∧ s.lexer.currdata = squirrelEob) ∧ (t ≠ 0 → Spot src text 0 b s)

theorem lex_spot (ht : text.length < src.turns) (hlocale : src.locale.Ascii) (h : Spot src text 0 (b + 1) s) :
    Ends (lex src) s (Lexed src text b) (Told src text) := by
  refine h.set rfl rfl fun s₁ h₁ _ => ?_
  refine loop_turned (J := fun _ _ => True) (fun {m n t s} hmn hs => ?_) ht (fun b _ s h _ => cur ?_) h₁ trivial
  · exact ⟨fun h0 => ⟨(hs.1 h0).1.mono (Nat.succ_le_succ hmn), (hs.1 h0).2⟩, fun h0 => (hs.2 h0).mono hmn⟩
  · split
    · next hc =>
      refine (lexSwitch_spot ht hlocale h hc).mono fun r s' hr => ?_
      cases r with
      | inl _ => exact hr
      | inr t => exact ⟨fun h0 => absurd h0 hr.2, fun _ => hr.1⟩
    · next hc => exact .pure ⟨fun _ => ⟨h, not_not.mp hc⟩, fun h0 => absurd rfl h0⟩

/-! ## The compiler -/

theorem compileFrom_spot (ht : text.length < src.turns) (hlocale : src.locale.Ascii)
    (more : List (Int × SQLexer) → Bool) :
    ∀ (n : Nat) (tokens : List (Int × SQLexer)) {b : Nat} {s : Lexing R}, Spot src text 0 b s →
      Ends (compileFrom src more n tokens) s (fun _ s' => ∃ b, Spot src text 0 b s') (Told src text)
  | 0, _, b, _, h => .pure ⟨b, h⟩
  | n + 1, tokens, b, s, h => by
    unfold compileFrom
    split
    · refine (lex_spot ht hlocale h.succ).bind fun token s₁ h₁ => ?_
      have hspot : Spot src text 0 (b + 1) s₁ := by
        by_cases h0 : token = 0
        · exact (h₁.1 h0).1
        · exact (h₁.2 h0).succ
      exact compileFrom_spot ht hlocale more n _ hspot
    · exact .pure ⟨b, h⟩

/-- A compiler that asks until the end, from a place with fewer characters to come than it
may ask. -/
theorem compileFrom_untilEnd (ht : text.length < src.turns) (hlocale : src.locale.Ascii) :
    ∀ (n : Nat) (tokens : List (Int × SQLexer)) {b : Nat} {s : Lexing R}, Spot src text 0 (b + 1) s → b < n →
      (∀ t ∈ tokens, t.1 ≠ 0) →
      Ends (compileFrom src untilEnd n tokens) s
        (fun tokens' s' => (∃ init l, tokens' = init ++ [(0, l)] ∧ (∀ t ∈ init, t.1 ≠ 0) ∧
          init.length ≤ tokens.length + b) ∧
          s'.lexer.currdata = squirrelEob) (Told src text)
  | 0, _, _, _, _, hn, _ => absurd hn (Nat.not_lt_zero _)
  | n + 1, tokens, b, s, h, hn, hall => by
    have hmore : untilEnd tokens = true := by
      rw [untilEnd]
      cases hlast : tokens.getLast? with
      | none => rfl
      | some t => simpa using hall t (List.mem_of_getLast? hlast)
    rw [compileFrom, if_pos hmore]
    refine (lex_spot ht hlocale h).bind fun token s₁ h₁ => ?_
    show Ends (compileFrom src untilEnd n (tokens ++ [(token, s₁.lexer)])) s₁ _ _
    by_cases h0 : token = 0
    · have hstop : untilEnd (tokens ++ [(token, s₁.lexer)]) = false := by
        rw [untilEnd, List.getLast?_concat, h0]
        rfl
      have hdone : compileFrom src untilEnd n (tokens ++ [(token, s₁.lexer)]) s₁ =
        .ok (tokens ++ [(token, s₁.lexer)], s₁) := by
        cases n with
        | zero => rfl
        | succ n =>
          rw [compileFrom, if_neg (by simp [hstop])]
          rfl
      refine Ends.of_ok hdone ⟨⟨tokens, s₁.lexer, by rw [h0], hall, Nat.le_add_right _ _⟩, (h₁.1 h0).2⟩
    · obtain ⟨m, rfl⟩ : ∃ m, b = m + 1 := by
        obtain ⟨before, rest, -, -, -, hlt⟩ := h₁.2 h0
        exact ⟨b - 1, by omega⟩
      have hall' : ∀ t ∈ tokens ++ [(token, s₁.lexer)], t.1 ≠ 0 := by
        intro t ht
        rcases List.mem_append.mp ht with ht | ht
        · exact hall t ht
        · rw [List.mem_singleton.mp ht]
          exact h0
      refine (compileFrom_untilEnd ht hlocale n _ (h₁.2 h0) (by omega) hall').mono fun tokens' s' hs => ⟨?_, hs.2⟩
      obtain ⟨⟨init, l, heq, hinit, hlength⟩, -⟩ := hs
      exact ⟨init, l, heq, hinit, by simp at hlength; omega⟩

end Spot

/-! ## The text of a script -/

/-- The reader can give no two texts. -/
theorem Gives.unique {src : LexSource R} : ∀ {t u : Bytes} {r : R}, Gives src t r → Gives src u r → t = u
  | [], [], _, _, _ => rfl
  | [], d :: u, r, h, h' => by
    obtain ⟨r₁, hr₁⟩ := h
    obtain ⟨x, r₂, hr₂, hne, -⟩ := h'
    rw [hr₁] at hr₂
    cases hr₂
    exact absurd rfl hne
  | c :: t, [], r, h, h' => by
    obtain ⟨r₁, hr₁⟩ := h'
    obtain ⟨x, r₂, hr₂, hne, -⟩ := h
    rw [hr₁] at hr₂
    cases hr₂
    exact absurd rfl hne
  | c :: t, d :: u, r, h, h' => by
    obtain ⟨x, r₁, hr₁, -, -, rfl, ht⟩ := h
    obtain ⟨y, r₂, hr₂, -, -, rfl, hu⟩ := h'
    rw [hr₁] at hr₂
    cases hr₂
    rw [ht.unique hu]

end SQLexer

open SQLexer

namespace StringProgram

variable {text behind : Bytes} {p : StringProgram}

/-- From a place in the script the callback gives the rest of it. -/
theorem gives (k : Compilation) (h0 : (0 : UInt8) ∉ text) :
    ∀ (m : Nat) {n : Nat} {p : StringProgram}, n + m = text.length →
    p.current = some n → Gives (k.source (text ++ 0 :: behind)) (text.drop n) p
  | 0, n, p, hn, hp => by
    have hchar : (text ++ 0 :: behind)[n]? = some 0 := by
      rw [show n = text.length from hn]
      simp
    rw [List.drop_eq_nil_of_le (by omega)]
    refine ⟨{ current := none, calls := p.calls ++ [some 0] }, ?_⟩
    simp only [Compilation.source, squirrelReadCallback, hp, hchar]
    rfl
  | m + 1, n, p, hn, hp => by
    have hlt : n < text.length := by omega
    have hchar : (text ++ 0 :: behind)[n]? = some text[n] := by
      rw [List.getElem?_append_left hlt, List.getElem?_eq_getElem hlt]
    have hne : text[n] ≠ 0 := fun he => h0 (he ▸ List.getElem_mem hlt)
    rw [List.drop_eq_getElem_cons hlt]
    refine ⟨_, { current := some (n + 1), calls := p.calls ++ [returned text[n]] }, ?_, fun h => hne (toInt8_eq_zero h),
      toInt8_le_maxChar text[n], lexChar_toInt8 text[n], gives k h0 m (by omega) rfl⟩
    simp only [Compilation.source, squirrelReadCallback, hp, hchar, if_pos hne]
    rfl

end StringProgram

/-- The lexer has passed all before its character. -/
theorem passed_of_spot (k : Compilation) {text behind : Bytes} (h0 : (0 : UInt8) ∉ text) {b : Nat}
    {s : Lexing StringProgram}
    (hp : s.lexer.currdata = squirrelEob → s.reader.Ended text)
    (hp' : s.lexer.currdata ≠ squirrelEob → s.reader.Open text)
    (h : Spot (k.source (text ++ 0 :: behind)) text 0 b s) :
    s.lexer.currentline = 1 + ((text.take (s.reader.calls.length - 1)).count lineEnd : Nat) := by
  obtain ⟨before, rest, htext, hat, hline, -⟩ := h
  have hlength := congrArg List.length htext
  rw [List.length_append] at hlength
  suffices hcalls : s.reader.calls.length - 1 = before.length by
    rw [hcalls, hline, htext, List.take_left, Int.add_zero]
  cases rest with
  | nil =>
    rw [(hp hat).2, List.length_append, List.length_map]
    simpa using hlength
  | cons c rest =>
    obtain ⟨n, hn, hcurrent, hcalls⟩ := hp' (hat.2.1 ▸ hat.1)
    have hrest : rest = text.drop n := hat.2.2.2.unique (StringProgram.gives k h0 (text.length - n) (by omega) hcurrent)
    have hdrop := congrArg List.length hrest
    rw [List.length_drop] at hdrop
    rw [hcalls, List.length_map, List.length_take]
    simp only [List.length_cons] at hlength
    omega

theorem init_spot {R : Type} {src : LexSource R} {text : Bytes} (h0 : squirrelEob ∉ text) {s : Lexing R}
    (h : Gives src text s.reader) : Ends (init src) s (fun _ => Spot src text 0 (text.length + 1)) (Told src text) := by
  obtain ⟨s', hok, hat, hl⟩ := @At.next_gives R src text
    { s with lexer := { s.lexer with lasttokenline := 1, currentline := 1, currentcolumn := 0, prevtoken := -1 } } h0 h
  have hinit : init src s = .ok ((), s') := hok
  exact Ends.of_ok hinit ⟨[], text, rfl, hat, by rw [hl]; rfl, Nat.lt_succ_self _⟩

theorem lastState_ends {ε σ α : Type} {m : StateT σ (Except (ε × σ)) α} {s : σ} {P : σ → Prop}
    (h : Ends m s (fun _ => P) (fun x => P x.2)) : P (lastState (m s)) := by
  unfold Ends at h
  cases hm : m s with
  | ok r => rw [hm] at h; exact h
  | error r => rw [hm] at h; exact h

/-- At every token and every error the line of the lexer is the line of the text: one more
than the ends of lines among the characters before the one it is at. -/
theorem currentline_of_text (k : Compilation) {text : Bytes} (behind : Bytes) (h0 : (0 : UInt8) ∉ text)
    (ht : text.length + 1 < k.turns) (hlocale : k.locale.Ascii) :
    let s := lastState (compileString k (text ++ 0 :: behind))
    s.lexer.currentline = 1 + ((text.take (s.reader.calls.length - 1)).count lineEnd : Nat) := by
  have hgives : Gives (k.source (text ++ 0 :: behind)) text { current := some 0, calls := [] } :=
    StringProgram.gives k h0 text.length (Nat.zero_add _) rfl
  let feed := StringProgram.feed k behind h0 ht
  have hfed := feed.compile_ends (s := { lexer := k.lexer, reader := { current := some 0, calls := [] } })
    k.more k.tokens
    ⟨0, Nat.zero_le _, rfl, rfl⟩
  have hspot : Ends (compile (k.source (text ++ 0 :: behind)) k.more k.tokens)
      { lexer := k.lexer, reader := { current := some 0, calls := [] } }
      (fun _ s => ∃ b, Spot (k.source (text ++ 0 :: behind)) text 0 b s) (Told (k.source (text ++ 0 :: behind)) text) :=
    (init_spot h0 hgives).bind fun _ s hs => hs.compileFrom_spot (Nat.lt_of_succ_lt ht) hlocale k.more k.tokens []
  have hlast := lastState_ends (P := feed.Fed) ((hfed.mono fun _ _ h => h).faults fun _ h => h.2)
  have hspot := lastState_ends (P := fun s => ∃ b, Spot (k.source (text ++ 0 :: behind)) text 0 b s)
    (hspot.faults fun _ h => h.2)
  obtain ⟨b, hspot⟩ := hspot
  refine passed_of_spot k h0 (fun he => ?_) (fun he => ?_) hspot
  · exact (if_pos he).mp hlast
  · exact (if_neg he).mp hlast

theorem currentline_of_text_comment :
    (lastState (compileString { openComment with turns := 8 } (cstr "/*\n" ++ 0 :: []))).lexer.currentline = 2 := by
  have hline := @currentline_of_text { openComment with turns := 8 } (cstr "/*\n") [] (by decide) (by decide)
    (fun c _ => ⟨rfl, rfl⟩)
  exact hline.trans (by decide)

/-- A compiler that asks for tokens until the 0 comes to the end of every script or has an
error of the lexer: there are as many tokens before the 0 as characters at most, and with
the 0 the script has been read to its end. -/
theorem tokens_end (k : Compilation) {text : Bytes} (behind : Bytes) (h0 : (0 : UInt8) ∉ text)
    (ht : text.length + 1 < k.turns) (hlocale : k.locale.Ascii) (hmore : k.more = untilEnd)
    (htokens : text.length < k.tokens) :
    (∀ tokens s, compileString k (text ++ 0 :: behind) = .ok (tokens, s) →
      (∃ init l, tokens = init ++ [(0, l)] ∧ (∀ t ∈ init, t.1 ≠ 0) ∧ init.length ≤ text.length) ∧
        s.reader.calls = text.map returned ++ [some 0]) ∧
      ∀ stop s, compileString k (text ++ 0 :: behind) = .error (stop, s) → ∃ err, stop = .error err := by
  have hgives : Gives (k.source (text ++ 0 :: behind)) text { current := some 0, calls := [] } :=
    StringProgram.gives k h0 text.length (Nat.zero_add _) rfl
  let feed := StringProgram.feed k behind h0 ht
  have hfed := feed.compile_ends (s := { lexer := k.lexer, reader := { current := some 0, calls := [] } })
    k.more k.tokens
    ⟨0, Nat.zero_le _, rfl, rfl⟩
  have hends : Ends (compile (k.source (text ++ 0 :: behind)) untilEnd k.tokens)
      { lexer := k.lexer, reader := { current := some 0, calls := [] } } _ _ :=
    (init_spot h0 hgives).bind fun _ s hs => hs.compileFrom_untilEnd (Nat.lt_of_succ_lt ht) hlocale k.tokens [] htokens
      (fun t h => absurd h List.not_mem_nil)
  rw [← hmore] at hends
  refine ⟨fun tokens s hok => ?_, fun stop s herr => (hends.error herr).1⟩
  obtain ⟨⟨init, l, heq, hinit, hlength⟩, hc⟩ := hends.ok hok
  have hend : s.reader.Ended text := (if_pos hc).mp (hfed.ok hok)
  exact ⟨⟨init, l, heq, hinit, by simpa using hlength⟩, hend.2⟩

theorem tokens_end_assignment :
    let k : Compilation := { openComment with turns := 8, more := untilEnd, tokens := 6 }
    ∃ tokens s, compileString k (cstr "a = 1" ++ 0 :: []) = .ok (tokens, s) ∧
      (∃ init l, tokens = init ++ [(0, l)] ∧ (∀ t ∈ init, t.1 ≠ 0) ∧ init.length ≤ 5) ∧
      s.reader.calls = (cstr "a = 1").map returned ++ [some 0] := by
  intro k
  have hend := @tokens_end k (cstr "a = 1") [] (by decide) (by decide) (fun c _ => ⟨rfl, rfl⟩) rfl (by decide)
  cases hr : compileString k (cstr "a = 1" ++ 0 :: []) with
  | ok r => exact ⟨r.1, r.2, rfl, hend.1 r.1 r.2 hr⟩
  | error r =>
    have hok : (compileString k (cstr "a = 1" ++ 0 :: [])).isOk = true := by decide
    rw [hr] at hok
    cases hok

end MultiScript.Squirrel
