/-
The Squirrel lexer reads back what is written. A script is written as words, numbers,
strings and operators with blanks between them; the compiler is given a token for each, with
its value, and sees of the blanks only whether a line ended in them.
-/
import MultiScript.Squirrel.Lines

namespace MultiScript.Squirrel

open Act Loop SQLexer

/-! ## What a token is taken for -/

/-- The object that `SQCompiler::Expect` makes of a token. -/
inductive TokenValue
  | null
  | string (s : Bytes)
  | integer (n : Int)
  | float (x : FloatValue)
deriving DecidableEq, Repr

/-- The value that `SQCompiler::Expect` makes of the token it is at. -/
def expect (token : Int) (lex : SQLexer) : TokenValue :=
  if token = Token.identifier ∨ token = Token.constructor then .string (cString lex.svalue)
  else if token = Token.stringLiteral then .string (lex.svalue.take (lex.longstr.length - 1))
  else if token = Token.integer then .integer lex.nvalue
  else if token = Token.float then .float lex.fvalue
  else .null

/-! ## Blanks -/

/-- No `*/` is in the text of a comment. -/
def Unclosed : Bytes → Bool
  | [] => true
  | c :: comment => !(chr c == '*' && comment.head?.any (chr · == '/')) && Unclosed comment

/-- What may stand between two tokens. -/
inductive Blank
  | white (c : UInt8) (hc : chr c = ' ' ∨ chr c = '\t' ∨ chr c = '\r')
  | newline
  | line (comment : Bytes) (hc : comment.all fun c => c ≠ squirrelEob && c ≠ lineEnd)
  | block (comment : Bytes) (hc : squirrelEob ∉ comment) (hend : Unclosed comment = true)

namespace Blank

def print : Blank → Bytes
  | white c _ => [c]
  | newline => [lineEnd]
  | line comment _ => '/'.toUInt8 :: '/'.toUInt8 :: (comment ++ [lineEnd])
  | block comment _ _ => '/'.toUInt8 :: '*'.toUInt8 :: (comment ++ ['*'.toUInt8, '/'.toUInt8])

/-- What `_curtoken` is after a blank. -/
def curtoken (token : Int) : Blank → Int
  | newline | line _ _ => '\n'.toNat
  | white _ _ | block _ _ _ => token

/-- It may follow any token. -/
def apart : Blank → Bool
  | white _ _ | newline => true
  | line _ _ | block _ _ _ => false

end Blank

/-- A token ends before such a character. -/
def Stops (c : UInt8) : Prop := c = squirrelEob ∨ chr c = ' ' ∨ chr c = '\t' ∨ chr c = '\r' ∨ chr c = '\n'

instance (c : UInt8) : Decidable (Stops c) := inferInstanceAs (Decidable (_ ∨ _))

/-! ## Tokens as they are written -/

def digitValue (c : UInt8) : Nat :=
  if isdigit c then c.toNat - 48 else if 'a' ≤ chr c then c.toNat - 87 else c.toNat - 55

def ofDigits (base : Nat) (digits : Bytes) : Nat := digits.foldl (fun n c => n * base + digitValue c) 0

/-- An `SQInteger` of 32 bits. -/
def wrapped (n : Nat) : Int := Int.bmod n (2 ^ 32)

/-- A character of a string between `ndelim`s. -/
inductive Piece (ndelim : UInt8)
  | plain (c : UInt8) (h : c ≠ squirrelEob ∧ c ≠ lineEnd ∧ chr c ≠ '\\' ∧ c ≠ ndelim)
  | escape (c e : UInt8) (h : escapes.lookup (chr c) = some e)
  | hex (digits : Bytes) (h : digits.all isxdigit = true ∧ 0 < digits.length ∧ digits.length ≤ 4)

namespace Piece

variable {ndelim : UInt8}

def print : Piece ndelim → Bytes
  | plain c _ => [c]
  | escape c _ _ => ['\\'.toUInt8, c]
  | hex digits _ => '\\'.toUInt8 :: 'x'.toUInt8 :: digits

def value : Piece ndelim → UInt8
  | plain c _ => c
  | escape _ e _ => e
  | hex digits _ => UInt8.ofNat (ofDigits 16 digits)

/-- An escape of fewer than four digits ends before what is none. -/
def endsBefore : Piece ndelim → Bytes → Bool
  | hex digits _, text => digits.length == 4 || !text.head?.any isxdigit
  | plain _ _, _ | escape _ _ _, _ => true

def parted : List (Piece ndelim) → Bool
  | [] => true
  | p :: ps => p.endsBefore (ps.flatMap print) && parted ps

theorem parted_single (p : Piece ndelim) : parted [p] = true := by
  cases p <;> simp [parted, endsBefore]

end Piece

/-- A part of a number after its first digit. -/
inductive Part
  | digit (c : UInt8) (h : isdigit c = true)
  | point
  | exponent (e : UInt8) (sign : Option UInt8) (c : UInt8) (he : isexponent e = true)
      (hs : sign.all fun s => chr s == '+' || chr s == '-') (h : isdigit c = true)

namespace Part

def print : Part → Bytes
  | digit c _ => [c]
  | point => ['.'.toUInt8]
  | exponent e sign c _ _ _ => e :: sign.toList ++ [c]

/-- An exponent follows a point. -/
def type (t : NumberType) : Part → Option NumberType
  | digit _ _ => some t
  | point => some .float
  | exponent _ _ _ _ _ _ => if t = .float then some .scientific else none

end Part

/-- The operators, as they are written. -/
def operators : List (Bytes × Int) :=
  ['=', '<', '>', '!', '{', '}', '(', ')', '[', ']', ';', ',', '?', '^', '~', '.', '&', '|', ':',
    '*', '%', '-', '+', '/'].map
      (fun c => ([c.toUInt8], (c.toNat : Int))) ++
    [("==", Token.eq), ("<=", Token.le), ("<-", Token.newslot), ("<<", Token.shiftl), ("</", Token.attrOpen),
      (">=", Token.ge),
      (">>", Token.shiftr), (">>>", Token.ushiftr), ("!=", Token.ne), ("...", Token.varparams), ("&&", Token.and),
      ("||", Token.or), ("::", Token.doubleColon), ("*=", Token.muleq), ("%=", Token.modeq), ("-=", Token.minuseq),
      ("--", Token.minusminus), ("+=", Token.pluseq), ("++", Token.plusplus), ("/=", Token.diveq),
      ("/>", Token.attrClose)].map
      fun o => (cstr o.1, o.2)

def wordStart (c : UInt8) : Bool := (chr c).isAlpha || chr c == '_'
def wordChar (c : UInt8) : Bool := (chr c).isAlphanum || chr c == '_'

/-- A part of a verbatim string between two quotes. -/
def Verbatim (s : Bytes) : Prop := squirrelEob ∉ s ∧ '"'.toUInt8 ∉ s

instance (s : Bytes) : Decidable (Verbatim s) := inferInstanceAs (Decidable (_ ∧ _))

/-- The parts but the first, each after a doubled quote. -/
def chunks (more : List Bytes) : Bytes := more.flatMap fun chunk => '"'.toUInt8 :: '"'.toUInt8 :: chunk

/-- What they stand for. -/
def quoted (more : List Bytes) : Bytes := more.flatMap fun chunk => '"'.toUInt8 :: chunk

/-- A token as it is written. -/
inductive Lexeme
  | operator (spelling : Bytes) (token : Int) (h : (spelling, token) ∈ operators)
  | word (c : UInt8) (name : Bytes) (hc : wordStart c = true) (h : name.all wordChar = true)
  | number (c : UInt8) (parts : List Part) (type : NumberType) (hc : isdigit c = true)
      (h : parts.foldlM Part.type .int = some type)
  | hexNumber (x : UInt8) (digits : Bytes) (hx : chr x = 'x' ∨ chr x = 'X')
      (h : digits.all isxdigit = true ∧ digits.length ≤ 8)
  | char (p : Piece '\''.toUInt8)
  | string (s : List (Piece '"'.toUInt8)) (h : Piece.parted s = true)
  | verbatim (s : Bytes) (more : List Bytes) (hs : Verbatim s) (h : ∀ t ∈ more, Verbatim t)

namespace Lexeme

def print : Lexeme → Bytes
  | operator spelling _ _ => spelling
  | word c name _ _ => c :: name
  | number c parts _ _ _ => c :: parts.flatMap Part.print
  | hexNumber x digits _ _ => '0'.toUInt8 :: x :: digits
  | char p => ['\''.toUInt8] ++ p.print ++ ['\''.toUInt8]
  | string s _ => ['"'.toUInt8] ++ s.flatMap Piece.print ++ ['"'.toUInt8]
  | verbatim s more _ _ => '@'.toUInt8 :: '"'.toUInt8 :: (s ++ chunks more ++ ['"'.toUInt8])

def token : Lexeme → Int
  | operator _ token _ => token
  | word c name _ _ => getIDType (c :: name)
  | number _ _ type _ _ => if type = .int then Token.integer else Token.float
  | hexNumber _ _ _ _ | char _ => Token.integer
  | string _ _ | verbatim _ _ _ _ => Token.stringLiteral

/-- The value of a token, where `strtod` is that of the locale. -/
def value (strtod : Bytes → FloatValue) : Lexeme → TokenValue
  | operator _ _ _ => .null
  | word c name _ _ =>
    if getIDType (c :: name) = Token.identifier ∨ getIDType (c :: name) = Token.constructor
      then .string (c :: name) else .null
  | number c parts type _ _ =>
    if type = .int then .integer (wrapped (ofDigits 10 (c :: parts.flatMap Part.print)))
    else .float (strtod (c :: parts.flatMap Part.print ++ [0]))
  | hexNumber _ digits _ _ => .integer (wrapped (ofDigits 16 digits))
  | char p => .integer p.value.toInt8.toInt
  | string s _ => .string (s.map Piece.value)
  | verbatim s more _ _ => .string (s ++ quoted more)

end Lexeme

/-! ## Scripts -/

/-- Tokens, each after its blanks, and the blanks at the end. -/
def printScript : List (List Blank × Lexeme) → List Blank → Bytes
  | [], last => last.flatMap Blank.print
  | item :: items, last => item.1.flatMap Blank.print ++ item.2.print ++ printScript items last

/-- Between two tokens there is something. -/
def Spaced : List (List Blank × Lexeme) → List Blank → Prop
  | [], _ => True
  | [_], last => last.head?.all Blank.apart = true
  | _ :: item :: items, last => item.1.head?.any Blank.apart = true ∧ Spaced (item :: items) last

/-- The tokens: the one before, the token and its value. -/
def tokensOf (strtod : Bytes → FloatValue) : Int → List (List Blank × Lexeme) → List (Int × Int × TokenValue)
  | _, [] => []
  | curtoken, item :: items =>
    (item.1.foldl Blank.curtoken curtoken, item.2.token, item.2.value strtod) :: tokensOf strtod item.2.token items

/-! ## The value of digits -/

theorem forall_byte {P : UInt8 → Prop} (h : ∀ n : Fin 256, P (UInt8.ofNat n)) (c : UInt8) : P c := by
  have hc := h ⟨c.toNat, c.toNat_lt⟩
  rwa [UInt8.ofNat_toNat] at hc

theorem foldl_ofNat (base : Nat) {f : UInt8 → UInt32} : ∀ {s : Bytes} (n : Nat),
    (∀ c ∈ s, f c = UInt32.ofNat (digitValue c)) →
    s.foldl (fun res c => res * UInt32.ofNat base + f c) (UInt32.ofNat n) =
      UInt32.ofNat (s.foldl (fun n c => n * base + digitValue c) n)
  | [], _, _ => rfl
  | c :: s, n, hf => by
    rw [List.foldl_cons, List.foldl_cons, ← foldl_ofNat base _ fun d hd => hf d (List.mem_cons_of_mem _ hd),
      hf c List.mem_cons_self, UInt32.ofNat_add, UInt32.ofNat_mul]

theorem digit_decimal (c : UInt8) : isdigit c = true → c.toUInt32 - '0'.val = UInt32.ofNat (digitValue c) := by
  revert c
  exact forall_byte (by decide +kernel)

theorem digit_hexadecimal (c : UInt8) : isxdigit c = true →
    (if isdigit c then c.toUInt32 - '0'.val else (c &&& 0xDF).toUInt32 - 'A'.val + 10) =
      UInt32.ofNat (digitValue c) := by
  revert c
  exact forall_byte (by decide +kernel)

theorem upper_hexadecimal (c : UInt8) : isxdigit c = true → isdigit c = false →
    c < 128 ∧ (if (chr c).isLower then c - 32 else c) = c &&& 0xDF := by
  revert c
  exact forall_byte (by decide +kernel)

theorem hexadecimal_eq {capital : UInt8 → UInt8} {digits : Bytes} (hx : digits.all isxdigit = true)
    (hc : ∀ c, isxdigit c = true → isdigit c = false → capital c = c &&& 0xDF) :
    hexadecimal capital digits = UInt32.ofNat (ofDigits 16 digits) := by
  refine foldl_ofNat 16 0 fun c hmem => ?_
  have hdigit := List.all_eq_true.mp hx c hmem
  rw [← digit_hexadecimal c hdigit]
  split
  · rfl
  · next hnot => rw [hc c hdigit (by simpa using hnot)]

theorem lexInteger_eq {digits : Bytes} (hd : digits.all isdigit = true) :
    lexInteger (digits ++ [0]) = UInt32.ofNat (ofDigits 10 digits) := by
  have hnul : (0 : UInt8) ∉ digits := fun hmem => Feed.isdigit_ne (List.all_eq_true.mp hd 0 hmem) rfl
  rw [lexInteger, cString_terminated hnul]
  exact foldl_ofNat 10 0 fun c hmem => digit_decimal c (List.all_eq_true.mp hd c hmem)

theorem wrapped_ofNat (n : Nat) : (UInt32.ofNat n).toInt32.toInt = wrapped n := by
  rw [UInt32.toInt32_ofNat', Int32.toInt_ofNat']
  rfl

/-! ## Lengths -/

theorem length_le_flatMap {γ : Type} {f : γ → Bytes} (hf : ∀ x, f x ≠ []) :
    ∀ xs : List γ, xs.length ≤ (xs.flatMap f).length
  | [] => Nat.le_refl _
  | x :: xs => by
    have hx := List.length_pos_of_ne_nil (hf x)
    have hxs := length_le_flatMap hf xs
    rw [List.flatMap_cons, List.length_append, List.length_cons]
    omega

theorem Piece.print_ne {ndelim : UInt8} (p : Piece ndelim) : p.print ≠ [] := by
  cases p <;> simp [Piece.print]

/-- After an escape, and its string, come no more of its digits. -/
theorem Piece.hex_ends {ndelim : UInt8} {digits text : Bytes}
    {hx : digits.all isxdigit = true ∧ 0 < digits.length ∧ digits.length ≤ 4}
    {ps : List (Piece ndelim)} (hd : isxdigit ndelim = false)
    (h : (.hex digits hx : Piece ndelim).endsBefore (ps.flatMap print) = true) :
    digits.length = 4 ∨ isxdigit ((ps.flatMap print ++ ndelim :: text).headD squirrelEob) = false := by
  rcases Bool.or_eq_true_iff.mp h with h4 | hno
  · exact .inl (beq_iff_eq.mp h4)
  · right
    cases hps : ps.flatMap print with
    | nil => exact hd
    | cons c cs =>
      rw [hps] at hno
      simpa using hno

theorem Part.print_ne (p : Part) : p.print ≠ [] := by
  cases p <;> simp [Part.print]

theorem Blank.print_ne (b : Blank) : b.print ≠ [] := by
  cases b <;> simp [Blank.print]

/-! ## Steps of the lexer -/

variable {R β : Type}

/-- The lexer is in the text, with this token and these characters in its buffer. -/
structure Reads (src : LexSource R) (text : Bytes) (curtoken : Int) (buf : Bytes) (s : Lexing R) : Prop where
  at_text : At src text s
  cur : s.lexer.curtoken = curtoken
  longstr : s.lexer.longstr = buf

/-- Nothing of it fails. -/
def NoStop (_ : LexStop × Lexing R) : Prop := False

namespace Reads

variable {src : LexSource R} {text rest : Bytes} {t : Int} {buf : Bytes} {c : UInt8} {s : Lexing R}
    {Q : β → Lexing R → Prop}

theorem next (h : Reads src (c :: text) t buf s) {k : Unit → LexM R β}
    (hk : ∀ s', Reads src text t buf s' → Ends (k ()) s' Q NoStop) :
    Ends (nextColumn src >>= k) s Q NoStop :=
  h.at_text.next fun s' hat heq => hk s' ⟨hat, by rw [heq]; exact h.cur, by rw [heq]; exact h.longstr⟩

theorem look (h : Reads src text t buf s) {k : UInt8 → LexM R β} (hk : Ends (k (text.headD squirrelEob)) s Q NoStop) :
    Ends (curChar >>= k) s Q NoStop :=
  h.at_text.look hk

theorem append (h : Reads src text t buf s) {k : Unit → LexM R β}
    (hk : ∀ s', Reads src text t (buf ++ [c]) s' → Ends (k ()) s' Q NoStop) : Ends (appendChar c >>= k) s Q NoStop :=
  h.at_text.set rfl fun s' hat heq => hk s' ⟨hat, by rw [heq]; exact h.cur, by rw [heq, ← h.longstr]⟩

theorem clear (h : Reads src text t buf s) {k : Unit → LexM R β}
    (hk : ∀ s', Reads src text t [] s' → Ends (k ()) s' Q NoStop) : Ends (initTempString >>= k) s Q NoStop :=
  h.at_text.set rfl fun s' hat heq => hk s' ⟨hat, by rw [heq]; exact h.cur, by rw [heq]⟩

theorem get (h : Reads src text t buf s) {k : Bytes → LexM R β} (hk : Ends (k buf) s Q NoStop) :
    Ends (getLongstr >>= k) s Q NoStop := by
  rw [← h.longstr] at hk
  exact hk

/-- What is set is neither of the three. -/
theorem set {f : SQLexer → SQLexer} (h : Reads src text t buf s) {k : Unit → LexM R β}
    (hc : (f s.lexer).currdata = s.lexer.currdata) (ht : (f s.lexer).curtoken = s.lexer.curtoken)
    (hl : (f s.lexer).longstr = s.lexer.longstr)
    (hk : ∀ s', Reads src text t buf s' → s'.lexer = f s.lexer → Ends (k ()) s' Q NoStop) :
      Ends (setLexer f >>= k) s Q NoStop :=
  h.at_text.set hc fun s' hat heq => hk s' ⟨hat, by rw [heq, ht]; exact h.cur, by rw [heq, hl]; exact h.longstr⟩ heq

theorem next_last (h : Reads src (c :: text) t buf s) :
    Ends (nextColumn src) s (fun _ => Reads src text t buf) NoStop := by
  rw [← bind_pure (nextColumn src)]
  exact h.next fun _ hs => .pure hs

theorem append_last (h : Reads src text t buf s) :
    Ends (appendChar c) s (fun _ => Reads src text t (buf ++ [c])) NoStop := by
  rw [← bind_pure (appendChar c)]
  exact h.append fun _ hs => .pure hs

theorem ne_eob (h : Reads src (c :: text) t buf s) : c ≠ squirrelEob := h.at_text.1

theorem not_le (h : Reads src (c :: text) t buf s) : ¬ c ≤ squirrelEob := fun hle =>
  h.ne_eob (UInt8.le_antisymm hle (UInt8.le_iff_toNat_le.mpr (Nat.zero_le _)))

/-! ## Strings -/

/-- The lexer is at the `x`. -/
theorem readHexEscape {digits : Bytes} (hx : digits.all isxdigit = true) (hlen : 0 < digits.length ∧ digits.length ≤ 4)
    (hend : digits.length = 4 ∨ isxdigit (text.headD squirrelEob) = false) (ht : digits.length < src.turns)
    (h : Reads src ('x'.toUInt8 :: (digits ++ text)) t buf s) :
    Ends (readHexEscape src) s (fun _ => Reads src text t (buf ++ [(strtoul16 digits).toUInt8])) NoStop := by
  refine h.next fun s₁ h₁ => h₁.look ?_
  have hfirst : isxdigit ((digits ++ text).headD squirrelEob) = true := by
    cases digits with
    | nil => cases hlen.1
    | cons d ds => exact (List.all_eq_true.mp hx) d List.mem_cons_self
  rw [if_neg (not_not.mpr hfirst)]
  refine Ends.bind (Q := fun temp s => temp = digits ∧ Reads src text t buf s) ?_ fun temp s₂ h₂ => by
    rw [h₂.1]
    exact h₂.2.append_last
  refine loopM_over (I := fun xs temp s => temp ++ xs = digits ∧ Reads src (xs ++ text) t buf s)
    (fun x xs temp s hi => ?_) (fun temp s hi => ?_) ht ⟨rfl, h₁⟩
  · obtain ⟨heq, hs⟩ := hi
    have hmem : x ∈ digits := by rw [← heq]; simp
    have hlength := congrArg List.length heq
    simp only [List.length_append, List.length_cons] at hlength
    refine hs.look ?_
    rw [if_pos ⟨List.all_eq_true.mp hx x hmem, by omega⟩]
    exact hs.next fun s₂ h₂ => .pure ⟨_, rfl, by rw [List.append_assoc]; exact heq, h₂⟩
  · obtain ⟨heq, hs⟩ := hi
    rw [List.append_nil] at heq
    refine hs.look ?_
    have hstop : ¬ (isxdigit (text.headD squirrelEob) = true ∧ temp.length < 4) := by
      rintro ⟨hdigit, hlt⟩
      rcases hend with h4 | hno
      · rw [heq] at hlt
        omega
      · rw [hno] at hdigit
        cases hdigit
    rw [List.nil_append, if_neg hstop]
    exact .pure ⟨_, rfl, heq, hs⟩

theorem readEscape_char {e : UInt8} (hc : escapes.lookup (chr c) = some e) (h : Reads src (c :: text) t buf s) :
    Ends (readEscape src) s (fun _ => Reads src text t (buf ++ [e])) NoStop := by
  have hx : chr c ≠ 'x' := by
    intro he
    rw [he] at hc
    cases hc
  refine h.look ?_
  show Ends (if chr c = 'x' then _ else _) s _ _
  rw [if_neg hx]
  simp only [List.headD_cons, hc]
  exact h.append fun s₁ h₁ => h₁.next_last

/-- The value of a hexadecimal escape is the low byte of its digits. -/
theorem hex_value {digits : Bytes} (hx : digits.all isxdigit = true) :
    (strtoul16 digits).toUInt8 = UInt8.ofNat (ofDigits 16 digits) := by
  rw [strtoul16, hexadecimal_eq hx fun _ _ _ => rfl, UInt32.toUInt8_ofNat']

/-- The inner loop of `ReadString` reads the pieces of a string. -/
theorem readUpTo_pieces {ndelim : UInt8} (hd : chr ndelim ≠ '\\' ∧ isxdigit ndelim = false)
    {pieces : List (Piece ndelim)}
    (hparted : Piece.parted pieces = true) (ht : (pieces.flatMap Piece.print).length < src.turns)
    (h : Reads src (pieces.flatMap Piece.print ++ ndelim :: text) t buf s) :
    Ends (readUpTo src ndelim false) s (fun _ => Reads src (ndelim :: text) t (buf ++ pieces.map Piece.value))
      NoStop := by
  refine loopM_over (I := fun xs _ s => ∃ done, done ++ xs = pieces ∧ Piece.parted xs = true ∧
      Reads src (xs.flatMap Piece.print ++ ndelim :: text) t (buf ++ done.map Piece.value) s)
    (fun x xs _ s hi => ?_) (fun _ s hi => ?_) (Nat.lt_of_le_of_lt (length_le_flatMap Piece.print_ne pieces) ht)
    ⟨[], rfl, hparted, by simpa using h⟩
  · obtain ⟨done, heq, hxs, hs⟩ := hi
    obtain ⟨hend, hrest⟩ := Bool.and_eq_true_iff.mp hxs
    rw [List.flatMap_cons, List.append_assoc] at hs
    have hgo {s' : Lexing R} (hs' : Reads src (xs.flatMap Piece.print ++ ndelim :: text) t
      (buf ++ done.map Piece.value ++ [x.value]) s') :
        ∃ done, done ++ xs = pieces ∧ Piece.parted xs = true ∧
          Reads src (xs.flatMap Piece.print ++ ndelim :: text) t (buf ++ done.map Piece.value) s' :=
      ⟨done ++ [x],
        by rw [List.append_assoc]; exact heq, hrest, by rw [List.map_append, ← List.append_assoc]; exact hs'⟩
    cases x with
    | plain c hc =>
      refine hs.look ?_
      show Ends (if c ≠ ndelim then _ else _) s _ _
      rw [if_pos hc.2.2.2]
      split
      · next hnul => exact absurd (chr_inj hnul) hc.1
      · next hend => exact absurd (chr_inj hend) hc.2.1
      · next hback => exact absurd hback hc.2.2.1
      · exact hs.append fun s₁ h₁ => h₁.next fun s₂ h₂ => .pure ⟨(), rfl, hgo h₂⟩
    | escape c e hc =>
      refine hs.look ?_
      have hne : '\\'.toUInt8 ≠ ndelim := fun he => hd.1 (by rw [← he]; rfl)
      show Ends (if '\\'.toUInt8 ≠ ndelim then _ else _) s _ _
      rw [if_pos hne]
      exact hs.next fun s₁ h₁ => (h₁.readEscape_char hc).bind fun _ s₂ h₂ => .pure ⟨(), rfl, hgo h₂⟩
    | hex digits hx =>
      refine hs.look ?_
      have hne : '\\'.toUInt8 ≠ ndelim := fun he => hd.1 (by rw [← he]; rfl)
      show Ends (if '\\'.toUInt8 ≠ ndelim then _ else _) s _ _
      rw [if_pos hne]
      refine hs.next fun s₁ h₁ => Ends.bind (Q := fun _ s => Reads src (xs.flatMap Piece.print ++ ndelim :: text) t
        (buf ++ done.map Piece.value ++ [UInt8.ofNat (ofDigits 16 digits)]) s) ?_ fun _ s₂ h₂ => .pure ⟨(), rfl, hgo h₂⟩
      refine h₁.look ?_
      rw [← hex_value hx.1]
      refine h₁.readHexEscape hx.1 hx.2 (Piece.hex_ends hd.2 hend) ?_
      simp only [← heq, List.flatMap_append, List.flatMap_cons, List.length_append, Piece.print, List.length_cons] at ht
      omega
  · obtain ⟨done, heq, -, hs⟩ := hi
    rw [List.append_nil] at heq
    refine hs.look ?_
    rw [if_neg (by simp)]
    exact .pure ⟨(), rfl, by rw [← heq]; exact hs⟩

/-- The inner loop of `ReadString` reads a verbatim string up to a quote. -/
theorem readUpTo_verbatim {chunk : Bytes} (hv : Verbatim chunk) (ht : chunk.length < src.turns)
    (h : Reads src (chunk ++ '"'.toUInt8 :: text) t buf s) :
    Ends (readUpTo src '"'.toUInt8 true) s (fun _ => Reads src ('"'.toUInt8 :: text) t (buf ++ chunk)) NoStop := by
  refine loopM_over (I := fun xs _ s => ∃ done, done ++ xs = chunk ∧
    Reads src (xs ++ '"'.toUInt8 :: text) t (buf ++ done) s)
    (fun c xs _ s hi => ?_) (fun _ s hi => ?_) ht ⟨[], rfl, by simpa using h⟩
  · obtain ⟨done, heq, hs⟩ := hi
    have hmem : c ∈ chunk := by rw [← heq]; simp
    have hgo {s' : Lexing R} (hs' : Reads src (xs ++ '"'.toUInt8 :: text) t (buf ++ done ++ [c]) s') :
        ∃ done, done ++ xs = chunk ∧ Reads src (xs ++ '"'.toUInt8 :: text) t (buf ++ done) s' :=
      ⟨done ++ [c], by rw [List.append_assoc]; exact heq, by rw [← List.append_assoc]; exact hs'⟩
    refine hs.look ?_
    show Ends (if c ≠ '"'.toUInt8 then _ else _) s _ _
    rw [if_pos (fun he : c = '"'.toUInt8 => hv.2 (he ▸ hmem))]
    split
    · next hnul => exact absurd (hs.ne_eob) (not_not.mpr (chr_inj hnul))
    · rw [if_neg (by decide)]
      refine hs.append fun s₁ h₁ => h₁.next fun s₂ h₂ => h₂.set rfl rfl rfl fun s₃ h₃ _ => .pure ⟨(), rfl, hgo h₃⟩
    · rw [if_pos rfl]
      exact hs.append fun s₁ h₁ => h₁.next fun s₂ h₂ => .pure ⟨(), rfl, hgo h₂⟩
    · exact hs.append fun s₁ h₁ => h₁.next fun s₂ h₂ => .pure ⟨(), rfl, hgo h₂⟩
  · obtain ⟨done, heq, hs⟩ := hi
    rw [List.append_nil] at heq
    refine hs.look ?_
    rw [if_neg (by simp)]
    exact .pure ⟨(), rfl, by rw [← heq]; exact hs⟩

/-- What the lexer has after a string token. -/
structure Has (src : LexSource R) (text : Bytes) (curtoken token : Int) (value : TokenValue) (t : Int) (s : Lexing R) :
    Prop where
  is_token : t = token
  at_text : At src text s
  cur : s.lexer.curtoken = curtoken
  value : expect token s.lexer = value

theorem stringToken_quote (h : Reads src text t buf s) :
    Ends (stringToken '"'.toUInt8) s (Has src text t Token.stringLiteral (.string buf)) NoStop := by
  refine h.append fun s₁ h₁ => h₁.get ?_
  rw [if_neg (by decide)]
  refine h₁.set rfl rfl rfl fun s₂ h₂ heq => .pure ⟨rfl, h₂.at_text, h₂.cur, ?_⟩
  have hvalue : expect Token.stringLiteral s₂.lexer =
    .string (s₂.lexer.svalue.take (s₂.lexer.longstr.length - 1)) := rfl
  rw [hvalue, h₂.longstr, heq]
  simp

theorem stringToken_constant {v : UInt8} (h : Reads src text t [v] s) :
    Ends (stringToken '\''.toUInt8) s (Has src text t Token.integer (.integer v.toInt8.toInt)) NoStop := by
  refine h.append fun s₁ h₁ => h₁.get ?_
  rw [if_pos (show chr '\''.toUInt8 = '\'' from rfl), if_neg (by simp), if_neg (by simp)]
  refine h₁.set rfl rfl rfl fun s₂ h₂ heq => .pure ⟨rfl, h₂.at_text, h₂.cur, ?_⟩
  have hvalue : expect Token.integer s₂.lexer = .integer s₂.lexer.nvalue := rfl
  rw [hvalue, heq]
  rfl

/-- A string whose pieces are between delimiters; after it comes no quote. -/
theorem readString_pieces {ndelim : UInt8} (hd : chr ndelim ≠ '\\' ∧ isxdigit ndelim = false)
    {pieces : List (Piece ndelim)}
    (hparted : Piece.parted pieces = true) (ht : (pieces.flatMap Piece.print).length < src.turns)
    {P : Int → Lexing R → Prop}
    (hP : ∀ s, Reads src text t (pieces.map Piece.value) s → Ends (stringToken ndelim) s P NoStop)
    (h : Reads src (ndelim :: (pieces.flatMap Piece.print ++ ndelim :: text)) t buf s) :
    Ends (readString src ndelim false) s P NoStop := by
  refine h.clear fun s₁ h₁ => h₁.next fun s₂ h₂ => h₂.look ?_
  have hbegin : ¬ (pieces.flatMap Piece.print ++ ndelim :: text).headD squirrelEob ≤ squirrelEob := by
    cases hp : pieces.flatMap Piece.print ++ ndelim :: text with
    | nil => simp at hp
    | cons c rest => exact not_le (hp ▸ h₂)
  rw [if_neg hbegin]
  refine Ends.bind (Q := fun _ s => Reads src text t (pieces.map Piece.value) s) ?_ fun _ s₃ h₃ => hP s₃ h₃
  obtain ⟨n, hn⟩ : ∃ n, src.turns = n + 1 := ⟨src.turns - 1, by omega⟩
  rw [hn, loopM]
  refine Ends.bind (Q := fun r s => r = .inr () ∧ Reads src text t (pieces.map Piece.value) s) ?_ fun r s₃ h₃ => ?_
  · refine (h₂.readUpTo_pieces hd hparted ht).bind fun _ s₃ h₃ => h₃.next fun s₄ h₄ => h₄.look ?_
    rw [if_neg (by simp)]
    exact .pure ⟨rfl, h₄⟩
  · obtain ⟨rfl, h₃⟩ := h₃
    exact .pure h₃

/-- The characters before which a token stops are these. -/
theorem stop_ne {c : UInt8} (h : Stops c) {x : Char} (hx : ¬ (x = '\x00' ∨ x = ' ' ∨ x = '\t' ∨ x = '\r' ∨ x = '\n')) :
    chr c ≠ x := by
  rintro rfl
  refine hx (h.imp_left fun hc => ?_)
  rw [hc]
  rfl

theorem length_mem_chunks {chunk : Bytes} : ∀ {more : List Bytes}, chunk ∈ more → chunk.length ≤ (chunks more).length
  | next :: more, h => by
    rw [chunks, List.flatMap_cons, List.length_append, List.length_cons, List.length_cons]
    rcases List.mem_cons.mp h with rfl | h
    · omega
    · have hle := length_mem_chunks h
      rw [chunks] at hle
      omega

theorem readString_verbatim {first : Bytes} {more : List Bytes}
    (hv : ∀ chunk ∈ first :: more, Verbatim chunk ∧ chunk.length < src.turns) (ht : more.length < src.turns)
    (hstop : Stops (text.headD squirrelEob))
    (h : Reads src ('"'.toUInt8 :: (first ++ chunks more ++ '"'.toUInt8 :: text)) t buf s) :
    Ends (readString src '"'.toUInt8 true) s (Has src text t Token.stringLiteral (.string (first ++ quoted more)))
      NoStop := by
  refine h.clear fun s₁ h₁ => h₁.next fun s₂ h₂ => h₂.look ?_
  have hbegin : ¬ (first ++ chunks more ++ '"'.toUInt8 :: text).headD squirrelEob ≤ squirrelEob := by
    cases hp : first ++ chunks more ++ '"'.toUInt8 :: text with
    | nil => simp at hp
    | cons c rest => exact not_le (hp ▸ h₂)
  rw [if_neg hbegin]
  refine Ends.bind (Q := fun _ s => Reads src text t (first ++ quoted more) s) ?_ fun _ s₃ h₃ => h₃.stringToken_quote
  refine loopM_over (I := fun xs _ s => ∃ buf chunk, buf ++ chunk ++ quoted xs = first ++ quoted more ∧
      (∀ c ∈ chunk :: xs, Verbatim c ∧ c.length < src.turns) ∧
      Reads src (chunk ++ chunks xs ++ '"'.toUInt8 :: text) t buf s)
    (fun x xs _ s hi => ?_) (fun _ s hi => ?_) ht ⟨[], first, rfl, hv, h₂⟩
  · obtain ⟨buf, chunk, heq, hv, hs⟩ := hi
    have htext : chunk ++ chunks (x :: xs) ++ '"'.toUInt8 :: text =
        chunk ++ '"'.toUInt8 :: ('"'.toUInt8 :: (x ++ chunks xs ++ '"'.toUInt8 :: text)) := by
      simp [chunks]
    rw [htext] at hs
    refine (hs.readUpTo_verbatim (hv chunk List.mem_cons_self).1 (hv chunk List.mem_cons_self).2).bind fun _ s₃ h₃ => ?_
    refine h₃.next fun s₄ h₄ => h₄.look ?_
    rw [if_pos ⟨rfl, rfl⟩]
    refine h₄.append fun s₅ h₅ => h₅.next fun s₆ h₆ =>
      .pure ⟨(), rfl, _, x, ?_, fun c hc => hv c (List.mem_cons_of_mem _ hc), h₆⟩
    rw [← heq]
    simp [quoted]
  · obtain ⟨buf, chunk, heq, hv, hs⟩ := hi
    have htext : chunk ++ chunks [] ++ '"'.toUInt8 :: text = chunk ++ '"'.toUInt8 :: text := by simp [chunks]
    rw [htext] at hs
    refine (hs.readUpTo_verbatim (hv chunk List.mem_cons_self).1 (hv chunk List.mem_cons_self).2).bind fun _ s₃ h₃ => ?_
    refine h₃.next fun s₄ h₄ => h₄.look ?_
    rw [if_neg fun hc => stop_ne hstop (by decide) hc.2]
    refine .pure ⟨(), rfl, ?_⟩
    rw [← heq]
    simpa [quoted] using h₄

/-! ## Numbers and words -/

theorem isdigit_not (c : UInt8) : isdigit c = true → chr c ≠ '.' ∧ isexponent c = false ∧
    ¬ (chr c = '+' ∨ chr c = '-') := by
  revert c
  exact forall_byte (by decide +kernel)

theorem exponent_not (c : UInt8) : isexponent c = true → chr c ≠ '.' := by
  revert c
  exact forall_byte (by decide +kernel)

theorem stops_not {c : UInt8} (h : Stops c) : chr c ≠ '.' ∧ isdigit c = false ∧ isexponent c = false ∧
    isxdigit c = false := by
  rcases h with rfl | h | h | h | h
  · decide
  all_goals simp only [isdigit, isexponent, isxdigit, h]; decide

/-- The lexer is at the `e`, and then at the digit. -/
theorem readExponent_sign {e : UInt8} {sign : Option UInt8}
    (hsign : sign.all (fun s => chr s == '+' || chr s == '-') = true)
    (hc : isdigit c = true) (h : Reads src (e :: sign.toList ++ [c] ++ text) t buf s) :
    Ends (readExponent src .float e) s (fun _ => Reads src (c :: text) t (buf ++ e :: sign.toList)) NoStop := by
  unfold readExponent
  rw [if_neg (by decide)]
  refine h.append fun s₁ h₁ => h₁.next fun s₂ h₂ => h₂.look ?_
  cases sign with
  | none =>
    show Ends (if chr c = '+' ∨ chr c = '-' then _ else _) s₂ _ _
    rw [if_neg (isdigit_not c hc).2.2]
    show Ends (if ¬ isdigit c = true then _ else _) s₂ _ _
    rw [if_neg (not_not.mpr hc)]
    exact .pure h₂
  | some g =>
    have hg : chr g = '+' ∨ chr g = '-' := by simpa using hsign
    show Ends (if chr g = '+' ∨ chr g = '-' then _ else _) s₂ _ _
    rw [if_pos hg]
    refine h₂.append fun s₃ h₃ => h₃.next fun s₄ h₄ => h₄.look ?_
    show Ends (if ¬ isdigit c = true then _ else _) s₄ _ _
    rw [if_neg (not_not.mpr hc)]
    refine .pure ?_
    simpa using h₄

/-- The rest of a number, up to the end of its token. -/
theorem readDigits_parts {type : NumberType} (parts : List Part) (hparts : parts.foldlM Part.type .int = some type)
    (ht : (parts.flatMap Part.print).length < src.turns) (hstop : Stops (text.headD squirrelEob))
    (h : Reads src (parts.flatMap Part.print ++ text) t buf s) :
    Ends (readDigits src) s (fun r s => r = type ∧ Reads src text t (buf ++ parts.flatMap Part.print) s) NoStop := by
  refine loopM_over (I := fun xs r s => xs.foldlM Part.type r = some type ∧ ∃ done,
    done ++ xs.flatMap Part.print = parts.flatMap Part.print ∧
      Reads src (xs.flatMap Part.print ++ text) t (buf ++ done) s)
    (fun x xs r s hi => ?_) (fun r s hi => ?_) (Nat.lt_of_le_of_lt (length_le_flatMap Part.print_ne parts) ht)
    ⟨hparts, [], rfl, by simpa using h⟩
  · obtain ⟨hr, done, heq, hs⟩ := hi
    rw [List.foldlM_cons] at hr
    obtain ⟨r', hx, hr'⟩ := Option.bind_eq_some_iff.mp hr
    rw [List.flatMap_cons, List.append_assoc] at hs
    have hgo {s' : Lexing R} (hs' : Reads src (xs.flatMap Part.print ++ text) t (buf ++ done ++ x.print) s') :
        ∃ a', (Sum.inl r' : NumberType ⊕ NumberType) = .inl a' ∧ xs.foldlM Part.type a' = some type ∧
          ∃ done, done ++ xs.flatMap Part.print = parts.flatMap Part.print ∧
            Reads src (xs.flatMap Part.print ++ text) t (buf ++ done) s' :=
      ⟨r', rfl, hr', done ++ x.print, by rw [List.append_assoc]; exact heq, by rw [← List.append_assoc]; exact hs'⟩
    cases x with
    | digit c hc =>
      cases hx
      obtain ⟨hpoint, hexp, -⟩ := isdigit_not c hc
      refine hs.look ?_
      show Ends (if chr c = '.' ∨ isdigit c = true ∨ isexponent c = true then _ else _) s _ _
      rw [if_pos (Or.inr (Or.inl hc))]
      show Ends (if isexponent c = true then _ else _) s _ _
      rw [if_neg (by simp [hexp])]
      refine hs.append fun s₁ h₁ => h₁.next fun s₂ h₂ => ?_
      show Ends (pure (Sum.inl (if chr c = '.' then NumberType.float else r)) : LexM R (NumberType ⊕ NumberType)) s₂ _ _
      rw [if_neg hpoint]
      exact .pure (hgo h₂)
    | point =>
      cases hx
      refine hs.look ?_
      show Ends (if chr '.'.toUInt8 = '.' ∨ isdigit '.'.toUInt8 = true ∨
        isexponent '.'.toUInt8 = true then _ else _) s _ _
      rw [if_pos (Or.inl (show chr '.'.toUInt8 = '.' from rfl))]
      show Ends (if isexponent '.'.toUInt8 = true then _ else _) s _ _
      rw [if_neg (by decide)]
      exact hs.append fun s₁ h₁ => h₁.next fun s₂ h₂ => .pure (hgo h₂)
    | exponent e sign c he hsign hc =>
      have hfloat : r = .float := by
        by_contra hne
        simp [Part.type, hne] at hx
      subst hfloat
      cases hx
      refine hs.look ?_
      show Ends (if chr e = '.' ∨ isdigit e = true ∨ isexponent e = true then _ else _) s _ _
      rw [if_pos (Or.inr (Or.inr he))]
      show Ends (if isexponent e = true then _ else _) s _ _
      rw [if_pos he]
      show Ends (readExponent src (if chr e = '.' then NumberType.float else .float) e >>= _) s _ _
      rw [if_neg (exponent_not e he)]
      refine (hs.readExponent_sign hsign hc).bind fun _ s₁ h₁ =>
        h₁.look (h₁.append fun s₂ h₂ => h₂.next fun s₃ h₃ => .pure (hgo ?_))
      simpa [Part.print] using h₃
  · obtain ⟨hr, done, heq, hs⟩ := hi
    cases hr
    obtain ⟨hpoint, hdigit, hexp, -⟩ := stops_not hstop
    refine hs.look ?_
    have hend : ¬ (chr (text.headD squirrelEob) = '.' ∨ isdigit (text.headD squirrelEob) = true ∨
        isexponent (text.headD squirrelEob) = true) := by
      rw [hdigit, hexp, not_or]
      exact ⟨hpoint, by decide⟩
    show Ends (if chr (text.headD squirrelEob) = '.' ∨ isdigit (text.headD squirrelEob) = true ∨
      isexponent (text.headD squirrelEob) = true then _ else _) s _ _
    rw [if_neg hend]
    refine .pure ⟨_, rfl, rfl, ?_⟩
    rw [← heq]
    simpa using hs

/-- No number becomes one without a point again, or one in hexadecimal. -/
theorem parts_type : ∀ (parts : List Part) {r type : NumberType}, parts.foldlM Part.type r = some type →
    (type = .int → r = .int ∧ (parts.flatMap Part.print).all isdigit = true) ∧ (type = .hex → r = .hex)
  | [], r, type, h => by
    cases h
    exact ⟨fun h => ⟨h, rfl⟩, id⟩
  | part :: parts, r, type, h => by
    rw [List.foldlM_cons] at h
    obtain ⟨r', hpart, hrest⟩ := Option.bind_eq_some_iff.mp h
    obtain ⟨hint, hhex⟩ := parts_type parts hrest
    cases part with
    | digit c hc =>
      cases hpart
      refine ⟨fun ht => ⟨(hint ht).1, ?_⟩, hhex⟩
      rw [List.flatMap_cons, List.all_append, (hint ht).2]
      simp [Part.print, hc]
    | point =>
      cases hpart
      exact ⟨fun ht => (nomatch (hint ht).1), fun ht => nomatch hhex ht⟩
    | exponent e sign c he hs hc =>
      have hr' : r' = .scientific := by
        simp only [Part.type] at hpart
        split at hpart <;> cases hpart
        rfl
      subst hr'
      exact ⟨fun ht => (nomatch (hint ht).1), fun ht => nomatch hhex ht⟩

theorem numberToken_parts {type : NumberType} (parts : List Part) (hc : isdigit c = true)
    (hparts : parts.foldlM Part.type .int = some type) (h : Reads src text t (c :: parts.flatMap Part.print) s) :
    Ends (numberToken src type) s (Has src text t (Lexeme.number c parts type hc hparts).token
      ((Lexeme.number c parts type hc hparts).value src.locale.strtod)) NoStop := by
  obtain ⟨hint, hhex⟩ := parts_type parts hparts
  refine h.append fun s₁ h₁ => h₁.get ?_
  cases type with
  | hex => exact nomatch hhex rfl
  | int =>
    refine h₁.set rfl rfl rfl fun s₂ h₂ heq => .pure ⟨rfl, h₂.at_text, h₂.cur, ?_⟩
    have hvalue : expect Token.integer s₂.lexer = .integer s₂.lexer.nvalue := rfl
    have hall : (c :: parts.flatMap Part.print).all isdigit = true := by
      rw [List.all_cons, hc, (hint rfl).2]
      rfl
    show expect Token.integer s₂.lexer = .integer _
    rw [hvalue, heq]
    show TokenValue.integer (lexInteger (c :: parts.flatMap Part.print ++ [0])).toInt32.toInt = _
    rw [lexInteger_eq hall, wrapped_ofNat]
  | float => exact h₁.set rfl rfl rfl fun s₂ h₂ heq => .pure ⟨rfl, h₂.at_text, h₂.cur, by rw [heq]; rfl⟩
  | scientific => exact h₁.set rfl rfl rfl fun s₂ h₂ heq => .pure ⟨rfl, h₂.at_text, h₂.cur, by rw [heq]; rfl⟩

/-- What goes on a number makes it none in hexadecimal. -/
theorem toupper_not {locale : CLocale} (hlocale : locale.Ascii) {c : UInt8}
    (h : Stops c ∨ isdigit c = true ∨ chr c = '.' ∨ isexponent c = true) : chr (locale.toupper c) ≠ 'X' := by
  have hbyte : ∀ c : UInt8, (Stops c ∨ isdigit c = true ∨ chr c = '.' ∨ isexponent c = true) →
      c < 128 ∧ chr (if (chr c).isLower then c - 32 else c) ≠ 'X' := forall_byte (by decide +kernel)
  obtain ⟨hlt, hne⟩ := hbyte c h
  rw [(hlocale c hlt).2]
  exact hne

theorem parts_head (parts : List Part) (hstop : Stops (text.headD squirrelEob)) :
    let d := (parts.flatMap Part.print ++ text).headD squirrelEob
    Stops d ∨ isdigit d = true ∨ chr d = '.' ∨ isexponent d = true := by
  cases parts with
  | nil => exact .inl hstop
  | cons part parts =>
    cases part with
    | digit c hc => exact .inr (.inl hc)
    | point => exact .inr (.inr (.inl rfl))
    | exponent e sign c he hs hc => exact .inr (.inr (.inr he))

theorem readNumber_parts {type : NumberType} (hlocale : src.locale.Ascii) (parts : List Part) (hc : isdigit c = true)
    (hparts : parts.foldlM Part.type .int = some type) (ht : (parts.flatMap Part.print).length < src.turns)
    (hstop : Stops (text.headD squirrelEob)) (h : Reads src (c :: (parts.flatMap Part.print ++ text)) t buf s) :
    Ends (readNumber src) s (Has src text t (Lexeme.number c parts type hc hparts).token
      ((Lexeme.number c parts type hc hparts).value src.locale.strtod)) NoStop := by
  refine h.look (h.clear fun s₁ h₁ => h₁.next fun s₂ h₂ => h₂.look ?_)
  rw [if_neg fun hx => toupper_not hlocale (parts_head parts hstop) hx.2]
  refine h₂.append fun s₃ h₃ => (h₃.readDigits_parts parts hparts ht hstop).bind fun r s₄ h₄ => ?_
  rw [h₄.1]
  exact h₄.2.numberToken_parts parts hc hparts

theorem readHexDigits_all {digits : Bytes} (hx : digits.all isxdigit = true) (h8 : digits.length ≤ 8)
    (ht : digits.length < src.turns) (hstop : Stops (text.headD squirrelEob)) (h : Reads src (digits ++ text) t [] s) :
    Ends (readHexDigits src) s (fun _ => Reads src text t digits) NoStop := by
  refine Ends.bind (Q := fun _ s => Reads src text t digits s) ?_ fun _ s₁ h₁ => h₁.get ?_
  · refine loopM_over (I := fun xs _ s => ∃ done, done ++ xs = digits ∧ Reads src (xs ++ text) t done s)
      (fun c xs _ s hi => ?_) (fun _ s hi => ?_) ht ⟨[], rfl, h⟩
    · obtain ⟨done, heq, hs⟩ := hi
      have hc : isxdigit c = true := List.all_eq_true.mp hx c (by rw [← heq]; simp)
      refine hs.look ?_
      show Ends (if isxdigit c = true then _ else _) s _ _
      rw [if_pos hc]
      exact hs.append fun s₁ h₁ => h₁.next fun s₂ h₂ => .pure ⟨(), rfl, _, by rw [List.append_assoc]; exact heq, h₂⟩
    · obtain ⟨done, heq, hs⟩ := hi
      rw [List.append_nil] at heq
      subst heq
      refine hs.look ?_
      show Ends (if isxdigit (text.headD squirrelEob) = true then _ else _) s _ _
      rw [(stops_not hstop).2.2.2, if_neg (by decide)]
      exact .pure ⟨(), rfl, hs⟩
  · rw [if_neg (by omega)]
    exact .pure h₁

theorem readNumber_hex {x : UInt8} {digits : Bytes} (hlocale : src.locale.Ascii) (hx : chr x = 'x' ∨ chr x = 'X')
    (hd : digits.all isxdigit = true ∧ digits.length ≤ 8) (ht : digits.length < src.turns)
    (hstop : Stops (text.headD squirrelEob))
    (h : Reads src ('0'.toUInt8 :: x :: (digits ++ text)) t buf s) :
    Ends (readNumber src) s (Has src text t Token.integer (.integer (wrapped (ofDigits 16 digits)))) NoStop := by
  have hupper : chr (src.locale.toupper x) = 'X' := by
    rcases hx with hx | hx
    · rw [(hlocale x (by rw [show x = 'x'.toUInt8 from chr_inj hx]; decide)).2, show x = 'x'.toUInt8 from chr_inj hx]
      rfl
    · rw [(hlocale x (by rw [show x = 'X'.toUInt8 from chr_inj hx]; decide)).2, show x = 'X'.toUInt8 from chr_inj hx]
      rfl
  refine h.look (h.clear fun s₁ h₁ => h₁.next fun s₂ h₂ => h₂.look ?_)
  rw [if_pos ⟨rfl, hupper⟩]
  refine h₂.next fun s₃ h₃ => (h₃.readHexDigits_all hd.1 hd.2 ht hstop).bind fun _ s₄ h₄ => ?_
  refine h₄.append fun s₅ h₅ => h₅.get ?_
  have hnul : (0 : UInt8) ∉ digits := fun hmem => Feed.isxdigit_ne (List.all_eq_true.mp hd.1 0 hmem) rfl
  have hvalue : lexHexadecimal src.locale (digits ++ [0]) = some (UInt32.ofNat (ofDigits 16 digits)) := by
    rw [lexHexadecimal, cString_terminated hnul, if_pos hd.1, hexadecimal_eq hd.1 fun c hc hnot => ?_]
    obtain ⟨hlt, heq⟩ := upper_hexadecimal c hc hnot
    rw [(hlocale c hlt).2, heq]
  simp only [hvalue]
  refine h₅.set rfl rfl rfl fun s₆ h₆ heq => .pure ⟨rfl, h₆.at_text, h₆.cur, ?_⟩
  have hexpect : expect Token.integer s₆.lexer = .integer s₆.lexer.nvalue := rfl
  rw [hexpect, heq]
  show TokenValue.integer (UInt32.ofNat (ofDigits 16 digits)).toInt32.toInt = _
  rw [wrapped_ofNat]

/-! ### Words -/

theorem wordChar_ascii (c : UInt8) : wordChar c = true →
    c < 128 ∧ c ≠ squirrelEob ∧ ((chr c).isAlpha = true ∨ isdigit c = true ∨ chr c = '_') := by
  revert c
  exact forall_byte (by decide +kernel)

theorem wordStart_char (c : UInt8) : wordStart c = true → wordChar c = true := by
  revert c
  exact forall_byte (by decide +kernel)

theorem stops_word {locale : CLocale} (hlocale : locale.Ascii) {c : UInt8} (h : Stops c) :
    ¬ (locale.isalnum c = true ∨ chr c = '_') := by
  have hbyte : ∀ c : UInt8, Stops c → c < 128 ∧ (chr c).isAlpha = false ∧ isdigit c = false ∧ chr c ≠ '_' :=
    forall_byte (by decide +kernel)
  obtain ⟨hlt, halpha, hdigit, hne⟩ := hbyte c h
  rw [CLocale.isalnum, (hlocale c hlt).1, halpha, hdigit]
  exact fun h => h.elim Bool.false_ne_true hne

theorem word_goes {locale : CLocale} (hlocale : locale.Ascii) {c : UInt8} (h : wordChar c = true) :
    locale.isalnum c = true ∨ chr c = '_' := by
  obtain ⟨hlt, -, halpha | hdigit | hline⟩ := wordChar_ascii c h
  · exact .inl (by rw [CLocale.isalnum, (hlocale c hlt).1, halpha]; rfl)
  · exact .inl (by rw [CLocale.isalnum, hdigit, Bool.or_true])
  · exact .inr hline

/-- No word is a literal. -/
theorem keyword_plain (s : Bytes) : getIDType s ≠ Token.stringLiteral ∧ getIDType s ≠ Token.integer ∧
    getIDType s ≠ Token.float := by
  have hall : ∀ k ∈ keywords, k.2 ≠ Token.stringLiteral ∧ k.2 ≠ Token.integer ∧ k.2 ≠ Token.float := by decide
  rw [getIDType]
  cases hk : keywords.lookup (cString s) with
  | none => decide
  | some t =>
    obtain ⟨l₁, l₂, hl, -⟩ := List.lookup_eq_some_iff.mp hk
    exact hall (cString s, t) (by rw [hl]; simp)

theorem readID_word {name : Bytes} (hlocale : src.locale.Ascii) (hc : wordStart c = true)
    (hname : name.all wordChar = true)
    (ht : name.length < src.turns) (hstop : Stops (text.headD squirrelEob))
    (h : Reads src (c :: (name ++ text)) t buf s) :
    Ends (readID src) s (Has src text t (Lexeme.word c name hc hname).token
      ((Lexeme.word c name hc hname).value src.locale.strtod)) NoStop := by
  refine h.clear fun s₁ h₁ => Ends.bind (Q := fun _ s => Reads src text t (c :: name) s) ?_ fun _ s₂ h₂ => ?_
  · refine loopM_over (I := fun xs _ s => ∃ done d, done ++ d :: xs = c :: name ∧
      Reads src (d :: (xs ++ text)) t done s)
      (fun x xs _ s hi => ?_) (fun _ s hi => ?_) ht ⟨[], c, rfl, h₁⟩
    · obtain ⟨done, d, heq, hs⟩ := hi
      have hx : wordChar x = true := by
        have hmem : x ∈ c :: name := by rw [← heq]; simp
        rcases List.mem_cons.mp hmem with rfl | hmem
        · exact wordStart_char _ hc
        · exact List.all_eq_true.mp hname x hmem
      refine hs.look (hs.append fun s₂ h₂ => h₂.next fun s₃ h₃ => h₃.look ?_)
      show Ends (if src.locale.isalnum x = true ∨ chr x = '_' then _ else _) s₃ _ _
      rw [if_pos (word_goes hlocale hx)]
      exact .pure ⟨(), rfl, done ++ [d], x, by rw [List.append_assoc]; exact heq, h₃⟩
    · obtain ⟨done, d, heq, hs⟩ := hi
      refine hs.look (hs.append fun s₂ h₂ => h₂.next fun s₃ h₃ => h₃.look ?_)
      show Ends (if src.locale.isalnum (text.headD squirrelEob) = true ∨
        chr (text.headD squirrelEob) = '_' then _ else _) s₃ _ _
      rw [if_neg (stops_word hlocale hstop), ← heq]
      exact .pure ⟨(), rfl, h₃⟩
  · refine h₂.append fun s₃ h₃ => h₃.get ?_
    have hnul : (0 : UInt8) ∉ c :: name := by
      intro hmem
      rcases List.mem_cons.mp hmem with heq | hmem
      · exact (wordChar_ascii c (wordStart_char c hc)).2.1 heq.symm
      · exact (wordChar_ascii 0 (List.all_eq_true.mp hname 0 hmem)).2.1 rfl
    have htype : getIDType (c :: name ++ [0]) = getIDType (c :: name) := by
      rw [getIDType, getIDType, cString_terminated hnul, cString_self hnul]
    rw [htype]
    show Ends (if getIDType (c :: name) = Token.identifier ∨
      getIDType (c :: name) = Token.constructor then _ else _) s₃ _ _
    by_cases hid : getIDType (c :: name) = Token.identifier ∨ getIDType (c :: name) = Token.constructor
    · rw [if_pos hid]
      refine h₃.set rfl rfl rfl fun s₄ h₄ heq => .pure ⟨rfl, h₄.at_text, h₄.cur, ?_⟩
      show expect (getIDType (c :: name)) s₄.lexer = if _ then _ else _
      rw [expect, if_pos hid, if_pos hid, heq]
      show TokenValue.string (cString (c :: name ++ [0])) = _
      rw [cString_terminated hnul]
    · rw [if_neg hid]
      refine .pure ⟨rfl, h₃.at_text, h₃.cur, ?_⟩
      obtain ⟨hstring, hint, hfloat⟩ := keyword_plain (c :: name)
      show expect (getIDType (c :: name)) s₃.lexer = if _ then _ else _
      rw [expect, if_neg hid, if_neg hid, if_neg hstring, if_neg hint, if_neg hfloat]

/-! ## Operators -/

/-- A turn of the loop of `Lex` returns a token. -/
structure Returned (src : LexSource R) (text : Bytes) (prevtoken token : Int) (value : TokenValue) (r : Unit ⊕ Int)
    (s : Lexing R) : Prop where
  is_token : r = .inr token
  at_text : At src text s
  cur : s.lexer.curtoken = token
  prev : s.lexer.prevtoken = prevtoken
  value : expect token s.lexer = value

theorem Has.returned {token t' : Int} {value : TokenValue} (h : Has src text t token value t' s) :
    Ends (returnToken t') s (Returned src text t token value) NoStop := by
  obtain ⟨rfl, hat, hcur, hvalue⟩ := h
  refine hat.set rfl fun s' hat' heq => .pure ⟨rfl, hat', by rw [heq], by rw [heq]; exact hcur, ?_⟩
  rw [← hvalue, heq]
  rfl

/-- A token that is none of the literals has no value. -/
def Plain (token : Int) : Prop :=
  ¬ (token = Token.identifier ∨ token = Token.constructor) ∧ token ≠ Token.stringLiteral ∧
    token ≠ Token.integer ∧ token ≠ Token.float

instance (token : Int) : Decidable (Plain token) := inferInstanceAs (Decidable (_ ∧ _))

theorem expect_plain {token : Int} (h : Plain token) (lex : SQLexer) : expect token lex = .null := by
  rw [expect, if_neg h.1, if_neg h.2.1, if_neg h.2.2.1, if_neg h.2.2.2]

theorem returned {token : Int} (hp : Plain token) (h : Reads src text t buf s) :
    Ends (returnToken token) s (Returned src text t token .null) NoStop :=
  Has.returned ⟨rfl, h.at_text, h.cur, expect_plain hp _⟩

theorem next_returned {token : Int} (hp : Plain token) (h : Reads src (c :: text) t buf s) :
    Ends (do nextColumn src; returnToken token) s (Returned src text t token .null) NoStop :=
  h.next fun _ h₁ => h₁.returned hp

/-- The operators that `lexOperator` reads. -/
def openings : List (Char × List (Char × Int)) :=
  [('=', [('=', Token.eq)]), ('<', [('=', Token.le), ('-', Token.newslot), ('<', Token.shiftl), ('/', Token.attrOpen)]),
    ('!', [('=', Token.ne)]), ('{', []), ('}', []), ('(', []), (')', []), ('[', []), (']', []),
    (';', []), (',', []), ('?', []),
    ('^', []), ('~', []), ('&', [('&', Token.and)]), ('|', [('|', Token.or)]), (':', [(':', Token.doubleColon)]),
    ('*', [('=', Token.muleq)]), ('%', [('=', Token.modeq)]), ('-', [('=', Token.minuseq), ('-', Token.minusminus)]),
    ('+', [('=', Token.pluseq), ('+', Token.plusplus)])]

/-- The others. -/
def specials : List (Bytes × Int) :=
  [(cstr "/", 47), (cstr "/=", Token.diveq), (cstr "/>", Token.attrClose), (cstr ">", 62), (cstr ">=", Token.ge),
    (cstr ">>", Token.shiftr), (cstr ">>>", Token.ushiftr), (cstr ".", 46), (cstr "...", Token.varparams)]

theorem operators_kinds : ∀ o ∈ operators,
    (∃ p ∈ openings, o = ([p.1.toUInt8], (p.1.toUInt8.toNat : Int)) ∧ Plain o.2) ∨
      (∃ p ∈ openings, ∃ q ∈ p.2, o = ([p.1.toUInt8, q.1.toUInt8], q.2) ∧ Plain q.2 ∧
        p.2.lookup (chr q.1.toUInt8) = some q.2) ∨
      o ∈ specials := by
  decide +kernel

theorem lexSwitch_opening (src : LexSource R) {p : Char × List (Char × Int)} (hp : p ∈ openings) :
    lexSwitch src p.1.toUInt8 = lexOperator src p.1.toUInt8 p.2 := by
  simp only [openings, List.mem_cons, List.not_mem_nil, or_false] at hp
  rcases hp with rfl | rfl | rfl | rfl | rfl | rfl | rfl | rfl | rfl | rfl | rfl | rfl | rfl | rfl | rfl | rfl | rfl |
    rfl | rfl | rfl | rfl <;> rfl

theorem openings_stop : ∀ p ∈ openings, ∀ q ∈ p.2,
    ¬ (q.1 = '\x00' ∨ q.1 = ' ' ∨ q.1 = '\t' ∨ q.1 = '\r' ∨ q.1 = '\n') := by
  decide +kernel

theorem lookup_stop {p : Char × List (Char × Int)} (hp : p ∈ openings) {c : UInt8} (h : Stops c) :
    p.2.lookup (chr c) = none := by
  cases hq : p.2.lookup (chr c) with
  | none => rfl
  | some t =>
    obtain ⟨l₁, l₂, heq, -⟩ := List.lookup_eq_some_iff.mp hq
    exact absurd rfl (stop_ne h (openings_stop p hp (chr c, t) (by rw [heq]; simp)))

/-- A `/`, `>` or `.`, and what begins with it. -/
theorem lexSwitch_special {spelling : Bytes} {token : Int} (ho : (spelling, token) ∈ specials)
    (hstop : Stops (text.headD squirrelEob))
    (h : Reads src (spelling ++ text) t buf s) :
    Ends (lexSwitch src ((spelling ++ text).headD squirrelEob)) s (Returned src text t token .null) NoStop := by
  simp only [specials, List.mem_cons, Prod.mk.injEq, List.not_mem_nil, or_false] at ho
  rcases ho with ⟨rfl, rfl⟩ | ⟨rfl, rfl⟩ | ⟨rfl, rfl⟩ | ⟨rfl, rfl⟩ | ⟨rfl, rfl⟩ | ⟨rfl, rfl⟩ | ⟨rfl,
    rfl⟩ | ⟨rfl, rfl⟩ | ⟨rfl, rfl⟩
  · refine h.next fun s₁ h₁ => h₁.look ?_
    split
    · next hx => exact absurd hx (stop_ne hstop (by decide))
    · next hx => exact absurd hx (stop_ne hstop (by decide))
    · next hx => exact absurd hx (stop_ne hstop (by decide))
    · next hx => exact absurd hx (stop_ne hstop (by decide))
    · exact h₁.returned (by decide)
  · exact h.next fun s₁ h₁ => h₁.look (h₁.next_returned (by decide))
  · exact h.next fun s₁ h₁ => h₁.look (h₁.next_returned (by decide))
  · refine h.next fun s₁ h₁ => h₁.look ?_
    split
    · next hx => exact absurd hx (stop_ne hstop (by decide))
    · next hx => exact absurd hx (stop_ne hstop (by decide))
    · exact h₁.returned (by decide)
  · exact h.next fun s₁ h₁ => h₁.look (h₁.next_returned (by decide))
  · refine h.next fun s₁ h₁ => h₁.look (h₁.next fun s₂ h₂ => h₂.look ?_)
    show Ends (if chr (text.headD squirrelEob) = '>' then _ else _) s₂ _ _
    rw [if_neg (stop_ne hstop (by decide))]
    exact h₂.returned (by decide)
  · exact h.next fun s₁ h₁ => h₁.look (h₁.next fun s₂ h₂ => h₂.look (h₂.next_returned (by decide)))
  · refine h.next fun s₁ h₁ => h₁.look ?_
    show Ends (if chr (text.headD squirrelEob) ≠ '.' then _ else _) s₁ _ _
    rw [if_pos (stop_ne hstop (by decide))]
    exact h₁.returned (by decide)
  · exact h.next fun s₁ h₁ => h₁.look (h₁.next fun s₂ h₂ => h₂.look (h₂.next_returned (by decide)))

theorem lexSwitch_operator {spelling : Bytes} {token : Int} (ho : (spelling, token) ∈ operators)
    (hstop : Stops (text.headD squirrelEob))
    (h : Reads src (spelling ++ text) t buf s) :
    Ends (lexSwitch src ((spelling ++ text).headD squirrelEob)) s (Returned src text t token .null) NoStop := by
  rcases operators_kinds _ ho with ⟨p, hp, heq, hplain⟩ | ⟨p, hp, q, hq, heq, hplain, hlookup⟩ | hspecial
  · cases heq
    show Ends (lexSwitch src p.1.toUInt8) s _ _
    rw [lexSwitch_opening src hp]
    have hone : Reads src (p.1.toUInt8 :: text) t buf s := h
    refine hone.next fun s₁ h₁ => h₁.look ?_
    rw [lookup_stop hp hstop]
    exact h₁.returned hplain
  · cases heq
    show Ends (lexSwitch src p.1.toUInt8) s _ _
    rw [lexSwitch_opening src hp]
    have htwo : Reads src (p.1.toUInt8 :: q.1.toUInt8 :: text) t buf s := h
    refine htwo.next fun s₁ h₁ => h₁.look ?_
    rw [List.headD_cons, hlookup]
    exact h₁.next_returned hplain
  · exact lexSwitch_special hspecial hstop h

/-! ## A turn of `Lex` -/

/-- Digits and letters come to the last branch of the `switch`. -/
theorem lexSwitch_default (src : LexSource R) (c : UInt8) : wordChar c = true → lexSwitch src c = lexDefault src c := by
  have hbyte : ∀ c : UInt8,
    (!wordChar c || "\t\r \n/=<>!@\"'{}()[];,?^~.&|:*%-+\x00".toList.all fun x => chr c != x) = true :=
    forall_byte (by decide +kernel)
  intro h
  have hne : ∀ x ∈ "\t\r \n/=<>!@\"'{}()[];,?^~.&|:*%-+\x00".toList, chr c ≠ x := by
    have hall := hbyte c
    rw [h, Bool.not_true, Bool.false_or] at hall
    exact fun x hx => bne_iff_ne.mp (List.all_eq_true.mp hall x hx)
  unfold lexSwitch
  split
  all_goals first
    | rfl
    | next hx => exact absurd hx (hne _ (by decide))

/-- A turn of the loop of `Lex` that begins at a lexeme returns its token. -/
theorem lexSwitch_lexeme (hlocale : src.locale.Ascii) (l : Lexeme) (ht : l.print.length < src.turns)
    (hstop : Stops (text.headD squirrelEob)) (h : Reads src (l.print ++ text) t buf s) :
    Ends (lexSwitch src ((l.print ++ text).headD squirrelEob)) s
      (Returned src text t l.token (l.value src.locale.strtod)) NoStop := by
  cases l with
  | operator spelling token ho => exact lexSwitch_operator ho hstop h
  | word c name hc hname =>
    have hchar := wordStart_char c hc
    have hstart : isdigit c = false ∧ (src.locale.isalpha c = true ∨ chr c = '_') := by
      have hbyte : ∀ c : UInt8, wordStart c = true → isdigit c = false ∧ c < 128 ∧
        ((chr c).isAlpha = true ∨ chr c = '_') :=
        forall_byte (by decide +kernel)
      obtain ⟨hdigit, hlt, hor⟩ := hbyte c hc
      exact ⟨hdigit, hor.imp_left fun halpha => by rw [(hlocale c hlt).1, halpha]⟩
    show Ends (lexSwitch src c) s _ _
    rw [lexSwitch_default src c hchar]
    unfold lexDefault
    rw [if_neg (by rw [hstart.1]; decide), if_pos hstart.2]
    refine (h.readID_word hlocale hc hname ?_ hstop).bind fun _ s₁ h₁ => h₁.returned
    simp only [Lexeme.print, List.length_cons] at ht
    omega
  | number c parts type hc hparts =>
    show Ends (lexSwitch src c) s _ _
    rw [lexSwitch_default src c (by rw [wordChar, Char.isAlphanum, show (chr c).isDigit = true from hc]; simp)]
    unfold lexDefault
    rw [if_pos hc]
    refine (h.readNumber_parts hlocale parts hc hparts ?_ hstop).bind fun _ s₁ h₁ => h₁.returned
    simp only [Lexeme.print, List.length_cons] at ht
    omega
  | hexNumber x digits hx hd =>
    show Ends (lexSwitch src '0'.toUInt8) s _ _
    rw [lexSwitch_default src _ (by decide)]
    unfold lexDefault
    rw [if_pos (by decide)]
    refine (h.readNumber_hex hlocale hx hd ?_ hstop).bind fun _ s₁ h₁ => h₁.returned
    simp only [Lexeme.print, List.length_cons] at ht
    omega
  | char p =>
    have htext : (Lexeme.char p).print ++ text = '\''.toUInt8 :: ([p].flatMap Piece.print ++ '\''.toUInt8 :: text) := by
      simp [Lexeme.print]
    rw [htext] at h ⊢
    refine (h.readString_pieces (by decide) (Piece.parted_single p) ?_ fun s₁ h₁ => h₁.stringToken_constant).bind
      fun stype s₁ h₁ => ?_
    · simp only [Lexeme.print, List.length_append] at ht
      simp only [List.flatMap_cons, List.flatMap_nil, List.append_nil]
      omega
    · rw [if_pos (by rw [h₁.is_token]; decide)]
      exact h₁.returned
  | string pieces hp =>
    have htext : (Lexeme.string pieces hp).print ++ text =
      '"'.toUInt8 :: (pieces.flatMap Piece.print ++ '"'.toUInt8 :: text) := by
      simp [Lexeme.print]
    rw [htext] at h ⊢
    refine (h.readString_pieces (by decide) hp ?_ fun s₁ h₁ => h₁.stringToken_quote).bind fun stype s₁ h₁ => ?_
    · simp only [Lexeme.print, List.length_append] at ht
      omega
    · rw [if_pos (by rw [h₁.is_token]; decide)]
      exact h₁.returned
  | verbatim first more hfirst hmore =>
    have htext : (Lexeme.verbatim first more hfirst hmore).print ++ text =
        '@'.toUInt8 :: ('"'.toUInt8 :: (first ++ chunks more ++ '"'.toUInt8 :: text)) := by
      simp [Lexeme.print]
    have hchunks : (first ++ chunks more).length < src.turns := by
      simp only [Lexeme.print, List.length_cons, List.length_append] at ht
      rw [List.length_append]
      omega
    rw [htext] at h ⊢
    refine h.next fun s₁ h₁ => h₁.look ?_
    show Ends (if chr '"'.toUInt8 ≠ '"' then _ else _) s₁ _ _
    rw [if_neg (by decide)]
    refine (h₁.readString_verbatim (fun chunk hmem => ⟨?_, ?_⟩) ?_ hstop).bind fun stype s₂ h₂ => ?_
    · rcases List.mem_cons.mp hmem with rfl | hmem
      · exact hfirst
      · exact hmore chunk hmem
    · rw [List.length_append] at hchunks
      rcases List.mem_cons.mp hmem with rfl | hmem
      · omega
      · have hle := length_mem_chunks hmem
        omega
    · rw [List.length_append] at hchunks
      have hle : more.length ≤ (chunks more).length := length_le_flatMap (fun _ => List.cons_ne_nil _ _) more
      omega
    · rw [if_pos (by rw [h₂.is_token]; decide)]
      exact h₂.returned

/-! ## Blanks -/

/-- The lexer is at the second slash, and then at the end of the line. -/
theorem lexLineComment_blank {comment : Bytes} (hc : comment.all (fun c => c ≠ squirrelEob && c ≠ lineEnd) = true)
    (ht : comment.length < src.turns) (h : Reads src (c :: (comment ++ lineEnd :: text)) t buf s) :
    Ends (lexLineComment src) s (fun _ => Reads src (lineEnd :: text) t buf) NoStop := by
  refine loopM_over (I := fun xs _ s => ∃ d, xs.all (fun c => c ≠ squirrelEob && c ≠ lineEnd) = true ∧
      Reads src (d :: (xs ++ lineEnd :: text)) t buf s)
    (fun x xs _ s hi => ?_) (fun _ s hi => ?_) ht ⟨c, hc, h⟩
  · obtain ⟨d, hall, hs⟩ := hi
    rw [List.all_cons, Bool.and_eq_true] at hall
    have hx : x ≠ squirrelEob ∧ x ≠ lineEnd := by simpa using hall.1
    refine hs.next fun s₁ h₁ => h₁.look ?_
    show Ends (if chr x ≠ '\n' ∧ ¬ x ≤ squirrelEob then _ else _) s₁ _ _
    rw [if_pos ⟨fun he => hx.2 (chr_inj he), not_le h₁⟩]
    exact .pure ⟨(), rfl, x, hall.2, h₁⟩
  · obtain ⟨d, -, hs⟩ := hi
    refine hs.next fun s₁ h₁ => h₁.look ?_
    show Ends (if chr lineEnd ≠ '\n' ∧ ¬ lineEnd ≤ squirrelEob then _ else _) s₁ _ _
    rw [if_neg (by decide)]
    exact .pure ⟨(), rfl, h₁⟩

/-- The lexer is at the text of the comment. -/
theorem lexBlockComment_blank {comment : Bytes} (hc : Unclosed comment = true) (ht : comment.length < src.turns)
    (h : Reads src (comment ++ '*'.toUInt8 :: '/'.toUInt8 :: text) t buf s) :
    Ends (lexBlockComment src) s (fun _ => Reads src text t buf) NoStop := by
  refine loopM_over (I := fun xs _ s => Unclosed xs = true ∧
    Reads src (xs ++ '*'.toUInt8 :: '/'.toUInt8 :: text) t buf s)
    (fun x xs _ s hi => ?_) (fun _ s hi => ?_) ht ⟨hc, h⟩
  · obtain ⟨hunclosed, hs⟩ := hi
    rw [Unclosed, Bool.and_eq_true] at hunclosed
    refine hs.look ?_
    split
    · next hstar =>
      have hnot : chr ((xs ++ '*'.toUInt8 :: '/'.toUInt8 :: text).headD squirrelEob) ≠ '/' := by
        cases xs with
        | nil => exact fun he : chr '*'.toUInt8 = '/' => absurd he (by decide)
        | cons y xs =>
          have hstar' : chr x = '*' := hstar
          simpa [hstar'] using hunclosed.1
      refine hs.next fun s₁ h₁ => h₁.look ?_
      show Ends (if chr ((xs ++ '*'.toUInt8 :: '/'.toUInt8 :: text).headD squirrelEob) = '/' then _ else _) s₁ _ _
      rw [if_neg hnot]
      exact .pure ⟨(), rfl, hunclosed.2, h₁⟩
    · exact hs.set rfl rfl rfl fun s₁ h₁ _ => h₁.next fun s₂ h₂ => .pure ⟨(), rfl, hunclosed.2, h₂⟩
    · next hnul => exact absurd (chr_inj hnul) hs.ne_eob
    · exact hs.next fun s₁ h₁ => .pure ⟨(), rfl, hunclosed.2, h₁⟩
  · refine hi.2.look (hi.2.next fun s₁ h₁ => h₁.look ?_)
    show Ends (if chr '/'.toUInt8 = '/' then _ else _) s₁ _ _
    rw [if_pos (by decide)]
    exact h₁.next fun s₂ h₂ => .pure ⟨(), rfl, h₂⟩

/-- The end of a line is kept as a token. -/
theorem lexSwitch_newline (h : Reads src (lineEnd :: text) t buf s) :
    Ends (lexSwitch src lineEnd) s (fun r s' => r = .inl () ∧ Reads src text '\n'.toNat buf s') NoStop := by
  show Ends (setLexer _ >>= _) s _ _
  refine h.at_text.set rfl fun s₁ hat heq => ?_
  have h₁ : Reads src (lineEnd :: text) '\n'.toNat buf s₁ := ⟨hat, by rw [heq], by rw [heq]; exact h.longstr⟩
  exact h₁.next fun s₂ h₂ => h₂.set rfl rfl rfl fun s₃ h₃ _ => .pure ⟨rfl, h₃⟩

/-- A turn of the loop of `Lex` that begins at a blank goes on after it, or at the end of its line. -/
theorem lexSwitch_blank (blank : Blank) (ht : blank.print.length < src.turns)
    (h : Reads src (blank.print ++ text) t buf s) :
    Ends (lexSwitch src ((blank.print ++ text).headD squirrelEob)) s
      (fun r s' => r = .inl () ∧ (Reads src text (blank.curtoken t) buf s' ∨
        blank.curtoken t = '\n'.toNat ∧ 1 < blank.print.length ∧ Reads src (lineEnd :: text) t buf s')) NoStop := by
  cases blank with
  | white c hc =>
    have hspace : lexSwitch src c = (do nextColumn src; return .inl () : LexM R (Unit ⊕ Int)) := by
      unfold lexSwitch
      rcases hc with hc | hc | hc <;> rw [hc] <;> rfl
    show Ends (lexSwitch src c) s _ _
    rw [hspace]
    exact h.next fun s₁ h₁ => .pure ⟨rfl, .inl h₁⟩
  | newline => exact (lexSwitch_newline h).mono fun r s' hs => ⟨hs.1, .inl hs.2⟩
  | line comment hc =>
    have htext : (Blank.line comment hc).print ++ text =
      '/'.toUInt8 :: '/'.toUInt8 :: (comment ++ lineEnd :: text) := by
      simp [Blank.print]
    rw [htext] at h ⊢
    refine h.next fun s₁ h₁ => h₁.look ?_
    refine (h₁.lexLineComment_blank hc ?_).bind fun _ s₂ h₂ => .pure ⟨rfl, .inr ⟨rfl, ?_, h₂⟩⟩
    · simp only [Blank.print, List.length_append, List.length_cons] at ht
      omega
    · simp [Blank.print]
  | block comment hc hend =>
    have htext : (Blank.block comment hc hend).print ++ text =
        '/'.toUInt8 :: '*'.toUInt8 :: (comment ++ '*'.toUInt8 :: '/'.toUInt8 :: text) := by
      simp [Blank.print]
    rw [htext] at h ⊢
    refine h.next fun s₁ h₁ =>
      h₁.look (h₁.next fun s₂ h₂ => (h₂.lexBlockComment_blank hend ?_).bind fun _ s₃ h₃ => .pure ⟨rfl, .inl h₃⟩)
    simp only [Blank.print, List.length_append, List.length_cons] at ht
    omega

theorem ne_nil_look (h : text ≠ []) (hs : Reads src text t buf s) : text.headD squirrelEob ≠ squirrelEob := by
  cases text with
  | nil => exact absurd rfl h
  | cons c text => exact hs.ne_eob

/-- The loop of `Lex` goes over the blanks. -/
theorem lex_blanks {γ : Type} {Q : γ → Lexing R → Prop} {body : Unit → LexM R (Unit ⊕ γ)} {blanks : List Blank}
    (hbody : ∀ (blank : Blank) (text : Bytes) (t : Int) (s : Lexing R), Reads src (blank.print ++ text) t buf s →
      blank.print.length < src.turns →
      Ends (body ()) s (fun r s' => r = .inl () ∧ (Reads src text (blank.curtoken t) buf s' ∨
        blank.curtoken t = '\n'.toNat ∧ 1 < blank.print.length ∧ Reads src (lineEnd :: text) t buf s')) NoStop)
    (hend : ∀ s, Reads src rest (blanks.foldl Blank.curtoken t) buf s →
      Ends (body ()) s (fun r s' => ∃ a, r = .inr a ∧ Q a s') NoStop)
    (ht : (blanks.flatMap Blank.print ++ rest).length < src.turns)
    (h : Reads src (blanks.flatMap Blank.print ++ rest) t buf s) :
    Ends (loopM outOfTurns body src.turns ()) s Q NoStop := by
  refine loopM_down (I := fun n _ s => n < src.turns ∧ ∃ xs t', (xs.flatMap Blank.print ++ rest).length = n ∧
      xs.foldl Blank.curtoken t' = blanks.foldl Blank.curtoken t ∧ Reads src (xs.flatMap Blank.print ++ rest) t' buf s)
    (fun n _ s hi => ?_) src.turns ⟨ht, blanks, t, rfl, rfl, h⟩ ht
  obtain ⟨hn, xs, t', hlength, hcur, hs⟩ := hi
  cases xs with
  | nil =>
    refine (hend s (by rw [← hcur]; exact hs)).mono fun r s' hr => ?_
    obtain ⟨a, rfl, hq⟩ := hr
    exact hq
  | cons x xs =>
    rw [List.flatMap_cons, List.append_assoc] at hs hlength
    rw [List.length_append] at hlength
    have hx := List.length_pos_of_ne_nil x.print_ne
    refine (hbody x _ t' s hs (by omega)).mono fun r s' hr => ?_
    obtain ⟨rfl, hr⟩ := hr
    rcases hr with hr | ⟨hline, hlong, hr⟩
    · exact ⟨_, by omega, by omega, xs, _, rfl, hcur, hr⟩
    · refine ⟨(lineEnd :: (xs.flatMap Blank.print ++ rest)).length, by rw [List.length_cons]; omega,
        by rw [List.length_cons]; omega, .newline :: xs, t', rfl, ?_, hr⟩
      rw [← hcur, List.foldl_cons, List.foldl_cons, hline]
      rfl

/-! ## `Lex` -/

/-- What the compiler has with a token. -/
structure Gets (src : LexSource R) (text : Bytes) (prevtoken token : Int) (value : TokenValue)
    (r : Int) (s : Lexing R) : Prop where
  is_token : r = token
  at_text : At src text s
  cur : s.lexer.curtoken = token
  prev : s.lexer.prevtoken = prevtoken
  value : expect token s.lexer = value

theorem turn_blank (blank : Blank) (hs : Reads src (blank.print ++ text) t buf s)
    (ht : blank.print.length < src.turns) :
    Ends (do let c ← curChar; if c ≠ squirrelEob then lexSwitch src c else return .inr 0 : LexM R (Unit ⊕ Int)) s
      (fun r s' => r = .inl () ∧ (Reads src text (blank.curtoken t) buf s' ∨
        blank.curtoken t = '\n'.toNat ∧ 1 < blank.print.length ∧ Reads src (lineEnd :: text) t buf s')) NoStop := by
  have hne : blank.print ++ text ≠ [] := fun he => blank.print_ne (List.append_eq_nil_iff.mp he).1
  refine hs.look ?_
  rw [if_pos (hs.ne_nil_look hne)]
  exact hs.lexSwitch_blank blank ht

theorem Lexeme.print_ne (l : Lexeme) : l.print ≠ [] := by
  cases l with
  | operator spelling token h =>
    have hall : ∀ o ∈ operators, o.1 ≠ [] := by decide
    exact hall _ h
  | _ => simp [Lexeme.print]

/-- After the blanks `Lex` returns the token of the lexeme. -/
theorem lex_lexeme (hlocale : src.locale.Ascii) (blanks : List Blank) (l : Lexeme)
    (hstop : Stops (text.headD squirrelEob))
    (ht : (blanks.flatMap Blank.print ++ (l.print ++ text)).length < src.turns)
    (h : Reads src (blanks.flatMap Blank.print ++ (l.print ++ text)) t buf s) :
    Ends (lex src) s (Gets src text (blanks.foldl Blank.curtoken t) l.token (l.value src.locale.strtod)) NoStop := by
  refine h.set rfl rfl rfl fun s₁ h₁ _ => h₁.lex_blanks (fun blank text t s hs hlt => turn_blank blank hs hlt)
    (fun s hs => ?_) ht
  have hne : l.print ++ text ≠ [] := fun he => Lexeme.print_ne l (List.append_eq_nil_iff.mp he).1
  refine hs.look ?_
  rw [if_pos (hs.ne_nil_look hne)]
  refine (hs.lexSwitch_lexeme hlocale l ?_ hstop).mono fun r s' hr =>
    ⟨_, hr.is_token, rfl, hr.at_text, hr.cur, hr.prev, hr.value⟩
  simp only [List.length_append] at ht
  omega

/-- After the last blanks `Lex` returns 0. -/
theorem lex_end (blanks : List Blank) (ht : (blanks.flatMap Blank.print).length < src.turns)
    (h : Reads src (blanks.flatMap Blank.print) t buf s) : Ends (lex src) s (fun r _ => r = 0) NoStop := by
  rw [← List.append_nil (blanks.flatMap Blank.print)] at h ht
  refine h.set rfl rfl rfl fun s₁ h₁ _ => h₁.lex_blanks (fun blank text t s hs hlt => turn_blank blank hs hlt)
    (fun s hs => ?_) ht
  refine hs.look ?_
  rw [if_neg (by simp)]
  exact .pure ⟨0, rfl, rfl⟩

end Reads

/-! ## Scripts -/

/-- A token the compiler has been given, as `tokensOf` tells it. -/
def given (token : Int × SQLexer) : Int × Int × TokenValue := (token.2.prevtoken, token.1, expect token.1 token.2)

theorem Stops.of_apart {blanks : List Blank} {text : Bytes} (h : blanks.head?.any Blank.apart = true) :
    Stops ((blanks.flatMap Blank.print ++ text).headD squirrelEob) := by
  cases blanks with
  | nil => cases h
  | cons b blanks =>
    cases b with
    | white c hc => exact .inr (hc.imp_right fun hc => hc.imp_right fun hc => .inl hc)
    | newline => exact .inr (.inr (.inr (.inr rfl)))
    | line _ _ => cases h
    | block _ _ _ => cases h

theorem Spaced.stops {item : List Blank × Lexeme} {items : List (List Blank × Lexeme)} {last : List Blank}
    (h : Spaced (item :: items) last) : Stops ((printScript items last).headD squirrelEob) ∧ Spaced items last := by
  cases items with
  | nil =>
    refine ⟨?_, trivial⟩
    cases last with
    | nil => exact .inl rfl
    | cons b last =>
      have happart : (b :: last).head?.any Blank.apart = true := h
      have hstops : Stops (((b :: last).flatMap Blank.print ++ []).headD squirrelEob) := Stops.of_apart happart
      rwa [List.append_nil] at hstops
  | cons next items =>
    refine ⟨?_, h.2⟩
    rw [printScript, List.append_assoc]
    exact Stops.of_apart h.1

open Reads

theorem Lexeme.token_ne (l : Lexeme) : l.token ≠ 0 := by
  cases l with
  | operator spelling token h =>
    have hall : ∀ o ∈ operators, o.2 ≠ 0 := by decide
    exact hall _ h
  | word c name _ _ => exact getIDType_ne _
  | number c parts type _ _ =>
    show (if type = .int then Token.integer else Token.float) ≠ 0
    split <;> decide
  | hexNumber _ _ _ _ => exact fun h => nomatch h
  | char _ => exact fun h => nomatch h
  | string _ => exact fun h => nomatch h
  | verbatim _ _ _ _ => exact fun h => nomatch h

/-- The compiler has the tokens of the rest of the script, and the 0. -/
theorem compileFrom_script {R : Type} {src : LexSource R} (hlocale : src.locale.Ascii) {last : List Blank} :
    ∀ (items : List (List Blank × Lexeme)) (n : Nat) (tokens : List (Int × SQLexer)) {t : Int} {s : Lexing R},
      Spaced items last → (printScript items last).length < src.turns → items.length < n →
      untilEnd tokens = true → At src (printScript items last) s → s.lexer.curtoken = t →
      Ends (compileFrom src untilEnd n tokens) s (fun tokens' _ => ∃ new l, tokens' = tokens ++ new ++ [(0, l)] ∧
        new.map given = tokensOf src.locale.strtod t items) NoStop
  | items, 0, _, _, _, _, _, hn, _, _, _ => absurd hn (Nat.not_lt_zero _)
  | [], n + 1, tokens, t, s, _, ht, _, hmore, hat, hcur => by
    rw [compileFrom, if_pos hmore]
    have hreads : Reads src (last.flatMap Blank.print) t s.lexer.longstr s := ⟨hat, hcur, rfl⟩
    refine (hreads.lex_end last ht).bind fun r s₁ hr => ?_
    show Ends (compileFrom src untilEnd n (tokens ++ [(r, s₁.lexer)])) s₁ _ _
    have hdone : compileFrom src untilEnd n (tokens ++ [(r, s₁.lexer)]) s₁ = .ok (tokens ++ [(r, s₁.lexer)], s₁) := by
      cases n with
      | zero => rfl
      | succ n =>
        rw [compileFrom, if_neg]
        · rfl
        · rw [untilEnd, List.getLast?_concat, hr]
          simp
    exact Ends.of_ok hdone ⟨[], s₁.lexer, by rw [hr, List.append_nil], rfl⟩
  | item :: items, n + 1, tokens, t, s, hspaced, ht, hn, hmore, hat, hcur => by
    obtain ⟨hstop, hspaced'⟩ := hspaced.stops
    rw [printScript, List.append_assoc] at ht hat
    rw [compileFrom, if_pos hmore]
    have hreads : Reads src (item.1.flatMap Blank.print ++ (item.2.print ++ printScript items last))
      t s.lexer.longstr s :=
      ⟨hat, hcur, rfl⟩
    refine (hreads.lex_lexeme hlocale item.1 item.2 hstop ht).bind fun r s₁ hr => ?_
    show Ends (compileFrom src untilEnd n (tokens ++ [(r, s₁.lexer)])) s₁ _ _
    have hmore' : untilEnd (tokens ++ [(r, s₁.lexer)]) = true := by
      rw [untilEnd, List.getLast?_concat, hr.is_token]
      simpa using item.2.token_ne
    simp only [List.length_append, List.length_cons] at ht hn
    refine (compileFrom_script hlocale items n _ hspaced' (by omega) (by omega) hmore' hr.at_text hr.cur).mono
      fun tokens' s' hs => ?_
    obtain ⟨new, l, heq, hnew⟩ := hs
    refine ⟨(r, s₁.lexer) :: new, l, by rw [heq]; simp, ?_⟩
    rw [List.map_cons, hnew, given, hr.is_token, hr.prev, hr.value]
    rfl

/-! ### No NUL is written -/

theorem notMem_flatMap {γ : Type} {f : γ → Bytes} (hf : ∀ x, (0 : UInt8) ∉ f x) (xs : List γ) :
    (0 : UInt8) ∉ xs.flatMap f := by
  intro hmem
  obtain ⟨x, -, hx⟩ := List.mem_flatMap.mp hmem
  exact hf x hx

theorem Blank.print_nul (b : Blank) : (0 : UInt8) ∉ b.print := by
  cases b with
  | white c hc =>
    intro hmem
    cases List.mem_singleton.mp hmem
    revert hc
    decide
  | newline => decide
  | line comment hc =>
    intro hmem
    simp only [Blank.print, List.mem_cons, List.mem_append, List.not_mem_nil, or_false] at hmem
    rcases hmem with hmem | hmem | hmem | hmem
    · exact absurd hmem (by decide)
    · exact absurd hmem (by decide)
    · have hnot := List.all_eq_true.mp hc 0 hmem
      revert hnot
      decide
    · exact absurd hmem (by decide)
  | block comment hc hend =>
    intro hmem
    simp only [Blank.print, List.mem_cons, List.mem_append, List.not_mem_nil, or_false] at hmem
    rcases hmem with hmem | hmem | hmem | hmem | hmem
    · exact absurd hmem (by decide)
    · exact absurd hmem (by decide)
    · exact hc hmem
    · exact absurd hmem (by decide)
    · exact absurd hmem (by decide)

theorem Piece.print_nul {ndelim : UInt8} (p : Piece ndelim) : (0 : UInt8) ∉ p.print := by
  cases p with
  | plain c hc => exact fun hmem => hc.1 (List.mem_singleton.mp hmem).symm
  | escape c e hc =>
    intro hmem
    rcases List.mem_cons.mp hmem with hmem | hmem
    · exact absurd hmem (by decide)
    · exact Feed.lookup_ne rfl hc (List.mem_singleton.mp hmem).symm
  | hex digits hx =>
    intro hmem
    rcases List.mem_cons.mp hmem with hmem | hmem
    · exact absurd hmem (by decide)
    rcases List.mem_cons.mp hmem with hmem | hmem
    · exact absurd hmem (by decide)
    · exact Feed.isxdigit_ne (List.all_eq_true.mp hx.1 0 hmem) rfl

theorem Part.print_nul (p : Part) : (0 : UInt8) ∉ p.print := by
  cases p with
  | digit c hc => exact fun hmem => Feed.isdigit_ne hc (List.mem_singleton.mp hmem).symm
  | point => decide
  | exponent e sign c he hs hc =>
    intro hmem
    simp only [Part.print, List.mem_cons, List.mem_append, Option.mem_toList, List.not_mem_nil, or_false] at hmem
    rcases hmem with (hmem | hmem) | hmem
    · exact Feed.isexponent_ne he hmem.symm
    · rw [Option.mem_def.mp hmem] at hs
      revert hs
      decide
    · exact Feed.isdigit_ne hc hmem.symm

theorem chunks_nul {more : List Bytes} (h : ∀ t ∈ more, Verbatim t) : (0 : UInt8) ∉ chunks more := by
  intro hmem
  obtain ⟨chunk, hchunk, hmem⟩ := List.mem_flatMap.mp hmem
  rcases List.mem_cons.mp hmem with hmem | hmem
  · exact absurd hmem (by decide)
  rcases List.mem_cons.mp hmem with hmem | hmem
  · exact absurd hmem (by decide)
  · exact (h chunk hchunk).1 hmem

theorem Lexeme.print_nul (l : Lexeme) : (0 : UInt8) ∉ l.print := by
  intro hmem
  cases l with
  | operator spelling token h =>
    have hall : ∀ o ∈ operators, (0 : UInt8) ∉ o.1 := by decide
    exact hall _ h hmem
  | word c name hc h =>
    rcases List.mem_cons.mp hmem with hmem | hmem
    · exact (wordChar_ascii c (wordStart_char c hc)).2.1 hmem.symm
    · exact (wordChar_ascii 0 (List.all_eq_true.mp h 0 hmem)).2.1 rfl
  | number c parts type hc h =>
    rcases List.mem_cons.mp hmem with hmem | hmem
    · exact Feed.isdigit_ne hc hmem.symm
    · exact notMem_flatMap Part.print_nul parts hmem
  | hexNumber x digits hx h =>
    rcases List.mem_cons.mp hmem with hmem | hmem
    · exact absurd hmem (by decide)
    rcases List.mem_cons.mp hmem with hmem | hmem
    · cases hmem
      exact absurd hx (by decide)
    · exact Feed.isxdigit_ne (List.all_eq_true.mp h.1 0 hmem) rfl
  | char p =>
    simp only [Lexeme.print, List.mem_append, List.mem_singleton] at hmem
    rcases hmem with (hmem | hmem) | hmem
    · exact absurd hmem (by decide)
    · exact p.print_nul hmem
    · exact absurd hmem (by decide)
  | string s _ =>
    simp only [Lexeme.print, List.mem_append, List.mem_singleton] at hmem
    rcases hmem with (hmem | hmem) | hmem
    · exact absurd hmem (by decide)
    · exact notMem_flatMap Piece.print_nul s hmem
    · exact absurd hmem (by decide)
  | verbatim s more hs h =>
    simp only [Lexeme.print, List.mem_cons, List.mem_append, List.not_mem_nil, or_false] at hmem
    rcases hmem with hmem | hmem | (hmem | hmem) | hmem
    · exact absurd hmem (by decide)
    · exact absurd hmem (by decide)
    · exact hs.1 hmem
    · exact chunks_nul h hmem
    · exact absurd hmem (by decide)

theorem printScript_nul (last : List Blank) : ∀ items : List (List Blank × Lexeme), (0 : UInt8) ∉ printScript items last
  | [] => notMem_flatMap Blank.print_nul last
  | item :: items => by
    intro hmem
    rcases List.mem_append.mp hmem with hmem | hmem
    · rcases List.mem_append.mp hmem with hmem | hmem
      · exact notMem_flatMap Blank.print_nul item.1 hmem
      · exact item.2.print_nul hmem
    · exact printScript_nul last items hmem

/-- The compiler is given just the tokens that are written, each with its value, and then
the 0: of the blanks it sees only whether there was the end of a line before a token. -/
theorem compileString_printScript (k : Compilation) (behind : Bytes) {items : List (List Blank × Lexeme)}
    {last : List Blank}
    (hlocale : k.locale.Ascii) (hspaced : Spaced items last) (ht : (printScript items last).length < k.turns)
    (hmore : k.more = untilEnd) (htokens : items.length < k.tokens) :
    ∃ tokens l s, compileString k (printScript items last ++ 0 :: behind) = .ok (tokens ++ [(0, l)], s) ∧
      tokens.map given = tokensOf k.locale.strtod k.lexer.curtoken items := by
  have h0 := printScript_nul last items
  have hgives : Gives (k.source (printScript items last ++ 0 :: behind)) (printScript items last)
    { current := some 0, calls := [] } :=
    StringProgram.gives k h0 _ (Nat.zero_add _) rfl
  obtain ⟨s, hok, hat, hl⟩ := @At.next_gives _ (k.source (printScript items last ++ 0 :: behind))
    (printScript items last)
    { lexer := { k.lexer with lasttokenline := 1, currentline := 1, currentcolumn := 0, prevtoken := -1 },
      reader := { current := some 0, calls := [] } } h0 hgives
  have hinit : init (k.source (printScript items last ++ 0 :: behind))
      { lexer := k.lexer, reader := { current := some 0, calls := [] } } = .ok ((), s) := hok
  have hcur : s.lexer.curtoken = k.lexer.curtoken := by rw [hl]
  have hends := @compileFrom_script _ (k.source (printScript items last ++ 0 :: behind)) hlocale last items k.tokens
    [] _ s hspaced ht
    htokens rfl hat hcur
  have hcompile : compileString k (printScript items last ++ 0 :: behind) =
      compileFrom (k.source (printScript items last ++ 0 :: behind)) untilEnd k.tokens [] s := by
    rw [← hmore]
    exact bind_ok hinit
  rw [hcompile]
  cases hr : compileFrom (k.source (printScript items last ++ 0 :: behind)) untilEnd k.tokens [] s with
  | ok r =>
    obtain ⟨new, l, heq, hnew⟩ := hends.ok hr
    rw [List.nil_append] at heq
    exact ⟨new, l, r.2, by rw [← heq], hnew⟩
  | error e => exact (hends.error hr).elim

/-- A script of all kinds of tokens. -/
def sample : List (List Blank × Lexeme) :=
  [([.block (cstr "*") (by decide) (by decide)], .word 'x'.toUInt8 [] (by decide) (by decide)),
    ([.white 32 (by decide)], .operator (cstr "<-") Token.newslot (by decide)),
    ([.white 9 (by decide)],
      .string [.plain 'a'.toUInt8 (by decide), .escape 'n'.toUInt8 10 (by decide), .hex (cstr "0041") (by decide),
      .hex (cstr "42") (by decide), .plain '!'.toUInt8 (by decide)] (by decide)),
    ([.white 32 (by decide)], .operator (cstr "+") '+'.toNat (by decide)),
    ([.newline, .line (cstr "#") (by decide)], .hexNumber 'x'.toUInt8 (cstr "fFfFfFfF") (by decide) (by decide)),
    ([.white 32 (by decide)], .verbatim (cstr "\\") [[]] (by decide) (by simp [Verbatim]))]

theorem compileString_printScript_sample :
    let k : Compilation := { openComment with turns := 60, more := untilEnd, tokens := 9 }
    ∃ tokens l s, compileString k (cstr "/***/x <-\t\"a\\n\\x0041\\x42!\" +\n//#\n0xfFfFfFfF @\"\\\"\"\"" ++ 0 :: []) =
      .ok (tokens ++ [(0, l)], s) ∧
      tokens.map given =
        [(0, Token.identifier, .string (cstr "x")), (Token.identifier, Token.newslot, .null),
          (Token.newslot, Token.stringLiteral, .string (cstr "a\nAB!")), (Token.stringLiteral, '+'.toNat, .null),
          ('\n'.toNat, Token.integer, .integer (-1)), (Token.integer, Token.stringLiteral, .string (cstr "\\\""))] := by
  intro k
  have hprint : printScript sample [] = cstr "/***/x <-\t\"a\\n\\x0041\\x42!\" +\n//#\n0xfFfFfFfF @\"\\\"\"\"" :=
    by decide +kernel
  have hspaced : Spaced sample [] := ⟨rfl, rfl, rfl, rfl, rfl, rfl⟩
  have hscript := @compileString_printScript k [] sample [] (fun c _ => ⟨rfl, rfl⟩) hspaced
    (by rw [hprint]; decide +kernel) rfl
    (by decide)
  rw [hprint] at hscript
  have htokens : tokensOf k.locale.strtod k.lexer.curtoken sample =
      [(0, Token.identifier, .string (cstr "x")), (Token.identifier, Token.newslot, .null),
        (Token.newslot, Token.stringLiteral, .string (cstr "a\nAB!")), (Token.stringLiteral, '+'.toNat, .null),
        ('\n'.toNat, Token.integer, .integer (-1)), (Token.integer, Token.stringLiteral, .string (cstr "\\\""))] := by
    decide +kernel
  rw [htokens] at hscript
  exact hscript

end MultiScript.Squirrel
