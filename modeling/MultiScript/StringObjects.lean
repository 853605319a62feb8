/-
The strings of the three VMs that intern them: `lstring.c` and `lvm.c`, `sqstate.cpp` and
`sqvm.cpp`, `gmMachine.cpp` and `gmOperators.cpp`. A pointer is the memory from where it
points on; what lies behind the bytes a function means is any memory (`behind`).

Lua and Squirrel look a string up by its length and all its bytes, and end their own copy
with a NUL. GameMonkey looks it up by what `strcmp` sees, and copies one byte more than it
is told.
-/
import MultiScript.Interface
import MultiScript.Lib.Intern

namespace MultiScript

open Intern

/-! ## Memory -/

/-- The C string at a pointer: the bytes before the first NUL. -/
def cString (mem : Bytes) : Bytes := mem.takeWhile (· ≠ 0)

def strlen (mem : Bytes) : Nat := (cString mem).length

variable {s t u behind : Bytes}

theorem ne_zero_of_notMem (h : (0 : UInt8) ∉ s) : ∀ b ∈ s, decide (b ≠ 0) = true := by
  intro b hb
  exact decide_eq_true fun h0 => h (h0 ▸ hb)

theorem cString_terminated (h : (0 : UInt8) ∉ s) : cString (s ++ 0 :: behind) = s := by
  rw [cString, List.takeWhile_append_of_pos (ne_zero_of_notMem h),
    List.takeWhile_cons_of_neg (by decide), List.append_nil]

theorem cString_self (h : (0 : UInt8) ∉ s) : cString s = s := by
  have happend := @List.takeWhile_append_of_pos _ (· ≠ 0) s [] (ne_zero_of_notMem h)
  rwa [List.append_nil, List.takeWhile_nil, List.append_nil] at happend

theorem strlen_terminated (h : (0 : UInt8) ∉ s) : strlen (s ++ 0 :: behind) = s.length := by
  rw [strlen, cString_terminated h]

/-! ## String objects -/

/-- A string of a VM: the memory at its characters, and its length. -/
structure StringObject where
  chars : Bytes
  length : Nat
deriving DecidableEq, Repr

/-- The script sees `text`: the length is its length, and the characters are its bytes
with a NUL after them. -/
def StringObject.Shows (o : StringObject) (text : Bytes) : Prop :=
  o.length = text.length ∧ o.chars.take (text.length + 1) = text ++ [0]

instance (o : StringObject) (text : Bytes) : Decidable (o.Shows text) := inferInstanceAs (Decidable (_ ∧ _))

namespace StringObject

variable {o : StringObject}

/-- The memory of an object that shows a text. -/
theorem Shows.chars (h : o.Shows t) : ∃ behind, o.chars = t ++ 0 :: behind := by
  refine ⟨o.chars.drop (t.length + 1), ?_⟩
  rw [← List.singleton_append, ← List.append_assoc, ← h.2, List.take_append_drop]

theorem Shows.take (h : o.Shows t) : o.chars.take o.length = t := by
  obtain ⟨behind, hc⟩ := h.chars
  rw [h.1, hc, List.take_left]

theorem Shows.take_succ (h : o.Shows t) : o.chars.take (o.length + 1) = t ++ [0] := by
  rw [h.1, h.2]

theorem shows_terminated : ({ chars := t ++ 0 :: behind, length := t.length } : StringObject).Shows t := by
  refine ⟨rfl, ?_⟩
  rw [← List.singleton_append, ← List.append_assoc]
  exact List.take_left' (by simp)

/-- What `strcmp` sees of an object that shows a text. -/
theorem Shows.cString (h : o.Shows t) (ht : (0 : UInt8) ∉ t) : MultiScript.cString o.chars = t := by
  obtain ⟨behind, hc⟩ := h.chars
  rw [hc, cString_terminated ht]

end StringObject

/-! ## Lua and Squirrel -/

/-- A string whose length is counted and whose copy has been ended with a NUL. -/
structure CountedString extends StringObject where
  shows : toStringObject.Shows (chars.take length)

/-- A copy of bytes. -/
def CountedString.ofBytes (bytes : Bytes) : CountedString where
  chars := bytes ++ [0]
  length := bytes.length
  shows := by
    rw [List.take_left]
    exact StringObject.shows_terminated

/-- The loop that `luaS_newlstr` and `StringTable::Add` share: the same length, and
`memcmp` over all of it. -/
def internCounted (pool : List CountedString) (str : Bytes) (l : Nat) : CountedString × List CountedString :=
  intern (fun ts => ts.length == l && str.take l == ts.chars.take l) (.ofBytes (str.take l)) List.cons pool

theorem internCounted_shows {pool : List CountedString} {str : Bytes} {l : Nat} :
    (internCounted pool str l).1.Shows (str.take l) := by
  refine intern_all (P := fun o : CountedString => o.Shows (str.take l)) ?_ ?_
  · intro o h
    obtain ⟨hl, hb⟩ := (Bool.and_eq_true ..).mp h
    have hshows := o.shows
    rw [beq_iff_eq.mp hl, ← beq_iff_eq.mp hb] at hshows
    exact hshows
  · exact StringObject.shows_terminated

namespace Lua

def luaSNewlstr (strt : List CountedString) (str : Bytes) (l : Nat) : CountedString × List CountedString :=
  internCounted strt str l

/-- `lua_pushstring`. -/
def newstr (strt : List CountedString) (s : Bytes) : CountedString × List CountedString := luaSNewlstr strt s (strlen s)

/-- `LuaScriptStack::PushString`, down to the string that is made. -/
def stringOfPush (strt : List CountedString) (string : Bytes) (length : Int) : CountedString × List CountedString :=
  if length = -1 then newstr strt string else luaSNewlstr strt string length.toNat

theorem stringOfPush_default (strt : List CountedString) (string : Bytes) :
    stringOfPush strt string (-1) = internCounted strt string (strlen string) := by
  simp only [stringOfPush, newstr, luaSNewlstr, if_true]

theorem stringOfPush_nat (strt : List CountedString) (string : Bytes) (n : Nat) :
    stringOfPush strt string n = internCounted strt string n := by
  have hn : ¬ (n : Int) = -1 := by omega
  simp only [stringOfPush, luaSNewlstr, if_neg hn, Int.toNat_natCast]

/-- `luaV_concat` of two strings. -/
def luaVConcat (strt : List CountedString) (a b : CountedString) : CountedString × List CountedString :=
  if b.length = 0 then (a, strt)
  else luaSNewlstr strt (a.chars.take a.length ++ b.chars.take b.length) (a.length + b.length)

end Lua

namespace Squirrel

/-- `StringTable::Add`. -/
def stringTableAdd (strings : List CountedString) (news : Bytes) (len : Int) : CountedString × List CountedString :=
  internCounted strings news (if len < 0 then strlen news else len.toNat)

theorem stringTableAdd_default (strings : List CountedString) (news : Bytes) :
    stringTableAdd strings news (-1) = internCounted strings news (strlen news) := by
  have hn : (-1 : Int) < 0 := by omega
  simp only [stringTableAdd, if_pos hn]

theorem stringTableAdd_nat (strings : List CountedString) (news : Bytes) (n : Nat) :
    stringTableAdd strings news n = internCounted strings news n := by
  have hn : ¬ (n : Int) < 0 := by omega
  simp only [stringTableAdd, if_neg hn, Int.toNat_natCast]

/-- `SQVM::StringCat`. -/
def stringCat (strings : List CountedString) (a b : CountedString) : CountedString × List CountedString :=
  stringTableAdd strings (a.chars.take a.length ++ b.chars.take b.length) ((a.length + b.length : Nat) : Int)

end Squirrel

/-! ## GameMonkey -/

namespace GameMonkey

/-- `m_strings.Find`: the nodes of a slot are sorted by `strcmp`, and the first that
compares equal is the one. -/
def find (strings : List StringObject) (key : Bytes) : Option StringObject :=
  strings.find? (cString ·.chars == cString key)

/-- `m_strings.Insert` leaves out a node whose key is there already. -/
def insert (node : StringObject) (strings : List StringObject) : List StringObject :=
  match find strings node.chars with
  | some _ => strings
  | none => node :: strings

/-- The object made for a string that is not found. `memcpy` takes one byte more than the
length, whatever it is; what follows the block is not its own. -/
def newStringObject (heap : Bytes) (string : Bytes) (length : Int) : StringObject :=
  let length := if length < 0 then strlen string else length.toNat
  { chars := string.take (length + 1) ++ heap, length }

/-- `gmMachine::AllocStringObject`. -/
def allocStringObject (heap : Bytes) (strings : List StringObject) (string : Bytes) (length : Int) :
    StringObject × List StringObject :=
  intern (cString ·.chars == cString string) (newStringObject heap string length) insert strings

/-- `gmStringOpAdd` of two strings, over a buffer on the C stack. -/
def gmStringOpAdd (heap stack : Bytes) (strings : List StringObject) (a b : StringObject) :
    StringObject × List StringObject :=
  let buffer := a.chars.take a.length ++ b.chars.take (b.length + 1)
  allocStringObject heap strings (buffer ++ stack) ((a.length + b.length : Nat) : Int)

end GameMonkey

end MultiScript
