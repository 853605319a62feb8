/-
The formats that the backends and their VMs give to `vsprintf`: text, with directives for
strings and numbers.
-/
import MultiScript.Interface
import MultiScript.Lib.Printf

namespace MultiScript

open Printf

/-- An argument of a format. A string may be `NULL`. A float is known by what `%.14g` makes
of it. -/
inductive PrintArg
  | string (s : Option Bytes)
  | int (n : Int)
  | float (shown : Bytes)
deriving DecidableEq, Repr

/-- The letters `s`, `d` and `g`. -/
def letterS : UInt8 := 115
def letterD : UInt8 := 100
def letterG : UInt8 := 103

/-- The modifiers of `%.14g`. -/
def fourteenDigits : List UInt8 := [46, 49, 52]

def decimal (n : Int) : Bytes := cstr (toString n)

/-- `%s`, `%d` and `%.14g`, which is what the backends and their VMs use. -/
def convert : Convert PrintArg
  | [], letter, .string (some s) => if letter = letterS then some s else none
  | [], letter, .int n => if letter = letterD then some (decimal n) else none
  | mods, letter, .float shown => if mods = fourteenDigits ∧ letter = letterG then some shown else none
  | _, _, _ => none

namespace PrintArg

/-- A literal, a string, a number and a float of a format. -/
def lit (s : String) : Piece PrintArg := .text (cstr s)
def str (s : Bytes) : Piece PrintArg := .arg [] letterS (.string (some s))
def num (n : Int) : Piece PrintArg := .arg [] letterD (.int n)
def flt (shown : Bytes) : Piece PrintArg := .arg fourteenDigits letterG (.float shown)

theorem str_plain (s : Bytes) : (str s).Plain := ⟨by decide, fun _ h => by cases h⟩

theorem num_plain (n : Int) : (num n).Plain := ⟨by decide, fun _ h => by cases h⟩

theorem flt_plain (shown : Bytes) : (flt shown).Plain := by
  refine ⟨by decide, fun m hm => ?_⟩
  simp only [fourteenDigits, List.mem_cons, List.not_mem_nil, or_false] at hm
  obtain rfl | rfl | rfl := hm <;> decide

theorem lit_plain {s : String} (h : 0 ∉ cstr s ∧ percent ∉ cstr s) : (lit s).Plain := h

end PrintArg

end MultiScript
