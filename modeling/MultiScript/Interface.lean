/-
The language independent interface (`ScriptInterface.h`): descriptors of
functions and classes, and what every backend shares. A C string is the list
of its bytes, the terminator left out.

A host call either returns or does not: `MultiScriptAssert` prints its
condition and loops forever, and a wild pointer or a pop below the bottom of a
VM stack ends what C++ promises. All of these are a `Fault`.
-/
import MultiScript.Lib.Run
import Mathlib.Algebra.Group.Int.Defs
import Mathlib.Algebra.Group.Nat.Defs

namespace MultiScript

abbrev Bytes := List UInt8

instance : LawfulBEq Bytes := inferInstance

/-- The bytes of a string literal of the source. -/
def cstr (s : String) : Bytes := s.toUTF8.data.toList

/-- How a host call fails to return. -/
inductive Fault
  /-- `MultiScriptAssert`: the condition's text, then `while (true) {}`. -/
  | assertion (condition : String)
  | nullDeref
  /-- A pointer read through that points to no object of the expected type. -/
  | wildDeref
  /-- A pointer read through that was never set. -/
  | uninitialised
  /-- A VM stack popped below its bottom. -/
  | stackUnderflow
  /-- A script error raised by an API call: it unwinds the C++ frames up to the
  protected call they run in, and ends the process where there is none. -/
  | scriptError
  /-- `exit`, called by a VM's runtime. -/
  | exit
  /-- More is written into a buffer than it holds; where the C runtime checks the size, its
  handler ends the process. -/
  | bufferOverrun
deriving DecidableEq, Repr

def multiScriptAssert (cond : Bool) (text : String) : Except Fault Unit :=
  if cond then .ok () else .error (.assertion text)

@[simp] theorem multiScriptAssert_true (text : String) : multiScriptAssert true text = .ok () := rfl

@[simp] theorem multiScriptAssert_false (text : String) :
    multiScriptAssert false text = .error (.assertion text) := rfl

/-- The bytes `PushString(string, length)` hands to the VM: the whole string
for the default `length = -1`, its first `length` bytes otherwise. -/
def pushedBytes (string : Bytes) (length : Int) : Bytes :=
  if length = -1 then string else string.take length.toNat

/-- One call of `ScriptLogger::Output(text, ...)`: the format and its `%s`
arguments, of which a `NULL` is `none`. -/
structure LogCall where
  text : Bytes
  args : List (Option Bytes) := []
deriving DecidableEq, Repr

/-- What scripts reach outside of their VM: the seed of `rand` and the locale, which the C
library keeps for the whole process, and the files. -/
structure CLibrary where
  seed : Nat
  locale : Bytes
  files : Bytes → Option Bytes

/-- The C library as a program finds it. -/
def CLibrary.initial : CLibrary := { seed := 1, locale := cstr "C", files := fun _ => none }

/-! ## Numbers -/

/-- The values a 32-bit `int` holds. -/
def IsInt32 (n : Int) : Prop := -2 ^ 31 ≤ n ∧ n < 2 ^ 31

instance (n : Int) : Decidable (IsInt32 n) := inferInstanceAs (Decidable (_ ∧ _))

/-- A floating point number: `mant / 2 ^ scale`, an infinity or a NaN. -/
inductive FloatValue
  | dyadic (mant : Int) (scale : Nat)
  | infinity (negative : Bool)
  | nan
deriving DecidableEq, Repr

def FloatValue.ofInt (n : Int) : FloatValue := .dyadic n 0

/-- The nearest integer, ties to even. -/
def roundHalfEven (mant : Int) (scale : Nat) : Int :=
  let q := mant / 2 ^ scale
  let r := mant % 2 ^ scale
  if 2 * r < 2 ^ scale then q
  else if 2 ^ scale < 2 * r then q + 1
  else if q % 2 = 0 then q else q + 1

@[simp] theorem roundHalfEven_zero (n : Int) : roundHalfEven n 0 = n := by simp [roundHalfEven]

/-! ## Descriptors -/

/-- The address of a C++ function. -/
abbrev CodePtr := Nat

/-- `FunctionDesc`, with its own address: a backend keeps pointers to it. -/
structure FunctionDesc where
  addr : Nat
  name : Bytes
  function : CodePtr
  numParams : Int
deriving DecidableEq, Repr

structure ClassMethodDesc where
  name : Bytes
  method : CodePtr
deriving DecidableEq, Repr

/-- `ClassDesc`, with its own address, which is what `FindClassInfo` compares.
A `NULL` callback is `none`. The super class is read by no backend. -/
structure ClassDesc where
  addr : Nat
  garbageCollect : Bool := true
  name : Bytes
  constructor : Option CodePtr
  destructor : Option CodePtr
  toStringMethod : Option CodePtr := none
  methods : List ClassMethodDesc := []
deriving DecidableEq, Repr

/-- What a VM's user pointer of these backends points to. An info structure is
never changed once built, so a pointer to one is the structure itself. -/
inductive HostPtr
  | functionInfo (desc : FunctionDesc)
  | classInfo (desc : ClassDesc)
  | methodInfo (desc : ClassDesc) (methodIndex : Nat)
  | other (p : Nat)
deriving DecidableEq, Repr

/-! ## What a host does -/

/-- A push of the interface on a `ScriptStack`. -/
inductive Push
  | int (value : Int)
  | string (string : Bytes) (length : Int)
deriving DecidableEq, Repr

/-- A pop of the interface from a `ScriptStack`. -/
inductive Pop
  | int
  | scriptObject
deriving DecidableEq, Repr

/-- What a pop answers: the integer or `false`, the object or `NULL`. -/
inductive Answer
  | int (value : Option Int)
  | object (p : Option Nat)
deriving DecidableEq, Repr

/-- `PopInt`'s two results as one, for a caller that reads the out-parameter only
on success. -/
def Answer.ofPopInt : Bool × Int → Answer
  | (true, value) => .int (some value)
  | (false, _) => .int none

/-- What a pop does with the value it reads. -/
inductive PopFit
  | takes (a : Answer)
  | leaves (a : Answer)
  | faults
deriving DecidableEq, Repr

/-- One use of the call protocol: `BeginCall(name)`, the pushes on the handle,
`EndCall` or not, the pops made where it succeeds, and `ReleaseAfterCall`. -/
structure Call where
  name : Bytes
  pushes : List Push := []
  ends : Bool := true
  pops : List Pop := []
deriving DecidableEq, Repr

/-- What a host does with a context at base level. -/
inductive ContextOp
  | executeString (string : Bytes)
  | call (k : Call)
  | registerFunction (desc : FunctionDesc)
  | registerUserClass (desc : ClassDesc)
deriving DecidableEq, Repr

end MultiScript
