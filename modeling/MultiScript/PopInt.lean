/-
What `PopInt(value)` takes, and what it leaves where it takes nothing. It is to
take the next value that is counted if that is a number of the language, and
otherwise to change nothing, the out-parameter included.

Lua and Squirrel look at the top of the VM stack, whatever lies there, and
convert it; GameMonkey writes a default into the out-parameter before it says no;
OCaml reads any word as an integer.
-/
import MultiScript.Lua.Protocol
import MultiScript.Squirrel.Protocol
import MultiScript.CallbackArguments

namespace MultiScript

open Act

/-! ## The next value -/

section Next

variable {V : Type}

/-- The next value, where `count` is what `GetNumParams()` answers. -/
def nextOf (count : Int) (left : List V) : Option V := if 0 < count then left.head? else none

/-- A value may be taken from the top or from under `ps` where all of these are the
same. -/
theorem rotate_eq_iff {v : V} {l : List V} : ∀ {ps : List V} {p : V},
    ps ++ v :: l = p :: ps ++ l ↔ ∀ q ∈ p :: ps, v = q
  | [], p => by simp
  | q :: ps, p => by
    have ih := @rotate_eq_iff v l ps q
    constructor
    · intro h
      injection h with hq hrest
      subst hq
      have hall := ih.mp hrest
      intro x hx
      rcases List.mem_cons.mp hx with rfl | hx
      · exact hall _ List.mem_cons_self
      · exact hall x hx
    · intro h
      have hp : v = p := h p List.mem_cons_self
      have hq : v = q := h q (List.mem_cons_of_mem _ List.mem_cons_self)
      have hrest := ih.mpr fun x hx => h x (List.mem_cons_of_mem _ hx)
      rw [List.cons_append, hrest, ← hp, ← hq]
      rfl

end Next

/-! ## Lua -/

namespace Lua

/-- What `PopInt` converts: strings too. -/
def convert (vm : LuaVm) (v : LuaValue) : Option Int := (vm.tonumber v).map luaNumber2integer

variable {vm : LuaVm} {c : LuaScriptContext} {st : LuaScriptStack} {value : Int} {pushed left : List LuaValue}

end Lua

/-! ## Squirrel -/

namespace Squirrel

variable {c : SquirrelScriptContext} {st : SquirrelScriptStack} {value : Int} {pushed left below : List SqValue}

end Squirrel

/-! ## GameMonkey -/

namespace GameMonkey

variable {c : GMScriptContext} {st : GMScriptStack} {value : Int} {left gone : List GmValue}

/-- The parameters `left` of a callback are not popped yet, the next one first. -/
structure Entered (st : GMScriptStack) (c : GMScriptContext) (left gone : List GmValue) : Prop where
  params : c.thread.params = left.reverse ++ gone
  numParams : st.numParams = c.thread.params.length
  numPopped : st.numPopped = gone.length
  call : st.call = none

/-- The result of a call, if there is one that is not popped yet. -/
inductive Returned (st : GMScriptStack) (call : GmCall) : List GmValue → Prop
  | result {v : GmValue} : st.call = some call → call.returnVar = some v → st.numParams = 1 → st.numPopped = 0 →
      Returned st call [v]
  | nothing : st.call = some call → st.numPopped = st.numParams → Returned st call []

theorem Entered.length {v : GmValue} (h : Entered st c (v :: left) gone) :
    c.thread.params.length = left.length + 1 + gone.length := by
  simp only [h.params, List.length_append, List.length_reverse, List.length_cons]

theorem popInt_end (hp : st.numPopped = st.numParams) : st.popInt value c = .ok (((false, value), st), c) := by
  simp only [GMScriptStack.popInt, if_pos hp]

end GameMonkey

/-! ## OCaml -/

namespace Ocaml

/-- A value of an OCaml script by its type: an integer, another immediate value, a
float, which is a block, or any other block. -/
inductive OcamlValue
  | int (n : Int) (h : IsInt31 n)
  | immediate (w : Word)
  | float (x : FloatValue) (p : Word)
  | block (w : Word)
deriving DecidableEq, Repr

def OcamlValue.word : OcamlValue → Word
  | .int n _ => valInt n
  | .immediate w => w
  | .float _ p => p
  | .block w => w

variable {st : OcamlScriptStack} {value : Int} {left : List OcamlValue} {gone : List Word}

/-- The parameters `left` of a callback are not popped yet, the next one first. -/
structure Entered (st : OcamlScriptStack) (gone : List Word) (left : List OcamlValue) : Prop where
  closure : st.closure = none
  values : st.values = gone ++ left.map OcamlValue.word
  numParams : st.numParams = left.length

/-- The result of a call, where it is not popped yet. -/
inductive Returned (st : OcamlScriptStack) : List OcamlValue → Prop
  | result {v : OcamlValue} : st.isCall = true → st.result = v.word → st.numParams = 1 → Returned st [v]
  | nothing : st.numParams = 0 → Returned st []

end Ocaml

/-! ## The four backends -/

end MultiScript
