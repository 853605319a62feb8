/-
The Squirrel 2 API as the backend uses it (`sqapi.cpp`): values, the heap and
the VM stack. The stack is one list, top first, with `stackbase` slots under the
running frame. Nothing keeps a pop of the host inside its own frame.

As for Lua, what a script does when it runs is a parameter (`SqVm`), and it
leaves the stack its caller sees as it was, unless it suspends the VM (`Suspends`).
-/
import MultiScript.Interface
import MultiScript.Lib.Act

namespace MultiScript.Squirrel

/-! ## Values -/

/-- `tointeger`: a float is cut towards zero; out of range the conversion
answers the "integer indefinite". -/
def floatToInteger : FloatValue → Int
  | .dyadic mant scale =>
    let n := mant.tdiv (2 ^ scale)
    if IsInt32 n then n else -2 ^ 31
  | .infinity _ => -2 ^ 31
  | .nan => -2 ^ 31

inductive SqValue
  | null
  | integer (n : Int)
  | float (x : FloatValue)
  | bool (b : Bool)
  | string (s : Bytes)
  | table (ref : Nat)
  | array (ref : Nat)
  | closure (ref : Nat)
  | nativeclosure (ref : Nat)
  | userpointer (p : HostPtr)
  | userdata (ref : Nat)
  | generator (ref : Nat)
  | thread (ref : Nat)
  | sqclass (ref : Nat)
  | sqinstance (ref : Nat)
  | weakref (ref : Nat)
deriving DecidableEq, Repr

/-- The C functions the backend hands to Squirrel. -/
inductive SqFunction
  | classConstructorCallback
  | classDestructorCallback
  | classToStringMethodCallback
  | classMethodCallback
  | functionCallback
deriving DecidableEq, Repr

/-- A native closure: one of the backend's functions with its outer values in
the order `sq_newclosure` took them off the stack, or a library function. -/
inductive SqNative
  | backend (f : SqFunction) (outervalues : List SqValue)
  | other (code : Nat)
deriving DecidableEq, Repr

structure SqInstance where
  userpointer : Option Nat
  sqclass : Nat
  hook : Bool

/-- A class. Its members are in the slots of the heap, under its reference; the
closures with the name of a metamethod are kept apart. -/
structure SqClass where
  base : Option Nat
  metamethods : SqValue → Option SqValue
  locked : Bool

/-- `delegates` has the delegate of a table, the delegate of that one, and so on:
`SetDelegate` refuses a cycle. `weakref` has what weak references refer to, and
`tableDelegate` the native closures every table has, by their names. -/
structure SqHeap where
  next : Nat
  slot : Nat → SqValue → Option SqValue
  native : Nat → SqNative
  classes : Nat → SqClass
  instances : Nat → SqInstance
  roottable : Nat
  delegates : Nat → List Nat
  delegates_tail : ∀ r d ds, delegates r = d :: ds → delegates d = ds
  weakref : Nat → SqValue
  tableDelegate : Bytes → Nat

/-- The names `SQSharedState` gives the metamethods. -/
def metamethodNames : List Bytes :=
  ["_add", "_sub", "_mul", "_div", "_unm", "_modulo", "_set", "_get", "_typeof", "_nexti", "_cmp", "_call", "_cloned",
    "_newslot", "_delslot", "_tostring", "_newmember", "_inherited"].map cstr

def SqHeap.setSlot (h : SqHeap) (r : Nat) (k v : SqValue) : SqHeap :=
  { h with slot := fun r' k' => if r' = r ∧ k' = k then some v else h.slot r' k' }

def SqValue.isFunction : SqValue → Bool
  | .closure _ => true
  | .nativeclosure _ => true
  | _ => false

/-- `sq_getinteger`, by the value: integers and floats have one. -/
def SqValue.getInteger : SqValue → Option Int
  | .integer n => some n
  | .float x => some (floatToInteger x)
  | _ => none

/-- `SQClass::NewSlot`: refused by a class that has an instance. -/
def SqHeap.newMember (h : SqHeap) (r : Nat) (k v : SqValue) : SqHeap :=
  if (h.classes r).locked then h
  else if v.isFunction = true ∧ k ∈ metamethodNames.map SqValue.string then
    { h with classes := fun r' =>
        if r' = r then
          { h.classes r with metamethods := fun k' => if k' = k then some v else (h.classes r).metamethods k' }
        else h.classes r' }
  else h.setSlot r k v

theorem SqValue.getInteger_function {f : SqValue} (hf : f.isFunction = true) : f.getInteger = none := by
  cases f <;> first | rfl | cases hf

/-! ## The context and the stack -/

/-- All of a context but the VM stack, and what scripts find outside of the VM. -/
structure SqWorld where
  heap : SqHeap
  functions : List FunctionDesc
  classes : List ClassDesc
  logger : Option Nat
  logged : List LogCall
  clib : CLibrary := .initial

/-- `SquirrelScriptContext` with its VM. -/
structure SquirrelScriptContext where
  stack : List SqValue
  stackbase : Nat
  world : SqWorld

/-- The vendored VM outside the calls below. `compile` and `call` answer `none`
for an error; both may run, or print, anything. `get` is `SQVM::Get`, which
`SqVm.delegating` has for tables. -/
structure SqVm where
  compile : Bytes → SqWorld → Option SqValue × SqWorld
  call : SqValue → List SqValue → SqWorld → Option SqValue × SqWorld
  get : SqValue → SqValue → SqWorld → Option SqValue × SqWorld

abbrev SqM := StateT SquirrelScriptContext (Except Fault)

/-- `stack_get`: from the frame's base for an index from 1 on, from the top for
a negative one. -/
def SquirrelScriptContext.at (c : SquirrelScriptContext) (idx : Int) : SqValue :=
  if 0 ≤ idx then c.stack.reverse.getD (idx.toNat + c.stackbase - 1) .null
  else c.stack.getD (-idx - 1).toNat .null

/-- What is on the stack from the first argument on, top first, when a call has suspended the
VM, and how far above that argument the base of the frame is that was running. -/
structure Suspension where
  slots : List SqValue
  base : Nat

/-- The calls that end in a suspension. -/
abbrev Suspends := SqValue → List SqValue → SqWorld → Option Suspension

/-- No script suspends the VM. -/
def never : Suspends := fun _ _ _ => none

variable (vm : SqVm)

def sqGettop : SqM Int := fun c => .ok (c.stack.length - c.stackbase, c)

def sqPush (v : SqValue) : SqM Unit := fun c => .ok ((), { c with stack := v :: c.stack })

def sqPushroottable : SqM Unit := fun c => sqPush (.table c.world.heap.roottable) c

def sqPushstring (s : Bytes) : SqM Unit := sqPush (.string s)

def sqPushinteger (n : Int) : SqM Unit := sqPush (.integer n)

def sqPushuserpointer (p : HostPtr) : SqM Unit := sqPush (.userpointer p)

/-- `sq_pop`, whose assertion looks at the whole stack and not at the frame. -/
def sqPop (n : Nat) : SqM Unit := fun c =>
  if n ≤ c.stack.length then .ok ((), { c with stack := c.stack.drop n })
  else .error .stackUnderflow

def SquirrelScriptContext.setHeap (c : SquirrelScriptContext) (heap : SqHeap) : SquirrelScriptContext :=
  { c with world := { c.world with heap } }

/-- A new closure of the backend, with the top `n` values as its outer values. -/
def sqNewclosure (f : SqFunction) (n : Nat) : SqM Unit := fun c =>
  let h := c.world.heap
  let nc := SqNative.backend f (c.stack.take n)
  let c := { c with stack := .nativeclosure h.next :: c.stack.drop n }
  .ok ((), c.setHeap { h with
    next := h.next + 1
    native := fun r => if r = h.next then nc else h.native r })

/-- `sq_createslot`: the key and the value under the top go into the table or
class at `idx`; into anything else they do not go, and stay. -/
def sqCreateslot (idx : Int) : SqM Bool := fun c =>
  let set := fun heap =>
    if c.at (-2) = .null then .ok (false, c) else .ok (true, { c with stack := c.stack.drop 2 }.setHeap heap)
  match c.at idx with
  | .table r => set (c.world.heap.setSlot r (c.at (-2)) (c.at (-1)))
  | .sqclass r => set (c.world.heap.newMember r (c.at (-2)) (c.at (-1)))
  | _ => .ok (true, c)

/-- `sq_newclass(v, SQFalse)`. -/
def sqNewclass : SqM Unit := fun c =>
  let h := c.world.heap
  let c := { c with stack := .sqclass h.next :: c.stack }
  .ok ((), c.setHeap { h with
    next := h.next + 1
    slot := fun r k => if r = h.next then none else h.slot r k
    classes := fun r => if r = h.next then { base := none, metamethods := fun _ => none, locked := false }
      else h.classes r })

/-- `sq_get`: the key on top makes place for the value found in the object at
`idx`, or goes. -/
def sqGet (idx : Int) : SqM Bool := fun c =>
  match vm.get (c.at idx) (c.at (-1)) c.world with
  | (some v, world) => .ok (true, { c with world, stack := v :: c.stack.drop 1 })
  | (none, world) => .ok (false, { c with world, stack := c.stack.drop 1 })

/-- `sq_compile`: the compiled closure on top, or nothing. -/
def sqCompile (string : Bytes) : SqM Bool := fun c =>
  match vm.compile string c.world with
  | (some v, world) => .ok (true, { c with world, stack := v :: c.stack })
  | (none, world) => .ok (false, { c with world })

/-- `sq_call(v, params, retval, SQTrue)`: the arguments go, the closure stays,
and the result of a call that succeeds is pushed if asked for. A call that suspends the VM
succeeds too: its frames stay, and what goes are slots of theirs. -/
def sqCallIn (suspends : Suspends) (params : Nat) (retval : Bool) : SqM Bool := fun c =>
  match c.stack.drop params with
  | [] => .error .stackUnderflow
  | f :: rest =>
    match vm.call f (c.stack.take params).reverse c.world with
    | (some v, world) =>
      match suspends f (c.stack.take params).reverse c.world with
      | none => .ok (true, { c with world, stack := if retval then v :: f :: rest else f :: rest })
      | some s =>
        let left := (s.slots ++ f :: rest).drop params
        .ok (true, { world, stack := if retval then v :: left else left, stackbase := rest.length + 1 + s.base })
    | (none, world) => .ok (false, { c with world, stack := f :: rest })

/-- `sq_call` where no script suspends the VM. -/
def sqCall : Nat → Bool → SqM Bool := sqCallIn vm never

/-! ## A small VM -/

/-- A VM on which every script compiles, every call ends with `o`, and names are
looked up in the table alone. -/
def SqVm.ending (o : Option SqValue) : SqVm where
  compile _ w := (some (.closure 0), w)
  call _ _ w := (o, w)
  get self key w :=
    match self with
    | .table r => (w.heap.slot r key, w)
    | _ => (none, w)

/-- A heap whose root table binds each of `names` to a closure of its own. -/
def SqHeap.binding (names : List Bytes) : SqHeap where
  next := names.length + 1
  slot r k :=
    match k with
    | .string s => if r = 0 ∧ s ∈ names then some (.closure (names.idxOf s)) else none
    | _ => none
  native r := .other r
  classes _ := { base := none, metamethods := fun _ => none, locked := false }
  instances _ := { userpointer := none, sqclass := 0, hook := false }
  roottable := 0
  delegates _ := []
  delegates_tail _ _ _ h := by cases h
  weakref _ := .null
  tableDelegate _ := 0

/-! ## What the calls do to the stack -/

section Stack

open Act

variable {vm} {c : SquirrelScriptContext} {v : SqValue} {rest : List SqValue}

theorem at_top (h : c.stack = v :: rest) : c.at (-1) = v := by
  simp [SquirrelScriptContext.at, h]

theorem sqPush_ok : sqPush v c = .ok ((), { c with stack := v :: c.stack }) := rfl

theorem sqPop_ok {n : Nat} (h : n ≤ c.stack.length) :
    sqPop n c = .ok ((), { c with stack := c.stack.drop n }) := if_pos h

/-- A pop that returns has taken its slots. -/
theorem sqPop_inv {n : Nat} {c' : SquirrelScriptContext} (h : sqPop n c = .ok ((), c')) :
    c'.stack.length + n = c.stack.length := by
  unfold sqPop at h
  split at h
  · cases h
    simp only [List.length_drop]
    omega
  · cases h

theorem sqGet_below {t k : SqValue} (h : c.stack = k :: t :: rest) :
    sqGet vm (-2) c = match vm.get t k c.world with
      | (some v, world) => .ok (true, { c with world, stack := v :: t :: rest })
      | (none, world) => .ok (false, { c with world, stack := t :: rest }) := by
  have h₁ : c.at (-1) = k := at_top h
  have h₂ : c.at (-2) = t := by simp [SquirrelScriptContext.at, h]
  simp only [sqGet, h₁, h₂, h, List.drop_succ_cons, List.drop_zero]

theorem sqCallIn_some {suspends : Suspends} {f : SqValue} (args : List SqValue) {retval : Bool} {world : SqWorld}
    (h : c.stack = args.reverse ++ f :: rest) (hc : vm.call f args c.world = (some v, world))
    (hs : suspends f args c.world = none) :
    sqCallIn vm suspends args.length retval c
      = .ok (true, { c with world, stack := if retval then v :: f :: rest else f :: rest }) := by
  have htake : c.stack.take args.length = args.reverse := by simp [h]
  have hdrop : c.stack.drop args.length = f :: rest := by simp [h]
  simp only [sqCallIn, htake, hdrop, List.reverse_reverse, hc, hs]

theorem sqCallIn_suspended {suspends : Suspends} {s : Suspension} {f : SqValue} (args : List SqValue) {retval : Bool}
    {world : SqWorld} (h : c.stack = args.reverse ++ f :: rest) (hc : vm.call f args c.world = (some v, world))
    (hs : suspends f args c.world = some s) :
    sqCallIn vm suspends args.length retval c = .ok (true,
      { world
        stack := if retval then v :: (s.slots ++ f :: rest).drop args.length
          else (s.slots ++ f :: rest).drop args.length
        stackbase := rest.length + 1 + s.base }) := by
  have htake : c.stack.take args.length = args.reverse := by simp [h]
  have hdrop : c.stack.drop args.length = f :: rest := by simp [h]
  simp only [sqCallIn, htake, hdrop, List.reverse_reverse, hc, hs]

theorem sqCall_some {f : SqValue} (args : List SqValue) {retval : Bool} {world : SqWorld}
    (h : c.stack = args.reverse ++ f :: rest) (hc : vm.call f args c.world = (some v, world)) :
    sqCall vm args.length retval c
      = .ok (true, { c with world, stack := if retval then v :: f :: rest else f :: rest }) :=
  sqCallIn_some args h hc rfl

theorem sqCallIn_none {suspends : Suspends} {f : SqValue} (args : List SqValue) {retval : Bool} {world : SqWorld}
    (h : c.stack = args.reverse ++ f :: rest) (hc : vm.call f args c.world = (none, world)) :
    sqCallIn vm suspends args.length retval c = .ok (false, { c with world, stack := f :: rest }) := by
  have htake : c.stack.take args.length = args.reverse := by simp [h]
  have hdrop : c.stack.drop args.length = f :: rest := by simp [h]
  simp only [sqCallIn, htake, hdrop, List.reverse_reverse, hc]

theorem sqCall_none {f : SqValue} (args : List SqValue) {retval : Bool} {world : SqWorld}
    (h : c.stack = args.reverse ++ f :: rest) (hc : vm.call f args c.world = (none, world)) :
    sqCall vm args.length retval c = .ok (false, { c with world, stack := f :: rest }) :=
  sqCallIn_none args h hc

end Stack

end MultiScript.Squirrel
