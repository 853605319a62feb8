/-
The Squirrel backend: `SquirrelScriptContext.cpp` and `SquirrelScriptStack.cpp`.
`BeginCall` leaves the root table, the function and the root table again, as the
function's environment, on the VM stack; the handle pops fixed numbers of slots.
-/
import MultiScript.Squirrel.Api

namespace MultiScript.Squirrel

variable (vm : SqVm)

def sqAssert (cond : Bool) (text : String) : SqM Unit := fun c =>
  (multiScriptAssert cond text).map fun _ => ((), c)

/-! ## The context -/

/-- `CreateContext`, over the heap the standard libraries fill: the root table it
pushed for them stays on the stack. -/
def createContext (heap : SqHeap) : SquirrelScriptContext :=
  { stack := [.table heap.roottable], stackbase := 0,
    world := { heap, functions := [], classes := [], logger := none, logged := [] } }

def setLogger (logger : Option Nat) : SqM Unit :=
  modify fun c => { c with world := { c.world with logger } }

/-- `ExecuteString`, with the scripts that suspend the VM. -/
def executeStringIn (suspends : Suspends) (string : Bytes) : SqM Bool := do
  if ← sqCompile vm string then
    sqPushroottable
    let result ← sqCallIn vm suspends 1 false
    sqPop 1
    return result
  else
    return false

/-- `ExecuteString` where no script suspends the VM. -/
def executeString : Bytes → SqM Bool := executeStringIn vm never

def registerFunction (desc : FunctionDesc) : SqM Bool := do
  sqPushroottable
  sqPushstring desc.name
  sqPushuserpointer (.functionInfo desc)
  sqNewclosure .functionCallback 1
  let _ ← sqCreateslot (-3)
  sqPop 1
  modify fun c => { c with world := { c.world with functions := c.world.functions ++ [desc] } }
  return true

/-- A key and a closure of the backend over `outervalues` are pushed, and put into
the class under them. -/
def addMember (name : Bytes) (f : SqFunction) (outervalues : List SqValue) : SqM Unit := do
  sqPushstring name
  outervalues.forM sqPush
  sqNewclosure f outervalues.length
  let _ ← sqCreateslot (-3)

/-- The destructor of a class that is not collected. -/
def addDestroy (desc : ClassDesc) (info : SqValue) : SqM Unit :=
  if desc.garbageCollect then pure () else addMember (cstr "Destroy") .classDestructorCallback [info]

/-- `RegisterUserClass`. The class goes into what is on top of the stack before. -/
def registerUserClass (desc : ClassDesc) : SqM Bool := do
  sqAssert desc.constructor.isSome "desc->m_constructor"
  sqAssert desc.destructor.isSome "desc->m_destructor"
  let classInfo : SqValue := .userpointer (.classInfo desc)
  sqPushstring desc.name
  sqNewclass
  desc.methods.zipIdx.forM fun (method, i) =>
    addMember method.name .classMethodCallback [classInfo, .integer i]
  addMember (cstr "constructor") .classConstructorCallback [classInfo]
  addMember (cstr "AsString") .classToStringMethodCallback [classInfo]
  addDestroy desc classInfo
  let _ ← sqCreateslot (-3)
  modify fun c => { c with world := { c.world with classes := c.world.classes ++ [desc] } }
  return true

/-- `FindClassInfo` compares descriptors by address. -/
def findClassInfo (w : SqWorld) (classDesc : ClassDesc) : Option ClassDesc :=
  w.classes.find? (·.addr == classDesc.addr)

/-! ## The stack -/

structure SquirrelScriptStack where
  numPushed : Nat
  numParams : Int
  isCall : Bool
deriving DecidableEq, Repr

namespace SquirrelScriptStack

/-- The constructor. -/
def new (isCall : Bool) : SqM SquirrelScriptStack := do
  let top ← sqGettop
  return { numPushed := 0, numParams := if isCall then 0 else top - 1, isCall }

def getNumParams (st : SquirrelScriptStack) : Int := st.numParams

/-- `PopInt(value)`: the answer, and the out-parameter after the call. -/
def popInt (st : SquirrelScriptStack) (value : Int) : SqM ((Bool × Int) × SquirrelScriptStack) := fun c =>
  match (c.at (-1)).getInteger with
  | none => .ok (((false, value), st), c)
  | some n => (do
      sqPop 1
      return ((true, n), { st with numParams := st.numParams - 1 })) c

/-- `PopScriptObject`. The user pointer of an instance may be `NULL`. -/
def popScriptObject (st : SquirrelScriptStack) : SqM (Option Nat × SquirrelScriptStack) := fun c =>
  match c.at (-1) with
  | .sqinstance r => (do
      sqPop 1
      return ((c.world.heap.instances r).userpointer, { st with numParams := st.numParams - 1 })) c
  | _ => .error (.assertion "sq_gettype(m_context->m_vm, -1) == OT_INSTANCE")

def pushInt (st : SquirrelScriptStack) (value : Int) : SqM (Bool × SquirrelScriptStack) := do
  sqPushinteger value
  return (true, { st with numPushed := st.numPushed + 1 })

def pushString (st : SquirrelScriptStack) (string : Bytes) (length : Int) :
    SqM (Bool × SquirrelScriptStack) := do
  sqPushstring (pushedBytes string length)
  return (true, { st with numPushed := st.numPushed + 1 })

/-- `EndCall`. After a call that failed the function and the root table under it
go here, and `ReleaseAfterCall` pops two more. -/
def endCall (st : SquirrelScriptStack) : SqM (Bool × SquirrelScriptStack) := do
  sqAssert st.isCall "m_isCall"
  let topBefore ← sqGettop
  if ← sqCall vm (st.numPushed + 1) true then
    let topAfter ← sqGettop
    return (true, { st with numParams := topAfter - (topBefore - (st.numPushed + 1)) })
  else
    sqPop 2
    return (false, st)

def releaseAfterCall (st : SquirrelScriptStack) : SqM Unit := do
  sqAssert st.isCall "m_isCall"
  sqPop 2

def push (st : SquirrelScriptStack) : Push → SqM (Bool × SquirrelScriptStack)
  | .int value => st.pushInt value
  | .string string length => st.pushString string length

def pop (st : SquirrelScriptStack) : Pop → SqM (Answer × SquirrelScriptStack)
  | .int => do
    let r ← st.popInt 0
    return (.ofPopInt r.1, r.2)
  | .scriptObject => do
    let r ← st.popScriptObject
    return (.object r.1, r.2)

end SquirrelScriptStack

/-- `BeginCall`. What `sq_get` answers is not looked at: where it finds nothing
the slot whose type is tested is the root table's. -/
def beginCall (name : Bytes) : SqM (Option SquirrelScriptStack) := do
  sqPushroottable
  sqPushstring name
  let _ ← sqGet vm (-2)
  if ((← get).at (-1)).isFunction then
    sqPushroottable
    return some (← SquirrelScriptStack.new true)
  else
    sqPop 1
    return none

/-! ## What the operations do to the stack -/

open Act

variable {vm} {c : SquirrelScriptContext} {rest : List SqValue}

@[simp] theorem sqAssert_true (text : String) : sqAssert true text c = .ok ((), c) := rfl

theorem sqAssert_inv {cond : Bool} {text : String} {u : Unit} {c' : SquirrelScriptContext}
    (h : sqAssert cond text c = .ok (u, c')) : cond = true ∧ c' = c := by
  cases cond with
  | true =>
    cases h
    exact ⟨rfl, rfl⟩
  | false => cases h

/-- The lookup of a name from the root table. -/
def lookupRoot (vm : SqVm) (name : Bytes) (w : SqWorld) : Option SqValue × SqWorld :=
  vm.get (.table w.heap.roottable) (.string name) w

/-- `BeginCall`, by what the name is bound to. -/
theorem beginCall_eq (name : Bytes) :
    beginCall vm name c = match lookupRoot vm name c.world with
      | (none, world) => .ok (none, { c with world })
      | (some v, world) =>
        if v.isFunction then
          .ok (some { numPushed := 0, numParams := 0, isCall := true }, { c with
            world, stack := .table world.heap.roottable :: v :: .table c.world.heap.roottable :: c.stack })
        else .ok (none, { c with world, stack := .table c.world.heap.roottable :: c.stack }) := by
  rw [beginCall, bind_ok (show sqPushroottable c = .ok _ from rfl),
    bind_ok (show sqPushstring name _ = .ok _ from rfl)]
  have hg := @sqGet_below vm { c with stack := .string name :: .table c.world.heap.roottable :: c.stack } c.stack
    (.table c.world.heap.roottable) (.string name) rfl
  rcases hl : lookupRoot vm name c.world with ⟨_ | v, world⟩
  · rw [show vm.get (.table c.world.heap.roottable) (.string name) c.world = (none, world) from hl] at hg
    rw [bind_ok hg, bind_get, at_top (v := .table c.world.heap.roottable) rfl]
    rfl
  · rw [show vm.get (.table c.world.heap.roottable) (.string name) c.world = (some v, world) from hl] at hg
    rw [bind_ok hg, bind_get, at_top (v := v) rfl]
    cases hv : v.isFunction with
    | true => simp only [hv, if_true]; rfl
    | false => simp only [hv, Bool.false_eq_true, if_false]; rfl

/-- `EndCall` of a call that succeeds: the one result over the function. -/
theorem endCall_some {st : SquirrelScriptStack} {f v : SqValue} {args : List SqValue}
    {world : SqWorld} (hst : st.isCall = true) (hn : st.numPushed + 1 = args.length)
    (h : c.stack = args.reverse ++ f :: rest) (hc : vm.call f args c.world = (some v, world)) :
    st.endCall vm c
      = .ok ((true, { st with numParams := 1 }), { c with world, stack := v :: f :: rest }) := by
  have ha : sqAssert st.isCall "m_isCall" c = .ok ((), c) := by rw [hst]; rfl
  have hcall : sqCall vm args.length true c = .ok (true, { c with world, stack := v :: f :: rest }) :=
    sqCall_some args h hc
  rw [← hn] at hcall
  have htop : ((v :: f :: rest).length : Int) - c.stackbase -
      (c.stack.length - c.stackbase - (st.numPushed + 1)) = 1 := by
    simp [h]
    omega
  rw [SquirrelScriptStack.endCall, bind_ok ha, bind_ok (show sqGettop c = .ok _ from rfl), bind_ok hcall]
  simp only [if_true]
  rw [bind_ok (show sqGettop _ = .ok _ from rfl)]
  simp only [htop]
  rfl

/-- `EndCall` of a call that fails has already given the stack back. -/
theorem endCall_none {st : SquirrelScriptStack} {f t : SqValue} {args : List SqValue}
    {world : SqWorld} (hst : st.isCall = true) (hn : st.numPushed + 1 = args.length)
    (h : c.stack = args.reverse ++ f :: t :: rest) (hc : vm.call f args c.world = (none, world)) :
    st.endCall vm c = .ok ((false, st), { c with world, stack := rest }) := by
  have ha : sqAssert st.isCall "m_isCall" c = .ok ((), c) := by rw [hst]; rfl
  have hcall : sqCall vm args.length true c = .ok (false, { c with world, stack := f :: t :: rest }) :=
    sqCall_none args h hc
  rw [← hn] at hcall
  rw [SquirrelScriptStack.endCall, bind_ok ha, bind_ok (show sqGettop c = .ok _ from rfl), bind_ok hcall]
  simp only [Bool.false_eq_true, if_false]
  rw [bind_ok (sqPop_ok (by simp))]
  rfl

/-! ## What `ExecuteString` does to the stack -/

/-- The text compiles, and its main function suspends the VM. -/
def Suspended (vm : SqVm) (suspends : Suspends) (string : Bytes) (w : SqWorld) : Prop :=
  ∃ f w' v w'' s, vm.compile string w = (some f, w') ∧ vm.call f [.table w'.heap.roottable] w' = (some v, w'') ∧
    suspends f [.table w'.heap.roottable] w' = some s

/-- `ExecuteString` returns with the stack and the frame it was called on. -/
def Neutral (vm : SqVm) (suspends : Suspends) (string : Bytes) (c : SquirrelScriptContext) : Prop :=
  ∃ ok c', executeStringIn vm suspends string c = .ok (ok, c') ∧ c'.stack = c.stack ∧ c'.stackbase = c.stackbase

section ExecuteString

variable {suspends : Suspends} {string : Bytes}

theorem executeStringIn_refused {w : SqWorld} (h : vm.compile string c.world = (none, w)) :
    executeStringIn vm suspends string c = .ok (false, { c with world := w }) :=
  bind_ok (show sqCompile vm string c = .ok (false, { c with world := w }) by simp only [sqCompile, h])

/-- What compiles is called, and its closure popped. -/
theorem executeStringIn_compiled {f : SqValue} {w : SqWorld} (h : vm.compile string c.world = (some f, w)) :
    executeStringIn vm suspends string c = (do
      let result ← sqCallIn vm suspends 1 false
      sqPop 1
      return result : SqM Bool) { c with world := w, stack := .table w.heap.roottable :: f :: c.stack } := by
  have hc : sqCompile vm string c = .ok (true, { c with world := w, stack := f :: c.stack }) := by
    simp only [sqCompile, h]
  rw [executeStringIn, bind_ok hc]
  rfl

/-- Where the VM is not suspended the stack is given back, whether the script compiles or not
and however it ends. -/
theorem executeStringIn_neutral (h : ¬ Suspended vm suspends string c.world) : Neutral vm suspends string c := by
  rcases hco : vm.compile string c.world with ⟨_ | f, w⟩
  · exact ⟨_, _, executeStringIn_refused hco, rfl, rfl⟩
  · have hcall : ∃ ok w', sqCallIn vm suspends 1 false
        { c with world := w, stack := .table w.heap.roottable :: f :: c.stack }
        = .ok (ok, { c with world := w', stack := f :: c.stack }) := by
      rcases hcl : vm.call f [.table w.heap.roottable] w with ⟨_ | v, w'⟩
      · exact ⟨false, w', sqCallIn_none [.table w.heap.roottable] rfl hcl⟩
      · cases hs : suspends f [.table w.heap.roottable] w with
        | none => exact ⟨true, w', sqCallIn_some [.table w.heap.roottable] rfl hcl hs⟩
        | some s => exact absurd ⟨f, w, v, w', s, hco, hcl, hs⟩ h
    obtain ⟨ok, w', h'⟩ := hcall
    refine ⟨ok, { c with world := w' }, ?_, rfl, rfl⟩
    rw [executeStringIn_compiled hco]
    exact (bind_ok h').trans rfl

/-- Where it is, the frame of the script is left over that of the host. -/
theorem executeStringIn_suspended (hbase : c.stackbase ≤ c.stack.length) (h : Suspended vm suspends string c.world) :
    ¬ Neutral vm suspends string c := by
  obtain ⟨f, w, v, w', s, hco, hcl, hs⟩ := h
  rintro ⟨ok, c', hrun, -, hc'⟩
  rw [executeStringIn_compiled hco] at hrun
  obtain ⟨result, c₁, hcall, hrun⟩ := bind_ok_inv hrun
  have hc₁ : c₁.stackbase = c.stack.length + 1 + s.base := by
    have hleft := @sqCallIn_suspended vm { c with world := w, stack := .table w.heap.roottable :: f :: c.stack }
      v c.stack
      suspends s f [.table w.heap.roottable] false w' rfl hcl hs
    cases hcall.symm.trans hleft
    rfl
  obtain ⟨u, c₂, hpop, hrun⟩ := bind_ok_inv hrun
  cases hrun
  have hc₂ : c'.stackbase = c₁.stackbase := by
    unfold sqPop at hpop
    split at hpop <;> cases hpop
    rfl
  omega

theorem neutral_iff (hbase : c.stackbase ≤ c.stack.length) :
    Neutral vm suspends string c ↔ ¬ Suspended vm suspends string c.world :=
  ⟨fun hn hs => executeStringIn_suspended hbase hs hn, executeStringIn_neutral⟩

end ExecuteString

end MultiScript.Squirrel
