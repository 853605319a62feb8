/-
The C functions the backend hands to Squirrel (`SquirrelScriptContext.cpp`). A
native closure finds its outer values on the stack, over the arguments, and
takes them off first. As in Lua, the `SquirrelScriptStack` works on the VM of
the context, whichever thread calls.
-/
import MultiScript.Squirrel.Context
import MultiScript.Objects

namespace MultiScript.Squirrel

/-! ## Threads -/

/-- The stack of a thread, and where its running frame starts. -/
structure SqFrame where
  stack : List SqValue
  stackbase : Nat
deriving DecidableEq, Repr

def sqView : FrameView SquirrelScriptContext SqFrame SqWorld where
  make f world := { stack := f.stack, stackbase := f.stackbase, world }
  frame c := { stack := c.stack, stackbase := c.stackbase }
  world c := c.world
  frame_make _ _ := rfl
  world_make _ _ := rfl
  make_eta _ := rfl

abbrev SqState := VmState SqFrame SqWorld

abbrev SqS := VmM SqFrame SqWorld

def sqFail {α : Type} (f : Fault) : SqM α := fun _ => .error f

/-! ## What a callback reads first -/

/-- The user pointer on top, taken off. -/
def popUserpointer : SqM HostPtr := fun c =>
  match c.at (-1) with
  | .userpointer p => (do
      sqPop 1
      return p) c
  | _ => .error (.assertion "sq_gettype(vm, -1) == OT_USERPOINTER")

def popFunctionInfo : SqM FunctionDesc := do
  match ← popUserpointer with
  | .functionInfo desc => return desc
  | _ => sqFail .wildDeref

def popClassInfo : SqM ClassDesc := do
  match ← popUserpointer with
  | .classInfo desc => return desc
  | _ => sqFail .wildDeref

def popMethodIndex : SqM Int := fun c =>
  match c.at (-1) with
  | .integer n => (do
      sqPop 1
      return n) c
  | _ => .error (.assertion "sq_gettype(vm, -1) == OT_INTEGER")

/-- The wrapper of the receiver, of whatever class it is an instance. -/
def receiverUp : SqM Nat := fun c =>
  match c.at 1 with
  | .sqinstance r =>
    match (c.world.heap.instances r).userpointer with
    | none => .error .nullDeref
    | some p => .ok (p, c)
  | _ => .error (.assertion "sq_gettype(vm, 1) == OT_INSTANCE")

/-- The receiver's wrapper, whose object must not be destroyed. -/
def receiver (L : Nat) : SqS Nat := do
  let scriptObject ← onThread sqView L receiverUp
  let w ← onObjects fun o => (o.read scriptObject).map (·, o)
  vmAssert w.objectPtr.isSome "scriptObject->m_objectPtr"
  return scriptObject

/-- `m_methods[methodIndex].m_method`. -/
def methodCode (desc : ClassDesc) (methodIndex : Int) : SqM CodePtr := fun c =>
  if methodIndex < 0 then .error .wildDeref
  else match desc.methods[methodIndex.toNat]? with
    | some m => .ok (m.method, c)
    | none => .error .wildDeref

/-! ## Functions and methods -/

/-- `SquirrelFunctionCallback`, up to the call of the function. -/
def functionEnter (L : Nat) : SqS (CodePtr × SquirrelScriptStack) := do
  let info ← onThread sqView L popFunctionInfo
  let stack ← onThread sqView mainThread (SquirrelScriptStack.new false)
  return (info.function, stack)

/-- `SquirrelClassMethodCallback`, up to the call of the method. -/
def methodEnter (L : Nat) : SqS (CodePtr × Nat × SquirrelScriptStack) := do
  let classInfo ← onThread sqView L popClassInfo
  let methodIndex ← onThread sqView L popMethodIndex
  let scriptObject ← receiver L
  let stack ← onThread sqView mainThread (SquirrelScriptStack.new false)
  let code ← onThread sqView L (methodCode classInfo methodIndex)
  return (code, scriptObject, stack)

def callbackLeave {α : Type} (r : UserResult α SquirrelScriptStack) : SqS (α × Nat) := do
  vmAssert r.result "result"
  return (r.seen, r.stack.numPushed)

section Callbacks

variable {α : Type}

def squirrelFunctionCallback
    (function : CodePtr → SquirrelScriptStack → SqS (UserResult α SquirrelScriptStack)) (L : Nat) : SqS (α × Nat) := do
  let e ← functionEnter L
  callbackLeave (← function e.1 e.2)

def squirrelClassMethodCallback
    (method : CodePtr → Nat → SquirrelScriptStack → SqS (UserResult α SquirrelScriptStack)) (L : Nat) :
    SqS (α × Nat) := do
  let e ← methodEnter L
  callbackLeave (← method e.1 e.2.1 e.2.2)

/-! ## Construction -/

/-- `sq_setinstanceup`: refused for what is no instance. -/
def sqSetinstanceup (idx : Int) (p : Nat) : SqM Bool := fun c =>
  match c.at idx with
  | .sqinstance r =>
    let h := c.world.heap
    .ok (true, c.setHeap { h with
      instances := fun r' => if r' = r then { h.instances r with userpointer := some p } else h.instances r' })
  | _ => .ok (false, c)

/-- `sq_setreleasehook(vm, idx, SquirrelClassGCCallback)` on an instance. The hooks
of classes and userdata are set nowhere else. -/
def sqSetreleasehook (idx : Int) : SqM Unit := fun c =>
  match c.at idx with
  | .sqinstance r =>
    let h := c.world.heap
    .ok ((), c.setHeap { h with
      instances := fun r' => if r' = r then { h.instances r with hook := true } else h.instances r' })
  | _ => .ok ((), c)

/-- `SquirrelClassConstructorCallback`, up to the call of the constructor. -/
def constructorEnter (L : Nat) : SqS (ClassDesc × Nat × SquirrelScriptStack) := do
  let classInfo ← onThread sqView L popClassInfo
  let scriptObject ← onObjects fun o => .ok (o.next, o.new { classInfo := some classInfo })
  let stack ← onThread sqView mainThread (SquirrelScriptStack.new false)
  return (classInfo, scriptObject, stack)

/-- The rest of it: whatever is on top is taken for the instance. -/
def constructorLeave (L : Nat) (scriptObject : Nat) (stack : SquirrelScriptStack) : SqS Nat := do
  let w ← onObjects fun o => (o.read scriptObject).map (·, o)
  vmAssert w.objectPtr.isSome "scriptObject->m_objectPtr"
  vmAssert (stack.numPushed == 0) "stack.m_numPushed == 0"
  let _ ← onThread sqView L (sqSetinstanceup (-1) scriptObject)
  onThread sqView L (sqSetreleasehook (-1))
  return 0

def squirrelClassConstructorCallback
    (constructor : Option CodePtr → SquirrelScriptStack → Nat → SqS (α × SquirrelScriptStack)) (L : Nat) :
    SqS (α × Nat) := do
  let e ← constructorEnter L
  let r ← constructor e.1.constructor e.2.2 e.2.1
  let n ← constructorLeave L e.2.1 r.2
  return (r.1, n)

/-! ## Destruction -/

/-- `SquirrelClassDestructorCallback`, up to the call of the destructor. -/
def destructorEnter (L : Nat) : SqS (ClassDesc × Nat) := do
  let classInfo ← onThread sqView L popClassInfo
  let scriptObject ← receiver L
  changeObjects (·.lock scriptObject)
  return (classInfo, scriptObject)

/-- `SquirrelClassDestructorCallback`. -/
def squirrelClassDestructorCallback (destructor : Option CodePtr → Nat → SqS α) (L : Nat) : SqS (α × Nat) := do
  let e ← destructorEnter L
  let a ← destructor e.1.destructor e.2
  changeObjects (·.destroyed e.2)
  return (a, 0)

/-- `SquirrelClassGCCallback`, the release hook, up to the call of the destructor. The
class is the wrapper's. -/
def gcEnter (scriptObject : Nat) : SqS (Nat × Option ClassDesc) := do
  let w ← readObject scriptObject
  if w.objectPtr.isNone then
    changeObjects (·.delete scriptObject)
    return (scriptObject, none)
  else
    match w.classInfo with
    | none => fun _ => .error .uninitialised
    | some classInfo =>
      if classInfo.garbageCollect then
        changeObjects (·.lock scriptObject)
        return (scriptObject, some classInfo)
      else
        changeObjects (·.delete scriptObject)
        return (scriptObject, none)

/-- `SquirrelClassGCCallback`. -/
def squirrelClassGCCallback (destructor : Option CodePtr → Nat → SqS α) (scriptObject : Nat) : SqS (Option α) := do
  match ← gcEnter scriptObject with
  | (_, none) => return none
  | (_, some classInfo) => do
    let a ← destructor classInfo.destructor scriptObject
    changeObjects (·.delete scriptObject)
    return some a

/-! ## Text -/

/-- `SquirrelClassToStringMethodCallback`, up to the call of the to-string method. -/
def toStringEnter (L : Nat) : SqS (ClassDesc × Nat) := do
  let classInfo ← onThread sqView L popClassInfo
  let scriptObject ← receiver L
  return (classInfo, scriptObject)

/-- `SquirrelClassToStringMethodCallback`. -/
def squirrelClassToStringMethodCallback (toStringMethod : CodePtr → Nat → SqS (TextResult α)) (L : Nat) :
    SqS (Option α × Nat) := do
  let e ← toStringEnter L
  match e.1.toStringMethod with
  | some code => do
    let r ← toStringMethod code e.2
    vmAssert r.result "result"
    onThread sqView L (sqPushstring r.buffer)
    return (some r.seen, 1)
  | none => do
    onThread sqView L (sqPushstring (classText e.1))
    return (none, 1)

/-! ## Objects of the host -/

/-- A class and the classes it extends, from the last one on. A class is made after
its base, so its reference bounds the length. -/
def SqHeap.ancestors (h : SqHeap) : Nat → Nat → List Nat
  | 0, _ => []
  | n + 1, r =>
    r :: match (h.classes r).base with
      | none => []
      | some base => h.ancestors n base

/-- `SQClass::Lock`. -/
def SqHeap.lock (h : SqHeap) (r : Nat) : SqHeap :=
  { h with classes := fun r' =>
      if r' ∈ h.ancestors (r + 1) r then { h.classes r' with locked := true } else h.classes r' }

/-- `SQClass::CreateInstance`. -/
def SqHeap.createInstance (h : SqHeap) (r : Nat) : SqHeap :=
  { h.lock r with
    next := h.next + 1
    instances := fun i => if i = h.next then { userpointer := none, sqclass := r, hook := false } else h.instances i }

/-- `sq_createinstance`: a new instance of the class at `idx` on top. -/
def sqCreateinstance (idx : Int) : SqM Bool := fun c =>
  match c.at idx with
  | .sqclass r =>
    let h := c.world.heap
    let c := { c with stack := .sqinstance h.next :: c.stack }
    .ok (true, c.setHeap (h.createInstance r))
  | _ => .ok (false, c)

/-- `sq_remove` of the slot under the top. -/
def sqRemoveBelow : SqM Unit := fun c => .ok ((), { c with stack := c.stack.eraseIdx 1 })

variable (vm : SqVm)

/-- The info of a class, through a pointer that may be `NULL`. -/
def classInfoOf (classDesc : ClassDesc) : SqM ClassDesc := do
  match findClassInfo (← get).world classDesc with
  | some classInfo => return classInfo
  | none => sqFail .nullDeref

/-- The info of a class, which is registered first if it is not. -/
def findOrRegister (classDesc : ClassDesc) : SqM ClassDesc := do
  match findClassInfo (← get).world classDesc with
  | some classInfo => return classInfo
  | none => do
    let _ ← registerUserClass classDesc
    classInfoOf classDesc

/-- The class is looked up in what is on top. What `sq_get` answers is not looked at. -/
def pushClass (name : Bytes) : SqM Unit := do
  sqPushstring name
  let _ ← sqGet vm (-2)
  match (← get).at (-1) with
  | .sqclass _ => return ()
  | _ => sqFail (.assertion "sq_gettype(m_context->m_vm, -1) == OT_CLASS")

/-- An instance in place of the class on top. -/
def replaceByInstance (scriptObject : Nat) : SqM Unit := do
  let _ ← sqCreateinstance (-1)
  let _ ← sqSetinstanceup (-1) scriptObject
  sqRemoveBelow

/-- `PushNewScriptObject`. The wrapper gets no class info, and the instance no
release hook. -/
def SquirrelScriptStack.pushNewScriptObject (st : SquirrelScriptStack) (classDesc : ClassDesc)
    (objectPtr : Option Nat) :
    SqS (Nat × SquirrelScriptStack) := do
  let _ ← onThread sqView mainThread (findOrRegister classDesc)
  let scriptObject ← onObjects fun o => .ok (o.next, o.new { objectPtr })
  onThread sqView mainThread (pushClass vm classDesc.name)
  onThread sqView mainThread (replaceByInstance scriptObject)
  return (scriptObject, { st with numPushed := st.numPushed + 1 })

/-- `PushScriptObject`, which is not written yet. -/
def SquirrelScriptStack.pushScriptObject (st : SquirrelScriptStack) (_scriptObject : Nat) :
    SqS (Bool × SquirrelScriptStack) := do
  vmAssert false "false"
  return (false, { st with numPushed := st.numPushed + 1 })

/-! ## The call of a native closure -/

/-- The lowest `n` slots of a stack; those that were popped are null. -/
def lowest (n : Nat) (stack : List SqValue) : List SqValue :=
  (stack.reverse.take n ++ List.replicate (n - stack.length) SqValue.null).reverse

/-- `SQVM::CallNative`: a frame over the caller's with `this`, the arguments and the
outer values. The result is the value on top if the callback has answered that
there is one. -/
def callNative (L : Nat) (outervalues : List SqValue) (this : SqValue) (args : List SqValue)
    (callback : SqS (α × Nat)) : SqS (α × SqValue) := fun s =>
  let caller := s.frame L
  let stack := outervalues.reverse ++ (args.reverse ++ this :: caller.stack)
  match callback (s.setFrame L { stack, stackbase := caller.stack.length }) with
  | .error e => .error e
  | .ok ((a, n), s') =>
    let result := if n = 0 then .null else (s'.context sqView L).at (-1)
    .ok ((a, result), s'.setFrame L { caller with stack := lowest caller.stack.length (s'.frame L).stack })

/-- `_OP_CALL` of the class `q`: a new instance, and its constructor called on it. The
result is the instance, whatever the constructor answers. -/
def callClass (L q : Nat) (outervalues args : List SqValue) (callback : SqS (α × Nat)) : SqS (α × SqValue) := fun s =>
  let inst : SqValue := .sqinstance s.world.heap.next
  let s := { s with world := { s.world with heap := s.world.heap.createInstance q } }
  match callNative L outervalues inst args callback s with
  | .error e => .error e
  | .ok ((a, _), s') => .ok ((a, inst), s')

end Callbacks

/-! ## What the callbacks find -/

open Act

variable {s : SqState} {c : SquirrelScriptContext} {L r p i : Nat} {desc : ClassDesc} {this v : SqValue}
  {rest args below : List SqValue}

/-- A callback's stack, made while the frame of the context's own thread has `n`
values over `this`. -/
def callbackStack (n : Int) : SquirrelScriptStack := { numPushed := 0, numParams := n, isCall := false }

/-- The values over `this` in the frame of a thread. -/
def SqFrame.count (f : SqFrame) : Int := f.stack.length - f.stackbase - 1

def SqState.setStack (s : SqState) (L : Nat) (stack : List SqValue) : SqState :=
  s.setFrame L { s.frame L with stack }

theorem at_this {xs : List SqValue} (hs : c.stack = xs ++ this :: below) (hb : c.stackbase = below.length) :
    c.at 1 = this := by
  simp [SquirrelScriptContext.at, hs, hb]

theorem sqPop_one (h : c.stack = v :: rest) : sqPop 1 c = .ok ((), { c with stack := rest }) := by
  rw [sqPop_ok (by simp [h])]
  simp [h]

theorem popFunctionInfo_ok {desc : FunctionDesc} (h : c.stack = .userpointer (.functionInfo desc) :: rest) :
    popFunctionInfo c = .ok (desc, { c with stack := rest }) := by
  have hp : popUserpointer c = .ok (.functionInfo desc, { c with stack := rest }) := by
    simp only [popUserpointer, at_top h]
    rw [bind_ok (sqPop_one h)]
    rfl
  rw [popFunctionInfo, bind_ok hp]
  rfl

theorem popClassInfo_ok (h : c.stack = .userpointer (.classInfo desc) :: rest) :
    popClassInfo c = .ok (desc, { c with stack := rest }) := by
  have hp : popUserpointer c = .ok (.classInfo desc, { c with stack := rest }) := by
    simp only [popUserpointer, at_top h]
    rw [bind_ok (sqPop_one h)]
    rfl
  rw [popClassInfo, bind_ok hp]
  rfl

theorem popMethodIndex_ok {n : Int} (h : c.stack = .integer n :: rest) :
    popMethodIndex c = .ok (n, { c with stack := rest }) := by
  simp only [popMethodIndex, at_top h]
  rw [bind_ok (sqPop_one h)]
  rfl

theorem receiverUp_ok {xs : List SqValue} (hs : c.stack = xs ++ .sqinstance r :: below)
    (hb : c.stackbase = below.length) (hu : (c.world.heap.instances r).userpointer = some p) :
    receiverUp c = .ok (p, c) := by
  simp only [receiverUp, at_this hs hb, hu]

theorem methodCode_ok {m : ClassMethodDesc} (hm : desc.methods[i]? = some m) :
    methodCode desc i c = .ok (m.method, c) := by
  have hpos : ¬ (i : Int) < 0 := by omega
  simp only [methodCode, if_neg hpos, Int.toNat_natCast, hm]

theorem setContext_stack : s.setContext sqView L { s.context sqView L with stack := rest } = s.setStack L rest := rfl

@[simp] theorem setStack_frame_self : (s.setStack L rest).frame L = { s.frame L with stack := rest } := by
  simp [SqState.setStack]

@[simp] theorem setStack_setStack {rest' : List SqValue} :
    (s.setStack L rest).setStack L rest' = s.setStack L rest' := by
  simp [SqState.setStack, VmState.setFrame]

theorem newStack_ok : onThread sqView mainThread (SquirrelScriptStack.new false) s
    = .ok (callbackStack (s.frame mainThread).count, s) := by
  have h : SquirrelScriptStack.new false (s.context sqView mainThread)
      = .ok (callbackStack (s.frame mainThread).count, s.context sqView mainThread) := rfl
  rw [onThread_ok h, setContext_self]

/-- An API call that only reads. -/
theorem onThread_reads {α : Type} {m : SqM α} {a : α} (h : m (s.context sqView L) = .ok (a, s.context sqView L)) :
    onThread sqView L m s = .ok (a, s) := by
  rw [onThread_ok h, setContext_self]

theorem receiver_ok (xs below : List SqValue) {w : ScriptObject} (hs : (s.frame L).stack = xs ++ .sqinstance r :: below)
    (hb : (s.frame L).stackbase = below.length) (hu : (s.world.heap.instances r).userpointer = some p)
    (hw : s.objects.get p = some w) (ho : w.objectPtr.isSome = true) : receiver L s = .ok (p, s) := by
  have hr : onObjects (fun o => (o.read p).map (·, o)) s = .ok (w, s) := by
    simp [onObjects, Objects.read_some hw, Except.map]
  rw [receiver, bind_ok (onThread_reads (receiverUp_ok hs hb hu)), bind_ok hr, ho]
  rfl

theorem functionEnter_ok {desc : FunctionDesc} (hs : (s.frame L).stack = .userpointer (.functionInfo desc) :: rest) :
    functionEnter L s = .ok ((desc.function, callbackStack ((s.setStack L rest).frame mainThread).count),
      s.setStack L rest) := by
  have hpop : popFunctionInfo (s.context sqView L) = .ok (desc, { s.context sqView L with stack := rest }) :=
    popFunctionInfo_ok hs
  rw [functionEnter, bind_ok (onThread_ok hpop), setContext_stack, bind_ok newStack_ok]
  rfl

theorem methodEnter_ok {m : ClassMethodDesc} {w : ScriptObject}
    (hs : (s.frame L).stack = .userpointer (.classInfo desc) :: .integer i :: (args.reverse ++ .sqinstance r :: below))
    (hb : (s.frame L).stackbase = below.length) (hu : (s.world.heap.instances r).userpointer = some p)
    (hw : s.objects.get p = some w) (ho : w.objectPtr.isSome = true) (hm : desc.methods[i]? = some m) :
    methodEnter L s = .ok ((m.method, p,
        callbackStack ((s.setStack L (args.reverse ++ .sqinstance r :: below)).frame mainThread).count),
      s.setStack L (args.reverse ++ .sqinstance r :: below)) := by
  have hpop : popClassInfo (s.context sqView L)
      = .ok (desc, { s.context sqView L with stack := .integer i :: (args.reverse ++ .sqinstance r :: below) }) :=
    popClassInfo_ok hs
  have hpop' : popMethodIndex ((s.setStack L (.integer i :: (args.reverse ++ .sqinstance r :: below))).context sqView L)
      = .ok ((i : Int), { (s.setStack L (.integer i :: (args.reverse ++ .sqinstance r :: below))).context sqView L with
          stack := args.reverse ++ .sqinstance r :: below }) :=
    popMethodIndex_ok (by simp [VmState.context, sqView])
  have hrec : receiver L (s.setStack L (args.reverse ++ .sqinstance r :: below))
      = .ok (p, s.setStack L (args.reverse ++ .sqinstance r :: below)) :=
    receiver_ok args.reverse below (by simp) (by simp [hb]) hu hw ho
  rw [methodEnter, bind_ok (onThread_ok hpop), setContext_stack, bind_ok (onThread_ok hpop'), setContext_stack,
    setStack_setStack, bind_ok hrec, bind_ok newStack_ok, bind_ok (onThread_reads (methodCode_ok hm))]
  rfl

theorem constructorEnter_ok (hs : (s.frame L).stack = .userpointer (.classInfo desc) :: rest) :
    constructorEnter L s = .ok ((desc, s.objects.next, callbackStack ((s.setStack L rest).frame mainThread).count),
      { s.setStack L rest with objects := s.objects.new { classInfo := some desc } }) := by
  have hpop : popClassInfo (s.context sqView L) = .ok (desc, { s.context sqView L with stack := rest }) :=
    popClassInfo_ok hs
  have hnew : onObjects (fun o => .ok (o.next, o.new { classInfo := some desc })) (s.setStack L rest)
      = .ok (s.objects.next, { s.setStack L rest with objects := s.objects.new { classInfo := some desc } }) := rfl
  rw [constructorEnter, bind_ok (onThread_ok hpop), setContext_stack, bind_ok hnew, bind_ok newStack_ok]
  rfl

end MultiScript.Squirrel
