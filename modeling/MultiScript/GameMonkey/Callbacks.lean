/-
The C functions the backend hands to GameMonkey (`GMScriptContext.cpp`). The
machine passes the thread that calls, and the `GMScriptStack` works on that one.
-/
import MultiScript.GameMonkey.Context
import MultiScript.Objects

namespace MultiScript.GameMonkey

/-! ## Threads -/

def gmView : FrameView GMScriptContext GmThread GmWorld where
  make thread world := { thread, world }
  frame c := c.thread
  world c := c.world
  frame_make _ _ := rfl
  world_make _ _ := rfl
  make_eta _ := rfl

abbrev GmState := VmState GmThread GmWorld

abbrev GmS := VmM GmThread GmWorld

def gmFail {α : Type} (f : Fault) : GmM α := fun _ => .error f

/-! ## What a callback reads first -/

/-- `(GMFunctionInfo*) thread->GetFunctionObject()->m_cUserData`. -/
def asFunctionInfo : HostPtr → GmM FunctionDesc
  | .functionInfo desc => pure desc
  | _ => gmFail .wildDeref

def asClassInfo : HostPtr → GmM ClassDesc
  | .classInfo desc => pure desc
  | _ => gmFail .wildDeref

def asMethodInfo : HostPtr → GmM (ClassDesc × Nat)
  | .methodInfo desc i => pure (desc, i)
  | _ => gmFail .wildDeref

/-- `ThisUser_NoChecks`: whatever `this` is, it is read as a user object. The user
pointer of one may be `NULL`. -/
def thisUser : GmM (Option Nat) := fun c =>
  match c.thread.this with
  | .user _ ref => .ok (c.world.user ref, c)
  | _ => .error .wildDeref

/-- The receiver's wrapper, whose object must not be destroyed. -/
def receiver (L : Nat) : GmS Nat := do
  match ← onThread gmView L thisUser with
  | none => fun _ => .error .nullDeref
  | some scriptObject => do
    let w ← onObjects fun o => (o.read scriptObject).map (·, o)
    vmAssert w.objectPtr.isSome "scriptObject->m_objectPtr"
    return scriptObject

/-- `m_methods[methodIndex].m_method`. -/
def methodCode (desc : ClassDesc) (methodIndex : Nat) : GmM CodePtr := fun c =>
  match desc.methods[methodIndex]? with
  | some m => .ok (m.method, c)
  | none => .error .wildDeref

/-! ## Functions and methods -/

/-- `GMFunctionCallback`, up to the call of the function. -/
def functionEnter (L : Nat) (userData : HostPtr) : GmS (CodePtr × GMScriptStack) := do
  let info ← onThread gmView L (asFunctionInfo userData)
  let stack ← onThread gmView L GMScriptStack.ofThread
  return (info.function, stack)

/-- `GMClassMethodCallback`, up to the call of the method. -/
def methodEnter (L : Nat) (userData : HostPtr) : GmS (CodePtr × Nat × GMScriptStack) := do
  let info ← onThread gmView L (asMethodInfo userData)
  let scriptObject ← receiver L
  let stack ← onThread gmView L GMScriptStack.ofThread
  let code ← onThread gmView L (methodCode info.1 info.2)
  return (code, scriptObject, stack)

section Callbacks

variable {α : Type}

def callbackLeave (r : UserResult α GMScriptStack) : GmS α := do
  vmAssert r.result "result"
  return r.seen

def gmFunctionCallback (function : CodePtr → GMScriptStack → GmS (UserResult α GMScriptStack))
    (L : Nat) (userData : HostPtr) : GmS α := do
  let e ← functionEnter L userData
  callbackLeave (← function e.1 e.2)

def gmClassMethodCallback (method : CodePtr → Nat → GMScriptStack → GmS (UserResult α GMScriptStack))
    (L : Nat) (userData : HostPtr) : GmS α := do
  let e ← methodEnter L userData
  callbackLeave (← method e.1 e.2.1 e.2.2)

/-! ## Construction -/

/-- `gmThread::PushNewUser`: a new user object on top. -/
def pushNewUser (p : Nat) (type : Nat) : GmM Nat := fun c =>
  let r := c.world.next
  .ok (r, { c with
    thread := { c.thread with pushed := .user type r :: c.thread.pushed }
    world := { c.world with
      next := r + 1
      user := fun r' => if r' = r then some p else c.world.user r' } })

/-- `GMClassConstructorCallback`, up to the call of the constructor: the instance is
pushed before it. `types` gives the type made for a class. -/
def constructorEnter (types : ClassDesc → Nat) (L : Nat) (userData : HostPtr) :
    GmS (ClassDesc × Nat × GMScriptStack) := do
  let classInfo ← onThread gmView L (asClassInfo userData)
  let scriptObject ← onObjects fun o => .ok (o.next, o.new { classInfo := some classInfo })
  let ref ← onThread gmView L (pushNewUser scriptObject (types classInfo))
  onObjects fun o => (o.read scriptObject).map fun w => ((), o.write scriptObject { w with userObject := some ref })
  let stack ← onThread gmView L GMScriptStack.ofThread
  return (classInfo, scriptObject, stack)

def constructorLeave (scriptObject : Nat) : GmS Unit := do
  let w ← onObjects fun o => (o.read scriptObject).map (·, o)
  vmAssert w.objectPtr.isSome "scriptObject->m_objectPtr"

def gmClassConstructorCallback (types : ClassDesc → Nat)
    (constructor : Option CodePtr → GMScriptStack → Nat → GmS α) (L : Nat) (userData : HostPtr) : GmS α := do
  let e ← constructorEnter types L userData
  let r ← constructor e.1.constructor e.2.2 e.2.1
  constructorLeave e.2.1
  return r

/-! ## Destruction -/

/-- The class of a wrapper, through its `m_classInfo`. -/
def classOf (w : ScriptObject) : GmS ClassDesc :=
  match w.classInfo with
  | some desc => pure desc
  | none => fun _ => .error .uninitialised

/-- `GMClassDestructorCallback`, up to the call of the destructor. What has been destroyed
already is not asked. -/
def destructorEnter (L : Nat) : GmS (ClassDesc × Nat) := do
  match ← onThread gmView L thisUser with
  | none => fun _ => .error (.assertion "scriptObject")
  | some scriptObject => do
    changeObjects (·.lock scriptObject)
    let classInfo ← classOf (← readObject scriptObject)
    return (classInfo, scriptObject)

/-- `GMClassDestructorCallback`. -/
def gmClassDestructorCallback (destructor : Option CodePtr → Nat → GmS α) (L : Nat) : GmS α := do
  let e ← destructorEnter L
  let a ← destructor e.1.destructor e.2
  changeObjects (·.destroyed e.2)
  return a

/-- `GMClassGCCallback` of the user object `ref`, up to the call of the destructor. -/
def gcEnter (L : Nat) (ref : Nat) : GmS (Nat × Option ClassDesc) := do
  match ← onThread gmView L (fun c => .ok (c.world.user ref, c)) with
  | none => fun _ => .error (.assertion "scriptObject")
  | some scriptObject => do
    let w ← readObject scriptObject
    if w.objectPtr.isNone then
      changeObjects (·.delete scriptObject)
      return (scriptObject, none)
    else
      let classInfo ← classOf w
      if classInfo.garbageCollect then
        changeObjects (·.lock scriptObject)
        return (scriptObject, some classInfo)
      else
        changeObjects (·.delete scriptObject)
        return (scriptObject, none)

/-- `GMClassGCCallback`. -/
def gmClassGCCallback (destructor : Option CodePtr → Nat → GmS α) (L : Nat) (ref : Nat) : GmS (Option α) := do
  match ← gcEnter L ref with
  | (_, none) => return none
  | (scriptObject, some classInfo) => do
    let a ← destructor classInfo.destructor scriptObject
    changeObjects (·.delete scriptObject)
    return some a

/-! ## Text -/

/-- `GMClassToStringMethodCallback`, up to the call of the to-string method. -/
def toStringEnter (L : Nat) : GmS (ClassDesc × Nat) := do
  let scriptObject ← receiver L
  let classInfo ← classOf (← readObject scriptObject)
  return (classInfo, scriptObject)

/-- `PushNewString(buffer, 1 << 8)`: the length is the buffer's. -/
def pushBuffer (buffer : Bytes) : GmM Unit := fun c =>
  .ok ((), { c with thread := { c.thread with pushed := .string buffer (2 ^ 8) :: c.thread.pushed } })

/-- `GMClassToStringMethodCallback`. -/
def gmClassToStringMethodCallback (toStringMethod : CodePtr → Nat → GmS (TextResult α)) (L : Nat) : GmS (Option α) := do
  let e ← toStringEnter L
  match e.1.toStringMethod with
  | some code => do
    let r ← toStringMethod code e.2
    vmAssert r.result "result"
    onThread gmView L (pushBuffer r.buffer)
    return some r.seen
  | none => do
    onThread gmView L (pushBuffer (classText e.1))
    return none

/-! ## Objects of the host -/

/-- The info of a class, through a pointer that may be `NULL`. -/
def classInfoOf (classDesc : ClassDesc) : GmM ClassDesc := do
  match findClassInfo (← get).world classDesc with
  | some classInfo => return classInfo
  | none => gmFail .nullDeref

/-- The info of a class, which is registered first if it is not. -/
def findOrRegister (classDesc : ClassDesc) : GmM ClassDesc := do
  match findClassInfo (← get).world classDesc with
  | some classInfo => return classInfo
  | none => do
    let _ ← registerUserClass classDesc
    classInfoOf classDesc

/-- `PushNewScriptObject`. -/
def GMScriptStack.pushNewScriptObject (st : GMScriptStack) (L : Nat) (classDesc : ClassDesc) (objectPtr : Option Nat) :
    GmS (Nat × GMScriptStack) := do
  vmAssert st.call.isNone "!m_call"
  let classInfo ← onThread gmView L (findOrRegister classDesc)
  let scriptObject ← onObjects fun o => .ok (o.next, o.new { classInfo := some classInfo })
  let type ← onThread gmView L (fun c => .ok (c.world.gmTypeId classInfo, c))
  let ref ← onThread gmView L (pushNewUser scriptObject type)
  onObjects fun o => (o.read scriptObject).map fun w =>
    ((), o.write scriptObject { w with userObject := some ref, objectPtr })
  return (scriptObject, st)

/-- The user object of a wrapper, with the type it was made with. -/
def pushUser (classInfo : Option ClassDesc) (ref : Nat) : GmM Unit := fun c =>
  match classInfo with
  | none => .error .uninitialised
  | some desc =>
    .ok ((), { c with thread := { c.thread with pushed := .user (c.world.gmTypeId desc) ref :: c.thread.pushed } })

/-- `PushScriptObject`. -/
def GMScriptStack.pushScriptObject (st : GMScriptStack) (L : Nat) (scriptObject : Nat) :
    GmS (Bool × GMScriptStack) := do
  vmAssert st.call.isNone "!m_call"
  let w ← onObjects fun o => (o.read scriptObject).map (·, o)
  match w.userObject with
  | none => fun _ => .error (.assertion "scriptObject->m_gmUserObject")
  | some ref => do
    onThread gmView L (pushUser w.classInfo ref)
    return (true, st)

/-! ## The call of a native function -/

/-- `BC_GETDOT` of a user object: a user type has no operator for it, so the variables
of the type are asked. -/
def getDot (w : GmWorld) (v : GmValue) (name : Bytes) : GmValue :=
  match v with
  | .user type _ => w.typeVariables type name
  | _ => .null

/-- `gmThread::PushStackFrame` for a native function: the value on top is what it
returns, null if nothing was pushed. -/
def callNative (L : Nat) (this : GmValue) (args : List GmValue) (callback : GmS α) : GmS (α × GmValue) := fun s =>
  match callback (s.setFrame L { this, params := args, pushed := [] }) with
  | .error e => .error e
  | .ok (a, s') => .ok ((a, (s'.frame L).result), s'.setFrame L (s.frame L))

/-- The same for a function whose thread may have been killed before it returns. The base
of the thread's frame is 0 then, and the result is stored below the stack. -/
def callNativeIn (L : Nat) (this : GmValue) (args : List GmValue) (callback : GmS α) : GmS (α × GmValue) := fun s =>
  match callback (s.setFrame L { this, params := args, pushed := [] }) with
  | .error e => .error e
  | .ok (a, s') =>
    if (s'.frame L).killed then .error .wildDeref else .ok ((a, (s'.frame L).result), s'.setFrame L (s.frame L))

end Callbacks

/-! ## What the callbacks find -/

open Act

variable {s : GmState} {L ref p i : Nat} {desc : ClassDesc}

/-- A callback's stack, made for a call with `n` parameters. -/
def callbackStack (n : Nat) : GMScriptStack := { numParams := n, numPopped := 0, call := none }

/-- An API call that only reads. -/
theorem onThread_reads {α : Type} {m : GmM α} {a : α} (h : m (s.context gmView L) = .ok (a, s.context gmView L)) :
    onThread gmView L m s = .ok (a, s) := by
  rw [onThread_ok h, setContext_self]

theorem newStack_ok :
    onThread gmView L GMScriptStack.ofThread s = .ok (callbackStack (s.frame L).params.length, s) :=
  onThread_reads rfl

theorem receiver_ok {type : Nat} {w : ScriptObject} (ht : (s.frame L).this = .user type ref)
    (hu : s.world.user ref = some p) (hw : s.objects.get p = some w) (ho : w.objectPtr.isSome = true) :
    receiver L s = .ok (p, s) := by
  have hthis : thisUser (s.context gmView L) = .ok (some p, s.context gmView L) := by
    have ht' : (s.context gmView L).thread.this = .user type ref := ht
    have hu' : (s.context gmView L).world.user ref = some p := hu
    simp only [thisUser, ht', hu']
  have hr : onObjects (fun o => (o.read p).map (·, o)) s = .ok (w, s) := by
    simp [onObjects, Objects.read_some hw, Except.map]
  rw [receiver, bind_ok (onThread_reads hthis)]
  simp only
  rw [bind_ok hr, ho]
  rfl

theorem functionEnter_ok {desc : FunctionDesc} :
    functionEnter L (.functionInfo desc) s
      = .ok ((desc.function, callbackStack (s.frame L).params.length), s) := by
  rw [functionEnter, bind_ok (onThread_reads rfl), bind_ok newStack_ok]
  rfl

theorem methodEnter_ok {type : Nat} {w : ScriptObject} {m : ClassMethodDesc} (ht : (s.frame L).this = .user type ref)
    (hu : s.world.user ref = some p) (hw : s.objects.get p = some w) (ho : w.objectPtr.isSome = true)
    (hm : desc.methods[i]? = some m) :
    methodEnter L (.methodInfo desc i) s
      = .ok ((m.method, p, callbackStack (s.frame L).params.length), s) := by
  have hcode : methodCode desc i (s.context gmView L) = .ok (m.method, s.context gmView L) := by
    simp only [methodCode, hm]
  rw [methodEnter, bind_ok (onThread_reads rfl), bind_ok (receiver_ok ht hu hw ho), bind_ok newStack_ok,
    bind_ok (onThread_reads hcode)]
  rfl

/-- The state in which a constructor of the class is called. -/
def GmState.constructing (s : GmState) (types : ClassDesc → Nat) (L : Nat) (desc : ClassDesc) : GmState where
  frame := Function.update s.frame L
    { s.frame L with pushed := .user (types desc) s.world.next :: (s.frame L).pushed }
  world := { s.world with
    next := s.world.next + 1
    user := fun r => if r = s.world.next then some s.objects.next else s.world.user r }
  objects := (s.objects.new { classInfo := some desc }).write s.objects.next
    { classInfo := some desc, userObject := some s.world.next }

theorem constructorEnter_ok {types : ClassDesc → Nat} :
    constructorEnter types L (.classInfo desc) s = .ok ((desc, s.objects.next,
      callbackStack (s.frame L).params.length), s.constructing types L desc) := by
  have hnew : onObjects (fun o => .ok (o.next, o.new { classInfo := some desc })) s
      = .ok (s.objects.next, { s with objects := s.objects.new { classInfo := some desc } }) := rfl
  have hstore : onObjects (fun o => (o.read s.objects.next).map fun w =>
        ((), o.write s.objects.next { w with userObject := some s.world.next }))
      { s.constructing types L desc with objects := s.objects.new { classInfo := some desc } }
      = .ok ((), s.constructing types L desc) := by
    simp [onObjects, Objects.read_some, Except.map, GmState.constructing]
  rw [constructorEnter, bind_ok (onThread_reads rfl), bind_ok hnew, bind_ok (onThread_ok rfl)]
  refine (bind_ok hstore).trans ?_
  rw [bind_ok newStack_ok]
  simp [GmState.constructing, pure_ok]

end MultiScript.GameMonkey
