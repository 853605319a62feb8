/-
The C functions the backend hands to Lua (`LuaScriptContext.cpp`). Lua passes
the thread that calls; the `LuaScriptStack` they make is built from the context
and works on the context's own `lua_State`, whichever thread calls.

What a user function does is a parameter, an action on the whole state.
-/
import MultiScript.Lua.Context
import MultiScript.Objects

namespace MultiScript.Lua

/-! ## Threads -/

/-- The running frame of a thread. -/
structure LuaFrame where
  func : LuaValue
  slots : List LuaValue
deriving DecidableEq, Repr

def luaView : FrameView LuaScriptContext LuaFrame LuaWorld where
  make f world := { func := f.func, slots := f.slots, world }
  frame c := { func := c.func, slots := c.slots }
  world c := c.world
  frame_make _ _ := rfl
  world_make _ _ := rfl
  make_eta _ := rfl

abbrev LuaState := VmState LuaFrame LuaWorld

abbrev LuaS := VmM LuaFrame LuaWorld

def luaFail {α : Type} (f : Fault) : LuaM α := fun _ => .error f

/-! ## What a callback reads first -/

/-- The first upvalue, as the pointer that was stored. -/
def upvaluePtr : LuaM HostPtr := fun c =>
  match index2adr c (.upvalue 1) with
  | .lightuserdata p => .ok (p, c)
  | .userdata _ => .error .wildDeref
  | _ => .error (.assertion "lua_isuserdata(L, lua_upvalueindex(1))")

def upvalueFunction : LuaM FunctionDesc := do
  match ← upvaluePtr with
  | .functionInfo desc => return desc
  | _ => luaFail .wildDeref

def upvalueClass : LuaM ClassDesc := do
  match ← upvaluePtr with
  | .classInfo desc => return desc
  | _ => luaFail .wildDeref

variable (vm : LuaVm)

/-- The second upvalue of a method's closure. -/
def upvalueIndex : LuaM Int := fun c =>
  match vm.tonumber (index2adr c (.upvalue 2)) with
  | some n => .ok (luaNumber2integer n, c)
  | none => .error (.assertion "lua_isnumber(L, lua_upvalueindex(2))")

/-- `PopObjectData`: the first argument, whatever userdata it is, is read as a
block that starts with a pointer to a wrapper. -/
def popObjectData : LuaM Nat := fun c =>
  match c.at 1 with
  | .userdata r =>
    match (c.world.heap.userdata r).block with
    | none => .error (.assertion "scriptObjectData && *scriptObjectData")
    | some p => (do
        luaRemove 1
        return p) c
  | .lightuserdata _ => .error .wildDeref
  | _ => .error (.assertion "lua_isuserdata(L, 1)")

/-- `m_methods[methodIndex].m_method`. -/
def methodCode (desc : ClassDesc) (methodIndex : Int) : LuaM CodePtr := fun c =>
  if methodIndex < 0 then .error .wildDeref
  else match desc.methods[methodIndex.toNat]? with
    | some m => .ok (m.method, c)
    | none => .error .wildDeref

/-- The table a class is called through is not an argument. -/
def ignoreMetatable : LuaM Unit := fun c =>
  match c.at 1 with
  | .table _ => luaRemove 1 c
  | _ => .error (.assertion "lua_type(L, 1) == LUA_TTABLE")

/-! ## Functions and methods -/

/-- `LuaFunctionCallback`, up to the call of the function. -/
def functionEnter (L : Nat) : LuaS (CodePtr × LuaScriptStack) := do
  let info ← onThread luaView L upvalueFunction
  let stack ← onThread luaView mainThread (LuaScriptStack.new false)
  return (info.function, stack)

/-- `LuaClassMethodCallback`, up to the call of the method. -/
def methodEnter (L : Nat) : LuaS (CodePtr × Nat × LuaScriptStack) := do
  let info ← onThread luaView L upvalueClass
  let methodIndex ← onThread luaView L (upvalueIndex vm)
  let scriptObject ← onThread luaView L popObjectData
  let stack ← onThread luaView mainThread (LuaScriptStack.new false)
  let code ← onThread luaView L (methodCode info methodIndex)
  return (code, scriptObject, stack)

/-- The end of both: the number of results. -/
def callbackLeave {α : Type} (r : UserResult α LuaScriptStack) : LuaS (α × Nat) := do
  vmAssert r.result "result"
  return (r.seen, r.stack.numPushed)

section Callbacks

variable {α : Type}

def luaFunctionCallback (function : CodePtr → LuaScriptStack → LuaS (UserResult α LuaScriptStack)) (L : Nat) :
    LuaS (α × Nat) := do
  let e ← functionEnter L
  callbackLeave (← function e.1 e.2)

def luaClassMethodCallback (method : CodePtr → Nat → LuaScriptStack → LuaS (UserResult α LuaScriptStack))
    (L : Nat) : LuaS (α × Nat) := do
  let e ← methodEnter vm L
  callbackLeave (← method e.1 e.2.1 e.2.2)

/-! ## Construction -/

/-- `lua_newuserdata`, with the pointer its block is given. -/
def luaNewuserdata (p : Nat) : LuaM Unit := fun c =>
  let h := c.world.heap
  let c := { c with slots := .userdata h.next :: c.slots }
  .ok ((), c.setHeap { h with
    next := h.next + 1
    userdata := fun r => if r = h.next then { block := some p, metatable := none } else h.userdata r })

/-- A userdata for the wrapper `p`, with the metatable kept under the class's name. -/
def newObjectData (name : Bytes) (p : Nat) : LuaM Unit := do
  luaNewuserdata p
  luaGetfield vm .registry name
  let c ← get
  match c.at (-1) with
  | .table _ => luaSetmetatable (-2)
  | _ => luaFail (.assertion "lua_type(L, -1) == LUA_TTABLE")

/-- `LuaClassConstructorCallback`, up to the call of the constructor. -/
def constructorEnter (L : Nat) : LuaS (ClassDesc × Nat × LuaScriptStack) := do
  let classInfo ← onThread luaView L upvalueClass
  onThread luaView L ignoreMetatable
  let scriptObject ← onObjects fun o => .ok (o.next, o.new {})
  let stack ← onThread luaView mainThread (LuaScriptStack.new false)
  return (classInfo, scriptObject, stack)

/-- The rest of it, after the constructor. -/
def constructorLeave (L : Nat) (desc : ClassDesc) (scriptObject : Nat) (stack : LuaScriptStack) : LuaS Nat := do
  let w ← onObjects fun o => (o.read scriptObject).map (·, o)
  vmAssert w.objectPtr.isSome "scriptObject->m_objectPtr"
  vmAssert (stack.numPushed == 0) "stack.m_numPushed == 0"
  onThread luaView L (newObjectData vm desc.name scriptObject)
  return 1

/-- `LuaClassConstructorCallback`. The class's constructor is never `NULL`:
`RegisterUserClass` has asserted that. -/
def luaClassConstructorCallback
    (constructor : Option CodePtr → LuaScriptStack → Nat → LuaS (α × LuaScriptStack)) (L : Nat) : LuaS (α × Nat) := do
  let e ← constructorEnter L
  let r ← constructor e.1.constructor e.2.2 e.2.1
  let n ← constructorLeave vm L e.1 e.2.1 r.2
  return (r.1, n)

/-! ## Destruction -/

/-- `LuaClassDestructorCallback`, up to the call of the destructor. -/
def destructorEnter (L : Nat) : LuaS (ClassDesc × Nat) := do
  let classInfo ← onThread luaView L upvalueClass
  let scriptObject ← onThread luaView L popObjectData
  changeObjects (·.lock scriptObject)
  return (classInfo, scriptObject)

/-- `LuaClassDestructorCallback`. -/
def luaClassDestructorCallback (destructor : Option CodePtr → Nat → LuaS α) (L : Nat) : LuaS (α × Nat) := do
  let e ← destructorEnter L
  let a ← destructor e.1.destructor e.2
  changeObjects (·.destroyed e.2)
  return (a, 0)

/-- `LuaClassGCCallback`, up to the call of the destructor: the wrapper and its class, or
no class where the wrapper is deleted at once. -/
def gcEnter (L : Nat) : LuaS (Nat × Option ClassDesc) := do
  let scriptObject ← onThread luaView L popObjectData
  let w ← readObject scriptObject
  if w.objectPtr.isNone then
    changeObjects (·.delete scriptObject)
    return (scriptObject, none)
  else
    let classInfo ← onThread luaView L upvalueClass
    if classInfo.garbageCollect then
      changeObjects (·.lock scriptObject)
      return (scriptObject, some classInfo)
    else
      changeObjects (·.delete scriptObject)
      return (scriptObject, none)

/-- `LuaClassGCCallback`. -/
def luaClassGCCallback (destructor : Option CodePtr → Nat → LuaS α) (L : Nat) : LuaS (Option α × Nat) := do
  match ← gcEnter L with
  | (_, none) => return (none, 0)
  | (scriptObject, some classInfo) => do
    let a ← destructor classInfo.destructor scriptObject
    changeObjects (·.delete scriptObject)
    return (some a, 0)

/-! ## Text -/

/-- `LuaClassToStringMethodCallback`, up to the call of the to-string method. -/
def toStringEnter (L : Nat) : LuaS (ClassDesc × Nat) := do
  let info ← onThread luaView L upvalueClass
  let scriptObject ← onThread luaView L popObjectData
  return (info, scriptObject)

/-- `LuaClassToStringMethodCallback`. The stack it makes is handed to nobody. -/
def luaClassToStringMethodCallback (toStringMethod : CodePtr → Nat → LuaS (TextResult α)) (L : Nat) :
    LuaS (Option α × Nat) := do
  let e ← toStringEnter L
  match e.1.toStringMethod with
  | some code => do
    let r ← toStringMethod code e.2
    vmAssert r.result "result"
    onThread luaView L (luaPushstring r.buffer)
    return (some r.seen, 1)
  | none => do
    onThread luaView L (luaPushstring (classText e.1))
    return (none, 1)

/-! ## Objects of the host -/

/-- The info of a class, through a pointer that may be `NULL`. -/
def classInfoOf (classDesc : ClassDesc) : LuaM ClassDesc := do
  match findClassInfo (← get).world classDesc with
  | some classInfo => return classInfo
  | none => luaFail .nullDeref

/-- The info of a class, which is registered first if it is not. -/
def findOrRegister (classDesc : ClassDesc) : LuaM ClassDesc := do
  match findClassInfo (← get).world classDesc with
  | some classInfo => return classInfo
  | none => do
    let _ ← registerUserClass vm classDesc
    classInfoOf classDesc

/-- `PushNewScriptObject`. -/
def LuaScriptStack.pushNewScriptObject (st : LuaScriptStack) (classDesc : ClassDesc) (objectPtr : Option Nat) :
    LuaS (Nat × LuaScriptStack) := do
  let classInfo ← onThread luaView mainThread (findOrRegister vm classDesc)
  let scriptObject ← onObjects fun o => .ok (o.next, o.new { objectPtr })
  onThread luaView mainThread (newObjectData vm classInfo.name scriptObject)
  return (scriptObject, { st with numPushed := st.numPushed + 1 })

/-- `PushScriptObject`, which is not written yet. -/
def LuaScriptStack.pushScriptObject (st : LuaScriptStack) (_scriptObject : Nat) : LuaS (Bool × LuaScriptStack) := do
  vmAssert false "false"
  return (false, { st with numPushed := st.numPushed + 1 })

/-! ## The call of a C function -/

/-- `luaD_precall` and `luaD_poscall` for a C function: a frame of its own, whose
top values are the results. A function that answers more of them than it has in
its frame hands out slots under it. -/
def callC (L : Nat) (f : LuaValue) (args : List LuaValue) (callback : LuaS (α × Nat)) :
    LuaS (α × List LuaValue) := fun s =>
  match callback (s.setFrame L { func := f, slots := args.reverse }) with
  | .error e => .error e
  | .ok ((a, n), s') =>
    let results := (((s'.frame L).slots ++ (s'.frame L).func :: (s.frame L).slots).take n).reverse
    .ok ((a, results), s'.setFrame L (s.frame L))

end Callbacks

/-! ## What the callbacks find -/

open Act

variable {vm} {s : LuaState} {c : LuaScriptContext} {L r u p i : Nat} {desc : ClassDesc} {v : LuaValue}
  {xs args : List LuaValue}

/-- A callback's stack, made while the context's own thread has `n` values. -/
def callbackStack (n : Nat) : LuaScriptStack := { numPushed := 0, numParams := n, isCall := false }

/-- The frame of the thread `L` after values were taken off it. -/
def LuaState.setSlots (s : LuaState) (L : Nat) (slots : List LuaValue) : LuaState :=
  s.setFrame L { s.frame L with slots }

theorem at_bottom (h : c.slots = xs ++ [v]) : c.at 1 = v := by
  have hlen : ¬ c.slots.length < 1 := by simp [h]
  have hdepth : c.depth 1 = xs.length := by simp [LuaScriptContext.depth, h]
  simp only [LuaScriptContext.at, hdepth]
  rw [if_neg (by rintro ⟨-, hlt⟩; omega), h, List.append_assoc]
  simp

theorem luaRemove_bottom (h : c.slots = xs ++ [v]) : luaRemove 1 c = .ok ((), { c with slots := xs }) := by
  have hdepth : c.depth 1 = xs.length := by simp [LuaScriptContext.depth, h]
  simp only [luaRemove, hdepth, h]
  rw [List.eraseIdx_append_of_length_le (Nat.le_refl _)]
  simp

theorem upvalues_closure {f : LuaCFunction} {ups : List LuaValue} (hf : c.func = .function r)
    (hc : c.world.heap.closure r = .c f ups) : c.upvalues = ups := by
  simp only [LuaScriptContext.upvalues, hf, hc]

theorem upvalueFunction_ok {desc : FunctionDesc} {f : LuaCFunction} (hf : c.func = .function r)
    (hc : c.world.heap.closure r = .c f [.lightuserdata (.functionInfo desc)]) :
    upvalueFunction c = .ok (desc, c) := by
  have hp : upvaluePtr c = .ok (.functionInfo desc, c) := by
    simp [upvaluePtr, index2adr, upvalues_closure hf hc]
  rw [upvalueFunction, bind_ok hp]
  rfl

theorem upvalueClass_ok {f : LuaCFunction} {ups : List LuaValue} (hf : c.func = .function r)
    (hc : c.world.heap.closure r = .c f (.lightuserdata (.classInfo desc) :: ups)) :
    upvalueClass c = .ok (desc, c) := by
  have hp : upvaluePtr c = .ok (.classInfo desc, c) := by
    simp [upvaluePtr, index2adr, upvalues_closure hf hc]
  rw [upvalueClass, bind_ok hp]
  rfl

theorem upvalueIndex_ok {f : LuaCFunction} {info : LuaValue} (hf : c.func = .function r)
    (hc : c.world.heap.closure r = .c f [info, .number (.ofInt i)]) (hi : IsInt32 i) :
    upvalueIndex vm c = .ok ((i : Int), c) := by
  have hu : index2adr c (.upvalue 2) = .number (.ofInt i) := by simp [index2adr, upvalues_closure hf hc]
  simp only [upvalueIndex, hu, LuaVm.tonumber, luaNumber2integer_ofInt hi]

theorem popObjectData_ok (hs : c.slots = xs ++ [.userdata u]) (hb : (c.world.heap.userdata u).block = some p) :
    popObjectData c = .ok (p, { c with slots := xs }) := by
  simp only [popObjectData, at_bottom hs, hb]
  rw [bind_ok (luaRemove_bottom hs)]
  rfl

theorem methodCode_ok {m : ClassMethodDesc} (hm : desc.methods[i]? = some m) :
    methodCode desc i c = .ok (m.method, c) := by
  have hpos : ¬ (i : Int) < 0 := by omega
  simp only [methodCode, if_neg hpos, Int.toNat_natCast, hm]

theorem setContext_slots : s.setContext luaView L { s.context luaView L with slots := xs } = s.setSlots L xs := rfl

theorem newStack_ok : onThread luaView mainThread (LuaScriptStack.new false) s
    = .ok (callbackStack (s.frame mainThread).slots.length, s) := by
  have h : LuaScriptStack.new false (s.context luaView mainThread)
      = .ok (callbackStack (s.frame mainThread).slots.length, s.context luaView mainThread) := rfl
  rw [onThread_ok h, setContext_self]

/-- An API call that only reads. -/
theorem onThread_reads {α : Type} {m : LuaM α} {a : α} (h : m (s.context luaView L) = .ok (a, s.context luaView L)) :
    onThread luaView L m s = .ok (a, s) := by
  rw [onThread_ok h, setContext_self]

theorem functionEnter_ok {desc : FunctionDesc} {f : LuaCFunction} (hf : (s.frame L).func = .function r)
    (hc : s.world.heap.closure r = .c f [.lightuserdata (.functionInfo desc)]) :
    functionEnter L s = .ok ((desc.function, callbackStack (s.frame mainThread).slots.length), s) := by
  rw [functionEnter, bind_ok (onThread_reads (upvalueFunction_ok hf hc)), bind_ok newStack_ok]
  rfl

theorem methodEnter_ok {f : LuaCFunction} {m : ClassMethodDesc} (hf : (s.frame L).func = .function r)
    (hc : s.world.heap.closure r = .c f [.lightuserdata (.classInfo desc), .number (.ofInt i)])
    (hs : (s.frame L).slots = args.reverse ++ [.userdata u]) (hb : (s.world.heap.userdata u).block = some p)
    (hm : desc.methods[i]? = some m) (hi : IsInt32 i) :
    methodEnter vm L s = .ok ((m.method, p,
      callbackStack ((s.setSlots L args.reverse).frame mainThread).slots.length), s.setSlots L args.reverse) := by
  have hpop : popObjectData (s.context luaView L)
      = .ok (p, { s.context luaView L with slots := args.reverse }) := popObjectData_ok hs hb
  rw [methodEnter, bind_ok (onThread_reads (upvalueClass_ok hf hc)),
    bind_ok (onThread_reads (upvalueIndex_ok hf hc hi)),
    bind_ok (onThread_ok hpop), setContext_slots, bind_ok newStack_ok, bind_ok (onThread_reads (methodCode_ok hm))]
  rfl

theorem constructorEnter_ok {f : LuaCFunction} {m : Nat} (hf : (s.frame L).func = .function r)
    (hc : s.world.heap.closure r = .c f [.lightuserdata (.classInfo desc)])
    (hs : (s.frame L).slots = args.reverse ++ [.table m]) :
    constructorEnter L s = .ok ((desc, s.objects.next,
      callbackStack ((s.setSlots L args.reverse).frame mainThread).slots.length),
      { s.setSlots L args.reverse with objects := s.objects.new {} }) := by
  have hig : ignoreMetatable (s.context luaView L)
      = .ok ((), { s.context luaView L with slots := args.reverse }) := by
    have hs' : (s.context luaView L).slots = args.reverse ++ [.table m] := hs
    simp only [ignoreMetatable, at_bottom hs']
    exact luaRemove_bottom hs'
  have hnew : onObjects (fun o => .ok (o.next, o.new {})) (s.setSlots L args.reverse)
      = .ok (s.objects.next, { s.setSlots L args.reverse with objects := s.objects.new {} }) := rfl
  rw [constructorEnter, bind_ok (onThread_reads (upvalueClass_ok hf hc)), bind_ok (onThread_ok hig), setContext_slots,
    bind_ok hnew, bind_ok newStack_ok]
  rfl

end MultiScript.Lua
