/-
The Lua backend: `LuaScriptContext.cpp` and `LuaScriptStack.cpp`. A
`LuaScriptStack` has no storage of its own. It counts, and works on whatever
frame of the context's only `lua_State` is on top when it is used.
-/
import MultiScript.Lua.Api

namespace MultiScript.Lua

variable (vm : LuaVm)

/-! ## The context -/

/-- `CreateContext`, over the heap `luaL_openlibs` fills. -/
def createContext (heap : LuaHeap) : LuaScriptContext :=
  { func := .nil, slots := [],
    world := { heap, functions := [], classes := [], logger := none, logged := [] } }

def setLogger (logger : Option Nat) : LuaM Unit :=
  modify fun c => { c with world := { c.world with logger } }

def luaAssert (cond : Bool) (text : String) : LuaM Unit := fun c =>
  (multiScriptAssert cond text).map fun _ => ((), c)

/-- `m_logger->Output(text, ...)`, through a pointer that may be `NULL`. -/
def loggerOutput (text : Bytes) (args : List (Option Bytes)) : LuaM Unit := fun c =>
  match c.world.logger with
  | none => .error .nullDeref
  | some _ => .ok ((), { c with world := { c.world with logged := c.world.logged ++ [{ text, args }] } })

def LuaError.format : LuaError → Bytes
  | .errRun => cstr "EXECUTION ERROR:\n%s\n"
  | .errSyntax => cstr "SYNTAX ERROR: %s\n"
  | .errMem => cstr "MEMORY ERROR: %s\n"
  | .errErr => cstr "ERROR in ERROR HANDLER: %s\n"

/-- `LuaCall(numArgs, LUA_MULTRET)`. The error message is logged, not popped. -/
def luaCall (numArgs : Nat) : LuaM Bool := do
  match ← luaPcall vm numArgs with
  | none => return true
  | some status =>
    let errorMessage ← luaTolstring vm (-1)
    loggerOutput status.format [errorMessage]
    return false

/-- `ExecuteString`. What `luaL_loadstring` answers is not looked at: on a
syntax error it is the message that gets called. -/
def executeString (string : Bytes) : LuaM Bool := do
  let _ ← luaLLoadstring vm string
  luaCall vm 0

def registerFunction (desc : FunctionDesc) : LuaM Bool := do
  luaPushlightuserdata (.functionInfo desc)
  luaPushcclosure .functionCallback 1
  luaSetfield vm .globals desc.name
  modify fun c => { c with world := { c.world with functions := c.world.functions ++ [desc] } }
  return true

/-- A name and a closure of the backend over `upvalues` are pushed, and set in
the table at `idx`. -/
def setClosure (idx : LuaIndex) (name : Bytes) (f : LuaCFunction) (upvalues : List LuaValue) :
    LuaM Unit := do
  luaPushstring name
  upvalues.forM luaPush
  luaPushcclosure f upvalues.length
  luaSettable vm idx

/-- A name and the value in a slot are pushed, and set in the table at `idx`. -/
def setValue (idx : LuaIndex) (name : Bytes) (slot : Int) : LuaM Unit := do
  luaPushstring name
  luaPushvalue slot
  luaSettable vm idx

/-- The optional destruction callback of a class that is not collected. -/
def setDestroy (methods : LuaIndex) (desc : ClassDesc) (info : LuaValue) : LuaM Unit :=
  if desc.garbageCollect then pure ()
  else setClosure vm methods (cstr "Destroy") .classDestructorCallback [info]

def registerUserClass (desc : ClassDesc) : LuaM Bool := do
  luaAssert desc.constructor.isSome "desc->m_constructor"
  luaAssert desc.destructor.isSome "desc->m_destructor"
  let info : LuaValue := .lightuserdata (.classInfo desc)
  luaNewtable
  let methods ← luaGettop
  let _ ← luaLNewmetatable vm desc.name
  let metatable ← luaGettop
  setValue vm .globals desc.name methods
  setValue vm (.stack metatable) (cstr "__metatable") methods
  setValue vm (.stack metatable) (cstr "__index") methods
  setClosure vm (.stack metatable) (cstr "__tostring") .classToStringMethodCallback [info]
  setClosure vm (.stack metatable) (cstr "__gc") .classGCCallback [info]
  setDestroy vm (.stack methods) desc info
  luaNewtable
  let mt ← luaGettop
  setClosure vm (.stack mt) (cstr "__call") .classConstructorCallback [info]
  luaSetmetatable methods
  desc.methods.zipIdx.forM fun (method, i) =>
    setClosure vm (.stack methods) method.name .classMethodCallback [info, .number (.ofInt i)]
  luaPop 2
  let top ← luaGettop
  luaAssert (top == 0) "lua_gettop(L) == 0"
  modify fun c => { c with world := { c.world with classes := c.world.classes ++ [desc] } }
  return true

/-- `FindClassInfo` compares descriptors by address. -/
def findClassInfo (w : LuaWorld) (classDesc : ClassDesc) : Option ClassDesc :=
  w.classes.find? (·.addr == classDesc.addr)

/-! ## The stack -/

structure LuaScriptStack where
  numPushed : Nat
  numParams : Int
  isCall : Bool
deriving DecidableEq, Repr

namespace LuaScriptStack

/-- The constructor. -/
def new (isCall : Bool) : LuaM LuaScriptStack := do
  let top ← luaGettop
  return { numPushed := 0, numParams := if isCall then 0 else top, isCall }

def getNumParams (st : LuaScriptStack) : Int := st.numParams

/-- `PopInt(value)`: the answer, and the out-parameter after the call. -/
def popInt (st : LuaScriptStack) (value : Int) : LuaM ((Bool × Int) × LuaScriptStack) := fun c =>
  match vm.tonumber (c.at (-1)) with
  | none => .ok (((false, value), st), c)
  | some n => (do
      luaPop 1
      return ((true, luaNumber2integer n), { st with numParams := st.numParams - 1 })) c

/-- `PopScriptObject`. A light userdata passes `lua_isuserdata` too, and is then
read as if it were a block. -/
def popScriptObject (st : LuaScriptStack) : LuaM (Option Nat × LuaScriptStack) := fun c =>
  match c.at (-1) with
  | .userdata r =>
    match (c.world.heap.userdata r).block with
    | none => .error (.assertion "scriptObjectPtr && *scriptObjectPtr")
    | some p => (do
        luaPop 1
        return (some p, { st with numParams := st.numParams - 1 })) c
  | .lightuserdata _ => .error .wildDeref
  | _ => .ok ((none, st), c)

def pushInt (st : LuaScriptStack) (value : Int) : LuaM (Bool × LuaScriptStack) := do
  luaPushinteger value
  return (true, { st with numPushed := st.numPushed + 1 })

def pushString (st : LuaScriptStack) (string : Bytes) (length : Int) : LuaM (Bool × LuaScriptStack) := do
  luaPushstring (pushedBytes string length)
  return (true, { st with numPushed := st.numPushed + 1 })

def endCall (st : LuaScriptStack) : LuaM (Bool × LuaScriptStack) := do
  luaAssert st.isCall "m_isCall"
  if ← luaCall vm st.numPushed then
    let top ← luaGettop
    return (true, { st with numParams := top })
  else
    return (false, st)

/-- `ReleaseAfterCall`: the handle goes, the frame stays. -/
def releaseAfterCall (st : LuaScriptStack) : LuaM Unit :=
  luaAssert st.isCall "m_isCall"

def push (st : LuaScriptStack) : Push → LuaM (Bool × LuaScriptStack)
  | .int value => st.pushInt value
  | .string string length => st.pushString string length

def pop (st : LuaScriptStack) : Pop → LuaM (Answer × LuaScriptStack)
  | .int => do
    let r ← st.popInt vm 0
    return (.ofPopInt r.1, r.2)
  | .scriptObject => do
    let r ← st.popScriptObject
    return (.object r.1, r.2)

end LuaScriptStack

/-- What is left on the stack is read as a string, and read through `NULL` if it
is none. -/
def readLeftover : LuaM Unit := fun c =>
  if c.slots = [] then .ok ((), c)
  else match luaTolstring vm (-1) c with
    | .ok (some _, c') => .ok ((), c')
    | .ok (none, _) => .error .nullDeref
    | .error f => .error f

def beginCall (name : Bytes) : LuaM (Option LuaScriptStack) := do
  readLeftover vm
  luaAssert ((← luaGettop) == 0) "lua_gettop(L) == 0"
  luaGetfield vm .globals name
  if ((← get).at (-1)).isFunction then
    return some (← LuaScriptStack.new true)
  else
    luaPop 1
    return none

/-! ## What the operations do to the frame -/

open Act

variable {vm} {c : LuaScriptContext} {f : LuaValue} {slots rest : List LuaValue}

@[simp] theorem luaAssert_true (text : String) : luaAssert true text c = .ok ((), c) := rfl

@[simp] theorem luaAssert_false (text : String) :
    luaAssert false text c = .error (.assertion text) := rfl

theorem luaAssert_inv {cond : Bool} {text : String} {u : Unit} {c' : LuaScriptContext}
    (h : luaAssert cond text c = .ok (u, c')) : cond = true ∧ c' = c := by
  cases cond with
  | true =>
    cases h
    exact ⟨rfl, rfl⟩
  | false => cases h

/-- The faults of a host call that are not the stack-empty assertion. -/
def NotStackAssertion (f : Fault) : Prop := f ≠ .assertion "lua_gettop(L) == 0"

instance : DecidablePred NotStackAssertion := fun f => inferInstanceAs (Decidable (f ≠ _))

theorem notStackAssertion_scriptError : ∀ f : Fault, f = .scriptError → NotStackAssertion f := by
  rintro _ rfl h
  cases h

theorem forM_luaPush_frame : ∀ (ups : List LuaValue) {c : LuaScriptContext} {slots : List LuaValue},
    FrameIs c f slots →
    Ends (ups.forM luaPush) c (fun _ c' => FrameIs c' f (ups.reverse ++ slots)) (· = .scriptError)
  | [], _, _, h => .pure h
  | u :: ups, _, slots, h => by
    refine (luaPush_frame h).bind fun _ c' h' => ?_
    refine (forM_luaPush_frame ups h').mono fun _ c'' h'' => ?_
    rw [List.reverse_cons, List.append_assoc]
    exact h''

theorem setClosure_frame {idx : LuaIndex} {name : Bytes} {fn : LuaCFunction} {ups : List LuaValue}
    (h : FrameIs c f slots) :
    Ends (setClosure vm idx name fn ups) c (fun _ c' => FrameIs c' f slots) (· = .scriptError) := by
  refine Ends.bind (luaPush_frame h) fun _ c₁ h₁ => ?_
  refine (forM_luaPush_frame ups h₁).bind fun _ c₂ h₂ => ?_
  rw [← List.length_reverse]
  refine (luaPushcclosure_frame _ h₂).bind fun _ c₃ ⟨r, h₃⟩ => ?_
  exact luaSettable_frame h₃

theorem setValue_frame {idx : LuaIndex} {name : Bytes} {slot : Int} (h : FrameIs c f slots) :
    Ends (setValue vm idx name slot) c (fun _ c' => FrameIs c' f slots) (· = .scriptError) := by
  refine Ends.bind (luaPush_frame h) fun _ c₁ h₁ => ?_
  refine (luaPushvalue_frame h₁).bind fun _ c₂ ⟨v, h₂⟩ => ?_
  exact luaSettable_frame h₂

theorem setDestroy_frame {methods : LuaIndex} {desc : ClassDesc} {info : LuaValue}
    (h : FrameIs c f slots) :
    Ends (setDestroy vm methods desc info) c (fun _ c' => FrameIs c' f slots) (· = .scriptError) := by
  unfold setDestroy
  split
  · exact .pure h
  · exact setClosure_frame h

theorem registerFunction_frame {desc : FunctionDesc} (h : FrameIs c f slots) :
    Ends (registerFunction vm desc) c (fun _ c' => FrameIs c' f slots) (· = .scriptError) := by
  refine Ends.bind (luaPush_frame h) fun _ c₁ h₁ => ?_
  refine Ends.bind (luaPushcclosure_frame [.lightuserdata (.functionInfo desc)] h₁)
    fun _ c₂ ⟨r, h₂⟩ => ?_
  refine (luaSetfield_frame h₂).bind fun _ c₃ h₃ => ?_
  exact .of_ok rfl ⟨h₃.func, h₃.slots⟩

/-- A call that returns leaves its results, and nothing else, in place of the
function and its arguments. -/
theorem luaCall_returned (args : List LuaValue) {results : List LuaValue} {world : LuaWorld}
    (h : c.slots = args.reverse ++ f :: rest) (hcall : vm.call f args c.world = (.returned results, world)) :
    luaCall vm args.length c = .ok (true, { c with world, slots := results.reverse ++ rest }) := by
  have htake : c.slots.take args.length = args.reverse := by simp [h]
  have hdrop : c.slots.drop args.length = f :: rest := by simp [h]
  have hp : luaPcall vm args.length c
      = .ok (none, { c with world, slots := results.reverse ++ rest }) := by
    simp only [luaPcall, htake, hdrop, List.reverse_reverse, hcall]
  rw [luaCall, bind_ok hp]
  rfl

/-- A call that raises leaves the error message, logged and not popped; without
a logger the host does not come back from it. -/
theorem luaCall_raised {message : LuaValue} (args : List LuaValue) {status : LuaError}
    {world : LuaWorld} (h : c.slots = args.reverse ++ f :: rest)
    (hcall : vm.call f args c.world = (.raised status message, world)) :
    Ends (luaCall vm args.length) c (fun ok c'' => ok = false ∧ ∃ m, FrameIs c'' c.func (m :: rest))
      (· = .nullDeref) := by
  have htake : c.slots.take args.length = args.reverse := by simp [h]
  have hdrop : c.slots.drop args.length = f :: rest := by simp [h]
  have hp : luaPcall vm args.length c
      = .ok (some status, { c with world, slots := message :: rest }) := by
    simp only [luaPcall, htake, hdrop, List.reverse_reverse, hcall]
  refine Ends.bind (Q := fun a s => a = some status ∧ FrameIs s c.func (message :: rest))
    (.of_ok hp ⟨rfl, rfl, rfl⟩) ?_
  rintro _ c₁ ⟨rfl, h₁⟩
  refine (luaTolstring_frame h₁).bind fun text c₂ ⟨m, h₂⟩ => ?_
  refine Ends.bind (Q := fun _ s => FrameIs s c.func (m :: rest)) ?_ fun _ c₃ h₃ => .pure ⟨rfl, m, h₃⟩
  unfold Ends loggerOutput
  cases c₂.world.logger with
  | none => rfl
  | some _ => exact ⟨h₂.func, h₂.slots⟩

theorem endCall_returned {st : LuaScriptStack} {args results : List LuaValue}
    {world : LuaWorld} (hst : st.isCall = true) (hn : st.numPushed = args.length)
    (h : c.slots = args.reverse ++ f :: rest) (hcall : vm.call f args c.world = (.returned results, world)) :
    st.endCall vm c = .ok ((true, { st with numParams := (results.reverse ++ rest).length }),
      { c with world, slots := results.reverse ++ rest }) := by
  have ha : luaAssert st.isCall "m_isCall" c = .ok ((), c) := by rw [hst]; rfl
  rw [LuaScriptStack.endCall, bind_ok ha, hn, bind_ok (luaCall_returned _ h hcall)]
  rfl

theorem endCall_raised {st : LuaScriptStack} {message : LuaValue} {args : List LuaValue}
    {status : LuaError} {world : LuaWorld} (hst : st.isCall = true)
    (hn : st.numPushed = args.length) (h : c.slots = args.reverse ++ f :: rest)
    (hcall : vm.call f args c.world = (.raised status message, world)) :
    Ends (st.endCall vm) c (fun r c'' => r = (false, st) ∧ ∃ m, FrameIs c'' c.func (m :: rest))
      (· = .nullDeref) := by
  have ha : luaAssert st.isCall "m_isCall" c = .ok ((), c) := by rw [hst]; rfl
  refine Ends.bind (Q := fun _ s => s = c) (.of_ok ha rfl) ?_
  rintro _ _ rfl
  rw [hn]
  refine (luaCall_raised _ h hcall).bind ?_
  rintro _ c₁ ⟨rfl, hm⟩
  exact .pure ⟨rfl, hm⟩

/-- The lookup of a name in the globals, metamethods included. -/
def lookupGlobal (vm : LuaVm) (name : Bytes) (w : LuaWorld) : Except Fault (LuaValue × LuaWorld) :=
  luaVGettable vm (.table w.heap.globals) (.string name) w

theorem luaGetfield_globals {name : Bytes} {v : LuaValue} {world : LuaWorld}
    (h : lookupGlobal vm name c.world = .ok (v, world)) :
    luaGetfield vm .globals name c = .ok ((), { c with world, slots := v :: c.slots }) := by
  unfold luaGetfield index2adr
  rw [show luaVGettable vm _ _ c.world = .ok (v, world) from h]
  rfl

/-- `BeginCall` on a stack that is not empty does not return. -/
theorem beginCall_leftover (vm : LuaVm) (name : Bytes) (h : c.slots ≠ []) :
    beginCall vm name c = .error .nullDeref ∨
      beginCall vm name c = .error (.assertion "lua_gettop(L) == 0") := by
  obtain ⟨v, rest, hs⟩ := List.exists_cons_of_ne_nil h
  have ht : Ends (luaTolstring vm (-1)) c (fun _ c' => ∃ w, FrameIs c' c.func (w :: rest)) fun _ => False :=
    luaTolstring_frame ⟨rfl, hs⟩
  unfold Ends at ht
  cases hm : luaTolstring vm (-1) c with
  | error f => rw [hm] at ht; exact ht.elim
  | ok r =>
    rw [hm] at ht
    obtain ⟨s, c₁⟩ := r
    obtain ⟨w, hw⟩ := ht
    cases s with
    | none =>
      have hr : readLeftover vm c = .error .nullDeref := by rw [readLeftover, if_neg h, hm]
      exact .inl (bind_error hr)
    | some s =>
      have hr : readLeftover vm c = .ok ((), c₁) := by rw [readLeftover, if_neg h, hm]
      refine .inr ?_
      rw [beginCall, bind_ok hr, bind_ok luaGettop_ok]
      refine bind_error ?_
      rw [hw.slots]
      rfl

/-- `BeginCall` from an empty frame, by what the name is bound to. -/
theorem beginCall_empty {name : Bytes} (h : c.slots = []) :
    beginCall vm name c = match lookupGlobal vm name c.world with
      | .error g => .error g
      | .ok (v, world) =>
        if v.isFunction then .ok (some { numPushed := 0, numParams := 0, isCall := true },
          { c with world, slots := [v] })
        else .ok (none, { c with world }) := by
  have hr : readLeftover vm c = .ok ((), c) := if_pos h
  have ha : luaAssert (c.slots.length == 0) "lua_gettop(L) == 0" c = .ok ((), c) := by rw [h]; rfl
  rw [beginCall, bind_ok hr, bind_ok luaGettop_ok, bind_ok ha]
  cases hl : lookupGlobal vm name c.world with
  | error g =>
    have hg : luaGetfield vm .globals name c = .error g := by
      unfold luaGetfield index2adr
      rw [show luaVGettable vm _ _ c.world = .error g from hl]
      rfl
    exact bind_error hg
  | ok r =>
    obtain ⟨v, world⟩ := r
    have hat : ({ c with world, slots := v :: c.slots } : LuaScriptContext).at (-1) = v := at_top rfl
    rw [bind_ok (luaGetfield_globals hl), bind_get, hat]
    cases hv : v.isFunction with
    | true => simp only [hv, if_true, h]; rfl
    | false =>
      have hp : luaPop 1 { c with world, slots := v :: c.slots } = .ok ((), { c with world }) := by
        rw [luaPop_ok (by simp)]; rfl
      simp only [hv, Bool.false_eq_true, if_false]
      rw [bind_ok hp]
      rfl

/-- From an empty frame `BeginCall` reads no slot it has not pushed, and only an
error raised by the lookup of the name keeps it from returning. -/
theorem beginCall_fault {name : Bytes} {g : Fault} (h : c.slots = []) (hb : beginCall vm name c = .error g) :
    g = .scriptError := by
  rw [beginCall_empty h] at hb
  cases hl : lookupGlobal vm name c.world with
  | error g' =>
    rw [hl] at hb
    cases hb
    exact luaVGettable_fault hl
  | ok r =>
    rw [hl] at hb
    simp only at hb
    split at hb <;> cases hb

theorem luaAssert_ends {cond : Bool} {text : String} {E : Fault → Prop} (h : E (.assertion text)) :
    Ends (luaAssert cond text) c (fun _ c' => c' = c) E := by
  cases cond with
  | true => exact .of_ok rfl rfl
  | false => exact h

/-- A class registration returns only from an empty frame, to an empty frame. It fails
to return by a script error or by one of its assertions. -/
theorem registerUserClass_ends {desc : ClassDesc} {E : Fault → Prop} (h : FrameIs c f slots) (hscript : E .scriptError)
    (hctor : E (.assertion "desc->m_constructor")) (hdtor : E (.assertion "desc->m_destructor"))
    (htop : slots ≠ [] → E (.assertion "lua_gettop(L) == 0")) :
    Ends (registerUserClass vm desc) c (fun _ c' => slots = [] ∧ FrameIs c' f []) E := by
  have hset : ∀ {α : Type} {m : LuaM α} {c : LuaScriptContext} {Q : α → LuaScriptContext → Prop},
      Ends m c Q (· = .scriptError) → Ends m c Q E :=
    fun hm => hm.faults fun g hg => hg ▸ hscript
  refine (luaAssert_ends hctor).bind fun _ _ e => e ▸ ?_
  refine (luaAssert_ends hdtor).bind fun _ _ e => e ▸ ?_
  refine (hset (luaNewtable_frame h)).bind fun _ c₁ ⟨m, h₁⟩ => ?_
  refine Ends.bind (Q := fun _ c' => c' = c₁) (.of_ok rfl rfl) fun methods _ e => e ▸ ?_
  refine (hset (luaLNewmetatable_frame h₁)).bind fun _ c₂ ⟨mt, h₂⟩ => ?_
  refine Ends.bind (Q := fun _ c' => c' = c₂) (.of_ok rfl rfl) fun metatable _ e => e ▸ ?_
  -- from here to the last pop every step leaves the metatable over the methods
  refine (hset (setValue_frame h₂)).bind fun _ c₃ h₃ => ?_
  refine (hset (setValue_frame h₃)).bind fun _ c₄ h₄ => ?_
  refine (hset (setValue_frame h₄)).bind fun _ c₅ h₅ => ?_
  refine (hset (setClosure_frame h₅)).bind fun _ c₆ h₆ => ?_
  refine (hset (setClosure_frame h₆)).bind fun _ c₇ h₇ => ?_
  refine (hset (setDestroy_frame h₇)).bind fun _ c₈ h₈ => ?_
  refine (hset (luaNewtable_frame h₈)).bind fun _ c₉ ⟨t, h₉⟩ => ?_
  refine Ends.bind (Q := fun _ c' => c' = c₉) (.of_ok rfl rfl) fun top _ e => e ▸ ?_
  refine (hset (setClosure_frame h₉)).bind fun _ c₁₀ h₁₀ => ?_
  refine (hset (luaSetmetatable_frame h₁₀)).bind fun _ c₁₁ h₁₁ => ?_
  refine (Ends.forM (fun _ _ hc => hset (setClosure_frame hc)) _ h₁₁).bind fun _ c₁₂ h₁₂ => ?_
  refine Ends.bind (luaPop_frame h₁₂ (by simp)) fun _ c₁₃ h₁₃ => ?_
  have hslots : c₁₃.slots = slots := h₁₃.slots
  refine Ends.bind (Q := fun a c' => a = slots.length ∧ c' = c₁₃) (.of_ok rfl ⟨by rw [hslots], rfl⟩) ?_
  rintro _ c₁₄ ⟨rfl, rfl⟩
  cases slots with
  | nil => exact .of_ok rfl ⟨rfl, h₁₃.func, h₁₃.slots⟩
  | cons v vs =>
    have hfalse : luaAssert ((v :: vs).length == 0) "lua_gettop(L) == 0" c₁₄ =
      .error (.assertion "lua_gettop(L) == 0") := rfl
    unfold Ends
    rw [bind_error hfalse]
    exact htop (by simp)

/-- From an empty frame the assertion that the frame is empty holds. -/
theorem registerUserClass_returns {desc : ClassDesc} (h : FrameIs c f slots) :
    Ends (registerUserClass vm desc) c (fun _ c' => slots = [] ∧ FrameIs c' f [])
      (fun g => slots = [] → NotStackAssertion g) :=
  registerUserClass_ends h (fun _ => by decide) (fun _ => by decide) (fun _ => by decide) fun hne he => absurd he hne

theorem registerUserClass_frame {desc : ClassDesc} (h : FrameIs c f []) :
    Ends (registerUserClass vm desc) c (fun _ c' => FrameIs c' f []) NotStackAssertion :=
  ((registerUserClass_returns h).mono fun _ _ hc => hc.2).faults fun _ hg => hg rfl

end MultiScript.Lua
