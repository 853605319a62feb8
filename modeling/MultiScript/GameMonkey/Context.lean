/-
The GameMonkey backend: `GMScriptContext.cpp` and `GMScriptStack.cpp`, with what
they use of `gmThread.h` and `gmCall.h`. A callback works on the frame of the
thread that called it, by index from its base; a call from the host has a thread
of its own. So the values of two handles never share a stack.
-/
import MultiScript.Formats
import MultiScript.Lib.Act

namespace MultiScript.GameMonkey

/-! ## The machine -/

/-- `GM_USER`, the first type number of a user type. -/
def gmUser : Nat := 6

/-- A string is known by what `gmMachine::AllocStringObject` was given for it: which object
that is depends on the strings there are. -/
inductive GmValue
  | null
  | int (n : Int)
  | float (x : FloatValue)
  | string (s : Bytes) (length : Int)
  | table (ref : Nat)
  | function (ref : Nat)
  | user (type : Nat) (ref : Nat)
deriving DecidableEq, Repr

/-- The C functions the backend hands to GameMonkey. -/
inductive GmCFunction
  | classConstructorCallback
  | classDestructorCallback
  | classToStringMethodCallback
  | classMethodCallback
  | functionCallback
deriving DecidableEq, Repr

/-- A `gmFunctionObject`: a function of the backend with its `m_cUserData`, or
anything else. -/
inductive GmFunctionObject
  | backend (f : GmCFunction) (userData : HostPtr)
  | other (code : Nat)
deriving DecidableEq, Repr

/-- All of a context but the frame a callback works in. `user` is the `m_user`
pointer of a `gmUserObject`, `log` the machine's own log. `types` counts the
types, `typeVariables` are the variables of each, and `gmTypeId` is the type in the
info of a class. -/
structure GmWorld where
  next : Nat
  globals : Bytes → GmValue
  function : Nat → GmFunctionObject
  user : Nat → Option Nat
  types : Nat
  typeVariables : Nat → Bytes → GmValue
  gmTypeId : ClassDesc → Nat
  functions : List FunctionDesc
  classes : List ClassDesc
  logger : Option Nat
  logged : List LogCall
  log : List Bytes

/-- The frame of the C function a thread is running: `this`, the parameters in
order, and what has been pushed over them, top first. A thread may be killed while
its function still runs. -/
structure GmThread where
  this : GmValue
  params : List GmValue
  pushed : List GmValue
  killed : Bool := false

/-- `gmThread::Sys_Reset`: no parameters are left, and the stack is empty. -/
def GmThread.sysReset : GmThread := { this := .null, params := [], pushed := [], killed := true }

structure GMScriptContext where
  thread : GmThread
  world : GmWorld

/-- The vendored machine outside the calls below: a function run to its end on a
thread of its own, `none` where it does not get there; and a script, with the
number of errors found in it. -/
structure GmVm where
  call : GmValue → List GmValue → GmWorld → Option GmValue × GmWorld
  executeString : Bytes → GmWorld → Nat × GmWorld

/-- Which calls of script functions kill the thread that waits in a C function for their
end (`gmKillThread` and `gmKillAllThreads` do, for a thread that is not their own). -/
abbrev Kills := GmValue → List GmValue → GmWorld → Bool

def Kills.never : Kills := fun _ _ _ => false

abbrev GmM := StateT GMScriptContext (Except Fault)

/-- `gmThread::ParamInt(param, value, 0)`: the answer, and the out-parameter. -/
def GmThread.paramInt (t : GmThread) (param : Int) : Bool × Int :=
  if t.params.length ≤ param then (true, 0)
  else match t.params.getD param.toNat .null with
    | .int n => (true, n)
    | _ => (false, 0)

/-- `gmThread::ParamUserObject`: the object found, `none` for a parameter that
is no user object and `some none` for one out of range. -/
def GmThread.paramUserObject (t : GmThread) (param : Int) : Option (Option Nat) :=
  if t.params.length ≤ param then some none
  else match t.params.getD param.toNat .null with
    | .user type ref => if gmUser ≤ type then some (some ref) else none
    | _ => none

/-- What a native function's caller gets: the value on top, or null if nothing
was pushed. -/
def GmThread.result (t : GmThread) : GmValue := t.pushed.headD .null

/-- `gmCall`: the function, the parameters on its thread in order, and what it
returned. -/
structure GmCall where
  function : GmValue
  params : List GmValue
  returnVar : Option GmValue
deriving DecidableEq, Repr

/-! ## The context -/

variable (vm : GmVm)

def gmAssert (cond : Bool) (text : String) : GmM Unit := fun c =>
  (multiScriptAssert cond text).map fun _ => ((), c)

/-- `CreateContext`, over what the machine binds when it is made: `gmMachineLib` has
taken the first user type, for `gmState`. The variables of these types are read nowhere. -/
def createContext (next : Nat) (globals : Bytes → GmValue) (function : Nat → GmFunctionObject) : GMScriptContext where
  thread := { this := .null, params := [], pushed := [] }
  world := { next, globals, function, user := fun _ => none, types := gmUser + 1, typeVariables := fun _ _ => .null,
             gmTypeId := fun _ => 0, functions := [], classes := [], logger := none, logged := [], log := [] }

/-- The buffer that `ExecuteString` formats a message into. -/
def messageBufferSize : Nat := 1024

/-- `MultiScriptSprintf(buffer, 1024, "%s\n", message)`. -/
def messageLine (message : Bytes) : Option Bytes :=
  Printf.sprintf convert messageBufferSize (cstr "%s\n") [.string (some message)]

/-- The loop over the messages of the machine's log. The logger is not tested. -/
def outputMessages : List Bytes → GmWorld → Except Fault GmWorld
  | [], w => .ok w
  | message :: messages, w =>
    match messageLine message, w.logger with
    | none, _ => .error .bufferOverrun
    | some _, none => .error .nullDeref
    | some buffer, some _ => outputMessages messages { w with logged := w.logged ++ [{ text := buffer }] }

/-- `ExecuteString`. The log is emptied only here. -/
def executeString (string : Bytes) : GmM Bool := fun c =>
  match vm.executeString string c.world with
  | (0, world) => .ok (true, { c with world })
  | (_ + 1, world) => (outputMessages world.log world).map fun w => (false, { c with world := { w with log := [] } })

def registerFunction (desc : FunctionDesc) : GmM Bool := do
  modify fun c =>
    let r := c.world.next
    { c with world := { c.world with
        next := r + 1
        function := fun r' => if r' = r then .backend .functionCallback (.functionInfo desc) else c.world.function r'
        globals := fun s => if s = desc.name then .function r else c.world.globals s
        functions := c.world.functions ++ [desc] } }
  return true

/-- `gmMachine::AllocFunctionObject`, with the user data stored into it. -/
def GmWorld.newFunction (w : GmWorld) (f : GmCFunction) (userData : HostPtr) : GmWorld :=
  { w with
    next := w.next + 1
    function := fun r => if r = w.next then .backend f userData else w.function r }

/-- `gmMachine::RegisterLibraryFunction(name, f, NULL, userData)`. -/
def GmWorld.registerLibraryFunction (w : GmWorld) (name : Bytes) (f : GmCFunction) (userData : HostPtr) : GmWorld :=
  { w.newFunction f userData with globals := fun s => if s = name then .function w.next else w.globals s }

/-- One entry of `gmMachine::RegisterTypeLibrary`. -/
def GmWorld.registerTypeFunction (w : GmWorld) (type : Nat) (entry : Bytes × GmCFunction × HostPtr) : GmWorld :=
  { w.newFunction entry.2.1 entry.2.2 with
    typeVariables := fun t s => if t = type ∧ s = entry.1 then .function w.next else w.typeVariables t s }

/-- `m_gmMethods`: the entries of a class. -/
def gmMethods (desc : ClassDesc) : List (Bytes × GmCFunction × HostPtr) :=
  desc.methods.zipIdx.map (fun (method, i) => (method.name, .classMethodCallback, .methodInfo desc i)) ++
    (cstr "AsString", .classToStringMethodCallback, .classInfo desc) ::
    if desc.garbageCollect then [] else [(cstr "Destroy", .classDestructorCallback, .classInfo desc)]

/-- `gmMachine::CreateUserType`, for the info of a class. -/
def GmWorld.createUserType (w : GmWorld) (desc : ClassDesc) : GmWorld :=
  { w with
    types := w.types + 1
    typeVariables := fun t s => if t = w.types then .null else w.typeVariables t s
    gmTypeId := fun d => if d = desc then w.types else w.gmTypeId d }

def registerUserClass (desc : ClassDesc) : GmM Bool := do
  gmAssert desc.constructor.isSome "desc->m_constructor"
  gmAssert desc.destructor.isSome "desc->m_destructor"
  modify fun c =>
    let type := c.world.types
    let w := (c.world.createUserType desc).registerLibraryFunction desc.name .classConstructorCallback (.classInfo desc)
    let w := (gmMethods desc).foldl (fun w entry => w.registerTypeFunction type entry) w
    { c with world := { w with classes := w.classes ++ [desc] } }
  return true

/-- `FindClassInfo` compares descriptors by address. -/
def findClassInfo (w : GmWorld) (classDesc : ClassDesc) : Option ClassDesc :=
  w.classes.find? (·.addr == classDesc.addr)

def setLogger (logger : Option Nat) : GmM Unit :=
  modify fun c => { c with world := { c.world with logger } }

/-! ## The stack -/

structure GMScriptStack where
  numParams : Int
  numPopped : Int
  call : Option GmCall
deriving DecidableEq, Repr

namespace GMScriptStack

/-- The constructor of a callback's stack. -/
def ofThread : GmM GMScriptStack := fun c =>
  .ok ({ numParams := c.thread.params.length, numPopped := 0, call := none }, c)

/-- The constructor of a call's stack. -/
def ofCall (call : GmCall) : GMScriptStack := { numParams := 0, numPopped := 0, call := some call }

def getNumParams (st : GMScriptStack) : Int := st.numParams

/-- `PopInt(value)`: the answer, and the out-parameter after the call. -/
def popInt (st : GMScriptStack) (value : Int) : GmM ((Bool × Int) × GMScriptStack) := fun c =>
  if st.numPopped = st.numParams then .ok (((false, value), st), c)
  else match st.call with
    | some call =>
      match call.returnVar with
      | some (.int n) => .ok (((true, n), { st with numPopped := st.numPopped + 1 }), c)
      | _ => .ok (((false, value), st), c)
    | none =>
      match c.thread.paramInt (st.numParams - st.numPopped - 1) with
      | (true, n) => .ok (((true, n), { st with numPopped := st.numPopped + 1 }), c)
      | (false, n) => .ok (((false, n), st), c)

/-- `PopScriptObject`. A call's result is compared with the first user type only,
a parameter with every one. A parameter out of range is read through `NULL`. -/
def popScriptObject (st : GMScriptStack) : GmM (Option Nat × GMScriptStack) := fun c =>
  if st.numPopped = st.numParams then .ok ((none, st), c)
  else match st.call with
    | some call =>
      match call.returnVar with
      | some (.user type ref) =>
        if type = gmUser then .ok ((c.world.user ref, { st with numPopped := st.numPopped + 1 }), c)
        else .ok ((none, st), c)
      | _ => .ok ((none, st), c)
    | none =>
      match c.thread.paramUserObject (st.numParams - st.numPopped - 1) with
      | none => .ok ((none, st), c)
      | some none => .error .nullDeref
      | some (some ref) => .ok ((c.world.user ref, { st with numPopped := st.numPopped + 1 }), c)

def pop (st : GMScriptStack) : Pop → GmM (Answer × GMScriptStack)
  | .int => do
    let r ← st.popInt 0
    return (.ofPopInt r.1, r.2)
  | .scriptObject => do
    let r ← st.popScriptObject
    return (.object r.1, r.2)

def pushed : Push → GmValue
  | .int value => .int value
  | .string string length => .string string length

/-- `PushInt` and `PushString`: on the call's thread, or on the running one. -/
def push (st : GMScriptStack) (p : Push) : GmM (Bool × GMScriptStack) := fun c =>
  match st.call with
  | some call => .ok ((true, { st with call := some { call with params := call.params ++ [pushed p] } }), c)
  | none => .ok ((true, st), { c with thread := { c.thread with pushed := pushed p :: c.thread.pushed } })

/-- `EndCall` answers true however the call ends. What the called script does to the
thread that waits is left to `endCallIn`. -/
def endCall (st : GMScriptStack) : GmM (Bool × GMScriptStack) := fun c =>
  match st.call with
  | none => .error (.assertion "m_call")
  | some call =>
    match vm.call call.function call.params c.world with
    | (some v, world) =>
      .ok ((true, { numParams := 1, numPopped := 0, call := some { call with returnVar := some v } }),
        { c with world })
    | (none, world) => .ok ((true, { numParams := 0, numPopped := 0, call := some call }), { c with world })

/-- `EndCall` from a C function, the thread of which the called script may kill. -/
def endCallIn (kills : Kills) (st : GMScriptStack) : GmM (Bool × GMScriptStack) := fun c =>
  (st.endCall vm c).map fun r =>
    match st.call with
    | some call => (r.1, if kills call.function call.params c.world then { r.2 with thread := .sysReset } else r.2)
    | none => r

def releaseAfterCall (st : GMScriptStack) : GmM Unit := gmAssert st.call.isSome "m_call"

end GMScriptStack

/-- `BeginCall`: `gmCall::BeginGlobalFunction` finds functions in the globals. -/
def beginCall (name : Bytes) : GmM (Option GMScriptStack) := fun c =>
  match c.world.globals name with
  | .function r => .ok (some (.ofCall { function := .function r, params := [], returnVar := none }), c)
  | _ => .ok (none, c)

/-- A call that spares the thread that waits ends as `endCall` says. -/
theorem endCallIn_spared {vm : GmVm} {kills : Kills} {st : GMScriptStack} {c : GMScriptContext}
    (h : ∀ call, st.call = some call → kills call.function call.params c.world = false) :
    st.endCallIn vm kills c = st.endCall vm c := by
  unfold GMScriptStack.endCallIn
  cases hc : st.call with
  | none => exact Except.map_id ▸ rfl
  | some call =>
    simp only [h call hc]
    exact Except.map_id ▸ rfl

theorem endCallIn_never {vm : GmVm} (st : GMScriptStack) : st.endCallIn vm .never = st.endCall vm :=
  funext fun _ => endCallIn_spared fun _ _ => rfl

/-! ## The messages -/

/-- A message of the machine's log, as the logger gets it. -/
def logLine (message : Bytes) : LogCall := { text := message ++ cstr "\n" }

/-- The messages of the log get to the logger: there is one, and they fit the buffer. -/
def GmWorld.Reports (w : GmWorld) : Prop :=
  w.log = [] ∨ w.logger.isSome = true ∧ ∀ message ∈ w.log, message.length + 1 < messageBufferSize

theorem messageLine_eq (message : Bytes) :
    messageLine message = if message.length + 1 < messageBufferSize then some (logLine message).text else none := by
  have hplain : ∀ p ∈ [PrintArg.str message, PrintArg.lit "\n"], p.Plain := by
    simp only [List.forall_mem_cons, List.not_mem_nil, false_implies, implies_true, and_true]
    exact ⟨PrintArg.str_plain _, PrintArg.lit_plain (by decide)⟩
  have houtput : Printf.Piece.output convert [PrintArg.str message, PrintArg.lit "\n"] =
    some (message ++ cstr "\n") := by
    simp [Printf.Piece.output, PrintArg.str, PrintArg.lit, convert]
  have hformat : Printf.format convert (cstr "%s\n") [.string (some message)] = some (message ++ cstr "\n") :=
    (Printf.format_pieces hplain).trans houtput
  have hlength : (message ++ cstr "\n").length = message.length + 1 := by
    rw [List.length_append]
    rfl
  rw [messageLine, Printf.sprintf_fits hformat, hlength]
  rfl

theorem messageLine_fits (message : Bytes) :
    (messageLine message).isSome = true ↔ message.length + 1 < messageBufferSize := by
  rw [messageLine_eq]
  by_cases h : message.length + 1 < messageBufferSize <;> simp [h]

/-- The loop gets to its end exactly if every message gets to the logger. -/
theorem outputMessages_ok {messages : List Bytes} {w : GmWorld} :
    messages = [] ∨ w.logger.isSome = true ∧ (∀ message ∈ messages, message.length + 1 < messageBufferSize) →
    outputMessages messages w = .ok { w with logged := w.logged ++ messages.map logLine } := by
  induction messages generalizing w with
  | nil =>
    intro _
    simp [outputMessages]
  | cons message messages ih =>
    rintro (h | ⟨hl, h⟩)
    · cases h
    · obtain ⟨hlen, hrest⟩ := List.forall_mem_cons.mp h
      obtain ⟨l, hlogger⟩ := Option.isSome_iff_exists.mp hl
      have hline := messageLine_eq message
      rw [if_pos hlen] at hline
      simp only [outputMessages, hline, hlogger]
      rw [ih (.inr ⟨rfl, hrest⟩)]
      simp [logLine]

theorem outputMessages_error {messages : List Bytes} {w : GmWorld}
    (h : ¬(messages = [] ∨ w.logger.isSome = true ∧ ∀ message ∈ messages, message.length + 1 < messageBufferSize)) :
    ∃ f, outputMessages messages w = .error f := by
  induction messages generalizing w with
  | nil => exact absurd (.inl rfl) h
  | cons message messages ih =>
    unfold outputMessages
    cases hline : messageLine message with
    | none => exact ⟨_, rfl⟩
    | some buffer =>
      have hlen : message.length + 1 < messageBufferSize := (messageLine_fits message).mp (by rw [hline]; rfl)
      cases hlogger : w.logger with
      | none => exact ⟨_, rfl⟩
      | some l =>
        refine ih fun hor => h (.inr ⟨by rw [hlogger]; rfl, List.forall_mem_cons.mpr ⟨hlen, ?_⟩⟩)
        rcases hor with rfl | ⟨-, hrest⟩
        · exact fun _ hm => absurd hm List.not_mem_nil
        · exact hrest

section ExecuteString

variable {vm} {string : Bytes} {c : GMScriptContext} {n : Nat} {w : GmWorld}

/-- A text that does not compile is answered false where the messages get to the logger. -/
theorem executeString_refused (h : vm.executeString string c.world = (n + 1, w)) (hr : w.Reports) :
    executeString vm string c =
      .ok (false, { c with world := { w with logged := w.logged ++ w.log.map logLine, log := [] } }) := by
  simp only [executeString, h, outputMessages_ok hr]
  rfl

theorem executeString_stuck (h : vm.executeString string c.world = (n + 1, w)) (hr : ¬ w.Reports) :
    ∃ f, executeString vm string c = .error f := by
  obtain ⟨f, hf⟩ := outputMessages_error hr
  refine ⟨f, ?_⟩
  simp only [executeString, h, hf]
  rfl

end ExecuteString

end MultiScript.GameMonkey
