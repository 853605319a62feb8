/-
The OCaml backend: `OcamlScriptContext.cpp` and `OcamlScriptStack.cpp`. All
contexts of a process work on the one runtime, and the hooks for output and
fatal errors go to the context created last.
-/
import MultiScript.Ocaml.Instruct
import MultiScript.Ocaml.Startup
import MultiScript.Objects

namespace MultiScript.Ocaml

/-- `OcamlScriptContext`, with what its logger has been given. -/
structure OcamlScriptContext where
  functions : List FunctionDesc
  dirtyFakedDLL : Bool
  logger : Option Nat
  logged : List LogCall
deriving DecidableEq, Repr

/-- The contexts by number, `s_instance`, the runtime, and the names that the fake
DLL exports where the file exists. -/
structure OcamlProcess where
  contexts : Nat → Option OcamlScriptContext
  current : Option Nat
  rt : CamlRuntime
  dll : Option (List Bytes)

/-- What is not written out: what `fprintf` makes of a script, the compiler, and
the interpreter, which answers whether it ended at `STOP` and what it has handed
to the output hook. `callback` answers `none` for an exception. -/
structure OcamlVm where
  builtins : List Bytes
  fprintf : Bytes → Bytes
  ocamlc : Bytes → Option (List Bytes) → Option Bytecode
  interprete : CamlCode → CamlRuntime → (Bool × List Bytes) × CamlRuntime
  callback : Closure → List Word → CamlRuntime → (Option Word × List Bytes) × CamlRuntime

abbrev OcamlM := StateT OcamlProcess (Except Fault)

/-- Before the first context is created. -/
def OcamlProcess.initial (dll : Option (List Bytes)) : OcamlProcess :=
  { contexts := fun _ => none, current := none, rt := .initial, dll }

/-- An interpreter that writes `text` whatever it runs, and returns `unit`. -/
def OcamlVm.printing (text : Bytes) : OcamlVm where
  builtins := []
  fprintf s := s
  ocamlc _ _ := some { content := 0, reqPrims := [] }
  interprete _ rt := ((true, [text]), rt)
  callback _ _ rt := ((some valUnit, [text]), rt)

variable (vm : OcamlVm)

def fault {α : Type} (f : Fault) : OcamlM α := fun _ => .error f

def ocamlAssert (cond : Bool) (text : String) : OcamlM Unit := fun p =>
  (multiScriptAssert cond text).map fun _ => ((), p)

def getCurrent : OcamlM (Option Nat) := do return (← get).current
def getRt : OcamlM CamlRuntime := do return (← get).rt
def setRt (rt : CamlRuntime) : OcamlM Unit := modify fun p => { p with rt }
def getDll : OcamlM (Option (List Bytes)) := do return (← get).dll

/-- A context through a pointer to it. -/
def context (id : Nat) : OcamlM OcamlScriptContext := fun p =>
  match p.contexts id with
  | some c => .ok (c, p)
  | none => .error .wildDeref

def setContext (id : Nat) (c : OcamlScriptContext) : OcamlM Unit :=
  modify fun p => { p with contexts := Function.update p.contexts id (some c) }

def OcamlScriptContext.output (c : OcamlScriptContext) (text : Bytes) : OcamlScriptContext :=
  if c.logger.isSome then { c with logged := c.logged ++ [{ text }] } else c

/-- `OcamlPrintCallback`, for each chunk. -/
def ocamlPrintCallback (chunks : List Bytes) : OcamlM Unit := do
  match ← getCurrent with
  | none => fault .nullDeref
  | some id => do
    let c ← context id
    setContext id (chunks.foldl OcamlScriptContext.output c)

/-- A fatal error of the runtime: `OcamlFatalErrorCallback`, and `exit` where it
returns. -/
def fatalError {α : Type} : OcamlM α := do
  match ← getCurrent with
  | none => fault .nullDeref
  | some id => do
    let c ← context id
    if c.logger.isSome then fault (.assertion "false") else fault .exit

/-! ## The context -/

/-- `CreateContext`. -/
def createContext (id : Nat) : OcamlM Unit :=
  modify fun p => { p with
    rt := customCamlInit p.rt
    contexts := Function.update p.contexts id
      (some { functions := [], dirtyFakedDLL := true, logger := none, logged := [] })
    current := some id }

def setLogger (id : Nat) (logger : Option Nat) : OcamlM Unit := do
  let c ← context id
  setContext id { c with logger }

/-- The C function registered for a descriptor. -/
def callbackFunction (id : Nat) (desc : FunctionDesc) : CFunction :=
  { name := desc.name, prim := .functionCallback desc.numParams.toNat, userData := { context := id, desc } }

/-- `RegisterFunction`: functions of more than two parameters are refused. -/
def registerFunction (id : Nat) (desc : FunctionDesc) : OcamlM Bool := do
  let c ← context id
  if desc.numParams = 0 ∨ desc.numParams = 1 ∨ desc.numParams = 2 then
    setRt (customCamlRegisterCFunction (callbackFunction id desc) (← getRt))
    setContext id { c with functions := c.functions ++ [desc], dirtyFakedDLL := true }
    return true
  else
    return false

/-- The text logged where the fake DLL is missing. -/
def missingDLL : Bytes := cstr
  "ERROR: Faked Ocaml DLL is not built while it's necessary to run the ocaml scripts. Build FakeOcamlDLL and run this app again (sorry).\n"

/-- `RebuildFakeDLL`, and the look for the file: whether `ExecuteString` goes on.
The flag is cleared before the file is found missing. -/
def rebuildFakeDLL (id : Nat) (c : OcamlScriptContext) : OcamlM Bool := do
  let found := (← getDll).isSome
  let c := { c with dirtyFakedDLL := false }
  setContext id (if found then c else c.output missingDLL)
  return found

def checkFakeDLL (id : Nat) : OcamlM Bool := do
  let c ← context id
  if c.dirtyFakedDLL then rebuildFakeDLL id c else return true

/-- The bytecode of the compiled script: loaded, and run. -/
def loadAndRun (file : Bytecode) : OcamlM Bool := do
  match customCamlLoadCode vm.builtins file (← getRt) with
  | none => fatalError
  | some (code, rt) => do
    let r := vm.interprete code (customCamlRunCode code rt)
    setRt r.2
    ocamlPrintCallback r.1.2
    return r.1.1

def executeString (id : Nat) (string : Bytes) : OcamlM Bool := do
  if ← checkFakeDLL id then
    match vm.ocamlc (vm.fprintf string) (← getDll) with
    | none => return false
    | some file => loadAndRun vm file
  else
    return false

/-! ## The stack -/

/-- `OcamlScriptStack`. The closure is a pointer to the value named, so it is what
the name stands for when it is read. -/
structure OcamlScriptStack where
  numPushed : Nat
  numParams : Int
  values : List Word
  result : Word
  closure : Option Bytes
deriving DecidableEq, Repr

namespace OcamlScriptStack

/-- The constructor. -/
def new (closure : Option Bytes) (values : List Word) : OcamlScriptStack :=
  { numPushed := 0, numParams := values.length, values, result := valUnit, closure }

/-- `m_isCall`. -/
def isCall (st : OcamlScriptStack) : Bool := st.closure.isSome

def getNumParams (st : OcamlScriptStack) : Int := st.numParams

/-- `PopInt(value)`. Outside a call the parameters are taken from the first on. -/
def popInt (st : OcamlScriptStack) (value : Int) : (Bool × Int) × OcamlScriptStack :=
  if st.numParams = 0 then ((false, value), st)
  else if st.isCall then ((true, (longVal st.result).toInt), { st with numParams := st.numParams - 1 })
  else
    ((true, (longVal (st.values.getD (st.values.length - st.numParams).toNat 0)).toInt),
      { st with numParams := st.numParams - 1 })

def pushInt (st : OcamlScriptStack) (value : Int) : Bool × OcamlScriptStack :=
  if st.isCall then
    (true, { st with values := st.values ++ [valLong (BitVec.ofInt 32 value)], numPushed := st.numPushed + 1 })
  else if st.numPushed = 1 then (false, st)
  else (true, { st with result := valLong (BitVec.ofInt 32 value), numPushed := st.numPushed + 1 })

def push (st : OcamlScriptStack) : Push → OcamlM (Bool × OcamlScriptStack)
  | .int value => return st.pushInt value
  | .string _ _ => fault (.assertion "!\"Not yet implemented.\"")

def pop (st : OcamlScriptStack) : Pop → OcamlM (Answer × OcamlScriptStack)
  | .int => return (.ofPopInt (st.popInt 0).1, (st.popInt 0).2)
  | .scriptObject => fault (.assertion "!\"Will not implement - ocaml doesn't support class binding.\"")

/-- `PushScriptObject`. -/
def pushScriptObject (_st : OcamlScriptStack) (_object : Nat) : OcamlM (Bool × OcamlScriptStack) :=
  fault (.assertion "!\"Will not implement - ocaml doesn't support class binding.\"")

def pushNewScriptObject (_st : OcamlScriptStack) (_classDesc : ClassDesc) (_objectPtr : Option Nat) :
    OcamlM (Nat × OcamlScriptStack) :=
  fault (.assertion "!\"Will not implement - ocaml doesn't support class binding.\"")

/-- What `caml_callback` and its siblings do, from the value of the closure. -/
def callback (closure : Closure) (args : List Word) : OcamlM Word := do
  let r := vm.callback closure args (← getRt)
  setRt r.2
  ocamlPrintCallback r.1.2
  match r.1.1 with
  | some v => return v
  | none => fault .scriptError

/-- `EndCall`. A function is called with one argument at least, and one result is
counted whatever it is. -/
def endCall (st : OcamlScriptStack) : OcamlM (Bool × OcamlScriptStack) := do
  ocamlAssert st.isCall "m_isCall"
  if st.values = [] then
    fault (.assertion "!\"Calling ocaml function that don't take any parameters not supported!\"")
  else
    match st.closure.bind (← getRt).named with
    | none => fault .nullDeref
    | some closure => do
      let result ← callback vm closure st.values
      return (true, { st with result, numParams := 1 })

def releaseAfterCall (st : OcamlScriptStack) : OcamlM Unit := ocamlAssert st.isCall "m_isCall"

end OcamlScriptStack

/-- `BeginCall`. -/
def beginCall (name : Bytes) : OcamlM (Option OcamlScriptStack) := do
  match (← getRt).named name with
  | none => return none
  | some _ => return some (.new (some name) [])

/-- The stack a registered function is called with: `OcamlFunctionCallback0Args`,
`1Arg` and `2Args`, up to the call. -/
def callbackStack (args : List Word) : OcamlScriptStack := .new none args

/-- `OcamlFunctionCallback0Args`, `1Arg` and `2Args`. -/
def ocamlFunctionCallback {α : Type} (numArgs : Nat) (info : OcamlFunctionInfo) (args : List Word)
    (function : CodePtr → OcamlScriptStack → OcamlM (UserResult α OcamlScriptStack)) : OcamlM (α × Word) := do
  ocamlAssert (info.desc.numParams == numArgs) ("info->m_desc->m_numParams == " ++ toString numArgs)
  let r ← function info.desc.function (callbackStack (args.take numArgs))
  ocamlAssert r.result "result"
  return (r.seen, r.stack.result)

/-- `C_CALL`: the primitive of that number in the current table, which finds its user
data under the same number. The primitives of the runtime are not written out. -/
def ocamlCCall {α : Type} (prim : Nat) (args : List Word)
    (function : CodePtr → OcamlScriptStack → OcamlM (UserResult α OcamlScriptStack)) : OcamlM (α × Word) := do
  let tables := (← getRt).tables
  match tables.primTable[prim]?, tables.primTableUserData[prim]? with
  | some (.functionCallback numArgs), some (some info) => ocamlFunctionCallback numArgs info args function
  | _, _ => fault .wildDeref

end MultiScript.Ocaml
