/-
Contexts of one language in one process. In Lua, Squirrel and GameMonkey a context has
its VM, which points back to it, and the print hook is always set to the same function;
what one context still sees of another is what scripts leave outside of their VM, with
`srand`, `setlocale` or in a file. In OCaml all contexts share the runtime and the last
one created gets the output, so a context is isolated only from one that was there
before it and leaves the runtime alone.
-/
import MultiScript.Contexts
import MultiScript.CallbackArguments
import MultiScript.Lua.Registration

namespace MultiScript

open Run Handles Contexts

/-! ## Lua, Squirrel and GameMonkey -/

def Lua.contextBackend (vm : LuaVm) (heap : LuaHeap) :
    ContextBackend LuaScriptContext LuaScriptStack LuaValue LuaValue :=
  { luaBackend vm with
    fresh := createContext heap
    setLogger := setLogger
    registerFunction := registerFunction vm
    executeString := executeString vm }

def Squirrel.contextBackend (vm : SqVm) (heap : SqHeap) :
    ContextBackend SquirrelScriptContext SquirrelScriptStack Callee SqValue :=
  { sqBackend vm with
    fresh := createContext heap
    setLogger := setLogger
    registerFunction := registerFunction
    executeString := executeString vm }

def GameMonkey.contextBackend (vm : GmVm) (fresh : GMScriptContext) :
    ContextBackend GMScriptContext GMScriptStack GmValue GmValue :=
  { gmBackend vm with
    fresh
    setLogger := setLogger
    registerFunction := registerFunction
    executeString := executeString vm }

namespace Lua

def layout : Layout LuaScriptContext CLibrary where
  log c := (c.world.logger, c.world.logged)
  setLog m c := { c with world := { c.world with logger := m.1, logged := m.2 } }
  outside c := c.world.clib
  setOutside clib c := { c with world := { c.world with clib } }
  setLog_log _ := rfl
  setLog_setLog _ _ _ := rfl
  log_setOutside _ _ := rfl
  outside_setOutside _ _ := rfl

/-- The contexts of a process. How numbers and strings are converted depends on the locale. -/
def contexts (vm : CLibrary → LuaVm) (heap : LuaHeap) :
    ContextLanguage (Shared LuaScriptContext CLibrary) LuaScriptStack :=
  language layout fun clib => contextBackend (vm clib) heap

/-- The world in which the closure of a registered function is set. -/
def LuaWorld.withClosure (w : LuaWorld) (desc : FunctionDesc) : LuaWorld :=
  { w with heap := w.heap.newClosure .functionCallback [.lightuserdata (.functionInfo desc)] }

/-- The script an operation runs, or the metamethod of the globals that it may run, leaves
what is outside as it is. -/
def Spares (vm : CLibrary → LuaVm) (op : Op LuaScriptStack) (c : LuaScriptContext) : Prop :=
  let vm := vm c.world.clib
  let globals := LuaValue.table c.world.heap.globals
  match op with
  | .executeString string =>
    let (_, chunk, w) := vm.load string c.world
    w.clib = c.world.clib ∧ (vm.call chunk [] w).2.clib = c.world.clib
  | .registerFunction desc =>
    (vm.newindex globals (.string desc.name) (.function c.world.heap.next) (c.world.withClosure desc)).2.clib =
      c.world.clib
  | .begin name => (vm.index globals (.string name) c.world).2.clib = c.world.clib
  | .endCall st =>
    ∀ f ∈ (c.slots.drop st.numPushed).head?, (vm.call f (c.slots.take st.numPushed).reverse c.world).2.clib =
      c.world.clib
  | _ => True

variable {α β : Type} {vm : LuaVm} {c : LuaScriptContext}

end Lua

namespace Squirrel

/-- With scripts that suspend the VM. -/
def contextBackendIn (vm : SqVm) (suspends : Suspends) (heap : SqHeap) :
    ContextBackend SquirrelScriptContext SquirrelScriptStack Callee SqValue :=
  { contextBackend vm heap with executeString := executeStringIn vm suspends }

def layout : Layout SquirrelScriptContext CLibrary where
  log c := (c.world.logger, c.world.logged)
  setLog m c := { c with world := { c.world with logger := m.1, logged := m.2 } }
  outside c := c.world.clib
  setOutside clib c := { c with world := { c.world with clib } }
  setLog_log _ := rfl
  setLog_setLog _ _ _ := rfl
  log_setOutside _ _ := rfl
  outside_setOutside _ _ := rfl

/-- The contexts of a process. -/
def contexts (vm : SqVm) (suspends : Suspends) (heap : SqHeap) :
    ContextLanguage (Shared SquirrelScriptContext CLibrary) SquirrelScriptStack :=
  language layout fun _ => contextBackendIn vm suspends heap

/-- The script an operation runs, or the metamethods on the way to a name, leave what is
outside as it is. -/
def Spares (vm : SqVm) (op : Op SquirrelScriptStack) (c : SquirrelScriptContext) : Prop :=
  let root := SqValue.table c.world.heap.roottable
  match op with
  | .executeString string =>
    let (closure, w) := vm.compile string c.world
    w.clib = c.world.clib ∧ ∀ f ∈ closure, (vm.call f [.table w.heap.roottable] w).2.clib = c.world.clib
  | .begin name => (vm.get root (.string name) c.world).2.clib = c.world.clib
  | .endCall st => ∀ f ∈ (c.stack.drop (st.numPushed + 1)).head?,
      (vm.call f (c.stack.take (st.numPushed + 1)).reverse c.world).2.clib = c.world.clib
  | _ => True

variable {α β : Type} {vm : SqVm} {suspends : Suspends} {c : SquirrelScriptContext}

end Squirrel

namespace GameMonkey

/-- With scripts that kill threads. -/
def contextBackendIn (vm : GmVm) (kills : Kills) (fresh : GMScriptContext) :
    ContextBackend GMScriptContext GMScriptStack GmValue GmValue :=
  { contextBackend vm fresh with endCall := fun st => st.endCallIn vm kills }

/-- The scripts have no functions that reach what is outside of the machine. -/
def layout : Layout GMScriptContext Unit where
  log c := (c.world.logger, c.world.logged)
  setLog m c := { c with world := { c.world with logger := m.1, logged := m.2 } }
  outside _ := ()
  setOutside _ c := c
  setLog_log _ := rfl
  setLog_setLog _ _ _ := rfl
  log_setOutside _ _ := rfl
  outside_setOutside _ _ := rfl

/-- The contexts of a process. -/
def contexts (vm : GmVm) (kills : Kills) (fresh : GMScriptContext) :
    ContextLanguage (Shared GMScriptContext Unit) GMScriptStack :=
  language layout fun _ => contextBackendIn vm kills fresh

end GameMonkey

/-! ## OCaml -/

namespace Ocaml

/-- The numbers of the two contexts. -/
def number : Party → Nat
  | .a => 0
  | .b => 1

def run (vm : OcamlVm) (id : Nat) : Op OcamlScriptStack → OcamlM (Result × Option OcamlScriptStack)
  | .create => fault .wildDeref
  | .setLogger logger => do
    setLogger id logger
    return (.done, none)
  | .registerFunction desc => do return (.answered (← registerFunction id desc), none)
  | .executeString string => do return (.answered (← executeString vm id string), none)
  | .begin name => do
    let st ← beginCall name
    return (.answered st.isSome, st)
  | .push st p => do
    let r ← st.push p
    return (.answered r.1, some r.2)
  | .endCall st => do
    let r ← st.endCall vm
    return (.answered r.1, some r.2)
  | .pop st p => do
    let r ← st.pop p
    return (.popped r.1, some r.2)
  | .release st => do
    st.releaseAfterCall
    return (.done, none)

/-- A context is created once, and worked on after that. -/
def onContext (vm : OcamlVm) (who : Party) : Op OcamlScriptStack → OcamlM (Result × Option OcamlScriptStack)
  | .create => fun p =>
    match p.contexts (number who) with
    | none => (createContext (number who) p).map fun r => ((.done, none), r.2)
    | some _ => .error .wildDeref
  | op => fun p =>
    match p.contexts (number who) with
    | none => .error .nullDeref
    | some _ => run vm (number who) op p

def language (vm : OcamlVm) : ContextLanguage OcamlProcess OcamlScriptStack := ⟨onContext vm⟩

/-- What `B` may do. Once `A` is there it leaves the runtime alone: it sets its
logger, looks up functions and fills handles. Before, it may do anything but run
code. -/
def Reserved : Op OcamlScriptStack → OcamlProcess → Prop
  | .create, p => p.contexts 0 = none
  | .registerFunction _, p => p.contexts 0 = none
  | .executeString _, _ => False
  | .endCall _, _ => False
  | _, _ => True

/-- What `A` sees: its context, and the runtime as it is, or before `A` is created
as it will find it. -/
def view (p : OcamlProcess) : Option OcamlScriptContext × Option (List Bytes) × CamlRuntime :=
  (p.contexts 0, p.dll, if (p.contexts 0).isSome then p.rt else customCamlInit p.rt)

/-- The output goes to `A`. -/
def Attached (p : OcamlProcess) : Prop := (p.contexts 0).isSome = true → p.current = some 0

/-! ### Operations on the context that gets the output -/

/-- The same process with other contexts beside `A`. -/
def beside (f : Nat → Option OcamlScriptContext) (p : OcamlProcess) : OcamlProcess :=
  { p with contexts := Function.update f 0 (p.contexts 0) }

@[simp] theorem beside_current (f) (p : OcamlProcess) : (beside f p).current = p.current := rfl
@[simp] theorem beside_rt (f) (p : OcamlProcess) : (beside f p).rt = p.rt := rfl
@[simp] theorem beside_dll (f) (p : OcamlProcess) : (beside f p).dll = p.dll := rfl
@[simp] theorem beside_contexts (f) (p : OcamlProcess) : (beside f p).contexts 0 = p.contexts 0 := by simp [beside]

/-- While `A` gets the output, the computation is about no other context. -/
structure Local {α : Type} (m : OcamlM α) : Prop where
  frame : ∀ f p, p.current = some 0 → m (beside f p) = (m p).map fun r => (r.1, beside f r.2)
  current : ∀ p r, p.current = some 0 → m p = .ok r → r.2.current = some 0

variable {α β : Type} {vm : OcamlVm}

theorem Local.pure (a : α) : Local (Pure.pure a) where
  frame _ _ _ := rfl
  current p r h hr := by cases hr; exact h

theorem Local.fault (f : Fault) : Local (Ocaml.fault f : OcamlM α) where
  frame _ _ _ := rfl
  current p r h hr := by cases hr

theorem Local.bind {m : OcamlM α} {k : α → OcamlM β} (hm : Local m) (hk : ∀ a, Local (k a)) : Local (m >>= k) where
  frame f p h := by
    cases hp : m p with
    | error g =>
      rw [Act.bind_error hp, Act.bind_error (by rw [hm.frame f p h, hp]; rfl)]
      rfl
    | ok r =>
      obtain ⟨a, p₁⟩ := r
      have hc := hm.current p (a, p₁) h hp
      rw [Act.bind_ok hp, Act.bind_ok (show m (beside f p) = .ok (a, beside f p₁) by rw [hm.frame f p h, hp]; rfl)]
      exact (hk a).frame f p₁ hc
  current p r h hr := by
    obtain ⟨a, p₁, hp, hk'⟩ := Act.bind_ok_inv hr
    exact (hk a).current p₁ r (hm.current p (a, p₁) h hp) hk'

theorem Local.getRt : Local Ocaml.getRt where
  frame _ _ _ := rfl
  current p r h hr := by cases hr; exact h

theorem Local.getDll : Local Ocaml.getDll where
  frame _ _ _ := rfl
  current p r h hr := by cases hr; exact h

theorem Local.setRt (rt : CamlRuntime) : Local (Ocaml.setRt rt) where
  frame _ _ _ := rfl
  current p r h hr := by cases hr; exact h

theorem Local.getCurrent_bind {k : Option Nat → OcamlM β} (hk : Local (k (some 0))) :
    Local (Ocaml.getCurrent >>= k) where
  frame f p h := by
    have hc : ∀ q : OcamlProcess, q.current = some 0 → Ocaml.getCurrent q = .ok (some 0, q) := by
      intro q hq
      rw [← hq]
      rfl
    rw [Act.bind_ok (hc p h), Act.bind_ok (hc (beside f p) h)]
    exact hk.frame f p h
  current p r h hr := by
    have hc : Ocaml.getCurrent p = .ok (some 0, p) := by rw [← h]; rfl
    rw [Act.bind_ok hc] at hr
    exact hk.current p r h hr

theorem Local.context : Local (Ocaml.context 0) where
  frame f p h := by
    unfold Ocaml.context
    rw [beside_contexts]
    cases p.contexts 0 <;> rfl
  current p r h hr := by
    unfold Ocaml.context at hr
    cases hc : p.contexts 0 with
    | none => rw [hc] at hr; cases hr
    | some c => rw [hc] at hr; cases hr; exact h

theorem Local.setContext (c : OcamlScriptContext) : Local (Ocaml.setContext 0 c) where
  frame f p h := by
    have hset : beside f { p with contexts := Function.update p.contexts 0 (some c) }
        = { beside f p with contexts := Function.update (beside f p).contexts 0 (some c) } := by
      simp [beside]
    show Except.ok ((), _) = Except.ok ((), _)
    rw [hset]
  current p r h hr := by cases hr; exact h

theorem Local.ite {c : Prop} [Decidable c] {m n : OcamlM α} (hm : Local m) (hn : Local n) :
    Local (if c then m else n) := by
  split
  · exact hm
  · exact hn

theorem Local.ocamlAssert (cond : Bool) (text : String) : Local (Ocaml.ocamlAssert cond text) where
  frame f p h := by cases cond <;> rfl
  current p r h hr := by
    cases cond with
    | true => cases hr; exact h
    | false => cases hr

theorem Local.ocamlPrintCallback (chunks : List Bytes) : Local (Ocaml.ocamlPrintCallback chunks) :=
  .getCurrent_bind (.bind .context fun _ => .setContext _)

theorem Local.fatalError : Local (Ocaml.fatalError : OcamlM α) :=
  .getCurrent_bind (.bind .context fun _ => .ite (.fault _) (.fault _))

theorem Local.setLogger (logger : Option Nat) : Local (Ocaml.setLogger 0 logger) :=
  .bind .context fun _ => .setContext _

theorem Local.registerFunction (desc : FunctionDesc) : Local (Ocaml.registerFunction 0 desc) :=
  .bind .context fun _ =>
    .ite (.bind .getRt fun _ => .bind (.setRt _) fun _ => .bind (.setContext _) fun _ => .pure _) (.pure _)

theorem Local.checkFakeDLL : Local (Ocaml.checkFakeDLL 0) :=
  .bind .context fun _ => .ite (.bind .getDll fun _ => .bind (.setContext _) fun _ => .pure _) (.pure _)

theorem Local.loadAndRun (file : Bytecode) : Local (Ocaml.loadAndRun vm file) := by
  refine .bind .getRt fun rt => ?_
  cases customCamlLoadCode vm.builtins file rt with
  | none => exact .fatalError
  | some r => exact .bind (.setRt _) fun _ => .bind (.ocamlPrintCallback _) fun _ => .pure _

theorem Local.executeString (string : Bytes) : Local (Ocaml.executeString vm 0 string) := by
  refine .bind .checkFakeDLL fun _ => .ite (.bind .getDll fun dll => ?_) (.pure _)
  cases vm.ocamlc (vm.fprintf string) dll with
  | none => exact .pure _
  | some file => exact .loadAndRun file

theorem Local.callback (closure : Closure) (args : List Word) :
    Local (OcamlScriptStack.callback vm closure args) := by
  refine .bind .getRt fun rt => .bind (.setRt _) fun _ => .bind (.ocamlPrintCallback _) fun _ => ?_
  cases (vm.callback closure args rt).1.1 with
  | none => exact .fault _
  | some v => exact .pure _

theorem Local.endCall (st : OcamlScriptStack) : Local (st.endCall vm) := by
  refine .bind (.ocamlAssert _ _) fun _ => .ite (.fault _) (.bind .getRt fun rt => ?_)
  cases st.closure.bind rt.named with
  | none => exact .fault _
  | some closure => exact .bind (.callback closure st.values) fun _ => .pure _

theorem Local.beginCall (name : Bytes) : Local (Ocaml.beginCall name) := by
  refine .bind .getRt fun rt => ?_
  cases rt.named name with
  | none => exact .pure _
  | some _ => exact .pure _

theorem Local.push (st : OcamlScriptStack) (p : Push) : Local (st.push p) := by
  cases p with
  | int value => exact .pure _
  | string string length => exact .fault _

theorem Local.pop (st : OcamlScriptStack) (p : Pop) : Local (st.pop p) := by
  cases p with
  | int => exact .pure _
  | scriptObject => exact .fault _

theorem Local.run (op : Op OcamlScriptStack) : Local (Ocaml.run vm 0 op) := by
  cases op with
  | create => exact .fault _
  | setLogger logger => exact .bind (.setLogger logger) fun _ => .pure _
  | registerFunction desc => exact .bind (.registerFunction desc) fun _ => .pure _
  | executeString string => exact .bind (.executeString string) fun _ => .pure _
  | begin name => exact .bind (.beginCall name) fun _ => .pure _
  | push st p => exact .bind (.push st p) fun _ => .pure _
  | endCall st => exact .bind (.endCall st) fun _ => .pure _
  | pop st p => exact .bind (.pop st p) fun _ => .pure _
  | release st => exact .bind (.ocamlAssert _ _) fun _ => .pure _

/-! ### What an operation does to `A` -/

variable {who : Party} {op : Op OcamlScriptStack} {p p' q : OcamlProcess} {r : Result × Option OcamlScriptStack}

/-- The process after `CreateContext`. -/
def created (id : Nat) (p : OcamlProcess) : OcamlProcess :=
  { p with
    rt := customCamlInit p.rt
    contexts := Function.update p.contexts id
      (some { functions := [], dirtyFakedDLL := true, logger := none, logged := [] })
    current := some id }

/-- `A` sees no difference, and the output goes where it went. -/
def Unseen (p p' : OcamlProcess) : Prop := view p' = view p ∧ p'.current = p.current

theorem Unseen.refl (p : OcamlProcess) : Unseen p p := ⟨rfl, rfl⟩

theorem Unseen.trans {p₁ : OcamlProcess} (h : Unseen p p₁) (h' : Unseen p₁ p') : Unseen p p' :=
  ⟨h'.1.trans h.1, h'.2.trans h.2⟩

/-- A computation that `A` does not see. -/
def Hidden (m : OcamlM α) (p : OcamlProcess) : Prop := Act.Ends m p (fun _ p' => Unseen p p') fun _ => True

theorem Hidden.pure (a : α) (p : OcamlProcess) : Hidden (Pure.pure a) p := Act.Ends.pure (.refl p)

theorem Hidden.fault (f : Fault) (p : OcamlProcess) : Hidden (Ocaml.fault f : OcamlM α) p := trivial

theorem Hidden.bind {m : OcamlM α} {k : α → OcamlM β} (hm : Hidden m p)
    (hk : ∀ a p₁, Unseen p p₁ → Hidden (k a) p₁) : Hidden (m >>= k) p :=
  Act.Ends.bind hm fun a p₁ h => (hk a p₁ h).mono fun _ _ h' => h.trans h'

theorem Hidden.context (id : Nat) (p : OcamlProcess) : Hidden (Ocaml.context id) p := by
  unfold Hidden Act.Ends Ocaml.context
  cases p.contexts id with
  | none => trivial
  | some c => exact .refl p

theorem Hidden.setContext (c : OcamlScriptContext) (p : OcamlProcess) : Hidden (Ocaml.setContext 1 c) p := by
  refine Act.Ends.of_ok (show Ocaml.setContext 1 c p = .ok ((), _) from rfl) ⟨?_, rfl⟩
  simp [view]

theorem Hidden.getRt_bind {k : CamlRuntime → OcamlM β} (h : Hidden (k p.rt) p) : Hidden (Ocaml.getRt >>= k) p := h

/-- Before `A` is there, what `custom_caml_init` resets. -/
theorem Hidden.setRt {rt : CamlRuntime} (ha : p.contexts 0 = none) (h : customCamlInit rt = customCamlInit p.rt) :
    Hidden (Ocaml.setRt rt) p := by
  refine Act.Ends.of_ok (show Ocaml.setRt rt p = .ok ((), _) from rfl) ⟨?_, rfl⟩
  simp [view, ha, h]

theorem Hidden.registerFunction {desc : FunctionDesc} (ha : p.contexts 0 = none) :
    Hidden (Ocaml.registerFunction 1 desc) p := by
  refine .bind (.context 1 p) fun c p₁ h₁ => ?_
  have ha₁ : p₁.contexts 0 = none := (congrArg Prod.fst h₁.1).trans ha
  split
  · exact .getRt_bind (.bind (.setRt ha₁ rfl) fun _ p₂ _ => .bind (.setContext _ p₂) fun _ p₃ _ => .pure _ p₃)
  · exact .pure _ p₁

theorem Hidden.beginCall (name : Bytes) : Hidden (Ocaml.beginCall name) p := by
  refine .getRt_bind ?_
  cases p.rt.named name with
  | none => exact .pure _ p
  | some _ => exact .pure _ p

theorem Hidden.push (st : OcamlScriptStack) (x : Push) : Hidden (st.push x) p := by
  cases x with
  | int value => exact .pure _ p
  | string string length => exact .fault _ p

theorem Hidden.pop (st : OcamlScriptStack) (x : Pop) : Hidden (st.pop x) p := by
  cases x with
  | int => exact .pure _ p
  | scriptObject => exact .fault _ p

theorem Hidden.releaseAfterCall (st : OcamlScriptStack) : Hidden st.releaseAfterCall p := by
  unfold OcamlScriptStack.releaseAfterCall
  cases st.isCall with
  | true => exact .pure () p
  | false => exact .fault _ p

/-- What `B` may do with a context that is there. -/
theorem Hidden.run (hQ : Reserved op p) : Hidden (Ocaml.run vm 1 op) p := by
  cases op with
  | create => exact .fault _ p
  | setLogger logger =>
    exact .bind (.bind (.context 1 p) fun _ p₁ _ => .setContext _ p₁) fun _ p₁ _ => .pure _ p₁
  | registerFunction desc => exact .bind (.registerFunction hQ) fun _ p₁ _ => .pure _ p₁
  | executeString string => exact hQ.elim
  | begin name => exact .bind (.beginCall name) fun _ p₁ _ => .pure _ p₁
  | push st x => exact .bind (.push st x) fun _ p₁ _ => .pure _ p₁
  | endCall st => exact hQ.elim
  | pop st x => exact .bind (.pop st x) fun _ p₁ _ => .pure _ p₁
  | release st => exact .bind (.releaseAfterCall st) fun _ p₁ _ => .pure _ p₁

end Ocaml

/-! ## The four languages -/

end MultiScript
