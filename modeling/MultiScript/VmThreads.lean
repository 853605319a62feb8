/-
The threads of a VM, and the context that what they print goes to. The callbacks for
`print` find the context through `user_data`, a field that was added to the thread
structures of the VMs. `CreateContext` sets it on the main thread; the code that makes
the other threads does not know it, and leaves what was in the memory.
-/
import MultiScript.Printing
import MultiScript.Lib.Run
import Mathlib.Logic.Function.Basic

namespace MultiScript

open Run Act

/-- What a field `user_data` holds: a pointer to a context, by its number, or another word. -/
inductive UserData
  | context (id : Nat)
  | other (word : Nat)
deriving DecidableEq, Repr

/-- A VM with threads `T`, for contexts `C`: the main thread of a context, a thread made by
another one with a stack of some size, both in a block of memory that holds anything; and
what `print` does with the context it finds. The VM of a context has its number. -/
structure ThreadedVm (T C : Type) where
  main : Nat → C → T → T
  newthread : Nat → T → T → T
  userData : T → UserData
  vm : T → Nat
  print : Bytes → C → Except Fault (Unit × C)
  main_attached : ∀ id c block, userData (main id c block) = .context id ∧ vm (main id c block) = id
  newthread_vm : ∀ size parent block, vm (newthread size parent block) = vm parent
  newthread_userData : ∀ size parent block, userData (newthread size parent block) = userData block

/-- The contexts of a process, and the threads of their VMs. -/
structure Threads (T C : Type) where
  contexts : Nat → Option C
  threads : Nat → Option T
  nextContext : Nat
  nextThread : Nat

/-- What happens: a context is created, a thread makes another one, a thread is collected, a
thread prints, and anything else that changes a context. -/
inductive ThreadEvent (T C : Type)
  | createContext (c : C) (block : T)
  | newthread (t size : Nat) (block : T)
  | collect (t : Nat)
  | print (t : Nat) (text : Bytes)
  | other (id : Nat) (c : C)

namespace ThreadedVm

variable {T C : Type} (K : ThreadedVm T C)

def step : ThreadEvent T C → Threads T C → Except Fault (Unit × Threads T C)
  | .createContext c block, s => .ok ((), {
      contexts := Function.update s.contexts s.nextContext (some c)
      threads := Function.update s.threads s.nextThread (some (K.main s.nextContext c block))
      nextContext := s.nextContext + 1
      nextThread := s.nextThread + 1 })
  | .newthread t size block, s =>
    match s.threads t with
    | none => .error .wildDeref
    | some parent => .ok ((), { s with
        threads := Function.update s.threads s.nextThread (some (K.newthread size parent block))
        nextThread := s.nextThread + 1 })
  | .collect t, s => .ok ((), { s with threads := Function.update s.threads t none })
  | .print t text, s =>
    match (s.threads t).map K.userData with
    | some (.context id) =>
      match s.contexts id with
      | some c => (K.print text c).map fun r => ((), { s with contexts := Function.update s.contexts id (some r.2) })
      | none => .error .wildDeref
    | _ => .error .wildDeref
  | .other id c, s => .ok ((), { s with contexts := Function.update s.contexts id (some c) })

def machine : Machine (Threads T C) (ThreadEvent T C) Unit Fault := ⟨K.step⟩

/-- No context yet. -/
def start : Threads T C := { contexts := fun _ => none, threads := fun _ => none, nextContext := 0, nextThread := 0 }

/-- Every thread points to the context of its VM. -/
def Attached (s : Threads T C) : Prop := ∀ t th, s.threads t = some th → K.userData th = .context (K.vm th)

/-- The memory of a new thread happens to hold a pointer to the context at the right place. -/
def ByChance : ThreadEvent T C → Threads T C → Prop
  | .newthread t _ block, s => ∀ th, s.threads t = some th → K.userData block = .context (K.vm th)
  | _, _ => True

/-- What the thread prints is printed by the context of its VM, and nothing else changes. -/
def Delivers (t : Nat) (text : Bytes) (s : Threads T C) : Prop :=
  ∃ th c c', s.threads t = some th ∧ s.contexts (K.vm th) = some c ∧ K.print text c = .ok ((), c') ∧
    K.step (.print t text) s = .ok ((), { s with contexts := Function.update s.contexts (K.vm th) (some c') })

variable {K} {s s' : Threads T C} {e : ThreadEvent T C}

/-- A thread more, another one in its place, or one less. -/
theorem Attached.update (h : K.Attached s) {t : Nat} {x : Option T}
    (hx : ∀ th, x = some th → K.userData th = .context (K.vm th)) :
    ∀ t' th, Function.update s.threads t x t' = some th → K.userData th = .context (K.vm th) := by
  intro t' th hget
  by_cases ht : t' = t
  · subst ht
    rw [Function.update_self] at hget
    exact hx th hget
  · rw [Function.update_of_ne ht] at hget
    exact h t' th hget

theorem attached_step {o : Unit} (h : K.Attached s) (hs : K.step e s = .ok (o, s')) (hQ : K.ByChance e s) :
    K.Attached s' := by
  cases e with
  | createContext c block =>
    cases hs
    obtain ⟨hdata, hvm⟩ := K.main_attached s.nextContext c block
    refine h.update fun th hth => ?_
    cases hth
    rw [hdata, hvm]
  | newthread t size block =>
    simp only [step] at hs
    split at hs
    · cases hs
    · rename_i parent hparent
      cases hs
      refine h.update fun th hth => ?_
      cases hth
      rw [K.newthread_userData, K.newthread_vm, hQ parent hparent]
  | collect t =>
    cases hs
    exact h.update fun th hth => by cases hth
  | print t text =>
    simp only [step] at hs
    split at hs
    · split at hs
      · obtain ⟨r, -, hr⟩ := map_ok_inv hs
        cases hr
        exact h
      · cases hs
    · cases hs
  | other id c =>
    cases hs
    exact h

theorem byChance_of_attached {o : Unit} (hs : K.step e s = .ok (o, s')) (h : K.Attached s') : K.ByChance e s := by
  cases e with
  | newthread t size block =>
    intro th hth
    simp only [step, hth] at hs
    cases hs
    have hnew := h s.nextThread _ (Function.update_self _ _ _)
    rwa [K.newthread_userData, K.newthread_vm] at hnew
  | createContext c block => trivial
  | collect t => trivial
  | print t text => trivial
  | other id c => trivial

/-- The threads point to their contexts all along exactly if the memory does it for them. -/
theorem attached_iff {es : List (ThreadEvent T C)} {os : List Unit} (hrun : K.machine.run es start = .ok (os, s)) :
    K.machine.Always K.Attached es start ↔ K.machine.Meets K.ByChance es start := by
  have hstart : K.Attached start := fun t th h => by cases h
  exact Machine.always_iff (fun _ h => h) (fun _ _ _ _ h _ hs hQ => attached_step h hs hQ)
    (fun _ _ _ _ _ _ hs h => byChance_of_attached hs h) hstart (Machine.meets_true _ _ _) hrun

/-- A thread's text is delivered exactly if the thread points to its context, where the
context logs something of it. -/
theorem delivers_iff {t : Nat} {th : T} {c c' : C} {text : Bytes} (hth : s.threads t = some th)
    (hc : s.contexts (K.vm th) = some c) (hprint : K.print text c = .ok ((), c')) (hlogs : c' ≠ c) :
    K.Delivers t text s ↔ K.userData th = .context (K.vm th) := by
  constructor
  · rintro ⟨th₁, c₁, c₁', hth₁, hc₁, hprint₁, hstep⟩
    rw [hth] at hth₁
    cases hth₁
    rw [hc] at hc₁
    cases hc₁
    rw [hprint] at hprint₁
    cases hprint₁
    cases hdata : K.userData th with
    | other word =>
      simp only [step, hth, Option.map_some, hdata] at hstep
      cases hstep
    | context id =>
      simp only [step, hth, Option.map_some, hdata] at hstep
      split at hstep
      · obtain ⟨r, -, hr⟩ := map_ok_inv hstep
        by_cases hid : id = K.vm th
        · rw [hid]
        · -- another context has printed it, so this one is as it was
          have hsame : Function.update s.contexts id (some r.2) (K.vm th) = some c' := by
            have hcontexts := congrArg (fun x : Unit × Threads T C => x.2.contexts (K.vm th)) hr
            simpa using hcontexts
          rw [Function.update_of_ne (Ne.symm hid), hc] at hsame
          exact absurd (Option.some.inj hsame).symm hlogs
      · cases hstep
  · intro hdata
    refine ⟨th, c, c', hth, hc, hprint, ?_⟩
    simp only [step, hth, Option.map_some, hdata, hc, hprint]
    rfl

end ThreadedVm

/-! ## Lua -/

namespace Lua

/-- `BASIC_CI_SIZE`, and `BASIC_STACK_SIZE + EXTRA_STACK`. -/
def basicCiSize : Nat := 8
def basicStack : Nat := 2 * 20 + 5

/-- What `lua_State` has for a thread, its stack by the size. The table of globals and the
functions are given by their numbers. -/
structure LuaThread where
  status : Nat
  globalState : Nat
  savedpc : Option Nat
  stacksize : Nat
  sizeCi : Nat
  nCcalls : Nat
  hookmask : Nat
  allowhook : Nat
  basehookcount : Nat
  hookcount : Nat
  hook : Option Nat
  gt : Option Nat
  openupval : Option Nat
  errorJmp : Option Nat
  errfunc : Nat
  userData : UserData
deriving DecidableEq, Repr

/-- `preinit_state`. The field that was added is not among those it sets. -/
def preinitState (g : Nat) (L : LuaThread) : LuaThread :=
  { L with
    globalState := g
    stacksize := 0
    errorJmp := none
    hook := none
    hookmask := 0
    basehookcount := 0
    allowhook := 1
    hookcount := 0
    openupval := none
    sizeCi := 0
    nCcalls := 0
    status := 0
    savedpc := none
    errfunc := 0
    gt := none }

/-- `stack_init`. -/
def stackInit (L : LuaThread) : LuaThread := { L with sizeCi := basicCiSize, stacksize := basicStack }

/-- `luaE_newthread`. The globals and the hook are those of the thread that makes it. -/
def luaENewthread (L block : LuaThread) : LuaThread :=
  { stackInit (preinitState L.globalState block) with
    gt := L.gt
    hookmask := L.hookmask
    basehookcount := L.basehookcount
    hook := L.hook
    hookcount := L.basehookcount }

/-- `lua_newstate`. -/
def luaNewstate (g gt : Nat) (block : LuaThread) : LuaThread := { stackInit (preinitState g block) with gt := some gt }

/-- Lua and its contexts: `CreateContext` sets `user_data` of the new state, and a coroutine is
made by `luaE_newthread`. `print` is given one text. -/
def threadedVm : ThreadedVm LuaThread LuaScriptContext where
  main id c block := { luaNewstate id c.world.heap.globals block with userData := .context id }
  newthread _ := luaENewthread
  userData := LuaThread.userData
  vm := LuaThread.globalState
  print := luaPrintCallback
  main_attached _ _ _ := ⟨rfl, rfl⟩
  newthread_vm _ _ _ := rfl
  newthread_userData _ _ _ := rfl

theorem luaPrintCallback_logs {c : LuaScriptContext} (hl : c.world.logger.isSome = true) (text : Bytes) :
    ∃ c', luaPrintCallback text c = .ok ((), c') ∧ c' ≠ c := by
  obtain ⟨l, hlogger⟩ := Option.isSome_iff_exists.mp hl
  refine ⟨{ c with world := { c.world with logged := c.world.logged ++ [{ text }] } }, ?_, fun he => ?_⟩
  · rw [luaPrintCallback, if_pos hl]
    simp only [loggerOutput, hlogger]
  · have hlogged := congrArg (fun c => c.world.logged.length) he
    simp at hlogged

end Lua

/-! ## Squirrel -/

namespace Squirrel

/-- What `SQVM` has for a thread, its stack by the size. -/
structure SqThread where
  stackSize : Nat
  top : Nat
  stackbase : Nat
  roottable : Option Nat
  lasterror : SqValue
  errorhandler : SqValue
  debughook : SqValue
  callsstacksize : Nat
  alloccallsstacksize : Nat
  foreignptr : Option Nat
  sharedState : Nat
  nnativecalls : Nat
  suspended : Bool
  suspendedRoot : Bool
  suspendedTarget : Int
  suspendedTraps : Int
  userData : UserData
deriving DecidableEq, Repr

/-- The constructor `SQVM::SQVM`. A vector and the objects in it start empty; the numbers and
the pointer that are not listed are what the memory held. -/
def construct (ss : Nat) (block : SqThread) : SqThread :=
  { block with
    stackSize := 0
    roottable := none
    sharedState := ss
    suspended := false
    suspendedTarget := -1
    suspendedRoot := false
    suspendedTraps := -1
    foreignptr := none
    nnativecalls := 0
    lasterror := .null
    errorhandler := .null
    debughook := .null }

/-- `SQVM::Init`, without what it registers in the root table. A thread has that of its
friend. -/
def SqThread.init (friend : Option SqThread) (roottable stacksize : Nat) (v : SqThread) : SqThread :=
  let v := { v with stackSize := stacksize, alloccallsstacksize := 4, callsstacksize := 0, stackbase := 0, top := 0 }
  match friend with
  | none => { v with roottable := some roottable }
  | some f => { v with roottable := f.roottable, errorhandler := f.errorhandler, debughook := f.debughook }

/-- `sq_newthread`. -/
def sqNewthread (stacksize : Nat) (friend block : SqThread) : SqThread :=
  (construct friend.sharedState block).init (some friend) 0 stacksize

/-- `sq_open`. -/
def sqOpen (ss roottable stacksize : Nat) (block : SqThread) : SqThread :=
  (construct ss block).init none roottable stacksize

/-- Squirrel and its contexts, which are created with stacks of `stackSize`. -/
def threadedVm (stackSize : Nat) : ThreadedVm SqThread SquirrelScriptContext where
  main id c block := { sqOpen id c.world.heap.roottable stackSize block with userData := .context id }
  newthread := sqNewthread
  userData := SqThread.userData
  vm := SqThread.sharedState
  print := basePrint
  main_attached _ _ _ := ⟨rfl, rfl⟩
  newthread_vm _ _ _ := rfl
  newthread_userData _ _ _ := rfl

theorem basePrint_logs {c : SquirrelScriptContext} {text : Bytes} (hl : c.world.logger.isSome = true)
    (hlen : text.length < printBufferSize) : ∃ c', basePrint text c = .ok ((), c') ∧ c' ≠ c := by
  refine ⟨_, basePrint_fits hl hlen, fun he => ?_⟩
  have hlogged := congrArg (fun c => c.world.logged.length) he
  simp at hlogged

end Squirrel

/-! ## Both backends -/

/-- **Printing from threads.** In a run of a process all threads point to the context of their
VM exactly if the memory of each new thread happens to hold that pointer. At the end of the
run, what a thread prints is delivered to its context's logger exactly if it points there. -/
theorem threads_attached_iff (stackSize : Nat) (es : List (ThreadEvent Lua.LuaThread Lua.LuaScriptContext))
    (fs : List (ThreadEvent Squirrel.SqThread Squirrel.SquirrelScriptContext)) (os os' : List Unit)
    (s : Threads Lua.LuaThread Lua.LuaScriptContext) (q : Threads Squirrel.SqThread Squirrel.SquirrelScriptContext)
    (hlua : Lua.threadedVm.machine.run es ThreadedVm.start = .ok (os, s))
    (hsq : (Squirrel.threadedVm stackSize).machine.run fs ThreadedVm.start = .ok (os', q)) :
    ((Lua.threadedVm.machine.Always Lua.threadedVm.Attached es ThreadedVm.start ↔
        Lua.threadedVm.machine.Meets Lua.threadedVm.ByChance es ThreadedVm.start) ∧
      ∀ t th c text, s.threads t = some th → s.contexts th.globalState = some c → c.world.logger.isSome = true →
        (Lua.threadedVm.Delivers t text s ↔ th.userData = .context th.globalState)) ∧
    ((Squirrel.threadedVm stackSize).machine.Always (Squirrel.threadedVm stackSize).Attached fs ThreadedVm.start ↔
        (Squirrel.threadedVm stackSize).machine.Meets (Squirrel.threadedVm stackSize).ByChance fs ThreadedVm.start) ∧
      ∀ t th c text, q.threads t = some th → q.contexts th.sharedState = some c → c.world.logger.isSome = true →
        text.length < Squirrel.printBufferSize →
        ((Squirrel.threadedVm stackSize).Delivers t text q ↔ th.userData = .context th.sharedState) := by
  refine ⟨⟨ThreadedVm.attached_iff hlua, fun t th c text hth hc hl => ?_⟩, ThreadedVm.attached_iff hsq,
    fun t th c text hth hc hl hlen => ?_⟩
  · obtain ⟨c', hprint, hlogs⟩ := Lua.luaPrintCallback_logs hl text
    exact ThreadedVm.delivers_iff hth hc hprint hlogs
  · obtain ⟨c', hprint, hlogs⟩ := Squirrel.basePrint_logs hl hlen
    exact ThreadedVm.delivers_iff hth hc hprint hlogs

/-- Memory that is zero but for the field. -/
def Lua.memory (userData : UserData) : Lua.LuaThread :=
  { status := 0, globalState := 0, savedpc := none, stacksize := 0, sizeCi := 0, nCcalls := 0,
    hookmask := 0, allowhook := 0,
    basehookcount := 0, hookcount := 0, hook := none, gt := none, openupval := none, errorJmp := none,
      errfunc := 0, userData }

def Squirrel.memory (userData : UserData) : Squirrel.SqThread :=
  { stackSize := 0, top := 0, stackbase := 0, roottable := none, lasterror := .null, errorhandler := .null,
    debughook := .null, callsstacksize := 0, alloccallsstacksize := 0, foreignptr := none, sharedState := 0,
    nnativecalls := 0, suspended := false, suspendedRoot := false, suspendedTarget := 0, suspendedTraps := 0, userData }

def Lua.logging : Lua.LuaScriptContext :=
  { Lua.createContext (.binding []) with world := { (Lua.createContext (.binding [])).world with logger := some 0 } }

def Squirrel.logging : Squirrel.SquirrelScriptContext :=
  { Squirrel.createContext (.binding []) with
    world := { (Squirrel.createContext (.binding [])).world with logger := some 0 } }

/-- A coroutine, and a thread of Squirrel, in memory that is zero: `print` reads through the
pointer. -/
theorem threads_not_attached :
    Lua.threadedVm.machine.run [.createContext Lua.logging (Lua.memory (.other 0)), .newthread 0 0
      (Lua.memory (.other 0)),
        .print 1 (cstr "hello")] ThreadedVm.start = .error .wildDeref ∧
    (Squirrel.threadedVm 65536).machine.run [.createContext Squirrel.logging (Squirrel.memory (.other 0)),
        .newthread 0 30 (Squirrel.memory (.other 0)), .print 1 (cstr "hello")] ThreadedVm.start = .error .wildDeref :=
  ⟨rfl, rfl⟩

/-- The main thread makes one whose memory holds the pointer to its context. -/
theorem threads_attached_iff_chance :
    Lua.threadedVm.machine.Always Lua.threadedVm.Attached [.createContext Lua.logging (Lua.memory (.other 0)),
      .newthread 0 0 (Lua.memory (.context 0)), .print 1 (cstr "hello")] ThreadedVm.start ∧
    (Squirrel.threadedVm 65536).machine.Always (Squirrel.threadedVm 65536).Attached
      [.createContext Squirrel.logging (Squirrel.memory (.other 0))] ThreadedVm.start := by
  have h := threads_attached_iff 65536 [.createContext Lua.logging (Lua.memory (.other 0)),
    .newthread 0 0 (Lua.memory (.context 0)), .print 1 (cstr "hello")]
    [.createContext Squirrel.logging (Squirrel.memory (.other 0))] _ _ _ _ rfl rfl
  refine ⟨h.1.1.mpr ?_, h.2.1.mpr ?_⟩
  · refine Machine.meets_cons trivial rfl
      (Machine.meets_cons (fun th hth => ?_) rfl (Machine.meets_cons trivial rfl trivial))
    cases hth
    rfl
  · exact Machine.meets_cons trivial rfl trivial

end MultiScript
