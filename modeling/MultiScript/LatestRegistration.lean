/-
Registrations of functions under names that repeat. In Lua, Squirrel and GameMonkey a
registration overwrites what the name was bound to, so a script that calls a name runs
what was registered under it last; but in Squirrel every thread that is made registers the
base library again. The OCaml runtime appends to a list that it searches from the front,
after its own primitives.
-/
import MultiScript.Registration
import MultiScript.FunctionLookup
import MultiScript.Lua.Callbacks
import MultiScript.Squirrel.Callbacks
import MultiScript.GameMonkey.Callbacks
import MultiScript.Ocaml.Primitives
import MultiScript.DllCheck
import Mathlib.Data.List.Induction

namespace MultiScript

open Run Act

/-- The last descriptor of a name. -/
def lastNamed (name : Bytes) (descs : List FunctionDesc) : Option FunctionDesc :=
  descs.reverse.find? fun d => d.name = name

theorem lastNamed_append (name : Bytes) (descs : List FunctionDesc) (desc : FunctionDesc) :
    lastNamed name (descs ++ [desc]) = if desc.name = name then some desc else lastNamed name descs := by
  rw [lastNamed, List.reverse_append]
  by_cases h : desc.name = name
  · simp [h]
  · simp [h, lastNamed]

namespace Registrar

variable {C : Type} {R : Registrar C}

/-- A function can be registered under any name. -/
def Overwrites (R : Registrar C) : Prop :=
  ∀ c desc, R.Base c → ∃ c', R.register (.function desc) c = .ok (true, c') ∧ R.Keeps c [desc.name] c' ∧
    R.Bound c' (.function desc) ∧ R.Base c'

/-- The last registration of each name is the one that is found. -/
theorem run_latest (hR : R.Overwrites) {c : C} (hb : R.Base c) (descs : List FunctionDesc) :
    ∃ c', R.machine.run (descs.map .function) c = .ok (descs.map fun _ => true, c') ∧ R.Base c' ∧
      ∀ name d, lastNamed name descs = some d → R.Bound c' (.function d) := by
  induction descs using List.reverseRecOn with
  | nil => exact ⟨c, rfl, hb, fun name d h => by cases h⟩
  | append_singleton descs desc ih =>
    obtain ⟨c₁, hrun, hb₁, hlast⟩ := ih
    obtain ⟨c₂, hreg, hkeeps, hbound, hb₂⟩ := hR c₁ desc hb₁
    refine ⟨c₂, ?_, hb₂, fun name d h => ?_⟩
    · rw [List.map_append, List.map_append, Machine.run_append _ hrun, List.map_singleton, Machine.run_cons _ _ hreg]
      rfl
    · rw [lastNamed_append] at h
      by_cases hname : desc.name = name
      · rw [if_pos hname] at h
        cases h
        exact hbound
      · rw [if_neg hname] at h
        -- the name of `d` is not the one that was registered now
        have hd : d.name = name := by simpa using List.find?_some h
        refine R.bound_keeps hb₁ (hlast name d h) hkeeps fun hmem => hname ?_
        rw [← hd]
        exact (List.mem_singleton.mp hmem).symm

end Registrar

/-! ## Lua -/

namespace Lua

/-- The name is bound to a closure over `desc`, and a call of it runs the function of `desc`. -/
structure Invokes (c : LuaScriptContext) (name : Bytes) (desc : FunctionDesc) : Prop where
  bound : c.world.heap.IsClosure (c.world.heap.global name) .functionCallback [.lightuserdata (.functionInfo desc)]
  calls : ∀ {α : Type} (function : CodePtr → LuaScriptStack → LuaS (UserResult α LuaScriptStack)) (L : Nat)
    (args : List LuaValue) (s : LuaState), s.world = c.world →
    callC L (c.world.heap.global name) args (luaFunctionCallback function L) s
      = callC L (c.world.heap.global name) args
        (fun s₁ => (function desc.function (callbackStack (s₁.frame mainThread).slots.length) >>= callbackLeave) s₁) s

theorem Bound.invokes {c : LuaScriptContext} {desc : FunctionDesc} (h : Bound c.world.heap (.function desc)) :
    Invokes c desc.name desc where
  bound := h
  calls function L args s hs := by
    obtain ⟨r, hv, -, hclosure⟩ := h
    have hglobal : c.world.heap.global desc.name = .function r := hv
    rw [hglobal]
    generalize hs₁ : s.setFrame L { func := .function r, slots := args.reverse } = s₁
    have hf : (s₁.frame L).func = .function r := by rw [← hs₁, setFrame_self]
    have hw : s₁.world = c.world := by rw [← hs₁]; exact hs
    have henter := functionEnter_ok hf (by rw [hw]; exact hclosure)
    simp only [callC, hs₁, luaFunctionCallback, bind_ok henter]

theorem registrar_overwrites (vm : LuaVm) : (registrar vm).Overwrites := by
  intro c desc hb
  have hk := registerFunction_keeps c.world.heap desc
  refine ⟨_, registerFunction_ok hb.2, ⟨rfl, rfl, hk⟩, ⟨c.world.heap.next, ?_, Nat.lt_succ_self _, ?_⟩,
    ⟨hb.1, hb.2.keeps hk⟩⟩
  · simp [LuaHeap.registerFunction, LuaHeap.newClosure]
  · simp [LuaHeap.registerFunction, LuaHeap.newClosure]

end Lua

/-! ## Squirrel -/

namespace Squirrel

/-- The name is bound to a closure over `desc`, and a call of it runs the function of `desc`. -/
structure Invokes (c : SquirrelScriptContext) (name : Bytes) (desc : FunctionDesc) : Prop where
  bound : c.world.heap.IsNative (c.world.heap.root name) .functionCallback [.userpointer (.functionInfo desc)]
  calls : ∀ {α : Type} (function : CodePtr → SquirrelScriptStack → SqS (UserResult α SquirrelScriptStack)) (L : Nat)
    (this : SqValue) (args : List SqValue) (s : SqState),
    callNative L [.userpointer (.functionInfo desc)] this args (squirrelFunctionCallback function L) s
      = callNative L [] this args
        (fun s₁ => (function desc.function (callbackStack (s₁.frame mainThread).count) >>= callbackLeave) s₁) s

theorem Bound.invokes {c : SquirrelScriptContext} {desc : FunctionDesc} (h : Bound c.world.heap (.function desc)) :
    Invokes c desc.name desc where
  bound := h
  calls function L this args s := by
    generalize hrest : args.reverse ++ this :: (s.frame L).stack = rest
    generalize hs₁ : s.setFrame L { stack := .userpointer (.functionInfo desc) :: rest
                                    stackbase := (s.frame L).stack.length } = s₁
    have hf : (s₁.frame L).stack = .userpointer (.functionInfo desc) :: rest := by rw [← hs₁, setFrame_self]
    -- without the outer value the frame is the one of a closure that has none
    have hset : SqState.setStack s₁ L rest = s.setFrame L { stack := rest, stackbase := (s.frame L).stack.length } := by
      rw [← hs₁]
      simp [SqState.setStack, VmState.setFrame]
    have henter := functionEnter_ok hf
    rw [hset] at henter
    simp only [callNative, List.reverse_singleton, List.singleton_append, List.reverse_nil, List.nil_append, hrest, hs₁,
      squirrelFunctionCallback, bind_ok henter]

theorem registrar_overwrites : registrar.Overwrites := by
  intro c desc hb
  obtain ⟨c', hreg, hkeeps, hbound, hb', -⟩ := register_ok (.function desc) hb trivial
  exact ⟨c', hreg, hkeeps, hbound, hb'⟩

/-- What `sq_base_register` binds, in order: functions of the library, and three values. -/
def baseEntries : List (Bytes × Option SqValue) :=
  (["seterrorhandler", "setdebughook", "enabledebuginfo", "getstackinfos", "getroottable", "setroottable", "assert",
    "print", "compilestring", "newthread", "suspend", "array", "type", "dummy", "collectgarbage"].map fun s =>
      (cstr s, none)) ++
  [(cstr "_version_", some (.string (cstr "Squirrel 2.1.2 stable"))), (cstr "_charsize_", some (.integer 1)),
    (cstr "_intsize_", some (.integer 4))]

def baseNames : List Bytes := baseEntries.map (·.1)

def SqHeap.bindEntry (h : SqHeap) : Bytes × Option SqValue → SqHeap
  | (name, none) =>
    let h' := { h with next := h.next + 1, native := fun r => if r = h.next then .other r else h.native r }
    h'.setSlot h.roottable (.string name) (.nativeclosure h.next)
  | (name, some v) => h.setSlot h.roottable (.string name) v

/-- `sq_base_register`, which `SQVM::Init` calls for every thread that is made. -/
def SqHeap.baseRegister (h : SqHeap) : SqHeap := baseEntries.foldl SqHeap.bindEntry h

/-- The context after its scripts have made `n` threads. -/
def withThreads : Nat → SquirrelScriptContext → SquirrelScriptContext
  | 0, c => c
  | n + 1, c => withThreads n { c with world := { c.world with heap := c.world.heap.baseRegister } }

/-- The name is bound to nothing of the backend. -/
def Foreign (h : SqHeap) (name : Bytes) : Prop := ∀ f vs, ¬ h.IsNative (h.root name) f vs

variable {h h' : SqHeap} {name : Bytes} {names : List Bytes} {x : Bytes × Option SqValue}

theorem bindEntry_keeps (hk : h.Keeps names h') (hx : x.1 ∈ names) : h.Keeps names (h'.bindEntry x) := by
  obtain ⟨n, v⟩ := x
  cases v with
  | some v => exact hk.bind hx hk.roottable
  | none =>
    have hnew : h.Keeps names { h' with
        next := h'.next + 1, native := fun r => if r = h'.next then .other r else h'.native r } := by
      refine ⟨Nat.le_succ_of_le hk.next, hk.roottable, fun r hr => ?_, hk.classes, hk.instances, hk.slot⟩
      have hne : r ≠ h'.next := Nat.ne_of_lt (Nat.lt_of_lt_of_le hr hk.next)
      exact (if_neg hne).trans (hk.native r hr)
    exact hnew.bind hx hk.roottable

theorem baseRegister_keeps (h : SqHeap) : h.Keeps baseNames h.baseRegister := by
  have hfold : ∀ (xs : List (Bytes × Option SqValue)) (h' : SqHeap), (∀ x ∈ xs, x.1 ∈ baseNames) →
    h.Keeps baseNames h' →
      h.Keeps baseNames (xs.foldl SqHeap.bindEntry h') := by
    intro xs
    induction xs with
    | nil => exact fun _ _ hk => hk
    | cons x xs ih =>
      intro h' hxs hk
      exact ih _ (fun y hy => hxs y (List.mem_cons_of_mem _ hy)) (bindEntry_keeps hk (hxs x List.mem_cons_self))
  exact hfold baseEntries h (fun x hx => List.mem_map_of_mem hx) (.refl h _)

/-- An entry binds its name to what is not the backend's, and no other name to what is. -/
theorem bindEntry_foreign (hx : ∀ r, x.2 ≠ some (.nativeclosure r)) (hf : Foreign h name ∨ x.1 = name) :
    Foreign (h.bindEntry x) name := by
  rintro f vs ⟨r, hv, hr, hnative⟩
  obtain ⟨n, v⟩ := x
  by_cases hn : n = name
  · subst hn
    cases v with
    | some v =>
      have hget : (h.bindEntry (n, some v)).root n = some v := if_pos ⟨rfl, rfl⟩
      exact hx r (hget.symm.trans hv)
    | none =>
      simp only [SqHeap.bindEntry, SqHeap.root, SqHeap.setSlot, true_and, if_true, Option.some.injEq,
        SqValue.nativeclosure.injEq] at hv hnative
      rw [if_pos hv.symm] at hnative
      cases hnative
  · have hforeign : Foreign h name := hf.resolve_right hn
    have hne : ¬ SqValue.string name = SqValue.string n := fun he => hn (SqValue.string.inj he).symm
    cases v with
    | some v =>
      refine hforeign f vs ⟨r, ?_, hr, hnative⟩
      simpa [SqHeap.bindEntry, SqHeap.root, SqHeap.setSlot, hne] using hv
    | none =>
      simp only [SqHeap.bindEntry, SqHeap.root, SqHeap.setSlot, hne, and_false, if_false] at hv hr hnative
      by_cases hnew : r = h.next
      · rw [if_pos hnew] at hnative
        cases hnative
      · rw [if_neg hnew] at hnative
        exact hforeign f vs ⟨r, hv, by omega, hnative⟩

theorem baseRegister_foreign (hn : name ∈ baseNames) : Foreign h.baseRegister name := by
  have hfold : ∀ (xs : List (Bytes × Option SqValue)) (h : SqHeap), (∀ x ∈ xs, ∀ r, x.2 ≠ some (.nativeclosure r)) →
      Foreign h name ∨ name ∈ xs.map (·.1) → Foreign (xs.foldl SqHeap.bindEntry h) name := by
    intro xs
    induction xs with
    | nil => exact fun h _ hf => hf.resolve_right List.not_mem_nil
    | cons x xs ih =>
      intro h hxs hf
      obtain ⟨hx, hrest⟩ := List.forall_mem_cons.mp hxs
      refine ih _ hrest ?_
      by_cases hrest' : name ∈ xs.map (·.1)
      · exact .inr hrest'
      · refine .inl (bindEntry_foreign hx (hf.imp_right fun hmem => ?_))
        rw [List.map_cons, List.mem_cons] at hmem
        exact (hmem.resolve_right hrest').symm
  refine hfold baseEntries h (fun x hx r => ?_) (.inr hn)
  simp only [baseEntries, List.mem_append, List.mem_map] at hx
  rcases hx with ⟨s, -, rfl⟩ | hx
  · simp
  · simp only [List.mem_cons, List.not_mem_nil, or_false] at hx
    rcases hx with rfl | rfl | rfl <;> simp

/-- The first thread that a script makes takes the names of the base library back. -/
theorem withThreads_invokes {c : SquirrelScriptContext} {d : FunctionDesc}
    (hroot : c.world.heap.roottable < c.world.heap.next)
    (hd : Bound c.world.heap (.function d)) (n : Nat) :
    Invokes (withThreads n c) d.name d ↔ n = 0 ∨ d.name ∉ baseNames := by
  have hforeign : ∀ (n : Nat) (c : SquirrelScriptContext), d.name ∈ baseNames → Foreign c.world.heap d.name →
      Foreign (withThreads n c).world.heap d.name := by
    intro n
    induction n with
    | zero => exact fun _ _ hf => hf
    | succ n ih => exact fun c hb _ => ih _ hb (baseRegister_foreign hb)
  have hbound : ∀ (n : Nat) (c : SquirrelScriptContext), d.name ∉ baseNames →
    c.world.heap.roottable < c.world.heap.next →
      Bound c.world.heap (.function d) → Bound (withThreads n c).world.heap (.function d) := by
    intro n
    induction n with
    | zero => exact fun _ _ _ hd => hd
    | succ n ih =>
      intro c hb hroot hd
      have hk := baseRegister_keeps c.world.heap
      have hroot' : c.world.heap.baseRegister.roottable < c.world.heap.baseRegister.next := by
        rw [hk.roottable]
        exact Nat.lt_of_lt_of_le hroot hk.next
      exact ih _ hb hroot' (Bound.keeps hroot hd hk hb)
  constructor
  · intro hinvokes
    cases n with
    | zero => exact .inl rfl
    | succ n =>
      refine .inr fun hb => ?_
      exact hforeign n { c with world := { c.world with heap := c.world.heap.baseRegister } } hb
        (baseRegister_foreign hb)
        _ _ hinvokes.bound
  · intro h
    rcases h with rfl | hb
    · exact hd.invokes
    · exact (hbound n c hb hroot hd).invokes

end Squirrel

/-! ## GameMonkey -/

namespace GameMonkey

/-- The name is bound to a function over `desc`, and a call of it runs the function of `desc`. -/
structure Invokes (c : GMScriptContext) (name : Bytes) (desc : FunctionDesc) : Prop where
  bound : c.world.IsFunction (c.world.globals name) .functionCallback (.functionInfo desc)
  calls : ∀ {α : Type} (function : CodePtr → GMScriptStack → GmS (UserResult α GMScriptStack)) (L : Nat)
    (this : GmValue) (args : List GmValue) (s : GmState),
    callNative L this args (gmFunctionCallback function L (.functionInfo desc)) s
      = callNative L this args
        (fun s₁ => (function desc.function (callbackStack (s₁.frame L).params.length) >>= callbackLeave) s₁) s

theorem Bound.invokes {c : GMScriptContext} {desc : FunctionDesc} (h : Bound c.world (.function desc)) :
    Invokes c desc.name desc where
  bound := h
  calls function L this args s := by
    generalize hs₁ : s.setFrame L { this, params := args, pushed := [] } = s₁
    simp only [callNative, hs₁, gmFunctionCallback, bind_ok functionEnter_ok]

theorem registrar_overwrites : registrar.Overwrites := by
  intro c desc _
  obtain ⟨c', hreg, hkeeps, hbound, -⟩ := @register_ok c (.function desc) trivial
  exact ⟨c', hreg, hkeeps, hbound, trivial⟩

end GameMonkey

/-! ## OCaml -/

namespace Ocaml

variable {vm : OcamlVm} {id : Nat} {p p' : OcamlProcess} {builtins : List Bytes} {fs : List CFunction} {name : Bytes}
  {desc : FunctionDesc}

/-- `RegisterFunction` answers true. -/
def accepted (desc : FunctionDesc) : Bool := desc.numParams = 0 ∨ desc.numParams = 1 ∨ desc.numParams = 2

def functions (id : Nat) : Machine OcamlProcess FunctionDesc Bool Fault := ⟨registerFunction id⟩

/-- A script that declares the name as an external, and no others that are unknown, is loaded
with the function of `desc` and its user data in both tables; and a call of that entry runs
the function of `desc`. -/
structure Invokes (vm : OcamlVm) (id : Nat) (p : OcamlProcess) (name : Bytes) (desc : FunctionDesc) : Prop where
  bound : ∀ (file : Bytecode) (i : Nat), file.reqPrims[i]? = some name →
    (∀ n ∈ file.reqPrims, n = name ∨ (lookupPrimitive vm.builtins p.rt.cFunctions n).isSome = true) →
    ∃ code rt, customCamlLoadCode vm.builtins file p.rt = some (code, rt) ∧
      code.tables.primTable[i]? = some (callbackFunction id desc).prim ∧
      code.tables.primTableUserData[i]? = some (some (callbackFunction id desc).userData)
  calls : ∀ {α : Type} (function : CodePtr → OcamlScriptStack → OcamlM (UserResult α OcamlScriptStack)) (i : Nat)
    (args : List Word) (s : OcamlProcess), s.rt.tables.primTable[i]? = some (callbackFunction id desc).prim →
    s.rt.tables.primTableUserData[i]? = some (some (callbackFunction id desc).userData) →
    ocamlCCall i args function s = (do
      let r ← function desc.function (callbackStack (args.take desc.numParams.toNat))
      ocamlAssert r.result "result"
      return (r.seen, r.stack.result)) s

/-- The tables that are built are those of the lookups. -/
theorem buildPrimitiveTable_get {names : List Bytes} {prims : List CPrimitive} {uds : List (Option OcamlFunctionInfo)}
    {i : Nat} (h : buildPrimitiveTable builtins fs names = some (prims, uds)) (hi : names[i]? = some name) :
    ∃ x, lookupPrimitive builtins fs name = some x ∧ prims[i]? = some x.1 ∧ uds[i]? = some x.2 := by
  induction names generalizing prims uds i with
  | nil => cases hi
  | cons n names ih =>
    rw [buildPrimitiveTable_cons, Option.bind_eq_some_iff] at h
    obtain ⟨x, hx, h⟩ := h
    obtain ⟨⟨prims, uds⟩, hr, h⟩ := Option.map_eq_some_iff.mp h
    cases h
    cases i with
    | zero =>
      cases hi
      exact ⟨x, hx, rfl, rfl⟩
    | succ i =>
      obtain ⟨y, hy⟩ := ih hr hi
      exact ⟨y, hy⟩

theorem buildPrimitiveTable_known {names : List Bytes}
    (h : ∀ n ∈ names, (lookupPrimitive builtins fs n).isSome = true) :
    ∃ r, buildPrimitiveTable builtins fs names = some r := by
  induction names with
  | nil => exact ⟨_, rfl⟩
  | cons n names ih =>
    obtain ⟨hn, hnames⟩ := List.forall_mem_cons.mp h
    obtain ⟨x, hx⟩ := Option.isSome_iff_exists.mp hn
    obtain ⟨r, hr⟩ := ih hnames
    exact ⟨_, by rw [buildPrimitiveTable_cons, hx, hr]; rfl⟩

/-- Which function runs is what the lookup of the name answers. -/
theorem Invokes.lookup (h : Invokes vm id p name desc) : lookupPrimitive vm.builtins p.rt.cFunctions name =
    some ((callbackFunction id desc).prim, some (callbackFunction id desc).userData) := by
  obtain ⟨code, rt, hload, hprim, hud⟩ := h.bound { content := 0, reqPrims := [name] } 0 rfl
    fun n hn => .inl (List.mem_singleton.mp hn)
  obtain ⟨⟨prims, uds⟩, hr, hcode⟩ := Option.map_eq_some_iff.mp hload
  cases hcode
  obtain ⟨⟨prim, ud⟩, hx, hx₁, hx₂⟩ := buildPrimitiveTable_get (i := 0) hr rfl
  rw [hx₁] at hprim
  rw [hx₂] at hud
  cases hprim
  cases hud
  exact hx

theorem invokes_of_lookup (hd : accepted desc = true) (h : lookupPrimitive vm.builtins p.rt.cFunctions name =
    some ((callbackFunction id desc).prim, some (callbackFunction id desc).userData)) : Invokes vm id p name desc where
  bound file i hi hknown := by
    have hall : ∀ n ∈ file.reqPrims, (lookupPrimitive vm.builtins p.rt.cFunctions n).isSome = true := by
      intro n hn
      rcases hknown n hn with rfl | hn
      · rw [h]; rfl
      · exact hn
    obtain ⟨⟨prims, uds⟩, hr⟩ := buildPrimitiveTable_known hall
    obtain ⟨x, hx, hx₁, hx₂⟩ := buildPrimitiveTable_get hr hi
    rw [h] at hx
    cases hx
    exact ⟨_, _, by rw [customCamlLoadCode, hr]; rfl, hx₁, hx₂⟩
  calls function i args s hprim hud := by
    have hassert : (desc.numParams == (desc.numParams.toNat : Int)) = true := by
      have hn : desc.numParams = 0 ∨ desc.numParams = 1 ∨ desc.numParams = 2 := by simpa [accepted] using hd
      rw [beq_iff_eq]
      omega
    rw [ocamlCCall, bind_ok (show getRt s = .ok (s.rt, s) from rfl)]
    simp only [hprim, hud, callbackFunction, ocamlFunctionCallback]
    rw [hassert, bind_ok (show ocamlAssert true _ s = .ok ((), s) from rfl)]

/-- What is registered is appended. -/
theorem functions_run {c : OcamlScriptContext} (descs : List FunctionDesc) (hc : p.contexts id = some c) :
    ∃ p', (functions id).run descs p = .ok (descs.map accepted, p') ∧
      p'.rt.cFunctions = p.rt.cFunctions ++ (descs.filter accepted).map (callbackFunction id) := by
  induction descs generalizing p c with
  | nil => exact ⟨p, rfl, (List.append_nil _).symm⟩
  | cons desc descs ih =>
    have hstep := registerFunction_eq desc hc
    by_cases hn : desc.numParams = 0 ∨ desc.numParams = 1 ∨ desc.numParams = 2
    · have ha : accepted desc = true := by simpa [accepted] using hn
      rw [if_pos hn] at hstep
      obtain ⟨p', hrun, hfs⟩ := ih (p := { p with
        rt := customCamlRegisterCFunction (callbackFunction id desc) p.rt
        contexts := Function.update p.contexts id
          (some { c with functions := c.functions ++ [desc], dirtyFakedDLL := true }) }) (Function.update_self _ _ _)
      refine ⟨p', ?_, ?_⟩
      · rw [Machine.run_cons (functions id) descs hstep, hrun, List.map_cons, ha]
        rfl
      · rw [hfs, List.filter_cons_of_pos ha]
        simp [customCamlRegisterCFunction]
    · have ha : ¬ accepted desc = true := by simpa [accepted] using hn
      rw [if_neg hn] at hstep
      obtain ⟨p', hrun, hfs⟩ := ih hc
      refine ⟨p', ?_, ?_⟩
      · rw [Machine.run_cons (functions id) descs hstep, hrun, List.map_cons, Bool.not_eq_true _ |>.mp ha]
        rfl
      · rw [hfs, List.filter_cons_of_neg ha]

/-- The first accepted descriptor of the name is `d`. -/
theorem lookup_registered (descs : List FunctionDesc) (d : FunctionDesc) :
    lookupPrimitive builtins ((descs.filter accepted).map (callbackFunction id)) name =
        some ((callbackFunction id d).prim, some (callbackFunction id d).userData) ↔
      name ∉ builtins ∧ (descs.filter accepted).find? (fun x => x.name = name) = some d := by
  rw [lookupPrimitive]
  by_cases hb : name ∈ builtins
  · simp [hb, callbackFunction]
  · have hfind : ((descs.filter accepted).map (callbackFunction id)).find? (fun f => f.name = name) =
        ((descs.filter accepted).find? fun x => x.name = name).map (callbackFunction id) := List.find?_map
    rw [if_neg hb, hfind]
    cases (descs.filter accepted).find? fun x => x.name = name with
    | none => simp
    | some x =>
      simp only [Option.map_some, Option.some.injEq, Prod.mk.injEq, hb, not_false_eq_true, true_and]
      constructor
      · intro h
        exact congrArg OcamlFunctionInfo.desc h.2
      · intro h
        rw [h]
        exact ⟨rfl, rfl⟩

end Ocaml

/-! ## The four backends -/

/-- **The latest registration.** Functions are registered in a context that has just been
created. A script that calls a name then runs what was registered under it last: in Lua and
GameMonkey always; in Squirrel exactly if no thread has been made since, or the name is not one
of the base library; in OCaml exactly if the name is no primitive of the runtime and the first
descriptor accepted under it is the last one's. -/
theorem latest_registration_iff (lua : Lua.LuaVm) (ocaml : Ocaml.OcamlVm) (descs : List FunctionDesc) (name : Bytes)
    (d : FunctionDesc) (hlast : lastNamed name descs = some d) :
    (∀ h : Lua.LuaHeap, h.Plain → ∃ c', (Lua.registrar lua).machine.run (descs.map .function) (Lua.createContext h) =
        .ok (descs.map fun _ => true, c') ∧ Lua.Invokes c' name d) ∧
    (∀ h : Squirrel.SqHeap, h.roottable < h.next → ∃ c',
      Squirrel.registrar.machine.run (descs.map .function) (Squirrel.createContext h) =
        .ok (descs.map fun _ => true, c') ∧
      ∀ n, Squirrel.Invokes (Squirrel.withThreads n c') name d ↔ n = 0 ∨ name ∉ Squirrel.baseNames) ∧
    (∀ next globals function, ∃ c',
      GameMonkey.registrar.machine.run (descs.map .function) (GameMonkey.createContext next globals function) =
        .ok (descs.map fun _ => true, c') ∧ GameMonkey.Invokes c' name d) ∧
    ∀ id p, Ocaml.JustCreated id p → ∃ p', (Ocaml.functions id).run descs p = .ok (descs.map Ocaml.accepted, p') ∧
      (Ocaml.Invokes ocaml id p' name d ↔
        name ∉ ocaml.builtins ∧ (descs.filter Ocaml.accepted).find? (fun x => x.name = name) = some d) := by
  have hname : d.name = name := by simpa using List.find?_some hlast
  refine ⟨fun h hp => ?_, fun h hroot => ?_, fun next globals function => ?_, fun id p hcreated => ?_⟩
  · obtain ⟨c', hrun, -, hbound⟩ := Registrar.run_latest (Lua.registrar_overwrites lua)
      (show (Lua.registrar lua).Base (Lua.createContext h) from ⟨rfl, hp⟩) descs
    exact ⟨c', hrun, hname ▸ Lua.Bound.invokes (hbound name d hlast)⟩
  · obtain ⟨c', hrun, hb, hbound⟩ := Registrar.run_latest Squirrel.registrar_overwrites
      (show Squirrel.registrar.Base (Squirrel.createContext h) from ⟨rfl, hroot⟩) descs
    exact ⟨c', hrun, fun n => hname ▸ Squirrel.withThreads_invokes hb.root (hbound name d hlast) n⟩
  · obtain ⟨c', hrun, -, hbound⟩ := Registrar.run_latest GameMonkey.registrar_overwrites trivial descs
    exact ⟨c', hrun, hname ▸ GameMonkey.Bound.invokes (hbound name d hlast)⟩
  · obtain ⟨hempty, c, hc⟩ := hcreated.empty
    obtain ⟨p', hrun, hfs⟩ := Ocaml.functions_run descs hc
    rw [hempty, List.nil_append] at hfs
    refine ⟨p', hrun, fun h => ?_, fun h => ?_⟩
    · exact (Ocaml.lookup_registered descs d).mp (hfs ▸ h.lookup)
    · have ha : Ocaml.accepted d = true := (List.mem_filter.mp (List.mem_of_find?_eq_some h.2)).2
      refine Ocaml.invokes_of_lookup ha ?_
      rw [hfs]
      exact (Ocaml.lookup_registered descs d).mpr h

/-- Two functions of one name, and one with the name of a primitive of the runtime. -/
def Ocaml.sameName : List FunctionDesc :=
  [{ addr := 1, name := cstr "f", function := 100, numParams := 1 },
    { addr := 2, name := cstr "f", function := 101, numParams := 1 },
    { addr := 3, name := cstr "caml_ml_output", function := 102, numParams := 2 }]

/-- In OCaml the first of the two runs, and the third does not. In Squirrel a function under the
name `print` is gone when a thread is made. -/
theorem latest_registration_first :
    let ocaml := { Ocaml.OcamlVm.printing [] with builtins := [cstr "caml_ml_output"] }
    let print : FunctionDesc := { addr := 4, name := cstr "print", function := 103, numParams := 1 }
    (∃ c', Squirrel.registrar.machine.run [.function print] (Squirrel.createContext (.binding [])) = .ok ([true], c') ∧
      ¬ Squirrel.Invokes (Squirrel.withThreads 1 c') (cstr "print") print) ∧
    ∃ d₁ d₂ d₃ p', Ocaml.sameName = [d₁, d₂, d₃] ∧ lastNamed (cstr "f") Ocaml.sameName = some d₂ ∧
      lastNamed (cstr "caml_ml_output") Ocaml.sameName = some d₃ ∧
      (Ocaml.functions 0).run Ocaml.sameName Ocaml.noDLL = .ok ([true, true, true], p') ∧
      Ocaml.Invokes ocaml 0 p' (cstr "f") d₁ ∧ ¬ Ocaml.Invokes ocaml 0 p' (cstr "f") d₂ ∧
      ¬ Ocaml.Invokes ocaml 0 p' (cstr "caml_ml_output") d₃ := by
  intro ocaml print
  refine ⟨⟨_, rfl, fun h => ?_⟩, _, _, _, _, rfl, by decide, by decide, rfl, ?_, fun h => ?_, fun h => ?_⟩
  · exact Squirrel.baseRegister_foreign (by decide) _ _ h.bound
  · exact Ocaml.invokes_of_lookup rfl (by decide)
  · exact absurd h.lookup (by decide)
  · exact absurd h.lookup (by decide)

/-- The first two under different names. -/
theorem latest_registration_iff_two :
    let descs : List FunctionDesc := [{ addr := 1, name := cstr "f", function := 100, numParams := 1 },
      { addr := 2, name := cstr "g", function := 101, numParams := 0 }]
    ∃ d p', lastNamed (cstr "g") descs = some d ∧
      (Ocaml.functions 0).run descs Ocaml.noDLL = .ok ([true, true], p') ∧
      Ocaml.Invokes (.printing []) 0 p' (cstr "g") d := by
  intro descs
  have hlatest := latest_registration_iff (.ending (.returned [])) (.printing []) descs (cstr "g") _ (by rfl)
  obtain ⟨p', hrun, hinvokes⟩ := hlatest.2.2.2 0 _ Ocaml.noDLL_justCreated
  exact ⟨_, p', rfl, hrun, hinvokes.mpr ⟨List.not_mem_nil, by decide⟩⟩

end MultiScript
