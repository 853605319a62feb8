/-
Method calls. A script constructs an object and calls a method on it by its name.
The name leads to a closure of the class, and what travels in that closure (the
upvalues in Lua, the outer values in Squirrel, a pointer into a vector in
GameMonkey) back to the descriptor of the method.
-/
import MultiScript.NewObjects
import MultiScript.GameMonkey.Registration
import MultiScript.GameMonkey.Callbacks

namespace MultiScript

open Act

/-- The names of the methods of a class: different identifiers that mean nothing else
in one of the languages. A vector of descriptors has fewer elements than an `int`
counts. -/
structure ClassDesc.WellNamed (desc : ClassDesc) : Prop where
  distinct : (desc.methods.map (·.name)).Nodup
  plain : ∀ m ∈ desc.methods, m.name.head? ≠ (cstr "_").head?
  reserved : ∀ m ∈ desc.methods, m.name ∉ [cstr "constructor", cstr "AsString", cstr "Destroy"]
  size : desc.methods.length ≤ 2 ^ 31

namespace ClassDesc.WellNamed

variable {desc : ClassDesc} {m : ClassMethodDesc} {i : Nat}

theorem lt_length (hm : desc.methods[i]? = some m) : i < desc.methods.length :=
  (List.getElem?_eq_some_iff.mp hm).1

theorem mem_methods (hm : desc.methods[i]? = some m) : m ∈ desc.methods := List.mem_of_getElem? hm

theorem isInt32 (hn : desc.WellNamed) (hm : desc.methods[i]? = some m) : IsInt32 i := by
  have hlt := lt_length hm
  have hsize := hn.size
  constructor <;> omega

/-- A method is found by its name among the methods. -/
theorem find_method (hn : desc.WellNamed) (hm : desc.methods[i]? = some m) :
    desc.methods.zipIdx.reverse.find? (·.1.name == m.name) = some (m, i) := by
  have hmem : (m, i) ∈ desc.methods.zipIdx.reverse := by
    rw [List.mem_reverse, List.mem_zipIdx_iff_getElem?]
    exact hm
  have huniq : ∀ x ∈ desc.methods.zipIdx.reverse, x.1.name = m.name → x = (m, i) := by
    rintro ⟨m', j⟩ hx he
    rw [List.mem_reverse, List.mem_zipIdx_iff_getElem?] at hx
    have hx' : desc.methods[j]? = some m' := hx
    have hname : (desc.methods.map (·.name))[j]? = (desc.methods.map (·.name))[i]? := by
      rw [List.getElem?_map, List.getElem?_map, hx', hm]
      exact congrArg some he
    have hj : j < (desc.methods.map (·.name)).length := by
      rw [List.length_map]
      exact lt_length hx'
    obtain rfl := (List.getElem?_inj hj hn.distinct).mp hname
    rw [hm] at hx'
    cases hx'
    rfl
  cases hf : desc.methods.zipIdx.reverse.find? (·.1.name == m.name) with
  | none =>
    have hno := List.find?_eq_none.mp hf (m, i) hmem
    simp at hno
  | some x =>
    have hx := List.find?_some hf
    exact congrArg some (huniq x (List.mem_of_find?_eq_some hf) (by simpa using hx))

/-- The same, where each method has an entry under its name, before the entries of the
backend. -/
theorem find_entry {β : Type} {f : ClassMethodDesc × Nat → β} {tail : List (Bytes × β)} (hn : desc.WellNamed)
    (hm : desc.methods[i]? = some m)
    (htail : ∀ x ∈ tail, x.1 ∈ [cstr "constructor", cstr "AsString", cstr "Destroy"]) :
    (desc.methods.zipIdx.map (fun x => (x.1.name, f x)) ++ tail).reverse.find? (·.1 == m.name)
      = some (m.name, f (m, i)) := by
  have hrest : tail.reverse.find? (·.1 == m.name) = none := by
    rw [List.find?_eq_none]
    intro x hx he
    have hres := htail x (List.mem_reverse.mp hx)
    rw [beq_iff_eq.mp he] at hres
    exact hn.reserved m (mem_methods hm) hres
  rw [List.reverse_append, List.find?_append, hrest, ← List.map_reverse, List.find?_map]
  have hfind := hn.find_method hm
  simp only [Function.comp_def]
  rw [hfind]
  rfl

end ClassDesc.WellNamed

/-! ## Lua -/

namespace Lua

variable {vm : LuaVm} {s : LuaState} {desc : ClassDesc} {m mt t u p : Nat}

/-- What `luaV_gettable` finds for a userdata whose metatable has a table of members. -/
def LuaVm.Indexes (vm : LuaVm) : Prop :=
  ∀ u mt m k v w, (w.heap.userdata u).metatable = some mt →
    (w.heap.table mt).slot (.string (cstr "__index")) = .table m → (w.heap.table m).slot k = v → v ≠ .nil →
    vm.index (.userdata u) k w = (some v, w)

/-- A VM that does just that. -/
def LuaVm.indexing : LuaVm :=
  { LuaVm.ending (.returned []) with
    index := fun t k w =>
      match t with
      | .userdata u =>
        match (w.heap.userdata u).metatable with
        | some mt =>
          match (w.heap.table mt).slot (.string (cstr "__index")) with
          | .table m => (some ((w.heap.table m).slot k), w)
          | _ => (none, w)
        | none => (none, w)
      | _ => (none, w) }

theorem indexing_indexes : LuaVm.indexing.Indexes := by
  intro u mt m k v w hmeta hindex hslot _
  simp [LuaVm.indexing, hmeta, hindex, hslot]

/-- The userdata `u` is an object of the class, with the wrapper `p`, and not destroyed. -/
structure Instance (desc : ClassDesc) (m mt t u p : Nat) (s : LuaState) : Prop where
  tables : s.world.heap.ClassAt desc m mt t
  userdata : s.world.heap.userdata u = { block := some p, metatable := some mt }
  object : ∃ w, s.objects.get p = some w ∧ w.objectPtr.isSome = true

/-- What is called under the name on `u` is the method, once, with the wrapper `p` and a
stack of the arguments. -/
def Dispatches (vm : LuaVm) (name : Bytes) (code : CodePtr) (u p : Nat) (s : LuaState) : Prop :=
  ∃ r ups, luaVGettable vm (.userdata u) (.string name) s.world = .ok (.function r, s.world) ∧
    s.world.heap.closure r = .c .classMethodCallback ups ∧
    ∀ (α : Type) (args : List LuaValue) (method : CodePtr → Nat → LuaScriptStack → LuaS (UserResult α LuaScriptStack)),
      callC mainThread (.function r) (.userdata u :: args) (luaClassMethodCallback vm method mainThread) s
        = callC mainThread (.function r) args (method code p (callbackStack args.length) >>= callbackLeave) s

theorem member_method {i : Nat} {method : ClassMethodDesc} (hn : desc.WellNamed) (hm : desc.methods[i]? = some method) :
    ClassDesc.member desc method.name
      = some (.classMethodCallback, [.lightuserdata (.classInfo desc), .number (.ofInt i)]) := by
  simp only [ClassDesc.member, hn.find_method hm]

theorem Instance.dispatches {i : Nat} {method : ClassMethodDesc} (hv : vm.Indexes) (hi : Instance desc m mt t u p s)
    (hn : desc.WellNamed) (hm : desc.methods[i]? = some method) : Dispatches vm method.name method.method u p s := by
  have hmember := hi.tables.member method.name
  rw [member_method hn hm] at hmember
  obtain ⟨r, hslot, -, hc⟩ := hmember
  have hindex := hv u mt m (.string method.name) (.function r) s.world (by rw [hi.userdata]) hi.tables.index hslot
    (by simp)
  refine ⟨r, _, by simp only [luaVGettable, luaIndexMeta, hindex], hc, fun α args user => ?_⟩
  have hslots : (.userdata u :: args).reverse = args.reverse ++ [LuaValue.userdata u] := List.reverse_cons
  generalize hs₁ : s.setFrame mainThread { func := .function r, slots := (.userdata u :: args).reverse } = s₁
  have hframe : s₁.frame mainThread = { func := .function r, slots := args.reverse ++ [.userdata u] } := by
    rw [← hs₁, setFrame_self, hslots]
  have henter := @methodEnter_ok vm s₁ mainThread r u p i desc args .classMethodCallback method (by rw [hframe])
    (by rw [← hs₁]; exact hc) (by rw [hframe]) (by rw [← hs₁, setFrame_world, hi.userdata]) hm (hn.isInt32 hm)
  have hargs : LuaState.setSlots s₁ mainThread args.reverse
      = s.setFrame mainThread { func := .function r, slots := args.reverse } := by
    simp [← hs₁, LuaState.setSlots, VmState.setFrame]
  rw [hargs, setFrame_self, List.length_reverse] at henter
  have hcall : luaClassMethodCallback vm user mainThread s₁
      = (user method.method p (callbackStack args.length) >>= callbackLeave)
        (s.setFrame mainThread { func := .function r, slots := args.reverse }) := by
    rw [luaClassMethodCallback, bind_ok henter]
  simp only [callC, hs₁, hcall]

/-- What the user's constructor has left for the wrapper `p`: an object in it, the class
as it was, and nothing in its own frame. -/
structure Constructed (desc : ClassDesc) (m mt t p : Nat) (f : LuaValue) (st : LuaScriptStack) (s : LuaState) :
    Prop where
  class_ : s.world.heap.Registered desc m mt t
  registry : (s.world.heap.table s.world.heap.registry).metatable = none
  frame : s.frame mainThread = { func := f, slots := [] }
  pushed : st.numPushed = 0
  object : ∃ w, s.objects.get p = some w ∧ w.objectPtr.isSome = true

/-- The state in which the user's constructor is called. -/
def constructing (s : LuaState) (f : LuaValue) (args : List LuaValue) : LuaState :=
  { s.setFrame mainThread { func := f, slots := args.reverse } with objects := s.objects.new {} }

/-- The constructor of a class makes an object of it. -/
theorem construct_instance {α : Type} {r : Nat} {args : List LuaValue} {a : α} {st : LuaScriptStack} {s' : LuaState}
    {ctor : Option CodePtr → LuaScriptStack → Nat → LuaS (α × LuaScriptStack)}
    (hc : s.world.heap.closure r = .c .classConstructorCallback [.lightuserdata (.classInfo desc)])
    (hctor : ctor desc.constructor (callbackStack args.length) s.objects.next (constructing s (.function r) args)
      = .ok ((a, st), s'))
    (hd : Constructed desc m mt t s.objects.next (.function r) st s') :
    ∃ u s'', callC mainThread (.function r) (.table m :: args) (luaClassConstructorCallback vm ctor mainThread) s
        = .ok ((a, [.userdata u]), s'') ∧ Instance desc m mt t u s.objects.next s'' := by
  obtain ⟨w, hw, ho⟩ := hd.object
  generalize hs₁ : s.setFrame mainThread { func := .function r, slots := (.table m :: args).reverse } = s₁
  have hframe : s₁.frame mainThread = { func := .function r, slots := args.reverse ++ [.table m] } := by
    rw [← hs₁, setFrame_self, List.reverse_cons]
  have henter := @constructorEnter_ok s₁ mainThread r desc args .classConstructorCallback m (by rw [hframe])
    (by rw [← hs₁]; exact hc) (by rw [hframe])
  have hargs : ({ LuaState.setSlots s₁ mainThread args.reverse with objects := s₁.objects.new {} } : LuaState)
      = constructing s (.function r) args := by
    simp [← hs₁, LuaState.setSlots, VmState.setFrame, constructing]
  have hobjects : s₁.objects = s.objects := by rw [← hs₁, setFrame_objects]
  have hlen : ((LuaState.setSlots s₁ mainThread args.reverse).frame mainThread).slots.length = args.length := by
    simp [LuaState.setSlots]
  rw [hargs, hlen, hobjects] at henter
  have hread : onObjects (fun o => (o.read s.objects.next).map (·, o)) s' = .ok (w, s') := by
    simp [onObjects, Objects.read_some hw, Except.map]
  have hdata := @newObjectData_eq vm (s'.context luaView mainThread) desc.name s.objects.next hd.registry
  rw [show ((s'.context luaView mainThread).world.heap.table (s'.context luaView mainThread).world.heap.registry).slot
    (.string desc.name) = .table mt from hd.class_.registry] at hdata
  let s₂ : LuaState := s'.setContext luaView mainThread ({ s'.context luaView mainThread with
    slots := [.userdata s'.world.heap.next] }.setHeap (s'.world.heap.newUserdata s.objects.next mt))
  have hleave : constructorLeave vm mainThread desc s.objects.next st s' = .ok (1, s₂) := by
    have hslots : (s'.context luaView mainThread).slots = [] := congrArg LuaFrame.slots hd.frame
    rw [hslots] at hdata
    rw [constructorLeave, bind_ok hread, ho, bind_ok (vmAssert_true _), hd.pushed]
    refine (bind_ok (vmAssert_true _)).trans ?_
    rw [bind_ok (onThread_ok hdata)]
    rfl
  have hcall : luaClassConstructorCallback vm ctor mainThread s₁ = .ok ((a, 1), s₂) := by
    rw [luaClassConstructorCallback, bind_ok henter, bind_ok hctor, bind_ok hleave]
    rfl
  refine ⟨s'.world.heap.next, s₂.setFrame mainThread (s.frame mainThread), ?_, hd.class_.newUserdata.tables,
    ?_, ⟨w, hw, ho⟩⟩
  · simp only [callC, hs₁, hcall]
    simp [s₂, VmState.setContext, luaView, LuaScriptContext.setHeap, VmState.context]
  · simp [s₂, VmState.setContext, luaView, LuaScriptContext.setHeap, LuaHeap.newUserdata]

/-- Where the class is registered, what a script constructs is an object of it, and a
method called on the object by name reaches the method, as long as the object is that. -/
def CallsMethods (vm : LuaVm) (desc : ClassDesc) (m mt t : Nat) : Prop :=
  ∀ s : LuaState, s.world.heap.Registered desc m mt t →
    ∃ r, (s.world.heap.table t).slot (.string (cstr "__call")) = .function r ∧
      s.world.heap.closure r = .c .classConstructorCallback [.lightuserdata (.classInfo desc)] ∧
      ∀ (α : Type) (args : List LuaValue) (ctor : Option CodePtr → LuaScriptStack → Nat → LuaS (α × LuaScriptStack))
        (a : α) (st : LuaScriptStack) (s' : LuaState),
        ctor desc.constructor (callbackStack args.length) s.objects.next (constructing s (.function r) args)
          = .ok ((a, st), s') →
        Constructed desc m mt t s.objects.next (.function r) st s' →
        ∃ u s'', callC mainThread (.function r) (.table m :: args) (luaClassConstructorCallback vm ctor mainThread) s
            = .ok ((a, [.userdata u]), s'') ∧ Instance desc m mt t u s.objects.next s'' ∧
          ∀ (s₃ : LuaState) (i : Nat) (method : ClassMethodDesc), Instance desc m mt t u s.objects.next s₃ →
            desc.methods[i]? = some method → Dispatches vm method.name method.method u s.objects.next s₃

theorem callsMethods (hv : vm.Indexes) (hn : desc.WellNamed) : CallsMethods vm desc m mt t := by
  intro s hr
  obtain ⟨r, hslot, -, hc⟩ := hr.tables.call
  refine ⟨r, hslot, hc, fun α args ctor a st s' hctor hd => ?_⟩
  obtain ⟨u, s'', hcall, hi⟩ := @construct_instance vm s desc m mt t α r args a st s' ctor hc hctor hd
  exact ⟨u, s'', hcall, hi, fun s₃ i method hi₃ hm => hi₃.dispatches hv hn hm⟩

end Lua

/-! ## Squirrel -/

namespace Squirrel

variable {vm : SqVm} {s : SqState} {desc : ClassDesc} {q i p : Nat}

/-- A frame over the caller's, with the outer values taken off. -/
def SqFrame.call (caller : SqFrame) (this : SqValue) (args : List SqValue) : SqFrame :=
  { stack := args.reverse ++ this :: caller.stack, stackbase := caller.stack.length }

theorem call_count {caller : SqFrame} {this : SqValue} {args : List SqValue} :
    (caller.call this args).count = args.length := by
  simp only [SqFrame.count, SqFrame.call, List.length_append, List.length_reverse, List.length_cons]
  omega

/-- What `SQVM::Get` finds for an instance: the methods of its class. -/
def SqVm.Members (vm : SqVm) : Prop :=
  ∀ i k n w, w.heap.slot (w.heap.instances i).sqclass k = some (.nativeclosure n) →
    vm.get (.sqinstance i) k w = (some (.nativeclosure n), w)

def SqVm.withMembers : SqVm :=
  { SqVm.ending none with
    get := fun self k w =>
      match self with
      | .sqinstance i => (w.heap.slot (w.heap.instances i).sqclass k, w)
      | _ => (none, w) }

theorem withMembers_members : SqVm.withMembers.Members := by
  intro i k n w hslot
  simp [SqVm.withMembers, hslot]

/-- `i` is an instance of the class, with the wrapper `p`, and not destroyed. -/
structure Instance (desc : ClassDesc) (q i p : Nat) (s : SqState) : Prop where
  members : s.world.heap.ClassAt desc q
  sqclass : (s.world.heap.instances i).sqclass = q
  userpointer : (s.world.heap.instances i).userpointer = some p
  object : ∃ w, s.objects.get p = some w ∧ w.objectPtr.isSome = true

def Dispatches (vm : SqVm) (name : Bytes) (code : CodePtr) (i p : Nat) (s : SqState) : Prop :=
  ∃ n vs, vm.get (.sqinstance i) (.string name) s.world = (some (.nativeclosure n), s.world) ∧
    s.world.heap.native n = .backend .classMethodCallback vs ∧
    ∀ (α : Type) (args : List SqValue)
      (method : CodePtr → Nat → SquirrelScriptStack → SqS (UserResult α SquirrelScriptStack)),
      callNative mainThread vs (.sqinstance i) args (squirrelClassMethodCallback method mainThread) s
        = callNative mainThread [] (.sqinstance i) args (method code p (callbackStack args.length) >>= callbackLeave) s

theorem member_method {j : Nat} {method : ClassMethodDesc} (hn : desc.WellNamed) (hm : desc.methods[j]? = some method) :
    member desc method.name = some (.classMethodCallback, [.integer j, .userpointer (.classInfo desc)]) := by
  unfold member SqHeap.members
  rw [List.append_assoc, hn.find_entry hm]
  · rfl
  · intro x hx
    rcases List.mem_append.mp hx with hx | hx
    · simp only [List.mem_cons, List.not_mem_nil, or_false] at hx
      rcases hx with rfl | rfl <;> simp
    · cases hg : desc.garbageCollect <;> simp_all

/-- Names that do not begin with an underscore are no metamethods. -/
theorem plain_name {j : Nat} {method : ClassMethodDesc} (hn : desc.WellNamed) (hm : desc.methods[j]? = some method) :
    method.name ∉ metamethodNames := by
  intro hmem
  have hall : ∀ name ∈ metamethodNames, name.head? = (cstr "_").head? := by decide
  exact hn.plain method (ClassDesc.WellNamed.mem_methods hm) (hall _ hmem)

theorem Instance.dispatches {j : Nat} {method : ClassMethodDesc} (hv : vm.Members) (hi : Instance desc q i p s)
    (hn : desc.WellNamed) (hm : desc.methods[j]? = some method) : Dispatches vm method.name method.method i p s := by
  obtain ⟨w, hw, ho⟩ := hi.object
  have hmember := hi.members.members method.name
  rw [member_method hn hm, SqHeap.memberOf, if_neg (plain_name hn hm)] at hmember
  obtain ⟨n, hslot, -, hnative⟩ := hmember
  have hget := hv i (.string method.name) n s.world (by rw [hi.sqclass]; exact hslot)
  refine ⟨n, _, hget, hnative, fun α args user => ?_⟩
  generalize hs₁ : s.setFrame mainThread { stack := [SqValue.integer j, .userpointer (.classInfo desc)].reverse ++
    (args.reverse ++ .sqinstance i :: (s.frame mainThread).stack), stackbase := (s.frame mainThread).stack.length } = s₁
  have hframe : s₁.frame mainThread = { stack := .userpointer (.classInfo desc) :: .integer j ::
      (args.reverse ++ .sqinstance i :: (s.frame mainThread).stack), stackbase := (s.frame mainThread).stack.length } := by
    rw [← hs₁, setFrame_self]
    rfl
  have henter := @methodEnter_ok s₁ mainThread i p j desc args (s.frame mainThread).stack method w (by rw [hframe])
    (by rw [hframe]) (by rw [← hs₁]; exact hi.userpointer) (by rw [← hs₁]; exact hw) ho hm
  have hargs : SqState.setStack s₁ mainThread (args.reverse ++ .sqinstance i :: (s.frame mainThread).stack)
      = s.setFrame mainThread ((s.frame mainThread).call (.sqinstance i) args) := by
    simp [← hs₁, SqState.setStack, VmState.setFrame, SqFrame.call]
  rw [hargs, setFrame_self, call_count] at henter
  have hcall : squirrelClassMethodCallback user mainThread s₁
      = (user method.method p (callbackStack args.length) >>= callbackLeave)
        (s.setFrame mainThread ((s.frame mainThread).call (.sqinstance i) args)) := by
    rw [squirrelClassMethodCallback, bind_ok henter]
  simp only [callNative, hs₁, hcall, List.reverse_nil]
  rfl

/-- What the user's constructor has left: of its frame the instance alone. -/
structure Constructed (desc : ClassDesc) (q i p : Nat) (below : List SqValue) (st : SquirrelScriptStack) (s : SqState) :
    Prop where
  members : s.world.heap.ClassAt desc q
  sqclass : (s.world.heap.instances i).sqclass = q
  frame : s.frame mainThread = { stack := .sqinstance i :: below, stackbase := below.length }
  pushed : st.numPushed = 0
  object : ∃ w, s.objects.get p = some w ∧ w.objectPtr.isSome = true

/-- The state in which the user's constructor is called. -/
def constructing (s : SqState) (desc : ClassDesc) (q : Nat) (args : List SqValue) : SqState where
  frame := Function.update s.frame mainThread ((s.frame mainThread).call (.sqinstance s.world.heap.next) args)
  world := { s.world with heap := s.world.heap.createInstance q }
  objects := s.objects.new { classInfo := some desc }

/-- An instance with its wrapper and its hook. -/
def SqHeap.bind (h : SqHeap) (i p : Nat) : SqHeap :=
  { h with instances := fun i' =>
      if i' = i then { h.instances i with userpointer := some p, hook := true } else h.instances i' }

/-- What the constructor callback does to the instance on top. -/
theorem bindInstance_ok {rest : List SqValue} (hs : (s.frame mainThread).stack = .sqinstance i :: rest) :
    (do
      let _ ← onThread sqView mainThread (sqSetinstanceup (-1) p)
      onThread sqView mainThread (sqSetreleasehook (-1)) : SqS Unit) s
      = .ok ((), { s with world := { s.world with heap := s.world.heap.bind i p } }) := by
  have htop : (s.context sqView mainThread).at (-1) = .sqinstance i := at_top hs
  let h₁ : SqHeap := { s.world.heap with instances := fun r' =>
    if r' = i then { s.world.heap.instances i with userpointer := some p } else s.world.heap.instances r' }
  let s₁ : SqState := { s with world := { s.world with heap := h₁ } }
  have hup : onThread sqView mainThread (sqSetinstanceup (-1) p) s = .ok (true, s₁) := by
    simp only [onThread, sqSetinstanceup, htop]
    simp [VmState.setContext, sqView, SquirrelScriptContext.setHeap, VmState.context, s₁, h₁]
  have htop₁ : (s₁.context sqView mainThread).at (-1) = .sqinstance i := at_top hs
  have hbind :
    ({ h₁ with instances := fun r' => if r' = i then { h₁.instances i with hook := true } else h₁.instances r' }
      : SqHeap) = s.world.heap.bind i p := by
    have hinst : (fun r' => if r' = i then { h₁.instances i with hook := true } else h₁.instances r')
        = (s.world.heap.bind i p).instances := by
      funext r'
      by_cases hr : r' = i
      · simp [hr, h₁, SqHeap.bind]
      · simp [hr, h₁, SqHeap.bind]
    rw [hinst]
    rfl
  rw [bind_ok hup]
  simp only [onThread, sqSetreleasehook, htop₁]
  refine congrArg (fun x => Except.ok ((), x)) ?_
  rw [← hbind]
  simp [VmState.setContext, sqView, SquirrelScriptContext.setHeap, VmState.context, s₁]

theorem constructorLeave_ok {rest : List SqValue} {st : SquirrelScriptStack} {w : ScriptObject}
    (hs : (s.frame mainThread).stack = .sqinstance i :: rest) (hw : s.objects.get p = some w)
    (ho : w.objectPtr.isSome = true) (hst : st.numPushed = 0) :
    constructorLeave mainThread p st s =
      .ok (0, { s with world := { s.world with heap := s.world.heap.bind i p } }) := by
  have hread : onObjects (fun o => (o.read p).map (·, o)) s = .ok (w, s) := by
    simp [onObjects, Objects.read_some hw, Except.map]
  rw [constructorLeave, bind_ok hread, ho, bind_ok (vmAssert_true _), hst]
  refine (bind_ok (vmAssert_true _)).trans ?_
  rw [← bind_assoc, bind_ok (bindInstance_ok hs)]
  rfl

theorem SqHeap.ClassAt.bind {h : SqHeap} (hc : h.ClassAt desc q) : (h.bind i p).ClassAt desc q where
  lt := hc.lt
  base := hc.base
  members := hc.members

theorem SqHeap.ClassAt.createInstance {h : SqHeap} {r : Nat} (hc : h.ClassAt desc q) :
    (h.createInstance r).ClassAt desc q where
  lt := Nat.lt_succ_of_lt hc.lt
  base := lock_base.trans hc.base
  members name := by
    have hmember : (h.createInstance r).memberOf q name = h.memberOf q name := by
      simp only [SqHeap.memberOf, SqHeap.createInstance, SqHeap.lock]
      split
      · split <;> rfl
      · rfl
    have hmem := hc.members name
    rw [hmember]
    cases hd : member desc name with
    | some x =>
      rw [hd] at hmem
      exact SqHeap.IsNative.mono hmem (Nat.le_succ _) fun _ _ => rfl
    | none =>
      rw [hd] at hmem
      exact hmem

/-- The constructor of a class binds its wrapper to the instance. -/
theorem construct_instance {α : Type} {args : List SqValue} {a : α} {st : SquirrelScriptStack} {s' : SqState}
    {ctor : Option CodePtr → SquirrelScriptStack → Nat → SqS (α × SquirrelScriptStack)}
    (hctor : ctor desc.constructor (callbackStack args.length) s.objects.next (constructing s desc q args)
      = .ok ((a, st), s'))
    (hd : Constructed desc q s.world.heap.next s.objects.next (s.frame mainThread).stack st s') :
    ∃ s'', callClass mainThread q [.userpointer (.classInfo desc)] args
      (squirrelClassConstructorCallback ctor mainThread) s
        = .ok ((a, .sqinstance s.world.heap.next), s'') ∧ Instance desc q s.world.heap.next s.objects.next s'' := by
  obtain ⟨w, hw, ho⟩ := hd.object
  let s₀ : SqState := { s with world := { s.world with heap := s.world.heap.createInstance q } }
  generalize hs₁ : s₀.setFrame mainThread { stack := [SqValue.userpointer (.classInfo desc)].reverse ++
    (args.reverse ++ .sqinstance s.world.heap.next :: (s₀.frame mainThread).stack),
                                            stackbase := (s₀.frame mainThread).stack.length } = s₁
  have hframe : s₁.frame mainThread = { stack := .userpointer (.classInfo desc) ::
      (args.reverse ++ .sqinstance s.world.heap.next :: (s.frame mainThread).stack),
                                        stackbase := (s.frame mainThread).stack.length } := by
    rw [← hs₁, setFrame_self]
    rfl
  have henter := @constructorEnter_ok s₁ mainThread desc
    (args.reverse ++ .sqinstance s.world.heap.next :: (s.frame mainThread).stack) (by rw [hframe])
  have hargs :
    ({ SqState.setStack s₁ mainThread (args.reverse ++ .sqinstance s.world.heap.next :: (s.frame mainThread).stack)
      with objects := s₁.objects.new { classInfo := some desc } } : SqState) = constructing s desc q args := by
    simp [← hs₁, SqState.setStack, VmState.setFrame, constructing, SqFrame.call, s₀]
  have hcount : ((SqState.setStack s₁ mainThread (args.reverse ++ .sqinstance s.world.heap.next ::
      (s.frame mainThread).stack)).frame mainThread).count = args.length := by
    rw [setStack_frame_self, hframe]
    exact call_count
  have hobjects : s₁.objects = s.objects := by rw [← hs₁, setFrame_objects]
  rw [hargs, hcount, hobjects] at henter
  let s₂ : SqState := { s' with world := { s'.world with heap := s'.world.heap.bind s.world.heap.next s.objects.next } }
  have hleave : constructorLeave mainThread s.objects.next st s' = .ok (0, s₂) :=
    constructorLeave_ok (by rw [hd.frame]) hw ho hd.pushed
  have hcall : squirrelClassConstructorCallback ctor mainThread s₁ = .ok ((a, 0), s₂) := by
    rw [squirrelClassConstructorCallback, bind_ok henter, bind_ok hctor, bind_ok hleave]
    rfl
  refine ⟨_, ?_, (?_ : Instance desc q s.world.heap.next s.objects.next (s₂.setFrame mainThread
    { s.frame mainThread with stack := lowest (s.frame mainThread).stack.length (s₂.frame mainThread).stack }))⟩
  · simp only [callClass, callNative]
    rw [hs₁, hcall]
  · refine ⟨hd.members.bind, ?_, ?_, ⟨w, hw, ho⟩⟩
    · simpa [s₂, SqHeap.bind] using hd.sqclass
    · simp [s₂, SqHeap.bind]

def CallsMethods (vm : SqVm) (desc : ClassDesc) (q : Nat) : Prop :=
  ∀ s : SqState, s.world.heap.Registered desc q →
    ∃ n, s.world.heap.slot q (.string (cstr "constructor")) = some (.nativeclosure n) ∧
      s.world.heap.native n = .backend .classConstructorCallback [.userpointer (.classInfo desc)] ∧
      ∀ (α : Type) (args : List SqValue)
        (ctor : Option CodePtr → SquirrelScriptStack → Nat → SqS (α × SquirrelScriptStack))
        (a : α) (st : SquirrelScriptStack) (s' : SqState),
        ctor desc.constructor (callbackStack args.length) s.objects.next (constructing s desc q args)
          = .ok ((a, st), s') →
        Constructed desc q s.world.heap.next s.objects.next (s.frame mainThread).stack st s' →
        ∃ i s'', callClass mainThread q [.userpointer (.classInfo desc)] args
            (squirrelClassConstructorCallback ctor mainThread) s = .ok ((a, .sqinstance i), s'') ∧
          Instance desc q i s.objects.next s'' ∧
          ∀ (s₃ : SqState) (j : Nat) (method : ClassMethodDesc), Instance desc q i s.objects.next s₃ →
            desc.methods[j]? = some method → Dispatches vm method.name method.method i s.objects.next s₃

theorem callsMethods (hv : vm.Members) (hn : desc.WellNamed) : CallsMethods vm desc q := by
  intro s hr
  obtain ⟨n, hslot, hnative⟩ := hr.toClassAt.madeFor.constructor
  refine ⟨n, hslot, hnative, fun α args ctor a st s' hctor hd => ?_⟩
  obtain ⟨s'', hcall, hi⟩ := construct_instance hctor hd
  exact ⟨_, s'', hcall, hi, fun s₃ j method hi₃ hm => hi₃.dispatches hv hn hm⟩

end Squirrel

/-! ## GameMonkey -/

namespace GameMonkey

variable {s : GmState} {desc : ClassDesc} {type ref p : Nat}

/-- `m_methodInfos`: the block its elements are in, and these. -/
structure MethodInfos where
  block : Nat
  infos : List (ClassDesc × Nat)

namespace MethodInfos

/-- `push_back`. Where the vector grows, its elements move to another block. -/
def pushBack (grows : Nat → Bool) (v : MethodInfos) (info : ClassDesc × Nat) : MethodInfos :=
  { block := if grows v.infos.length then v.block + 1 else v.block, infos := v.infos ++ [info] }

/-- `&m_methodInfos[i]`. -/
def address (v : MethodInfos) (i : Nat) : Nat × Nat := (v.block, i)

/-- What a pointer into the vector points to, `none` where the elements have moved. -/
def deref (v : MethodInfos) (ptr : Nat × Nat) : Option (ClassDesc × Nat) :=
  if ptr.1 = v.block then v.infos[ptr.2]? else none

end MethodInfos

/-- The first loop of `RegisterUserClass`. -/
def methodInfos (grows : Nat → Bool) (desc : ClassDesc) : MethodInfos :=
  (List.range desc.methods.length).foldl (fun v i => v.pushBack grows (desc, i)) { block := 0, infos := [] }

/-- The second: the names, and the user data of the functions. -/
def methodEntries (grows : Nat → Bool) (desc : ClassDesc) : List (Bytes × (Nat × Nat)) :=
  desc.methods.zipIdx.map fun (method, i) => (method.name, (methodInfos grows desc).address i)

theorem methodInfos_infos {grows : Nat → Bool} : (methodInfos grows desc).infos
    = (List.range desc.methods.length).map fun i => (desc, i) := by
  have hfold : ∀ (is : List Nat) (v : MethodInfos),
      (is.foldl (fun v i => v.pushBack grows (desc, i)) v).infos = v.infos ++ is.map fun i => (desc, i) := by
    intro is
    induction is with
    | nil => exact fun v => (List.append_nil _).symm
    | cons i is ih =>
      intro v
      rw [List.foldl_cons, ih, List.map_cons]
      simp [MethodInfos.pushBack]
  exact hfold _ _

/-- The pointers are taken when all the elements are there, so none of them moves. -/
theorem methodEntries_pointer {grows : Nat → Bool} {j : Nat} {method : ClassMethodDesc}
    (hm : desc.methods[j]? = some method) :
    ∃ ptr, (methodEntries grows desc)[j]? = some (method.name, ptr) ∧
      (methodInfos grows desc).deref ptr = some (desc, j) := by
  have hlt := ClassDesc.WellNamed.lt_length hm
  refine ⟨(methodInfos grows desc).address j, ?_, ?_⟩
  · simp [methodEntries, hm]
  · simp [MethodInfos.deref, MethodInfos.address, methodInfos_infos, hlt]

/-- The user object `ref` is an instance of the class, with the wrapper `p`, and not
destroyed. -/
structure Instance (desc : ClassDesc) (type ref p : Nat) (s : GmState) : Prop where
  members : s.world.Registered desc
  type_ : s.world.gmTypeId desc = type
  user : s.world.user ref = some p
  object : ∃ w, s.objects.get p = some w ∧ w.objectPtr.isSome = true

def Dispatches (name : Bytes) (code : CodePtr) (v : GmValue) (p : Nat) (s : GmState) : Prop :=
  ∃ r userData, getDot s.world v name = .function r ∧ s.world.function r = .backend .classMethodCallback userData ∧
    ∀ (α : Type) (args : List GmValue) (method : CodePtr → Nat → GMScriptStack → GmS (UserResult α GMScriptStack)),
      callNative mainThread v args (gmClassMethodCallback method mainThread userData) s
        = callNative mainThread v args (method code p (callbackStack args.length) >>= callbackLeave) s

theorem member_method {j : Nat} {method : ClassMethodDesc} (hn : desc.WellNamed) (hm : desc.methods[j]? = some method) :
    member desc method.name = some (.classMethodCallback, .methodInfo desc j) := by
  unfold member gmMethods
  rw [hn.find_entry hm]
  · rfl
  · intro x hx
    rcases List.mem_cons.mp hx with rfl | hx
    · simp
    · cases hg : desc.garbageCollect <;> simp_all

theorem Instance.dispatches {j : Nat} {method : ClassMethodDesc} (hi : Instance desc type ref p s) (hn : desc.WellNamed)
    (hm : desc.methods[j]? = some method) : Dispatches method.name method.method (.user type ref) p s := by
  obtain ⟨w, hw, ho⟩ := hi.object
  have hmember := hi.members.members method.name
  rw [member_method hn hm, hi.type_] at hmember
  obtain ⟨r, hvar, -, hfun⟩ := hmember
  refine ⟨r, _, hvar, hfun, fun α args user => ?_⟩
  generalize hs₁ : s.setFrame mainThread { this := .user type ref, params := args, pushed := [] } = s₁
  have hframe : s₁.frame mainThread = { this := .user type ref, params := args, pushed := [] } := by
    rw [← hs₁, setFrame_self]
  have henter := @methodEnter_ok s₁ mainThread ref p j desc type w method (by rw [hframe])
    (by rw [← hs₁]; exact hi.user) (by rw [← hs₁]; exact hw) ho hm
  rw [hframe] at henter
  have hcall : gmClassMethodCallback user mainThread (.methodInfo desc j) s₁
      = (user method.method p (callbackStack args.length) >>= callbackLeave) s₁ := by
    rw [gmClassMethodCallback, bind_ok henter]
  simp only [callNative, hs₁, hcall]

/-- A new user object leaves the classes as they are. -/
theorem registered_newUser {w : GmWorld} {user : Nat → Option Nat} (hr : w.Registered desc) :
    { w with next := w.next + 1, user }.Registered desc where
  constructor := hr.constructor.mono (Nat.le_succ _) fun _ _ => rfl
  type := hr.type
  members name := by
    have hmem := hr.members name
    cases hd : member desc name with
    | some x =>
      rw [hd] at hmem
      exact GmWorld.IsFunction.mono hmem (Nat.le_succ _) fun _ _ => rfl
    | none =>
      rw [hd] at hmem
      exact hmem

/-- What the user's constructor has left: the instance pushed before it on top. -/
structure Constructed (desc : ClassDesc) (type ref p : Nat) (s : GmState) : Prop where
  members : s.world.Registered desc
  type_ : s.world.gmTypeId desc = type
  user : s.world.user ref = some p
  pushed : (s.frame mainThread).pushed = [.user type ref]
  object : ∃ w, s.objects.get p = some w ∧ w.objectPtr.isSome = true

/-- The state in which the user's constructor is called. -/
def constructing (s : GmState) (desc : ClassDesc) (args : List GmValue) : GmState :=
  GmState.constructing (s.setFrame mainThread { this := .null, params := args, pushed := [] })
    s.world.gmTypeId mainThread desc

theorem construct_instance {α : Type} {args : List GmValue} {a : α} {s' : GmState}
    {ctor : Option CodePtr → GMScriptStack → Nat → GmS α}
    (hctor : ctor desc.constructor (callbackStack args.length) s.objects.next (constructing s desc args) = .ok (a, s'))
    (hd : Constructed desc type s.world.next s.objects.next s') :
    ∃ s'', callNative mainThread .null args
        (gmClassConstructorCallback s.world.gmTypeId ctor mainThread (.classInfo desc)) s
        = .ok ((a, .user type s.world.next), s'') ∧ Instance desc type s.world.next s.objects.next s'' := by
  obtain ⟨w, hw, ho⟩ := hd.object
  have henter := @constructorEnter_ok (s.setFrame mainThread { this := .null, params := args, pushed := [] }) mainThread
    desc s.world.gmTypeId
  rw [setFrame_self, setFrame_objects] at henter
  have hread : onObjects (fun o => (o.read s.objects.next).map (·, o)) s' = .ok (w, s') := by
    simp [onObjects, Objects.read_some hw, Except.map]
  have hleave : constructorLeave s.objects.next s' = .ok ((), s') := by
    rw [constructorLeave, bind_ok hread, ho]
    rfl
  have hcall : gmClassConstructorCallback s.world.gmTypeId ctor mainThread (.classInfo desc)
      (s.setFrame mainThread { this := .null, params := args, pushed := [] }) = .ok (a, s') := by
    rw [gmClassConstructorCallback, bind_ok henter]
    refine (bind_ok hctor).trans ?_
    rw [bind_ok hleave]
    rfl
  refine ⟨s'.setFrame mainThread (s.frame mainThread), ?_, hd.members, hd.type_, hd.user, ⟨w, hw, ho⟩⟩
  simp only [callNative, hcall, GmThread.result, hd.pushed, List.headD_cons]

def CallsMethods (desc : ClassDesc) : Prop :=
  ∀ s : GmState, s.world.Registered desc →
    ∀ (α : Type) (args : List GmValue) (ctor : Option CodePtr → GMScriptStack → Nat → GmS α) (a : α) (s' : GmState),
      ctor desc.constructor (callbackStack args.length) s.objects.next (constructing s desc args) = .ok (a, s') →
      Constructed desc (s.world.gmTypeId desc) s.world.next s.objects.next s' →
      ∃ type ref s'', callNative mainThread .null args
          (gmClassConstructorCallback s.world.gmTypeId ctor mainThread (.classInfo desc)) s
          = .ok ((a, .user type ref), s'') ∧ Instance desc type ref s.objects.next s'' ∧
        ∀ (s₃ : GmState) (j : Nat) (method : ClassMethodDesc), Instance desc type ref s.objects.next s₃ →
          desc.methods[j]? = some method → Dispatches method.name method.method (.user type ref) s.objects.next s₃

theorem callsMethods (hn : desc.WellNamed) : CallsMethods desc := by
  intro s hr α args ctor a s' hctor hd
  obtain ⟨s'', hcall, hi⟩ := construct_instance hctor hd
  exact ⟨_, _, s'', hcall, hi, fun s₃ j method hi₃ hm => hi₃.dispatches hn hm⟩

end GameMonkey

/-- A class that is registered dispatches the calls of its methods. -/
theorem methods_dispatch (desc : ClassDesc) (hn : desc.WellNamed) (hctor : desc.constructor.isSome = true)
    (hdtor : desc.destructor.isSome = true) :
    (∀ (vm : Lua.LuaVm) (c : Lua.LuaScriptContext), vm.Indexes → c.slots = [] → c.world.heap.Plain →
      c.world.heap.Accepts desc.name →
      ∃ c' m mt t, Lua.registerUserClass vm desc c = .ok (true, c') ∧ c'.world.heap.Registered desc m mt t ∧
        Lua.CallsMethods vm desc m mt t) ∧
    (∀ (vm : Squirrel.SqVm) (c : Squirrel.SquirrelScriptContext), vm.Members →
      c.stack = [.table c.world.heap.roottable] → c.world.heap.roottable < c.world.heap.next →
      ∃ c' q, Squirrel.registerUserClass desc c = .ok (true, c') ∧ c'.world.heap.Registered desc q ∧
        Squirrel.CallsMethods vm desc q) ∧
    ∀ c : GameMonkey.GMScriptContext,
      ∃ c', GameMonkey.registerUserClass desc c = .ok (true, c') ∧ c'.world.Registered desc ∧
        (∀ grows j method, desc.methods[j]? = some method →
          ∃ ptr, (GameMonkey.methodEntries grows desc)[j]? = some (method.name, ptr) ∧
            (GameMonkey.methodInfos grows desc).deref ptr = some (desc, j)) ∧
        GameMonkey.CallsMethods desc := by
  refine ⟨fun vm c hv hs hp ha => ?_, fun vm c hv hs hroot => ?_, fun c => ?_⟩
  · obtain ⟨t, hr⟩ := Lua.registerClass_registered hp ha
    exact ⟨_, _, _, t, Lua.registerUserClass_ok hs hp ha hctor hdtor, hr, Lua.callsMethods hv hn⟩
  · exact ⟨_, c.world.heap.next, Squirrel.registerUserClass_top hctor hdtor hs,
      Squirrel.registerClass_registered desc hroot, Squirrel.callsMethods hv hn⟩
  · have hr := GameMonkey.registerClass_registered c.world desc
    refine ⟨_, GameMonkey.registerUserClass_ok hctor hdtor, ⟨hr.constructor, hr.type, hr.members⟩, ?_,
      GameMonkey.callsMethods hn⟩
    intro grows j method hm
    exact GameMonkey.methodEntries_pointer hm

/-- A class with two methods. -/
def twoMethods : ClassDesc :=
  { addr := 2, name := cstr "MyClass", constructor := some 101, destructor := some 102,
    methods := [{ name := cstr "Get", method := 103 }, { name := cstr "Print", method := 104 }] }

/-- `MyClass().Print`, of a constructor that sets the object and returns. -/
theorem methods_dispatch_second :
    (∃ s u p, Lua.Dispatches .indexing (cstr "Print") 104 u p s) ∧
    (∃ s i p, Squirrel.Dispatches .withMembers (cstr "Print") 104 i p s) ∧
    ∃ s v p, GameMonkey.Dispatches (cstr "Print") 104 v p s := by
  obtain ⟨hlua, hsquirrel, hgm⟩ := methods_dispatch twoMethods ⟨by decide, by decide, by decide, by decide⟩ rfl rfl
  refine ⟨?_, ?_, ?_⟩
  · have hp : (Lua.LuaHeap.binding []).Plain := ⟨by decide, by decide, by decide, rfl, rfl⟩
    have ha : (Lua.LuaHeap.binding []).Accepts twoMethods.name := .unused (by decide)
    obtain ⟨c', m, mt, t, hreg, hr, hcalls⟩ :=
      hlua .indexing (Lua.createContext (.binding [])) Lua.indexing_indexes rfl hp ha
    have hmeta : (c'.world.heap.table c'.world.heap.registry).metatable = none := by
      rw [Lua.registerUserClass_ok rfl hp ha rfl rfl] at hreg
      cases hreg
      exact (Lua.registerClass_metatable hp.registry_lt).trans rfl
    let s : Lua.LuaState := { frame := fun _ => ⟨.nil, []⟩, world := c'.world, objects := .empty }
    obtain ⟨r, -, -, hrun⟩ := hcalls s hr
    obtain ⟨u, s'', -, hi, hmethods⟩ := hrun Unit [] (fun _ st p s => .ok (((), st),
      { s with objects := s.objects.write p { objectPtr := some 7 } })) () _ _ rfl
      ⟨hr, hmeta, by simp [Lua.constructing, VmState.setFrame], rfl, ⟨_, Objects.write_get_self, rfl⟩⟩
    exact ⟨s'', u, _, hmethods s'' 1 _ hi rfl⟩
  · obtain ⟨c', q, hreg, hr, hcalls⟩ := hsquirrel .withMembers (Squirrel.createContext (.binding []))
      Squirrel.withMembers_members rfl (by decide)
    let s : Squirrel.SqState := { frame := fun _ => ⟨[.table 0], 0⟩, world := c'.world, objects := .empty }
    obtain ⟨n, -, -, hrun⟩ := hcalls s hr
    obtain ⟨i, s'', -, hi, hmethods⟩ := hrun Unit [] (fun _ st p s => .ok (((), st),
      { s with objects := s.objects.write p { objectPtr := some 7 } })) () _ _ rfl
      ⟨hr.toClassAt.createInstance, by simp [Squirrel.constructing, Squirrel.SqHeap.createInstance],
        by simp [Squirrel.constructing, Squirrel.SqFrame.call], rfl, ⟨_, Objects.write_get_self, rfl⟩⟩
    exact ⟨s'', i, _, hmethods s'' 1 _ hi rfl⟩
  · obtain ⟨c', -, hr, -, hcalls⟩ := hgm (GameMonkey.createContext 0 (fun _ => .null) fun _ => .other 0)
    let s : GameMonkey.GmState :=
      { frame := fun _ => { this := .null, params := [], pushed := [] }, world := c'.world, objects := .empty }
    obtain ⟨type, ref, s'', -, hi, hmethods⟩ := hcalls s hr Unit [] (fun _ _ p s => .ok ((),
      { s with objects := s.objects.write p { objectPtr := some 7 } })) () _ rfl
      ⟨GameMonkey.registered_newUser hr, rfl, by simp [GameMonkey.constructing, GameMonkey.GmState.constructing, s],
        by simp [GameMonkey.constructing, GameMonkey.GmState.constructing, s], ⟨_, Objects.write_get_self, rfl⟩⟩
    exact ⟨s'', _, _, hmethods s'' 1 _ hi rfl⟩

end MultiScript
