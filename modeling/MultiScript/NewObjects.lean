/-
`PushNewScriptObject` in Lua and Squirrel: an object of the host as a new value of
the script. It registers the class if it has to, and finds it again by its name:
Lua in the registry, Squirrel in whatever lies on top of the stack.
-/
import MultiScript.Lua.Registration
import MultiScript.Lua.Callbacks
import MultiScript.Squirrel.Registration
import MultiScript.Squirrel.Callbacks

namespace MultiScript

open Act

/-! ## Lua -/

namespace Lua

variable {vm : LuaVm} {c c' : LuaScriptContext} {h : LuaHeap} {s : LuaState} {st : LuaScriptStack} {desc : ClassDesc}

/-- A new userdata for the wrapper `p`, with the metatable `mt`. -/
def LuaHeap.newUserdata (h : LuaHeap) (p mt : Nat) : LuaHeap :=
  { h with
    next := h.next + 1
    userdata := fun r => if r = h.next then { block := some p, metatable := some mt } else h.userdata r }

/-- The metatable was made for the class. -/
structure LuaHeap.MadeFor (h : LuaHeap) (desc : ClassDesc) (mt : Nat) : Prop where
  index : ∃ m, (h.table mt).slot (.string (cstr "__index")) = .table m
  tostring : ∃ r, (h.table mt).slot (.string (cstr "__tostring")) = .function r ∧
    h.closure r = .c .classToStringMethodCallback [.lightuserdata (.classInfo desc)]
  gc : ∃ r, (h.table mt).slot (.string (cstr "__gc")) = .function r ∧
    h.closure r = .c .classGCCallback [.lightuserdata (.classInfo desc)]

theorem LuaHeap.ObjectMetatable.madeFor {m mt : Nat} (ho : h.ObjectMetatable desc m mt) : h.MadeFor desc mt := by
  obtain ⟨r, hr, -, hc⟩ := ho.tostring
  obtain ⟨r', hr', -, hc'⟩ := ho.gc
  exact ⟨⟨m, ho.index⟩, ⟨r, hr, hc⟩, ⟨r', hr', hc'⟩⟩

theorem newUserdata_madeFor {p mt mt' : Nat} : (h.newUserdata p mt).MadeFor desc mt' ↔ h.MadeFor desc mt' :=
  ⟨fun hm => ⟨hm.index, hm.tostring, hm.gc⟩, fun hm => ⟨hm.index, hm.tostring, hm.gc⟩⟩

theorem LuaHeap.Registered.newUserdata {m mt t p mt' : Nat} (hr : h.Registered desc m mt t) :
    (h.newUserdata p mt').Registered desc m mt t where
  tables := hr.tables.mono (Nat.le_succ _) (fun _ _ => rfl) rfl rfl rfl
  global := hr.global
  registry := hr.registry
  lt := ⟨Nat.lt_succ_of_lt hr.lt.1, Nat.lt_succ_of_lt hr.lt.2.1, Nat.lt_succ_of_lt hr.lt.2.2⟩
  ne_globals := hr.ne_globals
  ne_registry := hr.ne_registry

/-- The userdata gets the table that the registry has under the name. -/
theorem newObjectData_eq {name : Bytes} {p : Nat} (hm : (c.world.heap.table c.world.heap.registry).metatable = none) :
    newObjectData vm name p c = match (c.world.heap.table c.world.heap.registry).slot (.string name) with
      | .table mt => .ok ((), { c with slots := .userdata c.world.heap.next :: c.slots }.setHeap
          (c.world.heap.newUserdata p mt))
      | _ => .error (.assertion "lua_type(L, -1) == LUA_TTABLE") := by
  generalize hh : c.world.heap = h at *
  generalize hv : (h.table h.registry).slot (.string name) = v
  let h₁ : LuaHeap := { h with
    next := h.next + 1
    userdata := fun r => if r = h.next then { block := some p, metatable := none } else h.userdata r }
  let c₁ : LuaScriptContext := { c with slots := .userdata h.next :: c.slots }.setHeap h₁
  have hnew : luaNewuserdata p c = .ok ((), c₁) := by
    simp only [luaNewuserdata, hh]
    rfl
  have hmeta : h₁.metamethod h₁.registry (cstr "__index") = .nil := metamethod_none hm
  have hget : luaGetfield vm .registry name c₁ = .ok ((), { c₁ with slots := v :: c₁.slots }) := by
    have hlookup : luaVGettable vm (.table h₁.registry) (.string name) c₁.world = .ok (v, c₁.world) := by
      have hslot : (c₁.world.heap.table h₁.registry).slot (.string name) = v := hv
      simp only [luaVGettable, hslot]
      rw [if_pos (.inr hmeta)]
    simp only [luaGetfield, index2adr]
    rw [show luaVGettable vm (.table c₁.world.heap.registry) (.string name) c₁.world = .ok (v, c₁.world) from hlookup]
    rfl
  have htop : ({ c₁ with slots := v :: c₁.slots } : LuaScriptContext).at (-1) = v := at_top rfl
  have hsecond : ({ c₁ with slots := v :: c₁.slots } : LuaScriptContext).at (-2) = .userdata h.next := at_second rfl
  rw [newObjectData, bind_ok hnew, bind_ok hget, bind_get, htop]
  cases v with
  | table mt =>
    simp only [luaSetmetatable, htop, hsecond]
    have huser : (fun r => if r = h.next then { h₁.userdata h.next with metatable := some mt } else h₁.userdata r)
        = (h.newUserdata p mt).userdata := by
      funext r
      by_cases hr : r = h.next
      · simp [hr, h₁, LuaHeap.newUserdata]
      · simp [hr, h₁, LuaHeap.newUserdata]
    simp only [c₁, LuaScriptContext.setHeap, huser]
    rfl
  | _ => rfl

/-- `PushNewScriptObject` is what it does to the context of the main thread, with a
new wrapper. -/
theorem pushNewScriptObject_eq {objectPtr : Option Nat} :
    st.pushNewScriptObject vm desc objectPtr s =
      ((findOrRegister vm desc (s.context luaView mainThread)).bind fun r =>
        (newObjectData vm r.1.name s.objects.next r.2).map fun r' =>
          ((s.objects.next, { st with numPushed := st.numPushed + 1 }),
            { s.setContext luaView mainThread r'.2 with objects := s.objects.new { objectPtr } })) := by
  unfold LuaScriptStack.pushNewScriptObject
  cases hf : findOrRegister vm desc (s.context luaView mainThread) with
  | error f => exact bind_error (onThread_error hf)
  | ok r =>
    obtain ⟨info, c₁⟩ := r
    have hnew : onObjects (fun o => .ok (o.next, o.new { objectPtr })) (s.setContext luaView mainThread c₁)
        = .ok (s.objects.next, { s.setContext luaView mainThread c₁ with objects := s.objects.new { objectPtr } }) :=
          rfl
    have hcontext : ({ s.setContext luaView mainThread c₁ with objects := s.objects.new { objectPtr } }
      : LuaState).context
        luaView mainThread = c₁ := by simp [VmState.context, VmState.setContext, luaView]
    rw [bind_ok (onThread_ok hf), bind_ok hnew]
    simp only [Except.bind]
    cases hd : newObjectData vm info.name s.objects.next c₁ with
    | error f => exact bind_error (onThread_error (by rw [hcontext, hd]))
    | ok r' =>
      rw [bind_ok (onThread_ok (by rw [hcontext, hd]))]
      simp only [pure_ok, Except.map, VmState.setContext, Function.update_idem]

/-- What `PushNewScriptObject` is to leave: one new value on top, an object of the
class whose wrapper is answered and points to the host's object; and a class that was
not registered is found under its name. -/
structure PushesNew (desc : ClassDesc) (p : Nat) (st : LuaScriptStack) (s : LuaState)
    (r : (Nat × LuaScriptStack) × LuaState) : Prop where
  stack : r.1.2 = { st with numPushed := st.numPushed + 1 }
  value : ∃ u mt, r.2.frame mainThread =
    { s.frame mainThread with slots := .userdata u :: (s.frame mainThread).slots } ∧
    r.2.world.heap.userdata u = { block := some r.1.1, metatable := some mt } ∧ r.2.world.heap.MadeFor desc mt
  object : s.objects.get r.1.1 = none ∧ ∃ w, r.2.objects.get r.1.1 = some w ∧ w.objectPtr = some p
  registered : findClassInfo s.world desc = none →
    findClassInfo r.2.world desc = some desc ∧ ∃ m mt t, r.2.world.heap.Registered desc m mt t

/-- It returns, and leaves that. -/
def NewObjectWorks (vm : LuaVm) (st : LuaScriptStack) (desc : ClassDesc) (p : Nat) (s : LuaState) : Prop :=
  ∃ r, st.pushNewScriptObject vm desc (some p) s = .ok r ∧ PushesNew desc p st s r

/-- A registered class is found by its name in the registry. -/
theorem newObject_registered_iff {p : Nat} (hfind : findClassInfo s.world desc = some desc)
    (hfresh : s.objects.get s.objects.next = none)
    (hm : (s.world.heap.table s.world.heap.registry).metatable = none) :
    NewObjectWorks vm st desc p s ↔
      ∃ mt, (s.world.heap.table s.world.heap.registry).slot (.string desc.name) = .table mt ∧
      s.world.heap.MadeFor desc mt := by
  have hf : findOrRegister vm desc (s.context luaView mainThread) = .ok (desc, s.context luaView mainThread) := by
    rw [findOrRegister, bind_get]
    rw [show findClassInfo (s.context luaView mainThread).world desc = some desc from hfind]
    rfl
  have hdata := @newObjectData_eq vm (s.context luaView mainThread) desc.name s.objects.next hm
  unfold NewObjectWorks
  rw [pushNewScriptObject_eq, hf]
  simp only [Except.bind]
  rw [hdata]
  have hheap : (s.context luaView mainThread).world.heap = s.world.heap := rfl
  rw [hheap]
  constructor
  · rintro ⟨r, hr, hp⟩
    cases hv : (s.world.heap.table s.world.heap.registry).slot (.string desc.name) with
    | table mt =>
      rw [hv] at hr
      cases hr
      obtain ⟨u, mt', hframe, huser, hmade⟩ := hp.value
      have hu : s.world.heap.next = u := by
        have hslots := congrArg LuaFrame.slots hframe
        simp [VmState.setContext, luaView, LuaScriptContext.setHeap, VmState.context] at hslots
        exact hslots
      subst hu
      have hmt : mt = mt' := by
        have hmeta := congrArg LuaUserdata.metatable huser
        simpa [VmState.setContext, luaView, LuaScriptContext.setHeap, LuaHeap.newUserdata] using hmeta
      subst hmt
      exact ⟨mt, rfl, newUserdata_madeFor.mp hmade⟩
    | _ =>
      rw [hv] at hr
      cases hr
  · rintro ⟨mt, hv, hmade⟩
    rw [hv]
    refine ⟨_, rfl, rfl, ⟨s.world.heap.next, mt, ?_, ?_, newUserdata_madeFor.mpr hmade⟩,
      ⟨hfresh, { objectPtr := some p }, ?_, rfl⟩, fun hn => ?_⟩
    · simp [VmState.setContext, luaView, LuaScriptContext.setHeap, VmState.context]
    · simp [VmState.setContext, luaView, LuaScriptContext.setHeap, LuaHeap.newUserdata]
    · exact Objects.new_get_next
    · rw [hfind] at hn
      cases hn

/-- `RegisterUserClass` asserts that the class has a constructor and a destructor. -/
theorem registerUserClass_complete {r : Bool × LuaScriptContext} (hr : registerUserClass vm desc c = .ok r) :
    desc.constructor.isSome = true ∧ desc.destructor.isSome = true := by
  rw [registerUserClass] at hr
  obtain ⟨_, c₁, hctor, hr⟩ := bind_ok_inv hr
  obtain ⟨_, c₂, hdtor, -⟩ := bind_ok_inv hr
  exact ⟨(luaAssert_inv hctor).1, (luaAssert_inv hdtor).1⟩

theorem findClassInfo_append {classes : List ClassDesc} (h : classes.find? (·.addr == desc.addr) = none) :
    (classes ++ [desc]).find? (·.addr == desc.addr) = some desc := by
  rw [List.find?_append, h]
  simp

theorem findOrRegister_unknown (hfind : findClassInfo c.world desc = none) :
    findOrRegister vm desc c = (do
      let _ ← registerUserClass vm desc
      classInfoOf desc : LuaM ClassDesc) c := by
  rw [findOrRegister, bind_get, hfind]

/-- A class that is not registered can be registered from an empty frame only. -/
theorem newObject_unregistered_needs {p : Nat} (hfind : findClassInfo s.world desc = none)
    (hw : NewObjectWorks vm st desc p s) :
    (s.frame mainThread).slots = [] ∧ desc.constructor.isSome = true ∧ desc.destructor.isSome = true := by
  obtain ⟨r, hr, -⟩ := hw
  rw [pushNewScriptObject_eq, findOrRegister_unknown hfind] at hr
  cases hreg : registerUserClass vm desc (s.context luaView mainThread) with
  | error g =>
    rw [bind_error hreg] at hr
    cases hr
  | ok x =>
    have hframe : FrameIs (s.context luaView mainThread) (s.frame mainThread).func (s.frame mainThread).slots :=
      ⟨rfl, rfl⟩
    exact ⟨((registerUserClass_returns hframe).ok hreg).1, registerUserClass_complete hreg⟩

/-- From an empty frame it is registered, and found. -/
theorem newObject_unregistered {p : Nat} (hfind : findClassInfo s.world desc = none)
    (hfresh : s.objects.get s.objects.next = none) (hp : s.world.heap.Plain) (ha : s.world.heap.Accepts desc.name)
    (hs : (s.frame mainThread).slots = []) (hctor : desc.constructor.isSome = true)
    (hdtor : desc.destructor.isSome = true) : NewObjectWorks vm st desc p s := by
  let w₁ : LuaWorld := { s.world with heap := s.world.heap.registerClass desc, classes := s.world.classes ++ [desc] }
  let c₁ : LuaScriptContext := { s.context luaView mainThread with world := w₁ }
  have hreg : registerUserClass vm desc (s.context luaView mainThread) = .ok (true, c₁) :=
    registerUserClass_ok hs hp ha hctor hdtor
  have hfind₁ : findClassInfo w₁ desc = some desc := findClassInfo_append hfind
  have hf₁ : findOrRegister vm desc (s.context luaView mainThread) = .ok (desc, c₁) := by
    rw [findOrRegister_unknown hfind, bind_ok hreg, classInfoOf, bind_get]
    rw [show findClassInfo c₁.world desc = some desc from hfind₁]
    rfl
  obtain ⟨t, hregistered⟩ := registerClass_registered hp ha
  have hmeta : (w₁.heap.table w₁.heap.registry).metatable = none := by
    have hregistry : w₁.heap.registry = s.world.heap.registry := by
      simp [w₁, LuaHeap.registerClass, LuaHeap.buildClass]
    rw [hregistry]
    exact (registerClass_metatable hp.registry_lt).trans hp.registry_meta
  have hdata := @newObjectData_eq vm c₁ desc.name s.objects.next hmeta
  rw [show (c₁.world.heap.table c₁.world.heap.registry).slot (.string desc.name) = .table _
    from hregistered.registry] at hdata
  unfold NewObjectWorks
  rw [pushNewScriptObject_eq, hf₁]
  simp only [Except.bind]
  rw [hdata]
  refine ⟨_, rfl, rfl, ⟨w₁.heap.next, _, ?_, ?_, newUserdata_madeFor.mpr hregistered.tables.toObjectMetatable.madeFor⟩,
    ⟨hfresh, { objectPtr := some p }, Objects.new_get_next, rfl⟩, fun _ => ⟨hfind₁, _, _, t, hregistered.newUserdata⟩⟩
  · simp [VmState.setContext, luaView, LuaScriptContext.setHeap, VmState.context, c₁]
  · simp [VmState.setContext, luaView, LuaScriptContext.setHeap, LuaHeap.newUserdata, c₁]

end Lua

/-! ## Squirrel -/

namespace Squirrel

variable {vm : SqVm} {c : SquirrelScriptContext} {h : SqHeap} {s : SqState} {st : SquirrelScriptStack}
    {desc : ClassDesc}
  {top : SqValue} {rest : List SqValue}

/-- A new instance of the class `q`, with the wrapper `p`. -/
def SqHeap.newInstance (h : SqHeap) (q p : Nat) : SqHeap :=
  { h.lock q with
    next := h.next + 1
    instances := fun i => if i = h.next then { userpointer := some p, sqclass := q, hook := false } else h.instances i }

/-- The class was made for the descriptor: it constructs objects of it, and extends no
other class. -/
structure SqHeap.MadeFor (h : SqHeap) (desc : ClassDesc) (q : Nat) : Prop where
  base : (h.classes q).base = none
  constructor : ∃ n, h.slot q (.string (cstr "constructor")) = some (.nativeclosure n) ∧
    h.native n = .backend .classConstructorCallback [.userpointer (.classInfo desc)]

theorem lock_base {q r : Nat} : ((h.lock q).classes r).base = (h.classes r).base := by
  simp only [SqHeap.lock]
  split <;> rfl

theorem newInstance_madeFor {q q' p : Nat} : (h.newInstance q p).MadeFor desc q' ↔ h.MadeFor desc q' := by
  have hbase : ((h.newInstance q p).classes q').base = (h.classes q').base := lock_base
  constructor
  · exact fun hm => ⟨hbase.symm.trans hm.base, hm.constructor⟩
  · exact fun hm => ⟨hbase.trans hm.base, hm.constructor⟩

theorem replaceByInstance_ok {q p : Nat} (hs : c.stack = .sqclass q :: rest) :
    replaceByInstance p c = .ok ((), { c with stack := .sqinstance c.world.heap.next :: rest }.setHeap
      (c.world.heap.newInstance q p)) := by
  let c₁ : SquirrelScriptContext := { c with stack := .sqinstance c.world.heap.next :: .sqclass q :: rest }
  have hcreate : sqCreateinstance (-1) c = .ok (true, c₁.setHeap (c.world.heap.createInstance q)) := by
    simp only [sqCreateinstance, at_top hs, hs]
    rfl
  have hheap : c₁.setHeap { c.world.heap.createInstance q with
      instances := fun i => if i = c.world.heap.next then
        { (c.world.heap.createInstance q).instances c.world.heap.next with userpointer := some p }
        else (c.world.heap.createInstance q).instances i } = c₁.setHeap (c.world.heap.newInstance q p) := by
    have hinst : (fun i => if i = c.world.heap.next then
        { (c.world.heap.createInstance q).instances c.world.heap.next with userpointer := some p }
        else (c.world.heap.createInstance q).instances i) = (c.world.heap.newInstance q p).instances := by
      funext i
      by_cases hi : i = c.world.heap.next
      · simp [hi, SqHeap.createInstance, SqHeap.newInstance]
      · simp [hi, SqHeap.createInstance, SqHeap.newInstance]
    rw [hinst]
    rfl
  have hset : sqSetinstanceup (-1) p (c₁.setHeap (c.world.heap.createInstance q))
      = .ok (true, c₁.setHeap (c.world.heap.newInstance q p)) := by
    have htop : (c₁.setHeap (c.world.heap.createInstance q)).at (-1) = .sqinstance c.world.heap.next := at_top rfl
    simp only [sqSetinstanceup, htop]
    exact congrArg (fun x => Except.ok (true, x)) hheap
  rw [replaceByInstance, bind_ok hcreate, bind_ok hset]
  rfl

/-- What the name finds in the value on top; where it finds nothing, that value is
taken for the class. -/
theorem pushClass_eq {name : Bytes} (hs : c.stack = top :: rest) :
    pushClass vm name c = match vm.get top (.string name) c.world with
      | (some (.sqclass q), w) => .ok ((), { c with world := w, stack := .sqclass q :: top :: rest })
      | (some _, _) => .error (.assertion "sq_gettype(m_context->m_vm, -1) == OT_CLASS")
      | (none, w) =>
        match top with
        | .sqclass _ => .ok ((), { c with world := w, stack := top :: rest })
        | _ => .error (.assertion "sq_gettype(m_context->m_vm, -1) == OT_CLASS") := by
  have hg := @sqGet_below vm { c with stack := .string name :: c.stack } rest top (.string name) (by rw [hs])
  rw [pushClass, bind_ok (show sqPushstring name c = _ from sqPush_ok)]
  rcases hget : vm.get top (.string name) c.world with ⟨_ | v, w⟩
  · rw [hget] at hg
    rw [bind_ok hg, bind_get, at_top (v := top) rfl]
    cases top <;> rfl
  · rw [hget] at hg
    rw [bind_ok hg, bind_get, at_top (v := v) rfl]
    cases v <;> rfl

/-- `PushNewScriptObject` is what it does to the context of the main thread, with a
new wrapper. -/
theorem pushNewScriptObject_eq {objectPtr : Option Nat} :
    st.pushNewScriptObject vm desc objectPtr s =
      ((findOrRegister desc (s.context sqView mainThread)).bind fun r =>
        (pushClass vm desc.name r.2).bind fun r' =>
          (replaceByInstance s.objects.next r'.2).map fun r'' =>
            ((s.objects.next, { st with numPushed := st.numPushed + 1 }),
              { s.setContext sqView mainThread r''.2 with objects := s.objects.new { objectPtr } })) := by
  have hcontext : ∀ c₁ o, ({ s.setContext sqView mainThread c₁ with objects := o } : SqState).context
      sqView mainThread = c₁ := fun c₁ o => by simp [VmState.context, VmState.setContext, sqView]
  unfold SquirrelScriptStack.pushNewScriptObject
  cases hf : findOrRegister desc (s.context sqView mainThread) with
  | error f => exact bind_error (onThread_error hf)
  | ok r =>
    obtain ⟨info, c₁⟩ := r
    have hnew : onObjects (fun o => .ok (o.next, o.new { objectPtr })) (s.setContext sqView mainThread c₁)
        = .ok (s.objects.next, { s.setContext sqView mainThread c₁ with objects := s.objects.new { objectPtr } }) := rfl
    rw [bind_ok (onThread_ok hf), bind_ok hnew]
    simp only [Except.bind]
    cases hp : pushClass vm desc.name c₁ with
    | error f => exact bind_error (onThread_error (by rw [hcontext, hp]))
    | ok r' =>
      obtain ⟨_, c₂⟩ := r'
      have hupdate : VmState.setContext sqView { s.setContext sqView mainThread c₁ with
          objects := s.objects.new { objectPtr } } mainThread c₂
          = { s.setContext sqView mainThread c₂ with objects := s.objects.new { objectPtr } } := by
        simp only [VmState.setContext, Function.update_idem]
      rw [bind_ok (onThread_ok (by rw [hcontext, hp])), hupdate]
      simp only
      cases hi : replaceByInstance s.objects.next c₂ with
      | error f => exact bind_error (onThread_error (by rw [hcontext, hi]))
      | ok r'' =>
        rw [bind_ok (onThread_ok (by rw [hcontext, hi]))]
        simp only [pure_ok, Except.map, VmState.setContext, Function.update_idem]

/-- What `PushNewScriptObject` is to leave, as in Lua. -/
structure PushesNew (desc : ClassDesc) (p : Nat) (st : SquirrelScriptStack) (s : SqState)
    (r : (Nat × SquirrelScriptStack) × SqState) : Prop where
  stack : r.1.2 = { st with numPushed := st.numPushed + 1 }
  value : ∃ i q, r.2.frame mainThread
      = { s.frame mainThread with stack := .sqinstance i :: (s.frame mainThread).stack } ∧
    (r.2.world.heap.instances i).userpointer = some r.1.1 ∧ (r.2.world.heap.instances i).sqclass = q ∧
    r.2.world.heap.MadeFor desc q ∧
    (findClassInfo s.world desc = none → findClassInfo r.2.world desc = some desc ∧
      r.2.world.heap.slot r.2.world.heap.roottable (.string desc.name) = some (.sqclass q))
  object : s.objects.get r.1.1 = none ∧ ∃ w, r.2.objects.get r.1.1 = some w ∧ w.objectPtr = some p

def NewObjectWorks (vm : SqVm) (st : SquirrelScriptStack) (desc : ClassDesc) (p : Nat) (s : SqState) : Prop :=
  ∃ r, st.pushNewScriptObject vm desc (some p) s = .ok r ∧ PushesNew desc p st s r

/-- The state after `PushNewScriptObject` has made an instance of the class `q`. -/
theorem pushNewScriptObject_found {objectPtr : Option Nat} {info : ClassDesc} {c₁ : SquirrelScriptContext} {q : Nat}
    {w : SqWorld} (hf : findOrRegister desc (s.context sqView mainThread) = .ok (info, c₁))
    (hs : c₁.stack = top :: rest)
    (hget : vm.get top (.string desc.name) c₁.world = (some (.sqclass q), w)) :
    st.pushNewScriptObject vm desc objectPtr s = .ok ((s.objects.next, { st with numPushed := st.numPushed + 1 }),
      { s.setContext sqView mainThread ({ c₁ with world := w, stack := .sqinstance w.heap.next :: top :: rest }.setHeap
          (w.heap.newInstance q s.objects.next)) with objects := s.objects.new { objectPtr } }) := by
  have hpush := @pushClass_eq vm c₁ top rest desc.name hs
  rw [hget] at hpush
  have hreplace := @replaceByInstance_ok { c₁ with world := w, stack := .sqclass q :: top :: rest } (top :: rest) q
    s.objects.next rfl
  rw [pushNewScriptObject_eq, hf]
  simp only [Except.bind]
  rw [hpush]
  simp only
  rw [hreplace]
  rfl

/-- Where the name finds no class, no instance is pushed over the old contents. -/
theorem pushNewScriptObject_lost {objectPtr : Option Nat} {info : ClassDesc} {c₁ : SquirrelScriptContext}
    {r : (Nat × SquirrelScriptStack) × SqState}
    (hf : findOrRegister desc (s.context sqView mainThread) = .ok (info, c₁)) (hs : c₁.stack = top :: rest)
    (hget : ∀ q, (vm.get top (.string desc.name) c₁.world).1 ≠ some (.sqclass q))
    (hr : st.pushNewScriptObject vm desc objectPtr s = .ok r) :
    (r.2.frame mainThread).stack.length = c₁.stack.length ∧ ∃ q, top = .sqclass q := by
  have hpush := @pushClass_eq vm c₁ top rest desc.name hs
  rw [pushNewScriptObject_eq, hf] at hr
  simp only [Except.bind] at hr
  rcases hg : vm.get top (.string desc.name) c₁.world with ⟨_ | v, w⟩
  · rw [hg] at hpush
    cases top with
    | sqclass q =>
      have hreplace := @replaceByInstance_ok { c₁ with world := w, stack := .sqclass q :: rest }
        rest q s.objects.next rfl
      rw [hpush] at hr
      simp only at hr
      rw [hreplace] at hr
      cases hr
      refine ⟨?_, q, rfl⟩
      simp [VmState.setContext, sqView, SquirrelScriptContext.setHeap, hs]
    | _ =>
      rw [hpush] at hr
      cases hr
  · rw [hg] at hpush
    cases v with
    | sqclass q => exact absurd (by rw [hg]) (hget q)
    | _ =>
      rw [hpush] at hr
      cases hr

theorem PushesNew.length {p : Nat} {r : (Nat × SquirrelScriptStack) × SqState} (hp : PushesNew desc p st s r) :
    (r.2.frame mainThread).stack.length = (s.frame mainThread).stack.length + 1 := by
  obtain ⟨i, q, hframe, -⟩ := hp.value
  rw [hframe]
  rfl

/-- A registered class is found by its name in the value on top. -/
theorem newObject_registered_iff {p : Nat} (hfind : findClassInfo s.world desc = some desc)
    (hfresh : s.objects.get s.objects.next = none) (hs : (s.frame mainThread).stack = top :: rest) :
    NewObjectWorks vm st desc p s ↔
      ∃ q w, vm.get top (.string desc.name) s.world = (some (.sqclass q), w) ∧ w.heap.MadeFor desc q := by
  have hf : findOrRegister desc (s.context sqView mainThread) = .ok (desc, s.context sqView mainThread) := by
    rw [findOrRegister, bind_get]
    rw [show findClassInfo (s.context sqView mainThread).world desc = some desc from hfind]
    rfl
  have hs' : (s.context sqView mainThread).stack = top :: rest := hs
  constructor
  · rintro ⟨r, hr, hp⟩
    by_cases hq : ∃ q, (vm.get top (.string desc.name) s.world).1 = some (.sqclass q)
    · obtain ⟨q, hq⟩ := hq
      have hget : vm.get top (.string desc.name) (s.context sqView mainThread).world
          = (some (.sqclass q), (vm.get top (.string desc.name) s.world).2) := Prod.ext hq rfl
      rw [pushNewScriptObject_found hf hs' hget] at hr
      cases hr
      obtain ⟨i, q', hframe, -, hclass, hmade, -⟩ := hp.value
      have hi : (vm.get top (.string desc.name) s.world).2.heap.next = i := by
        have hstack := congrArg SqFrame.stack hframe
        simp [VmState.setContext, sqView, SquirrelScriptContext.setHeap, hs] at hstack
        exact hstack
      subst hi
      have hq' : q = q' := by
        rw [← hclass]
        simp [VmState.setContext, sqView, SquirrelScriptContext.setHeap, SqHeap.newInstance]
      subst hq'
      exact ⟨q, _, hget, newInstance_madeFor.mp hmade⟩
    · have hlost := pushNewScriptObject_lost hf hs' (fun q hq' => hq ⟨q, hq'⟩) hr
      have hlen := hp.length
      rw [hlost.1, hs', hs] at hlen
      simp at hlen
  · rintro ⟨q, w, hget, hmade⟩
    refine ⟨_, pushNewScriptObject_found hf hs' hget, rfl, ⟨w.heap.next, q, ?_, ?_, ?_, newInstance_madeFor.mpr hmade,
      fun hn => ?_⟩, ⟨hfresh, { objectPtr := some p }, Objects.new_get_next, rfl⟩⟩
    · simp [VmState.setContext, sqView, SquirrelScriptContext.setHeap, VmState.context, hs]
    · simp [VmState.setContext, sqView, SquirrelScriptContext.setHeap, SqHeap.newInstance]
    · simp [VmState.setContext, sqView, SquirrelScriptContext.setHeap, SqHeap.newInstance]
    · rw [hfind] at hn
      cases hn

/-- What `SQVM::Get` is for the values classes are looked up in: a class that a table
has, and anything a class has or has not, are found without running a script. -/
structure SqVm.Reads (vm : SqVm) : Prop where
  table : ∀ r k q w, w.heap.slot r k = some (.sqclass q) → vm.get (.table r) k w = (some (.sqclass q), w)
  sqclass : ∀ r k w, (vm.get (.sqclass r) k w).2 = w

/-- Nothing in the heap knows the descriptor, and what is found in it is there. -/
structure SqHeap.Unknown (h : SqHeap) (desc : ClassDesc) : Prop where
  root_lt : h.roottable < h.next
  class_lt : ∀ k q, h.slot h.roottable k = some (.sqclass q) → q < h.next
  native_lt : ∀ r k n, r < h.next → h.slot r k = some (.nativeclosure n) → n < h.next
  unknown : ∀ n f, n < h.next → h.native n ≠ .backend f [.userpointer (.classInfo desc)]

/-- The class goes into what is on top, or stays there with its name. -/
def registeredHeap (h : SqHeap) (desc : ClassDesc) : SqValue → SqHeap
  | .table r => (h.buildClass desc).setSlot r (.string desc.name) (.sqclass h.next)
  | .sqclass r => (h.buildClass desc).newMember r (.string desc.name) (.sqclass h.next)
  | _ => h.buildClass desc

def registeredStack (h : SqHeap) (desc : ClassDesc) (top : SqValue) (rest : List SqValue) : List SqValue :=
  match top with
  | .table _ => top :: rest
  | .sqclass _ => top :: rest
  | _ => .sqclass h.next :: .string desc.name :: top :: rest

theorem registerUserClass_top (hctor : desc.constructor.isSome = true) (hdtor : desc.destructor.isSome = true)
    (hs : c.stack = top :: rest) :
    registerUserClass desc c = .ok (true, { c with
      stack := registeredStack c.world.heap desc top rest
      world := { c.world with heap := registeredHeap c.world.heap desc top, classes := c.world.classes ++ [desc] } }) := by
  obtain ⟨stack, stackbase, world⟩ := c
  obtain rfl : stack = top :: rest := hs
  let c₁ : SquirrelScriptContext :=
    { stack := .sqclass world.heap.next :: .string desc.name :: top :: rest, stackbase := stackbase, world := world }
  have hslot := sqCreateslot_ok (c := c₁.setHeap (world.heap.buildClass desc)) rfl
  rw [registerUserClass_eq hctor hdtor]
  cases top <;> exact (bind_ok hslot).trans rfl

theorem registerUserClass_complete {r : Bool × SquirrelScriptContext} (hr : registerUserClass desc c = .ok r) :
    desc.constructor.isSome = true ∧ desc.destructor.isSome = true := by
  rw [registerUserClass] at hr
  obtain ⟨_, c₁, hctor, hr⟩ := bind_ok_inv hr
  obtain ⟨_, c₂, hdtor, -⟩ := bind_ok_inv hr
  exact ⟨(sqAssert_inv hctor).1, (sqAssert_inv hdtor).1⟩

/-- What is new under a reference that was there before is the class. -/
theorem registeredHeap_slot {r : Nat} {k : SqValue} (hr : r < h.next) :
    (registeredHeap h desc top).slot r k = h.slot r k ∨
      (registeredHeap h desc top).slot r k = some (.sqclass h.next) := by
  have hb : (h.buildClass desc).slot r k = h.slot r k :=
    (buildClass_keeps h [] desc).slot r k hr fun _ _ hn => absurd hn List.not_mem_nil
  have hset : ∀ t, ((h.buildClass desc).setSlot t (.string desc.name) (.sqclass h.next)).slot r k = h.slot r k ∨
      ((h.buildClass desc).setSlot t (.string desc.name) (.sqclass h.next)).slot r k = some (.sqclass h.next) := by
    intro t
    simp only [SqHeap.setSlot]
    split
    · exact .inr rfl
    · exact .inl hb
  cases top with
  | table t => exact hset t
  | sqclass q =>
    simp only [registeredHeap, SqHeap.newMember]
    split
    · exact .inl hb
    · split
      · exact .inl hb
      · exact hset q
  | _ => exact .inl hb

theorem registeredHeap_root (hroot : h.roottable < h.next) (htop : top ≠ .table h.roottable)
    (hclass : top ≠ .sqclass h.roottable) :
    (registeredHeap h desc top).roottable = h.roottable ∧
      (registeredHeap h desc top).slot h.roottable (.string desc.name) = h.slot h.roottable (.string desc.name) := by
  have hk := buildClass_keeps h [] desc
  have hb : (h.buildClass desc).slot h.roottable (.string desc.name) = h.slot h.roottable (.string desc.name) :=
    hk.slot_name hroot List.not_mem_nil
  cases top with
  | table t =>
    have hne : ¬ h.roottable = t := fun he => htop (by rw [he])
    exact ⟨hk.roottable, by simp [registeredHeap, SqHeap.setSlot, hne, hb]⟩
  | sqclass q =>
    have hne : ¬ h.roottable = q := fun he => hclass (by rw [he])
    simp only [registeredHeap, SqHeap.newMember]
    split
    · exact ⟨hk.roottable, hb⟩
    · split
      · exact ⟨hk.roottable, hb⟩
      · exact ⟨hk.roottable, by simp [SqHeap.setSlot, hne, hb]⟩
  | _ => exact ⟨hk.roottable, hb⟩

theorem registeredHeap_native {n : Nat} (hn : n < h.next) : (registeredHeap h desc top).native n = h.native n := by
  have hb : (h.buildClass desc).native n = h.native n := (buildClass_keeps h [] desc).native n hn
  cases top with
  | sqclass q =>
    rw [registeredHeap, newMember_native]
    exact hb
  | _ => exact hb

/-- A class that is put anywhere else is not found in the root table. -/
theorem registeredHeap_lost {q : Nat} (hu : h.Unknown desc) (htop : top ≠ .table h.roottable)
    (hclass : top ≠ .sqclass h.roottable)
    (hslot : (registeredHeap h desc top).slot (registeredHeap h desc top).roottable
      (.string desc.name) = some (.sqclass q)) :
    ¬ (registeredHeap h desc top).MadeFor desc q := by
  intro hm
  obtain ⟨hroot, hold⟩ := @registeredHeap_root h desc top hu.root_lt htop hclass
  rw [hroot, hold] at hslot
  have hq := hu.class_lt _ q hslot
  obtain ⟨n, hn, hnative⟩ := hm.constructor
  have hold' : h.slot q (.string (cstr "constructor")) = some (.nativeclosure n) := by
    rcases @registeredHeap_slot h desc top q (.string (cstr "constructor")) hq with he | he
    · exact he.symm.trans hn
    · rw [he] at hn
      cases hn
  have hlt := hu.native_lt q _ n hq hold'
  rw [registeredHeap_native hlt] at hnative
  exact hu.unknown n _ hlt hnative

theorem SqHeap.ClassAt.madeFor {q : Nat} (hc : h.ClassAt desc q) : h.MadeFor desc q := by
  refine ⟨hc.base, ?_⟩
  have hm := hc.members (cstr "constructor")
  have hmember : member desc (cstr "constructor") =
    some (.classConstructorCallback, [.userpointer (.classInfo desc)]) := by
    unfold member SqHeap.members
    cases desc.garbageCollect <;> simp +decide
  rw [hmember] at hm
  obtain ⟨n, hn, -, hnative⟩ := hm
  have hplain : cstr "constructor" ∉ metamethodNames := by decide
  rw [SqHeap.memberOf, if_neg hplain] at hn
  exact ⟨n, hn, hnative⟩

theorem findClassInfo_append {classes : List ClassDesc} (h : classes.find? (·.addr == desc.addr) = none) :
    (classes ++ [desc]).find? (·.addr == desc.addr) = some desc := by
  rw [List.find?_append, h]
  simp

/-- The world `PushNewScriptObject` leaves. -/
theorem pushNewScriptObject_world {objectPtr : Option Nat} {info : ClassDesc} {c₁ : SquirrelScriptContext}
    {r : (Nat × SquirrelScriptStack) × SqState}
    (hf : findOrRegister desc (s.context sqView mainThread) = .ok (info, c₁))
    (hs : c₁.stack = top :: rest) (hr : st.pushNewScriptObject vm desc objectPtr s = .ok r) :
    ∃ q p, r.2.world.heap = (vm.get top (.string desc.name) c₁.world).2.heap.newInstance q p := by
  have hpush := @pushClass_eq vm c₁ top rest desc.name hs
  rcases hg : vm.get top (.string desc.name) c₁.world with ⟨_ | v, w⟩
  · rw [hg] at hpush
    rw [pushNewScriptObject_eq, hf] at hr
    simp only [Except.bind] at hr
    cases top with
    | sqclass q =>
      have hreplace := @replaceByInstance_ok { c₁ with world := w, stack := .sqclass q :: rest }
        rest q s.objects.next rfl
      rw [hpush] at hr
      simp only at hr
      rw [hreplace] at hr
      cases hr
      exact ⟨q, _, rfl⟩
    | _ =>
      rw [hpush] at hr
      cases hr
  · cases v with
    | sqclass q =>
      rw [pushNewScriptObject_found hf hs hg] at hr
      cases hr
      exact ⟨q, _, rfl⟩
    | _ =>
      rw [hg] at hpush
      rw [pushNewScriptObject_eq, hf] at hr
      simp only [Except.bind] at hr
      rw [hpush] at hr
      cases hr

/-- A class that is not registered goes into the root table exactly where that is on
top. -/
theorem newObject_unregistered_iff {p : Nat} (hfind : findClassInfo s.world desc = none)
    (hfresh : s.objects.get s.objects.next = none) (hs : (s.frame mainThread).stack = top :: rest) (hvm : vm.Reads)
    (hu : s.world.heap.Unknown desc) (hclass : top ≠ .sqclass s.world.heap.roottable) :
    NewObjectWorks vm st desc p s ↔
      top = .table s.world.heap.roottable ∧ desc.constructor.isSome = true ∧ desc.destructor.isSome = true := by
  have hs' : (s.context sqView mainThread).stack = top :: rest := hs
  have hfind' : findClassInfo (s.context sqView mainThread).world desc = none := hfind
  have hf : findOrRegister desc (s.context sqView mainThread) = (do
      let _ ← registerUserClass desc
      classInfoOf desc : SqM ClassDesc) (s.context sqView mainThread) := by
    rw [findOrRegister, bind_get, hfind']
  let w₁ : SqWorld := { s.world with heap := registeredHeap s.world.heap desc top, classes := s.world.classes ++ [desc] }
  let c₁ : SquirrelScriptContext := { s.context sqView mainThread with
    stack := registeredStack s.world.heap desc top rest, world := w₁ }
  have hfind₁ : findClassInfo w₁ desc = some desc := findClassInfo_append hfind
  have hf₁ : desc.constructor.isSome = true → desc.destructor.isSome = true →
      findOrRegister desc (s.context sqView mainThread) = .ok (desc, c₁) := by
    intro hctor hdtor
    have hreg : registerUserClass desc (s.context sqView mainThread) = .ok (true, c₁) :=
      registerUserClass_top hctor hdtor hs'
    rw [hf, bind_ok hreg, classInfoOf, bind_get]
    rw [show findClassInfo c₁.world desc = some desc from hfind₁]
    rfl
  constructor
  · rintro ⟨r, hr, hp⟩
    obtain ⟨hctor, hdtor⟩ : desc.constructor.isSome = true ∧ desc.destructor.isSome = true := by
      cases hreg : registerUserClass desc (s.context sqView mainThread) with
      | error g =>
        rw [pushNewScriptObject_eq, hf, bind_error hreg] at hr
        cases hr
      | ok x => exact registerUserClass_complete hreg
    refine ⟨?_, hctor, hdtor⟩
    by_contra htop
    -- the lookup runs no script: it is in a table that has the class, or in a class
    obtain ⟨top₁, rest₁, hstack₁, hworld⟩ : ∃ top₁ rest₁, c₁.stack = top₁ :: rest₁ ∧
        (vm.get top₁ (.string desc.name) w₁).2 = w₁ := by
      cases top with
      | table t =>
        refine ⟨_, _, rfl, ?_⟩
        rw [hvm.table t _ s.world.heap.next w₁ (by simp [w₁, registeredHeap, SqHeap.setSlot])]
      | sqclass q => exact ⟨_, _, rfl, hvm.sqclass _ _ _⟩
      | _ => exact ⟨_, _, rfl, hvm.sqclass _ _ _⟩
    obtain ⟨q, p', hheap⟩ := pushNewScriptObject_world (hf₁ hctor hdtor) hstack₁ hr
    rw [show (vm.get top₁ (.string desc.name) c₁.world).2 = w₁ from hworld] at hheap
    obtain ⟨i, q', -, -, -, hmade, hroot⟩ := hp.value
    have hslot := (hroot hfind).2
    rw [hheap] at hmade hslot
    exact registeredHeap_lost hu htop hclass hslot (newInstance_madeFor.mp hmade)
  · rintro ⟨rfl, hctor, hdtor⟩
    have hregistered := @registerClass_registered s.world.heap desc hu.root_lt
    have hroot : w₁.heap.roottable = s.world.heap.roottable := (registerClass_keeps s.world.heap desc).roottable
    have hget : vm.get (.table s.world.heap.roottable) (.string desc.name) c₁.world
        = (some (.sqclass s.world.heap.next), c₁.world) := by
      refine hvm.table _ _ _ _ ?_
      rw [← hroot]
      exact hregistered.root
    refine ⟨_, pushNewScriptObject_found (hf₁ hctor hdtor) rfl hget, rfl, ⟨w₁.heap.next, s.world.heap.next, ?_, ?_, ?_,
      newInstance_madeFor.mpr hregistered.toClassAt.madeFor, fun _ => ⟨hfind₁, hregistered.root⟩⟩,
      ⟨hfresh, { objectPtr := some p }, Objects.new_get_next, rfl⟩⟩
    · simp [VmState.setContext, sqView, SquirrelScriptContext.setHeap, VmState.context, hs, c₁]
    · simp [VmState.setContext, sqView, SquirrelScriptContext.setHeap, SqHeap.newInstance, c₁]
    · simp [VmState.setContext, sqView, SquirrelScriptContext.setHeap, SqHeap.newInstance, c₁]

end Squirrel

/-- When `PushNewScriptObject` works. A registered class is found by its name, in the
registry in Lua and in the value on top in Squirrel. One that is not registered goes
into the globals from an empty frame in Lua, and in Squirrel where the root table is on
top. -/
theorem pushNewScriptObject_works_iff (desc : ClassDesc) (p : Nat) :
    (∀ (vm : Lua.LuaVm) (st : Lua.LuaScriptStack) (s : Lua.LuaState),
      s.objects.get s.objects.next = none →
      (Lua.findClassInfo s.world desc = some desc →
        (s.world.heap.table s.world.heap.registry).metatable = none →
        (Lua.NewObjectWorks vm st desc p s ↔ ∃ mt,
          (s.world.heap.table s.world.heap.registry).slot (.string desc.name) = .table mt ∧
          s.world.heap.MadeFor desc mt)) ∧
      (Lua.findClassInfo s.world desc = none →
        (Lua.NewObjectWorks vm st desc p s →
          (s.frame mainThread).slots = [] ∧ desc.constructor.isSome = true ∧ desc.destructor.isSome = true) ∧
        (s.world.heap.Plain → s.world.heap.Accepts desc.name → (s.frame mainThread).slots = [] →
          desc.constructor.isSome = true → desc.destructor.isSome = true → Lua.NewObjectWorks vm st desc p s))) ∧
    ∀ (vm : Squirrel.SqVm) (st : Squirrel.SquirrelScriptStack) (s : Squirrel.SqState) (top : Squirrel.SqValue)
      (rest : List Squirrel.SqValue),
      s.objects.get s.objects.next = none → (s.frame mainThread).stack = top :: rest →
      (Squirrel.findClassInfo s.world desc = some desc →
        (Squirrel.NewObjectWorks vm st desc p s ↔ ∃ q w,
          vm.get top (.string desc.name) s.world = (some (.sqclass q), w) ∧ w.heap.MadeFor desc q)) ∧
      (Squirrel.findClassInfo s.world desc = none → vm.Reads → s.world.heap.Unknown desc →
        top ≠ .sqclass s.world.heap.roottable →
        (Squirrel.NewObjectWorks vm st desc p s ↔ top = .table s.world.heap.roottable ∧
          desc.constructor.isSome = true ∧ desc.destructor.isSome = true)) := by
  refine ⟨fun vm st s hfresh => ⟨?_, ?_⟩, fun vm st s top rest hfresh hs => ⟨?_, ?_⟩⟩
  · intro hfind hm
    exact Lua.newObject_registered_iff hfind hfresh hm
  · intro hfind
    refine ⟨Lua.newObject_unregistered_needs hfind, fun hp ha hs hctor hdtor => ?_⟩
    exact Lua.newObject_unregistered hfind hfresh hp ha hs hctor hdtor
  · intro hfind
    exact Squirrel.newObject_registered_iff hfind hfresh hs
  · intro hfind hvm hu hclass
    exact Squirrel.newObject_unregistered_iff hfind hfresh hs hvm hu hclass

/-- A class nobody has registered. -/
def newClass : ClassDesc := { addr := 1, name := cstr "MyClass", constructor := some 1, destructor := some 2 }

/-- A Lua callback, with these parameters left. -/
def Lua.inCallback (params : List Lua.LuaValue) : Lua.LuaState where
  frame _ := { func := .function 0, slots := params }
  world := (Lua.createContext (.binding [cstr "f"])).world
  objects := .empty

/-- A Squirrel callback, with these parameters left over the root table as `this`. -/
def Squirrel.inCallback (heap : Squirrel.SqHeap) (classes : List ClassDesc) (params : List Squirrel.SqValue) :
    Squirrel.SqState where
  frame _ := { stack := params ++ [.table 0], stackbase := 0 }
  world := { (Squirrel.createContext heap).world with classes }
  objects := .empty

/-- With one parameter left, a class can not be registered from a Lua callback, and one
that is registered is not found from a Squirrel callback. -/
theorem pushNewScriptObject_parameter_left :
    ¬ Lua.NewObjectWorks (.ending (.returned [])) (Lua.callbackStack 1) newClass 7
      (Lua.inCallback [.number (.ofInt 5)]) ∧
    ¬ Squirrel.NewObjectWorks (.ending none) (Squirrel.callbackStack 1) newClass 7
      (Squirrel.inCallback (Squirrel.registeredHeap (.binding []) newClass (.table 0)) [newClass] [.integer 5]) := by
  constructor
  · intro hw
    obtain ⟨hs, -⟩ := Lua.newObject_unregistered_needs rfl hw
    cases hs
  · intro hw
    obtain ⟨q, w, hget, -⟩ := (Squirrel.newObject_registered_iff (by decide) rfl rfl).mp hw
    cases hget

/-- With none left, a class is registered and found. -/
theorem pushNewScriptObject_works_empty :
    Lua.NewObjectWorks (.ending (.returned [])) (Lua.callbackStack 0) newClass 7 (Lua.inCallback []) ∧
    Squirrel.NewObjectWorks (.ending none) (Squirrel.callbackStack 0) newClass 7
      (Squirrel.inCallback (.binding []) [] []) := by
  obtain ⟨hlua, hsquirrel⟩ := pushNewScriptObject_works_iff newClass 7
  constructor
  · have hp : (Lua.LuaHeap.binding [cstr "f"]).Plain := ⟨by decide, by decide, by decide, rfl, rfl⟩
    have ha : (Lua.LuaHeap.binding [cstr "f"]).Accepts newClass.name := .unused (by decide)
    exact ((hlua _ _ _ rfl).2 rfl).2 hp ha rfl rfl rfl
  · have hvm : (Squirrel.SqVm.ending none).Reads :=
      ⟨fun r k q w hk => by simp [Squirrel.SqVm.ending, hk], fun _ _ _ => rfl⟩
    have hu : (Squirrel.SqHeap.binding []).Unknown newClass := by
      refine ⟨by decide, fun k q hk => ?_, fun r k n _ hk => ?_, fun n f _ => ?_⟩
      · cases k <;> simp [Squirrel.SqHeap.binding] at hk
      · cases k <;> simp [Squirrel.SqHeap.binding] at hk
      · simp [Squirrel.SqHeap.binding]
    exact ((hsquirrel _ _ _ _ _ rfl rfl).2 rfl hvm hu (by simp)).mpr ⟨rfl, rfl, rfl⟩

end MultiScript
