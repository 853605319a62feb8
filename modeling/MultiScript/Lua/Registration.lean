/-
What registration does to the heap of a Lua context. The code walks over stack
slots; from an empty frame each of its steps is one change of the heap, and
`LuaHeap.registerClass` is all of them in order.

A class is three tables: the methods, under the class's name in the globals,
the metatable of its objects, under the same name in the registry, and the
metatable of the methods, whose `__call` constructs.
-/
import MultiScript.Lua.Context

namespace MultiScript.Lua

open Act

/-! ## Changes of the heap -/

namespace LuaHeap

def newClosure (h : LuaHeap) (f : LuaCFunction) (upvalues : List LuaValue) : LuaHeap :=
  { h with next := h.next + 1, closure := fun r => if r = h.next then .c f upvalues else h.closure r }

def newTable (h : LuaHeap) : LuaHeap := { h with next := h.next + 1 }.setTable h.next .empty

def setField (h : LuaHeap) (t : Nat) (k v : LuaValue) : LuaHeap := h.setTable t ((h.table t).set k v)

def setMeta (h : LuaHeap) (t : Nat) (mt : Option Nat) : LuaHeap := h.setTable t { h.table t with metatable := mt }

/-- A new closure under `name` in the table `t`. -/
def setClosure (h : LuaHeap) (t : Nat) (name : Bytes) (f : LuaCFunction) (upvalues : List LuaValue) : LuaHeap :=
  (h.newClosure f upvalues).setField t (.string name) (.function h.next)

/-- The metatable `luaL_newmetatable` finds, or makes next. -/
def metatableRef (h : LuaHeap) (name : Bytes) : Nat :=
  match (h.table h.registry).slot (.string name) with
  | .table r => r
  | _ => h.next

def newMetatable (h : LuaHeap) (name : Bytes) : LuaHeap :=
  if (h.table h.registry).slot (.string name) = .nil then
    h.newTable.setField h.registry (.string name) (.table h.next)
  else h

/-- The methods of a class, each set in the table `m`. -/
def setMethods (h : LuaHeap) (m : Nat) (info : LuaValue) (methods : List (ClassMethodDesc × Nat)) : LuaHeap :=
  methods.foldl (fun h x => h.setClosure m x.1.name .classMethodCallback [info, .number (.ofInt x.2)]) h

def setDestroy (h : LuaHeap) (m : Nat) (desc : ClassDesc) (info : LuaValue) : LuaHeap :=
  if desc.garbageCollect then h else h.setClosure m (cstr "Destroy") .classDestructorCallback [info]

/-- The metatable `mt` of the objects of a class. -/
def setObjectMetatable (h : LuaHeap) (m mt : Nat) (info : LuaValue) : LuaHeap :=
  (((h.setField mt (.string (cstr "__metatable")) (.table m)).setField mt (.string (cstr "__index"))
    (.table m)).setClosure
    mt (cstr "__tostring") .classToStringMethodCallback [info]).setClosure mt (cstr "__gc") .classGCCallback [info]

/-- The metatable of the methods `m`. -/
def setCall (h : LuaHeap) (m : Nat) (info : LuaValue) : LuaHeap :=
  (h.newTable.setClosure h.next (cstr "__call") .classConstructorCallback [info]).setMeta m (some h.next)

/-- A class over the methods `m` and the metatable `mt`. -/
def buildClass (h : LuaHeap) (desc : ClassDesc) (m mt : Nat) : LuaHeap :=
  let info : LuaValue := .lightuserdata (.classInfo desc)
  let h := h.setField h.globals (.string desc.name) (.table m)
  let h := ((h.setObjectMetatable m mt info).setDestroy m desc info).setCall m info
  h.setMethods m info desc.methods.zipIdx

/-- `RegisterUserClass`. -/
def registerClass (h : LuaHeap) (desc : ClassDesc) : LuaHeap :=
  (h.newTable.newMetatable desc.name).buildClass desc h.next (h.newTable.metatableRef desc.name)

def registerFunction (h : LuaHeap) (desc : FunctionDesc) : LuaHeap :=
  (h.newClosure .functionCallback [.lightuserdata (.functionInfo desc)]).setField h.globals (.string desc.name)
    (.function h.next)

section Effects

variable {h : LuaHeap} {r t : Nat} {k k' v : LuaValue} {name : Bytes} {f : LuaCFunction} {ups : List LuaValue}
    {mt : Option Nat}

@[simp] theorem newTable_next : h.newTable.next = h.next + 1 := rfl
@[simp] theorem newTable_globals : h.newTable.globals = h.globals := rfl
@[simp] theorem newTable_registry : h.newTable.registry = h.registry := rfl
@[simp] theorem newTable_closure : h.newTable.closure = h.closure := rfl
@[simp] theorem newTable_userdata : h.newTable.userdata = h.userdata := rfl
@[simp] theorem newTable_table : h.newTable.table r = if r = h.next then .empty else h.table r := rfl

@[simp] theorem setField_next : (h.setField t k v).next = h.next := rfl
@[simp] theorem setField_globals : (h.setField t k v).globals = h.globals := rfl
@[simp] theorem setField_registry : (h.setField t k v).registry = h.registry := rfl
@[simp] theorem setField_closure : (h.setField t k v).closure = h.closure := rfl
@[simp] theorem setField_userdata : (h.setField t k v).userdata = h.userdata := rfl

@[simp] theorem setField_slot :
    ((h.setField t k v).table r).slot k' = if r = t ∧ k' = k then v else (h.table r).slot k' := by
  by_cases hr : r = t
  · subst hr
    simp [setField, setTable, LuaTable.set]
  · simp [setField, setTable, hr]

@[simp] theorem setField_metatable : ((h.setField t k v).table r).metatable = (h.table r).metatable := by
  by_cases hr : r = t
  · subst hr
    simp [setField, setTable, LuaTable.set]
  · simp [setField, setTable, hr]

theorem setField_other (hr : r ≠ t) : (h.setField t k v).table r = h.table r := by
  simp [setField, setTable, hr]

@[simp] theorem setMeta_next : (h.setMeta t mt).next = h.next := rfl
@[simp] theorem setMeta_globals : (h.setMeta t mt).globals = h.globals := rfl
@[simp] theorem setMeta_registry : (h.setMeta t mt).registry = h.registry := rfl
@[simp] theorem setMeta_closure : (h.setMeta t mt).closure = h.closure := rfl
@[simp] theorem setMeta_userdata : (h.setMeta t mt).userdata = h.userdata := rfl

@[simp] theorem setMeta_slot : ((h.setMeta t mt).table r).slot = (h.table r).slot := by
  by_cases hr : r = t
  · subst hr
    simp [setMeta, setTable]
  · simp [setMeta, setTable, hr]

@[simp] theorem setMeta_metatable :
    ((h.setMeta t mt).table r).metatable = if r = t then mt else (h.table r).metatable := by
  by_cases hr : r = t
  · simp [setMeta, setTable, hr]
  · simp [setMeta, setTable, hr]

@[simp] theorem setClosure_next : (h.setClosure t name f ups).next = h.next + 1 := rfl
@[simp] theorem setClosure_globals : (h.setClosure t name f ups).globals = h.globals := rfl
@[simp] theorem setClosure_registry : (h.setClosure t name f ups).registry = h.registry := rfl
@[simp] theorem setClosure_userdata : (h.setClosure t name f ups).userdata = h.userdata := rfl

@[simp] theorem setClosure_closure :
    (h.setClosure t name f ups).closure r = if r = h.next then .c f ups else h.closure r := rfl

@[simp] theorem setClosure_slot : ((h.setClosure t name f ups).table r).slot k'
    = if r = t ∧ k' = .string name then .function h.next else (h.table r).slot k' := by
  rw [setClosure, setField_slot]
  rfl

@[simp] theorem setClosure_metatable :
    ((h.setClosure t name f ups).table r).metatable = (h.table r).metatable := by
  rw [setClosure, setField_metatable]
  rfl

theorem setClosure_other (hr : r ≠ t) : (h.setClosure t name f ups).table r = h.table r := by
  rw [setClosure, setField_other hr]
  rfl

end Effects

end LuaHeap

/-! ## The code as changes of the heap -/

/-- The index stays at the table `t` while values are pushed over `slots`. -/
def Denotes (h : LuaHeap) (slots : List LuaValue) (t : Nat) : LuaIndex → Prop
  | .stack idx => 0 < idx ∧ slots.reverse[(idx - 1).toNat]? = some (.table t)
  | .globals => h.globals = t
  | .registry => h.registry = t
  | .upvalue _ => False

variable {vm : LuaVm} {c : LuaScriptContext} {h : LuaHeap} {slots extra : List LuaValue} {t : Nat} {idx : LuaIndex}

theorem at_under (extra slots : List LuaValue) {i : Int} {v : LuaValue} (hs : c.slots = extra ++ slots) (hi : 0 < i)
    (hv : slots.reverse[(i - 1).toNat]? = some v) : c.at i = v := by
  obtain ⟨hlt, hget⟩ := List.getElem?_eq_some_iff.mp hv
  have hlen : (i - 1).toNat < slots.length := by simpa using hlt
  have hin : ¬ (0 < i ∧ (c.slots.length : Int) < i) := by
    rw [hs, List.length_append]
    omega
  have hdepth : c.depth i = extra.length + (slots.length - 1 - (i - 1).toNat) := by
    simp only [LuaScriptContext.depth, if_pos hi, hs, List.length_append]
    omega
  have hidx : slots.length - 1 - (i - 1).toNat < slots.length := by omega
  have hsome : slots[slots.length - 1 - (i - 1).toNat]? = some v := by
    rw [← hget, List.getElem_reverse, List.getElem?_eq_getElem hidx]
  rw [LuaScriptContext.at, if_neg hin, hdepth, hs, List.append_assoc, List.getD_eq_getElem?_getD,
    List.getElem?_append_right (by omega), Nat.add_sub_cancel_left,
    List.getElem?_append_left hidx, hsome]
  rfl

theorem Denotes.adr (extra : List LuaValue) (hd : Denotes c.world.heap slots t idx) (hs : c.slots = extra ++ slots) :
    index2adr c idx = .table t := by
  cases idx with
  | stack i => exact at_under extra slots hs hd.1 hd.2
  | globals => exact congrArg LuaValue.table hd
  | registry => exact congrArg LuaValue.table hd
  | upvalue i => exact hd.elim

theorem at_second {v k : LuaValue} {rest : List LuaValue} (hs : c.slots = v :: k :: rest) : c.at (-2) = k := by
  simp [LuaScriptContext.at, LuaScriptContext.depth, hs]

/-- A table without a `__newindex` takes any string key. -/
theorem luaSettable_ok {s : Bytes} {v : LuaValue} (hs : c.slots = v :: .string s :: slots)
    (hd : Denotes c.world.heap slots t idx) (hn : c.world.heap.metamethod t (cstr "__newindex") = .nil) :
    luaSettable vm idx c = .ok ((), { c with slots }.setHeap (c.world.heap.setField t (.string s) v)) := by
  have hadr : index2adr c idx = .table t := hd.adr [v, .string s] hs
  have hset : luaVSettable vm (.table t) (.string s) v c.world
      = .ok { c.world with heap := c.world.heap.setField t (.string s) v } := by
    simp [luaVSettable, hn, LuaHeap.setField]
  simp only [luaSettable, hadr, at_second hs, at_top hs, hset]
  rw [show (.ok _ : Except Fault LuaWorld) >>= _ = luaPop 2 _ from rfl, luaPop_ok (by simp [hs])]
  simp [hs, LuaScriptContext.setHeap]

theorem luaSetfield_ok {s : Bytes} {v : LuaValue} (hs : c.slots = v :: slots) (hd : Denotes c.world.heap slots t idx)
    (hn : c.world.heap.metamethod t (cstr "__newindex") = .nil) :
    luaSetfield vm idx s c = .ok ((), { c with slots }.setHeap (c.world.heap.setField t (.string s) v)) := by
  have hadr : index2adr c idx = .table t := hd.adr [v] hs
  have hset : luaVSettable vm (.table t) (.string s) v c.world
      = .ok { c.world with heap := c.world.heap.setField t (.string s) v } := by
    simp [luaVSettable, hn, LuaHeap.setField]
  simp only [luaSetfield, hadr, at_top hs, hset]
  rw [show (.ok _ : Except Fault LuaWorld) >>= _ = luaPop 1 _ from rfl, luaPop_ok (by simp [hs])]
  simp [hs, LuaScriptContext.setHeap]

@[simp] theorem newClosure_metamethod {f : LuaCFunction} {ups : List LuaValue} {event : Bytes} :
    (h.newClosure f ups).metamethod t event = h.metamethod t event := rfl

theorem Denotes.heap {h' : LuaHeap} (hd : Denotes h slots t idx) (hg : h'.globals = h.globals)
    (hr : h'.registry = h.registry) : Denotes h' slots t idx := by
  cases idx with
  | stack i => exact hd
  | globals => exact hg.trans hd
  | registry => exact hr.trans hd
  | upvalue i => exact hd.elim

theorem forM_luaPush_ok : ∀ (ups : List LuaValue) (c : LuaScriptContext),
    ups.forM luaPush c = .ok ((), { c with slots := ups.reverse ++ c.slots })
  | [], _ => rfl
  | u :: ups, c => by
    have hrest := forM_luaPush_ok ups { c with slots := u :: c.slots }
    rw [show (u :: ups).forM luaPush = luaPush u >>= fun _ => ups.forM luaPush from rfl, bind_ok luaPush_ok, hrest]
    simp

@[simp] theorem setHeap_setHeap (h h' : LuaHeap) : (c.setHeap h).setHeap h' = c.setHeap h' := rfl

theorem setClosure_ok {name : Bytes} {f : LuaCFunction} {ups : List LuaValue} (hd : Denotes h c.slots t idx)
    (hn : h.metamethod t (cstr "__newindex") = .nil) :
    setClosure vm idx name f ups (c.setHeap h) = .ok ((), c.setHeap (h.setClosure t name f ups)) := by
  have hclosure : luaPushcclosure f ups.length { c.setHeap h with slots := ups.reverse ++ .string name :: c.slots }
      = .ok ((), { c with slots := .function h.next :: .string name :: c.slots }.setHeap (h.newClosure f ups)) := by
    simp [luaPushcclosure, LuaHeap.newClosure, LuaScriptContext.setHeap]
  rw [setClosure, bind_ok (show luaPushstring name _ = _ from luaPush_ok), bind_ok (forM_luaPush_ok _ _)]
  refine (bind_ok hclosure).trans ?_
  exact luaSettable_ok rfl (hd.heap rfl rfl) hn

theorem setValue_ok {name : Bytes} {slot : Int} {v : LuaValue} (hd : Denotes h c.slots t idx)
    (hn : h.metamethod t (cstr "__newindex") = .nil) (hslot : 0 < slot)
    (hv : c.slots.reverse[(slot - 1).toNat]? = some v) :
    setValue vm idx name slot (c.setHeap h) = .ok ((), c.setHeap (h.setField t (.string name) v)) := by
  have hat : ({ c.setHeap h with slots := .string name :: c.slots } : LuaScriptContext).at slot = v :=
    at_under [.string name] c.slots rfl hslot hv
  have hpush : luaPushvalue slot { c.setHeap h with slots := .string name :: c.slots }
      = .ok ((), { c.setHeap h with slots := v :: .string name :: c.slots }) := by
    simp [luaPushvalue, hat]
  rw [setValue, bind_ok (show luaPushstring name _ = _ from luaPush_ok)]
  refine (bind_ok hpush).trans ?_
  exact luaSettable_ok rfl hd hn

/-- The globals and the registry, as the VM starts with them. -/
structure LuaHeap.Plain (h : LuaHeap) : Prop where
  globals_lt : h.globals < h.next
  registry_lt : h.registry < h.next
  globals_ne : h.globals ≠ h.registry
  globals_meta : (h.table h.globals).metatable = none
  registry_meta : (h.table h.registry).metatable = none

/-- What the registry has under the name of a class before it is registered: nothing,
or the metatable of another class. -/
inductive LuaHeap.Accepts (h : LuaHeap) (name : Bytes) : Prop
  | unused : (h.table h.registry).slot (.string name) = .nil → Accepts h name
  | shared (r : Nat) : (h.table h.registry).slot (.string name) = .table r → r < h.next → r ≠ h.globals →
      r ≠ h.registry → (h.table r).metatable = none → Accepts h name

theorem metamethod_none {event : Bytes} (hm : (h.table t).metatable = none) : h.metamethod t event = .nil := by
  simp only [LuaHeap.metamethod, hm]

theorem luaLNewmetatable_ok {name : Bytes} (hm : (c.world.heap.table c.world.heap.registry).metatable = none)
    (hlt : c.world.heap.registry < c.world.heap.next) (ha : c.world.heap.Accepts name) :
    ∃ b, luaLNewmetatable vm name c
      = .ok (b, { c with slots := .table (c.world.heap.metatableRef name) :: c.slots }.setHeap
          (c.world.heap.newMetatable name)) := by
  have hget : ∀ v, (c.world.heap.table c.world.heap.registry).slot (.string name) = v →
      luaGetfield vm .registry name c = .ok ((), { c with slots := v :: c.slots }) := by
    rintro v rfl
    have hv : luaVGettable vm (.table c.world.heap.registry) (.string name) c.world
        = .ok ((c.world.heap.table c.world.heap.registry).slot (.string name), c.world) := by
      simp [luaVGettable, metamethod_none hm]
    simp only [luaGetfield, index2adr, hv]
    rfl
  cases ha with
  | unused hn =>
    refine ⟨true, ?_⟩
    have htop : ({ c with slots := .nil :: c.slots } : LuaScriptContext).at (-1) = .nil := at_top rfl
    have hne : c.world.heap.registry ≠ c.world.heap.next := Nat.ne_of_lt hlt
    rw [luaLNewmetatable, bind_ok (hget _ hn), bind_get, htop]
    have hpop : luaPop 1 { c with slots := .nil :: c.slots } = .ok ((), c) := luaPop_ok (by simp)
    simp only [ne_eq, not_true_eq_false, if_false]
    -- the new table twice, and the upper one goes into the registry
    let c₁ := { c with slots := .table c.world.heap.next :: c.slots }.setHeap c.world.heap.newTable
    have hdup : luaPushvalue (-1) c₁ = .ok ((), { c₁ with slots := .table c.world.heap.next :: c₁.slots }) := by
      simp only [luaPushvalue, at_top (show c₁.slots = .table c.world.heap.next :: c.slots from rfl), luaPush_ok]
    have hm' : (c₁.world.heap.table c.world.heap.registry).metatable = none := by
      simp [c₁, LuaScriptContext.setHeap, LuaHeap.newTable, LuaHeap.setTable, hne, hm]
    have hset : luaSetfield vm .registry name { c₁ with slots := .table c.world.heap.next :: c₁.slots } = .ok ((), _) :=
      luaSetfield_ok rfl (show Denotes _ _ _ .registry from rfl) (metamethod_none hm')
    rw [bind_ok hpop, bind_ok (show luaNewtable c = .ok ((), c₁) from rfl), bind_ok hdup, bind_ok hset]
    simp [LuaHeap.metatableRef, LuaHeap.newMetatable, hn, c₁, LuaScriptContext.setHeap, pure_ok]
  | shared r hr =>
    refine ⟨false, ?_⟩
    have htop : ({ c with slots := .table r :: c.slots } : LuaScriptContext).at (-1) = .table r := at_top rfl
    rw [luaLNewmetatable, bind_ok (hget _ hr), bind_get, htop]
    simp only [ne_eq, reduceCtorEq, not_false_eq_true, if_true, LuaHeap.metatableRef, LuaHeap.newMetatable,
      hr, if_false]
    rfl

@[simp] theorem newMetatable_globals {name : Bytes} : (h.newMetatable name).globals = h.globals := by
  unfold LuaHeap.newMetatable
  split <;> rfl

@[simp] theorem newMetatable_registry {name : Bytes} : (h.newMetatable name).registry = h.registry := by
  unfold LuaHeap.newMetatable
  split <;> rfl

theorem newMetatable_metatable {name : Bytes} {r : Nat} (hr : r < h.next) :
    ((h.newMetatable name).table r).metatable = (h.table r).metatable := by
  have hne : r ≠ h.next := Nat.ne_of_lt hr
  unfold LuaHeap.newMetatable
  split
  · simp [hne]
  · rfl

theorem newMetatable_next {name : Bytes} : h.next ≤ (h.newMetatable name).next := by
  unfold LuaHeap.newMetatable
  split
  · exact Nat.le_succ _
  · exact Nat.le_refl _

@[simp] theorem setObjectMetatable_metatable {m mt r : Nat} {info : LuaValue} :
    ((h.setObjectMetatable m mt info).table r).metatable = (h.table r).metatable := by
  simp [LuaHeap.setObjectMetatable]

@[simp] theorem setObjectMetatable_next {m mt : Nat} {info : LuaValue} :
    (h.setObjectMetatable m mt info).next = h.next + 2 := rfl

theorem setDestroy_next {m : Nat} {desc : ClassDesc} {info : LuaValue} : h.next ≤ (h.setDestroy m desc info).next := by
  unfold LuaHeap.setDestroy
  split
  · exact Nat.le_refl _
  · exact Nat.le_succ _

/-- The metatable of the objects of a class has none of its own. -/
theorem metatableRef_metatable {name : Bytes} (ha : h.Accepts name) :
    ((h.newMetatable name).table (h.metatableRef name)).metatable = none := by
  cases ha with
  | unused hn => simp [LuaHeap.newMetatable, LuaHeap.metatableRef, hn, LuaTable.empty]
  | shared r hr _ _ _ hm => simp [LuaHeap.newMetatable, LuaHeap.metatableRef, hr, hm]

theorem newMetatable_other {name : Bytes} {r : Nat} (hr : r < h.next) (hne : r ≠ (h.newMetatable name).registry) :
    (h.newMetatable name).table r = h.table r := by
  rw [newMetatable_registry] at hne
  unfold LuaHeap.newMetatable
  split
  · rw [LuaHeap.setField_other hne, LuaHeap.newTable_table, if_neg (Nat.ne_of_lt hr)]
  · rfl

theorem newMetatable_slot {name : Bytes} (ha : h.Accepts name) :
    ((h.newMetatable name).table (h.newMetatable name).registry).slot (.string name) =
      .table (h.metatableRef name) := by
  cases ha with
  | unused hn => simp [LuaHeap.newMetatable, LuaHeap.metatableRef, hn]
  | shared r hr => simp [LuaHeap.newMetatable, LuaHeap.metatableRef, hr]

theorem newTable_accepts {name : Bytes} (hp : h.Plain) (ha : h.Accepts name) : h.newTable.Accepts name := by
  have hreg : h.registry ≠ h.next := Nat.ne_of_lt hp.registry_lt
  cases ha with
  | unused hn => exact .unused (by simp [hreg, hn])
  | shared r hr hlt hg hreg' hm =>
    have hne : r ≠ h.next := Nat.ne_of_lt hlt
    exact .shared r (by simp [hreg, hr]) (Nat.lt_succ_of_lt hlt) hg hreg' (by simp [hne, hm])

/-- The methods keep a metatable without a `__newindex`. -/
def CallableOnly (h : LuaHeap) (m : Nat) : Prop :=
  ∃ t, (h.table m).metatable = some t ∧ t ≠ m ∧ (h.table t).slot (.string (cstr "__newindex")) = .nil

theorem CallableOnly.newindex {m : Nat} (hc : CallableOnly h m) : h.metamethod m (cstr "__newindex") = .nil := by
  obtain ⟨t, hm, -, hn⟩ := hc
  simp only [LuaHeap.metamethod, hm, hn]

theorem CallableOnly.setClosure {m : Nat} {name : Bytes} {f : LuaCFunction} {ups : List LuaValue}
    (hc : CallableOnly h m) :
    CallableOnly (h.setClosure m name f ups) m := by
  obtain ⟨t, hm, hne, hn⟩ := hc
  exact ⟨t, by simp [hm], hne, by simp [hne, hn]⟩

theorem setMethods_ok (vm : LuaVm) {m : Nat} (info : LuaValue) : ∀ (ms : List (ClassMethodDesc × Nat)) (h : LuaHeap),
    Denotes h c.slots m idx → CallableOnly h m →
    (ms.forM fun x => setClosure vm idx x.1.name .classMethodCallback [info, .number (.ofInt x.2)] : LuaM Unit)
      (c.setHeap h) = .ok ((), c.setHeap (h.setMethods m info ms))
  | [], _, _, _ => rfl
  | x :: ms, h, hd, hc => by
    have hone : setClosure vm idx x.1.name .classMethodCallback [info, .number (.ofInt x.2)] (c.setHeap h) =
      .ok ((), _) :=
      setClosure_ok hd hc.newindex
    exact (bind_ok hone).trans (setMethods_ok vm info ms _ (hd.heap rfl rfl) hc.setClosure)

theorem luaNewtable_ok :
    luaNewtable c = .ok ((), { c with slots := .table c.world.heap.next :: c.slots }.setHeap c.world.heap.newTable) :=
      rfl

theorem setDestroy_ok {desc : ClassDesc} {info : LuaValue} (hd : Denotes h c.slots t idx)
    (hn : h.metamethod t (cstr "__newindex") = .nil) :
    setDestroy vm idx desc info (c.setHeap h) = .ok ((), c.setHeap (h.setDestroy t desc info)) := by
  unfold setDestroy LuaHeap.setDestroy
  split
  · rfl
  · exact setClosure_ok hd hn

/-- `__metatable` to `__gc`, before the rest `k` of the registration. -/
theorem setObjectMetatable_ok {m mt : Nat} {info : LuaValue} {k : LuaM Bool} (hs : c.slots = [.table mt, .table m])
    (hm : (h.table mt).metatable = none) :
    (do
      setValue vm (.stack 2) (cstr "__metatable") 1
      setValue vm (.stack 2) (cstr "__index") 1
      setClosure vm (.stack 2) (cstr "__tostring") .classToStringMethodCallback [info]
      setClosure vm (.stack 2) (cstr "__gc") .classGCCallback [info]
      k) (c.setHeap h) = k (c.setHeap (h.setObjectMetatable m mt info)) := by
  have hd : ∀ h' : LuaHeap, Denotes h' c.slots mt (.stack 2) := fun _ => ⟨by decide, by rw [hs]; rfl⟩
  have hv : c.slots.reverse[((1 : Int) - 1).toNat]? = some (.table m) := by rw [hs]; rfl
  rw [bind_ok (setValue_ok (hd _) (metamethod_none hm) (by decide) hv),
    bind_ok (setValue_ok (hd _) (metamethod_none (by simp [hm])) (by decide) hv),
    bind_ok (setClosure_ok (hd _) (metamethod_none (by simp [hm]))),
    bind_ok (setClosure_ok (hd _) (metamethod_none (by simp [hm])))]
  rfl

/-- The metatable of the methods. -/
theorem setCall_ok {m mt : Nat} {info : LuaValue} {k : LuaM Bool} (hs : c.slots = [.table mt, .table m]) :
    (do
      luaNewtable
      let top ← luaGettop
      setClosure vm (.stack top) (cstr "__call") .classConstructorCallback [info]
      luaSetmetatable 1
      k) (c.setHeap h) = k (c.setHeap (h.setCall m info)) := by
  let c₁ : LuaScriptContext := { c with slots := .table h.next :: c.slots }
  have hd : ∀ h' : LuaHeap, Denotes h' c₁.slots h.next (.stack 3) := fun _ => ⟨by decide, by simp [c₁, hs]⟩
  have hlen : (c₁.setHeap h.newTable).slots.length = 3 := by simp [c₁, LuaScriptContext.setHeap, hs]
  have hset : setClosure vm (.stack 3) (cstr "__call") .classConstructorCallback [info] (c₁.setHeap h.newTable)
      = .ok ((), c₁.setHeap (h.newTable.setClosure h.next (cstr "__call") .classConstructorCallback [info])) :=
    setClosure_ok (hd _) (metamethod_none (by simp [LuaTable.empty]))
  have htop : ∀ h' : LuaHeap, (c₁.setHeap h').at (-1) = .table h.next := fun _ => at_top rfl
  have hone : ∀ h' : LuaHeap, (c₁.setHeap h').at 1 = .table m :=
    fun _ => at_under [] c₁.slots rfl (by decide) (by simp [c₁, hs])
  have hmeta : luaSetmetatable 1 (c₁.setHeap (h.newTable.setClosure h.next (cstr "__call") .classConstructorCallback
      [info])) = .ok ((), c.setHeap (h.setCall m info)) := by
    simp only [luaSetmetatable, htop, hone]
    rfl
  rw [bind_ok (show luaNewtable (c.setHeap h) = .ok ((), c₁.setHeap h.newTable) from rfl), bind_ok luaGettop_ok, hlen]
  exact (bind_ok hset).trans (bind_ok hmeta)

/-- A class is registered from an empty frame. -/
theorem registerUserClass_ok {desc : ClassDesc} (hs : c.slots = []) (hp : c.world.heap.Plain)
    (ha : c.world.heap.Accepts desc.name) (hctor : desc.constructor.isSome = true)
    (hdtor : desc.destructor.isSome = true) :
    registerUserClass vm desc c = .ok (true, { c with world := { c.world with
      heap := c.world.heap.registerClass desc, classes := c.world.classes ++ [desc] } }) := by
  generalize hh : c.world.heap = h at *
  let info : LuaValue := .lightuserdata (.classInfo desc)
  let m := h.next
  let mt := h.newTable.metatableRef desc.name
  let h₂ := h.newTable.newMetatable desc.name
  let h₃ := h₂.setField h₂.globals (.string desc.name) (.table m)
  let h₅ := (h₃.setObjectMetatable m mt info).setDestroy m desc info
  let c₁ : LuaScriptContext := { c with slots := [.table m] }
  let c₂ : LuaScriptContext := { c with slots := [.table mt, .table m] }
  have hglobals : (h₂.table h₂.globals).metatable = none := by
    have hlt : h.globals < h.newTable.next := Nat.lt_succ_of_lt hp.globals_lt
    simp only [h₂, newMetatable_globals, LuaHeap.newTable_globals]
    rw [newMetatable_metatable hlt]
    simp [Nat.ne_of_lt hp.globals_lt, hp.globals_meta]
  have hmt : (h₃.table mt).metatable = none := by
    rw [LuaHeap.setField_metatable]
    exact metatableRef_metatable (newTable_accepts hp ha)
  have hmethods : ((h₃.setObjectMetatable m mt info).table m).metatable = none := by
    have hlt : m < h.newTable.next := Nat.lt_succ_self _
    rw [setObjectMetatable_metatable, LuaHeap.setField_metatable, newMetatable_metatable hlt]
    simp [m, LuaTable.empty]
  have hcallable : CallableOnly (h₅.setCall m info) m := by
    have hnext : m + 1 ≤ h₅.next := by
      have hnew : h.newTable.next ≤ h₂.next := newMetatable_next
      have hdestroy : (h₃.setObjectMetatable m mt info).next ≤ h₅.next := setDestroy_next
      have hfield : h₃.next = h₂.next := rfl
      simp only [LuaHeap.newTable_next, setObjectMetatable_next] at hnew hdestroy
      omega
    refine ⟨h₅.next, by simp [LuaHeap.setCall], by omega, ?_⟩
    simp +decide [LuaHeap.setCall, LuaTable.empty]
  obtain ⟨b, hnew⟩ : ∃ b, luaLNewmetatable vm desc.name (c₁.setHeap h.newTable) = .ok (b, c₂.setHeap h₂) := by
    refine luaLNewmetatable_ok ?_ (Nat.lt_succ_of_lt hp.registry_lt) (newTable_accepts hp ha)
    simp [LuaScriptContext.setHeap, Nat.ne_of_lt hp.registry_lt, hp.registry_meta]
  have hnewtable : luaNewtable c = .ok ((), c₁.setHeap h.newTable) := by
    rw [luaNewtable_ok, hh, hs]
  have hone : c₂.slots.reverse[((1 : Int) - 1).toNat]? = some (.table m) := rfl
  rw [registerUserClass, hctor, hdtor, bind_ok (luaAssert_true _), bind_ok (luaAssert_true _), bind_ok hnewtable,
    bind_ok luaGettop_ok, bind_ok hnew, bind_ok luaGettop_ok]
  have hdglobals : Denotes h₂ c₂.slots h₂.globals .globals := rfl
  have hdmethods : ∀ h' : LuaHeap, Denotes h' c₂.slots m (.stack 1) := fun _ => ⟨by decide, rfl⟩
  refine (bind_ok (setValue_ok hdglobals (metamethod_none hglobals) (by decide) hone)).trans ?_
  refine (setObjectMetatable_ok (c := c₂) (h := h₃) rfl hmt).trans ?_
  refine (bind_ok (setDestroy_ok (hdmethods _) (metamethod_none hmethods))).trans ?_
  refine (setCall_ok (c := c₂) (h := h₅) rfl).trans ?_
  refine (bind_ok (setMethods_ok vm info _ _ (hdmethods _) hcallable)).trans ?_
  have hpop : luaPop 2 (c₂.setHeap (h.registerClass desc)) = .ok ((), c.setHeap (h.registerClass desc)) := by
    rw [luaPop_ok (by simp [c₂, LuaScriptContext.setHeap])]
    simp [c₂, LuaScriptContext.setHeap, hs]
  refine (bind_ok hpop).trans ?_
  rw [bind_ok luaGettop_ok]
  have hlen : ((c.setHeap (h.registerClass desc)).slots.length == 0) = true := by simp [LuaScriptContext.setHeap, hs]
  rw [hlen, bind_ok (luaAssert_true _)]
  rfl

theorem registerFunction_ok {desc : FunctionDesc} (hp : c.world.heap.Plain) :
    registerFunction vm desc c = .ok (true, { c with world := { c.world with
      heap := c.world.heap.registerFunction desc, functions := c.world.functions ++ [desc] } }) := by
  generalize hh : c.world.heap = h at *
  have hclosure : luaPushcclosure .functionCallback 1
      { c with slots := .lightuserdata (.functionInfo desc) :: c.slots }
      = .ok ((), { c with slots := .function h.next :: c.slots }.setHeap
          (h.newClosure .functionCallback [.lightuserdata (.functionInfo desc)])) := by
    simp [luaPushcclosure, LuaHeap.newClosure, LuaScriptContext.setHeap, hh]
  have hset : luaSetfield vm .globals desc.name ({ c with slots := .function h.next :: c.slots }.setHeap
      (h.newClosure .functionCallback [.lightuserdata (.functionInfo desc)])) = .ok ((),
      c.setHeap (h.registerFunction desc)) :=
    luaSetfield_ok rfl (show Denotes _ _ _ .globals from rfl) (metamethod_none hp.globals_meta)
  rw [registerFunction, bind_ok (show luaPushlightuserdata _ c = _ from luaPush_ok), bind_ok hclosure, bind_ok hset]
  rfl

/-! ## What is left as it was -/

/-- The heap `h'` has all of `h`, but for what is bound to `names` in the globals and
in the registry. -/
structure LuaHeap.Keeps (h : LuaHeap) (names : List Bytes) (h' : LuaHeap) : Prop where
  next : h.next ≤ h'.next
  globals : h'.globals = h.globals
  registry : h'.registry = h.registry
  closure : ∀ r, r < h.next → h'.closure r = h.closure r
  userdata : h'.userdata = h.userdata
  table : ∀ r, r < h.next → r ≠ h.globals → r ≠ h.registry → h'.table r = h.table r
  slot : ∀ r k, r < h.next → (∀ name ∈ names, k ≠ .string name) → (h'.table r).slot k = (h.table r).slot k
  metatable : ∀ r, r < h.next → (h'.table r).metatable = (h.table r).metatable

namespace LuaHeap.Keeps

variable {names names' : List Bytes} {h' h'' : LuaHeap} {r : Nat} {k v : LuaValue}

theorem refl (h : LuaHeap) (names : List Bytes) : h.Keeps names h :=
  ⟨Nat.le_refl _, rfl, rfl, fun _ _ => rfl, rfl, fun _ _ _ _ => rfl, fun _ _ _ _ => rfl, fun _ _ => rfl⟩

theorem trans (h₁ : h.Keeps names h') (h₂ : h'.Keeps names' h'') : h.Keeps (names ++ names') h'' where
  next := Nat.le_trans h₁.next h₂.next
  globals := h₂.globals.trans h₁.globals
  registry := h₂.registry.trans h₁.registry
  closure r hr := (h₂.closure r (Nat.lt_of_lt_of_le hr h₁.next)).trans (h₁.closure r hr)
  userdata := h₂.userdata.trans h₁.userdata
  table r hr hg hreg := by
    rw [h₂.table r (Nat.lt_of_lt_of_le hr h₁.next) (by rwa [h₁.globals]) (by rwa [h₁.registry]), h₁.table r hr hg hreg]
  slot r k hr hk := by
    rw [h₂.slot r k (Nat.lt_of_lt_of_le hr h₁.next) fun name hn => hk name (List.mem_append_right _ hn),
      h₁.slot r k hr fun name hn => hk name (List.mem_append_left _ hn)]
  metatable r hr := (h₂.metatable r (Nat.lt_of_lt_of_le hr h₁.next)).trans (h₁.metatable r hr)

/-- What is bound to a name that is not among `names`. -/
theorem slot_name {name : Bytes} (hk : h.Keeps names h') (hr : r < h.next) (hn : name ∉ names) :
    (h'.table r).slot (.string name) = (h.table r).slot (.string name) :=
  hk.slot r _ hr fun _ hm he => hn (LuaValue.string.inj he ▸ hm)

theorem newClosure {f : LuaCFunction} {ups : List LuaValue} (hk : h.Keeps names h') :
    h.Keeps names (h'.newClosure f ups) where
  next := Nat.le_succ_of_le hk.next
  globals := hk.globals
  registry := hk.registry
  closure r hr := by
    have hne : r ≠ h'.next := Nat.ne_of_lt (Nat.lt_of_lt_of_le hr hk.next)
    simp only [LuaHeap.newClosure, if_neg hne]
    exact hk.closure r hr
  userdata := hk.userdata
  table := hk.table
  slot := hk.slot
  metatable := hk.metatable

/-- A change of a table that `h` does not have. -/
theorem setTable {T : LuaTable} (hk : h.Keeps names h') (hr : h.next ≤ r) : h.Keeps names (h'.setTable r T) := by
  have hother : ∀ r', r' < h.next → (h'.setTable r T).table r' = h'.table r' := by
    intro r' hr'
    have hne : r' ≠ r := by omega
    simp [LuaHeap.setTable, hne]
  exact ⟨hk.next, hk.globals, hk.registry, hk.closure, hk.userdata,
    fun r' hr' hg hreg => (hother r' hr').trans (hk.table r' hr' hg hreg),
    fun r' k hr' hn => by rw [hother r' hr']; exact hk.slot r' k hr' hn,
    fun r' hr' => by rw [hother r' hr']; exact hk.metatable r' hr'⟩

theorem newTable (hk : h.Keeps names h') : h.Keeps names h'.newTable := by
  have hnext : h.Keeps names { h' with next := h'.next + 1 } :=
    ⟨Nat.le_succ_of_le hk.next, hk.globals, hk.registry, hk.closure, hk.userdata, hk.table, hk.slot, hk.metatable⟩
  exact hnext.setTable hk.next

theorem setField (hk : h.Keeps names h') (hr : h.next ≤ r) : h.Keeps names (h'.setField r k v) := hk.setTable hr

theorem setMeta {mt : Option Nat} (hk : h.Keeps names h') (hr : h.next ≤ r) : h.Keeps names (h'.setMeta r mt) :=
  hk.setTable hr

theorem setClosure {name : Bytes} {f : LuaCFunction} {ups : List LuaValue} (hk : h.Keeps names h') (hr : h.next ≤ r) :
    h.Keeps names (h'.setClosure r name f ups) := hk.newClosure.setField hr

/-- A name is bound in the globals or in the registry. -/
theorem bind {name : Bytes} (hk : h.Keeps names h') (hn : name ∈ names) (hr : r = h.globals ∨ r = h.registry) :
    h.Keeps names (h'.setField r (.string name) v) where
  next := hk.next
  globals := hk.globals
  registry := hk.registry
  closure := hk.closure
  userdata := hk.userdata
  table r' hr' hg hreg := by
    have hne : r' ≠ r := by
      rintro rfl
      exact hr.elim hg hreg
    rw [LuaHeap.setField_other hne]
    exact hk.table r' hr' hg hreg
  slot r' k hr' hk' := by
    rw [LuaHeap.setField_slot, if_neg fun ⟨_, hkey⟩ => hk' name hn hkey]
    exact hk.slot r' k hr' hk'
  metatable r' hr' := by
    rw [LuaHeap.setField_metatable]
    exact hk.metatable r' hr'

theorem setObjectMetatable {m mt : Nat} {info : LuaValue} (hk : h.Keeps names h') (hmt : h.next ≤ mt) :
    h.Keeps names (h'.setObjectMetatable m mt info) :=
  (((hk.setField hmt).setField hmt).setClosure hmt).setClosure hmt

theorem setDestroy {m : Nat} {desc : ClassDesc} {info : LuaValue} (hk : h.Keeps names h') (hm : h.next ≤ m) :
    h.Keeps names (h'.setDestroy m desc info) := by
  unfold LuaHeap.setDestroy
  split
  · exact hk
  · exact hk.setClosure hm

theorem setCall {m : Nat} {info : LuaValue} (hk : h.Keeps names h') (hm : h.next ≤ m) :
    h.Keeps names (h'.setCall m info) :=
  (hk.newTable.setClosure hk.next).setMeta hm

theorem setMethods {m : Nat} {info : LuaValue} (hm : h.next ≤ m) : ∀ (ms : List (ClassMethodDesc × Nat)) {h' : LuaHeap},
    h.Keeps names h' → h.Keeps names (h'.setMethods m info ms)
  | [], _, hk => hk
  | _ :: ms, _, hk => setMethods hm ms (hk.setClosure hm)

end LuaHeap.Keeps

theorem registerFunction_keeps (h : LuaHeap) (desc : FunctionDesc) :
    h.Keeps [desc.name] (h.registerFunction desc) :=
  ((LuaHeap.Keeps.refl h [desc.name]).newClosure).bind (List.mem_singleton_self _) (.inl rfl)

theorem registerClass_keeps {desc : ClassDesc} (hn : (h.table h.registry).slot (.string desc.name) = .nil)
    (hreg : h.registry < h.next) : h.Keeps [desc.name] (h.registerClass desc) := by
  have hmem : desc.name ∈ [desc.name] := List.mem_singleton_self _
  have hslot : (h.newTable.table h.newTable.registry).slot (.string desc.name) = .nil := by
    simp [Nat.ne_of_lt hreg, hn]
  have hmt : h.newTable.metatableRef desc.name = h.next + 1 := by
    simp only [LuaHeap.metatableRef, hslot, LuaHeap.newTable_next]
  have h₂ : h.Keeps [desc.name] (h.newTable.newMetatable desc.name) := by
    simp only [LuaHeap.newMetatable, hslot, if_true]
    exact ((LuaHeap.Keeps.refl h _).newTable.newTable).bind hmem (.inr rfl)
  have hm : h.next ≤ h.next := Nat.le_refl _
  simp only [LuaHeap.registerClass, LuaHeap.buildClass, hmt]
  refine LuaHeap.Keeps.setMethods hm _ (.setCall (.setDestroy (.setObjectMetatable ?_ (Nat.le_succ _)) hm) hm)
  exact h₂.bind hmem (.inl newMetatable_globals)

/-! ## What a class is -/

/-- The value is a closure of the backend. -/
def LuaHeap.IsClosure (h : LuaHeap) (v : LuaValue) (f : LuaCFunction) (upvalues : List LuaValue) : Prop :=
  ∃ r, v = .function r ∧ r < h.next ∧ h.closure r = .c f upvalues

/-- What a class has under a name: the last method of that name, or `Destroy`. -/
def ClassDesc.member (desc : ClassDesc) (name : Bytes) : Option (LuaCFunction × List LuaValue) :=
  let info : LuaValue := .lightuserdata (.classInfo desc)
  match desc.methods.zipIdx.reverse.find? (·.1.name == name) with
  | some x => some (.classMethodCallback, [info, .number (.ofInt x.2)])
  | none =>
    if desc.garbageCollect = false ∧ name = cstr "Destroy" then some (.classDestructorCallback, [info]) else none

/-- The metatable `mt` of the objects of a class with the methods `m`. -/
structure LuaHeap.ObjectMetatable (h : LuaHeap) (desc : ClassDesc) (m mt : Nat) : Prop where
  index : (h.table mt).slot (.string (cstr "__index")) = .table m
  hidden : (h.table mt).slot (.string (cstr "__metatable")) = .table m
  tostring : h.IsClosure ((h.table mt).slot (.string (cstr "__tostring"))) .classToStringMethodCallback
    [.lightuserdata (.classInfo desc)]
  gc : h.IsClosure ((h.table mt).slot (.string (cstr "__gc"))) .classGCCallback [.lightuserdata (.classInfo desc)]

/-- The tables of a class; `t` is the metatable of the methods. -/
structure LuaHeap.ClassAt (h : LuaHeap) (desc : ClassDesc) (m mt t : Nat) :
    Prop extends h.ObjectMetatable desc m mt where
  metatable : (h.table m).metatable = some t
  call : h.IsClosure ((h.table t).slot (.string (cstr "__call"))) .classConstructorCallback
    [.lightuserdata (.classInfo desc)]
  member : ∀ name, match ClassDesc.member desc name with
    | some (f, ups) => h.IsClosure ((h.table m).slot (.string name)) f ups
    | none => (h.table m).slot (.string name) = .nil

/-- A class is found under its name: by scripts, and by the code that makes objects. -/
structure LuaHeap.Registered (h : LuaHeap) (desc : ClassDesc) (m mt t : Nat) : Prop where
  tables : h.ClassAt desc m mt t
  global : (h.table h.globals).slot (.string desc.name) = .table m
  registry : (h.table h.registry).slot (.string desc.name) = .table mt
  lt : m < h.next ∧ mt < h.next ∧ t < h.next
  ne_globals : m ≠ h.globals ∧ mt ≠ h.globals ∧ t ≠ h.globals
  ne_registry : m ≠ h.registry ∧ mt ≠ h.registry ∧ t ≠ h.registry

theorem LuaHeap.IsClosure.mono {h' : LuaHeap} {v : LuaValue} {f : LuaCFunction} {ups : List LuaValue}
    (hc : h.IsClosure v f ups) (hn : h.next ≤ h'.next) (hcl : ∀ r, r < h.next → h'.closure r = h.closure r) :
    h'.IsClosure v f ups := by
  obtain ⟨r, hv, hlt, hr⟩ := hc
  exact ⟨r, hv, Nat.lt_of_lt_of_le hlt hn, (hcl r hlt).trans hr⟩

theorem LuaHeap.ObjectMetatable.mono {h' : LuaHeap} {desc : ClassDesc} {m mt : Nat} (ho : h.ObjectMetatable desc m mt)
    (hn : h.next ≤ h'.next) (hcl : ∀ r, r < h.next → h'.closure r = h.closure r)
    (hs : ∀ k, (h'.table mt).slot k = (h.table mt).slot k) : h'.ObjectMetatable desc m mt where
  index := (hs _).trans ho.index
  hidden := (hs _).trans ho.hidden
  tostring := by
    rw [hs]
    exact ho.tostring.mono hn hcl
  gc := by
    rw [hs]
    exact ho.gc.mono hn hcl

section Methods

variable {m : Nat} {info : LuaValue}

theorem setMethods_cons {x : ClassMethodDesc × Nat} {ms : List (ClassMethodDesc × Nat)} :
    h.setMethods m info (x :: ms)
      = (h.setClosure m x.1.name .classMethodCallback [info, .number (.ofInt x.2)]).setMethods m info ms := rfl

@[simp] theorem setMethods_globals {ms : List (ClassMethodDesc × Nat)} :
    (h.setMethods m info ms).globals = h.globals := by
  induction ms generalizing h with
  | nil => rfl
  | cons x ms ih => rw [setMethods_cons, ih, LuaHeap.setClosure_globals]

@[simp] theorem setMethods_registry {ms : List (ClassMethodDesc × Nat)} :
    (h.setMethods m info ms).registry = h.registry := by
  induction ms generalizing h with
  | nil => rfl
  | cons x ms ih => rw [setMethods_cons, ih, LuaHeap.setClosure_registry]

theorem setMethods_next {ms : List (ClassMethodDesc × Nat)} : h.next ≤ (h.setMethods m info ms).next := by
  induction ms generalizing h with
  | nil => exact Nat.le_refl _
  | cons x ms ih =>
    have hrest := ih (h := h.setClosure m x.1.name .classMethodCallback [info, .number (.ofInt x.2)])
    exact Nat.le_trans (Nat.le_succ _) hrest

theorem setMethods_closure {ms : List (ClassMethodDesc × Nat)} {r : Nat} (hr : r < h.next) :
    (h.setMethods m info ms).closure r = h.closure r := by
  induction ms generalizing h with
  | nil => rfl
  | cons x ms ih =>
    rw [setMethods_cons, ih (Nat.lt_succ_of_lt hr), LuaHeap.setClosure_closure, if_neg (Nat.ne_of_lt hr)]

theorem setMethods_table {ms : List (ClassMethodDesc × Nat)} {r : Nat} (hr : r ≠ m) :
    (h.setMethods m info ms).table r = h.table r := by
  induction ms generalizing h with
  | nil => rfl
  | cons x ms ih => rw [setMethods_cons, ih, LuaHeap.setClosure_other hr]

@[simp] theorem setMethods_metatable {ms : List (ClassMethodDesc × Nat)} {r : Nat} :
    ((h.setMethods m info ms).table r).metatable = (h.table r).metatable := by
  induction ms generalizing h with
  | nil => rfl
  | cons x ms ih => rw [setMethods_cons, ih, LuaHeap.setClosure_metatable]

/-- Of two methods with one name the later stays. -/
theorem setMethods_slot {ms : List (ClassMethodDesc × Nat)} {name : Bytes} :
    match ms.reverse.find? (·.1.name == name) with
    | some x => (h.setMethods m info ms).IsClosure (((h.setMethods m info ms).table m).slot (.string name))
        .classMethodCallback [info, .number (.ofInt x.2)]
    | none => ((h.setMethods m info ms).table m).slot (.string name) = (h.table m).slot (.string name) := by
  induction ms generalizing h with
  | nil => rfl
  | cons x ms ih =>
    have hrest := ih (h := h.setClosure m x.1.name .classMethodCallback [info, .number (.ofInt x.2)])
    rw [← setMethods_cons] at hrest
    rw [List.reverse_cons, List.find?_append]
    cases hfind : ms.reverse.find? (·.1.name == name) with
    | some y =>
      rw [hfind] at hrest
      simpa using hrest
    | none =>
      rw [hfind] at hrest
      simp only at hrest
      by_cases hx : x.1.name = name
      · have hone : List.find? (·.1.name == name) [x] = some x := by simp [hx]
        simp only [hone, Option.or_some, Option.getD_none]
        rw [hrest, LuaHeap.setClosure_slot, if_pos ⟨rfl, by rw [hx]⟩]
        have hc : (h.setClosure m x.1.name .classMethodCallback [info, .number (.ofInt x.2)]).IsClosure
          (.function h.next)
            .classMethodCallback [info, .number (.ofInt x.2)] := ⟨h.next, rfl, Nat.lt_succ_self _, by simp⟩
        exact hc.mono setMethods_next fun r hr => setMethods_closure hr
      · have hone : List.find? (·.1.name == name) [x] = none := by simp [hx]
        simp only [hone, Option.or_none]
        rw [hrest, LuaHeap.setClosure_slot, if_neg fun ⟨_, hkey⟩ => hx (LuaValue.string.inj hkey).symm]

end Methods

/-- The references `RegisterUserClass` works with are apart from each other and from
the globals and the registry. -/
structure Apart (h : LuaHeap) (m mt : Nat) : Prop where
  ne : mt ≠ m
  lt : m < h.next ∧ mt < h.next
  ne_globals : m ≠ h.globals ∧ mt ≠ h.globals
  ne_registry : m ≠ h.registry ∧ mt ≠ h.registry
  globals_ne : h.globals ≠ h.registry
  below : h.globals < h.next ∧ h.registry < h.next

theorem newMetatable_apart {name : Bytes} (hp : h.Plain) (ha : h.Accepts name) :
    Apart (h.newTable.newMetatable name) h.next (h.newTable.metatableRef name) := by
  have hg := hp.globals_lt
  have hr := hp.registry_lt
  have hreg : h.registry ≠ h.next := Nat.ne_of_lt hr
  cases ha with
  | unused hn =>
    have hslot : (h.newTable.table h.newTable.registry).slot (.string name) = .nil := by simp [hreg, hn]
    simp only [LuaHeap.metatableRef, LuaHeap.newMetatable, hslot, if_true]
    constructor
    · exact Nat.succ_ne_self _
    · simp only [LuaHeap.setField_next, LuaHeap.newTable_next]
      omega
    · simp only [LuaHeap.setField_globals, LuaHeap.newTable_globals, LuaHeap.newTable_next]
      omega
    · simp only [LuaHeap.setField_registry, LuaHeap.newTable_registry, LuaHeap.newTable_next]
      omega
    · exact hp.globals_ne
    · simp only [LuaHeap.setField_globals, LuaHeap.newTable_globals, LuaHeap.setField_registry,
        LuaHeap.newTable_registry, LuaHeap.setField_next, LuaHeap.newTable_next]
      omega
  | shared r hr' hlt hrg hrr hm =>
    have hslot : (h.newTable.table h.newTable.registry).slot (.string name) = .table r := by simp [hreg, hr']
    have hne : ¬ LuaValue.table r = .nil := by simp
    simp only [LuaHeap.metatableRef, LuaHeap.newMetatable, hslot, if_neg hne]
    constructor
    · exact Nat.ne_of_lt hlt
    · simp only [LuaHeap.newTable_next]
      omega
    · simp only [LuaHeap.newTable_globals]
      omega
    · simp only [LuaHeap.newTable_registry]
      omega
    · exact hp.globals_ne
    · simp only [LuaHeap.newTable_globals, LuaHeap.newTable_registry, LuaHeap.newTable_next]
      omega

section Tables

variable {m mt r : Nat} {k info : LuaValue} {desc : ClassDesc}

@[simp] theorem setDestroy_globals : (h.setDestroy m desc info).globals = h.globals := by
  unfold LuaHeap.setDestroy
  split <;> rfl

@[simp] theorem setDestroy_registry : (h.setDestroy m desc info).registry = h.registry := by
  unfold LuaHeap.setDestroy
  split <;> rfl

@[simp] theorem setDestroy_slot : ((h.setDestroy m desc info).table r).slot k
    = if desc.garbageCollect = false ∧ r = m ∧ k = .string (cstr "Destroy") then .function h.next
      else (h.table r).slot k := by
  cases hg : desc.garbageCollect with
  | true => simp [LuaHeap.setDestroy, hg]
  | false => simp [LuaHeap.setDestroy, hg]

theorem setDestroy_closure (hr : r < h.next) : (h.setDestroy m desc info).closure r = h.closure r := by
  unfold LuaHeap.setDestroy
  split
  · rfl
  · rw [LuaHeap.setClosure_closure, if_neg (Nat.ne_of_lt hr)]

theorem setDestroy_isClosure (hg : desc.garbageCollect = false) :
    (h.setDestroy m desc info).IsClosure (.function h.next) .classDestructorCallback [info] := by
  refine ⟨h.next, rfl, ?_, ?_⟩
  · simp [LuaHeap.setDestroy, hg]
  · simp [LuaHeap.setDestroy, hg]

@[simp] theorem setCall_next : (h.setCall m info).next = h.next + 2 := rfl
@[simp] theorem setCall_globals : (h.setCall m info).globals = h.globals := rfl
@[simp] theorem setCall_registry : (h.setCall m info).registry = h.registry := rfl

@[simp] theorem setCall_slot : ((h.setCall m info).table r).slot k
    = if r = h.next then (if k = .string (cstr "__call") then .function (h.next + 1) else .nil)
      else (h.table r).slot k := by
  by_cases hr : r = h.next
  · simp [LuaHeap.setCall, hr, LuaTable.empty]
  · simp [LuaHeap.setCall, hr]

theorem setCall_closure (hr : r < h.next) : (h.setCall m info).closure r = h.closure r := by
  have hne : r ≠ h.next + 1 := by omega
  simp [LuaHeap.setCall, hne]

theorem setCall_metatable : ((h.setCall m info).table m).metatable = some h.next := by simp [LuaHeap.setCall]

theorem setCall_isClosure : (h.setCall m info).IsClosure (.function (h.next + 1)) .classConstructorCallback [info] :=
  ⟨h.next + 1, rfl, by simp, by simp [LuaHeap.setCall]⟩

@[simp] theorem setObjectMetatable_globals : (h.setObjectMetatable m mt info).globals = h.globals := rfl
@[simp] theorem setObjectMetatable_registry : (h.setObjectMetatable m mt info).registry = h.registry := rfl

theorem setObjectMetatable_other (hr : r ≠ mt) : (h.setObjectMetatable m mt info).table r = h.table r := by
  rw [LuaHeap.setObjectMetatable, LuaHeap.setClosure_other hr, LuaHeap.setClosure_other hr, LuaHeap.setField_other hr,
    LuaHeap.setField_other hr]

end Tables

theorem setObjectMetatable_spec {m mt : Nat} {desc : ClassDesc} :
    (h.setObjectMetatable m mt (.lightuserdata (.classInfo desc))).ObjectMetatable desc m mt where
  index := by simp +decide [LuaHeap.setObjectMetatable]
  hidden := by simp +decide [LuaHeap.setObjectMetatable]
  tostring := by
    refine ⟨h.next, ?_, ?_, ?_⟩
    · simp +decide [LuaHeap.setObjectMetatable]
    · simp
    · simp [LuaHeap.setObjectMetatable]
  gc := by
    refine ⟨h.next + 1, ?_, ?_, ?_⟩
    · simp +decide [LuaHeap.setObjectMetatable]
    · simp
    · simp [LuaHeap.setObjectMetatable]

theorem buildClass_registered {desc : ClassDesc} {m mt : Nat} (hapart : Apart h m mt)
    (hregistry : (h.table h.registry).slot (.string desc.name) = .table mt) (hempty : ∀ k, (h.table m).slot k = .nil) :
    ∃ t, (h.buildClass desc m mt).Registered desc m mt t := by
  let info : LuaValue := .lightuserdata (.classInfo desc)
  have ho : ((h.setField h.globals (.string desc.name) (.table m)).setObjectMetatable m mt info).ObjectMetatable
    desc m mt :=
    setObjectMetatable_spec
  have hother : ∀ r k, r ≠ mt →
      (((h.setField h.globals (.string desc.name) (.table m)).setObjectMetatable m mt info).table r).slot k
        = if r = h.globals ∧ k = .string desc.name then .table m else (h.table r).slot k := by
    intro r k hr
    rw [setObjectMetatable_other hr, LuaHeap.setField_slot]
  generalize hh₄ : (h.setField h.globals (.string desc.name) (.table m)).setObjectMetatable m mt info = h₄ at *
  have hnext₄ : h₄.next = h.next + 2 := by rw [← hh₄]; rfl
  have hglobals₄ : h₄.globals = h.globals := by rw [← hh₄]; rfl
  have hregistry₄ : h₄.registry = h.registry := by rw [← hh₄]; rfl
  -- the rest changes the methods and the new table over them
  generalize hh₅ : h₄.setDestroy m desc info = h₅
  have hnext₅ : h.next + 2 ≤ h₅.next := by
    rw [← hh₅, ← hnext₄]
    exact setDestroy_next
  generalize hfinal : (h₅.setCall m info).setMethods m info desc.methods.zipIdx = h'
  have hbuild : h.buildClass desc m mt = h' := by
    rw [← hfinal, ← hh₅, ← hh₄]
    rfl
  have hnext : h₅.next + 2 ≤ h'.next := by
    rw [← hfinal]
    exact setMethods_next (h := h₅.setCall m info)
  have hclosure : ∀ r, r < h₄.next → h'.closure r = h₄.closure r := by
    intro r hr
    have hr₅ : r < h₅.next := by omega
    rw [← hfinal, setMethods_closure (Nat.lt_add_right 2 hr₅), setCall_closure hr₅, ← hh₅, setDestroy_closure hr]
  have hslot : ∀ r k, r < h.next → r ≠ m → (h'.table r).slot k = (h₄.table r).slot k := by
    intro r k hr hne
    rw [← hfinal, setMethods_table hne, setCall_slot, if_neg (by omega), ← hh₅, setDestroy_slot,
      if_neg fun hx => hne hx.2.1]
  have hglobals : h'.globals = h.globals := by
    rw [← hfinal, setMethods_globals, setCall_globals, ← hh₅, setDestroy_globals, hglobals₄]
  have hreg : h'.registry = h.registry := by
    rw [← hfinal, setMethods_registry, setCall_registry, ← hh₅, setDestroy_registry, hregistry₄]
  obtain ⟨hm, hmt⟩ := hapart.lt
  obtain ⟨hg, hr⟩ := hapart.below
  refine ⟨h₅.next, ?_⟩
  rw [hbuild]
  refine ⟨⟨ho.mono (by omega) hclosure fun k => hslot mt k hmt hapart.ne, ?_, ?_, ?_⟩, ?_, ?_, ?_, ?_, ?_⟩
  · rw [← hfinal, setMethods_metatable, setCall_metatable]
  · have hc : (h₅.setCall m info).IsClosure (.function (h₅.next + 1)) .classConstructorCallback [info] :=
      setCall_isClosure
    rw [← hfinal, setMethods_table (by omega), setCall_slot, if_pos rfl, if_pos rfl]
    exact hc.mono setMethods_next fun r hr => setMethods_closure hr
  · intro name
    have hmember := @setMethods_slot (h₅.setCall m info) m info desc.methods.zipIdx name
    rw [hfinal] at hmember
    unfold ClassDesc.member
    cases hfind : desc.methods.zipIdx.reverse.find? (·.1.name == name) with
    | some x =>
      rw [hfind] at hmember
      exact hmember
    | none =>
      rw [hfind] at hmember
      simp only at hmember ⊢
      have hm₅ : m ≠ h₅.next := by omega
      have hm₄ : (h₄.table m).slot (.string name) = .nil := by
        rw [hother m _ hapart.ne.symm, if_neg fun hx => hapart.ne_globals.1 hx.1, hempty]
      rw [hmember, setCall_slot, if_neg hm₅, ← hh₅, setDestroy_slot]
      by_cases hd : desc.garbageCollect = false ∧ name = cstr "Destroy"
      · have hc : h₅.IsClosure (.function h₄.next) .classDestructorCallback [info] := by
          rw [← hh₅]
          exact setDestroy_isClosure hd.1
        rw [if_pos hd, if_pos ⟨hd.1, rfl, by rw [hd.2]⟩]
        refine hc.mono (by omega) fun r hr => ?_
        rw [← hfinal, setMethods_closure (Nat.lt_add_right 2 hr), setCall_closure hr]
      · rw [if_neg hd, if_neg fun hx => hd ⟨hx.1, LuaValue.string.inj hx.2.2⟩, hm₄]
  · rw [hglobals, hslot _ _ hg hapart.ne_globals.1.symm, hother _ _ hapart.ne_globals.2.symm, if_pos ⟨rfl, rfl⟩]
  · rw [hreg, hslot _ _ hr hapart.ne_registry.1.symm, hother _ _ hapart.ne_registry.2.symm,
      if_neg fun hx => hapart.globals_ne hx.1.symm, hregistry]
  · omega
  · rw [hglobals]
    exact ⟨hapart.ne_globals.1, hapart.ne_globals.2, by omega⟩
  · rw [hreg]
    exact ⟨hapart.ne_registry.1, hapart.ne_registry.2, by omega⟩

/-- A class that is registered from an empty frame is found under its name. -/
theorem registerClass_registered {desc : ClassDesc} (hp : h.Plain) (ha : h.Accepts desc.name) :
    ∃ t, (h.registerClass desc).Registered desc h.next (h.newTable.metatableRef desc.name) t := by
  have hapart := newMetatable_apart hp ha
  refine buildClass_registered hapart (newMetatable_slot (newTable_accepts hp ha)) fun k => ?_
  rw [newMetatable_other (Nat.lt_succ_self _) hapart.ne_registry.1, LuaHeap.newTable_table, if_pos rfl]
  rfl

/-- A registration gives no table a metatable that has none. -/
theorem registerClass_metatable {desc : ClassDesc} {r : Nat} (hr : r < h.next) :
    ((h.registerClass desc).table r).metatable = (h.table r).metatable := by
  let info : LuaValue := .lightuserdata (.classInfo desc)
  have hdestroy : ∀ {h' : LuaHeap} {m : Nat}, ((h'.setDestroy m desc info).table r).metatable =
    (h'.table r).metatable := by
    intro h' m
    unfold LuaHeap.setDestroy
    split
    · rfl
    · exact LuaHeap.setClosure_metatable
  have hcall : ∀ {h' : LuaHeap}, h.next ≤ h'.next →
      ((h'.setCall h.next info).table r).metatable = (h'.table r).metatable := by
    intro h' hle
    have hm : r ≠ h.next := Nat.ne_of_lt hr
    have hn : r ≠ h'.next := Nat.ne_of_lt (Nat.lt_of_lt_of_le hr hle)
    simp [LuaHeap.setCall, hm, hn]
  have hlt : r < h.newTable.next := Nat.lt_succ_of_lt hr
  unfold LuaHeap.registerClass LuaHeap.buildClass
  simp only [setMethods_metatable]
  rw [hcall ?_, hdestroy, setObjectMetatable_metatable, LuaHeap.setField_metatable, newMetatable_metatable hlt,
    LuaHeap.newTable_table, if_neg (Nat.ne_of_lt hr)]
  have hnew : h.newTable.next ≤ (h.newTable.newMetatable desc.name).next := newMetatable_next
  have hnext :=
    @setDestroy_next (((h.newTable.newMetatable desc.name).setField (h.newTable.newMetatable desc.name).globals
    (.string desc.name) (.table h.next)).setObjectMetatable h.next (h.newTable.metatableRef desc.name)
      info) h.next desc info
  simp only [LuaHeap.newTable_next, setObjectMetatable_next, LuaHeap.setField_next] at hnew hnext
  have hle : h.next ≤ (h.newTable.newMetatable desc.name).next + 2 := by omega
  exact Nat.le_trans hle hnext

@[simp] theorem setMethods_userdata {m : Nat} {info : LuaValue} {ms : List (ClassMethodDesc × Nat)} :
    (h.setMethods m info ms).userdata = h.userdata := by
  induction ms generalizing h with
  | nil => rfl
  | cons x ms ih => rw [setMethods_cons, ih, LuaHeap.setClosure_userdata]

/-- A registration makes no userdata. -/
theorem registerClass_userdata {desc : ClassDesc} : (h.registerClass desc).userdata = h.userdata := by
  have hdestroy : ∀ {h' : LuaHeap} {m : Nat} {info : LuaValue}, (h'.setDestroy m desc info).userdata = h'.userdata := by
    intro h' m info
    unfold LuaHeap.setDestroy
    split <;> rfl
  have hnew : ∀ {h' : LuaHeap} {name : Bytes}, (h'.newMetatable name).userdata = h'.userdata := by
    intro h' name
    unfold LuaHeap.newMetatable
    split <;> rfl
  unfold LuaHeap.registerClass LuaHeap.buildClass LuaHeap.setCall
  simp only [setMethods_userdata, LuaHeap.setMeta_userdata, LuaHeap.setClosure_userdata, LuaHeap.newTable_userdata,
    hdestroy]
  exact hnew

theorem registerClass_next {desc : ClassDesc} : h.next ≤ (h.registerClass desc).next := by
  have hnew : h.newTable.next ≤ (h.newTable.newMetatable desc.name).next := newMetatable_next
  unfold LuaHeap.registerClass LuaHeap.buildClass
  refine Nat.le_trans ?_ setMethods_next
  rw [setCall_next]
  refine Nat.le_trans (Nat.le_trans (Nat.le_succ _) hnew) (Nat.le_trans ?_ (Nat.le_add_right _ 2))
  refine Nat.le_trans ?_ setDestroy_next
  exact Nat.le_add_right _ 2

/-! ## A class stays what it is -/

section Kept

variable {h' : LuaHeap} {names : List Bytes} {desc : ClassDesc} {m mt t : Nat}

theorem LuaHeap.ClassAt.mono (hc : h.ClassAt desc m mt t) (hn : h.next ≤ h'.next)
    (hcl : ∀ r, r < h.next → h'.closure r = h.closure r) (hm : h'.table m = h.table m) (hmt : h'.table mt = h.table mt)
    (ht : h'.table t = h.table t) : h'.ClassAt desc m mt t where
  toObjectMetatable := hc.toObjectMetatable.mono hn hcl fun k => by rw [hmt]
  metatable := by
    rw [hm]
    exact hc.metatable
  call := by
    rw [ht]
    exact hc.call.mono hn hcl
  member name := by
    have hmem := hc.member name
    rw [hm]
    cases hd : ClassDesc.member desc name with
    | some x =>
      rw [hd] at hmem
      exact LuaHeap.IsClosure.mono hmem hn hcl
    | none =>
      rw [hd] at hmem
      exact hmem

theorem LuaHeap.Registered.keeps (hr : h.Registered desc m mt t) (hk : h.Keeps names h') (hname : desc.name ∉ names)
    (hp : h.Plain) : h'.Registered desc m mt t := by
  have htable : ∀ r, r < h.next → r ≠ h.globals → r ≠ h.registry → h'.table r = h.table r := hk.table
  obtain ⟨hm, hmt, ht⟩ := hr.lt
  obtain ⟨hmg, hmtg, htg⟩ := hr.ne_globals
  obtain ⟨hmr, hmtr, htr⟩ := hr.ne_registry
  have hnext := hk.next
  refine ⟨hr.tables.mono hk.next hk.closure (htable m hm hmg hmr) (htable mt hmt hmtg hmtr) (htable t ht htg htr),
    ?_, ?_, ⟨?_, ?_, ?_⟩, ?_, ?_⟩
  · rw [hk.globals, hk.slot_name hp.globals_lt hname]
    exact hr.global
  · rw [hk.registry, hk.slot_name hp.registry_lt hname]
    exact hr.registry
  · omega
  · omega
  · omega
  · rw [hk.globals]
    exact hr.ne_globals
  · rw [hk.registry]
    exact hr.ne_registry

theorem LuaHeap.Plain.keeps (hp : h.Plain) (hk : h.Keeps names h') : h'.Plain := by
  have hnext := hk.next
  have hg := hp.globals_lt
  have hr := hp.registry_lt
  constructor
  · rw [hk.globals]
    omega
  · rw [hk.registry]
    omega
  · rw [hk.globals, hk.registry]
    exact hp.globals_ne
  · rw [hk.globals, hk.metatable _ hg]
    exact hp.globals_meta
  · rw [hk.registry, hk.metatable _ hr]
    exact hp.registry_meta

end Kept

end MultiScript.Lua
