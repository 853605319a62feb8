/-
Registration at base level. A registration binds one name, leaves everything else
as it was, and answers true; so a sequence of them with different names binds each
name to what was registered under it. `Registrar.run_bound` is that argument for
any backend, over what one registration does.
-/
import MultiScript.Lua.Registration
import MultiScript.Squirrel.Registration
import MultiScript.GameMonkey.Registration

namespace MultiScript

open Run

/-- A call of `RegisterFunction` or `RegisterUserClass`. -/
inductive Registration
  | function (desc : FunctionDesc)
  | userClass (desc : ClassDesc)
deriving DecidableEq, Repr

namespace Registration

def name : Registration → Bytes
  | .function desc => desc.name
  | .userClass desc => desc.name

/-- `RegisterUserClass` asserts that a class has a constructor and a destructor. -/
def Complete : Registration → Prop
  | .function _ => True
  | .userClass desc => desc.constructor.isSome = true ∧ desc.destructor.isSome = true

instance : DecidablePred Complete
  | .function _ => inferInstanceAs (Decidable True)
  | .userClass _ => inferInstanceAs (Decidable (_ ∧ _))

def class? : Registration → Option ClassDesc
  | .function _ => none
  | .userClass desc => some desc

end Registration

/-- What registration is on a backend with contexts `C`: the two calls, what is bound
to a name, what a change leaves as it was but for some names, and the contexts at base
level that do not have a name yet. -/
structure Registrar (C : Type) where
  register : Registration → C → Except Fault (Bool × C)
  findClassInfo : C → ClassDesc → Option ClassDesc
  classes : C → List ClassDesc
  Bound : C → Registration → Prop
  Keeps : C → List Bytes → C → Prop
  Unused : C → Bytes → Prop
  Base : C → Prop
  find_classes : ∀ c desc, findClassInfo c desc = (classes c).find? (·.addr == desc.addr)
  keeps_refl : ∀ c, Keeps c [] c
  keeps_trans : ∀ {c c' c'' names names'}, Keeps c names c' → Keeps c' names' c'' → Keeps c (names ++ names') c''
  bound_keeps : ∀ {c c' names r}, Base c → Bound c r → Keeps c names c' → r.name ∉ names → Bound c' r
  unused_keeps : ∀ {c c' names name}, Base c → Unused c name → Keeps c names c' → name ∉ names → Unused c' name
  register_ok : ∀ {c} (r : Registration), Base c → Unused c r.name → r.Complete →
    ∃ c', register r c = .ok (true, c') ∧ Keeps c [r.name] c' ∧ Bound c' r ∧ Base c' ∧
      classes c' = classes c ++ r.class?.toList

namespace Registrar

variable {C : Type} (R : Registrar C)

def machine : Machine C Registration Bool Fault := ⟨R.register⟩

/-- The context `c` has what `rs` registered, one after the other. -/
structure Has (c : C) (rs : List Registration) : Prop where
  bound : ∀ r ∈ rs, R.Bound c r
  classes : R.classes c = rs.filterMap Registration.class?

variable {R}

/-- A sequence of registrations. -/
theorem run_bound : ∀ {rs done : List Registration} {c : C}, R.Base c → R.Has c done →
    (∀ r ∈ rs, R.Unused c r.name ∧ r.Complete) → ((done ++ rs).map Registration.name).Nodup →
    ∃ c', R.machine.run rs c = .ok (rs.map fun _ => true, c') ∧ R.Base c' ∧ R.Has c' (done ++ rs) ∧
      R.Keeps c (rs.map Registration.name) c'
  | [], done, c, hb, hh, _, _ => ⟨c, rfl, hb, by rwa [List.append_nil], R.keeps_refl c⟩
  | r :: rs, done, c, hb, hh, hu, hn => by
    obtain ⟨c₁, hr, hk, hbound, hb₁, hc⟩ := R.register_ok r hb (hu r List.mem_cons_self).1 (hu r List.mem_cons_self).2
    have hsplit : done ++ r :: rs = done ++ [r] ++ rs := by simp
    rw [hsplit] at hn
    -- names that are different from `r`'s stay what they were
    have hother : ∀ x, x ∈ done ∨ x ∈ rs → x.name ∉ [r.name] := by
      intro x hx he
      rw [List.map_append, List.map_append] at hn
      obtain ⟨hn₁, -, hd₂⟩ := List.nodup_append.mp hn
      obtain ⟨-, -, hd₁⟩ := List.nodup_append.mp hn₁
      have he' := List.mem_singleton.mp he
      rcases hx with hx | hx
      · exact hd₁ _ (List.mem_map_of_mem hx) _ (List.mem_singleton_self _) he'
      · exact hd₂ r.name (List.mem_append_right _ (List.mem_singleton_self _)) _ (List.mem_map_of_mem hx) he'.symm
    have hh₁ : R.Has c₁ (done ++ [r]) := by
      constructor
      · intro x hx
        rcases List.mem_append.mp hx with hx | hx
        · exact R.bound_keeps hb (hh.bound x hx) hk (hother x (.inl hx))
        · rwa [List.mem_singleton.mp hx]
      · rw [hc, hh.classes, List.filterMap_append]
        cases r <;> rfl
    have hu₁ : ∀ x ∈ rs, R.Unused c₁ x.name ∧ x.Complete := fun x hx =>
      ⟨R.unused_keeps hb (hu x (List.mem_cons_of_mem _ hx)).1 hk (hother x (.inr hx)),
        (hu x (List.mem_cons_of_mem _ hx)).2⟩
    obtain ⟨c', hrun, hb', hh', hk'⟩ := run_bound hb₁ hh₁ hu₁ hn
    refine ⟨c', ?_, hb', by rwa [hsplit], R.keeps_trans hk hk'⟩
    rw [Machine.run_cons _ _ hr, hrun]
    rfl

/-- `FindClassInfo` finds what was registered, for a descriptor that shares its address
with no other. -/
theorem Has.find {c : C} {rs : List Registration} {desc : ClassDesc} (hh : R.Has c rs)
    (haddr : ∀ d, .userClass d ∈ rs → d.addr = desc.addr → d = desc) :
    R.findClassInfo c desc = if .userClass desc ∈ rs then some desc else none := by
  have hmem : ∀ d, d ∈ rs.filterMap Registration.class? ↔ .userClass d ∈ rs := by
    intro d
    rw [List.mem_filterMap]
    constructor
    · rintro ⟨r, hr, hd⟩
      cases r with
      | function _ => cases hd
      | userClass d' =>
        cases hd
        exact hr
    · exact fun hr => ⟨_, hr, rfl⟩
  rw [R.find_classes, hh.classes]
  cases hfind : (rs.filterMap Registration.class?).find? (·.addr == desc.addr) with
  | some d =>
    have hd : .userClass d ∈ rs := (hmem d).mp (List.mem_of_find?_eq_some hfind)
    have ha : d.addr = desc.addr := by simpa using List.find?_some hfind
    obtain rfl : d = desc := haddr d hd ha
    rw [if_pos hd]
  | none =>
    rw [List.find?_eq_none] at hfind
    rw [if_neg fun hd => hfind desc ((hmem desc).mpr hd) (by simp)]

/-- The registrations `rs` on `c` all answer true. However they are split, what the
first ones bind stays bound, and so does everything else but for the names that come
after; in the end everything is bound, and `FindClassInfo` finds what was registered
and nothing else, for a descriptor that shares its address with no other. -/
def Composes (R : Registrar C) (c : C) (rs : List Registration) : Prop :=
  ∀ done rest, rs = done ++ rest → ∃ c₁ c₂,
    R.machine.run done c = .ok (done.map fun _ => true, c₁) ∧
    R.machine.run rest c₁ = .ok (rest.map fun _ => true, c₂) ∧
    (∀ r ∈ done, R.Bound c₁ r) ∧ R.Keeps c₁ (rest.map Registration.name) c₂ ∧
    (∀ r ∈ rs, R.Bound c₂ r) ∧ R.Keeps c (rs.map Registration.name) c₂ ∧
    ∀ desc, (∀ d, .userClass d ∈ rs → d.addr = desc.addr → d = desc) →
      R.findClassInfo c₂ desc = if .userClass desc ∈ rs then some desc else none

theorem composes {c : C} {rs : List Registration} (hb : R.Base c) (hclasses : R.classes c = [])
    (hu : ∀ r ∈ rs, R.Unused c r.name ∧ r.Complete) (hn : (rs.map Registration.name).Nodup) : R.Composes c rs := by
  rintro done rest rfl
  rw [List.map_append] at hn
  obtain ⟨hn₁, -, hd⟩ := List.nodup_append.mp hn
  have hempty : R.Has c [] := ⟨fun _ hr => absurd hr List.not_mem_nil, hclasses⟩
  obtain ⟨c₁, hrun₁, hb₁, hh₁, hk₁⟩ := run_bound hb hempty (fun r hr => hu r (List.mem_append_left _ hr)) hn₁
  have hu₁ : ∀ r ∈ rest, R.Unused c₁ r.name ∧ r.Complete := by
    intro r hr
    obtain ⟨hunused, hcomplete⟩ := hu r (List.mem_append_right _ hr)
    exact ⟨R.unused_keeps hb hunused hk₁ fun hm => hd _ hm _ (List.mem_map_of_mem hr) rfl, hcomplete⟩
  rw [← List.map_append] at hn
  obtain ⟨c₂, hrun₂, hb₂, hh₂, hk₂⟩ := run_bound hb₁ hh₁ hu₁ hn
  refine ⟨c₁, c₂, hrun₁, hrun₂, hh₁.bound, hk₂, hh₂.bound, ?_, fun desc haddr => hh₂.find haddr⟩
  rw [List.map_append]
  exact R.keeps_trans hk₁ hk₂

end Registrar

/-! ## The backends -/

namespace Lua

/-- What a registration is found as: a closure over the descriptor of a function, or
the tables of a class. -/
def Bound (h : LuaHeap) : Registration → Prop
  | .function desc => h.IsClosure ((h.table h.globals).slot (.string desc.name)) .functionCallback
      [.lightuserdata (.functionInfo desc)]
  | .userClass desc => ∃ m mt t, h.Registered desc m mt t

/-- A class needs its name in the registry too. -/
def Unused (h : LuaHeap) (name : Bytes) : Prop :=
  (h.table h.globals).slot (.string name) = .nil ∧ (h.table h.registry).slot (.string name) = .nil

structure Kept (c : LuaScriptContext) (names : List Bytes) (c' : LuaScriptContext) : Prop where
  func : c'.func = c.func
  slots : c'.slots = c.slots
  heap : c.world.heap.Keeps names c'.world.heap

def register (vm : LuaVm) : Registration → LuaM Bool
  | .function desc => registerFunction vm desc
  | .userClass desc => registerUserClass vm desc

theorem register_ok {vm : LuaVm} {c : LuaScriptContext} (r : Registration)
    (hb : c.slots = [] ∧ c.world.heap.Plain) (hu : Unused c.world.heap r.name) (hc : r.Complete) :
    ∃ c', register vm r c = .ok (true, c') ∧ Kept c [r.name] c' ∧ Bound c'.world.heap r ∧
      (c'.slots = [] ∧ c'.world.heap.Plain) ∧ c'.world.classes = c.world.classes ++ r.class?.toList := by
  obtain ⟨hs, hp⟩ := hb
  cases r with
  | function desc =>
    have hk := registerFunction_keeps c.world.heap desc
    refine ⟨_, registerFunction_ok hp, ⟨rfl, rfl, hk⟩, ⟨c.world.heap.next, ?_, Nat.lt_succ_self _, ?_⟩,
      ⟨hs, hp.keeps hk⟩,
      (List.append_nil _).symm⟩
    · simp [LuaHeap.registerFunction, LuaHeap.newClosure]
    · simp [LuaHeap.registerFunction, LuaHeap.newClosure]
  | userClass desc =>
    have hk := registerClass_keeps hu.2 hp.registry_lt
    obtain ⟨t, hr⟩ := registerClass_registered hp (.unused hu.2)
    exact ⟨_, registerUserClass_ok hs hp (.unused hu.2) hc.1 hc.2, ⟨rfl, rfl, hk⟩, ⟨_, _, t, hr⟩,
      ⟨hs, hp.keeps hk⟩, rfl⟩

theorem Bound.keeps {h h' : LuaHeap} {names : List Bytes} {r : Registration} (hp : h.Plain) (hb : Bound h r)
    (hk : h.Keeps names h') (hn : r.name ∉ names) : Bound h' r := by
  cases r with
  | function desc =>
    have hname : desc.name ∉ names := hn
    simp only [Bound, hk.globals, hk.slot_name hp.globals_lt hname]
    exact LuaHeap.IsClosure.mono hb hk.next hk.closure
  | userClass desc =>
    obtain ⟨m, mt, t, hr⟩ := hb
    exact ⟨m, mt, t, hr.keeps hk hn hp⟩

theorem Unused.keeps {h h' : LuaHeap} {names : List Bytes} {name : Bytes} (hp : h.Plain) (hu : Unused h name)
    (hk : h.Keeps names h') (hn : name ∉ names) : Unused h' name := by
  constructor
  · rw [hk.globals, hk.slot_name hp.globals_lt hn, hu.1]
  · rw [hk.registry, hk.slot_name hp.registry_lt hn, hu.2]

/-- Registration in Lua. -/
def registrar (vm : LuaVm) : Registrar LuaScriptContext where
  register := register vm
  findClassInfo c := findClassInfo c.world
  classes c := c.world.classes
  Bound c := Bound c.world.heap
  Keeps := Kept
  Unused c := Unused c.world.heap
  Base c := c.slots = [] ∧ c.world.heap.Plain
  find_classes _ _ := rfl
  keeps_refl _ := ⟨rfl, rfl, .refl _ _⟩
  keeps_trans h₁ h₂ := ⟨h₂.func.trans h₁.func, h₂.slots.trans h₁.slots, h₁.heap.trans h₂.heap⟩
  bound_keeps hb h hk hn := h.keeps hb.2 hk.heap hn
  unused_keeps hb h hk hn := h.keeps hb.2 hk.heap hn
  register_ok := register_ok

end Lua

namespace Squirrel

/-- What a registration is found as: a closure over the descriptor of a function, or
the class. -/
def Bound (h : SqHeap) : Registration → Prop
  | .function desc => h.IsNative (h.slot h.roottable (.string desc.name)) .functionCallback
      [.userpointer (.functionInfo desc)]
  | .userClass desc => ∃ r, h.Registered desc r

structure Kept (c : SquirrelScriptContext) (names : List Bytes) (c' : SquirrelScriptContext) : Prop where
  stack : c'.stack = c.stack
  stackbase : c'.stackbase = c.stackbase
  heap : c.world.heap.Keeps names c'.world.heap

def register : Registration → SqM Bool
  | .function desc => registerFunction desc
  | .userClass desc => registerUserClass desc

/-- The root table alone is on the stack. -/
structure Base (c : SquirrelScriptContext) : Prop where
  stack : c.stack = [.table c.world.heap.roottable]
  root : c.world.heap.roottable < c.world.heap.next

theorem Base.keeps {c c' : SquirrelScriptContext} {names : List Bytes} (hb : Base c) (hk : Kept c names c') :
    Base c' where
  stack := by rw [hk.stack, hb.stack, hk.heap.roottable]
  root := by
    rw [hk.heap.roottable]
    exact Nat.lt_of_lt_of_le hb.root hk.heap.next

theorem register_ok {c : SquirrelScriptContext} (r : Registration) (hb : Base c) (hc : r.Complete) :
    ∃ c', register r c = .ok (true, c') ∧ Kept c [r.name] c' ∧ Bound c'.world.heap r ∧ Base c' ∧
      c'.world.classes = c.world.classes ++ r.class?.toList := by
  cases r with
  | function desc =>
    have hk : Kept c [desc.name] { c with world := { c.world with
        heap := c.world.heap.registerFunction desc, functions := c.world.functions ++ [desc] } } :=
      ⟨rfl, rfl, registerFunction_keeps c.world.heap desc⟩
    refine ⟨_, registerFunction_ok, hk, ⟨c.world.heap.next, ?_, Nat.lt_succ_self _, ?_⟩, hb.keeps hk,
      (List.append_nil _).symm⟩
    · simp [SqHeap.registerFunction, SqHeap.setSlot, SqHeap.newNative]
    · simp [SqHeap.registerFunction, SqHeap.setSlot, SqHeap.newNative]
  | userClass desc =>
    have hk := registerClass_keeps c.world.heap desc
    refine ⟨_, registerUserClass_table hc.1 hc.2 hb.stack, ⟨rfl, rfl, hk⟩,
      ⟨_, registerClass_registered desc hb.root⟩, hb.keeps ⟨rfl, rfl, hk⟩, rfl⟩

theorem Bound.keeps {h h' : SqHeap} {names : List Bytes} {r : Registration} (hroot : h.roottable < h.next)
    (hb : Bound h r) (hk : h.Keeps names h') (hn : r.name ∉ names) : Bound h' r := by
  cases r with
  | function desc =>
    have hname : desc.name ∉ names := hn
    simp only [Bound, hk.roottable, hk.slot_name hroot hname]
    exact SqHeap.IsNative.mono hb hk.next hk.native
  | userClass desc =>
    obtain ⟨r, hr⟩ := hb
    exact ⟨r, hr.keeps hk hn hroot⟩

/-- Registration in Squirrel. -/
def registrar : Registrar SquirrelScriptContext where
  register := register
  findClassInfo c := findClassInfo c.world
  classes c := c.world.classes
  Bound c := Bound c.world.heap
  Keeps := Kept
  Unused c name := c.world.heap.slot c.world.heap.roottable (.string name) = none
  Base := Base
  find_classes _ _ := rfl
  keeps_refl _ := ⟨rfl, rfl, .refl _ _⟩
  keeps_trans h₁ h₂ := ⟨h₂.stack.trans h₁.stack, h₂.stackbase.trans h₁.stackbase, h₁.heap.trans h₂.heap⟩
  bound_keeps hb h hk hn := h.keeps hb.root hk.heap hn
  unused_keeps hb h hk hn := by rw [hk.heap.roottable, hk.heap.slot_name hb.root hn, h]
  register_ok r hb _ hc := register_ok r hb hc

end Squirrel

namespace GameMonkey

/-- What a registration is found as: a function object over the descriptor of a
function, or the constructor and the type of a class. -/
def Bound (w : GmWorld) : Registration → Prop
  | .function desc => w.IsFunction (w.globals desc.name) .functionCallback (.functionInfo desc)
  | .userClass desc => w.Registered desc

structure Kept (c : GMScriptContext) (names : List Bytes) (c' : GMScriptContext) : Prop where
  thread : c'.thread = c.thread
  world : c.world.Keeps names c'.world

def register : Registration → GmM Bool
  | .function desc => registerFunction desc
  | .userClass desc => registerUserClass desc

theorem register_ok {c : GMScriptContext} (r : Registration) (hc : r.Complete) :
    ∃ c', register r c = .ok (true, c') ∧ Kept c [r.name] c' ∧ Bound c'.world r ∧
      c'.world.classes = c.world.classes ++ r.class?.toList := by
  cases r with
  | function desc =>
    have hk := registerFunction_keeps c.world desc
    refine ⟨_, registerFunction_ok, ⟨rfl, ⟨hk.next, hk.types, hk.globals, hk.function, hk.user, hk.typeVariables,
      hk.gmTypeId⟩⟩, ⟨c.world.next, ?_, Nat.lt_succ_self _, ?_⟩, (List.append_nil _).symm⟩
    · simp [GmWorld.registerLibraryFunction]
    · simp [GmWorld.registerLibraryFunction, GmWorld.newFunction]
  | userClass desc =>
    have hk := registerClass_keeps c.world desc
    have hr := registerClass_registered c.world desc
    refine ⟨_, registerUserClass_ok hc.1 hc.2, ⟨rfl, ⟨hk.next, hk.types, hk.globals, hk.function, hk.user,
      hk.typeVariables, hk.gmTypeId⟩⟩, ⟨hr.constructor, hr.type, hr.members⟩, ?_⟩
    obtain ⟨-, -, -, hclasses, -⟩ := @registerTypeLibrary_frame ((c.world.createUserType desc).registerLibraryFunction
      desc.name .classConstructorCallback (.classInfo desc)) c.world.types (gmMethods desc)
    exact congrArg (· ++ [desc]) hclasses

/-- Registration in GameMonkey. -/
def registrar : Registrar GMScriptContext where
  register := register
  findClassInfo c := findClassInfo c.world
  classes c := c.world.classes
  Bound c := Bound c.world
  Keeps := Kept
  Unused c name := c.world.globals name = .null
  Base _ := True
  find_classes _ _ := rfl
  keeps_refl _ := ⟨rfl, .refl _ _⟩
  keeps_trans h₁ h₂ := ⟨h₂.thread.trans h₁.thread, h₁.world.trans h₂.world⟩
  bound_keeps {c c' names r} _ h hk hn := by
    cases r with
    | function desc =>
      have hg := hk.world.globals desc.name hn
      simp only [Bound, hg]
      exact GmWorld.IsFunction.mono h hk.world.next hk.world.function
    | userClass desc => exact GmWorld.Registered.keeps h hk.world hn
  unused_keeps _ h hk hn := by rw [hk.world.globals _ hn, h]
  register_ok r _ _ hc := by
    obtain ⟨c', hr, hk, hb, hcl⟩ := register_ok r hc
    exact ⟨c', hr, hk, hb, trivial, hcl⟩

end GameMonkey

/-- Registrations on a fresh context, with different names that are not used yet,
compose. The stack is then as `CreateContext` left it: empty in Lua, the root table
alone in Squirrel. -/
theorem registrations_compose (rs : List Registration) (hn : (rs.map Registration.name).Nodup)
    (hc : ∀ r ∈ rs, r.Complete) :
    (∀ (vm : Lua.LuaVm) (h : Lua.LuaHeap), h.Plain → (∀ r ∈ rs, Lua.Unused h r.name) →
      (Lua.registrar vm).Composes (Lua.createContext h) rs) ∧
    (∀ h : Squirrel.SqHeap, h.roottable < h.next → (∀ r ∈ rs, h.slot h.roottable (.string r.name) = none) →
      Squirrel.registrar.Composes (Squirrel.createContext h) rs) ∧
    ∀ next globals function, (∀ r ∈ rs, globals r.name = .null) →
      GameMonkey.registrar.Composes (GameMonkey.createContext next globals function) rs := by
  refine ⟨fun vm h hp hu => ?_, fun h hroot hu => ?_, fun next globals function hu => ?_⟩
  · exact Registrar.composes ⟨rfl, hp⟩ rfl (fun r hr => ⟨hu r hr, hc r hr⟩) hn
  · exact Registrar.composes ⟨rfl, hroot⟩ rfl (fun r hr => ⟨hu r hr, hc r hr⟩) hn
  · exact Registrar.composes trivial rfl (fun r hr => ⟨hu r hr, hc r hr⟩) hn

/-- A function, and a class with one method. -/
def sampleRegistrations : List Registration :=
  [.function { addr := 1, name := cstr "MyFunction", function := 100, numParams := 0 },
    .userClass { addr := 2, name := cstr "MyClass", constructor := some 101, destructor := some 102,
                 methods := [{ name := cstr "Print", method := 103 }] }]

theorem registrations_compose_sample :
    (Lua.registrar (.ending (.returned []))).Composes (Lua.createContext (.binding [])) sampleRegistrations ∧
    Squirrel.registrar.Composes (Squirrel.createContext (.binding [])) sampleRegistrations ∧
    GameMonkey.registrar.Composes (GameMonkey.createContext 0 (fun _ => .null) fun _ => .other 0)
      sampleRegistrations := by
  obtain ⟨hlua, hsquirrel, hgm⟩ := registrations_compose sampleRegistrations (by decide) (by decide)
  refine ⟨hlua _ _ ⟨by decide, by decide, by decide, rfl, rfl⟩ fun r _ => ⟨?_, ?_⟩,
    hsquirrel _ (by decide) fun r _ => ?_,
    hgm _ _ _ fun _ _ => rfl⟩
  · simp [Lua.LuaHeap.binding]
  · simp [Lua.LuaHeap.binding]
  · simp [Squirrel.SqHeap.binding]

end MultiScript
