/-
What registration does to the heap of a Squirrel context. A class is built on top
of the stack, one member at a time, and then goes into whatever lies under it.
-/
import MultiScript.Squirrel.Context

namespace MultiScript.Squirrel

open Act

/-! ## Changes of the heap -/

namespace SqHeap

def newNative (h : SqHeap) (f : SqFunction) (outervalues : List SqValue) : SqHeap :=
  { h with next := h.next + 1, native := fun r => if r = h.next then .backend f outervalues else h.native r }

def newClass (h : SqHeap) : SqHeap :=
  { h with
    next := h.next + 1
    slot := fun r k => if r = h.next then none else h.slot r k
    classes := fun r => if r = h.next then { base := none, metamethods := fun _ => none, locked := false }
      else h.classes r }

/-- A new closure of the backend as a member of the class `r`. -/
def addMember (h : SqHeap) (r : Nat) (name : Bytes) (f : SqFunction) (outervalues : List SqValue) : SqHeap :=
  (h.newNative f outervalues).newMember r (.string name) (.nativeclosure h.next)

/-- The members of a class, in the order they are added. The outer values are the
other way round than they were pushed. -/
def members (desc : ClassDesc) : List (Bytes × SqFunction × List SqValue) :=
  let info : SqValue := .userpointer (.classInfo desc)
  desc.methods.zipIdx.map (fun x => (x.1.name, .classMethodCallback, [.integer x.2, info])) ++
    [(cstr "constructor", .classConstructorCallback, [info]), (cstr "AsString", .classToStringMethodCallback,
      [info])] ++
    if desc.garbageCollect then [] else [(cstr "Destroy", .classDestructorCallback, [info])]

def addMembers (h : SqHeap) (r : Nat) (ms : List (Bytes × SqFunction × List SqValue)) : SqHeap :=
  ms.foldl (fun h x => h.addMember r x.1 x.2.1 x.2.2) h

/-- The class of a descriptor, which is nowhere yet. -/
def buildClass (h : SqHeap) (desc : ClassDesc) : SqHeap := h.newClass.addMembers h.next (members desc)

def registerFunction (h : SqHeap) (desc : FunctionDesc) : SqHeap :=
  (h.newNative .functionCallback [.userpointer (.functionInfo desc)]).setSlot h.roottable (.string desc.name)
    (.nativeclosure h.next)

end SqHeap

/-! ## The code as changes of the heap -/

variable {vm : SqVm} {c : SquirrelScriptContext} {h : SqHeap} {rest : List SqValue} {r : Nat}

theorem forM_sqPush_ok : ∀ (vs : List SqValue) (c : SquirrelScriptContext),
    vs.forM sqPush c = .ok ((), { c with stack := vs.reverse ++ c.stack })
  | [], _ => rfl
  | v :: vs, c => by
    rw [show (v :: vs).forM sqPush = sqPush v >>= fun _ => vs.forM sqPush from rfl, bind_ok sqPush_ok,
      forM_sqPush_ok vs]
    simp

theorem at_second {v k : SqValue} (hs : c.stack = v :: k :: rest) : c.at (-2) = k := by
  simp [SquirrelScriptContext.at, hs]

theorem at_third {v k t : SqValue} (hs : c.stack = v :: k :: t :: rest) : c.at (-3) = t := by
  simp [SquirrelScriptContext.at, hs]

/-- `sq_createslot` with a string key, by what it goes into. -/
theorem sqCreateslot_ok {v t : SqValue} {s : Bytes} (hs : c.stack = v :: .string s :: t :: rest) :
    sqCreateslot (-3) c = match t with
      | .table r => .ok (true, { c with stack := t :: rest }.setHeap (c.world.heap.setSlot r (.string s) v))
      | .sqclass r => .ok (true, { c with stack := t :: rest }.setHeap (c.world.heap.newMember r (.string s) v))
      | _ => .ok (true, c) := by
  have hkey : ¬ SqValue.string s = .null := by simp
  simp only [sqCreateslot, at_third hs, at_second hs, at_top hs, if_neg hkey, hs]
  cases t <;> rfl

theorem addMember_ok {name : Bytes} {f : SqFunction} {vs : List SqValue} (hs : c.stack = .sqclass r :: rest) :
    addMember name f vs (c.setHeap h) = .ok ((), c.setHeap (h.addMember r name f vs.reverse)) := by
  have hclosure : sqNewclosure f vs.length { c.setHeap h with stack := vs.reverse ++ .string name :: c.stack }
      = .ok ((), { c with stack := .nativeclosure h.next :: .string name :: c.stack }.setHeap
          (h.newNative f vs.reverse)) := by
    simp [sqNewclosure, SqHeap.newNative, SquirrelScriptContext.setHeap]
  have hslot := sqCreateslot_ok (c := { c with stack := .nativeclosure h.next :: .string name :: c.stack }.setHeap
    (h.newNative f vs.reverse)) (by rw [SquirrelScriptContext.setHeap, hs])
  rw [addMember, bind_ok (show sqPushstring name _ = _ from sqPush_ok), bind_ok (forM_sqPush_ok _ _)]
  refine (bind_ok hclosure).trans ((bind_ok hslot).trans ?_)
  rw [← hs]
  rfl

theorem addMethods_ok (info : SqValue) (hs : c.stack = .sqclass r :: rest) :
    ∀ (ms : List (ClassMethodDesc × Nat)) (h : SqHeap),
    (ms.forM fun x => addMember x.1.name .classMethodCallback [info, .integer x.2] : SqM Unit) (c.setHeap h)
      = .ok ((), c.setHeap (h.addMembers r (ms.map fun x => (x.1.name, .classMethodCallback, [.integer x.2, info]))))
  | [], _ => rfl
  | x :: ms, h => by
    have hone : addMember x.1.name .classMethodCallback [info, .integer x.2] (c.setHeap h) = .ok ((), _) :=
      addMember_ok hs
    exact (bind_ok hone).trans (addMethods_ok info hs ms _)

theorem addDestroy_ok {desc : ClassDesc} {info : SqValue} (hs : c.stack = .sqclass r :: rest) :
    addDestroy desc info (c.setHeap h) = .ok ((), c.setHeap (h.addMembers r
      (if desc.garbageCollect then [] else [(cstr "Destroy", .classDestructorCallback, [info])]))) := by
  unfold addDestroy
  cases desc.garbageCollect with
  | true => rfl
  | false => exact addMember_ok hs

/-- `RegisterUserClass`: the class is built over its name, and what is left is to put
it into the value under them. -/
theorem registerUserClass_eq {desc : ClassDesc} (hctor : desc.constructor.isSome = true)
    (hdtor : desc.destructor.isSome = true) :
    registerUserClass desc c = (do
      let _ ← sqCreateslot (-3)
      modify fun c => { c with world := { c.world with classes := c.world.classes ++ [desc] } }
      return true : SqM Bool) ({ c with stack := .sqclass c.world.heap.next :: .string desc.name :: c.stack }.setHeap
        (c.world.heap.buildClass desc)) := by
  generalize hh : c.world.heap = h
  let info : SqValue := .userpointer (.classInfo desc)
  let c₁ : SquirrelScriptContext := { c with stack := .sqclass h.next :: .string desc.name :: c.stack }
  have hs : c₁.stack = .sqclass h.next :: .string desc.name :: c.stack := rfl
  have hclass : sqNewclass { c with stack := .string desc.name :: c.stack } = .ok ((), c₁.setHeap h.newClass) := by
    simp only [sqNewclass, hh]
    rfl
  let methods := desc.methods.zipIdx.map fun x => (x.1.name, SqFunction.classMethodCallback, [.integer x.2, info])
  have hbuild : h.buildClass desc
      = (((h.newClass.addMembers h.next methods).addMember h.next (cstr "constructor") .classConstructorCallback
          [info]).addMember h.next (cstr "AsString") .classToStringMethodCallback [info]).addMembers h.next
        (if desc.garbageCollect then [] else [(cstr "Destroy", .classDestructorCallback, [info])]) := by
    simp only [SqHeap.buildClass, SqHeap.members, SqHeap.addMembers, List.foldl_append, List.foldl_cons, List.foldl_nil,
      methods, info]
  rw [registerUserClass, hctor, hdtor, bind_ok (sqAssert_true _), bind_ok (sqAssert_true _),
    bind_ok (show sqPushstring desc.name c = _ from sqPush_ok), bind_ok hclass]
  refine (bind_ok (addMethods_ok info hs desc.methods.zipIdx h.newClass)).trans ?_
  rw [bind_ok (addMember_ok hs), bind_ok (addMember_ok hs), bind_ok (addDestroy_ok hs)]
  rw [hbuild]
  rfl

/-- On top of a table a class is registered in that table. -/
theorem registerUserClass_table {desc : ClassDesc} (hctor : desc.constructor.isSome = true)
    (hdtor : desc.destructor.isSome = true) (hs : c.stack = .table r :: rest) :
    registerUserClass desc c = .ok (true, { c with world := { c.world with
      heap := (c.world.heap.buildClass desc).setSlot r (.string desc.name) (.sqclass c.world.heap.next)
      classes := c.world.classes ++ [desc] } }) := by
  have hslot :=
    sqCreateslot_ok (c := { c with stack := .sqclass c.world.heap.next :: .string desc.name :: c.stack }.setHeap
    (c.world.heap.buildClass desc)) (by rw [SquirrelScriptContext.setHeap, hs])
  rw [registerUserClass_eq hctor hdtor, bind_ok hslot, ← hs]
  rfl

theorem registerFunction_ok {desc : FunctionDesc} :
    registerFunction desc c = .ok (true, { c with world := { c.world with
      heap := c.world.heap.registerFunction desc, functions := c.world.functions ++ [desc] } }) := by
  let root := SqValue.table c.world.heap.roottable
  let h₁ := c.world.heap.newNative .functionCallback [.userpointer (.functionInfo desc)]
  have hclosure : sqNewclosure .functionCallback 1
      { c with stack := .userpointer (.functionInfo desc) :: .string desc.name :: root :: c.stack }
      = .ok ((), { c with stack := .nativeclosure c.world.heap.next :: .string desc.name :: root :: c.stack }.setHeap
        h₁) := rfl
  have hslot := sqCreateslot_ok (c := { c with
    stack := .nativeclosure c.world.heap.next :: .string desc.name :: root :: c.stack }.setHeap h₁) rfl
  rw [registerFunction, bind_ok (show sqPushroottable c = _ from sqPush_ok),
    bind_ok (show sqPushstring desc.name _ = _ from sqPush_ok),
    bind_ok (show sqPushuserpointer _ _ = _ from sqPush_ok), bind_ok hclosure, bind_ok hslot]
  have hpop : sqPop 1 ({ c with stack := root :: c.stack }.setHeap (c.world.heap.registerFunction desc))
      = .ok ((), c.setHeap (c.world.heap.registerFunction desc)) := sqPop_ok (by simp [SquirrelScriptContext.setHeap])
  exact (bind_ok hpop).trans rfl

/-! ## What is left as it was -/

/-- The heap `h'` has all of `h`, but for what is bound to `names` in the root table. -/
structure SqHeap.Keeps (h : SqHeap) (names : List Bytes) (h' : SqHeap) : Prop where
  next : h.next ≤ h'.next
  roottable : h'.roottable = h.roottable
  native : ∀ r, r < h.next → h'.native r = h.native r
  classes : ∀ r, r < h.next → h'.classes r = h.classes r
  instances : h'.instances = h.instances
  slot : ∀ r k, r < h.next → (r = h.roottable → ∀ name ∈ names, k ≠ .string name) → h'.slot r k = h.slot r k

namespace SqHeap.Keeps

variable {names names' : List Bytes} {h' h'' : SqHeap} {k v : SqValue}

theorem refl (h : SqHeap) (names : List Bytes) : h.Keeps names h :=
  ⟨Nat.le_refl _, rfl, fun _ _ => rfl, fun _ _ => rfl, rfl, fun _ _ _ _ => rfl⟩

theorem trans (h₁ : h.Keeps names h') (h₂ : h'.Keeps names' h'') : h.Keeps (names ++ names') h'' where
  next := Nat.le_trans h₁.next h₂.next
  roottable := h₂.roottable.trans h₁.roottable
  native r hr := (h₂.native r (Nat.lt_of_lt_of_le hr h₁.next)).trans (h₁.native r hr)
  classes r hr := (h₂.classes r (Nat.lt_of_lt_of_le hr h₁.next)).trans (h₁.classes r hr)
  instances := h₂.instances.trans h₁.instances
  slot r k hr hk := by
    rw [h₂.slot r k (Nat.lt_of_lt_of_le hr h₁.next) fun he name hn =>
        hk (he.trans h₁.roottable) name (List.mem_append_right _ hn),
      h₁.slot r k hr fun he name hn => hk he name (List.mem_append_left _ hn)]

/-- What is bound to a name that is not among `names`. -/
theorem slot_name {name : Bytes} (hk : h.Keeps names h') (hr : r < h.next) (hn : name ∉ names) :
    h'.slot r (.string name) = h.slot r (.string name) :=
  hk.slot r _ hr fun _ _ hm he => hn (SqValue.string.inj he ▸ hm)

theorem newNative {f : SqFunction} {vs : List SqValue} (hk : h.Keeps names h') : h.Keeps names (h'.newNative f vs) where
  next := Nat.le_succ_of_le hk.next
  roottable := hk.roottable
  native r hr := by
    have hne : r ≠ h'.next := Nat.ne_of_lt (Nat.lt_of_lt_of_le hr hk.next)
    simp only [SqHeap.newNative, if_neg hne]
    exact hk.native r hr
  classes := hk.classes
  instances := hk.instances
  slot := hk.slot

theorem newClass (hk : h.Keeps names h') : h.Keeps names h'.newClass := by
  have hne : ∀ r, r < h.next → r ≠ h'.next := fun r hr => Nat.ne_of_lt (Nat.lt_of_lt_of_le hr hk.next)
  refine ⟨Nat.le_succ_of_le hk.next, hk.roottable, hk.native, fun r hr => ?_, hk.instances, fun r k hr hn => ?_⟩
  · simp only [SqHeap.newClass, if_neg (hne r hr)]
    exact hk.classes r hr
  · simp only [SqHeap.newClass, if_neg (hne r hr)]
    exact hk.slot r k hr hn

theorem newMember (hk : h.Keeps names h') (hr : h.next ≤ r) : h.Keeps names (h'.newMember r k v) := by
  have hne : ∀ r', r' < h.next → r' ≠ r := fun r' hr' => by omega
  unfold SqHeap.newMember
  split
  · exact hk
  · split
    · refine ⟨hk.next, hk.roottable, hk.native, fun r' hr' => ?_, hk.instances, hk.slot⟩
      simp only [if_neg (hne r' hr')]
      exact hk.classes r' hr'
    · refine ⟨hk.next, hk.roottable, hk.native, hk.classes, hk.instances, fun r' k' hr' hn => ?_⟩
      simp only [SqHeap.setSlot, if_neg fun hx : r' = r ∧ k' = k => hne r' hr' hx.1]
      exact hk.slot r' k' hr' hn

theorem addMembers (hr : h.next ≤ r) : ∀ (ms : List (Bytes × SqFunction × List SqValue)) {h' : SqHeap},
    h.Keeps names h' → h.Keeps names (h'.addMembers r ms)
  | [], _, hk => hk
  | _ :: ms, _, hk => addMembers hr ms (hk.newNative.newMember hr)

/-- A name is bound in the root table. -/
theorem bind {name : Bytes} (hk : h.Keeps names h') (hn : name ∈ names) (hr : r = h.roottable) :
    h.Keeps names (h'.setSlot r (.string name) v) where
  next := hk.next
  roottable := hk.roottable
  native := hk.native
  classes := hk.classes
  instances := hk.instances
  slot r' k hr' hk' := by
    have hne : ¬ (r' = r ∧ k = .string name) := fun hx => hk' (hx.1.trans hr) name hn hx.2
    simp only [SqHeap.setSlot, if_neg hne]
    exact hk.slot r' k hr' hk'

end SqHeap.Keeps

theorem registerFunction_keeps (h : SqHeap) (desc : FunctionDesc) : h.Keeps [desc.name] (h.registerFunction desc) :=
  (SqHeap.Keeps.refl h [desc.name]).newNative.bind (List.mem_singleton_self _) rfl

theorem buildClass_keeps (h : SqHeap) (names : List Bytes) (desc : ClassDesc) : h.Keeps names (h.buildClass desc) :=
  SqHeap.Keeps.addMembers (Nat.le_refl _) _ (SqHeap.Keeps.refl h names).newClass

theorem registerClass_keeps (h : SqHeap) (desc : ClassDesc) :
    h.Keeps [desc.name] ((h.buildClass desc).setSlot h.roottable (.string desc.name) (.sqclass h.next)) :=
  (buildClass_keeps h [desc.name] desc).bind (List.mem_singleton_self _) rfl

/-! ## What a class is -/

/-- A member of a class, or its metamethod. -/
def SqHeap.memberOf (h : SqHeap) (r : Nat) (name : Bytes) : Option SqValue :=
  if name ∈ metamethodNames then (h.classes r).metamethods (.string name) else h.slot r (.string name)

/-- The value is a closure of the backend. -/
def SqHeap.IsNative (h : SqHeap) (v : Option SqValue) (f : SqFunction) (outervalues : List SqValue) : Prop :=
  ∃ r, v = some (.nativeclosure r) ∧ r < h.next ∧ h.native r = .backend f outervalues

/-- What a class has under a name: the member added last. -/
def member (desc : ClassDesc) (name : Bytes) : Option (SqFunction × List SqValue) :=
  ((SqHeap.members desc).reverse.find? (·.1 == name)).map (·.2)

/-- The class of a descriptor, before it is extended or instantiated. -/
structure SqHeap.ClassAt (h : SqHeap) (desc : ClassDesc) (r : Nat) : Prop where
  lt : r < h.next
  base : (h.classes r).base = none
  members : ∀ name, match member desc name with
    | some (f, vs) => h.IsNative (h.memberOf r name) f vs
    | none => h.memberOf r name = none

section Members

variable {name name' : Bytes} {f : SqFunction} {vs : List SqValue} {ms : List (Bytes × SqFunction × List SqValue)}

theorem mem_metamethodNames : SqValue.string name ∈ metamethodNames.map SqValue.string ↔ name ∈ metamethodNames := by
  constructor
  · intro hm
    obtain ⟨n, hn, he⟩ := List.mem_map.mp hm
    exact SqValue.string.inj he ▸ hn
  · exact List.mem_map_of_mem

/-- A new member of a class without instances, where it belongs. -/
theorem newMember_memberOf {n : Nat} (hl : (h.classes r).locked = false) :
    (h.newMember r (.string name) (.nativeclosure n)).memberOf r name'
      = if name' = name then some (.nativeclosure n) else h.memberOf r name' := by
  have hfun : (SqValue.nativeclosure n).isFunction = true := rfl
  have hlock : ¬ (h.classes r).locked = true := by simp [hl]
  by_cases hm : name ∈ metamethodNames
  · have hk : (SqValue.nativeclosure n).isFunction = true ∧ SqValue.string name ∈ metamethodNames.map SqValue.string :=
      ⟨hfun, mem_metamethodNames.mpr hm⟩
    simp only [SqHeap.newMember, if_neg hlock, if_pos hk, SqHeap.memberOf]
    by_cases hn : name' = name
    · subst hn
      simp [hm]
    · simp [hn]
  · have hk : ¬ ((SqValue.nativeclosure n).isFunction = true ∧
        SqValue.string name ∈ metamethodNames.map SqValue.string) := fun hx => hm (mem_metamethodNames.mp hx.2)
    simp only [SqHeap.newMember, if_neg hlock, if_neg hk, SqHeap.memberOf, SqHeap.setSlot]
    by_cases hn : name' = name
    · subst hn
      simp [hm]
    · simp [hn]

theorem addMember_memberOf (hl : (h.classes r).locked = false) : (h.addMember r name f vs).memberOf r name'
    = if name' = name then some (.nativeclosure h.next) else h.memberOf r name' :=
  newMember_memberOf (h := h.newNative f vs) hl

@[simp] theorem newMember_next {k v : SqValue} : (h.newMember r k v).next = h.next := by
  unfold SqHeap.newMember
  split
  · rfl
  · split <;> rfl

@[simp] theorem newMember_native {k v : SqValue} : (h.newMember r k v).native = h.native := by
  unfold SqHeap.newMember
  split
  · rfl
  · split <;> rfl

theorem newMember_class {k v : SqValue} {r' : Nat} : ((h.newMember r k v).classes r').locked = (h.classes r').locked ∧
    ((h.newMember r k v).classes r').base = (h.classes r').base := by
  unfold SqHeap.newMember
  split
  · exact ⟨rfl, rfl⟩
  · split
    · by_cases hr : r' = r
      · subst hr
        simp
      · simp [hr]
    · exact ⟨rfl, rfl⟩

theorem addMembers_cons {x : Bytes × SqFunction × List SqValue} :
    h.addMembers r (x :: ms) = (h.addMember r x.1 x.2.1 x.2.2).addMembers r ms := rfl

theorem addMembers_next : h.next ≤ (h.addMembers r ms).next := by
  induction ms generalizing h with
  | nil => exact Nat.le_refl _
  | cons x ms ih =>
    have hrest := ih (h := h.addMember r x.1 x.2.1 x.2.2)
    rw [SqHeap.addMember, newMember_next] at hrest
    exact Nat.le_trans (Nat.le_succ _) hrest

theorem addMembers_native {n : Nat} (hn : n < h.next) : (h.addMembers r ms).native n = h.native n := by
  induction ms generalizing h with
  | nil => rfl
  | cons x ms ih =>
    have hlt : n < (h.addMember r x.1 x.2.1 x.2.2).next := by
      rw [SqHeap.addMember, newMember_next]
      exact Nat.lt_succ_of_lt hn
    have hrest := ih hlt
    rw [SqHeap.addMember, newMember_native] at hrest
    refine hrest.trans ?_
    simp [SqHeap.newNative, Nat.ne_of_lt hn]

theorem addMembers_class : ((h.addMembers r ms).classes r).locked = (h.classes r).locked ∧
    ((h.addMembers r ms).classes r).base = (h.classes r).base := by
  induction ms generalizing h with
  | nil => exact ⟨rfl, rfl⟩
  | cons x ms ih =>
    obtain ⟨hl, hb⟩ := ih (h := h.addMember r x.1 x.2.1 x.2.2)
    obtain ⟨hl', hb'⟩ := @newMember_class (h.newNative x.2.1 x.2.2) r (.string x.1) (.nativeclosure h.next) r
    exact ⟨hl.trans hl', hb.trans hb'⟩

/-- Of two members with one name the later stays. -/
theorem addMembers_memberOf (hl : (h.classes r).locked = false) :
    match ms.reverse.find? (·.1 == name) with
    | some x => (h.addMembers r ms).IsNative ((h.addMembers r ms).memberOf r name) x.2.1 x.2.2
    | none => (h.addMembers r ms).memberOf r name = h.memberOf r name := by
  induction ms generalizing h with
  | nil => rfl
  | cons x ms ih =>
    have hl₁ : ((h.addMember r x.1 x.2.1 x.2.2).classes r).locked = false := newMember_class.1.trans hl
    have hrest := ih hl₁
    rw [← addMembers_cons] at hrest
    rw [List.reverse_cons, List.find?_append]
    cases hfind : ms.reverse.find? (·.1 == name) with
    | some y =>
      rw [hfind] at hrest
      simpa using hrest
    | none =>
      rw [hfind] at hrest
      simp only at hrest
      by_cases hx : x.1 = name
      · have hone : List.find? (·.1 == name) [x] = some x := by simp [hx]
        simp only [hone, Option.or_some, Option.getD_none]
        have hnative : (h.addMember r x.1 x.2.1 x.2.2).native h.next = .backend x.2.1 x.2.2 := by
          rw [SqHeap.addMember, newMember_native]
          simp [SqHeap.newNative]
        have hlt : h.next < (h.addMember r x.1 x.2.1 x.2.2).next := by
          rw [SqHeap.addMember, newMember_next]
          exact Nat.lt_succ_self _
        refine ⟨h.next, ?_, Nat.lt_of_lt_of_le hlt addMembers_next, (addMembers_native hlt).trans hnative⟩
        exact hrest.trans ((addMember_memberOf hl).trans (if_pos hx.symm))
      · have hone : List.find? (·.1 == name) [x] = none := by simp [hx]
        simp only [hone, Option.or_none]
        exact hrest.trans ((addMember_memberOf hl).trans (if_neg fun he => hx he.symm))

end Members

/-- The class `RegisterUserClass` builds is the class of its descriptor. -/
theorem buildClass_classAt (h : SqHeap) (desc : ClassDesc) : (h.buildClass desc).ClassAt desc h.next where
  lt := Nat.lt_of_lt_of_le (Nat.lt_succ_self _) (addMembers_next (h := h.newClass))
  base := addMembers_class.2.trans (by simp [SqHeap.newClass])
  members name := by
    have hl : (h.newClass.classes h.next).locked = false := by simp [SqHeap.newClass]
    have hm := @addMembers_memberOf h.newClass h.next name (SqHeap.members desc) hl
    have hempty : h.newClass.memberOf h.next name = none := by
      unfold SqHeap.memberOf
      split <;> simp [SqHeap.newClass]
    unfold member
    cases hfind : (SqHeap.members desc).reverse.find? (·.1 == name) with
    | some x =>
      rw [hfind] at hm
      exact hm
    | none =>
      rw [hfind] at hm
      exact hm.trans hempty

/-- A class is found under its name. -/
structure SqHeap.Registered (h : SqHeap) (desc : ClassDesc) (r : Nat) : Prop extends h.ClassAt desc r where
  root : h.slot h.roottable (.string desc.name) = some (.sqclass r)
  ne_root : r ≠ h.roottable

section Kept

variable {h' : SqHeap} {names : List Bytes} {desc : ClassDesc}

theorem SqHeap.IsNative.mono {v : Option SqValue} {f : SqFunction} {vs : List SqValue} (hv : h.IsNative v f vs)
    (hn : h.next ≤ h'.next) (hnative : ∀ r, r < h.next → h'.native r = h.native r) : h'.IsNative v f vs := by
  obtain ⟨n, hv, hlt, hr⟩ := hv
  exact ⟨n, hv, Nat.lt_of_lt_of_le hlt hn, (hnative n hlt).trans hr⟩

theorem SqHeap.ClassAt.keeps (hc : h.ClassAt desc r) (hk : h.Keeps names h') (hr : r ≠ h.roottable) :
    h'.ClassAt desc r where
  lt := Nat.lt_of_lt_of_le hc.lt hk.next
  base := by
    rw [hk.classes r hc.lt]
    exact hc.base
  members name := by
    have hmember : h'.memberOf r name = h.memberOf r name := by
      unfold SqHeap.memberOf
      rw [hk.classes r hc.lt, hk.slot r _ hc.lt fun he => absurd he hr]
    have hmem := hc.members name
    rw [hmember]
    cases hd : member desc name with
    | some x =>
      rw [hd] at hmem
      exact SqHeap.IsNative.mono hmem hk.next hk.native
    | none =>
      rw [hd] at hmem
      exact hmem

theorem SqHeap.Registered.keeps (hr : h.Registered desc r) (hk : h.Keeps names h') (hname : desc.name ∉ names)
    (hroot : h.roottable < h.next) : h'.Registered desc r where
  toClassAt := hr.toClassAt.keeps hk hr.ne_root
  root := by
    rw [hk.roottable, hk.slot_name hroot hname]
    exact hr.root
  ne_root := by
    rw [hk.roottable]
    exact hr.ne_root

/-- A class that is registered on top of the root table is found under its name. -/
theorem registerClass_registered (desc : ClassDesc) (hroot : h.roottable < h.next) :
    ((h.buildClass desc).setSlot h.roottable (.string desc.name) (.sqclass h.next)).Registered desc h.next := by
  have hne : h.next ≠ h.roottable := Nat.ne_of_gt hroot
  have hb := buildClass_keeps h [] desc
  refine ⟨?_, ?_, ?_⟩
  · have hk : (h.buildClass desc).Keeps [desc.name] ((h.buildClass desc).setSlot h.roottable (.string desc.name)
        (.sqclass h.next)) := (SqHeap.Keeps.refl _ _).bind (List.mem_singleton_self _) hb.roottable.symm
    exact (buildClass_classAt h desc).keeps hk (by rwa [hb.roottable])
  · have hr : ((h.buildClass desc).setSlot h.roottable (.string desc.name) (.sqclass h.next)).roottable = h.roottable :=
      hb.roottable
    rw [hr]
    simp [SqHeap.setSlot]
  · exact fun he => hne (he.trans hb.roottable)

end Kept

end MultiScript.Squirrel
