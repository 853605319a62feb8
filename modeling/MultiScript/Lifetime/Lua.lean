/-
Wrappers and userdata. The block of a userdata points to its wrapper from the moment
a constructor returns. A finaliser is the `__gc` of the metatable, and goes by the
class in its own upvalue.
-/
import MultiScript.NewObjects
import MultiScript.Lifetime.Machine

namespace MultiScript.Lua

open Act Lifetime

/-- What a call carries. `stack` is the stack object of the host's own calls; `answer` and
`text` are what the user's method or to-string method answers. -/
structure LuaCall where
  thread : Nat
  function : LuaValue
  args : List LuaValue
  stack : LuaScriptStack
  answer : Bool
  text : Bytes
deriving DecidableEq, Repr

/-- The class in the first upvalue of a closure. -/
def LuaHeap.closureClass (h : LuaHeap) : LuaValue → Option ClassDesc
  | .function r =>
    match h.closure r with
    | .c _ (.lightuserdata (.classInfo desc) :: _) => some desc
    | _ => none
  | _ => none

/-- The finaliser of a userdata, with its class, where it is one of the backend. -/
def LuaHeap.finaliser (h : LuaHeap) (v : Nat) : Option (Nat × ClassDesc) :=
  match (h.userdata v).metatable with
  | none => none
  | some mt =>
    match (h.table mt).slot (.string (cstr "__gc")) with
    | .function r =>
      match h.closure r with
      | .c .classGCCallback [.lightuserdata (.classInfo desc)] => some (r, desc)
      | _ => none
    | _ => none

section Operations

variable {α : Type} (vm : LuaVm)

/-- In the frame of a call. -/
def inFrame (L : Nat) (f : LuaValue) (args : List LuaValue) (m : LuaS α) : LuaS α := fun s =>
  m (s.setFrame L { func := f, slots := args.reverse })

def LuaCall.construct (k : LuaCall) : LuaS (ClassDesc × Nat × Option Nat) :=
  inFrame k.thread k.function k.args do
    let e ← constructorEnter k.thread
    return (e.1, e.2.1, none)

def LuaCall.constructed (k : LuaCall) (desc : ClassDesc) (p : Nat) (st : LuaScriptStack) : LuaS Unit := do
  let _ ← constructorLeave vm k.thread desc p st

def LuaCall.pushNew (k : LuaCall) (desc : ClassDesc) (objectPtr : Option Nat) : LuaS Nat := do
  let r ← k.stack.pushNewScriptObject vm desc objectPtr
  return r.1

def LuaCall.pushObject (k : LuaCall) (p : Nat) : LuaS Unit := do
  let _ ← k.stack.pushScriptObject p

def LuaCall.popObject (k : LuaCall) : LuaS (Option Nat) := do
  let r ← onThread luaView mainThread k.stack.popScriptObject
  return r.1

def LuaCall.method (k : LuaCall) (v : Nat) : LuaS Seen := do
  let r ← callC k.thread k.function (.userdata v :: k.args) do
    let desc ← onThread luaView k.thread upvalueClass
    luaClassMethodCallback vm
      (fun _ p st => do return { seen := ← watch desc p, result := k.answer, stack := st }) k.thread
  return r.1

def LuaCall.toText (k : LuaCall) (v : Nat) : LuaS (Option Seen) := do
  let r ← callC k.thread k.function (.userdata v :: k.args) do
    let desc ← onThread luaView k.thread upvalueClass
    luaClassToStringMethodCallback
      (fun _ p => do return { seen := ← watch desc p, result := k.answer, buffer := k.text })
      k.thread
  return r.1

def LuaCall.destroy (k : LuaCall) (v : Nat) : LuaS Seen :=
  inFrame k.thread k.function (.userdata v :: k.args) do
    let e ← destructorEnter k.thread
    watch e.1 e.2

/-- The finaliser of the userdata in a frame of its own. -/
def LuaCall.finalise (k : LuaCall) (v : Nat) : LuaS (Option (Nat × Option Seen)) := fun s =>
  match s.world.heap.finaliser v with
  | none => .ok (none, s)
  | some (r, _) =>
    inFrame k.thread (.function r) [.userdata v] (do
      let e ← gcEnter k.thread
      match e.2 with
      | none => return some (e.1, none)
      | some desc => return some (e.1, some (← watch desc e.1))) s

end Operations

/-- The value is a closure of the backend. -/
def LuaHeap.Is (h : LuaHeap) (v : LuaValue) (f : LuaCFunction) (upvalues : List LuaValue) : Prop :=
  ∃ r, v = .function r ∧ h.closure r = .c f upvalues

/-- The operations that scripts and hosts can make: closures are what registration has made
of them, and the tables that a registration works on have no metamethods. -/
def luaFits : Op LuaFrame LuaWorld LuaCall LuaScriptStack → LuaState → Prop
  | .construct k, s => ∃ desc, s.world.heap.Is k.function .classConstructorCallback [.lightuserdata (.classInfo desc)]
  | .ret _, s => (s.world.heap.table s.world.heap.registry).metatable = none
  | .pushNew _ desc _, s => (s.world.heap.table s.world.heap.registry).metatable = none ∧
      (findClassInfo s.world desc = none → s.world.heap.Plain ∧ s.world.heap.Accepts desc.name)
  | .popObject _, s => ∀ p, (s.context luaView mainThread).at (-1) ≠ .lightuserdata p
  | .method k _, s => ∃ desc i, s.world.heap.Is k.function .classMethodCallback
      [.lightuserdata (.classInfo desc), .number (.ofInt (i : Nat))] ∧ i < desc.methods.length ∧ IsInt32 i
  | .text k _, s => ∃ desc, s.world.heap.Is k.function .classToStringMethodCallback [.lightuserdata (.classInfo desc)]
  | .destroy k _, s => ∃ desc, s.world.heap.Is k.function .classDestructorCallback [.lightuserdata (.classInfo desc)]
  | _, _ => True

def luaWrappers (vm : LuaVm) : Backend LuaFrame LuaWorld LuaCall LuaScriptStack where
  bound w v := (w.heap.userdata v).block
  next w := w.heap.next
  early := false
  tagged := false
  thread k := k.thread
  restore caller _ := caller
  construct k := k.construct
  constructed k := k.constructed vm
  pushNew k := k.pushNew vm
  pushObject k := k.pushObject
  popObject k := k.popObject
  method k := k.method vm
  text k := k.toText
  destroy k := k.destroy
  finalise k := k.finalise
  binds _ s := some s.world.heap.next
  consults s v := (s.world.heap.finaliser v).map (·.2)
  classOf _ k _ s := s.world.heap.closureClass k.function
  fits := luaFits

/-! ## What the code does -/

open Backend

variable {vm : LuaVm} {s : LuaState} {k : LuaCall} {L r v p : Nat} {desc : ClassDesc} {args : List LuaValue}

theorem LuaHeap.Is.closureClass {h : LuaHeap} {f : LuaValue} {fn : LuaCFunction} {ups : List LuaValue}
    (hf : h.Is f fn (.lightuserdata (.classInfo desc) :: ups)) : h.closureClass f = some desc := by
  obtain ⟨r, rfl, hc⟩ := hf
  simp only [LuaHeap.closureClass, hc]

/-- The frame of a call of the closure `r`. -/
def called (s : LuaState) (L r : Nat) (args : List LuaValue) : LuaState :=
  s.setFrame L { func := .function r, slots := args.reverse }

theorem called_upvalueClass {fn : LuaCFunction} {ups : List LuaValue}
    (hc : s.world.heap.closure r = .c fn (.lightuserdata (.classInfo desc) :: ups)) :
    onThread luaView L upvalueClass (called s L r args) = .ok (desc, called s L r args) := by
  have hf : ((called s L r args).context luaView L).func = .function r := by
    simp [called, VmState.context, luaView]
  exact onThread_reads (upvalueClass_ok hf hc)

theorem ignoreMetatable_ends {c : LuaScriptContext} :
    Ends ignoreMetatable c (fun _ c' => c'.world = c.world) NotWild := by
  unfold Ends
  simp only [ignoreMetatable]
  cases c.at 1 with
  | table t => rfl
  | _ => exact .assertion _

theorem construct_ends (hf : ∃ desc, s.world.heap.Is k.function .classConstructorCallback
    [.lightuserdata (.classInfo desc)]) :
    Ends k.construct s (fun r s' => (luaWrappers vm).Begins s s' r) NotWild := by
  obtain ⟨desc, r, hr, hc⟩ := hf
  unfold LuaCall.construct inFrame
  rw [hr]
  show Ends _ (called s k.thread r k.args) _ _
  have henter : Ends (constructorEnter k.thread) (called s k.thread r k.args)
      (fun e s' => e.1 = desc ∧ e.2.1 = s.objects.next ∧ s'.objects = s.objects.new {} ∧ s'.world = s.world)
        NotWild := by
    unfold constructorEnter
    refine Ends.seq (called_upvalueClass hc) ?_
    refine (onThread_ends ignoreMetatable_ends).bind ?_
    rintro _ _ ⟨c, hw, rfl⟩
    refine Ends.seq rfl ?_
    refine Ends.seq newStack_ok ?_
    exact .pure ⟨rfl, rfl, rfl, hw⟩
  refine henter.bind ?_
  rintro ⟨d, p, st⟩ s' ⟨rfl, rfl, ho, hworld⟩
  refine .pure ⟨rfl, ⟨{}, ⟨rfl, fun h => by cases h⟩, ho⟩, fun _ => .of_eq _ hworld, fun h => by cases h⟩

theorem newUserdata_bound {h : LuaHeap} {mt : Nat} :
    (fun v => ((h.newUserdata p mt).userdata v).block)
      = Function.update (fun v => (h.userdata v).block) h.next (some p) := by
  funext v
  by_cases hv : v = h.next
  · subst hv
    simp [LuaHeap.newUserdata]
  · simp [LuaHeap.newUserdata, hv]

/-- A userdata for a wrapper is the next one. -/
theorem newObjectData_ends {c : LuaScriptContext} {name : Bytes}
    (hm : (c.world.heap.table c.world.heap.registry).metatable = none) :
    Ends (newObjectData vm name p) c (fun _ c' => ∃ mt, c'.world.heap = c.world.heap.newUserdata p mt) NotWild := by
  unfold Ends
  rw [newObjectData_eq hm]
  cases (c.world.heap.table c.world.heap.registry).slot (.string name) with
  | table mt => exact ⟨mt, rfl⟩
  | _ => exact .assertion _

theorem constructed_ends {st : LuaScriptStack} {w : ScriptObject}
    (hm : (s.world.heap.table s.world.heap.registry).metatable = none) (hp : s.objects.get p = some w) :
    Ends (k.constructed vm desc p st) s (fun _ s' => (luaWrappers vm).Binds k p w s s') NotWild := by
  have hleave : Ends (constructorLeave vm k.thread desc p st) s
      (fun _ s' => (luaWrappers vm).Binds k p w s s') NotWild := by
    unfold constructorLeave
    refine Ends.seq (readObject_ok hp) ?_
    refine (vmAssert_ends (.assertion _)).bind ?_
    rintro _ _ ⟨hptr, rfl⟩
    refine (vmAssert_ends (.assertion _)).bind ?_
    rintro _ s ⟨-, rfl⟩
    refine (onThread_ends (newObjectData_ends (c := s.context luaView k.thread) hm)).bind ?_
    rintro _ _ ⟨c, ⟨mt, hheap⟩, rfl⟩
    have hheap' : c.world.heap = s.world.heap.newUserdata p mt := hheap
    refine .pure ⟨hptr, rfl, ?_, ?_, ?_⟩
    · show (fun v => (c.world.heap.userdata v).block) = _
      rw [hheap']
      exact newUserdata_bound
    · show s.world.heap.next ≤ c.world.heap.next
      rw [hheap']
      exact Nat.le_succ _
    · intro v hv
      cases hv
      show s.world.heap.next < c.world.heap.next
      rw [hheap']
      exact Nat.lt_succ_self _
  exact hleave.bind fun _ _ h => .pure h

/-- How a callback fails that finds no wrapper in the block. -/
def unbound : Fault := .assertion "scriptObjectData && *scriptObjectData"

/-- The wrapper of the receiver, and the frame without it. -/
theorem called_popObjectData {E : Fault → Prop} (hunbound : (s.world.heap.userdata v).block = none → E unbound) :
    Ends (onThread luaView L popObjectData) (called s L r (.userdata v :: args))
      (fun p s' => (s.world.heap.userdata v).block = some p ∧ s' = called s L r args) E := by
  have hslots : ((called s L r (.userdata v :: args)).context luaView L).slots = args.reverse ++ [.userdata v] := by
    simp [called, VmState.context, luaView]
  cases hb : (s.world.heap.userdata v).block with
  | none =>
    have herror : popObjectData ((called s L r (.userdata v :: args)).context luaView L)
        = .error (.assertion "scriptObjectData && *scriptObjectData") := by
      simp only [popObjectData, at_bottom hslots]
      rw [show (((called s L r (.userdata v :: args)).context luaView L).world.heap.userdata v).block = none from hb]
    unfold Ends
    rw [onThread_error herror]
    exact hunbound hb
  | some p =>
    refine .of_ok (onThread_ok (popObjectData_ok hslots hb)) ⟨rfl, ?_⟩
    simp [called, VmState.setContext, VmState.setFrame, VmState.context, luaView]

theorem callC_ends {α : Type} {f : LuaValue} {callback : LuaS (α × Nat)} {Q : α → LuaState → Prop} {E : Fault → Prop}
    (h : Ends callback (s.setFrame L { func := f, slots := args.reverse }) (fun r s' => Q r.1 s') E)
    (hQ : ∀ a s' fr, Q a s' → Q a (s'.setFrame L fr)) : Ends (callC L f args callback) s (fun r s' => Q r.1 s') E := by
  unfold Ends at h ⊢
  simp only [callC]
  cases hc : callback (s.setFrame L { func := f, slots := args.reverse }) with
  | error e =>
    rw [hc] at h
    exact h
  | ok x =>
    obtain ⟨⟨a, n⟩, s'⟩ := x
    rw [hc] at h
    exact hQ a s' _ h

/-- A call that leads to a callback of the user and changes nothing. -/
def Watched (vm : LuaVm) (f : Lifetime.Callback) (k : LuaCall) (v : Nat) (s : LuaState) (m : Seen)
    (s' : LuaState) : Prop :=
  (∃ w, (luaWrappers vm).Saw f k v s m w) ∧ s'.objects = s.objects ∧ s'.world = s.world

/-- The user's code is given the wrapper of the receiver. -/
theorem watched {f : Lifetime.Callback} {s' : LuaState} {w : ScriptObject}
    (hb : (s.world.heap.userdata v).block = some p)
    (hp : s.objects.get p = some w) (hd : s.world.heap.closureClass k.function = some desc)
    (ho : s'.objects = s.objects) (hw : s'.world = s.world) :
    Watched vm f k v s { desc, scriptObject := p, objectPtr := w.objectPtr } s' :=
  ⟨⟨w, hb, hp, rfl, hd⟩, ho, hw⟩

theorem methodEnter_ends {i : Nat} {E : Fault → Prop}
    (hc : s.world.heap.closure r = .c .classMethodCallback [.lightuserdata (.classInfo desc), .number (.ofInt i)])
    (hlt : i < desc.methods.length) (hi : IsInt32 i) (hunbound : (s.world.heap.userdata v).block = none → E unbound) :
    Ends (methodEnter vm L) (called s L r (.userdata v :: args))
      (fun e s' => (s.world.heap.userdata v).block = some e.2.1 ∧ s'.objects = s.objects ∧ s'.world = s.world) E := by
  unfold methodEnter
  refine Ends.seq (called_upvalueClass hc) ?_
  have hf : ((called s L r (.userdata v :: args)).context luaView L).func = .function r := by
    simp [called, VmState.context, luaView]
  refine Ends.seq (onThread_reads (upvalueIndex_ok hf hc hi)) ?_
  refine (called_popObjectData hunbound).bind ?_
  rintro p _ ⟨hb, rfl⟩
  refine Ends.seq newStack_ok ?_
  have hcode := @methodCode_ok ((called s L r args).context luaView L) i desc _ (List.getElem?_eq_getElem hlt)
  refine Ends.seq (onThread_reads hcode) ?_
  exact .pure ⟨hb, rfl, rfl⟩

theorem method_ends {E : Fault → Prop} (hf : luaFits (.method k v) s) (ha : (luaWrappers vm).Alive v s)
    (hunbound : (s.world.heap.userdata v).block = none → E unbound)
    (hresult : k.answer = false → E (.assertion "result")) :
    Ends (k.method vm v) s (fun m s' => Watched vm .method k v s m s' ∧ k.answer = true) E := by
  obtain ⟨desc, i, ⟨r, hr, hc⟩, hlt, hi⟩ := hf
  have hclass : s.world.heap.closureClass k.function = some desc := LuaHeap.Is.closureClass ⟨r, hr, hc⟩
  unfold LuaCall.method
  refine Ends.bind (callC_ends (Q := fun m s' => Watched vm .method k v s m s' ∧ k.answer = true) ?_ fun _ _ _ h => h)
    fun _ _ h => .pure h
  rw [hr]
  refine Ends.seq (called_upvalueClass hc) ?_
  unfold luaClassMethodCallback
  refine (methodEnter_ends hc hlt hi hunbound).bind ?_
  rintro ⟨code, p, st⟩ s₁ ⟨hb, ho, hw⟩
  obtain ⟨w, hget⟩ := ha p hb
  have hget₁ : s₁.objects.get p = some w := by rw [ho, hget]
  refine Ends.bind (Q := fun u s' => Watched vm .method k v s u.seen s' ∧ u.result = k.answer)
    (Ends.seq (watch_ok hget₁) (.pure ⟨watched hb hget hclass ho hw, rfl⟩)) ?_
  intro u s' hu
  rw [callbackLeave, hu.2]
  refine (vmAssert_decides hresult).bind ?_
  intro _ s'' hanswer
  obtain ⟨htrue, rfl⟩ := hanswer
  exact .pure ⟨hu.1, htrue⟩

/-- What a to-string call of the class leaves: the user was called exactly if the class has a
to-string method, and has answered true then. -/
def Texted (vm : LuaVm) (desc : ClassDesc) (k : LuaCall) (v : Nat) (s : LuaState) (r : Option Seen)
    (s' : LuaState) : Prop :=
  (∀ m, r = some m → (∃ w, (luaWrappers vm).Saw .text k v s m w) ∧ k.answer = true) ∧
    r.isSome = desc.toStringMethod.isSome ∧ s'.objects = s.objects ∧ s'.world = s.world

theorem toText_ends {E : Fault → Prop}
    (hf : s.world.heap.Is k.function .classToStringMethodCallback [.lightuserdata (.classInfo desc)])
    (ha : (luaWrappers vm).Alive v s) (hunbound : (s.world.heap.userdata v).block = none → E unbound)
    (hresult : desc.toStringMethod.isSome = true → k.answer = false → E (.assertion "result")) :
    Ends (k.toText v) s (Texted vm desc k v s) E := by
  obtain ⟨r, hr, hc⟩ := hf
  have hclass : s.world.heap.closureClass k.function = some desc := LuaHeap.Is.closureClass ⟨r, hr, hc⟩
  unfold LuaCall.toText
  refine Ends.bind (callC_ends (Q := Texted vm desc k v s) ?_ fun _ _ _ h => h) fun _ _ h => .pure h
  rw [hr]
  refine Ends.seq (called_upvalueClass hc) ?_
  unfold luaClassToStringMethodCallback
  have henter : Ends (toStringEnter k.thread) (called s k.thread r (.userdata v :: k.args))
      (fun e s' => e.1 = desc ∧ (s.world.heap.userdata v).block = some e.2 ∧ s'.objects = s.objects ∧
        s'.world = s.world)
      E := by
    unfold toStringEnter
    refine Ends.seq (called_upvalueClass hc) ?_
    refine (called_popObjectData hunbound).bind ?_
    rintro p _ ⟨hb, rfl⟩
    exact .pure ⟨rfl, hb, rfl, rfl⟩
  refine henter.bind ?_
  rintro ⟨d, p⟩ s₁ ⟨rfl, hb, ho, hw⟩
  cases hmethod : d.toStringMethod with
  | none =>
    refine Ends.seq (onThread_ok rfl) ?_
    exact .pure ⟨fun m hm => (by cases hm), by rw [hmethod]; rfl, ho, hw⟩
  | some code =>
    obtain ⟨w, hget⟩ := ha p hb
    have hget₁ : s₁.objects.get p = some w := by rw [ho, hget]
    refine Ends.bind (Q := fun u s' => Watched vm .text k v s u.seen s' ∧ u.result = k.answer)
      (Ends.seq (watch_ok hget₁) (.pure ⟨watched hb hget hclass ho hw, rfl⟩)) ?_
    rintro u s' ⟨⟨hsaw, ho', hw'⟩, hu⟩
    rw [hu]
    refine (vmAssert_decides fun h => hresult (by rw [hmethod]; rfl) h).bind ?_
    intro _ s'' hanswer
    obtain ⟨htrue, rfl⟩ := hanswer
    refine Ends.seq (onThread_ok rfl) ?_
    exact .pure ⟨fun m hm => ⟨(Option.some.inj hm) ▸ hsaw, htrue⟩, by rw [hmethod]; rfl, ho', hw'⟩

theorem destroy_ends {E : Fault → Prop} (hf : luaFits (.destroy k v) s) (ha : (luaWrappers vm).Alive v s)
    (hunbound : (s.world.heap.userdata v).block = none → E unbound) :
    Ends (k.destroy v) s (fun m s' => (∃ w, (luaWrappers vm).Saw .destroy k v s m w ∧
      s'.objects = s.objects.write m.scriptObject { w with lockedByScript := true }) ∧ s'.world = s.world) E := by
  obtain ⟨desc, r, hr, hc⟩ := hf
  have hclass : s.world.heap.closureClass k.function = some desc := LuaHeap.Is.closureClass ⟨r, hr, hc⟩
  unfold LuaCall.destroy inFrame
  rw [hr]
  show Ends _ (called s k.thread r (.userdata v :: k.args)) _ _
  have henter : Ends (destructorEnter k.thread) (called s k.thread r (.userdata v :: k.args))
      (fun e s' => e.1 = desc ∧ (s.world.heap.userdata v).block = some e.2 ∧ s'.world = s.world ∧
        ∃ w, s.objects.get e.2 = some w ∧ s'.objects = s.objects.write e.2 { w with lockedByScript := true })
      E := by
    unfold destructorEnter
    refine Ends.seq (called_upvalueClass hc) ?_
    refine (called_popObjectData hunbound).bind ?_
    rintro p _ ⟨hb, rfl⟩
    obtain ⟨w, hget⟩ := ha p hb
    refine (@lock_ends _ _ _ _ (called s k.thread r k.args) hget E).bind ?_
    rintro _ _ rfl
    exact .pure ⟨rfl, hb, rfl, w, hget, rfl⟩
  refine henter.bind ?_
  rintro ⟨d, p⟩ s₁ ⟨rfl, hb, hw, w, hget, ho⟩
  refine .of_ok (watch_ok (w := { w with lockedByScript := true }) ?_) ⟨⟨w, ⟨hb, hget, rfl, hclass⟩, ho⟩, hw⟩
  rw [ho]
  exact Objects.write_get_self

theorem finaliser_closure {h : LuaHeap} (hf : h.finaliser v = some (r, desc)) :
    h.closure r = .c .classGCCallback [.lightuserdata (.classInfo desc)] := by
  unfold LuaHeap.finaliser at hf
  split at hf
  · cases hf
  · split at hf
    · split at hf
      · rename_i hc
        cases hf
        exact hc
      · cases hf
    · cases hf

/-- How far a finaliser gets before it calls the user. -/
theorem gcEnter_ends {E : Fault → Prop} (hf : s.world.heap.finaliser v = some (r, desc))
    (ha : (luaWrappers vm).Alive v s)
    (hunbound : (s.world.heap.userdata v).block = none → E unbound) :
    Ends (gcEnter L) (called s L r [.userdata v]) (fun e s' => s'.world = s.world ∧ ∃ w,
      (s.world.heap.userdata v).block = some e.1 ∧ s.objects.get e.1 = some w ∧
      ((e.2 = none ∧ (w.objectPtr = none ∨ desc.garbageCollect = false) ∧ s'.objects = without s.objects e.1) ∨
       (e.2 = some desc ∧ w.objectPtr.isSome = true ∧ desc.garbageCollect = true ∧
         s'.objects = s.objects.write e.1 { w with lockedByScript := true }))) E := by
  have hc := finaliser_closure hf
  unfold gcEnter
  refine (called_popObjectData hunbound).bind ?_
  rintro p _ ⟨hb, rfl⟩
  obtain ⟨w, hget⟩ := ha p hb
  refine Ends.seq (readObject_ok hget) ?_
  cases hptr : w.objectPtr with
  | none =>
    refine (@Backend.delete_ends _ _ _ _ (called s L r []) hget E).bind ?_
    rintro _ _ rfl
    exact .pure ⟨rfl, w, hb, hget, .inl ⟨rfl, .inl hptr, rfl⟩⟩
  | some x =>
    refine Ends.seq (called_upvalueClass hc) ?_
    cases hgc : desc.garbageCollect with
    | true =>
      refine (@Backend.lock_ends _ _ _ _ (called s L r []) hget E).bind ?_
      rintro _ _ rfl
      exact .pure ⟨rfl, w, hb, hget, .inr ⟨rfl, by rw [hptr]; rfl, rfl, rfl⟩⟩
    | false =>
      refine (@Backend.delete_ends _ _ _ _ (called s L r []) hget E).bind ?_
      rintro _ _ rfl
      exact .pure ⟨rfl, w, hb, hget, .inl ⟨rfl, .inr rfl, rfl⟩⟩

theorem finalise_ends {E : Fault → Prop} (ha : (luaWrappers vm).Alive v s)
    (hunbound : (s.world.heap.userdata v).block = none → E unbound) :
    Ends (k.finalise v) s (fun r s' => (luaWrappers vm).Finalises v s s' r ∧ s'.world = s.world) E := by
  cases hfin : s.world.heap.finaliser v with
  | none =>
    refine @Ends.of_ok _ _ _ _ s _ _ none s ?_ ⟨.unhooked ?_ rfl, rfl⟩
    · simp only [LuaCall.finalise, hfin]
    · show (s.world.heap.finaliser v).map (·.2) = none
      rw [hfin]
      rfl
  | some rd =>
    obtain ⟨r, desc⟩ := rd
    have hcons : (luaWrappers vm).consults s v = some desc := by
      show (s.world.heap.finaliser v).map (·.2) = some desc
      rw [hfin]
      rfl
    have heq : k.finalise v s = (do
        let e ← gcEnter k.thread
        match e.2 with
        | none => return some (e.1, none)
        | some desc => return some (e.1, some (← watch desc e.1))) (called s k.thread r [.userdata v]) := by
      simp only [LuaCall.finalise, hfin]
      rfl
    refine Ends.of_eq heq ((gcEnter_ends hfin ha hunbound).bind ?_)
    rintro ⟨p, e⟩ s₁ ⟨hw, w, hb, hget, ⟨rfl, hd, ho⟩ | ⟨rfl, hptr, hd, ho⟩⟩
    · exact .pure ⟨.deleted hb hget (hd.imp id fun hd => ⟨_, hcons, hd⟩) ho, hw⟩
    · refine Ends.seq (watch_ok (w := { w with lockedByScript := true }) ?_) ?_
      · rw [ho]
        exact Objects.write_get_self
      · exact .pure ⟨.collects hb hget rfl hcons hd hptr ho, hw⟩

/-- The class of a new object is found, or registered. -/
theorem findOrRegister_ends {c : LuaScriptContext} (hm : (c.world.heap.table c.world.heap.registry).metatable = none)
    (hr : findClassInfo c.world desc = none → c.world.heap.Plain ∧ c.world.heap.Accepts desc.name) :
    Ends (findOrRegister vm desc) c (fun _ c' => c'.world.heap.userdata = c.world.heap.userdata ∧
      c.world.heap.next ≤ c'.world.heap.next ∧
      (c'.world.heap.table c'.world.heap.registry).metatable = none) NotWild := by
  cases hf : findClassInfo c.world desc with
  | some d =>
    have heq : findOrRegister vm desc c = .ok (d, c) := by
      rw [findOrRegister, bind_get, hf]
      rfl
    exact .of_ok heq ⟨rfl, Nat.le_refl _, hm⟩
  | none =>
    obtain ⟨hp, hacc⟩ := hr hf
    refine Ends.of_eq (findOrRegister_unknown hf) ?_
    refine Ends.bind (Q := fun _ c' => c'.world = { c.world with
      heap := c.world.heap.registerClass desc, classes := c.world.classes ++ [desc] }) ?_ ?_
    · have hframe : FrameIs c c.func c.slots := ⟨rfl, rfl⟩
      have hends := @registerUserClass_ends vm c c.func c.slots desc NotWild hframe (fun h => by cases h) (.assertion _)
        (.assertion _) fun _ => .assertion _
      cases hreg : registerUserClass vm desc c with
      | error f =>
        unfold Ends
        rw [hreg]
        exact hends.error hreg
      | ok x =>
        obtain ⟨hctor, hdtor⟩ := registerUserClass_complete hreg
        exact .of_ok (registerUserClass_ok (hends.ok hreg).1 hp hacc hctor hdtor) rfl
    · rintro _ c' hw
      have hfound : findClassInfo c'.world desc = some desc := by
        rw [hw]
        exact findClassInfo_append hf
      have heq : classInfoOf desc c' = .ok (desc, c') := by
        rw [classInfoOf, bind_get, hfound]
        rfl
      refine .of_ok heq ?_
      rw [hw]
      have hregistry : (c.world.heap.registerClass desc).registry = c.world.heap.registry := by
        simp [LuaHeap.registerClass, LuaHeap.buildClass]
      refine ⟨registerClass_userdata, registerClass_next, ?_⟩
      show ((c.world.heap.registerClass desc).table (c.world.heap.registerClass desc).registry).metatable = none
      rw [hregistry, registerClass_metatable hp.registry_lt, hm]

theorem pushNew_ends {objectPtr : Option Nat} (hf : luaFits (.pushNew k desc objectPtr) s) :
    Ends (k.pushNew vm desc objectPtr) s (fun p s' => (luaWrappers vm).MakesNew desc objectPtr s s' p) NotWild := by
  obtain ⟨hm, hr⟩ := hf
  have hpush : Ends (k.stack.pushNewScriptObject vm desc objectPtr) s
      (fun r s' => (luaWrappers vm).MakesNew desc objectPtr s s' r.1) NotWild := by
    unfold LuaScriptStack.pushNewScriptObject
    refine (onThread_ends (findOrRegister_ends (c := s.context luaView mainThread) hm hr)).bind ?_
    rintro info _ ⟨c₁, ⟨huser, hnext, hm₁⟩, rfl⟩
    refine Ends.seq rfl ?_
    refine (onThread_ends (newObjectData_ends (c := VmState.context luaView _ mainThread)
      (p := s.objects.next) ?_)).bind ?_
    · exact hm₁
    rintro _ _ ⟨c₂, ⟨mt, hheap⟩, rfl⟩
    have hheap₂ : c₂.world.heap = c₁.world.heap.newUserdata s.objects.next mt := hheap
    have hnext₂ : c₂.world.heap.next = c₁.world.heap.next + 1 := by rw [hheap₂]; rfl
    refine .pure ⟨rfl, ⟨{ objectPtr }, ⟨rfl, fun h => by cases h⟩, rfl, rfl⟩, ?_, ?_⟩
    · show s.world.heap.next < c₂.world.heap.next
      rw [hnext₂]
      exact Nat.lt_succ_of_le hnext
    · show (fun v => (c₂.world.heap.userdata v).block) = Function.update _ (c₂.world.heap.next - 1) _
      rw [hheap₂, newUserdata_bound, huser]
      rfl
  exact hpush.bind fun _ _ h => .pure h

theorem popObject_ends (hf : luaFits (.popObject k) s) :
    Ends k.popObject s (fun _ s' => s'.objects = s.objects ∧ (luaWrappers vm).SameValues s.world s'.world) NotWild := by
  have hpop : Ends k.stack.popScriptObject (s.context luaView mainThread) (fun _ c => c.world = s.world) NotWild := by
    unfold Ends LuaScriptStack.popScriptObject
    cases hv : (s.context luaView mainThread).at (-1) with
    | userdata u =>
      simp only
      cases (((s.context luaView mainThread).world.heap).userdata u).block with
      | none => exact .assertion _
      | some p =>
        refine Ends.bind (Q := fun _ c => c.world = s.world) ?_ fun _ _ h => .pure h
        unfold Ends luaPop
        by_cases hlen : 1 ≤ (s.context luaView mainThread).slots.length
        · rw [if_pos hlen]
          rfl
        · rw [if_neg hlen]
          exact fun h => by cases h
    | lightuserdata q => exact absurd hv (hf q)
    | _ => exact rfl
  refine (onThread_ends hpop).bind ?_
  rintro _ _ ⟨c, hw, rfl⟩
  exact .pure ⟨rfl, .of_eq _ hw⟩

theorem pushObject_ends : Ends (k.pushObject p) s
    (fun _ s' => s'.objects = s.objects ∧ (luaWrappers vm).SameValues s.world s'.world) NotWild := by
  unfold LuaCall.pushObject LuaScriptStack.pushScriptObject
  exact NotWild.assertion "false"

/-- The Lua backend keeps to the laws of wrappers. -/
theorem luaWrappers_lawful : (luaWrappers vm).Lawful where
  construct k s hf _ := construct_ends hf
  constructed k desc p st s w hf hp := constructed_ends hf hp
  early h := by cases h
  pushNew k desc objectPtr s hf _ := pushNew_ends hf
  pushObject k p s w _ _ := pushObject_ends
  popObject k s hf := popObject_ends hf
  method k v s hf ha := (method_ends hf ha (fun _ => .assertion _) fun _ => .assertion _).mono fun _ _ h => h.1
  text k v s hf ha := by
    obtain ⟨desc, hf⟩ := hf
    refine (toText_ends hf ha (fun _ => .assertion _) fun _ _ => .assertion _).mono fun r s' h => ?_
    exact ⟨fun m hm => (h.1 m hm).1, h.2.2⟩
  destroy k v s hf ha := destroy_ends hf ha fun _ => .assertion _
  finalise k v s _ ha := finalise_ends ha fun _ => .assertion _

end MultiScript.Lua
