/-
The Lua 5.1 API as the backend uses it (`lapi.c`, `lauxlib.c`): values, the
heap of tables, closures and userdata, and the stack frame the host works in.

The frame is a list, top first, over the slot below its base: `nil` at base
level, the running C function inside a callback. What a script does when it
runs is the vendored VM's business and a parameter (`LuaVm`). All the model
says of it is what `luaD_call` guarantees: it works above the caller's frame,
which it leaves as it was.
-/
import MultiScript.Interface
import MultiScript.Lib.Act

namespace MultiScript.Lua

/-! ## Values -/

/-- `lua_number2integer`: `fistp` to 32 bits, which rounds to the nearest integer
and answers the "integer indefinite" for what does not fit. -/
def luaNumber2integer : FloatValue → Int
  | .dyadic mant scale =>
    let n := roundHalfEven mant scale
    if IsInt32 n then n else -2 ^ 31
  | .infinity _ => -2 ^ 31
  | .nan => -2 ^ 31

theorem luaNumber2integer_ofInt {n : Int} (h : IsInt32 n) : luaNumber2integer (.ofInt n) = n := by
  simp only [luaNumber2integer, FloatValue.ofInt, roundHalfEven_zero, if_pos h]

inductive LuaValue
  | nil
  | boolean (b : Bool)
  | lightuserdata (p : HostPtr)
  | number (n : FloatValue)
  | string (s : Bytes)
  | table (ref : Nat)
  | function (ref : Nat)
  | userdata (ref : Nat)
  | thread (ref : Nat)
deriving DecidableEq, Repr

/-- The C functions the backend hands to Lua. -/
inductive LuaCFunction
  | classConstructorCallback
  | classDestructorCallback
  | classGCCallback
  | classToStringMethodCallback
  | classMethodCallback
  | functionCallback
deriving DecidableEq, Repr

/-- A closure: one of the backend's C functions with its upvalues, or anything
else (a Lua function, a library function). -/
inductive LuaClosure
  | c (f : LuaCFunction) (upvalues : List LuaValue)
  | other (code : Nat)
deriving DecidableEq, Repr

structure LuaTable where
  slot : LuaValue → LuaValue
  metatable : Option Nat

/-- A full userdata. `block` is the pointer its memory block starts with. -/
structure LuaUserdata where
  block : Option Nat
  metatable : Option Nat

/-- `mt` has the metatables that the values of a type share, by the number of the type. -/
structure LuaHeap where
  next : Nat
  table : Nat → LuaTable
  closure : Nat → LuaClosure
  userdata : Nat → LuaUserdata
  globals : Nat
  registry : Nat
  mt : Nat → Option Nat

def LuaTable.empty : LuaTable := { slot := fun _ => .nil, metatable := none }

def LuaTable.set (t : LuaTable) (k v : LuaValue) : LuaTable :=
  { t with slot := fun k' => if k' = k then v else t.slot k' }

def LuaHeap.setTable (h : LuaHeap) (r : Nat) (t : LuaTable) : LuaHeap :=
  { h with table := fun r' => if r' = r then t else h.table r' }

/-- `fasttm`: the metamethod of a table under an event's name, `nil` for none. -/
def LuaHeap.metamethod (h : LuaHeap) (r : Nat) (event : Bytes) : LuaValue :=
  match (h.table r).metatable with
  | none => .nil
  | some m => (h.table m).slot (.string event)

/-! ## The context and the frame -/

/-- All of a context but the frame the host works in: the VM's heap and the
fields of `LuaScriptContext`. The logger is its address, `none` for `NULL`;
`logged` is what has been output to it so far. With them goes what scripts find
outside of the VM. -/
structure LuaWorld where
  heap : LuaHeap
  functions : List FunctionDesc
  classes : List ClassDesc
  logger : Option Nat
  logged : List LogCall
  clib : CLibrary := .initial

/-- `LuaScriptContext` with its `lua_State`: the running frame over the slot of
its function. -/
structure LuaScriptContext where
  func : LuaValue
  slots : List LuaValue
  world : LuaWorld

/-- The status `lua_pcall` answers for a call that raised. -/
inductive LuaError
  | errRun
  | errSyntax
  | errMem
  | errErr
deriving DecidableEq, Repr

inductive LuaOutcome
  | returned (results : List LuaValue)
  | raised (status : LuaError) (message : LuaValue)
deriving DecidableEq, Repr

/-- The vendored VM outside the calls below. `call` is a whole protected call
of a value: it may run any script, and through registered functions any host
code, so it may change everything but the caller's frame, which it does not see.
A script that never finishes has no outcome, and nothing is said of it. `index`
and `newindex` are the metamethod paths of `luaV_gettable` and `luaV_settable`,
`none` and `false` for an error raised there; `LuaVm.looping` has the first. -/
structure LuaVm where
  str2d : Bytes → Option FloatValue
  number2str : FloatValue → Bytes
  load : Bytes → LuaWorld → Option LuaError × LuaValue × LuaWorld
  call : LuaValue → List LuaValue → LuaWorld → LuaOutcome × LuaWorld
  index : LuaValue → LuaValue → LuaWorld → Option LuaValue × LuaWorld
  newindex : LuaValue → LuaValue → LuaValue → LuaWorld → Bool × LuaWorld

abbrev LuaM := StateT LuaScriptContext (Except Fault)

/-- Where an API call finds an operand: a stack index, or a pseudo-index. -/
inductive LuaIndex
  | stack (idx : Int)
  | globals
  | registry
  | upvalue (i : Nat)
deriving DecidableEq, Repr

/-- A stack index as a distance from the top of the frame. -/
def LuaScriptContext.depth (c : LuaScriptContext) (idx : Int) : Nat :=
  if 0 < idx then c.slots.length - idx.toNat else (-idx - 1).toNat

/-- The value at a stack index. A positive one above the top is `nil`; the
negative one just below the frame is the function's slot. -/
def LuaScriptContext.at (c : LuaScriptContext) (idx : Int) : LuaValue :=
  if 0 < idx ∧ c.slots.length < idx then .nil else (c.slots ++ [c.func]).getD (c.depth idx) .nil

/-- The upvalues of the running C function. -/
def LuaScriptContext.upvalues (c : LuaScriptContext) : List LuaValue :=
  match c.func with
  | .function r =>
    match c.world.heap.closure r with
    | .c _ ups => ups
    | .other _ => []
  | _ => []

def index2adr (c : LuaScriptContext) : LuaIndex → LuaValue
  | .stack idx => c.at idx
  | .globals => .table c.world.heap.globals
  | .registry => .table c.world.heap.registry
  | .upvalue i => c.upvalues.getD (i - 1) .nil

variable (vm : LuaVm)

/-! ## Stack manipulation -/

def luaGettop : LuaM Nat := fun c => .ok (c.slots.length, c)

def luaPush (v : LuaValue) : LuaM Unit := fun c => .ok ((), { c with slots := v :: c.slots })

def luaPushinteger (n : Int) : LuaM Unit := luaPush (.number (.ofInt n))

def luaPushstring (s : Bytes) : LuaM Unit := luaPush (.string s)

def luaPushlightuserdata (p : HostPtr) : LuaM Unit := luaPush (.lightuserdata p)

def luaPushvalue (idx : Int) : LuaM Unit := fun c => luaPush (c.at idx) c

def luaPop (n : Nat) : LuaM Unit := fun c =>
  if n ≤ c.slots.length then .ok ((), { c with slots := c.slots.drop n })
  else .error .stackUnderflow

def luaRemove (idx : Int) : LuaM Unit := fun c =>
  .ok ((), { c with slots := c.slots.eraseIdx (c.depth idx) })

/-! ## Objects -/

def LuaScriptContext.setHeap (c : LuaScriptContext) (heap : LuaHeap) : LuaScriptContext :=
  { c with world := { c.world with heap } }

/-- A new closure over the top `n` values, the lowest of them its first upvalue. -/
def luaPushcclosure (f : LuaCFunction) (n : Nat) : LuaM Unit := fun c =>
  let h := c.world.heap
  let cl := LuaClosure.c f (c.slots.take n).reverse
  let c := { c with slots := .function h.next :: c.slots.drop n }
  .ok ((), c.setHeap { h with
    next := h.next + 1
    closure := fun r => if r = h.next then cl else h.closure r })

def luaNewtable : LuaM Unit := fun c =>
  let h := c.world.heap
  let c := { c with slots := .table h.next :: c.slots }
  .ok ((), c.setHeap ({ h with next := h.next + 1 }.setTable h.next .empty))

/-- Pops a table, or `nil`, and makes it the metatable of the value at `idx`.
The types that share one metatable are written nowhere by the backend. -/
def luaSetmetatable (idx : Int) : LuaM Unit := fun c =>
  let h := c.world.heap
  let mt := match c.at (-1) with
    | .table m => some m
    | _ => none
  let h' := match c.at idx with
    | .table r => h.setTable r { h.table r with metatable := mt }
    | .userdata r =>
      { h with userdata := fun r' => if r' = r then { h.userdata r with metatable := mt } else h.userdata r' }
    | _ => h
  .ok ((), { c with slots := c.slots.drop 1 }.setHeap h')

/-! ## Access through metamethods -/

def luaIndexMeta (t k : LuaValue) (w : LuaWorld) : Except Fault (LuaValue × LuaWorld) :=
  match vm.index t k w with
  | (some v, w') => .ok (v, w')
  | (none, _) => .error .scriptError

def luaNewindexMeta (t k v : LuaValue) (w : LuaWorld) : Except Fault LuaWorld :=
  match vm.newindex t k v w with
  | (true, w') => .ok w'
  | (false, _) => .error .scriptError

/-- `luaV_gettable`: a raw get, and the `__index` path where that finds nothing. -/
def luaVGettable (t k : LuaValue) (w : LuaWorld) : Except Fault (LuaValue × LuaWorld) :=
  match t with
  | .table r =>
    let v := (w.heap.table r).slot k
    if v ≠ .nil ∨ w.heap.metamethod r (cstr "__index") = .nil then .ok (v, w) else luaIndexMeta vm t k w
  | _ => luaIndexMeta vm t k w

/-- `luaV_settable`. A raw set refuses `nil` and NaN as a key. -/
def luaVSettable (t k v : LuaValue) (w : LuaWorld) : Except Fault LuaWorld :=
  match t with
  | .table r =>
    if k = .nil ∨ k = .number .nan then .error .scriptError
    else if (w.heap.table r).slot k ≠ .nil ∨ w.heap.metamethod r (cstr "__newindex") = .nil then
      .ok { w with heap := w.heap.setTable r ((w.heap.table r).set k v) }
    else luaNewindexMeta vm t k v w
  | _ => luaNewindexMeta vm t k v w

def luaGetfield (idx : LuaIndex) (k : Bytes) : LuaM Unit := fun c => do
  let (v, world) ← luaVGettable vm (index2adr c idx) (.string k) c.world
  return ((), { c with world, slots := v :: c.slots })

def luaSettable (idx : LuaIndex) : LuaM Unit := fun c => do
  let world ← luaVSettable vm (index2adr c idx) (c.at (-2)) (c.at (-1)) c.world
  luaPop 2 { c with world }

def luaSetfield (idx : LuaIndex) (k : Bytes) : LuaM Unit := fun c => do
  let world ← luaVSettable vm (index2adr c idx) (.string k) (c.at (-1)) c.world
  luaPop 1 { c with world }

/-- `luaL_newmetatable`: what the registry already has under the name stays. -/
def luaLNewmetatable (tname : Bytes) : LuaM Bool := do
  luaGetfield vm .registry tname
  let c ← get
  if c.at (-1) ≠ .nil then return false
  luaPop 1
  luaNewtable
  luaPushvalue (-1)
  luaSetfield vm .registry tname
  return true

/-! ## Conversions -/

def LuaVm.tonumber : LuaValue → Option FloatValue
  | .number n => some n
  | .string s => vm.str2d s
  | _ => none

def LuaValue.isFunction : LuaValue → Bool
  | .function _ => true
  | _ => false

def LuaValue.isUserdata : LuaValue → Bool
  | .userdata _ => true
  | .lightuserdata _ => true
  | _ => false

/-- `lua_tolstring`: a number is converted to a string in its slot; `none` is `NULL`. -/
def luaTolstring (idx : Int) : LuaM (Option Bytes) := fun c =>
  match c.at idx with
  | .string s => .ok (some s, c)
  | .number n =>
    let s := vm.number2str n
    .ok (some s, { c with slots := c.slots.set (c.depth idx) (.string s) })
  | _ => .ok (none, c)

/-! ## Calls -/

/-- `luaL_loadstring`: the chunk, or the message of what went wrong, on top. -/
def luaLLoadstring (s : Bytes) : LuaM (Option LuaError) := fun c =>
  let (status, v, world) := vm.load s c.world
  .ok (status, { c with world, slots := v :: c.slots })

/-- `lua_pcall(L, nargs, LUA_MULTRET, 0)`: the function and its arguments make
place for all the results, or for one error message. -/
def luaPcall (nargs : Nat) : LuaM (Option LuaError) := fun c =>
  match c.slots.drop nargs with
  | [] => .error .stackUnderflow
  | f :: rest =>
    match vm.call f (c.slots.take nargs).reverse c.world with
    | (.returned results, world) => .ok (none, { c with world, slots := results.reverse ++ rest })
    | (.raised status message, world) => .ok (some status, { c with world, slots := message :: rest })

/-! ## A small VM -/

/-- A VM on which every script compiles and every call ends with `o`. -/
def LuaVm.ending (o : LuaOutcome) : LuaVm where
  str2d _ := none
  number2str _ := []
  load _ c := (none, .function 0, c)
  call _ _ c := (o, c)
  index _ _ c := (some .nil, c)
  newindex _ _ _ c := (true, c)

/-- A heap whose globals bind each of `names` to a function of its own. -/
def LuaHeap.binding (names : List Bytes) : LuaHeap where
  next := names.length + 2
  table r :=
    { slot := fun k =>
        match k with
        | .string s => if r = 0 ∧ s ∈ names then .function (names.idxOf s) else .nil
        | _ => .nil
      metatable := none }
  closure r := .other r
  userdata _ := { block := none, metatable := none }
  globals := 0
  registry := 1
  mt _ := none

/-! ## What the calls do to the frame -/

/-- The frame of `c` holds `slots` over the function `f`. -/
structure FrameIs (c : LuaScriptContext) (f : LuaValue) (slots : List LuaValue) : Prop where
  func : c.func = f
  slots : c.slots = slots

section Frame

open Act

variable {vm} {c : LuaScriptContext} {f t k v : LuaValue} {slots rest : List LuaValue}

@[simp] theorem luaGettop_ok : luaGettop c = .ok (c.slots.length, c) := rfl

@[simp] theorem luaPush_ok : luaPush v c = .ok ((), { c with slots := v :: c.slots }) := rfl

theorem at_top (h : c.slots = v :: rest) : c.at (-1) = v := by
  simp [LuaScriptContext.at, LuaScriptContext.depth, h]

theorem at_top_empty (h : c.slots = []) : c.at (-1) = c.func := by
  simp [LuaScriptContext.at, LuaScriptContext.depth, h]

theorem luaPop_ok {n : Nat} (h : n ≤ c.slots.length) :
    luaPop n c = .ok ((), { c with slots := c.slots.drop n }) := if_pos h

theorem luaPush_frame {E : Fault → Prop} (h : FrameIs c f slots) :
    Ends (luaPush v) c (fun _ c' => FrameIs c' f (v :: slots)) E :=
  .of_ok rfl ⟨h.func, by rw [h.slots]⟩

theorem luaPushvalue_frame {E : Fault → Prop} {idx : Int} (h : FrameIs c f slots) :
    Ends (luaPushvalue idx) c (fun _ c' => ∃ v, FrameIs c' f (v :: slots)) E :=
  .of_ok rfl ⟨c.at idx, h.func, by rw [h.slots]⟩

theorem luaPop_frame {E : Fault → Prop} {n : Nat} (h : FrameIs c f slots) (hn : n ≤ slots.length) :
    Ends (luaPop n) c (fun _ c' => FrameIs c' f (slots.drop n)) E :=
  .of_ok (luaPop_ok (by rw [h.slots]; exact hn)) ⟨h.func, by rw [h.slots]⟩

/-- Only a metamethod's error keeps a table access from returning. -/
theorem luaVGettable_fault {w : LuaWorld} {g : Fault} (h : luaVGettable vm t k w = .error g) :
    g = .scriptError := by
  have hmeta : luaIndexMeta vm t k w = .error g → g = .scriptError := by
    intro h
    unfold luaIndexMeta at h
    split at h <;> cases h
    rfl
  cases t with
  | table r =>
    unfold luaVGettable at h
    simp only at h
    split at h
    · cases h
    · exact hmeta h
  | _ => exact hmeta h

theorem luaVSettable_fault {w : LuaWorld} {g : Fault} (h : luaVSettable vm t k v w = .error g) :
    g = .scriptError := by
  have hmeta : luaNewindexMeta vm t k v w = .error g → g = .scriptError := by
    intro h
    unfold luaNewindexMeta at h
    split at h <;> cases h
    rfl
  cases t with
  | table r =>
    unfold luaVSettable at h
    simp only at h
    split at h
    · cases h; rfl
    · split at h
      · cases h
      · exact hmeta h
  | _ => exact hmeta h

theorem luaGetfield_frame {idx : LuaIndex} {name : Bytes} (h : FrameIs c f slots) :
    Ends (luaGetfield vm idx name) c (fun _ c' => ∃ v, FrameIs c' f (v :: slots)) (· = .scriptError) := by
  unfold Ends luaGetfield
  cases hg : luaVGettable vm (index2adr c idx) (.string name) c.world with
  | error g => exact luaVGettable_fault hg
  | ok r => exact ⟨r.1, h.func, congrArg (r.1 :: ·) h.slots⟩

theorem luaSettable_frame {idx : LuaIndex} (h : FrameIs c f (v :: k :: rest)) :
    Ends (luaSettable vm idx) c (fun _ c' => FrameIs c' f rest) (· = .scriptError) := by
  unfold Ends luaSettable
  cases hs : luaVSettable vm (index2adr c idx) (c.at (-2)) (c.at (-1)) c.world with
  | error g => exact luaVSettable_fault hs
  | ok world => exact luaPop_frame (c := { c with world }) ⟨h.func, h.slots⟩ (by simp)

theorem luaSetfield_frame {idx : LuaIndex} {name : Bytes} (h : FrameIs c f (v :: rest)) :
    Ends (luaSetfield vm idx name) c (fun _ c' => FrameIs c' f rest) (· = .scriptError) := by
  unfold Ends luaSetfield
  cases hs : luaVSettable vm (index2adr c idx) (.string name) (c.at (-1)) c.world with
  | error g => exact luaVSettable_fault hs
  | ok world => exact luaPop_frame (c := { c with world }) ⟨h.func, h.slots⟩ (by simp)

theorem luaPushcclosure_frame {fn : LuaCFunction} (ups : List LuaValue) (h : FrameIs c f (ups ++ rest)) :
    Ends (luaPushcclosure fn ups.length) c (fun _ c' => ∃ r, FrameIs c' f (.function r :: rest))
      (· = .scriptError) :=
  .of_ok rfl ⟨c.world.heap.next, h.func, by simp [LuaScriptContext.setHeap, h.slots]⟩

theorem luaNewtable_frame (h : FrameIs c f slots) :
    Ends luaNewtable c (fun _ c' => ∃ r, FrameIs c' f (.table r :: slots)) (· = .scriptError) :=
  .of_ok rfl ⟨c.world.heap.next, h.func, by simp [LuaScriptContext.setHeap, h.slots]⟩

theorem luaSetmetatable_frame {idx : Int} (h : FrameIs c f (v :: rest)) :
    Ends (luaSetmetatable idx) c (fun _ c' => FrameIs c' f rest) (· = .scriptError) :=
  .of_ok rfl ⟨h.func, by simp [LuaScriptContext.setHeap, h.slots]⟩

theorem luaLNewmetatable_frame {name : Bytes} (h : FrameIs c f slots) :
    Ends (luaLNewmetatable vm name) c (fun _ c' => ∃ v, FrameIs c' f (v :: slots)) (· = .scriptError) := by
  refine (luaGetfield_frame h).bind fun _ c₁ ⟨v, h₁⟩ => ?_
  refine Ends.bind (Q := fun a s => a = c₁ ∧ s = c₁) (.of_ok rfl ⟨rfl, rfl⟩) ?_
  rintro _ _ ⟨rfl, rfl⟩
  split
  · exact .pure ⟨v, h₁⟩
  · refine (luaPop_frame h₁ (by simp)).bind fun _ c₂ h₂ => ?_
    refine (luaNewtable_frame h₂).bind fun _ c₃ ⟨r, h₃⟩ => ?_
    refine (luaPushvalue_frame h₃).bind fun _ c₄ ⟨w, h₄⟩ => ?_
    exact (luaSetfield_frame h₄).bind fun _ _ h₅ => .pure ⟨_, h₅⟩

/-- A conversion changes the slot it converts, and no slot under it. -/
theorem luaTolstring_frame {E : Fault → Prop} (h : FrameIs c f (v :: rest)) :
    Ends (luaTolstring vm (-1)) c (fun _ c' => ∃ w, FrameIs c' f (w :: rest)) E := by
  have hat : c.at (-1) = v := at_top h.slots
  have hd : c.depth (-1) = 0 := by simp [LuaScriptContext.depth]
  unfold Ends luaTolstring
  rw [hat]
  cases v with
  | number n => exact ⟨.string (vm.number2str n), h.func, by simp [h.slots, hd]⟩
  | _ => exact ⟨_, h⟩

end Frame

end MultiScript.Lua
