/-
Pushes and the memory of the VM stack. In Lua and GameMonkey a push of the interface stores at
the top and advances it, without a look at how large the stack is. The stack is a block of
memory here; the frames of the other modules are what lies between its base and its top.
-/
import MultiScript.Lua.Protocol
import MultiScript.GameMonkey.Context
import MultiScript.Lib.Run
import Mathlib.Logic.Function.Basic

namespace MultiScript

open Run Act

/-- A VM stack of `size` slots. What `mem` has from there on is not the stack's. -/
structure RawStack (V : Type) where
  mem : Nat → V
  top : Nat
  size : Nat

namespace RawStack

variable {V : Type}

/-- A store at the top, which is advanced. -/
def store (s : RawStack V) (v : V) : RawStack V := { s with mem := Function.update s.mem s.top v, top := s.top + 1 }

/-- The values from `base` on, the top first. -/
def frame (s : RawStack V) (base : Nat) : List V := ((List.range' base (s.top - base)).map s.mem).reverse

theorem frame_store {s : RawStack V} {base : Nat} (h : base ≤ s.top) (v : V) :
    (s.store v).frame base = v :: s.frame base := by
  have hlen : s.top + 1 - base = (s.top - base) + 1 := by omega
  have hlast : base + (s.top - base) = s.top := by omega
  have hold : (List.range' base (s.top - base)).map (Function.update s.mem s.top v) =
      (List.range' base (s.top - base)).map s.mem := by
    refine List.map_congr_left fun i hi => ?_
    obtain ⟨j, hj, rfl⟩ := List.mem_range'.mp hi
    exact Function.update_of_ne (by omega) _ _
  simp only [frame, store, hlen, List.range'_concat, List.map_append, hold, List.reverse_append]
  simp [hlast]

/-- A push of `v` that answered `r.1` and left `r.2`: it stored the value in a slot of the stack
and nothing else, or it refused and changed nothing. -/
def Respects (v : V) (s : RawStack V) (r : Bool × RawStack V) : Prop :=
  (s.top < r.2.size ∧ r.2.mem = Function.update s.mem s.top v ∧ r.2.top = s.top + 1) ∨ (r.1 = false ∧ r.2 = s)

end RawStack

/-- A push, with the sizes that the collector asks for when it reallocates the stack on the way
to it. -/
structure PushEvent where
  push : Push
  collected : List Nat := []
deriving DecidableEq, Repr

/-- Pushes on a stack, where the way to a push leaves the stack of `size` slots with
`resize e size` of them, and the push then stores. -/
def pushMachine {V : Type} (value : Push → V) (resize : PushEvent → Nat → Nat) :
    Machine (RawStack V) PushEvent Bool Unit :=
  ⟨fun e s => .ok (true, { s with size := resize e s.size }.store (value e.push))⟩

/-- Each push of the run respects the stack. -/
def AllRespect {V : Type} (value : Push → V) (m : Machine (RawStack V) PushEvent Bool Unit) (es : List PushEvent)
    (s : RawStack V) : Prop :=
  m.Meets (fun e s => ∀ r, m.step e s = .ok r → RawStack.Respects (value e.push) s r) es s

/-- The sizes of the stack at each of the pushes. -/
def sizes (resize : PushEvent → Nat → Nat) : List PushEvent → Nat → List Nat
  | [], _ => []
  | e :: es, size => resize e size :: sizes resize es (resize e size)

section Pushes

variable {V : Type} {value : Push → V} {resize : PushEvent → Nat → Nat} {s : RawStack V}

/-- A push answers true, so it respects the stack only where there is a slot. -/
theorem respects_iff {e : PushEvent} :
    (∀ r, (pushMachine value resize).step e s = .ok r → RawStack.Respects (value e.push) s r) ↔
    s.top < resize e s.size := by
  constructor
  · intro h
    rcases h _ rfl with ⟨hlt, -⟩ | ⟨hfalse, -⟩
    · exact hlt
    · cases hfalse
  · intro hlt r hr
    cases hr
    exact .inl ⟨hlt, rfl, rfl⟩

/-- All pushes respect the stack exactly if each finds its place below the size of that time. -/
theorem allRespect_iff {es : List PushEvent} :
    AllRespect value (pushMachine value resize) es s ↔ ∀ i size, (sizes resize es s.size)[i]? = some size →
    s.top + i < size := by
  induction es generalizing s with
  | nil => exact ⟨fun _ i size h => (by cases h), fun _ => trivial⟩
  | cons e es ih =>
    have hrest : AllRespect value (pushMachine value resize) (e :: es) s ↔
        s.top < resize e s.size ∧
          AllRespect value (pushMachine value resize) es ({ s with size := resize e s.size }.store (value e.push)) := by
      constructor
      · intro h
        exact ⟨respects_iff.mp h.1, h.2 _ _ rfl⟩
      · rintro ⟨hlt, h⟩
        exact Machine.meets_cons (respects_iff.mpr hlt) rfl h
    rw [hrest, ih]
    constructor
    · rintro ⟨hlt, h⟩ i size hi
      cases i with
      | zero =>
        cases hi
        exact hlt
      | succ i =>
        have hnext := h i size hi
        simp only [RawStack.store] at hnext
        omega
    · intro h
      refine ⟨h 0 _ rfl, fun i size hi => ?_⟩
      have hnext := h (i + 1) size hi
      simp only [RawStack.store]
      omega

/-- Where the size stays, that is a bound for the number of pushes. -/
theorem allRespect_fixed {es : List PushEvent} (h : ∀ e ∈ es, ∀ size, resize e size = size) :
    AllRespect value (pushMachine value resize) es s ↔ es.length ≤ s.size - s.top := by
  have hsizes : ∀ size, sizes resize es size = List.replicate es.length size := by
    induction es with
    | nil => exact fun _ => rfl
    | cons e es ih =>
      intro size
      rw [sizes, h e List.mem_cons_self, ih fun e he => h e (List.mem_cons_of_mem _ he)]
      rfl
  rw [allRespect_iff, hsizes]
  constructor
  · intro hall
    by_cases hes : es.length = 0
    · omega
    · have hlast := hall (es.length - 1) s.size (by rw [List.getElem?_replicate, if_pos (by omega)])
      omega
  · intro hle i size hi
    rw [List.getElem?_replicate] at hi
    split at hi
    · cases hi
      omega
    · cases hi

end Pushes

/-! ## Lua -/

namespace Lua

def extraStack : Nat := 5
def luaMinstack : Nat := 20

/-- `luaD_reallocstack`, by the size. -/
def luaDReallocstack (newsize : Nat) : Nat := newsize + 1 + extraStack

/-- `lua_pushlstring` lets the collector work before it stores; `lua_pushinteger` does not. -/
def resize : PushEvent → Nat → Nat
  | { push := .int _, .. }, size => size
  | { push := .string _ _, collected }, size => collected.foldl (fun _ newsize => luaDReallocstack newsize) size

/-- `LuaScriptStack::PushInt` and `PushString`, in a callback and in a call. -/
def pushes : Machine (RawStack LuaValue) PushEvent Bool Unit := pushMachine pushed resize

/-- The frame with the push is what `PushInt` and `PushString` leave of it. -/
theorem push_frame (st : LuaScriptStack) {c : LuaScriptContext} {s : RawStack LuaValue} {base : Nat} (hb : base ≤ s.top)
    (hs : c.slots = s.frame base) (p : Push) :
    ∃ st' c', st.push p c = .ok ((true, st'), c') ∧ c'.slots = (s.store (pushed p)).frame base :=
  ⟨_, _, push_ok p, by rw [RawStack.frame_store hb, ← hs]⟩

/-- `stack_last`, by its index. -/
def stackLast (s : RawStack LuaValue) : Nat := s.size - extraStack - 1

/-- `luaD_checkstack` and `luaD_growstack`: room for `n` values below `stack_last`. -/
def luaDCheckstack (n : Nat) (s : RawStack LuaValue) : RawStack LuaValue :=
  if stackLast s - s.top ≤ n then
    { s with size := luaDReallocstack (if n ≤ s.size then 2 * s.size else s.size + n) }
  else s

/-- The room a C function is called with, which `luaD_precall` has checked. -/
theorem callback_room {s : RawStack LuaValue} (h : s.top < s.size) :
    (luaDCheckstack luaMinstack s).top + luaMinstack + extraStack + 1 < (luaDCheckstack luaMinstack s).size := by
  unfold luaDCheckstack
  split
  · by_cases hn : luaMinstack ≤ s.size
    · rw [if_pos hn]
      simp only [luaDReallocstack, luaMinstack, extraStack] at *
      omega
    · rw [if_neg hn]
      simp only [luaDReallocstack, luaMinstack, extraStack] at *
      omega
  · simp only [stackLast, luaMinstack, extraStack] at *
    omega

/-- So many integers fit in every callback. -/
theorem callback_pushes {s : RawStack LuaValue} {es : List PushEvent} (h : s.top < s.size)
    (hes : ∀ e ∈ es, e.collected = []) (hlen : es.length ≤ luaMinstack + extraStack + 2) :
    AllRespect pushed pushes es (luaDCheckstack luaMinstack s) := by
  have hroom := callback_room h
  refine (allRespect_fixed fun e he size => ?_).mpr (by omega)
  obtain ⟨p, collected⟩ := e
  have hc : collected = [] := hes _ he
  subst hc
  cases p <;> rfl

end Lua

/-! ## GameMonkey -/

namespace GameMonkey

/-- The thread's stack is not reallocated on the way: strings are objects of their own. -/
def resize (_ : PushEvent) (size : Nat) : Nat := size

/-- `GMScriptStack::PushInt` and `PushString`: on the running thread, and by `gmCall::AddParamInt`
and `AddParamString` on the thread of the call. -/
def pushes : Machine (RawStack GmValue) PushEvent Bool Unit := pushMachine GMScriptStack.pushed resize

/-- What a callback has pushed, with the push. -/
theorem push_callback {st : GMScriptStack} {c : GMScriptContext} {s : RawStack GmValue} {base : Nat} (hb : base ≤ s.top)
    (hst : st.call = none) (hs : c.thread.pushed = s.frame base) (p : Push) :
    ∃ c', st.push p c = .ok ((true, st), c') ∧ c'.thread.pushed = (s.store (GMScriptStack.pushed p)).frame base := by
  refine ⟨_, by simp only [GMScriptStack.push, hst]; rfl, ?_⟩
  rw [RawStack.frame_store hb, ← hs]

/-- The parameters of a call, with the push. -/
theorem push_call {st : GMScriptStack} {c : GMScriptContext} {call : GmCall} {s : RawStack GmValue} {base : Nat}
    (hb : base ≤ s.top) (hst : st.call = some call) (hs : call.params = (s.frame base).reverse) (p : Push) :
    ∃ st' call', st.push p c = .ok ((true, st'), c) ∧ st'.call = some call' ∧
      call'.params = ((s.store (GMScriptStack.pushed p)).frame base).reverse := by
  refine ⟨_, _, by simp only [GMScriptStack.push, hst]; rfl, rfl, ?_⟩
  rw [RawStack.frame_store hb, List.reverse_cons, ← hs]

def slackSpace : Nat := 6

/-- `gmThread::Touch` doubles the stack until there is room for `extra` values more and some
slack, unless it has got too large: the size, and whether there is room. `n` bounds the turns
of the loop. -/
def touch (variableSize extra top : Nat) : Nat → Nat → Bool × Nat
  | 0, size => (false, size)
  | n + 1, size =>
    if top + extra + slackSpace < size then (true, size)
    else if 128000 < variableSize * size then (false, size)
    else touch variableSize extra top n (2 * size)

/-- Native functions are called without it: the room they find is what the calling function
has left of its own. -/
theorem touch_room {variableSize extra top n size size' : Nat}
    (h : touch variableSize extra top n size = (true, size')) :
    top + extra + slackSpace < size' := by
  induction n generalizing size with
  | zero => cases h
  | succ n ih =>
    unfold touch at h
    split at h
    · cases h
      assumption
    · split at h
      · cases h
      · exact ih h

end GameMonkey

/-! ## The two backends -/

/-- **Capacity.** Pushes on one stack object. In Lua they all respect the stack exactly if each
finds its place below the size at that time: with no collection on the way, if there are no more
of them than free slots. In GameMonkey they do exactly if there are no more than free slots. -/
theorem push_capacity_iff (es : List PushEvent) (s : RawStack Lua.LuaValue) (g : RawStack GameMonkey.GmValue) :
    (AllRespect Lua.pushed Lua.pushes es s ↔ ∀ i size, (sizes Lua.resize es s.size)[i]? = some size →
      s.top + i < size) ∧
    ((∀ e ∈ es, e.collected = []) → (AllRespect Lua.pushed Lua.pushes es s ↔ es.length ≤ s.size - s.top)) ∧
    (AllRespect GameMonkey.GMScriptStack.pushed GameMonkey.pushes es g ↔ es.length ≤ g.size - g.top) := by
  refine ⟨allRespect_iff, fun hes => allRespect_fixed fun e he size => ?_, allRespect_fixed fun _ _ _ => rfl⟩
  obtain ⟨p, collected⟩ := e
  have hc : collected = [] := hes _ he
  subst hc
  cases p <;> rfl

/-- The stacks of a new thread at `BeginCall`: in Lua the entry of the base level and the function,
in GameMonkey `this` and the function. -/
def Lua.begun : RawStack Lua.LuaValue :=
  { mem := fun _ => .nil, top := 2, size := 2 * Lua.luaMinstack + Lua.extraStack }
def GameMonkey.begun : RawStack GameMonkey.GmValue := { mem := fun _ => .null, top := 2, size := 512 / 8 }

/-- Sixty-three pushes between `BeginCall` and `EndCall`: the last one is past the end, in both. -/
theorem push_capacity_exceeded :
    ¬ AllRespect Lua.pushed Lua.pushes (List.replicate 63 { push := .int 1 }) Lua.begun ∧
    ¬ AllRespect GameMonkey.GMScriptStack.pushed GameMonkey.pushes (List.replicate 63 { push := .int 1 })
      GameMonkey.begun := by
  constructor
  · refine fun h => absurd ((allRespect_fixed fun e he size => ?_).mp h) (by decide)
    rw [List.eq_of_mem_replicate he]
    rfl
  · exact fun h => absurd ((allRespect_fixed fun _ _ _ => rfl).mp h) (by decide)

/-- Forty-three pushes there. -/
theorem push_capacity_iff_begun :
    AllRespect Lua.pushed Lua.pushes (List.replicate 43 { push := .int 1 }) Lua.begun :=
  ((push_capacity_iff (List.replicate 43 { push := .int 1 }) Lua.begun GameMonkey.begun).2.1
    fun e he => by rw [List.eq_of_mem_replicate he]).mpr (by decide)

end MultiScript
