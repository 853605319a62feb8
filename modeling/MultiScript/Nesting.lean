/-
Calls from the host into a script, the script calling registered functions, these
calling script functions again, and so on. Every level shares the VM with the
ones above it.

`scriptCall` says what such a tower of calls computes: functions of integers,
applied to each other. The VM of each backend is built level by level, the
functions a script calls being the backend's own callbacks, with the VM of the
level below inside them. Lua and Squirrel count the C calls that are in progress
and raise where there are too many; in GameMonkey a script may kill the thread of
the function that has called it.
-/
import MultiScript.Handles.Lua
import MultiScript.Handles.Squirrel
import MultiScript.Handles.GameMonkey
import MultiScript.Lua.Callbacks
import MultiScript.Squirrel.Callbacks
import MultiScript.GameMonkey.Callbacks
import MultiScript.GameMonkey.Protocol
import MultiScript.Lib.Prog

namespace MultiScript

open Handles Act Boundary

/-! ## The calls, abstractly -/

/-- The values of `int`. -/
abbrev CInt : Type := { n : Int // IsInt32 n }

/-- An `int` that holds `n`, wrapped around. -/
def CInt.ofInt (n : Int) : CInt :=
  ⟨n.bmod (2 ^ 32), by
    have hlo := @Int.le_bmod n (2 ^ 32) (by decide)
    have hhi := @Int.bmod_lt n (2 ^ 32) (by decide)
    simp only [IsInt32]
    omega⟩

theorem CInt.ofInt_val (x : CInt) : CInt.ofInt x.val = x := by
  obtain ⟨n, hlo, hhi⟩ := x
  apply Subtype.ext
  simp only [CInt.ofInt]
  rw [Int.bmod_eq_of_le (by omega) (by omega)]

/-- What the functions do. A script function `S` gets values `V` and calls a
registered function through the reference it has to it; a host function gets
integers and calls script functions by name. Each also works on the world `W`
of the VM. -/
structure Programs (S V W : Type) where
  script : S → List V → Prog (Nat × List CInt) V W CInt
  host : CodePtr → List CInt → Prog (Bytes × List CInt) CInt W CInt

variable {C H F S V W Fr : Type}

/-- How the functions are found: the host function behind a reference, and the
script function with a name. `enc` is an integer as a value of the script, and
`spares` says that a script call leaves the thread alone that it is made from. -/
structure Linking (S V W : Type) where
  enc : CInt → V
  codeOf : Nat → W → Option CodePtr
  lookup : Bytes → W → Option (S × W)
  spares : S → List V → W → Bool

/-- The call of a script function by name: `inner` gives what the function does. -/
def namedCall (l : Linking S V W) (inner : S → List V → W → Option (CInt × W)) :
    Bytes × List CInt → W → Option (CInt × W) := fun (name, ys) w =>
  match l.lookup name w with
  | some (g, w') => if l.spares g (ys.map l.enc) w' then inner g (ys.map l.enc) w' else none
  | none => none

/-- A registered function called by a script: `inner` gives the calls it makes. -/
def hostCall (l : Linking S V W) (P : Programs S V W) (inner : S → List V → W → Option (CInt × W)) :
    Nat × List CInt → W → Option (V × W) := fun (r, xs) w =>
  match l.codeOf r w with
  | none => none
  | some code => ((P.host code xs).run (namedCall l inner) w).map fun x => (l.enc x.1, x.2)

/-- A script function called, with at most `n` levels of script calls. -/
def scriptCall (l : Linking S V W) (P : Programs S V W) : Nat → S → List V → W → Option (CInt × W)
  | 0, _, _, _ => none
  | n + 1, f, args, w => (P.script f args).run (hostCall l P (scriptCall l P n)) w

/-- The call comes to `r` with `n` levels of script calls, and with no fewer. -/
def Levels (l : Linking S V W) (P : Programs S V W) (n : Nat) (f : S) (args : List V) (w : W) (r : CInt × W) : Prop :=
  scriptCall l P n f args w = some r ∧ ∀ m, m < n → scriptCall l P m f args w = none

theorem namedCall_found {l : Linking S V W} {inner : S → List V → W → Option (CInt × W)} {name : Bytes}
    {ys : List CInt} {w : W} {q : S × W} (h : l.lookup name w = some q) :
    namedCall l inner (name, ys) w = if l.spares q.1 (ys.map l.enc) q.2 then inner q.1 (ys.map l.enc) q.2
      else none := by
  simp only [namedCall, h]

/-- What the host sees of a call: what is called and with what, what `EndCall`
answers, the count after it, and what is popped. -/
structure CallSeen (F V : Type) where
  target : Option (F × List V)
  ended : Bool
  count : Int
  popped : Answer

def pushInts (b : Backend C H F V) : List CInt → H → StateT C (Except Fault) H
  | [], h => pure h
  | x :: xs, h => do
    let r ← b.push h (.int x.val)
    pushInts b xs r.2

/-- `BeginCall`, the pushes, `EndCall`, `PopInt` and `ReleaseAfterCall`. A `NULL` from
`BeginCall` is not looked at. -/
def callFunction (b : Backend C H F V) (name : Bytes) (xs : List CInt) : StateT C (Except Fault) (CallSeen F V) := do
  match ← b.beginCall name with
  | none => fun _ => .error .nullDeref
  | some h => do
    let h ← pushInts b xs h
    let target := b.target h (← get)
    let r ← b.endCall h
    let p ← b.pop r.2 .int
    b.releaseAfterCall p.2
    return { target, ended := r.1, count := b.getNumParams r.2, popped := p.1 }

/-- The variable `PopInt` was given, 0 before. -/
def popValue : Answer → CInt
  | .int (some n) => .ofInt n
  | _ => .ofInt 0

/-- `n` parameters, popped from the last one on, in their order. -/
def popParams (b : Backend C H F V) : Nat → H → StateT C (Except Fault) (List CInt × H)
  | 0, st => pure ([], st)
  | n + 1, st => do
    let r ← b.pop st .int
    let rest ← popParams b n r.2
    return (rest.1 ++ [popValue r.1], rest.2)

/-- The script call of a registered function. Where `EndCall` or `PopInt` is answered
false the function gives up and answers false itself, and its callback asserts that
it does not. -/
def callScript (b : Backend C H F V) (name : Bytes) (ys : List CInt) : StateT C (Except Fault) CInt := do
  let seen ← callFunction b name ys
  match seen.ended, seen.popped with
  | true, .int (some n) => return .ofInt n
  | _, _ => fun _ => .error (.assertion "result")

/-- A registered function: all its parameters are popped, then it calls script
functions, and then pushes its result. -/
def Programs.function (P : Programs S V W) (b : Backend C H F V) (v : FrameView C Fr W) (code : CodePtr) (st : H) :
    StateT C (Except Fault) (UserResult Unit H) := do
  let p ← popParams b (b.getNumParams st).toNat st
  let x ← (P.host code p.1).runIn v.world (fun c w => v.make (v.frame c) w) fun (name, ys) => callScript b name ys
  let r ← b.push p.2 (.int x.val)
  return { seen := (), result := r.1, stack := r.2 }

/-- What a call of a function that returns `x` looks like. -/
def CallSeen.faithful (f : F) (args : List V) (x : CInt) : CallSeen F V :=
  { target := some (f, args), ended := true, count := 1, popped := .int (some x.val) }

section Body

variable {v : FrameView C Fr W} {l : Linking S V W} {b : Backend C H F V} {inner : S → List V → W → Option (CInt × W)}
  {p : Prog (Bytes × List CInt) CInt W CInt} {f : Fr} {w w' : W} {x : CInt}

end Body

namespace Lua

def encode (x : CInt) : LuaValue := .number (.ofInt x.val)

def linking (base : LuaVm) : Linking LuaValue LuaValue LuaWorld where
  enc := encode
  codeOf r w :=
    match w.heap.closure r with
    | .c .functionCallback [.lightuserdata (.functionInfo desc)] => some desc.function
    | _ => none
  lookup := (luaLang base).lookup
  spares _ _ _ := true

/-- A script calls the registered function behind a reference; `caller` is the frame
it calls from. -/
def nativeCall (vm : LuaVm) (P : Programs LuaValue LuaValue LuaWorld) (caller : LuaWorld → LuaFrame) :
    Nat × List CInt → LuaWorld → Option (LuaValue × LuaWorld) := fun (r, xs) w =>
  match w.heap.closure r with
  | .c .functionCallback [.lightuserdata (.functionInfo _)] =>
    let callback := luaFunctionCallback
      (fun code st => onThread luaView mainThread (P.function (luaBackend vm) luaView code st)) mainThread
    let s : LuaState := { frame := fun _ => caller w, world := w, objects := .empty }
    match callC mainThread (.function r) (xs.map encode) callback s with
    | .ok ((_, results), s') => some (results.headD .nil, s'.world)
    | .error _ => none
  | _ => none

/-- How a call from the host ends that `inner` tells of. Where that is to no result the
error stands for the end of the host as well, which `callScript` may have come to. -/
def ends (w : LuaWorld) : Option (CInt × LuaWorld) → LuaOutcome × LuaWorld
  | some (x, w') => (.returned [encode x], w')
  | none => (.raised .errRun .nil, w)

/-- The VM while `luaD_call` may be entered `n` times: the code of a script function is
run, and the functions it calls are those of the backend on the VM below. At 0 it
raises "C stack overflow". -/
def tower (base : LuaVm) (P : Programs LuaValue LuaValue LuaWorld) (caller : Nat → LuaWorld → LuaFrame) : Nat → LuaVm
  | 0 => { base with call := fun _ _ w => ends w none }
  | n + 1 => { base with
      call := fun f args w => ends w ((P.script f args).run (nativeCall (tower base P caller n) P (caller n)) w) }

variable {vm base : LuaVm} {P : Programs LuaValue LuaValue LuaWorld} {c : LuaScriptContext} {name : Bytes}
  {xs : List CInt} {x : CInt} {w w' w₁ : LuaWorld} {g : LuaValue}

theorem pushInts_ok (vm : LuaVm) : ∀ (xs : List CInt) (st : LuaScriptStack) (c : LuaScriptContext),
    pushInts (luaBackend vm) xs st c = .ok ({ st with numPushed := st.numPushed + xs.length },
      { c with slots := (xs.map encode).reverse ++ c.slots })
  | [], _, _ => rfl
  | x :: xs, st, c => by
    have hp : (luaBackend vm).push st (.int x.val) c = .ok ((true, { st with numPushed := st.numPushed + 1 }),
        { c with slots := encode x :: c.slots }) := rfl
    rw [pushInts, bind_ok hp, pushInts_ok vm xs]
    simp [Nat.add_assoc, Nat.add_comm 1]

theorem pop_encode (vm : LuaVm) (st : LuaScriptStack) {rest : List LuaValue} (h : c.slots = encode x :: rest) :
    (luaBackend vm).pop st .int c = .ok ((.int (some x.val), { st with numParams := st.numParams - 1 }),
      { c with slots := rest }) := by
  have hfit : popFit vm c.world.heap .int (encode x) = .takes (.int (some x.val)) := by
    simp [popFit, encode, LuaVm.tonumber, luaNumber2integer_ofInt x.property]
  exact pop_takes h hfit

theorem popParams_ok (vm : LuaVm) (rest : List LuaValue) :
    ∀ (ys : List CInt) (st : LuaScriptStack) (c : LuaScriptContext), c.slots = ys.map encode ++ rest →
    popParams (luaBackend vm) ys.length st c
      = .ok ((ys.reverse, { st with numParams := st.numParams - ys.length }), { c with slots := rest })
  | [], st, c, h => by
    have hs : c.slots = rest := h
    simp only [← hs]
    simp [popParams, pure_ok]
  | y :: ys, st, c, h => by
    have hv : popValue (.int (some y.val)) = y := CInt.ofInt_val y
    rw [List.length_cons, popParams, bind_ok (pop_encode vm st h), bind_ok (popParams_ok vm rest ys _ _ rfl)]
    simp only [hv, List.reverse_cons]
    rw [show st.numParams - 1 - (ys.length : Int) = st.numParams - ((ys.length + 1 : Nat) : Int) by omega]
    rfl

/-- A call from an empty frame, of a function that returns an integer. -/
theorem callFunction_ok (hs : c.slots = []) (hl : (luaLang vm).lookup name c.world = some (g, w₁))
    (hc : vm.call g (xs.map encode) w₁ = (.returned [encode x], w')) :
    callFunction (luaBackend vm) name xs c = .ok (.faithful g (xs.map encode) x, { c with world := w' }) := by
  have hb : (luaBackend vm).beginCall name c = .ok (some { numPushed := 0, numParams := 0, isCall := true },
      { c with world := w₁, slots := [g] }) := by
    rw [show (luaBackend vm).beginCall name c = beginCall vm name c from rfl, beginCall_empty hs]
    simp only [luaLang] at hl
    split at hl
    · split at hl
      · cases hl
        rename_i hlk hfn
        simp only [hlk, hfn, if_true]
      · cases hl
    · cases hl
  have htarget : (luaBackend vm).target { numPushed := 0 + xs.length, numParams := 0, isCall := true }
      { c with world := w₁, slots := (xs.map encode).reverse ++ [g] } = some (g, xs.map encode) := by
    simp [luaBackend]
  have hend : (luaBackend vm).endCall { numPushed := 0 + xs.length, numParams := 0, isCall := true }
      { c with world := w₁, slots := (xs.map encode).reverse ++ [g] }
      = .ok ((true, { numPushed := 0 + xs.length, numParams := 1, isCall := true }),
        { c with world := w', slots := [encode x] }) := by
    have hn : 0 + xs.length = (xs.map encode).length := by simp
    exact @endCall_returned vm _ g [] _ (xs.map encode) [encode x] w' rfl hn rfl hc
  have hpop : (luaBackend vm).pop { numPushed := 0 + xs.length, numParams := 1, isCall := true } .int
      { c with world := w', slots := [encode x] }
      = .ok ((.int (some x.val), { numPushed := 0 + xs.length, numParams := 0, isCall := true }),
        { c with world := w', slots := [] }) := pop_encode vm _ rfl
  rw [callFunction, bind_ok hb]
  simp only
  rw [bind_ok (pushInts_ok vm xs _ _), bind_get, htarget, bind_ok hend, bind_ok hpop]
  rw [← hs]
  rfl

variable {caller : Nat → LuaWorld → LuaFrame} {inner : LuaValue → List LuaValue → LuaWorld → Option (CInt × LuaWorld)}

end Lua

/-! ## Squirrel -/

namespace Squirrel

def encode (x : CInt) : SqValue := .integer x.val

def linking (base : SqVm) : Linking Callee SqValue SqWorld where
  enc := encode
  codeOf r w :=
    match w.heap.native r with
    | .backend .functionCallback [.userpointer (.functionInfo desc)] => some desc.function
    | _ => none
  lookup := (sqLang base).lookup
  spares _ _ _ := true

/-- A script calls the registered function behind a reference; `caller` is the stack
it calls from, and the `this` it passes. -/
def nativeCall (vm : SqVm) (P : Programs Callee SqValue SqWorld) (caller : SqWorld → SqFrame × SqValue) :
    Nat × List CInt → SqWorld → Option (SqValue × SqWorld) := fun (r, xs) w =>
  match w.heap.native r with
  | .backend .functionCallback [.userpointer (.functionInfo desc)] =>
    let callback := squirrelFunctionCallback
      (fun code st => onThread sqView mainThread (P.function (sqBackend vm) sqView code st)) mainThread
    let s : SqState := { frame := fun _ => (caller w).1, world := w, objects := .empty }
    match callNative mainThread [.userpointer (.functionInfo desc)] (caller w).2 (xs.map encode) callback s with
    | .ok ((_, result), s') => some (result, s'.world)
    | .error _ => none
  | _ => none

/-- How a call from the host ends that `inner` tells of, with an error for every other end. -/
def ends (w : SqWorld) : Option (CInt × SqWorld) → Option SqValue × SqWorld
  | some (x, w') => (some (encode x), w')
  | none => (none, w)

/-- The VM while `n` native calls can be entered: `Execute` is one, and `CallNative` the
next one. At 0 `Execute` raises "Native stack overflow", and at 1 `CallNative` does. -/
def tower (base : SqVm) (P : Programs Callee SqValue SqWorld) (caller : Nat → SqWorld → SqFrame × SqValue) : Nat → SqVm
  | 0 => { base with call := fun _ _ w => ends w none }
  | 1 => { base with
      call := fun f args w =>
        match args with
        | [] => ends w none
        | env :: args => ends w ((P.script (f, env) args).run (fun _ _ => none) w) }
  | n + 2 => { base with
      call := fun f args w =>
        match args with
        | [] => ends w none
        | env :: args => ends w ((P.script (f, env) args).run (nativeCall (tower base P caller n) P (caller n)) w) }

variable {vm base : SqVm} {P : Programs Callee SqValue SqWorld} {c : SquirrelScriptContext} {name : Bytes}
  {xs : List CInt} {x : CInt} {w w' w₁ : SqWorld} {g : Callee}

theorem pushInts_ok (vm : SqVm) : ∀ (xs : List CInt) (st : SquirrelScriptStack) (c : SquirrelScriptContext),
    pushInts (sqBackend vm) xs st c = .ok ({ st with numPushed := st.numPushed + xs.length },
      { c with stack := (xs.map encode).reverse ++ c.stack })
  | [], _, _ => rfl
  | x :: xs, st, c => by
    have hp : (sqBackend vm).push st (.int x.val) c = .ok ((true, { st with numPushed := st.numPushed + 1 }),
        { c with stack := encode x :: c.stack }) := rfl
    rw [pushInts, bind_ok hp, pushInts_ok vm xs]
    simp [Nat.add_assoc, Nat.add_comm 1]

theorem pop_encode (vm : SqVm) (st : SquirrelScriptStack) {rest : List SqValue} (h : c.stack = encode x :: rest) :
    (sqBackend vm).pop st .int c = .ok ((.int (some x.val), { st with numParams := st.numParams - 1 }),
      { c with stack := rest }) :=
  pop_int_some h rfl

theorem popParams_ok (vm : SqVm) (rest : List SqValue) :
    ∀ (ys : List CInt) (st : SquirrelScriptStack) (c : SquirrelScriptContext), c.stack = ys.map encode ++ rest →
    popParams (sqBackend vm) ys.length st c
      = .ok ((ys.reverse, { st with numParams := st.numParams - ys.length }), { c with stack := rest })
  | [], st, c, h => by
    have hs : c.stack = rest := h
    simp only [← hs]
    simp [popParams, pure_ok]
  | y :: ys, st, c, h => by
    have hv : popValue (.int (some y.val)) = y := CInt.ofInt_val y
    rw [List.length_cons, popParams, bind_ok (pop_encode vm st h), bind_ok (popParams_ok vm rest ys _ _ rfl)]
    simp only [hv, List.reverse_cons]
    rw [show st.numParams - 1 - (ys.length : Int) = st.numParams - ((ys.length + 1 : Nat) : Int) by omega]
    rfl

/-- A call from any frame: what `BeginCall` and the pushes put over it goes with
`EndCall`, the pop and the two slots of `ReleaseAfterCall`. -/
theorem callFunction_ok (hl : (sqLang vm).lookup name c.world = some (g, w₁))
    (hc : vm.call g.1 (g.2 :: xs.map encode) w₁ = (some (encode x), w')) :
    callFunction (sqBackend vm) name xs c = .ok (.faithful g (xs.map encode) x, { c with world := w' }) := by
  obtain ⟨f, env⟩ := g
  let under := .table c.world.heap.roottable :: c.stack
  have hb : (sqBackend vm).beginCall name c = .ok (some { numPushed := 0, numParams := 0, isCall := true },
      { c with world := w₁, stack := env :: f :: under }) := by
    rw [show (sqBackend vm).beginCall name c = beginCall vm name c from rfl, beginCall_eq]
    simp only [sqLang] at hl
    split at hl
    · split at hl
      · cases hl
        rename_i hlk hfn
        simp only [hlk, hfn, if_true]
        rfl
      · cases hl
    · cases hl
  have hstack : (xs.map encode).reverse ++ env :: f :: under = (env :: xs.map encode).reverse ++ f :: under := by simp
  have htarget : (sqBackend vm).target { numPushed := 0 + xs.length, numParams := 0, isCall := true }
      { c with world := w₁, stack := (xs.map encode).reverse ++ env :: f :: under } =
        some ((f, env), xs.map encode) := by
    have hlen : 0 + xs.length + 1 = (env :: xs.map encode).reverse.length := by simp
    simp only [sqBackend, hstack, hlen, List.drop_left, List.take_left, List.reverse_reverse]
  have hend : (sqBackend vm).endCall { numPushed := 0 + xs.length, numParams := 0, isCall := true }
      { c with world := w₁, stack := (xs.map encode).reverse ++ env :: f :: under }
      = .ok ((true, { numPushed := 0 + xs.length, numParams := 1, isCall := true }),
        { c with world := w', stack := encode x :: f :: under }) := by
    have hn : 0 + xs.length + 1 = (env :: xs.map encode).length := by simp
    exact @endCall_some vm _ under _ f (encode x) (env :: xs.map encode) w' rfl hn hstack hc
  have hpop : (sqBackend vm).pop { numPushed := 0 + xs.length, numParams := 1, isCall := true } .int
      { c with world := w', stack := encode x :: f :: under }
      = .ok ((.int (some x.val), { numPushed := 0 + xs.length, numParams := 0, isCall := true }),
        { c with world := w', stack := f :: under }) := pop_encode vm _ rfl
  have hrel : (sqBackend vm).releaseAfterCall { numPushed := 0 + xs.length, numParams := 0, isCall := true }
      { c with world := w', stack := f :: under } = .ok ((), { c with world := w' }) := by
    have hpop2 : sqPop 2 { c with world := w', stack := f :: under } = .ok ((), { c with world := w' }) :=
      sqPop_ok (by simp [under])
    exact (releaseAfterCall_ok rfl).trans hpop2
  rw [callFunction, bind_ok hb]
  simp only
  rw [bind_ok (pushInts_ok vm xs _ _), bind_get, htarget, bind_ok hend, bind_ok hpop, bind_ok hrel]
  rfl

variable {caller : Nat → SqWorld → SqFrame × SqValue}
    {inner : Callee → List SqValue → SqWorld → Option (CInt × SqWorld)}

section Native

variable {desc : FunctionDesc} {r base₀ : Nat} {this : SqValue} {under : List SqValue}
    {fr : SqWorld → SqFrame × SqValue}

end Native

end Squirrel

/-! ## GameMonkey -/

namespace GameMonkey

def encode (x : CInt) : GmValue := .int x.val

def linking (base : GmVm) (kills : Kills) : Linking GmValue GmValue GmWorld where
  enc := encode
  codeOf r w :=
    match w.function r with
    | .backend .functionCallback (.functionInfo desc) => some desc.function
    | _ => none
  lookup := (gmLang base).lookup
  spares f args w := !kills f args w

/-- A script calls the registered function behind a reference, on the thread `L`;
`caller` is the frame of it that calls, and the `this` it passes. -/
def nativeCall (vm : GmVm) (kills : Kills) (P : Programs GmValue GmValue GmWorld) (L : Nat)
    (caller : GmWorld → GmThread × GmValue) :
    Nat × List CInt → GmWorld → Option (GmValue × GmWorld) := fun (r, xs) w =>
  match w.function r with
  | .backend .functionCallback (.functionInfo desc) =>
    let callback := gmFunctionCallback
      (fun code st => onThread gmView L (P.function (gmBackendIn vm kills) gmView code st)) L (.functionInfo desc)
    let s : GmState := { frame := fun _ => (caller w).1, world := w, objects := .empty }
    match callNativeIn L (caller w).2 (xs.map encode) callback s with
    | .ok ((_, result), s') => some (result, s'.world)
    | .error _ => none
  | _ => none

/-- How a call ends that `inner` tells of. -/
def ends (w : GmWorld) : Option (CInt × GmWorld) → Option GmValue × GmWorld
  | some (x, w') => (some (encode x), w')
  | none => (none, w)

/-- The machine with `n` levels of script calls, each on a thread of its own. It does not
count them. -/
def tower (base : GmVm) (kills : Kills) (P : Programs GmValue GmValue GmWorld)
    (caller : Nat → GmWorld → GmThread × GmValue) : Nat → GmVm
  | 0 => { base with call := fun _ _ w => ends w none }
  | n + 1 => { base with
      call := fun f args w =>
        ends w ((P.script f args).run (nativeCall (tower base kills P caller n) kills P n (caller n)) w) }

variable {vm base : GmVm} {kills : Kills} {P : Programs GmValue GmValue GmWorld} {c : GMScriptContext} {name : Bytes}
  {xs : List CInt} {x : CInt} {w w' w₁ : GmWorld} {g : GmValue}

theorem pushInts_ok (vm : GmVm) (kills : Kills) (c : GMScriptContext) :
    ∀ (xs : List CInt) (st : GMScriptStack) (call : GmCall),
    st.call = some call →
    pushInts (gmBackendIn vm kills) xs st c
      = .ok ({ st with call := some { call with params := call.params ++ xs.map encode } }, c)
  | [], st, call, h => by
    simp [pushInts, pure_ok, ← h]
  | x :: xs, st, call, h => by
    have hp : (gmBackendIn vm kills).push st (.int x.val) c
        = .ok ((true, { st with call := some { call with params := call.params ++ [encode x] } }), c) := by
      simp only [gmBackendIn, gmBackend, GMScriptStack.push, h]
      rfl
    rw [pushInts, bind_ok hp, pushInts_ok vm kills c xs _ _ rfl]
    simp

/-- The stack of a callback with `total` parameters, after `n` pops. -/
def afterPops (total n : Nat) : GMScriptStack := { numParams := total, numPopped := n, call := none }

/-- The parameters are read by index, from the last one on. -/
theorem pop_encode (vm : GmVm) (kills : Kills) {before after : List GmValue}
    (h : c.thread.params = before ++ encode x :: after) :
    (gmBackendIn vm kills).pop (afterPops c.thread.params.length after.length) .int c
      = .ok ((.int (some x.val), afterPops c.thread.params.length (after.length + 1)), c) := by
  have hlen : c.thread.params.length = before.length + (after.length + 1) := by simp [h]
  have hne : ¬ (after.length : Int) = c.thread.params.length := by omega
  have hidx : (c.thread.params.length : Int) - after.length - 1 = (before.length : Nat) := by omega
  have hparam : c.thread.paramInt ((c.thread.params.length : Int) - after.length - 1) = (true, x.val) := by
    have hin : ¬ (c.thread.params.length : Int) ≤ (before.length : Nat) := by omega
    simp only [GmThread.paramInt, hidx, if_neg hin, Int.toNat_natCast]
    simp [h, encode]
  have hpop : (afterPops c.thread.params.length after.length).popInt 0 c
      = .ok (((true, x.val), afterPops c.thread.params.length (after.length + 1)), c) := by
    simp only [GMScriptStack.popInt, afterPops, if_neg hne, hparam]
    rfl
  exact (bind_ok hpop).trans rfl

theorem popParams_ok (vm : GmVm) (kills : Kills) (c : GMScriptContext) : ∀ (ys : List CInt) (after : List GmValue),
    c.thread.params = (ys.map encode).reverse ++ after →
    popParams (gmBackendIn vm kills) ys.length (afterPops c.thread.params.length after.length) c
      = .ok ((ys.reverse, afterPops c.thread.params.length (after.length + ys.length)), c)
  | [], _, _ => rfl
  | y :: ys, after, h => by
    have hv : popValue (.int (some y.val)) = y := CInt.ofInt_val y
    have h' : c.thread.params = (ys.map encode).reverse ++ encode y :: after := by simp [h]
    have hrest : popParams (gmBackendIn vm kills) ys.length (afterPops c.thread.params.length (after.length + 1)) c
        = .ok ((ys.reverse, afterPops c.thread.params.length (after.length + 1 + ys.length)), c) :=
      popParams_ok vm kills c ys (encode y :: after) h'
    rw [List.length_cons, popParams, bind_ok (pop_encode vm kills h'), bind_ok hrest]
    simp only [hv, List.reverse_cons, Nat.add_assoc, Nat.add_comm 1]
    rfl

/-- The thread that waits for a call. -/
def GMScriptContext.after (kills : Kills) (g : GmValue) (args : List GmValue) (c : GMScriptContext) (w : GmWorld) :
    GMScriptContext :=
  { thread := if kills g args c.world then .sysReset else c.thread, world := w }

theorem endCallIn_eq {g : GmValue} {args : List GmValue} {n p : Int} :
    (gmBackendIn vm kills).endCall
        { numParams := n, numPopped := p, call := some { function := g, params := args, returnVar := none } } c
      = match vm.call g args c.world with
        | (some v, w) => .ok ((true, { numParams := 1, numPopped := 0,
                                       call := some { function := g, params := args, returnVar := some v } }),
            c.after kills g args w)
        | (none, w) => .ok ((true, { numParams := 0, numPopped := 0,
                                     call := some { function := g, params := args, returnVar := none } }),
            c.after kills g args w) := by
  simp only [gmBackendIn, GMScriptStack.endCallIn, GMScriptStack.endCall, GMScriptContext.after]
  rcases vm.call g args c.world with ⟨_ | v, w⟩ <;> cases kills g args c.world <;> rfl

/-- A call on a thread of its own leaves the running one as it is, if its script does. -/
theorem callFunction_ok (hl : (gmLang vm).lookup name c.world = some (g, w₁))
    (hc : vm.call g (xs.map encode) w₁ = (some (encode x), w')) :
    callFunction (gmBackendIn vm kills) name xs c
      = .ok (.faithful g (xs.map encode) x, c.after kills g (xs.map encode) w') := by
  obtain ⟨hb, rfl⟩ : (gmBackendIn vm kills).beginCall name c
      = .ok (some (.ofCall { function := g, params := [], returnVar := none }), c) ∧ w₁ = c.world := by
    simp only [gmLang] at hl
    split at hl
    · rename_i r hg
      cases hl
      exact ⟨by simp only [gmBackendIn, gmBackend, beginCall, hg], rfl⟩
    · cases hl
  have hend := @endCallIn_eq vm kills c g (xs.map encode) 0 0
  simp only [hc] at hend
  rw [callFunction, bind_ok hb]
  simp only
  rw [bind_ok (pushInts_ok vm kills c xs _ _ rfl), bind_get]
  exact (bind_ok hend).trans rfl

variable {caller : Nat → GmWorld → GmThread × GmValue}
  {inner : GmValue → List GmValue → GmWorld → Option (CInt × GmWorld)}

section Native

variable {desc : FunctionDesc} {r L : Nat} {frame : GmThread} {this : GmValue} {fr : GmWorld → GmThread × GmValue}

end Native

end GameMonkey

/-! ## The three languages -/

/-- A script function that hands its argument to the registered function 1, which
answers 0 for 0 and one more than `f(n - 1)` for any other `n`. -/
def countdown (S W : Type) {V : Type} (toInt : V → Int) : Programs S V W where
  script _ args := .call (1, args.map fun v => .ofInt (toInt v)) fun r => .ret (.ofInt (toInt r))
  host _ xs := match xs with
    | [n] => if n.val = 0 then .ret n else .call (cstr "f", [.ofInt (n.val - 1)]) fun m => .ret (.ofInt (m.val + 1))
    | _ => .ret (.ofInt 0)

theorem CInt.ofInt_natCast {n : Nat} (hn : n < 2 ^ 31) : (CInt.ofInt n).val = n := by
  simp only [CInt.ofInt]
  rw [Int.bmod_eq_of_le (by omega) (by omega)]

section Countdown

variable {l : Linking S V W} {toInt : V → Int} {code : CodePtr} {f : S} {w : W}

theorem countdown_host (x : CInt) : (countdown S W toInt).host code [x] =
    if x.val = 0 then .ret x else .call (cstr "f", [.ofInt (x.val - 1)]) fun m => .ret (.ofInt (m.val + 1)) := rfl

theorem scriptCall_countdown (henc : ∀ x, toInt (l.enc x) = x.val) (hcode : l.codeOf 1 w = some code)
    (hl : l.lookup (cstr "f") w = some (f, w)) (hs : ∀ args, l.spares f args w = true) (m : Nat) {n : Nat}
    (hn : n < 2 ^ 31) :
    scriptCall l (countdown S W toInt) m f [l.enc (.ofInt n)] w = if n < m then some (.ofInt n, w) else none := by
  induction m generalizing n with
  | zero => rfl
  | succ m ih =>
    have hval := CInt.ofInt_natCast hn
    have hhost : hostCall l (countdown S W toInt) (scriptCall l (countdown S W toInt) m) (1, [.ofInt n]) w
        = if n < m + 1 then some (l.enc (.ofInt n), w) else none := by
      simp only [hostCall, hcode, countdown_host]
      cases n with
      | zero =>
        rw [if_pos (show (CInt.ofInt ((0 : Nat) : Int)).val = 0 from hval)]
        rfl
      | succ n =>
        have hpred : CInt.ofInt ((CInt.ofInt (n + 1 : Nat)).val - 1) = CInt.ofInt n := by
          rw [hval]
          exact congrArg CInt.ofInt (by omega)
        have hne : ¬ (CInt.ofInt (n + 1 : Nat)).val = 0 := by omega
        have hrec := ih (n := n) (by omega)
        have hnamed : namedCall l (scriptCall l (countdown S W toInt) m) (cstr "f", [.ofInt n]) w
            = if n < m then some (.ofInt n, w) else none := by
          rw [namedCall_found hl]
          simp only [List.map_cons, List.map_nil, hs, if_true, hrec]
        simp only [if_neg hne, hpred, Prog.run, hnamed]
        by_cases hlt : n < m
        · have hsucc : (CInt.ofInt (n : Nat)).val + 1 = ((n + 1 : Nat) : Int) := by
            rw [CInt.ofInt_natCast (by omega)]
            rfl
          simp only [if_pos hlt, if_pos (Nat.succ_lt_succ hlt), Option.map_some, hsucc]
        · simp only [if_neg hlt, if_neg (mt Nat.lt_of_succ_lt_succ hlt), Option.map_none]
    simp only [scriptCall]
    rw [show (countdown S W toInt).script f [l.enc (.ofInt n)]
      = .call (1, [.ofInt (toInt (l.enc (.ofInt n)))]) fun r => .ret (.ofInt (toInt r)) from rfl, henc, CInt.ofInt_val]
    simp only [Prog.run, hhost]
    by_cases hlt : n < m + 1
    · simp only [if_pos hlt, henc, CInt.ofInt_val]
    · simp only [if_neg hlt]

/-- `f(n)` takes `n + 1` levels. -/
theorem countdown_levels (henc : ∀ x, toInt (l.enc x) = x.val) (hcode : l.codeOf 1 w = some code)
    (hl : l.lookup (cstr "f") w = some (f, w)) (hs : ∀ args, l.spares f args w = true) {n : Nat} (hn : n < 2 ^ 31) :
    Levels l (countdown S W toInt) (n + 1) f [l.enc (.ofInt n)] w (.ofInt n, w) := by
  constructor
  · rw [scriptCall_countdown henc hcode hl hs _ hn, if_pos (Nat.lt_succ_self n)]
  · intro m hm
    rw [scriptCall_countdown henc hcode hl hs _ hn, if_neg (by omega)]

end Countdown

/-! ## The three countdowns -/

/-- The descriptor of the registered function. -/
def countdownDesc : FunctionDesc := { addr := 0, name := cstr "g", function := 7, numParams := 1 }

namespace Lua

def countdown : Programs LuaValue LuaValue LuaWorld :=
  MultiScript.countdown LuaValue LuaWorld fun v => match v with
    | .number (.dyadic n 0) => n
    | _ => 0

/-- A context in which `f` is bound, and the closure 1 is the registered function. -/
def countdownContext : LuaScriptContext :=
  createContext { LuaHeap.binding [cstr "f"] with
    closure := fun r => if r = 1 then .c .functionCallback [.lightuserdata (.functionInfo countdownDesc)]
      else .other r }

theorem countdown_levels {n : Nat} (hn : n < 2 ^ 31) : Levels (linking (.ending (.returned []))) countdown (n + 1)
    (.function 0) [encode (.ofInt n)] countdownContext.world (.ofInt n, countdownContext.world) :=
  MultiScript.countdown_levels (fun _ => rfl) rfl rfl (fun _ => rfl) hn

end Lua

namespace Squirrel

def countdown : Programs Callee SqValue SqWorld :=
  MultiScript.countdown Callee SqWorld fun v : SqValue => (v.getInteger).getD 0

def countdownContext : SquirrelScriptContext :=
  createContext { SqHeap.binding [cstr "f"] with
    native := fun r => if r = 1 then .backend .functionCallback [.userpointer (.functionInfo countdownDesc)]
      else .other r }

theorem countdown_levels {n : Nat} (hn : n < 2 ^ 31) : Levels (linking (.ending none)) countdown (n + 1)
    (.closure 0, .table 0) [encode (.ofInt n)] countdownContext.world (.ofInt n, countdownContext.world) :=
  MultiScript.countdown_levels (fun _ => rfl) rfl rfl (fun _ => rfl) hn

end Squirrel

namespace GameMonkey

def countdown : Programs GmValue GmValue GmWorld :=
  MultiScript.countdown GmValue GmWorld fun v => match v with
    | .int n => n
    | _ => 0

def countdownContext : GMScriptContext :=
  createContext 2 (fun s => if s = cstr "f" then .function 0 else .null)
    fun r => if r = 1 then .backend .functionCallback (.functionInfo countdownDesc) else .other r

def raising : GmVm := { call := fun _ _ w => (none, w), executeString := fun _ w => (0, w) }

theorem countdown_levels {n : Nat} (hn : n < 2 ^ 31) : Levels (linking raising .never) countdown (n + 1)
    (.function 0) [encode (.ofInt n)] countdownContext.world (.ofInt n, countdownContext.world) :=
  MultiScript.countdown_levels (fun _ => rfl) rfl rfl (fun _ => rfl) hn

end GameMonkey

end MultiScript
