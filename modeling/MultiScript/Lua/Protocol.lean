/-
The call protocol and `ExecuteString` of the Lua backend, seen from base level:
exactly when each gives the frame back as it found it.
-/
import MultiScript.Lua.Context

namespace MultiScript.Lua

open Act

variable (vm : LuaVm)

/-! ## The protocol -/

def LuaScriptStack.pushAll (st : LuaScriptStack) : List Push → LuaM LuaScriptStack
  | [] => return st
  | p :: ps => do
    let r ← st.push p
    pushAll r.2 ps

def LuaScriptStack.popAll (st : LuaScriptStack) : List Pop → LuaM LuaScriptStack
  | [] => return st
  | p :: ps => do
    let r ← st.pop vm p
    popAll r.2 ps

/-- `EndCall`, if it is called at all, and where it succeeds the pops. -/
def LuaScriptStack.finish (st : LuaScriptStack) (k : Call) : LuaM LuaScriptStack :=
  if k.ends then do
    let r ← st.endCall vm
    if r.1 then r.2.popAll vm k.pops else return r.2
  else return st

/-- A whole use of the protocol. -/
def protocol (k : Call) : LuaM Unit := do
  match ← beginCall vm k.name with
  | none => return
  | some st =>
    let st ← st.pushAll k.pushes
    let st ← st.finish vm k
    st.releaseAfterCall

/-- The protocol returns, to the stack it started from. -/
def Balanced (k : Call) (c : LuaScriptContext) : Prop :=
  ∃ c', protocol vm k c = .ok ((), c') ∧ FrameIs c' c.func c.slots

/-- No call is in progress: the slot under the frame is the `nil` of the base level. -/
def BaseLevel (c : LuaScriptContext) : Prop := c.func = .nil

/-! ## The condition -/

def pushed : Push → LuaValue
  | .int value => .number (.ofInt value)
  | .string string length => .string (pushedBytes string length)

def popFit (heap : LuaHeap) : Pop → LuaValue → PopFit
  | .int, v =>
    match vm.tonumber v with
    | some n => .takes (.int (some (luaNumber2integer n)))
    | none => .leaves (.int none)
  | .scriptObject, .userdata r =>
    match (heap.userdata r).block with
    | some p => .takes (.object (some p))
    | none => .faults
  | .scriptObject, .lightuserdata _ => .faults
  | .scriptObject, _ => .leaves (.object none)

/-- The pops take every result, top first. A pop that does not fit the next
result leaves it. -/
def Drains (heap : LuaHeap) : List Pop → List LuaValue → Prop
  | _, [] => True
  | [], _ :: _ => False
  | p :: ps, v :: vs =>
    match popFit vm heap p v with
    | .takes _ => Drains heap ps vs
    | .leaves _ => Drains heap ps (v :: vs)
    | .faults => False

/-- The name is bound to no function; or `EndCall` is called, the function
returns, and its results are all popped. -/
def Completes (k : Call) (c : LuaScriptContext) : Prop :=
  match lookupGlobal vm k.name c.world with
  | .error _ => False
  | .ok (v, w) =>
    v.isFunction = true → k.ends = true ∧
      match vm.call v (k.pushes.map pushed) w with
      | (.returned results, w') => Drains vm w'.heap k.pops results.reverse
      | (.raised _ _, _) => False

/-! ## Pushes and pops -/

variable {vm} {c : LuaScriptContext} {st : LuaScriptStack}

theorem push_ok (p : Push) :
    st.push p c = .ok ((true, { st with numPushed := st.numPushed + 1 }),
      { c with slots := pushed p :: c.slots }) := by
  cases p <;> rfl

theorem pushAll_ok : ∀ (ps : List Push) (st : LuaScriptStack) (c : LuaScriptContext),
    st.pushAll ps c = .ok ({ st with numPushed := st.numPushed + ps.length },
      { c with slots := (ps.map pushed).reverse ++ c.slots })
  | [], _, _ => rfl
  | p :: ps, st, c => by
    rw [LuaScriptStack.pushAll, bind_ok (push_ok p), pushAll_ok ps]
    simp [Nat.add_assoc, Nat.add_comm 1]

theorem popInt_some {v : LuaValue} {vs : List LuaValue} {n : FloatValue} {value : Int}
    (h : c.slots = v :: vs) (hn : vm.tonumber v = some n) :
    st.popInt vm value c = .ok (((true, luaNumber2integer n), { st with numParams := st.numParams - 1 }),
      { c with slots := vs }) := by
  simp only [LuaScriptStack.popInt, at_top h, hn]
  rw [bind_ok (luaPop_ok (by simp [h]))]
  simp [h, pure_ok]

theorem popInt_none {value : Int} (hn : vm.tonumber (c.at (-1)) = none) :
    st.popInt vm value c = .ok (((false, value), st), c) := by
  simp only [LuaScriptStack.popInt, hn]

theorem popScriptObject_some {r p : Nat} {vs : List LuaValue} (h : c.slots = .userdata r :: vs)
    (hb : (c.world.heap.userdata r).block = some p) :
    st.popScriptObject c = .ok ((some p, { st with numParams := st.numParams - 1 }),
      { c with slots := vs }) := by
  simp only [LuaScriptStack.popScriptObject, at_top h, hb]
  rw [bind_ok (luaPop_ok (by simp [h]))]
  simp [h, pure_ok]

theorem popScriptObject_none (h : (c.at (-1)).isUserdata = false) :
    st.popScriptObject c = .ok ((none, st), c) := by
  unfold LuaScriptStack.popScriptObject
  cases hv : c.at (-1) with
  | userdata r => rw [hv] at h; cases h
  | lightuserdata p => rw [hv] at h; cases h
  | _ => rfl

theorem pop_takes {p : Pop} {v : LuaValue} {vs : List LuaValue} {a : Answer} (h : c.slots = v :: vs)
    (hf : popFit vm c.world.heap p v = .takes a) :
    st.pop vm p c = .ok ((a, { st with numParams := st.numParams - 1 }), { c with slots := vs }) := by
  cases p with
  | int =>
    cases hn : vm.tonumber v with
    | none => simp [popFit, hn] at hf
    | some n =>
      have ha : a = .int (some (luaNumber2integer n)) := by simpa [popFit, hn] using hf.symm
      rw [LuaScriptStack.pop, bind_ok (popInt_some h hn), ha]
      rfl
  | scriptObject =>
    cases v with
    | userdata r =>
      cases hb : (c.world.heap.userdata r).block with
      | none => simp [popFit, hb] at hf
      | some p =>
        have ha : a = .object (some p) := by simpa [popFit, hb] using hf.symm
        rw [LuaScriptStack.pop, bind_ok (popScriptObject_some h hb), ha]
        rfl
    | _ => cases hf

theorem pop_leaves {p : Pop} {a : Answer} (hf : popFit vm c.world.heap p (c.at (-1)) = .leaves a) :
    st.pop vm p c = .ok ((a, st), c) := by
  cases p with
  | int =>
    cases hn : vm.tonumber (c.at (-1)) with
    | none =>
      have ha : a = .int none := by simpa [popFit, hn] using hf.symm
      rw [LuaScriptStack.pop, bind_ok (popInt_none hn), ha]
      rfl
    | some n => simp [popFit, hn] at hf
  | scriptObject =>
    have hu : (c.at (-1)).isUserdata = false ∧ a = .object none := by
      cases hv : c.at (-1) with
      | userdata r =>
        cases hb : (c.world.heap.userdata r).block <;> simp [popFit, hv, hb] at hf
      | lightuserdata p => rw [hv] at hf; cases hf
      | _ => rw [hv] at hf; cases hf; exact ⟨rfl, rfl⟩
    rw [LuaScriptStack.pop, bind_ok (popScriptObject_none hu.1), hu.2]
    rfl

theorem pop_faults (st : LuaScriptStack) {p : Pop} (hf : popFit vm c.world.heap p (c.at (-1)) = .faults) :
    ∃ f, st.pop vm p c = .error f := by
  cases p with
  | int => cases hn : vm.tonumber (c.at (-1)) <;> simp [popFit, hn] at hf
  | scriptObject =>
    cases hv : c.at (-1) with
    | userdata r =>
      cases hb : (c.world.heap.userdata r).block with
      | none =>
        refine ⟨_, bind_error (f := .assertion "scriptObjectPtr && *scriptObjectPtr") ?_⟩
        simp only [LuaScriptStack.popScriptObject, hv, hb]
      | some p => simp [popFit, hv, hb] at hf
    | lightuserdata p =>
      refine ⟨_, bind_error (f := .wildDeref) ?_⟩
      simp only [LuaScriptStack.popScriptObject, hv]
    | _ => rw [hv] at hf; cases hf

/-- On an empty frame at base level a pop takes nothing. -/
theorem popAll_empty (hb : BaseLevel c) (h : c.slots = []) :
    ∀ (ps : List Pop), st.popAll vm ps c = .ok (st, c)
  | [] => rfl
  | p :: ps => by
    have hat : c.at (-1) = .nil := (at_top_empty h).trans hb
    have hf : ∃ a, popFit vm c.world.heap p (c.at (-1)) = .leaves a := by
      rw [hat]
      cases p <;> exact ⟨_, rfl⟩
    obtain ⟨a, hf⟩ := hf
    rw [LuaScriptStack.popAll, bind_ok (pop_leaves hf)]
    exact popAll_empty hb h ps

theorem releaseAfterCall_ok (h : st.isCall = true) : st.releaseAfterCall c = .ok ((), c) := by
  simp only [LuaScriptStack.releaseAfterCall, h, luaAssert_true]

/-- Pops and the release leave an empty frame exactly when the pops take every
result. -/
theorem popAll_drains (ps : List Pop) : ∀ {c : LuaScriptContext} {st : LuaScriptStack}, BaseLevel c →
    st.isCall = true →
    ((∃ c', (st.popAll vm ps >>= LuaScriptStack.releaseAfterCall) c = .ok ((), c') ∧
      FrameIs c' .nil []) ↔ Drains vm c.world.heap ps c.slots) := by
  induction ps with
  | nil =>
    intro c st hb hst
    rw [LuaScriptStack.popAll, pure_bind, releaseAfterCall_ok hst]
    cases hs : c.slots with
    | nil => exact ⟨fun _ => trivial, fun _ => ⟨c, rfl, hb, hs⟩⟩
    | cons v vs =>
      refine ⟨?_, fun h => h.elim⟩
      rintro ⟨_, h, he⟩
      cases h
      exact absurd (hs.symm.trans he.slots) (by simp)
  | cons p ps ih =>
    intro c st hb hst
    rw [LuaScriptStack.popAll, bind_assoc]
    cases hs : c.slots with
    | nil =>
      refine ⟨fun _ => trivial, fun _ => ⟨c, ?_, hb, hs⟩⟩
      rw [← bind_assoc]
      exact (bind_ok (popAll_empty hb hs (p :: ps))).trans (releaseAfterCall_ok hst)
    | cons v vs =>
      have hat : c.at (-1) = v := at_top hs
      rw [Drains]
      cases hf : popFit vm c.world.heap p v with
      | takes =>
        rw [bind_ok (pop_takes hs hf)]
        exact ih (c := { c with slots := vs }) hb hst
      | leaves =>
        rw [bind_ok (pop_leaves (by rw [hat, hf])), ← hs]
        exact ih hb hst
      | faults =>
        obtain ⟨f, he⟩ := pop_faults st (c := c) (by rw [hat, hf])
        rw [bind_error he]
        simp

/-! ## Balance -/

/-- The protocol from an empty frame, where the name is bound to a function. -/
theorem protocol_function {k : Call} {v : LuaValue} {world : LuaWorld} (hs : c.slots = [])
    (hl : lookupGlobal vm k.name c.world = .ok (v, world)) (hv : v.isFunction = true) :
    protocol vm k c =
      (LuaScriptStack.finish vm { numPushed := k.pushes.length, numParams := 0, isCall := true } k
        >>= LuaScriptStack.releaseAfterCall)
        { c with world, slots := (k.pushes.map pushed).reverse ++ [v] } := by
  have hb : beginCall vm k.name c = .ok (some { numPushed := 0, numParams := 0, isCall := true },
      { c with world, slots := [v] }) := by
    rw [beginCall_empty hs, hl]
    simp only [hv, if_true]
  rw [protocol, bind_ok hb]
  simp only
  rw [bind_ok (pushAll_ok _ _ _)]
  simp only [Nat.zero_add]

/-- Where the name is bound to a function the protocol gives an empty frame back
exactly when the call completes and is drained. -/
theorem balanced_function {k : Call} {v : LuaValue} {world : LuaWorld} (hb : BaseLevel c)
    (hs : c.slots = []) (hl : lookupGlobal vm k.name c.world = .ok (v, world)) (hv : v.isFunction = true) :
    Balanced vm k c ↔ Completes vm k c := by
  unfold Balanced Completes
  rw [protocol_function hs hl hv, show c.func = .nil from hb, hs, hl, LuaScriptStack.finish]
  simp only [hv, forall_const]
  cases k.ends with
  | false =>
    simp only [Bool.false_eq_true, if_false, false_and, iff_false]
    rintro ⟨c', h, he⟩
    cases h
    exact absurd he.slots (by simp)
  | true =>
    simp only [if_true, true_and, bind_assoc]
    have hn : k.pushes.length = (k.pushes.map pushed).length := by simp
    generalize k.pushes.map pushed = args at hn ⊢
    rcases hcall : vm.call v args world with ⟨results | ⟨status, message⟩, w⟩
    · rw [bind_ok (endCall_returned rfl hn rfl hcall), List.append_nil]
      exact popAll_drains k.pops (c := { func := .nil, slots := results.reverse, world := w }) rfl rfl
    · refine ⟨?_, fun h => h.elim⟩
      rintro ⟨c', h, he⟩
      obtain ⟨r, c₃, hr, h'⟩ := bind_ok_inv h
      obtain ⟨rfl, m, hm⟩ := (endCall_raised rfl hn rfl hcall).ok hr
      cases h'
      exact absurd (hm.slots.symm.trans he.slots) (by simp)

/-- **Balance of the Lua call protocol.** At base level the protocol returns to
the stack it started from exactly when that stack is empty and the call completes. -/
theorem balanced_iff (hb : BaseLevel c) (k : Call) :
    Balanced vm k c ↔ c.slots = [] ∧ Completes vm k c := by
  by_cases hs : c.slots = []
  · simp only [hs, true_and]
    cases hl : lookupGlobal vm k.name c.world with
    | error f =>
      have hp : protocol vm k c = .error f := bind_error (by rw [beginCall_empty hs, hl])
      simp [Balanced, Completes, hp, hl]
    | ok r =>
      obtain ⟨v, world⟩ := r
      cases hv : v.isFunction with
      | true => exact balanced_function hb hs hl hv
      | false =>
        have hbc : beginCall vm k.name c = .ok (none, { c with world }) := by
          rw [beginCall_empty hs, hl]
          simp [hv]
        have hp : protocol vm k c = .ok ((), { c with world }) := by rw [protocol, bind_ok hbc]; rfl
        have hbal : Balanced vm k c := ⟨_, hp, rfl, rfl⟩
        refine ⟨fun _ => ?_, fun _ => hbal⟩
        simp [Completes, hl, hv]
  · refine ⟨?_, fun h => (hs h.1).elim⟩
    rintro ⟨c', h, -⟩
    rcases beginCall_leftover vm k.name hs with he | he
    · rw [protocol, bind_error he] at h
      cases h
    · rw [protocol, bind_error he] at h
      cases h

/-! ## `ExecuteString` -/

variable (vm)

/-- `ExecuteString` returns, to the frame it started from. -/
def Neutral (string : Bytes) (c : LuaScriptContext) : Prop :=
  ∃ ok c', executeString vm string c = .ok (ok, c') ∧ FrameIs c' c.func c.slots

/-- What `luaL_loadstring` pushes, the chunk or the message of its failure, is
called, returns, and returns nothing. -/
def Silent (string : Bytes) (c : LuaScriptContext) : Prop :=
  match vm.load string c.world with
  | (_, v, w) =>
    match vm.call v [] w with
    | (.returned results, _) => results = []
    | (.raised _ _, _) => False

variable {vm}

theorem executeString_eq {string : Bytes} {status : Option LuaError} {v : LuaValue}
    {world : LuaWorld} (h : vm.load string c.world = (status, v, world)) :
    executeString vm string c = luaCall vm 0 { c with world, slots := v :: c.slots } := by
  have hl : luaLLoadstring vm string c = .ok (status, { c with world, slots := v :: c.slots }) := by
    simp only [luaLLoadstring, h]
  rw [executeString, bind_ok hl]

/-- `ExecuteString` is neutral exactly when what it calls returns without a
result, whatever is on the stack. -/
theorem neutral_iff (string : Bytes) (c : LuaScriptContext) :
    Neutral vm string c ↔ Silent vm string c := by
  rcases hl : vm.load string c.world with ⟨status, v, w⟩
  unfold Neutral Silent
  rw [executeString_eq hl, hl]
  rcases hcall : vm.call v [] w with ⟨results | ⟨st, message⟩, w'⟩
  · have hr : luaCall vm 0 { c with world := w, slots := v :: c.slots }
        = .ok (true, { c with world := w', slots := results.reverse ++ c.slots }) :=
      luaCall_returned [] rfl hcall
    simp only [hr, hcall]
    constructor
    · rintro ⟨_, _, h, hf⟩
      cases h
      simpa using hf.slots
    · rintro rfl
      exact ⟨_, _, rfl, rfl, rfl⟩
  · simp only [hcall]
    refine ⟨?_, fun h => h.elim⟩
    rintro ⟨ok, c', h, hf⟩
    obtain ⟨-, m, hm⟩ := (luaCall_raised [] rfl hcall).ok h
    exact absurd (hm.slots.symm.trans hf.slots) (by simp)

/-! ## Runs at base level -/

variable (vm)

def perform : ContextOp → LuaM Unit
  | .executeString string => do let _ ← executeString vm string
  | .call k => protocol vm k
  | .registerFunction desc => do let _ ← registerFunction vm desc
  | .registerUserClass desc => do let _ ← registerUserClass vm desc

/-- A host that works with a context at base level. -/
def host : Run.Machine LuaScriptContext ContextOp Unit Fault := ⟨perform vm⟩

/-- Scripts are silent and calls complete. -/
def Tidy : ContextOp → LuaScriptContext → Prop
  | .executeString string, c => Silent vm string c
  | .call k, c => Completes vm k c
  | .registerFunction _, _ => True
  | .registerUserClass _, _ => True

variable {vm}

/-- A tidy operation keeps the frame empty, and does not hit an assertion that
it is. -/
theorem perform_frame {e : ContextOp} (h : FrameIs c .nil []) (he : Tidy vm e c) :
    Ends (perform vm e) c (fun _ c' => FrameIs c' .nil []) NotStackAssertion := by
  cases e with
  | executeString string =>
    obtain ⟨ok, c', hp, hf⟩ := (neutral_iff string c).mpr he
    rw [h.func, h.slots] at hf
    exact Ends.bind (Q := fun _ s => FrameIs s .nil []) (.of_ok hp hf) fun _ _ hs => .pure hs
  | call k =>
    obtain ⟨c', hp, hf⟩ := (balanced_iff h.func k).mpr ⟨h.slots, he⟩
    rw [h.func, h.slots] at hf
    exact .of_ok hp hf
  | registerFunction desc =>
    exact ((registerFunction_frame h).faults notStackAssertion_scriptError).bind fun _ _ hs => .pure hs
  | registerUserClass desc => exact (registerUserClass_frame h).bind fun _ _ hs => .pure hs

/-- No run of tidy operations hits an assertion that the stack is empty. -/
theorem host_run_assertion {es : List ContextOp} {g : Fault} (h : FrameIs c .nil [])
    (hm : (host vm).Meets (Tidy vm) es c) (hr : (host vm).run es c = .error g) : NotStackAssertion g := by
  have hg : ¬ ¬ NotStackAssertion g :=
    Run.Machine.run_no_fault (I := fun c => FrameIs c .nil []) (B := fun f => ¬ NotStackAssertion f)
      (fun _ _ _ _ hi he hs => (perform_frame hi he).ok hs)
      (fun _ _ _ hi he hs hn => hn ((perform_frame hi he).error hs)) h hm hr
  exact not_not.mp hg

end MultiScript.Lua
