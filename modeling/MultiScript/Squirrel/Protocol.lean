/-
The call protocol and `ExecuteString` of the Squirrel backend: exactly when a
call gives the VM stack back, and that a script always does.
-/
import MultiScript.Squirrel.Context

namespace MultiScript.Squirrel

open Act

variable (vm : SqVm)

/-! ## The protocol -/

def SquirrelScriptStack.pushAll (st : SquirrelScriptStack) : List Push → SqM SquirrelScriptStack
  | [] => return st
  | p :: ps => do
    let r ← st.push p
    pushAll r.2 ps

def SquirrelScriptStack.popAll (st : SquirrelScriptStack) : List Pop → SqM SquirrelScriptStack
  | [] => return st
  | p :: ps => do
    let r ← st.pop p
    popAll r.2 ps

/-- `EndCall`, if it is called at all, and where it succeeds the pops. -/
def SquirrelScriptStack.finish (st : SquirrelScriptStack) (k : Call) : SqM SquirrelScriptStack :=
  if k.ends then do
    let r ← st.endCall vm
    if r.1 then r.2.popAll k.pops else return r.2
  else return st

/-- A whole use of the protocol. -/
def protocol (k : Call) : SqM Unit := do
  match ← beginCall vm k.name with
  | none => return
  | some st =>
    let st ← st.pushAll k.pushes
    let st ← st.finish vm k
    st.releaseAfterCall

/-- The protocol returns, to the stack it started from. -/
def Balanced (k : Call) (c : SquirrelScriptContext) : Prop :=
  ∃ c', protocol vm k c = .ok ((), c') ∧ c'.stack = c.stack

/-! ## The condition -/

def pushed : Push → SqValue
  | .int value => .integer value
  | .string string length => .string (pushedBytes string length)

/-- The pops take the one result, and the rest of them only ask for integers:
they read the function's slot then. -/
def Drains (v : SqValue) : List Pop → Prop
  | [] => False
  | .int :: ps => if v.getInteger.isSome then .scriptObject ∉ ps else Drains v ps
  | .scriptObject :: ps => (∃ r, v = .sqinstance r) ∧ .scriptObject ∉ ps

/-- The name is not bound at all; or it is bound to a function, `EndCall` is
called, the function returns, and its result is popped. -/
def Completes (k : Call) (c : SquirrelScriptContext) : Prop :=
  match lookupRoot vm k.name c.world with
  | (none, _) => True
  | (some f, w) =>
    f.isFunction = true ∧ k.ends = true ∧
      match vm.call f (.table w.heap.roottable :: k.pushes.map pushed) w with
      | (some v, _) => Drains v k.pops
      | (none, _) => False

/-! ## Pushes and pops -/

variable {vm} {c : SquirrelScriptContext} {st : SquirrelScriptStack}

theorem push_ok (p : Push) :
    st.push p c = .ok ((true, { st with numPushed := st.numPushed + 1 }),
      { c with stack := pushed p :: c.stack }) := by
  cases p <;> rfl

theorem pushAll_ok : ∀ (ps : List Push) (st : SquirrelScriptStack) (c : SquirrelScriptContext),
    st.pushAll ps c = .ok ({ st with numPushed := st.numPushed + ps.length },
      { c with stack := (ps.map pushed).reverse ++ c.stack })
  | [], _, _ => rfl
  | p :: ps, st, c => by
    rw [SquirrelScriptStack.pushAll, bind_ok (push_ok p), pushAll_ok ps]
    simp [Nat.add_assoc, Nat.add_comm 1]

theorem popInt_some {v : SqValue} {vs : List SqValue} {n value : Int} (h : c.stack = v :: vs)
    (hn : v.getInteger = some n) :
    st.popInt value c = .ok (((true, n), { st with numParams := st.numParams - 1 }),
      { c with stack := vs }) := by
  simp only [SquirrelScriptStack.popInt, at_top h, hn]
  rw [bind_ok (sqPop_ok (by simp [h]))]
  simp [h, pure_ok]

theorem popInt_none {value : Int} (hn : (c.at (-1)).getInteger = none) :
    st.popInt value c = .ok (((false, value), st), c) := by
  simp only [SquirrelScriptStack.popInt, hn]

theorem popScriptObject_instance {r : Nat} {vs : List SqValue} (h : c.stack = .sqinstance r :: vs) :
    st.popScriptObject c = .ok (((c.world.heap.instances r).userpointer,
      { st with numParams := st.numParams - 1 }), { c with stack := vs }) := by
  simp only [SquirrelScriptStack.popScriptObject, at_top h]
  rw [bind_ok (sqPop_ok (by simp [h]))]
  simp [h, pure_ok]

theorem popScriptObject_assertion (h : ∀ r, c.at (-1) ≠ .sqinstance r) :
    st.popScriptObject c
      = .error (.assertion "sq_gettype(m_context->m_vm, -1) == OT_INSTANCE") := by
  unfold SquirrelScriptStack.popScriptObject
  cases hv : c.at (-1) with
  | sqinstance r => exact absurd hv (h r)
  | _ => rfl

theorem pop_int_none (hn : (c.at (-1)).getInteger = none) :
    st.pop .int c = .ok ((.int none, st), c) := by
  rw [SquirrelScriptStack.pop, bind_ok (popInt_none hn)]
  rfl

theorem pop_int_some {v : SqValue} {vs : List SqValue} {n : Int} (h : c.stack = v :: vs)
    (hn : v.getInteger = some n) :
    st.pop .int c = .ok ((.int (some n), { st with numParams := st.numParams - 1 }),
      { c with stack := vs }) := by
  rw [SquirrelScriptStack.pop, bind_ok (popInt_some h hn)]
  rfl

theorem pop_instance {r : Nat} {vs : List SqValue} (h : c.stack = .sqinstance r :: vs) :
    st.pop .scriptObject c = .ok ((.object (c.world.heap.instances r).userpointer,
      { st with numParams := st.numParams - 1 }), { c with stack := vs }) := by
  rw [SquirrelScriptStack.pop, bind_ok (popScriptObject_instance h)]
  rfl

theorem releaseAfterCall_ok (h : st.isCall = true) : st.releaseAfterCall c = sqPop 2 c := by
  rw [SquirrelScriptStack.releaseAfterCall, h, bind_ok (sqAssert_true _)]

/-- Two values of a function stay under a result that is gone: pops of integers
read the function and take nothing, a pop of an object does not return. -/
theorem popAll_function {f t : SqValue} {rest : List SqValue} (hf : f.isFunction = true) :
    ∀ (ps : List Pop) {c : SquirrelScriptContext} (st : SquirrelScriptStack),
      c.stack = f :: t :: rest → st.isCall = true →
      ((∃ c', (st.popAll ps >>= SquirrelScriptStack.releaseAfterCall) c = .ok ((), c') ∧ c'.stack = rest) ↔
        .scriptObject ∉ ps)
  | [], c, st, hs, hst => by
    rw [SquirrelScriptStack.popAll, pure_bind, releaseAfterCall_ok hst, sqPop_ok (by simp [hs])]
    simp [hs]
  | .int :: ps, c, st, hs, hst => by
    have hn : (c.at (-1)).getInteger = none := by
      rw [at_top hs]
      exact SqValue.getInteger_function hf
    rw [SquirrelScriptStack.popAll, bind_assoc, bind_ok (pop_int_none hn)]
    simpa using popAll_function hf ps st hs hst
  | .scriptObject :: ps, c, st, hs, hst => by
    have hne : ∀ r, c.at (-1) ≠ .sqinstance r := by
      intro r h
      rw [at_top hs] at h
      rw [h] at hf
      cases hf
    have he : st.pop .scriptObject c
        = .error (.assertion "sq_gettype(m_context->m_vm, -1) == OT_INSTANCE") :=
      bind_error (popScriptObject_assertion hne)
    rw [SquirrelScriptStack.popAll, bind_assoc, bind_error he]
    simp

/-- Pops and the release, from the result of a call: they give the stack under
the call back exactly when the pops take the result. -/
theorem popAll_drains {v f t : SqValue} {rest : List SqValue} (hf : f.isFunction = true) :
    ∀ (ps : List Pop) {c : SquirrelScriptContext} (st : SquirrelScriptStack),
      c.stack = v :: f :: t :: rest → st.isCall = true →
      ((∃ c', (st.popAll ps >>= SquirrelScriptStack.releaseAfterCall) c = .ok ((), c') ∧ c'.stack = rest) ↔
        Drains v ps)
  | [], c, st, hs, hst => by
    rw [SquirrelScriptStack.popAll, pure_bind, releaseAfterCall_ok hst, sqPop_ok (by simp [hs])]
    simp [hs, Drains]
  | .int :: ps, c, st, hs, hst => by
    rw [SquirrelScriptStack.popAll, bind_assoc, Drains]
    cases hn : v.getInteger with
    | none =>
      rw [bind_ok (pop_int_none (by rw [at_top hs, hn]))]
      exact popAll_drains hf ps st hs hst
    | some n =>
      rw [bind_ok (pop_int_some hs hn)]
      simpa using popAll_function hf ps { st with numParams := st.numParams - 1 }
        (c := { c with stack := f :: t :: rest }) rfl hst
  | .scriptObject :: ps, c, st, hs, hst => by
    rw [SquirrelScriptStack.popAll, bind_assoc, Drains]
    by_cases hv : ∃ r, v = .sqinstance r
    · obtain ⟨r, rfl⟩ := hv
      rw [bind_ok (pop_instance hs)]
      simpa using popAll_function hf ps { st with numParams := st.numParams - 1 }
        (c := { c with stack := f :: t :: rest }) rfl hst
    · have he : st.pop .scriptObject c
          = .error (.assertion "sq_gettype(m_context->m_vm, -1) == OT_INSTANCE") :=
        bind_error (popScriptObject_assertion fun r h => hv ⟨r, (at_top hs).symm.trans h⟩)
      rw [bind_error he]
      simp [hv]

/-! ## Balance -/

/-- The protocol where the name is bound to a function. -/
theorem protocol_function {k : Call} {f : SqValue} {world : SqWorld}
    (hl : lookupRoot vm k.name c.world = (some f, world)) (hf : f.isFunction = true) :
    protocol vm k c =
      (SquirrelScriptStack.finish vm { numPushed := k.pushes.length, numParams := 0, isCall := true } k
        >>= SquirrelScriptStack.releaseAfterCall)
        { c with world, stack := (SqValue.table world.heap.roottable :: k.pushes.map pushed).reverse ++
          f :: .table c.world.heap.roottable :: c.stack } := by
  have hb : beginCall vm k.name c = .ok (some { numPushed := 0, numParams := 0, isCall := true }, { c with
      world, stack := .table world.heap.roottable :: f :: .table c.world.heap.roottable :: c.stack }) := by
    rw [beginCall_eq, hl]
    simp only [hf, if_true]
  rw [protocol, bind_ok hb]
  simp only
  rw [bind_ok (pushAll_ok _ _ _)]
  simp only [Nat.zero_add, List.reverse_cons, List.append_assoc, List.singleton_append]

/-- Where the name is bound to a function the protocol gives the stack back
exactly when the call completes and its result is popped. -/
theorem balanced_function {k : Call} {f : SqValue} {world : SqWorld}
    (hl : lookupRoot vm k.name c.world = (some f, world)) (hf : f.isFunction = true) :
    Balanced vm k c ↔ Completes vm k c := by
  unfold Balanced Completes
  rw [protocol_function hl hf, hl, SquirrelScriptStack.finish]
  simp only [hf, true_and]
  cases k.ends with
  | false =>
    -- the release takes two of the slots, the others stay
    simp only [Bool.false_eq_true, if_false, false_and, iff_false, pure_bind]
    rw [releaseAfterCall_ok rfl]
    rintro ⟨c', h, he⟩
    have hlen := sqPop_inv h
    rw [he] at hlen
    simp at hlen
    omega
  | true =>
    simp only [if_true, true_and, bind_assoc]
    have hn : k.pushes.length + 1 = (SqValue.table world.heap.roottable :: k.pushes.map pushed).length := by simp
    generalize SqValue.table world.heap.roottable :: k.pushes.map pushed = args at hn ⊢
    rcases hcall : vm.call f args world with ⟨_ | v, w⟩
    · rw [bind_ok (endCall_none rfl hn rfl hcall)]
      simp only [Bool.false_eq_true, if_false, pure_bind, iff_false]
      rw [releaseAfterCall_ok rfl]
      rintro ⟨c', h, he⟩
      have hlen := sqPop_inv h
      rw [he] at hlen
      simp at hlen
    · rw [bind_ok (endCall_some rfl hn rfl hcall)]
      exact popAll_drains hf k.pops _ rfl rfl

/-- **Balance of the Squirrel call protocol.** On every stack the protocol
returns to the stack it started from exactly when the call completes. -/
theorem balanced_iff (vm : SqVm) (k : Call) (c : SquirrelScriptContext) :
    Balanced vm k c ↔ Completes vm k c := by
  rcases hl : lookupRoot vm k.name c.world with ⟨_ | f, world⟩
  · have hb : beginCall vm k.name c = .ok (none, { c with world }) := by rw [beginCall_eq, hl]
    have hp : protocol vm k c = .ok ((), { c with world }) := by rw [protocol, bind_ok hb]; rfl
    refine ⟨fun _ => ?_, fun _ => ⟨_, hp, rfl⟩⟩
    rw [Completes, hl]
    trivial
  · cases hf : f.isFunction with
    | true => exact balanced_function hl hf
    | false =>
      -- one of the two slots is popped, and the root table stays
      have hb : beginCall vm k.name c
          = .ok (none, { c with world, stack := .table c.world.heap.roottable :: c.stack }) := by
        rw [beginCall_eq, hl]
        simp [hf]
      have hp : protocol vm k c
          = .ok ((), { c with world, stack := .table c.world.heap.roottable :: c.stack }) := by
        rw [protocol, bind_ok hb]
        rfl
      constructor
      · rintro ⟨c', h, he⟩
        rw [hp] at h
        cases h
        exact absurd (congrArg List.length he) (by simp)
      · intro h
        rw [Completes, hl] at h
        exact absurd h.1 (by simp [hf])

end MultiScript.Squirrel
