/-
The call protocol of the GameMonkey backend, and a host that works with a context. A call
has its values in its own handle, so its pushes and pops leave the context as it is.
-/
import MultiScript.GameMonkey.Registration

namespace MultiScript.GameMonkey

open Act

variable (vm : GmVm)

/-! ## The protocol -/

def GMScriptStack.pushAll (st : GMScriptStack) : List Push → GmM GMScriptStack
  | [] => return st
  | p :: ps => do
    let r ← st.push p
    pushAll r.2 ps

def GMScriptStack.popAll (st : GMScriptStack) : List Pop → GmM GMScriptStack
  | [] => return st
  | p :: ps => do
    let r ← st.pop p
    popAll r.2 ps

/-- `EndCall`, if it is called at all, and the pops. -/
def GMScriptStack.finish (st : GMScriptStack) (k : Call) : GmM GMScriptStack :=
  if k.ends then do
    let r ← st.endCall vm
    r.2.popAll k.pops
  else return st

/-- A whole use of the protocol. -/
def protocol (k : Call) : GmM Unit := do
  match ← beginCall k.name with
  | none => return
  | some st =>
    let st ← st.pushAll k.pushes
    let st ← st.finish vm k
    st.releaseAfterCall

def perform : ContextOp → GmM Unit
  | .executeString string => do let _ ← executeString vm string
  | .call k => protocol vm k
  | .registerFunction desc => do let _ ← registerFunction desc
  | .registerUserClass desc => do let _ ← registerUserClass desc

/-- A host that works with a context. -/
def host : Run.Machine GMScriptContext ContextOp Unit Fault := ⟨perform vm⟩

/-! ## What the protocol does to the context -/

variable {vm} {c : GMScriptContext}

theorem pushAll_ofCall : ∀ (ps : List Push) (call : GmCall), (GMScriptStack.ofCall call).pushAll ps c
    = .ok (.ofCall { call with params := call.params ++ ps.map GMScriptStack.pushed }, c)
  | [], call => by simp [GMScriptStack.pushAll, pure_ok]
  | p :: ps, call => by
    have hp : (GMScriptStack.ofCall call).push p c
        = .ok ((true, .ofCall { call with params := call.params ++ [GMScriptStack.pushed p] }), c) := rfl
    rw [GMScriptStack.pushAll, bind_ok hp, pushAll_ofCall ps]
    simp

theorem popInt_context {st : GMScriptStack} {value : Int} {r : (Bool × Int) × GMScriptStack} {c' : GMScriptContext}
    (h : st.popInt value c = .ok (r, c')) : c' = c := by
  unfold GMScriptStack.popInt at h
  split at h
  · cases h; rfl
  · split at h
    · split at h <;> cases h <;> rfl
    · split at h <;> cases h <;> rfl

theorem popScriptObject_context {st : GMScriptStack} {r : Option Nat × GMScriptStack} {c' : GMScriptContext}
    (h : st.popScriptObject c = .ok (r, c')) : c' = c := by
  unfold GMScriptStack.popScriptObject at h
  split at h
  · cases h; rfl
  · split at h
    · split at h
      · split at h <;> cases h <;> rfl
      · cases h; rfl
    · split at h <;> cases h <;> rfl

theorem pop_context {st : GMScriptStack} {p : Pop} {r : Answer × GMScriptStack} {c' : GMScriptContext}
    (h : st.pop p c = .ok (r, c')) : c' = c := by
  cases p with
  | int =>
    obtain ⟨q, c₁, hq, h⟩ := bind_ok_inv h
    cases h
    exact popInt_context hq
  | scriptObject =>
    obtain ⟨q, c₁, hq, h⟩ := bind_ok_inv h
    cases h
    exact popScriptObject_context hq

theorem popAll_context : ∀ (ps : List Pop) {st st' : GMScriptStack} {c c' : GMScriptContext},
    st.popAll ps c = .ok (st', c') → c' = c
  | [], _, _, _, _, h => by cases h; rfl
  | p :: ps, _, _, _, _, h => by
    rw [GMScriptStack.popAll] at h
    obtain ⟨r, c₁, hr, hps⟩ := bind_ok_inv h
    exact (popAll_context ps hps).trans (pop_context hr)

theorem releaseAfterCall_context {st : GMScriptStack} {u : Unit} {c' : GMScriptContext}
    (h : st.releaseAfterCall c = .ok (u, c')) : c' = c := by
  unfold GMScriptStack.releaseAfterCall gmAssert at h
  cases hs : st.call.isSome with
  | true => rw [hs] at h; cases h; rfl
  | false => rw [hs] at h; cases h

/-- A call changes the world as the machine does, and nothing where it is not ended. -/
theorem protocol_world {k : Call} {c' : GMScriptContext} (h : protocol vm k c = .ok ((), c')) :
    c'.world = c.world ∨ ∃ r, c.world.globals k.name = .function r ∧ k.ends = true ∧
      c'.world = (vm.call (.function r) (k.pushes.map GMScriptStack.pushed) c.world).2 := by
  obtain ⟨st, c₁, hb, h⟩ := bind_ok_inv h
  unfold beginCall at hb
  split at hb
  · rename_i r hr
    cases hb
    obtain ⟨st, c₂, hp, h⟩ := bind_ok_inv h
    rw [pushAll_ofCall] at hp
    cases hp
    obtain ⟨st', c₃, hf, h⟩ := bind_ok_inv h
    obtain rfl := releaseAfterCall_context h
    unfold GMScriptStack.finish at hf
    split at hf
    · rename_i hends
      obtain ⟨r', c₄, he, hf⟩ := bind_ok_inv hf
      obtain rfl := popAll_context _ hf
      refine .inr ⟨r, hr, hends, ?_⟩
      simp only [GMScriptStack.endCall, GMScriptStack.ofCall, List.nil_append] at he
      split at he <;> rename_i hc <;> cases he <;> rw [hc]
    · cases hf
      exact .inl rfl
  · cases hb
    cases h
    exact .inl rfl

end MultiScript.GameMonkey
