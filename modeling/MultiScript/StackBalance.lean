/-
The VM stack across host calls, in the two backends that work on the VM's own
stack: when a use of the call protocol and an `ExecuteString` leave the stack as
they found it, and what that means for the calls that come after them.
-/
import MultiScript.Lua.Protocol
import MultiScript.Squirrel.Protocol

namespace MultiScript

open Run

/-! ## The call protocol -/

def Lua.calls (vm : Lua.LuaVm) : Machine Lua.LuaScriptContext Call Unit Fault := ⟨Lua.protocol vm⟩

def Squirrel.calls (vm : Squirrel.SqVm) : Machine Squirrel.SquirrelScriptContext Call Unit Fault :=
  ⟨Squirrel.protocol vm⟩

/-- Calls that complete return one after the other, and leave the frame empty. -/
theorem Lua.calls_return {vm : Lua.LuaVm} {ks : List Call} {c : Lua.LuaScriptContext}
    (h : Lua.FrameIs c .nil []) (hm : (Lua.calls vm).Meets (Lua.Completes vm) ks c) :
    ∃ os c', (Lua.calls vm).run ks c = .ok (os, c') ∧ Lua.FrameIs c' .nil [] := by
  refine Machine.run_returns (I := fun c => Lua.FrameIs c .nil []) ?_ h hm
  intro k c hc hk
  obtain ⟨c', hp, hf⟩ := (Lua.balanced_iff hc.func k).mpr ⟨hc.slots, hk⟩
  rw [hc.func, hc.slots] at hf
  exact ⟨(), c', hp, hf⟩

theorem Squirrel.calls_return {vm : Squirrel.SqVm} {ks : List Call} {c : Squirrel.SquirrelScriptContext}
    (hm : (Squirrel.calls vm).Meets (Squirrel.Completes vm) ks c) :
    ∃ os c', (Squirrel.calls vm).run ks c = .ok (os, c') ∧ c'.stack = c.stack := by
  refine Machine.run_returns (I := fun c' => c'.stack = c.stack) ?_ rfl hm
  intro k c₁ hc hk
  obtain ⟨c', hp, hs⟩ := (Squirrel.balanced_iff vm k c₁).mpr hk
  exact ⟨(), c', hp, hs.trans hc⟩

/-- **Balance of the call protocol.** In Lua a use of the protocol at base level
gives the stack back exactly when the stack is empty and the call completes; in
Squirrel, on any stack, exactly when the call completes. After any sequence of
calls that complete the stack is what it was, and the next `BeginCall` of Lua
reads no slot of another call and does not hit its assertion. -/
theorem call_protocol_balance (lua : Lua.LuaVm) (sq : Squirrel.SqVm) (k : Call) (ks : List Call) :
    (∀ c : Lua.LuaScriptContext, Lua.BaseLevel c →
      (Lua.Balanced lua k c ↔ c.slots = [] ∧ Lua.Completes lua k c)) ∧
    (∀ c : Squirrel.SquirrelScriptContext, Squirrel.Balanced sq k c ↔ Squirrel.Completes sq k c) ∧
    (∀ c : Lua.LuaScriptContext, Lua.BaseLevel c → c.slots = [] →
      (Lua.calls lua).Meets (Lua.Completes lua) ks c →
      ∃ os c', (Lua.calls lua).run ks c = .ok (os, c') ∧ c'.slots = [] ∧
        Lua.readLeftover lua c' = .ok ((), c') ∧
        ∀ name f, Lua.beginCall lua name c' = .error f → f = .scriptError) ∧
    (∀ c : Squirrel.SquirrelScriptContext, (Squirrel.calls sq).Meets (Squirrel.Completes sq) ks c →
      ∃ os c', (Squirrel.calls sq).run ks c = .ok (os, c') ∧ c'.stack = c.stack) := by
  refine ⟨fun c hb => Lua.balanced_iff hb k, Squirrel.balanced_iff sq k, ?_, fun c => Squirrel.calls_return⟩
  intro c hb hs hm
  obtain ⟨os, c', hr, hf⟩ := Lua.calls_return ⟨hb, hs⟩ hm
  exact ⟨os, c', hr, hf.slots, if_pos hf.slots, fun name f => Lua.beginCall_fault hf.slots⟩

/-- A Lua function that raises leaves its message behind, and the next call stops
the host. -/
theorem call_protocol_leaves_message :
    let vm := Lua.LuaVm.ending (.raised .errRun (.string (cstr "boom")))
    let c := { Lua.createContext (.binding [cstr "f"]) with
      world := { (Lua.createContext (.binding [cstr "f"])).world with logger := some 0 } }
    Lua.BaseLevel c ∧ c.slots = [] ∧ ¬ Lua.Balanced vm { name := cstr "f" } c ∧
      (Lua.calls vm).run [{ name := cstr "f" }, { name := cstr "f" }] c
        = .error (.assertion "lua_gettop(L) == 0") := by
  refine ⟨rfl, rfl, ?_, rfl⟩
  rintro ⟨c', h, hf⟩
  cases h
  cases hf.slots

theorem call_protocol_balance_number :
    let vm := Lua.LuaVm.ending (.returned [.number (.ofInt 5)])
    let c := Lua.createContext (.binding [cstr "f"])
    let k : Call := { name := cstr "f", pushes := [.int 1], pops := [.int] }
    Lua.Balanced vm k c ∧
      ∃ os c', (Lua.calls vm).run [k, { name := cstr "g" }] c = .ok (os, c') ∧ c'.slots = [] := by
  intro vm c k
  have hb : Lua.BaseLevel c := rfl
  have hbalance := call_protocol_balance vm (.ending none) k [k, { name := cstr "g" }]
  refine ⟨(hbalance.1 c hb).mpr ⟨rfl, fun _ => ⟨rfl, trivial⟩⟩, ?_⟩
  obtain ⟨os, c', hr, hs, -⟩ := hbalance.2.2.1 c hb rfl
    ⟨fun _ => ⟨rfl, trivial⟩, fun _ _ h => ⟨by cases h; exact fun h => (nomatch h), fun _ _ _ => trivial⟩⟩
  exact ⟨os, c', hr, hs⟩

/-! ## `ExecuteString` -/

/-- **Neutrality of `ExecuteString`.** In Lua it gives the frame back exactly when
what it calls returns without a result; in Squirrel it gives the stack and the frame back
exactly when the script does not suspend the VM. A run of scripts that do in Lua, of calls
that complete and of registrations, from an empty frame at base level, hits none of the
assertions that the Lua stack is empty. -/
theorem executeString_neutrality (lua : Lua.LuaVm) (sq : Squirrel.SqVm) (suspends : Squirrel.Suspends) (string : Bytes)
    (es : List ContextOp) :
    (∀ c : Lua.LuaScriptContext, Lua.Neutral lua string c ↔ Lua.Silent lua string c) ∧
    (∀ c : Squirrel.SquirrelScriptContext, c.stackbase ≤ c.stack.length →
      (Squirrel.Neutral sq suspends string c ↔ ¬ Squirrel.Suspended sq suspends string c.world)) ∧
    (∀ c : Lua.LuaScriptContext, Lua.BaseLevel c → c.slots = [] → (Lua.host lua).Meets (Lua.Tidy lua) es c →
      ∀ f, (Lua.host lua).run es c = .error f → f ≠ .assertion "lua_gettop(L) == 0") :=
  ⟨Lua.neutral_iff string, fun _ => Squirrel.neutral_iff,
    fun _ hb hs hm _ hr => Lua.host_run_assertion ⟨hb, hs⟩ hm hr⟩

/-- A script that calls `suspend`: its frame has `this` in it, and the slots of the call. -/
def Squirrel.suspending : Squirrel.Suspends := fun _ args _ =>
  some { slots := args ++ Squirrel.SqValue.nativeclosure 0 :: args, base := 0 }

/-- In Lua a chunk that returns a value leaves it, and the next call stops the host. In
Squirrel `suspend();` is answered true with its frame left. -/
theorem executeString_leaves_result :
    let vm := Lua.LuaVm.ending (.returned [.string (cstr "x")])
    let c := Lua.createContext (.binding [])
    let sq := Squirrel.SqVm.ending (some .null)
    let q := Squirrel.createContext (.binding [])
    (Lua.BaseLevel c ∧ c.slots = [] ∧ ¬ Lua.Neutral vm (cstr "return 'x'") c ∧
      (Lua.host vm).run [.executeString (cstr "return 'x'"), .call { name := cstr "f" }] c
        = .error (.assertion "lua_gettop(L) == 0")) ∧
    ∃ q', Squirrel.executeStringIn sq Squirrel.suspending (cstr "suspend();") q = .ok (true, q') ∧
      q.stack = [.table 0] ∧ q.stackbase = 0 ∧
      q'.stack = [.table 0, .closure 0, .table 0] ∧ q'.stackbase = 2 := by
  refine ⟨⟨rfl, rfl, ?_, rfl⟩, _, rfl, rfl, rfl, rfl, rfl⟩
  rintro ⟨ok, c', h, hf⟩
  cases h
  cases hf.slots

theorem executeString_neutrality_silent :
    let vm := Lua.LuaVm.ending (.returned [])
    let c := Lua.createContext (.binding [])
    Lua.Neutral vm (cstr "x = 1") c ∧
      Squirrel.Neutral (.ending (some .null)) Squirrel.never (cstr "x <- 1;") (Squirrel.createContext (.binding [])) ∧
      (Lua.host vm).run [.executeString (cstr "x = 1"), .call { name := cstr "f" }] c
        ≠ .error (.assertion "lua_gettop(L) == 0") := by
  intro vm c
  have hb : Lua.BaseLevel c := rfl
  have hneutral := executeString_neutrality vm (.ending (some .null)) Squirrel.never
  have hrun := (hneutral (cstr "x = 1") [.executeString (cstr "x = 1"), .call { name := cstr "f" }]).2.2
  refine ⟨((hneutral (cstr "x = 1") []).1 c).mpr rfl, ?_, fun h => ?_⟩
  · refine ((hneutral (cstr "x <- 1;") []).2.1 (Squirrel.createContext (.binding [])) (Nat.zero_le _)).mpr ?_
    rintro ⟨f, w, v, w', s, -, -, hs⟩
    cases hs
  · refine hrun c hb rfl ⟨rfl, fun _ _ h => ⟨?_, fun _ _ _ => trivial⟩⟩ _ h rfl
    cases h
    exact fun h => (nomatch h)

end MultiScript
