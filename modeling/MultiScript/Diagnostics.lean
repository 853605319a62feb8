/-
Which error texts the logger gets, over whole runs. A Lua text that does not compile is
called all the same, so what is logged is the error of that call. GameMonkey's messages go
into a log of the machine, which is emptied only after a text that does not compile.
-/
import MultiScript.Reporting
import MultiScript.GameMonkey.Protocol

namespace MultiScript

open Act Run

namespace Lua

variable (vm : LuaVm)

/-- All that has been logged after `ExecuteString` of a text whose error, if it has one, is
the last line: the parser's under the status of the load, else that of the call. -/
def ownDiagnostic (string : Bytes) (w : LuaWorld) : List LogCall :=
  match vm.load string w with
  | (some status, message, w') => w'.logged ++ [errorLine vm status message]
  | (none, chunk, w') =>
    match vm.call chunk [] w' with
    | (.returned _, w'') => w''.logged
    | (.raised status message, w'') => w''.logged ++ [errorLine vm status message]

/-- `ExecuteString` logs the text's own error. -/
def Diagnosed : ContextOp → LuaScriptContext → Prop
  | .executeString string, c =>
    ∃ ok c', executeString vm string c = .ok (ok, c') ∧ c'.world.logged = ownDiagnostic vm string c.world
  | _, _ => True

/-- The text compiles, and does not raise without a logger. -/
def Compiles : ContextOp → LuaScriptContext → Prop
  | .executeString string, c => ∃ chunk w, vm.load string c.world = (none, chunk, w) ∧
      ∀ status message w', vm.call chunk [] w = (.raised status message, w') → w'.logger.isSome = true
  | _, _ => True

variable {vm}

theorem diagnosed_of_compiles {e : ContextOp} {c : LuaScriptContext} (h : Compiles vm e c) : Diagnosed vm e c := by
  cases e with
  | executeString string =>
    obtain ⟨chunk, w, hl, hlogger⟩ := h
    show ∃ ok c', _ ∧ _
    rw [executeString_eq hl, ownDiagnostic, hl]
    rcases hr : vm.call chunk [] w with ⟨o, w'⟩
    cases o with
    | returned values =>
      have hc : luaCall vm 0 { c with world := w, slots := chunk :: c.slots }
          = .ok (true, { c with world := w', slots := values.reverse ++ c.slots }) := luaCall_returned [] rfl hr
      exact ⟨_, _, hc, by simp only [hr]⟩
    | raised status message =>
      obtain ⟨-, hsome⟩ := luaCall_logs (c := { c with world := w, slots := chunk :: c.slots }) [] rfl hr
      obtain ⟨c', hc, hw⟩ := hsome (hlogger _ _ _ hr)
      exact ⟨_, c', hc, by simp only [hr, hw]⟩
  | _ => trivial

end Lua

namespace GameMonkey

variable (vm : GmVm)

/-- `ExecuteString` logs the messages that the machine added to its log for this text. -/
def Diagnosed : ContextOp → GMScriptContext → Prop
  | .executeString string, c =>
    ∃ ok c', executeString vm string c = .ok (ok, c') ∧
      c'.world.logged = (vm.executeString string c.world).2.logged ++
        ((vm.executeString string c.world).2.log.drop c.world.log.length).map logLine
  | _, _ => True

/-- What compiles leaves no message in the log, and neither does a call; the messages of the
compiler get to the logger. -/
def Quiet : ContextOp → GMScriptContext → Prop
  | .executeString string, c => (vm.executeString string c.world).2.log = [] ∨
      (vm.executeString string c.world).1 ≠ 0 ∧ (vm.executeString string c.world).2.Reports
  | .call k, c => ∀ r, c.world.globals k.name = .function r → k.ends = true →
      (vm.call (.function r) (k.pushes.map GMScriptStack.pushed) c.world).2.log = []
  | _, _ => True

variable {vm} {c : GMScriptContext}

/-- From an empty log the condition is exact. -/
theorem diagnosed_iff (string : Bytes) (h : c.world.log = []) :
    Diagnosed vm (.executeString string) c ↔ (vm.executeString string c.world).2.log = [] ∨
      (vm.executeString string c.world).1 ≠ 0 ∧ (vm.executeString string c.world).2.Reports := by
  rcases hr : vm.executeString string c.world with ⟨n, w⟩
  simp only [Diagnosed, hr, h, List.length_nil, List.drop_zero]
  cases n with
  | zero =>
    simp only [executeString, hr]
    simp
  | succ n =>
    by_cases hw : w.Reports
    · simp [executeString_refused hr hw, hw]
    · obtain ⟨f, hf⟩ := executeString_stuck hr hw
      have hlog : w.log ≠ [] := fun hnil => hw (.inl hnil)
      simp [hf, hw, hlog]

theorem registerTypeLibrary_log (type : Nat) : ∀ (entries : List (Bytes × GmCFunction × HostPtr)) (w : GmWorld),
    (w.registerTypeLibrary type entries).log = w.log
  | [], _ => rfl
  | entry :: entries, w => registerTypeLibrary_log type entries (w.registerTypeFunction type entry)

theorem gmAssert_context {cond : Bool} {text : String} {u : Unit} {c' : GMScriptContext}
    (h : gmAssert cond text c = .ok (u, c')) : c' = c := by
  cases cond <;> cases h
  rfl

/-- A quiet operation keeps the log empty. -/
theorem perform_log {e : ContextOp} {o : Unit} {c' : GMScriptContext} (h : c.world.log = []) (he : Quiet vm e c)
    (hs : (host vm).step e c = .ok (o, c')) : c'.world.log = [] := by
  cases e with
  | executeString string =>
    obtain ⟨ok, c₁, hx, hs⟩ := bind_ok_inv hs
    cases hs
    rcases hr : vm.executeString string c.world with ⟨_ | n, w⟩
    · unfold executeString at hx
      rw [hr] at hx
      cases hx
      rw [Quiet, hr] at he
      simpa using he
    · by_cases hw : w.Reports
      · rw [executeString_refused hr hw] at hx
        cases hx
        rfl
      · obtain ⟨f, hf⟩ := executeString_stuck hr hw
        rw [hf] at hx
        cases hx
  | call k =>
    rcases protocol_world hs with hw | ⟨r, hr, hends, hw⟩
    · rw [hw, h]
    · rw [hw, he r hr hends]
  | registerFunction desc =>
    cases hs
    exact h
  | registerUserClass desc =>
    obtain ⟨ok, c₁, hx, hs⟩ := bind_ok_inv hs
    cases hs
    obtain ⟨_, c₂, hctor, hx₂⟩ := bind_ok_inv hx
    obtain ⟨_, c₃, hdtor, hx₃⟩ := bind_ok_inv hx₂
    have hc : c₃ = c := (gmAssert_context hdtor).trans (gmAssert_context hctor)
    cases hx₃
    rw [← h, ← hc]
    exact registerTypeLibrary_log _ (gmMethods desc) _

end GameMonkey

/-- Each `ExecuteString` of a run logs the error of its own text: in Lua where every text
compiles; in GameMonkey, from an empty log, where nothing that compiles leaves a message in
it. -/
theorem diagnostics_of_own_text (lua : Lua.LuaVm) (gm : GameMonkey.GmVm) (es : List ContextOp) :
    (∀ c, (Lua.host lua).Meets (Lua.Compiles lua) es c → (Lua.host lua).Meets (Lua.Diagnosed lua) es c) ∧
    ∀ c, c.world.log = [] → (GameMonkey.host gm).Meets (GameMonkey.Quiet gm) es c →
      (GameMonkey.host gm).Meets (GameMonkey.Diagnosed gm) es c := by
  refine ⟨?_, ?_⟩
  · intro c hm
    exact hm.mono fun _ _ => Lua.diagnosed_of_compiles
  · intro c hlog hm
    refine Machine.meets_inv (I := fun c => c.world.log = []) ?_ ?_ hlog hm
    · intro e c o c' hi he hs
      exact GameMonkey.perform_log hi he hs
    · intro e c hi he
      cases e with
      | executeString string => exact (GameMonkey.diagnosed_iff string hi).mpr he
      | _ => trivial

/-- A VM that refuses every text, and cannot call a string. -/
def Lua.LuaVm.refusing (message : Bytes) : Lua.LuaVm :=
  { Lua.LuaVm.ending (.raised .errRun (.string (cstr "attempt to call a string value"))) with
    load := fun _ w => (some .errSyntax, .string message, w) }

/-- A machine that refuses the texts in `refused`, and whose log gets a message of each text. -/
def GameMonkey.GmVm.logging (refused : List Bytes) : GameMonkey.GmVm where
  call _ _ w := (some .null, w)
  executeString string w := (refused.count string, { w with log := w.log ++ [string] })

/-- In Lua the parser's message is not logged. In GameMonkey the message of `f(1);`, which
raises, is logged with the one of `f(;`, which does not compile. -/
theorem diagnostics_of_other_text :
    let c := { Lua.createContext (.binding []) with
      world := { (Lua.createContext (.binding [])).world with logger := some 0 } }
    let g := { GameMonkey.oneFunction with world := { GameMonkey.oneFunction.world with logger := some 0 } }
    (∃ ok c', Lua.executeString (.refusing (cstr "unexpected symbol")) (cstr "x = =") c = .ok (ok, c') ∧
      c'.world.logged =
        [{ text := cstr "EXECUTION ERROR:\n%s\n", args := [some (cstr "attempt to call a string value")] }]) ∧
    ∃ os g', (GameMonkey.host (.logging [cstr "f(;"])).run
        [.executeString (cstr "f(1);"), .executeString (cstr "f(;")] g = .ok (os, g') ∧
      g'.world.logged = [{ text := cstr "f(1);\n" }, { text := cstr "f(;\n" }] :=
  ⟨⟨_, _, rfl, rfl⟩, _, _, rfl, rfl⟩

/-- A text that raises in Lua, and one that GameMonkey refuses, on their own. -/
theorem diagnostics_of_own_text_single :
    let lua := Lua.LuaVm.ending (.raised .errRun (.string (cstr "boom")))
    let gm := GameMonkey.GmVm.logging [cstr "f(;"]
    let c := { Lua.createContext (.binding []) with
      world := { (Lua.createContext (.binding [])).world with logger := some 0 } }
    let g := { GameMonkey.oneFunction with world := { GameMonkey.oneFunction.world with logger := some 0 } }
    (Lua.host lua).Meets (Lua.Diagnosed lua) [.executeString (cstr "f(;")] c ∧
      (GameMonkey.host gm).Meets (GameMonkey.Diagnosed gm) [.executeString (cstr "f(;")] g := by
  intro lua gm c g
  obtain ⟨hlua, hgm⟩ := diagnostics_of_own_text lua gm [.executeString (cstr "f(;")]
  refine ⟨hlua c ⟨⟨_, _, rfl, fun _ _ w h => ?_⟩, fun _ _ _ => trivial⟩, hgm g rfl ⟨?_, fun _ _ _ => trivial⟩⟩
  · cases h
    rfl
  · exact .inr ⟨by decide, .inr ⟨rfl, by decide⟩⟩

end MultiScript
