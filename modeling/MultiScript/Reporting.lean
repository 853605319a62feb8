/-
What `EndCall` and `ExecuteString` answer, and what they log, against how the script
ended. Lua and Squirrel hand on the status of their VM. GameMonkey counts the errors
of its compiler, and OCaml nothing.
-/
import MultiScript.Lua.Protocol
import MultiScript.Squirrel.Protocol
import MultiScript.GameMonkey.Context
import MultiScript.OutputBuffers

namespace MultiScript

open Act Run

/-! ## The end of a call -/

/-- How the call of a script function ends: it returns values, or an error is raised, or
it waits (a GameMonkey thread that sleeps, blocks or yields, a suspended Squirrel VM). -/
inductive FunctionEnd (V : Type)
  | returned (values : List V)
  | raised
  | waits

/-- `EndCall` answers true exactly if the function returned, with the number of its
values, and false exactly if it raised. -/
def EndCallReports {V S C : Type} (getNumParams : S → Int) (r : Except Fault ((Bool × S) × C)) : FunctionEnd V → Prop
  | .returned values => ∃ st c, r = .ok ((true, st), c) ∧ getNumParams st = values.length
  | .raised => ∃ st c, r = .ok ((false, st), c) ∧ getNumParams st = 0
  | .waits => ∀ ok st c, r ≠ .ok ((ok, st), c)

namespace Lua

variable {vm : LuaVm} {c : LuaScriptContext}

/-- What `lua_pcall` makes of the end of a function. -/
inductive CallAnswers : FunctionEnd LuaValue → LuaOutcome → Prop
  | returned (values : List LuaValue) : CallAnswers (.returned values) (.returned values)
  | raised (status : LuaError) (message : LuaValue) : CallAnswers .raised (.raised status message)

/-- The stack of a call with `n` arguments, before `EndCall`. -/
def calling (n : Nat) : LuaScriptStack := { numPushed := n, numParams := 0, isCall := true }

/-- The text of an error message: `NULL` where it is no string and no number. -/
def messageText (vm : LuaVm) : LuaValue → Option Bytes
  | .string s => some s
  | .number n => some (vm.number2str n)
  | _ => none

/-- What `LuaCall` logs of an error. -/
def errorLine (vm : LuaVm) (status : LuaError) (message : LuaValue) : LogCall :=
  { text := status.format, args := [messageText vm message] }

theorem luaTolstring_top {message : LuaValue} {rest : List LuaValue} (h : c.slots = message :: rest) :
    ∃ slots, luaTolstring vm (-1) c = .ok (messageText vm message, { c with slots }) := by
  unfold luaTolstring
  rw [at_top h]
  cases message <;> exact ⟨_, rfl⟩

/-- A call that raises is logged, under the status of the call. Without a logger the host
does not come back from it. -/
theorem luaCall_logs {f message : LuaValue} (args : List LuaValue) {rest : List LuaValue} {status : LuaError}
    {w : LuaWorld} (h : c.slots = args.reverse ++ f :: rest)
    (hcall : vm.call f args c.world = (.raised status message, w)) :
    (w.logger = none → luaCall vm args.length c = .error .nullDeref) ∧
    (w.logger.isSome = true → ∃ c', luaCall vm args.length c = .ok (false, c') ∧
      c'.world = { w with logged := w.logged ++ [errorLine vm status message] }) := by
  have hp : luaPcall vm args.length c = .ok (some status, { c with world := w, slots := message :: rest }) := by
    have htake : c.slots.take args.length = args.reverse := by simp [h]
    have hdrop : c.slots.drop args.length = f :: rest := by simp [h]
    simp only [luaPcall, htake, hdrop, List.reverse_reverse, hcall]
  obtain ⟨slots, htext⟩ := @luaTolstring_top vm { c with world := w, slots := message :: rest } message rest rfl
  have hrun : luaCall vm args.length c
      = (loggerOutput status.format [messageText vm message] >>= fun _ => pure false) { c with world := w, slots } := by
    rw [luaCall, bind_ok hp]
    exact bind_ok htext
  rw [hrun]
  constructor
  · intro hl
    refine bind_error ?_
    simp only [loggerOutput, hl]
  · intro hl
    obtain ⟨l, hl⟩ := Option.isSome_iff_exists.mp hl
    have hout : loggerOutput status.format [messageText vm message] { c with world := w, slots } = .ok ((),
        { c with slots, world := { w with logged := w.logged ++ [errorLine vm status message] } }) := by
      simp only [loggerOutput, hl, errorLine]
    exact ⟨_, (bind_ok hout).trans rfl, rfl⟩

theorem endCall_reports {e : FunctionEnd LuaValue} {f : LuaValue} {args : List LuaValue}
    (hs : c.slots = args.reverse ++ [f]) (he : CallAnswers e (vm.call f args c.world).1) :
    EndCallReports LuaScriptStack.getNumParams ((calling args.length).endCall vm c) e ↔
      (e = .raised → (vm.call f args c.world).2.logger.isSome = true) := by
  rcases hr : vm.call f args c.world with ⟨o, w⟩
  rw [hr] at he
  cases he with
  | returned values =>
    refine ⟨fun _ h => (by cases h), fun _ => ?_⟩
    exact ⟨_, _, endCall_returned rfl rfl hs hr, by simp [LuaScriptStack.getNumParams]⟩
  | raised status message =>
    obtain ⟨hnone, hsome⟩ := luaCall_logs args hs hr
    have hrun : (calling args.length).endCall vm c = (luaCall vm args.length >>= fun ok =>
        if ok then (do
          let top ← luaGettop
          return (true, { calling args.length with numParams := top }))
        else return (false, calling args.length)) c :=
      bind_ok (luaAssert_true _)
    cases hl : w.logger with
    | none =>
      rw [hrun, bind_error (hnone hl)]
      simp [EndCallReports]
    | some l =>
      obtain ⟨c', hc, -⟩ := hsome (by rw [hl]; rfl)
      rw [hrun, bind_ok hc]
      exact ⟨fun _ _ => rfl, fun _ => ⟨_, _, rfl, rfl⟩⟩

end Lua

namespace Squirrel

variable {vm : SqVm} {c : SquirrelScriptContext}

/-- What `sq_call` makes of the end of a function: one that returns nothing has null for a
result, and one that suspends the VM answers as if it had returned. -/
inductive CallAnswers : FunctionEnd SqValue → Option SqValue → Prop
  | nothing : CallAnswers (.returned []) (some .null)
  | value (v : SqValue) : CallAnswers (.returned [v]) (some v)
  | raised : CallAnswers .raised none
  | suspended (v : SqValue) : CallAnswers .waits (some v)

/-- The stack of a call with `n` arguments, before `EndCall`. -/
def calling (n : Nat) : SquirrelScriptStack := { numPushed := n, numParams := 0, isCall := true }

/-- The function raises, or returns a value. -/
def Reported (e : FunctionEnd SqValue) : Prop := e = .raised ∨ ∃ v, e = .returned [v]

theorem endCall_reports {e : FunctionEnd SqValue} {f env root : SqValue} {args below : List SqValue}
    (hs : c.stack = args.reverse ++ env :: f :: root :: below)
    (he : CallAnswers e (vm.call f (env :: args) c.world).1) :
    EndCallReports SquirrelScriptStack.getNumParams ((calling args.length).endCall vm c) e ↔ Reported e := by
  have hs' : c.stack = (env :: args).reverse ++ f :: root :: below := by simp [hs]
  rcases hr : vm.call f (env :: args) c.world with ⟨o, w⟩
  rw [hr] at he
  have hsome : ∀ v, o = some v → (calling args.length).endCall vm c =
    .ok ((true, { calling args.length with numParams := 1 }),
      { c with world := w, stack := v :: f :: root :: below }) :=
    fun v ho => endCall_some rfl rfl hs' (ho ▸ hr)
  cases he with
  | nothing => simp [hsome _ rfl, EndCallReports, Reported, SquirrelScriptStack.getNumParams]
  | value v => simp [hsome _ rfl, EndCallReports, Reported, SquirrelScriptStack.getNumParams]
  | raised =>
    rw [endCall_none rfl rfl hs' hr]
    exact ⟨fun _ => .inl rfl, fun _ => ⟨_, _, rfl, rfl⟩⟩
  | suspended v => simp [hsome _ rfl, EndCallReports, Reported]

end Squirrel

namespace GameMonkey

variable {vm : GmVm} {c : GMScriptContext}

/-- What `gmCall::End` makes of the end of a function. A function that raises kills its
thread as one that returns does, with the result still null; the thread of a C function that
raises runs on in what is no bytecode. -/
inductive CallAnswers : FunctionEnd GmValue → Option GmValue → Prop
  | nothing : CallAnswers (.returned []) (some .null)
  | value (v : GmValue) : CallAnswers (.returned [v]) (some v)
  | killed : CallAnswers .raised (some .null)
  | cFunction (o : Option GmValue) : CallAnswers .raised o
  | waits : CallAnswers .waits none

theorem endCall_reports {e : FunctionEnd GmValue} {call : GmCall}
    (he : CallAnswers e (vm.call call.function call.params c.world).1) :
    EndCallReports GMScriptStack.getNumParams ((GMScriptStack.ofCall call).endCall vm c) e ↔
    ∃ v, e = .returned [v] := by
  rcases hr : vm.call call.function call.params c.world with ⟨o, w⟩
  rw [hr] at he
  have hok : ∃ n st, (GMScriptStack.ofCall call).endCall vm c = .ok ((true, st), { c with world := w }) ∧
      st.getNumParams = n ∧ n = if o.isSome then 1 else 0 := by
    cases o <;> simp [GMScriptStack.endCall, GMScriptStack.ofCall, hr, GMScriptStack.getNumParams]
  obtain ⟨n, st, hok, rfl, hn⟩ := hok
  rw [hok]
  cases he with
  | nothing => simp [EndCallReports, hn]
  | value v => simp [EndCallReports, hn]
  | killed => simp [EndCallReports]
  | cFunction o => simp [EndCallReports]
  | waits => simp [EndCallReports]

end GameMonkey

namespace Ocaml

variable {vm : OcamlVm} {p : OcamlProcess}

/-- What `caml_callback` makes of the end of a function. -/
inductive CallAnswers : FunctionEnd Word → Option Word → Prop
  | unit : CallAnswers (.returned []) (some valUnit)
  | value (v : Word) : CallAnswers (.returned [v]) (some v)
  | raised : CallAnswers .raised none

theorem ocamlPrintCallback_ok {id : Nat} {ctx : OcamlScriptContext} (chunks : List Bytes) (hid : p.current = some id)
    (hctx : p.contexts id = some ctx) : ∃ p', ocamlPrintCallback chunks p = .ok ((), p') := by
  have hcur : getCurrent p = .ok (some id, p) := by rw [← hid]; rfl
  have hget : context id p = .ok (ctx, p) := by simp only [context, hctx]
  exact ⟨_, (bind_ok hcur).trans ((bind_ok hget).trans rfl)⟩

/-- The stack of a call with arguments, before `EndCall`. -/
def calling (name : Bytes) (args : List Word) : OcamlScriptStack :=
  { numPushed := args.length, numParams := 0, values := args, result := valUnit, closure := some name }

theorem callback_ok {closure : Closure} {args : List Word} {o : Option Word} {chunks : List Bytes} {rt : CamlRuntime}
    {p' : OcamlProcess} (hr : vm.callback closure args p.rt = ((o, chunks), rt))
    (hp : ocamlPrintCallback chunks { p with rt } = .ok ((), p')) :
    OcamlScriptStack.callback vm closure args p = o.elim (.error .scriptError) fun v => .ok (v, p') := by
  have hp' : ocamlPrintCallback (vm.callback closure args p.rt).1.2 { p with rt := (vm.callback closure args p.rt).2 }
      = .ok ((), p') := by rw [hr]; exact hp
  have hrt : getRt p = .ok (p.rt, p) := rfl
  rw [OcamlScriptStack.callback, bind_ok hrt, bind_ok (show setRt _ p = .ok ((), _) from rfl)]
  refine (bind_ok hp').trans ?_
  rw [hr]
  cases o <;> rfl

/-- `EndCall` with an argument: the value of the closure is called, and its result kept. -/
theorem endCall_run {name : Bytes} {closure : Closure} {args : List Word} (hname : p.rt.named name = some closure)
    (hargs : args ≠ []) :
    (calling name args).endCall vm p
      = (OcamlScriptStack.callback vm closure args >>= fun result =>
          return (true, { calling name args with result, numParams := 1 })) p := by
  have hassert : ocamlAssert true "m_isCall" p = .ok ((), p) := rfl
  have hrt : getRt p = .ok (p.rt, p) := rfl
  have hvalues : (calling name args).values ≠ [] := hargs
  rw [OcamlScriptStack.endCall]
  refine (bind_ok hassert).trans ?_
  rw [if_neg hvalues, bind_ok hrt]
  simp only [calling, Option.bind_some, hname]

theorem endCall_reports {e : FunctionEnd Word} {name : Bytes} {closure : Closure} {args : List Word} {id : Nat}
    {ctx : OcamlScriptContext} (hname : p.rt.named name = some closure) (hid : p.current = some id)
    (hctx : p.contexts id = some ctx) (he : CallAnswers e (vm.callback closure args p.rt).1.1) :
    EndCallReports OcamlScriptStack.getNumParams ((calling name args).endCall vm p) e ↔
      args ≠ [] ∧ ∃ v, e = .returned [v] := by
  rcases hr : vm.callback closure args p.rt with ⟨⟨o, chunks⟩, rt⟩
  rw [hr] at he
  have hassert : ocamlAssert true "m_isCall" p = .ok ((), p) := rfl
  by_cases hargs : args = []
  · have hf : ∃ g, (calling name args).endCall vm p = .error g := by
      subst hargs
      exact ⟨_, (bind_ok hassert).trans rfl⟩
    obtain ⟨g, hf⟩ := hf
    rw [hf]
    cases he <;> simp [EndCallReports, hargs]
  · obtain ⟨p', hp⟩ := @ocamlPrintCallback_ok { p with rt } id ctx chunks hid hctx
    have hrun := @endCall_run vm p name closure args hname hargs
    have hcall := callback_ok hr hp
    cases he with
    | raised =>
      rw [hrun, bind_error hcall]
      simp [EndCallReports]
    | unit =>
      rw [hrun, bind_ok hcall]
      simp [EndCallReports, pure_ok, OcamlScriptStack.getNumParams]
    | value v =>
      rw [hrun, bind_ok hcall]
      simp [EndCallReports, pure_ok, OcamlScriptStack.getNumParams, hargs]

end Ocaml

/-- `EndCall` reports the end of the call: in Lua where no error is raised without a logger,
in Squirrel where the function returns something or raises, in GameMonkey and OCaml only
where it returns a value, in OCaml to at least one argument. -/
theorem endCall_reports_end (lua : Lua.LuaVm) (sq : Squirrel.SqVm) (gm : GameMonkey.GmVm) (ocaml : Ocaml.OcamlVm) :
    (∀ c e f args, c.slots = args.reverse ++ [f] → Lua.CallAnswers e (lua.call f args c.world).1 →
      (EndCallReports Lua.LuaScriptStack.getNumParams ((Lua.calling args.length).endCall lua c) e ↔
        (e = .raised → (lua.call f args c.world).2.logger.isSome = true))) ∧
    (∀ c e f env root args below, c.stack = args.reverse ++ env :: f :: root :: below →
      Squirrel.CallAnswers e (sq.call f (env :: args) c.world).1 →
      (EndCallReports Squirrel.SquirrelScriptStack.getNumParams ((Squirrel.calling args.length).endCall sq c) e ↔
        Squirrel.Reported e)) ∧
    (∀ c e call, GameMonkey.CallAnswers e (gm.call call.function call.params c.world).1 →
      (EndCallReports GameMonkey.GMScriptStack.getNumParams ((GameMonkey.GMScriptStack.ofCall call).endCall gm c) e ↔
        ∃ v, e = .returned [v])) ∧
    ∀ p e name closure args id ctx, p.rt.named name = some closure → p.current = some id → p.contexts id = some ctx →
      Ocaml.CallAnswers e (ocaml.callback closure args p.rt).1.1 →
      (EndCallReports Ocaml.OcamlScriptStack.getNumParams ((Ocaml.calling name args).endCall ocaml p) e ↔
        args ≠ [] ∧ ∃ v, e = .returned [v]) := by
  refine ⟨?_, ?_, ?_, ?_⟩
  · intro c e f args hs he
    exact Lua.endCall_reports hs he
  · intro c e f env root args below hs he
    exact Squirrel.endCall_reports hs he
  · intro c e call he
    exact GameMonkey.endCall_reports he
  · intro p e name closure args id ctx hname hid hctx he
    exact Ocaml.endCall_reports hname hid hctx he

/-- A machine whose functions all end with `o`. -/
def GameMonkey.GmVm.ending (o : Option GameMonkey.GmValue) : GameMonkey.GmVm where
  call _ _ w := (o, w)
  executeString _ w := (0, w)

/-- A context with a function `f`. -/
def GameMonkey.oneFunction : GameMonkey.GMScriptContext :=
  GameMonkey.createContext 1 (fun s => if s = cstr "f" then .function 0 else .null) fun _ => .other 0

/-- `f` raises, and `EndCall` answers true, with one value. -/
theorem endCall_after_error :
    ∃ st st' c', GameMonkey.beginCall (cstr "f") GameMonkey.oneFunction = .ok (some st, GameMonkey.oneFunction) ∧
      GameMonkey.CallAnswers .raised (some .null) ∧
      st.endCall (.ending (some .null)) GameMonkey.oneFunction = .ok ((true, st'), c') ∧ st'.getNumParams = 1 :=
  ⟨_, _, _, rfl, .killed, rfl, rfl⟩

/-- An interpreter whose functions return their first argument. -/
def Ocaml.OcamlVm.echoing : Ocaml.OcamlVm :=
  { Ocaml.OcamlVm.printing [] with callback := fun _ args rt => ((args.head?, []), rt) }

/-- One context, and a closure `f`. -/
def Ocaml.oneClosure : Ocaml.OcamlProcess :=
  { Ocaml.OcamlProcess.initial (some []) with
    contexts := fun _ => some { functions := [], dirtyFakedDLL := false, logger := none, logged := [] }
    current := some 0
    rt := { Ocaml.CamlRuntime.initial with
      named := fun s => if s = cstr "f" then some { code := 0, entry := 0 } else none } }

/-- `f(5)` returns, in each language, and one value is counted. -/
theorem endCall_reports_end_value :
    let five : Lua.LuaValue := Lua.LuaValue.number (.ofInt 5)
    let c : Lua.LuaScriptContext := { Lua.createContext (.binding [cstr "f"]) with slots := [five, .function 0] }
    let q : Squirrel.SquirrelScriptContext :=
      { Squirrel.createContext (.binding [cstr "f"]) with
        stack := [Squirrel.SqValue.integer 5, .table 0, .closure 0, .table 0] }
    let call : GameMonkey.GmCall := { function := .function 0, params := [GameMonkey.GmValue.int 5], returnVar := none }
    EndCallReports Lua.LuaScriptStack.getNumParams ((Lua.calling 1).endCall (.ending (.returned [five])) c)
        (.returned [five]) ∧
      EndCallReports Squirrel.SquirrelScriptStack.getNumParams
        ((Squirrel.calling 1).endCall (.ending (some (.integer 5))) q)
        (.returned [Squirrel.SqValue.integer 5]) ∧
      EndCallReports GameMonkey.GMScriptStack.getNumParams
        ((GameMonkey.GMScriptStack.ofCall call).endCall (.ending (some (.int 5))) GameMonkey.oneFunction)
        (.returned [GameMonkey.GmValue.int 5]) ∧
      EndCallReports Ocaml.OcamlScriptStack.getNumParams
        ((Ocaml.calling (cstr "f") [Ocaml.valLong 5]).endCall .echoing Ocaml.oneClosure)
        (.returned [Ocaml.valLong 5]) := by
  intro five c q call
  have h := endCall_reports_end (.ending (.returned [five])) (.ending (some (.integer 5))) (.ending (some (.int 5)))
    .echoing
  refine ⟨?_, ?_, ?_, ?_⟩
  · exact (h.1 c (.returned [five]) (.function 0) [five] rfl (.returned _)).mpr fun he => (by cases he)
  · exact (h.2.1 q (.returned [.integer 5]) (.closure 0) (.table 0) (.table 0) [.integer 5] [] rfl (.value _)).mpr
      (.inr ⟨_, rfl⟩)
  · exact (h.2.2.1 GameMonkey.oneFunction (.returned [.int 5]) call (.value _)).mpr ⟨_, rfl⟩
  · exact (h.2.2.2 Ocaml.oneClosure (.returned [Ocaml.valLong 5]) (cstr "f") _ [Ocaml.valLong 5] 0 _ rfl rfl rfl
      (.value _)).mpr ⟨List.cons_ne_nil _ _, _, rfl⟩

/-! ## The end of a script -/

/-- How a script text ends: it does not compile, or its main function ends. -/
inductive ScriptEnd (V : Type)
  | refused
  | ran (e : FunctionEnd V)

/-- `ExecuteString` answers true exactly if the script compiled and ran to its end, and
false exactly if it did not compile or raised. -/
def ExecuteReports {V C : Type} (r : Except Fault (Bool × C)) : ScriptEnd V → Prop
  | .refused => ∃ c, r = .ok (false, c)
  | .ran (.returned _) => ∃ c, r = .ok (true, c)
  | .ran .raised => ∃ c, r = .ok (false, c)
  | .ran .waits => ∀ ok c, r ≠ .ok (ok, c)

namespace Lua

variable {vm : LuaVm} {c : LuaScriptContext}

/-- What `luaL_loadstring` and `lua_pcall` make of the end of a script. -/
inductive ScriptAnswers (vm : LuaVm) (string : Bytes) (w : LuaWorld) : ScriptEnd LuaValue → Prop
  | refused {status : LuaError} {v : LuaValue} {w' : LuaWorld} (h : vm.load string w = (some status, v, w')) :
      ScriptAnswers vm string w .refused
  | ran {e : FunctionEnd LuaValue} {v : LuaValue} {w' : LuaWorld} (h : vm.load string w = (none, v, w'))
      (he : CallAnswers e (vm.call v [] w').1) : ScriptAnswers vm string w (.ran e)

/-- What the load pushed, the chunk or the message, is called. A message does not return,
and nothing raises without a logger. -/
def ScriptReported (vm : LuaVm) (string : Bytes) (w : LuaWorld) : Prop :=
  match vm.load string w with
  | (status, v, w') =>
    match vm.call v [] w' with
    | (.returned _, _) => status = none
    | (.raised _ _, w'') => w''.logger.isSome = true

theorem executeString_reports {e : ScriptEnd LuaValue} {string : Bytes} (he : ScriptAnswers vm string c.world e) :
    ExecuteReports (executeString vm string c) e ↔ ScriptReported vm string c.world := by
  rcases hl : vm.load string c.world with ⟨status, v, w⟩
  rcases hr : vm.call v [] w with ⟨o, w'⟩
  have hreported : ScriptReported vm string c.world ↔ match o with
      | .returned _ => status = none
      | .raised _ _ => w'.logger.isSome = true := by
    unfold ScriptReported
    rw [hl]
    simp only [hr]
    cases o <;> rfl
  have hexec := executeString_eq hl
  rw [hreported]
  cases o with
  | returned values =>
    have hc : luaCall vm 0 { c with world := w, slots := v :: c.slots }
        = .ok (true, { c with world := w', slots := values.reverse ++ c.slots }) := luaCall_returned [] rfl hr
    rw [hexec, hc]
    cases he with
    | refused h =>
      rw [hl] at h
      cases h
      simp [ExecuteReports]
    | ran h hcall =>
      rw [hl] at h
      cases h
      rw [hr] at hcall
      cases hcall
      simp [ExecuteReports]
  | raised st message =>
    obtain ⟨hnone, hsome⟩ := luaCall_logs (c := { c with world := w, slots := v :: c.slots }) [] rfl hr
    have hfalse : (∃ c', executeString vm string c = .ok (false, c')) ↔ w'.logger.isSome = true := by
      rw [hexec]
      cases hw : w'.logger with
      | none =>
        rw [show luaCall vm 0 { c with world := w, slots := v :: c.slots } = _ from hnone hw]
        simp
      | some l =>
        obtain ⟨c', hc, -⟩ := hsome (by rw [hw]; rfl)
        exact ⟨fun _ => rfl, fun _ => ⟨c', hc⟩⟩
    cases he with
    | refused h => exact hfalse
    | ran h hcall =>
      rw [hl] at h
      cases h
      rw [hr] at hcall
      cases hcall
      exact hfalse

end Lua

namespace Squirrel

variable {vm : SqVm} {c : SquirrelScriptContext}

/-- What `sq_compile` and `sq_call` make of the end of a script. -/
inductive ScriptAnswers (vm : SqVm) (string : Bytes) (w : SqWorld) : ScriptEnd SqValue → Prop
  | refused {w' : SqWorld} (h : vm.compile string w = (none, w')) : ScriptAnswers vm string w .refused
  | ran {e : FunctionEnd SqValue} {f : SqValue} {w' : SqWorld} (h : vm.compile string w = (some f, w'))
      (he : CallAnswers e (vm.call f [.table w'.heap.roottable] w').1) : ScriptAnswers vm string w (.ran e)

/-- `ExecuteString` answers what `sq_call` does. -/
theorem executeString_compiled {string : Bytes} {f : SqValue} {w : SqWorld}
    (h : vm.compile string c.world = (some f, w)) :
    ∃ c', executeString vm string c = .ok ((vm.call f [.table w.heap.roottable] w).1.isSome, c') := by
  have hcall : ∃ w', sqCall vm 1 false { c with world := w, stack := .table w.heap.roottable :: f :: c.stack }
      = .ok ((vm.call f [.table w.heap.roottable] w).1.isSome, { c with world := w', stack := f :: c.stack }) := by
    rcases hcl : vm.call f [.table w.heap.roottable] w with ⟨_ | v, w'⟩
    · exact ⟨w', sqCall_none [.table w.heap.roottable] rfl hcl⟩
    · exact ⟨w', sqCall_some [.table w.heap.roottable] rfl hcl⟩
  obtain ⟨w', hcall⟩ := hcall
  refine ⟨{ c with world := w' }, ?_⟩
  rw [executeString, executeStringIn_compiled h]
  exact (bind_ok hcall).trans rfl

theorem executeString_reports {e : ScriptEnd SqValue} {string : Bytes} (he : ScriptAnswers vm string c.world e) :
    ExecuteReports (executeString vm string c) e ↔ e ≠ .ran .waits := by
  cases he with
  | @refused w h =>
    rw [executeString, executeStringIn_refused h]
    simp [ExecuteReports]
  | ran h hcall =>
    obtain ⟨c', hc⟩ := executeString_compiled (c := c) h
    rw [hc]
    generalize vm.call _ _ _ = r at hcall
    obtain ⟨o, w⟩ := r
    cases hcall <;> simp [ExecuteReports]

/-- `ExecuteString` of a script that prints these lines while it compiles and runs, its errors
among them. What the logger has got is in the world that the VM leaves; a line that does not
fit the buffer ends the process. -/
def executeStringPrinting (vm : SqVm) (printed : List SqOutput) (string : Bytes) : SqM Bool := fun c =>
  match printLines printed c with
  | .error f => .error f
  | .ok _ => executeString vm string c

/-- The script ends, and each line that it prints fits; a script that suspends the VM is not
answered only where a line does not fit. -/
def ScriptReported (printed : List SqOutput) (w : SqWorld) : ScriptEnd SqValue → Prop
  | .ran .waits => ¬ LinesFit printed w
  | _ => LinesFit printed w

theorem executeStringPrinting_reports {e : ScriptEnd SqValue} {string : Bytes} {printed : List SqOutput}
    (he : ScriptAnswers vm string c.world e) :
    ExecuteReports (executeStringPrinting vm printed string c) e ↔ ScriptReported printed c.world e := by
  by_cases hf : LinesFit printed c.world
  · obtain ⟨c', hprinted⟩ := (printLines_returns printed c).mpr hf
    have hexec : executeStringPrinting vm printed string c = executeString vm string c := by
      simp only [executeStringPrinting, hprinted]
    rw [hexec, executeString_reports he]
    cases he with
    | refused => simp [ScriptReported, hf]
    | ran h hcall =>
      generalize (vm.call _ _ _).1 = o at hcall
      cases hcall <;> simp [ScriptReported, hf]
  · have hexec : ∃ f, executeStringPrinting vm printed string c = .error f := by
      cases hprinted : printLines printed c with
      | ok r => exact absurd ((printLines_returns printed c).mp ⟨r.2, hprinted⟩) hf
      | error f => exact ⟨f, by simp only [executeStringPrinting, hprinted]⟩
    obtain ⟨f, hexec⟩ := hexec
    rw [hexec]
    cases he with
    | refused => simp [ExecuteReports, ScriptReported, hf]
    | ran h hcall =>
      generalize (vm.call _ _ _).1 = o at hcall
      cases hcall <;> simp [ExecuteReports, ScriptReported, hf]

end Squirrel

namespace GameMonkey

variable {vm : GmVm} {c : GMScriptContext}

/-- What `gmMachine::ExecuteString` makes of the end of a script: the number of errors the
parser or the compiler found. -/
inductive ScriptAnswers (vm : GmVm) (string : Bytes) (w : GmWorld) : ScriptEnd GmValue → Prop
  | refused {n : Nat} {w' : GmWorld} (h : vm.executeString string w = (n + 1, w')) : ScriptAnswers vm string w .refused
  | ran {w' : GmWorld} (e : FunctionEnd GmValue) (h : vm.executeString string w = (0, w')) :
      ScriptAnswers vm string w (.ran e)

/-- The script runs to its end; or it is refused, and the messages get to the logger. -/
def ScriptReported (vm : GmVm) (string : Bytes) (w : GmWorld) : ScriptEnd GmValue → Prop
  | .refused => (vm.executeString string w).2.Reports
  | .ran e => ∃ values, e = .returned values

theorem executeString_reports {e : ScriptEnd GmValue} {string : Bytes} (he : ScriptAnswers vm string c.world e) :
    ExecuteReports (executeString vm string c) e ↔ ScriptReported vm string c.world e := by
  cases he with
  | @refused n w h =>
    rw [ScriptReported, h]
    by_cases hr : w.Reports
    · simp [ExecuteReports, executeString_refused h hr, hr]
    · obtain ⟨f, hf⟩ := executeString_stuck h hr
      simp [ExecuteReports, hf, hr]
  | ran e h =>
    have hc : ∃ c', executeString vm string c = .ok (true, c') := by
      unfold executeString
      rw [h]
      exact ⟨_, rfl⟩
    obtain ⟨c', hc⟩ := hc
    rw [hc]
    cases e <;> simp [ExecuteReports, ScriptReported]

end GameMonkey

/-- `ExecuteString` reports the end of the script: in Squirrel unless it suspends the VM, or
prints a line that does not fit the callback's buffer, in Lua where what the load pushed does
not return for a text that does not compile, in GameMonkey where no script that compiles fails
and the compiler's messages fit their buffer; with a logger where one is used. -/
theorem executeString_reports_end (lua : Lua.LuaVm) (sq : Squirrel.SqVm) (gm : GameMonkey.GmVm) (string : Bytes) :
    (∀ c e, Lua.ScriptAnswers lua string c.world e →
      (ExecuteReports (Lua.executeString lua string c) e ↔ Lua.ScriptReported lua string c.world)) ∧
    (∀ printed c e, Squirrel.ScriptAnswers sq string c.world e →
      (ExecuteReports (Squirrel.executeStringPrinting sq printed string c) e ↔
        Squirrel.ScriptReported printed c.world e)) ∧
    ∀ c e, GameMonkey.ScriptAnswers gm string c.world e →
      (ExecuteReports (GameMonkey.executeString gm string c) e ↔ GameMonkey.ScriptReported gm string c.world e) := by
  refine ⟨?_, ?_, ?_⟩
  · intro c e he
    exact Lua.executeString_reports he
  · intro printed c e he
    exact Squirrel.executeStringPrinting_reports he
  · intro c e he
    exact GameMonkey.executeString_reports he

/-- A GameMonkey script that compiles and raises: the answer is true. -/
theorem executeString_after_error :
    ∃ c', GameMonkey.ScriptAnswers (.ending none) (cstr "f(1);") GameMonkey.oneFunction.world (.ran .raised) ∧
      GameMonkey.executeString (.ending none) (cstr "f(1);") GameMonkey.oneFunction = .ok (true, c') :=
  ⟨_, .ran .raised rfl, rfl⟩

/-- A script that compiles and runs to its end, in each language. -/
theorem executeString_reports_end_finished :
    let q := { Squirrel.createContext (.binding [cstr "f"]) with
      world := { (Squirrel.createContext (.binding [cstr "f"])).world with logger := some 0 } }
    ExecuteReports (Lua.executeString (.ending (.returned [])) (cstr "f(1)") (Lua.createContext (.binding [cstr "f"])))
        (.ran (.returned ([] : List Lua.LuaValue))) ∧
      ExecuteReports (Squirrel.executeStringPrinting (.ending (some .null)) [.print (cstr "x")] (cstr "f(1)") q)
        (.ran (.returned ([] : List Squirrel.SqValue))) ∧
      ExecuteReports (GameMonkey.executeString (.ending none) (cstr "f(1);") GameMonkey.oneFunction)
        (.ran (.returned ([] : List GameMonkey.GmValue))) := by
  intro q
  have lua := (executeString_reports_end (.ending (.returned [])) (.ending none) (.ending none) (cstr "f(1)")).1
    (Lua.createContext (.binding [cstr "f"])) _ (.ran rfl (.returned []))
  have sq :=
    (executeString_reports_end (.ending (.returned [])) (.ending (some .null)) (.ending none) (cstr "f(1)")).2.1
    [.print (cstr "x")] q _ (.ran rfl .nothing)
  have gm := (executeString_reports_end (.ending (.returned [])) (.ending none) (.ending none) (cstr "f(1);")).2.2
    GameMonkey.oneFunction _ (.ran (.returned []) rfl)
  refine ⟨lua.mpr rfl, sq.mpr fun _ out hout => ?_, gm.mpr ⟨_, rfl⟩⟩
  cases List.mem_singleton.mp hout
  decide

end MultiScript
