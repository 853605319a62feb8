/-
Integers there and back. Lua has them as doubles, Squirrel and GameMonkey as words of 32
bits, and OCaml as words with a tag bit, which leaves 31: `Val_int` drops the top bit, and
`Int_val` copies the one below into its place.

An integer goes there as the argument of a call of a script function that returns it, and
back as its result; and it comes from a script as the argument of a registered function
that pops it and pushes it again.
-/
import MultiScript.FunctionCalls
import MultiScript.Nesting
import MultiScript.Reporting

namespace MultiScript

open Handles Act

variable {C H F V : Type}

/-- A registered function that pops an integer and pushes it. -/
def echo (b : Backend C H F V) (st : H) : StateT C (Except Fault) (UserResult Answer H) := do
  let r ← b.pop st .int
  match r.1 with
  | .int (some n) => do
    let p ← b.push r.2 (.int n)
    return { seen := r.1, result := p.1, stack := p.2 }
  | a => return { seen := a, result := false, stack := r.2 }

theorem popped_inv {b : Backend C H F V} {s s' : Host C H} {p : Pop} {a : Answer}
    (h : (handles b).step (.pop p) s = .ok (.popped a, s')) :
    ∃ st c, b.pop s.stack p s.c = .ok ((a, st), c) ∧ s' = { s with c, stack := st } := by
  cases hp : b.pop s.stack p s.c with
  | error f => simp only [handles, hostStep, hp, bind, Except.bind, reduceCtorEq] at h
  | ok r =>
    simp only [handles, hostStep, hp, bind, Except.bind, pure, Except.pure] at h
    cases h
    exact ⟨_, _, rfl, rfl⟩

theorem pushed_inv {b : Backend C H F V} {s s' : Host C H} {p : Push} {ok : Bool}
    (h : (handles b).step (.push p) s = .ok (.pushed ok, s')) :
    ∃ st c, b.push s.stack p s.c = .ok ((ok, st), c) ∧ s' = { s with c, stack := st } := by
  cases hp : b.push s.stack p s.c with
  | error f => simp only [handles, hostStep, hp, bind, Except.bind, reduceCtorEq] at h
  | ok r =>
    simp only [handles, hostStep, hp, bind, Except.bind, pure, Except.pure] at h
    cases h
    exact ⟨_, _, rfl, rfl⟩

/-- Where the pop and the push are seen to succeed, so does the function. -/
theorem echo_follows (b : Backend C H F V) (n : Int) :
    Follows b (popsThenPush 1 (some n)) (popped [n] (some n)) (.int (some n)) (echo b) := by
  intro st c y h
  obtain ⟨o, s₁, os, hpop, hrest, ho⟩ := Run.Machine.run_cons_inv h
  obtain ⟨o', s₂, os', hpush, hnil, ho'⟩ := Run.Machine.run_cons_inv hrest
  cases ho
  cases ho'
  cases hnil
  obtain ⟨st₁, c₁, hp, rfl⟩ := popped_inv hpop
  obtain ⟨st₂, c₂, hq, rfl⟩ := pushed_inv hpush
  exact (bind_ok hp).trans (bind_ok hq)

namespace Ocaml

variable {n : Int} {w : Word}

/-- The tagged word as a number. -/
theorem valInt_toInt : (valInt n).toInt = (2 * n + 1).bmod (2 ^ 32) := by
  simp only [valInt, valLong, BitVec.toInt_add, BitVec.toInt_shiftLeft, BitVec.toNat_ofInt]
  simp only [Int.bmod, BitVec.toInt_ofNat]
  omega

theorem longVal_toInt : (longVal w).toInt = w.toInt / 2 := by
  rw [longVal, BitVec.toInt_sshiftRight, Int.shiftRight_eq_div_pow]
  rfl

/-- What `Int_val` gives is an integer of OCaml. -/
theorem longVal_isInt31 : IsInt31 (longVal w).toInt := by
  have hlo := @BitVec.le_toInt 32 w
  have hhi := @BitVec.toInt_lt 32 w
  rw [longVal_toInt]
  unfold IsInt31
  omega

/-- `Int_val` undoes `Val_int` exactly on 31 bits. -/
theorem longVal_valInt_iff : (longVal (valInt n)).toInt = n ↔ IsInt31 n := by
  constructor
  · intro h
    rw [← h]
    exact longVal_isInt31
  · exact longVal_valInt

/-- `Val_int` undoes `Int_val` on every tagged word. -/
theorem valInt_longVal : valInt (longVal (valInt n)).toInt = valInt n := by
  apply BitVec.eq_of_toInt_eq
  rw [valInt_toInt, valInt_toInt, longVal_toInt, valInt_toInt]
  simp only [Int.bmod]
  omega

/-- A call of a function that returns its argument. -/
theorem callFunction_one (vm : OcamlVm) {p : OcamlProcess} {id : Nat} {ctx : OcamlScriptContext}
    {name : Bytes} {x : CInt}
    {closure : Closure} {out : List Bytes} {rt : CamlRuntime} (hid : p.current = some id)
    (hctx : p.contexts id = some ctx)
    (hname : p.rt.named name = some closure)
    (hc : vm.callback closure [valInt x.val] p.rt = ((some (valInt x.val), out), rt)) :
    ∃ target p', callFunction (ocamlBackend vm) name [x] p
      = .ok ({ target, ended := true, count := 1, popped := .int (some (longVal (valInt x.val)).toInt) }, p') := by
  have hbegin : (ocamlBackend vm).beginCall name p = .ok (some (.new (some name) []), p) := by
    show beginCall name p = _
    rw [beginCall, bind_ok (show getRt p = .ok (p.rt, p) from rfl), hname]
    rfl
  have hpush : pushInts (ocamlBackend vm) [x] (.new (some name) []) p = .ok (calling name [valInt x.val], p) := rfl
  obtain ⟨p', hprint⟩ := @ocamlPrintCallback_ok { p with rt } id ctx out hid hctx
  have hend : (ocamlBackend vm).endCall (calling name [valInt x.val]) p
      = .ok ((true, { calling name [valInt x.val] with result := valInt x.val, numParams := 1 }), p') := by
    show (calling name [valInt x.val]).endCall vm p = _
    rw [endCall_run hname (by simp), bind_ok (callback_ok hc hprint)]
    rfl
  refine ⟨(ocamlBackend vm).target (calling name [valInt x.val]) p, p', ?_⟩
  rw [callFunction, bind_ok hbegin]
  refine (bind_ok hpush).trans ?_
  rw [bind_get]
  exact (bind_ok hend).trans rfl

/-- The word that a script passes comes back, whatever integer it has been in between. -/
theorem echo_word (vm : OcamlVm) {info : OcamlFunctionInfo} {prim : Nat} {p : OcamlProcess}
    {function : CodePtr → OcamlScriptStack → OcamlM (UserResult Answer OcamlScriptStack)} (hn : info.desc.numParams = 1)
    (ht : p.rt.tables.primTable[prim]? = some (.functionCallback 1))
    (hu : p.rt.tables.primTableUserData[prim]? = some (some info))
    (hfun : function info.desc.function = echo (ocamlBackend vm)) :
    ocamlCCall prim [valInt n] function p = .ok ((.int (some (longVal (valInt n)).toInt), valInt n), p) := by
  let m := (longVal (valInt n)).toInt
  have hword : valInt m = valInt n := valInt_longVal
  have hcall := @functionCall vm info [m] 1 prim (some m) p Answer (.int (some m)) function (Nat.le_refl _)
    (fun k hk => List.mem_singleton.mp hk ▸ longVal_isInt31) hn ht hu (hfun ▸ echo_follows _ m)
  simpa only [passed, List.cons_ne_nil, if_false, List.map_cons, List.map_nil, Option.map_some, Option.getD_some, hword]
    using hcall

end Ocaml

/-! ## The four languages -/

/-- The call returns, and the integer that is popped is `x`. -/
def ComesBack (r : Except Fault (CallSeen F V × C)) (x : CInt) : Prop :=
  ∃ seen c, r = .ok (seen, c) ∧ seen.popped = .int (some x.val)

/-- The integer `x` is passed to a script function that returns its argument, and passed by
a script to the registered function `echo`. In Lua, Squirrel and GameMonkey it is popped as
`x` and received as `x`, for each of the `2 ^ 32` integers. In OCaml it is popped as `x`
exactly if it has 31 bits, as a result and as an argument; the script gets back the word
that it has passed. -/
theorem int_round_trip (lua : Lua.LuaVm) (sq : Squirrel.SqVm) (gm : GameMonkey.GmVm) (ocaml : Ocaml.OcamlVm)
    (desc : FunctionDesc) (x : CInt) :
    ((∀ c name g w w', c.slots = [] → (Lua.luaLang lua).lookup name c.world = some (g, w) →
        lua.call g [Lua.encode x] w = (.returned [Lua.encode x], w') →
        ComesBack (callFunction (Lua.luaBackend lua) name [x] c) x) ∧
      ∀ (s : Lua.LuaState) (r : Nat) function,
        s.world.heap.closure r = .c .functionCallback [.lightuserdata (.functionInfo desc)] →
        function desc.function = echo ((Lua.luaBackend lua).threads Lua.luaView mainThread mainThread) →
        Lua.callC mainThread (.function r) [Lua.encode x] (Lua.luaFunctionCallback function mainThread) s
          = .ok ((.int (some x.val), [Lua.encode x]), s)) ∧
    ((∀ c name g w w', (Squirrel.sqLang sq).lookup name c.world = some (g, w) →
        sq.call g.1 [g.2, Squirrel.encode x] w = (some (Squirrel.encode x), w') →
        ComesBack (callFunction (Squirrel.sqBackend sq) name [x] c) x) ∧
      ∀ (s : Squirrel.SqState) (this : Squirrel.SqValue) function,
        function desc.function = echo ((Squirrel.sqBackend sq).threads Squirrel.sqView mainThread mainThread) →
        Squirrel.callNative mainThread [.userpointer (.functionInfo desc)] this [Squirrel.encode x]
            (Squirrel.squirrelFunctionCallback function mainThread) s
          = .ok ((.int (some x.val), Squirrel.encode x), s)) ∧
    ((∀ c name g w w', (GameMonkey.gmLang gm).lookup name c.world = some (g, w) →
        gm.call g [GameMonkey.encode x] w = (some (GameMonkey.encode x), w') →
        ComesBack (callFunction (GameMonkey.gmBackend gm) name [x] c) x) ∧
      ∀ (s : GameMonkey.GmState) (this : GameMonkey.GmValue) (L : Nat) function,
        function desc.function = echo ((GameMonkey.gmBackend gm).threads GameMonkey.gmView L L) →
        GameMonkey.callNative L this [GameMonkey.encode x]
            (GameMonkey.gmFunctionCallback function L (.functionInfo desc)) s
          = .ok ((.int (some x.val), GameMonkey.encode x), s)) ∧
    ((∀ (p : Ocaml.OcamlProcess) id ctx name closure out rt, p.current = some id → p.contexts id = some ctx →
        p.rt.named name = some closure →
        ocaml.callback closure [Ocaml.valInt x.val] p.rt = ((some (Ocaml.valInt x.val), out), rt) →
        (ComesBack (callFunction (Ocaml.ocamlBackend ocaml) name [x] p) x ↔ Ocaml.IsInt31 x.val)) ∧
      ∀ (p : Ocaml.OcamlProcess) (context prim : Nat) function, desc.numParams = 1 →
        p.rt.tables.primTable[prim]? = some (.functionCallback 1) →
        p.rt.tables.primTableUserData[prim]? = some (some { context, desc }) →
        function desc.function = echo (Ocaml.ocamlBackend ocaml) →
        ∃ n, Ocaml.ocamlCCall prim [Ocaml.valInt x.val] function p = .ok ((.int (some n), Ocaml.valInt x.val), p) ∧
          (n = x.val ↔ Ocaml.IsInt31 x.val)) := by
  have hx : ∀ n ∈ [x.val], IsInt32 n := fun n hn => List.mem_singleton.mp hn ▸ x.property
  refine ⟨⟨?_, ?_⟩, ⟨?_, ?_⟩, ⟨?_, ?_⟩, ?_, ?_⟩
  · intro c name g w w' hs hl hc
    exact ⟨_, _, Lua.callFunction_ok hs hl hc, rfl⟩
  · intro s r function hc hfun
    exact @Lua.functionCall lua desc [x.val] 1 (some x.val) s r _ _ function (Nat.le_refl _) hx hc
      (hfun ▸ echo_follows _ _)
  · intro c name g w w' hl hc
    exact ⟨_, _, Squirrel.callFunction_ok hl hc, rfl⟩
  · intro s this function hfun
    exact @Squirrel.functionCall sq desc [x.val] 1 (some x.val) s this _ _ function (Nat.le_refl _)
      (hfun ▸ echo_follows _ _)
  · intro c name g w w' hl hc
    have h := @GameMonkey.callFunction_ok gm .never c name [x] x w' w g hl hc
    rw [GameMonkey.gmBackendIn_never] at h
    exact ⟨_, _, h, rfl⟩
  · intro s this L function hfun
    exact @GameMonkey.functionCall gm desc [x.val] 1 (some x.val) s this L _ _ function (Nat.le_refl _)
      (hfun ▸ echo_follows _ _)
  · intro p id ctx name closure out rt hid hctx hname hc
    obtain ⟨target, p', hcall⟩ := Ocaml.callFunction_one ocaml hid hctx hname hc
    rw [hcall, ← Ocaml.longVal_valInt_iff]
    constructor
    · intro h
      obtain ⟨seen, c, he, hpopped⟩ := h
      cases he
      exact Option.some.inj (Answer.int.inj hpopped)
    · intro h
      exact ⟨_, _, rfl, by rw [h]⟩
  · intro p context prim function hn ht hu hfun
    exact ⟨_, @Ocaml.echo_word x.val ocaml { context, desc } prim p function hn ht hu hfun, Ocaml.longVal_valInt_iff⟩

/-- A runtime whose functions return their argument, with one context and one function. -/
def Ocaml.OcamlVm.returning : Ocaml.OcamlVm :=
  { Ocaml.OcamlVm.printing [] with callback := fun _ args rt => ((args.head?, []), rt) }

def Ocaml.OcamlProcess.naming (name : Bytes) : Ocaml.OcamlProcess :=
  { Ocaml.OcamlProcess.initial none with
    contexts := fun _ => some { functions := [], dirtyFakedDLL := false, logger := none, logged := [] }
    current := some 0
    rt := { Ocaml.CamlRuntime.initial with
      named := fun s => if s = name then some { code := 0, entry := 0 } else none } }

theorem Ocaml.named_naming (name : Bytes) : (Ocaml.OcamlProcess.naming name).rt.named name =
    some { code := 0, entry := 0 } :=
  if_pos rfl

/-- `PushInt(2 ^ 30)`, and the same integer popped: `-2 ^ 30`. -/
theorem int_loses_top_bit :
    let x := CInt.ofInt (2 ^ 30)
    ∃ target p', callFunction (Ocaml.ocamlBackend .returning) (cstr "f") [x] (.naming (cstr "f"))
        = .ok ({ target, ended := true, count := 1, popped := .int (some (-2 ^ 30)) }, p') ∧
      ¬ ComesBack (callFunction (Ocaml.ocamlBackend .returning) (cstr "f") [x] (.naming (cstr "f"))) x := by
  intro x
  obtain ⟨target, p', hcall⟩ := @Ocaml.callFunction_one .returning (.naming (cstr "f")) 0 _ (cstr "f") x _ _ _ rfl rfl
    (Ocaml.named_naming _) rfl
  have hpopped : (Ocaml.longVal (Ocaml.valInt x.val)).toInt = -2 ^ 30 := by decide
  rw [hpopped] at hcall
  refine ⟨target, p', hcall, fun h => ?_⟩
  obtain ⟨seen, c, he, hx⟩ := h
  rw [hcall] at he
  cases he
  exact absurd (Option.some.inj (Answer.int.inj hx)) (by decide)

/-- The greatest `int` in Lua, and the greatest OCaml integer. -/
theorem int_round_trip_greatest :
    let lua := { Lua.LuaVm.ending (.returned []) with call := fun _ args w => (.returned args, w) }
    ComesBack (callFunction (Lua.luaBackend lua) (cstr "f") [.ofInt 2147483647]
      (Lua.createContext (.binding [cstr "f"])))
        (.ofInt 2147483647) ∧
      ComesBack (callFunction (Ocaml.ocamlBackend .returning) (cstr "f") [.ofInt 1073741823] (.naming (cstr "f")))
        (.ofInt 1073741823) := by
  intro lua
  let sq := Squirrel.SqVm.ending none
  let gm : GameMonkey.GmVm := { call := fun _ _ w => (none, w), executeString := fun _ w => (0, w) }
  let desc : FunctionDesc := { addr := 0, name := cstr "f", function := 0, numParams := 1 }
  constructor
  · exact (int_round_trip lua sq gm .returning desc (.ofInt 2147483647)).1.1 _ _ (.function 0) _ _ rfl rfl rfl
  · exact ((int_round_trip lua sq gm .returning desc (.ofInt 1073741823)).2.2.2.1 _ 0 _ _ _ _ _ rfl rfl
      (Ocaml.named_naming _) rfl).mpr (by decide)

end MultiScript
