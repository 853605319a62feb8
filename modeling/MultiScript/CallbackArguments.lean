/-
The arguments of a registered function, in the order `PopInt` gives them. Lua,
Squirrel and GameMonkey give the last argument first; OCaml, where the stack
counts down the parameters that are left in a vector, the first one.
-/
import MultiScript.Handles.Lua
import MultiScript.Handles.Squirrel
import MultiScript.Handles.GameMonkey
import MultiScript.Ocaml.Context

namespace MultiScript

open Run Handles

/-! ## Integers popped one after the other -/

variable {C H F V W : Type}

def Handles.Obs.answer : Obs F V → Option Answer
  | .popped a => some a
  | _ => none

/-- The answers of `n` calls of `PopInt` on the stack of a callback. -/
def popInts (b : Backend C H F V) (n : Nat) (s : Host C H) : Except Fault (List Answer) :=
  ((handles b).run (List.replicate n (.pop .int)) s).map fun r => r.1.filterMap Obs.answer

/-- As answers of pops that succeed. -/
def ints (ns : List Int) : List Answer := ns.map fun n => .int (some n)

theorem ints_inj {ns ms : List Int} : ints ns = ints ms ↔ ns = ms :=
  List.map_inj_right fun a b hab => by simpa using hab

theorem filterMap_answer (ns : List Int) :
    (ns.map fun n => (.popped (.int (some n)) : Obs F V)).filterMap Obs.answer = ints ns := by
  simp [List.filterMap_map, Function.comp_def, Obs.answer, ints]

/-- A pop from independent handles whose next argument is an integer. -/
theorem spec_pop (lang : Lang F V W) {enc : Int → V} {n : Int} {rest : List V} {t : Spec F V W}
    (ht : t.args = enc n :: rest) (hp : lang.pop t.world .int (enc n) = .takes (.int (some n))) :
    (spec lang).step (.pop .int) t = .ok (.popped (.int (some n)), { t with args := rest }) := by
  simp [spec, specStep, ht, popFrom, hp]

/-- Independent handles answer with the arguments, the next first. -/
theorem spec_pops (lang : Lang F V W) (enc : Int → V) (rest : List V) :
    ∀ (ns : List Int) (t : Spec F V W), t.args = ns.map enc ++ rest →
      (∀ n ∈ ns, lang.pop t.world .int (enc n) = .takes (.int (some n))) →
      (spec lang).run (List.replicate ns.length (.pop .int)) t
        = .ok (ns.map fun n => .popped (.int (some n)), { t with args := rest })
  | [], t, ht, _ => by
    have hargs : t.args = rest := ht
    rw [show { t with args := rest } = t by rw [← hargs]]
    rfl
  | n :: ns, t, ht, hp => by
    have hrest := spec_pops lang enc rest ns { t with args := ns.map enc ++ rest } rfl fun m hm => hp m (by simp [hm])
    have hargs : t.args = enc n :: (ns.map enc ++ rest) := ht
    rw [List.length_cons, List.replicate_succ, Machine.run_cons _ _ (spec_pop lang hargs (hp n (by simp))), hrest]
    rfl

/-- Pops while arguments are left meet what is asked of a pop then. -/
theorem spec_pops_meet (lang : Lang F V W) (enc : Int → V) (rest : List V) {P : Event → Spec F V W → Prop}
    (hP : ∀ t : Spec F V W, t.pushed = [] → (∀ h, t.inner h = .closed) → t.args ≠ [] → P (.pop .int) t) :
    ∀ (ns : List Int) (t : Spec F V W), t.args = ns.map enc ++ rest → t.pushed = [] → (∀ h, t.inner h = .closed) →
      (∀ n ∈ ns, lang.pop t.world .int (enc n) = .takes (.int (some n))) →
      (spec lang).Meets P (List.replicate ns.length (.pop .int)) t
  | [], _, _, _, _, _ => trivial
  | n :: ns, t, ht, hpu, hin, hp => by
    refine ⟨hP t hpu hin (by simp [ht]), fun o t' hs => ?_⟩
    have hargs : t.args = enc n :: (ns.map enc ++ rest) := ht
    rw [spec_pop lang hargs (hp n (by simp))] at hs
    cases hs
    exact spec_pops_meet lang enc rest hP ns _ rfl hpu hin fun m hm => hp m (by simp [hm])

/-- A backend that simulates independent handles while `S` is popped gives the
arguments last first. -/
theorem popInts_reverse {lang : Lang F V W} {b : Backend C H F V} {enc : Int → V} {P : Event → Spec F V W → Prop}
    {ns : List Int} {w : W} {s : Host C H}
    (hsim : ∀ es os t, (spec lang).Meets P es (.start (ns.map enc) w) →
      (spec lang).run es (.start (ns.map enc) w) = .ok (os, t) → ∃ s', (handles b).run es s = .ok (os, s'))
    (hP : ∀ t : Spec F V W, t.pushed = [] → (∀ h, t.inner h = .closed) → t.args ≠ [] → P (.pop .int) t)
    (hpop : ∀ n ∈ ns, lang.pop w .int (enc n) = .takes (.int (some n))) :
    popInts b ns.length s = .ok (ints ns.reverse) := by
  have hargs : (Spec.start (ns.map enc) w : Spec F V W).args = ns.reverse.map enc ++ [] := by simp [Spec.start]
  have hpop' : ∀ n ∈ ns.reverse, lang.pop w .int (enc n) = .takes (.int (some n)) :=
    fun n hn => hpop n (by simpa using hn)
  have hm := spec_pops_meet lang enc [] hP ns.reverse _ hargs rfl (fun _ => rfl) hpop'
  obtain ⟨s', hs⟩ := hsim _ _ _ hm (spec_pops lang enc [] ns.reverse _ hargs hpop')
  rw [← List.length_reverse, popInts, hs]
  exact congrArg Except.ok (filterMap_answer ns.reverse)

/-! ## The four backends -/

theorem Lua.popInts_args (vm : LuaVm) (r : Nat) (w : LuaWorld) {ns : List Int} (hns : ∀ n ∈ ns, IsInt32 n) :
    popInts (luaBackend vm) ns.length (luaStart r (ns.map fun n => .number (.ofInt n)) w)
      = .ok (ints ns.reverse) := by
  refine popInts_reverse (P := Allowed) (fun _ _ _ => handles_run) ?_ ?_
  · intro t hpu hin _
    exact ⟨fun h => by rw [hin h]; trivial, hpu⟩
  · intro n hn
    simp [luaLang, popFit, LuaVm.tonumber, luaNumber2integer_ofInt (hns n hn)]

theorem Squirrel.popInts_args (vm : SqVm) (this : SqValue) (below : List SqValue) (w : SqWorld) (ns : List Int) :
    popInts (sqBackend vm) ns.length (sqStart this (ns.map .integer) below w) = .ok (ints ns.reverse) := by
  refine popInts_reverse (P := Allowed this) (fun _ _ _ => handles_run) ?_ ?_
  · intro t hpu hin hne
    exact ⟨hin, hpu, fun h => absurd h hne⟩
  · intro n _
    rfl

theorem GameMonkey.popInts_args (vm : GmVm) (this : GmValue) (w : GmWorld) (ns : List Int) :
    popInts (gmBackend vm) ns.length (gmStart this (ns.map .int) w) = .ok (ints ns.reverse) := by
  have hpop : ∀ n ∈ ns, (gmLang vm).pop w .int (.int n) = .takes (.int (some n)) := fun _ _ => rfl
  refine popInts_reverse (P := Allowed .never) ?_ (fun _ _ _ _ => trivial) hpop
  intro es os t hm hr
  obtain ⟨s, hs, -⟩ := handles_run_never hm hr
  exact ⟨s, hs⟩

namespace Ocaml

def ocamlBackend (vm : OcamlVm) : Backend OcamlProcess OcamlScriptStack Closure Word where
  pop st p := st.pop p
  push st p := st.push p
  getNumParams := OcamlScriptStack.getNumParams
  beginCall := beginCall
  endCall st := st.endCall vm
  releaseAfterCall st := st.releaseAfterCall
  target st p := (st.closure.bind p.rt.named).map fun f => (f, st.values)
  returned st _ := [st.result]

/-- A callback entered with `args`. -/
def ocamlStart (args : List Word) (p : OcamlProcess) : Host OcamlProcess OcamlScriptStack :=
  .start p (callbackStack args)

/-- The integers of an OCaml script. -/
def IsInt31 (n : Int) : Prop := -2 ^ 30 ≤ n ∧ n < 2 ^ 30

instance (n : Int) : Decidable (IsInt31 n) := inferInstanceAs (Decidable (_ ∧ _))

/-- `Val_int`. -/
def valInt (n : Int) : Word := valLong (BitVec.ofInt 32 n)

theorem longVal_valInt {n : Int} (h : IsInt31 n) : (longVal (valInt n)).toInt = n := by
  obtain ⟨hlo, hhi⟩ := h
  have htag : (valInt n).toInt = 2 * n + 1 := by
    simp only [valInt, valLong, BitVec.toInt_add, BitVec.toInt_shiftLeft, BitVec.toNat_ofInt]
    simp only [Int.bmod, BitVec.toInt_ofNat]
    omega
  rw [longVal, BitVec.toInt_sshiftRight, htag, Int.shiftRight_eq_div_pow]
  omega

/-- A pop takes the value that as many follow as are left. -/
theorem popInt_next {st : OcamlScriptStack} {gone rest : List Word} {v : Word} {value : Int} (hc : st.closure = none)
    (hv : st.values = gone ++ v :: rest) (hn : st.numParams = (rest.length : Int) + 1) :
    st.popInt value = ((true, (longVal v).toInt), { st with numParams := rest.length }) := by
  have hne : st.numParams ≠ 0 := by omega
  have hidx : (st.values.length - st.numParams).toNat = gone.length := by simp [hv, hn]
  simp only [OcamlScriptStack.popInt, if_neg hne, OcamlScriptStack.isCall, hc, hidx]
  simp [hv, hn]

theorem ocaml_pops (vm : OcamlVm) (rest : List Word) :
    ∀ (ns : List Int) (gone : List Word) (s : Host OcamlProcess OcamlScriptStack), s.stack.closure = none →
      s.stack.values = gone ++ (ns.map valInt ++ rest) → s.stack.numParams = (ns.length : Int) + rest.length →
      (∀ n ∈ ns, IsInt31 n) →
      (handles (ocamlBackend vm)).run (List.replicate ns.length (.pop .int)) s
        = .ok (ns.map fun n => .popped (.int (some n)), { s with stack := { s.stack with numParams := rest.length } })
  | [], _, s, _, _, hp, _ => by
    have hkeep : { s.stack with numParams := rest.length } = s.stack := by
      rw [show (rest.length : Int) = s.stack.numParams by simpa using hp.symm]
    rw [hkeep]
    rfl
  | n :: ns, gone, s, hc, hv, hp, hns => by
    have hpop := @popInt_next _ _ _ _ 0 hc hv (by simp at hp ⊢; omega)
    rw [longVal_valInt (hns n (by simp))] at hpop
    have hstep : (handles (ocamlBackend vm)).step (.pop .int) s = .ok (.popped (.int (some n)),
        { s with stack := { s.stack with numParams := (ns.map valInt ++ rest).length } }) := by
      simp only [handles, hostStep, ocamlBackend, OcamlScriptStack.pop, hpop]
      rfl
    have hrest := ocaml_pops vm rest ns (gone ++ [valInt n])
      { s with stack := { s.stack with numParams := (ns.map valInt ++ rest).length } } hc (by simpa using hv) (by simp)
      fun m hm => hns m (by simp [hm])
    rw [List.length_cons, List.replicate_succ, Machine.run_cons _ _ hstep, hrest]
    rfl

theorem popInts_args (vm : OcamlVm) (p : OcamlProcess) {ns : List Int} (hns : ∀ n ∈ ns, IsInt31 n) :
    popInts (ocamlBackend vm) ns.length (ocamlStart (ns.map valInt) p) = .ok (ints ns) := by
  have hs := ocaml_pops vm [] ns [] (ocamlStart (ns.map valInt) p) rfl (by simp [ocamlStart, Host.start, callbackStack,
    OcamlScriptStack.new]) (by simp [ocamlStart, Host.start, callbackStack, OcamlScriptStack.new]) hns
  rw [popInts, hs]
  exact congrArg Except.ok (filterMap_answer ns)

theorem IsInt31.isInt32 {n : Int} (h : IsInt31 n) : IsInt32 n := by
  simp only [IsInt31, IsInt32] at *
  omega

end Ocaml

/-! ## Across the backends -/

/-- The four languages, and where a script of each calls a registered function. -/
structure Callers where
  lua : Lua.LuaVm
  luaWorld : Lua.LuaWorld
  luaFunction : Nat
  sq : Squirrel.SqVm
  sqWorld : Squirrel.SqWorld
  sqThis : Squirrel.SqValue
  sqBelow : List Squirrel.SqValue
  gm : GameMonkey.GmVm
  gmWorld : GameMonkey.GmWorld
  gmThis : GameMonkey.GmValue
  ocaml : Ocaml.OcamlVm
  ocamlProcess : Ocaml.OcamlProcess

namespace Callers

/-- The integers that `PopInt` gives, as often as there are arguments. -/
def luaPops (k : Callers) (ns : List Int) : Except Fault (List Answer) :=
  popInts (Lua.luaBackend k.lua) ns.length (Lua.luaStart k.luaFunction (ns.map fun n => .number (.ofInt n)) k.luaWorld)

def sqPops (k : Callers) (ns : List Int) : Except Fault (List Answer) :=
  popInts (Squirrel.sqBackend k.sq) ns.length (Squirrel.sqStart k.sqThis (ns.map .integer) k.sqBelow k.sqWorld)

def gmPops (k : Callers) (ns : List Int) : Except Fault (List Answer) :=
  popInts (GameMonkey.gmBackend k.gm) ns.length (GameMonkey.gmStart k.gmThis (ns.map .int) k.gmWorld)

def ocamlPops (k : Callers) (ns : List Int) : Except Fault (List Answer) :=
  popInts (Ocaml.ocamlBackend k.ocaml) ns.length (Ocaml.ocamlStart (ns.map Ocaml.valInt) k.ocamlProcess)

/-- Fresh contexts whose functions return nothing. -/
def fresh : Callers where
  lua := .ending (.returned [])
  luaWorld := (Lua.createContext (.binding [])).world
  luaFunction := 0
  sq := .ending (some .null)
  sqWorld := (Squirrel.createContext (.binding [])).world
  sqThis := .table 0
  sqBelow := []
  gm := { call := fun _ _ w => (some .null, w), executeString := fun _ w => (0, w) }
  gmWorld := (GameMonkey.createContext 0 (fun _ => .null) .other).world
  gmThis := .null
  ocaml := .printing []
  ocamlProcess := .initial none

end Callers

/-- **Order of arguments.** A registered function gets its integers in the same
order from Lua, Squirrel and GameMonkey, whatever they are. From OCaml, whose
functions have two parameters at most, it gets them in that order exactly when
the list of them reads the same from both ends. -/
theorem callback_argument_order (k : Callers) (ns : List Int) :
    ((∀ n ∈ ns, IsInt32 n) → k.luaPops ns = k.sqPops ns ∧ k.sqPops ns = k.gmPops ns) ∧
    ((∀ n ∈ ns, Ocaml.IsInt31 n) → ns.length ≤ 2 →
      (k.luaPops ns = k.sqPops ns ∧ k.sqPops ns = k.gmPops ns ∧ k.gmPops ns = k.ocamlPops ns ↔
        ns.reverse = ns)) := by
  have hsq : k.sqPops ns = .ok (ints ns.reverse) := Squirrel.popInts_args _ _ _ _ ns
  have hgm : k.gmPops ns = .ok (ints ns.reverse) := GameMonkey.popInts_args _ _ _ ns
  have hlua : (∀ n ∈ ns, IsInt32 n) → k.luaPops ns = .ok (ints ns.reverse) := Lua.popInts_args _ _ _
  constructor
  · intro hns
    rw [hlua hns, hsq, hgm]
    exact ⟨rfl, rfl⟩
  · intro hns _
    have hocaml : k.ocamlPops ns = .ok (ints ns) := Ocaml.popInts_args _ _ hns
    rw [hlua fun n hn => (hns n hn).isInt32, hsq, hgm, hocaml]
    simp [ints_inj]

/-- `f(1, 2)`: the first integer popped is 2, and in OCaml 1. -/
theorem callback_argument_order_differs :
    Callers.fresh.luaPops [1, 2] = .ok (ints [2, 1]) ∧ Callers.fresh.ocamlPops [1, 2] = .ok (ints [1, 2]) ∧
      Callers.fresh.luaPops [1, 2] ≠ Callers.fresh.ocamlPops [1, 2] := by
  have hlua : Callers.fresh.luaPops [1, 2] = .ok (ints [2, 1]) := rfl
  have hocaml : Callers.fresh.ocamlPops [1, 2] = .ok (ints [1, 2]) := rfl
  refine ⟨hlua, hocaml, ?_⟩
  rw [hlua, hocaml]
  intro h
  have hints : ints [2, 1] = ints [1, 2] := Except.ok.inj h
  rw [ints_inj] at hints
  cases hints

theorem callback_argument_order_equal :
    Callers.fresh.luaPops [3, 3] = Callers.fresh.sqPops [3, 3] ∧
      Callers.fresh.gmPops [3, 3] = Callers.fresh.ocamlPops [3, 3] ∧
      Callers.fresh.luaPops [1, 2, 3] = Callers.fresh.sqPops [1, 2, 3] := by
  have h := ((callback_argument_order .fresh [3, 3]).2 (by decide) (by decide)).mpr rfl
  exact ⟨h.1, h.2.2, ((callback_argument_order .fresh [1, 2, 3]).1 (by decide)).1⟩

end MultiScript
