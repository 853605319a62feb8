/-
A script calls a registered function that pops some of its arguments, all
integers, and then pushes one integer or none. Four representations of the stack
(a frame, a stack with the closure's outer values on it, an indexed frame, a
vector) give one result: the arguments in the backend's order, the pushed value
for the script, and nothing else changed.
-/
import MultiScript.CallbackArguments
import MultiScript.Handles.Threads
import MultiScript.Lua.Callbacks
import MultiScript.Squirrel.Callbacks
import MultiScript.GameMonkey.Callbacks

namespace MultiScript

open Run Handles Act

variable {C H F V W Fr : Type}

/-- `k` calls of `PopInt`, and then `PushInt(v)` or nothing. -/
def popsThenPush (k : Nat) (v : Option Int) : List Event :=
  List.replicate k (.pop .int) ++ (v.map fun n => .push (.int n)).toList

/-- What the function sees of that: the integers, and that the push succeeds. -/
def popped (ns : List Int) (v : Option Int) : List (Obs F V) :=
  (ns.map fun n => .popped (.int (some n))) ++ (v.map fun _ => .pushed true).toList

/-- A user function that does `es` with its stack and returns true. -/
def userFunction (b : Backend C H F V) (es : List Event) (st : H) :
    StateT C (Except Fault) (UserResult (List (Obs F V)) H) := fun c =>
  match (handles b).run es (.start c st) with
  | .ok (os, y) => .ok ({ seen := os, result := true, stack := y.stack }, y.c)
  | .error f => .error f

/-- Where the events `es` are seen as `os`, the function does them, has seen `a` then, and
returns true. -/
def Follows (b : Backend C H F V) (es : List Event) (os : List (Obs F V)) {α : Type} (a : α)
    (function : H → StateT C (Except Fault) (UserResult α H)) : Prop :=
  ∀ st c y, (handles b).run es (.start c st) = .ok (os, y) →
    function st c = .ok ({ seen := a, result := true, stack := y.stack }, y.c)

theorem userFunction_follows (b : Backend C H F V) (es : List Event) (os : List (Obs F V)) :
    Follows b es os os (userFunction b es) := by
  intro st c y h
  simp only [userFunction, h]

/-- The last `k` arguments are next, and can be popped. -/
theorem start_args (lang : Lang F V W) (enc : Int → V) {ns : List Int} (k : Nat) (w : W)
    (hpop : ∀ n ∈ ns, lang.pop w .int (enc n) = .takes (.int (some n))) :
    (Spec.start (ns.map enc) w : Spec F V W).args = (ns.reverse.take k).map enc ++ (ns.reverse.drop k).map enc ∧
      ∀ n ∈ ns.reverse.take k, lang.pop w .int (enc n) = .takes (.int (some n)) := by
  constructor
  · rw [← List.map_append, List.take_append_drop]
    simp [Spec.start]
  · intro n hn
    exact hpop n (by simpa using List.mem_of_mem_take hn)

/-- With independent handles: the last arguments first, and those left stay. -/
theorem spec_popsThenPush (lang : Lang F V W) (enc : Int → V) {ns : List Int} {k : Nat} (v : Option Int) (w : W)
    (hk : k ≤ ns.length) (hpop : ∀ n ∈ ns, lang.pop w .int (enc n) = .takes (.int (some n))) :
    (spec lang).run (popsThenPush k v) (.start (ns.map enc) w) = .ok (popped (ns.reverse.take k) v,
      { Spec.start (ns.map enc) w with
        args := (ns.reverse.drop k).map enc, pushed := (v.map fun n => lang.ofPush (.int n)).toList }) := by
  obtain ⟨hargs, hpop'⟩ := start_args lang enc k w hpop
  have hpops := spec_pops lang enc _ (ns.reverse.take k) _ hargs hpop'
  rw [List.length_take_of_le (by simpa using hk)] at hpops
  rw [popsThenPush, Machine.run_append _ hpops]
  cases v with
  | none => simp [popped, Except.map, Spec.start]
  | some n => simp [popped, Except.map, Machine.run, spec, specStep, Spec.start, bind, Except.bind, pure, Except.pure]

theorem spec_popsThenPush_meet (lang : Lang F V W) (enc : Int → V) {ns : List Int} {k : Nat} (v : Option Int) (w : W)
    {P : Event → Spec F V W → Prop} (hk : k ≤ ns.length)
    (hpop : ∀ n ∈ ns, lang.pop w .int (enc n) = .takes (.int (some n)))
    (hP : ∀ t : Spec F V W, t.pushed = [] → (∀ h, t.inner h = .closed) → t.args ≠ [] → P (.pop .int) t)
    (hpush : ∀ (t : Spec F V W) p, (∀ h, t.inner h = .closed) → P (.push p) t) :
    (spec lang).Meets P (popsThenPush k v) (.start (ns.map enc) w) := by
  obtain ⟨hargs, hpop'⟩ := start_args lang enc k w hpop
  have hlen : (ns.reverse.take k).length = k := List.length_take_of_le (by simpa using hk)
  have hmeet := spec_pops_meet lang enc _ hP (ns.reverse.take k) _ hargs rfl (fun _ => rfl) hpop'
  have hpops := spec_pops lang enc _ (ns.reverse.take k) _ hargs hpop'
  rw [hlen] at hmeet hpops
  refine Machine.meets_append hmeet fun os t' hr => ?_
  rw [hpops] at hr
  cases hr
  cases v with
  | none => trivial
  | some n => exact ⟨hpush _ _ fun _ => rfl, fun _ _ _ => trivial⟩

/-! ## Lua -/

namespace Lua

def ofInt (n : Int) : LuaValue := .number (.ofInt n)

/-- A function that does `es` in an order that is allowed, and has no inner call open at the
end: all that it pushed is handed out, the first value first. -/
theorem functionRun (vm : LuaVm) {desc : FunctionDesc} {args : List LuaValue} {es : List Event}
    {os : List (Obs LuaValue LuaValue)} {t : Spec LuaValue LuaValue LuaWorld} {s : LuaState} {r : Nat}
    {α : Type} {a : α}
    {function : CodePtr → LuaScriptStack → LuaS (UserResult α LuaScriptStack)}
    (hm : (spec (luaLang vm)).Meets Allowed es (.start args s.world))
    (hr : (spec (luaLang vm)).run es (.start args s.world) = .ok (os, t)) (hi : Idle t)
    (hc : s.world.heap.closure r = .c .functionCallback [.lightuserdata (.functionInfo desc)])
    (hfun : Follows ((luaBackend vm).threads luaView mainThread mainThread) es os a (function desc.function)) :
    callC mainThread (.function r) args (luaFunctionCallback function mainThread) s
      = .ok ((a, t.pushed), { s with world := t.world }) := by
  obtain ⟨x, hx, hR⟩ := related_run (start_related r args s.world) hm hr
  generalize hs₁ : s.setFrame mainThread { func := .function r, slots := args.reverse } = s₁
  have hf : s₁.frame mainThread = { func := .function r, slots := args.reverse } := by rw [← hs₁, setFrame_self]
  have hothers : ∀ L', L' ≠ mainThread → s₁.frame L' = s.frame L' := fun L' hne => by rw [← hs₁, setFrame_other hne]
  have hstart : (.start (s₁.context luaView mainThread) (callbackStack (s₁.frame mainThread).slots.length) :
      Host LuaScriptContext LuaScriptStack) = luaStart r args s.world := by
    simp [luaStart, Host.start, VmState.context, luaView, callbackStack, ← hs₁]
  rw [← hstart] at hx
  obtain ⟨y, hy, hyc, hyo, hyobj, hyst⟩ := threads_run hx
  have hcb : luaFunctionCallback function mainThread s₁ = .ok ((a, t.pushed.length), y.c) := by
    rw [luaFunctionCallback, bind_ok (functionEnter_ok (by rw [hf]) (by rw [← hs₁]; exact hc)), bind_ok (hfun _ _ _ hy)]
    simp only [callbackLeave, hyst, hR.numPushed]
    rfl
  have hyslots : (y.c.frame mainThread).slots = t.pushed.reverse ++ t.args :=
    (congrArg LuaScriptContext.slots hyc).trans (hR.frame.of_idle hi)
  have hyworld : y.c.world = t.world := (congrArg LuaScriptContext.world hyc).trans hR.world
  have hres : ∀ caller : List LuaValue, (((y.c.frame mainThread).slots
      ++ (y.c.frame mainThread).func :: caller).take t.pushed.length).reverse = t.pushed := by
    intro caller
    rw [hyslots, List.append_assoc, List.take_left' (by simp), List.reverse_reverse]
  simp only [callC, hs₁, hcb, hres]
  rw [setFrame_back (fun L' hne => (hyo L' hne).trans (hothers L' hne))
    (by rw [hyobj, ← hs₁, setFrame_objects]), hyworld]

theorem functionCall (vm : LuaVm) {desc : FunctionDesc} {ns : List Int} {k : Nat} (v : Option Int)
    {s : LuaState} {r : Nat} {α : Type} {a : α} {function : CodePtr → LuaScriptStack →
      LuaS (UserResult α LuaScriptStack)}
    (hk : k ≤ ns.length) (hns : ∀ n ∈ ns, IsInt32 n)
    (hc : s.world.heap.closure r = .c .functionCallback [.lightuserdata (.functionInfo desc)])
    (hfun : Follows ((luaBackend vm).threads luaView mainThread mainThread) (popsThenPush k v)
      (popped (ns.reverse.take k) v) a (function desc.function)) :
    callC mainThread (.function r) (ns.map ofInt) (luaFunctionCallback function mainThread) s
      = .ok ((a, (v.map ofInt).toList), s) := by
  have hpop : ∀ n ∈ ns, (luaLang vm).pop s.world .int (ofInt n) = .takes (.int (some n)) := by
    intro n hn
    simp [luaLang, popFit, ofInt, LuaVm.tonumber, luaNumber2integer_ofInt (hns n hn)]
  have hm := spec_popsThenPush_meet (P := Allowed) (luaLang vm) ofInt v s.world hk hpop
    (fun t hp hi _ => ⟨fun h => by rw [hi h]; trivial, hp⟩) (fun t _ hi h => by rw [hi h]; trivial)
  have hcall := functionRun vm hm (spec_popsThenPush (luaLang vm) ofInt v s.world hk hpop) (fun _ => trivial) hc hfun
  rw [hcall]
  cases v <;> rfl

end Lua

/-! ## Squirrel -/

namespace Squirrel

theorem lowest_below (xs below : List SqValue) : lowest below.length (xs ++ below) = below := by
  simp [lowest]

theorem related_stack {this : SqValue} {below : List SqValue} {t : Spec Callee SqValue SqWorld}
    {x : Host SquirrelScriptContext SquirrelScriptStack} (hR : Related this below t x)
    (hi : ∀ h, t.inner h = .closed) : x.c.stack = t.pushed.reverse ++ (t.args ++ this :: below) := by
  obtain ⟨bl, hb, hs⟩ := hR.stack
  rw [hb.free hi] at hs
  exact hs

/-- A function that does `es` in an order that is allowed, and has no inner call open at the
end: the value on top is what the script gets. -/
theorem functionRun (vm : SqVm) {desc : FunctionDesc} {args : List SqValue} {es : List Event}
    {os : List (Obs Callee SqValue)} {t : Spec Callee SqValue SqWorld} {s : SqState} {this : SqValue} {α : Type} {a : α}
    {function : CodePtr → SquirrelScriptStack → SqS (UserResult α SquirrelScriptStack)}
    (hm : (spec (sqLang vm)).Meets (Allowed this) es (.start args s.world))
    (hr : (spec (sqLang vm)).run es (.start args s.world) = .ok (os, t)) (hi : Free t)
    (hfun : Follows ((sqBackend vm).threads sqView mainThread mainThread) es os a (function desc.function)) :
    callNative mainThread [.userpointer (.functionInfo desc)] this args (squirrelFunctionCallback function mainThread) s
      = .ok ((a, t.pushed.getLast?.getD .null), { s with world := t.world }) := by
  obtain ⟨x, hx, hR⟩ := related_run (start_related this args (s.frame mainThread).stack s.world) hm hr
  generalize hbelow : (s.frame mainThread).stack = below at hx hR
  generalize hs₁ : s.setFrame mainThread
    { stack := .userpointer (.functionInfo desc) :: (args.reverse ++ this :: below), stackbase := below.length } = s₁
  have hf : s₁.frame mainThread =
      { stack := .userpointer (.functionInfo desc) :: (args.reverse ++ this :: below), stackbase := below.length } := by
    rw [← hs₁, setFrame_self]
  -- the outer value is taken off, and the rest is what the handles start from
  generalize hs₂ : SqState.setStack s₁ mainThread (args.reverse ++ this :: below) = s₂
  have hf₂ : s₂.frame mainThread = { stack := args.reverse ++ this :: below, stackbase := below.length } := by
    rw [← hs₂, setStack_frame_self, hf]
  have hothers : ∀ L', L' ≠ mainThread → s₂.frame L' = s.frame L' := by
    intro L' hne
    rw [← hs₂, SqState.setStack, setFrame_other hne, ← hs₁, setFrame_other hne]
  have hstart : (.start (s₂.context sqView mainThread) (callbackStack (s₂.frame mainThread).count) :
      Host SquirrelScriptContext SquirrelScriptStack) = sqStart this args below s.world := by
    have hcount : (s₂.frame mainThread).count = args.length := by
      simp [SqFrame.count, hf₂]
      omega
    rw [hcount]
    simp [sqStart, Host.start, VmState.context, sqView, hf₂, callbackStack]
    rw [← hs₂, ← hs₁]
    rfl
  rw [← hstart] at hx
  obtain ⟨y, hy, hyc, hyo, hyobj, hyst⟩ := threads_run hx
  have hystack : (y.c.frame mainThread).stack = t.pushed.reverse ++ (t.args ++ this :: below) :=
    (congrArg SquirrelScriptContext.stack hyc).trans (related_stack hR hi)
  have hcb : squirrelFunctionCallback function mainThread s₁ = .ok ((a, t.pushed.length), y.c) := by
    rw [squirrelFunctionCallback, bind_ok (functionEnter_ok (by rw [hf])), hs₂, bind_ok (hfun _ _ _ hy)]
    simp only [callbackLeave, hyst, hR.numPushed]
    rfl
  have hres : (if t.pushed.length = 0 then SqValue.null else (y.c.context sqView mainThread).at (-1))
      = t.pushed.getLast?.getD .null := by
    cases hv : t.pushed.reverse with
    | nil => simp [List.reverse_eq_nil_iff.mp hv]
    | cons v vs =>
      rw [hv] at hystack
      have hlast : t.pushed = vs.reverse ++ [v] := by rw [← List.reverse_reverse t.pushed, hv, List.reverse_cons]
      rw [if_neg (by simp [hlast]), hlast, List.getLast?_concat]
      exact at_top hystack
  have hlow : lowest below.length (y.c.frame mainThread).stack = below := by
    have hsplit : (y.c.frame mainThread).stack = (t.pushed.reverse ++ t.args ++ [this]) ++ below := by simp [hystack]
    rw [hsplit, lowest_below]
  have hyworld : y.c.world = t.world := (congrArg SquirrelScriptContext.world hyc).trans hR.world
  simp only [callNative, hbelow, List.reverse_singleton, List.singleton_append, hs₁, hcb, hres, hlow]
  have hback : ({ s.frame mainThread with stack := below } : SqFrame) = s.frame mainThread := by rw [← hbelow]
  rw [hback, setFrame_back (fun L' hne => (hyo L' hne).trans (hothers L' hne))
    (by rw [hyobj, ← hs₂, ← hs₁]; rfl), hyworld]

theorem functionCall (vm : SqVm) {desc : FunctionDesc} {ns : List Int} {k : Nat} (v : Option Int)
    {s : SqState} {this : SqValue} {α : Type} {a : α}
    {function : CodePtr → SquirrelScriptStack → SqS (UserResult α SquirrelScriptStack)}
    (hk : k ≤ ns.length)
    (hfun : Follows ((sqBackend vm).threads sqView mainThread mainThread) (popsThenPush k v)
      (popped (ns.reverse.take k) v) a (function desc.function)) :
    callNative mainThread [.userpointer (.functionInfo desc)] this (ns.map .integer)
        (squirrelFunctionCallback function mainThread) s
      = .ok ((a, (v.map SqValue.integer).getD .null), s) := by
  have hpop : ∀ n ∈ ns, (sqLang vm).pop s.world .int (.integer n) = .takes (.int (some n)) := fun _ _ => rfl
  have hm := spec_popsThenPush_meet (P := Allowed this) (sqLang vm) .integer v s.world hk hpop
    (fun t hp hi hne => ⟨hi, hp, fun h => absurd h hne⟩) (fun t _ hi => hi)
  have hcall := functionRun vm hm (spec_popsThenPush (sqLang vm) .integer v s.world hk hpop) (fun _ => rfl) hfun
  rw [hcall]
  cases v <;> rfl

end Squirrel

/-! ## GameMonkey -/

namespace GameMonkey

/-- A function that does `es`: the value on top is what the script gets. -/
theorem functionRun (vm : GmVm) {desc : FunctionDesc} {args : List GmValue} {es : List Event}
    {os : List (Obs GmValue GmValue)} {x : Host GMScriptContext GMScriptStack} {s : GmState} {this : GmValue} (L : Nat)
    {α : Type} {a : α} {function : CodePtr → GMScriptStack → GmS (UserResult α GMScriptStack)}
    (hx : (handles (gmBackend vm)).run es (gmStart this args s.world) = .ok (os, x))
    (hfun : Follows ((gmBackend vm).threads gmView L L) es os a (function desc.function)) :
    callNative L this args (gmFunctionCallback function L (.functionInfo desc)) s
      = .ok ((a, x.c.thread.result), { s with world := x.c.world }) := by
  generalize hs₁ : s.setFrame L { this, params := args, pushed := [] } = s₁
  have hf : s₁.frame L = { this, params := args, pushed := [] } := by rw [← hs₁, setFrame_self]
  have hothers : ∀ L', L' ≠ L → s₁.frame L' = s.frame L' := fun L' hne => by rw [← hs₁, setFrame_other hne]
  have hstart : (.start (s₁.context gmView L) (callbackStack (s₁.frame L).params.length) :
      Host GMScriptContext GMScriptStack) = gmStart this args s.world := by
    simp [gmStart, Host.start, VmState.context, gmView, callbackStack, ← hs₁]
  rw [← hstart] at hx
  obtain ⟨y, hy, hyc, hyo, hyobj, hyst⟩ := threads_run hx
  have hyresult : (y.c.frame L).result = x.c.thread.result := congrArg (fun c => c.thread.result) hyc
  have hcb : gmFunctionCallback function L (.functionInfo desc) s₁ = .ok (a, y.c) := by
    rw [gmFunctionCallback, bind_ok functionEnter_ok, bind_ok (hfun _ _ _ hy)]
    rfl
  have hyworld : y.c.world = x.c.world := congrArg GMScriptContext.world hyc
  simp only [callNative, hs₁, hcb, hyresult]
  rw [setFrame_back (fun L' hne => (hyo L' hne).trans (hothers L' hne))
    (by rw [hyobj, ← hs₁, setFrame_objects]), hyworld]

theorem functionCall (vm : GmVm) {desc : FunctionDesc} {ns : List Int} {k : Nat} (v : Option Int)
    {s : GmState} {this : GmValue} (L : Nat) {α : Type} {a : α}
    {function : CodePtr → GMScriptStack → GmS (UserResult α GMScriptStack)}
    (hk : k ≤ ns.length)
    (hfun : Follows ((gmBackend vm).threads gmView L L) (popsThenPush k v) (popped (ns.reverse.take k) v) a
      (function desc.function)) :
    callNative L this (ns.map .int) (gmFunctionCallback function L (.functionInfo desc)) s
      = .ok ((a, (v.map GmValue.int).getD .null), s) := by
  have hpop : ∀ n ∈ ns, (gmLang vm).pop s.world .int (.int n) = .takes (.int (some n)) := fun _ _ => rfl
  have hm := spec_popsThenPush_meet (P := Allowed .never) (gmLang vm) .int v s.world hk hpop
    (fun _ _ _ _ => trivial) fun _ _ _ => trivial
  obtain ⟨x, hx, hpushed, hworld⟩ :=
    @handles_run_never vm _ this _ _ _ _ hm (spec_popsThenPush (gmLang vm) .int v s.world hk hpop)
  rw [functionRun vm L hx hfun, GmThread.result, hpushed, hworld]
  cases v <;> rfl

end GameMonkey

/-! ## OCaml -/

namespace Ocaml

/-- The words a script passes: an OCaml function without parameters takes `unit`. -/
def passed (ns : List Int) : List Word := if ns = [] then [valUnit] else ns.map valInt

theorem take_passed (ns : List Int) : (passed ns).take ns.length = ns.map valInt := by
  unfold passed
  split
  · rename_i h
    simp [h]
  · exact List.take_of_length_le (by simp)

theorem functionCall (vm : OcamlVm) {info : OcamlFunctionInfo} {ns : List Int} {k prim : Nat} (v : Option Int)
    {p : OcamlProcess} {α : Type} {a : α}
    {function : CodePtr → OcamlScriptStack → OcamlM (UserResult α OcamlScriptStack)}
    (hk : k ≤ ns.length) (hns : ∀ n ∈ ns, IsInt31 n) (hn : info.desc.numParams = ns.length)
    (ht : p.rt.tables.primTable[prim]? = some (.functionCallback ns.length))
    (hu : p.rt.tables.primTableUserData[prim]? = some (some info))
    (hfun : Follows (ocamlBackend vm) (popsThenPush k v) (popped (ns.take k) v) a (function info.desc.function)) :
    ocamlCCall prim (passed ns) function p = .ok ((a, (v.map valInt).getD valUnit), p) := by
  have hlen : (ns.take k).length = k := List.length_take_of_le hk
  have hvalues : (ns.map valInt) = [] ++ ((ns.take k).map valInt ++ (ns.drop k).map valInt) := by
    rw [List.nil_append, ← List.map_append, List.take_append_drop]
  have hpops := ocaml_pops vm ((ns.drop k).map valInt) (ns.take k) [] (.start p (callbackStack (ns.map valInt))) rfl
    hvalues (by simp [Host.start, callbackStack, OcamlScriptStack.new]; omega)
    fun n hn => hns n (List.mem_of_mem_take hn)
  rw [hlen] at hpops
  -- the push stores the result, and the process is not touched
  have hrun : ∃ y, (handles (ocamlBackend vm)).run (popsThenPush k v) (.start p (callbackStack (ns.map valInt)))
      = .ok (popped (ns.take k) v, y) ∧ y.c = p ∧ y.stack.result = (v.map valInt).getD valUnit := by
    rw [popsThenPush, Machine.run_append _ hpops]
    cases v with
    | none => exact ⟨_, rfl, rfl, rfl⟩
    | some n => exact ⟨_, rfl, rfl, rfl⟩
  obtain ⟨y, hy, hc, hr⟩ := hrun
  have hassert : (info.desc.numParams == (ns.length : Int)) = true := by simp [hn]
  have hcall : ocamlFunctionCallback ns.length info (passed ns) function p
      = .ok ((a, (v.map valInt).getD valUnit), p) := by
    rw [ocamlFunctionCallback, hassert, bind_ok (show ocamlAssert true _ p = .ok ((), p) from rfl), take_passed,
      bind_ok (hfun _ _ _ hy), ← hr, hc]
    rfl
  rw [ocamlCCall, bind_ok (show getRt p = .ok (p.rt, p) from rfl)]
  simp only [ht, hu, hcall]

end Ocaml

/-! ## The four languages -/

/-- **Calls from a script.** A registered function is called from the main thread
with integers. It makes `k` calls of `PopInt`, no more than there are arguments,
pushes `v` if there is one, and returns true. Then it has got `k` of the
arguments, from the last one on, in OCaml from the first; the script gets `v`, or
the language's empty value; and nothing else has changed. -/
theorem script_to_host_call (lua : Lua.LuaVm) (sq : Squirrel.SqVm) (gm : GameMonkey.GmVm) (ocaml : Ocaml.OcamlVm)
    (desc : FunctionDesc) (ns : List Int) (k : Nat) (v : Option Int) (hk : k ≤ ns.length) :
    ((∀ n ∈ ns, IsInt32 n) → ∀ (s : Lua.LuaState) (r : Nat) function,
      s.world.heap.closure r = .c .functionCallback [.lightuserdata (.functionInfo desc)] →
      function desc.function
        = userFunction ((Lua.luaBackend lua).threads Lua.luaView mainThread mainThread) (popsThenPush k v) →
      ∃ results, Lua.callC mainThread (.function r) (ns.map Lua.ofInt) (Lua.luaFunctionCallback function mainThread) s
          = .ok ((popped (ns.reverse.take k) v, results), s) ∧
        results.headD .nil = (v.map Lua.ofInt).getD .nil) ∧
    (∀ (s : Squirrel.SqState) (this : Squirrel.SqValue) function,
      function desc.function
        = userFunction ((Squirrel.sqBackend sq).threads Squirrel.sqView mainThread mainThread) (popsThenPush k v) →
      Squirrel.callNative mainThread [.userpointer (.functionInfo desc)] this (ns.map .integer)
          (Squirrel.squirrelFunctionCallback function mainThread) s
        = .ok ((popped (ns.reverse.take k) v, (v.map Squirrel.SqValue.integer).getD .null), s)) ∧
    (∀ (s : GameMonkey.GmState) (this : GameMonkey.GmValue) function,
      function desc.function
        = userFunction ((GameMonkey.gmBackend gm).threads GameMonkey.gmView mainThread mainThread) (popsThenPush k v) →
      GameMonkey.callNative mainThread this (ns.map .int)
          (GameMonkey.gmFunctionCallback function mainThread (.functionInfo desc)) s
        = .ok ((popped (ns.reverse.take k) v, (v.map GameMonkey.GmValue.int).getD .null), s)) ∧
    (ns.length ≤ 2 → desc.numParams = ns.length → (∀ n ∈ ns, Ocaml.IsInt31 n) → (∀ n ∈ v, Ocaml.IsInt31 n) →
      ∀ (p : Ocaml.OcamlProcess) (context prim : Nat) function,
      p.rt.tables.primTable[prim]? = some (.functionCallback ns.length) →
      p.rt.tables.primTableUserData[prim]? = some (some { context, desc }) →
      function desc.function = userFunction (Ocaml.ocamlBackend ocaml) (popsThenPush k v) →
      Ocaml.ocamlCCall prim (Ocaml.passed ns) function p
        = .ok ((popped (ns.take k) v, (v.map Ocaml.valInt).getD Ocaml.valUnit), p)) := by
  refine ⟨?_, ?_, ?_, ?_⟩
  · intro hns s r function hc hfun
    refine ⟨(v.map Lua.ofInt).toList, Lua.functionCall lua v hk hns hc (hfun ▸ userFunction_follows _ _ _), ?_⟩
    cases v <;> rfl
  · intro s this function hfun
    exact Squirrel.functionCall sq v hk (hfun ▸ userFunction_follows _ _ _)
  · intro s this function hfun
    exact GameMonkey.functionCall gm v mainThread hk (hfun ▸ userFunction_follows _ _ _)
  · intro _ hn hns _ p context prim function ht hu hfun
    have hn' : ({ context, desc } : Ocaml.OcamlFunctionInfo).desc.numParams = ns.length := hn
    exact Ocaml.functionCall ocaml v hk hns hn' ht hu (hfun ▸ userFunction_follows _ _ _)

/-- `f(1, 2, 3)` of a function that pops two of its arguments and pushes 7, and in
OCaml `f 1 2` of one that pops one of them. -/
theorem script_to_host_call_leftover :
    let lua := Lua.LuaVm.ending (.returned [])
    let sq := Squirrel.SqVm.ending none
    let ocaml := Ocaml.OcamlVm.printing []
    let desc : FunctionDesc := { addr := 0, name := cstr "f", function := 0, numParams := 2 }
    let info : HostPtr := .functionInfo desc
    let heap := { Lua.LuaHeap.binding [] with closure := fun _ => .c .functionCallback [.lightuserdata info] }
    let ls : Lua.LuaState :=
      { frame := fun _ => ⟨.nil, []⟩, world := (Lua.createContext heap).world, objects := .empty }
    let ss : Squirrel.SqState :=
      { frame := fun _ => ⟨[.table 0], 0⟩, world := (Squirrel.createContext (.binding [])).world, objects := .empty }
    let tables : Ocaml.Tables := { globalData := 0, primTable := [.functionCallback 2],
                                   primTableUserData := [some { context := 0, desc }] }
    let p : Ocaml.OcamlProcess :=
      { Ocaml.OcamlProcess.initial none with rt := { Ocaml.CamlRuntime.initial with tables } }
    (∃ results, Lua.callC mainThread (.function 0) ([1, 2, 3].map Lua.ofInt) (Lua.luaFunctionCallback
          (fun _ => userFunction ((Lua.luaBackend lua).threads Lua.luaView mainThread mainThread)
            (popsThenPush 2 (some 7)))
          mainThread) ls
        = .ok ((popped [3, 2] (some 7), results), ls) ∧ results.headD .nil = Lua.ofInt 7) ∧
      Squirrel.callNative mainThread [.userpointer info] (.table 0) ([1, 2, 3].map .integer)
          (Squirrel.squirrelFunctionCallback (fun _ => userFunction
            ((Squirrel.sqBackend sq).threads Squirrel.sqView mainThread mainThread)
            (popsThenPush 2 none)) mainThread) ss
        = .ok ((popped [3, 2] none, .null), ss) ∧
      Ocaml.ocamlCCall 0 (Ocaml.passed [1, 2])
          (fun _ => userFunction (Ocaml.ocamlBackend ocaml) (popsThenPush 1 (some 7))) p
        = .ok ((popped [1] (some 7), Ocaml.valInt 7), p) := by
  intro lua sq ocaml desc info heap ls ss tables p
  have gm : GameMonkey.GmVm := { call := fun _ _ w => (none, w), executeString := fun _ w => (0, w) }
  refine ⟨?_, ?_, ?_⟩
  · exact (script_to_host_call lua sq gm ocaml desc [1, 2, 3] 2 (some 7) (by decide)).1 (by decide) ls 0 _ rfl rfl
  · exact (script_to_host_call lua sq gm ocaml desc [1, 2, 3] 2 none (by decide)).2.1 ss (.table 0) _ rfl
  · exact (script_to_host_call lua sq gm ocaml desc [1, 2] 1 (some 7) (by decide)).2.2.2 (by decide) rfl (by decide)
      (by decide) p 0 0 _ rfl rfl rfl

end MultiScript
