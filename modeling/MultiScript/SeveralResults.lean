/-
A registered function that pushes several integers, called where one value is wanted. Lua
takes the first of the results, Squirrel and GameMonkey the value on top of the stack, and
all of them accept every push. The OCaml stack has room for one result, and refuses the
pushes after it.
-/
import MultiScript.FunctionCalls
import MultiScript.GameMonkey.Protocol

namespace MultiScript

open Run Handles Act

variable {C H F V W : Type}

/-- The push of an event on the function's own stack. -/
def ownPush : Event → Option Push
  | .push p => some p
  | _ => none

/-- What a function pushes, in order. -/
def pushes (es : List Event) : List Push := es.filterMap ownPush

/-- What an own push was answered. -/
def pushAnswer : Event × Obs F V → Option Bool
  | (.push _, .pushed ok) => some ok
  | _ => none

def answers (es : List Event) (os : List (Obs F V)) : List Bool := (es.zip os).filterMap pushAnswer

theorem pushes_cons (e : Event) (es : List Event) : pushes (e :: es) = (ownPush e).toList ++ pushes es := by
  cases h : ownPush e <;> simp [pushes, h]

theorem answers_cons (e : Event) (es : List Event) (o : Obs F V) (os : List (Obs F V)) :
    answers (e :: es) (o :: os) = (pushAnswer (e, o)).toList ++ answers es os := by
  cases h : pushAnswer (e, o) <;> simp [answers, h]

/-- Only a push on its own stack adds to what the function has pushed, and it is accepted. -/
theorem specStep_pushed {lang : Lang F V W} {e : Event} {o : Obs F V} {t t' : Spec F V W}
    (h : specStep lang e t = .ok (o, t')) : t'.pushed = t.pushed ++ ((ownPush e).map lang.ofPush).toList ∧
      pushAnswer (e, o) = (ownPush e).map fun _ => true := by
  cases e with
  | push p =>
    cases h
    exact ⟨rfl, rfl⟩
  | numParams =>
    cases h
    exact ⟨(List.append_nil _).symm, rfl⟩
  | ret =>
    cases h
    exact ⟨(List.append_nil _).symm, rfl⟩
  | pop p =>
    obtain ⟨a, args, -, rfl, rfl⟩ := specStep_pop h
    exact ⟨(List.append_nil _).symm, rfl⟩
  | begin name =>
    obtain ⟨f, world, -, rfl, rfl⟩ := specStep_begin h
    exact ⟨(List.append_nil _).symm, rfl⟩
  | callPush n p =>
    obtain ⟨f, args, -, rfl, rfl⟩ := specStep_callPush h
    exact ⟨(List.append_nil _).symm, rfl⟩
  | callNumParams n =>
    obtain ⟨total, results, -, rfl, rfl⟩ := specStep_callNumParams h
    exact ⟨(List.append_nil _).symm, rfl⟩
  | release n =>
    obtain ⟨total, -, rfl, rfl⟩ := specStep_release h
    exact ⟨(List.append_nil _).symm, rfl⟩
  | endCall n =>
    obtain ⟨f, args, results, world, -, -, rfl, rfl⟩ := specStep_endCall h
    exact ⟨(List.append_nil _).symm, rfl⟩
  | callPop n p =>
    obtain ⟨total, results, a, results', -, -, rfl, rfl⟩ := specStep_callPop h
    exact ⟨(List.append_nil _).symm, rfl⟩

theorem spec_pushed {lang : Lang F V W} {es : List Event} {os : List (Obs F V)} {t t' : Spec F V W}
    (h : (spec lang).run es t = .ok (os, t')) : t'.pushed = t.pushed ++ (pushes es).map lang.ofPush ∧
      answers es os = (pushes es).map fun _ => true := by
  induction es generalizing t os with
  | nil =>
    cases h
    exact ⟨(List.append_nil _).symm, rfl⟩
  | cons e es ih =>
    obtain ⟨o, t₁, os₁, hstep, hrest, rfl⟩ := Machine.run_cons_inv h
    obtain ⟨hpushed, hanswer⟩ := specStep_pushed hstep
    obtain ⟨hpushed', hanswers⟩ := ih hrest
    constructor
    · rw [hpushed', hpushed, pushes_cons, List.map_append, List.append_assoc]
      cases ownPush e <;> rfl
    · rw [answers_cons, hanswer, hanswers, pushes_cons, List.map_append]
      cases ownPush e <;> rfl

/-- The body of a function that pushes `vs` and does nothing else. -/
def pushing (vs : List Int) : List Event := vs.map fun n => .push (.int n)

theorem pushes_pushing (vs : List Int) : pushes (pushing vs) = vs.map .int := by
  induction vs with
  | nil => rfl
  | cons n vs ih => rw [List.map_cons, ← ih]; rfl

theorem spec_pushing (lang : Lang F V W) (vs : List Int) (t : Spec F V W) :
    (spec lang).run (pushing vs) t =
      .ok (vs.map fun _ => .pushed true, { t with pushed := t.pushed ++ vs.map fun n => lang.ofPush (.int n) }) := by
  induction vs generalizing t with
  | nil => simp [pushing]
  | cons n vs ih =>
    have hstep : (spec lang).step (.push (.int n)) t =
        .ok (.pushed true, { t with pushed := t.pushed ++ [lang.ofPush (.int n)] }) := rfl
    rw [pushing, List.map_cons, Machine.run_cons _ _ hstep]
    have hrest := ih { t with pushed := t.pushed ++ [lang.ofPush (.int n)] }
    rw [pushing] at hrest
    rw [hrest]
    simp [Except.map]

/-- Pushes alone are allowed where no inner call is open. -/
theorem spec_pushing_meets (lang : Lang F V W) {P : Event → Spec F V W → Prop}
    (hP : ∀ (t : Spec F V W) p, (∀ h, t.inner h = .closed) → P (.push p) t) (vs : List Int) (t : Spec F V W)
    (ht : ∀ h, t.inner h = .closed) : (spec lang).Meets P (pushing vs) t := by
  induction vs generalizing t with
  | nil => trivial
  | cons n vs ih =>
    refine ⟨hP t _ ht, fun o t' h => ?_⟩
    cases h
    exact ih _ ht

/-! ## A call in each backend -/

namespace Lua

/-- A call, from the main thread, of a function that pushes `vs`. What else it does is in an
order that is allowed, and its inner calls are released. -/
structure PushingCall (vm : LuaVm) (vs : List Int) where
  s : LuaState
  closure : Nat
  desc : FunctionDesc
  args : List LuaValue
  body : List Event
  seen : List (Obs LuaValue LuaValue)
  after : Spec LuaValue LuaValue LuaWorld
  bound : s.world.heap.closure closure = .c .functionCallback [.lightuserdata (.functionInfo desc)]
  allowed : (spec (luaLang vm)).Meets Allowed body (.start args s.world)
  run : (spec (luaLang vm)).run body (.start args s.world) = .ok (seen, after)
  idle : Idle after
  pushes : pushes body = vs.map .int

variable {vm : LuaVm} {vs : List Int}

/-- The function, which does its body and returns true. -/
def PushingCall.function (call : PushingCall vm vs) : CodePtr → LuaScriptStack →
    LuaS (UserResult (List (Obs LuaValue LuaValue)) LuaScriptStack) :=
  fun _ => userFunction ((luaBackend vm).threads luaView mainThread mainThread) call.body

/-- What the script has for the call where one value is wanted. -/
def PushingCall.received (call : PushingCall vm vs) : Except Fault LuaValue :=
  (callC mainThread (.function call.closure) call.args (luaFunctionCallback call.function mainThread) call.s).map
    fun r => r.1.2.headD .nil

theorem PushingCall.received_eq (call : PushingCall vm vs) : call.received = .ok ((vs.map ofInt).headD .nil) := by
  have hfun : Follows ((luaBackend vm).threads luaView mainThread mainThread) call.body call.seen call.seen
      (call.function call.desc.function) := userFunction_follows _ _ _
  have hpushed : call.after.pushed = vs.map ofInt := by
    rw [(spec_pushed call.run).1, call.pushes, List.map_map]
    rfl
  rw [received, functionRun vm call.allowed call.run call.idle call.bound hfun, hpushed]
  rfl

/-- A function that only pushes. -/
def PushingCall.pushing (vm : LuaVm) (vs : List Int) : PushingCall vm vs where
  s :=
    let desc : FunctionDesc := { addr := 0, name := cstr "f", function := 0, numParams := 0 }
    let heap :=
      { LuaHeap.binding [] with closure := fun _ => .c .functionCallback [.lightuserdata (.functionInfo desc)] }
    { frame := fun _ => ⟨.nil, []⟩, world := (createContext heap).world, objects := .empty }
  closure := 0
  desc := { addr := 0, name := cstr "f", function := 0, numParams := 0 }
  args := []
  body := MultiScript.pushing vs
  seen := vs.map fun _ => .pushed true
  after := { Spec.start [] (createContext { LuaHeap.binding [] with
    closure := fun _ => .c .functionCallback [.lightuserdata (.functionInfo
      { addr := 0, name := cstr "f", function := 0, numParams := 0 })] }).world with pushed := vs.map ofInt }
  bound := rfl
  allowed := spec_pushing_meets _ (fun t p ht h => by rw [ht h]; trivial) vs _ fun _ => rfl
  run := spec_pushing _ vs _
  idle _ := trivial
  pushes := pushes_pushing vs

end Lua

namespace Squirrel

/-- A call, from the main thread, of a function that pushes `vs`. -/
structure PushingCall (vm : SqVm) (vs : List Int) where
  s : SqState
  this : SqValue
  desc : FunctionDesc
  args : List SqValue
  body : List Event
  seen : List (Obs Callee SqValue)
  after : Spec Callee SqValue SqWorld
  allowed : (spec (sqLang vm)).Meets (Allowed this) body (.start args s.world)
  run : (spec (sqLang vm)).run body (.start args s.world) = .ok (seen, after)
  free : Free after
  pushes : pushes body = vs.map .int

variable {vm : SqVm} {vs : List Int}

def PushingCall.function (call : PushingCall vm vs) :
    CodePtr → SquirrelScriptStack → SqS (UserResult (List (Obs Callee SqValue)) SquirrelScriptStack) :=
  fun _ => userFunction ((sqBackend vm).threads sqView mainThread mainThread) call.body

def PushingCall.received (call : PushingCall vm vs) : Except Fault SqValue :=
  (callNative mainThread [.userpointer (.functionInfo call.desc)] call.this call.args
    (squirrelFunctionCallback call.function mainThread) call.s).map fun r => r.1.2

theorem PushingCall.received_eq (call : PushingCall vm vs) :
    call.received = .ok ((vs.map SqValue.integer).getLast?.getD .null) := by
  have hfun : Follows ((sqBackend vm).threads sqView mainThread mainThread) call.body call.seen call.seen
      (call.function call.desc.function) := userFunction_follows _ _ _
  have hpushed : call.after.pushed = vs.map SqValue.integer := by
    rw [(spec_pushed call.run).1, call.pushes, List.map_map]
    rfl
  rw [received, functionRun vm call.allowed call.run call.free hfun, hpushed]
  rfl

def PushingCall.pushing (vm : SqVm) (vs : List Int) : PushingCall vm vs where
  s := { frame := fun _ => ⟨[.table 0], 0⟩, world := (createContext (.binding [])).world, objects := .empty }
  this := .table 0
  desc := { addr := 0, name := cstr "f", function := 0, numParams := 0 }
  args := []
  body := MultiScript.pushing vs
  seen := vs.map fun _ => .pushed true
  after := { Spec.start [] (createContext (.binding [])).world with pushed := vs.map SqValue.integer }
  allowed := spec_pushing_meets _ (fun _ _ ht => ht) vs _ fun _ => rfl
  run := spec_pushing _ vs _
  free _ := rfl
  pushes := pushes_pushing vs

end Squirrel

namespace GameMonkey

/-- A call, from any thread, of a function that pushes `vs`. The scripts it calls leave its
thread alone. -/
structure PushingCall (vm : GmVm) (vs : List Int) where
  s : GmState
  L : Nat
  this : GmValue
  desc : FunctionDesc
  args : List GmValue
  body : List Event
  seen : List (Obs GmValue GmValue)
  after : Host GMScriptContext GMScriptStack
  run : (handles (gmBackend vm)).run body (gmStart this args s.world) = .ok (seen, after)
  pushes : pushes body = vs.map .int

variable {vm : GmVm} {vs : List Int} {e : Event} {es : List Event} {o : Obs GmValue GmValue}
  {os : List (Obs GmValue GmValue)} {s s' : Host GMScriptContext GMScriptStack}

/-- The function's own stack works on its thread, and every other handle on a call. -/
def Apart (s : Host GMScriptContext GMScriptStack) : Prop :=
  s.stack.call = none ∧ ∀ h st, s.inner h = some st → st.call.isSome = true

theorem Apart.set (hs : Apart s) {c : GMScriptContext} {next h : Nat} {i : Option GMScriptStack}
    (hi : ∀ st, i = some st → st.call.isSome = true) : Apart { s.set h i with c, next } := by
  refine ⟨hs.1, fun h' st hst => ?_⟩
  by_cases he : h' = h
  · subst he
    exact hi st (by simpa [Host.set] using hst)
  · exact hs.2 h' st (by simpa [Host.set, Function.update_of_ne he] using hst)

/-- The handle an operation is made on. -/
theorem onInner_inv {α : Type} {h : Nat} {op : GMScriptStack → GMScriptContext → Except Fault (α × GMScriptContext)}
    {r : α × GMScriptContext} (ho : onInner s h op = .ok r) : ∃ st, s.inner h = some st ∧ op st s.c = .ok r := by
  unfold onInner at ho
  cases hi : s.inner h with
  | none => rw [hi] at ho; cases ho
  | some st => rw [hi] at ho; exact ⟨st, rfl, ho⟩

theorem pop_call {st : GMScriptStack} {p : Pop} {r : Answer × GMScriptStack} {c c' : GMScriptContext}
    (h : st.pop p c = .ok (r, c')) : r.2.call = st.call := by
  cases p with
  | int =>
    obtain ⟨q, c₁, hq, h⟩ := bind_ok_inv h
    cases h
    unfold GMScriptStack.popInt at hq
    repeat' split at hq
    all_goals cases hq; rfl
  | scriptObject =>
    obtain ⟨q, c₁, hq, h⟩ := bind_ok_inv h
    cases h
    unfold GMScriptStack.popScriptObject at hq
    repeat' split at hq
    all_goals cases hq
    all_goals rfl

theorem endCall_call {st : GMScriptStack} {r : Bool × GMScriptStack} {c c' : GMScriptContext}
    (h : st.endCall vm c = .ok (r, c')) : r.2.call.isSome = true ∧ c'.thread = c.thread := by
  unfold GMScriptStack.endCall at h
  repeat' split at h
  all_goals cases h
  all_goals exact ⟨rfl, rfl⟩

/-- Only a push on its own stack adds to what is on the function's thread, and it is accepted. -/
theorem gm_step_pushed (hs : Apart s) (h : hostStep (gmBackend vm) e s = .ok (o, s')) : Apart s' ∧
    s'.c.thread.pushed = ((ownPush e).map GMScriptStack.pushed).toList ++ s.c.thread.pushed ∧
      pushAnswer (e, o) = (ownPush e).map fun _ => true := by
  cases e with
  | push p =>
    obtain ⟨r, c, hp, h⟩ := bind_pair_ok h
    cases h
    have hp' : s.stack.push p s.c = .ok (r, c) := hp
    simp only [GMScriptStack.push, hs.1] at hp'
    cases hp'
    exact ⟨hs, rfl, rfl⟩
  | numParams => cases h; exact ⟨hs, rfl, rfl⟩
  | ret => cases h; exact ⟨hs, rfl, rfl⟩
  | pop p =>
    obtain ⟨r, c, hp, h⟩ := bind_pair_ok h
    cases h
    obtain rfl : c = s.c := pop_context hp
    exact ⟨⟨(pop_call hp).trans hs.1, hs.2⟩, rfl, rfl⟩
  | begin name =>
    obtain ⟨i, c, hp, h⟩ := bind_pair_ok h
    have hp' : beginCall name s.c = .ok (i, c) := hp
    unfold beginCall at hp'
    split at hp' <;> cases hp' <;> cases h
    · exact ⟨hs.set fun st hst => by cases hst; rfl, rfl, rfl⟩
    · exact ⟨hs, rfl, rfl⟩
  | callPush n p =>
    obtain ⟨r, c, hp, h⟩ := bind_pair_ok h
    cases h
    obtain ⟨st, hi, hp⟩ := onInner_inv hp
    obtain ⟨call, hcall⟩ := Option.isSome_iff_exists.mp (hs.2 n st hi)
    have hp' : st.push p s.c = .ok (r, c) := hp
    simp only [GMScriptStack.push, hcall] at hp'
    cases hp'
    exact ⟨hs.set fun st hst => by cases hst; rfl, rfl, rfl⟩
  | endCall n =>
    obtain ⟨r, c, hp, h⟩ := bind_pair_ok h
    cases h
    obtain ⟨st, hi, hp⟩ := onInner_inv hp
    obtain ⟨q, hq, he⟩ : ∃ q, st.endCall vm s.c = .ok q ∧ ((q.1, (gmBackend vm).target st s.c), q.2) = (r, c) := by
      cases hq : st.endCall vm s.c with
      | error f => simp only [gmBackend, hq, Except.map] at hp; cases hp
      | ok q => exact ⟨q, rfl, by simpa only [gmBackend, hq, Except.map, Except.ok.injEq] using hp⟩
    cases he
    obtain ⟨hcall, hthread⟩ := endCall_call hq
    exact ⟨hs.set fun st hst => by cases hst; exact hcall, congrArg GmThread.pushed hthread, rfl⟩
  | callPop n p =>
    obtain ⟨r, c, hp, h⟩ := bind_pair_ok h
    cases h
    obtain ⟨st, hi, hp⟩ := onInner_inv hp
    obtain rfl : c = s.c := pop_context hp
    exact ⟨hs.set fun st' hst => by cases hst; rw [pop_call hp]; exact hs.2 n st hi, rfl, rfl⟩
  | callNumParams n =>
    obtain ⟨r, c, hp, h⟩ := bind_pair_ok h
    cases h
    obtain ⟨st, -, hp⟩ := onInner_inv hp
    cases hp
    exact ⟨hs, rfl, rfl⟩
  | release n =>
    obtain ⟨r, c, hp, h⟩ := bind_pair_ok h
    cases h
    obtain ⟨st, hi, hp⟩ := onInner_inv hp
    have hp' : gmAssert st.call.isSome "m_call" s.c = .ok (r, c) := hp
    rw [hs.2 n st hi] at hp'
    cases hp'
    exact ⟨hs.set fun st hst => (by cases hst), rfl, rfl⟩

theorem gm_run_pushed (hs : Apart s) (h : (handles (gmBackend vm)).run es s = .ok (os, s')) :
    s'.c.thread.pushed = ((pushes es).map GMScriptStack.pushed).reverse ++ s.c.thread.pushed ∧
      answers es os = (pushes es).map fun _ => true := by
  induction es generalizing s os with
  | nil =>
    cases h
    exact ⟨rfl, rfl⟩
  | cons e es ih =>
    obtain ⟨o, s₁, os₁, hstep, hrest, rfl⟩ := Machine.run_cons_inv h
    obtain ⟨hs₁, hpushed, hanswer⟩ := gm_step_pushed hs hstep
    obtain ⟨hpushed', hanswers⟩ := ih hs₁ hrest
    rw [hpushed', hpushed, answers_cons, hanswer, hanswers, pushes_cons]
    cases ownPush e <;> simp

/-- After the pushes of `vs` on the function's own stack. -/
def pushedOn (vs : List Int) (s : Host GMScriptContext GMScriptStack) : Host GMScriptContext GMScriptStack :=
  { s with c := { s.c with thread := { s.c.thread with pushed := (vs.map GmValue.int).reverse ++ s.c.thread.pushed } } }

theorem gm_pushing (vm : GmVm) (vs : List Int) (hs : s.stack.call = none) :
    (handles (gmBackend vm)).run (pushing vs) s = .ok (vs.map fun _ => .pushed true, pushedOn vs s) := by
  induction vs generalizing s with
  | nil => rfl
  | cons n vs ih =>
    have hpush : s.stack.push (.int n) s.c =
        .ok ((true, s.stack), { s.c with thread := { s.c.thread with pushed := .int n :: s.c.thread.pushed } }) := by
      simp only [GMScriptStack.push, hs]
      rfl
    have hstep : (handles (gmBackend vm)).step (.push (.int n)) s = .ok (.pushed true, pushedOn [n] s) := by
      simp only [handles, hostStep, gmBackend, hpush]
      rfl
    rw [pushing, List.map_cons, Machine.run_cons _ _ hstep]
    have hrest := ih (s := pushedOn [n] s) hs
    rw [pushing] at hrest
    rw [hrest]
    simp [Except.map, pushedOn]

theorem gmStart_apart (this : GmValue) (args : List GmValue) (w : GmWorld) : Apart (gmStart this args w) :=
  ⟨rfl, fun _ _ h => nomatch h⟩

def PushingCall.function (call : PushingCall vm vs) : CodePtr → GMScriptStack →
    GmS (UserResult (List (Obs GmValue GmValue)) GMScriptStack) :=
  fun _ => userFunction ((gmBackend vm).threads gmView call.L call.L) call.body

def PushingCall.received (call : PushingCall vm vs) : Except Fault GmValue :=
  (callNative call.L call.this call.args (gmFunctionCallback call.function call.L (.functionInfo call.desc)) call.s).map
    fun r => r.1.2

theorem PushingCall.answered (call : PushingCall vm vs) : answers call.body call.seen = vs.map fun _ => true := by
  rw [(gm_run_pushed (gmStart_apart _ _ _) call.run).2, call.pushes, List.map_map]
  rfl

theorem PushingCall.received_eq (call : PushingCall vm vs) :
    call.received = .ok ((vs.map GmValue.int).getLast?.getD .null) := by
  have hfun : Follows ((gmBackend vm).threads gmView call.L call.L) call.body call.seen call.seen
      (call.function call.desc.function) := userFunction_follows _ _ _
  have hpushed : call.after.c.thread.pushed = (vs.map GmValue.int).reverse := by
    rw [(gm_run_pushed (gmStart_apart _ _ _) call.run).1, call.pushes, List.map_map]
    exact List.append_nil _
  rw [received, functionRun vm call.L call.run hfun]
  simp only [Except.map, GmThread.result, hpushed, List.headD_eq_head?_getD, List.head?_reverse]

def PushingCall.pushing (vm : GmVm) (vs : List Int) : PushingCall vm vs where
  s := { frame := fun _ => { this := .null, params := [], pushed := [] },
         world := (createContext 0 (fun _ => .null) fun _ => .other 0).world, objects := .empty }
  L := 0
  this := .null
  desc := { addr := 0, name := cstr "f", function := 0, numParams := 0 }
  args := []
  body := MultiScript.pushing vs
  seen := vs.map fun _ => .pushed true
  after := pushedOn vs (gmStart .null [] (createContext 0 (fun _ => .null) fun _ => .other 0).world)
  run := gm_pushing vm vs rfl
  pushes := pushes_pushing vs

end GameMonkey

namespace Ocaml

variable {vm : OcamlVm} {vs : List Int}

/-- A call of a function that pushes `vs`. -/
structure PushingCall (vm : OcamlVm) (vs : List Int) where
  p : OcamlProcess
  info : OcamlFunctionInfo
  prim : Nat
  numArgs : Nat
  args : List Word
  body : List Handles.Event
  seen : List (Handles.Obs Closure Word)
  after : Host OcamlProcess OcamlScriptStack
  table : p.rt.tables.primTable[prim]? = some (.functionCallback numArgs)
  userData : p.rt.tables.primTableUserData[prim]? = some (some info)
  numParams : info.desc.numParams = numArgs
  run : (handles (ocamlBackend vm)).run body (.start p (callbackStack (args.take numArgs))) = .ok (seen, after)
  pushes : pushes body = vs.map .int

def PushingCall.function (call : PushingCall vm vs) :
    CodePtr → OcamlScriptStack → OcamlM (UserResult (List (Handles.Obs Closure Word)) OcamlScriptStack) :=
  fun _ => userFunction (ocamlBackend vm) call.body

def PushingCall.received (call : PushingCall vm vs) : Except Fault Word :=
  (ocamlCCall call.prim call.args call.function call.p).map fun r => r.1.2

theorem PushingCall.received_eq (call : PushingCall vm vs) : call.received = .ok call.after.stack.result := by
  have hfun : Follows (ocamlBackend vm) call.body call.seen call.seen (call.function call.info.desc.function) :=
    userFunction_follows _ _ _
  have hassert : (call.info.desc.numParams == (call.numArgs : Int)) = true := by simp [call.numParams]
  rw [received, ocamlCCall, bind_ok (show getRt call.p = .ok (call.p.rt, call.p) from rfl)]
  simp only [call.table, call.userData, ocamlFunctionCallback]
  rw [hassert, bind_ok (show ocamlAssert true _ call.p = .ok ((), call.p) from rfl), bind_ok (hfun _ _ _ call.run)]
  rfl

/-- The result, if one was pushed. -/
def OcamlScriptStack.pushed? (st : OcamlScriptStack) : Option Word := if st.numPushed = 0 then none else some st.result

def pushedWord : Push → Word
  | .int n => valInt n
  | .string _ _ => valUnit

variable {e : Handles.Event} {es : List Handles.Event} {o : Handles.Obs Closure Word}
    {os : List (Handles.Obs Closure Word)}
  {s s' : Host OcamlProcess OcamlScriptStack}

/-- What is not a push on the function's own stack leaves what was pushed on it. -/
theorem ocaml_step_other (he : ownPush e = none) (h : hostStep (ocamlBackend vm) e s = .ok (o, s')) :
    s'.stack.closure = s.stack.closure ∧ s'.stack.numPushed = s.stack.numPushed ∧ s'.stack.result = s.stack.result := by
  cases e with
  | push p => cases he
  | numParams => cases h; exact ⟨rfl, rfl, rfl⟩
  | ret => cases h; exact ⟨rfl, rfl, rfl⟩
  | pop p =>
    obtain ⟨r, c, hp, h⟩ := bind_pair_ok h
    cases h
    cases p with
    | int =>
      cases hp
      simp only [OcamlScriptStack.popInt]
      repeat' split
      all_goals exact ⟨rfl, rfl, rfl⟩
    | scriptObject => cases hp
  | begin name =>
    obtain ⟨i, c, hp, h⟩ := bind_pair_ok h
    cases i with
    | none => cases h; exact ⟨rfl, rfl, rfl⟩
    | some i => cases h; exact ⟨rfl, rfl, rfl⟩
  | callPush n p =>
    obtain ⟨r, c, hp, h⟩ := bind_pair_ok h
    cases h
    exact ⟨rfl, rfl, rfl⟩
  | endCall n =>
    obtain ⟨r, c, hp, h⟩ := bind_pair_ok h
    cases h
    exact ⟨rfl, rfl, rfl⟩
  | callPop n p =>
    obtain ⟨r, c, hp, h⟩ := bind_pair_ok h
    cases h
    exact ⟨rfl, rfl, rfl⟩
  | callNumParams n =>
    obtain ⟨r, c, hp, h⟩ := bind_pair_ok h
    cases h
    exact ⟨rfl, rfl, rfl⟩
  | release n =>
    obtain ⟨r, c, hp, h⟩ := bind_pair_ok h
    cases h
    exact ⟨rfl, rfl, rfl⟩

theorem pushAnswer_other (he : ownPush e = none) : pushAnswer (e, o) = none := by
  cases e with
  | push p => cases he
  | _ => rfl

/-- The first push is the result, and those after it are refused. -/
theorem ocaml_step (hc : s.stack.closure = none) (hn : s.stack.numPushed ≤ 1)
    (h : hostStep (ocamlBackend vm) e s = .ok (o, s')) : s'.stack.closure = none ∧ s'.stack.numPushed ≤ 1 ∧
      s'.stack.pushed? = s.stack.pushed?.or ((ownPush e).map pushedWord) ∧
      pushAnswer (e, o) = (ownPush e).map fun _ => s.stack.pushed?.isNone := by
  cases he : ownPush e with
  | none =>
    obtain ⟨hclosure, hpushed, hresult⟩ := ocaml_step_other he h
    refine ⟨hclosure.trans hc, by omega, ?_, pushAnswer_other he⟩
    simp [OcamlScriptStack.pushed?, hpushed, hresult]
  | some p =>
    cases e with
    | push q =>
      obtain ⟨r, c, hp, h⟩ := bind_pair_ok h
      cases h
      cases he
      cases p with
      | string string length => cases hp
      | int n =>
        cases hp
        have hcall : s.stack.isCall = false := by simp [OcamlScriptStack.isCall, hc]
        by_cases hone : s.stack.numPushed = 1
        · have hpush : s.stack.pushInt n = (false, s.stack) := by simp [OcamlScriptStack.pushInt, hcall, hone]
          simp only [hpush]
          exact ⟨hc, hn, by simp [OcamlScriptStack.pushed?, hone], by simp [OcamlScriptStack.pushed?, hone, pushAnswer]⟩
        · have hzero : s.stack.numPushed = 0 := by omega
          have hpush : s.stack.pushInt n = (true, { s.stack with result := valInt n, numPushed := 1 }) := by
            simp [OcamlScriptStack.pushInt, hcall, hzero, valInt]
          simp only [hpush]
          exact ⟨hc, Nat.le_refl _, by simp [OcamlScriptStack.pushed?, hzero, pushedWord],
            by simp [OcamlScriptStack.pushed?, hzero, pushAnswer]⟩
    | _ => cases he

theorem ocaml_run (hc : s.stack.closure = none) (hn : s.stack.numPushed ≤ 1)
    (h : (handles (ocamlBackend vm)).run es s = .ok (os, s')) :
    s'.stack.pushed? = s.stack.pushed?.or ((pushes es).head?.map pushedWord) ∧
      answers es os = ((pushes es).take 1).map (fun _ => s.stack.pushed?.isNone) ++ ((pushes es).drop 1).map fun _ =>
        false := by
  induction es generalizing s os with
  | nil =>
    cases h
    simp [pushes, answers]
  | cons e es ih =>
    obtain ⟨o, s₁, os₁, hstep, hrest, rfl⟩ := Machine.run_cons_inv h
    obtain ⟨hc₁, hn₁, hpushed, hanswer⟩ := ocaml_step hc hn hstep
    obtain ⟨hpushed', hanswers⟩ := ih hc₁ hn₁ hrest
    rw [answers_cons, hanswer, hanswers, hpushed', pushes_cons, hpushed]
    cases ownPush e with
    | none => simp
    | some p =>
      cases hp : s.stack.pushed? with
      | none => cases hps : pushes es <;> simp
      | some v => cases hps : pushes es <;> simp

/-- What the script gets is the first value, and the function has seen the others refused. -/
theorem PushingCall.first {v : Int} (call : PushingCall vm (v :: vs)) : call.received = .ok (valInt v) ∧
    answers call.body call.seen = true :: vs.map fun _ => false := by
  obtain ⟨hpushed, hanswers⟩ := ocaml_run rfl (Nat.zero_le 1) call.run
  have hstart : (callbackStack (call.args.take call.numArgs)).pushed? = none := rfl
  simp only [Host.start, hstart, call.pushes] at hpushed hanswers
  constructor
  · have hresult : call.after.stack.pushed? = some (valInt v) := hpushed
    rw [call.received_eq]
    simp only [OcamlScriptStack.pushed?] at hresult
    split at hresult
    · cases hresult
    · rw [Option.some.inj hresult]
  · rw [hanswers]
    simp

theorem ocaml_refused (vs : List Int) (hc : s.stack.isCall = false) (hn : s.stack.numPushed = 1) :
    (handles (ocamlBackend vm)).run (pushing vs) s = .ok (vs.map fun _ => .pushed false, s) := by
  induction vs with
  | nil => rfl
  | cons n vs ih =>
    have hpush : s.stack.pushInt n = (false, s.stack) := by simp [OcamlScriptStack.pushInt, hc, hn]
    have hstep : (handles (ocamlBackend vm)).step (.push (.int n)) s =
        .ok (.pushed (s.stack.pushInt n).1, { s with stack := (s.stack.pushInt n).2 }) := rfl
    rw [hpush] at hstep
    have hrun := Machine.run_cons (handles (ocamlBackend vm)) (pushing vs) hstep
    rw [ih] at hrun
    exact hrun

/-- A process that has one registered function. -/
def oneFunction : OcamlProcess :=
  let desc : FunctionDesc := { addr := 0, name := cstr "f", function := 0, numParams := 0 }
  let tables :=
    { globalData := 0, primTable := [.functionCallback 0], primTableUserData := [some { context := 0, desc }] }
  { OcamlProcess.initial none with rt := { CamlRuntime.initial with tables } }

/-- A function that only pushes. -/
def PushingCall.pushing (vm : OcamlVm) (v : Int) (vs : List Int) : PushingCall vm (v :: vs) where
  p := oneFunction
  info := { context := 0, desc := { addr := 0, name := cstr "f", function := 0, numParams := 0 } }
  prim := 0
  numArgs := 0
  args := [valUnit]
  body := MultiScript.pushing (v :: vs)
  seen := .pushed true :: vs.map fun _ => .pushed false
  after := .start oneFunction { callbackStack [] with result := valInt v, numPushed := 1 }
  table := rfl
  userData := rfl
  numParams := rfl
  run := by
    have hstep : (handles (ocamlBackend vm)).step (.push (.int v)) (.start oneFunction (callbackStack [])) =
      .ok (.pushed true, .start oneFunction { callbackStack [] with result := valInt v, numPushed := 1 }) := rfl
    have hrun := Machine.run_cons (handles (ocamlBackend vm)) (MultiScript.pushing vs) hstep
    rw [ocaml_refused vs rfl rfl] at hrun
    exact hrun
  pushes := pushes_pushing (v :: vs)

end Ocaml

/-! ## The four backends -/

/-- **Several results.** A registered function pushes two integers or more, and a script has
the call where one value is wanted. Lua, Squirrel and GameMonkey accept all pushes; the script
has the same one of them exactly if the first and the last are one number. In OCaml the pushes
after the first are refused, and the first is what the script has. -/
theorem several_results_iff (lua : Lua.LuaVm) (sq : Squirrel.SqVm) (gm : GameMonkey.GmVm) (ocaml : Ocaml.OcamlVm)
    (v : Int) (vs : List Int) (hk : vs ≠ []) (l : Lua.PushingCall lua (v :: vs)) (q : Squirrel.PushingCall sq (v :: vs))
    (g : GameMonkey.PushingCall gm (v :: vs)) (o : Ocaml.PushingCall ocaml (v :: vs)) :
    (answers l.body l.seen = (v :: vs).map (fun _ => true) ∧ answers q.body q.seen = (v :: vs).map (fun _ => true) ∧
      answers g.body g.seen = (v :: vs).map fun _ => true) ∧
    ((∃ n ∈ v :: vs, l.received = .ok (Lua.ofInt n) ∧ q.received = .ok (.integer n) ∧ g.received = .ok (.int n)) ↔
      v = vs.getLast hk) ∧
    o.received = .ok (Ocaml.valInt v) ∧ answers o.body o.seen = true :: vs.map fun _ => false := by
  have hlast : ∀ {V : Type} (f : Int → V) (d : V), ((v :: vs).map f).getLast?.getD d = f (vs.getLast hk) := by
    intro V f d
    rw [List.getLast?_map, List.getLast?_cons_of_ne_nil hk, List.getLast?_eq_some_getLast hk]
    rfl
  refine ⟨⟨?_, ?_, ?_⟩, ?_, o.first⟩
  · rw [(spec_pushed l.run).2, l.pushes, List.map_map]
    rfl
  · rw [(spec_pushed q.run).2, q.pushes, List.map_map]
    rfl
  · exact g.answered
  · rw [l.received_eq, q.received_eq, g.received_eq, hlast, hlast]
    constructor
    · rintro ⟨n, -, hl, hq, -⟩
      cases hl
      cases hq
      rfl
    · intro h
      rw [← h]
      exact ⟨v, List.mem_cons_self, rfl, rfl, rfl⟩

/-- A function that pushes 1 and 2: Lua has 1, and Squirrel and GameMonkey have 2. -/
theorem several_results_differ :
    let l := Lua.PushingCall.pushing (.ending (.returned [])) [1, 2]
    let q := Squirrel.PushingCall.pushing (.ending none) [1, 2]
    let g :=
      GameMonkey.PushingCall.pushing { call := fun _ _ w => (none, w), executeString := fun _ w => (0, w) } [1, 2]
    l.received = .ok (Lua.ofInt 1) ∧ q.received = .ok (.integer 2) ∧ g.received = .ok (.int 2) ∧
      answers l.body l.seen = [true, true] ∧ answers q.body q.seen = [true, true] ∧
      answers g.body g.seen = [true, true] := by
  intro l q g
  exact ⟨l.received_eq, q.received_eq, g.received_eq, rfl, rfl, rfl⟩

/-- A function that pushes 7, 8 and 7. -/
theorem several_results_iff_three :
    let l := Lua.PushingCall.pushing (.ending (.returned [])) [7, 8, 7]
    let q := Squirrel.PushingCall.pushing (.ending none) [7, 8, 7]
    let g := GameMonkey.PushingCall.pushing { call := fun _ _ w => (none, w), executeString := fun _ w => (0, w) }
      [7, 8, 7]
    let o := Ocaml.PushingCall.pushing (.printing []) 7 [8, 7]
    (∃ n ∈ [7, 8, 7], l.received = .ok (Lua.ofInt n) ∧ q.received = .ok (.integer n) ∧ g.received = .ok (.int n)) ∧
      answers o.body o.seen = [true, false, false] := by
  intro l q g o
  obtain ⟨-, hsame, -, ho⟩ := several_results_iff _ _ _ _ 7 [8, 7] (List.cons_ne_nil _ _) l q g o
  exact ⟨hsame.mpr rfl, ho⟩

end MultiScript
