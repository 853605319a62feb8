/-
Which thread a callback works on. A script may call a registered function, a
constructor or a method from any thread of its VM. The `ScriptStack` of the
callback works on the calling thread in GameMonkey, and on the context's own
thread in Lua and Squirrel: there the two have to be the same.
-/
import MultiScript.Handles.Lua
import MultiScript.Handles.Squirrel
import MultiScript.Handles.GameMonkey
import MultiScript.Handles.Threads
import MultiScript.Lua.Callbacks
import MultiScript.Squirrel.Callbacks
import MultiScript.GameMonkey.Callbacks

namespace MultiScript

open Run Handles

/-- What a script calls. -/
inductive Callback
  | function (desc : FunctionDesc)
  | constructor (desc : ClassDesc)
  | method (desc : ClassDesc) (i : Nat)
deriving DecidableEq, Repr

/-- What a constructor returns is not on its stack in Lua and Squirrel, where it pushes
nothing. Else a callback does anything. -/
def Callback.Uses : Callback → Event → Prop
  | .constructor _, .ret => False
  | _, _ => True

/-- What is done with the callback's own stack. -/
def OwnStack : Event → Prop
  | .pop _ => True
  | .push _ => True
  | .numParams => True
  | .ret => True
  | _ => False

section

variable {C Fr H F V W : Type}

/-- The callback's stack is that of the call from the thread `L`: with whatever the
callback does, it observes what it would of the arguments alone, `t₀`, and where it
calls no scripts the frames of the other threads stay. -/
def ActsOnCaller (k : Callback) (lang : Lang F V W) (b : Backend (VmState Fr W) H F V)
    (P : Event → Spec F V W → Prop) (L : Nat) (t₀ : Spec F V W) (s : VmState Fr W) (st : H) : Prop :=
  ∀ es os t, (∀ e ∈ es, k.Uses e) → (spec lang).Meets P es t₀ → (spec lang).run es t₀ = .ok (os, t) →
    ∃ y, (handles b).run es (.start s st) = .ok (os, y) ∧
      ((∀ e ∈ es, OwnStack e) → ∀ L', L' ≠ L → y.c.frame L' = s.frame L')

variable {k : Callback} {lang : Lang F V W} {b : Backend C H F V} {v : FrameView C Fr W}
  {P : Event → Spec F V W → Prop} {L : Nat} {t₀ : Spec F V W} {s : VmState Fr W} {st : H}

/-- A backend that simulates independent handles does so on the thread it works on. -/
theorem actsOnCaller_self (h : ∀ es os t, (spec lang).Meets P es t₀ → (spec lang).run es t₀ = .ok (os, t) →
      ∃ x, (handles b).run es (.start (s.context v L) st) = .ok (os, x)) :
    ActsOnCaller k lang (b.threads v L L) P L t₀ s st := by
  intro es os t _ hm hr
  obtain ⟨x, hx⟩ := h es os t hm hr
  obtain ⟨y, hy, -, hothers, -⟩ := threads_run hx
  exact ⟨y, hy, fun _ => hothers⟩

/-- A stack that works on another thread changes it with the first push. -/
theorem not_actsOnCaller {S : Nat} (hne : S ≠ L) (hP : P (.push (.int 0)) t₀)
    (hpush : ∀ r c, b.push st (.int 0) (s.context v S) = .ok (r, c) → v.frame c ≠ s.frame S) :
    ¬ ActsOnCaller k lang (b.threads v S L) P L t₀ s st := by
  intro h
  have hm : (spec lang).Meets P [.push (.int 0)] t₀ := ⟨hP, fun _ _ _ => trivial⟩
  have huses : ∀ e ∈ ([.push (.int 0)] : List Event), k.Uses e ∧ OwnStack e := by
    intro e he
    rw [List.mem_singleton] at he
    subst he
    cases k <;> exact ⟨trivial, trivial⟩
  obtain ⟨y, hy, hown⟩ := h _ _ _ (fun e he => (huses e he).1) hm rfl
  have hothers := hown fun e he => (huses e he).2
  obtain ⟨o, s₁, os, hstep, hrun, -⟩ := Machine.run_cons_inv hy
  cases hrun
  obtain ⟨r, c, hp, he⟩ := bind_pair_ok hstep
  cases he
  have hp' : onThread v S (b.push st (.int 0)) s = .ok (r, c) := hp
  cases hb : b.push st (.int 0) (s.context v S) with
  | error f => rw [onThread_error hb] at hp'; cases hp'
  | ok q =>
    rw [onThread_ok hb] at hp'
    cases hp'
    refine hpush _ _ hb ?_
    have hframe : Function.update s.frame S (v.frame q.2) S = s.frame S := hothers S hne
    rwa [Function.update_self] at hframe

end

/-! ## Lua -/

namespace Lua

variable (vm : LuaVm)

/-- The thread `L` has just called the callback with `args`. -/
def Called (k : Callback) (L : Nat) (args : List LuaValue) (s : LuaState) : Prop :=
  match k with
  | .function desc => ∃ r, s.frame L = { func := .function r, slots := args.reverse } ∧
      s.world.heap.closure r = .c .functionCallback [.lightuserdata (.functionInfo desc)]
  | .constructor desc => ∃ r m, s.frame L = { func := .function r, slots := args.reverse ++ [.table m] } ∧
      s.world.heap.closure r = .c .classConstructorCallback [.lightuserdata (.classInfo desc)]
  | .method desc i => ∃ r u p, s.frame L = { func := .function r, slots := args.reverse ++ [.userdata u] } ∧
      s.world.heap.closure r = .c .classMethodCallback [.lightuserdata (.classInfo desc), .number (.ofInt i)] ∧
      (s.world.heap.userdata u).block = some p ∧ i < desc.methods.length ∧ IsInt32 i

/-- The callback up to the call of the user's function: its stack. -/
def enter (k : Callback) (L : Nat) : LuaS LuaScriptStack :=
  match k with
  | .function _ => do return (← functionEnter L).2
  | .constructor _ => do return (← constructorEnter L).2.2
  | .method _ _ => do return (← methodEnter vm L).2.2

variable {vm} {k : Callback} {L : Nat} {args : List LuaValue} {s : LuaState}

/-- Then the arguments are what the frame of the calling thread holds, and the stack
has counted the frame of the context's own. -/
theorem enter_ok (h : Called k L args s) :
    ∃ s₁ r, enter vm k L s = .ok (callbackStack (s₁.frame mainThread).slots.length, s₁) ∧
      s₁.frame L = { func := .function r, slots := args.reverse } ∧ s₁.world = s.world := by
  cases k with
  | function desc =>
    obtain ⟨r, hf, hc⟩ := h
    refine ⟨s, r, ?_, hf, rfl⟩
    rw [enter, Act.bind_ok (functionEnter_ok (by rw [hf]) hc)]
    rfl
  | constructor desc =>
    obtain ⟨r, m, hf, hc⟩ := h
    refine ⟨{ s.setSlots L args.reverse with objects := s.objects.new {} }, r, ?_,
      by simp [LuaState.setSlots, VmState.setFrame, hf], rfl⟩
    rw [enter, Act.bind_ok (constructorEnter_ok (by rw [hf]) hc (by rw [hf]))]
    rfl
  | method desc i =>
    obtain ⟨r, u, p, hf, hc, hb, hi, hi32⟩ := h
    refine ⟨s.setSlots L args.reverse, r, ?_, by simp [LuaState.setSlots, VmState.setFrame, hf], rfl⟩
    rw [enter, Act.bind_ok (methodEnter_ok (by rw [hf]) hc (by rw [hf]) hb (List.getElem?_eq_getElem hi) hi32)]
    rfl

theorem actsOnCaller_iff {s₁ : LuaState} {r : Nat} (hf : s₁.frame L = { func := .function r, slots := args.reverse }) :
    ActsOnCaller k (luaLang vm) ((luaBackend vm).threads luaView mainThread L) Allowed L (.start args s₁.world) s₁
      (callbackStack (s₁.frame mainThread).slots.length) ↔ L = mainThread := by
  constructor
  · intro h
    by_contra hne
    refine not_actsOnCaller (fun he => hne he.symm) ?_ ?_ h
    · intro h'
      trivial
    · intro q c hp hframe
      cases hp
      have hlen := congrArg (fun f => f.slots.length) hframe
      simp [luaView, VmState.context] at hlen
  · rintro rfl
    refine actsOnCaller_self fun es os t hm hr => ?_
    have hstart : (.start (s₁.context luaView mainThread) (callbackStack (s₁.frame mainThread).slots.length) :
        Host LuaScriptContext LuaScriptStack) = luaStart r args s₁.world := by
      simp [luaStart, Host.start, VmState.context, luaView, hf, callbackStack]
    rw [hstart]
    exact handles_run hm hr

end Lua

/-! ## Squirrel -/

namespace Squirrel

/-- The outer values of the callback's closure, as they lie on the stack. -/
def outerValues : Callback → List SqValue
  | .function desc => [.userpointer (.functionInfo desc)]
  | .constructor desc => [.userpointer (.classInfo desc)]
  | .method desc i => [.userpointer (.classInfo desc), .integer i]

/-- The receiver of a method is an instance whose object is not destroyed. -/
def HasReceiver (this : SqValue) (s : SqState) : Prop :=
  ∃ r p w, this = .sqinstance r ∧ (s.world.heap.instances r).userpointer = some p ∧
    s.objects.get p = some w ∧ w.objectPtr.isSome = true

/-- The thread `L` has just called the callback with `this` and `args`. -/
def Called (k : Callback) (L : Nat) (this : SqValue) (args below : List SqValue) (s : SqState) : Prop :=
  s.frame L = { stack := outerValues k ++ (args.reverse ++ this :: below), stackbase := below.length } ∧
  match k with
  | .method desc i => HasReceiver this s ∧ i < desc.methods.length
  | _ => True

/-- The callback up to the call of the user's function: its stack. -/
def enter (k : Callback) (L : Nat) : SqS SquirrelScriptStack :=
  match k with
  | .function _ => do return (← functionEnter L).2
  | .constructor _ => do return (← constructorEnter L).2.2
  | .method _ _ => do return (← methodEnter L).2.2

variable {vm : SqVm} {k : Callback} {L : Nat} {this : SqValue} {args below : List SqValue} {s : SqState}

theorem enter_ok (h : Called k L this args below s) :
    ∃ s₁, enter k L s = .ok (callbackStack (s₁.frame mainThread).count, s₁) ∧
      s₁.frame L = { stack := args.reverse ++ this :: below, stackbase := below.length } ∧ s₁.world = s.world := by
  obtain ⟨hf, hk⟩ := h
  cases k with
  | function desc =>
    refine ⟨s.setStack L (args.reverse ++ this :: below), ?_, by simp [hf], rfl⟩
    rw [enter, Act.bind_ok (functionEnter_ok (by rw [hf]; rfl))]
    rfl
  | constructor desc =>
    refine ⟨{ s.setStack L (args.reverse ++ this :: below) with
      objects := s.objects.new { classInfo := some desc } }, ?_, by simp [SqState.setStack, VmState.setFrame, hf], rfl⟩
    rw [enter, Act.bind_ok (constructorEnter_ok (by rw [hf]; rfl))]
    rfl
  | method desc i =>
    obtain ⟨⟨r, p, w, rfl, hu, hw, ho⟩, hi⟩ := hk
    refine ⟨s.setStack L (args.reverse ++ .sqinstance r :: below), ?_, by simp [hf], rfl⟩
    rw [enter, Act.bind_ok (methodEnter_ok (by rw [hf]; rfl) (by rw [hf]) hu hw ho (List.getElem?_eq_getElem hi))]
    rfl

theorem actsOnCaller_iff {s₁ : SqState}
    (hf : s₁.frame L = { stack := args.reverse ++ this :: below, stackbase := below.length }) :
    ActsOnCaller k (sqLang vm) ((sqBackend vm).threads sqView mainThread L) (Allowed this) L (.start args s₁.world) s₁
      (callbackStack (s₁.frame mainThread).count) ↔ L = mainThread := by
  constructor
  · intro h
    by_contra hne
    refine not_actsOnCaller (fun he => hne he.symm) ?_ ?_ h
    · intro h'
      rfl
    · intro q c hp hframe
      cases hp
      have hlen := congrArg (fun f => f.stack.length) hframe
      simp [sqView, VmState.context] at hlen
  · rintro rfl
    refine actsOnCaller_self fun es os t hm hr => ?_
    have hcount : (s₁.frame mainThread).count = args.length := by
      simp [SqFrame.count, hf]
      omega
    have hstart : (.start (s₁.context sqView mainThread) (callbackStack (s₁.frame mainThread).count) :
        Host SquirrelScriptContext SquirrelScriptStack) = sqStart this args below s₁.world := by
      rw [hcount]
      simp [sqStart, Host.start, VmState.context, sqView, hf, callbackStack]
    rw [hstart]
    exact handles_run hm hr

end Squirrel

/-! ## GameMonkey -/

namespace GameMonkey

/-- What `m_cUserData` of the callback's function object points to. -/
def userData : Callback → HostPtr
  | .function desc => .functionInfo desc
  | .constructor desc => .classInfo desc
  | .method desc i => .methodInfo desc i

/-- The thread `L` has just called the callback with `this` and `args`. -/
def Called (k : Callback) (L : Nat) (this : GmValue) (args : List GmValue) (s : GmState) : Prop :=
  s.frame L = { this, params := args, pushed := [] } ∧
  match k with
  | .method desc i => i < desc.methods.length ∧ ∃ type ref p w, this = .user type ref ∧ s.world.user ref = some p ∧
      s.objects.get p = some w ∧ w.objectPtr.isSome = true
  | _ => True

/-- The callback up to the call of the user's function: its stack. -/
def enter (types : ClassDesc → Nat) (k : Callback) (L : Nat) : GmS GMScriptStack :=
  match k with
  | .function _ => do return (← functionEnter L (userData k)).2
  | .constructor _ => do return (← constructorEnter types L (userData k)).2.2
  | .method _ _ => do return (← methodEnter L (userData k)).2.2

/-- What a constructor finds pushed: the new instance. -/
def alreadyPushed (types : ClassDesc → Nat) (k : Callback) (w : GmWorld) : List GmValue :=
  match k with
  | .constructor desc => [.user (types desc) w.next]
  | _ => []

variable {vm : GmVm} {kills : Kills} {k : Callback} {L : Nat} {this : GmValue} {args : List GmValue} {s : GmState}

theorem enter_ok (types : ClassDesc → Nat) (h : Called k L this args s) :
    ∃ s₁, enter types k L s = .ok (callbackStack args.length, s₁) ∧
      s₁.frame L = { this, params := args, pushed := alreadyPushed types k s.world } := by
  obtain ⟨hf, hk⟩ := h
  cases k with
  | function desc =>
    refine ⟨s, ?_, hf⟩
    rw [enter, userData, Act.bind_ok functionEnter_ok, hf]
    rfl
  | constructor desc =>
    refine ⟨s.constructing types L desc, ?_, by simp [GmState.constructing, hf, alreadyPushed]⟩
    rw [enter, userData, Act.bind_ok constructorEnter_ok, hf]
    rfl
  | method desc i =>
    obtain ⟨hi, type, ref, p, w, ht, hu, hw, ho⟩ := hk
    refine ⟨s, ?_, hf⟩
    rw [enter, userData, Act.bind_ok (methodEnter_ok (by rw [hf, ← ht]) hu hw ho (List.getElem?_eq_getElem hi)), hf]
    rfl

theorem actsOnCaller {s₁ : GmState} {vs : List GmValue}
    (hf : s₁.frame L = { this, params := args, pushed := vs.reverse }) :
    ActsOnCaller k (gmLang vm) ((gmBackendIn vm kills).threads gmView L L) (Allowed kills) L
      { Spec.start args s₁.world with pushed := vs } s₁ (callbackStack args.length) := by
  refine actsOnCaller_self fun es os t hm hr => ?_
  have hrel : Related { Spec.start args s₁.world with pushed := vs }
      (.start (s₁.context gmView L) (callbackStack args.length)) := by
    refine ⟨rfl, rfl, ⟨[], ?_, ?_, rfl⟩, ?_, fun _ => .closed⟩
    · simp [Host.start, VmState.context, gmView, hf, Spec.start]
    · simp [Host.start, VmState.context, gmView, hf, Spec.start]
    · simp [Host.start, VmState.context, gmView, hf]
  obtain ⟨x, hx, -⟩ := related_run hrel hm hr
  exact ⟨x, hx⟩

end GameMonkey

/-! ## The three languages -/

/-- **The calling thread.** A callback is entered with a stack of its own. For every
body that is allowed, it is the stack of the call: in Lua and Squirrel exactly when
the context's own thread calls, in GameMonkey whichever thread calls. -/
theorem callback_calling_thread (lua : Lua.LuaVm) (sq : Squirrel.SqVm) (gm : GameMonkey.GmVm) (kills : GameMonkey.Kills)
    (k : Callback) (L : Nat) :
    (∀ args s, Lua.Called k L args s → ∃ st s₁, Lua.enter lua k L s = .ok (st, s₁) ∧
      (ActsOnCaller k (Lua.luaLang lua) ((Lua.luaBackend lua).threads Lua.luaView mainThread L) Lua.Allowed L
        (.start args s₁.world) s₁ st ↔ L = mainThread)) ∧
    (∀ this args below s, Squirrel.Called k L this args below s → ∃ st s₁, Squirrel.enter k L s = .ok (st, s₁) ∧
      (ActsOnCaller k (Squirrel.sqLang sq) ((Squirrel.sqBackend sq).threads Squirrel.sqView mainThread L)
        (Squirrel.Allowed this) L (.start args s₁.world) s₁ st ↔ L = mainThread)) ∧
    (∀ types this args s, GameMonkey.Called k L this args s → ∃ st s₁, GameMonkey.enter types k L s = .ok (st, s₁) ∧
      ActsOnCaller k (GameMonkey.gmLang gm) ((GameMonkey.gmBackendIn gm kills).threads GameMonkey.gmView L L)
        (GameMonkey.Allowed kills) L
        { Spec.start args s₁.world with pushed := GameMonkey.alreadyPushed types k s.world } s₁ st) := by
  refine ⟨?_, ?_, ?_⟩
  · intro args s h
    obtain ⟨s₁, r, he, hf, -⟩ := Lua.enter_ok h
    exact ⟨_, s₁, he, Lua.actsOnCaller_iff hf⟩
  · intro this args below s h
    obtain ⟨s₁, he, hf, -⟩ := Squirrel.enter_ok h
    exact ⟨_, s₁, he, Squirrel.actsOnCaller_iff hf⟩
  · intro types this args s h
    obtain ⟨s₁, he, hf⟩ := GameMonkey.enter_ok types h
    have hf' : s₁.frame L = { this, params := args, pushed := (GameMonkey.alreadyPushed types k s.world).reverse } := by
      rw [hf]
      cases k <;> rfl
    exact ⟨_, s₁, he, GameMonkey.actsOnCaller hf'⟩

/-- The registered function of the examples below. -/
def Callback.sample : FunctionDesc := { addr := 0, name := cstr "f", function := 0, numParams := 1 }

/-- A Lua context whose function `f` has just been called with 5 from the thread `L`,
while the other threads are in `coroutine.resume`. -/
def Lua.calledFrom (L : Nat) : Lua.LuaState where
  frame := Function.update (fun _ => { func := .nil, slots := [.thread 1] }) L
    { func := .function 0, slots := [.number (.ofInt 5)] }
  world := { (Lua.createContext (.binding [])).world with
    heap := { Lua.LuaHeap.binding [] with
      closure := fun _ => .c .functionCallback [.lightuserdata (.functionInfo Callback.sample)] } }
  objects := .empty

/-- From a coroutine the function does not get its argument: the stack it pops is
that of the main thread, which waits in `coroutine.resume`. -/
theorem callback_in_coroutine :
    let vm := Lua.LuaVm.ending (.returned [])
    let s := Lua.calledFrom 1
    Lua.Called (.function Callback.sample) 1 [.number (.ofInt 5)] s ∧
      (∃ t, (spec (Lua.luaLang vm)).run [.pop .int] (.start [.number (.ofInt 5)] s.world)
        = .ok ([.popped (.int (some 5))], t)) ∧
      (∃ st s₁ y, Lua.enter vm (.function Callback.sample) 1 s = .ok (st, s₁) ∧
        (handles ((Lua.luaBackend vm).threads Lua.luaView mainThread 1)).run [.pop .int] (.start s₁ st)
          = .ok ([.popped (.int none)], y)) ∧
      ∀ st s₁, Lua.enter vm (.function Callback.sample) 1 s = .ok (st, s₁) →
        ¬ ActsOnCaller (.function Callback.sample) (Lua.luaLang vm)
          ((Lua.luaBackend vm).threads Lua.luaView mainThread 1) Lua.Allowed 1
          (.start [.number (.ofInt 5)] s₁.world) s₁ st := by
  intro vm s
  refine ⟨⟨0, rfl, rfl⟩, ⟨_, rfl⟩, ⟨_, _, _, rfl, rfl⟩, ?_⟩
  intro st s₁ he h
  cases he
  obtain ⟨y, hy, -⟩ := h [.pop .int] [.popped (.int (some 5))] _ (by simp [Callback.Uses])
    ⟨⟨fun _ => trivial, rfl⟩, fun _ _ _ => trivial⟩ rfl
  cases hy

theorem callback_calling_thread_main :
    let vm := Lua.LuaVm.ending (.returned [])
    ∃ st s₁, Lua.enter vm (.function Callback.sample) mainThread (Lua.calledFrom mainThread) = .ok (st, s₁) ∧
      ∃ y, (handles ((Lua.luaBackend vm).threads Lua.luaView mainThread mainThread)).run
        [.numParams, .pop .int, .push (.int 7), .ret] (.start s₁ st)
        = .ok ([.count 1, .popped (.int (some 5)), .pushed true, .returned [.number (.ofInt 7)]], y) := by
  intro vm
  have gm : GameMonkey.GmVm := { call := fun _ _ w => (none, w), executeString := fun _ w => (0, w) }
  obtain ⟨st, s₁, he, hacts⟩ := (callback_calling_thread vm (.ending none) gm .never (.function Callback.sample)
    mainThread).1 [.number (.ofInt 5)] (Lua.calledFrom mainThread) ⟨0, rfl, rfl⟩
  refine ⟨st, s₁, he, ?_⟩
  cases he
  have hm : (spec (Lua.luaLang vm)).Meets Lua.Allowed [.numParams, .pop .int, .push (.int 7), .ret]
      (.start [.number (.ofInt 5)] (Lua.calledFrom mainThread).world) := by
    refine ⟨trivial, fun _ _ h => ?_⟩
    cases h
    refine ⟨⟨fun _ => trivial, rfl⟩, fun _ _ h => ?_⟩
    cases h
    exact ⟨fun _ => trivial, fun _ _ _ => ⟨trivial, fun _ _ _ => trivial⟩⟩
  obtain ⟨y, hy, -⟩ := hacts.mpr rfl _ _ _ (by simp [Callback.Uses]) hm rfl
  exact ⟨y, hy⟩

end MultiScript
