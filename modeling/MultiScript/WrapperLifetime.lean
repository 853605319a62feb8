/-
The lives of wrappers in Lua, Squirrel and GameMonkey, over whole runs of a script and
its host. A wrapper is deleted by the finaliser of its value, or by `Release`; nothing
tells the other of the two.
-/
import MultiScript.Lifetime.Ledger
import MultiScript.Lifetime.Identity
import MultiScript.Lifetime.Lua
import MultiScript.Lifetime.Squirrel
import MultiScript.Lifetime.GameMonkey

namespace MultiScript

open Run Lifetime

section Runs

variable {Fr W K S : Type} (b : Backend Fr W K S)

/-- A run from where there are no wrappers yet, whose steps all meet `P`. -/
structure Lifetime.Backend.Runs (P : Op Fr W K S → Script Fr W K → Prop) (es : List (Op Fr W K S)) (frame : Nat → Fr)
    (world : W) : Prop where
  unbound : ∀ v, b.bound world v = none
  meets : b.machine.Meets P es (.start frame world)

variable {b} in
theorem Lifetime.Backend.Runs.mono {P Q : Op Fr W K S → Script Fr W K → Prop} {es : List (Op Fr W K S)}
    {frame : Nat → Fr}
    {world : W} (h : b.Runs P es frame world) (hPQ : ∀ e s, P e s → Q e s) : b.Runs Q es frame world :=
  ⟨h.unbound, h.meets.mono hPQ⟩

/-- No run reads through a pointer to a wrapper that was deleted, or deletes one twice. -/
def Lifetime.Backend.KeepsWrappers (P : Op Fr W K S → Script Fr W K → Prop) : Prop :=
  ∀ es frame world, b.Runs P es frame world → Gives (b.machine.run es (.start frame world))
    (fun r => ∀ p, r.1.count (some (.deleted p)) ≤ 1) (fun f => f ≠ .wildDeref)

variable {b}

theorem Lifetime.Backend.Lawful.keeps (hb : b.Lawful) : b.KeepsWrappers b.Allowed := by
  rintro es frame world ⟨hw, hm⟩
  have hs := @Backend.start_sound _ _ _ _ b frame world hw
  unfold Gives
  cases hr : b.machine.run es (.start frame world) with
  | error f => exact Backend.run_safe hb hs hm hr
  | ok r =>
    intro p
    rcases Backend.run_gone hb hs hm hr p with hno | ⟨hone, -⟩
    · omega
    · omega

end Runs

/-- Objects are made with a pointer, `Destroy` is for classes that are not collected, and
`Release` is called while the destructor of the wrapper has it locked. -/
def Lifetime.Conforms (s : Life) : Label → Prop
  | .finalise _ _ => True
  | l => Orderly s l

/-- Over every run whose steps meet `P`, a callback is given a wrapper that was made for its class. -/
def Lifetime.Backend.GivesOwn {Fr W K S : Type} (b : Backend Fr W K S)
    (P : Op Fr W K S → Script Fr W K → Prop) : Prop :=
  ∀ es frame world os s, b.Runs P es frame world → b.machine.run es (.start frame world) = .ok (os, s) →
    ∀ f desc p x, some (.called f desc p x) ∈ os → s.owner p = some desc

theorem Lifetime.Backend.Lawful.givesOwn {Fr W K S : Type} {b : Backend Fr W K S} (hb : b.Lawful) :
    b.GivesOwn (fun e s => b.Allowed e s ∧ Matching (b.life s) (b.label s e)) := by
  rintro es frame world os s ⟨hw, hm⟩ hr f desc p x hmem
  exact (Backend.run_given hb hw hm hr f desc p x hmem).2

/-- **Class identity.** Where the receiver of every call is a value of the class whose
closure is called, a constructor gives its wrapper to the value it makes, and a finaliser
goes by the class of its value, every callback is given a wrapper of its class. -/
theorem callbacks_given_own_class (lua : Lua.LuaVm) (sq : Squirrel.SqVm) :
    (Lua.luaWrappers lua).GivesOwn (fun e s => (Lua.luaWrappers lua).Allowed e s ∧
      Matching ((Lua.luaWrappers lua).life s) ((Lua.luaWrappers lua).label s e)) ∧
    (Squirrel.squirrelWrappers sq).GivesOwn (fun e s => (Squirrel.squirrelWrappers sq).Allowed e s ∧
      Matching ((Squirrel.squirrelWrappers sq).life s) ((Squirrel.squirrelWrappers sq).label s e)) ∧
    GameMonkey.gmWrappers.GivesOwn (fun e s => GameMonkey.gmWrappers.Allowed e s ∧
      Matching (GameMonkey.gmWrappers.life s) (GameMonkey.gmWrappers.label s e)) :=
  ⟨Lua.luaWrappers_lawful.givesOwn, Squirrel.squirrelWrappers_lawful.givesOwn, GameMonkey.gmWrappers_lawful.givesOwn⟩

/-! ## Runs -/

/-- A class that is collected, in a machine where it is registered. -/
def collectedClass : ClassDesc := { addr := 1, name := cstr "MyClass", constructor := some 1, destructor := some 2 }

/-- Another class, with a method. -/
def methodClass : ClassDesc :=
  { collectedClass with addr := 3, name := cstr "OtherClass", methods := [{ name := cstr "Get", method := 3 }] }

def GameMonkey.withClass (desc : ClassDesc) : GameMonkey.GmWorld :=
  { (GameMonkey.createContext 0 (fun _ => .null) .other).world.registerClass desc with classes := [desc] }

def GameMonkey.idle (_ : Nat) : GameMonkey.GmThread := { this := .null, params := [], pushed := [] }

/-- A call without arguments. -/
def GameMonkey.calling (userData : HostPtr) : GameMonkey.GmCallInfo where
  thread := 0
  userData
  this := .null
  type := GameMonkey.gmUser + 1
  args := []
  stack := GameMonkey.callbackStack 0
  answer := true
  text := []

/-- A script makes an object, and its value is collected. `released` is when the host calls
`Release`. -/
def GameMonkey.objectLife (released : Bool) :
    List (Op GameMonkey.GmThread GameMonkey.GmWorld GameMonkey.GmCallInfo GameMonkey.GMScriptStack) :=
  let k := GameMonkey.calling (.classInfo collectedClass)
  let st := GameMonkey.callbackStack 0
  if released then [.construct k, .assign 0 7, .ret st, .release 0, .finalise k 2]
  else [.construct k, .assign 0 7, .ret st, .finalise k 2, .release 0, .ret st]

theorem Lifetime.Backend.meets_cons {Fr W K S : Type} {b : Backend Fr W K S} {P : Op Fr W K S → Script Fr W K → Prop}
    {e : Op Fr W K S} {es : List (Op Fr W K S)} {s s' : Script Fr W K} {o : Option Mark} (hP : P e s)
    (h : b.step e s = .ok (o, s')) (hes : b.machine.Meets P es s') : b.machine.Meets P (e :: es) s :=
  Machine.meets_cons hP h hes

/-- Released in its destructor, it is not. -/
theorem GameMonkey.objectLife_allowed : GameMonkey.gmWrappers.Runs (fun e s => GameMonkey.gmWrappers.Allowed e s ∧
      Conforms (GameMonkey.gmWrappers.life s) (GameMonkey.gmWrappers.label s e) ∧
      Matching (GameMonkey.gmWrappers.life s) (GameMonkey.gmWrappers.label s e))
    (GameMonkey.objectLife false) GameMonkey.idle (GameMonkey.withClass collectedClass) := by
  have hret : ∀ {s : Script GameMonkey.GmThread GameMonkey.GmWorld GameMonkey.GmCallInfo}
    {st : GameMonkey.GMScriptStack},
      GameMonkey.gmWrappers.Possible s (.ret st) := fun _ _ _ _ hv => by cases hv
  refine ⟨fun _ => rfl, ?_⟩
  refine Backend.meets_cons ⟨⟨⟨_, rfl⟩, trivial, trivial⟩, trivial, trivial⟩ rfl ?_
  refine Backend.meets_cons ⟨⟨trivial, ⟨_, _, List.mem_cons_self⟩, trivial⟩, trivial, trivial⟩ rfl ?_
  refine Backend.meets_cons ⟨⟨trivial, hret, trivial⟩, trivial, .inl rfl⟩ rfl ?_
  refine Backend.meets_cons ⟨⟨trivial, ⟨by decide, rfl, fun _ _ _ ha => by cases ha⟩, trivial⟩, trivial, ?_⟩ rfl ?_
  · rintro desc hd
    cases hd
    rfl
  refine Backend.meets_cons ⟨⟨trivial, trivial, _, rfl, .inl rfl⟩, ⟨_, rfl, rfl⟩, trivial⟩ rfl ?_
  exact Backend.meets_cons ⟨⟨trivial, hret, trivial⟩, trivial, trivial⟩ rfl trivial

/-- And it was the destructor of its class. -/
theorem callbacks_given_own_class_collected :
    ∃ os s, GameMonkey.gmWrappers.machine.run (GameMonkey.objectLife false)
      (.start GameMonkey.idle (GameMonkey.withClass collectedClass)) = .ok (os, s) ∧
      some (.called .collect collectedClass 0 (some 7)) ∈ os ∧ s.owner 0 = some collectedClass := by
  have hgiven := (callbacks_given_own_class (.ending (.returned [])) (.ending none)).2.2 _ _ _ _ _
    (GameMonkey.objectLife_allowed.mono fun _ _ h => ⟨h.1, h.2.2⟩) rfl
  have hmem : some (Mark.called .collect collectedClass 0 (some 7)) ∈ [none, none, none,
      some (.called .collect collectedClass 0 (some 7)), none, some (.deleted 0)] := by decide
  exact ⟨_, _, rfl, hmem, hgiven .collect collectedClass 0 (some 7) hmem⟩

/-- A method of another class is called on the object. -/
def GameMonkey.strangeCall : List
    (Op GameMonkey.GmThread GameMonkey.GmWorld GameMonkey.GmCallInfo GameMonkey.GMScriptStack) :=
  [.construct (GameMonkey.calling (.classInfo collectedClass)), .assign 0 7, .ret (GameMonkey.callbackStack 0),
    .method (GameMonkey.calling (.methodInfo methodClass 0)) 2]

theorem method_given_other_class : ¬ GameMonkey.gmWrappers.GivesOwn GameMonkey.gmWrappers.Allowed := by
  intro h
  have hown := h GameMonkey.strangeCall GameMonkey.idle (GameMonkey.withClass collectedClass) _
    _ ?_ rfl .method methodClass 0
    (some 7) (by decide)
  · cases hown
  · refine ⟨fun _ => rfl, ?_⟩
    refine Backend.meets_cons ⟨⟨_, rfl⟩, trivial, trivial⟩ rfl ?_
    refine Backend.meets_cons ⟨trivial, ⟨_, _, List.mem_cons_self⟩, trivial⟩ rfl ?_
    refine Backend.meets_cons ⟨trivial, fun _ _ _ _ hv => (by cases hv), trivial⟩ rfl ?_
    exact Backend.meets_cons ⟨⟨methodClass, 0, rfl, by decide⟩, rfl, trivial⟩ rfl trivial

/-- A class of the same name that is not collected. -/
def keptClass : ClassDesc := { collectedClass with addr := 2, garbageCollect := false }

def Lua.withClass (desc : ClassDesc) : Lua.LuaWorld :=
  let world := (Lua.createContext (.binding [])).world
  { world with heap := world.heap.registerClass desc, classes := [desc] }

/-- A script that has kept the first class makes an object of it, and the object is collected. -/
def Lua.objectLife : List (Op Lua.LuaFrame Lua.LuaWorld Lua.LuaCall Lua.LuaScriptStack) :=
  let k : Lua.LuaCall := { thread := 0, function := .function 7, args := [.table 2], stack := Lua.callbackStack 0,
                           answer := true, text := [] }
  [.construct k, .assign 0 7, .ret (Lua.callbackStack 0), .finalise k 14]

end MultiScript
