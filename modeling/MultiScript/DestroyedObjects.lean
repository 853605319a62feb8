/-
Objects that a script has destroyed and uses again, in Lua, Squirrel and GameMonkey. Only
Squirrel asks for `m_objectPtr` in all the callbacks; Lua asks in none, and GameMonkey in
all but the destructor. To ask is to assert.
-/
import MultiScript.Lifetime.Guards
import MultiScript.Lifetime.Lua
import MultiScript.Lifetime.Squirrel
import MultiScript.Lifetime.GameMonkey
import MultiScript.WrapperLifetime

namespace MultiScript

open Run Lifetime Act

/-- The class is in the upvalue of each closure, and the wrapper need not tell it. -/
def Lua.luaGuards (vm : Lua.LuaVm) : Guards (Lua.luaWrappers vm) where
  answer k := k.answer
  calls := false
  Made _ _ _ _ := True
  Belongs desc t world :=
    match t with
    | .method k => ∃ i, world.heap.Is k.function .classMethodCallback
        [.lightuserdata (.classInfo desc), .number (.ofInt (i : Nat))] ∧ i < desc.methods.length ∧ IsInt32 i
    | .text k => world.heap.Is k.function .classToStringMethodCallback [.lightuserdata (.classInfo desc)]
    | .destroy k _ => world.heap.Is k.function .classDestructorCallback [.lightuserdata (.classInfo desc)]

/-- The class is in the outer values of each closure, and an instance with a release hook has
it in its wrapper. -/
def Squirrel.squirrelGuards (vm : Squirrel.SqVm) : Guards (Squirrel.squirrelWrappers vm) where
  answer k := k.answer
  calls := true
  Made desc v classInfo world := (world.heap.instances v).hook = true → classInfo = some desc
  Belongs desc t _ :=
    match t with
    | .method k => ∃ j, k.outervalues = [.integer (j : Nat), .userpointer (.classInfo desc)] ∧ j < desc.methods.length
    | .text k => k.outervalues = [.userpointer (.classInfo desc)]
    | .destroy k _ => k.outervalues = [.userpointer (.classInfo desc)]

/-- The class is in every wrapper, and a method has it in its user data as well. -/
def GameMonkey.gmGuards : Guards GameMonkey.gmWrappers where
  answer k := k.answer
  calls := true
  Made desc _ classInfo _ := classInfo = some desc
  Belongs desc t _ :=
    match t with
    | .method k => ∃ i, k.userData = .methodInfo desc i ∧ i < desc.methods.length
    | _ => True

theorem Lua.luaGuards_lawful {vm : Lua.LuaVm} : (Lua.luaGuards vm).Lawful where
  method desc k v s p w hwraps hbelongs := by
    obtain ⟨i, hclosure, hlt, hi⟩ := hbelongs
    refine (Lua.method_ends (E := fun f => Asserts f ∧ (w.objectPtr.isSome && k.answer) = false)
      ⟨desc, i, hclosure, hlt, hi⟩
      hwraps.alive (fun h => absurd h hwraps.not_null) fun h => ⟨⟨_, rfl⟩, by simp [h]⟩).mono ?_
    rintro m s' ⟨⟨⟨w', hsaw⟩, ho, hw⟩, hanswer⟩
    obtain ⟨-, rfl⟩ := hwraps.saw hsaw
    exact ⟨hsaw.objectPtr, hanswer, ho, hw⟩
  text desc k v s p w hwraps hbelongs := by
    refine Ends.mono (Lua.toText_ends hbelongs hwraps.alive (fun h => absurd h hwraps.not_null)
      fun htext h => ⟨⟨_, rfl⟩, .inr ⟨htext, h⟩⟩) ?_
    rintro r s' ⟨hsaw, hsome, ho, hw⟩
    refine ⟨fun m hm => ?_, hsome, fun h => (by cases h), ho, hw⟩
    obtain ⟨⟨w', hm⟩, hanswer⟩ := hsaw m hm
    obtain ⟨-, rfl⟩ := hwraps.saw hm
    exact ⟨hm.objectPtr, hanswer⟩
  destroy desc k v s p w st hwraps hbelongs := by
    refine Ends.mono (Lua.destroy_ends ⟨desc, hbelongs⟩ hwraps.alive fun h => absurd h hwraps.not_null) ?_
    rintro m s' ⟨⟨w', hsaw, ho⟩, hw⟩
    obtain ⟨rfl, rfl⟩ := hwraps.saw hsaw
    exact ⟨rfl, hsaw.objectPtr, ho, hw⟩
  finalise desc k v s p w hwraps :=
    (Lua.finalise_ends hwraps.alive fun h => absurd h hwraps.not_null).mono fun _ _ h => Guards.finalises_full h.1

theorem Squirrel.squirrelGuards_lawful {vm : Squirrel.SqVm} : (Squirrel.squirrelGuards vm).Lawful where
  method desc k v s p w hwraps hbelongs := by
    obtain ⟨j, houter, hlt⟩ := hbelongs
    have hends := @Squirrel.method_ends vm s k v (fun f => Asserts f ∧ (w.objectPtr.isSome && k.answer) = false)
      ⟨desc, j, houter, hlt⟩ hwraps.alive (fun h => absurd h hwraps.not_null)
      (fun h => ⟨⟨_, rfl⟩, by simp [hwraps.empty_iff.mp h]⟩) fun h => ⟨⟨_, rfl⟩, by simp [h]⟩
    refine hends.mono ?_
    rintro m s' ⟨⟨⟨w', hsaw⟩, ho, hw⟩, -, hanswer⟩
    obtain ⟨-, rfl⟩ := hwraps.saw hsaw
    exact ⟨hsaw.objectPtr, hanswer, ho, hw⟩
  text desc k v s p w hwraps hbelongs := by
    refine Ends.mono (@Squirrel.toText_ends vm s k v desc _ hbelongs hwraps.alive (fun h => absurd h hwraps.not_null)
      (fun h => ⟨⟨_, rfl⟩, .inl ⟨rfl, hwraps.empty_iff.mp h⟩⟩) fun htext h => ⟨⟨_, rfl⟩, .inr ⟨htext, h⟩⟩) ?_
    rintro r s' ⟨⟨hsaw, hsome, ho, hw⟩, hfull⟩
    refine ⟨fun m hm => ?_, hsome, fun _ => hwraps.full hfull, ho, hw⟩
    obtain ⟨⟨w', hm⟩, hanswer⟩ := hsaw m hm
    obtain ⟨-, rfl⟩ := hwraps.saw hm
    exact ⟨hm.objectPtr, hanswer⟩
  destroy desc k v s p w st hwraps hbelongs := by
    refine Ends.mono (@Squirrel.destroy_ends vm s k v _ ⟨desc, hbelongs⟩ hwraps.alive
      (fun h => absurd h hwraps.not_null)
      fun h => ⟨⟨_, rfl⟩, hwraps.empty_iff.mp h⟩) ?_
    rintro m s' ⟨⟨⟨w', hsaw, ho⟩, hw⟩, -⟩
    obtain ⟨rfl, rfl⟩ := hwraps.saw hsaw
    exact ⟨rfl, hsaw.objectPtr, ho, hw⟩
  finalise desc k v s p w hwraps := by
    refine (Squirrel.finalise_ends hwraps.alive (fun h => absurd h hwraps.not_null) ?_).mono fun _ _ h =>
      Guards.finalises_full h.1
    intro q w' hq hget hhook hnone
    obtain rfl : p = q := Option.some.inj (hwraps.bound.symm.trans hq)
    obtain rfl : w = w' := Option.some.inj (hwraps.get.symm.trans hget)
    rw [hwraps.made hhook] at hnone
    cases hnone

theorem GameMonkey.gmGuards_classed {desc : ClassDesc} {v p : Nat} {s : GameMonkey.GmState} {w : ScriptObject}
    (hwraps : GameMonkey.gmGuards.Wraps desc v s p w) : ¬ GameMonkey.Unclassed v s := by
  rintro ⟨q, w', hb, hget, hnone⟩
  obtain rfl : p = q := Option.some.inj (hwraps.bound.symm.trans hb)
  obtain rfl : w = w' := Option.some.inj (hwraps.get.symm.trans hget)
  rw [show w.classInfo = some desc from hwraps.made] at hnone
  cases hnone

theorem GameMonkey.gmGuards_lawful : GameMonkey.gmGuards.Lawful where
  method desc k v s p w hwraps hbelongs := by
    obtain ⟨i, hdata, hlt⟩ := hbelongs
    have hends := GameMonkey.method_ends (E := fun f => Asserts f ∧ (w.objectPtr.isSome && k.answer) = false)
      ⟨desc, i, hdata, hlt⟩ hwraps.alive (fun h => absurd h hwraps.not_null)
      (fun h => ⟨⟨_, rfl⟩, by simp [hwraps.empty_iff.mp h]⟩) fun h => ⟨⟨_, rfl⟩, by simp [h]⟩
    refine hends.mono ?_
    rintro m s' ⟨⟨⟨w', hsaw⟩, ho, hw⟩, -, hanswer⟩
    obtain ⟨-, rfl⟩ := hwraps.saw hsaw
    exact ⟨hsaw.objectPtr, hanswer, ho, hw⟩
  text desc k v s p w hwraps _ := by
    have hclass : GameMonkey.userClass s v = some desc :=
      (GameMonkey.userClass_eq hwraps.bound hwraps.get).trans hwraps.made
    refine Ends.mono (GameMonkey.toText_ends hwraps.alive (fun h => absurd h hwraps.not_null)
      (fun h => ⟨⟨_, rfl⟩, .inl ⟨rfl, hwraps.empty_iff.mp h⟩⟩)
      (fun h => absurd h (GameMonkey.gmGuards_classed hwraps)) ?_) ?_
    · intro d hd htext h
      obtain rfl : desc = d := Option.some.inj (hclass.symm.trans hd)
      exact ⟨⟨_, rfl⟩, .inr ⟨htext, h⟩⟩
    rintro r s' ⟨⟨hsaw, hsome, ho, hw⟩, hfull⟩
    refine ⟨fun m hm => ?_, hsome desc hclass, fun _ => hwraps.full hfull, ho, hw⟩
    obtain ⟨⟨w', hm⟩, hanswer⟩ := hsaw m hm
    obtain ⟨-, rfl⟩ := hwraps.saw hm
    exact ⟨hm.objectPtr, hanswer⟩
  destroy desc k v s p w st hwraps _ := by
    refine Ends.mono (GameMonkey.destroy_ends hwraps.alive (fun h => absurd h hwraps.not_null)
      fun h => absurd h (GameMonkey.gmGuards_classed hwraps)) ?_
    rintro m s' ⟨⟨w', hsaw, ho⟩, hw⟩
    obtain ⟨rfl, rfl⟩ := hwraps.saw hsaw
    exact ⟨rfl, hsaw.objectPtr, ho, hw⟩
  finalise desc k v s p w hwraps :=
    (GameMonkey.finalise_ends hwraps.alive (fun h => absurd h hwraps.not_null) fun h =>
      absurd h (GameMonkey.gmGuards_classed hwraps)).mono fun _ _ h => Guards.finalises_full h.1

/-! ## Sequences of calls -/

/-- The calls are made on an object of the class, and by what the class has registered. -/
structure Lifetime.Guards.Session {Fr W K S : Type} {b : Backend Fr W K S} (g : Guards b) (desc : ClassDesc) (v : Nat)
    (ts : List (Touch K S)) (s : Script Fr W K) : Prop where
  object : g.Instance desc v s.vm
  belongs : ∀ t ∈ ts, g.Belongs desc t s.vm.world

/-- The calls, and then the end of the value: no callback of the user is given a wrapper
without an object, and the host does not come to the loop of an assertion. -/
def Lifetime.Backend.Spares {Fr W K S : Type} (b : Backend Fr W K S) (v : Nat) (ts : List (Touch K S)) (k : K)
    (s : Script Fr W K) : Prop :=
  b.machine.Quiet CalledEmpty Asserts (ts.flatMap (Touch.ops v) ++ [.finalise k v]) s

/-- **Destroyed objects.** The calls on an object spare the user and the host exactly if none
comes too late: all answers are `true`, and `Destroy`, which is there for the classes that
are not collected, is followed by nothing, or in Lua by to-string calls that come to no user. -/
theorem destroyed_spared_iff (lua : Lua.LuaVm) (sq : Squirrel.SqVm) (desc : ClassDesc) :
    (∀ v ts k s, (Lua.luaGuards lua).Session desc v ts s →
      ((Lua.luaWrappers lua).Spares v ts k s ↔ (Lua.luaGuards lua).Timely desc ts = true)) ∧
    (∀ v ts k s, (Squirrel.squirrelGuards sq).Session desc v ts s →
      ((Squirrel.squirrelWrappers sq).Spares v ts k s ↔ (Squirrel.squirrelGuards sq).Timely desc ts = true)) ∧
    (∀ v ts k s, GameMonkey.gmGuards.Session desc v ts s →
      (GameMonkey.gmWrappers.Spares v ts k s ↔ GameMonkey.gmGuards.Timely desc ts = true)) :=
  ⟨fun _ _ _ _ h => Lua.luaGuards_lawful.quiet_iff_timely h.object h.belongs,
    fun _ _ _ _ h => Squirrel.squirrelGuards_lawful.quiet_iff_timely h.object h.belongs,
    fun _ _ _ _ h => GameMonkey.gmGuards_lawful.quiet_iff_timely h.object h.belongs⟩

/-- A script makes an object of a class that is not collected. -/
def GameMonkey.keptObject : List
    (Op GameMonkey.GmThread GameMonkey.GmWorld GameMonkey.GmCallInfo GameMonkey.GMScriptStack) :=
  [.construct (GameMonkey.calling (.classInfo keptClass)), .assign 0 7, .ret (GameMonkey.callbackStack 0)]

/-- `Destroy`, as often as the script calls it. -/
def GameMonkey.destroys (n : Nat) : List (Touch GameMonkey.GmCallInfo GameMonkey.GMScriptStack) :=
  List.replicate n (.destroy (GameMonkey.calling (.classInfo keptClass)) (GameMonkey.callbackStack 0))

theorem GameMonkey.keptObject_session (n : Nat) : ∃ os s, GameMonkey.gmWrappers.machine.run GameMonkey.keptObject
      (.start GameMonkey.idle (GameMonkey.withClass keptClass)) = .ok (os, s) ∧
    GameMonkey.gmGuards.Session keptClass 3 (GameMonkey.destroys n) s := by
  refine ⟨_, _, rfl, ⟨0, _, ⟨rfl, rfl, rfl⟩, rfl⟩, fun t ht => ?_⟩
  rw [List.eq_of_mem_replicate ht]
  trivial

/-- Destroyed once, it is gone in peace. -/
theorem destroyed_spared_once : ∃ os s, GameMonkey.gmWrappers.machine.run GameMonkey.keptObject
      (.start GameMonkey.idle (GameMonkey.withClass keptClass)) = .ok (os, s) ∧
    GameMonkey.gmWrappers.Spares 3 (GameMonkey.destroys 1) (GameMonkey.calling (.classInfo keptClass)) s := by
  obtain ⟨os, s, hrun, hsession⟩ := GameMonkey.keptObject_session 1
  have hiff := (destroyed_spared_iff (.ending (.returned [])) (.ending none) keptClass).2.2 3 (GameMonkey.destroys 1)
    (GameMonkey.calling (.classInfo keptClass)) s hsession
  exact ⟨os, s, hrun, hiff.mpr rfl⟩

/-- Destroyed twice, its destructor is called with `NULL`; and the text of what is destroyed is an assertion. -/
theorem destroyed_called_again :
    (∃ os s, GameMonkey.gmWrappers.machine.run (GameMonkey.keptObject ++ (GameMonkey.destroys 2).flatMap (Touch.ops 3))
      (.start GameMonkey.idle (GameMonkey.withClass keptClass)) = .ok (os, s) ∧
      some (.called .destroy keptClass 0 none) ∈ os) ∧
    GameMonkey.gmWrappers.machine.run (GameMonkey.keptObject ++ (GameMonkey.destroys 1).flatMap (Touch.ops 3) ++
        [.text (GameMonkey.calling (.classInfo keptClass)) 3]) (.start GameMonkey.idle (GameMonkey.withClass keptClass))
      = .error (.assertion "scriptObject->m_objectPtr") ∧
    ¬ ∀ v ts k s, GameMonkey.gmGuards.Session keptClass v ts s → GameMonkey.gmWrappers.Spares v ts k s := by
  refine ⟨⟨_, _, rfl, by decide⟩, rfl, fun h => ?_⟩
  obtain ⟨os, s, -, hsession⟩ := GameMonkey.keptObject_session 2
  have hspares := h 3 _ (GameMonkey.calling (.classInfo keptClass)) s hsession
  have htimely := (GameMonkey.gmGuards_lawful.quiet_iff_timely hsession.object hsession.belongs).mp hspares
  cases htimely

end MultiScript
