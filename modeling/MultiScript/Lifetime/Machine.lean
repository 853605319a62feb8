/-
A backend at work on its wrappers. `Backend` is its code: the callbacks it hands to
the VM, each cut where it calls the user, and the calls a host makes. `step` runs
them. The user's code in a constructor, a destructor or a finaliser is whatever
happens until `ret`, which comes back to the callback that was left last. A method
and a to-string method change nothing on their way back, so whatever their user
code does may as well happen after them.

`Lawful` is what the code does to wrappers and values. A lawful backend takes the
steps of `Lifetime.Step` and no others (`step_refines`), and so no run of it reads
through a pointer to a wrapper that was deleted (`run_safe`).
-/
import MultiScript.Lifetime.Spec

namespace MultiScript.Lifetime

open Act Run

/-- What a user's callback is given, and reads: the class it belongs to, the wrapper, and
what is in it. -/
structure Seen where
  desc : ClassDesc
  scriptObject : Nat
  objectPtr : Option Nat
deriving DecidableEq, Repr

def Seen.mark (m : Seen) (f : Callback) : Mark := .called f m.desc m.scriptObject m.objectPtr

/-- The user's code, as far as it is followed: the wrapper is read. -/
def watch {Fr W : Type} (desc : ClassDesc) (scriptObject : Nat) : VmM Fr W Seen := do
  let w ← readObject scriptObject
  return { desc, scriptObject, objectPtr := w.objectPtr }

theorem watch_ok {Fr W : Type} {s : VmState Fr W} {desc : ClassDesc} {p : Nat} {w : ScriptObject}
    (h : s.objects.get p = some w) :
    watch desc p s = .ok ({ desc, scriptObject := p, objectPtr := w.objectPtr }, s) := by
  rw [watch, bind_ok (readObject_ok h)]
  rfl

/-- What happens. `K` is what a call carries: the thread, the closure and the arguments.
`S` is the stack object a constructor leaves. `other` is all that touches no wrapper. -/
inductive Op (Fr W K S : Type)
  | construct (k : K)
  | assign (p x : Nat)
  | ret (st : S)
  | pushNew (k : K) (desc : ClassDesc) (objectPtr : Option Nat)
  | pushObject (k : K) (p : Nat)
  | popObject (k : K)
  | method (k : K) (v : Nat)
  | text (k : K) (v : Nat)
  | destroy (k : K) (v : Nat)
  | finalise (k : K) (v : Nat)
  | release (p : Nat)
  | other (frame : Nat → Fr) (world : W)

/-- `bound` is the wrapper a value points to, and `next` the next value. `binds` is the
value the end of a constructor will make point to its wrapper, and `early` says that it
does so already; `tagged` says that every wrapper is given its class. `consults` is the
class the finaliser of a value goes by, `none` for a value without one, and `classOf` the
class whose callback a call leads to. `fits` says that an operation is one the VM can
make. -/
structure Backend (Fr W K S : Type) where
  bound : W → Nat → Option Nat
  next : W → Nat
  early : Bool
  tagged : Bool
  thread : K → Nat
  restore : Fr → Fr → Fr
  construct : K → VmM Fr W (ClassDesc × Nat × Option Nat)
  constructed : K → ClassDesc → Nat → S → VmM Fr W Unit
  pushNew : K → ClassDesc → Option Nat → VmM Fr W Nat
  pushObject : K → Nat → VmM Fr W Unit
  popObject : K → VmM Fr W (Option Nat)
  method : K → Nat → VmM Fr W Seen
  text : K → Nat → VmM Fr W (Option Seen)
  destroy : K → Nat → VmM Fr W Seen
  finalise : K → Nat → VmM Fr W (Option (Nat × Option Seen))
  binds : K → VmState Fr W → Option Nat
  consults : VmState Fr W → Nat → Option ClassDesc
  classOf : Callback → K → Nat → VmState Fr W → Option ClassDesc
  fits : Op Fr W K S → VmState Fr W → Prop

variable {Fr W K S α : Type}

/-- The state of the host and the VM. A callback that runs is kept with its call and the
frame of its caller. -/
structure Script (Fr W K : Type) where
  vm : VmState Fr W
  finalised : Nat → Bool
  running : List (Activity × K × Fr)
  owner : Nat → Option ClassDesc
  made : Nat → Option ClassDesc

/-- Nothing is there yet. -/
def Script.start (frame : Nat → Fr) (world : W) : Script Fr W K where
  vm := { frame, world, objects := .empty }
  finalised _ := false
  running := []
  owner _ := none
  made _ := none

def Script.perform (s : Script Fr W K) (m : VmM Fr W α) (k : α → VmState Fr W → Option Mark × Script Fr W K) :
    Except Fault (Option Mark × Script Fr W K) :=
  match m s.vm with
  | .ok (a, vm) => .ok (k a vm)
  | .error f => .error f

namespace Backend

variable (b : Backend Fr W K S)

/-- The frame of the caller comes back. -/
def leave (k : K) (caller : Fr) (vm : VmState Fr W) : VmState Fr W :=
  vm.setFrame (b.thread k) (b.restore caller (vm.frame (b.thread k)))

/-- The callback that was left last goes on. -/
def ret (st : S) (s : Script Fr W K) : Except Fault (Option Mark × Script Fr W K) :=
  match s.running with
  | [] => .ok (none, s)
  | (.constructing p desc inst, k, caller) :: running =>
    s.perform (b.constructed k desc p st) fun _ vm => (none, { s with
      vm := b.leave k caller vm
      running
      made := if b.early then s.made else Function.update s.made (inst.getD (b.next s.vm.world)) (some desc) })
  | (.destroying p, k, caller) :: running =>
    s.perform (changeObjects (·.destroyed p)) fun _ vm => (none, { s with vm := b.leave k caller vm, running })
  | (.finalising p, k, caller) :: running =>
    s.perform (changeObjects (·.delete p)) fun _ vm =>
      (some (.deleted p), { s with vm := b.leave k caller vm, running })

def step : Op Fr W K S → Script Fr W K → Except Fault (Option Mark × Script Fr W K)
  | .construct k, s => s.perform (b.construct k) fun r vm => (none, { s with
      vm
      running := (.constructing r.2.1 r.1 r.2.2, k, s.vm.frame (b.thread k)) :: s.running
      owner := Function.update s.owner r.2.1 (some r.1)
      made := if b.early then Function.update s.made (b.next s.vm.world) (some r.1) else s.made })
  | .assign p x, s =>
      s.perform (onObjects fun o => (o.read p).map fun w => ((), o.write p { w with objectPtr := some x }))
      fun _ vm => (none, { s with vm })
  | .ret st, s => b.ret st s
  | .pushNew k desc objectPtr, s => s.perform (b.pushNew k desc objectPtr) fun p vm => (none, { s with
      vm
      owner := Function.update s.owner p (some desc)
      made := Function.update s.made (b.next vm.world - 1) (some desc) })
  | .pushObject k p, s => s.perform (b.pushObject k p) fun _ vm => (none, { s with vm })
  | .popObject k, s => s.perform (b.popObject k) fun _ vm => (none, { s with vm })
  | .method k v, s => s.perform (b.method k v) fun m vm => (some (m.mark .method), { s with vm })
  | .text k v, s => s.perform (b.text k v) fun m vm => (m.map (·.mark .text), { s with vm })
  | .destroy k v, s => s.perform (b.destroy k v) fun m vm => (some (m.mark .destroy), { s with
      vm
      running := (.destroying m.scriptObject, k, s.vm.frame (b.thread k)) :: s.running })
  | .finalise k v, s => s.perform (b.finalise k v) fun r vm =>
      let s' := { s with vm, finalised := Function.update s.finalised v true }
      match r with
      | none => (none, s')
      | some (p, none) => (some (.deleted p), { s' with vm := b.leave k (s.vm.frame (b.thread k)) vm })
      | some (p, some m) => (some (m.mark .collect), { s' with
          running := (.finalising p, k, s.vm.frame (b.thread k)) :: s.running })
  | .release p, s => s.perform (changeObjects (·.release p)) fun _ vm =>
      (if (vm.objects.get p).isSome then none else some (.deleted p), { s with vm })
  | .other frame world, s => .ok (none, { s with vm := { s.vm with frame, world } })

def machine : Machine (Script Fr W K) (Op Fr W K S) (Option Mark) Fault where
  step := b.step

/-- The wrappers and the values. -/
def life (s : Script Fr W K) : Life where
  early := b.early
  tagged := b.tagged
  objects := s.vm.objects
  bound := b.bound s.vm.world
  next := b.next s.vm.world
  finalised := s.finalised
  running := s.running.map (·.1)
  owner := s.owner
  made := s.made

/-- What `ret` comes back to. -/
def labelRet (s : Script Fr W K) : Label :=
  match s.running with
  | [] => .other
  | (.constructing _ _ inst, k, _) :: _ => .constructed (b.binds k s.vm) (inst.getD (b.next s.vm.world))
  | (.destroying _, _, _) :: _ => .destroyed
  | (.finalising _, _, _) :: _ => .finalised

def label (s : Script Fr W K) : Op Fr W K S → Label
  | .construct _ => .construct
  | .assign p x => .assign p x
  | .ret _ => b.labelRet s
  | .pushNew _ desc objectPtr => .pushNew desc objectPtr
  | .pushObject _ _ => .other
  | .popObject _ => .other
  | .method k v => .call .method (b.classOf .method k v s.vm) v
  | .text k v => .call .text (b.classOf .text k v s.vm) v
  | .destroy k v => .call .destroy (b.classOf .destroy k v s.vm) v
  | .finalise _ v => .finalise v (b.consults s.vm v)
  | .release p => .release p
  | .other _ _ => .other

/-! ## Laws -/

/-- Through a pointer to a wrapper that is not there. -/
def NotWild (f : Fault) : Prop := f ≠ .wildDeref

theorem NotWild.assertion (text : String) : NotWild (.assertion text) := fun h => by cases h

/-- Nothing points to a wrapper before it is made. -/
def Unborn (w : W) : Prop := ∀ v, b.next w ≤ v → b.bound w v = none

/-- The values are what they were, and perhaps there are more. -/
structure SameValues (w w' : W) : Prop where
  bound : b.bound w' = b.bound w
  next : b.next w ≤ b.next w'

theorem SameValues.of_eq {w w' : W} (h : w' = w) : b.SameValues w w' := h ▸ ⟨rfl, Nat.le_refl _⟩

/-- What a value points to is there. -/
def Alive (v : Nat) (s : VmState Fr W) : Prop := ∀ p, b.bound s.world v = some p → ∃ w, s.objects.get p = some w

/-- The object of a value is destroyed: its wrapper has none in it. -/
def Empty (v : Nat) (s : VmState Fr W) : Prop :=
  ∃ p w, b.bound s.world v = some p ∧ s.objects.get p = some w ∧ w.objectPtr = none

/-- What a callback was given: the wrapper of the value. -/
structure Saw (f : Callback) (k : K) (v : Nat) (s : VmState Fr W) (m : Seen) (w : ScriptObject) : Prop where
  bound : b.bound s.world v = some m.scriptObject
  get : s.objects.get m.scriptObject = some w
  objectPtr : m.objectPtr = w.objectPtr
  desc : b.classOf f k v s = some m.desc

/-- How far a constructor has got when it calls the user. -/
structure Begins (s s' : VmState Fr W) (r : ClassDesc × Nat × Option Nat) : Prop where
  wrapper : r.2.1 = s.objects.next
  object : ∃ w, Blank b.tagged r.1 w ∧ s'.objects = s.objects.new w
  late : b.early = false → b.SameValues s.world s'.world
  early : b.early = true → r.2.2 = some (b.next s.world) ∧ b.next s.world < b.next s'.world ∧
    b.bound s'.world = Function.update (b.bound s.world) (b.next s.world) (some s.objects.next)

/-- What the end of a constructor does. -/
structure Binds (k : K) (p : Nat) (w : ScriptObject) (s s' : VmState Fr W) : Prop where
  object : w.objectPtr.isSome = true
  objects : s'.objects = s.objects
  bound : b.bound s'.world = rebind (b.bound s.world) p (b.binds k s)
  next : b.next s.world ≤ b.next s'.world
  lt : ∀ v, b.binds k s = some v → v < b.next s'.world

/-- What `PushNewScriptObject` does: the new value is the last one. -/
structure MakesNew (desc : ClassDesc) (objectPtr : Option Nat) (s s' : VmState Fr W) (p : Nat) : Prop where
  wrapper : p = s.objects.next
  object : ∃ w, Blank b.tagged desc w ∧ w.objectPtr = objectPtr ∧ s'.objects = s.objects.new w
  next : b.next s.world < b.next s'.world
  bound : b.bound s'.world = Function.update (b.bound s.world) (b.next s'.world - 1) (some s.objects.next)

/-- What a finaliser does before it comes to the user, if it does. -/
inductive Finalises (v : Nat) (s s' : VmState Fr W) : Option (Nat × Option Seen) → Prop
  | unhooked (hc : b.consults s v = none) (ho : s'.objects = s.objects) : Finalises v s s' none
  | deleted {p : Nat} {w : ScriptObject} (hb : b.bound s.world v = some p) (hp : s.objects.get p = some w)
      (hd : w.objectPtr = none ∨ ∃ desc, b.consults s v = some desc ∧ desc.garbageCollect = false)
      (ho : s'.objects = without s.objects p) :
      Finalises v s s' (some (p, none))
  | collects {p : Nat} {w : ScriptObject} {m : Seen} (hb : b.bound s.world v = some p) (hp : s.objects.get p = some w)
      (hm : m = { desc := m.desc, scriptObject := p, objectPtr := w.objectPtr }) (hc : b.consults s v = some m.desc)
      (hd : m.desc.garbageCollect = true) (hptr : w.objectPtr.isSome = true)
      (ho : s'.objects = s.objects.write p { w with lockedByScript := true }) : Finalises v s s' (some (p, some m))

/-- What the code of a backend does, where the operation fits and what it works on is
there: it returns so, or fails to return in another way than through a wrapper that was
deleted. -/
structure Lawful : Prop where
  construct : ∀ k s, b.fits (.construct k) s → b.Unborn s.world →
    Ends (b.construct k) s (fun r s' => b.Begins s s' r) NotWild
  constructed : ∀ k desc p st s w, b.fits (.ret st) s → s.objects.get p = some w →
    Ends (b.constructed k desc p st) s (fun _ s' => b.Binds k p w s s') NotWild
  early : b.early = true → ∀ k s, b.binds k s = none
  pushNew : ∀ k desc objectPtr s, b.fits (.pushNew k desc objectPtr) s → b.Unborn s.world →
    Ends (b.pushNew k desc objectPtr) s (fun p s' => b.MakesNew desc objectPtr s s' p) NotWild
  pushObject : ∀ k p s w, b.fits (.pushObject k p) s → s.objects.get p = some w →
    Ends (b.pushObject k p) s (fun _ s' => s'.objects = s.objects ∧ b.SameValues s.world s'.world) NotWild
  popObject : ∀ k s, b.fits (.popObject k) s →
    Ends (b.popObject k) s (fun _ s' => s'.objects = s.objects ∧ b.SameValues s.world s'.world) NotWild
  method : ∀ k v s, b.fits (.method k v) s → b.Alive v s →
    Ends (b.method k v) s (fun m s' => (∃ w, b.Saw .method k v s m w) ∧ s'.objects = s.objects ∧
      s'.world = s.world) NotWild
  text : ∀ k v s, b.fits (.text k v) s → b.Alive v s →
    Ends (b.text k v) s (fun r s' => (∀ m, r = some m → ∃ w, b.Saw .text k v s m w) ∧ s'.objects = s.objects ∧
      s'.world = s.world) NotWild
  destroy : ∀ k v s, b.fits (.destroy k v) s → b.Alive v s →
    Ends (b.destroy k v) s (fun m s' => (∃ w, b.Saw .destroy k v s m w ∧
      s'.objects = s.objects.write m.scriptObject { w with lockedByScript := true }) ∧ s'.world = s.world) NotWild
  finalise : ∀ k v s, b.fits (.finalise k v) s → b.Alive v s →
    Ends (b.finalise k v) s (fun r s' => b.Finalises v s s' r ∧ s'.world = s.world) NotWild

/-! ## What a run needs -/

/-- What the VM promises. It uses a value as long as it is there, and finalises it once,
when no callback holds it. User code sets the pointer of an object it constructs. What is
not followed here makes no value point to a wrapper. -/
def Possible (s : Script Fr W K) : Op Fr W K S → Prop
  | .assign p _ => ∃ desc inst, .constructing p desc inst ∈ (b.life s).running
  | .ret _ => ∀ a rest, s.running = a :: rest → ∀ v, b.binds a.2.1 s.vm = some v → s.finalised v = false
  | .method _ v => s.finalised v = false
  | .text _ v => s.finalised v = false
  | .destroy _ v => s.finalised v = false
  | .finalise _ v => v < b.next s.vm.world ∧ s.finalised v = false ∧
      ∀ p, b.bound s.vm.world v = some p → ∀ a ∈ (b.life s).running, a.wrapper ≠ p
  | .other _ world => b.SameValues s.vm.world world
  | _ => True

/-- What the host has to see to. It calls `Release` on a wrapper that is there, and that
its destructor has locked or that neither a value nor a callback knows; and it hands an
object to a script again only while its value is there. -/
def Careful (s : Script Fr W K) : Op Fr W K S → Prop
  | .release p => ∃ w, s.vm.objects.get p = some w ∧ (w.lockedByScript = true ∨ (b.life s).Unused p)
  | .pushObject _ p => ∃ w, s.vm.objects.get p = some w ∧ ∀ v, w.userObject = some v → s.finalised v = false
  | _ => True

/-- An operation that the VM can make and the host may. -/
structure Allowed (e : Op Fr W K S) (s : Script Fr W K) : Prop where
  fits : b.fits e s.vm
  possible : b.Possible s e
  careful : b.Careful s e

end Backend

/-! ## What is deleted -/

/-- Every wrapper that was deleted is gone, and was deleted once. -/
def Gone (s : Life) (os : List (Option Mark)) : Prop :=
  ∀ p, os.count (some (.deleted p)) = 0 ∨
    os.count (some (.deleted p)) = 1 ∧ p < s.objects.next ∧ s.objects.get p = none

theorem Step.stays_gone {l : Label} {s s' : Life} {o : Option Mark} (hs : Step l s o s') {p : Nat}
    (hlt : p < s.objects.next) (hp : s.objects.get p = none) : p < s'.objects.next ∧ s'.objects.get p = none := by
  have hnew : ∀ w, p < (s.objects.new w).next ∧ (s.objects.new w).get p = none := fun w =>
    ⟨Nat.lt_succ_of_lt hlt, (Objects.new_get_other (Nat.ne_of_lt hlt)).trans hp⟩
  have hwrite : ∀ {q w} w', s.objects.get q = some w → (s.objects.write q w').get p = none := by
    intro q w w' hq
    have hne : p ≠ q := by
      rintro rfl
      rw [hp] at hq
      cases hq
    exact (Objects.write_get_other hne).trans hp
  have hwithout : ∀ q, (without s.objects q).get p = none := by
    intro q
    by_cases hq : p = q
    · subst hq
      exact without_get_self
    · exact (without_get_other hq).trans hp
  cases hs with
  | constructLate => exact hnew _
  | constructEarly => exact hnew _
  | pushNew => exact hnew _
  | assign hq => exact ⟨hlt, hwrite _ hq⟩
  | destroy _ hq => exact ⟨hlt, hwrite _ hq⟩
  | destroyed _ hq => exact ⟨hlt, hwrite _ hq⟩
  | finaliseCollect _ _ hq => exact ⟨hlt, hwrite _ hq⟩
  | finaliseDelete => exact ⟨hlt, hwithout _⟩
  | finalised => exact ⟨hlt, hwithout _⟩
  | releaseUnused => exact ⟨hlt, hwithout _⟩
  | _ => exact ⟨hlt, hp⟩

/-- What a step deletes was there. -/
theorem Step.deletes {l : Label} {s s' : Life} {p : Nat} (hs : Step l s (some (.deleted p)) s') (h : Sound s) :
    (∃ w, s.objects.get p = some w) ∧ p < s'.objects.next ∧ s'.objects.get p = none := by
  cases hs with
  | finaliseDelete _ _ hp => exact ⟨⟨_, hp⟩, h.lt_next hp, without_get_self⟩
  | finalised _ hp => exact ⟨⟨_, hp⟩, h.lt_next hp, without_get_self⟩
  | releaseUnused hp => exact ⟨⟨_, hp⟩, h.lt_next hp, without_get_self⟩

theorem Step.gone {l : Label} {s s' : Life} {o : Option Mark} {os : List (Option Mark)} (hs : Step l s o s')
    (h : Sound s)
    (hg : Gone s os) : Gone s' (os ++ [o]) := by
  intro p
  rw [List.count_append]
  by_cases ho : o = some (.deleted p)
  · subst ho
    obtain ⟨⟨w, hw⟩, hgone⟩ := hs.deletes h
    rcases hg p with hno | ⟨-, -, hp⟩
    · exact .inr ⟨by simp [hno], hgone⟩
    · rw [hw] at hp
      cases hp
  · have hcount : [o].count (some (.deleted p)) = 0 := by simp [ho]
    rw [hcount, Nat.add_zero]
    exact (hg p).imp id fun ⟨hone, hlt, hp⟩ => ⟨hone, hs.stays_gone hlt hp⟩

/-! ## A backend takes the steps of the specification -/

/-- It returns where `P` holds, or fails to return where `E` does. -/
def Gives {β : Type} (r : Except Fault β) (P : β → Prop) (E : Fault → Prop) : Prop :=
  match r with
  | .ok x => P x
  | .error f => E f

theorem perform_gives {s : Script Fr W K} {m : VmM Fr W α} {k : α → VmState Fr W → Option Mark × Script Fr W K}
    {Q : α → VmState Fr W → Prop} {P : Option Mark × Script Fr W K → Prop} {E : Fault → Prop} (h : Ends m s.vm Q E)
    (hP : ∀ a vm, Q a vm → P (k a vm)) : Gives (s.perform m k) P E := by
  unfold Ends at h
  unfold Script.perform Gives
  cases hm : m s.vm with
  | ok r =>
    rw [hm] at h
    exact hP _ _ h
  | error f =>
    rw [hm] at h
    exact h

namespace Backend

variable {b : Backend Fr W K S} {s : Script Fr W K}

/-- A change of a wrapper that is there. -/
theorem write_ends {p : Nat} {w : ScriptObject} {vm : VmState Fr W} (hp : vm.objects.get p = some w)
    (f : ScriptObject → ScriptObject) (E : Fault → Prop) :
    Ends (onObjects fun o => (o.read p).map fun w => ((), o.write p (f w))) vm
      (fun _ vm' => vm' = { vm with objects := vm.objects.write p (f w) }) E := by
  refine Ends.of_ok (a := ()) ?_ rfl
  simp [onObjects, Objects.read_some hp, Except.map]

theorem delete_ends {p : Nat} {w : ScriptObject} {vm : VmState Fr W} (hp : vm.objects.get p = some w)
    (E : Fault → Prop) :
    Ends (changeObjects (·.delete p)) vm (fun _ vm' => vm' = { vm with objects := without vm.objects p }) E := by
  refine Ends.of_ok (a := ()) ?_ rfl
  simp [changeObjects, onObjects, Objects.delete, hp, Except.map, without]

theorem lock_ends {p : Nat} {w : ScriptObject} {vm : VmState Fr W} (hp : vm.objects.get p = some w) (E : Fault → Prop) :
    Ends (changeObjects (·.lock p)) vm
      (fun _ vm' => vm' = { vm with objects := vm.objects.write p { w with lockedByScript := true } }) E := by
  refine Ends.of_ok (a := ()) ?_ rfl
  simp [changeObjects, onObjects, Objects.lock, Objects.read_some hp, Except.map]

theorem destroyed_ends {p : Nat} {w : ScriptObject} {vm : VmState Fr W} (hp : vm.objects.get p = some w)
    (E : Fault → Prop) :
    Ends (changeObjects (·.destroyed p)) vm (fun _ vm' => vm' = { vm with
      objects := vm.objects.write p { w with lockedByScript := false, objectPtr := none } }) E := by
  refine Ends.of_ok (a := ()) ?_ rfl
  simp [changeObjects, onObjects, Objects.destroyed, Objects.read_some hp, Except.map]

theorem alive (hs : Sound (b.life s)) {v : Nat} (hv : s.finalised v = false) : b.Alive v s.vm :=
  fun p hp => hs.alive v p ⟨hp, hv⟩

theorem not_empty {v p : Nat} {w : ScriptObject} {s : VmState Fr W} (hb : b.bound s.world v = some p)
    (hp : s.objects.get p = some w) (hw : w.objectPtr.isSome = true) : ¬ b.Empty v s := by
  rintro ⟨q, w', hb', hq, hnone⟩
  obtain rfl : p = q := Option.some.inj (hb.symm.trans hb')
  obtain rfl : w = w' := Option.some.inj (hp.symm.trans hq)
  rw [hnone] at hw
  cases hw

theorem unborn (hs : Sound (b.life s)) : b.Unborn s.vm.world := fun v hv => (hs.unborn v hv).1

/-- What is left as it was, is a step of nothing. -/
theorem SameValues.step {vm : VmState Fr W} (hv : b.SameValues s.vm.world vm.world) (ho : vm.objects = s.vm.objects) :
    Step .other (b.life s) none (b.life { s with vm }) := by
  have hstep := @Step.other (b.life s) (b.next vm.world) hv.next
  have heq : b.life { s with vm } = { b.life s with next := b.next vm.world } := by
    simp only [life, ho, hv.bound]
  rw [heq]
  exact hstep

theorem life_same {vm : VmState Fr W} (ho : vm.objects = s.vm.objects) (hw : vm.world = s.vm.world) :
    b.life { s with vm } = b.life s := by
  simp only [life, ho, hw]

@[simp] theorem leave_objects {k : K} {caller : Fr} {vm : VmState Fr W} :
    (b.leave k caller vm).objects = vm.objects := rfl

@[simp] theorem leave_world {k : K} {caller : Fr} {vm : VmState Fr W} : (b.leave k caller vm).world = vm.world := rfl

theorem ret_refines (hb : b.Lawful) (hs : Sound (b.life s)) (st : S) (hf : b.fits (.ret st) s.vm)
    (hp : b.Possible s (.ret st)) :
    Gives (b.ret st s) (fun r => Step (b.labelRet s) (b.life s) r.1 (b.life r.2)) NotWild := by
  unfold ret labelRet
  rcases hr : s.running with _ | ⟨⟨a, k, caller⟩, rest⟩
  · exact @Step.other (b.life s) _ (Nat.le_refl _)
  have hrun : (b.life s).running = a :: rest.map (·.1) := by simp [life, hr]
  obtain ⟨w, hw⟩ := hs.inUse a (by simp [hrun])
  cases a with
  | constructing p desc inst =>
    have hbinds := hp _ _ hr
    refine perform_gives (hb.constructed k desc p st s.vm w hf hw) fun _ vm hd => ?_
    have hlife : b.life { s with
        vm := b.leave k caller vm
        running := rest
        made := if b.early then s.made else Function.update s.made (inst.getD (b.next s.vm.world)) (some desc) } =
          { b.life s with
        bound := rebind (b.bound s.vm.world) p (b.binds k s.vm)
        next := b.next vm.world
        running := rest.map (·.1)
        made := if b.early then s.made else Function.update s.made (inst.getD (b.next s.vm.world)) (some desc) } := by
      simp only [life, leave_objects, leave_world, hd.objects, hd.bound]
    simp only [hlife]
    exact Step.constructed hrun hw hd.object (fun he => hb.early he k s.vm)
      (fun v hv => ⟨hd.lt v hv, hbinds v hv⟩) hd.next
  | destroying p =>
    refine perform_gives (destroyed_ends hw NotWild) fun _ vm hd => ?_
    subst hd
    exact Step.destroyed hrun hw
  | finalising p =>
    refine perform_gives (delete_ends hw NotWild) fun _ vm hd => ?_
    subst hd
    exact Step.finalised hrun hw

theorem step_refines (hb : b.Lawful) (hs : Sound (b.life s)) {e : Op Fr W K S} (ha : b.Allowed e s) :
    Gives (b.step e s) (fun r => Step (b.label s e) (b.life s) r.1 (b.life r.2)) NotWild := by
  obtain ⟨hf, hp, hc⟩ := ha
  cases e with
  | construct k =>
    refine perform_gives (hb.construct k s.vm hf (unborn hs)) fun r vm hr => ?_
    obtain ⟨desc, p, inst⟩ := r
    obtain ⟨rfl, ⟨w, hw, ho⟩, hlate, hearly⟩ := hr
    cases he : b.early with
    | false =>
      have hsame := hlate he
      have hstep := @Step.constructLate (b.life s) desc w inst _ he hw hsame.next
      simp only [life, ho, hsame.bound, he, List.map_cons] at hstep ⊢
      exact hstep
    | true =>
      obtain ⟨hinst, hnext, hbound⟩ := hearly he
      have hstep := @Step.constructEarly (b.life s) desc w _ he hw hnext
      simp only at hinst
      simp only [life, ho, hbound, he, hinst, List.map_cons] at hstep ⊢
      exact hstep
  | assign p x =>
    obtain ⟨desc, inst, hmem⟩ := hp
    obtain ⟨w, hw⟩ := hs.inUse _ hmem
    refine perform_gives (write_ends hw (fun w => { w with objectPtr := some x }) NotWild) fun _ vm hd => ?_
    subst hd
    exact Step.assign hw ⟨desc, inst, hmem⟩
  | ret st => exact ret_refines hb hs st hf hp
  | pushNew k desc objectPtr =>
    refine perform_gives (hb.pushNew k desc objectPtr s.vm hf (unborn hs)) fun p vm hr => ?_
    obtain ⟨rfl, ⟨w, hw, rfl, ho⟩, hnext, hbound⟩ := hr
    have hlast : (b.life s).next ≤ b.next vm.world - 1 := Nat.le_sub_one_of_lt hnext
    have hlt : b.next vm.world - 1 < b.next vm.world := by omega
    have hstep := @Step.pushNew (b.life s) desc w _ _ hw hlast hlt
    simp only [life, ho, hbound] at hstep ⊢
    exact hstep
  | pushObject k p =>
    obtain ⟨w, hw, -⟩ := hc
    exact perform_gives (hb.pushObject k p s.vm w hf hw) fun _ vm hr => hr.2.step hr.1
  | popObject k => exact perform_gives (hb.popObject k s.vm hf) fun _ vm hr => hr.2.step hr.1
  | method k v =>
    refine perform_gives (hb.method k v s.vm hf (alive hs hp)) fun m vm hr => ?_
    obtain ⟨⟨w, hw⟩, ho, hworld⟩ := hr
    have hstep := @Step.call (b.life s) .method m.desc v _ w (.inl rfl) ⟨hw.bound, hp⟩ hw.get
    simp only [label, Seen.mark, hw.desc, hw.objectPtr, life_same ho hworld]
    exact hstep
  | text k v =>
    refine perform_gives (hb.text k v s.vm hf (alive hs hp)) fun r vm hr => ?_
    obtain ⟨hsaw, ho, hworld⟩ := hr
    simp only [life_same ho hworld]
    cases r with
    | none => exact Step.silent
    | some m =>
      obtain ⟨w, hw⟩ := hsaw m rfl
      have hstep := @Step.call (b.life s) .text m.desc v _ w (.inr rfl) ⟨hw.bound, hp⟩ hw.get
      simp only [label, Option.map_some, Seen.mark, hw.desc, hw.objectPtr]
      exact hstep
  | destroy k v =>
    refine perform_gives (hb.destroy k v s.vm hf (alive hs hp)) fun m vm hr => ?_
    obtain ⟨⟨w, hw, ho⟩, hworld⟩ := hr
    have hstep := @Step.destroy (b.life s) m.desc v _ w ⟨hw.bound, hp⟩ hw.get
    simp only [label, Seen.mark, hw.desc, hw.objectPtr]
    simp only [life, ho, hworld, List.map_cons] at hstep ⊢
    exact hstep
  | finalise k v =>
    obtain ⟨hlt, hlive, hfree⟩ := hp
    refine perform_gives (hb.finalise k v s.vm hf (alive hs hlive)) fun r vm hr => ?_
    obtain ⟨hr, hworld⟩ := hr
    cases hr with
    | unhooked hcons ho =>
      have hstep := @Step.finaliseUnhooked (b.life s) v hlt
      simp only [label, hcons]
      simp only [life, ho, hworld] at hstep ⊢
      exact hstep
    | @deleted p w hbound hw hd ho =>
      have hstep := @Step.finaliseDelete (b.life s) v p _ w hlt ⟨hbound, hlive⟩ hw (hfree p hbound) hd
      simp only [label]
      simp only [life, leave_objects, leave_world, ho, hworld] at hstep ⊢
      exact hstep
    | @collects p w m hbound hw hm hcons hd hptr ho =>
      have hstep := @Step.finaliseCollect (b.life s) v p m.desc w hlt ⟨hbound, hlive⟩ hw (hfree p hbound) hptr hd
      have hmark : m.mark .collect = .called .collect m.desc p w.objectPtr := by rw [hm]; rfl
      simp only [label, hcons, hmark]
      simp only [life, ho, hworld, List.map_cons] at hstep ⊢
      exact hstep
  | release p =>
    obtain ⟨w, hw, hcond⟩ := hc
    cases hl : w.lockedByScript with
    | true =>
      have hends : Ends (changeObjects (·.release p)) s.vm (fun _ vm => vm = s.vm) NotWild := by
        refine Ends.of_ok (a := ()) ?_ rfl
        simp [changeObjects, onObjects, Objects.release, hw, hl, Except.map]
      refine perform_gives hends fun _ vm hd => ?_
      subst hd
      simp only [hw, Option.isSome_some, if_true]
      exact Step.releaseLocked hw hl
    | false =>
      have hends : Ends (changeObjects (·.release p)) s.vm
          (fun _ vm => vm = { s.vm with objects := without s.vm.objects p }) NotWild := by
        refine Ends.of_ok (a := ()) ?_ rfl
        simp [changeObjects, onObjects, Objects.release, Objects.delete, hw, hl, Except.map, without]
      refine perform_gives hends fun _ vm hd => ?_
      subst hd
      simp only [without_get_self, Option.isSome_none, Bool.false_eq_true, if_false]
      refine Step.releaseUnused hw hl ?_
      rcases hcond with h | h
      · rw [hl] at h
        cases h
      · exact h
  | other frame world => exact SameValues.step hp rfl

theorem step_sound (hb : b.Lawful) {e : Op Fr W K S} {o : Option Mark} {s' : Script Fr W K} (hs : Sound (b.life s))
    (ha : b.Allowed e s) (h : b.step e s = .ok (o, s')) :
      Step (b.label s e) (b.life s) o (b.life s') ∧ Sound (b.life s') := by
  have hstep := step_refines hb hs ha
  rw [h] at hstep
  exact ⟨hstep, Step.sound hstep hs⟩

theorem start_sound {frame : Nat → Fr} {world : W} (hw : ∀ v, b.bound world v = none) :
    Sound (b.life (Script.start frame world)) := by
  have hno : ∀ v p, ¬ (b.life (Script.start frame world)).Points v p := by
    rintro v p ⟨hv, -⟩
    have hv' : b.bound world v = some p := hv
    rw [hw v] at hv'
    cases hv'
  exact ⟨fun _ _ => rfl, fun v _ => ⟨hw v, rfl⟩, fun v p h => absurd h (hno v p), fun v _ p h _ => absurd h (hno v p),
    fun a ha => absurd ha (by simp [life, Script.start]), fun a ha => absurd ha (by simp [life, Script.start]),
    List.Pairwise.nil⟩

/-- No run reads through a pointer to a wrapper that was deleted. -/
theorem run_safe (hb : b.Lawful) {es : List (Op Fr W K S)} {f : Fault} (hs : Sound (b.life s))
    (hm : b.machine.Meets b.Allowed es s) (hr : b.machine.run es s = .error f) : f ≠ .wildDeref := by
  refine Machine.run_no_fault (I := fun s => Sound (b.life s)) (B := fun f => f = .wildDeref)
    (fun e s o s' hs ha h => (step_sound hb hs ha h).2) (fun e s f hs ha h => ?_) hs hm hr
  have hstep := step_refines hb hs ha
  have h' : b.step e s = .error f := h
  rw [h'] at hstep
  exact hstep

/-- Over a whole run, no wrapper is deleted twice. -/
theorem run_gone (hb : b.Lawful) {es : List (Op Fr W K S)} {os : List (Option Mark)} {s' : Script Fr W K}
    (hs : Sound (b.life s)) (hm : b.machine.Meets b.Allowed es s) (hr : b.machine.run es s = .ok (os, s')) :
    Gone (b.life s') os := by
  have hstep : ∀ os e s o s', (Sound (b.life s) ∧ Gone (b.life s) os) → b.Allowed e s →
    b.machine.step e s = .ok (o, s') →
      Sound (b.life s') ∧ Gone (b.life s') (os ++ [o]) := by
    rintro os e s o s' ⟨hs, hg⟩ ha h
    obtain ⟨hstep, hs'⟩ := step_sound hb hs ha h
    exact ⟨hs', hstep.gone hs hg⟩
  have hstart : Gone (b.life s) [] := fun p => .inl rfl
  exact (Machine.run_traced hstep ⟨hs, hstart⟩ hm hr).2

end Backend

end MultiScript.Lifetime
