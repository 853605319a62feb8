/-
What a callback works with besides its own stack: the wrappers the host
allocates, and the threads of the VM. A pointer to a wrapper is its address;
addresses are not used again, so a pointer to a wrapper that was deleted is a
pointer to nothing.
-/
import MultiScript.Interface
import MultiScript.Lib.Act
import Mathlib.Logic.Function.Basic

namespace MultiScript

/-- A wrapper. `classInfo` is a field of the Squirrel and GameMonkey wrappers, and
`userObject` of the GameMonkey one; `none` where nothing has been stored. -/
structure ScriptObject where
  objectPtr : Option Nat := none
  lockedByScript : Bool := false
  classInfo : Option ClassDesc := none
  userObject : Option Nat := none
deriving DecidableEq, Repr

/-- The wrappers that are not deleted. -/
structure Objects where
  next : Nat
  get : Nat → Option ScriptObject

namespace Objects

def empty : Objects := { next := 0, get := fun _ => none }

/-- `new`: the address is the next one. -/
def new (o : Objects) (w : ScriptObject) : Objects :=
  { next := o.next + 1, get := Function.update o.get o.next (some w) }

def read (o : Objects) (p : Nat) : Except Fault ScriptObject :=
  match o.get p with
  | some w => .ok w
  | none => .error .wildDeref

def write (o : Objects) (p : Nat) (w : ScriptObject) : Objects :=
  { o with get := Function.update o.get p (some w) }

/-- `delete`. A wrapper that is deleted already is freed twice. -/
def delete (o : Objects) (p : Nat) : Except Fault Objects :=
  match o.get p with
  | some _ => .ok { o with get := Function.update o.get p none }
  | none => .error .wildDeref

/-- `Release`. -/
def release (o : Objects) (p : Nat) : Except Fault Objects :=
  match o.get p with
  | some w => if w.lockedByScript then .ok o else o.delete p
  | none => .error .wildDeref

/-- `m_lockedByScript = true`, before a destructor is called. -/
def lock (o : Objects) (p : Nat) : Except Fault Objects :=
  (o.read p).map fun w => o.write p { w with lockedByScript := true }

/-- `m_lockedByScript = false` and `m_objectPtr = NULL`, after a destructor was called by
`Destroy`. -/
def destroyed (o : Objects) (p : Nat) : Except Fault Objects :=
  (o.read p).map fun w => o.write p { w with lockedByScript := false, objectPtr := none }

variable {o : Objects} {p : Nat} {w : ScriptObject}

theorem read_some (h : o.get p = some w) : o.read p = .ok w := by simp only [read, h]

@[simp] theorem new_get_next : (o.new w).get o.next = some w := by simp [new]

@[simp] theorem write_get_self : (o.write p w).get p = some w := by simp [write]

theorem new_get_other {q : Nat} (h : q ≠ o.next) : (o.new w).get q = o.get q := by
  simp [new, Function.update_of_ne h]

theorem write_get_other {q : Nat} (h : q ≠ p) : (o.write p w).get q = o.get q := by
  simp [write, Function.update_of_ne h]

end Objects

/-- What a user function leaves: what it has seen, the answer it returns, and its
stack object. -/
structure UserResult (α H : Type) where
  seen : α
  result : Bool
  stack : H

/-- What a to-string method leaves: the answer, and the text in the buffer. -/
structure TextResult (α : Type) where
  seen : α
  result : Bool
  buffer : Bytes

/-- The text of an object whose class has no to-string method. -/
def classText (desc : ClassDesc) : Bytes := cstr "[" ++ desc.name ++ cstr "]"

/-! ## Threads -/

/-- A context with all the threads of its VM, by the frame each is running, and the
wrappers of the host. -/
structure VmState (Fr W : Type) where
  frame : Nat → Fr
  world : W
  objects : Objects

/-- The context's own thread: `LuaScriptContext::L`, `SquirrelScriptContext::m_vm`. -/
def mainThread : Nat := 0

/-- A context `C` of a backend is the frame of one thread and everything that the
threads share. -/
structure FrameView (C Fr W : Type) where
  make : Fr → W → C
  frame : C → Fr
  world : C → W
  frame_make : ∀ f w, frame (make f w) = f
  world_make : ∀ f w, world (make f w) = w
  make_eta : ∀ c, make (frame c) (world c) = c

abbrev VmM (Fr W : Type) := StateT (VmState Fr W) (Except Fault)

section Threads

variable {C Fr W α : Type} (v : FrameView C Fr W)

/-- The thread `L` runs the frame `f`. -/
def VmState.setFrame (s : VmState Fr W) (L : Nat) (f : Fr) : VmState Fr W :=
  { s with frame := Function.update s.frame L f }

/-- The context as it is seen through the thread `L`. -/
def VmState.context (s : VmState Fr W) (L : Nat) : C := v.make (s.frame L) s.world

def VmState.setContext (s : VmState Fr W) (L : Nat) (c : C) : VmState Fr W :=
  { s with frame := Function.update s.frame L (v.frame c), world := v.world c }

/-- Calls of the VM's API on the thread `L`. -/
def onThread (L : Nat) (m : StateT C (Except Fault) α) : VmM Fr W α := fun s =>
  match m (s.context v L) with
  | .ok (a, c) => .ok (a, s.setContext v L c)
  | .error f => .error f

/-- Code that works on the wrappers. -/
def onObjects (f : Objects → Except Fault (α × Objects)) : VmM Fr W α := fun s =>
  match f s.objects with
  | .ok (a, objects) => .ok (a, { s with objects })
  | .error e => .error e

/-- A change of the wrappers. -/
def changeObjects (f : Objects → Except Fault Objects) : VmM Fr W Unit := onObjects fun o => (f o).map ((), ·)

/-- A wrapper through a pointer to it. -/
def readObject (p : Nat) : VmM Fr W ScriptObject := onObjects fun o => (o.read p).map (·, o)

def vmAssert (cond : Bool) (text : String) : VmM Fr W Unit := fun s =>
  (multiScriptAssert cond text).map fun _ => ((), s)

variable {v} {s : VmState Fr W} {L : Nat}

theorem onThread_ok {m : StateT C (Except Fault) α} {a : α} {c : C} (h : m (s.context v L) = .ok (a, c)) :
    onThread v L m s = .ok (a, s.setContext v L c) := by simp only [onThread, h]

theorem onThread_error {m : StateT C (Except Fault) α} {f : Fault} (h : m (s.context v L) = .error f) :
    onThread v L m s = .error f := by simp only [onThread, h]

/-- An API call that returns has changed the frame of its thread, and what is shared. -/
theorem onThread_inv {m : StateT C (Except Fault) α} {r : α × VmState Fr W} (h : onThread v L m s = .ok r) :
    ∃ c, m (s.context v L) = .ok (r.1, c) ∧ r.2 = s.setContext v L c := by
  unfold onThread at h
  cases hm : m (s.context v L) with
  | error f =>
    rw [hm] at h
    cases h
  | ok q =>
    rw [hm] at h
    cases h
    exact ⟨q.2, rfl, rfl⟩

theorem onThread_ends {m : StateT C (Except Fault) α} {Q : α → C → Prop} {E : Fault → Prop}
    (h : Act.Ends m (s.context v L) Q E) :
    Act.Ends (onThread v L m) s (fun a s' => ∃ c, Q a c ∧ s' = s.setContext v L c) E := by
  unfold Act.Ends at h ⊢
  unfold onThread
  cases hm : m (s.context v L) with
  | error f =>
    rw [hm] at h
    exact h
  | ok r =>
    rw [hm] at h
    exact ⟨r.2, h, rfl⟩

@[simp] theorem setContext_context (c : C) : (s.setContext v L c).context v L = c := by
  simp [VmState.setContext, VmState.context, v.make_eta]

theorem setContext_other {L' : Nat} (h : L' ≠ L) (c : C) : (s.setContext v L c).frame L' = s.frame L' := by
  simp [VmState.setContext, Function.update_of_ne h]

@[simp] theorem setContext_objects (c : C) : (s.setContext v L c).objects = s.objects := rfl

/-- An API call that changes nothing. -/
@[simp] theorem setContext_self : s.setContext v L (s.context v L) = s := by
  simp [VmState.setContext, VmState.context, v.frame_make, v.world_make]

@[simp] theorem setFrame_self (f : Fr) : (s.setFrame L f).frame L = f := by simp [VmState.setFrame]

theorem setFrame_other {L' : Nat} (h : L' ≠ L) (f : Fr) : (s.setFrame L f).frame L' = s.frame L' := by
  simp [VmState.setFrame, Function.update_of_ne h]

@[simp] theorem setFrame_world (f : Fr) : (s.setFrame L f).world = s.world := rfl

@[simp] theorem setFrame_objects (f : Fr) : (s.setFrame L f).objects = s.objects := rfl

/-- A call that has changed nothing but the frame of its own thread and the world. -/
theorem setFrame_back {s' : VmState Fr W} (hf : ∀ L', L' ≠ L → s'.frame L' = s.frame L')
    (ho : s'.objects = s.objects) : s'.setFrame L (s.frame L) = { s with world := s'.world } := by
  have hframe : Function.update s'.frame L (s.frame L) = s.frame := by
    funext L'
    by_cases he : L' = L
    · subst he
      simp
    · rw [Function.update_of_ne he, hf L' he]
  rw [VmState.setFrame, hframe, ho]

theorem readObject_ok {p : Nat} {w : ScriptObject} (h : s.objects.get p = some w) : readObject p s = .ok (w, s) := by
  simp [readObject, onObjects, Objects.read_some h, Except.map]

theorem vmAssert_decides {cond : Bool} {text : String} {E : Fault → Prop} (h : cond = false → E (.assertion text)) :
    Act.Ends (vmAssert cond text) s (fun _ s' => cond = true ∧ s' = s) E := by
  cases cond with
  | true => exact .of_ok rfl ⟨rfl, rfl⟩
  | false => exact h rfl

theorem vmAssert_ends {cond : Bool} {text : String} {E : Fault → Prop} (h : E (.assertion text)) :
    Act.Ends (vmAssert cond text) s (fun _ s' => cond = true ∧ s' = s) E := vmAssert_decides fun _ => h

theorem vmAssert_inv {cond : Bool} {text : String} {s' : VmState Fr W} (h : vmAssert cond text s = .ok ((), s')) :
    cond = true ∧ s' = s := by
  cases cond with
  | true =>
    cases h
    exact ⟨rfl, rfl⟩
  | false => cases h

@[simp] theorem vmAssert_true (text : String) : vmAssert true text s = .ok ((), s) := rfl

end Threads

end MultiScript
