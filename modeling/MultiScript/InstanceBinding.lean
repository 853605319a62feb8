/-
Instances of registered classes in Squirrel, over whole runs of a script. A constructor
binds its wrapper to what is on top of the stack when the user returns, and that is the
instance only where the user has popped all the arguments. An instance that comes into
being without a constructor is not bound at all: a clone is not, and one that
`PushNewScriptObject` makes has neither class nor hook.
-/
import MultiScript.Lifetime.Squirrel
import MultiScript.WrapperLifetime

namespace MultiScript.Lifetime

/-- A step that makes no value and gives no wrapper away. -/
def Label.Quiet : Label → Prop
  | .construct => False
  | .constructed _ _ => False
  | .pushNew _ _ => False
  | _ => True

/-- The wrappers that are still there know the classes they knew. -/
def SameClasses (o o' : Objects) : Prop :=
  ∀ p w w', o.get p = some w → o'.get p = some w' → w'.classInfo = w.classInfo

namespace SameClasses

variable {o : Objects} {p : Nat} {w w' : ScriptObject}

theorem refl (o : Objects) : SameClasses o o := by
  intro p w w' hw hw'
  obtain rfl : w = w' := Option.some.inj (hw.symm.trans hw')
  rfl

theorem write (hp : o.get p = some w) (hw : w'.classInfo = w.classInfo) : SameClasses o (o.write p w') := by
  intro q v v' hv hv'
  by_cases hq : q = p
  · subst hq
    obtain rfl : w = v := Option.some.inj (hp.symm.trans hv)
    obtain rfl : w' = v' := Option.some.inj (Objects.write_get_self.symm.trans hv')
    exact hw
  · rw [Objects.write_get_other hq] at hv'
    exact refl o q v v' hv hv'

theorem without (p : Nat) : SameClasses o (without o p) := by
  intro q v v' hv hv'
  by_cases hq : q = p
  · subst hq
    rw [without_get_self] at hv'
    cases hv'
  · rw [without_get_other hq] at hv'
    exact refl o q v v' hv hv'

end SameClasses

/-- What values point to is what it was, and so is what a constructor works on. -/
structure Untouched (s s' : Life) : Prop where
  next : s.next ≤ s'.next
  bound : s'.bound = s.bound
  classes : SameClasses s.objects s'.objects
  constructing : ∀ p desc inst, .constructing p desc inst ∈ s'.running ↔ .constructing p desc inst ∈ s.running
  finalised : ∀ v, s'.finalised v = false → s.finalised v = false

section Untouched

variable {s s' : Life} {l : Label} {o : Option Mark}

theorem mem_after {a : Activity} {rest running : List Activity} (hr : running = a :: rest) {p : Nat} {desc : ClassDesc}
    {inst : Option Nat} (hne : a ≠ .constructing p desc inst) :
    .constructing p desc inst ∈ rest ↔ .constructing p desc inst ∈ running := by
  rw [hr, List.mem_cons]
  exact ⟨.inr, fun h => h.resolve_left (Ne.symm hne)⟩

theorem Step.untouched (hs : Step l s o s') (hl : l.Quiet) : Untouched s s' := by
  cases hs with
  | other hn => exact ⟨hn, rfl, .refl _, fun _ _ _ => Iff.rfl, fun _ h => h⟩
  | constructLate => exact hl.elim
  | constructEarly => exact hl.elim
  | assign hp => exact ⟨Nat.le_refl _, rfl, .write hp rfl, fun _ _ _ => Iff.rfl, fun _ h => h⟩
  | constructed => exact hl.elim
  | pushNew => exact hl.elim
  | call => exact ⟨Nat.le_refl _, rfl, .refl _, fun _ _ _ => Iff.rfl, fun _ h => h⟩
  | silent => exact ⟨Nat.le_refl _, rfl, .refl _, fun _ _ _ => Iff.rfl, fun _ h => h⟩
  | destroy hv hp => exact ⟨Nat.le_refl _, rfl, .write hp rfl, fun _ _ _ => (mem_after rfl (by simp)).symm,
      fun _ h => h⟩
  | destroyed hr hp => exact ⟨Nat.le_refl _, rfl, .write hp rfl, fun _ _ _ => mem_after hr (by simp), fun _ h => h⟩
  | finaliseUnhooked hv => exact ⟨Nat.le_refl _, rfl, .refl _, fun _ _ _ => Iff.rfl, fun _ => unfinalised⟩
  | finaliseDelete => exact ⟨Nat.le_refl _, rfl, .without _, fun _ _ _ => Iff.rfl, fun _ => unfinalised⟩
  | finaliseCollect hn hv hp =>
    exact ⟨Nat.le_refl _, rfl, .write hp rfl, fun _ _ _ => (mem_after rfl (by simp)).symm, fun _ => unfinalised⟩
  | finalised hr hp => exact ⟨Nat.le_refl _, rfl, .without _, fun _ _ _ => mem_after hr (by simp), fun _ h => h⟩
  | releaseLocked => exact ⟨Nat.le_refl _, rfl, .refl _, fun _ _ _ => Iff.rfl, fun _ h => h⟩
  | releaseUnused => exact ⟨Nat.le_refl _, rfl, .without _, fun _ _ _ => Iff.rfl, fun _ h => h⟩

end Untouched

end MultiScript.Lifetime

namespace MultiScript.Squirrel

open Act Run Lifetime

/-! ## How instances come into being -/

/-- `SQInstance::Clone`: the class is taken over, the user pointer and the hook are not. -/
def SqHeap.cloneInstance (h : SqHeap) (i : Nat) : SqHeap :=
  { h with
    next := h.next + 1
    instances := fun j =>
      if j = h.next then { userpointer := none, sqclass := (h.instances i).sqclass, hook := false } else h.instances j }

/-- The registered class whose constructor a class has. -/
def SqHeap.constructs (h : SqHeap) (q : Nat) : Option ClassDesc :=
  match h.memberOf q (cstr "constructor") with
  | some (.nativeclosure r) =>
    match h.native r with
    | .backend .classConstructorCallback [.userpointer (.classInfo desc)] => some desc
    | _ => none
  | _ => none

/-- The registered class that a class is, or extends. -/
def SqHeap.registeredBase (h : SqHeap) (q : Nat) : Option ClassDesc := (h.ancestors (q + 1) q).findSome? h.constructs

/-- What happens in a script. `extend` makes an instance of a class of the script that has a
constructor of its own, which runs until `extended`. -/
inductive SqEvent
  | op (e : Op SqFrame SqWorld SqCall SquirrelScriptStack)
  | clone (i : Nat)
  | extend (q : Nat)
  | extended (i : Nat)

/-- A script and its instances. `kind` is the registered class of an instance, `own` says
that its own constructor is running, and `based` that the one of the registered class has
returned. -/
structure Instances where
  script : Script SqFrame SqWorld SqCall
  kind : Nat → Option ClassDesc
  own : Nat → Bool
  based : Nat → Bool

namespace Instances

def start (frame : Nat → SqFrame) (world : SqWorld) : Instances where
  script := .start frame world
  kind _ := none
  own _ := false
  based _ := false

/-- The heap has changed. -/
def setHeap (s : Instances) (heap : SqHeap) : Script SqFrame SqWorld SqCall :=
  { s.script with vm := { s.script.vm with world := { s.script.vm.world with heap } } }

def heap (s : Instances) : SqHeap := s.script.vm.world.heap

/-- The next instance is made. -/
def create (s : Instances) (script : Script SqFrame SqWorld SqCall) (kind : Option ClassDesc) (own : Bool) :
    Instances where
  script
  kind := Function.update s.kind s.heap.next kind
  own := Function.update s.own s.heap.next own
  based := Function.update s.based s.heap.next false

section Create

variable {s : Instances} {script : Script SqFrame SqWorld SqCall} {kind : Option ClassDesc} {own : Bool} {i : Nat}

theorem create_kind_self : (s.create script kind own).kind s.heap.next = kind := Function.update_self ..

theorem create_kind_other (h : i ≠ s.heap.next) : (s.create script kind own).kind i = s.kind i :=
  Function.update_of_ne h ..

theorem create_own_self : (s.create script kind own).own s.heap.next = own := Function.update_self ..

theorem create_own_other (h : i ≠ s.heap.next) : (s.create script kind own).own i = s.own i :=
  Function.update_of_ne h ..

theorem create_based_self : (s.create script kind own).based s.heap.next = false := Function.update_self ..

theorem create_based_other (h : i ≠ s.heap.next) : (s.create script kind own).based i = s.based i :=
  Function.update_of_ne h ..

theorem create_disown {script' : Script SqFrame SqWorld SqCall} :
    { s.create script kind true with
      script := script', own := Function.update (s.create script kind true).own s.heap.next false }
      = s.create script' kind false := by
  simp only [create, Function.update_idem]

end Create

/-- What an operation means for the instances. -/
def after (s : Instances) (script : Script SqFrame SqWorld SqCall) :
    Op SqFrame SqWorld SqCall SquirrelScriptStack → Instances
  | .construct k =>
    match k.sqclass with
    | some _ => s.create script (outerClass k.outervalues) false
    | none => { s with script }
  | .ret _ =>
    match s.script.running with
    | (.constructing _ _ (some i), _, _) :: _ => { s with script, based := Function.update s.based i true }
    | _ => { s with script }
  | .pushNew _ desc _ =>
    { s with
      script
      kind := Function.update s.kind (script.vm.world.heap.next - 1) (some desc)
      own := Function.update s.own (script.vm.world.heap.next - 1) false }
  | _ => { s with script }

variable (vm : SqVm)

def step : SqEvent → Instances → Except Fault (Option Mark × Instances)
  | .op e, s => ((squirrelWrappers vm).step e s.script).map fun r => (r.1, s.after r.2 e)
  | .clone i, s => .ok (none, s.create (s.setHeap (s.heap.cloneInstance i)) (s.kind i) false)
  | .extend q, s => .ok (none, s.create (s.setHeap (s.heap.createInstance q)) (s.heap.registeredBase q) true)
  | .extended i, s => .ok (none, { s with own := Function.update s.own i false })

def machine : Machine Instances SqEvent (Option Mark) Fault where
  step := step vm

/-- No constructor of the instance is running. -/
def Complete (s : Instances) (i : Nat) : Prop :=
  s.own i = false ∧ ∀ p desc, .constructing p desc (some i) ∉ s.script.running.map (·.1)

/-- The instance has a wrapper of its own, of its class, and the hook. -/
structure Bound (s : Instances) (i : Nat) (desc : ClassDesc) (p : Nat) (w : ScriptObject) : Prop where
  userpointer : (s.heap.instances i).userpointer = some p
  wrapper : s.script.vm.objects.get p = some w
  classInfo : w.classInfo = some desc
  unshared : ∀ j, s.script.finalised j = false → (s.heap.instances j).userpointer = some p → j = i
  hook : (s.heap.instances i).hook = true

/-- The end of the instance is the end of the wrapper, after its destructor where the class is
collected and the object has not been destroyed. -/
def Released (s : Instances) (i : Nat) (desc : ClassDesc) (p : Nat) (w : ScriptObject) : Prop :=
  ∀ k, if desc.garbageCollect && w.objectPtr.isSome then
      ∃ s', step vm (.op (.finalise k i)) s = .ok (some (.called .collect desc p w.objectPtr), s') ∧
        ∀ st, ∃ s'', step vm (.op (.ret st)) s' = .ok (some (.deleted p), s'')
    else ∃ s', step vm (.op (.finalise k i)) s = .ok (some (.deleted p), s')

/-- The constructors of registered classes are called on what they are for and pop their
arguments, so that the instance is on top when they return; and `PushNewScriptObject` is
not called. Nothing but the backend sets a release hook. -/
def KeepsOp (s : Instances) : Op SqFrame SqWorld SqCall SquirrelScriptStack → Prop
  | .construct k => k.sqclass = none → ∀ i, k.target s.script.vm.world = some i → i < s.heap.next ∧
      ∀ desc, s.kind i = some desc → outerClass k.outervalues = some desc
  | .ret _ => ∀ p desc inst k caller rest, s.script.running = (.constructing p desc inst, k, caller) :: rest →
      (∀ i, inst = some i → s.kind i ≠ none → s.based i = false → topInstance s.script.vm k.thread = some i) ∧
      (∀ i, topInstance s.script.vm k.thread = some i → s.kind i ≠ none → inst = some i)
  | .pushNew _ _ _ => False
  | .other _ world => ∀ i, (world.heap.instances i).hook = (s.heap.instances i).hook
  | _ => True

/-- No instance of a registered class is cloned, and the constructors of the classes that
extend one call the one they extend. -/
def Keeps (s : Instances) : SqEvent → Prop
  | .op e => (squirrelWrappers vm).Allowed e s.script ∧ s.KeepsOp e
  | .clone i => s.kind i = none
  | .extend _ => True
  | .extended i => s.kind i ≠ none → s.based i = true

/-! ## What holds over a run -/

/-- The pointers and the hooks go together; a wrapper that an instance points to, or that is
meant for it, knows the class of the instance; and the constructor of the registered
class has been called by the time an instance is complete. -/
structure Inv (s : Instances) : Prop where
  sound : Sound ((squirrelWrappers vm).life s.script)
  there : ∀ i desc, s.kind i = some desc → i < s.heap.next
  hooked : ∀ i p, (s.heap.instances i).userpointer = some p → (s.heap.instances i).hook = true
  classed : ∀ i p desc w, s.kind i = some desc → (s.heap.instances i).userpointer = some p →
  s.script.finalised i = false →
    s.script.vm.objects.get p = some w → w.classInfo = some desc
  building : ∀ p desc inst, .constructing p desc inst ∈ s.script.running.map (·.1) →
    (∀ w, s.script.vm.objects.get p = some w → w.classInfo = some desc) ∧
    ∀ i, inst = some i → i < s.heap.next ∧ ∀ d, s.kind i = some d → d = desc
  bound : ∀ i desc, s.kind i = some desc → s.script.finalised i = false → s.based i = true →
    (s.heap.instances i).userpointer ≠ none
  complete : ∀ i desc, s.kind i = some desc → s.script.finalised i = false → s.Complete i → s.based i = true

variable {vm} {s : Instances} {script : Script SqFrame SqWorld SqCall}

/-- A step that makes no instance and gives no wrapper away. -/
theorem Inv.kept (h : Inv vm s) (hs : Sound ((squirrelWrappers vm).life script))
    (hk : Untouched ((squirrelWrappers vm).life s.script) ((squirrelWrappers vm).life script))
    (hh : ∀ i, (script.vm.world.heap.instances i).hook = (s.heap.instances i).hook) : Inv vm { s with script } := by
  have hup : ∀ i, (script.vm.world.heap.instances i).userpointer = (s.heap.instances i).userpointer :=
    fun i => congrFun hk.bound i
  refine ⟨hs, fun i desc hkind => ?_, fun i p hp => ?_, fun i p desc w hkind hp hf hw => ?_, fun p desc inst hmem => ?_,
    fun i desc hkind hf hb => ?_, fun i desc hkind hf hc => ?_⟩
  · exact Nat.lt_of_lt_of_le (h.there i desc hkind) hk.next
  · exact (hh i).trans (h.hooked i p ((hup i).symm.trans hp))
  · have hp' := (hup i).symm.trans hp
    have hf' := hk.finalised i hf
    obtain ⟨w₀, hw₀⟩ := h.sound.alive i p ⟨hp', hf'⟩
    exact (hk.classes p w₀ w hw₀ hw).trans (h.classed i p desc w₀ hkind hp' hf' hw₀)
  · have hmem' := (hk.constructing p desc inst).mp hmem
    obtain ⟨hclass, hinst⟩ := h.building p desc inst hmem'
    refine ⟨fun w hw => ?_, fun i hi => ⟨Nat.lt_of_lt_of_le (hinst i hi).1 hk.next, (hinst i hi).2⟩⟩
    obtain ⟨w₀, hw₀⟩ := h.sound.inUse _ hmem'
    exact (hk.classes p w₀ w hw₀ hw).trans (hclass w₀ hw₀)
  · exact fun hnone => h.bound i desc hkind (hk.finalised i hf) hb ((hup i).symm.trans hnone)
  · exact h.complete i desc hkind (hk.finalised i hf)
      ⟨hc.1, fun p d hmem => hc.2 p d ((hk.constructing p d _).mpr hmem)⟩

/-- A new instance, whose constructor is still to come, or that is of no registered class. -/
theorem Inv.create (h : Inv vm s) {heap : SqHeap} {kind : Option ClassDesc} {own : Bool} {x : SqInstance}
    (hnext : heap.next = s.heap.next + 1) (hx : x.userpointer = none)
    (hinst : heap.instances = fun j => if j = s.heap.next then x else s.heap.instances j)
    (hown : kind ≠ none → own = true) : Inv vm (s.create (s.setHeap heap) kind own) := by
  have hunborn := (h.sound.unborn s.heap.next (Nat.le_refl _)).1
  have hup : ∀ i, (heap.instances i).userpointer = (s.heap.instances i).userpointer := by
    intro i
    rw [hinst]
    by_cases hi : i = s.heap.next
    · subst hi
      simp only [if_pos]
      exact hx.trans hunborn.symm
    · simp only [if_neg hi]
  have hother : ∀ i p, (s.heap.instances i).userpointer = some p → i ≠ s.heap.next := by
    rintro i p hp rfl
    rw [show (s.heap.instances s.heap.next).userpointer = none from hunborn] at hp
    cases hp
  have hlife : Sound ((squirrelWrappers vm).life (s.setHeap heap)) := by
    have hle : s.heap.next ≤ heap.next := by
      rw [hnext]
      exact Nat.le_succ _
    have hgrow := @Sound.grow _ heap.next h.sound hle
    have heq : (squirrelWrappers vm).life (s.setHeap heap) =
      { (squirrelWrappers vm).life s.script with next := heap.next } := by
      have hbound : (squirrelWrappers vm).bound (s.setHeap heap).vm.world =
        (squirrelWrappers vm).bound s.script.vm.world :=
        funext hup
      simp only [Backend.life, hbound]
      rfl
    rw [heq]
    exact hgrow
  refine ⟨hlife, fun i desc hkind => ?_, fun i p hp => ?_, fun i p desc w hkind hp hf hw => ?_,
    fun p desc inst hmem => ?_,
    fun i desc hkind hf hb => ?_, fun i desc hkind hf hc => ?_⟩
  · show i < heap.next
    by_cases hi : i = s.heap.next
    · omega
    · rw [create_kind_other hi] at hkind
      have hlt := h.there i desc hkind
      omega
  · have hp' : (s.heap.instances i).userpointer = some p := (hup i).symm.trans hp
    show (heap.instances i).hook = true
    rw [hinst]
    simp only [if_neg (hother i p hp')]
    exact h.hooked i p hp'
  · have hp' : (s.heap.instances i).userpointer = some p := (hup i).symm.trans hp
    rw [create_kind_other (hother i p hp')] at hkind
    exact h.classed i p desc w hkind hp' hf hw
  · obtain ⟨hclass, hto⟩ := h.building p desc inst hmem
    refine ⟨hclass, fun i hi => ?_⟩
    obtain ⟨hlt, hd⟩ := hto i hi
    refine ⟨?_, fun d hkind => hd d ?_⟩
    · show i < heap.next
      omega
    · rwa [create_kind_other (Nat.ne_of_lt hlt)] at hkind
  · have hi : i ≠ s.heap.next := by
      rintro rfl
      rw [create_based_self] at hb
      cases hb
    rw [create_kind_other hi] at hkind
    rw [create_based_other hi] at hb
    exact fun hnone => h.bound i desc hkind hf hb ((hup i).symm.trans hnone)
  · by_cases hi : i = s.heap.next
    · subst hi
      have howned := hc.1
      rw [create_kind_self] at hkind
      rw [create_own_self, hown (by rw [hkind]; simp)] at howned
      cases howned
    · rw [create_kind_other hi] at hkind
      rw [create_based_other hi]
      exact h.complete i desc hkind hf ⟨(create_own_other hi).symm.trans hc.1, hc.2⟩

/-- A constructor starts with a new wrapper of its class. -/
theorem Inv.push (h : Inv vm s) {desc : ClassDesc} {inst : Option Nat} (hs : Sound ((squirrelWrappers vm).life script))
    (ho : script.vm.objects = s.script.vm.objects.new { classInfo := some desc })
    (hheap : script.vm.world.heap = s.heap)
    (hf : script.finalised = s.script.finalised)
    (hr : script.running.map (·.1) = .constructing s.script.vm.objects.next desc inst :: s.script.running.map (·.1))
    (hi : ∀ i, inst = some i → i < s.heap.next ∧ ∀ d, s.kind i = some d → d = desc) : Inv vm { s with script } := by
  have hold : ∀ p w w', s.script.vm.objects.get p = some w → script.vm.objects.get p = some w' → w' = w := by
    intro p w w' hw hw'
    have hlt : p < s.script.vm.objects.next := h.sound.lt_next hw
    rw [ho, Objects.new_get_other (Nat.ne_of_lt hlt)] at hw'
    exact Option.some.inj (hw'.symm.trans hw)
  have hheap' : Instances.heap { s with script } = s.heap := hheap
  refine ⟨hs, fun i d hkind => ?_, fun i p hp => ?_, fun i p d w hkind hp hfin hw => ?_, fun p d inst' hmem => ?_,
    fun i d hkind hfin hb => ?_, fun i d hkind hfin hc => ?_⟩
  · rw [hheap']
    exact h.there i d hkind
  · rw [hheap'] at hp ⊢
    exact h.hooked i p hp
  · rw [hheap'] at hp
    have hfin' : s.script.finalised i = false := by rw [← hf]; exact hfin
    obtain ⟨w₀, hw₀⟩ := h.sound.alive i p ⟨hp, hfin'⟩
    rw [hold p w₀ w hw₀ hw]
    exact h.classed i p d w₀ hkind hp hfin' hw₀
  · rw [hheap']
    have hmem' : .constructing p d inst' ∈ script.running.map (·.1) := hmem
    rw [hr] at hmem'
    rcases List.mem_cons.mp hmem' with heq | hmem
    · cases heq
      refine ⟨fun w hw => ?_, hi⟩
      have hw' : script.vm.objects.get s.script.vm.objects.next = some w := hw
      rw [ho, Objects.new_get_next] at hw'
      cases hw'
      rfl
    · obtain ⟨hclass, hto⟩ := h.building p d inst' hmem
      refine ⟨fun w hw => ?_, hto⟩
      obtain ⟨w₀, hw₀⟩ := h.sound.inUse _ hmem
      rw [hold p w₀ w hw₀ hw]
      exact hclass w₀ hw₀
  · rw [hheap']
    exact h.bound i d hkind (by rw [← hf]; exact hfin) hb
  · refine h.complete i d hkind (by rw [← hf]; exact hfin) ⟨hc.1, fun p d' hmem => hc.2 p d' ?_⟩
    show _ ∈ script.running.map (·.1)
    rw [hr]
    exact List.mem_cons_of_mem _ hmem

/-- The constructor that an instance has of its own is done, or is that of the registered class. -/
theorem Inv.disown (h : Inv vm s) {i : Nat}
    (hi : s.kind i ≠ none → s.based i = true ∨ ∃ p desc, .constructing p desc (some i) ∈ s.script.running.map (·.1)) :
    Inv vm { s with own := Function.update s.own i false } := by
  refine ⟨h.sound, h.there, h.hooked, h.classed, h.building, h.bound, fun j desc hkind hf hc => ?_⟩
  by_cases hj : j = i
  · subst hj
    rcases hi (by rw [hkind]; simp) with hbased | ⟨p, d, hmem⟩
    · exact hbased
    · exact absurd hmem (hc.2 p d)
  · have howned : Function.update s.own i false j = false := hc.1
    rw [Function.update_of_ne hj] at howned
    exact h.complete j desc hkind hf ⟨howned, hc.2⟩

theorem rebind_top {bound : Nat → Option Nat} {p v : Nat} : rebind bound p (some v) v = some p :=
  Function.update_self ..

theorem rebind_other {bound : Nat → Option Nat} {p v : Nat} {top : Option Nat} (h : top ≠ some v) :
    rebind bound p top v = bound v := by
  cases top with
  | none => rfl
  | some u => exact Function.update_of_ne (fun he => h (by rw [he])) ..

/-- A constructor is done, and its wrapper goes to the instance on top. -/
theorem Inv.constructed (h : Inv vm s) {p : Nat} {desc : ClassDesc} {inst top : Option Nat}
    {rest : List Activity} (hr : s.script.running.map (·.1) = .constructing p desc inst :: rest)
    (hs : Sound ((squirrelWrappers vm).life script)) (ho : script.vm.objects = s.script.vm.objects)
    (hf : script.finalised = s.script.finalised) (hrest : script.running.map (·.1) = rest)
    (hnext : s.heap.next ≤ script.vm.world.heap.next)
    (hup : ∀ v, (script.vm.world.heap.instances v).userpointer = rebind
      (fun v => (s.heap.instances v).userpointer) p top v)
    (hh : ∀ v, (script.vm.world.heap.instances v).hook = ((s.heap.instances v).hook || top == some v))
    (htop : ∀ i, inst = some i → s.kind i ≠ none → s.based i = false → top = some i)
    (hinst : ∀ i, top = some i → s.kind i ≠ none → inst = some i) :
    Inv vm { s with script, based := inst.elim s.based fun i => Function.update s.based i true } := by
  obtain ⟨hclass, hto⟩ := h.building p desc inst (by rw [hr]; exact List.mem_cons_self)
  have hsub : ∀ a ∈ script.running.map (·.1), a ∈ s.script.running.map (·.1) := by
    intro a ha
    rw [hrest] at ha
    rw [hr]
    exact List.mem_cons_of_mem _ ha
  have hlive : ∀ i, script.finalised i = false → s.script.finalised i = false := fun i hi => by rw [← hf]; exact hi
  refine ⟨hs, fun i d hkind => ?_, fun i q hq => ?_, fun i q d w hkind hq hfin hw => ?_, fun q d j hmem => ?_,
    fun i d hkind hfin hb => ?_, fun i d hkind hfin hc => ?_⟩
  · exact Nat.lt_of_lt_of_le (h.there i d hkind) hnext
  · have hq' := (hup i).symm.trans hq
    refine (hh i).trans ?_
    by_cases hi : top = some i
    · simp [hi]
    · rw [rebind_other hi] at hq'
      rw [h.hooked i q hq', Bool.true_or]
  · have hq' := (hup i).symm.trans hq
    have hw' : s.script.vm.objects.get q = some w := by rw [← ho]; exact hw
    by_cases hi : top = some i
    · subst hi
      rw [rebind_top] at hq'
      cases hq'
      have hown := hinst i rfl (by rw [show s.kind i = some d from hkind]; simp)
      rw [(hto i hown).2 d hkind]
      exact hclass w hw'
    · rw [rebind_other hi] at hq'
      exact h.classed i q d w hkind hq' (hlive i hfin) hw'
  · obtain ⟨hq, hj⟩ := h.building q d j (hsub _ hmem)
    refine ⟨fun w hw => hq w ?_, fun i hi => ⟨Nat.lt_of_lt_of_le (hj i hi).1 hnext, (hj i hi).2⟩⟩
    rw [← ho]
    exact hw
  · have hup' := hup i
    intro hnone
    have hnone' := hup'.symm.trans hnone
    by_cases hi : top = some i
    · subst hi
      rw [rebind_top] at hnone'
      cases hnone'
    · rw [rebind_other hi] at hnone'
      refine h.bound i d hkind (hlive i hfin) ?_ hnone'
      by_cases hown : inst = some i
      · by_contra hbased
        exact hi (htop i hown (by rw [show s.kind i = some d from hkind]; simp) (by simpa using hbased))
      · cases inst with
        | none => exact hb
        | some j =>
          have hb' : Function.update s.based j true i = true := hb
          rwa [Function.update_of_ne (fun he => hown (by rw [he]))] at hb'
  · by_cases hown : inst = some i
    · subst hown
      exact Function.update_self ..
    · have hc' : s.Complete i := by
        refine ⟨hc.1, fun q d' hmem => ?_⟩
        rw [hr] at hmem
        rcases List.mem_cons.mp hmem with heq | hmem
        · cases heq
          exact hown rfl
        · refine hc.2 q d' ?_
          show _ ∈ script.running.map (·.1)
          rw [hrest]
          exact hmem
      have hbased := h.complete i d hkind (hlive i hfin) hc'
      cases inst with
      | none => exact hbased
      | some j => exact (Function.update_of_ne (fun he => hown (by rw [he])) ..).trans hbased

/-! ## Steps -/

theorem perform_inv {α : Type} {t : Script SqFrame SqWorld SqCall} {m : SqS α}
    {k : α → SqState → Option Mark × Script SqFrame SqWorld SqCall} {r : Option Mark × Script SqFrame SqWorld SqCall}
    (h : t.perform m k = .ok r) : ∃ a t', m t.vm = .ok (a, t') ∧ r = k a t' := by
  unfold Script.perform at h
  cases hm : m t.vm with
  | error f =>
    rw [hm] at h
    cases h
  | ok x =>
    rw [hm] at h
    cases h
    exact ⟨x.1, x.2, rfl, rfl⟩

theorem onObjects_world {α : Type} {f : Objects → Except Fault (α × Objects)} {t t' : SqState} {a : α}
    (h : onObjects f t = .ok (a, t')) : t'.world = t.world := by
  unfold onObjects at h
  split at h
  · cases h
    rfl
  · cases h

/-- What is not a constructor comes back quietly. -/
theorem labelRet_quiet {t : Script SqFrame SqWorld SqCall}
    (h : ∀ p desc inst, (t.running.head?).map (·.1) ≠ some (.constructing p desc inst)) :
    ((squirrelWrappers vm).labelRet t).Quiet := by
  unfold Backend.labelRet
  rcases hr : t.running with _ | ⟨⟨a, k, caller⟩, rest⟩
  · trivial
  · cases a with
    | constructing p desc inst => exact absurd (by rw [hr]; rfl) (h p desc inst)
    | destroying p => trivial
    | finalising p => trivial

/-- A step that makes no instance and gives no wrapper away does nothing to the instances. -/
theorem quiet_world {e : Op SqFrame SqWorld SqCall SquirrelScriptStack} {t t' : Script SqFrame SqWorld SqCall}
    {o : Option Mark} (hs : Sound ((squirrelWrappers vm).life t)) (ha : (squirrelWrappers vm).Allowed e t)
    (hl : ((squirrelWrappers vm).label t e).Quiet) (h : (squirrelWrappers vm).step e t = .ok (o, t')) :
    t'.vm.world = t.vm.world ∨ ∃ frame world, e = .other frame world ∧ t'.vm.world = world := by
  cases e with
  | construct k => exact hl.elim
  | assign p x =>
    obtain ⟨a, vm', hm, heq⟩ := perform_inv h
    cases heq
    exact .inl (onObjects_world hm)
  | ret st =>
    have h' : (squirrelWrappers vm).ret st t = .ok (o, t') := h
    unfold Backend.ret at h'
    have hl' : ((squirrelWrappers vm).labelRet t).Quiet := hl
    unfold Backend.labelRet at hl'
    rcases hr : t.running with _ | ⟨⟨a, k, caller⟩, rest⟩
    · rw [hr] at h'
      cases h'
      exact .inl rfl
    · rw [hr] at h' hl'
      cases a with
      | constructing p desc inst => exact hl'.elim
      | destroying p =>
        obtain ⟨a, vm', hm, heq⟩ := perform_inv h'
        cases heq
        have hw : vm'.world = t.vm.world := onObjects_world hm
        exact .inl hw
      | finalising p =>
        obtain ⟨a, vm', hm, heq⟩ := perform_inv h'
        cases heq
        have hw : vm'.world = t.vm.world := onObjects_world hm
        exact .inl hw
  | pushNew k desc objectPtr => exact hl.elim
  | pushObject k p =>
    have herror : (squirrelWrappers vm).step (.pushObject k p) t = .error (.assertion "false") := rfl
    rw [herror] at h
    cases h
  | popObject k =>
    obtain ⟨a, vm', hm, heq⟩ := perform_inv h
    cases heq
    exact .inl (popObject_ends.ok hm).2
  | method k v =>
    obtain ⟨a, vm', hm, heq⟩ := perform_inv h
    cases heq
    exact .inl ((squirrelWrappers_lawful.method k v t.vm ha.fits (Backend.alive hs ha.possible)).ok hm).2.2
  | text k v =>
    obtain ⟨a, vm', hm, heq⟩ := perform_inv h
    cases heq
    exact .inl ((squirrelWrappers_lawful.text k v t.vm ha.fits (Backend.alive hs ha.possible)).ok hm).2.2
  | destroy k v =>
    obtain ⟨a, vm', hm, heq⟩ := perform_inv h
    cases heq
    exact .inl ((squirrelWrappers_lawful.destroy k v t.vm ha.fits (Backend.alive hs ha.possible)).ok hm).2
  | finalise k v =>
    obtain ⟨a, vm', hm, heq⟩ := perform_inv h
    have hw := ((squirrelWrappers_lawful.finalise k v t.vm ha.fits (Backend.alive hs ha.possible.2.1)).ok hm).2
    rcases a with _ | ⟨p, _ | m⟩
    · cases heq
      exact .inl hw
    · cases heq
      exact .inl hw
    · cases heq
      exact .inl hw
  | release p =>
    obtain ⟨a, vm', hm, heq⟩ := perform_inv h
    cases heq
    exact .inl (onObjects_world hm)
  | other frame world =>
    cases h
    exact .inr ⟨frame, world, rfl, rfl⟩

theorem Inv.quiet (h : Inv vm s) {e : Op SqFrame SqWorld SqCall SquirrelScriptStack} {o : Option Mark}
    (hk : s.Keeps vm (.op e)) (hl : ((squirrelWrappers vm).label s.script e).Quiet)
    (hstep : (squirrelWrappers vm).step e s.script = .ok (o, script)) : Inv vm { s with script } := by
  obtain ⟨hs, hsound⟩ := Backend.step_sound squirrelWrappers_lawful h.sound hk.1 hstep
  refine h.kept hsound (hs.untouched hl) fun i => ?_
  rcases quiet_world h.sound hk.1 hl hstep with hw | ⟨frame, world, rfl, hw⟩
  · rw [hw]
    rfl
  · rw [hw]
    exact hk.2 i

/-- An operation keeps what holds. -/
theorem Inv.op (h : Inv vm s) {e : Op SqFrame SqWorld SqCall SquirrelScriptStack} {o : Option Mark}
    (hk : s.Keeps vm (.op e)) (hstep : (squirrelWrappers vm).step e s.script = .ok (o, script)) :
    Inv vm (s.after script e) := by
  obtain ⟨-, hsound⟩ := Backend.step_sound squirrelWrappers_lawful h.sound hk.1 hstep
  cases e with
  | construct k =>
    obtain ⟨desc, ho⟩ := hk.1.fits
    obtain ⟨s', hrun, hobj, hsome, hnone⟩ := @construct_run s.script.vm k desc ho
    obtain ⟨a, vm', hm, heq⟩ := perform_inv hstep
    have hm' : k.construct s.script.vm = .ok (a, vm') := hm
    rw [hrun] at hm'
    cases hm'
    cases heq
    have hclass : outerClass k.outervalues = some desc := by
      rw [ho]
      rfl
    cases hq : k.sqclass with
    | none =>
      have htarget := hk.2 hq
      simp only [after, hq]
      refine h.push hsound hobj ?_ rfl rfl fun i hi => ?_
      · show s'.world.heap = s.heap
        rw [hnone hq]
        rfl
      · obtain ⟨hlt, hd⟩ := htarget i hi
        refine ⟨hlt, fun d hkind => ?_⟩
        have heq := hd d hkind
        rw [hclass] at heq
        exact (Option.some.inj heq).symm
    | some q =>
      have hcreate : Inv vm (s.create (s.setHeap (s.heap.createInstance q)) (some desc) true) :=
        h.create rfl rfl rfl fun _ => rfl
      have hinst : k.target s.script.vm.world = some s.heap.next := by
        simp only [SqCall.target, hq]
        rfl
      have hpush := hcreate.push hsound hobj ?_ rfl (by rw [hinst]; rfl) fun i hi => ?_
      · have hdone := hpush.disown (i := s.heap.next) fun _ => .inr ⟨s.script.vm.objects.next, desc, by
          rw [hinst]
          exact List.mem_cons_self⟩
        simp only [after, hq, hclass]
        rwa [create_disown] at hdone
      · show s'.world.heap = s.heap.createInstance q
        rw [hsome q hq]
        rfl
      · cases hi
        refine ⟨Nat.lt_succ_self _, fun d hkind => ?_⟩
        rw [create_kind_self] at hkind
        exact (Option.some.inj hkind).symm
  | ret st =>
    have hret : (squirrelWrappers vm).ret st s.script = .ok (o, script) := hstep
    unfold Backend.ret at hret
    rcases hr : s.script.running with _ | ⟨⟨a, k, caller⟩, rest⟩
    · simp only [after, hr]
      exact h.quiet hk (labelRet_quiet fun p desc inst hm => by rw [hr] at hm; cases hm) hstep
    · cases a with
      | destroying p =>
        simp only [after, hr]
        exact h.quiet hk (labelRet_quiet fun p desc inst hm => by rw [hr] at hm; cases hm) hstep
      | finalising p =>
        simp only [after, hr]
        exact h.quiet hk (labelRet_quiet fun p desc inst hm => by rw [hr] at hm; cases hm) hstep
      | constructing p desc inst =>
        rw [hr] at hret
        obtain ⟨a, vm', hm, heq⟩ := perform_inv hret
        cases heq
        have hrun : s.script.running.map (·.1) = .constructing p desc inst :: rest.map (·.1) := by rw [hr]; rfl
        obtain ⟨w, hw⟩ := h.sound.inUse (.constructing p desc inst) (by
          show _ ∈ s.script.running.map (·.1)
          rw [hrun]
          exact List.mem_cons_self)
        obtain ⟨hbinds, hhooks⟩ := (@constructed_ends vm s.script.vm k p desc st w hk.1.fits hw).ok hm
        obtain ⟨htop, hinst⟩ := hk.2 p desc inst k caller rest hr
        have hdone := h.constructed hrun hsound hbinds.objects rfl rfl hbinds.next
          (fun v => congrFun hbinds.bound v) hhooks
          htop hinst
        cases inst with
        | none =>
          simp only [after, hr]
          exact hdone
        | some i =>
          simp only [after, hr]
          exact hdone
  | pushNew k desc objectPtr => exact hk.2.elim
  | assign p x => exact h.quiet hk trivial hstep
  | pushObject k p => exact h.quiet hk trivial hstep
  | popObject k => exact h.quiet hk trivial hstep
  | method k v => exact h.quiet hk trivial hstep
  | text k v => exact h.quiet hk trivial hstep
  | destroy k v => exact h.quiet hk trivial hstep
  | finalise k v => exact h.quiet hk trivial hstep
  | release p => exact h.quiet hk trivial hstep
  | other frame world => exact h.quiet hk trivial hstep

/-- The finaliser of an instance that is bound. -/
theorem Bound.released {i p : Nat} {desc : ClassDesc} {w : ScriptObject} (h : s.Bound i desc p w) :
    s.Released vm i desc p w := by
  intro k
  have hup : (s.script.vm.world.heap.instances i).userpointer = some p := h.userpointer
  have hsame : ∀ q w', (s.script.vm.world.heap.instances i).userpointer = some q → s.script.vm.objects.get q = some w' →
      q = p ∧ w' = w := by
    intro q w' hq hw'
    obtain rfl : p = q := Option.some.inj (hup.symm.trans hq)
    exact ⟨rfl, Option.some.inj (hw'.symm.trans h.wrapper)⟩
  have halive : (squirrelWrappers vm).Alive i s.script.vm := by
    intro q hq
    obtain rfl : p = q := Option.some.inj (hup.symm.trans hq)
    exact ⟨w, h.wrapper⟩
  have hends := @finalise_ends vm s.script.vm i (fun _ => False) halive (fun hnone => ?_) fun q w' hq hw' _ hnone => ?_
  · have hcons : consults s.script.vm i = some desc := by
      have hhook : (s.script.vm.world.heap.instances i).hook = true := h.hook
      simp only [consults, hhook, if_true, hup, Option.bind_some, h.wrapper, h.classInfo]
    cases hm : finalise i s.script.vm with
    | error f => exact (hends.error hm).elim
    | ok r =>
      obtain ⟨r, vm'⟩ := r
      have hm' : (squirrelWrappers vm).finalise k i s.script.vm = .ok (r, vm') := hm
      obtain ⟨hfin, -⟩ := hends.ok hm
      cases hfin with
      | unhooked hnone =>
        rw [show (squirrelWrappers vm).consults s.script.vm i = consults s.script.vm i from rfl, hcons] at hnone
        cases hnone
      | @deleted q w' hq hw' hd ho =>
        obtain ⟨rfl, rfl⟩ := hsame q w' hq hw'
        have hno : (desc.garbageCollect && w'.objectPtr.isSome) = false := by
          rcases hd with hnone | ⟨d, hd, hgc⟩
          · simp [hnone]
          · obtain rfl : desc = d := Option.some.inj (hcons.symm.trans hd)
            simp [hgc]
        rw [if_neg (by simp [hno])]
        simp only [step, Backend.step, Script.perform, hm']
        exact ⟨_, rfl⟩
      | @collects q w' m hq hw' hseen hd hgc hptr ho =>
        obtain ⟨rfl, rfl⟩ := hsame q w' hq hw'
        obtain rfl : desc = m.desc := Option.some.inj (hcons.symm.trans hd)
        rw [if_pos (by simp [hgc, hptr])]
        have hmark : m.mark .collect = .called .collect m.desc q w'.objectPtr := by
          rw [hseen]
          rfl
        simp only [step, Backend.step, Script.perform, hm', hmark]
        refine ⟨_, rfl, fun st => ?_⟩
        have hlocked : vm'.objects.get q = some { w' with lockedByScript := true } := by
          rw [ho]
          exact Objects.write_get_self
        have hdelete : changeObjects (·.delete q) vm' = .ok ((), { vm' with objects := without vm'.objects q }) := by
          simp [changeObjects, onObjects, Objects.delete, hlocked, Except.map, without]
        simp only [after, Backend.ret, Script.perform, hdelete]
        exact ⟨_, rfl⟩
  · rw [hup] at hnone
    cases hnone
  · rw [(hsame q w' hq hw').2, h.classInfo] at hnone
    cases hnone

end Instances

open Instances

end MultiScript.Squirrel
