/-
Wrappers and instances. The user pointer of an instance is set at the end of its
constructor, on whatever instance is on top of the stack then. A finaliser is the
release hook, and goes by the class in the wrapper.
-/
import MultiScript.NewObjects
import MultiScript.Squirrel.Protocol
import MultiScript.Lifetime.Machine

namespace MultiScript.Squirrel

open Act Lifetime

/-- What a call of a native closure carries: `sqclass` is the class an instance is made of
first, and `this` what the closure is called on where none is. -/
structure SqCall where
  thread : Nat
  outervalues : List SqValue
  sqclass : Option Nat
  this : SqValue
  args : List SqValue
  stack : SquirrelScriptStack
  answer : Bool
  text : Bytes
deriving DecidableEq, Repr

section Operations

variable {α : Type} (vm : SqVm)

/-- In the frame of a call. -/
def inFrame (L : Nat) (outervalues : List SqValue) (this : SqValue) (args : List SqValue) (m : SqS α) :
    SqS α := fun s =>
  m (s.setFrame L {
    stack := outervalues.reverse ++ (args.reverse ++ this :: (s.frame L).stack)
    stackbase := (s.frame L).stack.length })

/-- The constructor of a class, on a new instance or on one that is there already. -/
def SqCall.construct (k : SqCall) : SqS (ClassDesc × Nat × Option Nat) := fun s =>
  let enter : SqS (ClassDesc × Nat) := do
    let e ← constructorEnter k.thread
    return (e.1, e.2.1)
  match k.sqclass with
  | some q =>
    let i := s.world.heap.next
    (inFrame k.thread k.outervalues (.sqinstance i) k.args enter
      { s with world := { s.world with heap := s.world.heap.createInstance q } }).map fun r =>
      ((r.1.1, r.1.2, some i), r.2)
  | none =>
    let inst := match k.this with
      | .sqinstance i => some i
      | _ => none
    (inFrame k.thread k.outervalues k.this k.args enter s).map fun r => ((r.1.1, r.1.2, inst), r.2)

def SqCall.constructed (k : SqCall) (_desc : ClassDesc) (p : Nat) (st : SquirrelScriptStack) : SqS Unit := do
  let _ ← constructorLeave k.thread p st

def SqCall.pushNew (k : SqCall) (desc : ClassDesc) (objectPtr : Option Nat) : SqS Nat := do
  let r ← k.stack.pushNewScriptObject vm desc objectPtr
  return r.1

def SqCall.pushObject (k : SqCall) (p : Nat) : SqS Unit := do
  let _ ← k.stack.pushScriptObject p

def SqCall.popObject (k : SqCall) : SqS (Option Nat) := do
  let r ← onThread sqView mainThread k.stack.popScriptObject
  return r.1

/-- The class in the outer value that is taken off first. -/
def outerClass (outervalues : List SqValue) : Option ClassDesc :=
  match outervalues.getLast? with
  | some (.userpointer (.classInfo desc)) => some desc
  | _ => none

/-- A call to the user's code, of the class in the outer values; a closure with no class
does not come to the user. -/
def SqCall.seen (k : SqCall) (p : Nat) : SqS Seen :=
  match outerClass k.outervalues with
  | some desc => watch desc p
  | none => fun _ => .error .wildDeref

def SqCall.method (k : SqCall) (v : Nat) : SqS Seen := do
  let r ← callNative k.thread k.outervalues (.sqinstance v) k.args
    (squirrelClassMethodCallback (fun _ p st => do return { seen := ← k.seen p, result := k.answer, stack := st })
      k.thread)
  return r.1

def SqCall.toText (k : SqCall) (v : Nat) : SqS (Option Seen) := do
  let r ← callNative k.thread k.outervalues (.sqinstance v) k.args
    (squirrelClassToStringMethodCallback
      (fun _ p => do return { seen := ← k.seen p, result := k.answer, buffer := k.text }) k.thread)
  return r.1

def SqCall.destroy (k : SqCall) (v : Nat) : SqS Seen :=
  inFrame k.thread k.outervalues (.sqinstance v) k.args do
    let e ← destructorEnter k.thread
    watch e.1 e.2

/-- `SQInstance::Release` calls the hook with the user pointer. -/
def finalise (v : Nat) : SqS (Option (Nat × Option Seen)) := fun s =>
  if (s.world.heap.instances v).hook then
    match (s.world.heap.instances v).userpointer with
    | none => .error .nullDeref
    | some p => (do
        let e ← gcEnter p
        match e.2 with
        | none => return some (e.1, none)
        | some desc => return some (e.1, some (← watch desc e.1))) s
  else .ok (none, s)

end Operations

/-- The class the finaliser of an instance goes by. -/
def consults (s : SqState) (v : Nat) : Option ClassDesc :=
  if (s.world.heap.instances v).hook then
    ((s.world.heap.instances v).userpointer.bind s.objects.get).bind (·.classInfo)
  else none

/-- The instance on top. -/
def topInstance (s : SqState) (L : Nat) : Option Nat :=
  match (s.context sqView L).at (-1) with
  | .sqinstance i => some i
  | _ => none

/-- The operations that scripts and hosts can make: the outer values are what registration
has made of them, what is on a stack is there, and the name of a class is found without
a metamethod. -/
def squirrelFits (vm : SqVm) : Op SqFrame SqWorld SqCall SquirrelScriptStack → SqState → Prop
  | .construct k, _ => ∃ desc, k.outervalues = [.userpointer (.classInfo desc)]
  | .ret _, s => ∀ L i, .sqinstance i ∈ (s.frame L).stack → i < s.world.heap.next
  | .pushNew _ desc _, _ => ∀ self w, (vm.get self (.string desc.name) w).2 = w
  | .method k _, _ => ∃ desc j, k.outervalues = [.integer (j : Nat), .userpointer (.classInfo desc)] ∧
      j < desc.methods.length
  | .text k _, _ => ∃ desc, k.outervalues = [.userpointer (.classInfo desc)]
  | .destroy k _, _ => ∃ desc, k.outervalues = [.userpointer (.classInfo desc)]
  | _, _ => True

def squirrelWrappers (vm : SqVm) : Backend SqFrame SqWorld SqCall SquirrelScriptStack where
  bound w v := (w.heap.instances v).userpointer
  next w := w.heap.next
  early := false
  tagged := false
  thread k := k.thread
  restore caller callee := { caller with stack := lowest caller.stack.length callee.stack }
  construct k := k.construct
  constructed k := k.constructed
  pushNew k := k.pushNew vm
  pushObject k := k.pushObject
  popObject k := k.popObject
  method k := k.method
  text k := k.toText
  destroy k := k.destroy
  finalise _ := finalise
  binds k s := topInstance s k.thread
  consults := consults
  classOf _ k _ _ := outerClass k.outervalues
  fits := squirrelFits vm

/-! ## What the code does -/

open Backend

variable {vm : SqVm} {s : SqState} {c : SquirrelScriptContext} {k : SqCall} {L v p : Nat} {desc : ClassDesc}
  {this : SqValue} {outervalues args rest : List SqValue}

/-- The frame of a call, over the caller's. -/
def called (s : SqState) (L : Nat) (outervalues : List SqValue) (this : SqValue) (args : List SqValue) : SqState :=
  s.setFrame L {
    stack := outervalues.reverse ++ (args.reverse ++ this :: (s.frame L).stack)
    stackbase := (s.frame L).stack.length }

theorem called_popClassInfo (ho : outervalues = rest ++ [.userpointer (.classInfo desc)]) :
    onThread sqView L popClassInfo (called s L outervalues this args) = .ok (desc, called s L rest this args) := by
  subst ho
  have hstack : ((called s L (rest ++ [.userpointer (.classInfo desc)]) this args).context sqView L).stack
      = .userpointer (.classInfo desc) :: (rest.reverse ++ (args.reverse ++ this :: (s.frame L).stack)) := by
    simp [called, VmState.context, sqView]
  rw [onThread_ok (popClassInfo_ok hstack)]
  simp [called, VmState.setContext, VmState.setFrame, VmState.context, sqView]

/-- The wrapper of the receiver, with its object in it. -/
theorem called_receiver {E : Fault → Prop} (ha : (squirrelWrappers vm).Alive v s)
    (hnull : (s.world.heap.instances v).userpointer = none → E .nullDeref)
    (hempty : (squirrelWrappers vm).Empty v s → E (.assertion "scriptObject->m_objectPtr")) :
    Ends (receiver L) (called s L [] (.sqinstance v) args) (fun p s' => s' = called s L [] (.sqinstance v) args ∧
      (s.world.heap.instances v).userpointer = some p ∧ ∃ w, s.objects.get p = some w ∧
      ¬ (squirrelWrappers vm).Empty v s)
      E := by
  have hstack : ((called s L [] (.sqinstance v) args).context sqView L).stack
      = args.reverse ++ .sqinstance v :: (s.frame L).stack := by
    simp [called, VmState.context, sqView]
  have hbase : ((called s L [] (.sqinstance v) args).context sqView L).stackbase = (s.frame L).stack.length := by
    simp [called, VmState.context, sqView]
  unfold receiver
  cases hu : (s.world.heap.instances v).userpointer with
  | none =>
    have herror : receiverUp ((called s L [] (.sqinstance v) args).context sqView L) = .error .nullDeref := by
      simp only [receiverUp, at_this hstack hbase]
      rw [show (((called s L [] (.sqinstance v) args).context sqView L).world.heap.instances v).userpointer =
        none from hu]
    unfold Ends
    rw [bind_error (onThread_error herror)]
    exact hnull hu
  | some p =>
    obtain ⟨w, hget⟩ := ha p hu
    refine Ends.seq (onThread_reads (receiverUp_ok hstack hbase hu)) ?_
    refine Ends.seq (readObject_ok hget) ?_
    refine (vmAssert_decides fun h => hempty ⟨p, w, hu, hget, by simpa using h⟩).bind ?_
    rintro _ _ ⟨hptr, rfl⟩
    exact .pure ⟨rfl, rfl, w, hget, not_empty hu hget hptr⟩

theorem callNative_ends {α : Type} {callback : SqS (α × Nat)} {Q : α → SqState → Prop} {E : Fault → Prop}
    (h : Ends callback (called s L outervalues this args) (fun r s' => Q r.1 s') E)
    (hQ : ∀ a s' fr, Q a s' → Q a (s'.setFrame L fr)) :
    Ends (callNative L outervalues this args callback) s (fun r s' => Q r.1 s') E := by
  unfold Ends at h ⊢
  simp only [callNative]
  cases hc : callback (called s L outervalues this args) with
  | error e =>
    rw [hc] at h
    rw [show callback (s.setFrame L _) = .error e from hc]
    exact h
  | ok x =>
    obtain ⟨⟨a, n⟩, s'⟩ := x
    rw [hc] at h
    rw [show callback (s.setFrame L _) = .ok ((a, n), s') from hc]
    exact hQ a s' _ h

/-- A call that leads to a callback of the user and changes nothing. -/
def Watched (vm : SqVm) (f : Lifetime.Callback) (k : SqCall) (v : Nat) (s : SqState) (m : Seen) (s' : SqState) : Prop :=
  (∃ w, (squirrelWrappers vm).Saw f k v s m w) ∧ s'.objects = s.objects ∧ s'.world = s.world

/-- The user's code is given the wrapper of the receiver. -/
theorem seen_watched {f : Lifetime.Callback} {s' : SqState} {w : ScriptObject}
    (hb : (s.world.heap.instances v).userpointer = some p)
    (hp : s.objects.get p = some w) (hd : outerClass k.outervalues = some desc) (ho : s'.objects = s.objects)
    (hw : s'.world = s.world) {E : Fault → Prop} : Ends (k.seen p) s' (fun m s'' => Watched vm f k v s m s'') E := by
  have heq : k.seen p = watch desc p := by simp only [SqCall.seen, hd]
  rw [heq]
  have hp' : s'.objects.get p = some w := by rw [ho, hp]
  exact .of_ok (watch_ok hp') ⟨⟨w, hb, hp, rfl, hd⟩, ho, hw⟩

theorem method_ends {E : Fault → Prop} (hf : squirrelFits vm (.method k v) s) (ha : (squirrelWrappers vm).Alive v s)
    (hnull : (s.world.heap.instances v).userpointer = none → E .nullDeref)
    (hempty : (squirrelWrappers vm).Empty v s → E (.assertion "scriptObject->m_objectPtr"))
    (hresult : k.answer = false → E (.assertion "result")) :
    Ends (k.method v) s (fun m s' => Watched vm .method k v s m s' ∧ ¬ (squirrelWrappers vm).Empty v s ∧
      k.answer = true)
      E := by
  obtain ⟨desc, j, houter, hlt⟩ := hf
  have hclass : outerClass k.outervalues = some desc := by
    rw [houter]
    rfl
  unfold SqCall.method
  refine Ends.bind
    (callNative_ends (Q := fun m s' => Watched vm .method k v s m s' ∧ ¬ (squirrelWrappers vm).Empty v s ∧
    k.answer = true) ?_ fun _ _ _ h => h) fun _ _ h => .pure h
  unfold squirrelClassMethodCallback
  have henter : Ends (methodEnter k.thread) (called s k.thread k.outervalues (.sqinstance v) k.args)
      (fun e s' => (s.world.heap.instances v).userpointer = some e.2.1 ∧
        (∃ w, s.objects.get e.2.1 = some w ∧ ¬ (squirrelWrappers vm).Empty v s) ∧ s'.objects = s.objects ∧
        s'.world = s.world) E := by
    unfold methodEnter
    rw [houter]
    refine Ends.seq (@called_popClassInfo _ _ _ _ _ _ [.integer j] rfl) ?_
    have hindex : onThread sqView k.thread popMethodIndex (called s k.thread [.integer j] (.sqinstance v) k.args)
        = .ok ((j : Int), called s k.thread [] (.sqinstance v) k.args) := by
      have hstack : ((called s k.thread [.integer j] (.sqinstance v) k.args).context sqView k.thread).stack
          = .integer j :: (k.args.reverse ++ .sqinstance v :: (s.frame k.thread).stack) := by
        simp [called, VmState.context, sqView]
      rw [onThread_ok (popMethodIndex_ok hstack)]
      simp [called, VmState.setContext, VmState.setFrame, VmState.context, sqView]
    refine Ends.seq hindex ?_
    refine (called_receiver ha hnull hempty).bind ?_
    rintro p _ ⟨rfl, hu, hw⟩
    refine Ends.seq newStack_ok ?_
    have hcode := @methodCode_ok ((called s k.thread [] (.sqinstance v) k.args).context sqView k.thread) j desc _
      (List.getElem?_eq_getElem hlt)
    refine Ends.seq (onThread_reads hcode) ?_
    exact .pure ⟨hu, hw, rfl, rfl⟩
  refine henter.bind ?_
  rintro ⟨code, p, st⟩ s₁ ⟨hu, ⟨w, hget, hfull⟩, ho, hw⟩
  refine Ends.bind (Q := fun u s' => Watched vm .method k v s u.seen s' ∧ u.result = k.answer)
    ((seen_watched hu hget hclass ho hw).bind fun _ _ h => .pure ⟨h, rfl⟩) ?_
  intro u s' hu
  rw [callbackLeave, hu.2]
  refine (vmAssert_decides hresult).bind ?_
  intro _ s'' hanswer
  obtain ⟨htrue, rfl⟩ := hanswer
  exact .pure ⟨hu.1, hfull, htrue⟩

/-- What a to-string call of the class leaves: the user was called exactly if the class has a
to-string method, and has answered true then. -/
def Texted (vm : SqVm) (desc : ClassDesc) (k : SqCall) (v : Nat) (s : SqState) (r : Option Seen)
    (s' : SqState) : Prop :=
  (∀ m, r = some m → (∃ w, (squirrelWrappers vm).Saw .text k v s m w) ∧ k.answer = true) ∧
    r.isSome = desc.toStringMethod.isSome ∧ s'.objects = s.objects ∧ s'.world = s.world

theorem toText_ends {E : Fault → Prop} (houter : k.outervalues = [.userpointer (.classInfo desc)])
    (ha : (squirrelWrappers vm).Alive v s) (hnull : (s.world.heap.instances v).userpointer = none → E .nullDeref)
    (hempty : (squirrelWrappers vm).Empty v s → E (.assertion "scriptObject->m_objectPtr"))
    (hresult : desc.toStringMethod.isSome = true → k.answer = false → E (.assertion "result")) :
    Ends (k.toText v) s (fun r s' => Texted vm desc k v s r s' ∧ ¬ (squirrelWrappers vm).Empty v s) E := by
  have hclass : outerClass k.outervalues = some desc := by
    rw [houter]
    rfl
  unfold SqCall.toText
  refine Ends.bind (callNative_ends (Q := fun r s' => Texted vm desc k v s r s' ∧ ¬ (squirrelWrappers vm).Empty v s) ?_
    fun _ _ _ h => h) fun _ _ h => .pure h
  unfold squirrelClassToStringMethodCallback
  have henter : Ends (toStringEnter k.thread) (called s k.thread k.outervalues (.sqinstance v) k.args)
      (fun e s' => e.1 = desc ∧ (s.world.heap.instances v).userpointer = some e.2 ∧
        (∃ w, s.objects.get e.2 = some w ∧ ¬ (squirrelWrappers vm).Empty v s) ∧ s'.objects = s.objects ∧
        s'.world = s.world) E := by
    unfold toStringEnter
    rw [houter]
    refine Ends.seq (@called_popClassInfo _ _ _ _ _ _ [] rfl) ?_
    refine (called_receiver ha hnull hempty).bind ?_
    rintro p _ ⟨rfl, hu, hw⟩
    exact .pure ⟨rfl, hu, hw, rfl, rfl⟩
  refine henter.bind ?_
  rintro ⟨d, p⟩ s₁ ⟨rfl, hu, ⟨w, hget, hfull⟩, ho, hw⟩
  cases hmethod : d.toStringMethod with
  | none =>
    refine Ends.seq (onThread_ok rfl) ?_
    exact .pure ⟨⟨fun m hm => (by cases hm), by rw [hmethod]; rfl, ho, hw⟩, hfull⟩
  | some code =>
    refine Ends.bind (Q := fun u s' => Watched vm .text k v s u.seen s' ∧ u.result = k.answer)
      ((seen_watched hu hget hclass ho hw).bind fun _ _ h => .pure ⟨h, rfl⟩) ?_
    rintro u s' ⟨⟨hsaw, ho', hw'⟩, hu⟩
    rw [hu]
    refine (vmAssert_decides fun h => hresult (by rw [hmethod]; rfl) h).bind ?_
    intro _ s'' hanswer
    obtain ⟨htrue, rfl⟩ := hanswer
    refine Ends.seq (onThread_ok rfl) ?_
    exact .pure ⟨⟨fun m hm => ⟨(Option.some.inj hm) ▸ hsaw, htrue⟩, by rw [hmethod]; rfl, ho', hw'⟩, hfull⟩

theorem destroy_ends {E : Fault → Prop} (hf : squirrelFits vm (.destroy k v) s) (ha : (squirrelWrappers vm).Alive v s)
    (hnull : (s.world.heap.instances v).userpointer = none → E .nullDeref)
    (hempty : (squirrelWrappers vm).Empty v s → E (.assertion "scriptObject->m_objectPtr")) :
    Ends (k.destroy v) s (fun m s' => ((∃ w, (squirrelWrappers vm).Saw .destroy k v s m w ∧
      s'.objects = s.objects.write m.scriptObject { w with lockedByScript := true }) ∧ s'.world = s.world) ∧
      ¬ (squirrelWrappers vm).Empty v s) E := by
  obtain ⟨desc, houter⟩ := hf
  have hclass : outerClass k.outervalues = some desc := by
    rw [houter]
    rfl
  unfold SqCall.destroy inFrame
  show Ends _ (called s k.thread k.outervalues (.sqinstance v) k.args) _ _
  have henter : Ends (destructorEnter k.thread) (called s k.thread k.outervalues (.sqinstance v) k.args)
      (fun e s' => e.1 = desc ∧ (s.world.heap.instances v).userpointer = some e.2 ∧ s'.world = s.world ∧
        (∃ w, s.objects.get e.2 = some w ∧ s'.objects = s.objects.write e.2 { w with lockedByScript := true }) ∧
        ¬ (squirrelWrappers vm).Empty v s) E := by
    unfold destructorEnter
    rw [houter]
    refine Ends.seq (@called_popClassInfo _ _ _ _ _ _ [] rfl) ?_
    refine (called_receiver ha hnull hempty).bind ?_
    rintro p _ ⟨rfl, hu, w, hget, hfull⟩
    refine (@lock_ends _ _ _ _ (called s k.thread [] (.sqinstance v) k.args) hget E).bind ?_
    rintro _ _ rfl
    exact .pure ⟨rfl, hu, rfl, ⟨w, hget, rfl⟩, hfull⟩
  refine henter.bind ?_
  rintro ⟨d, p⟩ s₁ ⟨rfl, hu, hw, ⟨w, hget, ho⟩, hfull⟩
  refine .of_ok (watch_ok (w := { w with lockedByScript := true }) ?_) ⟨⟨⟨w, ⟨hu, hget, rfl, hclass⟩, ho⟩, hw⟩, hfull⟩
  rw [ho]
  exact Objects.write_get_self

theorem gcEnter_ends {E : Fault → Prop} {w : ScriptObject} (hget : s.objects.get p = some w)
    (hclass : w.classInfo = none → E .uninitialised) :
    Ends (gcEnter p) s (fun e s' => e.1 = p ∧ s'.world = s.world ∧
      ((e.2 = none ∧ (w.objectPtr = none ∨ ∃ desc, w.classInfo = some desc ∧ desc.garbageCollect = false) ∧
          s'.objects = without s.objects p) ∨
       ∃ desc, e.2 = some desc ∧ w.classInfo = some desc ∧ w.objectPtr.isSome = true ∧ desc.garbageCollect = true ∧
         s'.objects = s.objects.write p { w with lockedByScript := true })) E := by
  unfold gcEnter
  refine Ends.seq (readObject_ok hget) ?_
  cases hptr : w.objectPtr with
  | none =>
    refine (Backend.delete_ends hget E).bind ?_
    rintro _ _ rfl
    exact .pure ⟨rfl, rfl, .inl ⟨rfl, .inl rfl, rfl⟩⟩
  | some x =>
    cases hinfo : w.classInfo with
    | none => exact hclass hinfo
    | some desc =>
      simp only [Option.isNone_some, Bool.false_eq_true, if_false]
      cases hgc : desc.garbageCollect with
      | true =>
        refine (lock_ends hget E).bind ?_
        rintro _ _ rfl
        exact .pure ⟨rfl, rfl, .inr ⟨desc, rfl, rfl, rfl, hgc, by simp only [hptr, hinfo]⟩⟩
      | false =>
        refine (Backend.delete_ends hget E).bind ?_
        rintro _ _ rfl
        exact .pure ⟨rfl, rfl, .inl ⟨rfl, .inr ⟨desc, rfl, hgc⟩, rfl⟩⟩

theorem finalise_ends {E : Fault → Prop} (ha : (squirrelWrappers vm).Alive v s)
    (hnull : (s.world.heap.instances v).userpointer = none → E .nullDeref)
    (hclass : ∀ p w, (s.world.heap.instances v).userpointer = some p → s.objects.get p = some w →
      (s.world.heap.instances v).hook = true → w.classInfo = none → E .uninitialised) :
    Ends (finalise v) s (fun r s' => (squirrelWrappers vm).Finalises v s s' r ∧ s'.world = s.world) E := by
  cases hh : (s.world.heap.instances v).hook with
  | false =>
    refine @Ends.of_ok _ _ _ _ s _ _ none s ?_ ⟨.unhooked ?_ rfl, rfl⟩
    · simp [finalise, hh]
    · show consults s v = none
      simp [consults, hh]
  | true =>
    cases hu : (s.world.heap.instances v).userpointer with
    | none =>
      have heq : finalise v s = .error .nullDeref := by simp [finalise, hh, hu]
      unfold Ends
      rw [heq]
      exact hnull hu
    | some p =>
      obtain ⟨w, hget⟩ := ha p hu
      have hcons : (squirrelWrappers vm).consults s v = w.classInfo := by
        show consults s v = w.classInfo
        simp [consults, hh, hu, hget]
      have heq : finalise v s = (do
          let e ← gcEnter p
          match e.2 with
          | none => return some (e.1, none)
          | some desc => return some (e.1, some (← watch desc e.1))) s := by
        simp only [finalise, hh, hu, if_true]
      refine Ends.of_eq heq ((gcEnter_ends hget (hclass p w hu hget hh)).bind ?_)
      rintro ⟨q, e⟩ s₁ ⟨rfl, hw, ⟨rfl, hd, ho⟩ | ⟨desc, rfl, hinfo, hptr, hd, ho⟩⟩
      · exact .pure ⟨.deleted hu hget (by rw [hcons]; exact hd) ho, hw⟩
      · refine Ends.seq (watch_ok (w := { w with lockedByScript := true }) ?_) ?_
        · rw [ho]
          exact Objects.write_get_self
        · exact .pure ⟨.collects hu hget rfl (by rw [hcons]; exact hinfo) hd hptr ho, hw⟩

/-! ## Construction -/

/-- Nothing has happened to the instances, and perhaps there are more objects. -/
def Grows (c c' : SquirrelScriptContext) : Prop :=
  c'.world.heap.instances = c.world.heap.instances ∧ c.world.heap.next ≤ c'.world.heap.next

theorem Grows.trans {c' c'' : SquirrelScriptContext} (h : Grows c c') (h' : Grows c' c'') : Grows c c'' :=
  ⟨h'.1.trans h.1, Nat.le_trans h.2 h'.2⟩

theorem sqPush_grows {x : SqValue} : Ends (sqPush x) c (fun _ c' => Grows c c') NotWild :=
  .of_ok rfl ⟨rfl, Nat.le_refl _⟩

theorem sqNewclosure_grows {f : SqFunction} {n : Nat} : Ends (sqNewclosure f n) c (fun _ c' => Grows c c') NotWild :=
  .of_ok rfl ⟨rfl, Nat.le_succ _⟩

theorem newMember_grows {h : SqHeap} {r : Nat} {x y : SqValue} :
    (h.newMember r x y).instances = h.instances ∧ (h.newMember r x y).next = h.next := by
  unfold SqHeap.newMember
  split
  · exact ⟨rfl, rfl⟩
  · split <;> exact ⟨rfl, rfl⟩

theorem sqCreateslot_grows {idx : Int} : Ends (sqCreateslot idx) c (fun _ c' => Grows c c') NotWild := by
  unfold Ends
  simp only [sqCreateslot]
  cases c.at idx with
  | table r =>
    by_cases hk : c.at (-2) = .null
    · simp only [hk, if_true]
      exact ⟨rfl, Nat.le_refl _⟩
    · simp only [hk, if_false]
      exact ⟨rfl, Nat.le_refl _⟩
  | sqclass r =>
    by_cases hk : c.at (-2) = .null
    · simp only [hk, if_true]
      exact ⟨rfl, Nat.le_refl _⟩
    · simp only [hk, if_false]
      exact ⟨newMember_grows.1, Nat.le_of_eq newMember_grows.2.symm⟩
  | _ => exact ⟨rfl, Nat.le_refl _⟩

/-- Sequencing of what grows. -/
theorem Grows.bind {α β : Type} {m : SqM α} {f : α → SqM β} {c₀ : SquirrelScriptContext}
    (h : Ends m c (fun _ c' => Grows c c') NotWild) (h₀ : Grows c₀ c)
    (hf : ∀ a c', Grows c₀ c' → Ends (f a) c' (fun _ c'' => Grows c₀ c'') NotWild) :
    Ends (m >>= f) c (fun _ c'' => Grows c₀ c'') NotWild :=
  h.bind fun a c' hc => hf a c' (h₀.trans hc)

theorem forM_sqPush_grows : ∀ (xs : List SqValue) {c : SquirrelScriptContext},
    Ends (xs.forM sqPush) c (fun _ c' => Grows c c') NotWild
  | [], _ => .pure ⟨rfl, Nat.le_refl _⟩
  | _ :: xs, _ => sqPush_grows.bind fun _ _ h => (forM_sqPush_grows xs).mono fun _ _ h' => h.trans h'

theorem addMember_grows {name : Bytes} {f : SqFunction} {vs : List SqValue} :
    Ends (addMember name f vs) c (fun _ c' => Grows c c') NotWild := by
  unfold addMember
  refine Grows.bind sqPush_grows ⟨rfl, Nat.le_refl _⟩ fun _ c₁ h₁ => ?_
  refine Grows.bind (forM_sqPush_grows vs) h₁ fun _ c₂ h₂ => ?_
  refine Grows.bind sqNewclosure_grows h₂ fun _ c₃ h₃ => ?_
  exact Grows.bind sqCreateslot_grows h₃ fun _ _ h₄ => .pure h₄

theorem sqAssert_grows {cond : Bool} {text : String} :
    Ends (sqAssert cond text) c (fun _ c' => Grows c c') NotWild := by
  cases cond with
  | true => exact .of_ok rfl ⟨rfl, Nat.le_refl _⟩
  | false => exact NotWild.assertion text

theorem registerUserClass_grows : Ends (registerUserClass desc) c (fun _ c' => Grows c c') NotWild := by
  have h₀ : Grows c c := ⟨rfl, Nat.le_refl _⟩
  unfold registerUserClass
  refine Grows.bind sqAssert_grows h₀ fun _ c₁ h₁ => ?_
  refine Grows.bind sqAssert_grows h₁ fun _ c₂ h₂ => ?_
  refine Grows.bind sqPush_grows h₂ fun _ c₃ h₃ => ?_
  refine Grows.bind (m := sqNewclass) (.of_ok rfl ⟨rfl, Nat.le_succ _⟩) h₃ fun _ c₄ h₄ => ?_
  refine Ends.bind (Ends.forM (fun _ _ h => addMember_grows.mono fun _ _ h' => Grows.trans h h') _ h₄) fun _ c₅ h₅ => ?_
  refine Grows.bind addMember_grows h₅ fun _ c₆ h₆ => ?_
  refine Grows.bind addMember_grows h₆ fun _ c₇ h₇ => ?_
  have hdestroy : Ends (addDestroy desc (.userpointer (.classInfo desc))) c₇ (fun _ c' => Grows c₇ c') NotWild := by
    unfold addDestroy
    split
    · exact .pure ⟨rfl, Nat.le_refl _⟩
    · exact addMember_grows
  refine Grows.bind hdestroy h₇ fun _ c₈ h₈ => ?_
  refine Grows.bind sqCreateslot_grows h₈ fun _ c₉ h₉ => ?_
  exact Ends.bind (.of_ok rfl h₉) fun _ _ h => .pure h

theorem findOrRegister_grows : Ends (findOrRegister desc) c (fun _ c' => Grows c c') NotWild := by
  cases hf : findClassInfo c.world desc with
  | some d =>
    have heq : findOrRegister desc c = .ok (d, c) := by
      rw [findOrRegister, bind_get, hf]
      rfl
    exact .of_ok heq ⟨rfl, Nat.le_refl _⟩
  | none =>
    have heq : findOrRegister desc c = (registerUserClass desc >>= fun _ => classInfoOf desc) c := by
      rw [findOrRegister, bind_get, hf]
    refine Ends.of_eq heq (registerUserClass_grows.bind fun _ c₁ h => ?_)
    unfold classInfoOf
    refine Ends.seq rfl ?_
    cases findClassInfo c₁.world desc with
    | none => exact fun h => by cases h
    | some d => exact .pure h

theorem at_top_class {q : Nat} (h : c.at (-1) = .sqclass q) : ∃ rest, c.stack = .sqclass q :: rest := by
  unfold SquirrelScriptContext.at at h
  cases hs : c.stack with
  | nil =>
    rw [hs] at h
    cases h
  | cons x rest =>
    rw [hs] at h
    obtain rfl : x = .sqclass q := h
    exact ⟨rest, rfl⟩

/-- The class is on top, found without a metamethod. -/
theorem pushClass_ends {name : Bytes} (hf : ∀ self w, (vm.get self (.string name) w).2 = w) :
    Ends (pushClass vm name) c (fun _ c' => c'.world = c.world ∧ ∃ q rest, c'.stack = .sqclass q :: rest) NotWild := by
  unfold pushClass
  have hpush : sqPushstring name c = .ok ((), { c with stack := .string name :: c.stack }) := rfl
  refine Ends.seq hpush ?_
  have hget : Ends (sqGet vm (-2)) { c with stack := .string name :: c.stack }
    (fun _ c' => c'.world = c.world) NotWild := by
    unfold Ends sqGet
    have hkey : ({ c with stack := .string name :: c.stack } : SquirrelScriptContext).at (-1) = .string name :=
      at_top rfl
    have hsame := hf (({ c with stack := .string name :: c.stack } : SquirrelScriptContext).at (-2)) c.world
    simp only [hkey]
    rcases hg : vm.get (({ c with stack := .string name :: c.stack } : SquirrelScriptContext).at (-2))
      (.string name) c.world
      with ⟨_ | x, w⟩
    · rw [hg] at hsame
      exact hsame
    · rw [hg] at hsame
      exact hsame
  refine hget.bind fun _ c₁ hw => ?_
  refine Ends.seq rfl ?_
  cases hc : c₁.at (-1) with
  | sqclass q =>
    obtain ⟨rest, hs⟩ := at_top_class hc
    exact .pure ⟨hw, q, rest, hs⟩
  | _ => exact NotWild.assertion _

theorem newInstance_bound {h : SqHeap} {q : Nat} :
    (fun v => ((h.newInstance q p).instances v).userpointer)
      = Function.update (fun v => (h.instances v).userpointer) h.next (some p) := by
  funext v
  by_cases hv : v = h.next
  · subst hv
    simp [SqHeap.newInstance]
  · simp [SqHeap.newInstance, hv]

theorem pushNew_ends {objectPtr : Option Nat} (hf : squirrelFits vm (.pushNew k desc objectPtr) s) :
    Ends (k.pushNew vm desc objectPtr) s (fun p s' => (squirrelWrappers vm).MakesNew desc objectPtr s s' p)
      NotWild := by
  have hpush : Ends (k.stack.pushNewScriptObject vm desc objectPtr) s
      (fun r s' => (squirrelWrappers vm).MakesNew desc objectPtr s s' r.1) NotWild := by
    unfold SquirrelScriptStack.pushNewScriptObject
    refine (onThread_ends (findOrRegister_grows (c := s.context sqView mainThread))).bind ?_
    rintro info _ ⟨c₁, ⟨hinst, hnext⟩, rfl⟩
    refine Ends.seq rfl ?_
    refine (onThread_ends (pushClass_ends (c := VmState.context sqView _ mainThread) hf)).bind ?_
    rintro _ _ ⟨c₂, ⟨hw, q, rest, hs⟩, rfl⟩
    have hcontext : VmState.context sqView (VmState.setContext sqView
        ({ s.setContext sqView mainThread c₁ with objects := s.objects.new { objectPtr } } : SqState) mainThread c₂)
        mainThread = c₂ := setContext_context c₂
    have hreplace := onThread_ok (by rw [hcontext]; exact replaceByInstance_ok (p := s.objects.next) hs)
    refine Ends.seq hreplace (.pure ?_)
    have hheap : c₂.world.heap.instances = s.world.heap.instances ∧ s.world.heap.next ≤ c₂.world.heap.next := by
      rw [hw]
      exact ⟨hinst, hnext⟩
    refine ⟨rfl, ⟨{ objectPtr }, ?_, rfl, rfl⟩, Nat.lt_succ_of_le hheap.2, ?_⟩
    · exact ⟨rfl, fun h => (by cases h)⟩
    · show (fun v => ((c₂.world.heap.newInstance q s.objects.next).instances v).userpointer) = _
      rw [newInstance_bound, hheap.1]
      rfl
  exact hpush.bind fun _ _ h => .pure h

theorem createInstance_bound {h : SqHeap} {q : Nat} (hu : (h.instances h.next).userpointer = none) :
    (fun v => ((h.createInstance q).instances v).userpointer) = fun v => (h.instances v).userpointer := by
  funext v
  by_cases hv : v = h.next
  · subst hv
    simp [SqHeap.createInstance, hu]
  · simp [SqHeap.createInstance, SqHeap.lock, hv]

/-- The constructor is given a new wrapper. -/
theorem enter_ends (ho : outervalues = [.userpointer (.classInfo desc)]) :
    inFrame L outervalues this args (do
      let e ← constructorEnter L
      return (e.1, e.2.1)) s = .ok ((desc, s.objects.next),
        { called s L [] this args with objects := s.objects.new { classInfo := some desc } }) := by
  have hpop := @called_popClassInfo s L desc this outervalues args [] ho
  have hnew : onObjects (fun o => .ok (o.next, o.new { classInfo := some desc })) (called s L [] this args)
      = .ok (s.objects.next, { called s L [] this args with objects := s.objects.new { classInfo := some desc } }) :=
        rfl
  show (constructorEnter L >>= fun e => pure (e.1, e.2.1)) (called s L outervalues this args) = _
  have henter : constructorEnter L (called s L outervalues this args) = .ok ((desc, s.objects.next,
      callbackStack ((called s L [] this args).frame mainThread).count),
      { called s L [] this args with objects := s.objects.new { classInfo := some desc } }) := by
    rw [constructorEnter, bind_ok hpop, bind_ok hnew, bind_ok newStack_ok]
    rfl
  rw [bind_ok henter]
  rfl

/-- The instance a constructor is called on. -/
def SqCall.target (k : SqCall) (w : SqWorld) : Option Nat :=
  match k.sqclass with
  | some _ => some w.heap.next
  | none =>
    match k.this with
    | .sqinstance i => some i
    | _ => none

/-- How far a constructor gets before it calls the user. -/
theorem construct_run (ho : k.outervalues = [.userpointer (.classInfo desc)]) :
    ∃ s', k.construct s = .ok ((desc, s.objects.next, k.target s.world), s') ∧
      s'.objects = s.objects.new { classInfo := some desc } ∧ (∀ q, k.sqclass = some q →
        s'.world = { s.world with heap := s.world.heap.createInstance q }) ∧
      (k.sqclass = none → s'.world = s.world) := by
  cases hq : k.sqclass with
  | none =>
    simp only [SqCall.construct, SqCall.target, hq, enter_ends ho]
    exact ⟨_, rfl, rfl, fun q h => (by cases h), fun _ => rfl⟩
  | some q =>
    simp only [SqCall.construct, SqCall.target, hq, enter_ends ho]
    refine ⟨_, rfl, rfl, fun q' h => ?_, fun h => (by cases h)⟩
    cases h
    rfl

theorem construct_ends (hf : squirrelFits vm (.construct k) s) (hu : (squirrelWrappers vm).Unborn s.world) :
    Ends k.construct s (fun r s' => (squirrelWrappers vm).Begins s s' r) NotWild := by
  obtain ⟨desc, ho⟩ := hf
  obtain ⟨s', hrun, hobj, hsome, hnone⟩ := construct_run ho
  have hblank : ∃ w, Blank false desc w ∧ s'.objects = s.objects.new w :=
    ⟨{ classInfo := some desc }, ⟨rfl, fun h => (by cases h)⟩, hobj⟩
  refine .of_ok hrun ⟨rfl, hblank, fun _ => ?_, fun h => by cases h⟩
  cases hq : k.sqclass with
  | none => exact SameValues.of_eq _ (hnone hq)
  | some q =>
    have hnew : (s.world.heap.instances s.world.heap.next).userpointer = none := hu _ (Nat.le_refl _)
    have hw := hsome q hq
    refine ⟨?_, ?_⟩
    · rw [hw]
      exact createInstance_bound hnew
    · rw [hw]
      exact Nat.le_succ _

theorem topInstance_some (h : topInstance s L = some v) :
    ∃ rest, (s.frame L).stack = .sqinstance v :: rest := by
  unfold topInstance at h
  cases hs : (s.frame L).stack with
  | nil =>
    have hat : (s.context sqView L).at (-1) = .null := by
      simp [SquirrelScriptContext.at, VmState.context, sqView, hs]
    rw [hat] at h
    cases h
  | cons x rest =>
    have hat : (s.context sqView L).at (-1) = x := at_top hs
    rw [hat] at h
    cases x <;> cases h
    exact ⟨rest, rfl⟩

/-- The heap with other contents of an instance. -/
def setInstance (c : SquirrelScriptContext) (i : Nat) (x : SqInstance) : SquirrelScriptContext :=
  c.setHeap { c.world.heap with instances := fun j => if j = i then x else c.world.heap.instances j }

theorem sqSetinstanceup_top (h : c.stack = .sqinstance v :: rest) :
    sqSetinstanceup (-1) p c = .ok (true, setInstance c v { c.world.heap.instances v with userpointer := some p }) := by
  simp only [sqSetinstanceup, at_top h]
  rfl

theorem sqSetreleasehook_top (h : c.stack = .sqinstance v :: rest) :
    sqSetreleasehook (-1) c = .ok ((), setInstance c v { c.world.heap.instances v with hook := true }) := by
  simp only [sqSetreleasehook, at_top h]
  rfl

/-- What is set on the top of the stack, where an instance is. -/
theorem setTop_ends : Ends (do
      let _ ← onThread sqView L (sqSetinstanceup (-1) p)
      onThread sqView L (sqSetreleasehook (-1))
      return 0 : SqS Nat) s (fun _ s' => s'.objects = s.objects ∧ s'.world.heap.next = s.world.heap.next ∧
        (fun v => (s'.world.heap.instances v).userpointer)
          = rebind (fun v => (s.world.heap.instances v).userpointer) p (topInstance s L) ∧
        ∀ v, (s'.world.heap.instances v).hook = ((s.world.heap.instances v).hook || topInstance s L == some v))
          NotWild := by
  cases ht : topInstance s L with
  | none =>
    have hno : ∀ i, (s.context sqView L).at (-1) ≠ .sqinstance i := by
      intro i hi
      simp only [topInstance, hi] at ht
      cases ht
    have hup : sqSetinstanceup (-1) p (s.context sqView L) = .ok (false, s.context sqView L) := by
      unfold sqSetinstanceup
      split
      · next i hi => exact absurd hi (hno i)
      · rfl
    have hhook : sqSetreleasehook (-1) (s.context sqView L) = .ok ((), s.context sqView L) := by
      unfold sqSetreleasehook
      split
      · next i hi => exact absurd hi (hno i)
      · rfl
    refine Ends.seq (onThread_reads hup) ?_
    refine Ends.seq (onThread_reads hhook) ?_
    exact .pure ⟨rfl, rfl, rfl, fun v => by simp⟩
  | some i =>
    obtain ⟨rest, hs⟩ := topInstance_some ht
    have hs' : (s.context sqView L).stack = .sqinstance i :: rest := hs
    refine Ends.seq (onThread_ok (sqSetinstanceup_top hs')) ?_
    have hhook : Ends (sqSetreleasehook (-1)) (VmState.context sqView (s.setContext sqView L
        (setInstance (s.context sqView L) i
          { (s.context sqView L).world.heap.instances i with userpointer := some p })) L)
        (fun _ c => c.world.heap.next = s.world.heap.next ∧ (fun v => (c.world.heap.instances v).userpointer)
          = Function.update (fun v => (s.world.heap.instances v).userpointer) i (some p) ∧
          ∀ v, (c.world.heap.instances v).hook = ((s.world.heap.instances v).hook || some i == some v)) NotWild := by
      rw [setContext_context]
      refine .of_ok (sqSetreleasehook_top hs') ⟨rfl, ?_, fun j => ?_⟩
      · funext j
        by_cases hj : j = i
        · subst hj
          simp [setInstance, VmState.context, sqView, SquirrelScriptContext.setHeap]
        · simp [setInstance, VmState.context, sqView, SquirrelScriptContext.setHeap, hj]
      · by_cases hj : j = i
        · subst hj
          simp [setInstance, VmState.context, sqView, SquirrelScriptContext.setHeap]
        · simp [setInstance, VmState.context, sqView, SquirrelScriptContext.setHeap, hj, Ne.symm hj]
    refine (onThread_ends hhook).bind ?_
    rintro _ _ ⟨c, ⟨hnext, hbound, hhooks⟩, rfl⟩
    exact .pure ⟨rfl, hnext, hbound, hhooks⟩

/-- The release hook of an instance is set where its user pointer is. -/
def Hooks (k : SqCall) (s s' : SqState) : Prop :=
  ∀ v, (s'.world.heap.instances v).hook = ((s.world.heap.instances v).hook || topInstance s k.thread == some v)

theorem constructed_ends {st : SquirrelScriptStack} {w : ScriptObject} (hf : squirrelFits vm (.ret st) s)
    (hp : s.objects.get p = some w) :
    Ends (k.constructed desc p st) s (fun _ s' => (squirrelWrappers vm).Binds k p w s s' ∧ Hooks k s s') NotWild := by
  have hleave : Ends (constructorLeave k.thread p st) s
      (fun _ s' => (squirrelWrappers vm).Binds k p w s s' ∧ Hooks k s s') NotWild := by
    unfold constructorLeave
    refine Ends.seq (readObject_ok hp) ?_
    refine (vmAssert_ends (.assertion _)).bind ?_
    rintro _ _ ⟨hptr, rfl⟩
    refine (vmAssert_ends (.assertion _)).bind ?_
    rintro _ _ ⟨-, rfl⟩
    refine setTop_ends.mono ?_
    rintro _ s' ⟨ho, hnext, hbound, hhooks⟩
    refine ⟨⟨hptr, ho, hbound, Nat.le_of_eq hnext.symm, fun v hv => ?_⟩, hhooks⟩
    obtain ⟨rest, hs⟩ := topInstance_some hv
    show v < s'.world.heap.next
    rw [hnext]
    exact hf k.thread v (by simp [hs])
  exact hleave.bind fun _ _ h => .pure h

theorem popObject_ends : Ends k.popObject s (fun _ s' => s'.objects = s.objects ∧ s'.world = s.world) NotWild := by
  have hpop : Ends k.stack.popScriptObject (s.context sqView mainThread) (fun _ c => c.world = s.world) NotWild := by
    by_cases hi : ∃ r, (s.context sqView mainThread).at (-1) = .sqinstance r
    · obtain ⟨r, hr⟩ := hi
      obtain ⟨rest, hs⟩ := topInstance_some (s := s) (L := mainThread) (v := r) (by simp only [topInstance, hr])
      exact .of_ok (popScriptObject_instance hs) rfl
    · have herror := @popScriptObject_assertion (s.context sqView mainThread) k.stack fun r hr => hi ⟨r, hr⟩
      unfold Ends
      rw [herror]
      exact NotWild.assertion _
  refine (onThread_ends hpop).bind ?_
  rintro _ _ ⟨c, hw, rfl⟩
  exact .pure ⟨rfl, hw⟩

theorem pushObject_ends : Ends (k.pushObject p) s
    (fun _ s' => s'.objects = s.objects ∧ (squirrelWrappers vm).SameValues s.world s'.world) NotWild := by
  unfold SqCall.pushObject SquirrelScriptStack.pushScriptObject
  exact NotWild.assertion "false"

/-- The Squirrel backend keeps to the laws of wrappers. -/
theorem squirrelWrappers_lawful : (squirrelWrappers vm).Lawful where
  construct k s hf hu := construct_ends hf hu
  constructed k desc p st s w hf hp := (@constructed_ends vm s k p desc st w hf hp).mono fun _ _ h => h.1
  early h := by cases h
  pushNew k desc objectPtr s hf _ := pushNew_ends hf
  pushObject k p s w _ _ := pushObject_ends
  popObject k s _ := popObject_ends.mono fun _ _ h => ⟨h.1, SameValues.of_eq _ h.2⟩
  method k v s hf ha := (method_ends hf ha (fun _ h => by cases h) (fun _ => .assertion _) fun _ => .assertion _).mono
    fun _ _ h => h.1
  text k v s hf ha := by
    obtain ⟨desc, houter⟩ := hf
    have hends := toText_ends houter ha (E := NotWild) (fun _ h => by cases h) (fun _ => .assertion _) fun _ _ =>
      .assertion _
    exact hends.mono fun r s' h => ⟨fun m hm => (h.1.1 m hm).1, h.1.2.2⟩
  destroy k v s hf ha := (destroy_ends hf ha (fun _ h => by cases h) fun _ => .assertion _).mono fun _ _ h => h.1
  finalise k v s _ ha := finalise_ends ha (fun _ h => by cases h) fun _ _ _ _ _ _ h => by cases h

end MultiScript.Squirrel
