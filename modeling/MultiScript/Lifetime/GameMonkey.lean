/-
Wrappers and user objects. The user object of a wrapper is there before its
constructor is called, and every wrapper has its class.
-/
import MultiScript.GameMonkey.Callbacks
import MultiScript.GameMonkey.Registration
import MultiScript.Lifetime.Machine

namespace MultiScript.GameMonkey

open Act Lifetime

/-- What a call of a native function carries: `userData` is the function object's, and
`type` the type of the user object it is called on. -/
structure GmCallInfo where
  thread : Nat
  userData : HostPtr
  this : GmValue
  type : Nat
  args : List GmValue
  stack : GMScriptStack
  answer : Bool
  text : Bytes
deriving DecidableEq, Repr

section Operations

variable {α : Type}

/-- In the frame of a call. -/
def inFrame (L : Nat) (this : GmValue) (args : List GmValue) (m : GmS α) : GmS α := fun s =>
  m (s.setFrame L { this, params := args, pushed := [] })

def GmCallInfo.construct (k : GmCallInfo) : GmS (ClassDesc × Nat × Option Nat) := fun s =>
  inFrame k.thread k.this k.args (do
    let e ← constructorEnter s.world.gmTypeId k.thread k.userData
    return (e.1, e.2.1, some s.world.next)) s

def GmCallInfo.constructed (_k : GmCallInfo) (_desc : ClassDesc) (p : Nat) (_st : GMScriptStack) : GmS Unit :=
  constructorLeave p

def GmCallInfo.pushNew (k : GmCallInfo) (desc : ClassDesc) (objectPtr : Option Nat) : GmS Nat := do
  let r ← k.stack.pushNewScriptObject k.thread desc objectPtr
  return r.1

def GmCallInfo.pushObject (k : GmCallInfo) (p : Nat) : GmS Unit := do
  let _ ← k.stack.pushScriptObject k.thread p

def GmCallInfo.popObject (k : GmCallInfo) : GmS (Option Nat) := do
  let r ← onThread gmView k.thread k.stack.popScriptObject
  return r.1

def GmCallInfo.method (k : GmCallInfo) (v : Nat) : GmS Seen := do
  let r ← callNative k.thread (.user k.type v) k.args do
    let info ← onThread gmView k.thread (asMethodInfo k.userData)
    gmClassMethodCallback (fun _ p st => do return { seen := ← watch info.1 p, result := k.answer, stack := st })
      k.thread k.userData
  return r.1

/-- The class is that of the wrapper. -/
def watchClass (p : Nat) : GmS Seen := do
  let desc ← classOf (← readObject p)
  watch desc p

def GmCallInfo.toText (k : GmCallInfo) (v : Nat) : GmS (Option Seen) := do
  let r ← callNative k.thread (.user k.type v) k.args
    (gmClassToStringMethodCallback
      (fun _ p => do return { seen := ← watchClass p, result := k.answer, buffer := k.text })
      k.thread)
  return r.1

def GmCallInfo.destroy (k : GmCallInfo) (v : Nat) : GmS Seen :=
  inFrame k.thread (.user k.type v) k.args do
    let e ← destructorEnter k.thread
    watch e.1 e.2

def GmCallInfo.finalise (k : GmCallInfo) (v : Nat) : GmS (Option (Nat × Option Seen)) := do
  let e ← gcEnter k.thread v
  match e.2 with
  | none => return some (e.1, none)
  | some desc => return some (e.1, some (← watch desc e.1))

end Operations

/-- The class in the wrapper of a user object. -/
def userClass (s : GmState) (v : Nat) : Option ClassDesc :=
  ((s.world.user v).bind s.objects.get).bind (·.classInfo)

/-- The operations that scripts and hosts can make: the user data of a function object is
what registration has made it, and an address is that of one descriptor. -/
def gmFits : Op GmThread GmWorld GmCallInfo GMScriptStack → GmState → Prop
  | .construct k, _ => ∃ desc, k.userData = .classInfo desc
  | .pushNew _ desc _, s => ∀ d, findClassInfo s.world desc = some d → d = desc
  | .method k _, _ => ∃ desc i, k.userData = .methodInfo desc i ∧ i < desc.methods.length
  | _, _ => True

def gmWrappers : Backend GmThread GmWorld GmCallInfo GMScriptStack where
  bound w v := w.user v
  next w := w.next
  early := true
  tagged := true
  thread k := k.thread
  restore caller _ := caller
  construct k := k.construct
  constructed k := k.constructed
  pushNew k := k.pushNew
  pushObject k := k.pushObject
  popObject k := k.popObject
  method k := k.method
  text k := k.toText
  destroy k := k.destroy
  finalise k := k.finalise
  binds _ _ := none
  consults := userClass
  classOf f k v s := match f with
    | .method => (match k.userData with
      | .methodInfo desc _ => some desc
      | _ => none)
    | _ => userClass s v
  fits := gmFits

/-! ## What the code does -/

open Backend

variable {s : GmState} {k : GmCallInfo} {L v p : Nat} {desc : ClassDesc}

theorem callNative_ends {α : Type} {this : GmValue} {args : List GmValue} {callback : GmS α} {Q : α → GmState → Prop}
    {E : Fault → Prop} (h : Ends callback (s.setFrame L { this, params := args, pushed := [] }) Q E)
    (hQ : ∀ a s' fr, Q a s' → Q a (s'.setFrame L fr)) :
      Ends (callNative L this args callback) s (fun r s' => Q r.1 s') E := by
  unfold Ends at h ⊢
  simp only [callNative]
  cases hc : callback (s.setFrame L { this, params := args, pushed := [] }) with
  | error e =>
    rw [hc] at h
    exact h
  | ok x =>
    rw [hc] at h
    exact hQ _ _ _ h

/-- The frame of a call on the user object. -/
def calledOn (s : GmState) (L type v : Nat) (args : List GmValue) : GmState :=
  s.setFrame L { this := .user type v, params := args, pushed := [] }

theorem thisUser_ok {type : Nat} {args : List GmValue} :
    onThread gmView L thisUser (calledOn s L type v args) = .ok (s.world.user v, calledOn s L type v args) := by
  refine onThread_reads ?_
  simp [thisUser, calledOn, VmState.context, gmView]

/-- The wrapper of the receiver, with its object in it. -/
theorem receiver_ends {E : Fault → Prop} {type : Nat} {args : List GmValue} (ha : gmWrappers.Alive v s)
    (hnull : s.world.user v = none → E .nullDeref)
    (hempty : gmWrappers.Empty v s → E (.assertion "scriptObject->m_objectPtr")) :
    Ends (receiver L) (calledOn s L type v args) (fun p s' => s' = calledOn s L type v args ∧ s.world.user v = some p ∧
      ∃ w, s.objects.get p = some w ∧ ¬ gmWrappers.Empty v s) E := by
  unfold receiver
  refine Ends.seq thisUser_ok ?_
  cases hu : s.world.user v with
  | none => exact hnull hu
  | some p =>
    obtain ⟨w, hget⟩ := ha p hu
    refine Ends.seq (readObject_ok hget) ?_
    refine (vmAssert_decides fun h => hempty ⟨p, w, hu, hget, by simpa using h⟩).bind ?_
    rintro _ _ ⟨hptr, rfl⟩
    exact .pure ⟨rfl, rfl, w, hget, not_empty hu hget hptr⟩

theorem classOf_ends {E : Fault → Prop} {w : ScriptObject} (hclass : w.classInfo = none → E .uninitialised) :
    Ends (classOf w) s (fun d s' => w.classInfo = some d ∧ s' = s) E := by
  unfold classOf
  cases hc : w.classInfo with
  | none => exact hclass hc
  | some d => exact .pure ⟨rfl, rfl⟩

/-- The wrapper of a user object has no class. -/
def Unclassed (v : Nat) (s : GmState) : Prop :=
  ∃ p w, s.world.user v = some p ∧ s.objects.get p = some w ∧ w.classInfo = none

/-- A call that leads to a callback of the user and changes nothing. -/
def Watched (f : Lifetime.Callback) (k : GmCallInfo) (v : Nat) (s : GmState) (m : Seen) (s' : GmState) : Prop :=
  (∃ w, gmWrappers.Saw f k v s m w) ∧ s'.objects = s.objects ∧ s'.world = s.world

theorem method_ends {E : Fault → Prop} (hf : gmFits (.method k v) s) (ha : gmWrappers.Alive v s)
    (hnull : s.world.user v = none → E .nullDeref)
    (hempty : gmWrappers.Empty v s → E (.assertion "scriptObject->m_objectPtr"))
    (hresult : k.answer = false → E (.assertion "result")) :
    Ends (k.method v) s (fun m s' => Watched .method k v s m s' ∧ ¬ gmWrappers.Empty v s ∧ k.answer = true) E := by
  obtain ⟨desc, i, hdata, hlt⟩ := hf
  have hclass : gmWrappers.classOf .method k v s = some desc := by simp [gmWrappers, hdata]
  unfold GmCallInfo.method
  refine Ends.bind
    (callNative_ends (Q := fun m s' => Watched .method k v s m s' ∧ ¬ gmWrappers.Empty v s ∧ k.answer = true)
    ?_ fun _ _ _ h => h) fun _ _ h => .pure h
  show Ends _ (calledOn s k.thread k.type v k.args) _ _
  rw [hdata]
  refine Ends.seq (onThread_reads rfl) ?_
  unfold gmClassMethodCallback
  have henter : Ends (methodEnter k.thread (.methodInfo desc i)) (calledOn s k.thread k.type v k.args)
      (fun e s' => s.world.user v = some e.2.1 ∧ (∃ w, s.objects.get e.2.1 = some w ∧ ¬ gmWrappers.Empty v s) ∧
        s'.objects = s.objects ∧ s'.world = s.world) E := by
    unfold methodEnter
    refine Ends.seq (onThread_reads rfl) ?_
    refine (receiver_ends ha hnull hempty).bind ?_
    rintro p _ ⟨rfl, hu, hw⟩
    refine Ends.seq newStack_ok ?_
    have hcode : methodCode desc i ((calledOn s k.thread k.type v k.args).context gmView k.thread)
        = .ok (desc.methods[i].method, (calledOn s k.thread k.type v k.args).context gmView k.thread) := by
      simp only [methodCode, List.getElem?_eq_getElem hlt]
    refine Ends.seq (onThread_reads hcode) ?_
    exact .pure ⟨hu, hw, rfl, rfl⟩
  refine henter.bind ?_
  rintro ⟨code, p, st⟩ s₁ ⟨hu, ⟨w, hget, hfull⟩, ho, hw⟩
  have hget₁ : s₁.objects.get p = some w := by rw [ho, hget]
  have hseen : Watched .method k v s { desc, scriptObject := p, objectPtr := w.objectPtr } s₁ :=
    ⟨⟨w, hu, hget, rfl, hclass⟩, ho, hw⟩
  refine Ends.bind (Q := fun u s' => Watched .method k v s u.seen s' ∧ u.result = k.answer)
    (Ends.seq (watch_ok hget₁) (.pure ⟨hseen, rfl⟩)) ?_
  intro u s' hu
  rw [callbackLeave, hu.2]
  refine (vmAssert_decides hresult).bind ?_
  intro _ s'' hanswer
  obtain ⟨htrue, rfl⟩ := hanswer
  exact .pure ⟨hu.1, hfull, htrue⟩

theorem userClass_eq {w : ScriptObject} (hu : s.world.user v = some p) (hw : s.objects.get p = some w) :
    userClass s v = w.classInfo := by
  simp [userClass, hu, hw]

/-- What a to-string call leaves: the user was called exactly if the class in the wrapper has a
to-string method, and has answered true then. -/
def Texted (k : GmCallInfo) (v : Nat) (s : GmState) (r : Option Seen) (s' : GmState) : Prop :=
  (∀ m, r = some m → (∃ w, gmWrappers.Saw .text k v s m w) ∧ k.answer = true) ∧
    (∀ desc, userClass s v = some desc → r.isSome = desc.toStringMethod.isSome) ∧ s'.objects = s.objects ∧
    s'.world = s.world

theorem toText_ends {E : Fault → Prop} (ha : gmWrappers.Alive v s) (hnull : s.world.user v = none → E .nullDeref)
    (hempty : gmWrappers.Empty v s → E (.assertion "scriptObject->m_objectPtr"))
    (hclass : Unclassed v s → E .uninitialised)
    (hresult : ∀ desc, userClass s v = some desc → desc.toStringMethod.isSome = true → k.answer = false →
      E (.assertion "result")) :
    Ends (k.toText v) s (fun r s' => Texted k v s r s' ∧ ¬ gmWrappers.Empty v s) E := by
  unfold GmCallInfo.toText
  refine Ends.bind (callNative_ends (Q := fun r s' => Texted k v s r s' ∧ ¬ gmWrappers.Empty v s) ?_ fun _ _ _ h => h)
    fun _ _ h => .pure h
  show Ends _ (calledOn s k.thread k.type v k.args) _ _
  unfold gmClassToStringMethodCallback
  have henter : Ends (toStringEnter k.thread) (calledOn s k.thread k.type v k.args)
      (fun e s' => s.world.user v = some e.2 ∧ (∃ w, s.objects.get e.2 = some w ∧ w.classInfo = some e.1) ∧
        ¬ gmWrappers.Empty v s ∧ s'.objects = s.objects ∧ s'.world = s.world) E := by
    unfold toStringEnter
    refine (receiver_ends ha hnull hempty).bind ?_
    rintro p _ ⟨rfl, hu, w, hget, hfull⟩
    refine Ends.seq (readObject_ok hget) ?_
    refine (classOf_ends fun h => hclass ⟨p, w, hu, hget, h⟩).bind ?_
    rintro d _ ⟨hd, rfl⟩
    exact .pure ⟨hu, ⟨w, hget, hd⟩, hfull, rfl, rfl⟩
  refine henter.bind ?_
  rintro ⟨d, p⟩ s₁ ⟨hu, ⟨w, hget, hd⟩, hfull, ho, hw⟩
  have hget₁ : s₁.objects.get p = some w := by rw [ho, hget]
  have hclass' : userClass s v = some d := (userClass_eq hu hget).trans hd
  cases hmethod : d.toStringMethod with
  | none =>
    refine Ends.seq (onThread_ok rfl) ?_
    refine .pure ⟨⟨fun m hm => (by cases hm), fun d' hd' => ?_, ho, hw⟩, hfull⟩
    obtain rfl : d = d' := Option.some.inj (hclass'.symm.trans hd')
    rw [hmethod]
    rfl
  | some code =>
    have hseen : Ends (watchClass p) s₁ (fun m s' => Watched .text k v s m s') E := by
      unfold watchClass
      refine Ends.seq (readObject_ok hget₁) ?_
      refine (classOf_ends fun h => hclass ⟨p, w, hu, hget, h⟩).bind ?_
      rintro d' _ ⟨hd', rfl⟩
      obtain rfl : d = d' := Option.some.inj (hd.symm.trans hd')
      exact .of_ok (watch_ok hget₁) ⟨⟨w, hu, hget, rfl, hclass'⟩, ho, hw⟩
    refine Ends.bind (Q := fun u s' => Watched .text k v s u.seen s' ∧ u.result = k.answer)
      (hseen.bind fun _ _ h => .pure ⟨h, rfl⟩) ?_
    rintro u s' ⟨⟨hsaw, ho', hw'⟩, hu⟩
    rw [hu]
    refine (vmAssert_decides fun h => hresult d hclass' (by rw [hmethod]; rfl) h).bind ?_
    intro _ s'' hanswer
    obtain ⟨htrue, rfl⟩ := hanswer
    refine Ends.seq (onThread_ok rfl) ?_
    refine .pure ⟨⟨fun m hm => ⟨(Option.some.inj hm) ▸ hsaw, htrue⟩, fun d' hd' => ?_, ho', hw'⟩, hfull⟩
    obtain rfl : d = d' := Option.some.inj (hclass'.symm.trans hd')
    rw [hmethod]
    rfl

theorem destroy_ends {E : Fault → Prop} (ha : gmWrappers.Alive v s)
    (hnull : s.world.user v = none → E (.assertion "scriptObject")) (hclass : Unclassed v s → E .uninitialised) :
    Ends (k.destroy v) s (fun m s' => (∃ w, gmWrappers.Saw .destroy k v s m w ∧
      s'.objects = s.objects.write m.scriptObject { w with lockedByScript := true }) ∧ s'.world = s.world) E := by
  unfold GmCallInfo.destroy inFrame
  show Ends _ (calledOn s k.thread k.type v k.args) _ _
  have henter : Ends (destructorEnter k.thread) (calledOn s k.thread k.type v k.args)
      (fun e s' => s.world.user v = some e.2 ∧ s'.world = s.world ∧ ∃ w, s.objects.get e.2 = some w ∧
        w.classInfo = some e.1 ∧ s'.objects = s.objects.write e.2 { w with lockedByScript := true }) E := by
    unfold destructorEnter
    refine Ends.seq thisUser_ok ?_
    cases hu : s.world.user v with
    | none => exact hnull hu
    | some p =>
      obtain ⟨w, hget⟩ := ha p hu
      refine (@lock_ends _ _ _ _ (calledOn s k.thread k.type v k.args) hget E).bind ?_
      rintro _ _ rfl
      refine Ends.seq (readObject_ok Objects.write_get_self) ?_
      refine (classOf_ends fun h => hclass ⟨p, w, hu, hget, h⟩).bind ?_
      rintro d _ ⟨hd, rfl⟩
      exact .pure ⟨rfl, rfl, w, hget, hd, rfl⟩
  refine henter.bind ?_
  rintro ⟨d, p⟩ s₁ ⟨hu, hw, w, hget, hd, ho⟩
  have hclass : gmWrappers.classOf .destroy k v s = some d := (userClass_eq hu hget).trans hd
  have hget₁ : s₁.objects.get p = some { w with lockedByScript := true } := by
    rw [ho]
    exact Objects.write_get_self
  exact .of_ok (watch_ok hget₁) ⟨⟨w, ⟨hu, hget, rfl, hclass⟩, ho⟩, hw⟩

theorem gcEnter_ends {E : Fault → Prop} (ha : gmWrappers.Alive v s)
    (hnull : s.world.user v = none → E (.assertion "scriptObject")) (hclass : Unclassed v s → E .uninitialised) :
    Ends (gcEnter L v) s (fun e s' => s'.world = s.world ∧ ∃ w, s.world.user v = some e.1 ∧ s.objects.get e.1 = some w ∧
      ((e.2 = none ∧ (w.objectPtr = none ∨ ∃ desc, w.classInfo = some desc ∧ desc.garbageCollect = false) ∧
          s'.objects = without s.objects e.1) ∨
       ∃ desc, e.2 = some desc ∧ w.classInfo = some desc ∧ w.objectPtr.isSome = true ∧ desc.garbageCollect = true ∧
         s'.objects = s.objects.write e.1 { w with lockedByScript := true })) E := by
  unfold gcEnter
  refine Ends.seq (onThread_reads rfl) ?_
  show Ends _ s _ _
  cases hu : s.world.user v with
  | none =>
    rw [show (s.context gmView L).world.user v = none from hu]
    exact hnull hu
  | some p =>
    rw [show (s.context gmView L).world.user v = some p from hu]
    obtain ⟨w, hget⟩ := ha p hu
    refine Ends.seq (readObject_ok hget) ?_
    cases hptr : w.objectPtr with
    | none =>
      refine (Backend.delete_ends hget E).bind ?_
      rintro _ _ rfl
      exact .pure ⟨rfl, w, rfl, hget, .inl ⟨rfl, .inl hptr, rfl⟩⟩
    | some x =>
      simp only [Option.isNone_some, Bool.false_eq_true, if_false]
      refine (classOf_ends fun h => hclass ⟨p, w, hu, hget, h⟩).bind ?_
      rintro desc _ ⟨hd, rfl⟩
      cases hgc : desc.garbageCollect with
      | true =>
        refine (lock_ends hget E).bind ?_
        rintro _ _ rfl
        exact .pure ⟨rfl, w, rfl, hget, .inr ⟨desc, rfl, hd, by rw [hptr]; rfl, hgc, rfl⟩⟩
      | false =>
        refine (Backend.delete_ends hget E).bind ?_
        rintro _ _ rfl
        exact .pure ⟨rfl, w, rfl, hget, .inl ⟨rfl, .inr ⟨desc, hd, hgc⟩, rfl⟩⟩

theorem finalise_ends {E : Fault → Prop} (ha : gmWrappers.Alive v s)
    (hnull : s.world.user v = none → E (.assertion "scriptObject")) (hclass : Unclassed v s → E .uninitialised) :
    Ends (k.finalise v) s (fun r s' => gmWrappers.Finalises v s s' r ∧ s'.world = s.world) E := by
  unfold GmCallInfo.finalise
  refine (gcEnter_ends ha hnull hclass).bind ?_
  rintro ⟨p, e⟩ s₁ ⟨hw, w, hu, hget, h⟩
  have hcons : gmWrappers.consults s v = w.classInfo := userClass_eq hu hget
  rcases h with ⟨rfl, hd, ho⟩ | ⟨desc, rfl, hinfo, hptr, hd, ho⟩
  · exact .pure ⟨.deleted hu hget (by rw [hcons]; exact hd) ho, hw⟩
  · refine Ends.seq (watch_ok (w := { w with lockedByScript := true }) ?_) ?_
    · rw [ho]
      exact Objects.write_get_self
    · exact .pure ⟨.collects hu hget rfl (by rw [hcons]; exact hinfo) hd hptr ho, hw⟩

/-! ## Construction -/

theorem new_write_next {o : Objects} {w w' : ScriptObject} : (o.new w).write o.next w' = o.new w' := by
  simp [Objects.new, Objects.write]

/-- The user object of a wrapper. -/
theorem newUser_bound {w : GmWorld} :
    (fun r => if r = w.next then some p else w.user r) = Function.update w.user w.next (some p) := by
  funext r
  by_cases hr : r = w.next
  · subst hr
    simp
  · simp [hr]

theorem construct_ends (hf : gmFits (.construct k) s) :
    Ends k.construct s (fun r s' => gmWrappers.Begins s s' r) NotWild := by
  obtain ⟨desc, hdata⟩ := hf
  unfold GmCallInfo.construct inFrame
  rw [hdata]
  refine Ends.of_eq (bind_ok constructorEnter_ok) (.pure ?_)
  refine ⟨rfl, ⟨{ classInfo := some desc, userObject := some s.world.next }, ⟨rfl, fun _ => rfl⟩, new_write_next⟩,
    fun h => (by cases h), fun _ => ⟨rfl, Nat.lt_succ_self _, newUser_bound⟩⟩

theorem constructed_ends {st : GMScriptStack} {w : ScriptObject} (hp : s.objects.get p = some w) :
    Ends (k.constructed desc p st) s (fun _ s' => gmWrappers.Binds k p w s s') NotWild := by
  unfold GmCallInfo.constructed constructorLeave
  refine Ends.seq (readObject_ok hp) ?_
  refine (vmAssert_ends (.assertion _)).mono ?_
  rintro _ _ ⟨hptr, rfl⟩
  exact ⟨hptr, rfl, rfl, Nat.le_refl _, fun v hv => by cases hv⟩

theorem gmAssert_ends {c : GMScriptContext} {cond : Bool} {text : String} :
    Ends (gmAssert cond text) c (fun _ c' => cond = true ∧ c' = c) NotWild := by
  cases cond with
  | true => exact .of_ok rfl ⟨rfl, rfl⟩
  | false => exact NotWild.assertion text

/-- The class of a new object is found, or registered. -/
theorem findOrRegister_ends {c : GMScriptContext} (hd : ∀ d, findClassInfo c.world desc = some d → d = desc) :
    Ends (findOrRegister desc) c (fun d c' => d = desc ∧ c'.world.user = c.world.user ∧
      c.world.next ≤ c'.world.next) NotWild := by
  cases hf : findClassInfo c.world desc with
  | some d =>
    have heq : findOrRegister desc c = .ok (d, c) := by
      rw [findOrRegister, bind_get, hf]
      rfl
    exact .of_ok heq ⟨hd d hf, rfl, Nat.le_refl _⟩
  | none =>
    have heq : findOrRegister desc c = (registerUserClass desc >>= fun _ => classInfoOf desc) c := by
      rw [findOrRegister, bind_get, hf]
    refine Ends.of_eq heq ?_
    have hreg : Ends (registerUserClass desc) c (fun _ c' => c'.world = { c.world.registerClass desc with
        classes := (c.world.registerClass desc).classes ++ [desc] }) NotWild := by
      unfold registerUserClass
      refine gmAssert_ends.bind ?_
      rintro _ _ ⟨-, rfl⟩
      refine gmAssert_ends.bind ?_
      rintro _ _ ⟨-, rfl⟩
      exact .of_ok rfl rfl
    refine hreg.bind ?_
    rintro _ c' hw
    have hclasses : (c.world.registerClass desc).classes = c.world.classes := registerTypeLibrary_frame.2.2.2.1
    have hfound : findClassInfo c'.world desc = some desc := by
      unfold findClassInfo
      rw [hw, hclasses, List.find?_append, show c.world.classes.find? (·.addr == desc.addr) = none from hf]
      simp
    have hinfo : classInfoOf desc c' = .ok (desc, c') := by
      rw [classInfoOf, bind_get, hfound]
      rfl
    have hkeeps := registerClass_keeps c.world desc
    refine .of_ok hinfo ⟨rfl, ?_, ?_⟩
    · rw [hw]
      exact hkeeps.user
    · rw [hw]
      exact hkeeps.next

theorem pushNew_ends {objectPtr : Option Nat} (hf : gmFits (.pushNew k desc objectPtr) s) :
    Ends (k.pushNew desc objectPtr) s (fun p s' => gmWrappers.MakesNew desc objectPtr s s' p) NotWild := by
  have hpush : Ends (k.stack.pushNewScriptObject k.thread desc objectPtr) s
      (fun r s' => gmWrappers.MakesNew desc objectPtr s s' r.1) NotWild := by
    unfold GMScriptStack.pushNewScriptObject
    refine (vmAssert_ends (.assertion _)).bind ?_
    rintro _ s ⟨-, rfl⟩
    refine (onThread_ends (findOrRegister_ends (c := s.context gmView k.thread) hf)).bind ?_
    rintro d _ ⟨c₁, ⟨rfl, huser, hnext⟩, rfl⟩
    refine Ends.seq rfl ?_
    refine Ends.seq (onThread_reads rfl) ?_
    refine Ends.seq (onThread_ok rfl) ?_
    refine (write_ends Objects.new_get_next _ NotWild).bind ?_
    rintro _ _ rfl
    have hworld : c₁.world.user = s.world.user ∧ s.world.next ≤ c₁.world.next := ⟨huser, hnext⟩
    refine .pure ⟨rfl, ⟨{ classInfo := some d, userObject := some c₁.world.next, objectPtr },
      ⟨rfl, fun _ => rfl⟩, rfl, ?_⟩,
      ?_, ?_⟩
    · exact new_write_next
    · show s.world.next < c₁.world.next + 1
      exact Nat.lt_succ_of_le hworld.2
    · show (fun r => if r = c₁.world.next then some s.objects.next else c₁.world.user r)
        = Function.update s.world.user (c₁.world.next + 1 - 1) (some s.objects.next)
      rw [newUser_bound, hworld.1, Nat.add_sub_cancel]
  exact hpush.bind fun _ _ h => .pure h

theorem pushObject_ends {w : ScriptObject} (hp : s.objects.get p = some w) : Ends (k.pushObject p) s
    (fun _ s' => s'.objects = s.objects ∧ gmWrappers.SameValues s.world s'.world) NotWild := by
  have hpush : Ends (k.stack.pushScriptObject k.thread p) s
      (fun _ s' => s'.objects = s.objects ∧ gmWrappers.SameValues s.world s'.world) NotWild := by
    unfold GMScriptStack.pushScriptObject
    refine (vmAssert_ends (.assertion _)).bind ?_
    rintro _ s ⟨-, rfl⟩
    refine Ends.seq (readObject_ok hp) ?_
    cases w.userObject with
    | none => exact NotWild.assertion _
    | some ref =>
      have huser : Ends (pushUser w.classInfo ref) (s.context gmView k.thread)
        (fun _ c => c.world = s.world) NotWild := by
        unfold pushUser
        cases w.classInfo with
        | none => exact fun h => by cases h
        | some d => exact .of_ok rfl rfl
      refine (onThread_ends huser).bind ?_
      rintro _ _ ⟨c, hw, rfl⟩
      exact .pure ⟨rfl, .of_eq _ hw⟩
  exact hpush.bind fun _ _ h => .pure h

theorem popObject_ends : Ends k.popObject s
    (fun _ s' => s'.objects = s.objects ∧ gmWrappers.SameValues s.world s'.world) NotWild := by
  have hpop : Ends k.stack.popScriptObject (s.context gmView k.thread) (fun _ c => c.world = s.world) NotWild := by
    unfold Ends GMScriptStack.popScriptObject
    by_cases hn : k.stack.numPopped = k.stack.numParams
    · rw [if_pos hn]
      rfl
    · rw [if_neg hn]
      cases k.stack.call with
      | some call =>
        simp only
        cases call.returnVar with
        | none => rfl
        | some x =>
          cases x with
          | user type ref =>
            by_cases ht : type = gmUser
            · simp only [if_pos ht]
              rfl
            · simp only [if_neg ht]
              rfl
          | _ => rfl
      | none =>
        simp only
        rcases ((s.context gmView k.thread).thread.paramUserObject
          (k.stack.numParams - k.stack.numPopped - 1)) with _ | _ | ref
        · rfl
        · exact fun h => by cases h
        · rfl
  refine (onThread_ends hpop).bind ?_
  rintro _ _ ⟨c, hw, rfl⟩
  exact .pure ⟨rfl, .of_eq _ hw⟩

/-- The GameMonkey backend keeps to the laws of wrappers. -/
theorem gmWrappers_lawful : gmWrappers.Lawful where
  construct _ _ hf _ := construct_ends hf
  constructed k desc p st s w _ hp := @constructed_ends s k p desc st w hp
  early _ _ _ := rfl
  pushNew _ _ _ _ hf _ := pushNew_ends hf
  pushObject _ _ _ _ _ hp := pushObject_ends hp
  popObject _ _ _ := popObject_ends
  method k v s hf ha := (method_ends hf ha (fun _ h => by cases h) (fun _ => .assertion _) fun _ => .assertion _).mono
    fun _ _ h => h.1
  text k v s _ ha := by
    have hends := toText_ends (k := k) ha (E := NotWild) (fun _ h => by cases h) (fun _ => .assertion _)
      (fun _ h => by cases h) fun _ _ _ _ => .assertion _
    exact hends.mono fun r s' h => ⟨fun m hm => (h.1.1 m hm).1, h.1.2.2⟩
  destroy _ _ _ _ ha := destroy_ends ha (fun _ => .assertion _) fun _ h => by cases h
  finalise _ _ _ _ ha := finalise_ends ha (fun _ => .assertion _) fun _ h => by cases h

end MultiScript.GameMonkey
