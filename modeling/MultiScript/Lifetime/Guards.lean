/-
What a script can still do with an object it has destroyed. The value is there, and its
wrapper has no object in it. `Guards` says of a backend which of its callbacks look at
`m_objectPtr` before they call the user; where they do not, the user is given `NULL`,
and where they do, the assertion does not return. `fine` is what is left.
-/
import MultiScript.Lifetime.Machine

namespace MultiScript.Lifetime

open Act Run

/-- What a script does with an object. `st` is the stack a user's destructor leaves. -/
inductive Touch (K S : Type)
  | method (k : K)
  | text (k : K)
  | destroy (k : K) (st : S)

variable {Fr W K S : Type}

def Touch.ops (v : Nat) : Touch K S → List (Op Fr W K S)
  | .method k => [.method k v]
  | .text k => [.text k v]
  | .destroy k st => [.destroy k v, .ret st]

/-- A callback of the user is given a wrapper without an object. -/
def CalledEmpty (o : Option Mark) : Prop := ∃ f desc p, o = some (.called f desc p none)

/-- The loop that `MultiScriptAssert` enters. -/
def Asserts (f : Fault) : Prop := ∃ text, f = .assertion text

/-- The callbacks of a backend, seen from outside. `answer` is what the user answers, and
`calls` says that a to-string call asks for `m_objectPtr` even where no user is called.
`Made` says that a value is an instance of a class, with what its wrapper says of the
class, and `Belongs` that a callback is one of the class. -/
structure Guards (b : Backend Fr W K S) where
  answer : K → Bool
  calls : Bool
  Made : ClassDesc → Nat → Option ClassDesc → W → Prop
  Belongs : ClassDesc → Touch K S → W → Prop

namespace Guards

variable {b : Backend Fr W K S} (g : Guards b)

/-- While the object is `live`: every method of the user has to answer `true`. Once it is
not, a to-string call that comes to no user and asks for no object is all that is left. -/
def fine (desc : ClassDesc) (live : Bool) : Touch K S → Bool
  | .method k => live && g.answer k
  | .text k => if desc.toStringMethod.isSome then live && g.answer k else live || !g.calls
  | .destroy _ _ => live

def after (live : Bool) : Touch K S → Bool
  | .destroy _ _ => false
  | _ => live

/-- Nothing in the sequence comes too late. -/
def Timely (desc : ClassDesc) (ts : List (Touch K S)) : Bool := Machine.accepts (g.fine desc) after true ts

/-- The wrapper of a value, made as an instance of the class. -/
structure Wraps (desc : ClassDesc) (v : Nat) (s : VmState Fr W) (p : Nat) (w : ScriptObject) : Prop where
  bound : b.bound s.world v = some p
  get : s.objects.get p = some w
  made : g.Made desc v w.classInfo s.world

/-- An object of the class that is not destroyed. -/
def Instance (desc : ClassDesc) (v : Nat) (s : VmState Fr W) : Prop :=
  ∃ p w, g.Wraps desc v s p w ∧ w.objectPtr.isSome = true

/-- The class and what the callbacks do: they ask for the object where they say so, assert
that the user has answered `true`, and stop for no other reason. -/
structure Lawful : Prop where
  method : ∀ desc k v s p w, g.Wraps desc v s p w → g.Belongs desc (.method k) s.world →
    Ends (b.method k v) s
      (fun m s' => m.objectPtr = w.objectPtr ∧ g.answer k = true ∧ s'.objects = s.objects ∧ s'.world = s.world)
      (fun f => Asserts f ∧ (w.objectPtr.isSome && g.answer k) = false)
  text : ∀ desc k v s p w, g.Wraps desc v s p w → g.Belongs desc (.text k) s.world →
    Ends (b.text k v) s
      (fun r s' => (∀ m, r = some m → m.objectPtr = w.objectPtr ∧ g.answer k = true) ∧
        r.isSome = desc.toStringMethod.isSome ∧ (g.calls = true → w.objectPtr.isSome = true) ∧
        s'.objects = s.objects ∧ s'.world = s.world)
      (fun f => Asserts f ∧ ((g.calls = true ∧ w.objectPtr = none) ∨
        (desc.toStringMethod.isSome = true ∧ g.answer k = false)))
  destroy : ∀ desc k v s p w st, g.Wraps desc v s p w → g.Belongs desc (.destroy k st) s.world →
    Ends (b.destroy k v) s
      (fun m s' => m.scriptObject = p ∧ m.objectPtr = w.objectPtr ∧
        s'.objects = s.objects.write p { w with lockedByScript := true } ∧ s'.world = s.world)
      (fun f => Asserts f ∧ w.objectPtr = none)
  finalise : ∀ desc k v s p w, g.Wraps desc v s p w →
    Ends (b.finalise k v) s (fun r _ => ∀ q m, r = some (q, some m) → m.objectPtr.isSome = true) (fun _ => False)

/-! ## What the wrapper of a value tells -/

section Wrappers

variable {g} {desc : ClassDesc} {v p : Nat} {s : VmState Fr W} {w : ScriptObject}

theorem Wraps.alive (h : g.Wraps desc v s p w) : b.Alive v s := by
  intro q hq
  obtain rfl : p = q := Option.some.inj (h.bound.symm.trans hq)
  exact ⟨w, h.get⟩

theorem Wraps.not_null (h : g.Wraps desc v s p w) : b.bound s.world v ≠ none := by
  rw [h.bound]
  exact fun hnone => by cases hnone

theorem Wraps.empty_iff (h : g.Wraps desc v s p w) : b.Empty v s ↔ w.objectPtr = none := by
  constructor
  · rintro ⟨q, w', hb, hget, hnone⟩
    obtain rfl : p = q := Option.some.inj (h.bound.symm.trans hb)
    obtain rfl : w = w' := Option.some.inj (h.get.symm.trans hget)
    exact hnone
  · exact fun hnone => ⟨p, w, h.bound, h.get, hnone⟩

theorem Wraps.full (h : g.Wraps desc v s p w) (hfull : ¬ b.Empty v s) : w.objectPtr.isSome = true := by
  cases hptr : w.objectPtr with
  | none => exact absurd (h.empty_iff.mpr hptr) hfull
  | some x => rfl

theorem Wraps.saw {f : Callback} {k : K} {m : Seen} {w' : ScriptObject} (h : g.Wraps desc v s p w)
    (hm : b.Saw f k v s m w') :
    m.scriptObject = p ∧ w' = w := by
  have hp : m.scriptObject = p := Option.some.inj (hm.bound.symm.trans h.bound)
  refine ⟨hp, Option.some.inj ?_⟩
  rw [← hm.get, hp, h.get]

/-- A finaliser asks for the object. -/
theorem finalises_full {s' : VmState Fr W} {r : Option (Nat × Option Seen)} (h : b.Finalises v s s' r) :
    ∀ q m, r = some (q, some m) → m.objectPtr.isSome = true := by
  intro q m hr
  cases h with
  | unhooked => cases hr
  | deleted => cases hr
  | collects _ _ hm _ _ hptr =>
    cases hr
    rw [hm]
    exact hptr

end Wrappers

/-! ## Runs -/

/-- What holds between the calls: nothing has happened but to the object. -/
structure Holds (desc : ClassDesc) (v : Nat) (world : W) (live : Bool) (s : Script Fr W K) : Prop where
  world : s.vm.world = world
  wrapper : ∃ p w, g.Wraps desc v s.vm p w ∧ w.objectPtr.isSome = live

variable {g} {desc : ClassDesc} {v : Nat} {world : W} {live : Bool} {s : Script Fr W K}

theorem Wraps.kept {vm vm' : VmState Fr W} {p : Nat} {w w' : ScriptObject} (h : g.Wraps desc v vm p w)
    (hworld : vm'.world = vm.world) (hget : vm'.objects.get p = some w') (hclass : w'.classInfo = w.classInfo) :
    g.Wraps desc v vm' p w' :=
  ⟨by rw [hworld, h.bound], hget, by rw [hworld, hclass]; exact h.made⟩

/-- A call that has changed nothing. -/
theorem Holds.same {vm : VmState Fr W} (h : g.Holds desc v world live s) (ho : vm.objects = s.vm.objects)
    (hw : vm.world = s.vm.world) : g.Holds desc v world live { s with vm } := by
  obtain ⟨p, w, hwraps, hlive⟩ := h.wrapper
  have hget : vm.objects.get p = some w := by rw [ho, hwraps.get]
  exact ⟨hw.trans h.world, p, w, hwraps.kept hw hget rfl, hlive⟩

/-- A run goes on after a call that returns. -/
theorem quiet_perform {α : Type} {m : VmM Fr W α} {a : α} {vm : VmState Fr W}
    {k : α → VmState Fr W → Option Mark × Script Fr W K}
    {e : Op Fr W K S} {es : List (Op Fr W K S)} (hstep : b.step e s = s.perform m k) (h : m s.vm = .ok (a, vm)) :
    b.machine.Quiet CalledEmpty Asserts (e :: es) s ↔
      ¬ CalledEmpty (k a vm).1 ∧ b.machine.Quiet CalledEmpty Asserts es (k a vm).2 := by
  refine Machine.quiet_cons ?_
  show b.step e s = _
  rw [hstep]
  simp only [Script.perform, h]

theorem not_quiet_perform {α : Type} {m : VmM Fr W α} {f : Fault} {k : α → VmState Fr W → Option Mark × Script Fr W K}
    {e : Op Fr W K S} {es : List (Op Fr W K S)} (hstep : b.step e s = s.perform m k) (h : m s.vm = .error f)
    (hf : Asserts f) : ¬ b.machine.Quiet CalledEmpty Asserts (e :: es) s := by
  have herror : b.machine.step e s = .error f := by
    show b.step e s = _
    rw [hstep]
    simp only [Script.perform, h]
  rw [Machine.quiet_cons_error herror]
  exact fun hno => hno hf

/-- Nothing was called, or a wrapper came to its end. -/
theorem calledEmpty_none : ¬ CalledEmpty none := by
  rintro ⟨f, desc, p, h⟩
  cases h

theorem calledEmpty_deleted {p : Nat} : ¬ CalledEmpty (some (.deleted p)) := by
  rintro ⟨f, desc, q, h⟩
  cases h

/-- The mark of a call that was given an object. -/
theorem not_calledEmpty {m : Seen} {f : Callback} (h : m.objectPtr.isSome = true) :
    ¬ CalledEmpty (some (m.mark f)) := by
  rintro ⟨f', d, p, hm⟩
  have hnone : m.objectPtr = none := by
    unfold Seen.mark at hm
    injection hm with hm
    injection hm
  rw [hnone] at h
  cases h

theorem calledEmpty {m : Seen} {f : Callback} (h : m.objectPtr = none) : CalledEmpty (some (m.mark f)) :=
  ⟨f, m.desc, m.scriptObject, by rw [Seen.mark, h]⟩

/-- What becomes of a call in time. -/
theorem touch_good (hg : g.Lawful) {t : Touch K S} (hs : g.Holds desc v world live s) (ht : g.Belongs desc t world)
    (hfine : g.fine desc live t = true) : ∃ s', g.Holds desc v world (after live t) s' ∧
      ∀ es, b.machine.Quiet CalledEmpty Asserts (t.ops v ++ es) s ↔ b.machine.Quiet CalledEmpty Asserts es s' := by
  obtain ⟨p, w, hwraps, hlive⟩ := hs.wrapper
  rw [← hs.world] at ht
  cases t with
  | method k =>
    have hends := hg.method desc k v s.vm p w hwraps ht
    obtain ⟨hl, hanswer⟩ : live = true ∧ g.answer k = true := by simpa [fine] using hfine
    cases hm : b.method k v s.vm with
    | error f =>
      have hf := (hends.error hm).2
      rw [hlive, hl, hanswer] at hf
      cases hf
    | ok r =>
      obtain ⟨m, vm⟩ := r
      obtain ⟨hptr, -, ho, hw⟩ := hends.ok hm
      refine ⟨{ s with vm }, hs.same ho hw, fun es => ?_⟩
      refine (quiet_perform rfl hm).trans (and_iff_right (not_calledEmpty ?_))
      rw [hptr, hlive, hl]
  | text k =>
    have hends := hg.text desc k v s.vm p w hwraps ht
    cases hm : b.text k v s.vm with
    | error f =>
      rcases (hends.error hm).2 with ⟨hcalls, hnone⟩ | ⟨htext, hanswer⟩
      · rw [hnone] at hlive
        subst hlive
        simp [fine, hcalls] at hfine
      · simp [fine, htext, hanswer] at hfine
    | ok r =>
      obtain ⟨r, vm⟩ := r
      obtain ⟨hptr, hsome, -, ho, hw⟩ := hends.ok hm
      refine ⟨{ s with vm }, hs.same ho hw, fun es => ?_⟩
      refine (quiet_perform rfl hm).trans (and_iff_right ?_)
      cases r with
      | none => exact calledEmpty_none
      | some m =>
        have htext : desc.toStringMethod.isSome = true := hsome.symm
        have hl : live = true := by
          simp only [fine, htext, if_true, Bool.and_eq_true] at hfine
          exact hfine.1
        refine not_calledEmpty ?_
        rw [(hptr m rfl).1, hlive, hl]
  | destroy k st =>
    have hends := hg.destroy desc k v s.vm p w st hwraps ht
    have hl : live = true := hfine
    cases hm : b.destroy k v s.vm with
    | error f =>
      have hnone := (hends.error hm).2
      rw [hnone, hl] at hlive
      cases hlive
    | ok r =>
      obtain ⟨m, vm⟩ := r
      obtain ⟨rfl, hptr, ho, hw⟩ := hends.ok hm
      let s₁ : Script Fr W K := { s with
        vm, running := (.destroying m.scriptObject, k, s.vm.frame (b.thread k)) :: s.running }
      have hlocked : vm.objects.get m.scriptObject = some { w with lockedByScript := true } := by
        rw [ho]
        exact Objects.write_get_self
      have hdone : changeObjects (·.destroyed m.scriptObject) s₁.vm = .ok ((), { vm with
          objects := vm.objects.write m.scriptObject { w with lockedByScript := false, objectPtr := none } }) := by
        show changeObjects (·.destroyed m.scriptObject) vm = _
        simp [changeObjects, onObjects, Objects.destroyed, Objects.read_some hlocked, Except.map]
      let s₂ : Script Fr W K := { s with vm := b.leave k (s.vm.frame (b.thread k)) { vm with
          objects := vm.objects.write m.scriptObject { w with lockedByScript := false, objectPtr := none } } }
      have hwraps₂ : g.Wraps desc v s₂.vm m.scriptObject { w with lockedByScript := false, objectPtr := none } :=
        hwraps.kept hw Objects.write_get_self rfl
      refine ⟨s₂, ⟨hw.trans hs.world, _, _, hwraps₂, rfl⟩, fun es => ?_⟩
      have hgood : ¬ CalledEmpty (some (m.mark .destroy)) := not_calledEmpty (by rw [hptr, hlive, hl])
      refine (@quiet_perform _ _ _ _ b s _ _ _ _ _ _ (.ret st :: es) rfl hm).trans ((and_iff_right hgood).trans ?_)
      refine (@quiet_perform _ _ _ _ b s₁ _ _ _ _ _ _ es rfl hdone).trans (and_iff_right ?_)
      exact calledEmpty_none

/-- A call that comes too late is not quiet. -/
theorem touch_bad (hg : g.Lawful) {t : Touch K S} (hs : g.Holds desc v world live s) (ht : g.Belongs desc t world)
    (hfine : g.fine desc live t = false) (es : List (Op Fr W K S)) :
    ¬ b.machine.Quiet CalledEmpty Asserts (t.ops v ++ es) s := by
  obtain ⟨p, w, hwraps, hlive⟩ := hs.wrapper
  rw [← hs.world] at ht
  have hempty : live = false → w.objectPtr = none := by
    rintro rfl
    simpa using hlive
  cases t with
  | method k =>
    have hends := hg.method desc k v s.vm p w hwraps ht
    cases hm : b.method k v s.vm with
    | error f => exact not_quiet_perform rfl hm (hends.error hm).1
    | ok r =>
      obtain ⟨m, vm⟩ := r
      obtain ⟨hptr, hanswer, -⟩ := hends.ok hm
      have hl : live = false := by simpa [fine, hanswer] using hfine
      intro hq
      exact ((quiet_perform rfl hm).mp hq).1 (calledEmpty (hptr.trans (hempty hl)))
  | text k =>
    have hends := hg.text desc k v s.vm p w hwraps ht
    cases hm : b.text k v s.vm with
    | error f => exact not_quiet_perform rfl hm (hends.error hm).1
    | ok r =>
      obtain ⟨r, vm⟩ := r
      obtain ⟨hptr, hsome, hcalls, -⟩ := hends.ok hm
      intro hq
      have hmark := ((quiet_perform rfl hm).mp hq).1
      cases r with
      | none =>
        have htext : desc.toStringMethod.isSome = false := hsome.symm
        obtain ⟨hl, hc⟩ : live = false ∧ g.calls = true := by simpa [fine, htext] using hfine
        have hthere := hcalls hc
        rw [hempty hl] at hthere
        cases hthere
      | some m =>
        obtain ⟨hm, hanswer⟩ := hptr m rfl
        have htext : desc.toStringMethod.isSome = true := hsome.symm
        have hl : live = false := by simpa [fine, htext, hanswer] using hfine
        exact hmark (calledEmpty (hm.trans (hempty hl)))
  | destroy k st =>
    have hends := hg.destroy desc k v s.vm p w st hwraps ht
    have hl : live = false := hfine
    cases hm : b.destroy k v s.vm with
    | error f => exact not_quiet_perform rfl hm (hends.error hm).1
    | ok r =>
      obtain ⟨m, vm⟩ := r
      obtain ⟨-, hptr, -⟩ := hends.ok hm
      intro hq
      exact ((quiet_perform rfl hm).mp hq).1 (calledEmpty (hptr.trans (hempty hl)))

/-- A finaliser calls nobody with `NULL`. -/
theorem finalise_quiet (hg : g.Lawful) {k : K} (hs : g.Holds desc v world live s) :
    b.machine.Quiet CalledEmpty Asserts [.finalise k v] s := by
  obtain ⟨p, w, hwraps, -⟩ := hs.wrapper
  have hends := hg.finalise desc k v s.vm p w hwraps
  cases hm : b.finalise k v s.vm with
  | error f => exact (hends.error hm).elim
  | ok r =>
    obtain ⟨r, vm⟩ := r
    refine (quiet_perform rfl hm).mpr ⟨?_, trivial⟩
    rcases r with _ | ⟨q, _ | m⟩
    · exact calledEmpty_none
    · exact calledEmpty_deleted
    · exact not_calledEmpty (hends.ok hm q m rfl)

/-- The calls on an object in order, then its end: nobody is called with `NULL` and nothing
asserts exactly if none of them comes too late. -/
theorem Lawful.quiet_iff_timely (hg : g.Lawful) {ts : List (Touch K S)} {k : K}
    (hi : g.Instance desc v s.vm) (ht : ∀ t ∈ ts, g.Belongs desc t s.vm.world) :
    b.machine.Quiet CalledEmpty Asserts (ts.flatMap (Touch.ops v) ++ [.finalise k v]) s ↔ g.Timely desc ts = true :=
  Machine.quiet_iff_accepts (I := g.Holds desc v s.vm.world) (W := fun t => g.Belongs desc t s.vm.world)
    (fun _ t _ hs ht hfine => touch_good hg (t := t) hs ht hfine)
    (fun _ t _ hs ht hfine => touch_bad hg (t := t) hs ht hfine) (fun _ _ hs => finalise_quiet hg hs) ⟨rfl, hi⟩ ht

end Guards

end MultiScript.Lifetime
