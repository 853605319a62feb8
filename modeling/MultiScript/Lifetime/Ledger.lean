/-
What has been done to each wrapper so far, against the state it is in. While a
value holds a wrapper, its destructor has been called by `Destroy` alone, and not at
all for a class that is collected. Once the value is finalised, the wrapper is
deleted, once, and that is the last of it; and for a class that is collected the
destructor was called once before, with the object.

That is so where `Release` is called on locked wrappers only and finalisers go by
the class of the object (`Orderly`).
-/
import MultiScript.Lifetime.Machine
import Mathlib.Data.List.Pairwise

namespace MultiScript.Lifetime

open Run

/-- The marks on the way to the end of a wrapper: a call of its destructor, and `delete`. -/
def Mark.ends (p : Nat) : Mark → Bool
  | .called .destroy _ q _ => q == p
  | .called .collect _ q _ => q == p
  | .deleted q => q == p
  | _ => false

def Life.Constructs (s : Life) (p : Nat) : Prop := ∃ desc inst, .constructing p desc inst ∈ s.running

/-- A value holds the wrapper, or a constructor is about to give it to one. -/
def Life.Held (s : Life) (p : Nat) : Prop := (∃ v, s.Points v p) ∨ s.early = false ∧ s.Constructs p

/-- The value of the wrapper is gone. -/
def Life.Ended (s : Life) (p : Nat) : Prop := ∃ v, s.bound v = some p ∧ s.finalised v = true

/-- Calls of the destructor by `Destroy`. -/
def OnlyDestroys (p : Nat) (ms : List Mark) : Prop := ∀ m ∈ ms, ∃ desc x, m = .called .destroy desc p x

/-- The account of a wrapper of which `ms` is known. -/
inductive Account (s : Life) (p : Nat) (ms : List Mark) : Prop
  /-- It is not made yet. -/
  | future (hp : s.objects.next ≤ p) (hb : ∀ v, s.bound v ≠ some p) (hms : ms = [])
  /-- It is held. -/
  | held {desc : ClassDesc} {w : ScriptObject} (ho : s.owner p = some desc) (hp : s.objects.get p = some w)
      (hheld : s.Held p) (hlive : ∀ v, s.bound v = some p → s.finalised v = false) (hms : OnlyDestroys p ms)
      (hgc : desc.garbageCollect = true →
        ms = [] ∧ .destroying p ∉ s.running ∧ (w.objectPtr.isSome = true ∨ s.Constructs p))
      (htag : s.tagged = true → w.classInfo = some desc)
  /-- Its destructor runs because its value is gone. -/
  | collecting {desc : ClassDesc} {w : ScriptObject} {x : Nat} (ho : s.owner p = some desc)
      (hp : s.objects.get p = some w)
      (hr : .finalising p ∈ s.running) (hended : s.Ended p) (hgc : desc.garbageCollect = true)
      (hms : ms = [.called .collect desc p (some x)])
  /-- It is deleted, and was collected. -/
  | collected {desc : ClassDesc} {x : Nat} (ho : s.owner p = some desc) (hlt : p < s.objects.next)
      (hp : s.objects.get p = none) (hended : s.Ended p) (hgc : desc.garbageCollect = true)
      (hms : ms = [.called .collect desc p (some x), .deleted p])
  /-- It is deleted, and was not collected. -/
  | dropped {desc : ClassDesc} {ds : List Mark} (ho : s.owner p = some desc) (hlt : p < s.objects.next)
      (hp : s.objects.get p = none) (hended : s.Ended p) (hgc : desc.garbageCollect = false) (hds : OnlyDestroys p ds)
      (hms : ms = ds ++ [.deleted p])

/-- Nothing has happened to the wrapper. -/
structure Same (p : Nat) (s s' : Life) : Prop where
  early : s'.early = s.early
  tagged : s'.tagged = s.tagged
  owner : s'.owner p = s.owner p
  get : s'.objects.get p = s.objects.get p
  next : s'.objects.next ≤ p ↔ s.objects.next ≤ p
  bound : ∀ v, s'.bound v = some p ↔ s.bound v = some p
  finalised : ∀ v, s.bound v = some p → s'.finalised v = s.finalised v
  running : ∀ a, a.wrapper = p → (a ∈ s'.running ↔ a ∈ s.running)

namespace Same

variable {p : Nat} {s s' : Life}

theorem points (h : Same p s s') {v : Nat} (hv : s.Points v p) : s'.Points v p :=
  ⟨(h.bound v).mpr hv.1, (h.finalised v hv.1).trans hv.2⟩

theorem constructs (h : Same p s s') : s'.Constructs p ↔ s.Constructs p := by
  constructor
  · rintro ⟨desc, inst, hmem⟩
    exact ⟨desc, inst, (h.running _ rfl).mp hmem⟩
  · rintro ⟨desc, inst, hmem⟩
    exact ⟨desc, inst, (h.running _ rfl).mpr hmem⟩

theorem held (h : Same p s s') (hh : s.Held p) : s'.Held p := by
  rcases hh with ⟨v, hv⟩ | ⟨he, hc⟩
  · exact .inl ⟨v, h.points hv⟩
  · exact .inr ⟨h.early.trans he, h.constructs.mpr hc⟩

theorem ended (h : Same p s s') : s.Ended p → s'.Ended p := by
  rintro ⟨v, hb, hf⟩
  exact ⟨v, (h.bound v).mpr hb, (h.finalised v hb).trans hf⟩

theorem live (h : Same p s s') (hl : ∀ v, s.bound v = some p → s.finalised v = false) :
    ∀ v, s'.bound v = some p → s'.finalised v = false := by
  intro v hv
  have hb := (h.bound v).mp hv
  exact (h.finalised v hb).trans (hl v hb)

end Same

theorem Account.same {p : Nat} {s s' : Life} {ms : List Mark} (h : Account s p ms) (hs : Same p s s') :
    Account s' p ms := by
  cases h with
  | future hp hb hms => exact .future (hs.next.mpr hp) (fun v hv => hb v ((hs.bound v).mp hv)) hms
  | held ho hp hheld hlive hms hgc htag =>
    refine .held (hs.owner.trans ho) (hs.get.trans hp) (hs.held hheld) (hs.live hlive) hms (fun hd => ?_)
      (fun ht => htag (hs.tagged ▸ ht))
    obtain ⟨hnil, hdest, hptr⟩ := hgc hd
    exact ⟨hnil, fun hmem => hdest ((hs.running _ rfl).mp hmem), hptr.imp id hs.constructs.mpr⟩
  | collecting ho hp hr hended hgc hms =>
    exact .collecting (hs.owner.trans ho) (hs.get.trans hp) ((hs.running _ rfl).mpr hr) (hs.ended hended) hgc hms
  | collected ho hlt hp hended hgc hms =>
    have hlt' := mt hs.next.mp (Nat.not_le.mpr hlt)
    exact .collected (hs.owner.trans ho) (Nat.not_le.mp hlt') (hs.get.trans hp) (hs.ended hended) hgc hms
  | dropped ho hlt hp hended hgc hds hms =>
    have hlt' := mt hs.next.mp (Nat.not_le.mpr hlt)
    exact .dropped (hs.owner.trans ho) (Nat.not_le.mp hlt') (hs.get.trans hp) (hs.ended hended) hgc hds hms

/-! ## One step -/

/-- What the host and the VM have to see to for that. -/
def Orderly (s : Life) : Label → Prop
  | .pushNew _ objectPtr => objectPtr.isSome = true
  | .call .destroy _ v => ∀ p desc, s.bound v = some p → s.owner p = some desc → desc.garbageCollect = false
  | .finalise v consulted => ∀ p desc, s.bound v = some p → s.owner p = some desc →
      consulted = some desc ∨ ∃ c, consulted = some c ∧ c.garbageCollect = false ∧ desc.garbageCollect = false
  | .release p => ∃ w, s.objects.get p = some w ∧ w.lockedByScript = true
  | _ => True

/-- The value that a constructor makes is new. -/
def Fresh (s : Life) : Label → Prop
  | .constructed bind _ => s.early = true ∨ bind = some s.next
  | _ => True

variable {s s' : Life} {p : Nat} {ms : List Mark}

/-- Nobody else works on the wrapper of an exclusive callback. -/
theorem Sound.alone {a c : Activity} (h : Sound s) (ha : a ∈ s.running) (hc : c ∈ s.running) (hne : a ≠ c)
    (he : a.exclusive s.early = true) : a.wrapper ≠ c.wrapper := by
  have hsymm : Std.Symm fun a b : Activity =>
      a.exclusive s.early = true ∨ b.exclusive s.early = true → a.wrapper ≠ b.wrapper :=
    ⟨fun a b hab hor => (hab hor.symm).symm⟩
  exact h.apart.forall ha hc hne (.inl he)

/-- What a value or a callback works on is held, or is being collected. -/
theorem Account.there {w : ScriptObject} (h : Account s p ms) (hs : Sound s) (hp : s.objects.get p = some w)
    (hr : .finalising p ∉ s.running) : ∃ desc, s.owner p = some desc ∧ s.Held p ∧
      (∀ v, s.bound v = some p → s.finalised v = false) ∧ OnlyDestroys p ms ∧
      (desc.garbageCollect = true → ms = [] ∧ .destroying p ∉ s.running ∧
        (w.objectPtr.isSome = true ∨ s.Constructs p)) ∧
      (s.tagged = true → w.classInfo = some desc) := by
  cases h with
  | future hlt hb hms =>
    rw [hs.fresh p hlt] at hp
    cases hp
  | held ho hp' hheld hlive hms hgc htag =>
    rw [hp] at hp'
    cases hp'
    exact ⟨_, ho, hheld, hlive, hms, hgc, htag⟩
  | collecting ho hp' hr' hended hgc hms => exact absurd hr' hr
  | collected ho hlt hp' hended hgc hms =>
    rw [hp] at hp'
    cases hp'
  | dropped ho hlt hp' hended hgc hds hms =>
    rw [hp] at hp'
    cases hp'

theorem Sound.not_running {a : Activity} (hs : Sound s) (hp : s.objects.next ≤ a.wrapper) : a ∉ s.running := by
  intro hmem
  obtain ⟨w, hget⟩ := hs.inUse a hmem
  rw [hs.fresh _ hp] at hget
  cases hget

/-- A callback starts on another wrapper. -/
theorem mem_push {a c : Activity} {running : List Activity} (hc : c.wrapper ≠ p) (ha : a.wrapper = p) :
    a ∈ c :: running ↔ a ∈ running := by
  rw [List.mem_cons]
  refine ⟨fun h => h.resolve_left ?_, .inr⟩
  rintro rfl
  exact hc ha

/-- The callback of another wrapper comes to its end. -/
theorem mem_pop {a c : Activity} {rest : List Activity} (hr : s.running = c :: rest) (hc : c.wrapper ≠ p)
    (ha : a.wrapper = p) : a ∈ rest ↔ a ∈ s.running := by
  rw [hr]
  exact (mem_push hc ha).symm

theorem Same.refl (p : Nat) (s : Life) : Same p s s :=
  ⟨rfl, rfl, rfl, rfl, Iff.rfl, fun _ => Iff.rfl, fun _ _ => rfl, fun _ _ => Iff.rfl⟩

/-- A value that pointed to nothing is made to point to another wrapper. -/
theorem bound_update {bound : Nat → Option Nat} {v u q : Nat} (hne : p ≠ q) (hu : bound u = none) :
    Function.update bound u (some q) v = some p ↔ bound v = some p := by
  by_cases he : v = u
  · subst he
    rw [Function.update_self, hu]
    simp only [Option.some.injEq, reduceCtorEq, iff_false]
    exact Ne.symm hne
  · rw [Function.update_of_ne he]

/-- The value of another wrapper is finalised. -/
theorem finalised_update {v u : Nat} (hv : s.bound v ≠ some p) (hu : s.bound u = some p) :
    Function.update s.finalised v true u = s.finalised u := by
  have hne : u ≠ v := by
    rintro rfl
    exact hv hu
  rw [Function.update_of_ne hne]

namespace Step

variable {l : Label} {o : Option Mark}

/-- The wrapper a step is about. -/
def subject (s : Life) : Label → Option Nat
  | .construct => some s.objects.next
  | .pushNew _ _ => some s.objects.next
  | .assign p _ => some p
  | .constructed _ _ => s.running.head?.map (·.wrapper)
  | .call _ _ v => s.bound v
  | .destroyed => s.running.head?.map (·.wrapper)
  | .finalise v _ => s.bound v
  | .finalised => s.running.head?.map (·.wrapper)
  | .release p => some p
  | .other => none

/-- Nothing happens to the other wrappers. -/
theorem same (hs : Step l s o s') (h : Sound s) (hf : Fresh s l) (hp : subject s l ≠ some p) : Same p s s' := by
  cases hs with
  | other hn => exact ⟨rfl, rfl, rfl, rfl, Iff.rfl, fun _ => Iff.rfl, fun _ _ => rfl, fun _ _ => Iff.rfl⟩
  | constructLate he hw hn =>
    have hne : p ≠ s.objects.next := fun h => hp (by simp [subject, h])
    have hge : s.objects.next + 1 ≤ p ↔ s.objects.next ≤ p := by omega
    exact ⟨rfl, rfl, Function.update_of_ne hne .., Objects.new_get_other hne, hge, fun _ => Iff.rfl, fun _ _ => rfl,
      fun a ha => mem_push (Ne.symm hne) ha⟩
  | constructEarly he hw hn =>
    have hne : p ≠ s.objects.next := fun h => hp (by simp [subject, h])
    have hge : s.objects.next + 1 ≤ p ↔ s.objects.next ≤ p := by omega
    exact ⟨rfl, rfl, Function.update_of_ne hne .., Objects.new_get_other hne, hge,
      fun v => bound_update hne (h.unborn _ (Nat.le_refl _)).1, fun _ _ => rfl, fun a ha => mem_push (Ne.symm hne) ha⟩
  | @assign _ q x w hget hr =>
    have hne : p ≠ q := fun h => hp (by simp [subject, h])
    exact ⟨rfl, rfl, rfl, Objects.write_get_other hne, Iff.rfl, fun _ => Iff.rfl, fun _ _ => rfl, fun _ _ => Iff.rfl⟩
  | @constructed _ q result desc inst bind rest w next hr hget hptr hbind hv hn =>
    have hne : p ≠ q := fun h => hp (by simp [subject, hr, Activity.wrapper, h])
    have hpop : ∀ a : Activity, a.wrapper = p → (a ∈ rest ↔ a ∈ s.running) := fun a ha => mem_pop hr (Ne.symm hne) ha
    cases bind with
    | none => exact ⟨rfl, rfl, rfl, rfl, Iff.rfl, fun _ => Iff.rfl, fun _ _ => rfl, hpop⟩
    | some u =>
      have hu : s.bound u = none := by
        rcases hf with he | he
        · exact absurd (hbind he) (by simp)
        · cases he
          exact (h.unborn _ (Nat.le_refl _)).1
      exact ⟨rfl, rfl, rfl, rfl, Iff.rfl, fun v => bound_update hne hu, fun _ _ => rfl, hpop⟩
  | pushNew hw hv hn =>
    have hne : p ≠ s.objects.next := fun h => hp (by simp [subject, h])
    have hge : s.objects.next + 1 ≤ p ↔ s.objects.next ≤ p := by omega
    exact ⟨rfl, rfl, Function.update_of_ne hne .., Objects.new_get_other hne, hge,
      fun v => bound_update hne (h.unborn _ hv).1, fun _ _ => rfl, fun _ _ => Iff.rfl⟩
  | call hf hv hget => exact .refl p s
  | silent => exact .refl p s
  | @destroy _ desc v q w hv hget =>
    have hne : p ≠ q := fun h => hp (by simp [subject, hv.1, h])
    exact ⟨rfl, rfl, rfl, Objects.write_get_other hne, Iff.rfl, fun _ => Iff.rfl, fun _ _ => rfl,
      fun a ha => mem_push (Ne.symm hne) ha⟩
  | @destroyed _ q rest w hr hget =>
    have hne : p ≠ q := fun h => hp (by simp [subject, hr, Activity.wrapper, h])
    exact ⟨rfl, rfl, rfl, Objects.write_get_other hne, Iff.rfl, fun _ => Iff.rfl, fun _ _ => rfl,
      fun a ha => mem_pop hr (Ne.symm hne) ha⟩
  | finaliseUnhooked hv =>
    exact ⟨rfl, rfl, rfl, rfl, Iff.rfl, fun _ => Iff.rfl, fun u hu => finalised_update hp hu, fun _ _ => Iff.rfl⟩
  | @finaliseDelete _ v q desc w hn hv hget hr hd =>
    have hne : p ≠ q := fun h => hp (by simp [subject, hv.1, h])
    exact ⟨rfl, rfl, rfl, without_get_other hne, Iff.rfl, fun _ => Iff.rfl, fun u hu => finalised_update hp hu,
      fun _ _ => Iff.rfl⟩
  | @finaliseCollect _ v q desc w hn hv hget hr hptr hd =>
    have hne : p ≠ q := fun h => hp (by simp [subject, hv.1, h])
    exact ⟨rfl, rfl, rfl, Objects.write_get_other hne, Iff.rfl, fun _ => Iff.rfl, fun u hu => finalised_update hp hu,
      fun a ha => mem_push (Ne.symm hne) ha⟩
  | @finalised _ q rest w hr hget =>
    have hne : p ≠ q := fun h => hp (by simp [subject, hr, Activity.wrapper, h])
    exact ⟨rfl, rfl, rfl, without_get_other hne, Iff.rfl, fun _ => Iff.rfl, fun _ _ => rfl,
      fun a ha => mem_pop hr (Ne.symm hne) ha⟩
  | releaseLocked hget hl => exact .refl p s
  | @releaseUnused _ q w hget hl hu =>
    have hne : p ≠ q := fun h => hp (by simp [subject, h])
    exact ⟨rfl, rfl, rfl, without_get_other hne, Iff.rfl, fun _ => Iff.rfl, fun _ _ => rfl, fun _ _ => Iff.rfl⟩

end Step

/-! ## Runs -/

end MultiScript.Lifetime
