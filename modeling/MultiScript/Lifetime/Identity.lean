/-
Whose wrapper a callback is given. A value that was made for a class points to a
wrapper that was made for the same class, as long as a constructor gives its wrapper
to the value it makes. So a callback of a class is given a wrapper of that class
where it is called on a value of it, and where a finaliser goes by the class of its
value (`Matching`).
-/
import MultiScript.Lifetime.Machine

namespace MultiScript.Lifetime

open Run

/-- The class of a call is the class of the value it is made on, and a constructor gives
its wrapper to the value it answers. -/
def Matching (s : Life) : Label → Prop
  | .constructed bind result => s.early = true ∨ bind = some result
  | .call _ desc v => desc = s.made v
  | .finalise v consulted => ∀ desc, consulted = some desc → s.made v = some desc
  | _ => True

/-- Values and their wrappers were made for the same class. -/
structure Known (s : Life) : Prop where
  value : ∀ v p desc, s.made v = some desc → s.Points v p → s.owner p = some desc
  building : ∀ p desc inst, .constructing p desc inst ∈ s.running → s.owner p = some desc

/-- Every callback so far was given a wrapper of its class. -/
def Given (s : Life) (os : List (Option Mark)) : Prop :=
  ∀ f desc p x, some (.called f desc p x) ∈ os → p < s.objects.next ∧ s.owner p = some desc

variable {s s' : Life} {l : Label} {o : Option Mark}

/-- The class of a wrapper does not change. -/
theorem owner_update {p : Nat} {desc : ClassDesc} (hp : p < s.objects.next) :
    Function.update s.owner s.objects.next (some desc) p = s.owner p :=
  Function.update_of_ne (by omega) ..

theorem Step.owner (hs : Step l s o s') {p : Nat} (hp : p < s.objects.next) :
    s'.owner p = s.owner p ∧ p < s'.objects.next := by
  cases hs with
  | constructLate => exact ⟨owner_update hp, Nat.lt_succ_of_lt hp⟩
  | constructEarly => exact ⟨owner_update hp, Nat.lt_succ_of_lt hp⟩
  | pushNew => exact ⟨owner_update hp, Nat.lt_succ_of_lt hp⟩
  | _ => exact ⟨rfl, hp⟩

theorem Known.building_lt (h : Sound s) {p : Nat} {desc : ClassDesc} {inst : Option Nat}
    (hr : .constructing p desc inst ∈ s.running) : p < s.objects.next := by
  obtain ⟨w, hp⟩ := h.inUse _ hr
  exact h.lt_next hp

theorem Known.points_lt (h : Sound s) {v p : Nat} (hv : s.Points v p) : p < s.objects.next := by
  obtain ⟨w, hp⟩ := h.alive v p hv
  exact h.lt_next hp

/-- A new wrapper, and a value that is made to point to it. -/
theorem Known.new_value {desc : ClassDesc} {u : Nat} (hk : Known s) (h : Sound s) {v p : Nat} {d : ClassDesc}
    (hm : Function.update s.made u (some desc) v = some d)
    (hv : Function.update s.bound u (some s.objects.next) v = some p) (hf : s.finalised v = false) :
    Function.update s.owner s.objects.next (some desc) p = some d := by
  by_cases he : v = u
  · subst he
    rw [Function.update_self] at hm hv
    cases hv
    rw [Function.update_self, hm]
  · rw [Function.update_of_ne he] at hm hv
    rw [owner_update (Known.points_lt h ⟨hv, hf⟩)]
    exact hk.value v p d hm ⟨hv, hf⟩

theorem Known.new_building {desc : ClassDesc} (hk : Known s) (h : Sound s) {p : Nat} {d : ClassDesc} {i : Option Nat}
    (hr : .constructing p d i ∈ s.running) : Function.update s.owner s.objects.next (some desc) p = some d := by
  rw [owner_update (Known.building_lt h hr)]
  exact hk.building p d i hr

/-- What a step keeps, where the classes match. -/
theorem Step.known (hs : Step l s o s') (h : Sound s) (hk : Known s) (hm : Matching s l) : Known s' := by
  cases hs with
  | other hn => exact ⟨hk.value, hk.building⟩
  | @constructLate _ desc w inst next he hw hn =>
    refine ⟨fun v p d hd hv => ?_, fun p d i hr => ?_⟩
    · exact (owner_update (Known.points_lt h hv)).trans (hk.value v p d hd hv)
    · rcases List.mem_cons.mp hr with heq | hr
      · cases heq
        exact Function.update_self ..
      · exact hk.new_building h hr
  | @constructEarly _ desc w next he hw hn =>
    refine ⟨fun v p d hd hv => hk.new_value h hd hv.1 hv.2, fun p d i hr => ?_⟩
    rcases List.mem_cons.mp hr with heq | hr
    · cases heq
      exact Function.update_self ..
    · exact hk.new_building h hr
  | assign hp hr => exact ⟨hk.value, hk.building⟩
  | @constructed _ p result desc inst bind rest w next hr hp hptr hbind hv hn =>
    have hrest : ∀ a ∈ rest, a ∈ s.running := fun a ha => by simp [hr, ha]
    refine ⟨fun v q d hd hq => ?_, fun q d i hmem => hk.building q d i (hrest _ hmem)⟩
    cases he : s.early with
    | true =>
      rw [hbind he] at hq
      simp only [he, if_true] at hd
      exact hk.value v q d hd hq
    | false =>
      obtain rfl : bind = some result := by
        rcases hm with hm | hm
        · rw [he] at hm
          cases hm
        · exact hm
      simp only [he, Bool.false_eq_true, if_false] at hd
      obtain ⟨hq, hf⟩ := hq
      have hq' : Function.update s.bound result (some p) v = some q := hq
      by_cases hvr : v = result
      · subst hvr
        rw [Function.update_self] at hd hq'
        cases hq'
        rw [← hd]
        exact hk.building p desc inst (by simp [hr])
      · rw [Function.update_of_ne hvr] at hd hq'
        exact hk.value v q d hd ⟨hq', hf⟩
  | @pushNew _ desc w v next hw hv hn =>
    exact ⟨fun u p d hd hu => hk.new_value h hd hu.1 hu.2, fun p d i hr => hk.new_building h hr⟩
  | call hf hv hp => exact hk
  | silent => exact hk
  | destroy hv hp => exact ⟨hk.value, fun q d i hr => hk.building q d i (List.mem_of_ne_of_mem (by simp) hr)⟩
  | destroyed hr hp => exact ⟨hk.value, fun q d i hmem => hk.building q d i (by simp [hr, hmem])⟩
  | finaliseUnhooked hv => exact ⟨fun v p d hd hv => hk.value v p d hd ⟨hv.1, unfinalised hv.2⟩, hk.building⟩
  | finaliseDelete hn hv hp hr hd => exact ⟨fun v p d hd hv => hk.value v p d hd ⟨hv.1, unfinalised hv.2⟩, hk.building⟩
  | finaliseCollect hn hv hp hr hptr hd =>
    exact ⟨fun v p d hd hv => hk.value v p d hd ⟨hv.1, unfinalised hv.2⟩,
      fun q d i hr => hk.building q d i (List.mem_of_ne_of_mem (by simp) hr)⟩
  | finalised hr hp => exact ⟨hk.value, fun q d i hmem => hk.building q d i (by simp [hr, hmem])⟩
  | releaseLocked hp hl => exact hk
  | releaseUnused hp hl hu => exact ⟨hk.value, hk.building⟩

/-- The callback of a step is given a wrapper of its class. -/
theorem Step.given (hs : Step l s o s') (h : Sound s) (hk : Known s) (hm : Matching s l) {f : Callback}
    {desc : ClassDesc}
    {p : Nat} {x : Option Nat} (ho : o = some (.called f desc p x)) : p < s.objects.next ∧ s.owner p = some desc := by
  cases hs with
  | @call _ f' desc' v q w hf hv hp =>
    cases ho
    exact ⟨Known.points_lt h hv, hk.value v _ _ hm.symm hv⟩
  | @destroy _ desc' v q w hv hp =>
    cases ho
    exact ⟨Known.points_lt h hv, hk.value v _ _ hm.symm hv⟩
  | @finaliseCollect _ v q desc' w hn hv hp hr hptr hd =>
    cases ho
    exact ⟨Known.points_lt h hv, hk.value v _ _ (hm _ rfl) hv⟩
  | _ => cases ho

/-- Over a whole run, every callback is given a wrapper of its class. -/
theorem Backend.run_given {Fr W K S : Type} {b : Backend Fr W K S} (hb : b.Lawful) {frame : Nat → Fr} {world : W}
    (hw : ∀ v, b.bound world v = none) {es : List (Op Fr W K S)} {os : List (Option Mark)} {s' : Script Fr W K}
    (hm : b.machine.Meets (fun e s => b.Allowed e s ∧ Matching (b.life s) (b.label s e)) es (.start frame world))
    (hr : b.machine.run es (.start frame world) = .ok (os, s')) : Given (b.life s') os := by
  have hstep : ∀ os e s o s', (Sound (b.life s) ∧ Known (b.life s) ∧ Given (b.life s) os) →
      (b.Allowed e s ∧ Matching (b.life s) (b.label s e)) → b.machine.step e s = .ok (o, s') →
      Sound (b.life s') ∧ Known (b.life s') ∧ Given (b.life s') (os ++ [o]) := by
    rintro os e s o s' ⟨hs, hk, hg⟩ ⟨hallowed, hmatch⟩ h
    obtain ⟨hstep, hs'⟩ := step_sound hb hs hallowed h
    refine ⟨hs', hstep.known hs hk hmatch, fun f desc p x hmem => ?_⟩
    have hold : p < (b.life s).objects.next ∧ (b.life s).owner p = some desc := by
      rcases List.mem_append.mp hmem with hmem | hmem
      · exact hg f desc p x hmem
      · exact hstep.given hs hk hmatch (List.mem_singleton.mp hmem).symm
    obtain ⟨howner, hlt⟩ := hstep.owner hold.1
    exact ⟨hlt, howner.trans hold.2⟩
  have hknown : Known (b.life (Script.start frame world)) :=
    ⟨fun v p desc hd => (by cases hd), fun p desc inst hmem => (by cases hmem)⟩
  have hgiven : Given (b.life (Script.start frame world)) [] := fun f desc p x hmem => absurd hmem (by simp)
  exact (Machine.run_traced hstep ⟨start_sound hw, hknown, hgiven⟩ hm hr).2.2

end MultiScript.Lifetime
