/-
The life of a wrapper, in the terms of no backend. A script value points to a
wrapper. A constructor, a destructor and a finaliser run user code, and while it
runs everything else can happen. `Step` says what can happen at all: what the
operations of a backend do to the wrappers and to the values, one case for each,
where the VM keeps its promises and the host keeps to what it may do.

`Sound` is what holds in between. No live value points to a wrapper that was
deleted, no two point to the same, and what a running callback works on is there.
-/
import MultiScript.Objects

namespace MultiScript.Lifetime

/-- A callback whose user code is running. `inst` is the value under construction,
where there is one already. -/
inductive Activity
  | constructing (p : Nat) (desc : ClassDesc) (inst : Option Nat)
  | destroying (p : Nat)
  | finalising (p : Nat)

namespace Activity

def wrapper : Activity → Nat
  | constructing p _ _ => p
  | destroying p => p
  | finalising p => p

/-- No live value points to the wrapper. -/
def exclusive (early : Bool) : Activity → Bool
  | constructing _ _ _ => !early
  | destroying _ => false
  | finalising _ => true

end Activity

/-- The callbacks of the user that are given a wrapper; the destructor by `Destroy`, or
for a value that was collected. -/
inductive Callback
  | method
  | text
  | destroy
  | collect
deriving DecidableEq, Repr

/-- What can be seen of a step: a callback of a class, with its wrapper and what is in
`m_objectPtr` then, or the end of a wrapper. -/
inductive Mark
  | called (f : Callback) (desc : ClassDesc) (p : Nat) (objectPtr : Option Nat)
  | deleted (p : Nat)
deriving DecidableEq, Repr

/-- The wrappers, the values that point to them, and the callbacks that run, the last of
them first. `owner` is the class a wrapper was made for and `made` the class a value was.
`early` says that a value points to its wrapper while it is constructed, and `tagged`
that every wrapper knows its class. -/
structure Life where
  early : Bool
  tagged : Bool
  objects : Objects
  bound : Nat → Option Nat
  next : Nat
  finalised : Nat → Bool
  running : List Activity
  owner : Nat → Option ClassDesc
  made : Nat → Option ClassDesc

/-- What happens, as far as a condition on it needs to know. -/
inductive Label
  | other
  | construct
  | assign (p x : Nat)
  | constructed (bind : Option Nat) (result : Nat)
  | pushNew (desc : ClassDesc) (objectPtr : Option Nat)
  | call (f : Callback) (desc : Option ClassDesc) (v : Nat)
  | destroyed
  | finalise (v : Nat) (consulted : Option ClassDesc)
  | finalised
  | release (p : Nat)

/-- The end of a constructor makes a value point to the wrapper. -/
def rebind (bound : Nat → Option Nat) (p : Nat) : Option Nat → Nat → Option Nat
  | none => bound
  | some v => Function.update bound v (some p)

/-- A value that is there points to the wrapper. -/
def Life.Points (s : Life) (v p : Nat) : Prop := s.bound v = some p ∧ s.finalised v = false

/-- Nothing but the host knows the wrapper. -/
def Life.Unused (s : Life) (p : Nat) : Prop :=
  (∀ v, ¬ s.Points v p) ∧ ∀ a ∈ s.running, a.wrapper ≠ p

/-- A wrapper of a class as it is made. -/
structure Blank (tagged : Bool) (desc : ClassDesc) (w : ScriptObject) : Prop where
  unlocked : w.lockedByScript = false
  class_ : tagged = true → w.classInfo = some desc

/-- The wrappers without one. -/
def without (o : Objects) (p : Nat) : Objects := { o with get := Function.update o.get p none }

@[simp] theorem without_get_self {o : Objects} {p : Nat} : (without o p).get p = none := by simp [without]

theorem without_get_other {o : Objects} {p q : Nat} (h : q ≠ p) : (without o p).get q = o.get q := by
  simp [without, Function.update_of_ne h]

inductive Step : Label → Life → Option Mark → Life → Prop
  | other {s : Life} {next : Nat} (hn : s.next ≤ next) : Step .other s none { s with next }
  | constructLate {s : Life} {desc : ClassDesc} {w : ScriptObject} {inst : Option Nat} {next : Nat}
      (he : s.early = false)
      (hw : Blank s.tagged desc w) (hn : s.next ≤ next) :
      Step .construct s none { s with
        objects := s.objects.new w
        next
        running := .constructing s.objects.next desc inst :: s.running
        owner := Function.update s.owner s.objects.next (some desc) }
  | constructEarly {s : Life} {desc : ClassDesc} {w : ScriptObject} {next : Nat} (he : s.early = true)
      (hw : Blank s.tagged desc w)
      (hn : s.next < next) :
      Step .construct s none { s with
        objects := s.objects.new w
        bound := Function.update s.bound s.next (some s.objects.next)
        next
        running := .constructing s.objects.next desc (some s.next) :: s.running
        owner := Function.update s.owner s.objects.next (some desc)
        made := Function.update s.made s.next (some desc) }
  | assign {s : Life} {p x : Nat} {w : ScriptObject} (hp : s.objects.get p = some w)
      (hr : ∃ desc inst, .constructing p desc inst ∈ s.running) :
      Step (.assign p x) s none { s with objects := s.objects.write p { w with objectPtr := some x } }
  | constructed {s : Life} {p result : Nat} {desc : ClassDesc} {inst bind : Option Nat} {rest : List Activity}
      {w : ScriptObject} {next : Nat} (hr : s.running = .constructing p desc inst :: rest)
      (hp : s.objects.get p = some w) (hptr : w.objectPtr.isSome = true) (hbind : s.early = true → bind = none)
      (hv : ∀ v, bind = some v → v < next ∧ s.finalised v = false) (hn : s.next ≤ next) :
      Step (.constructed bind result) s none { s with
        bound := rebind s.bound p bind
        next
        running := rest
        made := if s.early then s.made else Function.update s.made result (some desc) }
  | pushNew {s : Life} {desc : ClassDesc} {w : ScriptObject} {v next : Nat} (hw : Blank s.tagged desc w)
      (hv : s.next ≤ v)
      (hn : v < next) :
      Step (.pushNew desc w.objectPtr) s none { s with
        objects := s.objects.new w
        bound := Function.update s.bound v (some s.objects.next)
        next
        owner := Function.update s.owner s.objects.next (some desc)
        made := Function.update s.made v (some desc) }
  | call {s : Life} {f : Callback} {desc : ClassDesc} {v p : Nat} {w : ScriptObject} (hf : f = .method ∨ f = .text)
      (hv : s.Points v p) (hp : s.objects.get p = some w) :
      Step (.call f (some desc) v) s (some (.called f desc p w.objectPtr)) s
  | silent {s : Life} {desc : Option ClassDesc} {v : Nat} : Step (.call .text desc v) s none s
  | destroy {s : Life} {desc : ClassDesc} {v p : Nat} {w : ScriptObject} (hv : s.Points v p)
      (hp : s.objects.get p = some w) :
      Step (.call .destroy (some desc) v) s (some (.called .destroy desc p w.objectPtr)) { s with
        objects := s.objects.write p { w with lockedByScript := true }
        running := .destroying p :: s.running }
  | destroyed {s : Life} {p : Nat} {rest : List Activity} {w : ScriptObject} (hr : s.running = .destroying p :: rest)
      (hp : s.objects.get p = some w) :
      Step .destroyed s none { s with
        objects := s.objects.write p { w with lockedByScript := false, objectPtr := none }
        running := rest }
  | finaliseUnhooked {s : Life} {v : Nat} (hv : v < s.next) :
      Step (.finalise v none) s none { s with finalised := Function.update s.finalised v true }
  | finaliseDelete {s : Life} {v p : Nat} {c : Option ClassDesc} {w : ScriptObject} (hn : v < s.next)
      (hv : s.Points v p)
      (hp : s.objects.get p = some w) (hr : ∀ a ∈ s.running, a.wrapper ≠ p)
      (hd : w.objectPtr = none ∨ ∃ desc, c = some desc ∧ desc.garbageCollect = false) :
      Step (.finalise v c) s (some (.deleted p)) { s with
        objects := without s.objects p
        finalised := Function.update s.finalised v true }
  | finaliseCollect {s : Life} {v p : Nat} {desc : ClassDesc} {w : ScriptObject} (hn : v < s.next) (hv : s.Points v p)
      (hp : s.objects.get p = some w) (hr : ∀ a ∈ s.running, a.wrapper ≠ p) (hptr : w.objectPtr.isSome = true)
      (hd : desc.garbageCollect = true) :
      Step (.finalise v (some desc)) s (some (.called .collect desc p w.objectPtr)) { s with
        objects := s.objects.write p { w with lockedByScript := true }
        finalised := Function.update s.finalised v true
        running := .finalising p :: s.running }
  | finalised {s : Life} {p : Nat} {rest : List Activity} {w : ScriptObject} (hr : s.running = .finalising p :: rest)
      (hp : s.objects.get p = some w) :
      Step .finalised s (some (.deleted p)) { s with objects := without s.objects p, running := rest }
  | releaseLocked {s : Life} {p : Nat} {w : ScriptObject} (hp : s.objects.get p = some w)
      (hl : w.lockedByScript = true) :
      Step (.release p) s none s
  | releaseUnused {s : Life} {p : Nat} {w : ScriptObject} (hp : s.objects.get p = some w)
      (hl : w.lockedByScript = false)
      (hu : s.Unused p) :
      Step (.release p) s (some (.deleted p)) { s with objects := without s.objects p }

/-! ## What holds in between -/

structure Sound (s : Life) : Prop where
  fresh : ∀ p, s.objects.next ≤ p → s.objects.get p = none
  unborn : ∀ v, s.next ≤ v → s.bound v = none ∧ s.finalised v = false
  alive : ∀ v p, s.Points v p → ∃ w, s.objects.get p = some w
  unshared : ∀ v v' p, s.Points v p → s.Points v' p → v = v'
  inUse : ∀ a ∈ s.running, ∃ w, s.objects.get a.wrapper = some w
  exclusive : ∀ a ∈ s.running, a.exclusive s.early = true → ∀ v, ¬ s.Points v a.wrapper
  apart : s.running.Pairwise fun a b => a.exclusive s.early = true ∨ b.exclusive s.early = true → a.wrapper ≠ b.wrapper

/-- What is there after a value is finalised was there before. -/
theorem unfinalised {u v : Nat} {finalised : Nat → Bool} (h : Function.update finalised v true u = false) :
    finalised u = false := by
  by_cases he : u = v
  · subst he
    simp at h
  · rwa [Function.update_of_ne he] at h

namespace Sound

variable {s : Life} {p v : Nat} {w : ScriptObject}

theorem lt_next (h : Sound s) (hp : s.objects.get p = some w) : p < s.objects.next := by
  by_contra hge
  rw [h.fresh p (by omega)] at hp
  cases hp

theorem ghost (h : Sound s) (owner made : Nat → Option ClassDesc) : Sound { s with owner, made } :=
  ⟨h.fresh, h.unborn, h.alive, h.unshared, h.inUse, h.exclusive, h.apart⟩

theorem grow {next : Nat} (h : Sound s) (hn : s.next ≤ next) : Sound { s with next } :=
  ⟨h.fresh, fun v hv => h.unborn v (Nat.le_trans hn hv), h.alive, h.unshared, h.inUse, h.exclusive, h.apart⟩

/-- A change in a wrapper. -/
theorem write (h : Sound s) (hp : s.objects.get p = some w) (w' : ScriptObject) :
    Sound { s with objects := s.objects.write p w' } := by
  have hlt := h.lt_next hp
  have hkeep : ∀ q, (∃ w, s.objects.get q = some w) → ∃ w, (s.objects.write p w').get q = some w := by
    rintro q ⟨wq, hq⟩
    by_cases he : q = p
    · subst he
      exact ⟨w', Objects.write_get_self⟩
    · exact ⟨wq, by rw [Objects.write_get_other he, hq]⟩
  refine ⟨fun q hq => ?_, h.unborn, fun v q hv => hkeep q (h.alive v q hv), h.unshared,
    fun a ha => hkeep _ (h.inUse a ha), h.exclusive, h.apart⟩
  have hne : q ≠ p := by
    have hge : s.objects.next ≤ q := hq
    omega
  rw [Objects.write_get_other hne]
  exact h.fresh q hq

/-- A new wrapper, which nobody knows. -/
theorem new (h : Sound s) (w : ScriptObject) : Sound { s with objects := s.objects.new w } := by
  have hkeep : ∀ q, (∃ w, s.objects.get q = some w) → ∃ w', (s.objects.new w).get q = some w' := by
    rintro q ⟨wq, hq⟩
    have hlt := h.lt_next hq
    exact ⟨wq, by rw [Objects.new_get_other (by omega), hq]⟩
  refine ⟨fun q hq => ?_, h.unborn, fun v q hv => hkeep q (h.alive v q hv), h.unshared,
    fun a ha => hkeep _ (h.inUse a ha), h.exclusive, h.apart⟩
  have hge : s.objects.next + 1 ≤ q := hq
  rw [Objects.new_get_other (by omega)]
  exact h.fresh q (by omega)

theorem new_unused (h : Sound s) (w : ScriptObject) :
    Life.Unused { s with objects := s.objects.new w } s.objects.next := by
  refine ⟨fun v hv => ?_, fun a ha he => ?_⟩
  · obtain ⟨wp, hp⟩ := h.alive v s.objects.next hv
    exact absurd (h.lt_next hp) (Nat.lt_irrefl _)
  · obtain ⟨wp, hp⟩ := h.inUse a ha
    rw [he] at hp
    exact absurd (h.lt_next hp) (Nat.lt_irrefl _)

/-- The end of a wrapper nobody knows. -/
theorem delete (h : Sound s) (hu : s.Unused p) : Sound { s with objects := without s.objects p } := by
  have hkeep : ∀ q, q ≠ p → (∃ w, s.objects.get q = some w) → ∃ w, (without s.objects p).get q = some w := by
    rintro q hne ⟨wq, hq⟩
    exact ⟨wq, by rw [without_get_other hne, hq]⟩
  refine ⟨fun q hq => ?_, h.unborn, fun v q hv => hkeep q ?_ (h.alive v q hv), h.unshared,
    fun a ha => hkeep _ (hu.2 a ha) (h.inUse a ha), h.exclusive, h.apart⟩
  · by_cases he : q = p
    · subst he
      exact without_get_self
    · rw [without_get_other he]
      exact h.fresh q hq
  · rintro rfl
    exact hu.1 v hv

/-- The end of a value. -/
theorem finalise (h : Sound s) (hv : v < s.next) :
    Sound { s with finalised := Function.update s.finalised v true } := by
  have hless : ∀ u q, Life.Points { s with finalised := Function.update s.finalised v true } u q → s.Points u q :=
    fun u q hu => ⟨hu.1, unfinalised hu.2⟩
  refine ⟨h.fresh, fun u hu => ⟨(h.unborn u hu).1, ?_⟩, fun u q hq => h.alive u q (hless u q hq),
    fun u u' q hq hq' => h.unshared u u' q (hless u q hq) (hless u' q hq'), h.inUse,
    fun a ha he u hu => h.exclusive a ha he u (hless u _ hu), h.apart⟩
  have hne : u ≠ v := by
    have hge : s.next ≤ u := hu
    omega
  exact (Function.update_of_ne hne ..).trans (h.unborn u hu).2

/-- Once its value is gone, a wrapper is known to nobody. -/
theorem finalise_unused (h : Sound s) (hv : s.Points v p) (hr : ∀ a ∈ s.running, a.wrapper ≠ p) :
    Life.Unused { s with finalised := Function.update s.finalised v true } p := by
  refine ⟨?_, hr⟩
  rintro u ⟨hb, hf⟩
  by_cases he : u = v
  · subst he
    simp at hf
  · have hu : s.Points u p := ⟨hb, by simpa [Function.update_of_ne he] using hf⟩
    exact he (h.unshared u v p hu hv)

/-- A callback starts on the wrapper of a value. -/
theorem push {a : Activity} (h : Sound s) (ha : a.exclusive s.early = false) (hv : s.Points v a.wrapper) :
    Sound { s with running := a :: s.running } := by
  refine ⟨h.fresh, h.unborn, h.alive, h.unshared, ?_, ?_, List.pairwise_cons.mpr ⟨?_, h.apart⟩⟩
  · intro b hb
    rcases List.mem_cons.mp hb with rfl | hb
    · exact h.alive v _ hv
    · exact h.inUse b hb
  · intro b hb he u hu
    rcases List.mem_cons.mp hb with rfl | hb
    · rw [ha] at he
      cases he
    · exact h.exclusive b hb he u hu
  · intro b hb he hw
    rcases he with he | he
    · rw [ha] at he
      cases he
    · rw [hw] at hv
      exact h.exclusive b hb he v hv

/-- A callback starts on a wrapper nobody else knows. -/
theorem pushUnused {a : Activity} (h : Sound s) (hp : s.objects.get a.wrapper = some w) (hu : s.Unused a.wrapper) :
    Sound { s with running := a :: s.running } := by
  refine ⟨h.fresh, h.unborn, h.alive, h.unshared, ?_, ?_, List.pairwise_cons.mpr ⟨?_, h.apart⟩⟩
  · intro b hb
    rcases List.mem_cons.mp hb with rfl | hb
    · exact ⟨w, hp⟩
    · exact h.inUse b hb
  · intro b hb he u hu'
    rcases List.mem_cons.mp hb with rfl | hb
    · exact hu.1 u hu'
    · exact h.exclusive b hb he u hu'
  · intro b hb _ hw
    exact hu.2 b hb hw.symm

theorem pop {a : Activity} {rest : List Activity} (h : Sound s) (hr : s.running = a :: rest) :
    Sound { s with running := rest } := by
  have hmem : ∀ b ∈ rest, b ∈ s.running := fun b hb => by
    rw [hr]
    exact List.mem_cons_of_mem a hb
  have happ := h.apart
  rw [hr] at happ
  exact ⟨h.fresh, h.unborn, h.alive, h.unshared, fun b hb => h.inUse b (hmem b hb),
    fun b hb => h.exclusive b (hmem b hb), (List.pairwise_cons.mp happ).2⟩

/-- What an exclusive callback worked on is known to nobody when it is done. -/
theorem pop_unused {a : Activity} {rest : List Activity} (h : Sound s) (hr : s.running = a :: rest)
    (ha : a.exclusive s.early = true) : Life.Unused { s with running := rest } a.wrapper := by
  have happ := h.apart
  rw [hr] at happ
  refine ⟨h.exclusive a (by simp [hr]) ha, fun b hb he => ?_⟩
  exact (List.pairwise_cons.mp happ).1 b hb (.inl ha) he.symm

/-- A value is made to point to a wrapper nobody knows. -/
theorem bind {next : Nat} (h : Sound s) (hp : s.objects.get p = some w) (hu : s.Unused p) (hv : v < next)
    (hn : s.next ≤ next) : Sound { s with bound := Function.update s.bound v (some p), next } := by
  have hless : ∀ u q, Life.Points { s with bound := Function.update s.bound v (some p), next } u q →
      u = v ∧ q = p ∨ u ≠ v ∧ s.Points u q := by
    rintro u q ⟨hb, hf⟩
    by_cases he : u = v
    · subst he
      exact .inl ⟨rfl, by simpa using hb.symm⟩
    · exact .inr ⟨he, by simpa [Function.update_of_ne he] using hb, hf⟩
  refine ⟨h.fresh, ?_, ?_, ?_, h.inUse, ?_, h.apart⟩
  · intro u hu'
    have hge : next ≤ u := hu'
    have hold := h.unborn u (Nat.le_trans hn hge)
    exact ⟨(Function.update_of_ne (by omega) ..).trans hold.1, hold.2⟩
  · intro u q hq
    rcases hless u q hq with ⟨-, rfl⟩ | ⟨-, hq⟩
    · exact ⟨w, hp⟩
    · exact h.alive u q hq
  · intro u u' q hq hq'
    rcases hless u q hq with ⟨rfl, rfl⟩ | ⟨-, hold⟩
    · rcases hless u' q hq' with ⟨rfl, -⟩ | ⟨-, hold'⟩
      · rfl
      · exact absurd hold' (hu.1 u')
    · rcases hless u' q hq' with ⟨rfl, rfl⟩ | ⟨-, hold'⟩
      · exact absurd hold (hu.1 u)
      · exact h.unshared u u' q hold hold'
  · intro a ha he u hu'
    rcases hless u _ hu' with ⟨-, hq⟩ | ⟨-, hq⟩
    · exact hu.2 a ha hq
    · exact h.exclusive a ha he u hq

end Sound

/-- What a step keeps. -/
theorem Step.sound {l : Label} {s s' : Life} {o : Option Mark} (hs : Step l s o s') (h : Sound s) : Sound s' := by
  cases hs with
  | other hn => exact h.grow hn
  | @constructLate _ desc w inst next he hw hn =>
    have hnew := (h.new w).grow hn
    exact (@Sound.pushUnused _ _ (.constructing s.objects.next desc inst) hnew Objects.new_get_next
      (h.new_unused w)).ghost _ _
  | @constructEarly _ desc w next he hw hn =>
    have hbind := (h.new w).bind Objects.new_get_next (h.new_unused w) hn (Nat.le_of_lt hn)
    have hpoints : Life.Points { s with
        objects := s.objects.new w, bound := Function.update s.bound s.next (some s.objects.next), next } s.next
        s.objects.next := ⟨Function.update_self .., (h.unborn s.next (Nat.le_refl _)).2⟩
    have hex : (Activity.constructing s.objects.next desc (some s.next)).exclusive s.early = false := by
      simp [Activity.exclusive, he]
    exact (@Sound.push _ _ (.constructing s.objects.next desc (some s.next)) hbind hex hpoints).ghost _ _
  | assign hp hr => exact h.write hp _
  | @constructed _ p result desc inst bind rest w next hr hp hptr hbind hv hn =>
    have hpop := h.pop hr
    cases bind with
    | none => exact (hpop.grow hn).ghost _ _
    | some v =>
      have hlate : s.early = false := by
        cases he : s.early with
        | false => rfl
        | true => exact absurd (hbind he) (by simp)
      have hex : (Activity.constructing p desc inst).exclusive s.early = true := by
        simp [Activity.exclusive, hlate]
      exact (hpop.bind hp (h.pop_unused hr hex) (hv v rfl).1 hn).ghost _ _
  | @pushNew _ desc w v next hw hv hn =>
    have hle : s.next ≤ next := by omega
    exact ((h.new w).bind Objects.new_get_next (h.new_unused w) hn hle).ghost _ _
  | call hf hv hp => exact h
  | silent => exact h
  | @destroy _ desc v p w hv hp =>
    exact @Sound.push _ _ (.destroying p) (h.write hp _) rfl hv
  | destroyed hr hp => exact (h.write hp _).pop hr
  | finaliseUnhooked hv => exact h.finalise hv
  | finaliseDelete hn hv hp hr hd => exact (h.finalise hn).delete (h.finalise_unused hv hr)
  | @finaliseCollect _ v p desc w hn hv hp hr hptr hd =>
    have hw := (h.write hp { w with lockedByScript := true }).finalise hn
    exact @Sound.pushUnused _ _ (.finalising p) hw Objects.write_get_self (h.finalise_unused hv hr)
  | finalised hr hp => exact (h.pop hr).delete (h.pop_unused hr rfl)
  | releaseLocked hp hl => exact h
  | releaseUnused hp hl hu => exact h.delete hu

end MultiScript.Lifetime
