/-
`ScriptObjectPtr` and `ScriptCallPtr` (`ScriptInterface.h`). The two classes differ in what
they handle and in what they call on it. The header gives them a constructor, a destructor
and an assignment, all for a raw pointer; what copies one smart pointer to another is the
compiler's.
-/
import MultiScript.Interface
import Mathlib.Data.List.Count
import Mathlib.Logic.Function.Basic

namespace MultiScript

open Run

/-- A smart pointer: `m_object`, or `m_stack`. -/
structure SmartPtr where
  handled : Option Nat
deriving DecidableEq, Repr

namespace SmartPtr

/-- The constructor; `NULL` is the default. -/
def new (raw : Option Nat) : SmartPtr := { handled := raw }

/-- What the destructor releases. -/
def destructor (p : SmartPtr) : Option Nat := p.handled

/-- `operator =` from a raw pointer: what it releases, and what it stores. -/
def assignRaw (p : SmartPtr) (raw : Option Nat) : Option Nat × SmartPtr := (p.handled, { p with handled := raw })

/-- The copy constructor of the compiler. -/
def copy (p : SmartPtr) : SmartPtr := { handled := p.handled }

/-- The assignment of the compiler, which is the better match for a smart pointer. -/
def assign (_p q : SmartPtr) : SmartPtr := { handled := q.handled }

end SmartPtr

/-- The calls that the two classes make on what they handle. -/
inductive ReleaseCall
  | release (object : Nat)
  | releaseAfterCall (stack : Nat)
deriving DecidableEq, Repr

/-- The variables of one class, those that are constructed and not destroyed, the raw
pointers handed to them, and the calls they have made. -/
structure Pointers where
  vars : Nat → Option SmartPtr
  handed : List Nat
  released : List ReleaseCall

def Pointers.start : Pointers := { vars := fun _ => none, handed := [], released := [] }

/-- What a program does with variables of the class. -/
inductive PtrOp
  | construct (v : Nat) (raw : Option Nat)
  | copyConstruct (v w : Nat)
  | assignRaw (v : Nat) (raw : Option Nat)
  | assign (v w : Nat)
  | destroy (v : Nat)
deriving DecidableEq, Repr

namespace Pointers

variable (release : Nat → ReleaseCall)

/-- A variable is read where it is constructed. -/
def var (s : Pointers) (v : Nat) : Except Fault SmartPtr :=
  match s.vars v with
  | some p => .ok p
  | none => .error .wildDeref

/-- The variable is as given from now on. -/
def set (s : Pointers) (v : Nat) (p : Option SmartPtr) : Pointers := { s with vars := Function.update s.vars v p }

def hand (s : Pointers) (raw : Option Nat) : Pointers := { s with handed := s.handed ++ raw.toList }

def call (s : Pointers) (o : Option Nat) : Pointers := { s with released := s.released ++ o.toList.map release }

/-- One operation. A variable is constructed where there is none, and all else is done to
variables that are. -/
def step : PtrOp → Pointers → Except Fault Pointers
  | .construct v raw, s => if (s.vars v).isSome then .error .wildDeref else .ok ((s.hand raw).set v (some (.new raw)))
  | .copyConstruct v w, s =>
    if (s.vars v).isSome then .error .wildDeref
    else (s.var w).map fun q => s.set v (some q.copy)
  | .assignRaw v raw, s => (s.var v).map fun p =>
      (((s.hand raw).call release (p.assignRaw raw).1).set v (some (p.assignRaw raw).2))
  | .assign v w, s => do
    let p ← s.var v
    let q ← s.var w
    return s.set v (some (p.assign q))
  | .destroy v, s => (s.var v).map fun p => (s.call release p.destructor).set v none

/-- A class of smart pointers, as a machine. -/
def machine : Machine Pointers PtrOp Unit Fault where
  step op s := (step release op s).map fun s' => ((), s')

end Pointers

def ScriptObjectPtr : Machine Pointers PtrOp Unit Fault := Pointers.machine .release

def ScriptCallPtr : Machine Pointers PtrOp Unit Fault := Pointers.machine .releaseAfterCall

/-! ## Ownership -/

namespace Pointers

/-- The variable holds the object. -/
def HeldBy (s : Pointers) (o v : Nat) : Prop := ∃ p, s.vars v = some p ∧ p.handled = some o

def Held (s : Pointers) (o : Nat) : Prop := ∃ v, s.HeldBy o v

/-- What is held has been handed over and not been released; what has been handed over
and is held no more has been released once; nothing else has. -/
structure Owned (release : Nat → ReleaseCall) (s : Pointers) : Prop where
  handed : ∀ o, s.Held o → o ∈ s.handed
  held : ∀ o, s.Held o → s.released.count (release o) = 0
  once : ∀ o ∈ s.handed, ¬ s.Held o → s.released.count (release o) = 1
  fresh : ∀ o, o ∉ s.handed → s.released.count (release o) = 0

/-- A raw pointer is handed to one smart pointer once, or again to the one that holds it. -/
def HandedOnce : PtrOp → Pointers → Prop
  | .construct _ (some o), s => o ∉ s.handed
  | .assignRaw v (some o), s => o ∈ s.handed → s.HeldBy o v
  | _, _ => True

/-- Who lets go of an object is its only holder, and does not get it again; who is
overwritten with a copy is not its only holder, or gets it again. -/
def LetsGo : PtrOp → Pointers → Prop
  | .assignRaw v raw, s => ∀ o, s.HeldBy o v → raw ≠ some o ∧ ∀ w, s.HeldBy o w → w = v
  | .assign v w, s => ∀ o, s.HeldBy o v → v = w ∨ ∃ u, u ≠ v ∧ s.HeldBy o u
  | .destroy v, s => ∀ o, s.HeldBy o v → ∀ w, s.HeldBy o w → w = v
  | _, _ => True

/-! ## Operations -/

variable {release : Nat → ReleaseCall} {s : Pointers} {v o : Nat}

theorem heldBy_of_var {p : SmartPtr} (h : s.vars v = some p) : s.HeldBy o v ↔ p.handled = some o := by
  constructor
  · rintro ⟨q, hq, ho⟩
    rw [h] at hq
    cases hq
    exact ho
  · exact fun ho => ⟨p, h, ho⟩

theorem not_heldBy (h : s.vars v = none) : ¬ s.HeldBy o v := by
  rintro ⟨p, hp, -⟩
  rw [h] at hp
  cases hp

theorem var_inv {p : SmartPtr} (h : s.var v = .ok p) : s.vars v = some p := by
  unfold var at h
  split at h
  · cases h
    assumption
  · cases h

@[simp] theorem set_vars_self {p : Option SmartPtr} : (s.set v p).vars v = p := by simp [set]

@[simp] theorem set_vars_of_ne {p : Option SmartPtr} {w : Nat} (h : w ≠ v) : (s.set v p).vars w = s.vars w := by
  simp [set, h]

@[simp] theorem set_handed {p : Option SmartPtr} : (s.set v p).handed = s.handed := rfl
@[simp] theorem set_released {p : Option SmartPtr} : (s.set v p).released = s.released := rfl
@[simp] theorem hand_handed {raw : Option Nat} : (s.hand raw).handed = s.handed ++ raw.toList := rfl
@[simp] theorem hand_released {raw : Option Nat} : (s.hand raw).released = s.released := rfl
@[simp] theorem hand_heldBy {raw : Option Nat} : (s.hand raw).HeldBy o v ↔ s.HeldBy o v := Iff.rfl
@[simp] theorem call_handed {x : Option Nat} : (s.call release x).handed = s.handed := rfl
@[simp] theorem call_heldBy {x : Option Nat} : (s.call release x).HeldBy o v ↔ s.HeldBy o v := Iff.rfl

@[simp] theorem call_released {x : Option Nat} :
    (s.call release x).released = s.released ++ x.toList.map release := rfl

/-- Other variables hold what they did. -/
theorem heldBy_of_set {p : Option SmartPtr} {w : Nat} (hw : w ≠ v) : (s.set v p).HeldBy o w ↔ s.HeldBy o w := by
  unfold HeldBy
  rw [set_vars_of_ne hw]

/-- After a variable is set, an object is held by it or by another that held it before. -/
theorem set_held {p : Option SmartPtr} :
    (s.set v p).Held o ↔ (∃ q, p = some q ∧ q.handled = some o) ∨ ∃ w, w ≠ v ∧ s.HeldBy o w := by
  constructor
  · rintro ⟨w, q, hq, ho⟩
    by_cases hw : w = v
    · subst hw
      rw [set_vars_self] at hq
      exact .inl ⟨q, hq, ho⟩
    · rw [set_vars_of_ne hw] at hq
      exact .inr ⟨w, hw, q, hq, ho⟩
  · rintro (⟨q, rfl, ho⟩ | ⟨w, hw, q, hq, ho⟩)
    · exact ⟨v, q, set_vars_self, ho⟩
    · exact ⟨w, q, by rw [set_vars_of_ne hw, hq], ho⟩

/-- Where a variable holds another object or none, what other variables hold is all. -/
theorem held_of_ne (hv : ¬ s.HeldBy o v) : (∃ w, w ≠ v ∧ s.HeldBy o w) ↔ s.Held o := by
  constructor
  · rintro ⟨w, -, h⟩
    exact ⟨w, h⟩
  · rintro ⟨w, h⟩
    refine ⟨w, fun hw => ?_, h⟩
    subst hw
    exact hv h

/-- Nothing is released, and only what is handed over becomes held: this keeps ownership. -/
theorem Owned.gains {s' : Pointers} {raw : Option Nat} (h : s.Owned release)
    (hheld : ∀ o, s'.Held o ↔ s.Held o ∨ raw = some o) (hhanded : s'.handed = s.handed ++ raw.toList)
    (hreleased : s'.released = s.released) (hnew : ∀ o, raw = some o → o ∉ s.handed) : s'.Owned release := by
  have hmem : ∀ o, o ∈ s'.handed ↔ o ∈ s.handed ∨ raw = some o := by
    intro o
    rw [hhanded, List.mem_append, Option.mem_toList]
  refine ⟨fun o ho => ?_, fun o ho => ?_, fun o ho hno => ?_, fun o ho => ?_⟩
  · exact (hmem o).mpr (((hheld o).mp ho).imp_left (h.handed o))
  · rw [hreleased]
    rcases (hheld o).mp ho with ho | ho
    · exact h.held o ho
    · exact h.fresh o (hnew o ho)
  · rw [hreleased]
    rw [hheld, not_or] at hno
    exact h.once o (((hmem o).mp ho).resolve_right hno.2) hno.1
  · rw [hreleased]
    rw [hmem, not_or] at ho
    exact h.fresh o ho.1

/-- A variable that holds an object releases it, and takes another one or none. -/
theorem Owned.lets_go_iff (hinj : Function.Injective release) {x : Nat} {raw : Option Nat} {p : Option SmartPtr}
    (h : s.Owned release) (hx : s.HeldBy x v) (hp : p.bind SmartPtr.handled = raw)
    (hnew : ∀ o, raw = some o → o ∈ s.handed → s.HeldBy o v) :
    ((((s.hand raw).call release (some x)).set v p).Owned release ↔ raw ≠ some x ∧ ∀ w, s.HeldBy x w → w = v) := by
  have hheld : ∀ o, ((((s.hand raw).call release (some x)).set v p).Held o ↔
      raw = some o ∨ ∃ w, w ≠ v ∧ s.HeldBy o w) := by
    intro o
    rw [set_held, ← hp, Option.bind_eq_some_iff]
    rfl
  have hmine : ∀ o, s.HeldBy o v ↔ o = x := by
    intro o
    obtain ⟨q, hq, hqx⟩ := hx
    rw [heldBy_of_var hq, hqx, Option.some.injEq, eq_comm]
  have hcount : ∀ o, (((s.hand raw).call release (some x)).set v p).released.count (release o) =
      s.released.count (release o) + if o = x then 1 else 0 := by
    intro o
    simp only [set_released, call_released, hand_released, List.count_append, Option.toList_some, List.map_cons,
      List.map_nil, List.count_singleton, beq_iff_eq, hinj.eq_iff, eq_comm (a := x)]
  have hzero : s.released.count (release x) = 0 := h.held x ⟨v, hx⟩
  constructor
  · intro h'
    have hcalled := hcount x
    rw [if_pos rfl, hzero] at hcalled
    have hfree : ¬ (((s.hand raw).call release (some x)).set v p).Held x := by
      intro hheld
      rw [h'.held x hheld] at hcalled
      omega
    rw [hheld, not_or] at hfree
    refine ⟨hfree.1, fun w hw => ?_⟩
    by_contra hne
    exact hfree.2 ⟨w, hne, hw⟩
  · rintro ⟨hraw, hsole⟩
    have hothers : ∀ o w, w ≠ v → s.HeldBy o w → o ≠ x := by
      intro o w hw ho hox
      subst hox
      exact hw (hsole w ho)
    refine ⟨fun o ho => ?_, fun o ho => ?_, fun o ho hno => ?_, fun o ho => ?_⟩
    · rcases (hheld o).mp ho with ho | ⟨w, -, ho⟩
      · exact List.mem_append_right _ (Option.mem_toList.mpr ho)
      · exact List.mem_append_left _ (h.handed o ⟨w, ho⟩)
    · rcases (hheld o).mp ho with ho | ⟨w, hw, ho⟩
      · have hne : o ≠ x := fun hox => hraw (hox ▸ ho)
        rw [hcount, if_neg hne]
        exact h.fresh o fun hmem => hne ((hmine o).mp (hnew o ho hmem))
      · rw [hcount, if_neg (hothers o w hw ho)]
        exact h.held o ⟨w, ho⟩
    · rw [hcount]
      by_cases hox : o = x
      · subst hox
        rw [if_pos rfl, hzero]
      · rw [if_neg hox]
        rw [hheld, not_or, held_of_ne fun hv => hox ((hmine o).mp hv)] at hno
        refine h.once o ?_ hno.2
        exact (List.mem_append.mp ho).resolve_right fun hmem => hno.1 (Option.mem_toList.mp hmem)
    · have hnot : o ∉ s.handed := fun hmem => ho (List.mem_append_left _ hmem)
      have hne : o ≠ x := fun hox => hnot (hox ▸ h.handed x ⟨v, hx⟩)
      rw [hcount, if_neg hne]
      exact h.fresh o hnot

theorem hand_none : s.hand none = s := by simp [hand]

/-- A copy is of no account to ownership, but for what it overwrites. -/
theorem Owned.copied_iff {p q : SmartPtr} {w : Nat} (h : s.Owned release) (hv : s.vars v = some p)
    (hw : s.vars w = some q) : (s.set v (some (p.assign q))).Owned release ↔ LetsGo (.assign v w) s := by
  have hheld : ∀ o, (s.set v (some (p.assign q))).Held o ↔ q.handled = some o ∨ ∃ u, u ≠ v ∧ s.HeldBy o u := by
    intro o
    rw [set_held]
    simp [SmartPtr.assign]
  constructor
  · intro h' o ho
    by_contra hnot
    rw [not_or] at hnot
    have hfree : ¬ (s.set v (some (p.assign q))).Held o := by
      rw [hheld, not_or]
      exact ⟨fun hq => hnot.2 ⟨w, fun hwv => hnot.1 hwv.symm, q, hw, hq⟩, hnot.2⟩
    have hone := h'.once o (h.handed o ⟨v, ho⟩) hfree
    have hzero : s.released.count (release o) = 0 := h.held o ⟨v, ho⟩
    rw [set_released] at hone
    omega
  · intro hgo
    refine @Owned.gains release s _ none h (fun o => ?_) (by simp) rfl (by simp)
    rw [hheld]
    constructor
    · rintro (hq | ⟨u, -, hu⟩)
      · exact .inl ⟨w, q, hw, hq⟩
      · exact .inl ⟨u, hu⟩
    · rintro (⟨u, hu⟩ | hnone)
      · by_cases huv : u = v
        · subst huv
          rcases hgo o hu with rfl | hother
          · exact .inl ((heldBy_of_var hw).mp hu)
          · exact .inr hother
        · exact .inr ⟨u, huv, hu⟩
      · cases hnone

/-- A variable that holds nothing, constructed or not, is given a raw pointer or a copy. -/
theorem Owned.set_fresh {raw : Option Nat} {p : SmartPtr} (h : s.Owned release) (hv : ∀ o, ¬ s.HeldBy o v)
    (hp : ∀ o, p.handled = some o → raw = some o ∨ s.Held o)
    (hraw : ∀ o, raw = some o → p.handled = some o ∧ o ∉ s.handed) :
    ((s.hand raw).set v (some p)).Owned release := by
  refine @Owned.gains release s _ raw h (fun o => ?_) rfl rfl fun o ho => (hraw o ho).2
  rw [set_held]
  simp only [hand_heldBy, held_of_ne (hv o), Option.some.injEq, exists_eq_left']
  constructor
  · rintro (ho | ho)
    · exact (hp o ho).symm
    · exact .inl ho
  · rintro (ho | ho)
    · exact .inr ho
    · exact .inl (hraw o ho).1

/-- A variable that is constructed lets go of what it holds, and takes a raw pointer or is gone. -/
theorem Owned.let_go_iff (hinj : Function.Injective release) {raw : Option Nat} {p : SmartPtr} {q : Option SmartPtr}
    (h : s.Owned release) (hv : s.vars v = some p) (hq : q.bind SmartPtr.handled = raw)
    (hnew : ∀ o, raw = some o → o ∈ s.handed → s.HeldBy o v) :
    ((((s.hand raw).call release p.handled).set v q).Owned release ↔
      ∀ o, s.HeldBy o v → raw ≠ some o ∧ ∀ w, s.HeldBy o w → w = v) := by
  cases hp : p.handled with
  | none =>
    have hnone : ∀ o, ¬ s.HeldBy o v := by
      intro o ho
      rw [heldBy_of_var hv, hp] at ho
      cases ho
    refine ⟨fun _ o ho => absurd ho (hnone o), fun _ => ?_⟩
    refine @Owned.gains release s _ raw h (fun o => ?_) rfl (by simp) fun o ho hmem => hnone o (hnew o ho hmem)
    rw [set_held, ← hq, Option.bind_eq_some_iff, ← held_of_ne (hnone o), or_comm]
    rfl
  | some x =>
    have hx : s.HeldBy x v := ⟨p, hv, hp⟩
    rw [h.lets_go_iff hinj hx hq hnew]
    refine ⟨fun hgo o ho => ?_, fun hgo => hgo x hx⟩
    rw [heldBy_of_var hv, hp, Option.some.injEq] at ho
    subst ho
    exact hgo

theorem map_ok_inv {α β : Type} {m : Except Fault α} {f : α → β} {b : β} (h : m.map f = .ok b) :
    ∃ a, m = .ok a ∧ b = f a := by
  cases m with
  | ok a => cases h; exact ⟨a, rfl, rfl⟩
  | error e => cases h

/-- One operation keeps ownership exactly if it lets go rightly of what its variable held. -/
theorem step_owned_iff (hinj : Function.Injective release) {op : PtrOp} {s s' : Pointers} (h : s.Owned release)
    (hfresh : HandedOnce op s) (hs : step release op s = .ok s') : s'.Owned release ↔ LetsGo op s := by
  cases op with
  | construct v raw =>
    simp only [step] at hs
    split at hs
    · cases hs
    · rename_i hv
      cases hs
      rw [Option.not_isSome_iff_eq_none] at hv
      refine ⟨fun _ => trivial, fun _ => h.set_fresh (fun o => not_heldBy hv) (fun o ho => .inl ho) fun o ho =>
        ⟨ho, ?_⟩⟩
      subst ho
      exact hfresh
  | copyConstruct v w =>
    simp only [step] at hs
    split at hs
    · cases hs
    · rename_i hv
      obtain ⟨q, hq, rfl⟩ := map_ok_inv hs
      rw [Option.not_isSome_iff_eq_none] at hv
      refine ⟨fun _ => trivial, fun _ => ?_⟩
      have hcopied := @Owned.set_fresh release s v none q.copy h (fun o => not_heldBy hv)
        (fun o ho => .inr ⟨w, q, var_inv hq, ho⟩) (by simp)
      rwa [hand_none] at hcopied
  | assignRaw v raw =>
    obtain ⟨p, hp, rfl⟩ := map_ok_inv hs
    refine h.let_go_iff hinj (var_inv hp) rfl ?_
    rintro o rfl
    exact hfresh
  | assign v w =>
    cases hp : s.var v with
    | error f => simp [step, hp, bind, Except.bind] at hs
    | ok p =>
      cases hq : s.var w with
      | error f => simp [step, hp, hq, bind, Except.bind] at hs
      | ok q =>
        simp only [step, hp, hq, bind, Except.bind, pure, Except.pure, Except.ok.injEq] at hs
        subst hs
        exact h.copied_iff (var_inv hp) (var_inv hq)
  | destroy v =>
    obtain ⟨p, hp, rfl⟩ := map_ok_inv hs
    have hgone := @Owned.let_go_iff release s v hinj none p none h (var_inv hp) rfl (by simp)
    rw [hand_none] at hgone
    simp only [ne_eq, reduceCtorEq, not_false_iff, true_and] at hgone
    exact hgone

theorem owned_start : start.Owned release where
  handed o h := by
    obtain ⟨v, hv⟩ := h
    exact absurd hv (not_heldBy rfl)
  held _ _ := rfl
  once o ho := absurd ho List.not_mem_nil
  fresh _ _ := rfl

theorem machine_owned_iff (hinj : Function.Injective release) {ops : List PtrOp} {os : List Unit} {s : Pointers}
    (hrun : (machine release).run ops .start = .ok (os, s)) (hfresh : (machine release).Meets HandedOnce ops .start) :
    (machine release).Always (Owned release) ops .start ↔ (machine release).Meets LetsGo ops .start := by
  have hstep : ∀ e s o s', s.Owned release → HandedOnce e s → (machine release).step e s = .ok (o, s') →
      (s'.Owned release ↔ LetsGo e s) := by
    intro e s o s' h hf hs
    obtain ⟨s₁, hs₁, heq⟩ := map_ok_inv hs
    cases heq
    exact step_owned_iff hinj h hf hs₁
  exact Machine.always_iff (fun _ h => h) (fun e s o s' h hf hs => (hstep e s o s' h hf hs).mpr)
    (fun e s o s' h hf hs => (hstep e s o s' h hf hs).mp) owned_start hfresh hrun

/-- A program constructs each variable before it uses it, and hands over each raw pointer once. -/
structure Program (m : Machine Pointers PtrOp Unit Fault) (ops : List PtrOp) : Prop where
  returns : ∃ os s, m.run ops .start = .ok (os, s)
  handedOnce : m.Meets HandedOnce ops .start

end Pointers

/-- **Ownership.** All along a program what is held is not released, and what was handed over
and is held no more is released once, exactly if smart pointers let go as only holders do. -/
theorem smart_pointers_own_iff (ops : List PtrOp) :
    (Pointers.Program ScriptObjectPtr ops →
      (ScriptObjectPtr.Always (Pointers.Owned .release) ops .start ↔
        ScriptObjectPtr.Meets Pointers.LetsGo ops .start)) ∧
    (Pointers.Program ScriptCallPtr ops →
      (ScriptCallPtr.Always (Pointers.Owned .releaseAfterCall) ops .start ↔
        ScriptCallPtr.Meets Pointers.LetsGo ops .start)) := by
  refine ⟨fun h => ?_, fun h => ?_⟩
  · obtain ⟨os, s, hrun⟩ := h.returns
    exact Pointers.machine_owned_iff (fun _ _ he => ReleaseCall.release.inj he) hrun h.handedOnce
  · obtain ⟨os, s, hrun⟩ := h.returns
    exact Pointers.machine_owned_iff (fun _ _ he => ReleaseCall.releaseAfterCall.inj he) hrun h.handedOnce

/-- An object and a call are handled, each by one smart pointer. -/
theorem smart_pointers_own_one :
    ScriptObjectPtr.Always (Pointers.Owned .release) [.construct 0 none, .assignRaw 0 (some 5), .destroy 0] .start ∧
    ScriptCallPtr.Always (Pointers.Owned .releaseAfterCall) [.construct 0 (some 5), .destroy 0] .start := by
  have hobject : Pointers.Program ScriptObjectPtr [.construct 0 none, .assignRaw 0 (some 5), .destroy 0] := by
    refine ⟨⟨_, _, rfl⟩, Machine.meets_cons trivial rfl
      (Machine.meets_cons ?_ rfl (Machine.meets_cons trivial rfl trivial))⟩
    exact fun h => absurd h List.not_mem_nil
  have hcall : Pointers.Program ScriptCallPtr [.construct 0 (some 5), .destroy 0] := by
    refine ⟨⟨_, _, rfl⟩, Machine.meets_cons ?_ rfl (Machine.meets_cons trivial rfl trivial)⟩
    exact List.not_mem_nil
  -- no variable but the first is ever constructed
  have hempty : ∀ o v, ¬ Pointers.start.HeldBy o v := fun o v => Pointers.not_heldBy rfl
  refine ⟨((smart_pointers_own_iff _).1 hobject).mpr ?_, ((smart_pointers_own_iff _).2 hcall).mpr ?_⟩
  · refine Machine.meets_cons trivial rfl (Machine.meets_cons ?_ rfl (Machine.meets_cons ?_ rfl trivial))
    · intro o ho
      rw [Pointers.heldBy_of_var rfl] at ho
      cases ho
    · intro o _ w hw
      by_contra hne
      exact hempty o w ((Pointers.heldBy_of_set hne).mp ((Pointers.heldBy_of_set hne).mp hw))
  · refine Machine.meets_cons trivial rfl (Machine.meets_cons ?_ rfl trivial)
    intro o _ w hw
    by_contra hne
    exact hempty o w ((Pointers.heldBy_of_set hne).mp hw)

/-- A pointer is assigned what it holds, and a copy is destroyed: both leave a smart pointer
that holds what has been released. -/
theorem smart_pointer_holds_released :
    (∃ os s, ScriptObjectPtr.run [.construct 0 (some 5), .assignRaw 0 (some 5)] .start = .ok (os, s) ∧ s.HeldBy 5 0 ∧
      s.released = [.release 5]) ∧
    (∃ os s, ScriptCallPtr.run [.construct 0 (some 5), .copyConstruct 1 0, .destroy 1] .start = .ok (os, s) ∧
      s.HeldBy 5 0 ∧ s.released = [.releaseAfterCall 5]) ∧
    ¬ (∀ ops, Pointers.Program ScriptObjectPtr ops → ScriptObjectPtr.Always (Pointers.Owned .release) ops .start) ∧
    ¬ (∀ ops, Pointers.Program ScriptCallPtr ops →
      ScriptCallPtr.Always (Pointers.Owned .releaseAfterCall) ops .start) := by
  refine ⟨⟨_, _, rfl, ⟨_, rfl, rfl⟩, rfl⟩, ⟨_, _, rfl, ⟨_, rfl, rfl⟩, rfl⟩, fun h => ?_, fun h => ?_⟩
  · have hprogram : Pointers.Program ScriptObjectPtr [.construct 0 (some 5), .assignRaw 0 (some 5)] := by
      refine ⟨⟨_, _, rfl⟩, Machine.meets_cons ?_ rfl (Machine.meets_cons ?_ rfl trivial)⟩
      · exact List.not_mem_nil
      · exact fun _ => ⟨_, rfl, rfl⟩
    have hlast := ((h _ hprogram).2 _ _ rfl).2 _ _ rfl
    have hzero := hlast.held 5 ⟨0, _, rfl, rfl⟩
    exact absurd hzero (by decide)
  · have hprogram : Pointers.Program ScriptCallPtr [.construct 0 (some 5), .copyConstruct 1 0, .destroy 1] := by
      refine ⟨⟨_, _, rfl⟩, Machine.meets_cons ?_ rfl
        (Machine.meets_cons trivial rfl (Machine.meets_cons trivial rfl trivial))⟩
      exact List.not_mem_nil
    have hlast := (((h _ hprogram).2 _ _ rfl).2 _ _ rfl).2 _ _ rfl
    have hzero := hlast.held 5 ⟨0, _, rfl, rfl⟩
    exact absurd hzero (by decide)

end MultiScript
