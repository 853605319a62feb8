/-
A registered function at work: its callback stack `S`, and the handles of the
script calls it makes in its body.

`spec` says what `ScriptStack` is for. Every handle owns its values, and nothing
done with one handle can be seen through another. `handles` is the same host on
a backend, whose handles may share one VM stack. The events, and what the host
observes of each, are the same for both.
-/
import MultiScript.Interface
import Mathlib.Logic.Function.Basic

namespace MultiScript.Handles

open Run

/-- What the body of a registered function does: with `S`, or with the inner
handle `h`, numbered in the order of their `BeginCall`. `ret` looks at what the
script would get if the function returned now. -/
inductive Event
  | pop (p : Pop)
  | push (p : Push)
  | numParams
  | begin (name : Bytes)
  | callPush (h : Nat) (p : Push)
  | endCall (h : Nat)
  | callPop (h : Nat) (p : Pop)
  | callNumParams (h : Nat)
  | release (h : Nat)
  | ret
deriving DecidableEq, Repr

/-- What can be seen of an event. For `EndCall` that is what is called, and with
what arguments. -/
inductive Obs (F V : Type)
  | popped (a : Answer)
  | pushed (ok : Bool)
  | count (n : Int)
  | opened (ok : Bool)
  | called (ok : Bool) (target : Option (F × List V))
  | released
  | returned (vs : List V)
deriving DecidableEq, Repr

/-! ## Independent handles -/

/-- A script language as the host meets it: what a pop makes of a value, what a push
makes, and the calls of functions. `none` stands for a name bound to no function
and for a call that does not succeed. -/
structure Lang (F V W : Type) where
  pop : W → Pop → V → PopFit
  ofPush : Push → V
  lookup : Bytes → W → Option (F × W)
  call : F → List V → W → Option (List V × W)

/-- An inner handle: released or not yet open, with the arguments pushed so far,
or with the results left to pop, next first. -/
inductive InnerHandle (F V : Type)
  | closed
  | calling (f : F) (args : List V)
  | returned (total : Nat) (results : List V)

/-- The state of the independent handles. The arguments of `S` are the ones left,
next to pop first. -/
structure Spec (F V W : Type) where
  total : Nat
  args : List V
  pushed : List V
  next : Nat
  inner : Nat → InnerHandle F V
  world : W

variable {F V W : Type}

def Spec.set (t : Spec F V W) (h : Nat) (i : InnerHandle F V) : Spec F V W :=
  { t with inner := Function.update t.inner h i }

/-- Where a function starts: with its arguments, the last of them next. -/
def Spec.start (args : List V) (world : W) : Spec F V W :=
  { total := args.length, args := args.reverse, pushed := [], next := 0, inner := fun _ => .closed, world }

/-- The answer of a pop where nothing is left. -/
def emptyAnswer : Pop → Answer
  | .int => .int none
  | .scriptObject => .object none

/-- A pop from values of which the next is first: the answer, and what is left. -/
def popFrom (lang : Lang F V W) (w : W) (p : Pop) : List V → Option (Answer × List V)
  | [] => some (emptyAnswer p, [])
  | v :: vs =>
    match lang.pop w p v with
    | .takes a => some (a, vs)
    | .leaves a => some (a, v :: vs)
    | .faults => none

/-- What is not an error here is the protocol of the interface: pushes before
`EndCall` and pops after it, calls that succeed, and the release of a handle
whose results are all popped. `GetNumParams` counts what is left to pop, and a
function returns what is pushed on `S`. -/
def specStep (lang : Lang F V W) : Event → Spec F V W → Except Unit (Obs F V × Spec F V W)
  | .pop p, t =>
    match popFrom lang t.world p t.args with
    | some (a, args) => .ok (.popped a, { t with args })
    | none => .error ()
  | .push p, t => .ok (.pushed true, { t with pushed := t.pushed ++ [lang.ofPush p] })
  | .numParams, t => .ok (.count t.args.length, t)
  | .begin name, t =>
    match lang.lookup name t.world with
    | some (f, world) => .ok (.opened true, { t.set t.next (.calling f []) with next := t.next + 1, world })
    | none => .error ()
  | .callPush h p, t =>
    match t.inner h with
    | .calling f args => .ok (.pushed true, t.set h (.calling f (args ++ [lang.ofPush p])))
    | _ => .error ()
  | .endCall h, t =>
    match t.inner h with
    | .calling f args =>
      match lang.call f args t.world with
      | some (results, world) =>
        .ok (.called true (some (f, args)), { t.set h (.returned results.length results.reverse) with world })
      | none => .error ()
    | _ => .error ()
  | .callPop h p, t =>
    match t.inner h with
    | .returned total results =>
      match popFrom lang t.world p results with
      | some (a, results) => .ok (.popped a, t.set h (.returned total results))
      | none => .error ()
    | _ => .error ()
  | .callNumParams h, t =>
    match t.inner h with
    | .returned _ results => .ok (.count results.length, t)
    | _ => .error ()
  | .release h, t =>
    match t.inner h with
    | .returned _ [] => .ok (.released, t.set h .closed)
    | _ => .error ()
  | .ret, t => .ok (.returned t.pushed, t)

def spec (lang : Lang F V W) : Machine (Spec F V W) Event (Obs F V) Unit := ⟨specStep lang⟩

section Inversion

variable {lang : Lang F V W} {t t' : Spec F V W} {o : Obs F V} {h : Nat}

theorem specStep_pop {p : Pop} (hs : specStep lang (.pop p) t = .ok (o, t')) :
    ∃ a args, popFrom lang t.world p t.args = some (a, args) ∧ o = .popped a ∧ t' = { t with args } := by
  unfold specStep at hs
  cases hp : popFrom lang t.world p t.args with
  | none => simp only [hp] at hs; cases hs
  | some x => simp only [hp] at hs; cases hs; exact ⟨_, _, rfl, rfl, rfl⟩

theorem specStep_begin {name : Bytes} (hs : specStep lang (.begin name) t = .ok (o, t')) :
    ∃ f world, lang.lookup name t.world = some (f, world) ∧ o = .opened true ∧
      t' = { t.set t.next (.calling f []) with next := t.next + 1, world } := by
  unfold specStep at hs
  cases hl : lang.lookup name t.world with
  | none => simp only [hl] at hs; cases hs
  | some r => simp only [hl] at hs; cases hs; exact ⟨_, _, rfl, rfl, rfl⟩

theorem specStep_callPush {p : Push} (hs : specStep lang (.callPush h p) t = .ok (o, t')) :
    ∃ f args, t.inner h = .calling f args ∧ o = .pushed true ∧ t' = t.set h (.calling f (args ++ [lang.ofPush p])) := by
  unfold specStep at hs
  cases hI : t.inner h with
  | calling f args => simp only [hI] at hs; cases hs; exact ⟨f, args, rfl, rfl, rfl⟩
  | _ => simp only [hI] at hs; cases hs

theorem specStep_endCall (hs : specStep lang (.endCall h) t = .ok (o, t')) :
    ∃ f args results world, t.inner h = .calling f args ∧ lang.call f args t.world = some (results, world) ∧
      o = .called true (some (f, args)) ∧ t' = { t.set h (.returned results.length results.reverse) with world } := by
  unfold specStep at hs
  cases hI : t.inner h with
  | calling f args =>
    simp only [hI] at hs
    cases hc : lang.call f args t.world with
    | none => simp only [hc] at hs; cases hs
    | some r => simp only [hc] at hs; cases hs; exact ⟨f, args, r.1, r.2, rfl, hc, rfl, rfl⟩
  | _ => simp only [hI] at hs; cases hs

theorem specStep_callPop {p : Pop} (hs : specStep lang (.callPop h p) t = .ok (o, t')) :
    ∃ total results a results', t.inner h = .returned total results ∧
      popFrom lang t.world p results = some (a, results') ∧ o = .popped a ∧
      t' = t.set h (.returned total results') := by
  unfold specStep at hs
  cases hI : t.inner h with
  | returned total results =>
    simp only [hI] at hs
    cases hp : popFrom lang t.world p results with
    | none => simp only [hp] at hs; cases hs
    | some x => simp only [hp] at hs; cases hs; exact ⟨total, results, _, _, rfl, hp, rfl, rfl⟩
  | _ => simp only [hI] at hs; cases hs

theorem specStep_callNumParams (hs : specStep lang (.callNumParams h) t = .ok (o, t')) :
    ∃ total results, t.inner h = .returned total results ∧ o = .count results.length ∧ t' = t := by
  unfold specStep at hs
  cases hI : t.inner h with
  | returned total results => simp only [hI] at hs; cases hs; exact ⟨total, results, rfl, rfl, rfl⟩
  | _ => simp only [hI] at hs; cases hs

theorem specStep_release (hs : specStep lang (.release h) t = .ok (o, t')) :
    ∃ total, t.inner h = .returned total [] ∧ o = .released ∧ t' = t.set h .closed := by
  unfold specStep at hs
  cases hI : t.inner h with
  | returned total results =>
    cases results with
    | nil => simp only [hI] at hs; cases hs; exact ⟨total, rfl, rfl, rfl⟩
    | cons v vs => simp only [hI] at hs; cases hs
  | _ => simp only [hI] at hs; cases hs

end Inversion

/-! ## Handles of a backend -/

/-- The operations of a backend's `ScriptStack` class `H` on a context `C`.
`target` reads what `EndCall` is about to call, `returned` what the script gets
when the callback returns. -/
structure Backend (C H F V : Type) where
  pop : H → Pop → C → Except Fault ((Answer × H) × C)
  push : H → Push → C → Except Fault ((Bool × H) × C)
  getNumParams : H → Int
  beginCall : Bytes → C → Except Fault (Option H × C)
  endCall : H → C → Except Fault ((Bool × H) × C)
  releaseAfterCall : H → C → Except Fault (Unit × C)
  target : H → C → Option (F × List V)
  returned : H → C → List V

/-- The context, the callback's stack, and the handles that are not deleted. -/
structure Host (C H : Type) where
  c : C
  stack : H
  next : Nat
  inner : Nat → Option H

variable {C H : Type}

def Host.set (s : Host C H) (h : Nat) (i : Option H) : Host C H :=
  { s with inner := Function.update s.inner h i }

def Host.start (c : C) (stack : H) : Host C H := { c, stack, next := 0, inner := fun _ => none }

/-- An operation on an inner handle. One that is deleted is read through a wild
pointer. -/
def onInner {α : Type} (s : Host C H) (h : Nat) (op : H → C → Except Fault (α × C)) :
    Except Fault (α × C) :=
  match s.inner h with
  | none => .error .wildDeref
  | some i => op i s.c

def hostStep (b : Backend C H F V) : Event → Host C H → Except Fault (Obs F V × Host C H)
  | .pop p, s => do
    let (r, c) ← b.pop s.stack p s.c
    return (.popped r.1, { s with c, stack := r.2 })
  | .push p, s => do
    let (r, c) ← b.push s.stack p s.c
    return (.pushed r.1, { s with c, stack := r.2 })
  | .numParams, s => .ok (.count (b.getNumParams s.stack), s)
  | .begin name, s => do
    match ← b.beginCall name s.c with
    | (some i, c) => return (.opened true, { s.set s.next (some i) with c, next := s.next + 1 })
    | (none, c) => return (.opened false, { s with c })
  | .callPush h p, s => do
    let (r, c) ← onInner s h fun i => b.push i p
    return (.pushed r.1, { s.set h (some r.2) with c })
  | .endCall h, s => do
    let (r, c) ← onInner s h fun i c => (b.endCall i c).map fun r => ((r.1, b.target i c), r.2)
    return (.called r.1.1 r.2, { s.set h (some r.1.2) with c })
  | .callPop h p, s => do
    let (r, c) ← onInner s h fun i => b.pop i p
    return (.popped r.1, { s.set h (some r.2) with c })
  | .callNumParams h, s => do
    let (r, c) ← onInner s h fun i c => .ok (b.getNumParams i, c)
    return (.count r, { s with c })
  | .release h, s => do
    let (_, c) ← onInner s h fun i => b.releaseAfterCall i
    return (.released, { s.set h none with c })
  | .ret, s => .ok (.returned (b.returned s.stack s.c), s)

def handles (b : Backend C H F V) : Machine (Host C H) Event (Obs F V) Fault := ⟨hostStep b⟩

end MultiScript.Handles
