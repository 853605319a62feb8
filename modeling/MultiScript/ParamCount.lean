/-
`GetNumParams` over whole sequences of pushes and pops. It is to count what is left:
the values there were at first, less one for each pop that has answered something.

Lua, Squirrel and OCaml count down where they take a value, GameMonkey never. Lua and
Squirrel take whatever lies on top, so they also count down below zero.
-/
import MultiScript.Handles.Squirrel
import MultiScript.Handles.GameMonkey
import MultiScript.Lua.Protocol
import MultiScript.Lua.Callbacks
import MultiScript.Squirrel.Callbacks
import MultiScript.GameMonkey.Callbacks
import MultiScript.Ocaml.Context
import Mathlib.Algebra.Ring.Nat

namespace MultiScript

open Run Act Handles

/-! ## Counting -/

/-- A push or a pop of the interface. -/
inductive StackOp
  | push (p : Push)
  | pushObject (scriptObject : Nat)
  | pushNew (desc : ClassDesc) (objectPtr : Option Nat)
  | pop (p : Pop)
deriving DecidableEq, Repr

inductive StackObs
  | pushed (ok : Bool)
  | popped (a : Answer)
deriving DecidableEq, Repr

/-- `PopInt` has answered true, `PopScriptObject` an object. -/
def Answer.succeeds : Answer → Bool
  | .int value => value.isSome
  | .object p => p.isSome

/-- The successful pops of an operation. -/
def StackObs.pops : StackObs → Nat
  | .pushed _ => 0
  | .popped a => if a.succeeds then 1 else 0

def successes (os : List StackObs) : Nat := (os.map StackObs.pops).sum

/-- The operations of one stack object, on a state that has it, and what it answers. -/
structure Counted (X : Type) where
  machine : Machine X StackOp StackObs Fault
  getNumParams : X → Int

namespace Counted

variable {X : Type} (b : Counted X)

/-- One operation counts. -/
def Counts (x : X) (o : StackObs) (x' : X) : Prop :=
  b.getNumParams x' = b.getNumParams x - o.pops ∧ 0 ≤ b.getNumParams x'

/-- In states that keep `I`, `P` says exactly when an operation counts. -/
def Exactly (I : X → Prop) (P : StackOp → X → Prop) : Prop :=
  ∀ e x o x', I x → 0 ≤ b.getNumParams x → b.machine.step e x = .ok (o, x') → (b.Counts x o x' ↔ P e x) ∧ I x'

/-- A callback that pops while `GetNumParams() > 0`, with the pop it chooses. `none` where
the loop goes on after so many pops, else the pops it has made. -/
def drain (choose : X → Pop) : Nat → X → Except Fault (Option (Nat × X))
  | 0, x => if 0 < b.getNumParams x then .ok none else .ok (some (0, x))
  | fuel + 1, x =>
    if 0 < b.getNumParams x then
      match b.machine.step (.pop (choose x)) x with
      | .error f => .error f
      | .ok (_, x') => (drain choose fuel x').map (Option.map fun r => (r.1 + 1, r.2))
    else .ok (some (0, x))

/-- The first pops of the loop succeed. -/
def Fits (choose : X → Pop) : Nat → X → Prop
  | 0, _ => True
  | k + 1, x => 0 < b.getNumParams x → ∃ a x', b.machine.step (.pop (choose x)) x = .ok (.popped a, x') ∧
      a.succeeds = true ∧ Fits choose k x'

variable {b} {I : X → Prop} {P : StackOp → X → Prop}

/-- What one operation counts, a sequence counts. -/
theorem run_counts (hP : b.Exactly I P) : ∀ {es : List StackOp} {x x' : X} {os : List StackObs}, I x →
    0 ≤ b.getNumParams x → b.machine.Meets P es x → b.machine.run es x = .ok (os, x') →
    b.getNumParams x' = b.getNumParams x - successes os ∧ 0 ≤ b.getNumParams x'
  | [], _, _, _, _, h0, _, h => by
    cases h
    exact ⟨by simp [successes], h0⟩
  | e :: es, x, x', os, hi, h0, hm, h => by
    obtain ⟨o, x₁, os₁, hs, hr, rfl⟩ := Machine.run_cons_inv h
    obtain ⟨hiff, hi₁⟩ := hP e x o x₁ hi h0 hs
    obtain ⟨hcount, h1⟩ := hiff.mpr hm.1
    obtain ⟨hrest, h2⟩ := run_counts hP hi₁ h1 (hm.2 o x₁ hs) hr
    refine ⟨?_, h2⟩
    rw [hrest, hcount]
    simp only [successes, List.map_cons, List.sum_cons]
    omega

/-- Where an operation counts down for the value it takes, and for nothing else, it counts
if something is left then and the value is answered. -/
theorem exactly_of_takes {takes : StackOp → X → Option Answer}
    (hstep : ∀ e x o x', b.machine.step e x = .ok (o, x') →
      (∃ a, takes e x = some a ∧ o = .popped a ∧ b.getNumParams x' = b.getNumParams x - 1) ∨
      (takes e x = none ∧ o.pops = 0 ∧ b.getNumParams x' = b.getNumParams x)) :
    b.Exactly (fun _ => True) fun e x => ∀ a, takes e x = some a → 0 < b.getNumParams x ∧ a.succeeds = true := by
  intro e x o x' _ h0 hs
  refine ⟨?_, trivial⟩
  unfold Counts
  rcases hstep e x o x' hs with ⟨a, ht, rfl, hcount⟩ | ⟨ht, ho, hcount⟩
  · constructor
    · rintro ⟨heq, hge⟩ a' ha
      rw [ht] at ha
      cases ha
      refine ⟨by omega, ?_⟩
      by_contra hfail
      rw [StackObs.pops, if_neg hfail] at heq
      omega
    · intro hP
      obtain ⟨hpos, hsucc⟩ := hP a ht
      rw [StackObs.pops, if_pos hsucc]
      exact ⟨by omega, by omega⟩
  · refine ⟨fun _ a ha => ?_, fun _ => ⟨by omega, by omega⟩⟩
    rw [ht] at ha
    cases ha

/-- The loop ends after as many pops as there were values, and has taken these: `size`
counts the values there are. -/
theorem drain_ends {choose : X → Pop} {size : X → Nat}
    (hpop : ∀ p x a x', 0 < b.getNumParams x → b.machine.step (.pop p) x = .ok (.popped a, x') → a.succeeds = true →
      b.getNumParams x' = b.getNumParams x - 1 ∧ size x' + 1 = size x) :
    ∀ {n : Nat} {x : X}, b.getNumParams x = n → b.Fits choose n x →
      ∃ y, (∀ fuel, n ≤ fuel → b.drain choose fuel x = .ok (some (n, y))) ∧ b.getNumParams y = 0 ∧ size y + n = size x
  | 0, x, hn, _ => by
    have hdone : ¬ 0 < b.getNumParams x := by omega
    refine ⟨x, fun fuel _ => ?_, by omega, rfl⟩
    cases fuel <;> simp [drain, hdone]
  | n + 1, x, hn, hf => by
    have hmore : 0 < b.getNumParams x := by omega
    obtain ⟨a, x', hs, ha, hf'⟩ := hf hmore
    obtain ⟨hcount, hsize⟩ := hpop _ x a x' hmore hs ha
    obtain ⟨y, hd, hy, hsy⟩ := drain_ends hpop (show b.getNumParams x' = n by omega) hf'
    refine ⟨y, fun fuel hfuel => ?_, hy, by omega⟩
    obtain ⟨fuel, rfl⟩ : ∃ k, fuel = k + 1 := ⟨fuel - 1, by omega⟩
    simp only [drain, if_pos hmore, hs, hd fuel (by omega)]
    rfl

/-- A backend that does not count down does not get out of the loop. -/
theorem drain_stuck {choose : X → Pop}
    (hpop : ∀ p x o x', I x → b.machine.step (.pop p) x = .ok (o, x') → b.getNumParams x' = b.getNumParams x ∧ I x')
    (fuel : Nat) {x : X} (hi : I x) (h0 : 0 < b.getNumParams x) (r : Nat × X) :
      b.drain choose fuel x ≠ .ok (some r) := by
  induction fuel generalizing x r with
  | zero => simp [drain, h0]
  | succ fuel ih =>
    simp only [drain, if_pos h0]
    cases hs : b.machine.step (.pop (choose x)) x with
    | error f => simp
    | ok q =>
      obtain ⟨o, x'⟩ := q
      obtain ⟨hcount, hi'⟩ := hpop _ x o x' hi hs
      simp only
      cases hd : b.drain choose fuel x' with
      | error f => simp [Except.map]
      | ok q =>
        cases q with
        | none => simp [Except.map]
        | some r' => exact absurd hd (ih hi' (by omega) r')

end Counted

/-- The answer of a pop that takes the value. -/
def PopFit.taken : PopFit → Option Answer
  | .takes a => some a
  | _ => none

/-! ## Lua -/

namespace Lua

variable {vm : LuaVm} {st : LuaScriptStack} {c : LuaScriptContext}

/-- A stack object, and the state it works on. -/
abbrev Stacked := LuaScriptStack × LuaState

def stackStep (vm : LuaVm) : StackOp → Stacked → Except Fault (StackObs × Stacked)
  | .push p, x => (onThread luaView mainThread (x.1.push p) x.2).map fun r => (.pushed r.1.1, (r.1.2, r.2))
  | .pushObject p, x => (x.1.pushScriptObject p x.2).map fun r => (.pushed r.1.1, (r.1.2, r.2))
  | .pushNew desc ptr, x => (x.1.pushNewScriptObject vm desc ptr x.2).map fun r => (.pushed true, (r.1.2, r.2))
  | .pop p, x => (onThread luaView mainThread (x.1.pop vm p) x.2).map fun r => (.popped r.1.1, (r.1.2, r.2))

def counted (vm : LuaVm) : Counted Stacked := ⟨⟨stackStep vm⟩, fun x => x.1.getNumParams⟩

/-- The value on top of the frame. -/
def Stacked.top (x : Stacked) : LuaValue := (x.2.context luaView mainThread).at (-1)

/-- What a pop would take: the top of the frame, if it fits. -/
def Stacked.takes (vm : LuaVm) (x : Stacked) : StackOp → Option Answer
  | .pop p => (popFit vm x.2.world.heap p x.top).taken
  | _ => none

/-- A pop takes the top only while something is left. -/
def PopsCounted (vm : LuaVm) (e : StackOp) (x : Stacked) : Prop :=
  (x.takes vm e).isSome = true → 0 < x.1.getNumParams

theorem popFit_takes {h : LuaHeap} {p : Pop} {v : LuaValue} {a : Answer} (hf : popFit vm h p v = .takes a) :
    a.succeeds = true := by
  cases p with
  | int =>
    cases hn : vm.tonumber v <;> simp [popFit, hn] at hf
    rw [← hf]
    rfl
  | scriptObject =>
    cases v with
    | userdata r =>
      cases hb : (h.userdata r).block <;> simp [popFit, hb] at hf
      rw [← hf]
      rfl
    | _ => cases hf

theorem popFit_leaves {h : LuaHeap} {p : Pop} {v : LuaValue} {a : Answer} (hf : popFit vm h p v = .leaves a) :
    a.succeeds = false := by
  cases p with
  | int =>
    cases hn : vm.tonumber v <;> simp [popFit, hn] at hf
    rw [← hf]
    rfl
  | scriptObject =>
    cases v with
    | userdata r => cases hb : (h.userdata r).block <;> simp [popFit, hb] at hf
    | lightuserdata p => cases hf
    | _ =>
      cases hf
      rfl

/-- A pop takes the top and counts down, or leaves everything. -/
theorem pop_inv {p : Pop} {r : (Answer × LuaScriptStack) × LuaScriptContext} (h : st.pop vm p c = .ok r) :
    (popFit vm c.world.heap p (c.at (-1)) = .takes r.1.1 ∧ r.1.2.numParams = st.numParams - 1 ∧
      r.2.slots.length + 1 = c.slots.length) ∨
    (popFit vm c.world.heap p (c.at (-1)) = .leaves r.1.1 ∧ r.1.2 = st ∧ r.2 = c) := by
  cases hf : popFit vm c.world.heap p (c.at (-1)) with
  | takes a =>
    left
    cases hs : c.slots with
    | cons v vs =>
      rw [at_top hs] at hf
      rw [pop_takes hs hf] at h
      cases h
      exact ⟨rfl, rfl, rfl⟩
    | nil =>
      -- nothing is in the frame: the pop of the slot under it faults
      exfalso
      have hpop : luaPop 1 c = .error .stackUnderflow := by simp [luaPop, hs]
      cases p with
      | int =>
        cases hn : vm.tonumber (c.at (-1)) with
        | none => simp [popFit, hn] at hf
        | some n =>
          have hint : st.popInt vm 0 c = .error .stackUnderflow := by
            simp only [LuaScriptStack.popInt, hn]
            exact bind_error hpop
          rw [LuaScriptStack.pop, bind_error hint] at h
          cases h
      | scriptObject =>
        cases hv : c.at (-1) with
        | userdata u =>
          cases hb : (c.world.heap.userdata u).block with
          | none => simp [popFit, hv, hb] at hf
          | some q =>
            have hobj : st.popScriptObject c = .error .stackUnderflow := by
              simp only [LuaScriptStack.popScriptObject, hv, hb]
              exact bind_error hpop
            rw [LuaScriptStack.pop, bind_error hobj] at h
            cases h
        | _ =>
          rw [hv] at hf
          cases hf
  | leaves a =>
    right
    rw [pop_leaves hf] at h
    cases h
    exact ⟨rfl, rfl, rfl⟩
  | faults =>
    obtain ⟨f, he⟩ := pop_faults st hf
    rw [he] at h
    cases h

/-- Pushes leave the count alone. -/
theorem push_numParams {e : StackOp} {x x' : Stacked} {o : StackObs} (he : ∀ p, e ≠ .pop p)
    (h : (counted vm).machine.step e x = .ok (o, x')) : o.pops = 0 ∧ x'.1.numParams = x.1.numParams := by
  cases e with
  | pop p => exact absurd rfl (he p)
  | push p =>
    obtain ⟨⟨⟨ok, st'⟩, s'⟩, hr, heq⟩ := map_ok_inv h
    obtain ⟨c, hc, -⟩ := onThread_inv hr
    cases heq
    refine ⟨rfl, ?_⟩
    cases p <;> cases hc <;> rfl
  | pushObject p =>
    have hf : (counted vm).machine.step (.pushObject p) x = .error (.assertion "false") := rfl
    rw [hf] at h
    cases h
  | pushNew desc ptr =>
    obtain ⟨r, hr, heq⟩ := map_ok_inv h
    obtain ⟨_, s₁, -, hr⟩ := bind_ok_inv hr
    obtain ⟨_, s₂, -, hr⟩ := bind_ok_inv hr
    obtain ⟨_, s₃, -, hr⟩ := bind_ok_inv hr
    cases hr
    cases heq
    exact ⟨rfl, rfl⟩

theorem counted_exactly : (counted vm).Exactly (fun _ => True) (PopsCounted vm) := by
  have hexact : (counted vm).Exactly (fun _ => True) fun e x => ∀ a, x.takes vm e = some a →
      0 < x.1.getNumParams ∧ a.succeeds = true := by
    refine Counted.exactly_of_takes fun e x o x' hs => ?_
    cases e with
    | pop p =>
      obtain ⟨r, hr, heq⟩ := map_ok_inv hs
      obtain ⟨c, hc, -⟩ := onThread_inv hr
      cases heq
      rcases pop_inv hc with ⟨hf, hn, -⟩ | ⟨hf, hst, -⟩
      · exact .inl ⟨r.1.1, congrArg PopFit.taken hf, rfl, hn⟩
      · refine .inr ⟨congrArg PopFit.taken hf, ?_, congrArg LuaScriptStack.numParams hst⟩
        simp [StackObs.pops, popFit_leaves hf]
    | _ =>
      obtain ⟨ho, hn⟩ := push_numParams (by simp) hs
      exact .inr ⟨rfl, ho, hn⟩
  intro e x o x' hi h0 hs
  refine ⟨(hexact e x o x' hi h0 hs).1.trans ⟨fun h htake => ?_, fun h a ha => ⟨h (by rw [ha]; rfl), ?_⟩⟩, trivial⟩
  · obtain ⟨a, ha⟩ := Option.isSome_iff_exists.mp htake
    exact (h a ha).1
  · cases e with
    | pop p =>
      cases hf : popFit vm x.2.world.heap p x.top <;> simp [Stacked.takes, hf, PopFit.taken] at ha
      rw [← ha]
      exact popFit_takes hf
    | _ => cases ha

/-- The values in the frame. -/
def Stacked.size (x : Stacked) : Nat := (x.2.frame mainThread).slots.length

theorem counted_pop (p : Pop) (x : Stacked) (a : Answer) (x' : Stacked) (_ : 0 < x.1.getNumParams)
    (h : (counted vm).machine.step (.pop p) x = .ok (.popped a, x')) (ha : a.succeeds = true) :
    x'.1.getNumParams = x.1.getNumParams - 1 ∧ x'.size + 1 = x.size := by
  obtain ⟨r, hr, heq⟩ := map_ok_inv h
  obtain ⟨c, hc, hs⟩ := onThread_inv hr
  cases heq
  rcases pop_inv hc with ⟨-, hn, hlen⟩ | ⟨hf, -, -⟩
  · refine ⟨hn, ?_⟩
    simp only [Stacked.size, hs]
    simpa [VmState.setContext, luaView, VmState.context] using hlen
  · rw [popFit_leaves hf] at ha
    cases ha

/-- A stack with `n` values to pop: that of a callback with `n` parameters, or that of a
call that has answered `n` results to a frame of its own. -/
inductive Starts (vm : LuaVm) : Nat → Stacked → Prop
  | callback (s : LuaState) : Starts vm (s.frame mainThread).slots.length
      (callbackStack (s.frame mainThread).slots.length, s)
  | call {st st' : LuaScriptStack} {s : LuaState} {c' : LuaScriptContext} {f : LuaValue} {args results : List LuaValue}
      {w : LuaWorld} : st.isCall = true → st.numPushed = args.length →
      (s.frame mainThread).slots = args.reverse ++ [f] →
      vm.call f args s.world = (.returned results, w) →
      st.endCall vm (s.context luaView mainThread) = .ok ((true, st'), c') →
      Starts vm results.length (st', s.setContext luaView mainThread c')

theorem Starts.count {n : Nat} {x : Stacked} (h : Starts vm n x) : x.1.getNumParams = n ∧ x.size = n := by
  cases h with
  | callback s => exact ⟨rfl, rfl⟩
  | @call st st' s c' f args results w hst hn hs hcall hend =>
    rw [endCall_returned (c := s.context luaView mainThread) hst hn hs hcall] at hend
    cases hend
    constructor
    · simp [LuaScriptStack.getNumParams]
    · simp [Stacked.size, VmState.setContext, luaView]

end Lua

/-! ## Squirrel -/

namespace Squirrel

variable {vm : SqVm} {st : SquirrelScriptStack} {c : SquirrelScriptContext}

abbrev Stacked := SquirrelScriptStack × SqState

def stackStep (vm : SqVm) : StackOp → Stacked → Except Fault (StackObs × Stacked)
  | .push p, x => (onThread sqView mainThread (x.1.push p) x.2).map fun r => (.pushed r.1.1, (r.1.2, r.2))
  | .pushObject p, x => (x.1.pushScriptObject p x.2).map fun r => (.pushed r.1.1, (r.1.2, r.2))
  | .pushNew desc ptr, x => (x.1.pushNewScriptObject vm desc ptr x.2).map fun r => (.pushed true, (r.1.2, r.2))
  | .pop p, x => (onThread sqView mainThread (x.1.pop p) x.2).map fun r => (.popped r.1.1, (r.1.2, r.2))

def counted (vm : SqVm) : Counted Stacked := ⟨⟨stackStep vm⟩, fun x => x.1.getNumParams⟩

def Stacked.top (x : Stacked) : SqValue := (x.2.context sqView mainThread).at (-1)

def Stacked.takes (x : Stacked) : StackOp → Option Answer
  | .pop p => (popFit x.2.world p x.top).taken
  | _ => none

/-- A pop takes the top only while something is left, and takes no instance without a
wrapper. -/
def PopsCounted (e : StackOp) (x : Stacked) : Prop :=
  ∀ a, x.takes e = some a → 0 < x.1.getNumParams ∧ a.succeeds = true

theorem popFit_leaves {w : SqWorld} {p : Pop} {v : SqValue} {a : Answer} (hf : popFit w p v = .leaves a) :
    a.succeeds = false := by
  cases p with
  | int =>
    cases hn : v.getInteger <;> simp [popFit, hn] at hf
    rw [← hf]
    rfl
  | scriptObject => cases v <;> cases hf

theorem pop_inv {p : Pop} {r : (Answer × SquirrelScriptStack) × SquirrelScriptContext} (h : st.pop p c = .ok r) :
    (popFit c.world p (c.at (-1)) = .takes r.1.1 ∧ r.1.2.numParams = st.numParams - 1 ∧
      r.2.stack.length + 1 = c.stack.length ∧ r.2.stackbase = c.stackbase) ∨
    (popFit c.world p (c.at (-1)) = .leaves r.1.1 ∧ r.1.2 = st ∧ r.2 = c) := by
  have htop : ∀ v, c.at (-1) = v → v ≠ .null → ∃ vs, c.stack = v :: vs := by
    intro v hv hne
    cases hs : c.stack with
    | nil =>
      simp [SquirrelScriptContext.at, hs] at hv
      exact absurd hv.symm hne
    | cons v' vs =>
      rw [at_top hs] at hv
      exact ⟨vs, by rw [hv]⟩
  cases p with
  | int =>
    cases hn : (c.at (-1)).getInteger with
    | none =>
      right
      rw [pop_int_none hn] at h
      cases h
      exact ⟨by simp [popFit, hn], rfl, rfl⟩
    | some n =>
      left
      obtain ⟨vs, hs⟩ := htop _ rfl (fun he => by rw [he] at hn; cases hn)
      rw [pop_int_some hs hn] at h
      cases h
      exact ⟨by simp [popFit, hn], rfl, by simp [hs], rfl⟩
  | scriptObject =>
    by_cases hi : ∃ r, c.at (-1) = .sqinstance r
    · obtain ⟨i, hv⟩ := hi
      left
      obtain ⟨vs, hs⟩ := htop _ hv (fun he => by cases he)
      rw [pop_instance hs] at h
      cases h
      exact ⟨by simp [popFit, hv], rfl, by simp [hs], rfl⟩
    · have hf := @popScriptObject_assertion c st fun r hr => hi ⟨r, hr⟩
      rw [SquirrelScriptStack.pop, bind_error hf] at h
      cases h

theorem push_numParams {e : StackOp} {x x' : Stacked} {o : StackObs} (he : ∀ p, e ≠ .pop p)
    (h : (counted vm).machine.step e x = .ok (o, x')) : o.pops = 0 ∧ x'.1.numParams = x.1.numParams := by
  cases e with
  | pop p => exact absurd rfl (he p)
  | push p =>
    obtain ⟨⟨⟨ok, st'⟩, s'⟩, hr, heq⟩ := map_ok_inv h
    obtain ⟨c, hc, -⟩ := onThread_inv hr
    cases heq
    refine ⟨rfl, ?_⟩
    cases p <;> cases hc <;> rfl
  | pushObject p =>
    have hf : (counted vm).machine.step (.pushObject p) x = .error (.assertion "false") := rfl
    rw [hf] at h
    cases h
  | pushNew desc ptr =>
    obtain ⟨r, hr, heq⟩ := map_ok_inv h
    obtain ⟨_, s₁, -, hr⟩ := bind_ok_inv hr
    obtain ⟨_, s₂, -, hr⟩ := bind_ok_inv hr
    obtain ⟨_, s₃, -, hr⟩ := bind_ok_inv hr
    obtain ⟨_, s₄, -, hr⟩ := bind_ok_inv hr
    cases hr
    cases heq
    exact ⟨rfl, rfl⟩

theorem counted_exactly : (counted vm).Exactly (fun _ => True) PopsCounted := by
  refine @Counted.exactly_of_takes _ (counted vm) (fun e x => x.takes e) fun e x o x' hs => ?_
  cases e with
  | pop p =>
    obtain ⟨r, hr, heq⟩ := map_ok_inv hs
    obtain ⟨c, hc, -⟩ := onThread_inv hr
    cases heq
    rcases pop_inv hc with ⟨hf, hn, -⟩ | ⟨hf, hst, -⟩
    · exact .inl ⟨r.1.1, congrArg PopFit.taken hf, rfl, hn⟩
    · refine .inr ⟨congrArg PopFit.taken hf, ?_, congrArg SquirrelScriptStack.numParams hst⟩
      simp [StackObs.pops, popFit_leaves hf]
  | _ =>
    obtain ⟨ho, hn⟩ := push_numParams (by simp) hs
    exact .inr ⟨rfl, ho, hn⟩

def Stacked.size (x : Stacked) : Nat := (x.2.frame mainThread).stack.length

theorem counted_pop (p : Pop) (x : Stacked) (a : Answer) (x' : Stacked) (_ : 0 < x.1.getNumParams)
    (h : (counted vm).machine.step (.pop p) x = .ok (.popped a, x')) (ha : a.succeeds = true) :
    x'.1.getNumParams = x.1.getNumParams - 1 ∧ x'.size + 1 = x.size := by
  obtain ⟨r, hr, heq⟩ := map_ok_inv h
  obtain ⟨c, hc, hs⟩ := onThread_inv hr
  cases heq
  rcases pop_inv hc with ⟨-, hn, hlen, -⟩ | ⟨hf, -, -⟩
  · refine ⟨hn, ?_⟩
    simp only [Stacked.size, hs]
    simpa [VmState.setContext, sqView, VmState.context] using hlen
  · rw [popFit_leaves hf] at ha
    cases ha

/-- The same in Squirrel: over `this` in a callback, over the function after a call, which
answers one result. -/
inductive Starts (vm : SqVm) : Nat → Stacked → Prop
  | callback {s : SqState} {this : SqValue} {args below : List SqValue} :
      s.frame mainThread = { stack := args.reverse ++ this :: below, stackbase := below.length } →
      Starts vm args.length (callbackStack (s.frame mainThread).count, s)
  | call {st st' : SquirrelScriptStack} {s : SqState} {c' : SquirrelScriptContext} {f v : SqValue}
      {args rest : List SqValue}
      {w : SqWorld} : st.isCall = true → st.numPushed + 1 = args.length →
      (s.frame mainThread).stack = args.reverse ++ f :: rest → vm.call f args s.world = (some v, w) →
      st.endCall vm (s.context sqView mainThread) = .ok ((true, st'), c') →
      Starts vm 1 (st', s.setContext sqView mainThread c')

theorem Starts.count {n : Nat} {x : Stacked} (h : Starts vm n x) : x.1.getNumParams = n := by
  cases h with
  | @callback s this args below hf =>
    rw [hf]
    simp only [callbackStack, SquirrelScriptStack.getNumParams, SqFrame.count, List.length_append, List.length_reverse,
      List.length_cons]
    omega
  | @call st st' s c' f v args rest w hst hn hs hcall hend =>
    rw [endCall_some (c := s.context sqView mainThread) hst hn hs hcall] at hend
    cases hend
    rfl

end Squirrel

/-! ## GameMonkey -/

namespace GameMonkey

variable {L : Nat}

abbrev Stacked := GMScriptStack × GmState

/-- The stack of a callback works on the thread `L` that called it. -/
def stackStep (L : Nat) : StackOp → Stacked → Except Fault (StackObs × Stacked)
  | .push p, x => (onThread gmView L (x.1.push p) x.2).map fun r => (.pushed r.1.1, (r.1.2, r.2))
  | .pushObject p, x => (x.1.pushScriptObject L p x.2).map fun r => (.pushed r.1.1, (r.1.2, r.2))
  | .pushNew desc ptr, x => (x.1.pushNewScriptObject L desc ptr x.2).map fun r => (.pushed true, (r.1.2, r.2))
  | .pop p, x => (onThread gmView L (x.1.pop p) x.2).map fun r => (.popped r.1.1, (r.1.2, r.2))

def counted (L : Nat) : Counted Stacked := ⟨⟨stackStep L⟩, fun x => x.1.getNumParams⟩

/-- The value a pop looks at. -/
def Stacked.next (L : Nat) (x : Stacked) : Option GmValue :=
  if x.1.numPopped = x.1.numParams then none
  else match x.1.call with
    | some call => call.returnVar
    | none => (x.2.frame L).params[(x.1.numParams - x.1.numPopped - 1).toNat]?

/-- The stack of a callback has counted its parameters. -/
def Stacked.Sound (L : Nat) (x : Stacked) : Prop :=
  x.1.call = none → x.1.numParams = (x.2.frame L).params.length ∧ 0 ≤ x.1.numPopped ∧ x.1.numPopped ≤ x.1.numParams

/-- What a pop makes of a value. A result is an object only if it is of the first user
type. -/
def popFit (w : GmWorld) (result : Bool) : Pop → GmValue → PopFit
  | .int, .int n => .takes (.int (some n))
  | .int, _ => .leaves (.int none)
  | .scriptObject, .user type ref =>
    if (if result then type = gmUser else gmUser ≤ type) then .takes (.object (w.user ref)) else .leaves (.object none)
  | .scriptObject, _ => .leaves (.object none)

/-- A pop answers nothing. -/
def PopsCounted (L : Nat) : StackOp → Stacked → Prop
  | .pop p, x => ∀ v a, x.next L = some v → popFit x.2.world x.1.call.isSome p v = .takes a → a.succeeds = false
  | _, _ => True

/-- What a pop does, by the value it looks at. `m_numParams` stays as it is. -/
theorem pop_eq {p : Pop} {x : Stacked} (hx : x.Sound L) :
    x.1.pop p (x.2.context gmView L) = match x.next L with
      | none => .ok ((emptyAnswer p, x.1), x.2.context gmView L)
      | some v =>
        match popFit x.2.world x.1.call.isSome p v with
        | .takes a => .ok ((a, { x.1 with numPopped := x.1.numPopped + 1 }), x.2.context gmView L)
        | .leaves a => .ok ((a, x.1), x.2.context gmView L)
        | .faults => .error .nullDeref := by
  obtain ⟨⟨numParams, numPopped, call⟩, s⟩ := x
  unfold Stacked.next
  by_cases hend : numPopped = numParams
  · simp only [if_pos hend]
    exact pop_nothing p hend
  · simp only [if_neg hend]
    cases call with
    | some call =>
      cases hret : call.returnVar with
      | none =>
        cases p with
        | int => simp only [GMScriptStack.pop, GMScriptStack.popInt, bind, StateT.bind, if_neg hend, hret]; rfl
        | scriptObject =>
          simp only [GMScriptStack.pop, GMScriptStack.popScriptObject, bind, StateT.bind, if_neg hend, hret]
          rfl
      | some v =>
        cases p with
        | int =>
          simp only [GMScriptStack.pop, GMScriptStack.popInt, bind, StateT.bind, if_neg hend, hret]
          cases v <;> rfl
        | scriptObject =>
          simp only [GMScriptStack.pop, GMScriptStack.popScriptObject, bind, StateT.bind, if_neg hend, hret]
          cases v with
          | user type ref =>
            by_cases hu : type = gmUser
            · simp only [if_pos hu, popFit]
              simp [hu]
              rfl
            · simp only [if_neg hu, popFit]
              simp [hu]
              rfl
          | _ => rfl
    | none =>
      obtain ⟨hn, h0, hle⟩ := hx rfl
      simp only at hn h0 hle
      have hlt : (numParams - numPopped - 1).toNat < (s.frame L).params.length := by omega
      have hin : ¬ ((s.frame L).params.length : Int) ≤ numParams - numPopped - 1 := by omega
      have hget : (s.frame L).params.getD (numParams - numPopped - 1).toNat .null
          = (s.frame L).params[(numParams - numPopped - 1).toNat] := by
        rw [List.getD, List.getElem?_eq_getElem hlt, Option.getD_some]
      rw [List.getElem?_eq_getElem hlt]
      generalize (s.frame L).params[(numParams - numPopped - 1).toNat] = v at hget
      have hparams : (s.context gmView L).thread.params = (s.frame L).params := rfl
      cases p with
      | int =>
        simp only [GMScriptStack.pop, GMScriptStack.popInt, bind, StateT.bind, if_neg hend, GmThread.paramInt, hparams,
          if_neg hin, hget]
        cases v <;> rfl
      | scriptObject =>
        simp only [GMScriptStack.pop, GMScriptStack.popScriptObject, bind, StateT.bind, if_neg hend,
          GmThread.paramUserObject, hparams, if_neg hin, hget]
        cases v with
        | user type ref =>
          by_cases hu : gmUser ≤ type
          · simp only [if_pos hu, popFit]
            simp [hu]
            rfl
          · simp only [if_neg hu, popFit]
            simp [hu]
            rfl
        | _ => rfl

theorem popFit_leaves {w : GmWorld} {result : Bool} {p : Pop} {v : GmValue} {a : Answer}
    (hf : popFit w result p v = .leaves a) : a.succeeds = false := by
  cases p with
  | int =>
    cases v <;> cases hf
    all_goals rfl
  | scriptObject =>
    cases v with
    | user type ref =>
      by_cases hu : if result then type = gmUser else gmUser ≤ type
      · simp [popFit, hu] at hf
      · simp only [popFit, if_neg hu] at hf
        cases hf
        rfl
    | _ =>
      cases hf
      rfl

section Params

/-- The action leaves the parameters of the thread `L`. -/
def KeepsParams {α : Type} (L : Nat) (m : GmS α) (s : GmState) (Q : α → Prop) : Prop :=
  Ends m s (fun a s' => Q a ∧ (s'.frame L).params = (s.frame L).params) fun _ => True

variable {α β : Type} {s : GmState}

theorem KeepsParams.bind {m : GmS α} {k : α → GmS β} {Q : α → Prop} {R : β → Prop} (h : KeepsParams L m s Q)
    (hk : ∀ a s', Q a → KeepsParams L (k a) s' R) : KeepsParams L (m >>= k) s R := by
  refine Ends.bind h fun a s' ⟨hQ, hp⟩ => ?_
  exact (hk a s' hQ).mono fun b s'' ⟨hR, hp'⟩ => ⟨hR, hp'.trans hp⟩

theorem keepsParams_pure {a : α} {Q : α → Prop} (h : Q a) : KeepsParams L (pure a) s Q := Ends.pure ⟨h, rfl⟩

theorem keepsParams_vmAssert {cond : Bool} {text : String} : KeepsParams L (vmAssert cond text) s fun _ => True := by
  cases cond
  · exact trivial
  · exact ⟨trivial, rfl⟩

theorem keepsParams_onObjects {f : Objects → Except Fault (α × Objects)} :
    KeepsParams L (onObjects f) s fun _ => True := by
  unfold KeepsParams Ends onObjects
  cases f s.objects with
  | error e => exact trivial
  | ok r => exact ⟨trivial, rfl⟩

theorem keepsParams_onThread {m : GmM α}
    (hm : ∀ c, Ends m c (fun _ c' => c'.thread.params = c.thread.params) fun _ => True) :
    KeepsParams L (onThread gmView L m) s fun _ => True := by
  have h := hm (s.context gmView L)
  unfold Ends at h
  unfold KeepsParams Ends onThread
  cases hr : m (s.context gmView L) with
  | error e => exact trivial
  | ok r =>
    rw [hr] at h
    have hframe : (s.setContext gmView L r.2).frame L = r.2.thread := by simp [VmState.setContext, gmView]
    exact ⟨trivial, (congrArg GmThread.params hframe).trans h⟩

theorem gmAssert_params {cond : Bool} {text : String} {c : GMScriptContext} {E : Fault → Prop} (hE : ∀ f, E f) :
    Ends (gmAssert cond text) c (fun _ c' => c'.thread.params = c.thread.params) E := by
  cases cond
  · exact hE _
  · exact rfl

theorem registerUserClass_params {desc : ClassDesc} (c : GMScriptContext) :
    Ends (registerUserClass desc) c (fun _ c' => c'.thread.params = c.thread.params) fun _ => True := by
  refine Ends.bind (gmAssert_params fun _ => trivial) fun _ c₁ h₁ => ?_
  refine Ends.bind (gmAssert_params fun _ => trivial) fun _ c₂ h₂ => ?_
  exact h₂.trans h₁

theorem findOrRegister_params {desc : ClassDesc} (c : GMScriptContext) :
    Ends (findOrRegister desc) c (fun _ c' => c'.thread.params = c.thread.params) fun _ => True := by
  unfold Ends
  rw [findOrRegister, bind_get]
  cases hf : findClassInfo c.world desc with
  | some info => exact rfl
  | none =>
    have hreg := @registerUserClass_params desc c
    refine Ends.bind hreg fun _ c₁ h₁ => ?_
    unfold Ends
    rw [classInfoOf, bind_get]
    cases hf₁ : findClassInfo c₁.world desc with
    | some info => exact h₁
    | none => exact trivial

theorem pushNewScriptObject_params {st : GMScriptStack} {desc : ClassDesc} {ptr : Option Nat} :
    KeepsParams L (st.pushNewScriptObject L desc ptr) s fun r => r.2 = st := by
  refine keepsParams_vmAssert.bind fun _ s₁ _ => ?_
  refine (keepsParams_onThread findOrRegister_params).bind fun info s₂ _ => ?_
  refine keepsParams_onObjects.bind fun p s₃ _ => ?_
  refine (keepsParams_onThread fun c => .of_ok rfl rfl).bind fun type s₄ _ => ?_
  refine (keepsParams_onThread (m := pushNewUser p type) fun c => .of_ok rfl rfl).bind fun ref s₅ _ => ?_
  exact keepsParams_onObjects.bind fun _ s₆ _ => keepsParams_pure rfl

theorem pushScriptObject_params {st : GMScriptStack} {p : Nat} :
    KeepsParams L (st.pushScriptObject L p) s fun r => r.2 = st := by
  refine keepsParams_vmAssert.bind fun _ s₁ _ => ?_
  refine keepsParams_onObjects.bind fun w s₂ _ => ?_
  cases w.userObject with
  | none => exact trivial
  | some ref =>
    refine (keepsParams_onThread fun c => ?_).bind fun _ s₃ _ => keepsParams_pure rfl
    cases hc : w.classInfo with
    | none => exact trivial
    | some desc => exact .of_ok rfl rfl

end Params

/-- A push counts nothing, and leaves what a pop looks at. -/
theorem push_params {e : StackOp} {x x' : Stacked} {o : StackObs} (he : ∀ p, e ≠ .pop p)
    (h : (counted L).machine.step e x = .ok (o, x')) :
    o.pops = 0 ∧ x'.1.numParams = x.1.numParams ∧ x'.1.numPopped = x.1.numPopped ∧
      (x'.1.call = none → x.1.call = none) ∧ (x'.2.frame L).params = (x.2.frame L).params := by
  cases e with
  | pop p => exact absurd rfl (he p)
  | push p =>
    obtain ⟨⟨⟨ok, st'⟩, s'⟩, hr, heq⟩ := map_ok_inv h
    obtain ⟨c, hc, hs⟩ := onThread_inv hr
    cases heq
    simp only at hs hc
    rw [GMScriptStack.push] at hc
    have hparams : ∀ c : GMScriptContext, c.thread.params = (x.2.frame L).params →
        ((x.2.setContext gmView L c).frame L).params = (x.2.frame L).params := by
      intro c hc
      simpa [VmState.setContext, gmView] using hc
    cases hcall : x.1.call with
    | some call =>
      rw [hcall] at hc
      cases hc
      exact ⟨rfl, rfl, rfl, fun hn => (by cases hn), by rw [hs]; exact hparams _ rfl⟩
    | none =>
      rw [hcall] at hc
      cases hc
      exact ⟨rfl, rfl, rfl, fun _ => rfl, by rw [hs]; exact hparams _ rfl⟩
  | pushObject p =>
    obtain ⟨⟨⟨ok, st'⟩, s'⟩, hr, heq⟩ := map_ok_inv h
    have hkeeps : KeepsParams L (x.1.pushScriptObject L p) x.2 fun r => r.2 = x.1 := pushScriptObject_params
    obtain ⟨rfl, hp⟩ := hkeeps.ok hr
    cases heq
    exact ⟨rfl, rfl, rfl, id, hp⟩
  | pushNew desc ptr =>
    obtain ⟨⟨⟨q, st'⟩, s'⟩, hr, heq⟩ := map_ok_inv h
    have hkeeps : KeepsParams L (x.1.pushNewScriptObject L desc ptr) x.2 fun r => r.2 = x.1 :=
      pushNewScriptObject_params
    obtain ⟨rfl, hp⟩ := hkeeps.ok hr
    cases heq
    exact ⟨rfl, rfl, rfl, id, hp⟩

/-- `m_numParams` is the same after every pop. -/
theorem pop_step {p : Pop} {x x' : Stacked} {o : StackObs} (hx : x.Sound L)
    (h : (counted L).machine.step (.pop p) x = .ok (o, x')) :
    x'.1.numParams = x.1.numParams ∧ x'.Sound L ∧ (o.pops = 0 ↔ PopsCounted L (.pop p) x) := by
  obtain ⟨⟨⟨a, st'⟩, s'⟩, hr, heq⟩ := map_ok_inv h
  obtain ⟨c, hc, hs⟩ := onThread_inv hr
  cases heq
  simp only at hs hc
  rw [pop_eq hx] at hc
  cases hn : x.next L with
  | none =>
    rw [hn] at hc
    cases hc
    refine ⟨rfl, by rw [hs, setContext_self]; exact hx, ?_⟩
    have hempty : StackObs.pops (.popped (emptyAnswer p)) = 0 := by cases p <;> rfl
    refine ⟨fun _ v b hv => ?_, fun _ => hempty⟩
    rw [hn] at hv
    cases hv
  | some v =>
    rw [hn] at hc
    simp only at hc
    cases hf : popFit x.2.world x.1.call.isSome p v with
    | takes b =>
      rw [hf] at hc
      cases hc
      refine ⟨rfl, ?_, ?_⟩
      · rw [hs, setContext_self]
        intro hcall
        obtain ⟨hlen, h0, hle⟩ := hx hcall
        have hne : ¬ x.1.numPopped = x.1.numParams := by
          intro he
          simp [Stacked.next, he] at hn
        exact ⟨hlen, by simp only; omega, by simp only; omega⟩
      · constructor
        · intro ho v' b' hv hb
          rw [hn] at hv
          cases hv
          rw [hf] at hb
          cases hb
          cases hsucc : a.succeeds with
          | false => rfl
          | true => simp [StackObs.pops, hsucc] at ho
        · intro hP
          simp [StackObs.pops, hP v a hn hf]
    | leaves b =>
      rw [hf] at hc
      cases hc
      refine ⟨rfl, by rw [hs, setContext_self]; exact hx, ?_⟩
      refine ⟨fun _ v' b' hv hb => ?_, fun _ => by simp [StackObs.pops, popFit_leaves hf]⟩
      rw [hn] at hv
      cases hv
      rw [hf] at hb
      cases hb
    | faults =>
      rw [hf] at hc
      cases hc

theorem counted_exactly : (counted L).Exactly (Stacked.Sound L) (PopsCounted L) := by
  intro e x o x' hx h0 hs
  have h0' : 0 ≤ x.1.numParams := h0
  simp only [Counted.Counts, counted, GMScriptStack.getNumParams]
  by_cases hpop : ∃ p, e = .pop p
  · obtain ⟨p, rfl⟩ := hpop
    obtain ⟨hn, hsound, hiff⟩ := pop_step hx hs
    refine ⟨?_, hsound⟩
    rw [← hiff]
    constructor
    · rintro ⟨heq, -⟩
      omega
    · intro ho
      exact ⟨by omega, by omega⟩
  · have hne : ∀ p, e ≠ .pop p := fun p he => hpop ⟨p, he⟩
    obtain ⟨ho, hn, hpopped, hcall, hparams⟩ := push_params hne hs
    have hP : PopsCounted L e x := by
      cases e with
      | pop p => exact absurd rfl (hne p)
      | _ => trivial
    refine ⟨⟨fun _ => hP, fun _ => ⟨by omega, by omega⟩⟩, fun hc => ?_⟩
    obtain ⟨hlen, hge, hle⟩ := hx (hcall hc)
    rw [hn, hpopped, hparams]
    exact ⟨hlen, hge, hle⟩

/-- A callback with its parameters, or a call that has ended. -/
inductive Starts (vm : GmVm) (L : Nat) : Nat → Stacked → Prop
  | callback (s : GmState) : Starts vm L (s.frame L).params.length (callbackStack (s.frame L).params.length, s)
  | call {st st' : GMScriptStack} {s : GmState} {c' : GMScriptContext} {call : GmCall} {o : Option GmValue}
      {w : GmWorld} :
      st.call = some call → vm.call call.function call.params s.world = (o, w) →
      st.endCall vm (s.context gmView L) = .ok ((true, st'), c') →
      Starts vm L o.toList.length (st', s.setContext gmView L c')

theorem Starts.count {vm : GmVm} {n : Nat} {x : Stacked} (h : Starts vm L n x) : x.1.getNumParams = n ∧ x.Sound L := by
  cases h with
  | callback s => exact ⟨rfl, fun _ => ⟨rfl, Int.le_refl 0, Int.natCast_nonneg _⟩⟩
  | @call st st' s c' call o w hc hcall hend =>
    have hcall' : vm.call call.function call.params (s.context gmView L).world = (o, w) := hcall
    simp only [GMScriptStack.endCall, hc, hcall'] at hend
    cases o with
    | none =>
      cases hend
      exact ⟨rfl, fun hn => by cases hn⟩
    | some v =>
      cases hend
      exact ⟨rfl, fun hn => by cases hn⟩

end GameMonkey

/-! ## OCaml -/

namespace Ocaml

abbrev Stacked := OcamlScriptStack × OcamlProcess

def stackStep : StackOp → Stacked → Except Fault (StackObs × Stacked)
  | .push p, x => (x.1.push p x.2).map fun r => (.pushed r.1.1, (r.1.2, r.2))
  | .pushObject p, x => (x.1.pushScriptObject p x.2).map fun r => (.pushed r.1.1, (r.1.2, r.2))
  | .pushNew desc ptr, x => (x.1.pushNewScriptObject desc ptr x.2).map fun r => (.pushed true, (r.1.2, r.2))
  | .pop p, x => (x.1.pop p x.2).map fun r => (.popped r.1.1, (r.1.2, r.2))

def counted : Counted Stacked := ⟨⟨stackStep⟩, fun x => x.1.getNumParams⟩

theorem pushInt_numParams {st : OcamlScriptStack} {value : Int} : (st.pushInt value).2.numParams = st.numParams := by
  unfold OcamlScriptStack.pushInt
  split
  · rfl
  · split <;> rfl

/-- A pop answers an integer where something is left. -/
theorem popInt_left {st : OcamlScriptStack} {value : Int} (h : st.numParams ≠ 0) :
    (Answer.ofPopInt (st.popInt value).1).succeeds = true ∧ (st.popInt value).2.numParams = st.numParams - 1 := by
  unfold OcamlScriptStack.popInt
  rw [if_neg h]
  split <;> exact ⟨rfl, rfl⟩

theorem popInt_end {st : OcamlScriptStack} {value : Int} (h : st.numParams = 0) :
    st.popInt value = ((false, value), st) := by
  unfold OcamlScriptStack.popInt
  rw [if_pos h]

theorem pop_step {p : Pop} {x x' : Stacked} {o : StackObs} (h : counted.machine.step (.pop p) x = .ok (o, x')) :
    p = .int ∧ o = .popped (.ofPopInt (x.1.popInt 0).1) ∧ x'.1 = (x.1.popInt 0).2 := by
  cases p with
  | int =>
    cases h
    exact ⟨rfl, rfl, rfl⟩
  | scriptObject => cases h

theorem counted_exactly : counted.Exactly (fun _ => True) fun _ _ => True := by
  intro e x o x' _ h0 hs
  have h0' : 0 ≤ x.1.numParams := h0
  refine ⟨⟨fun _ => trivial, fun _ => ?_⟩, trivial⟩
  simp only [Counted.Counts, counted, OcamlScriptStack.getNumParams]
  cases e with
  | pop p =>
    obtain ⟨-, rfl, hst⟩ := pop_step hs
    rw [hst]
    by_cases hz : x.1.numParams = 0
    · rw [popInt_end hz]
      exact ⟨by simp [StackObs.pops, Answer.ofPopInt, Answer.succeeds], h0'⟩
    · obtain ⟨hsucc, hn⟩ := @popInt_left x.1 0 hz
      rw [hn, StackObs.pops, if_pos hsucc]
      exact ⟨by omega, by omega⟩
  | push p =>
    cases p with
    | int value =>
      cases hs
      rw [pushInt_numParams]
      exact ⟨by simp [StackObs.pops], h0'⟩
    | string s n => cases hs
  | pushObject p => cases hs
  | pushNew desc ptr => cases hs

/-- The parameters left. -/
def Stacked.size (x : Stacked) : Nat := x.1.numParams.toNat

theorem counted_pop (p : Pop) (x : Stacked) (a : Answer) (x' : Stacked) (hx : 0 < x.1.getNumParams)
    (h : counted.machine.step (.pop p) x = .ok (.popped a, x')) (_ : a.succeeds = true) :
    x'.1.getNumParams = x.1.getNumParams - 1 ∧ x'.size + 1 = x.size := by
  obtain ⟨-, -, hst⟩ := pop_step h
  have hx' : 0 < x.1.numParams := hx
  obtain ⟨-, hn⟩ := @popInt_left x.1 0 (by omega)
  simp only [OcamlScriptStack.getNumParams, Stacked.size, hst, hn]
  exact ⟨trivial, by omega⟩

/-- A callback with its parameters, or a call that has ended. -/
inductive Starts (vm : OcamlVm) : Nat → Stacked → Prop
  | callback (args : List Word) (p : OcamlProcess) : Starts vm args.length (callbackStack args, p)
  | call {st st' : OcamlScriptStack} {p p' : OcamlProcess} : st.endCall vm p = .ok ((true, st'), p') →
      Starts vm 1 (st', p')

theorem Starts.count {vm : OcamlVm} {n : Nat} {x : Stacked} (h : Starts vm n x) : x.1.getNumParams = n := by
  cases h with
  | callback args p => rfl
  | @call st st' p p' hend =>
    rw [OcamlScriptStack.endCall] at hend
    obtain ⟨_, p₁, -, hend⟩ := bind_ok_inv hend
    split at hend
    · cases hend
    · obtain ⟨rt, p₂, -, hend⟩ := bind_ok_inv hend
      cases hc : st.closure.bind rt.named with
      | none =>
        rw [hc] at hend
        cases hend
      | some closure =>
        rw [hc] at hend
        obtain ⟨result, p₃, -, hend⟩ := bind_ok_inv hend
        cases hend
        rfl

end Ocaml

/-! ## The four of them -/

namespace Counted

variable {X : Type}

/-- After operations that keep to `P`, from `n` values, what is left is counted. -/
def CountsLeft (b : Counted X) (P : StackOp → X → Prop) (n : Nat) (x : X) : Prop :=
  ∀ es os x', b.machine.Meets P es x → b.machine.run es x = .ok (os, x') →
    b.getNumParams x' = n - successes os ∧ 0 ≤ b.getNumParams x'

/-- The loop ends after `n` pops that succeed, with nothing left. -/
def Drains (b : Counted X) (size : X → Nat) (n : Nat) (x : X) : Prop :=
  ∀ choose, b.Fits choose n x →
    ∃ y, (∀ fuel, n ≤ fuel → b.drain choose fuel x = .ok (some (n, y))) ∧ b.getNumParams y = 0 ∧ size y + n = size x

theorem Exactly.countsLeft {b : Counted X} {I : X → Prop} {P : StackOp → X → Prop} {n : Nat} {x : X}
    (hP : b.Exactly I P)
    (hi : I x) (hn : b.getNumParams x = n) : b.CountsLeft P n x := by
  intro es os x' hm hr
  rw [← hn]
  exact run_counts hP hi (by omega) hm hr

end Counted

/-- `GetNumParams` counts what is left while a pop takes what is left: in OCaml always, in
Lua and Squirrel where a pop takes nothing else, in GameMonkey where it takes nothing. A
loop over it ends with the last parameter but in GameMonkey, where it does not end. -/
theorem getNumParams_counts (lua : Lua.LuaVm) (sq : Squirrel.SqVm) (gm : GameMonkey.GmVm) (ocaml : Ocaml.OcamlVm) :
    ((Lua.counted lua).Exactly (fun _ => True) (Lua.PopsCounted lua) ∧ ∀ n x, Lua.Starts lua n x →
      (Lua.counted lua).CountsLeft (Lua.PopsCounted lua) n x ∧ (Lua.counted lua).Drains Lua.Stacked.size n x) ∧
    ((Squirrel.counted sq).Exactly (fun _ => True) Squirrel.PopsCounted ∧ ∀ n x, Squirrel.Starts sq n x →
      (Squirrel.counted sq).CountsLeft Squirrel.PopsCounted n x ∧
      (Squirrel.counted sq).Drains Squirrel.Stacked.size n x) ∧
    (∀ L, (GameMonkey.counted L).Exactly (GameMonkey.Stacked.Sound L) (GameMonkey.PopsCounted L) ∧
      ∀ n x, GameMonkey.Starts gm L n x → (GameMonkey.counted L).CountsLeft (GameMonkey.PopsCounted L) n x ∧
        (0 < n → ∀ choose fuel r, (GameMonkey.counted L).drain choose fuel x ≠ .ok (some r))) ∧
    ∀ n x, Ocaml.Starts ocaml n x →
      Ocaml.counted.CountsLeft (fun _ _ => True) n x ∧ Ocaml.counted.Drains Ocaml.Stacked.size n x := by
  refine ⟨⟨Lua.counted_exactly, fun n x hx => ?_⟩, ⟨Squirrel.counted_exactly, fun n x hx => ?_⟩,
    fun L => ⟨GameMonkey.counted_exactly, fun n x hx => ?_⟩, fun n x hx => ?_⟩
  · exact ⟨Lua.counted_exactly.countsLeft trivial hx.count.1, fun choose hf =>
      Counted.drain_ends Lua.counted_pop hx.count.1 hf⟩
  · exact ⟨Squirrel.counted_exactly.countsLeft trivial hx.count, fun choose hf =>
      Counted.drain_ends Squirrel.counted_pop hx.count hf⟩
  · obtain ⟨hn, hsound⟩ := hx.count
    refine ⟨GameMonkey.counted_exactly.countsLeft hsound hn, fun hpos choose fuel r => ?_⟩
    refine Counted.drain_stuck (fun p y o y' hy hs => ?_) fuel hsound (show 0 < x.1.getNumParams by omega) r
    obtain ⟨hcount, hy', -⟩ := GameMonkey.pop_step hy hs
    exact ⟨hcount, hy'⟩
  · exact ⟨Ocaml.counted_exactly.countsLeft trivial hx.count, fun choose hf =>
      Counted.drain_ends Ocaml.counted_pop hx.count hf⟩

/-- A GameMonkey callback `f(5)`. -/
def GameMonkey.oneParam : GameMonkey.GmState where
  frame _ := { this := .null, params := [.int 5], pushed := [] }
  world := (GameMonkey.createContext 0 (fun _ => .null) fun _ => .other 0).world
  objects := .empty

/-- It has popped its parameter, and one is counted. -/
theorem getNumParams_after_pop :
    ∃ os x', GameMonkey.Starts { call := fun _ _ w => (none, w), executeString := fun _ w => (0, w) } 0 1
        (GameMonkey.callbackStack 1, GameMonkey.oneParam) ∧
      (GameMonkey.counted 0).machine.run [.pop .int] (GameMonkey.callbackStack 1, GameMonkey.oneParam) = .ok (os, x') ∧
      successes os = 1 ∧ (GameMonkey.counted 0).getNumParams x' = 1 :=
  ⟨_, _, .callback GameMonkey.oneParam, rfl, rfl, rfl⟩

/-- A Lua callback `f(3, 4)`. -/
def Lua.twoParams : Lua.LuaState where
  frame _ := { func := .function 0, slots := [.number (.ofInt 4), .number (.ofInt 3)] }
  world := (Lua.createContext (.binding [cstr "f"])).world
  objects := .empty

/-- It pops both, and has then nothing left. -/
theorem getNumParams_counts_two : ∃ y, (∀ fuel, 2 ≤ fuel →
      (Lua.counted (.ending (.returned []))).drain (fun _ => .int) fuel (Lua.callbackStack 2, Lua.twoParams)
        = .ok (some (2, y))) ∧
    y.1.getNumParams = 0 ∧ (y.2.frame mainThread).slots = [] := by
  have gm : GameMonkey.GmVm := { call := fun _ _ w => (none, w), executeString := fun _ w => (0, w) }
  obtain ⟨-, hdrain⟩ := (getNumParams_counts (.ending (.returned [])) (.ending none) gm (.printing [])).1.2 2 _
    (.callback Lua.twoParams)
  obtain ⟨y, hy, hcount, hsize⟩ := hdrain (fun _ => .int)
    (fun _ => ⟨_, _, rfl, rfl, fun _ => ⟨_, _, rfl, rfl, trivial⟩⟩)
  refine ⟨y, hy, hcount, List.length_eq_zero_iff.mp ?_⟩
  have hlen : Lua.Stacked.size y + 2 = 2 := hsize
  simpa [Lua.Stacked.size] using hlen

end MultiScript
