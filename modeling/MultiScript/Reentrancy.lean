/-
The OCaml interpreter entered again from a primitive it calls: registered
functions do that when they call a closure or execute a script. With `pc` at
file level the activation that made the call has lost its place when the
primitive returns; where no primitive that enters the interpreter returns, the
interpreter is the one whose registers are local.
-/
import MultiScript.Ocaml.Interp

namespace MultiScript.Ocaml

open Run

/-! ## Where a primitive returns to -/

/-- While a primitive that has not entered the interpreter runs, `pc` is still at
the operand of the call. -/
structure Placed (s : Interp) : Prop where
  pc : ∀ a ∈ s.acts.head?, a.calling.isSome = true → a.reentered = false → s.regs.pc = a.savedPc
  suspended : ∀ a ∈ s.acts.tail, a.Suspended

variable {vm : Vm} {st : Storage} {a : Activation} {rest : List Activation} {m : Core}

theorem resume_placed (h : ∀ b ∈ rest, b.Suspended) : Placed (resume a rest m).2 := by
  refine ⟨?_, h⟩
  intro b hb hc
  cases hb
  cases hc

theorem leave_placed (h : ∀ b ∈ rest, b.Suspended) (res : Word) (r : Regs) (rt : Runtime) :
    Placed (leave st a rest res r rt).2 := by
  refine ⟨?_, fun b hb => h b (List.mem_of_mem_tail hb)⟩
  intro b hb _ hr
  have hs := h b (List.mem_of_mem_head? hb)
  rw [hs.2] at hr
  cases hr

theorem raiseException_placed (h : ∀ b ∈ rest, b.Suspended) : Placed (raiseException st a rest m).2 := by
  by_cases hb : m.rt.stackHigh - a.initialSpOffset ≤ m.rt.trapsp
  · simp only [raiseException, if_pos hb]
    exact leave_placed h _ _ _
  · simp only [raiseException, if_neg hb]
    exact resume_placed h

theorem dispatch_placed (h : ∀ b ∈ rest, b.Suspended) (o : Outcome) : Placed (dispatch st a rest m o).2 := by
  cases o with
  | next => exact resume_placed h
  | cCall prim args drop =>
    refine ⟨?_, h⟩
    intro b hb _ _
    cases hb
    rfl
  | stop => exact leave_placed h _ _ _
  | raise => exact raiseException_placed h

theorem step_placed {e : Event} {s : Interp} {x : Obs × Interp} (hI : Placed s) (hs : step vm st e s = .ok x) :
    Placed x.2 := by
  obtain ⟨sr, srt, sacts⟩ := s
  obtain ⟨hpc, hsus⟩ := hI
  cases e with
  | instr =>
    cases sacts with
    | nil => cases hs
    | cons a rest =>
      cases hcall : a.calling with
      | some d => simp [step, hcall] at hs
      | none =>
        simp only [step, hcall] at hs
        cases hs
        exact dispatch_placed hsus _
  | effect f =>
    cases hc : inC sacts with
    | none => simp [step, hc] at hs
    | some acts =>
      simp only [step, hc] at hs
      cases hs
      exact ⟨hpc, hsus⟩
  | enter prog =>
    cases hc : inC sacts with
    | none => simp [step, hc] at hs
    | some acts =>
      simp only [step, hc] at hs
      cases hs
      exact resume_placed (inC_suspended hsus hc)
  | callback closure args =>
    cases hc : inC sacts with
    | none => simp [step, hc] at hs
    | some acts =>
      simp only [step, hc] at hs
      cases hs
      exact resume_placed (inC_suspended hsus hc)
  | ret v =>
    cases sacts with
    | nil => cases hs
    | cons a rest =>
      cases hcall : a.calling with
      | none => simp [step, hcall] at hs
      | some d =>
        simp only [step, hcall] at hs
        cases hs
        exact resume_placed hsus
  | raise v =>
    cases sacts with
    | nil => cases hs
    | cons a rest =>
      cases hcall : a.calling with
      | none => simp [step, hcall] at hs
      | some d =>
        simp only [step, hcall] at hs
        cases hs
        exact raiseException_placed hsus

/-! ## The two interpreters -/

/-- **Re-entrancy.** In every run, from a state where nothing is interpreted, in
which a primitive that has entered the interpreter does not return, the
interpreter with its registers at file level makes the observations of the one
with local registers: the instructions it fetches with their registers and
locals, the primitives it calls, the results it leaves with. In every run at
all, a primitive that has not entered the interpreter returns to the instruction
after its call, with its result in `accu` and with the stack pointer and
environment that the call left. -/
theorem interprete_reentrant (vm : Vm) :
    (∀ (es : List Event) (s : Interp) os s', s.acts = [] →
      (interp vm .activation).Meets Returns es s → (interp vm .activation).run es s = .ok (os, s') →
      ∃ t, (interp vm .file).run es s = .ok (os, t)) ∧
    (∀ (es : List Event) (s : Interp) os t a rest drop v, s.acts = [] →
      (interp vm .file).run es s = .ok (os, t) →
      t.acts = a :: rest → a.calling = some drop → a.reentered = false →
      ∃ t', step vm .file (.ret v) t = .ok (.fetches
        { pc := a.savedPc + 4, sp := t.rt.externSp + 4 + 4 * drop, accu := v,
          env := t.rt.mem t.rt.externSp, extraArgs := a.extraArgs }, t')) := by
  constructor
  · intro es s os s' hacts hm hr
    have hR : Related s s := by
      refine ⟨rfl, rfl, fun _ _ _ => rfl, ?_⟩
      simp [hacts]
    have hstep : ∀ e s t o s', Related s t → Returns e s → (interp vm .activation).step e s = .ok (o, s') →
        ∃ t', (interp vm .file).step e t = .ok (o, t') ∧ Related s' t' :=
      fun _ _ _ _ _ hR hP hs => step_related hR hP hs
    obtain ⟨t, ht, -⟩ := Machine.run_sim hstep hR hm hr
    exact ⟨t, ht⟩
  · intro es s os t a rest drop v hacts hr ht hcall hre
    have hstart : Placed s := by
      refine ⟨?_, ?_⟩ <;> simp [hacts]
    have hstep : ∀ e s o s', Placed s → True → (interp vm .file).step e s = .ok (o, s') → Placed s' :=
      fun _ _ o s' hI _ hs => step_placed (x := (o, s')) hI hs
    have hP : Placed t := Machine.run_inv hstep hstart (Machine.meets_true _ _ _) hr
    have hpc : t.regs.pc = a.savedPc := hP.pc a (by simp [ht]) (by simp [hcall]) hre
    simp only [step, ht, hcall, hpc]
    exact ⟨_, rfl⟩

/-! ## A closure called from a primitive -/

/-- A runtime that does not allocate or grow its stack. -/
def Vm.plain : Vm where
  alloc _ _ := pure 0
  checkStacks := pure .next
  other _ := pure .next
  atom _ := 0
  callbackCode := 0x300

/-- At `0x100` a unit that calls primitive 0 and stops, `C_CALL1 0; STOP`. At
`0x200` a closure of the function at `0x180`, `ACC0; RETURN 1`. At `0x300` the
code of callbacks, `ACC; APPLY; POP 1; STOP`, its operands not yet set. -/
def nested : Interp where
  regs := { pc := 0, sp := 0, accu := 0 }
  rt :=
    { mem :=
        storeWords (storeWords (storeWords (storeWords (fun _ => 0) 0x100 [93, 0, 143]) 0x180 [0, 40, 1])
          0x200 [0x180]) 0x300 [8, 0, 32, 0, 19, 1, 143]
      externSp := 0x1000, trapsp := 0x1000, stackHigh := 0x1000, globalData := 0 }
  acts := []

/-- The primitive calls the closure, which runs to the `STOP` of the callback code,
and returns: the interpreter goes on behind that code, and not at `0x108`. -/
theorem interprete_loses_pc :
    let es : List Event := [.enter 0x100, .instr, .callback 0x200 [valLong 7],
      .instr, .instr, .instr, .instr, .instr, .instr, .ret (valLong 5)]
    let last (st : Storage) := ((interp .plain st).run es nested).toOption.bind fun r => r.1.getLast?
    last .activation = some (.fetches { pc := 0x108, sp := 0x1000, accu := valLong 5, env := 0, extraArgs := 0 }) ∧
      last .file = some (.fetches { pc := 0x320, sp := 0x1000, accu := valLong 5, env := 0, extraArgs := 0 }) := by
  decide +kernel

/-- The same unit where the primitive raises after it has called the closure: the exception
leaves the interpreter. -/
theorem interprete_reentrant_raises :
    let es : List Event := [.enter 0x100, .instr, .callback 0x200 [valLong 7],
      .instr, .instr, .instr, .instr, .instr, .instr, .raise (valLong 5)]
    ∃ os t, (interp .plain .file).run es nested = .ok (os, t) ∧
      os.getLast? = some (.leaves (makeExceptionResult (valLong 5))) := by
  intro es
  have hlast : (((interp .plain .activation).run es nested).toOption.bind fun r => r.1.getLast?)
      = some (.leaves (makeExceptionResult (valLong 5))) := by decide +kernel
  -- no primitive returns
  have hm : (interp .plain .activation).Meets Returns es nested :=
    ⟨trivial, fun _ _ _ => ⟨trivial, fun _ _ _ => ⟨trivial, fun _ _ _ => ⟨trivial, fun _ _ _ => ⟨trivial, fun _ _ _ =>
      ⟨trivial, fun _ _ _ => ⟨trivial, fun _ _ _ => ⟨trivial, fun _ _ _ => ⟨trivial, fun _ _ _ => ⟨trivial, fun _ _ _ =>
        trivial⟩⟩⟩⟩⟩⟩⟩⟩⟩⟩
  cases hrun : (interp .plain .activation).run es nested with
  | error f => rw [hrun] at hlast; cases hlast
  | ok r =>
    obtain ⟨t, ht⟩ := (interprete_reentrant .plain).1 es nested r.1 r.2 rfl hm hrun
    rw [hrun] at hlast
    exact ⟨r.1, t, ht, hlast⟩

end MultiScript.Ocaml
