/-
`caml_interprete` and the C code around it. Here `pc`, `sp` and `accu` are
variables of the file, so all activations share them; in the runtime this was
made from they are locals of each activation. The two interpreters differ in
that alone, and `step` is both of them. What the C primitives do is not fixed:
between the call of a primitive and its return any events may happen.
-/
import MultiScript.Ocaml.Instruct
import MultiScript.Lib.Run

namespace MultiScript.Ocaml

open Run

/-- Where `pc`, `sp` and `accu` are. -/
inductive Storage
  | activation
  | file
deriving DecidableEq, Repr

/-- An activation of `caml_interprete`. `calling` is the number of words to drop
when the primitive it is calling returns, `regs` what its registers are meanwhile
if they are its own, and `narg` the arguments of the `caml_callbackN_exn` it was
entered from. `reentered`, which is no variable of the source, says that the
primitive has entered the interpreter again. -/
structure Activation where
  env : Word
  extraArgs : Word
  initialSpOffset : Word
  savedPc : Word
  narg : Option Word
  calling : Option Word
  regs : Regs
  reentered : Bool

structure Interp where
  regs : Regs
  rt : Runtime
  acts : List Activation

inductive Event
  /-- The innermost activation executes an instruction. -/
  | instr
  /-- C code changes what is not a register. -/
  | effect (f : Runtime → Runtime)
  /-- C code runs a unit from its start. -/
  | enter (prog : Word)
  /-- C code calls `caml_callbackN_exn`. -/
  | callback (closure : Word) (args : List Word)
  /-- The primitive returns. -/
  | ret (v : Word)
  /-- The primitive raises. -/
  | raise (v : Word)

/-- What an event leads to: an instruction about to be fetched, with the registers
and locals it finds; a primitive that is called; the result an activation leaves
with. -/
inductive Obs
  | fetches (cpu : Cpu)
  | calls (prim : Word) (args : List Word)
  | leaves (res : Word)
  | quiet
deriving DecidableEq, Repr

variable (vm : Vm) (st : Storage)

/-- The innermost activation goes on with `cpu`. -/
def resume (a : Activation) (rest : List Activation) (m : Core) : Obs × Interp :=
  (.fetches m.cpu, { regs := m.cpu.toRegs, rt := m.rt, acts := { a with
    env := m.cpu.env, extraArgs := m.cpu.extraArgs, calling := none, reentered := false } :: rest })

/-- `caml_interprete` returns. The one that called it, from inside a primitive,
has its own registers back only if they are its own. -/
def leave (a : Activation) (rest : List Activation) (res : Word) (r : Regs) (rt : Runtime) : Obs × Interp :=
  let rt := match a.narg with
    | some n => if isExceptionResult res then { rt with externSp := rt.externSp + 4 * (n + 4) } else rt
    | none => rt
  let regs := match st, rest with
    | .activation, b :: _ => b.regs
    | _, _ => r
  (.leaves res, { regs, rt, acts := rest })

/-- The label `raise_exception`, with the exception in `accu`. -/
def raiseException (a : Activation) (rest : List Activation) (m : Core) : Obs × Interp :=
  let high := m.rt.stackHigh - a.initialSpOffset
  if high ≤ m.rt.trapsp then
    leave st a rest (makeExceptionResult m.cpu.accu) m.cpu.toRegs { m.rt with externSp := high }
  else
    let sp := m.rt.trapsp
    resume a rest
      { cpu := { m.cpu with
          sp := sp + 16, pc := m.rt.mem sp, env := m.rt.mem (sp + 8), extraArgs := longVal (m.rt.mem (sp + 12)) },
        rt := { m.rt with trapsp := m.rt.mem (sp + 4) } }

/-- What follows an instruction. A primitive is called with `saved_pc = pc`. -/
def dispatch (a : Activation) (rest : List Activation) (m : Core) : Outcome → Obs × Interp
  | .next => resume a rest m
  | .cCall prim args drop =>
    (.calls prim args, { regs := m.cpu.toRegs, rt := m.rt, acts := { a with
      env := m.cpu.env, extraArgs := m.cpu.extraArgs, savedPc := m.cpu.pc, calling := some drop,
      regs := m.cpu.toRegs, reentered := false } :: rest })
  | .stop => leave st a rest m.cpu.accu m.cpu.toRegs { m.rt with externSp := m.cpu.sp }
  | .raise => raiseException st a rest m

/-- `caml_interprete(prog, ...)`, up to its first instruction. -/
def interprete (prog : Word) (narg : Option Word) (rt : Runtime) (acts : List Activation) : Obs × Interp :=
  let regs : Regs := { pc := prog, sp := rt.externSp, accu := valLong 0 }
  resume
    { env := vm.atom 0, extraArgs := 0, initialSpOffset := rt.stackHigh - rt.externSp, savedPc := 0, narg,
      calling := none, regs, reentered := false }
    acts { cpu := { regs with env := vm.atom 0, extraArgs := 0 }, rt }

def storeWords (mem : Word → Word) (a : Word) : List Word → Word → Word
  | [] => mem
  | v :: vs => storeWords (Function.update mem a v) (a + 4) vs

/-- The frame `caml_callbackN_exn` builds, and the operands it sets in
`callback_code`. -/
def callbackFrame (closure : Word) (args : List Word) (rt : Runtime) : Runtime :=
  let narg : Word := BitVec.ofNat 32 args.length
  let sp := rt.externSp - 4 * (narg + 4)
  let mem := storeWords rt.mem sp (args ++ [vm.callbackCode + 16, valUnit, valLong 0, closure])
  let mem := storeWords mem (vm.callbackCode + 4) [narg + 3]
  { rt with externSp := sp, mem := storeWords mem (vm.callbackCode + 12) [narg] }

/-- C code runs where no activation is, and where the innermost one is calling a
primitive; then it may enter the interpreter. -/
def inC : List Activation → Option (List Activation)
  | [] => some []
  | a :: rest => if a.calling.isSome then some ({ a with reentered := true } :: rest) else none

/-- An event, or `()` where it cannot happen. -/
def step : Event → Interp → Except Unit (Obs × Interp)
  | .instr, s =>
    match s.acts with
    | [] => .error ()
    | a :: rest =>
      if a.calling.isSome then .error ()
      else
        let (o, m) := (instruction vm).run
          { cpu := { s.regs with env := a.env, extraArgs := a.extraArgs }, rt := s.rt }
        .ok (dispatch st a rest m o)
  | .effect f, s =>
    match inC s.acts with
    | some _ => .ok (.quiet, { s with rt := f s.rt })
    | none => .error ()
  | .enter prog, s =>
    match inC s.acts with
    | some acts => .ok (interprete vm prog none s.rt acts)
    | none => .error ()
  | .callback closure args, s =>
    match inC s.acts with
    | some acts =>
      .ok (interprete vm vm.callbackCode (some (BitVec.ofNat 32 args.length)) (callbackFrame vm closure args s.rt) acts)
    | none => .error ()
  | .ret v, s =>
    match s.acts with
    | [] => .error ()
    | a :: rest =>
      match a.calling with
      | none => .error ()
      | some drop =>
        -- `Restore_after_c_call`, the arguments dropped, and `pc++`
        let sp := s.rt.externSp
        let regs : Regs := { pc := s.regs.pc + 4, sp := sp + 4 + 4 * drop, accu := v }
        .ok (resume a rest { cpu := { regs with env := s.rt.mem sp, extraArgs := a.extraArgs }, rt := s.rt })
  | .raise v, s =>
    match s.acts with
    | [] => .error ()
    | a :: rest =>
      if a.calling.isSome then
        -- where `sigsetjmp` returns again
        let regs : Regs := { pc := a.savedPc + 8, sp := s.rt.externSp, accu := v }
        .ok (raiseException st a rest { cpu := { regs with env := a.env, extraArgs := a.extraArgs }, rt := s.rt })
      else .error ()

/-- A primitive that has entered the interpreter does not return; it may raise. -/
def Returns : Event → Interp → Prop
  | .ret _, s => ∀ a ∈ s.acts.head?, a.reentered = false
  | _, _ => True

def interp : Machine Interp Event Obs Unit := ⟨step vm st⟩

/-! ## The simulation -/

/-- An activation inside whose primitive another one runs, or ran. -/
def Activation.Suspended (a : Activation) : Prop := a.calling.isSome = true ∧ a.reentered = true

/-- The interpreter with registers of its own, and this one. They agree in all but
the registers of an activation whose primitive has entered the interpreter. -/
structure Related (s t : Interp) : Prop where
  rt : s.rt = t.rt
  acts : s.acts = t.acts
  regs : ∀ a ∈ s.acts.head?, ¬ a.Suspended → s.regs = t.regs
  suspended : ∀ a ∈ s.acts.tail, a.Suspended

/-- The same observation, and related states. -/
def Agree (x y : Obs × Interp) : Prop := x.1 = y.1 ∧ Related x.2 y.2

variable {vm st} {a : Activation} {rest : List Activation} {m : Core}

theorem resume_agree (h : ∀ b ∈ rest, b.Suspended) : Agree (resume a rest m) (resume a rest m) :=
  ⟨rfl, rfl, rfl, fun _ _ _ => rfl, h⟩

theorem leave_agree (h : ∀ b ∈ rest, b.Suspended) (res : Word) (r : Regs) (rt : Runtime) :
    Agree (leave .activation a rest res r rt) (leave .file a rest res r rt) := by
  refine ⟨rfl, rfl, rfl, ?_, fun b hb => h b (List.mem_of_mem_tail hb)⟩
  intro b hb hs
  exact absurd (h b (List.mem_of_mem_head? hb)) hs

theorem raiseException_agree (h : ∀ b ∈ rest, b.Suspended) :
    Agree (raiseException .activation a rest m) (raiseException .file a rest m) := by
  by_cases hb : m.rt.stackHigh - a.initialSpOffset ≤ m.rt.trapsp
  · simp only [raiseException, if_pos hb]
    exact leave_agree h _ _ _
  · simp only [raiseException, if_neg hb]
    exact resume_agree h

theorem dispatch_agree (h : ∀ b ∈ rest, b.Suspended) (o : Outcome) :
    Agree (dispatch .activation a rest m o) (dispatch .file a rest m o) := by
  cases o with
  | next => exact resume_agree h
  | cCall prim args drop => exact ⟨rfl, rfl, rfl, fun _ _ _ => rfl, h⟩
  | stop => exact leave_agree h _ _ _
  | raise => exact raiseException_agree h

/-- Entering the interpreter suspends the activation that is in C. -/
theorem inC_suspended {acts acts' : List Activation} (h : ∀ a ∈ acts.tail, a.Suspended)
    (hc : inC acts = some acts') : ∀ a ∈ acts', a.Suspended := by
  cases acts with
  | nil => cases hc; simp
  | cons a rest =>
    simp only [inC] at hc
    split at hc
    · rename_i hcall
      cases hc
      intro b hb
      rcases List.mem_cons.mp hb with rfl | hb
      · exact ⟨hcall, rfl⟩
      · exact h b hb
    · cases hc

theorem interprete_agree {acts : List Activation} (h : ∀ a ∈ acts, a.Suspended) (prog : Word)
    (narg : Option Word) (rt : Runtime) :
    Agree (interprete vm prog narg rt acts) (interprete vm prog narg rt acts) :=
  resume_agree h

/-- One event, where a primitive that returns has not entered the interpreter. -/
theorem step_related {e : Event} {s t s' : Interp} {o : Obs} (hR : Related s t) (hP : Returns e s)
    (hs : step vm .activation e s = .ok (o, s')) :
    ∃ t', step vm .file e t = .ok (o, t') ∧ Related s' t' := by
  -- it is enough that both answer, and agree
  suffices h : ∀ x, step vm .activation e s = .ok x → ∃ y, step vm .file e t = .ok y ∧ Agree x y by
    obtain ⟨⟨o', t'⟩, ht, ho, hR'⟩ := h _ hs
    cases ho
    exact ⟨t', ht, hR'⟩
  clear hs
  obtain ⟨hrt, hacts, hregs, hsus⟩ := hR
  obtain ⟨sr, srt, sacts⟩ := s
  obtain ⟨tr, trt, tacts⟩ := t
  cases hrt
  cases hacts
  cases e with
  | instr =>
    cases sacts with
    | nil => intro x hx; cases hx
    | cons a rest =>
      intro x hx
      cases hcall : a.calling with
      | some d => simp [step, hcall] at hx
      | none =>
        have hr : sr = tr := hregs a rfl (by simp [Activation.Suspended, hcall])
        subst hr
        simp only [step, hcall] at hx ⊢
        cases hx
        exact ⟨_, rfl, dispatch_agree hsus _⟩
  | effect f =>
    intro x hx
    cases hc : inC sacts with
    | none => simp [step, hc] at hx
    | some acts =>
      simp only [step, hc] at hx ⊢
      cases hx
      exact ⟨_, rfl, rfl, rfl, rfl, hregs, hsus⟩
  | enter prog =>
    intro x hx
    cases hc : inC sacts with
    | none => simp [step, hc] at hx
    | some acts =>
      simp only [step, hc] at hx ⊢
      cases hx
      exact ⟨_, rfl, interprete_agree (inC_suspended hsus hc) _ _ _⟩
  | callback closure args =>
    intro x hx
    cases hc : inC sacts with
    | none => simp [step, hc] at hx
    | some acts =>
      simp only [step, hc] at hx ⊢
      cases hx
      exact ⟨_, rfl, interprete_agree (inC_suspended hsus hc) _ _ _⟩
  | ret v =>
    cases sacts with
    | nil => intro x hx; cases hx
    | cons a rest =>
      intro x hx
      have hr : sr = tr := hregs a rfl (by simp [Activation.Suspended, hP a rfl])
      subst hr
      cases hcall : a.calling with
      | none => simp [step, hcall] at hx
      | some d =>
        simp only [step, hcall] at hx ⊢
        cases hx
        exact ⟨_, rfl, resume_agree hsus⟩
  | raise v =>
    cases sacts with
    | nil => intro x hx; cases hx
    | cons a rest =>
      intro x hx
      cases hcall : a.calling with
      | none => simp [step, hcall] at hx
      | some d =>
        simp only [step, hcall] at hx ⊢
        cases hx
        exact ⟨_, rfl, raiseException_agree hsus⟩

end MultiScript.Ocaml
