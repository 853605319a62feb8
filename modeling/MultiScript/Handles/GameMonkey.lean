/-
The handles of the GameMonkey backend. Each has a thread of its own, and the
parameters of a callback are read by index from the base of its frame, so the
order they are used in makes no difference to what is popped and pushed. `Allowed`
is about what the backend tells of it, and about the frame itself, which is gone
once a called script kills the thread.
-/
import MultiScript.Handles.Spec
import MultiScript.GameMonkey.Context

namespace MultiScript.GameMonkey

open Handles

variable (vm : GmVm)

def gmPopFit (w : GmWorld) : Pop → GmValue → PopFit
  | .int, .int n => .takes (.int (some n))
  | .int, _ => .leaves (.int none)
  | .scriptObject, .user type ref => if gmUser ≤ type then .takes (.object (w.user ref)) else .leaves (.object none)
  | .scriptObject, _ => .leaves (.object none)

/-- GameMonkey as a language of independent handles. -/
def gmLang : Lang GmValue GmValue GmWorld where
  pop := gmPopFit
  ofPush := GMScriptStack.pushed
  lookup name w :=
    match w.globals name with
    | .function r => some (.function r, w)
    | _ => none
  call f args w :=
    match vm.call f args w with
    | (some v, w') => some ([v], w')
    | (none, _) => none

def gmBackend : Backend GMScriptContext GMScriptStack GmValue GmValue where
  pop st p := st.pop p
  push st p := st.push p
  getNumParams := GMScriptStack.getNumParams
  beginCall := beginCall
  endCall st := st.endCall vm
  releaseAfterCall st := st.releaseAfterCall
  target st _ := st.call.map fun call => (call.function, call.params)
  returned _ c := c.thread.pushed.take 1

/-- The same, where scripts may kill threads. -/
def gmBackendIn (kills : Kills) : Backend GMScriptContext GMScriptStack GmValue GmValue :=
  { gmBackend vm with endCall := fun st => st.endCallIn vm kills }

theorem gmBackendIn_never : gmBackendIn vm .never = gmBackend vm := by
  simp only [gmBackendIn, gmBackend, endCallIn_never]

/-- A callback entered with `args`. -/
def gmStart (this : GmValue) (args : List GmValue) (world : GmWorld) : Host GMScriptContext GMScriptStack :=
  .start { thread := { this, params := args, pushed := [] }, world }
    { numParams := args.length, numPopped := 0, call := none }

/-! ## The orders that work -/

/-- `GetNumParams` is asked only before anything of the handle is popped, the result of
a call is not popped as an object where it is one of a registered class, the
function returns with one value pushed or none, and no call it makes kills its
thread. -/
def Allowed (kills : Kills) : Event → Spec GmValue GmValue GmWorld → Prop
  | .numParams, t => t.args.length = t.total
  | .endCall h, t => ∀ f args, t.inner h = .calling f args → kills f args t.world = false
  | .callPop h .scriptObject, t =>
    ∀ n type ref results, t.inner h = .returned n (.user type ref :: results) → type ≤ gmUser
  | .callNumParams h, t => ∀ n results, t.inner h = .returned n results → results.length = n
  | .ret, t => t.pushed.length ≤ 1
  | _, _ => True

/-- An inner handle and the `GMScriptStack` it is. -/
inductive InnerRel : InnerHandle GmValue GmValue → Option GMScriptStack → Prop
  | closed : InnerRel .closed none
  | calling {f args} : InnerRel (.calling f args)
      (some { numParams := 0, numPopped := 0, call := some { function := f, params := args, returnVar := none } })
  | result (call : GmCall) {v} : call.returnVar = some v →
      InnerRel (.returned 1 [v]) (some { numParams := 1, numPopped := 0, call := some call })
  | drained (call : GmCall) : InnerRel (.returned 1 []) (some { numParams := 1, numPopped := 1, call := some call })

structure Related (t : Spec GmValue GmValue GmWorld) (s : Host GMScriptContext GMScriptStack) : Prop where
  world : s.c.world = t.world
  next : s.next = t.next
  params : ∃ gone, s.c.thread.params = t.args.reverse ++ gone ∧ t.total = s.c.thread.params.length ∧
    s.stack = { numParams := t.total, numPopped := gone.length, call := none }
  pushed : s.c.thread.pushed = t.pushed.reverse
  inner : ∀ h, InnerRel (t.inner h) (s.inner h)

variable {vm} {t t' : Spec GmValue GmValue GmWorld} {s : Host GMScriptContext GMScriptStack}

theorem InnerRel.update (hi : ∀ h, InnerRel (t.inner h) (s.inner h)) {h : Nat} {i : InnerHandle GmValue GmValue}
    {j : Option GMScriptStack} (hij : InnerRel i j) :
    ∀ h', InnerRel (Function.update t.inner h i h') (Function.update s.inner h j h') := by
  intro h'
  by_cases he : h' = h
  · subst he
    simpa using hij
  · simpa [Function.update_of_ne he] using hi h'

/-- A pop of a callback takes the last parameter that is left, by its index. -/
theorem pop_thread {c : GMScriptContext} {v : GmValue} {args gone : List GmValue} (p : Pop)
    (hp : c.thread.params = (v :: args).reverse ++ gone) :
    GMScriptStack.pop { numParams := c.thread.params.length, numPopped := gone.length, call := none } p c =
      match gmPopFit c.world p v with
      | .takes a => .ok ((a, { numParams := c.thread.params.length, numPopped := gone.length + 1, call := none }), c)
      | .leaves a => .ok ((a, { numParams := c.thread.params.length, numPopped := gone.length, call := none }), c)
      | .faults => .error .nullDeref := by
  have hlen : c.thread.params.length = args.length + 1 + gone.length := by simp [hp]; omega
  have hne : (gone.length : Int) ≠ c.thread.params.length := by omega
  have hidx : (c.thread.params.length : Int) - gone.length - 1 = (args.length : Int) := by omega
  have hin : ¬ (c.thread.params.length : Int) ≤ (args.length : Int) := by omega
  have hget : c.thread.params.getD ((args.length : Int)).toNat .null = v := by simp [hp, List.getD]
  cases p with
  | int =>
    simp only [GMScriptStack.pop, GMScriptStack.popInt, bind, StateT.bind, if_neg hne, hidx,
      GmThread.paramInt, if_neg hin, hget]
    cases v <;> rfl
  | scriptObject =>
    simp only [GMScriptStack.pop, GMScriptStack.popScriptObject, bind, StateT.bind, if_neg hne, hidx,
      GmThread.paramUserObject, if_neg hin, hget]
    cases v with
    | user type ref =>
      by_cases hu : gmUser ≤ type
      · simp only [if_pos hu, gmPopFit]; rfl
      · simp only [if_neg hu, gmPopFit]; rfl
    | _ => rfl

/-- A pop where all has been popped. -/
theorem pop_nothing {c : GMScriptContext} {st : GMScriptStack} (p : Pop) (h : st.numPopped = st.numParams) :
    st.pop p c = .ok ((emptyAnswer p, st), c) := by
  cases p with
  | int => simp only [GMScriptStack.pop, GMScriptStack.popInt, bind, StateT.bind, if_pos h]; rfl
  | scriptObject => simp only [GMScriptStack.pop, GMScriptStack.popScriptObject, bind, StateT.bind, if_pos h]; rfl

/-- A pop of a call's only result, which as an object has to be of the first user type. -/
theorem pop_result {c : GMScriptContext} {call : GmCall} {v : GmValue} (p : Pop) (h : call.returnVar = some v)
    (hv : p = .scriptObject → ∀ type ref, v = .user type ref → type ≤ gmUser) :
    GMScriptStack.pop { numParams := 1, numPopped := 0, call := some call } p c =
      match gmPopFit c.world p v with
      | .takes a => .ok ((a, { numParams := 1, numPopped := 1, call := some call }), c)
      | .leaves a => .ok ((a, { numParams := 1, numPopped := 0, call := some call }), c)
      | .faults => .error .nullDeref := by
  have hne : ¬ (0 : Int) = 1 := by omega
  cases p with
  | int =>
    simp only [GMScriptStack.pop, GMScriptStack.popInt, bind, StateT.bind, if_neg hne, h]
    cases v <;> rfl
  | scriptObject =>
    simp only [GMScriptStack.pop, GMScriptStack.popScriptObject, bind, StateT.bind, if_neg hne, h]
    cases v with
    | user type ref =>
      have hle := hv rfl type ref rfl
      by_cases hu : type = gmUser
      · simp only [if_pos hu, gmPopFit]; simp [hu]; rfl
      · simp only [if_neg hu, gmPopFit]; rw [if_neg (by omega)]; rfl
    | _ => rfl

/-! ## The simulation -/

variable {kills : Kills}

theorem step_pop {p : Pop} {o : Obs GmValue GmValue} (hR : Related t s)
    (h : specStep (gmLang vm) (.pop p) t = .ok (o, t')) :
    ∃ s', hostStep (gmBackendIn vm kills) (.pop p) s = .ok (o, s') ∧ Related t' s' := by
  obtain ⟨gone, hp, htot, hst⟩ := hR.params
  cases ha : t.args with
  | nil =>
    simp only [specStep, ha, popFrom] at h
    cases h
    rw [ha] at hp
    have hst' : s.stack.numPopped = s.stack.numParams := by rw [hst, htot, hp]; simp
    refine ⟨s, ?_, ?_⟩
    · simp only [hostStep, gmBackendIn, gmBackend, pop_nothing p hst']
      rfl
    · exact ⟨hR.world, hR.next, ⟨gone, hp, htot, hst⟩, hR.pushed, hR.inner⟩
  | cons v vs =>
    rw [ha] at hp
    have hpop := pop_thread p hp
    rw [hR.world] at hpop
    simp only [specStep, ha, popFrom] at h
    simp only [show (gmLang vm).pop = gmPopFit from rfl] at h
    cases hf : gmPopFit t.world p v with
    | takes a =>
      rw [hf] at h hpop
      cases h
      refine ⟨{ s with stack := { numParams := t.total, numPopped := gone.length + 1, call := none } }, ?_, ?_⟩
      · simp only [hostStep, gmBackendIn, gmBackend, hst, htot, hpop]
        rfl
      · refine ⟨hR.world, hR.next, ⟨v :: gone, ?_, htot, rfl⟩, hR.pushed, hR.inner⟩
        simpa using hp
    | leaves a =>
      rw [hf] at h hpop
      cases h
      refine ⟨s, ?_, hR.world, hR.next, ⟨gone, hp, htot, hst⟩, hR.pushed, hR.inner⟩
      simp only [hostStep, gmBackendIn, gmBackend, hst, htot, hpop]
      rw [← htot, ← hst]
      rfl
    | faults => rw [hf] at h; cases h

/-- An inner handle changes, and nothing else. -/
theorem Related.set (hR : Related t s) (h : Nat) {i : InnerHandle GmValue GmValue} {j : Option GMScriptStack}
    (hij : InnerRel i j) : Related (t.set h i) (s.set h j) :=
  ⟨hR.world, hR.next, hR.params, hR.pushed, InnerRel.update hR.inner hij⟩

theorem Related.run (hR : Related t s) (world : GmWorld) :
    Related { t with world } { s with c := { s.c with world } } :=
  ⟨rfl, hR.next, hR.params, hR.pushed, hR.inner⟩

theorem step_begin {name : Bytes} {o : Obs GmValue GmValue} (hR : Related t s)
    (h : specStep (gmLang vm) (.begin name) t = .ok (o, t')) :
    ∃ s', hostStep (gmBackendIn vm kills) (.begin name) s = .ok (o, s') ∧ Related t' s' := by
  cases hg : t.world.globals name with
  | function r =>
    simp only [specStep, gmLang, hg] at h
    cases h
    refine ⟨{ s.set s.next (some (.ofCall { function := .function r, params := [], returnVar := none })) with
      next := s.next + 1 }, ?_, ?_⟩
    · simp only [hostStep, gmBackendIn, gmBackend, beginCall, hR.world, hg]
      rfl
    · refine ⟨hR.world, by simp [hR.next], hR.params, hR.pushed, ?_⟩
      rw [Host.set, hR.next]
      exact InnerRel.update hR.inner .calling
  | _ => simp only [specStep, gmLang, hg] at h; cases h

theorem step_callPush {h : Nat} {p : Push} {o : Obs GmValue GmValue} (hR : Related t s)
    (hs : specStep (gmLang vm) (.callPush h p) t = .ok (o, t')) :
    ∃ s', hostStep (gmBackendIn vm kills) (.callPush h p) s = .ok (o, s') ∧ Related t' s' := by
  obtain ⟨f, args, hI, rfl, rfl⟩ := specStep_callPush hs
  have hi := hR.inner h
  rw [hI] at hi
  generalize hJ : s.inner h = j at hi
  cases hi
  refine ⟨_, ?_, hR.set h .calling⟩
  simp only [hostStep, onInner, hJ]
  rfl

/-- A function returns one value. -/
theorem gmLang_call {f : GmValue} {args results : List GmValue} {w world : GmWorld}
    (h : (gmLang vm).call f args w = some (results, world)) :
    ∃ v, results = [v] ∧ vm.call f args w = (some v, world) := by
  simp only [gmLang] at h
  rcases hc : vm.call f args w with ⟨_ | v, w'⟩ <;> rw [hc] at h <;> cases h
  exact ⟨v, rfl, rfl⟩

theorem step_endCall {h : Nat} {o : Obs GmValue GmValue} (hR : Related t s) (hP : Allowed kills (.endCall h) t)
    (hs : specStep (gmLang vm) (.endCall h) t = .ok (o, t')) :
    ∃ s', hostStep (gmBackendIn vm kills) (.endCall h) s = .ok (o, s') ∧ Related t' s' := by
  obtain ⟨f, args, results, world, hI, hc, rfl, rfl⟩ := specStep_endCall hs
  obtain ⟨v, rfl, hv⟩ := gmLang_call hc
  have hi := hR.inner h
  rw [hI] at hi
  generalize hJ : s.inner h = j at hi
  cases hi
  refine ⟨_, ?_, (hR.set h (.result { function := f, params := args, returnVar := some v } rfl)).run world⟩
  have hspared : kills f args s.c.world = false := hR.world ▸ hP f args hI
  simp only [hostStep, onInner, hJ, gmBackendIn, gmBackend]
  rw [endCallIn_spared fun call hcall => by cases hcall; exact hspared]
  simp only [GMScriptStack.endCall, hR.world, hv]
  rfl

theorem step_callPop {h : Nat} {p : Pop} {o : Obs GmValue GmValue} (hR : Related t s)
    (hP : Allowed kills (.callPop h p) t)
    (hs : specStep (gmLang vm) (.callPop h p) t = .ok (o, t')) :
    ∃ s', hostStep (gmBackendIn vm kills) (.callPop h p) s = .ok (o, s') ∧ Related t' s' := by
  obtain ⟨total, results, a, results', hI, hpf, rfl, rfl⟩ := specStep_callPop hs
  have hi := hR.inner h
  rw [hI] at hi
  generalize hJ : s.inner h = j at hi
  cases hi with
  | @result call v hv =>
    have hfirst : p = .scriptObject → ∀ type ref, v = .user type ref → type ≤ gmUser := by
      rintro rfl type ref rfl
      exact hP 1 type ref [] hI
    have hpop := pop_result (c := s.c) p hv hfirst
    rw [hR.world] at hpop
    simp only [popFrom, show (gmLang vm).pop = gmPopFit from rfl] at hpf
    cases hf : gmPopFit t.world p v with
    | takes a =>
      rw [hf] at hpf hpop
      cases hpf
      refine ⟨_, ?_, hR.set h (.drained call)⟩
      simp only [hostStep, onInner, hJ, gmBackendIn, gmBackend, hpop]
      rfl
    | leaves a =>
      rw [hf] at hpf hpop
      cases hpf
      refine ⟨_, ?_, hR.set h (.result call hv)⟩
      simp only [hostStep, onInner, hJ, gmBackendIn, gmBackend, hpop]
      rfl
    | faults => rw [hf] at hpf; cases hpf
  | drained call =>
    cases hpf
    refine ⟨_, ?_, hR.set h (.drained call)⟩
    simp only [hostStep, onInner, hJ, gmBackendIn, gmBackend]
    rw [pop_nothing p rfl]
    rfl

theorem step_release {h : Nat} {o : Obs GmValue GmValue} (hR : Related t s)
    (hs : specStep (gmLang vm) (.release h) t = .ok (o, t')) :
    ∃ s', hostStep (gmBackendIn vm kills) (.release h) s = .ok (o, s') ∧ Related t' s' := by
  obtain ⟨total, hI, rfl, rfl⟩ := specStep_release hs
  have hi := hR.inner h
  rw [hI] at hi
  generalize hJ : s.inner h = j at hi
  cases hi
  refine ⟨_, ?_, hR.set h .closed⟩
  simp only [hostStep, onInner, hJ]
  rfl

/-- Every step of the independent handles that is allowed is a step of the backend's. -/
theorem gm_step {e : Event} {o : Obs GmValue GmValue} (hR : Related t s) (hP : Allowed kills e t)
    (hs : specStep (gmLang vm) e t = .ok (o, t')) :
    ∃ s', hostStep (gmBackendIn vm kills) e s = .ok (o, s') ∧ Related t' s' := by
  cases e with
  | pop p => exact step_pop hR hs
  | push p =>
    cases hs
    obtain ⟨gone, hp, htot, hst⟩ := hR.params
    refine ⟨{ s with c := { s.c with thread := { s.c.thread with
      pushed := GMScriptStack.pushed p :: s.c.thread.pushed } } }, ?_, ?_⟩
    · simp only [hostStep, gmBackendIn, gmBackend, GMScriptStack.push, hst]
      rw [← hst]
      rfl
    · exact ⟨hR.world, hR.next, ⟨gone, hp, htot, hst⟩, by simp [hR.pushed, gmLang], hR.inner⟩
  | numParams =>
    cases hs
    obtain ⟨gone, hp, htot, hst⟩ := hR.params
    refine ⟨s, ?_, hR⟩
    have htotal : t.args.length = t.total := hP
    simp only [hostStep, gmBackendIn, gmBackend, GMScriptStack.getNumParams, hst, htotal]
  | begin name => exact step_begin hR hs
  | callPush h p => exact step_callPush hR hs
  | endCall h => exact step_endCall hR hP hs
  | callPop h p => exact step_callPop hR hP hs
  | callNumParams h =>
    obtain ⟨total, results, hI, rfl, rfl⟩ := specStep_callNumParams hs
    have hi := hR.inner h
    rw [hI] at hi
    generalize hJ : s.inner h = j at hi
    refine ⟨s, ?_, hR⟩
    have hcount := hP _ _ hI
    cases hi with
    | result _ hv => simp only [hostStep, onInner, hJ]; rfl
    | drained _ => cases hcount
  | release h => exact step_release hR hs
  | ret =>
    cases hs
    refine ⟨s, ?_, hR⟩
    have hlen : t.pushed.length ≤ 1 := hP
    have htop : t.pushed.reverse.take 1 = t.pushed := by
      cases hp : t.pushed with
      | nil => rfl
      | cons v vs =>
        have hnil : vs = [] := List.length_eq_zero_iff.mp (by rw [hp, List.length_cons] at hlen; omega)
        rw [hnil]
        rfl
    simp only [hostStep, gmBackendIn, gmBackend, hR.pushed, htop]

theorem start_related (this : GmValue) (args : List GmValue) (w : GmWorld) :
    Related (Spec.start args w) (gmStart this args w) where
  world := rfl
  next := rfl
  params := ⟨[], by simp [Spec.start, gmStart, Host.start], rfl, rfl⟩
  pushed := rfl
  inner _ := .closed

theorem related_run {es : List Event} {os : List (Obs GmValue GmValue)} (hR : Related t s)
    (hm : (spec (gmLang vm)).Meets (Allowed kills) es t) (hr : (spec (gmLang vm)).run es t = .ok (os, t')) :
    ∃ s', (handles (gmBackendIn vm kills)).run es s = .ok (os, s') ∧ Related t' s' := by
  have hstep : ∀ e t s o t', Related t s → Allowed kills e t → (spec (gmLang vm)).step e t = .ok (o, t') →
      ∃ s', (handles (gmBackendIn vm kills)).step e s = .ok (o, s') ∧ Related t' s' :=
    fun _ _ _ _ _ hR hP hs => gm_step hR hP hs
  exact Run.Machine.run_sim hstep hR hm hr

/-- A run of the independent handles that is allowed is a run of the backend's. -/
theorem handles_run {this : GmValue} {args : List GmValue} {w : GmWorld} {es : List Event}
    {os : List (Obs GmValue GmValue)} (hm : (spec (gmLang vm)).Meets (Allowed kills) es (.start args w))
    (hr : (spec (gmLang vm)).run es (.start args w) = .ok (os, t)) :
    ∃ s, (handles (gmBackendIn vm kills)).run es (gmStart this args w) = .ok (os, s) := by
  obtain ⟨s, hrun, -⟩ := related_run (start_related this args w) hm hr
  exact ⟨s, hrun⟩

theorem handles_run_never {this : GmValue} {args : List GmValue} {w : GmWorld} {es : List Event}
    {os : List (Obs GmValue GmValue)} (hm : (spec (gmLang vm)).Meets (Allowed .never) es (.start args w))
    (hr : (spec (gmLang vm)).run es (.start args w) = .ok (os, t)) :
    ∃ s, (handles (gmBackend vm)).run es (gmStart this args w) = .ok (os, s) ∧
      s.c.thread.pushed = t.pushed.reverse ∧ s.c.world = t.world := by
  obtain ⟨s, hrun, hR⟩ := related_run (start_related this args w) hm hr
  rw [gmBackendIn_never] at hrun
  exact ⟨s, hrun, hR.pushed, hR.world⟩

end MultiScript.GameMonkey
