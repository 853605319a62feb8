/-
The handles of the Lua backend. They all work on one frame, and `BeginCall`
wants it empty, so they are independent only in some orders: `Allowed` says
which, and in those the frame belongs to one handle at a time.
-/
import MultiScript.Handles.Spec
import MultiScript.Lua.Protocol

namespace MultiScript.Lua

open Act Handles

variable (vm : LuaVm)

/-- Lua as a language of independent handles. -/
def luaLang : Lang LuaValue LuaValue LuaWorld where
  pop w := popFit vm w.heap
  ofPush := pushed
  lookup name w :=
    match lookupGlobal vm name w with
    | .ok (v, w') => if v.isFunction then some (v, w') else none
    | .error _ => none
  call f args w :=
    match vm.call f args w with
    | (.returned results, w') => some (results, w')
    | (.raised _ _, _) => none

def luaBackend : Backend LuaScriptContext LuaScriptStack LuaValue LuaValue where
  pop st p := st.pop vm p
  push st p := st.push p
  getNumParams := LuaScriptStack.getNumParams
  beginCall := beginCall vm
  endCall st := st.endCall vm
  releaseAfterCall st := st.releaseAfterCall
  target st c :=
    match c.slots.drop st.numPushed with
    | [] => none
    | f :: _ => some (f, (c.slots.take st.numPushed).reverse)
  returned st c := (c.slots.take st.numPushed).reverse

/-- A callback of the C function at `r` entered with `args`. -/
def luaStart (r : Nat) (args : List LuaValue) (world : LuaWorld) : Host LuaScriptContext LuaScriptStack :=
  .start { func := .function r, slots := args.reverse, world }
    { numPushed := 0, numParams := args.length, isCall := false }

/-! ## The orders that work -/

/-- Nothing of the handle is on the stack. -/
def Quiet : InnerHandle LuaValue LuaValue → Prop
  | .closed => True
  | .calling _ _ => False
  | .returned _ results => results = []

def Idle (t : Spec LuaValue LuaValue LuaWorld) : Prop := ∀ h, Quiet (t.inner h)

/-- `S` is used only while no inner call has values on the stack, and popped only
before it is pushed to. A call begins only when the arguments of `S` are popped
and nothing is pushed. A handle whose results are gone is popped only then. -/
def Allowed : Event → Spec LuaValue LuaValue LuaWorld → Prop
  | .pop _, t => Idle t ∧ t.pushed = []
  | .push _, t => Idle t
  | .begin _, t => Idle t ∧ t.args = [] ∧ t.pushed = []
  | .callPop h _, t => Quiet (t.inner h) → Idle t ∧ t.args = [] ∧ t.pushed = []
  | _, _ => True

/-! ## The frame -/

/-- What a handle has on the stack. -/
def block : InnerHandle LuaValue LuaValue → List LuaValue
  | .closed => []
  | .calling f args => args.reverse ++ [f]
  | .returned _ results => results

/-- The frame holds what is pushed on `S` over the arguments left, or the values
of the one handle that has some. -/
inductive FrameRel (t : Spec LuaValue LuaValue LuaWorld) (slots : List LuaValue) : Prop
  | idle : Idle t → slots = t.pushed.reverse ++ t.args → FrameRel t slots
  | busy (h : Nat) : (∀ h', h' ≠ h → Quiet (t.inner h')) → ¬ Quiet (t.inner h) → t.args = [] → t.pushed = [] →
      slots = block (t.inner h) → FrameRel t slots

inductive InnerRel : InnerHandle LuaValue LuaValue → Option LuaScriptStack → Prop
  | closed : InnerRel .closed none
  | calling {f args st} : st.isCall = true → st.numPushed = args.length → InnerRel (.calling f args) (some st)
  | returned {n results st} : st.isCall = true → st.numParams = (results.length : Int) →
      InnerRel (.returned n results) (some st)

structure Related (t : Spec LuaValue LuaValue LuaWorld) (s : Host LuaScriptContext LuaScriptStack) : Prop where
  world : s.c.world = t.world
  func : ∃ r, s.c.func = .function r
  next : s.next = t.next
  numParams : s.stack.numParams = (t.args.length : Int)
  numPushed : s.stack.numPushed = t.pushed.length
  inner : ∀ h, InnerRel (t.inner h) (s.inner h)
  frame : FrameRel t s.c.slots

variable {vm} {t t' : Spec LuaValue LuaValue LuaWorld} {s : Host LuaScriptContext LuaScriptStack}
  {slots : List LuaValue} {h : Nat} {i : InnerHandle LuaValue LuaValue}

theorem FrameRel.of_idle (hf : FrameRel t slots) (hi : Idle t) : slots = t.pushed.reverse ++ t.args := by
  cases hf with
  | idle _ hs => exact hs
  | busy h _ hq => exact absurd (hi h) hq

/-- A handle with values on the stack has the frame to itself. -/
theorem FrameRel.of_busy (hf : FrameRel t slots) (hq : ¬ Quiet (t.inner h)) :
    (∀ h', h' ≠ h → Quiet (t.inner h')) ∧ t.args = [] ∧ t.pushed = [] ∧ slots = block (t.inner h) := by
  cases hf with
  | idle hi _ => exact absurd (hi h) hq
  | busy h₀ hothers hq₀ ha hp hs =>
    by_cases he : h = h₀
    · subst he
      exact ⟨hothers, ha, hp, hs⟩
    · exact absurd (hothers h he) hq

/-- The frame belongs to the handle `h`, and then to it as it is now, or to
nobody. -/
theorem FrameRel.own (hothers : ∀ h', h' ≠ h → Quiet (t.inner h')) (ha : t.args = []) (hp : t.pushed = []) :
    FrameRel (t.set h i) (block i) := by
  have hothers' : ∀ h', h' ≠ h → Quiet ((t.set h i).inner h') := by
    intro h' hne
    simpa [Spec.set, Function.update_of_ne hne] using hothers h' hne
  by_cases hq : Quiet i
  · refine .idle (fun h' => ?_) ?_
    · by_cases he : h' = h
      · subst he
        simpa [Spec.set] using hq
      · exact hothers' h' he
    · have hb : block i = [] := by cases i with
        | closed => rfl
        | calling f args => exact hq.elim
        | returned n results => exact hq
      simp [Spec.set, ha, hp, hb]
  · exact .busy h hothers' (by simpa [Spec.set] using hq) ha hp (by simp [Spec.set])

/-- A quiet handle that stays quiet does not change the frame. -/
theorem FrameRel.quiet (hf : FrameRel t slots) (hq : Quiet (t.inner h)) (hi : Quiet i) :
    FrameRel (t.set h i) slots := by
  have hset : ∀ h', Quiet (t.inner h') → Quiet ((t.set h i).inner h') := by
    intro h' hq'
    by_cases he : h' = h
    · subst he
      simpa [Spec.set] using hi
    · simpa [Spec.set, Function.update_of_ne he] using hq'
  cases hf with
  | idle hidle hs => exact .idle (fun h' => hset h' (hidle h')) hs
  | busy h₀ hothers hq₀ ha hp hs =>
    have hne : h₀ ≠ h := fun he => hq₀ (he ▸ hq)
    have hkeep : (t.set h i).inner h₀ = t.inner h₀ := by simp [Spec.set, Function.update_of_ne hne]
    exact .busy h₀ (fun h' hh' => hset h' (hothers h' hh')) (by rwa [hkeep]) ha hp (by rw [hkeep]; exact hs)

theorem InnerRel.update (hi : ∀ h, InnerRel (t.inner h) (s.inner h)) {j : Option LuaScriptStack}
    (hij : InnerRel i j) :
    ∀ h', InnerRel ((t.set h i).inner h') ((s.set h j).inner h') := by
  intro h'
  by_cases he : h' = h
  · subst he
    simpa [Spec.set, Host.set] using hij
  · simpa [Spec.set, Host.set, Function.update_of_ne he] using hi h'

/-- The frame relation looks at the handles alone. -/
theorem FrameRel.congr (hf : FrameRel t slots) (ha : t'.args = t.args) (hp : t'.pushed = t.pushed)
    (hi : t'.inner = t.inner) : FrameRel t' slots := by
  cases hf with
  | idle hidle hs => exact .idle (fun h => by rw [hi]; exact hidle h) (by rw [ha, hp]; exact hs)
  | busy h hothers hq ha' hp' hs =>
    exact .busy h (fun h' hne => by rw [hi]; exact hothers h' hne) (by rw [hi]; exact hq) (ha.trans ha')
      (hp.trans hp') (by rw [hi]; exact hs)

/-! ## The simulation -/

/-- A pop from a frame that holds just the values the spec pops from. Where they
are gone it reads the running function, and takes nothing. -/
theorem pop_values {c : LuaScriptContext} (st : LuaScriptStack) {r : Nat} {vs vs' : List LuaValue} {p : Pop}
    {a : Answer} (hs : c.slots = vs) (hf : c.func = .function r)
    (h : popFrom (luaLang vm) c.world p vs = some (a, vs')) :
    ∃ st', st.pop vm p c = .ok ((a, st'), { c with slots := vs' }) ∧ st'.isCall = st.isCall ∧
      st'.numPushed = st.numPushed ∧ st'.numParams - vs'.length = st.numParams - vs.length := by
  have hkeep : { c with slots := vs } = c := by rw [← hs]
  cases vs with
  | nil =>
    cases h
    have hat : c.at (-1) = .function r := (at_top_empty hs).trans hf
    have hfit : popFit vm c.world.heap p (c.at (-1)) = .leaves (emptyAnswer p) := by
      rw [hat]
      cases p <;> rfl
    exact ⟨st, by rw [hkeep]; exact pop_leaves hfit, rfl, rfl, rfl⟩
  | cons v vs =>
    have hat : c.at (-1) = v := at_top hs
    rw [popFrom, show (luaLang vm).pop c.world p v = popFit vm c.world.heap p v from rfl] at h
    cases hfit : popFit vm c.world.heap p v with
    | takes b =>
      rw [hfit] at h
      cases h
      refine ⟨_, pop_takes hs hfit, rfl, rfl, ?_⟩
      simp only [List.length_cons]
      omega
    | leaves b =>
      rw [hfit] at h
      cases h
      exact ⟨st, by rw [hkeep]; exact pop_leaves (by rw [hat, hfit]), rfl, rfl, rfl⟩
    | faults => rw [hfit] at h; cases h

variable {o : Obs LuaValue LuaValue}

/-- The handle of a call that is not ended. -/
theorem Related.calling (hR : Related t s) {f : LuaValue} {args : List LuaValue} (hI : t.inner h = .calling f args) :
    ∃ st, s.inner h = some st ∧ st.isCall = true ∧ st.numPushed = args.length := by
  have hi := hR.inner h
  rw [hI] at hi
  generalize s.inner h = j at hi
  cases hi with
  | calling hcall hn => exact ⟨_, rfl, hcall, hn⟩

/-- The handle of a call that is. -/
theorem Related.returned (hR : Related t s) {n : Nat} {results : List LuaValue} (hI : t.inner h = .returned n results) :
    ∃ st, s.inner h = some st ∧ st.isCall = true ∧ st.numParams = (results.length : Int) := by
  have hi := hR.inner h
  rw [hI] at hi
  generalize s.inner h = j at hi
  cases hi with
  | returned hcall hn => exact ⟨_, rfl, hcall, hn⟩

theorem step_pop {p : Pop} (hR : Related t s) (hP : Allowed (.pop p) t)
    (h : specStep (luaLang vm) (.pop p) t = .ok (o, t')) :
    ∃ s', hostStep (luaBackend vm) (.pop p) s = .ok (o, s') ∧ Related t' s' := by
  obtain ⟨hidle, hpushed⟩ := hP
  obtain ⟨r, hfunc⟩ := hR.func
  have hslots : s.c.slots = t.args := by simpa [hpushed] using hR.frame.of_idle hidle
  obtain ⟨a, args, hpf, rfl, rfl⟩ := specStep_pop h
  rw [← hR.world] at hpf
  obtain ⟨st', hpop, -, hnp, hcount⟩ := pop_values s.stack hslots hfunc hpf
  refine ⟨{ s with c := { s.c with slots := args }, stack := st' }, ?_, ?_⟩
  · simp only [hostStep, luaBackend, hpop]
    rfl
  · refine ⟨hR.world, hR.func, hR.next, ?_, hnp.trans hR.numPushed, hR.inner, .idle hidle (by simp [hpushed])⟩
    have hn := hR.numParams
    simp only
    omega

theorem step_push {p : Push} (hR : Related t s) (hP : Allowed (.push p) t)
    (h : specStep (luaLang vm) (.push p) t = .ok (o, t')) :
    ∃ s', hostStep (luaBackend vm) (.push p) s = .ok (o, s') ∧ Related t' s' := by
  cases h
  refine ⟨{ s with
    c := { s.c with slots := pushed p :: s.c.slots }
    stack := { s.stack with numPushed := s.stack.numPushed + 1 } }, ?_, ?_⟩
  · simp only [hostStep, luaBackend, push_ok]
    rfl
  · refine ⟨hR.world, hR.func, hR.next, hR.numParams, by simp [hR.numPushed], hR.inner, .idle hP ?_⟩
    simp [hR.frame.of_idle hP, luaLang]

theorem step_begin {name : Bytes} (hR : Related t s) (hP : Allowed (.begin name) t)
    (h : specStep (luaLang vm) (.begin name) t = .ok (o, t')) :
    ∃ s', hostStep (luaBackend vm) (.begin name) s = .ok (o, s') ∧ Related t' s' := by
  obtain ⟨hidle, ha, hp⟩ := hP
  have hslots : s.c.slots = [] := by simpa [ha, hp] using hR.frame.of_idle hidle
  cases hl : lookupGlobal vm name t.world with
  | error g => simp only [specStep, luaLang, hl] at h; cases h
  | ok r =>
    obtain ⟨v, world⟩ := r
    cases hv : v.isFunction with
    | false => simp [specStep, luaLang, hl, hv] at h
    | true =>
      simp only [specStep, luaLang, hl, hv, if_true] at h
      cases h
      have hb : beginCall vm name s.c = .ok (some { numPushed := 0, numParams := 0, isCall := true },
          { s.c with world, slots := [v] }) := by
        rw [beginCall_empty hslots, hR.world, hl]
        simp only [hv, if_true]
      refine ⟨{ s.set s.next (some { numPushed := 0, numParams := 0, isCall := true }) with
        c := { s.c with world, slots := [v] }, next := s.next + 1 }, ?_, ?_⟩
      · simp only [hostStep, luaBackend, hb]
        rfl
      · refine ⟨rfl, hR.func, by simp [hR.next], hR.numParams, hR.numPushed, ?_, ?_⟩
        · rw [hR.next]
          exact InnerRel.update hR.inner (.calling rfl rfl)
        · exact (FrameRel.own (h := t.next) (i := .calling v []) (fun h' _ => hidle h') ha hp).congr rfl rfl rfl

theorem step_callPush {p : Push} (hR : Related t s) (hs : specStep (luaLang vm) (.callPush h p) t = .ok (o, t')) :
    ∃ s', hostStep (luaBackend vm) (.callPush h p) s = .ok (o, s') ∧ Related t' s' := by
  obtain ⟨f, args, hI, rfl, rfl⟩ := specStep_callPush hs
  obtain ⟨hothers, ha, hp, hslots⟩ := hR.frame.of_busy (h := h) (by rw [hI]; exact id)
  obtain ⟨st, hJ, hcall, hn⟩ := hR.calling hI
  refine ⟨{ s.set h (some { st with numPushed := st.numPushed + 1 }) with
    c := { s.c with slots := pushed p :: s.c.slots } }, ?_, ?_⟩
  · simp only [hostStep, onInner, hJ, luaBackend, push_ok]
    rfl
  · refine ⟨hR.world, hR.func, hR.next, hR.numParams, hR.numPushed, ?_, ?_⟩
    · exact InnerRel.update hR.inner (.calling hcall (by simp [hn]))
    · have hblock : pushed p :: s.c.slots = block (.calling f (args ++ [(luaLang vm).ofPush p])) := by
        simp [hslots, hI, block, luaLang]
      rw [hblock]
      exact FrameRel.own hothers ha hp

theorem luaLang_call {f : LuaValue} {args results : List LuaValue} {w world : LuaWorld}
    (h : (luaLang vm).call f args w = some (results, world)) : vm.call f args w = (.returned results, world) := by
  simp only [luaLang] at h
  rcases hc : vm.call f args w with ⟨values | ⟨status, message⟩, w'⟩ <;> rw [hc] at h <;> cases h
  rfl

theorem step_endCall (hR : Related t s) (hs : specStep (luaLang vm) (.endCall h) t = .ok (o, t')) :
    ∃ s', hostStep (luaBackend vm) (.endCall h) s = .ok (o, s') ∧ Related t' s' := by
  obtain ⟨f, args, results, world, hI, hc, rfl, rfl⟩ := specStep_endCall hs
  obtain ⟨hothers, ha, hp, hslots⟩ := hR.frame.of_busy (h := h) (by rw [hI]; exact id)
  rw [hI] at hslots
  obtain ⟨st, hJ, hcall, hn⟩ := hR.calling hI
  have hend := endCall_returned hcall hn hslots (by rw [hR.world]; exact luaLang_call hc)
  rw [List.append_nil] at hend
  have htarget : (luaBackend vm).target st s.c = some (f, args) := by
    simp [luaBackend, hslots, block, hn]
  refine ⟨{ s.set h (some { st with numParams := (results.reverse.length : Int) }) with
    c := { s.c with world, slots := results.reverse } }, ?_, ?_⟩
  · simp only [hostStep, onInner, hJ, htarget]
    simp only [luaBackend, hend]
    rfl
  · refine ⟨rfl, hR.func, hR.next, hR.numParams, hR.numPushed, ?_, ?_⟩
    · exact InnerRel.update hR.inner (.returned hcall rfl)
    · exact (FrameRel.own (i := .returned results.length results.reverse) hothers ha hp).congr rfl rfl rfl

theorem step_callPop {p : Pop} (hR : Related t s) (hP : Allowed (.callPop h p) t)
    (hs : specStep (luaLang vm) (.callPop h p) t = .ok (o, t')) :
    ∃ s', hostStep (luaBackend vm) (.callPop h p) s = .ok (o, s') ∧ Related t' s' := by
  obtain ⟨total, results, a, results', hI, hpf, rfl, rfl⟩ := specStep_callPop hs
  -- either way the frame holds the results and nothing else
  have hown : (∀ h', h' ≠ h → Quiet (t.inner h')) ∧ t.args = [] ∧ t.pushed = [] ∧ s.c.slots = results := by
    by_cases hq : Quiet (t.inner h)
    · obtain ⟨hidle, ha, hp⟩ := hP hq
      have hres : results = [] := by rw [hI] at hq; exact hq
      exact ⟨fun h' _ => hidle h', ha, hp, by simpa [ha, hp, hres] using hR.frame.of_idle hidle⟩
    · simpa [hI, block] using hR.frame.of_busy hq
  obtain ⟨hothers, ha, hp, hslots⟩ := hown
  obtain ⟨r, hfunc⟩ := hR.func
  rw [← hR.world] at hpf
  obtain ⟨st, hJ, hcall, hn⟩ := hR.returned hI
  obtain ⟨st', hpop, hcall', -, hcount⟩ := pop_values st hslots hfunc hpf
  refine ⟨{ s.set h (some st') with c := { s.c with slots := results' } }, ?_, ?_⟩
  · simp only [hostStep, onInner, hJ, luaBackend, hpop]
    rfl
  · refine ⟨hR.world, hR.func, hR.next, hR.numParams, hR.numPushed, ?_, FrameRel.own hothers ha hp⟩
    exact InnerRel.update hR.inner (.returned (hcall'.trans hcall) (by omega))

theorem step_release (hR : Related t s) (hs : specStep (luaLang vm) (.release h) t = .ok (o, t')) :
    ∃ s', hostStep (luaBackend vm) (.release h) s = .ok (o, s') ∧ Related t' s' := by
  obtain ⟨total, hI, rfl, rfl⟩ := specStep_release hs
  obtain ⟨st, hJ, hcall, hn⟩ := hR.returned hI
  refine ⟨s.set h none, ?_, ?_⟩
  · simp only [hostStep, onInner, hJ, luaBackend, releaseAfterCall_ok hcall]
    rfl
  · have hq : Quiet (t.inner h) := by rw [hI]; rfl
    exact ⟨hR.world, hR.func, hR.next, hR.numParams, hR.numPushed, InnerRel.update hR.inner .closed,
      hR.frame.quiet hq trivial⟩

/-- Every step of the independent handles that is taken in order is a step of the
backend's. -/
theorem lua_step {e : Event} (hR : Related t s) (hP : Allowed e t)
    (hs : specStep (luaLang vm) e t = .ok (o, t')) :
    ∃ s', hostStep (luaBackend vm) e s = .ok (o, s') ∧ Related t' s' := by
  cases e with
  | pop p => exact step_pop hR hP hs
  | push p => exact step_push hR hP hs
  | numParams =>
    cases hs
    refine ⟨s, ?_, hR⟩
    simp only [hostStep, luaBackend, LuaScriptStack.getNumParams, hR.numParams]
  | begin name => exact step_begin hR hP hs
  | callPush h p => exact step_callPush hR hs
  | endCall h => exact step_endCall hR hs
  | callPop h p => exact step_callPop hR hP hs
  | callNumParams h =>
    obtain ⟨total, results, hI, rfl, rfl⟩ := specStep_callNumParams hs
    obtain ⟨st, hJ, hcall, hn⟩ := hR.returned hI
    refine ⟨s, ?_, hR⟩
    simp only [hostStep, onInner, hJ, luaBackend, LuaScriptStack.getNumParams, hn]
    rfl
  | release h => exact step_release hR hs
  | ret =>
    cases hs
    refine ⟨s, ?_, hR⟩
    have hret : (luaBackend vm).returned s.stack s.c = t.pushed := by
      cases hR.frame with
      | idle _ hslots => simp [luaBackend, hslots, hR.numPushed]
      | busy _ _ _ _ hp _ => simp [luaBackend, hR.numPushed, hp]
    simp only [hostStep, hret]

theorem start_related (r : Nat) (args : List LuaValue) (w : LuaWorld) :
    Related (Spec.start args w) (luaStart r args w) where
  world := rfl
  func := ⟨r, rfl⟩
  next := rfl
  numParams := by simp [Spec.start, luaStart, Host.start]
  numPushed := rfl
  inner _ := .closed
  frame := .idle (fun _ => trivial) rfl

theorem related_run {es : List Event} {os : List (Obs LuaValue LuaValue)} (hR : Related t s)
    (hm : (spec (luaLang vm)).Meets Allowed es t) (hr : (spec (luaLang vm)).run es t = .ok (os, t')) :
    ∃ s', (handles (luaBackend vm)).run es s = .ok (os, s') ∧ Related t' s' := by
  have hstep : ∀ e t s o t', Related t s → Allowed e t → (spec (luaLang vm)).step e t = .ok (o, t') →
      ∃ s', (handles (luaBackend vm)).step e s = .ok (o, s') ∧ Related t' s' :=
    fun _ _ _ _ _ hR hP hs => lua_step hR hP hs
  exact Run.Machine.run_sim hstep hR hm hr

/-- A run of the independent handles in an order that is allowed is a run of the
backend's. -/
theorem handles_run {r : Nat} {args : List LuaValue} {w : LuaWorld} {es : List Event}
    {os : List (Obs LuaValue LuaValue)} (hm : (spec (luaLang vm)).Meets Allowed es (.start args w))
    (hr : (spec (luaLang vm)).run es (.start args w) = .ok (os, t)) :
    ∃ s, (handles (luaBackend vm)).run es (luaStart r args w) = .ok (os, s) := by
  obtain ⟨s, hrun, -⟩ := related_run (start_related r args w) hm hr
  exact ⟨s, hrun⟩

end MultiScript.Lua
