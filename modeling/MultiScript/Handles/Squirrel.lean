/-
The handles of the Squirrel backend. They lie on one stack in the order of their
`BeginCall`, and each works on whatever is on top, so they are independent when
they are used as a stack: `Allowed` says how.
-/
import MultiScript.Handles.Spec
import MultiScript.Squirrel.Protocol

namespace MultiScript.Squirrel

open Act Handles

variable (vm : SqVm)

/-- A function and the environment it is called with. -/
abbrev Callee := SqValue × SqValue

def popFit (w : SqWorld) : Pop → SqValue → PopFit
  | .int, v =>
    match v.getInteger with
    | some n => .takes (.int (some n))
    | none => .leaves (.int none)
  | .scriptObject, .sqinstance r => .takes (.object (w.heap.instances r).userpointer)
  | .scriptObject, _ => .faults

/-- Squirrel as a language of independent handles. -/
def sqLang : Lang Callee SqValue SqWorld where
  pop w := popFit w
  ofPush := pushed
  lookup name w :=
    match lookupRoot vm name w with
    | (some f, w') => if f.isFunction then some ((f, .table w'.heap.roottable), w') else none
    | (none, _) => none
  call f args w :=
    match vm.call f.1 (f.2 :: args) w with
    | (some v, w') => some ([v], w')
    | (none, _) => none

def sqBackend : Backend SquirrelScriptContext SquirrelScriptStack Callee SqValue where
  pop st p := st.pop p
  push st p := st.push p
  getNumParams := SquirrelScriptStack.getNumParams
  beginCall := beginCall vm
  endCall st := st.endCall vm
  releaseAfterCall st := st.releaseAfterCall
  target st c :=
    match c.stack.drop (st.numPushed + 1), (c.stack.take (st.numPushed + 1)).reverse with
    | f :: _, env :: args => some ((f, env), args)
    | _, _ => none
  returned st c := if st.numPushed = 0 then [] else [c.at (-1)]

/-- A callback entered with `this` and `args`, over the slots of its callers. -/
def sqStart (this : SqValue) (args below : List SqValue) (world : SqWorld) :
    Host SquirrelScriptContext SquirrelScriptStack :=
  .start { stack := args.reverse ++ this :: below, stackbase := below.length, world }
    { numPushed := 0, numParams := args.length, isCall := false }

/-! ## The orders that work -/

/-- Every handle opened after `h` is released. -/
def Newest (t : Spec Callee SqValue SqWorld) (h : Nat) : Prop := ∀ h', h < h' → t.inner h' = .closed

def Free (t : Spec Callee SqValue SqWorld) : Prop := ∀ h, t.inner h = .closed

/-- `S` is popped, pushed to and, with something pushed, returned from only while
every inner handle is released; one value is returned, or none. It is popped only
before it is pushed to, and past its arguments only for an integer, where `this`
is none. An inner handle is used only while it is the newest one that is not
released, and past its result it is popped only for an integer. -/
def Allowed (this : SqValue) : Event → Spec Callee SqValue SqWorld → Prop
  | .pop p, t => Free t ∧ t.pushed = [] ∧ (t.args = [] → p = .int ∧ this.getInteger = none)
  | .push _, t => Free t
  | .callPush h _, t => Newest t h
  | .endCall h, t => Newest t h
  | .callPop h p, t => Newest t h ∧ ((∃ n, t.inner h = .returned n []) → p = .int)
  | .release h, t => Newest t h
  | .ret, t => t.pushed = [] ∨ Free t ∧ t.pushed.length = 1
  | _, _ => True

/-! ## The stack -/

/-- What the handles below `n` have on the stack, the newest on top. -/
inductive Blocks (inner : Nat → InnerHandle Callee SqValue) : Nat → List SqValue → Prop
  | zero : Blocks inner 0 []
  | closed {n bl} : inner n = .closed → Blocks inner n bl → Blocks inner (n + 1) bl
  | calling {n bl f env args} (root) : inner n = .calling (f, env) args → f.isFunction = true →
      Blocks inner n bl → Blocks inner (n + 1) (args.reverse ++ env :: f :: root :: bl)
  | returned {n bl total results f} (root) : inner n = .returned total results → f.isFunction = true →
      Blocks inner n bl → Blocks inner (n + 1) (results ++ f :: root :: bl)

inductive InnerRel : InnerHandle Callee SqValue → Option SquirrelScriptStack → Prop
  | closed : InnerRel .closed none
  | calling {f args st} : st.isCall = true → st.numPushed = args.length → InnerRel (.calling f args) (some st)
  | returned {n results st} : st.isCall = true → st.numParams = (results.length : Int) →
      InnerRel (.returned n results) (some st)

structure Related (this : SqValue) (below : List SqValue) (t : Spec Callee SqValue SqWorld)
    (s : Host SquirrelScriptContext SquirrelScriptStack) : Prop where
  world : s.c.world = t.world
  next : s.next = t.next
  numParams : s.stack.numParams = (t.args.length : Int)
  numPushed : s.stack.numPushed = t.pushed.length
  inner : ∀ h, InnerRel (t.inner h) (s.inner h)
  fresh : ∀ h, t.next ≤ h → t.inner h = .closed
  stack : ∃ bl, Blocks t.inner t.next bl ∧ s.c.stack = bl ++ (t.pushed.reverse ++ (t.args ++ this :: below))

variable {vm} {this : SqValue} {below : List SqValue} {t t' : Spec Callee SqValue SqWorld}
  {s : Host SquirrelScriptContext SquirrelScriptStack} {h n : Nat} {i : InnerHandle Callee SqValue}
  {bl : List SqValue} {inner inner' : Nat → InnerHandle Callee SqValue}

theorem Blocks.congr (hb : Blocks inner n bl) (he : ∀ k, k < n → inner k = inner' k) : Blocks inner' n bl := by
  induction hb with
  | zero => exact .zero
  | closed hc _ ih => exact .closed ((he _ (by omega)).symm.trans hc) (ih fun k hk => he k (by omega))
  | calling root hc hf _ ih => exact .calling root ((he _ (by omega)).symm.trans hc) hf (ih fun k hk => he k (by omega))
  | returned root hc hf _ ih => exact .returned root ((he _ (by omega)).symm.trans hc) hf (ih fun k hk => he k (by omega))

/-- Released handles on top have no slots. -/
theorem Blocks.strip (hb : Blocks inner n bl) (hn : h < n) (hc : ∀ h', h < h' → inner h' = .closed) :
    Blocks inner (h + 1) bl := by
  induction hb with
  | zero => omega
  | @closed m bl hcl hb ih =>
    by_cases he : h = m
    · subst he
      exact .closed hcl hb
    · exact ih (by omega)
  | @calling m bl f env args root hcl hf hb _ =>
    by_cases he : h = m
    · subst he
      exact .calling root hcl hf hb
    · rw [hc m (by omega)] at hcl
      cases hcl
  | @returned m bl total results f root hcl hf hb _ =>
    by_cases he : h = m
    · subst he
      exact .returned root hcl hf hb
    · rw [hc m (by omega)] at hcl
      cases hcl

theorem Blocks.grow (hb : Blocks inner n bl) (hc : ∀ h', n ≤ h' → inner h' = .closed) :
    ∀ m, n ≤ m → Blocks inner m bl := by
  intro m hm
  induction m with
  | zero =>
    have hn : n = 0 := by omega
    exact hn ▸ hb
  | succ m ih =>
    by_cases he : n = m + 1
    · exact he ▸ hb
    · exact .closed (hc m (by omega)) (ih (by omega))

theorem Blocks.free (hb : Blocks inner n bl) (hf : ∀ h, inner h = .closed) : bl = [] := by
  induction hb with
  | zero => rfl
  | closed _ _ ih => exact ih
  | calling _ hc _ _ _ => rw [hf] at hc; cases hc
  | returned _ hc _ _ _ => rw [hf] at hc; cases hc

/-- The newest handle is changed, over the slots under it. -/
theorem Blocks.replace (hb : Blocks t.inner h bl) (hn : h < t.next) (hnew : Newest t h) {bl' : List SqValue}
    (htop : Blocks (t.set h i).inner h bl → Blocks (t.set h i).inner (h + 1) bl') :
    Blocks (t.set h i).inner t.next bl' := by
  have hbelow : Blocks (t.set h i).inner h bl := by
    refine hb.congr fun k hk => ?_
    simp [Spec.set, Function.update_of_ne (show k ≠ h by omega)]
  refine (htop hbelow).grow (fun h' hh' => ?_) t.next (by omega)
  have hne : h' ≠ h := by omega
  simpa [Spec.set, Function.update_of_ne hne] using hnew h' (by omega)

theorem InnerRel.update (hi : ∀ h, InnerRel (t.inner h) (s.inner h)) {j : Option SquirrelScriptStack}
    (hij : InnerRel i j) :
    ∀ h', InnerRel ((t.set h i).inner h') ((s.set h j).inner h') := by
  intro h'
  by_cases he : h' = h
  · subst he
    simpa [Spec.set, Host.set] using hij
  · simpa [Spec.set, Host.set, Function.update_of_ne he] using hi h'

/-- The stack under the blocks of the inner handles. -/
def under (this : SqValue) (below : List SqValue) (t : Spec Callee SqValue SqWorld) : List SqValue :=
  t.pushed.reverse ++ (t.args ++ this :: below)

theorem Related.newest (hR : Related this below t s) (hnew : Newest t h) (hne : t.inner h ≠ .closed) :
    h < t.next ∧ ∃ bl, Blocks t.inner (h + 1) bl ∧ s.c.stack = bl ++ under this below t := by
  obtain ⟨bl, hb, hs⟩ := hR.stack
  have hlt : h < t.next := by
    by_contra hge
    exact hne (hR.fresh h (by omega))
  exact ⟨hlt, bl, hb.strip hlt hnew, hs⟩

/-- The stack while the newest handle collects its arguments. -/
theorem Related.calling (hR : Related this below t s) (hnew : Newest t h) {f env : SqValue} {args : List SqValue}
    (hI : t.inner h = .calling (f, env) args) :
    h < t.next ∧ ∃ bl root, f.isFunction = true ∧ Blocks t.inner h bl ∧
      s.c.stack = args.reverse ++ env :: f :: root :: (bl ++ under this below t) := by
  obtain ⟨hlt, bl, hb, hs⟩ := hR.newest hnew (by simp [hI])
  refine ⟨hlt, ?_⟩
  cases hb with
  | closed hc _ => rw [hI] at hc; cases hc
  | calling root hc hf hb =>
    rw [hI] at hc
    cases hc
    exact ⟨_, root, hf, hb, by simpa using hs⟩
  | returned _ hc _ _ => rw [hI] at hc; cases hc

/-- The stack once the newest handle has its results. -/
theorem Related.returned (hR : Related this below t s) (hnew : Newest t h) {total : Nat} {results : List SqValue}
    (hI : t.inner h = .returned total results) :
    h < t.next ∧ ∃ bl root f, f.isFunction = true ∧ Blocks t.inner h bl ∧
      s.c.stack = results ++ f :: root :: (bl ++ under this below t) := by
  obtain ⟨hlt, bl, hb, hs⟩ := hR.newest hnew (by simp [hI])
  refine ⟨hlt, ?_⟩
  cases hb with
  | closed hc _ => rw [hI] at hc; cases hc
  | calling _ hc _ _ => rw [hI] at hc; cases hc
  | returned root hc hf hb =>
    rw [hI] at hc
    cases hc
    exact ⟨_, root, _, hf, hb, by simpa using hs⟩

/-- The newest handle changes, and with it its slots on top. -/
theorem Related.set (hR : Related this below t s) (hlt : h < t.next) (hnew : Newest t h)
    (hb : Blocks t.inner h bl) {bl' : List SqValue} {j : Option SquirrelScriptStack} (world : SqWorld)
    (hij : InnerRel i j)
    (htop : Blocks (t.set h i).inner h bl → Blocks (t.set h i).inner (h + 1) bl') :
    Related this below { t.set h i with world }
      { s.set h j with c := { s.c with world, stack := bl' ++ under this below t } } where
  world := rfl
  next := hR.next
  numParams := hR.numParams
  numPushed := hR.numPushed
  inner := InnerRel.update hR.inner hij
  fresh h' hh' := by
    have hge : t.next ≤ h' := hh'
    have hne : h' ≠ h := by omega
    simpa [Spec.set, Function.update_of_ne hne] using hR.fresh h' hge
  stack := ⟨bl', hb.replace hlt hnew htop, rfl⟩

@[simp] theorem set_self : (t.set h i).inner h = i := by simp [Spec.set]

/-! ## The simulation -/

/-- A pop from a stack with the values the spec pops from on top. Where they are
gone it must be a pop of an integer, over something that is none. -/
theorem pop_values {c : SquirrelScriptContext} (st : SquirrelScriptStack) {u : SqValue}
    {vs vs' rest : List SqValue} {p : Pop} {a : Answer} (hs : c.stack = vs ++ u :: rest)
    (hu : vs = [] → p = .int ∧ u.getInteger = none)
    (h : popFrom (sqLang vm) c.world p vs = some (a, vs')) :
    ∃ st', st.pop p c = .ok ((a, st'), { c with stack := vs' ++ u :: rest }) ∧ st'.isCall = st.isCall ∧
      st'.numPushed = st.numPushed ∧ st'.numParams - vs'.length = st.numParams - vs.length := by
  have hkeep : { c with stack := vs ++ u :: rest } = c := by rw [← hs]
  cases vs with
  | nil =>
    cases h
    obtain ⟨rfl, hn⟩ := hu rfl
    exact ⟨st, by rw [hkeep]; exact pop_int_none (by rw [at_top hs, hn]), rfl, rfl, rfl⟩
  | cons v vs =>
    rw [popFrom, show (sqLang vm).pop c.world p v = popFit c.world p v from rfl] at h
    cases p with
    | int =>
      cases hn : v.getInteger with
      | none =>
        simp only [popFit, hn] at h
        cases h
        exact ⟨st, by rw [hkeep]; exact pop_int_none (by rw [at_top hs, hn]), rfl, rfl, rfl⟩
      | some n =>
        simp only [popFit, hn] at h
        cases h
        refine ⟨_, pop_int_some hs hn, rfl, rfl, ?_⟩
        simp only [List.length_cons]
        omega
    | scriptObject =>
      cases v with
      | sqinstance r =>
        simp only [popFit] at h
        cases h
        refine ⟨_, pop_instance hs, rfl, rfl, ?_⟩
        simp only [List.length_cons]
        omega
      | _ => simp only [popFit] at h; cases h

variable {o : Obs Callee SqValue}

/-- The handle of a call that is not ended. -/
theorem Related.callingHandle (hR : Related this below t s) {f : Callee} {args : List SqValue}
    (hI : t.inner h = .calling f args) :
    ∃ st, s.inner h = some st ∧ st.isCall = true ∧ st.numPushed = args.length := by
  have hi := hR.inner h
  rw [hI] at hi
  generalize s.inner h = j at hi
  cases hi with
  | calling hcall hn => exact ⟨_, rfl, hcall, hn⟩

/-- The handle of a call that is. -/
theorem Related.returnedHandle (hR : Related this below t s) {n : Nat} {results : List SqValue}
    (hI : t.inner h = .returned n results) :
    ∃ st, s.inner h = some st ∧ st.isCall = true ∧ st.numParams = (results.length : Int) := by
  have hi := hR.inner h
  rw [hI] at hi
  generalize s.inner h = j at hi
  cases hi with
  | returned hcall hn => exact ⟨_, rfl, hcall, hn⟩

theorem step_pop {p : Pop} (hR : Related this below t s) (hP : Allowed this (.pop p) t)
    (h : specStep (sqLang vm) (.pop p) t = .ok (o, t')) :
    ∃ s', hostStep (sqBackend vm) (.pop p) s = .ok (o, s') ∧ Related this below t' s' := by
  obtain ⟨hfree, hpushed, hu⟩ := hP
  obtain ⟨bl, hb, hstack⟩ := hR.stack
  have hstack' : s.c.stack = t.args ++ this :: below := by simpa [hb.free hfree, hpushed] using hstack
  obtain ⟨a, args, hpf, rfl, rfl⟩ := specStep_pop h
  rw [← hR.world] at hpf
  obtain ⟨st', hpop, -, hnp, hcount⟩ := pop_values s.stack hstack' hu hpf
  refine ⟨{ s with c := { s.c with stack := args ++ this :: below }, stack := st' }, ?_, ?_⟩
  · simp only [hostStep, sqBackend, hpop]
    rfl
  · refine ⟨hR.world, hR.next, ?_, hnp.trans hR.numPushed, hR.inner, hR.fresh, bl, hb, ?_⟩
    · have hn := hR.numParams
      simp only
      omega
    · simp [hb.free hfree, hpushed]

theorem step_push {p : Push} (hR : Related this below t s) (hP : Allowed this (.push p) t)
    (h : specStep (sqLang vm) (.push p) t = .ok (o, t')) :
    ∃ s', hostStep (sqBackend vm) (.push p) s = .ok (o, s') ∧ Related this below t' s' := by
  cases h
  obtain ⟨bl, hb, hstack⟩ := hR.stack
  refine ⟨{ s with
    c := { s.c with stack := pushed p :: s.c.stack }
    stack := { s.stack with numPushed := s.stack.numPushed + 1 } }, ?_, ?_⟩
  · simp only [hostStep, sqBackend, push_ok]
    rfl
  · refine ⟨hR.world, hR.next, hR.numParams, by simp [hR.numPushed], hR.inner, hR.fresh, bl, hb, ?_⟩
    simp [hstack, hb.free hP, sqLang]

theorem step_begin {name : Bytes} (hR : Related this below t s)
    (h : specStep (sqLang vm) (.begin name) t = .ok (o, t')) :
    ∃ s', hostStep (sqBackend vm) (.begin name) s = .ok (o, s') ∧ Related this below t' s' := by
  obtain ⟨bl, hb, hstack⟩ := hR.stack
  rcases hl : lookupRoot vm name t.world with ⟨_ | f, world⟩
  · simp only [specStep, sqLang, hl] at h
    cases h
  · cases hf : f.isFunction with
    | false => simp [specStep, sqLang, hl, hf] at h
    | true =>
      simp only [specStep, sqLang, hl, hf, if_true] at h
      cases h
      have hbegin : beginCall vm name s.c = .ok (some { numPushed := 0, numParams := 0, isCall := true },
          { s.c with world, stack := .table world.heap.roottable :: f :: .table s.c.world.heap.roottable ::
            s.c.stack }) := by
        rw [beginCall_eq, hR.world, hl]
        simp only [hf, if_true]
      refine ⟨{ s.set s.next (some { numPushed := 0, numParams := 0, isCall := true }) with
        next := s.next + 1
        c := { s.c with world, stack := .table world.heap.roottable :: f :: .table s.c.world.heap.roottable ::
          s.c.stack } }, ?_, ?_⟩
      · simp only [hostStep, sqBackend, hbegin]
        rfl
      · refine ⟨rfl, by simp [hR.next], hR.numParams, hR.numPushed, ?_, ?_, ?_⟩
        · rw [hR.next]
          exact InnerRel.update hR.inner (.calling rfl rfl)
        · intro h' hh'
          have hge : t.next + 1 ≤ h' := hh'
          have hne : h' ≠ t.next := by omega
          simpa [Spec.set, Function.update_of_ne hne] using hR.fresh h' (by omega)
        · have hbelow : Blocks (t.set t.next (.calling (f, .table world.heap.roottable) [])).inner t.next bl := by
            refine hb.congr fun k hk => ?_
            simp [Spec.set, Function.update_of_ne (show k ≠ t.next by omega)]
          refine ⟨_, .calling (.table s.c.world.heap.roottable) set_self hf hbelow, ?_⟩
          simp [hstack, Spec.set]

theorem step_callPush {p : Push} (hR : Related this below t s) (hnew : Newest t h)
    (hs : specStep (sqLang vm) (.callPush h p) t = .ok (o, t')) :
    ∃ s', hostStep (sqBackend vm) (.callPush h p) s = .ok (o, s') ∧ Related this below t' s' := by
  obtain ⟨f, args, hI, rfl, rfl⟩ := specStep_callPush hs
  obtain ⟨st, hJ, hcall, hn⟩ := hR.callingHandle hI
  obtain ⟨hlt, bl, root, hf, hb, hstack⟩ := hR.calling hnew hI
  refine ⟨{ s.set h (some { st with numPushed := st.numPushed + 1 }) with
    c := { s.c with stack := pushed p :: s.c.stack } }, ?_, ?_⟩
  · simp only [hostStep, onInner, hJ, sqBackend, push_ok]
    rfl
  · have hij : InnerRel (.calling f (args ++ [pushed p])) (some { st with numPushed := st.numPushed + 1 }) :=
      .calling hcall (by simp [hn])
    have hset := hR.set hlt hnew hb s.c.world hij fun hb' => .calling root set_self hf hb'
    simpa [hstack, hR.world, sqLang, Spec.set] using hset

/-- A function returns one value. -/
theorem sqLang_call {f : Callee} {args results : List SqValue} {w world : SqWorld}
    (h : (sqLang vm).call f args w = some (results, world)) :
    ∃ v, results = [v] ∧ vm.call f.1 (f.2 :: args) w = (some v, world) := by
  simp only [sqLang] at h
  rcases hc : vm.call f.1 (f.2 :: args) w with ⟨_ | v, w'⟩ <;> rw [hc] at h <;> cases h
  exact ⟨v, rfl, rfl⟩

theorem step_endCall (hR : Related this below t s) (hnew : Newest t h)
    (hs : specStep (sqLang vm) (.endCall h) t = .ok (o, t')) :
    ∃ s', hostStep (sqBackend vm) (.endCall h) s = .ok (o, s') ∧ Related this below t' s' := by
  obtain ⟨⟨f, env⟩, args, results, world, hI, hc, rfl, rfl⟩ := specStep_endCall hs
  obtain ⟨v, rfl, hv⟩ := sqLang_call hc
  obtain ⟨st, hJ, hcall, hn⟩ := hR.callingHandle hI
  obtain ⟨hlt, bl, root, hf, hb, hstack⟩ := hR.calling hnew hI
  have hstack' : s.c.stack = (env :: args).reverse ++ f :: root :: (bl ++ under this below t) := by
    simp [hstack]
  have hend := endCall_some hcall (by simp [hn]) hstack' (by rw [hR.world]; exact hv)
  have htarget : (sqBackend vm).target st s.c = some ((f, env), args) := by
    have hlen : st.numPushed + 1 = (env :: args).reverse.length := by simp [hn]
    simp only [sqBackend, hlen, hstack', List.drop_left, List.take_left, List.reverse_reverse]
  refine ⟨{ s.set h (some { st with numParams := 1 }) with
    c := { s.c with world, stack := v :: f :: root :: (bl ++ under this below t) } }, ?_, ?_⟩
  · simp only [hostStep, onInner, hJ, htarget]
    simp only [sqBackend, hend]
    rfl
  · have hij : InnerRel (.returned 1 [v]) (some { st with numParams := 1 }) := .returned hcall rfl
    have hset := hR.set hlt hnew hb world hij fun hb' => .returned root set_self hf hb'
    simpa using hset

theorem step_callPop {p : Pop} (hR : Related this below t s) (hP : Allowed this (.callPop h p) t)
    (hs : specStep (sqLang vm) (.callPop h p) t = .ok (o, t')) :
    ∃ s', hostStep (sqBackend vm) (.callPop h p) s = .ok (o, s') ∧ Related this below t' s' := by
  obtain ⟨hnew, hdrained⟩ := hP
  obtain ⟨total, results, a, results', hI, hpf, rfl, rfl⟩ := specStep_callPop hs
  rw [← hR.world] at hpf
  obtain ⟨st, hJ, hcall, hn⟩ := hR.returnedHandle hI
  obtain ⟨hlt, bl, root, f, hf, hb, hstack⟩ := hR.returned hnew hI
  -- past the result a pop reads the function
  have hu : results = [] → p = .int ∧ f.getInteger = none := by
    intro hnil
    exact ⟨hdrained ⟨total, by rw [hI, hnil]⟩, SqValue.getInteger_function hf⟩
  obtain ⟨st', hpop, hcall', -, hcount⟩ := pop_values st hstack hu hpf
  refine ⟨{ s.set h (some st') with
    c := { s.c with stack := results' ++ f :: root :: (bl ++ under this below t) } }, ?_, ?_⟩
  · simp only [hostStep, onInner, hJ, sqBackend, hpop]
    rfl
  · have hij : InnerRel (.returned total results') (some st') :=
      .returned (hcall'.trans hcall) (by omega)
    have hset := hR.set hlt hnew hb s.c.world hij fun hb' => .returned root set_self hf hb'
    simpa [hR.world, Spec.set] using hset

theorem step_release (hR : Related this below t s) (hnew : Newest t h)
    (hs : specStep (sqLang vm) (.release h) t = .ok (o, t')) :
    ∃ s', hostStep (sqBackend vm) (.release h) s = .ok (o, s') ∧ Related this below t' s' := by
  obtain ⟨total, hI, rfl, rfl⟩ := specStep_release hs
  obtain ⟨st, hJ, hcall, hn⟩ := hR.returnedHandle hI
  obtain ⟨hlt, bl, root, f, hf, hb, hstack⟩ := hR.returned hnew hI
  have hpop : sqPop 2 s.c = .ok ((), { s.c with stack := bl ++ under this below t }) := by
    rw [sqPop_ok (by simp [hstack])]
    simp [hstack]
  refine ⟨{ s.set h none with c := { s.c with stack := bl ++ under this below t } }, ?_, ?_⟩
  · simp only [hostStep, onInner, hJ, sqBackend, releaseAfterCall_ok hcall, hpop]
    rfl
  · have hset := hR.set hlt hnew hb s.c.world .closed fun hb' => .closed set_self hb'
    simpa [hR.world, Spec.set] using hset

/-- Every step of the independent handles that is taken in order is a step of the
backend's. -/
theorem sq_step {e : Event} (hR : Related this below t s) (hP : Allowed this e t)
    (hs : specStep (sqLang vm) e t = .ok (o, t')) :
    ∃ s', hostStep (sqBackend vm) e s = .ok (o, s') ∧ Related this below t' s' := by
  cases e with
  | pop p => exact step_pop hR hP hs
  | push p => exact step_push hR hP hs
  | numParams =>
    cases hs
    refine ⟨s, ?_, hR⟩
    simp only [hostStep, sqBackend, SquirrelScriptStack.getNumParams, hR.numParams]
  | begin name => exact step_begin hR hs
  | callPush h p => exact step_callPush hR hP hs
  | endCall h => exact step_endCall hR hP hs
  | callPop h p => exact step_callPop hR hP hs
  | callNumParams h =>
    obtain ⟨total, results, hI, rfl, rfl⟩ := specStep_callNumParams hs
    obtain ⟨st, hJ, hcall, hn⟩ := hR.returnedHandle hI
    refine ⟨s, ?_, hR⟩
    simp only [hostStep, onInner, hJ, sqBackend, SquirrelScriptStack.getNumParams, hn]
    rfl
  | release h => exact step_release hR hP hs
  | ret =>
    cases hs
    obtain ⟨bl, hb, hstack⟩ := hR.stack
    refine ⟨s, ?_, hR⟩
    have hret : (sqBackend vm).returned s.stack s.c = t.pushed := by
      simp only [sqBackend, hR.numPushed]
      rcases hP with hnil | ⟨hfree, hone⟩
      · simp [hnil]
      · obtain ⟨v, hv⟩ := List.length_eq_one_iff.mp hone
        have htop : s.c.stack = v :: (t.args ++ this :: below) := by
          simpa [hb.free hfree, hv] using hstack
        simp [hv, at_top htop]
    simp only [hostStep, hret]

theorem start_related (this : SqValue) (args below : List SqValue) (w : SqWorld) :
    Related this below (Spec.start args w) (sqStart this args below w) where
  world := rfl
  next := rfl
  numParams := by simp [Spec.start, sqStart, Host.start]
  numPushed := rfl
  inner _ := .closed
  fresh _ _ := rfl
  stack := ⟨[], .zero, rfl⟩

theorem related_run {es : List Event} {os : List (Obs Callee SqValue)} (hR : Related this below t s)
    (hm : (spec (sqLang vm)).Meets (Allowed this) es t) (hr : (spec (sqLang vm)).run es t = .ok (os, t')) :
    ∃ s', (handles (sqBackend vm)).run es s = .ok (os, s') ∧ Related this below t' s' := by
  have hstep : ∀ e t s o t', Related this below t s → Allowed this e t →
      (spec (sqLang vm)).step e t = .ok (o, t') →
      ∃ s', (handles (sqBackend vm)).step e s = .ok (o, s') ∧ Related this below t' s' :=
    fun _ _ _ _ _ hR hP hs => sq_step hR hP hs
  exact Run.Machine.run_sim hstep hR hm hr

/-- A run of the independent handles in an order that is allowed is a run of the
backend's. -/
theorem handles_run {args below : List SqValue} {w : SqWorld} {es : List Event}
    {os : List (Obs Callee SqValue)} (hm : (spec (sqLang vm)).Meets (Allowed this) es (.start args w))
    (hr : (spec (sqLang vm)).run es (.start args w) = .ok (os, t)) :
    ∃ s, (handles (sqBackend vm)).run es (sqStart this args below w) = .ok (os, s) := by
  obtain ⟨s, hrun, -⟩ := related_run (start_related this args below w) hm hr
  exact ⟨s, hrun⟩

end MultiScript.Squirrel
