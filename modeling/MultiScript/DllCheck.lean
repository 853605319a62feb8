/-
The look for the fake DLL in the OCaml backend, over the life of a context: functions are
registered, scripts are executed, and the file comes and goes. `RebuildFakeDLL` clears the
flag that asks for the look before the file is found missing.
-/
import MultiScript.Ocaml.Context

namespace MultiScript

open Run Act

namespace Ocaml

/-- What happens to a context and to the file. -/
inductive DllEvent
  | file (dll : Option (List Bytes))
  | registerFunction (desc : FunctionDesc)
  | executeString (string : Bytes)
deriving DecidableEq, Repr

/-- What is seen of it: of `ExecuteString` whether the file was looked for, and found,
whether the compiler was invoked, and what was returned. -/
inductive DllSeen
  | file
  | registered (result : Bool)
  | executed (check : Option Bool) (compiled : Bool) (result : Bool)
deriving DecidableEq, Repr

/-- What the call returned. -/
def DllSeen.result : DllSeen → Bool
  | .file => true
  | .registered result => result
  | .executed _ _ result => result

variable (vm : OcamlVm) (id : Nat)

/-- `ExecuteString` from the compiler on. -/
def compileAndRun (string : Bytes) : OcamlM Bool := do
  match vm.ocamlc (vm.fprintf string) (← getDll) with
  | none => return false
  | some file => loadAndRun vm file

/-- `ExecuteString`, with what is seen of it. -/
def executeSeen (string : Bytes) : OcamlM DllSeen := do
  let c ← context id
  let dll ← getDll
  let check := if c.dirtyFakedDLL then some dll.isSome else none
  if ← checkFakeDLL id then
    let result ← compileAndRun vm string
    return .executed check true result
  else
    return .executed check false false

def dllStep : DllEvent → OcamlProcess → Except Fault (DllSeen × OcamlProcess)
  | .file dll, p => .ok (.file, { p with dll })
  | .registerFunction desc, p => (registerFunction id desc p).map fun r => (.registered r.1, r.2)
  | .executeString string, p => executeSeen vm id string p

def dllMachine : Machine OcamlProcess DllEvent DllSeen Fault := ⟨dllStep vm id⟩

/-- The functions registered since the last look that found the file. -/
def unchecked : List FunctionDesc → List (DllEvent × DllSeen) → List FunctionDesc
  | fs, [] => fs
  | fs, (.registerFunction desc, .registered true) :: rest => unchecked (fs ++ [desc]) rest
  | _, (.executeString _, .executed (some true) _ _) :: rest => unchecked [] rest
  | fs, _ :: rest => unchecked fs rest

/-- `ExecuteString` refuses the script: it returns `false`, and the compiler has not been
invoked. -/
def Refuses (string : Bytes) (p : OcamlProcess) : Prop :=
  ∃ check p', executeSeen vm id string p = .ok (.executed check false false, p')

/-! ## What a history asks for -/

/-- Whether there are functions that no look has found the file for, and whether a look
has been made for them. -/
inductive Phase
  | checked
  | registered
  | missed
deriving DecidableEq, Repr

structure History where
  phase : Phase
  present : Bool
deriving DecidableEq, Repr

namespace History

def start (dll : Option (List Bytes)) : History := { phase := .checked, present := dll.isSome }

/-- The first script after a registration decides. -/
def next (h : History) : DllEvent → History
  | .file dll => { h with present := dll.isSome }
  | .registerFunction desc =>
    if desc.numParams = 0 ∨ desc.numParams = 1 ∨ desc.numParams = 2 then { h with phase := .registered } else h
  | .executeString _ =>
    if h.phase = .registered then { h with phase := if h.present then .checked else .missed } else h

end History

/-- The flag is set where functions were registered and no script was executed since, and it
is not where one was and the file was not there. -/
structure Tracks (h : History) (fs : List FunctionDesc) (p : OcamlProcess) : Prop where
  dll : p.dll.isSome = h.present
  unchecked : fs = [] ↔ h.phase = .checked
  flag : ∃ c, p.contexts id = some c ∧ (h.phase = .registered → c.dirtyFakedDLL = true) ∧
    (h.phase = .missed → c.dirtyFakedDLL = false)

variable {vm id} {p p' : OcamlProcess} {c : OcamlScriptContext} {string : Bytes}

theorem context_ok (h : p.contexts id = some c) : context id p = .ok (c, p) := by
  unfold context
  rw [h]

theorem context_none (h : p.contexts id = none) : context id p = .error .wildDeref := by
  unfold context
  rw [h]

/-- The context after `RebuildFakeDLL`. -/
def rebuilt (c : OcamlScriptContext) (found : Bool) : OcamlScriptContext :=
  if found then { c with dirtyFakedDLL := false } else { c with dirtyFakedDLL := false }.output missingDLL

theorem rebuilt_clean (c : OcamlScriptContext) (found : Bool) : (rebuilt c found).dirtyFakedDLL = false := by
  cases found with
  | true => rfl
  | false => cases hl : c.logger.isSome <;> simp [rebuilt, OcamlScriptContext.output, hl]

theorem checkFakeDLL_dirty (h : p.contexts id = some c) (hd : c.dirtyFakedDLL = true) : checkFakeDLL id p =
    .ok (p.dll.isSome, { p with contexts := Function.update p.contexts id (some (rebuilt c p.dll.isSome)) }) := by
  rw [checkFakeDLL, bind_ok (context_ok h), if_pos hd]
  rfl

theorem checkFakeDLL_clean (h : p.contexts id = some c) (hd : c.dirtyFakedDLL = false) :
    checkFakeDLL id p = .ok (true, p) := by
  rw [checkFakeDLL, bind_ok (context_ok h), if_neg (by simp [hd])]
  rfl

/-- The compiler is invoked, where the look does not end the call. -/
theorem executeSeen_goes {p₁ : OcamlProcess} (h : p.contexts id = some c)
    (hcheck : checkFakeDLL id p = .ok (true, p₁)) :
    executeSeen vm id string p = (compileAndRun vm string p₁).map fun r =>
      (.executed (if c.dirtyFakedDLL then some p.dll.isSome else none) true r.1, r.2) := by
  rw [executeSeen, bind_ok (context_ok h), bind_ok (show getDll p = .ok (p.dll, p) from rfl), bind_ok hcheck]
  simp only [if_true]
  cases hrun : compileAndRun vm string p₁ with
  | ok r => rw [bind_ok hrun]; rfl
  | error f => rw [bind_error hrun]; rfl

theorem executeSeen_ends_call {p₁ : OcamlProcess} (h : p.contexts id = some c)
    (hcheck : checkFakeDLL id p = .ok (false, p₁)) : executeSeen vm id string p =
      .ok (.executed (if c.dirtyFakedDLL then some p.dll.isSome else none) false false, p₁) := by
  rw [executeSeen, bind_ok (context_ok h), bind_ok (show getDll p = .ok (p.dll, p) from rfl), bind_ok hcheck]
  rfl

/-- What is seen returned is what `ExecuteString` returns. -/
theorem executeSeen_result (string : Bytes) (p : OcamlProcess) :
    executeString vm id string p = (executeSeen vm id string p).map fun r => (r.1.result, r.2) := by
  have hsplit : executeString vm id string =
      (checkFakeDLL id >>= fun goes => if goes then compileAndRun vm string else pure false) := rfl
  cases h : p.contexts id with
  | none =>
    have hcheck : checkFakeDLL id p = .error .wildDeref := bind_error (context_none h)
    rw [hsplit, bind_error hcheck, executeSeen, bind_error (context_none h)]
    rfl
  | some c =>
    obtain ⟨goes, p₁, hcheck⟩ : ∃ goes p₁, checkFakeDLL id p = .ok (goes, p₁) := by
      cases hd : c.dirtyFakedDLL with
      | true => exact ⟨_, _, checkFakeDLL_dirty h hd⟩
      | false => exact ⟨_, _, checkFakeDLL_clean h hd⟩
    rw [hsplit, bind_ok hcheck]
    cases goes with
    | true =>
      rw [executeSeen_goes h hcheck]
      simp only [if_true]
      cases compileAndRun vm string p₁ <;> rfl
    | false => rw [executeSeen_ends_call h hcheck]; rfl

/-- What the rest of the call leaves of the context and the file. -/
structure Keeps (id : Nat) (p p' : OcamlProcess) : Prop where
  dll : p'.dll = p.dll
  flag : ∀ c, p.contexts id = some c → ∃ c', p'.contexts id = some c' ∧ c'.dirtyFakedDLL = c.dirtyFakedDLL

theorem output_flag (chunks : List Bytes) (c : OcamlScriptContext) :
    (chunks.foldl OcamlScriptContext.output c).dirtyFakedDLL = c.dirtyFakedDLL := by
  induction chunks generalizing c with
  | nil => rfl
  | cons chunk chunks ih =>
    rw [List.foldl_cons, ih]
    unfold OcamlScriptContext.output
    split <;> rfl

/-- Where the context is alive, it is read and nothing changes. -/
theorem context_ends (current : Nat) (p : OcamlProcess) :
    Ends (context current) p (fun c p' => p' = p ∧ p.contexts current = some c) fun _ => True := by
  cases hc : p.contexts current with
  | none =>
    have hfail := context_none hc
    simp only [Ends, hfail]
  | some c => exact .of_ok (context_ok hc) ⟨rfl, rfl⟩

theorem ocamlPrintCallback_keeps (chunks : List Bytes) (p : OcamlProcess) :
    Ends (ocamlPrintCallback chunks) p (fun _ p' => Keeps id p p') fun _ => True := by
  refine Ends.seq (show getCurrent p = .ok (p.current, p) from rfl) ?_
  cases p.current with
  | none => trivial
  | some current =>
    refine (context_ends current p).bind fun c p₁ hc => ?_
    obtain ⟨rfl, hc⟩ := hc
    refine Ends.of_ok (show setContext current _ p₁ = .ok ((), _) from rfl) ⟨rfl, fun c' hc' => ?_⟩
    by_cases hid : id = current
    · subst hid
      rw [hc] at hc'
      cases hc'
      exact ⟨_, Function.update_self _ _ _, output_flag chunks c⟩
    · exact ⟨c', by simp [hid, hc'], rfl⟩

theorem fatalError_keeps {α : Type} (p : OcamlProcess) {Q : α → OcamlProcess → Prop} :
    Ends (fatalError : OcamlM α) p Q fun _ => True := by
  refine Ends.seq (show getCurrent p = .ok (p.current, p) from rfl) ?_
  cases p.current with
  | none => trivial
  | some current =>
    refine (context_ends current p).bind fun c p₁ _ => ?_
    cases c.logger <;> trivial

theorem compileAndRun_keeps (string : Bytes) (p : OcamlProcess) :
    Ends (compileAndRun vm string) p (fun _ p' => Keeps id p p') fun _ => True := by
  refine Ends.seq (show getDll p = .ok (p.dll, p) from rfl) ?_
  cases vm.ocamlc (vm.fprintf string) p.dll with
  | none => exact Ends.pure ⟨rfl, fun c hc => ⟨c, hc, rfl⟩⟩
  | some file =>
    refine Ends.seq (show getRt p = .ok (p.rt, p) from rfl) ?_
    cases customCamlLoadCode vm.builtins file p.rt with
    | none => exact fatalError_keeps p
    | some r =>
      refine Ends.seq (show setRt _ p = .ok ((), _) from rfl) ?_
      refine Ends.bind (@ocamlPrintCallback_keeps id _ _) fun _ p' hp' => Ends.pure ⟨hp'.dll, hp'.flag⟩

/-- However it goes, the flag is down after `ExecuteString`, and the look was made if it was up. -/
theorem executeSeen_ends (string : Bytes) (h : p.contexts id = some c) :
    Ends (executeSeen vm id string) p (fun seen p' => p'.dll = p.dll ∧
      (∃ c', p'.contexts id = some c' ∧ c'.dirtyFakedDLL = false) ∧
      ∃ compiled result, seen = .executed (if c.dirtyFakedDLL then some p.dll.isSome else none) compiled result)
      fun _ => True := by
  have hgoes : ∀ p₁ c₁, checkFakeDLL id p = .ok (true, p₁) → p₁.dll = p.dll → p₁.contexts id = some c₁ →
      c₁.dirtyFakedDLL = false → Ends (executeSeen vm id string) p (fun seen p' => p'.dll = p.dll ∧
        (∃ c', p'.contexts id = some c' ∧ c'.dirtyFakedDLL = false) ∧
        ∃ compiled result, seen = .executed (if c.dirtyFakedDLL then some p.dll.isSome else none) compiled result)
        fun _ => True := by
    intro p₁ c₁ hcheck hdll hc₁ hclean
    have hkeeps := @compileAndRun_keeps vm id string p₁
    unfold Ends at hkeeps ⊢
    rw [executeSeen_goes h hcheck]
    cases hrun : compileAndRun vm string p₁ with
    | error f => trivial
    | ok r =>
      rw [hrun] at hkeeps
      obtain ⟨c', hc', hflag⟩ := hkeeps.flag c₁ hc₁
      exact ⟨hkeeps.dll.trans hdll, ⟨c', hc', hflag.trans hclean⟩, _, _, rfl⟩
  cases hd : c.dirtyFakedDLL with
  | false =>
    rw [hd] at hgoes
    exact hgoes p c (checkFakeDLL_clean h hd) rfl h hd
  | true =>
    have hcheck := checkFakeDLL_dirty h hd
    have hself : (Function.update p.contexts id (some (rebuilt c p.dll.isSome))) id = some (rebuilt c p.dll.isSome) :=
      Function.update_self _ _ _
    rw [hd] at hgoes
    cases hfound : p.dll.isSome with
    | true =>
      rw [hfound] at hcheck hself hgoes
      exact hgoes _ _ hcheck rfl hself (rebuilt_clean c true)
    | false =>
      rw [hfound] at hcheck hself
      refine Ends.of_ok (executeSeen_ends_call h hcheck) ⟨rfl, ⟨_, hself, rebuilt_clean c false⟩, false, false, ?_⟩
      rw [hd, hfound]

theorem registerFunction_eq (desc : FunctionDesc) (h : p.contexts id = some c) : registerFunction id desc p =
    .ok (if desc.numParams = 0 ∨ desc.numParams = 1 ∨ desc.numParams = 2 then
      (true, { p with
        rt := customCamlRegisterCFunction (callbackFunction id desc) p.rt
        contexts := Function.update p.contexts id
          (some { c with functions := c.functions ++ [desc], dirtyFakedDLL := true }) })
      else (false, p)) := by
  rw [registerFunction, bind_ok (context_ok h)]
  split
  · rfl
  · rfl

theorem registerFunction_ok (desc : FunctionDesc) (h : p.contexts id = some c) :
    ∃ accepted p' c', registerFunction id desc p = .ok (accepted, p') ∧ p'.dll = p.dll ∧ p'.contexts id = some c' ∧
      (accepted = true ↔ desc.numParams = 0 ∨ desc.numParams = 1 ∨ desc.numParams = 2) ∧
      c'.dirtyFakedDLL = (accepted || c.dirtyFakedDLL) := by
  rw [registerFunction_eq desc h]
  by_cases hn : desc.numParams = 0 ∨ desc.numParams = 1 ∨ desc.numParams = 2
  · rw [if_pos hn]
    exact ⟨true, _, _, rfl, rfl, Function.update_self _ _ _, by simp [hn], rfl⟩
  · rw [if_neg hn]
    exact ⟨false, p, c, rfl, rfl, h, by simp [hn], rfl⟩

theorem unchecked_cons (fs : List FunctionDesc) (x : DllEvent × DllSeen) (rest : List (DllEvent × DllSeen)) :
    unchecked fs (x :: rest) = unchecked (unchecked fs [x]) rest := by
  obtain ⟨e, seen⟩ := x
  cases e with
  | file dll => rfl
  | registerFunction desc =>
    cases seen with
    | file => rfl
    | registered result => cases result <;> rfl
    | executed check compiled result => rfl
  | executeString string =>
    cases seen with
    | file => rfl
    | registered result => rfl
    | executed check compiled result =>
      cases check with
      | none => rfl
      | some found => cases found <;> rfl

/-- One event, in the history and in the process. -/
theorem step_tracks {h : History} {fs : List FunctionDesc} {e : DllEvent} {seen : DllSeen} (ht : Tracks id h fs p)
    (hs : dllStep vm id e p = .ok (seen, p')) : Tracks id (h.next e) (unchecked fs [(e, seen)]) p' := by
  obtain ⟨hdll, hfs, c, hc, hreg, hmissed⟩ := ht
  cases e with
  | file dll =>
    cases hs
    exact ⟨rfl, hfs, c, hc, hreg, hmissed⟩
  | registerFunction desc =>
    obtain ⟨accepted, p₁, c₁, hrun, hdll₁, hc₁, haccepted, hflag⟩ := @registerFunction_ok id p c desc hc
    simp only [dllStep, hrun, Except.map, Except.ok.injEq, Prod.mk.injEq] at hs
    obtain ⟨rfl, rfl⟩ := hs
    cases accepted with
    | true =>
      rw [History.next, if_pos (haccepted.mp rfl)]
      exact ⟨by rw [hdll₁, hdll], by simp [unchecked], c₁, hc₁, fun _ => hflag, fun h => by cases h⟩
    | false =>
      rw [History.next, if_neg fun hn => by cases haccepted.mpr hn]
      exact ⟨by rw [hdll₁, hdll], hfs, c₁, hc₁, fun h => hflag.trans (hreg h), fun h => hflag.trans (hmissed h)⟩
  | executeString string =>
    have hends := (executeSeen_ends string hc).ok hs
    obtain ⟨hdll', ⟨c', hc', hclean⟩, compiled, result, rfl⟩ := hends
    rw [← hdll'] at hdll
    cases hphase : h.phase with
    | checked =>
      have hnil : fs = [] := hfs.mpr hphase
      subst hnil
      have hnone : ∀ check, unchecked [] [(.executeString string, .executed check compiled result)] = [] := by
        intro check
        rcases check with _ | _ | _ <;> rfl
      rw [History.next, if_neg (by simp [hphase])]
      refine ⟨hdll, ?_, c', hc', fun h => ?_, fun _ => hclean⟩
      · rw [hnone, hphase]
        simp
      · rw [hphase] at h
        cases h
    | missed =>
      rw [hmissed hphase]
      rw [History.next, if_neg (by simp [hphase])]
      refine ⟨hdll, hfs, c', hc', fun h => ?_, fun _ => hclean⟩
      rw [hphase] at h
      cases h
    | registered =>
      rw [hreg hphase, if_pos rfl]
      rw [History.next, if_pos hphase]
      have hfs' : fs ≠ [] := by
        intro hnil
        rw [hfs.mp hnil] at hphase
        cases hphase
      rw [hdll'] at hdll
      rw [hdll]
      cases hfound : h.present with
      | true =>
        exact ⟨by rw [hdll', hdll, hfound], by simp [unchecked], c', hc', fun h => (by cases h), fun _ => hclean⟩
      | false =>
        exact ⟨by rw [hdll', hdll, hfound], by simp [unchecked, hfs'], c', hc', fun h => (by cases h),
          fun _ => hclean⟩

theorem run_tracks : ∀ {events : List DllEvent} {h : History} {fs : List FunctionDesc} {p p' : OcamlProcess}
    {seen : List DllSeen}, Tracks id h fs p → (dllMachine vm id).run events p = .ok (seen, p') →
      Tracks id (events.foldl History.next h) (unchecked fs (events.zip seen)) p'
  | [], _, _, _, _, _, ht, hr => by cases hr; exact ht
  | e :: events, h, fs, p, p', seen, ht, hr => by
    obtain ⟨o, p₁, os, hs, hrest, rfl⟩ := Machine.run_cons_inv hr
    rw [List.zip_cons_cons, unchecked_cons]
    exact run_tracks (step_tracks ht hs) hrest

/-- The next script is refused where it has to be, if no look was missed. -/
theorem refuses_iff {h : History} {fs : List FunctionDesc} (string : Bytes) (ht : Tracks id h fs p) :
    (fs ≠ [] → p.dll = none → Refuses vm id string p) ↔ ¬ (h.phase = .missed ∧ h.present = false) := by
  obtain ⟨hdll, hfs, c, hc, hreg, hmissed⟩ := ht
  constructor
  · rintro hrefuses ⟨hphase, hpresent⟩
    have hnone : p.dll = none := by
      rw [hpresent] at hdll
      simpa using hdll
    have hne : fs ≠ [] := by
      intro hnil
      rw [hfs.mp hnil] at hphase
      cases hphase
    obtain ⟨check, p', hrun⟩ := hrefuses hne hnone
    rw [executeSeen_goes hc (checkFakeDLL_clean hc (hmissed hphase))] at hrun
    cases hcompile : compileAndRun vm string p with
    | error f => rw [hcompile] at hrun; cases hrun
    | ok r => rw [hcompile] at hrun; cases hrun
  · intro hnot hne hnone
    have hpresent : h.present = false := by rw [← hdll, hnone]; rfl
    cases hphase : h.phase with
    | checked => exact absurd (hfs.mpr hphase) hne
    | missed => exact absurd ⟨hphase, hpresent⟩ hnot
    | registered =>
      have hcheck := checkFakeDLL_dirty hc (hreg hphase)
      rw [hnone] at hcheck
      exact ⟨_, _, executeSeen_ends_call hc hcheck⟩

/-- A context that has just been created, and been given a logger or not. -/
def JustCreated (id : Nat) (p : OcamlProcess) : Prop :=
  ∃ p₀ logger, (createContext id >>= fun _ => setLogger id logger) p₀ = .ok ((), p)

theorem JustCreated.empty (h : JustCreated id p) : p.rt.cFunctions = [] ∧ ∃ c, p.contexts id = some c := by
  obtain ⟨p₀, logger, h⟩ := h
  obtain ⟨u, p₁, h₁, h₂⟩ := bind_ok_inv h
  cases h₁
  have hc : (Function.update p₀.contexts id (some
      { functions := [], dirtyFakedDLL := true, logger := none, logged := [] })) id = some _ :=
        Function.update_self _ _ _
  rw [setLogger, bind_ok (context_ok hc)] at h₂
  cases h₂
  exact ⟨rfl, _, Function.update_self _ _ _⟩

theorem JustCreated.tracks (h : JustCreated id p) : Tracks id (.start p.dll) [] p := by
  obtain ⟨-, c, hc⟩ := h.empty
  refine ⟨rfl, by simp [History.start], c, hc, fun hphase => ?_, fun hphase => ?_⟩
  · cases hphase
  · cases hphase

end Ocaml

/-- **The missing DLL.** After any history of a context the next script is refused, where the
file is not there and functions were registered since it was last found, exactly if a look for
the file was made for them: unless the first script after the registration found it missing
already. -/
theorem missing_dll_refused_iff (vm : Ocaml.OcamlVm) (id : Nat) (events : List Ocaml.DllEvent) (string : Bytes)
    (p p' : Ocaml.OcamlProcess) (seen : List Ocaml.DllSeen) (hcreated : Ocaml.JustCreated id p)
    (hrun : (Ocaml.dllMachine vm id).run events p = .ok (seen, p')) :
    (Ocaml.unchecked [] (events.zip seen) ≠ [] → p'.dll = none → Ocaml.Refuses vm id string p') ↔
      ¬ ((events.foldl Ocaml.History.next (.start p.dll)).phase = .missed ∧
        (events.foldl Ocaml.History.next (.start p.dll)).present = false) :=
  Ocaml.refuses_iff string (Ocaml.run_tracks hcreated.tracks hrun)

/-- A function of one parameter. -/
def Ocaml.external : FunctionDesc := { addr := 0, name := cstr "f", function := 7, numParams := 1 }

/-- The process with one context, and no file. -/
def Ocaml.noDLL : Ocaml.OcamlProcess :=
  { Ocaml.OcamlProcess.initial none with
    rt := Ocaml.customCamlInit .initial
    contexts := Function.update (fun _ => none) 0
      (some { functions := [], dirtyFakedDLL := true, logger := none, logged := [] })
    current := some 0 }

theorem Ocaml.noDLL_justCreated : Ocaml.JustCreated 0 Ocaml.noDLL := by
  refine ⟨.initial none, none, ?_⟩
  have hset : (Ocaml.createContext 0 >>= fun _ => Ocaml.setLogger 0 none) (.initial none) = .ok ((), { Ocaml.noDLL with
      contexts := Function.update Ocaml.noDLL.contexts 0
        (some { functions := [], dirtyFakedDLL := true, logger := none, logged := [] }) }) := rfl
  rw [hset]
  simp [Ocaml.noDLL]

/-- A function is registered, and the first script is refused. -/
theorem missing_dll_refused_first : ∃ seen p',
    (Ocaml.dllMachine (.printing []) 0).run [.registerFunction Ocaml.external] Ocaml.noDLL = .ok (seen, p') ∧
    Ocaml.Refuses (.printing []) 0 (cstr "let _ = f 1") p' := by
  refine ⟨_, _, rfl, ?_⟩
  have hiff := missing_dll_refused_iff (.printing []) 0 [.registerFunction Ocaml.external] (cstr "let _ = f 1") _ _ _
    Ocaml.noDLL_justCreated rfl
  exact hiff.mpr (by decide) (by decide) rfl

/-- The second is compiled and run. -/
theorem missing_dll_compiled : ∃ seen p', (Ocaml.dllMachine (.printing []) 0).run
      [.registerFunction Ocaml.external, .executeString (cstr "let _ = f 1")] Ocaml.noDLL = .ok (seen, p') ∧
    Ocaml.unchecked [] ([.registerFunction Ocaml.external, .executeString (cstr "let _ = f 1")].zip seen) =
      [Ocaml.external] ∧
    p'.dll = none ∧ ¬ Ocaml.Refuses (.printing []) 0 (cstr "let _ = f 1") p' ∧
    ∃ p'', Ocaml.executeSeen (.printing []) 0 (cstr "let _ = f 1") p' = .ok (.executed none true true, p'') := by
  refine ⟨_, _, rfl, rfl, rfl, ?_, _, rfl⟩
  rintro ⟨check, p'', h⟩
  cases h

end MultiScript
