/-
The units of OCaml code that a process executes, and the tables the interpreter
works with while it runs them. `GETGLOBAL` and `C_CALL` index the current tables
with numbers that mean something in one unit only, so a unit must find its own:
it does exactly when it is the one that was loaded last.
-/
import MultiScript.Ocaml.Startup
import MultiScript.Lib.Run

namespace MultiScript.Ocaml

open Run

/-- The runtime, and the blocks of code that are being interpreted, innermost
first. -/
structure Running where
  rt : CamlRuntime
  frames : List Nat

/-- What happens to units: by the host, in a registered function too, or by the
unit that is running. -/
inductive UnitEvent
  /-- `ExecuteString`, up to the first instruction of the unit. -/
  | executeString (file : Bytecode)
  /-- `EndCall` of the closure that `BeginCall` has found under the name. -/
  | endCall (name : Bytes)
  /-- The running unit registers a closure of its own by name. -/
  | register (name : Bytes) (entry : Nat)
  | registerFunction (f : CFunction)
  /-- The innermost run ends. -/
  | finish
deriving DecidableEq, Repr

variable (builtins : List Bytes)

/-- An event, or `()` where it does not happen or does not succeed. -/
def unitStep : UnitEvent → Running → Except Unit (Unit × Running)
  | .executeString file, s =>
    match customCamlLoadCode builtins file s.rt with
    | some (code, rt) => .ok ((), { rt := customCamlRunCode code rt, frames := code.startCode :: s.frames })
    | none => .error ()
  | .endCall name, s =>
    match s.rt.named name with
    | some closure => .ok ((), { s with frames := closure.code :: s.frames })
    | none => .error ()
  | .register name entry, s =>
    match s.frames with
    | code :: _ => .ok ((), { s with rt := camlRegisterNamedValue name { code, entry } s.rt })
    | [] => .error ()
  | .registerFunction f, s => .ok ((), { s with rt := customCamlRegisterCFunction f s.rt })
  | .finish, s =>
    match s.frames with
    | _ :: frames => .ok ((), { s with frames })
    | [] => .error ()

def units : Machine Running UnitEvent Unit Unit := ⟨unitStep builtins⟩

def Running.start : Running := { rt := customCamlInit .initial, frames := [] }

/-- The tables built when `code` was loaded. -/
def CamlRuntime.built (rt : CamlRuntime) (code : Nat) : Option Tables := rt.loaded[code]?.map (·.2)

/-- The code that is being interpreted has its own tables. -/
def OwnTables (s : Running) : Prop := ∀ code ∈ s.frames.head?, s.rt.built code = some s.rt.tables

/-- The code that is being interpreted was loaded last. -/
def LoadedLast (s : Running) : Prop := ∀ code ∈ s.frames.head?, code = s.rt.startCode

/-- A closure is called only if the unit loaded last registered it, and a run ends
only into that unit, or into no unit. -/
def ReturnsToLast : UnitEvent → Running → Prop
  | .endCall name, s => ∀ c ∈ s.rt.named name, c.code = s.rt.startCode
  | .finish, s => LoadedLast { s with frames := s.frames.tail }
  | _, _ => True

/-! ## The runtime's tables -/

/-- Every unit's globals are a block of their own, what is interpreted or
registered has been loaded, and the current tables are those of the unit loaded
last. -/
structure Consistent (s : Running) : Prop where
  globals : ∀ i t, s.rt.built i = some t → t.globalData = i
  frames : ∀ code ∈ s.frames, code < s.rt.loaded.length
  named : ∀ name c, s.rt.named name = some c → c.code < s.rt.loaded.length
  current : s.rt.loaded ≠ [] → s.rt.built s.rt.startCode = some s.rt.tables

variable {builtins} {s s' : Running} {e : UnitEvent}

theorem start_consistent : Consistent .start where
  globals i t h := by simp [Running.start, CamlRuntime.built, customCamlInit, CamlRuntime.initial] at h
  frames code h := by simp [Running.start] at h
  named name c h := by simp [Running.start, customCamlInit, CamlRuntime.initial] at h
  current h := absurd rfl h

theorem built_append (rt : CamlRuntime) (file : Bytecode) (t : Tables) (i : Nat) :
    { rt with loaded := rt.loaded ++ [(file, t)] }.built i
      = if i = rt.loaded.length then some t else rt.built i := by
  by_cases hi : i = rt.loaded.length
  · simp [CamlRuntime.built, hi]
  · by_cases hlt : i < rt.loaded.length
    · simp [CamlRuntime.built, hi, List.getElem?_append_left hlt]
    · have hge : rt.loaded.length ≤ i := by omega
      have hlen : (rt.loaded ++ [(file, t)]).length ≤ i := by rw [List.length_append, List.length_singleton]; omega
      simp only [CamlRuntime.built, if_neg hi, List.getElem?_eq_none hlen, List.getElem?_eq_none hge]

theorem executeString_consistent {file : Bytecode} {code : CamlCode} {rt : CamlRuntime} (hI : Consistent s)
    (hl : customCamlLoadCode builtins file s.rt = some (code, rt)) :
    Consistent { rt := customCamlRunCode code rt, frames := code.startCode :: s.frames } := by
  obtain ⟨hstart, hglobals, hrt⟩ := customCamlLoadCode_some hl
  have hlen : (customCamlRunCode code rt).loaded.length = s.rt.loaded.length + 1 := by
    simp [customCamlRunCode, hrt]
  have hbuilt : ∀ i, (customCamlRunCode code rt).built i
      = if i = s.rt.loaded.length then some code.tables else s.rt.built i := by
    intro i
    rw [← built_append s.rt file code.tables i]
    simp [customCamlRunCode, hrt, CamlRuntime.built]
  refine ⟨?_, ?_, ?_, ?_⟩
  · intro i t h
    rw [hbuilt] at h
    split at h
    · rename_i hi
      cases h
      exact hglobals.trans hi.symm
    · exact hI.globals i t h
  · intro c hc
    rw [hlen]
    rcases List.mem_cons.mp hc with rfl | hc
    · omega
    · have := hI.frames c hc
      omega
  · intro name c h
    have hn : s.rt.named name = some c := by simpa [customCamlRunCode, hrt] using h
    have := hI.named name c hn
    rw [hlen]
    omega
  · intro _
    rw [hbuilt]
    simp [customCamlRunCode, hstart]

theorem register_consistent {name : Bytes} {entry code : Nat} {rest : List Nat} (hI : Consistent s)
    (hf : s.frames = code :: rest) :
    Consistent { s with rt := camlRegisterNamedValue name { code, entry } s.rt } where
  globals := hI.globals
  frames := hI.frames
  named n c h := by
    by_cases hn : n = name
    · subst hn
      have hc : { code, entry } = c := by simpa [camlRegisterNamedValue] using h
      subst hc
      exact hI.frames code (by simp [hf])
    · have hc : s.rt.named n = some c := by
        simpa [camlRegisterNamedValue, Function.update_of_ne hn] using h
      exact hI.named n c hc
  current := hI.current

theorem unitStep_consistent {o : Unit} (hI : Consistent s) (hs : unitStep builtins e s = .ok (o, s')) :
    Consistent s' := by
  cases e with
  | executeString file =>
    cases hl : customCamlLoadCode builtins file s.rt with
    | none => simp [unitStep, hl] at hs
    | some r =>
      simp only [unitStep, hl] at hs
      cases hs
      exact executeString_consistent hI hl
  | endCall name =>
    cases hn : s.rt.named name with
    | none => simp [unitStep, hn] at hs
    | some c =>
      simp only [unitStep, hn] at hs
      cases hs
      refine ⟨hI.globals, ?_, hI.named, hI.current⟩
      intro code hc
      rcases List.mem_cons.mp hc with rfl | hc
      · exact hI.named name c hn
      · exact hI.frames code hc
  | register name entry =>
    cases hf : s.frames with
    | nil => simp [unitStep, hf] at hs
    | cons code rest =>
      simp only [unitStep, hf] at hs
      cases hs
      exact hf ▸ register_consistent hI hf
  | registerFunction f =>
    cases hs
    exact ⟨hI.globals, hI.frames, hI.named, hI.current⟩
  | finish =>
    cases hf : s.frames with
    | nil => simp [unitStep, hf] at hs
    | cons code rest =>
      simp only [unitStep, hf] at hs
      cases hs
      refine ⟨hI.globals, ?_, hI.named, hI.current⟩
      intro c hc
      exact hI.frames c (by simp [hf, hc])

/-- With globals of its own for each unit, only the unit loaded last finds its
tables. -/
theorem ownTables_iff (hI : Consistent s) : OwnTables s ↔ LoadedLast s := by
  refine forall₂_congr fun code hc => ?_
  have hlt : code < s.rt.loaded.length := hI.frames code (List.mem_of_mem_head? hc)
  have hcur := hI.current (by intro h; simp [h] at hlt)
  constructor
  · intro h
    have h1 := hI.globals _ _ h
    have h2 := hI.globals _ _ hcur
    omega
  · intro h
    rw [h]
    exact hcur

/-- An event after which the condition holds leads to the unit loaded last. -/
theorem unitStep_loadedLast {o : Unit} (hL : LoadedLast s) (hP : ReturnsToLast e s)
    (hs : unitStep builtins e s = .ok (o, s')) : LoadedLast s' := by
  cases e with
  | executeString file =>
    cases hl : customCamlLoadCode builtins file s.rt with
    | none => simp [unitStep, hl] at hs
    | some r =>
      simp only [unitStep, hl] at hs
      cases hs
      intro code hc
      cases hc
      rfl
  | endCall name =>
    cases hn : s.rt.named name with
    | none => simp [unitStep, hn] at hs
    | some c =>
      simp only [unitStep, hn] at hs
      cases hs
      intro code hc
      cases hc
      exact hP c hn
  | register name entry =>
    cases hf : s.frames with
    | nil => simp [unitStep, hf] at hs
    | cons code rest =>
      simp only [unitStep, hf] at hs
      cases hs
      exact fun c hc => hL c (by simpa [hf] using hc)
  | registerFunction f =>
    cases hs
    exact hL
  | finish =>
    cases hf : s.frames with
    | nil => simp [unitStep, hf] at hs
    | cons code rest =>
      simp only [unitStep, hf] at hs
      cases hs
      exact fun c hc => hP c (by simpa [hf] using hc)

/-- **Tables of units.** In every run, and every state of it, the code that is
being interpreted has its own globals and primitives exactly when it belongs to
the unit that was loaded last; and so it is in every state of a run that calls
closures of that unit only and returns to that unit only. -/
theorem unit_tables (builtins : List Bytes) :
    (∀ es os s, (units builtins).run es .start = .ok (os, s) → (OwnTables s ↔ LoadedLast s)) ∧
    (∀ es os s, (units builtins).Meets ReturnsToLast es .start →
      (units builtins).run es .start = .ok (os, s) → OwnTables s) := by
  have hcons : ∀ es os s, (units builtins).run es .start = .ok (os, s) → Consistent s := by
    intro es os s hr
    have hstep : ∀ e s o s', Consistent s → True → (units builtins).step e s = .ok (o, s') → Consistent s' :=
      fun _ _ _ _ hI _ hs => unitStep_consistent hI hs
    exact Machine.run_inv hstep start_consistent (Machine.meets_true _ _ _) hr
  refine ⟨fun es os s hr => ownTables_iff (hcons es os s hr), ?_⟩
  intro es os s hm hr
  have hstep : ∀ e s o s', LoadedLast s → ReturnsToLast e s → (units builtins).step e s = .ok (o, s') →
      LoadedLast s' := fun _ _ _ _ hL hP hs => unitStep_loadedLast hL hP hs
  have hstart : LoadedLast .start := fun _ h => (nomatch h)
  exact (ownTables_iff (hcons es os s hr)).mpr (Machine.run_inv hstep hstart hm hr)

/-- A closure of the first unit, called after the second has run, finds the
second's globals. -/
theorem unit_tables_lost :
    let file : Bytecode := { content := 0, reqPrims := [] }
    let es : List UnitEvent := [.executeString file, .register (cstr "f") 4, .finish, .executeString file, .finish,
      .endCall (cstr "f")]
    ∃ os s, (units []).run es .start = .ok (os, s) ∧ s.frames = [0] ∧ s.rt.tables.globalData = 1 ∧
      ¬ OwnTables s := by
  refine ⟨_, _, rfl, rfl, rfl, fun h => ?_⟩
  have h0 := h 0 rfl
  cases h0

theorem unit_tables_once :
    let file : Bytecode := { content := 0, reqPrims := [] }
    let es : List UnitEvent := [.executeString file, .register (cstr "f") 4, .finish, .endCall (cstr "f")]
    ∃ os s, (units []).run es .start = .ok (os, s) ∧ s.frames = [0] ∧ OwnTables s := by
  intro file es
  have hm : (units []).Meets ReturnsToLast es .start := by
    refine ⟨trivial, fun _ _ h => ⟨trivial, fun _ _ h' => ⟨?_, fun _ _ h'' => ⟨?_, fun _ _ _ => trivial⟩⟩⟩⟩
    all_goals cases h; cases h'
    · exact fun _ hc => (nomatch hc)
    · cases h''
      intro c hc
      cases hc
      rfl
  exact ⟨_, _, rfl, rfl, (unit_tables []).2 es _ _ hm rfl⟩

end MultiScript.Ocaml
