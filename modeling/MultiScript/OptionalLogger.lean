/-
A context without a logger beside one that has one: what the host is answered, and what is
left in the VM. The print hooks ask for the logger before they use it. Where errors are
reported nobody asks, and in the hooks that format a text only a context with a logger has
a buffer to overrun.
-/
import MultiScript.Isolation
import MultiScript.Printing
import MultiScript.DllCheck
import MultiScript.Lib.Alike

namespace MultiScript

open Act Run Contexts

/-! ## Sessions -/

/-- What a host does with a context it has set up. -/
inductive CallEvent
  | executeString (string : Bytes)
  | begin (name : Bytes)
  | push (h : Nat) (p : Push)
  | endCall (h : Nat)
  | pop (h : Nat) (p : Pop)
  | release (h : Nat)
deriving DecidableEq, Repr

def CallEvent.toContextEvent : CallEvent → ContextEvent
  | .executeString string => .executeString string
  | .begin name => .begin name
  | .push h p => .push h p
  | .endCall h => .endCall h
  | .pop h p => .pop h p
  | .release h => .release h

/-- A context, and the handles that the host has on it. -/
structure Session (C H : Type) where
  c : C
  handles : HandleTable H

/-- What an operation of a backend does to a context. -/
abbrev Operations (C H : Type) := Op H → C → Except Fault ((Result × Option H) × C)

variable {C H : Type}

def Session.step (run : Operations C H) (e : CallEvent) (x : Session C H) : Except Fault (Result × Session C H) :=
  match x.handles.resolve e.toContextEvent with
  | none => .error .wildDeref
  | some op => (run op x.c).map fun r => (r.1.1, { c := r.2, handles := x.handles.store r.1.2 e.toContextEvent })

def session (run : Operations C H) : Machine (Session C H) CallEvent Result Fault := ⟨Session.step run⟩

/-- The host's first handle comes with the first call. -/
def Session.start (c : C) : Session C H := { c, handles := { next := 0, handle := fun _ => none } }

/-- Related contexts, and the same handles on them. -/
def Session.Rel (R : C → C → Prop) (x y : Session C H) : Prop := R x.c y.c ∧ x.handles = y.handles

/-- The condition on the operation that an event stands for. -/
def OnContext (P : Op H → C → Prop) (e : CallEvent) (x : Session C H) : Prop :=
  ∀ op, x.handles.resolve e.toContextEvent = some op → P op x.c

variable {run : Operations C H} {R : C → C → Prop} {P : Op H → C → Prop}

theorem session_step_alike (hrun : ∀ op c d, R c d → P op c → Alike R (run op) c d) {e : CallEvent} {x y : Session C H}
    (hR : Session.Rel R x y) (hP : OnContext P e x) : Alike (Session.Rel R) ((session run).step e) x y := by
  obtain ⟨hc, hh⟩ := hR
  cases hx : x.handles.resolve e.toContextEvent with
  | none =>
    have hs : Session.step run e x = .error .wildDeref := by simp only [Session.step, hx]
    have ht : Session.step run e y = .error .wildDeref := by simp only [Session.step, ← hh, hx]
    exact .of_error hs ht
  | some op =>
    have hs : Session.step run e x = (run op x.c).map fun r =>
        (r.1.1, { c := r.2, handles := x.handles.store r.1.2 e.toContextEvent }) := by simp only [Session.step, hx]
    have ht : Session.step run e y = (run op y.c).map fun r =>
        (r.1.1, { c := r.2, handles := x.handles.store r.1.2 e.toContextEvent }) :=
          by simp only [Session.step, ← hh, hx]
    rcases (hrun op x.c y.c hc (hP op hx)).cases with ⟨a, c', d', hrc, hrd, hR'⟩ | ⟨f, hrc, hrd⟩
    · rw [hrc] at hs
      rw [hrd] at ht
      exact .of_ok hs ht ⟨hR', rfl⟩
    · rw [hrc] at hs
      rw [hrd] at ht
      exact .of_error hs ht

theorem session_run_alike (hrun : ∀ op c d, R c d → P op c → Alike R (run op) c d) {es : List CallEvent}
    {x y : Session C H}
    (hR : Session.Rel R x y) (hm : (session run).Meets (OnContext P) es x) :
    Alike (Session.Rel R) ((session run).run es) x y :=
  Machine.run_alike (fun _ _ _ hxy hP => session_step_alike hrun hxy hP) hR hm

/-- What an operation of a backend does, before the handles are looked at. -/
def OpAlike {F V : Type} (b : ContextBackend C H F V) (R : C → C → Prop) (c d : C) : Op H → Prop
  | .executeString string => Alike R (b.executeString string) c d
  | .begin name => Alike R (b.beginCall name) c d
  | .push st p => Alike R (b.push st p) c d
  | .endCall st => Alike R (b.endCall st) c d
  | .pop st p => Alike R (b.pop st p) c d
  | .release st => Alike R (b.releaseAfterCall st) c d
  | _ => False

theorem run_alike {F V : Type} {b : ContextBackend C H F V} {c d : C} {op : Op H} (h : OpAlike b R c d op) :
    Alike R (b.run op) c d := by
  have hmap : ∀ {α : Type} (m : C → Except Fault (α × C)) (f : α → Result × Option H), Alike R m c d →
      Alike R (fun c => (m c).map fun r => (f r.1, r.2)) c d := by
    intro α m f hm
    rcases hm.cases with ⟨a, c', d', hc, hd, hR⟩ | ⟨g, hc, hd⟩
    · exact .of_ok (by simp only [hc]; rfl) (by simp only [hd]; rfl) hR
    · exact .of_error (by simp only [hc]; rfl) (by simp only [hd]; rfl)
  cases op with
  | create => exact h.elim
  | setLogger logger => exact h.elim
  | registerFunction desc => exact h.elim
  | executeString string => exact hmap (b.executeString string) (fun ok => (.answered ok, none)) h
  | begin name => exact hmap (b.beginCall name) (fun st => (.answered st.isSome, st)) h
  | push st p => exact hmap (b.push st p) (fun r => (.answered r.1, some r.2)) h
  | endCall st => exact hmap (b.endCall st) (fun r => (.answered r.1, some r.2)) h
  | pop st p => exact hmap (b.pop st p) (fun r => (.popped r.1, some r.2)) h
  | release st => exact hmap (b.releaseAfterCall st) (fun _ => (.done, none)) h

/-! ## Output -/

/-- What is output while a script runs: a text that goes through the print hook, or the line
of an `ExecuteString` or `EndCall` that failed in a host function. -/
inductive Output
  | print (text : Bytes)
  | report (line : LogCall)
deriving DecidableEq, Repr

def Output.line : Output → LogCall
  | .print text => { text }
  | .report line => line

/-- Where the outputs stop the host: a text that the buffer of the hook does not hold, which
the hook only uses where there is a logger; or a line, where there is none. -/
def Output.stop (fits : Bytes → Bool) (logger : Option Nat) : List Output → Option Fault
  | [] => none
  | .print text :: os => if logger.isSome && !fits text then some .bufferOverrun else stop fits logger os
  | .report _ :: os => if logger.isSome then stop fits logger os else some .nullDeref

/-- A print that fits the buffer. -/
def Output.Clear (fits : Bytes → Bool) : Output → Prop
  | .print text => fits text = true
  | .report _ => False

instance (fits : Bytes → Bool) : DecidablePred (Output.Clear fits)
  | .print text => inferInstanceAs (Decidable (fits text = true))
  | .report _ => inferInstanceAs (Decidable False)

theorem Output.stop_clear {fits : Bytes → Bool} (logger : Option Nat) :
    ∀ {os : List Output}, (∀ o ∈ os, o.Clear fits) → Output.stop fits logger os = none
  | [], _ => rfl
  | .print text :: os, h => by
    have hfits : fits text = true := h _ List.mem_cons_self
    have hrest := stop_clear logger fun o ho => h o (List.mem_cons_of_mem _ ho)
    simp [Output.stop, hfits, hrest]
  | .report line :: _, h => (h _ List.mem_cons_self).elim

/-- The operations of a backend, with what is output in them. -/
def withOutputs (fits : Bytes → Bool) (logger : C → Option Nat) (outputs : Op H → C → List Output)
    (run : Operations C H) :
    Operations C H :=
  fun op c =>
    match Output.stop fits (logger c) (outputs op c) with
    | some f => .error f
    | none => run op c

theorem withOutputs_alike {fits : Bytes → Bool} {logger : C → Option Nat} {outputs : Op H → C → List Output} {op : Op H}
    {c d : C} (h : Output.stop fits (logger c) (outputs op c) = Output.stop fits (logger d) (outputs op d))
    (hrun : Alike R (run op) c d) : Alike R (withOutputs fits logger outputs run op) c d := by
  cases hstop : Output.stop fits (logger c) (outputs op c) with
  | some f =>
    have hs : withOutputs fits logger outputs run op c = .error f := by simp only [withOutputs, hstop]
    have ht : withOutputs fits logger outputs run op d = .error f := by simp only [withOutputs, ← h, hstop]
    exact .of_error hs ht
  | none =>
    have hs : withOutputs fits logger outputs run op c = run op c := by simp only [withOutputs, hstop]
    have ht : withOutputs fits logger outputs run op d = run op d := by simp only [withOutputs, ← h, hstop]
    unfold Alike
    rw [hs, ht]
    exact hrun

/-! ## Interpreters that know nothing of the logger -/

/-- A state that a logger and what it was given are a part of. -/
class Logging (W : Type) where
  log : W → Option Nat × List LogCall
  setLog : W → Option Nat × List LogCall → W
  log_setLog (w : W) (l : Option Nat × List LogCall) : log (setLog w l) = l
  setLog_setLog (w : W) (l l' : Option Nat × List LogCall) : setLog (setLog w l) l' = setLog w l'

open Logging

variable {W α : Type} [Logging W]

/-- The state without the logger. -/
def silent (w : W) : W := setLog w (none, [])

/-- What a logger is given of the outputs. -/
def heard (logger : Option Nat) (os : List Output) : List LogCall := if logger.isSome then os.map Output.line else []

/-- A script runs on the state without the logger, which is given the outputs. -/
def hooked (script : W → (α × List Output) × W) (w : W) : α × W :=
  let r := script (silent w)
  (r.1.1, setLog r.2 ((log w).1, (log w).2 ++ heard (log w).1 r.1.2))

theorem silent_setLog (w : W) (l : Option Nat × List LogCall) : silent (setLog w l) = silent w := setLog_setLog w l _

/-- A script leaves the logger where it is. -/
theorem hooked_isSome (script : W → (α × List Output) × W) {w : W} (h : (log w).1.isSome = true) :
    (log (hooked script w).2).1.isSome = true := by
  simp only [hooked, log_setLog, h]

/-- Without the logger a script runs the same. -/
theorem hooked_without (script : W → (α × List Output) × W) (w : W) (logged : List LogCall) :
    hooked script (setLog w (none, logged)) = ((hooked script w).1, setLog (hooked script w).2 (none, logged)) := by
  simp [hooked, silent_setLog, log_setLog, setLog_setLog, heard]

/-! ## Lua -/

namespace Lua

instance : Logging LuaWorld where
  log w := (w.logger, w.logged)
  setLog w l := { w with logger := l.1, logged := l.2 }
  log_setLog _ _ := rfl
  setLog_setLog _ _ _ := rfl

/-- The VM with the host functions, as it is without the logger. -/
structure LuaInterpreter where
  str2d : Bytes → Option FloatValue
  number2str : FloatValue → Bytes
  load : Bytes → LuaWorld → ((Option LuaError × LuaValue) × List Output) × LuaWorld
  call : LuaValue → List LuaValue → LuaWorld → (LuaOutcome × List Output) × LuaWorld
  index : LuaValue → LuaValue → LuaWorld → (Option LuaValue × List Output) × LuaWorld
  newindex : LuaValue → LuaValue → LuaValue → LuaWorld → (Bool × List Output) × LuaWorld

def LuaInterpreter.vm (i : LuaInterpreter) : LuaVm where
  str2d := i.str2d
  number2str := i.number2str
  load s w := ((hooked (i.load s) w).1.1, (hooked (i.load s) w).1.2, (hooked (i.load s) w).2)
  call f args := hooked (i.call f args)
  index t k := hooked (i.index t k)
  newindex t k v := hooked (i.newindex t k v)

variable (i : LuaInterpreter)

/-- What is output in an operation: by a script and its call, by the metamethods of the
globals, by a function. -/
def outputs : Op LuaScriptStack → LuaScriptContext → List Output
  | .executeString string, c =>
    let r := i.load string (silent c.world)
    r.1.2 ++ (i.call r.1.1.2 [] (silent r.2)).1.2
  | .begin name, c =>
    let h := c.world.heap
    if c.slots = [] ∧ (h.table h.globals).slot (.string name) = .nil ∧
      h.metamethod h.globals (cstr "__index") ≠ .nil then
      (i.index (.table h.globals) (.string name) (silent c.world)).1.2
    else []
  | .endCall st, c =>
    match c.slots.drop st.numPushed with
    | [] => []
    | f :: _ => if st.isCall then (i.call f (c.slots.take st.numPushed).reverse (silent c.world)).1.2 else []
  | _, _ => []

/-- `LuaPrintCallback` has no buffer. -/
def operations (heap : LuaHeap) : Operations LuaScriptContext LuaScriptStack :=
  withOutputs (fun _ => true) (·.world.logger) (outputs i) (contextBackend i.vm heap).run

/-- The value under the arguments is called, and returns. -/
def Returns (n : Nat) (c : LuaScriptContext) : Prop :=
  ∀ f rest, c.slots.drop n = f :: rest → ∃ results w, i.vm.call f (c.slots.take n).reverse c.world =
    (.returned results, w)

/-- What is called does not raise: what a load pushed, the chunk or the message, or the
function of a handle. And no host function reports an error. -/
def Raiseless : Op LuaScriptStack → LuaScriptContext → Prop
  | .executeString string, c => (∀ o ∈ outputs i (.executeString string) c, o.Clear fun _ => true) ∧
      ∀ status v w, i.vm.load string c.world = (status, v, w) → Returns i 0 { c with world := w, slots := v :: c.slots }
  | .begin name, c => ∀ o ∈ outputs i (.begin name) c, o.Clear fun _ => true
  | .push _ _, _ => True
  | .endCall st, c => (∀ o ∈ outputs i (.endCall st) c, o.Clear fun _ => true) ∧ Returns i st.numPushed c
  | .pop _ _, _ => True
  | .release _, _ => True
  | _, _ => False

/-- `d` is `c` without the logger that `c` has. -/
def Unlogged (c d : LuaScriptContext) : Prop :=
  c.world.logger.isSome = true ∧ ∃ logged, d = { c with world := setLog c.world (none, logged) }

variable {i} {c d : LuaScriptContext}

theorem Unlogged.slots (h : Unlogged c d) : d.slots = c.slots := by
  obtain ⟨-, logged, rfl⟩ := h
  rfl

theorem Unlogged.at (h : Unlogged c d) (idx : Int) : d.at idx = c.at idx := by
  obtain ⟨-, logged, rfl⟩ := h
  rfl

theorem Unlogged.heap (h : Unlogged c d) : d.world.heap = c.world.heap := by
  obtain ⟨-, logged, rfl⟩ := h
  rfl

theorem Unlogged.set (h : Unlogged c d) (slots : List LuaValue) :
    Unlogged { c with slots } { d with slots } := by
  obtain ⟨hl, logged, rfl⟩ := h
  exact ⟨hl, logged, rfl⟩

/-- A script answers the same in the two contexts. -/
theorem Unlogged.script {α : Type} (h : Unlogged c d) (script : LuaWorld → (α × List Output) × LuaWorld) :
    ∃ a w w', hooked script c.world = (a, w) ∧ hooked script d.world = (a, w') ∧
      ∀ slots, Unlogged { c with world := w, slots } { d with world := w', slots } := by
  obtain ⟨hl, logged, rfl⟩ := h
  exact ⟨_, _, _, rfl, hooked_without script c.world logged, fun slots => ⟨hooked_isSome script hl, logged, rfl⟩⟩

theorem luaGettop_alike (h : Unlogged c d) : Alike Unlogged luaGettop c d :=
  .of_ok rfl (by rw [← h.slots]; rfl) h

theorem luaPop_alike (h : Unlogged c d) (n : Nat) : Alike Unlogged (luaPop n) c d := by
  unfold Alike luaPop
  rw [h.slots]
  by_cases hn : n ≤ c.slots.length
  · rw [if_pos hn, if_pos hn]
    exact ⟨rfl, h.set _⟩
  · rw [if_neg hn, if_neg hn]

theorem luaAssert_alike (h : Unlogged c d) (cond : Bool) (text : String) :
    Alike Unlogged (luaAssert cond text) c d := by
  cases cond with
  | true => exact .of_ok rfl rfl h
  | false => exact .of_error rfl rfl

theorem luaTolstring_alike (vm : LuaVm) (h : Unlogged c d) (idx : Int) : Alike Unlogged (luaTolstring vm idx) c d := by
  have hdepth : d.depth idx = c.depth idx := by simp only [LuaScriptContext.depth, h.slots]
  unfold Alike luaTolstring
  rw [h.at, hdepth, h.slots]
  cases c.at idx with
  | number n => exact ⟨rfl, h.set _⟩
  | _ => exact ⟨rfl, h⟩

theorem luaPcall_alike (h : Unlogged c d) (n : Nat) : Alike Unlogged (luaPcall i.vm n) c d := by
  unfold Alike luaPcall
  rw [h.slots]
  cases hdrop : c.slots.drop n with
  | nil => rfl
  | cons f rest =>
    obtain ⟨o, w, w', hc, hd, hR⟩ := h.script (i.call f (c.slots.take n).reverse)
    simp only [LuaInterpreter.vm, hc, hd]
    cases o with
    | returned results => exact ⟨rfl, hR _⟩
    | raised status message => exact ⟨rfl, hR _⟩

theorem luaLLoadstring_alike (h : Unlogged c d) (string : Bytes) : Alike Unlogged (luaLLoadstring i.vm string) c d := by
  obtain ⟨o, w, w', hc, hd, hR⟩ := h.script (i.load string)
  have hlc : luaLLoadstring i.vm string c = .ok (o.1, { c with world := w, slots := o.2 :: c.slots }) := by
    simp only [luaLLoadstring, LuaInterpreter.vm, hc]
  have hld : luaLLoadstring i.vm string d = .ok (o.1, { d with world := w', slots := o.2 :: c.slots }) := by
    simp only [luaLLoadstring, LuaInterpreter.vm, hd, h.slots]
  exact .of_ok hlc hld (hR _)

theorem luaGetfield_alike (h : Unlogged c d) (name : Bytes) : Alike Unlogged (luaGetfield i.vm .globals name) c d := by
  unfold Alike luaGetfield
  simp only [index2adr, luaVGettable, luaIndexMeta, h.heap, h.slots]
  generalize c.world.heap.globals = g
  by_cases hraw : (c.world.heap.table g).slot (.string name) ≠ .nil ∨ c.world.heap.metamethod g (cstr "__index") = .nil
  · rw [if_pos hraw, if_pos hraw]
    exact ⟨trivial, h.set _⟩
  · rw [if_neg hraw, if_neg hraw]
    obtain ⟨o, w, w', hc, hd, hR⟩ := h.script (i.index (.table g) (.string name))
    simp only [LuaInterpreter.vm, hc, hd]
    cases o with
    | some v => exact ⟨trivial, hR _⟩
    | none => rfl

/-- What is called returns, and then nothing is reported. -/
theorem luaCall_alike (h : Unlogged c d) {n : Nat} (hr : Returns i n c) : Alike Unlogged (luaCall i.vm n) c d := by
  refine (luaPcall_alike h n).bind fun status c' d' hc hR => ?_
  cases status with
  | none => exact .pure hR
  | some status =>
    unfold luaPcall at hc
    cases hdrop : c.slots.drop n with
    | nil => rw [hdrop] at hc; cases hc
    | cons f rest =>
      obtain ⟨results, w, hcall⟩ := hr f rest hdrop
      simp only [hdrop, hcall] at hc
      cases hc

theorem readLeftover_alike (vm : LuaVm) (h : Unlogged c d) : Alike Unlogged (readLeftover vm) c d := by
  by_cases hs : c.slots = []
  · have hs' : d.slots = [] := h.slots.trans hs
    exact .of_ok (if_pos hs) (if_pos hs') h
  · have hs' : ¬ d.slots = [] := fun he => hs (h.slots.symm.trans he)
    unfold Alike readLeftover
    rw [if_neg hs, if_neg hs']
    rcases (luaTolstring_alike vm h (-1)).cases with ⟨text, c', d', hc, hd, hR⟩ | ⟨f, hc, hd⟩
    · rw [hc, hd]
      cases text with
      | none => rfl
      | some text => exact ⟨rfl, hR⟩
    · rw [hc, hd]

theorem beginCall_alike (h : Unlogged c d) (name : Bytes) : Alike Unlogged (beginCall i.vm name) c d := by
  refine (readLeftover_alike i.vm h).bind fun _ c₁ d₁ _ h₁ => ?_
  refine (luaGettop_alike h₁).bind fun top c₂ d₂ _ h₂ => ?_
  refine (luaAssert_alike h₂ _ _).bind fun _ c₃ d₃ _ h₃ => ?_
  refine (luaGetfield_alike h₃ name).bind fun _ c₄ d₄ _ h₄ => ?_
  refine Alike.bind_get (by rw [h₄.at]) ?_
  split
  · exact Alike.bind (Alike.bind (luaGettop_alike h₄) fun _ _ _ _ h₅ => .pure h₅) fun _ _ _ _ h₆ => .pure h₆
  · exact (luaPop_alike h₄ 1).bind fun _ _ _ _ h₅ => .pure h₅

theorem popInt_alike (vm : LuaVm) (h : Unlogged c d) (st : LuaScriptStack) (value : Int) :
    Alike Unlogged (st.popInt vm value) c d := by
  unfold Alike LuaScriptStack.popInt
  rw [h.at]
  cases vm.tonumber (c.at (-1)) with
  | none => exact ⟨rfl, h⟩
  | some n => exact (luaPop_alike h 1).bind fun _ _ _ _ h₁ => .pure h₁

theorem popScriptObject_alike (h : Unlogged c d) (st : LuaScriptStack) : Alike Unlogged st.popScriptObject c d := by
  unfold Alike LuaScriptStack.popScriptObject
  rw [h.at, h.heap]
  cases c.at (-1) with
  | userdata r =>
    simp only
    cases (c.world.heap.userdata r).block with
    | none => rfl
    | some p => exact (luaPop_alike h 1).bind fun _ _ _ _ h₁ => .pure h₁
  | lightuserdata p => rfl
  | _ => exact ⟨rfl, h⟩

theorem endCall_alike (h : Unlogged c d) (st : LuaScriptStack) (hr : Returns i st.numPushed c) :
    Alike Unlogged (st.endCall i.vm) c d := by
  refine (luaAssert_alike h _ _).bind fun _ c₁ d₁ ha h₁ => ?_
  obtain ⟨-, rfl⟩ := luaAssert_inv ha
  refine (luaCall_alike h₁ hr).bind fun ok c₂ d₂ _ h₂ => ?_
  cases ok with
  | true => exact (luaGettop_alike h₂).bind fun _ _ _ _ h₃ => .pure h₃
  | false => exact .pure h₂

theorem outputs_eq (h : Unlogged c d) (op : Op LuaScriptStack) : outputs i op d = outputs i op c := by
  obtain ⟨-, logged, rfl⟩ := h
  cases op <;> rfl

theorem opAlike {heap : LuaHeap} {op : Op LuaScriptStack} (h : Unlogged c d) (hP : Raiseless i op c) :
    OpAlike (contextBackend i.vm heap) Unlogged c d op := by
  cases op with
  | create => exact hP
  | setLogger logger => exact hP
  | registerFunction desc => exact hP
  | executeString string =>
    refine (luaLLoadstring_alike h string).bind fun status c' d' hl hR => luaCall_alike hR ?_
    cases hl
    exact hP.2 _ _ _ rfl
  | begin name => exact beginCall_alike h name
  | push st p => exact .of_ok (push_ok p) (push_ok p) (by rw [h.slots]; exact h.set _)
  | endCall st => exact endCall_alike h st hP.2
  | pop st p =>
    cases p with
    | int => exact (popInt_alike i.vm h st 0).bind fun _ _ _ _ hR => .pure hR
    | scriptObject => exact (popScriptObject_alike h st).bind fun _ _ _ _ hR => .pure hR
  | release st => exact luaAssert_alike h _ _

/-- The outputs of an operation that does not raise go to the print hook. -/
theorem outputs_clear {op : Op LuaScriptStack} (hP : Raiseless i op c) :
    ∀ o ∈ outputs i op c, o.Clear fun _ => true := by
  cases op with
  | executeString string => exact hP.1
  | begin name => exact hP
  | endCall st => exact hP.1
  | _ => exact fun o ho => (nomatch ho)

theorem operations_alike {heap : LuaHeap} (op : Op LuaScriptStack) (c d : LuaScriptContext) (h : Unlogged c d)
    (hP : Raiseless i op c) : Alike Unlogged (operations i heap op) c d := by
  refine withOutputs_alike ?_ (run_alike (opAlike h hP))
  rw [outputs_eq h, Output.stop_clear _ (outputs_clear hP), Output.stop_clear _ (outputs_clear hP)]

end Lua

/-! ## Squirrel -/

namespace Squirrel

instance : Logging SqWorld where
  log w := (w.logger, w.logged)
  setLog w l := { w with logger := l.1, logged := l.2 }
  log_setLog _ _ := rfl
  setLog_setLog _ _ _ := rfl

/-- The VM with the host functions, as it is without the logger. -/
structure SqInterpreter where
  compile : Bytes → SqWorld → (Option SqValue × List Output) × SqWorld
  call : SqValue → List SqValue → SqWorld → (Option SqValue × List Output) × SqWorld
  get : SqValue → SqValue → SqWorld → (Option SqValue × List Output) × SqWorld

def SqInterpreter.vm (i : SqInterpreter) : SqVm where
  compile s := hooked (i.compile s)
  call f args := hooked (i.call f args)
  get self key := hooked (i.get self key)

variable (i : SqInterpreter)

/-- What is output in an operation: by the compiler and the script, by the delegates of the
root table, by a function. -/
def outputs : Op SquirrelScriptStack → SquirrelScriptContext → List Output
  | .executeString string, c =>
    let r := i.compile string (silent c.world)
    r.1.2 ++ match r.1.1 with
      | none => []
      | some f => (i.call f [.table r.2.heap.roottable] (silent r.2)).1.2
  | .begin name, c => (i.get (.table c.world.heap.roottable) (.string name) (silent c.world)).1.2
  | .endCall st, c =>
    match c.stack.drop (st.numPushed + 1) with
    | [] => []
    | f :: _ => if st.isCall then (i.call f (c.stack.take (st.numPushed + 1)).reverse (silent c.world)).1.2 else []
  | _, _ => []

/-- `vsprintf_s` wants room for the terminator. -/
def fits (text : Bytes) : Bool := text.length < printBufferSize

def operations (heap : SqHeap) : Operations SquirrelScriptContext SquirrelScriptStack :=
  withOutputs fits (·.world.logger) (outputs i) (contextBackend i.vm heap).run

/-- What is printed fits the buffer of `SquirrelPrintCallback`, and no host function reports
an error. -/
def Fitting : Op SquirrelScriptStack → SquirrelScriptContext → Prop
  | .create, _ => False
  | .setLogger _, _ => False
  | .registerFunction _, _ => False
  | op, c => ∀ o ∈ outputs i op c, o.Clear fits

/-- `d` is `c` without the logger that `c` has. -/
def Unlogged (c d : SquirrelScriptContext) : Prop :=
  c.world.logger.isSome = true ∧ ∃ logged, d = { c with world := setLog c.world (none, logged) }

variable {i} {c d : SquirrelScriptContext}

theorem Unlogged.stack (h : Unlogged c d) : d.stack = c.stack := by
  obtain ⟨-, logged, rfl⟩ := h
  rfl

theorem Unlogged.at (h : Unlogged c d) (idx : Int) : d.at idx = c.at idx := by
  obtain ⟨-, logged, rfl⟩ := h
  rfl

theorem Unlogged.heap (h : Unlogged c d) : d.world.heap = c.world.heap := by
  obtain ⟨-, logged, rfl⟩ := h
  rfl

theorem Unlogged.set (h : Unlogged c d) (stack : List SqValue) : Unlogged { c with stack } { d with stack } := by
  obtain ⟨hl, logged, rfl⟩ := h
  exact ⟨hl, logged, rfl⟩

/-- A script answers the same in the two contexts. -/
theorem Unlogged.script {α : Type} (h : Unlogged c d) (script : SqWorld → (α × List Output) × SqWorld) :
    ∃ a w w', hooked script c.world = (a, w) ∧ hooked script d.world = (a, w') ∧
      ∀ stack, Unlogged { c with world := w, stack } { d with world := w', stack } := by
  obtain ⟨hl, logged, rfl⟩ := h
  exact ⟨_, _, _, rfl, hooked_without script c.world logged, fun stack => ⟨hooked_isSome script hl, logged, rfl⟩⟩

theorem sqPush_alike (h : Unlogged c d) (v : SqValue) : Alike Unlogged (sqPush v) c d :=
  .of_ok rfl rfl (by rw [h.stack]; exact h.set _)

theorem sqPushroottable_alike (h : Unlogged c d) : Alike Unlogged sqPushroottable c d := by
  unfold Alike sqPushroottable
  rw [h.heap]
  exact sqPush_alike h _

theorem sqPop_alike (h : Unlogged c d) (n : Nat) : Alike Unlogged (sqPop n) c d := by
  unfold Alike sqPop
  rw [h.stack]
  by_cases hn : n ≤ c.stack.length
  · rw [if_pos hn, if_pos hn]
    exact ⟨rfl, h.set _⟩
  · rw [if_neg hn, if_neg hn]

theorem sqGettop_alike (h : Unlogged c d) : Alike Unlogged sqGettop c d := by
  obtain ⟨hl, logged, rfl⟩ := h
  exact .of_ok rfl rfl ⟨hl, logged, rfl⟩

theorem sqAssert_alike (h : Unlogged c d) (cond : Bool) (text : String) : Alike Unlogged (sqAssert cond text) c d := by
  cases cond with
  | true => exact .of_ok rfl rfl h
  | false => exact .of_error rfl rfl

theorem sqGet_alike (h : Unlogged c d) (idx : Int) : Alike Unlogged (sqGet i.vm idx) c d := by
  obtain ⟨o, w, w', hc, hd, hR⟩ := h.script (i.get (c.at idx) (c.at (-1)))
  unfold Alike sqGet
  simp only [SqInterpreter.vm, h.at, h.stack, hc, hd]
  cases o with
  | some v => exact ⟨rfl, hR _⟩
  | none => exact ⟨rfl, hR _⟩

theorem sqCompile_alike (h : Unlogged c d) (string : Bytes) : Alike Unlogged (sqCompile i.vm string) c d := by
  obtain ⟨o, w, w', hc, hd, hR⟩ := h.script (i.compile string)
  unfold Alike sqCompile
  simp only [SqInterpreter.vm, hc, hd]
  cases o with
  | some v => exact ⟨rfl, by rw [h.stack]; exact hR _⟩
  | none =>
    refine ⟨rfl, ?_⟩
    show Unlogged { c with world := w, stack := c.stack } { d with world := w', stack := d.stack }
    rw [h.stack]
    exact hR _

theorem sqCall_alike (h : Unlogged c d) (params : Nat) (retval : Bool) :
    Alike Unlogged (sqCall i.vm params retval) c d := by
  unfold Alike sqCall sqCallIn never
  rw [h.stack]
  cases hdrop : c.stack.drop params with
  | nil => rfl
  | cons f rest =>
    obtain ⟨o, w, w', hc, hd, hR⟩ := h.script (i.call f (c.stack.take params).reverse)
    simp only [SqInterpreter.vm, hc, hd]
    cases o with
    | some v => exact ⟨rfl, hR _⟩
    | none => exact ⟨rfl, hR _⟩

theorem executeString_alike (h : Unlogged c d) (string : Bytes) : Alike Unlogged (executeString i.vm string) c d := by
  refine (sqCompile_alike h string).bind fun ok c₁ d₁ _ h₁ => ?_
  cases ok with
  | false => exact .pure h₁
  | true =>
    refine (sqPushroottable_alike h₁).bind fun _ c₂ d₂ _ h₂ => ?_
    refine (sqCall_alike h₂ 1 false).bind fun result c₃ d₃ _ h₃ => ?_
    exact (sqPop_alike h₃ 1).bind fun _ _ _ _ h₄ => .pure h₄

theorem beginCall_alike (h : Unlogged c d) (name : Bytes) : Alike Unlogged (beginCall i.vm name) c d := by
  refine (sqPushroottable_alike h).bind fun _ c₁ d₁ _ h₁ => ?_
  refine (sqPush_alike h₁ _).bind fun _ c₂ d₂ _ h₂ => ?_
  refine (sqGet_alike h₂ (-2)).bind fun _ c₃ d₃ _ h₃ => ?_
  refine Alike.bind_get (by rw [h₃.at]) ?_
  split
  · refine (sqPushroottable_alike h₃).bind fun _ c₄ d₄ _ h₄ => ?_
    exact Alike.bind ((sqGettop_alike h₄).bind fun _ _ _ _ h₅ => .pure h₅) fun _ _ _ _ h₆ => .pure h₆
  · exact (sqPop_alike h₃ 1).bind fun _ _ _ _ h₄ => .pure h₄

theorem endCall_alike (h : Unlogged c d) (st : SquirrelScriptStack) : Alike Unlogged (st.endCall i.vm) c d := by
  refine (sqAssert_alike h _ _).bind fun _ c₁ d₁ _ h₁ => ?_
  refine (sqGettop_alike h₁).bind fun topBefore c₂ d₂ _ h₂ => ?_
  refine (sqCall_alike h₂ _ true).bind fun ok c₃ d₃ _ h₃ => ?_
  cases ok with
  | true => exact (sqGettop_alike h₃).bind fun _ _ _ _ h₄ => .pure h₄
  | false => exact (sqPop_alike h₃ 2).bind fun _ _ _ _ h₄ => .pure h₄

theorem popInt_alike (h : Unlogged c d) (st : SquirrelScriptStack) (value : Int) :
    Alike Unlogged (st.popInt value) c d := by
  unfold Alike SquirrelScriptStack.popInt
  rw [h.at]
  cases (c.at (-1)).getInteger with
  | none => exact ⟨rfl, h⟩
  | some n => exact (sqPop_alike h 1).bind fun _ _ _ _ h₁ => .pure h₁

theorem popScriptObject_alike (h : Unlogged c d) (st : SquirrelScriptStack) :
    Alike Unlogged st.popScriptObject c d := by
  unfold Alike SquirrelScriptStack.popScriptObject
  rw [h.at, h.heap]
  cases c.at (-1) with
  | sqinstance r => exact (sqPop_alike h 1).bind fun _ _ _ _ h₁ => .pure h₁
  | _ => rfl

theorem outputs_eq (h : Unlogged c d) (op : Op SquirrelScriptStack) : outputs i op d = outputs i op c := by
  obtain ⟨-, logged, rfl⟩ := h
  cases op <;> rfl

theorem opAlike {heap : SqHeap} {op : Op SquirrelScriptStack} (h : Unlogged c d) (hP : Fitting i op c) :
    OpAlike (contextBackend i.vm heap) Unlogged c d op := by
  cases op with
  | create => exact hP
  | setLogger logger => exact hP
  | registerFunction desc => exact hP
  | executeString string => exact executeString_alike h string
  | begin name => exact beginCall_alike h name
  | push st p => exact .of_ok (push_ok p) (push_ok p) (by rw [h.stack]; exact h.set _)
  | endCall st => exact endCall_alike h st
  | pop st p =>
    cases p with
    | int => exact (popInt_alike h st 0).bind fun _ _ _ _ hR => .pure hR
    | scriptObject => exact (popScriptObject_alike h st).bind fun _ _ _ _ hR => .pure hR
  | release st => exact (sqAssert_alike h _ _).bind fun _ _ _ _ h₁ => sqPop_alike h₁ 2

theorem operations_alike {heap : SqHeap} (op : Op SquirrelScriptStack) (c d : SquirrelScriptContext) (h : Unlogged c d)
    (hP : Fitting i op c) : Alike Unlogged (operations i heap op) c d := by
  have hclear : ∀ o ∈ outputs i op c, o.Clear fits := by
    cases op <;> first | exact hP | exact hP.elim
  refine withOutputs_alike ?_ (run_alike (opAlike h hP))
  rw [outputs_eq h, Output.stop_clear _ hclear, Output.stop_clear _ hclear]

end Squirrel

/-! ## GameMonkey -/

namespace GameMonkey

instance : Logging GmWorld where
  log w := (w.logger, w.logged)
  setLog w l := { w with logger := l.1, logged := l.2 }
  log_setLog _ _ := rfl
  setLog_setLog _ _ _ := rfl

/-- The machine with the host functions, as it is without the logger. -/
structure GmInterpreter where
  call : GmValue → List GmValue → GmWorld → (Option GmValue × List Output) × GmWorld
  executeString : Bytes → GmWorld → (Nat × List Output) × GmWorld

def GmInterpreter.vm (i : GmInterpreter) : GmVm where
  call f args := hooked (i.call f args)
  executeString s := hooked (i.executeString s)

variable (i : GmInterpreter)

/-- What is output in an operation: by a script, by a function. -/
def outputs : Op GMScriptStack → GMScriptContext → List Output
  | .executeString string, c => (i.executeString string (silent c.world)).1.2
  | .endCall st, c => st.call.elim [] fun call => (i.call call.function call.params (silent c.world)).1.2
  | _, _ => []

/-- `GMPrintCallback` has no buffer. -/
def operations (fresh : GMScriptContext) : Operations GMScriptContext GMScriptStack :=
  withOutputs (fun _ => true) (·.world.logger) (outputs i) (contextBackend i.vm fresh).run

/-- Where a script has errors, the machine's log is empty. And no host function reports an
error. -/
def Unreported : Op GMScriptStack → GMScriptContext → Prop
  | .create, _ => False
  | .setLogger _, _ => False
  | .registerFunction _, _ => False
  | .executeString string, c => (∀ o ∈ outputs i (.executeString string) c, o.Clear fun _ => true) ∧
      ((i.vm.executeString string c.world).1 ≠ 0 → (i.vm.executeString string c.world).2.log = [])
  | op, c => ∀ o ∈ outputs i op c, o.Clear fun _ => true

/-- `d` is `c` without the logger that `c` has. -/
def Unlogged (c d : GMScriptContext) : Prop :=
  c.world.logger.isSome = true ∧ ∃ logged, d = { c with world := setLog c.world (none, logged) }

variable {i} {c d : GMScriptContext}

theorem Unlogged.thread (h : Unlogged c d) : d.thread = c.thread := by
  obtain ⟨-, logged, rfl⟩ := h
  rfl

theorem Unlogged.user (h : Unlogged c d) : d.world.user = c.world.user := by
  obtain ⟨-, logged, rfl⟩ := h
  rfl

theorem Unlogged.globals (h : Unlogged c d) : d.world.globals = c.world.globals := by
  obtain ⟨-, logged, rfl⟩ := h
  rfl

/-- A script answers the same in the two contexts. -/
theorem Unlogged.script {α : Type} (h : Unlogged c d) (script : GmWorld → (α × List Output) × GmWorld) :
    ∃ a w w', hooked script c.world = (a, w) ∧ hooked script d.world = (a, w') ∧
      Unlogged { c with world := w } { d with world := w' } := by
  obtain ⟨hl, logged, rfl⟩ := h
  exact ⟨_, _, _, rfl, hooked_without script c.world logged, hooked_isSome script hl, logged, rfl⟩

/-- No message goes to the logger. -/
theorem executeString_alike (h : Unlogged c d) {string : Bytes}
    (hlog : (i.vm.executeString string c.world).1 ≠ 0 → (i.vm.executeString string c.world).2.log = []) :
    Alike Unlogged (executeString i.vm string) c d := by
  obtain ⟨n, w, w', hc, hd, hR⟩ := h.script (i.executeString string)
  have hc' : i.vm.executeString string c.world = (n, w) := hc
  have hd' : i.vm.executeString string d.world = (n, w') := hd
  rw [hc'] at hlog
  unfold Alike executeString
  rw [hc', hd']
  cases n with
  | zero => exact ⟨rfl, hR⟩
  | succ n =>
    have hw : w.log = [] := hlog (Nat.succ_ne_zero n)
    obtain ⟨hl, logged, hw'⟩ := hR
    obtain rfl : w' = setLog w (none, logged) := congrArg GMScriptContext.world hw'
    have hempty : (setLog w (none, logged)).log = [] := hw
    simp only [hw, hempty, outputMessages, h.thread]
    exact ⟨rfl, hl, logged, rfl⟩

theorem beginCall_alike (h : Unlogged c d) (name : Bytes) : Alike Unlogged (beginCall name) c d := by
  unfold Alike beginCall
  rw [h.globals]
  cases c.world.globals name <;> exact ⟨rfl, h⟩

theorem push_alike (h : Unlogged c d) (st : GMScriptStack) (p : Push) : Alike Unlogged (st.push p) c d := by
  obtain ⟨hl, logged, rfl⟩ := h
  unfold Alike GMScriptStack.push
  cases st.call <;> exact ⟨rfl, hl, logged, rfl⟩

theorem endCall_alike (h : Unlogged c d) (st : GMScriptStack) : Alike Unlogged (st.endCall i.vm) c d := by
  unfold Alike GMScriptStack.endCall
  cases st.call with
  | none => rfl
  | some call =>
    obtain ⟨o, w, w', hc, hd, hR⟩ := h.script (i.call call.function call.params)
    simp only [GmInterpreter.vm, hc, hd]
    cases o with
    | some v => exact ⟨rfl, hR⟩
    | none => exact ⟨rfl, hR⟩

theorem popInt_alike (h : Unlogged c d) (st : GMScriptStack) (value : Int) : Alike Unlogged (st.popInt value) c d := by
  unfold Alike GMScriptStack.popInt
  rw [h.thread]
  by_cases hn : st.numPopped = st.numParams
  · rw [if_pos hn, if_pos hn]
    exact ⟨rfl, h⟩
  · rw [if_neg hn, if_neg hn]
    cases st.call with
    | some call =>
      simp only
      cases call.returnVar with
      | none => exact ⟨rfl, h⟩
      | some v => cases v <;> exact ⟨rfl, h⟩
    | none =>
      simp only
      rcases c.thread.paramInt (st.numParams - st.numPopped - 1) with ⟨_ | _, n⟩ <;> exact ⟨rfl, h⟩

theorem popScriptObject_alike (h : Unlogged c d) (st : GMScriptStack) : Alike Unlogged st.popScriptObject c d := by
  unfold Alike GMScriptStack.popScriptObject
  rw [h.thread, h.user]
  by_cases hn : st.numPopped = st.numParams
  · rw [if_pos hn, if_pos hn]
    exact ⟨rfl, h⟩
  · rw [if_neg hn, if_neg hn]
    cases st.call with
    | some call =>
      simp only
      cases call.returnVar with
      | none => exact ⟨rfl, h⟩
      | some v =>
        cases v with
        | user type ref =>
          simp only
          by_cases ht : type = gmUser
          · rw [if_pos ht, if_pos ht]
            exact ⟨rfl, h⟩
          · rw [if_neg ht, if_neg ht]
            exact ⟨rfl, h⟩
        | _ => exact ⟨rfl, h⟩
    | none =>
      simp only
      rcases c.thread.paramUserObject (st.numParams - st.numPopped - 1) with _ | _ | ref
      · exact ⟨rfl, h⟩
      · rfl
      · exact ⟨rfl, h⟩

theorem gmAssert_alike (h : Unlogged c d) (cond : Bool) (text : String) : Alike Unlogged (gmAssert cond text) c d := by
  cases cond with
  | true => exact .of_ok rfl rfl h
  | false => exact .of_error rfl rfl

theorem outputs_eq (h : Unlogged c d) (op : Op GMScriptStack) : outputs i op d = outputs i op c := by
  obtain ⟨-, logged, rfl⟩ := h
  cases op <;> rfl

theorem opAlike {fresh : GMScriptContext} {op : Op GMScriptStack} (h : Unlogged c d) (hP : Unreported i op c) :
    OpAlike (contextBackend i.vm fresh) Unlogged c d op := by
  cases op with
  | create => exact hP
  | setLogger logger => exact hP
  | registerFunction desc => exact hP
  | executeString string => exact executeString_alike h hP.2
  | begin name => exact beginCall_alike h name
  | push st p => exact push_alike h st p
  | endCall st => exact endCall_alike h st
  | pop st p =>
    cases p with
    | int => exact (popInt_alike h st 0).bind fun _ _ _ _ hR => .pure hR
    | scriptObject => exact (popScriptObject_alike h st).bind fun _ _ _ _ hR => .pure hR
  | release st => exact gmAssert_alike h _ _

theorem operations_alike {fresh : GMScriptContext} (op : Op GMScriptStack) (c d : GMScriptContext) (h : Unlogged c d)
    (hP : Unreported i op c) : Alike Unlogged (operations i fresh op) c d := by
  have hclear : ∀ o ∈ outputs i op c, o.Clear fun _ => true := by
    cases op with
    | executeString string => exact hP.1
    | _ => first | exact hP | exact hP.elim
  refine withOutputs_alike ?_ (run_alike (opAlike h hP))
  rw [outputs_eq h, Output.stop_clear _ hclear, Output.stop_clear _ hclear]

end GameMonkey

/-! ## OCaml -/

namespace Ocaml

variable (vm : OcamlVm) (id : Nat)

/-- The logger of the context that gets the output. -/
def currentLogger (p : OcamlProcess) : Option Nat := p.current.bind fun id => (p.contexts id).bind (·.logger)

/-- The load of a script, where `ExecuteString` gets that far. What cannot be loaded is a
fatal error. -/
def loading (string : Bytes) (p : OcamlProcess) : Option (Option (CamlCode × CamlRuntime)) :=
  match checkFakeDLL id p with
  | .ok (true, p') => (vm.ocamlc (vm.fprintf string) p'.dll).map fun file => customCamlLoadCode vm.builtins file p'.rt
  | _ => none

/-- What is output in an operation: by a script, by a closure. -/
def outputs : Op OcamlScriptStack → OcamlProcess → List Output
  | .executeString string, p =>
    match loading vm id string p with
    | some (some (code, rt)) => (vm.interprete code (customCamlRunCode code rt)).1.2.map .print
    | _ => []
  | .endCall st, p =>
    if st.isCall = true ∧ st.values ≠ [] then
      (st.closure.bind p.rt.named).elim [] fun closure => (vm.callback closure st.values p.rt).1.2.map .print
    else []
  | _, _ => []

/-- The chunk is terminated in the buffer of `OcamlPrintCallback`. -/
def fits (chunk : Bytes) : Bool := chunk.length + 1 ≤ printBufferSize

def operations : Operations OcamlProcess OcamlScriptStack :=
  withOutputs fits currentLogger (outputs vm id) (Ocaml.run vm id)

/-- No fatal error, and no chunk that is larger than the buffer, in the context that gets the
output. -/
def Harmless : Op OcamlScriptStack → OcamlProcess → Prop
  | .create, _ => False
  | .setLogger _, _ => False
  | .registerFunction _, _ => False
  | .executeString string, p => p.current = some id →
      (∀ o ∈ outputs vm id (.executeString string) p, o.Clear fits) ∧ loading vm id string p ≠ some none
  | op, p => p.current = some id → ∀ o ∈ outputs vm id op p, o.Clear fits

/-- `q` is `p` without the logger that the context has. -/
def Unlogged (p q : OcamlProcess) : Prop :=
  ∃ c logged, p.contexts id = some c ∧ c.logger.isSome = true ∧
    q = { p with contexts := Function.update p.contexts id (some { c with logger := none, logged }) }

variable {vm} {id} {p q : OcamlProcess}

theorem Unlogged.shared (h : Unlogged id p q) : q.current = p.current ∧ q.rt = p.rt ∧ q.dll = p.dll := by
  obtain ⟨c, logged, -, -, rfl⟩ := h
  exact ⟨rfl, rfl, rfl⟩

theorem Unlogged.beside (h : Unlogged id p q) {j : Nat} (hj : j ≠ id) : q.contexts j = p.contexts j := by
  obtain ⟨c, logged, -, -, rfl⟩ := h
  exact Function.update_of_ne hj _ _

/-- The two contexts are changed, but for the logger in the same way. -/
theorem Unlogged.setContext {c : OcamlScriptContext} {logged : List LogCall} (h : Unlogged id p q)
    (hl : c.logger.isSome = true) :
    Unlogged id { p with contexts := Function.update p.contexts id (some c) }
      { q with contexts := Function.update q.contexts id (some { c with logger := none, logged }) } := by
  obtain ⟨c₀, logged₀, -, -, rfl⟩ := h
  exact ⟨c, logged, Function.update_self _ _ _, hl, by simp only [Function.update_idem]⟩

/-- Another context is changed. -/
theorem Unlogged.setOther {j : Nat} {c : OcamlScriptContext} (h : Unlogged id p q) (hj : j ≠ id) :
    Unlogged id { p with contexts := Function.update p.contexts j (some c) }
      { q with contexts := Function.update q.contexts j (some c) } := by
  obtain ⟨c₀, logged, hc, hl, rfl⟩ := h
  refine ⟨c₀, logged, ?_, hl, ?_⟩
  · rw [← hc]
    exact Function.update_of_ne (Ne.symm hj) _ _
  · simp only [Function.update_comm hj]

theorem getRt_alike (h : Unlogged id p q) : Alike (Unlogged id) getRt p q :=
  .of_ok rfl (by rw [← h.shared.2.1]; rfl) h

theorem getDll_alike (h : Unlogged id p q) : Alike (Unlogged id) getDll p q :=
  .of_ok rfl (by rw [← h.shared.2.2]; rfl) h

theorem setRt_alike (h : Unlogged id p q) (rt : CamlRuntime) : Alike (Unlogged id) (setRt rt) p q := by
  obtain ⟨c, logged, hc, hl, rfl⟩ := h
  exact .of_ok rfl rfl ⟨c, logged, hc, hl, rfl⟩

theorem ocamlAssert_alike (h : Unlogged id p q) (cond : Bool) (text : String) :
    Alike (Unlogged id) (ocamlAssert cond text) p q := by
  cases cond with
  | true => exact .of_ok rfl rfl h
  | false => exact .of_error rfl rfl

/-- Output changes nothing but what was logged. -/
theorem output_logged : ∀ (chunks : List Bytes) (c : OcamlScriptContext),
    ∃ logged, chunks.foldl OcamlScriptContext.output c = { c with logged }
  | [], c => ⟨c.logged, rfl⟩
  | chunk :: chunks, c => by
    obtain ⟨logged, hrest⟩ := output_logged chunks (c.output chunk)
    refine ⟨logged, hrest.trans ?_⟩
    unfold OcamlScriptContext.output
    split <;> rfl

/-- The context that gets the output is the same. -/
theorem current_alike {α : Type} {k : Nat → OcamlM α} (h : Unlogged id p q)
    (hk : ∀ j q', p.current = some j → Unlogged id p q' → Alike (Unlogged id) (k j) p q') :
    Alike (Unlogged id) (do
      match ← getCurrent with
      | none => fault .nullDeref
      | some j => k j) p q := by
  refine Alike.bind (.of_ok rfl (by rw [← h.shared.1]; rfl) h) fun current p' q' hp h' => ?_
  cases hp
  cases hcurrent : p.current with
  | none => exact .of_error rfl rfl
  | some j => exact hk j q' hcurrent h'

/-- The hook asks for the logger, of whichever context gets the output. -/
theorem ocamlPrintCallback_alike (h : Unlogged id p q) (chunks : List Bytes) :
    Alike (Unlogged id) (ocamlPrintCallback chunks) p q := by
  refine current_alike h fun j q hj h => ?_
  by_cases hid : j = id
  · subst hid
    have hu := h
    obtain ⟨c, logged, hc, hl, hq⟩ := hu
    have hc' : q.contexts j = some { c with logger := none, logged } := by rw [hq]; exact Function.update_self _ _ _
    obtain ⟨l, hfold⟩ := output_logged chunks c
    obtain ⟨l', hfold'⟩ := output_logged chunks { c with logger := none, logged }
    have hs : (context j >>= fun c => setContext j (chunks.foldl OcamlScriptContext.output c)) p = .ok ((), _) :=
      (bind_ok (context_ok hc)).trans rfl
    have ht : (context j >>= fun c => setContext j (chunks.foldl OcamlScriptContext.output c)) q = .ok ((), _) :=
      (bind_ok (context_ok hc')).trans rfl
    refine .of_ok hs ht ?_
    rw [hfold, hfold']
    exact @Unlogged.setContext j p q { c with logged := l } l' h hl
  · cases hc : p.contexts j with
    | none =>
      have hc' : q.contexts j = none := (h.beside hid).trans hc
      exact .of_error (bind_error (context_none hc)) (bind_error (context_none hc'))
    | some c =>
      have hc' : q.contexts j = some c := (h.beside hid).trans hc
      exact .of_ok ((bind_ok (context_ok hc)).trans rfl) ((bind_ok (context_ok hc')).trans rfl) (h.setOther hid)

/-- A fatal error of another context. -/
theorem fatalError_alike {α : Type} (h : Unlogged id p q) (hid : p.current ≠ some id) :
    Alike (Unlogged id) (fatalError : OcamlM α) p q := by
  refine current_alike h fun j q hj h => ?_
  have hj' : j ≠ id := fun he => hid (he ▸ hj)
  cases hc : p.contexts j with
  | none =>
    have hc' : q.contexts j = none := (h.beside hj').trans hc
    exact .of_error (bind_error (context_none hc)) (bind_error (context_none hc'))
  | some c =>
    have hc' : q.contexts j = some c := (h.beside hj').trans hc
    unfold Alike
    rw [bind_ok (context_ok hc), bind_ok (context_ok hc')]
    cases c.logger.isSome <;> rfl

theorem checkFakeDLL_alike (h : Unlogged id p q) : Alike (Unlogged id) (checkFakeDLL id) p q := by
  have hu := h
  obtain ⟨c, logged, hc, hl, hq⟩ := hu
  have hc' : q.contexts id = some { c with logger := none, logged } := by rw [hq]; exact Function.update_self _ _ _
  cases hd : c.dirtyFakedDLL with
  | false => exact .of_ok (checkFakeDLL_clean hc hd) (checkFakeDLL_clean hc' hd) h
  | true =>
    have ht := checkFakeDLL_dirty hc' hd
    rw [congrArg Option.isSome h.shared.2.2] at ht
    refine .of_ok (checkFakeDLL_dirty hc hd) ht ?_
    cases p.dll.isSome with
    | true => exact @Unlogged.setContext id p q { c with dirtyFakedDLL := false } logged h hl
    | false =>
      have hout : rebuilt c false = { c with dirtyFakedDLL := false, logged := c.logged ++ [{ text := missingDLL }] } :=
        if_pos hl
      rw [hout]
      exact @Unlogged.setContext id p q { c with dirtyFakedDLL := false, logged := _ } logged h hl

theorem checkFakeDLL_current {b : Bool} {p' : OcamlProcess} (h : checkFakeDLL id p = .ok (b, p')) :
    p'.current = p.current := by
  cases hc : p.contexts id with
  | none =>
    rw [checkFakeDLL, bind_error (context_none hc)] at h
    cases h
  | some c =>
    cases hd : c.dirtyFakedDLL with
    | true =>
      rw [checkFakeDLL_dirty hc hd] at h
      cases h
      rfl
    | false =>
      rw [checkFakeDLL_clean hc hd] at h
      cases h
      rfl

theorem loading_eq (h : Unlogged id p q) (string : Bytes) : loading vm id string q = loading vm id string p := by
  unfold loading
  rcases (checkFakeDLL_alike h).cases with ⟨b, p', q', hp, hq, hR⟩ | ⟨f, hp, hq⟩
  · rw [hp, hq]
    cases b with
    | true => simp only [hR.shared.2.1, hR.shared.2.2]
    | false => rfl
  · rw [hp, hq]

theorem outputs_eq (h : Unlogged id p q) (op : Op OcamlScriptStack) : outputs vm id op q = outputs vm id op p := by
  cases op with
  | executeString string => simp only [outputs, loading_eq h]
  | endCall st => simp only [outputs, h.shared.2.1]
  | _ => rfl

theorem loadAndRun_alike (h : Unlogged id p q) {file : Bytecode}
    (hload : p.current = some id → customCamlLoadCode vm.builtins file p.rt ≠ none) :
    Alike (Unlogged id) (loadAndRun vm file) p q := by
  refine (getRt_alike h).bind fun rt p' q' hp h' => ?_
  cases hp
  cases hc : customCamlLoadCode vm.builtins file p.rt with
  | none => exact fatalError_alike h' fun hid => hload hid hc
  | some r =>
    refine (setRt_alike h' _).bind fun _ _ _ _ h₁ => ?_
    exact (ocamlPrintCallback_alike h₁ _).bind fun _ _ _ _ h₂ => .pure h₂

theorem executeString_alike (h : Unlogged id p q) {string : Bytes}
    (hload : p.current = some id → loading vm id string p ≠ some none) :
    Alike (Unlogged id) (executeString vm id string) p q := by
  refine (checkFakeDLL_alike h).bind fun goes p₁ q₁ hcheck h₁ => ?_
  cases goes with
  | false => exact .pure h₁
  | true =>
    refine (getDll_alike h₁).bind fun dll p₂ q₂ hdll h₂ => ?_
    cases hdll
    cases hfile : vm.ocamlc (vm.fprintf string) p₁.dll with
    | none => exact .pure h₂
    | some file =>
      refine loadAndRun_alike h₂ fun hid hnone => hload (by rw [← checkFakeDLL_current hcheck, hid]) ?_
      simp only [loading, hcheck, hfile, Option.map_some, hnone]

theorem beginCall_alike (h : Unlogged id p q) (name : Bytes) : Alike (Unlogged id) (beginCall name) p q := by
  refine (getRt_alike h).bind fun rt _ _ _ h₁ => ?_
  cases rt.named name with
  | none => exact .pure h₁
  | some _ => exact .pure h₁

theorem endCall_alike (h : Unlogged id p q) (st : OcamlScriptStack) : Alike (Unlogged id) (st.endCall vm) p q := by
  refine (ocamlAssert_alike h _ _).bind fun _ p₁ q₁ _ h₁ => ?_
  split
  · exact .of_error rfl rfl
  · refine (getRt_alike h₁).bind fun rt p₂ q₂ _ h₂ => ?_
    cases st.closure.bind rt.named with
    | none => exact .of_error rfl rfl
    | some closure =>
      refine Alike.bind ?_ fun _ _ _ _ h₃ => .pure h₃
      refine (getRt_alike h₂).bind fun rt p₃ q₃ _ h₃ => ?_
      refine (setRt_alike h₃ _).bind fun _ p₄ q₄ _ h₄ => ?_
      refine (ocamlPrintCallback_alike h₄ _).bind fun _ p₅ q₅ _ h₅ => ?_
      cases (vm.callback closure st.values rt).1.1 with
      | some v => exact .pure h₅
      | none => exact .of_error rfl rfl

theorem run_alike {op : Op OcamlScriptStack} (h : Unlogged id p q) (hP : Harmless vm id op p) :
    Alike (Unlogged id) (Ocaml.run vm id op) p q := by
  cases op with
  | create => exact hP.elim
  | setLogger logger => exact hP.elim
  | registerFunction desc => exact hP.elim
  | executeString string =>
    exact (executeString_alike h fun hid => (hP hid).2).bind fun _ _ _ _ h₁ => .pure h₁
  | begin name => exact (beginCall_alike h name).bind fun _ _ _ _ h₁ => .pure h₁
  | push st x =>
    cases x with
    | int value => exact .of_ok rfl rfl h
    | string string length => exact .of_error rfl rfl
  | endCall st => exact (endCall_alike h st).bind fun _ _ _ _ h₁ => .pure h₁
  | pop st x =>
    cases x with
    | int => exact .of_ok rfl rfl h
    | scriptObject => exact .of_error rfl rfl
  | release st => exact (ocamlAssert_alike h _ _).bind fun _ _ _ _ h₁ => .pure h₁

theorem currentLogger_eq (h : Unlogged id p q) (hid : p.current ≠ some id) : currentLogger q = currentLogger p := by
  unfold currentLogger
  rw [h.shared.1]
  cases hp : p.current with
  | none => rfl
  | some j =>
    have hj : j ≠ id := fun he => hid (he ▸ hp)
    simp only [Option.bind_some, h.beside hj]

theorem operations_alike (op : Op OcamlScriptStack) (p q : OcamlProcess) (h : Unlogged id p q)
    (hP : Harmless vm id op p) :
    Alike (Unlogged id) (operations vm id op) p q := by
  refine withOutputs_alike ?_ (run_alike h hP)
  rw [outputs_eq h]
  by_cases hid : p.current = some id
  · have hclear : ∀ o ∈ outputs vm id op p, o.Clear fits := by
      cases op with
      | executeString string => exact (hP hid).1
      | _ => first | exact hP.elim | exact hP hid
    rw [Output.stop_clear _ hclear, Output.stop_clear _ hclear]
  · rw [currentLogger_eq h hid]

end Ocaml

/-! ## The four backends -/

/-- **The logger is optional** in every session whose steps come to nothing but the print
hooks. From a context with a logger, and the same without it, the host is answered the same
and the VM is left the same, or both stop with the same fault: in Lua where nothing that is
called raises, in GameMonkey where no script with errors leaves a message in the machine's
log, in Squirrel where no text is larger than the buffer that only a logger needs, in OCaml
where no script cannot be loaded and no chunk is too large. -/
theorem logger_optional (lua : Lua.LuaInterpreter) (sq : Squirrel.SqInterpreter) (gm : GameMonkey.GmInterpreter)
    (ocaml : Ocaml.OcamlVm) (es : List CallEvent) :
    (∀ heap x y, Session.Rel Lua.Unlogged x y →
      (session (Lua.operations lua heap)).Meets (OnContext (Lua.Raiseless lua)) es x →
      Alike (Session.Rel Lua.Unlogged) ((session (Lua.operations lua heap)).run es) x y) ∧
    (∀ heap x y, Session.Rel Squirrel.Unlogged x y →
      (session (Squirrel.operations sq heap)).Meets (OnContext (Squirrel.Fitting sq)) es x →
      Alike (Session.Rel Squirrel.Unlogged) ((session (Squirrel.operations sq heap)).run es) x y) ∧
    (∀ fresh x y, Session.Rel GameMonkey.Unlogged x y →
      (session (GameMonkey.operations gm fresh)).Meets (OnContext (GameMonkey.Unreported gm)) es x →
      Alike (Session.Rel GameMonkey.Unlogged) ((session (GameMonkey.operations gm fresh)).run es) x y) ∧
    ∀ id x y, Session.Rel (Ocaml.Unlogged id) x y →
      (session (Ocaml.operations ocaml id)).Meets (OnContext (Ocaml.Harmless ocaml id)) es x →
      Alike (Session.Rel (Ocaml.Unlogged id)) ((session (Ocaml.operations ocaml id)).run es) x y := by
  refine ⟨?_, ?_, ?_, ?_⟩
  · intro heap x y hR hm
    exact session_run_alike Lua.operations_alike hR hm
  · intro heap x y hR hm
    exact session_run_alike Squirrel.operations_alike hR hm
  · intro fresh x y hR hm
    exact session_run_alike GameMonkey.operations_alike hR hm
  · intro id x y hR hm
    exact session_run_alike Ocaml.operations_alike hR hm

/-- Every text compiles, and what is called prints `text` and ends with `o`. -/
def Lua.LuaInterpreter.ending (text : Bytes) (o : Lua.LuaOutcome) : Lua.LuaInterpreter where
  str2d _ := none
  number2str _ := []
  load _ w := (((none, .function 0), []), w)
  call _ _ w := ((o, [.print text]), w)
  index _ _ w := ((some .nil, []), w)
  newindex _ _ _ w := ((true, []), w)

def Squirrel.SqInterpreter.ending (text : Bytes) (o : Option Squirrel.SqValue) : Squirrel.SqInterpreter where
  compile _ w := ((some (.closure 0), []), w)
  call _ _ w := ((o, [.print text]), w)
  get _ _ w := ((none, []), w)

/-- Every script prints `text`, and leaves the messages of its errors in the log. -/
def GameMonkey.GmInterpreter.leaving (text : Bytes) (messages : List Bytes) : GameMonkey.GmInterpreter where
  call _ _ w := ((some .null, [.print text]), w)
  executeString _ w := ((messages.length, [.print text]), { w with log := messages })

/-- A context for scripts, with a logger or without one. -/
def Lua.scriptContext (logger : Option Nat) : Lua.LuaScriptContext :=
  { Lua.createContext (.binding []) with world := { (Lua.createContext (.binding [])).world with logger } }

def Squirrel.scriptContext (logger : Option Nat) : Squirrel.SquirrelScriptContext :=
  { Squirrel.createContext (.binding []) with world := { (Squirrel.createContext (.binding [])).world with logger } }

def GameMonkey.scriptContext (logger : Option Nat) : GameMonkey.GMScriptContext :=
  let c := GameMonkey.createContext 0 (fun _ => .null) fun _ => .other 0
  { c with world := { c.world with logger } }

def Ocaml.scriptContext (logger : Option Nat) : Ocaml.OcamlProcess :=
  { Ocaml.OcamlProcess.initial (some []) with
    contexts := Function.update (fun _ => none) 0
      (some { functions := [], dirtyFakedDLL := true, logger, logged := [] })
    current := some 0 }

/-- A script that raises in Lua, and one with an error in GameMonkey: false with a logger, and
the null pointer without one. In OCaml a script that needs an unknown primitive loops in an
assertion with a logger, and ends the process without one. -/
theorem logger_not_optional :
    let lua := Lua.operations (.ending [] (.raised .errRun (.string (cstr "boom")))) (.binding [])
    let gm := GameMonkey.operations (.leaving [] [cstr "error (1) syntax error"]) (GameMonkey.scriptContext none)
    let ocaml := Ocaml.operations
      { Ocaml.OcamlVm.printing [] with ocamlc := fun _ _ => some { content := 0, reqPrims := [cstr "f"] } } 0
    let es : List CallEvent := [.executeString (cstr "error(\"boom\")")]
    (∃ x, (session lua).run es (.start (Lua.scriptContext (some 0))) = .ok ([.answered false], x)) ∧
      (session lua).run es (.start (Lua.scriptContext none)) = .error .nullDeref ∧
      (∃ x, (session gm).run es (.start (GameMonkey.scriptContext (some 0))) = .ok ([.answered false], x)) ∧
      (session gm).run es (.start (GameMonkey.scriptContext none)) = .error .nullDeref ∧
      (session ocaml).run es (.start (Ocaml.scriptContext (some 0))) = .error (.assertion "false") ∧
      (session ocaml).run es (.start (Ocaml.scriptContext none)) = .error .exit := by
  refine ⟨⟨_, rfl⟩, rfl, ⟨_, rfl⟩, rfl, rfl, rfl⟩

/-- A script that prints, in each language. -/
theorem logger_optional_print :
    let lua := Lua.LuaInterpreter.ending (cstr "hello") (.returned [])
    let sq := Squirrel.SqInterpreter.ending (cstr "hello") (some .null)
    let gm := GameMonkey.GmInterpreter.leaving (cstr "hello") []
    let ocaml := Ocaml.OcamlVm.printing (cstr "hello")
    let es : List CallEvent := [.executeString (cstr "print(\"hello\")")]
    Alike (Session.Rel Lua.Unlogged) ((session (Lua.operations lua (.binding []))).run es)
        (.start (Lua.scriptContext (some 0))) (.start (Lua.scriptContext none)) ∧
      Alike (Session.Rel Squirrel.Unlogged) ((session (Squirrel.operations sq (.binding []))).run es)
        (.start (Squirrel.scriptContext (some 0))) (.start (Squirrel.scriptContext none)) ∧
      Alike (Session.Rel GameMonkey.Unlogged)
        ((session (GameMonkey.operations gm (GameMonkey.scriptContext none))).run es)
        (.start (GameMonkey.scriptContext (some 0))) (.start (GameMonkey.scriptContext none)) ∧
      Alike (Session.Rel (Ocaml.Unlogged 0)) ((session (Ocaml.operations ocaml 0)).run es)
        (.start (Ocaml.scriptContext (some 0))) (.start (Ocaml.scriptContext none)) := by
  intro lua sq gm ocaml es
  obtain ⟨hlua, hsq, hgm, hocaml⟩ := logger_optional lua sq gm ocaml es
  refine ⟨?_, ?_, ?_, ?_⟩
  · refine hlua (.binding []) _ _ ⟨⟨rfl, [], rfl⟩, rfl⟩ ⟨fun op h => ?_, fun _ _ _ => trivial⟩
    cases h
    refine ⟨by decide, fun status v w hl f rest hdrop => ⟨[], _, rfl⟩⟩
  · refine hsq (.binding []) _ _ ⟨⟨rfl, [], rfl⟩, rfl⟩ ⟨fun op h => ?_, fun _ _ _ => trivial⟩
    cases h
    show ∀ o ∈ _, Output.Clear Squirrel.fits o
    decide
  · refine hgm (GameMonkey.scriptContext none) _ _ ⟨⟨rfl, [], rfl⟩, rfl⟩ ⟨fun op h => ?_, fun _ _ _ => trivial⟩
    cases h
    exact ⟨by decide, fun _ => rfl⟩
  · refine hocaml 0 _ _ ⟨⟨_, [], rfl, rfl, ?_⟩, rfl⟩ ⟨fun op h => ?_, fun _ _ _ => trivial⟩
    · simp [Session.start, Ocaml.scriptContext]
    · cases h
      exact fun _ => ⟨by decide, fun h => (by cases h)⟩

end MultiScript
