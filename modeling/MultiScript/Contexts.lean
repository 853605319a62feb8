/-
Two contexts of one language in one process, and a host that works on both. A
language is given by what its operations do to the state of the process: to the
context they are called on, and to whatever there is outside of contexts.
-/
import MultiScript.Handles.Spec
import MultiScript.Lib.Act

namespace MultiScript.Contexts

open Run Handles

inductive Party
  | a
  | b
deriving DecidableEq, Repr

/-- What the host does with one of its contexts. Handles are numbered for each
context in the order of their `BeginCall`. -/
inductive ContextEvent
  | create
  | setLogger (logger : Option Nat)
  | registerFunction (desc : FunctionDesc)
  | executeString (string : Bytes)
  | begin (name : Bytes)
  | push (h : Nat) (p : Push)
  | endCall (h : Nat)
  | pop (h : Nat) (p : Pop)
  | release (h : Nat)
deriving DecidableEq, Repr

/-- The same, on the handle itself. -/
inductive Op (H : Type)
  | create
  | setLogger (logger : Option Nat)
  | registerFunction (desc : FunctionDesc)
  | executeString (string : Bytes)
  | begin (name : Bytes)
  | push (st : H) (p : Push)
  | endCall (st : H)
  | pop (st : H) (p : Pop)
  | release (st : H)

inductive Result
  | done
  | answered (ok : Bool)
  | popped (a : Answer)
deriving DecidableEq, Repr

/-- An operation answers a result, and the handle as it is afterwards. -/
structure ContextLanguage (S H : Type) where
  op : Party → Op H → S → Except Fault ((Result × Option H) × S)

/-- The handles a host has on one context. -/
structure HandleTable (H : Type) where
  next : Nat
  handle : Nat → Option H

structure Process (S H : Type) where
  s : S
  handles : Party → HandleTable H

variable {S H C G F V : Type}

/-- The operation an event stands for; `none` where its handle is deleted. -/
def HandleTable.resolve (t : HandleTable H) : ContextEvent → Option (Op H)
  | .create => some .create
  | .setLogger logger => some (.setLogger logger)
  | .registerFunction desc => some (.registerFunction desc)
  | .executeString string => some (.executeString string)
  | .begin name => some (.begin name)
  | .push h p => (t.handle h).map fun st => .push st p
  | .endCall h => (t.handle h).map .endCall
  | .pop h p => (t.handle h).map fun st => .pop st p
  | .release h => (t.handle h).map .release

def HandleTable.set (t : HandleTable H) (h : Nat) (st : Option H) : HandleTable H :=
  { t with handle := Function.update t.handle h st }

/-- What an event makes of the handles. -/
def HandleTable.store (t : HandleTable H) (st : Option H) : ContextEvent → HandleTable H
  | .begin _ =>
    match st with
    | some _ => { t.set t.next st with next := t.next + 1 }
    | none => t
  | .push h _ => t.set h st
  | .endCall h => t.set h st
  | .pop h _ => t.set h st
  | .release h => t.set h none
  | _ => t

def step (lang : ContextLanguage S H) : Party × ContextEvent → Process S H → Except Fault (Result × Process S H)
  | (who, e), x =>
    match (x.handles who).resolve e with
    | none => .error .wildDeref
    | some op => (lang.op who op x.s).map fun r =>
      (r.1.1, { s := r.2, handles := Function.update x.handles who ((x.handles who).store r.1.2 e) })

def Process.start (s : S) : Process S H := { s, handles := fun _ => { next := 0, handle := fun _ => none } }

/-- The operations of a backend on one context. -/
structure ContextBackend (C H F V : Type) extends Backend C H F V where
  fresh : C
  setLogger : Option Nat → C → Except Fault (Unit × C)
  registerFunction : FunctionDesc → C → Except Fault (Bool × C)
  executeString : Bytes → C → Except Fault (Bool × C)

/-- An operation on a context. -/
def ContextBackend.run (b : ContextBackend C H F V) : Op H → C → Except Fault ((Result × Option H) × C)
  | .create, _ => .error .wildDeref
  | .setLogger logger, c => (b.setLogger logger c).map fun r => ((.done, none), r.2)
  | .registerFunction desc, c => (b.registerFunction desc c).map fun r => ((.answered r.1, none), r.2)
  | .executeString string, c => (b.executeString string c).map fun r => ((.answered r.1, none), r.2)
  | .begin name, c => (b.beginCall name c).map fun r => ((.answered r.1.isSome, r.1), r.2)
  | .push st p, c => (b.push st p c).map fun r => ((.answered r.1.1, some r.1.2), r.2)
  | .endCall st, c => (b.endCall st c).map fun r => ((.answered r.1.1, some r.1.2), r.2)
  | .pop st p, c => (b.pop st p c).map fun r => ((.popped r.1.1, some r.1.2), r.2)
  | .release st, c => (b.releaseAfterCall st c).map fun r => ((.done, none), r.2)

/-- The operation leaves a part of the context as it is. -/
def ContextBackend.Keeps {γ : Type} (b : ContextBackend C H F V) (part : C → γ) : Op H → C → Prop
  | .create, _ => True
  | .setLogger logger, c => @Act.Keeps C Fault Unit γ part (b.setLogger logger) c
  | .registerFunction desc, c => @Act.Keeps C Fault Bool γ part (b.registerFunction desc) c
  | .executeString string, c => @Act.Keeps C Fault Bool γ part (b.executeString string) c
  | .begin name, c => @Act.Keeps C Fault (Option H) γ part (b.beginCall name) c
  | .push st p, c => @Act.Keeps C Fault (Bool × H) γ part (b.push st p) c
  | .endCall st, c => @Act.Keeps C Fault (Bool × H) γ part (b.endCall st) c
  | .pop st p, c => @Act.Keeps C Fault (Answer × H) γ part (b.pop st p) c
  | .release st, c => @Act.Keeps C Fault Unit γ part (b.releaseAfterCall st) c

/-- Where a context has its logger, with what that has been given, and what its VM
finds outside of itself. -/
structure Layout (C G : Type) where
  log : C → Option Nat × List LogCall
  setLog : Option Nat × List LogCall → C → C
  outside : C → G
  setOutside : G → C → C
  setLog_log : ∀ c, setLog (log c) c = c
  setLog_setLog : ∀ m m' c, setLog m (setLog m' c) = setLog m c
  log_setOutside : ∀ g c, log (setOutside g c) = log c
  outside_setOutside : ∀ g c, outside (setOutside g c) = g

/-- The contexts, and what there is once in the process: the print hook, and what the
scripts of all VMs reach. `userData` is the pointer each VM has to a context. -/
structure Shared (C G : Type) where
  context : Party → Option C
  userData : Party → Option Party
  hook : Bool
  outside : G

def Shared.start (g : G) : Shared C G :=
  { context := fun _ => none, userData := fun _ => none, hook := false, outside := g }

def Shared.set (s : Shared C G) (who : Party) (c : C) : Shared C G :=
  { s with context := Function.update s.context who (some c) }

/-- `CreateContext`, once for each: it sets the print hook, and the pointer of the new VM. -/
def createContext (fresh : C) (who : Party) (s : Shared C G) : Except Fault ((Result × Option H) × Shared C G) :=
  match s.context who with
  | none => .ok ((.done, none), { s.set who fresh with
      hook := true
      userData := Function.update s.userData who (some who) })
  | some _ => .error .wildDeref

/-- What an operation leaves: the VM in its context, whose logger is `own`, and the output
in the context the VM has a pointer to. -/
def Shared.store (l : Layout C G) (s : Shared C G) (who other : Party) (own : Option Nat × List LogCall) (c : C) :
    Shared C G :=
  let s := { s.set who (l.setLog own c) with outside := l.outside c }
  match s.context other with
  | none => s
  | some d => s.set other (l.setLog (l.log c) d)

/-- An operation on the VM of a context. What scripts print goes through the hook, which
finds its context by the pointer of the VM. -/
def onVm (l : Layout C G) (b : G → ContextBackend C H F V) (who : Party) (op : Op H) (s : Shared C G) :
    Except Fault ((Result × Option H) × Shared C G) :=
  match s.context who, s.userData who with
  | some c, some other =>
    match s.context other with
    | none => .error .wildDeref
    | some d =>
      if s.hook then
        ((b s.outside).run op (l.setLog (l.log d) (l.setOutside s.outside c))).map fun r =>
          (r.1, s.store l who other (l.log c) r.2)
      else .error .nullDeref
  | _, _ => .error .nullDeref

/-- `SetLogger` is about the context alone. -/
def onLogger (b : G → ContextBackend C H F V) (who : Party) (logger : Option Nat) (s : Shared C G) :
    Except Fault ((Result × Option H) × Shared C G) :=
  match s.context who with
  | none => .error .nullDeref
  | some c => ((b s.outside).setLogger logger c).map fun r => ((.done, none), s.set who r.2)

def language (l : Layout C G) (b : G → ContextBackend C H F V) : ContextLanguage (Shared C G) H where
  op who
    | .create => fun s => createContext (b s.outside).fresh who s
    | .setLogger logger => onLogger b who logger
    | op => onVm l b who op

/-! ## Isolation -/

/-- Where a context is, the hook is set, and its VM points to it. -/
def Shared.Attached (s : Shared C G) : Prop :=
  ∀ who, (s.context who).isSome = true → s.hook = true ∧ s.userData who = some who

variable {l : Layout C G} {b : G → ContextBackend C H F V} {who : Party} {op : Op H} {s s' : Shared C G}
  {r : Result × Option H}

theorem Shared.Attached.set {c : C} (hs : s.Attached) (hc : (s.context who).isSome = true) (g : G) :
    Shared.Attached { s.set who c with outside := g } := by
  intro p hp
  by_cases he : p = who
  · exact he ▸ hs who hc
  · exact hs p (by simpa [Shared.set, he] using hp)

end MultiScript.Contexts
