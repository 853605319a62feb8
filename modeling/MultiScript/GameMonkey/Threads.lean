/-
The threads of a machine (`gmMachine.cpp`, with what `gmThread.cpp` and `gmMachineLib.cpp` do to
them): the lists they are in, the blocks they wait on, the signals that wake them, and the cycle that
executes them. What a thread computes is left open: its `Sys_Execute` is the calls it makes
until it is left. Functions of threads are script functions.
-/
import Mathlib.Data.List.Nodup

namespace MultiScript.GameMonkey.Scheduler

/-! ## The machine -/

abbrev ThreadPtr := Nat

abbrev BlockPtr := Nat

/-- `gmThread::State`, with those that a thread is left in. -/
inductive State
  | running
  | sleeping
  | blocked
  | killed
  | exception
  | sysPending
deriving DecidableEq, Repr

/-- `m_runningThreads`, `m_sleepingThreads`, `m_blockedThreads`, `m_killedThreads` and
`m_exceptionThreads`. -/
inductive ThreadList
  | running
  | sleeping
  | blocked
  | killed
  | exception
deriving DecidableEq, Repr

/-- The list for a state. -/
def State.list : State → ThreadList
  | .running => .running
  | .sleeping => .sleeping
  | .blocked => .blocked
  | .sysPending => .blocked
  | .killed => .killed
  | .exception => .exception

/-- The state that a list is for. -/
def ThreadList.state : ThreadList → State
  | .running => .running
  | .sleeping => .sleeping
  | .blocked => .blocked
  | .killed => .killed
  | .exception => .exception

/-- `GM_INVALID_THREAD`. -/
def gmInvalidThread : Nat := 0

/-- The last of `m_threadId`. -/
def intMax : Nat := 2147483647

/-- `GMMACHINE_MAXKILLEDTHREADS`. -/
def gmMachineMaxKilledThreads : Nat := 16

/-- `gmSignal`. -/
structure Signal (V : Type) where
  srcThreadId : Nat
  dstThreadId : Nat
  signal : V
deriving Repr

/-- `gmBlock`; `m_srcThreadId` is set with `m_signalled`. `m_list` is the list of `block`. -/
structure Block (V : Type) where
  signalled : Bool
  srcThreadId : Option Nat
  block : V
  thread : ThreadPtr

/-- `gmThread`; `result` is on the top of the stack, `none` for null. -/
structure Thread (V : Type) where
  id : Nat
  state : State
  timeStamp : UInt32
  startTime : UInt32
  signals : List (Signal V)
  blocks : List BlockPtr
  result : Option V

/-- `gmThread(machine)`. -/
def Thread.new {V : Type} : Thread V :=
  { id := gmInvalidThread, state := .killed, timeStamp := 0, startTime := 0, signals := [], blocks := [],
    result := none }

/-- A call of `Sys_Execute` that goes on: from the cycle of `Execute`, or from a function. -/
structure Frame where
  thread : ThreadPtr
  cycle : Bool
deriving DecidableEq, Repr

/-- `gmMachine`, with its memory and the calls of `Sys_Execute`, the innermost first. -/
structure Machine (V : Type) where
  thread : ThreadPtr → Thread V
  block : BlockPtr → Block V
  newThread : ThreadPtr
  newBlock : BlockPtr
  threads : List ThreadPtr
  lists : ThreadList → List ThreadPtr
  blocks : V → Option (List BlockPtr)
  time : UInt32
  threadId : Nat
  nextThread : Option ThreadPtr
  nextThreadValid : Bool
  executing : List Frame

variable {V : Type} [DecidableEq V]

namespace Machine

variable (m : Machine V) (p : ThreadPtr)

def setThread (f : Thread V → Thread V) : Machine V := { m with thread := Function.update m.thread p (f (m.thread p)) }

def setList (q : ThreadList) (f : List ThreadPtr → List ThreadPtr) : Machine V :=
  { m with lists := Function.update m.lists q (f (m.lists q)) }

/-- `m_threads.Find(a_threadId)`. -/
def getThread (id : Nat) : Option ThreadPtr := m.threads.find? fun p => (m.thread p).id = id

/-- `GetNext`. -/
def getNext (l : List ThreadPtr) : Option ThreadPtr := ((l.dropWhile (· ≠ p)).drop 1).head?

/-! ## Blocks and signals -/

/-- The loop of `Sys_RemoveBlocks`. -/
def removeBlock (b : BlockPtr) : Machine V :=
  match m.blocks (m.block b).block with
  | some l =>
    { m with blocks := Function.update m.blocks (m.block b).block (if l.erase b = [] then none else some (l.erase b)) }
  | none => m

def sysRemoveBlocks : Machine V :=
  ((m.thread p).blocks.foldl removeBlock m).setThread p fun t => { t with blocks := [] }

def sysRemoveSignals : Machine V := m.setThread p fun t => { t with signals := [] }

/-- `Sys_Reset`. -/
def sysReset (id : Nat) : Machine V :=
  ((m.sysRemoveBlocks p).sysRemoveSignals p).setThread p fun t =>
    { t with result := none, timeStamp := 0, startTime := 0, id := id }

/-- A block that a signal reaches: another signal for a thread that has one is kept. -/
def signalBlock (signal : V) (dst src : Nat) (b : BlockPtr) : Machine V :=
  let p := (m.block b).thread
  if (m.thread p).state = .sysPending then
    m.setThread p fun t => { t with signals := { srcThreadId := src, dstThreadId := dst, signal } :: t.signals }
  else
    { m with block := Function.update m.block b { m.block b with signalled := true, srcThreadId := some src }
      }.setThread p
      fun t => { t with state := .sysPending }

/-- The loop of `Signal`. -/
def signalLoop (signal : V) (dst src : Nat) : List BlockPtr → Machine V → Machine V
  | [], m => m
  | b :: bs, m =>
    if dst = gmInvalidThread ∨ dst = (m.thread (m.block b).thread).id then
      if dst ≠ gmInvalidThread then m.signalBlock signal dst src b
      else signalLoop signal dst src bs (m.signalBlock signal dst src b)
    else signalLoop signal dst src bs m

/-- `Signal`. -/
def signal (signal : V) (dst src : Nat) : Machine V :=
  match m.blocks signal with
  | some l => signalLoop signal dst src l m
  | none => m

/-- The loop of `Sys_Block` over the signals: which block one of them fires, and those left. -/
def useSignals (blocks : List V) : List (Signal V) → Option Nat × List (Signal V)
  | [] => (none, [])
  | s :: signals =>
    match blocks.findIdx? fun b => b = s.signal with
    | some i => (some i, signals)
    | none => useSignals blocks signals

def addBlock (b : V) : Machine V :=
  { m with
    block := Function.update m.block m.newBlock { signalled := false, srcThreadId := none, block := b, thread := p }
    newBlock := m.newBlock + 1
    blocks := Function.update m.blocks b (some (m.newBlock :: (m.blocks b).getD [])) }.setThread p
      fun t => { t with blocks := m.newBlock :: t.blocks }

/-- `Sys_Block`: which of the blocks has been signalled already. -/
def sysBlock (blocks : List V) : Option Nat × Machine V :=
  let (i, signals) := useSignals blocks (m.thread p).signals
  let m := m.setThread p fun t => { t with signals }
  match i with
  | some i => (some i, m)
  | none => (none, blocks.foldl (fun m b => m.addBlock p b) m)

/-! ## States -/

/-- A thread leaves the list that it is in. -/
def leave : Machine V :=
  match (m.thread p).state with
  | .running =>
    { m.sysRemoveSignals p with
      nextThread := if m.nextThread = some p then getNext p (m.lists .running)
        else m.nextThread }.setList .running (·.erase p)
  | .blocked => (m.sysRemoveBlocks p).setList .blocked (·.erase p)
  | .sysPending => (m.sysRemoveBlocks p).setList .blocked (·.erase p)
  | .sleeping => m.setList .sleeping (·.erase p)
  | .killed => m.setList .killed (·.erase p)
  | .exception => m.setList .exception (·.erase p)

/-- Before the first thread that wakes up later. -/
def insertSleeping (l : List ThreadPtr) : List ThreadPtr :=
  match l with
  | [] => [p]
  | it :: l => if (m.thread p).timeStamp < (m.thread it).timeStamp then p :: it :: l else it :: insertSleeping l

/-- A killed thread is kept to be used again, where there are not too many. -/
def kill : Machine V :=
  let m := m.setThread p fun t => { t with state := .killed }
  let m := { m with threads := m.threads.erase p }.sysReset p 0
  if (m.lists .killed).length < gmMachineMaxKilledThreads then m.setList .killed (p :: ·) else m

/-- A thread comes into the list of its new state. -/
def enter (q : ThreadList) : Machine V :=
  match q with
  | .running => (m.setList .running (· ++ [p])).setThread p fun t => { t with state := .running }
  | .blocked => (m.setList .blocked (p :: ·)).setThread p fun t => { t with state := .blocked }
  | .exception => (m.setList .exception (p :: ·)).setThread p fun t => { t with state := .exception }
  | .sleeping => (m.setList .sleeping (m.insertSleeping p)).setThread p fun t => { t with state := .sleeping }
  | .killed => m.kill p

/-- `Sys_SwitchState`. -/
def sysSwitchState (q : ThreadList) : Machine V :=
  if (m.thread p).state = q.state then m else (m.leave p).enter p q

/-! ## Threads -/

/-- The loop of `GetThreadId`; one of so many ids is free. -/
def getThreadIdLoop : Nat → Nat → Nat
  | 0, id => id
  | n + 1, id => if (m.getThread id).isSome then getThreadIdLoop n (id + 1) else id

/-- `GetThreadId`. -/
def getThreadId : Nat := m.getThreadIdLoop (m.threads.length + 1) (m.threadId + 1)

/-- A thread out of those that were killed, or a new one. -/
def allocThread : ThreadPtr × Machine V :=
  match m.lists .killed with
  | p :: ps => (p, m.setList .killed fun _ => ps)
  | [] => (m.newThread, { m with newThread := m.newThread + 1, thread := Function.update m.thread m.newThread .new })

/-- `CreateThread`. -/
def createThread : Machine V :=
  let (p, m) := m.allocThread
  let id := m.getThreadId
  let m := { m with threadId := id }.sysReset p id
  let m := { m with threads := p :: m.threads }.setThread p fun t => { t with startTime := m.time }
  let m := m.enter p .running
  -- inserted last, where the cycle may have been at the last one
  if m.nextThreadValid = true ∧ m.nextThread = none then { m with nextThread := some p } else m

/-- `KillThread`. -/
def killThread (id : Nat) : Machine V :=
  match m.getThread id with
  | some p => m.sysSwitchState p .killed
  | none => m

/-- `KillExceptionThreads`, from the last one on. -/
def killExceptionThreads : Machine V := (m.lists .exception).foldr (fun p m => m.sysSwitchState p .killed) m

/-- `threadIterKill`. -/
def threadIterKill (caller : ThreadPtr) : Machine V :=
  if p = caller then m
  else
    match (m.thread p).state with
    | .running => m.sysSwitchState p .killed
    | .sleeping => m.sysSwitchState p .killed
    | .blocked => m.sysSwitchState p .killed
    | _ => m

/-- `ForEachThread`, for a function that takes at most its thread out of its list. -/
def forEachThread (f : Machine V → ThreadPtr → Machine V) : Machine V :=
  [ThreadList.running, .blocked, .sleeping, .exception].foldl (fun m q => (m.lists q).foldl f m) m

/-- `gmSetStateOnThread`, and `gmSetState` for the thread itself: it starts again in another function. -/
def restart : Machine V := (m.sysReset p (m.thread p).id).setThread p fun t => { t with startTime := m.time }

/-! ## The cycle -/

/-- The loop that wakes up sleeping threads. -/
def wakeSleeping : List ThreadPtr → Machine V → Machine V
  | [], m => m
  | p :: ps, m => if (m.thread p).timeStamp ≤ m.time then wakeSleeping ps (m.sysSwitchState p .running) else m

/-- The block that was signalled. -/
def signalledBlock : Option BlockPtr := (m.thread p).blocks.find? fun b => (m.block b).signalled

/-- A thread with a signal goes on, with what it was signalled. -/
def wakePending : Machine V :=
  if (m.thread p).state = .sysPending then
    (m.setThread p fun t => { t with result := (m.signalledBlock p).map fun b => (m.block b).block }).sysSwitchState
      p .running
  else m

/-- The next thread of the cycle, if there is one. -/
def cycle : Option ThreadPtr × Machine V :=
  match m.nextThread with
  | some p =>
    (some p, { m with
      nextThread := getNext p (m.lists .running)
      executing := { thread := p, cycle := true } :: m.executing })
  | none => (none, { m with nextThreadValid := false })

/-- `Execute`, to the first thread. -/
def execute (delta : UInt32) : Option ThreadPtr × Machine V :=
  let m := { m with time := m.time + delta }
  let m := wakeSleeping (m.lists .sleeping) m
  let m := (m.lists .blocked).foldl wakePending m
  { m with nextThreadValid := true, nextThread := (m.lists .running).head? }.cycle

/-- `Sys_Execute` is left. -/
def sysReturn : Option ThreadPtr × Machine V :=
  match m.executing with
  | [] => (none, m)
  | f :: fs => if f.cycle then { m with executing := fs }.cycle else (none, { m with executing := fs })

end Machine

/-! ## Events -/

/-- What a program does with a machine, and what the thread does that is executed. `gmBlock`
without parameters and `gmSetStateOnThread` of the thread itself are exceptions. -/
inductive Event (V : Type)
  | createThread
  | killThread (id : Nat)
  | signal (signal : V) (dst src : Nat)
  | killExceptionThreads
  | execute (delta : UInt32)
  | sysExecute (p : ThreadPtr)
  | gmBlock (block : V) (blocks : List V)
  | gmSleep (ms : UInt32)
  | gmYield
  | gmExit
  | exception (debugged : Bool)
  | gmKillThread (id : Nat)
  | gmKillAllThreads (killCurrent : Bool)
  | gmSetState
  | gmSetStateOnThread (id : Nat)
deriving Repr

/-- What the machine does not provide for. -/
inductive Fault
  | idOverflow
  | reentered
  | notRunning
  /-- It is not safe to kill a thread whose `Sys_Execute` goes on. -/
  | executing
  | noThread
deriving DecidableEq, Repr

namespace Machine

/-- No call of `Sys_Execute` for the thread goes on. -/
def Idle (m : Machine V) (p : ThreadPtr) : Prop := ∀ f ∈ m.executing, f.thread ≠ p

instance (m : Machine V) (p : ThreadPtr) : Decidable (m.Idle p) :=
  inferInstanceAs (Decidable (∀ f ∈ m.executing, f.thread ≠ p))

/-- The thread that has the id, if there is one, is not executed. -/
def IdleId (m : Machine V) (id : Nat) : Prop := ∀ p ∈ m.getThread id, m.Idle p

instance (m : Machine V) (id : Nat) : Decidable (m.IdleId id) :=
  inferInstanceAs (Decidable (∀ p ∈ m.getThread id, m.Idle p))

abbrev Step (V : Type) := Except Fault (Option ThreadPtr × Machine V)

/-- What the thread `p` does that is executed; behind its call there are others where `nested`. -/
def perform (m : Machine V) (p : ThreadPtr) (nested : Bool) : Event V → Step V
  | .gmBlock block blocks =>
    match m.sysBlock p (block :: blocks) with
    | (some i, m) => .ok (none, m.setThread p fun t => { t with result := (block :: blocks)[i]? })
    | (none, m) => .ok ((m.setThread p fun t => { t with result := none }).sysSwitchState p .blocked).sysReturn
  | .gmSleep ms =>
      .ok ((m.setThread p fun t => { t with timeStamp := m.time + ms }).sysSwitchState p .sleeping).sysReturn
  | .gmYield => .ok (m.sysRemoveSignals p).sysReturn
  | .gmExit => .ok (m.sysSwitchState p .killed).sysReturn
  | .exception debugged => .ok (m.sysSwitchState p (if debugged then .exception else .killed)).sysReturn
  | .gmKillThread id =>
    if id = gmInvalidThread ∨ id = (m.thread p).id then .ok (m.sysSwitchState p .killed).sysReturn
    else if m.IdleId id then .ok (none, m.killThread id)
    else .error .executing
  | .gmKillAllThreads killCurrent =>
    if nested then .error .executing
    else
      let m := m.forEachThread fun m q => m.threadIterKill q p
      if killCurrent then .ok (m.sysSwitchState p .killed).sysReturn else .ok (none, m)
  | .gmSetState => .ok (none, m.restart p)
  | .gmSetStateOnThread id =>
    match m.getThread id with
    | none => .ok (none, m)
    | some q => if m.Idle q then .ok (none, (m.restart q).sysSwitchState q .running) else .error .executing
  | _ => .error .noThread

/-- What the thread does whose call is the innermost. -/
def innermost (m : Machine V) (e : Event V) : Step V :=
  match m.executing with
  | f :: fs => m.perform f.thread (!fs.isEmpty) e
  | [] => .error .noThread

/-- One step of a machine; the answer is the thread that its cycle comes to. -/
def step (e : Event V) (m : Machine V) : Step V :=
  match e with
  | .createThread => if m.getThreadId ≤ intMax then .ok (none, m.createThread) else .error .idOverflow
  | .killThread id => if m.IdleId id then .ok (none, m.killThread id) else .error .executing
  | .signal signal dst src => .ok (none, m.signal signal dst src)
  | .killExceptionThreads => .ok (none, m.killExceptionThreads)
  | .execute delta => if m.executing = [] then .ok (m.execute delta) else .error .reentered
  | .sysExecute p =>
    if p ∈ m.lists .running ∧ m.Idle p
      then .ok (none, { m with executing := { thread := p, cycle := false } :: m.executing })
    else .error .notRunning
  | e => m.innermost e

end Machine

end MultiScript.GameMonkey.Scheduler
