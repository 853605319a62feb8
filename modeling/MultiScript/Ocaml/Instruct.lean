/-
One instruction of the OCaml bytecode interpreter: `interp.c` of the vendored
runtime, 32-bit build. A value is a word, and code, stack and heap lie in one
memory of words. What the collector, the stack check and the instructions on
floats, strings, method tables, signals and debugger events do is a parameter.
-/
import MultiScript.Interface
import Mathlib.Logic.Function.Basic

namespace MultiScript.Ocaml

/-! ## Words and values (`mlvalues.h`) -/

abbrev Word := BitVec 32

def valLong (n : Word) : Word := (n <<< 1) + 1
def longVal (v : Word) : Word := v.sshiftRight 1

def valUnit : Word := valLong 0
def valFalse : Word := valLong 0
def valTrue : Word := valLong 1
def valBool (b : Bool) : Word := if b then valTrue else valFalse
def valNot (v : Word) : Word := valFalse + valTrue - v

def makeExceptionResult (v : Word) : Word := v ||| 2
def isExceptionResult (v : Word) : Bool := v &&& 3 == 2

def isBlock (v : Word) : Bool := v &&& 1 == 0
def wosizeHd (hd : Word) : Word := hd >>> 10
def tagHd (hd : Word) : Word := hd &&& 0xFF
def makeHeader (wosize tag : Word) : Word := (wosize <<< 10) + tag

def infixTag : Word := 249
def closureTag : Word := 247
def doubleArrayTag : Word := 254

def zeroDivideExn : Word := 5

/-! ## The instruction set (`instruct.h`) -/

/-- The enumeration, with the members that differ by a number as one. -/
inductive Opcode
  | accN (n : Nat) | acc | push | pushaccN (n : Nat) | pushacc | pop | assign
  | envaccN (n : Nat) | envacc | pushenvaccN (n : Nat) | pushenvacc
  | pushRetaddr | apply | applyN (n : Nat) | appterm | apptermN (n : Nat) | return | restart | grab
  | closure | closurerec
  | offsetclosureN (n : Int) | offsetclosure | pushoffsetclosureN (n : Int) | pushoffsetclosure
  | getglobal | pushgetglobal | getglobalfield | pushgetglobalfield | setglobal
  | atom0 | atom | pushatom0 | pushatom
  | makeblock | makeblockN (n : Nat) | makefloatblock
  | getfieldN (n : Nat) | getfield | getfloatfield | setfieldN (n : Nat) | setfield | setfloatfield
  | vectlength | getvectitem | setvectitem | getstringchar | setstringchar
  | branch | branchif | branchifnot | switch | boolnot
  | pushtrap | poptrap | raise | checkSignals
  | cCallN (n : Nat) | cCalln
  | constN (n : Nat) | constint | pushconstN (n : Nat) | pushconstint
  | negint | addint | subint | mulint | divint | modint | andint | orint | xorint | lslint | lsrint | asrint
  | eq | neq | ltint | leint | gtint | geint | offsetint | offsetref | isint | getmethod
  | beq | bneq | bltint | bleint | bgtint | bgeint | ultint | ugeint | bultint | bugeint
  | getpubmet | getdynmet | stop | event | break
deriving DecidableEq, Repr

/-- The members in order, so that the word of an instruction is its index. -/
def opcodes : List Opcode := List.flatten [
  (List.range 8).map .accN, [.acc, .push], (List.range 8).map .pushaccN, [.pushacc, .pop, .assign],
  [.envaccN 1, .envaccN 2, .envaccN 3, .envaccN 4, .envacc],
  [.pushenvaccN 1, .pushenvaccN 2, .pushenvaccN 3, .pushenvaccN 4, .pushenvacc],
  [.pushRetaddr, .apply, .applyN 1, .applyN 2, .applyN 3, .appterm, .apptermN 1, .apptermN 2, .apptermN 3],
  [.return, .restart, .grab, .closure, .closurerec],
  [.offsetclosureN (-2), .offsetclosureN 0, .offsetclosureN 2, .offsetclosure],
  [.pushoffsetclosureN (-2), .pushoffsetclosureN 0, .pushoffsetclosureN 2, .pushoffsetclosure],
  [.getglobal, .pushgetglobal, .getglobalfield, .pushgetglobalfield, .setglobal],
  [.atom0, .atom, .pushatom0, .pushatom],
  [.makeblock, .makeblockN 1, .makeblockN 2, .makeblockN 3, .makefloatblock],
  (List.range 4).map .getfieldN, [.getfield, .getfloatfield],
  (List.range 4).map .setfieldN, [.setfield, .setfloatfield],
  [.vectlength, .getvectitem, .setvectitem, .getstringchar, .setstringchar],
  [.branch, .branchif, .branchifnot, .switch, .boolnot, .pushtrap, .poptrap, .raise, .checkSignals],
  [.cCallN 1, .cCallN 2, .cCallN 3, .cCallN 4, .cCallN 5, .cCalln],
  (List.range 4).map .constN, [.constint], (List.range 4).map .pushconstN, [.pushconstint],
  [.negint, .addint, .subint, .mulint, .divint, .modint],
  [.andint, .orint, .xorint, .lslint, .lsrint, .asrint],
  [.eq, .neq, .ltint, .leint, .gtint, .geint, .offsetint, .offsetref, .isint, .getmethod],
  [.beq, .bneq, .bltint, .bleint, .bgtint, .bgeint, .ultint, .ugeint, .bultint, .bugeint],
  [.getpubmet, .getdynmet, .stop, .event, .break]]

def Opcode.code (o : Opcode) : Word := BitVec.ofNat 32 (opcodes.idxOf o)

/-! ## The machine -/

/-- The three registers that stand at file level. -/
structure Regs where
  pc : Word
  sp : Word
  accu : Word
deriving DecidableEq, Repr

/-- What an instruction works on: the registers, and the locals of the activation
that runs it. -/
structure Cpu extends Regs where
  env : Word
  extraArgs : Word
deriving DecidableEq, Repr

/-- The memory, and the variables the runtime shares. -/
structure Runtime where
  mem : Word → Word
  externSp : Word
  trapsp : Word
  stackHigh : Word
  globalData : Word

/-- What comes after an instruction: the next one; a C primitive, by its index in
the table, with its arguments and the words its return drops; the end of the
activation; or the handler of the exception in `accu`. -/
inductive Outcome
  | next
  | cCall (prim : Word) (args : List Word) (drop : Word)
  | stop
  | raise
deriving DecidableEq, Repr

structure Core where
  cpu : Cpu
  rt : Runtime

abbrev Exec := StateM Core

/-- The rest of the runtime. `alloc wosize tag` allocates a block, after a
collection perhaps; `checkStacks` may move the stack, run signal handlers or
raise; `other` is what the words do that are no instruction written out here. -/
structure Vm where
  alloc : Word → Word → Exec Word
  checkStacks : Exec Outcome
  other : Word → Exec Outcome
  atom : Word → Word
  callbackCode : Word

variable (vm : Vm)

def load (a : Word) : Exec Word := do return (← get).rt.mem a

def store (a v : Word) : Exec Unit :=
  modify fun m => { m with rt := { m.rt with mem := Function.update m.rt.mem a v } }

/-- `Field(v, i)`, and with `sp` for `v` the word `sp[i]`. -/
def field (v i : Word) : Exec Word := load (v + 4 * i)

def setField (v i x : Word) : Exec Unit := store (v + 4 * i) x

def getAccu : Exec Word := do return (← get).cpu.accu
def setAccu (v : Word) : Exec Unit := modify fun m => { m with cpu := { m.cpu with accu := v } }
def getEnv : Exec Word := do return (← get).cpu.env
def setEnv (v : Word) : Exec Unit := modify fun m => { m with cpu := { m.cpu with env := v } }
def getPc : Exec Word := do return (← get).cpu.pc
def setPc (v : Word) : Exec Unit := modify fun m => { m with cpu := { m.cpu with pc := v } }
def getSp : Exec Word := do return (← get).cpu.sp
def setSp (v : Word) : Exec Unit := modify fun m => { m with cpu := { m.cpu with sp := v } }
def getExtraArgs : Exec Word := do return (← get).cpu.extraArgs
def setExtraArgs (v : Word) : Exec Unit := modify fun m => { m with cpu := { m.cpu with extraArgs := v } }
def setTrapsp (v : Word) : Exec Unit := modify fun m => { m with rt := { m.rt with trapsp := v } }
def setExternSp (v : Word) : Exec Unit := modify fun m => { m with rt := { m.rt with externSp := v } }

/-- `sp[i]`. -/
def spAt (i : Word) : Exec Word := do field (← getSp) i
def setSpAt (i v : Word) : Exec Unit := do setField (← getSp) i v

/-- `sp += n`. -/
def drop (n : Word) : Exec Unit := do setSp ((← getSp) + 4 * n)

/-- `*--sp = v`. -/
def pushWord (v : Word) : Exec Unit := do
  setSp ((← getSp) - 4)
  setSpAt 0 v

/-- `*sp++`. -/
def popWord : Exec Word := do
  let v ← spAt 0
  drop 1
  return v

/-- `*pc`, and `*pc++`. -/
def peekOperand : Exec Word := do load (← getPc)

def operand : Exec Word := do
  let n ← peekOperand
  setPc ((← getPc) + 4)
  return n

/-- `pc += *pc`. -/
def branch : Exec Unit := do setPc ((← getPc) + 4 * (← peekOperand))

def skip : Exec Unit := do setPc ((← getPc) + 4)

/-- A loop bound of C's type `int`. -/
def count (n : Word) : Nat := n.toInt.toNat

def forWords (n : Nat) (body : Word → Exec Unit) : Exec Unit :=
  (List.range n).forM fun i => body (BitVec.ofNat 32 i)

/-- `pc = Code_val(accu); env = accu`. -/
def enterClosure : Exec Unit := do
  setPc (← field (← getAccu) 0)
  setEnv (← getAccu)

/-- The caller's frame: `pc`, `env` and `extra_args` from the stack. -/
def popFrame : Exec Unit := do
  setPc (← spAt 0)
  setEnv (← spAt 1)
  setExtraArgs (longVal (← spAt 2))
  drop 3

/-- `Setup_for_c_call`, `saved_pc` apart. -/
def setupForCCall : Exec Unit := do
  pushWord (← getEnv)
  setExternSp (← getSp)

/-- `accu = accu op *sp++`. -/
def binary (op : Word → Word → Word) : Exec Outcome := do
  setAccu (op (← getAccu) (← popWord))
  return .next

def compare (op : Word → Word → Bool) : Exec Outcome := binary fun a b => valBool (op a b)

/-- `if (*pc++ op Long_val(accu)) pc += *pc; else pc++`. -/
def branchCompare (op : Word → Word → Bool) : Exec Outcome := do
  if op (← operand) (longVal (← getAccu)) then branch else skip
  return .next

/-- `DIVINT` and `MODINT`: the quotient goes to C's truncating division. -/
def divide (op : Word → Word → Word) : Exec Outcome := do
  let divisor := longVal (← popWord)
  if divisor = 0 then
    setupForCCall
    let bucket ← vm.alloc 1 0
    setField bucket 0 (← field (← get).rt.globalData zeroDivideExn)
    setSp (← get).rt.externSp
    setAccu bucket
    return .raise
  else
    setAccu (valLong (op (longVal (← getAccu)) divisor))
    return .next

/-! ## The instructions -/

def acc (n : Word) : Exec Unit := do setAccu (← spAt n)
def envacc (n : Word) : Exec Unit := do setAccu (← field (← getEnv) n)
def pushAccu : Exec Unit := do pushWord (← getAccu)
def offsetclosure (n : Word) : Exec Unit := do setAccu ((← getEnv) + 4 * n)
def getglobal : Exec Unit := do setAccu (← field (← get).rt.globalData (← operand))

def getglobalfield : Exec Unit := do
  getglobal
  setAccu (← field (← getAccu) (← operand))

/-- `APPLY1` to `APPLY3`: the frame goes under the arguments. -/
def applyN (n : Nat) : Exec Outcome := do
  let args ← (List.range n).mapM fun i => spAt (BitVec.ofNat 32 i)
  setSp ((← getSp) - 12)
  forWords n fun i => setSpAt i (args.getD i.toNat 0)
  setSpAt (BitVec.ofNat 32 n) (← getPc)
  setSpAt (BitVec.ofNat 32 (n + 1)) (← getEnv)
  setSpAt (BitVec.ofNat 32 (n + 2)) (valLong (← getExtraArgs))
  enterClosure
  setExtraArgs (BitVec.ofNat 32 (n - 1))
  vm.checkStacks

/-- `APPTERM` slides the arguments up, the last of them first. -/
def appterm (nargs slotsize : Word) : Exec Outcome := do
  let sp ← getSp
  let newsp := sp + 4 * (slotsize - nargs)
  (List.range (count nargs)).reverse.forM fun i => do
    setField newsp (BitVec.ofNat 32 i) (← field sp (BitVec.ofNat 32 i))
  setSp newsp
  enterClosure
  setExtraArgs ((← getExtraArgs) + nargs - 1)
  vm.checkStacks

def apptermN (n : Nat) : Exec Outcome := do
  let args ← (List.range n).mapM fun i => spAt (BitVec.ofNat 32 i)
  setSp ((← getSp) + 4 * ((← peekOperand) - BitVec.ofNat 32 n))
  forWords n fun i => setSpAt i (args.getD i.toNat 0)
  enterClosure
  setExtraArgs ((← getExtraArgs) + BitVec.ofNat 32 (n - 1))
  vm.checkStacks

def grab : Exec Outcome := do
  let required ← operand
  let extraArgs ← getExtraArgs
  if required.sle extraArgs then
    setExtraArgs (extraArgs - required)
  else
    let numArgs := 1 + extraArgs
    setAccu (← vm.alloc (numArgs + 2) closureTag)
    setField (← getAccu) 1 (← getEnv)
    forWords (count numArgs) fun i => do setField (← getAccu) (i + 2) (← spAt i)
    -- the RESTART before this GRAB
    setField (← getAccu) 0 ((← getPc) - 12)
    drop numArgs
    popFrame
  return .next

def restart : Exec Outcome := do
  let env ← getEnv
  let numArgs := wosizeHd (← field env (-1)) - 2
  setSp ((← getSp) - 4 * numArgs)
  forWords (count numArgs) fun i => do setSpAt i (← field env (i + 2))
  setEnv (← field env 1)
  setExtraArgs ((← getExtraArgs) + numArgs)
  return .next

def closure : Exec Outcome := do
  let nvars ← operand
  if (0 : Word).slt nvars then pushAccu
  setAccu (← vm.alloc (1 + nvars) closureTag)
  setField (← getAccu) 0 ((← getPc) + 4 * (← peekOperand))
  skip
  forWords (count nvars) fun i => do setField (← getAccu) (i + 1) (← spAt i)
  drop nvars
  return .next

def closurerec : Exec Outcome := do
  let nfuncs ← operand
  let nvars ← operand
  if (0 : Word).slt nvars then pushAccu
  setAccu (← vm.alloc (nfuncs * 2 - 1 + nvars) closureTag)
  let block ← getAccu
  let pc ← getPc
  forWords (count nvars) fun i => do setField block (nfuncs * 2 - 1 + i) (← spAt i)
  drop nvars
  setField block 0 (pc + 4 * (← load pc))
  pushWord block
  forWords (count nfuncs - 1) fun i => do
    let k := i + 1
    setField block (2 * k - 1) (makeHeader (2 * k) infixTag)
    setField block (2 * k) (pc + 4 * (← load (pc + 4 * k)))
    pushWord (block + 4 * (2 * k))
  setPc (pc + 4 * nfuncs)
  return .next

def makeblock (wosize tag : Word) : Exec Outcome := do
  let block ← vm.alloc wosize tag
  setField block 0 (← getAccu)
  forWords (count wosize - 1) fun i => do setField block (i + 1) (← popWord)
  setAccu block
  return .next

def setfield (n : Word) : Exec Outcome := do
  setField (← getAccu) n (← popWord)
  setAccu valUnit
  return .next

/-- The entry of the jump table: those of the integers come before those of the
blocks. -/
def switchIndex (sizes accu : Word) : Exec Word :=
  if isBlock accu then do return (sizes &&& 0xFFFF) + tagHd (← field accu (-1))
  else return longVal accu

def switch : Exec Outcome := do
  let sizes ← operand
  let index ← switchIndex sizes (← getAccu)
  let pc ← getPc
  setPc (pc + 4 * (← load (pc + 4 * index)))
  return .next

def pushtrap : Exec Outcome := do
  setSp ((← getSp) - 16)
  setSpAt 0 ((← getPc) + 4 * (← peekOperand))
  setSpAt 1 (← get).rt.trapsp
  setSpAt 2 (← getEnv)
  setSpAt 3 (valLong (← getExtraArgs))
  setTrapsp (← getSp)
  skip
  return .next

/-- `C_CALL1` to `C_CALL5`. The return drops the arguments that are on the stack. -/
def cCallN (n : Nat) : Exec Outcome := do
  setupForCCall
  let rest ← (List.range (n - 1)).mapM fun i => spAt (BitVec.ofNat 32 (i + 1))
  return .cCall (← peekOperand) ((← getAccu) :: rest) (BitVec.ofNat 32 (n - 1))

def cCalln : Exec Outcome := do
  let nargs ← operand
  pushAccu
  setupForCCall
  let args ← (List.range (count nargs)).mapM fun i => spAt (BitVec.ofNat 32 (i + 1))
  return .cCall (← peekOperand) args nargs

def exec : Opcode → Exec Outcome
  | .accN n => do acc (BitVec.ofNat 32 n); return .next
  | .acc => do acc (← operand); return .next
  | .push => do pushAccu; return .next
  | .pushaccN n => do pushAccu; acc (BitVec.ofNat 32 n); return .next
  | .pushacc => do pushAccu; acc (← operand); return .next
  | .pop => do drop (← operand); return .next
  | .assign => do setSpAt (← operand) (← getAccu); setAccu valUnit; return .next
  | .envaccN n => do envacc (BitVec.ofNat 32 n); return .next
  | .envacc => do envacc (← operand); return .next
  | .pushenvaccN n => do pushAccu; envacc (BitVec.ofNat 32 n); return .next
  | .pushenvacc => do pushAccu; envacc (← operand); return .next
  | .pushRetaddr => do
    setSp ((← getSp) - 12)
    setSpAt 0 ((← getPc) + 4 * (← peekOperand))
    setSpAt 1 (← getEnv)
    setSpAt 2 (valLong (← getExtraArgs))
    skip
    return .next
  | .apply => do
    setExtraArgs ((← peekOperand) - 1)
    enterClosure
    vm.checkStacks
  | .applyN n => applyN vm n
  | .appterm => do appterm vm (← operand) (← peekOperand)
  | .apptermN n => apptermN vm n
  | .return => do
    drop (← operand)
    let extraArgs ← getExtraArgs
    if (0 : Word).slt extraArgs then
      setExtraArgs (extraArgs - 1)
      enterClosure
    else popFrame
    return .next
  | .restart => restart
  | .grab => grab vm
  | .closure => closure vm
  | .closurerec => closurerec vm
  | .offsetclosureN n => do offsetclosure (BitVec.ofInt 32 n); return .next
  | .offsetclosure => do offsetclosure (← operand); return .next
  | .pushoffsetclosureN n => do pushAccu; offsetclosure (BitVec.ofInt 32 n); return .next
  | .pushoffsetclosure => do pushAccu; offsetclosure (← operand); return .next
  | .getglobal => do getglobal; return .next
  | .pushgetglobal => do pushAccu; getglobal; return .next
  | .getglobalfield => do getglobalfield; return .next
  | .pushgetglobalfield => do pushAccu; getglobalfield; return .next
  | .setglobal => do
    setField (← get).rt.globalData (← operand) (← getAccu)
    setAccu valUnit
    return .next
  | .atom0 => do setAccu (vm.atom 0); return .next
  | .atom => do setAccu (vm.atom (← operand)); return .next
  | .pushatom0 => do pushAccu; setAccu (vm.atom 0); return .next
  | .pushatom => do pushAccu; setAccu (vm.atom (← operand)); return .next
  | .makeblock => do makeblock vm (← operand) (← operand)
  | .makeblockN n => do makeblock vm (BitVec.ofNat 32 n) (← operand)
  | .getfieldN n => do setAccu (← field (← getAccu) (BitVec.ofNat 32 n)); return .next
  | .getfield => do setAccu (← field (← getAccu) (← operand)); return .next
  | .setfieldN n => setfield (BitVec.ofNat 32 n)
  | .setfield => do setfield (← operand)
  | .vectlength => do
    let hd ← field (← getAccu) (-1)
    setAccu (valLong (if tagHd hd = doubleArrayTag then wosizeHd hd >>> 1 else wosizeHd hd))
    return .next
  | .getvectitem => do setAccu (← field (← getAccu) (longVal (← popWord))); return .next
  | .setvectitem => do
    setField (← getAccu) (longVal (← spAt 0)) (← spAt 1)
    drop 2
    setAccu valUnit
    return .next
  | .branch => do branch; return .next
  | .branchif => do
    if (← getAccu) ≠ valFalse then branch else skip
    return .next
  | .branchifnot => do
    if (← getAccu) = valFalse then branch else skip
    return .next
  | .switch => switch
  | .boolnot => do setAccu (valNot (← getAccu)); return .next
  | .pushtrap => pushtrap
  -- no signal is waiting for it
  | .poptrap => do setTrapsp (← spAt 1); drop 4; return .next
  | .raise => return .raise
  | .cCallN n => cCallN n
  | .cCalln => cCalln
  | .constN n => do setAccu (valLong (BitVec.ofNat 32 n)); return .next
  | .constint => do setAccu (valLong (← operand)); return .next
  | .pushconstN n => do pushAccu; setAccu (valLong (BitVec.ofNat 32 n)); return .next
  | .pushconstint => do pushAccu; setAccu (valLong (← operand)); return .next
  | .negint => do setAccu (2 - (← getAccu)); return .next
  | .addint => binary fun a b => a + b - 1
  | .subint => binary fun a b => a - b + 1
  | .mulint => binary fun a b => valLong (longVal a * longVal b)
  | .divint => divide vm BitVec.sdiv
  | .modint => divide vm BitVec.srem
  | .andint => binary (· &&& ·)
  | .orint => binary (· ||| ·)
  | .xorint => binary fun a b => (a ^^^ b) ||| 1
  | .lslint => binary fun a b => ((a - 1) <<< (longVal b).toNat) + 1
  | .lsrint => binary fun a b => ((a - 1) >>> (longVal b).toNat) ||| 1
  | .asrint => binary fun a b => ((a - 1).sshiftRight (longVal b).toNat) ||| 1
  | .eq => compare (· == ·)
  | .neq => compare (· != ·)
  | .ltint => compare BitVec.slt
  | .leint => compare BitVec.sle
  | .gtint => compare fun a b => b.slt a
  | .geint => compare fun a b => b.sle a
  | .ultint => compare BitVec.ult
  | .ugeint => compare fun a b => b.ule a
  | .beq => branchCompare (· == ·)
  | .bneq => branchCompare (· != ·)
  | .bltint => branchCompare BitVec.slt
  | .bleint => branchCompare BitVec.sle
  | .bgtint => branchCompare fun a b => b.slt a
  | .bgeint => branchCompare fun a b => b.sle a
  | .bultint => branchCompare BitVec.ult
  | .bugeint => branchCompare fun a b => b.ule a
  | .offsetint => do setAccu ((← getAccu) + (← operand) <<< 1); return .next
  | .offsetref => do
    let accu ← getAccu
    setField accu 0 ((← field accu 0) + (← operand) <<< 1)
    setAccu valUnit
    return .next
  | .isint => do setAccu (valLong ((← getAccu) &&& 1)); return .next
  | .getmethod => do setAccu (← field (← field (← spAt 0) 0) (longVal (← getAccu))); return .next
  | .stop => return .stop
  | op => vm.other op.code

/-- `curr_instr = *pc++` and its dispatch. -/
def instruction : Exec Outcome := do
  let word ← operand
  match opcodes[word.toNat]? with
  | some op => exec vm op
  | none => vm.other word

end MultiScript.Ocaml
