/-
The lexer of Squirrel 2 (`sqlexer.cpp`), over any read function. An error leaves by the
`longjmp` of `SQCompiler::Error`: it stops all of the compilation, and the lexer and the
reader stay as they are then. A loop is given a number of turns.
-/
import MultiScript.StringObjects
import MultiScript.Lib.Loop

namespace MultiScript.Squirrel

open Loop

/-! ## The C library -/

/-- The character of a byte. -/
def chr (c : UInt8) : Char := Char.ofUInt8 c

def isdigit (c : UInt8) : Bool := (chr c).isDigit

def isxdigit (c : UInt8) : Bool :=
  (chr c).isDigit || ('a' ≤ chr c && chr c ≤ 'f') || ('A' ≤ chr c && chr c ≤ 'F')

/-- What the locale decides. In none is NUL a letter. -/
structure CLocale where
  isalpha : UInt8 → Bool
  iscntrl : UInt8 → Bool
  toupper : UInt8 → UInt8
  strtod : Bytes → FloatValue
  isalpha_nul : isalpha 0 = false
  toupper_nul : toupper 0 = 0

def CLocale.isalnum (locale : CLocale) (c : UInt8) : Bool := locale.isalpha c || isdigit c

/-! ## Tokens -/

namespace Token

def identifier : Int := 258
def stringLiteral : Int := 259
def integer : Int := 260
def float : Int := 261
def eq : Int := 264
def ne : Int := 265
def le : Int := 266
def ge : Int := 267
def and : Int := 270
def or : Int := 271
def newslot : Int := 281
def pluseq : Int := 289
def minuseq : Int := 290
def shiftl : Int := 296
def shiftr : Int := 297
def doubleColon : Int := 299
def plusplus : Int := 303
def minusminus : Int := 304
def ushiftr : Int := 306
def constructor : Int := 310
def varparams : Int := 312
def muleq : Int := 317
def diveq : Int := 318
def modeq : Int := 319
def attrOpen : Int := 320
def attrClose : Int := 321

end Token

/-- `_keywords`. -/
def keywords : List (Bytes × Int) :=
  [("while", 274), ("do", 277), ("if", 272), ("else", 273), ("break", 275), ("continue", 291),
    ("return", 286), ("null", 278),
    ("function", 285), ("local", 283), ("for", 276), ("foreach", 279), ("in", 280), ("typeof", 287), ("delegate", 262),
    ("delete", 263), ("try", 293), ("catch", 294), ("throw", 295), ("clone", 284), ("yield", 292), ("resume", 298),
    ("switch", 268), ("case", 300), ("default", 301), ("this", 302), ("parent", 305), ("class", 307), ("extends", 308),
    ("constructor", Token.constructor), ("instanceof", 311), ("vargc", 313), ("vargv", 314),
    ("true", 315), ("false", 316),
    ("static", 322)].map fun k => (cstr k.1, k.2)

/-- `GetIDType`. -/
def getIDType (s : Bytes) : Int := (keywords.lookup (cString s)).getD Token.identifier

/-! ## The state -/

/-- `SQUIRREL_EOB`. -/
def squirrelEob : UInt8 := 0

/-- `MAX_CHAR`. -/
def maxChar : Int := 0xFF

/-- The cast to `LexChar`. -/
def lexChar (t : Int) : UInt8 := UInt8.ofInt t

/-- `svalue` is the memory from where `_svalue` points on. -/
structure SQLexer where
  curtoken : Int
  prevtoken : Int
  currentline : Int
  lasttokenline : Int
  currentcolumn : Int
  svalue : Bytes
  nvalue : Int
  fvalue : FloatValue
  currdata : UInt8
  longstr : Bytes
deriving DecidableEq, Repr

/-- The lexer, and what `_up` points to. -/
structure Lexing (R : Type) where
  lexer : SQLexer
  reader : R

/-- How the lexer fails to return. -/
inductive LexStop
  /-- `SQLexer::Error`. -/
  | error (err : String)
  | fault (f : Fault)
  /-- A loop needs more turns than it is given. -/
  | turns
deriving DecidableEq, Repr

/-- `_readf`, and what else a compilation is given. -/
structure LexSource (R : Type) where
  readf : StateT R (Except (Fault × R)) Int
  locale : CLocale
  turns : Nat

abbrev LexM (R α : Type) := StateT (Lexing R) (Except (LexStop × Lexing R)) α

namespace SQLexer

variable {R α : Type}

def error (err : String) : LexM R α := fun s => .error (.error err, s)
def fault (f : Fault) : LexM R α := fun s => .error (.fault f, s)
def outOfTurns : LexM R α := fun s => .error (.turns, s)

/-- `CUR_CHAR`. -/
def curChar : LexM R UInt8 := do return (← get).lexer.currdata
def getLongstr : LexM R Bytes := do return (← get).lexer.longstr
def setLexer (f : SQLexer → SQLexer) : LexM R Unit := modify fun s => { s with lexer := f s.lexer }

/-- `INIT_TEMP_STRING`. -/
def initTempString : LexM R Unit := setLexer fun l => { l with longstr := [] }

/-- `APPEND_CHAR`, and `TERMINATE_BUFFER` with a NUL. -/
def appendChar (c : UInt8) : LexM R Unit := setLexer fun l => { l with longstr := l.longstr ++ [c] }

/-- `RETURN_TOKEN` in the loop of `Lex`. -/
def returnToken (t : Int) : LexM R (Unit ⊕ Int) := do
  setLexer fun l => { l with prevtoken := l.curtoken, curtoken := t }
  return .inr t

variable (src : LexSource R)

def readf : LexM R Int := fun s =>
  match src.readf s.reader with
  | .ok (t, reader) => .ok (t, { s with reader })
  | .error (f, reader) => .error (.fault f, { s with reader })

/-- `SQLexer::Next`. -/
def next : LexM R Unit := do
  let t ← readf src
  if t > maxChar then error "Invalid character"
  else setLexer fun l => { l with currdata := if t ≠ 0 then lexChar t else squirrelEob }

/-- `NEXT()`. -/
def nextColumn : LexM R Unit := do
  next src
  setLexer fun l => { l with currentcolumn := l.currentcolumn + 1 }

def newline : LexM R Unit := setLexer fun l => { l with currentline := l.currentline + 1 }

/-- `SQLexer::Init`. The constructor sets nothing, and this not all. -/
def init : LexM R Unit := do
  setLexer fun l => { l with lasttokenline := 1, currentline := 1, currentcolumn := 0, prevtoken := -1 }
  next src

/-! ## Comments -/

def lexBlockComment : LexM R Unit :=
  loopM outOfTurns (fun _ => do
    match chr (← curChar) with
    | '*' => do
      nextColumn src
      if chr (← curChar) = '/' then do
        nextColumn src
        return .inr ()
      else return .inl ()
    | '\n' => do
      newline
      nextColumn src
      return .inl ()
    | '\x00' => error "missing \"*/\" in comment"
    | _ => do
      nextColumn src
      return .inl ()) src.turns ()

/-- From the second slash to the end of the line. -/
def lexLineComment : LexM R Unit :=
  loopM outOfTurns (fun _ => do
    nextColumn src
    let c ← curChar
    if chr c ≠ '\n' ∧ ¬ c ≤ squirrelEob then return .inl () else return .inr ()) src.turns ()

/-! ## Strings -/

/-- The value of digits in hexadecimal, by the capital letter of a digit. -/
def hexadecimal (capital : UInt8 → UInt8) (digits : Bytes) : UInt32 :=
  digits.foldl (fun res c => res * 16 + if isdigit c then c.toUInt32 - '0'.val else (capital c).toUInt32
    - 'A'.val + 10) 0

/-- `strtoul` to base 16, of hexadecimal digits alone. -/
def strtoul16 (digits : Bytes) : UInt32 := hexadecimal (· &&& 0xDF) digits

/-- `\x` and up to four digits. -/
def readHexEscape : LexM R Unit := do
  nextColumn src
  if ¬ isxdigit (← curChar) then error "hexadecimal number expected"
  else do
    let temp ← loopM outOfTurns (fun temp : Bytes => do
      let c ← curChar
      if isxdigit c ∧ temp.length < 4 then do
        nextColumn src
        return .inl (temp ++ [c])
      else return .inr temp) src.turns []
    appendChar (strtoul16 temp).toUInt8

/-- The other escapes. -/
def escapes : List (Char × UInt8) :=
  [('t', 9), ('a', 7), ('b', 8), ('n', 10), ('r', 13), ('v', 11), ('f', 12), ('0', 0), ('\\', 92),
    ('"', 34), ('\'', 39)]

/-- What follows a backslash. -/
def readEscape : LexM R Unit := do
  let c ← curChar
  if chr c = 'x' then readHexEscape src
  else
    match escapes.lookup (chr c) with
    | some e => do
      appendChar e
      nextColumn src
    | none => error "unrecognised escaper char"

/-- The inner loop of `ReadString`, up to the delimiter. -/
def readUpTo (ndelim : UInt8) (verbatim : Bool) : LexM R Unit :=
  loopM outOfTurns (fun _ => do
    let c ← curChar
    if c ≠ ndelim then
      match chr c with
      | '\x00' => error "unfinished string"
      | '\n' =>
        if ¬ verbatim then error "newline in a constant"
        else do
          appendChar c
          nextColumn src
          newline
          return .inl ()
      | '\\' =>
        if verbatim then do
          appendChar c
          nextColumn src
          return .inl ()
        else do
          nextColumn src
          readEscape src
          return .inl ()
      | _ => do
        appendChar c
        nextColumn src
        return .inl ()
    else return .inr ()) src.turns ()

/-- The value of a constant between single quotes, and the literal of the other strings. -/
def stringToken (ndelim : UInt8) : LexM R Int := do
  appendChar 0
  let longstr ← getLongstr
  if chr ndelim = '\'' then
    if longstr.length - 1 = 0 then error "empty constant"
    else if longstr.length - 1 > 1 then error "constant too long"
    else do
      setLexer fun l => { l with nvalue := (longstr.headD 0).toInt8.toInt }
      return Token.integer
  else do
    setLexer fun l => { l with svalue := longstr }
    return Token.stringLiteral

/-- `ReadString`. In a verbatim string a doubled delimiter stands for one. -/
def readString (ndelim : UInt8) (verbatim : Bool) : LexM R Int := do
  initTempString
  nextColumn src
  if (← curChar) ≤ squirrelEob then return -1
  else do
    loopM outOfTurns (fun _ => do
      readUpTo src ndelim verbatim
      nextColumn src
      let c ← curChar
      if verbatim ∧ chr c = '"' then do
        appendChar c
        nextColumn src
        return .inl ()
      else return .inr ()) src.turns ()
    stringToken ndelim

/-! ## Numbers and identifiers -/

inductive NumberType
  | int
  | float
  | hex
  | scientific
deriving DecidableEq, Repr

def isexponent (c : UInt8) : Bool := chr c = 'e' || chr c = 'E'

/-- `LexHexadecimal`, which asserts that it is given hexadecimal digits. -/
def lexHexadecimal (locale : CLocale) (s : Bytes) : Option UInt32 :=
  if (cString s).all isxdigit then some (hexadecimal locale.toupper (cString s)) else none

def lexInteger (s : Bytes) : UInt32 := (cString s).foldl (fun res c => res * 10 + (c.toUInt32 - '0'.val)) 0

/-- The digits after `0x`. -/
def readHexDigits : LexM R Unit := do
  loopM outOfTurns (fun _ => do
    let c ← curChar
    if isxdigit c then do
      appendChar c
      nextColumn src
      return .inl ()
    else return .inr ()) src.turns ()
  if (← getLongstr).length > 8 then error "too many digits for an Hex number" else pure ()

/-- `e` or `E`, the sign, and a look at the digit. -/
def readExponent (type : NumberType) (c : UInt8) : LexM R Unit := do
  if type ≠ .float then error "invalid numeric format"
  else do
    appendChar c
    nextColumn src
    let sign ← curChar
    if chr sign = '+' ∨ chr sign = '-' then do
      appendChar sign
      nextColumn src
      if ¬ isdigit (← curChar) then error "exponent expected" else pure ()
    else if ¬ isdigit sign then error "exponent expected" else pure ()

/-- The digits of a number that is not hexadecimal. -/
def readDigits : LexM R NumberType :=
  loopM outOfTurns (fun type => do
    let c ← curChar
    if chr c = '.' ∨ isdigit c ∨ isexponent c then do
      let type := if chr c = '.' then .float else type
      if isexponent c then do
        readExponent src type c
        appendChar (← curChar)
        nextColumn src
        return .inl .scientific
      else do
        appendChar c
        nextColumn src
        return .inl type
    else return .inr type) src.turns .int

/-- The value of a number, by its type. -/
def numberToken (type : NumberType) : LexM R Int := do
  appendChar 0
  let longstr ← getLongstr
  match type with
  | .scientific | .float => do
    setLexer fun l => { l with fvalue := src.locale.strtod longstr }
    return Token.float
  | .int => do
    setLexer fun l => { l with nvalue := (lexInteger longstr).toInt32.toInt }
    return Token.integer
  | .hex =>
    match lexHexadecimal src.locale longstr with
    | some res => do
      setLexer fun l => { l with nvalue := res.toInt32.toInt }
      return Token.integer
    | none => fault (.assertion "0")

def readNumber : LexM R Int := do
  let firstchar ← curChar
  initTempString
  nextColumn src
  if chr firstchar = '0' ∧ chr (src.locale.toupper (← curChar)) = 'X' then do
    nextColumn src
    readHexDigits src
    numberToken src .hex
  else do
    appendChar firstchar
    let type ← readDigits src
    numberToken src type

def readID : LexM R Int := do
  initTempString
  loopM outOfTurns (fun _ => do
    appendChar (← curChar)
    nextColumn src
    let c ← curChar
    if src.locale.isalnum c ∨ chr c = '_' then return .inl () else return .inr ()) src.turns ()
  appendChar 0
  let longstr ← getLongstr
  let res := getIDType longstr
  if res = Token.identifier ∨ res = Token.constructor then do
    setLexer fun l => { l with svalue := longstr }
    return res
  else return res

/-! ## `Lex` -/

/-- An operator of one character, and the longer ones that begin with it. -/
def lexOperator (c : UInt8) (longer : List (Char × Int)) : LexM R (Unit ⊕ Int) := do
  nextColumn src
  match longer.lookup (chr (← curChar)) with
  | some t => do
    nextColumn src
    returnToken t
  | none => returnToken c.toNat

def lexSlash : LexM R (Unit ⊕ Int) := do
  nextColumn src
  match chr (← curChar) with
  | '*' => do
    nextColumn src
    lexBlockComment src
    return .inl ()
  | '/' => do
    lexLineComment src
    return .inl ()
  | '=' => do
    nextColumn src
    returnToken Token.diveq
  | '>' => do
    nextColumn src
    returnToken Token.attrClose
  | _ => returnToken '/'.toNat

def lexGreater : LexM R (Unit ⊕ Int) := do
  nextColumn src
  match chr (← curChar) with
  | '=' => do
    nextColumn src
    returnToken Token.ge
  | '>' => do
    nextColumn src
    if chr (← curChar) = '>' then do
      nextColumn src
      returnToken Token.ushiftr
    else returnToken Token.shiftr
  | _ => returnToken '>'.toNat

def lexPoint : LexM R (Unit ⊕ Int) := do
  nextColumn src
  if chr (← curChar) ≠ '.' then returnToken '.'.toNat
  else do
    nextColumn src
    if chr (← curChar) ≠ '.' then error "invalid token '..'"
    else do
      nextColumn src
      returnToken Token.varparams

/-- A string token; `ReadString` answers -1 where the text ends after the delimiter. -/
def lexString (ndelim : UInt8) (verbatim : Bool) : LexM R (Unit ⊕ Int) := do
  let stype ← readString src ndelim verbatim
  if stype ≠ -1 then returnToken stype else error "error parsing the string"

def lexVerbatim : LexM R (Unit ⊕ Int) := do
  nextColumn src
  if chr (← curChar) ≠ '"' then error "string expected" else lexString src '"'.toUInt8 true

/-- Numbers, identifiers and what is none of the tokens. -/
def lexDefault (c : UInt8) : LexM R (Unit ⊕ Int) := do
  if isdigit c then returnToken (← readNumber src)
  else if src.locale.isalpha c ∨ chr c = '_' then returnToken (← readID src)
  else if src.locale.iscntrl c then error "unexpected character(control)"
  else do
    nextColumn src
    returnToken c.toNat

/-- The `switch` of `Lex`: a token, or the loop goes on. -/
def lexSwitch (c : UInt8) : LexM R (Unit ⊕ Int) :=
  match chr c with
  | '\t' | '\r' | ' ' => do
    nextColumn src
    return .inl ()
  | '\n' => do
    setLexer fun l => { l with currentline := l.currentline + 1, prevtoken := l.curtoken, curtoken := '\n'.toNat }
    nextColumn src
    setLexer fun l => { l with currentcolumn := 1 }
    return .inl ()
  | '/' => lexSlash src
  | '=' => lexOperator src c [('=', Token.eq)]
  | '<' => lexOperator src c [('=', Token.le), ('-', Token.newslot), ('<', Token.shiftl), ('/', Token.attrOpen)]
  | '>' => lexGreater src
  | '!' => lexOperator src c [('=', Token.ne)]
  | '@' => lexVerbatim src
  | '"' | '\'' => lexString src c false
  | '{' | '}' | '(' | ')' | '[' | ']' | ';' | ',' | '?' | '^' | '~' => lexOperator src c []
  | '.' => lexPoint src
  | '&' => lexOperator src c [('&', Token.and)]
  | '|' => lexOperator src c [('|', Token.or)]
  | ':' => lexOperator src c [(':', Token.doubleColon)]
  | '*' => lexOperator src c [('=', Token.muleq)]
  | '%' => lexOperator src c [('=', Token.modeq)]
  | '-' => lexOperator src c [('=', Token.minuseq), ('-', Token.minusminus)]
  | '+' => lexOperator src c [('=', Token.pluseq), ('+', Token.plusplus)]
  | '\x00' => return .inr 0
  | _ => lexDefault src c

/-- `SQLexer::Lex`. -/
def lex : LexM R Int := do
  setLexer fun l => { l with lasttokenline := l.currentline }
  loopM outOfTurns (fun _ => do
    let c ← curChar
    if c ≠ squirrelEob then lexSwitch src c else return .inr 0) src.turns ()

/-! ## The compiler -/

/-- `SQCompiler::Compile`, up to the `n`th token. The compiler above the lexer is a
parameter: by the tokens it has, each with the lexer after it, it asks for more or ends. -/
def compileFrom (more : List (Int × SQLexer) → Bool) : Nat → List (Int × SQLexer) → LexM R (List (Int × SQLexer))
  | 0, tokens => return tokens
  | n + 1, tokens =>
    if more tokens then do
      let token ← lex src
      compileFrom more n (tokens ++ [(token, (← get).lexer)])
    else return tokens

/-- `Compile` of `sq_compile`: the constructor of the compiler calls `Init`. -/
def compile (more : List (Int × SQLexer) → Bool) (n : Nat) : LexM R (List (Int × SQLexer)) := do
  init src
  compileFrom src more n []

end SQLexer

end MultiScript.Squirrel
