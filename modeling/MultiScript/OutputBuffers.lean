/-
Whether what is output fits the buffers it goes through: the chunks of an OCaml channel and
the buffer of `OcamlPrintCallback`, the lines that Squirrel and its error handlers print,
and the messages of GameMonkey's log.
-/
import MultiScript.Printing

namespace MultiScript

open Act Run Printf

/-! ## Squirrel -/

namespace Squirrel

/-- The types of locals that are printed by their name (`sqstd_printcallstack`). -/
def localKinds : List Bytes :=
  ["NULL", "USERPOINTER", "TABLE", "ARRAY", "CLOSURE", "NATIVECLOSURE", "USERDATA", "THREAD", "CLASS", "INSTANCE",
    "WEAKREF"].map cstr

/-- What is given to the print function: by `print`, and by the error handlers of
`sqstdaux.cpp`. Of a local that is a `bool` the integer is printed that `sq_getinteger`
leaves, which takes no `bool`. -/
inductive SqOutput
  | print (str : Bytes)
  | error (sErr : Bytes)
  | errorUnknown
  | callstack
  | function (fn src : Bytes) (line : Int)
  | locals
  | localInteger (name : Bytes) (i : Int)
  | localFloat (name shown : Bytes)
  | localString (name s : Bytes)
  | localBool (name : Bytes) (i : Int)
  | localOther (name kind : Bytes) (h : kind ∈ localKinds)
  | compilerError (source : Bytes) (line column : Int) (sErr : Bytes)

namespace SqOutput

open PrintArg

/-- `i?_SC("true"):_SC("false")`. -/
def truth (i : Int) : Bytes := if i ≠ 0 then cstr "true" else cstr "false"

/-- The format of an output, with its arguments. -/
def pieces : SqOutput → List (Piece PrintArg)
  | print s => [str s]
  | error sErr => [lit "\nAN ERROR HAS OCCURED [", str sErr, lit "]\n"]
  | errorUnknown => [lit "\nAN ERROR HAS OCCURED [unknown]\n"]
  | callstack => [lit "\nCALLSTACK\n"]
  | function fn src line => [lit "*FUNCTION [", str fn, lit "()] ", str src, lit " line [", num line, lit "]\n"]
  | locals => [lit "\nLOCALS\n"]
  | localInteger name i => [lit "[", str name, lit "] ", num i, lit "\n"]
  | localFloat name shown => [lit "[", str name, lit "] ", flt shown, lit "\n"]
  | localString name s => [lit "[", str name, lit "] \"", str s, lit "\"\n"]
  | localBool name i => [lit "[", str name, lit "] ", str (truth i), lit "\n"]
  | localOther name kind _ => [lit "[", str name, lit "] ", .text kind, lit "\n"]
  | compilerError source line column sErr =>
    [str source, lit " line = (", num line, lit ") column = (", num column, lit ") : error ", str sErr, lit "\n"]

/-- What is printed. -/
def text : SqOutput → Bytes
  | print s => s
  | error sErr => cstr "\nAN ERROR HAS OCCURED [" ++ sErr ++ cstr "]\n"
  | errorUnknown => cstr "\nAN ERROR HAS OCCURED [unknown]\n"
  | callstack => cstr "\nCALLSTACK\n"
  | function fn src line =>
    cstr "*FUNCTION [" ++ fn ++ cstr "()] " ++ src ++ cstr " line [" ++ decimal line ++ cstr "]\n"
  | locals => cstr "\nLOCALS\n"
  | localInteger name i => cstr "[" ++ name ++ cstr "] " ++ decimal i ++ cstr "\n"
  | localFloat name shown => cstr "[" ++ name ++ cstr "] " ++ shown ++ cstr "\n"
  | localString name s => cstr "[" ++ name ++ cstr "] \"" ++ s ++ cstr "\"\n"
  | localBool name i => cstr "[" ++ name ++ cstr "] " ++ truth i ++ cstr "\n"
  | localOther name kind _ => cstr "[" ++ name ++ cstr "] " ++ kind ++ cstr "\n"
  | compilerError source line column sErr =>
    source ++ cstr " line = (" ++ decimal line ++ cstr ") column = (" ++ decimal column ++ cstr ") : error " ++ sErr ++
      cstr "\n"

example (sErr : Bytes) : Piece.spell (error sErr).pieces = cstr "\nAN ERROR HAS OCCURED [%s]\n" := rfl

example (name shown : Bytes) : Piece.spell (localFloat name shown).pieces = cstr "[%s] %.14g\n" := rfl

/-- Only the literals are left to check. -/
theorem pieces_plain (out : SqOutput) : ∀ p ∈ out.pieces, p.Plain := by
  have hkind : ∀ kind ∈ localKinds, 0 ∉ kind ∧ percent ∉ kind := by decide
  cases out <;> simp only [pieces, List.forall_mem_cons, List.not_mem_nil, false_implies, implies_true, and_true,
    true_and, str_plain, num_plain, flt_plain]
  case error => exact ⟨lit_plain (by decide), lit_plain (by decide)⟩
  case errorUnknown => exact lit_plain (by decide)
  case callstack => exact lit_plain (by decide)
  case function =>
    exact ⟨lit_plain (by decide), lit_plain (by decide), lit_plain (by decide), lit_plain (by decide)⟩
  case locals => exact lit_plain (by decide)
  case localInteger => exact ⟨lit_plain (by decide), lit_plain (by decide), lit_plain (by decide)⟩
  case localFloat => exact ⟨lit_plain (by decide), lit_plain (by decide), lit_plain (by decide)⟩
  case localString => exact ⟨lit_plain (by decide), lit_plain (by decide), lit_plain (by decide)⟩
  case localBool => exact ⟨lit_plain (by decide), lit_plain (by decide), lit_plain (by decide)⟩
  case localOther kind h => exact ⟨lit_plain (by decide), lit_plain (by decide), hkind kind h, lit_plain (by decide)⟩
  case compilerError =>
    exact ⟨lit_plain (by decide), lit_plain (by decide), lit_plain (by decide), lit_plain (by decide)⟩

theorem format_text (out : SqOutput) : format convert (Piece.spell out.pieces) (Piece.arguments out.pieces) =
    some out.text := by
  rw [format_pieces out.pieces_plain]
  cases out <;> simp [pieces, text, Piece.output, lit, str, num, flt, convert]

end SqOutput

/-- The callback gets to its end exactly if what is printed fits its buffer. -/
theorem squirrelPrintCallback_fits {c : SquirrelScriptContext} (out : SqOutput) (hl : c.world.logger.isSome = true) :
    (∃ c', squirrelPrintCallback (Piece.spell out.pieces) (Piece.arguments out.pieces) c = .ok ((), c')) ↔
      out.text.length < printBufferSize := by
  simp only [squirrelPrintCallback, hl, if_true, sprintf_fits out.format_text]
  by_cases h : out.text.length + 1 ≤ printBufferSize
  · have hlt : out.text.length < printBufferSize := h
    simp only [if_pos h, hlt, iff_true]
    exact ⟨_, rfl⟩
  · have hlt : ¬ out.text.length < printBufferSize := h
    simp only [if_neg h, hlt, iff_false]
    intro hrun
    obtain ⟨c', hc'⟩ := hrun
    cases hc'

theorem squirrelPrintCallback_logger (text : Bytes) (args : List PrintArg) (c : SquirrelScriptContext) :
    Act.Keeps (fun c => c.world.logger) (squirrelPrintCallback text args) c := by
  unfold Act.Keeps Act.Ends squirrelPrintCallback
  cases hl : c.world.logger with
  | none => simp [hl]
  | some l => cases sprintf convert printBufferSize text args <;> simp [hl]

/-! ### The lines of a script -/

/-- What is printed one line after the other. -/
def printLines (printed : List SqOutput) : SqM Unit :=
  printed.forM fun out => squirrelPrintCallback (Piece.spell out.pieces) (Piece.arguments out.pieces)

/-- Each line fits the buffer of the callback, which drops them where there is no logger. -/
def LinesFit (printed : List SqOutput) (w : SqWorld) : Prop :=
  w.logger.isSome = true → ∀ out ∈ printed, out.text.length < printBufferSize

theorem printLines_returns (printed : List SqOutput) (c : SquirrelScriptContext) :
    (∃ c', printLines printed c = .ok ((), c')) ↔ LinesFit printed c.world := by
  induction printed generalizing c with
  | nil => exact iff_of_true ⟨c, rfl⟩ fun _ _ h => absurd h List.not_mem_nil
  | cons out printed ih =>
    have hprint : printLines (out :: printed) c =
        (squirrelPrintCallback (Piece.spell out.pieces) (Piece.arguments out.pieces) >>= fun _ => printLines printed) c :=
      rfl
    rw [hprint]
    cases hl : c.world.logger with
    | none =>
      have hdrop : squirrelPrintCallback (Piece.spell out.pieces) (Piece.arguments out.pieces) c = .ok ((), c) := by
        simp [squirrelPrintCallback, hl]
      rw [bind_ok hdrop, ih]
      simp [LinesFit, hl]
    | some l =>
      have hlogger : c.world.logger.isSome = true := by rw [hl]; rfl
      by_cases hfit : out.text.length < printBufferSize
      · obtain ⟨c', hc⟩ := (squirrelPrintCallback_fits out hlogger).mpr hfit
        have hkept : c'.world.logger = c.world.logger := (squirrelPrintCallback_logger _ _ c).ok hc
        rw [bind_ok hc, ih, LinesFit, LinesFit, hkept]
        simp [hfit]
      · cases hrun : squirrelPrintCallback (Piece.spell out.pieces) (Piece.arguments out.pieces) c with
        | ok r => exact absurd ((squirrelPrintCallback_fits out hlogger).mp ⟨r.2, hrun⟩) hfit
        | error f =>
          rw [bind_error hrun]
          simp [LinesFit, hl, hfit]

end Squirrel

/-! ## The three buffers -/

/-- Output fits its buffers: an OCaml channel's where it never gets full and no more is
flushed at once than `OcamlPrintCallback` takes, a Squirrel line and a GameMonkey message
where they are shorter than 1024 bytes. -/
theorem output_fits_iff (ops : List Ocaml.ChannelOp) (out : Squirrel.SqOutput) (gm : GameMonkey.GmVm) (string : Bytes) :
    (∀ ch, ∃ os ch', Ocaml.stdChannel.run ops ch = .ok (os, ch') ∧
      ((∀ chunks ∈ os, ∀ chunk ∈ chunks, chunk.length + 1 ≤ Ocaml.printBufferSize) ↔
        Ocaml.stdChannel.Meets Ocaml.Small ops ch)) ∧
    (∀ c : Squirrel.SquirrelScriptContext, c.world.logger.isSome = true →
      ((∃ c', Squirrel.squirrelPrintCallback (Piece.spell out.pieces) (Piece.arguments out.pieces) c = .ok ((), c')) ↔
        out.text.length < 1024)) ∧
    ∀ w, (∀ message ∈ (gm.executeString string w).2.log, (GameMonkey.messageLine message).isSome = true) ↔
      ∀ message ∈ (gm.executeString string w).2.log, message.length + 1 < 1024 := by
  refine ⟨?_, ?_, ?_⟩
  · intro ch
    exact Ocaml.run_chunks ops ch
  · intro c hl
    exact Squirrel.squirrelPrintCallback_fits out hl
  · intro w
    exact forall₂_congr fun message _ => GameMonkey.messageLine_fits message

/-- `print_string` of 1024 bytes, and a flush: one chunk, and no room for the terminator. -/
theorem output_overruns_buffer :
    ∃ chunk ∈ Ocaml.printString .empty (List.replicate 1024 120), ¬ chunk.length + 1 ≤ Ocaml.printBufferSize := by
  have hlen : (List.replicate 1024 (120 : UInt8)).length = 1024 := List.length_replicate
  have hne : List.replicate 1024 (120 : UInt8) ≠ [] := fun h => by
    rw [h] at hlen
    cases hlen
  refine ⟨List.replicate 1024 120, ?_, ?_⟩
  · rw [Ocaml.printString_empty (by rw [hlen]; decide), if_neg hne]
    exact List.mem_singleton_self _
  · rw [hlen]
    decide

/-- Short outputs in OCaml and Squirrel. -/
theorem output_fits_short :
    let q := { Squirrel.createContext (.binding []) with
      world := { (Squirrel.createContext (.binding [])).world with logger := some 0 } }
    (∃ os ch', Ocaml.stdChannel.run [.putch 120, .flush] .empty = .ok (os, ch') ∧
      ∀ chunks ∈ os, ∀ chunk ∈ chunks, chunk.length + 1 ≤ Ocaml.printBufferSize) ∧
    ∃ c', Squirrel.squirrelPrintCallback (cstr "%s") [.string (some (cstr "x"))] q = .ok ((), c') := by
  intro q
  have gm : GameMonkey.GmVm := { call := fun _ _ w => (none, w), executeString := fun _ w => (0, w) }
  have hfits := output_fits_iff [.putch 120, .flush] (.print (cstr "x")) gm []
  obtain ⟨os, ch', hr, hiff⟩ := hfits.1 .empty
  refine ⟨⟨os, ch', hr, hiff.mpr ⟨by decide, fun o s hs => ⟨?_, fun _ _ _ => trivial⟩⟩⟩, ?_⟩
  · cases hs
    decide
  · exact (hfits.2.1 q rfl).mpr (by decide)

end MultiScript
