/-
What a script prints, on its way to the logger. Each backend passes the text to
`ScriptLogger::Output` as a format with no arguments. Squirrel has formatted it into a
buffer before, and OCaml has kept it in the buffer of a channel.
-/
import MultiScript.Lua.Context
import MultiScript.Squirrel.Context
import MultiScript.GameMonkey.Context
import MultiScript.Ocaml.Context
import MultiScript.Ocaml.Channel

namespace MultiScript

open Act Printf

/-! ## What a logger formats -/

/-- What the arguments of one `Output` are formatted to. -/
def LogCall.render (l : LogCall) : Option Bytes := format convert l.text (l.args.map .string)

/-- The same for several, one after the other. -/
def rendered : List LogCall → Option Bytes
  | [] => some []
  | l :: ls => l.render.bind fun t => (rendered ls).map (t ++ ·)

/-- Printing returns, and what it has output formats to `s`. -/
def Prints {C : Type} (r : Except Fault (Unit × C)) (logged : C → List LogCall) (before : List LogCall)
    (s : Bytes) : Prop :=
  ∃ c calls, r = .ok ((), c) ∧ logged c = before ++ calls ∧ rendered calls = some s

theorem rendered_format {s : Bytes} (h0 : 0 ∉ s) : rendered [{ text := s }] = some s ↔ percent ∉ s := by
  have hr : rendered [{ text := s }] = (format convert s []).bind fun t => some (t ++ []) := rfl
  rw [hr]
  simp only [List.append_nil, Option.bind_fun_some]
  exact format_self_iff h0

/-- A text that is output as a format. -/
theorem prints_iff {C : Type} {r : Except Fault (Unit × C)} {logged : C → List LogCall} {before : List LogCall}
    {s : Bytes} {c : C} (hr : r = .ok ((), c)) (hl : logged c = before ++ [{ text := s }]) (h0 : 0 ∉ s) :
    Prints r logged before s ↔ percent ∉ s := by
  rw [← rendered_format h0]
  constructor
  · rintro ⟨c', calls, hr', hl', hs⟩
    rw [hr] at hr'
    cases hr'
    obtain rfl := List.append_cancel_left (hl.symm.trans hl')
    exact hs
  · intro hs
    exact ⟨c, _, hr, hl, hs⟩

/-! ## Lua -/

namespace Lua

/-- `LuaPrintCallback`. -/
def luaPrintCallback (text : Bytes) : LuaM Unit := fun c =>
  if c.world.logger.isSome then loggerOutput text [] c else .ok ((), c)

/-- `luaB_print`, from what `tostring` makes of its arguments. -/
def luaBPrint (texts : List Bytes) : LuaM Unit := texts.forM luaPrintCallback

theorem luaBPrint_single {c : LuaScriptContext} (hl : c.world.logger.isSome = true) (s : Bytes) :
    luaBPrint [s] c = .ok ((), { c with world := { c.world with logged := c.world.logged ++ [{ text := s }] } }) := by
  obtain ⟨l, hlogger⟩ := Option.isSome_iff_exists.mp hl
  have hp : luaPrintCallback s c
      = .ok ((), { c with world := { c.world with logged := c.world.logged ++ [{ text := s }] } }) := by
    rw [luaPrintCallback, if_pos hl]
    simp only [loggerOutput, hlogger]
  exact (bind_ok hp).trans rfl

end Lua

/-! ## Squirrel -/

namespace Squirrel

/-- The buffer of `SquirrelPrintCallback`. -/
def printBufferSize : Nat := 1024

/-- `SquirrelPrintCallback`: the text is formatted into the buffer, and the buffer is output
as a format. -/
def squirrelPrintCallback (text : Bytes) (args : List PrintArg) : SqM Unit := fun c =>
  if c.world.logger.isSome then
    match sprintf convert printBufferSize text args with
    | none => .error .bufferOverrun
    | some buffer => .ok ((), { c with world := { c.world with logged := c.world.logged ++ [{ text := buffer }] } })
  else .ok ((), c)

/-- `base_print`, of the string that its argument is converted to. -/
def basePrint (str : Bytes) : SqM Unit := squirrelPrintCallback (cstr "%s") [.string (some str)]

theorem format_print (str : Bytes) : format convert (cstr "%s") [.string (some str)] = some str := by
  have hpieces := @format_pieces PrintArg convert [PrintArg.str str] fun p hp => by
    obtain rfl := List.mem_singleton.mp hp
    exact PrintArg.str_plain str
  have houtput : Piece.output convert [PrintArg.str str] = some str := by
    simp [Piece.output, PrintArg.str, convert]
  exact hpieces.trans houtput

theorem basePrint_fits {c : SquirrelScriptContext} {s : Bytes} (hl : c.world.logger.isSome = true)
    (hlen : s.length < printBufferSize) :
    basePrint s c = .ok ((), { c with world := { c.world with logged := c.world.logged ++ [{ text := s }] } }) := by
  have hs : sprintf convert printBufferSize (cstr "%s") [.string (some s)] = some s := by
    rw [sprintf_fits (format_print s), if_pos (Nat.succ_le_of_lt hlen)]
  simp only [basePrint, squirrelPrintCallback, hl, if_true, hs]

end Squirrel

/-! ## GameMonkey -/

namespace GameMonkey

/-- `GMPrintCallback`. -/
def gmPrintCallback (string : Bytes) : GmM Unit := fun c =>
  if c.world.logger.isSome then
    .ok ((), { c with world := { c.world with logged := c.world.logged ++ [{ text := string }] } })
  else .ok ((), c)

/-- `gmPrint`, from its arguments as strings: they are printed as one. -/
def gmPrint (params : List Bytes) : GmM Unit := fun c =>
  if params = [] then .ok ((), c) else gmPrintCallback params.flatten c

theorem gmPrint_single {c : GMScriptContext} (hl : c.world.logger.isSome = true) (s : Bytes) :
    gmPrint [s] c = .ok ((), { c with world := { c.world with logged := c.world.logged ++ [{ text := s }] } }) := by
  simp [gmPrint, gmPrintCallback, hl]

end GameMonkey

/-! ## OCaml -/

namespace Ocaml

/-- `print_string` on a channel, and a flush: the chunks for `OcamlPrintCallback`. -/
def printString (ch : Channel) (s : Bytes) : List Bytes := (ch.output s).1 ++ (ch.output s).2.flush.1

/-- From an empty buffer, a text that fits it is one chunk. -/
theorem printString_empty {s : Bytes} (hlen : s.length < ioBufferSize) :
    printString .empty s = if s = [] then [] else [s] := by
  by_cases hs : s = []
  · subst hs
    rw [printString, Channel.output_nil, if_pos rfl]
    rfl
  · have hroom : s.length < ioBufferSize - Channel.empty.buff.length := hlen
    rw [printString, Channel.output_block hs, Channel.putblock_room hroom, if_neg hs]
    simp only [List.drop_length, Channel.output_nil, List.nil_append]
    simp [Channel.flush, Channel.empty, hs]

/-- The log of a context. -/
def loggedOf (id : Nat) (p : OcamlProcess) : List LogCall := (p.contexts id).elim [] (·.logged)

theorem ocamlPrintCallback_none {p : OcamlProcess} {id : Nat} {ctx : OcamlScriptContext} (hid : p.current = some id)
    (hctx : p.contexts id = some ctx) :
    ∃ p', ocamlPrintCallback [] p = .ok ((), p') ∧ loggedOf id p' = loggedOf id p := by
  have hcur : getCurrent p = .ok (some id, p) := by rw [← hid]; rfl
  have hget : context id p = .ok (ctx, p) := by simp only [context, hctx]
  refine ⟨_, (bind_ok hcur).trans ((bind_ok hget).trans rfl), ?_⟩
  simp [loggedOf, hctx]

theorem ocamlPrintCallback_chunk {p : OcamlProcess} {id : Nat} {ctx : OcamlScriptContext} (s : Bytes)
    (hid : p.current = some id) (hctx : p.contexts id = some ctx) (hl : ctx.logger.isSome = true) :
    ∃ p', ocamlPrintCallback [s] p = .ok ((), p') ∧ loggedOf id p' = loggedOf id p ++ [{ text := s }] := by
  have hcur : getCurrent p = .ok (some id, p) := by rw [← hid]; rfl
  have hget : context id p = .ok (ctx, p) := by simp only [context, hctx]
  refine ⟨_, (bind_ok hcur).trans ((bind_ok hget).trans rfl), ?_⟩
  simp [loggedOf, hctx, OcamlScriptContext.output, hl]

end Ocaml

/-! ## The four backends -/

/-- **Printing.** What the backends output of a printed text formats to that text exactly if
there is no `%` in it. -/
theorem print_faithful_iff (s : Bytes) (h0 : 0 ∉ s) (hlen : s.length < 1024) :
    (∀ c : Lua.LuaScriptContext, c.world.logger.isSome = true →
      (Prints (Lua.luaBPrint [s] c) (·.world.logged) c.world.logged s ↔ percent ∉ s)) ∧
    (∀ c : Squirrel.SquirrelScriptContext, c.world.logger.isSome = true →
      (Prints (Squirrel.basePrint s c) (·.world.logged) c.world.logged s ↔ percent ∉ s)) ∧
    (∀ c : GameMonkey.GMScriptContext, c.world.logger.isSome = true →
      (Prints (GameMonkey.gmPrint [s] c) (·.world.logged) c.world.logged s ↔ percent ∉ s)) ∧
    ∀ (p : Ocaml.OcamlProcess) id ctx, p.current = some id → p.contexts id = some ctx → ctx.logger.isSome = true →
      (Prints (Ocaml.ocamlPrintCallback (Ocaml.printString .empty s) p) (Ocaml.loggedOf id) (Ocaml.loggedOf id p) s ↔
        percent ∉ s) := by
  refine ⟨?_, ?_, ?_, ?_⟩
  · intro c hl
    exact prints_iff (Lua.luaBPrint_single hl s) rfl h0
  · intro c hl
    exact prints_iff (Squirrel.basePrint_fits hl hlen) rfl h0
  · intro c hl
    exact prints_iff (GameMonkey.gmPrint_single hl s) rfl h0
  · intro p id ctx hid hctx hl
    have hio : s.length < Ocaml.ioBufferSize := Nat.lt_trans hlen (by decide)
    rw [Ocaml.printString_empty hio]
    by_cases hs : s = []
    · subst hs
      obtain ⟨p', hp, hlog⟩ := Ocaml.ocamlPrintCallback_none hid hctx
      refine ⟨fun _ => List.not_mem_nil, fun _ => ⟨p', [], hp, ?_, rfl⟩⟩
      rw [hlog, List.append_nil]
    · obtain ⟨p', hp, hlog⟩ := Ocaml.ocamlPrintCallback_chunk s hid hctx hl
      rw [if_neg hs]
      exact prints_iff hp hlog h0

/-- `print("100%")` in Lua: the logger is to read a directive that is not there. -/
theorem print_percent :
    let c := { Lua.createContext (.binding []) with
      world := { (Lua.createContext (.binding [])).world with logger := some 0 } }
    ∃ c', Lua.luaBPrint [cstr "100%"] c = .ok ((), c') ∧ c'.world.logged = [{ text := cstr "100%" }] ∧
      rendered c'.world.logged = none :=
  ⟨_, rfl, rfl, by decide⟩

/-- `print("hello")`, in the four languages. -/
theorem print_faithful_hello :
    let c := { Lua.createContext (.binding []) with
      world := { (Lua.createContext (.binding [])).world with logger := some 0 } }
    let q := { Squirrel.createContext (.binding []) with
      world := { (Squirrel.createContext (.binding [])).world with logger := some 0 } }
    Prints (Lua.luaBPrint [cstr "hello"] c) (·.world.logged) [] (cstr "hello") ∧
      Prints (Squirrel.basePrint (cstr "hello") q) (·.world.logged) [] (cstr "hello") := by
  intro c q
  have hprint := print_faithful_iff (cstr "hello") (by decide) (by decide)
  exact ⟨(hprint.1 c rfl).mpr (by decide), (hprint.2.1 q rfl).mpr (by decide)⟩

end MultiScript
