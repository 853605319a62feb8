/-
The source file that the OCaml backend writes a script to, for the compiler. The script is
the format of an `fprintf`.
-/
import MultiScript.Printing

namespace MultiScript

open Act Printf

namespace Ocaml

/-- What the stream makes of the bytes written to it in text mode. -/
def textMode : Bytes → Bytes
  | [] => []
  | b :: s => if b = 10 then 13 :: 10 :: textMode s else b :: textMode s

/-- `fprintf(f, string)`, and what is in the file then; nothing can be said where an argument
is read that was not passed. -/
def sourceFile (string : Bytes) : Option Bytes := (format convert string []).map textMode

/-- A line feed in a file has a carriage return before it. -/
theorem textMode_head : ∀ (s t : Bytes), textMode s ≠ 10 :: t
  | [], _ => by simp [textMode]
  | b :: s, t => by
    unfold textMode
    by_cases hb : b = 10
    · simp [hb]
    · simp [hb]

/-- The translation loses nothing. -/
theorem textMode_injective : ∀ {s t : Bytes}, textMode s = textMode t → s = t
  | [], [], _ => rfl
  | [], b :: t, h => by
    unfold textMode at h
    split at h <;> cases h
  | a :: s, [], h => by
    unfold textMode at h
    split at h <;> cases h
  | a :: s, b :: t, h => by
    by_cases ha : a = 10
    · by_cases hb : b = 10
      · simp only [textMode, ha, hb, if_true, List.cons.injEq, true_and] at h
        rw [ha, hb, textMode_injective h]
      · simp only [textMode, ha, hb, if_true, if_false, List.cons.injEq] at h
        exact absurd h.2.symm (textMode_head t _)
    · by_cases hb : b = 10
      · simp only [textMode, ha, hb, if_true, if_false, List.cons.injEq] at h
        exact absurd h.2 (textMode_head s _)
      · simp only [textMode, ha, hb, if_false, List.cons.injEq] at h
        rw [h.1, textMode_injective h.2]

theorem sourceFile_iff {string : Bytes} (h0 : 0 ∉ string) :
    sourceFile string = some (textMode string) ↔ percent ∉ string := by
  rw [← @format_self_iff PrintArg convert string h0, sourceFile, Option.map_eq_some_iff]
  constructor
  · rintro ⟨t, ht, he⟩
    rw [ht, textMode_injective he]
  · intro h
    exact ⟨string, h, rfl⟩

/-- The `fprintf` of the runtime writes the file, where the format has its arguments. -/
def OcamlVm.WritesFile (vm : OcamlVm) : Prop :=
  ∀ string bytes, sourceFile string = some bytes → vm.fprintf string = bytes

end Ocaml

/-- The file has the bytes of the script, line ends translated, exactly if there is no `%` in
it, and the compiler is then run on these. -/
theorem source_written_iff (vm : Ocaml.OcamlVm) (hvm : vm.WritesFile) (string : Bytes) (h0 : 0 ∉ string) :
    (Ocaml.sourceFile string = some (Ocaml.textMode string) ↔ percent ∉ string) ∧
    (percent ∉ string → ∀ id p,
      Ocaml.executeString vm id string p = Ocaml.executeString { vm with fprintf := Ocaml.textMode } id string p) := by
  refine ⟨Ocaml.sourceFile_iff h0, fun hp id p => ?_⟩
  have hwritten : vm.fprintf string = Ocaml.textMode string := hvm _ _ ((Ocaml.sourceFile_iff h0).mpr hp)
  rw [Ocaml.executeString, Ocaml.executeString, hwritten]
  rfl

/-- `let _ = Printf.printf "%d" 1`: the argument of a `%d` is read that was not passed. -/
theorem source_reads_argument :
    let script := cstr "let _ = Printf.printf \"%d\" 1"
    Ocaml.sourceFile script = none ∧ Ocaml.sourceFile script ≠ some (Ocaml.textMode script) := by
  intro script
  have hnone : Ocaml.sourceFile script = none := by decide
  refine ⟨hnone, fun h => ?_⟩
  rw [hnone] at h
  cases h

/-- A VM whose `fprintf` writes what it can. -/
def Ocaml.OcamlVm.writing : Ocaml.OcamlVm :=
  { Ocaml.OcamlVm.printing [] with fprintf := fun s => (Ocaml.sourceFile s).getD [] }

/-- A script of two lines. -/
theorem source_written_lines :
    Ocaml.sourceFile (cstr "let f x = x\nlet _ = f 1") = some (cstr "let f x = x\r\nlet _ = f 1") := by
  have hvm : Ocaml.OcamlVm.writing.WritesFile := by
    intro string bytes h
    show (Ocaml.sourceFile string).getD [] = bytes
    rw [h]
    rfl
  exact (source_written_iff .writing hvm (cstr "let f x = x\nlet _ = f 1") (by decide)).1.mpr (by decide)

end MultiScript
