/-
Pools of shared objects: an object is looked for in the pool, and made and added only
where none is found. What holds of an interned object holds of whatever a search can
find and of what is made; where the search goes by less than the whole content, the two
may differ, and the pool decides (`intern_iff`).
-/
import Mathlib.Logic.Basic

namespace MultiScript.Intern

variable {α : Type} {P : α → Prop} {found : α → Bool} {fresh o : α} {add : α → List α → List α} {pool : List α}

/-- The object that a search finds, or else a fresh one, with the pool after it. -/
def intern (found : α → Bool) (fresh : α) (add : α → List α → List α) (pool : List α) : α × List α :=
  match pool.find? found with
  | some o => (o, pool)
  | none => (fresh, add fresh pool)

theorem intern_found (h : pool.find? found = some o) : intern found fresh add pool = (o, pool) := by
  simp only [intern, h]

theorem intern_fresh (h : pool.find? found = none) : intern found fresh add pool = (fresh, add fresh pool) := by
  simp only [intern, h]

/-- Any search: either the object found is right, or none is found and the fresh one is. -/
theorem intern_iff : P (intern found fresh add pool).1 ↔
    (∀ o, pool.find? found = some o → P o) ∧ (pool.find? found = none → P fresh) := by
  cases h : pool.find? found with
  | some o => simp [intern_found h]
  | none => simp [intern_fresh h]

/-- A search that goes by the whole content: the pool does not matter. -/
theorem intern_all (hfound : ∀ o, found o = true → P o) (hfresh : P fresh) : P (intern found fresh add pool).1 :=
  intern_iff.mpr ⟨fun o h => hfound o (List.find?_some h), fun _ => hfresh⟩

end MultiScript.Intern
