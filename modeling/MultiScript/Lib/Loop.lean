/-
Loops that may fail in a turn and need not end: a loop is given a number of turns, and
answers nothing where they do not suffice. `whileLoop_ends` is the rule for total
correctness, with an invariant and a measure that goes down; `loopM_ends` that for a
loop with a variable, whose turns may stop the whole action.
-/
import MultiScript.Lib.Act

namespace MultiScript.Loop

variable {σ φ α β : Type}

/-- `while (cond) body`, for so many turns. -/
def whileLoop (cond : σ → Bool) (body : σ → Except φ σ) : Nat → σ → Except φ (Option σ)
  | turns, s =>
    if cond s then
      match turns with
      | 0 => .ok none
      | turns + 1 => do
        let s' ← body s
        whileLoop cond body turns s'
    else .ok (some s)

/-- A loop ends, with the invariant and without the condition, where each turn keeps the
invariant and makes the measure smaller. -/
theorem whileLoop_ends {cond : σ → Bool} {body : σ → Except φ σ} {I : σ → Prop} {size : σ → Nat}
    (hbody : ∀ s, I s → cond s = true → ∃ s', body s = .ok s' ∧ I s' ∧ size s' < size s) :
    ∀ (turns : Nat) {s : σ}, I s → size s ≤ turns →
      ∃ s', whileLoop cond body turns s = .ok (some s') ∧ I s' ∧ cond s' = false := by
  intro turns
  induction turns with
  | zero =>
    intro s hi hsize
    cases hcond : cond s with
    | true =>
      obtain ⟨s', -, -, hlt⟩ := hbody s hi hcond
      omega
    | false => exact ⟨s, by simp [whileLoop, hcond], hi, hcond⟩
  | succ turns ih =>
    intro s hi hsize
    cases hcond : cond s with
    | true =>
      obtain ⟨s', hs, hi', hlt⟩ := hbody s hi hcond
      obtain ⟨s'', hloop, hI, hend⟩ := ih hi' (by omega)
      refine ⟨s'', ?_, hI, hend⟩
      rw [whileLoop, if_pos hcond, hs]
      exact hloop
    | false => exact ⟨s, by rw [whileLoop, if_neg (by simp [hcond])], hi, hcond⟩

/-- A loop with a variable: a turn goes on with its next value, or leaves the loop with an
answer. -/
def loopM (spent : StateT σ (Except φ) β) (body : α → StateT σ (Except φ) (α ⊕ β)) : Nat → α → StateT σ (Except φ) β
  | 0, _ => spent
  | turns + 1, a => do
    match ← body a with
    | .inl a' => loopM spent body turns a'
    | .inr b => return b

/-- What a turn from `s` is to come to: the invariant again, with the measure smaller, or
the end of the loop. -/
def Turn (I : α → σ → Prop) (size : σ → Nat) (Q : β → σ → Prop) (s : σ) : α ⊕ β → σ → Prop
  | .inl a, s' => I a s' ∧ size s' < size s
  | .inr b, s' => Q b s'

/-- Where every turn that ends makes the measure smaller or leaves the loop, so many turns
suffice. -/
theorem loopM_ends {spent : StateT σ (Except φ) β} {body : α → StateT σ (Except φ) (α ⊕ β)} {I : α → σ → Prop}
    {size : σ → Nat} {Q : β → σ → Prop} {E : φ → Prop}
    (hbody : ∀ a s, I a s → Act.Ends (body a) s (Turn I size Q s) E) :
    ∀ (turns : Nat) {a : α} {s : σ}, I a s → size s < turns → Act.Ends (loopM spent body turns a) s Q E := by
  intro turns
  induction turns with
  | zero =>
    intro a s _ hsize
    omega
  | succ turns ih =>
    intro a s hi hsize
    refine (hbody a s hi).bind fun r s' hr => ?_
    cases r with
    | inl a' =>
      obtain ⟨hi', hlt⟩ := hr
      exact ih hi' (by omega)
    | inr b => exact .pure hr

/-- The same where the measure is no function of the state but goes down with the invariant. -/
theorem loopM_down {spent : StateT σ (Except φ) β} {body : α → StateT σ (Except φ) (α ⊕ β)} {I : Nat → α → σ → Prop}
    {Q : β → σ → Prop} {E : φ → Prop}
    (hbody : ∀ n a s, I n a s → Act.Ends (body a) s
      (fun r s' => match r with | .inl a' => ∃ m, m < n ∧ I m a' s' | .inr b => Q b s') E) :
    ∀ (turns : Nat) {n : Nat} {a : α} {s : σ}, I n a s → n < turns → Act.Ends (loopM spent body turns a) s Q E := by
  intro turns
  induction turns with
  | zero =>
    intro n a s _ hn
    omega
  | succ turns ih =>
    intro n a s hi hn
    refine (hbody n a s hi).bind fun r s' hr => ?_
    cases r with
    | inl a' =>
      obtain ⟨m, hm, hi'⟩ := hr
      exact ih hi' (by omega)
    | inr b => exact .pure hr

/-- A loop over what is still to come: a turn takes the first item, and leaves where there is
none. -/
theorem loopM_over {γ : Type} {spent : StateT σ (Except φ) β} {body : α → StateT σ (Except φ) (α ⊕ β)}
    {I : List γ → α → σ → Prop} {Q : β → σ → Prop} {E : φ → Prop}
    (hstep : ∀ x xs a s, I (x :: xs) a s → Act.Ends (body a) s (fun r s' => ∃ a', r = .inl a' ∧ I xs a' s') E)
    (hend : ∀ a s, I [] a s → Act.Ends (body a) s (fun r s' => ∃ b, r = .inr b ∧ Q b s') E)
    {xs : List γ} {turns : Nat} {a : α} {s : σ} (hxs : xs.length < turns) (hi : I xs a s) :
    Act.Ends (loopM spent body turns a) s Q E := by
  refine loopM_down (I := fun n a s => ∃ xs : List γ, xs.length = n ∧ I xs a s) (fun n a s h => ?_) turns
    ⟨xs, rfl, hi⟩ hxs
  obtain ⟨xs, rfl, hi⟩ := h
  cases xs with
  | nil =>
    refine (hend a s hi).mono fun r s' hr => ?_
    obtain ⟨b, rfl, hq⟩ := hr
    exact hq
  | cons x xs =>
    refine (hstep x xs a s hi).mono fun r s' hr => ?_
    obtain ⟨a', rfl, hi'⟩ := hr
    exact ⟨xs.length, Nat.lt_succ_self _, xs, rfl, hi'⟩

end MultiScript.Loop
