/-
Stateful code that may fail to return: a state monad over `Except`. `Ends` is
the judgement about one action from one state: if it returns, a postcondition
holds of the answer and the state after it, and if it does not, an assertion
holds of the fault. The rules follow the shape of the action, so a proof walks
down a `do` block; `Ends.forM` is the rule for a loop over a list. `Keeps` is the frame
condition, about a part of the state that an action does not touch.
-/
import Mathlib.Logic.Basic

namespace MultiScript.Act

variable {σ φ α β : Type}

/-- The action `m` run from `s` returns where `Q` holds or faults where `E` does. -/
def Ends (m : StateT σ (Except φ) α) (s : σ) (Q : α → σ → Prop) (E : φ → Prop) : Prop :=
  match m s with
  | .ok (a, s') => Q a s'
  | .error f => E f

variable {m : StateT σ (Except φ) α} {k : α → StateT σ (Except φ) β} {s : σ} {E : φ → Prop}

theorem Ends.of_ok {Q : α → σ → Prop} {a : α} {s' : σ} (h : m s = .ok (a, s')) (hQ : Q a s') :
    Ends m s Q E := by
  unfold Ends
  rw [h]
  exact hQ

theorem Ends.ok {Q : α → σ → Prop} {a : α} {s' : σ} (h : Ends m s Q E) (hm : m s = .ok (a, s')) :
    Q a s' := by
  unfold Ends at h
  rw [hm] at h
  exact h

theorem Ends.of_eq {m' : StateT σ (Except φ) α} {t : σ} {Q : α → σ → Prop} (h : m s = m' t) (h' : Ends m' t Q E) :
    Ends m s Q E := by
  unfold Ends at h' ⊢
  rw [h]
  exact h'

theorem Ends.error {Q : α → σ → Prop} {f : φ} (h : Ends m s Q E) (hm : m s = .error f) : E f := by
  unfold Ends at h
  rw [hm] at h
  exact h

theorem Ends.mono {Q Q' : α → σ → Prop} (h : Ends m s Q E) (hQ : ∀ a s', Q a s' → Q' a s') :
    Ends m s Q' E := by
  unfold Ends at h ⊢
  cases hm : m s with
  | ok r => rw [hm] at h; exact hQ _ _ h
  | error f => rw [hm] at h; exact h

theorem Ends.faults {Q : α → σ → Prop} {E' : φ → Prop} (h : Ends m s Q E) (hE : ∀ f, E f → E' f) :
    Ends m s Q E' := by
  unfold Ends at h ⊢
  cases hm : m s with
  | ok r => rw [hm] at h; exact h
  | error f => rw [hm] at h; exact hE _ h

/-- Sequencing: the rest runs from every state the first action returns in. -/
theorem Ends.bind {Q : α → σ → Prop} {R : β → σ → Prop} (h : Ends m s Q E)
    (hk : ∀ a s', Q a s' → Ends (k a) s' R E) : Ends (m >>= k) s R E := by
  unfold Ends at h ⊢
  simp only [Bind.bind, StateT.bind]
  cases hm : m s with
  | ok r => rw [hm] at h; exact hk _ _ h
  | error f => rw [hm] at h; exact h

theorem Ends.pure {Q : α → σ → Prop} {a : α} (h : Q a s) :
    Ends (Pure.pure a : StateT σ (Except φ) α) s Q E := h

/-- A loop over a list keeps what its body keeps. -/
theorem Ends.forM {γ : Type} {body : γ → StateT σ (Except φ) PUnit} {I : σ → Prop}
    (hbody : ∀ x s, I s → Ends (body x) s (fun _ s' => I s') E) :
    ∀ (xs : List γ) {s : σ}, I s → Ends (xs.forM body) s (fun _ s' => I s') E
  | [], _, hi => hi
  | x :: xs, _, hi => (hbody x _ hi).bind fun _ _ hi' => Ends.forM hbody xs hi'

/-! ## A part of the state -/

/-- If the action returns, the part of the state is what it was. -/
def Keeps {γ : Type} (part : σ → γ) (m : StateT σ (Except φ) α) (s : σ) : Prop :=
  Ends m s (fun _ s' => part s' = part s) fun _ => True

variable {γ : Type} {part : σ → γ}

theorem Keeps.bind (hm : Keeps part m s) (hk : ∀ a s', Keeps part (k a) s') : Keeps part (m >>= k) s :=
  Ends.bind hm fun a s' h => (hk a s').mono fun _ _ h' => h'.trans h

theorem Keeps.of_ok {a : α} {s' : σ} (h : m s = .ok (a, s')) (hs : part s' = part s) : Keeps part m s :=
  Ends.of_ok h hs

theorem Keeps.ok {a : α} {s' : σ} (h : Keeps part m s) (hm : m s = .ok (a, s')) : part s' = part s := by
  have hends : Ends m s (fun _ s' => part s' = part s) fun _ => True := h
  exact hends.ok hm

theorem Keeps.pure (a : α) (s : σ) : Keeps part (Pure.pure a : StateT σ (Except φ) α) s := Ends.pure rfl

theorem pure_ok {a : α} : (Pure.pure a : StateT σ (Except φ) α) s = .ok (a, s) := rfl

/-- Sequencing of actions that return, as an equation. -/
theorem bind_ok {a : α} {s' : σ} (h : m s = .ok (a, s')) : (m >>= k) s = k a s' := by
  simp only [Bind.bind, StateT.bind, h, Except.bind]

/-- The rest of a sequence, after an action that returns. -/
theorem Ends.seq {R : β → σ → Prop} {a : α} {s' : σ} (h : m s = .ok (a, s')) (hk : Ends (k a) s' R E) :
    Ends (m >>= k) s R E := by
  unfold Ends at hk ⊢
  rw [bind_ok h]
  exact hk

theorem bind_get {k : σ → StateT σ (Except φ) β} : (get >>= k) s = k s s := rfl

/-- The state is read. -/
theorem Ends.get {Q : β → σ → Prop} {k : σ → StateT σ (Except φ) β} (h : Ends (k s) s Q E) :
    Ends ((MonadState.get : StateT σ (Except φ) σ) >>= k) s Q E := h

theorem bind_error {f : φ} (h : m s = .error f) : (m >>= k) s = .error f := by
  simp only [Bind.bind, StateT.bind, h, Except.bind]

/-- A returning sequence splits at its first action. -/
theorem bind_ok_inv {r : β × σ} (h : (m >>= k) s = .ok r) :
    ∃ a s', m s = .ok (a, s') ∧ k a s' = .ok r := by
  cases hm : m s with
  | ok p => exact ⟨p.1, p.2, rfl, by rw [← h, bind_ok hm]⟩
  | error f => rw [bind_error hm] at h; cases h

/-- A result that is returned, with what it answers put in another form. -/
theorem map_ok_inv {x : Except φ α} {f : α → β} {y : β} (h : x.map f = .ok y) : ∃ a, x = .ok a ∧ f a = y := by
  cases x with
  | error e => cases h
  | ok a => exact ⟨a, rfl, by simpa [Except.map] using h⟩

end MultiScript.Act
