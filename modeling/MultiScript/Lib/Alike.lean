/-
Two runs of one action, from states that are related but not the same: `Alike` says that
they cannot be told apart by what is answered, nor by the fault where one stops. The rules
follow the shape of the action, and `Machine.run_alike` those of its steps to a whole run.
-/
import MultiScript.Lib.Act
import MultiScript.Lib.Run

namespace MultiScript.Act

variable {σ φ α β : Type}

/-- From `s` and from `t` the action answers the same, in related states, or stops with the
same fault. -/
def Alike (R : σ → σ → Prop) (m : StateT σ (Except φ) α) (s t : σ) : Prop :=
  match m s, m t with
  | .ok (a, s'), .ok (b, t') => a = b ∧ R s' t'
  | .error f, .error g => f = g
  | _, _ => False

variable {R : σ → σ → Prop} {m : StateT σ (Except φ) α} {k : α → StateT σ (Except φ) β} {s t : σ}

theorem Alike.of_ok {a : α} {s' t' : σ} (hs : m s = .ok (a, s')) (ht : m t = .ok (a, t')) (h : R s' t') :
    Alike R m s t := by
  unfold Alike
  rw [hs, ht]
  exact ⟨rfl, h⟩

theorem Alike.of_error {f : φ} (hs : m s = .error f) (ht : m t = .error f) : Alike R m s t := by
  unfold Alike
  rw [hs, ht]

/-- The two cases. -/
theorem Alike.cases (h : Alike R m s t) :
    (∃ a s' t', m s = .ok (a, s') ∧ m t = .ok (a, t') ∧ R s' t') ∨ ∃ f, m s = .error f ∧ m t = .error f := by
  unfold Alike at h
  cases hs : m s with
  | ok r =>
    cases ht : m t with
    | ok r' =>
      rw [hs, ht] at h
      exact .inl ⟨r.1, r.2, r'.2, rfl, congrArg Except.ok (Prod.ext h.1.symm rfl), h.2⟩
    | error g => rw [hs, ht] at h; exact h.elim
  | error f =>
    cases ht : m t with
    | ok r' => rw [hs, ht] at h; exact h.elim
    | error g =>
      rw [hs, ht] at h
      exact .inr ⟨f, rfl, congrArg Except.error h.symm⟩

theorem Alike.pure {a : α} (h : R s t) : Alike R (Pure.pure a : StateT σ (Except φ) α) s t := ⟨rfl, h⟩

/-- The rest runs from every two states that the first action returns in. -/
theorem Alike.bind (h : Alike R m s t) (hk : ∀ a s' t', m s = .ok (a, s') → R s' t' → Alike R (k a) s' t') :
    Alike R (m >>= k) s t := by
  rcases h.cases with ⟨a, s', t', hs, ht, hR⟩ | ⟨f, hs, ht⟩
  · have hrest := hk a s' t' hs hR
    unfold Alike at hrest ⊢
    rw [bind_ok hs, bind_ok ht]
    exact hrest
  · exact .of_error (bind_error hs) (bind_error ht)

/-- The state is read, where both give the same to go on with. -/
theorem Alike.bind_get {k : σ → StateT σ (Except φ) β} (hk : k t = k s) (h : Alike R (k s) s t) :
    Alike R (get >>= k) s t := by
  unfold Alike at h ⊢
  rw [Act.bind_get, Act.bind_get, hk]
  exact h

end MultiScript.Act

namespace MultiScript.Run.Machine

open Act

variable {σ ε ω φ : Type} {m : Machine σ ε ω φ} {R : σ → σ → Prop} {P : ε → σ → Prop}

/-- Where every step from related states is alike under its condition, a run is whose steps
all meet it. -/
theorem run_alike (hstep : ∀ e s t, R s t → P e s → Alike R (m.step e) s t) :
    ∀ {es : List ε} {s t : σ}, R s t → m.Meets P es s → Alike R (m.run es) s t
  | [], _, _, hR, _ => ⟨rfl, hR⟩
  | e :: es, s, t, hR, hm => by
    rcases (hstep e s t hR hm.1).cases with ⟨o, s₁, t₁, hs, ht, hR₁⟩ | ⟨f, hs, ht⟩
    · rcases (run_alike hstep hR₁ (hm.2 o s₁ hs)).cases with ⟨os, s', t', hrs, hrt, hR'⟩ | ⟨f, hrs, hrt⟩
      · have hs' : m.run (e :: es) s = .ok (o :: os, s') := by rw [run_cons m es hs, hrs]; rfl
        have ht' : m.run (e :: es) t = .ok (o :: os, t') := by rw [run_cons m es ht, hrt]; rfl
        exact .of_ok hs' ht' hR'
      · have hs' : m.run (e :: es) s = .error f := by rw [run_cons m es hs, hrs]; rfl
        have ht' : m.run (e :: es) t = .error f := by rw [run_cons m es ht, hrt]; rfl
        exact .of_error hs' ht'
    · exact .of_error (run_cons_error m es hs) (run_cons_error m es ht)

end MultiScript.Run.Machine
