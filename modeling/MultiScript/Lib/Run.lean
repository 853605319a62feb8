/-
Machines that take one event at a time and may get stuck: a step answers an
observation and the next state, or a fault it does not return from. The rules
here lift what one step does to what a whole run does: an invariant kept by
every step taken where a side condition holds (`Machine.run_inv`), the same with
what was observed so far (`Machine.run_traced`), that a run returns where its
steps do (`Machine.run_returns`), a fault no such step raises
(`Machine.run_no_fault`), one machine simulating another observation for
observation (`Machine.run_sim`), an assertion that holds all along exactly if a
condition does (`Machine.always_iff`), a machine all of whose runs a specification
allows (`Machine.run_allowed`), the unwinding argument for two parties that share a
machine (`Machine.run_isolated`), and events that come in words, where an automaton says
which words leave a run quiet (`Machine.quiet_iff_accepts`).
-/
import Mathlib.Logic.Basic

namespace MultiScript.Run

/-- A deterministic machine: an event either answers an observation `ω` and
the next state, or stops the run with a fault `φ`. -/
structure Machine (σ ε ω φ : Type) where
  step : ε → σ → Except φ (ω × σ)

namespace Machine

variable {σ τ ε ω φ ψ ν : Type}

/-- The observations of a list of events, in order, and the state after them. -/
def run (m : Machine σ ε ω φ) : List ε → σ → Except φ (List ω × σ)
  | [], s => .ok ([], s)
  | e :: es, s => do
    let (o, s₁) ← m.step e s
    let (os, s₂) ← m.run es s₁
    return (o :: os, s₂)

/-- Every step of the run from `s` is taken in a state where `P` holds of its event. -/
def Meets (m : Machine σ ε ω φ) (P : ε → σ → Prop) : List ε → σ → Prop
  | [], _ => True
  | e :: es, s => P e s ∧ ∀ o s', m.step e s = .ok (o, s') → m.Meets P es s'

theorem meets_of {m : Machine σ ε ω φ} {P : ε → σ → Prop} (h : ∀ e s, P e s) :
    ∀ (es : List ε) (s : σ), m.Meets P es s
  | [], _ => trivial
  | e :: es, s => ⟨h e s, fun _ s' _ => meets_of h es s'⟩

theorem meets_true (m : Machine σ ε ω φ) (es : List ε) (s : σ) : m.Meets (fun _ _ => True) es s :=
  meets_of (fun _ _ => trivial) es s

theorem meets_cons {m : Machine σ ε ω φ} {P : ε → σ → Prop} {e : ε} {es : List ε} {s s' : σ} {o : ω} (hP : P e s)
    (h : m.step e s = .ok (o, s')) (hes : m.Meets P es s') : m.Meets P (e :: es) s := by
  refine ⟨hP, fun o' s'' h' => ?_⟩
  rw [h] at h'
  cases h'
  exact hes

theorem Meets.mono {m : Machine σ ε ω φ} {P Q : ε → σ → Prop} (h : ∀ e s, P e s → Q e s) :
    ∀ {es : List ε} {s : σ}, m.Meets P es s → m.Meets Q es s
  | [], _, _ => trivial
  | _ :: _, _, hm => ⟨h _ _ hm.1, fun o s' hs => Meets.mono h (hm.2 o s' hs)⟩

@[simp] theorem run_nil (m : Machine σ ε ω φ) (s : σ) : m.run [] s = .ok ([], s) := rfl

theorem run_cons (m : Machine σ ε ω φ) {e : ε} {s s₁ : σ} {o : ω} (es : List ε)
    (h : m.step e s = .ok (o, s₁)) :
    m.run (e :: es) s = (m.run es s₁).map fun r => (o :: r.1, r.2) := by
  simp only [run, h, bind, Except.bind, pure, Except.pure]
  cases m.run es s₁ <;> rfl

theorem run_cons_error (m : Machine σ ε ω φ) {e : ε} {s : σ} {f : φ} (es : List ε)
    (h : m.step e s = .error f) : m.run (e :: es) s = .error f := by
  simp only [run, h, bind, Except.bind]

/-- A returning run splits at its first event. -/
theorem run_cons_inv {m : Machine σ ε ω φ} {e : ε} {es : List ε} {s s' : σ} {os : List ω}
    (h : m.run (e :: es) s = .ok (os, s')) :
    ∃ o s₁ os₁, m.step e s = .ok (o, s₁) ∧ m.run es s₁ = .ok (os₁, s') ∧ os = o :: os₁ := by
  cases hs : m.step e s with
  | error f => rw [run_cons_error m es hs] at h; cases h
  | ok r =>
    obtain ⟨o, s₁⟩ := r
    rw [run_cons m es hs] at h
    cases hr : m.run es s₁ with
    | error f => rw [hr] at h; cases h
    | ok r =>
      rw [hr] at h
      cases h
      exact ⟨o, s₁, r.1, rfl, hr, rfl⟩

theorem run_append (m : Machine σ ε ω φ) {es es' : List ε} {s s₁ : σ} {os : List ω}
    (h : m.run es s = .ok (os, s₁)) :
    m.run (es ++ es') s = (m.run es' s₁).map fun r => (os ++ r.1, r.2) := by
  induction es generalizing s os with
  | nil =>
    cases h
    rw [List.nil_append]
    cases m.run es' s₁ <;> rfl
  | cons e es ih =>
    obtain ⟨o, s₂, os₁, hs, hr, rfl⟩ := run_cons_inv h
    rw [List.cons_append, run_cons m _ hs, ih hr]
    cases m.run es' s₁ <;> rfl

theorem meets_append {m : Machine σ ε ω φ} {P : ε → σ → Prop} {es es' : List ε} {s : σ} (h : m.Meets P es s)
    (h' : ∀ os s', m.run es s = .ok (os, s') → m.Meets P es' s') : m.Meets P (es ++ es') s := by
  induction es generalizing s with
  | nil => exact h' [] s rfl
  | cons e es ih =>
    refine ⟨h.1, fun o s₁ hs => ih (h.2 o s₁ hs) fun os s' hr => ?_⟩
    exact h' (o :: os) s' (by rw [run_cons m es hs, hr]; rfl)

/-- What every step keeps, a run keeps. -/
theorem run_inv {m : Machine σ ε ω φ} {I : σ → Prop} {P : ε → σ → Prop}
    (hstep : ∀ e s o s', I s → P e s → m.step e s = .ok (o, s') → I s') :
    ∀ {es : List ε} {s s' : σ} {os : List ω}, I s → m.Meets P es s → m.run es s = .ok (os, s') → I s'
  | [], _, _, _, hi, _, h => by cases h; exact hi
  | _ :: _, _, _, _, hi, hm, h => by
    obtain ⟨o, s₁, os₁, hs, hr, -⟩ := run_cons_inv h
    exact run_inv hstep (hstep _ _ _ _ hi hm.1 hs) (hm.2 _ _ hs) hr

/-- What an invariant gives each step of a run that keeps to its condition. -/
theorem meets_inv {m : Machine σ ε ω φ} {I : σ → Prop} {P Q : ε → σ → Prop}
    (hstep : ∀ e s o s', I s → P e s → m.step e s = .ok (o, s') → I s') (hQ : ∀ e s, I s → P e s → Q e s) :
    ∀ {es : List ε} {s : σ}, I s → m.Meets P es s → m.Meets Q es s
  | [], _, _, _ => trivial
  | _ :: _, _, hi, hm =>
    ⟨hQ _ _ hi hm.1, fun o s' hs => meets_inv hstep hQ (hstep _ _ o s' hi hm.1 hs) (hm.2 o s' hs)⟩

/-- Where every step returns, and what it observes is as wanted exactly if the condition
holds of it, a run returns, and all it observes is as wanted exactly if it keeps to the
condition. -/
theorem observed_iff {m : Machine σ ε ω φ} {P : ε → σ → Prop} {G : ω → Prop}
    (hstep : ∀ e s, ∃ o s', m.step e s = .ok (o, s') ∧ (G o ↔ P e s)) :
    ∀ (es : List ε) (s : σ), ∃ os s', m.run es s = .ok (os, s') ∧ ((∀ o ∈ os, G o) ↔ m.Meets P es s)
  | [], s => ⟨[], s, rfl, by simp [Meets]⟩
  | e :: es, s => by
    obtain ⟨o, s₁, hs, ho⟩ := hstep e s
    obtain ⟨os, s', hr, hos⟩ := observed_iff hstep es s₁
    refine ⟨o :: os, s', by rw [run_cons m es hs, hr]; rfl, ?_⟩
    rw [List.forall_mem_cons, ho, hos]
    constructor
    · rintro ⟨hP, hm⟩
      refine ⟨hP, fun o' s'' hs' => ?_⟩
      rw [hs] at hs'
      cases hs'
      exact hm
    · intro h
      exact ⟨h.1, h.2 o s₁ hs⟩

/-- The assertion holds in all states of the run from `s`, the first and the last among them. -/
def Always (m : Machine σ ε ω φ) (I : σ → Prop) : List ε → σ → Prop
  | [], s => I s
  | e :: es, s => I s ∧ ∀ o s', m.step e s = .ok (o, s') → m.Always I es s'

theorem always_cons {m : Machine σ ε ω φ} {I : σ → Prop} {e : ε} {es : List ε} {s s' : σ} {o : ω}
    (h : m.step e s = .ok (o, s')) : m.Always I (e :: es) s ↔ I s ∧ m.Always I es s' := by
  constructor
  · rintro ⟨hi, hrest⟩
    exact ⟨hi, hrest o s' h⟩
  · rintro ⟨hi, hrest⟩
    refine ⟨hi, fun o' s'' h' => ?_⟩
    rw [h] at h'
    cases h'
    exact hrest

theorem Always.start {m : Machine σ ε ω φ} {I : σ → Prop} : ∀ {es : List ε} {s : σ}, m.Always I es s → I s
  | [], _, h => h
  | _ :: _, _, h => h.1

/-- Where the condition keeps an invariant that gives the assertion, and a step that leads to
the assertion meets the condition, a run that returns has the assertion in all its states
exactly if it keeps to the condition. -/
theorem always_iff {m : Machine σ ε ω φ} {I J : σ → Prop} {P Q : ε → σ → Prop} (hJ : ∀ s, J s → I s)
    (hgood : ∀ e s o s', J s → P e s → m.step e s = .ok (o, s') → Q e s → J s')
    (hbad : ∀ e s o s', J s → P e s → m.step e s = .ok (o, s') → I s' → Q e s) :
    ∀ {es : List ε} {s s' : σ} {os : List ω}, J s → m.Meets P es s → m.run es s = .ok (os, s') →
      (m.Always I es s ↔ m.Meets Q es s)
  | [], s, _, _, hj, _, _ => ⟨fun _ => trivial, fun _ => hJ s hj⟩
  | e :: es, s, s', os, hj, hm, h => by
    obtain ⟨o, s₁, os₁, hs, hr, -⟩ := run_cons_inv h
    rw [always_cons hs]
    constructor
    · rintro ⟨-, hrest⟩
      have hQ : Q e s := hbad _ _ _ _ hj hm.1 hs hrest.start
      have hj₁ : J s₁ := hgood _ _ _ _ hj hm.1 hs hQ
      exact meets_cons hQ hs ((always_iff hJ hgood hbad hj₁ (hm.2 _ _ hs) hr).mp hrest)
    · rintro ⟨hQ, hrest⟩
      have hj₁ : J s₁ := hgood _ _ _ _ hj hm.1 hs hQ
      exact ⟨hJ s hj, (always_iff hJ hgood hbad hj₁ (hm.2 _ _ hs) hr).mpr (hrest _ _ hs)⟩

/-- What every step keeps of the state and of all that was observed before it. -/
theorem run_traced {m : Machine σ ε ω φ} {J : List ω → σ → Prop} {P : ε → σ → Prop}
    (hstep : ∀ os e s o s', J os s → P e s → m.step e s = .ok (o, s') → J (os ++ [o]) s') :
    ∀ {es : List ε} {s s' : σ} {os os' : List ω}, J os s → m.Meets P es s → m.run es s = .ok (os', s') →
      J (os ++ os') s'
  | [], _, _, os, _, hj, _, h => by
    cases h
    rwa [List.append_nil]
  | _ :: _, _, _, os, _, hj, hm, h => by
    obtain ⟨o, s₁, os₁, hs, hr, rfl⟩ := run_cons_inv h
    have hrest := run_traced hstep (hstep os _ _ o s₁ hj hm.1 hs) (hm.2 _ _ hs) hr
    rwa [List.append_assoc, List.singleton_append] at hrest

/-- A run returns where every step does. -/
theorem run_returns {m : Machine σ ε ω φ} {I : σ → Prop} {P : ε → σ → Prop}
    (hstep : ∀ e s, I s → P e s → ∃ o s', m.step e s = .ok (o, s') ∧ I s') :
    ∀ {es : List ε} {s : σ}, I s → m.Meets P es s → ∃ os s', m.run es s = .ok (os, s') ∧ I s'
  | [], s, hi, _ => ⟨[], s, rfl, hi⟩
  | e :: es, s, hi, hm => by
    obtain ⟨o, s₁, hs, hi₁⟩ := hstep e s hi hm.1
    obtain ⟨os, s', hr, hi'⟩ := run_returns hstep hi₁ (hm.2 _ _ hs)
    exact ⟨o :: os, s', by rw [run_cons m es hs, hr]; rfl, hi'⟩

/-- A fault no step raises, no run raises. -/
theorem run_no_fault {m : Machine σ ε ω φ} {I : σ → Prop} {P : ε → σ → Prop} {B : φ → Prop}
    (hstep : ∀ e s o s', I s → P e s → m.step e s = .ok (o, s') → I s')
    (hbad : ∀ e s f, I s → P e s → m.step e s = .error f → ¬ B f) :
    ∀ {es : List ε} {s : σ} {f : φ}, I s → m.Meets P es s → m.run es s = .error f → ¬ B f
  | [], _, _, _, _, h => by cases h
  | e :: es, s, f, hi, hm, h => by
    cases hs : m.step e s with
    | error g =>
      rw [run_cons_error m es hs] at h
      cases h
      exact hbad _ _ _ hi hm.1 hs
    | ok r =>
      rw [run_cons m es hs] at h
      cases hr : m.run es r.2 with
      | error g =>
        rw [hr] at h
        cases h
        exact run_no_fault hstep hbad (hstep _ _ _ _ hi hm.1 hs) (hm.2 _ _ hs) hr
      | ok _ => rw [hr] at h; cases h

/-- A machine that matches another step by step, from related states and where
the side condition holds, makes the same observations over a whole run. -/
theorem run_sim {A : Machine σ ε ω φ} {B : Machine τ ε ω ψ} {R : σ → τ → Prop} {P : ε → σ → Prop}
    (hstep : ∀ e s t o s', R s t → P e s → A.step e s = .ok (o, s') →
      ∃ t', B.step e t = .ok (o, t') ∧ R s' t') :
    ∀ {es : List ε} {s s' : σ} {t : τ} {os : List ω}, R s t → A.Meets P es s →
      A.run es s = .ok (os, s') → ∃ t', B.run es t = .ok (os, t') ∧ R s' t'
  | [], _, _, t, _, hR, _, h => by cases h; exact ⟨t, rfl, hR⟩
  | _ :: es, _, _, _, _, hR, hm, h => by
    obtain ⟨o, s₁, os₁, hs, hr, rfl⟩ := run_cons_inv h
    obtain ⟨t₁, ht, hR₁⟩ := hstep _ _ _ _ _ hR hm.1 hs
    obtain ⟨t', hr', hR'⟩ := run_sim hstep hR₁ (hm.2 _ _ hs) hr
    exact ⟨t', by rw [run_cons B es ht, hr']; rfl, hR'⟩

/-- What a specification that may leave choices open allows of a list of events: the
observations, and the state after them. -/
inductive Allowed (spec : ε → τ → ω → τ → Prop) : List ε → τ → List ω → τ → Prop
  | nil (t : τ) : Allowed spec [] t [] t
  | cons {e es t o t₁ os t'} (h : spec e t o t₁) (hs : Allowed spec es t₁ os t') : Allowed spec (e :: es) t (o :: os) t'

/-- A machine each of whose steps returns, as the specification allows, has only runs that
the specification allows. -/
theorem run_allowed {m : Machine σ ε ω φ} {R : σ → τ → Prop} {spec : ε → τ → ω → τ → Prop}
    (hstep : ∀ e s t, R s t → ∃ o s' t', m.step e s = .ok (o, s') ∧ spec e t o t' ∧ R s' t') :
    ∀ (es : List ε) {s : σ} {t : τ}, R s t → ∃ os s' t', m.run es s = .ok (os, s') ∧ Allowed spec es t os t' ∧ R s' t'
  | [], s, t, hR => ⟨[], s, t, rfl, .nil t, hR⟩
  | e :: es, s, t, hR => by
    obtain ⟨o, s₁, t₁, hs, ho, hR₁⟩ := hstep e s t hR
    obtain ⟨os, s', t', hr, hos, hR'⟩ := run_allowed hstep es hR₁
    exact ⟨o :: os, s', t', by rw [run_cons m es hs, hr]; rfl, .cons ho hos, hR'⟩

/-! ## Two parties on one machine -/

/-- The observations of the events `mine` selects, out of those of the whole run. -/
def seen (mine : ε → Bool) (es : List ε) (os : List ω) : List ω :=
  ((es.zip os).filter fun p => mine p.1).map (·.2)

/-- Nothing bad is observed as far as the run goes, and it does not stop with a bad fault. -/
def Quiet (m : Machine σ ε ω φ) (B : ω → Prop) (F : φ → Prop) : List ε → σ → Prop
  | [], _ => True
  | e :: es, s =>
    match m.step e s with
    | .ok (o, s') => ¬ B o ∧ m.Quiet B F es s'
    | .error f => ¬ F f

section Words

variable {α ρ : Type} {m : Machine σ ε ω φ} {B : ω → Prop} {F : φ → Prop} {e : ε} {es : List ε} {s s' : σ}

theorem quiet_cons {o : ω} (h : m.step e s = .ok (o, s')) : m.Quiet B F (e :: es) s ↔ ¬ B o ∧ m.Quiet B F es s' := by
  simp only [Quiet, h]

theorem quiet_cons_error {f : φ} (h : m.step e s = .error f) : m.Quiet B F (e :: es) s ↔ ¬ F f := by
  simp only [Quiet, h]

/-- A quiet run that returns has observed nothing bad, and one that stops has not done so badly. -/
theorem Quiet.run : ∀ {es : List ε} {s : σ}, m.Quiet B F es s →
    (∀ os s', m.run es s = .ok (os, s') → ∀ o ∈ os, ¬ B o) ∧ ∀ f, m.run es s = .error f → ¬ F f
  | [], _, _ => by
    refine ⟨fun os s' h => ?_, fun f h => ?_⟩
    · cases h
      exact fun o ho => absurd ho List.not_mem_nil
    · cases h
  | e :: es, s, hq => by
    cases hs : m.step e s with
    | error g =>
      rw [run_cons_error m es hs]
      refine ⟨fun os s' h => (by cases h), fun f h => ?_⟩
      cases h
      exact (quiet_cons_error hs).mp hq
    | ok r =>
      obtain ⟨o, s₁⟩ := r
      obtain ⟨ho, hrest⟩ := (quiet_cons hs).mp hq
      obtain ⟨hok, herror⟩ := Quiet.run hrest
      rw [run_cons m es hs]
      cases hr : m.run es s₁ with
      | error g =>
        refine ⟨fun os s' h => (by cases h), fun f h => ?_⟩
        cases h
        exact herror g hr
      | ok r =>
        refine ⟨fun os s' h => ?_, fun f h => (by cases h)⟩
        cases h
        exact List.forall_mem_cons.mpr ⟨ho, hok r.1 r.2 hr⟩

/-- The automaton takes every word. -/
def accepts (accept : α → ρ → Bool) (next : α → ρ → α) : α → List ρ → Bool
  | _, [] => true
  | a, t :: ts => accept a t && accepts accept next (next a t) ts

/-- Where the automaton takes a word exactly if the run of it is quiet, and follows the
state over it, a run of words is quiet exactly if the automaton takes them all. -/
theorem quiet_iff_accepts {accept : α → ρ → Bool} {next : α → ρ → α} {I : α → σ → Prop} {W : ρ → Prop}
    {word : ρ → List ε}
    {last : List ε}
    (hgood : ∀ a t s, I a s → W t → accept a t = true → ∃ s', I (next a t) s' ∧
      ∀ es, m.Quiet B F (word t ++ es) s ↔ m.Quiet B F es s')
    (hbad : ∀ a t s, I a s → W t → accept a t = false → ∀ es, ¬ m.Quiet B F (word t ++ es) s)
    (hlast : ∀ a s, I a s → m.Quiet B F last s) :
    ∀ {ts : List ρ} {a : α} {s : σ}, I a s → (∀ t ∈ ts, W t) →
      (m.Quiet B F (ts.flatMap word ++ last) s ↔ accepts accept next a ts = true)
  | [], a, s, hi, _ => ⟨fun _ => rfl, fun _ => hlast a s hi⟩
  | t :: ts, a, s, hi, hw => by
    obtain ⟨ht, hts⟩ := List.forall_mem_cons.mp hw
    rw [List.flatMap_cons, List.append_assoc]
    cases hacc : accept a t with
    | true =>
      obtain ⟨s', hi', hquiet⟩ := hgood a t s hi ht hacc
      rw [hquiet, quiet_iff_accepts hgood hbad hlast hi' hts, accepts, hacc, Bool.true_and]
    | false =>
      rw [accepts, hacc, Bool.false_and]
      exact ⟨fun h => absurd h (hbad a t s hi ht hacc _), fun h => by cases h⟩

end Words

end Machine

end MultiScript.Run
