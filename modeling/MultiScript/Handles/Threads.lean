/-
Handles in a VM with several threads. The stack of a callback works on one
thread, and the script that called the callback waits on another one, or on the
same. Where it is the same, threads make no difference.
-/
import MultiScript.Handles.Spec
import MultiScript.Objects

namespace MultiScript.Handles

open Run

variable {C H F V W Fr : Type}

/-- The operations of a backend on the thread `S`, for a script that calls from the
thread `L`. -/
def Backend.threads (b : Backend C H F V) (v : FrameView C Fr W) (S L : Nat) : Backend (VmState Fr W) H F V where
  pop st p := onThread v S (b.pop st p)
  push st p := onThread v S (b.push st p)
  getNumParams := b.getNumParams
  beginCall name := onThread v S (b.beginCall name)
  endCall st := onThread v S (b.endCall st)
  releaseAfterCall st := onThread v S (b.releaseAfterCall st)
  target st s := b.target st (s.context v S)
  returned st s := b.returned st (s.context v L)

/-- The host as the thread `L` has it, among threads that are as they were in `s₀`. -/
structure OnThread (v : FrameView C Fr W) (L : Nat) (s₀ : VmState Fr W) (x : Host C H)
    (y : Host (VmState Fr W) H) : Prop where
  c : y.c.context v L = x.c
  stack : y.stack = x.stack
  next : y.next = x.next
  inner : y.inner = x.inner
  others : ∀ L', L' ≠ L → y.c.frame L' = s₀.frame L'
  objects : y.c.objects = s₀.objects

variable {v : FrameView C Fr W} {b : Backend C H F V} {L : Nat} {s₀ : VmState Fr W} {x : Host C H}
  {y : Host (VmState Fr W) H} {α : Type}

theorem OnThread.onInner (h : OnThread v L s₀ x y) {n : Nat} {op : H → C → Except Fault (α × C)}
    {op' : H → VmState Fr W → Except Fault (α × VmState Fr W)} (hop : ∀ i s, op' i s = onThread v L (op i) s)
    {a : α} {c : C} (ho : onInner x n op = .ok (a, c)) :
    onInner y n op' = .ok (a, y.c.setContext v L c) := by
  unfold Handles.onInner at ho ⊢
  rw [h.inner]
  cases hi : x.inner n with
  | none => rw [hi] at ho; cases ho
  | some i =>
    rw [hi] at ho
    exact (hop i y.c).trans (onThread_ok (by rw [h.c]; exact ho))

/-- An operation that is made on both sides. -/
theorem OnThread.set (h : OnThread v L s₀ x y) (c : C) :
    OnThread v L s₀ { x with c } { y with c := y.c.setContext v L c } where
  c := setContext_context c
  stack := h.stack
  next := h.next
  inner := h.inner
  others L' hne := (setContext_other hne c).trans (h.others L' hne)
  objects := h.objects

theorem bind_pair_ok {φ β γ : Type} {m : Except φ (α × β)} {k : α × β → Except φ γ} {r : γ}
    (h : (m >>= k) = .ok r) : ∃ a s, m = .ok (a, s) ∧ k (a, s) = .ok r := by
  cases m with
  | error f => cases h
  | ok p => exact ⟨p.1, p.2, rfl, h⟩

theorem threads_step {e : Event} {o : Obs F V} {x' : Host C H} (hR : OnThread v L s₀ x y)
    (h : hostStep b e x = .ok (o, x')) :
    ∃ y', hostStep (b.threads v L L) e y = .ok (o, y') ∧ OnThread v L s₀ x' y' := by
  cases e with
  | pop p =>
    obtain ⟨r, c, hp, he⟩ := bind_pair_ok h
    cases he
    have hp' : (b.threads v L L).pop y.stack p y.c = .ok (r, y.c.setContext v L c) :=
      onThread_ok (by rw [hR.stack, hR.c]; exact hp)
    exact ⟨{ y with c := y.c.setContext v L c, stack := r.2 }, by simp only [hostStep, hp']; rfl,
      { hR.set c with stack := rfl }⟩
  | push p =>
    obtain ⟨r, c, hp, he⟩ := bind_pair_ok h
    cases he
    have hp' : (b.threads v L L).push y.stack p y.c = .ok (r, y.c.setContext v L c) :=
      onThread_ok (by rw [hR.stack, hR.c]; exact hp)
    exact ⟨{ y with c := y.c.setContext v L c, stack := r.2 }, by simp only [hostStep, hp']; rfl,
      { hR.set c with stack := rfl }⟩
  | numParams =>
    cases h
    exact ⟨y, by simp only [hostStep, hR.stack]; rfl, hR⟩
  | begin name =>
    obtain ⟨i, c, hp, he⟩ := bind_pair_ok h
    have hp' : (b.threads v L L).beginCall name y.c = .ok (i, y.c.setContext v L c) :=
      onThread_ok (by rw [hR.c]; exact hp)
    cases i with
    | none =>
      cases he
      exact ⟨{ y with c := y.c.setContext v L c }, by simp only [hostStep, hp']; rfl, hR.set c⟩
    | some i =>
      cases he
      refine ⟨{ y.set y.next (some i) with c := y.c.setContext v L c, next := y.next + 1 },
        by simp only [hostStep, hp']; rfl, ?_⟩
      exact { hR.set c with
        next := by simp [hR.next]
        inner := by simp [Host.set, hR.inner, hR.next] }
  | callPush n p =>
    obtain ⟨r, c, hp, he⟩ := bind_pair_ok h
    cases he
    refine ⟨{ y.set n (some r.2) with c := y.c.setContext v L c }, ?_, ?_⟩
    · simp only [hostStep, Backend.threads, hR.onInner (fun _ _ => rfl) hp]
      rfl
    · exact { hR.set c with inner := by simp [Host.set, hR.inner] }
  | endCall n =>
    obtain ⟨r, c, hp, he⟩ := bind_pair_ok h
    cases he
    refine ⟨{ y.set n (some r.1.2) with c := y.c.setContext v L c }, ?_, ?_⟩
    · have hop : ∀ (i : H) (s : VmState Fr W),
          ((onThread v L (b.endCall i) s).map fun q => ((q.1, b.target i (s.context v L)), q.2))
            = onThread v L (fun c => (b.endCall i c).map fun q => ((q.1, b.target i c), q.2)) s := by
        intro i s
        simp only [onThread]
        cases b.endCall i (s.context v L) <;> rfl
      simp only [hostStep, Backend.threads, hR.onInner hop hp]
      rfl
    · exact { hR.set c with inner := by simp [Host.set, hR.inner] }
  | callPop n p =>
    obtain ⟨r, c, hp, he⟩ := bind_pair_ok h
    cases he
    refine ⟨{ y.set n (some r.2) with c := y.c.setContext v L c }, ?_, ?_⟩
    · simp only [hostStep, Backend.threads, hR.onInner (fun _ _ => rfl) hp]
      rfl
    · exact { hR.set c with inner := by simp [Host.set, hR.inner] }
  | callNumParams n =>
    obtain ⟨r, c, hp, he⟩ := bind_pair_ok h
    cases he
    refine ⟨{ y with c := y.c.setContext v L c }, ?_, hR.set c⟩
    have hop : ∀ (i : H) (s : VmState Fr W),
        .ok (b.getNumParams i, s) = onThread v L (fun c => .ok (b.getNumParams i, c)) s := by
      intro i s
      simp [onThread]
    simp only [hostStep, Backend.threads, hR.onInner hop hp]
    rfl
  | release n =>
    obtain ⟨r, c, hp, he⟩ := bind_pair_ok h
    cases he
    refine ⟨{ y.set n none with c := y.c.setContext v L c }, ?_, ?_⟩
    · simp only [hostStep, Backend.threads, hR.onInner (fun _ _ => rfl) hp]
      rfl
    · exact { hR.set c with inner := by simp [Host.set, hR.inner] }
  | ret =>
    cases h
    exact ⟨y, by simp only [hostStep, Backend.threads, hR.c, hR.stack], hR⟩

/-- A run of handles on one thread is a run of them among other threads, which it
does not change. -/
theorem threads_run {es : List Event} {os : List (Obs F V)} {st : H} {x' : Host C H}
    (h : (handles b).run es (.start (s₀.context v L) st) = .ok (os, x')) :
    ∃ y, (handles (b.threads v L L)).run es (.start s₀ st) = .ok (os, y) ∧ y.c.context v L = x'.c ∧
      (∀ L', L' ≠ L → y.c.frame L' = s₀.frame L') ∧ y.c.objects = s₀.objects ∧ y.stack = x'.stack := by
  have hstart : OnThread v L s₀ (.start (s₀.context v L) st : Host C H) (.start s₀ st) :=
    ⟨rfl, rfl, rfl, rfl, fun _ _ => rfl, rfl⟩
  have hstep : ∀ e x y o x', OnThread v L s₀ x y → True → (handles b).step e x = .ok (o, x') →
      ∃ y', (handles (b.threads v L L)).step e y = .ok (o, y') ∧ OnThread v L s₀ x' y' :=
    fun _ _ _ _ _ hR _ h => threads_step hR h
  obtain ⟨y, hy, hR⟩ := Machine.run_sim hstep hstart (Machine.meets_true _ _ _) h
  exact ⟨y, hy, hR.c, hR.others, hR.objects, hR.stack⟩

end MultiScript.Handles
