/-
What any run of a machine keeps of its threads: the lists, the blocks and the states belong
together, and the threads whose `Sys_Execute` goes on are running, the one of the cycle the
outermost. With that, the loops of the machine reach what they are to reach: those of `Execute` wake
every thread that is due or has been signalled, and no other, and its cycle misses no thread that
goes on running.
-/
import MultiScript.GameMonkey.ThreadLists
import MultiScript.Lib.Run

namespace MultiScript.GameMonkey.Scheduler

variable {V : Type} {m m' m'' : Machine V} {p p' : ThreadPtr} {q q' : ThreadList} {loose : Option ThreadPtr}
  {P Q : ThreadPtr → Prop}

/-! ## The invariant -/

/-- The threads whose `Sys_Execute` goes on. -/
structure Executing (m : Machine V) (fs : List Frame) : Prop where
  running : ∀ f ∈ fs, f.thread ∈ m.lists .running
  nodup : (fs.map Frame.thread).Nodup
  last : fs.Pairwise fun f _ => f.cycle = false

/-- The threads of a machine are as they are to be. -/
structure Sound (m : Machine V) : Prop where
  steady : Steady m
  executing : Executing m m.executing
  valid : m.nextThreadValid = true ↔ ∃ f ∈ m.executing, f.cycle = true

/-- A change that only some of the threads are part of. -/
structure Kept (m : Machine V) (P : ThreadPtr → Prop) (m' : Machine V) : Prop where
  steady : Steady m'
  executing : m'.executing = m.executing
  valid : m'.nextThreadValid = m.nextThreadValid
  time : m'.time = m.time
  mem : ∀ p, ¬P p → ∀ q, p ∈ m'.lists q ↔ p ∈ m.lists q
  other : ∀ p, ¬P p → m'.thread p = m.thread p
  rest : ∀ p ∈ m.rest, p ∈ m'.lists .running → p ∈ m'.rest

/-- A change that kills some of the threads. -/
structure Killing (m : Machine V) (P : ThreadPtr → Prop) (m' : Machine V) : Prop where
  kept : Kept m P m'
  threads : ∀ p, p ∈ m'.threads ↔ p ∈ m.threads ∧ ¬P p

/-- What a thread goes on with: what it was signalled, or what it had. -/
def Machine.woken (m : Machine V) (p : ThreadPtr) : Option V :=
  if (m.thread p).state = .sysPending then (m.signalledBlock p).map fun b => (m.block b).block else (m.thread p).result

/-- A change by which some of the threads go on. -/
structure Woken (m : Machine V) (P : ThreadPtr → Prop) (m' : Machine V) : Prop where
  kept : Kept m P m'
  block : m'.block = m.block
  threads : ∀ p, p ∈ m'.threads ↔ p ∈ m.threads
  running : ∀ p, P p → p ∈ m'.lists .running
  result : ∀ p, P p → (m'.thread p).result = m.woken p

theorem Placed.somewhere (h : Placed m none) (hp : p ∈ m.threads) : ∃ q, q ≠ .killed ∧ p ∈ m.lists q :=
  ((h.live p).mp hp).resolve_left (by simp)

theorem Placed.not_killed (h : Placed m none) (hp : p ∈ m.threads) : (m.thread p).state ≠ .killed := by
  obtain ⟨q, hq, hmem⟩ := h.somewhere hp
  intro hstate
  have hplace := h.place hmem
  rw [hstate] at hplace
  exact hq hplace.symm

theorem Placed.lives (h : Placed m none) (hp : p ∈ m.lists q) (hq : q ≠ .killed) : p ∈ m.threads :=
  (h.live p).mpr (.inr ⟨q, hq, hp⟩)

theorem Placed.one (h : Placed m loose) (hp : p ∈ m.lists q) (hp' : p ∈ m.lists q') : q = q' :=
  (h.place hp).symm.trans (h.place hp')

theorem rest_congr (hlists : m'.lists .running = m.lists .running) (hnext : m'.nextThread = m.nextThread) :
    m'.rest = m.rest := by
  unfold Machine.rest
  rw [hlists, hnext]

/-- A thread that is put last is no other's loss. -/
theorem rest_append (hlists : m'.lists .running = m.lists .running ++ [p]) (hnext : m'.nextThread = m.nextThread)
    (hp' : p' ∈ m.rest) :
    p' ∈ m'.rest := by
  unfold Machine.rest at hp' ⊢
  rw [hnext, hlists]
  cases hn : m.nextThread with
  | none =>
    rw [hn] at hp'
    exact absurd hp' List.not_mem_nil
  | some n =>
    rw [hn] at hp'
    exact dropWhile_append hp' _

namespace Kept

theorem refl (h : Steady m) : Kept m P m := ⟨h, rfl, rfl, rfl, fun _ _ _ => Iff.rfl, fun _ _ => rfl, fun _ hp _ => hp⟩

theorem mono (h : Kept m P m') (hPQ : ∀ p, P p → Q p) : Kept m Q m' :=
  ⟨h.steady, h.executing, h.valid, h.time, fun p hp => h.mem p fun hand => hp (hPQ p hand),
    fun p hp => h.other p fun hand => hp (hPQ p hand),
    h.rest⟩

theorem trans (h : Kept m P m') (h' : Kept m' Q m'')
    (hback : ∀ p ∈ m.rest, p ∈ m''.lists .running → p ∈ m'.lists .running) :
    Kept m (fun p => P p ∨ Q p) m'' := by
  refine ⟨h'.steady, h'.executing.trans h.executing, h'.valid.trans h.valid, h'.time.trans h.time,
    fun p hp q => ?_, fun p hp => ?_,
    fun p hp hrunning => ?_⟩
  · exact (h'.mem p (fun hand => hp (.inr hand)) q).trans (h.mem p (fun hand => hp (.inl hand)) q)
  · exact (h'.other p fun hand => hp (.inr hand)).trans (h.other p fun hand => hp (.inl hand))
  · exact h'.rest p (h.rest p hp (hback p hp hrunning)) hrunning

end Kept

/-- A running thread that is switched leaves the running ones. -/
theorem Switched.kept (h : Switched m p q m') (hm : Placed m none) (hq : p ∈ m.lists .running → q ≠ .running) :
    Kept m (· = p) m' := by
  refine ⟨h.steady, h.executing, h.valid, h.time, fun p' hp q' => h.mem p' q' hp, h.other, fun p' hp' hrunning => ?_⟩
  by_cases hne : p' = p
  · rw [hne] at hp' hrunning
    have hp := mem_running_of_rest hp'
    rw [h.running, if_neg (hq hp), List.append_nil] at hrunning
    exact absurd hrunning (hm.nodup _).not_mem_erase
  · exact h.rest hm hp' hne

namespace Killing

theorem congr (h : Killing m P m') (hPQ : ∀ p, P p ↔ Q p) : Killing m Q m' := by
  refine ⟨h.kept.mono fun p => (hPQ p).mp, fun p => ?_⟩
  rw [h.threads, hPQ]

theorem none (h : Steady m) (hP : ∀ p, ¬P p) : Killing m P m := ⟨.refl h, fun p => ⟨fun hp => ⟨hp, hP p⟩, And.left⟩⟩

theorem trans (h : Killing m P m') (h' : Killing m' Q m'') : Killing m (fun p => P p ∨ Q p) m'' := by
  refine ⟨h.kept.trans h'.kept fun p _ hrunning => ?_, fun p => ?_⟩
  · have hlive := (h'.threads p).mp (h'.kept.steady.placed.lives hrunning (by decide))
    exact (h'.kept.mem p hlive.2 _).mp hrunning
  · rw [h'.threads, h.threads, not_or, and_assoc]

end Killing

namespace Woken

theorem congr (h : Woken m P m') (hPQ : ∀ p, P p ↔ Q p) : Woken m Q m' :=
  ⟨h.kept.mono fun p => (hPQ p).mp, h.block, h.threads, fun p hp => h.running p ((hPQ p).mpr hp),
    fun p hp => h.result p ((hPQ p).mpr hp)⟩

theorem none (h : Steady m) (hP : ∀ p, ¬P p) : Woken m P m :=
  ⟨.refl h, rfl, fun _ => Iff.rfl, fun p hp => absurd hp (hP p), fun p hp => absurd hp (hP p)⟩

theorem same (h : Woken m P m') (hp : ¬P p) : m'.woken p = m.woken p := by
  unfold Machine.woken Machine.signalledBlock
  rw [h.kept.other p hp, h.block]

theorem trans (h : Woken m P m') (h' : Woken m' Q m'') (hapart : ∀ p, P p → ¬Q p) :
    Woken m (fun p => P p ∨ Q p) m'' := by
  have hback : ∀ p ∈ m.rest, p ∈ m''.lists .running → p ∈ m'.lists .running := by
    intro p hp _
    by_cases hgo : P p
    · exact h.running p hgo
    · exact (h.kept.mem p hgo _).mpr (mem_running_of_rest hp)
  refine ⟨h.kept.trans h'.kept hback, h'.block.trans h.block, fun p => (h'.threads p).trans (h.threads p),
    fun p hp => ?_, fun p hp => ?_⟩
  · rcases hp with hp | hp
    · exact (h'.kept.mem p (hapart p hp) _).mpr (h.running p hp)
    · exact h'.running p hp
  · rcases hp with hp | hp
    · rw [h'.kept.other p (hapart p hp)]
      exact h.result p hp
    · rw [h'.result p hp, h.same fun hand => hapart p hand hp]

end Woken

section Steps

variable [DecidableEq V]

/-! ## Threads are killed -/

theorem Steady.kill (h : Steady m) (hp : p ∈ m.threads) : Killing m (· = p) (m.sysSwitchState p .killed) := by
  have hswitched := h.switch (q := .killed) hp (h.placed.not_killed hp) (by decide) (.inr (.inl rfl))
  refine ⟨hswitched.kept h.placed fun _ => by decide, fun p' => ?_⟩
  rw [hswitched.threads]
  simp

omit [DecidableEq V] in
theorem getThread_mem {id : Nat} (h : m.getThread id = some p) : p ∈ m.threads ∧ (m.thread p).id = id :=
  ⟨List.mem_of_find?_eq_some h, of_decide_eq_true (List.find?_some (p := fun p => decide ((m.thread p).id = id)) h)⟩

theorem Steady.killThread (h : Steady m) (id : Nat) :
    Killing m (fun p => m.getThread id = some p) (m.killThread id) := by
  unfold Machine.killThread
  cases hget : m.getThread id with
  | none => exact .none h nofun
  | some p => exact (h.kill (getThread_mem hget).1).congr fun p' => by rw [Option.some_inj, eq_comm]

/-- Some threads of a list are killed, one after the other. -/
theorem Steady.killAll {c : ThreadPtr → State → Bool} (hq : q ≠ .killed) :
    ∀ (l : List ThreadPtr) {m : Machine V}, Steady m → l.Nodup →
    (∀ p ∈ l, p ∈ m.lists q) → Killing m (fun p => p ∈ l ∧ c p (m.thread p).state = true)
      (l.foldl (fun m p => if c p (m.thread p).state then m.sysSwitchState p .killed else m) m)
  | [], _, h, _, _ => .none h fun _ hand => List.not_mem_nil hand.1
  | p :: l, m, h, hnodup, hl => by
    obtain ⟨hnot, hnodup⟩ := List.nodup_cons.mp hnodup
    obtain ⟨hp, hl⟩ := List.forall_mem_cons.mp hl
    rw [List.foldl_cons]
    by_cases hc : c p (m.thread p).state = true
    · rw [if_pos hc]
      have hkill := h.kill (h.placed.lives hp hq)
      have hne : ∀ {p'}, p' ∈ l → p' ≠ p := fun hp' heq => hnot (heq ▸ hp')
      have hrest := killAll (c := c) hq l hkill.kept.steady hnodup fun p' hp' =>
        (hkill.kept.mem p' (hne hp') q).mpr (hl p' hp')
      refine (hkill.trans hrest).congr fun p' => ?_
      rw [List.mem_cons]
      constructor
      · rintro (rfl | ⟨hp', hc'⟩)
        · exact ⟨.inl rfl, hc⟩
        · rw [hkill.kept.other p' (hne hp')] at hc'
          exact ⟨.inr hp', hc'⟩
      · rintro ⟨rfl | hp', hc'⟩
        · exact .inl rfl
        · rw [← hkill.kept.other p' (hne hp')] at hc'
          exact .inr ⟨hp', hc'⟩
    · rw [if_neg hc]
      refine (killAll hq l h hnodup hl).congr fun p' => ?_
      rw [List.mem_cons]
      refine ⟨fun hand => ⟨.inr hand.1, hand.2⟩, fun hand => ⟨hand.1.resolve_left ?_, hand.2⟩⟩
      rintro rfl
      exact hc hand.2

theorem Steady.killExceptionThreads (h : Steady m) : Killing m (· ∈ m.lists .exception) m.killExceptionThreads := by
  have hsame : m.killExceptionThreads =
      (m.lists .exception).reverse.foldl (fun m p => if true then m.sysSwitchState p .killed else m) m := by
    rw [List.foldl_reverse]
    rfl
  rw [hsame]
  have hkilling := h.killAll (c := fun _ _ => true) (q := .exception) (by decide) (m.lists .exception).reverse
    (List.nodup_reverse.mpr (h.placed.nodup _)) fun p hp => List.mem_reverse.mp hp
  refine hkilling.congr fun p => ?_
  rw [List.mem_reverse]
  exact ⟨And.left, fun hp => ⟨hp, rfl⟩⟩

/-- Which states `threadIterKill` looks for. -/
def kills (caller p : ThreadPtr) (s : State) : Bool :=
  decide (p ≠ caller) && decide (s = .running ∨ s = .sleeping ∨ s = .blocked)

theorem threadIterKill_eq (m : Machine V) (caller p : ThreadPtr) :
    m.threadIterKill p caller = if kills caller p (m.thread p).state then m.sysSwitchState p .killed else m := by
  unfold Machine.threadIterKill kills
  by_cases hp : p = caller
  · simp [hp]
  · cases hstate : (m.thread p).state <;> simp [hp]

theorem Steady.killLists {c : ThreadPtr → State → Bool} : ∀ (qs : List ThreadList) {m : Machine V}, Steady m →
    .killed ∉ qs →
    Killing m (fun p => ∃ q ∈ qs, p ∈ m.lists q ∧ c p (m.thread p).state = true)
      (qs.foldl (fun m q => (m.lists q).foldl
        (fun m p => if c p (m.thread p).state then m.sysSwitchState p .killed else m) m) m)
  | [], _, h, _ => .none h fun _ ⟨_, hq, _⟩ => List.not_mem_nil hq
  | q :: qs, m, h, hqs => by
    obtain ⟨hq, hqs⟩ := not_or.mp (mt List.mem_cons.mpr hqs)
    have hfirst := h.killAll (c := c) (Ne.symm hq) (m.lists q) (h.placed.nodup q) fun _ hp => hp
    rw [List.foldl_cons]
    refine (hfirst.trans (killLists qs hfirst.kept.steady hqs)).congr fun p => ?_
    constructor
    · rintro (hand | ⟨q', hq', hmem, hc⟩)
      · exact ⟨q, List.mem_cons_self, hand⟩
      · -- a thread that is still there has not been touched
        have hlive := hfirst.kept.steady.placed.lives hmem fun heq => hqs (heq ▸ hq')
        have hnot := ((hfirst.threads p).mp hlive).2
        rw [hfirst.kept.mem p hnot] at hmem
        rw [hfirst.kept.other p hnot] at hc
        exact ⟨q', List.mem_cons_of_mem _ hq', hmem, hc⟩
    · rintro ⟨q', hq', hmem, hc⟩
      by_cases hdone : p ∈ m.lists q ∧ c p (m.thread p).state = true
      · exact .inl hdone
      · rcases List.mem_cons.mp hq' with rfl | hq'
        · exact .inl ⟨hmem, hc⟩
        · refine .inr ⟨q', hq', (hfirst.kept.mem p hdone q').mpr hmem, ?_⟩
          rwa [hfirst.kept.other p hdone]

/-- `gmKillAllThreads`: a thread that has been signalled, or is in its exception, is passed over. -/
theorem Steady.killsAll (h : Steady m) (caller : ThreadPtr) :
    Killing m (fun p => p ∈ m.threads ∧ kills caller p (m.thread p).state = true)
      (m.forEachThread fun m q => m.threadIterKill q caller) := by
  have hsame : (m.forEachThread fun m q => m.threadIterKill q caller) =
      [ThreadList.running, .blocked, .sleeping, .exception].foldl
        (fun m q => (m.lists q).foldl
          (fun m p => if kills caller p (m.thread p).state then m.sysSwitchState p .killed else m) m) m := by
    unfold Machine.forEachThread
    simp only [threadIterKill_eq]
  rw [hsame]
  refine (h.killLists _ (by decide)).congr fun p => ?_
  constructor
  · rintro ⟨q, hq, hmem, hc⟩
    refine ⟨h.placed.lives hmem ?_, hc⟩
    rintro rfl
    exact absurd hq (by decide)
  · rintro ⟨hp, hc⟩
    obtain ⟨q, hq, hmem⟩ := h.placed.somewhere hp
    refine ⟨q, ?_, hmem, hc⟩
    cases q <;> simp at hq ⊢

/-! ## Threads go on -/

omit [DecidableEq V] in
/-- A change of a thread that its list and its blocks have nothing to do with. -/
theorem Steady.setThread {f : Thread V → Thread V} (h : Steady m) (hstate : (f (m.thread p)).state = (m.thread p).state)
    (hid : (f (m.thread p)).id = (m.thread p).id) (hblocks : (f (m.thread p)).blocks = (m.thread p).blocks)
    (hstamp : p ∈ m.lists .sleeping → (f (m.thread p)).timeStamp = (m.thread p).timeStamp)
    (hsignals : (f (m.thread p)).signals ≠ [] → (m.thread p).signals ≠ [] ∨ (m.thread p).state = .running ∨
      (m.thread p).state = .sysPending) :
    Steady (m.setThread p f) := by
  have hstates := Machine.setThread_field Thread.state hstate
  refine ⟨h.placed.congr rfl rfl rfl rfl rfl (fun p' => by rw [hstates])
    (Machine.setThread_field Thread.id hid) fun p' hp' => ?_,
    h.linked.congr rfl rfl (Machine.setThread_field Thread.blocks hblocks) (fun _ => rfl) fun _ => rfl,
    h.waiting.congr rfl (fun _ => rfl) (Machine.setThread_field Thread.blocks hblocks) hstates fun p' hp' => ?_⟩
  · by_cases hp : p' = p
    · subst hp
      rw [Machine.setThread_self, hstamp hp']
    · rw [Machine.setThread_of_ne hp]
  · by_cases hp : p' = p
    · subst hp
      rw [Machine.setThread_self] at hp'
      exact hsignals hp'
    · rw [Machine.setThread_of_ne hp] at hp'
      exact .inl hp'

omit [DecidableEq V] in
theorem Kept.setThread {f : Thread V → Thread V} (h : Steady (m.setThread p f)) : Kept m (· = p) (m.setThread p f) :=
  ⟨h, rfl, rfl, rfl, fun _ _ _ => Iff.rfl, fun _ hp => Machine.setThread_of_ne hp, fun _ hp _ => hp⟩

omit [DecidableEq V] in
theorem Placed.not_running (h : Placed m loose) (hp : p ∈ m.lists q) (hq : q ≠ .running) :
    (m.thread p).state ≠ .running := by
  intro hstate
  have hplace := h.place hp
  rw [hstate] at hplace
  exact hq hplace.symm

omit [DecidableEq V] in
theorem Switched.woken (h : Switched m p .running m') (hm : Placed m none) (hnot : p ∉ m.lists .running)
    (hresult : (m.thread p).result = m.woken p) : Woken m (· = p) m' := by
  have hthreads : ∀ p', p' ∈ m'.threads ↔ p' ∈ m.threads := by
    intro p'
    rw [h.threads]
    simp
  refine ⟨h.kept hm fun hmem => absurd hmem hnot, h.block, hthreads, ?_, ?_⟩
  · rintro p' rfl
    rw [h.running]
    simp
  · rintro p' rfl
    rw [(h.moved (by decide)).2.1, hresult]

theorem Steady.wake (h : Steady m) (hp : p ∈ m.lists .sleeping) : Woken m (· = p) (m.sysSwitchState p .running) := by
  have hlive := h.placed.lives hp (by decide)
  have hswitched := h.switch (q := .running) hlive (h.placed.not_running hp (by decide)) (by decide) (.inl rfl)
  have hstate : (m.thread p).state ≠ .sysPending := by
    intro hstate
    have hplace := h.placed.place hp
    rw [hstate] at hplace
    cases hplace
  exact hswitched.woken h.placed (fun hmem => absurd (h.placed.one hp hmem) (by decide))
    (by rw [Machine.woken, if_neg hstate])

theorem Steady.wakePending (h : Steady m) (hp : p ∈ m.lists .blocked) (hstate : (m.thread p).state = .sysPending) :
    Woken m (· = p) (m.wakePending p) := by
  rw [Machine.wakePending, if_pos hstate]
  generalize hr : (m.signalledBlock p).map (fun b => (m.block b).block) = r
  have hset : Steady (m.setThread p fun t => { t with result := r }) := h.setThread rfl rfl rfl (fun _ => rfl) .inl
  have hkept := Kept.setThread hset
  have hself : (m.setThread p fun t => { t with result := r }).thread p = { m.thread p with result := r } :=
    Machine.setThread_self
  have hlive : p ∈ (m.setThread p fun t => { t with result := r }).threads := h.placed.lives hp (by decide)
  have hne : ((m.setThread p fun t => { t with result := r }).thread p).state ≠ ThreadList.running.state := by
    rw [hself, hstate]
    decide
  have hswitched := hset.switch hlive hne (by decide) (.inl rfl)
  have hafter := hswitched.kept hset.placed fun hmem => absurd (h.placed.one hp hmem) (by decide)
  refine ⟨(hkept.trans hafter fun _ hp' _ => mem_running_of_rest hp').mono
    fun p' => by rintro (rfl | rfl) <;> rfl, hswitched.block,
    fun p' => ?_, ?_, ?_⟩
  · rw [hswitched.threads]
    exact ⟨And.left, fun hp' => ⟨hp', nofun⟩⟩
  · rintro p' rfl
    rw [hswitched.running]
    simp
  · rintro p' rfl
    rw [(hswitched.moved (by decide)).2.1, hself, Machine.woken, if_pos hstate, hr]

/-- The loop stops at the first thread that sleeps on; those after it wake up later. -/
theorem Steady.wakeSleeping : ∀ (l : List ThreadPtr) {m : Machine V}, Steady m → l.Nodup →
    (∀ p ∈ l, p ∈ m.lists .sleeping) →
    (l.Pairwise fun p p' => (m.thread p).timeStamp ≤ (m.thread p').timeStamp) →
      Woken m (fun p => p ∈ l ∧ (m.thread p).timeStamp ≤ m.time) (Machine.wakeSleeping l m)
  | [], _, h, _, _, _ => .none h fun _ hand => List.not_mem_nil hand.1
  | p :: l, m, h, hnodup, hl, hsorted => by
    obtain ⟨hnot, hnodup⟩ := List.nodup_cons.mp hnodup
    obtain ⟨hp, hl⟩ := List.forall_mem_cons.mp hl
    obtain ⟨hfirst, hsorted⟩ := List.pairwise_cons.mp hsorted
    have hne : ∀ {p'}, p' ∈ l → p' ≠ p := fun hp' heq => hnot (heq ▸ hp')
    rw [Machine.wakeSleeping]
    by_cases hdue : (m.thread p).timeStamp ≤ m.time
    · rw [if_pos hdue]
      have hwake := h.wake hp
      have hother : ∀ {p'}, p' ∈ l → (m.sysSwitchState p .running).thread p' = m.thread p' :=
        fun hp' => hwake.kept.other _ (hne hp')
      have hrest :=
        wakeSleeping l hwake.kept.steady hnodup (fun p' hp' => (hwake.kept.mem p' (hne hp') _).mpr (hl p' hp'))
        (hsorted.imp_of_mem fun hp₁ hp₂ hle => by rw [hother hp₁, hother hp₂]; exact hle)
      refine (hwake.trans hrest fun p' heq hand => hne hand.1 heq).congr fun p' => ?_
      rw [hwake.kept.time, List.mem_cons]
      constructor
      · rintro (rfl | ⟨hp', hle⟩)
        · exact ⟨.inl rfl, hdue⟩
        · rw [hother hp'] at hle
          exact ⟨.inr hp', hle⟩
      · rintro ⟨rfl | hp', hle⟩
        · exact .inl rfl
        · rw [← hother hp'] at hle
          exact .inr ⟨hp', hle⟩
    · rw [if_neg hdue]
      refine .none h fun p' ⟨hp', hle⟩ => hdue ?_
      rcases List.mem_cons.mp hp' with rfl | hp'
      · exact hle
      · exact UInt32.le_trans (hfirst p' hp') hle

theorem Steady.wakesPending : ∀ (l : List ThreadPtr) {m : Machine V}, Steady m → l.Nodup →
    (∀ p ∈ l, p ∈ m.lists .blocked) →
    Woken m (fun p => p ∈ l ∧ (m.thread p).state = .sysPending) (l.foldl Machine.wakePending m)
  | [], _, h, _, _ => .none h fun _ hand => List.not_mem_nil hand.1
  | p :: l, m, h, hnodup, hl => by
    obtain ⟨hnot, hnodup⟩ := List.nodup_cons.mp hnodup
    obtain ⟨hp, hl⟩ := List.forall_mem_cons.mp hl
    have hne : ∀ {p'}, p' ∈ l → p' ≠ p := fun hp' heq => hnot (heq ▸ hp')
    rw [List.foldl_cons]
    by_cases hstate : (m.thread p).state = .sysPending
    · have hwake := h.wakePending hp hstate
      have hrest := wakesPending l hwake.kept.steady hnodup fun p' hp' =>
        (hwake.kept.mem p' (hne hp') _).mpr (hl p' hp')
      refine (hwake.trans hrest fun p' heq hand => hne hand.1 heq).congr fun p' => ?_
      rw [List.mem_cons]
      constructor
      · rintro (rfl | ⟨hp', hs⟩)
        · exact ⟨.inl rfl, hstate⟩
        · rw [hwake.kept.other p' (hne hp')] at hs
          exact ⟨.inr hp', hs⟩
      · rintro ⟨rfl | hp', hs⟩
        · exact .inl rfl
        · rw [← hwake.kept.other p' (hne hp')] at hs
          exact .inr ⟨hp', hs⟩
    · rw [Machine.wakePending, if_neg hstate]
      refine (wakesPending l h hnodup hl).congr fun p' => ?_
      rw [List.mem_cons]
      refine ⟨fun hand => ⟨.inr hand.1, hand.2⟩, fun hand => ⟨hand.1.resolve_left ?_, hand.2⟩⟩
      rintro rfl
      exact hstate hand.2

/-- The two loops of `Execute` that wake up threads. -/
def Machine.wakes (m : Machine V) : Machine V :=
  let m := wakeSleeping (m.lists .sleeping) m
  (m.lists .blocked).foldl wakePending m

/-- Which threads are to go on. -/
def Due (m : Machine V) (p : ThreadPtr) : Prop :=
  p ∈ m.lists .sleeping ∧ (m.thread p).timeStamp ≤ m.time ∨ p ∈ m.lists .blocked ∧ (m.thread p).state = .sysPending

instance (m : Machine V) (p : ThreadPtr) : Decidable (Due m p) :=
  inferInstanceAs (Decidable (p ∈ m.lists .sleeping ∧ (m.thread p).timeStamp ≤ m.time ∨
    p ∈ m.lists .blocked ∧ (m.thread p).state = .sysPending))

theorem Steady.wakes (h : Steady m) : Woken m (Due m) m.wakes := by
  have hslept := h.wakeSleeping (m.lists .sleeping) (h.placed.nodup _) (fun _ hp => hp) h.placed.sorted
  have hsteady := hslept.kept.steady
  have hpending := hsteady.wakesPending _ (hsteady.placed.nodup .blocked) fun _ hp => hp
  generalize hslept' : Machine.wakeSleeping (m.lists .sleeping) m = m₁ at hslept hsteady hpending
  have hwakes : m.wakes = (m₁.lists .blocked).foldl Machine.wakePending m₁ := by
    rw [← hslept']
    rfl
  rw [hwakes]
  have hapart : ∀ {p}, p ∈ m.lists .sleeping ∧ (m.thread p).timeStamp ≤ m.time → p ∉ m₁.lists .blocked := by
    intro p hp hmem
    exact absurd (hsteady.placed.one (hslept.running p hp) hmem) (by decide)
  refine (hslept.trans hpending fun p hp hand => hapart hp hand.1).congr fun p => ?_
  refine or_congr_right ?_
  by_cases hp : p ∈ m.lists .sleeping ∧ (m.thread p).timeStamp ≤ m.time
  · refine iff_of_false (fun hand => hapart hp hand.1) fun hand => ?_
    exact absurd (h.placed.one hp.1 hand.1) (by decide)
  · rw [hslept.kept.mem p hp, hslept.kept.other p hp]

/-! ## The calls that go on -/

omit [DecidableEq V] in
theorem Executing.kept {fs : List Frame} (h : Executing m fs) (hk : Kept m P m') (hidle : ∀ f ∈ fs, ¬P f.thread) :
    Executing m' fs :=
  ⟨fun f hf => (hk.mem f.thread (hidle f hf) _).mpr (h.running f hf), h.nodup, h.last⟩

omit [DecidableEq V] in
theorem Sound.kept (h : Sound m) (hk : Kept m P m') (hidle : ∀ f ∈ m.executing, ¬P f.thread) : Sound m' := by
  refine ⟨hk.steady, ?_, ?_⟩
  · rw [hk.executing]
    exact h.executing.kept hk hidle
  · rw [hk.valid, hk.executing]
    exact h.valid

omit [DecidableEq V] in
theorem Steady.next {n : Option ThreadPtr} {v : Bool} {fs : List Frame} (h : Steady m)
    (hn : ∀ {p}, n = some p → p ∈ m.lists .running) :
    Steady { m with nextThread := n, nextThreadValid := v, executing := fs } := by
  obtain ⟨hp, hl, hw⟩ := h
  exact ⟨⟨hp.place, hp.apart, hp.nodup, hp.live, hp.threads, hp.allocated, hp.ids, hp.distinct, hp.sorted, hn⟩,
    hl.congr rfl rfl (fun _ => rfl) (fun _ => rfl) fun _ => rfl,
    hw.congr rfl (fun _ => rfl) (fun _ => rfl) (fun _ => rfl) fun _ => .inl⟩

omit [DecidableEq V] in
/-- The cycle goes on with the next thread, or it is over. -/
theorem Steady.cycle (h : Steady m) (hexec : m.executing = []) (hvalid : m.nextThreadValid = true) :
    Sound m.cycle.2 := by
  unfold Machine.cycle
  cases hnext : m.nextThread with
  | none =>
    refine ⟨?_, ?_, ?_⟩
    · exact h.next nofun
    · show Executing _ m.executing
      rw [hexec]
      exact ⟨fun _ hf => absurd hf List.not_mem_nil, List.nodup_nil, .nil⟩
    · show false = true ↔ ∃ f ∈ m.executing, _
      rw [hexec]
      simp
  | some p =>
    have hp := h.placed.next hnext
    refine ⟨h.next fun hn => (getNext_mem (h.placed.nodup _) hn).1, ?_, ?_⟩
    · show Executing _ ({ thread := p, cycle := true } :: m.executing)
      rw [hexec]
      refine ⟨fun f hf => ?_, List.nodup_singleton _, List.pairwise_singleton _ _⟩
      rw [List.mem_singleton.mp hf]
      exact hp
    · show m.nextThreadValid = true ↔ ∃ f ∈ ({ thread := p, cycle := true } :: m.executing : List Frame), f.cycle = true
      exact iff_of_true hvalid ⟨_, List.mem_cons_self, rfl⟩

/-- The time goes on. -/
def Machine.passed (m : Machine V) (delta : UInt32) : Machine V := { m with time := m.time + delta }

omit [DecidableEq V] in
theorem Steady.passed (h : Steady m) (delta : UInt32) : Steady (m.passed delta) := by
  obtain ⟨hp, hl, hw⟩ := h
  exact ⟨hp.congr rfl rfl rfl rfl rfl (fun _ => rfl) (fun _ => rfl) fun _ _ => rfl,
    hl.congr rfl rfl (fun _ => rfl) (fun _ => rfl) fun _ => rfl,
    hw.congr rfl (fun _ => rfl) (fun _ => rfl) (fun _ => rfl) fun _ => .inl⟩

theorem Machine.execute_wakes (m : Machine V) (delta : UInt32) : m.execute delta =
    ({ (m.passed delta).wakes with
      nextThreadValid := true, nextThread := ((m.passed delta).wakes.lists .running).head? } : Machine V).cycle :=
  rfl

omit [DecidableEq V] in
theorem Machine.cycle_lists (m : Machine V) : m.cycle.2.lists = m.lists := by
  unfold Machine.cycle
  split <;> rfl

omit [DecidableEq V] in
theorem Machine.cycle_thread (m : Machine V) : m.cycle.2.thread = m.thread := by
  unfold Machine.cycle
  split <;> rfl

omit [DecidableEq V] in
theorem Machine.sysReturn_lists (m : Machine V) : m.sysReturn.2.lists = m.lists := by
  unfold Machine.sysReturn Machine.cycle
  split
  · rfl
  · split
    · split <;> rfl
    · rfl

omit [DecidableEq V] in
theorem Machine.sysReturn_threads (m : Machine V) : m.sysReturn.2.threads = m.threads := by
  unfold Machine.sysReturn Machine.cycle
  split
  · rfl
  · split
    · split <;> rfl
    · rfl

theorem Steady.execute (h : Steady m) (hexec : m.executing = []) (delta : UInt32) : Sound (m.execute delta).2 := by
  have hwoken := (h.passed delta).wakes
  have hfirst : ∀ {p}, ((m.passed delta).wakes.lists .running).head? = some p →
    p ∈ (m.passed delta).wakes.lists .running := List.mem_of_head?
  rw [Machine.execute_wakes]
  exact (hwoken.kept.steady.next hfirst).cycle (hwoken.kept.executing.trans hexec) rfl

omit [DecidableEq V] in
/-- A call that is left may have taken its thread out of the running ones. -/
theorem Sound.returned {f : Frame} {fs : List Frame} (h : Sound m) (hexec : m.executing = f :: fs) (hk : Kept m P m')
    (hidle : ∀ f ∈ fs, ¬P f.thread) : Sound m'.sysReturn.2 := by
  have hframes := h.executing
  rw [hexec] at hframes
  obtain ⟨hfirst, hlast⟩ := List.pairwise_cons.mp hframes.last
  have hrest : Executing m' fs := by
    refine Executing.kept ⟨fun f hf => hframes.running f (List.mem_cons_of_mem _ hf), ?_, hlast⟩ hk hidle
    exact (List.nodup_cons.mp hframes.nodup).2
  have hreturn : m'.sysReturn = if f.cycle then { m' with executing := fs }.cycle
    else (none, { m' with executing := fs }) := by
    unfold Machine.sysReturn
    rw [hk.executing, hexec]
  have hsteady : Steady { m' with executing := fs } := hk.steady.next hk.steady.placed.next
  rw [hreturn]
  by_cases hcycle : f.cycle = true
  · rw [if_pos hcycle]
    have hnil : fs = [] := by
      cases fs with
      | nil => rfl
      | cons f' fs => exact absurd (hfirst f' List.mem_cons_self) (by simp [hcycle])
    refine hsteady.cycle hnil ?_
    show m'.nextThreadValid = true
    rw [hk.valid, h.valid, hexec]
    exact ⟨f, List.mem_cons_self, hcycle⟩
  · rw [if_neg hcycle]
    refine ⟨hsteady, ?_, ?_⟩
    · exact ⟨hrest.running, hrest.nodup, hrest.last⟩
    · show m'.nextThreadValid = true ↔ ∃ f ∈ fs, f.cycle = true
      rw [hk.valid, h.valid, hexec]
      simp [hcycle]

/-! ## Signals -/

/-- What signals change. -/
structure Signalled (m m' : Machine V) : Prop where
  kept : Kept m (· ∈ m.lists .blocked) m'
  lists : m'.lists = m.lists
  blocks : ∀ p, (m'.thread p).blocks = (m.thread p).blocks
  owner : ∀ b, (m'.block b).thread = (m.block b).thread

omit [DecidableEq V] in
theorem Signalled.trans (h : Signalled m m') (h' : Signalled m' m'') : Signalled m m'' := by
  have hback : ∀ p ∈ m.rest, p ∈ m''.lists .running → p ∈ m'.lists .running := by
    intro p hp _
    rw [h.lists]
    exact mem_running_of_rest hp
  refine ⟨(h.kept.trans h'.kept hback).mono fun p => ?_, h'.lists.trans h.lists,
    fun p => (h'.blocks p).trans (h.blocks p),
    fun b => (h'.owner b).trans (h.owner b)⟩
  rw [h.lists, or_self]
  exact id

omit [DecidableEq V] in
/-- A thread that is blocked is signalled, by one of its blocks. -/
theorem Steady.signalBlocked {b : BlockPtr} (h : Steady m) (hb : b ∈ (m.thread p).blocks)
    (hstate : (m.thread p).state ≠ .sysPending)
    (src : Option Nat) :
    Signalled m
      ({ m with block := Function.update m.block b { m.block b with signalled := true, srcThreadId := src } }.setThread p
        fun t => { t with state := .sysPending }) := by
  have hmem : p ∈ m.lists .blocked := (h.waiting.waits nofun).mp (List.ne_nil_of_mem hb)
  have hplace := h.placed.place hmem
  generalize hafter :
    { m with block := Function.update m.block b { m.block b with signalled := true, srcThreadId := src } }.setThread p
    (fun t => { t with state := .sysPending }) = m'
  have hself : m'.thread p = { m.thread p with state := .sysPending } := by
    rw [← hafter]
    exact Machine.setThread_self
  have hother : ∀ {p'}, p' ≠ p → m'.thread p' = m.thread p' := by
    intro p' hp
    rw [← hafter]
    exact Machine.setThread_of_ne hp
  have hfield : ∀ {α : Type} (f : Thread V → α), (∀ t s, f { t with state := s } = f t) →
    ∀ p', f (m'.thread p') = f (m.thread p') := by
    intro α f hf p'
    by_cases hp : p' = p
    · rw [hp, hself, hf]
    · rw [hother hp]
  have hblocks := hfield Thread.blocks fun _ _ => rfl
  have hfirst : m'.block b = { m.block b with signalled := true, srcThreadId := src } := by
    rw [← hafter]
    exact Function.update_self ..
  have hrest : ∀ {c}, c ≠ b → m'.block c = m.block c := by
    intro c hc
    rw [← hafter]
    exact Function.update_of_ne hc ..
  have hblock : ∀ c, (m'.block c).thread = (m.block c).thread ∧ (m'.block c).block = (m.block c).block := by
    intro c
    by_cases hc : c = b
    · rw [hc, hfirst]
      exact ⟨rfl, rfl⟩
    · rw [hrest hc]
      exact ⟨rfl, rfl⟩
  have hquiet : ∀ {c}, c ∈ (m.thread p).blocks → (m.block c).signalled = true → False := fun hc hs =>
    hstate ((h.waiting.pending hmem).mpr ⟨_, hc, hs⟩)
  have howner : ∀ {p' c}, c ∈ (m.thread p').blocks → p' ≠ p → c ≠ b := by
    rintro p' c hc hp rfl
    exact hp ((h.linked.owner hc).1.symm.trans (h.linked.owner hb).1)
  have hlists : m'.lists = m.lists := by
    rw [← hafter]
    rfl
  obtain ⟨hthreads, hnewThread, hid, hnext, hlistsOf, hnewBlock⟩ : m'.threads = m.threads ∧ m'.newThread = m.newThread ∧
      m'.threadId = m.threadId ∧ m'.nextThread = m.nextThread ∧ m'.blocks = m.blocks ∧ m'.newBlock = m.newBlock := by
    rw [← hafter]
    exact ⟨rfl, rfl, rfl, rfl, rfl, rfl⟩
  obtain ⟨hexecuting, hvalid, htime⟩ : m'.executing = m.executing ∧ m'.nextThreadValid = m.nextThreadValid ∧
    m'.time = m.time := by
    rw [← hafter]
    exact ⟨rfl, rfl, rfl⟩
  have hstates : ∀ p', (m'.thread p').state.list = (m.thread p').state.list := by
    intro p'
    by_cases hp : p' = p
    · rw [hp, hself, hplace]
      rfl
    · rw [hother hp]
  refine ⟨⟨⟨?_, ?_, ?_⟩, hexecuting, hvalid, htime,
    fun p' _ q => by rw [hlists], fun p' hp => hother fun heq => hp (heq ▸ hmem),
    fun p' hp' _ => (rest_congr (congrFun hlists _) hnext).symm ▸ hp'⟩, hlists, hblocks, fun c => (hblock c).1⟩
  · exact h.placed.congr hlists hthreads hnewThread hid hnext hstates (hfield Thread.id fun _ _ => rfl) fun p' _ =>
      hfield Thread.timeStamp (fun _ _ => rfl) p'
  · exact h.linked.congr hlistsOf hnewBlock hblocks (fun c => (hblock c).1) fun c => (hblock c).2
  · refine ⟨fun {p'} hp' => ?_, fun {p'} hp' => ?_, fun {p' c c'} hc hc' hs hs' => ?_, fun {p'} hp' => ?_⟩
    · rw [hblocks, hlists]
      exact h.waiting.waits hp'
    · rw [hlists] at hp'
      by_cases hp : p' = p
      · rw [hp, hself]
        exact iff_of_true rfl ⟨b, hb, by rw [hfirst]⟩
      · rw [hother hp, h.waiting.pending hp']
        refine exists_congr fun c => and_congr_right fun hc => ?_
        rw [hrest (howner hc hp)]
    · rw [hblocks] at hc hc'
      by_cases hp : p' = p
      · rw [hp] at hc hc'
        have hone : ∀ {d}, d ∈ (m.thread p).blocks → (m'.block d).signalled = true → d = b := by
          intro d hd hsd
          by_contra hne
          rw [hrest hne] at hsd
          exact hquiet hd hsd
        rw [hone hc hs, hone hc' hs']
      · rw [hrest (howner hc hp)] at hs
        rw [hrest (howner hc' hp)] at hs'
        exact h.waiting.one hc hc' hs hs'
    · by_cases hp : p' = p
      · rw [hp, hself]
        exact .inr rfl
      · rw [hother hp] at hp' ⊢
        exact h.waiting.signals hp'

omit [DecidableEq V] in
theorem Steady.signalBlock {b : BlockPtr} (h : Steady m) (hb : b ∈ (m.thread (m.block b).thread).blocks)
    (signal : V) (dst src : Nat) :
    Signalled m (m.signalBlock signal dst src b) := by
  unfold Machine.signalBlock
  by_cases hstate : (m.thread (m.block b).thread).state = .sysPending
  · rw [if_pos hstate]
    have hmem : (m.block b).thread ∈ m.lists .blocked := (h.waiting.waits nofun).mp (List.ne_nil_of_mem hb)
    have hset := h.setThread (p := (m.block b).thread) (f := fun t =>
      { t with signals := { srcThreadId := src, dstThreadId := dst, signal } :: t.signals }) rfl rfl rfl (fun _ =>
        rfl) fun _ => .inr (.inr hstate)
    exact ⟨(Kept.setThread hset).mono fun p hp => hp ▸ hmem, rfl, Machine.setThread_field Thread.blocks rfl,
      fun _ => rfl⟩
  · rw [if_neg hstate]
    exact h.signalBlocked hb hstate (some src)

omit [DecidableEq V] in
theorem Steady.signalLoop (signal : V) (dst src : Nat) : ∀ (bs : List BlockPtr) {m : Machine V}, Steady m →
    (∀ b ∈ bs, b ∈ (m.thread (m.block b).thread).blocks) → Signalled m (Machine.signalLoop signal dst src bs m)
  | [], _, h, _ => ⟨.refl h, rfl, fun _ => rfl, fun _ => rfl⟩
  | b :: bs, m, h, hbs => by
    obtain ⟨hb, hbs⟩ := List.forall_mem_cons.mp hbs
    have hfirst := h.signalBlock hb signal dst src
    unfold Machine.signalLoop
    split
    · split
      · exact hfirst
      · refine hfirst.trans (signalLoop signal dst src bs hfirst.kept.steady fun c hc => ?_)
        rw [hfirst.owner, hfirst.blocks]
        exact hbs c hc
    · exact signalLoop signal dst src bs h hbs

omit [DecidableEq V] in
theorem signalBlock_pending (m : Machine V) (signal : V) (dst src : Nat) (b : BlockPtr) (p : ThreadPtr) :
    ((m.signalBlock signal dst src b).thread p).state = .sysPending ↔
    (m.thread p).state = .sysPending ∨ (m.block b).thread = p := by
  unfold Machine.signalBlock
  by_cases hstate : (m.thread (m.block b).thread).state = .sysPending
  · rw [if_pos hstate, Machine.setThread_field Thread.state rfl]
    refine ⟨.inl, fun hand => hand.elim id ?_⟩
    rintro rfl
    exact hstate
  · rw [if_neg hstate]
    by_cases heq : p = (m.block b).thread
    · subst heq
      rw [Machine.setThread_self]
      exact iff_of_true rfl (.inr rfl)
    · rw [Machine.setThread_of_ne heq]
      exact ⟨.inl, fun hand => hand.resolve_right (Ne.symm heq)⟩

omit [DecidableEq V] in
/-- A signal for all threads reaches each that has one of the blocks. -/
theorem Steady.signalLoop_pending (signal : V) (src : Nat) : ∀ (bs : List BlockPtr) {m : Machine V}, Steady m →
    (∀ b ∈ bs, b ∈ (m.thread (m.block b).thread).blocks) → ∀ p,
      ((Machine.signalLoop signal gmInvalidThread src bs m).thread p).state = .sysPending ↔
        (m.thread p).state = .sysPending ∨ ∃ b ∈ bs, (m.block b).thread = p
  | [], _, _, _, p => by simp [Machine.signalLoop]
  | b :: bs, m, h, hbs, p => by
    obtain ⟨hb, hbs⟩ := List.forall_mem_cons.mp hbs
    have hfirst := h.signalBlock hb signal gmInvalidThread src
    have hrest := signalLoop_pending signal src bs hfirst.kept.steady fun c hc => by
      rw [hfirst.owner, hfirst.blocks]
      exact hbs c hc
    rw [Machine.signalLoop, if_pos (.inl rfl), if_neg fun hne => hne rfl, hrest, signalBlock_pending, or_assoc]
    simp only [hfirst.owner, List.mem_cons, exists_eq_or_imp]

omit [DecidableEq V] in
/-- A block of another thread. -/
theorem signalBlock_other {b : BlockPtr} (hb : (m.block b).thread ≠ p) (signal : V) (dst src : Nat) :
    (m.signalBlock signal dst src b).thread p = m.thread p := by
  unfold Machine.signalBlock
  by_cases hstate : (m.thread (m.block b).thread).state = .sysPending
  · rw [if_pos hstate]
    exact Machine.setThread_of_ne hb.symm
  · rw [if_neg hstate]
    exact Machine.setThread_of_ne hb.symm

omit [DecidableEq V] in
theorem Steady.signalLoop_other (signal : V) (dst src : Nat) : ∀ (bs : List BlockPtr) {m : Machine V}, Steady m →
    (∀ b ∈ bs, b ∈ (m.thread (m.block b).thread).blocks) → (∀ b ∈ bs, (m.block b).thread ≠ p) →
      (Machine.signalLoop signal dst src bs m).thread p = m.thread p
  | [], _, _, _, _ => rfl
  | b :: bs, m, h, hbs, hp => by
    obtain ⟨hb, hbs⟩ := List.forall_mem_cons.mp hbs
    obtain ⟨hfar, hp⟩ := List.forall_mem_cons.mp hp
    have hfirst := h.signalBlock hb signal dst src
    have hsame := signalBlock_other hfar signal dst src
    unfold Machine.signalLoop
    split
    · split
      · exact hsame
      · refine (signalLoop_other signal dst src bs hfirst.kept.steady (fun c hc => ?_) fun c hc => ?_).trans hsame
        · rw [hfirst.owner, hfirst.blocks]
          exact hbs c hc
        · rw [hfirst.owner]
          exact hp c hc
    · exact signalLoop_other signal dst src bs h hbs hp

omit [DecidableEq V] in
theorem Steady.signal (h : Steady m) (signal : V) (dst src : Nat) : Signalled m (m.signal signal dst src) := by
  unfold Machine.signal
  cases hl : m.blocks signal with
  | none => exact ⟨.refl h, rfl, fun _ => rfl, fun _ => rfl⟩
  | some l => exact h.signalLoop signal dst src l fun b hb => (h.linked.listed hl hb).2.1

/-! ## Threads are created -/

/-- A thread that is no longer, or not yet, one of the machine. -/
structure Allocated (m : Machine V) (r : ThreadPtr × Machine V) : Prop where
  kept : Kept m (· = r.1) r.2
  free : ∀ q, r.1 ∉ r.2.lists q
  allocated : r.1 < r.2.newThread
  threads : r.2.threads = m.threads
  threadId : r.2.threadId = m.threadId
  fresh : ∀ q, q ≠ .killed → r.1 ∉ m.lists q

omit [DecidableEq V] in
theorem Steady.allocKilled {ps : List ThreadPtr} (h : Steady m) (hkilled : m.lists .killed = p :: ps) :
    Allocated m (p, m.setList .killed fun _ => ps) := by
  obtain ⟨hp, hl, hw⟩ := h
  obtain ⟨hnot, hnodup⟩ : p ∉ ps ∧ ps.Nodup := List.nodup_cons.mp (by rw [← hkilled]; exact hp.nodup _)
  have hmem : p ∈ m.lists .killed := by
    rw [hkilled]
    exact List.mem_cons_self
  have hlists : ∀ {p' q}, p' ∈ (m.setList .killed fun _ => ps).lists q ↔ p' ≠ p ∧ p' ∈ m.lists q := by
    intro p' q
    rw [Machine.mem_setList]
    by_cases hq : q = .killed
    · rw [if_pos hq, hq, hkilled, List.mem_cons]
      refine ⟨fun hps => ⟨fun heq => hnot (heq ▸ hps), .inr hps⟩, fun hand => hand.2.resolve_left hand.1⟩
    · rw [if_neg hq]
      refine ⟨fun hq' => ⟨fun heq => ?_, hq'⟩, And.right⟩
      exact hq (hp.one (heq ▸ hq') hmem)
  have hother : ∀ q, q ≠ .killed → (m.setList .killed fun _ => ps).lists q = m.lists q :=
    fun q hq => Machine.setList_of_ne hq
  refine ⟨⟨⟨⟨fun hp' => hp.place (hlists.mp hp').2, nofun, fun q => ?_, fun p' => ?_, hp.threads,
    fun {p'} hp' => ?_, hp.ids, hp.distinct, ?_,
    fun hn => ?_⟩, hl.congr rfl rfl (fun _ => rfl) (fun _ => rfl) fun _ => rfl, ⟨fun hb => ?_,
      fun hp' => ?_, hw.one, hw.signals⟩⟩,
    rfl, rfl, rfl, fun p' hne q => ?_, fun _ _ => rfl, fun _ hp' _ =>
      (rest_congr (hother _ (by decide)) rfl).symm ▸ hp'⟩,
    fun q hq => (hlists.mp hq).1 rfl, hp.allocated (.inr ⟨_, hmem⟩), rfl, rfl,
    fun q hq hq' => hq (hp.one hq' hmem)⟩
  · by_cases hq : q = .killed
    · rw [hq, Machine.setList_self]
      exact hnodup
    · rw [hother q hq]
      exact hp.nodup q
  · refine (hp.live p').trans (or_congr_right (exists_congr fun q => and_congr_right fun hq => ?_))
    rw [hother q hq]
  · obtain ⟨q, hq⟩ := hp'.resolve_left nofun
    exact hp.allocated (.inr ⟨q, (hlists.mp hq).2⟩)
  · rw [hother _ (by decide)]
    exact hp.sorted
  · rw [hother _ (by decide)]
    exact hp.next hn
  · rw [hother _ (by decide)]
    exact hw.waits hb
  · rw [hother _ (by decide)] at hp'
    exact hw.pending hp'
  · rw [hlists]
    exact ⟨And.right, fun hmem' => ⟨hne, hmem'⟩⟩

omit [DecidableEq V] in
theorem Steady.allocNew (h : Steady m) :
    Allocated m
      (m.newThread, { m with newThread := m.newThread + 1, thread := Function.update m.thread m.newThread .new }) := by
  obtain ⟨hp, hl, hw⟩ := h
  have hfree : ∀ q, m.newThread ∉ m.lists q := fun q hq => absurd (hp.allocated (.inr ⟨q, hq⟩)) (Nat.lt_irrefl _)
  have hnil : (m.thread m.newThread).blocks = [] := by
    by_contra hne
    exact hfree _ ((hw.waits nofun).mp hne)
  have hother : ∀ {p'}, p' ≠ m.newThread → Function.update m.thread m.newThread .new p' = m.thread p' :=
    fun hne => Function.update_of_ne hne ..
  have hnew : Function.update m.thread m.newThread .new m.newThread = .new := Function.update_self ..
  have hblocks : ∀ p', (Function.update m.thread m.newThread .new p').blocks = (m.thread p').blocks := by
    intro p'
    by_cases hne : p' = m.newThread
    · rw [hne, hnew, hnil]
      rfl
    · rw [hother hne]
  have hlisted : ∀ {q p'}, p' ∈ m.lists q → Function.update m.thread m.newThread .new p' = m.thread p' := fun hmem =>
    hother fun heq => hfree _ (heq ▸ hmem)
  have hlive : ∀ {p'}, p' ∈ m.threads → Function.update m.thread m.newThread .new p' = m.thread p' := fun hmem => by
    obtain ⟨q, -, hq⟩ := hp.somewhere hmem
    exact hlisted hq
  generalize Function.update m.thread m.newThread .new = thread at *
  refine ⟨⟨⟨⟨fun {q p'} hp' => ?_, nofun, hp.nodup, hp.live, hp.threads,
    fun hp' => Nat.lt_succ_of_lt (hp.allocated hp'), fun {p'} hp' => ?_,
    fun {p₁ p₂} h₁ h₂ => ?_, ?_, hp.next⟩, hl.congr rfl rfl hblocks (fun _ => rfl) fun _ => rfl,
    ⟨fun {p'} hb => ?_, fun {p'} hp' => ?_, fun {p' b b'} hb hb' => ?_, fun {p'} hp' => ?_⟩⟩, rfl,
    rfl, rfl, fun _ _ _ => Iff.rfl,
    fun _ hne => hother hne, fun _ hp' _ => hp'⟩, hfree, Nat.lt_succ_self _, rfl, rfl, fun q _ => hfree q⟩
  · show (thread p').state.list = q
    rw [hlisted hp']
    exact hp.place hp'
  · show 0 < (thread p').id ∧ (thread p').id ≤ m.threadId
    rw [hlive hp']
    exact hp.ids hp'
  · show (thread p₁).id = (thread p₂).id → p₁ = p₂
    rw [hlive h₁, hlive h₂]
    exact hp.distinct h₁ h₂
  · refine hp.sorted.imp_of_mem fun {p₁ p₂} h₁ h₂ hle => ?_
    show (thread p₁).timeStamp ≤ (thread p₂).timeStamp
    rw [hlisted h₁, hlisted h₂]
    exact hle
  · show (thread p').blocks ≠ [] ↔ p' ∈ m.lists .blocked
    rw [hblocks]
    exact hw.waits hb
  · show (thread p').state = .sysPending ↔ ∃ b ∈ (thread p').blocks, (m.block b).signalled = true
    rw [hlisted hp']
    exact hw.pending hp'
  · have hb : b ∈ (thread p').blocks := hb
    have hb' : b' ∈ (thread p').blocks := hb'
    rw [hblocks] at hb hb'
    exact hw.one hb hb'
  · have hp' : (thread p').signals ≠ [] := hp'
    show (thread p').state = .running ∨ (thread p').state = .sysPending
    by_cases hne : p' = m.newThread
    · rw [hne, hnew] at hp'
      exact absurd rfl hp'
    · rw [hother hne] at hp' ⊢
      exact hw.signals hp'

omit [DecidableEq V] in
theorem Steady.allocThread (h : Steady m) : Allocated m m.allocThread := by
  unfold Machine.allocThread
  cases hkilled : m.lists .killed with
  | cons p ps => exact h.allocKilled hkilled
  | nil => exact h.allocNew

omit [DecidableEq V] in
/-- The ids go on from the last one, and none of them is taken. -/
theorem Placed.getThreadId (h : Placed m loose) : m.getThreadId = m.threadId + 1 := by
  have hfree : m.getThread (m.threadId + 1) = none := by
    refine List.find?_eq_none.mpr fun p hp => ?_
    have hle := (h.ids hp).2
    simp
    omega
  unfold Machine.getThreadId Machine.getThreadIdLoop
  rw [hfree]
  rfl

omit [DecidableEq V] in
/-- A thread that is in no list gets the next id. -/
theorem Steady.named (h : Steady m) (hfree : ∀ q, p ∉ m.lists q) (hnew : p < m.newThread) (hlists : m'.lists = m.lists)
    (hthreads : m'.threads = p :: m.threads) (hnewThread : m'.newThread = m.newThread)
    (hid : m'.threadId = m.threadId + 1)
    (hnext : m'.nextThread = m.nextThread) (hblock : m'.block = m.block)
    (hother : ∀ p', p' ≠ p → m'.thread p' = m.thread p')
    (hname : (m'.thread p).id = m.threadId + 1) (hblocks : (m'.thread p).blocks = [])
    (hsignals : (m'.thread p).signals = []) :
    Placed m' (some p) ∧ Waiting m' none := by
  obtain ⟨hp, -, hw⟩ := h
  have hlisted : ∀ {q p'}, p' ∈ m.lists q → m'.thread p' = m.thread p' :=
    fun hmem => hother _ fun heq => hfree _ (heq ▸ hmem)
  have hdead : p ∉ m.threads := by
    intro hmem
    obtain ⟨q, -, hq⟩ := hp.somewhere hmem
    exact hfree q hq
  have hlive : ∀ {p'}, p' ∈ m'.threads ↔ p' = p ∨ p' ∈ m.threads := by
    intro p'
    rw [hthreads, List.mem_cons]
  have hold : ∀ {p'}, p' ∈ m.threads → m'.thread p' = m.thread p' := fun hmem => hother _ fun heq => hdead (heq ▸ hmem)
  have hsub : ∀ {p' b}, b ∈ (m'.thread p').blocks → b ∈ (m.thread p').blocks := by
    intro p' b hb
    by_cases heq : p' = p
    · rw [heq, hblocks] at hb
      exact absurd hb List.not_mem_nil
    · rwa [hother p' heq] at hb
  constructor
  · refine ⟨fun {q p'} hp' => ?_, fun {q p'} hp' => ?_, fun q => ?_, fun p' => ?_, ?_, fun {p'} hp' => ?_,
      fun {p'} hp' => ?_,
      fun {p₁ p₂} h₁ h₂ heq => ?_, ?_, fun {p'} hp' => ?_⟩
    · rw [hlists] at hp'
      rw [hlisted hp']
      exact hp.place hp'
    · cases hp'
      rw [hlists]
      exact hfree q
    · rw [hlists]
      exact hp.nodup q
    · rw [hlive, hp.live, hlists, Option.some_inj, eq_comm]
      simp
    · rw [hthreads]
      exact List.nodup_cons.mpr ⟨hdead, hp.threads⟩
    · rw [hnewThread]
      rcases hp' with heq | ⟨q, hmem⟩
      · cases heq
        exact hnew
      · rw [hlists] at hmem
        exact hp.allocated (.inr ⟨q, hmem⟩)
    · rw [hid]
      rcases hlive.mp hp' with rfl | hp'
      · rw [hname]
        exact ⟨Nat.succ_pos _, Nat.le_refl _⟩
      · rw [hold hp']
        exact ⟨(hp.ids hp').1, Nat.le_succ_of_le (hp.ids hp').2⟩
    · have hlt : ∀ {p'}, p' ∈ m.threads → (m'.thread p').id < m.threadId + 1 := by
        intro p' hmem
        rw [hold hmem]
        exact Nat.lt_succ_of_le (hp.ids hmem).2
      rcases hlive.mp h₁ with rfl | h₁ <;> rcases hlive.mp h₂ with rfl | h₂
      · rfl
      · exact absurd heq (by have := hlt h₂; omega)
      · exact absurd heq (by have := hlt h₁; omega)
      · rw [hold h₁, hold h₂] at heq
        exact hp.distinct h₁ h₂ heq
    · rw [hlists]
      refine hp.sorted.imp_of_mem fun {p₁ p₂} h₁ h₂ hle => ?_
      rw [hlisted h₁, hlisted h₂]
      exact hle
    · rw [hnext] at hp'
      rw [hlists]
      exact hp.next hp'
  · refine ⟨fun {p'} _ => ?_, fun {p'} hp' => ?_, fun {p' b b'} hb hb' hs hs' => ?_, fun {p'} hp' => ?_⟩
    · rw [hlists]
      by_cases heq : p' = p
      · rw [heq, hblocks]
        exact iff_of_false (fun hne => hne rfl) (hfree _)
      · rw [hother p' heq]
        exact hw.waits nofun
    · rw [hlists] at hp'
      rw [hlisted hp', hblock]
      exact hw.pending hp'
    · rw [hblock] at hs hs'
      exact hw.one (hsub hb) (hsub hb') hs hs'
    · by_cases heq : p' = p
      · rw [heq] at hp'
        exact absurd hsignals hp'
      · rw [hother p' heq] at hp' ⊢
        exact hw.signals hp'

theorem Steady.createThread (h : Steady m) : Kept m (· = m.allocThread.1) m.createThread ∧
    m.allocThread.1 ∈ m.createThread.lists .running ∧ ∀ p, p ∈ m.createThread.threads ↔
    p = m.allocThread.1 ∨ p ∈ m.threads := by
  have halloc := h.allocThread
  unfold Machine.createThread
  generalize m.allocThread = r at halloc
  obtain ⟨p, m₀⟩ := r
  obtain ⟨hkept, hfree, hnew, hthreads, hid, hfresh⟩ := halloc
  dsimp only at hkept hfree hnew hthreads hid hfresh ⊢
  have hsteady := hkept.steady
  rw [hsteady.placed.getThreadId]
  have hlinked : Linked { m₀ with threadId := m₀.threadId + 1 } :=
    hsteady.linked.congr rfl rfl (fun _ => rfl) (fun _ => rfl) fun _ => rfl
  have hreset := hlinked.reset p (m₀.threadId + 1)
  have heq := hlinked.sysReset_eq p (m₀.threadId + 1)
  generalize hafter : ({ ({ m₀ with threadId := m₀.threadId + 1 } : Machine V).sysReset p (m₀.threadId + 1) with
    threads := p :: (({ m₀ with threadId := m₀.threadId + 1 } : Machine V).sysReset p (m₀.threadId + 1)).threads } :
      Machine V).setThread p
      (fun t => { t with startTime := (({ m₀ with threadId := m₀.threadId + 1 } : Machine V).sysReset p
        (m₀.threadId + 1)).time }) = m₁
  have hlinked₁ : Linked m₁ := by
    rw [← hafter]
    exact hreset.congr rfl rfl (Machine.setThread_field Thread.blocks rfl) (fun _ => rfl) fun _ => rfl
  have hself : m₁.thread p = { (m₀.thread p).reset (m₀.threadId + 1) with startTime := m₀.time } := by
    rw [← hafter, heq]
    simp only [Machine.setThread, Function.update_self]
  have hother : ∀ p', p' ≠ p → m₁.thread p' = m₀.thread p' := by
    intro p' hne
    rw [← hafter, heq]
    simp only [Machine.setThread, Function.update_of_ne hne]
  obtain ⟨hlists, hthreads₁, hnew₁, hid₁, hnext₁, hblock₁, hexecuting₁, hvalid₁, htime₁⟩ :
      m₁.lists = m₀.lists ∧ m₁.threads = p :: m₀.threads ∧ m₁.newThread = m₀.newThread ∧
      m₁.threadId = m₀.threadId + 1 ∧ m₁.nextThread = m₀.nextThread ∧ m₁.block = m₀.block ∧
      m₁.executing = m₀.executing ∧ m₁.nextThreadValid = m₀.nextThreadValid ∧ m₁.time = m₀.time := by
    rw [← hafter, heq]
    exact ⟨rfl, rfl, rfl, rfl, rfl, rfl, rfl, rfl, rfl⟩
  obtain ⟨hplaced, hwaiting⟩ :=
    hsteady.named hfree hnew hlists hthreads₁ hnew₁ hid₁ hnext₁ hblock₁ hother (by rw [hself]; rfl)
    (by rw [hself]; rfl) (by rw [hself]; rfl)
  have hperm : (m₁.lists .running ++ [p]).Perm (p :: m₁.lists .running) := List.perm_append_singleton _ _
  have hput : Steady (m₁.put p .running (m₁.lists .running ++ [p])) :=
    ⟨hplaced.put (by decide) hperm fun heq => (by cases heq), hlinked₁.put,
      hwaiting.put hplaced hperm (by decide) fun hnot => absurd rfl hnot⟩
  have hmem : ∀ {p' q}, p' ∈ (m₁.put p .running (m₁.lists .running ++ [p])).lists q ↔
    q = .running ∧ p' = p ∨ p' ∈ m₀.lists q := by
    intro p' q
    rw [put_mem hperm, hlists]
  have hkept₁ : Kept m₀ (· = p) (m₁.put p .running (m₁.lists .running ++ [p])) := by
    refine ⟨hput, hexecuting₁, hvalid₁, htime₁, fun p' hne q => ?_, fun p' hne => ?_,
      fun p' hp' _ => rest_append (p := p) ?_ hnext₁ hp'⟩
    · rw [hmem]
      simp [hne]
    · have hsame : (m₁.put p .running (m₁.lists .running ++ [p])).thread p' = m₁.thread p' :=
        Machine.setThread_of_ne hne
      rw [hsame, hother p' hne]
    · rw [put_list, if_pos rfl, hlists]
  have hback : ∀ p' ∈ m.rest, p' ∈ (m₁.put p .running (m₁.lists .running ++ [p])).lists .running →
    p' ∈ m₀.lists .running := by
    intro p' hp' _
    have hmem' := mem_running_of_rest hp'
    exact (hkept.mem p' (fun heq => hfresh .running (by decide) (heq ▸ hmem')) _).mpr hmem'
  have hboth := (hkept.trans hkept₁ hback).mono (Q := (· = p)) fun p' => by simp
  have hlive : ∀ p', p' ∈ m₁.threads ↔ p' = p ∨ p' ∈ m.threads := by
    intro p'
    rw [hthreads₁, List.mem_cons, hthreads]
  have hrunning : p ∈ (m₁.put p .running (m₁.lists .running ++ [p])).lists .running := hmem.mpr (.inl ⟨rfl, rfl⟩)
  split
  · rename_i hand
    refine ⟨⟨hput.next ?_, hboth.executing, hboth.valid, hboth.time, hboth.mem, hboth.other, fun p' hp' hmem' => ?_⟩,
      hrunning, hlive⟩
    · rintro p' ⟨⟩
      exact hrunning
    · have hrest := hboth.rest p' hp' hmem'
      have hnone : (m₁.put p .running (m₁.lists .running ++ [p])).nextThread = none := hand.2
      unfold Machine.rest at hrest
      rw [hnone] at hrest
      exact absurd hrest List.not_mem_nil
  · exact ⟨hboth, hrunning, hlive⟩


/-! ## A thread blocks -/

omit [DecidableEq V] in
theorem Steady.running_blocks (h : Steady m) (hp : p ∈ m.lists .running) : (m.thread p).blocks = [] := by
  by_contra hne
  exact absurd (h.placed.one hp ((h.waiting.waits nofun).mp hne)) (by decide)

omit [DecidableEq V] in
theorem Placed.running (h : Placed m loose) (hp : p ∈ m.lists .running) : (m.thread p).state = .running := by
  have hplace := h.place hp
  cases hstate : (m.thread p).state <;> rw [hstate] at hplace <;> first | rfl | cases hplace

omit [DecidableEq V] in
theorem Added.waiting (h : Added m p m') (hm : Steady m) (hp : p ∈ m.lists .running) : Waiting m' (some p) := by
  have hold : ∀ {p' b}, b ∈ (m.thread p').blocks → m'.block b = m.block b := by
    intro p' b hb
    obtain ⟨-, l, hl, hmem⟩ := hm.linked.owner hb
    exact h.block b (hm.linked.listed hl hmem).2.2
  refine ⟨fun {p'} hbusy => ?_, fun {p'} hp' => ?_, fun {p' b b'} hb hb' hs hs' => ?_, fun {p'} hp' => ?_⟩
  · rw [h.other p' fun heq => hbusy (congrArg some heq.symm), h.lists]
    exact hm.waiting.waits nofun
  · rw [h.lists] at hp'
    rw [h.other p' fun heq => absurd (hm.placed.one hp (heq ▸ hp')) (by decide), hm.waiting.pending hp']
    refine exists_congr fun b => and_congr_right fun hb => ?_
    rw [hold hb]
  · by_cases heq : p' = p
    · rw [heq] at hb
      rcases h.blocks b hb with hmem | hquiet
      · rw [hm.running_blocks hp] at hmem
        exact absurd hmem List.not_mem_nil
      · exact absurd (hquiet.symm.trans hs) (by decide)
    · rw [h.other p' heq] at hb hb'
      rw [hold hb] at hs
      rw [hold hb'] at hs'
      exact hm.waiting.one hb hb' hs hs'
  · by_cases heq : p' = p
    · left
      rw [heq, h.self]
      exact hm.placed.running hp
    · rw [h.other p' heq] at hp' ⊢
      exact hm.waiting.signals hp'

theorem addBlock_ne_nil {vs : List V} {m : Machine V} (h : vs ≠ [] ∨ (m.thread p).blocks ≠ []) :
    ((vs.foldl (fun m b => m.addBlock p b) m).thread p).blocks ≠ [] := by
  induction vs generalizing m with
  | nil => exact h.resolve_left fun hne => hne rfl
  | cons v vs ih =>
    refine ih (.inr ?_)
    have hself : (m.addBlock p v).thread p = { m.thread p with blocks := m.newBlock :: (m.thread p).blocks } :=
      Machine.setThread_self
    rw [hself]
    exact List.cons_ne_nil _ _

/-- A running thread waits on some blocks. -/
theorem Steady.block {vs : List V} (h : Steady m) (hp : p ∈ m.lists .running) (hvs : vs ≠ []) :
    Kept m (· = p) (((vs.foldl (fun m b => m.addBlock p b) m).setThread p fun t =>
      { t with result := none }).sysSwitchState p .blocked) := by
  have hadded : Added m p (vs.foldl (fun m b => m.addBlock p b) m) :=
    Added.addAll vs ⟨rfl, rfl, rfl, rfl, rfl, rfl, rfl, rfl, Nat.le_refl _, fun _ _ => rfl, fun _ _ => rfl,
      rfl, fun _ hb => .inl hb, h.linked⟩
  have hne := addBlock_ne_nil (p := p) (m := m) (.inl hvs)
  have hwaiting := hadded.waiting h hp
  generalize vs.foldl (fun m b => m.addBlock p b) m = m₁ at *
  generalize hafter : m₁.setThread p (fun t => { t with result := none }) = m₂
  have hself : m₂.thread p = { m.thread p with blocks := (m₁.thread p).blocks, result := none } := by
    rw [← hafter, Machine.setThread_self, hadded.self]
  have hother : ∀ p', p' ≠ p → m₂.thread p' = m.thread p' := by
    intro p' hne
    rw [← hafter, Machine.setThread_of_ne hne, hadded.other p' hne]
  have hfield : ∀ {α : Type} (f : Thread V → α), (∀ t bs r, f { t with blocks := bs, result := r } = f t) →
      ∀ p', f (m₂.thread p') = f (m.thread p') := by
    intro α f hf p'
    by_cases heq : p' = p
    · rw [heq, hself, hf]
    · rw [hother p' heq]
  obtain ⟨hlists, hthreads, hnewThread, hid, htime, hexecuting, hvalid, hnext, hblock⟩ : m₂.lists = m.lists ∧
    m₂.threads = m.threads ∧
      m₂.newThread = m.newThread ∧ m₂.threadId = m.threadId ∧ m₂.time = m.time ∧ m₂.executing = m.executing ∧
      m₂.nextThreadValid = m.nextThreadValid ∧ m₂.nextThread = m.nextThread ∧ m₂.block = m₁.block := by
    rw [← hafter]
    exact ⟨hadded.lists, hadded.threads, hadded.newThread, hadded.threadId, hadded.time, hadded.executing,
      hadded.valid, hadded.next, rfl⟩
  have hlinked : Linked m₂ := by
    rw [← hafter]
    exact hadded.linked.congr rfl rfl (Machine.setThread_field Thread.blocks rfl) (fun _ => rfl) fun _ => rfl
  have hwaiting : Waiting m₂ (some p) := by
    rw [← hafter]
    exact hwaiting.congr rfl (fun _ => rfl) (Machine.setThread_field Thread.blocks rfl)
      (Machine.setThread_field Thread.state rfl)
      fun p' hp' => .inl (by rwa [Machine.setThread_field Thread.signals rfl] at hp')
  have hplaced : Placed m₂ none := h.placed.congr hlists hthreads hnewThread hid hnext
    (fun p' => by rw [hfield Thread.state fun _ _ _ => rfl]) (hfield Thread.id fun _ _ _ => rfl) fun p' _ =>
      hfield Thread.timeStamp (fun _ _ _ => rfl) p'
  have hlive : p ∈ m₂.threads := by
    rw [hthreads]
    exact h.placed.lives hp (by decide)
  have hstate : (m₂.thread p).state = .running := by
    rw [hself]
    exact h.placed.running hp
  have hleft := hlinked.leave p
  have hblocks : ((m₂.leave p).thread p).blocks = (m₁.thread p).blocks := by
    have hkeep : (m₂.thread p).left.blocks = (m₂.thread p).blocks := by
      rw [Thread.left, hstate]
      rfl
    rw [hleft.self, hkeep, hself]
  have hput : Waiting ((m₂.leave p).put p .blocked (p :: (m₂.leave p).lists .blocked)) none := by
    refine (hwaiting.left hplaced hleft).putBlocked (.refl _) (by rwa [hblocks]) (fun b hb => ?_) ?_
    · rw [hblocks] at hb
      rw [hleft.block, hblock]
      refine (hadded.blocks b hb).resolve_left fun hmem => ?_
      rw [h.running_blocks hp] at hmem
      exact List.not_mem_nil hmem
    · rw [hleft.self, Thread.left, hstate]
      rfl
  have hswitched := hleft.switched (q := .blocked) hplaced hlive (.refl _) (by decide)
    (fun heq => by cases heq) hput fun heq => by cases heq
  have hsame : m₂.sysSwitchState p .blocked = (m₂.leave p).put p .blocked (p :: (m₂.leave p).lists .blocked) := by
    rw [Machine.sysSwitchState, if_neg (by rw [hstate]; decide)]
    rfl
  rw [hsame]
  refine ⟨hswitched.steady, hswitched.executing.trans hexecuting, hswitched.valid.trans hvalid,
    hswitched.time.trans htime, fun p' hne q => ?_,
    fun p' hne => (hswitched.other p' hne).trans (hother p' hne), fun p' hp' hrunning => ?_⟩
  · rw [hswitched.mem p' q hne, hlists]
  · rw [← rest_congr (congrFun hlists _) hnext] at hp'
    exact (hswitched.kept hplaced fun _ => by decide).rest p' hp' hrunning

/-! ## A thread starts again -/

/-- What it is to start again, for a thread that stays in its list. -/
structure Restarted (m : Machine V) (p : ThreadPtr) (m' : Machine V) : Prop where
  lists : m'.lists = m.lists
  threads : m'.threads = m.threads
  newThread : m'.newThread = m.newThread
  threadId : m'.threadId = m.threadId
  time : m'.time = m.time
  executing : m'.executing = m.executing
  valid : m'.nextThreadValid = m.nextThreadValid
  next : m'.nextThread = m.nextThread
  block : m'.block = m.block
  self : m'.thread p = { (m.thread p).reset (m.thread p).id with startTime := m.time }
  other : ∀ p', p' ≠ p → m'.thread p' = m.thread p'
  linked : Linked m'

theorem Linked.restart (h : Linked m) (p : ThreadPtr) : Restarted m p (m.restart p) := by
  have hreset := h.reset p (m.thread p).id
  unfold Machine.restart
  rw [h.sysReset_eq] at hreset ⊢
  refine ⟨rfl, rfl, rfl, rfl, rfl, rfl, rfl, rfl, rfl, ?_, fun p' hne => ?_, ?_⟩
  · rw [Machine.setThread_self, Machine.setThread_self]
  · rw [Machine.setThread_of_ne hne, Machine.setThread_of_ne hne]
  · exact hreset.congr rfl rfl (Machine.setThread_field Thread.blocks rfl) (fun _ => rfl) fun _ => rfl

namespace Restarted

omit [DecidableEq V]

theorem field {α : Type} (h : Restarted m p m') (f : Thread V → α)
    (hf : f { (m.thread p).reset (m.thread p).id with startTime := m.time } = f (m.thread p)) (p' : ThreadPtr) :
      f (m'.thread p') = f (m.thread p') := by
  by_cases heq : p' = p
  · rw [heq, h.self, hf]
  · rw [h.other p' heq]

/-- A running thread goes on running. -/
theorem running (h : Restarted m p m') (hm : Steady m) (hp : p ∈ m.lists .running) : Kept m (· = p) m' := by
  have hstate := h.field Thread.state rfl
  have hblocks := h.field Thread.blocks (hm.running_blocks hp).symm
  refine ⟨⟨hm.placed.congr h.lists h.threads h.newThread h.threadId h.next (fun p' => by rw [hstate])
    (h.field Thread.id rfl) fun p' hp' => ?_,
    h.linked, hm.waiting.congr h.lists (fun b => by rw [h.block]) hblocks hstate fun p' hp' =>
      ?_⟩, h.executing, h.valid, h.time,
    fun p' _ q => by rw [h.lists], h.other, fun p' hp' _ => (rest_congr (congrFun h.lists _) h.next).symm ▸ hp'⟩
  · rw [h.other p' fun heq => absurd (hm.placed.one hp (heq ▸ hp')) (by decide)]
  · by_cases heq : p' = p
    · rw [heq, h.self] at hp'
      exact absurd rfl hp'
    · rw [h.other p' heq] at hp'
      exact .inl hp'

end Restarted

/-- A thread that starts again leaves its list as it would have before. -/
theorem Steady.leaveRestarted (h : Steady m) (hp : p ∈ m.threads) :
    Left (m.restart p) p ((m.restart p).leave p) ∧ Placed ((m.restart p).leave p) (some p) ∧
    Waiting ((m.restart p).leave p) none ∧
      ((m.restart p).leave p).lists = (m.leave p).lists := by
  have hrestart := h.linked.restart p
  have hbefore := h.linked.leave p
  have hleft := hrestart.linked.leave p
  have hplaced := hbefore.placed h.placed hp
  have hwaiting := h.waiting.left h.placed hbefore
  generalize m.restart p = m₁ at *
  generalize m.leave p = m₂ at *
  generalize m₁.leave p = m₃ at *
  have hstate := hrestart.field Thread.state rfl
  have hlists : m₃.lists = m₂.lists := by rw [hleft.lists, hbefore.lists, hrestart.lists, hstate]
  have hother : ∀ p', p' ≠ p → m₃.thread p' = m₂.thread p' := by
    intro p' hne
    rw [hleft.other hne, hrestart.other p' hne, hbefore.other hne]
  have hstates : ∀ p', (m₃.thread p').state = (m₂.thread p').state := by
    intro p'
    rw [hleft.field Thread.state fun _ => rfl, hbefore.field Thread.state fun _ => rfl, hstate]
  have hids : ∀ p', (m₃.thread p').id = (m₂.thread p').id := by
    intro p'
    rw [hleft.field Thread.id fun _ => rfl, hbefore.field Thread.id fun _ => rfl, hrestart.field Thread.id rfl]
  have hself : (m₃.thread p).blocks = [] ∧ (m₃.thread p).signals = [] := by
    rw [hleft.self, hrestart.self]
    constructor
    · exact ite_self []
    · exact ite_self []
  have hnext : m₃.nextThread = m₂.nextThread := by rw [hleft.next, hbefore.next, hstate, hrestart.next, hrestart.lists]
  refine ⟨hleft, hplaced.congr hlists ?_ ?_ ?_ hnext (fun p' => by rw [hstates]) hids fun p' hp' => ?_,
    hwaiting.congr hlists (fun b => ?_) (fun p' => ?_) hstates fun p' hp' => ?_, hlists⟩
  · rw [hleft.threads, hrestart.threads, hbefore.threads]
  · rw [hleft.newThread, hrestart.newThread, hbefore.newThread]
  · rw [hleft.threadId, hrestart.threadId, hbefore.threadId]
  · rw [hother p' fun heq => hplaced.apart rfl (heq ▸ hp')]
  · rw [hleft.block, hrestart.block, hbefore.block]
  · by_cases heq : p' = p
    · have hnil : (m₂.thread p).blocks = [] := by
        by_contra hne
        exact hplaced.apart rfl ((hwaiting.waits nofun).mp hne)
      rw [heq, hself.1, hnil]
    · rw [hother p' heq]
  · by_cases heq : p' = p
    · rw [heq] at hp'
      exact absurd hself.2 hp'
    · rw [hother p' heq] at hp'
      exact .inl hp'

/-- A thread starts again, from wherever it was. -/
theorem Steady.restart (h : Steady m) (hp : p ∈ m.threads) :
    Kept m (· = p) ((m.restart p).sysSwitchState p .running) := by
  have hrestart := h.linked.restart p
  by_cases hstate : (m.thread p).state = .running
  · have hsame : ((m.restart p).thread p).state = ThreadList.running.state :=
      (hrestart.field Thread.state rfl p).trans hstate
    rw [Machine.sysSwitchState, if_pos hsame]
    obtain ⟨q, -, hq⟩ := h.placed.somewhere hp
    have hplace := h.placed.place hq
    rw [hstate] at hplace
    rw [← hplace] at hq
    exact hrestart.running h hq
  · have hne : ((m.restart p).thread p).state ≠ ThreadList.running.state := by
      rw [hrestart.field Thread.state rfl]
      exact hstate
    obtain ⟨hleft, hplaced, hwaiting, hlists⟩ := h.leaveRestarted hp
    have hbefore := h.linked.leave p
    have hsame : (m.restart p).sysSwitchState p .running =
        ((m.restart p).leave p).put p .running (((m.restart p).leave p).lists .running ++ [p]) := by
      rw [Machine.sysSwitchState, if_neg hne]
      rfl
    rw [hsame]
    generalize (m.restart p).leave p = m₁ at *
    have hperm : (m₁.lists .running ++ [p]).Perm (p :: m₁.lists .running) := List.perm_append_singleton _ _
    refine ⟨⟨hplaced.put (by decide) hperm fun heq => (by cases heq), hleft.linked.put,
      hwaiting.put hplaced hperm (by decide) fun hnot => absurd rfl hnot⟩,
      hleft.executing.trans hrestart.executing, hleft.valid.trans hrestart.valid, hleft.time.trans hrestart.time,
      fun p' hne' q => ?_,
      fun p' hne' => ?_, fun p' hp' _ => rest_append (p := p) ?_ ?_ hp'⟩
    · rw [put_mem hperm, hlists, hbefore.mem h.placed]
      simp [hne']
    · have hput : (m₁.put p .running (m₁.lists .running ++ [p])).thread p' = m₁.thread p' :=
        Machine.setThread_of_ne hne'
      rw [hput, hleft.other hne', hrestart.other p' hne']
    · have hnot : p ∉ m.lists .running := fun hmem => hstate (h.placed.running hmem)
      rw [put_list, if_pos rfl, hlists, hbefore.running h.placed, List.erase_of_not_mem hnot]
    · have hnext : m₁.nextThread = m.nextThread := by
        rw [hleft.next, if_neg fun hand => hne hand.1, hrestart.next]
      exact hnext

/-! ## Steps and runs -/

/-- What a step comes to that a thread takes: the thread is left, or it goes on. -/
inductive Performed (m : Machine V) (fs : List Frame) (r : Option ThreadPtr × Machine V) : Prop
  | returned {P : ThreadPtr → Prop} {m₁ : Machine V} (hk : Kept m P m₁) (hidle : ∀ f ∈ fs, ¬P f.thread)
      (hr : m₁.sysReturn = r)
  | stayed {P : ThreadPtr → Prop} {m₁ : Machine V} (hk : Kept m P m₁)
      (hrunning : ∀ f ∈ m.executing, f.thread ∈ m₁.lists .running)
      (hr : (none, m₁) = r)

section Performed

variable {f : Frame} {fs : List Frame} {e : Event V} {o : Option ThreadPtr} {r : Option ThreadPtr × Machine V}

omit [DecidableEq V] in
theorem ok_state {r : Option ThreadPtr × Machine V} (h : (.ok r : Machine.Step V) = .ok (o, m')) : r.2 = m' :=
  congrArg Prod.snd (Except.ok.inj h)

omit [DecidableEq V] in
/-- A change that the list of the running threads is no part of. -/
theorem Sound.same (h : Sound m) (hk : Kept m P m') (hlists : m'.lists .running = m.lists .running) :
    Performed m fs (none, m') := by
  refine .stayed hk (fun f hf => ?_) rfl
  rw [hlists]
  exact h.executing.running f hf

omit [DecidableEq V] in
theorem Sound.others (h : Sound m) (hk : Kept m P m') (hidle : ∀ f ∈ m.executing, ¬P f.thread) :
    Performed m fs (none, m') :=
  .stayed hk (fun f hf => (hk.mem f.thread (hidle f hf) _).mpr (h.executing.running f hf)) rfl

omit [DecidableEq V] in
theorem Sound.runs (h : Sound m) (hexec : m.executing = f :: fs) : f.thread ∈ m.lists .running := by
  refine h.executing.running f ?_
  rw [hexec]
  exact List.mem_cons_self

omit [DecidableEq V] in
theorem Sound.alone (h : Sound m) (hexec : m.executing = f :: fs) : ∀ f' ∈ fs, f'.thread ≠ f.thread := by
  have hnodup := h.executing.nodup
  rw [hexec] at hnodup
  exact fun f' hf' heq => (List.nodup_cons.mp hnodup).1 (heq ▸ List.mem_map_of_mem hf')

theorem Sound.gmBlock {block : V} {blocks : List V} (h : Sound m) (hexec : m.executing = f :: fs)
    (hperform : m.perform f.thread (!fs.isEmpty) (.gmBlock block blocks) = .ok r) : Performed m fs r := by
  have hp := h.runs hexec
  have hstate := h.steady.placed.running hp
  simp only [Machine.perform, Machine.sysBlock] at hperform
  generalize Machine.useSignals (block :: blocks) (m.thread f.thread).signals = used at hperform
  obtain ⟨i, signals⟩ := used
  have hset := h.steady.setThread (p := f.thread) (f := fun t => { t with signals }) rfl rfl rfl (fun _ => rfl) fun _ =>
    .inr (.inl hstate)
  cases i with
  | some i =>
    rw [← Except.ok.inj hperform]
    rw [Machine.setThread_setThread]
    have hboth := h.steady.setThread (p := f.thread) (f := fun t => { t with signals, result := (block :: blocks)[i]? })
      rfl rfl rfl
      (fun _ => rfl) fun _ => .inr (.inl hstate)
    exact h.same (Kept.setThread hboth) rfl
  | none =>
    rw [← Except.ok.inj hperform]
    exact .returned ((Kept.setThread hset).trans (hset.block hp (List.cons_ne_nil _ _)) fun _ hp' _ =>
      mem_running_of_rest hp')
      (fun f' hf' hand => h.alone hexec f' hf' (or_self_iff.mp hand)) rfl

/-- What a thread does, event by event. -/
theorem Sound.performs (h : Sound m) (hexec : m.executing = f :: fs)
    (hperform : m.perform f.thread (!fs.isEmpty) e = .ok r) : Performed m fs r := by
  have hp := h.runs hexec
  have hlive := h.steady.placed.lives hp (by decide)
  have hstate := h.steady.placed.running hp
  have halone := h.alone hexec
  have hkilled : Performed m fs (m.sysSwitchState f.thread .killed).sysReturn :=
    .returned (h.steady.kill hlive).kept halone rfl
  cases e with
  | gmBlock block blocks => exact h.gmBlock hexec hperform
  | gmSleep ms =>
    rw [← Except.ok.inj hperform]
    have hnot : f.thread ∉ m.lists .sleeping := fun hmem => absurd (h.steady.placed.one hp hmem) (by decide)
    have hset := h.steady.setThread (p := f.thread) (f := fun t => { t with timeStamp := m.time + ms }) rfl rfl rfl
      (fun hmem => absurd hmem hnot) .inl
    have hrunning : ((m.setThread f.thread fun t => { t with timeStamp := m.time + ms }).thread f.thread).state =
      .running := by
      rw [Machine.setThread_self]
      exact hstate
    have hswitched := hset.switch (p := f.thread) (q := .sleeping) hlive (by rw [hrunning]; decide)
      (by decide) (.inr (.inr hrunning))
    have hafter := hswitched.kept hset.placed fun _ => by decide
    exact .returned ((Kept.setThread hset).trans hafter fun _ hp' _ => mem_running_of_rest hp')
      (fun f' hf' hand => halone f' hf' (or_self_iff.mp hand)) rfl
  | gmYield =>
    rw [← Except.ok.inj hperform]
    exact .returned (Kept.setThread (h.steady.setThread rfl rfl rfl (fun _ => rfl) fun hne => absurd rfl hne))
      halone rfl
  | gmExit =>
    rw [← Except.ok.inj hperform]
    exact hkilled
  | exception debugged =>
    rw [← Except.ok.inj hperform]
    cases debugged with
    | true =>
      have hswitched := h.steady.switch (q := .exception) hlive (by rw [hstate]; decide) (by decide)
        (.inr (.inr hstate))
      exact .returned (hswitched.kept h.steady.placed fun _ => by decide) halone rfl
    | false => exact hkilled
  | gmKillThread id =>
    simp only [Machine.perform] at hperform
    split at hperform
    · rw [← Except.ok.inj hperform]
      exact hkilled
    · split at hperform
      · rename_i hidle
        rw [← Except.ok.inj hperform]
        exact h.others (h.steady.killThread id).kept fun f' hf' hget => hidle f'.thread hget f' hf' rfl
      · cases hperform
  | gmKillAllThreads killCurrent =>
    simp only [Machine.perform] at hperform
    have hall := h.steady.killsAll f.thread
    cases hnested : fs with
    | cons f' fs' =>
      rw [hnested] at hperform
      cases hperform
    | nil =>
      rw [hnested] at hperform hexec
      have hself : kills f.thread f.thread (m.thread f.thread).state = false := by simp [kills]
      cases killCurrent with
      | true =>
        rw [← Except.ok.inj hperform]
        have hlast :=
          hall.kept.steady.kill ((hall.threads f.thread).mpr ⟨hlive, fun hand => by rw [hself] at hand; cases hand.2⟩)
        exact .returned (hall.trans hlast).kept nofun rfl
      | false =>
        rw [← Except.ok.inj hperform]
        refine h.others hall.kept fun f' hf' hand => ?_
        rw [hexec, List.mem_singleton] at hf'
        rw [hf', hself] at hand
        cases hand.2
  | gmSetState =>
    rw [← Except.ok.inj hperform]
    have hrestart := h.steady.linked.restart f.thread
    exact h.same (hrestart.running h.steady hp) (by rw [hrestart.lists])
  | gmSetStateOnThread id =>
    simp only [Machine.perform] at hperform
    cases hget : m.getThread id with
    | none =>
      rw [hget] at hperform
      rw [← Except.ok.inj hperform]
      exact h.same (Kept.refl (P := fun _ => False) h.steady) rfl
    | some p =>
      rw [hget] at hperform
      dsimp only at hperform
      split at hperform
      · rename_i hidle
        rw [← Except.ok.inj hperform]
        exact h.others (h.steady.restart (getThread_mem hget).1) hidle
      · cases hperform
  | createThread => cases hperform
  | killThread id => cases hperform
  | signal signal dst src => cases hperform
  | killExceptionThreads => cases hperform
  | execute delta => cases hperform
  | sysExecute p => cases hperform

omit [DecidableEq V] in
theorem Performed.sound {r : Option ThreadPtr × Machine V} (h : Performed m fs r) (hm : Sound m)
    (hexec : m.executing = f :: fs) : Sound r.2 := by
  cases h with
  | returned hk hidle hr =>
    rw [← hr]
    exact hm.returned hexec hk hidle
  | @stayed _ m₁ hk hrunning hr =>
    rw [← hr]
    refine ⟨hk.steady, ?_, ?_⟩
    · show Executing m₁ m₁.executing
      rw [hk.executing]
      exact ⟨hrunning, hm.executing.nodup, hm.executing.last⟩
    · show m₁.nextThreadValid = true ↔ ∃ f ∈ m₁.executing, f.cycle = true
      rw [hk.valid, hk.executing]
      exact hm.valid

end Performed

omit [DecidableEq V] in
/-- A thread is executed by a function, behind the calls that go on. -/
theorem Sound.sysExecute (h : Sound m) (hp : p ∈ m.lists .running) (hidle : m.Idle p) :
    Sound { m with executing := { thread := p, cycle := false } :: m.executing } := by
  obtain ⟨hsteady, hexecuting, hvalid⟩ := h
  refine ⟨hsteady.next hsteady.placed.next, ⟨fun f hf => ?_, ?_, ?_⟩, ?_⟩
  · rcases List.mem_cons.mp hf with rfl | hf
    · exact hp
    · exact hexecuting.running f hf
  · refine List.nodup_cons.mpr ⟨fun hmem => ?_, hexecuting.nodup⟩
    obtain ⟨f, hf, heq⟩ := List.mem_map.mp hmem
    exact hidle f hf heq
  · exact List.pairwise_cons.mpr ⟨fun _ _ => rfl, hexecuting.last⟩
  · show m.nextThreadValid = true ↔ ∃ f ∈ ({ thread := p, cycle := false } :: m.executing : List Frame), f.cycle = true
    rw [hvalid]
    simp

/-- One step of a machine. -/
theorem Sound.step {e : Event V} {o : Option ThreadPtr} (h : Sound m) (hstep : m.step e = .ok (o, m')) : Sound m' := by
  have hperformed : ∀ e : Event V, m.innermost e = .ok (o, m') → Sound m' := by
    intro e hperform
    unfold Machine.innermost at hperform
    cases hexec : m.executing with
    | nil =>
      rw [hexec] at hperform
      cases hperform
    | cons f fs =>
      rw [hexec] at hperform
      exact (h.performs hexec hperform).sound h hexec
  cases e with
  | createThread =>
    simp only [Machine.step] at hstep
    split at hstep
    · rw [← ok_state hstep]
      refine h.kept h.steady.createThread.1 fun f hf heq => ?_
      exact h.steady.allocThread.fresh .running (by decide) (heq ▸ h.executing.running f hf)
    · cases hstep
  | killThread id =>
    simp only [Machine.step] at hstep
    split at hstep
    · rename_i hidle
      rw [← ok_state hstep]
      exact h.kept (h.steady.killThread id).kept fun f hf hget => hidle f.thread hget f hf rfl
    · cases hstep
  | signal signal dst src =>
    rw [← ok_state hstep]
    have hsignalled := h.steady.signal signal dst src
    refine h.kept hsignalled.kept fun f hf hmem => ?_
    exact absurd (h.steady.placed.one (h.executing.running f hf) hmem) (by decide)
  | killExceptionThreads =>
    rw [← ok_state hstep]
    refine h.kept h.steady.killExceptionThreads.kept fun f hf hmem => ?_
    exact absurd (h.steady.placed.one (h.executing.running f hf) hmem) (by decide)
  | execute delta =>
    simp only [Machine.step] at hstep
    split at hstep
    · rename_i hexec
      rw [← ok_state hstep]
      exact h.steady.execute hexec delta
    · cases hstep
  | sysExecute p =>
    simp only [Machine.step] at hstep
    split at hstep
    · rename_i hand
      rw [← ok_state hstep]
      exact h.sysExecute hand.1 hand.2
    · cases hstep
  | gmBlock block blocks => exact hperformed _ hstep
  | gmSleep ms => exact hperformed _ hstep
  | gmYield => exact hperformed _ hstep
  | gmExit => exact hperformed _ hstep
  | exception debugged => exact hperformed _ hstep
  | gmKillThread id => exact hperformed _ hstep
  | gmKillAllThreads killCurrent => exact hperformed _ hstep
  | gmSetState => exact hperformed _ hstep
  | gmSetStateOnThread id => exact hperformed _ hstep

omit [DecidableEq V] in
/-- When a call is left, the cycle comes to the next thread that it has still before it. -/
theorem sysReturn_rest {o : Option ThreadPtr} (hm : Placed m none) (hp : p ∈ m.rest) (hreturn : m.sysReturn = (o, m')) :
    o = some p ∨ p ∈ m'.rest ∧ m'.nextThreadValid = m.nextThreadValid := by
  unfold Machine.sysReturn at hreturn
  split at hreturn
  · cases hreturn
    exact .inr ⟨hp, rfl⟩
  · split at hreturn
    · unfold Machine.cycle at hreturn
      unfold Machine.rest at hp
      cases hnext : m.nextThread with
      | none =>
        rw [hnext] at hp
        exact absurd hp List.not_mem_nil
      | some n =>
        rw [hnext] at hp hreturn
        cases hreturn
        by_cases heq : p = n
        · exact .inl (congrArg some heq.symm)
        · obtain ⟨n', hget, hmem, -⟩ := dropWhile_getNext (hm.nodup _) hp heq
          refine .inr ⟨?_, rfl⟩
          unfold Machine.rest
          dsimp only
          rw [hget]
          exact hmem
    · cases hreturn
      exact .inr ⟨hp, rfl⟩

/-- What a step does to a thread that the cycle has before it. -/
theorem Sound.step_rest {e : Event V} {o : Option ThreadPtr} (h : Sound m) (hvalid : m.nextThreadValid = true)
    (hp : p ∈ m.rest)
    (hstep : m.step e = .ok (o, m')) : o = some p ∨ p ∉ m'.lists .running ∨ p ∈ m'.rest ∧
    m'.nextThreadValid = true := by
  have hkept : ∀ {P : ThreadPtr → Prop} {m₁ : Machine V}, Kept m P m₁ → m₁ = m' →
      o = some p ∨ p ∉ m'.lists .running ∨ p ∈ m'.rest ∧ m'.nextThreadValid = true := by
    rintro P m₁ hk rfl
    by_cases hrunning : p ∈ m₁.lists .running
    · exact .inr (.inr ⟨hk.rest p hp hrunning, hk.valid.trans hvalid⟩)
    · exact .inr (.inl hrunning)
  have hperformed : ∀ e : Event V, m.innermost e = .ok (o, m') →
      o = some p ∨ p ∉ m'.lists .running ∨ p ∈ m'.rest ∧ m'.nextThreadValid = true := by
    intro e hperform
    unfold Machine.innermost at hperform
    cases hexec : m.executing with
    | nil =>
      rw [hexec] at hperform
      cases hperform
    | cons f fs =>
      rw [hexec] at hperform
      cases h.performs hexec hperform with
      | @returned P m₁ hk hidle hr =>
        by_cases hrunning : p ∈ m₁.lists .running
        · refine (sysReturn_rest hk.steady.placed (hk.rest p hp hrunning) hr).imp_right fun hand => .inr ⟨hand.1, ?_⟩
          rw [hand.2, hk.valid, hvalid]
        · refine .inr (.inl ?_)
          have hlists := Machine.sysReturn_lists m₁
          rw [hr] at hlists
          rwa [hlists]
      | stayed hk hrunning hr => exact hkept hk (congrArg Prod.snd hr)
  cases e with
  | createThread =>
    simp only [Machine.step] at hstep
    split at hstep
    · exact hkept h.steady.createThread.1 (ok_state hstep)
    · cases hstep
  | killThread id =>
    simp only [Machine.step] at hstep
    split at hstep
    · exact hkept (h.steady.killThread id).kept (ok_state hstep)
    · cases hstep
  | signal signal dst src => exact hkept (h.steady.signal signal dst src).kept (ok_state hstep)
  | killExceptionThreads => exact hkept h.steady.killExceptionThreads.kept (ok_state hstep)
  | execute delta =>
    simp only [Machine.step] at hstep
    split at hstep
    · rename_i hexec
      obtain ⟨f, hf, -⟩ := h.valid.mp hvalid
      rw [hexec] at hf
      exact absurd hf List.not_mem_nil
    · cases hstep
  | sysExecute q =>
    simp only [Machine.step] at hstep
    split at hstep
    · cases hstep
      exact .inr (.inr ⟨hp, hvalid⟩)
    · cases hstep
  | gmBlock block blocks => exact hperformed _ hstep
  | gmSleep ms => exact hperformed _ hstep
  | gmYield => exact hperformed _ hstep
  | gmExit => exact hperformed _ hstep
  | exception debugged => exact hperformed _ hstep
  | gmKillThread id => exact hperformed _ hstep
  | gmKillAllThreads killCurrent => exact hperformed _ hstep
  | gmSetState => exact hperformed _ hstep
  | gmSetStateOnThread id => exact hperformed _ hstep

/-- A cycle begins with the first of the running threads, and has the others before it. -/
theorem Steady.execute_rest {delta : UInt32} {o : Option ThreadPtr} (h : Steady m)
    (hexecute : m.step (.execute delta) = .ok (o, m'))
    (hp : p ∈ m'.lists .running) : o = some p ∨ p ∈ m'.rest ∧ m'.nextThreadValid = true := by
  simp only [Machine.step] at hexecute
  split at hexecute
  · have heq := Except.ok.inj hexecute
    rw [Machine.execute_wakes] at heq
    have hnodup := (h.passed delta).wakes.kept.steady.placed.nodup .running
    generalize (m.passed delta).wakes = m₀ at heq hnodup
    have hlists : m'.lists = m₀.lists := by
      have hcycle :=
        Machine.cycle_lists ({ m₀ with nextThreadValid := true, nextThread := (m₀.lists .running).head? } : Machine V)
      rwa [heq] at hcycle
    rw [hlists] at hp
    unfold Machine.cycle at heq
    cases hl : m₀.lists .running with
    | nil =>
      rw [hl] at hp
      exact absurd hp List.not_mem_nil
    | cons n l =>
      rw [hl] at heq hp hnodup
      cases heq
      by_cases hn : p = n
      · exact .inl (congrArg some hn.symm)
      · have hmem : p ∈ (n :: l).dropWhile (· ≠ n) := by
          rw [List.dropWhile_cons_of_neg (by simp)]
          exact hp
        obtain ⟨n', hget, hrest, -⟩ := dropWhile_getNext hnodup hmem hn
        refine .inr ⟨?_, rfl⟩
        unfold Machine.rest
        dsimp only
        rw [hl, hget]
        exact hrest
  · cases hexecute

/-- The machine as its program and its threads use it. -/
def scheduler (V : Type) [DecidableEq V] : Run.Machine (Machine V) (Event V) (Option ThreadPtr) Fault := ⟨Machine.step⟩

end Steps

/-- A machine without threads. -/
def Machine.init (V : Type) [Inhabited V] : Machine V where
  thread _ := .new
  block _ := { signalled := false, srcThreadId := none, block := default, thread := 0 }
  newThread := 0
  newBlock := 0
  threads := []
  lists _ := []
  blocks _ := none
  time := 0
  threadId := 0
  nextThread := none
  nextThreadValid := false
  executing := []

theorem Sound.init [Inhabited V] : Sound (Machine.init V) := by
  have hnone : ∀ {α : Type} {x : α}, x ∉ ([] : List α) := List.not_mem_nil
  refine ⟨⟨⟨fun hp => absurd hp hnone, nofun, fun _ => List.nodup_nil, fun p => ?_, List.nodup_nil,
    fun hp => ?_, fun hp => absurd hp hnone,
    fun hp => absurd hp hnone, .nil, nofun⟩, ⟨fun hb => absurd hb hnone, nofun, nofun, nofun, fun _ => List.nodup_nil⟩,
    ⟨fun {p} _ => ?_, fun hp => absurd hp hnone, fun hb => absurd hb hnone, fun hs => absurd rfl hs⟩⟩,
    ⟨fun _ hf => absurd hf hnone, List.nodup_nil, .nil⟩, ?_⟩
  · simp [Machine.init]
  · simp [Machine.init] at hp
  · exact iff_of_false (fun hne => hne rfl) hnone
  · simp [Machine.init]

/-- Two threads, one of which sleeps and one of which waits and is signalled. -/
def pair : List (Event Nat) :=
  [.createThread, .createThread, .execute 0, .gmSleep 5, .gmBlock 7 [8], .signal 8 0 0]

/-- The machine after a run. -/
def after (es : List (Event Nat)) : Machine Nat :=
  match (scheduler Nat).run es (.init Nat) with
  | .ok (_, m) => m
  | .error _ => .init Nat

theorem pair_run : (scheduler Nat).run pair (.init Nat) =
    .ok ([none, none, some 0, some 1, none, none], after pair) := rfl

/-- The same two threads, neither of them signalled. -/
def pairBlocked : List (Event Nat) :=
  [.createThread, .createThread, .execute 0, .gmSleep 5, .gmBlock 7 [8]]

theorem pairBlocked_run :
    (scheduler Nat).run pairBlocked (.init Nat) = .ok ([none, none, some 0, some 1, none], after pairBlocked) := rfl

/-- Two threads that are to be executed. -/
def duo : List (Event Nat) := [.createThread, .createThread]

theorem duo_run : (scheduler Nat).run duo (.init Nat) = .ok ([none, none], after duo) := rfl

/-- The first thread is signalled before it is to be killed. -/
def trio : List (Event Nat) :=
  [.createThread, .createThread, .createThread, .execute 0, .gmBlock 7 [], .signal 7 0 0]

theorem trio_run : (scheduler Nat).run trio (.init Nat) =
    .ok ([none, none, none, some 0, some 1, none], after trio) := rfl

/-- A run from a sound state, over which the cycle comes to its end. -/
theorem Sound.run_rest [DecidableEq V] : ∀ {es : List (Event V)} {os : List (Option ThreadPtr)} {m m' : Machine V},
    Sound m →
    m.nextThreadValid = true → p ∈ m.rest → (scheduler V).run es m = .ok (os, m') → m'.nextThreadValid = false →
      some p ∈ os ∨ ∃ es₁ es₂ os₁ m₁, es = es₁ ++ es₂ ∧ (scheduler V).run es₁ m = .ok (os₁, m₁) ∧ p ∉ m₁.lists .running
  | [], _, _, _, _, hvalid, _, hrun, hover => by
    cases hrun
    exact absurd (hvalid.symm.trans hover) (by decide)
  | e :: es, _, m, m', h, hvalid, hp, hrun, hover => by
    obtain ⟨o, m₁, os₁, hstep, hrest, rfl⟩ := Run.Machine.run_cons_inv hrun
    have hone : (scheduler V).run [e] m = .ok ([o], m₁) := by
      rw [Run.Machine.run_cons _ _ hstep]
      rfl
    rcases h.step_rest hvalid hp hstep with rfl | hleft | ⟨hp₁, hvalid₁⟩
    · exact .inl List.mem_cons_self
    · exact .inr ⟨[e], es, _, m₁, rfl, hone, hleft⟩
    · refine (Sound.run_rest (h.step hstep) hvalid₁ hp₁ hrest hover).imp (List.mem_cons_of_mem _) ?_
      rintro ⟨es₁, es₂, os₂, m₂, rfl, hrun₂, hleft⟩
      refine ⟨e :: es₁, es₂, o :: os₂, m₂, rfl, ?_, hleft⟩
      rw [Run.Machine.run_cons _ _ hstep, hrun₂]
      rfl

section Runs

variable [DecidableEq V] [Inhabited V] {es : List (Event V)} {os : List (Option ThreadPtr)}

theorem Sound.run (h : (scheduler V).run es (.init V) = .ok (os, m)) : Sound m :=
  Run.Machine.run_inv (fun _ _ _ _ hs _ hstep => hs.step hstep) Sound.init ((scheduler V).meets_true es (.init V)) h

/-- After any run each live thread is in one list, that of its state, under an id of its own; the
threads that are blocked are those that have blocks, and these are found by what they wait for; and
the threads that are executed, or that the cycle comes to next, are running. -/
theorem run_threads (h : (scheduler V).run es (.init V) = .ok (os, m)) :
    (∀ p ∈ m.threads, (∃! q, p ∈ m.lists q) ∧ p ∈ m.lists (m.thread p).state.list ∧
      m.getThread (m.thread p).id = some p) ∧
      (∀ p, (m.thread p).blocks ≠ [] ↔ p ∈ m.lists .blocked) ∧
      (∀ p b, b ∈ (m.thread p).blocks ↔ (m.block b).thread = p ∧ ∃ l, m.blocks (m.block b).block = some l ∧ b ∈ l) ∧
      (∀ p, (∃ f ∈ m.executing, f.thread = p) ∨ m.nextThread = some p → p ∈ m.lists .running) := by
  obtain ⟨⟨hplaced, hlinked, hwaiting⟩, hexecuting, -⟩ := Sound.run h
  refine ⟨fun p hp => ?_, fun p => hwaiting.waits nofun, fun p b => ⟨hlinked.owner, ?_⟩, fun p hp => ?_⟩
  · obtain ⟨q, -, hq⟩ := hplaced.somewhere hp
    refine ⟨⟨q, hq, fun q' hq' => hplaced.one hq' hq⟩, (hplaced.place hq).symm ▸ hq, ?_⟩
    have hfound : (m.getThread (m.thread p).id).isSome = true := List.find?_isSome.mpr ⟨p, hp, by simp⟩
    obtain ⟨p', hget⟩ := Option.isSome_iff_exists.mp hfound
    obtain ⟨hmem, hid⟩ := getThread_mem hget
    rw [hget, hplaced.distinct hmem hp hid]
  · rintro ⟨rfl, l, hl, hmem⟩
    exact (hlinked.listed hl hmem).2.1
  · rcases hp with ⟨f, hf, rfl⟩ | hnext
    · exact hexecuting.running f hf
    · exact hplaced.next hnext

theorem pair_threads : (∃! q, 1 ∈ (after pair).lists q) ∧ 1 ∈ (after pair).lists .blocked :=
  have hthread := (run_threads pair_run).1 1 (by decide)
  ⟨hthread.1, hthread.2.1⟩

/-- `Execute` lets the threads go on that are due and those that were signalled, these with what they
were signalled, and it leaves all others as they are. -/
theorem run_execute (h : (scheduler V).run es (.init V) = .ok (os, m)) (delta : UInt32) (p : ThreadPtr) :
    (p ∈ (m.execute delta).2.lists .running ↔ p ∈ m.lists .running ∨ Due (m.passed delta) p) ∧
      (p ∈ m.lists .blocked → (m.thread p).state = .sysPending → ∃ b ∈ (m.thread p).blocks,
        (m.block b).signalled = true ∧ ((m.execute delta).2.thread p).result = some (m.block b).block) ∧
      (¬Due (m.passed delta) p → (m.execute delta).2.thread p = m.thread p) := by
  have hsteady := (Sound.run h).steady
  have hwoken := (hsteady.passed delta).wakes
  have hlists : (m.execute delta).2.lists = (m.passed delta).wakes.lists := by
    rw [Machine.execute_wakes, Machine.cycle_lists]
  have hthread : (m.execute delta).2.thread = (m.passed delta).wakes.thread := by
    rw [Machine.execute_wakes, Machine.cycle_thread]
  rw [hlists, hthread]
  refine ⟨⟨fun hp => ?_, fun hp => ?_⟩, fun hp hstate => ?_, fun hdue => hwoken.kept.other p hdue⟩
  · by_cases hdue : Due (m.passed delta) p
    · exact .inr hdue
    · exact .inl ((hwoken.kept.mem p hdue _).mp hp)
  · by_cases hdue : Due (m.passed delta) p
    · exact hwoken.running p hdue
    · exact (hwoken.kept.mem p hdue _).mpr (hp.resolve_right hdue)
  · have hresult := hwoken.result p (.inr ⟨hp, hstate⟩)
    obtain ⟨b, hb, hs⟩ := (hsteady.waiting.pending hp).mp hstate
    have hfound : (m.signalledBlock p).isSome = true := List.find?_isSome.mpr ⟨b, hb, hs⟩
    obtain ⟨c, hc⟩ := Option.isSome_iff_exists.mp hfound
    refine ⟨c, List.mem_of_find?_eq_some hc, List.find?_some (p := fun b => (m.block b).signalled) hc, hresult.trans ?_⟩
    have hwake : (m.passed delta).woken p = (m.signalledBlock p).map fun b => (m.block b).block := if_pos hstate
    rw [hwake, hc]
    rfl

theorem pair_execute : Due ((after pair).passed 5) 0 ∧ Due ((after pair).passed 5) 1 ∧
    0 ∈ ((after pair).execute 5).2.lists .running ∧
    ((after pair).execute 5).2.lists .running = [0, 1] ∧ (((after pair).execute 5).2.thread 1).result = some 8 := by
  refine ⟨by decide, by decide, ?_, rfl, rfl⟩
  exact (run_execute pair_run 5 0).1.mpr (.inr (.inl (by decide)))

/-- `gmKillAllThreads` keeps the thread itself, where it is to, the threads that have been signalled
and have not gone on yet, and those that are in an exception. -/
theorem run_killAll {f : Frame} (h : (scheduler V).run es (.init V) = .ok (os, m)) (hexec : m.executing = [f])
    (killCurrent : Bool) :
    ∃ o m', m.step (.gmKillAllThreads killCurrent) = .ok (o, m') ∧ ∀ p, p ∈ m'.threads ↔ p ∈ m.threads ∧
      (if p = f.thread then killCurrent = false else (m.thread p).state = .sysPending ∨
        (m.thread p).state = .exception) := by
  have hsound := Sound.run h
  have hp := hsound.runs hexec
  have hlive := hsound.steady.placed.lives hp (by decide)
  have hall := hsound.steady.killsAll f.thread
  have hself : ∀ s, kills f.thread f.thread s = false := fun s => by simp [kills]
  have hkept : ∀ p, p ∈ (m.forEachThread fun m q => m.threadIterKill q f.thread).threads ↔ p ∈ m.threads ∧
      (p ≠ f.thread → (m.thread p).state = .sysPending ∨ (m.thread p).state = .exception) := by
    intro p
    rw [hall.threads]
    refine and_congr_right fun hmem => ?_
    have hkilled := hsound.steady.placed.not_killed hmem
    by_cases heq : p = f.thread
    · simp [heq, hself]
    · cases hstate : (m.thread p).state <;> simp [kills, heq, hmem, hstate] at hkilled ⊢
  have hstep : m.step (.gmKillAllThreads killCurrent) =
      if killCurrent then .ok ((m.forEachThread fun m q => m.threadIterKill q f.thread).sysSwitchState
        f.thread .killed).sysReturn
      else .ok (none, m.forEachThread fun m q => m.threadIterKill q f.thread) := by
    simp only [Machine.step, Machine.innermost, hexec, Machine.perform]
    rfl
  cases killCurrent with
  | true =>
    have hlast :=
      hall.kept.steady.kill ((hall.threads f.thread).mpr ⟨hlive, fun hand => by rw [hself] at hand; cases hand.2⟩)
    generalize (m.forEachThread fun m q => m.threadIterKill q f.thread).sysSwitchState f.thread .killed = m₁ at *
    refine ⟨m₁.sysReturn.1, m₁.sysReturn.2, hstep, fun p => ?_⟩
    rw [Machine.sysReturn_threads, hlast.threads, hkept]
    by_cases heq : p = f.thread <;> simp [heq]
  | false =>
    refine ⟨_, _, hstep, fun p => ?_⟩
    rw [hkept]
    by_cases heq : p = f.thread <;> simp [heq]

theorem trio_killAll : ∃ o m', (after trio).step (.gmKillAllThreads false) = .ok (o, m') ∧ ∀ p, p ∈ m'.threads ↔
    p ∈ (after trio).threads ∧
    (if p = 1 then false = false else ((after trio).thread p).state = .sysPending ∨
      ((after trio).thread p).state = .exception) :=
  run_killAll (f := ⟨1, true⟩) trio_run rfl false

/-- A signal for all threads reaches each that waits on it, and no other; a thread that does not wait
on it stays as it is, and where it is. -/
theorem run_signal (h : (scheduler V).run es (.init V) = .ok (os, m)) (signal : V) (src : Nat) (p : ThreadPtr) :
    (((m.signal signal gmInvalidThread src).thread p).state = .sysPending ↔
      (m.thread p).state = .sysPending ∨ ∃ b ∈ (m.thread p).blocks, (m.block b).block = signal) ∧
    ((∀ b ∈ (m.thread p).blocks, (m.block b).block ≠ signal) →
      (m.signal signal gmInvalidThread src).thread p = m.thread p) ∧
    (m.signal signal gmInvalidThread src).lists = m.lists := by
  have hsteady := (Sound.run h).steady
  refine ⟨?_, fun hfar => ?_, (hsteady.signal signal gmInvalidThread src).lists⟩
  all_goals unfold Machine.signal
  · cases hl : m.blocks signal with
    | none =>
      refine ⟨.inl, fun hand => hand.resolve_right ?_⟩
      rintro ⟨b, hb, rfl⟩
      obtain ⟨-, l, hl', -⟩ := hsteady.linked.owner hb
      rw [hl] at hl'
      cases hl'
    | some l =>
      rw [hsteady.signalLoop_pending signal src l fun b hb => (hsteady.linked.listed hl hb).2.1]
      refine or_congr_right ⟨?_, ?_⟩
      · rintro ⟨b, hb, rfl⟩
        obtain ⟨hkey, hown, -⟩ := hsteady.linked.listed hl hb
        exact ⟨b, hown, hkey⟩
      · rintro ⟨b, hb, rfl⟩
        obtain ⟨ho, l', hl', hmem⟩ := hsteady.linked.owner hb
        rw [hl] at hl'
        cases hl'
        exact ⟨b, hmem, ho⟩
  · cases hl : m.blocks signal with
    | none => rfl
    | some l =>
      refine hsteady.signalLoop_other signal gmInvalidThread src l (fun b hb => (hsteady.linked.listed hl hb).2.1)
        fun b hb hown => ?_
      obtain ⟨hkey, hmem, -⟩ := hsteady.linked.listed hl hb
      exact hfar b (hown ▸ hmem) hkey

/-- The thread that waits is signalled, and the one that sleeps stays as it is. -/
theorem pair_signal : (((after pairBlocked).signal 7 gmInvalidThread 0).thread 1).state = .sysPending ∧
    ((after pairBlocked).signal 7 gmInvalidThread 0).thread 0 = (after pairBlocked).thread 0 :=
  ⟨(run_signal pairBlocked_run 7 0 1).1.mpr (.inr (by decide)), (run_signal pairBlocked_run 7 0 0).2.1 (by decide)⟩

/-- A cycle that `Execute` begins is over only when each thread that was running then has been
executed, or has left the running ones on the way. -/
theorem run_cycle {es' : List (Event V)} {os' : List (Option ThreadPtr)} {o : Option ThreadPtr} {delta : UInt32}
    (h : (scheduler V).run es (.init V) = .ok (os, m)) (hexecute : m.step (.execute delta) = .ok (o, m'))
    (hp : p ∈ m'.lists .running)
    (hrun : (scheduler V).run es' m' = .ok (os', m'')) (hover : m''.nextThreadValid = false) :
    o = some p ∨ some p ∈ os' ∨
      ∃ es₁ es₂ os₁ m₁, es' = es₁ ++ es₂ ∧ (scheduler V).run es₁ m' = .ok (os₁, m₁) ∧ p ∉ m₁.lists .running := by
  have hsound := Sound.run h
  rcases hsound.steady.execute_rest hexecute hp with hfirst | ⟨hrest, hvalid⟩
  · exact .inl hfirst
  · exact .inr ((hsound.step hexecute).run_rest hvalid hrest hrun hover)

theorem duo_cycle : some 0 = some 1 ∨ some 1 ∈ [some 1, none] ∨ ∃ es₁ es₂ os₁ m₁,
    [Event.gmYield, .gmYield] = es₁ ++ es₂ ∧
    (scheduler Nat).run es₁ (after (duo ++ [.execute 0])) = .ok (os₁, m₁) ∧ 1 ∉ m₁.lists .running :=
  have hexecute : (after duo).step (.execute 0) = .ok (some 0, after (duo ++ [.execute 0])) := rfl
  have hrun : (scheduler Nat).run [.gmYield, .gmYield] (after (duo ++ [.execute 0])) =
    .ok ([some 1, none], after (duo ++ [.execute 0, .gmYield, .gmYield])) := rfl
  run_cycle duo_run hexecute (by decide) hrun rfl

end Runs

end MultiScript.GameMonkey.Scheduler
