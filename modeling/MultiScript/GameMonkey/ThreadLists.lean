/-
How the threads of a machine, their lists and their blocks belong together: each live thread is in
the list of its state alone, a thread has blocks exactly while it is blocked and they are those that
the lists of blocks have of it, and one that was signalled has one signalled block. A thread is
first taken out of its list and then put into another one; between the two it is `loose`.
-/
import MultiScript.GameMonkey.Threads

namespace MultiScript.GameMonkey.Scheduler

variable {V : Type} {m m' : Machine V} {p p' : ThreadPtr} {q q' : ThreadList} {b : BlockPtr}
    {loose busy : Option ThreadPtr}

theorem ThreadList.state_list (q : ThreadList) : q.state.list = q := by cases q <;> rfl

/-! ## The parts of a machine -/

namespace Machine

section Parts

variable {f : Thread V → Thread V} {g : List ThreadPtr → List ThreadPtr}

theorem setThread_self : (m.setThread p f).thread p = f (m.thread p) := Function.update_self ..

theorem setThread_of_ne (h : p' ≠ p) : (m.setThread p f).thread p' = m.thread p' := Function.update_of_ne h ..

theorem setThread_setThread (g : Thread V → Thread V) : (m.setThread p f).setThread p g = m.setThread p fun t =>
    g (f t) := by
  simp only [setThread, Function.update_self, Function.update_idem]

theorem setList_self : (m.setList q g).lists q = g (m.lists q) := Function.update_self ..

theorem setList_of_ne (h : q' ≠ q) : (m.setList q g).lists q' = m.lists q' := Function.update_of_ne h ..

/-- What a field of the threads is, where the change of one of them leaves it. -/
theorem setThread_field {α : Type} (field : Thread V → α) (h : field (f (m.thread p)) = field (m.thread p))
    (p' : ThreadPtr) :
    field ((m.setThread p f).thread p') = field (m.thread p') := by
  by_cases hp : p' = p
  · rw [hp, setThread_self, h]
  · rw [setThread_of_ne hp]

end Parts

theorem mem_setList {f : List ThreadPtr → List ThreadPtr} :
    p ∈ (m.setList q f).lists q' ↔ if q' = q then p ∈ f (m.lists q) else p ∈ m.lists q' := by
  by_cases hq : q' = q
  · rw [if_pos hq, hq, setList_self]
  · rw [if_neg hq, setList_of_ne hq]

end Machine

namespace Machine

/-- What the cycle has still before it. -/
def rest (m : Machine V) : List ThreadPtr :=
  match m.nextThread with
  | some n => (m.lists .running).dropWhile (· ≠ n)
  | none => []

end Machine

/-! ## The invariant -/

/-- The lists of threads. -/
structure Placed (m : Machine V) (loose : Option ThreadPtr) : Prop where
  place : ∀ {q p}, p ∈ m.lists q → (m.thread p).state.list = q
  apart : ∀ {q p}, loose = some p → p ∉ m.lists q
  nodup : ∀ q, (m.lists q).Nodup
  live : ∀ p, p ∈ m.threads ↔ loose = some p ∨ ∃ q, q ≠ .killed ∧ p ∈ m.lists q
  threads : m.threads.Nodup
  allocated : ∀ {p}, loose = some p ∨ (∃ q, p ∈ m.lists q) → p < m.newThread
  ids : ∀ {p}, p ∈ m.threads → 0 < (m.thread p).id ∧ (m.thread p).id ≤ m.threadId
  distinct : ∀ {p p'}, p ∈ m.threads → p' ∈ m.threads → (m.thread p).id = (m.thread p').id → p = p'
  sorted : (m.lists .sleeping).Pairwise fun p p' => (m.thread p).timeStamp ≤ (m.thread p').timeStamp
  next : ∀ {p}, m.nextThread = some p → p ∈ m.lists .running

/-- The blocks, as the threads have them and by what they wait for. -/
structure Linked (m : Machine V) : Prop where
  owner : ∀ {p b}, b ∈ (m.thread p).blocks → (m.block b).thread = p ∧ ∃ l, m.blocks (m.block b).block = some l ∧ b ∈ l
  nonempty : ∀ {v l}, m.blocks v = some l → l ≠ []
  unique : ∀ {v l}, m.blocks v = some l → l.Nodup
  listed : ∀ {v l b}, m.blocks v = some l → b ∈ l → (m.block b).block = v ∧ b ∈ (m.thread (m.block b).thread).blocks ∧
  b < m.newBlock
  nodup : ∀ p, (m.thread p).blocks.Nodup

/-- Which threads have blocks, and which of these are signalled. -/
structure Waiting (m : Machine V) (busy : Option ThreadPtr) : Prop where
  waits : ∀ {p}, busy ≠ some p → ((m.thread p).blocks ≠ [] ↔ p ∈ m.lists .blocked)
  pending : ∀ {p}, p ∈ m.lists .blocked →
  ((m.thread p).state = .sysPending ↔ ∃ b ∈ (m.thread p).blocks, (m.block b).signalled = true)
  one : ∀ {p b b'}, b ∈ (m.thread p).blocks → b' ∈ (m.thread p).blocks → (m.block b).signalled = true →
    (m.block b').signalled = true → b = b'
  signals : ∀ {p}, (m.thread p).signals ≠ [] → (m.thread p).state = .running ∨ (m.thread p).state = .sysPending

/-- The lists, the blocks and the states belong together. -/
structure Steady (m : Machine V) : Prop where
  placed : Placed m none
  linked : Linked m
  waiting : Waiting m none

/-! ## Changes that do not matter -/

theorem Placed.congr (h : Placed m loose) (hlists : m'.lists = m.lists) (hthreads : m'.threads = m.threads)
    (hnew : m'.newThread = m.newThread) (hid : m'.threadId = m.threadId) (hnext : m'.nextThread = m.nextThread)
    (hstate : ∀ p, (m'.thread p).state.list = (m.thread p).state.list) (hids : ∀ p, (m'.thread p).id = (m.thread p).id)
    (hstamp : ∀ p ∈ m.lists .sleeping, (m'.thread p).timeStamp = (m.thread p).timeStamp) : Placed m' loose := by
  refine ⟨fun {q p} hp => ?_, fun {q p} => ?_, fun q => ?_, fun p => ?_, ?_, fun {p} hp => ?_,
    fun {p} hp => ?_, fun {p p'} hp hp' => ?_,
    ?_, fun {p} hp => ?_⟩
  · rw [hlists] at hp
    rw [hstate, h.place hp]
  · rw [hlists]
    exact h.apart
  · rw [hlists]
    exact h.nodup q
  · rw [hthreads, hlists]
    exact h.live p
  · rw [hthreads]
    exact h.threads
  · rw [hlists] at hp
    rw [hnew]
    exact h.allocated hp
  · rw [hthreads] at hp
    rw [hids, hid]
    exact h.ids hp
  · rw [hthreads] at hp hp'
    rw [hids, hids]
    exact h.distinct hp hp'
  · rw [hlists]
    refine h.sorted.imp_of_mem fun {p p'} hp hp' hle => ?_
    rw [hstamp p hp, hstamp p' hp']
    exact hle
  · rw [hnext] at hp
    rw [hlists]
    exact h.next hp

theorem Linked.congr (h : Linked m) (hblocks : m'.blocks = m.blocks) (hnew : m'.newBlock = m.newBlock)
    (hthread : ∀ p, (m'.thread p).blocks = (m.thread p).blocks) (howner : ∀ b, (m'.block b).thread = (m.block b).thread)
    (hblock : ∀ b, (m'.block b).block = (m.block b).block) : Linked m' := by
  refine ⟨fun {p b} hb => ?_, fun {v l} hl => ?_, fun {v l} hl => ?_, fun {v l b} hl hb => ?_, fun p => ?_⟩
  · rw [hthread] at hb
    rw [howner, hblock, hblocks]
    exact h.owner hb
  · rw [hblocks] at hl
    exact h.nonempty hl
  · rw [hblocks] at hl
    exact h.unique hl
  · rw [hblocks] at hl
    rw [hblock, howner, hthread, hnew]
    exact h.listed hl hb
  · rw [hthread]
    exact h.nodup p

theorem Waiting.congr (h : Waiting m busy) (hlists : m'.lists = m.lists)
    (hblock : ∀ b, (m'.block b).signalled = (m.block b).signalled)
    (hthread : ∀ p, (m'.thread p).blocks = (m.thread p).blocks) (hstate : ∀ p, (m'.thread p).state = (m.thread p).state)
    (hsignals : ∀ p, (m'.thread p).signals ≠ [] → (m.thread p).signals ≠ [] ∨ (m.thread p).state = .running ∨
      (m.thread p).state = .sysPending) :
    Waiting m' busy := by
  refine ⟨fun {p} hp => ?_, fun {p} hp => ?_, fun {p b b'} hb hb' hs hs' => ?_, fun {p} hp => ?_⟩
  · rw [hthread, hlists]
    exact h.waits hp
  · rw [hlists] at hp
    rw [hstate, hthread, h.pending hp]
    simp only [hblock]
  · rw [hthread] at hb hb'
    rw [hblock] at hs hs'
    exact h.one hb hb' hs hs'
  · rw [hstate]
    exact (hsignals p hp).elim h.signals id

section Steps

variable [DecidableEq V]

/-! ## Blocks are removed -/

/-- What is left of a list without some blocks. -/
def remaining (bs : List BlockPtr) (o : Option (List BlockPtr)) : Option (List BlockPtr) :=
  o.bind fun l => if l.filter (· ∉ bs) = [] then none else some (l.filter (· ∉ bs))

theorem remaining_some {bs l' : List BlockPtr} {o : Option (List BlockPtr)} (h : remaining bs o = some l') :
    ∃ l, o = some l ∧ l' = l.filter (· ∉ bs) ∧ l' ≠ [] := by
  obtain ⟨l, rfl, hl⟩ := Option.bind_eq_some_iff.mp h
  split at hl
  · cases hl
  · cases hl
    exact ⟨l, rfl, rfl, ‹_›⟩

theorem remaining_of_mem {bs l : List BlockPtr} (hb : b ∈ l) (hnot : b ∉ bs) :
    remaining bs (some l) = some (l.filter (· ∉ bs)) := by
  have hmem : b ∈ l.filter (· ∉ bs) := List.mem_filter.mpr ⟨hb, by simpa using hnot⟩
  rw [remaining, Option.bind_some, if_neg (List.ne_nil_of_mem hmem)]

theorem remaining_cons {bs l : List BlockPtr} (hl : l.Nodup) :
    remaining bs (if l.erase b = [] then none else some (l.erase b)) = remaining (b :: bs) (some l) := by
  have hfilter : (l.erase b).filter (· ∉ bs) = l.filter (· ∉ b :: bs) := by
    rw [hl.erase_eq_filter, List.filter_filter]
    refine List.filter_congr fun x _ => ?_
    by_cases hx : x = b <;> simp [hx]
  by_cases hnil : l.erase b = []
  · rw [if_pos hnil, remaining, remaining, Option.bind_some, ← hfilter, hnil]
    rfl
  · rw [if_neg hnil, remaining, remaining, Option.bind_some, Option.bind_some, hfilter]

theorem remaining_skip {bs : List BlockPtr} {o : Option (List BlockPtr)} (h : ∀ l, o = some l → b ∉ l) :
    remaining (b :: bs) o = remaining bs o := by
  cases o with
  | none => rfl
  | some l =>
    have hfilter : l.filter (· ∉ b :: bs) = l.filter (· ∉ bs) := by
      refine List.filter_congr fun x hx => ?_
      have hne : x ≠ b := fun he => h l rfl (he ▸ hx)
      simp [hne]
    rw [remaining, remaining, Option.bind_some, Option.bind_some, hfilter]

theorem removeBlocks_eq : ∀ (bs : List BlockPtr) {m : Machine V}, bs.Nodup →
    (∀ b ∈ bs, ∃ l, m.blocks (m.block b).block = some l ∧ b ∈ l) →
    (∀ v l, m.blocks v = some l → l ≠ [] ∧ l.Nodup ∧ ∀ b ∈ l, (m.block b).block = v) →
    bs.foldl Machine.removeBlock m = { m with blocks := fun v => remaining bs (m.blocks v) }
  | [], m, _, _, hlists => by
    have hsame : (fun v => remaining [] (m.blocks v)) = m.blocks := by
      funext v
      cases hv : m.blocks v with
      | none => rfl
      | some l =>
        have hfilter : l.filter (· ∉ ([] : List BlockPtr)) = l := List.filter_eq_self.mpr fun _ _ => by simp
        rw [remaining, Option.bind_some, hfilter, if_neg (hlists v l hv).1]
    rw [hsame]
    rfl
  | b :: bs, m, hnodup, hmem, hlists => by
    obtain ⟨hb, hbs⟩ := List.nodup_cons.mp hnodup
    obtain ⟨⟨l, hl, hbl⟩, hrest⟩ := List.forall_mem_cons.mp hmem
    obtain ⟨-, hlnodup, -⟩ := hlists _ l hl
    generalize hkey : (m.block b).block = v at hl
    have hstep : m.removeBlock b =
      { m with blocks := Function.update m.blocks v (if l.erase b = [] then none else some (l.erase b)) } := by
      simp only [Machine.removeBlock, hkey, hl]
    rw [List.foldl_cons, hstep, removeBlocks_eq bs hbs]
    · congr 1
      funext w
      show remaining bs (Function.update m.blocks v _ w) = _
      by_cases hw : w = v
      · rw [hw, Function.update_self, hl, remaining_cons hlnodup]
      · rw [Function.update_of_ne hw, remaining_skip]
        exact fun l' hl' hmem' => hw (((hlists w l' hl').2.2 b hmem').symm.trans hkey)
    · intro c hc
      obtain ⟨l', hl', hcl'⟩ := hrest c hc
      by_cases hw : (m.block c).block = v
      · rw [hw, hl] at hl'
        cases hl'
        have hne : c ≠ b := fun he => hb (he ▸ hc)
        have hmem' : c ∈ l.erase b := (List.mem_erase_of_ne hne).mpr hcl'
        refine ⟨l.erase b, ?_, hmem'⟩
        show Function.update m.blocks v _ (m.block c).block = _
        rw [hw, Function.update_self, if_neg (List.ne_nil_of_mem hmem')]
      · refine ⟨l', ?_, hcl'⟩
        show Function.update m.blocks v _ (m.block c).block = _
        rw [Function.update_of_ne hw, hl']
    · intro w l' hl'
      have hl' : Function.update m.blocks v (if l.erase b = [] then none else some (l.erase b)) w = some l' := hl'
      by_cases hw : w = v
      · rw [hw, Function.update_self] at hl'
        split at hl'
        · cases hl'
        · cases hl'
          obtain ⟨-, -, hkeys⟩ := hlists v l hl
          exact ⟨‹_›, hlnodup.erase b, fun c hc => hw ▸ hkeys c (List.mem_of_mem_erase hc)⟩
      · rw [Function.update_of_ne hw] at hl'
        exact hlists w l' hl'

/-- `Sys_RemoveBlocks`: the blocks of the thread are taken out of all lists. -/
theorem Linked.removed (h : Linked m) (p : ThreadPtr) : m.sysRemoveBlocks p =
    { m with blocks := fun v => remaining (m.thread p).blocks (m.blocks v) }.setThread p fun t =>
    { t with blocks := [] } := by
  rw [Machine.sysRemoveBlocks, removeBlocks_eq _ (h.nodup p) (fun b hb => (h.owner hb).2)]
  exact fun v l hl => ⟨h.nonempty hl, h.unique hl, fun b hb => (h.listed hl hb).1⟩

theorem Linked.removeBlocks (h : Linked m) (p : ThreadPtr) : Linked (m.sysRemoveBlocks p) := by
  rw [h.removed]
  have hgone : ∀ {c}, c ∈ (m.thread p).blocks ↔ (m.block c).thread = p ∧ c ∈ (m.thread (m.block c).thread).blocks := by
    intro c
    refine ⟨fun hc => ?_, fun ⟨ho, hc⟩ => ?_⟩
    · have ho := (h.owner hc).1
      exact ⟨ho, by rwa [ho]⟩
    · rwa [ho] at hc
  refine ⟨fun {p' b} hb => ?_, fun {v l'} hl' => ?_, fun {v l'} hl' => ?_, fun {v l' b} hl' hb => ?_, fun p' => ?_⟩
  · by_cases hp : p' = p
    · rw [hp, Machine.setThread_self] at hb
      exact absurd hb List.not_mem_nil
    · rw [Machine.setThread_of_ne hp] at hb
      obtain ⟨ho, l, hl, hbl⟩ := h.owner hb
      have hnot : b ∉ (m.thread p).blocks := fun hc => hp (ho.symm.trans (hgone.mp hc).1)
      have hmem : b ∈ l.filter (· ∉ (m.thread p).blocks) := List.mem_filter.mpr ⟨hbl, decide_eq_true hnot⟩
      refine ⟨ho, _, ?_, hmem⟩
      show remaining _ (m.blocks (m.block b).block) = _
      rw [hl, remaining_of_mem hbl hnot]
  · obtain ⟨l, hl, rfl, hne⟩ := remaining_some hl'
    exact hne
  · obtain ⟨l, hl, rfl, -⟩ := remaining_some hl'
    exact (h.unique hl).filter _
  · obtain ⟨l, hl, rfl, -⟩ := remaining_some hl'
    obtain ⟨hbl, hnot⟩ := List.mem_filter.mp hb
    obtain ⟨hkey, hown, hnew⟩ := h.listed hl hbl
    refine ⟨hkey, ?_, hnew⟩
    have hne : (m.block b).thread ≠ p := fun he => of_decide_eq_true hnot (hgone.mpr ⟨he, hown⟩)
    show b ∈ (Machine.thread (Machine.setThread _ p _) (m.block b).thread).blocks
    rw [Machine.setThread_of_ne hne]
    exact hown
  · by_cases hp : p' = p
    · rw [hp, Machine.setThread_self]
      exact List.nodup_nil
    · rw [Machine.setThread_of_ne hp]
      exact h.nodup p'

/-! ## A thread leaves its list -/

omit [DecidableEq V] in
theorem getNext_mem {l : List ThreadPtr} (hl : l.Nodup) (h : Machine.getNext p l = some p') : p' ∈ l ∧ p' ≠ p := by
  have hsub : ((l.dropWhile (· ≠ p)).drop 1).Sublist (l.dropWhile (· ≠ p)) := List.drop_sublist _ _
  have hmem : p' ∈ (l.dropWhile (· ≠ p)).drop 1 := List.mem_of_mem_head? (by rw [Machine.getNext] at h; exact h)
  refine ⟨(List.dropWhile_sublist _).subset (hsub.subset hmem), ?_⟩
  rintro rfl
  cases hd : l.dropWhile (· ≠ p') with
  | nil =>
    rw [hd] at hmem
    exact absurd hmem List.not_mem_nil
  | cons x xs =>
    rw [hd] at hmem
    have hx : x = p' := by
      have hhead := List.head?_dropWhile_not (· ≠ p') l
      rw [hd] at hhead
      simpa using hhead
    have hnodup : (x :: xs).Nodup := by
      rw [← hd]
      exact (List.dropWhile_sublist _).nodup hl
    exact (List.nodup_cons.mp hnodup).1 (hx ▸ hmem)

omit [DecidableEq V] in
theorem mem_running_of_rest (h : p ∈ m.rest) : p ∈ m.lists .running := by
  unfold Machine.rest at h
  split at h
  · exact (List.dropWhile_sublist _).subset h
  · exact absurd h List.not_mem_nil

theorem dropWhile_append {l : List ThreadPtr} {n : ThreadPtr} (h : p ∈ l.dropWhile (· ≠ n)) (l' : List ThreadPtr) :
    p ∈ (l ++ l').dropWhile (· ≠ n) := by
  induction l with
  | nil => exact absurd h List.not_mem_nil
  | cons a l ih =>
    by_cases ha : a = n
    · subst ha
      simp only [List.cons_append, ne_eq, not_true_eq_false, decide_false, Bool.false_eq_true,
        not_false_eq_true, List.dropWhile_cons_of_neg] at h ⊢
      rcases List.mem_cons.mp h with rfl | h
      · exact List.mem_cons_self
      · exact List.mem_cons_of_mem _ (List.mem_append_left _ h)
    · rw [List.cons_append, List.dropWhile_cons_of_pos (by simpa using ha)]
      rw [List.dropWhile_cons_of_pos (by simpa using ha)] at h
      exact ih h

/-- Another thread leaves the list. -/
theorem dropWhile_erase {l : List ThreadPtr} {n : ThreadPtr} (h : p ∈ l.dropWhile (· ≠ n)) (hne : p ≠ p')
    (hn : n ≠ p') :
    p ∈ (l.erase p').dropWhile (· ≠ n) := by
  induction l with
  | nil => exact absurd h List.not_mem_nil
  | cons a l ih =>
    by_cases ha : a = n
    · subst ha
      rw [List.dropWhile_cons_of_neg (by simp)] at h
      rw [List.erase_cons_tail (by simpa using hn), List.dropWhile_cons_of_neg (by simp)]
      rcases List.mem_cons.mp h with rfl | h
      · exact List.mem_cons_self
      · exact List.mem_cons_of_mem _ ((List.mem_erase_of_ne hne).mpr h)
    · rw [List.dropWhile_cons_of_pos (by simpa using ha)] at h
      by_cases hp : a = p'
      · rwa [hp, List.erase_cons_head]
      · rw [List.erase_cons_tail (by simpa using hp), List.dropWhile_cons_of_pos (by simpa using ha)]
        exact ih h

/-- The cycle goes on to the next thread, whether this one leaves the list or not. -/
theorem dropWhile_getNext {l : List ThreadPtr} {n : ThreadPtr} (hl : l.Nodup) (h : p ∈ l.dropWhile (· ≠ n))
    (hne : p ≠ n) :
    ∃ n', Machine.getNext n l = some n' ∧ p ∈ l.dropWhile (· ≠ n') ∧ p ∈ (l.erase n).dropWhile (· ≠ n') := by
  induction l with
  | nil => exact absurd h List.not_mem_nil
  | cons a l ih =>
    obtain ⟨hnot, hl⟩ := List.nodup_cons.mp hl
    by_cases ha : a = n
    · subst ha
      rw [List.dropWhile_cons_of_neg (by simp)] at h
      cases l with
      | nil => exact absurd (List.mem_singleton.mp h) hne
      | cons b l =>
        have hb : a ≠ b := fun heq => hnot (heq ▸ List.mem_cons_self)
        refine ⟨b, ?_, ?_, ?_⟩
        · rw [Machine.getNext, List.dropWhile_cons_of_neg (by simp)]
          rfl
        · rw [List.dropWhile_cons_of_pos (by simpa using hb), List.dropWhile_cons_of_neg (by simp)]
          exact (List.mem_cons.mp h).resolve_left hne
        · rw [List.erase_cons_head, List.dropWhile_cons_of_neg (by simp)]
          exact (List.mem_cons.mp h).resolve_left hne
    · rw [List.dropWhile_cons_of_pos (by simpa using ha)] at h
      obtain ⟨n', hnext, hmem, hmem'⟩ := ih hl h
      have hn' : a ≠ n' := fun heq => hnot (heq ▸ (getNext_mem hl hnext).1)
      refine ⟨n', ?_, ?_, ?_⟩
      · rw [Machine.getNext, List.dropWhile_cons_of_pos (by simpa using ha)]
        exact hnext
      · rwa [List.dropWhile_cons_of_pos (by simpa using hn')]
      · rwa [List.erase_cons_tail (by simpa using ha), List.dropWhile_cons_of_pos (by simpa using hn')]

/-- A thread that has left its list. -/
def Thread.left (t : Thread V) : Thread V :=
  { t with
    signals := if t.state = .running then [] else t.signals
    blocks := if t.state.list = .blocked then [] else t.blocks }

/-- What it is to leave a list. -/
structure Left (m : Machine V) (p : ThreadPtr) (m' : Machine V) : Prop where
  lists : m'.lists = Function.update m.lists (m.thread p).state.list ((m.lists (m.thread p).state.list).erase p)
  threads : m'.threads = m.threads
  newThread : m'.newThread = m.newThread
  threadId : m'.threadId = m.threadId
  time : m'.time = m.time
  executing : m'.executing = m.executing
  valid : m'.nextThreadValid = m.nextThreadValid
  block : m'.block = m.block
  next : m'.nextThread = if (m.thread p).state = .running ∧ m.nextThread =
    some p then Machine.getNext p (m.lists .running) else m.nextThread
  thread : m'.thread = Function.update m.thread p (m.thread p).left
  linked : Linked m'

omit [DecidableEq V] in
theorem Linked.leavePlain (h : Linked m) (hblocked : (m.thread p).state.list ≠ .blocked)
    (hrunning : (m.thread p).state ≠ .running) :
    Left m p (m.setList (m.thread p).state.list (·.erase p)) where
  lists := rfl
  threads := rfl
  newThread := rfl
  threadId := rfl
  time := rfl
  executing := rfl
  valid := rfl
  block := rfl
  next := (if_neg fun hand => hrunning hand.1).symm
  thread := by
    rw [Thread.left, if_neg hrunning, if_neg hblocked]
    exact (Function.update_eq_self p m.thread).symm
  linked := h.congr rfl rfl (fun _ => rfl) (fun _ => rfl) fun _ => rfl

theorem Linked.leaveBlocked (h : Linked m) (hblocked : (m.thread p).state.list = .blocked)
    (hrunning : (m.thread p).state ≠ .running) :
    Left m p ((m.sysRemoveBlocks p).setList (m.thread p).state.list (·.erase p)) := by
  have hlinked := h.removeBlocks p
  rw [h.removed] at hlinked ⊢
  refine ⟨rfl, rfl, rfl, rfl, rfl, rfl, rfl, rfl, (if_neg fun hand => hrunning hand.1).symm, ?_, ?_⟩
  · rw [Thread.left, if_neg hrunning, if_pos hblocked]
    rfl
  · exact hlinked.congr rfl rfl (fun _ => rfl) (fun _ => rfl) fun _ => rfl

theorem Linked.leaveRunning (h : Linked m) (hrunning : (m.thread p).state = .running) : Left m p (m.leave p) := by
  have hlist : (m.thread p).state.list = .running := by
    rw [hrunning]
    rfl
  have hleave : m.leave p = { m.sysRemoveSignals p with
      nextThread := if m.nextThread = some p then Machine.getNext p (m.lists .running)
        else m.nextThread }.setList .running (·.erase p) := by
    unfold Machine.leave
    rw [hrunning]
  rw [hleave]
  refine ⟨?_, rfl, rfl, rfl, rfl, rfl, rfl, rfl, ?_, ?_, ?_⟩
  · rw [hlist]
    rfl
  · simp only [hrunning, true_and]
    rfl
  · have hblocked : (m.thread p).state.list ≠ .blocked := by
      rw [hlist]
      decide
    rw [Thread.left, if_pos hrunning, if_neg hblocked]
    rfl
  · have hblocks := Machine.setThread_field (m := m) (p := p) (f := fun t => { t with signals := [] }) Thread.blocks rfl
    exact h.congr rfl rfl hblocks (fun _ => rfl) fun _ => rfl

theorem Linked.leave (h : Linked m) (p : ThreadPtr) : Left m p (m.leave p) := by
  cases hstate : (m.thread p).state with
  | running => exact h.leaveRunning hstate
  | sleeping =>
    have hleft := h.leavePlain (p := p) (by rw [hstate]; decide) (by rw [hstate]; decide)
    rw [hstate] at hleft
    rwa [Machine.leave, hstate]
  | killed =>
    have hleft := h.leavePlain (p := p) (by rw [hstate]; decide) (by rw [hstate]; decide)
    rw [hstate] at hleft
    rwa [Machine.leave, hstate]
  | exception =>
    have hleft := h.leavePlain (p := p) (by rw [hstate]; decide) (by rw [hstate]; decide)
    rw [hstate] at hleft
    rwa [Machine.leave, hstate]
  | blocked =>
    have hleft := h.leaveBlocked (p := p) (by rw [hstate]; rfl) (by rw [hstate]; decide)
    rw [hstate] at hleft
    rwa [Machine.leave, hstate]
  | sysPending =>
    have hleft := h.leaveBlocked (p := p) (by rw [hstate]; rfl) (by rw [hstate]; decide)
    rw [hstate] at hleft
    rwa [Machine.leave, hstate]

namespace Left

omit [DecidableEq V] in
theorem other (h : Left m p m') (hp : p' ≠ p) : m'.thread p' = m.thread p' := by rw [h.thread, Function.update_of_ne hp]

omit [DecidableEq V] in
theorem self (h : Left m p m') : m'.thread p = (m.thread p).left := by rw [h.thread, Function.update_self]

omit [DecidableEq V] in
/-- What leaving a list does not change of a thread. -/
theorem field {α : Type} (h : Left m p m') (f : Thread V → α) (hf : ∀ t : Thread V, f t.left = f t) (p' : ThreadPtr) :
    f (m'.thread p') = f (m.thread p') := by
  by_cases hp : p' = p
  · rw [hp, h.self, hf]
  · rw [h.other hp]

omit [DecidableEq V] in
theorem sublist (h : Left m p m') (q : ThreadList) : (m'.lists q).Sublist (m.lists q) := by
  rw [h.lists]
  by_cases hq : q = (m.thread p).state.list
  · rw [hq, Function.update_self]
    exact List.erase_sublist
  · rw [Function.update_of_ne hq]

omit [DecidableEq V] in
theorem mem (h : Left m p m') (hm : Placed m loose) : p' ∈ m'.lists q ↔ p' ≠ p ∧ p' ∈ m.lists q := by
  rw [h.lists]
  by_cases hq : q = (m.thread p).state.list
  · rw [hq, Function.update_self, (hm.nodup _).mem_erase_iff]
  · rw [Function.update_of_ne hq]
    refine ⟨fun hp => ⟨?_, hp⟩, And.right⟩
    rintro rfl
    exact hq (hm.place hp).symm

omit [DecidableEq V] in
/-- The thread is in no list then. -/
theorem placed (h : Left m p m') (hm : Placed m none) (hp : p ∈ m.threads) : Placed m' (some p) := by
  have hin : ∃ q, p ∈ m.lists q := by
    rcases (hm.live p).mp hp with hnone | ⟨q, -, hq⟩
    · cases hnone
    · exact ⟨q, hq⟩
  have hids := h.field Thread.id fun _ => rfl
  refine ⟨fun {q p'} hp' => ?_, fun {q p'} hp' => ?_, fun q => ?_, fun p' => ?_, ?_, fun {p'} hp' => ?_,
    fun {p'} hp' => ?_,
    fun {p₁ p₂} h₁ h₂ => ?_, ?_, fun {p'} hp' => ?_⟩
  · rw [h.field Thread.state fun _ => rfl]
    exact hm.place ((h.mem hm).mp hp').2
  · cases hp'
    exact fun hmem => ((h.mem hm).mp hmem).1 rfl
  · exact (h.sublist q).nodup (hm.nodup q)
  · rw [h.threads, hm.live]
    simp only [h.mem hm]
    by_cases heq : p' = p
    · subst heq
      obtain ⟨q, hq⟩ := (hm.live p').mp hp |>.resolve_left (by simp)
      exact ⟨fun _ => .inl rfl, fun _ => .inr ⟨q, hq⟩⟩
    · simp [heq, Ne.symm heq]
  · rw [h.threads]
    exact hm.threads
  · rw [h.newThread]
    rcases hp' with hloose | ⟨q, hq⟩
    · cases hloose
      exact hm.allocated (.inr hin)
    · exact hm.allocated (.inr ⟨q, ((h.mem hm).mp hq).2⟩)
  · rw [h.threads] at hp'
    rw [hids, h.threadId]
    exact hm.ids hp'
  · rw [h.threads] at h₁ h₂
    rw [hids, hids]
    exact hm.distinct h₁ h₂
  · refine (hm.sorted.sublist (h.sublist .sleeping)).imp fun {p₁ p₂} hle => ?_
    rw [h.field Thread.timeStamp fun _ => rfl, h.field Thread.timeStamp fun _ => rfl]
    exact hle
  · rw [h.next] at hp'
    rw [h.mem hm]
    split at hp'
    · exact (getNext_mem (hm.nodup _) hp').symm
    · rename_i hnot
      refine ⟨?_, hm.next hp'⟩
      rintro rfl
      have hplace := hm.place (hm.next hp')
      have hrunning : (m.thread p').state = .running := by
        revert hplace
        cases (m.thread p').state <;> simp [State.list]
      exact hnot ⟨hrunning, hp'⟩

end Left

/-! ## A thread comes into a list -/

omit [DecidableEq V] in
theorem insertSleeping_perm (m : Machine V) (p : ThreadPtr) : ∀ l : List ThreadPtr, (m.insertSleeping p l).Perm (p :: l)
  | [] => .refl _
  | it :: l => by
    rw [Machine.insertSleeping]
    split
    · exact .refl _
    · exact ((insertSleeping_perm m p l).cons it).trans (.swap p it l)

omit [DecidableEq V] in
theorem insertSleeping_sorted (m : Machine V) (p : ThreadPtr) : ∀ {l : List ThreadPtr},
    (l.Pairwise fun p p' => (m.thread p).timeStamp ≤ (m.thread p').timeStamp) →
      (m.insertSleeping p l).Pairwise fun p p' => (m.thread p).timeStamp ≤ (m.thread p').timeStamp
  | [], _ => List.pairwise_singleton _ _
  | it :: l, h => by
    obtain ⟨hit, hl⟩ := List.pairwise_cons.mp h
    rw [Machine.insertSleeping]
    split
    · rename_i hlt
      refine List.pairwise_cons.mpr ⟨fun x hx => ?_, h⟩
      have hle : (m.thread p).timeStamp ≤ (m.thread it).timeStamp := UInt32.le_of_lt hlt
      rcases List.mem_cons.mp hx with rfl | hx
      · exact hle
      · exact UInt32.le_trans hle (hit x hx)
    · rename_i hle
      refine List.pairwise_cons.mpr ⟨fun x hx => ?_, insertSleeping_sorted m p hl⟩
      rcases List.mem_cons.mp ((insertSleeping_perm m p l).mem_iff.mp hx) with rfl | hx
      · exact UInt32.not_lt.mp hle
      · exact hit x hx

/-- A thread is put into a list, which is `l` then. -/
def Machine.put (m : Machine V) (p : ThreadPtr) (q : ThreadList) (l : List ThreadPtr) : Machine V :=
  (m.setList q fun _ => l).setThread p fun t => { t with state := q.state }

omit [DecidableEq V] in
theorem put_field {α : Type} {l : List ThreadPtr} (f : Thread V → α)
    (hf : f { m.thread p with state := q.state } = f (m.thread p))
    (p' : ThreadPtr) : f ((m.put p q l).thread p') = f (m.thread p') :=
  Machine.setThread_field (m := m.setList q fun _ => l) f hf p'

omit [DecidableEq V] in
theorem put_list {l : List ThreadPtr} : (m.put p q l).lists q' = if q' = q then l else m.lists q' := by
  by_cases hq : q' = q
  · rw [if_pos hq, hq]
    exact Function.update_self ..
  · rw [if_neg hq]
    exact Function.update_of_ne hq ..

omit [DecidableEq V] in
theorem put_mem {l : List ThreadPtr} (hl : l.Perm (p :: m.lists q)) : p' ∈ (m.put p q l).lists q' ↔
    q' = q ∧ p' = p ∨ p' ∈ m.lists q' := by
  show p' ∈ (m.setList q fun _ => l).lists q' ↔ _
  rw [Machine.mem_setList]
  by_cases hq : q' = q
  · rw [if_pos hq, hl.mem_iff, List.mem_cons, hq]
    simp
  · rw [if_neg hq]
    simp [hq]

omit [DecidableEq V] in
theorem Placed.put {l : List ThreadPtr} (hm : Placed m (some p)) (hq : q ≠ .killed) (hl : l.Perm (p :: m.lists q))
    (hsorted : q = .sleeping → l.Pairwise fun p p' => (m.thread p).timeStamp ≤ (m.thread p').timeStamp) :
    Placed (m.put p q l) none := by
  have hother : ∀ p', p' ≠ p → (m.put p q l).thread p' = m.thread p' := fun p' hp => Machine.setThread_of_ne hp
  have hself : (m.put p q l).thread p = { m.thread p with state := q.state } := Machine.setThread_self
  have hids : ∀ p', ((m.put p q l).thread p').id = (m.thread p').id := put_field Thread.id rfl
  have hstamps : ∀ p', ((m.put p q l).thread p').timeStamp = (m.thread p').timeStamp := put_field Thread.timeStamp rfl
  have hthreads : p ∈ m.threads := (hm.live p).mpr (.inl rfl)
  refine ⟨fun {q' p'} hp' => ?_, fun {q' p'} hp' => ?_, fun q' => ?_, fun p' => ?_, hm.threads,
    fun {p'} hp' => ?_, fun {p'} hp' => ?_,
    fun {p₁ p₂} h₁ h₂ => ?_, ?_, fun {p'} hp' => ?_⟩
  · rcases (put_mem hl).mp hp' with ⟨rfl, rfl⟩ | hp'
    · rw [hself]
      exact q'.state_list
    · rw [hother p' fun heq => hm.apart rfl (heq ▸ hp')]
      exact hm.place hp'
  · cases hp'
  · rw [put_list]
    split
    · rw [hl.nodup_iff, List.nodup_cons]
      exact ⟨hm.apart rfl, hm.nodup q⟩
    · exact hm.nodup q'
  · show p' ∈ m.threads ↔ _
    rw [hm.live]
    simp only [put_mem hl, reduceCtorEq, false_or]
    constructor
    · rintro (heq | ⟨q', hq', hmem⟩)
      · cases heq
        exact ⟨q, hq, .inl ⟨rfl, rfl⟩⟩
      · exact ⟨q', hq', .inr hmem⟩
    · rintro ⟨q', hq', ⟨-, rfl⟩ | hmem⟩
      · exact .inl rfl
      · exact .inr ⟨q', hq', hmem⟩
  · show p' < m.newThread
    rcases hp' with hnone | ⟨q', hmem⟩
    · cases hnone
    · rcases (put_mem hl).mp hmem with ⟨-, rfl⟩ | hmem
      · exact hm.allocated (.inl rfl)
      · exact hm.allocated (.inr ⟨q', hmem⟩)
  · rw [hids]
    exact hm.ids hp'
  · rw [hids, hids]
    exact hm.distinct h₁ h₂
  · rw [put_list]
    split
    · refine (hsorted (Eq.symm ‹_›)).imp fun {p₁ p₂} hle => ?_
      rw [hstamps, hstamps]
      exact hle
    · refine hm.sorted.imp fun {p₁ p₂} hle => ?_
      rw [hstamps, hstamps]
      exact hle
  · exact (put_mem hl).mpr (.inr (hm.next hp'))

omit [DecidableEq V] in
theorem Linked.put {l : List ThreadPtr} (h : Linked m) : Linked (m.put p q l) :=
  h.congr rfl rfl (put_field Thread.blocks rfl) (fun _ => rfl) fun _ => rfl

/-! ## The blocks of the threads -/

omit [DecidableEq V] in
theorem Waiting.left (h : Waiting m busy) (hm : Placed m loose) (hleft : Left m p m') : Waiting m' busy := by
  have hstate := hleft.field Thread.state fun _ => rfl
  have hsub : ∀ {p' b}, b ∈ (m'.thread p').blocks → b ∈ (m.thread p').blocks := by
    intro p' b hb
    by_cases hp : p' = p
    · rw [hp, hleft.self, Thread.left] at hb
      rw [hp]
      dsimp only at hb
      split at hb
      · exact absurd hb List.not_mem_nil
      · exact hb
    · rwa [hleft.other hp] at hb
  refine ⟨fun {p'} hbusy => ?_, fun {p'} hp' => ?_, fun {p' b b'} hb hb' hs hs' => ?_, fun {p'} hp' => ?_⟩
  · rw [hleft.mem hm]
    by_cases hp : p' = p
    · subst hp
      have hnot : ¬(p' ≠ p' ∧ p' ∈ m.lists .blocked) := fun hand => hand.1 rfl
      rw [iff_false_intro hnot, iff_false, not_not, hleft.self, Thread.left]
      dsimp only
      split
      · rfl
      · rename_i hlist
        by_contra hne
        exact hlist (hm.place ((h.waits hbusy).mp hne))
    · rw [hleft.other hp, h.waits hbusy]
      exact ⟨fun hmem => ⟨hp, hmem⟩, And.right⟩
  · obtain ⟨hp, hmem⟩ := (hleft.mem hm).mp hp'
    rw [hleft.other hp, hleft.block]
    exact h.pending hmem
  · rw [hleft.block] at hs hs'
    exact h.one (hsub hb) (hsub hb') hs hs'
  · rw [hstate]
    refine h.signals fun hnil => hp' ?_
    by_cases hp : p' = p
    · rw [hp] at hnil
      rw [hp, hleft.self, Thread.left]
      dsimp only
      split
      · rfl
      · exact hnil
    · rw [hleft.other hp, hnil]

omit [DecidableEq V] in
/-- A thread without blocks comes into a list. -/
theorem Waiting.put {l : List ThreadPtr} (h : Waiting m none) (hm : Placed m (some p)) (hl : l.Perm (p :: m.lists q))
    (hq : q ≠ .blocked)
    (hsignals : q ≠ .running → (m.thread p).signals = []) : Waiting (m.put p q l) none := by
  have hother : ∀ p', p' ≠ p → (m.put p q l).thread p' = m.thread p' := fun p' hp => Machine.setThread_of_ne hp
  have hself : (m.put p q l).thread p = { m.thread p with state := q.state } := Machine.setThread_self
  have hblocks : ∀ p', ((m.put p q l).thread p').blocks = (m.thread p').blocks := put_field Thread.blocks rfl
  have hmem : ∀ {p'}, p' ∈ (m.put p q l).lists .blocked ↔ p' ∈ m.lists .blocked := by
    intro p'
    rw [put_mem hl]
    simp [Ne.symm hq]
  refine ⟨fun {p'} hbusy => ?_, fun {p'} hp' => ?_, fun {p' b b'} hb hb' hs hs' => ?_, fun {p'} hp' => ?_⟩
  · rw [hblocks, hmem]
    exact h.waits hbusy
  · have hp := hmem.mp hp'
    rw [hother p' fun heq => hm.apart rfl (heq ▸ hp)]
    exact h.pending hp
  · rw [hblocks] at hb hb'
    exact h.one hb hb' hs hs'
  · by_cases hp : p' = p
    · rw [hp, hself] at hp'
      rw [hp, hself]
      by_cases hrunning : q = .running
      · exact .inl (congrArg ThreadList.state hrunning)
      · exact absurd (hsignals hrunning) hp'
    · rw [hother p' hp] at hp' ⊢
      exact h.signals hp'

omit [DecidableEq V] in
/-- A thread with blocks that are not signalled becomes blocked. -/
theorem Waiting.putBlocked {l : List ThreadPtr} (h : Waiting m (some p)) (hl : l.Perm (p :: m.lists .blocked))
    (hblocks : (m.thread p).blocks ≠ []) (hquiet : ∀ b ∈ (m.thread p).blocks, (m.block b).signalled = false)
    (hsignals : (m.thread p).signals = []) : Waiting (m.put p .blocked l) none := by
  have hother : ∀ p', p' ≠ p → (m.put p .blocked l).thread p' = m.thread p' := fun p' hp => Machine.setThread_of_ne hp
  have hself : (m.put p .blocked l).thread p = { m.thread p with state := .blocked } := Machine.setThread_self
  have hsame : ∀ p', ((m.put p .blocked l).thread p').blocks = (m.thread p').blocks := put_field Thread.blocks rfl
  refine ⟨fun {p'} _ => ?_, fun {p'} hp' => ?_, fun {p' b b'} hb hb' hs hs' => ?_, fun {p'} hp' => ?_⟩
  · rw [hsame, put_mem hl]
    by_cases hp : p' = p
    · simp [hp, hblocks]
    · rw [h.waits fun heq => hp (Option.some.inj heq).symm]
      simp [hp]
  · by_cases hp : p' = p
    · rw [hp, hself]
      refine ⟨fun hstate => (by cases hstate), ?_⟩
      rintro ⟨b, hb, hs⟩
      exact absurd ((hquiet b hb).symm.trans hs) (by decide)
    · rw [hother p' hp]
      exact h.pending (((put_mem hl).mp hp').resolve_left fun hand => hp hand.2)
  · rw [hsame] at hb hb'
    exact h.one hb hb' hs hs'
  · by_cases hp : p' = p
    · rw [hp, hself] at hp'
      exact absurd hsignals hp'
    · rw [hother p' hp] at hp' ⊢
      exact h.signals hp'

/-! ## A thread waits -/

/-- What it is for a thread to wait on more blocks. -/
structure Added (m : Machine V) (p : ThreadPtr) (m' : Machine V) : Prop where
  lists : m'.lists = m.lists
  threads : m'.threads = m.threads
  newThread : m'.newThread = m.newThread
  threadId : m'.threadId = m.threadId
  time : m'.time = m.time
  executing : m'.executing = m.executing
  valid : m'.nextThreadValid = m.nextThreadValid
  next : m'.nextThread = m.nextThread
  newBlock : m.newBlock ≤ m'.newBlock
  block : ∀ b, b < m.newBlock → m'.block b = m.block b
  other : ∀ p', p' ≠ p → m'.thread p' = m.thread p'
  self : m'.thread p = { m.thread p with blocks := (m'.thread p).blocks }
  blocks : ∀ b ∈ (m'.thread p).blocks, b ∈ (m.thread p).blocks ∨ (m'.block b).signalled = false
  linked : Linked m'

theorem Linked.addBlock (h : Linked m) (p : ThreadPtr) (v : V) : Linked (m.addBlock p v) := by
  have hold : ∀ {b}, b < m.newBlock → (m.addBlock p v).block b = m.block b :=
    fun hb => Function.update_of_ne (Nat.ne_of_lt hb) ..
  have hnew : (m.addBlock p v).block m.newBlock =
    { signalled := false, srcThreadId := none, block := v, thread := p } :=
    Function.update_self ..
  have hself : (m.addBlock p v).thread p = { m.thread p with blocks := m.newBlock :: (m.thread p).blocks } :=
    Machine.setThread_self
  have hother : ∀ {p'}, p' ≠ p → (m.addBlock p v).thread p' = m.thread p' := fun hp => Machine.setThread_of_ne hp
  have hfirst : (m.addBlock p v).blocks v = some (m.newBlock :: (m.blocks v).getD []) := Function.update_self ..
  have hrest : ∀ {w}, w ≠ v → (m.addBlock p v).blocks w = m.blocks w := fun hw => Function.update_of_ne hw ..
  have hget : ∀ {c}, c ∈ (m.blocks v).getD [] → ∃ l, m.blocks v = some l ∧ c ∈ l := by
    intro c hc
    cases hl : m.blocks v with
    | none =>
      rw [hl] at hc
      exact absurd hc List.not_mem_nil
    | some l =>
      rw [hl] at hc
      exact ⟨l, rfl, hc⟩
  have hlt : ∀ {p' c}, c ∈ (m.thread p').blocks → c < m.newBlock := by
    intro p' c hc
    obtain ⟨-, l, hl, hmem⟩ := h.owner hc
    exact (h.listed hl hmem).2.2
  have hkept : ∀ {p' c}, c ∈ (m.thread p').blocks → c ∈ ((m.addBlock p v).thread p').blocks := by
    intro p' c hc
    by_cases hp : p' = p
    · subst hp
      rw [hself]
      exact List.mem_cons_of_mem _ hc
    · rwa [hother hp]
  have hlisted : ∀ {p' c}, c ∈ (m.thread p').blocks → ((m.addBlock p v).block c).thread = p' ∧
      ∃ l, (m.addBlock p v).blocks ((m.addBlock p v).block c).block = some l ∧ c ∈ l := by
    intro p' c hc
    rw [hold (hlt hc)]
    obtain ⟨ho, l, hl, hmem⟩ := h.owner hc
    refine ⟨ho, ?_⟩
    by_cases hv : (m.block c).block = v
    · rw [hv] at hl ⊢
      refine ⟨_, hfirst, List.mem_cons_of_mem _ ?_⟩
      rwa [hl]
    · rw [hrest hv]
      exact ⟨l, hl, hmem⟩
  refine ⟨fun {p' b} hb => ?_, fun {w l} hl => ?_, fun {w l} hl => ?_, fun {w l b} hl hb => ?_, fun p' => ?_⟩
  · by_cases hp : p' = p
    · subst hp
      rw [hself] at hb
      rcases List.mem_cons.mp hb with rfl | hb
      · rw [hnew]
        exact ⟨rfl, _, hfirst, List.mem_cons_self⟩
      · exact hlisted hb
    · rw [hother hp] at hb
      exact hlisted hb
  · by_cases hw : w = v
    · rw [hw, hfirst] at hl
      cases hl
      exact List.cons_ne_nil _ _
    · rw [hrest hw] at hl
      exact h.nonempty hl
  · by_cases hw : w = v
    · rw [hw, hfirst] at hl
      cases hl
      refine List.nodup_cons.mpr ⟨fun hmem => ?_, ?_⟩
      · obtain ⟨l, hl, hc⟩ := hget hmem
        exact absurd (h.listed hl hc).2.2 (Nat.lt_irrefl _)
      · cases hl : m.blocks v with
        | none => exact List.nodup_nil
        | some l => exact h.unique hl
    · rw [hrest hw] at hl
      exact h.unique hl
  · have hcase : w = v ∧ b = m.newBlock ∨ ∃ l, m.blocks w = some l ∧ b ∈ l := by
      by_cases hw : w = v
      · rw [hw, hfirst] at hl
        cases hl
        rw [hw]
        exact (List.mem_cons.mp hb).imp (fun heq => ⟨rfl, heq⟩) hget
      · rw [hrest hw] at hl
        exact .inr ⟨l, hl, hb⟩
    rcases hcase with ⟨rfl, rfl⟩ | ⟨l, hl, hb⟩
    · rw [hnew]
      refine ⟨rfl, ?_, Nat.lt_succ_self _⟩
      show m.newBlock ∈ ((m.addBlock p w).thread p).blocks
      rw [hself]
      exact List.mem_cons_self
    · obtain ⟨hkey, hown, hbelow⟩ := h.listed hl hb
      rw [hold hbelow]
      exact ⟨hkey, hkept hown, Nat.lt_succ_of_lt hbelow⟩
  · by_cases hp : p' = p
    · rw [hp, hself]
      exact List.nodup_cons.mpr ⟨fun hmem => Nat.lt_irrefl _ (hlt hmem), h.nodup p⟩
    · rw [hother hp]
      exact h.nodup p'

theorem Added.add (h : Added m p m') (v : V) : Added m p (m'.addBlock p v) := by
  have hself : (m'.addBlock p v).thread p = { m'.thread p with blocks := m'.newBlock :: (m'.thread p).blocks } :=
    Machine.setThread_self
  refine ⟨h.lists, h.threads, h.newThread, h.threadId, h.time, h.executing, h.valid, h.next,
    Nat.le_succ_of_le h.newBlock,
    fun b hb => ?_, fun p' hp => ?_, ?_, fun b hb => ?_, h.linked.addBlock p v⟩
  · have hne : b ≠ m'.newBlock := Nat.ne_of_lt (Nat.lt_of_lt_of_le hb h.newBlock)
    exact (Function.update_of_ne hne ..).trans (h.block b hb)
  · exact (Machine.setThread_of_ne hp).trans (h.other p' hp)
  · rw [hself, h.self]
  · rw [hself] at hb
    rcases List.mem_cons.mp hb with rfl | hb
    · have hnew : (m'.addBlock p v).block m'.newBlock =
        { signalled := false, srcThreadId := none, block := v, thread := p } :=
        Function.update_self ..
      right
      rw [hnew]
    · obtain ⟨-, l, hl, hmem⟩ := h.linked.owner hb
      have hne : b ≠ m'.newBlock := Nat.ne_of_lt (h.linked.listed hl hmem).2.2
      have hold : (m'.addBlock p v).block b = m'.block b := Function.update_of_ne hne ..
      rw [hold]
      exact h.blocks b hb

theorem Added.addAll : ∀ (vs : List V) {m' : Machine V}, Added m p m' →
    Added m p (vs.foldl (fun m b => m.addBlock p b) m')
  | [], _, h => h
  | v :: vs, _, h => Added.addAll vs (h.add v)

/-! ## A thread is reset -/

/-- A thread that has been reset. -/
def Thread.reset (t : Thread V) (id : Nat) : Thread V :=
  { t with blocks := [], signals := [], result := none, timeStamp := 0, startTime := 0, id }

theorem Linked.sysReset_eq (h : Linked m) (p : ThreadPtr) (id : Nat) : m.sysReset p id =
    { m with blocks := fun v => remaining (m.thread p).blocks (m.blocks v) }.setThread p fun t => t.reset id := by
  rw [Machine.sysReset, Machine.sysRemoveSignals, h.removed, Machine.setThread_setThread, Machine.setThread_setThread]
  rfl

theorem Linked.reset (h : Linked m) (p : ThreadPtr) (id : Nat) : Linked (m.sysReset p id) := by
  have hremoved := h.removeBlocks p
  rw [h.removed] at hremoved
  rw [h.sysReset_eq]
  refine hremoved.congr rfl rfl (fun p' => ?_) (fun _ => rfl) fun _ => rfl
  by_cases hp : p' = p
  · rw [hp, Machine.setThread_self, Machine.setThread_self]
    rfl
  · rw [Machine.setThread_of_ne hp, Machine.setThread_of_ne hp]

/-- What it is to be killed, for a thread that is in no list. -/
structure Killed (m : Machine V) (p : ThreadPtr) (m' : Machine V) : Prop where
  threads : m'.threads = m.threads.erase p
  newThread : m'.newThread = m.newThread
  threadId : m'.threadId = m.threadId
  time : m'.time = m.time
  executing : m'.executing = m.executing
  valid : m'.nextThreadValid = m.nextThreadValid
  next : m'.nextThread = m.nextThread
  block : m'.block = m.block
  lists : ∀ q, q ≠ .killed → m'.lists q = m.lists q
  killed : m'.lists .killed = m.lists .killed ∨ m'.lists .killed = p :: m.lists .killed
  other : ∀ p', p' ≠ p → m'.thread p' = m.thread p'
  state : (m'.thread p).state = .killed
  blocks : (m'.thread p).blocks = []
  signals : (m'.thread p).signals = []
  linked : Linked m'

theorem Linked.kill (h : Linked m) (p : ThreadPtr) : Killed m p (m.kill p) := by
  generalize hbefore : { m.setThread p (fun t => { t with state := .killed }) with threads := m.threads.erase p } = before
  have hthread : before.thread = Function.update m.thread p { m.thread p with state := .killed } := by
    rw [← hbefore]
    rfl
  have hlinked : Linked before := by
    have hblocks := Machine.setThread_field (m := m) (p := p) (f := fun t => { t with state := .killed })
      Thread.blocks rfl
    rw [← hbefore]
    exact h.congr rfl rfl hblocks (fun _ => rfl) fun _ => rfl
  have hself : (before.sysReset p 0).thread p = { m.thread p with state := .killed }.reset 0 := by
    rw [hlinked.sysReset_eq, Machine.setThread_self, hthread, Function.update_self]
  have hreset : Killed m p (before.sysReset p 0) := by
    have hlinked' := hlinked.reset p 0
    have hother : ∀ p', p' ≠ p → (before.sysReset p 0).thread p' = m.thread p' := by
      intro p' hp
      rw [hlinked.sysReset_eq, Machine.setThread_of_ne hp, hthread, Function.update_of_ne hp]
    have heq := hlinked.sysReset_eq p 0
    rw [heq] at hself hlinked' hother ⊢
    have hstate := congrArg Thread.state hself
    have hblocks := congrArg Thread.blocks hself
    have hsignals := congrArg Thread.signals hself
    subst hbefore
    exact ⟨rfl, rfl, rfl, rfl, rfl, rfl, rfl, rfl, fun _ _ => rfl, .inl rfl, hother, hstate, hblocks,
      hsignals, hlinked'⟩
  have hkill : m.kill p = if ((before.sysReset p 0).lists .killed).length < gmMachineMaxKilledThreads
      then (before.sysReset p 0).setList .killed (p :: ·) else before.sysReset p 0 := by
    subst hbefore
    rfl
  rw [hkill]
  split
  · have hfirst : ((before.sysReset p 0).setList .killed (p :: ·)).lists .killed = p :: m.lists .killed := by
      rw [Machine.setList_self]
      subst hbefore
      rw [hlinked.sysReset_eq]
      rfl
    refine ⟨hreset.threads, hreset.newThread, hreset.threadId, hreset.time, hreset.executing,
      hreset.valid, hreset.next, hreset.block,
      fun q hq => ?_, .inr hfirst, hreset.other, hreset.state, hreset.blocks, hreset.signals, ?_⟩
    · rw [Machine.setList_of_ne hq]
      exact hreset.lists q hq
    · exact hreset.linked.congr rfl rfl (fun _ => rfl) (fun _ => rfl) fun _ => rfl
  · exact hreset

namespace Killed

omit [DecidableEq V]

theorem mem (h : Killed m p m') (hp : p' ∈ m'.lists q) : q = .killed ∧ p' = p ∨ p' ∈ m.lists q := by
  by_cases hq : q = .killed
  · subst hq
    rcases h.killed with hsame | hcons
    · rw [hsame] at hp
      exact .inr hp
    · rw [hcons] at hp
      exact (List.mem_cons.mp hp).imp_left fun heq => ⟨rfl, heq⟩
  · rw [h.lists q hq] at hp
    exact .inr hp

theorem placed (h : Killed m p m') (hm : Placed m (some p)) : Placed m' none := by
  have hthreads : ∀ {p'}, p' ∈ m'.threads ↔ p' ≠ p ∧ p' ∈ m.threads := by
    intro p'
    rw [h.threads, hm.threads.mem_erase_iff]
  refine ⟨fun {q p'} hp' => ?_, fun {q p'} hp' => ?_, fun q => ?_, fun p' => ?_, ?_, fun {p'} hp' => ?_,
    fun {p'} hp' => ?_,
    fun {p₁ p₂} h₁ h₂ => ?_, ?_, fun {p'} hp' => ?_⟩
  · rcases h.mem hp' with ⟨rfl, rfl⟩ | hp'
    · rw [h.state]
      rfl
    · rw [h.other p' fun heq => hm.apart rfl (heq ▸ hp')]
      exact hm.place hp'
  · cases hp'
  · by_cases hq : q = .killed
    · subst hq
      rcases h.killed with hsame | hcons
      · rw [hsame]
        exact hm.nodup _
      · rw [hcons]
        exact List.nodup_cons.mpr ⟨hm.apart rfl, hm.nodup _⟩
    · rw [h.lists q hq]
      exact hm.nodup q
  · rw [hthreads, hm.live]
    constructor
    · rintro ⟨hne, heq | ⟨q, hq, hmem⟩⟩
      · cases heq
        exact absurd rfl hne
      · exact .inr ⟨q, hq, by rwa [h.lists q hq]⟩
    · rintro (hnone | ⟨q, hq, hmem⟩)
      · cases hnone
      · rw [h.lists q hq] at hmem
        exact ⟨fun heq => hm.apart rfl (heq ▸ hmem), .inr ⟨q, hq, hmem⟩⟩
  · rw [h.threads]
    exact hm.threads.erase p
  · rw [h.newThread]
    rcases hp' with hnone | ⟨q, hmem⟩
    · cases hnone
    · rcases h.mem hmem with ⟨-, rfl⟩ | hmem
      · exact hm.allocated (.inl rfl)
      · exact hm.allocated (.inr ⟨q, hmem⟩)
  · obtain ⟨hne, hmem⟩ := hthreads.mp hp'
    rw [h.other p' hne, h.threadId]
    exact hm.ids hmem
  · obtain ⟨hne₁, hmem₁⟩ := hthreads.mp h₁
    obtain ⟨hne₂, hmem₂⟩ := hthreads.mp h₂
    rw [h.other _ hne₁, h.other _ hne₂]
    exact hm.distinct hmem₁ hmem₂
  · rw [h.lists _ (by decide)]
    refine hm.sorted.imp_of_mem fun {p₁ p₂} h₁ h₂ hle => ?_
    rw [h.other p₁ fun heq => hm.apart rfl (heq ▸ h₁), h.other p₂ fun heq => hm.apart rfl (heq ▸ h₂)]
    exact hle
  · rw [h.next] at hp'
    rw [h.lists _ (by decide)]
    exact hm.next hp'

theorem waiting (h : Killed m p m') (hm : Placed m (some p)) (hw : Waiting m none) : Waiting m' none := by
  have hblocked : m'.lists .blocked = m.lists .blocked := h.lists _ (by decide)
  have hsub : ∀ {p' b}, b ∈ (m'.thread p').blocks → b ∈ (m.thread p').blocks := by
    intro p' b hb
    by_cases hp : p' = p
    · rw [hp, h.blocks] at hb
      exact absurd hb List.not_mem_nil
    · rwa [h.other p' hp] at hb
  refine ⟨fun {p'} _ => ?_, fun {p'} hp' => ?_, fun {p' b b'} hb hb' hs hs' => ?_, fun {p'} hp' => ?_⟩
  · rw [hblocked]
    by_cases hp : p' = p
    · rw [hp, h.blocks]
      exact iff_of_false (fun hne => hne rfl) (hm.apart rfl)
    · rw [h.other p' hp]
      exact hw.waits nofun
  · rw [hblocked] at hp'
    rw [h.other p' fun heq => hm.apart rfl (heq ▸ hp'), h.block]
    exact hw.pending hp'
  · rw [h.block] at hs hs'
    exact hw.one (hsub hb) (hsub hb') hs hs'
  · by_cases hp : p' = p
    · rw [hp] at hp'
      exact absurd h.signals hp'
    · rw [h.other p' hp] at hp' ⊢
      exact hw.signals hp'

end Killed

/-! ## A thread changes its state -/

/-- What it is to change the list. -/
structure Switched (m : Machine V) (p : ThreadPtr) (q : ThreadList) (m' : Machine V) : Prop where
  steady : Steady m'
  executing : m'.executing = m.executing
  valid : m'.nextThreadValid = m.nextThreadValid
  time : m'.time = m.time
  threadId : m'.threadId = m.threadId
  newThread : m'.newThread = m.newThread
  block : m'.block = m.block
  next : m'.nextThread = if (m.thread p).state = .running ∧ m.nextThread =
    some p then Machine.getNext p (m.lists .running) else m.nextThread
  other : ∀ p', p' ≠ p → m'.thread p' = m.thread p'
  mem : ∀ p' q', p' ≠ p → (p' ∈ m'.lists q' ↔ p' ∈ m.lists q')
  running : m'.lists .running = (m.lists .running).erase p ++ if q = .running then [p] else []
  threads : ∀ p', p' ∈ m'.threads ↔ p' ∈ m.threads ∧ (q = .killed → p' ≠ p)
  moved : q ≠ .killed → (m'.thread p).state = q.state ∧ (m'.thread p).result = (m.thread p).result ∧
  (m'.thread p).id = (m.thread p).id

omit [DecidableEq V] in
theorem Left.running (h : Left m p m') (hm : Placed m loose) : m'.lists .running = (m.lists .running).erase p := by
  rw [h.lists]
  by_cases hq : .running = (m.thread p).state.list
  · rw [← hq, Function.update_self]
  · rw [Function.update_of_ne hq, List.erase_of_not_mem]
    exact fun hp => hq (hm.place hp).symm

omit [DecidableEq V] in
/-- A thread that is in no list is put into one. -/
theorem Left.switched {l : List ThreadPtr} (hleft : Left m p m') (h : Placed m none) (hp : p ∈ m.threads)
    (hl : l.Perm (p :: m'.lists q))
    (hq : q ≠ .killed) (hsorted : q = .sleeping →
      l.Pairwise fun p p' => (m'.thread p).timeStamp ≤ (m'.thread p').timeStamp)
    (hwaiting : Waiting (m'.put p q l) none) (hrunning : q = .running → l = m'.lists .running ++ [p]) :
      Switched m p q (m'.put p q l) := by
  have hplaced := hleft.placed h hp
  have hself : (m'.put p q l).thread p = { m'.thread p with state := q.state } := Machine.setThread_self
  refine ⟨⟨hplaced.put hq hl hsorted, hleft.linked.put, hwaiting⟩, hleft.executing, hleft.valid,
    hleft.time, hleft.threadId, hleft.newThread,
    hleft.block, hleft.next, fun p' hne => ?_, fun p' q' hne => ?_, ?_, fun p' => ?_, fun _ => ?_⟩
  · have hput : (m'.put p q l).thread p' = m'.thread p' := Machine.setThread_of_ne hne
    rw [hput, hleft.other hne]
  · rw [put_mem hl, hleft.mem h]
    simp [hne]
  · rw [← hleft.running h]
    by_cases hqr : q = .running
    · rw [if_pos hqr, ← hrunning hqr, hqr, put_list, if_pos rfl]
    · rw [if_neg hqr, List.append_nil, put_list, if_neg (Ne.symm hqr)]
  · show p' ∈ m'.threads ↔ _
    rw [hleft.threads]
    simp [hq]
  · rw [hself, hleft.self]
    exact ⟨rfl, rfl, rfl⟩

omit [DecidableEq V] in
/-- The cycle misses no other thread. -/
theorem Switched.rest (h : Switched m p q m') (hm : Placed m none) (hp' : p' ∈ m.rest) (hne : p' ≠ p) :
    p' ∈ m'.rest := by
  unfold Machine.rest at hp' ⊢
  cases hnext : m.nextThread with
  | none =>
    rw [hnext] at hp'
    exact absurd hp' List.not_mem_nil
  | some n =>
    rw [hnext] at hp'
    dsimp only at hp'
    by_cases hn : n = p
    · subst hn
      have hplace := hm.place (hm.next hnext)
      have hstate : (m.thread n).state = .running := by
        revert hplace
        cases (m.thread n).state <;> simp [State.list]
      obtain ⟨n', hget, -, hmem⟩ := dropWhile_getNext (hm.nodup _) hp' hne
      rw [h.next, if_pos ⟨hstate, hnext⟩, hget, h.running]
      exact dropWhile_append hmem _
    · have hsame : m'.nextThread = some n := by
        rw [h.next, hnext, if_neg]
        exact fun hand => hn (Option.some.inj hand.2)
      rw [hsame, h.running]
      exact dropWhile_append (dropWhile_erase hp' hne hn) _

/-- A thread without blocks afterwards. -/
theorem Steady.switch (h : Steady m) (hp : p ∈ m.threads) (hne : (m.thread p).state ≠ q.state) (hq : q ≠ .blocked)
    (hfrom : q = .running ∨ q = .killed ∨ (m.thread p).state = .running) : Switched m p q (m.sysSwitchState p q) := by
  have hleft := h.linked.leave p
  have hplaced := hleft.placed h.placed hp
  have hwaiting := h.waiting.left h.placed hleft
  have hsignals : q ≠ .killed → q ≠ .running → ((m.leave p).thread p).signals = [] := by
    intro hkilled hrunning
    have hstate := (hfrom.resolve_left hrunning).resolve_left hkilled
    rw [hleft.self, Thread.left, if_pos hstate]
  rw [Machine.sysSwitchState, if_neg hne]
  have happend : ((m.leave p).lists .running ++ [p]).Perm (p :: (m.leave p).lists .running) :=
    List.perm_append_singleton _ _
  cases q with
  | running =>
    exact hleft.switched h.placed hp happend (by decide) nofun
      (hwaiting.put hplaced happend (by decide) fun hnot => absurd rfl hnot) fun _ => rfl
  | blocked => exact absurd rfl hq
  | exception =>
    exact hleft.switched h.placed hp (.refl _) (by decide) nofun
      (hwaiting.put hplaced (.refl _) (by decide) (hsignals (by decide))) nofun
  | sleeping =>
    have hperm := insertSleeping_perm (m.leave p) p ((m.leave p).lists .sleeping)
    exact hleft.switched h.placed hp hperm (by decide) (fun _ => insertSleeping_sorted _ _ hplaced.sorted)
      (hwaiting.put hplaced hperm (by decide) (hsignals (by decide))) nofun
  | killed =>
    have hkilled := hleft.linked.kill p
    refine ⟨⟨hkilled.placed hplaced, hkilled.linked, hkilled.waiting hplaced hwaiting⟩,
      hkilled.executing.trans hleft.executing,
      hkilled.valid.trans hleft.valid, hkilled.time.trans hleft.time, hkilled.threadId.trans hleft.threadId,
      hkilled.newThread.trans hleft.newThread, hkilled.block.trans hleft.block, hkilled.next.trans hleft.next,
      fun p' hne => (hkilled.other p' hne).trans (hleft.other hne), fun p' q' hne => ?_, ?_, fun p' =>
        ?_, fun hnot => absurd rfl hnot⟩
    · have hmem : p' ∈ ((m.leave p).kill p).lists q' ↔ p' ∈ (m.leave p).lists q' := by
        refine ⟨fun hmem => (hkilled.mem hmem).resolve_left fun hand => hne hand.2, fun hmem => ?_⟩
        by_cases hq' : q' = .killed
        · subst hq'
          rcases hkilled.killed with hsame | hcons
          · rwa [hsame]
          · rw [hcons]
            exact List.mem_cons_of_mem _ hmem
        · rwa [hkilled.lists q' hq']
      show p' ∈ ((m.leave p).kill p).lists q' ↔ _
      rw [hmem, hleft.mem h.placed]
      simp [hne]
    · show ((m.leave p).kill p).lists .running = _
      rw [hkilled.lists _ (by decide), hleft.running h.placed, if_neg (by decide), List.append_nil]
    · show p' ∈ ((m.leave p).kill p).threads ↔ _
      rw [hkilled.threads, hleft.threads, h.placed.threads.mem_erase_iff]
      simp [and_comm]

end Steps

end MultiScript.GameMonkey.Scheduler
