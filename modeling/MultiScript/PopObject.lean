/-
What `PopScriptObject` takes. It is to take the next value if a wrapper was created for
it, answer that wrapper, and else answer `NULL` and change nothing. `created` says which
values these are: it is any map from values to wrappers.

The code goes by what a value carries, and by where it lies. Lua reads the block of any
userdata on top of the VM stack, Squirrel asserts that an instance is there, and
GameMonkey compares a type number, after a call another one than in a callback: that of
`gmState`, which the machine makes before any class is registered.
-/
import MultiScript.PopInt
import MultiScript.Registration

namespace MultiScript

open Act

section Next

variable {V : Type}

/-- What `PopScriptObject` is to answer, and the values it is to leave. -/
def takeNext (created : V → Option Nat) (count : Int) (left : List V) : Option Nat × List V :=
  match (nextOf count left).bind created with
  | some p => (some p, left.tail)
  | none => (none, left)

/-- The next value has a wrapper, and carries it; over it lies nothing but the same
value. -/
def NextCarries (created carried : V → Option Nat) (count : Int) (pushed left : List V) : Prop :=
  ∃ v p, nextOf count left = some v ∧ created v = some p ∧ carried v = some p ∧ ∀ q ∈ pushed, v = q

theorem takeNext_none {created : V → Option Nat} {count : Int} {left : List V}
    (h : (nextOf count left).bind created = none) : takeNext created count left = (none, left) := by
  simp only [takeNext, h]

theorem nextCarries_next {created carried : V → Option Nat} {count : Int} {pushed left : List V}
    (h : NextCarries created carried count pushed left) : ∃ p, (nextOf count left).bind created = some p := by
  obtain ⟨v, p, hv, hp, -⟩ := h
  exact ⟨p, by rw [hv, Option.bind_some, hp]⟩

/-- Where the next value has a wrapper, taking the top is taking that value exactly if it
carries its wrapper and lies on top. -/
theorem take_iff {created carried : V → Option Nat} {count : Int} {pushed left rest : List V}
    (below : List V) {top : V} {p : Nat}
    (hs : pushed ++ left ++ below = top :: rest) (hp : (nextOf count left).bind created = some p) :
    (carried top = some p ∧ rest = pushed ++ left.tail ++ below) ↔ NextCarries created carried count pushed left := by
  obtain ⟨v, hv, hc⟩ := Option.bind_eq_some_iff.mp hp
  obtain ⟨l, rfl⟩ : ∃ l, left = v :: l := by
    unfold nextOf at hv
    split at hv
    · exact List.head?_eq_some_iff.mp hv
    · cases hv
  have hcarries : NextCarries created carried count pushed (v :: l) ↔ carried v = some p ∧ ∀ q ∈ pushed, v = q := by
    constructor
    · rintro ⟨v', p', hv', hp', hcar, hq⟩
      obtain rfl : v = v' := Option.some.inj (hv.symm.trans hv')
      obtain rfl : p = p' := Option.some.inj (hc.symm.trans hp')
      exact ⟨hcar, hq⟩
    · rintro ⟨hcar, hq⟩
      exact ⟨v, p, hv, hc, hcar, hq⟩
  rw [hcarries, List.tail_cons]
  cases pushed with
  | nil =>
    obtain ⟨rfl, rfl⟩ : v = top ∧ l ++ below = rest := by simpa using hs
    simp
  | cons q qs =>
    obtain ⟨rfl, hrest⟩ : q = top ∧ qs ++ v :: l ++ below = rest := by simpa using hs
    have hrotate : rest = q :: qs ++ l ++ below ↔ ∀ x ∈ q :: qs, v = x := by
      rw [← hrest, List.append_assoc, List.append_assoc, List.cons_append]
      exact rotate_eq_iff
    rw [hrotate]
    constructor
    · rintro ⟨hcar, hall⟩
      obtain rfl : v = q := hall q List.mem_cons_self
      exact ⟨hcar, hall⟩
    · rintro ⟨hcar, hall⟩
      obtain rfl : v = q := hall q List.mem_cons_self
      exact ⟨hcar, hall⟩

end Next

/-! ## Lua -/

namespace Lua

variable {c : LuaScriptContext} {st : LuaScriptStack} {created : LuaValue → Option Nat} {pushed left : List LuaValue}

/-- The pointer a full userdata starts with. -/
def carried (heap : LuaHeap) : LuaValue → Option Nat
  | .userdata r => (heap.userdata r).block
  | _ => none

/-- A stack and its frame after `PopScriptObject`. -/
def afterTake (st : LuaScriptStack) (c : LuaScriptContext) (r : Option Nat × List LuaValue) :
    (Option Nat × LuaScriptStack) × LuaScriptContext :=
  ((r.1, { st with numParams := if r.1.isSome then st.numParams - 1 else st.numParams }), { c with slots := r.2 })

/-- `PopScriptObject` takes the next of the values `left` if it has a wrapper, under what is
`pushed`, or changes nothing. -/
def TakesExactly (created : LuaValue → Option Nat) (st : LuaScriptStack) (c : LuaScriptContext)
    (pushed left : List LuaValue) : Prop :=
  let r := takeNext created st.getNumParams left
  st.popScriptObject c = .ok (afterTake st c (r.1, pushed ++ r.2))

/-- The next value has no wrapper, and no userdata lies on top. -/
def NoUserdata (created : LuaValue → Option Nat) (st : LuaScriptStack) (c : LuaScriptContext)
    (left : List LuaValue) : Prop :=
  (nextOf st.getNumParams left).bind created = none ∧ (c.at (-1)).isUserdata = false

/-- What lies on top is a full userdata that starts with a pointer. -/
theorem popScriptObject_takes {r : (Option Nat × LuaScriptStack) × LuaScriptContext} {p : Nat}
    (h : st.popScriptObject c = .ok r) (hr : r.1.1 = some p) :
    ∃ top rest, c.slots = top :: rest ∧ carried c.world.heap top = some p ∧
      r = ((some p, { st with numParams := st.numParams - 1 }), { c with slots := rest }) := by
  unfold LuaScriptStack.popScriptObject at h
  split at h
  · rename_i ref hat
    split at h
    · cases h
    · rename_i q hb
      obtain ⟨u, c₁, hpop, h⟩ := bind_ok_inv h
      cases h
      obtain rfl : q = p := Option.some.inj hr
      unfold luaPop at hpop
      split at hpop <;> cases hpop
      rename_i hlen
      cases hs : c.slots with
      | nil =>
        rw [hs] at hlen
        exact absurd hlen (by simp)
      | cons top rest =>
        obtain rfl : top = .userdata ref := (at_top hs).symm.trans hat
        exact ⟨_, rest, rfl, hb, rfl⟩
  · cases h
  · cases h
    cases hr

theorem popScriptObject_leaves {r : (Option Nat × LuaScriptStack) × LuaScriptContext}
    (h : st.popScriptObject c = .ok r) (hr : r.1.1 = none) : (c.at (-1)).isUserdata = false := by
  unfold LuaScriptStack.popScriptObject at h
  split at h
  · split at h
    · cases h
    · obtain ⟨u, c₁, hpop, h⟩ := bind_ok_inv h
      cases h
      cases hr
  · cases h
  · rename_i hu hl
    cases hat : c.at (-1) with
    | userdata ref => exact absurd hat (hu ref)
    | lightuserdata q => exact absurd hat (hl q)
    | _ => rfl

theorem takesExactly_iff (hs : c.slots = pushed ++ left) :
    TakesExactly created st c pushed left ↔
      NextCarries created (carried c.world.heap) st.getNumParams pushed left ∨ NoUserdata created st c left := by
  cases hn : (nextOf st.getNumParams left).bind created with
  | none =>
    have hnot : ¬ NextCarries created (carried c.world.heap) st.getNumParams pushed left := by
      intro h
      obtain ⟨p, hp⟩ := nextCarries_next h
      rw [hn] at hp
      cases hp
    have hkeep : afterTake st c (none, pushed ++ left) = ((none, st), c) := by
      rw [← hs]
      rfl
    simp only [TakesExactly, takeNext_none hn, hkeep, hnot, false_or, NoUserdata, hn, true_and]
    constructor
    · intro h
      exact popScriptObject_leaves h rfl
    · intro ht
      exact popScriptObject_none ht
  | some p =>
    have hnone : ¬ NoUserdata created st c left := by
      intro h
      rw [NoUserdata, hn] at h
      cases h.1
    have htake : takeNext created st.getNumParams left = (some p, left.tail) := by simp only [takeNext, hn]
    simp only [TakesExactly, htake, hnone, or_false]
    constructor
    · intro h
      obtain ⟨top, rest, htop, hcar, hr⟩ := popScriptObject_takes h rfl
      have hrest : pushed ++ left.tail = rest := congrArg (fun x => x.2.slots) hr
      refine (take_iff [] (by simpa [hs] using htop) hn).mp ⟨hcar, ?_⟩
      simp [hrest]
    · intro h
      cases htop : c.slots with
      | nil =>
        obtain ⟨v, q, hv, -⟩ := h
        have hleft : left = [] := (List.append_eq_nil_iff.mp (hs.symm.trans htop)).2
        rw [hleft] at hv
        simp [nextOf] at hv
      | cons top rest =>
        obtain ⟨hcar, hrest⟩ := (take_iff [] (by simpa [hs] using htop) hn).mpr h
        rw [List.append_nil] at hrest
        cases top with
        | userdata ref =>
          rw [popScriptObject_some htop hcar, hrest]
          rfl
        | _ => cases hcar

end Lua

/-! ## Squirrel -/

namespace Squirrel

variable {c : SquirrelScriptContext} {st : SquirrelScriptStack} {created : SqValue → Option Nat}
  {pushed left below : List SqValue}

/-- The user pointer of an instance. -/
def carried (heap : SqHeap) : SqValue → Option Nat
  | .sqinstance r => (heap.instances r).userpointer
  | _ => none

/-- A stack and the VM stack after `PopScriptObject`. -/
def afterTake (st : SquirrelScriptStack) (c : SquirrelScriptContext) (r : Option Nat × List SqValue) :
    (Option Nat × SquirrelScriptStack) × SquirrelScriptContext :=
  ((r.1, { st with numParams := if r.1.isSome then st.numParams - 1 else st.numParams }), { c with stack := r.2 })

/-- As in Lua, over what lies `below` the values of the handle. -/
def TakesExactly (created : SqValue → Option Nat) (st : SquirrelScriptStack) (c : SquirrelScriptContext)
    (pushed left below : List SqValue) : Prop :=
  let r := takeNext created st.getNumParams left
  st.popScriptObject c = .ok (afterTake st c (r.1, pushed ++ r.2 ++ below))

/-- `PopScriptObject` returns only where an instance lies on top, which it takes. -/
theorem popScriptObject_takes {r : (Option Nat × SquirrelScriptStack) × SquirrelScriptContext}
    (h : st.popScriptObject c = .ok r) :
    ∃ top rest, c.stack = top :: rest ∧
      r = ((carried c.world.heap top, { st with numParams := st.numParams - 1 }), { c with stack := rest }) := by
  unfold SquirrelScriptStack.popScriptObject at h
  split at h
  · rename_i ref hat
    cases hs : c.stack with
    | nil =>
      have hpop : sqPop 1 c = .error .stackUnderflow := by simp [sqPop, hs]
      rw [bind_error hpop] at h
      cases h
    | cons top rest =>
      obtain rfl : top = .sqinstance ref := (at_top hs).symm.trans hat
      rw [bind_ok (sqPop_ok (by simp [hs]))] at h
      cases h
      exact ⟨_, rest, rfl, by simp [carried, hs]⟩
  · cases h

theorem takesExactly_iff (hs : c.stack = pushed ++ left ++ below) :
    TakesExactly created st c pushed left below ↔
    NextCarries created (carried c.world.heap) st.getNumParams pushed left := by
  cases hn : (nextOf st.getNumParams left).bind created with
  | none =>
    have hnot : ¬ NextCarries created (carried c.world.heap) st.getNumParams pushed left := by
      intro h
      obtain ⟨p, hp⟩ := nextCarries_next h
      rw [hn] at hp
      cases hp
    simp only [TakesExactly, takeNext_none hn, hnot, iff_false]
    intro h
    -- the stack gets shorter, or the host hangs
    obtain ⟨top, rest, htop, hr⟩ := popScriptObject_takes h
    have hrest : pushed ++ left ++ below = rest := congrArg (fun x => x.2.stack) hr
    rw [hs, hrest] at htop
    exact absurd (congrArg List.length htop) (by simp)
  | some p =>
    have htake : takeNext created st.getNumParams left = (some p, left.tail) := by simp only [takeNext, hn]
    simp only [TakesExactly, htake]
    constructor
    · intro h
      obtain ⟨top, rest, htop, hr⟩ := popScriptObject_takes h
      have hcar : some p = carried c.world.heap top := congrArg (fun x => x.1.1) hr
      have hrest : pushed ++ left.tail ++ below = rest := congrArg (fun x => x.2.stack) hr
      exact (take_iff below (hs.symm.trans htop) hn).mp ⟨hcar.symm, hrest.symm⟩
    · intro h
      cases htop : c.stack with
      | nil =>
        obtain ⟨v, q, hv, -⟩ := h
        have hleft : left = [] := (List.append_eq_nil_iff.mp (List.append_eq_nil_iff.mp (hs.symm.trans htop)).1).2
        rw [hleft] at hv
        simp [nextOf] at hv
      | cons top rest =>
        obtain ⟨hcar, hrest⟩ := (take_iff below (hs.symm.trans htop) hn).mpr h
        cases top with
        | sqinstance ref =>
          have hp : (c.world.heap.instances ref).userpointer = some p := hcar
          rw [popScriptObject_instance htop, hrest, hp]
          rfl
        | _ => cases hcar

end Squirrel

/-! ## GameMonkey -/

namespace GameMonkey

variable {c : GMScriptContext} {st : GMScriptStack} {created : GmValue → Option Nat} {left gone : List GmValue}

/-- A stack after `PopScriptObject`. -/
def afterTake (st : GMScriptStack) (c : GMScriptContext) (object : Option Nat) :
    (Option Nat × GMScriptStack) × GMScriptContext :=
  ((object, { st with numPopped := if object.isSome then st.numPopped + 1 else st.numPopped }), c)

def TakesExactly (created : GmValue → Option Nat) (st : GMScriptStack) (c : GMScriptContext)
    (left : List GmValue) : Prop :=
  st.popScriptObject c = .ok (afterTake st c (takeNext created st.getNumParams left).1)

/-- The user objects of the types that pass the test are those with a wrapper, and carry
it. -/
def Carries (test : Nat → Prop) (created : GmValue → Option Nat) (w : GmWorld) (v : GmValue) : Prop :=
  match created v with
  | some p => ∃ type ref, v = .user type ref ∧ test type ∧ w.user ref = some p
  | none => ∀ type ref, v = .user type ref → ¬ test type

theorem popScriptObject_end (hp : st.numPopped = st.numParams) : st.popScriptObject c = .ok ((none, st), c) := by
  simp only [GMScriptStack.popScriptObject, if_pos hp]

/-- A pop that takes the value if it is a user object of a type that passes the test. -/
theorem takesExactly_test {test : Nat → Prop} {v : GmValue} (hcount : 0 < st.getNumParams)
    (huser : ∀ type ref, v = .user type ref → test type →
      st.popScriptObject c = .ok ((c.world.user ref, { st with numPopped := st.numPopped + 1 }), c))
    (hother : (∀ type ref, v = .user type ref → ¬ test type) → st.popScriptObject c = .ok ((none, st), c)) :
    TakesExactly created st c (v :: left) ↔ Carries test created c.world v := by
  have hnext : (takeNext created st.getNumParams (v :: left)).1 = created v := by
    simp only [takeNext, nextOf, if_pos hcount, List.head?_cons, Option.bind_some]
    cases created v <;> rfl
  unfold TakesExactly Carries
  rw [hnext]
  by_cases htest : ∃ type ref, v = .user type ref ∧ test type
  · obtain ⟨type, ref, rfl, ht⟩ := htest
    rw [huser type ref rfl ht]
    cases created (.user type ref) with
    | none =>
      refine ⟨fun h => ?_, fun h => absurd ht (h type ref rfl)⟩
      have hpopped : st.numPopped + 1 = st.numPopped := congrArg (fun x => x.1.2.numPopped) (Except.ok.inj h)
      omega
    | some p =>
      refine ⟨fun h => ?_, fun h => ?_⟩
      · have hp : c.world.user ref = some p := congrArg (fun x => x.1.1) (Except.ok.inj h)
        exact ⟨type, ref, rfl, ht, hp⟩
      · obtain ⟨type', ref', he, -, hp⟩ := h
        cases he
        rw [hp]
        rfl
  · have hno : ∀ type ref, v = .user type ref → ¬ test type := fun type ref hv ht => htest ⟨type, ref, hv, ht⟩
    rw [hother hno]
    cases created v with
    | none => exact ⟨fun _ => hno, fun _ => rfl⟩
    | some p =>
      refine ⟨fun h => ?_, fun h => ?_⟩
      · cases (congrArg (fun x => x.1.1) (Except.ok.inj h) : none = some p)
      · obtain ⟨type, ref, hv, ht, -⟩ := h
        exact absurd ht (hno type ref hv)

/-- In a callback every user type passes. -/
theorem callback_takesExactly_iff (h : Entered st c left gone) :
    TakesExactly created st c left ↔ ∀ v, left.head? = some v →
    Carries (fun type => gmUser ≤ type) created c.world v := by
  cases left with
  | nil =>
    have hp : st.numPopped = st.numParams := by
      rw [h.numParams, h.numPopped, h.params]
      simp
    unfold TakesExactly
    rw [popScriptObject_end hp]
    simp [takeNext, nextOf, afterTake]
  | cons v left =>
    have hlen := h.length
    have hcount : 0 < st.getNumParams := by
      rw [GMScriptStack.getNumParams, h.numParams, hlen]
      omega
    have hne : ¬ st.numPopped = st.numParams := by
      rw [h.numParams, h.numPopped, hlen]
      omega
    have hidx : st.numParams - st.numPopped - 1 = (left.length : Int) := by
      rw [h.numParams, h.numPopped, hlen]
      omega
    have hin : ¬ (c.thread.params.length : Int) ≤ left.length := by omega
    have hget : c.thread.params.getD left.length .null = v := by simp [h.params]
    simp only [List.head?_cons, Option.some.injEq, forall_eq']
    refine takesExactly_test hcount (fun type ref hv ht => ?_) fun hno => ?_
    · subst hv
      have hparam : c.thread.paramUserObject (st.numParams - st.numPopped - 1) = some (some ref) := by
        simp only [hidx, GmThread.paramUserObject, if_neg hin, Int.toNat_natCast, hget, if_pos ht]
      simp only [GMScriptStack.popScriptObject, if_neg hne, h.call, hparam]
    · have hparam : c.thread.paramUserObject (st.numParams - st.numPopped - 1) = none := by
        simp only [hidx, GmThread.paramUserObject, if_neg hin, Int.toNat_natCast, hget]
        cases v with
        | user type ref => simp only [if_neg (hno type ref rfl)]
        | _ => rfl
      simp only [GMScriptStack.popScriptObject, if_neg hne, h.call, hparam]

/-- After a call only the first user type does. -/
theorem call_takesExactly_test {call : GmCall} (h : Returned st call left) :
    TakesExactly created st c left ↔ ∀ v, left.head? = some v →
    Carries (fun type => type = gmUser) created c.world v := by
  cases h with
  | nothing hc hp =>
    unfold TakesExactly
    rw [popScriptObject_end hp]
    simp [takeNext, nextOf, afterTake]
  | @result v hc hv hn hp =>
    have hne : ¬ st.numPopped = st.numParams := by
      rw [hn, hp]
      decide
    have hcount : 0 < st.getNumParams := by
      rw [GMScriptStack.getNumParams, hn]
      decide
    simp only [List.head?_cons, Option.some.injEq, forall_eq']
    refine takesExactly_test hcount (fun type ref he ht => ?_) fun hno => ?_
    · subst he
      simp only [GMScriptStack.popScriptObject, if_neg hne, hc, hv, if_pos ht]
    · cases v with
      | user type ref => simp only [GMScriptStack.popScriptObject, if_neg hne, hc, hv, if_neg (hno type ref rfl)]
      | _ => simp only [GMScriptStack.popScriptObject, if_neg hne, hc, hv]

/-- Every registered class has a user type of its own, made after `gmState`. -/
structure GmWorld.ClassTypes (w : GmWorld) : Prop where
  types : gmUser < w.types
  classes : ∀ d ∈ w.classes, gmUser < w.gmTypeId d

/-- Only the instances of registered classes have a wrapper. -/
def GmWorld.OfClasses (w : GmWorld) (created : GmValue → Option Nat) : Prop :=
  ∀ v p, created v = some p → ∃ d ∈ w.classes, ∃ ref, v = .user (w.gmTypeId d) ref

theorem registerClass_classTypes {w : GmWorld} {desc : ClassDesc} (h : w.ClassTypes) :
    GmWorld.ClassTypes { w.registerClass desc with classes := (w.registerClass desc).classes ++ [desc] } := by
  obtain ⟨-, htypes, hid, hclasses, -⟩ := @registerTypeLibrary_frame ((w.createUserType desc).registerLibraryFunction
    desc.name .classConstructorCallback (.classInfo desc)) w.types (gmMethods desc)
  have hnew : ∀ d, (w.registerClass desc).gmTypeId d = if d = desc then w.types else w.gmTypeId d :=
    fun d => congrFun hid d
  refine ⟨Nat.lt_trans h.types (Nat.lt_of_lt_of_eq (Nat.lt_succ_self _) htypes.symm), fun d hd => ?_⟩
  have hmem : d ∈ w.classes ++ [desc] := by
    rw [show (w.registerClass desc).classes = w.classes from hclasses] at hd
    exact hd
  rw [hnew d]
  by_cases hdesc : d = desc
  · rw [if_pos hdesc]
    exact h.types
  · rw [if_neg hdesc]
    rcases List.mem_append.mp hmem with hold | hlast
    · exact h.classes d hold
    · exact absurd (List.mem_singleton.mp hlast) hdesc

/-- A registration keeps the types as they are to be. -/
theorem register_classTypes {c c' : GMScriptContext} {r : Registration} {b : Bool} (h : c.world.ClassTypes)
    (hr : register r c = .ok (b, c')) : c'.world.ClassTypes := by
  cases r with
  | function desc =>
    have ho : register (.function desc) c = _ := registerFunction_ok
    rw [ho] at hr
    cases hr
    exact ⟨h.types, h.classes⟩
  | userClass desc =>
    cases hctor : desc.constructor.isSome with
    | false =>
      have hf : register (.userClass desc) c = .error (.assertion "desc->m_constructor") := by
        show registerUserClass desc c = _
        rw [registerUserClass, hctor]
        rfl
      rw [hf] at hr
      cases hr
    | true =>
      cases hdtor : desc.destructor.isSome with
      | false =>
        have hf : register (.userClass desc) c = .error (.assertion "desc->m_destructor") := by
          show registerUserClass desc c = _
          rw [registerUserClass, hctor, hdtor]
          rfl
        rw [hf] at hr
        cases hr
      | true =>
        have ho : register (.userClass desc) c = _ := registerUserClass_ok hctor hdtor
        rw [ho] at hr
        cases hr
        exact registerClass_classTypes h

/-- So do all that are made on a fresh context. -/
theorem run_classTypes {rs : List Registration} {next : Nat} {globals : Bytes → GmValue}
    {function : Nat → GmFunctionObject}
    {bs : List Bool} (h : registrar.machine.run rs (createContext next globals function) = .ok (bs, c)) :
    c.world.ClassTypes := by
  refine registrar.machine.run_inv (I := fun c => c.world.ClassTypes) (P := fun _ _ => True)
    (fun r c₁ b c₂ hc _ hr => register_classTypes hc hr) ?_ (registrar.machine.meets_true _ _) h
  exact ⟨Nat.lt_succ_self _, fun d hd => absurd hd List.not_mem_nil⟩

/-- After a call a value with a wrapper is never taken: its type comes after the one the
test is for. -/
theorem call_takesExactly_iff {call : GmCall} (h : Returned st call left) (ht : c.world.ClassTypes)
    (hcreated : c.world.OfClasses created) :
    TakesExactly created st c left ↔
      ∀ v, left.head? = some v → created v = none ∧ ∀ ref, v ≠ .user gmUser ref := by
  rw [call_takesExactly_test h]
  refine forall₂_congr fun v _ => ?_
  unfold Carries
  cases hv : created v with
  | none =>
    refine ⟨fun hno => ⟨rfl, fun ref he => hno gmUser ref he rfl⟩, ?_⟩
    rintro ⟨-, hno⟩ type ref he rfl
    exact hno ref he
  | some p =>
    obtain ⟨d, hd, ref, rfl⟩ := hcreated v p hv
    refine ⟨?_, fun hno => by cases hno.1⟩
    rintro ⟨type, ref', he, htype, -⟩
    cases he
    exact absurd htype (Nat.ne_of_gt (ht.classes d hd))

end GameMonkey

/-! ## The three backends -/

/-- **`PopScriptObject`** takes the next value if a wrapper was created for it and else
changes nothing, exactly under these conditions. Lua: the next value carries its wrapper and
lies on top, or it has none and what lies on top is no userdata. Squirrel: the first of
these. GameMonkey in a callback: the next value is a user object exactly if it has a wrapper,
and carries it. GameMonkey after a call: the next value has no wrapper and is no object of
`gmState`; for whatever was registered, every class has a type made after that one. -/
theorem popScriptObject_exact (lua : Lua.LuaValue → Option Nat) (sq : Squirrel.SqValue → Option Nat)
    (gm : GameMonkey.GmValue → Option Nat) :
    (∀ (st : Lua.LuaScriptStack) c pushed left, c.slots = pushed ++ left →
      (Lua.TakesExactly lua st c pushed left ↔
        NextCarries lua (Lua.carried c.world.heap) st.getNumParams pushed left ∨ Lua.NoUserdata lua st c left)) ∧
    (∀ (st : Squirrel.SquirrelScriptStack) c pushed left below, c.stack = pushed ++ left ++ below →
      (Squirrel.TakesExactly sq st c pushed left below ↔
        NextCarries sq (Squirrel.carried c.world.heap) st.getNumParams pushed left)) ∧
    (∀ st c left gone, GameMonkey.Entered st c left gone →
      (GameMonkey.TakesExactly gm st c left ↔
        ∀ v, left.head? = some v → GameMonkey.Carries (fun type => GameMonkey.gmUser ≤ type) gm c.world v)) ∧
    (∀ st c call left, GameMonkey.Returned st call left → c.world.ClassTypes → c.world.OfClasses gm →
      (GameMonkey.TakesExactly gm st c left ↔
        ∀ v, left.head? = some v → gm v = none ∧ ∀ ref, v ≠ .user GameMonkey.gmUser ref)) ∧
    ∀ rs next globals function bs c,
      GameMonkey.registrar.machine.run rs (GameMonkey.createContext next globals function) = .ok (bs, c) →
      c.world.ClassTypes := by
  refine ⟨?_, ?_, ?_, ?_, ?_⟩
  · intro st c pushed left hs
    exact Lua.takesExactly_iff hs
  · intro st c pushed left below hs
    exact Squirrel.takesExactly_iff hs
  · intro st c left gone h
    exact GameMonkey.callback_takesExactly_iff h
  · intro st c call left h ht hcreated
    exact GameMonkey.call_takesExactly_iff h ht hcreated
  · intro rs next globals function bs c h
    exact GameMonkey.run_classTypes h

/-- A class, registered on a fresh context. -/
def GameMonkey.onlyClass : ClassDesc := { addr := 1, name := cstr "A", constructor := some 0, destructor := some 0 }

/-- A context with a user object whose wrapper is 1. -/
def GameMonkey.oneObject (c : GameMonkey.GMScriptContext) : GameMonkey.GMScriptContext :=
  { c with world := { c.world with user := fun r => if r = 1 then some 1 else none } }

/-- An object of the first class of a context is returned by a function, and
`PopScriptObject` answers `NULL`. -/
theorem popScriptObject_first_class :
    ∃ c, GameMonkey.registerUserClass GameMonkey.onlyClass
        (GameMonkey.createContext 0 (fun _ => .null) fun _ => .other 0) = .ok (true, c) ∧
      let v : GameMonkey.GmValue := .user (c.world.gmTypeId GameMonkey.onlyClass) 1
      let call : GameMonkey.GmCall := { function := .function 0, params := [], returnVar := some v }
      let st : GameMonkey.GMScriptStack := { numParams := 1, numPopped := 0, call := some call }
      GameMonkey.Returned st call [v] ∧
      st.popScriptObject (GameMonkey.oneObject c) = .ok ((none, st), GameMonkey.oneObject c) ∧
      ¬ GameMonkey.TakesExactly (fun x => if x = v then some 1 else none) st (GameMonkey.oneObject c) [v] := by
  refine ⟨_, rfl, .result rfl rfl rfl rfl, rfl, fun h => ?_⟩
  cases (congrArg (fun x => x.1.1) (Except.ok.inj h) : none = some 1)

/-- An object of a class, on top of the stack, in a callback; and after a call to a
GameMonkey function that returns a number. -/
theorem popScriptObject_exact_instance :
    (let heap := { Lua.LuaHeap.binding [] with userdata := fun _ => { block := some 1, metatable := none } }
    let c : Lua.LuaScriptContext := { Lua.createContext heap with func := .function 0, slots := [.userdata 0] }
    let st : Lua.LuaScriptStack := { numPushed := 0, numParams := 1, isCall := false }
    Lua.TakesExactly (fun v => if v = .userdata 0 then some 1 else none) st c [] [.userdata 0]) ∧
    (let heap := { Squirrel.SqHeap.binding [] with
      instances := fun _ => { userpointer := some 1, sqclass := 0, hook := true } }
    let c : Squirrel.SquirrelScriptContext := { Squirrel.createContext heap with stack := [.sqinstance 0, .table 0] }
    let st : Squirrel.SquirrelScriptStack := { numPushed := 0, numParams := 1, isCall := false }
    Squirrel.TakesExactly (fun v => if v = .sqinstance 0 then some 1 else none) st c [] [.sqinstance 0] [.table 0]) ∧
    ∃ c, GameMonkey.registrar.machine.run [.userClass GameMonkey.onlyClass]
        (GameMonkey.createContext 0 (fun _ => .null) fun _ => .other 0) = .ok ([true], c) ∧ c.world.ClassTypes ∧
      let v : GameMonkey.GmValue := .user (c.world.gmTypeId GameMonkey.onlyClass) 1
      let created := fun x => if x = v then some 1 else none
      let called := { GameMonkey.oneObject c with thread := { c.thread with params := [v] } }
      let call : GameMonkey.GmCall := { function := .function 0, params := [], returnVar := some (.int 5) }
      GameMonkey.TakesExactly created { numParams := 1, numPopped := 0, call := none } called [v] ∧
        GameMonkey.TakesExactly created { numParams := 1, numPopped := 0, call := some call } (GameMonkey.oneObject c)
          [.int 5] := by
  obtain ⟨hlua, hsq, hgm, hgmCall, hrun⟩ := popScriptObject_exact (fun v => if v = .userdata 0 then some 1 else none)
    (fun v => if v = .sqinstance 0 then some 1 else none) fun v =>
      if v = .user (GameMonkey.gmUser + 1) 1 then some 1 else none
  refine ⟨?_, ?_, ?_⟩
  · exact (hlua _ _ [] _ rfl).mpr (.inl ⟨_, 1, rfl, rfl, rfl, fun _ hq => absurd hq List.not_mem_nil⟩)
  · exact (hsq _ _ [] _ _ rfl).mpr ⟨_, 1, rfl, rfl, rfl, fun _ hq => absurd hq List.not_mem_nil⟩
  · refine ⟨_, rfl, hrun [.userClass GameMonkey.onlyClass] 0 (fun _ => .null) (fun _ => .other 0) [true] _ rfl, ?_, ?_⟩
    · refine (hgm _ _ _ [] ⟨rfl, rfl, rfl, rfl⟩).mpr fun v hv => ?_
      cases hv
      exact ⟨_, _, rfl, Nat.le_succ _, rfl⟩
    · refine (hgmCall _ _ _ _ (.result rfl rfl rfl rfl) ?_ fun v p hv => ?_).mpr fun v hv => ?_
      · have ht := hrun [.userClass GameMonkey.onlyClass] 0 (fun _ => .null) (fun _ => .other 0) [true] _ rfl
        exact ⟨ht.types, ht.classes⟩
      · by_cases he : v = .user (GameMonkey.gmUser + 1) 1
        · exact ⟨GameMonkey.onlyClass, List.mem_singleton_self _, 1, he⟩
        · cases (if_neg he).symm.trans hv
      · cases hv
        exact ⟨rfl, fun _ he => by cases he⟩

end MultiScript
