/-
Which names `BeginCall` finds. It is to answer a stack exactly where the environment
binds the name itself to a function. GameMonkey reads the table of globals. Lua and
Squirrel ask their VM for the name, and the VM looks further where the table has nothing:
along the `__index` of metatables, and in delegates, in what every table has, and by
metamethods. OCaml does not ask what the name stands for.
-/
import MultiScript.Lua.Context
import MultiScript.Squirrel.Context
import MultiScript.GameMonkey.Context
import MultiScript.Ocaml.Context

namespace MultiScript

open Act

/-- `BeginCall` returns, with a stack exactly if the name is bound to a function. -/
def Finds {S C : Type} (r : Except Fault (Option S × C)) (bound : Bool) : Prop :=
  ∃ st c, r = .ok (st, c) ∧ st.isSome = bound

theorem finds_ok {S C : Type} {st : Option S} {c : C} {bound : Bool} :
    Finds (.ok (st, c)) bound ↔ st.isSome = bound := by
  constructor
  · rintro ⟨st', c', h, hb⟩
    cases h
    exact hb
  · intro h
    exact ⟨st, c, rfl, h⟩

theorem not_finds_error {S C : Type} {f : Fault} {bound : Bool} :
    ¬ Finds (.error f : Except Fault (Option S × C)) bound := by
  rintro ⟨st, c, h, -⟩
  cases h

/-! ## Lua -/

namespace Lua

/-! ### `luaV_gettable` -/

/-- `ttype`. -/
def LuaValue.ttype : LuaValue → Nat
  | .nil => 0
  | .boolean _ => 1
  | .lightuserdata _ => 2
  | .number _ => 3
  | .string _ => 4
  | .table _ => 5
  | .function _ => 6
  | .userdata _ => 7
  | .thread _ => 8

/-- `luaT_gettmbyobj`. -/
def LuaHeap.gettmbyobj (h : LuaHeap) (v : LuaValue) (event : Bytes) : LuaValue :=
  let mt := match v with
    | .table r => (h.table r).metatable
    | .userdata r => (h.userdata r).metatable
    | v => h.mt v.ttype
  match mt with
  | none => .nil
  | some m => (h.table m).slot (.string event)

def maxtagloop : Nat := 100

/-- What a call that is asked for one result answers. -/
def LuaOutcome.first : LuaOutcome → Option LuaValue
  | .returned results => some (results.headD .nil)
  | .raised _ _ => none

/-- `callTMres`. -/
def callTMres (vm : LuaVm) (f t k : LuaValue) (w : LuaWorld) : Except Fault (LuaValue × LuaWorld) :=
  match (vm.call f [t, k] w).1.first with
  | some v => .ok (v, (vm.call f [t, k] w).2)
  | none => .error .scriptError

/-- The loop of `luaV_gettable`, with the turns that are left. -/
def gettable (vm : LuaVm) : Nat → LuaValue → LuaValue → LuaWorld → Except Fault (LuaValue × LuaWorld)
  | 0, _, _, _ => .error .scriptError
  | n + 1, t, k, w =>
    let again := fun tm : LuaValue => if tm.isFunction then callTMres vm tm t k w else gettable vm n tm k w
    match t with
    | .table r =>
      let res := (w.heap.table r).slot k
      let tm := w.heap.metamethod r (cstr "__index")
      if res ≠ .nil ∨ tm = .nil then .ok (res, w) else again tm
    | _ =>
      let tm := w.heap.gettmbyobj t (cstr "__index")
      if tm = .nil then .error .scriptError else again tm

/-- The VM with this loop for its metamethod path. -/
def LuaVm.looping (vm : LuaVm) : LuaVm :=
  { vm with index := fun t k w =>
      match gettable vm maxtagloop t k w with
      | .ok (v, w') => (some v, w')
      | .error _ => (none, w) }

/-- Where the loop ends: with a value, with a metamethod that is called with a value, or
with an error. -/
inductive IndexEnd
  | value (v : LuaValue)
  | calls (f t : LuaValue)
  | fails
deriving DecidableEq, Repr

/-- It follows `__index` through the heap, in so many turns. -/
def LuaHeap.indexEnd (h : LuaHeap) (k : LuaValue) : Nat → LuaValue → IndexEnd
  | 0, _ => .fails
  | n + 1, t =>
    let again := fun tm : LuaValue => if tm.isFunction then .calls tm t else h.indexEnd k n tm
    match t with
    | .table r =>
      let res := (h.table r).slot k
      let tm := h.metamethod r (cstr "__index")
      if res ≠ .nil ∨ tm = .nil then .value res else again tm
    | _ =>
      let tm := h.gettmbyobj t (cstr "__index")
      if tm = .nil then .fails else again tm

variable {vm : LuaVm} {c : LuaScriptContext} {name : Bytes} {k : LuaValue} {w : LuaWorld}

theorem gettable_eq {n : Nat} {t : LuaValue} :
    gettable vm n t k w = match w.heap.indexEnd k n t with
      | .value v => .ok (v, w)
      | .calls f t => callTMres vm f t k w
      | .fails => .error .scriptError := by
  induction n generalizing t with
  | zero => rfl
  | succ n ih =>
    have hagain : ∀ tm : LuaValue,
        (if tm.isFunction then callTMres vm tm t k w else gettable vm n tm k w)
          = match if tm.isFunction then .calls tm t else w.heap.indexEnd k n tm with
            | .value v => .ok (v, w)
            | .calls f t => callTMres vm f t k w
            | .fails => .error .scriptError := by
      intro tm
      cases hf : tm.isFunction with
      | true => simp only [if_true]
      | false => simp only [Bool.false_eq_true, if_false, ih]
    cases t with
    | table r =>
      simp only [gettable, LuaHeap.indexEnd]
      split
      · rfl
      · exact hagain _
    | _ =>
      simp only [gettable, LuaHeap.indexEnd]
      split
      · rfl
      · exact hagain _

/-- A raw access ends the loop at once. -/
theorem gettable_raw {n r : Nat}
    (h : (w.heap.table r).slot k ≠ .nil ∨ w.heap.metamethod r (cstr "__index") = .nil) :
    gettable vm (n + 1) (.table r) k w = .ok ((w.heap.table r).slot k, w) := by
  simp only [gettable, if_pos h]

/-- A table access of this VM is the whole loop, the first turn being made twice. -/
theorem luaVGettable_looping {r : Nat} :
    luaVGettable vm.looping (.table r) k w = gettable vm maxtagloop (.table r) k w := by
  rw [luaVGettable]
  split
  · rename_i h
    exact (gettable_raw (n := 99) h).symm
  · have herror : ∀ f, gettable vm maxtagloop (.table r) k w = .error f → f = .scriptError := by
      intro f h
      rw [gettable_eq] at h
      split at h
      · cases h
      · unfold callTMres at h
        split at h <;> cases h
        rfl
      · cases h
        rfl
    simp only [luaIndexMeta, LuaVm.looping]
    cases hg : gettable vm maxtagloop (.table r) k w with
    | ok x => rfl
    | error f => rw [herror f hg]

/-! ### `BeginCall` -/

/-- The global of a name. -/
def LuaHeap.global (h : LuaHeap) (name : Bytes) : LuaValue := (h.table h.globals).slot (.string name)

/-- What the name leads to where it is not a global is no function. -/
def Misses (vm : LuaVm) (name : Bytes) (w : LuaWorld) : Prop :=
  match w.heap.indexEnd (.string name) maxtagloop (.table w.heap.globals) with
  | .value v => v.isFunction = false
  | .calls f t => ∃ v, (vm.call f [t, .string name] w).1.first = some v ∧ v.isFunction = false
  | .fails => False

/-- The stack is empty; and the global is there, or `__index` leads to no function. -/
def LooksUp (vm : LuaVm) (name : Bytes) (c : LuaScriptContext) : Prop :=
  c.slots = [] ∧ (c.world.heap.global name ≠ .nil ∨ Misses vm name c.world)

/-- A global that is there ends the loop at once. -/
theorem indexEnd_global {h : LuaHeap} {n : Nat} (hg : h.global name ≠ .nil) :
    h.indexEnd (.string name) (n + 1) (.table h.globals) = .value (h.global name) := by
  simp only [LuaHeap.indexEnd]
  exact if_pos (.inl hg)

theorem beginCall_finds_iff :
    Finds (beginCall vm.looping name c) (c.world.heap.global name).isFunction ↔ LooksUp vm name c := by
  by_cases hs : c.slots = []
  · rw [beginCall_empty hs, lookupGlobal, luaVGettable_looping, gettable_eq]
    by_cases hg : c.world.heap.global name ≠ .nil
    · have hlooks : LooksUp vm name c := ⟨hs, .inl hg⟩
      have hend : c.world.heap.indexEnd (.string name) maxtagloop (.table c.world.heap.globals) = _ :=
        indexEnd_global (n := 99) hg
      simp only [hend]
      cases hf : (c.world.heap.global name).isFunction with
      | true => simp [finds_ok, hlooks]
      | false => simp [finds_ok, hlooks]
    · have hnil : c.world.heap.global name = .nil := Decidable.not_not.mp hg
      have hfun : LuaValue.nil.isFunction = false := rfl
      simp only [LooksUp, Misses, hs, hnil, hfun, ne_eq, not_true_eq_false, false_or, true_and]
      cases c.world.heap.indexEnd (.string name) maxtagloop (.table c.world.heap.globals) with
      | value v =>
        cases hf : v.isFunction with
        | true => simp [hf, finds_ok]
        | false => simp [hf, finds_ok]
      | calls f t =>
        cases ho : (vm.call f [t, .string name] c.world).1.first with
        | none => simp [callTMres, not_finds_error, ho]
        | some v =>
          cases hf : v.isFunction with
          | true => simp [callTMres, hf, ho, finds_ok]
          | false => simp [callTMres, hf, ho, finds_ok]
      | fails => simp [not_finds_error]
  · refine ⟨fun h => ?_, fun h => absurd h.1 hs⟩
    rcases beginCall_leftover vm.looping name hs with he | he
    · rw [he] at h
      exact absurd h not_finds_error
    · rw [he] at h
      exact absurd h not_finds_error

end Lua

/-! ## Squirrel -/

namespace Squirrel

/-! ### `SQVM::Get` -/

/-- `_realval`. -/
def SqHeap.realval (h : SqHeap) : SqValue → SqValue
  | .weakref r => h.weakref r
  | v => v

/-- `SQTable::Get`. -/
def SqHeap.tableGet (h : SqHeap) (r : Nat) (key : SqValue) : Option SqValue :=
  if key = .null then none else (h.slot r key).map h.realval

/-- The names in `_table_default_delegate_funcz`. -/
def tableDefaultDelegateFuncz : List Bytes :=
  ["len", "rawget", "rawset", "rawdelete", "rawin", "weakref", "tostring", "clear"].map cstr

/-- A lookup in the default delegate of tables. -/
def SqHeap.tableDdelGet (h : SqHeap) : SqValue → Option SqValue
  | .string s => if s ∈ tableDefaultDelegateFuncz then some (.nativeclosure (h.tableDelegate s)) else none
  | _ => none

/-- `CallMetaMethod` with `MT_GET`, for a table: its delegate is asked for `_get`. -/
def callGetMetaMethod (vm : SqVm) (self : Nat) (key : SqValue) (w : SqWorld) : Option SqValue × SqWorld :=
  match (w.heap.delegates self).head?.bind (w.heap.tableGet · (.string (cstr "_get"))) with
  | some closure => vm.call closure [.table self, key] w
  | none => (none, w)

/-- `SQVM::Get` and `FallBackGet` of a table with so many delegates. -/
def getFrom (vm : SqVm) (key : SqValue) (w : SqWorld) : Nat → List Nat → Option SqValue × SqWorld
  | self, [] => ((w.heap.tableGet self key).or (w.heap.tableDdelGet key), w)
  | self, d :: ds =>
    match w.heap.tableGet self key with
    | some v => (some v, w)
    | none =>
      match getFrom vm key w d ds with
      | (some v, w) => (some v, w)
      | (none, w) =>
        match callGetMetaMethod vm self key w with
        | (some v, w) => (some v, w)
        | (none, w) => (w.heap.tableDdelGet key, w)

/-- The VM that looks up in tables so. -/
def SqVm.delegating (vm : SqVm) : SqVm :=
  { vm with get := fun self key w =>
      match self with
      | .table r => getFrom vm key w r (w.heap.delegates r)
      | _ => vm.get self key w }

/-- The `_get` metamethods alone, from that of the last delegate on. -/
def askMetaMethods (vm : SqVm) (key : SqValue) (w : SqWorld) : Nat → List Nat → Option SqValue × SqWorld
  | _, [] => (none, w)
  | self, d :: ds =>
    match askMetaMethods vm key w d ds with
    | (some v, w) => (some v, w)
    | (none, w) => callGetMetaMethod vm self key w

variable {vm : SqVm} {c : SquirrelScriptContext} {name : Bytes} {key v : SqValue} {w : SqWorld}

/-- What a table or one of its delegates has, the first of them first. -/
theorem getFrom_found {ds : List Nat} {self : Nat} (h : (self :: ds).findSome? (w.heap.tableGet · key) = some v) :
    getFrom vm key w self ds = (some v, w) := by
  induction ds generalizing self with
  | nil =>
    have hself : w.heap.tableGet self key = some v := by simpa using h
    simp only [getFrom, hself, Option.some_or]
  | cons d ds ih =>
    cases hself : w.heap.tableGet self key with
    | some u =>
      simp only [List.findSome?_cons, hself, Option.some.injEq] at h
      simp only [getFrom, hself, h]
    | none =>
      rw [List.findSome?_cons, hself] at h
      simp only [getFrom, hself, ih h]

/-- Where none of them has the key, the last one finds what every table has. -/
theorem getFrom_default {ds : List Nat} {self : Nat} (h : (self :: ds).findSome? (w.heap.tableGet · key) = none)
    (hd : w.heap.tableDdelGet key = some v) : getFrom vm key w self ds = (some v, w) := by
  induction ds generalizing self with
  | nil =>
    have hself : w.heap.tableGet self key = none := by simpa using h
    simp only [getFrom, hself, Option.none_or, hd]
  | cons d ds ih =>
    obtain ⟨hself, hds⟩ : w.heap.tableGet self key = none ∧ (d :: ds).findSome? (w.heap.tableGet · key) = none := by
      rw [List.findSome?_cons] at h
      cases hself : w.heap.tableGet self key with
      | some u => rw [hself] at h; cases h
      | none => rw [hself] at h; exact ⟨rfl, h⟩
    simp only [getFrom, hself, ih hds]

/-- And where no table has it, the metamethods answer. -/
theorem getFrom_asked {ds : List Nat} {self : Nat} (h : (self :: ds).findSome? (w.heap.tableGet · key) = none)
    (hd : ∀ h : SqHeap, h.tableDdelGet key = none) : getFrom vm key w self ds = askMetaMethods vm key w self ds := by
  induction ds generalizing self with
  | nil =>
    have hself : w.heap.tableGet self key = none := by simpa using h
    simp only [getFrom, hself, hd, Option.none_or, askMetaMethods]
  | cons d ds ih =>
    obtain ⟨hself, hds⟩ : w.heap.tableGet self key = none ∧ (d :: ds).findSome? (w.heap.tableGet · key) = none := by
      rw [List.findSome?_cons] at h
      cases hself : w.heap.tableGet self key with
      | some u => rw [hself] at h; cases h
      | none => rw [hself] at h; exact ⟨rfl, h⟩
    simp only [getFrom, hself, ih hds, askMetaMethods]
    rcases askMetaMethods vm key w d ds with ⟨_ | u, w₁⟩
    · simp only
      rcases callGetMetaMethod vm self key w₁ with ⟨_ | u, w₂⟩
      · simp only [hd]
      · rfl
    · rfl

/-! ### `BeginCall` -/

/-- The slot of a name in the root table. -/
def SqHeap.root (h : SqHeap) (name : Bytes) : Option SqValue := h.slot h.roottable (.string name)

/-- What the root table itself has under a name: a weak reference stands for what it
refers to. -/
def SqHeap.bound (h : SqHeap) (name : Bytes) : Option SqValue := h.tableGet h.roottable (.string name)

/-- What the delegates of the root table have. -/
def SqHeap.inherited (h : SqHeap) (name : Bytes) : Option SqValue :=
  (h.delegates h.roottable).findSome? (h.tableGet · (.string name))

/-- The root table has the name; or the first delegate that has it has no function there; or
none has it, no table has it by default, and the `_get` of delegates answer no function. -/
def LooksUp (vm : SqVm) (name : Bytes) (w : SqWorld) : Prop :=
  w.heap.bound name ≠ none ∨
    match w.heap.inherited name with
    | some v => v.isFunction = false
    | none => name ∉ tableDefaultDelegateFuncz ∧ ∀ v w',
        askMetaMethods vm (.string name) w w.heap.roottable (w.heap.delegates w.heap.roottable) = (some v, w') →
          v.isFunction = false

theorem findSome_root {h : SqHeap} (hroot : h.bound name = none) :
    (h.roottable :: h.delegates h.roottable).findSome? (h.tableGet · (.string name)) = h.inherited name := by
  rw [List.findSome?_cons, show h.tableGet h.roottable (.string name) = none from hroot]
  rfl

theorem beginCall_finds_iff :
    Finds (beginCall vm.delegating name c) ((c.world.heap.bound name).any SqValue.isFunction) ↔
      LooksUp vm name c.world := by
  have hlookup : lookupRoot vm.delegating name c.world
      = getFrom vm (.string name) c.world c.world.heap.roottable (c.world.heap.delegates c.world.heap.roottable) := rfl
  rw [beginCall_eq, LooksUp, hlookup]
  cases hroot : c.world.heap.bound name with
  | some v =>
    have hl := @getFrom_found vm (.string name) v c.world (c.world.heap.delegates c.world.heap.roottable)
      c.world.heap.roottable (by rw [List.findSome?_cons, show c.world.heap.tableGet _ _ = some v from hroot])
    cases hf : v.isFunction with
    | true => simp [hl, hf, finds_ok]
    | false => simp [hl, hf, finds_ok]
  | none =>
    have hsome := findSome_root hroot
    cases hi : c.world.heap.inherited name with
    | some v =>
      rw [hi] at hsome
      cases hf : v.isFunction with
      | true => simp [getFrom_found hsome, hf, finds_ok]
      | false => simp [getFrom_found hsome, hf, finds_ok]
    | none =>
      rw [hi] at hsome
      by_cases hd : name ∈ tableDefaultDelegateFuncz
      · have hdel : c.world.heap.tableDdelGet (.string name) =
          some (.nativeclosure (c.world.heap.tableDelegate name)) :=
          if_pos hd
        simp [getFrom_default hsome hdel, SqValue.isFunction, finds_ok, hd]
      · rw [getFrom_asked hsome fun _ => if_neg hd]
        rcases hask : askMetaMethods vm (.string name) c.world c.world.heap.roottable
          (c.world.heap.delegates c.world.heap.roottable) with ⟨_ | v, w⟩
        · simp [finds_ok, hd]
        · cases hf : v.isFunction with
          | true => simp [hf, finds_ok]
          | false => simp [hf, finds_ok, hd]

end Squirrel

/-! ## GameMonkey -/

namespace GameMonkey

variable {c : GMScriptContext} {name : Bytes}

def GmValue.isFunction : GmValue → Bool
  | .function _ => true
  | _ => false

theorem beginCall_finds : Finds (beginCall name c) (c.world.globals name).isFunction := by
  unfold beginCall
  cases c.world.globals name with
  | function r => exact finds_ok.mpr rfl
  | _ => exact finds_ok.mpr rfl

end GameMonkey

/-! ## OCaml -/

namespace Ocaml

variable {p : OcamlProcess} {name : Bytes}

theorem beginCall_finds_iff :
    Finds (beginCall name p) ((p.rt.named name).any Closure.isClosure) ↔
      ∀ v, p.rt.named name = some v → v.isClosure = true := by
  rw [beginCall, bind_ok (show getRt p = .ok (p.rt, p) from rfl)]
  cases p.rt.named name with
  | none => simp [pure_ok, finds_ok]
  | some v =>
    simp only [pure_ok, finds_ok, Option.any_some, Option.isSome_some]
    constructor
    · intro h v' hv
      cases hv
      exact h.symm
    · intro h
      exact (h v rfl).symm

end Ocaml

/-! ## The four backends -/

/-- `BeginCall` finds exactly the functions the environment binds: in GameMonkey always, in
OCaml where no other value is registered under the name, in Squirrel where neither the
delegates of the root table nor the members every table has hold a function of that name,
and in Lua from an empty stack, where `__index` leads to no function. -/
theorem beginCall_finds_bound (lua : Lua.LuaVm) (sq : Squirrel.SqVm) (name : Bytes) :
    (∀ c, Finds (Lua.beginCall lua.looping name c) (c.world.heap.global name).isFunction ↔ Lua.LooksUp lua name c) ∧
    (∀ c, Finds (Squirrel.beginCall sq.delegating name c) ((c.world.heap.bound name).any Squirrel.SqValue.isFunction) ↔
      Squirrel.LooksUp sq name c.world) ∧
    (∀ c, Finds (GameMonkey.beginCall name c) (c.world.globals name).isFunction) ∧
    ∀ p, Finds (Ocaml.beginCall name p) ((p.rt.named name).any Ocaml.Closure.isClosure) ↔
      ∀ v, p.rt.named name = some v → v.isClosure = true :=
  ⟨fun _ => Lua.beginCall_finds_iff, fun _ => Squirrel.beginCall_finds_iff, fun _ => GameMonkey.beginCall_finds,
    fun _ => Ocaml.beginCall_finds_iff⟩

/-- In a root table with nothing but `f`, the name `len` is found. -/
theorem beginCall_finds_delegate :
    let c := Squirrel.createContext (.binding [cstr "f"])
    c.world.heap.bound (cstr "len") = none ∧
      ∃ st c', Squirrel.beginCall (Squirrel.SqVm.ending none).delegating (cstr "len") c = .ok (some st, c') :=
  ⟨rfl, _, _, rfl⟩

end MultiScript
