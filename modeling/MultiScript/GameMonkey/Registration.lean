/-
What registration does to a GameMonkey machine. A class is a user type with its
variables, and a global function that constructs.
-/
import MultiScript.GameMonkey.Context

namespace MultiScript.GameMonkey

open Act

variable {c : GMScriptContext} {w w' : GmWorld}

/-- The functions of a class, set in its type. -/
def GmWorld.registerTypeLibrary (w : GmWorld) (type : Nat) (entries : List (Bytes × GmCFunction × HostPtr)) : GmWorld :=
  entries.foldl (fun w entry => w.registerTypeFunction type entry) w

/-- `RegisterUserClass`, but for the list of classes. -/
def GmWorld.registerClass (w : GmWorld) (desc : ClassDesc) : GmWorld :=
  ((w.createUserType desc).registerLibraryFunction desc.name .classConstructorCallback
    (.classInfo desc)).registerTypeLibrary w.types (gmMethods desc)

theorem registerUserClass_ok {desc : ClassDesc} (hctor : desc.constructor.isSome = true)
    (hdtor : desc.destructor.isSome = true) :
    registerUserClass desc c = .ok (true, { c with world := { c.world.registerClass desc with
      classes := (c.world.registerClass desc).classes ++ [desc] } }) := by
  have hassert : ∀ text c, gmAssert true text c = .ok ((), c) := fun _ _ => rfl
  rw [registerUserClass, hctor, hdtor, bind_ok (hassert _ _), bind_ok (hassert _ _)]
  rfl

/-! ## What is left as it was -/

/-- The world `w'` has all of `w`, but for the globals `names`, and the lists of
functions and classes. -/
structure GmWorld.Keeps (w : GmWorld) (names : List Bytes) (w' : GmWorld) : Prop where
  next : w.next ≤ w'.next
  types : w.types ≤ w'.types
  globals : ∀ s, s ∉ names → w'.globals s = w.globals s
  function : ∀ r, r < w.next → w'.function r = w.function r
  user : w'.user = w.user
  typeVariables : ∀ t s, t < w.types → w'.typeVariables t s = w.typeVariables t s
  gmTypeId : ∀ desc, desc.name ∉ names → w'.gmTypeId desc = w.gmTypeId desc

namespace GmWorld.Keeps

variable {names names' : List Bytes} {w'' : GmWorld}

theorem refl (w : GmWorld) (names : List Bytes) : w.Keeps names w :=
  ⟨Nat.le_refl _, Nat.le_refl _, fun _ _ => rfl, fun _ _ => rfl, rfl, fun _ _ _ => rfl,
    fun _ _ => rfl⟩

theorem trans (h₁ : w.Keeps names w') (h₂ : w'.Keeps names' w'') : w.Keeps (names ++ names') w'' where
  next := Nat.le_trans h₁.next h₂.next
  types := Nat.le_trans h₁.types h₂.types
  globals s hs := by
    rw [h₂.globals s fun hm => hs (List.mem_append_right _ hm), h₁.globals s fun hm => hs (List.mem_append_left _ hm)]
  function r hr := (h₂.function r (Nat.lt_of_lt_of_le hr h₁.next)).trans (h₁.function r hr)
  user := h₂.user.trans h₁.user
  typeVariables t s ht := (h₂.typeVariables t s (Nat.lt_of_lt_of_le ht h₁.types)).trans (h₁.typeVariables t s ht)
  gmTypeId desc hd := by
    rw [h₂.gmTypeId desc fun hm => hd (List.mem_append_right _ hm),
      h₁.gmTypeId desc fun hm => hd (List.mem_append_left _ hm)]

theorem newFunction {f : GmCFunction} {p : HostPtr} (hk : w.Keeps names w') : w.Keeps names (w'.newFunction f p) where
  next := Nat.le_succ_of_le hk.next
  types := hk.types
  globals := hk.globals
  function r hr := by
    have hne : r ≠ w'.next := Nat.ne_of_lt (Nat.lt_of_lt_of_le hr hk.next)
    simp only [GmWorld.newFunction, if_neg hne]
    exact hk.function r hr
  user := hk.user
  typeVariables := hk.typeVariables
  gmTypeId := hk.gmTypeId

theorem registerLibraryFunction {name : Bytes} {f : GmCFunction} {p : HostPtr} (hk : w.Keeps names w')
    (hn : name ∈ names) : w.Keeps names (w'.registerLibraryFunction name f p) := by
  have hf := hk.newFunction (f := f) (p := p)
  refine ⟨hf.next, hf.types, fun s hs => ?_, hf.function, hf.user, hf.typeVariables, hf.gmTypeId⟩
  have hne : s ≠ name := fun he => hs (he ▸ hn)
  simp only [GmWorld.registerLibraryFunction, if_neg hne]
  exact hk.globals s hs

theorem registerTypeFunction {type : Nat} {entry : Bytes × GmCFunction × HostPtr} (hk : w.Keeps names w')
    (ht : w.types ≤ type) : w.Keeps names (w'.registerTypeFunction type entry) := by
  have hf := hk.newFunction (f := entry.2.1) (p := entry.2.2)
  refine ⟨hf.next, hf.types, hf.globals, hf.function, hf.user, fun t s hlt => ?_, hf.gmTypeId⟩
  have hne : ¬ (t = type ∧ s = entry.1) := fun hx => by omega
  simp only [GmWorld.registerTypeFunction, if_neg hne]
  exact hk.typeVariables t s hlt

theorem registerTypeLibrary {type : Nat} (ht : w.types ≤ type) : ∀ (entries : List (Bytes × GmCFunction × HostPtr))
    {w' : GmWorld}, w.Keeps names w' → w.Keeps names (w'.registerTypeLibrary type entries)
  | [], _, hk => hk
  | _ :: entries, _, hk => registerTypeLibrary ht entries (hk.registerTypeFunction ht)

theorem createUserType {desc : ClassDesc} (hk : w.Keeps names w') (hn : desc.name ∈ names) :
    w.Keeps names (w'.createUserType desc) := by
  refine ⟨hk.next, Nat.le_succ_of_le hk.types, hk.globals, hk.function, hk.user, fun t s hlt => ?_, fun d hd => ?_⟩
  · have hne : t ≠ w'.types := Nat.ne_of_lt (Nat.lt_of_lt_of_le hlt hk.types)
    simp only [GmWorld.createUserType, if_neg hne]
    exact hk.typeVariables t s hlt
  · have hne : d ≠ desc := fun he => hd (he ▸ hn)
    simp only [GmWorld.createUserType, if_neg hne]
    exact hk.gmTypeId d hd

end GmWorld.Keeps

theorem registerClass_keeps (w : GmWorld) (desc : ClassDesc) : w.Keeps [desc.name] (w.registerClass desc) := by
  have hmem : desc.name ∈ [desc.name] := List.mem_singleton_self _
  refine GmWorld.Keeps.registerTypeLibrary (Nat.le_refl _) _ ?_
  exact ((GmWorld.Keeps.refl w _).createUserType hmem).registerLibraryFunction hmem

/-- Registering a function is the same in the machine. -/
theorem registerFunction_keeps (w : GmWorld) (desc : FunctionDesc) :
    w.Keeps [desc.name] (w.registerLibraryFunction desc.name .functionCallback (.functionInfo desc)) :=
  (GmWorld.Keeps.refl w _).registerLibraryFunction (List.mem_singleton_self _)

theorem registerFunction_ok {desc : FunctionDesc} :
    registerFunction desc c = .ok (true, { c with world := { c.world.registerLibraryFunction desc.name .functionCallback
      (.functionInfo desc) with functions := c.world.functions ++ [desc] } }) := rfl

/-! ## What a class is -/

/-- The value is a function object of the backend. -/
def GmWorld.IsFunction (w : GmWorld) (v : GmValue) (f : GmCFunction) (userData : HostPtr) : Prop :=
  ∃ r, v = .function r ∧ r < w.next ∧ w.function r = .backend f userData

/-- What a class has under a name: the entry registered last. -/
def member (desc : ClassDesc) (name : Bytes) : Option (GmCFunction × HostPtr) :=
  ((gmMethods desc).reverse.find? (·.1 == name)).map (·.2)

/-- A class is found: its constructor under its name, and its functions in its type. -/
structure GmWorld.Registered (w : GmWorld) (desc : ClassDesc) : Prop where
  constructor : w.IsFunction (w.globals desc.name) .classConstructorCallback (.classInfo desc)
  type : w.gmTypeId desc < w.types
  members : ∀ name, match member desc name with
    | some (f, p) => w.IsFunction (w.typeVariables (w.gmTypeId desc) name) f p
    | none => w.typeVariables (w.gmTypeId desc) name = .null

theorem GmWorld.IsFunction.mono {v : GmValue} {f : GmCFunction} {p : HostPtr} (hf : w.IsFunction v f p)
    (hn : w.next ≤ w'.next) (hr : ∀ r, r < w.next → w'.function r = w.function r) : w'.IsFunction v f p := by
  obtain ⟨r, hv, hlt, hfun⟩ := hf
  exact ⟨r, hv, Nat.lt_of_lt_of_le hlt hn, (hr r hlt).trans hfun⟩

section TypeLibrary

variable {type : Nat} {entries : List (Bytes × GmCFunction × HostPtr)} {name : Bytes}

theorem registerTypeLibrary_cons {entry : Bytes × GmCFunction × HostPtr} :
    w.registerTypeLibrary type (entry :: entries) = (w.registerTypeFunction type entry).registerTypeLibrary
      type entries := rfl

/-- The functions of a type go nowhere else. -/
theorem registerTypeLibrary_frame : (w.registerTypeLibrary type entries).globals = w.globals ∧
    (w.registerTypeLibrary type entries).types = w.types ∧
    (w.registerTypeLibrary type entries).gmTypeId = w.gmTypeId ∧
    (w.registerTypeLibrary type entries).classes = w.classes ∧
    (w.registerTypeLibrary type entries).functions = w.functions := by
  induction entries generalizing w with
  | nil => exact ⟨rfl, rfl, rfl, rfl, rfl⟩
  | cons entry entries ih => exact ih

theorem registerTypeLibrary_function : w.next ≤ (w.registerTypeLibrary type entries).next ∧
    ∀ r, r < w.next → (w.registerTypeLibrary type entries).function r = w.function r := by
  induction entries generalizing w with
  | nil => exact ⟨Nat.le_refl _, fun _ _ => rfl⟩
  | cons entry entries ih =>
    obtain ⟨hn, hf⟩ := ih (w := w.registerTypeFunction type entry)
    refine ⟨Nat.le_trans (Nat.le_succ _) hn, fun r hr => (hf r (Nat.lt_succ_of_lt hr)).trans ?_⟩
    simp [GmWorld.registerTypeFunction, GmWorld.newFunction, Nat.ne_of_lt hr]

/-- Of two entries with one name the later stays. -/
theorem registerTypeLibrary_variable :
    match entries.reverse.find? (·.1 == name) with
    | some x => (w.registerTypeLibrary type entries).IsFunction
        ((w.registerTypeLibrary type entries).typeVariables type name) x.2.1 x.2.2
    | none => (w.registerTypeLibrary type entries).typeVariables type name = w.typeVariables type name := by
  induction entries generalizing w with
  | nil => rfl
  | cons entry entries ih =>
    have hrest := ih (w := w.registerTypeFunction type entry)
    rw [← registerTypeLibrary_cons] at hrest
    rw [List.reverse_cons, List.find?_append]
    cases hfind : entries.reverse.find? (·.1 == name) with
    | some y =>
      rw [hfind] at hrest
      simpa using hrest
    | none =>
      rw [hfind] at hrest
      simp only at hrest
      by_cases hx : entry.1 = name
      · have hone : List.find? (·.1 == name) [entry] = some entry := by simp [hx]
        simp only [hone, Option.or_some, Option.getD_none]
        have hf : (w.registerTypeFunction type entry).IsFunction (.function w.next) entry.2.1 entry.2.2 :=
          ⟨w.next, rfl, Nat.lt_succ_self _, by simp [GmWorld.registerTypeFunction, GmWorld.newFunction]⟩
        rw [hrest, show (w.registerTypeFunction type entry).typeVariables type name = .function w.next by
          simp [GmWorld.registerTypeFunction, hx]]
        obtain ⟨hn, hr⟩ := @registerTypeLibrary_function (w.registerTypeFunction type entry) type entries
        exact hf.mono hn hr
      · have hone : List.find? (·.1 == name) [entry] = none := by simp [hx]
        simp only [hone, Option.or_none]
        rw [hrest]
        have hne : ¬ name = entry.1 := fun he => hx he.symm
        simp [GmWorld.registerTypeFunction, hne]

end TypeLibrary

theorem registerClass_registered (w : GmWorld) (desc : ClassDesc) : (w.registerClass desc).Registered desc := by
  generalize hw : (w.createUserType desc).registerLibraryFunction desc.name .classConstructorCallback
    (.classInfo desc) = w₁
  have htype : w₁.gmTypeId desc = w.types := by simp [← hw, GmWorld.registerLibraryFunction, GmWorld.newFunction,
    GmWorld.createUserType]
  have htypes : w₁.types = w.types + 1 := by rw [← hw]; rfl
  have hctor : w₁.IsFunction (w₁.globals desc.name) .classConstructorCallback (.classInfo desc) := by
    refine ⟨w.next, ?_, ?_, ?_⟩ <;>
      simp [← hw, GmWorld.registerLibraryFunction, GmWorld.newFunction, GmWorld.createUserType]
  have hempty : ∀ name, w₁.typeVariables w.types name = .null := by
    intro name
    simp [← hw, GmWorld.registerLibraryFunction, GmWorld.newFunction, GmWorld.createUserType]
  have hclass : w.registerClass desc = w₁.registerTypeLibrary w.types (gmMethods desc) := by rw [← hw]; rfl
  obtain ⟨hg, hts, hid, -, -⟩ := @registerTypeLibrary_frame w₁ w.types (gmMethods desc)
  obtain ⟨hn, hr⟩ := @registerTypeLibrary_function w₁ w.types (gmMethods desc)
  rw [hclass]
  refine ⟨?_, ?_, fun name => ?_⟩
  · rw [hg]
    exact hctor.mono hn hr
  · rw [hid, hts, htype, htypes]
    exact Nat.lt_succ_self _
  · rw [hid, htype]
    have hvar := @registerTypeLibrary_variable w₁ w.types (gmMethods desc) name
    unfold member
    cases hfind : (gmMethods desc).reverse.find? (·.1 == name) with
    | some x =>
      rw [hfind] at hvar
      exact hvar
    | none =>
      rw [hfind] at hvar
      exact hvar.trans (hempty name)

/-- A class stays what it is. -/
theorem GmWorld.Registered.keeps {desc : ClassDesc} {names : List Bytes} (hr : w.Registered desc)
    (hk : w.Keeps names w')
    (hname : desc.name ∉ names) : w'.Registered desc where
  constructor := by
    rw [hk.globals _ hname]
    exact hr.constructor.mono hk.next hk.function
  type := by
    rw [hk.gmTypeId _ hname]
    exact Nat.lt_of_lt_of_le hr.type hk.types
  members name := by
    have hmem := hr.members name
    rw [hk.gmTypeId _ hname, hk.typeVariables _ name hr.type]
    cases hd : member desc name with
    | some x =>
      rw [hd] at hmem
      exact GmWorld.IsFunction.mono hmem hk.next hk.function
    | none =>
      rw [hd] at hmem
      exact hmem

end MultiScript.GameMonkey
