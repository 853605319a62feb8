/-
The tables of primitives (`dynlink.c`): the loop that fills `caml_prim_table` and
`caml_prim_table_user_data` over the packed names of a unit, through a lookup that sets the
user data for registered functions alone; and how `interp.c` reads them. What the pointers of
the tables point to is left open.
-/
import MultiScript.Ocaml.Startup
import MultiScript.Ocaml.Interp

namespace MultiScript.Ocaml

open Run

/-- `caml_c_function`. -/
structure CFunctionEntry (P U : Type) where
  name : Bytes
  prim : P
  userData : Option U

section Build

variable {P U : Type} (builtins : List (Bytes × P)) (cFunctions : List (CFunctionEntry P U))

/-- `lookup_primitive(name, &prim_user_data)`: the primitive or `NULL`, and the variable
after it. No shared library is open. -/
def lookupPrimitiveInto (name : Bytes) (primUserData : Option U) : Option P × Option U :=
  match builtins.find? fun b => b.1 = name with
  | some b => (some b.2, primUserData)
  | none =>
    match cFunctions.find? fun f => f.name = name with
    | some f => (some f.prim, f.userData)
    | none => (none, primUserData)

/-- The string at `p`; behind the section is a zero. -/
def cString (p : Bytes) : Bytes := p.takeWhile (· ≠ 0)

/-- `p += strlen(p) + 1`. -/
def skipString (p : Bytes) : Bytes := p.drop ((cString p).length + 1)

theorem skipString_length {p : Bytes} (h : cString p ≠ []) : (skipString p).length < p.length := by
  have hne : p ≠ [] := by
    intro hp
    subst hp
    exact h rfl
  have hpos := List.length_pos_iff.mpr hne
  rw [skipString, List.length_drop]
  omega

/-- The loop of `caml_build_primitive_table`, from `p` on; `none` is the fatal error. -/
def buildLoop (p : Bytes) (primTable : List P) (primTableUserData : List (Option U)) :
    Option (List P × List (Option U)) :=
  if cString p = [] then some (primTable, primTableUserData)
  else
    match lookupPrimitiveInto builtins cFunctions (cString p) none with
    | (none, _) => none
    | (some prim, primUserData) => buildLoop (skipString p) (primTable ++ [prim]) (primTableUserData ++ [primUserData])
termination_by p.length
decreasing_by exact skipString_length ‹_›

/-- `caml_build_primitive_table`, from the section `PRIM`. -/
def camlBuildPrimitiveTable (reqPrims : Bytes) : Option (List P × List (Option U)) :=
  buildLoop builtins cFunctions reqPrims [] []

/-- The names that the loop comes to. -/
def requiredNames (p : Bytes) : List Bytes :=
  if cString p = [] then [] else cString p :: requiredNames (skipString p)
termination_by p.length
decreasing_by exact skipString_length ‹_›

/-- The code and the user data of one primitive: a built-in one of that name has none. -/
inductive OfPrimitive (name : Bytes) : P → Option U → Prop
  | builtin (prim : P) (h : (name, prim) ∈ builtins) : OfPrimitive name prim none
  | registered (f : CFunctionEntry P U) (h : f ∈ cFunctions) (hname : f.name = name)
      (hbuiltin : ∀ b ∈ builtins, b.1 ≠ name) : OfPrimitive name f.prim f.userData

/-! ## The names of a section -/

theorem cString_append {name : Bytes} (rest : Bytes) (h0 : 0 ∉ name) : cString (name ++ 0 :: rest) = name := by
  induction name with
  | nil => simp [cString]
  | cons b name ih =>
    rw [List.mem_cons, not_or] at h0
    obtain ⟨hb, hname⟩ := h0
    have hih := ih hname
    unfold cString at hih ⊢
    rw [List.cons_append, List.takeWhile_cons_of_pos (by simpa using Ne.symm hb), hih]

theorem skipString_append {name : Bytes} (rest : Bytes) (h0 : 0 ∉ name) : skipString (name ++ 0 :: rest) = rest := by
  rw [skipString, cString_append rest h0]
  have hsplit : name ++ 0 :: rest = (name ++ [0]) ++ rest := by simp
  rw [hsplit]
  exact List.drop_left' (by simp)

/-- Of names packed with a zero behind each, the loop comes to each. -/
theorem requiredNames_packed : ∀ {names : List Bytes}, (∀ name ∈ names, name ≠ [] ∧ 0 ∉ name) →
    requiredNames (names.flatMap fun name => name ++ [0]) = names
  | [], _ => by
    rw [requiredNames]
    simp [cString]
  | name :: names, h => by
    obtain ⟨hne, h0⟩ := h name List.mem_cons_self
    have hpacked : (name :: names).flatMap (fun name => name ++ [0])
        = name ++ 0 :: names.flatMap fun name => name ++ [0] := by simp
    rw [hpacked, requiredNames, cString_append _ h0, if_neg hne, skipString_append _ h0,
      requiredNames_packed fun n hn => h n (List.mem_cons_of_mem _ hn)]

/-! ## The loop -/

variable {builtins cFunctions}

/-- A name that is known gives the code and the user data of one primitive, where the
variable was `NULL` before. -/
theorem lookupPrimitiveInto_known {name : Bytes}
    (h : (∃ b ∈ builtins, b.1 = name) ∨ ∃ f ∈ cFunctions, f.name = name) :
    ∃ prim ud, lookupPrimitiveInto builtins cFunctions name none = (some prim, ud) ∧
      OfPrimitive builtins cFunctions name prim ud := by
  cases hb : builtins.find? fun b => b.1 = name with
  | some b =>
    have hname : b.1 = name := by simpa using List.find?_some hb
    refine ⟨b.2, none, by simp only [lookupPrimitiveInto, hb], .builtin b.2 ?_⟩
    rw [← hname]
    exact List.mem_of_find?_eq_some hb
  | none =>
    have hnot : ∀ b ∈ builtins, b.1 ≠ name := by
      intro b hmem
      simpa using List.find?_eq_none.mp hb b hmem
    cases hf : cFunctions.find? fun f => f.name = name with
    | some f =>
      have hname : f.name = name := by simpa using List.find?_some hf
      exact ⟨f.prim, f.userData, by simp only [lookupPrimitiveInto, hb, hf],
        .registered f (List.mem_of_find?_eq_some hf) hname hnot⟩
    | none =>
      rcases h with ⟨b, hmem, hname⟩ | ⟨f, hmem, hname⟩
      · exact absurd hname (hnot b hmem)
      · exact absurd hname (by simpa using List.find?_eq_none.mp hf f hmem)

/-- The two tables, entry by entry, for the names they were made for. -/
inductive Paired (builtins : List (Bytes × P)) (cFunctions : List (CFunctionEntry P U)) :
    List Bytes → List P → List (Option U) → Prop
  | nil : Paired builtins cFunctions [] [] []
  | cons {name names prim prims ud uds} (h : OfPrimitive builtins cFunctions name prim ud)
      (hs : Paired builtins cFunctions names prims uds) :
      Paired builtins cFunctions (name :: names) (prim :: prims) (ud :: uds)

theorem buildLoop_paired {p : Bytes}
    (h : ∀ name ∈ requiredNames p, (∃ b ∈ builtins, b.1 = name) ∨ ∃ f ∈ cFunctions, f.name = name) :
    ∃ prims uds, Paired builtins cFunctions (requiredNames p) prims uds ∧
      ∀ primTable userData, buildLoop builtins cFunctions p primTable userData =
        some (primTable ++ prims, userData ++ uds) := by
  induction p using requiredNames.induct with
  | case1 p hp =>
    rw [requiredNames, if_pos hp]
    refine ⟨[], [], .nil, fun primTable userData => ?_⟩
    rw [buildLoop, if_pos hp, List.append_nil, List.append_nil]
  | case2 p hp ih =>
    rw [requiredNames, if_neg hp] at h ⊢
    obtain ⟨hname, hrest⟩ := List.forall_mem_cons.mp h
    obtain ⟨prim, ud, hlookup, hof⟩ := lookupPrimitiveInto_known hname
    obtain ⟨prims, uds, hpaired, hloop⟩ := ih hrest
    refine ⟨prim :: prims, ud :: uds, .cons hof hpaired, fun primTable userData => ?_⟩
    rw [buildLoop, if_neg hp, hlookup]
    simp only [hloop, List.append_assoc, List.singleton_append]

theorem Paired.length {names : List Bytes} {prims : List P} {uds : List (Option U)}
    (h : Paired builtins cFunctions names prims uds) : prims.length = names.length ∧ uds.length = names.length := by
  induction h with
  | nil => exact ⟨rfl, rfl⟩
  | cons _ _ ih =>
    simp only [List.length_cons]
    omega

theorem Paired.get {names : List Bytes} {prims : List P} {uds : List (Option U)} {name : Bytes}
    (h : Paired builtins cFunctions names prims uds) : ∀ i : Nat, names[i]? = some name →
      ∃ prim ud, prims[i]? = some prim ∧ uds[i]? = some ud ∧ OfPrimitive builtins cFunctions name prim ud := by
  induction h with
  | nil => intro i hi; cases hi
  | cons hof _ ih =>
    intro i hi
    cases i with
    | zero =>
      cases hi
      exact ⟨_, _, rfl, rfl, hof⟩
    | succ i => exact ih i hi

end Build

/-! ## The tables of a context -/

/-- `caml_names_of_builtin_cprim` with `caml_builtin_cprim`. -/
def numbered (builtins : List Bytes) : List (Bytes × CPrimitive) :=
  builtins.map fun name => (name, .builtin (builtins.idxOf name))

def CFunction.entry (f : CFunction) : CFunctionEntry CPrimitive OcamlFunctionInfo :=
  { name := f.name, prim := f.prim, userData := some f.userData }

theorem find?_numbered (builtins : List Bytes) (name : Bytes) : (numbered builtins).find? (fun b => b.1 = name) =
    if name ∈ builtins then some (name, .builtin (builtins.idxOf name)) else none := by
  have hfind : ∀ l : List Bytes, (l.map fun n => (n, CPrimitive.builtin (builtins.idxOf n))).find?
    (fun b => b.1 = name) =
      if name ∈ l then some (name, .builtin (builtins.idxOf name)) else none := by
    intro l
    induction l with
    | nil => rfl
    | cons n l ih =>
      by_cases hn : n = name
      · subst hn
        simp
      · rw [List.map_cons, List.find?_cons_of_neg (by simpa using hn), ih]
        simp [Ne.symm hn]
  exact hfind builtins

theorem lookupPrimitive_eq (builtins : List Bytes) (cFunctions : List CFunction) (name : Bytes) :
    lookupPrimitive builtins cFunctions name =
      (let r := lookupPrimitiveInto (numbered builtins) (cFunctions.map CFunction.entry) name none
       r.1.map fun prim => (prim, r.2)) := by
  by_cases hb : name ∈ builtins
  · simp [lookupPrimitive, lookupPrimitiveInto, find?_numbered, hb]
  · have hfind : (cFunctions.map CFunction.entry).find? (fun f => f.name = name) =
        (cFunctions.find? fun f => f.name = name).map CFunction.entry := List.find?_map
    simp only [lookupPrimitive, lookupPrimitiveInto, find?_numbered, if_neg hb, hfind]
    cases cFunctions.find? fun f => f.name = name <;> rfl

theorem buildPrimitiveTable_cons (builtins : List Bytes) (cFunctions : List CFunction) (name : Bytes)
    (names : List Bytes) :
    buildPrimitiveTable builtins cFunctions (name :: names) =
      (lookupPrimitive builtins cFunctions name).bind fun x =>
        (buildPrimitiveTable builtins cFunctions names).map fun r => (x.1 :: r.1, x.2 :: r.2) := by
  simp only [buildPrimitiveTable, List.mapM_cons]
  cases lookupPrimitive builtins cFunctions name with
  | none => rfl
  | some x => cases names.mapM (lookupPrimitive builtins cFunctions) <;> rfl

/-- The tables of a context are filled by the loop. -/
theorem camlBuildPrimitiveTable_eq (builtins : List Bytes) (cFunctions : List CFunction) (reqPrims : Bytes) :
    camlBuildPrimitiveTable (numbered builtins) (cFunctions.map CFunction.entry) reqPrims =
      buildPrimitiveTable builtins cFunctions (requiredNames reqPrims) := by
  have hloop : ∀ p (primTable : List CPrimitive) (userData : List (Option OcamlFunctionInfo)),
      buildLoop (numbered builtins) (cFunctions.map CFunction.entry) p primTable userData =
        (buildPrimitiveTable builtins cFunctions (requiredNames p)).map fun r =>
        (primTable ++ r.1, userData ++ r.2) := by
    intro p
    induction p using requiredNames.induct with
    | case1 p hp =>
      intro primTable userData
      rw [buildLoop, if_pos hp, requiredNames, if_pos hp]
      simp [buildPrimitiveTable]
    | case2 p hp ih =>
      intro primTable userData
      rw [buildLoop, if_neg hp, requiredNames, if_neg hp, buildPrimitiveTable_cons, lookupPrimitive_eq]
      rcases lookupPrimitiveInto (numbered builtins) (cFunctions.map CFunction.entry)
        (cString p) none with ⟨_ | prim, ud⟩
      · rfl
      · simp only [ih, Option.map_some, Option.bind_some, Option.map_map, Function.comp_def, List.append_assoc,
          List.singleton_append]
  rw [camlBuildPrimitiveTable, hloop]
  simp

/-! ## The tables in the interpreter -/

section Call

variable {P U : Type}

/-- `Primitive(n)`. -/
def primitive (primTable : List P) (n : Word) : Option P := primTable[n.toNat]?

/-- `custom_caml_get_current_c_function_user_data`. -/
def customCamlGetCurrentCFunctionUserData (primTableUserData : List (Option U)) (s : Interp) : Option (Option U) :=
  primTableUserData[(s.rt.mem s.regs.pc).toNat]?

/-- `C_CALL1` to `C_CALL5`, and `C_CALLN`. -/
def Opcode.IsCCall : Opcode → Prop
  | .cCallN _ => True
  | .cCalln => True
  | _ => False

/-- The primitive has not gone back to the interpreter, and has not written to the code it was called from. -/
def InPrimitive (pc : Word) (es : List Event) : Prop :=
  ∀ e ∈ es, ∃ f, e = .effect f ∧ ∀ rt, (f rt).mem pc = rt.mem pc

variable {vm : Vm}

theorem run_seq {α β : Type} {x : Exec α} {k : α → Exec β} {m m' : Core} {a : α} (h : x.run m = (a, m')) :
    (x >>= k).run m = (k a).run m' := by
  rw [StateT.run_bind, h]
  rfl

/-- Reading the operands leaves the machine as it is. -/
theorem mapM_reads {α : Type} {f : α → Exec Word} (h : ∀ x m, ∃ v, (f x).run m = (v, m)) :
    ∀ (l : List α) (m : Core), ∃ vs, (l.mapM f).run m = (vs, m)
  | [], m => ⟨[], rfl⟩
  | x :: l, m => by
    obtain ⟨v, hv⟩ := h x m
    obtain ⟨vs, hvs⟩ := mapM_reads h l m
    refine ⟨v :: vs, ?_⟩
    rw [List.mapM_cons, run_seq hv, run_seq hvs]
    rfl

/-- A primitive is called with `pc` at the operand that names it. -/
theorem exec_cCall {op : Opcode} (h : op.IsCCall) (m : Core) : ∃ args drop m',
    (exec vm op).run m = (.cCall (m'.rt.mem m'.cpu.pc) args drop, m') := by
  have hreads : ∀ (i : Nat) (m : Core), ∃ v, (spAt (BitVec.ofNat 32 (i + 1))).run m = (v, m) := fun i m => ⟨_, rfl⟩
  cases op with
  | cCallN n =>
    obtain ⟨m₁, hsetup⟩ : ∃ m₁, setupForCCall.run m = ((), m₁) := ⟨_, rfl⟩
    obtain ⟨rest, hrest⟩ := mapM_reads hreads (List.range (n - 1)) m₁
    refine ⟨m₁.cpu.accu :: rest, BitVec.ofNat 32 (n - 1), m₁, ?_⟩
    show (cCallN n).run m = _
    rw [cCallN, run_seq hsetup, run_seq hrest]
    rfl
  | cCalln =>
    obtain ⟨nargs, m₁, hnargs⟩ : ∃ nargs m₁, operand.run m = (nargs, m₁) := ⟨_, _, rfl⟩
    obtain ⟨m₂, hpush⟩ : ∃ m₂, pushAccu.run m₁ = ((), m₂) := ⟨_, rfl⟩
    obtain ⟨m₃, hsetup⟩ : ∃ m₃, setupForCCall.run m₂ = ((), m₃) := ⟨_, rfl⟩
    obtain ⟨args, hargs⟩ := mapM_reads hreads (List.range (count nargs)) m₃
    refine ⟨args, nargs, m₃, ?_⟩
    show cCalln.run m = _
    rw [cCalln, run_seq hnargs, run_seq hpush, run_seq hsetup, run_seq hargs]
    rfl
  | _ => exact h.elim

/-- Where a `C_CALL` is at `pc`, the instruction calls the primitive whose number is the
word at `pc` then. -/
theorem instr_calls {op : Opcode} {s : Interp} {a : Activation} {rest : List Activation} (hacts : s.acts = a :: rest)
    (hcalling : a.calling = none) (hop : opcodes[(s.rt.mem s.regs.pc).toNat]? = some op) (h : op.IsCCall) :
    ∃ args s₁, step vm .file .instr s = .ok (.calls (s₁.rt.mem s₁.regs.pc) args, s₁) := by
  have hfetch : ∀ m : Core, operand.run m =
      (m.rt.mem m.cpu.pc, { m with cpu := { m.cpu with pc := m.cpu.pc + 4 } }) := fun m => rfl
  obtain ⟨args, drop, m', hexec⟩ := @exec_cCall vm op h { cpu := { s.regs with
    pc := s.regs.pc + 4, env := a.env, extraArgs := a.extraArgs }, rt := s.rt }
  have hinstr : (instruction vm).run { cpu := { s.regs with env := a.env, extraArgs := a.extraArgs }, rt := s.rt } =
      (.cCall (m'.rt.mem m'.cpu.pc) args drop, m') := by
    rw [instruction, run_seq (hfetch _)]
    simp only [hop, hexec]
  refine ⟨args, { regs := m'.cpu.toRegs, rt := m'.rt, acts := { a with
      env := m'.cpu.env, extraArgs := m'.cpu.extraArgs, savedPc := m'.cpu.pc, calling := some drop,
      regs := m'.cpu.toRegs, reentered := false } :: rest }, ?_⟩
  simp only [step, hacts, hcalling, Option.isSome_none, Bool.false_eq_true, if_false, hinstr, dispatch]

/-- While the primitive runs, `pc` stays where it is, and so does what it finds there. -/
theorem inPrimitive_operand : ∀ {es : List Event} {s s' : Interp} {os : List Obs}, InPrimitive s.regs.pc es →
    (interp vm .file).run es s = .ok (os, s') → s'.rt.mem s'.regs.pc = s.rt.mem s.regs.pc
  | [], _, _, _, _, hr => by cases hr; rfl
  | e :: es, s, s', os, hin, hr => by
    obtain ⟨o, s₁, os₁, hs, hrest, -⟩ := Machine.run_cons_inv hr
    obtain ⟨⟨f, rfl, hf⟩, hin'⟩ := List.forall_mem_cons.mp hin
    have hs₁ : s₁.regs = s.regs ∧ s₁.rt = f s.rt := by
      simp only [interp, step] at hs
      split at hs
      · cases hs
        exact ⟨rfl, rfl⟩
      · cases hs
    have hrun := inPrimitive_operand (s := s₁) (by rw [hs₁.1]; exact hin') hrest
    rw [hrun, hs₁.1, hs₁.2, hf]

end Call

/-- **Tables of primitives.** For names that are all known both tables have an entry for each,
and the entries at one place are the code and the user data of one primitive. So the primitive
that a `C_CALL` calls finds its own user data, as long as it has not gone back to the
interpreter. -/
theorem primitive_tables_paired {P U : Type} (builtins : List (Bytes × P)) (cFunctions : List (CFunctionEntry P U))
    (reqPrims : Bytes)
    (hknown : ∀ name ∈ requiredNames reqPrims, (∃ b ∈ builtins, b.1 = name) ∨ ∃ f ∈ cFunctions, f.name = name) :
    ∃ primTable userData, camlBuildPrimitiveTable builtins cFunctions reqPrims = some (primTable, userData) ∧
      primTable.length = (requiredNames reqPrims).length ∧ userData.length = (requiredNames reqPrims).length ∧
      (∀ (i : Nat) name, (requiredNames reqPrims)[i]? = some name → ∃ prim ud,
        primTable[i]? = some prim ∧ userData[i]? = some ud ∧ OfPrimitive builtins cFunctions name prim ud) ∧
      (∀ vm s a rest op, s.acts = a :: rest → a.calling = none →
        opcodes[(s.rt.mem s.regs.pc).toNat]? = some op → op.IsCCall →
        ∃ n args s₁, step vm .file .instr s = .ok (.calls n args, s₁) ∧
          ∀ prim, primitive primTable n = some prim → ∃ name ud, (requiredNames reqPrims)[n.toNat]? = some name ∧
            OfPrimitive builtins cFunctions name prim ud ∧
            ∀ es os s₂, InPrimitive s₁.regs.pc es → (interp vm .file).run es s₁ = .ok (os, s₂) →
              customCamlGetCurrentCFunctionUserData userData s₂ = some ud) := by
  obtain ⟨primTable, userData, hpaired, hloop⟩ := buildLoop_paired hknown
  have hbuild : camlBuildPrimitiveTable builtins cFunctions reqPrims = some (primTable, userData) := by
    rw [camlBuildPrimitiveTable, hloop, List.nil_append, List.nil_append]
  obtain ⟨hprims, huserData⟩ := hpaired.length
  refine ⟨primTable, userData, hbuild, hprims, huserData, fun i name => hpaired.get i, ?_⟩
  intro vm s a rest op hacts hcalling hop hcall
  obtain ⟨args, s₁, hstep⟩ := @instr_calls vm op s a rest hacts hcalling hop hcall
  refine ⟨_, args, s₁, hstep, fun prim hprim => ?_⟩
  have hlt : (s₁.rt.mem s₁.regs.pc).toNat < (requiredNames reqPrims).length := by
    rw [← hprims]
    exact (List.getElem?_eq_some_iff.mp hprim).1
  obtain ⟨prim', ud, hprim', hud, hof⟩ := hpaired.get _ (List.getElem?_eq_getElem hlt)
  obtain rfl : prim' = prim := Option.some.inj (hprim'.symm.trans hprim)
  refine ⟨_, ud, List.getElem?_eq_getElem hlt, hof, fun es os s₂ hin hrun => ?_⟩
  rw [customCamlGetCurrentCFunctionUserData, inPrimitive_operand hin hrun, hud]

/-- A registered function before a built-in primitive. -/
theorem primitive_tables_paired_two :
    let f : CFunctionEntry Nat Nat := { name := cstr "f", prim := 1, userData := some 7 }
    ∃ primTable userData, camlBuildPrimitiveTable [(cstr "caml_int", 0)] [f]
      (cstr "f" ++ [0] ++ cstr "caml_int" ++ [0]) =
      some (primTable, userData) ∧ primTable.length = 2 ∧ userData.length = 2 := by
  intro f
  have hnames : requiredNames (cstr "f" ++ [0] ++ cstr "caml_int" ++ [0]) = [cstr "f", cstr "caml_int"] := by
    have hpacked := @requiredNames_packed [cstr "f", cstr "caml_int"] (by decide)
    simpa using hpacked
  obtain ⟨primTable, userData, hbuild, hprims, huserData, -⟩ := primitive_tables_paired [(cstr "caml_int", 0)] [f]
    (cstr "f" ++ [0] ++ cstr "caml_int" ++ [0]) (by rw [hnames]; decide)
  rw [hnames] at hprims huserData
  exact ⟨primTable, userData, hbuild, hprims, huserData⟩

end MultiScript.Ocaml
