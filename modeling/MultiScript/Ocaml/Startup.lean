/-
What the OCaml runtime keeps for the units it has loaded: `custom_startup.c`,
`dynlink.c` and the named values of `callback.c`. There is one runtime in a
process, and the tables the interpreter works with are variables of it:
`custom_caml_load_code` and `custom_caml_run_code` set them, and nothing sets
them back.
-/
import MultiScript.Interface
import Mathlib.Logic.Function.Basic

namespace MultiScript.Ocaml

/-- `OcamlFunctionInfo`: a registered function and, by its number, the context it
is registered in. -/
structure OcamlFunctionInfo where
  context : Nat
  desc : FunctionDesc
deriving DecidableEq, Repr

/-- The address of a C primitive: one of the runtime, by its index in
`caml_builtin_cprim`, or `OcamlFunctionCallback0Args` to `2Args`. -/
inductive CPrimitive
  | builtin (i : Nat)
  | functionCallback (numArgs : Nat)
deriving DecidableEq, Repr

/-- `caml_c_function`. -/
structure CFunction where
  name : Bytes
  prim : CPrimitive
  userData : OcamlFunctionInfo
deriving DecidableEq, Repr

/-- `caml_global_data`, by the block it is, `caml_prim_table` and
`caml_prim_table_user_data`. -/
structure Tables where
  globalData : Nat
  primTable : List CPrimitive
  primTableUserData : List (Option OcamlFunctionInfo)
deriving DecidableEq, Repr

/-- A file of bytecode: its code and data, and the section `PRIM`. -/
structure Bytecode where
  content : Nat
  reqPrims : List Bytes
deriving DecidableEq, Repr

/-- A closure: the block of code it points into, and where. A script can register any
value under a name; one that is no closure has `isClosure` false. -/
structure Closure where
  code : Nat
  entry : Nat
  isClosure : Bool := true
deriving DecidableEq, Repr

/-- The runtime. A block of code is numbered by its place in `loaded`, which keeps
what was loaded with the tables that were built for it; the source keeps them
only as long as `ExecuteString` runs. -/
structure CamlRuntime where
  tables : Tables
  startCode : Nat
  loaded : List (Bytecode × Tables)
  cFunctions : List CFunction
  named : Bytes → Option Closure
  heap : Nat

/-- `caml_code`. -/
structure CamlCode where
  tables : Tables
  startCode : Nat
deriving DecidableEq, Repr

/-- `lookup_primitive`: the built-in ones first, then the first registered under
the name. No shared library is open. -/
def lookupPrimitive (builtins : List Bytes) (cFunctions : List CFunction) (name : Bytes) :
    Option (CPrimitive × Option OcamlFunctionInfo) :=
  if name ∈ builtins then some (.builtin (builtins.idxOf name), none)
  else (cFunctions.find? fun f => f.name = name).map fun f => (f.prim, some f.userData)

/-- `caml_build_primitive_table`, `none` where a name is unknown. -/
def buildPrimitiveTable (builtins : List Bytes) (cFunctions : List CFunction) (reqPrims : List Bytes) :
    Option (List CPrimitive × List (Option OcamlFunctionInfo)) :=
  (reqPrims.mapM (lookupPrimitive builtins cFunctions)).map List.unzip

/-- `custom_caml_load_code` on a file that can be read; `none` is a fatal error. -/
def customCamlLoadCode (builtins : List Bytes) (file : Bytecode) (rt : CamlRuntime) :
    Option (CamlCode × CamlRuntime) :=
  (buildPrimitiveTable builtins rt.cFunctions file.reqPrims).map fun prims =>
    let startCode := rt.loaded.length
    let tables := { globalData := startCode, primTable := prims.1, primTableUserData := prims.2 }
    ({ tables, startCode }, { rt with tables, startCode, loaded := rt.loaded ++ [(file, tables)] })

/-- `custom_caml_run_code`, up to the entry of the interpreter. -/
def customCamlRunCode (code : CamlCode) (rt : CamlRuntime) : CamlRuntime :=
  { rt with tables := code.tables, startCode := code.startCode }

/-- `custom_caml_register_c_function`. -/
def customCamlRegisterCFunction (f : CFunction) (rt : CamlRuntime) : CamlRuntime :=
  { rt with cFunctions := rt.cFunctions ++ [f] }

/-- `caml_register_named_value`. -/
def camlRegisterNamedValue (name : Bytes) (v : Closure) (rt : CamlRuntime) : CamlRuntime :=
  { rt with named := Function.update rt.named name (some v) }

/-- `custom_caml_init`: a new heap and stack and no registered functions. The
named values and the tables stay. -/
def customCamlInit (rt : CamlRuntime) : CamlRuntime := { rt with cFunctions := [], heap := 0 }

/-- The runtime before the first `custom_caml_init`. -/
def CamlRuntime.initial : CamlRuntime where
  tables := { globalData := 0, primTable := [], primTableUserData := [] }
  startCode := 0
  loaded := []
  cFunctions := []
  named _ := none
  heap := 0

variable {builtins : List Bytes} {file : Bytecode} {rt rt' : CamlRuntime} {code : CamlCode}

/-- Loading numbers the new block, and makes its tables the current ones. -/
theorem customCamlLoadCode_some (h : customCamlLoadCode builtins file rt = some (code, rt')) :
    code.startCode = rt.loaded.length ∧ code.tables.globalData = rt.loaded.length ∧
      rt' = { rt with
        tables := code.tables, startCode := code.startCode, loaded := rt.loaded ++ [(file, code.tables)] } := by
  simp only [customCamlLoadCode, Option.map_eq_some_iff] at h
  obtain ⟨prims, -, hp⟩ := h
  cases hp
  exact ⟨rfl, rfl, rfl⟩

end MultiScript.Ocaml
