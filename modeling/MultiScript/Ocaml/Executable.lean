/-
A file of bytecode as `custom_caml_load_code` reads it (`exec.h`, `custom_startup.c`,
`fix_code.c`): sections of data, behind them a table of their names and lengths, and a trailer
at the end of the file. Sections are looked for from the end, so what stands before the first one
does not matter. Calls of `malloc` that can succeed do.
-/
import MultiScript.Ocaml.Marshal
import MultiScript.Ocaml.Primitives

namespace MultiScript.Ocaml.Executable

open Act File Marshal

/-- `struct section_descriptor`. -/
structure SectionDescriptor where
  name : Bytes
  len : UInt32
deriving DecidableEq, Repr

/-- `EXEC_MAGIC`. -/
def execMagic : Bytes := cstr "Caml1999X008"

/-- `TRAILER_SIZE`. -/
def trailerSize : Nat := 4 + 12

/-- What is done with the descriptor of the file. -/
abbrev LoadM := IoM (Descriptor UInt8)

/-- `lseek(fd, ofs, SEEK_END)`; whether it was possible is not looked at. -/
def lseekEnd (ofs : Int) : LoadM Unit := modify fun fd => (fd.seekEnd ofs).2

/-- `read(fd, p, n)`. -/
def readFile (n : Nat) : LoadM (Option Bytes) := fun fd => .ok ((fd.read n).1.toOption, (fd.read n).2)

/-- A read that is to give so many bytes; the fatal errors are told without their arguments. -/
def readAll (n : Nat) (msg : String) : LoadM Bytes := do
  let p ← readFile n
  if p.map List.length = some n then return p.getD [] else fatal msg

/-- `read_trailer`: the number of sections, or `BAD_BYTECODE`. -/
def readTrailer : LoadM (Option UInt32) := do
  lseekEnd (-trailerSize)
  let p ← readFile trailerSize
  if p.map List.length = some trailerSize ∧ (p.getD []).drop 4 = execMagic
    then return some (bigEndian ((p.getD []).take 4))
  else return none

inductive OpenError
  | fileNotFound
  | badBytecode
deriving DecidableEq, Repr

/-- `caml_attempt_open`, where the file can be opened or not: `trail`, without the sections. -/
def camlAttemptOpen (opens doOpenScript : Bool) : LoadM (Except OpenError UInt32) := do
  if opens then do
    let buf ← if doOpenScript then pure (some [0, 0]) else readFile 2
    if (buf.getD []).length < 2 ∨ buf = some (cstr "#!") then return .error .badBytecode
    else
      match ← readTrailer with
      | some numSections => return .ok numSections
      | none => return .error .badBytecode
  else return .error .fileNotFound

/-- The table of contents. -/
def sectionTable : Nat → Bytes → List SectionDescriptor
  | 0, _ => []
  | n + 1, p => { name := p.take 4, len := bigEndian ((p.drop 4).take 4) } :: sectionTable n (p.drop 8)

/-- `caml_read_section_descriptors`. -/
def camlReadSectionDescriptors (numSections : UInt32) : LoadM (List SectionDescriptor) := do
  -- `toc_size` is an `int`, and too small where this overflows
  if 2 ^ 28 ≤ numSections.toNat then wild
  else do
    let tocSize := numSections.toNat * 8
    lseekEnd (-(trailerSize + tocSize))
    let p ← readAll tocSize "Fatal error: cannot read section table\n"
    return sectionTable numSections.toNat p

/-- The loop of `caml_seek_optional_section`, from the last section on. -/
def seekLoop (name : Bytes) : List SectionDescriptor → Word → LoadM Int
  | [], _ => return -1
  | d :: ds, ofs =>
    if d.name = name then do
      lseekEnd (-(ofs + d.len.toBitVec).toInt)
      return d.len.toBitVec.toInt
    else seekLoop name ds (ofs + d.len.toBitVec)

/-- `caml_seek_optional_section`. -/
def camlSeekOptionalSection (sections : List SectionDescriptor) (name : String) : LoadM Int :=
  seekLoop (cstr name) sections.reverse (BitVec.ofNat 32 (trailerSize + sections.length * 8))

/-- `caml_seek_section`. -/
def camlSeekSection (sections : List SectionDescriptor) (name : String) : LoadM Int := do
  let len ← camlSeekOptionalSection sections name
  if len = -1 then fatal "Fatal_error: section `%s' is missing\n" else return len

/-- `read_section`. -/
def readSection (sections : List SectionDescriptor) (name : String) : LoadM (Option Bytes) := do
  let len ← camlSeekOptionalSection sections name
  if len = -1 then return none
  -- there is no memory for half of what can be addressed
  else if len < 0 then raise .outOfMemory
  else return some (← readAll len.toNat "Fatal error: error reading section %s\n")

/-- `caml_load_code`: `caml_start_code`. -/
def camlLoadCode (len : Int) : LoadM Bytes :=
  if len < 0 then raise .outOfMemory else readAll len.toNat "Fatal error: truncated bytecode file.\n"

/-- A channel is opened on the file and closed again. -/
def withChannel {α : Type} (m : IoM InputChannel α) : LoadM α := fun fd =>
  (m (camlOpenDescriptorIn fd true)).map (fun r => (r.1, r.2.fd)) |>.mapError fun f => (f.1, f.2.fd)

/-- `caml_code`, and the heap after it. -/
structure Loaded (P U : Type) where
  startCode : Bytes
  primTable : List P
  primTableUserData : List (Option U)
  globalData : Value
  heap : Heap

section Load

variable {P U : Type} (builtins : List (Bytes × P)) (cFunctions : List (CFunctionEntry P U))
    (env : Bytes → Env) (heap : Heap)

/-- `custom_caml_load_code`, with the code and the sections found; `env` has the checksum of the
code. -/
def loadSections (sections : List SectionDescriptor) : LoadM (Loaded P U) := do
  let code ← camlLoadCode (← camlSeekSection sections "CODE")
  let _ ← readSection sections "DLPT"
  let _ ← readSection sections "DLLS"
  match ← readSection sections "PRIM" with
  | none => fatal "Fatal error: no PRIM section\n"
  | some reqPrims =>
    match camlBuildPrimitiveTable builtins cFunctions reqPrims with
    | none => fatal "Fatal error: unknown C primitive `%s'\n"
    | some (primTable, primTableUserData) => do
      let _ ← camlSeekSection sections "DATA"
      let (globalData, heap) ← withChannel (camlInputVal (env code) heap [])
      return { startCode := code, primTable, primTableUserData, globalData, heap }

/-- `custom_caml_load_code`. -/
def customCamlLoadFile (opens : Bool) : LoadM (Loaded P U) := do
  match ← camlAttemptOpen opens true with
  | .error .fileNotFound => fatal "Fatal error: cannot find file %s\n"
  | .error .badBytecode => fatal "Fatal error: the file %s is not a bytecode executable file\n"
  | .ok numSections => do
    let sections ← camlReadSectionDescriptors numSections
    loadSections builtins cFunctions env heap sections

end Load

/-! ## A file of sections -/

/-- A section, with its data. -/
structure Section where
  name : Bytes
  data : Bytes
deriving DecidableEq, Repr

def Section.descriptor (s : Section) : SectionDescriptor := { name := s.name, len := .ofNat s.data.length }

/-- A descriptor, as it stands in the table of contents. -/
def Section.entry (s : Section) : Bytes := s.name ++ wordBytes (.ofNat s.data.length)

/-- What is written at the end of a file of so many sections. -/
def trailer (numSections : Nat) : Bytes := wordBytes (.ofNat numSections) ++ execMagic

/-- A file: what stands before the sections, their data, the table and the trailer. -/
def linked (junk : Bytes) (sections : List Section) : Bytes :=
  junk ++ sections.flatMap Section.data ++ sections.flatMap Section.entry ++ trailer sections.length

/-- The data of the last section of a name. -/
def lastNamed (sections : List Section) (name : String) : Option Bytes :=
  (sections.reverse.find? fun s => s.name = cstr name).map Section.data

/-! ## Reading the file -/

/-- The descriptor is on a file of this content; calls take less than they could or fail only
where `bad` holds. -/
structure OnFile (content : Bytes) (bad : Prop) (fd : Descriptor UInt8) : Prop where
  content : fd.content = content
  replies : fd.replies ≠ [] → bad

variable {content p : Bytes} {bad : Prop} {fd : Descriptor UInt8}

/-- A part of a file is found by what is behind it. -/
theorem slice_back (before p behind : Bytes) :
    slice (before ++ p ++ behind) ((before ++ p ++ behind).length - (p ++ behind).length) p.length = p := by
  have hpos : (before ++ p ++ behind).length - (p ++ behind).length = before.length := by
    rw [List.append_assoc, List.length_append, Nat.add_sub_cancel]
  rw [hpos, slice_append]

theorem lseekEnd_eq (hfd : OnFile content bad fd) {k : Nat} (hk : k ≤ content.length) :
    lseekEnd (-(k : Int)) fd = .ok ((), { fd with pos := content.length - k }) := by
  have hseek : fd.seekEnd (-(k : Int)) = (some (content.length - k), { fd with pos := content.length - k }) := by
    have hto : ((content.length : Int) + -(k : Int)).toNat = content.length - k := by omega
    rw [Descriptor.seekEnd, Descriptor.seekSet, hfd.content, if_pos (by omega), hto]
  show Except.ok ((), (fd.seekEnd (-(k : Int))).2) = _
  rw [hseek]

theorem OnFile.seek (hfd : OnFile content bad fd) (pos : Nat) : OnFile content bad { fd with pos } :=
  ⟨hfd.content, hfd.replies⟩

/-- What a read gives that is to be `p`. -/
theorem readFile_ends (hfd : OnFile content bad fd) (hp : slice content fd.pos p.length = p) :
    Ends (readFile p.length) fd (fun r fd' => OnFile content bad fd' ∧ (r = some p ∨ bad) ∧ ∀ q, r = some q →
      q.length = p.length → q = p)
      Never := by
  have htook := fd.read_took p.length
  show OnFile content bad (fd.read p.length).2 ∧ ((fd.read p.length).1.toOption = some p ∨ bad) ∧
    ∀ q, (fd.read p.length).1.toOption = some q → q.length = p.length → q = p
  have hfull : fd.replies = [] → (fd.read p.length).1 = .ok p := by
    intro hnone
    have hreply : fd.reply p.length = .ok p.length := by rw [Descriptor.reply, hnone]
    rw [Descriptor.read, hreply, hfd.content]
    exact congrArg Except.ok hp
  have hgood : (fd.read p.length).1.toOption = some p ∨ bad := by
    by_cases hnone : fd.replies = []
    · rw [hfull hnone]
      exact .inl rfl
    · exact .inr (hfd.replies hnone)
  generalize fd.read p.length = res at htook hgood
  obtain ⟨res, fd'⟩ := res
  have hreplies : (∀ r ∈ fd'.replies, r ∈ fd.replies) → fd'.replies ≠ [] → bad := by
    intro hsub hne
    obtain ⟨r, rs, hcons⟩ := List.exists_cons_of_ne_nil hne
    have hr : r ∈ fd.replies := hsub r (by rw [hcons]; exact List.mem_cons_self)
    exact hfd.replies (List.ne_nil_of_mem hr)
  cases htook with
  | ok hslice _ _ hcontent _ hsub =>
    refine ⟨⟨hcontent.trans hfd.content, hreplies hsub⟩, hgood, fun q hq hlen => ?_⟩
    cases hq
    rw [hfd.content, hlen, hp] at hslice
    exact hslice
  | error _ hcontent _ hsub => exact ⟨⟨hcontent.trans hfd.content, hreplies hsub⟩, hgood, fun q hq => by cases hq⟩

theorem readAll_ends (hfd : OnFile content bad fd) (hp : slice content fd.pos p.length = p) (msg : String) :
    Ends (readAll p.length msg) fd (fun q fd' => q = p ∧ OnFile content bad fd') (fun _ => bad) := by
  refine ((readFile_ends hfd hp).faults fun _ hf => hf.elim).bind fun r fd' hr => ?_
  obtain ⟨hfd', hgood, hsame⟩ := hr
  by_cases hlen : r.map List.length = some p.length
  · rw [if_pos hlen]
    obtain ⟨q, rfl, hq⟩ := Option.map_eq_some_iff.mp hlen
    exact ⟨hsame q rfl hq, hfd'⟩
  · rw [if_neg hlen]
    rcases hgood with rfl | hbad
    · exact absurd rfl hlen
    · exact hbad

section Linked

variable {junk : Bytes} {sections : List Section}

theorem trailer_length (n : Nat) : (trailer n).length = trailerSize := rfl

theorem entries_length (hnames : ∀ s ∈ sections, s.name.length = 4) :
    (sections.flatMap Section.entry).length = sections.length * 8 := by
  induction sections with
  | nil => rfl
  | cons s sections ih =>
    obtain ⟨hname, hrest⟩ := List.forall_mem_cons.mp hnames
    have hentry : s.entry.length = 8 := by
      rw [Section.entry, List.length_append, hname]
      rfl
    rw [List.flatMap_cons, List.length_append, ih hrest, hentry, List.length_cons]
    omega

theorem readTrailer_linked (hfd : OnFile (linked junk sections) bad fd) : Ends readTrailer fd
    (fun r fd' => OnFile (linked junk sections) bad fd' ∧ (r = some (.ofNat sections.length) ∨ r = none ∧ bad))
      Never := by
  have hback := slice_back (junk ++ sections.flatMap Section.data ++ sections.flatMap Section.entry)
    (trailer sections.length) []
  rw [List.append_nil, List.append_nil, trailer_length] at hback
  have hk : trailerSize ≤ (linked junk sections).length := by
    rw [linked, List.length_append, trailer_length]
    omega
  refine Ends.seq (lseekEnd_eq hfd hk) ?_
  refine (readFile_ends (p := trailer sections.length) (hfd.seek _) hback).bind fun r fd' hr => ?_
  obtain ⟨hfd', hgood, hsame⟩ := hr
  by_cases hlen : r.map List.length = some trailerSize
  · obtain ⟨q, rfl, hq⟩ := Option.map_eq_some_iff.mp hlen
    obtain rfl := hsame q rfl hq
    have hmagic : ((some (trailer sections.length)).getD []).drop 4 = execMagic := rfl
    rw [if_pos ⟨hlen, hmagic⟩]
    refine ⟨hfd', .inl (congrArg some ?_)⟩
    exact bigEndian_wordBytes _
  · rw [if_neg fun hand => hlen hand.1]
    rcases hgood with rfl | hbad
    · exact absurd rfl hlen
    · exact ⟨hfd', .inr ⟨rfl, hbad⟩⟩

theorem sectionTable_entries (hnames : ∀ s ∈ sections, s.name.length = 4) :
    sectionTable sections.length (sections.flatMap Section.entry) = sections.map Section.descriptor := by
  induction sections with
  | nil => rfl
  | cons s sections ih =>
    obtain ⟨hname, hrest⟩ := List.forall_mem_cons.mp hnames
    have hentry : s.entry.length = 8 := by
      rw [Section.entry, List.length_append, hname]
      rfl
    have hsplit : (s :: sections).flatMap Section.entry =
      s.name ++ (wordBytes (.ofNat s.data.length) ++ sections.flatMap Section.entry) := by
      rw [List.flatMap_cons, Section.entry, List.append_assoc]
    have hlen : ((wordBytes (.ofNat s.data.length) ++ sections.flatMap Section.entry).take 4) =
      wordBytes (.ofNat s.data.length) := rfl
    rw [List.length_cons, sectionTable, List.map_cons, Section.descriptor, hsplit, List.take_left' hname,
      List.drop_left' hname, hlen,
      bigEndian_wordBytes, ← hsplit, List.flatMap_cons, List.drop_left' hentry, ih hrest]

theorem readSectionDescriptors_linked (hnames : ∀ s ∈ sections, s.name.length = 4)
    (hsize : (linked junk sections).length < 2 ^ 31)
    (hfd : OnFile (linked junk sections) bad fd) : Ends (camlReadSectionDescriptors (.ofNat sections.length)) fd
      (fun r fd' => r = sections.map Section.descriptor ∧ OnFile (linked junk sections) bad fd') (fun _ => bad) := by
  have hentries := entries_length hnames
  have hlength : (linked junk sections).length = (junk ++ sections.flatMap Section.data).length +
    (sections.length * 8 + trailerSize) := by
    rw [linked, List.length_append, List.length_append, hentries, trailer_length, Nat.add_assoc]
  have hnum : (UInt32.ofNat sections.length).toNat = sections.length := by
    rw [UInt32.toNat_ofNat']
    omega
  have hsuffix : (sections.flatMap Section.entry ++ trailer sections.length).length =
    trailerSize + sections.length * 8 := by
    rw [List.length_append, hentries, trailer_length, Nat.add_comm]
  have hback := slice_back (junk ++ sections.flatMap Section.data) (sections.flatMap Section.entry)
    (trailer sections.length)
  rw [hsuffix] at hback
  unfold camlReadSectionDescriptors
  rw [hnum, if_neg (by omega)]
  have hseek := lseekEnd_eq hfd (k := trailerSize + sections.length * 8) (by omega)
  rw [Int.natCast_add] at hseek
  refine Ends.seq hseek ?_
  have hread := readAll_ends (hfd.seek _) hback "Fatal error: cannot read section table\n"
  rw [hentries] at hread
  refine hread.bind fun p fd' hp => ?_
  obtain ⟨rfl, hfd'⟩ := hp
  exact ⟨sectionTable_entries hnames, hfd'⟩

/-! ## The sections -/

theorem seekLoop_skip {name : Bytes} : ∀ {behind : List Section}, (∀ s ∈ behind, s.name ≠ name) →
    ∀ (ds : List SectionDescriptor) (k : Nat),
    seekLoop name ((behind.map Section.descriptor).reverse ++ ds) (BitVec.ofNat 32 k) =
      seekLoop name ds (BitVec.ofNat 32 (k + (behind.flatMap Section.data).length))
  | [], _, ds, k => rfl
  | s :: behind, hnot, ds, k => by
    obtain ⟨hs, hbehind⟩ := List.forall_mem_cons.mp hnot
    have hne : s.descriptor.name ≠ name := hs
    have hofs : BitVec.ofNat 32 (k + (behind.flatMap Section.data).length) + s.descriptor.len.toBitVec =
        BitVec.ofNat 32 (k + ((s :: behind).flatMap Section.data).length) := by
      have hlen : s.descriptor.len.toBitVec = BitVec.ofNat 32 s.data.length := rfl
      rw [hlen, ← BitVec.ofNat_add, List.flatMap_cons, List.length_append, Nat.add_comm s.data.length, ← Nat.add_assoc]
    rw [List.map_cons, List.reverse_cons, List.append_assoc, List.singleton_append,
      seekLoop_skip hbehind, seekLoop, if_neg hne, hofs]

/-- The last section of a name, in the list. -/
theorem lastNamed_some {name : String} {data : Bytes} (h : lastNamed sections name = some data) : ∃ before s behind,
    sections = before ++ s :: behind ∧ s.name = cstr name ∧ s.data = data ∧ ∀ t ∈ behind, t.name ≠ cstr name := by
  obtain ⟨s, hfind, hdata⟩ := Option.map_eq_some_iff.mp h
  obtain ⟨hname, behind, before, hsplit, hnot⟩ := List.find?_eq_some_iff_append.mp hfind
  refine ⟨before.reverse, s, behind.reverse, ?_, by simpa using hname, hdata, fun t ht => ?_⟩
  · have hrev := congrArg List.reverse hsplit
    rw [List.reverse_reverse, List.reverse_append, List.reverse_cons, List.append_assoc, List.singleton_append] at hrev
    exact hrev
  · simpa using hnot t (List.mem_reverse.mp ht)

theorem lastNamed_none {name : String} (h : lastNamed sections name = none) : ∀ s ∈ sections, s.name ≠ cstr name := by
  intro s hs
  have hfind := List.find?_eq_none.mp (Option.map_eq_none_iff.mp h) s (List.mem_reverse.mpr hs)
  simpa using hfind

/-- A section that is there: the descriptor is left where its data begin. -/
theorem seekOptionalSection_some {name : String} {data : Bytes} (hnames : ∀ s ∈ sections, s.name.length = 4)
    (hsize : (linked junk sections).length < 2 ^ 31) (hfd : OnFile (linked junk sections) bad fd)
    (hlast : lastNamed sections name = some data) : ∃ pos,
      camlSeekOptionalSection (sections.map Section.descriptor) name fd = .ok ((data.length : Int), { fd with pos }) ∧
        slice (linked junk sections) pos data.length = data ∧ data.length < 2 ^ 31 := by
  obtain ⟨before, s, behind, rfl, hname, rfl, hnot⟩ := lastNamed_some hlast
  generalize hall : before ++ s :: behind = sections at hnames hsize hfd hlast
  have hentries := entries_length hnames
  have hfile : linked junk sections = (junk ++ before.flatMap Section.data) ++ s.data ++
      (behind.flatMap Section.data ++ sections.flatMap Section.entry ++ trailer sections.length) := by
    rw [linked, ← hall, List.flatMap_append, List.flatMap_cons]
    simp only [List.append_assoc]
  generalize hto : trailerSize + sections.length * 8 + (behind.flatMap Section.data).length = k
  have hsuffix :
    (s.data ++ (behind.flatMap Section.data ++ sections.flatMap Section.entry ++ trailer sections.length)).length =
      k + s.data.length := by
    rw [List.length_append, List.length_append, List.length_append, hentries, trailer_length]
    omega
  have hle : k + s.data.length ≤ (linked junk sections).length := by
    rw [← hsuffix, hfile, List.append_assoc (junk ++ before.flatMap Section.data)]
    exact (List.suffix_append _ _).length_le
  have hback := slice_back (junk ++ before.flatMap Section.data) s.data
    (behind.flatMap Section.data ++ sections.flatMap Section.entry ++ trailer sections.length)
  rw [← hfile, hsuffix] at hback
  refine ⟨_, ?_, hback, by omega⟩
  have hlist : (sections.map Section.descriptor).reverse =
      (behind.map Section.descriptor).reverse ++ s.descriptor :: (before.map Section.descriptor).reverse := by
    rw [← hall, List.map_append, List.map_cons, List.reverse_append, List.reverse_cons, List.append_assoc,
      List.singleton_append]
  have hlen : s.descriptor.len.toBitVec = BitVec.ofNat 32 s.data.length := rfl
  have hsame : s.descriptor.name = cstr name := hname
  have hint : ∀ n, n < 2 ^ 31 → (BitVec.ofNat 32 n).toInt = n := fun n hn => by
    rw [BitVec.toInt_ofNat', Int.bmod_eq_of_le (by omega) (by omega)]
  rw [camlSeekOptionalSection, hlist, List.length_map, seekLoop_skip hnot, seekLoop, if_pos hsame, hto,
    hlen, ← BitVec.ofNat_add,
    hint _ (by omega), hint _ (by omega)]
  exact bind_ok (lseekEnd_eq hfd hle)

theorem seekOptionalSection_none {name : String} (hlast : lastNamed sections name = none) :
    camlSeekOptionalSection (sections.map Section.descriptor) name fd = .ok (-1, fd) := by
  have hskip := seekLoop_skip (lastNamed_none hlast) [] (trailerSize + sections.length * 8)
  rw [List.append_nil] at hskip
  rw [camlSeekOptionalSection, List.length_map, hskip]
  rfl

theorem readSection_ends {name : String} (hnames : ∀ s ∈ sections, s.name.length = 4)
    (hsize : (linked junk sections).length < 2 ^ 31)
    (hfd : OnFile (linked junk sections) bad fd) : Ends (readSection (sections.map Section.descriptor) name) fd
      (fun r fd' => r = lastNamed sections name ∧ OnFile (linked junk sections) bad fd') (fun _ => bad) := by
  cases hlast : lastNamed sections name with
  | none =>
    refine Ends.seq (seekOptionalSection_none hlast) ?_
    rw [if_pos rfl]
    exact ⟨rfl, hfd⟩
  | some data =>
    obtain ⟨pos, hseek, hdata, hlen⟩ := seekOptionalSection_some hnames hsize hfd hlast
    refine Ends.seq hseek ?_
    rw [if_neg (by omega), if_neg (by omega), Int.toNat_natCast]
    refine (readAll_ends (hfd.seek pos) hdata _).bind fun q fd' hq => ?_
    obtain ⟨rfl, hfd'⟩ := hq
    exact ⟨rfl, hfd'⟩

/-- A section that is to be there. -/
theorem seekSection_ends {name : String} (hnames : ∀ s ∈ sections, s.name.length = 4)
    (hsize : (linked junk sections).length < 2 ^ 31)
    (hfd : OnFile (linked junk sections) bad fd) : Ends (camlSeekSection (sections.map Section.descriptor) name) fd
      (fun len fd' => OnFile (linked junk sections) bad fd' ∧ ∃ data, lastNamed sections name = some data ∧
        len = data.length ∧
        slice (linked junk sections) fd'.pos data.length = data)
      (fun _ => lastNamed sections name = none) := by
  cases hlast : lastNamed sections name with
  | none =>
    refine Ends.seq (seekOptionalSection_none hlast) ?_
    rw [if_pos rfl]
    exact rfl
  | some data =>
    obtain ⟨pos, hseek, hdata, hlen⟩ := seekOptionalSection_some hnames hsize hfd hlast
    refine Ends.seq hseek ?_
    rw [if_neg (by omega)]
    exact ⟨hfd.seek pos, data, rfl, rfl, hdata⟩

end Linked

/-! ## Loading -/

section Load

variable {P U : Type} {builtins : List (Bytes × P)} {cFunctions : List (CFunctionEntry P U)}

/-- A primitive of this name can be found. -/
def Known (builtins : List (Bytes × P)) (cFunctions : List (CFunctionEntry P U)) (name : Bytes) : Prop :=
  (∃ b ∈ builtins, b.1 = name) ∨ ∃ f ∈ cFunctions, f.name = name

theorem lookupPrimitiveInto_some {name : Bytes} {prim : P} {u ud : Option U}
    (h : lookupPrimitiveInto builtins cFunctions name u = (some prim, ud)) : Known builtins cFunctions name := by
  unfold lookupPrimitiveInto at h
  split at h
  · rename_i b hb
    exact .inl ⟨b, List.mem_of_find?_eq_some hb, by simpa using List.find?_some hb⟩
  split at h
  · rename_i f hf
    exact .inr ⟨f, List.mem_of_find?_eq_some hf, by simpa using List.find?_some hf⟩
  · cases h

/-- The tables are made if and only if every name is known. -/
theorem buildLoop_known {p : Bytes} : ∀ {primTable : List P} {userData : List (Option U)}
    {r : List P × List (Option U)},
    buildLoop builtins cFunctions p primTable userData = some r → ∀ name ∈ requiredNames p,
    Known builtins cFunctions name := by
  induction p using requiredNames.induct with
  | case1 p hp =>
    intro primTable userData r _ name hname
    rw [requiredNames, if_pos hp] at hname
    exact absurd hname List.not_mem_nil
  | case2 p hp ih =>
    intro primTable userData r h
    rw [buildLoop, if_neg hp] at h
    rw [requiredNames, if_neg hp, List.forall_mem_cons]
    split at h
    · cases h
    · exact ⟨lookupPrimitiveInto_some ‹_›, ih h⟩

theorem buildPrimitiveTable_ends (builtins : List (Bytes × P)) (cFunctions : List (CFunctionEntry P U))
    (reqPrims : Bytes) :
    (∃ t u, camlBuildPrimitiveTable builtins cFunctions reqPrims = some (t, u) ∧
      Paired builtins cFunctions (requiredNames reqPrims) t u) ∨
      camlBuildPrimitiveTable builtins cFunctions reqPrims = none ∧ ∃ name ∈ requiredNames reqPrims,
      ¬Known builtins cFunctions name := by
  by_cases hknown : ∀ name ∈ requiredNames reqPrims, Known builtins cFunctions name
  · obtain ⟨prims, uds, hpaired, hloop⟩ := buildLoop_paired hknown
    exact .inl ⟨prims, uds, hloop [] [], hpaired⟩
  · refine .inr ⟨?_, by simpa using hknown⟩
    cases hrun : camlBuildPrimitiveTable builtins cFunctions reqPrims with
    | none => rfl
    | some r => exact absurd (buildLoop_known hrun) hknown

theorem withChannel_ends {α : Type} {m : IoM InputChannel α} {Q : α → InputChannel → Prop}
    {E : IoStop × InputChannel → Prop}
    (h : Ends m (camlOpenDescriptorIn fd true) Q E) {Q' : α → Descriptor UInt8 → Prop}
    {E' : IoStop × Descriptor UInt8 → Prop}
    (hQ : ∀ a ch, Q a ch → Q' a ch.fd) (hE : ∀ f, E f → E' (f.1, f.2.fd)) : Ends (withChannel m) fd Q' E' := by
  cases hrun : m (camlOpenDescriptorIn fd true) with
  | ok r =>
    have hret : withChannel m fd = .ok (r.1, r.2.fd) := by
      rw [withChannel, hrun]
      rfl
    exact .of_ok hret (hQ _ _ (h.ok hrun))
  | error f =>
    have hfault : withChannel m fd = .error (f.1, f.2.fd) := by
      rw [withChannel, hrun]
      rfl
    unfold Ends
    rw [hfault]
    exact hE _ (h.error hrun)

/-- All that is needed is in the file. -/
structure Complete (builtins : List (Bytes × P)) (cFunctions : List (CFunctionEntry P U)) (sections : List Section)
    (code prim data : Bytes) : Prop where
  hcode : lastNamed sections "CODE" = some code
  hprim : lastNamed sections "PRIM" = some prim
  hknown : ∀ name ∈ requiredNames prim, Known builtins cFunctions name
  hdata : lastNamed sections "DATA" = some data

variable {env : Bytes → Env} {heap : Heap} {junk : Bytes} {sections : List Section}

/-- What is loaded, where the value of the section `DATA` ends in `Q`. -/
theorem loadSections_ends (hnames : ∀ s ∈ sections, s.name.length = 4) (hsize : (linked junk sections).length < 2 ^ 31)
    (hfd : OnFile (linked junk sections) bad fd) {Q : Bytes → Value × Heap → Prop} {E : Prop}
    (hinput : ∀ {code prim data fd'}, Complete builtins cFunctions sections code prim data →
      OnFile (linked junk sections) bad fd' →
      slice (linked junk sections) fd'.pos data.length = data →
        Ends (withChannel (camlInputVal (env code) heap [])) fd' (fun x _ => Q code x) (fun _ => bad ∨ E)) :
    Ends (loadSections builtins cFunctions env heap (sections.map Section.descriptor)) fd
      (fun r _ => ∃ code prim data, Complete builtins cFunctions sections code prim data ∧ r.startCode = code ∧
        Paired builtins cFunctions (requiredNames prim) r.primTable r.primTableUserData ∧ Q code (r.globalData, r.heap))
      (fun _ => bad ∨ (¬∃ code prim data, Complete builtins cFunctions sections code prim data) ∨ E) := by
  have hnocode : lastNamed sections "CODE" = none → ¬∃ code prim data,
    Complete builtins cFunctions sections code prim data := by
    rintro hnone ⟨code, prim, data, hc⟩
    exact absurd (hc.hcode.symm.trans hnone) nofun
  have hnodata : lastNamed sections "DATA" = none → ¬∃ code prim data,
    Complete builtins cFunctions sections code prim data := by
    rintro hnone ⟨code, prim, data, hc⟩
    exact absurd (hc.hdata.symm.trans hnone) nofun
  refine ((seekSection_ends hnames hsize hfd).faults fun _ hnone => .inr (.inl (hnocode hnone))).bind
    fun len fd₁ h₁ => ?_
  obtain ⟨hfd₁, code, hcode, rfl, hat⟩ := h₁
  have hload : Ends (camlLoadCode code.length) fd₁ (fun q fd' => q = code ∧ OnFile (linked junk sections) bad fd')
    (fun _ => bad) := by
    unfold camlLoadCode
    rw [if_neg (by omega), Int.toNat_natCast]
    exact readAll_ends hfd₁ hat _
  refine (hload.faults fun _ hbad => .inl hbad).bind fun q fd₂ h₂ => ?_
  obtain ⟨rfl, hfd₂⟩ := h₂
  refine ((readSection_ends hnames hsize hfd₂).faults fun _ hbad => .inl hbad).bind fun _ fd₃ h₃ => ?_
  refine ((readSection_ends hnames hsize h₃.2).faults fun _ hbad => .inl hbad).bind fun _ fd₄ h₄ => ?_
  refine ((readSection_ends hnames hsize h₄.2).faults fun _ hbad => .inl hbad).bind fun reqPrims fd₅ h₅ => ?_
  obtain ⟨rfl, hfd₅⟩ := h₅
  cases hprim : lastNamed sections "PRIM" with
  | none =>
    refine .inr (.inl ?_)
    rintro ⟨code', prim, data, hc⟩
    exact absurd (hc.hprim.symm.trans hprim) nofun
  | some prim =>
    dsimp only
    rcases buildPrimitiveTable_ends builtins cFunctions prim with
      ⟨t, u, htable, hpaired⟩ | ⟨htable, name, hname, hunknown⟩
    · rw [htable]
      dsimp only
      have hknown : ∀ name ∈ requiredNames prim, Known builtins cFunctions name := buildLoop_known htable
      refine ((seekSection_ends hnames hsize hfd₅).faults fun _ hnone => .inr (.inl (hnodata hnone))).bind
        fun len fd₆ h₆ => ?_
      obtain ⟨hfd₆, data, hdata, rfl, hat'⟩ := h₆
      have hc : Complete builtins cFunctions sections q prim data := ⟨hcode, hprim, hknown, hdata⟩
      refine ((hinput hc hfd₆ hat').faults fun _ hf => hf.imp_right .inr).bind fun x fd₇ hx => ?_
      exact ⟨q, prim, data, hc, rfl, hpaired, hx⟩
    · rw [htable]
      refine .inr (.inl ?_)
      rintro ⟨code', prim', data, hc⟩
      obtain rfl : prim' = prim := Option.some.inj (hc.hprim.symm.trans hprim)
      exact hunknown (hc.hknown name hname)

theorem loadFile_ends (hnames : ∀ s ∈ sections, s.name.length = 4) (hsize : (linked junk sections).length < 2 ^ 31)
    (hfd : OnFile (linked junk sections) bad fd) {Q : Bytes → Value × Heap → Prop} {E : Prop}
    (hinput : ∀ {code prim data fd'}, Complete builtins cFunctions sections code prim data →
      OnFile (linked junk sections) bad fd' →
      slice (linked junk sections) fd'.pos data.length = data →
        Ends (withChannel (camlInputVal (env code) heap [])) fd' (fun x _ => Q code x) (fun _ => bad ∨ E)) :
    Ends (customCamlLoadFile builtins cFunctions env heap true) fd
      (fun r _ => ∃ code prim data, Complete builtins cFunctions sections code prim data ∧ r.startCode = code ∧
        Paired builtins cFunctions (requiredNames prim) r.primTable r.primTableUserData ∧ Q code (r.globalData, r.heap))
      (fun _ => bad ∨ (¬∃ code prim data, Complete builtins cFunctions sections code prim data) ∨ E) := by
  have hopen : Ends (camlAttemptOpen true true) fd (fun r fd' => OnFile (linked junk sections) bad fd' ∧
      (r = .ok (.ofNat sections.length) ∨ r = .error .badBytecode ∧ bad)) Never := by
    unfold camlAttemptOpen
    rw [if_pos rfl]
    refine Ends.seq rfl ?_
    dsimp only
    rw [if_neg (by decide)]
    refine (readTrailer_linked hfd).bind fun r fd' hr => ?_
    obtain ⟨hfd', rfl | ⟨rfl, hbad⟩⟩ := hr
    · exact ⟨hfd', .inl rfl⟩
    · exact ⟨hfd', .inr ⟨rfl, hbad⟩⟩
  refine (hopen.faults fun _ hf => hf.elim).bind fun r fd₁ h₁ => ?_
  obtain ⟨hfd₁, rfl | ⟨rfl, hbad⟩⟩ := h₁
  · refine ((readSectionDescriptors_linked hnames hsize hfd₁).faults fun _ hbad => .inl hbad).bind fun ds fd₂ h₂ => ?_
    obtain ⟨rfl, hfd₂⟩ := h₂
    exact loadSections_ends hnames hsize hfd₂ hinput
  · exact .inl hbad

/-- **Files of bytecode.** A file of sections, with whatever in front of them, is loaded from
its end: the code is that of the last section of this name, the primitives are those named in the
last `PRIM`, each with its own user data, and the globals are a copy of the value whose code the last `DATA`
begins with, behind the heap there was. Only the system stops this. -/
theorem load_linked {code prim more : Bytes} {h : Heap} {R : Nat → Prop} {v : Value} {blocks : List Bytes} {s : Extern}
    (hnames : ∀ s ∈ sections, s.name.length = 4) (hsize : (linked junk sections).length < 2 ^ 31)
    (hclosed : Closed (env code) h R) (hsharing : (env code).ignoreSharing = false)
    (hfits : 4 * heapWords h + 4095 < 2 ^ 32)
    (hv : Valid (env code) h R v) (hrun : externValue (env code) v (Extern.init h []) = .ok (blocks, s))
    (hcomplete : Complete builtins cFunctions sections code prim (blocks.flatten ++ more))
    (hfd : fd.content = linked junk sections) :
    Ends (customCamlLoadFile builtins cFunctions env heap true) fd
      (fun r _ => r.startCode = code ∧ Paired builtins cFunctions (requiredNames prim) r.primTable r.primTableUserData ∧
        ∃ objs, Graph h v objs ∧ r.globalData = image h objs heap.length v ∧
          r.heap = heap ++ objs.map (copy (env code).color h objs heap.length))
      (fun _ => fd.replies ≠ []) := by
  obtain ⟨-, objs, bytes, words, size64, hg, hcode, hblocks⟩ := (externValue_graph hclosed hsharing hfits hv).ok hrun
  have hon : OnFile (linked junk sections) (fd.replies ≠ []) fd := ⟨hfd, id⟩
  refine ((loadFile_ends (E := False) (Q := fun c x => c = code ∧ x.1 = image h objs heap.length v ∧
    x.2 = heap ++ objs.map (copy (env code).color h objs heap.length)) hnames hsize hon ?_).faults ?_).mono ?_
  · intro code' prim' data fd' hc hfd' hat
    obtain rfl : code' = code := Option.some.inj (hc.hcode.symm.trans hcomplete.hcode)
    obtain rfl : data = blocks.flatten ++ more := Option.some.inj (hc.hdata.symm.trans hcomplete.hdata)
    have hahead : Ahead { content := fd'.content, pos := fd'.pos }
      (header bytes.length objs.length words size64 ++ bytes) := by
      have htake := congrArg (List.take blocks.flatten.length) hat
      rw [List.take_left, slice_take _ _ (by rw [List.length_append]; omega)] at htake
      rw [← hblocks, Ahead, Reader.next, hfd'.content]
      exact htake
    have hbytes : bytes.length < 2 ^ 31 := by
      have hleft := hahead.left
      have hcontent : fd'.content.length < 2 ^ 31 := by rwa [hfd'.content]
      rw [List.length_append] at hleft
      exact Nat.lt_of_le_of_lt (Nat.le_trans (Nat.le_add_left _ _) (Nat.le_trans hleft (Nat.sub_le _ _))) hcontent
    refine withChannel_ends (camlInputVal_ahead hg hfits hcode hbytes heap (openDescriptorIn_reads fd') hahead)
      (fun x _ hx => ⟨rfl, hx.1, hx.2.1⟩) fun f hf => .inl ?_
    obtain ⟨e, -, errno, hfails, -⟩ := hf
    exact hfd'.replies (List.ne_nil_of_mem hfails)
  · rintro f (hbad | hnone | hno)
    · exact hbad
    · exact absurd ⟨code, prim, _, hcomplete⟩ hnone
    · exact hno.elim
  · rintro r fd' ⟨code', prim', data, hc, hstart, hpaired, rfl, hglobals, hheap⟩
    obtain rfl : prim' = prim := Option.some.inj (hc.hprim.symm.trans hcomplete.hprim)
    exact ⟨hstart, hpaired, objs, hg, hglobals, hheap⟩

/-- Two sections of code, of which the last counts; one primitive; the globals, with something behind them. -/
def sampleSections : List Section :=
  [{ name := cstr "CODE", data := [7] }, { name := cstr "CODE", data := [0, 0, 0, 0] },
    { name := cstr "PRIM", data := cstr "f" ++ [0] },
    { name := cstr "DATA",
      data := [[132, 149, 166, 190, 0, 0, 0, 9, 0, 0, 0, 2, 0, 0, 0, 7, 0, 0, 0, 7, 192, 4, 1, 34,
        97, 98, 4, 1, 65]].flatten ++ [1] }]

def sampleFunctions : List (CFunctionEntry Nat Nat) := [{ name := cstr "f", prim := 1, userData := some 5 }]

theorem sample_names : ∀ s ∈ sampleSections, s.name.length = 4 := by decide

theorem sample_size : (linked (cstr "#!") sampleSections).length < 2 ^ 31 := by decide

theorem sample_required : requiredNames (cstr "f" ++ [0]) = [cstr "f"] := by
  have hpacked : ∀ name ∈ [cstr "f"], name ≠ [] ∧ 0 ∉ name := by decide
  exact requiredNames_packed hpacked

theorem load_linked_sample : ∃ r fd', customCamlLoadFile [] sampleFunctions (fun _ => sampleEnv) [] true
    { content := linked (cstr "#!") sampleSections, pos := 0 } = .ok (r, fd') ∧ r.startCode = [0, 0, 0, 0] := by
  have hwritten : (externValue sampleEnv (.block 0) (Extern.init sampleHeap [])).toOption.map Prod.fst =
      some [[132, 149, 166, 190, 0, 0, 0, 9, 0, 0, 0, 2, 0, 0, 0, 7, 0, 0, 0, 7, 192, 4, 1, 34, 97, 98, 4, 1, 65]] :=
        by decide +kernel
  cases hrun : externValue sampleEnv (.block 0) (Extern.init sampleHeap []) with
  | error f =>
    rw [hrun] at hwritten
    cases hwritten
  | ok x =>
    obtain ⟨blocks, s⟩ := x
    rw [hrun] at hwritten
    cases hwritten
    have hknown : ∀ name ∈ requiredNames (cstr "f" ++ [0]), Known ([] : List (Bytes × Nat)) sampleFunctions name := by
      rw [sample_required]
      intro name hname
      exact .inr ⟨_, List.mem_cons_self, (List.mem_singleton.mp hname).symm⟩
    have hends : Ends (customCamlLoadFile [] sampleFunctions (fun _ => sampleEnv) [] true)
        { content := linked (cstr "#!") sampleSections, pos := 0 } _ _ :=
      load_linked sample_names sample_size sample_closed rfl (by decide) (v := .block 0) (by decide : 0 < 2) hrun
        ⟨rfl, rfl, hknown, rfl⟩ rfl
    unfold Ends at hends
    split at hends
    · exact ⟨_, _, ‹_›, hends.1⟩
    · exact absurd rfl hends

/-- A file that lacks its code, its primitives or its data, or asks for a primitive that is not
known, is not loaded, whatever the system replies. -/
theorem load_incomplete (hnames : ∀ s ∈ sections, s.name.length = 4) (hsize : (linked junk sections).length < 2 ^ 31)
    (hfd : fd.content = linked junk sections) (hincomplete : ¬∃ code prim data,
      Complete builtins cFunctions sections code prim data) :
    Ends (customCamlLoadFile builtins cFunctions env heap true) fd (fun _ _ => False) (fun _ => True) := by
  have hon : OnFile (linked junk sections) True fd := ⟨hfd, fun _ => trivial⟩
  refine ((loadFile_ends (E := True) (Q := fun _ _ => True) hnames hsize hon fun hc _ _ => ?_).faults fun _ _ =>
    trivial).mono fun r fd' hr => ?_
  · exact absurd ⟨_, _, _, hc⟩ hincomplete
  obtain ⟨code, prim, data, hc, -⟩ := hr
  exact hincomplete ⟨code, prim, data, hc⟩

theorem load_incomplete_sample : Ends (customCamlLoadFile ([] : List (Bytes × Nat)) ([] : List (CFunctionEntry Nat Nat))
    (fun _ => sampleEnv) [] true) { content := linked [] sampleSections, pos := 0 } (fun _ _ =>
      False) (fun _ => True) := by
  refine load_incomplete sample_names (by decide) rfl ?_
  rintro ⟨code, prim, data, hc⟩
  obtain rfl : cstr "f" ++ [0] = prim := Option.some.inj hc.hprim
  rcases hc.hknown (cstr "f") (by rw [sample_required]; exact List.mem_cons_self) with ⟨b, hb, -⟩ | ⟨f, hf, -⟩
  · cases hb
  · cases hf

end Load

end MultiScript.Ocaml.Executable
