/-
The length of a string on its way into a VM. A string that the host pushes is to be seen
by the script as the bytes `PushString` was told, and an object's text as what its
to-string method wrote, also when something is concatenated to it.

In GameMonkey a length does not cut the text off: the copy has no NUL, and a string found
by its text keeps the length it was made with. The to-string callback gives the size of
its buffer for a length.
-/
import MultiScript.StringObjects
import MultiScript.Lua.Callbacks
import MultiScript.Squirrel.Callbacks
import MultiScript.GameMonkey.Callbacks

namespace MultiScript

open Act Intern

/-- The strings of a VM with the calls of its backend that make them: `PushString`, and
the push of the buffer that ends a to-string callback. -/
structure StringVm (O : Type) where
  object : O → StringObject
  pushString : List O → Bytes → Int → O × List O
  pushBuffer : List O → Bytes → O × List O
  concat : List O → O → O → O × List O

def Lua.stringVm : StringVm CountedString where
  object := (·.toStringObject)
  pushString := stringOfPush
  pushBuffer := newstr
  concat := luaVConcat

def Squirrel.stringVm : StringVm CountedString where
  object := (·.toStringObject)
  pushString := stringTableAdd
  pushBuffer strings buffer := stringTableAdd strings buffer (-1)
  concat := stringCat

def GameMonkey.stringVm (heap stack : Bytes) : StringVm StringObject where
  object := id
  pushString := allocStringObject heap
  pushBuffer strings buffer := allocStringObject heap strings buffer (2 ^ 8)
  concat := gmStringOpAdd heap stack

section

variable {O : Type}

/-- The script sees a pushed string as the bytes it was told to have. -/
def PushShown (vm : StringVm O) (strings : List O) (behind s : Bytes) (length : Int) : Prop :=
  (vm.object (vm.pushString strings (s ++ 0 :: behind) length).1).Shows (pushedBytes s length)

/-- The script sees an object's text as what the method wrote, also before a suffix. -/
def TextShown (vm : StringVm O) (strings : List O) (behind t : Bytes) : Prop :=
  (vm.object (vm.pushBuffer strings (t ++ 0 :: behind)).1).Shows t ∧
    ∀ u o, 0 ∉ u → (vm.object o).Shows u →
      (vm.object (vm.concat (vm.pushBuffer strings (t ++ 0 :: behind)).2
        (vm.pushBuffer strings (t ++ 0 :: behind)).1 o).1).Shows (t ++ u)

/-- A length that `PushString` takes: the default, or up to the length of the string. -/
def TakesLength (s : Bytes) (length : Int) : Prop := length = -1 ∨ 0 ≤ length ∧ length ≤ s.length

instance (s : Bytes) (length : Int) : Decidable (TakesLength s length) := inferInstanceAs (Decidable (_ ∨ _))

variable {s t u behind : Bytes} {length : Int}

theorem TakesLength.nat (h : TakesLength s length) (hne : length ≠ -1) : ∃ n : Nat, length = n ∧ n ≤ s.length := by
  obtain ⟨h0, hle⟩ := h.resolve_left hne
  exact ⟨length.toNat, by omega, by omega⟩

theorem take_terminated {n : Nat} (hn : n ≤ s.length) : (s ++ 0 :: behind).take n = s.take n :=
  List.take_append_of_le_length hn

end

/-! ## What the callbacks hand over -/

/-- The end of a to-string callback: where it returns, the method has answered true, and
the text in the buffer has been pushed. -/
theorem text_pushed {Fr W α β : Type} {method : VmM Fr W (TextResult α)} {push : TextResult α → VmM Fr W Unit}
    {f : TextResult α → β} {b : β} {s s' : VmState Fr W}
    (h : (do let r ← method
             vmAssert r.result "result"
             push r
             return f r) s = .ok (b, s')) :
    ∃ r s₁, method s = .ok (r, s₁) ∧ r.result = true ∧ b = f r ∧ push r s₁ = .ok ((), s') := by
  obtain ⟨r, s₁, hm, h₁⟩ := bind_ok_inv h
  obtain ⟨u, s₂, hassert, h₂⟩ := bind_ok_inv h₁
  obtain ⟨u', s₃, hpush, h₃⟩ := bind_ok_inv h₂
  obtain ⟨hresult, rfl⟩ := vmAssert_inv hassert
  cases h₃
  exact ⟨r, s₂, hm, hresult, rfl, hpush⟩

/-- The callback, where it does not answer as it does for a class without the method. -/
theorem toString_pushed {Fr W α β : Type} {enter : VmM Fr W (ClassDesc × Nat)}
    {method : CodePtr → Nat → VmM Fr W (TextResult α)} {push : Bytes → VmM Fr W Unit} {text : ClassDesc → Bytes}
    {f : TextResult α → β} {other b : β} {s s' : VmState Fr W}
    (h : (do let e ← enter
             match e.1.toStringMethod with
             | some code => do
               let r ← method code e.2
               vmAssert r.result "result"
               push r.buffer
               return f r
             | none => do
               push (text e.1)
               return other) s = .ok (b, s')) (hb : other ≠ b) :
    ∃ code p s₁ s₂ r, method code p s₁ = .ok (r, s₂) ∧ r.result = true ∧ b = f r ∧ push r.buffer s₂ = .ok ((), s') := by
  obtain ⟨e, s₁, he, h₁⟩ := bind_ok_inv h
  cases hcode : e.1.toStringMethod with
  | some code =>
    simp only [hcode] at h₁
    obtain ⟨r, s₂, hr⟩ := text_pushed h₁
    exact ⟨code, e.2, s₁, s₂, r, hr⟩
  | none =>
    simp only [hcode] at h₁
    obtain ⟨u, s₂, hpush, h₂⟩ := bind_ok_inv h₁
    cases h₂
    exact absurd rfl hb

section

variable {α : Type} {L n : Nat} {a : α}

/-- In Lua the text in the buffer is pushed. -/
theorem Lua.toString_pushed {method : CodePtr → Nat → LuaS (TextResult α)} {s s' : VmState LuaFrame LuaWorld}
    (h : luaClassToStringMethodCallback method L s = .ok ((some a, n), s')) :
    ∃ code p s₁ s₂ r, method code p s₁ = .ok (r, s₂) ∧ r.result = true ∧ (some a, n) = (some r.seen, 1) ∧
      onThread luaView L (luaPushstring r.buffer) s₂ = .ok ((), s') := by
  refine @MultiScript.toString_pushed _ _ _ _ (toStringEnter L) method
    (fun t => onThread luaView L (luaPushstring t)) classText
    (fun r => (some r.seen, 1)) (none, 1) _ s s' h ?_
  intro he
  cases he

/-- In Squirrel too. -/
theorem Squirrel.toString_pushed {method : CodePtr → Nat → SqS (TextResult α)} {s s' : VmState SqFrame SqWorld}
    (h : squirrelClassToStringMethodCallback method L s = .ok ((some a, n), s')) :
    ∃ code p s₁ s₂ r, method code p s₁ = .ok (r, s₂) ∧ r.result = true ∧ (some a, n) = (some r.seen, 1) ∧
      onThread sqView L (sqPushstring r.buffer) s₂ = .ok ((), s') := by
  refine @MultiScript.toString_pushed _ _ _ _ (toStringEnter L) method
    (fun t => onThread sqView L (sqPushstring t)) classText
    (fun r => (some r.seen, 1)) (none, 1) _ s s' h ?_
  intro he
  cases he

/-- In GameMonkey it is pushed with the length of the buffer. -/
theorem GameMonkey.toString_pushed {method : CodePtr → Nat → GmS (TextResult α)} {s s' : VmState GmThread GmWorld}
    (h : gmClassToStringMethodCallback method L s = .ok (some a, s')) :
    ∃ code p s₁ s₂ r, method code p s₁ = .ok (r, s₂) ∧ r.result = true ∧ some a = some r.seen ∧
      onThread gmView L (pushBuffer r.buffer) s₂ = .ok ((), s') := by
  refine @MultiScript.toString_pushed _ _ _ _ (toStringEnter L) method
    (fun t => onThread gmView L (pushBuffer t)) classText
    (fun r => some r.seen) none _ s s' h ?_
  intro he
  cases he

end

/-! ## What the scripts see -/

section

variable {s t u behind heap stack : Bytes} {length : Int}

theorem pushedBytes_default : pushedBytes s (-1) = s := by simp [pushedBytes]

theorem pushedBytes_nat {n : Nat} : pushedBytes s n = s.take n := by
  have hne : ¬ ((n : Int) = -1) := by omega
  simp only [pushedBytes, if_neg hne, Int.toNat_natCast]

/-- Nothing is cut off exactly by the default and by the length of the string. -/
theorem pushedBytes_eq_self (h : TakesLength s length) : pushedBytes s length = s ↔
    length = -1 ∨ length = s.length := by
  by_cases hd : length = -1
  · simp [hd, pushedBytes_default]
  · obtain ⟨n, rfl, hn⟩ := h.nat hd
    have htake : s.take n = s ↔ n = s.length := by
      constructor
      · intro h
        rw [← h, List.length_take]
        omega
      · rintro rfl
        exact List.take_length
    rw [pushedBytes_nat, htake]
    omega

/-- A string constructor that goes by the length it is given, or by `strlen`. -/
theorem counted_shown {pool : List CountedString} {make : Bytes → Int → CountedString × List CountedString}
    (hdefault : ∀ mem, make mem (-1) = internCounted pool mem (strlen mem))
    (hnat : ∀ mem (n : Nat), make mem n = internCounted pool mem n) (hs : 0 ∉ s) (hl : TakesLength s length) :
    (make (s ++ 0 :: behind) length).1.Shows (pushedBytes s length) := by
  by_cases hd : length = -1
  · have hm := @internCounted_shows pool (s ++ 0 :: behind) s.length
    rw [take_terminated (Nat.le_refl _), List.take_length] at hm
    rw [hd, hdefault, strlen_terminated hs, pushedBytes_default]
    exact hm
  · obtain ⟨n, rfl, hn⟩ := hl.nat hd
    have hm := @internCounted_shows pool (s ++ 0 :: behind) n
    rw [take_terminated hn] at hm
    rw [hnat, pushedBytes_nat]
    exact hm

/-- Two counted strings, copied one after the other. -/
theorem counted_concat {pool : List CountedString} {a b : StringObject} (ha : a.Shows t) (hb : b.Shows u) :
    (internCounted pool (a.chars.take a.length ++ b.chars.take b.length) (a.length + b.length)).1.Shows (t ++ u) := by
  have hm := @internCounted_shows pool (t ++ u) (t ++ u).length
  rw [List.take_length, List.length_append] at hm
  rw [ha.take, hb.take, ha.1, hb.1]
  exact hm

theorem Lua.push_shown {strt : List CountedString} (hs : 0 ∉ s) (hl : TakesLength s length) :
    PushShown Lua.stringVm strt behind s length :=
  counted_shown (stringOfPush_default strt) (stringOfPush_nat strt) hs hl

theorem Squirrel.push_shown {strings : List CountedString} (hs : 0 ∉ s) (hl : TakesLength s length) :
    PushShown Squirrel.stringVm strings behind s length :=
  counted_shown (stringTableAdd_default strings) (stringTableAdd_nat strings) hs hl

theorem Lua.text_shown {strt : List CountedString} (ht : 0 ∉ t) : TextShown Lua.stringVm strt behind t := by
  have htext : (newstr strt (t ++ 0 :: behind)).1.Shows t := by
    have hpush := @Lua.push_shown t behind (-1) strt ht (.inl rfl)
    rwa [PushShown, pushedBytes_default] at hpush
  refine ⟨htext, fun u o _ ho => ?_⟩
  show (luaVConcat _ _ o).1.Shows (t ++ u)
  unfold luaVConcat
  by_cases hu : o.length = 0
  · -- the second operand is empty, and the first is the result
    obtain rfl : u = [] := List.length_eq_zero_iff.mp (ho.1.symm.trans hu)
    rw [if_pos hu, List.append_nil]
    exact htext
  · rw [if_neg hu]
    exact counted_concat htext ho

theorem Squirrel.text_shown {strings : List CountedString} (ht : 0 ∉ t) :
    TextShown Squirrel.stringVm strings behind t := by
  have htext : (stringTableAdd strings (t ++ 0 :: behind) (-1)).1.Shows t := by
    have hpush := @Squirrel.push_shown t behind (-1) strings ht (.inl rfl)
    rwa [PushShown, pushedBytes_default] at hpush
  refine ⟨htext, fun u o _ ho => ?_⟩
  show (stringCat _ _ o).1.Shows (t ++ u)
  rw [stringCat, stringTableAdd_nat]
  exact counted_concat htext ho

end

/-! ## GameMonkey -/

namespace GameMonkey

section

variable {strings : List StringObject} {s t u behind heap stack : Bytes} {length : Int} {o : StringObject}

theorem find_terminated (hs : 0 ∉ s) : find strings (s ++ 0 :: behind) = find strings s := by
  rw [find, find, cString_terminated hs, cString_self hs]

theorem find_key (hs : 0 ∉ s) (h : find strings s = some o) : cString o.chars = s := by
  have hkey : (cString o.chars == cString s) = true :=
    @List.find?_some _ (fun o : StringObject => cString o.chars == cString s) o strings h
  rwa [cString_self hs, beq_iff_eq] at hkey

/-- What holds of the object of a string: of the one that is found, or of a new one. -/
theorem alloc_iff {P : StringObject → Prop} (hs : 0 ∉ s) :
    P (allocStringObject heap strings (s ++ 0 :: behind) length).1 ↔
    (∀ o, find strings s = some o → P o) ∧
      (find strings s = none → P (newStringObject heap (s ++ 0 :: behind) length)) := by
  rw [← @find_terminated strings s behind hs]
  exact intern_iff

/-- A new object with the length of its text ends with the NUL of the text. -/
theorem new_full (hs : 0 ∉ s) (hl : length = -1 ∨ length = s.length) :
    newStringObject heap (s ++ 0 :: behind) length = { chars := s ++ 0 :: heap, length := s.length } := by
  have hlength : (if length < 0 then strlen (s ++ 0 :: behind) else length.toNat) = s.length := by
    rw [strlen_terminated hs]
    split <;> omega
  have htake : (s ++ 0 :: behind).take (s.length + 1) = s ++ [0] := by
    rw [← List.singleton_append, ← List.append_assoc]
    exact List.take_left' (by simp)
  simp only [newStringObject, hlength, htake, List.append_assoc, List.singleton_append]

/-- A new object shows what it was told exactly if that is the whole string: else its copy
goes on with the next byte, which is no NUL. -/
theorem new_shows_iff (hs : 0 ∉ s) (hl : TakesLength s length) :
    (newStringObject heap (s ++ 0 :: behind) length).Shows (pushedBytes s length) ↔
    length = -1 ∨ length = s.length := by
  constructor
  · intro h
    by_cases hd : length = -1
    · exact .inl hd
    · obtain ⟨n, rfl, hn⟩ := hl.nat hd
      refine .inr (congrArg Nat.cast (Nat.le_antisymm hn (Nat.le_of_not_lt fun hlt => hs ?_)))
      have hneg : ¬ (n : Int) < 0 := by omega
      have hcopy : (s ++ 0 :: behind).take (n + 1) = s.take (n + 1) := take_terminated hlt
      have hsize : (s.take (n + 1)).length = n + 1 := List.length_take_of_le hlt
      have hchars := h.2
      rw [pushedBytes_nat, List.length_take_of_le hn, newStringObject, if_neg hneg, Int.toNat_natCast, hcopy,
        List.take_left' hsize] at hchars
      have hmem : (0 : UInt8) ∈ s.take (n + 1) := by
        rw [hchars]
        exact List.mem_append_right _ List.mem_cons_self
      exact List.mem_of_mem_take hmem
  · intro hfull
    rw [new_full hs hfull, (pushedBytes_eq_self hl).mpr hfull]
    exact StringObject.shows_terminated

theorem notMem_pushedBytes (hs : 0 ∉ s) (hl : TakesLength s length) : 0 ∉ pushedBytes s length := by
  by_cases hd : length = -1
  · rwa [hd, pushedBytes_default]
  · obtain ⟨n, rfl, hn⟩ := hl.nat hd
    rw [pushedBytes_nat]
    exact fun h => hs (List.mem_of_mem_take h)

/-- The object that is found for a text shows what was asked for exactly if that is the
whole text, and the object shows it. -/
theorem found_shows_iff (hs : 0 ∉ s) (hl : TakesLength s length) (ho : find strings s = some o) :
    o.Shows (pushedBytes s length) ↔ (length = -1 ∨ length = s.length) ∧ o.Shows s := by
  rw [← pushedBytes_eq_self hl]
  constructor
  · intro h
    have hkey : pushedBytes s length = s := (h.cString (notMem_pushedBytes hs hl)).symm.trans (find_key hs ho)
    exact ⟨hkey, hkey ▸ h⟩
  · rintro ⟨he, h⟩
    rwa [he]

theorem push_shown_iff (hs : 0 ∉ s) (hl : TakesLength s length) :
    PushShown (stringVm heap stack) strings behind s length ↔
      (length = -1 ∨ length = s.length) ∧ ∀ o, find strings s = some o → o.Shows s := by
  show (allocStringObject heap strings (s ++ 0 :: behind) length).1.Shows (pushedBytes s length) ↔ _
  rw [@alloc_iff _ _ _ _ _ (StringObject.Shows · (pushedBytes s length)) hs, new_shows_iff hs hl]
  cases ho : find strings s with
  | some o =>
    have hiff := found_shows_iff hs hl ho
    simp only [Option.some.injEq, forall_eq', reduceCtorEq, false_implies, and_true]
    exact hiff
  | none => simp

/-- The object of a text with a NUL after it and its own length. -/
theorem alloc_full_iff (hs : 0 ∉ s) :
    (allocStringObject heap strings (s ++ 0 :: behind) s.length).1.Shows s ↔
    ∀ o, find strings s = some o → o.Shows s := by
  rw [@alloc_iff _ _ _ _ _ (StringObject.Shows · s) hs, new_full hs (.inr rfl)]
  exact and_iff_left fun _ => StringObject.shows_terminated

/-- An object that shows a text, before a suffix. -/
theorem concat_shown_iff {a b : StringObject} (ha : a.Shows t) (hb : b.Shows u) (ht : 0 ∉ t) (hu : 0 ∉ u) :
    (gmStringOpAdd heap stack strings a b).1.Shows (t ++ u) ↔ ∀ o, find strings (t ++ u) = some o →
    o.Shows (t ++ u) := by
  have htu : 0 ∉ t ++ u := by simp [ht, hu]
  have hbuffer : a.chars.take a.length ++ b.chars.take (b.length + 1) ++ stack = (t ++ u) ++ 0 :: stack := by
    rw [ha.take, hb.take_succ]
    simp only [List.append_assoc, List.singleton_append]
  rw [gmStringOpAdd, hbuffer, ha.1, hb.1, ← List.length_append]
  exact alloc_full_iff htu

/-- The to-string callback asks for 256 characters, which no such text has: it is right
where the text is found. -/
theorem text_alloc_iff (ht : 0 ∉ t) (hshort : t.length < 2 ^ 8) :
    (allocStringObject heap strings (t ++ 0 :: behind) (2 ^ 8)).1.Shows t ↔
    ∃ o, find strings t = some o ∧ o.Shows t := by
  rw [@alloc_iff _ _ _ _ _ (StringObject.Shows · t) ht]
  have hnew : ¬ (newStringObject heap (t ++ 0 :: behind) (2 ^ 8)).Shows t := by
    intro h
    have hlength : (2 ^ 8 : Int).toNat = t.length := h.1
    omega
  cases ho : find strings t with
  | some o => simp
  | none =>
    refine iff_of_false (fun h => hnew (h.2 rfl)) fun h => ?_
    obtain ⟨o, ho, -⟩ := h
    cases ho

theorem text_shown_iff (ht : 0 ∉ t) (hshort : t.length < 2 ^ 8) :
    TextShown (stringVm heap stack) strings behind t ↔
      (∃ o, find strings t = some o) ∧ ∀ u, 0 ∉ u → ∀ o, find strings (t ++ u) = some o → o.Shows (t ++ u) := by
  -- what is found is not made again, so the suffix meets the same strings
  have hfound : ∀ o, find strings t = some o →
      allocStringObject heap strings (t ++ 0 :: behind) (2 ^ 8) = (o, strings) := by
    intro o ho
    rw [← @find_terminated strings t behind ht] at ho
    exact intern_found ho
  constructor
  · rintro ⟨htext, hconcat⟩
    obtain ⟨o, ho, hshows⟩ := (text_alloc_iff ht hshort).mp htext
    refine ⟨⟨o, ho⟩, fun u hu => ?_⟩
    have hu' : ({ chars := u ++ 0 :: [], length := u.length } : StringObject).Shows u := StringObject.shows_terminated
    have hc := hconcat u _ hu hu'
    simp only [stringVm, hfound o ho] at hc
    exact (concat_shown_iff hshows hu' ht hu).mp hc
  · rintro ⟨⟨o, ho⟩, hall⟩
    have hshows : o.Shows t := by
      have hnil := hall [] (by simp) o (by rwa [List.append_nil])
      rwa [List.append_nil] at hnil
    refine ⟨(text_alloc_iff ht hshort).mpr ⟨o, ho, hshows⟩, fun u o' hu ho' => ?_⟩
    simp only [stringVm, hfound o ho]
    exact (concat_shown_iff hshows ho' ht hu).mpr (hall u hu)

end

end GameMonkey

/-- In Lua and Squirrel the script sees what `PushString` was told, and what the to-string
method wrote, whatever strings there are. In GameMonkey it sees the one exactly if that is
the whole string, and an object made for it before has its length; the other exactly if
the text has been made a string before, and each string that goes on from it is right. -/
theorem strings_shown_iff (s t : Bytes) (length : Int) (hs : 0 ∉ s) (hl : TakesLength s length) (ht : 0 ∉ t)
    (hshort : t.length < 2 ^ 8) (behind : Bytes) :
    (∀ strt, PushShown Lua.stringVm strt behind s length ∧ TextShown Lua.stringVm strt behind t) ∧
    (∀ strings, PushShown Squirrel.stringVm strings behind s length ∧ TextShown Squirrel.stringVm strings behind t) ∧
    ∀ heap stack strings,
      (PushShown (GameMonkey.stringVm heap stack) strings behind s length ↔
        (length = -1 ∨ length = s.length) ∧ ∀ o, GameMonkey.find strings s = some o → o.Shows s) ∧
      (TextShown (GameMonkey.stringVm heap stack) strings behind t ↔
        (∃ o, GameMonkey.find strings t = some o) ∧
          ∀ u, 0 ∉ u → ∀ o, GameMonkey.find strings (t ++ u) = some o → o.Shows (t ++ u)) := by
  refine ⟨fun strt => ?_, fun strings => ?_, fun heap stack strings => ?_⟩
  · exact ⟨Lua.push_shown hs hl, Lua.text_shown ht⟩
  · exact ⟨Squirrel.push_shown hs hl, Squirrel.text_shown ht⟩
  · exact ⟨GameMonkey.push_shown_iff hs hl, GameMonkey.text_shown_iff ht hshort⟩

/-- `a.AsString() + "\n"` in GameMonkey, where the to-string method writes `hello` into a
buffer of zeros: the string has 256 characters, the newline goes after them, and what
`strcmp` sees of that is found to be the string before. `PushString("hello", 4)` is read on
to the end of `hello`. -/
theorem gm_text_length :
    let hello := cstr "hello"
    let vm := GameMonkey.stringVm [0] [0]
    let behind := List.replicate 251 0
    let made := vm.pushBuffer [] (hello ++ 0 :: behind)
    let line := vm.concat made.2 made.1 { chars := cstr "\n" ++ [0], length := 1 }
    made.1.length = 256 ∧ line.1.length = 256 ∧ cString line.1.chars = hello ∧ ¬ TextShown vm [] behind hello ∧
      cString (vm.pushString [] (hello ++ 0 :: behind) 4).1.chars = hello ∧ ¬ PushShown vm [] behind hello 4 := by
  intro hello vm behind made line
  have hlength : made.1.length = 256 := by decide
  have hpush : ¬ PushShown vm [] behind hello 4 := by
    unfold PushShown
    decide
  refine ⟨hlength, by decide, by decide, fun h => ?_, by decide, hpush⟩
  exact absurd (hlength.symm.trans h.1.1) (by decide)

/-- The first two bytes of `hello`, and an object that writes `hi`. -/
theorem strings_shown_hello :
    PushShown Lua.stringVm [] [] (cstr "hello") 2 ∧ TextShown Squirrel.stringVm [] [] (cstr "hi") := by
  have h := strings_shown_iff (cstr "hello") (cstr "hi") 2 (by decide) (by decide) (by decide) (by decide) []
  exact ⟨(h.1 []).1, (h.2.1 []).2⟩

end MultiScript
