/-
A file and a descriptor on it, with what the system lets a program rely on. A `read` or a
`write` may take less than it is asked for, be interrupted or fail; which of these is given
from outside, as the replies to the next calls. `overwrite` is what a write makes of the
content, and `overwrite_append` that two writes, one behind the other, are one.
-/
import Mathlib.Data.List.Basic

namespace MultiScript.File

variable {β : Type}

/-! ## Content -/

/-- So many items from `pos` on, as far as there are any. -/
def slice (content : List β) (pos n : Nat) : List β := (content.drop pos).take n

theorem slice_length (content : List β) (pos n : Nat) :
    (slice content pos n).length = min n (content.length - pos) := by
  rw [slice, List.length_take, List.length_drop]

theorem slice_zero (content : List β) (pos : Nat) : slice content pos 0 = [] := List.take_zero

theorem slice_add (content : List β) (pos m n : Nat) :
    slice content pos (m + n) = slice content pos m ++ slice content (pos + m) n := by
  rw [slice, List.take_add, List.drop_drop]
  rfl

/-- A part of a slice is a slice. -/
theorem slice_take (content : List β) (pos : Nat) {m n : Nat} (h : m ≤ n) :
    (slice content pos n).take m = slice content pos m := by
  rw [slice, List.take_take, Nat.min_eq_left h, slice]

theorem slice_drop (content : List β) (pos m n : Nat) :
    (slice content pos n).drop m = slice content (pos + m) (n - m) := by
  rw [slice, List.drop_take, List.drop_drop, slice]

theorem slice_append (before p behind : List β) : slice (before ++ p ++ behind) before.length p.length = p := by
  rw [slice, List.append_assoc, List.drop_left, List.take_left]

theorem slice_self (content : List β) (pos n : Nat) :
    slice content pos (slice content pos n).length = slice content pos n := by
  rw [slice_length, slice, slice, List.take_eq_take_iff, List.length_drop, Nat.min_assoc, Nat.min_self]

section Write

variable [Inhabited β]

/-- The content with `p` written at `pos`; what is skipped behind the end is filled. -/
def overwrite (content : List β) (pos : Nat) (p : List β) : List β :=
  if p = [] then content
  else (content ++ List.replicate (pos - content.length) default).take pos ++ p ++ content.drop (pos + p.length)

theorem overwrite_nil (content : List β) (pos : Nat) : overwrite content pos [] = content := if_pos rfl

theorem overwrite_pos (content : List β) (pos : Nat) {p : List β} (hp : p ≠ []) : overwrite content pos p =
    (content ++ List.replicate (pos - content.length) default).take pos ++ p ++ content.drop (pos + p.length) :=
      if_neg hp

theorem filled_length (content : List β) (pos : Nat) :
    ((content ++ List.replicate (pos - content.length) default).take pos).length = pos := by
  rw [List.length_take, List.length_append, List.length_replicate]
  omega

/-- Writing on where the write before ended is one write. -/
theorem overwrite_append (content : List β) (pos : Nat) (p q : List β) :
    overwrite content pos (p ++ q) = overwrite (overwrite content pos p) (pos + p.length) q := by
  by_cases hp : p = []
  · rw [hp, List.nil_append, overwrite_nil, List.length_nil, Nat.add_zero]
  by_cases hq : q = []
  · rw [hq, List.append_nil, overwrite_nil]
  have hpq : p ++ q ≠ [] := by simp [hp]
  have hfilled := filled_length content pos
  have hlength : pos + p.length - (overwrite content pos p).length = 0 := by
    rw [overwrite_pos _ _ hp, List.length_append, List.length_append, hfilled]
    omega
  have htake : (overwrite content pos p).take (pos + p.length) =
      (content ++ List.replicate (pos - content.length) default).take pos ++ p := by
    rw [overwrite_pos _ _ hp]
    exact List.take_left' (by rw [List.length_append, hfilled])
  have hdrop : (overwrite content pos p).drop (pos + p.length + q.length) = content.drop (pos + (p ++ q).length) := by
    have hsplit : pos + p.length =
      ((content ++ List.replicate (pos - content.length) default).take pos ++ p).length := by
      rw [List.length_append, hfilled]
    rw [overwrite_pos _ _ hp, ← List.drop_drop, List.drop_left' hsplit.symm, List.drop_drop,
      List.length_append, Nat.add_assoc]
  rw [overwrite_pos content pos hpq, overwrite_pos _ _ hq, hlength, List.replicate_zero, List.append_nil, htake, hdrop]
  simp only [List.append_assoc]

/-- What was written is read back. -/
theorem slice_overwrite (content : List β) (pos : Nat) (p : List β) :
    slice (overwrite content pos p) pos p.length = p := by
  by_cases hp : p = []
  · rw [hp]
    exact slice_zero _ _
  · rw [overwrite_pos _ _ hp]
    have hslice := slice_append ((content ++ List.replicate (pos - content.length) default).take pos) p
      (content.drop (pos + p.length))
    rwa [filled_length] at hslice

/-- Writing at the end appends. -/
theorem overwrite_end (content p : List β) : overwrite content content.length p = content ++ p := by
  by_cases hp : p = []
  · rw [hp, overwrite_nil, List.append_nil]
  · rw [overwrite_pos _ _ hp, Nat.sub_self, List.replicate_zero, List.append_nil, List.take_length,
      List.drop_eq_nil_of_le (Nat.le_add_right _ _), List.append_nil]

end Write

/-! ## The system -/

/-- Why a call failed. -/
inductive Errno
  | eintr
  | eagain
  | other
deriving DecidableEq, Repr

/-- The reply to a call: it takes what it is asked for up to one more than `k`, or fails. -/
inductive Reply
  | upTo (k : Nat)
  | error (e : Errno)
deriving DecidableEq, Repr

/-- A file, where the descriptor stands in it, and the replies to the next calls; behind
these a call takes all that it can. -/
structure Descriptor (β : Type) where
  content : List β
  pos : Nat
  replies : List Reply := []

namespace Descriptor

/-- The reply to a call that is asked for `n`. -/
def reply (fd : Descriptor β) (n : Nat) : Except Errno Nat :=
  match fd.replies with
  | [] => .ok n
  | .upTo k :: _ => .ok (min (k + 1) n)
  | .error e :: _ => .error e

/-- `read(fd, p, n)`. -/
def read (fd : Descriptor β) (n : Nat) : Except Errno (List β) × Descriptor β :=
  match fd.reply n with
  | .ok k => (.ok (slice fd.content fd.pos k),
      { fd with pos := fd.pos + (slice fd.content fd.pos k).length, replies := fd.replies.tail })
  | .error e => (.error e, { fd with replies := fd.replies.tail })

/-- `write(fd, p, n)`: how much of `p` was written. -/
def write [Inhabited β] (fd : Descriptor β) (p : List β) : Except Errno Nat × Descriptor β :=
  match fd.reply p.length with
  | .ok k => (.ok k,
      { content := overwrite fd.content fd.pos (p.take k), pos := fd.pos + k, replies := fd.replies.tail })
  | .error e => (.error e, { fd with replies := fd.replies.tail })

/-- `lseek(fd, ofs, SEEK_SET)`. -/
def seekSet (fd : Descriptor β) (ofs : Int) : Option Nat × Descriptor β :=
  if 0 ≤ ofs then (some ofs.toNat, { fd with pos := ofs.toNat }) else (none, fd)

/-- `lseek(fd, ofs, SEEK_END)`. -/
def seekEnd (fd : Descriptor β) (ofs : Int) : Option Nat × Descriptor β := fd.seekSet (fd.content.length + ofs)

/-- An error some call will fail with. -/
def Fails (fd : Descriptor β) (e : Errno) : Prop := Reply.error e ∈ fd.replies

variable {fd : Descriptor β} {n : Nat}

theorem reply_ok {k : Nat} (h : fd.reply n = .ok k) : k ≤ n ∧ (k = 0 → n = 0) := by
  unfold reply at h
  split at h
  · cases h
    exact ⟨Nat.le_refl _, id⟩
  · cases h
    omega
  · cases h

/-- What fails was due to fail, and the calls to come are fewer. -/
theorem reply_error {e : Errno} (h : fd.reply n = .error e) :
    fd.Fails e ∧ fd.replies.tail.length < fd.replies.length := by
  unfold reply at h
  unfold Fails
  split at h
  · cases h
  · cases h
  · rename_i heq
    cases h
    rw [heq]
    exact ⟨List.mem_cons_self, Nat.lt_succ_self _⟩

/-- What a call that was asked to read so many may answer, and where it leaves the descriptor. -/
inductive Took (fd : Descriptor β) (n : Nat) : Except Errno (List β) → Descriptor β → Prop
  | ok {p fd'} (slice : p = slice fd.content fd.pos p.length) (le : p.length ≤ n)
      (some : p = [] → n = 0 ∨ fd.content.length ≤ fd.pos) (content : fd'.content = fd.content)
      (pos : fd'.pos = fd.pos + p.length) (replies : ∀ r ∈ fd'.replies, r ∈ fd.replies) : Took fd n (.ok p) fd'
  | error {e fd'} (fails : fd.Fails e) (content : fd'.content = fd.content) (pos : fd'.pos = fd.pos)
      (replies : ∀ r ∈ fd'.replies, r ∈ fd.replies) : Took fd n (.error e) fd'

theorem read_took (fd : Descriptor β) (n : Nat) : fd.Took n (fd.read n).1 (fd.read n).2 := by
  have hreplies : ∀ r ∈ fd.replies.tail, r ∈ fd.replies := fun r h => List.mem_of_mem_tail h
  cases h : fd.reply n with
  | ok k =>
    obtain ⟨hk, hzero⟩ := reply_ok h
    have hlength := slice_length fd.content fd.pos k
    simp only [read, h]
    refine .ok (slice_self _ _ _).symm (by omega) (fun hnil => ?_) rfl rfl hreplies
    rw [hnil, List.length_nil] at hlength
    by_cases hn : k = 0
    · exact .inl (hzero hn)
    · exact .inr (by omega)
  | error e =>
    simp only [read, h]
    exact .error (reply_error h).1 rfl rfl hreplies

/-- What a call that was given `p` to write may answer, and what it has done. -/
inductive Wrote [Inhabited β] (fd : Descriptor β) (p : List β) : Except Errno Nat → Descriptor β → Prop
  | ok {k fd'} (le : k ≤ p.length) (some : k = 0 → p = [])
      (content : fd'.content = overwrite fd.content fd.pos (p.take k))
      (pos : fd'.pos = fd.pos + k) (replies : ∀ r ∈ fd'.replies, r ∈ fd.replies) : Wrote fd p (.ok k) fd'
  | error {e fd'} (fails : fd.Fails e) (content : fd'.content = fd.content) (pos : fd'.pos = fd.pos)
      (replies : ∀ r ∈ fd'.replies, r ∈ fd.replies) : Wrote fd p (.error e) fd'

theorem write_wrote [Inhabited β] (fd : Descriptor β) (p : List β) : fd.Wrote p (fd.write p).1 (fd.write p).2 := by
  have hreplies : ∀ r ∈ fd.replies.tail, r ∈ fd.replies := fun r h => List.mem_of_mem_tail h
  cases h : fd.reply p.length with
  | ok k =>
    obtain ⟨hk, hzero⟩ := reply_ok h
    simp only [write, h]
    exact .ok hk (fun h0 => List.eq_nil_of_length_eq_zero (hzero h0)) rfl rfl hreplies
  | error e =>
    simp only [write, h]
    exact .error (reply_error h).1 rfl rfl hreplies

/-- A write of a part is a write. -/
theorem Wrote.of_take [Inhabited β] {p : List β} {r : Except Errno Nat} {fd' : Descriptor β}
    (h : fd.Wrote (p.take n) r fd')
    (hn : n = 0 → p = []) : fd.Wrote p r fd' := by
  cases h with
  | @ok k _ le some content pos replies =>
    rw [List.length_take] at le
    rw [List.take_take, Nat.min_eq_left (by omega)] at content
    refine .ok (by omega) (fun h0 => ?_) content pos replies
    rcases List.take_eq_nil_iff.mp (some h0) with hzero | hnil
    · exact hn hzero
    · exact hnil
  | error fails content pos replies => exact .error fails content pos replies

theorem Wrote.again [Inhabited β] {p q : List β} {fd' fd'' : Descriptor β} {e : Errno} {r : Except Errno Nat}
    (h : fd.Wrote q (.error e) fd') (h' : fd'.Wrote p r fd'') : fd.Wrote p r fd'' := by
  cases h with
  | error fails content pos replies =>
    cases h' with
    | ok le some content' pos' replies' =>
      rw [content, pos] at content'
      exact .ok le some content' (by rw [pos', pos]) fun r hr => replies r (replies' r hr)
    | error fails' content' pos' replies' =>
      exact .error (replies _ fails') (content'.trans content) (pos'.trans pos) fun r hr => replies r (replies' r hr)

/-- A call that failed and was made again. -/
theorem Took.again {fd' fd'' : Descriptor β} {e : Errno} {r : Except Errno (List β)} (h : fd.Took n (.error e) fd')
    (h' : fd'.Took n r fd'') : fd.Took n r fd'' := by
  cases h with
  | error fails content pos replies =>
    cases h' with
    | ok slice' le' some' content' pos' replies' =>
      rw [content, pos] at slice' some'
      exact .ok slice' le' some' (content'.trans content) (by rw [pos', pos]) fun r hr => replies r (replies' r hr)
    | error fails' content' pos' replies' =>
      exact .error (replies _ fails') (content'.trans content) (pos'.trans pos) fun r hr => replies r (replies' r hr)

theorem read_error {e : Errno} {fd' : Descriptor β} (h : fd.read n = (.error e, fd')) :
    fd'.replies.length < fd.replies.length := by
  unfold read at h
  split at h
  · cases h
  · rename_i heq
    cases h
    exact (reply_error heq).2

theorem write_error [Inhabited β] {e : Errno} {p : List β} {fd' : Descriptor β} (h : fd.write p = (.error e, fd')) :
    fd'.replies.length < fd.replies.length := by
  unfold write at h
  split at h
  · cases h
  · rename_i heq
    cases h
    exact (reply_error heq).2

end Descriptor

end MultiScript.File
