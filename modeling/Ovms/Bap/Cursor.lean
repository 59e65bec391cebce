import Mathlib.Data.List.Basic

/-!
# Body Cursors

`Reader` and `Writer` (`bap/bap.h`): the bounds-checked cursors over an element body. The
first access past the end latches `ok = false`; scalar reads past the end answer zero and
consume nothing.

A reader is the bytes that are left of its body. The positions of the source are
`uint16_t` and never wrap here, because a body has at most 255 bytes. A writer is the
bytes written so far, under the capacity of its buffer.
-/

namespace Ovms.Bap

/-- A read cursor: the bytes left, and whether every access so far was inside. -/
structure Reader where
  rest : List UInt8
  ok : Bool
  deriving DecidableEq, Repr

namespace Reader

/-- A cursor at the start of `body`. -/
def ofBody (body : List UInt8) : Reader := ⟨body, true⟩

/-- Read one byte. -/
def u8 : StateM Reader UInt8 := fun r =>
  match r.rest with
  | b :: rest => (b, { r with rest })
  | [] => (0, { r with ok := false })

/-- Read a little-endian 16-bit scalar. -/
def u16le : StateM Reader UInt16 := fun r =>
  match r.rest with
  | lo :: hi :: rest => (lo.toUInt16 ||| hi.toUInt16 <<< 8, { r with rest })
  | _ => (0, { r with ok := false })

/-- Skip `k` bytes. -/
def skip (k : ℕ) : StateM Reader Unit := fun r =>
  if k > r.rest.length then ((), ⟨[], false⟩) else ((), { r with rest := r.rest.drop k })

/-- What `strLp` hands back: the number of characters copied, the destination buffer and
the truncation flag. -/
structure LpString where
  copied : UInt8
  out : List UInt8
  truncated : Bool
  deriving DecidableEq, Repr

/-- Read a length-prefixed string into the buffer `out` of `cap` bytes. The whole declared
length is consumed; at most `cap - 1` characters are copied, and terminated by zero. -/
def strLp (out : List UInt8) (cap : UInt8) : StateM Reader LpString := do
  let len ← u8
  let r ← get
  let empty : LpString := ⟨0, if cap ≠ 0 then out.set 0 0 else out, false⟩
  if !r.ok then pure empty
  else if len.toNat > r.rest.length then
    set { r with ok := false }
    pure empty
  else
    let copy := if cap ≠ 0 && len > cap - 1 then cap - 1 else len
    let filled := r.rest.take copy.toNat ++ out.drop copy.toNat
    set { r with rest := r.rest.drop len.toNat }
    pure ⟨copy, if cap ≠ 0 then filled.set copy.toNat 0 else filled, copy < len⟩

/-- Reading a string from a cursor that has its length byte. -/
theorem strLp_cons (out : List UInt8) (cap len : UInt8) (rest : List UInt8) :
    strLp out cap ⟨len :: rest, true⟩
      = if len.toNat > rest.length then
          (⟨0, if cap ≠ 0 then out.set 0 0 else out, false⟩, ⟨rest, false⟩)
        else
          (let copy := if cap ≠ 0 && len > cap - 1 then cap - 1 else len
           let filled := rest.take copy.toNat ++ out.drop copy.toNat
           (⟨copy, if cap ≠ 0 then filled.set copy.toNat 0 else filled, copy < len⟩,
            ⟨rest.drop len.toNat, true⟩)) := by
  by_cases hlen : len.toNat > rest.length
  · rw [if_pos hlen]
    exact congrFun (if_pos hlen) (⟨rest, true⟩ : Reader)
  · rw [if_neg hlen]
    exact congrFun (if_neg hlen) (⟨rest, true⟩ : Reader)

theorem strLp_not_ok (out : List UInt8) (cap : UInt8) (rest : List UInt8) :
    (strLp out cap ⟨rest, false⟩).2.ok = false := by
  cases rest <;> rfl

/-- A string that fits the body is consumed as a whole. -/
theorem strLp_eq {len : UInt8} {rest : List UInt8} (out : List UInt8) {cap : UInt8}
    (hcap : cap ≠ 0) (h : len.toNat ≤ rest.length) :
    strLp out cap ⟨len :: rest, true⟩
      = (let copy := if len > cap - 1 then cap - 1 else len
         (⟨copy, (rest.take copy.toNat ++ out.drop copy.toNat).set copy.toNat 0, copy < len⟩,
          ⟨rest.drop len.toNat, true⟩)) := by
  rw [strLp_cons, if_neg (Nat.not_lt.mpr h)]
  simp [hcap]

theorem strLp_short {rest : List UInt8} (out : List UInt8) {cap : UInt8}
    (h : ∀ len tail, rest = len :: tail → tail.length < len.toNat) :
    (strLp out cap ⟨rest, true⟩).2.ok = false := by
  rcases rest with - | ⟨len, tail⟩
  · rfl
  · rw [strLp_cons, if_pos (h len tail rfl)]

/-- Whenever `act` ends without a failed access, there was none before it and it took at
least `n` bytes. -/
def Consumes {α : Type} (n : ℕ) (act : StateM Reader α) : Prop :=
  ∀ r, (act r).2.ok = true → r.ok = true ∧ (act r).2.rest.length + n ≤ r.rest.length

namespace Consumes

variable {α β : Type} {n : ℕ}

/-- What a sequence consumes. -/
theorem bind {m : ℕ} {act : StateM Reader α} {f : α → StateM Reader β}
    (h : Consumes m act) (hf : ∀ x, Consumes n (f x)) : Consumes (n + m) (act >>= f) := by
  intro r hok
  obtain ⟨hmid, hlen⟩ := hf (act r).1 (act r).2 hok
  obtain ⟨hr, hlen'⟩ := h r hmid
  refine ⟨hr, Nat.le_trans ?_ hlen'⟩
  rw [← Nat.add_assoc]
  exact Nat.add_le_add_right hlen m

theorem u8_bind {f : UInt8 → StateM Reader β} (hf : ∀ x, Consumes n (f x)) :
    Consumes (n + 1) (u8 >>= f) := by
  refine bind (fun r hok => ?_) hf
  obtain ⟨_ | ⟨b, rest⟩, ok⟩ := r
  · cases hok
  · exact ⟨hok, Nat.le_refl _⟩

theorem u16le_bind {f : UInt16 → StateM Reader β} (hf : ∀ x, Consumes n (f x)) :
    Consumes (n + 2) (u16le >>= f) := by
  refine bind (fun r hok => ?_) hf
  obtain ⟨_ | ⟨lo, _ | ⟨hi, rest⟩⟩, ok⟩ := r
  · cases hok
  · cases hok
  · exact ⟨hok, Nat.le_refl _⟩

/-- A string consumes at least its length byte. -/
theorem strLp_bind {out : List UInt8} {cap : UInt8} {f : LpString → StateM Reader β}
    (hf : ∀ x, Consumes n (f x)) : Consumes (n + 1) (strLp out cap >>= f) := by
  refine bind (fun r hok => ?_) hf
  obtain ⟨bytes, _ | _⟩ := r
  · rw [strLp_not_ok] at hok
    cases hok
  · rcases bytes with - | ⟨len, tail⟩
    · cases hok
    · rw [strLp_cons] at hok ⊢
      split at hok
      · cases hok
      · rename_i hlen
        rw [if_neg hlen, List.length_drop, List.length_cons]
        exact ⟨rfl, by omega⟩

end Consumes

end Reader

/-- A write cursor: the bytes written, the capacity of the buffer, and whether every
access so far was inside. -/
structure Writer where
  out : List UInt8
  cap : ℕ
  ok : Bool
  deriving DecidableEq, Repr

namespace Writer

/-- A cursor at the start of a buffer of `cap` bytes. -/
def ofCap (cap : ℕ) : Writer := ⟨[], cap, true⟩

/-- Write one byte. -/
def u8 (w : Writer) (v : UInt8) : Writer :=
  if w.out.length + 1 > w.cap then { w with ok := false } else { w with out := w.out ++ [v] }

/-- Write a little-endian 16-bit scalar. -/
def u16le (w : Writer) (v : UInt16) : Writer :=
  if w.out.length + 2 > w.cap then { w with ok := false }
  else { w with out := w.out ++ [(v &&& 0xFF).toUInt8, (v >>> 8 &&& 0xFF).toUInt8] }

theorem u8_eq {out : List UInt8} {cap : ℕ} (v : UInt8) (h : out.length + 1 ≤ cap) :
    u8 ⟨out, cap, true⟩ v = ⟨out ++ [v], cap, true⟩ :=
  if_neg (Nat.not_lt.mpr h)

theorem u16le_eq {out : List UInt8} {cap : ℕ} (v : UInt16) (h : out.length + 2 ≤ cap) :
    u16le ⟨out, cap, true⟩ v
      = ⟨out ++ [(v &&& 0xFF).toUInt8, (v >>> 8 &&& 0xFF).toUInt8], cap, true⟩ :=
  if_neg (Nat.not_lt.mpr h)

/-- Write a length-prefixed string of `len` characters of `s`. -/
def strLp (w : Writer) (s : List UInt8) (len : UInt8) : Writer :=
  let w := w.u8 len
  if w.out.length + len.toNat > w.cap then { w with ok := false }
  else { w with out := w.out ++ s.take len.toNat }

end Writer

end Ovms.Bap
