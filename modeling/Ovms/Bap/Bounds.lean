import Ovms.Bap.Position
import Ovms.Lib.Machine

/-!
# The Bounds of a Cursor

Every access of `bap::Reader` (`vehicle_vwegolf/src/bap/bap.h`) is checked before it is made, but
the position and the width of the access are added in 16 bits. In a buffer of 65535 bytes, or
nearly as many, the sum can wrap around; then the check lets an access behind the end through.
-/

open Lib

namespace Ovms.Bap

/-! ### Calls -/

/-- What is called. -/
inductive Call
  | u8
  | u16le
  | skip (k : UInt16)
  | strLp (out : List UInt8) (cap : UInt8)
  deriving DecidableEq, Repr

/-- How many characters `strLp` copies of so many. -/
def copied (cap len : UInt8) : UInt8 := if cap ≠ 0 && len > cap - 1 then cap - 1 else len

section Buffer

variable (body : List UInt8)

/-- The position behind a call. -/
def Call.perform (c : Position) : Call → Position
  | .u8 => (c.u8 body).2
  | .u16le => (c.u16le body).2
  | .skip k => c.skip body k
  | .strLp out cap => (c.strLp body out cap).2

/-- The bytes that are read at a position behind a check for `width`. -/
def bytesAt (c : Position) (width : UInt16) (count : ℕ) : List ℕ :=
  if c.Past body width then [] else (List.range count).map (c.pos.toNat + ·)

/-- The bytes that a call reads: a string has a length in front. -/
def Call.reads (c : Position) : Call → List ℕ
  | .u8 => bytesAt body c 1 1
  | .u16le => bytesAt body c 2 2
  | .skip _ => []
  | .strLp _ cap =>
      let len := (c.u8 body).1
      let behind := (c.u8 body).2
      bytesAt body c 1 1 ++
        if behind.ok then bytesAt body behind len.toUInt16 (copied cap len).toNat else []

/-- The position behind calls, from the start of the buffer. -/
def reach (calls : List Call) : Position := calls.foldl (Call.perform body) ⟨0, true⟩

/-- Nothing behind the end is read, the position is never behind the end, and an error stays. -/
structure Within (calls : List Call) : Prop where
  reads : ∀ pre call post, calls = pre ++ call :: post →
    ∀ i ∈ call.reads body (reach body pre), i < body.length
  inside : ∀ pre, pre <+: calls → (reach body pre).Inside body
  latched : ∀ pre, pre <+: calls → (reach body pre).ok = false → (reach body calls).ok = false

/-- Bytes are in the buffer, or the check for `width` does not wrap. -/
def Fits (pos width count : ℕ) : Prop := pos + width < 65536 ∨ pos + count ≤ body.length

/-- The accesses of a call fit. -/
def Call.Fits (c : Position) : Call → Prop
  | .u8 => Bap.Fits body c.pos.toNat 1 1
  | .u16le => Bap.Fits body c.pos.toNat 2 2
  | .skip _ => True
  | .strLp _ cap =>
      let len := body.getD c.pos.toNat 0
      Bap.Fits body c.pos.toNat 1 1 ∧ (c.ok = true → c.pos.toNat < body.length →
        Bap.Fits body (c.pos.toNat + 1) len.toNat (copied cap len).toNat)

end Buffer

/-! ### One access -/

section Access

variable {body : List UInt8} {c : Position}

theorem past_iff_lt_mod (h : body.length ≤ 65535) (width : UInt16) :
    c.Past body width ↔ body.length < (c.pos.toNat + width.toNat) % 65536 := by
  have hlength : (UInt16.ofNat body.length).toNat = body.length := by
    rw [UInt16.toNat_ofNat']
    omega
  rw [Position.Past, gt_iff_lt, UInt16.lt_iff_toNat_lt, hlength, UInt16.toNat_add]

theorem inside_add (h : body.length ≤ 65535) {width : UInt16} (hpast : ¬ c.Past body width)
    (ok : Bool) : Position.Inside body ⟨c.pos + width, ok⟩ := by
  rw [past_iff_lt_mod h, Nat.not_lt] at hpast
  rwa [Position.Inside, UInt16.toNat_add]

/-- **The bytes behind a check** are in the buffer exactly if they fit. -/
theorem bytesAt_lt_iff (h : body.length ≤ 65535) (hc : c.Inside body) {width : UInt16} {count : ℕ}
    (hcount : count ≤ width.toNat) :
    (∀ i ∈ bytesAt body c width count, i < body.length) ↔
      Fits body c.pos.toNat width.toNat count := by
  rw [Position.Inside] at hc
  have hwidth := width.toNat_lt
  rw [bytesAt, Fits]
  split
  · next hpast =>
    rw [past_iff_lt_mod h] at hpast
    refine iff_of_true (fun i hi => absurd hi List.not_mem_nil) (.inl ?_)
    omega
  · next hpast =>
    rw [past_iff_lt_mod h] at hpast
    constructor
    · intro hlt
      rcases Nat.eq_zero_or_pos count with rfl | hpos
      · exact .inr (by omega)
      · have hlast := hlt (c.pos.toNat + (count - 1)) (List.mem_map_of_mem
          (List.mem_range.mpr (by omega)))
        exact .inr (by omega)
    · intro hfits i hi
      obtain ⟨j, hj, rfl⟩ := List.mem_map.mp hi
      rw [List.mem_range] at hj
      omega

theorem copied_le (cap len : UInt8) : (copied cap len).toNat ≤ len.toNat := by
  rw [copied]
  split
  · next hlong =>
    rw [Bool.and_eq_true, decide_eq_true_eq, decide_eq_true_eq, gt_iff_lt,
      UInt8.lt_iff_toNat_lt] at hlong
    exact Nat.le_of_lt hlong.2
  · exact Nat.le_refl _

end Access

/-! ### One call -/

section Step

variable {body : List UInt8} {c : Position}

/-- **No call moves the position behind the end.** -/
theorem inside_perform (h : body.length ≤ 65535) (hc : c.Inside body) (call : Call) :
    (call.perform body c).Inside body := by
  have hu8 : (c.u8 body).2.Inside body := by
    rw [Position.u8]
    split
    · exact hc
    · next hpast => exact inside_add h hpast c.ok
  cases call with
  | u8 => exact hu8
  | u16le =>
      rw [Call.perform, Position.u16le]
      split
      · exact hc
      · next hpast => exact inside_add h hpast c.ok
  | skip k =>
      rw [Call.perform, Position.skip]
      split
      · rw [Position.Inside, UInt16.toNat_ofNat']
        exact Nat.mod_le _ _
      · next hpast => exact inside_add h hpast c.ok
  | strLp out cap =>
      rw [Call.perform, Position.strLp]
      dsimp only
      split
      · exact hu8
      · split
        · exact hu8
        · next hpast => exact inside_add h hpast _

/-- An error stays. -/
theorem ok_perform (hok : c.ok = false) (call : Call) : (call.perform body c).ok = false := by
  have hu8 : (c.u8 body).2.ok = false := by
    rw [Position.u8]
    split
    · rfl
    · exact hok
  cases call with
  | u8 => exact hu8
  | u16le =>
      rw [Call.perform, Position.u16le]
      split
      · rfl
      · exact hok
  | skip k =>
      rw [Call.perform, Position.skip]
      split
      · rfl
      · exact hok
  | strLp out cap =>
      rw [Call.perform, Position.strLp]
      dsimp only
      rw [if_pos (by rw [hu8]; rfl)]
      exact hu8

/-- The length of a string is behind its first byte. -/
theorem u8_eq_of_fits (h : body.length ≤ 65535) (hfits : Fits body c.pos.toNat 1 1) :
    c.pos.toNat < body.length ∧
        c.u8 body = (body.getD c.pos.toNat 0, ⟨c.pos + 1, c.ok⟩) ∧
        (c.pos + 1).toNat = c.pos.toNat + 1 ∨
      body.length ≤ c.pos.toNat ∧ (c.u8 body).2.ok = false := by
  have hone : (1 : UInt16).toNat = 1 := rfl
  have hpast := past_iff_lt_mod (c := c) h 1
  rw [hone] at hpast
  rw [Fits] at hfits
  rw [Position.u8]
  split
  · next hp =>
    rw [hpast] at hp
    exact .inr ⟨by omega, rfl⟩
  · next hp =>
    rw [hpast] at hp
    refine .inl ⟨by omega, rfl, ?_⟩
    rw [UInt16.toNat_add, hone]
    omega

/-- **A call reads inside** exactly if its accesses fit. -/
theorem reads_lt_iff (h : body.length ≤ 65535) (hc : c.Inside body) (call : Call) :
    (∀ i ∈ call.reads body c, i < body.length) ↔ call.Fits body c := by
  cases call with
  | u8 => exact bytesAt_lt_iff h hc (Nat.le_refl 1)
  | u16le => exact bytesAt_lt_iff h hc (Nat.le_refl 2)
  | skip k => exact iff_of_true (fun i hi => absurd hi List.not_mem_nil) trivial
  | strLp out cap =>
      rw [Call.reads, Call.Fits, List.forall_mem_append, bytesAt_lt_iff h hc (Nat.le_refl 1)]
      refine and_congr_right fun hfits => ?_
      rcases u8_eq_of_fits h hfits with ⟨hlt, hu8, hpos⟩ | ⟨hle, hok⟩
      · rw [hu8]
        split
        · next hok =>
          have hbehind : Position.Inside body ⟨c.pos + 1, c.ok⟩ := by
            rw [Position.Inside, hpos]
            omega
          have hcount := copied_le cap (body.getD c.pos.toNat 0)
          rw [← UInt8.toNat_toUInt16 (body.getD c.pos.toNat 0)] at hcount
          rw [bytesAt_lt_iff h hbehind hcount, UInt8.toNat_toUInt16, hpos]
          exact ⟨fun hrest _ _ => hrest, fun hrest => hrest hok hlt⟩
        · next hok =>
          exact iff_of_true (fun i hi => absurd hi List.not_mem_nil) fun hok' => absurd hok' hok
      · rw [if_neg (by rw [hok]; decide)]
        exact iff_of_true (fun i hi => absurd hi List.not_mem_nil) fun _ hlt => by omega

end Step

/-! ### A run -/

section Run

variable {body : List UInt8}

theorem reach_append (pre post : List Call) :
    reach body (pre ++ post) = post.foldl (Call.perform body) (reach body pre) :=
  List.foldl_append

theorem inside_reach (h : body.length ≤ 65535) (calls : List Call) :
    (reach body calls).Inside body := by
  have hreach : Reachable (Call.perform body) (· = ⟨0, true⟩) (reach body calls) :=
    ⟨_, calls, rfl, rfl⟩
  refine hreach.invariant (I := Position.Inside body) ?_ fun _ call hc => inside_perform h hc call
  rintro _ rfl
  exact Nat.zero_le _

theorem ok_foldl (calls : List Call) {c : Position} (hok : c.ok = false) :
    (calls.foldl (Call.perform body) c).ok = false := by
  induction calls generalizing c with
  | nil => exact hok
  | cons call calls ih => exact ih (ok_perform hok call)

/-- **When a run stays within the buffer**: for every buffer whose length has 16 bits and all calls
in any order, exactly if their accesses fit. -/
theorem reads_within_iff (h : body.length ≤ 65535) (calls : List Call) :
    Within body calls ↔
      Along (Call.perform body) (fun c call => call.Fits body c) ⟨0, true⟩ calls := by
  rw [along_iff]
  constructor
  · intro hwithin pre call post heq
    exact (reads_lt_iff h (inside_reach h pre) call).mp (hwithin.reads pre call post heq)
  · intro hfits
    refine ⟨fun pre call post heq => ?_, fun pre _ => inside_reach h pre, ?_⟩
    · exact (reads_lt_iff h (inside_reach h pre) call).mpr (hfits pre call post heq)
    · rintro pre ⟨post, rfl⟩ hok
      rw [reach_append]
      exact ok_foldl post hok

/-- A byte, and a string of one character. -/
theorem within_bytes : Within [5, 1, 0x41] [.u8, .strLp [0, 0] 2] ↔
    Along (Call.perform [5, 1, 0x41]) (fun c call => call.Fits [5, 1, 0x41] c) ⟨0, true⟩
      [.u8, .strLp [0, 0] 2] :=
  reads_within_iff (by decide) _

/-- At the end of 65535 bytes, another one is read behind it. -/
theorem reads_u8_of_length (h : body.length = 65535) :
    reach body [.skip 65535] = ⟨65535, true⟩ ∧ 65535 ∈ Call.u8.reads body ⟨65535, true⟩ := by
  constructor
  · have hpast : ¬ Position.Past body ⟨0, true⟩ 65535 := by
      rw [Position.Past, h]
      decide
    exact if_neg hpast
  · have hpast : ¬ Position.Past body ⟨65535, true⟩ 1 := by
      rw [Position.Past, h]
      decide
    rw [Call.reads, bytesAt, if_neg hpast]
    exact List.mem_singleton_self 65535

theorem not_within : ¬ Within (List.replicate 65535 0) [.skip 65535, .u8] := by
  intro hwithin
  obtain ⟨hskip, hread⟩ := reads_u8_of_length (List.length_replicate (n := 65535) (a := 0))
  have hlt := hwithin.reads [.skip 65535] .u8 [] rfl 65535 (hskip ▸ hread)
  rw [List.length_replicate] at hlt
  exact Nat.lt_irrefl _ hlt

end Run

end Ovms.Bap
