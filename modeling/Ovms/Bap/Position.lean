import Ovms.Bap.Cursor

/-!
# The Position of a Cursor

`bap::Reader` keeps a body, its length, and a position of 16 bits; `Reader` keeps the bytes
that are left. For a body of at most 65280 bytes no position that the code computes leaves 16
bits, whatever is read, and the two do the same (`u8_refines`, `u16le_refines`, `skip_refines`,
`strLp_refines`). The bodies of the transport have at most 255. In longer ones the position behind
a string can wrap, and the code takes it for inside (`strLp_wraps`).
-/

namespace Ovms.Bap

/-- The position of `bap::Reader`, and whether every access so far was inside. -/
structure Position where
  pos : UInt16
  ok : Bool
  deriving DecidableEq, Repr

namespace Position

variable (body : List UInt8) (c : Position)

/-- The check of every access: the position behind it is past the end, in 16 bits. -/
def Past (k : UInt16) : Prop := c.pos + k > UInt16.ofNat body.length

instance (k : UInt16) : Decidable (c.Past body k) := inferInstanceAs (Decidable (_ > _))

/-- `u8`. -/
def u8 : UInt8 × Position :=
  if c.Past body 1 then (0, { c with ok := false })
  else (body.getD c.pos.toNat 0, { c with pos := c.pos + 1 })

/-- `u16le`. -/
def u16le : UInt16 × Position :=
  if c.Past body 2 then (0, { c with ok := false })
  else
    ((body.getD c.pos.toNat 0).toUInt16 ||| (body.getD (c.pos.toNat + 1) 0).toUInt16 <<< 8,
      { c with pos := c.pos + 2 })

/-- `skip`. -/
def skip (k : UInt16) : Position :=
  if c.Past body k then ⟨UInt16.ofNat body.length, false⟩ else { c with pos := c.pos + k }

/-- `strLp`, into the buffer `out` of `cap` bytes. -/
def strLp (out : List UInt8) (cap : UInt8) : Reader.LpString × Position :=
  let len := (c.u8 body).1
  let c := (c.u8 body).2
  let empty : Reader.LpString := ⟨0, if cap ≠ 0 then out.set 0 0 else out, false⟩
  if !c.ok then (empty, c)
  else if c.Past body len.toUInt16 then (empty, { c with ok := false })
  else
    let copy := if cap ≠ 0 && len > cap - 1 then cap - 1 else len
    let filled := (body.drop c.pos.toNat).take copy.toNat ++ out.drop copy.toNat
    (⟨copy, if cap ≠ 0 then filled.set copy.toNat 0 else filled, copy < len⟩,
      { c with pos := c.pos + len.toUInt16 })

/-- The bytes that are left. -/
def toReader : Reader := ⟨body.drop c.pos.toNat, c.ok⟩

/-- The position is not behind the end. -/
def Inside : Prop := c.pos.toNat ≤ body.length

variable {body c}

/-- No position wraps, so the check is the one for the bytes that are left. -/
theorem past_iff (h : body.length ≤ 65280) (hc : c.Inside body) {k : UInt16}
    (hk : k.toNat ≤ 255) : c.Past body k ↔ (c.toReader body).rest.length < k.toNat := by
  have hadd : (c.pos + k).toNat = c.pos.toNat + k.toNat := by
    rw [Inside] at hc
    rw [UInt16.toNat_add]
    omega
  have hlength : (UInt16.ofNat body.length).toNat = body.length := by
    rw [UInt16.toNat_ofNat']
    omega
  rw [Inside] at hc
  rw [Past, gt_iff_lt, UInt16.lt_iff_toNat_lt, hadd, hlength, toReader, List.length_drop]
  omega

/-- An access that is inside moves the position over the bytes read. -/
theorem add_of_not_past (h : body.length ≤ 65280) (hc : c.Inside body) {k : UInt16}
    (hk : k.toNat ≤ 255) (hpast : ¬ c.Past body k) :
    Inside body { c with pos := c.pos + k } ∧
      toReader body { c with pos := c.pos + k } =
        ⟨(c.toReader body).rest.drop k.toNat, c.ok⟩ := by
  rw [past_iff h hc hk, toReader, List.length_drop] at hpast
  rw [Inside] at hc
  have hadd : (c.pos + k).toNat = c.pos.toNat + k.toNat := by
    rw [UInt16.toNat_add]
    omega
  constructor
  · rw [Inside, hadd]
    omega
  · rw [toReader, toReader, hadd, List.drop_drop]

theorem rest_eq_cons {k : ℕ} (hlt : c.pos.toNat + k < body.length) :
    body.drop (c.pos.toNat + k) =
      body.getD (c.pos.toNat + k) 0 :: body.drop (c.pos.toNat + k + 1) := by
  rw [List.drop_eq_getElem_cons hlt, List.getD_eq_getElem?_getD, List.getElem?_eq_getElem hlt,
    Option.getD_some]

/-- `u8` reads the first byte that is left. -/
theorem u8_refines (h : body.length ≤ 65280) (hc : c.Inside body) :
    (c.u8 body).2.Inside body ∧
      Reader.u8 (c.toReader body) = ((c.u8 body).1, (c.u8 body).2.toReader body) := by
  have hone : (1 : UInt16).toNat ≤ 255 := by decide
  rw [u8]
  split
  · rename_i hpast
    rw [past_iff h hc hone] at hpast
    have hnil : body.drop c.pos.toNat = [] :=
      List.eq_nil_of_length_eq_zero (Nat.lt_one_iff.mp hpast)
    refine ⟨hc, ?_⟩
    rw [toReader, toReader, hnil]
    rfl
  · rename_i hpast
    obtain ⟨hin, hrest⟩ := add_of_not_past h hc hone hpast
    rw [past_iff h hc hone, toReader, List.length_drop] at hpast
    have hlt : c.pos.toNat + 0 < body.length := by
      have : (1 : UInt16).toNat = 1 := rfl
      omega
    refine ⟨hin, ?_⟩
    rw [hrest, toReader, ← Nat.add_zero c.pos.toNat, rest_eq_cons hlt]
    rfl

/-- `u16le` reads the first two. -/
theorem u16le_refines (h : body.length ≤ 65280) (hc : c.Inside body) :
    (c.u16le body).2.Inside body ∧
      Reader.u16le (c.toReader body) = ((c.u16le body).1, (c.u16le body).2.toReader body) := by
  have htwo : (2 : UInt16).toNat ≤ 255 := by decide
  rw [u16le]
  split
  · rename_i hpast
    rw [past_iff h hc htwo, toReader] at hpast
    refine ⟨hc, ?_⟩
    rw [toReader, toReader]
    match body.drop c.pos.toNat, hpast with
    | [], _ => rfl
    | [_], _ => rfl
  · rename_i hpast
    obtain ⟨hin, hrest⟩ := add_of_not_past h hc htwo hpast
    rw [past_iff h hc htwo, toReader, List.length_drop] at hpast
    have hlt : c.pos.toNat + 1 < body.length := by
      have : (2 : UInt16).toNat = 2 := rfl
      omega
    have hfirst := rest_eq_cons (k := 0) (Nat.lt_of_succ_lt hlt)
    have hsecond := rest_eq_cons hlt
    refine ⟨hin, ?_⟩
    rw [Nat.add_zero] at hfirst
    rw [hrest, toReader, hfirst, hsecond]
    rfl

/-- `skip` drops as many as it says, or fails. -/
theorem skip_refines (h : body.length ≤ 65280) (hc : c.Inside body) {k : UInt16}
    (hk : k.toNat ≤ 255) :
    (c.skip body k).Inside body ∧
      Reader.skip k.toNat (c.toReader body) = ((), (c.skip body k).toReader body) := by
  rw [skip]
  split
  · rename_i hpast
    rw [past_iff h hc hk] at hpast
    have hlength : (UInt16.ofNat body.length).toNat = body.length := by
      rw [UInt16.toNat_ofNat']
      omega
    refine ⟨Nat.le_of_eq hlength, ?_⟩
    rw [Reader.skip, if_pos hpast, toReader, hlength, List.drop_length]
  · rename_i hpast
    obtain ⟨hin, hrest⟩ := add_of_not_past h hc hk hpast
    rw [past_iff h hc hk] at hpast
    refine ⟨hin, ?_⟩
    rw [Reader.skip, if_neg hpast, hrest]
    rfl

/-- A string is read by the length that was read before it. -/
theorem strLp_of_u8 (out : List UInt8) (cap : UInt8) {r r' : Reader} {len : UInt8}
    (h : Reader.u8 r = (len, r')) :
    Reader.strLp out cap r =
      (let empty : Reader.LpString := ⟨0, if cap ≠ 0 then out.set 0 0 else out, false⟩
       if !r'.ok then (empty, r')
       else if len.toNat > r'.rest.length then (empty, { r' with ok := false })
       else
         (let copy := if cap ≠ 0 && len > cap - 1 then cap - 1 else len
          let filled := r'.rest.take copy.toNat ++ out.drop copy.toNat
          (⟨copy, if cap ≠ 0 then filled.set copy.toNat 0 else filled, copy < len⟩,
            { r' with rest := r'.rest.drop len.toNat }))) := by
  obtain ⟨rfl, rfl⟩ : (Reader.u8 r).1 = len ∧ (Reader.u8 r).2 = r' := by rw [h]; exact ⟨rfl, rfl⟩
  by_cases hok : (!(Reader.u8 r).2.ok) = true
  · rw [if_pos hok]
    exact congrFun (if_pos hok) (Reader.u8 r).2
  · rw [if_neg hok]
    refine (congrFun (if_neg hok) (Reader.u8 r).2).trans ?_
    by_cases hlen : (Reader.u8 r).1.toNat > (Reader.u8 r).2.rest.length
    · rw [if_pos hlen]
      exact congrFun (if_pos hlen) (Reader.u8 r).2
    · rw [if_neg hlen]
      exact congrFun (if_neg hlen) (Reader.u8 r).2

/-- `strLp` reads a length and as many characters, or fails. -/
theorem strLp_refines (h : body.length ≤ 65280) (hc : c.Inside body) (out : List UInt8)
    (cap : UInt8) :
    (c.strLp body out cap).2.Inside body ∧
      Reader.strLp out cap (c.toReader body) =
        ((c.strLp body out cap).1, (c.strLp body out cap).2.toReader body) := by
  obtain ⟨hin, hread⟩ := u8_refines h hc
  have hlen : (c.u8 body).1.toUInt16.toNat ≤ 255 := by
    rw [UInt8.toNat_toUInt16]
    exact Nat.le_of_lt_succ (c.u8 body).1.toNat_lt
  rw [strLp_of_u8 out cap hread, strLp]
  dsimp only
  by_cases hok : (!(c.u8 body).2.ok) = true
  · have hok' : (!((c.u8 body).2.toReader body).ok) = true := hok
    rw [if_pos hok, if_pos hok']
    exact ⟨hin, rfl⟩
  · have hok' : ¬ (!((c.u8 body).2.toReader body).ok) = true := hok
    rw [if_neg hok, if_neg hok']
    have hpast := past_iff h hin hlen
    rw [UInt8.toNat_toUInt16] at hpast
    by_cases hlt : ((c.u8 body).2.toReader body).rest.length < (c.u8 body).1.toNat
    · rw [if_pos (hpast.mpr hlt), if_pos hlt]
      exact ⟨hin, rfl⟩
    · obtain ⟨hin', hrest⟩ := add_of_not_past h hin hlen (mt hpast.mp hlt)
      rw [UInt8.toNat_toUInt16] at hrest
      rw [if_neg (mt hpast.mp hlt), if_neg hlt, hrest]
      exact ⟨hin', rfl⟩

/-- Behind 65535 bytes a string is taken for inside. -/
theorem strLp_wraps {body : List UInt8} (h : body.length = 65535) (hlast : body.getD 65534 0 = 1)
    (out : List UInt8) : (strLp body ⟨65534, true⟩ out 0).2 = ⟨0, true⟩ := by
  have hu8 : u8 body ⟨65534, true⟩ = (1, ⟨65535, true⟩) := by
    have hpast : ¬ Past body ⟨65534, true⟩ 1 := by
      rw [Past, h]
      decide
    rw [u8, if_neg hpast]
    exact congrArg₂ Prod.mk hlast rfl
  have hpast : ¬ Past body ⟨65535, true⟩ (1 : UInt8).toUInt16 := by
    rw [Past, h]
    decide
  rw [strLp, hu8]
  dsimp only
  rw [if_neg (by decide), if_neg hpast]
  rfl

end Position

end Ovms.Bap
