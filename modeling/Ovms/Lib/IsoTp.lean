import Mathlib.Data.List.Forall2

/-!
# Segmentation by ISO 15765-2

A message of up to 4095 bytes travels in frames of `cap` bytes. The upper four bits of
the first byte tell the frames apart. A message that fits goes as one single frame, its
length in the lower four bits. A longer one starts with a first frame, which announces the
length in twelve bits and carries the first `cap - 2` bytes, and continues with
consecutive frames of `cap - 1` bytes each, numbered modulo 16 from 1 on. A frame may be
filled up with anything after its content.
-/

namespace Lib.IsoTp

/-! ### Units and their segmentation -/

/-- A protocol data unit, without its filler. -/
inductive Pdu
  | single (data : List UInt8)
  | first (len : ℕ) (data : List UInt8)
  | consecutive (number : ℕ) (data : List UInt8)
  deriving DecidableEq, Repr

/-- The bytes of a unit on the wire. -/
def Pdu.bytes : Pdu → List UInt8
  | single data => UInt8.ofNat data.length :: data
  | first len data => UInt8.ofNat (0x10 + len / 256) :: UInt8.ofNat (len % 256) :: data
  | consecutive number data => UInt8.ofNat (0x20 + number) :: data

/-- A frame of `cap` bytes that starts with the bytes of a unit. -/
def Carries (cap : ℕ) (unit : Pdu) (frame : List UInt8) : Prop :=
  frame.length = cap ∧ unit.bytes <+: frame

/-- The consecutive units of `rest`, numbered modulo 16 from `number` on. -/
def consecutives (cap number : ℕ) (rest : List UInt8) : List Pdu :=
  if rest = [] ∨ cap ≤ 1 then []
  else .consecutive (number % 16) (rest.take (cap - 1)) ::
    consecutives cap (number + 1) (rest.drop (cap - 1))
termination_by rest.length
decreasing_by
  rename_i h
  rw [not_or] at h
  have hpos : 0 < rest.length := List.length_pos_of_ne_nil h.1
  rw [List.length_drop]
  omega

/-- The units of a message. -/
def segment (cap : ℕ) (msg : List UInt8) : List Pdu :=
  if msg.length ≤ cap - 1 then [.single msg]
  else .first msg.length (msg.take (cap - 2)) :: consecutives cap 1 (msg.drop (cap - 2))

variable {cap : ℕ}

@[simp] theorem consecutives_nil (number : ℕ) : consecutives cap number [] = [] := by
  rw [consecutives, if_pos (Or.inl rfl)]

/-- The next unit carries the next `cap - 1` bytes. -/
theorem consecutives_of_ne_nil (hcap : 2 ≤ cap) (number : ℕ) {rest : List UInt8}
    (h : rest ≠ []) :
    consecutives cap number rest =
      .consecutive (number % 16) (rest.take (cap - 1)) ::
        consecutives cap (number + 1) (rest.drop (cap - 1)) := by
  rw [consecutives, if_neg]
  rintro (hnil | hle)
  · exact h hnil
  · omega

/-- Induction along the consecutive units: a property of the empty rest that passes from
what follows a unit to what starts with it holds of every rest. -/
theorem consecutives_induction {P : ℕ → List UInt8 → Prop} (hcap : 2 ≤ cap)
    (hnil : ∀ number, P number [])
    (hcons : ∀ number rest, rest ≠ [] → P (number + 1) (rest.drop (cap - 1)) → P number rest)
    (number : ℕ) (rest : List UInt8) : P number rest := by
  by_cases h : rest = []
  · rw [h]
    exact hnil number
  · exact hcons number rest h (consecutives_induction hcap hnil hcons (number + 1) _)
termination_by rest.length
decreasing_by
  have hpos : 0 < rest.length := List.length_pos_of_ne_nil h
  rw [List.length_drop]
  omega

theorem consecutives_eq_nil (hcap : 2 ≤ cap) (number : ℕ) {rest : List UInt8} :
    consecutives cap number rest = [] ↔ rest = [] := by
  refine ⟨fun h => ?_, fun h => h ▸ consecutives_nil number⟩
  by_contra hne
  rw [consecutives_of_ne_nil hcap number hne] at h
  cases h

/-- The unit at a position: its number, and the bytes there. -/
theorem consecutives_getElem? (hcap : 2 ≤ cap) (number : ℕ) (rest : List UInt8) (k : ℕ) :
    (consecutives cap number rest)[k]? =
      if k * (cap - 1) < rest.length then
        some (.consecutive ((number + k) % 16) ((rest.drop (k * (cap - 1))).take (cap - 1)))
      else none := by
  induction number, rest using consecutives_induction hcap generalizing k with
  | hnil number =>
      rw [consecutives_nil, List.getElem?_nil, List.length_nil, if_neg (Nat.not_lt_zero _)]
  | hcons number rest hne ih =>
      have hpos : 0 < rest.length := List.length_pos_of_ne_nil hne
      rw [consecutives_of_ne_nil hcap number hne]
      match k with
      | 0 =>
          rw [List.getElem?_cons_zero, Nat.zero_mul, if_pos hpos]
          rfl
      | k + 1 =>
          rw [List.getElem?_cons_succ, ih, List.length_drop, List.drop_drop, Nat.succ_mul]
          have hiff : k * (cap - 1) < rest.length - (cap - 1) ↔
              k * (cap - 1) + (cap - 1) < rest.length := by omega
          have hnumber : number + 1 + k = number + (k + 1) := by omega
          simp only [hiff, hnumber, Nat.add_comm (cap - 1)]

/-! ### The receiver -/

/-- Collect `remaining` more bytes from consecutive frames, the first of them with the
given number. -/
def collect (cap : ℕ) : ℕ → ℕ → List (List UInt8) → Option (List UInt8)
  | _, 0, [] => some []
  | number, remaining, (pci :: data) :: frames =>
      if remaining ≠ 0 ∧ pci = UInt8.ofNat (0x20 + number % 16) then
        (collect cap (number + 1) (remaining - min remaining (cap - 1)) frames).map
          (data.take (min remaining (cap - 1)) ++ ·)
      else none
  | _, _, _ => none

/-- The message that a list of frames carries. -/
def decode (cap : ℕ) : List (List UInt8) → Option (List UInt8)
  | (pci :: data) :: frames =>
      if pci.toNat / 16 = 0 then
        if 0 < pci.toNat ∧ pci.toNat ≤ cap - 1 ∧ frames = [] then some (data.take pci.toNat)
        else none
      else if pci.toNat / 16 = 1 then
        match data with
        | low :: content =>
            let len := pci.toNat % 16 * 256 + low.toNat
            if cap ≤ len then
              (collect cap 1 (len - (cap - 2)) frames).map (content.take (cap - 2) ++ ·)
            else none
        | [] => none
      else none
  | _ => none

/-- The consecutive frames of `rest` give back `rest`. -/
theorem collect_of_carries (hcap : 2 ≤ cap) (number : ℕ) (rest : List UInt8)
    {frames : List (List UInt8)} (h : List.Forall₂ (Carries cap) (consecutives cap number rest)
      frames) : collect cap number rest.length frames = some rest := by
  induction number, rest using consecutives_induction hcap generalizing frames with
  | hnil number =>
      rw [consecutives_nil, List.forall₂_nil_left_iff] at h
      rw [h]
      rfl
  | hcons number rest hne ih =>
      rw [consecutives_of_ne_nil hcap number hne, List.forall₂_cons_left_iff] at h
      obtain ⟨frame, frames, ⟨-, tail, rfl⟩, hrest, rfl⟩ := h
      have hpos : rest.length ≠ 0 := mt List.eq_nil_of_length_eq_zero hne
      have hlen : (rest.take (cap - 1)).length = min rest.length (cap - 1) := by
        rw [List.length_take, Nat.min_comm]
      have hdrop : (rest.drop (cap - 1)).length = rest.length - min rest.length (cap - 1) := by
        rw [List.length_drop]
        omega
      rw [Pdu.bytes, List.cons_append, collect, if_pos ⟨hpos, rfl⟩, ← hdrop, ih hrest,
        Option.map_some, List.take_left' hlen, List.take_append_drop]

/-- **Round trip.** Frames that carry the units of a message decode to the message. -/
theorem decode_of_carries {msg : List UInt8} {frames : List (List UInt8)} (hcap : 2 ≤ cap)
    (hsmall : cap ≤ 16) (hpos : msg ≠ []) (hlen : msg.length ≤ 4095)
    (h : List.Forall₂ (Carries cap) (segment cap msg) frames) :
    decode cap frames = some msg := by
  have hne : 0 < msg.length := List.length_pos_of_ne_nil hpos
  rw [segment] at h
  split at h
  · rename_i hfits
    rw [List.forall₂_cons_left_iff] at h
    obtain ⟨frame, frames, ⟨-, tail, rfl⟩, hrest, rfl⟩ := h
    rw [List.forall₂_nil_left_iff] at hrest
    have hpci : (UInt8.ofNat msg.length).toNat = msg.length := by
      rw [UInt8.toNat_ofNat']
      omega
    have htype : msg.length / 16 = 0 := by omega
    simp only [Pdu.bytes, List.cons_append, decode, hpci, htype, if_true]
    rw [if_pos ⟨hne, hfits, hrest⟩, List.take_left]
  · rename_i hlong
    rw [List.forall₂_cons_left_iff] at h
    obtain ⟨frame, frames, ⟨-, tail, rfl⟩, hrest, rfl⟩ := h
    have hpci : (UInt8.ofNat (0x10 + msg.length / 256)).toNat = 0x10 + msg.length / 256 := by
      rw [UInt8.toNat_ofNat']
      omega
    have hlow : (UInt8.ofNat (msg.length % 256)).toNat = msg.length % 256 := by
      rw [UInt8.toNat_ofNat']
      omega
    have htype : (0x10 + msg.length / 256) / 16 = 1 := by omega
    have hannounced : (0x10 + msg.length / 256) % 16 * 256 + msg.length % 256 = msg.length := by
      omega
    have htake : (msg.take (cap - 2)).length = cap - 2 := by
      rw [List.length_take]
      omega
    have hdrop : (msg.drop (cap - 2)).length = msg.length - (cap - 2) := List.length_drop
    simp only [Pdu.bytes, List.cons_append, decode, hpci, hlow, htype, Nat.one_ne_zero, if_false,
      if_true, hannounced]
    rw [if_pos (by omega), ← hdrop, collect_of_carries hcap 1 _ hrest, Option.map_some,
      List.take_left' htake, List.take_append_drop]

theorem decode_eq_none_of_short {pci low : UInt8} {content : List UInt8}
    {frames : List (List UInt8)} (htype : pci.toNat / 16 = 1)
    (hshort : pci.toNat % 16 * 256 + low.toNat < cap) :
    decode cap ((pci :: low :: content) :: frames) = none := by
  simp only [decode, htype, Nat.one_ne_zero, if_false, if_true]
  exact if_neg (Nat.not_le.mpr hshort)

end Lib.IsoTp
