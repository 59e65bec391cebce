import Ovms.EGolf.Reported

/-!
# The Identification Number of the e-Golf

The number has 17 characters, and comes in three parts, each in a frame of its own kind. Frames come
in any order, and again and again. Parts are written into a buffer, and bits say which have been
received; once all have, the number is reported, and further parts are ignored.
-/

open Ovms.Can
open Ovms.Bms (Arith)
open Ovms.BatCtrl (BatteryControl)

namespace Ovms.EGolf

open OvmsVehicleVWeGolf

variable {F : Type} [Arith F] {b : BatteryControl} {es : List Event}

/-! ### Parts -/

/-- The part of the identification number with a number, if a call brings it. -/
def Event.vinPart (i : Fin 3) : Event → Option (List UInt8)
  | can2 f =>
      if f.msgId = 0x6B4 ∧ f.u8 0 = .ofNat i then some (f.data.drop (if i = 0 then 5 else 1))
      else none
  | _ => none

/-- The parts with a number that were received. -/
def received (i : Fin 3) (es : List Event) : List (List UInt8) := es.filterMap (Event.vinPart i)

/-- All parts were received. -/
def Complete (es : List Event) : Prop := ∀ i, received i es ≠ []

/-- The latest parts, as a string. -/
def vinText (es : List Event) : List UInt8 :=
  cString ((List.finRange 3).flatMap fun i => (received i es).getLastD [])

/-- The bit of a part in `m_vin_parts_received`, and its place in `m_vin_buf`. -/
def partBit : Fin 3 → UInt8
  | 0 => 0x01
  | 1 => 0x02
  | 2 => 0x04

def partOffset : Fin 3 → ℕ
  | 0 => 0
  | 1 => 3
  | 2 => 10

def partLength (i : Fin 3) : ℕ := if i = 0 then 3 else 7

/-- The bits of the parts that were received. -/
def partBits (seen : Fin 3 → Bool) : UInt8 :=
  (if seen 0 then 0x01 else 0) ||| (if seen 1 then 0x02 else 0) ||| (if seen 2 then 0x04 else 0)

theorem partBits_update (seen : Fin 3 → Bool) (i : Fin 3) :
    partBits (Function.update seen i true) = partBits seen ||| partBit i := by
  rw [partBits, partBits]
  simp only [Function.update_apply]
  cases seen 0 <;> cases seen 1 <;> cases seen 2 <;> revert i <;> decide

theorem partBits_eq_seven (seen : Fin 3 → Bool) :
    partBits seen = 0x07 ↔ ∀ i, seen i = true := by
  rw [Fin.forall_fin_succ, Fin.forall_fin_two, partBits]
  change _ ↔ seen 0 = true ∧ seen 1 = true ∧ seen 2 = true
  cases seen 0 <;> cases seen 1 <;> cases seen 2 <;> decide

/-- A text in three parts, and a last byte. -/
def Parts (p : Fin 3 → List UInt8) (buf : List UInt8) : Prop :=
  (∀ i, (p i).length = partLength i) ∧ ∃ last, buf = p 0 ++ p 1 ++ p 2 ++ [last]

/-- A part is written over the one with its number. -/
theorem Parts.write {p : Fin 3 → List UInt8} {buf : List UInt8} (h : Parts p buf) {i : Fin 3}
    {x : List UInt8} (hx : x.length = partLength i) : Parts (Function.update p i x)
      (buf.take (partOffset i) ++ x ++ buf.drop (partOffset i + x.length)) := by
  obtain ⟨hlen, last, rfl⟩ := h
  have h0 := hlen 0
  have h1 := hlen 1
  have h2 := hlen 2
  refine ⟨fun j => ?_, last, ?_⟩
  · rw [Function.update_apply]
    split
    next heq => rw [heq, hx]
    next => exact hlen j
  · have hmiddle (a c : List UInt8) {m : List UInt8} (hm : m.length = x.length) :
        (a ++ m ++ c).take a.length ++ x ++ (a ++ m ++ c).drop (a.length + x.length) =
          a ++ x ++ c := by
      rw [← hm, ← List.length_append, List.drop_left, List.append_assoc a m c, List.take_left]
    match i with
    | 0 =>
      have h := hmiddle [] (p 1 ++ p 2 ++ [last]) (h0.trans hx.symm)
      simp only [List.append_assoc, List.nil_append] at h ⊢
      exact h
    | 1 =>
      have hfirst : partOffset 1 = (p 0).length := h0.symm
      have h := hmiddle (p 0) (p 2 ++ [last]) (h1.trans hx.symm)
      simp only [hfirst, List.append_assoc] at h ⊢
      exact h
    | 2 =>
      have hfirst : partOffset 2 = (p 0 ++ p 1).length := by
        rw [List.length_append, h0, h1]
        rfl
      rw [hfirst]
      exact hmiddle (p 0 ++ p 1) [last] (h2.trans hx.symm)

/-- While parts are missing, those received are in the buffer. -/
structure Collecting (es : List Event) (v : Option (List UInt8) × UInt8 × List UInt8) : Prop where
  vin : v.1 = none
  bits : v.2.1 = partBits fun i => !(received i es).isEmpty
  parts : ∃ p, Parts p v.2.2 ∧ ∀ i x, (received i es).getLast? = some x → p i = x

theorem complete_iff (es : List Event) :
    Complete es ↔ partBits (fun i => !(received i es).isEmpty) = 0x07 := by
  rw [partBits_eq_seven]
  refine forall_congr' fun i => ?_
  rw [Bool.not_eq_true', ← Bool.not_eq_true, List.isEmpty_iff]

theorem received_concat (i : Fin 3) (es : List Event) (e : Event) :
    received i (es ++ [e]) = received i es ++ (e.vinPart i).toList := by
  rw [received, received, List.filterMap_append]
  cases h : e.vinPart i <;> simp [h]

/-- `m_vin_parts_received` and the rest, once a part has been written. -/
def finishVin (s : OvmsVehicleVWeGolf F) : Option (List UInt8) × UInt8 × List UInt8 :=
  if s.vinPartsReceived = 0x07 then
    (some (cString (s.vinBuf.set 17 0)), s.vinPartsReceived, s.vinBuf.set 17 0)
  else s.identity

omit [Arith F] in
/-- A frame with a part of the number, while parts are missing. -/
theorem identity_vinPart {s : OvmsVehicleVWeGolf F} (hs : s.vinPartsReceived ≠ 0x07)
    (f : CanFrame) : (s.vinPart f).identity = finishVin
      (if f.u8 0 = 0 then s.receivePart 0x01 0 [f.u8 5, f.u8 6, f.u8 7]
      else if f.u8 0 = 1 then s.receivePart 0x02 3 (f.data.drop 1)
      else if f.u8 0 = 2 then s.receivePart 0x04 10 (f.data.drop 1)
      else s) := by
  rw [OvmsVehicleVWeGolf.vinPart, if_neg hs, finishVin]
  dsimp only
  rw [apply_ite OvmsVehicleVWeGolf.identity]
  rfl

theorem drop_five (f : CanFrame) : f.data.drop 5 = [f.u8 5, f.u8 6, f.u8 7] := by
  have hget (i : ℕ) (hi : i < f.data.length) : f.data[i] = f.u8 i :=
    (List.getD_eq_getElem f.data 0 hi).symm
  have hsize := f.size
  rw [List.drop_eq_getElem_cons (by omega), List.drop_eq_getElem_cons (by omega),
    List.drop_eq_getElem_cons (by omega), List.drop_eq_nil_of_le (by omega), hget, hget, hget]

/-- A frame of the number brings the part that its first byte says, and no other. -/
theorem Event.vinPart_can2 {f : CanFrame} (hid : f.msgId = 0x6B4) {i : Fin 3}
    (hi : f.u8 0 = .ofNat i) (j : Fin 3) : Event.vinPart j (.can2 f) =
      if j = i then some (f.data.drop (if i = 0 then 5 else 1)) else none := by
  have hinj : ∀ i j : Fin 3, UInt8.ofNat i = .ofNat j → j = i := by decide
  rw [Event.vinPart, hi]
  by_cases hj : j = i
  · rw [if_pos hj, hj, if_pos ⟨hid, rfl⟩]
  · rw [if_neg hj, if_neg fun h => hj (hinj i j h.2)]

/-- What a call means for the number, while parts are missing. -/
theorem vinPart_cases {s : OvmsVehicleVWeGolf F} (hs : s.vinPartsReceived ≠ 0x07) (e : Event) :
    (∀ i, e.vinPart i = none) ∧ (s.step e).identity = s.identity ∨
      ∃ i x, e.vinPart i = some x ∧ (∀ j, j ≠ i → e.vinPart j = none) ∧
        x.length = partLength i ∧
        (s.step e).identity = finishVin (s.receivePart (partBit i) (partOffset i) x) := by
  by_cases hcan2 : ∃ f, e = .can2 f
  · obtain ⟨f, rfl⟩ := hcan2
    have hstep : s.step (.can2 f) = s.incomingFrameCan2 f := rfl
    rw [hstep, incomingFrameCan2]
    by_cases hid : f.msgId = 0x6B4
    · have hne : f.msgId ≠ 0x187 := by rw [hid]; decide
      have hlength (k : ℕ) : (f.data.drop k).length = 8 - k := by rw [List.length_drop, f.size]
      have hfound (i : Fin 3) (hi : f.u8 0 = .ofNat i)
          (hvin : (s.vinPart f).identity = finishVin
            (s.receivePart (partBit i) (partOffset i) (f.data.drop (if i = 0 then 5 else 1)))) :
          ∃ i x, Event.vinPart i (.can2 f) = some x ∧
            (∀ j, j ≠ i → Event.vinPart j (.can2 f) = none) ∧ x.length = partLength i ∧
            (s.vinPart f).identity = finishVin (s.receivePart (partBit i) (partOffset i) x) := by
        refine ⟨i, _, (Event.vinPart_can2 hid hi i).trans (if_pos rfl),
          fun j hj => (Event.vinPart_can2 hid hi j).trans (if_neg hj), ?_, hvin⟩
        rw [hlength, partLength]
        split <;> rfl
      have hvin := identity_vinPart hs f
      rw [if_neg hne, if_pos hid]
      by_cases h0 : f.u8 0 = 0
      · rw [if_pos h0, ← drop_five] at hvin
        exact .inr (hfound 0 h0 hvin)
      · rw [if_neg h0] at hvin
        by_cases h1 : f.u8 0 = 1
        · rw [if_pos h1] at hvin
          exact .inr (hfound 1 h1 hvin)
        · rw [if_neg h1] at hvin
          by_cases h2 : f.u8 0 = 2
          · rw [if_pos h2] at hvin
            exact .inr (hfound 2 h2 hvin)
          · rw [if_neg h2, finishVin, if_neg hs] at hvin
            refine .inl ⟨fun i => if_neg ?_, hvin⟩
            have hother : ∀ i : Fin 3, f.u8 0 ≠ .ofNat i :=
              Fin.forall_fin_succ.mpr ⟨h0, Fin.forall_fin_two.mpr ⟨h1, h2⟩⟩
            exact fun h => hother i h.2
    · refine .inl ⟨fun i => if_neg fun h => hid h.1, ?_⟩
      have hgear (nibble rc : ℕ) : (s.setGear nibble rc).identity = s.identity := rfl
      split
      · exact hgear _ _
      · rfl
  · have hnot := not_exists.mp hcan2
    refine .inl ⟨fun i => ?_, (step_cases s e).2.1 hnot⟩
    cases e with
    | can2 f => exact absurd rfl (hnot f)
    | _ => rfl

theorem vinText_eq {p : Fin 3 → List UInt8} {buf : List UInt8} (hp : Parts p buf)
    (hlast : ∀ i x, (received i es).getLast? = some x → p i = x) (h : Complete es) :
    cString (buf.set 17 0) = vinText es := by
  have hget (i : Fin 3) : (received i es).getLastD [] = p i := by
    obtain ⟨x, hx⟩ := Option.ne_none_iff_exists'.mp (mt List.getLast?_eq_none_iff.mp (h i))
    rw [List.getLastD_eq_getLast?, hx, hlast i x hx, Option.getD_some]
  obtain ⟨hlen, last, rfl⟩ := hp
  have hset : (p 0 ++ p 1 ++ p 2 ++ [last]).set 17 0 = p 0 ++ p 1 ++ p 2 ++ [0] := by
    have hlength : (p 0 ++ p 1 ++ p 2).length = 17 := by
      rw [List.length_append, List.length_append, hlen, hlen, hlen]
      rfl
    rw [List.set_append_right _ _ (by omega), hlength]
    rfl
  have hall : (List.finRange 3).flatMap (fun i => (received i es).getLastD []) =
      p 0 ++ p 1 ++ p 2 := by
    rw [show List.finRange 3 = [0, 1, 2] from rfl]
    simp only [List.flatMap_cons, List.flatMap_nil, hget, List.append_assoc, List.append_nil]
  rw [hset, vinText, hall, cString, cString, List.takeWhile_append]
  split
  next h =>
    rw [(List.takeWhile_prefix _).eq_of_length h]
    exact List.append_nil _
  next => rfl

/-- **Step lemma.** While parts are missing, a call either leaves some missing or completes the
number. -/
theorem collecting_step {s : OvmsVehicleVWeGolf F} (h : Collecting es s.identity)
    (hes : ¬ Complete es) (e : Event) :
    (¬ Complete (es ++ [e]) → Collecting (es ++ [e]) (s.step e).identity) ∧
      (Complete (es ++ [e]) → (s.step e).identity.1 = some (vinText (es ++ [e])) ∧
        (s.step e).identity.2.1 = 0x07) := by
  have hs : s.vinPartsReceived ≠ 0x07 := fun hseven =>
    hes ((complete_iff es).mpr (h.bits.symm.trans hseven))
  rcases vinPart_cases hs e with ⟨hnone, hsame⟩ | ⟨i, x, hi, hother, hx, hfinish⟩
  · have hreceived (i : Fin 3) : received i (es ++ [e]) = received i es := by
      rw [received_concat, hnone]
      exact List.append_nil _
    refine ⟨fun _ => ?_, fun hc => absurd (fun i => hreceived i ▸ hc i) hes⟩
    rw [hsame]
    exact ⟨h.vin, by simpa only [hreceived] using h.bits, by simpa only [hreceived] using h.parts⟩
  · have hself : received i (es ++ [e]) = received i es ++ [x] := by
      rw [received_concat, hi]
      rfl
    have hne {j : Fin 3} (hj : j ≠ i) : received j (es ++ [e]) = received j es := by
      rw [received_concat, hother j hj]
      exact List.append_nil _
    obtain ⟨p, hp, hlast⟩ := h.parts
    have hbits : s.vinPartsReceived ||| partBit i =
        partBits fun j => !(received j (es ++ [e])).isEmpty := by
      have hseen : (fun j => !(received j (es ++ [e])).isEmpty) =
          Function.update (fun j => !(received j es).isEmpty) i true := by
        funext j
        rw [Function.update_apply]
        split
        next hj => rw [hj, hself]; simp
        next hj => rw [hne hj]
      rw [hseen, partBits_update, ← h.bits]
      rfl
    have hparts := hp.write hx
    have hlast' : ∀ j y, (received j (es ++ [e])).getLast? = some y →
        Function.update p i x j = y := by
      intro j y hy
      rw [Function.update_apply]
      split
      next hj =>
        rw [hj, hself, List.getLast?_concat] at hy
        exact Option.some.inj hy
      next hj => exact hlast j y (hne hj ▸ hy)
    have hseven : Complete (es ++ [e]) ↔
        (s.receivePart (partBit i) (partOffset i) x).vinPartsReceived = 0x07 := by
      rw [complete_iff, ← hbits]
      rfl
    rw [hfinish, finishVin]
    refine ⟨fun hc => ?_, fun hc => ?_⟩
    · rw [if_neg (mt hseven.mpr hc)]
      exact ⟨h.vin, hbits, _, hparts, hlast'⟩
    · rw [if_pos (hseven.mp hc)]
      exact ⟨congrArg some (vinText_eq hparts hlast' hc), hseven.mp hc⟩

/-- A number that is complete is not looked at again. -/
theorem identity_fixed {s : OvmsVehicleVWeGolf F} (hs : s.vinPartsReceived = 0x07)
    (es : List Event) : (es.foldl step s).identity = s.identity := by
  induction es generalizing s with
  | nil => rfl
  | cons e es ih =>
      have hstep : (s.step e).identity = s.identity := by
        by_cases hcan2 : ∃ f, e = .can2 f
        · obtain ⟨f, rfl⟩ := hcan2
          have hgear (nibble rc : ℕ) : (s.setGear nibble rc).identity = s.identity := rfl
          have hincoming : s.step (.can2 f) = s.incomingFrameCan2 f := rfl
          rw [hincoming, incomingFrameCan2]
          split
          · exact hgear _ _
          · rw [OvmsVehicleVWeGolf.vinPart, if_pos hs, ite_self]
        · exact (step_cases s e).2.1 (not_exists.mp hcan2)
      exact (ih ((congrArg (·.2.1) hstep).trans hs)).trans hstep

theorem collecting_run (hes : ¬ Complete es) :
    Collecting es (run b es : OvmsVehicleVWeGolf F).identity := by
  induction es using List.reverseRecOn with
  | nil =>
      exact ⟨rfl, rfl, fun i => List.replicate (partLength i) 0,
        ⟨fun i => List.length_replicate, 0, rfl⟩, fun i x hx => by cases hx⟩
  | append_singleton es e ih =>
      have hbefore : ¬ Complete es := fun hc => hes fun i hnil => hc i <| by
        rw [received_concat, List.append_eq_nil_iff] at hnil
        exact hnil.1
      rw [run_concat]
      exact (collecting_step (ih hbefore) hbefore e).1 hes

/-- **The identification number.** No number is reported while a part of it is missing. The call
that completes it sets the number to the latest parts, and nothing changes it any more. -/
theorem vin_first_complete (b : BatteryControl) :
    (∀ es, ¬ Complete es → (run b es : OvmsVehicleVWeGolf F).metrics.vin = none) ∧
      ∀ before e after, ¬ Complete before → Complete (before ++ [e]) →
        (run b (before ++ e :: after) : OvmsVehicleVWeGolf F).metrics.vin =
          some (vinText (before ++ [e])) := by
  refine ⟨fun es hes => (collecting_run hes).vin, fun before e after hbefore hc => ?_⟩
  obtain ⟨hvin, hseven⟩ :=
    (collecting_step (F := F) (collecting_run (b := b) hbefore) hbefore e).2 hc
  have hrun : (run b (before ++ e :: after) : OvmsVehicleVWeGolf F) =
      after.foldl step ((run b before).step e) := List.foldl_append
  rw [hrun]
  exact (congrArg Prod.fst (identity_fixed hseven after)).trans hvin

/-- A frame of the number. -/
def vinFrame (bytes : List UInt8) : Event := .can2 (writeStandard 2 0x6B4 bytes)

/-- The three parts, the last one first. -/
theorem vin_first_complete_three :
    let b := BatteryControl.zeroed (fun _ => .ok) ⟨false, false, 0, 0⟩
    let first := vinFrame [0, 0, 0, 0, 0, 87, 86, 87]
    let middle := vinFrame [1, 90, 90, 90, 65, 85, 90, 71]
    let last := vinFrame [2, 87, 48, 48, 48, 48, 48, 49]
    (run b ([last, middle] ++ first :: [last]) : OvmsVehicleVWeGolf ℚ).metrics.vin =
      some (vinText ([last, middle] ++ [first])) :=
  (vin_first_complete (F := ℚ) _).2 [_, _] _ [_] (fun h => h 0 (by decide))
    (show ∀ i, received i _ ≠ [] by decide)

end Ovms.EGolf
