import Ovms.Bap.Assembler
import Ovms.Bap.Send
import Ovms.Lib.Machine

/-!
# Reassembly of a New Telegram

What an assembler makes of the frames `sendElementFn` produces for one telegram, whatever
it has been fed before. Half-finished streams of lost telegrams may sit in its slots.

A continuation is looked up by channel and index only, from the highest slot down. The
slot of the new telegram therefore receives all of its continuations exactly when no
higher slot waits, on the same channel, for an index the telegram is going to use.

## Main results

* `feedAll_contFrames`: a slot that no higher slot obstructs collects its telegram.
* `not_delivered_of_obstructed`: a higher slot that waits for one of the indices takes
  the rest of the telegram.
* `newest_start_wins_iff`: the exact condition on the state before the telegram under
  which every telegram of a channel and a length is delivered.
-/

open Lib

namespace Ovms.Bap

/-! ### What is sent and what is delivered -/

/-- A sink that accepts every frame and keeps it. -/
def collect (sent : List (List UInt8)) (frame : List UInt8) : Bool × List (List UInt8) :=
  (true, sent ++ [frame])

/-- The frames `sendElementFn` hands over for a telegram when nothing is rejected. -/
def sentFrames (opcode lsg func group : UInt8) (body : List UInt8) : List (List UInt8) :=
  (sendElementFn collect [] opcode lsg func (some body) body.length group).2

theorem offer_collect (sent fs : List (List UInt8)) :
    offer collect sent fs = (fs.length, sent ++ fs) := by
  induction fs generalizing sent with
  | nil => simp [offer]
  | cons f fs ih => simp [offer, collect, ih]

theorem sentFrames_eq (opcode lsg func group : UInt8) (body : List UInt8) :
    sentFrames opcode lsg func group body = framing opcode lsg func group body := by
  simp only [sentFrames, sendElementFn_eq, offer_collect, List.nil_append]

/-- The ids of a telegram fit the header: an opcode whose header byte does not read as a
segmented frame, and 6-bit device and function ids. -/
structure Element.Legal (el : Element) : Prop where
  opcode : el.opcode.toNat ≤ 7
  lsg : el.lsg.toNat < 64
  func : el.func.toNat < 64

theorem Element.Legal.decodeHeader {el : Element} (h : el.Legal) :
    Bap.decodeHeader (encodeHeader el.opcode el.lsg el.func).1
      (encodeHeader el.opcode el.lsg el.func).2 = (el.opcode, el.lsg, el.func) :=
  decodeHeader_encodeHeader (by have := h.opcode; omega) h.lsg h.func

theorem Element.Legal.decodeElement {el : Element} (h : el.Legal) :
    Bap.decodeElement ((encodeHeader el.opcode el.lsg el.func).1 ::
      (encodeHeader el.opcode el.lsg el.func).2 :: el.body) = some el := by
  rw [Bap.decodeElement, h.decodeHeader]

/-- `feed` answered `true` exactly at the last frame, with the element `el`. -/
def DeliveredAtLast (outs : List (Option Element)) (el : Element) : Prop :=
  ∃ n, outs = List.replicate n none ++ [some el]

theorem not_deliveredAtLast_nil (el : Element) : ¬ DeliveredAtLast [] el := by
  rintro ⟨n, h⟩
  simpa using congrArg List.length h

/-- A frame that completes nothing defers the delivery to the rest. -/
theorem deliveredAtLast_cons_none {outs : List (Option Element)} {el : Element} :
    DeliveredAtLast (none :: outs) el ↔ DeliveredAtLast outs el := by
  constructor
  · rintro ⟨n, h⟩
    cases n with
    | zero => simp at h
    | succ n => exact ⟨n, by simpa [List.replicate_succ] using h⟩
  · rintro ⟨n, rfl⟩
    exact ⟨n + 1, by simp [List.replicate_succ]⟩

/-- A frame that completes an element must be the last one. -/
theorem deliveredAtLast_cons_some {outs : List (Option Element)} {e el : Element} :
    DeliveredAtLast (some e :: outs) el ↔ e = el ∧ outs = [] := by
  constructor
  · rintro ⟨n, h⟩
    cases n with
    | zero => simpa using h
    | succ n => simp [List.replicate_succ] at h
  · rintro ⟨rfl, rfl⟩
    exact ⟨0, rfl⟩

namespace Assembler

variable {maxBody maxPending : ℕ}

/-- Feed the bytes of one frame. -/
def feedBytes (a : Assembler maxBody maxPending) (frame : List UInt8) :
    Assembler maxBody maxPending × Option Element :=
  a.feed (.ofBytes frame)

/-- Feed frames one after the other; the answers of `feed`, in order. -/
def feedAll (a : Assembler maxBody maxPending) (frames : List (List UInt8)) :
    Assembler maxBody maxPending × List (Option Element) :=
  runOut feedBytes a frames

/-- The frames of the telegram `el` on channel `group`, fed one after the other, make
`feed` answer `true` exactly at the last one, with `el` itself. -/
def Delivers (a : Assembler maxBody maxPending) (group : UInt8) (el : Element) : Prop :=
  DeliveredAtLast (a.feedAll (sentFrames el.opcode el.lsg el.func group el.body)).2 el

end Assembler

/-! ### Which slot a continuation finds -/

theorem toNat_nextIndex (index : UInt8) :
    ((index + 1) &&& 0xF).toNat = (index.toNat + 1) % 16 := by
  have h1 : (1 : UInt8).toNat = 1 := rfl
  rw [Lib.UInt8.toNat_and_mask _ (k := 4) rfl, UInt8.toNat_add, h1]
  omega

theorem and_mask_index {index : UInt8} (h : index.toNat < 16) : index &&& 0xF = index := by
  refine UInt8.toNat_inj.mp ?_
  rw [Lib.UInt8.toNat_and_mask _ (k := 4) rfl]
  omega

theorem and_mask_group {group : UInt8} (h : group.toNat < 4) : group &&& 0x3 = group := by
  refine UInt8.toNat_inj.mp ?_
  rw [Lib.UInt8.toNat_and_mask _ (k := 2) rfl]
  omega

/-- No slot above `i` waits, on channel `group`, for one of the next `m` indices. -/
def ClearAbove {maxBody maxPending : ℕ} (a : AssemblerT maxBody maxPending) (i : ℕ)
    (group index : UInt8) (m : ℕ) : Prop :=
  ∀ j q, i < j → a.pending[j]? = some q → q.active = true → q.group = group →
    ∀ t < m, q.nextIndex.toNat ≠ (index.toNat + t) % 16

section Lookup

variable {maxBody maxPending : ℕ} {a a' : AssemblerT maxBody maxPending} {i m : ℕ}
  {group index : UInt8}

theorem ClearAbove.congr (h : ClearAbove a i group index m)
    (hsame : ∀ j, i < j → a'.pending[j]? = a.pending[j]?) :
    ClearAbove a' i group index m := by
  intro j q hj hq
  rw [hsame j hj] at hq
  exact h j q hj hq

theorem ClearAbove.next (h : ClearAbove a i group index (m + 1)) :
    ClearAbove a i group ((index + 1) &&& 0xF) m := by
  intro j q hj hq hact hgroup t ht hidx
  refine h j q hj hq hact hgroup (t + 1) (by omega) ?_
  rw [toNat_nextIndex] at hidx
  omega

/-- A waiting slot with nothing in the way is the one that is found. -/
theorem findPending_eq_some {pm : Pending} (hwf : a.Wf) (hpm : a.pending[i]? = some pm)
    (hact : pm.active = true) (hgroup : pm.group = group) (hidx : pm.nextIndex = index)
    (hclear : ClearAbove a i group index (m + 1)) : a.findPending group index = some i := by
  refine lastIdx?_eq_some_iff.mpr ⟨⟨pm, hpm, ?_⟩, fun j q hj hq => ?_⟩
  · have hlt := ((hwf.each pm (List.mem_of_getElem? hpm)).bound hact).1
    simp [hact, hgroup, hidx, hlt]
  · by_contra hmatch
    simp only [Bool.not_eq_false, Bool.and_eq_true, beq_iff_eq, decide_eq_true_eq] at hmatch
    obtain ⟨⟨⟨hqact, hqgroup⟩, hqidx⟩, -⟩ := hmatch
    have h16 := (hwf.each q (List.mem_of_getElem? hq)).index hqact
    refine hclear j q hj hq hqact hqgroup 0 (by omega) ?_
    rw [hqidx] at h16 ⊢
    omega

end Lookup

/-! ### Collecting the continuations -/

namespace Assembler

variable {maxBody maxPending : ℕ}

private theorem conts_succ {rest : List UInt8} (h : rest ≠ []) :
    (rest.length + 6) / 7 = ((rest.drop 7).length + 6) / 7 + 1 := by
  have := List.length_pos_of_ne_nil h
  rw [List.length_drop]
  omega

/-- **A slot in the clear collects its telegram**: the answers are `false` up to the last
continuation, which delivers the collected bytes under the header of the slot. -/
theorem feedAll_contFrames {group : UInt8} (hg : group.toNat < 4) (index : UInt8)
    (rest : List UInt8) :
    ∀ {a : Assembler maxBody maxPending} {i : ℕ} {pm : Pending}, index.toNat < 16 →
      rest ≠ [] → a.raw.pending[i]? = some pm → pm.active = true → pm.group = group →
      pm.nextIndex = index → pm.expected = pm.got + rest.length →
      ClearAbove a.raw i group index ((rest.length + 6) / 7) →
      DeliveredAtLast (a.feedAll (contFrames group index rest)).2
        ⟨(decodeHeader pm.hdr0 pm.hdr1).1, (decodeHeader pm.hdr0 pm.hdr1).2.1,
          (decodeHeader pm.hdr0 pm.hdr1).2.2, pm.buf.take pm.got ++ rest⟩ := by
  induction index, rest using contFrames.induct with
  | case1 index => intro a i pm _ hne; exact absurd rfl hne
  | case2 index rest hne ih =>
      intro a i pm h16 _ hpm hact hgroup hidx hexp hclear
      rw [conts_succ hne] at hclear
      obtain ⟨hshort, hstart, hcont, hseg, hsegidx⟩ := contControl_spec group index
      rw [and_mask_group hg] at hseg
      rw [and_mask_index h16] at hsegidx
      have hfind : a.raw.findPending (segGroup (contControl group index))
          (segIndex (contControl group index)) = some i := by
        rw [hseg, hsegidx]
        exact findPending_eq_some a.wf hpm hact hgroup hidx hclear
      obtain ⟨pm', hact', hgroup', hidx', hh0, hh1, hexp', hgot', hbuf', hraw, hres⟩ :=
        a.feed_cont (rest.take 7) hshort hstart hcont
          (by rw [List.length_take]; omega) hfind hpm
      have hpos := List.length_pos_of_ne_nil hne
      have hgot : pm'.got = pm.got + min 7 rest.length := by
        rw [hgot', List.length_take, hexp]
        omega
      have hbuf : pm'.buf.take pm'.got = pm.buf.take pm.got ++ rest.take 7 := by
        rw [hbuf', hexp, Nat.add_sub_cancel_left, List.take_take, Nat.min_comm, ← List.take_take,
          List.take_length]
      simp only [feedAll, contFrames_of_ne_nil group index hne, runOut_cons]
      rcases Nat.lt_or_ge 7 rest.length with hlong | hlast
      · -- not the last one: the slot stays, one index further
        have hlt : pm'.got < pm'.expected := by omega
        rw [AssemblerT.store_of_lt i _ hlt] at hraw hres
        have hi : i < a.raw.pending.length := (List.getElem?_eq_some_iff.mp hpm).1
        have hpm' : (a.feedBytes (contControl group index :: rest.take 7)).1.raw.pending[i]?
            = some pm' := by
          rw [feedBytes, hraw]
          exact List.getElem?_set_self hi
        have hnil : rest.drop 7 ≠ [] := by
          intro h
          have := congrArg List.length h
          rw [List.length_drop, List.length_nil] at this
          omega
        have hclear' : ClearAbove (a.feedBytes (contControl group index :: rest.take 7)).1.raw i
            group ((index + 1) &&& 0xF) (((rest.drop 7).length + 6) / 7) := by
          refine hclear.next.congr fun j hj => ?_
          rw [feedBytes, hraw]
          exact List.getElem?_set_ne (by omega)
        have hres' : (a.feedBytes (contControl group index :: rest.take 7)).2 = none := hres
        have hdel := ih (AssemblerT.nextIndex_lt index) hnil hpm' hact' (hgroup'.trans hgroup)
          (by rw [hidx', hidx])
          (by rw [hexp', hexp, hgot, List.length_drop]; omega) hclear'
        rw [hres', deliveredAtLast_cons_none]
        rw [hh0, hh1, hbuf, List.append_assoc, List.take_append_drop] at hdel
        exact hdel
      · -- the last one: the slot has its bytes
        have hge : pm'.expected ≤ pm'.got := by omega
        rw [AssemblerT.store_of_ge i _ hge] at hres
        have hres' : (a.feedBytes (contControl group index :: rest.take 7)).2
            = some pm'.complete.2 := hres
        rw [hres', List.drop_eq_nil_of_le hlast, contFrames_nil, runOut_nil,
          deliveredAtLast_cons_some]
        refine ⟨?_, rfl⟩
        rw [Pending.complete, hh0, hh1, hbuf, List.take_of_length_le hlast]

/-- A continuation that the slot does not expect, with no slot above that does, leaves this
slot and those above. -/
theorem pending_feedBytes_of_clear {group index : UInt8} (hg : group.toNat < 4)
    (h16 : index.toNat < 16) {chunk : List UInt8} (hlen : chunk.length ≤ 7)
    {a : Assembler maxBody maxPending} {i n : ℕ} {pm : Pending} (hpm : a.raw.pending[i]? = some pm)
    (hnow : pm.nextIndex ≠ index) (hclear : ClearAbove a.raw i group index (n + 1)) (j : ℕ)
    (hj : i ≤ j) :
    (a.feedBytes (contControl group index :: chunk)).1.raw.pending[j]? = a.raw.pending[j]? := by
  obtain ⟨hshort, hstart, hcont, hseg, hsegidx⟩ := contControl_spec group index
  rw [and_mask_group hg] at hseg
  rw [and_mask_index h16] at hsegidx
  cases hfind : a.raw.findPending (segGroup (contControl group index))
      (segIndex (contControl group index)) with
  | none =>
      obtain ⟨hpend, -⟩ := a.feed_orphan chunk hshort hstart hcont hlen hfind
      rw [feedBytes, hpend]
  | some k =>
      obtain ⟨q, hq, hqact, hqgroup, hqidx, -⟩ := AssemblerT.findPending_spec hfind
      rw [hseg] at hqgroup
      rw [hsegidx] at hqidx
      obtain ⟨pm', -, -, -, -, -, -, -, -, hraw, -⟩ :=
        a.feed_cont chunk hshort hstart hcont hlen hfind hq
      have hki : k < i := by
        rcases Nat.lt_trichotomy k i with hlt | rfl | hgt
        · exact hlt
        · obtain rfl : q = pm := Option.some.inj (hq.symm.trans hpm)
          exact absurd hqidx hnow
        · refine absurd ?_ (hclear k q hgt hq hqact hqgroup 0 (by omega))
          rw [hqidx]
          omega
      rw [feedBytes, hraw]
      exact AssemblerT.store_pending_ne _ _ (by omega)

/-- **A slot in the way takes the rest.** If slot `i` waits for one of the indices that
are to come, and no slot above it does, then the telegram is not delivered under any
header but the one of slot `i`. -/
theorem not_delivered_of_obstructed {group : UInt8} (hg : group.toNat < 4) (index : UInt8)
    (rest : List UInt8) :
    ∀ {a : Assembler maxBody maxPending} {i : ℕ} {pm : Pending} {el : Element},
      index.toNat < 16 → a.raw.pending[i]? = some pm → pm.active = true → pm.group = group →
      (∃ t < (rest.length + 6) / 7, pm.nextIndex.toNat = (index.toNat + t) % 16) →
      ClearAbove a.raw i group index ((rest.length + 6) / 7) →
      el.opcode ≠ (decodeHeader pm.hdr0 pm.hdr1).1 →
      ¬ DeliveredAtLast (a.feedAll (contFrames group index rest)).2 el := by
  induction index, rest using contFrames.induct with
  | case1 index =>
      rintro a i pm el _ _ _ _ ⟨t, ht, -⟩
      simp at ht
  | case2 index rest hne ih =>
      rintro a i pm el h16 hpm hact hgroup ⟨t, ht, hidx⟩ hclear hel
      rw [conts_succ hne] at hclear ht
      obtain ⟨hshort, hstart, hcont, hseg, hsegidx⟩ := contControl_spec group index
      rw [and_mask_group hg] at hseg
      rw [and_mask_index h16] at hsegidx
      have hlen : (rest.take 7).length ≤ 7 := by
        rw [List.length_take]
        omega
      simp only [feedAll, contFrames_of_ne_nil group index hne, runOut_cons]
      by_cases hnow : pm.nextIndex = index
      · -- slot `i` takes this continuation
        have hfind : a.raw.findPending (segGroup (contControl group index))
            (segIndex (contControl group index)) = some i := by
          rw [hseg, hsegidx]
          exact findPending_eq_some a.wf hpm hact hgroup hnow hclear
        obtain ⟨pm', hact', hgroup', hidx', hh0, hh1, -, -, -, hraw, hres⟩ :=
          a.feed_cont (rest.take 7) hshort hstart hcont hlen hfind hpm
        rcases Nat.lt_or_ge pm'.got pm'.expected with hlt | hge
        · rw [AssemblerT.store_of_lt i _ hlt] at hraw hres
          have hres' : (a.feedBytes (contControl group index :: rest.take 7)).2 = none := hres
          rw [hres', deliveredAtLast_cons_none]
          by_cases hnil : rest.drop 7 = []
          · rw [hnil, contFrames_nil, runOut_nil]
            exact not_deliveredAtLast_nil el
          · have hi : i < a.raw.pending.length := (List.getElem?_eq_some_iff.mp hpm).1
            have hpm' : (a.feedBytes
                (contControl group index :: rest.take 7)).1.raw.pending[i]? = some pm' := by
              rw [feedBytes, hraw]
              exact List.getElem?_set_self hi
            refine ih (AssemblerT.nextIndex_lt index) hpm' hact' (hgroup'.trans hgroup)
              ⟨0, by rw [conts_succ hnil]; omega, ?_⟩ (hclear.next.congr fun j hj => ?_)
              (by rwa [hh0, hh1])
            · rw [hidx', hnow]
              have := AssemblerT.nextIndex_lt index
              omega
            · rw [feedBytes, hraw]
              exact List.getElem?_set_ne (by omega)
        · rw [AssemblerT.store_of_ge i _ hge] at hres
          have hres' : (a.feedBytes (contControl group index :: rest.take 7)).2
              = some pm'.complete.2 := hres
          rw [hres', deliveredAtLast_cons_some]
          rintro ⟨rfl, -⟩
          exact hel (by rw [Pending.complete, hh0, hh1])
      · -- somebody else takes it, or nobody; slot `i` and those above are not touched
        have hne0 : t ≠ 0 := by
          rintro rfl
          exact hnow (UInt8.toNat_inj.mp (by omega))
        have hnil : rest.drop 7 ≠ [] := by
          intro h
          rw [h] at ht
          simp only [List.length_nil] at ht
          omega
        have hkeep := pending_feedBytes_of_clear hg h16 hlen hpm hnow hclear
        have hrest : ¬ DeliveredAtLast (runOut feedBytes
            (a.feedBytes (contControl group index :: rest.take 7)).1
            (contFrames group ((index + 1) &&& 0xF) (rest.drop 7))).2 el := by
          refine ih (AssemblerT.nextIndex_lt index) (by rw [hkeep i le_rfl]; exact hpm) hact
            hgroup ⟨t - 1, by omega, ?_⟩
            (hclear.next.congr fun j hj => hkeep j (by omega)) hel
          rw [toNat_nextIndex]
          omega
        cases (a.feedBytes (contControl group index :: rest.take 7)).2 with
        | none => rwa [deliveredAtLast_cons_none]
        | some e =>
            rw [deliveredAtLast_cons_some]
            rintro ⟨-, hnone⟩
            have := congrArg List.length hnone
            rw [length_runOut, length_contFrames, conts_succ hnil, List.length_nil] at this
            omega

/-! ### The whole telegram -/

/-- The start frame of a long telegram opens the allocated slot and leaves the others
alone. -/
theorem feed_startFrame (a : Assembler maxBody maxPending) {el : Element} {group : UInt8}
    (hg : group.toNat < 4) (hlegal : el.Legal) (h6 : 6 < el.body.length)
    (h255 : el.body.length ≤ 255) (hfit : el.body.length ≤ maxBody) :
    ∃ pm : Pending, pm.active = true ∧ pm.group = group ∧ pm.nextIndex = 0 ∧
      decodeHeader pm.hdr0 pm.hdr1 = (el.opcode, el.lsg, el.func) ∧
      pm.expected = el.body.length ∧ pm.got = 4 ∧ pm.buf.take 4 = el.body.take 4 ∧
      (a.feedBytes (startFrame el.opcode el.lsg el.func group el.body)).1.raw.pending
        = a.raw.pending.set a.raw.allocSlot.1 pm ∧
      (a.feedBytes (startFrame el.opcode el.lsg el.func group el.body)).2 = none := by
  have hlen : (UInt8.ofNat el.body.length).toNat = el.body.length :=
    UInt8.toNat_ofNat_of_lt' (Nat.lt_succ_of_le h255)
  have htake : (el.body.take 4).length = 4 := by
    rw [List.length_take]
    omega
  obtain ⟨hshort, hstart, hseg⟩ := startControl_spec group
  rw [and_mask_group hg] at hseg
  obtain ⟨pm, hact, hgroup, hidx, hh0, hh1, hexp, hgot, -, hbuf, hraw, hres⟩ :=
    a.feed_start (UInt8.ofNat el.body.length) (encodeHeader el.opcode el.lsg el.func).1
      (encodeHeader el.opcode el.lsg el.func).2 (el.body.take 4) hshort hstart (by omega) (by omega)
  rw [hlen] at hexp
  have hgot4 : pm.got = 4 := by omega
  rw [AssemblerT.store_of_lt _ _ (by omega)] at hraw hres
  refine ⟨pm, hact, hgroup.trans hseg, hidx, ?_, hexp, hgot4, ?_, ?_, hres⟩
  · rw [hh0, hh1]
    exact hlegal.decodeHeader
  · rw [← hgot4, hbuf, hlen, List.take_of_length_le (by omega), hgot4]
  · have hpend := a.wf.allocSlot.2.1
    rw [feedBytes, startFrame, hraw]
    exact congrArg (fun ps => ps.set a.raw.allocSlot.1 pm) hpend

/-- No stream in a slot above the one a new start gets waits, on channel `group`, for an
index that a telegram of `len` bytes is going to use. -/
def Unobstructed (a : Assembler maxBody maxPending) (group : UInt8) (len : ℕ) : Prop :=
  ∀ i pm, a.raw.allocSlot.1 < i → a.raw.pending[i]? = some pm → pm.active = true →
    pm.group = group → expectedFrames len - 1 ≤ pm.nextIndex.toNat

/-- A telegram of one short frame is delivered from every state. -/
theorem delivers_short (a : Assembler maxBody maxPending) {el : Element} (group : UInt8)
    (hlegal : el.Legal) (h6 : el.body.length ≤ 6) : a.Delivers group el := by
  have hshort := isShortFrame_encodeHeader el.lsg el.func hlegal.opcode
  obtain ⟨-, hres⟩ := a.feed_short (encodeHeader el.opcode el.lsg el.func).2 el.body
    hshort h6
  rw [hlegal.decodeHeader] at hres
  rw [Delivers, sentFrames_eq, framing, if_pos h6, feedAll, runOut_cons, feedBytes, hres]
  exact deliveredAtLast_cons_some.mpr ⟨rfl, rfl⟩

theorem not_delivers_long (a : Assembler maxBody maxPending) {el : Element} (group : UInt8)
    (h255 : 255 < el.body.length) : ¬ a.Delivers group el := by
  rw [Delivers, sentFrames_eq, framing_eq_nil.mpr h255]
  exact not_deliveredAtLast_nil el

/-- A long telegram is delivered from every unobstructed state. -/
theorem Unobstructed.delivers {a : Assembler maxBody maxPending} {el : Element}
    {group : UInt8} (hg : group.toNat < 4) (hclear : a.Unobstructed group el.body.length)
    (hlegal : el.Legal) (h6 : 6 < el.body.length) (h255 : el.body.length ≤ 255)
    (hfit : el.body.length ≤ maxBody) : a.Delivers group el := by
  obtain ⟨pm, hact, hgroup, hidx, hhdr, hexp, hgot, hbuf, hpend, hres⟩ :=
    a.feed_startFrame hg hlegal h6 h255 hfit
  have hdrop : (el.body.drop 4).length = el.body.length - 4 := List.length_drop
  have hne : el.body.drop 4 ≠ [] := List.ne_nil_of_length_pos (by omega)
  have hpm : (a.feedBytes (startFrame el.opcode el.lsg el.func group el.body)).1.raw.pending[
      a.raw.allocSlot.1]? = some pm := by
    rw [hpend]
    exact List.getElem?_set_self a.wf.allocSlot.1
  have habove : ClearAbove
      (a.feedBytes (startFrame el.opcode el.lsg el.func group el.body)).1.raw
      a.raw.allocSlot.1 group 0 (((el.body.drop 4).length + 6) / 7) := by
    intro j q hj hq hqact hqgroup t ht hqidx
    rw [hpend, List.getElem?_set_ne (by omega)] at hq
    have h16 := (a.wf.each q (List.mem_of_getElem? hq)).index hqact
    have hle := hclear j q hj hq hqact hqgroup
    have h0 : (0 : UInt8).toNat = 0 := rfl
    rw [expectedFrames] at hle
    rw [if_neg (by omega), if_neg (by omega)] at hle
    omega
  have hdel := feedAll_contFrames hg 0 (el.body.drop 4) (Nat.zero_lt_succ 15) hne hpm hact hgroup
    hidx (by omega) habove
  rw [hhdr, hgot, hbuf, List.take_append_drop] at hdel
  rw [Delivers, sentFrames_eq, framing, if_neg (by omega), if_neg (by omega), feedAll,
    runOut_cons, hres, deliveredAtLast_cons_none]
  exact hdel

private theorem zeroId : (0 : UInt8).toNat < 64 := by decide

/-- If a higher slot is in the way of a long telegram, some header of that channel and
length is not delivered. -/
theorem exists_not_delivers {a : Assembler maxBody maxPending} {group : UInt8}
    (hg : group.toNat < 4) {len : ℕ} (h6 : 6 < len) (h255 : len ≤ 255)
    (hfit : len ≤ maxBody) (hobs : ¬ a.Unobstructed group len) :
    ∃ el : Element, el.Legal ∧ el.body.length = len ∧ ¬ a.Delivers group el := by
  simp only [Unobstructed, not_forall, Nat.not_le] at hobs
  obtain ⟨k, q, hk, hq, hqact, hqgroup, hqidx⟩ := hobs
  -- the highest slot in the way decides
  have hlast : ∃ i, lastIdx? (fun pm : Pending => pm.active && pm.group == group &&
      decide (pm.nextIndex.toNat < expectedFrames len - 1)) a.raw.pending = some i := by
    rw [← Option.isSome_iff_exists, Option.isSome_iff_ne_none]
    intro hnone
    have := lastIdx?_eq_none_iff.mp hnone q (List.mem_of_getElem? hq)
    simp [hqact, hqgroup, hqidx] at this
  obtain ⟨i, hi⟩ := hlast
  obtain ⟨⟨pm, hpm, hp⟩, hafter⟩ := lastIdx?_eq_some_iff.mp hi
  simp only [Bool.and_eq_true, beq_iff_eq, decide_eq_true_eq] at hp
  obtain ⟨⟨hact, hgroup⟩, hidx⟩ := hp
  have hki : k ≤ i := by
    by_contra hlt
    have := hafter k q (by omega) hq
    simp [hqact, hqgroup, hqidx] at this
  -- a telegram whose opcode is not the one of the stream in the way
  obtain ⟨op, hop, hopne⟩ : ∃ op : UInt8, op.toNat ≤ 7 ∧
      op ≠ (decodeHeader pm.hdr0 pm.hdr1).1 := by
    by_cases h0 : (0 : UInt8) = (decodeHeader pm.hdr0 pm.hdr1).1
    · exact ⟨1, by decide, fun h1 => absurd (h0.trans h1.symm) (by decide)⟩
    · exact ⟨0, by decide, h0⟩
  obtain ⟨el, hel⟩ : ∃ el : Element, el = ⟨op, 0, 0, List.replicate len 0⟩ := ⟨_, rfl⟩
  have hlegal : el.Legal := by
    rw [hel]
    exact ⟨hop, zeroId, zeroId⟩
  have hbody : el.body.length = len := by rw [hel, List.length_replicate]
  refine ⟨el, hlegal, hbody, ?_⟩
  obtain ⟨pm₀, -, -, -, -, -, -, -, hpend, hres⟩ :=
    a.feed_startFrame hg hlegal (by omega) (by omega) (by omega)
  have hdrop : (el.body.drop 4).length = el.body.length - 4 := List.length_drop
  have hconts : expectedFrames len - 1 = ((el.body.drop 4).length + 6) / 7 := by
    rw [expectedFrames]
    rw [if_neg (by omega), if_neg (by omega)]
    omega
  have h0 : (0 : UInt8).toNat = 0 := rfl
  have hpm' : (a.feedBytes (startFrame el.opcode el.lsg el.func group el.body)).1.raw.pending[
      i]? = some pm := by
    rw [hpend, List.getElem?_set_ne (by omega)]
    exact hpm
  have habove : ClearAbove
      (a.feedBytes (startFrame el.opcode el.lsg el.func group el.body)).1.raw
      i group 0 (((el.body.drop 4).length + 6) / 7) := by
    intro j r hj hr hract hrgroup t ht hridx
    rw [hpend, List.getElem?_set_ne (by omega)] at hr
    have h16 := (a.wf.each r (List.mem_of_getElem? hr)).index hract
    have hmatch := hafter j r hj hr
    simp only [hract, hrgroup, beq_self_eq_true, Bool.and_self, Bool.true_and,
      decide_eq_false_iff_not] at hmatch
    omega
  have h16 := (a.wf.each pm (List.mem_of_getElem? hpm)).index hact
  have hother : el.opcode ≠ (decodeHeader pm.hdr0 pm.hdr1).1 := by rw [hel]; exact hopne
  have hnot := not_delivered_of_obstructed hg 0 (el.body.drop 4) (Nat.zero_lt_succ 15) hpm' hact
    hgroup ⟨pm.nextIndex.toNat, by omega, by omega⟩ habove hother
  rw [Delivers, sentFrames_eq, framing, if_neg (by omega), if_neg (by omega), feedAll,
    runOut_cons, hres, deliveredAtLast_cons_none]
  exact hnot

/-- **When the newest start wins.** From a state of the assembler, every telegram of a
channel and a length is delivered, exactly at its last frame and unchanged, if and only
if it is one short frame, or its length can be announced and no stream in a slot above
the one the start gets waits on that channel for an index the telegram is going to use. -/
theorem newest_start_wins_iff (a : Assembler maxBody maxPending) {group : UInt8}
    (hg : group.toNat < 4) {len : ℕ} (hfit : len ≤ maxBody) :
    (∀ el : Element, el.Legal → el.body.length = len → a.Delivers group el) ↔
      len ≤ 6 ∨ (len ≤ 255 ∧ a.Unobstructed group len) := by
  constructor
  · intro hall
    by_cases h6 : len ≤ 6
    · exact .inl h6
    · by_cases h255 : len ≤ 255
      · refine .inr ⟨h255, ?_⟩
        by_contra hobs
        obtain ⟨el, hlegal, hbody, hnot⟩ := exists_not_delivers hg (by omega) h255 hfit hobs
        exact hnot (hall el hlegal hbody)
      · exact absurd (hall ⟨0, 0, 0, List.replicate len 0⟩ ⟨Nat.zero_le 7, zeroId, zeroId⟩
          List.length_replicate) (a.not_delivers_long group (by simp; omega))
  · rintro (h6 | ⟨h255, hclear⟩) el hlegal rfl
    · exact a.delivers_short group hlegal h6
    · rcases Nat.lt_or_ge 6 el.body.length with hlong | hshort
      · exact hclear.delivers hg hlegal hlong h255 hfit
      · exact a.delivers_short group hlegal hshort

/-- A new assembler obstructs nothing: eleven bytes on channel 0 are delivered. -/
theorem newest_start_wins_zeroed :
    (∀ el : Element, el.Legal → el.body.length = 11 →
      (zeroed 224 4 (by decide)).Delivers 0 el) ↔
      11 ≤ 6 ∨ (11 ≤ 255 ∧ (zeroed 224 4 (by decide)).Unobstructed 0 11) :=
  newest_start_wins_iff (zeroed 224 4 (by decide)) (by decide) (by decide)

/-- Traffic that leaves a lost stream of channel 0 in slot 1 while slot 0 is free again:
a telegram of channel 1 starts, one of channel 0 starts and loses its continuation, and
the one of channel 1 is completed. -/
def lossyTraffic : List (List UInt8) :=
  [startFrame 4 0x25 0x1A 1 (List.replicate 7 0xAA),
    startFrame 4 0x25 0x1A 0 (List.replicate 11 0xBB),
    contControl 1 0 :: List.replicate 3 0xAA]

/-- After that traffic the next telegram of channel 0 is not delivered: its continuation
completes the lost stream, under the header of that stream. -/
theorem newest_start_loses :
    ¬ ∀ history : List (List UInt8), (∀ f ∈ history, f.length ≤ 8) →
      ∀ (group : UInt8) (el : Element), group.toNat < 4 → el.Legal → el.body.length ≤ 224 →
        ((zeroed 224 4 (by decide)).feedAll history).1.Delivers group el := by
  intro h
  have hdel := h lossyTraffic (by decide) 0 ⟨4, 0x25, 0x18, List.replicate 11 0xCC⟩
    (by decide) ⟨by decide, by decide, by decide⟩ (by decide)
  have houts : (((zeroed 224 4 (by decide)).feedAll lossyTraffic).1.feedAll
      (sentFrames 4 0x25 0x18 0 (List.replicate 11 0xCC))).2
      = [none, some ⟨4, 0x25, 0x1A, List.replicate 4 0xBB ++ List.replicate 7 0xCC⟩] := by
    decide +kernel
  rw [Delivers, houts, deliveredAtLast_cons_none, deliveredAtLast_cons_some] at hdel
  exact absurd (congrArg Element.func hdel.1) (by decide)

end Assembler

end Ovms.Bap
