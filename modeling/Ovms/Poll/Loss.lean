import Ovms.Poll.Receive

/-!
# Lost Consecutive Frames

The check of the frame index refuses a consecutive frame whose number is beyond the
expected one, and tolerates a lower one, for devices that number the first consecutive
frame 0. Both numbers wrap at 16. So the check sees a loss only by the order of two
residues: at the wrap the frame after a gap has the lower number, and a device that counts
from 0 is one behind, which hides a single lost frame. Such a device is also refused at its
16th consecutive frame, where its number is 15 and the expected one is 0.

A run with losses is a list of the positions of the consecutive frames that arrive. What
the poller does with it is decided at the first gap (`Noticed`); the induction is over the
positions, with the state of the reassembly at each of them (`Receiving`).

## Main results

* `lossReported_iff_noticed`: a loss is reported when the recursion over the positions says
  so.
* `lossReported_iff_gap`: the same, in terms of the first gap.
* `loss_noticed_iff`: the exact cases, together with those of complete responses of devices
  that count from 0.
-/

open Ovms.Can Lib.IsoTp

namespace Ovms.Poll

/-! ### Reports and deliveries -/

/-- A reply hands over at least one byte. -/
def Reply.Delivers (r : Reply) : Prop := ∃ p ∈ packets r.effects, p.length ≠ 0

/-- A reply reports that a frame is out of sequence. -/
def Reply.Reports (r : Reply) : Prop :=
  ∃ index expected, Effect.outOfSequence index expected ∈ r.effects

/-- The frames are those of the units at the positions `kept`. -/
def Received (p : Protocol) (units : List Pdu) (kept : List ℕ) (frames : List CanFrame) : Prop :=
  List.Forall₂ (fun q f => ∃ u, units[q]? = some u ∧ OnWire p u f) kept frames

/-- Among the frames from position `k` on, of which those at the positions `kept` are
received: before a frame that follows a gap delivers anything, the failure is reported. -/
def LossReported (k : ℕ) (kept : List ℕ) (replies : List Reply) : Prop :=
  ∀ i q r, kept[i]? = some q → replies[i]? = some r → k + i < q → r.Delivers →
    ∃ r' ∈ replies.take i, r'.Reports

/-- With frame `k` expected: the next frame received is refused, or it is frame `k`, and
those after it are noticed. -/
def Noticed (base : ℕ) : ℕ → List ℕ → Prop
  | _, [] => True
  | k, q :: kept => (k + 1) % 16 < (base + q) % 16 ∨ (q = k ∧ Noticed base (k + 1) kept)

theorem reports_outOfSequence (s : Poller) (index : ℕ) :
    (outOfSequence s index).2.Reports ∧ ¬ (outOfSequence s index).2.Delivers := by
  refine ⟨⟨_, _, List.mem_singleton.mpr rfl⟩, ?_⟩
  rintro ⟨p, hp, -⟩
  cases hp

/-- What `moreData` does is no report. -/
theorem not_mem_moreData (s : Poller) (f : CanFrame) (ft : FrameType) (n : UInt16)
    (index expected : ℕ) : Effect.outOfSequence index expected ∉ (moreData s f ft n).2 := by
  rw [moreData]
  split
  · simp only
    split <;> simp
  · simp only [pollerSucceededPollNext]
    split
    · split <;> simp
    · simp

/-- A frame handed over is no report, and delivers when it has a byte. -/
theorem delivers_handOver (s : Poller) (f : CanFrame) (msgid : UInt32) (ft : FrameType)
    (d rem : ℕ) {n : ℕ} (hpos : n ≠ 0) (hn : n < 256) :
    ¬ (handOver s f msgid ft d n rem).2.Reports ∧
      (handOver s f msgid ft d n rem).2.Delivers := by
  constructor
  · rintro ⟨index, expected, hmem⟩
    rw [handOver, List.mem_cons] at hmem
    rcases hmem with hmem | hmem
    · cases hmem
    · exact not_mem_moreData _ _ _ _ _ _ hmem
  · refine ⟨_, by rw [packets_handOver]; exact List.mem_singleton.mpr rfl, ?_⟩
    intro hzero
    have : (UInt8.ofNat n).toNat = 0 := congrArg UInt8.toNat hzero
    rw [UInt8.toNat_ofNat'] at this
    omega

section LossReported

variable {k q : ℕ} {kept : List ℕ} {r : Reply} {replies : List Reply}

theorem lossReported_of_reports (hr : r.Reports) (hd : ¬ r.Delivers) :
    LossReported k (q :: kept) (r :: replies) := by
  intro i q' r' hq hr' hgap hdel
  match i with
  | 0 => exact absurd (Option.some.inj hr' ▸ hdel) hd
  | i + 1 => exact ⟨r, List.mem_cons_self, hr⟩

/-- The expected frame leaves the question to those after it. -/
theorem lossReported_cons_self (hr : ¬ r.Reports) :
    LossReported k (k :: kept) (r :: replies) ↔ LossReported (k + 1) kept replies := by
  constructor
  · intro h i q r' hq hr' hgap hdel
    obtain ⟨r'', hmem, hreports⟩ := h (i + 1) q r' hq hr' (by omega) hdel
    rw [List.take_succ_cons, List.mem_cons] at hmem
    rcases hmem with rfl | hmem
    · exact absurd hreports hr
    · exact ⟨r'', hmem, hreports⟩
  · intro h i q r' hq hr' hgap hdel
    match i with
    | 0 =>
        obtain rfl : k = q := Option.some.inj hq
        exact absurd hgap (Nat.lt_irrefl k)
    | i + 1 =>
        obtain ⟨r'', hmem, hreports⟩ := h i q r' hq hr' (by omega) hdel
        exact ⟨r'', List.mem_cons_of_mem _ hmem, hreports⟩

theorem not_lossReported (hgap : k < q) (hd : r.Delivers) :
    ¬ LossReported k (q :: kept) (r :: replies) := by
  intro h
  obtain ⟨r', hmem, -⟩ := h 0 q r rfl rfl hgap hd
  cases hmem

end LossReported

/-! ### Runs with losses -/

/-- **Run lemma.** With the reassembly at position `k`, the rest of a run reports its
losses exactly when it is noticed. -/
theorem lossReported_iff_noticed {msgid : UInt32} {base : ℕ} {body : List UInt8}
    (kept : List ℕ) :
    ∀ {s : Poller} {k off : ℕ} {frames : List CanFrame},
      Receiving s msgid (k + 1) off (body.drop (k * (s.protocol.frMaxlen - 1))) →
      kept.Pairwise (· < ·) → (∀ q ∈ kept, k ≤ q) → (∀ f ∈ frames, f.origin = s.bus) →
      Received s.protocol (consecutives s.protocol.frMaxlen base body) kept frames →
      (LossReported k kept (receiveAll msgid s frames).2 ↔ Noticed base k kept) := by
  induction kept with
  | nil =>
      intro s k off frames _ _ _ _ _
      exact iff_of_true (fun i q r hq => by cases hq) trivial
  | cons q kept ih =>
      intro s k off frames h hsorted hge hbus hf
      have hcap := s.protocol.frMaxlen_cases
      rw [Received, List.forall₂_cons_left_iff] at hf
      obtain ⟨f, frames, ⟨u, hu, hwire⟩, hrest, rfl⟩ := hf
      obtain ⟨hf, hframes⟩ := List.forall_mem_cons.mp hbus
      obtain ⟨hlt, htail⟩ := List.pairwise_cons.mp hsorted
      have hkq : k ≤ q := hge q List.mem_cons_self
      rw [consecutives_getElem? (by omega)] at hu
      split at hu
      case isFalse => cases hu
      rename_i hq
      obtain rfl := (Option.some.inj hu).symm
      have hle : k * (s.protocol.frMaxlen - 1) ≤ q * (s.protocol.frMaxlen - 1) :=
        Nat.mul_le_mul_right _ hkq
      have hlength : (body.drop (k * (s.protocol.frMaxlen - 1))).length =
          body.length - k * (s.protocol.frMaxlen - 1) := List.length_drop
      have hremain : s.mlremain.toNat ≠ 0 := by
        rw [h.mlremain, hlength]
        omega
      have hidx : (base + q) % 16 < 16 := Nat.mod_lt _ (by decide)
      rw [receiveAll_cons, Noticed]
      by_cases hbad : (k + 1) % 16 < (base + q) % 16
      · -- refused
        rw [receive_consecutive_bad (h.listens hf) hidx (by rw [h.mlframe]; exact hbad) hwire]
        obtain ⟨hreports, hnone⟩ := reports_outOfSequence s ((base + q) % 16)
        exact iff_of_true (lossReported_of_reports hreports hnone) (Or.inl hbad)
      · have hok : (base + q) % 16 ≤ (k + 1) % 16 := Nat.not_lt.mp hbad
        have hreceive := receive_consecutive (h.listens hf) h.type_le hremain hidx
          (by rw [h.mlframe]; exact hok) hwire
        obtain ⟨hsilent, hdelivers⟩ := delivers_handOver s f msgid .consecutive
          (s.protocol.frOffset + 1) (s.mlremain.toNat - (s.protocol.frMaxlen - 1))
          (n := min s.mlremain.toNat (s.protocol.frMaxlen - 1)) (by omega) (by omega)
        rw [← hreceive] at hsilent hdelivers
        by_cases hgap : k < q
        · -- taken for the expected frame
          refine iff_of_false (not_lossReported hgap hdelivers) ?_
          rintro (hlt | ⟨heq, -⟩)
          · exact hbad hlt
          · omega
        · -- the expected frame
          obtain rfl : k = q := by omega
          have hne : body.drop (k * (s.protocol.frMaxlen - 1)) ≠ [] :=
            List.ne_nil_of_length_pos (by omega)
          obtain ⟨-, -, -, -, -, hnext⟩ := h.step hne hf hidx hok hwire
          rw [lossReported_cons_self hsilent, or_iff_right hbad, and_iff_right rfl]
          rw [List.drop_drop, ← Nat.succ_mul] at hnext
          by_cases hlast : body.drop ((k + 1) * (s.protocol.frMaxlen - 1)) = []
          · -- nothing is left, so nothing more is received
            have hnil : kept = [] := by
              cases kept with
              | nil => rfl
              | cons q' kept =>
                  rw [List.forall₂_cons_left_iff] at hrest
                  obtain ⟨_, _, ⟨u, hu, -⟩, -, -⟩ := hrest
                  rw [consecutives_getElem? (by omega)] at hu
                  split at hu
                  case isFalse => cases hu
                  rename_i hq'
                  have hkq' : k + 1 ≤ q' := hlt q' List.mem_cons_self
                  have := Nat.mul_le_mul_right (s.protocol.frMaxlen - 1) hkq'
                  rw [List.drop_eq_nil_iff] at hlast
                  omega
            subst hnil
            exact iff_of_true (fun i q r hq => by cases hq) trivial
          · obtain ⟨hsameBus, hsameProtocol, hreceiving⟩ := hnext hlast
            rw [← hsameProtocol] at hreceiving hrest
            exact ih hreceiving htail (fun q' hq' => hlt q' hq')
              (by rw [hsameBus]; exact hframes) hrest

/-- What is noticed, in terms of the first gap: a frame before it is refused, or the frame
after it is. -/
theorem noticed_iff (base : ℕ) (kept : List ℕ) :
    ∀ {k : ℕ}, (∀ q ∈ kept, k ≤ q) → kept.Pairwise (· < ·) →
      (Noticed base k kept ↔
        ∀ p q rest, kept = List.range' k p ++ q :: rest → k + p < q →
          (∃ j, k ≤ j ∧ j < k + p ∧ (j + 1) % 16 < (base + j) % 16) ∨
            (k + p + 1) % 16 < (base + q) % 16) := by
  induction kept with
  | nil =>
      intro k _ _
      refine iff_of_true trivial fun p q rest h => ?_
      exact absurd h.symm (List.append_ne_nil_of_right_ne_nil _ (List.cons_ne_nil _ _))
  | cons q kept ih =>
      intro k hge hsorted
      obtain ⟨hlt, htail⟩ := List.pairwise_cons.mp hsorted
      have hkq : k ≤ q := hge q List.mem_cons_self
      rw [Noticed]
      constructor
      · rintro (hbad | ⟨rfl, hnoticed⟩) p q' rest hsplit hgap
        · match p with
          | 0 =>
              obtain ⟨rfl, -⟩ := List.cons.inj hsplit
              exact Or.inr hbad
          | p + 1 =>
              rw [List.range'_succ, List.cons_append] at hsplit
              obtain ⟨rfl, -⟩ := List.cons.inj hsplit
              exact Or.inl ⟨q, Nat.le_refl q, by omega, hbad⟩
        · match p with
          | 0 =>
              obtain ⟨rfl, -⟩ := List.cons.inj hsplit
              exact absurd hgap (Nat.lt_irrefl q)
          | p + 1 =>
              rw [List.range'_succ, List.cons_append] at hsplit
              obtain ⟨-, hsplit⟩ := List.cons.inj hsplit
              have := (ih (k := q + 1) hlt htail).mp hnoticed p q' rest hsplit (by omega)
              rcases this with ⟨j, hj, hjp, hbad⟩ | hbad
              · exact Or.inl ⟨j, by omega, by omega, hbad⟩
              · exact Or.inr (by rwa [Nat.add_right_comm q 1 p] at hbad)
      · intro hall
        by_cases hgap : k < q
        · rcases hall 0 q kept rfl hgap with ⟨j, hj, hjp, -⟩ | hbad
          · omega
          · exact Or.inl hbad
        · obtain rfl : k = q := by omega
          refine or_iff_not_imp_left.mpr fun hok => ⟨rfl, ?_⟩
          refine (ih (k := k + 1) hlt htail).mpr fun p q' rest hsplit hgap => ?_
          have hsplit' : k :: kept = List.range' k (p + 1) ++ q' :: rest := by
            rw [List.range'_succ, List.cons_append, ← hsplit]
          rcases hall (p + 1) q' rest hsplit' (by omega) with ⟨j, hj, hjp, hbad⟩ | hbad
          · have : j ≠ k := fun heq => hok (heq ▸ hbad)
            exact Or.inl ⟨j, by omega, by omega, hbad⟩
          · exact Or.inr (by rwa [← Nat.add_assoc, Nat.add_right_comm k p 1] at hbad)

/-- A refusal of an expected frame: only a device that counts from 0 can meet it, at its
16th consecutive frame. -/
theorem refused_iff {base : ℕ} (hbase : base ≤ 1) (p : ℕ) :
    (∃ j, 0 ≤ j ∧ j < p ∧ (j + 1) % 16 < (base + j) % 16) ↔ base = 0 ∧ 16 ≤ p := by
  constructor
  · rintro ⟨j, -, hj, hbad⟩
    omega
  · rintro ⟨rfl, hp⟩
    exact ⟨15, Nat.zero_le _, hp, by decide⟩

/-- **The first gap.** With the first frame of a response received, and then those of its
consecutive frames at the positions `kept`: the losses are reported exactly when, at the
first gap, the frame after it is beyond the expected one by its number modulo 16, or a
device that counts from 0 has been refused before. -/
theorem lossReported_iff_gap {s : Poller} {msgid : UInt32} {base off : ℕ} {body : List UInt8}
    {kept : List ℕ} {frames : List CanFrame} (h : Receiving s msgid 1 off body)
    (hbase : base ≤ 1) (hsorted : kept.Pairwise (· < ·)) (hbus : ∀ f ∈ frames, f.origin = s.bus)
    (hf : Received s.protocol (consecutives s.protocol.frMaxlen base body) kept frames) :
    LossReported 0 kept (receiveAll msgid s frames).2 ↔
      ∀ p q rest, kept = List.range p ++ q :: rest → p < q →
        (base = 0 ∧ 16 ≤ p) ∨ (p + 1) % 16 < (base + q) % 16 := by
  have hstart : Receiving s msgid (0 + 1) off (body.drop (0 * (s.protocol.frMaxlen - 1))) := by
    rw [Nat.zero_mul]
    exact h
  rw [lossReported_iff_noticed kept hstart hsorted (fun q _ => Nat.zero_le q) hbus hf,
    noticed_iff base kept (fun q _ => Nat.zero_le q) hsorted]
  simp only [Nat.zero_add, refused_iff hbase, List.range_eq_range']

/-! ### Responses with losses -/

/-- The poller after the first frame of a response. -/
def afterFirst (s : Poller) (entry : PollPid) (msgid : UInt32) (flow : List CanFrame)
    (first : CanFrame) : Poller :=
  (pollerIsotpReceive (requested s entry msgid flow) first msgid).1

section Responses

variable {s : Poller} {entry : PollPid} {msgid : UInt32} {flow : List CanFrame}
  {first : CanFrame} {data : List UInt8}

/-- The reassembly is under way after the first frame. -/
theorem receiving_afterFirst (hlist : s.hasPollList = true) (hmodule : entry.Answers msgid)
    (hflow : FlowControls entry.protocol flow) (htype : entry.type.toNat ≤ 0xBF)
    (hne : entry.type.toNat ≠ 0x3F)
    (hpid : has8BitPid entry.type.toNat = true → entry.args.pid.toNat < 256)
    (hlong : entry.protocol.frMaxlen ≤ (entry.response data).length)
    (hmax : (entry.response data).length ≤ 4095) (hbus : first.origin = s.bus)
    (hfirst : OnWire entry.protocol (.first (entry.response data).length
      ((entry.response data).take (entry.protocol.frMaxlen - 2))) first) :
    (afterFirst s entry msgid flow first).bus = s.bus ∧
      (afterFirst s entry msgid flow first).protocol = entry.protocol ∧
      ∃ off, Receiving (afterFirst s entry msgid flow first) msgid 1 off
        ((entry.response data).drop (entry.protocol.frMaxlen - 2)) := by
  obtain ⟨hwaiting, hsameBus, hprotocol, htypeEq, hpidEq⟩ := requested_spec hlist hmodule hflow
  have hresponse := responseTo_requested htypeEq hpidEq data
  have ha : Answerable (requested s entry msgid flow) :=
    ⟨htypeEq ▸ htype, htypeEq ▸ hne, by rw [htypeEq, hpidEq]; exact hpid⟩
  rw [← hprotocol, ← hresponse] at hlong hfirst
  obtain ⟨p, n, -, -, -, -, -, -, hdrop, hbus', hprotocol', hreceiving⟩ :=
    hwaiting.first ha (by rw [hsameBus]; exact hbus) hlong (hresponse ▸ hmax) hfirst
  rw [← hprotocol, ← hresponse, hdrop]
  exact ⟨hbus'.trans hsameBus, hprotocol', _, hreceiving⟩

/-- A complete response from a device that counts from 0 is handed over exactly when it has
at most 15 consecutive frames. -/
theorem handsOver_zero_based_iff (hlist : s.hasPollList = true) (hmodule : entry.Answers msgid)
    (hflow : FlowControls entry.protocol flow) (htype : entry.type.toNat ≤ 0xBF)
    (hne : entry.type.toNat ≠ 0x3F)
    (hpid : has8BitPid entry.type.toNat = true → entry.args.pid.toNat < 256)
    (hlong : entry.protocol.frMaxlen ≤ (entry.response data).length)
    (hmax : (entry.response data).length ≤ 4095) (hbus : first.origin = s.bus)
    (hfirst : OnWire entry.protocol (.first (entry.response data).length
      ((entry.response data).take (entry.protocol.frMaxlen - 2))) first)
    {frames : List CanFrame} (hframes : ∀ f ∈ frames, f.origin = s.bus)
    (hf : List.Forall₂ (OnWire entry.protocol) (consecutives entry.protocol.frMaxlen 0
      ((entry.response data).drop (entry.protocol.frMaxlen - 2))) frames) :
    HandsOver 0 data (receiveAll msgid (requested s entry msgid flow) (first :: frames)).2 ↔
      (entry.response data).length ≤
        entry.protocol.frMaxlen - 2 + 15 * (entry.protocol.frMaxlen - 1) := by
  obtain ⟨hwaiting, hsameBus, hprotocol, htypeEq, hpidEq⟩ := requested_spec hlist hmodule hflow
  have hresponse := responseTo_requested htypeEq hpidEq data
  have ha : Answerable (requested s entry msgid flow) :=
    ⟨htypeEq ▸ htype, htypeEq ▸ hne, by rw [htypeEq, hpidEq]; exact hpid⟩
  have hcap := entry.protocol.frMaxlen_cases
  rw [← hprotocol, ← hresponse] at hlong hfirst hf
  rw [hwaiting.handsOver_first_iff ha (Nat.zero_le 1) hlong (hresponse ▸ hmax)
    (by rw [hsameBus]; exact List.forall_mem_cons.mpr ⟨hbus, hframes⟩) hfirst hf, hprotocol,
    hresponse]
  constructor
  · intro hall
    by_contra hmore
    -- frame 15 has the number 15, and the expected one is 0
    exact absurd (hall 15 (by omega)) (by decide)
  · intro hle k hk
    have hk15 : k < 15 := by
      by_contra hge
      have := Nat.mul_le_mul_right (entry.protocol.frMaxlen - 1) (Nat.not_lt.mp hge)
      omega
    omega

/-- **When losses are noticed.** After the first frame of a response in several frames:
the losses among its consecutive frames, from a device that numbers them from 1 or from 0,
are reported before anything that followed the first gap is delivered exactly when the
frame after that gap is beyond the expected one by its number modulo 16, or a device that
counts from 0 has been refused before. And a complete response from a device that counts
from 0 is handed over exactly when it has at most 15 consecutive frames. -/
theorem loss_noticed_iff (hlist : s.hasPollList = true) (hmodule : entry.Answers msgid)
    (hflow : FlowControls entry.protocol flow) (htype : entry.type.toNat ≤ 0xBF)
    (hne : entry.type.toNat ≠ 0x3F)
    (hpid : has8BitPid entry.type.toNat = true → entry.args.pid.toNat < 256)
    (hlong : entry.protocol.frMaxlen ≤ (entry.response data).length)
    (hmax : (entry.response data).length ≤ 4095) (hbus : first.origin = s.bus)
    (hfirst : OnWire entry.protocol (.first (entry.response data).length
      ((entry.response data).take (entry.protocol.frMaxlen - 2))) first) :
    (∀ base kept frames, base ≤ 1 → kept.Pairwise (· < ·) → (∀ f ∈ frames, f.origin = s.bus) →
      Received entry.protocol (consecutives entry.protocol.frMaxlen base
        ((entry.response data).drop (entry.protocol.frMaxlen - 2))) kept frames →
      (LossReported 0 kept (receiveAll msgid (afterFirst s entry msgid flow first) frames).2 ↔
        ∀ p q rest, kept = List.range p ++ q :: rest → p < q →
          (base = 0 ∧ 16 ≤ p) ∨ (p + 1) % 16 < (base + q) % 16)) ∧
    ∀ frames, (∀ f ∈ frames, f.origin = s.bus) →
      List.Forall₂ (OnWire entry.protocol) (consecutives entry.protocol.frMaxlen 0
        ((entry.response data).drop (entry.protocol.frMaxlen - 2))) frames →
      (HandsOver 0 data
          (receiveAll msgid (requested s entry msgid flow) (first :: frames)).2 ↔
        (entry.response data).length ≤
          entry.protocol.frMaxlen - 2 + 15 * (entry.protocol.frMaxlen - 1)) := by
  constructor
  · intro base kept frames hbase hsorted hframes hf
    obtain ⟨hsameBus, hprotocol, off, hreceiving⟩ := receiving_afterFirst hlist hmodule hflow
      htype hne hpid hlong hmax hbus hfirst
    exact lossReported_iff_gap hreceiving hbase hsorted (by rw [hsameBus]; exact hframes)
      (by rw [hprotocol]; exact hf)
  · intro frames hframes hf
    exact handsOver_zero_based_iff hlist hmodule hflow htype hne hpid hlong hmax hbus hfirst
      hframes hf

end Responses

/-- A consecutive frame of seven zeros. -/
def zeroFrame (base q : ℕ) : CanFrame := moduleFrame [.ofNat (0x20 + (base + q) % 16)]

/-- The first frame of a response with 115 zeros. -/
def zeroFirst : CanFrame := moduleFrame [0x10, 118, 0x62, 0x12, 0x34]

/-- The consecutive units of such a response. -/
theorem consecutives_zeros (base : ℕ) :
    consecutives 8 base (List.replicate 112 0) =
      (List.range 16).map fun q => .consecutive ((base + q) % 16) (List.replicate 7 0) := by
  apply List.ext_getElem?
  intro k
  rw [consecutives_getElem? (by decide), List.length_replicate, List.getElem?_map]
  by_cases hk : k < 16
  · have hmin : min 7 (112 - k * 7) = 7 := by omega
    rw [if_pos (by omega), List.getElem?_range hk, List.drop_replicate, List.take_replicate, hmin]
    rfl
  · rw [if_neg (by omega), List.getElem?_eq_none (by rw [List.length_range]; omega)]
    rfl

theorem onWire_zeroFrame (base q : ℕ) :
    OnWire .isotpStd (.consecutive ((base + q) % 16) (List.replicate 7 0)) (zeroFrame base q) :=
  ⟨rfl, [], rfl⟩

/-- The response with 115 zeros. -/
def zeroResponse : List UInt8 := (entryOf 0x22 0x1234).response (List.replicate 115 0)

theorem onWire_zeroFirst :
    OnWire .isotpStd (.first zeroResponse.length (zeroResponse.take 6)) zeroFirst :=
  ⟨rfl, [], rfl⟩

theorem answers_entryOf (type pid : UInt16) : (entryOf type pid).Answers 0x7e8 := by
  have hrx : (entryOf type pid).rxmoduleid = 0x7e8 := rfl
  rw [PollPid.Answers, hrx, if_pos (by decide)]

/-- The first of the consecutive frames is lost, and the second refused. -/
theorem loss_noticed_at_first :
    LossReported 0 [1] (receiveAll 0x7e8
      (afterFirst listed (entryOf 0x22 0x1234) 0x7e8 [] zeroFirst) [zeroFrame 1 1]).2 := by
  have hlong : 8 ≤ zeroResponse.length := by decide
  have hmax : zeroResponse.length ≤ 4095 := by decide
  have hreceived : Received .isotpStd (consecutives 8 1 (List.replicate 112 0)) [1]
      [zeroFrame 1 1] := by
    rw [consecutives_zeros]
    exact .cons ⟨_, rfl, onWire_zeroFrame 1 1⟩ .nil
  refine ((loss_noticed_iff rfl (answers_entryOf _ _) (List.forall_mem_nil _) (by decide)
    (by decide) (by decide) hlong hmax rfl onWire_zeroFirst).1 1 [1] [zeroFrame 1 1]
    (Nat.le_refl 1) (List.pairwise_singleton _ _) (by decide) hreceived).mpr ?_
  intro p q rest hsplit hgap
  match p with
  | 0 =>
      obtain ⟨rfl, -⟩ := List.cons.inj hsplit
      exact Or.inr (by decide)
  | p + 1 =>
      rw [List.range_succ_eq_map] at hsplit
      cases hsplit

/-- **Two frames taken for what they are not.** Of the 16 consecutive frames of a response,
the 15th is lost: the last one has the number 0, and its bytes are handed over in place of
those lost, with no report. And the complete response, from a device that counts from 0, is
not handed over, as its 16th consecutive frame is refused. -/
theorem loss_at_wrap_unreported :
    (Received .isotpStd (consecutives 8 1 (zeroResponse.drop 6)) (List.range 14 ++ [15])
        ((List.range 14 ++ [15]).map (zeroFrame 1)) ∧
      ¬ LossReported 0 (List.range 14 ++ [15]) (receiveAll 0x7e8
        (afterFirst listed (entryOf 0x22 0x1234) 0x7e8 [] zeroFirst)
        ((List.range 14 ++ [15]).map (zeroFrame 1))).2) ∧
    (List.Forall₂ (OnWire .isotpStd) (consecutives 8 0 (zeroResponse.drop 6))
        ((List.range 16).map (zeroFrame 0)) ∧
      ¬ HandsOver 0 (List.replicate 115 0) (receiveAll 0x7e8
        (requested listed (entryOf 0x22 0x1234) 0x7e8 [])
        (zeroFirst :: (List.range 16).map (zeroFrame 0))).2) := by
  have hlong : 8 ≤ zeroResponse.length := by decide
  have hmax : zeroResponse.length ≤ 4095 := by decide
  have hdrop : zeroResponse.drop 6 = List.replicate 112 0 := by decide
  have hbus (base : ℕ) (kept : List ℕ) : ∀ f ∈ kept.map (zeroFrame base), f.origin = 1 := by
    intro f hf
    obtain ⟨q, -, rfl⟩ := List.mem_map.mp hf
    rfl
  obtain ⟨hsameBus, hprotocol, off, hreceiving⟩ := receiving_afterFirst (s := listed) rfl
    (answers_entryOf 0x22 0x1234) (List.forall_mem_nil _) (by decide) (by decide) (by decide)
    hlong hmax rfl onWire_zeroFirst
  constructor
  · have hreceived : Received .isotpStd (consecutives 8 1 (zeroResponse.drop 6))
        (List.range 14 ++ [15]) ((List.range 14 ++ [15]).map (zeroFrame 1)) := by
      rw [hdrop, consecutives_zeros, Received, List.forall₂_map_right_iff, List.forall₂_same]
      intro q hq
      have hlt : q < 16 := by
        simp only [List.mem_append, List.mem_range, List.mem_singleton] at hq
        omega
      refine ⟨_, ?_, onWire_zeroFrame 1 q⟩
      rw [List.getElem?_map, List.getElem?_range hlt]
      rfl
    refine ⟨hreceived, fun h => ?_⟩
    have hcases := (lossReported_iff_gap hreceiving (Nat.le_refl 1) (by decide)
      (by rw [hsameBus]; exact hbus 1 _) (by rw [hprotocol]; exact hreceived)).mp h 14 15 [] rfl
      (by decide)
    exact absurd hcases (by decide)
  · have hwire : List.Forall₂ (OnWire .isotpStd) (consecutives 8 0 (zeroResponse.drop 6))
        ((List.range 16).map (zeroFrame 0)) := by
      rw [hdrop, consecutives_zeros, List.forall₂_map_left_iff, List.forall₂_map_right_iff,
        List.forall₂_same]
      exact fun q _ => onWire_zeroFrame 0 q
    refine ⟨hwire, fun h => ?_⟩
    have hfits := (handsOver_zero_based_iff (s := listed) rfl (answers_entryOf _ _)
      (List.forall_mem_nil _) (by decide) (by decide) (by decide) hlong hmax rfl
      onWire_zeroFirst (hbus 0 _) hwire).mp h
    exact absurd hfits (by decide)

end Ovms.Poll
