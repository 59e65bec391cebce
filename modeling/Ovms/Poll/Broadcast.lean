import Ovms.Poll.Receive

/-!
# Responses of Several Modules

A request to the broadcast identifier may be answered by up to eight modules, and there is
one reassembly state for all of them. No branch of the receive function compares the module
of a frame with that of the response under way: a first or single frame with the type and
PID of the request starts over in its place, and a consecutive frame continues it.

## Main results

* `incoming_cases`: what a frame can do to the reassembly.
* `deliveries_underway`: a response under way stays with its module as long as the frames
  accepted do.
* `responses_separate_iff`: the exact condition, over every run after a request.
-/

open Ovms.Can

namespace Ovms.Poll

/-! ### One frame -/

/-- A frame passes the filter of `OvmsPoller::Incoming`. -/
def Passes (s : Poller) (f : CanFrame) : Prop :=
  ¬ (s.type = 0 ∨ f.origin ≠ s.bus ∨ s.entry.txmoduleid = 0 ∨ s.waiting = false) ∧
    s.moduleidLow ≤ frameModule s f ∧ frameModule s f ≤ s.moduleidHigh

/-- A frame is accepted as a data frame of the module it comes from. -/
def Admits (s : Poller) (f : CanFrame) : Prop :=
  Passes s f ∧ ∃ ft, Accepts s f (frameModule s f) ft

/-- While a response is under way, a frame that is accepted comes from its module. -/
def SameModule (s : Poller) (f : CanFrame) : Prop :=
  s.mlremain ≠ 0 → Admits s f → frameModule s f = s.moduleidRec

section Step

variable {s : Poller} {f : CanFrame}

theorem incoming_of_passes (h : Passes s f) :
    incoming s f = pollerIsotpReceive s f (frameModule s f) := by
  rw [incoming, if_neg h.1]
  exact if_pos h.2

theorem incoming_of_not_passes (h : ¬ Passes s f) : incoming s f = (s, .ignored) := by
  rw [incoming]
  split
  · rfl
  · rename_i hfilter
    exact if_neg fun hrange => h ⟨hfilter, hrange⟩

/-- After an accepted frame: the rest of the response is under way from its module, or the
poll is over. -/
theorem moreData_cases (s : Poller) (f : CanFrame) (ft : FrameType) (n : UInt16) :
    (s.mlremain ≠ 0 → (moreData s f ft n).1.mlremain = s.mlremain ∧
        (moreData s f ft n).1.moduleidRec = s.moduleidRec) ∧
      (s.mlremain = 0 → Over (moreData s f ft n).1) := by
  constructor
  · intro hrem
    rw [moreData, if_pos hrem]
    exact ⟨rfl, rfl⟩
  · intro hrem
    rw [moreData, if_neg (not_not.mpr hrem)]
    simp only [pollerSucceededPollNext]
    split <;> exact ⟨rfl, hrem⟩

/-- **What a frame can do.** It is accepted: one packet, at the current offset, and then
the rest of that response is under way, or the poll is over. Or it is not: no packet, and
the reassembly is as it was, or the poll is over. -/
theorem incoming_cases (s : Poller) (f : CanFrame) :
    (Admits s f ∧ ∃ p, packets (incoming s f).2.effects = [p] ∧
        p.job.moduleidRec = frameModule s f ∧ p.job.mloffset = s.mloffset ∧
        (p.job.mlremain ≠ 0 → (incoming s f).1.mlremain ≠ 0 ∧
          (incoming s f).1.moduleidRec = frameModule s f) ∧
        (p.job.mlremain = 0 → Over (incoming s f).1)) ∨
      (¬ Admits s f ∧ packets (incoming s f).2.effects = [] ∧
        (SameResponse s (incoming s f).1 ∨ Over (incoming s f).1)) := by
  by_cases hpass : Passes s f
  case neg =>
    rw [incoming_of_not_passes hpass]
    exact .inr ⟨fun h => hpass h.1, rfl, .inl ⟨rfl, rfl, rfl⟩⟩
  rw [incoming_of_passes hpass]
  by_cases hacc : ∃ ft, Accepts s f (frameModule s f) ft
  · obtain ⟨ft, hacc⟩ := hacc
    have hmore := moreData_cases
      (deliver s f (frameModule s f) (tpMeta s f ft) (responseMeta s f ft)).job f ft
      (responseMeta s f ft).datalen
    refine .inl ⟨⟨hpass, ft, hacc⟩, _, packets_receive_accepted hacc, rfl, rfl, ?_, ?_⟩
    · intro hrem
      obtain ⟨hremain, hmodule⟩ := hmore.1 hrem
      rw [receive_accepted hacc]
      exact ⟨fun hzero => hrem (hremain.symm.trans hzero), hmodule⟩
    · intro hrem
      rw [receive_accepted hacc]
      exact hmore.2 hrem
  · exact .inr ⟨fun h => hacc h.2, receive_refused fun ft h => hacc ⟨ft, h⟩⟩

theorem incoming_of_over (h : Over s) (f : CanFrame) : incoming s f = (s, .ignored) :=
  incoming_of_not_passes fun hpass => hpass.1 (.inr (.inr (.inr h.1)))

end Step

/-! ### Runs -/

/-- The packets of a run of frames. -/
def deliveries (s : Poller) (frames : List CanFrame) : List Packet :=
  (Lib.runOut incoming s frames).2.flatMap fun r => packets r.effects

/-- Every frame that is received is of the module whose response is under way. -/
def SeparateAlong (s : Poller) (frames : List CanFrame) : Prop :=
  Lib.Along (fun s f => (incoming s f).1) SameModule s frames

/-- From a slice with offset 0 on, up to the slice with nothing remaining, all slices come
from one module. -/
def ResponsesSeparate (ps : List Packet) : Prop :=
  ∀ pre p mid q post, ps = pre ++ (p :: mid ++ q :: post) → p.job.mloffset = 0 →
    (∀ r ∈ p :: mid, r.job.mlremain ≠ 0) → q.job.moduleidRec = p.job.moduleidRec

theorem deliveries_cons (s : Poller) (f : CanFrame) (frames : List CanFrame) :
    deliveries s (f :: frames) =
      packets (incoming s f).2.effects ++ deliveries (incoming s f).1 frames := rfl

theorem deliveries_of_over {s : Poller} (h : Over s) (frames : List CanFrame) :
    deliveries s frames = [] ∧ SeparateAlong s frames := by
  induction frames with
  | nil => exact ⟨rfl, trivial⟩
  | cons f frames ih =>
      rw [deliveries_cons, SeparateAlong, Lib.Along, incoming_of_over h]
      exact ⟨ih.1, fun hrem => absurd h.2 hrem, ih.2⟩

/-- Nothing follows the slice with nothing remaining. -/
theorem mlremain_of_mem_dropLast (frames : List CanFrame) :
    ∀ {s : Poller}, ∀ r ∈ (deliveries s frames).dropLast, r.job.mlremain ≠ 0 := by
  induction frames with
  | nil => exact fun r hr => by cases hr
  | cons f frames ih =>
      intro s
      rw [deliveries_cons]
      rcases incoming_cases s f with ⟨-, p, hp, -, -, -, hover⟩ | ⟨-, hnone, -⟩
      · rw [hp, List.singleton_append]
        by_cases hrem : p.job.mlremain = 0
        · rw [(deliveries_of_over (hover hrem) frames).1]
          exact fun r hr => by cases hr
        · intro r hr
          cases hrest : deliveries (incoming s f).1 frames with
          | nil =>
              rw [hrest] at hr
              cases hr
          | cons q rest =>
              rw [hrest, List.dropLast_cons_cons, ← hrest, List.mem_cons] at hr
              rcases hr with rfl | hr
              · exact hrem
              · exact ih r hr
      · rw [hnone]
        exact ih

/-- **Run lemma.** A response under way stays with its module exactly as long as the
frames accepted do. -/
theorem deliveries_underway (frames : List CanFrame) :
    ∀ {s : Poller}, s.mlremain ≠ 0 →
      ((∀ q ∈ deliveries s frames, q.job.moduleidRec = s.moduleidRec) ↔
        SeparateAlong s frames) := by
  induction frames with
  | nil => exact fun _ => iff_of_true (List.forall_mem_nil _) trivial
  | cons f frames ih =>
      intro s hrem
      rw [deliveries_cons, SeparateAlong, Lib.Along]
      rcases incoming_cases s f with ⟨hadm, p, hp, hmodule, -, hmore, hover⟩ |
        ⟨hnot, hnone, hsame | hover⟩
      · have hstep : SameModule s f ↔ p.job.moduleidRec = s.moduleidRec := by
          rw [hmodule]
          exact ⟨fun h => h hrem hadm, fun h _ _ => h⟩
        rw [hp, List.forall_mem_append, List.forall_mem_singleton, hstep]
        refine and_congr_right fun heq => ?_
        by_cases hlast : p.job.mlremain = 0
        · obtain ⟨hnil, hsep⟩ := deliveries_of_over (hover hlast) frames
          rw [hnil]
          exact iff_of_true (List.forall_mem_nil _) hsep
        · obtain ⟨hrem', hmodule'⟩ := hmore hlast
          rw [← heq, hmodule, ← hmodule']
          exact ih hrem'
      · have hstep : SameModule s f := fun _ hadm => absurd hadm hnot
        obtain ⟨hremain, -, hmodule⟩ := hsame
        rw [hnone, List.nil_append, and_iff_right hstep, ← hmodule]
        exact ih (by rw [hremain]; exact hrem)
      · have hstep : SameModule s f := fun _ hadm => absurd hadm hnot
        obtain ⟨hnil, hsep⟩ := deliveries_of_over hover frames
        rw [hnone, hnil]
        exact iff_of_true (List.forall_mem_nil _) ⟨hstep, hsep⟩

/-- The slices of one response: they are separate exactly when all the others come from
the module of the first. -/
theorem responsesSeparate_cons {p : Packet} {rest : List Packet} (hoffset : p.job.mloffset = 0)
    (hrem : ∀ r ∈ (p :: rest).dropLast, r.job.mlremain ≠ 0) :
    ResponsesSeparate (p :: rest) ↔ ∀ q ∈ rest, q.job.moduleidRec = p.job.moduleidRec := by
  constructor
  · intro h q hq
    obtain ⟨mid, post, rfl⟩ := List.append_of_mem hq
    refine h [] p mid q post rfl hoffset fun r hr => hrem r ?_
    rw [← List.cons_append, List.dropLast_append_of_ne_nil (List.cons_ne_nil q post)]
    exact List.mem_append_left _ hr
  · intro h pre p' mid q post hsplit _ _
    have hall : ∀ r ∈ p :: rest, r.job.moduleidRec = p.job.moduleidRec :=
      List.forall_mem_cons.mpr ⟨rfl, h⟩
    rw [hsplit] at hall
    have hp' := hall p' (by simp)
    have hq := hall q (by simp)
    exact hq.trans hp'.symm

/-- With no response under way, and offset 0. -/
theorem deliveries_idle (frames : List CanFrame) :
    ∀ {s : Poller}, s.mlremain = 0 → s.mloffset = 0 →
      (ResponsesSeparate (deliveries s frames) ↔ SeparateAlong s frames) := by
  have hempty : ResponsesSeparate [] := by
    intro pre p mid q post hsplit
    exact absurd hsplit.symm (List.append_ne_nil_of_right_ne_nil _ (List.cons_ne_nil _ _))
  induction frames with
  | nil => exact fun _ _ => iff_of_true hempty trivial
  | cons f frames ih =>
      intro s hrem hoff
      have hstep : SameModule s f := fun hne => absurd hrem hne
      have hdrop : ∀ r ∈ (deliveries s (f :: frames)).dropLast, r.job.mlremain ≠ 0 :=
        mlremain_of_mem_dropLast (f :: frames)
      rw [deliveries_cons] at hdrop ⊢
      rw [SeparateAlong, Lib.Along, and_iff_right hstep]
      rcases incoming_cases s f with ⟨-, p, hp, hmodule, hoffset, hmore, hover⟩ |
        ⟨-, hnone, hsame | hover⟩
      · rw [hp, List.singleton_append] at hdrop ⊢
        rw [responsesSeparate_cons (hoffset.trans hoff) hdrop]
        by_cases hlast : p.job.mlremain = 0
        · obtain ⟨hnil, hsep⟩ := deliveries_of_over (hover hlast) frames
          rw [hnil]
          exact iff_of_true (List.forall_mem_nil _) hsep
        · obtain ⟨hrem', hmodule'⟩ := hmore hlast
          rw [hmodule, ← hmodule']
          exact deliveries_underway frames hrem'
      · rw [hnone]
        exact ih (hsame.1.trans hrem) (hsame.2.1.trans hoff)
      · obtain ⟨hnil, hsep⟩ := deliveries_of_over hover frames
        rw [hnone, hnil]
        exact iff_of_true hempty hsep

/-- **Separation.** After a request, broadcast or not, and over every sequence of frames:
the responses stay separate exactly when, while one is under way, no frame of another
module is accepted. -/
theorem responses_separate_iff (s : Poller) (entry : PollPid) (frames : List CanFrame) :
    ResponsesSeparate (deliveries (pollerSendEntry s entry).1 frames) ↔
      SeparateAlong (pollerSendEntry s entry).1 frames :=
  deliveries_idle frames rfl rfl

/-- A broadcast request for a vehicle identification number. -/
def broadcastEntry : PollPid :=
  { PollPid.zero with
    txmoduleid := 0x7df, type := 0x09, args := ⟨0x02, 0, .inline (List.replicate 6 0)⟩ }

/-- The first frame of one module, then the single frame of another: the second slice
closes the response of the first module. -/
theorem responses_mixed :
    ¬ ResponsesSeparate (deliveries (pollerSendEntry listed broadcastEntry).1
      [.zeroFilled 1 .std 0x7e8 8 [0x10, 0x14, 0x49, 0x02, 0x01, 0x31, 0x44, 0x34],
        .zeroFilled 1 .std 0x7e9 8 [0x03, 0x49, 0x02, 0x05]]) := by
  intro h
  have hmodule := h [] _ [] _ [] rfl rfl (by decide)
  exact absurd hmodule (by decide)

end Ovms.Poll
