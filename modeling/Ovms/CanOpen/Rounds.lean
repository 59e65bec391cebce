import Mathlib.Data.Set.Basic
import Ovms.CanOpen.Stale
import Ovms.Lib.Machine

/-!
# How Long a Job Reads

The loop of `ProcessReadSDOJob` that asks for segments, whatever comes in while it does. It ends
with a segment that is marked as the last, with one that has another command or toggle bit, with a
timeout, or with a byte that the buffer has no room for. A segment that carries nothing and is not
the last ends it by none of these, and the next one may be such a segment again.

The frames that may come in for the job are a set. If a node may send empty segments with both
values of the toggle bit, no number of requests is enough; if not, each second segment carries a
byte, and the size of the buffer bounds the requests.
-/

open Lib

namespace Ovms.CanOpen

/-! ### Steps of the task and frames -/

/-- What happens to a worker: its task does a step, or a frame comes in. -/
inductive Stimulus
  | act (a : Act)
  | frame (msgID : ℕ) (bytes : List UInt8)
  deriving DecidableEq

/-- The worker behind it. -/
def Worker.react (w : Worker) : Stimulus → Option Worker
  | .act a => (w.step a).map Prod.fst
  | .frame msgID bytes => some (w.incomingFrame msgID bytes)

/-- `ExecuteSDORequest` begins: its request is sent for the first time. -/
def Worker.asks (w : Worker) : Stimulus → ℕ
  | .act .send => if w.job.trycnt = 0 then 1 else 0
  | _ => 0

/-- The task does a step. -/
def Worker.acts (_ : Worker) : Stimulus → ℕ
  | .act _ => 1
  | .frame _ _ => 0

/-- How many requests a run makes. -/
def segmentRequests : Worker → List Stimulus → ℕ := charged Worker.react Worker.asks

/-- How many steps of the task a run has. -/
def taskSteps : Worker → List Stimulus → ℕ := charged Worker.react Worker.acts

/-- The job is not returned yet, and a frame for it is one of the set. -/
def Answers (F : Set CANopenFrame) (rxid : ℕ) : Stimulus → Prop
  | .act a => a ≠ .complete
  | .frame msgID bytes => msgID = rxid → load bytes ∈ F

/-- The task is about to ask for the first segment. A response that it has been told of by now is
taken for the answer. -/
structure FirstSegment (F : Set CANopenFrame) (mem : List UInt8) (w : Worker) : Prop where
  task : w.task = .send (.uploadSegment 0)
  trycnt : w.job.trycnt = 0
  sdo : w.job.sdo = w.job.sdo.filled mem []
  told : w.notified ≠ 0 → w.response ∈ F

/-- Every read ends when frames of the set come in: its requests are bounded by a function of the
size of the buffer, each of them ends after as many tries as the job has, the task never gets
stuck, and what is behind the buffer is as before. -/
def Ends (F : Set CANopenFrame) : Prop :=
  ∃ bound : ℕ → ℕ, ∀ w mem, FirstSegment F mem w → ∀ es w',
    (∀ e ∈ es, Answers F w.job.rxid e) → es.foldlM Worker.react w = some w' →
      segmentRequests w es ≤ bound w.job.sdo.bufsize.toNat ∧
      taskSteps w es ≤ (2 * max 1 w.job.maxtries + 1) * segmentRequests w es ∧
      ((∃ result, w'.task = .done result) ∨ ∃ a, (w'.step a).isSome = true) ∧
      ∃ got, got.length = w.job.sdo.bufsize.toNat ∧
        w'.job.sdo.buf = some (got ++ mem.drop w.job.sdo.bufsize.toNat)

/-- A segment that carries nothing and is not the last. -/
def Hollow (toggle : UInt8) (f : CANopenFrame) : Prop :=
  f.control = uploadSegmentResponse ||| toggle ||| segmentUnusedMask

/-! ### One segment -/

/-- The control byte of a segment that leaves all bytes unused. -/
theorem hollow_of_control {toggle : UInt8} (ht : Toggle toggle) {f : CANopenFrame}
    (hsegment : Segment f toggle) (hunused : 7 ≤ ((f.control &&& segmentUnusedMask) >>> 1).toNat)
    (hend : f.control &&& segmentEnd = 0) : Hollow toggle f := by
  have hall : ∀ n : Fin 256, ∀ t ∈ [0, segmentToggle],
      UInt8.ofFin n &&& (commandMask ||| segmentToggle) = uploadSegmentResponse ||| t →
        7 ≤ ((UInt8.ofFin n &&& segmentUnusedMask) >>> 1).toNat →
          UInt8.ofFin n &&& segmentEnd = 0 →
            UInt8.ofFin n = uploadSegmentResponse ||| t ||| segmentUnusedMask := by
    decide +kernel
  refine hall f.control.toFin toggle ?_ hsegment hunused hend
  rcases ht with rfl | rfl <;> simp

/-- **What a response does** to a job that waits for a segment: the job ends, or the response is a
segment that is not the last, and all it carries goes behind what the buffer has. It may carry
nothing. -/
theorem segmentUploaded_cases {toggle : UInt8} (ht : Toggle toggle) (response : CANopenFrame)
    {sdo : Sdo} {mem bytes : List UInt8} (h : bytes.length ≤ sdo.bufsize.toNat)
    (hsdo : sdo = sdo.filled mem bytes) :
    (∃ sdo' result abort, ∃ bytes' : List UInt8,
      segmentUploaded toggle response sdo = (sdo', .finish result abort) ∧
        bytes'.length ≤ sdo'.bufsize.toNat ∧ sdo'.bufsize = sdo.bufsize ∧
        sdo' = sdo'.filled mem bytes') ∨
      ∃ data : List UInt8,
        segmentUploaded toggle response sdo =
          (sdo.filled mem (bytes ++ data), .execute (seg (uploadSegmentRequest ||| flip toggle) [])
            (.uploadSegment (flip toggle))) ∧
          (bytes ++ data).length ≤ sdo.bufsize.toNat ∧
          (data = [] → Hollow toggle response) := by
  by_cases hsegment : Segment response toggle
  · have hcontrol : response.control &&& (commandMask ||| segmentToggle) =
        uploadSegmentResponse ||| toggle := hsegment
    rw [segmentUploaded, if_pos hcontrol]
    dsimp only
    set dlen := 8 - ((response.control &&& segmentUnusedMask) >>> 1).toNat with hdlen
    set room := sdo.bufsize.toNat - bytes.length with hroom
    set data := (List.range (min (dlen - 1) room)).map fun i => response.byte (1 + i) with hdata
    have hcopy : copyLoop response (dlen - 1) 1 sdo =
        (1 + min (dlen - 1) room, sdo.filled mem (bytes ++ data)) := by
      conv_lhs => rw [hsdo]
      exact copyLoop_filled response (dlen - 1) 1 h
    have hlength : (bytes ++ data).length ≤ sdo.bufsize.toNat := by
      rw [List.length_append, hdata, List.length_map, List.length_range]
      omega
    rw [hcopy]
    split
    · exact .inl ⟨_, _, _, bytes ++ data, rfl, hlength, rfl, rfl⟩
    · split
      · exact .inl ⟨_, _, _, bytes ++ data, rfl, hlength, rfl, rfl⟩
      · next hfits hend =>
        refine .inr ⟨data, rfl, hlength, fun hnil => ?_⟩
        refine hollow_of_control ht hsegment ?_ (not_not.mp hend)
        have hzero : min (dlen - 1) room = 0 := by
          have := congrArg List.length hnil
          rwa [hdata, List.length_map, List.length_range] at this
        simp only at hfits
        omega
  · rw [segmentUploaded_of_not sdo hsegment]
    exact .inl ⟨_, _, _, bytes, rfl, h, rfl, congrArg (fun s : Sdo => { s with
      error := abortSegMismatch }) hsdo⟩

/-! ### The loop -/

/-- The task is in the loop, or behind it. -/
def Worker.Looping (F : Set CANopenFrame) (w : Worker) : Prop :=
  match w.task with
  | .send (.uploadSegment toggle) =>
      Toggle toggle ∧ (w.job.trycnt = 0 ∨ w.job.trycnt < w.job.maxtries)
  | .wait (.uploadSegment toggle) =>
      Toggle toggle ∧ 0 < w.job.trycnt ∧ w.job.trycnt ≤ max 1 w.job.maxtries
  | .check (.uploadSegment toggle) => Toggle toggle ∧ w.response ∈ F
  | .done _ => True
  | _ => False

/-- **The invariant of the loop**: the job is the one that was taken, and its buffer holds what has
been received. -/
structure Loops (F : Set CANopenFrame) (mem : List UInt8) (first w : Worker) : Prop where
  rxid : w.job.rxid = first.job.rxid
  maxtries : w.job.maxtries = first.job.maxtries
  bufsize : w.job.sdo.bufsize = first.job.sdo.bufsize
  filled : ∃ bytes, bytes.length ≤ w.job.sdo.bufsize.toNat ∧
    w.job.sdo = w.job.sdo.filled mem bytes
  told : w.notified ≠ 0 → w.response ∈ F
  looping : w.Looping F

/-- How many bytes the buffer has room for. -/
def Worker.room (w : Worker) : ℕ := w.job.sdo.bufsize.toNat - w.job.sdo.xfersize

/-- A segment that carries nothing may come. -/
noncomputable def mayBeHollow (F : Set CANopenFrame) (toggle : UInt8) : ℕ :=
  haveI := Classical.propDecidable (∃ f ∈ F, Hollow toggle f)
  if ∃ f ∈ F, Hollow toggle f then 1 else 0

/-- How many requests may still be made. -/
noncomputable def Worker.requestsLeft (F : Set CANopenFrame) (w : Worker) : ℕ :=
  match w.task with
  | .send (.uploadSegment toggle) =>
      2 * w.room + mayBeHollow F toggle + if w.job.trycnt = 0 then 1 else 0
  | .wait (.uploadSegment toggle) | .check (.uploadSegment toggle) =>
      2 * w.room + mayBeHollow F toggle
  | _ => 0

/-- How many steps may still be made before the next request. -/
def Worker.stepsLeft (w : Worker) : ℕ :=
  match w.task with
  | .send _ =>
      if w.job.trycnt = 0 then 0 else 2 * (max 1 w.job.maxtries - w.job.trycnt) + 1
  | .wait _ => 2 * (max 1 w.job.maxtries - w.job.trycnt) + 2
  | .check _ => 1
  | _ => 0

variable {F : Set CANopenFrame}

theorem mayBeHollow_of_mem {f : CANopenFrame} {toggle : UInt8} (hf : f ∈ F)
    (h : Hollow toggle f) : mayBeHollow F toggle = 1 := if_pos ⟨f, hf, h⟩

theorem mayBeHollow_le (F : Set CANopenFrame) (toggle : UInt8) : mayBeHollow F toggle ≤ 1 := by
  rw [mayBeHollow]
  split <;> decide

/-- Where not both values of the toggle bit may come with nothing, the other one does not when one
does. -/
theorem mayBeHollow_flip {toggle : UInt8} (ht : Toggle toggle)
    (h : ¬ ∀ toggle, Toggle toggle → ∃ f ∈ F, Hollow toggle f) :
    mayBeHollow F toggle + mayBeHollow F (flip toggle) ≤ 1 := by
  by_contra hlt
  have h₁ := mayBeHollow_le F toggle
  have h₂ := mayBeHollow_le F (flip toggle)
  have hone : ∀ {t}, mayBeHollow F t = 1 → ∃ f ∈ F, Hollow t f := by
    intro t ht
    rw [mayBeHollow] at ht
    split at ht
    · assumption
    · exact absurd ht (by decide)
  refine h fun t ht' => ?_
  have : t = toggle ∨ t = flip toggle := by
    rcases ht with rfl | rfl <;> rcases ht' with rfl | rfl <;> decide
  rcases this with rfl | rfl
  · exact hone (by omega)
  · exact hone (by omega)

variable {mem : List UInt8} {first w w' : Worker} {e : Stimulus}

theorem Worker.Looping.point (h : w.Looping F) {p : Point}
    (htask : w.task = .send p ∨ w.task = .wait p ∨ w.task = .check p) :
    ∃ toggle, p = .uploadSegment toggle ∧ Toggle toggle := by
  rw [Worker.Looping] at h
  rcases htask with htask | htask | htask <;> rw [htask] at h <;> cases p with
  | uploadSegment toggle => exact ⟨toggle, rfl, h.1⟩
  | _ => exact h.elim

/-- **What can happen in the loop.** -/
theorem Worker.Looping.react_cases (h : w.Looping F) (he : Answers F first.job.rxid e)
    (hstep : w.react e = some w') :
    (∃ msgID bytes, e = .frame msgID bytes ∧ w' = w.incomingFrame msgID bytes) ∨
      ∃ toggle, Toggle toggle ∧
        (e = .act .send ∧ w.task = .send (.uploadSegment toggle) ∧
            w' = { w with
              job := { w.job with trycnt := w.job.trycnt + 1 }
              task := .wait (.uploadSegment toggle) } ∨
          e = .act .take ∧ w.task = .wait (.uploadSegment toggle) ∧ w.notified ≠ 0 ∧
            w' = { w with notified := 0, task := .check (.uploadSegment toggle) } ∨
          e = .act .timeout ∧ w.task = .wait (.uploadSegment toggle) ∧
            w' = (w.expire (.uploadSegment toggle)).1 ∨
          e = .act .check ∧ w.task = .check (.uploadSegment toggle) ∧
            w' = (w.proceed (segmentUploaded toggle w.response w.job.sdo)).1) := by
  cases e with
  | frame msgID bytes => exact .inl ⟨msgID, bytes, rfl, (Option.some.inj hstep).symm⟩
  | act a =>
      refine .inr ?_
      rw [Worker.react, Option.map_eq_some_iff] at hstep
      obtain ⟨r, hstep, rfl⟩ := hstep
      cases a with
      | job job client active =>
          obtain ⟨hidle, -⟩ := Worker.step_job.mp hstep
          rw [Worker.Looping, hidle] at h
          exact h.elim
      | complete => exact absurd rfl he
      | send =>
          obtain ⟨p, htask, rfl⟩ := Worker.step_send.mp hstep
          obtain ⟨toggle, rfl, ht⟩ := h.point (.inl htask)
          exact ⟨toggle, ht, .inl ⟨rfl, htask, rfl⟩⟩
      | take =>
          obtain ⟨p, htask, htold, rfl⟩ := Worker.step_take.mp hstep
          obtain ⟨toggle, rfl, ht⟩ := h.point (.inr (.inl htask))
          exact ⟨toggle, ht, .inr (.inl ⟨rfl, htask, htold, rfl⟩)⟩
      | timeout =>
          obtain ⟨p, htask, -, rfl⟩ := Worker.step_timeout.mp hstep
          obtain ⟨toggle, rfl, ht⟩ := h.point (.inr (.inl htask))
          exact ⟨toggle, ht, .inr (.inr (.inl ⟨rfl, htask, rfl⟩))⟩
      | check =>
          obtain ⟨p, htask, rfl⟩ := Worker.step_check.mp hstep
          obtain ⟨toggle, rfl, ht⟩ := h.point (.inr (.inr htask))
          exact ⟨toggle, ht, .inr (.inr (.inr ⟨rfl, htask, rfl⟩))⟩

/-- What a step costs: no more steps than the requests allow, and, where not both values of the
toggle bit may come with nothing, no more requests than those that are left. -/
structure Pays (F : Set CANopenFrame) (w : Worker) (e : Stimulus) (w' : Worker) : Prop where
  steps : w.acts e + w'.stepsLeft ≤ (2 * max 1 w.job.maxtries + 1) * w.asks e + w.stepsLeft
  requests : (¬ ∀ toggle, Toggle toggle → ∃ f ∈ F, Hollow toggle f) →
    w.asks e + w'.requestsLeft F ≤ w.requestsLeft F

/-- A frame comes in. -/
theorem Loops.frame (h : Loops F mem first w) {msgID : ℕ} {bytes : List UInt8}
    (he : Answers F first.job.rxid (.frame msgID bytes)) :
    Loops F mem first (w.incomingFrame msgID bytes) ∧
      Pays F w (.frame msgID bytes) (w.incomingFrame msgID bytes) := by
  by_cases hawaits : w.Awaits msgID
  · have hF : load bytes ∈ F := he (hawaits.2.trans h.rxid)
    have hw' : w.incomingFrame msgID bytes =
        { w with response := load bytes, notified := w.notified + 1 } := if_pos hawaits
    have hlooping : Worker.Looping F
        { w with response := load bytes, notified := w.notified + 1 } := by
      have hlooping := h.looping
      rw [Worker.Looping] at hlooping ⊢
      dsimp only
      split at hlooping
      · exact hlooping
      · exact hlooping
      · exact ⟨hlooping.1, hF⟩
      · trivial
      · exact hlooping.elim
    rw [hw']
    exact ⟨⟨h.rxid, h.maxtries, h.bufsize, h.filled, fun _ => hF, hlooping⟩,
      ⟨Nat.le_refl _, fun _ => Nat.le_of_eq (Nat.zero_add _)⟩⟩
  · have hw' : w.incomingFrame msgID bytes = w := if_neg hawaits
    rw [hw']
    exact ⟨h, ⟨Nat.le_refl _, fun _ => Nat.le_of_eq (Nat.zero_add _)⟩⟩

/-- The request of a segment is sent. -/
theorem Loops.send (h : Loops F mem first w) {toggle : UInt8} (ht : Toggle toggle)
    (htask : w.task = .send (.uploadSegment toggle)) :
    Loops F mem first { w with
        job := { w.job with trycnt := w.job.trycnt + 1 }
        task := .wait (.uploadSegment toggle) } ∧
      Pays F w (.act .send) { w with
        job := { w.job with trycnt := w.job.trycnt + 1 }
        task := .wait (.uploadSegment toggle) } := by
  have hlooping := h.looping
  rw [Worker.Looping, htask] at hlooping
  refine ⟨⟨h.rxid, h.maxtries, h.bufsize, h.filled, h.told, ht, Nat.succ_pos _, ?_⟩, ⟨?_, ?_⟩⟩
  · simp only
    omega
  · simp only [Worker.acts, Worker.asks, Worker.stepsLeft, htask]
    split <;> omega
  · intro _
    simp only [Worker.asks, Worker.requestsLeft, htask, Worker.room]
    omega

/-- The task is told of a response. -/
theorem Loops.take (h : Loops F mem first w) {toggle : UInt8} (ht : Toggle toggle)
    (htask : w.task = .wait (.uploadSegment toggle)) (htold : w.notified ≠ 0) :
    Loops F mem first { w with notified := 0, task := .check (.uploadSegment toggle) } ∧
      Pays F w (.act .take) { w with notified := 0, task := .check (.uploadSegment toggle) } := by
  refine ⟨⟨h.rxid, h.maxtries, h.bufsize, h.filled, fun hne => absurd rfl hne, ht, h.told htold⟩,
    ⟨?_, ?_⟩⟩
  · simp only [Worker.acts, Worker.asks, Worker.stepsLeft, htask]
    omega
  · intro _
    simp only [Worker.asks, Worker.requestsLeft, htask, Worker.room]
    omega

/-- The task has waited in vain. -/
theorem Loops.expire (h : Loops F mem first w) {toggle : UInt8} (ht : Toggle toggle)
    (htask : w.task = .wait (.uploadSegment toggle)) :
    Loops F mem first (w.expire (.uploadSegment toggle)).1 ∧
      Pays F w (.act .timeout) (w.expire (.uploadSegment toggle)).1 := by
  have hlooping := h.looping
  rw [Worker.Looping, htask] at hlooping
  rw [Worker.expire]
  dsimp only
  split
  · next hretry =>
    refine ⟨⟨h.rxid, h.maxtries, h.bufsize, h.filled, h.told, ht, .inr hretry⟩, ⟨?_, ?_⟩⟩
    · simp only [Worker.acts, Worker.asks, Worker.stepsLeft, htask]
      split <;> omega
    · intro _
      simp only [Worker.asks, Worker.requestsLeft, htask, Worker.room]
      split <;> omega
  · obtain ⟨bytes, hbytes, hfilled⟩ := h.filled
    refine ⟨⟨h.rxid, h.maxtries, h.bufsize, ⟨bytes, hbytes, ?_⟩, h.told, trivial⟩, ⟨?_, ?_⟩⟩
    · exact congrArg (fun s : Sdo => { s with error := abortTimeout }) hfilled
    · simp only [Worker.acts, Worker.asks, Worker.stepsLeft, htask]
      omega
    · intro _
      simp only [Worker.asks, Worker.requestsLeft, htask]
      omega

/-- The task works on a response. A segment that carries nothing is paid by the toggle bit, which
may not come with nothing when it has the other value. -/
theorem Loops.check (h : Loops F mem first w) {toggle : UInt8} (ht : Toggle toggle)
    (htask : w.task = .check (.uploadSegment toggle)) :
    Loops F mem first (w.proceed (segmentUploaded toggle w.response w.job.sdo)).1 ∧
      Pays F w (.act .check) (w.proceed (segmentUploaded toggle w.response w.job.sdo)).1 := by
  have hlooping := h.looping
  rw [Worker.Looping, htask] at hlooping
  obtain ⟨bytes, hbytes, hfilled⟩ := h.filled
  rcases segmentUploaded_cases ht w.response hbytes hfilled with
    ⟨sdo', result, abort, bytes', hr, hbytes', hbufsize, hfilled'⟩ | ⟨data, hr, hlength, hnil⟩
  · rw [hr, Worker.proceed]
    refine ⟨⟨h.rxid, h.maxtries, hbufsize.trans h.bufsize, ⟨bytes', hbytes', hfilled'⟩, h.told,
      trivial⟩, ⟨?_, ?_⟩⟩
    · simp only [Worker.acts, Worker.asks, Worker.stepsLeft, htask]
      omega
    · intro _
      simp only [Worker.asks, Worker.requestsLeft, htask]
      omega
  · rw [hr, Worker.proceed]
    refine ⟨⟨h.rxid, h.maxtries, h.bufsize, ⟨bytes ++ data, hlength, rfl⟩, h.told, ht.flip,
      .inl rfl⟩, ⟨?_, ?_⟩⟩
    · simp only [Worker.acts, Worker.asks, Worker.stepsLeft, htask, if_true]
      omega
    · intro hF
      have hxfersize : w.job.sdo.xfersize = bytes.length := congrArg Sdo.xfersize hfilled
      have hpaid := mayBeHollow_flip ht hF
      rw [List.length_append] at hlength
      simp only [Worker.asks, Worker.requestsLeft, htask, Worker.room, hxfersize, Sdo.filled,
        List.length_append, if_true]
      rcases eq_or_ne data [] with rfl | hdata
      · have hhollow := mayBeHollow_of_mem hlooping.2 (hnil rfl)
        simp only [List.length_nil]
        omega
      · have := List.length_pos_of_ne_nil hdata
        omega

/-- **A step in the loop.** -/
theorem Loops.react (h : Loops F mem first w) (he : Answers F first.job.rxid e)
    (hstep : w.react e = some w') : Loops F mem first w' ∧ Pays F w e w' := by
  rcases h.looping.react_cases he hstep with ⟨msgID, bytes, rfl, rfl⟩ |
    ⟨toggle, ht, ⟨rfl, htask, rfl⟩ | ⟨rfl, htask, htold, rfl⟩ | ⟨rfl, htask, rfl⟩ |
      ⟨rfl, htask, rfl⟩⟩
  · exact h.frame he
  · exact h.send ht htask
  · exact h.take ht htask htold
  · exact h.expire ht htask
  · exact h.check ht htask

/-! ### Whole runs -/

theorem FirstSegment.loops (h : FirstSegment F mem w) : Loops F mem w w :=
  ⟨rfl, rfl, rfl, ⟨[], Nat.zero_le _, h.sdo⟩, h.told, by
    rw [Worker.Looping, h.task]
    exact ⟨toggle_zero, .inl h.trycnt⟩⟩

/-- In the loop some step can be made. -/
theorem Worker.Looping.progress (h : w.Looping F) :
    (∃ result, w.task = .done result) ∨ ∃ a, (w.step a).isSome = true := by
  cases htask : w.task with
  | idle =>
      rw [Worker.Looping, htask] at h
      exact h.elim
  | done result => exact .inl ⟨result, rfl⟩
  | send p => exact .inr ⟨.send, by rw [Worker.step, htask]; rfl⟩
  | check p => exact .inr ⟨.check, by rw [Worker.step, htask]; rfl⟩
  | wait p =>
      by_cases htold : w.notified = 0
      · refine .inr ⟨.timeout, ?_⟩
        rw [Worker.step, htask]
        exact congrArg Option.isSome (if_pos htold)
      · refine .inr ⟨.take, ?_⟩
        rw [Worker.step, htask]
        exact congrArg Option.isSome (if_pos htold)

/-- The steps of a run are bounded by its requests, and nothing is written behind the buffer. -/
theorem Loops.run (h : FirstSegment F mem w) {es : List Stimulus}
    (hes : ∀ e ∈ es, Answers F w.job.rxid e) (hrun : es.foldlM Worker.react w = some w') :
    Loops F mem w w' ∧
      taskSteps w es ≤ (2 * max 1 w.job.maxtries + 1) * segmentRequests w es := by
  have hstep : ∀ s e s', Loops F mem w s → Answers F w.job.rxid e → s.react e = some s' →
      Loops F mem w s' ∧ s.acts e + s'.stepsLeft ≤
        (2 * max 1 w.job.maxtries + 1) * s.asks e + s.stepsLeft := by
    intro s e s' hs he hstep
    obtain ⟨hs', hpays⟩ := hs.react he hstep
    exact ⟨hs', hs.maxtries ▸ hpays.steps⟩
  obtain ⟨hw', hle⟩ := charged_le hstep hes h.loops hrun
  have hzero : w.stepsLeft = 0 := by
    rw [Worker.stepsLeft, h.task]
    exact if_pos h.trycnt
  refine ⟨hw', ?_⟩
  rw [charged_mul, hzero] at hle
  rw [taskSteps, segmentRequests]
  omega

/-- **The requests are bounded**, where not both values of the toggle bit may come with nothing. -/
theorem segmentRequests_le (hF : ¬ ∀ toggle, Toggle toggle → ∃ f ∈ F, Hollow toggle f)
    (h : FirstSegment F mem w) {es : List Stimulus}
    (hes : ∀ e ∈ es, Answers F w.job.rxid e) (hrun : es.foldlM Worker.react w = some w') :
    segmentRequests w es ≤ 2 * w.job.sdo.bufsize.toNat + 2 := by
  have hstep : ∀ s e s', Loops F mem w s → Answers F w.job.rxid e → s.react e = some s' →
      Loops F mem w s' ∧
        s.asks e + s'.requestsLeft F ≤ 0 * s.asks e + s.requestsLeft F := by
    intro s e s' hs he hstep
    obtain ⟨hs', hpays⟩ := hs.react he hstep
    rw [Nat.zero_mul, Nat.zero_add]
    exact ⟨hs', hpays.requests hF⟩
  obtain ⟨-, hle⟩ := charged_le hstep hes h.loops hrun
  have hleft : w.requestsLeft F ≤ 2 * w.job.sdo.bufsize.toNat + 2 := by
    have hone := mayBeHollow_le F 0
    rw [Worker.requestsLeft, h.task]
    simp only [h.trycnt, if_true, Worker.room]
    omega
  rw [charged_mul, Nat.zero_mul, Nat.zero_add] at hle
  rw [segmentRequests]
  omega

/-! ### Segments that carry nothing -/

theorem segmentUploaded_hollow {toggle : UInt8} (ht : Toggle toggle) {f : CANopenFrame}
    (h : Hollow toggle f) (sdo : Sdo) :
    segmentUploaded toggle f sdo =
      (sdo, .execute (seg (uploadSegmentRequest ||| flip toggle) [])
        (.uploadSegment (flip toggle))) := by
  rw [segmentUploaded, show f.control = _ from h]
  rcases ht with rfl | rfl <;> rfl

/-- The task asks, the segment comes in, and the task works on it. -/
def round (rxid : ℕ) (f : CANopenFrame) : List Stimulus :=
  [.act .send, .frame rxid f.toList, .act .take, .act .check]

/-- One request more, and the job waits for a segment as before. -/
theorem foldlM_round {toggle : UInt8} (ht : Toggle toggle) {f : CANopenFrame}
    (hf : Hollow toggle f) (htask : w.task = .send (.uploadSegment toggle))
    (htrycnt : w.job.trycnt = 0) (htype : w.job.type ≠ .none) :
    ∃ w', (round w.job.rxid f).foldlM Worker.react w = some w' ∧
      segmentRequests w (round w.job.rxid f) = 1 ∧
      w'.task = .send (.uploadSegment (flip toggle)) ∧ w'.job = w.job := by
  set w₁ : Worker := { w with
    job := { w.job with trycnt := w.job.trycnt + 1 }
    task := .wait (.uploadSegment toggle) } with hw₁
  set w₂ : Worker := { w₁ with response := f, notified := w.notified + 1 } with hw₂
  set w₃ : Worker := { w₂ with notified := 0, task := .check (.uploadSegment toggle) } with hw₃
  set w₄ : Worker := { w₃ with
    job := { w.job with trycnt := 0 }
    request := seg (uploadSegmentRequest ||| flip toggle) []
    task := .send (.uploadSegment (flip toggle)) } with hw₄
  have hsend : w.react (.act .send) = some w₁ := by
    rw [Worker.react, Worker.step, htask]
    rfl
  have hframe : w₁.react (.frame w.job.rxid f.toList) = some w₂ := by
    have hawaits : w₁.Awaits w.job.rxid := ⟨htype, rfl⟩
    rw [Worker.react, Worker.incomingFrame, if_pos hawaits, load_toList]
  have htake : w₂.react (.act .take) = some w₃ := rfl
  have hcheck : w₃.react (.act .check) = some w₄ := by
    have hresume : (Point.uploadSegment toggle).resume w₃.request w₃.response w₃.job.sdo = _ :=
      segmentUploaded_hollow ht hf w.job.sdo
    rw [Worker.react, Worker.step]
    dsimp only [w₃]
    rw [hresume]
    rfl
  refine ⟨w₄, ?_, ?_, rfl, ?_⟩
  · simp only [round, List.foldlM_cons, List.foldlM_nil, hsend, hframe, htake, hcheck,
      Option.bind_eq_bind, Option.bind_some]
    rfl
  · simp only [segmentRequests, round, charged, hsend, hframe, htake, hcheck, Option.elim_some,
      Worker.asks, htrycnt, if_true]
  · rw [hw₄, ← htrycnt]

/-- **With such segments for both values of the toggle bit the loop goes on**, for any number of
requests. -/
theorem keepsAsking (hF : ∀ toggle, Toggle toggle → ∃ f ∈ F, Hollow toggle f) (n : ℕ)
    {toggle : UInt8} (ht : Toggle toggle) (htask : w.task = .send (.uploadSegment toggle))
    (htrycnt : w.job.trycnt = 0) (htype : w.job.type ≠ .none) :
    ∃ es w', (∀ e ∈ es, Answers F w.job.rxid e) ∧ es.foldlM Worker.react w = some w' ∧
      segmentRequests w es = n := by
  induction n generalizing w toggle with
  | zero => exact ⟨[], w, List.forall_mem_nil _, rfl, rfl⟩
  | succ n ih =>
      obtain ⟨f, hf, hhollow⟩ := hF toggle ht
      obtain ⟨w₁, hw₁, hone, htask₁, hjob⟩ := foldlM_round ht hhollow htask htrycnt htype
      obtain ⟨es, w', hes, hrun, hn⟩ := ih ht.flip htask₁ (hjob ▸ htrycnt) (hjob ▸ htype)
      refine ⟨round w.job.rxid f ++ es, w', fun e he => ?_, ?_, ?_⟩
      · rcases List.mem_append.mp he with he | he
        · simp only [round, List.mem_cons, List.not_mem_nil, or_false] at he
          rcases he with rfl | rfl | rfl | rfl
          · exact Act.noConfusion
          · exact fun _ => (load_toList f).symm ▸ hf
          · exact Act.noConfusion
          · exact Act.noConfusion
        · rw [← congrArg CANopenJob.rxid hjob]
          exact hes e he
      · rw [List.foldlM_append, hw₁]
        exact hrun
      · rw [segmentRequests, charged_append _ hw₁]
        rw [segmentRequests] at hone hn
        rw [hone, hn, Nat.add_comm]

/-- A job that reads one byte, about to ask for the first segment. -/
def readsOneByte : Worker :=
  { Worker.new with
    job := ⟨.readSDO, 0x601, 0x581, 1, 0, ⟨1, 0x2000, 0, some [0], 1, 0, 0, 0⟩⟩
    task := .send (.uploadSegment 0) }

/-- Such segments keep a job from ending. -/
theorem not_ends_of_hollow (hF : ∀ toggle, Toggle toggle → ∃ f ∈ F, Hollow toggle f) :
    ¬ Ends F := by
  rintro ⟨bound, h⟩
  have hfirst : FirstSegment F [0] readsOneByte := ⟨rfl, rfl, rfl, fun hne => absurd rfl hne⟩
  obtain ⟨es, w', hes, hrun, hn⟩ :=
    keepsAsking hF (bound readsOneByte.job.sdo.bufsize.toNat + 1) toggle_zero hfirst.task rfl
      (by decide)
  have hle := (h readsOneByte [0] hfirst es w' hes hrun).1
  omega

/-- **Every read ends**, whatever comes in, exactly when the node does not send segments that carry
nothing and are not the last with both values of the toggle bit. -/
theorem reads_end_iff (F : Set CANopenFrame) :
    Ends F ↔ ¬ ∀ toggle, Toggle toggle → ∃ f ∈ F, Hollow toggle f := by
  constructor
  · exact fun h hF => not_ends_of_hollow hF h
  · intro hF
    refine ⟨fun size => 2 * size + 2, fun w mem hfirst es w' hes hrun => ?_⟩
    obtain ⟨hloops, hsteps⟩ := Loops.run hfirst hes hrun
    obtain ⟨bytes, hlength, hfilled⟩ := hloops.filled
    rw [hloops.bufsize] at hlength
    refine ⟨segmentRequests_le hF hfirst hes hrun, hsteps, hloops.looping.progress,
      bytes ++ List.replicate (w.job.sdo.bufsize.toNat - bytes.length) 0, ?_, ?_⟩
    · rw [List.length_append, List.length_replicate]
      omega
    · rw [congrArg Sdo.buf hfilled, Sdo.filled, hloops.bufsize]

/-- Segments that carry nothing, with one value of the toggle bit after the other. -/
theorem not_ends :
    ¬ Ends {seg 0x0E [], seg 0x1E []} ∧ ¬ Ends Set.univ := by
  have h : ∀ F : Set CANopenFrame, seg 0x0E [] ∈ F → seg 0x1E [] ∈ F → ¬ Ends F := by
    refine fun F h₀ h₁ => not_ends_of_hollow fun toggle ht => ?_
    rcases ht with rfl | rfl
    · exact ⟨_, h₀, control_seg _ _⟩
    · exact ⟨_, h₁, control_seg _ _⟩
  exact ⟨h _ (Or.inl rfl) (Or.inr rfl), h _ trivial trivial⟩

end Ovms.CanOpen
