import Ovms.CanOpen.Copy

/-!
# Stale Responses

Jobs of a worker that read from a node whose responses may be late or lost
(`components/canopen/src/canopen_worker.cpp`). A response to a request to upload says which object
it is of, so that one that is late is told, or is one of the same object. A segment says nothing:
one of an earlier job, with the toggle bit that is next, is taken for the segment that is awaited.

A segment of the job itself is never out of place. The server answers one for each request until
an abort, which a timeout sends, ends its transfer; what it answers then is an abort.
-/

open Lib

namespace Ovms.CanOpen

variable {node : Node}

/-! ### The server ahead -/

/-- Frames are handled, with the answers to them. -/
def serveAll (node : Node) : Server → List (ℕ × CANopenFrame) → Server × List (ℕ × CANopenFrame)
  | s, [] => (s, [])
  | s, f :: requests =>
      let r := s.handle node f.2
      let rest := serveAll node r.1 requests
      (rest.1, r.2.toList.map (Prod.mk f.1) ++ rest.2)

/-- Frames that are handled in two parts. -/
theorem serveAll_append (s : Server) (requests requests' : List (ℕ × CANopenFrame)) :
    serveAll node s (requests ++ requests') =
      ((serveAll node (serveAll node s requests).1 requests').1,
        (serveAll node s requests).2 ++
          (serveAll node (serveAll node s requests).1 requests').2) := by
  induction requests generalizing s with
  | nil => rfl
  | cons f requests ih => simp only [List.cons_append, serveAll, ih, List.append_assoc]

/-- Worker and server, with the responses that are yet to come in: the server is where it will be
when it has handled what has been sent. -/
structure View where
  worker : Worker
  server : Server
  coming : List (ℕ × CANopenFrame)
  jobs : ℕ
  origin : ℕ

/-- The view of a state. -/
def Net.view (node : Node) (n : Net) : View :=
  let ahead := serveAll node n.server n.requests
  ⟨n.worker, ahead.1, n.responses ++ ahead.2, n.jobs, n.origin⟩

/-- When the server handles a frame, the view stays. -/
theorem view_serve {n n' : Net} (h : n.step node .serve = some n') :
    n'.view node = n.view node := by
  rw [Net.step] at h
  cases hrequests : n.requests with
  | nil => rw [hrequests] at h; cases h
  | cons f requests =>
      rw [hrequests] at h
      obtain rfl := Option.some.inj h
      simp only [Net.view, hrequests, serveAll, List.append_assoc]

/-- A response comes in. -/
theorem view_deliver {n n' : Net} (h : n.step node .deliver = some n') :
    ∃ f coming, (n.view node).coming = f :: coming ∧
      n'.view node = { n.view node with
        worker := n.worker.incomingFrame node.txid f.2.toList
        coming := coming
        origin := if n.worker.Awaits node.txid then f.1 else n.origin } := by
  rw [Net.step] at h
  cases hresponses : n.responses with
  | nil => rw [hresponses] at h; cases h
  | cons f responses =>
      rw [hresponses] at h
      obtain rfl := Option.some.inj h
      refine ⟨f, responses ++ (serveAll node n.server n.requests).2, ?_, rfl⟩
      rw [Net.view, hresponses, List.cons_append]

/-- A response is lost. -/
theorem view_lose {n n' : Net} {i : ℕ} (h : n.step node (.lose i) = some n') :
    ∃ coming, coming.Sublist (n.view node).coming ∧
      n'.view node = { n.view node with coming := coming } := by
  rw [Net.step] at h
  by_cases hi : i < n.responses.length
  · rw [if_pos hi] at h
    obtain rfl := Option.some.inj h
    exact ⟨_, (List.eraseIdx_sublist n.responses i).append_right _, rfl⟩
  · rw [if_neg hi] at h
    cases h

/-- The task does a step, and what it sends is handled. -/
theorem view_act {n n' : Net} {a : Act} (h : n.step node (.act a) = some n') :
    ∃ r, n.worker.step a = some r ∧
      let sent := serveAll node (n.view node).server
        ((node.received r.2).map (Prod.mk (a.count n.jobs)))
      n'.view node = ⟨r.1, sent.1, (n.view node).coming ++ sent.2, a.count n.jobs, n.origin⟩ := by
  rw [Net.step, Option.map_eq_some_iff] at h
  obtain ⟨r, hr, rfl⟩ := h
  exact ⟨r, hr, by simp only [Net.view, serveAll_append, List.append_assoc]⟩

/-! ### What may come in -/

/-- A segment that answers a request of the current job. -/
def SegmentOf (jobs : ℕ) (f : ℕ × CANopenFrame) : Prop :=
  f.1 = jobs ∧ f.2.control &&& commandMask = uploadSegmentResponse

instance (jobs : ℕ) (f : ℕ × CANopenFrame) : Decidable (SegmentOf jobs f) :=
  inferInstanceAs (Decidable (_ ∧ _))

/-- The segments among the responses that are yet to come in. -/
def View.segments (v : View) : List (ℕ × CANopenFrame) := v.coming.filter (SegmentOf v.jobs ·)

/-- The response is a segment with this toggle bit. -/
def Segment (response : CANopenFrame) (toggle : UInt8) : Prop :=
  response.control &&& (commandMask ||| segmentToggle) = uploadSegmentResponse ||| toggle

instance (response : CANopenFrame) (toggle : UInt8) : Decidable (Segment response toggle) :=
  inferInstanceAs (Decidable (_ = _))

/-- The response is the awaited segment, of the current job. -/
def View.Awaited (v : View) (toggle : UInt8) : Prop :=
  v.origin = v.jobs ∧ Segment v.worker.response toggle

theorem Segment.command {response : CANopenFrame} {toggle : UInt8} (ht : Toggle toggle)
    (h : Segment response toggle) :
    response.control &&& commandMask = uploadSegmentResponse := by
  have hmask : commandMask = (commandMask ||| segmentToggle) &&& commandMask := by decide
  rw [hmask, ← UInt8.and_assoc, show _ = _ from h]
  rcases ht with rfl | rfl <;> decide

/-- A segment has one toggle bit. -/
theorem Segment.unique {response : CANopenFrame} {toggle toggle' : UInt8} (ht : Toggle toggle)
    (ht' : Toggle toggle') (h : Segment response toggle) (h' : Segment response toggle') :
    toggle = toggle' := by
  have heq : uploadSegmentResponse ||| toggle = uploadSegmentResponse ||| toggle' :=
    (show _ = _ from h).symm.trans h'
  rcases ht with rfl | rfl <;> rcases ht' with rfl | rfl
  · rfl
  · exact absurd heq (by decide)
  · exact absurd heq (by decide)
  · rfl

/-- A response with all bytes in it has those of the object it names. -/
def Honest (node : Node) (response : CANopenFrame) : Prop :=
  response.control &&& commandMask = initUploadResponse → response.control &&& expedited ≠ 0 →
    ∃ (index : UInt16) (subindex : UInt8) (sized : Bool) (data : List UInt8), 0 < data.length ∧
      data.length ≤ 4 ∧ (sized = false → data.length = 4) ∧
      response = expeditedResponse index subindex sized data ∧
      node.content index subindex = some data

/-- A job waits for the response to its first request, of which the server may have begun an
upload. -/
structure Beginning (node : Node) (v : View) (asked : Bool) : Prop where
  request : v.worker.request =
    exp initUploadRequest v.worker.job.sdo.index v.worker.job.sdo.subindex []
  filled : ∃ mem, v.worker.job.sdo = v.worker.job.sdo.filled mem []
  noSegment : ∀ f ∈ (v.origin, v.worker.response) :: v.coming, ¬ SegmentOf v.jobs f
  server : asked = true → v.server.transfer = .idle ∨
    ∃ segments, v.server.transfer = .upload segments 0 ∧ segments ≠ [] ∧
      (∀ data ∈ segments, data.length ≤ 7) ∧
      node.content v.worker.job.sdo.index v.worker.job.sdo.subindex = some segments.flatten

/-- A job waits for a segment that will not come: the response to its first request was a late
one, and there is no upload. -/
structure Barren (v : View) (toggle : UInt8) : Prop where
  bit : Toggle toggle
  request : v.worker.request = seg (uploadSegmentRequest ||| toggle) []
  noSegment : ∀ f ∈ (v.origin, v.worker.response) :: v.coming, ¬ SegmentOf v.jobs f
  server : v.server.transfer = .idle

/-- A job waits for a segment: of all that may come in, only this one is a segment of the job, and
it comes once. -/
structure Expects (node : Node) (v : View) (toggle : UInt8) (asked : Bool)
    (mem got data : List UInt8) (rest : List (List UInt8)) : Prop where
  bit : Toggle toggle
  request : v.worker.request = seg (uploadSegmentRequest ||| toggle) []
  filled : v.worker.job.sdo = v.worker.job.sdo.filled mem got
  fits : got.length ≤ v.worker.job.sdo.bufsize.toNat
  length : data.length ≤ 7
  lengths : ∀ d ∈ rest, d.length ≤ 7
  object : node.content v.worker.job.sdo.index v.worker.job.sdo.subindex =
    some (got ++ data ++ rest.flatten)
  segments : v.segments.Sublist [(v.jobs, segmentResponse toggle data rest.isEmpty)]
  response : v.Awaited toggle →
    v.worker.response = segmentResponse toggle data rest.isEmpty ∧ v.segments = []
  server : v.server.transfer = .idle ∨
    (asked = false ∧ v.server.transfer = .upload (data :: rest) toggle ∧ v.segments = [] ∧
      ¬ v.Awaited toggle) ∨
    (asked = true ∧ v.server.transfer = .upload rest (flip toggle) ∧ rest ≠ [])

/-- The buffer holds the bytes of the object that is asked for, and zeros. -/
def HoldsObject (node : Node) (sdo : Sdo) : Prop :=
  ∃ object rest, node.content sdo.index sdo.subindex = some object ∧
    object.length ≤ sdo.bufsize.toNat ∧
    sdo.buf = some (object ++ List.replicate (sdo.bufsize.toNat - object.length) 0 ++ rest)

/-- What a job that has succeeded has in its buffer. -/
def Right (node : Node) (w : Worker) : Prop :=
  w.task = .done .ok → HoldsObject node w.job.sdo

/-- Where a job that reads stands. -/
def Phase (node : Node) (v : View) : Point → (asked : Bool) → Prop
  | .initUpload, asked => Beginning node v asked
  | .uploadSegment toggle, asked =>
      Barren v toggle ∨ ∃ mem got data rest, Expects node v toggle asked mem got data rest
  | _, _ => False

/-- The invariant of a worker that reads. -/
structure Inv (node : Node) (v : View) : Prop where
  honest : ∀ f ∈ (v.origin, v.worker.response) :: v.coming, Honest node f.2
  jobs : ∀ f ∈ (v.origin, v.worker.response) :: v.coming, f.1 ≤ v.jobs
  txid : v.worker.task ≠ .idle → v.worker.job.txid = node.rxid
  send : ∀ p, v.worker.task = .send p → Phase node v p false
  asked : ∀ p, v.worker.task = .wait p ∨ v.worker.task = .check p → Phase node v p true
  right : Right node v.worker

/-! ### Steps of the bus -/

/-- What comes in is less, and nothing that matters of the worker has changed. -/
theorem Phase.lose {v : View} {w : Worker} (hresponse : w.response = v.worker.response)
    (hrequest : w.request = v.worker.request) (hsdo : w.job.sdo = v.worker.job.sdo)
    {coming : List (ℕ × CANopenFrame)} (hsub : coming.Sublist v.coming) {p : Point}
    {asked : Bool} (h : Phase node v p asked) :
    Phase node { v with worker := w, coming := coming } p asked := by
  have hmem : ∀ f ∈ (v.origin, w.response) :: coming,
      f ∈ (v.origin, v.worker.response) :: v.coming := by
    rw [hresponse]
    exact fun f hf => (hsub.cons_cons _).subset hf
  cases p with
  | initUpload =>
      exact ⟨by rw [hrequest, hsdo]; exact h.request, by rw [hsdo]; exact h.filled,
        fun f hf => h.noSegment f (hmem f hf), by rw [hsdo]; exact h.server⟩
  | uploadSegment toggle =>
      rcases h with h | ⟨mem, got, data, rest, h⟩
      · exact .inl ⟨h.bit, hrequest.trans h.request, fun f hf => h.noSegment f (hmem f hf),
          h.server⟩
      · have hsegments : (View.segments { v with worker := w, coming := coming }).Sublist
            v.segments := hsub.filter _
        have hawaited : View.Awaited { v with worker := w, coming := coming } toggle →
            v.Awaited toggle := fun ha => ⟨ha.1, hresponse ▸ ha.2⟩
        refine .inr ⟨mem, got, data, rest, h.bit, hrequest.trans h.request,
          by rw [hsdo]; exact h.filled, by rw [hsdo]; exact h.fits, h.length, h.lengths,
          by rw [hsdo]; exact h.object, hsegments.trans h.segments, fun ha => ?_, ?_⟩
        · obtain ⟨hsegment, hnil⟩ := h.response (hawaited ha)
          exact ⟨hresponse.trans hsegment, List.sublist_nil.mp (hnil ▸ hsegments)⟩
        · refine h.server.imp id (Or.imp_left ?_)
          rintro ⟨hasked, htransfer, hnil, hnot⟩
          exact ⟨hasked, htransfer, List.sublist_nil.mp (hnil ▸ hsegments),
            fun ha => hnot (hawaited ha)⟩
  | initDownload => exact h.elim
  | downloadSegment toggle => exact h.elim

/-- A response comes in where a segment is awaited: it is the segment, and the only one, or it is
no segment of the job. -/
theorem Expects.deliver {v : View} {f : ℕ × CANopenFrame} {coming : List (ℕ × CANopenFrame)}
    (hcoming : v.coming = f :: coming) {w : Worker} (hresponse : w.response = f.2)
    (hrequest : w.request = v.worker.request) (hsdo : w.job.sdo = v.worker.job.sdo)
    {toggle : UInt8} {asked : Bool} {mem got data : List UInt8} {rest : List (List UInt8)}
    (h : Expects node v toggle asked mem got data rest) :
    Expects node { v with worker := w, coming := coming, origin := f.1 } toggle asked mem got data
      rest := by
  set v' : View := { v with worker := w, coming := coming, origin := f.1 }
  have hsplit : v.segments = if SegmentOf v.jobs f then f :: v'.segments else v'.segments := by
    rw [View.segments, hcoming, List.filter_cons]
    simp only [decide_eq_true_eq]
    rfl
  have hfield : ∀ P : Sdo → Prop, P v.worker.job.sdo → P w.job.sdo := fun P hP => hsdo ▸ hP
  have hfilled := hfield (fun sdo => sdo = sdo.filled mem got) h.filled
  have hfits := hfield (fun sdo => got.length ≤ sdo.bufsize.toNat) h.fits
  have hobject := hfield (fun sdo => node.content sdo.index sdo.subindex = _) h.object
  by_cases hof : SegmentOf v.jobs f
  · rw [if_pos hof] at hsplit
    have hsub := hsplit ▸ h.segments
    obtain ⟨hf, hnil⟩ : f = (v.jobs, segmentResponse toggle data rest.isEmpty) ∧
        v'.segments = [] := by
      have hlength := hsub.length_le
      have hsingle : v'.segments = [] :=
        List.length_eq_zero_iff.mp (by simpa using hlength)
      rw [hsingle] at hsub
      exact ⟨by simpa using hsub.subset List.mem_cons_self, hsingle⟩
    refine ⟨h.bit, hrequest.trans h.request, hfilled, hfits, h.length, h.lengths, hobject,
      hnil ▸ List.nil_sublist _, fun _ => ⟨hresponse.trans (by rw [hf]), hnil⟩, ?_⟩
    rcases h.server with hidle | ⟨-, -, hnone, -⟩ | hasked
    · exact .inl hidle
    · rw [hsplit] at hnone
      cases hnone
    · exact .inr (.inr hasked)
  · rw [if_neg hof] at hsplit
    have hawaited : ¬ v'.Awaited toggle :=
      fun ha => hof ⟨ha.1, Segment.command h.bit (hresponse ▸ ha.2)⟩
    refine ⟨h.bit, hrequest.trans h.request, hfilled, hfits, h.length, h.lengths, hobject,
      hsplit ▸ h.segments, fun ha => absurd ha hawaited, ?_⟩
    refine h.server.imp id (Or.imp_left ?_)
    rintro ⟨hasked, htransfer, hnil, -⟩
    exact ⟨hasked, htransfer, hsplit ▸ hnil, hawaited⟩

/-- A response comes in. -/
theorem Phase.deliver {v : View} {f : ℕ × CANopenFrame} {coming : List (ℕ × CANopenFrame)}
    (hcoming : v.coming = f :: coming) {w : Worker} (hresponse : w.response = f.2)
    (hrequest : w.request = v.worker.request) (hsdo : w.job.sdo = v.worker.job.sdo) {p : Point}
    {asked : Bool} (h : Phase node v p asked) :
    Phase node { v with worker := w, coming := coming, origin := f.1 } p asked := by
  have hmem : ∀ g ∈ (f.1, w.response) :: coming, g ∈ (v.origin, v.worker.response) :: v.coming := by
    intro g hg
    rw [hcoming]
    rw [hresponse] at hg
    exact List.mem_cons_of_mem _ hg
  cases p with
  | initUpload =>
      exact ⟨by rw [hrequest, hsdo]; exact h.request, by rw [hsdo]; exact h.filled,
        fun g hg => h.noSegment g (hmem g hg), by rw [hsdo]; exact h.server⟩
  | uploadSegment toggle =>
      rcases h with h | ⟨mem, got, data, rest, h⟩
      · exact .inl ⟨h.bit, hrequest.trans h.request, fun g hg => h.noSegment g (hmem g hg),
          h.server⟩
      · exact .inr ⟨mem, got, data, rest, h.deliver hcoming hresponse hrequest hsdo⟩
  | initDownload => exact h.elim
  | downloadSegment toggle => exact h.elim

/-! ### Steps of the task -/

theorem honest_of_command {response : CANopenFrame}
    (h : response.control &&& commandMask ≠ initUploadResponse) : Honest node response :=
  fun hcommand => absurd hcommand h

/-- The first request is sent, and answered by an upload or an abort. -/
theorem Beginning.send {v : View} {w : Worker} (hresponse : w.response = v.worker.response)
    (hrequest : w.request = v.worker.request) (hsdo : w.job.sdo = v.worker.job.sdo)
    (h : Beginning node v false) :
    ∃ answer, (v.server.handle node v.worker.request).2 = some answer ∧ Honest node answer ∧
      Beginning node ⟨w, (v.server.handle node v.worker.request).1,
        v.coming ++ [(v.jobs, answer)], v.jobs, v.origin⟩ true := by
  have hfilled : ∃ mem, w.job.sdo = w.job.sdo.filled mem [] := by rw [hsdo]; exact h.filled
  have hnone : ∀ answer : CANopenFrame,
      answer.control &&& commandMask ≠ uploadSegmentResponse →
      ∀ f ∈ (v.origin, w.response) :: (v.coming ++ [(v.jobs, answer)]), ¬ SegmentOf v.jobs f := by
    intro answer hanswer f hf
    rw [hresponse, ← List.cons_append] at hf
    rcases List.mem_append.mp hf with hf | hf
    · exact h.noSegment f hf
    · obtain rfl := List.mem_singleton.mp hf
      exact fun hof => hanswer hof.2
  set sdo := v.worker.job.sdo with hsdo'
  cases hobject : node.content sdo.index sdo.subindex with
  | none =>
      have hserve := handle_initUpload_none hobject v.server
      rw [h.request, hserve]
      refine ⟨_, rfl, honest_of_command (by rw [control_exp]; decide),
        by rw [hrequest, hsdo]; exact h.request, hfilled,
        hnone _ (by rw [control_exp]; decide), fun _ => .inl rfl⟩
  | some object =>
      obtain ⟨upload, rfl, hserve⟩ := handle_initUpload hobject v.server
      rw [h.request, hserve]
      cases upload with
      | expedited sized data hpos hle hunsized =>
          obtain ⟨hcommand, -⟩ :=
            control_expeditedResponse sdo.index sdo.subindex hpos hle hunsized
          refine ⟨_, rfl, fun _ _ => ⟨_, _, sized, data, hpos, hle, hunsized, rfl, hobject⟩,
            by rw [hrequest, hsdo]; exact h.request, hfilled,
            hnone _ (by rw [Upload.response, hcommand]; decide), fun _ => .inl rfl⟩
      | segmented indicated segments hne hle =>
          obtain ⟨hcommand, hexpedited⟩ := control_segmentedResponse sdo.index sdo.subindex
            (if indicated then some segments.flatten.length else none)
          refine ⟨_, rfl, fun _ hne => absurd hexpedited hne,
            by rw [hrequest, hsdo]; exact h.request, hfilled,
            hnone _ (by rw [Upload.response, hcommand]; decide),
            fun _ => .inr ⟨segments, rfl, hne, hle, by rw [hsdo]; exact hobject⟩⟩

/-- A request of a segment is refused where there is no upload. -/
theorem Barren.send {v : View} {w : Worker} (hresponse : w.response = v.worker.response)
    (hrequest : w.request = v.worker.request) {toggle : UInt8} (h : Barren v toggle) :
    ∃ answer, (v.server.handle node v.worker.request).2 = some answer ∧ Honest node answer ∧
      Barren ⟨w, (v.server.handle node v.worker.request).1, v.coming ++ [(v.jobs, answer)], v.jobs,
        v.origin⟩ toggle := by
  rw [h.request, handle_uploadSegment_idle h.bit h.server]
  refine ⟨_, rfl, honest_of_command (by rw [control_exp]; decide), h.bit,
    hrequest.trans h.request, ?_, rfl⟩
  intro f hf
  rw [hresponse, ← List.cons_append] at hf
  rcases List.mem_append.mp hf with hf | hf
  · exact h.noSegment f hf
  · obtain rfl := List.mem_singleton.mp hf
    rintro ⟨-, hcommand⟩
    rw [control_exp] at hcommand
    exact absurd hcommand (by decide)

/-- A request of a segment is answered by the one that is awaited, in its turn, or refused. -/
theorem Expects.send {v : View} {w : Worker} (hresponse : w.response = v.worker.response)
    (hrequest : w.request = v.worker.request) (hsdo : w.job.sdo = v.worker.job.sdo)
    {toggle : UInt8} {mem got data : List UInt8} {rest : List (List UInt8)}
    (h : Expects node v toggle false mem got data rest) :
    ∃ answer, (v.server.handle node v.worker.request).2 = some answer ∧ Honest node answer ∧
      Expects node ⟨w, (v.server.handle node v.worker.request).1, v.coming ++ [(v.jobs, answer)],
        v.jobs, v.origin⟩ toggle true mem got data rest := by
  have hfilled : w.job.sdo = w.job.sdo.filled mem got := by rw [hsdo]; exact h.filled
  have hfits : got.length ≤ w.job.sdo.bufsize.toNat := by rw [hsdo]; exact h.fits
  have hobject : node.content w.job.sdo.index w.job.sdo.subindex =
      some (got ++ data ++ rest.flatten) := by rw [hsdo]; exact h.object
  have hsegments : ∀ (server : Server) (answer : CANopenFrame),
      View.segments ⟨w, server, v.coming ++ [(v.jobs, answer)], v.jobs, v.origin⟩ =
        v.segments ++ [(v.jobs, answer)].filter (SegmentOf v.jobs ·) :=
    fun _ _ => List.filter_append ..
  have hawaited : ∀ (server : Server) (coming : List (ℕ × CANopenFrame)),
      View.Awaited ⟨w, server, coming, v.jobs, v.origin⟩ toggle → v.Awaited toggle :=
    fun _ _ ha => ⟨ha.1, hresponse ▸ ha.2⟩
  rcases h.server with hidle | ⟨-, htransfer, hnil, hnot⟩ | ⟨hfalse, -⟩
  · -- the transfer has been ended by an abort
    rw [h.request, handle_uploadSegment_idle h.bit hidle]
    have hrefused : ∀ server (answer : CANopenFrame), answer.control = sdoAbort →
        View.segments ⟨w, server, v.coming ++ [(v.jobs, answer)], v.jobs, v.origin⟩ =
          v.segments := by
      intro server answer hanswer
      rw [hsegments, List.filter_cons_of_neg, List.filter_nil, List.append_nil]
      simp only [SegmentOf, hanswer, decide_eq_true_eq]
      decide
    refine ⟨_, rfl, honest_of_command (by rw [control_exp]; decide), h.bit,
      hrequest.trans h.request, hfilled, hfits, h.length, h.lengths, hobject, ?_, fun ha => ?_,
      .inl rfl⟩
    · rw [hrefused _ _ (control_exp _ _ _ _)]
      exact h.segments
    · rw [hrefused _ _ (control_exp _ _ _ _), hresponse]
      exact h.response (hawaited _ _ ha)
  · obtain ⟨-, hcommand, -⟩ := control_segmentResponse h.bit h.length rest.isEmpty
    rw [h.request, handle_uploadSegment node h.bit htransfer]
    refine ⟨_, rfl, honest_of_command (by rw [hcommand]; decide), h.bit,
      hrequest.trans h.request, hfilled, hfits, h.length, h.lengths, hobject, ?_,
      fun ha => absurd (hawaited _ _ ha) hnot, ?_⟩
    · rw [hsegments, hnil, List.nil_append]
      exact List.filter_sublist
    · rw [Server.behind]
      by_cases hrest : rest = []
      · rw [if_pos hrest]
        exact .inl rfl
      · rw [if_neg hrest]
        exact .inr (.inr ⟨rfl, rfl, hrest⟩)
  · cases hfalse

/-- A request is sent and answered. -/
theorem Phase.send {v : View} {w : Worker} (hresponse : w.response = v.worker.response)
    (hrequest : w.request = v.worker.request) (hsdo : w.job.sdo = v.worker.job.sdo) {p : Point}
    (h : Phase node v p false) :
    ∃ answer, (v.server.handle node v.worker.request).2 = some answer ∧ Honest node answer ∧
      Phase node ⟨w, (v.server.handle node v.worker.request).1, v.coming ++ [(v.jobs, answer)],
        v.jobs, v.origin⟩ p true := by
  cases p with
  | initUpload => exact Beginning.send hresponse hrequest hsdo h
  | uploadSegment toggle =>
      rcases h with h | ⟨mem, got, data, rest, h⟩
      · obtain ⟨answer, hanswer, hhonest, h'⟩ := @Barren.send node _ _ hresponse hrequest _ h
        exact ⟨answer, hanswer, hhonest, .inl h'⟩
      · obtain ⟨answer, hanswer, hhonest, h'⟩ := h.send hresponse hrequest hsdo
        exact ⟨answer, hanswer, hhonest, .inr ⟨mem, got, data, rest, h'⟩⟩
  | initDownload => exact h.elim
  | downloadSegment toggle => exact h.elim

/-- An abort is sent. -/
theorem Phase.abort {v : View} {w : Worker} (hresponse : w.response = v.worker.response)
    (hrequest : w.request = v.worker.request) (hsdo : w.job.sdo = v.worker.job.sdo)
    {s : Server} (hserver : s.transfer = .idle) {p : Point}
    (h : Phase node v p true) :
    Phase node { v with worker := w, server := s } p false := by
  cases p with
  | initUpload =>
      exact ⟨by rw [hrequest, hsdo]; exact Beginning.request h, by rw [hsdo]; exact h.filled,
        by rw [hresponse]; exact h.noSegment, fun hfalse => by cases hfalse⟩
  | uploadSegment toggle =>
      rcases h with h | ⟨mem, got, data, rest, h⟩
      · exact .inl ⟨h.bit, hrequest.trans h.request, by rw [hresponse]; exact h.noSegment, hserver⟩
      · exact .inr ⟨mem, got, data, rest, h.bit, hrequest.trans h.request,
          by rw [hsdo]; exact h.filled, by rw [hsdo]; exact h.fits, h.length, h.lengths,
          by rw [hsdo]; exact h.object, h.segments,
          fun ha => by rw [hresponse]; exact h.response ⟨ha.1, hresponse ▸ ha.2⟩, .inl hserver⟩
  | initDownload => exact h.elim
  | downloadSegment toggle => exact h.elim

/-- How a job that reads may go on. -/
structure GoesOn (node : Node) (v : View) (r : Sdo × Outcome) : Prop where
  execute : ∀ request p, r.2 = .execute request p → ∀ w : Worker, w.request = request →
    w.job.sdo = r.1 → w.response = v.worker.response →
    Phase node { v with worker := w } p false
  finish : ∀ abort, r.2 = .finish .ok abort → HoldsObject node r.1

theorem goesOn_of_finish {v : View} {sdo : Sdo} {result : CANopenResult} {abort : Option UInt32}
    (h : result ≠ .ok) : GoesOn node v (sdo, .finish result abort) :=
  ⟨fun _ _ hexecute => (by cases hexecute),
    fun _ hfinish => absurd (Outcome.finish.inj hfinish).1 h⟩

/-- A job that has received an object. -/
theorem goesOn_of_received {v : View} {sdo : Sdo} {mem object : List UInt8}
    {abort : Option UInt32} (hobject : node.content sdo.index sdo.subindex = some object) :
    GoesOn node v (received sdo mem object (.finish .ok none) abort) := by
  rw [received]
  by_cases hfits : object.length ≤ sdo.bufsize.toNat
  · rw [if_pos hfits]
    exact ⟨fun _ _ hexecute => (by cases hexecute), fun _ _ => ⟨object, _, hobject, hfits, rfl⟩⟩
  · rw [if_neg hfits]
    exact goesOn_of_finish (by decide)

theorem segments_eq_nil {v : View}
    (h : ∀ f ∈ (v.origin, v.worker.response) :: v.coming, ¬ SegmentOf v.jobs f) :
    v.segments = [] := by
  rw [View.segments, List.filter_eq_nil_iff]
  intro f hf
  rw [decide_eq_true_eq]
  exact h f (List.mem_cons_of_mem _ hf)

theorem not_awaited {v : View} {toggle : UInt8} (ht : Toggle toggle)
    (h : ∀ f ∈ (v.origin, v.worker.response) :: v.coming, ¬ SegmentOf v.jobs f) :
    ¬ v.Awaited toggle :=
  fun ha => h _ List.mem_cons_self ⟨ha.1, ha.2.command ht⟩

/-- **The response to the first request** is of the object that is asked for, or refused. -/
theorem Beginning.goesOn {v : View} (h : Beginning node v true)
    (hhonest : Honest node v.worker.response) :
    GoesOn node v (initUploaded v.worker.request v.worker.response v.worker.job.sdo) := by
  obtain ⟨mem, hfilled⟩ := h.filled
  set sdo := v.worker.job.sdo with hsdo
  by_cases haccept : v.worker.response.control &&& commandMask = initUploadResponse ∧
      v.worker.response.Addresses v.worker.request
  · by_cases hexpedited : v.worker.response.control &&& expedited ≠ 0
    · obtain ⟨index, subindex, sized, data, hpos, hle, hunsized, hresponse, hobject⟩ :=
        hhonest haccept.1 hexpedited
      obtain ⟨hindex, hsubindex⟩ := haccept.2
      rw [h.request, hresponse, expeditedResponse, index_exp, index_exp] at hindex
      rw [h.request, hresponse, expeditedResponse, subindex_exp, subindex_exp] at hsubindex
      subst hindex hsubindex
      rw [h.request, hresponse]
      have hresume := (congrArg (initUploaded _ _) hfilled).trans
        (initUploaded_expedited sdo.index sdo.subindex hpos hle hunsized sdo mem)
      rw [hresume]
      exact goesOn_of_received hobject
    · obtain ⟨contsize, hresume⟩ : ∃ contsize,
          initUploaded v.worker.request v.worker.response sdo = ({ sdo with contsize := contsize },
            .execute (seg uploadSegmentRequest []) (.uploadSegment 0)) := by
        rw [initUploaded, if_pos haccept, if_neg hexpedited]
        exact ⟨_, rfl⟩
      rw [hresume]
      refine ⟨fun request p hexecute w hrequest hw hresponse => ?_,
        fun abort hfinish => (by cases hfinish)⟩
      obtain ⟨rfl, rfl⟩ := Outcome.execute.inj hexecute
      have hnone : ∀ f ∈ (v.origin, w.response) :: v.coming, ¬ SegmentOf v.jobs f := by
        rw [hresponse]
        exact h.noSegment
      rcases h.server rfl with hidle | ⟨segments, htransfer, hne, hle, hobject⟩
      · exact .inl ⟨toggle_zero, hrequest, hnone, hidle⟩
      · obtain ⟨data, rest, rfl⟩ := List.exists_cons_of_ne_nil hne
        have hnil : View.segments { v with worker := w } = [] := segments_eq_nil hnone
        have hnot : ¬ View.Awaited { v with worker := w } 0 := not_awaited toggle_zero hnone
        refine .inr ⟨mem, [], data, rest, toggle_zero, hrequest, ?_, Nat.zero_le _,
          hle data List.mem_cons_self, fun d hd => hle d (List.mem_cons_of_mem _ hd), ?_,
          hnil ▸ List.nil_sublist _, fun ha => absurd ha hnot,
          .inr (.inl ⟨rfl, htransfer, hnil, hnot⟩)⟩
        · rw [hw]
          exact congrArg (fun sdo : Sdo => { sdo with contsize := contsize }) hfilled
        · rw [hw]
          exact hobject
  · rw [initUploaded, if_neg haccept]
    exact goesOn_of_finish (by decide)

theorem segmentUploaded_of_not {toggle : UInt8} {response : CANopenFrame} (sdo : Sdo)
    (h : ¬ Segment response toggle) : segmentUploaded toggle response sdo = mismatch sdo := by
  rw [segmentUploaded, if_neg (show ¬ _ = _ from h)]

/-- **The response to the request of a segment** is the segment, unless it is a stale one. -/
theorem Expects.goesOn {v : View} {toggle : UInt8} {mem got data : List UInt8}
    {rest : List (List UInt8)} (h : Expects node v toggle true mem got data rest)
    (hfresh : Segment v.worker.response toggle → v.origin = v.jobs) :
    GoesOn node v (segmentUploaded toggle v.worker.response v.worker.job.sdo) := by
  by_cases hsegment : Segment v.worker.response toggle
  · obtain ⟨hresponse, hnil⟩ := h.response ⟨hfresh hsegment, hsegment⟩
    set sdo := v.worker.job.sdo
    have hresume := (congrArg (segmentUploaded toggle _) h.filled).trans
      (segmentUploaded_segment h.bit mem h.length rest.isEmpty h.fits)
    rw [hresponse, hresume]
    by_cases hrest : rest = []
    · subst hrest
      have hobject := h.object
      rw [List.flatten_nil, List.append_nil] at hobject
      exact goesOn_of_received hobject
    · rw [received]
      by_cases hfits : (got ++ data).length ≤ sdo.bufsize.toNat
      · rw [if_pos hfits, if_neg (by simpa using hrest)]
        refine ⟨fun request p hexecute w hrequest hw hresponse' => ?_,
          fun abort hfinish => (by cases hfinish)⟩
        obtain ⟨rfl, rfl⟩ := Outcome.execute.inj hexecute
        obtain ⟨data', rest', rfl⟩ := List.exists_cons_of_ne_nil hrest
        have hnot : ¬ View.Awaited { v with worker := w } (flip toggle) := by
          rintro ⟨-, hflip⟩
          dsimp only at hflip
          rw [hresponse'] at hflip
          exact h.bit.flip_ne (hflip.unique h.bit.flip h.bit hsegment)
        have hnil' : View.segments { v with worker := w } = [] := hnil
        refine .inr ⟨mem, got ++ data, data', rest', h.bit.flip, hrequest, ?_, ?_,
          h.lengths _ List.mem_cons_self, fun d hd => h.lengths d (List.mem_cons_of_mem _ hd), ?_,
          hnil' ▸ List.nil_sublist _, fun ha => absurd ha hnot, ?_⟩
        · rw [hw]
          rfl
        · rw [hw]
          exact hfits
        · rw [hw, List.append_assoc (got ++ data), ← List.flatten_cons]
          exact h.object
        · rcases h.server with hidle | ⟨hfalse, -⟩ | ⟨-, htransfer, -⟩
          · exact .inl hidle
          · cases hfalse
          · exact .inr (.inl ⟨rfl, htransfer, hnil', hnot⟩)
      · rw [if_neg hfits]
        exact goesOn_of_finish (by decide)
  · rw [segmentUploaded_of_not _ hsegment]
    exact goesOn_of_finish (by decide)

theorem Barren.goesOn {v : View} {toggle : UInt8} (h : Barren v toggle)
    (hfresh : Segment v.worker.response toggle → v.origin = v.jobs) :
    GoesOn node v (segmentUploaded toggle v.worker.response v.worker.job.sdo) := by
  have hsegment : ¬ Segment v.worker.response toggle :=
    fun hs => not_awaited h.bit h.noSegment ⟨hfresh hs, hs⟩
  rw [segmentUploaded_of_not _ hsegment]
  exact goesOn_of_finish (by decide)

/-- The start of a job that reads: it is refused, or asks for the object. -/
theorem processReadSDOJob_cases (active : Bool) (sdo : Sdo) :
    (∃ result, result ≠ .ok ∧ processReadSDOJob active sdo = (sdo, .finish result none)) ∨
      ∃ mem, processReadSDOJob active sdo = (sdo.filled mem [],
        .execute (exp initUploadRequest sdo.index sdo.subindex []) .initUpload) := by
  rw [processReadSDOJob]
  by_cases hactive : (!active) = true
  · exact .inl ⟨.noCANWrite, by decide, by rw [if_pos hactive]⟩
  by_cases hnode : sdo.nodeid < 1 ∨ sdo.nodeid > 127
  · exact .inl ⟨.paramRange, by decide, by rw [if_neg hactive, if_pos hnode]⟩
  rw [if_neg hactive, if_neg hnode]
  cases sdo.buf with
  | none => exact .inl ⟨.paramRange, by decide, rfl⟩
  | some mem =>
      dsimp only
      by_cases hsize : sdo.bufsize = 0
      · exact .inl ⟨.paramRange, by decide, by rw [if_pos hsize]⟩
      · exact .inr ⟨mem, by rw [if_neg hsize]; rfl⟩

/-! ### Runs -/

/-- Jobs that are taken read from the node. -/
def Reads (node : Node) : Event → Prop
  | .act (.job job _ _) => job.type = .readSDO ∧ job.txid = node.rxid ∧ job.rxid = node.txid
  | _ => True

/-- The task is about to take the response for the segment it awaits. -/
def Task.Takes (response : CANopenFrame) : Task → Prop
  | .check (.uploadSegment toggle) => Segment response toggle
  | _ => False

/-- A segment of an earlier job is taken for the awaited one. -/
def Stale (n : Net) : Event → Prop
  | .act .check => n.origin ≠ n.jobs ∧ n.worker.task.Takes n.worker.response
  | _ => False

instance (response : CANopenFrame) : (task : Task) → Decidable (task.Takes response)
  | .check (.uploadSegment toggle) =>
      inferInstanceAs (Decidable (Segment response toggle))
  | .idle | .send _ | .wait _ | .done _ | .check .initUpload | .check .initDownload
  | .check (.downloadSegment _) => isFalse id

instance (n : Net) : (e : Event) → Decidable (Stale n e)
  | .act .check => inferInstanceAs (Decidable (_ ∧ _))
  | .act (.job _ _ _) | .act .send | .act .take | .act .timeout | .act .complete | .serve
  | .deliver | .lose _ => isFalse id

/-- The task has changed, but not what comes in. -/
theorem Inv.task {v : View} {w : Worker} {server : Server} (h : Inv node v)
    (hresponse : w.response = v.worker.response)
    (htxid : w.task ≠ .idle → w.job.txid = node.rxid)
    (hsend : ∀ p, w.task = .send p → Phase node { v with worker := w, server := server } p false)
    (hasked : ∀ p, w.task = .wait p ∨ w.task = .check p →
      Phase node { v with worker := w, server := server } p true)
    (hright : Right node w) : Inv node { v with worker := w, server := server } :=
  ⟨by rw [hresponse]; exact h.honest, by rw [hresponse]; exact h.jobs, htxid, hsend, hasked,
    hright⟩

theorem Inv.lose {v : View} {coming : List (ℕ × CANopenFrame)} (h : Inv node v)
    (hsub : coming.Sublist v.coming) : Inv node { v with coming := coming } :=
  ⟨fun f hf => h.honest f ((hsub.cons_cons _).subset hf),
    fun f hf => h.jobs f ((hsub.cons_cons _).subset hf), h.txid,
    fun p hp => (h.send p hp).lose rfl rfl rfl hsub,
    fun p hp => (h.asked p hp).lose rfl rfl rfl hsub, h.right⟩

/-- A response comes in, for the current job or not. -/
theorem Inv.deliver {v : View} {f : ℕ × CANopenFrame} {coming : List (ℕ × CANopenFrame)}
    (h : Inv node v) (hcoming : v.coming = f :: coming) :
    Inv node { v with
      worker := v.worker.incomingFrame node.txid f.2.toList
      coming := coming
      origin := if v.worker.Awaits node.txid then f.1 else v.origin } := by
  by_cases hawaits : v.worker.Awaits node.txid
  · rw [Worker.incomingFrame, if_pos hawaits, if_pos hawaits, load_toList]
    set w : Worker := { v.worker with response := f.2, notified := v.worker.notified + 1 }
    have hmem : ∀ g ∈ (f.1, f.2) :: coming, g ∈ (v.origin, v.worker.response) :: v.coming := by
      intro g hg
      rw [hcoming]
      exact List.mem_cons_of_mem _ hg
    exact ⟨fun g hg => h.honest g (hmem g hg), fun g hg => h.jobs g (hmem g hg), h.txid,
      fun p hp => (h.send p hp).deliver hcoming (w := w) rfl rfl rfl,
      fun p hp => (h.asked p hp).deliver hcoming (w := w) rfl rfl rfl, h.right⟩
  · rw [Worker.incomingFrame, if_neg hawaits, if_neg hawaits]
    exact h.lose (hcoming ▸ List.sublist_cons_self f coming)

theorem serveAll_received (node : Node) (s : Server) (f : CANopenFrame) (jobs : ℕ) :
    serveAll node s ((node.received [(node.rxid, f)]).map (Prod.mk jobs)) =
      ((s.handle node f).1, (s.handle node f).2.toList.map (Prod.mk jobs)) := by
  simp [Node.received, serveAll]

theorem serveAll_abort (node : Node) (s : Server) (request : CANopenFrame) (reason : UInt32)
    (jobs : ℕ) :
    serveAll node s ((node.received [(node.rxid, abortFrame request reason)]).map (Prod.mk jobs)) =
      ({ s with transfer := .idle }, []) := by
  rw [serveAll_received, handle_abort _ (control_abortFrame _ _)]
  rfl

/-- The task, with the server as it is once it has handled what the task sends. -/
def View.act (node : Node) (v : View) (a : Act) (r : Worker × List (ℕ × CANopenFrame)) : View :=
  let sent := serveAll node v.server ((node.received r.2).map (Prod.mk (a.count v.jobs)))
  ⟨r.1, sent.1, v.coming ++ sent.2, a.count v.jobs, v.origin⟩

theorem View.act_nil (v : View) (a : Act) (w : Worker) :
    v.act node a (w, []) = { v with worker := w, jobs := a.count v.jobs } := by
  simp [View.act, Node.received, serveAll]

/-- A job is taken. -/
theorem Inv.start {v : View} (h : Inv node v) {job : CANopenJob} {client active : Bool}
    (htype : job.type = .readSDO) (htxid : job.txid = node.rxid) :
    Inv node (v.act node (.job job client active)
      (Worker.start { v.worker with job := job } active)) := by
  have hnone : ∀ f ∈ (v.origin, v.worker.response) :: v.coming, ¬ SegmentOf (v.jobs + 1) f :=
    fun f hf hof => absurd (h.jobs f hf) (by rw [hof.1]; omega)
  have hjobs : ∀ f ∈ (v.origin, v.worker.response) :: v.coming, f.1 ≤ v.jobs + 1 :=
    fun f hf => Nat.le_succ_of_le (h.jobs f hf)
  rw [Worker.start, htype]
  dsimp only
  rcases processReadSDOJob_cases active job.sdo with ⟨result, hne, hstart⟩ | ⟨mem, hstart⟩
  · rw [hstart, Worker.proceed]
    dsimp only [Option.toList, List.map]
    rw [View.act_nil]
    exact ⟨h.honest, hjobs, fun _ => htxid, fun p hp => (by cases hp),
      fun p hp => (by rcases hp with hp | hp <;> cases hp),
      fun hdone => absurd (Task.done.inj hdone) hne⟩
  · rw [hstart, Worker.proceed]
    dsimp only
    rw [View.act_nil]
    refine ⟨h.honest, hjobs, fun _ => htxid, fun p hp => ?_,
      fun p hp => (by rcases hp with hp | hp <;> cases hp), fun hdone => (by cases hdone)⟩
    obtain rfl := Task.send.inj hp
    exact ⟨rfl, ⟨mem, rfl⟩, hnone, fun hfalse => (by cases hfalse)⟩

/-- A request is sent. -/
theorem Inv.sent {v : View} (h : Inv node v) {p : Point} (htask : v.worker.task = .send p)
    {w : Worker} (hresponse : w.response = v.worker.response)
    (hrequest : w.request = v.worker.request) (hsdo : w.job.sdo = v.worker.job.sdo)
    (htxid : w.job.txid = v.worker.job.txid) (hwait : w.task = .wait p) :
    Inv node (v.act node .send (w, [(v.worker.job.txid, v.worker.request)])) := by
  have hid : v.worker.job.txid = node.rxid := h.txid (by rw [htask]; exact Task.noConfusion)
  obtain ⟨answer, hanswer, hhonest, hphase⟩ := (h.send p htask).send hresponse hrequest hsdo
  rw [View.act, hid]
  dsimp only
  rw [serveAll_received, hanswer]
  refine ⟨?_, ?_, fun _ => htxid.trans hid, fun q hq => ?_, fun q hq => ?_, fun hdone => ?_⟩
  · intro f hf
    rw [hresponse, ← List.cons_append] at hf
    rcases List.mem_append.mp hf with hf | hf
    · exact h.honest f hf
    · obtain rfl := List.mem_singleton.mp hf
      exact hhonest
  · intro f hf
    rw [hresponse, ← List.cons_append] at hf
    rcases List.mem_append.mp hf with hf | hf
    · exact h.jobs f hf
    · obtain rfl := List.mem_singleton.mp hf
      exact le_rfl
  · rw [hwait] at hq
    cases hq
  · obtain rfl : p = q := by
      rw [hwait] at hq
      rcases hq with hq | hq
      · exact Task.wait.inj hq
      · cases hq
    exact hphase
  · rw [hwait] at hdone
    cases hdone

/-- A timeout is met. -/
theorem Inv.expired {v : View} (h : Inv node v) {p : Point} (htask : v.worker.task = .wait p) :
    Inv node (v.act node .timeout (v.worker.expire p)) := by
  have hid : v.worker.job.txid = node.rxid := h.txid (by rw [htask]; exact Task.noConfusion)
  have hphase := h.asked p (.inl htask)
  rw [Worker.expire, View.act, hid]
  by_cases hretry : v.worker.job.trycnt < v.worker.job.maxtries
  · rw [if_pos hretry]
    dsimp only
    rw [serveAll_abort, List.append_nil]
    refine h.task rfl (fun _ => hid) (fun q hq => ?_)
      (fun q hq => (by rcases hq with hq | hq <;> cases hq)) fun hdone => (by cases hdone)
    obtain rfl := Task.send.inj hq
    exact hphase.abort (w := { v.worker with task := .send p })
      (s := { v.server with transfer := .idle }) rfl rfl rfl rfl
  · rw [if_neg hretry]
    dsimp only
    rw [serveAll_abort, List.append_nil]
    exact h.task rfl (fun _ => hid) (fun q hq => (by cases hq))
      (fun q hq => (by rcases hq with hq | hq <;> cases hq)) fun hdone => (by cases hdone)

/-- A response is worked on, which is not a stale segment. -/
theorem Inv.checked {v : View} (h : Inv node v) {p : Point} (htask : v.worker.task = .check p)
    (hfresh : v.worker.task.Takes v.worker.response → v.origin = v.jobs) :
    Inv node (v.act node .check
      (v.worker.proceed (p.resume v.worker.request v.worker.response v.worker.job.sdo))) := by
  have hid : v.worker.job.txid = node.rxid := h.txid (by rw [htask]; exact Task.noConfusion)
  have hphase := h.asked p (.inr htask)
  rw [htask] at hfresh
  have hgoesOn : GoesOn node v
      (p.resume v.worker.request v.worker.response v.worker.job.sdo) := by
    cases p with
    | initUpload => exact Beginning.goesOn hphase (h.honest _ List.mem_cons_self)
    | uploadSegment toggle =>
        rcases hphase with hphase | ⟨mem, got, data, rest, hphase⟩
        · exact hphase.goesOn hfresh
        · exact hphase.goesOn hfresh
    | initDownload => exact hphase.elim
    | downloadSegment toggle => exact hphase.elim
  generalize p.resume v.worker.request v.worker.response v.worker.job.sdo = res at hgoesOn ⊢
  obtain ⟨sdo, outcome⟩ := res
  cases outcome with
  | execute request q =>
      rw [Worker.proceed, View.act_nil]
      refine h.task rfl (fun _ => hid) (fun q' hq => ?_)
        (fun q' hq => (by rcases hq with hq | hq <;> cases hq)) fun hdone => (by cases hdone)
      obtain rfl := Task.send.inj hq
      exact hgoesOn.execute request q rfl _ rfl rfl rfl
  | finish result abort =>
      have hdone : ∀ server : Server, Inv node { v with
          worker := { v.worker with job := { v.worker.job with sdo := sdo }, task := .done result }
          server := server } := fun server =>
        h.task rfl (fun _ => hid) (fun q hq => (by cases hq))
          (fun q hq => (by rcases hq with hq | hq <;> cases hq)) fun hok => by
            obtain rfl := Task.done.inj hok
            exact hgoesOn.finish abort rfl
      cases abort with
      | none =>
          rw [Worker.proceed]
          dsimp only [Option.toList, List.map]
          rw [View.act_nil]
          exact hdone v.server
      | some reason =>
          rw [Worker.proceed, View.act, hid]
          dsimp only [Option.toList, List.map]
          rw [serveAll_abort, List.append_nil]
          exact hdone _

/-- **A step of the task** that takes no stale segment. -/
theorem Inv.act {v : View} (h : Inv node v) {a : Act} (hreads : Reads node (.act a))
    (hfresh : a = .check → v.worker.task.Takes v.worker.response → v.origin = v.jobs)
    {r : Worker × List (ℕ × CANopenFrame)} (hr : v.worker.step a = some r) :
    Inv node (v.act node a r) := by
  cases a with
  | job job client active =>
      obtain ⟨hidle, rfl⟩ := Worker.step_job.mp hr
      split
      · exact h.start hreads.1 hreads.2.1
      · rw [View.act_nil]
        exact ⟨h.honest, fun f hf => Nat.le_succ_of_le (h.jobs f hf),
          fun hne => absurd hidle hne, fun p hp => Task.noConfusion (hidle.symm.trans hp),
          fun p hp => (by
            rcases hp with hp | hp <;> exact Task.noConfusion (hidle.symm.trans hp)),
          fun hdone => Task.noConfusion (hidle.symm.trans hdone)⟩
  | send =>
      obtain ⟨p, htask, rfl⟩ := Worker.step_send.mp hr
      exact h.sent htask rfl rfl rfl rfl rfl
  | take =>
      obtain ⟨p, htask, -, rfl⟩ := Worker.step_take.mp hr
      rw [View.act_nil]
      refine h.task rfl (fun _ => h.txid (by rw [htask]; exact Task.noConfusion))
        (fun q hq => (by cases hq)) (fun q hq => ?_) fun hdone => (by cases hdone)
      obtain rfl : p = q := by
        rcases hq with hq | hq
        · cases hq
        · exact Task.check.inj hq
      exact (h.asked p (.inl htask)).lose (w := { v.worker with
        notified := 0, task := .check p }) rfl rfl rfl (List.Sublist.refl _)
  | timeout =>
      obtain ⟨p, htask, -, rfl⟩ := Worker.step_timeout.mp hr
      exact h.expired htask
  | check =>
      obtain ⟨p, htask, rfl⟩ := Worker.step_check.mp hr
      exact h.checked htask (hfresh rfl)
  | complete =>
      obtain ⟨result, htask, rfl⟩ := Worker.step_complete.mp hr
      rw [View.act_nil]
      exact h.task rfl (fun hne => absurd rfl hne) (fun q hq => (by cases hq))
        (fun q hq => (by rcases hq with hq | hq <;> cases hq)) fun hdone => (by cases hdone)

/-- **A step** that takes no stale segment. -/
theorem Inv.step {n n' : Net} {e : Event} (h : Inv node (n.view node)) (hreads : Reads node e)
    (hfresh : ¬ Stale n e) (hstep : n.step node e = some n') : Inv node (n'.view node) := by
  cases e with
  | serve =>
      rw [view_serve hstep]
      exact h
  | lose i =>
      obtain ⟨coming, hsub, hview⟩ := view_lose hstep
      rw [hview]
      exact h.lose hsub
  | deliver =>
      obtain ⟨f, coming, hcoming, hview⟩ := view_deliver hstep
      rw [hview]
      exact h.deliver hcoming
  | act a =>
      obtain ⟨r, hr, hview⟩ := view_act hstep
      rw [hview]
      refine h.act hreads (fun ha htakes => ?_) hr
      subst ha
      exact not_not.mp fun hne => hfresh ⟨hne, htakes⟩

/-- Nothing has happened yet. -/
theorem inv_new (node : Node) : Inv node (Net.new.view node) := by
  have hview : ∀ f ∈ ((Net.new.view node).origin, (Net.new.view node).worker.response) ::
      (Net.new.view node).coming, f = (0, load []) := by
    intro f hf
    exact List.mem_singleton.mp hf
  refine ⟨fun f hf => ?_, fun f hf => ?_, fun hne => absurd rfl hne, fun p hp => (by cases hp),
    fun p hp => (by rcases hp with hp | hp <;> cases hp), fun hdone => (by cases hdone)⟩
  · rw [hview f hf]
    exact honest_of_command (by decide)
  · rw [hview f hf]
    exact le_rfl

/-- **No foreign data**: in a run that takes no stale segment, a job that succeeds has the object
it asked for. -/
theorem reads_right {node : Node} {es : List Event} (hreads : ∀ e ∈ es, Reads node e)
    (hfresh : AlongSteps (fun n e n' => n.step node e = some n') (fun n e => ¬ Stale n e) .new es)
    {n : Net} (hn : es.foldlM (Net.step node) .new = some n) : Right node n.worker := by
  have hinv := (hfresh.and (alongSteps_of_forall fun e he _ => hreads e he)).invariant
    (I := fun n => Inv node (n.view node)) (R := fun _ _ => True) (fun _ => trivial)
    (fun _ _ _ _ _ => trivial) (fun m e m' hm he hstep => ⟨hm.step he.2 he.1 hstep, trivial⟩)
    (inv_new node) hn
  exact hinv.1.right

/-- A node with two objects of a byte each, which it answers in a segment. -/
def twoObjects : Node := .fixed 0x601 0x581 fun index _ =>
  if index = 0x2000 then some (.segmented true [[0xAA]] (by decide) (by decide))
  else if index = 0x3000 then some (.segmented true [[0xBB]] (by decide) (by decide))
  else none

/-- A job that reads one of them, with one try. -/
def readJob (index : UInt16) : CANopenJob :=
  ⟨.readSDO, 0x601, 0x581, 1, 0, ⟨1, index, 0, some [0], 1, 0, 0, 0⟩⟩

/-- A job that is taken, and whose first response does not come in time. -/
def lateJob (index : UInt16) : List Event :=
  [.act (.job (readJob index) true true), .act .send, .serve, .act .timeout, .serve,
    .act .complete]

/-- A job that is taken, and asks for its segment. -/
def jobToSegment (index : UInt16) : List Event :=
  [.act (.job (readJob index) true true), .act .send, .serve, .deliver, .act .take, .act .check,
    .act .send, .serve]

/-- Of two responses the second is taken. -/
def secondResponse : List Event := [.lose 0, .deliver, .act .take, .act .check]

theorem reads_lateJob (index : UInt16) : ∀ e ∈ lateJob index, Reads twoObjects e := by
  simp [lateJob, Reads, readJob, twoObjects, Node.fixed]

theorem reads_jobToSegment (index : UInt16) : ∀ e ∈ jobToSegment index, Reads twoObjects e := by
  simp [jobToSegment, Reads, readJob, twoObjects, Node.fixed]

theorem reads_secondResponse : ∀ e ∈ secondResponse, Reads twoObjects e := by
  simp [secondResponse, Reads]

/-- A late response is of the object that is asked for the second time; the segment is not late. -/
theorem reads_right_late :
    ∃ n, (lateJob 0x2000 ++ jobToSegment 0x2000 ++ secondResponse).foldlM (Net.step twoObjects)
        .new = some n ∧ Right twoObjects n.worker := by
  set es : List Event := lateJob 0x2000 ++ jobToSegment 0x2000 ++ secondResponse with hes
  have hreads : ∀ e ∈ es, Reads twoObjects e := by
    simp only [hes, List.forall_mem_append]
    exact ⟨⟨reads_lateJob _, reads_jobToSegment _⟩, reads_secondResponse⟩
  have hfresh : AlongSteps (fun n e n' => n.step twoObjects e = some n')
      (fun n e => ¬ Stale n e) .new es := by decide +kernel
  exact ⟨_, rfl, reads_right hreads hfresh rfl⟩

/-- Two first responses are late. A job takes one of them and asks for its segment, which is late;
the next job takes the other, and that segment for its own. -/
theorem not_reads_right :
    ¬ ∀ (node : Node) (es : List Event), (∀ e ∈ es, Reads node e) → ∀ n : Net,
      es.foldlM (Net.step node) .new = some n → Right node n.worker := by
  intro h
  set es : List Event := lateJob 0x2000 ++ lateJob 0x3000 ++ jobToSegment 0x2000 ++
    [.act .timeout, .serve, .act .complete] ++ jobToSegment 0x3000 ++ secondResponse with hes
  have hreads : ∀ e ∈ es, Reads twoObjects e := by
    have hend : ∀ e ∈ [Event.act .timeout, .serve, .act .complete], Reads twoObjects e := by
      simp [Reads]
    simp only [hes, List.forall_mem_append]
    exact ⟨⟨⟨⟨⟨reads_lateJob _, reads_lateJob _⟩, reads_jobToSegment _⟩, hend⟩,
      reads_jobToSegment _⟩, reads_secondResponse⟩
  obtain ⟨n, hn, htask, hindex, hbuf⟩ : ∃ n, es.foldlM (Net.step twoObjects) .new = some n ∧
      n.worker.task = .done .ok ∧ n.worker.job.sdo.index = 0x3000 ∧
      n.worker.job.sdo.buf = some [0xAA] := ⟨_, rfl, rfl, rfl, rfl⟩
  obtain ⟨object, rest, hobject, -, hholds⟩ := h twoObjects es hreads n hn htask
  rw [hindex] at hobject
  obtain rfl : object = [0xBB] := (Option.some.inj hobject).symm
  rw [hbuf] at hholds
  exact absurd hholds (by simp)

end Ovms.CanOpen