import Ovms.CanOpen.Copy

/-!
# Exact Transfers

What a job of a worker does against a node that answers in time
(`components/canopen/src/canopen_worker.cpp`). The node may answer an object in the response itself
or in segments of any lengths, and the buffer may end anywhere in them.

A job that reads needs a buffer: one of size 0 is refused before anything is sent. A job that
writes one of size 0 sends four bytes, and is not considered here.
-/

open Lib

namespace Ovms.CanOpen

variable {node : Node}

/-! ### Requests that are answered in time -/

/-- A request is sent, handled, and its response worked on. -/
def exchange : List Event := [.act .send, .serve, .deliver, .act .take, .act .check]

/-- A number of exchanges leads from one state to the other. -/
def Leads (node : Node) (n n' : Net) : Prop :=
  ∃ k, (List.replicate k exchange).flatten.foldlM (Net.step node) n = some n'

theorem Leads.head {n n₁ n' : Net} (h : exchange.foldlM (Net.step node) n = some n₁)
    (h' : Leads node n₁ n') : Leads node n n' := by
  obtain ⟨k, hk⟩ := h'
  refine ⟨k + 1, ?_⟩
  rw [List.replicate_succ, List.flatten_cons, List.foldlM_append, h, Option.bind_eq_bind,
    Option.bind_some, hk]

/-- A job is about to send a request, and nothing is left of earlier ones. -/
structure Asking (node : Node) (n : Net) (p : Point) (request : CANopenFrame) (sdo : Sdo)
    (server : Server) : Prop where
  type : n.worker.job.type ≠ .none
  txid : n.worker.job.txid = node.rxid
  rxid : n.worker.job.rxid = node.txid
  task : n.worker.task = .send p
  request : n.worker.request = request
  sdo : n.worker.job.sdo = sdo
  server : n.server = server
  notified : n.worker.notified = 0
  requests : n.requests = []
  responses : n.responses = []

/-- A job is about to be returned, and nothing is left of it but an abort. -/
structure Finished (n : Net) (result : CANopenResult) (sdo : Sdo) (server : Server) : Prop where
  task : n.worker.task = .done result
  sdo : n.worker.job.sdo = sdo
  server : n.server = server
  notified : n.worker.notified = 0
  requests : ∀ f ∈ n.requests, f.2.control = sdoAbort
  responses : n.responses = []

section Exchange

variable {n : Net} {p : Point} {request response : CANopenFrame} {sdo sdo' : Sdo}
  {server server' : Server}

/-- An exchange leads to what the job does with the response. -/
theorem Asking.exchange (h : Asking node n p request sdo server)
    (hserve : server.handle node request = (server', some response)) :
    ∃ w : Worker, w.job.type ≠ .none ∧ w.job.txid = node.rxid ∧ w.job.rxid = node.txid ∧
      w.request = request ∧ w.notified = 0 ∧
      CanOpen.exchange.foldlM (Net.step node) n =
        some {
          worker := (w.proceed (p.resume request response sdo)).1
          server := server'
          requests := (node.received (w.proceed (p.resume request response sdo)).2).map
            (Prod.mk n.jobs)
          responses := []
          jobs := n.jobs
          origin := n.jobs } := by
  obtain ⟨⟨⟨type, txid, rxid, maxtries, trycnt, job⟩, req, resp, notified, task⟩, server₀, requests,
    responses, jobs, origin⟩ := n
  obtain ⟨htype, htxid, hrxid, htask, hrequest, hsdo, hserver, hnotified, hrequests,
    hresponses⟩ := h
  dsimp only at htype htxid hrxid htask hrequest hsdo hserver hnotified hrequests hresponses
  subst htxid hrxid htask hrequest hsdo hserver hnotified hrequests hresponses
  refine ⟨⟨⟨type, node.rxid, node.txid, maxtries, trycnt + 1, job⟩, req, response, 0,
    .check p⟩, htype, rfl, rfl, rfl, rfl, ?_⟩
  simp [CanOpen.exchange, Net.step, Worker.step, Node.received, Act.count, hserve,
    Worker.incomingFrame, Worker.Awaits, htype, load_toList]

/-- The job goes on to its next request. -/
theorem Asking.goesOn (h : Asking node n p request sdo server)
    (hserve : server.handle node request = (server', some response)) {request' : CANopenFrame}
    {p' : Point} (hresume : p.resume request response sdo = (sdo', .execute request' p')) :
    ∃ n', CanOpen.exchange.foldlM (Net.step node) n = some n' ∧
      Asking node n' p' request' sdo' server' := by
  obtain ⟨w, htype, htxid, hrxid, -, hnotified, hrun⟩ := h.exchange hserve
  rw [hresume, Worker.proceed] at hrun
  exact ⟨_, hrun, htype, htxid, hrxid, rfl, rfl, rfl, rfl, hnotified, rfl, rfl⟩

/-- The job comes to its end. -/
theorem Asking.ends (h : Asking node n p request sdo server)
    (hserve : server.handle node request = (server', some response)) {result : CANopenResult}
    {abort : Option UInt32}
    (hresume : p.resume request response sdo = (sdo', .finish result abort)) :
    ∃ n', CanOpen.exchange.foldlM (Net.step node) n = some n' ∧
      Finished n' result sdo' server' := by
  obtain ⟨w, -, htxid, -, hrequest, hnotified, hrun⟩ := h.exchange hserve
  rw [hresume, Worker.proceed] at hrun
  refine ⟨_, hrun, rfl, rfl, rfl, hnotified, ?_, rfl⟩
  cases abort <;> simp [Node.received, htxid]

end Exchange

theorem leads_of_exchange {n n' : Net} (h : exchange.foldlM (Net.step node) n = some n') :
    Leads node n n' :=
  Leads.head h ⟨0, rfl⟩

/-! ### A job that reads -/

/-- What is reported of an object: whether the buffer holds it. -/
def reported (sdo : Sdo) (object : List UInt8) : CANopenResult :=
  if object.length ≤ sdo.bufsize.toNat then .ok else .bufferTooSmall

/-- A job has read an object as far as the buffer reaches. -/
def HasRead (n : Net) (sdo : Sdo) (mem object : List UInt8) : Prop :=
  ∃ contsize error server, Finished n (reported sdo object)
    { sdo.filled mem (object.take sdo.bufsize.toNat) with contsize := contsize, error := error }
    server

/-- A response that carries the last bytes, or more than fit. -/
theorem received_eq_finish (sdo : Sdo) (mem : List UInt8) (fits : Outcome)
    (abort : Option UInt32) {bytes object : List UInt8} ( hprefix : bytes <+: object)
    (hlast : bytes.length ≤ sdo.bufsize.toNat → bytes = object ∧ fits = .finish .ok none) :
    ∃ error abort', received sdo mem bytes fits abort =
      ({ sdo.filled mem (object.take sdo.bufsize.toNat) with error := error },
        .finish (reported sdo object) abort') := by
  obtain ⟨rest, rfl⟩ := hprefix
  rw [received, reported]
  by_cases h : bytes.length ≤ sdo.bufsize.toNat
  · obtain ⟨hbytes, rfl⟩ := hlast h
    rw [if_pos h, ← hbytes, if_pos h, List.take_of_length_le h]
    exact ⟨_, _, rfl⟩
  · have hlong : ¬ (bytes ++ rest).length ≤ sdo.bufsize.toNat := by
      rw [List.length_append]
      omega
    rw [if_neg h, if_neg hlong, List.take_append_of_le_length (by omega)]
    exact ⟨_, _, rfl⟩

/-- **Segments** one after the other, whatever their lengths. -/
theorem uploadSegments (sdo : Sdo) (mem : List UInt8) {segments : List (List UInt8)}
    (hne : segments ≠ []) (hle : ∀ data ∈ segments, data.length ≤ 7) {n : Net} {toggle : UInt8}
    (ht : Toggle toggle) (bytes : List UInt8) (hbytes : bytes.length ≤ sdo.bufsize.toNat)
    {server : Server} (hserver : server.transfer = .upload segments toggle)
    (h : Asking node n (.uploadSegment toggle) (seg (uploadSegmentRequest ||| toggle) [])
      (sdo.filled mem bytes) server) :
    ∃ n', Leads node n n' ∧ HasRead n' sdo mem (bytes ++ segments.flatten) := by
  induction segments generalizing n toggle bytes server with
  | nil => exact absurd rfl hne
  | cons data rest ih =>
      have hdata : data.length ≤ 7 := hle data List.mem_cons_self
      have hserve := handle_uploadSegment node ht hserver
      have hresume := segmentUploaded_segment ht mem hdata rest.isEmpty hbytes
      by_cases hgo : rest ≠ [] ∧ (bytes ++ data).length ≤ sdo.bufsize.toNat
      · -- all of the segment fits, and another one follows
        obtain ⟨hrest, hfits⟩ := hgo
        rw [received, if_pos hfits, if_neg (by simpa using hrest)] at hresume
        obtain ⟨n₁, hn₁, hasking⟩ := h.goesOn hserve hresume
        obtain ⟨n', hn', hread⟩ := ih hrest (fun d hd => hle d (List.mem_cons_of_mem _ hd)) ht.flip
          _ hfits (by dsimp only; rw [Server.behind, if_neg hrest]) hasking
        refine ⟨n', Leads.head hn₁ hn', ?_⟩
        rwa [List.flatten_cons, ← List.append_assoc]
      · -- the last segment, or one that does not fit
        obtain ⟨error, abort, hfinish⟩ := received_eq_finish sdo mem
          (if rest.isEmpty then .finish .ok none
            else .execute (seg (uploadSegmentRequest ||| flip toggle) [])
              (.uploadSegment (flip toggle)))
          (if rest.isEmpty then none else some abortOutOfMemory)
          (show bytes ++ data <+: bytes ++ (data :: rest).flatten by
            rw [List.flatten_cons, ← List.append_assoc]
            exact List.prefix_append _ _)
          (fun hfits => by
            obtain rfl : rest = [] := not_not.mp fun hrest => hgo ⟨hrest, hfits⟩
            simp)
        rw [hfinish] at hresume
        obtain ⟨n', hn', hfinished⟩ := h.ends hserve hresume
        exact ⟨n', leads_of_exchange hn', sdo.contsize, error, _, hfinished⟩

/-- **An object** is read, however the server answers. -/
theorem uploadObject {sdo : Sdo} {mem object : List UInt8} {n : Net} {server : Server}
    (hobject : node.content sdo.index sdo.subindex = some object)
    (h : Asking node n .initUpload (exp initUploadRequest sdo.index sdo.subindex [])
      (sdo.filled mem []) server) :
    ∃ n', Leads node n n' ∧ HasRead n' sdo mem object := by
  obtain ⟨upload, rfl, hserve⟩ := handle_initUpload hobject server
  cases upload with
  | expedited sized data hpos hle hunsized =>
      have hresume := initUploaded_expedited sdo.index sdo.subindex hpos hle hunsized sdo mem
      obtain ⟨error, abort, hfinish⟩ := received_eq_finish
        { sdo with contsize := data.length } mem (.finish .ok none) none (List.prefix_refl data)
        fun _ => ⟨rfl, rfl⟩
      rw [hfinish] at hresume
      obtain ⟨n', hn', hfinished⟩ := h.ends hserve hresume
      exact ⟨n', leads_of_exchange hn', data.length, error, _, hfinished⟩
  | segmented indicated segments hne hle =>
      obtain ⟨contsize, hresume⟩ := initUploaded_segmented sdo.index sdo.subindex
        (if indicated then some segments.flatten.length else none) (sdo.filled mem [])
      obtain ⟨n₁, hn₁, hasking⟩ := h.goesOn hserve hresume
      obtain ⟨n', hn', contsize', error, server', hfinished⟩ := uploadSegments
        { sdo with contsize := contsize } mem hne hle toggle_zero [] (Nat.zero_le _) rfl hasking
      exact ⟨n', Leads.head hn₁ hn', contsize', error, server', hfinished⟩

/-! ### A job that writes -/

/-- A job has written its buffer, and the server has received it. -/
def HasWritten (n : Net) (sdo : Sdo) (mem : List UInt8)
    (written : List (UInt16 × UInt8 × List UInt8)) : Prop :=
  ∃ server : Server,
    Finished n .ok { sdo with xfersize := sdo.bufsize.toNat } server ∧
      server.written = written ++ [(sdo.index, sdo.subindex, mem.take sdo.bufsize.toNat)]

/-- **Segments** that are sent, until the buffer is. -/
theorem downloadSegments {sdo : Sdo} {mem : List UInt8} (hbuf : sdo.buf = some mem)
    (hsize : sdo.bufsize.toNat ≤ mem.length) (left x : ℕ) {n : Net} {toggle : UInt8}
    (ht : Toggle toggle) {server : Server}
    (hx : x < sdo.bufsize.toNat) (hleft : sdo.bufsize.toNat ≤ x + left)
    (hserver : server.transfer = .download sdo.index sdo.subindex (some sdo.bufsize.toNat)
      ((mem.take sdo.bufsize.toNat).take x) toggle) {sdo' : Sdo} {request : CANopenFrame}
    (hsent : downloadSegment toggle { sdo with xfersize := x } =
      (sdo', .execute request (.downloadSegment toggle)))
    (h : Asking node n (.downloadSegment toggle) request sdo' server) :
    ∃ n', Leads node n n' ∧ HasWritten n' sdo mem server.written := by
  induction left generalizing x n toggle server sdo' request with
  | zero => exact absurd hleft (by omega)
  | succ left ih =>
      have hsegment := downloadSegment_sent toggle
        (show ({ sdo with xfersize := x } : Sdo).buf = some mem from hbuf) hsize
      rw [hsegment] at hsent
      dsimp only at hsent
      set content := mem.take sdo.bufsize.toNat
      set data := (content.drop x).take 7
      obtain ⟨hsdo, hrequest⟩ := Prod.mk.inj hsent
      obtain ⟨hrequest, -⟩ := Outcome.execute.inj hrequest
      subst hsdo hrequest
      have hcontent : content.length = sdo.bufsize.toNat := by
        rw [List.length_take, Nat.min_eq_left hsize]
      have hlength : data.length = min 7 (sdo.bufsize.toNat - x) := by
        rw [List.length_take, List.length_drop, hcontent]
      have hbytes : content.take x ++ data = content.take (x + 7) := List.take_add.symm
      by_cases hlast : sdo.bufsize.toNat ≤ x + 7
      · -- the last segment
        have hend : x + data.length = sdo.bufsize.toNat := by omega
        have hall : content.take (x + 7) = content :=
          List.take_of_length_le (by rw [hcontent]; exact hlast)
        rw [decide_eq_true hend] at h
        have hserve := handle_downloadSegment node ht hserver data (by omega)
          true fun _ => by simp [hbytes, hall, hcontent]
        rw [if_pos rfl, hbytes, hall] at hserve
        obtain ⟨n', hn', hfinished⟩ := h.ends hserve
          ((segmentDownloaded_answer ht (by omega) true _).trans (if_pos rfl))
        rw [hend] at hfinished
        exact ⟨n', leads_of_exchange hn', _, hfinished, rfl⟩
      · -- another one follows
        have hmore : ¬ x + data.length = sdo.bufsize.toNat := by omega
        have hseven : data.length = 7 := by omega
        rw [decide_eq_false hmore] at h
        have hserve := handle_downloadSegment node ht hserver data (by omega)
          false fun h => Bool.noConfusion h
        rw [if_neg Bool.false_ne_true, hbytes] at hserve
        have hnext := downloadSegment_sent (flip toggle)
          (show ({ sdo with xfersize := x + 7 } : Sdo).buf = some mem from hbuf) hsize
        have hresume := (segmentDownloaded_answer ht (show data.length ≤ 7 by omega) false
          { sdo with xfersize := x + data.length }).trans (if_neg Bool.false_ne_true)
        rw [hseven] at hresume h
        obtain ⟨n₁, hn₁, hasking⟩ := h.goesOn hserve (hresume.trans hnext)
        obtain ⟨n', hn', hwritten⟩ := ih (x + 7) ht.flip (by omega) (by omega) rfl hnext hasking
        exact ⟨n', Leads.head hn₁ hn', hwritten⟩

/-- The request to download a buffer that is not empty. -/
def downloadRequest (sdo : Sdo) (mem : List UInt8) : CANopenFrame :=
  if sdo.bufsize.toNat ≤ 4 then
    exp (initDownloadRequest ||| expedited ||| sizeIndicated |||
        (UInt8.ofNat (4 - (mem.take sdo.bufsize.toNat).length) <<< 2))
      sdo.index sdo.subindex (mem.take sdo.bufsize.toNat)
  else exp (initDownloadRequest ||| sizeIndicated) sdo.index sdo.subindex (le32 sdo.bufsize)

/-- **A buffer** is written, whatever its size. -/
theorem downloadObject {sdo : Sdo} {mem : List UInt8} (hbuf : sdo.buf = some mem)
    (hsize : sdo.bufsize.toNat ≤ mem.length) (hpos : 1 ≤ sdo.bufsize.toNat) {n : Net}
    {server : Server}
    (h : Asking node n .initDownload (downloadRequest sdo mem) { sdo with xfersize := 0 } server) :
    ∃ n', Leads node n n' ∧ HasWritten n' sdo mem server.written := by
  have hlength : (mem.take sdo.bufsize.toNat).length = sdo.bufsize.toNat := by
    rw [List.length_take, Nat.min_eq_left hsize]
  rw [downloadRequest] at h
  by_cases hfour : sdo.bufsize.toNat ≤ 4
  · rw [if_pos hfour] at h
    obtain ⟨hexpedited, hserve⟩ := handle_initDownload_expedited node sdo.index
      sdo.subindex (mem.take sdo.bufsize.toNat) (by omega) (by omega) server
    rw [control_exp] at hexpedited
    obtain ⟨n', hn', hfinished⟩ := h.ends hserve
      ((initDownloaded_answer _ _ _ _ _).trans (if_pos hexpedited))
    exact ⟨n', leads_of_exchange hn', _, hfinished, rfl⟩
  · rw [if_neg hfour] at h
    obtain ⟨hexpedited, hserve⟩ := handle_initDownload_segmented node sdo.index
      sdo.subindex sdo.bufsize server
    rw [control_exp] at hexpedited
    have hnext := downloadSegment_sent 0
      (show ({ sdo with xfersize := 0 } : Sdo).buf = some mem from hbuf) hsize
    have hresume := (initDownloaded_answer (initDownloadRequest ||| sizeIndicated) sdo.index
      sdo.subindex (le32 sdo.bufsize) { sdo with xfersize := 0 }).trans
        (if_neg (not_not.mpr hexpedited))
    obtain ⟨n₁, hn₁, hasking⟩ := h.goesOn hserve (hresume.trans hnext)
    obtain ⟨n', hn', hwritten⟩ := downloadSegments hbuf hsize sdo.bufsize.toNat 0 toggle_zero hpos
      (by omega) (by rw [List.take_zero]) hnext hasking
    exact ⟨n', Leads.head hn₁ hn', hwritten⟩

/-! ### Whole jobs -/

/-- Nothing is going on. -/
structure Quiet (n : Net) : Prop where
  task : n.worker.task = .idle
  notified : n.worker.notified = 0
  requests : n.requests = []
  responses : n.responses = []

/-- A job for a node, with a buffer in memory. -/
structure Issued (node : Node) (job : CANopenJob) (mem : List UInt8) : Prop where
  txid : job.txid = node.rxid
  rxid : job.rxid = node.txid
  nodeid : 1 ≤ job.sdo.nodeid ∧ job.sdo.nodeid ≤ 127
  buf : job.sdo.buf = some mem
  bufsize : job.sdo.bufsize.toNat ≤ mem.length

/-- A job is taken, and its requests are answered. -/
def Completes (node : Node) (n : Net) (job : CANopenJob) (n' : Net) : Prop :=
  ∃ n₁, n.step node (.act (.job job true true)) = some n₁ ∧ Leads node n₁ n'

/-- When the job is returned, and the server has handled what is left, nothing is going on. -/
def Settles (node : Node) (n : Net) : Prop :=
  ∃ n', (.act .complete :: List.replicate n.requests.length .serve).foldlM (Net.step node) n =
    some n' ∧ Quiet n'

/-- A job reads an object exactly: it comes to its end, tells whether the object fits, and has as
much of it in its buffer as does, zeros behind it, and nothing changed behind the buffer. -/
def ReadsExactly (node : Node) (n : Net) (job : CANopenJob) (mem object : List UInt8) : Prop :=
  ∃ n', Completes node n job n' ∧
    n'.worker.task = .done (if object.length ≤ job.sdo.bufsize.toNat then .ok
      else .bufferTooSmall) ∧
    n'.worker.job.sdo.buf = some (object.take job.sdo.bufsize.toNat ++
      List.replicate (job.sdo.bufsize.toNat - object.length) 0 ++
      mem.drop job.sdo.bufsize.toNat) ∧
    n'.worker.job.sdo.xfersize = min object.length job.sdo.bufsize.toNat ∧ Settles node n'

/-- A job writes its buffer exactly: it comes to its end, and the server has received the buffer,
once, as the object. -/
def WritesExactly (node : Node) (n : Net) (job : CANopenJob) (mem : List UInt8) : Prop :=
  ∃ n', Completes node n job n' ∧ n'.worker.task = .done .ok ∧
    n'.worker.job.sdo.xfersize = job.sdo.bufsize.toNat ∧
    n'.server.written = n.server.written ++
      [(job.sdo.index, job.sdo.subindex, mem.take job.sdo.bufsize.toNat)] ∧ Settles node n'

/-- Aborts are handled without an answer. -/
theorem serve_aborts {n : Net} {requests : List (ℕ × CANopenFrame)}
    (hrequests : n.requests = requests) (haborts : ∀ f ∈ requests, f.2.control = sdoAbort) :
    ∃ server, (List.replicate requests.length Event.serve).foldlM (Net.step node) n =
      some { n with server := server, requests := [] } := by
  induction requests generalizing n with
  | nil =>
      cases n
      cases hrequests
      exact ⟨_, rfl⟩
  | cons f requests ih =>
      have hserve := handle_abort node (haborts f List.mem_cons_self) n.server
      have hstep : n.step node .serve = some { n with
          server := { n.server with transfer := .idle }, requests := requests } := by
        rw [Net.step, hrequests]
        dsimp only
        rw [hserve]
        simp
      obtain ⟨server, hrun⟩ := ih
        (n := { n with server := { n.server with transfer := .idle }, requests := requests }) rfl
        fun g hg => haborts g (List.mem_cons_of_mem _ hg)
      refine ⟨server, ?_⟩
      rw [List.length_cons, List.replicate_succ, List.foldlM_cons, hstep, Option.bind_eq_bind,
        Option.bind_some, hrun]

/-- Behind a job nothing is left. -/
theorem Finished.settles {n : Net} {result : CANopenResult} {sdo : Sdo} {server : Server}
    (h : Finished n result sdo server) : Settles node n := by
  set n₁ : Net := { n with
    worker := { n.worker with job := { n.worker.job with type := .none }, task := .idle } }
  have hstep : n.step node (.act .complete) = some n₁ := by
    rw [Net.step, Worker.step, h.task]
    simp [Node.received, Act.count, n₁]
  obtain ⟨server', hrun⟩ := @serve_aborts node n₁ n.requests rfl h.requests
  refine ⟨{ n₁ with server := server', requests := [] }, ?_, rfl, h.notified, rfl, h.responses⟩
  rw [List.foldlM_cons, hstep, Option.bind_eq_bind, Option.bind_some]
  exact hrun

section Job

variable {n : Net} {job : CANopenJob} {mem : List UInt8}

/-- A job whose parameters are right asks for its first response. -/
theorem Quiet.asking (hquiet : Quiet n) (hissued : Issued node job mem)
    (htype : job.type ≠ .none) {sdo : Sdo} {request : CANopenFrame} {p : Point}
    (hstart : ∀ w : Worker, w.job = job → w.start true = w.proceed (sdo, .execute request p)) :
    ∃ n₁, n.step node (.act (.job job true true)) = some n₁ ∧
      Asking node n₁ p request sdo n.server := by
  set w : Worker := { n.worker with job := job }
  have hstep : n.step node (.act (.job job true true)) =
      some { n with
        worker := (w.proceed (sdo, .execute request p)).1
        requests := n.requests ++ []
        jobs := n.jobs + 1 } := by
    rw [Net.step, Worker.step, if_pos hquiet.task, if_pos rfl, hstart w rfl]
    rfl
  exact ⟨_, hstep, htype, hissued.txid, hissued.rxid, rfl, rfl, rfl, rfl, hquiet.notified,
    by rw [hquiet.requests]; rfl, hquiet.responses⟩

theorem Issued.not_paramRange (hissued : Issued node job mem) :
    ¬ (job.sdo.nodeid < 1 ∨ job.sdo.nodeid > 127) := by
  rintro (h | h)
  · exact UInt8.not_lt.mpr hissued.nodeid.1 h
  · exact UInt8.not_lt.mpr hissued.nodeid.2 h

/-- **A job that reads** reads an object exactly. -/
theorem readsExactly (hquiet : Quiet n) (hissued : Issued node job mem)
    (htype : job.type = .readSDO) (hsize : 1 ≤ job.sdo.bufsize.toNat) {object : List UInt8}
    (hobject : node.content job.sdo.index job.sdo.subindex = some object) :
    ReadsExactly node n job mem object := by
  have hne : job.sdo.bufsize ≠ 0 := fun h => by rw [h] at hsize; exact absurd hsize (by decide)
  have hstart : processReadSDOJob true job.sdo = (job.sdo.filled mem [],
      .execute (exp initUploadRequest job.sdo.index job.sdo.subindex []) .initUpload) := by
    rw [processReadSDOJob, if_neg (by decide), if_neg hissued.not_paramRange, hissued.buf]
    dsimp only
    rw [if_neg hne]
    rfl
  obtain ⟨n₁, hn₁, hasking⟩ := hquiet.asking hissued (by rw [htype]; decide)
    (fun w hw => by rw [Worker.start, hw, htype, hstart])
  obtain ⟨n', hn', contsize, error, server, hfinished⟩ := uploadObject hobject hasking
  refine ⟨n', ⟨n₁, hn₁, hn'⟩, hfinished.task, ?_, ?_, hfinished.settles⟩
  · rw [hfinished.sdo, Sdo.filled, List.length_take]
    dsimp only
    congr 4
    omega
  · rw [hfinished.sdo, Sdo.filled, List.length_take, Nat.min_comm]

/-- **A job that writes** writes its buffer exactly. -/
theorem writesExactly (hquiet : Quiet n) (hissued : Issued node job mem)
    (htype : job.type = .writeSDO) (hsize : 1 ≤ job.sdo.bufsize.toNat) :
    WritesExactly node n job mem := by
  have hne : job.sdo.bufsize ≠ 0 := fun h => by rw [h] at hsize; exact absurd hsize (by decide)
  have hstart : processWriteSDOJob true job.sdo =
      ({ job.sdo with xfersize := 0 }, .execute (downloadRequest job.sdo mem) .initDownload) := by
    have hdata : (List.range job.sdo.bufsize.toNat).map job.sdo.memory =
        mem.take job.sdo.bufsize.toNat := by
      simpa only [Nat.zero_add, List.drop_zero] using
        map_memory hissued.buf 0 (Or.inr (by simpa using hissued.bufsize))
    have hlength : (mem.take job.sdo.bufsize.toNat).length = job.sdo.bufsize.toNat := by
      rw [List.length_take, Nat.min_eq_left hissued.bufsize]
    rw [processWriteSDOJob, if_neg (by decide), if_neg hissued.not_paramRange,
      if_neg (by rw [hissued.buf]; exact Option.some_ne_none mem), if_neg hne, hdata,
      downloadRequest, hlength]
    exact congrArg (fun request => (_, Outcome.execute request _))
      (if_congr (UInt32.le_iff_toNat_le (b := 4)) rfl rfl)
  obtain ⟨n₁, hn₁, hasking⟩ := hquiet.asking hissued (by rw [htype]; decide)
    (fun w hw => by rw [Worker.start, hw, htype, hstart])
  obtain ⟨n', hn', server, hfinished, hwritten⟩ := downloadObject hissued.buf hissued.bufsize
    hsize hasking
  refine ⟨n', ⟨n₁, hn₁, hn'⟩, hfinished.task, ?_, ?_, hfinished.settles⟩
  · rw [hfinished.sdo]
  · rw [hfinished.server, hwritten]

end Job

/-- **A transfer is exact**: whatever the length of the object and of the buffer, and however the
server cuts it. -/
theorem transfers_exact {node : Node} {n : Net} {job : CANopenJob} {mem : List UInt8}
    (hquiet : Quiet n) (hissued : Issued node job mem) (hsize : 1 ≤ job.sdo.bufsize.toNat) :
    (∀ object, job.type = .readSDO →
        node.content job.sdo.index job.sdo.subindex = some object →
        ReadsExactly node n job mem object) ∧
      (job.type = .writeSDO → WritesExactly node n job mem) :=
  ⟨fun _ htype hobject => readsExactly hquiet hissued htype hsize hobject,
    fun htype => writesExactly hquiet hissued htype hsize⟩

/-- An object of ten bytes, in two segments, is read to a buffer of eight. -/
theorem transfers_exact_segmented :
    ReadsExactly
      (.fixed 0x601 0x581 fun _ _ => some
        (.segmented true [[1, 2, 3], [4, 5, 6, 7, 8, 9, 10]] (by decide) (by decide)))
      .new ⟨.readSDO, 0x601, 0x581, 3, 0, ⟨1, 0x1008, 0, some (List.replicate 8 0xFF), 8, 0, 0, 0⟩⟩
      (List.replicate 8 0xFF) [1, 2, 3, 4, 5, 6, 7, 8, 9, 10] :=
  (transfers_exact ⟨rfl, rfl, rfl, rfl⟩ ⟨rfl, rfl, ⟨by decide, by decide⟩, rfl, by decide⟩
    (by decide)).1 _ rfl rfl

/-- Behind the end of a job no request is answered. -/
theorem Leads.eq_of_done {n n' : Net} {result : CANopenResult} (h : Leads node n n')
    (hdone : n.worker.task = .done result) : n' = n := by
  obtain ⟨k, hk⟩ := h
  cases k with
  | zero => exact (Option.some.inj hk).symm
  | succ k =>
      rw [List.replicate_succ, List.flatten_cons, exchange, List.cons_append, List.foldlM_cons,
        Net.step, Worker.step, hdone] at hk
      exact absurd hk (by simp)

/-- A buffer of size 0 is not told to be too small: the job is refused. -/
theorem not_transfers_exact :
    ¬ ∀ (node : Node) (n : Net) (job : CANopenJob) (mem : List UInt8), Quiet n →
      Issued node job mem →
        (∀ object, job.type = .readSDO →
            node.content job.sdo.index job.sdo.subindex = some object →
            ReadsExactly node n job mem object) ∧
          (job.type = .writeSDO → 1 ≤ job.sdo.bufsize.toNat → WritesExactly node n job mem) := by
  intro h
  obtain ⟨n', ⟨n₁, hn₁, hn'⟩, htask, -⟩ :=
    (h (.fixed 0x601 0x581 fun _ _ => some (.segmented true [[7]] (by decide) (by decide))) .new
      ⟨.readSDO, 0x601, 0x581, 3, 0, ⟨1, 0x1008, 0, some [], 0, 0, 0, 0⟩⟩ [] ⟨rfl, rfl, rfl, rfl⟩
      ⟨rfl, rfl, ⟨by decide, by decide⟩, rfl, by decide⟩).1 [7] rfl rfl
  obtain rfl := Option.some.inj hn₁
  rw [hn'.eq_of_done rfl] at htask
  exact absurd htask (by decide)

end Ovms.CanOpen
