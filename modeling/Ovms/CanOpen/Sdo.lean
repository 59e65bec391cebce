import Mathlib.Data.Vector.Basic

/-!
# SDO Jobs

The job task of `CANopenWorker` (`components/canopen/src/canopen_worker.cpp`) with the jobs that
read and write an SDO. A job sends a request and waits for the frame that `IncomingFrame` puts
into `m_response`; the task is told of it by its notification count, which is cleared when the
task looks. After a timeout an abort is sent, and the request again, up to a number of tries.

`Worker.step` is the worker between two points where a frame can come in: the job is taken, the
request sent, the count looked at or its timeout met, the response worked on, the job returned.
The memory a buffer points to is a list, of which `bufsize` bytes are the buffer. The jobs of
network management, which wait for other frames, and the statistics are left out.
-/

namespace Ovms.CanOpen

/-! ### Frames -/

/-- `CANopenFrame_t`, as `byte`. -/
abbrev CANopenFrame := Vector UInt8 8

/-- `SDO_CommandMask`. -/
def commandMask : UInt8 := 0b11100000

/-- `SDO_ExpeditedSizeMask`. -/
def expeditedSizeMask : UInt8 := 0b00001100

/-- `SDO_Expedited`. -/
def expedited : UInt8 := 0b00000010

/-- `SDO_SizeIndicated`. -/
def sizeIndicated : UInt8 := 0b00000001

/-- `SDO_Abort`. -/
def sdoAbort : UInt8 := 0b10000000

/-- `SDO_InitUploadRequest`. -/
def initUploadRequest : UInt8 := 0b01000000

/-- `SDO_InitUploadResponse`. -/
def initUploadResponse : UInt8 := 0b01000000

/-- `SDO_UploadSegmentRequest`. -/
def uploadSegmentRequest : UInt8 := 0b01100000

/-- `SDO_UploadSegmentResponse`. -/
def uploadSegmentResponse : UInt8 := 0b00000000

/-- `SDO_InitDownloadRequest`. -/
def initDownloadRequest : UInt8 := 0b00100000

/-- `SDO_InitDownloadResponse`. -/
def initDownloadResponse : UInt8 := 0b01100000

/-- `SDO_DownloadSegmentRequest`. -/
def downloadSegmentRequest : UInt8 := 0b00000000

/-- `SDO_DownloadSegmentResponse`. -/
def downloadSegmentResponse : UInt8 := 0b00100000

/-- `SDO_SegmentToggle`. -/
def segmentToggle : UInt8 := 0b00010000

/-- `SDO_SegmentUnusedMask`. -/
def segmentUnusedMask : UInt8 := 0b00001110

/-- `SDO_SegmentEnd`. -/
def segmentEnd : UInt8 := 0b00000001

/-- `SDO_Abort_SegMismatch`. -/
def abortSegMismatch : UInt32 := 0x05030000

/-- `SDO_Abort_Timeout`. -/
def abortTimeout : UInt32 := 0x05040000

/-- `SDO_Abort_OutOfMemory`. -/
def abortOutOfMemory : UInt32 := 0x05040005

/-- `CANopen_BusCollision`. -/
def busCollision : UInt32 := 0xffffffff

/-- A frame with these bytes, and zeros behind them. -/
def load (bytes : List UInt8) : CANopenFrame := Vector.ofFn fun i => bytes.getD i 0

/-- The four bytes of a number, little endian. -/
def le32 (n : UInt32) : List UInt8 :=
  [UInt8.ofNat n.toNat, UInt8.ofNat (n.toNat / 256), UInt8.ofNat (n.toNat / 65536),
    UInt8.ofNat (n.toNat / 16777216)]

namespace CANopenFrame

/-- `exp.control`, `seg.control` and `ctl.control`. -/
def control (f : CANopenFrame) : UInt8 := f[0]

/-- `exp.index`, little endian. -/
def index (f : CANopenFrame) : UInt16 := UInt16.ofNat (f[1].toNat + 256 * f[2].toNat)

/-- `exp.subindex`. -/
def subindex (f : CANopenFrame) : UInt8 := f[3]

/-- `ctl.data`, little endian. -/
def data (f : CANopenFrame) : UInt32 :=
  UInt32.ofNat (f[4].toNat + 256 * f[5].toNat + 65536 * f[6].toNat + 16777216 * f[7].toNat)

/-- A byte of the frame. -/
def byte (f : CANopenFrame) (n : ℕ) : UInt8 := f[n]?.getD 0

/-- The frame has index and subindex of the other. -/
def Addresses (f g : CANopenFrame) : Prop := f.index = g.index ∧ f.subindex = g.subindex

instance (f g : CANopenFrame) : Decidable (f.Addresses g) := inferInstanceAs (Decidable (_ ∧ _))

end CANopenFrame

/-- A frame through `exp`. -/
def exp (control : UInt8) (index : UInt16) (subindex : UInt8) (data : List UInt8) :
    CANopenFrame :=
  load ([control, UInt8.ofNat index.toNat, UInt8.ofNat (index.toNat / 256), subindex] ++ data)

/-- A frame through `seg`. -/
def seg (control : UInt8) (data : List UInt8) : CANopenFrame := load (control :: data)

/-- What `AbortSDORequest` sends: the request with another control byte and the reason as data. -/
def abortFrame (request : CANopenFrame) (reason : UInt32) : CANopenFrame :=
  load ([sdoAbort, request.byte 1, request.byte 2, request.byte 3] ++ le32 reason)

/-! ### What the views of a frame see -/

theorem byte_load {n : ℕ} (bytes : List UInt8) (h : n < 8) :
    (load bytes).byte n = bytes.getD n 0 := by
  simp [load, CANopenFrame.byte, h]

theorem load_toList (f : CANopenFrame) : load f.toList = f := by
  ext i
  simp [load]

@[simp] theorem control_load (control : UInt8) (bytes : List UInt8) :
    (load (control :: bytes)).control = control := by
  simp [load, CANopenFrame.control]

@[simp] theorem control_exp (control : UInt8) (index : UInt16) (subindex : UInt8)
    (data : List UInt8) : (exp control index subindex data).control = control := by
  simp [exp]

@[simp] theorem control_seg (control : UInt8) (data : List UInt8) :
    (seg control data).control = control := by
  simp [seg]

@[simp] theorem control_abortFrame (request : CANopenFrame) (reason : UInt32) :
    (abortFrame request reason).control = sdoAbort := by
  simp [abortFrame]

@[simp] theorem index_exp (control : UInt8) (index : UInt16) (subindex : UInt8)
    (data : List UInt8) : (exp control index subindex data).index = index := by
  have h := index.toNat_lt
  have hsum : index.toNat % 256 + 256 * (index.toNat / 256 % 256) = index.toNat := by omega
  simp [exp, load, CANopenFrame.index, -UInt16.ofNat_add, -UInt16.ofNat_mul, hsum]

@[simp] theorem subindex_exp (control : UInt8) (index : UInt16) (subindex : UInt8)
    (data : List UInt8) : (exp control index subindex data).subindex = subindex := by
  simp [exp, load, CANopenFrame.subindex]

@[simp] theorem data_exp_le32 (control : UInt8) (index : UInt16) (subindex : UInt8)
    (n : UInt32) : (exp control index subindex (le32 n)).data = n := by
  have h := n.toNat_lt
  have hsum : n.toNat % 256 + 256 * (n.toNat / 256 % 256) + 65536 * (n.toNat / 65536 % 256) +
      16777216 * (n.toNat / 16777216 % 256) = n.toNat := by omega
  simp [exp, load, le32, CANopenFrame.data, -UInt32.ofNat_add, -UInt32.ofNat_mul, hsum]

/-! ### The members -/

/-- `CANopenResult_t`. -/
inductive CANopenResult
  | ok
  | wait
  | unknownJobType
  | queueFull
  | queueEmpty
  | noCANWrite
  | paramRange
  | bufferTooSmall
  | timeout
  | sdoAccess
  | sdoSegMismatch
  deriving DecidableEq

/-- `CANopenJob_t`, of which the jobs of network management are left out. -/
inductive JobType
  | none
  | readSDO
  | writeSDO
  deriving DecidableEq

/-- `sdo` of a job, with the memory that `buf` points to, or `none` for `NULL`. -/
structure Sdo where
  nodeid : UInt8
  index : UInt16
  subindex : UInt8
  buf : Option (List UInt8)
  bufsize : UInt32
  xfersize : ℕ
  contsize : ℕ
  error : UInt32
  deriving DecidableEq

/-- `CANopenJob`. -/
structure CANopenJob where
  type : JobType
  txid : ℕ
  rxid : ℕ
  maxtries : ℕ
  trycnt : ℕ
  sdo : Sdo
  deriving DecidableEq

/-- Which request a job waits for the response of. -/
inductive Point
  | initUpload
  | uploadSegment (toggle : UInt8)
  | initDownload
  | downloadSegment (toggle : UInt8)
  deriving DecidableEq

/-- How a job goes on: with the next `ExecuteSDORequest`, or to its end, with an abort sent
before. -/
inductive Outcome
  | execute (request : CANopenFrame) (p : Point)
  | finish (result : CANopenResult) (abort : Option UInt32)
  deriving DecidableEq

/-! ### Jobs that read -/

/-- `ProcessReadSDOJob` up to its first request. -/
def processReadSDOJob (active : Bool) (sdo : Sdo) : Sdo × Outcome :=
  if !active then (sdo, .finish .noCANWrite none)
  else if sdo.nodeid < 1 ∨ sdo.nodeid > 127 then (sdo, .finish .paramRange none)
  else
    match sdo.buf with
    | none => (sdo, .finish .paramRange none)
    | some mem =>
        if sdo.bufsize = 0 then (sdo, .finish .paramRange none)
        else
          ({ sdo with
              buf := some (List.replicate sdo.bufsize.toNat 0 ++ mem.drop sdo.bufsize.toNat)
              xfersize := 0 },
            .execute (exp initUploadRequest sdo.index sdo.subindex []) .initUpload)

/-- `*buf++ = byte` together with `xfersize++`. -/
def Sdo.store (sdo : Sdo) (byte : UInt8) : Sdo :=
  { sdo with
    buf := sdo.buf.map fun mem => mem.set sdo.xfersize byte
    xfersize := sdo.xfersize + 1 }

/-- The loop that copies bytes of a response from `n` on, `left` of them. The value of `n` behind
it is answered too. -/
def copyLoop (response : CANopenFrame) : (left n : ℕ) → Sdo → ℕ × Sdo
  | 0, n, sdo => (n, sdo)
  | left + 1, n, sdo =>
      if sdo.xfersize < sdo.bufsize.toNat then
        copyLoop response left (n + 1) (sdo.store (response.byte n))
      else (n, sdo)

/-- The response to a request to start a transfer is not the one to it. -/
def refused (response : CANopenFrame) (sdo : Sdo) : Sdo × Outcome :=
  ({ sdo with
      error := if response.control &&& commandMask = sdoAbort then response.data
        else busCollision },
    .finish .sdoAccess none)

/-- `ProcessReadSDOJob` behind its first request. -/
def initUploaded (request response : CANopenFrame) (sdo : Sdo) : Sdo × Outcome :=
  if response.control &&& commandMask = initUploadResponse ∧ response.Addresses request then
    if response.control &&& expedited ≠ 0 then
      let unused := ((response.control &&& expeditedSizeMask) >>> 2).toNat
      let dlen := 8 - unused
      let copied := copyLoop response (dlen - 4) 4 { sdo with contsize := 4 - unused }
      if copied.1 < dlen then
        ({ copied.2 with error := abortOutOfMemory }, .finish .bufferTooSmall none)
      else (copied.2, .finish .ok none)
    else
      ({ sdo with
          contsize := if response.control &&& sizeIndicated ≠ 0 then response.data.toNat else 0 },
        .execute (seg uploadSegmentRequest []) (.uploadSegment 0))
  else refused response sdo

/-- The other value of the toggle bit. -/
def flip (toggle : UInt8) : UInt8 := if toggle ≠ 0 then 0 else segmentToggle

/-- A segment has the wrong command or toggle bit. -/
def mismatch (sdo : Sdo) : Sdo × Outcome :=
  ({ sdo with error := abortSegMismatch }, .finish .sdoSegMismatch (some abortSegMismatch))

/-- `ProcessReadSDOJob` behind the request of a segment. -/
def segmentUploaded (toggle : UInt8) (response : CANopenFrame) (sdo : Sdo) : Sdo × Outcome :=
  if response.control &&& (commandMask ||| segmentToggle) = uploadSegmentResponse ||| toggle then
    let dlen := 8 - ((response.control &&& segmentUnusedMask) >>> 1).toNat
    let copied := copyLoop response (dlen - 1) 1 sdo
    if copied.1 < dlen then
      ({ copied.2 with error := abortOutOfMemory },
        .finish .bufferTooSmall
          (if response.control &&& segmentEnd = 0 then some abortOutOfMemory else none))
    else if response.control &&& segmentEnd ≠ 0 then (copied.2, .finish .ok none)
    else
      (copied.2, .execute (seg (uploadSegmentRequest ||| flip toggle) [])
        (.uploadSegment (flip toggle)))
  else mismatch sdo

/-! ### Jobs that write -/

/-- A byte of the memory. -/
def Sdo.memory (sdo : Sdo) (n : ℕ) : UInt8 := (sdo.buf.getD []).getD n 0

/-- `ProcessWriteSDOJob` up to its first request. -/
def processWriteSDOJob (active : Bool) (sdo : Sdo) : Sdo × Outcome :=
  if !active then (sdo, .finish .noCANWrite none)
  else if sdo.nodeid < 1 ∨ sdo.nodeid > 127 then (sdo, .finish .paramRange none)
  else if sdo.buf = none then (sdo, .finish .paramRange none)
  else
    ({ sdo with xfersize := 0 },
      .execute
        (if sdo.bufsize = 0 then
          exp (initDownloadRequest ||| expedited) sdo.index sdo.subindex
            ((List.range 4).map sdo.memory)
        else if sdo.bufsize ≤ 4 then
          exp (initDownloadRequest ||| expedited ||| sizeIndicated |||
              (UInt8.ofNat (4 - sdo.bufsize.toNat) <<< 2))
            sdo.index sdo.subindex ((List.range sdo.bufsize.toNat).map sdo.memory)
        else
          exp (initDownloadRequest ||| sizeIndicated) sdo.index sdo.subindex (le32 sdo.bufsize))
        .initDownload)

/-- The loop that puts bytes of the buffer into a request, `left` at most. -/
def fillLoop : (left : ℕ) → Sdo → List UInt8 × Sdo
  | 0, sdo => ([], sdo)
  | left + 1, sdo =>
      if sdo.xfersize < sdo.bufsize.toNat then
        let filled := fillLoop left { sdo with xfersize := sdo.xfersize + 1 }
        (sdo.memory sdo.xfersize :: filled.1, filled.2)
      else ([], sdo)

/-- The next segment is put into a request. -/
def downloadSegment (toggle : UInt8) (sdo : Sdo) : Sdo × Outcome :=
  let filled := fillLoop 7 sdo
  let control := downloadSegmentRequest ||| toggle ||| (UInt8.ofNat (7 - filled.1.length) <<< 1)
  (filled.2, .execute
    (seg (if filled.2.xfersize = filled.2.bufsize.toNat then control ||| segmentEnd else control)
      filled.1)
    (.downloadSegment toggle))

/-- `ProcessWriteSDOJob` behind its first request. -/
def initDownloaded (request response : CANopenFrame) (sdo : Sdo) : Sdo × Outcome :=
  if response.control &&& commandMask = initDownloadResponse ∧ response.Addresses request then
    if request.control &&& expedited ≠ 0 then
      ({ sdo with xfersize := sdo.bufsize.toNat }, .finish .ok none)
    else downloadSegment 0 sdo
  else refused response sdo

/-- `ProcessWriteSDOJob` behind the request of a segment. -/
def segmentDownloaded (toggle : UInt8) (request response : CANopenFrame) (sdo : Sdo) :
    Sdo × Outcome :=
  if response.control &&& (commandMask ||| segmentToggle) = downloadSegmentResponse ||| toggle then
    if request.control &&& segmentEnd ≠ 0 then (sdo, .finish .ok none)
    else downloadSegment (flip toggle) sdo
  else mismatch sdo

/-! ### The task -/

/-- Where the task of the worker stands: it waits for a job, is about to send a request, waits
for its response, has been told of one, or is about to return the job. -/
inductive Task
  | idle
  | send (p : Point)
  | wait (p : Point)
  | check (p : Point)
  | done (result : CANopenResult)
  deriving DecidableEq

/-- `CANopenWorker`. -/
structure Worker where
  job : CANopenJob
  request : CANopenFrame
  response : CANopenFrame
  notified : ℕ
  task : Task

/-- A new worker. -/
def Worker.new : Worker :=
  ⟨⟨.none, 0, 0, 0, 0, ⟨0, 0, 0, none, 0, 0, 0, 0⟩⟩, load [], load [], 0, .idle⟩

/-- What the task does next: it takes a job from the queue, whose client may have vanished, and
the bus may be inactive; it sends; it is told of a response, or not in time; it works on the
response; it returns the job. -/
inductive Act
  | job (job : CANopenJob) (client active : Bool)
  | send
  | take
  | timeout
  | check
  | complete
  deriving DecidableEq

/-- The job goes on, and an abort is sent if it ends with one. -/
def Worker.proceed (w : Worker) (r : Sdo × Outcome) : Worker × List (ℕ × CANopenFrame) :=
  match r.2 with
  | .execute request p =>
      ({ w with
          job := { w.job with sdo := r.1, trycnt := 0 }, request := request, task := .send p }, [])
  | .finish result abort =>
      ({ w with job := { w.job with sdo := r.1 }, task := .done result },
        abort.toList.map fun reason => (w.job.txid, abortFrame w.request reason))

/-- A job behind the request it has the response of. -/
def Point.resume (request response : CANopenFrame) (sdo : Sdo) : Point → Sdo × Outcome
  | .initUpload => initUploaded request response sdo
  | .uploadSegment toggle => segmentUploaded toggle response sdo
  | .initDownload => initDownloaded request response sdo
  | .downloadSegment toggle => segmentDownloaded toggle request response sdo

/-- A job that has been taken. -/
def Worker.start (w : Worker) (active : Bool) : Worker × List (ℕ × CANopenFrame) :=
  match w.job.type with
  | .none => ({ w with task := .done .ok }, [])
  | .readSDO => w.proceed (processReadSDOJob active w.job.sdo)
  | .writeSDO => w.proceed (processWriteSDOJob active w.job.sdo)

/-- `ExecuteSDORequest` has met its timeout. -/
def Worker.expire (w : Worker) (p : Point) : Worker × List (ℕ × CANopenFrame) :=
  let sent := [(w.job.txid, abortFrame w.request abortTimeout)]
  if w.job.trycnt < w.job.maxtries then ({ w with task := .send p }, sent)
  else
    ({ w with
        job := { w.job with sdo := { w.job.sdo with error := abortTimeout } }
        task := .done .timeout }, sent)

/-- A frame is one for the current job. -/
def Worker.Awaits (w : Worker) (msgID : ℕ) : Prop := w.job.type ≠ .none ∧ msgID = w.job.rxid

instance (w : Worker) (msgID : ℕ) : Decidable (w.Awaits msgID) :=
  inferInstanceAs (Decidable (_ ∧ _))

/-- `IncomingFrame`. -/
def Worker.incomingFrame (w : Worker) (msgID : ℕ) (bytes : List UInt8) : Worker :=
  if w.Awaits msgID then { w with response := load bytes, notified := w.notified + 1 } else w

/-- What the task does, with the frames it sends, each with its identifier. -/
def Worker.step (w : Worker) : Act → Option (Worker × List (ℕ × CANopenFrame))
  | .job job client active =>
      if w.task = .idle then
        if client then some (Worker.start { w with job := job } active)
        else some ({ w with job := job }, [])
      else none
  | .send =>
      match w.task with
      | .send p =>
          some ({ w with job := { w.job with trycnt := w.job.trycnt + 1 }, task := .wait p },
            [(w.job.txid, w.request)])
      | _ => none
  | .take =>
      match w.task with
      | .wait p => if w.notified ≠ 0 then some ({ w with notified := 0, task := .check p }, [])
          else none
      | _ => none
  | .timeout =>
      match w.task with
      | .wait p => if w.notified = 0 then some (w.expire p) else none
      | _ => none
  | .check =>
      match w.task with
      | .check p => some (w.proceed (p.resume w.request w.response w.job.sdo))
      | _ => none
  | .complete =>
      match w.task with
      | .done _ => some ({ w with job := { w.job with type := .none }, task := .idle }, [])
      | _ => none

/-! ### The steps of the task -/

namespace Worker

variable {w : Worker} {r : Worker × List (ℕ × CANopenFrame)}

theorem step_job {job : CANopenJob} {client active : Bool} :
    w.step (.job job client active) = some r ↔ w.task = .idle ∧
      (if client then Worker.start { w with job := job } active else ({ w with job := job }, []))
        = r := by
  rw [step]
  by_cases hidle : w.task = .idle
  · rw [if_pos hidle, ← apply_ite some, Option.some_inj]
    exact (and_iff_right hidle).symm
  · rw [if_neg hidle]
    exact iff_of_false (Option.some_ne_none r).symm fun h => hidle h.1

theorem step_send : w.step .send = some r ↔ ∃ p, w.task = .send p ∧
    ({ w with job := { w.job with trycnt := w.job.trycnt + 1 }, task := .wait p },
      [(w.job.txid, w.request)]) = r := by
  cases htask : w.task <;> simp [step, htask]

theorem step_take : w.step .take = some r ↔ ∃ p, w.task = .wait p ∧ w.notified ≠ 0 ∧
    ({ w with notified := 0, task := .check p }, []) = r := by
  cases htask : w.task <;> simp [step, htask]

theorem step_timeout : w.step .timeout = some r ↔ ∃ p, w.task = .wait p ∧ w.notified = 0 ∧
    w.expire p = r := by
  cases htask : w.task <;> simp [step, htask]

theorem step_check : w.step .check = some r ↔ ∃ p, w.task = .check p ∧
    w.proceed (p.resume w.request w.response w.job.sdo) = r := by
  cases htask : w.task <;> simp [step, htask]

theorem step_complete : w.step .complete = some r ↔ ∃ result, w.task = .done result ∧
    ({ w with job := { w.job with type := .none }, task := .idle }, []) = r := by
  cases htask : w.task <;> simp [step, htask]

end Worker

end Ovms.CanOpen
