import Ovms.CanOpen.Sdo
import Ovms.Lib.Machine

/-!
# An SDO Server

A node with the objects of its dictionary, which follows the SDO protocol, and the bus between it
and a worker. The node handles the frames it is sent in their order. An upload is answered within
the response itself, with four bytes when it does not say how many, or in segments of up to seven
bytes; how an object is answered may be another way each time. A segment is sent and taken only in
its turn, told by the toggle bit, and an abort ends a transfer.

On the bus a frame of the node may take any time, or be lost, but does not overtake another.

## Conventions

A request and its response carry the number of the job the request was sent in, and `origin` is
the one of the frame in `m_response`. Nothing of the worker or of the node depends on them.
-/

open Lib

namespace Ovms.CanOpen

/-! ### Frames of a server -/

/-- The response to a request to upload, with all bytes in it. -/
def expeditedResponse (index : UInt16) (subindex : UInt8) (sized : Bool) (data : List UInt8) :
    CANopenFrame :=
  exp (initUploadResponse ||| expedited |||
      if sized then sizeIndicated ||| (UInt8.ofNat (4 - data.length) <<< 2) else 0)
    index subindex data

/-- The response to a request to upload in segments. -/
def segmentedResponse (index : UInt16) (subindex : UInt8) (size : Option ℕ) : CANopenFrame :=
  match size with
  | none => exp initUploadResponse index subindex []
  | some size =>
      exp (initUploadResponse ||| sizeIndicated) index subindex (le32 (UInt32.ofNat size))

/-- The response with a segment. -/
def segmentResponse (toggle : UInt8) (data : List UInt8) (last : Bool) : CANopenFrame :=
  seg (uploadSegmentResponse ||| toggle ||| (UInt8.ofNat (7 - data.length) <<< 1) |||
    if last then segmentEnd else 0) data

/-- `n` bytes of a frame. -/
def CANopenFrame.slice (f : CANopenFrame) (off n : ℕ) : List UInt8 := (f.toList.drop off).take n

/-! ### The dictionary -/

/-- How an upload is answered. -/
inductive Upload
  | expedited (sized : Bool) (data : List UInt8) (hpos : 0 < data.length) (hle : data.length ≤ 4)
      (hunsized : sized = false → data.length = 4)
  | segmented (indicated : Bool) (segments : List (List UInt8)) (hne : segments ≠ [])
      (hle : ∀ data ∈ segments, data.length ≤ 7)

/-- The bytes of the object. -/
def Upload.bytes : Upload → List UInt8
  | .expedited _ data _ _ _ => data
  | .segmented _ segments _ _ => segments.flatten

/-- The response to the request. -/
def Upload.response (index : UInt16) (subindex : UInt8) : Upload → CANopenFrame
  | .expedited sized data _ _ _ => expeditedResponse index subindex sized data
  | .segmented indicated segments _ _ =>
      segmentedResponse index subindex (if indicated then some segments.flatten.length else none)

/-- A node: the identifiers it receives and sends with, its objects, and how the `k`-th upload is
answered. -/
structure Node where
  rxid : ℕ
  txid : ℕ
  content : UInt16 → UInt8 → Option (List UInt8)
  upload : (k : ℕ) → UInt16 → UInt8 → Option Upload
  upload_bytes : ∀ k index subindex,
    (upload k index subindex).map Upload.bytes = content index subindex

/-- A node that answers an object alike every time. -/
def Node.fixed (rxid txid : ℕ) (objects : UInt16 → UInt8 → Option Upload) : Node :=
  ⟨rxid, txid, fun index subindex => (objects index subindex).map Upload.bytes, fun _ => objects,
    fun _ _ _ => rfl⟩

/-! ### The server -/

/-- The transfer of a server: what is left to upload, or what has been downloaded so far, with the
toggle bit that is next. -/
inductive Transfer
  | idle
  | upload (segments : List (List UInt8)) (toggle : UInt8)
  | download (index : UInt16) (subindex : UInt8) (size : Option ℕ) (received : List UInt8)
      (toggle : UInt8)
  deriving DecidableEq

/-- The transfer behind the response. -/
def Upload.transfer : Upload → Transfer
  | .expedited _ _ _ _ _ => .idle
  | .segmented _ segments _ _ => .upload segments 0

/-- A server: the uploads it has begun, its transfer, and the downloads it has completed. -/
structure Server where
  uploads : ℕ
  transfer : Transfer
  written : List (UInt16 × UInt8 × List UInt8)
  deriving DecidableEq

namespace Server

/-- A request is refused, which ends the transfer. -/
def refuse (s : Server) (f : CANopenFrame) (reason : UInt32) : Server × Option CANopenFrame :=
  ({ s with transfer := .idle }, some (exp sdoAbort f.index f.subindex (le32 reason)))

/-- A request to upload. -/
def beginUpload (node : Node) (s : Server) (f : CANopenFrame) : Server × Option CANopenFrame :=
  match node.upload s.uploads f.index f.subindex with
  | none => s.refuse f 0x06020000
  | some upload =>
      ({ s with uploads := s.uploads + 1, transfer := upload.transfer },
        some (upload.response f.index f.subindex))

/-- What is left of an upload behind a segment. -/
def behind (rest : List (List UInt8)) (toggle : UInt8) : Transfer :=
  if rest = [] then .idle else .upload rest (flip toggle)

/-- A request of a segment. -/
def uploadSegment (s : Server) (f : CANopenFrame) : Server × Option CANopenFrame :=
  match s.transfer with
  | .upload (data :: rest) toggle =>
      if f.control &&& segmentToggle = toggle then
        ({ s with transfer := behind rest toggle },
          some (segmentResponse toggle data rest.isEmpty))
      else s.refuse f abortSegMismatch
  | _ => s.refuse f 0x05040001

/-- A request to download. -/
def beginDownload (s : Server) (f : CANopenFrame) : Server × Option CANopenFrame :=
  let sized : Bool := f.control &&& sizeIndicated ≠ 0
  (if f.control &&& expedited ≠ 0 then
      let unused := if sized then ((f.control &&& expeditedSizeMask) >>> 2).toNat else 0
      { s with
          transfer := .idle
          written := s.written ++ [(f.index, f.subindex, f.slice 4 (4 - unused))] }
    else
      { s with
          transfer := .download f.index f.subindex (if sized then some f.data.toNat else none)
            [] 0 },
    some (exp initDownloadResponse f.index f.subindex []))

/-- A segment that is downloaded. An object of another size than indicated is refused. -/
def downloadSegment (s : Server) (f : CANopenFrame) : Server × Option CANopenFrame :=
  match s.transfer with
  | .download index subindex size received toggle =>
      if f.control &&& segmentToggle = toggle then
        let received := received ++ f.slice 1 (7 - ((f.control &&& segmentUnusedMask) >>> 1).toNat)
        let response := some (seg (downloadSegmentResponse ||| toggle) [])
        if f.control &&& segmentEnd = 0 then
          ({ s with transfer := .download index subindex size received (flip toggle) }, response)
        else if size.all (· = received.length) then
          ({ s with transfer := .idle, written := s.written ++ [(index, subindex, received)] },
            response)
        else s.refuse f 0x06070010
      else s.refuse f abortSegMismatch
  | _ => s.refuse f 0x05040001

/-- A frame is handled, and answered. -/
def handle (node : Node) (s : Server) (f : CANopenFrame) : Server × Option CANopenFrame :=
  let command := f.control &&& commandMask
  if command = initUploadRequest then s.beginUpload node f
  else if command = uploadSegmentRequest then s.uploadSegment f
  else if command = initDownloadRequest then s.beginDownload f
  else if command = downloadSegmentRequest then s.downloadSegment f
  else if command = sdoAbort then ({ s with transfer := .idle }, none)
  else s.refuse f 0x05040001

end Server

/-! ### The bus -/

/-- A worker, a server, and the frames on their way from one to the other. -/
structure Net where
  worker : Worker
  server : Server
  requests : List (ℕ × CANopenFrame)
  responses : List (ℕ × CANopenFrame)
  jobs : ℕ
  origin : ℕ

/-- A new worker, and a node that has been idle. -/
def Net.new : Net := ⟨.new, ⟨0, .idle, []⟩, [], [], 0, 0⟩

/-- What happens next: the task of the worker does a step, the server handles a frame, a response
comes in, a response is lost. -/
inductive Event
  | act (a : Act)
  | serve
  | deliver
  | lose (i : ℕ)
  deriving DecidableEq

/-- The number of the job is another one when a job is taken. -/
def Act.count : Act → ℕ → ℕ
  | .job _ _ _, jobs => jobs + 1
  | _, jobs => jobs

/-- The frames that reach the node. -/
def Node.received (node : Node) (sent : List (ℕ × CANopenFrame)) : List CANopenFrame :=
  sent.filterMap fun f => if f.1 = node.rxid then some f.2 else none

/-- One event. -/
def Net.step (node : Node) (n : Net) : Event → Option Net
  | .act a =>
      (n.worker.step a).map fun r =>
        { n with
            worker := r.1
            requests := n.requests ++ (node.received r.2).map (Prod.mk (a.count n.jobs))
            jobs := a.count n.jobs }
  | .serve =>
      match n.requests with
      | [] => none
      | f :: requests =>
          let r := n.server.handle node f.2
          some { n with
            server := r.1
            requests := requests
            responses := n.responses ++ r.2.toList.map (Prod.mk f.1) }
  | .deliver =>
      match n.responses with
      | [] => none
      | f :: responses =>
          some { n with
            worker := n.worker.incomingFrame node.txid f.2.toList
            responses := responses
            origin := if n.worker.Awaits node.txid then f.1 else n.origin }
  | .lose i =>
      if i < n.responses.length then some { n with responses := n.responses.eraseIdx i } else none

end Ovms.CanOpen
