import Ovms.CanOpen.Server

/-!
# The Steps of a Transfer

What one response does to a job: the bytes it carries go behind those the buffer has, as far as it
reaches, and the job goes on or ends by what does not fit. What one request of a job that writes
takes out of its buffer.
-/

namespace Ovms.CanOpen

/-! ### The toggle bit -/

/-- A value of the toggle bit. -/
def Toggle (toggle : UInt8) : Prop := toggle = 0 ∨ toggle = segmentToggle

theorem toggle_zero : Toggle 0 := Or.inl rfl

theorem Toggle.flip {toggle : UInt8} (h : Toggle toggle) : Toggle (flip toggle) := by
  rcases h with rfl | rfl
  · exact Or.inr rfl
  · exact Or.inl rfl

theorem Toggle.flip_ne {toggle : UInt8} (h : Toggle toggle) : CanOpen.flip toggle ≠ toggle := by
  rcases h with rfl | rfl <;> decide

/-! ### Bytes of a frame -/

/-- A block of a frame, byte by byte. -/
theorem slice_eq_map (f : CANopenFrame) {off n : ℕ} (h : off + n ≤ 8) :
    f.slice off n = (List.range n).map fun i => f.byte (off + i) := by
  apply List.ext_getElem
  · simp only [CANopenFrame.slice, List.length_take, List.length_drop, Vector.length_toList,
      List.length_map, List.length_range]
    omega
  · intro i h₁ h₂
    have hi : off + i < 8 := by
      simp only [List.length_map, List.length_range] at h₂
      omega
    simp [CANopenFrame.slice, CANopenFrame.byte, hi]

/-- A block of the bytes a frame was loaded with. -/
theorem slice_load {bytes : List UInt8} {off n : ℕ} (h : off + n ≤ bytes.length)
    (h8 : off + n ≤ 8) : (load bytes).slice off n = (bytes.drop off).take n := by
  rw [slice_eq_map _ h8]
  apply List.ext_getElem
  · simp only [List.length_map, List.length_range, List.length_take, List.length_drop]
    omega
  · intro i h₁ h₂
    simp only [List.length_map, List.length_range] at h₁
    rw [List.getElem_map, List.getElem_range, byte_load bytes (by omega), List.getElem_take,
      List.getElem_drop, List.getD_eq_getElem?_getD, List.getElem?_eq_getElem (by omega),
      Option.getD_some]

theorem slice_seg {control : UInt8} {data : List UInt8} (h : data.length ≤ 7) :
    (seg control data).slice 1 data.length = data := by
  rw [seg, slice_load (by simp; omega) (by omega)]
  simp

theorem slice_exp {control : UInt8} {index : UInt16} {subindex : UInt8} {data : List UInt8}
    (h : data.length ≤ 4) : (exp control index subindex data).slice 4 data.length = data := by
  rw [exp, slice_load (by simp; omega) (by omega)]
  simp

theorem addresses_exp (control control' : UInt8) (index : UInt16) (subindex : UInt8)
    (data data' : List UInt8) :
    (exp control index subindex data).Addresses (exp control' index subindex data') :=
  ⟨by rw [index_exp, index_exp], by rw [subindex_exp, subindex_exp]⟩

/-! ### The buffer of a job that reads -/

/-- The buffer holds bytes and zeros behind them; what is behind the buffer is untouched. -/
def Sdo.filled (sdo : Sdo) (mem bytes : List UInt8) : Sdo :=
  { sdo with
    buf := some (bytes ++ List.replicate (sdo.bufsize.toNat - bytes.length) 0 ++
      mem.drop sdo.bufsize.toNat)
    xfersize := bytes.length }

/-- One byte more. -/
theorem store_filled {sdo : Sdo} {mem bytes : List UInt8} (b : UInt8)
    (h : bytes.length < sdo.bufsize.toNat) :
    (sdo.filled mem bytes).store b = sdo.filled mem (bytes ++ [b]) := by
  obtain ⟨m, hm⟩ : ∃ m, sdo.bufsize.toNat - bytes.length = m + 1 :=
    ⟨sdo.bufsize.toNat - bytes.length - 1, by omega⟩
  have hm' : sdo.bufsize.toNat - (bytes.length + 1) = m := by omega
  simp only [Sdo.store, Sdo.filled, hm, hm', Option.map_some, List.append_assoc,
    List.replicate_succ, List.length_append, List.length_singleton]
  rw [List.set_append_right _ _ le_rfl, Nat.sub_self]
  rfl

/-- **The loop that copies** takes as many bytes as there are and the buffer has room for. -/
theorem copyLoop_filled {sdo : Sdo} {mem : List UInt8} (response : CANopenFrame) (left n : ℕ)
    {bytes : List UInt8} (h : bytes.length ≤ sdo.bufsize.toNat) :
    copyLoop response left n (sdo.filled mem bytes) =
      (n + min left (sdo.bufsize.toNat - bytes.length),
        sdo.filled mem (bytes ++ (List.range (min left (sdo.bufsize.toNat - bytes.length))).map
          fun i => response.byte (n + i))) := by
  induction left generalizing n bytes with
  | zero => simp [copyLoop]
  | succ left ih =>
      by_cases hroom : bytes.length < sdo.bufsize.toNat
      · have hlength : (bytes ++ [response.byte n]).length = bytes.length + 1 := by simp
        have hmin : min (left + 1) (sdo.bufsize.toNat - bytes.length) =
            min left (sdo.bufsize.toNat - (bytes ++ [response.byte n]).length) + 1 := by omega
        have hfilled : (sdo.filled mem bytes).xfersize < (sdo.filled mem bytes).bufsize.toNat :=
          hroom
        rw [copyLoop, if_pos hfilled,
          store_filled _ hroom, ih (n + 1) (by omega), hmin]
        refine Prod.ext (by omega) (congrArg (sdo.filled mem) ?_)
        rw [List.range_succ_eq_map, List.map_cons, List.map_map, List.append_assoc,
          List.singleton_append]
        refine congrArg (fun l => bytes ++ response.byte n :: l) (List.map_congr_left fun i _ => ?_)
        rw [Function.comp_apply, Nat.succ_eq_add_one, Nat.add_assoc, Nat.add_comm 1 i]
      · have hfull : sdo.bufsize.toNat - bytes.length = 0 := by omega
        have hfilled : ¬ (sdo.filled mem bytes).xfersize < (sdo.filled mem bytes).bufsize.toNat :=
          hroom
        rw [copyLoop, if_neg hfilled, hfull]
        simp

/-- The loop copies the data of a response. -/
theorem copyLoop_data (sdo : Sdo) (mem bytes : List UInt8) {data : List UInt8}
    {response : CANopenFrame} {off : ℕ} (hdata : response.slice off data.length = data)
    (hoff : off + data.length ≤ 8)
    (h : bytes.length ≤ sdo.bufsize.toNat) :
    copyLoop response data.length off (sdo.filled mem bytes) =
      (off + min data.length (sdo.bufsize.toNat - bytes.length),
        sdo.filled mem ((bytes ++ data).take sdo.bufsize.toNat)) := by
  rw [copyLoop_filled response _ _ h, ← slice_eq_map _ (by omega)]
  have hslice : response.slice off (min data.length (sdo.bufsize.toNat - bytes.length)) =
      data.take (sdo.bufsize.toNat - bytes.length) := by
    conv_rhs => rw [← hdata]
    rw [CANopenFrame.slice, CANopenFrame.slice, List.take_take, Nat.min_comm]
  rw [hslice, List.take_append, List.take_of_length_le h]

/-! ### Responses to a job that reads -/

/-- The control byte of a segment: its command and toggle bit, what it does not use, its end. -/
theorem control_segmentResponse {toggle : UInt8} (ht : Toggle toggle) {data : List UInt8}
    (hdata : data.length ≤ 7) (last : Bool) :
    let control := (segmentResponse toggle data last).control
    control &&& (commandMask ||| segmentToggle) = uploadSegmentResponse ||| toggle ∧
      control &&& commandMask = uploadSegmentResponse ∧ control &&& segmentToggle = toggle ∧
      8 - ((control &&& segmentUnusedMask) >>> 1).toNat = data.length + 1 ∧
      (control &&& segmentEnd = 0 ↔ last = false) := by
  have hcases : ∀ (n : Fin 8) (last : Bool) (toggle : UInt8),
      toggle = 0 ∨ toggle = segmentToggle →
      let control := uploadSegmentResponse ||| toggle ||| (UInt8.ofNat (7 - n.val) <<< 1) |||
        if last then segmentEnd else 0
      control &&& (commandMask ||| segmentToggle) = uploadSegmentResponse ||| toggle ∧
        control &&& commandMask = uploadSegmentResponse ∧ control &&& segmentToggle = toggle ∧
        8 - ((control &&& segmentUnusedMask) >>> 1).toNat = n.val + 1 ∧
        (control &&& segmentEnd = 0 ↔ last = false) := by
    rintro n last toggle (rfl | rfl) <;> revert n last <;> decide
  rw [segmentResponse, control_seg]
  exact hcases ⟨data.length, by omega⟩ last toggle ht

/-- The outcome of a response that carries bytes: behind those the buffer has, all of them fit, or
not. -/
def received (sdo : Sdo) (mem bytes : List UInt8) (fits : Outcome) (abort : Option UInt32) :
    Sdo × Outcome :=
  if bytes.length ≤ sdo.bufsize.toNat then (sdo.filled mem bytes, fits)
  else
    ({ sdo.filled mem (bytes.take sdo.bufsize.toNat) with error := abortOutOfMemory },
      .finish .bufferTooSmall abort)

/-- **A segment** goes behind what has been received. -/
theorem segmentUploaded_segment {toggle : UInt8} (ht : Toggle toggle) {sdo : Sdo}
    (mem : List UInt8) {bytes data : List UInt8} (hdata : data.length ≤ 7) (last : Bool)
    (h : bytes.length ≤ sdo.bufsize.toNat) :
    segmentUploaded toggle (segmentResponse toggle data last) (sdo.filled mem bytes) =
      received sdo mem (bytes ++ data)
        (if last then .finish .ok none
          else .execute (seg (uploadSegmentRequest ||| flip toggle) [])
            (.uploadSegment (flip toggle)))
        (if last then none else some abortOutOfMemory) := by
  obtain ⟨hcommand, -, -, hlength, hend⟩ := control_segmentResponse ht hdata last
  have hslice : (segmentResponse toggle data last).slice 1 data.length = data := slice_seg hdata
  rw [segmentUploaded, if_pos hcommand, hlength]
  dsimp only
  rw [Nat.add_sub_cancel, copyLoop_data sdo mem bytes hslice (by omega) h, received,
    List.length_append]
  by_cases hfits : bytes.length + data.length ≤ sdo.bufsize.toNat
  · rw [if_pos hfits, if_neg (by simp only; omega),
      List.take_of_length_le (by rw [List.length_append]; exact hfits)]
    cases last with
    | false => rw [if_neg (not_not.mpr (hend.mpr rfl))]; rfl
    | true => rw [if_pos fun hzero => Bool.noConfusion (hend.mp hzero)]; rfl
  · rw [if_neg hfits, if_pos (by simp only; omega)]
    cases last with
    | false => rw [if_pos (hend.mpr rfl)]; rfl
    | true => rw [if_neg fun hzero => Bool.noConfusion (hend.mp hzero)]; rfl

/-- The control byte of a response with all bytes in it. -/
theorem control_expeditedResponse (index : UInt16) (subindex : UInt8) {sized : Bool}
    {data : List UInt8} (hpos : 0 < data.length) (hle : data.length ≤ 4)
    (hunsized : sized = false → data.length = 4) :
    let control := (expeditedResponse index subindex sized data).control
    control &&& commandMask = initUploadResponse ∧ control &&& expedited ≠ 0 ∧
      ((control &&& expeditedSizeMask) >>> 2).toNat = 4 - data.length := by
  have hcases : ∀ (n : Fin 5) (sized : Bool), 0 < n.val → (sized = false → n.val = 4) →
      let control := initUploadResponse ||| expedited |||
        if sized then sizeIndicated ||| (UInt8.ofNat (4 - n.val) <<< 2) else 0
      control &&& commandMask = initUploadResponse ∧ control &&& expedited ≠ 0 ∧
        ((control &&& expeditedSizeMask) >>> 2).toNat = 4 - n.val := by decide
  rw [expeditedResponse, control_exp]
  exact hcases ⟨data.length, by omega⟩ sized hpos hunsized

/-- **A response with all bytes in it**, to the request of a job. -/
theorem initUploaded_expedited (index : UInt16) (subindex : UInt8) {sized : Bool}
    {data : List UInt8} (hpos : 0 < data.length) (hle : data.length ≤ 4)
    (hunsized : sized = false → data.length = 4) (sdo : Sdo) (mem : List UInt8) :
    initUploaded (exp initUploadRequest index subindex [])
        (expeditedResponse index subindex sized data) (sdo.filled mem []) =
      received { sdo with contsize := data.length } mem data (.finish .ok none) none := by
  obtain ⟨hcommand, hexpedited, hunused⟩ :=
    control_expeditedResponse index subindex hpos hle hunsized
  have haddresses : (expeditedResponse index subindex sized data).Addresses
      (exp initUploadRequest index subindex []) := by
    rw [expeditedResponse]
    exact addresses_exp _ _ _ _ _ _
  have hslice : (expeditedResponse index subindex sized data).slice 4 data.length = data :=
    slice_exp hle
  have hcopy := copyLoop_data { sdo with contsize := data.length } mem [] hslice (by omega)
    (Nat.zero_le _)
  rw [List.nil_append, List.length_nil, Nat.sub_zero] at hcopy
  have hleft : 8 - (4 - data.length) - 4 = data.length := by omega
  have hcontsize : 4 - (4 - data.length) = data.length := by omega
  rw [initUploaded, if_pos ⟨hcommand, haddresses⟩, if_pos hexpedited, hunused]
  dsimp only
  rw [hleft, hcontsize]
  have hfilled : ({ sdo.filled mem [] with contsize := data.length } : Sdo) =
    Sdo.filled { sdo with contsize := data.length } mem [] := rfl
  rw [hfilled, hcopy, received]
  by_cases hfits : data.length ≤ sdo.bufsize.toNat
  · rw [if_neg (by simp only; omega), if_pos hfits, List.take_of_length_le hfits]
  · rw [if_pos (by simp only; omega), if_neg hfits]

theorem control_segmentedResponse (index : UInt16) (subindex : UInt8) (size : Option ℕ) :
    let control := (segmentedResponse index subindex size).control
    control &&& commandMask = initUploadResponse ∧ control &&& expedited = 0 := by
  cases size <;> rw [segmentedResponse, control_exp] <;> decide

/-- **A response that leaves the bytes to segments**: the first segment is requested. -/
theorem initUploaded_segmented (index : UInt16) (subindex : UInt8) (size : Option ℕ)
    (sdo : Sdo) :
    ∃ contsize, initUploaded (exp initUploadRequest index subindex [])
        (segmentedResponse index subindex size) sdo =
      ({ sdo with contsize := contsize },
        .execute (seg uploadSegmentRequest []) (.uploadSegment 0)) := by
  obtain ⟨hcommand, hexpedited⟩ := control_segmentedResponse index subindex size
  have haddresses : (segmentedResponse index subindex size).Addresses
      (exp initUploadRequest index subindex []) := by
    cases size <;> exact addresses_exp _ _ _ _ _ _
  rw [initUploaded, if_pos ⟨hcommand, haddresses⟩, if_neg (not_not.mpr hexpedited)]
  exact ⟨_, rfl⟩

/-! ### The server -/

/-- An object is uploaded. -/
theorem handle_initUpload {node : Node} {index : UInt16} {subindex : UInt8}
    {object : List UInt8} (hobject : node.content index subindex = some object) (s : Server) :
    ∃ upload : Upload, upload.bytes = object ∧
      s.handle node (exp initUploadRequest index subindex []) =
        ({ s with uploads := s.uploads + 1, transfer := upload.transfer },
          some (upload.response index subindex)) := by
  have hupload := node.upload_bytes s.uploads index subindex
  rw [hobject, Option.map_eq_some_iff] at hupload
  obtain ⟨upload, hupload, hbytes⟩ := hupload
  refine ⟨upload, hbytes, ?_⟩
  rw [Server.handle, control_exp, if_pos (by decide), Server.beginUpload, index_exp, subindex_exp,
    hupload]

/-- An object that is not there is refused. -/
theorem handle_initUpload_none {node : Node} {index : UInt16} {subindex : UInt8}
    (hobject : node.content index subindex = none) (s : Server) :
    s.handle node (exp initUploadRequest index subindex []) =
      s.refuse (exp initUploadRequest index subindex []) 0x06020000 := by
  have hupload := node.upload_bytes s.uploads index subindex
  rw [hobject, Option.map_eq_none_iff] at hupload
  rw [Server.handle, control_exp, if_pos (by decide), Server.beginUpload, index_exp, subindex_exp,
    hupload]

theorem handle_uploadSegmentRequest (node : Node) {toggle : UInt8} (ht : Toggle toggle)
    (s : Server) :
    s.handle node (seg (uploadSegmentRequest ||| toggle) []) =
      s.uploadSegment (seg (uploadSegmentRequest ||| toggle) []) := by
  have hcommand : (uploadSegmentRequest ||| toggle) &&& commandMask = uploadSegmentRequest := by
    rcases ht with rfl | rfl <;> decide
  rw [Server.handle, control_seg, hcommand, if_neg (by decide), if_pos rfl]

/-- The segment that is next is answered. -/
theorem handle_uploadSegment (node : Node) {toggle : UInt8} (ht : Toggle toggle) {s : Server}
    {data : List UInt8} {rest : List (List UInt8)}
    (hs : s.transfer = .upload (data :: rest) toggle) :
    s.handle node (seg (uploadSegmentRequest ||| toggle) []) =
      ({ s with transfer := Server.behind rest toggle },
        some (segmentResponse toggle data rest.isEmpty)) := by
  have htoggle : (uploadSegmentRequest ||| toggle) &&& segmentToggle = toggle := by
    rcases ht with rfl | rfl <;> decide
  rw [handle_uploadSegmentRequest node ht, Server.uploadSegment, hs]
  dsimp only
  rw [control_seg, if_pos htoggle]

theorem handle_uploadSegment_idle {node : Node} {toggle : UInt8} (ht : Toggle toggle)
    {s : Server} (hs : s.transfer = .idle) :
    s.handle node (seg (uploadSegmentRequest ||| toggle) []) =
      s.refuse (seg (uploadSegmentRequest ||| toggle) []) 0x05040001 := by
  rw [handle_uploadSegmentRequest node ht, Server.uploadSegment, hs]

theorem handle_abort (node : Node) {f : CANopenFrame} (hf : f.control = sdoAbort) (s : Server) :
    s.handle node f = ({ s with transfer := .idle }, none) := by
  rw [Server.handle, hf, if_neg (by decide), if_neg (by decide), if_neg (by decide),
    if_neg (by decide), if_pos (by decide)]

/-! ### Requests of a job that writes -/

/-- Bytes of the memory, one by one. -/
theorem map_memory {sdo : Sdo} {mem : List UInt8} (hbuf : sdo.buf = some mem) (off : ℕ) {n : ℕ}
    (h : n = 0 ∨ off + n ≤ mem.length) :
    (List.range n).map (fun i => sdo.memory (off + i)) = (mem.drop off).take n := by
  apply List.ext_getElem
  · simp only [List.length_map, List.length_range, List.length_take, List.length_drop]
    omega
  · intro i h₁ h₂
    rw [List.length_map, List.length_range] at h₁
    rw [List.getElem_map, List.getElem_range, List.getElem_take, List.getElem_drop, Sdo.memory,
      hbuf, Option.getD_some, List.getD_eq_getElem?_getD, List.getElem?_eq_getElem (by omega),
      Option.getD_some]

/-- The loop that fills a request takes bytes of the buffer in their order. -/
theorem fillLoop_eq (left : ℕ) (sdo : Sdo) :
    fillLoop left sdo =
      ((List.range (min left (sdo.bufsize.toNat - sdo.xfersize))).map
          fun i => sdo.memory (sdo.xfersize + i),
        { sdo with xfersize := sdo.xfersize + min left (sdo.bufsize.toNat - sdo.xfersize) }) := by
  induction left generalizing sdo with
  | zero => simp [fillLoop]
  | succ left ih =>
      by_cases hroom : sdo.xfersize < sdo.bufsize.toNat
      · have hmin : min (left + 1) (sdo.bufsize.toNat - sdo.xfersize) =
            min left (sdo.bufsize.toNat - (sdo.xfersize + 1)) + 1 := by omega
        rw [fillLoop, if_pos hroom, ih, hmin, List.range_succ_eq_map, List.map_cons, List.map_map]
        refine Prod.ext (congrArg (List.cons _) (List.map_congr_left fun i _ => ?_)) ?_
        · rw [Function.comp_apply, Nat.succ_eq_add_one, Nat.add_assoc, Nat.add_comm 1 i]
          rfl
        · dsimp only
          rw [Nat.add_assoc, Nat.add_comm 1]
      · have hfull : sdo.bufsize.toNat - sdo.xfersize = 0 := by omega
        rw [fillLoop, if_neg hroom, hfull]
        simp

/-- **The request with the next segment** has up to seven of the bytes that are left, and is laid
out like a segment of an upload. -/
theorem downloadSegment_sent {sdo : Sdo} {mem : List UInt8} (toggle : UInt8)
    (hbuf : sdo.buf = some mem) (hsize : sdo.bufsize.toNat ≤ mem.length) :
    downloadSegment toggle sdo =
      let data := ((mem.take sdo.bufsize.toNat).drop sdo.xfersize).take 7
      ({ sdo with xfersize := sdo.xfersize + data.length },
        .execute
          (segmentResponse toggle data (sdo.xfersize + data.length = sdo.bufsize.toNat))
          (.downloadSegment toggle)) := by
  have hlength : (((mem.take sdo.bufsize.toNat).drop sdo.xfersize).take 7).length =
      min 7 (sdo.bufsize.toNat - sdo.xfersize) := by
    rw [List.length_take, List.length_drop, List.length_take, Nat.min_eq_left hsize]
  have hdata : (List.range (min 7 (sdo.bufsize.toNat - sdo.xfersize))).map
      (fun i => sdo.memory (sdo.xfersize + i)) =
        ((mem.take sdo.bufsize.toNat).drop sdo.xfersize).take 7 := by
    rw [map_memory hbuf _ (by omega), List.drop_take, List.take_take]
  rw [downloadSegment, fillLoop_eq, hdata]
  dsimp only
  rw [hlength, segmentResponse, hlength]
  by_cases hlast : sdo.xfersize + min 7 (sdo.bufsize.toNat - sdo.xfersize) = sdo.bufsize.toNat
  · simp [hlast, downloadSegmentRequest, uploadSegmentResponse]
  · simp [hlast, downloadSegmentRequest, uploadSegmentResponse]

/-- A segment that is downloaded goes behind those before it; the last one ends the transfer. -/
theorem handle_downloadSegment (node : Node) {toggle : UInt8} (ht : Toggle toggle) {s : Server}
    {index : UInt16} {subindex : UInt8} {size : Option ℕ} {bytes : List UInt8}
    (hs : s.transfer = .download index subindex size bytes toggle) (data : List UInt8)
    (hdata : data.length ≤ 7) (last : Bool)
    (hsize : last = true → size.all (· = (bytes ++ data).length) = true) :
    s.handle node (segmentResponse toggle data last) =
      (if last then
          { s with transfer := .idle, written := s.written ++ [(index, subindex, bytes ++ data)] }
        else { s with transfer := .download index subindex size (bytes ++ data) (flip toggle) },
        some (seg (downloadSegmentResponse ||| toggle) [])) := by
  obtain ⟨-, hcommand, htoggle, hlength, hend⟩ := control_segmentResponse ht hdata last
  have hslice : (segmentResponse toggle data last).slice 1 data.length = data := slice_seg hdata
  have hused : 7 - (((segmentResponse toggle data last).control &&& segmentUnusedMask) >>> 1).toNat
      = data.length := by omega
  rw [Server.handle, hcommand, if_neg (by decide), if_neg (by decide), if_neg (by decide),
    if_pos (by decide), Server.downloadSegment, hs]
  dsimp only
  rw [if_pos htoggle, hused, hslice]
  cases last with
  | false => rw [if_pos (hend.mpr rfl)]; rfl
  | true =>
      rw [if_neg fun hzero => Bool.noConfusion (hend.mp hzero), if_pos (hsize rfl)]
      rfl

/-- The answer to a segment that is downloaded. -/
theorem segmentDownloaded_answer {toggle : UInt8} (ht : Toggle toggle) {data : List UInt8}
    (hdata : data.length ≤ 7) (last : Bool) (sdo : Sdo) :
    segmentDownloaded toggle (segmentResponse toggle data last)
        (seg (downloadSegmentResponse ||| toggle) []) sdo =
      if last then (sdo, .finish .ok none) else downloadSegment (flip toggle) sdo := by
  obtain ⟨-, -, -, -, hend⟩ := control_segmentResponse ht hdata last
  have hcommand : (downloadSegmentResponse ||| toggle) &&& (commandMask ||| segmentToggle) =
      downloadSegmentResponse ||| toggle := by
    rcases ht with rfl | rfl <;> decide
  rw [segmentDownloaded, control_seg, if_pos hcommand]
  cases last with
  | false => rw [if_neg (not_not.mpr (hend.mpr rfl))]; rfl
  | true => rw [if_pos fun hzero => Bool.noConfusion (hend.mp hzero)]; rfl

/-- An object of up to four bytes is downloaded with the request. -/
theorem handle_initDownload_expedited (node : Node) (index : UInt16) (subindex : UInt8)
    (data : List UInt8) (hpos : 0 < data.length) (hle : data.length ≤ 4) (s : Server) :
    let request := exp (initDownloadRequest ||| expedited ||| sizeIndicated |||
      (UInt8.ofNat (4 - data.length) <<< 2)) index subindex data
    request.control &&& expedited ≠ 0 ∧
      s.handle node request =
        ({ s with transfer := .idle, written := s.written ++ [(index, subindex, data)] },
          some (exp initDownloadResponse index subindex [])) := by
  have hcases : ∀ n : Fin 5, 0 < n.val →
      let control := initDownloadRequest ||| expedited ||| sizeIndicated |||
        (UInt8.ofNat (4 - n.val) <<< 2)
      control &&& commandMask = initDownloadRequest ∧ control &&& expedited ≠ 0 ∧
        control &&& sizeIndicated ≠ 0 ∧
        4 - ((control &&& expeditedSizeMask) >>> 2).toNat = n.val := by decide
  obtain ⟨hcommand, hexpedited, hsized, hlength⟩ := hcases ⟨data.length, by omega⟩ hpos
  dsimp only at hcommand hexpedited hsized hlength ⊢
  refine ⟨by rwa [control_exp], ?_⟩
  rw [Server.handle, control_exp, hcommand, if_neg (by decide), if_neg (by decide),
    if_pos rfl, Server.beginDownload, control_exp, index_exp, subindex_exp]
  dsimp only
  rw [if_pos hexpedited, if_pos (decide_eq_true hsized), hlength, slice_exp hle]

/-- The download of a longer one begins. -/
theorem handle_initDownload_segmented (node : Node) (index : UInt16) (subindex : UInt8)
    (size : UInt32) (s : Server) :
    let request := exp (initDownloadRequest ||| sizeIndicated) index subindex (le32 size)
    request.control &&& expedited = 0 ∧
      s.handle node request =
        ({ s with transfer := .download index subindex (some size.toNat) [] 0 },
          some (exp initDownloadResponse index subindex [])) := by
  refine ⟨by rw [control_exp]; decide, ?_⟩
  rw [Server.handle, control_exp, if_neg (by decide), if_neg (by decide), if_pos (by decide),
    Server.beginDownload, control_exp, index_exp, subindex_exp, data_exp_le32]
  dsimp only
  rw [if_neg (by decide), if_pos (by decide)]

/-- The answer to the request to download. -/
theorem initDownloaded_answer (control : UInt8) (index : UInt16) (subindex : UInt8)
    (data : List UInt8) (sdo : Sdo) :
    initDownloaded (exp control index subindex data) (exp initDownloadResponse index subindex [])
        sdo =
      if control &&& expedited ≠ 0 then
        ({ sdo with xfersize := sdo.bufsize.toNat }, .finish .ok none)
      else downloadSegment 0 sdo := by
  rw [initDownloaded, if_pos ⟨by rw [control_exp]; decide, addresses_exp _ _ _ _ _ _⟩, control_exp]

end Ovms.CanOpen
