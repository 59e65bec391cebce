import Ovms.Poll.Transmit

/-!
# One-Off Requests

A one-off request is built from a raw request string, or from type, PID and payload; each
way has two functions. `PollSingleRequest` builds its entry by `LoadPollRequest`, or itself;
`OnceOffPoll` by one of the overloads of `SetPollPid`. The transmitter tells an external
payload from an inline one by the tag of the arguments. The overload of `SetPollPid` for
type, PID and payload fills in the external payload and leaves the tag 0: the transmitter
takes it for an inline payload of length 0.

A string is a buffer: the address of its storage, and the bytes. That two strings are
stored at different addresses shows in the entry, and not in the frames.
-/

open Ovms.Can

namespace Ovms.Poll

/-! ### Building an entry -/

/-- The longest external payload. -/
def maxPayload : ℕ := 4095

/-- A pointer into a buffer. -/
def Buffer.offset (b : Buffer) (n : ℕ) : Buffer := ⟨b.address + .ofNat n, b.bytes.drop n⟩

/-- Arguments with an external payload. -/
def externalArgs (pid : UInt16) (tag : UInt8) (data : Buffer) : PollArgs :=
  ⟨pid, tag, .external (.ofNat (min data.bytes.length maxPayload)) data⟩

/-- The entry of a raw request string: its type, its PID, and the bytes behind them. A
string that is too short for its type fails an assertion. -/
def requestEntry (txid rxid : UInt32) (request : Buffer) (protocol : Protocol) :
    Option PollPid :=
  match request.bytes with
  | [] => none
  | type :: rest =>
      let entry (pid : UInt16) (offset : ℕ) : PollPid :=
        ⟨txid, rxid, type.toUInt16, externalArgs pid pollTxData (request.offset offset), protocol⟩
      if has16BitPid type.toUInt16.toNat then
        match rest with
        | high :: low :: _ => some (entry (high.toUInt16 <<< 8 ||| low.toUInt16) 3)
        | _ => none
      else if has8BitPid type.toUInt16.toNat then
        match rest with
        | pid :: _ => some (entry pid.toUInt16 2)
        | [] => none
      else some (entry 0 1)

/-- `LoadPollRequest`, by which `PollSingleRequest` builds its entry from a raw request
string. -/
def loadPollRequest (txid rxid : UInt32) (request : Buffer) (protocol : Protocol) :
    Option PollPid :=
  requestEntry txid rxid request protocol

/-- `OnceOffPollBase::SetPollPid` for a raw request string, of which it keeps a copy at an
address of its own. -/
def setPollPidRequest (txid rxid : UInt32) (request : Buffer) (protocol : Protocol)
    (copy : UInt32) : Option PollPid :=
  requestEntry txid rxid { request with address := copy } protocol

/-- The entry that `PollSingleRequest` builds from type, PID and payload. -/
def pollSingleRequest (txid rxid : UInt32) (polltype : UInt8) (pid : UInt16) (payload : Buffer)
    (protocol : Protocol) : PollPid :=
  ⟨txid, rxid, polltype.toUInt16, externalArgs pid pollTxData payload, protocol⟩

/-- `OnceOffPollBase::SetPollPid` for type, PID and payload. The initialiser of the entry
names the PID alone of the argument union; the other bytes of the union are cleared, and
the tag is not set afterwards. -/
def setPollPid (txid rxid : UInt32) (polltype : UInt8) (pid : UInt16) (protocol : Protocol)
    (request : Buffer) (copy : UInt32) : PollPid :=
  ⟨txid, rxid, polltype.toUInt16, externalArgs pid 0 { request with address := copy }, protocol⟩

/-- The raw request string of type, PID and payload. -/
def rawRequest (polltype : UInt8) (pid : UInt16) (payload : List UInt8) : List UInt8 :=
  polltype :: pidBytes polltype.toNat pid ++ payload

/-! ### Entries for the same request -/

/-- Two entries ask the same modules, by the same protocol, for the same request. -/
structure SameRequest (e₁ e₂ : PollPid) : Prop where
  txmoduleid : e₁.txmoduleid = e₂.txmoduleid
  rxmoduleid : e₁.rxmoduleid = e₂.rxmoduleid
  protocol : e₁.protocol = e₂.protocol
  type : e₁.type = e₂.type
  pidBytes : pidBytes e₁.type.toNat e₁.args.pid = pidBytes e₂.type.toNat e₂.args.pid
  txData : e₁.args.txData = e₂.args.txData

/-- Two entries that stand for the same request as a third. -/
theorem SameRequest.of_common {e₁ e₂ e : PollPid} (h₁ : SameRequest e₁ e)
    (h₂ : SameRequest e₂ e) : SameRequest e₁ e₂ where
  txmoduleid := h₁.txmoduleid.trans h₂.txmoduleid.symm
  rxmoduleid := h₁.rxmoduleid.trans h₂.rxmoduleid.symm
  protocol := h₁.protocol.trans h₂.protocol.symm
  type := h₁.type.trans h₂.type.symm
  pidBytes := h₁.pidBytes.trans h₂.pidBytes.symm
  txData := h₁.txData.trans h₂.txData.symm

/-- The poller with another entry and PID. -/
def Poller.withJob (s : Poller) (entry : PollPid) (pid : UInt16) : Poller :=
  { s with entry := entry, pid := pid }

/-- Entries for the same request are started by the same frame. -/
theorem pollerSendEntry_congr {e₁ e₂ : PollPid} (h : SameRequest e₁ e₂) (s : Poller) :
    pollerSendEntry s e₂ =
      ((pollerSendEntry s e₁).1.withJob e₂ e₂.args.pid, (pollerSendEntry s e₁).2) := by
  obtain ⟨txmoduleid, rxmoduleid, type, args₁, protocol⟩ := e₁
  obtain ⟨_, _, _, args₂, _⟩ := e₂
  obtain ⟨rfl, rfl, rfl, rfl, hpid, hdata⟩ := h
  change pidBytes type.toNat args₁.pid = pidBytes type.toNat args₂.pid at hpid
  change args₁.txData = args₂.txData at hdata
  rw [pollerSendEntry, pollerSendEntry, pollerIsotpStart, pollerIsotpStart, expectModules,
    expectModules]
  by_cases hbroadcast : rxmoduleid ≠ 0
  · simp only [if_pos hbroadcast, hpid, hdata]
    rfl
  · simp only [if_neg hbroadcast, hpid, hdata]
    rfl

/-- The loop of the flow control branch reads neither entry nor PID. -/
theorem sendConsecutive_withJob (s : Poller) (entry : PollPid) (pid : UInt16) (f : CanFrame)
    (framecnt : UInt8) :
    sendConsecutive (s.withJob entry pid) f framecnt =
      ((sendConsecutive s f framecnt).1.withJob entry pid, (sendConsecutive s f framecnt).2) := by
  fun_induction sendConsecutive s f framecnt with
  | case1 s framecnt hrem =>
      rw [sendConsecutive, dif_pos (show (s.withJob entry pid).txRemain = 0 from hrem)]
  | case2 s framecnt hrem t =>
      rename_i hlast
      rw [sendConsecutive, dif_neg (show (s.withJob entry pid).txRemain ≠ 0 from hrem)]
      exact if_pos hlast
  | case3 s framecnt hrem t hmore =>
      rename_i hblock
      rw [sendConsecutive, dif_neg (show (s.withJob entry pid).txRemain ≠ 0 from hrem)]
      exact (if_neg hmore).trans (if_pos hblock)
  | case4 s framecnt hrem t hmore hblock =>
      rename_i ih
      rw [sendConsecutive, dif_neg (show (s.withJob entry pid).txRemain ≠ 0 from hrem)]
      refine (if_neg hmore).trans ((if_neg hblock).trans ?_)
      exact congrArg (fun r : Poller × List Effect =>
        (r.1, Effect.write (consecutiveFrame s f) :: r.2)) ih

/-- Nor do the flow control frames of a schedule. -/
theorem writes_receive_withJob {s : Poller} {msgid : UInt32} {f : CanFrame}
    (h : FlowFrame s msgid f) (entry : PollPid) (pid : UInt16) :
    pollerIsotpReceive (s.withJob entry pid) f msgid =
      ((pollerIsotpReceive s f msgid).1.withJob entry pid, (pollerIsotpReceive s f msgid).2) := by
  have h' : FlowFrame (s.withJob entry pid) msgid f := ⟨h.listens, h.type, h.command⟩
  rw [receive_flowFrame h, receive_flowFrame h', sendConsecutive_withJob]
  change (if s.txRemain = 0 then _ else if f.u8 s.protocol.frOffset &&& 0x0f = 0 then _ else _) = _
  split
  · rfl
  · split <;> rfl

/-- A schedule has the same frames sent. -/
theorem receiveAll_withJob {msgid : UInt32} (entry : PollPid) (pid : UInt16)
    (flow : List CanFrame) :
    ∀ {s : Poller}, (∀ f ∈ flow, FlowFrame s msgid f) →
      (receiveAll msgid (s.withJob entry pid) flow).2 = (receiveAll msgid s flow).2 := by
  induction flow with
  | nil => exact fun _ => rfl
  | cons f flow ih =>
      intro s hflow
      obtain ⟨hf, hrest⟩ := List.forall_mem_cons.mp hflow
      obtain ⟨remain, offset, frame, hstate⟩ := receive_flowctrl msgid hf.type
      have hflow' : ∀ g ∈ flow, FlowFrame (pollerIsotpReceive s f msgid).1 msgid g := by
        rw [hstate]
        exact fun g hg => ⟨(hrest g hg).listens, (hrest g hg).type, (hrest g hg).command⟩
      rw [receiveAll_cons, receiveAll_cons, writes_receive_withJob hf, ih hflow']

/-- **Entries for the same request** have the same frames sent, over every schedule. -/
theorem transmitted_congr {e₁ e₂ : PollPid} (h : SameRequest e₁ e₂) {s : Poller}
    {msgid : UInt32} {flow : List CanFrame}
    (hflow : ∀ f ∈ flow, FlowFrame (pollerSendEntry s e₁).1 msgid f) :
    transmitted s e₂ msgid flow = transmitted s e₁ msgid flow := by
  rw [transmitted, transmitted, pollerSendEntry_congr h s,
    receiveAll_withJob e₂ e₂.args.pid flow hflow]

/-! ### Payloads that are not sent -/

/-- Without payload, a schedule has nothing sent. -/
theorem receiveAll_of_nothing {msgid : UInt32} (flow : List CanFrame) :
    ∀ {s : Poller}, s.txRemain = 0 → (∀ f ∈ flow, FlowFrame s msgid f) →
      writesOf (receiveAll msgid s flow).2 = [] := by
  induction flow with
  | nil => exact fun _ _ => rfl
  | cons f flow ih =>
      intro s hrem hflow
      obtain ⟨hf, hrest⟩ := List.forall_mem_cons.mp hflow
      have hignored : pollerIsotpReceive s f msgid = (s, .ignored) := by
        rw [receive_flowFrame hf, if_pos hrem]
      rw [receiveAll_cons, hignored]
      exact ih hrem hrest

/-- Without payload, requests with the same header start by the same frame. -/
theorem start_of_nothing (s : Poller) (e₁ e₂ : PollPid) (htx : e₁.txmoduleid = e₂.txmoduleid)
    (hrx : e₁.rxmoduleid = e₂.rxmoduleid) (hprotocol : e₁.protocol = e₂.protocol)
    (htype : e₁.type = e₂.type) (hpid : e₁.args.pid = e₂.args.pid)
    (h₁ : e₁.args.txData.2 = 0) (h₂ : e₂.args.txData.2 = 0) :
    (pollerSendEntry s e₁).2 = (pollerSendEntry s e₂).2 := by
  obtain ⟨txmoduleid, rxmoduleid, type, args₁, protocol⟩ := e₁
  obtain ⟨_, _, _, args₂, _⟩ := e₂
  obtain rfl : txmoduleid = _ := htx
  obtain rfl : rxmoduleid = _ := hrx
  obtain rfl : protocol = _ := hprotocol
  obtain rfl : type = _ := htype
  change args₁.pid = args₂.pid at hpid
  change args₁.txData.2 = 0 at h₁
  change args₂.txData.2 = 0 at h₂
  rw [pollerSendEntry, pollerSendEntry, pollerIsotpStart, pollerIsotpStart, expectModules,
    expectModules]
  by_cases hbroadcast : rxmoduleid ≠ 0
  · simp only [if_pos hbroadcast, hpid, h₁, h₂, Nat.zero_min, List.take_zero]
    rfl
  · simp only [if_neg hbroadcast, hpid, h₁, h₂, Nat.zero_min, List.take_zero]
    rfl

/-- The first transport byte of a request tells its length, or that it has several
frames. -/
theorem start_head (s : Poller) {entry : PollPid} {len : ℕ}
    (hlen : len = (requestHeader entry).length + entry.args.txData.2) (hmax : len < 65536) :
    ∃ f, (pollerSendEntry s entry).2 = [.write f] ∧
      (tpBytes entry.protocol f).head? =
        if len ≤ entry.protocol.frMaxlen - 1 then some (.ofNat len)
        else some (.ofNat (0x10 + len / 256 % 16)) := by
  obtain ⟨f, hwrite, content, hcontent⟩ := startPci_prefix s hlen hmax
  refine ⟨f, hwrite, ?_⟩
  rw [startPci_eq _ _ hmax] at hcontent
  rw [← hcontent]
  split <;> rfl

/-! ### The four functions -/

/-- The entry of a raw request string made of type, PID and payload stands for the same
request as that built by `pollSingleRequest`. -/
theorem requestEntry_rawRequest (txid rxid : UInt32) (polltype : UInt8) (pid : UInt16)
    (payload : Buffer) (protocol : Protocol) (address : UInt32) :
    ∃ raw, requestEntry txid rxid ⟨address, rawRequest polltype pid payload.bytes⟩ protocol =
        some raw ∧
      SameRequest raw (pollSingleRequest txid rxid polltype pid payload protocol) := by
  have htype : polltype.toUInt16.toNat = polltype.toNat := UInt8.toNat_toUInt16 polltype
  rw [requestEntry, rawRequest]
  simp only [List.cons_append, htype]
  by_cases h16 : has16BitPid polltype.toNat = true
  · have hbytes : pidBytes polltype.toNat pid = [(pid >>> 8).toUInt8, (pid &&& 0xff).toUInt8] := by
      rw [pidBytes, if_pos h16]
    rw [if_pos h16, hbytes]
    refine ⟨_, rfl, rfl, rfl, rfl, rfl, ?_, rfl⟩
    simp only [externalArgs]
    rw [pid_of_bytes]
    rfl
  · by_cases h8 : has8BitPid polltype.toNat = true
    · have hbytes : pidBytes polltype.toNat pid = [pid.toUInt8] := by
        rw [pidBytes, if_neg h16, if_pos h8]
      rw [if_neg h16, if_pos h8, hbytes]
      refine ⟨_, rfl, rfl, rfl, rfl, rfl, ?_, rfl⟩
      simp only [externalArgs, pollSingleRequest, htype, pidBytes, if_neg h16, if_pos h8,
        UInt8.toUInt8_toUInt16]
    · have hbytes : pidBytes polltype.toNat pid = [] := by
        rw [pidBytes, if_neg h16, if_neg h8]
      rw [if_neg h16, if_neg h8, hbytes]
      refine ⟨_, rfl, rfl, rfl, rfl, rfl, ?_, rfl⟩
      simp only [externalArgs, pollSingleRequest, htype, pidBytes, if_neg h16, if_neg h8]

section SetPollPid

variable {s : Poller} {txid rxid : UInt32} {polltype : UInt8} {pid : UInt16}
  {protocol : Protocol} {payload : Buffer} {copy : UInt32}

/-- A schedule is one for all entries that expect the same modules. -/
theorem flowFrame_of_same {e₁ e₂ : PollPid} {msgid : UInt32} {f : CanFrame}
    (hrx : e₁.rxmoduleid = e₂.rxmoduleid) (hprotocol : e₁.protocol = e₂.protocol)
    (h : FlowFrame (pollerSendEntry s e₁).1 msgid f) :
    FlowFrame (pollerSendEntry s e₂).1 msgid f := by
  obtain ⟨txmoduleid₁, rxmoduleid, type₁, args₁, protocol⟩ := e₁
  obtain ⟨txmoduleid₂, _, type₂, args₂, _⟩ := e₂
  obtain rfl : rxmoduleid = _ := hrx
  obtain rfl : protocol = _ := hprotocol
  rw [pollerSendEntry, pollerIsotpStart, expectModules] at h ⊢
  by_cases hbroadcast : rxmoduleid ≠ 0
  · simp only [if_pos hbroadcast] at h ⊢
    exact ⟨h.listens, h.type, h.command⟩
  · simp only [if_neg hbroadcast] at h ⊢
    exact ⟨h.listens, h.type, h.command⟩

/-- Built by `setPollPid`, a request has no payload: its tag is not that of an external
one. -/
theorem txData_setPollPid :
    (setPollPid txid rxid polltype pid protocol payload copy).args.txData.2 = 0 := rfl

theorem txData_pollSingleRequest :
    (pollSingleRequest txid rxid polltype pid payload protocol).args.txData.2 =
      min payload.bytes.length maxPayload := by
  change (UInt16.ofNat (min payload.bytes.length maxPayload)).toNat = _
  rw [UInt16.toNat_ofNat', maxPayload]
  omega

theorem txRemain_of_nothing {entry : PollPid} (h : entry.args.txData.2 = 0) :
    (pollerSendEntry s entry).1.txRemain = 0 := by
  obtain ⟨-, hhdr⟩ := length_requestHeader entry
  obtain ⟨-, -, -, -, -, -, -, hremain⟩ := pollerSendEntry_spec s
    (Eq.refl ((requestHeader entry).length + entry.args.txData.2)) (by omega) rfl
  rw [hremain, h, Nat.zero_sub]
  rfl

/-- With a payload, the first frames differ: in their first transport byte, one announces
the header alone. -/
theorem start_setPollPid_ne (hne : payload.bytes ≠ []) :
    ∃ f g, (pollerSendEntry s (setPollPid txid rxid polltype pid protocol payload copy)).2 =
        [.write f] ∧
      (pollerSendEntry s (pollSingleRequest txid rxid polltype pid payload protocol)).2 =
        [.write g] ∧ f ≠ g := by
  have hpos : 0 < payload.bytes.length := List.length_pos_of_ne_nil hne
  have hcap := protocol.frMaxlen_cases
  obtain ⟨-, hhdr⟩ := length_requestHeader
    (pollSingleRequest txid rxid polltype pid payload protocol)
  obtain ⟨n, hn⟩ : ∃ n, n = (requestHeader
    (pollSingleRequest txid rxid polltype pid payload protocol)).length := ⟨_, rfl⟩
  rw [← hn] at hhdr
  obtain ⟨m, hm⟩ : ∃ m, m = min payload.bytes.length maxPayload := ⟨_, rfl⟩
  rw [maxPayload] at hm
  have hlong : n + m = (requestHeader
      (pollSingleRequest txid rxid polltype pid payload protocol)).length +
        (pollSingleRequest txid rxid polltype pid payload protocol).args.txData.2 := by
    rw [txData_pollSingleRequest, maxPayload, hn, hm]
  have hshort : n = (requestHeader (setPollPid txid rxid polltype pid protocol payload
      copy)).length + (setPollPid txid rxid polltype pid protocol payload copy).args.txData.2 := hn
  obtain ⟨f, hf, hhead⟩ := start_head s hshort (by omega)
  obtain ⟨g, hg, hhead'⟩ := start_head s hlong (by omega)
  refine ⟨f, g, hf, hg, ?_⟩
  rintro rfl
  have hheads := hhead.symm.trans hhead'
  change (if n ≤ protocol.frMaxlen - 1 then some (UInt8.ofNat n) else _) =
    if n + m ≤ protocol.frMaxlen - 1 then some (UInt8.ofNat (n + m))
    else some (UInt8.ofNat (0x10 + (n + m) / 256 % 16)) at hheads
  rw [if_pos (by omega)] at hheads
  have hnat (k : ℕ) (hk : k < 256) (h : UInt8.ofNat n = UInt8.ofNat k) : n = k := by
    have := congrArg UInt8.toNat h
    rw [UInt8.toNat_ofNat', UInt8.toNat_ofNat'] at this
    omega
  split at hheads
  · have := hnat _ (by omega) (Option.some.inj hheads)
    omega
  · have := hnat _ (by omega) (Option.some.inj hheads)
    omega

end SetPollPid

/-- **Agreement.** For every type, PID and payload, and whatever schedule the peer sends:
`PollSingleRequest` from type, PID and payload, and either function from the raw request
string, have the same frames sent. `SetPollPid` from type, PID and payload does so exactly
when the payload is empty. -/
theorem oneOff_agree_iff (s : Poller) (txid rxid : UInt32) (polltype : UInt8) (pid : UInt16)
    (payload request : Buffer) (protocol : Protocol) (copy : UInt32)
    (hrequest : request.bytes = rawRequest polltype pid payload.bytes) :
    ∃ raw copied, loadPollRequest txid rxid request protocol = some raw ∧
      setPollPidRequest txid rxid request protocol copy = some copied ∧
      ∀ msgid flow, (∀ f ∈ flow, FlowFrame (pollerSendEntry s raw).1 msgid f) →
        transmitted s copied msgid flow = transmitted s raw msgid flow ∧
        transmitted s (pollSingleRequest txid rxid polltype pid payload protocol) msgid flow =
          transmitted s raw msgid flow ∧
        (transmitted s (setPollPid txid rxid polltype pid protocol payload copy) msgid flow =
            transmitted s raw msgid flow ↔
          payload.bytes = []) := by
  obtain ⟨address, bytes⟩ := request
  obtain rfl : bytes = _ := hrequest
  obtain ⟨raw, hraw, hsame⟩ := requestEntry_rawRequest txid rxid polltype pid payload protocol
    address
  obtain ⟨copied, hcopied, hsame'⟩ := requestEntry_rawRequest txid rxid polltype pid payload
    protocol copy
  refine ⟨raw, copied, hraw, hcopied, fun msgid flow hflow => ?_⟩
  have hsingle := transmitted_congr hsame hflow
  refine ⟨transmitted_congr (hsame.of_common hsame') hflow, hsingle, ?_⟩
  rw [← hsingle]
  constructor
  · intro h
    by_contra hne
    obtain ⟨f, g, hf, hg, hfg⟩ := start_setPollPid_ne hne
    rw [transmitted, transmitted, hf, hg] at h
    exact hfg (List.cons.inj h).1
  · intro hnil
    have hsingleNil : (pollSingleRequest txid rxid polltype pid payload
        protocol).args.txData.2 = 0 := by
      rw [txData_pollSingleRequest, hnil]
      rfl
    have hflowSingle : ∀ f ∈ flow, FlowFrame (pollerSendEntry s
        (pollSingleRequest txid rxid polltype pid payload protocol)).1 msgid f :=
      fun f hf => flowFrame_of_same hsame.rxmoduleid hsame.protocol (hflow f hf)
    have hflowSet : ∀ f ∈ flow, FlowFrame (pollerSendEntry s
        (setPollPid txid rxid polltype pid protocol payload copy)).1 msgid f :=
      fun f hf => flowFrame_of_same hsame.rxmoduleid hsame.protocol (hflow f hf)
    have hsetNil : (setPollPid txid rxid polltype pid protocol payload copy).args.txData.2 = 0 :=
      txData_setPollPid
    have hstart : (pollerSendEntry s (setPollPid txid rxid polltype pid protocol payload
        copy)).2 = (pollerSendEntry s (pollSingleRequest txid rxid polltype pid payload
          protocol)).2 :=
      start_of_nothing s (setPollPid txid rxid polltype pid protocol payload copy)
        (pollSingleRequest txid rxid polltype pid payload protocol) rfl rfl rfl rfl rfl hsetNil
        hsingleNil
    rw [transmitted, transmitted, hstart,
      receiveAll_of_nothing flow (txRemain_of_nothing hsingleNil) hflowSingle,
      receiveAll_of_nothing flow (txRemain_of_nothing hsetNil) hflowSet]

/-- One byte of payload, and the raw request string for it. -/
theorem oneOff_agree_one :
    ∃ raw, loadPollRequest 0x7e0 0x7e8 ⟨0x100, [0x22, 0x12, 0x34, 7]⟩ .isotpStd = some raw ∧
      transmitted listed (pollSingleRequest 0x7e0 0x7e8 0x22 0x1234 ⟨0x200, [7]⟩ .isotpStd) 0x7e8 []
        = transmitted listed raw 0x7e8 [] := by
  obtain ⟨raw, copied, hraw, -, hagree⟩ := oneOff_agree_iff listed 0x7e0 0x7e8 0x22 0x1234
    ⟨0x200, [7]⟩ ⟨0x100, [0x22, 0x12, 0x34, 7]⟩ .isotpStd 0x300 (by decide)
  exact ⟨raw, hraw, (hagree 0x7e8 [] (List.forall_mem_nil _)).2.1⟩

/-- From type, PID and payload, `SetPollPid` loses the payload: it has `03 22 12 34` sent in
place of `04 22 12 34 07`. -/
theorem oneOff_payload_lost :
    ∃ raw, loadPollRequest 0x7e0 0x7e8 ⟨0x100, [0x22, 0x12, 0x34, 7]⟩ .isotpStd = some raw ∧
      transmitted listed (setPollPid 0x7e0 0x7e8 0x22 0x1234 .isotpStd ⟨0x200, [7]⟩ 0x300) 0x7e8 []
        ≠ transmitted listed raw 0x7e8 [] :=
  ⟨_, rfl, by decide⟩

end Ovms.Poll
