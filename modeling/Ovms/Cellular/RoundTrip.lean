import Ovms.Cellular.GsmMux

/-!
# Frames that Arrive

What `GsmMux::tx` sends and `GsmMux::Process` receives (`components/ovms_cellular/src/gsmmux.cpp`):
a frame that fits the array of the receiver is told by its length, so its payload may have any
bytes. Two kinds of frames do not arrive. The address of channel 62 is the flag itself, and is
passed over like the end of a frame before it. The length of a payload of 2^15 bytes and more does
not fit its two bytes.

A frame can be sent when its channel is open, when it fits the array, and when its payload fits
what is then free of the buffer of the channel.

## Main results

* `Ready.frame`: a frame is received.
* `Ready.frames`: so are frames one after the other.
* `Ready.exists_lost`: what a frame of the two kinds can do.
* `arrives_iff_clear`: when all frames that can be sent arrive.
* `ready_of_run`: a multiplexer awaits frames.
-/

open Lib Ovms.Buffer

namespace Ovms.Cellular

variable {incoming : GsmMuxChannel → OvmsBuffer}

/-! ### What can be sent -/

/-- A payload is delivered to a channel. -/
def deliverTo (incoming : GsmMuxChannel → OvmsBuffer) (channels : List GsmMuxChannel)
    (f : ℕ × List UInt8) : List GsmMuxChannel :=
  match channels[f.1]? with
  | none => channels
  | some c => channels.set f.1 (c.deliver incoming f.2)

/-- Frames that can be sent, for an array of a size, to channels: a channel is open, the frame
fits the array, and its payload fits what is free of the buffer of the channel. -/
def Fits (incoming : GsmMuxChannel → OvmsBuffer) (framesize : ℕ) :
    List GsmMuxChannel → List (ℕ × List UInt8) → Prop
  | _, [] => True
  | channels, f :: frames =>
      (∃ c, channels[f.1]? = some c ∧ c.state = .opened ∧ (tx f.1 f.2).length ≤ framesize ∧
        f.2.length ≤ c.buffer.freeSpace) ∧
      Fits incoming framesize (deliverTo incoming channels f) frames

/-- The bytes of frames. -/
def wire (frames : List (ℕ × List UInt8)) : List UInt8 := frames.flatMap fun f => tx f.1 f.2

/-- The payloads for a channel, one behind the other. -/
def payloads (k : ℕ) (frames : List (ℕ × List UInt8)) : List UInt8 :=
  frames.flatMap fun f => if f.1 = k then f.2 else []

namespace GsmMux

variable {m m' m₀ : GsmMux}

/-- The multiplexer awaits a frame. An open channel has a number of six bits. -/
structure Ready (m : GsmMux) : Prop where
  inv : Inv m
  framepos : m.framepos = 0
  open_lt : ∀ (k : ℕ) (c : GsmMuxChannel), m.channels[k]? = some c → c.state = .opened → k < 64

/-- The buffers of the channels receive the payloads of frames, and no framing error is counted. -/
def Arrives (incoming : GsmMuxChannel → OvmsBuffer) (m : GsmMux) (chunks : List (List UInt8))
    (frames : List (ℕ × List UInt8)) : Prop :=
  ∃ m', chunks.foldlM (process incoming) m = some m' ∧ m'.framingerrors = m.framingerrors ∧
    ∀ (k : ℕ) (c : GsmMuxChannel), m.channels[k]? = some c →
      ∃ c', m'.channels[k]? = some c' ∧ c'.received = c.received ++ payloads k frames

/-- No frame that can be sent is for channel 62, or has a payload of 2^15 bytes. -/
def Clear (incoming : GsmMuxChannel → OvmsBuffer) (m : GsmMux) : Prop :=
  0 < m.frame.length ∧ ∀ frames, Fits incoming m.frame.length m.channels frames →
    ∀ f ∈ frames, f.1 ≠ 62 ∧ f.2.length < 2 ^ 15

/-! ### Processing -/

theorem process_chunks (m : GsmMux) (chunks : List (List UInt8)) :
    chunks.foldlM (process incoming) m = m.process incoming chunks.flatten := by
  induction chunks generalizing m with
  | nil => rfl
  | cons chunk chunks ih =>
      rw [List.foldlM_cons, List.flatten_cons, process, process, List.foldlM_append]
      exact congrArg (Option.bind _) (funext ih)

theorem process_append (m : GsmMux) (a b : List UInt8) :
    m.process incoming (a ++ b) = (m.process incoming a).bind fun m => m.process incoming b := by
  rw [process, List.foldlM_append]
  rfl

theorem process_cons (m : GsmMux) (b : UInt8) (bytes : List UInt8) :
    m.process incoming (b :: bytes)
      = (m.next incoming b).bind fun m => m.process incoming bytes := by
  rw [process, List.foldlM_cons]
  rfl

theorem next_eq_byte (h : m.framepos ≠ m.frame.length) (b : UInt8) :
    m.next incoming b = m.byte incoming b := by
  rw [next, room, if_neg h]
  rfl

/-- Between frames, all bytes but the flag are passed over. -/
theorem process_noise (hpos : m.framepos = 0) (hlength : 0 < m.frame.length)
    {noise : List UInt8} (h : sof ∉ noise) : m.process incoming noise = some m := by
  induction noise with
  | nil => rfl
  | cons b noise ih =>
      rw [List.mem_cons, not_or] at h
      rw [process_cons, next_eq_byte (by omega), byte, if_pos ⟨hpos, Ne.symm h.1⟩, Option.bind_some,
        ih h.2]

/-! ### Part of a frame -/

/-- Some bytes of a frame have arrived, at a multiplexer that awaited it. -/
structure Partial (m₀ : GsmMux) (bytes : List UInt8) (m : GsmMux) : Prop where
  length : m.frame.length = m₀.frame.length
  framepos : m.framepos = bytes.length
  taken : m.frame.take bytes.length = bytes
  channels : m.channels = m₀.channels
  framingerrors : m.framingerrors = m₀.framingerrors
  channelcount : m.channelcount = m₀.channelcount

theorem partial_nil (hpos : m.framepos = 0) : Partial m [] m :=
  ⟨rfl, hpos, rfl, rfl, rfl, rfl⟩

/-- One more byte. -/
theorem Partial.store {bytes : List UInt8} (h : Partial m₀ bytes m)
    (hlength : bytes.length < m₀.frame.length) (b : UInt8) :
    Partial m₀ (bytes ++ [b]) (m.store b) := by
  have hlt : bytes.length < m.frame.length := h.length ▸ hlength
  refine ⟨by simpa using h.length, by simpa using h.framepos, ?_, by simpa using h.channels,
    by simpa using h.framingerrors, by simpa using h.channelcount⟩
  rw [frame_store, h.framepos, List.length_append, List.length_singleton,
    List.take_succ_eq_append_getElem (by simpa using hlt), List.take_set_of_le le_rfl, h.taken]
  simp

variable (incoming) in
/-- A byte that does not complete the frame. -/
theorem Partial.next {bytes : List UInt8} (h : Partial m₀ bytes m)
    (hlength : bytes.length < m₀.frame.length) {b : UInt8} (hskip : bytes.length = 0 → b = sof)
    (hflag : bytes.length = 1 → b ≠ sof) (hend : (m.store b).framelen ≠ bytes.length + 1) :
    m.next incoming b = some (m.store b) ∧ Partial m₀ (bytes ++ [b]) (m.store b) := by
  have hlt : bytes.length < m.frame.length := h.length ▸ hlength
  have hpos := h.framepos
  refine ⟨?_, h.store hlength b⟩
  rw [next_eq_byte (by omega), byte_eq (hpos ▸ hskip) (hpos ▸ hflag) (by omega), if_neg]
  rw [framepos_store, hpos]
  exact hend.symm

/-- The header has arrived: the length is known, and where the data start. -/
structure Headed (m₀ : GsmMux) (bytes : List UInt8) (framelen frameipos : ℕ) (m : GsmMux) :
    Prop extends Partial m₀ bytes m where
  long : 4 ≤ bytes.length
  framelen : m.framelen = framelen
  frameipos : m.frameipos = frameipos
  framemorelen : m.framemorelen = false

variable (incoming) in
/-- Behind the header, bytes are stored until the length is reached. -/
theorem Headed.process {bytes : List UInt8} {framelen frameipos : ℕ}
    (h : Headed m₀ bytes framelen frameipos m) (data : List UInt8)
    (hlen : bytes.length + data.length < framelen)
    (hroom : bytes.length + data.length ≤ m₀.frame.length) :
    ∃ m', m.process incoming data = some m' ∧
      Headed m₀ (bytes ++ data) framelen frameipos m' := by
  induction data generalizing m bytes with
  | nil => exact ⟨m, rfl, by rwa [List.append_nil]⟩
  | cons b data ih =>
      rw [List.length_cons] at hlen hroom
      have hlong := h.long
      have hpos := h.framepos
      obtain ⟨hlen', hipos', hmore'⟩ := store_other (m := m) (by omega)
        (fun _ => h.framemorelen) b
      obtain ⟨hnext, hpart⟩ := h.toPartial.next incoming (b := b) (by omega)
        (by omega) (by omega) (by rw [hlen', h.framelen]; omega)
      have hheaded : Headed m₀ (bytes ++ [b]) framelen frameipos (m.store b) :=
        ⟨hpart, by simp; omega, hlen'.trans h.framelen, hipos'.trans h.frameipos,
          hmore'.trans h.framemorelen⟩
      obtain ⟨m', hm', hheaded'⟩ := ih hheaded (by simp; omega) (by simp; omega)
      refine ⟨m', ?_, by simpa using hheaded'⟩
      rw [process_cons, hnext, Option.bind_some, hm']

/-! ### The header -/

theorem address_ne_sof {k : ℕ} (hk : k < 64) (h62 : k ≠ 62) : UInt8.ofNat (k * 4 + 1) ≠ sof := by
  intro h
  have := congrArg UInt8.toNat h
  rw [UInt8.toNat_ofNat', show sof.toNat = 249 from rfl] at this
  omega

theorem address_shift {k : ℕ} (hk : k < 64) : (UInt8.ofNat (k * 4 + 1) >>> 2).toNat = k := by
  rw [UInt8.toNat_shiftRight, UInt8.toNat_ofNat', Nat.shiftRight_eq_div_pow]
  simp
  omega

/-- The length of a frame, as its header has it. -/
def announced (size : ℕ) : ℕ :=
  if size < 128 then size + 6 else size % 128 + 7 + size / 128 % 256 * 128

theorem announced_eq {data : List UInt8} (h : data.length < 2 ^ 15) (k : ℕ) :
    announced data.length = (tx k data).length := by
  rw [announced, tx, header]
  by_cases hsize : data.length < 128
  · simp [hsize]
  · simp [hsize]
    omega

/-- An odd byte of the length is the only one. -/
theorem shortLength {size : ℕ} (h : size < 128) : UInt8.ofNat (size * 2 + 1) &&& 1 ≠ 0 ∧
    (UInt8.ofNat (size * 2 + 1) >>> 1).toNat = size := by
  constructor
  · intro hzero
    have := congrArg UInt8.toNat hzero
    rw [UInt8.toNat_and, UInt8.toNat_ofNat'] at this
    simp [Nat.and_one_is_mod] at this
  · rw [UInt8.toNat_shiftRight, UInt8.toNat_ofNat', Nat.shiftRight_eq_div_pow]
    simp
    omega

/-- An even byte of the length is the first of two. -/
theorem longLength (size : ℕ) : UInt8.ofNat (size % 128 * 2) &&& 1 = 0 ∧
    (UInt8.ofNat (size % 128 * 2) >>> 1).toNat = size % 128 := by
  constructor
  · apply UInt8.toNat_inj.mp
    rw [UInt8.toNat_and, UInt8.toNat_ofNat']
    simp [Nat.and_one_is_mod]
  · rw [UInt8.toNat_shiftRight, UInt8.toNat_ofNat', Nat.shiftRight_eq_div_pow]
    simp
    omega

variable (incoming) in
/-- A byte in front of the length. -/
theorem Partial.early {bytes : List UInt8} (h : Partial m₀ bytes m) (hlen : m.framelen = 0)
    (hmore : m.framemorelen = false) (hshort : bytes.length < 3)
    (hroom : bytes.length < m₀.frame.length) {b : UInt8} (hskip : bytes.length = 0 → b = sof)
    (hflag : bytes.length = 1 → b ≠ sof) :
    ∃ m', m.next incoming b = some m' ∧ Partial m₀ (bytes ++ [b]) m' ∧ m'.framelen = 0 ∧
      m'.framemorelen = false := by
  have hpos := h.framepos
  obtain ⟨hlen', -, hmore'⟩ := store_other (m := m) (by omega) (fun _ => hmore) b
  obtain ⟨hnext, hpart⟩ := h.next incoming hroom hskip hflag
    (by rw [hlen', hlen]; omega)
  exact ⟨_, hnext, hpart, hlen'.trans hlen, hmore'.trans hmore⟩

variable (incoming) in
/-- The flag, an address that is not the flag, and the control byte have arrived. -/
theorem Ready.start (h : Ready m) (hroom : 6 ≤ m.frame.length) {address : UInt8}
    (haddress : address ≠ sof) (control : UInt8) :
    ∃ m', m.process incoming [sof, address, control] = some m' ∧
      Partial m [sof, address, control] m' := by
  obtain ⟨hlen, hmore⟩ := h.inv.short (by rw [h.framepos]; omega)
  obtain ⟨m₁, hm₁, hp₁, hlen₁, hmore₁⟩ := (partial_nil h.framepos).early incoming
    (b := sof) hlen hmore (by simp) (by simp; omega) (by simp) (by simp)
  obtain ⟨m₂, hm₂, hp₂, hlen₂, hmore₂⟩ := hp₁.early incoming (b := address) hlen₁
    hmore₁ (by simp) (by simp; omega) (by simp) (by simp [haddress])
  obtain ⟨m₃, hm₃, hp₃, -⟩ := hp₂.early incoming (b := control) hlen₂ hmore₂
    (by simp) (by simp; omega) (by simp) (by simp)
  refine ⟨m₃, ?_, hp₃⟩
  rw [process_cons, hm₁, Option.bind_some, process_cons, hm₂, Option.bind_some, process_cons, hm₃]
  rfl

variable (incoming) in
/-- A length of one byte. -/
theorem Partial.shortLength {bytes : List UInt8} (h : Partial m₀ bytes m)
    (hthree : bytes.length = 3) (hroom : 4 ≤ m₀.frame.length) {b : UInt8} (hb : b &&& 1 ≠ 0) :
    ∃ m', m.process incoming [b] = some m' ∧
      Headed m₀ (bytes ++ [b]) ((b >>> 1).toNat + 6) 4 m' := by
  obtain ⟨hlen, hipos, hmore⟩ := store_length (m := m) (h.framepos.trans hthree) b
  rw [if_pos hb] at hlen hipos
  obtain ⟨hnext, hpart⟩ := h.next incoming (b := b) (by omega) (by omega)
    (by omega) (by rw [hlen]; omega)
  refine ⟨_, ?_, hpart, by simp; omega, hlen, hipos, by simp [hmore, hb]⟩
  rw [process_cons, hnext]
  rfl

variable (incoming) in
/-- A length of two bytes. -/
theorem Partial.longLength {bytes : List UInt8} (h : Partial m₀ bytes m)
    (hthree : bytes.length = 3) (hroom : 5 ≤ m₀.frame.length) {b c : UInt8} (hb : b &&& 1 = 0) :
    ∃ m', m.process incoming [b, c] = some m' ∧
      Headed m₀ (bytes ++ [b, c]) ((b >>> 1).toNat + 7 + c.toNat * 128) 5 m' := by
  obtain ⟨hlen, hipos, hmore⟩ := store_length (m := m) (h.framepos.trans hthree) b
  rw [if_neg (by simpa using hb)] at hlen hipos
  obtain ⟨hnext, hpart⟩ := h.next incoming (b := b) (by omega) (by omega)
    (by omega) (by rw [hlen]; omega)
  have hfour : (bytes ++ [b]).length = 4 := by simp [hthree]
  obtain ⟨hlen', hipos', hmore'⟩ := store_more (m := m.store b) (hpart.framepos.trans hfour)
    (by simp [hmore, hb]) c
  obtain ⟨hnext', hpart'⟩ := hpart.next incoming (b := c) (by omega) (by omega)
    (by omega) (by rw [hlen', hlen]; omega)
  rw [List.append_assoc] at hpart'
  refine ⟨_, ?_, hpart', by simp; omega, ?_, hipos'.trans hipos, hmore'⟩
  · rw [process_cons, hnext, Option.bind_some, process_cons, hnext']
    rfl
  · rw [hlen', hlen]

variable (incoming) in
/-- The header of a frame has arrived. -/
theorem Ready.header (h : Ready m) {k : ℕ} (hk : k < 64) (h62 : k ≠ 62) (size : ℕ)
    (hroom : (header k size).length + 3 ≤ m.frame.length) :
    ∃ m', m.process incoming (sof :: header k size) = some m' ∧
      Headed m (sof :: header k size) (announced size) ((header k size).length + 1) m' := by
  have hsix : 6 ≤ m.frame.length := by
    refine le_trans ?_ hroom
    rw [Cellular.header]
    split <;> simp
  obtain ⟨m₁, hm₁, hp₁⟩ := h.start incoming hsix (address_ne_sof hk h62) uihPf
  have hstart : ∀ rest, m.process incoming ([sof, UInt8.ofNat (k * 4 + 1), uihPf] ++ rest)
      = m₁.process incoming rest := fun rest => by
    rw [process_append, hm₁, Option.bind_some]
  by_cases hsize : size < 128
  · obtain ⟨hodd, hshift⟩ := Cellular.GsmMux.shortLength hsize
    obtain ⟨m₂, hm₂, hh₂⟩ := hp₁.shortLength incoming rfl (by omega) hodd
    rw [hshift] at hh₂
    simp only [Cellular.header, announced, if_pos hsize]
    exact ⟨m₂, (hstart _).trans hm₂, hh₂⟩
  · obtain ⟨heven, hshift⟩ := Cellular.GsmMux.longLength size
    obtain ⟨m₂, hm₂, hh₂⟩ := hp₁.longLength incoming (c := UInt8.ofNat (size / 128))
      rfl (by omega) heven
    rw [hshift, UInt8.toNat_ofNat'] at hh₂
    simp only [Cellular.header, announced, if_neg hsize]
    exact ⟨m₂, (hstart _).trans hm₂, hh₂⟩

/-! ### A frame -/

theorem state_deliver (payload : List UInt8) (c : GsmMuxChannel) :
    (c.deliver incoming payload).state = c.state := by
  change (payload.foldl GsmMuxChannel.push c).state = c.state
  induction payload generalizing c with
  | nil => rfl
  | cons b payload ih => exact (ih _).trans rfl

/-- A payload that fits is received. -/
theorem received_deliver {payload : List UInt8} {c : GsmMuxChannel}
    (h : payload.length ≤ c.buffer.freeSpace) :
    (c.deliver incoming payload).received = c.received ++ payload := by
  change (payload.foldl GsmMuxChannel.push c).received = c.received ++ payload
  induction payload generalizing c with
  | nil => simp
  | cons b payload ih =>
      rw [List.length_cons, OvmsBuffer.freeSpace] at h
      have hpush : c.buffer.push b
          = (OvmsBuffer.store { c.buffer with used := c.buffer.used + 1 } b, true) := by
        rw [OvmsBuffer.push, if_neg (by omega)]
      have hrest : payload.length ≤ (c.push b).buffer.freeSpace := by
        rw [GsmMuxChannel.push, hpush, OvmsBuffer.freeSpace]
        change payload.length ≤ c.buffer.size - (c.buffer.used + 1)
        omega
      rw [List.foldl_cons, ih hrest, GsmMuxChannel.push, hpush]
      simp

variable (incoming) in
/-- The frame in the array, whole: its parts are read. -/
theorem processFrame_tx {k : ℕ} {payload tail : List UInt8} {c : GsmMuxChannel} (hk : k < 64)
    (hframe : m.frame = tx k payload ++ tail) (hlen : m.framelen = (tx k payload).length)
    (hipos : m.frameipos = (header k payload.length).length + 1)
    (hc : m.channels[k]? = some c) (hopen : c.state = .opened) :
    m.processFrame incoming =
      some { m.reset with channels := m.channels.set k (c.deliver incoming payload) } := by
  have hlength : (tx k payload).length = (header k payload.length).length + payload.length + 3 := by
    simp [tx]
    omega
  have haddress : m.frame[1]? = some (UInt8.ofNat (k * 4 + 1)) := by
    rw [hframe]
    rfl
  have hcontrol : m.frame[2]? = some uihPf := by
    rw [hframe]
    rfl
  have hheader : readBlock m.frame 1 (m.frameipos - 1) = some (header k payload.length) := by
    rw [readBlock_eq_some (by rw [hframe, List.length_append]; omega), hframe, hipos,
      Nat.add_sub_cancel]
    simp [tx]
  have hfcs : m.frame[m.framelen - 2]? = some (checksum (header k payload.length)) := by
    have hsplit : m.frame = (sof :: (header k payload.length ++ payload)) ++
        (checksum (header k payload.length) :: sof :: tail) := by
      simp [hframe, tx]
    rw [hsplit, List.getElem?_append_right (by simp; omega)]
    have hindex : m.framelen - 2 - (sof :: (header k payload.length ++ payload)).length = 0 := by
      simp
      omega
    rw [hindex]
    rfl
  have hpayload : readBlock m.frame m.frameipos (m.framelen - 2 - m.frameipos) = some payload := by
    have hsplit : m.frame = (sof :: header k payload.length) ++
        (payload ++ (checksum (header k payload.length) :: sof :: tail)) := by
      simp [hframe, tx]
    have hcount : m.framelen - 2 - m.frameipos = payload.length := by omega
    rw [readBlock_eq_some (by rw [hframe, List.length_append]; omega), hcount, hsplit, hipos]
    simp
  rw [processFrame, haddress, hheader, hfcs]
  simp only [Option.bind_eq_bind, Option.bind_some, ne_eq, not_true_eq_false, if_false]
  rw [address_shift hk, hc, Option.bind_some, channelFrame, hopen]
  simp only [data, hcontrol, hpayload, Option.bind_eq_bind, Option.bind_some, true_or, if_true]
  rfl

variable (incoming) in
/-- **A frame** for an open channel but 62, with a length of 15 bits, is received. -/
theorem Ready.frame (h : Ready m) {k : ℕ} {payload : List UInt8} {c : GsmMuxChannel}
    (hc : m.channels[k]? = some c) (hopen : c.state = .opened)
    (hroom : (tx k payload).length ≤ m.frame.length) (h62 : k ≠ 62)
    (hlength : payload.length < 2 ^ 15) :
    ∃ m', m.process incoming (tx k payload) = some m' ∧ Ready m' ∧
      m'.frame.length = m.frame.length ∧ m'.framingerrors = m.framingerrors ∧
      m'.channels = m.channels.set k (c.deliver incoming payload) := by
  have hk := h.open_lt k c hc hopen
  have hannounced := announced_eq hlength k
  have htx : tx k payload = (sof :: Cellular.header k payload.length) ++
      (payload ++ [checksum (Cellular.header k payload.length)]) ++ [sof] := by
    simp [tx]
  have htotal := congrArg List.length htx
  simp only [List.length_append, List.length_cons, List.length_nil] at htotal
  obtain ⟨m₁, hm₁, hh₁⟩ := h.header incoming hk h62 payload.length (by omega)
  obtain ⟨m₂, hm₂, hh₂⟩ := hh₁.process incoming
    (payload ++ [checksum (Cellular.header k payload.length)])
    (by simp; omega) (by simp; omega)
  -- the last flag completes the frame
  have hbytes := hh₂.framepos
  simp only [List.length_append, List.length_cons, List.length_nil] at hbytes
  have hlong := hh₂.long
  have hpos₂ : m₂.framepos + 1 = (tx k payload).length := by omega
  obtain ⟨hlen₃, hipos₃, -⟩ := store_other (m := m₂) (by have := hh₂.framepos; omega)
    (fun _ => hh₂.framemorelen) sof
  have hp₃ := hh₂.toPartial.store (by have := hh₂.framepos; omega) sof
  rw [← htx] at hp₃
  have hframe : (m₂.store sof).frame = tx k payload ++ (m₂.store sof).frame.drop
      (tx k payload).length := by
    conv_lhs => rw [← List.take_append_drop (tx k payload).length (m₂.store sof).frame, hp₃.taken]
  have hend : (m₂.store sof).framepos = (m₂.store sof).framelen := by
    rw [framepos_store, hlen₃, hh₂.framelen, hannounced, hpos₂]
  have hprocessed := processFrame_tx incoming hk hframe
    (by rw [hlen₃, hh₂.framelen, hannounced]) (by rw [hipos₃, hh₂.frameipos])
    (by rw [hp₃.channels]; exact hc) hopen
  have hm₃ : m₂.next incoming sof = (m₂.store sof).processFrame incoming := by
    rw [next_eq_byte (by rw [hh₂.length]; omega), byte_eq (fun _ => rfl)
      (by have := hh₂.framepos; omega) (by rw [hh₂.length]; omega), if_pos hend, if_pos rfl]
  have hm' : m.process incoming (tx k payload) =
      some { (m₂.store sof).reset with
        channels := (m₂.store sof).channels.set k (c.deliver incoming payload) } := by
    rw [htx, process_append, process_append, hm₁, Option.bind_some, hm₂, Option.bind_some,
      process_cons, hm₃, hprocessed]
    rfl
  have hchannels : (m₂.store sof).channels.set k (c.deliver incoming payload)
      = m.channels.set k (c.deliver incoming payload) := by rw [hp₃.channels]
  refine ⟨_, hm', ⟨(h.inv.process hm').1, rfl, fun j d hd hdopen => ?_⟩, hp₃.length,
    hp₃.framingerrors, hchannels⟩
  rw [hchannels, List.getElem?_set] at hd
  split at hd
  · omega
  · exact h.open_lt j d hd hdopen

/-! ### Frames one after the other -/

variable (incoming) in
/-- The payloads for a channel are received with the first frame, and then the others. -/
theorem received_deliverTo {channels : List GsmMuxChannel} {f : ℕ × List UInt8}
    {c : GsmMuxChannel} (hc : channels[f.1]? = some c) (hfree : f.2.length ≤ c.buffer.freeSpace)
    {k : ℕ} {d : GsmMuxChannel} (hd : channels[k]? = some d) :
    ∃ d', (deliverTo incoming channels f)[k]? = some d' ∧
      d'.received = d.received ++ if f.1 = k then f.2 else [] := by
  simp only [deliverTo, hc]
  rw [List.getElem?_set]
  split
  · rename_i hk
    subst hk
    obtain rfl := Option.some.inj (hc.symm.trans hd)
    exact ⟨_, if_pos (List.getElem?_eq_some_iff.mp hc).1, received_deliver hfree⟩
  · exact ⟨d, hd, (List.append_nil _).symm⟩

/-- **Frames** that can be sent, none of the two kinds, are received. -/
theorem Ready.frames {frames : List (ℕ × List UInt8)} (h : Ready m)
    (hfits : Fits incoming m.frame.length m.channels frames)
    (hclear : ∀ f ∈ frames, f.1 ≠ 62 ∧ f.2.length < 2 ^ 15) :
    ∃ m', m.process incoming (wire frames) = some m' ∧ m'.framingerrors = m.framingerrors ∧
      ∀ (k : ℕ) (c : GsmMuxChannel), m.channels[k]? = some c →
        ∃ c', m'.channels[k]? = some c' ∧ c'.received = c.received ++ payloads k frames := by
  induction frames generalizing m with
  | nil => exact ⟨m, rfl, rfl, fun k c hc => ⟨c, hc, (List.append_nil _).symm⟩⟩
  | cons f frames ih =>
      obtain ⟨hf, hframes⟩ := List.forall_mem_cons.mp hclear
      obtain ⟨⟨c, hc, hopen, hroom, hfree⟩, hrest⟩ := hfits
      obtain ⟨m₁, hm₁, hready, hlength, herrors, hchannels⟩ :=
        h.frame incoming hc hopen hroom hf.1 hf.2
      have hdeliver : m₁.channels = deliverTo incoming m.channels f := by
        rw [hchannels, deliverTo, hc]
      obtain ⟨m', hm', herrors', hreceived⟩ := ih hready
        (by rwa [hlength, hdeliver]) hframes
      refine ⟨m', ?_, herrors'.trans herrors, fun k d hd => ?_⟩
      · rw [wire, List.flatMap_cons, process_append, hm₁, Option.bind_some]
        exact hm'
      · obtain ⟨d₁, hd₁, hfirst⟩ := received_deliverTo incoming hc hfree hd
        obtain ⟨d', hd', hothers⟩ := hreceived k d₁ (hdeliver ▸ hd₁)
        refine ⟨d', hd', ?_⟩
        rw [hothers, hfirst, List.append_assoc, payloads, payloads, List.flatMap_cons]

/-! ### Frames that get lost -/

/-- A frame that does not end with the flag is an error, and stays one. -/
theorem Headed.lost_of_ne {bytes : List UInt8} {framelen frameipos : ℕ}
    (h : Headed m₀ bytes framelen frameipos m) (hinv : Inv m)
    (hend : bytes.length + 1 = framelen) (hroom : framelen ≤ m₀.frame.length) {b : UInt8}
    (hb : b ≠ sof) {rest : List UInt8} (hm' : m.process incoming (b :: rest) = some m') :
    m₀.framingerrors < m'.framingerrors := by
  have hlong := h.long
  have hpos := h.framepos
  have hlength := h.length
  obtain ⟨hlen, -, -⟩ := store_other (m := m) (by omega) (fun _ => h.framemorelen) b
  have hcomplete : (m.store b).framepos = (m.store b).framelen := by
    rw [framepos_store, hlen, h.framelen, hpos, hend]
  have hstore := hinv.store (by omega) b
  have hfour : 4 ≤ (m.store b).framepos := by
    rw [framepos_store]
    omega
  have herror := hstore.frameError hfour hcomplete
  rw [process_cons, next_eq_byte (by omega), byte_eq (by omega) (by omega) (by omega),
    if_pos hcomplete, if_neg hb, herror, Option.bind_some] at hm'
  have hle : (m.store b).framingerrors + 1 ≤ m'.framingerrors :=
    (Inv.process (by exact inv_of_framepos rfl rfl rfl hstore.channels) hm').2
  rw [framingerrors_store, h.framingerrors] at hle
  exact hle

/-- A frame that fills the array is an error, and stays one. -/
theorem Headed.lost_of_full {bytes : List UInt8} {framelen frameipos : ℕ}
    (h : Headed m₀ bytes framelen frameipos m) (hinv : Inv m)
    (hfull : bytes.length = m₀.frame.length) {b : UInt8} {rest : List UInt8}
    (hm' : m.process incoming (b :: rest) = some m') : m₀.framingerrors < m'.framingerrors := by
  have hpos : m.framepos = m.frame.length := by rw [h.framepos, h.length, hfull]
  rw [process_cons, Option.bind_eq_some_iff] at hm'
  obtain ⟨m₂, hm₂, hm'⟩ := hm'
  rw [next, Option.bind_eq_bind, Option.bind_eq_some_iff] at hm₂
  obtain ⟨m₁, hm₁, hm₂⟩ := hm₂
  obtain ⟨rfl, -, -⟩ := (room_cases hm₁).resolve_left fun hroom => hroom.2 hpos
  obtain ⟨hinv₂, hle₂⟩ := (hinv.room hm₁).1.byte hm₂
  have hle := (hinv₂.process hm').2
  change m.framingerrors + 1 ≤ _ at hle₂
  rw [h.framingerrors] at hle₂
  exact hle₂.trans hle

/-- A second flag is passed over. -/
theorem Ready.flags (h : Ready m) (hroom : 6 ≤ m.frame.length) (rest : List UInt8) :
    m.process incoming (sof :: sof :: rest) = m.process incoming (sof :: rest) := by
  obtain ⟨hlen, hmore⟩ := h.inv.short (by rw [h.framepos]; omega)
  obtain ⟨m₁, hm₁, hp₁, -⟩ := (partial_nil h.framepos).early incoming (b := sof) hlen
    hmore (by simp) (by simp; omega) (by simp) (by simp)
  have hpos := hp₁.framepos
  have hlength := hp₁.length
  simp only [List.nil_append, List.length_singleton] at hpos
  have hskip : m₁.next incoming sof = some m₁ := by
    rw [next_eq_byte (by omega), byte, if_neg (by omega), if_pos ⟨hpos, rfl⟩]
  rw [process_cons, hm₁, Option.bind_some, process_cons, hskip, Option.bind_some, process_cons,
    hm₁, Option.bind_some]

theorem tx_62 : tx 62 [] = [sof, sof, 0xFF, 1, 0x26, sof] := by decide +kernel

variable (incoming) in
/-- It is taken for the start of a frame of 31898 bytes. -/
theorem Ready.stray (h : Ready m) (hroom : 6 ≤ m.frame.length) :
    ∃ m', m.process incoming (tx 62 []) = some m' ∧
      Headed m [sof, 0xFF, 1, 0x26, sof] 31898 5 m' := by
  obtain ⟨m₁, hm₁, hp₁⟩ := h.start incoming hroom (show (0xFF : UInt8) ≠ sof by decide) 1
  obtain ⟨m₂, hm₂, hh₂⟩ := hp₁.longLength incoming (b := 0x26) (c := sof) rfl
    (by omega) (by decide)
  refine ⟨m₂, ?_, hh₂⟩
  rw [tx_62, h.flags hroom]
  change m.process incoming ([sof, 0xFF, 1] ++ [0x26, sof]) = some m₂
  rw [process_append, hm₁, Option.bind_some, hm₂]

variable (incoming) in
/-- Empty frames for an open channel can be sent, as often as one likes. -/
theorem fits_replicate {framesize : ℕ} {channels : List GsmMuxChannel} {c : GsmMuxChannel}
    (hc : channels[62]? = some c) (hopen : c.state = .opened) (hroom : 6 ≤ framesize) (n : ℕ) :
    Fits incoming framesize channels (List.replicate n (62, [])) := by
  induction n generalizing channels c with
  | zero => trivial
  | succ n ih =>
      refine ⟨⟨c, hc, hopen, by rw [tx_62]; exact hroom, Nat.zero_le _⟩, ?_⟩
      have hlt := (List.getElem?_eq_some_iff.mp hc).1
      refine ih (c := c.deliver incoming []) ?_ ((state_deliver [] c).trans hopen)
      simp only [deliverTo, hc]
      exact List.getElem?_set_self hlt

/-- The bytes of empty frames for channel 62. -/
def empties (n : ℕ) : List UInt8 := wire (List.replicate n (62, []))

theorem empties_succ (n : ℕ) : empties (n + 1) = tx 62 [] ++ empties n := rfl

theorem empties_add (a b : ℕ) : empties (a + b) = empties a ++ empties b := by
  rw [empties, List.replicate_add, wire, List.flatMap_append]
  rfl

theorem length_empties (n : ℕ) : (empties n).length = n * 6 := by
  induction n with
  | zero => rfl
  | succ n ih =>
      rw [empties_succ, List.length_append, ih, tx_62]
      simp
      omega

theorem exists_split {α : Type} {l : List α} {n : ℕ} (h : n < l.length) :
    ∃ pre b post, l = pre ++ b :: post ∧ pre.length = n :=
  ⟨l.take n, l[n], l.drop (n + 1), by rw [← List.drop_eq_getElem_cons h, List.take_append_drop],
    List.length_take_of_le h.le⟩

/-- Enough empty frames for channel 62 are lost, and counted as an error. -/
theorem Ready.lost_62 (h : Ready m) (hroom : 6 ≤ m.frame.length)
    (hm' : m.process incoming (empties (5317 + m.frame.length)) = some m') :
    m.framingerrors < m'.framingerrors := by
  obtain ⟨m₁, hm₁, hh₁⟩ := h.stray incoming hroom
  have hinv₁ := (h.inv.process hm₁).1
  rw [show 5317 + m.frame.length = 5316 + m.frame.length + 1 by omega, empties_succ,
    process_append, hm₁, Option.bind_some] at hm'
  by_cases hlong : m.frame.length < 31898
  · -- the array is full before the frame ends
    have hlt : m.frame.length - 5 < (empties (5316 + m.frame.length)).length := by
      rw [length_empties]
      omega
    obtain ⟨pre, b, post, hsplit, hpre⟩ := exists_split hlt
    obtain ⟨m₂, hm₂, hh₂⟩ := hh₁.process incoming pre
      (by simp; omega) (by simp; omega)
    rw [hsplit, process_append, hm₂, Option.bind_some] at hm'
    exact hh₂.lost_of_full (hinv₁.process hm₂).1 (by simp; omega) hm'
  · -- the frame ends with the control byte of another one
    have hsplit : empties (5316 + m.frame.length) = (empties 5315 ++ [sof, sof]) ++
        0xFF :: ([1, 0x26, sof] ++ empties m.frame.length) := by
      rw [show 5316 + m.frame.length = 5315 + (m.frame.length + 1) by omega,
        empties_add 5315, empties_succ m.frame.length, tx_62]
      simp
    obtain ⟨m₂, hm₂, hh₂⟩ := hh₁.process incoming (empties 5315 ++ [sof, sof])
      (by rw [List.length_append, length_empties]; simp)
      (by rw [List.length_append, length_empties]; simp; omega)
    rw [hsplit, process_append, hm₂, Option.bind_some] at hm'
    refine hh₂.lost_of_ne (hinv₁.process hm₂).1 ?_ (by omega) (by decide) hm'
    rw [List.length_append, List.length_append, length_empties]
    rfl

/-- A payload of 2^15 zeros is lost, and counted as an error. -/
theorem Ready.lost_long (h : Ready m) {k : ℕ} (hk : k < 64) (h62 : k ≠ 62)
    (hroom : 2 ^ 15 + 7 ≤ m.frame.length) {zeros : List UInt8} (hzeros : ∀ b ∈ zeros, b = 0)
    (hlength : zeros.length = 2 ^ 15)
    (hm' : m.process incoming (tx k zeros) = some m') : m.framingerrors < m'.framingerrors := by
  obtain ⟨m₁, hm₁, hh₁⟩ := h.header incoming hk h62 (2 ^ 15)
    (le_trans (by rw [Cellular.header]; simp) hroom)
  obtain ⟨rest, hsplit⟩ : ∃ rest, tx k zeros = (sof :: Cellular.header k (2 ^ 15)) ++
      ([0] ++ 0 :: rest) := by
    match zeros, hlength with
    | b :: c :: rest, hlength =>
        obtain rfl := hzeros b (by simp)
        obtain rfl := hzeros c (by simp)
        refine ⟨rest ++ [checksum (Cellular.header k (2 ^ 15)), sof], ?_⟩
        rw [tx, hlength]
        simp
  have hannounced : announced (2 ^ 15) = 7 := by decide
  have hheader : (sof :: Cellular.header k (2 ^ 15)).length = 5 := rfl
  rw [hannounced] at hh₁
  obtain ⟨m₂, hm₂, hh₂⟩ := hh₁.process incoming [0]
    (by rw [hheader]; simp) (by rw [hheader]; simp; omega)
  rw [hsplit, process_append, hm₁, Option.bind_some, process_append, hm₂, Option.bind_some] at hm'
  exact hh₂.lost_of_ne ((h.inv.process hm₁).1.process hm₂).1
    (by rw [List.length_append, hheader]; rfl) (by omega) (by decide) hm'

variable (incoming) in
/-- **What gets lost**: where a frame of the two kinds can be sent, frames can be sent that are
lost. -/
theorem Ready.exists_lost (h : Ready m) {f : ℕ × List UInt8}
    (hfits : Fits incoming m.frame.length m.channels [f])
    (hbad : ¬ (f.1 ≠ 62 ∧ f.2.length < 2 ^ 15)) :
    ∃ frames, Fits incoming m.frame.length m.channels frames ∧
      ∀ m', m.process incoming (wire frames) = some m' → m.framingerrors < m'.framingerrors := by
  obtain ⟨⟨c, hc, hopen, hroom, hfree⟩, -⟩ := hfits
  by_cases h62 : f.1 = 62
  · have hsix : 6 ≤ m.frame.length := by
      refine le_trans ?_ hroom
      rw [tx, Cellular.header]
      split <;> simp
    exact ⟨_, fits_replicate incoming (h62 ▸ hc) hopen hsix _, fun m' hm' => h.lost_62 hsix hm'⟩
  · have hlong : 2 ^ 15 ≤ f.2.length := by
      by_contra hshort
      exact hbad ⟨h62, by omega⟩
    obtain ⟨zeros, hzeros, hlength⟩ : ∃ zeros : List UInt8, (∀ b ∈ zeros, b = 0) ∧
        zeros.length = 2 ^ 15 := ⟨_, fun b => List.eq_of_mem_replicate, List.length_replicate⟩
    have htx : ∀ data : List UInt8, 2 ^ 15 ≤ data.length →
        (tx f.1 data).length = data.length + 7 := by
      intro data hdata
      rw [tx, Cellular.header, if_neg (by omega)]
      simp
    have hroom' : 2 ^ 15 + 7 ≤ m.frame.length := by
      rw [htx _ hlong] at hroom
      omega
    refine ⟨[(f.1, zeros)], ⟨⟨c, hc, hopen, ?_, ?_⟩, trivial⟩, fun m' hm' => ?_⟩
    · rw [htx _ hlength.ge, hlength]
      exact hroom'
    · exact hlength.trans_le (hlong.trans hfree)
    · have hwire : wire [(f.1, zeros)] = tx f.1 zeros := by simp [wire]
      rw [hwire] at hm'
      exact h.lost_long (h.open_lt f.1 c hc hopen) h62 hroom' hzeros hlength hm'

/-! ### The round trip -/

/-- **The round trip**: all frames that can be sent arrive, behind any bytes without the flag and
in any chunks, exactly when none of them is for channel 62 or has a payload of 2^15 bytes. -/
theorem arrives_iff_clear (h : Ready m) :
    (∀ (noise : List UInt8) (chunks : List (List UInt8)) (frames : List (ℕ × List UInt8)),
      sof ∉ noise → chunks.flatten = noise ++ wire frames →
      Fits incoming m.frame.length m.channels frames → Arrives incoming m chunks frames) ↔
    Clear incoming m := by
  constructor
  · intro harrives
    refine ⟨?_, ?_⟩
    · by_contra hzero
      obtain ⟨m', hm', -⟩ := harrives [0] [[0]] [] (by decide) rfl trivial
      rw [process_chunks] at hm'
      have hnil : m.frame = [] := List.eq_nil_of_length_eq_zero (by omega)
      have hnone : m.next incoming 0 = none := by
        simp [next, room, overflow, h.framepos, hnil, readBlock]
      change m.process incoming (0 :: []) = some m' at hm'
      rw [process_cons, hnone] at hm'
      cases hm'
    · -- no error is counted, from any state behind frames that arrive
      have hcount : ∀ frames, Fits incoming m.frame.length m.channels frames →
          ∃ m', m.process incoming (wire frames) = some m' ∧
            m'.framingerrors = m.framingerrors := by
        intro frames hfits
        obtain ⟨m', hm', herrors, -⟩ := harrives [] [wire frames] frames (by simp) (by simp) hfits
        rw [process_chunks] at hm'
        exact ⟨m', by simpa using hm', herrors⟩
      clear harrives
      intro frames
      induction frames generalizing m with
      | nil => exact fun _ f hf => absurd hf (by simp)
      | cons f frames ih =>
          intro hfits
          have hgood : f.1 ≠ 62 ∧ f.2.length < 2 ^ 15 := by
            by_contra hbad
            obtain ⟨lost, hlost, herror⟩ := h.exists_lost incoming
              ⟨hfits.1, trivial⟩ hbad
            obtain ⟨m', hm', herrors⟩ := hcount lost hlost
            exact absurd herrors (herror m' hm').ne'
          obtain ⟨⟨c, hc, hopen, hroom, hfree⟩, hrest⟩ := hfits
          obtain ⟨m₁, hm₁, hready, hlength, herrors, hchannels⟩ :=
            h.frame incoming hc hopen hroom hgood.1 hgood.2
          have hdeliver : m₁.channels = deliverTo incoming m.channels f := by
            rw [hchannels, deliverTo, hc]
          refine List.forall_mem_cons.mpr ⟨hgood, ih hready (fun others hothers => ?_) ?_⟩
          · obtain ⟨m', hm', herrors'⟩ := hcount (f :: others)
              ⟨⟨c, hc, hopen, hroom, hfree⟩, by rwa [← hdeliver, ← hlength]⟩
            refine ⟨m', ?_, herrors'.trans herrors.symm⟩
            rw [← hm', wire, wire, List.flatMap_cons, process_append, hm₁, Option.bind_some]
          · rwa [hlength, hdeliver]
  · rintro ⟨hpos, hclear⟩ noise chunks frames hnoise hflatten hfits
    obtain ⟨m', hm', herrors, hreceived⟩ := h.frames hfits (hclear frames hfits)
    refine ⟨m', ?_, herrors, hreceived⟩
    rw [process_chunks, hflatten, process_append, process_noise h.framepos hpos hnoise,
      Option.bind_some, hm']

/-- What can be sent is for a channel that is there, and fits the array. -/
theorem fits_bounds {framesize : ℕ} {frames : List (ℕ × List UInt8)}
    {channels : List GsmMuxChannel} (h : Fits incoming framesize channels frames) :
    ∀ f ∈ frames, f.1 < channels.length ∧ (tx f.1 f.2).length ≤ framesize := by
  induction frames generalizing channels with
  | nil => exact fun f hf => absurd hf (by simp)
  | cons f frames ih =>
      obtain ⟨⟨c, hc, -, hroom, -⟩, hrest⟩ := h
      have hlength : (deliverTo incoming channels f).length = channels.length := by
        simp [deliverTo, hc]
      refine List.forall_mem_cons.mpr
        ⟨⟨(List.getElem?_eq_some_iff.mp hc).1, hroom⟩, fun g hg => ?_⟩
      rw [← hlength]
      exact ih hrest g hg

/-- All frames arrive at a multiplexer with channels up to 61, and an array that no payload of
2^15 bytes fits. -/
theorem clear_of_small (hpos : 0 < m.frame.length) (hlength : m.frame.length < 2 ^ 15 + 7)
    (hchannels : m.channels.length ≤ 62) : Clear incoming m := by
  refine ⟨hpos, fun frames hfits f hf => ?_⟩
  obtain ⟨hindex, hroom⟩ := fits_bounds hfits f hf
  refine ⟨by omega, ?_⟩
  by_contra hlong
  rw [tx, header, if_neg (by omega)] at hroom
  simp at hroom
  omega

/-- A multiplexer whose channels are open. -/
def ready (channelcount framesize : ℕ) : GsmMux :=
  { new channelcount framesize with
    channels := (List.range (channelcount + 1)).map fun k => ⟨.opened, k, .new 2048, []⟩ }

theorem ready_ready {channelcount : ℕ} (h : channelcount < 64) (framesize : ℕ) :
    Ready (ready channelcount framesize) := by
  refine ⟨inv_of_framepos rfl rfl rfl (.inr ?_), rfl, fun k c hc _ => ?_⟩
  · simp [ready, new]
  · have := (List.getElem?_eq_some_iff.mp hc).1
    simp [ready] at this
    omega

@[simp] theorem length_frame_ready (channelcount framesize : ℕ) :
    (ready channelcount framesize).frame.length = framesize :=
  List.length_replicate

theorem channels_ready {channelcount k : ℕ} (h : k ≤ channelcount) (framesize : ℕ) :
    (ready channelcount framesize).channels[k]? = some ⟨.opened, k, .new 2048, []⟩ := by
  simp [ready, Nat.lt_succ_of_le h]

/-- A flag is the payload of a frame for channel 1. -/
theorem arrives_ready : Arrives GsmMuxChannel.buffer (ready 5 2048) [[0, 0xF9], [5, 0xFF, 3],
    [0xF9, checksum (header 1 1), 0xF9]] [(1, [0xF9])] := by
  refine (arrives_iff_clear (ready_ready (by simp) 2048)).mpr
    (clear_of_small (by simp) (by simp) (by simp [ready]))
    [0] _ [(1, [0xF9])] (by decide) (by simp [wire, tx, header, uihPf, sof])
    ⟨⟨_, channels_ready (by simp) 2048, rfl, ?_, ?_⟩, trivial⟩
  · simp [tx, header]
  · change 1 ≤ 2048 - 0
    omega

/-- With 62 channels and an array of 2048 bytes, frames are lost. -/
theorem not_arrives : ¬ ∀ (incoming : GsmMuxChannel → OvmsBuffer) (m : GsmMux), Ready m →
    ∀ (noise : List UInt8) (chunks : List (List UInt8)) (frames : List (ℕ × List UInt8)),
      sof ∉ noise → chunks.flatten = noise ++ wire frames →
      Fits incoming m.frame.length m.channels frames → Arrives incoming m chunks frames := by
  intro h
  have hready := ready_ready (show 62 < 64 by simp) 2048
  have hroom : 6 ≤ (ready 62 2048).frame.length := by simp
  obtain ⟨n, hn⟩ : ∃ n, n = 5317 + (ready 62 2048).frame.length := ⟨_, rfl⟩
  have hfits := fits_replicate GsmMuxChannel.buffer (channels_ready le_rfl 2048) rfl
    hroom n
  obtain ⟨m', hm', herrors, -⟩ := h GsmMuxChannel.buffer _ hready [] [empties n] _
    List.not_mem_nil List.flatten_singleton hfits
  rw [process_chunks, List.flatten_singleton, hn] at hm'
  exact absurd herrors (hready.lost_62 hroom hm').ne'

/-! ### Where frames are awaited -/

/-- An open channel has a number of six bits. -/
def OpenLt (m : GsmMux) : Prop :=
  ∀ (k : ℕ) (c : GsmMuxChannel), m.channels[k]? = some c → c.state = .opened → k < 64

/-- A channel is set that has such a number, or is not open. -/
theorem openLt_set {index : ℕ} {c : GsmMuxChannel} (h : OpenLt m)
    (hc : c.state = .opened → index < 64) (hm' : m'.channels = m.channels.set index c) :
    OpenLt m' := by
  intro k d hd hopen
  rw [hm', List.getElem?_set] at hd
  split at hd
  · rename_i hk
    subst hk
    split at hd
    · obtain rfl := Option.some.inj hd
      exact hc hopen
    · cases hd
  · exact h k d hd hopen

/-- The data of a frame open no channel of more than six bits. -/
theorem OpenLt.data (h : OpenLt m) {index : ℕ} (hindex : index < 64) {chan : GsmMuxChannel}
    (hm' : m.data incoming index chan = some m') : OpenLt m' := by
  rw [GsmMux.data, Option.bind_eq_bind, Option.bind_eq_some_iff] at hm'
  obtain ⟨control, -, hm'⟩ := hm'
  split at hm'
  · rw [Option.bind_eq_bind, Option.bind_eq_some_iff] at hm'
    obtain ⟨bytes, -, hm'⟩ := hm'
    obtain rfl := Option.some.inj hm'
    exact openLt_set h (fun _ => hindex) rfl
  · obtain rfl := Option.some.inj hm'
    exact h

theorem OpenLt.startChannel (h : OpenLt m) {channel : ℕ}
    (hm' : m.startChannel channel = some m') : OpenLt m' := by
  rw [GsmMux.startChannel, Option.bind_eq_bind, Option.bind_eq_some_iff] at hm'
  obtain ⟨chan, -, hm'⟩ := hm'
  obtain rfl := Option.some.inj hm'
  exact openLt_set h (fun hopen => by cases hopen) rfl

/-- Nor does an acknowledgement. -/
theorem OpenLt.acknowledge (h : OpenLt m) {index : ℕ} (hindex : index < 64)
    {chan : GsmMuxChannel} {control : UInt8}
    (hm' : m.acknowledge index chan control = some m') : OpenLt m' := by
  rw [GsmMux.acknowledge] at hm'
  split at hm'
  · have hopened : OpenLt { m with
        channels := m.channels.set index { chan with state := .opened }
        openchannels := if chan.channel ≠ 0 then m.openchannels + 1 else m.openchannels
        state := if chan.channel = 0 then .opened else m.state } :=
      openLt_set h (fun _ => hindex) rfl
    by_cases hlast : chan.channel < m.channelcount
    · exact hopened.startChannel ((if_pos hlast).symm.trans hm')
    · obtain rfl := Option.some.inj ((if_neg hlast).symm.trans hm')
      exact hopened
  · obtain rfl := Option.some.inj hm'
    exact h

/-- Nor does a frame, whose address has eight. -/
theorem OpenLt.processFrame (h : OpenLt m) (hm' : m.processFrame incoming = some m') :
    OpenLt m' := by
  rw [GsmMux.processFrame] at hm'
  simp only [Option.bind_eq_bind, Option.bind_eq_some_iff] at hm'
  obtain ⟨address, -, headed, -, fcs, -, hm'⟩ := hm'
  split at hm'
  · obtain rfl := Option.some.inj hm'
    exact h
  · simp only [Option.bind_eq_some_iff] at hm'
    obtain ⟨chan, -, m₁, hm₁, hm'⟩ := hm'
    obtain rfl := Option.some.inj hm'
    have hindex : (address >>> 2).toNat < 64 := by
      rw [UInt8.toNat_shiftRight, Nat.shiftRight_eq_div_pow]
      have := address.toNat_lt
      simp
      omega
    change OpenLt m₁
    rw [channelFrame] at hm₁
    split at hm₁
    · obtain rfl := Option.some.inj hm₁
      exact h
    · simp only [Option.bind_eq_bind, Option.bind_eq_some_iff] at hm₁
      obtain ⟨control, -, m₂, hm₂, chan', -, hm₁⟩ := hm₁
      exact (h.acknowledge hindex hm₂).data hindex hm₁
    · exact h.data hindex hm₁
    · obtain rfl := Option.some.inj hm₁
      exact h

/-- Nor does any byte. -/
theorem OpenLt.next (h : OpenLt m) {b : UInt8} (hm' : m.next incoming b = some m') :
    OpenLt m' := by
  rw [GsmMux.next, Option.bind_eq_bind, Option.bind_eq_some_iff] at hm'
  obtain ⟨m₁, hm₁, hm'⟩ := hm'
  have h₁ : OpenLt m₁ := by
    rcases room_cases hm₁ with ⟨rfl, -⟩ | ⟨rfl, -, -⟩ <;> exact h
  have hstore : OpenLt (m₁.store b) := by
    rw [OpenLt, channels_store]
    exact h₁
  rw [GsmMux.byte] at hm'
  split at hm'
  · obtain rfl := Option.some.inj hm'
    exact h₁
  split at hm'
  · obtain rfl := Option.some.inj hm'
    exact h₁
  split at hm'
  · simp only at hm'
    split at hm'
    · split at hm'
      · exact hstore.processFrame hm'
      · simp only [frameError, Option.bind_eq_bind, Option.bind_eq_some_iff] at hm'
        obtain ⟨-, -, -, -, -, -, -, -, hm'⟩ := hm'
        obtain rfl := Option.some.inj hm'
        exact hstore
    · obtain rfl := Option.some.inj hm'
      exact hstore
  · cases hm'

/-- Nor does any step. -/
theorem OpenLt.step (h : OpenLt m) {op : Op} (hm' : m.step incoming op = some m') :
    OpenLt m' := by
  cases op with
  | startup size =>
      rw [GsmMux.step, startup, Option.bind_eq_bind, Option.bind_eq_some_iff] at hm'
      obtain ⟨started, hstarted, hm'⟩ := hm'
      obtain rfl := Option.some.inj hm'
      have hmade : OpenLt { m with
          framingerrors := 0, channels := m.channels ++ newChannels m.channelcount size } := by
        intro k c hc hopen
        by_cases hk : k < m.channels.length
        · exact h k c ((List.getElem?_append_left hk).symm.trans hc) hopen
        · have hmem := List.mem_of_getElem?
            ((List.getElem?_append_right (Nat.not_lt.mp hk)).symm.trans hc)
          rw [newChannels, List.mem_cons, List.mem_map] at hmem
          rcases hmem with rfl | ⟨k, -, rfl⟩ <;> cases hopen
      exact (show OpenLt started from hmade.startChannel hstarted)
  | shutdown =>
      obtain rfl := Option.some.inj hm'
      exact fun k c hc => absurd hc (by simp [shutdown])
  | process bytes =>
      exact (foldlM_invariant (R := fun _ _ => True) (fun _ => trivial) (fun _ _ _ _ _ => trivial)
        (fun _ _ _ h hm' => ⟨h.next hm', trivial⟩) h hm').1

end GsmMux

end Ovms.Cellular
