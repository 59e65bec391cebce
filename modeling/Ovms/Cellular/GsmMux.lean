import Ovms.Buffer.OvmsBuffer
import Ovms.Lib.Bytes
import Ovms.Lib.Machine

/-!
# The GSM Multiplexer

`GsmMux` and `GsmMuxChannel` (`components/ovms_cellular/src/gsmmux.cpp`): frames of a serial line
that several channels share. A frame starts and ends with a flag, and says how long it is, so that
flags within it are told from its end by counting. What has arrived of a frame is kept in an array;
a byte that does not fit any more drops it. The channel of a frame is looked up by the number in
its address.

A step is `none` when it leaves the array of the frame, or looks for a channel where there is
none. A buffer that is processed is the list of the bytes it holds. What the modem takes out of a
channel is a parameter. Of what is transmitted, only the frames of `tx` are modelled.
-/

open Lib Ovms.Buffer

namespace Ovms.Cellular

/-! ### Frames -/

/-- `GSM0_SOF`. -/
def sof : UInt8 := 0xF9

/-- `GSM_UA + GSM_PF`. -/
def uaPf : UInt8 := 0x73

/-- `GSM_UIH`. -/
def uih : UInt8 := 0xEF

/-- `GSM_UIH + GSM_PF`. -/
def uihPf : UInt8 := 0xFF

/-- `gsm_fcs8`. -/
def gsmFcs8 : List UInt8 :=
  [0x00, 0x91, 0xE3, 0x72, 0x07, 0x96, 0xE4, 0x75, 0x0E, 0x9F, 0xED, 0x7C, 0x09, 0x98, 0xEA, 0x7B,
    0x1C, 0x8D, 0xFF, 0x6E, 0x1B, 0x8A, 0xF8, 0x69, 0x12, 0x83, 0xF1, 0x60, 0x15, 0x84, 0xF6, 0x67,
    0x38, 0xA9, 0xDB, 0x4A, 0x3F, 0xAE, 0xDC, 0x4D, 0x36, 0xA7, 0xD5, 0x44, 0x31, 0xA0, 0xD2, 0x43,
    0x24, 0xB5, 0xC7, 0x56, 0x23, 0xB2, 0xC0, 0x51, 0x2A, 0xBB, 0xC9, 0x58, 0x2D, 0xBC, 0xCE, 0x5F,
    0x70, 0xE1, 0x93, 0x02, 0x77, 0xE6, 0x94, 0x05, 0x7E, 0xEF, 0x9D, 0x0C, 0x79, 0xE8, 0x9A, 0x0B,
    0x6C, 0xFD, 0x8F, 0x1E, 0x6B, 0xFA, 0x88, 0x19, 0x62, 0xF3, 0x81, 0x10, 0x65, 0xF4, 0x86, 0x17,
    0x48, 0xD9, 0xAB, 0x3A, 0x4F, 0xDE, 0xAC, 0x3D, 0x46, 0xD7, 0xA5, 0x34, 0x41, 0xD0, 0xA2, 0x33,
    0x54, 0xC5, 0xB7, 0x26, 0x53, 0xC2, 0xB0, 0x21, 0x5A, 0xCB, 0xB9, 0x28, 0x5D, 0xCC, 0xBE, 0x2F,
    0xE0, 0x71, 0x03, 0x92, 0xE7, 0x76, 0x04, 0x95, 0xEE, 0x7F, 0x0D, 0x9C, 0xE9, 0x78, 0x0A, 0x9B,
    0xFC, 0x6D, 0x1F, 0x8E, 0xFB, 0x6A, 0x18, 0x89, 0xF2, 0x63, 0x11, 0x80, 0xF5, 0x64, 0x16, 0x87,
    0xD8, 0x49, 0x3B, 0xAA, 0xDF, 0x4E, 0x3C, 0xAD, 0xD6, 0x47, 0x35, 0xA4, 0xD1, 0x40, 0x32, 0xA3,
    0xC4, 0x55, 0x27, 0xB6, 0xC3, 0x52, 0x20, 0xB1, 0xCA, 0x5B, 0x29, 0xB8, 0xCD, 0x5C, 0x2E, 0xBF,
    0x90, 0x01, 0x73, 0xE2, 0x97, 0x06, 0x74, 0xE5, 0x9E, 0x0F, 0x7D, 0xEC, 0x99, 0x08, 0x7A, 0xEB,
    0x8C, 0x1D, 0x6F, 0xFE, 0x8B, 0x1A, 0x68, 0xF9, 0x82, 0x13, 0x61, 0xF0, 0x85, 0x14, 0x66, 0xF7,
    0xA8, 0x39, 0x4B, 0xDA, 0xAF, 0x3E, 0x4C, 0xDD, 0xA6, 0x37, 0x45, 0xD4, 0xA1, 0x30, 0x42, 0xD3,
    0xB4, 0x25, 0x57, 0xC6, 0xB3, 0x22, 0x50, 0xC1, 0xBA, 0x2B, 0x59, 0xC8, 0xBD, 0x2C, 0x5E, 0xCF]

/-- `gsm_fcs_add_block`. -/
def fcsAddBlock (fcs : UInt8) (bytes : List UInt8) : UInt8 :=
  bytes.foldl (fun fcs c => gsmFcs8.getD (fcs ^^^ c).toNat 0) fcs

/-- The checksum of a header. -/
def checksum (header : List UInt8) : UInt8 := 0xFF - fcsAddBlock 0xFF header

/-- The header of a frame, behind the flag. -/
def header (channel size : ℕ) : List UInt8 :=
  [UInt8.ofNat (channel * 4 + 1), uihPf] ++
    if size < 128 then [UInt8.ofNat (size * 2 + 1)]
    else [UInt8.ofNat (size % 128 * 2), UInt8.ofNat (size / 128)]

/-- `tx`: the frame that is transmitted. -/
def tx (channel : ℕ) (data : List UInt8) : List UInt8 :=
  sof :: (header channel data.length ++ data ++ [checksum (header channel data.length), sof])

/-! ### The members -/

/-- `GsmMuxChannelState`. -/
inductive ChannelState
  | closed
  | opening
  | opened
  | closing
  deriving DecidableEq

/-- `GsmMuxState`. -/
inductive MuxState
  | closed
  | opening
  | opened
  | closing
  deriving DecidableEq

/-- `GsmMuxChannel`, and the bytes its buffer has accepted. -/
structure GsmMuxChannel where
  state : ChannelState
  channel : ℕ
  buffer : OvmsBuffer
  received : List UInt8

/-- `GsmMux`; the length of the array is `m_framesize`. -/
structure GsmMux where
  state : MuxState
  channelcount : ℕ
  openchannels : ℕ
  framingerrors : ℕ
  frame : List UInt8
  framepos : ℕ
  frameipos : ℕ
  framelen : ℕ
  framemorelen : Bool
  channels : List GsmMuxChannel

/-! ### Channels -/

/-- A new channel. -/
def GsmMuxChannel.new (channel size : ℕ) : GsmMuxChannel := ⟨.closed, channel, .new size, []⟩

/-- `Push` on the buffer of a channel. -/
def GsmMuxChannel.push (c : GsmMuxChannel) (byte : UInt8) : GsmMuxChannel :=
  let pushed := c.buffer.push byte
  { c with
    buffer := pushed.1
    received := if pushed.2 then c.received ++ [byte] else c.received }

/-- Bytes are pushed, and the modem is told, which may take some out. -/
def GsmMuxChannel.deliver (incoming : GsmMuxChannel → OvmsBuffer) (c : GsmMuxChannel)
    (bytes : List UInt8) : GsmMuxChannel :=
  let pushed := bytes.foldl GsmMuxChannel.push c
  { pushed with buffer := incoming pushed }

namespace GsmMux

/-! ### Starting and stopping -/

/-- `GsmMux::GsmMux`. -/
def new (channelcount maxframesize : ℕ) : GsmMux where
  state := .closed
  channelcount := channelcount
  openchannels := 0
  framingerrors := 0
  frame := List.replicate maxframesize 0
  framepos := 0
  frameipos := 0
  framelen := 0
  framemorelen := false
  channels := []

/-- `StartChannel`. -/
def startChannel (m : GsmMux) (channel : ℕ) : Option GsmMux := do
  let chan ← m.channels[channel]?
  some { m with channels := m.channels.set channel { chan with state := .opening } }

/-- The channels that `Startup` makes. -/
def newChannels (channelcount size : ℕ) : List GsmMuxChannel :=
  GsmMuxChannel.new 0 8 :: (List.range channelcount).map fun k => GsmMuxChannel.new (k + 1) size

/-- `Startup`, with the size of the buffers of the channels from 1 on. -/
def startup (m : GsmMux) (size : ℕ) : Option GsmMux := do
  let started ← startChannel
    { m with framingerrors := 0, channels := m.channels ++ newChannels m.channelcount size } 0
  some { started with state := .opening }

/-- `Shutdown`. -/
def shutdown (m : GsmMux) : GsmMux :=
  { m with
    state := .closed
    channels := []
    framepos := 0
    frameipos := 0
    framelen := 0
    framemorelen := false
    openchannels := 0
    framingerrors := 0 }

/-- `IsMuxUp`. -/
def isMuxUp (m : GsmMux) : Bool := m.openchannels == m.channelcount

/-! ### A frame for a channel -/

section Incoming

variable (incoming : GsmMuxChannel → OvmsBuffer)

/-- The data of a frame, for a channel. -/
def data (m : GsmMux) (index : ℕ) (chan : GsmMuxChannel) : Option GsmMux := do
  let control ← m.frame[2]?
  if control = uihPf ∨ control = uih then
    let bytes ← readBlock m.frame m.frameipos (m.framelen - 2 - m.frameipos)
    some { m with channels := m.channels.set index (chan.deliver incoming bytes) }
  else some m

/-- A channel is open; the next one is started. -/
def opened (m : GsmMux) (index : ℕ) (chan : GsmMuxChannel) : Option GsmMux :=
  let m := { m with
    channels := m.channels.set index { chan with state := .opened }
    openchannels := if chan.channel ≠ 0 then m.openchannels + 1 else m.openchannels
    state := if chan.channel = 0 then .opened else m.state }
  if chan.channel < m.channelcount then m.startChannel (chan.channel + 1) else some m

/-- The answer that a channel which is opening waits for. -/
def acknowledge (m : GsmMux) (index : ℕ) (chan : GsmMuxChannel) (control : UInt8) :
    Option GsmMux :=
  if control = uaPf then m.opened index chan else some m

/-- `GsmMuxChannel::ProcessFrame`. -/
def channelFrame (m : GsmMux) (index : ℕ) (chan : GsmMuxChannel) : Option GsmMux :=
  match chan.state with
  | .closed => some m
  | .opening => do
      let control ← m.frame[2]?
      let m ← m.acknowledge index chan control
      -- falls through
      let chan ← m.channels[index]?
      m.data incoming index chan
  | .opened => m.data incoming index chan
  | .closing => some m

/-- The next frame is awaited. -/
def reset (m : GsmMux) : GsmMux :=
  { m with framepos := 0, frameipos := 0, framelen := 0, framemorelen := false }

/-- `ProcessFrame`. -/
def processFrame (m : GsmMux) : Option GsmMux := do
  let address ← m.frame[1]?
  let headed ← readBlock m.frame 1 (m.frameipos - 1)
  let fcs ← m.frame[m.framelen - 2]?
  if checksum headed ≠ fcs then some { m.reset with framingerrors := m.framingerrors + 1 }
  else
    let index := (address >>> 2).toNat
    let chan ← m.channels[index]?
    let m ← m.channelFrame incoming index chan
    some m.reset

/-! ### Process -/

/-- A frame that does not fit is dropped; its first 128 bytes are logged. -/
def overflow (m : GsmMux) : Option GsmMux := do
  let _ ← readBlock m.frame 0 128
  some { m with framepos := 0, framelen := 0, framemorelen := false,
                framingerrors := m.framingerrors + 1 }

/-- The first byte of the length. -/
def firstLength (m : GsmMux) (b : UInt8) : GsmMux :=
  if b &&& 1 ≠ 0 then
    { m with framemorelen := false, framelen := (b >>> 1).toNat + (m.framepos + 2),
             frameipos := m.framepos }
  else
    { m with framemorelen := true, framelen := (b >>> 1).toNat + (m.framepos + 3),
             frameipos := m.framepos + 1 }

/-- The second byte of the length. -/
def secondLength (m : GsmMux) (b : UInt8) : GsmMux :=
  { m with framelen := m.framelen + b.toNat * 128, framemorelen := false }

/-- A byte is stored, and looked at if it is about the length. -/
def store (m : GsmMux) (b : UInt8) : GsmMux :=
  let m := { m with frame := m.frame.set m.framepos b, framepos := m.framepos + 1 }
  let m := if m.framepos = 4 then m.firstLength b else m
  if m.framepos = 5 ∧ m.framemorelen = true then m.secondLength b else m

/-- A frame that does not end where it should is dropped, and logged. -/
def frameError (m : GsmMux) : Option GsmMux := do
  let _ ← m.frame[1]?
  let _ ← m.frame[2]?
  let _ ← m.frame[m.framelen - 2]?
  let _ ← readBlock m.frame 0 m.framelen
  some { m with framepos := 0, framelen := 0, framemorelen := false,
                framingerrors := m.framingerrors + 1 }

/-- A byte. -/
def byte (m : GsmMux) (b : UInt8) : Option GsmMux :=
  if m.framepos = 0 ∧ b ≠ sof then some m
  else if m.framepos = 1 ∧ b = sof then some m
  else if m.framepos < m.frame.length then
    let m := m.store b
    if m.framepos = m.framelen then
      if b = sof then m.processFrame incoming else m.frameError
    else some m
  else none

/-- Room is made for a byte. -/
def room (m : GsmMux) : Option GsmMux :=
  if m.framepos = m.frame.length then m.overflow else some m

/-- One turn of the loop of `Process`, or two if the frame does not fit. -/
def next (m : GsmMux) (b : UInt8) : Option GsmMux := do
  let m ← m.room
  m.byte incoming b

/-- `Process`, of a buffer with these bytes. -/
def process (m : GsmMux) (bytes : List UInt8) : Option GsmMux := bytes.foldlM (next incoming) m

end Incoming

/-! ### What a byte must not do -/

/-- The checksum of the frame in the array is right. -/
def Good (m : GsmMux) : Prop :=
  checksum ((m.frame.drop 1).take (m.frameipos - 1)) = m.frame.getD (m.framelen - 2) 0

/-- The number of the channel that the frame in the array is for. -/
def addressed (m : GsmMux) : ℕ := (m.frame.getD 1 0 >>> 2).toNat

/-- A byte completes a frame that is good. -/
def Completes (m : GsmMux) (b : UInt8) : Prop :=
  m.framepos < m.frame.length ∧ (m.store b).framepos = (m.store b).framelen ∧ b = sof ∧
    (m.store b).Good

/-- A byte finds room in the array, or an array of 128 bytes; and if it completes a frame that is
good, there is a channel for it. -/
def Acceptable (m : GsmMux) (b : UInt8) : Prop :=
  (m.framepos = m.frame.length → 128 ≤ m.frame.length) ∧
    (m.Completes b → (m.store b).addressed < m.channels.length)

/-! ### The invariant -/

/-- What is known of the frame behind a byte that was stored: its length and where its data
start, from the fourth byte on; and that there are channels for all numbers, or none. -/
structure Framed (m : GsmMux) : Prop where
  pos_le : m.framepos ≤ m.frame.length
  short : m.framepos < 4 → m.framelen = 0 ∧ m.framemorelen = false
  long : 4 ≤ m.framepos → m.framepos ≤ m.framelen ∧ 6 ≤ m.framelen ∧
    m.frameipos + 2 ≤ m.framelen
  more : m.framemorelen = true → m.framepos = 4
  channels : m.channels = [] ∨ m.channelcount < m.channels.length

/-- Between two bytes, the frame is not complete. -/
structure Inv (m : GsmMux) : Prop extends Framed m where
  open_ : 4 ≤ m.framepos → m.framepos < m.framelen

variable {m m' : GsmMux} {incoming : GsmMuxChannel → OvmsBuffer} {b : UInt8}

@[simp] theorem channels_store : (m.store b).channels = m.channels := by
  simp only [store, firstLength, secondLength]
  repeat' split
  all_goals rfl

@[simp] theorem channelcount_store : (m.store b).channelcount = m.channelcount := by
  simp only [store, firstLength, secondLength]
  repeat' split
  all_goals rfl

@[simp] theorem frame_store : (m.store b).frame = m.frame.set m.framepos b := by
  simp only [store, firstLength, secondLength]
  repeat' split
  all_goals rfl

@[simp] theorem framepos_store : (m.store b).framepos = m.framepos + 1 := by
  simp only [store, firstLength, secondLength]
  repeat' split
  all_goals rfl

@[simp] theorem framingerrors_store : (m.store b).framingerrors = m.framingerrors := by
  simp only [store, firstLength, secondLength]
  repeat' split
  all_goals rfl

theorem store_length (h : m.framepos = 3) (b : UInt8) :
    (m.store b).framelen = (b >>> 1).toNat + (if b &&& 1 ≠ 0 then 6 else 7) ∧
      (m.store b).frameipos = (if b &&& 1 ≠ 0 then 4 else 5) ∧
      (m.store b).framemorelen = decide (b &&& 1 = 0) := by
  by_cases hb : b &&& 1 = 0 <;> simp [store, firstLength, h, hb]

theorem store_more (h : m.framepos = 4) (hmore : m.framemorelen = true) (b : UInt8) :
    (m.store b).framelen = m.framelen + b.toNat * 128 ∧
      (m.store b).frameipos = m.frameipos ∧ (m.store b).framemorelen = false := by
  simp [store, secondLength, h, hmore]

/-- No other byte is about the length. -/
theorem store_other (h : m.framepos ≠ 3) (hmore : m.framepos = 4 → m.framemorelen = false)
    (b : UInt8) :
    (m.store b).framelen = m.framelen ∧ (m.store b).frameipos = m.frameipos ∧
      (m.store b).framemorelen = m.framemorelen := by
  have hfour : ¬ (m.framepos = 4 ∧ m.framemorelen = true) := by
    rintro ⟨hpos, htrue⟩
    simp [hmore hpos] at htrue
  simp [store, h, hfour]

/-- Storing a byte keeps what is known of the frame. -/
theorem Inv.store (h : Inv m) (hpos : m.framepos < m.frame.length) (b : UInt8) :
    Framed (m.store b) := by
  have hle : (m.store b).framepos ≤ (m.store b).frame.length := by
    rw [framepos_store, frame_store, List.length_set]
    exact hpos
  have hchannels : (m.store b).channels = [] ∨
      (m.store b).channelcount < (m.store b).channels.length := by
    simpa using h.channels
  by_cases hthree : m.framepos = 3
  · obtain ⟨hlen, hipos, -⟩ := store_length hthree b
    refine ⟨hle, ?_, ?_, ?_, hchannels⟩
    · rw [framepos_store]
      omega
    · rw [framepos_store, hlen, hipos]
      split <;> omega
    · rw [framepos_store]
      omega
  · by_cases hmore : m.framepos = 4 ∧ m.framemorelen = true
    · obtain ⟨hlen, hipos, hfalse⟩ := store_more hmore.1 hmore.2 b
      have hlong := h.long hmore.1.ge
      have hopen := h.open_ hmore.1.ge
      refine ⟨hle, ?_, ?_, by simp [hfalse], hchannels⟩
      · rw [framepos_store]
        omega
      · rw [framepos_store, hlen, hipos]
        omega
    · have hfour : m.framepos = 4 → m.framemorelen = false := fun hpos => by
        simpa [hpos] using hmore
      obtain ⟨hlen, hipos, hsame⟩ := store_other hthree hfour b
      refine ⟨hle, ?_, ?_, ?_, hchannels⟩
      · rw [framepos_store, hlen, hsame]
        exact fun hlt => h.short (by omega)
      · rw [framepos_store, hlen, hipos]
        intro hge
        have hopen := h.open_ (by omega)
        have hlong := h.long (by omega)
        omega
      · rw [framepos_store, hsame]
        intro htrue
        have := h.more htrue
        simp [hfour this] at htrue

theorem inv_of_framepos (hpos : m.framepos = 0) (hlen : m.framelen = 0)
    (hmore : m.framemorelen = false)
    (hchannels : m.channels = [] ∨ m.channelcount < m.channels.length) : Inv m := by
  refine ⟨⟨?_, fun _ => ⟨hlen, hmore⟩, ?_, ?_, hchannels⟩, ?_⟩ <;> simp [hpos, hmore]

/-! ### Channels -/

theorem startChannel_eq {channel : ℕ} {chan : GsmMuxChannel}
    (h : m.channels[channel]? = some chan) : m.startChannel channel =
      some { m with channels := m.channels.set channel { chan with state := .opening } } := by
  rw [startChannel, h]
  rfl

/-- What a channel does with a frame leaves the frame, and as many channels as there are. -/
structure Keeps (m m' : GsmMux) : Prop where
  frame : m'.frame = m.frame
  channelcount : m'.channelcount = m.channelcount
  length : m'.channels.length = m.channels.length
  framingerrors : m'.framingerrors = m.framingerrors

variable (incoming) in
/-- The data of a frame are inside it. -/
theorem data_inside (hlen : 6 ≤ m.framelen) (hle : m.framelen ≤ m.frame.length)
    (hipos : m.frameipos + 2 ≤ m.framelen) (index : ℕ) (chan : GsmMuxChannel) :
    ∃ m', m.data incoming index chan = some m' ∧ Keeps m m' := by
  have htwo : 2 < m.frame.length := by omega
  have hcontrol : m.frame[2]? = some m.frame[2] := List.getElem?_eq_getElem htwo
  have hbytes : readBlock m.frame m.frameipos (m.framelen - 2 - m.frameipos) = some _ :=
    readBlock_eq_some (by omega)
  rw [GsmMux.data, hcontrol, hbytes]
  by_cases hui : m.frame[2] = uihPf ∨ m.frame[2] = uih
  · refine ⟨_, if_pos hui, rfl, rfl, ?_, rfl⟩
    simp
  · exact ⟨_, if_neg hui, rfl, rfl, rfl, rfl⟩

/-- The next channel is there, if there are channels. -/
theorem Framed.opened (h : Framed m) {index : ℕ} {chan : GsmMuxChannel}
    (hchan : m.channels[index]? = some chan) :
    ∃ m', m.opened index chan = some m' ∧ Keeps m m' ∧ m'.framepos = m.framepos ∧
      m'.framelen = m.framelen ∧ m'.frameipos = m.frameipos := by
  by_cases hnumber : chan.channel < m.channelcount
  · have hlength : m.channelcount < m.channels.length := by
      refine h.channels.resolve_left fun hnil => ?_
      simp [hnil] at hchan
    have hnext : chan.channel + 1 < (m.channels.set index
        { chan with state := .opened }).length := by
      rw [List.length_set]
      exact Nat.lt_of_le_of_lt hnumber hlength
    refine ⟨_, (if_pos hnumber).trans (startChannel_eq (List.getElem?_eq_getElem hnext)),
      ⟨rfl, rfl, ?_, rfl⟩, rfl, rfl, rfl⟩
    simp
  · refine ⟨_, if_neg hnumber, ⟨rfl, rfl, ?_, rfl⟩, rfl, rfl, rfl⟩
    simp

variable (incoming) in
/-- What a channel does stays inside. -/
theorem Framed.channelFrame (h : Framed m) (hlong : 4 ≤ m.framepos)
    (hend : m.framepos = m.framelen) {index : ℕ} {chan : GsmMuxChannel}
    (hchan : m.channels[index]? = some chan) :
    ∃ m', m.channelFrame incoming index chan = some m' ∧ Keeps m m' := by
  have hkeeps : Keeps m m := ⟨rfl, rfl, rfl, rfl⟩
  have hframe := h.long hlong
  have hle : m.framelen ≤ m.frame.length := hend ▸ h.pos_le
  cases hstate : chan.state with
  | closed => exact ⟨m, by rw [GsmMux.channelFrame, hstate], hkeeps⟩
  | closing => exact ⟨m, by rw [GsmMux.channelFrame, hstate], hkeeps⟩
  | opened =>
      rw [GsmMux.channelFrame, hstate]
      exact data_inside incoming hframe.2.1 hle hframe.2.2 index chan
  | opening =>
      -- the acknowledgement is no data, but the code goes on to look
      have htwo : 2 < m.frame.length := by omega
      obtain ⟨m₁, hm₁, hkeeps₁, hpos, hlen, hipos⟩ : ∃ m₁,
          m.acknowledge index chan m.frame[2] = some m₁ ∧ Keeps m m₁ ∧
            m₁.framepos = m.framepos ∧ m₁.framelen = m.framelen ∧
              m₁.frameipos = m.frameipos := by
        rw [acknowledge]
        split
        · exact h.opened hchan
        · exact ⟨m, rfl, hkeeps, rfl, rfl, rfl⟩
      have hindex : index < m₁.channels.length := by
        rw [hkeeps₁.length]
        exact (List.getElem?_eq_some_iff.mp hchan).1
      obtain ⟨m₂, hm₂, hkeeps₂⟩ := data_inside incoming (m := m₁)
        (by omega) (by rw [hlen, hkeeps₁.frame]; exact hle) (by omega) index m₁.channels[index]
      refine ⟨m₂, ?_, ?_⟩
      · simp only [GsmMux.channelFrame, hstate]
        rw [List.getElem?_eq_getElem htwo, Option.bind_eq_bind, Option.bind_some, hm₁,
          Option.bind_eq_bind, Option.bind_some, List.getElem?_eq_getElem hindex,
          Option.bind_eq_bind, Option.bind_some, hm₂]
      · exact ⟨hkeeps₂.frame.trans hkeeps₁.frame,
          hkeeps₂.channelcount.trans hkeeps₁.channelcount,
          hkeeps₂.length.trans hkeeps₁.length,
          hkeeps₂.framingerrors.trans hkeeps₁.framingerrors⟩

/-- A frame is looked at, if the channel it is for is there. -/
theorem Framed.processFrame (h : Framed m) (hlong : 4 ≤ m.framepos)
    (hend : m.framepos = m.framelen) :
    (m.processFrame incoming).isSome ↔ (m.Good → m.addressed < m.channels.length) := by
  have hframe := h.long hlong
  have hle := h.pos_le
  have haddress : m.frame[1]? = some (m.frame.getD 1 0) := by
    rw [List.getD_eq_getElem _ _ (by omega), List.getElem?_eq_getElem (by omega)]
  have hfcs : m.frame[m.framelen - 2]? = some (m.frame.getD (m.framelen - 2) 0) := by
    rw [List.getD_eq_getElem _ _ (by omega), List.getElem?_eq_getElem (by omega)]
  have hheader : readBlock m.frame 1 (m.frameipos - 1) = some _ := readBlock_eq_some (by omega)
  rw [GsmMux.processFrame, haddress, hheader, hfcs]
  simp only [Option.bind_eq_bind, Option.bind_some]
  split
  · rename_i hbad
    exact iff_of_true rfl fun hgood => absurd hgood hbad
  · rename_i hgood
    have hgood : m.Good := not_not.mp hgood
    cases hchan : m.channels[m.addressed]? with
    | none =>
        rw [addressed] at hchan
        rw [hchan]
        refine iff_of_false (by simp) fun hlt => ?_
        rw [List.getElem?_eq_none_iff] at hchan
        exact absurd (hlt hgood) (Nat.not_lt.mpr hchan)
    | some chan =>
        obtain ⟨m', hm', -⟩ := h.channelFrame incoming hlong hend hchan
        rw [addressed] at hchan hm'
        rw [hchan, Option.bind_some, hm']
        exact iff_of_true rfl fun _ => (List.getElem?_eq_some_iff.mp hchan).1

/-- What is left of a frame that was looked at: as many channels, and the next frame is
awaited. -/
theorem Framed.of_processFrame (h : Framed m) (hlong : 4 ≤ m.framepos)
    (hend : m.framepos = m.framelen) (hm' : m.processFrame incoming = some m') :
    Inv m' ∧ m.framingerrors ≤ m'.framingerrors := by
  rw [GsmMux.processFrame] at hm'
  simp only [Option.bind_eq_bind, Option.bind_eq_some_iff] at hm'
  obtain ⟨address, -, headed, -, fcs, -, hm'⟩ := hm'
  split at hm'
  · obtain rfl := Option.some.inj hm'
    exact ⟨inv_of_framepos rfl rfl rfl h.channels, Nat.le_succ _⟩
  · simp only [Option.bind_eq_some_iff] at hm'
    obtain ⟨chan, hchan, m₁, hm₁, hm'⟩ := hm'
    obtain rfl := Option.some.inj hm'
    obtain ⟨m₂, hm₂, hkeeps⟩ := h.channelFrame incoming hlong hend hchan
    obtain rfl := Option.some.inj (hm₁.symm.trans hm₂)
    refine ⟨inv_of_framepos rfl rfl rfl ?_, hkeeps.framingerrors.ge⟩
    refine h.channels.imp (fun hnil => ?_) fun hlt => ?_
    · simp [hnil] at hchan
    · change m₁.channelcount < m₁.channels.length
      rw [hkeeps.channelcount, hkeeps.length]
      exact hlt

/-! ### A byte -/

/-- A frame that does not end where it should is inside the array. -/
theorem Framed.frameError (h : Framed m) (hlong : 4 ≤ m.framepos)
    (hend : m.framepos = m.framelen) : m.frameError =
      some { m with framepos := 0, framelen := 0, framemorelen := false,
                    framingerrors := m.framingerrors + 1 } := by
  have hframe := h.long hlong
  have hle := h.pos_le
  rw [GsmMux.frameError, List.getElem?_eq_getElem (show 1 < m.frame.length by omega),
    List.getElem?_eq_getElem (show 2 < m.frame.length by omega),
    List.getElem?_eq_getElem (show m.framelen - 2 < m.frame.length by omega),
    readBlock_eq_some (show 0 + m.framelen ≤ m.frame.length by omega)]
  rfl

theorem byte_eq (hskip : m.framepos = 0 → b = sof) (hflag : m.framepos = 1 → b ≠ sof)
    (hpos : m.framepos < m.frame.length) : m.byte incoming b =
      if (m.store b).framepos = (m.store b).framelen then
        if b = sof then (m.store b).processFrame incoming else (m.store b).frameError
      else some (m.store b) := by
  rw [GsmMux.byte, if_neg (by simpa using hskip), if_neg (by simpa using hflag), if_pos hpos]

theorem Framed.four_le (h : Framed m) (hpos : 0 < m.framepos)
    (hend : m.framepos = m.framelen) : 4 ≤ m.framepos := by
  by_contra hlt
  have := (h.short (by omega)).1
  omega

theorem Framed.inv (h : Framed m) (hend : m.framepos ≠ m.framelen) : Inv m :=
  ⟨h, fun hlong => Nat.lt_of_le_of_ne (h.long hlong).1 hend⟩

/-- Every byte that stays inside keeps the invariant, and takes back no framing error. -/
theorem Inv.byte (h : Inv m) (hm' : m.byte incoming b = some m') :
    Inv m' ∧ m.framingerrors ≤ m'.framingerrors := by
  by_cases hskip : m.framepos = 0 ∧ b ≠ sof
  · rw [GsmMux.byte, if_pos hskip] at hm'
    obtain rfl := Option.some.inj hm'
    exact ⟨h, le_rfl⟩
  by_cases hflag : m.framepos = 1 ∧ b = sof
  · rw [GsmMux.byte, if_neg hskip, if_pos hflag] at hm'
    obtain rfl := Option.some.inj hm'
    exact ⟨h, le_rfl⟩
  by_cases hpos : m.framepos < m.frame.length
  swap
  · rw [GsmMux.byte, if_neg hskip, if_neg hflag, if_neg hpos] at hm'
    cases hm'
  have hstore := h.store hpos b
  rw [byte_eq (by simpa using hskip) (by simpa using hflag) hpos] at hm'
  by_cases hend : (m.store b).framepos = (m.store b).framelen
  · have hlong := hstore.four_le (by simp) hend
    rw [if_pos hend] at hm'
    by_cases hb : b = sof
    · rw [if_pos hb] at hm'
      rw [← framingerrors_store (b := b)]
      exact hstore.of_processFrame hlong hend hm'
    · rw [if_neg hb, hstore.frameError hlong hend] at hm'
      obtain rfl := Option.some.inj hm'
      refine ⟨inv_of_framepos rfl rfl rfl hstore.channels, ?_⟩
      change m.framingerrors ≤ (m.store b).framingerrors + 1
      rw [framingerrors_store]
      exact Nat.le_succ _
  · rw [if_neg hend] at hm'
    obtain rfl := Option.some.inj hm'
    exact ⟨hstore.inv hend, framingerrors_store.ge⟩

/-- A byte that finds room stays inside, if there is a channel for what it completes. -/
theorem Inv.byte_isSome (h : Inv m) (hpos : m.framepos < m.frame.length) :
    (m.byte incoming b).isSome ↔
      (m.Completes b → (m.store b).addressed < m.channels.length) := by
  by_cases hskip : m.framepos = 0 ∧ b ≠ sof
  · rw [GsmMux.byte, if_pos hskip]
    exact iff_of_true rfl fun hc => absurd hc.2.2.1 hskip.2
  have hstore := h.store hpos b
  by_cases hend : (m.store b).framepos = (m.store b).framelen
  · have hlong := hstore.four_le (by simp) hend
    have hflag : ¬ (m.framepos = 1 ∧ b = sof) := by
      rw [framepos_store] at hlong
      omega
    rw [byte_eq (by simpa using hskip) (by simpa using hflag) hpos, if_pos hend]
    by_cases hb : b = sof
    · rw [if_pos hb, hstore.processFrame hlong hend, channels_store]
      exact ⟨fun hgood hc => hgood hc.2.2.2, fun hc hgood => hc ⟨hpos, hend, hb, hgood⟩⟩
    · rw [if_neg hb, hstore.frameError hlong hend]
      exact iff_of_true rfl fun hc => absurd hc.2.2.1 hb
  · refine iff_of_true ?_ fun hc => absurd hc.2.1 hend
    by_cases hflag : m.framepos = 1 ∧ b = sof
    · rw [GsmMux.byte, if_neg hskip, if_pos hflag]
      rfl
    · rw [byte_eq (by simpa using hskip) (by simpa using hflag) hpos, if_neg hend]
      rfl

/-- Where there is no room, it is made if the array has 128 bytes. -/
theorem room_isSome : m.room.isSome ↔
    (m.framepos = m.frame.length → 128 ≤ m.frame.length) := by
  rw [room]
  split
  · rename_i hpos
    rw [overflow, Option.bind_eq_bind, Option.isSome_bind]
    simp [readBlock_isSome, hpos]
  · rename_i hpos
    exact iff_of_true rfl fun h => absurd h hpos

/-- What there is behind making room. -/
theorem room_cases (h : m.room = some m') : m' = m ∧ m.framepos ≠ m.frame.length ∨
    m' = { m with framepos := 0, framelen := 0, framemorelen := false,
                  framingerrors := m.framingerrors + 1 } ∧ m.framepos = m.frame.length ∧
      128 ≤ m.frame.length := by
  have hroom := room_isSome.mp (Option.isSome_iff_exists.mpr ⟨m', h⟩)
  rw [room] at h
  split at h
  · rename_i hpos
    rw [overflow, Option.bind_eq_bind, Option.bind_eq_some_iff] at h
    obtain ⟨-, -, h⟩ := h
    exact .inr ⟨(Option.some.inj h).symm, hpos, hroom hpos⟩
  · rename_i hpos
    exact .inl ⟨(Option.some.inj h).symm, hpos⟩

theorem Inv.room (h : Inv m) (hm' : m.room = some m') :
    Inv m' ∧ m.framingerrors ≤ m'.framingerrors := by
  rcases room_cases hm' with ⟨rfl, -⟩ | ⟨rfl, -, -⟩
  · exact ⟨h, le_rfl⟩
  · exact ⟨inv_of_framepos rfl rfl rfl h.channels, Nat.le_succ _⟩

/-- **What every byte keeps.** -/
theorem Inv.next (h : Inv m) (hm' : m.next incoming b = some m') :
    Inv m' ∧ m.framingerrors ≤ m'.framingerrors := by
  rw [GsmMux.next, Option.bind_eq_bind, Option.bind_eq_some_iff] at hm'
  obtain ⟨m₁, hm₁, hm'⟩ := hm'
  obtain ⟨hinv, hle⟩ := h.room hm₁
  obtain ⟨hinv', hle'⟩ := hinv.byte hm'
  exact ⟨hinv', hle.trans hle'⟩

/-- **A byte** stays inside exactly when it is acceptable. -/
theorem next_isSome_iff (h : Inv m) : (m.next incoming b).isSome ↔ m.Acceptable b := by
  rw [GsmMux.next, Option.bind_eq_bind, Acceptable, ← room_isSome]
  cases hm₁ : m.room with
  | none => simp
  | some m₁ =>
      rw [Option.bind_some]
      rcases room_cases hm₁ with ⟨rfl, hpos⟩ | ⟨rfl, hpos, hlength⟩
      · rw [h.byte_isSome (Nat.lt_of_le_of_ne h.pos_le hpos)]
        simp
      · -- behind an overflow, a byte at most starts a frame
        have hinv := (h.room hm₁).1
        rw [hinv.byte_isSome (show 0 < m.frame.length by omega)]
        refine iff_of_true (fun hc => ?_) ⟨rfl, fun hc => absurd hc.1 (by omega)⟩
        exact absurd hc.2.1 (by simp [store])

end GsmMux

/-! ### Every run -/

/-- The multiplexer is started or shut down, or a buffer is processed. -/
inductive Op
  | startup (size : ℕ)
  | shutdown
  | process (bytes : List UInt8)

namespace GsmMux

section Runs

variable (incoming : GsmMuxChannel → OvmsBuffer)

/-- A step. -/
def step (m : GsmMux) : Op → Option GsmMux
  | .startup size => m.startup size
  | .shutdown => some m.shutdown
  | .process bytes => m.process incoming bytes

/-- A step must not process a byte that is not acceptable. -/
def AcceptableOp (m : GsmMux) : Op → Prop
  | .process bytes => AlongSteps (fun m b m' => m.next incoming b = some m') Acceptable m bytes
  | _ => True

end Runs

variable {m m' : GsmMux} {incoming : GsmMuxChannel → OvmsBuffer}

theorem Inv.process (h : Inv m) {bytes : List UInt8} (hm' : m.process incoming bytes = some m') :
    Inv m' ∧ m.framingerrors ≤ m'.framingerrors :=
  foldlM_invariant (R := fun m m' => m.framingerrors ≤ m'.framingerrors) (fun _ => le_rfl)
    (fun _ _ _ => le_trans) (fun _ _ _ => Inv.next) h hm'

/-- There is a first channel to start. -/
theorem startup_eq (m : GsmMux) (size : ℕ) : ∃ chan, m.startup size = some
    { m with
      state := .opening
      framingerrors := 0
      channels := (m.channels ++ newChannels m.channelcount size).set 0 chan } := by
  have hpos : 0 < (m.channels ++ newChannels m.channelcount size).length := by
    rw [List.length_append, newChannels, List.length_cons]
    omega
  have hstarted := startChannel_eq
    (m := { m with framingerrors := 0, channels := m.channels ++ newChannels m.channelcount size })
    (List.getElem?_eq_getElem hpos)
  exact ⟨_, by rw [startup, hstarted]; rfl⟩

theorem Inv.startup (h : Inv m) (size : ℕ) : ∃ m', m.startup size = some m' ∧ Inv m' := by
  obtain ⟨chan, hm'⟩ := startup_eq m size
  refine ⟨_, hm', ⟨h.pos_le, h.short, h.long, h.more, .inr ?_⟩, h.open_⟩
  rw [List.length_set, List.length_append, newChannels, List.length_cons, List.length_map,
    List.length_range]
  change m.channelcount < _
  omega

/-- Every step keeps the invariant. -/
theorem Inv.step (h : Inv m) {op : Op} (hm' : m.step incoming op = some m') : Inv m' := by
  cases op with
  | startup size =>
      obtain ⟨m₁, hm₁, hinv⟩ := h.startup size
      obtain rfl := Option.some.inj (hm'.symm.trans hm₁)
      exact hinv
  | shutdown =>
      obtain rfl := Option.some.inj hm'
      exact inv_of_framepos rfl rfl rfl (.inl rfl)
  | process bytes => exact (h.process hm').1

/-- A step stays inside exactly when it is acceptable. -/
theorem step_isSome_iff (h : Inv m) (op : Op) :
    (m.step incoming op).isSome ↔ m.AcceptableOp incoming op := by
  cases op with
  | startup size =>
      obtain ⟨m₁, hm₁, -⟩ := h.startup size
      exact iff_of_true (Option.isSome_iff_exists.mpr ⟨m₁, hm₁⟩) trivial
  | shutdown => exact iff_of_true rfl trivial
  | process bytes =>
      exact foldlM_isSome_iff (fun _ _ => next_isSome_iff) (fun _ _ _ h hm' => (h.next hm').1) h
        bytes

theorem inv_new (channelcount maxframesize : ℕ) : Inv (new channelcount maxframesize) :=
  inv_of_framepos rfl rfl rfl (.inl rfl)

/-- **Safety**: a run of a new multiplexer stays inside exactly when every byte of it is
acceptable. -/
theorem run_isSome_iff (incoming : GsmMuxChannel → OvmsBuffer) (channelcount maxframesize : ℕ)
    (ops : List Op) : (ops.foldlM (step incoming) (new channelcount maxframesize)).isSome ↔
      AlongSteps (fun m op m' => m.step incoming op = some m') (AcceptableOp incoming)
        (new channelcount maxframesize) ops :=
  foldlM_isSome_iff (fun _ op h => step_isSome_iff h op) (fun _ _ _ h hm' => h.step hm')
    (inv_new channelcount maxframesize) ops

/-- Before it is started, a multiplexer with five channels does not stay inside when the empty
frame of one of them arrives. -/
theorem not_run_isSome : ¬ ∀ (incoming : GsmMuxChannel → OvmsBuffer)
    (channelcount maxframesize : ℕ) (ops : List Op),
    (ops.foldlM (step incoming) (new channelcount maxframesize)).isSome := by
  intro h
  have hsome := h GsmMuxChannel.buffer 5 2048 [.process (tx 1 [])]
  have hnone : ([Op.process (tx 1 [])].foldlM (step GsmMuxChannel.buffer)
      (new 5 2048)).isSome = false := by
    decide +kernel
  rw [hnone] at hsome
  cases hsome

end GsmMux

end Ovms.Cellular
