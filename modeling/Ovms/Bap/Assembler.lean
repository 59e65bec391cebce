import Ovms.Bap.Element

/-!
# The BAP Assembler

`AssemblerT<MaxBody, MaxPending>` (`bap/bap.h`): the receive side of the segmentation.
Frames of one arbitration id are fed one at a time; a short frame completes at once, a
segmented telegram collects in one of `MaxPending` slots until it has the bytes its start
frame announced.

The model has two layers. `AssemblerT.feed` is the code: every array access goes through
a checked read or a checked copy, so the answer `none` means that the code touched memory
outside the frame or outside a buffer. `Assembler` bundles an assembler with the slot
invariant `AssemblerT.Wf`; there `feed` is total, and everything built on the assembler
uses that layer.

The buffers are lists; `expected`, `got` and the frame lengths are naturals, because no
value of theirs leaves a byte. `startedAt` and the sequence counter wrap as `uint32_t`.
-/

open Lib

namespace Ovms.Bap

/-- One reassembly slot. -/
structure Pending where
  active : Bool
  group : UInt8
  nextIndex : UInt8
  hdr0 : UInt8
  hdr1 : UInt8
  expected : ℕ
  got : ℕ
  startedAt : UInt32
  buf : List UInt8
  deriving DecidableEq, Repr

/-- The assembler: its slots, the buffer behind short bodies, the start sequence number
and the diagnostic counters. -/
structure AssemblerT (maxBody maxPending : ℕ) where
  pending : List Pending
  shortBuf : List UInt8
  seq : UInt32
  droppedOrphans : UInt32
  evictions : UInt32
  overflowDrops : UInt32
  badDlc : UInt32
  deriving DecidableEq, Repr

namespace AssemblerT

variable {maxBody maxPending : ℕ}

/-- `reset`: every slot becomes free; nothing else changes. -/
def reset (a : AssemblerT maxBody maxPending) : AssemblerT maxBody maxPending :=
  { a with pending := a.pending.map fun pm => { pm with active := false } }

/-- The newest stream (highest slot) of `group` that waits for continuation `index`. -/
def findPending (a : AssemblerT maxBody maxPending) (group index : UInt8) : Option ℕ :=
  lastIdx? (fun pm => pm.active && pm.group == group && pm.nextIndex == index &&
    decide (pm.got < pm.expected)) a.pending

/-- `startedAt` of slot `i`. -/
def startedAt (ps : List Pending) (i : ℕ) : UInt32 := (ps[i]?.map Pending.startedAt).getD 0

/-- The slot with the lowest `startedAt`, the first of them on a tie. -/
def stalest (ps : List Pending) : ℕ :=
  (List.range ps.length).foldl
    (fun oldest i => if startedAt ps i < startedAt ps oldest then i else oldest) 0

/-- A slot for a new start: the first free one, else the stalest, which is evicted. -/
def allocSlot (a : AssemblerT maxBody maxPending) : ℕ × AssemblerT maxBody maxPending :=
  match a.pending.findIdx? fun pm => !pm.active with
  | some i => (i, a)
  | none => (stalest a.pending, { a with evictions := a.evictions + 1 })

end AssemblerT

/-- `complete`: the slot is freed and its bytes become the element. -/
def Pending.complete (pm : Pending) : Pending × Element :=
  let h := decodeHeader pm.hdr0 pm.hdr1
  ({ pm with active := false }, ⟨h.1, h.2.1, h.2.2, pm.buf.take pm.got⟩)

namespace AssemblerT

variable {maxBody maxPending : ℕ}

/-- Store slot `i`, completing it when it has all its bytes. -/
def store (a : AssemblerT maxBody maxPending) (i : ℕ) (pm : Pending) :
    AssemblerT maxBody maxPending × Option Element :=
  if pm.got ≥ pm.expected then
    let c := pm.complete
    ({ a with pending := a.pending.set i c.1 }, some c.2)
  else ({ a with pending := a.pending.set i pm }, none)

/-- `feed` on a short frame. -/
def feedShort (a : AssemblerT maxBody maxPending) (data : List UInt8) (dlc : ℕ) :
    Option (AssemblerT maxBody maxPending × Option Element) :=
  if dlc < 2 then some (a, none)
  else do
    let in0 ← data[0]?
    let in1 ← data[1]?
    let body ← readBlock data 2 (dlc - 2)
    let shortBuf ← copyBlock a.shortBuf 0 body
    let h := decodeHeader in0 in1
    some ({ a with shortBuf }, some ⟨h.1, h.2.1, h.2.2, shortBuf.take (dlc - 2)⟩)

/-- The assembler after `seq_++`. -/
def bumpSeq (a : AssemblerT maxBody maxPending) : AssemblerT maxBody maxPending :=
  { a with seq := a.seq + 1 }

/-- `feed` on a start frame. -/
def feedStart (a : AssemblerT maxBody maxPending) (data : List UInt8) (dlc : ℕ)
    (ctrl : UInt8) : Option (AssemblerT maxBody maxPending × Option Element) :=
  if dlc < 4 then some (a, none)
  else do
    let len ← data[1]?
    if len.toNat > maxBody then
      some ({ a with overflowDrops := a.overflowDrops + 1 }, none)
    else
      let slot := a.allocSlot
      let pm ← slot.2.pending[slot.1]?
      let hdr0 ← data[2]?
      let hdr1 ← data[3]?
      let chunk := if dlc > 4 then dlc - 4 else 0
      let chunk := if chunk > len.toNat then len.toNat else chunk
      let bytes ← readBlock data 4 chunk
      let buf ← copyBlock pm.buf 0 bytes
      some (slot.2.bumpSeq.store slot.1
        { active := true, group := segGroup ctrl, nextIndex := 0, hdr0, hdr1,
          expected := len.toNat, got := chunk, startedAt := slot.2.seq, buf })

/-- The slot update of a continuation frame: append what is missing, advance the
index. -/
def appendChunk (maxBody : ℕ) (pm : Pending) (data : List UInt8) (dlc : ℕ) : Option Pending := do
  let chunk := if dlc > 1 then dlc - 1 else 0
  let remaining := pm.expected - pm.got
  let chunk := if chunk > remaining then remaining else chunk
  let pm ←
    if chunk ≠ 0 ∧ pm.got + chunk ≤ maxBody then do
      let bytes ← readBlock data 1 chunk
      let buf ← copyBlock pm.buf pm.got bytes
      some { pm with buf, got := pm.got + chunk }
    else some pm
  some { pm with nextIndex := (pm.nextIndex + 1) &&& 0xF }

/-- `feed` on a continuation frame. -/
def feedCont (a : AssemblerT maxBody maxPending) (data : List UInt8) (dlc : ℕ)
    (ctrl : UInt8) : Option (AssemblerT maxBody maxPending × Option Element) :=
  match a.findPending (segGroup ctrl) (segIndex ctrl) with
  | none => some ({ a with droppedOrphans := a.droppedOrphans + 1 }, none)
  | some i => do
      let pm ← a.pending[i]?
      let pm ← appendChunk maxBody pm data dlc
      some (a.store i pm)

/-- `feed`: one frame of `dlc` bytes at `data`. The outer `none` is an access out of
bounds; the inner one is the return value `false`. -/
def feed (a : AssemblerT maxBody maxPending) (data : List UInt8) (dlc : ℕ) :
    Option (AssemblerT maxBody maxPending × Option Element) :=
  if dlc < 1 then some (a, none)
  else if dlc > 8 then some ({ a with badDlc := a.badDlc + 1 }, none)
  else do
    let ctrl ← data[0]?
    if isShortFrame ctrl then a.feedShort data dlc
    else if isSegStart ctrl then a.feedStart data dlc ctrl
    else if isSegCont ctrl then a.feedCont data dlc ctrl
    else some (a, none)

end AssemblerT

/-! ### The slot invariant -/

/-- A slot is sound: its buffer has the declared size, and an active slot still waits for
bytes that fit it, at a 4-bit index. -/
structure Pending.Wf (maxBody : ℕ) (pm : Pending) : Prop where
  buf_len : pm.buf.length = maxBody
  bound : pm.active = true → pm.got < pm.expected ∧ pm.expected ≤ maxBody
  index : pm.active = true → pm.nextIndex.toNat < 16

/-- An assembler is well-formed: as many sound slots as declared, at least one, and a
six-byte short buffer. -/
structure AssemblerT.Wf {maxBody maxPending : ℕ} (a : AssemblerT maxBody maxPending) :
    Prop where
  slots : a.pending.length = maxPending
  nonempty : 0 < maxPending
  short : a.shortBuf.length = 6
  each : ∀ pm ∈ a.pending, pm.Wf maxBody

/-- A newly constructed assembler: all slots free, all counters zero. The slot buffers
and the short buffer are not initialised, so their contents are not constrained. -/
structure AssemblerT.Fresh {maxBody maxPending : ℕ} (a : AssemblerT maxBody maxPending) :
    Prop where
  slots : a.pending.length = maxPending
  short : a.shortBuf.length = 6
  free : ∀ pm ∈ a.pending, pm.active = false ∧ pm.buf.length = maxBody
  counters : a.seq = 0 ∧ a.droppedOrphans = 0 ∧ a.evictions = 0 ∧ a.overflowDrops = 0 ∧
    a.badDlc = 0

namespace AssemblerT

variable {maxBody maxPending : ℕ} {a : AssemblerT maxBody maxPending}

theorem Fresh.wf (h : a.Fresh) (hpos : 0 < maxPending) : a.Wf where
  slots := h.slots
  nonempty := hpos
  short := h.short
  each := fun pm hpm =>
    have hidle : pm.active ≠ true := by rw [(h.free pm hpm).1]; exact Bool.false_ne_true
    ⟨(h.free pm hpm).2, fun hact => absurd hact hidle, fun hact => absurd hact hidle⟩

/-- A new assembler whose buffers happen to hold zeros. -/
def zeroed (maxBody maxPending : ℕ) : AssemblerT maxBody maxPending where
  pending := List.replicate maxPending ⟨false, 0, 0, 0, 0, 0, 0, 0, List.replicate maxBody 0⟩
  shortBuf := List.replicate 6 0
  seq := 0
  droppedOrphans := 0
  evictions := 0
  overflowDrops := 0
  badDlc := 0

/-- It is a new assembler. -/
theorem zeroed_fresh (maxBody maxPending : ℕ) : (zeroed maxBody maxPending).Fresh where
  slots := List.length_replicate
  short := List.length_replicate
  free := by
    intro pm hpm
    rw [List.eq_of_mem_replicate hpm]
    exact ⟨rfl, List.length_replicate⟩
  counters := ⟨rfl, rfl, rfl, rfl, rfl⟩

/-- `reset` keeps the invariant. -/
theorem Wf.reset (h : a.Wf) : a.reset.Wf where
  slots := by rw [AssemblerT.reset, List.length_map, h.slots]
  nonempty := h.nonempty
  short := h.short
  each := by
    intro pm hpm
    obtain ⟨q, hq, rfl⟩ := List.mem_map.mp hpm
    exact ⟨(h.each q hq).buf_len, Bool.noConfusion, Bool.noConfusion⟩

theorem stalest_lt {ps : List Pending} (h : 0 < ps.length) : stalest ps < ps.length := by
  rw [stalest]
  refine List.foldlRecOn (motive := fun i => i < ps.length) _ _ h fun oldest holdest i hi => ?_
  split
  · exact List.mem_range.mp hi
  · exact holdest

/-- The slot given to a new start exists, and choosing it moves no slot. -/
theorem Wf.allocSlot (h : a.Wf) :
    a.allocSlot.1 < a.pending.length ∧ a.allocSlot.2.pending = a.pending ∧
      a.allocSlot.2.shortBuf = a.shortBuf := by
  rw [AssemblerT.allocSlot]
  cases hfree : a.pending.findIdx? fun pm => !pm.active with
  | some i =>
      obtain ⟨hi, -⟩ := List.findIdx?_eq_some_iff_getElem.mp hfree
      exact ⟨hi, rfl, rfl⟩
  | none => exact ⟨stalest_lt (by rw [h.slots]; exact h.nonempty), rfl, rfl⟩

theorem findPending_spec {group index : UInt8} {i : ℕ}
    (h : a.findPending group index = some i) :
    ∃ pm, a.pending[i]? = some pm ∧ pm.active = true ∧ pm.group = group ∧
      pm.nextIndex = index ∧ pm.got < pm.expected := by
  obtain ⟨⟨pm, hpm, hp⟩, -⟩ := lastIdx?_eq_some_iff.mp h
  simp only [Bool.and_eq_true, beq_iff_eq, decide_eq_true_eq] at hp
  exact ⟨pm, hpm, hp.1.1.1, hp.1.1.2, hp.1.2, hp.2⟩

theorem nextIndex_lt (index : UInt8) : ((index + 1) &&& 0xF).toNat < 16 := by
  rw [Lib.UInt8.toNat_and_mask _ (k := 4) rfl]
  exact Nat.mod_lt _ (Nat.two_pow_pos 4)

/-- Storing a slot that expects no more than it holds, at a 4-bit index, keeps the
invariant. -/
theorem Wf.store (h : a.Wf) {pm : Pending} (i : ℕ) (hbuf : pm.buf.length = maxBody)
    (hexp : pm.expected ≤ maxBody) (hidx : pm.nextIndex.toNat < 16) :
    (a.store i pm).1.Wf := by
  have hset : ∀ q : Pending, q.Wf maxBody →
      ({ a with pending := a.pending.set i q } : AssemblerT maxBody maxPending).Wf := by
    intro q hq
    refine ⟨?_, h.nonempty, h.short, fun p hp => ?_⟩
    · rw [List.length_set]
      exact h.slots
    · rcases List.mem_or_eq_of_mem_set hp with hp | rfl
      · exact h.each p hp
      · exact hq
  rw [AssemblerT.store]
  split
  · exact hset _ ⟨hbuf, Bool.noConfusion, Bool.noConfusion⟩
  · exact hset _ ⟨hbuf, fun _ => ⟨by omega, hexp⟩, fun _ => hidx⟩

theorem store_of_lt (i : ℕ) {pm : Pending} (a : AssemblerT maxBody maxPending)
    (h : pm.got < pm.expected) :
    a.store i pm = ({ a with pending := a.pending.set i pm }, none) :=
  if_neg (by omega)

theorem store_of_ge (i : ℕ) {pm : Pending} (a : AssemblerT maxBody maxPending)
    (h : pm.expected ≤ pm.got) :
    a.store i pm = ({ a with pending := a.pending.set i pm.complete.1 }, some pm.complete.2) :=
  if_pos h

/-- What `store` delivers is the slot's bytes, and only when they are all there. -/
theorem store_eq_some {i : ℕ} {pm : Pending} {el : Element} (h : (a.store i pm).2 = some el) :
    pm.expected ≤ pm.got ∧ el.body = pm.buf.take pm.got := by
  rcases Nat.lt_or_ge pm.got pm.expected with hlt | hge
  · rw [store_of_lt i a hlt] at h
    cases h
  · rw [store_of_ge i a hge] at h
    obtain rfl := Option.some.inj h
    exact ⟨hge, rfl⟩

theorem store_pending_ne {i j : ℕ} (a : AssemblerT maxBody maxPending) (pm : Pending)
    (h : i ≠ j) : (a.store i pm).1.pending[j]? = a.pending[j]? := by
  rw [AssemblerT.store]
  split <;> exact List.getElem?_set_ne h

/-- A short frame is read inside its bytes and copied inside the short buffer. -/
theorem Wf.feedShort (h : a.Wf) {data : List UInt8} {dlc : ℕ} (h8 : dlc ≤ 8)
    (hdata : dlc ≤ data.length) : ∃ r, a.feedShort data dlc = some r ∧ r.1.Wf := by
  rw [AssemblerT.feedShort]
  by_cases h2 : dlc < 2
  · exact ⟨(a, none), if_pos h2, h⟩
  · rw [if_neg h2, List.getElem?_eq_getElem (by omega), List.getElem?_eq_getElem (by omega),
      readBlock_eq_some (by omega)]
    have hcopy := copyBlock_eq_some a.shortBuf 0 ((data.drop 2).take (dlc - 2))
      (by rw [h.short, List.length_take, List.length_drop]; omega)
    simp only [Option.bind_eq_bind, Option.bind_some, hcopy]
    refine ⟨_, rfl, h.slots, h.nonempty, ?_, h.each⟩
    rw [length_of_copyBlock hcopy, h.short]

/-- A frame of up to eight bytes is dispatched on its first byte. -/
theorem feed_cons (ctrl : UInt8) (rest : List UInt8) {n : ℕ} (hn : n < 8) :
    a.feed (ctrl :: rest) (n + 1) =
      if isShortFrame ctrl then a.feedShort (ctrl :: rest) (n + 1)
      else if isSegStart ctrl then a.feedStart (ctrl :: rest) (n + 1) ctrl
      else if isSegCont ctrl then a.feedCont (ctrl :: rest) (n + 1) ctrl
      else some (a, none) := by
  rw [feed, if_neg (by omega), if_neg (by omega)]
  rfl

theorem feedStart_short (data : List UInt8) {dlc : ℕ} (ctrl : UInt8) (h4 : dlc < 4) :
    a.feedStart data dlc ctrl = some (a, none) :=
  if_pos h4

theorem feedStart_overflow {data : List UInt8} {dlc : ℕ} (len ctrl : UInt8)
    (h4 : 4 ≤ dlc) (hlen : data[1]? = some len) (hover : maxBody < len.toNat) :
    a.feedStart data dlc ctrl
      = some ({ a with overflowDrops := a.overflowDrops + 1 }, none) := by
  rw [feedStart, if_neg (by omega), hlen]
  simp only [Option.bind_eq_bind, Option.bind_some]
  rw [if_pos hover]

/-- A start frame that fits opens the allocated slot with its first body bytes. -/
theorem Wf.feedStart_eq (h : a.Wf) (data : List UInt8) (dlc : ℕ) {len hdr0 hdr1 : UInt8}
    (ctrl : UInt8) (h4 : 4 ≤ dlc) (hdata : dlc ≤ data.length) (hlen : data[1]? = some len)
    (hhdr0 : data[2]? = some hdr0) (hhdr1 : data[3]? = some hdr1)
    (hfit : len.toNat ≤ maxBody) :
    ∃ buf, a.feedStart data dlc ctrl = some (a.allocSlot.2.bumpSeq.store a.allocSlot.1
        { active := true, group := segGroup ctrl, nextIndex := 0, hdr0, hdr1,
          expected := len.toNat, got := min (dlc - 4) len.toNat,
          startedAt := a.allocSlot.2.seq, buf }) ∧
      buf.length = maxBody ∧
      buf.take (min (dlc - 4) len.toNat) = (data.drop 4).take (min (dlc - 4) len.toNat) := by
  obtain ⟨hslot, hpend, -⟩ := h.allocSlot
  have hchunk : (if (if dlc > 4 then dlc - 4 else 0) > len.toNat then len.toNat
      else if dlc > 4 then dlc - 4 else 0) = min (dlc - 4) len.toNat := by
    split <;> split <;> omega
  rw [feedStart, if_neg (by omega), hlen]
  simp only [Option.bind_eq_bind, Option.bind_some]
  rw [if_neg (by omega), hpend, List.getElem?_eq_getElem hslot, hhdr0, hhdr1]
  simp only [Option.bind_some, hchunk]
  generalize hk : min (dlc - 4) len.toNat = k
  have hread : ((data.drop 4).take k).length = k := by
    rw [List.length_take, List.length_drop]
    omega
  have hbuf := (h.each _ (List.getElem_mem hslot)).buf_len
  have hcopy := copyBlock_eq_some a.pending[a.allocSlot.1].buf 0 ((data.drop 4).take k)
    (by rw [hbuf, hread]; omega)
  rw [readBlock_eq_some (by omega)]
  simp only [Option.bind_some, hcopy]
  refine ⟨_, rfl, ?_, ?_⟩
  · rw [length_of_copyBlock hcopy, hbuf]
  · have htake := take_copyBlock hcopy
    rw [hread, Nat.zero_add, List.take_zero, List.nil_append] at htake
    simpa only [List.take_zero, List.nil_append, Nat.zero_add, hread] using htake

/-- A start frame is read inside its bytes and copied inside the buffer of its slot. -/
theorem Wf.feedStart (h : a.Wf) {data : List UInt8} {dlc : ℕ} (ctrl : UInt8)
    (hdata : dlc ≤ data.length) : ∃ r, a.feedStart data dlc ctrl = some r ∧ r.1.Wf := by
  by_cases h4 : dlc < 4
  · exact ⟨(a, none), feedStart_short data ctrl h4, h⟩
  · have hget : ∀ i, i < 4 → data[i]? = some (data[i]?.getD 0) := by
      intro i hi
      rw [List.getElem?_eq_getElem (by omega), Option.getD_some]
    by_cases hover : maxBody < (data[1]?.getD 0).toNat
    · exact ⟨_, feedStart_overflow _ ctrl (by omega) (hget 1 (by omega)) hover,
        h.slots, h.nonempty, h.short, h.each⟩
    · obtain ⟨buf, heq, hbuf, -⟩ := h.feedStart_eq data dlc ctrl (by omega) hdata
        (hget 1 (by omega)) (hget 2 (by omega)) (hget 3 (by omega)) (by omega)
      obtain ⟨-, hpend, hshort⟩ := h.allocSlot
      have hwf : a.allocSlot.2.bumpSeq.Wf :=
        ⟨(congrArg List.length hpend).trans h.slots, h.nonempty,
          (congrArg List.length hshort).trans h.short, fun pm hpm => h.each pm (hpend ▸ hpm)⟩
      exact ⟨_, heq, hwf.store _ hbuf (Nat.not_lt.mp hover) (Nat.zero_lt_succ 15)⟩

/-- The bytes a continuation appends to a sound slot. -/
theorem appendChunk_eq {pm : Pending} (data : List UInt8) (dlc : ℕ) (hwf : pm.Wf maxBody)
    (hact : pm.active = true) (hdata : dlc ≤ data.length) :
    ∃ buf, appendChunk maxBody pm data dlc
        = some { pm with
            buf, got := pm.got + min (dlc - 1) (pm.expected - pm.got),
            nextIndex := (pm.nextIndex + 1) &&& 0xF } ∧
      buf.length = maxBody ∧
      buf.take (pm.got + min (dlc - 1) (pm.expected - pm.got))
        = pm.buf.take pm.got ++ (data.drop 1).take (min (dlc - 1) (pm.expected - pm.got)) := by
  obtain ⟨hgot, hexp⟩ := hwf.bound hact
  rw [appendChunk]
  have hchunk : (if (if dlc > 1 then dlc - 1 else 0) > pm.expected - pm.got then
      pm.expected - pm.got else if dlc > 1 then dlc - 1 else 0)
      = min (dlc - 1) (pm.expected - pm.got) := by
    split <;> split <;> omega
  simp only [hchunk]
  generalize hk : min (dlc - 1) (pm.expected - pm.got) = k
  by_cases h0 : k = 0
  · subst h0
    exact ⟨pm.buf, by simp, hwf.buf_len, by simp⟩
  · have hlen : ((data.drop 1).take k).length = k := by
      rw [List.length_take, List.length_drop]
      omega
    have hcopy := copyBlock_eq_some pm.buf pm.got ((data.drop 1).take k)
      (by rw [hlen, hwf.buf_len]; omega)
    refine ⟨pm.buf.take pm.got ++ (data.drop 1).take k
      ++ pm.buf.drop (pm.got + ((data.drop 1).take k).length), ?_, ?_, ?_⟩
    · rw [if_pos ⟨h0, by omega⟩, readBlock_eq_some (by omega)]
      simp only [Option.bind_eq_bind, Option.bind_some, hcopy]
    · rw [length_of_copyBlock hcopy, hwf.buf_len]
    · have htake := take_copyBlock hcopy
      simpa only [hlen] using htake

/-- A continuation frame is read inside its bytes and copied inside the buffer of the
slot it belongs to. -/
theorem Wf.feedCont (h : a.Wf) {data : List UInt8} {dlc : ℕ} (ctrl : UInt8)
    (hdata : dlc ≤ data.length) : ∃ r, a.feedCont data dlc ctrl = some r ∧ r.1.Wf := by
  rw [AssemblerT.feedCont]
  cases hfind : a.findPending (segGroup ctrl) (segIndex ctrl) with
  | none => exact ⟨_, rfl, h.slots, h.nonempty, h.short, h.each⟩
  | some i =>
      obtain ⟨pm, hpm, hact, -, -, -⟩ := findPending_spec hfind
      have hwf := h.each pm (List.mem_of_getElem? hpm)
      obtain ⟨buf, happ, hbuf, -⟩ := appendChunk_eq data dlc hwf hact hdata
      simp only [hpm, Option.bind_eq_bind, Option.bind_some, happ]
      exact ⟨_, rfl, h.store _ hbuf (hwf.bound hact).2 (nextIndex_lt _)⟩

/-- **Memory safety of `feed`.** From a well-formed assembler, no frame of readable bytes
makes an access out of bounds, and the assembler stays well-formed. -/
theorem Wf.feed (h : a.Wf) {data : List UInt8} {dlc : ℕ}
    (hdata : dlc ≤ 8 → dlc ≤ data.length) : ∃ r, a.feed data dlc = some r ∧ r.1.Wf := by
  rw [AssemblerT.feed]
  by_cases h1 : dlc < 1
  · exact ⟨(a, none), if_pos h1, h⟩
  · by_cases h8 : dlc > 8
    · rw [if_neg h1, if_pos h8]
      exact ⟨_, rfl, h.slots, h.nonempty, h.short, h.each⟩
    · have hread := hdata (by omega)
      rw [if_neg h1, if_neg h8, List.getElem?_eq_getElem (by omega : 0 < data.length)]
      simp only [Option.bind_eq_bind, Option.bind_some]
      split
      · exact h.feedShort (by omega) hread
      · split
        · exact h.feedStart _ hread
        · split
          · exact h.feedCont _ hread
          · exact ⟨(a, none), rfl, h⟩

end AssemblerT

/-! ### The well-formed assembler -/

/-- What a caller hands to `feed`: a pointer to readable bytes and a length. Lengths up to
eight must be readable; longer ones are rejected before anything is read. -/
structure Frame where
  data : List UInt8
  dlc : ℕ
  readable : dlc ≤ 8 → dlc ≤ data.length

/-- The frame made of exactly the bytes `bs`. -/
def Frame.ofBytes (bs : List UInt8) : Frame := ⟨bs, bs.length, fun _ => le_rfl⟩

/-- An assembler that satisfies the slot invariant. -/
structure Assembler (maxBody maxPending : ℕ) where
  raw : AssemblerT maxBody maxPending
  wf : raw.Wf

namespace Assembler

variable {maxBody maxPending : ℕ}

/-- A new assembler, with zeros in its buffers. -/
def zeroed (maxBody maxPending : ℕ) (h : 0 < maxPending) : Assembler maxBody maxPending :=
  ⟨.zeroed maxBody maxPending, (AssemblerT.zeroed_fresh maxBody maxPending).wf h⟩

theorem feed_isSome (a : Assembler maxBody maxPending) (f : Frame) :
    (a.raw.feed f.data f.dlc).isSome = true := by
  obtain ⟨r, hr, -⟩ := a.wf.feed f.readable
  rw [hr]
  rfl

theorem wf_of_feed (a : Assembler maxBody maxPending) (f : Frame) :
    ((a.raw.feed f.data f.dlc).get (a.feed_isSome f)).1.Wf := by
  obtain ⟨r, hr, hwf⟩ := a.wf.feed f.readable
  simpa only [hr, Option.get_some] using hwf

/-- `feed` on a well-formed assembler: the code's answer, which exists. -/
def feed (a : Assembler maxBody maxPending) (f : Frame) :
    Assembler maxBody maxPending × Option Element :=
  (⟨((a.raw.feed f.data f.dlc).get (a.feed_isSome f)).1, a.wf_of_feed f⟩,
    ((a.raw.feed f.data f.dlc).get (a.feed_isSome f)).2)

/-- `reset` on a well-formed assembler. -/
def reset (a : Assembler maxBody maxPending) : Assembler maxBody maxPending :=
  ⟨a.raw.reset, a.wf.reset⟩

theorem feed_of_raw {a : Assembler maxBody maxPending} {f : Frame}
    {r : AssemblerT maxBody maxPending × Option Element}
    (h : a.raw.feed f.data f.dlc = some r) : (a.feed f).1.raw = r.1 ∧ (a.feed f).2 = r.2 := by
  simp only [feed, h, Option.get_some, and_self]

theorem raw_feed (a : Assembler maxBody maxPending) (f : Frame) :
    a.raw.feed f.data f.dlc = some ((a.feed f).1.raw, (a.feed f).2) := by
  obtain ⟨r, hr, -⟩ := a.wf.feed f.readable
  obtain ⟨h1, h2⟩ := feed_of_raw hr
  rw [hr, h1, h2]

/-- A short frame completes at once and touches no slot. -/
theorem feed_short (a : Assembler maxBody maxPending) {in0 : UInt8} (in1 : UInt8)
    (body : List UInt8) (hshort : isShortFrame in0 = true) (hlen : body.length ≤ 6) :
    (a.feed (.ofBytes (in0 :: in1 :: body))).1.raw.pending = a.raw.pending ∧
      (a.feed (.ofBytes (in0 :: in1 :: body))).2
        = some ⟨(decodeHeader in0 in1).1, (decodeHeader in0 in1).2.1,
            (decodeHeader in0 in1).2.2, body⟩ := by
  have hread : readBlock (in0 :: in1 :: body) 2 body.length = some body := by
    rw [readBlock_eq_some (by simp only [List.length_cons]; omega)]
    simp
  have hcopy := copyBlock_eq_some a.raw.shortBuf 0 body
    (by rw [a.wf.short]; omega)
  have hfeed : ∃ r, a.raw.feed (in0 :: in1 :: body) (body.length + 2) = some r ∧
      r.1.pending = a.raw.pending ∧
      r.2 = some ⟨(decodeHeader in0 in1).1, (decodeHeader in0 in1).2.1,
        (decodeHeader in0 in1).2.2, body⟩ := by
    rw [AssemblerT.feed_cons in0 _ (by omega), if_pos hshort, AssemblerT.feedShort,
      if_neg (by omega)]
    simp only [List.getElem?_cons_zero, List.getElem?_cons_succ, Option.bind_eq_bind,
      Option.bind_some, Nat.reduceSubDiff, hread, hcopy]
    refine ⟨_, rfl, rfl, ?_⟩
    simp
  obtain ⟨r, hr, hpend, hel⟩ := hfeed
  obtain ⟨h1, h2⟩ := feed_of_raw (a := a) (f := .ofBytes (in0 :: in1 :: body)) hr
  exact ⟨h1 ▸ hpend, h2.trans hel⟩

/-- A start frame that fits opens the allocated slot with its first body bytes. -/
theorem feed_start (a : Assembler maxBody maxPending) {ctrl : UInt8} (len hdr0 hdr1 : UInt8)
    (chunk : List UInt8) (hctrl : isShortFrame ctrl = false) (hstart : isSegStart ctrl = true)
    (hchunk : chunk.length ≤ 4) (hfit : len.toNat ≤ maxBody) :
    ∃ pm : Pending, pm.active = true ∧ pm.group = segGroup ctrl ∧ pm.nextIndex = 0 ∧
      pm.hdr0 = hdr0 ∧ pm.hdr1 = hdr1 ∧ pm.expected = len.toNat ∧
      pm.got = min chunk.length len.toNat ∧ pm.buf.length = maxBody ∧
      pm.buf.take pm.got = chunk.take len.toNat ∧
      (a.feed (.ofBytes (ctrl :: len :: hdr0 :: hdr1 :: chunk))).1.raw
        = (a.raw.allocSlot.2.bumpSeq.store a.raw.allocSlot.1 pm).1 ∧
      (a.feed (.ofBytes (ctrl :: len :: hdr0 :: hdr1 :: chunk))).2
        = (a.raw.allocSlot.2.bumpSeq.store a.raw.allocSlot.1 pm).2 := by
  obtain ⟨buf, heq, hbuf, htake⟩ := a.wf.feedStart_eq
    (ctrl :: len :: hdr0 :: hdr1 :: chunk) (chunk.length + 4) ctrl
    (by omega) (by simp only [List.length_cons]; omega) rfl rfl rfl hfit
  have hfeed : a.raw.feed (ctrl :: len :: hdr0 :: hdr1 :: chunk) (chunk.length + 4)
      = a.raw.feedStart (ctrl :: len :: hdr0 :: hdr1 :: chunk) (chunk.length + 4) ctrl := by
    rw [AssemblerT.feed_cons ctrl _ (by omega)]
    simp only [hctrl, hstart, if_true, Bool.false_eq_true, if_false]
  obtain ⟨h1, h2⟩ := feed_of_raw
    (a := a) (f := .ofBytes (ctrl :: len :: hdr0 :: hdr1 :: chunk)) (hfeed.trans heq)
  refine ⟨_, rfl, rfl, rfl, rfl, rfl, rfl, ?_, hbuf, ?_, h1, h2⟩
  · simp only [Nat.add_sub_cancel]
  · rw [htake]
    simp [Nat.min_comm]

/-- A continuation whose stream is found appends its bytes to that slot. -/
theorem feed_cont (a : Assembler maxBody maxPending) {ctrl : UInt8} (chunk : List UInt8)
    {i : ℕ} {pm : Pending} (hctrl : isShortFrame ctrl = false)
    (hstart : isSegStart ctrl = false) (hcont : isSegCont ctrl = true)
    (hchunk : chunk.length ≤ 7)
    (hfind : a.raw.findPending (segGroup ctrl) (segIndex ctrl) = some i)
    (hpm : a.raw.pending[i]? = some pm) :
    ∃ pm' : Pending, pm'.active = true ∧ pm'.group = pm.group ∧
      pm'.nextIndex = (pm.nextIndex + 1) &&& 0xF ∧ pm'.hdr0 = pm.hdr0 ∧ pm'.hdr1 = pm.hdr1 ∧
      pm'.expected = pm.expected ∧
      pm'.got = pm.got + min chunk.length (pm.expected - pm.got) ∧
      pm'.buf.take pm'.got
        = pm.buf.take pm.got ++ chunk.take (pm.expected - pm.got) ∧
      (a.feed (.ofBytes (ctrl :: chunk))).1.raw = (a.raw.store i pm').1 ∧
      (a.feed (.ofBytes (ctrl :: chunk))).2 = (a.raw.store i pm').2 := by
  obtain ⟨q, hq, hact, -, -, -⟩ := AssemblerT.findPending_spec hfind
  obtain rfl : q = pm := Option.some.inj (hq.symm.trans hpm)
  obtain ⟨buf, happ, hbuf, htake⟩ := AssemblerT.appendChunk_eq (ctrl :: chunk)
    (chunk.length + 1)
    (a.wf.each q (List.mem_of_getElem? hpm)) hact (by simp)
  have hfeed : a.raw.feed (ctrl :: chunk) (chunk.length + 1) = some (a.raw.store i { q with
      buf, got := q.got + min chunk.length (q.expected - q.got),
      nextIndex := (q.nextIndex + 1) &&& 0xF }) := by
    rw [AssemblerT.feed_cons ctrl _ (by omega)]
    simp only [hctrl, hstart, hcont, if_true, Bool.false_eq_true, if_false,
      AssemblerT.feedCont, hfind, hpm, happ, Option.bind_eq_bind, Option.bind_some,
      Nat.add_sub_cancel]
  obtain ⟨h1, h2⟩ := feed_of_raw (a := a) (f := .ofBytes (ctrl :: chunk)) hfeed
  refine ⟨{ q with
    buf, got := q.got + min chunk.length (q.expected - q.got),
    nextIndex := (q.nextIndex + 1) &&& 0xF }, hact, rfl, rfl, rfl, rfl, rfl, rfl, ?_, h1, h2⟩
  rw [List.take_eq_take_min (i := q.expected - q.got)]
  simpa [Nat.min_comm] using htake

/-- A continuation without a stream that waits for it is dropped. -/
theorem feed_orphan (a : Assembler maxBody maxPending) {ctrl : UInt8} (chunk : List UInt8)
    (hctrl : isShortFrame ctrl = false) (hstart : isSegStart ctrl = false)
    (hcont : isSegCont ctrl = true) (hchunk : chunk.length ≤ 7)
    (hfind : a.raw.findPending (segGroup ctrl) (segIndex ctrl) = none) :
    (a.feed (.ofBytes (ctrl :: chunk))).1.raw.pending = a.raw.pending ∧
      (a.feed (.ofBytes (ctrl :: chunk))).2 = none := by
  have hfeed : a.raw.feed (ctrl :: chunk) (chunk.length + 1)
      = some ({ a.raw with droppedOrphans := a.raw.droppedOrphans + 1 }, none) := by
    rw [AssemblerT.feed_cons ctrl _ (by omega)]
    simp only [hctrl, hstart, hcont, if_true, Bool.false_eq_true, if_false,
      AssemblerT.feedCont, hfind]
  obtain ⟨h1, h2⟩ := feed_of_raw (a := a) (f := .ofBytes (ctrl :: chunk)) hfeed
  exact ⟨h1 ▸ rfl, h2⟩

end Assembler

/-! ### One assembler per arbitration id -/

/-- A slot of an `AssemblerSetT`: its id once it is claimed, and its assembler. -/
structure SetSlot (maxBody maxPending : ℕ) where
  used : Bool
  id : UInt32
  asm : Assembler maxBody maxPending

/-- `AssemblerSetT`: the slots and the count of frames of unknown ids. -/
structure AssemblerSet (maxBody maxPending : ℕ) where
  slots : List (SetSlot maxBody maxPending)
  unknownDrops : UInt32

namespace AssemblerSet

variable {maxBody maxPending : ℕ}

/-- Feed the assembler of slot `i`, which belongs to `canId` from now on. -/
def feedSlot (s : AssemblerSet maxBody maxPending) (i : ℕ) (canId : UInt32) (f : Frame) :
    AssemblerSet maxBody maxPending × Option Element :=
  match s.slots[i]? with
  | none => (s, none)
  | some slot =>
      let r := slot.asm.feed f
      ({ s with slots := s.slots.set i ⟨true, canId, r.1⟩ }, r.2)

/-- `feed`: route one frame by its id. Ids are claimed on first sight; once all slots are
in use a frame of an unknown id is dropped. -/
def feed (s : AssemblerSet maxBody maxPending) (canId : UInt32) (f : Frame) :
    AssemblerSet maxBody maxPending × Option Element :=
  match s.slots.findIdx? fun slot => slot.used && slot.id == canId with
  | some i => s.feedSlot i canId f
  | none =>
      match s.slots.findIdx? fun slot => !slot.used with
      | some i => s.feedSlot i canId f
      | none => ({ s with unknownDrops := s.unknownDrops + 1 }, none)

/-- `reset`: every slot is released and its assembler reset. -/
def reset (s : AssemblerSet maxBody maxPending) : AssemblerSet maxBody maxPending :=
  { s with slots := s.slots.map fun slot => { slot with used := false, asm := slot.asm.reset } }

/-- A newly constructed set of `n` assemblers. -/
structure Fresh (n : ℕ) (s : AssemblerSet maxBody maxPending) : Prop where
  slots : s.slots.length = n
  unused : ∀ slot ∈ s.slots, slot.used = false ∧ slot.id = 0 ∧ slot.asm.raw.Fresh
  drops : s.unknownDrops = 0

/-- A new set with zeros in its buffers. -/
def zeroed (n maxBody maxPending : ℕ) (h : 0 < maxPending) : AssemblerSet maxBody maxPending :=
  ⟨List.replicate n ⟨false, 0, .zeroed maxBody maxPending h⟩, 0⟩

/-- It is a new set. -/
theorem zeroed_fresh (n maxBody maxPending : ℕ) (h : 0 < maxPending) :
    (zeroed n maxBody maxPending h).Fresh n where
  slots := List.length_replicate
  unused := by
    intro slot hslot
    rw [List.eq_of_mem_replicate hslot]
    exact ⟨rfl, rfl, AssemblerT.zeroed_fresh maxBody maxPending⟩
  drops := rfl

end AssemblerSet

end Ovms.Bap
