import Mathlib.Logic.Function.Basic
import Ovms.Bap.Assembler
import Ovms.Lib.Machine

/-!
# Integrity of the Assembler on Arbitrary Traffic

What holds of an assembler that is fed any frames at all: corrupted, truncated, out of
order, or from a peer that does not follow the protocol.

The declared length of a stream stands in its start frame, which the assembler does not
keep. The module therefore runs the assembler with a **start ledger** beside it: the
ledger remembers, for each slot, the start frame that opened the slot last. The ledger
never influences the run; it is what the claim about delivered lengths is read off.

## Main results

* `Assembler.feed_cases`: the three things one frame can do to the slots.
* `Tracked.Inv.step`: one operation keeps every open slot at the length its start frame
  declared.
* `assembler_integrity`: on every sequence of operations the assembler stays inside its
  buffers and inside the frames, its active slots wait for bytes that fit, and a
  segmented element has exactly the declared length.
-/

open Lib

namespace Ovms.Bap

/-- The first byte marks a segmented frame (start or continuation). -/
def isSegmented : List UInt8 → Bool
  | [] => false
  | ctrl :: _ => !isShortFrame ctrl

/-- A start frame the assembler accepts: its header is complete and its length fits. -/
def opensStream (maxBody : ℕ) : List UInt8 → Bool
  | ctrl :: len :: _ :: _ :: _ =>
      !isShortFrame ctrl && isSegStart ctrl && decide (len.toNat ≤ maxBody)
  | _ => false

/-- A frame with another control byte opens no stream. -/
theorem opensStream_eq_false {maxBody : ℕ} {ctrl : UInt8} {rest : List UInt8}
    (h : isShortFrame ctrl = true ∨ isSegStart ctrl = false) :
    opensStream maxBody (ctrl :: rest) = false := by
  rcases rest with - | ⟨len, - | ⟨hdr0, - | ⟨hdr1, chunk⟩⟩⟩
  · rfl
  · rfl
  · rfl
  · rcases h with h | h <;> simp [opensStream, h]

/-- The slot a segmented frame works on: the one allocated for a start, the one found for
a continuation. -/
def slotOf {maxBody maxPending : ℕ} (a : AssemblerT maxBody maxPending) :
    List UInt8 → Option ℕ
  | [] => none
  | ctrl :: _ =>
      if isShortFrame ctrl then none
      else if isSegStart ctrl then some a.allocSlot.1
      else if isSegCont ctrl then a.findPending (segGroup ctrl) (segIndex ctrl)
      else none

namespace Assembler

variable {maxBody maxPending : ℕ}

theorem feed_ignored (a : Assembler maxBody maxPending) (f : List UInt8)
    (a' : AssemblerT maxBody maxPending) (h : a.raw.feed f f.length = some (a', none))
    (hpend : a'.pending = a.raw.pending) :
    (a.feed (.ofBytes f)).1.raw.pending = a.raw.pending ∧ (a.feed (.ofBytes f)).2 = none := by
  obtain ⟨h1, h2⟩ := feed_of_raw (a := a) (f := .ofBytes f) h
  exact ⟨h1 ▸ hpend, h2⟩

variable (a : Assembler maxBody maxPending) (f : List UInt8)

/-- The frame touches no slot, and completes no element unless it is short. -/
def Ignores : Prop :=
  (a.feed (.ofBytes f)).1.raw.pending = a.raw.pending ∧ opensStream maxBody f = false ∧
    (isSegmented f = true → (a.feed (.ofBytes f)).2 = none)

/-- The frame opens the slot that is allocated. -/
def Opens : Prop :=
  ∃ (len : UInt8) (pm : Pending), opensStream maxBody f = true ∧ f[1]? = some len ∧
    slotOf a.raw f = some a.raw.allocSlot.1 ∧ pm.expected = len.toNat ∧
    pm.got ≤ pm.expected ∧ pm.buf.length = maxBody ∧ len.toNat ≤ maxBody ∧
    (a.feed (.ofBytes f)).1.raw = (a.raw.allocSlot.2.bumpSeq.store a.raw.allocSlot.1 pm).1 ∧
    (a.feed (.ofBytes f)).2 = (a.raw.allocSlot.2.bumpSeq.store a.raw.allocSlot.1 pm).2

/-- The frame appends to the slot that waits for it. -/
def Appends : Prop :=
  ∃ (i : ℕ) (pm pm' : Pending), opensStream maxBody f = false ∧
    slotOf a.raw f = some i ∧ a.raw.pending[i]? = some pm ∧ pm.active = true ∧
    pm'.expected = pm.expected ∧ pm'.got ≤ pm'.expected ∧
    (pm'.buf.take pm'.got).length = pm'.got ∧
    (a.feed (.ofBytes f)).1.raw = (a.raw.store i pm').1 ∧
    (a.feed (.ofBytes f)).2 = (a.raw.store i pm').2

variable {f} {ctrl : UInt8} {rest : List UInt8}

/-- A short frame. -/
theorem ignores_short (hshort : isShortFrame ctrl = true) (h8 : rest.length + 1 ≤ 8) :
    a.Ignores (ctrl :: rest) := by
  have hseg : isSegmented (ctrl :: rest) = false := by simp [isSegmented, hshort]
  have hopen : opensStream maxBody (ctrl :: rest) = false :=
    opensStream_eq_false (.inl hshort)
  rcases rest with - | ⟨in1, body⟩
  · obtain ⟨h1, -⟩ := a.feed_ignored [ctrl] a.raw
      (by simp [AssemblerT.feed, AssemblerT.feedShort, hshort]) rfl
    exact ⟨h1, hopen, fun h => by rw [hseg] at h; cases h⟩
  · simp only [List.length_cons] at h8
    obtain ⟨h1, -⟩ := a.feed_short in1 body hshort (by omega)
    exact ⟨h1, hopen, fun h => by rw [hseg] at h; cases h⟩

/-- A start frame, whose header may be cut off and whose length may not fit. -/
theorem opens_start (hshort : isShortFrame ctrl = false) (hstart : isSegStart ctrl = true)
    (h8 : rest.length + 1 ≤ 8) : a.Ignores (ctrl :: rest) ∨ a.Opens (ctrl :: rest) := by
  by_cases h4 : rest.length < 3
  · left
    obtain ⟨h1, h2⟩ := a.feed_ignored (ctrl :: rest) a.raw
      (by
        rw [List.length_cons, AssemblerT.feed_cons ctrl _ (by omega)]
        simp only [hshort, hstart, Bool.false_eq_true, if_false, if_true]
        rw [AssemblerT.feedStart_short _ _ (by omega)]) rfl
    refine ⟨h1, ?_, fun _ => h2⟩
    rcases rest with - | ⟨x, - | ⟨y, - | ⟨z, tl⟩⟩⟩
    · rfl
    · rfl
    · rfl
    · simp only [List.length_cons] at h4
      omega
  · obtain ⟨len, hdr0, hdr1, chunk, rfl⟩ :
        ∃ len hdr0 hdr1 chunk, rest = len :: hdr0 :: hdr1 :: chunk := by
      rcases rest with - | ⟨x, - | ⟨y, - | ⟨z, tl⟩⟩⟩
      · exact absurd (Nat.zero_lt_succ 2) h4
      · exact absurd (Nat.lt_succ_self 1 |>.trans (Nat.lt_succ_self 2)) h4
      · exact absurd (Nat.lt_succ_self 2) h4
      · exact ⟨x, y, z, tl, rfl⟩
    simp only [List.length_cons] at h8
    have hslot : slotOf a.raw (ctrl :: len :: hdr0 :: hdr1 :: chunk)
        = some a.raw.allocSlot.1 := by simp [slotOf, hshort, hstart]
    by_cases hfit : len.toNat ≤ maxBody
    · right
      obtain ⟨pm, -, -, -, -, -, hexp, hgot, hbuf, -, h1, h2⟩ :=
        a.feed_start len hdr0 hdr1 chunk hshort hstart
          (by omega) hfit
      exact ⟨len, pm, by simp [opensStream, hshort, hstart, hfit], rfl, hslot, hexp,
        by rw [hgot, hexp]; omega, hbuf, hfit, h1, h2⟩
    · left
      obtain ⟨h1, h2⟩ := a.feed_ignored (ctrl :: len :: hdr0 :: hdr1 :: chunk)
        { a.raw with overflowDrops := a.raw.overflowDrops + 1 }
        (by
          simp only [List.length_cons]
          rw [AssemblerT.feed_cons ctrl _ (by omega)]
          simp only [hshort, hstart, Bool.false_eq_true, if_false, if_true]
          rw [AssemblerT.feedStart_overflow len _ (by omega) rfl (by omega)])
        rfl
      exact ⟨h1, by simp [opensStream, hfit], fun _ => h2⟩

/-- Any other frame, for which a slot may wait. -/
theorem appends_cont (hshort : isShortFrame ctrl = false) (hstart : isSegStart ctrl = false)
    (h8 : rest.length + 1 ≤ 8) : a.Ignores (ctrl :: rest) ∨ a.Appends (ctrl :: rest) := by
  have hopen : opensStream maxBody (ctrl :: rest) = false :=
    opensStream_eq_false (.inr hstart)
  cases hcont : isSegCont ctrl with
  | false =>
      left
      obtain ⟨h1, h2⟩ := a.feed_ignored (ctrl :: rest) a.raw
        (by
          rw [List.length_cons, AssemblerT.feed_cons ctrl _ (by omega)]
          simp only [hshort, hstart, hcont, Bool.false_eq_true, if_false]) rfl
      exact ⟨h1, hopen, fun _ => h2⟩
  | true =>
      cases hfind : a.raw.findPending (segGroup ctrl) (segIndex ctrl) with
      | none =>
          left
          obtain ⟨h1, h2⟩ := a.feed_orphan rest hshort hstart hcont
            (by omega) hfind
          exact ⟨h1, hopen, fun _ => h2⟩
      | some i =>
          right
          obtain ⟨pm, hpm, hact, -, -, hlt⟩ := AssemblerT.findPending_spec hfind
          have hwf := a.wf.each pm (List.mem_of_getElem? hpm)
          obtain ⟨pm', -, -, -, -, -, hexp, hgot, hbuf, h1, h2⟩ :=
            a.feed_cont rest hshort hstart hcont (by omega) hfind hpm
          refine ⟨i, pm, pm', hopen, by simp [slotOf, hshort, hstart, hcont, hfind],
            hpm, hact, hexp, by rw [hgot, hexp]; omega, ?_, h1, h2⟩
          have := (hwf.bound hact).2
          rw [hbuf, List.length_append, List.length_take, List.length_take,
            hwf.buf_len, hgot]
          omega

/-- **What one frame can do.** Either it touches no slot (and then only a short frame
completes an element), or it opens the allocated slot, or it appends to the slot that
waits for it. -/
theorem feed_cases (h8 : f.length ≤ 8) : a.Ignores f ∨ a.Opens f ∨ a.Appends f := by
  rcases f with - | ⟨ctrl, rest⟩
  · left
    obtain ⟨h1, -⟩ := a.feed_ignored [] a.raw rfl rfl
    exact ⟨h1, rfl, fun h => by cases h⟩
  · rw [List.length_cons] at h8
    cases hshort : isShortFrame ctrl with
    | true => exact .inl (a.ignores_short hshort h8)
    | false =>
        cases hstart : isSegStart ctrl with
        | true => exact (a.opens_start hshort hstart h8).imp_right .inl
        | false => exact (a.appends_cont hshort hstart h8).imp_right .inr

end Assembler

/-! ### The start ledger -/

/-- One use of an assembler. -/
inductive Operation
  | feed (frame : List UInt8)
  | reset
  deriving DecidableEq, Repr

/-- The frames a controller delivers have at most eight bytes. -/
def Operation.Legal : Operation → Prop
  | .feed frame => frame.length ≤ 8
  | .reset => True

/-- An assembler and, beside it, the start frame that opened each slot last. -/
structure Tracked (maxBody maxPending : ℕ) where
  asm : AssemblerT maxBody maxPending
  opened : ℕ → Option (List UInt8)

namespace Tracked

variable {maxBody maxPending : ℕ}

/-- One operation of the code; `none` is an access out of bounds. -/
def apply (t : Tracked maxBody maxPending) :
    Operation → Option (AssemblerT maxBody maxPending × Option Element)
  | .feed frame => t.asm.feed frame frame.length
  | .reset => some (t.asm.reset, none)

/-- The ledger after an operation: an accepted start frame is entered for its slot. -/
def enter (t : Tracked maxBody maxPending) : Operation → ℕ → Option (List UInt8)
  | .feed frame =>
      match slotOf t.asm frame with
      | some i => if opensStream maxBody frame then Function.update t.opened i (some frame)
          else t.opened
      | none => t.opened
  | .reset => t.opened

/-- One operation, with its ledger entry. -/
def step (t : Tracked maxBody maxPending) (op : Operation) :
    Option (Tracked maxBody maxPending × Option Element) := do
  let r ← t.apply op
  some (⟨r.1, t.enter op⟩, r.2)

/-- A run of operations. -/
def run : Tracked maxBody maxPending → List Operation → Option (Tracked maxBody maxPending)
  | t, [] => some t
  | t, op :: ops => do
      let r ← t.step op
      run r.1 ops

/-- The start frame of the stream a segmented frame belongs to: itself if it opens one,
else the one in the ledger for its slot. -/
def startOf (t : Tracked maxBody maxPending) (frame : List UInt8) : Option (List UInt8) :=
  if opensStream maxBody frame then some frame else (slotOf t.asm frame).bind t.opened

/-- The assembler is well-formed, and every active slot expects what the start frame in
its ledger entry declares. -/
structure Inv (t : Tracked maxBody maxPending) : Prop where
  wf : t.asm.Wf
  declared : ∀ (i : ℕ) (pm : Pending), t.asm.pending[i]? = some pm → pm.active = true →
    ∃ (start : List UInt8) (len : UInt8), t.opened i = some start ∧
      start[1]? = some len ∧ pm.expected = len.toNat

/-- A slot that is stored with the length of its ledger entry keeps the ledger true. -/
theorem declared_of_store {a : AssemblerT maxBody maxPending}
    {opened : ℕ → Option (List UInt8)} {i : ℕ} {pm : Pending}
    (hold : ∀ (j : ℕ) (q : Pending), j ≠ i → a.pending[j]? = some q → q.active = true →
      ∃ (start : List UInt8) (len : UInt8), opened j = some start ∧
        start[1]? = some len ∧ q.expected = len.toNat)
    (hnew : ∃ (start : List UInt8) (len : UInt8), opened i = some start ∧
      start[1]? = some len ∧ pm.expected = len.toNat) :
    ∀ (j : ℕ) (q : Pending), (a.store i pm).1.pending[j]? = some q → q.active = true →
      ∃ (start : List UInt8) (len : UInt8), opened j = some start ∧
        start[1]? = some len ∧ q.expected = len.toNat := by
  intro j q hq hact
  by_cases hj : j = i
  · subst hj
    rcases Nat.lt_or_ge pm.got pm.expected with hlt | hge
    · rw [AssemblerT.store_of_lt _ _ hlt, List.getElem?_set_self'] at hq
      obtain ⟨-, -, rfl⟩ := Option.map_eq_some_iff.mp hq
      exact hnew
    · rw [AssemblerT.store_of_ge _ _ hge, List.getElem?_set_self'] at hq
      obtain ⟨-, -, rfl⟩ := Option.map_eq_some_iff.mp hq
      exact hnew
  · rw [AssemblerT.store_pending_ne _ _ (Ne.symm hj)] at hq
    exact hold j q hj hq hact

/-- **One operation keeps the ledger true**: it makes no access out of bounds, and an
element it completes from segmented frames has the length its start frame declared. -/
theorem Inv.step {t : Tracked maxBody maxPending} (h : t.Inv) (op : Operation)
    (hop : op.Legal) :
    ∃ t' el, t.step op = some (t', el) ∧ t'.Inv ∧
      ∀ frame e, op = .feed frame → isSegmented frame = true → el = some e →
        ∃ start len, t.startOf frame = some start ∧ start[1]? = some len ∧
          e.body.length = len.toNat := by
  cases op with
  | reset =>
      refine ⟨_, _, rfl, ⟨h.wf.reset, fun i pm hpm hact => ?_⟩, fun _ _ hop _ _ => by cases hop⟩
      simp only [AssemblerT.reset, List.getElem?_map, Option.map_eq_some_iff] at hpm
      obtain ⟨q, -, rfl⟩ := hpm
      cases hact
  | feed frame =>
      -- run the total layer on the same state
      let a : Assembler maxBody maxPending := ⟨t.asm, h.wf⟩
      have hraw : t.asm.feed frame frame.length
          = some ((a.feed (.ofBytes frame)).1.raw, (a.feed (.ofBytes frame)).2) :=
        a.raw_feed (.ofBytes frame)
      refine ⟨⟨(a.feed (.ofBytes frame)).1.raw, t.enter (.feed frame)⟩,
        (a.feed (.ofBytes frame)).2, ?_, ⟨(a.feed (.ofBytes frame)).1.wf, ?_⟩, ?_⟩
      · simp only [Tracked.step, Tracked.apply, hraw, Option.bind_eq_bind, Option.bind_some]
      · rcases a.feed_cases hop with ⟨hpend, hopen, -⟩ | ⟨len, pm, hopen, hlen, hslot, hexp,
          -, -, -, hraw', -⟩ | ⟨i, pm, pm', hopen, hslot, hpm, hact, hexp, -, -, hraw', -⟩
        · have hsame : t.enter (.feed frame) = t.opened := by
            simp only [enter, hopen, Bool.false_eq_true, if_false]
            split <;> rfl
          intro i pm hpm hact
          rw [hsame]
          exact h.declared i pm (hpend ▸ hpm) hact
        · have hupd : t.enter (.feed frame)
              = Function.update t.opened a.raw.allocSlot.1 (some frame) := by
            have hslot' : slotOf t.asm frame = some a.raw.allocSlot.1 := hslot
            simp only [enter, hopen, hslot', if_true]
          simp only [hraw', hupd]
          refine declared_of_store (fun j q hj hq hqact => ?_)
            ⟨frame, len, Function.update_self .., hlen, hexp⟩
          rw [Function.update_of_ne hj]
          have hq' : t.asm.pending[j]? = some q := by
            rw [← h.wf.allocSlot.2.1]
            exact hq
          exact h.declared j q hq' hqact
        · have hsame : t.enter (.feed frame) = t.opened := by
            simp only [enter, hopen, Bool.false_eq_true, if_false]
            split <;> rfl
          simp only [hraw', hsame]
          obtain ⟨start, len, hstart, hlen, hpmexp⟩ := h.declared i pm hpm hact
          exact declared_of_store (fun j q _ hq hqact => h.declared j q hq hqact)
            ⟨start, len, hstart, hlen, hexp.trans hpmexp⟩
      · rintro frame e ⟨⟩ hseg hel
        rcases a.feed_cases hop with ⟨-, -, hnone⟩ | ⟨len, pm, hopen, hlen, -, hexp, hgot,
          hbuf, hfit, -, hres⟩ | ⟨i, pm, pm', hopen, hslot, hpm, hact, hexp, hgot, htake, -,
          hres⟩
        · rw [hnone hseg] at hel
          cases hel
        · obtain ⟨hge, hbody⟩ := AssemblerT.store_eq_some (hres ▸ hel)
          refine ⟨frame, len, by rw [startOf, hopen, if_pos rfl], hlen, ?_⟩
          rw [hbody, List.length_take, hbuf]
          omega
        · obtain ⟨hge, hbody⟩ := AssemblerT.store_eq_some (hres ▸ hel)
          obtain ⟨start, len, hstart, hlen, hpmexp⟩ := h.declared i pm hpm hact
          have hslot' : slotOf t.asm frame = some i := hslot
          refine ⟨start, len, ?_, hlen, ?_⟩
          · simp only [startOf, hopen, Bool.false_eq_true, if_false, hslot', Option.bind_some,
              hstart]
          · rw [hbody, htake]
            omega

/-- A run of operations of legal frames makes no access out of bounds and keeps the
ledger true. -/
theorem Inv.run {t : Tracked maxBody maxPending} (h : t.Inv) {ops : List Operation}
    (hops : ∀ op ∈ ops, op.Legal) : ∃ t', t.run ops = some t' ∧ t'.Inv := by
  induction ops generalizing t with
  | nil => exact ⟨t, rfl, h⟩
  | cons op ops ih =>
      obtain ⟨hop, hrest⟩ := List.forall_mem_cons.mp hops
      obtain ⟨t₁, el, hstep, hinv, -⟩ := h.step op hop
      obtain ⟨t', hrun, hinv'⟩ := ih hinv hrest
      exact ⟨t', by rw [Tracked.run, hstep]; exact hrun, hinv'⟩

end Tracked

/-- **Integrity on arbitrary traffic.** Run a new assembler on any operations with frames
of any bytes. No access leaves a frame or a buffer, every active slot still waits for
bytes that fit its buffer, and any further frame is again answered without such an
access; when it completes an element of a segmented stream, the body has exactly the
length that the start frame of that stream declares. -/
theorem assembler_integrity {maxBody maxPending : ℕ} (hpos : 0 < maxPending)
    {a : AssemblerT maxBody maxPending} (hfresh : a.Fresh) {ops : List Operation}
    (hops : ∀ op ∈ ops, op.Legal) :
    ∃ t, Tracked.run ⟨a, fun _ => none⟩ ops = some t ∧
      (∀ pm ∈ t.asm.pending, pm.active = true →
        pm.got < pm.expected ∧ pm.expected ≤ pm.buf.length) ∧
      ∀ frame : List UInt8, frame.length ≤ 8 →
        ∃ a' el, t.asm.feed frame frame.length = some (a', el) ∧
          ∀ e, isSegmented frame = true → el = some e →
            ∃ start len, t.startOf frame = some start ∧ start[1]? = some len ∧
              e.body.length = len.toNat := by
  have h₀ : Tracked.Inv ⟨a, fun _ => none⟩ := by
    refine ⟨hfresh.wf hpos, fun i pm hpm hact => ?_⟩
    rw [(hfresh.free pm (List.mem_of_getElem? hpm)).1] at hact
    cases hact
  obtain ⟨t, hrun, hinv⟩ := h₀.run hops
  refine ⟨t, hrun, fun pm hpm hact => ?_, fun frame hframe => ?_⟩
  · obtain ⟨hlt, hle⟩ := (hinv.wf.each pm hpm).bound hact
    exact ⟨hlt, (hinv.wf.each pm hpm).buf_len.symm ▸ hle⟩
  · obtain ⟨t', el, hstep, -, hel⟩ := hinv.step (.feed frame) hframe
    simp only [Tracked.step, Tracked.apply, Option.bind_eq_bind, Option.bind_eq_some_iff,
      Option.some.injEq, Prod.mk.injEq] at hstep
    obtain ⟨r, hr, -, rfl⟩ := hstep
    exact ⟨r.1, r.2, hr, fun e hseg he => hel frame e rfl hseg he⟩

/-- On a new assembler: a start, a reset, and a continuation that comes too late. -/
theorem assembler_integrity_zeroed :
    ∃ t, Tracked.run ⟨.zeroed 224 4, fun _ => none⟩
        [.feed [0x80, 7, 0x49, 0x41, 1, 2, 3, 4], .reset, .feed [0xC0, 5, 6, 7]] = some t ∧
      (∀ pm ∈ t.asm.pending, pm.active = true →
        pm.got < pm.expected ∧ pm.expected ≤ pm.buf.length) ∧
      ∀ frame : List UInt8, frame.length ≤ 8 →
        ∃ a' el, t.asm.feed frame frame.length = some (a', el) ∧
          ∀ e, isSegmented frame = true → el = some e →
            ∃ start len, t.startOf frame = some start ∧ start[1]? = some len ∧
              e.body.length = len.toNat :=
  assembler_integrity (by decide) (AssemblerT.zeroed_fresh 224 4)
    (by simp [Operation.Legal])

end Ovms.Bap
