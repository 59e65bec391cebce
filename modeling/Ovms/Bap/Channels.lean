import Mathlib.Data.Fin.VecNotation
import Mathlib.Data.Fintype.Card
import Mathlib.Data.List.ReduceOption
import Ovms.Bap.Reassembly

/-!
# Interleaved Streams on Distinct Channels

Up to four senders share an assembler, each on a channel group of its own. Their frames
arrive in any interleaving.

The proof does not follow the interleaving. It gives every channel a small **local
machine** that collects one telegram at a time, shows that the assembler answers each
frame as the local machine of its channel would (`separates`), and runs the local
machines on the frames of one sender alone. The separation rule of runs does the rest.

## Main results

* `separates`: the assembler refines the four local machines side by side.
* `runLocal_frames`: a local machine delivers the telegrams of its sender.
* `interleaved_streams`: in every interleaving each sender gets its telegrams delivered
  once, unchanged and in order.
-/

open Lib

namespace Ovms.Bap

/-- A telegram `sendElementFn` can segment for an assembler of this capacity. -/
structure Telegram (maxBody : ℕ) extends Element where
  legal : toElement.Legal
  fits : body.length ≤ maxBody
  announced : body.length ≤ 255

/-- The channel byte of a sender. -/
def channel (k : Fin 4) : UInt8 := UInt8.ofNat k.val

theorem channel_lt (k : Fin 4) : (channel k).toNat < 4 := by
  revert k
  decide

theorem channel_injective : Function.Injective channel := by
  intro k j
  revert k j
  decide

/-- The frames of a telegram of sender `k`. -/
def Telegram.frames {maxBody : ℕ} (k : Fin 4) (t : Telegram maxBody) : List (List UInt8) :=
  sentFrames t.opcode t.lsg t.func (channel k) t.body

/-- What `feed` answers over the frames of a telegram that is delivered. -/
def Telegram.answers {maxBody : ℕ} (k : Fin 4) (t : Telegram maxBody) :
    List (Option Element) :=
  List.replicate ((t.frames k).length - 1) none ++ [some t.toElement]

/-! ### The local machine of a channel -/

/-- A telegram in progress on one channel. -/
structure Stream where
  hdr0 : UInt8
  hdr1 : UInt8
  next : UInt8
  expected : ℕ
  bytes : List UInt8
  deriving DecidableEq, Repr

/-- The element a stream delivers. -/
def Stream.element (st : Stream) : Element :=
  let h := decodeHeader st.hdr0 st.hdr1
  ⟨h.1, h.2.1, h.2.2, st.bytes⟩

/-- A stream with the bytes of its next continuation. -/
def Stream.append (st : Stream) (chunk : List UInt8) : Stream :=
  { st with
    next := (st.next + 1) &&& 0xF, bytes := st.bytes ++ chunk.take (st.expected - st.bytes.length) }

theorem Stream.append_expected (st : Stream) (chunk : List UInt8) :
    (st.append chunk).expected = st.expected := rfl

/-- One frame on channel `k`, seen by that channel alone. Short frames pass through; a
start is admitted when nothing is in progress, a continuation when it is the next one.
Only the channels in `S` may start a stream. -/
def channelStep (maxBody : ℕ) (S : Finset (Fin 4)) (k : Fin 4) (t : Option Stream)
    (frame : List UInt8) : Option (Option Stream × Option Element) :=
  match frame, t with
  | [], _ => none
  | in0 :: rest, t =>
      if isShortFrame in0 then
        match rest with
        | [] => none
        | in1 :: body =>
            if body.length ≤ 6 then some (t, some (Stream.element ⟨in0, in1, 0, 0, body⟩))
            else none
      else if isSegStart in0 then
        match rest, t with
        | len :: hdr0 :: hdr1 :: chunk, none =>
            if k ∈ S ∧ segGroup in0 = channel k ∧ chunk.length ≤ 4 ∧
                chunk.length < len.toNat ∧ len.toNat ≤ maxBody then
              some (some ⟨hdr0, hdr1, 0, len.toNat, chunk⟩, none)
            else none
        | _, _ => none
      else
        match t with
        | some st =>
            if isSegCont in0 = true ∧ segGroup in0 = channel k ∧ segIndex in0 = st.next ∧
                rest.length ≤ 7 then
              if st.expected ≤ (st.append rest).bytes.length then
                some (none, some (st.append rest).element)
              else some (some (st.append rest), none)
            else none
        | none => none

/-! ### The assembler refines the local machines -/

/-- Slot `pm` holds the stream `st` of channel `k`. -/
structure Pending.Holds (pm : Pending) (k : Fin 4) (st : Stream) : Prop where
  active : pm.active = true
  group : pm.group = channel k
  next : pm.nextIndex = st.next
  hdr0 : pm.hdr0 = st.hdr0
  hdr1 : pm.hdr1 = st.hdr1
  expected : pm.expected = st.expected
  got : pm.got = st.bytes.length
  bytes : pm.buf.take pm.got = st.bytes

/-- The active slots of the assembler are the streams of the channels, one slot each. -/
structure Represents {maxBody maxPending : ℕ} (S : Finset (Fin 4))
    (a : Assembler maxBody maxPending) (γ : Fin 4 → Option Stream) : Prop where
  admitted : ∀ k st, γ k = some st → k ∈ S
  slot : ∀ k st, γ k = some st →
    ∃ (i : ℕ) (pm : Pending), a.raw.pending[i]? = some pm ∧ pm.Holds k st
  known : ∀ (i : ℕ) (pm : Pending), a.raw.pending[i]? = some pm → pm.active = true →
    ∃ k st, γ k = some st ∧ pm.Holds k st
  unique : ∀ (i j : ℕ) (pm q : Pending), a.raw.pending[i]? = some pm → a.raw.pending[j]? = some q →
    pm.active = true → q.active = true → pm.group = q.group → i = j

section Refinement

variable {maxBody maxPending : ℕ} {S : Finset (Fin 4)} {a a' : Assembler maxBody maxPending}
  {γ : Fin 4 → Option Stream} {k : Fin 4}

theorem Represents.congr (h : Represents S a γ) (hpend : a'.raw.pending = a.raw.pending) :
    Represents S a' γ where
  admitted := h.admitted
  slot := by rw [hpend]; exact h.slot
  known := by rw [hpend]; exact h.known
  unique := by rw [hpend]; exact h.unique

theorem Represents.slot_unique (h : Represents S a γ) {i j : ℕ} {pm q : Pending}
    {st : Stream} (hpm : a.raw.pending[i]? = some pm) (hold : pm.Holds k st)
    (hq : a.raw.pending[j]? = some q) (hact : q.active = true) (hgroup : q.group = channel k) :
    i = j :=
  h.unique i j pm q hpm hq hold.active hact (hold.group.trans hgroup.symm)

/-- **A start finds a free slot**: fewer streams than slots are in progress. -/
theorem Represents.exists_free (h : Represents S a γ) (hcard : S.card ≤ maxPending)
    (hk : k ∈ S) (hnone : γ k = none) :
    ∃ pm, a.raw.pending[a.raw.allocSlot.1]? = some pm ∧ pm.active = false := by
  rw [AssemblerT.allocSlot]
  cases hfree : a.raw.pending.findIdx? fun pm => !pm.active with
  | some i =>
      obtain ⟨hi, hpm, -⟩ := List.findIdx?_eq_some_iff_getElem.mp hfree
      exact ⟨_, List.getElem?_eq_getElem hi, by simpa using hpm⟩
  | none =>
      -- all slots active: they inject into the channels other than `k`
      exfalso
      have hall : ∀ i : Fin maxPending, ∃ j st, γ j = some st ∧
          ∃ pm, a.raw.pending[i.val]? = some pm ∧ pm.Holds j st := by
        intro i
        have hi : i.val < a.raw.pending.length := by rw [a.wf.slots]; exact i.isLt
        have hact : a.raw.pending[i.val].active = true := by
          simpa using List.findIdx?_eq_none_iff.mp hfree _ (List.getElem_mem hi)
        obtain ⟨j, st, hj, hold⟩ := h.known i _ (List.getElem?_eq_getElem hi) hact
        exact ⟨j, st, hj, _, List.getElem?_eq_getElem hi, hold⟩
      choose chan st hchan pm hpm hold using hall
      have hinj : Set.InjOn chan (Finset.univ : Finset (Fin maxPending)) := by
        intro i _ j _ hij
        refine Fin.ext (h.unique i j _ _ (hpm i) (hpm j) (hold i).active (hold j).active ?_)
        rw [(hold i).group, (hold j).group, hij]
      have hmaps : Set.MapsTo chan (Finset.univ : Finset (Fin maxPending)) (S.erase k) := by
        intro i _
        refine Finset.mem_coe.mpr (Finset.mem_erase.mpr ⟨?_, h.admitted _ _ (hchan i)⟩)
        rintro heq
        rw [← heq, hchan i] at hnone
        cases hnone
      have hle := Finset.card_le_card_of_injOn chan hmaps hinj
      rw [Finset.card_univ, Fintype.card_fin, Finset.card_erase_of_mem hk] at hle
      have := Finset.card_pos.mpr ⟨k, hk⟩
      omega

/-- A slot that is free, or holds the stream of channel `k`, takes a new stream of that
channel. -/
theorem Represents.set (h : Represents S a γ) {i : ℕ} {pm old : Pending} {st : Stream}
    (hk : k ∈ S) (hold : a.raw.pending[i]? = some old)
    (hown : ∀ j q, a.raw.pending[j]? = some q → q.active = true → q.group = channel k → i = j)
    (hold' : old.active = true → old.group = channel k)
    (hpm : pm.Holds k st) (hpend : a'.raw.pending = a.raw.pending.set i pm) :
    Represents S a' (Function.update γ k (some st)) := by
  have hi : i < a.raw.pending.length := (List.getElem?_eq_some_iff.mp hold).1
  have hself : a'.raw.pending[i]? = some pm := by rw [hpend]; exact List.getElem?_set_self hi
  have hother : ∀ j, j ≠ i → a'.raw.pending[j]? = a.raw.pending[j]? := by
    intro j hj
    rw [hpend]
    exact List.getElem?_set_ne (Ne.symm hj)
  refine ⟨fun j st' hj => ?_, fun j st' hj => ?_, fun j q hq hact => ?_,
    fun j j' q q' hq hq' hact hact' hgroup => ?_⟩
  · by_cases hjk : j = k
    · exact hjk ▸ hk
    · rw [Function.update_of_ne hjk] at hj
      exact h.admitted j st' hj
  · by_cases hjk : j = k
    · subst hjk
      rw [Function.update_self] at hj
      obtain rfl := Option.some.inj hj
      exact ⟨i, pm, hself, hpm⟩
    · rw [Function.update_of_ne hjk] at hj
      obtain ⟨l, q, hq, hholds⟩ := h.slot j st' hj
      have hli : l ≠ i := by
        rintro rfl
        obtain rfl : q = old := Option.some.inj (hq.symm.trans hold)
        have := hold' hholds.active
        rw [hholds.group] at this
        exact hjk (channel_injective this)
      exact ⟨l, q, by rw [hother l hli]; exact hq, hholds⟩
  · by_cases hji : j = i
    · subst hji
      obtain rfl : q = pm := Option.some.inj (hq.symm.trans hself)
      exact ⟨k, st, Function.update_self .., hpm⟩
    · rw [hother j hji] at hq
      obtain ⟨l, st', hl, hholds⟩ := h.known j q hq hact
      have hlk : l ≠ k := by
        rintro rfl
        exact hji (hown j q hq hact hholds.group).symm
      exact ⟨l, st', by rw [Function.update_of_ne hlk]; exact hl, hholds⟩
  · by_cases hji : j = i
    · subst hji
      obtain rfl : q = pm := Option.some.inj (hq.symm.trans hself)
      by_cases hji' : j' = j
      · exact hji'.symm
      · rw [hother j' hji'] at hq'
        exact hown j' q' hq' hact' (hgroup.symm.trans hpm.group)
    · rw [hother j hji] at hq
      by_cases hji' : j' = i
      · subst hji'
        obtain rfl : q' = pm := Option.some.inj (hq'.symm.trans hself)
        exact (hown j q hq hact (hgroup.trans hpm.group)).symm
      · rw [hother j' hji'] at hq'
        exact h.unique j j' q q' hq hq' hact hact' hgroup

/-- The slot of channel `k` is freed. -/
theorem Represents.free (h : Represents S a γ) {i : ℕ} {pm old : Pending} {st : Stream}
    (hold : a.raw.pending[i]? = some old) (hholds : old.Holds k st)
    (hpm : pm.active = false) (hpend : a'.raw.pending = a.raw.pending.set i pm) :
    Represents S a' (Function.update γ k none) := by
  have hi : i < a.raw.pending.length := (List.getElem?_eq_some_iff.mp hold).1
  have hback : ∀ j q, a'.raw.pending[j]? = some q → q.active = true →
      j ≠ i ∧ a.raw.pending[j]? = some q := by
    intro j q hq hact
    by_cases hji : j = i
    · subst hji
      rw [hpend, List.getElem?_set_self hi] at hq
      obtain rfl := Option.some.inj hq
      rw [hpm] at hact
      cases hact
    · rw [hpend, List.getElem?_set_ne (Ne.symm hji)] at hq
      exact ⟨hji, hq⟩
  have hne : ∀ j st', Function.update γ k none j = some st' → j ≠ k ∧ γ j = some st' := by
    intro j st' hj
    by_cases hjk : j = k
    · subst hjk
      rw [Function.update_self] at hj
      cases hj
    · exact ⟨hjk, by rwa [Function.update_of_ne hjk] at hj⟩
  refine ⟨fun j st' hj => h.admitted j st' (hne j st' hj).2, fun j st' hj => ?_,
    fun j q hq hact => ?_, fun j j' q q' hq hq' hact hact' hgroup => ?_⟩
  · obtain ⟨hjk, hj⟩ := hne j st' hj
    obtain ⟨l, q, hq, hqholds⟩ := h.slot j st' hj
    have hli : l ≠ i := by
      rintro rfl
      obtain rfl : q = old := Option.some.inj (hq.symm.trans hold)
      exact hjk (channel_injective (hqholds.group.symm.trans hholds.group))
    exact ⟨l, q, by rw [hpend, List.getElem?_set_ne (Ne.symm hli)]; exact hq, hqholds⟩
  · obtain ⟨hji, hq⟩ := hback j q hq hact
    obtain ⟨l, st', hl, hqholds⟩ := h.known j q hq hact
    have hlk : l ≠ k := by
      rintro rfl
      exact hji (h.slot_unique hold hholds hq hact hqholds.group).symm
    exact ⟨l, st', by rw [Function.update_of_ne hlk]; exact hl, hqholds⟩
  · exact h.unique j j' q q' (hback j q hq hact).2 (hback j' q' hq' hact').2 hact hact' hgroup

/-- A start that the local machine admits opens a free slot. -/
theorem Represents.start (h : Represents S a γ) (hcard : S.card ≤ maxPending) (hk : k ∈ S)
    (hnone : γ k = none) {in0 len hdr0 hdr1 : UInt8} {chunk : List UInt8}
    (hshort : isShortFrame in0 = false) (hstart : isSegStart in0 = true)
    (hgroup : segGroup in0 = channel k) (h4 : chunk.length ≤ 4)
    (hlt : chunk.length < len.toNat) (hfit : len.toNat ≤ maxBody) :
    (a.feedBytes (in0 :: len :: hdr0 :: hdr1 :: chunk)).2 = none ∧
      Represents S (a.feedBytes (in0 :: len :: hdr0 :: hdr1 :: chunk)).1
        (Function.update γ k (some ⟨hdr0, hdr1, 0, len.toNat, chunk⟩)) := by
  obtain ⟨pm, hact, hpgroup, hidx, hh0, hh1, hexp, hgot, -, hbuf, hraw, hres⟩ :=
    a.feed_start len hdr0 hdr1 chunk hshort hstart h4 hfit
  have hgot' : pm.got = chunk.length := by omega
  rw [AssemblerT.store_of_lt _ _ (by omega)] at hraw hres
  obtain ⟨old, hold, hidle⟩ := h.exists_free hcard hk hnone
  refine ⟨hres, h.set hk hold (fun j q hq hqact hqgroup => ?_) (fun hact => ?_)
    ⟨hact, hpgroup.trans hgroup, hidx, hh0, hh1, hexp, hgot', ?_⟩ ?_⟩
  · -- nothing is active on channel `k`
    obtain ⟨l, st, hl, hholds⟩ := h.known j q hq hqact
    obtain rfl : l = k := channel_injective (hholds.group.symm.trans hqgroup)
    rw [hnone] at hl
    cases hl
  · rw [hidle] at hact
    cases hact
  · rw [hbuf, List.take_of_length_le (by omega)]
  · exact (congrArg AssemblerT.pending hraw).trans
      (congrArg (fun ps => ps.set a.raw.allocSlot.1 pm) a.wf.allocSlot.2.1)

/-- A continuation that the local machine admits goes to the slot of its channel. -/
theorem Represents.cont (h : Represents S a γ) {st : Stream} (hst : γ k = some st)
    {in0 : UInt8} {chunk : List UInt8} (hshort : isShortFrame in0 = false)
    (hstart : isSegStart in0 = false) (hcont : isSegCont in0 = true)
    (hgroup : segGroup in0 = channel k) (hidx : segIndex in0 = st.next)
    (h7 : chunk.length ≤ 7) :
    (st.expected ≤ (st.append chunk).bytes.length →
      (a.feedBytes (in0 :: chunk)).2 = some (st.append chunk).element ∧
        Represents S (a.feedBytes (in0 :: chunk)).1 (Function.update γ k none)) ∧
    ((st.append chunk).bytes.length < st.expected →
      (a.feedBytes (in0 :: chunk)).2 = none ∧
        Represents S (a.feedBytes (in0 :: chunk)).1
          (Function.update γ k (some (st.append chunk)))) := by
  obtain ⟨i, pm, hpm, hholds⟩ := h.slot k st hst
  have hclear : ClearAbove a.raw i (channel k) st.next (0 + 1) := by
    intro j q hj hq hact hqgroup
    have := h.slot_unique hpm hholds hq hact hqgroup
    omega
  have hfind : a.raw.findPending (segGroup in0) (segIndex in0) = some i := by
    rw [hgroup, hidx]
    exact findPending_eq_some a.wf hpm hholds.active hholds.group hholds.next hclear
  obtain ⟨pm', hact', hgroup', hidx', hh0, hh1, hexp', hgot', hbuf', hraw, hres⟩ :=
    a.feed_cont chunk hshort hstart hcont h7 hfind hpm
  rw [hholds.bytes, hholds.expected, hholds.got] at hbuf'
  have hlen : pm'.got = (st.append chunk).bytes.length := by
    rw [hgot', hholds.got, hholds.expected, Stream.append, List.length_append,
      List.length_take, Nat.min_comm]
  constructor
  · intro hge
    rw [AssemblerT.store_of_ge _ _ (by rw [hexp', hholds.expected, hlen]; exact hge)]
      at hraw hres
    refine ⟨hres.trans ?_, h.free hpm hholds rfl (congrArg AssemblerT.pending hraw)⟩
    rw [Pending.complete, hh0, hh1, hbuf', hholds.hdr0, hholds.hdr1]
    rfl
  · intro hlt
    rw [AssemblerT.store_of_lt _ _ (by rw [hexp', hholds.expected, hlen]; exact hlt)]
      at hraw hres
    refine ⟨hres, h.set (h.admitted k st hst) hpm
      (fun j q hq hact hqgroup => h.slot_unique hpm hholds hq hact hqgroup)
      (fun _ => hholds.group)
      ⟨hact', hgroup'.trans hholds.group, ?_, hh0.trans hholds.hdr0, hh1.trans hholds.hdr1,
        hexp'.trans hholds.expected, hlen, hbuf'⟩ (congrArg AssemblerT.pending hraw)⟩
    rw [hidx', hholds.next, Stream.append]

/-- **The assembler is four local machines side by side**: whenever the local machine of
a channel admits a frame, `feed` answers as it does and moves only that channel. -/
theorem separates (hcard : S.card ≤ maxPending) :
    Separates (@Assembler.feedBytes maxBody maxPending)
      (channelStep maxBody S) (Represents S) := by
  intro a γ k frame t o hR hstep
  rcases frame with - | ⟨in0, rest⟩
  · cases hstep
  simp only [channelStep] at hstep
  cases hshort : isShortFrame in0 with
  | true =>
      rw [hshort, if_pos rfl] at hstep
      rcases rest with - | ⟨in1, body⟩
      · cases hstep
      simp only [Option.ite_none_right_eq_some, Option.some.injEq, Prod.mk.injEq] at hstep
      obtain ⟨h6, rfl, rfl⟩ := hstep
      obtain ⟨hpend, hres⟩ := a.feed_short in1 body hshort h6
      exact ⟨hres, by rw [Function.update_eq_self]; exact hR.congr hpend⟩
  | false =>
      rw [hshort, if_neg Bool.false_ne_true] at hstep
      cases hstart : isSegStart in0 with
      | true =>
          rw [hstart, if_pos rfl] at hstep
          split at hstep
          · rename_i len hdr0 hdr1 chunk hnone
            simp only [Option.ite_none_right_eq_some, Option.some.injEq, Prod.mk.injEq]
              at hstep
            obtain ⟨⟨hk, hgroup, h4, hlt, hfit⟩, rfl, rfl⟩ := hstep
            exact hR.start hcard hk hnone hshort hstart hgroup h4 hlt hfit
          · cases hstep
      | false =>
          rw [hstart, if_neg Bool.false_ne_true] at hstep
          split at hstep
          · rename_i st hst
            split at hstep
            · rename_i hadm
              obtain ⟨hcont, hgroup, hidx, h7⟩ := hadm
              obtain ⟨hdone, hmore⟩ := hR.cont hst hshort hstart hcont hgroup hidx h7
              split at hstep
              · rename_i hge
                simp only [Option.some.injEq, Prod.mk.injEq] at hstep
                obtain ⟨rfl, rfl⟩ := hstep
                exact hdone hge
              · rename_i hlt
                simp only [Option.some.injEq, Prod.mk.injEq] at hstep
                obtain ⟨rfl, rfl⟩ := hstep
                exact hmore (Nat.not_le.mp hlt)
            · cases hstep
          · cases hstep

/-- A reset assembler has no stream in progress. -/
theorem represents_reset (S : Finset (Fin 4)) (a : Assembler maxBody maxPending) :
    Represents S a.reset fun _ => none := by
  have hidle : ∀ (i : ℕ) (pm : Pending),
      a.reset.raw.pending[i]? = some pm → pm.active = true → False := by
    intro i pm hpm hact
    simp only [Assembler.reset, AssemblerT.reset, List.getElem?_map,
      Option.map_eq_some_iff] at hpm
    obtain ⟨q, -, rfl⟩ := hpm
    cases hact
  exact ⟨fun k st h => absurd h (Option.some_ne_none st).symm,
    fun k st h => absurd h (Option.some_ne_none st).symm,
    fun i pm hpm hact => (hidle i pm hpm hact).elim,
    fun i j pm q hpm _ hact _ _ => (hidle i pm hpm hact).elim⟩

end Refinement

/-! ### One sender alone -/

section Local

variable {maxBody : ℕ} {S : Finset (Fin 4)} {k : Fin 4}

/-- The local machine collects the continuations of one telegram, however often the
index wraps. -/
theorem runLocal_contFrames (index : UInt8) (rest : List UInt8) :
    ∀ st : Stream, index.toNat < 16 → rest ≠ [] → st.next = index →
      st.expected = st.bytes.length + rest.length →
      runLocal (channelStep maxBody S k) (some st) (contFrames (channel k) index rest)
        = some (none, List.replicate ((rest.length + 6) / 7 - 1) none ++
            [some (Stream.element { st with bytes := st.bytes ++ rest })]) := by
  induction index, rest using contFrames.induct with
  | case1 index => intro st _ hne; exact absurd rfl hne
  | case2 index rest hne ih =>
      intro st h16 _ hnext hexp
      obtain ⟨hshort, hstart, hcont, hseg, hsegidx⟩ := contControl_spec (channel k) index
      rw [and_mask_group (channel_lt k)] at hseg
      rw [and_mask_index h16] at hsegidx
      have hpos := List.length_pos_of_ne_nil hne
      have happ : (st.append (rest.take 7)).bytes = st.bytes ++ rest.take 7 := by
        rw [Stream.append, hexp, Nat.add_sub_cancel_left,
          List.take_of_length_le (by rw [List.length_take]; omega)]
      have hlen : (st.append (rest.take 7)).bytes.length = st.bytes.length + min 7 rest.length := by
        rw [happ, List.length_append, List.length_take]
      have hstep : ∀ r, (if st.expected ≤ (st.append (rest.take 7)).bytes.length then
            some (none, some (st.append (rest.take 7)).element)
          else some (some (st.append (rest.take 7)), none)) = some r →
          channelStep maxBody S k (some st) (contControl (channel k) index :: rest.take 7)
            = some r := by
        intro r hr
        simp only [channelStep, hshort, hstart, Bool.false_eq_true, if_false]
        rw [if_pos ⟨hcont, hseg, hsegidx.trans hnext.symm, by rw [List.length_take]; omega⟩, hr]
      rw [contFrames_of_ne_nil _ _ hne]
      rcases Nat.lt_or_ge 7 rest.length with hlong | hlast
      · rw [if_neg (by omega)] at hstep
        have hnil : rest.drop 7 ≠ [] := List.ne_nil_of_length_pos (by rw [List.length_drop]; omega)
        have hrun := ih (st.append (rest.take 7)) (AssemblerT.nextIndex_lt index) hnil
          (by rw [Stream.append, hnext])
          (by rw [Stream.append_expected, hlen, List.length_drop]; omega)
        refine runLocal_cons_eq_some.mpr ⟨_, _, _, hstep _ rfl, hrun, ?_⟩
        have hcount : (rest.length + 6) / 7 - 1 = ((rest.drop 7).length + 6) / 7 - 1 + 1 := by
          rw [List.length_drop]
          omega
        rw [hcount, List.replicate_succ, List.cons_append, happ, List.append_assoc,
          List.take_append_drop]
        rfl
      · rw [if_pos (by omega)] at hstep
        rw [List.drop_eq_nil_of_le hlast, contFrames_nil]
        refine runLocal_cons_eq_some.mpr ⟨_, _, [], hstep _ rfl, rfl, ?_⟩
        have hcount : (rest.length + 6) / 7 - 1 = 0 := by omega
        have hel : (st.append (rest.take 7)).element
            = Stream.element { st with bytes := st.bytes ++ rest } := by
          rw [Stream.element, happ, List.take_of_length_le hlast]
          rfl
        rw [hcount, hel]
        rfl

/-- The local machine delivers one telegram, at its last frame. -/
theorem runLocal_telegram (hk : k ∈ S) (t : Telegram maxBody) :
    runLocal (channelStep maxBody S k) none (t.frames k) = some (none, t.answers k) := by
  have hhdr := t.legal.decodeHeader
  have hfits := t.fits
  have h255 := t.announced
  rw [Telegram.answers, Telegram.frames, sentFrames_eq, framing]
  rcases Nat.lt_or_ge 6 t.body.length with h6 | h6
  · rw [if_neg (by omega), if_neg (by omega)]
    have hlen : (UInt8.ofNat t.body.length).toNat = t.body.length :=
      UInt8.toNat_ofNat_of_lt' (Nat.lt_succ_of_le h255)
    have htake : (t.body.take 4).length = 4 := by rw [List.length_take]; omega
    have hdrop : (t.body.drop 4).length = t.body.length - 4 := List.length_drop
    obtain ⟨hshort, hstart, hseg⟩ := startControl_spec (channel k)
    rw [and_mask_group (channel_lt k)] at hseg
    have hstep : channelStep maxBody S k none
        (startFrame t.opcode t.lsg t.func (channel k) t.body)
        = some (some ⟨(encodeHeader t.opcode t.lsg t.func).1,
            (encodeHeader t.opcode t.lsg t.func).2, 0, t.body.length, t.body.take 4⟩, none) := by
      simp only [channelStep, startFrame, hshort, hstart, Bool.false_eq_true, if_false, if_true]
      rw [if_pos ⟨hk, hseg, by omega, by omega, by omega⟩, hlen]
    have hrun := @runLocal_contFrames maxBody S k 0 (t.body.drop 4)
      ⟨(encodeHeader t.opcode t.lsg t.func).1, (encodeHeader t.opcode t.lsg t.func).2, 0,
        t.body.length, t.body.take 4⟩
      (Nat.zero_lt_succ 15) (List.ne_nil_of_length_pos (by omega)) rfl (by
        simp only [htake]
        omega)
    refine runLocal_cons_eq_some.mpr ⟨_, _, _, hstep, hrun, ?_⟩
    have hcount : (contFrames (channel k) 0 (t.body.drop 4)).length
        = ((t.body.drop 4).length + 6) / 7 - 1 + 1 := by
      rw [length_contFrames]
      omega
    simp only [List.length_cons, Nat.add_sub_cancel, hcount, List.replicate_succ,
      List.cons_append, Stream.element, List.take_append_drop, hhdr]
  · rw [if_pos h6]
    have hshort := isShortFrame_encodeHeader t.lsg t.func t.legal.opcode
    have hstep : channelStep maxBody S k none ((encodeHeader t.opcode t.lsg t.func).1 ::
        (encodeHeader t.opcode t.lsg t.func).2 :: t.body) = some (none, some t.toElement) := by
      simp only [channelStep, hshort, if_true, h6, Stream.element, hhdr]
    exact runLocal_cons_eq_some.mpr ⟨_, _, [], hstep, rfl, rfl⟩

/-- **One sender alone** gets all its telegrams delivered. -/
theorem runLocal_frames (ts : List (Telegram maxBody)) (hk : ts ≠ [] → k ∈ S) :
    runLocal (channelStep maxBody S k) none (ts.flatMap (Telegram.frames k))
      = some (none, ts.flatMap (Telegram.answers k)) := by
  induction ts with
  | nil => rfl
  | cons t ts ih =>
      have hkS := hk (List.cons_ne_nil t ts)
      rw [List.flatMap_cons, List.flatMap_cons]
      exact runLocal_append (runLocal_telegram hkS t) (ih fun _ => hkS)

/-- The deliveries among the answers are the telegrams, in their order. -/
theorem reduceOption_answers (ts : List (Telegram maxBody)) :
    (ts.flatMap (Telegram.answers k)).reduceOption = ts.map Telegram.toElement := by
  induction ts with
  | nil => rfl
  | cons t ts ih =>
      rw [List.flatMap_cons, List.reduceOption_append, ih, Telegram.answers,
        List.reduceOption_append, List.reduceOption_replicate_none]
      rfl

end Local

/-- **Interleaved streams.** Senders on distinct channels, no more of them than the
assembler has slots, each send any sequence of telegrams; `l` is any interleaving of
their frames. From a reset assembler, the frames of each sender are answered as its
telegrams demand: `false` up to the last frame of a telegram, which delivers it. So every
telegram is delivered once, unchanged, and in its sender's order. -/
theorem interleaved_streams {maxBody maxPending : ℕ} (a : Assembler maxBody maxPending)
    (senders : Fin 4 → List (Telegram maxBody))
    (hslots : (Finset.univ.filter fun k => senders k ≠ []).card ≤ maxPending)
    {l : List (Fin 4 × List UInt8)}
    (hl : ∀ k, project k l = (senders k).flatMap (Telegram.frames k)) (k : Fin 4) :
    project k ((l.map Prod.fst).zip (a.reset.feedAll (l.map Prod.snd)).2)
        = (senders k).flatMap (Telegram.answers k) ∧
      (project k ((l.map Prod.fst).zip (a.reset.feedAll (l.map Prod.snd)).2)).reduceOption
        = (senders k).map Telegram.toElement := by
  have hloc : ∀ j, runLocal
      (channelStep maxBody (Finset.univ.filter fun k => senders k ≠ []) j)
      none (project j l) = some (none, (senders j).flatMap (Telegram.answers j)) := by
    intro j
    rw [hl j]
    exact runLocal_frames (senders j) fun hne =>
      Finset.mem_filter.mpr ⟨Finset.mem_univ j, hne⟩
  obtain ⟨-, hproj⟩ := runOut_project (separates hslots) l
    (represents_reset _ a) hloc
  have hk := hproj k
  refine ⟨hk, ?_⟩
  rw [show project k ((l.map Prod.fst).zip (a.reset.feedAll (l.map Prod.snd)).2)
    = (senders k).flatMap (Telegram.answers k) from hk]
  exact reduceOption_answers (senders k)

/-- A short and a long telegram. -/
def shortTelegram : Telegram 224 :=
  ⟨⟨4, 0x25, 0x11, [1, 2]⟩, ⟨by decide, by decide, by decide⟩, by decide, by decide⟩

/-- Its eight continuations leave room for others in between. -/
def longTelegram : Telegram 224 :=
  ⟨⟨4, 0x25, 0x19, List.replicate 60 0xAB⟩, ⟨by decide, by decide, by decide⟩, by decide,
    by decide⟩

/-- Two senders: channel 2 sends a short telegram after the start of the long one of
channel 3, and a long one of its own before that one goes on. -/
theorem interleaved_streams_two :
    let senders : Fin 4 → List (Telegram 224) :=
      ![[], [], [shortTelegram, longTelegram], [longTelegram]]
    let tag := fun k : Fin 4 => List.map (fun f : List UInt8 => (k, f))
    let l := tag 3 ((longTelegram.frames 3).take 1) ++ tag 2 (shortTelegram.frames 2) ++
      tag 2 (longTelegram.frames 2) ++ tag 3 ((longTelegram.frames 3).drop 1)
    let a := Assembler.zeroed 224 4 (by decide)
    project 2 ((l.map Prod.fst).zip (a.reset.feedAll (l.map Prod.snd)).2)
        = (senders 2).flatMap (Telegram.answers 2) ∧
      (project 2 ((l.map Prod.fst).zip (a.reset.feedAll (l.map Prod.snd)).2)).reduceOption
        = (senders 2).map Telegram.toElement :=
  interleaved_streams _ _ (by decide) (by decide +kernel) 2

end Ovms.Bap
