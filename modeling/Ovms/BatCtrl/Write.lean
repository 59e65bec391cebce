import Mathlib.Data.List.ReduceOption
import Ovms.Bap.Reassembly
import Ovms.BatCtrl.History

/-!
# What a Write Carries

Every telegram of the module, put together again from its frames by the assembler of the
other side, is the element it was built from. So what holds of the records the module
makes holds of the bytes the unit gets: no charge current above the hard limit, whatever
was read back or asked for, and the record that was read, with the operation and the
charge current changed, as long as its name is not too long for the module's profile.

## Main results

* `feedAll_frames`: a telegram reassembles to its elements.
* `armRecord_spec`: what a command changes in the record it read.
* `current_capped`: **no transmitted write exceeds the charge-current limit**.
* `profile_preserved_iff`: **a write preserves the record read back if and only if its
  name has at most 24 characters**.
* `long_name_damaged`: a write that damages a longer name.
-/

open Lib Ovms.Bap Ovms.EGolf

/-! ### Reassembly of a telegram -/

namespace Ovms.Bap

theorem DeliveredAtLast.reduceOption {outs : List (Option Element)} {el : Element}
    (h : DeliveredAtLast outs el) : outs.reduceOption = [el] := by
  obtain ⟨n, rfl⟩ := h
  rw [List.reduceOption_append, List.reduceOption_replicate_none]
  rfl

namespace Assembler

variable {maxBody maxPending : ℕ} {a : Assembler maxBody maxPending}

/-- No stream is active. -/
def Idle (a : Assembler maxBody maxPending) : Prop := ∀ pm ∈ a.raw.pending, pm.active = false

theorem idle_of_fresh (h : a.raw.Fresh) : a.Idle := fun pm hpm => (h.free pm hpm).1

theorem Idle.delivers (h : a.Idle) {el : Element} (hlegal : el.Legal)
    (h255 : el.body.length ≤ 255) (hfit : el.body.length ≤ maxBody) : a.Delivers 0 el := by
  rcases Nat.lt_or_ge 6 el.body.length with h6 | h6
  · refine Unobstructed.delivers (by decide) (fun i pm _ hpm hact _ => ?_) hlegal h6 h255 hfit
    rw [h pm (List.mem_of_getElem? hpm)] at hact
    cases hact
  · exact delivers_short a 0 hlegal h6

theorem Idle.feedAll_framing (h : a.Idle) {opcode lsg func : UInt8} {body : List UInt8}
    (hlegal : (⟨opcode, lsg, func, body⟩ : Element).Legal) (h255 : body.length ≤ 255)
    (hfit : body.length ≤ maxBody) :
    (a.feedAll (framing opcode lsg func 0 body)).2.reduceOption = [⟨opcode, lsg, func, body⟩] := by
  have hdel := h.delivers hlegal h255 hfit
  rw [Delivers, sentFrames_eq] at hdel
  exact hdel.reduceOption

end Assembler

end Ovms.Bap

namespace Ovms.BatCtrl

/-- The elements a telegram is built from. -/
def BapTelegram.elements : BapTelegram → List Element
  | handshake =>
      [⟨Opcode.get.code, kLsg, Func.bapConfig.code, []⟩,
        ⟨Opcode.get.code, kLsg, Func.bapGetAll.code, []⟩]
  | profileGet asgTxn => [⟨Opcode.get.code, kLsg, Func.profilesArray.code, [asgTxn, 0, 0, 4]⟩]
  | profileWrite asgTxn p =>
      [⟨Opcode.setGet.code, kLsg, Func.profilesArray.code, writeBody asgTxn p⟩]
  | trigger on => [⟨Opcode.setGet.code, kLsg, Func.operationMode.code, buildOperationMode on⟩]

theorem legal_of_codes (opcode : Opcode) (func : Func) (body : List UInt8) :
    (⟨opcode.code, kLsg, func.code, body⟩ : Element).Legal := by
  have hopcode : opcode.code.toNat ≤ 7 := by cases opcode <;> decide
  have hlsg : kLsg.toNat < 64 := by decide
  have hfunc : func.code.toNat < 64 := by cases func <;> decide
  exact ⟨hopcode, hlsg, hfunc⟩

theorem length_writeBody (asgTxn : UInt8) (p : Profile) :
    24 ≤ (writeBody asgTxn p).length ∧ (writeBody asgTxn p).length ≤ 48 := by
  have h := BatteryControl.length_encodeProfile p
  simp only [writeBody, List.length_cons]
  omega

section Reassembly

variable {a : Assembler 224 4}

/-- The profile request is complete in its one segmented frame. -/
theorem feed_profileGet (a : Assembler 224 4) (asgTxn : UInt8) :
    (a.feedBytes [0x80, 0x04, 0x19, 0x59, asgTxn, 0x00, 0x00, 0x04]).2
      = some ⟨Opcode.get.code, kLsg, Func.profilesArray.code, [asgTxn, 0, 0, 4]⟩ := by
  obtain ⟨pm, -, -, -, hhdr0, hhdr1, hexp, hgot, -, hbuf, -, hres⟩ :=
    a.feed_start 4 0x19 0x59 [asgTxn, 0, 0, 4] (by decide : isShortFrame 0x80 = false)
      (by decide) (by simp) (by decide)
  have hfour : pm.expected = 4 := hexp
  have hall : pm.got = 4 := by rw [hgot]; rfl
  rw [AssemblerT.store_of_ge _ _ (by omega)] at hres
  refine hres.trans (congrArg some ?_)
  rw [hall] at hbuf
  simp only [Pending.complete, hhdr0, hhdr1, hall, hbuf]
  rfl

/-- A request without a body is complete in its one short frame. -/
theorem feed_request (a : Assembler 224 4) (func : Func) :
    (a.feedBytes [(encodeHeader Opcode.get.code kLsg func.code).1,
        (encodeHeader Opcode.get.code kLsg func.code).2]).2
      = some ⟨Opcode.get.code, kLsg, func.code, []⟩ := by
  have hlegal := legal_of_codes .get func []
  have hres := (a.feed_short (encodeHeader Opcode.get.code kLsg func.code).2 []
    (isShortFrame_encodeHeader kLsg func.code hlegal.opcode) (by simp)).2
  rw [hlegal.decodeHeader] at hres
  exact hres

/-- **A telegram reassembles to its elements.** -/
theorem feedAll_frames (h : a.Idle) (t : BapTelegram) :
    (a.feedAll t.frames).2.reduceOption = t.elements := by
  cases t with
  | handshake =>
      have hframes : BapTelegram.handshake.frames
          = [[(encodeHeader Opcode.get.code kLsg Func.bapConfig.code).1,
                (encodeHeader Opcode.get.code kLsg Func.bapConfig.code).2],
              [(encodeHeader Opcode.get.code kLsg Func.bapGetAll.code).1,
                (encodeHeader Opcode.get.code kLsg Func.bapGetAll.code).2]] := rfl
      rw [hframes, Assembler.feedAll, runOut_cons, runOut_cons, runOut_nil, feed_request,
        feed_request]
      rfl
  | profileGet asgTxn =>
      simp only [BapTelegram.frames, BapTelegram.elements, Assembler.feedAll, runOut_cons,
        runOut_nil, feed_profileGet]
      rfl
  | profileWrite asgTxn p =>
      have hlen := length_writeBody asgTxn p
      exact h.feedAll_framing (legal_of_codes .setGet .profilesArray _) (by omega) (by omega)
  | trigger on =>
      have hlen : (buildOperationMode on).length = 2 := by cases on <;> rfl
      exact h.feedAll_framing (legal_of_codes .setGet .operationMode _) (by omega) (by omega)

/-- Frames of a telegram from the first on reassemble to elements of it from the first
on. -/
theorem feedAll_wire (h : a.Idle) {t : BapTelegram} {writes : List CanWrite} {ok : Bool}
    (hwire : Wire t writes ok) :
    (a.feedAll (writes.map CanWrite.data)).2.reduceOption <+: t.elements := by
  obtain ⟨rest, hrest⟩ := hwire.offered
  rw [← feedAll_frames h t, ← hrest, Assembler.feedAll, Assembler.feedAll, runOut_append,
    List.reduceOption_append]
  exact List.prefix_append _ _

end Reassembly

/-! ### The charge-current limit -/

/-- What a command writes is the record read back with the operation and the charge
current changed, and no charge current exceeds the limit. -/
theorem armRecord_spec (op : BcOp) (apply : Bool) (param : UInt8) (profile0 : Profile) :
    ∃ operation maxCurrent, armRecord op apply param profile0
        = { profile0 with operation, maxCurrent } ∧ maxCurrent ≤ kMaxCurrentHardLimit := by
  have hcap : ∀ p : Profile, ∃ maxCurrent,
      (if p.maxCurrent > kMaxCurrentHardLimit then { p with maxCurrent := kMaxCurrentHardLimit }
        else p) = { p with maxCurrent } ∧ maxCurrent ≤ kMaxCurrentHardLimit := by
    intro p
    split
    · exact ⟨_, rfl, UInt8.le_refl _⟩
    · rename_i h
      exact ⟨p.maxCurrent, rfl, UInt8.not_lt.mp h⟩
  simp only [armRecord]
  cases op with
  | climate | charge =>
      obtain ⟨maxCurrent, heq, hle⟩ := hcap _
      exact ⟨_, maxCurrent, heq, hle⟩
  | setCurrent =>
      cases apply with
      | false | true =>
          obtain ⟨maxCurrent, heq, hle⟩ := hcap _
          exact ⟨_, maxCurrent, heq, hle⟩

/-- A logged telegram is on the wire as it was built, and a write respects the limit. -/
def Obs.Sound : Obs → Prop
  | telegram t writes ok => Wire t writes ok ∧
      ∀ asgTxn q, t = .profileWrite asgTxn q → q.maxCurrent ≤ kMaxCurrentHardLimit
  | _ => True

section Moves

variable {c c' : Command} {a : Label} {L : List Obs} {ok : Bool}

theorem sound_of_wire {t : BapTelegram} {writes : List CanWrite} (hwire : Wire t writes ok)
    (hkind : ∀ asgTxn q, t ≠ .profileWrite asgTxn q) : (Obs.telegram t writes ok).Sound :=
  ⟨hwire, fun asgTxn q heq => absurd heq (hkind asgTxn q)⟩

/-- The write of the record is sound. -/
theorem Arms.sound (h : Arms c L ok) : ∀ o ∈ L, o.Sound := by
  cases h with
  | skip => simp
  | write hneed hwire =>
      refine List.forall_mem_singleton.mpr ⟨hwire, fun asgTxn q heq => ?_⟩
      obtain ⟨operation, maxCurrent, hrec, hle⟩ := armRecord_spec c.op c.apply c.param c.profile0
      simp only [BapTelegram.profileWrite.injEq] at heq
      rw [← heq.2, Command.record, hrec]
      exact hle

theorem ArmsAndGoes.sound (h : ArmsAndGoes c L c') : ∀ o ∈ L, o.Sound := by
  cases h with
  | failed harm | waits harm | settles harm => exact harm.sound
  | triggers hneed hwire =>
      exact List.forall_mem_singleton.mpr (sound_of_wire hwire (by simp))

theorem Resends.sound (h : Resends c L c') : ∀ o ∈ L, o.Sound := by
  cases h with
  | nothing => simp
  | handshake _ hwire | profileGet _ _ hwire | trigger _ _ hwire =>
      exact List.forall_mem_singleton.mpr (sound_of_wire hwire (by simp))
  | arm _ _ hgo => exact hgo.sound
  | rearm _ harm => exact harm.sound

/-- Every move is sound. -/
theorem Move.sound (h : Move c a L c') : ∀ o ∈ L, o.Sound := by
  cases h with
  | begin | refuse | abort | metrics | quiet | rest | rejected | confirmed | written | echoed
  | ignored => simp [Obs.Sound]
  | tick _ _ hresend => exact List.forall_mem_cons.mpr ⟨trivial, hresend.sound⟩
  | finish _ _ hresend =>
      refine List.forall_mem_append.mpr ⟨List.forall_mem_cons.mpr ⟨trivial, hresend.sound⟩, ?_⟩
      split <;> simp [Obs.Sound]
  | opened _ hwire | acked _ _ hwire | released _ _ _ hwire | reapplied _ _ _ _ hwire =>
      exact List.forall_mem_cons.mpr ⟨trivial,
        List.forall_mem_singleton.mpr (sound_of_wire hwire (by simp))⟩
  | readBack _ _ _ _ hgo =>
      exact List.forall_mem_cons.mpr ⟨trivial, List.forall_mem_cons.mpr ⟨trivial, hgo.sound⟩⟩

end Moves

theorem reachable_sound {s : BatteryControl} (h : Reachable step Initial s) :
    ∀ o ∈ s.log, o.Sound := by
  refine reachable_invariant (I := fun _ log => ∀ o ∈ log, o.Sound) (fun _ _ => by simp)
    (fun hI hmove => ?_) h
  exact List.forall_mem_append.mpr ⟨hI, hmove.sound⟩

/-- **No transmitted write exceeds the charge-current limit.** In every reachable state,
whatever was asked for, read back and received: an element that the frames of a telegram
reassemble to, if it writes the profile array, carries a charge current within the
limit. -/
theorem current_capped {s : BatteryControl} (h : Reachable step Initial s) {t : BapTelegram}
    {writes : List CanWrite} {ok : Bool} (hsent : .telegram t writes ok ∈ s.log)
    {a : Assembler 224 4} (hidle : a.Idle) {el : Element}
    (hel : el ∈ (a.feedAll (writes.map CanWrite.data)).2.reduceOption)
    (hopcode : el.opcode = Opcode.setGet.code) (hfunc : el.func = Func.profilesArray.code) :
    ∃ maxCurrent, el.body[6]? = some maxCurrent ∧ maxCurrent ≤ kMaxCurrentHardLimit := by
  obtain ⟨hwire, hcap⟩ := reachable_sound h _ hsent
  have hmem := (feedAll_wire hidle hwire).subset hel
  cases t with
  | handshake =>
      simp only [BapTelegram.elements, List.mem_cons, List.not_mem_nil, or_false] at hmem
      rcases hmem with rfl | rfl <;> cases hopcode
  | profileGet asgTxn =>
      rw [List.mem_singleton.mp hmem] at hopcode
      cases hopcode
  | trigger on =>
      rw [List.mem_singleton.mp hmem] at hfunc
      cases hfunc
  | profileWrite asgTxn q =>
      rw [List.mem_singleton.mp hmem]
      refine ⟨q.maxCurrent, ?_, hcap asgTxn q rfl⟩
      rw [writeBody, encodeProfile_eq]
      rfl

/-- The writes of a telegram whose frames are all taken. -/
def BapTelegram.taken (t : BapTelegram) : List CanWrite :=
  t.frames.map fun data => ⟨kCanIdCommand, data, .ok⟩

/-- The record a climate start writes. -/
def startRecord (name : List UInt8) : Profile := armRecord .climate false 0 (profileRead name)

/-- The write of a climate start is within the limit. -/
theorem current_capped_climateStart :
    ∃ maxCurrent, (writeBody 0x32 (startRecord optionName))[6]? = some maxCurrent ∧
      maxCurrent ≤ kMaxCurrentHardLimit :=
  @current_capped _ (reachable_parked (climateStart optionName))
    (.profileWrite 0x32 (startRecord optionName))
    (BapTelegram.profileWrite 0x32 (startRecord optionName)).taken true (by decide +kernel)
    (.zeroed 224 4 (by decide)) (Assembler.idle_of_fresh (AssemblerT.zeroed_fresh 224 4))
    ⟨Opcode.setGet.code, kLsg, Func.profilesArray.code, writeBody 0x32 (startRecord optionName)⟩
    (by decide +kernel) rfl rfl

/-! ### The record read back -/

/-- The record of the read-back and the bytes of a write of the same command: they differ
in the operation and the charge current only, if and only if the name has at most 24
characters. -/
theorem Explains.preserved_iff {seg : List Obs} {c : Command} (hexp : Explains seg c)
    {el : Element} {p : Profile} (hread : .readBack el p ∈ seg) {asgTxn : UInt8} {q : Profile}
    {writes : List CanWrite} {ok : Bool}
    (hsent : .telegram (.profileWrite asgTxn q) writes ok ∈ seg) :
    ∃ record, globalRecord el.body = some record ∧
      (SameRecord ((writeBody asgTxn q).drop 4) record ↔ nameLength record ≤ 24) := by
  obtain ⟨⟨-, -, -, hglobal⟩, -, hp⟩ := hexp.reads hread
  have hq := hexp.writes hsent
  obtain ⟨operation, maxCurrent, hrec, -⟩ := armRecord_spec c.op c.apply c.param c.profile0
  rw [Command.record, hrec, ← hp] at hq
  have hfind : ((decodeProfileArray el.body 4).1.find? fun p => p.position == 0) = some p := by
    rw [globalProfile] at hglobal
    split at hglobal
    · cases hglobal
    · exact hglobal
  obtain ⟨record, hrecord, hfrom⟩ := exists_record hfind
  refine ⟨record, hrecord, ?_⟩
  rw [hq]
  exact encode_preserves_iff hfrom operation maxCurrent

/-- **A write preserves the record read back if and only if its name has at most 24
characters.** In every reachable state, for the read-back of the current command and any
write it transmitted: the frames of the write reassemble to one element, and its record
has the bytes of the record that was read, the operation and the charge current apart,
exactly when the declared name length is at most 24. -/
theorem profile_preserved_iff {s : BatteryControl} (h : Reachable step Initial s) {el : Element}
    {p : Profile} (hread : .readBack el p ∈ current s.log) {asgTxn : UInt8} {q : Profile}
    {writes : List CanWrite}
    (hsent : .telegram (.profileWrite asgTxn q) writes true ∈ current s.log)
    {a : Assembler 224 4} (hidle : a.Idle) :
    ∃ record written, globalRecord el.body = some record ∧
      (a.feedAll (writes.map CanWrite.data)).2.reduceOption = [written] ∧
      written.opcode = Opcode.setGet.code ∧ written.func = Func.profilesArray.code ∧
      (SameRecord (written.body.drop 4) record ↔ nameLength record ≤ 24) := by
  have hhist := reachable_history h
  obtain ⟨record, hrecord, hiff⟩ := hhist.explains.preserved_iff hread hsent
  obtain ⟨pre, hpre⟩ := sinceLast_suffix (p := Obs.opens) s.log
  have hmem : .telegram (.profileWrite asgTxn q) writes true ∈ s.log := by
    rw [← hpre]
    exact List.mem_append_right _ hsent
  obtain ⟨hwire, -⟩ := reachable_sound h _ hmem
  refine ⟨record, ⟨Opcode.setGet.code, kLsg, Func.profilesArray.code, writeBody asgTxn q⟩, hrecord,
    ?_, rfl, rfl, hiff⟩
  rw [(hwire.complete rfl).1, feedAll_frames hidle]
  rfl

/-- A climate start keeps the record of a profile called "Option". -/
theorem profile_preserved_climateStart :
    ∃ record written, globalRecord (profileBody 0x31 1 16 optionName) = some record ∧
      ((Assembler.zeroed 224 4 (by decide)).feedAll
        ((BapTelegram.profileWrite 0x32 (startRecord optionName)).taken.map
          CanWrite.data)).2.reduceOption = [written] ∧
      written.opcode = Opcode.setGet.code ∧ written.func = Func.profilesArray.code ∧
      (SameRecord (written.body.drop 4) record ↔ nameLength record ≤ 24) :=
  @profile_preserved_iff _
    (reachable_parked (climateStart optionName))
    ⟨Opcode.status.code, kLsg, Func.profilesArray.code, profileBody 0x31 1 16 optionName⟩
    (profileRead optionName) (by decide +kernel) 0x32 (startRecord optionName)
    (BapTelegram.profileWrite 0x32 (startRecord optionName)).taken (by decide +kernel)
    (.zeroed 224 4 (by decide)) (Assembler.idle_of_fresh (AssemblerT.zeroed_fresh 224 4))

/-- Every write of the current command has the bytes of the record that was read back, the
operation and the charge current apart. -/
def Preserved (s : BatteryControl) : Prop :=
  ∀ el p asgTxn q writes record written, .readBack el p ∈ current s.log →
    .telegram (.profileWrite asgTxn q) writes true ∈ current s.log →
    globalRecord el.body = some record →
    ((Assembler.zeroed 224 4 (Nat.zero_lt_succ 3)).feedAll (writes.map CanWrite.data)).2.reduceOption
      = [written] →
    SameRecord (written.body.drop 4) record

/-- A name of 25 characters. -/
def longName : List UInt8 := List.replicate 25 0x41

/-- A climate start cuts that name. -/
theorem long_name_damaged :
    Reachable step Initial ((climateStart longName).foldl step parked) ∧
      ¬ Preserved ((climateStart longName).foldl step parked) := by
  refine ⟨reachable_parked _, fun hpreserved => ?_⟩
  have hsame := hpreserved
    ⟨Opcode.status.code, kLsg, Func.profilesArray.code, profileBody 0x31 1 16 longName⟩
    (profileRead longName) 0x32 (startRecord longName)
    (BapTelegram.profileWrite 0x32 (startRecord longName)).taken
    ((profileBody 0x31 1 16 longName).drop 5)
    ⟨Opcode.setGet.code, kLsg, Func.profilesArray.code, writeBody 0x32 (startRecord longName)⟩
    (by decide +kernel) (by decide +kernel) (by decide +kernel) (by decide +kernel)
  -- the byte that declares the length of the name
  exact absurd (hsame 19 (by decide) (by decide)) (by decide +kernel)

end Ovms.BatCtrl
