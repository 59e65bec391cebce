import Ovms.BatCtrl.Model
import Ovms.EGolf.Record
import Ovms.Lib.Machine

/-!
# The Command Protocol

What the controller is for, without its buffers and drivers: a command is a few fields
(`Command`), and every call from outside is one `Move` that changes them and lists what
was done. Each move names the condition under which the code makes it, so every property
of runs is a case analysis over the moves and never looks into the code again.
-/

open Lib Ovms.Bap Ovms.EGolf

namespace Ovms.BatCtrl

/-! ### Telegrams on the wire -/

/-- The body of the array write that puts profile `p` at position 0. -/
def writeBody (asgTxn : UInt8) (p : Profile) : List UInt8 :=
  asgTxn :: 0 :: 0 :: 1 :: encodeProfile 45 p

/-- The frames of a telegram. -/
def BapTelegram.frames : BapTelegram → List (List UInt8)
  | handshake =>
      framing Opcode.get.code kLsg Func.bapConfig.code 0 [] ++
        framing Opcode.get.code kLsg Func.bapGetAll.code 0 []
  | profileGet asgTxn => [[0x80, 0x04, 0x19, 0x59, asgTxn, 0x00, 0x00, 0x04]]
  | profileWrite asgTxn p =>
      framing Opcode.setGet.code kLsg Func.profilesArray.code 0 (writeBody asgTxn p)
  | trigger on =>
      framing Opcode.setGet.code kLsg Func.operationMode.code 0 (buildOperationMode on)

/-- The driver was handed frames of the telegram `t`, from the first on; a send that
reports success handed over all of them, and none was rejected. -/
structure Wire (t : BapTelegram) (writes : List CanWrite) (ok : Bool) : Prop where
  offered : writes.map CanWrite.data <+: t.frames
  complete : ok = true → writes.map CanWrite.data = t.frames ∧
    ∀ w ∈ writes, w.result ≠ .fail
  id : ∀ w ∈ writes, w.id = kCanIdCommand

namespace BatteryControl

theorem txFrame_spec (tx : Tx) (frame : List UInt8) :
    ∃ w : CanWrite, (txFrame tx frame).2.writes = tx.writes ++ [w] ∧ w.data = frame ∧
      w.id = kCanIdCommand ∧ ((txFrame tx frame).1 = true → w.result ≠ .fail) := by
  refine ⟨(tx.bus.writeExtended kCanIdCommand frame).1, rfl, rfl, rfl, fun h hfail => ?_⟩
  simp [txFrame, hfail] at h

/-- Frames are handed over from the first on, up to the first rejected one. -/
theorem offer_txFrame (fs : List (List UInt8)) :
    ∀ tx : Tx, ∃ more : List CanWrite, (offer txFrame tx fs).2.writes = tx.writes ++ more ∧
      more.map CanWrite.data <+: fs ∧ (∀ w ∈ more, w.id = kCanIdCommand) ∧
      ((offer txFrame tx fs).1 = fs.length →
        more.map CanWrite.data = fs ∧ ∀ w ∈ more, w.result ≠ .fail) := by
  induction fs with
  | nil => intro tx; exact ⟨[], by simp [offer], List.nil_prefix, by simp, by simp⟩
  | cons f fs ih =>
      intro tx
      obtain ⟨w, hw, hdata, hid, hok⟩ := txFrame_spec tx f
      rw [offer]
      cases hacc : (txFrame tx f).1 with
      | false =>
          refine ⟨[w], by simpa [hacc] using hw, ?_, by simpa using hid, ?_⟩
          · rw [List.map_cons, List.map_nil, hdata]
            exact ⟨fs, rfl⟩
          · intro h
            simp at h
      | true =>
          obtain ⟨more, hmore, hprefix, hids, hall⟩ := ih (txFrame tx f).2
          refine ⟨w :: more, ?_, ?_, ?_, ?_⟩
          · simp only [if_true, hmore, hw, List.append_assoc, List.cons_append, List.nil_append]
          · rw [List.map_cons, hdata]
            exact List.prefix_cons_inj f |>.mpr hprefix
          · exact List.forall_mem_cons.mpr ⟨hid, hids⟩
          · intro h
            simp only [if_true, List.length_cons, Nat.add_right_cancel_iff] at h
            obtain ⟨hdata', hres⟩ := hall h
            exact ⟨by rw [List.map_cons, hdata, hdata'],
              List.forall_mem_cons.mpr ⟨hok hacc, hres⟩⟩

/-- Sending one element from the start of a telegram puts its frames on the wire. -/
theorem wire_of_sendElement (bus : CanBus) (opcode : Opcode) (func : Func)
    (body : List UInt8) {t : BapTelegram}
    (ht : t.frames = framing opcode.code kLsg func.code 0 body) :
    let r := sendElement txFrame ⟨bus, []⟩ opcode kLsg func.code (some body) body.length
    Wire t r.2.writes r.1.isOk := by
  obtain ⟨more, hmore, hprefix, hids, hall⟩ :=
    offer_txFrame (framing opcode.code kLsg func.code 0 body) ⟨bus, []⟩
  simp only [sendElement, sendElementFn_eq, hmore, List.nil_append]
  refine ⟨ht ▸ hprefix, fun hok => ht ▸ hall (isOk_resultOf.mp hok).2, hids⟩

end BatteryControl

/-! ### Commands -/

/-- The fields of the state that a command is made of. -/
structure Command where
  phase : ClimatePhase
  op : BcOp
  param : UInt8
  enable : Bool
  apply : Bool
  haveProfile0 : Bool
  profile0 : Profile
  confirmed : Bool
  error : Bool
  wakeHold : ℕ
  climit : ℕ

/-- The command of a state. -/
def BatteryControl.command (s : BatteryControl) : Command where
  phase := s.phase
  op := s.op
  param := s.param
  enable := s.enable
  apply := s.apply
  haveProfile0 := s.haveProfile0
  profile0 := s.profile0
  confirmed := s.confirmed
  error := s.error
  wakeHold := s.wakeHold
  climit := s.metrics.climit

namespace Command

/-- A command that is only a write: a charge current while no charge is running. -/
def WriteOnly (c : Command) : Prop := c.op = .setCurrent ∧ c.apply = false

/-- The record the command writes. -/
def record (c : Command) : Profile := armRecord c.op c.apply c.param c.profile0

/-- Whether the command has to write its record. -/
def needsWrite (c : Command) : Bool :=
  writeNeeded c.op c.apply c.param c.profile0

end Command

/-- What the write of the command's record can do: nothing when it is not needed, else
one array write. -/
inductive Arms (c : Command) : List Obs → Bool → Prop
  | skip (hneed : c.needsWrite = false) : Arms c [] true
  | write {asgTxn : UInt8} {writes : List CanWrite} {ok : Bool} (hneed : c.needsWrite = true)
      (hwire : Wire (.profileWrite asgTxn c.record) writes ok) :
      Arms c [.telegram (.profileWrite asgTxn c.record) writes ok] ok

/-- Writing the record and going on: a failed write stays, a write that is the whole
command waits for confirmation, any other waits for its echo, and without a write the
trigger follows at once. -/
inductive ArmsAndGoes (c : Command) : List Obs → Command → Prop
  | failed {L : List Obs} (harm : Arms c L false) : ArmsAndGoes c L c
  | waits {L : List Obs} (harm : Arms c L true) (hneed : c.needsWrite = true)
      (hkind : ¬ c.WriteOnly) : ArmsAndGoes c L { c with phase := .armWait }
  | settles {L : List Obs} (harm : Arms c L true) (hneed : c.needsWrite = true)
      (hkind : c.WriteOnly) : ArmsAndGoes c L { c with phase := .confirm }
  | triggers {writes : List CanWrite} {ok : Bool} (hneed : c.needsWrite = false)
      (hwire : Wire (.trigger c.enable) writes ok) :
      ArmsAndGoes c [.telegram (.trigger c.enable) writes ok] { c with phase := .confirm }

/-- What the backstop of the tick can do. -/
inductive Resends (c : Command) : List Obs → Command → Prop
  | nothing : Resends c [] c
  | handshake {writes : List CanWrite} {ok : Bool} (hphase : c.phase = .handshake)
      (hwire : Wire .handshake writes ok) : Resends c [.telegram .handshake writes ok] c
  | profileGet {asgTxn : UInt8} {writes : List CanWrite} {ok : Bool}
      (hphase : c.phase = .profile) (hhave : c.haveProfile0 = false)
      (hwire : Wire (.profileGet asgTxn) writes ok) :
      Resends c [.telegram (.profileGet asgTxn) writes ok] c
  | arm {L : List Obs} {c' : Command} (hphase : c.phase = .profile)
      (hhave : c.haveProfile0 = true) (hgo : ArmsAndGoes c L c') : Resends c L c'
  | rearm {L : List Obs} {ok : Bool}
      (hphase : c.phase = .armWait ∨ (c.phase = .confirm ∧ c.WriteOnly))
      (harm : Arms c L ok) : Resends c L c
  | trigger {writes : List CanWrite} {ok : Bool} (hphase : c.phase = .confirm)
      (hkind : ¬ c.WriteOnly) (hwire : Wire (.trigger c.enable) writes ok) :
      Resends c [.telegram (.trigger c.enable) writes ok] c

theorem ArmsAndGoes.keeps {c c' : Command} {L : List Obs} (h : ArmsAndGoes c L c') :
    c' = { c with phase := c'.phase } := by
  cases h <;> rfl

theorem Resends.keeps {c c' : Command} {L : List Obs} (h : Resends c L c') :
    c' = { c with phase := c'.phase } := by
  cases h with
  | nothing | handshake | profileGet | rearm | trigger => rfl
  | arm _ _ hgo => exact hgo.keeps

/-- A call from outside, as the protocol sees it. -/
inductive Label
  | begin (op : BcOp) (enable : Bool) (param : UInt8)
  | refuse
  | abort
  | tick
  | receive (el : Element)
  | quiet
  | metrics
  deriving DecidableEq, Repr

/-- One call from outside: the command before, what was done, and the command after. -/
inductive Move : Command → Label → List Obs → Command → Prop
  | begin {c : Command} {op : BcOp} {enable apply : Bool} {param : UInt8} {w : CanWrite}
      (hparam : op = .setCurrent → param ≤ kMaxCurrentHardLimit)
      (happly : apply = true → op = .setCurrent) :
      Move c (.begin op enable param) [.started op enable param, .nmWake w]
        { c with
          op, param, enable, apply, confirmed := false, error := false,
          haveProfile0 := false, phase := .wake, wakeHold := kWakeSecs }
  | refuse {c : Command} : Move c .refuse [.notified .chargeStopBlocked] c
  | abort {c : Command} : Move c .abort [.aborted c.phase] { c with phase := .idle, wakeHold := 0 }
  | metrics {c : Command} {n : ℕ} : Move c .metrics [] { c with climit := n }
  | quiet {c : Command} : Move c .quiet [] c
  | rest {c : Command} (hrest : c.phase = .idle ∨ c.wakeHold = 0) : Move c .tick [] c
  | tick {c c' : Command} {w : CanWrite} {L : List Obs} (hphase : c.phase ≠ .idle)
      (hhold : 1 < c.wakeHold) (hresend : Resends c L c') :
      Move c .tick (.nmWake w :: L) { c' with wakeHold := c.wakeHold - 1 }
  | finish {c c' : Command} {w : CanWrite} {L : List Obs} {cause : Cause}
      (hphase : c.phase ≠ .idle) (hhold : c.wakeHold = 1) (hresend : Resends c L c')
      (hcause : c.error = true → cause = .rejected) :
      Move c .tick
        (.nmWake w :: L ++ if c.confirmed then [] else [.notified (.failed c.op cause)])
        { c' with wakeHold := 0, phase := .idle }
  | opened {c : Command} {el : Element} {e : Bool} {writes : List CanWrite} {ok : Bool}
      (hphase : c.phase = .wake) (hwire : Wire .handshake writes ok) :
      Move c (.receive el) [.received .wake el, .telegram .handshake writes ok]
        { c with phase := .handshake, error := e }
  | acked {c : Command} {el : Element} {e : Bool} {asgTxn : UInt8} {writes : List CanWrite}
      {ok : Bool} (hphase : c.phase = .handshake) (hack : isHandshakeAck el = true)
      (hwire : Wire (.profileGet asgTxn) writes ok) :
      Move c (.receive el) [.received .handshake el, .telegram (.profileGet asgTxn) writes ok]
        { c with phase := .profile, error := e }
  | rejected {c : Command} {el : Element} (hphase : c.phase ≠ .wake)
      (herr : el.opcode = Opcode.error.code) :
      Move c (.receive el) [.received c.phase el]
        { c with error := true, phase := .done, wakeHold := min c.wakeHold 1 }
  | confirmed {c : Command} {el : Element} {e : Bool} (hphase : c.phase = .confirm)
      (hmode : isOpMode el = true) (hon : opModeOn el = c.enable) (hkind : ¬ c.WriteOnly) :
      Move c (.receive el) [.received .confirm el]
        { c with error := e, confirmed := true, phase := .done, wakeHold := min c.wakeHold 2 }
  | released {c : Command} {el : Element} {writes : List CanWrite} {ok : Bool}
      (hphase : c.phase = .armWait) (hecho : isSetEcho el = true) (hop : c.op ≠ .setCurrent)
      (hwire : Wire (.trigger c.enable) writes ok) :
      Move c (.receive el) [.received .armWait el, .telegram (.trigger c.enable) writes ok]
        { c with phase := .confirm }
  | reapplied {c : Command} {el : Element} {writes : List CanWrite} {ok : Bool}
      (hphase : c.phase = .armWait) (hecho : isSetEcho el = true) (hop : c.op = .setCurrent)
      (happly : c.apply = true) (hwire : Wire (.trigger true) writes ok) :
      Move c (.receive el) [.received .armWait el, .telegram (.trigger true) writes ok]
        { c with phase := .confirm, climit := c.param.toNat }
  | written {c : Command} {el : Element} (hphase : c.phase = .confirm)
      (hecho : isSetEcho el = true) (hkind : c.WriteOnly) :
      Move c (.receive el) [.received .confirm el]
        { c with
          climit := c.param.toNat, confirmed := true, phase := .done,
          wakeHold := min c.wakeHold 2 }
  | echoed {c : Command} {el : Element} (hphase : c.phase ≠ .wake)
      (hecho : isSetEcho el = true) (hop : c.op = .setCurrent)
      (harm : ¬ (c.apply = true ∧ c.phase = .armWait))
      (hsettle : ¬ (c.apply = false ∧ c.phase = .confirm)) :
      Move c (.receive el) [.received c.phase el] { c with climit := c.param.toNat }
  | readBack {c c' : Command} {el : Element} {p : Profile} {L : List Obs}
      (hphase : c.phase = .profile) (hhave : c.haveProfile0 = false)
      (hreply : isGetReply el = true) (hp : globalProfile el = some p)
      (hgo : ArmsAndGoes
        { c with
          profile0 := p, haveProfile0 := true,
          climit := if c.op ≠ .setCurrent then p.maxCurrent.toNat else c.climit } L c') :
      Move c (.receive el) (.received .profile el :: .readBack el p :: L) c'
  | ignored {c : Command} {el : Element} {e : Bool} (hphase : c.phase ≠ .wake)
      (herr : el.opcode ≠ Opcode.error.code)
      (hecho : isSetEcho el = true → c.op ≠ .setCurrent)
      (he : c.phase = .done → e = c.error) :
      Move c (.receive el) [.received c.phase el] { c with error := e }

/-! ### What the send functions emit -/

/-- From `s` to `s'` the list `L` was logged, and the command did not change. -/
structure Emits (s : BatteryControl) (L : List Obs) (s' : BatteryControl) : Prop where
  command : s'.command = s.command
  log : s'.log = s.log ++ L

namespace BatteryControl

theorem sent_emits (s : BatteryControl) (t : BapTelegram) (tx : Tx) (ok : Bool) :
    (s.sent t tx ok).1 = ok ∧ Emits s [.telegram t tx.writes ok] (s.sent t tx ok).2 ∧
      (s.sent t tx ok).2.armSkipped = s.armSkipped := by
  cases ok <;> exact ⟨rfl, ⟨rfl, rfl⟩, rfl⟩

theorem sendNmWake_emits (s : BatteryControl) : ∃ w, Emits s [.nmWake w] s.sendNmWake :=
  ⟨_, rfl, rfl⟩

/-- A request without a body is one frame. -/
theorem sendElement_empty (tx : Tx) (func : Func) :
    ∃ w : CanWrite,
      (sendElement txFrame tx .get kLsg func.code none 0).2.writes = tx.writes ++ [w] ∧
        [w.data] = framing Opcode.get.code kLsg func.code 0 [] ∧ w.id = kCanIdCommand ∧
        ((sendElement txFrame tx .get kLsg func.code none 0).1.isOk = true →
          w.result ≠ .fail) := by
  obtain ⟨w, hw, hdata, hid, hok⟩ := txFrame_spec tx
    [(encodeHeader Opcode.get.code kLsg func.code).1,
      (encodeHeader Opcode.get.code kLsg func.code).2]
  have hsend : sendElement txFrame tx .get kLsg func.code none 0
      = (let r := txFrame tx [(encodeHeader Opcode.get.code kLsg func.code).1,
          (encodeHeader Opcode.get.code kLsg func.code).2]
         if r.1 then (⟨.ok, 1⟩, r.2) else (⟨.sinkFailedFirst, 0⟩, r.2)) := rfl
  refine ⟨w, ?_, by rw [hdata]; rfl, hid, fun h => hok ?_⟩
  · rw [hsend]
    simp only
    split <;> exact hw
  · rw [hsend] at h
    simp only at h
    split at h
    · assumption
    · cases h

/-- The handshake hands over both requests. -/
theorem sendHandshake_emits (s : BatteryControl) :
    ∃ writes ok, Wire .handshake writes ok ∧
      Emits s [.telegram .handshake writes ok] s.sendHandshake.2 := by
  obtain ⟨w₁, hw₁, hdata₁, hid₁, hok₁⟩ := sendElement_empty ⟨s.bus, []⟩ .bapConfig
  obtain ⟨w₂, hw₂, hdata₂, hid₂, hok₂⟩ := sendElement_empty
    (sendElement txFrame ⟨s.bus, []⟩ .get kLsg Func.bapConfig.code none 0).2 .bapGetAll
  rw [hw₁, List.nil_append] at hw₂
  refine ⟨_, _, ?_, (s.sent_emits _ _ _).2.1⟩
  rw [hw₂]
  have hframes : [w₁, w₂].map CanWrite.data = BapTelegram.handshake.frames := by
    rw [BapTelegram.frames, ← hdata₁, ← hdata₂]
    rfl
  refine ⟨hframes ▸ List.prefix_rfl, fun hok => ⟨hframes, ?_⟩, ?_⟩
  · obtain ⟨h1, h2⟩ := Bool.and_eq_true_iff.mp hok
    simpa using ⟨hok₁ h1, hok₂ h2⟩
  · simpa using ⟨hid₁, hid₂⟩

/-- The profile request hands over its one frame. -/
theorem sendProfileGet_emits (s : BatteryControl) :
    ∃ asgTxn writes ok, Wire (.profileGet asgTxn) writes ok ∧
      Emits s [.telegram (.profileGet asgTxn) writes ok] s.sendProfileGet.2 := by
  obtain ⟨w, hw, hdata, hid, hok⟩ := txFrame_spec ⟨s.bus, []⟩
    [0x80, 0x04, 0x19, 0x59, asgTxnByte kAsgIdOvms s.txn.next.last, 0x00, 0x00, 0x04]
  refine ⟨asgTxnByte kAsgIdOvms s.txn.next.last, _, _, ?_,
    ⟨(sent_emits _ _ _ _).2.1.command, (sent_emits _ _ _ _).2.1.log⟩⟩
  rw [hw, List.nil_append]
  have hframes : [w].map CanWrite.data
      = (BapTelegram.profileGet (asgTxnByte kAsgIdOvms s.txn.next.last)).frames := by
    rw [List.map_cons, hdata]
    rfl
  exact ⟨hframes ▸ List.prefix_rfl, fun h => ⟨hframes, by simpa using hok h⟩, by simpa using hid⟩

/-- The trigger hands over its one frame. -/
theorem sendTrigger_emits (s : BatteryControl) (on : Bool) :
    ∃ writes ok, Wire (.trigger on) writes ok ∧
      Emits s [.telegram (.trigger on) writes ok] (s.sendTrigger on).2 := by
  have hlen : (buildOperationMode on).length = 2 := by cases on <;> rfl
  have hwire := wire_of_sendElement s.bus .setGet .operationMode (buildOperationMode on)
    (t := .trigger on) rfl
  rw [hlen] at hwire
  exact ⟨_, _, hwire, (s.sent_emits _ _ _).2.1⟩

theorem length_encodeProfile (p : Profile) :
    20 ≤ (encodeProfile 45 p).length ∧ (encodeProfile 45 p).length ≤ 44 := by
  have hkept := keptName_le p.nameLen
  have hfixed : (fixedBytes p).length = 19 := rfl
  rw [encodeProfile_eq, List.length_append, List.length_cons, List.length_take, hfixed]
  omega

/-- A profile write is never refused: it takes a fresh transaction id and sends the
record at position 0. -/
theorem sendProfileWrite_eq {σ : Type*} (sink : σ → List UInt8 → Bool × σ) (ctx : σ)
    (tc : TxnCounter) (asgId : UInt8) (p : Profile) :
    sendProfileWrite sink ctx tc asgId 0 0 p
      = (let body := writeBody (asgTxnByte asgId tc.next.last) p
         let r := sendElement sink ctx .setGet kLsg Func.profilesArray.code (some body)
           body.length
         (r.1, r.2, tc.next)) := by
  obtain ⟨hmin, hmax⟩ := length_encodeProfile p
  have hcap : kProfileFixedLen + kProfileMaxName.toNat + 1 = 45 := rfl
  have hne : (encodeProfile 45 p).isEmpty = false := by
    rw [List.isEmpty_eq_false_iff]
    exact List.ne_nil_of_length_pos (by omega)
  have hbody : buildArrayWriteBody (4 + 45) (asgTxnByte asgId tc.next.last) 0 0 1
      (encodeProfile 45 p) = writeBody (asgTxnByte asgId tc.next.last) p :=
    if_neg (by omega)
  simp only [sendProfileWrite, hcap, hne, hbody, Bool.false_eq_true, if_false]
  rfl

/-- The write of the record hands over its frames, unless it is not needed. -/
theorem sendArm_emits (s : BatteryControl) :
    ∃ L, Arms s.command L s.sendArm.1 ∧ Emits s L s.sendArm.2 ∧
      s.sendArm.2.armSkipped = !s.command.needsWrite := by
  cases hneed : writeNeeded s.op s.apply s.param s.profile0 with
  | false =>
      have harm : s.sendArm = (true, { s with armSkipped := true }) := by
        simp only [sendArm, hneed, Bool.not_false, if_true]
      rw [harm]
      refine ⟨[], .skip hneed, ⟨rfl, (List.append_nil _).symm⟩, ?_⟩
      rw [Command.needsWrite, command, hneed]
      rfl
  | true =>
      obtain ⟨asgTxn, htxn⟩ : ∃ asgTxn, asgTxnByte kAsgIdOvms s.txn.next.last = asgTxn := ⟨_, rfl⟩
      have hwire := wire_of_sendElement s.bus .setGet .profilesArray
        (writeBody asgTxn s.command.record) (t := .profileWrite asgTxn s.command.record) rfl
      obtain ⟨r, hr⟩ : ∃ r, sendElement txFrame ⟨s.bus, []⟩ .setGet kLsg Func.profilesArray.code
          (some (writeBody asgTxn s.command.record)) (writeBody asgTxn s.command.record).length
          = r := ⟨_, rfl⟩
      rw [hr] at hwire
      have harm : s.sendArm = { s with armSkipped := false, txn := s.txn.next }.sent
          (.profileWrite asgTxn s.command.record) r.2 r.1.isOk := by
        simp only [sendArm, hneed, Bool.not_true, Bool.false_eq_true, if_false,
          sendProfileWrite_eq]
        rw [← hr, ← htxn]
        rfl
      rw [harm]
      obtain ⟨hok, hemits, hskip⟩ := sent_emits { s with armSkipped := false, txn := s.txn.next }
        (.profileWrite asgTxn s.command.record) r.2 r.1.isOk
      refine ⟨_, ?_, ⟨hemits.command, hemits.log⟩, ?_⟩
      · rw [hok]
        exact .write hneed hwire
      · rw [hskip, Command.needsWrite, command, hneed]
        rfl

/-! ### What the handlers do -/

theorem needsWrite_setCurrent {c : Command} (h : c.op = .setCurrent) : c.needsWrite = true := by
  rw [Command.needsWrite, writeNeeded, h]
  rfl

/-- What follows a successful write: only a write, a wait for its echo, or the trigger. -/
theorem afterArm_cases (s : BatteryControl) :
    (s.command.WriteOnly ∧ s.afterArm.command = { s.command with phase := .confirm } ∧
        s.afterArm.log = s.log) ∨
      (¬ s.command.WriteOnly ∧ (s.op = .setCurrent ∨ s.armSkipped = false) ∧
        s.afterArm.command = { s.command with phase := .armWait } ∧ s.afterArm.log = s.log) ∨
      (s.op ≠ .setCurrent ∧ s.armSkipped = true ∧
        ∃ writes ok, Wire (.trigger s.enable) writes ok ∧
          s.afterArm.command = { s.command with phase := .confirm } ∧
          s.afterArm.log = s.log ++ [.telegram (.trigger s.enable) writes ok]) := by
  rw [afterArm]
  by_cases hset : s.op = .setCurrent
  · rw [if_pos hset]
    cases hap : s.apply with
    | false => exact .inl ⟨⟨hset, hap⟩, by simp [command, hap], rfl⟩
    | true =>
        refine .inr (.inl ⟨fun h => ?_, .inl hset, by simp [command, hap], rfl⟩)
        have hfalse : s.apply = false := h.2
        rw [hap] at hfalse
        cases hfalse
  · rw [if_neg hset]
    cases hskip : s.armSkipped with
    | false =>
        exact .inr (.inl ⟨fun h => hset h.1, .inr rfl, by simp [command], by simp⟩)
    | true =>
        obtain ⟨writes, ok, hwire, hemits⟩ := s.sendTrigger_emits s.enable
        refine .inr (.inr ⟨hset, rfl, writes, ok, hwire, ?_, ?_⟩)
        · rw [if_pos rfl, ← hemits.command]
          rfl
        · rw [if_pos rfl, ← hemits.log]

/-- Writing the record and going on, as the reply handler and the backstop do it. -/
theorem armsAndGoes (s : BatteryControl) :
    ∃ L, ArmsAndGoes s.command L
        (if s.sendArm.1 then s.sendArm.2.afterArm else s.sendArm.2).command ∧
      (if s.sendArm.1 then s.sendArm.2.afterArm else s.sendArm.2).log = s.log ++ L := by
  obtain ⟨L, harm, hemits, hskip⟩ := s.sendArm_emits
  cases hok : s.sendArm.1 with
  | false =>
      rw [hok] at harm
      rw [if_neg Bool.false_ne_true, hemits.command]
      exact ⟨L, .failed harm, hemits.log⟩
  | true =>
      rw [hok] at harm
      rw [if_pos rfl]
      generalize s.sendArm.2 = s' at hemits hskip
      have hcases := s'.afterArm_cases
      have hop : s'.op = s.command.op := congrArg Command.op hemits.command
      have henable : s'.enable = s.command.enable := congrArg Command.enable hemits.command
      rw [hemits.command, hop, henable, hskip] at hcases
      rcases hcases with ⟨hkind, hcmd, hlog⟩ | ⟨hkind, hwait, hcmd, hlog⟩ |
        ⟨hset, hneed, writes, ok, hwire, hcmd, hlog⟩
      · exact ⟨L, hcmd ▸ .settles harm (needsWrite_setCurrent hkind.1) hkind,
          hlog.trans hemits.log⟩
      · have hneed : s.command.needsWrite = true := by
          rcases hwait with hset | hneed
          · exact needsWrite_setCurrent hset
          · simpa using hneed
        exact ⟨L, hcmd ▸ .waits harm hneed hkind, hlog.trans hemits.log⟩
      · -- nothing was written, so the trigger follows
        simp only [Bool.not_eq_true'] at hneed
        have hnil : L = [] := by
          cases harm with
          | skip => rfl
          | write h => rw [h] at hneed; cases hneed
        refine ⟨[.telegram (.trigger s.command.enable) writes ok],
          hcmd ▸ .triggers hneed hwire, ?_⟩
        rw [hlog, hemits.log, hnil, List.append_nil]

/-- The backstop. -/
theorem resend_resends (s : BatteryControl) :
    ∃ L, Resends s.command L s.resend.command ∧ s.resend.log = s.log ++ L := by
  have hstay : ∀ {L : List Obs} {s' : BatteryControl}, Emits s L s' →
      Resends s.command L s.command →
      ∃ L, Resends s.command L s'.command ∧ s'.log = s.log ++ L :=
    fun hemits h => ⟨_, by rw [hemits.command]; exact h, hemits.log⟩
  rw [resend]
  cases hphase : s.phase with
  | idle | wake | done => exact ⟨[], .nothing, (List.append_nil _).symm⟩
  | handshake =>
      obtain ⟨writes, ok, hwire, hemits⟩ := s.sendHandshake_emits
      exact hstay hemits (.handshake hphase hwire)
  | profile =>
      cases hhave : s.haveProfile0 with
      | false =>
          obtain ⟨asgTxn, writes, ok, hwire, hemits⟩ := s.sendProfileGet_emits
          simp only [Bool.false_eq_true, if_false]
          exact hstay hemits (.profileGet hphase hhave hwire)
      | true =>
          obtain ⟨L, hgo, hlog⟩ := s.armsAndGoes
          exact ⟨L, .arm hphase hhave hgo, hlog⟩
  | armWait =>
      obtain ⟨L, harm, hemits, -⟩ := s.sendArm_emits
      exact hstay hemits (.rearm (.inl hphase) harm)
  | confirm =>
      by_cases hkind : s.op = .setCurrent ∧ s.apply = false
      · obtain ⟨L, harm, hemits, -⟩ := s.sendArm_emits
        simp only [if_pos hkind]
        exact hstay hemits (.rearm (.inr ⟨hphase, hkind⟩) harm)
      · obtain ⟨writes, ok, hwire, hemits⟩ := s.sendTrigger_emits s.enable
        simp only [if_neg hkind]
        exact hstay hemits (.trigger hphase hkind hwire)

theorem noteOpMode_command (s : BatteryControl) (el : Element) :
    (s.noteOpMode el).log = s.log ∧
      (s.noteOpMode el).command
        = { s.command with error := if s.phase = .done then s.error else false } := by
  by_cases hdone : s.phase = .done <;> by_cases hop : s.op = .climate <;>
    simp [noteOpMode, command, hdone, hop]

/-- Sending the trigger and waiting for its confirmation. -/
theorem trigger_command (s : BatteryControl) (on : Bool) :
    ∃ writes ok, Wire (.trigger on) writes ok ∧
      ({ (s.sendTrigger on).2 with phase := .confirm, phaseSecs := 0 } : BatteryControl).command
        = { s.command with phase := .confirm } ∧
      (s.sendTrigger on).2.log = s.log ++ [.telegram (.trigger on) writes ok] := by
  obtain ⟨writes, ok, hwire, hemits⟩ := s.sendTrigger_emits on
  refine ⟨writes, ok, hwire, ?_, hemits.log⟩
  rw [← hemits.command]
  rfl

theorem cut_eq_min (n k : ℕ) : (if n > k then k else n) = min n k := by
  split <;> omega

theorem confirm_command (s : BatteryControl) :
    s.confirm.command = { s.command with
      confirmed := true, phase := .done, wakeHold := min s.wakeHold 2 } := by
  rw [← cut_eq_min]
  rfl

theorem reject_command (s : BatteryControl) :
    s.reject.command = { s.command with
      error := true, phase := .done, wakeHold := min s.wakeHold 1 } := by
  rw [← cut_eq_min]
  rfl

/-- The write echo, in any phase but the first. -/
theorem setEcho_move (s : BatteryControl) {el : Element} (hphase : s.phase ≠ .wake)
    (hecho : isSetEcho el = true) (herr : el.opcode ≠ Opcode.error.code) :
    ∃ L, Move s.command (.receive el) (.received s.phase el :: L) s.setEcho.command ∧
      s.setEcho.log = s.log ++ L := by
  by_cases hset : s.op = .setCurrent
  · -- the metric takes the requested current in any case
    obtain ⟨t, ht⟩ : ∃ t : BatteryControl,
        { s with metrics := { s.metrics with climit := s.param.toNat } } = t := ⟨_, rfl⟩
    have htcmd : t.command = { s.command with climit := s.param.toNat } := by rw [← ht]; rfl
    have htlog : t.log = s.log := by rw [← ht]
    have htwake : t.wakeHold = s.wakeHold := by rw [← ht]
    by_cases hwait : s.apply = true ∧ s.phase = .armWait
    · have heq : s.setEcho = { (t.sendTrigger true).2 with phase := .confirm, phaseSecs := 0 } := by
        rw [← ht]
        simp only [setEcho, hset, hwait, and_self, if_true]
      obtain ⟨writes, ok, hwire, hcmd, hlog⟩ := t.trigger_command true
      refine ⟨[.telegram (.trigger true) writes ok], ?_, ?_⟩
      · rw [heq, hcmd, htcmd, hwait.2]
        exact Move.reapplied (c := s.command) hwait.2 hecho hset hwait.1 hwire
      · rw [heq, ← htlog]
        exact hlog
    · by_cases hsettle : s.apply = false ∧ s.phase = .confirm
      · have heq : s.setEcho = t.confirm := by
          rw [← ht]
          simp only [setEcho, hset, hsettle, Bool.false_eq_true, false_and, if_false,
            Bool.not_false, and_self, if_true]
        refine ⟨[], ?_, ?_⟩
        · rw [heq, t.confirm_command, htcmd, htwake, hsettle.2]
          exact Move.written (c := s.command) hsettle.2 hecho ⟨hset, hsettle.1⟩
        · rw [heq, List.append_nil, ← htlog]
          rfl
      · have heq : s.setEcho = t := by
          have hsettle' : ¬ ((!s.apply) = true ∧ s.phase = .confirm) := by simpa using hsettle
          rw [← ht]
          simp only [setEcho, hset, hwait, hsettle', if_false, if_true]
        refine ⟨[], ?_, ?_⟩
        · rw [heq, htcmd]
          exact Move.echoed (c := s.command) hphase hecho hset hwait hsettle
        · rw [heq, htlog, List.append_nil]
  · by_cases hwait : (s.op = .climate ∨ s.op = .charge) ∧ s.phase = .armWait
    · have heq : s.setEcho
          = { (s.sendTrigger s.enable).2 with phase := .confirm, phaseSecs := 0 } := by
        rw [setEcho, if_neg hset, if_pos hwait]
      obtain ⟨writes, ok, hwire, hcmd, hlog⟩ := s.trigger_command s.enable
      refine ⟨[.telegram (.trigger s.enable) writes ok], ?_, by rw [heq]; exact hlog⟩
      rw [heq, hcmd, hwait.2]
      exact Move.released (c := s.command) hwait.2 hecho hset hwire
    · have heq : s.setEcho = s := by
        rw [setEcho, if_neg hset, if_neg hwait]
      rw [heq]
      exact ⟨[], Move.ignored (c := s.command) (e := s.error) hphase herr (fun _ => hset)
        (fun _ => rfl), (List.append_nil _).symm⟩

/-- The read-back of profile 0. -/
theorem adopt_move (s : BatteryControl) {el : Element} {p : Profile}
    (hphase : s.phase = .profile) (hhave : s.haveProfile0 = false)
    (hreply : isGetReply el = true) (hp : globalProfile el = some p) :
    ∃ L, Move s.command (.receive el) (.received .profile el :: L) (s.adopt el p).command ∧
      (s.adopt el p).log = s.log ++ L := by
  -- the state in which the record is written
  obtain ⟨s', hs'⟩ : ∃ s' : BatteryControl,
      (let t : BatteryControl := { s with
        profile0 := p, haveProfile0 := true, log := s.log ++ [Obs.readBack el p] }
       let t := if t.op ≠ .setCurrent then
         { t with metrics := { t.metrics with climit := p.maxCurrent.toNat } } else t
       if p.temperatureRaw ≠ 0xFF then
         { t with metrics := { t.metrics with cabinsetpoint := rawToDeciDegC p.temperatureRaw } }
       else t) = s' := ⟨_, rfl⟩
  have hcmd : s'.command = { s.command with
      profile0 := p, haveProfile0 := true,
      climit := if s.command.op ≠ .setCurrent then p.maxCurrent.toNat else s.command.climit } := by
    rw [← hs']
    by_cases hset : s.op = .setCurrent <;> by_cases htemp : p.temperatureRaw = 0xFF <;>
      simp [command, hset, htemp]
  have hlog : s'.log = s.log ++ [.readBack el p] := by
    rw [← hs']
    by_cases hset : s.op = .setCurrent <;> by_cases htemp : p.temperatureRaw = 0xFF <;>
      simp [hset, htemp]
  have hadopt : (s.adopt el p).command
        = (if s'.sendArm.1 then s'.sendArm.2.afterArm else s'.sendArm.2).command ∧
      (s.adopt el p).log = (if s'.sendArm.1 then s'.sendArm.2.afterArm else s'.sendArm.2).log := by
    rw [adopt, hs']
    cases s'.sendArm.1 <;> exact ⟨rfl, rfl⟩
  obtain ⟨L, hgo, hgolog⟩ := s'.armsAndGoes
  rw [← hadopt.1, hcmd] at hgo
  refine ⟨.readBack el p :: L, .readBack hphase hhave hreply hp hgo, ?_⟩
  rw [hadopt.2, hgolog, hlog, List.append_assoc]
  rfl

theorem isOpMode_of_isOwnArray {el : Element} (h : isOwnArray el = true) : isOpMode el = false := by
  have hne : Func.profilesArray.code ≠ Func.operationMode.code := by decide
  simp only [isOwnArray, Bool.and_eq_true, beq_iff_eq] at h
  simp [isOpMode, h.1.2, hne]

theorem isOwnArray_of_isSetEcho {el : Element} (h : isSetEcho el = true) :
    isOwnArray el = true := by
  simp only [isSetEcho, Bool.and_eq_true] at h
  exact h.1

/-- An element was noted: its reception is in the log, and of the command at most the error
flag is another, and that only for an operation-mode echo before the command is done. -/
structure Noted (s : BatteryControl) (el : Element) (t : BatteryControl) : Prop where
  log : t.log = s.log ++ [.received s.phase el]
  command : ∃ e, t.command = { s.command with error := e } ∧
    (s.phase = .done → e = s.error) ∧ (isOpMode el = false → e = s.error)

/-- Handling an element starts with noting it. -/
theorem noted (s : BatteryControl) (el : Element) :
    let t : BatteryControl :=
      { s with txFail := false, log := s.log ++ [Obs.received s.phase el] }
    Noted s el (if isOpMode el then t.noteOpMode el else t) := by
  by_cases hmode : isOpMode el = true
  · simp only [hmode, if_true]
    exact ⟨(noteOpMode_command _ el).1, _, (noteOpMode_command _ el).2, fun h => if_pos h,
      fun h => by rw [hmode] at h; cases h⟩
  · simp only [hmode, Bool.false_eq_true, if_false]
    exact ⟨rfl, s.error, rfl, fun _ => rfl, fun _ => rfl⟩

section Noted

variable {s t : BatteryControl} {el : Element}

theorem Noted.phase_eq (h : Noted s el t) : t.phase = s.phase := by
  obtain ⟨e, htcmd, -⟩ := h.command
  exact congrArg Command.phase htcmd

theorem Noted.ignored (h : Noted s el t) (hwake : s.phase ≠ .wake)
    (herr : el.opcode ≠ Opcode.error.code) (hecho : isSetEcho el = true → s.op ≠ .setCurrent) :
    ∃ L, Move s.command (.receive el) L t.command ∧ t.log = s.log ++ L := by
  obtain ⟨e, htcmd, hdone, -⟩ := h.command
  refine ⟨[.received s.phase el], ?_, h.log⟩
  rw [htcmd]
  exact Move.ignored (c := s.command) hwake herr hecho hdone

/-- An error ends the command. -/
theorem Noted.rejected (h : Noted s el t) (hwake : s.phase ≠ .wake)
    (herr : el.opcode = Opcode.error.code) :
    ∃ L, Move s.command (.receive el) L t.reject.command ∧ t.reject.log = s.log ++ L := by
  obtain ⟨e, htcmd, -⟩ := h.command
  refine ⟨[.received s.phase el], ?_, h.log⟩
  have hhold : t.wakeHold = s.command.wakeHold := congrArg Command.wakeHold htcmd
  rw [t.reject_command, htcmd, hhold]
  exact Move.rejected (c := s.command) hwake herr

/-- An operation-mode echo confirms the command, or is of no use to it. -/
theorem Noted.confirmOpMode (h : Noted s el t) (hwake : s.phase ≠ .wake)
    (herr : el.opcode ≠ Opcode.error.code) (hmode : isOpMode el = true) :
    ∃ L, Move s.command (.receive el) L (t.confirmOpMode el).command ∧
      (t.confirmOpMode el).log = s.log ++ L := by
  rw [BatteryControl.confirmOpMode]
  split
  · rename_i hconfirm
    obtain ⟨hop, hph, hon⟩ := hconfirm
    obtain ⟨e, htcmd, -⟩ := h.command
    have hkind : ¬ s.command.WriteOnly := by
      have htop : t.op = s.command.op := congrArg Command.op htcmd
      have htapply : t.apply = s.command.apply := congrArg Command.apply htcmd
      rintro ⟨h1, h2⟩
      rw [htop, htapply, h1, h2] at hop
      simp at hop
    have hhold : t.wakeHold = s.command.wakeHold := congrArg Command.wakeHold htcmd
    have henable : t.enable = s.command.enable := congrArg Command.enable htcmd
    rw [h.phase_eq] at hph
    refine ⟨[.received .confirm el], ?_, ?_⟩
    · rw [t.confirm_command, htcmd, hhold]
      exact Move.confirmed (c := s.command) hph hmode (hon.trans henable) hkind
    · rw [← hph]
      exact h.log
  · refine h.ignored hwake herr fun hecho => ?_
    rw [isOpMode_of_isOwnArray (isOwnArray_of_isSetEcho hecho)] at hmode
    cases hmode

/-- An array status is the echo of a write, the profile that is read back, or of no use. -/
theorem Noted.profilesArray (h : Noted s el t) (hwake : s.phase ≠ .wake)
    (herr : el.opcode ≠ Opcode.error.code) (hmode : isOpMode el = false) :
    ∃ L, Move s.command (.receive el) L (t.profilesArray el).command ∧
      (t.profilesArray el).log = s.log ++ L := by
  have hsame : t.command = s.command := by
    obtain ⟨e, htcmd, -, hquiet⟩ := h.command
    rw [htcmd, hquiet hmode]
    rfl
  have hlogged := h.log
  rw [BatteryControl.profilesArray]
  by_cases hecho : isSetEcho el = true
  · rw [if_pos hecho]
    obtain ⟨L, hmove, hlog⟩ := t.setEcho_move (h.phase_eq ▸ hwake) hecho herr
    rw [hsame, h.phase_eq] at hmove
    exact ⟨.received s.phase el :: L, hmove, by rw [hlog, hlogged, List.append_assoc]; rfl⟩
  · rw [if_neg hecho]
    split
    · rename_i hread
      obtain ⟨hph, hhave, hreply⟩ := hread
      cases hp : globalProfile el with
      | none => exact h.ignored hwake herr fun h => absurd h hecho
      | some p =>
          obtain ⟨L, hmove, hlog⟩ := t.adopt_move hph hhave hreply hp
          rw [hsame] at hmove
          rw [h.phase_eq] at hph
          rw [hph] at hlogged
          exact ⟨.received .profile el :: L, hmove,
            by rw [hlog, hlogged, List.append_assoc]; rfl⟩
    · exact h.ignored hwake herr fun h => absurd h hecho

end Noted

/-- **One element is one move.** -/
theorem handle_move (s : BatteryControl) (el : Element) :
    ∃ L, Move s.command (.receive el) L (s.handle el).command ∧
      (s.handle el).log = s.log ++ L := by
  obtain ⟨t, ht⟩ : ∃ t : BatteryControl,
      (let t : BatteryControl :=
        { s with txFail := false, log := s.log ++ [Obs.received s.phase el] }
       if isOpMode el then t.noteOpMode el else t) = t := ⟨_, rfl⟩
  have hnoted : Noted s el t := ht ▸ noted s el
  have htlog := hnoted.log
  obtain ⟨e, htcmd, -⟩ := hnoted.command
  have heq : s.handle el
      = (if t.phase = .wake then { t.sendHandshake.2 with phase := .handshake, phaseSecs := 0 }
        else if t.phase = .handshake ∧ isHandshakeAck el then
          { t.sendProfileGet.2 with phase := .profile, phaseSecs := 0 }
        else if el.opcode = Opcode.error.code then t.reject
        else if isOpMode el then t.confirmOpMode el
        else if isOwnArray el then t.profilesArray el
        else t) := by rw [← ht]; rfl
  rw [heq, hnoted.phase_eq]
  by_cases hwake : s.phase = .wake
  · rw [if_pos hwake]
    obtain ⟨writes, ok, hwire, hemits⟩ := t.sendHandshake_emits
    refine ⟨[.received .wake el, .telegram .handshake writes ok], ?_, ?_⟩
    · have hcmd : ({ t.sendHandshake.2 with phase := .handshake, phaseSecs := 0 } :
          BatteryControl).command = { s.command with phase := .handshake, error := e } := by
        have := congrArg (fun c : Command => { c with phase := .handshake })
          (hemits.command.trans htcmd)
        exact this
      rw [hcmd]
      exact Move.opened (c := s.command) hwake hwire
    · have hlog := hemits.log
      rw [htlog, hwake, List.append_assoc] at hlog
      exact hlog
  rw [if_neg hwake]
  by_cases hack : s.phase = .handshake ∧ isHandshakeAck el = true
  · rw [if_pos hack]
    obtain ⟨asgTxn, writes, ok, hwire, hemits⟩ := t.sendProfileGet_emits
    refine ⟨[.received .handshake el, .telegram (.profileGet asgTxn) writes ok], ?_, ?_⟩
    · have hcmd : ({ t.sendProfileGet.2 with phase := .profile, phaseSecs := 0 } :
          BatteryControl).command = { s.command with phase := .profile, error := e } := by
        have := congrArg (fun c : Command => { c with phase := .profile })
          (hemits.command.trans htcmd)
        exact this
      rw [hcmd]
      exact Move.acked (c := s.command) hack.1 hack.2 hwire
    · have hlog := hemits.log
      rw [htlog, hack.1, List.append_assoc] at hlog
      exact hlog
  rw [if_neg hack]
  by_cases herr : el.opcode = Opcode.error.code
  · rw [if_pos herr]
    exact hnoted.rejected hwake herr
  rw [if_neg herr]
  by_cases hmode : isOpMode el = true
  · rw [if_pos hmode]
    exact hnoted.confirmOpMode hwake herr hmode
  rw [if_neg hmode]
  by_cases hown : isOwnArray el = true
  · rw [if_pos hown]
    exact hnoted.profilesArray hwake herr (Bool.eq_false_iff.mpr hmode)
  · rw [if_neg hown]
    exact hnoted.ignored hwake herr fun h => absurd (isOwnArray_of_isSetEcho h) hown

/-- The first half of a live tick. -/
theorem backstop_resends (s : BatteryControl) :
    ∃ w L, Resends s.command L s.backstop.command ∧
      s.backstop.log = s.log ++ (.nmWake w :: L) := by
  obtain ⟨w, hwake⟩ := s.sendNmWake_emits
  have heq : s.backstop
      = (if (!s.sendNmWake.confirmed) = true ∧ s.sendNmWake.phaseSecs + 1 ≥ kRetrySecs then
          resend { s.sendNmWake with phaseSecs := 0 }
        else { s.sendNmWake with phaseSecs := s.sendNmWake.phaseSecs + 1 }) := rfl
  rw [heq]
  split
  · obtain ⟨L, hresend, hlog⟩ := resend_resends { s.sendNmWake with phaseSecs := 0 }
    have hcmd : ({ s.sendNmWake with phaseSecs := 0 } : BatteryControl).command = s.command :=
      hwake.command
    rw [hcmd] at hresend
    refine ⟨w, L, hresend, hlog.trans ?_⟩
    have hwlog : ({ s.sendNmWake with phaseSecs := 0 } : BatteryControl).log
        = s.log ++ [.nmWake w] := hwake.log
    rw [hwlog, List.append_assoc]
    rfl
  · have hcmd : ({ s.sendNmWake with phaseSecs := s.sendNmWake.phaseSecs + 1 } :
        BatteryControl).command = s.command := hwake.command
    exact ⟨w, [], hcmd ▸ .nothing, hwake.log⟩

/-- The second half: more than one second is left, or the command is over. -/
theorem countDown_cases (s : BatteryControl) (h : s.wakeHold ≠ 0) :
    (1 < s.wakeHold ∧ s.countDown.command = { s.command with wakeHold := s.wakeHold - 1 } ∧
        s.countDown.log = s.log) ∨
      (s.wakeHold = 1 ∧
        s.countDown.command = { s.command with wakeHold := 0, phase := .idle } ∧
        s.countDown.log = s.log ++ if s.confirmed then []
          else [.notified (.failed s.op s.failureCause)]) := by
  have heq : s.countDown = (if s.wakeHold - 1 = 0 then finish { s with wakeHold := s.wakeHold - 1 }
      else { s with wakeHold := s.wakeHold - 1 }) := by
    rw [countDown, if_pos (Nat.pos_of_ne_zero h)]
  rcases Nat.lt_or_ge 1 s.wakeHold with hmore | hlast
  · rw [heq, if_neg (by omega)]
    exact .inl ⟨hmore, rfl, rfl⟩
  · have h1 : s.wakeHold = 1 := by omega
    rw [heq, if_pos (by omega), finish]
    refine .inr ⟨h1, ?_, ?_⟩
    · split <;> simp [command, h1]
    · cases s.confirmed with
      | true => simp
      | false => rfl

/-- **One tick is one move.** -/
theorem ticker1_move (s : BatteryControl) (busAlive : Bool) :
    ∃ L, Move s.command .tick L (s.ticker1 busAlive).command ∧
      (s.ticker1 busAlive).log = s.log ++ L := by
  -- the liveness of the bus is only reflected in a metric
  obtain ⟨t, ht⟩ : ∃ t : BatteryControl,
      (if !busAlive then { s with metrics := { s.metrics with hvac := false } } else s) = t :=
    ⟨_, rfl⟩
  have htcmd : t.command = s.command := by rw [← ht]; cases busAlive <;> rfl
  have htlog : t.log = s.log := by rw [← ht]; cases busAlive <;> rfl
  rw [← htcmd, ← htlog, ticker1, ht]
  by_cases hrest : t.phase = .idle ∨ t.wakeHold = 0
  · rw [if_pos hrest]
    exact ⟨[], .rest hrest, (List.append_nil _).symm⟩
  rw [if_neg hrest]
  obtain ⟨hphase, hhold⟩ := not_or.mp hrest
  obtain ⟨w, L, hresend, hlog⟩ := t.backstop_resends
  have hkeep := hresend.keeps
  have huhold : t.backstop.wakeHold = t.wakeHold := congrArg Command.wakeHold hkeep
  have huconf : t.backstop.confirmed = t.confirmed := congrArg Command.confirmed hkeep
  have huop : t.backstop.op = t.op := congrArg Command.op hkeep
  have huerr : t.backstop.error = t.error := congrArg Command.error hkeep
  rcases t.backstop.countDown_cases (huhold ▸ hhold) with ⟨hmore, hcmd, hcount⟩ |
    ⟨hlast, hcmd, hcount⟩
  · rw [huhold] at hmore hcmd
    refine ⟨.nmWake w :: L, ?_, hcount.trans hlog⟩
    rw [hcmd]
    exact Move.tick (c := t.command) hphase hmore hresend
  · rw [huhold] at hlast
    have hcause : t.error = true → t.backstop.failureCause = .rejected := by
      intro herr
      rw [failureCause, if_pos (huerr.trans herr)]
    refine ⟨.nmWake w :: L ++ if t.confirmed then []
      else [.notified (.failed t.op t.backstop.failureCause)], ?_, ?_⟩
    · rw [hcmd]
      exact Move.finish (c := t.command) hphase hlast hresend hcause
    · rw [hcount, hlog, huconf, huop, List.append_assoc]

/-! ### Refinement -/

end BatteryControl

/-- A call of the code, as the protocol sees it. -/
def label (s : BatteryControl) : Event → Label
  | .climate enable => .begin .climate enable 0
  | .charge enable =>
      if !enable && s.metrics.hvac then .refuse else .begin .charge enable 0
  | .setChargeCurrent amps => .begin .setCurrent true (clampMaxCurrent amps)
  | .ticker1 _ => .tick
  | .incomingBapStatus f =>
      match s.element f with
      | some el => .receive el
      | none => .quiet
  | .incomingClimaEcuStatus _ => .quiet
  | .abort => .abort
  | .metrics _ => .metrics

/-- A new command is one move. -/
theorem begin_move (s : BatteryControl) {op : BcOp} (enable : Bool) {param : UInt8}
    (hparam : op = .setCurrent → param ≤ kMaxCurrentHardLimit) :
    ∃ L, Move s.command (.begin op enable param) L (s.begin op enable param).2.command ∧
      (s.begin op enable param).2.log = s.log ++ L := by
  obtain ⟨w, hemits⟩ := BatteryControl.sendNmWake_emits { s with
    op, param, enable,
    apply := op == BcOp.setCurrent && s.metrics.chargeInprogress,
    confirmed := false, error := false, txFail := false, haveProfile0 := false,
    armSkipped := false, bcuSeen := false, phase := .wake, phaseSecs := 0,
    wakeHold := kWakeSecs, log := s.log ++ [Obs.started op enable param] }
  have hlog := hemits.log
  rw [List.append_assoc] at hlog
  refine ⟨_, ?_, hlog⟩
  have hcmd : (s.begin op enable param).2.command = _ := hemits.command
  rw [hcmd]
  refine Move.begin (c := s.command) hparam fun happly => ?_
  simp only [Bool.and_eq_true, beq_iff_eq] at happly
  exact happly.1

/-- **Refinement**: every call of the code is a move of the protocol. -/
theorem step_move (s : BatteryControl) (e : Event) :
    ∃ L, Move s.command (label s e) L (step s e).command ∧ (step s e).log = s.log ++ L := by
  cases e with
  | climate enable => exact begin_move s enable fun h => by cases h
  | charge enable =>
      simp only [step, label, BatteryControl.charge]
      split
      · exact ⟨[.notified .chargeStopBlocked], .refuse, rfl⟩
      · exact begin_move s enable fun h => by cases h
  | setChargeCurrent amps => exact begin_move s true fun _ => clampMaxCurrent_le amps
  | ticker1 busAlive => exact s.ticker1_move busAlive
  | incomingBapStatus f =>
      simp only [step, label, BatteryControl.incomingBapStatus]
      cases s.element f with
      | none => exact ⟨[], .quiet, (List.append_nil _).symm⟩
      | some el =>
          exact BatteryControl.handle_move
            { s with bapAsm := (s.listening.feed f.msgId f.frame).1, bcuSeen := true } el
  | incomingClimaEcuStatus f => exact ⟨[], .quiet, (List.append_nil _).symm⟩
  | abort => exact ⟨[.aborted s.phase], .abort, rfl⟩
  | metrics m => exact ⟨[], .metrics, (List.append_nil _).symm⟩

/-- The command of a new controller. -/
structure Command.New (c : Command) : Prop where
  phase : c.phase = .idle
  op : c.op = .climate
  haveProfile0 : c.haveProfile0 = false
  confirmed : c.confirmed = false
  wakeHold : c.wakeHold = 0

theorem Initial.command {s : BatteryControl} (h : Initial s) : s.command.New :=
  ⟨h.phase, h.op, h.flags.2.2.1, h.flags.2.2.2.2.2.1, h.wakeHold⟩

/-- **The invariant rule of the controller**: what holds of a new command with an empty
log, and what every move preserves, holds of every reachable state. -/
theorem reachable_invariant {I : Command → List Obs → Prop} (hinit : ∀ c, c.New → I c [])
    (hmove : ∀ {c a L c' log}, I c log → Move c a L c' → I c' (log ++ L))
    {s : BatteryControl} (h : Reachable step Initial s) : I s.command s.log := by
  refine h.invariant (I := fun s => I s.command s.log) (fun s hs => ?_) (fun s e hI => ?_)
  · rw [hs.log]
    exact hinit _ hs.command
  · obtain ⟨L, hstep, hlog⟩ := step_move s e
    rw [hlog]
    exact hmove hI hstep

theorem reachable_parked (es : List Event) : Reachable step Initial (es.foldl step parked) :=
  (Reachable.of_init (zeroed_initial _ _)).foldl es

end Ovms.BatCtrl
