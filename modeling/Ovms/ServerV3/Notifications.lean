import Ovms.Notify.Reader
import Ovms.ServerV2.Delivery

/-!
# Notifications for a Server V3

How `OvmsServerV3` (`components/ovms_server_v3/src/ovms_server_v3.cpp`) publishes notifications. An
info, error or alert is published when it comes, or by the ticker while the flag of its type is
set, and it is read when it is published. A data record is published by the ticker, one at a time;
it is read when the server has acknowledged the message with a PUBREC.

The queues are those of `Ovms.Notify`. Whether the lock of the network is obtained is an argument
of each call. What is awaited is not forgotten when a connection is lost, but when the next one is
accepted: a PUBREC in between is taken for one of the lost connection.

## Main results

* `Good.step`: the step lemma.
* `delivered_of_not_stale`: nothing is lost or confirmed early, along the runs in which no entry is
  numbered after its counter has wrapped, and no PUBREC comes before a CONNACK that has the
  identifier of a message of the connection before.
-/

open Lib Std

namespace Ovms.ServerV3

open Notify (OvmsNotify OvmsNotifyEntry OvmsNotifyCallbackEntry Posted notifyMaxReaders)
open ServerV2 (Kind kindOf dataName notifyTypes kindOf_name kindOf_eq_some_iff name_ne_dataName)
open ServerV2.Outbox (IsKind)

/-! ### The members -/

/-- `OvmsServerV3`, of what notifications need. The pointers to the type and the entry that is
awaited are set together: they are the number of the entry in the queue of data records. Beside them
stand the entries of a kind that were accepted and those that were published, and the data records
that were published since the CONNACK of the current connection, with their message identifiers. -/
structure Notifications where
  notify : OvmsNotify
  /-- `m_mgconn` is not `NULL`. -/
  mgconn : Bool
  /-- The metric `s.v3.connected`. -/
  connected : Bool
  msgid : UInt16
  pending : Kind → Bool
  pendingData : Bool
  waitcomp : UInt16
  waitentry : Option ℕ
  accepted : List ℕ
  published : List ℕ
  own : List (ℕ × UInt16)

namespace Notifications

variable (reader : Fin notifyMaxReaders)

/-- The reader that `OvmsServerV3` registers. -/
def ovmsv3 : OvmsNotifyCallbackEntry := ⟨ServerV2.ascii "ovmsv3", true, reader, 65535, true⟩

/-- The new server, which is registered. -/
def new : Notifications where
  notify := { (OvmsNotify.new notifyTypes).registerReaderAs (ovmsv3 reader) with
    nextreader := reader + 1 }
  mgconn := false
  connected := false
  msgid := 0
  pending _ := false
  pendingData := false
  waitcomp := 0
  waitentry := none
  accepted := []
  published := []
  own := []

/-- One of the flags is set, or cleared. -/
def setPending (s : Notifications) (kind : Kind) (b : Bool) : Notifications :=
  { s with pending := Function.update s.pending kind b }

theorem pending_setPending_self (s : Notifications) (kind : Kind) (b : Bool) :
    (s.setPending kind b).pending kind = b := by
  simp [setPending]

theorem pending_setPending_of_ne (s : Notifications) {kind k : Kind} (hk : k ≠ kind) (b : Bool) :
    (s.setPending kind b).pending k = s.pending k := by
  simp [setPending, hk]

/-! ### Messages -/

/-- `NextMsgId` skips 0. -/
def nextMsgId (s : Notifications) : UInt16 × Notifications :=
  let id := if s.msgid = 0 then 1 else s.msgid
  (id, { s with msgid := id + 1 })

/-- `TransmitNotificationInfo` and its like, with the lock obtained or not: the identifier of the
message, or 0. -/
def transmitNotification (ok : Bool) (s : Notifications) : UInt16 × Notifications :=
  if ¬ ok ∨ ¬ s.mgconn then (0, s) else s.nextMsgId

/-- A notification, what the configured filters are, what the filters and the callbacks of other
readers answer, and whether the lock is obtained. -/
structure Notification where
  type : Notify.Text
  subtype : Notify.Text
  value : Notify.Text
  config : Notify.Text → Notify.Text
  raised : ℕ → Bool
  dispatched : ℕ → Bool
  processed : ℕ → Bool
  ok : Bool

/-- `NotificationFilter`. -/
def notificationFilter (type subtype : Notify.Text) : Bool :=
  decide (subtype ≠ ServerV2.ascii "server.v3.auth.failure") &&
    ((kindOf type).isSome || decide (type = dataName))

/-- What readers answer when the notification is raised. -/
def Notification.raisedEnv (n : Notification) : Notify.Environment :=
  ⟨n.config, Function.update n.raised reader (notificationFilter n.type n.subtype), fun _ => false⟩

/-- What they answer when it is dispatched. -/
def Notification.dispatchedEnv (n : Notification) (processed : Bool) : Notify.Environment :=
  ⟨n.config, Function.update n.dispatched reader (notificationFilter n.type n.subtype),
    Function.update n.processed reader processed⟩

/-- `IncomingNotification`, with its answer. -/
def incomingNotification (s : Notifications) (type : Notify.Text) (object : ℕ) (ok : Bool) :
    Notifications × Bool :=
  match kindOf type with
  | some kind =>
    if ¬ s.connected then (s, false)
    else
      let (txid, s) := s.transmitNotification ok
      if txid = 0 then (s.setPending kind true, false)
      else ({ s with published := s.published ++ [object] }, true)
  | none =>
    if type = dataName then
      if ¬ s.connected then (s, false) else ({ s with pendingData := true }, false)
    else (s, true)

/-- The server accepts a notification, and so its callback is called. -/
def accepts (s : Notifications) (n : Notification) : Bool :=
  (s.notify.getType n.type).isSome &&
    s.notify.readers[(reader : ℕ)]?.any fun mc =>
      mc.accepts (n.raisedEnv reader) n.subtype n.value.length

/-- `NotifyString`. -/
def notifyString (s : Notifications) (n : Notification) : Notifications :=
  let called := s.accepts reader n
  let r := if called then s.incomingNotification n.type s.notify.posted.length n.ok else (s, false)
  { r.1 with
    notify := s.notify.notifyString n.type n.subtype n.value (n.raisedEnv reader)
      (n.dispatchedEnv reader r.2)
    accepted := if called && (kindOf n.type).isSome then s.accepted ++ [s.notify.posted.length]
      else s.accepted }

/-! ### The ticker -/

/-- `TransmitPendingNotificationsInfo` and its like. -/
def transmitPending (kind : Kind) (ok : Bool) (s : Notifications) : Notifications :=
  match s.notify.firstUnread reader kind.name 0 with
  | none => s.setPending kind false
  | some e =>
    let (txid, s) := s.transmitNotification ok
    if txid = 0 then s
    else
      { s with
        notify := s.notify.markRead kind.name e.id reader
        published := s.published ++ [e.object] }

/-- `TransmitPendingNotificationsInfo`. -/
def transmitPendingNotificationsInfo (ok : Bool) (s : Notifications) : Notifications :=
  s.transmitPending reader .info ok

/-- `TransmitPendingNotificationsError`. -/
def transmitPendingNotificationsError (ok : Bool) (s : Notifications) : Notifications :=
  s.transmitPending reader .error ok

/-- `TransmitPendingNotificationsAlert`. -/
def transmitPendingNotificationsAlert (ok : Bool) (s : Notifications) : Notifications :=
  s.transmitPending reader .alert ok

/-- `TransmitPendingNotificationsData`. -/
def transmitPendingNotificationsData (ok : Bool) (s : Notifications) : Notifications :=
  if s.waitcomp ≠ 0 then s
  else
    match s.notify.firstUnread reader dataName 0 with
    | none => { s with pendingData := false }
    | some e =>
      let (txid, s) := s.transmitNotification ok
      if txid = 0 then { s with pendingData := true }
      else
        { s with
          waitentry := some e.id
          waitcomp := txid
          pendingData := false
          own := s.own ++ [(e.object, txid)] }

/-- Whether the lock is obtained at each of the four calls. -/
structure Tick where
  info : Bool
  error : Bool
  alert : Bool
  data : Bool
  deriving DecidableEq

/-- `Ticker1`: one of info, error and alert. -/
def tickKind (kind : Kind) (ok : Bool) (s : Notifications) : Notifications :=
  if s.pending kind then s.transmitPending reader kind ok else s

/-- The notifications of `Ticker1`. -/
def ticker1 (t : Tick) (s : Notifications) : Notifications :=
  if ¬ s.connected then s
  else
    let s := if s.pending .info then s.transmitPendingNotificationsInfo reader t.info else s
    let s := if s.pending .error then s.transmitPendingNotificationsError reader t.error else s
    let s := if s.pending .alert then s.transmitPendingNotificationsAlert reader t.alert else s
    if s.pendingData ∧ s.waitcomp = 0 then s.transmitPendingNotificationsData reader t.data else s

theorem ticker1_eq (t : Tick) (s : Notifications) : s.ticker1 reader t =
    if ¬ s.connected then s
    else
      let s := ((s.tickKind reader .info t.info).tickKind reader .error t.error).tickKind reader
        .alert t.alert
      if s.pendingData ∧ s.waitcomp = 0 then s.transmitPendingNotificationsData reader t.data
      else s := rfl

/-! ### The connection -/

/-- `Connect`, which creates a connection or does not. -/
def connect (created : Bool) (s : Notifications) : Notifications :=
  { s with msgid := 1, mgconn := created }

/-- `Disconnect`. -/
def disconnect (s : Notifications) : Notifications :=
  { s with mgconn := false, connected := false, own := [] }

/-- `MG_EV_MQTT_CONNACK` of a connection that is accepted. -/
def onConnack (s : Notifications) : Notifications :=
  { s with
    pending := fun _ => true
    pendingData := true
    waitcomp := 0
    waitentry := none
    connected := true
    own := [] }

/-- `IncomingPubRec`. -/
def incomingPubRec (id : UInt16) (ok : Bool) (s : Notifications) : Notifications :=
  match s.waitentry with
  | none => s
  | some n =>
    if id = s.waitcomp then
      { s with
        notify := s.notify.markRead dataName n reader
        waitcomp := 0
        waitentry := none
        pendingData := true }.transmitPendingNotificationsData reader ok
    else s

/-- What happens. -/
inductive Event
  | notifyString (n : Notification)
  | connect (created : Bool)
  | disconnect
  | connack
  | pubrec (id : UInt16) (ok : Bool)
  | ticker1 (t : Tick)
  /-- Another message is published: a metric, an event, a subscription. -/
  | publish
  /-- Other readers do something. -/
  | other (e : Notify.Event)

/-- A step. -/
def step (s : Notifications) : Event → Notifications
  | .notifyString n => s.notifyString reader n
  | .connect created => s.connect created
  | .disconnect => s.disconnect
  | .connack => s.onConnack
  | .pubrec id ok => s.incomingPubRec reader id ok
  | .ticker1 t => s.ticker1 reader t
  | .publish => s.nextMsgId.2
  | .other e => { s with notify := Notify.step s.notify e }

/-- The lock of the readers is free where it is taken, others are others, and there is a connection
or not. -/
def Admitted (s : Notifications) : Event → Prop
  | .notifyString _ => s.notify.clearing = none
  | .connect _ => s.mgconn = false
  | .connack | .pubrec _ _ => s.mgconn = true
  | .other e => Notify.Admitted s.notify e ∧ Notify.OtherReader reader e
  | .disconnect | .ticker1 _ | .publish => True

/-- A type numbers an entry although its counter has wrapped. -/
def Wraps (s : Notifications) : Event → Prop
  | .notifyString n =>
    Notify.Wraps s.notify
      (.notifyString n.type n.subtype n.value (n.raisedEnv reader) (n.raisedEnv reader))
  | _ => False

/-- Before the CONNACK, a PUBREC comes with the identifier that was awaited on a connection before
this one. -/
def Stale (s : Notifications) : Event → Prop
  | .pubrec id _ => s.connected = false ∧ s.waitentry ≠ none ∧ id = s.waitcomp
  | _ => False

instance (s : Notifications) : (e : Event) → Decidable (Admitted reader s e)
  | .notifyString _ => inferInstanceAs (Decidable (s.notify.clearing = none))
  | .connect _ | .connack | .pubrec _ _ => inferInstanceAs (Decidable (s.mgconn = _))
  | .other _ => inferInstanceAs (Decidable (_ ∧ _))
  | .disconnect | .ticker1 _ | .publish => isTrue trivial

instance (s : Notifications) : (e : Event) → Decidable (Wraps reader s e)
  | .notifyString n => inferInstanceAs (Decidable (Notify.Wraps s.notify
      (.notifyString n.type n.subtype n.value (n.raisedEnv reader) (n.raisedEnv reader))))
  | .connect _ | .disconnect | .connack | .pubrec _ _ | .ticker1 _ | .publish | .other _ =>
      isFalse id

instance (s : Notifications) : (e : Event) → Decidable (Stale s e)
  | .pubrec _ _ => inferInstanceAs (Decidable (_ ∧ _ ∧ _))
  | .connect _ | .disconnect | .connack | .notifyString _ | .ticker1 _ | .publish | .other _ =>
      isFalse id

/-! ### What should hold -/

/-- An entry of a type is in its queue, and the server has not read it. -/
def Unread (s : Notifications) (type : Notify.Text) (o : ℕ) : Prop :=
  Notify.UnreadBy reader s.notify type o

/-- A data record awaits its PUBREC: it was published on the current connection, and is unread. -/
def Awaits (s : Notifications) (o : ℕ) : Prop :=
  s.Unread reader dataName o ∧ ∃ id, (o, id) ∈ s.own

/-- **Nothing is lost**: an info, error or alert that was accepted is read exactly when it was
published, and it is published once; at most one data record awaits its PUBREC; while there is a
connection, the flag of a type is set while an entry is unread, or a PUBREC is awaited. -/
structure Delivered (s : Notifications) : Prop where
  once : s.published.Nodup
  only : ∀ o ∈ s.published, o ∈ s.accepted
  published : ∀ o ∈ s.accepted, o ∈ s.published ↔ ∀ kind : Kind, ¬ s.Unread reader kind.name o
  flagged : ∀ (kind : Kind) (o : ℕ), s.connected = true → s.Unread reader kind.name o →
    s.pending kind = true
  single : ∀ o o', s.Awaits reader o → s.Awaits reader o' → o = o'
  flaggedData : ∀ o, s.connected = true → s.Unread reader dataName o →
    s.pendingData = true ∨ ∃ o', s.Awaits reader o'

/-- A PUBREC has the identifier of a message of the current connection with a data record. -/
def Confirmed (s : Notifications) (e : Event) (o : ℕ) : Prop :=
  ∃ id ok, e = .pubrec id ok ∧ (o, id) ∈ s.own

/-- **Nothing is confirmed early**: a step reads a data record exactly if it is such a PUBREC. -/
def Confirms (s : Notifications) (e : Event) : Prop :=
  ∀ o, s.Unread reader dataName o →
    (¬ (step reader s e).Unread reader dataName o ↔ s.Confirmed e o)

/-! ### The invariant -/

/-- Infos, errors and alerts. -/
structure Counted (s : Notifications) (L : List Posted) : Prop where
  counted : Notify.Counted (ovmsv3 reader) IsKind s.accepted s.published s.notify L
  flagged : ∀ (kind : Kind) (o : ℕ), s.connected = true → Notify.Waits reader L kind.name o →
    s.pending kind = true

/-- Data records: of those that were published on the current connection, at most the one that is
awaited is unread. -/
structure Awaited (s : Notifications) (L : List Posted) : Prop where
  made : ∀ p ∈ s.own, p.1 < s.notify.posted.length
  off : s.connected = false → s.own = []
  idle : s.connected = true → s.waitentry = none →
    s.waitcomp = 0 ∧ ∀ p ∈ s.own, ¬ Notify.Waits reader L dataName p.1
  busy : s.connected = true → ∀ n, s.waitentry = some n → s.waitcomp ≠ 0 ∧
    ∃ o, (o, s.waitcomp) ∈ s.own ∧ s.notify.posted[o]? = some (dataName, n) ∧
      Notify.Waits reader L dataName o ∧
      ∀ p ∈ s.own, Notify.Waits reader L dataName p.1 → p = (o, s.waitcomp)
  moving : s.connected = true → s.waitentry = none → ∀ o, Notify.Waits reader L dataName o →
    s.pendingData = true

/-- What holds between the calls. -/
structure Good (s : Notifications) (L : List Posted) : Prop where
  counted : Counted reader s L
  awaited : Awaited reader s L

variable {reader} {s : Notifications} {L : List Posted}

theorem not_isKind_dataName : ¬ IsKind dataName := fun ⟨kind, hkind⟩ =>
  name_ne_dataName kind hkind.symm

theorem Good.follows (h : Good reader s L) : Notify.Follows (ovmsv3 reader) s.notify L :=
  h.counted.counted.follows

theorem Good.unread_iff (h : Good reader s L) {type : Notify.Text} {o : ℕ} :
    s.Unread reader type o ↔ Notify.Waits reader L type o := h.follows.unreadBy_iff

/-- The data record that is awaited. -/
theorem Good.awaits_iff (h : Good reader s L) {o : ℕ} : s.Awaits reader o ↔
    s.connected = true ∧ ∃ n, s.waitentry = some n ∧ s.notify.posted[o]? = some (dataName, n) ∧
      Notify.Waits reader L dataName o := by
  rw [Awaits, h.unread_iff]
  constructor
  · rintro ⟨hw, id, hown⟩
    have hconnected : s.connected = true := by
      rw [← Bool.not_eq_false]
      intro hoff
      rw [h.awaited.off hoff] at hown
      exact absurd hown List.not_mem_nil
    refine ⟨hconnected, ?_⟩
    cases hwait : s.waitentry with
    | none => exact absurd hw ((h.awaited.idle hconnected hwait).2 _ hown)
    | some n =>
      obtain ⟨-, o', hown', hpost, hw', hone⟩ := h.awaited.busy hconnected n hwait
      obtain rfl := (Prod.mk.inj (hone _ hown hw)).1
      exact ⟨n, rfl, hpost, hw⟩
  · rintro ⟨hconnected, n, hwait, hpost, hw⟩
    obtain ⟨-, o', hown, hpost', -, -⟩ := h.awaited.busy hconnected n hwait
    obtain rfl := h.follows.object_eq hpost hpost'
    exact ⟨hw, _, hown⟩

theorem Good.delivered (h : Good reader s L) : Delivered reader s where
  once := h.counted.counted.once
  only := h.counted.counted.only
  published o ho := by
    simp only [h.unread_iff]
    refine (h.counted.counted.sent_iff o ho).trans ⟨fun hall kind => hall _ ⟨kind, rfl⟩, ?_⟩
    rintro hall type ⟨kind, rfl⟩
    exact hall kind
  flagged kind o hconnected hu := h.counted.flagged kind o hconnected (h.unread_iff.mp hu)
  single o o' ho ho' := by
    obtain ⟨-, n, hwait, hpost, -⟩ := h.awaits_iff.mp ho
    obtain ⟨-, n', hwait', hpost', -⟩ := h.awaits_iff.mp ho'
    obtain rfl := Option.some.inj (hwait.symm.trans hwait')
    exact h.follows.object_eq hpost hpost'
  flaggedData o hconnected hu := by
    cases hwait : s.waitentry with
    | none => exact .inl (h.awaited.moving hconnected hwait o (h.unread_iff.mp hu))
    | some n =>
      obtain ⟨-, o', -, hpost, hw, -⟩ := h.awaited.busy hconnected n hwait
      exact .inr ⟨o', h.awaits_iff.mpr ⟨hconnected, n, hwait, hpost, hw⟩⟩

/-- What leaves the data records that were published alone. -/
theorem Awaited.of_eq (h : Awaited reader s L) {t : Notifications} {L' : List Posted}
    (hconnected : t.connected = s.connected) (hown : t.own = s.own)
    (hwaitentry : t.waitentry = s.waitentry) (hwaitcomp : t.waitcomp = s.waitcomp)
    (hposted : s.notify.posted <+: t.notify.posted)
    (hwaits : ∀ o < s.notify.posted.length,
      Notify.Waits reader L' dataName o ↔ Notify.Waits reader L dataName o)
    (hmoving : s.connected = true → (s.waitentry = none →
        ∀ o, Notify.Waits reader L dataName o → s.pendingData = true) →
      s.waitentry = none → ∀ o, Notify.Waits reader L' dataName o → t.pendingData = true) :
    Awaited reader t L' := by
  refine ⟨fun p hp => ?_, fun hoff => ?_, fun hon hidle => ?_, fun hon n hn => ?_,
    fun hon hidle => ?_⟩
  · rw [hown] at hp
    exact Nat.lt_of_lt_of_le (h.made p hp) hposted.length_le
  · rw [hown]
    exact h.off (hconnected.symm.trans hoff)
  · rw [hown, hwaitcomp]
    obtain ⟨hzero, hnone⟩ := h.idle (hconnected.symm.trans hon) (hwaitentry.symm.trans hidle)
    exact ⟨hzero, fun p hp hw => hnone p hp ((hwaits _ (h.made p hp)).mp hw)⟩
  · rw [hown, hwaitcomp]
    obtain ⟨hne, o, ho, hpost, hw, hone⟩ :=
      h.busy (hconnected.symm.trans hon) n (hwaitentry.symm.trans hn)
    refine ⟨hne, o, ho, ?_, (hwaits o (h.made _ ho)).mpr hw, fun p hp hw =>
      hone p hp ((hwaits _ (h.made p hp)).mp hw)⟩
    obtain ⟨rest, hrest⟩ := hposted
    rw [← hrest, List.getElem?_append_left (h.made _ ho)]
    exact hpost
  · have hon := hconnected.symm.trans hon
    exact hmoving hon (h.moving hon) (hwaitentry.symm.trans hidle)

/-! ### Infos, errors and alerts -/

theorem transmitNotification_eq (ok : Bool) (s : Notifications) :
    ∃ txid msgid, s.transmitNotification ok = (txid, { s with msgid := msgid }) := by
  rw [transmitNotification]
  split
  · exact ⟨0, s.msgid, rfl⟩
  · exact ⟨_, _, rfl⟩

theorem Good.numbered (h : Good reader s L) (msgid : UInt16) :
    Good reader { s with msgid := msgid } L where
  counted := ⟨h.counted.counted, h.counted.flagged⟩
  awaited := ⟨h.awaited.made, h.awaited.off, h.awaited.idle, h.awaited.busy, h.awaited.moving⟩

/-- A call that publishes infos, errors or alerts leaves data records alone. -/
def KeepsData (reader : Fin notifyMaxReaders) (L L' : List Posted) : Prop :=
  ∀ o, Notify.Waits reader L' dataName o ↔ Notify.Waits reader L dataName o

/-- **An info, error or alert** is published and read, or nothing happens. -/
theorem Good.transmitPending (h : Good reader s L) (kind : Kind) (ok : Bool) :
    ∃ L', Good reader (s.transmitPending reader kind ok) L' ∧ KeepsData reader L L' := by
  rw [Notifications.transmitPending]
  split
  · next hnone =>
    refine ⟨L, ⟨⟨h.counted.counted, fun k o hon hw => ?_⟩, ?_⟩, fun o => Iff.rfl⟩
    · have hne : k ≠ kind := by
        rintro rfl
        exact h.follows.not_waits hnone o hw
      rw [pending_setPending_of_ne s hne]
      exact h.counted.flagged k o hon hw
    · exact ⟨h.awaited.made, h.awaited.off, h.awaited.idle, h.awaited.busy, h.awaited.moving⟩
  · next e hfirst =>
    obtain ⟨txid, msgid, htransmit⟩ := transmitNotification_eq ok s
    rw [htransmit]
    dsimp only
    split
    · exact ⟨L, h.numbered msgid, fun o => Iff.rfl⟩
    · obtain ⟨L', hcounted, hwaits⟩ := h.counted.counted.send ⟨kind, rfl⟩ hfirst
      have hdata : KeepsData reader L L' := by
        refine fun o => (hwaits dataName o).trans (and_iff_left_of_imp fun hw heq => ?_)
        have hkind := (h.follows.firstUnread_some hfirst).1
        rw [← heq] at hkind
        exact name_ne_dataName kind (hkind.type_unique hw)
      obtain ⟨hposted, -⟩ := Notify.markRead_keeps s.notify kind.name e.id reader
      refine ⟨L', ⟨⟨hcounted, fun k o hon hw => ?_⟩, ?_⟩, hdata⟩
      · exact h.counted.flagged k o hon ((hwaits k.name o).mp hw).1
      · refine h.awaited.of_eq rfl rfl rfl rfl (hposted.symm ▸ List.prefix_rfl)
          (fun o _ => hdata o) fun hon hmoving hidle o hw => ?_
        exact hmoving hidle o ((hdata o).mp hw)

theorem Good.tickKind (h : Good reader s L) (kind : Kind) (ok : Bool) :
    ∃ L', Good reader (s.tickKind reader kind ok) L' ∧ KeepsData reader L L' := by
  rw [Notifications.tickKind]
  split
  · exact h.transmitPending kind ok
  · exact ⟨L, h, fun o => Iff.rfl⟩

theorem transmitPending_connected (s : Notifications) (kind : Kind) (ok : Bool) :
    (s.transmitPending reader kind ok).connected = s.connected := by
  rw [Notifications.transmitPending]
  split
  · rfl
  · obtain ⟨txid, msgid, htransmit⟩ := transmitNotification_eq ok s
    rw [htransmit]
    dsimp only
    split <;> rfl

theorem tickKind_connected (s : Notifications) (kind : Kind) (ok : Bool) :
    (s.tickKind reader kind ok).connected = s.connected := by
  rw [Notifications.tickKind]
  split
  · exact transmitPending_connected s kind ok
  · rfl

/-! ### Data records -/

/-- **A data record** is published, if none is awaited. -/
theorem Good.transmitData (h : Good reader s L) (hconnected : s.connected = true) (ok : Bool) :
    Good reader (s.transmitPendingNotificationsData reader ok) L := by
  rw [transmitPendingNotificationsData]
  split
  · exact h
  · next hzero =>
    have hidle : s.waitentry = none := by
      cases hwait : s.waitentry with
      | none => rfl
      | some n => exact absurd (h.awaited.busy hconnected n hwait).1 hzero
    obtain ⟨hcomp, hown⟩ := h.awaited.idle hconnected hidle
    split
    · next hnone =>
      refine ⟨⟨h.counted.counted, h.counted.flagged⟩, h.awaited.made, h.awaited.off,
        h.awaited.idle, h.awaited.busy, fun _ _ o hw => ?_⟩
      exact absurd hw (h.follows.not_waits hnone o)
    · next e hfirst =>
      obtain ⟨txid, msgid, htransmit⟩ := transmitNotification_eq ok s
      rw [htransmit]
      dsimp only
      split
      · exact ⟨⟨h.counted.counted, h.counted.flagged⟩, h.awaited.made, h.awaited.off,
          h.awaited.idle, h.awaited.busy, fun _ _ _ _ => rfl⟩
      · next htxid =>
        obtain ⟨hw, hpost⟩ := h.follows.firstUnread_some hfirst
        refine ⟨⟨h.counted.counted, h.counted.flagged⟩, fun p hp => ?_, fun hoff => ?_,
          fun _ hnone => ?_, fun _ n hn => ?_, fun _ hnone => ?_⟩
        · rcases List.mem_append.mp hp with hp | hp
          · exact h.awaited.made p hp
          · rw [List.mem_singleton.mp hp]
            exact h.follows.lt_length hw
        · exact absurd (hconnected.symm.trans hoff) Bool.noConfusion
        · exact absurd hnone (Option.some_ne_none e.id)
        · obtain rfl := Option.some.inj hn
          refine ⟨htxid, e.object, List.mem_append_right _ (List.mem_singleton_self _), hpost, hw,
            fun p hp hpw => ?_⟩
          rcases List.mem_append.mp hp with hp | hp
          · exact absurd hpw (hown p hp)
          · exact List.mem_singleton.mp hp
        · exact absurd hnone (Option.some_ne_none e.id)

/-- **The ticker.** -/
theorem Good.ticker1 (h : Good reader s L) (t : Tick) :
    ∃ L', Good reader (s.ticker1 reader t) L' ∧ KeepsData reader L L' := by
  rw [ticker1_eq]
  by_cases hconnected : s.connected = true
  · obtain ⟨L₁, h₁, hdata₁⟩ := h.tickKind .info t.info
    obtain ⟨L₂, h₂, hdata₂⟩ := h₁.tickKind .error t.error
    obtain ⟨L₃, h₃, hdata₃⟩ := h₂.tickKind .alert t.alert
    have hon : (((s.tickKind reader .info t.info).tickKind reader .error t.error).tickKind reader
        .alert t.alert).connected = true := by
      rw [tickKind_connected, tickKind_connected, tickKind_connected, hconnected]
    refine ⟨L₃, ?_, fun o => (hdata₃ o).trans ((hdata₂ o).trans (hdata₁ o))⟩
    rw [if_neg (not_not.mpr hconnected)]
    dsimp only
    split
    · exact h₃.transmitData hon t.data
    · exact h₃
  · rw [if_pos hconnected]
    exact ⟨L, h, fun o => Iff.rfl⟩

/-! ### Notifications -/

/-- The server answers alike when a notification is raised and when it is dispatched. -/
theorem accepts_dispatchedEnv (n : Notification) (processed : Bool) (size : ℕ) :
    (ovmsv3 reader).accepts (n.dispatchedEnv reader processed) n.subtype size =
      (ovmsv3 reader).accepts (n.raisedEnv reader) n.subtype size := by
  have hraised : (n.raisedEnv reader).filter reader = notificationFilter n.type n.subtype :=
    Function.update_self _ _ _
  have hdispatched : (n.dispatchedEnv reader processed).filter reader =
      notificationFilter n.type n.subtype := Function.update_self _ _ _
  unfold OvmsNotifyCallbackEntry.accepts
  rw [show (ovmsv3 reader).reader = reader from rfl, hraised, hdispatched]
  rfl

/-- The entry is queued, and the server has processed it or not. -/
theorem Good.enqueued (h : Good reader s L) {n : Notification} (hlock : s.notify.clearing = none)
    (hwrap : ¬ Wraps reader s (.notifyString n)) (processed : Bool) :
    ∃ L', Notify.Enqueued (ovmsv3 reader) s.notify n.type (s.accepts reader n) processed L
      (s.notify.notifyString n.type n.subtype n.value (n.raisedEnv reader)
        (n.dispatchedEnv reader processed)) L' := by
  have haccepts : s.accepts reader n = ((s.notify.getType n.type).isSome &&
      (ovmsv3 reader).accepts (n.raisedEnv reader) n.subtype n.value.length) := by
    have hregistered : s.notify.readers[(reader : ℕ)]? = some (ovmsv3 reader) :=
      h.follows.registered
    rw [accepts, hregistered, Option.any_some]
  have hprocessed : (n.dispatchedEnv reader processed).processed reader = processed :=
    Function.update_self _ _ _
  obtain ⟨L', hL'⟩ := h.follows.notifyString hlock (n.raisedEnv reader)
    (n.dispatchedEnv reader processed) hwrap (accepts_dispatchedEnv n processed n.value.length)
  refine ⟨L', ?_⟩
  rw [haccepts, ← hprocessed]
  rw [show (ovmsv3 reader).reader = reader from rfl, hprocessed] at hL'
  rw [hprocessed]
  exact hL'

/-- An entry is queued, and the awaited record stays as it is. -/
theorem Awaited.enqueued (h : Awaited reader s L) {n : Notification} {acc processed : Bool}
    {s' : OvmsNotify} {L' : List Posted}
    (he : Notify.Enqueued (ovmsv3 reader) s.notify n.type acc processed L s' L')
    {t : Notifications} (hnotify : t.notify = s') (hconnected : t.connected = s.connected)
    (hown : t.own = s.own) (hwaitentry : t.waitentry = s.waitentry)
    (hwaitcomp : t.waitcomp = s.waitcomp)
    (hpending : s.connected = true → t.pendingData = true ∨
      t.pendingData = s.pendingData ∧ (acc = false ∨ processed = true ∨ dataName ≠ n.type)) :
    Awaited reader t L' := by
  refine h.of_eq hconnected hown hwaitentry hwaitcomp (hnotify ▸ he.posted)
    (fun o ho => he.waits_old ho) fun hon hmoving hidle o hw => ?_
  obtain hset | ⟨hsame, hold⟩ := hpending hon
  · exact hset
  · exact hsame.trans (hmoving hidle o ((he.waits_other hold).mp hw))

/-- **A notification.** -/
theorem Good.notifyString (h : Good reader s L) {n : Notification}
    (hlock : s.notify.clearing = none) (hwrap : ¬ Wraps reader s (.notifyString n)) :
    ∃ L', Good reader (s.notifyString reader n) L' ∧
      ∀ o, Notify.Waits reader L dataName o → Notify.Waits reader L' dataName o := by
  have henqueued := h.enqueued hlock hwrap
  have hkeeps : ∀ {acc processed s' L'}, Notify.Enqueued (ovmsv3 reader) s.notify n.type acc
      processed L s' L' →
        ∀ o, Notify.Waits reader L dataName o → Notify.Waits reader L' dataName o :=
    fun he o hw => (he.waits dataName o).mpr (.inl hw)
  -- A notification that is no info, error or alert for the server.
  have hother : ∀ {acc processed s' L'}, Notify.Enqueued (ovmsv3 reader) s.notify n.type acc
      processed L s' L' → acc = false ∨ kindOf n.type = none →
      Notify.Counted (ovmsv3 reader) IsKind s.accepted s.published s' L' ∧
        ∀ kind : Kind, ∀ o, s.connected = true → Notify.Waits reader L' kind.name o →
          s.pending kind = true := by
    intro acc processed s' L' he hnone
    have hnot : acc = false ∨ ¬ IsKind n.type := by
      refine hnone.imp id fun hkind => ?_
      rintro ⟨kind, hname⟩
      rw [hname, kindOf_name] at hkind
      exact Option.some_ne_none kind hkind
    refine ⟨h.counted.counted.takes_other he hnot, fun kind o hon hw => ?_⟩
    refine h.counted.flagged kind o hon ((he.waits_other ?_).mp hw)
    exact hnot.imp id fun hkind => .inr fun heq => hkind ⟨kind, heq.symm⟩
  rw [Notifications.notifyString]
  cases hacc : s.accepts reader n with
  | false =>
    rw [hacc] at henqueued
    obtain ⟨L', he⟩ := henqueued false
    obtain ⟨hcounted, hflagged⟩ := hother he (.inl rfl)
    exact ⟨L', ⟨⟨hcounted, hflagged⟩,
      h.awaited.enqueued he rfl rfl rfl rfl rfl fun _ => .inr ⟨rfl, .inl rfl⟩⟩, hkeeps he⟩
  | true =>
    rw [hacc] at henqueued
    simp only [if_true, Bool.true_and, incomingNotification]
    cases hkind : kindOf n.type with
    | none =>
      simp only [Option.isSome_none, Bool.false_eq_true, if_false]
      by_cases hdata : n.type = dataName
      · obtain ⟨L', he⟩ := henqueued false
        obtain ⟨hcounted, hflagged⟩ := hother he (.inr hkind)
        rw [if_pos hdata]
        by_cases hconnected : s.connected = true
        · rw [if_neg (not_not.mpr hconnected)]
          exact ⟨L', ⟨⟨hcounted, hflagged⟩,
            h.awaited.enqueued he rfl rfl rfl rfl rfl fun _ => .inl rfl⟩, hkeeps he⟩
        · rw [if_pos hconnected]
          exact ⟨L', ⟨⟨hcounted, hflagged⟩, h.awaited.enqueued he rfl rfl rfl rfl rfl
            fun hon => absurd hon hconnected⟩, hkeeps he⟩
      · obtain ⟨L', he⟩ := henqueued true
        obtain ⟨hcounted, hflagged⟩ := hother he (.inr hkind)
        rw [if_neg hdata]
        exact ⟨L', ⟨⟨hcounted, hflagged⟩,
          h.awaited.enqueued he rfl rfl rfl rfl rfl fun _ => .inr ⟨rfl, .inr (.inl rfl)⟩⟩,
          hkeeps he⟩
    | some kind =>
      have hname : n.type = kind.name := kindOf_eq_some_iff.mp hkind
      have hne : dataName ≠ n.type := fun heq => name_ne_dataName kind (hname.symm.trans heq.symm)
      simp only [Option.isSome_some, if_true]
      by_cases hconnected : s.connected = true
      · rw [if_neg (not_not.mpr hconnected)]
        obtain ⟨txid, msgid, htransmit⟩ := transmitNotification_eq n.ok s
        rw [htransmit]
        dsimp only
        split
        · -- It is not published, so the flag is set.
          obtain ⟨L', he⟩ := henqueued false
          refine ⟨L', ⟨⟨h.counted.counted.takes ⟨kind, hname⟩ he, fun k o hon hw => ?_⟩,
            h.awaited.enqueued he rfl rfl rfl rfl rfl fun _ => .inr ⟨rfl, .inr (.inr hne)⟩⟩,
            hkeeps he⟩
          by_cases hk : k = kind
          · rw [hk]
            exact pending_setPending_self _ kind true
          · refine (pending_setPending_of_ne _ hk true).trans ?_
            refine h.counted.flagged k o hconnected ((he.waits_other (.inr (.inr ?_))).mp hw)
            intro heq
            rw [← heq, kindOf_name] at hkind
            exact hk (Option.some.inj hkind)
        · obtain ⟨L', he⟩ := henqueued true
          refine ⟨L', ⟨⟨h.counted.counted.takes ⟨kind, hname⟩ he, fun k o hon hw => ?_⟩,
            h.awaited.enqueued he rfl rfl rfl rfl rfl fun _ => .inr ⟨rfl, .inr (.inl rfl)⟩⟩,
            hkeeps he⟩
          exact h.counted.flagged k o hconnected ((he.waits_other (.inr (.inl rfl))).mp hw)
      · rw [if_pos hconnected]
        obtain ⟨L', he⟩ := henqueued false
        exact ⟨L', ⟨⟨h.counted.counted.takes ⟨kind, hname⟩ he,
            fun _ _ hon => absurd hon hconnected⟩,
          h.awaited.enqueued he rfl rfl rfl rfl rfl fun _ => .inr ⟨rfl, .inr (.inr hne)⟩⟩,
          hkeeps he⟩

/-! ### PUBREC messages -/

/-- The awaited record is read, or nothing happens. -/
theorem Good.read (h : Good reader s L) {n : ℕ} (hwait : s.waitentry = some n)
    (hconnected : s.connected = true) (ok : Bool) :
    ∃ L', Good reader ({ s with
        notify := s.notify.markRead dataName n reader
        waitcomp := 0
        waitentry := none
        pendingData := true }.transmitPendingNotificationsData reader ok) L' ∧
      ∀ o, Notify.Waits reader L' dataName o ↔
        Notify.Waits reader L dataName o ∧ s.notify.posted[o]? ≠ some (dataName, n) := by
  obtain ⟨hne, o, hown, hpost, hw, hone⟩ := h.awaited.busy hconnected n hwait
  obtain ⟨L', hcounted, hwaits⟩ := h.counted.counted.markRead not_isKind_dataName n
  obtain ⟨hposted, -⟩ := Notify.markRead_keeps s.notify dataName n reader
  have hread : Good reader { s with
      notify := s.notify.markRead dataName n reader
      waitcomp := 0
      waitentry := none
      pendingData := true } L' := by
    refine ⟨⟨hcounted, fun kind o hon hw => ?_⟩, fun p hp => ?_, h.awaited.off,
      fun _ _ => ⟨rfl, fun p hp hpw => ?_⟩, fun _ m hm => ?_, fun _ _ _ _ => rfl⟩
    · exact h.counted.flagged kind o hon ((hwaits kind.name o).mp hw).1
    · exact hposted.symm ▸ h.awaited.made p hp
    · obtain ⟨hpw, hnot⟩ := (hwaits dataName p.1).mp hpw
      rw [hone p hp hpw] at hnot
      exact hnot hpost
    · exact absurd hm (Option.some_ne_none m).symm
  exact ⟨L', hread.transmitData hconnected ok, hwaits dataName⟩

/-- **A PUBREC** reads the record that was published with its identifier on this connection. -/
theorem Good.incomingPubRec (h : Good reader s L) {id : UInt16} {ok : Bool}
    (hstale : ¬ Stale s (.pubrec id ok)) :
    ∃ L', Good reader (s.incomingPubRec reader id ok) L' ∧
      ∀ o, Notify.Waits reader L dataName o →
        (¬ Notify.Waits reader L' dataName o ↔ (o, id) ∈ s.own) := by
  have hsame : (∀ o, Notify.Waits reader L dataName o → (o, id) ∉ s.own) →
      ∃ L', Good reader s L' ∧ ∀ o, Notify.Waits reader L dataName o →
        (¬ Notify.Waits reader L' dataName o ↔ (o, id) ∈ s.own) := fun hnone =>
    ⟨L, h, fun o hw => iff_of_false (not_not.mpr hw) (hnone o hw)⟩
  rw [Notifications.incomingPubRec]
  by_cases hconnected : s.connected = true
  · cases hwait : s.waitentry with
    | none =>
      exact hsame fun o hw hown => (h.awaited.idle hconnected hwait).2 _ hown hw
    | some n =>
      obtain ⟨hne, o, hown, hpost, hw, hone⟩ := h.awaited.busy hconnected n hwait
      dsimp only
      split
      · next hid =>
        obtain ⟨L', hgood, hwaits⟩ := h.read hwait hconnected ok
        refine ⟨L', hgood, fun o' hw' => ?_⟩
        rw [hwaits, and_iff_right hw', not_ne_iff, hid]
        constructor
        · intro hpost'
          rwa [h.follows.object_eq hpost' hpost]
        · intro hown'
          rwa [(Prod.mk.inj (hone _ hown' hw')).1]
      · next hid =>
        exact hsame fun o' hw' hown' => hid (Prod.mk.inj (hone _ hown' hw')).2
  · have hoff := Bool.eq_false_iff.mpr hconnected
    have hnone : ∀ o, (o, id) ∉ s.own := fun o hown => by
      rw [h.awaited.off hoff] at hown
      exact List.not_mem_nil hown
    cases hwait : s.waitentry with
    | none => exact hsame fun o _ => hnone o
    | some n =>
      dsimp only
      split
      · next hid =>
        exact absurd ⟨hoff, hwait ▸ Option.some_ne_none n, hid⟩ hstale
      · exact hsame fun o _ => hnone o

/-! ### Runs -/

/-- **The step lemma.** -/
theorem Good.step (h : Good reader s L) {e : Event} (he : Admitted reader s e)
    (hwrap : ¬ Wraps reader s e) (hstale : ¬ Stale s e) :
    ∃ L', Good reader (step reader s e) L' ∧ ∀ o, Notify.Waits reader L dataName o →
      (¬ Notify.Waits reader L' dataName o ↔ s.Confirmed e o) := by
  have hnot : (∀ id ok, e ≠ .pubrec id ok) → ∀ o, ¬ s.Confirmed e o := fun hne o ⟨id, ok, heq, _⟩ =>
    hne id ok heq
  -- Whatever is no PUBREC reads no record.
  have hkeeps : ∀ {s'} L', (∀ id ok, e ≠ .pubrec id ok) → Good reader s' L' →
      (∀ o, Notify.Waits reader L dataName o → Notify.Waits reader L' dataName o) →
      ∃ L', Good reader s' L' ∧ ∀ o, Notify.Waits reader L dataName o →
        (¬ Notify.Waits reader L' dataName o ↔ s.Confirmed e o) := fun _ hne hgood hwaits =>
    ⟨_, hgood, fun o hw => iff_of_false (not_not.mpr (hwaits o hw)) (hnot hne o)⟩
  cases e with
  | notifyString n =>
    obtain ⟨L', hgood, hwaits⟩ := h.notifyString he hwrap
    exact hkeeps L' (fun _ _ => Event.noConfusion) hgood hwaits
  | connect created =>
    refine hkeeps L (fun _ _ => Event.noConfusion) ?_ fun _ => id
    exact ⟨⟨h.counted.counted, h.counted.flagged⟩, h.awaited.made, h.awaited.off, h.awaited.idle,
      h.awaited.busy, h.awaited.moving⟩
  | disconnect =>
    refine hkeeps L (fun _ _ => Event.noConfusion) ?_ fun _ => id
    have hoff : ∀ {P : Prop}, (disconnect s).connected = true → P := fun hon =>
      absurd hon Bool.false_ne_true
    exact ⟨⟨h.counted.counted, fun _ _ hon => hoff hon⟩, fun _ hp => absurd hp List.not_mem_nil,
      fun _ => rfl, fun hon => hoff hon, fun hon => hoff hon, fun hon => hoff hon⟩
  | connack =>
    refine hkeeps L (fun _ _ => Event.noConfusion) ?_ fun _ => id
    exact ⟨⟨h.counted.counted, fun _ _ _ _ => rfl⟩, fun _ hp => absurd hp List.not_mem_nil,
      fun _ => rfl, fun _ _ => ⟨rfl, fun _ hp => absurd hp List.not_mem_nil⟩,
      fun _ m hm => absurd hm (Option.some_ne_none m).symm, fun _ _ _ _ => rfl⟩
  | pubrec id ok =>
    obtain ⟨L', hgood, hwaits⟩ := h.incomingPubRec hstale
    refine ⟨L', hgood, fun o hw => (hwaits o hw).trans ⟨fun hown => ⟨id, ok, rfl, hown⟩, ?_⟩⟩
    rintro ⟨id', ok', heq, hown⟩
    rwa [(Event.pubrec.inj heq).1]
  | ticker1 t =>
    obtain ⟨L', hgood, hdata⟩ := h.ticker1 t
    exact hkeeps L' (fun _ _ => Event.noConfusion) hgood fun o hw => (hdata o).mpr hw
  | publish =>
    exact hkeeps L (fun _ _ => Event.noConfusion) (h.numbered _) fun _ => id
  | other e =>
    obtain ⟨L', hfollows, hposted, hwaits⟩ := h.follows.other he.1 he.2
    have hcounted := h.counted.counted.of_waits hfollows
      (Nat.le_of_eq (congrArg List.length hposted.symm)) fun type o _ => hwaits type o
    refine hkeeps L' (fun _ _ => Event.noConfusion) ⟨⟨hcounted, fun kind o hon hw => ?_⟩, ?_⟩
      fun o hw => (hwaits _ o).mpr hw
    · exact h.counted.flagged kind o hon ((hwaits _ o).mp hw)
    · exact h.awaited.of_eq rfl rfl rfl rfl (hposted.symm ▸ List.prefix_rfl)
        (fun o _ => hwaits dataName o) fun _ hmoving hidle o hw =>
          hmoving hidle o ((hwaits _ o).mp hw)

theorem good_new : Good reader (new reader) [] := by
  obtain ⟨types, hnew⟩ := Notify.new_eq notifyTypes
  have hlock : (OvmsNotify.new notifyTypes).clearing = none := by rw [hnew]
  have hempty : (OvmsNotify.new notifyTypes).posted = [] := by rw [hnew]
  have hfollows : Notify.Follows (ovmsv3 reader) (new reader).notify [] :=
    Notify.follows_registerReaderAs (Notify.inv_new notifyTypes) hlock hempty
      reader.isLt (reader + 1) (Nat.lt_succ_self _)
  have hoff : ∀ {P : Prop}, (new reader).connected = true → P := fun hon =>
    absurd hon Bool.false_ne_true
  exact ⟨⟨Notify.counted_nil hfollows, fun _ _ hon => hoff hon⟩,
    fun _ hp => absurd hp List.not_mem_nil, fun _ => rfl, fun hon => hoff hon, fun hon => hoff hon,
    fun hon => hoff hon⟩

theorem Good.confirms (h : Good reader s L) {e : Event} (he : Admitted reader s e)
    (hwrap : ¬ Wraps reader s e) (hstale : ¬ Stale s e) : Confirms reader s e := by
  obtain ⟨L', hgood, hwaits⟩ := h.step he hwrap hstale
  intro o hu
  rw [hgood.unread_iff]
  exact hwaits o (h.unread_iff.mp hu)

theorem good_run (es : List Event) (h : Along (step reader) (Admitted reader) (new reader) es)
    (hwrap : Along (step reader) (fun s e => ¬ Wraps reader s e) (new reader) es)
    (hstale : Along (step reader) (fun s e => ¬ Stale s e) (new reader) es) :
    ∀ pre, pre <+: es → ∃ L, Good reader (pre.foldl (step reader) (new reader)) L := by
  refine Along.invariant_along (I := fun s => ∃ L, Good reader s L) (fun s e hs he => ?_)
    ((h.and hwrap).and hstale) ⟨[], good_new⟩
  obtain ⟨L, hs⟩ := hs
  obtain ⟨L', hs', -⟩ := hs.step he.1.1 he.1.2 he.2
  exact ⟨L', hs'⟩

/-- **Notifications are neither lost nor confirmed early**, along the runs in which no type numbers
an entry after its counter has wrapped, and no PUBREC is taken for one of the connection before. -/
theorem delivered_of_not_stale (reader : Fin notifyMaxReaders) (es : List Event)
    (h : Along (step reader) (Admitted reader) (new reader) es)
    (hwrap : Along (step reader) (fun s e => ¬ Wraps reader s e) (new reader) es)
    (hstale : Along (step reader) (fun s e => ¬ Stale s e) (new reader) es) :
    (∀ pre, pre <+: es → Delivered reader (pre.foldl (step reader) (new reader))) ∧
      Along (step reader) (Confirms reader) (new reader) es := by
  refine ⟨fun pre hpre => ?_, along_iff.mpr fun pre e post hes => ?_⟩
  · obtain ⟨L, hs⟩ := good_run es h hwrap hstale pre hpre
    exact hs.delivered
  · obtain ⟨L, hs⟩ := good_run es h hwrap hstale pre ⟨e :: post, hes.symm⟩
    exact hs.confirms (along_iff.mp h pre e post hes) (along_iff.mp hwrap pre e post hes)
      (along_iff.mp hstale pre e post hes)

/-- A data record. -/
def dataRecord : Notification :=
  ⟨dataName, [], [], fun _ => [], fun _ => false, fun _ => false, fun _ => false, true⟩

/-- A data record is published. -/
def publishRecord : List Event :=
  [.connect true, .connack, .notifyString dataRecord, .ticker1 ⟨true, true, true, true⟩]

/-- It is acknowledged. -/
theorem delivered_acknowledged :
    (∀ pre, pre <+: publishRecord ++ [.pubrec 1 true] →
        Delivered 1 (pre.foldl (step 1) (new 1))) ∧
      Along (step 1) (Confirms 1) (new 1) (publishRecord ++ [.pubrec 1 true]) :=
  delivered_of_not_stale 1 (publishRecord ++ [.pubrec 1 true]) (by decide +kernel)
    (by decide +kernel) (by decide +kernel)

/-! ### A PUBREC before the CONNACK -/

theorem transmitData_notify (s : Notifications) (ok : Bool) :
    (s.transmitPendingNotificationsData reader ok).notify = s.notify := by
  rw [transmitPendingNotificationsData]
  split
  · rfl
  · split
    · rfl
    · obtain ⟨txid, msgid, htransmit⟩ := transmitNotification_eq ok s
      rw [htransmit]
      dsimp only
      split <;> rfl

/-- The record that was awaited on the connection before is read. -/
theorem Good.not_confirms (h : Good reader s L) {id : UInt16} {ok : Bool}
    (hstale : Stale s (.pubrec id ok)) {e : OvmsNotifyEntry}
    (hfirst : s.notify.firstUnread reader dataName 0 = some e)
    (hentry : s.waitentry = some e.id) : ¬ Confirms reader s (.pubrec id ok) := by
  intro hconfirms
  obtain ⟨hoff, -, hid⟩ := hstale
  obtain ⟨hw, hpost⟩ := h.follows.firstUnread_some hfirst
  have hunconfirmed : ¬ s.Confirmed (.pubrec id ok) e.object := by
    rintro ⟨id', ok', heq, hown⟩
    rw [h.awaited.off hoff] at hown
    exact List.not_mem_nil hown
  have hunread := not_not.mp
    (mt (hconfirms e.object (h.unread_iff.mpr hw)).mp hunconfirmed)
  have hstep : (Notifications.step reader s (.pubrec id ok)).notify =
      s.notify.markRead dataName e.id reader := by
    rw [Notifications.step, Notifications.incomingPubRec, hentry]
    dsimp only
    rw [if_pos hid, transmitData_notify]
  obtain ⟨L', hfollows, hwaits⟩ := h.follows.markRead dataName e.id
  rw [Unread, hstep] at hunread
  exact ((hwaits dataName e.object).mp (hfollows.unreadBy_iff.mp hunread)).2 hpost

/-- The connection is lost while the record awaits its PUBREC, and another one is made. -/
def reconnected : List Event := publishRecord ++ [.disconnect, .connect true]

/-- On the next connection the server sends a PUBREC with the same identifier before its CONNACK. -/
theorem record_confirmed_early :
    ¬ ∀ (reader : Fin notifyMaxReaders) (es : List Event),
      Along (step reader) (Admitted reader) (new reader) es →
        (∀ pre, pre <+: es → Delivered reader (pre.foldl (step reader) (new reader))) ∧
          Along (step reader) (Confirms reader) (new reader) es := by
  intro hall
  have hconfirms := (hall 1 (reconnected ++ [.pubrec 1 true]) (by decide +kernel)).2
  obtain ⟨-, hconfirms, -⟩ := along_append.mp hconfirms
  obtain ⟨L, hgood⟩ : ∃ L, Good 1 (reconnected.foldl (step 1) (new 1)) L :=
    good_run reconnected (by decide +kernel) (by decide +kernel) (by decide +kernel) _
      List.prefix_rfl
  obtain ⟨e, he⟩ := Option.isSome_iff_exists.mp (show (OvmsNotify.firstUnread
    (reconnected.foldl (step 1) (new 1)).notify 1 dataName 0).isSome = true by decide +kernel)
  have hentry : (reconnected.foldl (step 1) (new 1)).waitentry = (OvmsNotify.firstUnread
    (reconnected.foldl (step 1) (new 1)).notify 1 dataName 0).map OvmsNotifyEntry.id := by
    decide +kernel
  rw [he] at hentry
  exact hgood.not_confirms (by decide +kernel) he hentry hconfirms

end Notifications

end Ovms.ServerV3
