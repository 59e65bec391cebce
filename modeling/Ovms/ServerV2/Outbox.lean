import Mathlib.Logic.Function.Basic
import Ovms.Notify.Reader
import Ovms.ServerV2.Command

/-!
# Notifications for a Server V2

How `OvmsServerV2` (`components/ovms_server_v2/src/ovms_server_v2.cpp`) takes notifications and
sends them: the callback `IncomingNotification`, `TransmitNotifyInfo`, `TransmitNotifyError`,
`TransmitNotifyAlert` and `TransmitNotifyData`, called by `Ticker1`, and `HandleNotifyDataAck`.
The queues are those of `Ovms.Notify`, where the server is one of the readers; the others do what
they will.

A call is a step. Whether `Transmit` succeeds is an argument for each time it is called, and so
are the time and the length of a data record; behind the end of a list of them it fails. Filters
answer alike when the readers of an entry are determined and when it is dispatched. What is sent
is not modelled, but the entries for which `Transmit` succeeded are noted, and those that were
accepted.
-/

open Std

namespace Ovms.ServerV2

open Notify (OvmsNotify OvmsNotifyEntry OvmsNotifyCallbackEntry Posted notifyMaxReaders)

/-! ### The members -/

/-- The notifications that are sent as they come. -/
inductive Kind
  | info
  | error
  | alert
  deriving DecidableEq

/-- The name of their type. -/
def Kind.name : Kind → Text
  | .info => ascii "info"
  | .error => ascii "error"
  | .alert => ascii "alert"

/-- The type of data records. -/
def dataName : Text := ascii "data"

/-- The types that `OvmsNotify` registers. -/
def notifyTypes : List Text :=
  [Kind.info.name, Kind.error.name, Kind.alert.name, dataName, ascii "stream"]

/-- The kind of a type, if it has one. -/
def kindOf (type : Text) : Option Kind :=
  if type = Kind.info.name then some .info
  else if type = Kind.error.name then some .error
  else if type = Kind.alert.name then some .alert
  else none

/-- `OvmsServerV2`, of what notifications need: `ms_s_v2_connected`, `m_pending_notify_info` and
the two others of its kind, `m_pending_notify_data`, its cursor and its countdown. Beside them
stand the entries of a kind that were accepted, and those for which `Transmit` succeeded. -/
structure Outbox where
  notify : OvmsNotify
  v2Connected : Bool
  pending : Kind → Bool
  pendingData : Bool
  dataLast : ℕ
  dataRetransmit : ℕ
  accepted : List ℕ
  sent : List ℕ

namespace Outbox

variable (reader : Fin notifyMaxReaders)

/-- The reader that `OvmsServerV2` registers. -/
def ovmsv2 : OvmsNotifyCallbackEntry := ⟨ascii "ovmsv2", true, reader, 65535, true⟩

/-- The new server, which is registered. -/
def new : Outbox where
  notify := { (OvmsNotify.new notifyTypes).registerReaderAs (ovmsv2 reader) with
    nextreader := reader + 1 }
  v2Connected := false
  pending _ := false
  pendingData := false
  dataLast := 0
  dataRetransmit := 0
  accepted := []
  sent := []

/-- One of the flags is set, or cleared. -/
def setPending (s : Outbox) (kind : Kind) (b : Bool) : Outbox :=
  { s with pending := Function.update s.pending kind b }

theorem pending_setPending_self (s : Outbox) (kind : Kind) (b : Bool) :
    (s.setPending kind b).pending kind = b := by
  simp [setPending]

theorem pending_setPending_of_ne (s : Outbox) {kind k : Kind} (hk : k ≠ kind) (b : Bool) :
    (s.setPending kind b).pending k = s.pending k := by
  simp [setPending, hk]

/-! ### Notifications -/

/-- A notification, what the configured filters are, what the filters and the callbacks of other
readers answer, and whether `Transmit` succeeds. -/
structure Notification where
  type : Text
  subtype : Text
  value : Text
  config : Text → Text
  raised : ℕ → Bool
  dispatched : ℕ → Bool
  processed : ℕ → Bool
  ok : Bool

/-- `NotificationFilter`. -/
def notificationFilter (type subtype : Text) : Bool :=
  decide (subtype ≠ ascii "server.v2.auth.failure") &&
    ((kindOf type).isSome || decide (type = dataName))

/-- What readers answer when the notification is raised. -/
def Notification.raisedEnv (n : Notification) : Notify.Environment :=
  ⟨n.config, Function.update n.raised reader (notificationFilter n.type n.subtype), fun _ => false⟩

/-- What they answer when it is dispatched. -/
def Notification.dispatchedEnv (n : Notification) (processed : Bool) : Notify.Environment :=
  ⟨n.config, Function.update n.dispatched reader (notificationFilter n.type n.subtype),
    Function.update n.processed reader processed⟩

/-- `IncomingNotification`, with its answer. -/
def incomingNotification (s : Outbox) (type : Text) (object : ℕ) (ok : Bool) : Outbox × Bool :=
  match kindOf type with
  | some kind =>
    if !s.v2Connected then (s.setPending kind true, false)
    else if ok then ({ s with sent := s.sent ++ [object] }, true)
    else (s.setPending kind true, false)
  | none => if type = dataName then ({ s with pendingData := true }, false) else (s, true)

/-- The server accepts a notification, and so its callback is called. -/
def accepts (s : Outbox) (n : Notification) : Bool :=
  (s.notify.getType n.type).isSome &&
    s.notify.readers[(reader : ℕ)]?.any fun mc =>
      mc.accepts (n.raisedEnv reader) n.subtype n.value.length

/-- `NotifyString`. -/
def notifyString (s : Outbox) (n : Notification) : Outbox :=
  let called := s.accepts reader n
  let r := if called then s.incomingNotification n.type s.notify.posted.length n.ok else (s, false)
  { r.1 with
    notify := s.notify.notifyString n.type n.subtype n.value (n.raisedEnv reader)
      (n.dispatchedEnv reader r.2)
    accepted := if called && (kindOf n.type).isSome then s.accepted ++ [s.notify.posted.length]
      else s.accepted }

/-! ### Sending -/

/-- `GetType` and `FirstUnreadEntry`. -/
def firstUnread (s : Outbox) (type : Text) (floor : ℕ) : Option OvmsNotifyEntry :=
  (s.notify.getType type).bind fun t => t.firstUnreadEntry reader floor

/-- `MarkRead`. -/
def markRead (s : Outbox) (type : Text) (id : ℕ) : Outbox :=
  { s with notify := s.notify.markRead type id reader }

/-- The loop of `TransmitNotifyInfo` and its like. -/
def sendLoop (kind : Kind) : Outbox → List Bool → Outbox
  | s, [] =>
    match s.firstUnread reader kind.name 0 with
    | none => s
    | some _ => s.setPending kind true
  | s, ok :: oks =>
    match s.firstUnread reader kind.name 0 with
    | none => s
    | some e =>
      if ok then
        sendLoop kind ({ s with sent := s.sent ++ [e.object] }.markRead reader kind.name e.id) oks
      else s.setPending kind true

/-- `TransmitNotifyInfo`, `TransmitNotifyError` and `TransmitNotifyAlert`. -/
def transmitNotify (kind : Kind) (s : Outbox) (oks : List Bool) : Outbox :=
  sendLoop reader kind (s.setPending kind false) oks

/-- `TransmitNotifyInfo`. -/
def transmitNotifyInfo (s : Outbox) (oks : List Bool) : Outbox := transmitNotify reader .info s oks

/-- `TransmitNotifyError`. -/
def transmitNotifyError (s : Outbox) (oks : List Bool) : Outbox :=
  transmitNotify reader .error s oks

/-- `TransmitNotifyAlert`. -/
def transmitNotifyAlert (s : Outbox) (oks : List Bool) : Outbox :=
  transmitNotify reader .alert s oks

/-- A data record is sent: whether `Transmit` succeeds, the milliseconds since the start of the
call, and the length of the message. -/
structure Attempt where
  ok : Bool
  elapsed : ℕ
  size : ℕ

/-- The limits of a call, behind a number of records. -/
def Attempt.limit (a : Attempt) (cnt size : ℕ) : Bool :=
  decide (300 ≤ a.elapsed) || decide (cnt = 5) || decide (4000 ≤ size)

/-- The end of the queue is reached. -/
def dataDone (s : Outbox) : Outbox :=
  { s with
    pendingData := false
    dataRetransmit := if s.dataLast ≠ 0 then 10 else s.dataRetransmit }

/-- `Transmit` has failed. -/
def dataFailed (s : Outbox) : Outbox := { s with pendingData := true, dataLast := 0 }

/-- The loop of `TransmitNotifyData`. -/
def dataLoop : Outbox → (cnt size : ℕ) → List Attempt → Outbox
  | s, _, _, [] =>
    match s.firstUnread reader dataName s.dataLast with
    | none => s.dataDone
    | some _ => s.dataFailed
  | s, cnt, size, a :: as =>
    match s.firstUnread reader dataName s.dataLast with
    | none => s.dataDone
    | some e =>
      if a.ok then
        let s := { s with dataLast := e.id }
        if a.limit (cnt + 1) (size + a.size) then s else dataLoop s (cnt + 1) (size + a.size) as
      else s.dataFailed

/-- `TransmitNotifyData`. Without the type it does nothing. -/
def transmitNotifyData (s : Outbox) (as : List Attempt) : Outbox :=
  if (s.notify.getType dataName).isSome then dataLoop reader s 0 0 as else s

/-- `HandleNotifyDataAck`. -/
def handleNotifyDataAck (s : Outbox) (ack : ℤ) : Outbox :=
  s.markRead reader dataName (ack % 2 ^ 32).toNat

/-- What happens at the calls of `Transmit` within a tick. -/
structure Tick where
  alerts : List Bool
  errors : List Bool
  infos : List Bool
  data : List Attempt

/-- `Ticker1`: data records. -/
def tickData (s : Outbox) (as : List Attempt) : Outbox :=
  if s.pendingData then s.transmitNotifyData reader as
  else if 0 < s.dataRetransmit then
    let s := { s with dataRetransmit := s.dataRetransmit - 1 }
    if s.dataRetransmit = 0 then { s with dataLast := 0 }.transmitNotifyData reader as else s
  else s

/-- `Ticker1`: one of info, error and alert. -/
def tickKind (kind : Kind) (s : Outbox) (oks : List Bool) : Outbox :=
  if s.pending kind then transmitNotify reader kind s oks else s

/-- `Ticker1`: info, error and alert. -/
def tickKinds (s : Outbox) (t : Tick) : Outbox :=
  let s := if s.pending .alert then s.transmitNotifyAlert reader t.alerts else s
  let s := if s.pending .error then s.transmitNotifyError reader t.errors else s
  if s.pending .info then s.transmitNotifyInfo reader t.infos else s

theorem tickKinds_eq (s : Outbox) (t : Tick) : s.tickKinds reader t =
    tickKind reader .info (tickKind reader .error (tickKind reader .alert s t.alerts) t.errors)
      t.infos := rfl

/-- `Ticker1`. -/
def ticker1 (s : Outbox) (t : Tick) : Outbox :=
  if s.v2Connected then (s.tickKinds reader t).tickData reader t.data else s

/-- The login. -/
def login (s : Outbox) : Outbox :=
  { s with
    pending := fun _ => true
    pendingData := true
    dataLast := 0
    dataRetransmit := 0
    v2Connected := true }

/-! ### What can happen -/

/-- What can happen: the connection is given up by `Disconnect` or `Reconnect`, and other readers
do something. -/
inductive Event
  | notifyString (n : Notification)
  | login
  | disconnect
  | ticker1 (t : Tick)
  | dataAck (ack : ℤ)
  | other (e : Notify.Event)

/-- A step. -/
def step (s : Outbox) : Event → Outbox
  | .notifyString n => s.notifyString reader n
  | .login => s.login
  | .disconnect => { s with v2Connected := false }
  | .ticker1 t => s.ticker1 reader t
  | .dataAck ack => s.handleNotifyDataAck reader ack
  | .other e => { s with notify := Notify.step s.notify e }

/-- What other readers do: they do not use the number of the server. -/
def Foreign : Notify.Event → Prop
  | .registerReader _ | .clearNext => True
  | .registerReaderAs mc => mc.reader ≠ reader
  | .clearReader k => k ≠ reader
  | .markRead _ _ k => k ≠ reader
  | .notifyString .. => False

/-- The lock of the readers is free where it is taken, and others are others. -/
def Admitted (s : Outbox) : Event → Prop
  | .notifyString _ => s.notify.clearing = none
  | .other e => Notify.Admitted s.notify e ∧ Foreign reader e
  | _ => True

/-- A type numbers an entry although its counter has wrapped. -/
def Wraps (s : Outbox) : Event → Prop
  | .notifyString n =>
    Notify.Wraps s.notify
      (.notifyString n.type n.subtype n.value (n.raisedEnv reader) (n.raisedEnv reader))
  | _ => False

instance : (e : Notify.Event) → Decidable (Foreign reader e)
  | .registerReader _ | .clearNext => isTrue trivial
  | .registerReaderAs _ | .clearReader _ | .markRead _ _ _ => inferInstanceAs (Decidable (_ ≠ _))
  | .notifyString .. => isFalse id

instance (s : Outbox) : (e : Event) → Decidable (Admitted reader s e)
  | .notifyString _ => inferInstanceAs (Decidable (s.notify.clearing = none))
  | .other _ => inferInstanceAs (Decidable (_ ∧ _))
  | .login | .disconnect | .ticker1 _ | .dataAck _ => isTrue trivial

instance (s : Outbox) : (e : Event) → Decidable (Wraps reader s e)
  | .notifyString n => inferInstanceAs (Decidable (Notify.Wraps s.notify
      (.notifyString n.type n.subtype n.value (n.raisedEnv reader) (n.raisedEnv reader))))
  | .login | .disconnect | .ticker1 _ | .dataAck _ | .other _ => isFalse id

/-! ### The entries that wait for the server -/

/-- An entry of a type waits for the server. -/
def Waiting (L : List Posted) (type : Text) (o : ℕ) : Prop :=
  ∃ p, L[o]? = some p ∧ p.type = type ∧ (reader : ℕ) ∈ p.waiting

/-- An entry of a type is in its queue, and the server has not read it. -/
def Unread (s : Outbox) (type : Text) (o : ℕ) : Prop :=
  ∃ id e, Notify.Queued s.notify type id e ∧ e.object = o ∧ e.isRead reader = false

/-- The queues agree with a ledger, numbers are above the cursor of a reader that has read
nothing, and the server is registered and stays so. -/
structure Tracked (s : OvmsNotify) (L : List Posted) : Prop where
  inv : Notify.Inv s L
  positive : ∀ (o : ℕ) (type : Text) (id : ℕ), s.posted[o]? = some (type, id) → 0 < id
  registered : s.readers[(reader : ℕ)]? = some (ovmsv2 reader)
  nextreader : reader < s.nextreader
  clearing : ∀ k types, s.clearing = some (k, types) → k ≠ (reader : ℕ)

/-- A notification is queued: a new entry waits for the server that accepts it and has not
processed it. -/
structure Takes (s : Outbox) (n : Notification) (processed : Bool) (L : List Posted)
    (s' : OvmsNotify) (L' : List Posted) : Prop where
  tracked : Tracked reader s' L'
  posted : s.notify.posted <+: s'.posted
  made : s.accepts reader n = true → ∃ id, s'.posted = s.notify.posted ++ [(n.type, id)]
  waiting : ∀ type o, Waiting reader L' type o ↔ Waiting reader L type o ∨
    s.accepts reader n = true ∧ processed = false ∧ type = n.type ∧ o = s.notify.posted.length

variable {reader} {s : OvmsNotify} {L : List Posted} {type : Text}

theorem tracked_iff : Tracked reader s L ↔ Notify.Follows (ovmsv2 reader) s L :=
  ⟨fun h => ⟨h.inv, h.positive, h.registered, h.nextreader, h.clearing⟩,
    fun h => ⟨h.inv, h.positive, h.registered, h.nextreader, h.clearing⟩⟩

theorem Tracked.follows (h : Tracked reader s L) : Notify.Follows (ovmsv2 reader) s L :=
  tracked_iff.mp h

theorem Tracked.unread_iff {s : Outbox} (h : Tracked reader s.notify L) {o : ℕ} :
    s.Unread reader type o ↔ Waiting reader L type o := h.follows.unreadBy_iff

theorem Tracked.queued (h : Tracked reader s L) {o : ℕ} (hw : Waiting reader L type o) :
    ∃ id e, Notify.Queued s type id e ∧ e.object = o ∧ s.posted[o]? = some (type, id) :=
  h.follows.queued hw

theorem Tracked.firstUnread_some {s : Outbox} (h : Tracked reader s.notify L) {floor : ℕ}
    {e : OvmsNotifyEntry} (hfirst : s.firstUnread reader type floor = some e) :
    Waiting reader L type e.object ∧ s.notify.posted[e.object]? = some (type, e.id) :=
  h.follows.firstUnread_some hfirst

theorem Tracked.not_waiting {s : Outbox} (h : Tracked reader s.notify L)
    (hnone : s.firstUnread reader type 0 = none) (o : ℕ) : ¬ Waiting reader L type o :=
  h.follows.not_waits hnone o

/-- **`MarkRead`**: the entry with the number does not wait any more. -/
theorem Tracked.markRead (h : Tracked reader s L) (type : Text) (id : ℕ) :
    ∃ L', Tracked reader (s.markRead type id reader) L' ∧ ∀ type' o,
      Waiting reader L' type' o ↔
        Waiting reader L type' o ∧ s.posted[o]? ≠ some (type, id) := by
  obtain ⟨L', hfollows, hwaits⟩ := h.follows.markRead type id
  exact ⟨L', tracked_iff.mpr hfollows, hwaits⟩

/-- **Other readers** leave the entries that wait for the server alone. -/
theorem Tracked.other (h : Tracked reader s L) {e : Notify.Event} (he : Notify.Admitted s e)
    (hforeign : Foreign reader e) :
    ∃ L', Tracked reader (Notify.step s e) L' ∧ (Notify.step s e).posted = s.posted ∧
      ∀ type o, Waiting reader L' type o ↔ Waiting reader L type o := by
  have hother : Notify.OtherReader reader e := by
    cases e <;> exact hforeign
  obtain ⟨L', hfollows, hposted, hwaits⟩ := h.follows.other he hother
  exact ⟨L', tracked_iff.mpr hfollows, hposted, hwaits⟩

/-- The server answers alike when a notification is raised and when it is dispatched. -/
theorem accepts_dispatchedEnv (n : Notification) (processed : Bool) (size : ℕ) :
    (ovmsv2 reader).accepts (n.dispatchedEnv reader processed) n.subtype size =
      (ovmsv2 reader).accepts (n.raisedEnv reader) n.subtype size := by
  have hraised : (n.raisedEnv reader).filter reader = notificationFilter n.type n.subtype :=
    Function.update_self _ _ _
  have hdispatched : (n.dispatchedEnv reader processed).filter reader =
      notificationFilter n.type n.subtype := Function.update_self _ _ _
  unfold OvmsNotifyCallbackEntry.accepts
  rw [show (ovmsv2 reader).reader = reader from rfl, hraised, hdispatched]
  rfl

/-- An entry waits for the server that accepts it and has not processed it. -/
theorem mem_accepting_sdiff_iff {readers : Notify.CallbackMap} (n : Notification)
    (processed : Bool) (size : ℕ) (h : readers[(reader : ℕ)]? = some (ovmsv2 reader)) :
    (reader : ℕ) ∈ Notify.Accepting readers (n.raisedEnv reader) n.subtype size \
        Notify.Done readers (n.dispatchedEnv reader processed) n.subtype size ↔
      (ovmsv2 reader).accepts (n.raisedEnv reader) n.subtype size = true ∧ processed = false := by
  have hprocessed : (n.dispatchedEnv reader processed).processed reader = processed :=
    Function.update_self _ _ _
  have hiff := Notify.mem_accepting_sdiff_iff h
    (accepts_dispatchedEnv n processed size)
  rwa [show (ovmsv2 reader).reader = reader from rfl, hprocessed] at hiff

/-- **`NotifyString`** does that. -/
theorem Tracked.notifyString {s : Outbox} (h : Tracked reader s.notify L) {n : Notification}
    (hlock : s.notify.clearing = none) (hwrap : ¬ Wraps reader s (.notifyString n))
    (processed : Bool) {s' : OvmsNotify} (hs' : s.notify.notifyString n.type n.subtype n.value
      (n.raisedEnv reader) (n.dispatchedEnv reader processed) = s') :
    ∃ L', Takes reader s n processed L s' L' := by
  have haccepts : s.accepts reader n = ((s.notify.getType n.type).isSome &&
      (ovmsv2 reader).accepts (n.raisedEnv reader) n.subtype n.value.length) := by
    rw [accepts, h.registered, Option.any_some]
  have hprocessed : (n.dispatchedEnv reader processed).processed reader = processed :=
    Function.update_self _ _ _
  obtain ⟨L', hfollows, hposted, hmade, hwaits⟩ := h.follows.notifyString hlock
    (n.raisedEnv reader) (n.dispatchedEnv reader processed) hwrap
    (accepts_dispatchedEnv n processed n.value.length)
  rw [hs'] at hfollows hposted hmade
  rw [← haccepts] at hmade hwaits
  rw [show (ovmsv2 reader).reader = reader from rfl, hprocessed] at hwaits
  exact ⟨L', tracked_iff.mpr hfollows, hposted, hmade, hwaits⟩

/-- **The first unread entry, marked as read**, does not wait any more. -/
theorem Tracked.deliver {s : Outbox} (h : Tracked reader s.notify L) {floor : ℕ}
    {e : OvmsNotifyEntry} (hfirst : s.firstUnread reader type floor = some e) :
    ∃ L', Tracked reader (s.notify.markRead type e.id reader) L' ∧ ∀ type' o,
      Waiting reader L' type' o ↔ Waiting reader L type' o ∧ o ≠ e.object := by
  obtain ⟨L', hfollows, hwaits⟩ := h.follows.deliver hfirst
  exact ⟨L', tracked_iff.mpr hfollows, hwaits⟩

theorem tracked_registerReaderAs {n : OvmsNotify} (hinv : Notify.Inv n [])
    (hlock : n.clearing = none) (hempty : n.posted = []) (nextreader : ℕ)
    (hnext : reader.val < nextreader) :
    Tracked reader { n.registerReaderAs (ovmsv2 reader) with nextreader := nextreader } [] :=
  tracked_iff.mpr
    (Notify.follows_registerReaderAs hinv hlock hempty reader.isLt nextreader hnext)

/-- **At the start** no entry waits. -/
theorem tracked_new : Tracked reader (new reader).notify [] := by
  obtain ⟨types, hnew⟩ := Notify.new_eq notifyTypes
  have hlock : (OvmsNotify.new notifyTypes).clearing = none := by rw [hnew]
  have hempty : (OvmsNotify.new notifyTypes).posted = [] := by rw [hnew]
  exact tracked_registerReaderAs (Notify.inv_new notifyTypes) hlock hempty (reader + 1)
    (Nat.lt_succ_self _)

/-! ### The loops -/

/-- **The rule of the sending loop**: what holds at the start and is kept when an entry is sent
holds when there is no entry left, or when `Transmit` fails. -/
theorem sendLoop_rule {kind : Kind} {P Q : Outbox → Prop}
    (hsend : ∀ s e, P s → s.firstUnread reader kind.name 0 = some e →
      P ({ s with sent := s.sent ++ [e.object] }.markRead reader kind.name e.id))
    (hdone : ∀ s, P s → s.firstUnread reader kind.name 0 = none → Q s)
    (hfail : ∀ s, P s → Q (s.setPending kind true)) (oks : List Bool) {s : Outbox} (hs : P s) :
    Q (sendLoop reader kind s oks) := by
  induction oks generalizing s with
  | nil =>
    rw [sendLoop]
    split
    · next hnone => exact hdone s hs hnone
    · exact hfail s hs
  | cons ok oks ih =>
    rw [sendLoop]
    split
    · next hnone => exact hdone s hs hnone
    · next e hfirst =>
      split
      · exact ih (hsend s e hs hfirst)
      · exact hfail s hs

/-- The loop for data records changes the flag, the cursor and the countdown only. -/
theorem dataLoop_eq (as : List Attempt) (s : Outbox) (cnt size : ℕ) :
    ∃ pendingData dataLast dataRetransmit, dataLoop reader s cnt size as =
      { s with
        pendingData := pendingData
        dataLast := dataLast
        dataRetransmit := dataRetransmit } := by
  induction as generalizing s cnt size with
  | nil =>
    rw [dataLoop]
    split <;> exact ⟨_, _, _, rfl⟩
  | cons a as ih =>
    rw [dataLoop]
    split
    · exact ⟨_, _, _, rfl⟩
    · split
      · dsimp only
        split
        · exact ⟨_, _, _, rfl⟩
        · exact ih _ _ _
      · exact ⟨_, _, _, rfl⟩

/-- So does a tick, behind the other notifications. -/
theorem tickData_eq (reader : Fin notifyMaxReaders) (s : Outbox) (as : List Attempt) :
    ∃ pendingData dataLast dataRetransmit, s.tickData reader as =
      { s with
        pendingData := pendingData
        dataLast := dataLast
        dataRetransmit := dataRetransmit } := by
  have htransmit : ∀ s : Outbox, ∃ pendingData dataLast dataRetransmit,
      s.transmitNotifyData reader as =
        { s with
          pendingData := pendingData
          dataLast := dataLast
          dataRetransmit := dataRetransmit } := by
    intro s
    rw [transmitNotifyData]
    split
    · exact dataLoop_eq as s 0 0
    · exact ⟨_, _, _, rfl⟩
  rw [tickData]
  split
  · exact htransmit s
  · split
    · dsimp only
      split
      · exact htransmit _
      · exact ⟨_, _, _, rfl⟩
    · exact ⟨_, _, _, rfl⟩

end Outbox

end Ovms.ServerV2
