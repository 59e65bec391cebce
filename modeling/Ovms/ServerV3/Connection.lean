import Mathlib.Logic.Function.Basic
import Mathlib.Data.Int.Notation
import Ovms.Lib.Machine

/-!
# The Connection to a Server V3

How the client of an MQTT server (`components/ovms_server_v3/src/ovms_server_v3.cpp`) connects,
disconnects and tries again. One callback serves all connections that were ever made. A connection
that is flagged to be closed is closed later, and its close event comes then.

The callback takes a close event for one of the current connection, whatever connection it is of.
So the close event of an old connection ends the one that was made since.

## Main results

* `Linked.step`: only the current connection has events other than its close event, and the metric
  is true only if it was accepted.
* `followsCurrent_along`: the state follows the current connection exactly along the runs in which
  no other connection is closed while there is one.
-/

open Lib

namespace Ovms.ServerV3

/-! ### Configuration -/

/-- A text: its bytes. -/
abbrev Text := List UInt8

/-- The bytes of a text. -/
def ascii (s : String) : Text := s.toList.map fun c => .ofNat c.toNat

/-- What a connection is made with. -/
structure Settings where
  server : Text
  port : Text
  tls : Bool
  user : Text
  clientid : Text
  topicPrefix : Text
  password : Text
  deriving DecidableEq, Repr

/-- The two agree on the instances of `server.v3`. -/
def Settings.SameServer (a b : Settings) : Prop :=
  a.server = b.server ∧ a.port = b.port ∧ a.tls = b.tls ∧ a.user = b.user ∧
    a.clientid = b.clientid ∧ a.topicPrefix = b.topicPrefix

instance (a b : Settings) : Decidable (a.SameServer b) := inferInstanceAs (Decidable (_ ∧ _))

/-- The configuration: what is set, empty where there is nothing, and the timings. -/
structure Config where
  vehicleid : Text
  settings : Settings
  stableWait : Option ℤ
  jitterMax : Option ℤ
  deriving DecidableEq, Repr

/-- What `Connect` makes of the configuration: the vehicle's identifier is the client's, topics
start with the user and the vehicle, and the port depends on whether TLS is used. -/
def Config.effective (c : Config) : Settings :=
  { c.settings with
    clientid := if c.settings.clientid = [] then c.vehicleid else c.settings.clientid
    topicPrefix :=
      if c.settings.topicPrefix = [] then
        ascii "ovms/" ++ c.settings.user ++ ascii "/" ++
          if c.vehicleid = [] then [] else c.vehicleid ++ ascii "/"
      else c.settings.topicPrefix
    port :=
      if c.settings.port = [] then
        if c.settings.tls then ascii "8883" else ascii "1883"
      else c.settings.port }

/-- The parameters that matter. -/
inductive Param where
  | serverV3
  | password
  deriving DecidableEq, Repr

/-- A change of one parameter, or of any where the configuration is mounted. -/
def Config.Changes (p : Option Param) (c c' : Config) : Prop :=
  c'.vehicleid = c.vehicleid ∧
    match p with
    | some .serverV3 => c'.settings.password = c.settings.password
    | some .password => c'.settings.SameServer c.settings ∧
        c'.stableWait = c.stableWait ∧ c'.jitterMax = c.jitterMax
    | none => True

instance (p : Option Param) (c c' : Config) : Decidable (c.Changes p c') :=
  match p with
  | some .serverV3 => inferInstanceAs (Decidable (_ ∧ _))
  | some .password => inferInstanceAs (Decidable (_ ∧ _ ∧ _))
  | none => inferInstanceAs (Decidable (_ ∧ True))

/-! ### The client -/

/-- What can still come from a connection. -/
inductive Status where
  | fresh
  | connecting
  | established
  /-- It is to be closed: only its close event can come. -/
  | closing
  | closed
  deriving DecidableEq, Repr

/-- Whether the network manager is there, and a connection can be created. -/
structure Outcome where
  manager : Bool
  created : Bool
  deriving DecidableEq, Repr

/-- The members of `OvmsServerV3` for the connection, with the configuration and the connections
that were made, which have numbers. -/
structure OvmsServerV3 where
  config : Config
  /-- `m_server` and the other settings, as `Connect` has left them. -/
  used : Settings
  mgconn : Option ℕ
  /-- The metric `s.v3.connected`. -/
  connected : Bool
  connretry : ℤ
  connectionCounter : ℤ
  connectionAvailable : Bool
  connStableWait : ℤ
  connJitterMax : ℤ
  connectJitter : ℤ
  msgid : UInt16
  status : ℕ → Status
  /-- The connections whose CONNACK was accepted. -/
  accepted : ℕ → Bool
  created : ℕ
  /-- How often `Connect` was called. -/
  calls : ℕ
  /-- The credentials were rejected, and no effective setting has changed since. -/
  rejected : Bool

/-- The counters before another try. -/
def OvmsServerV3.retryIn (seconds : ℤ) (s : OvmsServerV3) : OvmsServerV3 :=
  { s with connretry := seconds, connectionCounter := 0 }

/-- `OvmsServerV3::Connect`. -/
def OvmsServerV3.connect (o : Outcome) (s : OvmsServerV3) : OvmsServerV3 :=
  let s := { s with calls := s.calls + 1 }
  if ¬ s.connectionAvailable then s.retryIn 10
  else
    let s := { s with msgid := 1, used := s.config.effective }
    if s.used.server = [] then s.retryIn 20
    else if ¬ o.manager then s.retryIn 20
    else if ¬ o.created then { s with mgconn := none }.retryIn 20
    else
      { s with
        mgconn := some s.created
        status := Function.update s.status s.created .connecting
        created := s.created + 1 }

/-- The current connection is flagged to be closed. -/
def OvmsServerV3.drop (s : OvmsServerV3) : OvmsServerV3 :=
  match s.mgconn with
  | some n => { s with mgconn := none, status := Function.update s.status n .closing }
  | none => s

/-- `OvmsServerV3::Disconnect`. -/
def OvmsServerV3.disconnect (s : OvmsServerV3) : OvmsServerV3 :=
  let s := s.drop
  { s with connretry := if 0 < s.connretry then 0 else s.connretry, connected := false }

/-! ### Events of connections -/

/-- `MG_EV_CONNECT`: the handshake is sent, or the connection has failed and will be closed. -/
def OvmsServerV3.onConnect (n : ℕ) (success : Bool) (s : OvmsServerV3) : OvmsServerV3 :=
  if success then { s with status := Function.update s.status n .established }
  else
    { s with
      mgconn := none
      connected := false
      status := Function.update s.status n .closing }.retryIn 30

/-- The return code of a server that is not available. -/
def serverUnavailable : UInt8 := 3

/-- `MG_EV_MQTT_CONNACK`, with a return code; 0 is for a connection that is accepted. -/
def OvmsServerV3.onConnack (n : ℕ) (code : UInt8) (s : OvmsServerV3) : OvmsServerV3 :=
  if code ≠ 0 then
    if code = serverUnavailable then s.disconnect.retryIn 30
    else { s.disconnect.retryIn (-1) with rejected := true }
  else
    { s with
      connected := true, connectJitter := -1, accepted := Function.update s.accepted n true }

/-- `MG_EV_CLOSE`. -/
def OvmsServerV3.onClose (n : ℕ) (s : OvmsServerV3) : OvmsServerV3 :=
  let s := if s.mgconn ≠ none then s.disconnect.retryIn 60 else s
  { s with status := Function.update s.status n .closed }

/-! ### The configuration, the network, the ticker -/

/-- The timings that `ConfigChanged` reads. -/
def OvmsServerV3.readTimings (s : OvmsServerV3) : OvmsServerV3 :=
  { s with
    connStableWait := max 3 (s.config.stableWait.getD s.connStableWait)
    connJitterMax := max 0 (s.config.jitterMax.getD s.connJitterMax) }

/-- A setting of the parameter is not the one in use. -/
def OvmsServerV3.NeedsReconnect (s : OvmsServerV3) : Option Param → Prop
  | some .password => s.config.settings.password ≠ s.used.password
  | _ => ¬ s.config.settings.SameServer s.used

instance (s : OvmsServerV3) (p : Option Param) : Decidable (s.NeedsReconnect p) :=
  match p with
  | some .password => inferInstanceAs (Decidable (_ ≠ _))
  | some .serverV3 => inferInstanceAs (Decidable (¬ _))
  | none => inferInstanceAs (Decidable (¬ _))

/-- `OvmsServerV3::ConfigChanged`; without a parameter it is for `server.v3`. -/
def OvmsServerV3.configChanged (p : Option Param) (s : OvmsServerV3) : OvmsServerV3 :=
  let s := if p = some .password then s else s.readTimings
  if s.NeedsReconnect p ∧ (s.mgconn ≠ none ∨ s.connretry < 0) then
    let s := s.disconnect
    if s.connretry < 0 then { s with connretry := 2 } else s
  else s

/-- `OvmsServerV3::NetUp`, with the network manager running or not. -/
def OvmsServerV3.netUp (running : Bool) (o : Outcome) (s : OvmsServerV3) : OvmsServerV3 :=
  if s.mgconn = none ∧ running ∧ 0 ≤ s.connretry then s.connect o else s

/-- `OvmsServerV3::NetmanInit`, with a network connected or not. -/
def OvmsServerV3.netmanInit (connectedAny : Bool) (o : Outcome) (s : OvmsServerV3) : OvmsServerV3 :=
  s.netUp connectedAny o

/-- `OvmsServerV3::NetDown`. -/
def OvmsServerV3.netDown (s : OvmsServerV3) : OvmsServerV3 :=
  if s.mgconn ≠ none then s.disconnect else s

/-- `OvmsServerV3::NetmanStop`. -/
def OvmsServerV3.netmanStop (s : OvmsServerV3) : OvmsServerV3 := s.netDown

/-- `OvmsServerV3::NetReconfigured`. -/
def OvmsServerV3.netReconfigured (s : OvmsServerV3) : OvmsServerV3 :=
  if 0 ≤ s.connretry then s.disconnect.retryIn 10 else s

/-- The network has been there for less than a second: a jitter is chosen. -/
def OvmsServerV3.pickJitter (random : ℕ) (s : OvmsServerV3) : OvmsServerV3 :=
  if s.connectionCounter = 0 ∧ s.connectJitter = -1 then
    { s with connectJitter := if 0 < s.connJitterMax then random % (s.connJitterMax + 1) else 0 }
  else s

/-- It has been there for another second. -/
def OvmsServerV3.countStable (s : OvmsServerV3) : OvmsServerV3 :=
  if s.connectionCounter < s.connStableWait + s.connectJitter then
    { s with connectionCounter := s.connectionCounter + 1 }
  else s

/-- The network is lost. -/
def OvmsServerV3.loseNetwork (s : OvmsServerV3) : OvmsServerV3 :=
  let s := if s.mgconn ≠ none then { s.disconnect with connretry := 10 } else s
  { s with connectionCounter := 0, connectJitter := -1 }

/-- The first part of `Ticker1`. -/
def OvmsServerV3.watchNetwork (available : Bool) (random : ℕ) (s : OvmsServerV3) : OvmsServerV3 :=
  let s := { s with connectionAvailable := available }
  if ¬ available then s.loseNetwork else (s.pickJitter random).countStable

/-- It is time to try again. -/
def OvmsServerV3.retry (random : ℕ) (o : Outcome) (s : OvmsServerV3) : OvmsServerV3 :=
  let s := if s.mgconn ≠ none then s.disconnect else s
  let jitter :=
    if 0 < s.connJitterMax ∧ 0 ≤ s.connectJitter then random % (s.connJitterMax + 1)
    else s.connectJitter
  { s with connectJitter := jitter }.connect o

/-- The part of `Ticker1` that connects: the first time, or when it is time to try again. -/
def OvmsServerV3.tryConnect (random : ℕ) (o : Outcome) (s : OvmsServerV3) : OvmsServerV3 :=
  if s.connretry = 0 ∧ s.connStableWait + s.connectJitter ≤ s.connectionCounter ∧
      s.connected = false ∧ s.mgconn = none then
    s.connect o
  else if 0 < s.connretry then
    let s := { s with connretry := s.connretry - 1 }
    if s.connretry = 0 ∧ s.connStableWait + max s.connectJitter 0 ≤ s.connectionCounter then
      s.retry random o
    else s
  else s

/-- The part of `OvmsServerV3::Ticker1` for the connection. -/
def OvmsServerV3.ticker1 (available : Bool) (first second : ℕ) (o : Outcome) (s : OvmsServerV3) :
    OvmsServerV3 :=
  (s.watchNetwork available first).tryConnect second o

/-! ### Steps -/

/-- What happens. -/
inductive Event where
  | configChanged (p : Option Param) (c : Config)
  | netUp (running : Bool) (o : Outcome)
  | netDown
  | netmanInit (connectedAny : Bool) (o : Outcome)
  | netmanStop
  | netReconfigured
  | ticker1 (available : Bool) (first second : ℕ) (o : Outcome)
  | connect (n : ℕ) (success : Bool)
  | connack (n : ℕ) (code : UInt8)
  | close (n : ℕ)
  deriving DecidableEq, Repr

/-- There is another configuration. -/
def OvmsServerV3.configured (c : Config) (s : OvmsServerV3) : OvmsServerV3 :=
  { s with config := c, rejected := s.rejected && decide (c.effective = s.used) }

/-- A change of the configuration, and the event of it. -/
def OvmsServerV3.reconfigure (p : Option Param) (c : Config) (s : OvmsServerV3) : OvmsServerV3 :=
  (s.configured c).configChanged p

/-- A connection that is not closed yet. -/
def OvmsServerV3.Open (s : OvmsServerV3) (n : ℕ) : Prop :=
  s.status n = .connecting ∨ s.status n = .established ∨ s.status n = .closing

instance (s : OvmsServerV3) (n : ℕ) : Decidable (s.Open n) := inferInstanceAs (Decidable (_ ∨ _))

/-- The state behind an event, if it can happen. -/
def OvmsServerV3.step (s : OvmsServerV3) : Event → Option OvmsServerV3
  | .configChanged p c => if s.config.Changes p c then some (s.reconfigure p c) else none
  | .netUp running o => some (s.netUp running o)
  | .netDown => some s.netDown
  | .netmanInit connectedAny o => some (s.netmanInit connectedAny o)
  | .netmanStop => some s.netmanStop
  | .netReconfigured => some s.netReconfigured
  | .ticker1 available first second o => some (s.ticker1 available first second o)
  | .connect n success =>
      if s.status n = .connecting then some (s.onConnect n success) else none
  | .connack n code => if s.status n = .established then some (s.onConnack n code) else none
  | .close n => if s.Open n then some (s.onClose n) else none

/-- What the constructor leaves; it has called `Connect` if there was a network. `m_tls` is whatever
it was. -/
def OvmsServerV3.init (c : Config) (tls connectedAny : Bool) : OvmsServerV3 :=
  let s : OvmsServerV3 :=
    { config := c
      used := ⟨[], [], tls, [], [], [], []⟩
      mgconn := none
      connected := false
      connretry := 0
      connectionCounter := 0
      connectionAvailable := false
      connStableWait := 10
      connJitterMax := 5
      connectJitter := -1
      msgid := 0
      status := fun _ => .fresh
      accepted := fun _ => false
      created := 0
      calls := 0
      rejected := false }
  let s := s.configChanged none
  if connectedAny then s.connect ⟨true, true⟩ else s

/-! ### What should hold -/

/-- The metric is true only if the current connection is one whose CONNACK was accepted. -/
def ConnectedCurrent (s : OvmsServerV3) : Prop :=
  s.connected = true → ∃ n, s.mgconn = some n ∧ s.accepted n = true

/-- That is so behind a step, and the close event of another connection changes nothing. -/
def FollowsCurrent (s : OvmsServerV3) (e : Event) : Prop :=
  ∀ s', s.step e = some s' → ConnectedCurrent s' ∧
    ∀ n, e = .close n → s.mgconn ≠ some n →
      s'.mgconn = s.mgconn ∧ s'.connected = s.connected ∧ s'.connretry = s.connretry ∧
        s'.connectionCounter = s.connectionCounter

/-- No other connection is closed while there is a current one. -/
def ClosesCurrent (s : OvmsServerV3) : Event → Prop
  | .close n => s.Open n → s.mgconn = none ∨ s.mgconn = some n
  | _ => True

/-- Connections, and the current one: a connection that can have events other than its close event
is the current one. -/
structure Linked (s : OvmsServerV3) : Prop where
  live : ∀ n, s.status n = .connecting ∨ s.status n = .established → s.mgconn = some n
  current : ∀ n, s.mgconn = some n → s.status n = .connecting ∨ s.status n = .established
  fresh : ∀ n, s.created ≤ n → s.status n = .fresh
  connected : ConnectedCurrent s

/-! ### Connecting and disconnecting -/

variable {s s' : OvmsServerV3} {o : Outcome}

/-- The connections behind `Disconnect`. -/
def OvmsServerV3.flagged (s : OvmsServerV3) : ℕ → Status :=
  match s.mgconn with
  | some n => Function.update s.status n .closing
  | none => s.status

theorem flagged_some {m : ℕ} (h : s.mgconn = some m) :
    s.flagged = Function.update s.status m .closing := by
  rw [OvmsServerV3.flagged, h]

theorem flagged_none (h : s.mgconn = none) : s.flagged = s.status := by
  rw [OvmsServerV3.flagged, h]

/-- What `Disconnect` does. -/
theorem disconnect_eq (s : OvmsServerV3) : s.disconnect =
    { s with
      mgconn := none
      status := s.flagged
      connretry := if 0 < s.connretry then 0 else s.connretry
      connected := false } := by
  rw [OvmsServerV3.disconnect, OvmsServerV3.drop, OvmsServerV3.flagged]
  cases hmgconn : s.mgconn with
  | none => simp [hmgconn.symm]
  | some n => rfl

theorem disconnect_mgconn (s : OvmsServerV3) : s.disconnect.mgconn = none := by
  rw [disconnect_eq]

/-- What `Connect` does: it fails, and there is another try later, or there is a new connection. -/
theorem connect_cases (o : Outcome) (s : OvmsServerV3) : ∃ (used : Settings) (msgid : UInt16),
    (∃ mgconn seconds, (mgconn = s.mgconn ∨ mgconn = none) ∧ 0 < seconds ∧
      s.connect o = { s with
        calls := s.calls + 1, used := used, msgid := msgid, mgconn := mgconn }.retryIn seconds) ∨
    used = s.config.effective ∧ s.connect o = { s with
      calls := s.calls + 1
      used := used
      msgid := msgid
      mgconn := some s.created
      status := Function.update s.status s.created .connecting
      created := s.created + 1 } := by
  rw [OvmsServerV3.connect]
  dsimp only
  split
  · exact ⟨s.used, s.msgid, .inl ⟨_, 10, .inl rfl, by decide, rfl⟩⟩
  · refine ⟨s.config.effective, 1, ?_⟩
    split
    · exact .inl ⟨_, 20, .inl rfl, by decide, rfl⟩
    · split
      · exact .inl ⟨_, 20, .inl rfl, by decide, rfl⟩
      · split
        · exact .inl ⟨none, 20, .inr rfl, by decide, rfl⟩
        · exact .inr ⟨rfl, rfl⟩

/-- The connections behind `Disconnect` are those that were open, but the current one. -/
theorem Linked.disconnect (h : Linked s) : Linked s.disconnect := by
  rw [disconnect_eq]
  have hflagged : ∀ n, ¬ (s.flagged n = .connecting ∨ s.flagged n = .established) := by
    intro n hn
    cases hm : s.mgconn with
    | none =>
        rw [flagged_none hm] at hn
        exact Option.some_ne_none n ((h.live n hn).symm.trans hm)
    | some m =>
        rw [flagged_some hm] at hn
        by_cases heq : n = m
        · rw [heq, Function.update_self] at hn
          simp at hn
        · rw [Function.update_of_ne heq] at hn
          exact heq (Option.some.inj ((h.live n hn).symm.trans hm))
  refine ⟨fun n hn => absurd hn (hflagged n), fun n hn => absurd hn (Option.some_ne_none n).symm,
    fun n hn => ?_, fun hconnected => absurd hconnected Bool.false_ne_true⟩
  change s.flagged n = .fresh
  cases hm : s.mgconn with
  | none => rw [flagged_none hm, h.fresh n hn]
  | some m =>
      rw [flagged_some hm, Function.update_of_ne, h.fresh n hn]
      rintro rfl
      have hlive := h.current n hm
      rw [h.fresh n hn] at hlive
      simp at hlive

/-- `Connect` is called when there is no connection. -/
theorem Linked.connect (h : Linked s) (hnone : s.mgconn = none) (o : Outcome) :
    Linked (s.connect o) := by
  have hdead : ∀ n, ¬ (s.status n = .connecting ∨ s.status n = .established) :=
    fun n hn => Option.some_ne_none n ((h.live n hn).symm.trans hnone)
  have hconnected : s.connected ≠ true := by
    intro hconnected
    obtain ⟨n, hn, -⟩ := h.connected hconnected
    exact Option.some_ne_none n (hn.symm.trans hnone)
  obtain ⟨used, msgid, ⟨mgconn, seconds, hmgconn, -, hconnect⟩ | ⟨-, hconnect⟩⟩ := connect_cases o s
  · obtain rfl : mgconn = none := hmgconn.elim (fun heq => heq.trans hnone) id
    rw [hconnect]
    exact ⟨fun n hn => absurd hn (hdead n), fun n hn => absurd hn (Option.some_ne_none n).symm,
      h.fresh, fun hc => absurd hc hconnected⟩
  · rw [hconnect]
    refine ⟨fun n hn => ?_, fun n hn => ?_, fun n hn => ?_, fun hc => absurd hc hconnected⟩
    · dsimp only at hn ⊢
      by_cases heq : n = s.created
      · rw [heq]
      · rw [Function.update_of_ne heq] at hn
        exact absurd hn (hdead n)
    · dsimp only at hn ⊢
      obtain rfl := Option.some.inj hn
      rw [Function.update_self]
      exact .inl rfl
    · dsimp only at hn ⊢
      rw [Function.update_of_ne (by omega)]
      exact h.fresh n (Nat.le_of_succ_le hn)

/-! ### The handlers -/

theorem Linked.configChanged (h : Linked s) (p : Option Param) : Linked (s.configChanged p) := by
  have htimings : Linked (if p = some .password then s else s.readTimings) := by
    split
    · exact h
    · exact ⟨h.live, h.current, h.fresh, h.connected⟩
  rw [OvmsServerV3.configChanged]
  dsimp only
  generalize (if p = some .password then s else s.readTimings) = t at htimings ⊢
  split
  · have hdisconnect := htimings.disconnect
    split
    · exact ⟨hdisconnect.live, hdisconnect.current, hdisconnect.fresh, hdisconnect.connected⟩
    · exact hdisconnect
  · exact htimings

theorem configChanged_mgconn (hnone : s.mgconn = none) (p : Option Param) :
    (s.configChanged p).mgconn = none := by
  have htimings : (if p = some .password then s else s.readTimings).mgconn = none := by
    split <;> exact hnone
  rw [OvmsServerV3.configChanged]
  dsimp only
  generalize (if p = some .password then s else s.readTimings) = t at htimings ⊢
  split
  · split <;> exact disconnect_mgconn t
  · exact htimings

theorem Linked.netUp (h : Linked s) (running : Bool) (o : Outcome) :
    Linked (s.netUp running o) := by
  rw [OvmsServerV3.netUp]
  split
  · next hup => exact h.connect hup.1 o
  · exact h

theorem Linked.netDown (h : Linked s) : Linked s.netDown := by
  rw [OvmsServerV3.netDown]
  split
  · exact h.disconnect
  · exact h

theorem Linked.retryIn (h : Linked s) (seconds : ℤ) : Linked (s.retryIn seconds) :=
  ⟨h.live, h.current, h.fresh, h.connected⟩

theorem Linked.netReconfigured (h : Linked s) : Linked s.netReconfigured := by
  rw [OvmsServerV3.netReconfigured]
  split
  · exact h.disconnect.retryIn 10
  · exact h

theorem Linked.disconnectIf (h : Linked s) :
    Linked (if s.mgconn ≠ none then s.disconnect else s) ∧
      (if s.mgconn ≠ none then s.disconnect else s).mgconn = none := by
  split
  · exact ⟨h.disconnect, disconnect_mgconn s⟩
  · next hnone => exact ⟨h, not_not.mp hnone⟩

theorem Linked.watchNetwork (h : Linked s) (available : Bool) (random : ℕ) :
    Linked (s.watchNetwork available random) := by
  have havailable : Linked { s with connectionAvailable := available } :=
    ⟨h.live, h.current, h.fresh, h.connected⟩
  rw [OvmsServerV3.watchNetwork]
  generalize { s with connectionAvailable := available } = t at havailable ⊢
  split
  · rw [OvmsServerV3.loseNetwork]
    dsimp only
    have hdrop := havailable.disconnect
    split
    · exact ⟨hdrop.live, hdrop.current, hdrop.fresh, hdrop.connected⟩
    · exact ⟨havailable.live, havailable.current, havailable.fresh, havailable.connected⟩
  · have hjitter : Linked (t.pickJitter random) := by
      rw [OvmsServerV3.pickJitter]
      split
      · exact ⟨havailable.live, havailable.current, havailable.fresh, havailable.connected⟩
      · exact havailable
    rw [OvmsServerV3.countStable]
    split
    · exact ⟨hjitter.live, hjitter.current, hjitter.fresh, hjitter.connected⟩
    · exact hjitter

theorem Linked.retry (h : Linked s) (random : ℕ) (o : Outcome) : Linked (s.retry random o) := by
  obtain ⟨ht, hnone⟩ := h.disconnectIf
  rw [OvmsServerV3.retry]
  generalize (if s.mgconn ≠ none then s.disconnect else s) = t at ht hnone ⊢
  have hjitter : ∀ jitter, Linked { t with connectJitter := jitter } :=
    fun _ => ⟨ht.live, ht.current, ht.fresh, ht.connected⟩
  refine Linked.connect (hjitter _) ?_ o
  exact hnone

theorem Linked.tryConnect (h : Linked s) (random : ℕ) (o : Outcome) :
    Linked (s.tryConnect random o) := by
  have hcount : Linked { s with connretry := s.connretry - 1 } :=
    ⟨h.live, h.current, h.fresh, h.connected⟩
  rw [OvmsServerV3.tryConnect]
  split
  · next hfirst => exact h.connect hfirst.2.2.2 o
  · split
    · dsimp only
      split
      · exact hcount.retry random o
      · exact hcount
    · exact h

theorem Linked.onConnect (h : Linked s) {n : ℕ} (hn : s.status n = .connecting) (success : Bool) :
    Linked (s.onConnect n success) := by
  have hcurrent : s.mgconn = some n := h.live n (.inl hn)
  have hborn : ∀ m, s.created ≤ m → m ≠ n := by
    rintro m hm rfl
    rw [h.fresh m hm] at hn
    simp at hn
  rw [OvmsServerV3.onConnect]
  split
  · refine ⟨fun m hm => ?_, fun m hm => ?_, fun m hm => ?_, h.connected⟩
    · dsimp only at hm ⊢
      by_cases heq : m = n
      · rw [heq, hcurrent]
      · rw [Function.update_of_ne heq] at hm
        exact h.live m hm
    · dsimp only at hm ⊢
      obtain rfl := Option.some.inj (hcurrent.symm.trans hm)
      rw [Function.update_self]
      exact .inr rfl
    · dsimp only at hm ⊢
      rw [Function.update_of_ne (hborn m hm)]
      exact h.fresh m hm
  · refine Linked.retryIn ⟨fun m hm => ?_, fun m hm => absurd hm (Option.some_ne_none m).symm,
      fun m hm => ?_, fun hconnected => absurd hconnected Bool.false_ne_true⟩ 30
    · dsimp only at hm
      by_cases heq : m = n
      · rw [heq, Function.update_self] at hm
        simp at hm
      · rw [Function.update_of_ne heq] at hm
        exact absurd (Option.some.inj ((h.live m hm).symm.trans hcurrent)) heq
    · dsimp only at hm ⊢
      rw [Function.update_of_ne (hborn m hm)]
      exact h.fresh m hm

theorem Linked.onConnack (h : Linked s) {n : ℕ} (hn : s.status n = .established) (code : UInt8) :
    Linked (s.onConnack n code) := by
  rw [OvmsServerV3.onConnack]
  have hdrop := h.disconnect
  split
  · split
    · exact hdrop.retryIn 30
    · exact ⟨hdrop.live, hdrop.current, hdrop.fresh, hdrop.connected⟩
  · exact ⟨h.live, h.current, h.fresh,
      fun _ => ⟨n, h.live n (.inr hn), Function.update_self n true s.accepted⟩⟩

/-- A connection is closed. There is no current one behind the event, if there was one before. -/
theorem Linked.onClose (h : Linked s) {n : ℕ} (hn : s.Open n) : Linked (s.onClose n) := by
  have hgone : ∃ t, Linked t ∧ t.mgconn = none ∧ (t.created = s.created) ∧
      (if s.mgconn ≠ none then s.disconnect.retryIn 60 else s) = t := by
    split
    · exact ⟨_, h.disconnect.retryIn 60, disconnect_mgconn s, by rw [disconnect_eq]; rfl, rfl⟩
    · next hnone => exact ⟨_, h, not_not.mp hnone, rfl, rfl⟩
  obtain ⟨t, ht, hnone, hcreated, heq⟩ := hgone
  rw [OvmsServerV3.onClose, heq]
  have hborn : ∀ m, s.created ≤ m → m ≠ n := by
    rintro m hm rfl
    rw [OvmsServerV3.Open, h.fresh m hm] at hn
    simp at hn
  refine ⟨fun m hm => ?_, fun m hm => absurd (hnone.symm.trans hm) (Option.some_ne_none m).symm,
    fun m hm => ?_, ht.connected⟩
  · dsimp only at hm ⊢
    by_cases heq : m = n
    · rw [heq, Function.update_self] at hm
      simp at hm
    · rw [Function.update_of_ne heq] at hm
      exact ht.live m hm
  · dsimp only at hm ⊢
    rw [Function.update_of_ne (hborn m (hcreated ▸ hm))]
    exact ht.fresh m hm

/-! ### Runs -/

/-- **A step** keeps the connections linked to the current one. -/
theorem Linked.step (h : Linked s) {e : Event} (hs : s.step e = some s') : Linked s' := by
  cases e with
  | configChanged p c =>
      obtain ⟨-, hs⟩ := Option.ite_none_right_eq_some.mp hs
      obtain rfl := Option.some.inj hs
      have hnew : Linked (s.configured c) := ⟨h.live, h.current, h.fresh, h.connected⟩
      exact hnew.configChanged p
  | netUp running o =>
      obtain rfl := Option.some.inj hs
      exact h.netUp running o
  | netDown =>
      obtain rfl := Option.some.inj hs
      exact h.netDown
  | netmanInit connectedAny o =>
      obtain rfl := Option.some.inj hs
      exact h.netUp connectedAny o
  | netmanStop =>
      obtain rfl := Option.some.inj hs
      exact h.netDown
  | netReconfigured =>
      obtain rfl := Option.some.inj hs
      exact h.netReconfigured
  | ticker1 available first second o =>
      obtain rfl := Option.some.inj hs
      exact (h.watchNetwork available first).tryConnect second o
  | connect n success =>
      obtain ⟨hn, hs⟩ := Option.ite_none_right_eq_some.mp hs
      obtain rfl := Option.some.inj hs
      exact h.onConnect hn success
  | connack n code =>
      obtain ⟨hn, hs⟩ := Option.ite_none_right_eq_some.mp hs
      obtain rfl := Option.some.inj hs
      exact h.onConnack hn code
  | close n =>
      obtain ⟨hn, hs⟩ := Option.ite_none_right_eq_some.mp hs
      obtain rfl := Option.some.inj hs
      exact h.onClose hn

theorem Linked.of_fresh (hmgconn : s.mgconn = none) (hconnected : s.connected = false)
    (hstatus : ∀ n, s.status n = .fresh) : Linked s := by
  refine ⟨fun n hn => ?_, fun n hn => absurd (hmgconn.symm.trans hn) (Option.some_ne_none n).symm,
    fun n _ => hstatus n, fun hc => absurd (hconnected.symm.trans hc) Bool.false_ne_true⟩
  rw [hstatus n] at hn
  simp at hn

theorem linked_init (c : Config) (tls connectedAny : Bool) : Linked (.init c tls connectedAny) := by
  rw [OvmsServerV3.init]
  split
  · refine Linked.connect (Linked.configChanged ?_ none) ?_ ⟨true, true⟩
    · exact .of_fresh rfl rfl fun _ => rfl
    · exact configChanged_mgconn rfl none
  · refine Linked.configChanged ?_ none
    exact .of_fresh rfl rfl fun _ => rfl

/-- A step follows the current connection exactly when no other is closed while there is one. -/
theorem followsCurrent_iff (h : Linked s) (e : Event) : FollowsCurrent s e ↔ ClosesCurrent s e := by
  have hother : (∀ n, e ≠ .close n) → FollowsCurrent s e := fun hne s' hs =>
    ⟨(h.step hs).connected, fun n hn => absurd hn (hne n)⟩
  cases e with
  | close n =>
      constructor
      · intro hfollows hn
        by_contra hcurrent
        rw [not_or] at hcurrent
        obtain ⟨hsame, -⟩ := (hfollows (s.onClose n) (if_pos hn)).2 n rfl hcurrent.2
        rw [OvmsServerV3.onClose, if_pos hcurrent.1] at hsame
        exact hcurrent.1 (hsame.symm.trans (disconnect_mgconn s))
      · intro hcloses s' hs
        refine ⟨(h.step hs).connected, fun m hm hne => ?_⟩
        obtain rfl := Event.close.inj hm
        obtain ⟨hn, hs⟩ := Option.ite_none_right_eq_some.mp hs
        obtain rfl := Option.some.inj hs
        have hnone := (hcloses hn).resolve_right hne
        rw [OvmsServerV3.onClose, if_neg (not_not.mpr hnone)]
        exact ⟨rfl, rfl, rfl, rfl⟩
  | _ => exact iff_of_true (hother fun n hn => by cases hn) trivial

/-- **The state** follows the current connection along a run exactly when no other connection is
closed while there is one. -/
theorem followsCurrent_along (c : Config) (tls connectedAny : Bool) (events : List Event) :
    AlongSteps (fun s e s' => s.step e = some s') FollowsCurrent (.init c tls connectedAny) events ↔
      AlongSteps (fun s e s' => s.step e = some s') ClosesCurrent (.init c tls connectedAny)
        events :=
  alongSteps_congr_of_invariant (I := Linked) (fun _ e hs => followsCurrent_iff hs e)
    (fun _ _ _ hs _ hstep => hs.step hstep) (linked_init c tls connectedAny)

/-- A connection is flagged when the network goes down, the next one is made when there is one
again, and then the first is closed: the second is given up. -/
theorem not_followsCurrent : ¬ AlongSteps (fun s e s' => s.step e = some s') FollowsCurrent
    (.init ⟨[], ⟨ascii "server", [], false, [], [], [], []⟩, none, none⟩ false false)
    [.ticker1 true 0 0 ⟨true, true⟩, .netUp true ⟨true, true⟩, .netDown, .netUp true ⟨true, true⟩,
      .close 0] := by
  intro h
  have hfollows := ((((h.2 _ rfl).2 _ rfl).2 _ rfl).2 _ rfl).1 _ rfl
  exact absurd (hfollows.2 0 rfl (by decide)).1 (by decide)

end Ovms.ServerV3
