import Ovms.Lib.Machine
import Ovms.Buffer.Lines
import Ovms.ServerV2.Receive

/-!
# The Connection of a Server V2

`OvmsServerV2` (`components/ovms_server_v2/src/ovms_server_v2.cpp`) as a machine: the state, the
connection `m_mgconn`, the retry counter, the buffer of received bytes and the cipher, and what
the callback of a connection, the ticker and the network events do to them.

A connection that is given up is flagged for closing, and its events come whenever they come. The
callback has the connection as an argument and uses it for the reply to a successful connect
only; everything else it does, it does to the current connection, whatever that is. So an event of
another connection is harmless only if there is nothing to do (`superseded_iff`).

Connections are numbered in the order in which they are made. What is received is taken line by
line; one callback runs at a time, and calls of other tasks wait for it. The ciphers and the digest
are parameters, and so is what an `EM` message is read as.
-/

open Lib Ovms.Buffer

namespace Ovms.ServerV2

/-! ### The parameters -/

/-- The digest (of a text, with a key), base64, the cipher that is set up from a digest, what a
line is decrypted to, and what a text is read as in paranoid mode, with the byte that is not
written. -/
structure Ciphers (κ : Type) where
  hmacMd5 : Text → Text → Text
  base64encode : Text → Text
  setup : Text → κ
  decrypt : κ → Text → Text × κ
  read : Text → UInt8 → Text → Except Fault Message

/-- The ciphers of the source, with any digest. -/
def rc4Ciphers (hmacMd5 : Text → Text → Text) : Ciphers Crypt.Rc4 where
  hmacMd5 := hmacMd5
  base64encode := Crypt.base64encode
  setup := Crypt.rc4Prime
  decrypt rx line := (textOf rx line, (Crypt.rc4Crypt rx (Crypt.base64decode line)).2)
  read := readMessage

/-- The configuration that `Connect` reads, and the password of the module. -/
structure Config where
  vehicleid : Text
  server : Text
  password : Text
  tls : Bool
  paranoid : Bool
  modpass : Text

/-- What `Connect` meets: the manager, the support for TLS, and whether `mg_connect_opt` makes a
connection. -/
structure Mongoose where
  manager : Bool
  ssl : Bool
  connects : Bool

/-! ### The server -/

/-- `OvmsServerV2::State`. -/
inductive State
  | waitNetwork
  | connectWait
  | connecting
  | authenticating
  | connected
  | disconnected
  | waitReconnect
  deriving DecidableEq

/-- `OvmsServerV2`, and whether `ms_s_v2_connected` is set. Beside the members stand the connection
whose data is being processed, how many connections were made, those on which a digest was
verified, and whether the program has ended with an exception. -/
structure Server (κ : Type) where
  state : State
  mgconn : Option ℕ
  connretry : ℤ
  buffer : OvmsBuffer
  config : Config
  token : Text
  rx : κ
  ptokenReady : Bool
  pdigest : Text
  peers : ℤ
  v2Connected : Bool
  receiving : Option ℕ
  opened : ℕ
  verified : List ℕ
  halted : Bool

namespace Server

variable {κ : Type}

/-- The new server. What is in the cipher is not known. -/
def new (config : Config) (rx : κ) : Server κ where
  state := .waitNetwork
  mgconn := none
  connretry := 0
  buffer := .new 1024
  config := config
  token := []
  rx := rx
  ptokenReady := false
  pdigest := []
  peers := 0
  v2Connected := false
  receiving := none
  opened := 0
  verified := []
  halted := false

/-- `Disconnect` and `Reconnect`: the connection is flagged for closing. -/
def reconnect (s : Server κ) (connretry : ℤ) : Server κ :=
  { s with
    mgconn := none
    buffer := s.buffer.emptyAll
    connretry := connretry
    v2Connected := false }

/-- `Disconnect`. -/
def disconnect (s : Server κ) : Server κ := s.reconnect 0

/-- `SetStatus` with an error, and `Reconnect(60)`. -/
def fail (s : Server κ) : Server κ := { s with state := .waitReconnect }.reconnect 60

/-- `Connect`. -/
def connect (s : Server κ) (config : Config) (mg : Mongoose) : Server κ :=
  let s := { s with config := config }
  if config.vehicleid = [] ∨ config.server = [] ∨ config.password = [] then
    { s with state := .waitReconnect, connretry := 20 }
  else
    let s := { s with state := .connecting }
    if !mg.manager then { s with state := .waitReconnect, connretry := 20 }
    else if config.tls && !mg.ssl then s
    else if mg.connects then { s with mgconn := some s.opened, opened := s.opened + 1 }
    else { s with mgconn := none, state := .waitReconnect, connretry := 60 }

/-- `SendLogin`, with the token that it makes. -/
def sendLogin (s : Server κ) (token : Text) : Server κ :=
  { s with state := .authenticating, token := token, ptokenReady := false, connretry := 60 }

/-! ### The callback of a connection -/

/-- `MG_EV_CONNECT`. -/
def evConnect (s : Server κ) (success : Bool) (token : Text) : Server κ :=
  if success then s.sendLogin token
  else { s with mgconn := none, state := .waitReconnect, connretry := 60 }

/-- `MG_EV_CLOSE`. -/
def evClose (s : Server κ) : Server κ :=
  if s.state = .authenticating then { s with state := .disconnected }.reconnect (-1)
  else if s.state ≠ .waitReconnect then { s with state := .waitReconnect }.reconnect 10
  else s

/-- `MG_EV_RECV`, up to the loop of `IncomingData`. -/
def evRecv (s : Server κ) (nc : ℕ) (data : List UInt8) : Server κ :=
  let pushed := s.buffer.pushBlock data
  if pushed.2 then { s with buffer := pushed.1, receiving := some nc } else s

/-- Whether the loop of `IncomingData` goes on. -/
def looping (s : Server κ) : Bool := s.buffer.hasLine.isSome && s.mgconn.isSome

/-- `MP-S 0 `. -/
def mps0 : Text := [0x4D, 0x50, 0x2D, 0x53, 0x20, 0x30, 0x20]

/-- The reply to a login: the token and the digest, if there is a separator. -/
def replyOf (line : Text) : Option (Text × Text) :=
  match (line.drop 7).dropWhile (· ≠ 0x20) with
  | [] => none
  | _ :: digest => some ((line.drop 7).takeWhile (· ≠ 0x20), digest)

variable (C : Ciphers κ)

/-- A line is the reply to the login, with the digest of the password. -/
def verifies (s : Server κ) (line : Text) : Bool :=
  decide (line.take 7 = mps0) &&
    match replyOf line with
    | none => false
    | some (token, digest) =>
      decide (s.token ≠ token) &&
        decide (digest = C.base64encode (C.hmacMd5 token s.config.password))

/-- The login: a reply that does not verify ends the connection. The token of paranoid mode is
made at random. -/
def login (s : Server κ) (line ptoken : Text) : Server κ :=
  match replyOf line with
  | none => s.fail
  | some (token, digest) =>
    if s.token = token then s.fail
    else if digest ≠ C.base64encode (C.hmacMd5 token s.config.password) then s.fail
    else
      { s with
        rx := C.setup (C.hmacMd5 (token ++ s.token) s.config.password)
        ptokenReady := s.ptokenReady || s.config.paranoid
        pdigest := if s.config.paranoid then C.hmacMd5 ptoken s.config.modpass else s.pdigest
        connretry := 0
        v2Connected := true
        state := .connected
        verified := s.receiving.toList ++ s.verified }

/-- What is done for a message, to the server itself. -/
def onMessage (s : Server κ) : Message → Server κ
  | .peers nc => { s with peers := nc }
  | _ => s

/-- `ProcessServerMsg`. -/
def processServerMsg (s : Server κ) (ptoken : Text) (first : UInt8) : Server κ :=
  let read := s.buffer.readLine
  let s := { s with buffer := read.1 }
  if read.2.take 7 = mps0 then s.login C read.2 ptoken
  else
    let out := C.decrypt s.rx read.2
    let s := { s with rx := out.2 }
    if out.1.take 5 ≠ mp0 then s.fail
    else
      match C.read s.pdigest first out.1 with
      | .error _ => { s with halted := true }
      | .ok message => s.onMessage message

/-! ### Other tasks -/

/-- `Ticker1`: the retry counter. -/
def tickRetry (s : Server κ) (connectedAny : Bool) (config : Config) (mg : Mongoose) : Server κ :=
  if 0 < s.connretry ∧ connectedAny = true then
    let s := { s with connretry := s.connretry - 1 }
    if s.connretry = 0 then (if s.mgconn.isSome then s.disconnect else s).connect config mg else s
  else s

/-- `Ticker1`: there is no network. -/
def tickNetwork (s : Server κ) (connectedAny : Bool) : Server κ :=
  if connectedAny = false ∧ s.state ≠ .waitNetwork ∧ 0 ≤ s.connretry then
    { s with connretry := 0, state := .waitNetwork }
  else s

/-- `Ticker1`, as far as the connection is concerned: whether there is a network, and whether the
connection is stale. -/
def ticker1 (s : Server κ) (connectedAny stale : Bool) (config : Config) (mg : Mongoose) :
    Server κ :=
  let s := (s.tickRetry connectedAny config mg).tickNetwork connectedAny
  if s.v2Connected && stale then { s with state := .waitNetwork }.disconnect else s

/-- `NetUp`, if the network manager runs, and `NetmanInit`, if there is a network. -/
def netUp (s : Server κ) (up : Bool) : Server κ :=
  if s.mgconn.isNone && up && decide (0 ≤ s.connretry) then
    { s with state := .connectWait, connretry := 2 }
  else s

/-- `NetReconfigured`. -/
def netReconfigured (s : Server κ) : Server κ :=
  if 0 ≤ s.connretry then { s with state := .connectWait }.reconnect 3 else s

/-- `NetmanStop`. -/
def netmanStop (s : Server κ) : Server κ :=
  if s.mgconn.isSome then { s with state := .waitNetwork }.disconnect else s

/-- `ConfigChanged`, if something changed that needs a reconnect. -/
def configChanged (s : Server κ) : Server κ :=
  if s.mgconn.isSome || decide (s.connretry < 0) then
    { s.reconnect 2 with state := .waitReconnect }
  else s

/-! ### What can happen -/

/-- What can happen. A connection that cannot be made is an event too. -/
inductive Event
  | connectResult (nc : ℕ) (success : Bool) (token : Text)
  | close (nc : ℕ)
  | recv (nc : ℕ) (data : List UInt8)
  | line (ptoken : Text) (first : UInt8)
  | recvDone
  | connect (config : Config) (mg : Mongoose)
  | disconnect
  | reconnect (connretry : ℤ)
  | ticker1 (connectedAny stale : Bool) (config : Config) (mg : Mongoose)
  | netUp (up : Bool)
  | netReconfigured
  | netmanStop
  | configChanged

/-- What can happen now: a connection has events when it was made, lines are taken until the loop
ends, and everything else waits for that. `Connect` is called when there is no connection. -/
def admits (s : Server κ) : Event → Bool
  | .connectResult nc _ _ | .close nc | .recv nc _ => s.receiving.isNone && decide (nc < s.opened)
  | .line _ _ => s.receiving.isSome && s.looping
  | .recvDone => s.receiving.isSome && !s.looping
  | .connect _ _ => s.receiving.isNone && s.mgconn.isNone
  | _ => s.receiving.isNone

/-- What an event does. -/
def act (s : Server κ) : Event → Server κ
  | .connectResult _ success token => s.evConnect success token
  | .close _ => s.evClose
  | .recv nc data => s.evRecv nc data
  | .line ptoken first => s.processServerMsg C ptoken first
  | .recvDone => { s with receiving := none }
  | .connect config mg => s.connect config mg
  | .disconnect => s.disconnect
  | .reconnect connretry => s.reconnect connretry
  | .ticker1 connectedAny stale config mg => s.ticker1 connectedAny stale config mg
  | .netUp up => s.netUp up
  | .netReconfigured => s.netReconfigured
  | .netmanStop => s.netmanStop
  | .configChanged => s.configChanged

/-- One event, if it can happen. -/
def step (s : Server κ) (e : Event) : Server κ :=
  if s.halted = false ∧ s.admits e = true then s.act C e else s

/-- The connection whose event it is. -/
def connectionOf (s : Server κ) : Event → Option ℕ
  | .connectResult nc _ _ | .close nc | .recv nc _ => some nc
  | .line _ _ | .recvDone => s.receiving
  | _ => none

/-- The event is one of a connection that is not the current one. -/
def Superseded (s : Server κ) (e : Event) : Prop :=
  s.halted = false ∧ s.admits e = true ∧ ∃ nc, s.connectionOf e = some nc ∧ s.mgconn ≠ some nc

/-- What must not change by an event of another connection. -/
def Unchanged (s s' : Server κ) : Prop :=
  s'.state = s.state ∧ s'.connretry = s.connretry ∧ s'.buffer = s.buffer ∧ s'.mgconn = s.mgconn

/-- What is there already is not changed: a connect finds the state and the retry counter as it
sets them, and if it failed no connection; a close finds the server waiting for a reconnect; what
is received is nothing, or too much for the buffer. -/
def Harmless (s : Server κ) : Event → Prop
  | .connectResult _ true _ => s.state = .authenticating ∧ s.connretry = 60
  | .connectResult _ false _ => s.state = .waitReconnect ∧ s.connretry = 60 ∧ s.mgconn = none
  | .close _ => s.state = .waitReconnect
  | .recv _ data => data = [] ∨ s.buffer.freeSpace < data.length
  | .line _ _ => False
  | _ => True

/-! ### The buffer along a run -/

/-- The buffer holds a queue. -/
def Buffered (s : Server κ) : Prop := ∃ q : Fifo UInt8 1024, Represents s.buffer q

theorem Buffered.emptyAll {s t : Server κ} (h : s.Buffered) (ht : t.buffer = s.buffer.emptyAll) :
    t.Buffered := by
  obtain ⟨q, hq⟩ := h
  exact ⟨_, ht ▸ represents_emptyAll hq⟩

theorem Buffered.reconnect {s : Server κ} (h : s.Buffered) (connretry : ℤ) :
    (s.reconnect connretry).Buffered := h.emptyAll rfl

theorem Buffered.of_eq {s t : Server κ} (h : s.Buffered) (ht : t.buffer = s.buffer) :
    t.Buffered := by
  obtain ⟨q, hq⟩ := h
  exact ⟨q, ht ▸ hq⟩

theorem connect_buffer (s : Server κ) (config : Config) (mg : Mongoose) :
    (s.connect config mg).buffer = s.buffer := by
  unfold connect
  dsimp only
  split_ifs <;> rfl

/-- A tick keeps the buffer a queue. -/
theorem Buffered.ticker1 {s : Server κ} (h : s.Buffered) (connectedAny stale : Bool)
    (config : Config) (mg : Mongoose) : (s.ticker1 connectedAny stale config mg).Buffered := by
  have hretry : (s.tickRetry connectedAny config mg).Buffered := by
    unfold tickRetry
    split
    · dsimp only
      split
      · split
        · exact (h.emptyAll rfl).of_eq (connect_buffer _ config mg)
        · exact h.of_eq (connect_buffer _ config mg)
      · exact h.of_eq rfl
    · exact h
  have hnetwork : ((s.tickRetry connectedAny config mg).tickNetwork connectedAny).Buffered := by
    unfold tickNetwork
    split
    · exact hretry.of_eq rfl
    · exact hretry
  unfold Server.ticker1
  dsimp only
  split
  · exact hnetwork.emptyAll rfl
  · exact hnetwork

/-- So does the login. -/
theorem Buffered.login {s : Server κ} (h : s.Buffered) (line ptoken : Text) :
    (s.login C line ptoken).Buffered := by
  unfold Server.login
  split
  · exact h.emptyAll rfl
  · split
    · exact h.emptyAll rfl
    · split
      · exact h.emptyAll rfl
      · exact h.of_eq rfl

theorem onMessage_buffer (s : Server κ) (message : Message) :
    (s.onMessage message).buffer = s.buffer := by
  cases message <;> rfl

/-- Reading a line keeps the buffer a queue. -/
theorem Buffered.processServerMsg {s : Server κ} (h : s.Buffered) (ptoken : Text) (first : UInt8) :
    (s.processServerMsg C ptoken first).Buffered := by
  have hread : { s with buffer := s.buffer.readLine.1 }.Buffered := by
    obtain ⟨q, hq⟩ := h
    exact ⟨_, hq.readLine.2⟩
  unfold Server.processServerMsg
  dsimp only
  split
  · exact hread.login C _ ptoken
  · split
    · exact hread.emptyAll rfl
    · split
      · exact hread.of_eq rfl
      · exact hread.of_eq (onMessage_buffer _ _)

/-- Every step keeps the buffer a queue. -/
theorem Buffered.step {s : Server κ} (h : s.Buffered) (e : Event) : (s.step C e).Buffered := by
  unfold Server.step
  split
  · cases e with
    | connectResult nc success token => cases success <;> exact h.of_eq rfl
    | close nc =>
      change s.evClose.Buffered
      unfold evClose
      split
      · exact h.emptyAll rfl
      · split
        · exact h.emptyAll rfl
        · exact h
    | recv nc data =>
      obtain ⟨q, hq⟩ := h
      change (s.evRecv nc data).Buffered
      unfold evRecv
      dsimp only
      split
      · exact ⟨_, (step_represents s.buffer q (.pushBlock data) hq).2⟩
      · exact ⟨q, hq⟩
    | line ptoken first => exact h.processServerMsg C ptoken first
    | recvDone => exact h.of_eq rfl
    | connect config mg => exact h.of_eq (connect_buffer s config mg)
    | disconnect => exact h.reconnect 0
    | reconnect connretry => exact h.reconnect connretry
    | ticker1 connectedAny stale config mg => exact h.ticker1 connectedAny stale config mg
    | netUp up =>
      change (s.netUp up).Buffered
      unfold netUp
      split
      · exact h.of_eq rfl
      · exact h
    | netReconfigured =>
      change s.netReconfigured.Buffered
      unfold netReconfigured
      split
      · exact h.emptyAll rfl
      · exact h
    | netmanStop =>
      change s.netmanStop.Buffered
      unfold netmanStop
      split
      · exact h.emptyAll rfl
      · exact h
    | configChanged =>
      change s.configChanged.Buffered
      unfold configChanged
      split
      · exact h.emptyAll rfl
      · exact h
  · exact h

/-! ### Events of other connections -/

/-- The login puts nothing into the buffer. -/
theorem login_used_le (s : Server κ) (line ptoken : Text) :
    (s.login C line ptoken).buffer.used ≤ s.buffer.used := by
  unfold login
  split
  · exact Nat.zero_le _
  · split
    · exact Nat.zero_le _
    · split
      · exact Nat.zero_le _
      · exact Nat.le_refl _

/-- A line that is processed is out of the buffer. -/
theorem processServerMsg_used_le (s : Server κ) (ptoken : Text) (first : UInt8) :
    (s.processServerMsg C ptoken first).buffer.used ≤ s.buffer.readLine.1.used := by
  unfold processServerMsg
  dsimp only
  split
  · exact login_used_le C _ _ ptoken
  · split
    · exact Nat.zero_le _
    · split
      · exact Nat.le_refl _
      · rw [onMessage_buffer]

/-- What is received is in the buffer, unless it is nothing or too much. -/
theorem evRecv_unchanged_iff (s : Server κ) (nc : ℕ) (data : List UInt8) :
    Unchanged s (s.evRecv nc data) ↔ data = [] ∨ s.buffer.freeSpace < data.length := by
  by_cases hfull : s.buffer.freeSpace < data.length
  · have hpush : s.buffer.pushBlock data = (s.buffer, false) := if_pos hfull
    have hrecv : s.evRecv nc data = s := by
      unfold evRecv
      rw [hpush]
      rfl
    rw [hrecv]
    exact iff_of_true ⟨rfl, rfl, rfl, rfl⟩ (.inr hfull)
  · have hpush : s.buffer.pushBlock data =
        (data.foldl OvmsBuffer.store { s.buffer with used := s.buffer.used + data.length }, true) :=
      if_neg hfull
    have hrecv : s.evRecv nc data =
        { s with buffer := (s.buffer.pushBlock data).1, receiving := some nc } := by
      unfold evRecv
      rw [hpush]
      rfl
    have hstores : ∀ (bytes : List UInt8) (b : OvmsBuffer),
        (bytes.foldl OvmsBuffer.store b).used = b.used := by
      intro bytes
      induction bytes with
      | nil => exact fun _ => rfl
      | cons byte bytes ih => exact fun b => ih _
    rw [hrecv, hpush]
    constructor
    · rintro ⟨-, -, hbuffer, -⟩
      have hused : s.buffer.used + data.length = s.buffer.used :=
        (hstores data _).symm.trans (congrArg OvmsBuffer.used hbuffer)
      exact .inl (List.eq_nil_of_length_eq_zero (by omega))
    · rintro (rfl | hlt)
      · exact ⟨rfl, rfl, rfl, rfl⟩
      · exact absurd hlt hfull

/-- A close is harmless while the server waits for a reconnect. -/
theorem evClose_unchanged_iff (s : Server κ) :
    Unchanged s s.evClose ↔ s.state = .waitReconnect := by
  unfold evClose
  split
  · next hauth =>
    refine iff_of_false (fun h => ?_) (fun h => ?_)
    · have hstate : State.disconnected = s.state := h.1
      rw [hauth] at hstate
      cases hstate
    · rw [hauth] at h
      cases h
  · split
    · next hwait =>
      exact iff_of_false (fun h => hwait h.1.symm) hwait
    · next hwait => exact iff_of_true ⟨rfl, rfl, rfl, rfl⟩ (not_not.mp hwait)

/-- **An event of another connection changes nothing exactly when it is harmless.** -/
theorem unchanged_iff_harmless {s : Server κ} (hs : s.Buffered) {e : Event}
    (h : s.Superseded e) : Unchanged s (s.step C e) ↔ s.Harmless e := by
  obtain ⟨hhalted, hadmits, nc, hof, -⟩ := h
  have hstep : s.step C e = s.act C e := if_pos ⟨hhalted, hadmits⟩
  rw [hstep]
  cases e with
  | connectResult nc success token =>
    cases success with
    | true =>
      constructor
      · rintro ⟨hstate, hretry, -, -⟩
        exact ⟨hstate.symm, hretry.symm⟩
      · rintro ⟨hstate, hretry⟩
        exact ⟨hstate.symm, hretry.symm, rfl, rfl⟩
    | false =>
      constructor
      · rintro ⟨hstate, hretry, -, hconn⟩
        exact ⟨hstate.symm, hretry.symm, hconn.symm⟩
      · rintro ⟨hstate, hretry, hconn⟩
        exact ⟨hstate.symm, hretry.symm, rfl, hconn.symm⟩
  | close nc => exact evClose_unchanged_iff s
  | recv nc data => exact evRecv_unchanged_iff s nc data
  | line ptoken first =>
    refine iff_of_false (fun hunchanged => ?_) id
    obtain ⟨q, hq⟩ := hs
    have hlooping : (s.receiving.isSome && s.looping) = true := hadmits
    rw [looping, hq.hasLine, Bool.and_eq_true, Bool.and_eq_true] at hlooping
    obtain ⟨hl, hline⟩ := Option.isSome_iff_exists.mp hlooping.2.1
    have hlt := hq.readLine_used_lt hline
    have hle := processServerMsg_used_le C s ptoken first
    have hbuffer : (s.processServerMsg C ptoken first).buffer = s.buffer := hunchanged.2.2.1
    rw [hbuffer] at hle
    omega
  | recvDone => exact iff_of_true ⟨rfl, rfl, rfl, rfl⟩ trivial
  | _ => cases hof

/-- **Events of a superseded connection that do not touch the current one**: in a run, events of
connections other than the current one change neither the state, the retry counter, the buffer nor
the connection exactly when all of them are harmless. -/
theorem superseded_iff (config : Config) (rx : κ) (es : List Event) :
    Along (step C) (fun s e => s.Superseded e → Unchanged s (s.step C e)) (new config rx) es ↔
      Along (step C) (fun s e => s.Superseded e → s.Harmless e) (new config rx) es := by
  have hnew : (new config rx).Buffered := ⟨_, represents_new 1024⟩
  refine along_congr_of_invariant (I := Buffered) ?_ (fun s e hs _ => hs.step C e) hnew
  exact fun s e hs => forall_congr' fun h => unchanged_iff_harmless C hs h

/-- A configuration with all that `Connect` asks for. -/
def demo : Config := ⟨ascii "DEMO", ascii "server", ascii "secret", false, false, []⟩

/-- Ciphers that do nothing. -/
def noCiphers : Ciphers Unit :=
  ⟨fun _ _ => [], id, fun _ => (), fun _ line => (line, ()), fun _ _ _ => .ok .other⟩

/-- A connection is made, and then the network is reconfigured and a second one is made. -/
def twice : List Event :=
  let mg : Mongoose := ⟨true, false, true⟩
  [.connect demo mg, .connectResult 0 true [], .netReconfigured, .ticker1 true false demo mg,
    .ticker1 true false demo mg, .ticker1 true false demo mg]

/-- The second connection is given up when the first one is closed. -/
theorem superseded_close :
    ¬ ∀ (κ : Type) (C : Ciphers κ) (config : Config) (rx : κ) (es : List Event),
      Along (step C) (fun s e => s.Superseded e → Unchanged s (s.step C e)) (new config rx) es := by
  intro hall
  have hclose := along_iff.mp (hall Unit noCiphers demo () (twice ++ [.close 0])) twice (.close 0)
    [] rfl
  have hbefore : let s := twice.foldl (step noCiphers) (new demo ())
      s.halted = false ∧ s.admits (.close 0) = true ∧ s.mgconn ≠ some 0 ∧
        s.state = .connecting := by
    decide +kernel
  have hafter : ((twice.foldl (step noCiphers) (new demo ())).step noCiphers (.close 0)).state =
      .waitReconnect := by
    decide +kernel
  obtain ⟨hhalted, hadmits, hother, hstate⟩ := hbefore
  have hsame := (hclose ⟨hhalted, hadmits, 0, rfl, hother⟩).1
  rw [hafter, hstate] at hsame
  cases hsame

end Server

end Ovms.ServerV2
