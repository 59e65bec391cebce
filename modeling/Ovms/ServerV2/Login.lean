import Ovms.ServerV2.Connection

/-!
# Messages before the Login

`OvmsServerV2::ProcessServerMsg` tells a reply to the login from a message by its first bytes. It
does not ask whether there was a login: a message is one when it decrypts to `MP-0 `, with
whatever is in the cipher. That may be what an earlier connection left there, and before the first
login nothing was ever written to it.

A message is acted on behind a verified login when the lines that come before it do not decrypt to
messages, and when the callback is not called for a connection that was given up (nor for one that
failed after it was made). What carries the proof is that `ms_s_v2_connected` is set only while
the current connection is one that was verified.
-/

open Lib Ovms.Buffer

namespace Ovms.ServerV2

/-- The messages that make the server do something. -/
def Message.IsAct : Message → Prop
  | .ping | .peers _ | .dataAck _ | .command _ _ => True
  | .invalid | .other => False

namespace Server

variable {κ : Type} (C : Ciphers κ)

/-! ### What is acted on -/

/-- The next line. -/
def nextLine (s : Server κ) : Text := s.buffer.readLine.2

/-- What the next line is decrypted to. -/
def nextText (s : Server κ) : Text := (C.decrypt s.rx s.nextLine).1

/-- The next line is a message that is acted on. -/
def Acts (s : Server κ) (first : UInt8) : Prop :=
  s.nextLine.take 7 ≠ mps0 ∧ (s.nextText C).take 5 = mp0 ∧
    ∃ message : Message, C.read s.pdigest first (s.nextText C) = .ok message ∧ message.IsAct

/-- An event happens. -/
def Happens (s : Server κ) (e : Event) : Prop := s.halted = false ∧ s.admits e = true

/-- Within the events there was a line, received on the connection, that verified. -/
def VerifiedIn (s₀ : Server κ) (es : List Event) (nc : ℕ) : Prop :=
  ∃ early ptoken first late, es = early ++ .line ptoken first :: late ∧
    let s := early.foldl (step C) s₀
    s.Happens (.line ptoken first) ∧ s.receiving = some nc ∧ s.verifies C s.nextLine = true

/-- Whenever a line is acted on in a run, one has verified before that was received on the same
connection. -/
def Authenticated (s₀ : Server κ) (es : List Event) : Prop :=
  ∀ pre ptoken first post, es = pre ++ .line ptoken first :: post →
    let s := pre.foldl (step C) s₀
    s.Happens (.line ptoken first) → s.Acts C first →
      ∃ nc, s.receiving = some nc ∧ VerifiedIn C s₀ pre nc

/-- What must not happen does not: a connection fails while the server is logged in, something is
received on a connection that is not the current one, or a line stands for a message while the
server is not logged in. -/
def Guarded (s : Server κ) : Event → Prop
  | .connectResult _ success _ => success = true ∨ s.v2Connected = false
  | .recv nc _ => s.mgconn = some nc
  | .line _ _ =>
    s.v2Connected = true ∨ s.nextLine.take 7 = mps0 ∨ (s.nextText C).take 5 ≠ mp0
  | _ => True

instance (s : Server κ) : (e : Event) → Decidable (s.Guarded C e)
  | .connectResult _ _ _ | .line _ _ => inferInstanceAs (Decidable (_ ∨ _))
  | .recv _ _ => inferInstanceAs (Decidable (_ = _))
  | .close _ | .recvDone | .connect _ _ | .disconnect | .reconnect _ | .ticker1 _ _ _ _ | .netUp _
  | .netReconfigured | .netmanStop | .configChanged => isTrue trivial

/-! ### The lines that verify -/

/-- A reply to the login is noted exactly when it verifies. -/
theorem login_verified (s : Server κ) (line ptoken : Text) (hfront : line.take 7 = mps0) :
    (s.login C line ptoken).verified =
      if s.verifies C line = true then s.receiving.toList ++ s.verified else s.verified := by
  unfold login verifies
  rw [decide_eq_true hfront, Bool.true_and]
  cases replyOf line with
  | none => rfl
  | some reply =>
    obtain ⟨token, digest⟩ := reply
    by_cases htoken : s.token = token
    · simp [htoken, fail, reconnect]
    · by_cases hdigest : digest = C.base64encode (C.hmacMd5 token s.config.password)
      · simp [htoken, hdigest]
      · simp [htoken, hdigest, fail, reconnect]

theorem connect_spec (s : Server κ) (config : Config) (mg : Mongoose) :
    (s.connect config mg).v2Connected = s.v2Connected ∧
      (s.connect config mg).verified = s.verified ∧
      (s.connect config mg).receiving = s.receiving := by
  unfold connect
  dsimp only
  split_ifs <;> exact ⟨rfl, rfl, rfl⟩

/-! ### The step -/

/-- A login that the server knows of is one on the current connection, and what is received is
received on it. -/
structure LoggedIn (s : Server κ) : Prop where
  current : s.v2Connected = true → ∃ c, s.mgconn = some c ∧ c ∈ s.verified
  receiving : ∀ nc, s.receiving = some nc → ∀ c, s.mgconn = some c → c = nc

/-- The login is kept with its connection, or given up. -/
structure Keeps (s t : Server κ) : Prop where
  verified : t.verified = s.verified
  receiving : t.receiving = s.receiving
  current : t.v2Connected = true → s.v2Connected = true ∧ t.mgconn = s.mgconn

namespace Keeps

variable {s t u : Server κ}

theorem refl (s : Server κ) : Keeps s s := ⟨rfl, rfl, fun h => ⟨h, rfl⟩⟩

theorem trans (hst : Keeps s t) (htu : Keeps t u) : Keeps s u where
  verified := htu.verified.trans hst.verified
  receiving := htu.receiving.trans hst.receiving
  current h := by
    obtain ⟨ht, hu⟩ := htu.current h
    obtain ⟨hs, ht'⟩ := hst.current ht
    exact ⟨hs, hu.trans ht'⟩

theorem of_eq (hverified : t.verified = s.verified) (hreceiving : t.receiving = s.receiving)
    (hconnected : t.v2Connected = s.v2Connected) (hmgconn : t.mgconn = s.mgconn) : Keeps s t :=
  ⟨hverified, hreceiving, fun h => ⟨hconnected.symm.trans h, hmgconn⟩⟩

theorem ite (p : Prop) [Decidable p] (h : Keeps s t) : Keeps s (if p then t else s) := by
  split
  · exact h
  · exact refl s

theorem of_false (hverified : t.verified = s.verified) (hreceiving : t.receiving = s.receiving)
    (ht : t.v2Connected = false) : Keeps s t :=
  ⟨hverified, hreceiving, fun h => absurd (ht.symm.trans h) Bool.false_ne_true⟩

theorem reconnect (s : Server κ) (connretry : ℤ) : Keeps s (s.reconnect connretry) :=
  of_false rfl rfl rfl

theorem connect (h : Keeps s t) (ht : t.v2Connected = false) (config : Config) (mg : Mongoose) :
    Keeps s (t.connect config mg) := by
  obtain ⟨hconnected, hverified, hreceiving⟩ := connect_spec t config mg
  exact h.trans (of_false hverified hreceiving (hconnected.trans ht))

/-- What is kept is logged in, when nothing is received. -/
theorem loggedIn (h : Keeps s t) (hs : s.LoggedIn) (hnone : s.receiving = none) : t.LoggedIn where
  current ht := by
    obtain ⟨hconnected, hmgconn⟩ := h.current ht
    rw [hmgconn, h.verified]
    exact hs.current hconnected
  receiving nc hnc := by
    rw [h.receiving, hnone] at hnc
    cases hnc

end Keeps

theorem LoggedIn.v2Connected_eq_false {s : Server κ} (hs : s.LoggedIn) (hnone : s.mgconn = none) :
    s.v2Connected = false := by
  refine Bool.eq_false_iff.mpr fun h => ?_
  obtain ⟨c, hc, -⟩ := hs.current h
  rw [hnone] at hc
  cases hc

/-- A tick keeps the login, or gives it up. -/
theorem LoggedIn.keeps_ticker1 {s : Server κ} (hs : s.LoggedIn) (connectedAny stale : Bool)
    (config : Config) (mg : Mongoose) : Keeps s (s.ticker1 connectedAny stale config mg) := by
  have hretry : Keeps s (s.tickRetry connectedAny config mg) := by
    unfold tickRetry
    split
    · have hcount : Keeps s { s with connretry := s.connretry - 1 } := Keeps.of_eq rfl rfl rfl rfl
      dsimp only
      split
      · split
        · exact (hcount.trans (Keeps.reconnect _ 0)).connect rfl config mg
        · next hnone =>
          rw [Bool.not_eq_true, Option.isSome_eq_false_iff, Option.isNone_iff_eq_none] at hnone
          exact hcount.connect (hs.v2Connected_eq_false hnone) config mg
      · exact hcount
    · exact Keeps.refl s
  have hnetwork : Keeps s ((s.tickRetry connectedAny config mg).tickNetwork connectedAny) :=
    hretry.trans (Keeps.ite _ (Keeps.of_eq rfl rfl rfl rfl))
  exact hnetwork.trans (Keeps.ite _ (Keeps.of_false rfl rfl rfl))

/-- A login that verified is one on the current connection. -/
theorem LoggedIn.processServerMsg {s : Server κ} (hs : s.LoggedIn)
    (hline : s.receiving.isSome = true ∧ s.mgconn.isSome = true) (ptoken : Text) (first : UInt8) :
    (s.processServerMsg C ptoken first).LoggedIn := by
  obtain ⟨nc, hnc⟩ := Option.isSome_iff_exists.mp hline.1
  obtain ⟨c, hc⟩ := Option.isSome_iff_exists.mp hline.2
  have hcurrent : c = nc := hs.receiving nc hnc c hc
  have hgiven : ∀ t : Server κ, t.v2Connected = false → t.mgconn = none → t.LoggedIn := by
    intro t hconnected hnone
    refine ⟨fun h => absurd (hconnected.symm.trans h) Bool.false_ne_true, fun _ _ c hc => ?_⟩
    rw [hnone] at hc
    cases hc
  unfold Server.processServerMsg
  dsimp only
  split
  · unfold login
    split
    · exact hgiven _ rfl rfl
    · split
      · exact hgiven _ rfl rfl
      · split
        · exact hgiven _ rfl rfl
        · refine ⟨fun _ => ⟨c, hc, ?_⟩, hs.receiving⟩
          dsimp only
          rw [hnc, hcurrent]
          exact List.mem_append_left _ (List.mem_singleton_self nc)
  · split
    · exact hgiven _ rfl rfl
    · split
      · exact ⟨hs.current, hs.receiving⟩
      · next message _ => cases message <;> exact ⟨hs.current, hs.receiving⟩

/-- **A guarded step keeps the login with its connection.** -/
theorem loggedIn_step {s : Server κ} {e : Event} (hs : s.LoggedIn) (hg : s.Guarded C e) :
    (s.step C e).LoggedIn := by
  unfold step
  split
  · next hhappens =>
    have hadmits : s.admits e = true := hhappens.2
    cases e with
    | connectResult nc success token =>
      have hnone : s.receiving = none := by
        simpa using (Bool.and_eq_true_iff.mp hadmits).1
      cases success with
      | true =>
        have hkeeps : Keeps s (s.evConnect true token) := Keeps.of_eq rfl rfl rfl rfl
        exact hkeeps.loggedIn hs hnone
      | false =>
        have hout : s.v2Connected = false := hg.resolve_left Bool.false_ne_true
        have hkeeps : Keeps s (s.evConnect false token) := Keeps.of_false rfl rfl hout
        exact hkeeps.loggedIn hs hnone
    | close nc =>
      have hnone : s.receiving = none := by
        simpa using (Bool.and_eq_true_iff.mp hadmits).1
      have hkeeps : Keeps s s.evClose := by
        unfold evClose
        split
        · exact Keeps.of_false rfl rfl rfl
        · split
          · exact Keeps.of_false rfl rfl rfl
          · exact Keeps.refl s
      exact hkeeps.loggedIn hs hnone
    | recv nc data =>
      have hcurrent : s.mgconn = some nc := hg
      change (s.evRecv nc data).LoggedIn
      unfold evRecv
      dsimp only
      split
      · refine ⟨hs.current, fun nc' hnc c hc => ?_⟩
        have hc' : s.mgconn = some c := hc
        rw [hcurrent] at hc'
        exact (Option.some.inj hc').symm.trans (Option.some.inj hnc)
      · exact hs
    | line ptoken first =>
      have hline := Bool.and_eq_true_iff.mp hadmits
      rw [looping, Bool.and_eq_true] at hline
      exact hs.processServerMsg C ⟨hline.1, hline.2.2⟩ ptoken first
    | recvDone => exact ⟨hs.current, fun nc hnc => absurd hnc (by simp [act])⟩
    | connect config mg =>
      have hfree : s.receiving = none ∧ s.mgconn = none := by
        simpa using Bool.and_eq_true_iff.mp hadmits
      have hkeeps := (Keeps.refl s).connect (hs.v2Connected_eq_false hfree.2) config mg
      exact hkeeps.loggedIn hs hfree.1
    | disconnect => exact (Keeps.reconnect s 0).loggedIn hs (Option.isNone_iff_eq_none.mp hadmits)
    | reconnect connretry =>
      exact (Keeps.reconnect s connretry).loggedIn hs (Option.isNone_iff_eq_none.mp hadmits)
    | ticker1 connectedAny stale config mg =>
      have hkeeps := hs.keeps_ticker1 connectedAny stale config mg
      exact hkeeps.loggedIn hs (Option.isNone_iff_eq_none.mp hadmits)
    | netUp up =>
      have hkeeps : Keeps s (s.netUp up) := Keeps.ite _ (Keeps.of_eq rfl rfl rfl rfl)
      exact hkeeps.loggedIn hs (Option.isNone_iff_eq_none.mp hadmits)
    | netReconfigured =>
      have hkeeps : Keeps s s.netReconfigured := Keeps.ite _ (Keeps.of_false rfl rfl rfl)
      exact hkeeps.loggedIn hs (Option.isNone_iff_eq_none.mp hadmits)
    | netmanStop =>
      have hkeeps : Keeps s s.netmanStop := Keeps.ite _ (Keeps.of_false rfl rfl rfl)
      exact hkeeps.loggedIn hs (Option.isNone_iff_eq_none.mp hadmits)
    | configChanged =>
      have hkeeps : Keeps s s.configChanged := Keeps.ite _ (Keeps.of_false rfl rfl rfl)
      exact hkeeps.loggedIn hs (Option.isNone_iff_eq_none.mp hadmits)
  · exact hs

/-! ### The run -/

/-- A tick verifies nothing. -/
theorem ticker1_verified (s : Server κ) (connectedAny stale : Bool) (config : Config)
    (mg : Mongoose) : (s.ticker1 connectedAny stale config mg).verified = s.verified := by
  have hretry : (s.tickRetry connectedAny config mg).verified = s.verified := by
    unfold tickRetry
    split
    · dsimp only
      split
      · split <;> exact (connect_spec _ config mg).2.1
      · rfl
    · rfl
  have hnetwork :
      ((s.tickRetry connectedAny config mg).tickNetwork connectedAny).verified = s.verified := by
    unfold tickNetwork
    split <;> exact hretry
  unfold ticker1
  dsimp only
  split <;> exact hnetwork

/-- Only a line that verifies makes a connection one that was verified. -/
theorem mem_verified_step {s : Server κ} {e : Event} {nc : ℕ}
    (h : nc ∈ (s.step C e).verified) :
    nc ∈ s.verified ∨ ∃ ptoken first, e = .line ptoken first ∧ s.Happens e ∧
      s.receiving = some nc ∧ s.verifies C s.nextLine = true := by
  unfold step at h
  split at h
  · next hhappens =>
    cases e with
    | line ptoken first =>
      change nc ∈ (s.processServerMsg C ptoken first).verified at h
      unfold processServerMsg at h
      dsimp only at h
      split at h
      · next hfront =>
        rw [login_verified C _ _ ptoken hfront] at h
        split at h
        · next hverifies =>
          rcases List.mem_append.mp h with hnc | hnc
          · exact .inr ⟨ptoken, first, rfl, hhappens, Option.mem_toList.mp hnc, hverifies⟩
          · exact .inl hnc
        · exact .inl h
      · split at h
        · exact .inl h
        · split at h
          · exact .inl h
          · next message _ => cases message <;> exact .inl h
    | connectResult nc success token => cases success <;> exact .inl h
    | close nc =>
      simp only [act, evClose] at h
      split_ifs at h <;> exact .inl h
    | recv nc data =>
      simp only [act, evRecv] at h
      split_ifs at h <;> exact .inl h
    | connect config mg => exact .inl ((connect_spec s config mg).2.1 ▸ h)
    | ticker1 connectedAny stale config mg =>
      exact .inl (ticker1_verified s connectedAny stale config mg ▸ h)
    | netUp up =>
      simp only [act, netUp] at h
      split_ifs at h <;> exact .inl h
    | netReconfigured =>
      simp only [act, netReconfigured] at h
      split_ifs at h <;> exact .inl h
    | netmanStop =>
      simp only [act, netmanStop] at h
      split_ifs at h <;> exact .inl h
    | configChanged =>
      simp only [act, configChanged] at h
      split_ifs at h <;> exact .inl h
    | recvDone | disconnect | reconnect _ => exact .inl h
  · exact .inl h

/-- A connection that was verified in a run is one on which a line verified. -/
theorem verifiedIn_of_mem {s₀ : Server κ} {nc : ℕ} (es : List Event)
    (h : nc ∈ (es.foldl (step C) s₀).verified) (hnew : nc ∉ s₀.verified) :
    VerifiedIn C s₀ es nc := by
  induction es using List.reverseRecOn with
  | nil => exact absurd h hnew
  | append_singleton es e ih =>
    rw [List.foldl_append] at h
    rcases mem_verified_step C h with hmem | ⟨ptoken, first, rfl, hhappens, hnc, hverifies⟩
    · obtain ⟨early, ptoken, first, late, rfl, hline⟩ := ih hmem
      exact ⟨early, ptoken, first, late ++ [e], by simp, hline⟩
    · exact ⟨es, ptoken, first, [], rfl, hhappens, hnc, hverifies⟩

/-- **No server command before authentication**, in a run of guarded steps: for all ciphers, all
bytes and every order of what happens, a line is acted on as a message only if one with a digest
that verified was received before on the same connection. -/
theorem authenticated_of_guarded (config : Config) (rx : κ) (es : List Event)
    (h : Along (step C) (Guarded C) (new config rx) es) :
    Authenticated C (new config rx) es := by
  rintro pre ptoken first post rfl s hhappens ⟨hfront, hmp, -⟩
  obtain ⟨hpre, hline, -⟩ := along_append.mp h
  have hnew : (new config rx).LoggedIn :=
    ⟨fun hconnected => absurd hconnected Bool.false_ne_true, fun nc hnc => by cases hnc⟩
  have hs : s.LoggedIn := hpre.invariant (fun s e => loggedIn_step C) hnew
  have hconnected : s.v2Connected = true := by
    rcases hline with hconnected | hreply | hinvalid
    · exact hconnected
    · exact absurd hreply hfront
    · exact absurd hmp hinvalid
  obtain ⟨c, hc, hmem⟩ := hs.current hconnected
  obtain ⟨nc, hnc⟩ := Option.isSome_iff_exists.mp (Bool.and_eq_true_iff.mp hhappens.2).1
  obtain rfl : c = nc := hs.receiving nc hnc c hc
  exact ⟨c, hnc, verifiedIn_of_mem C pre hmem List.not_mem_nil⟩

/-- Ciphers that do not change a text, with a digest that is the text and the key. -/
def plainCiphers : Ciphers Unit :=
  ⟨fun text key => text ++ key, Crypt.base64encode, fun _ => (), fun _ line => (line, ()),
    readMessage⟩

/-- A login, and a ping. -/
def session : List Event :=
  [.connect demo ⟨true, false, true⟩, .connectResult 0 true (ascii "mine"),
    .recv 0 (mps0 ++ ascii "token " ++ Crypt.base64encode (ascii "tokensecret") ++ [13, 10]),
    .line [] 0, .recvDone, .recv 0 (ascii "MP-0 A" ++ [13, 10]), .line [] 0, .recvDone]

theorem authenticated_session :
    Along (step plainCiphers) (Guarded plainCiphers) (new demo ()) session ∧
      Authenticated plainCiphers (new demo ()) session := by
  have hguarded : Along (step plainCiphers) (Guarded plainCiphers) (new demo ()) session := by
    decide +kernel
  exact ⟨hguarded, authenticated_of_guarded plainCiphers demo () session hguarded⟩

/-- A first connection on which a ping is received. -/
def intruder : List Event :=
  [.connect demo ⟨true, false, true⟩, .connectResult 0 true (ascii "mine"),
    .recv 0 (Crypt.base64encode (ascii "MP-0 A") ++ [13, 10])]

/-- A cipher of zeros, which was never set up, changes nothing: the ping is answered. -/
theorem ping_before_login :
    ¬ ∀ (κ : Type) (C : Ciphers κ) (config : Config) (rx : κ) (es : List Event),
      Authenticated C (new config rx) es := by
  intro hall
  let C : Ciphers Crypt.Rc4 := rc4Ciphers fun _ _ => []
  have hping := hall Crypt.Rc4 C demo ⟨0, 0, fun _ => 0⟩ (intruder ++ [.line [] 0]) intruder [] 0
    [] rfl
  have hhappens : let s := intruder.foldl (step C) (new demo ⟨0, 0, fun _ => 0⟩)
      s.halted = false ∧ s.admits (.line [] 0) = true := by
    decide +kernel
  have hacts : let s := intruder.foldl (step C) (new demo ⟨0, 0, fun _ => 0⟩)
      s.nextLine.take 7 ≠ mps0 ∧ (s.nextText C).take 5 = mp0 ∧
        C.read s.pdigest 0 (s.nextText C) = .ok .ping := by
    decide +kernel
  obtain ⟨hfront, hmp, hread⟩ := hacts
  obtain ⟨nc, -, early, ptoken, first, late, hearly, -⟩ :=
    hping hhappens ⟨hfront, hmp, .ping, hread, trivial⟩
  have hmem : Event.line ptoken first ∈ intruder :=
    hearly ▸ List.mem_append_right early List.mem_cons_self
  simp [intruder] at hmem

end Server

end Ovms.ServerV2
