import Ovms.ServerV3.Connection

/-!
# Reconnecting to a Server V3 when the Configuration Changes

`ConfigChanged` compares what is set with the members that `Connect` has filled. `Connect` has put
defaults into them, for what is not set. So a setting that is left to its default looks changed at
every change of the parameter: the connection is given up, and a suspension after rejected
credentials is lifted. When a configuration is mounted only the instances of `server.v3` are
compared, not the password.

## Main results

* `Settled.step`: while there is a connection or a suspension, the configuration is the one that
  the last `Connect` used.
* `reconnectsRightly_along`: changes of the configuration have the right effect along a run exactly
  when none of them meets the defects.
-/

open Lib

namespace Ovms.ServerV3

/-! ### What should hold -/

/-- A current connection is given up, or a suspension is lifted. -/
def Acts (s s' : OvmsServerV3) : Prop :=
  (s.mgconn ≠ none ∧ s'.mgconn = none) ∨ (s.connretry < 0 ∧ 0 ≤ s'.connretry)

/-- There is a connection or a suspension. -/
def OvmsServerV3.Live (s : OvmsServerV3) : Prop := s.mgconn ≠ none ∨ s.connretry < 0

/-- A change of the configuration acts exactly if there is a connection or a suspension, and an
effective setting is not the one in use. With credentials that were rejected there is no other
`Connect`. -/
def ReconnectsRightly (s : OvmsServerV3) (e : Event) : Prop :=
  ∀ s', s.step e = some s' →
    (∀ p c, e = .configChanged p c → (Acts s s' ↔ s.Live ∧ c.effective ≠ s.used)) ∧
      (s.rejected = true → s'.calls = s.calls)

/-- A setting is left to its default, which is not empty. -/
def Config.Defaulted (c : Config) : Prop :=
  c.settings.port = [] ∨ c.settings.topicPrefix = [] ∨ (c.settings.clientid = [] ∧ c.vehicleid ≠ [])

/-- The comparison is right where there is a connection or a suspension. A change of `server.v3` to
the effective settings in use leaves none of them to a default. When a configuration is mounted,
the password is not the only one that is new. -/
def ComparesRightly (s : OvmsServerV3) : Event → Prop
  | .configChanged (some .password) _ => True
  | .configChanged (some .serverV3) c =>
      s.config.Changes (some .serverV3) c → s.Live → c.effective = s.used → ¬ c.Defaulted
  | .configChanged none c =>
      s.config.Changes none c → s.Live → (c.effective = s.used → ¬ c.Defaulted) ∧
        (c.settings.SameServer s.used → c.settings.password = s.used.password)
  | _ => True

/-- While there is a connection or a suspension, the configuration is the one in use. -/
structure Settled (s : OvmsServerV3) : Prop extends Linked s where
  effective : s.Live → s.config.effective = s.used
  rejected : s.rejected = true → s.mgconn = none ∧ s.connretry < 0

/-! ### Defaults -/

variable {s s' : OvmsServerV3} {c : Config}

theorem ascii_ne_nil {t : String} (h : t.toList ≠ []) : ascii t ≠ [] := by
  rw [ascii, ne_eq, List.map_eq_nil_iff]
  exact h

theorem effective_port_ne_nil (c : Config) : c.effective.port ≠ [] := by
  rw [Config.effective]
  dsimp only
  split
  · split <;> exact ascii_ne_nil (by simp)
  · assumption

theorem effective_topicPrefix_ne_nil (c : Config) : c.effective.topicPrefix ≠ [] := by
  rw [Config.effective]
  dsimp only
  split
  · have hascii : ascii "ovms/" ≠ [] := ascii_ne_nil (by simp)
    simp [hascii]
  · assumption

/-- What is set is what is used, unless something is left to a default. -/
theorem effective_eq_iff (c : Config) : c.effective = c.settings ↔ ¬ c.Defaulted := by
  have hport : c.effective.port = c.settings.port ↔ c.settings.port ≠ [] := by
    refine ⟨fun h hnil => effective_port_ne_nil c (h.trans hnil), fun h => ?_⟩
    rw [Config.effective]
    exact if_neg h
  have htopic : c.effective.topicPrefix = c.settings.topicPrefix ↔
      c.settings.topicPrefix ≠ [] := by
    refine ⟨fun h hnil => effective_topicPrefix_ne_nil c (h.trans hnil), fun h => ?_⟩
    rw [Config.effective]
    exact if_neg h
  have hclient : c.effective.clientid = c.settings.clientid ↔
      ¬ (c.settings.clientid = [] ∧ c.vehicleid ≠ []) := by
    rw [Config.effective]
    dsimp only
    split
    · next hnil => simp [hnil]
    · next hset => simp [hset]
  rw [Config.Defaulted, not_or, not_or, ← ne_eq, ← ne_eq, ← hport, ← htopic, ← hclient]
  constructor
  · intro h
    rw [h]
    exact ⟨rfl, rfl, rfl⟩
  · rintro ⟨hp, ht, hc⟩
    rw [Config.effective] at hp ht hc ⊢
    dsimp only at hp ht hc
    rw [hp, ht, hc]

/-- Two configurations of one vehicle have the same effective settings, if what is set in the one is
what the other uses, but the password. -/
theorem effective_of_sameServer {c' : Config} (hid : c'.vehicleid = c.vehicleid)
    (h : c'.settings.SameServer c.effective) : ¬ c'.Defaulted := by
  obtain ⟨-, hport, -, -, hclient, htopic⟩ := h
  rintro (hnil | hnil | ⟨hnil, hvehicle⟩)
  · exact effective_port_ne_nil c (hport.symm.trans hnil)
  · exact effective_topicPrefix_ne_nil c (htopic.symm.trans hnil)
  · rw [hnil, Config.effective] at hclient
    dsimp only at hclient
    split at hclient
    · exact hvehicle (hid.trans hclient.symm)
    · next hset => exact hset hclient.symm

/-! ### The comparison -/

theorem Settings.eq_of_sameServer {a b : Settings} (h : a.SameServer b)
    (hpassword : a.password = b.password) : a = b := by
  obtain ⟨hserver, hport, htls, huser, hclient, htopic⟩ := h
  cases a
  cases b
  simp_all

theorem Settings.sameServer_refl (a : Settings) : a.SameServer a :=
  ⟨rfl, rfl, rfl, rfl, rfl, rfl⟩

/-- What is set is compared with the settings that another configuration has led to. -/
theorem sameServer_iff_effective {c' : Config} (hid : c'.vehicleid = c.vehicleid) :
    (c'.settings.SameServer c.effective ↔ c'.effective = c.effective) ↔
      (c'.effective = c.effective → ¬ c'.Defaulted) ∧
        (c'.settings.SameServer c.effective → c'.settings.password = c.effective.password) := by
  have hset : c'.settings.SameServer c.effective → c'.effective = c'.settings :=
    fun hsame => (effective_eq_iff c').mpr (effective_of_sameServer hid hsame)
  constructor
  · intro h
    refine ⟨fun heq => effective_of_sameServer hid (h.mpr heq), fun hsame => ?_⟩
    rw [← h.mp hsame, hset hsame]
  · rintro ⟨hdefault, hpassword⟩
    constructor
    · intro hsame
      rw [hset hsame]
      exact Settings.eq_of_sameServer hsame (hpassword hsame)
    · intro heq
      rw [← heq, (effective_eq_iff c').mpr (hdefault heq)]
      exact Settings.sameServer_refl _

theorem effective_of_password {c' : Config} (h : c.Changes (some .password) c') :
    c'.effective = { c.effective with password := c'.settings.password } := by
  obtain ⟨hid, ⟨hserver, hport, htls, huser, hclient, htopic⟩, -⟩ := h
  rw [Config.effective, Config.effective]
  simp only [hid, hserver, hport, htls, huser, hclient, htopic]

/-- With a connection or a suspension the comparison is right exactly when the change does not meet
the defects. -/
theorem needsReconnect_iff (h : s.Live → s.config.effective = s.used) (hlive : s.Live)
    {p : Option Param} (hchange : s.config.Changes p c) {t : OvmsServerV3} (hconfig : t.config = c)
    (hused : t.used = s.used) :
    (t.NeedsReconnect p ↔ c.effective ≠ s.used) ↔ ComparesRightly s (.configChanged p c) := by
  have heq := h hlive
  cases p with
  | none =>
      have hiff := sameServer_iff_effective hchange.1
      rw [heq] at hiff
      rw [OvmsServerV3.NeedsReconnect, hconfig, hused, ne_eq, not_iff_not, hiff]
      · exact ⟨fun hright _ _ => hright, fun hright => hright hchange hlive⟩
      · exact fun hp => by cases hp
  | some param =>
      cases param with
      | serverV3 =>
          have hiff := sameServer_iff_effective hchange.1
          have hpassword : c.settings.password = s.used.password := by
            rw [← heq]
            exact hchange.2
          rw [heq] at hiff
          rw [OvmsServerV3.NeedsReconnect, hconfig, hused, ne_eq, not_iff_not, hiff]
          · exact ⟨fun hright _ _ => hright.1,
              fun hright => ⟨hright hchange hlive, fun _ => hpassword⟩⟩
          · exact fun hp => by cases hp
      | password =>
          refine iff_of_true ?_ trivial
          rw [OvmsServerV3.NeedsReconnect, hconfig, hused, effective_of_password hchange, heq]
          refine not_congr ⟨fun hsame => ?_, fun hsame => ?_⟩
          · rw [hsame]
          · rw [← hsame]

/-! ### Handlers -/

theorem disconnect_keeps (s : OvmsServerV3) : s.disconnect.mgconn = none ∧
    s.disconnect.config = s.config ∧ s.disconnect.used = s.used ∧ s.disconnect.calls = s.calls ∧
    s.disconnect.rejected = s.rejected := by
  rw [disconnect_eq]
  exact ⟨rfl, rfl, rfl, rfl, rfl⟩

/-- What `ConfigChanged` does. -/
theorem configChanged_cases (p : Option Param) (s : OvmsServerV3) :
    (s.NeedsReconnect p ∧ s.Live ∧ (s.configChanged p).mgconn = none ∧
        0 ≤ (s.configChanged p).connretry ∨
      ¬ (s.NeedsReconnect p ∧ s.Live) ∧ (s.configChanged p).mgconn = s.mgconn ∧
        (s.configChanged p).connretry = s.connretry) ∧
      (s.configChanged p).config = s.config ∧ (s.configChanged p).used = s.used ∧
      (s.configChanged p).calls = s.calls ∧ (s.configChanged p).rejected = s.rejected := by
  obtain ⟨t, ht, hneeds, hlive, hmgconn, hretry, hconfig, hused, hcalls, hrejected⟩ :
      ∃ t, t = (if p = some .password then s else s.readTimings) ∧
        (t.NeedsReconnect p ↔ s.NeedsReconnect p) ∧ (t.Live ↔ s.Live) ∧ t.mgconn = s.mgconn ∧
        t.connretry = s.connretry ∧ t.config = s.config ∧ t.used = s.used ∧ t.calls = s.calls ∧
        t.rejected = s.rejected := by
    refine ⟨_, rfl, ?_⟩
    split
    · exact ⟨Iff.rfl, Iff.rfl, rfl, rfl, rfl, rfl, rfl, rfl⟩
    · exact ⟨Iff.rfl, Iff.rfl, rfl, rfl, rfl, rfl, rfl, rfl⟩
  rw [OvmsServerV3.configChanged, ← ht, ← hneeds, ← hlive, ← hmgconn, ← hretry, ← hconfig, ← hused,
    ← hcalls, ← hrejected]
  dsimp only
  split
  · next hacts =>
      obtain ⟨hnone, hsame⟩ := disconnect_keeps t
      generalize t.disconnect = d at hnone hsame
      split
      · exact ⟨.inl ⟨hacts.1, hacts.2, hnone, Int.natCast_nonneg 2⟩, hsame⟩
      · next hretry => exact ⟨.inl ⟨hacts.1, hacts.2, hnone, Int.not_lt.mp hretry⟩, hsame⟩
  · next hkeeps => exact ⟨.inr ⟨hkeeps, rfl, rfl⟩, rfl, rfl, rfl, rfl⟩

/-- A change of the configuration acts exactly if there is something to act on, and the comparison
says so. -/
theorem acts_configChanged_iff (p : Option Param) (s : OvmsServerV3) :
    Acts s (s.configChanged p) ↔ s.Live ∧ s.NeedsReconnect p := by
  obtain ⟨⟨hneeds, hlive, hmgconn, hretry⟩ | ⟨hkeeps, hmgconn, hretry⟩, -⟩ :=
    configChanged_cases p s
  · exact iff_of_true (hlive.imp (⟨·, hmgconn⟩) (⟨·, hretry⟩)) ⟨hlive, hneeds⟩
  · refine iff_of_false ?_ fun h => hkeeps h.symm
    rw [Acts, hmgconn, hretry]
    rintro (⟨hsome, hnone⟩ | ⟨hneg, hpos⟩)
    · exact hsome hnone
    · omega

theorem Settled.idle (h : Linked s) (hmgconn : s.mgconn = none) (hretry : 0 ≤ s.connretry)
    (hrejected : s.rejected = false) : Settled s where
  toLinked := h
  effective hlive := absurd hlive (not_or.mpr ⟨not_not.mpr hmgconn, by omega⟩)
  rejected hr := absurd (hrejected.symm.trans hr) Bool.false_ne_true

theorem Settled.not_rejected (h : Settled s) (hlive : s.mgconn ≠ none ∨ 0 ≤ s.connretry) :
    s.rejected = false := by
  rw [Bool.eq_false_iff]
  intro hrejected
  obtain ⟨hmgconn, hretry⟩ := h.rejected hrejected
  exact hlive.elim (fun hsome => hsome hmgconn) (by omega)

theorem Settled.disconnect (h : Settled s) : Settled s.disconnect where
  toLinked := h.toLinked.disconnect
  effective hlive := by
    rw [disconnect_eq, OvmsServerV3.Live] at hlive
    dsimp only at hlive
    rw [disconnect_eq]
    refine h.effective (.inr ?_)
    have hneg := hlive.resolve_left (not_not.mpr rfl)
    split at hneg <;> omega
  rejected hrejected := by
    rw [disconnect_eq] at hrejected ⊢
    obtain ⟨-, hretry⟩ := h.rejected hrejected
    exact ⟨rfl, by dsimp only; rwa [if_neg (by omega)]⟩

/-- `Connect` is called where there is neither a connection nor a suspension. -/
theorem Settled.connect (h : Settled s) (hnone : s.mgconn = none) (hretry : 0 ≤ s.connretry)
    (o : Outcome) : Settled (s.connect o) := by
  have hlinked := h.toLinked.connect hnone o
  have hrejected := h.not_rejected (.inr hretry)
  obtain ⟨used, msgid, ⟨mgconn, seconds, hmgconn, hseconds, hconnect⟩ | ⟨hused, hconnect⟩⟩ :=
    connect_cases o s
  · rw [hconnect] at hlinked ⊢
    refine .idle hlinked ?_ (Int.le_of_lt hseconds) hrejected
    exact hmgconn.elim (fun heq => heq.trans hnone) id
  · rw [hconnect] at hlinked ⊢
    exact ⟨hlinked, fun _ => hused.symm,
      fun hr => absurd (hrejected.symm.trans hr) Bool.false_ne_true⟩

theorem Settled.netUp (h : Settled s) (running : Bool) (o : Outcome) :
    Settled (s.netUp running o) := by
  rw [OvmsServerV3.netUp]
  split
  · next hup => exact h.connect hup.1 hup.2.2 o
  · exact h

theorem Settled.netDown (h : Settled s) : Settled s.netDown := by
  rw [OvmsServerV3.netDown]
  split
  · exact h.disconnect
  · exact h

theorem Settled.giveUp (h : Settled s) (hlive : s.mgconn ≠ none ∨ 0 ≤ s.connretry) {seconds : ℤ}
    (hseconds : 0 ≤ seconds) : Settled (s.disconnect.retryIn seconds) :=
  .idle (h.toLinked.disconnect.retryIn seconds) (disconnect_mgconn s) hseconds
    ((disconnect_keeps s).2.2.2.2.trans (h.not_rejected hlive))

theorem Settled.netReconfigured (h : Settled s) : Settled s.netReconfigured := by
  rw [OvmsServerV3.netReconfigured]
  split
  · next hretry => exact h.giveUp (.inr hretry) (Int.natCast_nonneg 10)
  · exact h

theorem Settled.counters (h : Settled s) (available : Bool) (counter jitter : ℤ) :
    Settled { s with
      connectionAvailable := available, connectionCounter := counter, connectJitter := jitter } :=
  ⟨⟨h.live, h.current, h.fresh, h.connected⟩, h.effective, h.rejected⟩

/-- The first part of the ticker chooses a jitter and counts; it may also give up a connection. -/
theorem Settled.watchNetwork (h : Settled s) (available : Bool) (random : ℕ) :
    Settled (s.watchNetwork available random) := by
  have havailable := h.counters available s.connectionCounter s.connectJitter
  rw [OvmsServerV3.watchNetwork]
  generalize { s with connectionAvailable := available } = t at havailable ⊢
  split
  · rw [OvmsServerV3.loseNetwork]
    dsimp only
    split
    · next hsome =>
        have hdrop := (havailable.giveUp (.inl hsome) (Int.natCast_nonneg 10))
        exact hdrop.counters t.disconnect.connectionAvailable 0 (-1)
    · exact havailable.counters t.connectionAvailable 0 (-1)
  · have hjitter : Settled (t.pickJitter random) := by
      rw [OvmsServerV3.pickJitter]
      split
      · exact havailable.counters t.connectionAvailable t.connectionCounter _
      · exact havailable
    rw [OvmsServerV3.countStable]
    split
    · exact hjitter.counters (t.pickJitter random).connectionAvailable _
        (t.pickJitter random).connectJitter
    · exact hjitter

theorem Settled.retry (h : Settled s) (hretry : s.connretry = 0) (random : ℕ) (o : Outcome) :
    Settled (s.retry random o) := by
  have ht : Settled (if s.mgconn ≠ none then s.disconnect else s) ∧
      (if s.mgconn ≠ none then s.disconnect else s).connretry = 0 := by
    split
    · refine ⟨h.disconnect, ?_⟩
      rw [disconnect_eq, hretry]
      rfl
    · exact ⟨h, hretry⟩
  have hnone := h.toLinked.disconnectIf.2
  rw [OvmsServerV3.retry]
  generalize (if s.mgconn ≠ none then s.disconnect else s) = t at ht hnone ⊢
  have hjitter : ∀ jitter, Settled { t with connectJitter := jitter } := fun _ =>
    ⟨⟨ht.1.live, ht.1.current, ht.1.fresh, ht.1.connected⟩, ht.1.effective, ht.1.rejected⟩
  refine Settled.connect (hjitter _) ?_ ?_ o
  · exact hnone
  · exact Int.le_of_eq ht.2.symm

theorem Settled.tryConnect (h : Settled s) (random : ℕ) (o : Outcome) :
    Settled (s.tryConnect random o) := by
  rw [OvmsServerV3.tryConnect]
  split
  · next hfirst => exact h.connect hfirst.2.2.2 (Int.le_of_eq hfirst.1.symm) o
  · split
    · next hretry =>
        have hcount : Settled { s with connretry := s.connretry - 1 } := by
          refine ⟨⟨h.live, h.current, h.fresh, h.connected⟩, fun hlive => ?_, fun hrejected => ?_⟩
          · refine h.effective (hlive.imp id fun hneg => ?_)
            dsimp only at hneg
            omega
          · have hneg := (h.rejected hrejected).2
            omega
        dsimp only
        split
        · next hnow => exact hcount.retry hnow.1 random o
        · exact hcount
    · exact h

theorem Settled.onConnect (h : Settled s) {n : ℕ} (hn : s.status n = .connecting) (success : Bool) :
    Settled (s.onConnect n success) := by
  have hlinked := h.toLinked.onConnect hn success
  have hcurrent : s.mgconn ≠ none := by
    rw [h.live n (.inl hn)]
    exact Option.some_ne_none n
  rw [OvmsServerV3.onConnect] at hlinked ⊢
  split
  · next hsuccess =>
      rw [if_pos hsuccess] at hlinked
      exact ⟨hlinked, h.effective, h.rejected⟩
  · next hfail =>
      rw [if_neg hfail] at hlinked
      exact .idle hlinked rfl (Int.natCast_nonneg 30) (h.not_rejected (.inl hcurrent))

/-- When the credentials are rejected, the configuration is still the one in use. -/
theorem Settled.onConnack (h : Settled s) {n : ℕ} (hn : s.status n = .established) (code : UInt8) :
    Settled (s.onConnack n code) := by
  have hlinked := h.toLinked.onConnack hn code
  have hcurrent : s.mgconn ≠ none := by
    rw [h.live n (.inr hn)]
    exact Option.some_ne_none n
  obtain ⟨hnone, hconfig, hused, -⟩ := disconnect_keeps s
  rw [OvmsServerV3.onConnack] at hlinked ⊢
  split
  · next hcode =>
      rw [if_pos hcode] at hlinked
      split
      · exact h.giveUp (.inl hcurrent) (Int.natCast_nonneg 30)
      · next hrejects =>
          rw [if_neg hrejects] at hlinked
          refine ⟨hlinked, fun _ => ?_, fun _ => ⟨hnone, Int.negSucc_lt_zero 0⟩⟩
          exact (congrArg Config.effective hconfig).trans
            ((h.effective (.inl hcurrent)).trans hused.symm)
  · next hcode =>
      rw [if_neg hcode] at hlinked
      exact ⟨hlinked, h.effective, h.rejected⟩

theorem Settled.onClose (h : Settled s) {n : ℕ} (hn : s.Open n) : Settled (s.onClose n) := by
  have hlinked := h.toLinked.onClose hn
  rw [OvmsServerV3.onClose] at hlinked ⊢
  split
  · next hsome =>
      rw [if_pos hsome] at hlinked
      have hgiveUp := h.giveUp (.inl hsome) (Int.natCast_nonneg 60)
      exact ⟨hlinked, hgiveUp.effective, hgiveUp.rejected⟩
  · next hnone =>
      rw [if_neg hnone] at hlinked
      exact ⟨hlinked, h.effective, h.rejected⟩

/-! ### Runs -/

/-- A change of the configuration keeps the state settled, if it does not meet the defects. -/
theorem Settled.reconfigure (h : Settled s) {p : Option Param} (hchange : s.config.Changes p c)
    (hright : ComparesRightly s (.configChanged p c)) : Settled (s.reconfigure p c) := by
  have hlinked : Linked (s.configured c) := ⟨h.live, h.current, h.fresh, h.connected⟩
  have hneeds : s.Live → ((s.configured c).NeedsReconnect p ↔ c.effective ≠ s.used) := fun hlive =>
    (needsReconnect_iff h.effective hlive hchange (t := s.configured c) rfl rfl).mpr hright
  obtain ⟨⟨hacts, hlive, hnone, hretry⟩ | ⟨hkeeps, hmgconn, hretry⟩, hconfig, hused, -,
    hrejected⟩ := configChanged_cases p (s.configured c)
  · -- The settings are others, so nothing is rejected any more.
    refine .idle (hlinked.configChanged p) hnone hretry (hrejected.trans ?_)
    rw [OvmsServerV3.configured, decide_eq_false ((hneeds hlive).mp hacts), Bool.and_false]
  · refine ⟨hlinked.configChanged p, fun hlive => ?_, fun htrejected => ?_⟩
    · have hlive : s.Live := by
        rwa [OvmsServerV3.Live, OvmsServerV3.reconfigure, hmgconn, hretry] at hlive
      have hsame := (not_congr (hneeds hlive)).mp fun hn => hkeeps ⟨hn, hlive⟩
      rw [OvmsServerV3.reconfigure, hconfig, hused]
      exact not_not.mp hsame
    · rw [OvmsServerV3.reconfigure, hrejected] at htrejected
      rw [OvmsServerV3.reconfigure, hmgconn, hretry]
      exact h.rejected (Bool.and_eq_true_iff.mp htrejected).1

/-- **A step** that does not meet the defects keeps the state settled. -/
theorem Settled.step (h : Settled s) {e : Event} (hright : ComparesRightly s e)
    (hs : s.step e = some s') : Settled s' := by
  cases e with
  | configChanged p c =>
      obtain ⟨hchange, hs⟩ := Option.ite_none_right_eq_some.mp hs
      obtain rfl := Option.some.inj hs
      exact h.reconfigure hchange hright
  | netUp running o =>
      obtain rfl := Option.some.inj hs
      exact h.netUp running o
  | netDown =>
      obtain rfl := Option.some.inj hs
      exact h.netDown
  | netmanInit connectedAny o =>
      obtain rfl := Option.some.inj hs
      exact h.netUp connectedAny o
  | netmanStop =>
      obtain rfl := Option.some.inj hs
      exact h.netDown
  | netReconfigured =>
      obtain rfl := Option.some.inj hs
      exact h.netReconfigured
  | ticker1 available first second o =>
      obtain rfl := Option.some.inj hs
      exact (h.watchNetwork available first).tryConnect second o
  | connect n success =>
      obtain ⟨hn, hs⟩ := Option.ite_none_right_eq_some.mp hs
      obtain rfl := Option.some.inj hs
      exact h.onConnect hn success
  | connack n code =>
      obtain ⟨hn, hs⟩ := Option.ite_none_right_eq_some.mp hs
      obtain rfl := Option.some.inj hs
      exact h.onConnack hn code
  | close n =>
      obtain ⟨hn, hs⟩ := Option.ite_none_right_eq_some.mp hs
      obtain rfl := Option.some.inj hs
      exact h.onClose hn

theorem pickJitter_keeps (s : OvmsServerV3) (random : ℕ) :
    (s.pickJitter random).connretry = s.connretry ∧ (s.pickJitter random).calls = s.calls := by
  rw [OvmsServerV3.pickJitter]
  split <;> exact ⟨rfl, rfl⟩

theorem countStable_keeps (s : OvmsServerV3) :
    s.countStable.connretry = s.connretry ∧ s.countStable.calls = s.calls := by
  rw [OvmsServerV3.countStable]
  split <;> exact ⟨rfl, rfl⟩

/-- The ticker does not connect while there is a suspension. -/
theorem ticker1_calls (hmgconn : s.mgconn = none) (hretry : s.connretry < 0) (available : Bool)
    (first second : ℕ) (o : Outcome) :
    (s.ticker1 available first second o).calls = s.calls := by
  have hwatch : (s.watchNetwork available first).connretry = s.connretry ∧
      (s.watchNetwork available first).calls = s.calls := by
    rw [OvmsServerV3.watchNetwork]
    split
    · rw [OvmsServerV3.loseNetwork, if_neg (not_not.mpr hmgconn)]
      exact ⟨rfl, rfl⟩
    · obtain ⟨hretry', hcalls⟩ := countStable_keeps
        (OvmsServerV3.pickJitter first { s with connectionAvailable := available })
      obtain ⟨hpretry, hpcalls⟩ :=
        pickJitter_keeps { s with connectionAvailable := available } first
      exact ⟨hretry'.trans hpretry, hcalls.trans hpcalls⟩
  rw [OvmsServerV3.ticker1, OvmsServerV3.tryConnect, if_neg, if_neg]
  · exact hwatch.2
  · rw [hwatch.1]
    omega
  · rw [hwatch.1]
    omega

/-- While credentials are rejected there is no `Connect`. -/
theorem Settled.calls_eq (h : Settled s) (hrejected : s.rejected = true) {e : Event}
    (hs : s.step e = some s') : s'.calls = s.calls := by
  obtain ⟨hmgconn, hretry⟩ := h.rejected hrejected
  have hnone : ∀ n, ¬ (s.status n = .connecting ∨ s.status n = .established) := fun n hn =>
    Option.some_ne_none n ((h.live n hn).symm.trans hmgconn)
  cases e with
  | configChanged p c =>
      obtain ⟨-, hs⟩ := Option.ite_none_right_eq_some.mp hs
      obtain rfl := Option.some.inj hs
      obtain ⟨-, -, -, hcalls, -⟩ := configChanged_cases p (s.configured c)
      exact hcalls
  | netUp running o =>
      obtain rfl := Option.some.inj hs
      rw [OvmsServerV3.netUp, if_neg (by omega)]
  | netDown =>
      obtain rfl := Option.some.inj hs
      rw [OvmsServerV3.netDown, if_neg (not_not.mpr hmgconn)]
  | netmanInit connectedAny o =>
      obtain rfl := Option.some.inj hs
      rw [OvmsServerV3.netmanInit, OvmsServerV3.netUp, if_neg (by omega)]
  | netmanStop =>
      obtain rfl := Option.some.inj hs
      rw [OvmsServerV3.netmanStop, OvmsServerV3.netDown, if_neg (not_not.mpr hmgconn)]
  | netReconfigured =>
      obtain rfl := Option.some.inj hs
      rw [OvmsServerV3.netReconfigured, if_neg (by omega)]
  | ticker1 available first second o =>
      obtain rfl := Option.some.inj hs
      exact ticker1_calls hmgconn hretry available first second o
  | connect n success =>
      exact absurd (.inl (Option.ite_none_right_eq_some.mp hs).1) (hnone n)
  | connack n code =>
      exact absurd (.inr (Option.ite_none_right_eq_some.mp hs).1) (hnone n)
  | close n =>
      obtain ⟨-, hs⟩ := Option.ite_none_right_eq_some.mp hs
      obtain rfl := Option.some.inj hs
      rw [OvmsServerV3.onClose, if_neg (not_not.mpr hmgconn)]

/-- A change of the configuration has the right effect exactly when it does not meet the defects. -/
theorem reconnectsRightly_iff (h : Settled s) (e : Event) :
    ReconnectsRightly s e ↔ ComparesRightly s e := by
  have hother : (∀ p c, e ≠ .configChanged p c) → ReconnectsRightly s e := fun hne s' hs =>
    ⟨fun p c heq => absurd heq (hne p c), fun hrejected => h.calls_eq hrejected hs⟩
  cases e with
  | configChanged p c =>
      by_cases hgood : s.config.Changes p c ∧ s.Live
      · obtain ⟨hchange, hlive⟩ := hgood
        have hacts : Acts s (s.reconfigure p c) ↔ s.Live ∧ (s.configured c).NeedsReconnect p :=
          acts_configChanged_iff p (s.configured c)
        have hneeds := needsReconnect_iff h.effective hlive hchange (t := s.configured c) rfl rfl
        rw [← hneeds]
        constructor
        · intro hright
          have heffect := (hright (s.reconfigure p c) (if_pos hchange)).1 p c rfl
          rw [hacts, and_congr_right_iff] at heffect
          exact heffect hlive
        · intro hright s' hs
          refine ⟨fun q d heq => ?_, fun hrejected => h.calls_eq hrejected hs⟩
          obtain ⟨rfl, rfl⟩ := Event.configChanged.inj heq
          obtain rfl := Option.some.inj ((if_pos hchange).symm.trans hs)
          rw [hacts, hright]
      · refine iff_of_true (fun s' hs => ⟨fun q d heq => ?_,
          fun hrejected => h.calls_eq hrejected hs⟩) ?_
        · obtain ⟨rfl, rfl⟩ := Event.configChanged.inj heq
          obtain ⟨hchange, hs⟩ := Option.ite_none_right_eq_some.mp hs
          have hdead : ¬ s.Live := fun hlive => hgood ⟨hchange, hlive⟩
          obtain rfl := Option.some.inj hs
          refine iff_of_false (fun hacts => hdead ?_) fun hboth => hdead hboth.1
          exact ((acts_configChanged_iff p (s.configured c)).mp hacts).1
        · cases p with
          | none => exact fun hchange hlive => absurd ⟨hchange, hlive⟩ hgood
          | some param =>
              cases param with
              | serverV3 => exact fun hchange hlive => absurd ⟨hchange, hlive⟩ hgood
              | password => exact trivial
  | _ => exact iff_of_true (hother fun p c hn => by cases hn) trivial

/-- `ConfigChanged` of the constructor has nothing to act on. -/
theorem Settled.of_fresh (hmgconn : s.mgconn = none) (hconnected : s.connected = false)
    (hstatus : ∀ n, s.status n = .fresh) (hretry : s.connretry = 0)
    (hrejected : s.rejected = false) :
    Settled (s.configChanged none) ∧ ∀ o, Settled ((s.configChanged none).connect o) := by
  have hlinked := (Linked.of_fresh hmgconn hconnected hstatus).configChanged none
  have hnone := configChanged_mgconn hmgconn none
  obtain ⟨hcases, -, -, -, hkept⟩ := configChanged_cases none s
  have hretry : 0 ≤ (s.configChanged none).connretry := by
    obtain ⟨-, -, -, hpos⟩ | ⟨-, -, hsame⟩ := hcases
    · exact hpos
    · exact Int.le_of_eq (hsame.trans hretry).symm
  have hsettled := Settled.idle hlinked hnone hretry (hkept.trans hrejected)
  exact ⟨hsettled, hsettled.connect hnone hretry⟩

theorem settled_init (c : Config) (tls connectedAny : Bool) :
    Settled (.init c tls connectedAny) := by
  rw [OvmsServerV3.init]
  split
  · exact (Settled.of_fresh rfl rfl (fun _ => rfl) rfl rfl).2 ⟨true, true⟩
  · exact (Settled.of_fresh rfl rfl (fun _ => rfl) rfl rfl).1

/-- **Changes of the configuration** have the right effect along a run, and rejected credentials
are not tried again, exactly when no change meets the defects. -/
theorem reconnectsRightly_along (c : Config) (tls connectedAny : Bool) (events : List Event) :
    AlongSteps (fun s e s' => s.step e = some s') ReconnectsRightly (.init c tls connectedAny)
        events ↔
      AlongSteps (fun s e s' => s.step e = some s') ComparesRightly (.init c tls connectedAny)
        events :=
  alongSteps_congr_of_invariant (I := Settled) (fun _ e hs => reconnectsRightly_iff hs e)
    (fun _ _ _ hs hright hstep => hs.step hright hstep) (settled_init c tls connectedAny)

/-- The port is left to its default. A connection is made, and then a timing is set: the connection
is given up. -/
theorem not_reconnectsRightly : ¬ AlongSteps (fun s e s' => s.step e = some s') ReconnectsRightly
    (.init ⟨[], ⟨ascii "server", [], false, [], [], [], []⟩, none, none⟩ false false)
    [.ticker1 true 0 0 ⟨true, true⟩, .netUp true ⟨true, true⟩,
      .configChanged (some .serverV3)
        ⟨[], ⟨ascii "server", [], false, [], [], [], []⟩, some 20, none⟩] := by
  intro h
  have hright := (((h.2 _ rfl).2 _ rfl).1 _ rfl).1 _ _ rfl
  exact absurd (hright.mp (.inl ⟨by decide, by decide⟩)).2 (by decide)

end Ovms.ServerV3
