import Ovms.BatCtrl.Protocol
import Ovms.Lib.History

/-!
# The History of a Command

What the log of the current command, from its start or an abort on, says about the state
of the controller, and what stands in it before each telegram.
-/

open Lib Ovms.Bap Ovms.EGolf

namespace Ovms.BatCtrl

/-! ### The log of the current command -/

/-- A command is opened by its start; an abort closes it and opens an empty one. -/
def Obs.opens : Obs → Bool
  | started .. | aborted _ => true
  | _ => false

/-- The log of the current command. -/
def current (log : List Obs) : List Obs := sinceLast Obs.opens log

/-- An entry that neither opens a command nor sends nor reads. -/
def Obs.silent : Obs → Bool
  | nmWake _ | received .. | notified _ => true
  | _ => false

/-- The place of a telegram in a command. -/
def BapTelegram.rank : BapTelegram → ℕ
  | handshake => 0
  | profileGet _ => 1
  | profileWrite .. => 2
  | trigger _ => 3

/-- The place of a phase in a command. -/
def ClimatePhase.rank : ClimatePhase → ℕ
  | idle => 0
  | wake => 1
  | handshake => 2
  | profile => 3
  | armWait => 4
  | confirm => 5
  | done => 6

/-! ### What stands in a log -/

/-- A command was started. -/
def Begun (seg : List Obs) : Prop := ∃ op enable param, .started op enable param ∈ seg

/-- The handshake was sent. -/
def Shaken (seg : List Obs) : Prop := ∃ writes ok, .telegram .handshake writes ok ∈ seg

/-- The unit acknowledged the handshake. -/
def Acked (seg : List Obs) : Prop :=
  ∃ el, .received .handshake el ∈ seg ∧ isHandshakeAck el = true

/-- The profiles were requested. -/
def Requested (seg : List Obs) : Prop :=
  ∃ asgTxn writes ok, .telegram (.profileGet asgTxn) writes ok ∈ seg

/-- The element `el` was taken as the read of profile 0, with value `p`. -/
def Read (seg : List Obs) (el : Element) (p : Profile) : Prop :=
  .received .profile el ∈ seg ∧ .readBack el p ∈ seg ∧ isGetReply el = true ∧
    globalProfile el = some p

/-- A profile write was transmitted. -/
def Written (seg : List Obs) : Prop :=
  ∃ asgTxn q writes, .telegram (.profileWrite asgTxn q) writes true ∈ seg

/-- A profile write was transmitted, and later an echo arrived that was waited for. -/
def Echoed (seg : List Obs) : Prop :=
  ∃ before asgTxn q writes between el after,
    seg = before ++ .telegram (.profileWrite asgTxn q) writes true ::
      (between ++ .received .armWait el :: after) ∧ isSetEcho el = true

/-- The record `p` already is what the command writes. -/
def NoWriteNeeded (seg : List Obs) (p : Profile) : Prop :=
  ∃ op enable param, .started op enable param ∈ seg ∧
    ∀ apply, writeNeeded op apply param p = false

/-- The order of telegrams within a command: none after one of a later place, and the
handshake first. -/
structure InOrder (seg : List Obs) (t : BapTelegram) : Prop where
  order : ∀ {t' : BapTelegram} {writes : List CanWrite} {ok : Bool},
    .telegram t' writes ok ∈ seg → t'.rank ≤ t.rank
  first : t ≠ .handshake → Shaken seg

/-- What a telegram waits for. -/
def Awaited (seg : List Obs) : BapTelegram → Prop
  | .handshake => True
  | .profileGet _ => Acked seg
  | .profileWrite _ _ => ∃ el p, Read seg el p
  | .trigger _ => ∃ el p, Read seg el p ∧ (NoWriteNeeded seg p ∨ Echoed seg)

/-- What the log must hold before a telegram is sent. -/
structure Enabled (seg : List Obs) (t : BapTelegram) : Prop where
  begun : Begun seg
  inOrder : InOrder seg t
  awaited : Awaited seg t

section Growth

variable {seg L : List Obs} {el : Element} {p : Profile}

theorem Shaken.append (h : Shaken seg) : Shaken (seg ++ L) := by
  obtain ⟨writes, ok, hmem⟩ := h
  exact ⟨writes, ok, List.mem_append_left _ hmem⟩

theorem Acked.append (h : Acked seg) : Acked (seg ++ L) := by
  obtain ⟨el, hmem, hack⟩ := h
  exact ⟨el, List.mem_append_left _ hmem, hack⟩

theorem Requested.append (h : Requested seg) : Requested (seg ++ L) := by
  obtain ⟨asgTxn, writes, ok, hmem⟩ := h
  exact ⟨asgTxn, writes, ok, List.mem_append_left _ hmem⟩

theorem Written.append (h : Written seg) : Written (seg ++ L) := by
  obtain ⟨asgTxn, q, writes, hmem⟩ := h
  exact ⟨asgTxn, q, writes, List.mem_append_left _ hmem⟩

theorem Read.append (h : Read seg el p) : Read (seg ++ L) el p :=
  ⟨List.mem_append_left _ h.1, List.mem_append_left _ h.2.1, h.2.2⟩

theorem Echoed.append (h : Echoed seg) : Echoed (seg ++ L) := by
  obtain ⟨before, asgTxn, q, writes, between, el, after, rfl, hecho⟩ := h
  exact ⟨before, asgTxn, q, writes, between, el, after ++ L, by simp, hecho⟩

theorem Written.echoed (h : Written seg) (hecho : isSetEcho el = true) :
    Echoed (seg ++ [.received .armWait el]) := by
  obtain ⟨asgTxn, q, writes, hmem⟩ := h
  obtain ⟨before, between, rfl⟩ := List.append_of_mem hmem
  exact ⟨before, asgTxn, q, writes, between, el, [], by simp, hecho⟩

end Growth

/-! ### The invariant -/

namespace Command

/-- The command is in progress and has come as far as `phase`. -/
def Reached (c : Command) (phase : ClimatePhase) : Prop :=
  phase.rank ≤ c.phase.rank ∧ c.phase ≠ .done

theorem not_reached {c : Command} {target : ClimatePhase} (phase : ClimatePhase)
    (hphase : c.phase = phase) (h : phase.rank < target.rank) : ¬ c.Reached target := by
  rintro ⟨hle, -⟩
  rw [hphase] at hle
  omega

/-- One more than the place of the latest telegram a command in progress can have sent. -/
def ceiling (c : Command) : ℕ :=
  match c.phase with
  | .handshake => 1
  | .profile => if c.haveProfile0 then 3 else 2
  | .armWait => 3
  | .confirm => if c.op = .setCurrent ∧ c.apply = false then 3 else 4
  | _ => 0

end Command

/-- The log `seg` of the current command accounts for the state `c`. -/
structure Explains (seg : List Obs) (c : Command) : Prop where
  param : c.op = .setCurrent → c.param ≤ kMaxCurrentHardLimit
  reads : ∀ {el : Element} {p : Profile}, .readBack el p ∈ seg →
    Read seg el p ∧ c.haveProfile0 = true ∧ p = c.profile0
  writes : ∀ {asgTxn : UInt8} {q : Profile} {writes : List CanWrite} {ok : Bool},
    .telegram (.profileWrite asgTxn q) writes ok ∈ seg → q = c.record
  opened : c.Reached .wake → .started c.op c.enable c.param ∈ seg
  shaken : c.Reached .handshake → Shaken seg
  acked : c.Reached .profile → Acked seg
  requested : c.Reached .profile → Requested seg
  read : c.Reached .wake → c.haveProfile0 = true → ∃ el, Read seg el c.profile0
  have0 : c.Reached .armWait → c.haveProfile0 = true
  written : c.phase = .armWait ∨ (c.phase = .confirm ∧ c.WriteOnly) → Written seg
  released : c.phase = .confirm → ¬ c.WriteOnly → c.needsWrite = false ∨ Echoed seg
  ceiling : c.Reached .wake → ∀ {t : BapTelegram} {writes : List CanWrite} {ok : Bool},
    .telegram t writes ok ∈ seg → t.rank < c.ceiling

namespace Explains

variable {seg L : List Obs} {c : Command} {t : BapTelegram} {writes : List CanWrite}
  {ok : Bool}

theorem update (h : Explains seg c) (error confirmed : Bool) (wakeHold climit : ℕ) :
    Explains seg { c with error, confirmed, wakeHold, climit } :=
  ⟨h.param, h.reads, h.writes, h.opened, h.shaken, h.acked, h.requested, h.read, h.have0,
    h.written, h.released, h.ceiling⟩

/-- A command that is not in progress is accounted for by what it asked, read and wrote. -/
theorem of_not_reached (hout : ¬ c.Reached .wake)
    (hparam : c.op = .setCurrent → c.param ≤ kMaxCurrentHardLimit)
    (hreads : ∀ {el : Element} {p : Profile}, .readBack el p ∈ seg →
      Read seg el p ∧ c.haveProfile0 = true ∧ p = c.profile0)
    (hwrites : ∀ {asgTxn : UInt8} {q : Profile} {writes : List CanWrite} {ok : Bool},
      .telegram (.profileWrite asgTxn q) writes ok ∈ seg → q = c.record) : Explains seg c := by
  have hover : ∀ {target : ClimatePhase}, 1 ≤ target.rank → ¬ c.Reached target :=
    fun hpos hr => hout ⟨hpos.trans hr.1, hr.2⟩
  have hphase : ∀ {phase : ClimatePhase}, 1 ≤ phase.rank → phase ≠ .done → c.phase ≠ phase := by
    rintro phase hpos hne rfl
    exact hout ⟨hpos, hne⟩
  refine ⟨hparam, hreads, hwrites, fun hr => absurd hr hout,
    fun hr => absurd hr (hover (by decide)), fun hr => absurd hr (hover (by decide)),
    fun hr => absurd hr (hover (by decide)), fun hr => absurd hr hout,
    fun hr => absurd hr (hover (by decide)), ?_,
    fun hconf => absurd hconf (hphase (by decide) (by decide)), fun hr => absurd hr hout⟩
  rintro (hwait | ⟨hconf, -⟩)
  · exact absurd hwait (hphase (by decide) (by decide))
  · exact absurd hconf (hphase (by decide) (by decide))

theorem ended (h : Explains seg c) (error confirmed : Bool) (wakeHold climit : ℕ)
    {phase : ClimatePhase} (hphase : phase = .idle ∨ phase = .done) :
    Explains seg { c with phase, error, confirmed, wakeHold, climit } := by
  refine .of_not_reached (fun hr => ?_) h.param h.reads h.writes
  rcases hphase with rfl | rfl
  · exact Command.not_reached .idle rfl (by decide) hr
  · exact hr.2 rfl

/-- A log grows in agreement with the state by telegrams below the ceiling, with the
command's own record in every write. -/
theorem grow (h : Explains seg c) (hread : ∀ el p, .readBack el p ∉ L)
    (hceil : ∀ {t writes ok}, .telegram t writes ok ∈ L → t.rank < c.ceiling)
    (hrecord : ∀ {asgTxn q writes ok}, .telegram (.profileWrite asgTxn q) writes ok ∈ L →
      q = c.record) : Explains (seg ++ L) c := by
  refine ⟨h.param, fun hmem => ?_, fun hmem => ?_,
    fun hr => List.mem_append_left _ (h.opened hr), fun hr => (h.shaken hr).append,
    fun hr => (h.acked hr).append, fun hr => (h.requested hr).append, fun hr hhave => ?_, h.have0,
    fun hw => (h.written hw).append, fun hconf hkind => ?_, fun hr _ _ _ hmem => ?_⟩
  · obtain ⟨hr, hrest⟩ := h.reads ((List.mem_append.mp hmem).resolve_right (hread _ _))
    exact ⟨hr.append, hrest⟩
  · rcases List.mem_append.mp hmem with hseg | hnew
    · exact h.writes hseg
    · exact hrecord hnew
  · obtain ⟨el, hel⟩ := h.read hr hhave
    exact ⟨el, hel.append⟩
  · exact (h.released hconf hkind).imp_right Echoed.append
  · rcases List.mem_append.mp hmem with hseg | hnew
    · exact h.ceiling hr hseg
    · exact hceil hnew

theorem silent (h : Explains seg c) {o : Obs} (ho : o.silent = true) :
    Explains (seg ++ [o]) c := by
  cases o with
  | nmWake | received | notified =>
      exact h.grow (by simp) (fun hmem => by simp at hmem) (fun hmem => by simp at hmem)
  | started | aborted | telegram | readBack => cases ho

/-- A telegram below the ceiling, with the command's own record if it is a write. -/
theorem send (h : Explains seg c) (hceil : t.rank < c.ceiling)
    (hrecord : ∀ {asgTxn : UInt8} {q : Profile}, t = .profileWrite asgTxn q → q = c.record)
    (writes : List CanWrite) (ok : Bool) : Explains (seg ++ [.telegram t writes ok]) c := by
  refine h.grow (by simp) (fun hmem => ?_) (fun hmem => ?_)
  · simp only [List.mem_singleton, Obs.telegram.injEq] at hmem
    rw [hmem.1]
    exact hceil
  · simp only [List.mem_singleton, Obs.telegram.injEq] at hmem
    exact hrecord hmem.1.symm

/-- A telegram is enabled when the ceiling is no higher than its place and what it waits
for is there. -/
theorem enabled (h : Explains seg c) (hr : c.Reached .wake) (hceil : c.ceiling ≤ t.rank + 1)
    (hfirst : t = .handshake ∨ c.Reached .handshake) (hawaited : Awaited seg t) :
    Enabled seg t := by
  refine ⟨⟨_, _, _, h.opened hr⟩, ⟨fun hmem => ?_, fun hne => ?_⟩, hawaited⟩
  · have := h.ceiling hr hmem
    omega
  · rcases hfirst with heq | hreached
    · exact absurd heq hne
    · exact h.shaken hreached

/-- From the read on, the command goes on to wait for its echo or its confirmation. -/
theorem advance (h : Explains seg c) (hhave : c.haveProfile0 = true)
    (hfrom : c.phase = .profile ∨ c.phase = .armWait) (phase : ClimatePhase)
    (hto : phase = .armWait ∨ phase = .confirm)
    (hwritten : phase = .armWait ∨ c.WriteOnly → Written seg)
    (hreleased : phase = .confirm → ¬ c.WriteOnly → c.needsWrite = false ∨ Echoed seg) :
    Explains seg { c with phase } := by
  have hreached : ∀ target : ClimatePhase, target.rank ≤ 3 → c.Reached target := by
    intro target hle
    rcases hfrom with hphase | hphase <;> rw [Command.Reached, hphase]
    · exact ⟨hle, by decide⟩
    · exact ⟨hle.trans (by decide), by decide⟩
  refine ⟨h.param, h.reads, h.writes, fun _ => h.opened (hreached _ (by decide)),
    fun _ => h.shaken (hreached _ (by decide)), fun _ => h.acked (hreached _ (by decide)),
    fun _ => h.requested (hreached _ (by decide)), fun _ => h.read (hreached _ (by decide)),
    fun _ => hhave, fun hw => ?_, hreleased, fun _ _ _ _ hmem => ?_⟩
  · exact hwritten (hw.imp_right And.right)
  · have hold := h.ceiling (hreached .wake (by decide)) hmem
    have hthree : c.ceiling = 3 := by
      rcases hfrom with hphase | hphase
      · simp only [Command.ceiling, hphase, hhave, if_true]
      · simp only [Command.ceiling, hphase]
    have hnew : 3 ≤ Command.ceiling { c with phase } := by
      rcases hto with rfl | rfl
      · exact le_rfl
      · simp only [Command.ceiling]
        split <;> decide
    omega

end Explains

/-! ### Steps of a log -/

/-- The entries `L` extend the log `seg` of the current command to one that accounts for
`c`, and every telegram among them is enabled when it is sent. -/
structure Extends (seg L : List Obs) (c : Command) : Prop where
  plain : ∀ o ∈ L, o.opens = false
  enabled : Justified
    (fun pre o => ∀ t writes ok, o = .telegram t writes ok → Enabled (seg ++ pre) t) L
  explains : Explains (seg ++ L) c

namespace Extends

variable {seg L M : List Obs} {c c' : Command} {t : BapTelegram}

theorem nil (h : Explains seg c) : Extends seg [] c :=
  ⟨by simp, justified_nil, by rwa [List.append_nil]⟩

theorem trans (h₁ : Extends seg L c) (h₂ : Extends (seg ++ L) M c') : Extends seg (L ++ M) c' := by
  refine ⟨fun o ho => ?_, h₁.enabled.append ?_, by rw [← List.append_assoc]; exact h₂.explains⟩
  · rcases List.mem_append.mp ho with hL | hM
    · exact h₁.plain o hL
    · exact h₂.plain o hM
  · refine h₂.enabled.mono fun pre o _ h => ?_
    rwa [← List.append_assoc]

theorem silent (h : Explains seg c) {o : Obs} (ho : o.silent = true) : Extends seg [o] c := by
  refine ⟨fun o' ho' => ?_, justified_singleton fun t writes ok heq => ?_, h.silent ho⟩
  · rw [List.mem_singleton.mp ho']
    cases o <;> first | rfl | cases ho
  · rw [heq] at ho
    cases ho

theorem send {writes : List CanWrite} {ok : Bool} (hen : Enabled seg t)
    (h : Explains (seg ++ [.telegram t writes ok]) c) :
    Extends seg [.telegram t writes ok] c := by
  refine ⟨by simp [Obs.opens], justified_singleton fun t' writes' ok' heq => ?_, h⟩
  simp only [Obs.telegram.injEq] at heq
  rw [← heq.1, List.append_nil]
  exact hen

theorem update (h : Extends seg L c) (error confirmed : Bool) (wakeHold climit : ℕ) :
    Extends seg L { c with error, confirmed, wakeHold, climit } :=
  ⟨h.plain, h.enabled, h.explains.update error confirmed wakeHold climit⟩

theorem ended (h : Extends seg L c) (error confirmed : Bool) (wakeHold climit : ℕ)
    {phase : ClimatePhase} (hphase : phase = .idle ∨ phase = .done) :
    Extends seg L { c with phase, error, confirmed, wakeHold, climit } :=
  ⟨h.plain, h.enabled, h.explains.ended error confirmed wakeHold climit hphase⟩

end Extends

section Moves

variable {seg log L : List Obs} {c c' : Command} {a : Label} {ok : Bool}

/-- Writing the record: an enabled write, or nothing. -/
theorem Arms.extends (h : Arms c L ok) (hexp : Explains seg c) (hr : c.Reached .profile)
    (hhave : c.haveProfile0 = true) (hceil : c.ceiling = 3) :
    Extends seg L c ∧ (ok = true → c.needsWrite = true → Written (seg ++ L)) := by
  cases h with
  | skip hneed => exact ⟨.nil hexp, fun _ h => absurd (hneed.symm.trans h) Bool.false_ne_true⟩
  | @write asgTxn writes ok hneed hwire =>
      have hwake : c.Reached .wake := ⟨le_trans (by decide) hr.1, hr.2⟩
      obtain ⟨el, hread⟩ := hexp.read hwake hhave
      refine ⟨.send (hexp.enabled hwake hceil.le (.inr ?_) ⟨el, _, hread⟩)
        (hexp.send (t := .profileWrite asgTxn c.record) hceil.ge (fun heq => ?_) _ _),
        fun hok _ => ?_⟩
      · exact ⟨le_trans (by decide) hr.1, hr.2⟩
      · simp only [BapTelegram.profileWrite.injEq] at heq
        exact heq.2.symm
      · subst hok
        exact ⟨asgTxn, c.record, writes, by simp⟩

/-- An enabled trigger, in the confirmation phase of a command with a trigger. -/
theorem Explains.trigger (hexp : Explains seg c) (hphase : c.phase = .confirm)
    (hkind : ¬ c.WriteOnly) (on : Bool) (writes : List CanWrite) (ok : Bool) :
    Extends seg [.telegram (.trigger on) writes ok] c := by
  have hr : ∀ target : ClimatePhase, target.rank ≤ 5 → c.Reached target := by
    intro target hle
    rw [Command.Reached, hphase]
    exact ⟨hle, by decide⟩
  have hceil : c.ceiling = 4 := by
    simp only [Command.ceiling, hphase]
    exact if_neg hkind
  obtain ⟨el, hread⟩ := hexp.read (hr .wake (by decide)) (hexp.have0 (hr .armWait (by decide)))
  have hawaited : Awaited seg (.trigger on) := by
    refine ⟨el, c.profile0, hread, (hexp.released hphase hkind).imp_left fun hneed => ?_⟩
    refine ⟨c.op, c.enable, c.param, hexp.opened (hr .wake (by decide)), fun apply => ?_⟩
    -- whether a charge runs matters for a charge current only, and that is always written
    have hop : c.op ≠ .setCurrent := by
      intro hset
      rw [BatteryControl.needsWrite_setCurrent hset] at hneed
      cases hneed
    rw [Command.needsWrite] at hneed
    rw [← hneed]
    cases hcop : c.op with
    | climate | charge => rfl
    | setCurrent => exact absurd hcop hop
  exact .send (hexp.enabled (hr .wake (by decide)) hceil.le
      (.inr (hr .handshake (by decide))) hawaited)
    (hexp.send (t := .trigger on) hceil.ge (fun heq => by cases heq) _ _)

/-- Writing the record of a profile just read, and going on. -/
theorem ArmsAndGoes.extends (h : ArmsAndGoes c L c') (hexp : Explains seg c)
    (hphase : c.phase = .profile) (hhave : c.haveProfile0 = true) : Extends seg L c' := by
  have hr : c.Reached .profile := by rw [Command.Reached, hphase]; decide
  have hceil : c.ceiling = 3 := by simp only [Command.ceiling, hphase, hhave, if_true]
  cases h with
  | failed harm => exact (harm.extends hexp hr hhave hceil).1
  | waits harm hneed hkind =>
      obtain ⟨hext, hwritten⟩ := harm.extends hexp hr hhave hceil
      exact ⟨hext.plain, hext.enabled, hext.explains.advance hhave (.inl hphase) .armWait
        (.inl rfl)
        (fun _ => hwritten rfl hneed) (fun h => by cases h)⟩
  | settles harm hneed hkind =>
      obtain ⟨hext, hwritten⟩ := harm.extends hexp hr hhave hceil
      exact ⟨hext.plain, hext.enabled, hext.explains.advance hhave (.inl hphase) .confirm
        (.inr rfl) (fun _ => hwritten rfl hneed) (fun _ h => absurd hkind h)⟩
  | triggers hneed hwire =>
      have hkind : ¬ c.WriteOnly := fun hkind => by
        rw [BatteryControl.needsWrite_setCurrent hkind.1] at hneed
        cases hneed
      have hadv := hexp.advance hhave (.inl hphase) .confirm (.inr rfl)
        (fun h => h.elim (fun h => by cases h) fun h => absurd h hkind) (fun _ _ => .inl hneed)
      exact hadv.trigger rfl hkind _ _ _

/-- The backstop sends only what is enabled. -/
theorem Resends.extends (h : Resends c L c') (hexp : Explains seg c) : Extends seg L c' := by
  cases h with
  | nothing => exact .nil hexp
  | handshake hphase hwire =>
      have hceil : c.ceiling = 1 := by simp only [Command.ceiling, hphase]
      exact .send (hexp.enabled (by rw [Command.Reached, hphase]; decide) hceil.le
        (.inl rfl) trivial) (hexp.send (t := .handshake) hceil.ge (fun heq => by cases heq) _ _)
  | profileGet hphase hhave hwire =>
      have hceil : c.ceiling = 2 := by
        simp only [Command.ceiling, hphase, hhave, Bool.false_eq_true, if_false]
      have hack : Acked seg := hexp.acked (by rw [Command.Reached, hphase]; decide)
      exact .send (hexp.enabled (by rw [Command.Reached, hphase]; decide) hceil.le
        (.inr (by rw [Command.Reached, hphase]; decide)) hack)
        (hexp.send (t := .profileGet _) hceil.ge (fun heq => by cases heq) _ _)
  | arm hphase hhave hgo => exact hgo.extends hexp hphase hhave
  | rearm hphase harm =>
      have hr : c.Reached .armWait ∧ c.ceiling = 3 := by
        rcases hphase with hwait | ⟨hconf, hkind⟩
        · exact ⟨by rw [Command.Reached, hwait]; decide, by simp only [Command.ceiling, hwait]⟩
        · refine ⟨by rw [Command.Reached, hconf]; decide, ?_⟩
          simp only [Command.ceiling, hconf]
          exact if_pos hkind
      exact (harm.extends hexp ⟨le_trans (by decide) hr.1.1, hr.1.2⟩ (hexp.have0 hr.1) hr.2).1
  | trigger hphase hkind hwire => exact hexp.trigger hphase hkind _ _ _

/-- A read-back is taken in, before anything is sent for it. -/
theorem Explains.adopt {el : Element} {p : Profile} (hexp : Explains seg c)
    (hphase : c.phase = .profile) (hhave : c.haveProfile0 = false)
    (hreply : isGetReply el = true) (hp : globalProfile el = some p) (climit : ℕ) :
    Extends seg [.received .profile el, .readBack el p]
      { c with profile0 := p, haveProfile0 := true, climit } := by
  have hr : ∀ target : ClimatePhase, target.rank ≤ 3 → c.Reached target := by
    intro target hle
    rw [Command.Reached, hphase]
    exact ⟨hle, by decide⟩
  have hceil : c.ceiling = 2 := by
    simp only [Command.ceiling, hphase, hhave, Bool.false_eq_true, if_false]
  -- nothing was read in this command before, so nothing was written
  have hnone : ∀ {el' p'}, .readBack el' p' ∉ seg := by
    intro el' p' hmem
    rw [(hexp.reads hmem).2.1] at hhave
    cases hhave
  have hunsent : ∀ {t writes ok}, .telegram t writes ok ∈ seg ++
      [.received .profile el, .readBack el p] → .telegram t writes ok ∈ seg := by
    intro t writes ok hmem
    simpa using hmem
  have hnew : Read (seg ++ [.received .profile el, .readBack el p]) el p :=
    ⟨by simp, by simp, hreply, hp⟩
  refine ⟨by simp [Obs.opens], justified_cons (fun _ _ _ heq => by cases heq)
    (justified_singleton fun _ _ _ heq => by cases heq), ?_⟩
  refine ⟨hexp.param, fun hmem => ?_, fun hmem => ?_,
    fun _ => List.mem_append_left _ (hexp.opened (hr _ (by decide))),
    fun _ => (hexp.shaken (hr _ (by decide))).append,
    fun _ => (hexp.acked (hr _ (by decide))).append,
    fun _ => (hexp.requested (hr _ (by decide))).append, fun _ _ => ⟨el, hnew⟩, fun _ => rfl,
    fun hw => ?_, fun hconf => ?_, fun _ _ _ _ hmem => ?_⟩
  · rcases List.mem_append.mp hmem with hseg | hadded
    · exact absurd hseg hnone
    · simp only [List.mem_cons, reduceCtorEq, Obs.readBack.injEq, List.not_mem_nil, or_false,
        false_or] at hadded
      obtain ⟨rfl, rfl⟩ := hadded
      exact ⟨hnew, rfl, rfl⟩
  · have hlt := hexp.ceiling (hr .wake (by decide)) (hunsent hmem)
    rw [hceil] at hlt
    exact absurd hlt (Nat.lt_irrefl _)
  · have hwait : c.phase = .armWait ∨ c.phase = .confirm := hw.imp_right And.left
    rw [hphase] at hwait
    rcases hwait with h | h <;> cases h
  · have hconf' : c.phase = .confirm := hconf
    rw [hphase] at hconf'
    cases hconf'
  · have hlt := hexp.ceiling (hr .wake (by decide)) (hunsent hmem)
    rw [hceil] at hlt
    have hthree : Command.ceiling { c with profile0 := p, haveProfile0 := true, climit } = 3 := by
      simp only [Command.ceiling, hphase, if_true]
    omega

/-- The first element of a command opens the handshake. -/
theorem Explains.handshake (hexp : Explains seg c) (hphase : c.phase = .wake)
    (writes : List CanWrite) (ok : Bool) :
    Extends seg [.telegram .handshake writes ok] { c with phase := .handshake } := by
  have hr : c.Reached .wake := by rw [Command.Reached, hphase]; decide
  have hceil : c.ceiling = 0 := by simp only [Command.ceiling, hphase]
  have hunsent : ∀ {t writes' ok'}, .telegram t writes' ok' ∉ seg := by
    intro t writes' ok' hmem
    have := hexp.ceiling hr hmem
    omega
  refine .send (hexp.enabled hr (by omega) (.inl rfl) trivial) ?_
  refine ⟨hexp.param, fun hmem => ?_, fun hmem => ?_,
    fun _ => List.mem_append_left _ (hexp.opened hr), fun _ => ⟨writes, ok, by simp⟩,
    fun hout => absurd hout (Command.not_reached .handshake rfl (by decide)),
    fun hout => absurd hout (Command.not_reached .handshake rfl (by decide)), fun _ hhave => ?_,
    fun hout => absurd hout (Command.not_reached .handshake rfl (by decide)),
    fun hw => ?_, (fun hconf => by cases hconf), fun _ _ _ _ hmem => ?_⟩
  · obtain ⟨hread, hrest⟩ := hexp.reads (by simpa using hmem)
    exact ⟨hread.append, hrest⟩
  · exact absurd (by simpa using hmem) hunsent
  · obtain ⟨el, hread⟩ := hexp.read hr hhave
    exact ⟨el, hread.append⟩
  · rcases hw with h | ⟨h, -⟩ <;> cases h
  · rcases List.mem_append.mp hmem with hseg | hadded
    · exact absurd hseg hunsent
    · simp only [List.mem_singleton, Obs.telegram.injEq] at hadded
      rw [hadded.1]
      exact Nat.zero_lt_one

/-- The acknowledged handshake is followed by the profile request. -/
theorem Explains.request {el : Element} (hexp : Explains seg c) (hphase : c.phase = .handshake)
    (hack : isHandshakeAck el = true) (asgTxn : UInt8) (writes : List CanWrite) (ok : Bool) :
    Extends seg [.received .handshake el, .telegram (.profileGet asgTxn) writes ok]
      { c with phase := .profile } := by
  have hr : ∀ target : ClimatePhase, target.rank ≤ 2 → c.Reached target := by
    intro target hle
    rw [Command.Reached, hphase]
    exact ⟨hle, by decide⟩
  have hceil : c.ceiling = 1 := by simp only [Command.ceiling, hphase]
  have hsil : Explains (seg ++ [.received .handshake el]) c := hexp.silent rfl
  have hacked : Acked (seg ++ [.received .handshake el]) := ⟨el, by simp, hack⟩
  have hnone : ∀ {t writes' ok'}, .telegram t writes' ok' ∈ seg ++ [.received .handshake el] →
      t.rank = 0 := by
    intro t writes' ok' hmem
    have := hsil.ceiling (hr .wake (by decide)) hmem
    omega
  have hnew : 2 ≤ Command.ceiling { c with phase := .profile } := by
    simp only [Command.ceiling]
    split <;> decide
  refine (Extends.silent hexp rfl).trans (.send (hsil.enabled (hr _ (by decide)) ?_
    (.inr (hr _ (by decide))) hacked) ?_)
  · rw [hceil]
    exact Nat.le_succ 1
  refine ⟨hsil.param, fun hmem => ?_, fun hmem => ?_,
    fun _ => List.mem_append_left _ (hsil.opened (hr _ (by decide))),
    fun _ => (hsil.shaken (hr _ (by decide))).append, fun _ => hacked.append,
    fun _ => ⟨asgTxn, writes, ok, by simp⟩, fun _ hhave => ?_,
    fun hout => absurd hout (Command.not_reached .profile rfl (by decide)), fun hw => ?_,
    (fun hconf => by cases hconf), fun _ _ _ _ hmem => ?_⟩
  · obtain ⟨hread, hrest⟩ := hsil.reads (by simpa using hmem)
    exact ⟨hread.append, hrest⟩
  · exact hsil.writes (by simpa using hmem)
  · obtain ⟨el', hread⟩ := hsil.read (hr _ (by decide)) hhave
    exact ⟨el', hread.append⟩
  · rcases hw with h | ⟨h, -⟩ <;> cases h
  · rcases List.mem_append.mp hmem with hseg | hadded
    · have := hnone hseg
      omega
    · simp only [List.mem_singleton, Obs.telegram.injEq] at hadded
      rw [hadded.1]
      exact hnew

/-- An echo that is waited for releases the trigger. -/
theorem Explains.release {el : Element} (hexp : Explains seg c) (hphase : c.phase = .armWait)
    (hecho : isSetEcho el = true) (hkind : ¬ c.WriteOnly) (on : Bool) (writes : List CanWrite)
    (ok : Bool) :
    Extends seg [.received .armWait el, .telegram (.trigger on) writes ok]
      { c with phase := .confirm } := by
  have hhave : c.haveProfile0 = true := hexp.have0 (by rw [Command.Reached, hphase]; decide)
  have hechoed : Echoed (seg ++ [.received .armWait el]) :=
    (hexp.written (.inl hphase)).echoed hecho
  have hadv := (hexp.silent (o := .received .armWait el) rfl).advance hhave (.inr hphase)
    .confirm (.inr rfl) (fun h => h.elim (fun h => by cases h) fun h => absurd h hkind)
    (fun _ _ => .inr hechoed)
  exact (Extends.silent hexp rfl).trans (hadv.trigger rfl hkind _ _ _)

/-- A call that starts or drops a command. -/
def Label.opens : Label → Bool
  | begin .. | abort => true
  | _ => false

/-- **A move within a command** extends its log: it sends only what is enabled, and the
log accounts for the state after it. -/
theorem Move.extends (h : Move c a L c') (ha : a.opens = false) (hexp : Explains seg c) :
    Extends seg L c' := by
  cases h with
  | begin => cases ha
  | abort => cases ha
  | refuse => exact .silent hexp rfl
  | metrics => exact (Extends.nil hexp).update _ _ _ _
  | quiet => exact .nil hexp
  | rest hrest => exact .nil hexp
  | @tick c' w _ hphase hhold hresend =>
      have hsent := (Extends.silent hexp (o := .nmWake w) rfl).trans
        (hresend.extends (hexp.silent rfl))
      exact hsent.update _ _ _ _
  | @finish c' w _ cause hphase hhold hresend hcause =>
      have hsent := (Extends.silent hexp (o := .nmWake w) rfl).trans
        (hresend.extends (hexp.silent rfl))
      refine Extends.ended (.trans hsent ?_) _ _ _ _ (.inl rfl)
      split
      · exact .nil hsent.explains
      · exact .silent hsent.explains rfl
  | @opened el _ _ _ hphase hwire =>
      have hsil := hexp.silent (o := .received .wake el) rfl
      exact ((Extends.silent hexp rfl).trans (hsil.handshake hphase _ _)).update _ _ _ _
  | acked hphase hack hwire => exact (hexp.request hphase hack _ _ _).update _ _ _ _
  | rejected hphase herr => exact (Extends.silent hexp rfl).ended _ _ _ _ (.inr rfl)
  | confirmed hphase hmode hon hkind => exact (Extends.silent hexp rfl).ended _ _ _ _ (.inr rfl)
  | released hphase hecho hop hwire =>
      exact hexp.release hphase hecho (fun h => hop h.1) _ _ _
  | reapplied hphase hecho hop happly hwire =>
      have hkind : ¬ c.WriteOnly := fun h => by
        rw [h.2] at happly
        cases happly
      exact (hexp.release hphase hecho hkind _ _ _).update _ _ _ _
  | written hphase hecho hkind => exact (Extends.silent hexp rfl).ended _ _ _ _ (.inr rfl)
  | echoed hphase hecho hop harm hsettle => exact (Extends.silent hexp rfl).update _ _ _ _
  | @readBack _ _ p _ hphase hhave hreply hp hgo =>
      have hread := hexp.adopt hphase hhave hreply hp
        (if c.op ≠ .setCurrent then p.maxCurrent.toNat else c.climit)
      exact hread.trans (hgo.extends hread.explains hphase rfl)
  | ignored hphase herr hecho he => exact (Extends.silent hexp rfl).update _ _ _ _

/-- A new command, before anything was received for it. -/
theorem explains_begin {op : BcOp} {enable apply : Bool} {param : UInt8} (w : CanWrite)
    (hparam : op = .setCurrent → param ≤ kMaxCurrentHardLimit) (c : Command) :
    Explains [.started op enable param, .nmWake w]
      { c with
        op, param, enable, apply, confirmed := false, error := false, haveProfile0 := false,
        phase := .wake, wakeHold := kWakeSecs } := by
  refine ⟨hparam, by simp, by simp, by simp, fun hout => absurd hout ?_,
    fun hout => absurd hout ?_, fun hout => absurd hout ?_, by simp, fun hout => absurd hout ?_,
    by simp, by simp, by simp⟩
  all_goals exact Command.not_reached .wake rfl (by decide)

theorem explains_abort (h : Explains seg c) (phase : ClimatePhase) :
    Explains [.aborted phase] { c with phase := .idle, wakeHold := 0 } := by
  exact .of_not_reached (Command.not_reached .idle rfl (by decide)) h.param (by simp) (by simp)

end Moves

/-! ### Every reachable state -/

/-- The log of a state accounts for it, and every telegram in it was enabled when it was
sent. -/
structure History (c : Command) (log : List Obs) : Prop where
  enabled : ∀ {pre post : List Obs} {t : BapTelegram} {writes : List CanWrite} {ok : Bool},
    log = pre ++ .telegram t writes ok :: post → Enabled (current pre) t
  explains : Explains (current log) c

theorem current_append {log L : List Obs} (h : ∀ o ∈ L, o.opens = false) :
    current (log ++ L) = current log ++ L :=
  sinceLast_append log h

/-- A history that was extended. -/
theorem History.extend {c c' : Command} {log L : List Obs} (h : History c log)
    (hext : Extends (current log) L c') : History c' (log ++ L) := by
  refine ⟨?_, by rw [current_append hext.plain]; exact hext.explains⟩
  have hold : Justified (fun pre o => ∀ t writes ok, o = .telegram t writes ok →
      Enabled (current pre) t) log := by
    intro pre o post hlog t writes ok ho
    exact h.enabled (hlog.trans (by rw [ho]))
  have hnew : Justified (fun pre o => ∀ t writes ok, o = .telegram t writes ok →
      Enabled (current (log ++ pre)) t) L := by
    intro pre o post hL t writes ok ho
    rw [current_append fun o' ho' => hext.plain o' (by rw [hL]; exact List.mem_append_left _ ho')]
    exact hext.enabled pre o post hL t writes ok ho
  intro pre post t writes ok hlog
  exact hold.append hnew pre _ post hlog t writes ok rfl

/-- A history that ends with the opening of a command. -/
theorem History.open_ {c c' : Command} {log L : List Obs} {o : Obs} (h : History c log)
    (ho : o.opens = true) (hL : ∀ o' ∈ L, o'.opens = false ∧ ∀ t writes ok,
      o' ≠ .telegram t writes ok) (hexp : Explains (o :: L) c') :
    History c' (log ++ o :: L) := by
  refine ⟨?_, ?_⟩
  · have hold : Justified (fun pre o => ∀ t writes ok, o = .telegram t writes ok →
        Enabled (current pre) t) log := by
      intro pre o post hlog t writes ok ho
      exact h.enabled (hlog.trans (by rw [ho]))
    intro pre post t writes ok hlog
    refine hold.append ?_ pre _ post hlog t writes ok rfl
    refine justified_cons (fun t' writes' ok' heq => ?_)
      fun pre o' post hpost t' writes' ok' heq => ?_
    · rw [heq] at ho
      cases ho
    · exact absurd heq ((hL o' (by rw [hpost]; simp)).2 t' writes' ok')
  · rw [current, sinceLast_append_cons log ho fun o' ho' => (hL o' ho').1]
    exact hexp

/-- A move keeps the history. -/
theorem Move.history {c c' : Command} {a : Label} {log L : List Obs} (h : History c log)
    (hmove : Move c a L c') : History c' (log ++ L) := by
  cases ha : a.opens with
  | false => exact h.extend (hmove.extends ha h.explains)
  | true =>
      cases hmove with
      | begin hparam happly =>
          exact h.open_ rfl (by simp [Obs.opens]) (explains_begin _ hparam c)
      | abort => exact h.open_ rfl (by simp) (explains_abort h.explains _)
      | _ => cases ha

theorem History.of_new {c : Command} (h : c.New) : History c [] := by
  have hout : ¬ c.Reached .wake := Command.not_reached .idle h.phase (by decide)
  refine ⟨fun hlog => ?_, .of_not_reached hout (fun hop => ?_) (by simp [current])
    (by simp [current])⟩
  · simp at hlog
  · rw [h.op] at hop
    cases hop

/-- **Every reachable state is explained by its log**, and every telegram of the log was
enabled when it was sent. -/
theorem reachable_history {s : BatteryControl} (h : Reachable step Initial s) :
    History s.command s.log :=
  reachable_invariant (I := History) (fun _ hnew => .of_new hnew)
    (fun hI hmove => Move.history hI hmove) h

end Ovms.BatCtrl
