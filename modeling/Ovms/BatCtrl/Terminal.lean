import Ovms.BatCtrl.Order

/-!
# The End of a Command

A command ends with the wake bridge: at its last second the phase becomes idle, and a
command that was not confirmed is reported as failed, once. A rejection by the unit cuts
the bridge to one second, and nothing revives the command.

One frame breaks the agreement of the phase with the bridge: an error that arrives while
no command is running leaves the idle phase, without a bridge that would bring it back.

## Main results

* `error_terminal`: **a rejection is final**: no further telegram, no confirmation, and
  one notification at the next tick.
* `phase_agrees_iff`: **the phase is idle exactly when the wake bridge is released**, in
  the runs in which no error arrives while idle, and only in those.
* `error_while_idle`: such an error, on a controller that was never used.
-/

open Lib Ovms.Bap Ovms.EGolf

namespace Ovms.BatCtrl

/-! ### Failure notifications and ticks -/

/-- The failure notification of an entry. -/
def Obs.failure? : Obs → Option Notice
  | notified (.failed op cause) => some (.failed op cause)
  | _ => none

/-- The failure notifications of a log. -/
def failures (L : List Obs) : List Notice := L.filterMap Obs.failure?

theorem failures_append (L M : List Obs) : failures (L ++ M) = failures L ++ failures M :=
  List.filterMap_append

theorem telegrams_append (L M : List Obs) : telegrams (L ++ M) = telegrams L ++ telegrams M :=
  List.filterMap_append

/-- A call of the one-second tick. -/
def Event.isTick : Event → Bool
  | ticker1 _ => true
  | _ => false

/-- The ticks of a run. -/
def ticks (es : List Event) : ℕ := es.countP Event.isTick

theorem label_eq_tick (s : BatteryControl) (e : Event) : label s e = .tick ↔ e.isTick = true := by
  cases e with
  | charge enable => simp only [label, Event.isTick]; split <;> simp
  | incomingBapStatus f => simp only [label, Event.isTick]; split <;> simp
  | climate | setChargeCurrent | ticker1 | incomingClimaEcuStatus | abort | metrics =>
      simp [label, Event.isTick]

/-! ### The wake bridge -/

/-- The wake bridge of a command: none while idle, held while a command is in progress,
and never longer than it was taken for; and a command in progress is not confirmed. -/
structure Timed (c : Command) : Prop where
  idle : c.phase = .idle → c.wakeHold = 0
  held : c.Reached .wake → c.wakeHold ≠ 0 ∧ c.confirmed = false
  bound : c.wakeHold ≤ kWakeSecs

section Moves

variable {c c' : Command} {a : Label} {L : List Obs}

/-- The backstop of a command that is over does nothing. -/
theorem Resends.of_done (h : Resends c L c') (hdone : c.phase = .done) : L = [] ∧ c' = c := by
  cases h with
  | nothing => exact ⟨rfl, rfl⟩
  | handshake hphase | profileGet hphase | arm hphase | trigger hphase =>
      rw [hdone] at hphase
      cases hphase
  | rearm hphase =>
      rw [hdone] at hphase
      rcases hphase with h | ⟨h, -⟩ <;> cases h

theorem ClimatePhase.rank_pos {phase : ClimatePhase} (h : phase ≠ .idle) : 1 ≤ phase.rank := by
  cases phase with
  | idle => exact absurd rfl h
  | wake | handshake | profile | armWait | confirm | done => decide

/-- A command in progress is in progress after the backstop, and only then. -/
theorem Resends.reached (h : Resends c L c') (hphase : c.phase ≠ .idle) :
    c'.phase ≠ .idle ∧ (c'.Reached .wake → c.Reached .wake) := by
  have hpos := ClimatePhase.rank_pos hphase
  refine ⟨fun hidle => ?_, fun hr => ⟨hpos, fun hdone => ?_⟩⟩
  · have hle := h.rank_le
    rw [hidle] at hle
    have hzero : ClimatePhase.idle.rank = 0 := rfl
    omega
  · rw [(h.of_done hdone).2] at hr
    exact hr.2 hdone

theorem ArmsAndGoes.reached (h : ArmsAndGoes c L c') (hphase : c.phase = .profile) :
    c'.phase ≠ .idle ∧ c'.wakeHold = c.wakeHold ∧ c'.confirmed = c.confirmed := by
  refine ⟨fun hidle => ?_, by rw [h.keeps], by rw [h.keeps]⟩
  have hle := h.rank_le hphase
  rw [hphase, hidle] at hle
  exact absurd hle (by decide)

/-- Every move keeps the wake bridge in order. -/
theorem Move.timed (h : Move c a L c') (ht : Timed c) : Timed c' := by
  -- a command that was in progress is in progress, with the same bridge
  have hsame : ∀ {c₁ : Command}, c₁.wakeHold = c.wakeHold → c₁.confirmed = c.confirmed →
      c.Reached .wake → c₁.phase ≠ .idle → Timed c₁ := by
    intro c₁ hhold hconf hr hphase
    refine ⟨fun h => absurd h hphase, fun _ => ?_, hhold.le.trans ht.bound⟩
    rw [hhold, hconf]
    exact ht.held hr
  have hover : ∀ {c₁ : Command}, c₁.phase = .done → c₁.wakeHold ≤ c.wakeHold → Timed c₁ := by
    intro c₁ hdone hle
    refine ⟨fun h => ?_, fun hr => absurd hdone hr.2, hle.trans ht.bound⟩
    rw [hdone] at h
    cases h
  have hreached : ∀ {phase : ClimatePhase}, c.phase = phase → 1 ≤ phase.rank → phase ≠ .done →
      c.Reached .wake := by
    rintro phase rfl hpos hne
    exact ⟨hpos, hne⟩
  cases h with
  | begin =>
      have hsecs : kWakeSecs ≠ 0 := by decide
      exact ⟨fun h => (by cases h), fun _ => ⟨hsecs, rfl⟩, le_rfl⟩
  | abort => exact ⟨fun _ => rfl, fun hr => absurd hr (Command.not_reached .idle rfl (by decide)),
      Nat.zero_le _⟩
  | refuse | quiet | rest => exact ht
  | metrics | echoed | ignored => exact ⟨ht.idle, ht.held, ht.bound⟩
  | @tick c₁ _ _ hphase hhold hresend =>
      obtain ⟨hne, hr⟩ := hresend.reached hphase
      have hconf : c₁.confirmed = c.confirmed := by rw [hresend.keeps]
      refine ⟨fun h => absurd h hne, fun hr' => ⟨Nat.sub_ne_zero_of_lt hhold, ?_⟩,
        (Nat.sub_le _ _).trans ht.bound⟩
      exact hconf.trans (ht.held (hr hr')).2
  | finish => exact ⟨fun _ => rfl,
      fun hr => absurd hr (Command.not_reached .idle rfl (by decide)), Nat.zero_le _⟩
  | rejected | confirmed | written => exact hover rfl (Nat.min_le_left _ _)
  | opened hphase => exact hsame rfl rfl (hreached hphase (by decide) (by decide)) (by simp)
  | acked hphase => exact hsame rfl rfl (hreached hphase (by decide) (by decide)) (by simp)
  | released hphase => exact hsame rfl rfl (hreached hphase (by decide) (by decide)) (by simp)
  | reapplied hphase => exact hsame rfl rfl (hreached hphase (by decide) (by decide)) (by simp)
  | readBack hphase _ _ _ hgo =>
      obtain ⟨hne, hhold, hconf⟩ := hgo.reached hphase
      exact hsame hhold hconf (hreached hphase (by decide) (by decide)) hne

end Moves

theorem Timed.of_new {c : Command} (h : c.New) : Timed c := by
  refine ⟨fun _ => h.wakeHold, fun hr => ?_, by rw [h.wakeHold]; exact Nat.zero_le _⟩
  exact absurd hr (Command.not_reached .idle h.phase (by decide))

theorem reachable_timed {s : BatteryControl} (h : Reachable step Initial s) : Timed s.command := by
  exact reachable_invariant (I := fun c _ => Timed c) (fun c hnew => .of_new hnew)
    (fun hI hmove => hmove.timed hI) h

/-! ### A rejection is final -/

/-- The command is over: nothing holds the bus awake for it, and it was not confirmed. -/
structure Command.Ended (c : Command) : Prop where
  phase : c.phase = .idle ∨ c.phase = .done
  wakeHold : c.wakeHold = 0
  confirmed : c.confirmed = false

/-- The command was rejected, and its last second has begun. -/
structure Command.Rejected (c : Command) : Prop where
  phase : c.phase = .done
  wakeHold : c.wakeHold = 1
  confirmed : c.confirmed = false
  error : c.error = true

section Moves

variable {c c' : Command} {a : Label} {L : List Obs}

/-- A command that is over stays over, in silence. -/
theorem Move.of_ended (h : Move c a L c') (ha : a.opens = false) (hc : c.Ended) :
    c'.Ended ∧ telegrams L = [] ∧ failures L = [] := by
  obtain ⟨hphase, hhold, hconf⟩ := hc
  cases h with
  | begin | abort => cases ha
  | refuse | quiet | rest => exact ⟨⟨hphase, hhold, hconf⟩, rfl, rfl⟩
  | metrics | echoed | ignored => exact ⟨⟨hphase, hhold, hconf⟩, rfl, rfl⟩
  | tick _ hmore => omega
  | finish _ hlast => omega
  | rejected => exact ⟨⟨.inr rfl, by rw [hhold]; rfl, hconf⟩, rfl, rfl⟩
  | opened h | acked h | confirmed h | released h | reapplied h | written h | readBack h =>
      rw [h] at hphase
      rcases hphase with h | h <;> cases h

/-- A rejected command waits for the tick in silence, and the tick reports it. -/
theorem Move.of_rejected (h : Move c a L c') (ha : a.opens = false) (hc : c.Rejected) :
    telegrams L = [] ∧
      (a ≠ .tick → c'.Rejected ∧ c'.op = c.op ∧ failures L = []) ∧
      (a = .tick → c'.Ended ∧ failures L = [.failed c.op .rejected]) := by
  obtain ⟨hphase, hhold, hconf, herror⟩ := hc
  cases h with
  | begin | abort => cases ha
  | refuse | quiet | metrics | echoed =>
      exact ⟨rfl, fun _ => ⟨⟨hphase, hhold, hconf, herror⟩, rfl, rfl⟩, fun h => (by cases h)⟩
  | rest hrest =>
      rw [hphase, hhold] at hrest
      rcases hrest with h | h <;> cases h
  | tick _ hmore => omega
  | finish _ _ hresend hcause =>
      obtain ⟨rfl, rfl⟩ := hresend.of_done hphase
      rw [hconf, hcause herror]
      exact ⟨rfl, fun h => absurd rfl h, fun _ => ⟨⟨.inl rfl, rfl, rfl⟩, rfl⟩⟩
  | rejected =>
      refine ⟨rfl, fun _ => ⟨⟨rfl, ?_, hconf, rfl⟩, rfl, rfl⟩, fun h => (by cases h)⟩
      rw [hhold]
      rfl
  | ignored _ _ _ he =>
      refine ⟨rfl, fun _ => ⟨⟨hphase, hhold, hconf, ?_⟩, rfl, rfl⟩, fun h => (by cases h)⟩
      exact (he hphase).trans herror
  | opened h | acked h | confirmed h | released h | reapplied h | written h | readBack h =>
      rw [h] at hphase
      cases hphase

/-- An error past the wake phase is a rejection. -/
theorem Move.of_error {el : Element} (h : Move c (.receive el) L c') (hphase : c.phase ≠ .wake)
    (herr : el.opcode = Opcode.error.code) :
    L = [.received c.phase el] ∧
      c' = { c with error := true, phase := .done, wakeHold := min c.wakeHold 1 } := by
  have hstatus : el.opcode ≠ Opcode.status.code := by rw [herr]; decide
  have hown : isOwnArray el ≠ true := fun h => (opcode_of_isOwnArray h).1 herr
  have hecho : isSetEcho el ≠ true := fun h => hown (BatteryControl.isOwnArray_of_isSetEcho h)
  cases h with
  | rejected => exact ⟨rfl, rfl⟩
  | opened hwake => exact absurd hwake hphase
  | acked _ hack =>
      simp only [isHandshakeAck, Bool.and_eq_true, beq_iff_eq] at hack
      exact absurd hack.1 hstatus
  | confirmed _ hmode =>
      simp only [isOpMode, Bool.and_eq_true, beq_iff_eq] at hmode
      exact absurd hmode.1.1 hstatus
  | released _ h | reapplied _ h | written _ h | echoed _ h => exact absurd h hecho
  | readBack _ _ hreply =>
      simp only [isGetReply, Bool.and_eq_true] at hreply
      exact absurd hreply.1.1 hown
  | ignored _ hne => exact absurd herr hne

end Moves

/-- A run in which no command starts and none is dropped leaves a command that is over as
it is. -/
theorem ended_run (es : List Event) {s : BatteryControl} (hs : s.command.Ended)
    (hes : Within s es) :
    ∃ new, (es.foldl step s).log = s.log ++ new ∧ telegrams new = [] ∧ failures new = [] ∧
      (es.foldl step s).confirmed = false := by
  induction es generalizing s with
  | nil => exact ⟨[], (List.append_nil _).symm, rfl, rfl, hs.confirmed⟩
  | cons e es ih =>
      obtain ⟨he, hes⟩ := hes
      obtain ⟨L, hmove, hlog⟩ := step_move s e
      obtain ⟨hs', htel, hfail⟩ := hmove.of_ended he hs
      obtain ⟨new, hnew, htels, hfails, hconf⟩ := ih hs' hes
      refine ⟨L ++ new, ?_, ?_, ?_, hconf⟩
      · rw [List.foldl_cons, hnew, hlog, List.append_assoc]
      · rw [telegrams_append, htel, htels]
        rfl
      · rw [failures_append, hfail, hfails]
        rfl

/-- A run from a rejected command reports it at its first tick. -/
theorem rejected_run (es : List Event) {s : BatteryControl} (hs : s.command.Rejected)
    (hes : Within s es) :
    ∃ new, (es.foldl step s).log = s.log ++ new ∧ telegrams new = [] ∧
      failures new = (if ticks es = 0 then [] else [.failed s.op .rejected]) ∧
      (es.foldl step s).confirmed = false := by
  induction es generalizing s with
  | nil => exact ⟨[], (List.append_nil _).symm, rfl, rfl, hs.confirmed⟩
  | cons e es ih =>
      obtain ⟨he, hes⟩ := hes
      obtain ⟨L, hmove, hlog⟩ := step_move s e
      obtain ⟨htel, hother, htick⟩ := hmove.of_rejected he hs
      cases hkind : e.isTick with
      | true =>
          -- the tick reports it, and then there is silence
          obtain ⟨hs', hfail⟩ := htick ((label_eq_tick s e).mpr hkind)
          obtain ⟨new, hnew, htels, hfails, hconf⟩ := ended_run es hs' hes
          have hticks : ticks (e :: es) ≠ 0 := by
            rw [ticks, List.countP_cons_of_pos hkind]
            exact Nat.succ_ne_zero _
          refine ⟨L ++ new, ?_, ?_, ?_, hconf⟩
          · rw [List.foldl_cons, hnew, hlog, List.append_assoc]
          · rw [telegrams_append, htel, htels]
            rfl
          · rw [failures_append, hfail, hfails, if_neg hticks]
            rfl
      | false =>
          have hne : label s e ≠ .tick := fun h => by
            rw [(label_eq_tick s e).mp h] at hkind
            cases hkind
          obtain ⟨hs', hop, hfail⟩ := hother hne
          obtain ⟨new, hnew, htels, hfails, hconf⟩ := ih hs' hes
          have hticks : ticks (e :: es) = ticks es := by
            rw [ticks, List.countP_cons_of_neg (by rw [hkind]; exact Bool.false_ne_true)]
            rfl
          have hop' : (step s e).op = s.op := hop
          refine ⟨L ++ new, ?_, ?_, ?_, hconf⟩
          · rw [List.foldl_cons, hnew, hlog, List.append_assoc]
          · rw [telegrams_append, htel, htels]
            rfl
          · rw [failures_append, hfail, hfails, hticks, hop']
            rfl

/-- A command is live past the wake phase: it is in progress, or decided with its wake
bridge still held. -/
def Live (s : BatteryControl) : Prop :=
  s.phase ≠ .idle ∧ s.phase ≠ .wake ∧ (s.phase = .done → s.wakeHold ≠ 0)

/-- Whether a command is live can be computed. -/
instance (s : BatteryControl) : Decidable (Live s) :=
  inferInstanceAs
    (Decidable (s.phase ≠ .idle ∧ s.phase ≠ .wake ∧ (s.phase = .done → s.wakeHold ≠ 0)))

/-- **A rejection is final.** In every reachable state, when an error of the unit is
received for a live command that is not confirmed: in every continuation without a new
command or an abort no telegram is sent, the command is never confirmed, and the one
failure notification is the rejection, raised by the first tick. -/
theorem error_terminal {s : BatteryControl} (h : Reachable step Initial s) (hlive : Live s)
    (hconf : s.confirmed = false) {e : Event} (el : Element) (hel : label s e = .receive el)
    (herr : el.opcode = Opcode.error.code) (es : List Event) (hes : Within (step s e) es) :
    ∃ new, (es.foldl step (step s e)).log = s.log ++ new ∧ telegrams new = [] ∧
      failures new = (if ticks es = 0 then [] else [.failed s.op .rejected]) ∧
      (es.foldl step (step s e)).confirmed = false := by
  obtain ⟨hidle, hwake, hdone⟩ := hlive
  have hhold : s.wakeHold ≠ 0 := by
    by_cases hphase : s.phase = .done
    · exact hdone hphase
    · exact ((reachable_timed h).held ⟨ClimatePhase.rank_pos hidle, hphase⟩).1
  obtain ⟨L, hmove, hlog⟩ := step_move s e
  rw [hel] at hmove
  obtain ⟨rfl, hcmd⟩ := hmove.of_error hwake herr
  have hone : min s.command.wakeHold 1 = 1 := Nat.min_eq_right (Nat.one_le_iff_ne_zero.mpr hhold)
  have hrejected : (step s e).command.Rejected := by
    rw [hcmd, hone]
    exact ⟨rfl, rfl, hconf, rfl⟩
  have hop : (step s e).op = s.op := congrArg Command.op hcmd
  obtain ⟨new, hnew, htels, hfails, hend⟩ := rejected_run es hrejected hes
  refine ⟨.received s.phase el :: new, ?_, htels, ?_, hend⟩
  · rw [hnew, hlog, List.append_assoc]
    rfl
  · rw [← hop]
    exact hfails

/-- A climate start that waits for its profile. -/
def awaiting : BatteryControl := (.climate true :: opened).foldl step parked

/-- The unit rejects an operation. -/
def rejection : Event := .incomingBapStatus (.status [0x79, 0x58])

/-- The unit goes on talking while two seconds pass. -/
def aftermath : List Event :=
  reply .status .operationMode [1] ++ [.ticker1 true] ++
    reply .status .profilesArray (profileBody 0x31 1 16 optionName) ++ [.ticker1 true]

/-- The rejection of that climate start. -/
theorem error_terminal_awaiting :
    ∃ new, (aftermath.foldl step (step awaiting rejection)).log = awaiting.log ++ new ∧
      telegrams new = [] ∧
      failures new = (if ticks aftermath = 0 then [] else [.failed awaiting.op .rejected]) ∧
      (aftermath.foldl step (step awaiting rejection)).confirmed = false :=
  error_terminal (reachable_parked _) (by decide +kernel) (by decide +kernel)
    ⟨Opcode.error.code, kLsg, Func.operationMode.code, []⟩ (by decide +kernel) rfl aftermath
    (by decide +kernel)

/-! ### The phase and the wake bridge -/

/-- An error of the unit is received. -/
def Label.isError : Label → Bool
  | receive el => el.opcode == Opcode.error.code
  | _ => false

/-- An error of the unit is received while no command is running. -/
def ErrorWhileIdle (s : BatteryControl) (e : Event) : Prop :=
  s.phase = .idle ∧ (label s e).isError = true

/-- Whether that happens can be computed. -/
instance (s : BatteryControl) (e : Event) : Decidable (ErrorWhileIdle s e) :=
  inferInstanceAs (Decidable (s.phase = .idle ∧ (label s e).isError = true))

/-- The phase is idle exactly when the wake bridge is released. -/
def Command.Agrees (c : Command) : Prop := c.phase = .idle ↔ c.wakeHold = 0

/-- What was notified of the current command: at most one failure, and none while it
holds the bus, when it was confirmed, or when it was aborted. -/
structure Notified (c : Command) (seg : List Obs) : Prop where
  once : (failures seg).length ≤ 1
  held : c.wakeHold ≠ 0 → failures seg = []
  confirmed : c.confirmed = true → failures seg = []
  aborted : ∀ phase, .aborted phase ∈ seg → c.wakeHold = 0 ∧ failures seg = []

section Moves

variable {c c' : Command} {a : Label} {L seg log : List Obs} {ok : Bool}

/-- The bridge only shortens within a command, and by a second at every tick. -/
theorem Move.wakeHold_le (h : Move c a L c') (ha : ∀ op enable param, a ≠ .begin op enable param)
    (ht : Timed c) : c'.wakeHold ≤ c.wakeHold - if a = .tick then 1 else 0 := by
  cases h with
  | begin => exact absurd rfl (ha _ _ _)
  | abort => exact Nat.zero_le _
  | refuse | metrics | quiet | opened | acked | released | reapplied | echoed | ignored =>
      exact le_rfl
  | rest hrest =>
      have hzero : c.wakeHold = 0 := hrest.elim ht.idle id
      rw [hzero]
      exact Nat.zero_le _
  | tick => exact le_rfl
  | finish => exact Nat.zero_le _
  | rejected | confirmed | written => exact Nat.min_le_left _ _
  | readBack hphase _ _ _ hgo => exact (hgo.reached hphase).2.1.le

/-- A move keeps the agreement, unless an error is received while idle. -/
theorem Move.agrees (h : Move c a L c') (hc : c.Agrees)
    (herr : ¬ (c.phase = .idle ∧ a.isError = true)) : c'.Agrees := by
  -- a command that is not idle after the move agrees if its bridge is still held
  have hheld : ∀ {c₁ : Command}, c₁.phase ≠ .idle → c₁.wakeHold ≠ 0 → c₁.Agrees :=
    fun hphase hhold => ⟨fun h => absurd h hphase, fun h => absurd h hhold⟩
  have hne : ∀ {phase : ClimatePhase}, c.phase = phase → phase ≠ .idle → c.wakeHold ≠ 0 := by
    rintro phase rfl hphase hzero
    exact hphase (hc.mpr hzero)
  cases h with
  | begin => exact hheld (by simp) (by simp [kWakeSecs])
  | abort | finish => exact ⟨fun _ => rfl, fun _ => rfl⟩
  | refuse | metrics | quiet | rest | echoed | ignored => exact hc
  | tick hphase hhold hresend =>
      exact hheld (hresend.reached hphase).1 (Nat.sub_ne_zero_of_lt hhold)
  | @rejected el _ hopcode =>
      have hphase : c.phase ≠ .idle := fun hidle => herr ⟨hidle, beq_iff_eq.mpr hopcode⟩
      have := hne rfl hphase
      exact hheld (by simp) (by simp only; omega)
  | confirmed hphase | written hphase =>
      have := hne hphase (by simp)
      exact hheld (by simp) (by simp only; omega)
  | opened hphase | acked hphase | released hphase | reapplied hphase =>
      exact hheld (by simp) (hne hphase (by simp))
  | readBack hphase _ _ _ hgo =>
      obtain ⟨hidle, hhold, -⟩ := hgo.reached hphase
      exact hheld hidle (hhold.trans_ne (hne hphase (by simp)))

theorem Arms.failures_eq (h : Arms c L ok) : failures L = [] := by
  cases h <;> rfl

theorem ArmsAndGoes.failures_eq (h : ArmsAndGoes c L c') : failures L = [] := by
  cases h with
  | failed harm | waits harm | settles harm => exact harm.failures_eq
  | triggers => rfl

theorem Resends.failures_eq (h : Resends c L c') : failures L = [] := by
  cases h with
  | nothing | handshake | profileGet | trigger => rfl
  | arm _ _ hgo => exact hgo.failures_eq
  | rearm _ harm => exact harm.failures_eq

/-- A move within a command keeps what was notified of it in order. -/
theorem Move.notified (h : Move c a L c') (ha : a.opens = false) (ht : Timed c)
    (hplain : ∀ o ∈ L, o.opens = false) (hn : Notified c seg) : Notified c' (seg ++ L) := by
  have hnoabort : ∀ {phase}, .aborted phase ∈ seg ++ L → .aborted phase ∈ seg := by
    intro phase hmem
    rcases List.mem_append.mp hmem with hseg | hnew
    · exact hseg
    · exact absurd (hplain _ hnew) (by simp [Obs.opens])
  -- a move that notifies no failure, and confirms only what holds the bus
  have hquiet : failures L = [] → (c'.wakeHold ≠ 0 → c.wakeHold ≠ 0) →
      (c'.confirmed = true → c.confirmed = true ∨ c.wakeHold ≠ 0) → Notified c' (seg ++ L) := by
    intro hnone hhold hconf
    have heq : failures (seg ++ L) = failures seg := by
      rw [failures_append, hnone, List.append_nil]
    refine ⟨heq ▸ hn.once, fun h => heq ▸ hn.held (hhold h), fun h => ?_, fun phase hmem => ?_⟩
    · rw [heq]
      exact (hconf h).elim hn.confirmed hn.held
    · obtain ⟨hzero, hfail⟩ := hn.aborted phase (hnoabort hmem)
      exact ⟨by_contra fun h => hhold h hzero, heq ▸ hfail⟩
  have hstays : ∀ {phase : ClimatePhase}, c.phase = phase → 1 ≤ phase.rank → phase ≠ .done →
      c.wakeHold ≠ 0 := by
    rintro phase rfl hpos hne
    exact (ht.held ⟨hpos, hne⟩).1
  cases h with
  | begin | abort => cases ha
  | refuse | metrics | quiet | rest | opened | acked | released | reapplied | echoed | ignored =>
      exact hquiet rfl id .inl
  | tick _ hhold hresend =>
      have hconf := congrArg Command.confirmed hresend.keeps
      refine hquiet hresend.failures_eq (fun _ => by omega) fun h => .inl (hconf.symm.trans h)
  | @finish c₁ w L₀ cause _ hhold hresend _ =>
      have hnone := hn.held (by omega)
      have hL : failures (.nmWake w :: L₀ ++ if c.confirmed then [] else
          [.notified (.failed c.op cause)])
          = if c.confirmed then [] else [.failed c.op cause] := by
        rw [failures_append]
        have hfront : failures (.nmWake w :: L₀) = [] := hresend.failures_eq
        rw [hfront]
        split <;> rfl
      have heq : failures (seg ++ (.nmWake w :: L₀ ++ if c.confirmed then [] else
          [.notified (.failed c.op cause)]))
          = if c.confirmed then [] else [.failed c.op cause] := by
        rw [failures_append, hnone, hL, List.nil_append]
      have hconf : c₁.confirmed = c.confirmed := by rw [hresend.keeps]
      refine ⟨?_, fun h => absurd rfl h, fun h => ?_, fun phase hmem => ?_⟩
      · rw [heq]
        split <;> simp
      · rw [heq, if_pos (hconf.symm.trans h)]
      · have hzero := (hn.aborted phase (hnoabort hmem)).1
        omega
  | rejected => exact hquiet rfl (fun h => by simp only at h; omega) .inl
  | confirmed hphase | written hphase =>
      exact hquiet rfl (fun h => by simp only at h; omega)
        fun _ => .inr (hstays hphase (by decide) (by decide))
  | readBack hphase _ _ _ hgo =>
      obtain ⟨-, hhold, hconf⟩ := hgo.reached hphase
      exact hquiet hgo.failures_eq (fun h => hhold ▸ h) fun h => .inl (hconf.symm.trans h)

end Moves

/-- What was notified is in order in every reachable state. -/
theorem reachable_notified {s : BatteryControl} (h : Reachable step Initial s) :
    Notified s.command (current s.log) := by
  refine (reachable_invariant (I := fun c log =>
    (History c log ∧ Timed c) ∧ Notified c (current log)) (fun c hnew => ?_)
    (fun {c a L c' log} hI hmove => ?_) h).2
  · refine ⟨⟨.of_new hnew, .of_new hnew⟩, ?_, fun _ => rfl, fun _ => rfl, ?_⟩
    · exact Nat.zero_le _
    · intro phase hmem
      simp [current] at hmem
  · obtain ⟨⟨hhist, ht⟩, hn⟩ := hI
    refine ⟨⟨hmove.history hhist, hmove.timed ht⟩, ?_⟩
    cases ha : a.opens with
    | false =>
        have hplain := (hmove.extends ha hhist.explains).plain
        rw [current_append hplain]
        exact hmove.notified ha ht hplain hn
    | true =>
        cases hmove with
        | begin =>
            rw [current, sinceLast_append_cons log rfl (by simp [Obs.opens])]
            exact ⟨Nat.zero_le _, fun _ => rfl, fun _ => rfl, by simp⟩
        | abort =>
            rw [current, sinceLast_append_cons log rfl (by simp)]
            exact ⟨Nat.zero_le _, fun _ => rfl, fun _ => rfl, fun _ _ => ⟨rfl, rfl⟩⟩
        | _ => cases ha

/-- No command starts in the run. -/
def NoBegin (s : BatteryControl) (es : List Event) : Prop :=
  Along step (fun s e => ∀ op enable param, label s e ≠ .begin op enable param) s es

/-- The bridge shortens by a second at every tick, whatever else happens. -/
theorem wakeHold_run (es : List Event) {s : BatteryControl} (h : Reachable step Initial s)
    (hes : NoBegin s es) : (es.foldl step s).wakeHold ≤ s.wakeHold - ticks es := by
  induction es generalizing s with
  | nil => exact le_rfl
  | cons e es ih =>
      obtain ⟨he, hes⟩ := hes
      obtain ⟨L, hmove, -⟩ := step_move s e
      have hstep : (step s e).wakeHold ≤ s.wakeHold - if label s e = .tick then 1 else 0 :=
        hmove.wakeHold_le he (reachable_timed h)
      have hrest := ih (h.step e) hes
      have hticks : ticks (e :: es) = ticks es + if label s e = .tick then 1 else 0 := by
        rw [ticks, List.countP_cons]
        simp only [label_eq_tick]
        rfl
      rw [List.foldl_cons, hticks]
      omega

/-- What the wake bridge promises along a run: in every state reached the phase is idle
exactly when the bridge is released; as many ticks as the bridge is held at most end every
command; and failures are notified once, and of unsuccessful commands only. -/
structure BridgeContract (s₀ : BatteryControl) (es : List Event) : Prop where
  agrees : ∀ pre post, es = pre ++ post → (pre.foldl step s₀).command.Agrees
  returns : ∀ pre mid post, es = pre ++ (mid ++ post) → NoBegin (pre.foldl step s₀) mid →
    kWakeSecs ≤ ticks mid → (mid.foldl step (pre.foldl step s₀)).phase = .idle
  notifies : ∀ pre post, es = pre ++ post →
    Notified (pre.foldl step s₀).command (current (pre.foldl step s₀).log)

/-- A run without an error while idle keeps the agreement. -/
theorem agrees_run (es : List Event) {s : BatteryControl} (hs : s.command.Agrees)
    (hes : Along step (fun s e => ¬ ErrorWhileIdle s e) s es) :
    (es.foldl step s).command.Agrees := by
  induction es generalizing s with
  | nil => exact hs
  | cons e es ih =>
      obtain ⟨he, hes⟩ := hes
      obtain ⟨L, hmove, -⟩ := step_move s e
      exact ih (hmove.agrees hs he) hes

/-- **The phase is idle exactly when the wake bridge is released.** A run from a new
controller keeps what the bridge promises if and only if no error of the unit is received
in it while no command is running. -/
theorem phase_agrees_iff {s₀ : BatteryControl} (h : Initial s₀) (es : List Event) :
    BridgeContract s₀ es ↔ Along step (fun s e => ¬ ErrorWhileIdle s e) s₀ es := by
  have hreach : ∀ pre : List Event, Reachable step Initial (pre.foldl step s₀) :=
    fun pre => (Reachable.of_init h).foldl pre
  constructor
  · intro hcontract
    refine along_iff.mpr fun pre e post hes herror => ?_
    obtain ⟨hidle, hreceived⟩ := herror
    obtain ⟨el, hlabel, herr⟩ : ∃ el, label (pre.foldl step s₀) e = .receive el ∧
        el.opcode = Opcode.error.code := by
      cases hlabel : label (pre.foldl step s₀) e with
      | receive el =>
          rw [hlabel] at hreceived
          exact ⟨el, rfl, beq_iff_eq.mp hreceived⟩
      | begin | refuse | abort | tick | quiet | metrics =>
          rw [hlabel] at hreceived
          cases hreceived
    -- the error leaves the idle phase, and there is no bridge to bring it back
    obtain ⟨L, hmove, -⟩ := step_move (pre.foldl step s₀) e
    rw [hlabel] at hmove
    have hwake : (pre.foldl step s₀).phase ≠ .wake := by
      rw [hidle]
      decide
    obtain ⟨-, hcmd⟩ := hmove.of_error hwake herr
    have hzero := (reachable_timed (hreach pre)).idle hidle
    have hagrees := hcontract.agrees (pre ++ [e]) post (by rw [hes]; simp)
    rw [List.foldl_append, List.foldl_cons, List.foldl_nil, hcmd, hzero] at hagrees
    exact absurd (hagrees.mpr rfl) (by simp)
  · intro halong
    have hagrees : ∀ pre post, es = pre ++ post → (pre.foldl step s₀).command.Agrees := by
      rintro pre post rfl
      exact agrees_run pre ⟨fun _ => h.wakeHold, fun _ => h.phase⟩ (along_append.mp halong).1
    refine ⟨hagrees, fun pre mid post hes hmid hticks => ?_,
      fun pre post hes => reachable_notified (hreach pre)⟩
    have hle := wakeHold_run mid (hreach pre) hmid
    have hbound : (pre.foldl step s₀).wakeHold ≤ kWakeSecs := (reachable_timed (hreach pre)).bound
    have hend := hagrees (pre ++ mid) post (by rw [hes, List.append_assoc])
    rw [List.foldl_append] at hend
    refine hend.mpr ?_
    have hzero : (mid.foldl step (pre.foldl step s₀)).wakeHold = 0 := by omega
    exact hzero

/-- A climate start and the two seconds after it keep what the bridge promises. -/
theorem phase_agrees_climateStart :
    BridgeContract parked (climateStart optionName ++ [.ticker1 true, .ticker1 true]) :=
  (phase_agrees_iff (zeroed_initial _ _) _).mpr (by decide +kernel)

/-- A rejection reaches a controller that was never used: the phase is no longer idle, and
no bridge is held. -/
theorem error_while_idle : ¬ BridgeContract parked [rejection] := by
  intro hcontract
  have hagrees := hcontract.agrees [rejection] [] rfl
  have hphase : ([rejection].foldl step parked).phase = .done := by decide +kernel
  have hhold : ([rejection].foldl step parked).wakeHold = 0 := by decide +kernel
  have hidle := hagrees.mpr hhold
  rw [BatteryControl.command, hphase] at hidle
  cases hidle

end Ovms.BatCtrl
