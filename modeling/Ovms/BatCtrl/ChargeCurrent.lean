import Ovms.BatCtrl.Terminal
import Ovms.BatCtrl.Write

/-!
# Reporting the Charge Current

A command that sets the charge current takes the requested value for the limit metric when
the write echo arrives. The echo is looked at in every phase, so one that answers a write
of an earlier command is taken for the answer to a write that was not sent yet.

Which echo answers which write is a parameter (`mine`): the client id alone, as the module
compares it, or the transaction id as well.
-/

open Lib Ovms.Bap Ovms.EGolf

namespace Ovms.BatCtrl

/-! ### What a command has written -/

/-- The start of a command. -/
def Obs.starts : Obs → Bool
  | started .. => true
  | _ => false

/-- The log since the last start of a command. -/
def sinceStart (log : List Obs) : List Obs := sinceLast Obs.starts log

theorem starts_of_opens {o : Obs} (h : o.opens = false) : o.starts = false := by
  cases o <;> first | rfl | cases h

theorem armRecord_setCurrent (apply : Bool) {param : UInt8} (profile0 : Profile)
    (h : param ≤ kMaxCurrentHardLimit) :
    (armRecord .setCurrent apply param profile0).maxCurrent = param := by
  have hle : ¬ param > kMaxCurrentHardLimit := UInt8.not_lt.mpr h
  cases apply <;> simp only [armRecord, hle, Bool.false_eq_true, if_true, if_false]

/-- The writes of an entry list are records of the command `c`, for some profile read. -/
def WritesOf (c : Command) (L : List Obs) : Prop :=
  ∀ asgTxn q writes ok, .telegram (.profileWrite asgTxn q) writes ok ∈ L →
    ∃ profile0, q = armRecord c.op c.apply c.param profile0

section Moves

variable {c c' : Command} {a : Label} {L : List Obs} {ok : Bool}

theorem Arms.writesOf (h : Arms c L ok) : WritesOf c L := by
  intro asgTxn q writes ok' hmem
  cases h with
  | skip => simp at hmem
  | write =>
      simp only [List.mem_singleton, Obs.telegram.injEq, BapTelegram.profileWrite.injEq] at hmem
      exact ⟨c.profile0, hmem.1.2⟩

theorem ArmsAndGoes.writesOf (h : ArmsAndGoes c L c') : WritesOf c L := by
  cases h with
  | failed harm | waits harm | settles harm => exact harm.writesOf
  | triggers => exact fun _ _ _ _ hmem => by simp at hmem

theorem Resends.writesOf (h : Resends c L c') : WritesOf c L := by
  cases h with
  | nothing | handshake | profileGet | trigger => exact fun _ _ _ _ hmem => by simp at hmem
  | arm _ _ hgo => exact hgo.writesOf
  | rearm _ harm => exact harm.writesOf

/-- A move writes only records of the command. -/
theorem Move.writesOf (h : Move c a L c') : WritesOf c L := by
  cases h with
  | begin | refuse | abort | metrics | quiet | rest | opened | acked | rejected | confirmed
  | released | reapplied | written | echoed | ignored => exact fun _ _ _ _ hmem => by simp at hmem
  | tick _ _ hresend => exact fun _ _ _ _ hmem => hresend.writesOf _ _ _ _ (by simpa using hmem)
  | finish _ _ hresend =>
      intro asgTxn q writes ok hmem
      refine hresend.writesOf asgTxn q writes ok ?_
      rcases List.mem_append.mp hmem with hsent | hnote
      · simpa using hsent
      · split at hnote <;> simp at hnote
  | readBack _ _ _ _ hgo => exact fun _ _ _ _ hmem => hgo.writesOf _ _ _ _ (by simpa using hmem)

/-- Within a command, and after an abort, the request stays what it is. -/
theorem Move.keeps (h : Move c a L c') (ha : ∀ op enable param, a ≠ .begin op enable param) :
    c'.op = c.op ∧ c'.param = c.param ∧ c'.apply = c.apply := by
  cases h with
  | begin => exact absurd rfl (ha _ _ _)
  | tick _ _ hresend | finish _ _ hresend =>
      rw [hresend.keeps]
      exact ⟨rfl, rfl, rfl⟩
  | readBack _ _ _ _ hgo =>
      rw [hgo.keeps]
      exact ⟨rfl, rfl, rfl⟩
  | refuse | abort | metrics | quiet | rest | opened | acked | rejected | confirmed
  | released | reapplied | written | echoed | ignored => exact ⟨rfl, rfl, rfl⟩

/-- A write echo, for a command that sets the charge current, past the wake phase: the
metric takes the requested value, and a command that is only a write is confirmed if it
waits for that. -/
theorem Move.of_setEcho {el : Element} (h : Move c (.receive el) L c') (hphase : c.phase ≠ .wake)
    (hecho : isSetEcho el = true) (hop : c.op = .setCurrent) :
    c'.climit = c.param.toNat ∧ (c.WriteOnly ∧ c.phase = .confirm → c'.confirmed = true) ∧
      (¬ (c.WriteOnly ∧ c.phase = .confirm) → c'.confirmed = c.confirmed) := by
  have hown := BatteryControl.isOwnArray_of_isSetEcho hecho
  obtain ⟨herr, hmode⟩ := opcode_of_isOwnArray hown
  cases h with
  | opened hwake => exact absurd hwake hphase
  | acked _ hack =>
      simp only [isOwnArray, isHandshakeAck, Bool.and_eq_true, Bool.or_eq_true, beq_iff_eq]
        at hown hack
      rcases hack.2 with hfunc | hfunc <;> rw [hown.1.2] at hfunc <;> cases hfunc
  | rejected _ hopcode => exact absurd hopcode herr
  | confirmed _ hmode' =>
      rw [hmode] at hmode'
      cases hmode'
  | released _ _ hne => exact absurd hop hne
  | reapplied hwait _ _ happly =>
      refine ⟨rfl, fun h => ?_, fun _ => rfl⟩
      rw [hwait] at h
      cases h.2
  | written hconf _ hkind => exact ⟨rfl, fun _ => rfl, fun h => absurd ⟨hkind, hconf⟩ h⟩
  | echoed _ _ _ _ hsettle =>
      exact ⟨rfl, fun h => absurd ⟨h.1.2, h.2⟩ hsettle, fun _ => rfl⟩
  | readBack _ _ hreply =>
      -- the bit that marks an echo is clear in the answer to a request
      simp only [isGetReply, isSetEcho, Bool.and_eq_true, beq_iff_eq, bne_iff_ne, ne_eq]
        at hreply hecho
      exact absurd hreply.1.2 hecho.2
  | ignored _ _ hnot => exact absurd hop (hnot hecho)

/-- For a command that sets the charge current only a write echo past the wake phase
changes the metric. -/
theorem Move.climit_eq (h : Move c a L c') (hop : c.op = .setCurrent) (hmetrics : a ≠ .metrics)
    (hne : c'.climit ≠ c.climit) :
    ∃ el, a = .receive el ∧ isSetEcho el = true ∧ c.phase ≠ .wake := by
  cases h with
  | metrics => exact absurd rfl hmetrics
  | begin | refuse | abort | quiet | rest | opened | acked | rejected | confirmed | released
  | ignored => exact absurd rfl hne
  | tick _ _ hresend | finish _ _ hresend =>
      rw [hresend.keeps] at hne
      exact absurd rfl hne
  | reapplied hphase hecho | written hphase hecho =>
      exact ⟨_, rfl, hecho, by rw [hphase]; decide⟩
  | echoed hphase hecho => exact ⟨_, rfl, hecho, hphase⟩
  | readBack _ _ _ _ hgo =>
      rw [hgo.keeps] at hne
      simp only [hop, ne_eq, not_true_eq_false, if_false] at hne

/-- In the wake phase an element changes neither the metric nor the confirmation. -/
theorem Move.of_wake {el : Element} (h : Move c (.receive el) L c') (hphase : c.phase = .wake) :
    c'.climit = c.climit ∧ c'.confirmed = c.confirmed := by
  cases h with
  | opened => exact ⟨rfl, rfl⟩
  | rejected h | echoed h | ignored h => exact absurd hphase h
  | acked h | confirmed h | released h | reapplied h | written h | readBack h =>
      rw [hphase] at h
      cases h

end Moves

/-- In every reachable state, the writes of a command that sets the charge current carry
the current that was requested. -/
theorem reachable_wrote {s : BatteryControl} (h : Reachable step Initial s)
    (hop : s.op = .setCurrent) {asgTxn : UInt8} {q : Profile} {writes : List CanWrite} {ok : Bool}
    (hmem : .telegram (.profileWrite asgTxn q) writes ok ∈ sinceStart s.log) :
    q.maxCurrent = s.param := by
  have hwrites : WritesOf s.command (sinceStart s.log) := by
    refine (reachable_invariant (I := fun c log => History c log ∧ WritesOf c (sinceStart log))
      (fun c hnew => ⟨.of_new hnew, fun _ _ _ _ hmem => by simp [sinceStart] at hmem⟩)
      (fun {c a L c' log} hI hmove => ⟨hmove.history hI.1, ?_⟩) h).2
    by_cases ha : ∀ op enable param, a ≠ .begin op enable param
    · have hplain : ∀ o ∈ L, o.starts = false := by
        cases hopens : a.opens with
        | false =>
            exact fun o ho => starts_of_opens ((hmove.extends hopens hI.1.explains).plain o ho)
        | true =>
            cases hmove with
            | begin => exact absurd rfl (ha _ _ _)
            | abort => simp [Obs.starts]
            | _ => cases hopens
      obtain ⟨hop, hparam, happly⟩ := hmove.keeps ha
      intro asgTxn q writes ok hmem
      rw [sinceStart, sinceLast_append _ hplain] at hmem
      rw [hop, hparam, happly]
      rcases List.mem_append.mp hmem with hold | hnew
      · exact hI.2 _ _ _ _ hold
      · exact hmove.writesOf _ _ _ _ hnew
    · simp only [not_forall, not_not] at ha
      obtain ⟨op, enable, param, rfl⟩ := ha
      cases hmove with
      | begin =>
          rw [sinceStart, sinceLast_append_cons log rfl (by simp [Obs.starts])]
          exact fun _ _ _ _ hmem => by simp at hmem
  obtain ⟨profile0, rfl⟩ := hwrites _ _ _ _ hmem
  have hle := (reachable_history h).explains.param hop
  have hset : s.command.op = .setCurrent := hop
  rw [hset]
  exact armRecord_setCurrent _ profile0 hle

/-! ### What is reported -/

section Reporting

variable {mine : UInt8 → UInt8 → Prop} {s : BatteryControl} {e : Event} {el : Element}

/-- Since it started, the command transmitted a write that the echo `el` answers. -/
def Answers (mine : UInt8 → UInt8 → Prop) (s : BatteryControl) (el : Element)
    (q : Profile) : Prop :=
  ∃ asgTxn writes, .telegram (.profileWrite asgTxn q) writes true ∈ sinceStart s.log ∧
    mine (arrayLead el) asgTxn

/-- A command that sets the charge current changes the limit metric only when it receives
the echo of a write of its own, which carried the requested current; and any other write
echo changes neither the metric nor the confirmation. -/
structure ReportsOwn (mine : UInt8 → UInt8 → Prop) (s : BatteryControl) (e : Event) : Prop where
  changes : s.op = .setCurrent → label s e ≠ .metrics →
    (step s e).metrics.climit ≠ s.metrics.climit →
    ∃ el q, label s e = .receive el ∧ isSetEcho el = true ∧ Answers mine s el q ∧
      q.maxCurrent = s.param
  ignores : s.op = .setCurrent → ∀ el, label s e = .receive el → isSetEcho el = true →
    (¬ ∃ q, Answers mine s el q ∧ q.maxCurrent = s.param) →
    (step s e).metrics.climit = s.metrics.climit ∧ (step s e).confirmed = s.confirmed

/-- A write echo arrives, past the wake phase, that answers no write of the command, while
the metric does not show the requested current or a command that is only a write waits for
its confirmation. -/
def Untimely (mine : UInt8 → UInt8 → Prop) (s : BatteryControl) (e : Event) : Prop :=
  s.op = .setCurrent ∧ s.phase ≠ .wake ∧
    (s.metrics.climit ≠ s.param.toNat ∨ (s.command.WriteOnly ∧ s.phase = .confirm)) ∧
    ∃ el, label s e = .receive el ∧ isSetEcho el = true ∧ ¬ ∃ q, Answers mine s el q

/-- **One call reports only what was written**, unless an echo is untimely. -/
theorem reportsOwn_iff (h : Reachable step Initial s) :
    ReportsOwn mine s e ↔ ¬ Untimely mine s e := by
  obtain ⟨L, hmove, -⟩ := step_move s e
  have hclimit : (step s e).metrics.climit = (step s e).command.climit := rfl
  have hconf : (step s e).confirmed = (step s e).command.confirmed := rfl
  constructor
  · rintro hown ⟨hop, hphase, heffect, el, hel, hecho, hnone⟩
    rw [hel] at hmove
    obtain ⟨hmetric, hsettle, -⟩ := hmove.of_setEcho hphase hecho hop
    obtain ⟨hsame, hsame'⟩ := hown.ignores hop el hel hecho fun ⟨q, hq, _⟩ => hnone ⟨q, hq⟩
    rcases heffect with hne | ⟨hkind, hwait⟩
    · exact hne (hsame.symm.trans hmetric)
    · -- a command that waits for its confirmation is not confirmed
      have hreached : s.command.Reached .wake := by
        rw [Command.Reached, show s.command.phase = .confirm from hwait]
        decide
      have hfalse : s.confirmed = false := ((reachable_timed h).held hreached).2
      rw [hconf, hsettle ⟨hkind, hwait⟩, hfalse] at hsame'
      cases hsame'
  · intro htimely
    refine ⟨fun hop hmetrics hne => ?_, fun hop el hel hecho hnone => ?_⟩
    · obtain ⟨el, hel, hecho, hphase⟩ := hmove.climit_eq hop hmetrics hne
      have hmove' := hmove
      rw [hel] at hmove'
      have hmetric := (hmove'.of_setEcho hphase hecho hop).1
      have hdiffers : s.metrics.climit ≠ s.param.toNat := fun heq =>
        hne (hmetric.trans heq.symm)
      obtain ⟨q, hq⟩ : ∃ q, Answers mine s el q := by
        by_contra hnone
        exact htimely ⟨hop, hphase, .inl hdiffers, el, hel, hecho, hnone⟩
      obtain ⟨asgTxn, writes, hmem, hmine⟩ := hq
      exact ⟨el, q, hel, hecho, ⟨asgTxn, writes, hmem, hmine⟩, reachable_wrote h hop hmem⟩
    · rw [hel] at hmove
      by_cases hphase : s.phase = .wake
      · exact hmove.of_wake hphase
      · have hunanswered : ¬ ∃ q, Answers mine s el q := by
          rintro ⟨q, asgTxn, writes, hmem, hmine⟩
          exact hnone ⟨q, ⟨asgTxn, writes, hmem, hmine⟩, reachable_wrote h hop hmem⟩
        have hcalm : ¬ (s.metrics.climit ≠ s.param.toNat ∨
            (s.command.WriteOnly ∧ s.phase = .confirm)) := fun heffect =>
          htimely ⟨hop, hphase, heffect, el, hel, hecho, hunanswered⟩
        obtain ⟨hshows, hwaits⟩ := not_or.mp hcalm
        obtain ⟨hmetric, -, hkeeps⟩ := hmove.of_setEcho hphase hecho hop
        exact ⟨hmetric.trans (not_not.mp hshows).symm, hkeeps hwaits⟩

/-- **The charge-limit metric reports only what was written.** Whichever echo answers
which write: along a run from a new controller every change of the metric by a command
that sets the charge current follows its own write of the requested current and the echo
of that write, and other echoes change neither the metric nor the confirmation, if and
only if no echo in the run is untimely. -/
theorem reports_own_iff {s₀ : BatteryControl} (h : Initial s₀) (es : List Event) :
    Along step (ReportsOwn mine) s₀ es ↔ Along step (fun s e => ¬ Untimely mine s e) s₀ es := by
  have hreach : ∀ pre : List Event, Reachable step Initial (pre.foldl step s₀) :=
    fun pre => (Reachable.of_init h).foldl pre
  rw [along_iff, along_iff]
  constructor
  · exact fun hown pre e post hes => (reportsOwn_iff (hreach pre)).mp (hown pre e post hes)
  · exact fun htimely pre e post hes => (reportsOwn_iff (hreach pre)).mpr (htimely pre e post hes)

end Reporting

/-- A charge current is set and written, and then another one is asked for, up to its
handshake. -/
def superseded : List Event :=
  .setChargeCurrent 5 :: opened ++
    reply .status .profilesArray (profileBody 0x31 1 16 optionName) ++
    .setChargeCurrent 10 :: reply .status .bapConfig [1, 2]

/-- The echo of the first write. -/
def lateEcho : Event := .incomingBapStatus (.status [0x49, 0x59, 0xB2, 0, 0, 1])

/-- When transaction ids are compared too, that run reports only what was written exactly
if none of its echoes is untimely. -/
theorem reports_own_superseded :
    Along step (ReportsOwn fun lead asgTxn => lead = asgTxn ||| 0x80) parked superseded ↔
      Along step (fun s e => ¬ Untimely (fun lead asgTxn => lead = asgTxn ||| 0x80) s e) parked
        superseded :=
  reports_own_iff (zeroed_initial _ _) superseded

/-- The echo of the superseded write reports the second current, before anything was
written for it, even when any echo may answer any write. -/
theorem early_echo_reported :
    ¬ Along step (ReportsOwn fun _ _ => True) parked (superseded ++ [lateEcho]) := by
  intro halong
  have hown := along_iff.mp halong superseded lateEcho [] rfl
  obtain ⟨el, q, -, -, ⟨asgTxn, writes, hmem, -⟩, -⟩ :=
    hown.changes (by decide +kernel) (by decide +kernel) (by decide +kernel)
  have hnone : ∀ t ∈ telegrams (sinceStart (superseded.foldl step parked).log), t.rank ≠ 2 := by
    decide +kernel
  exact hnone _ (mem_telegrams.mpr ⟨writes, true, hmem⟩) rfl

end Ovms.BatCtrl
