import Ovms.BatCtrl.History

/-!
# The Order of Telegrams

Within one command the telegrams are handshakes, then profile requests, then profile
writes, then triggers, each kind sent only after what it waits for; and the phase only
moves on, until the command is over.

A reply is recognised by the client id of its leading byte, by the bit that tells a write
echo from the answer to a request, and by the phase that waits for it. Its transaction id
is not compared with the one that was sent.

## Main results

* `telegram_order`: **the order of telegrams and phases**, in every run.
* `reply_order`: **an array reply moves a command on only where its own request stands
  before it**.
* `stale_reply_taken`: a reply to a superseded command can be taken for the answer to a
  later request.
-/

open Lib Ovms.Bap Ovms.EGolf

namespace Ovms.BatCtrl

/-! ### The telegrams of a log -/

/-- The telegram of an entry. -/
def Obs.telegram? : Obs → Option BapTelegram
  | telegram t _ _ => some t
  | _ => none

/-- The telegrams of a log. -/
def telegrams (seg : List Obs) : List BapTelegram := seg.filterMap Obs.telegram?

/-- The telegrams of one place. -/
def ofRank (k : ℕ) (ts : List BapTelegram) : List BapTelegram := ts.filter fun t => t.rank = k

/-- Handshakes, then profile requests, then profile writes, then triggers; at least one
handshake if there is anything. -/
def Sequenced (ts : List BapTelegram) : Prop :=
  ts = ofRank 0 ts ++ (ofRank 1 ts ++ (ofRank 2 ts ++ ofRank 3 ts)) ∧ (ts ≠ [] → ofRank 0 ts ≠ [])

/-- A telegram of a log comes from an entry. -/
theorem mem_telegrams {seg : List Obs} {t : BapTelegram} :
    t ∈ telegrams seg ↔ ∃ writes ok, .telegram t writes ok ∈ seg := by
  rw [telegrams, List.mem_filterMap]
  constructor
  · rintro ⟨o, hmem, ho⟩
    cases o with
    | telegram t' writes ok =>
        cases ho
        exact ⟨writes, ok, hmem⟩
    | started | aborted | nmWake | received | readBack | notified => cases ho
  · rintro ⟨writes, ok, hmem⟩
    exact ⟨_, hmem, rfl⟩

theorem BapTelegram.rank_lt (t : BapTelegram) : t.rank < 4 := by
  cases t <;> simp [rank]

/-- Telegrams that are each in order follow the sequence. -/
theorem sequenced_of_inOrder {seg : List Obs}
    (h : ∀ {pre post : List Obs} {t : BapTelegram} {writes : List CanWrite} {ok : Bool},
      seg = pre ++ .telegram t writes ok :: post → InOrder pre t) : Sequenced (telegrams seg) := by
  have hpair : seg.Pairwise fun o o' =>
      ∀ t ∈ o.telegram?, ∀ t' ∈ o'.telegram?, t.rank ≤ t'.rank := by
    refine Justified.pairwise fun pre o post hseg o' ho' t ht t' ht' => ?_
    obtain ⟨writes, ok, rfl⟩ : ∃ writes ok, o = .telegram t' writes ok := by
      cases o <;> cases ht'
      exact ⟨_, _, rfl⟩
    obtain ⟨writes', ok', rfl⟩ : ∃ writes ok, o' = .telegram t writes ok := by
      cases o' <;> cases ht
      exact ⟨_, _, rfl⟩
    exact (h hseg).order ho'
  have hsort : (telegrams seg).Pairwise fun t t' => t.rank ≤ t'.rank :=
    List.pairwise_filterMap.mpr (hpair.imp fun h t ht t' ht' => h t ht t' ht')
  refine ⟨?_, fun hne => ?_⟩
  · have hflat := eq_flatMap_of_sorted 4 hsort fun t _ => t.rank_lt
    simpa [ofRank, List.range_succ] using hflat
  · -- some telegram was sent, so a handshake was
    obtain ⟨t, ht⟩ := List.exists_mem_of_ne_nil _ hne
    obtain ⟨writes, ok, hmem⟩ := mem_telegrams.mp ht
    have hhandshake : BapTelegram.handshake ∈ telegrams seg := by
      by_cases heq : t = .handshake
      · exact heq ▸ ht
      · obtain ⟨pre, post, rfl⟩ := List.append_of_mem hmem
        obtain ⟨writes', ok', hfirst⟩ := (h rfl).first heq
        exact mem_telegrams.mpr ⟨writes', ok', List.mem_append_left _ hfirst⟩
    exact List.ne_nil_of_mem (List.mem_filter.mpr ⟨hhandshake, rfl⟩)

/-! ### The order of phases -/

/-- The run stays within the current command. -/
def Within (s : BatteryControl) (es : List Event) : Prop :=
  Along step (fun s e => (label s e).opens = false) s es

/-- Whether a run stays within the current command can be computed. -/
instance (s : BatteryControl) (es : List Event) : Decidable (Within s es) :=
  inferInstanceAs (Decidable (Along _ _ _ _))

/-- The phase of a command in progress moves on or stays, unless the command is over. -/
def Forward (before after : ClimatePhase) : Prop :=
  after = .idle ∨ after = .done ∨ (before ≠ .idle ∧ before.rank ≤ after.rank)

theorem Forward.refl (phase : ClimatePhase) : Forward phase phase := by
  by_cases h : phase = .idle
  · exact .inl h
  · exact .inr (.inr ⟨h, le_rfl⟩)

theorem ClimatePhase.eq_done {phase : ClimatePhase} (h : ClimatePhase.done.rank ≤ phase.rank) :
    phase = .done := by
  cases phase with
  | done => rfl
  | idle | wake | handshake | profile | armWait | confirm => exact absurd h (by decide)

/-- Moving forward composes. -/
theorem Forward.trans {a b c : ClimatePhase} (hab : Forward a b) (hbc : Forward b c) :
    Forward a c := by
  rcases hbc with hc | hc | ⟨hb, hle⟩
  · exact .inl hc
  · exact .inr (.inl hc)
  · rcases hab with h | h | ⟨ha, hle'⟩
    · exact absurd h hb
    · exact .inr (.inl (ClimatePhase.eq_done (h ▸ hle)))
    · exact .inr (.inr ⟨ha, hle'.trans hle⟩)

section Moves

variable {c c' : Command} {a : Label} {L : List Obs}

theorem ArmsAndGoes.rank_le (h : ArmsAndGoes c L c') (hphase : c.phase = .profile) :
    c.phase.rank ≤ c'.phase.rank := by
  rw [hphase]
  cases h with
  | failed => rw [hphase]
  | waits | settles | triggers => simp [ClimatePhase.rank]

theorem Resends.rank_le (h : Resends c L c') : c.phase.rank ≤ c'.phase.rank := by
  cases h with
  | nothing | handshake | profileGet | rearm | trigger => exact le_rfl
  | arm hphase _ hgo => exact hgo.rank_le hphase

/-- A move within a command moves on or stays, unless it ends the command. -/
theorem Move.forward (h : Move c a L c') (ha : a.opens = false) : Forward c.phase c'.phase := by
  cases h with
  | begin | abort => cases ha
  | refuse | metrics | quiet | rest | echoed | ignored => exact .refl _
  | tick hphase _ hresend => exact .inr (.inr ⟨hphase, hresend.rank_le⟩)
  | finish => exact .inl rfl
  | rejected | confirmed | written => exact .inr (.inl rfl)
  | opened hphase | acked hphase | released hphase | reapplied hphase =>
      exact .inr (.inr (by rw [hphase]; simp [ClimatePhase.rank]))
  | readBack hphase _ _ _ hgo =>
      exact .inr (.inr ⟨by rw [hphase]; decide, hgo.rank_le hphase⟩)

/-- Within a command the phase becomes idle at the last second of the wake bridge only. -/
theorem Move.ends (h : Move c a L c') (ha : a.opens = false) (hphase : c.phase ≠ .idle)
    (hidle : c'.phase = .idle) : a = .tick ∧ c.wakeHold = 1 := by
  have hzero : ∀ {phase : ClimatePhase}, c.phase.rank ≤ phase.rank → phase ≠ .idle := by
    rintro phase hle rfl
    cases hcp : c.phase with
    | idle => exact hphase hcp
    | wake | handshake | profile | armWait | confirm | done =>
        rw [hcp] at hle
        exact absurd hle (by decide)
  cases h with
  | begin | abort => cases ha
  | refuse | metrics | quiet | rest | echoed | ignored => exact absurd hidle hphase
  | tick _ _ hresend => exact absurd hidle (hzero hresend.rank_le)
  | finish _ hhold => exact ⟨rfl, hhold⟩
  | rejected | confirmed | written | opened | acked | released | reapplied => cases hidle
  | readBack hp _ _ _ hgo => exact absurd hidle (hzero (hgo.rank_le hp))

end Moves

theorem forward_foldl (s : BatteryControl) (es : List Event) (hes : Within s es) :
    Forward s.phase (es.foldl step s).phase := by
  refine foldl_preorder (I := fun _ => True)
    (R := fun s t : BatteryControl => Forward s.phase t.phase) (fun s => .refl _)
    (fun _ _ _ => .trans) (fun _ _ _ => trivial) (fun s e _ he => ?_) es trivial hes
  obtain ⟨L, hmove, -⟩ := step_move s e
  exact hmove.forward he

/-- **The order of telegrams and phases.** In every reachable state, and so after every
interleaving of calls and frames and every pattern of failed transmissions: within each
command the telegrams are handshakes, then profile requests, then profile writes, then
triggers; each was sent in a command that was started and not dropped since, and only
after what it waits for; and from here the phase moves on or stays until the command is
over, which is at the last second of the wake bridge. -/
theorem telegram_order {s : BatteryControl} (h : Reachable step Initial s) :
    (∀ pre, pre <+: s.log → Sequenced (telegrams (current pre))) ∧
    (∀ pre t writes ok post, s.log = pre ++ .telegram t writes ok :: post →
      Begun (current pre) ∧ Awaited (current pre) t) ∧
    (∀ es, Within s es →
      (es.foldl step s).phase = .idle ∨ s.phase.rank ≤ (es.foldl step s).phase.rank) ∧
    (∀ e, (label s e).opens = false → s.phase ≠ .idle → (step s e).phase = .idle →
      label s e = .tick ∧ s.wakeHold = 1) := by
  have hhist := reachable_history h
  refine ⟨?_, fun pre t writes ok post hlog => ?_, fun es hes => ?_,
    fun e he hphase hidle => ?_⟩
  · rintro pre ⟨rest, hpre⟩
    refine sequenced_of_inOrder fun {p q t writes ok} hseg => ?_
    obtain ⟨before, hbefore, hcur⟩ := sinceLast_split pre (by rfl) hseg
    have hlog : s.log = before ++ .telegram t writes ok :: (q ++ rest) := by
      rw [← hpre, hbefore, List.append_assoc]
      rfl
    rw [← hcur]
    exact (hhist.enabled hlog).inOrder
  · have henabled := hhist.enabled hlog
    exact ⟨henabled.begun, henabled.awaited⟩
  · rcases forward_foldl s es hes with hidle | hdone | ⟨-, hle⟩
    · exact .inl hidle
    · rw [hdone]
      refine .inr ?_
      cases s.phase <;> decide
    · exact .inr hle
  · obtain ⟨L, hmove, -⟩ := step_move s e
    exact hmove.ends he hphase hidle

/-- A climate start sends one telegram of each kind, in order. -/
theorem telegram_order_climateStart :
    (telegrams (current ((climateStart optionName).foldl step parked).log)).map BapTelegram.rank
        = [0, 1, 2, 3] ∧
      Sequenced (telegrams (current ((climateStart optionName).foldl step parked).log)) :=
  ⟨by decide +kernel, (telegram_order
    (reachable_parked (climateStart optionName))).1 _ List.prefix_rfl⟩

/-! ### Which reply moves a command -/

/-- What an array reply with the module's client id can do to a command. -/
inductive ReplyEffect (s : BatteryControl) (el : Element) (t : BatteryControl) : Prop
  | ignored (hphase : t.phase = s.phase) (hhave : t.haveProfile0 = s.haveProfile0)
      (hprofile : t.profile0 = s.profile0) (hconf : t.confirmed = s.confirmed)
      (hlog : t.log = s.log ++ [.received s.phase el])
  | opens (hphase : s.phase = .wake) (hopen : t.phase = .handshake)
      (hhave : t.haveProfile0 = s.haveProfile0) (hconf : t.confirmed = s.confirmed)
  | reads (hreply : isGetReply el = true) (hphase : s.phase = .profile)
      (hhave : s.haveProfile0 = false) (hrequest : Requested (current s.log))
      (hconf : t.confirmed = s.confirmed)
  | releases (hecho : isSetEcho el = true) (hphase : s.phase = .armWait)
      (hwritten : Written (current s.log)) (hhave : t.haveProfile0 = s.haveProfile0)
      (hconf : t.confirmed = s.confirmed)
  | confirms (hecho : isSetEcho el = true) (hphase : s.phase = .confirm)
      (hkind : s.command.WriteOnly) (hwritten : Written (current s.log))
      (hhave : t.haveProfile0 = s.haveProfile0)

theorem opcode_of_isOwnArray {el : Element} (h : isOwnArray el = true) :
    el.opcode ≠ Opcode.error.code ∧ isOpMode el = false := by
  refine ⟨?_, BatteryControl.isOpMode_of_isOwnArray h⟩
  simp only [isOwnArray, Bool.and_eq_true, beq_iff_eq] at h
  rw [h.1.1]
  decide

/-- **An array reply moves a command on only where its own request stands before it**: the
answer to a request is taken in the phase that waits for it, once, after this command
requested the profiles; an echo of a write, in the phase that waits for it, after this
command transmitted one. Otherwise it at most opens the handshake, as any element does. -/
theorem reply_order {s : BatteryControl} (h : Reachable step Initial s) {e : Event}
    {el : Element} (hel : label s e = .receive el) (hown : isOwnArray el = true) :
    ReplyEffect s el (step s e) := by
  have hexp := (reachable_history h).explains
  obtain ⟨herr, hmode⟩ := opcode_of_isOwnArray hown
  obtain ⟨L, hmove, hlog⟩ := step_move s e
  rw [hel] at hmove
  generalize hc : (step s e).command = c' at hmove
  have hphase' : (step s e).phase = c'.phase := congrArg Command.phase hc
  have hhave' : (step s e).haveProfile0 = c'.haveProfile0 := congrArg Command.haveProfile0 hc
  have hprofile' : (step s e).profile0 = c'.profile0 := congrArg Command.profile0 hc
  have hconf' : (step s e).confirmed = c'.confirmed := congrArg Command.confirmed hc
  cases hmove with
  | opened hphase hwire => exact .opens hphase hphase' hhave' hconf'
  | acked hphase hack hwire =>
      -- the acknowledgement is another function of the unit
      simp only [isOwnArray, isHandshakeAck, Bool.and_eq_true, Bool.or_eq_true, beq_iff_eq]
        at hown hack
      rcases hack.2 with hfunc | hfunc <;> rw [hown.1.2] at hfunc <;> cases hfunc
  | rejected hphase herr' => exact absurd herr' herr
  | confirmed hphase hmode' hon hkind =>
      rw [hmode] at hmode'
      cases hmode'
  | released hphase hecho hop hwire =>
      exact .releases hecho hphase (hexp.written (.inl hphase)) hhave' hconf'
  | reapplied hphase hecho hop happly hwire =>
      exact .releases hecho hphase (hexp.written (.inl hphase)) hhave' hconf'
  | written hphase hecho hkind =>
      exact .confirms hecho hphase hkind (hexp.written (.inr ⟨hphase, hkind⟩)) hhave'
  | echoed hphase hecho hop harm hsettle => exact .ignored hphase' hhave' hprofile' hconf' hlog
  | readBack hphase hhave hreply hp hgo =>
      have hkeep := congrArg Command.confirmed hgo.keeps
      exact .reads hreply hphase hhave
        (hexp.requested (by rw [Command.Reached, hphase]; decide)) (hconf'.trans hkeep)
  | ignored hphase herr' hecho he => exact .ignored hphase' hhave' hprofile' hconf' hlog

/-- Every read-back of the current command answers, by its transaction id, a request the
command sent. -/
def TxnMatched (s : BatteryControl) : Prop :=
  ∀ el p, .readBack el p ∈ current s.log →
    ∃ writes ok, .telegram (.profileGet (arrayLead el)) writes ok ∈ current s.log

/-- A climate start is repeated once its profile request is on the bus; the answer to that
request arrives after the one of the repetition was sent. -/
def staleReply : List Event :=
  .climate true :: opened ++
    .climate true :: opened ++
    reply .status .profilesArray (profileBody 0x31 1 16 optionName)

/-- The late answer is taken for the answer to the new request. -/
theorem stale_reply_taken :
    Reachable step Initial (staleReply.foldl step parked) ∧
      ¬ TxnMatched (staleReply.foldl step parked) := by
  refine ⟨reachable_parked staleReply, fun hmatched => ?_⟩
  have hread : (current (staleReply.foldl step parked).log).any (fun o =>
      match o with
      | .readBack el _ => arrayLead el == 0x31
      | _ => false) = true := by decide +kernel
  have hsent : BapTelegram.profileGet 0x31 ∉
      telegrams (current (staleReply.foldl step parked).log) := by decide +kernel
  obtain ⟨o, hmem, ho⟩ := List.any_eq_true.mp hread
  cases o with
  | readBack el p =>
      have hlead : arrayLead el = 0x31 := by simpa using ho
      exact hsent (mem_telegrams.mpr (hlead ▸ hmatched el p hmem))
  | started | aborted | nmWake | telegram | received | notified => cases ho

/-- The answer to the climate start above is taken in the phase that waits for it. -/
theorem reply_order_climateStart :
    ReplyEffect (((climateStart optionName).take 7).foldl step parked)
      ⟨4, 0x25, 0x19, profileBody 0x31 1 16 optionName⟩
      (step (((climateStart optionName).take 7).foldl step parked)
        ((climateStart optionName).getD 7 .abort)) :=
  reply_order (reachable_parked _) (by decide +kernel)
    (by decide +kernel)

end Ovms.BatCtrl
