import Ovms.Series.OnceOff
import Ovms.Lib.Machine

/-!
# The Answers of a Once-Off Poll

A once-off poll sends its entry once, and once more for every retry at most: it never goes
back to where it was before the first time, and starting again takes a retry (`Budget`).

Its caller gets a result at the latest when the poll is removed, since `Removing` looks
whether one was sent. Nothing else does: a response or an error that is reported after the
result gives the caller another one.
-/

open Ovms.Can Ovms.Poll

namespace Ovms.Series

/-! ### How often it is sent -/

/-- What is left of the retries, and how often the entry was sent. -/
def Allowed (retries : ℕ) (status : OnceOffStatus) (retryFail : ℤ) (issued : ℕ) : Prop :=
  match status with
  | .init | .retryInit => issued + retryFail = retries ∧ 0 ≤ retryFail
  | .sent | .retrySent | .retry => issued + retryFail = retries + 1 ∧ 0 ≤ retryFail
  | .stopping | .stopped => issued ≤ 1 + retries

theorem Allowed.issued_le {retries : ℕ} {status : OnceOffStatus} {retryFail : ℤ} {issued : ℕ}
    (h : Allowed retries status retryFail issued) : issued ≤ 1 + retries := by
  cases status <;> simp only [Allowed] at h <;> omega

/-- The entry was sent as often as it may be. -/
def Budget (retries : ℕ) (t : Life) : Prop :=
  Allowed retries t.poll.status t.poll.retryFail t.issued

theorem Budget.stops {retries : ℕ} {t t' : Life} (h : Budget retries t)
    (hissued : t'.issued = t.issued)
    (hstatus : t'.poll.status = .stopping ∨ t'.poll.status = .stopped) : Budget retries t' := by
  have hle := h.issued_le
  rcases hstatus with hstatus | hstatus <;> rw [Budget, hstatus, hissued] <;> exact hle

theorem Budget.stays {retries : ℕ} {t t' : Life} (h : Budget retries t)
    (hissued : t'.issued = t.issued) (hstatus : t'.poll.status = t.poll.status)
    (hretry : t'.poll.retryFail = t.poll.retryFail) : Budget retries t' := by
  rw [Budget, hissued, hstatus, hretry]
  exact h

theorem Budget.waits {retries : ℕ} {t t' : Life} (h : Budget retries t)
    (hissued : t'.issued = t.issued)
    (hbefore : t.poll.status = .retry ∨ t.poll.status = .sent ∨ t.poll.status = .retrySent)
    (hstatus : t'.poll.status = .retry) (hretry : t'.poll.retryFail = t.poll.retryFail) :
    Budget retries t' := by
  rw [Budget, hissued, hstatus, hretry]
  rcases hbefore with hbefore | hbefore | hbefore <;> rw [Budget, hbefore] at h <;> exact h

theorem OnceOffPoll.checkShutdown_cases (s : OnceOffPoll) :
    s.checkShutdown = s ∨ s.checkShutdown = s.updateStatus .stopping := by
  rw [checkShutdown]
  split
  · exact .inr rfl
  · exact .inl rfl

theorem Budget.checkShutdown {retries : ℕ} {t : Life} (h : Budget retries t) :
    Budget retries { t with poll := t.poll.checkShutdown } := by
  rcases t.poll.checkShutdown_cases with hcheck | hcheck <;> rw [hcheck]
  · exact h
  · exact h.stops rfl (.inl rfl)

/-- Starting again takes a retry. -/
theorem Budget.resetList {retries : ℕ} {t : Life} (h : Budget retries t) (mode : ResetMode) :
    Budget retries { t with poll := t.poll.resetList mode } := by
  have hcheck := h.checkShutdown
  rw [OnceOffPoll.resetList.eq_def]
  generalize t.poll.checkShutdown = s at hcheck
  dsimp only
  cases hstatus : s.status with
  | init => exact hcheck
  | retry =>
      cases mode with
      | loopReset => exact hcheck
      | pollReset =>
          dsimp only
          split
          · exact hcheck.stops rfl (.inl rfl)
          · split
            · exact hcheck.stops rfl (.inl rfl)
            · rename_i hneg _
              simp only [Budget, hstatus, Allowed] at hcheck
              change (t.issued : ℤ) + (s.retryFail - 1) = retries ∧ 0 ≤ s.retryFail - 1
              omega
  | sent => exact hcheck.stops rfl (.inl rfl)
  | stopping => exact hcheck.stops rfl (.inl rfl)
  | stopped => exact hcheck.stops rfl (.inl rfl)
  | retryInit => exact hcheck.stops rfl (.inl rfl)
  | retrySent => exact hcheck.stops rfl (.inl rfl)

/-- Being asked sends the entry, if the poll is ready for it. -/
theorem Budget.ask {retries : ℕ} {t : Life} (h : Budget retries t) (entry : PollPid) :
    Budget retries (t.ask entry).2.2 := by
  have hcheck := h.checkShutdown
  rw [Life.ask, OnceOffPoll.nextPollEntry]
  generalize t.poll.checkShutdown = s at hcheck
  dsimp only
  have hsends (status : OnceOffStatus) (hbefore : s.status = .init ∨ s.status = .retryInit)
      (hafter : status = .sent ∨ status = .retrySent) :
      Budget retries { t with poll := s.updateStatus status, issued := t.issued + 1 } := by
    rcases hbefore with hbefore | hbefore <;> rcases hafter with rfl | rfl <;>
      simp only [Budget, hbefore, Allowed] at hcheck <;>
      exact ⟨by change ((t.issued + 1 : ℕ) : ℤ) + s.retryFail = retries + 1; omega, hcheck.2⟩
  have hends (hbefore : s.status = .sent ∨ s.status = .retrySent) :
      Budget retries { t with poll := (if s.retryFail < 0 ∨ s.rxerr = 0 then
          s.updateStatus .stopped
        else if s.shutdown then s.updateStatus .stopped
        else s.updateStatus .retry) } := by
    split
    · exact hcheck.stops rfl (.inr rfl)
    · split
      · exact hcheck.stops rfl (.inr rfl)
      · exact hcheck.waits rfl (.inr hbefore) rfl rfl
  cases hstatus : s.status with
  | init => exact hsends .sent (.inl hstatus) (.inl rfl)
  | retryInit => exact hsends .retrySent (.inr hstatus) (.inr rfl)
  | sent => exact hends (.inl hstatus)
  | retrySent => exact hends (.inr hstatus)
  | stopping => exact hcheck.stops rfl (.inr rfl)
  | stopped => exact hcheck
  | retry => exact hcheck

theorem Budget.remove {retries : ℕ} {t : Life} (h : Budget retries t) :
    Budget retries t.remove := by
  obtain ⟨s', rs, hremoving, hbecame, -⟩ := t.poll.removing_cases
  rw [Life.remove, hremoving]
  exact h.stays rfl hbecame.status hbecame.retryFail

/-- **Every step keeps to it.** -/
theorem Budget.next {retries : ℕ} {t : Life} (h : Budget retries t) (e : Event) :
    Budget retries (t.next e) := by
  rw [Life.next.eq_def]
  split
  · cases e with
    | resetList mode => exact h.resetList mode
    | nextPollEntry =>
        change Budget retries t.turn
        rw [Life.turn]
        dsimp only
        split
        · exact (h.ask .zero).remove
        · exact h.ask .zero
    | incomingPacket format mlframe mlremain data =>
        obtain ⟨s', rs, hpacket, ⟨-, hbecame, -⟩ | ⟨-, hbecame, -⟩⟩ :=
          t.poll.incomingPacket_cases format mlframe mlremain data
        · dsimp only
          rw [hpacket]
          exact h.stays rfl hbecame.status hbecame.retryFail
        · dsimp only
          rw [hpacket]
          exact h.stops rfl (.inl hbecame.status)
    | incomingError code =>
        obtain ⟨s', rs, herror, ⟨⟨-, hretries⟩, hbecame, -⟩ | ⟨-, hbecame | hbecame, -⟩⟩ :=
          t.poll.incomingError_cases code
        · dsimp only
          rw [herror]
          exact h.waits rfl (hretries.imp_right And.left) hbecame.status hbecame.retryFail
        · dsimp only
          rw [herror]
          exact h.stops rfl (.inl hbecame.status)
        · dsimp only
          rw [herror]
          exact h.stays rfl hbecame.status hbecame.retryFail
    | removing => exact h.remove
  · exact h

/-! ### What the caller gets -/

/-- Starting again sends no result. -/
theorem OnceOffPoll.resultSent_resetList (s : OnceOffPoll) (mode : ResetMode) :
    (s.resetList mode).resultSent = s.resultSent := by
  have hcheck : s.checkShutdown.resultSent = s.resultSent := by
    rcases s.checkShutdown_cases with hcheck | hcheck <;> rw [hcheck]
    rfl
  rw [OnceOffPoll.resetList.eq_def, ← hcheck]
  generalize s.checkShutdown = s
  dsimp only
  cases s.status with
  | retry =>
      cases mode with
      | loopReset => rfl
      | pollReset =>
          dsimp only
          split
          · rfl
          · split <;> rfl
  | init | sent | stopping | stopped | retryInit | retrySent => rfl

/-- Nor does being asked. -/
theorem OnceOffPoll.resultSent_nextPollEntry (s : OnceOffPoll) (entry : PollPid) :
    (s.nextPollEntry entry).2.2.resultSent = s.resultSent := by
  have hcheck : s.checkShutdown.resultSent = s.resultSent := by
    rcases s.checkShutdown_cases with hcheck | hcheck <;> rw [hcheck]
    rfl
  rw [OnceOffPoll.nextPollEntry, ← hcheck]
  generalize s.checkShutdown = s
  have hends : (if s.retryFail < 0 ∨ s.rxerr = 0 then s.updateStatus .stopped
      else if s.shutdown then s.updateStatus .stopped
      else s.updateStatus .retry).resultSent = s.resultSent := by
    split
    · rfl
    · split <;> rfl
  cases s.status with
  | sent | retrySent => exact hends
  | init | stopping | stopped | retry | retryInit => rfl

/-- What happens is reported to the caller, whether or not it has its result. -/
def OnceOffPoll.Reports (s : OnceOffPoll) : Event → Prop
  | .incomingPacket _ _ mlremain _ => mlremain = 0
  | .incomingError code => ¬ s.Retries code
  | .resetList _ | .nextPollEntry | .removing => False

/-- **Nothing is reported after the result**, as long as the poll is in the list. -/
def ReportsOnce (t : Life) (e : Event) : Prop :=
  t.listed → t.poll.Reports e → t.poll.resultSent = false

/-- The result is sent when the caller got one, and it got one when the poll was removed. -/
structure Told (t : Life) : Prop where
  sent : t.poll.resultSent = true ↔ t.results ≠ []
  removed : t.listed = false → t.poll.resultSent = true

theorem told_new (poll : PollPid) (retryFail : UInt8) : Told (.new poll retryFail) :=
  ⟨⟨Bool.noConfusion, fun h => absurd rfl h⟩, Bool.noConfusion⟩

/-- The caller got no more than before. -/
structure Quiet (t t' : Life) : Prop where
  results : t'.results = t.results
  resultSent : t'.poll.resultSent = t.poll.resultSent
  removed : t'.listed = false → t'.poll.resultSent = true

/-- The caller got a result more. -/
structure Answers (t t' : Life) : Prop where
  results : ∃ r, t'.results = t.results ++ [r]
  resultSent : t'.poll.resultSent = true

/-- Removing the poll gives the caller a result if it has none. -/
theorem Life.remove_cases (t : Life) :
    t.poll.resultSent = true ∧ Quiet t t.remove ∨
      t.poll.resultSent = false ∧ Answers t t.remove := by
  obtain ⟨s', rs, hremoving, hbecame, ⟨hsent, rfl⟩ | ⟨hsent, r, rfl⟩⟩ := t.poll.removing_cases
  · refine .inl ⟨hsent, ?_⟩
    rw [Life.remove, hremoving]
    exact ⟨List.append_nil _, hbecame.resultSent.trans hsent.symm, fun _ => hbecame.resultSent⟩
  · refine .inr ⟨hsent, ?_⟩
    rw [Life.remove, hremoving]
    exact ⟨⟨r, rfl⟩, hbecame.resultSent⟩

/-- **What a step tells the caller**: nothing, or a result that is reported, or one that is
the first. -/
theorem Life.next_cases {t : Life} (h : t.listed = true) (e : Event) :
    Quiet t (t.next e) ∧ ¬ t.poll.Reports e ∨
      Answers t (t.next e) ∧ (t.poll.Reports e ∨ t.poll.resultSent = false) := by
  have hlisted {t' : Life} (h' : t'.listed = t.listed) :
      t'.listed = false → t'.poll.resultSent = true := fun hnot => by
    rw [h', h] at hnot
    cases hnot
  have hremove {t' : Life} (hresults : t'.results = t.results)
      (hsent : t'.poll.resultSent = t.poll.resultSent) :
      Quiet t t'.remove ∨ Answers t t'.remove ∧ t.poll.resultSent = false := by
    rcases t'.remove_cases with ⟨-, hquiet⟩ | ⟨hnot, hanswers⟩
    · exact .inl ⟨hquiet.results.trans hresults, hquiet.resultSent.trans hsent, hquiet.removed⟩
    · obtain ⟨⟨r, hr⟩, hsent'⟩ := hanswers
      exact .inr ⟨⟨⟨r, hr.trans (by rw [hresults])⟩, hsent'⟩, hsent.symm.trans hnot⟩
  have hnext : t.next e = _ := if_pos h
  cases e with
  | resetList mode =>
      rw [hnext]
      exact .inl ⟨⟨rfl, t.poll.resultSent_resetList mode, hlisted rfl⟩, id⟩
  | nextPollEntry =>
      have hsent : (t.ask .zero).2.2.poll.resultSent = t.poll.resultSent :=
        t.poll.resultSent_nextPollEntry .zero
      have hturn : t.next .nextPollEntry = t.turn := hnext
      rw [hturn, Life.turn]
      dsimp only
      split
      · have hremoved : Quiet t (t.ask .zero).2.2.remove ∨
            Answers t (t.ask .zero).2.2.remove ∧ t.poll.resultSent = false := hremove rfl hsent
        exact hremoved.imp (fun hquiet => ⟨hquiet, id⟩)
          fun hanswers => ⟨hanswers.1, .inr hanswers.2⟩
      · exact .inl ⟨⟨rfl, hsent, hlisted rfl⟩, id⟩
  | incomingPacket format mlframe mlremain data =>
      obtain ⟨s', rs, hpacket, ⟨hmore, hbecame, rfl⟩ | ⟨hlast, hbecame, r, rfl⟩⟩ :=
        t.poll.incomingPacket_cases format mlframe mlremain data
      · dsimp only at hnext
        rw [hnext, hpacket]
        exact .inl ⟨⟨List.append_nil _, hbecame.resultSent, hlisted rfl⟩, hmore⟩
      · dsimp only at hnext
        rw [hnext, hpacket]
        exact .inr ⟨⟨⟨r, rfl⟩, hbecame.resultSent⟩, .inl hlast⟩
  | incomingError code =>
      obtain ⟨s', rs, herror, ⟨hretries, hbecame, rfl⟩ | ⟨hreports, hbecame, r, rfl⟩⟩ :=
        t.poll.incomingError_cases code
      · dsimp only at hnext
        rw [hnext, herror]
        exact .inl ⟨⟨List.append_nil _, hbecame.resultSent, hlisted rfl⟩, fun h => h hretries⟩
      · dsimp only at hnext
        rw [hnext, herror]
        exact .inr ⟨⟨⟨r, rfl⟩, hbecame.elim (·.resultSent) (·.resultSent)⟩, .inl hreports⟩
  | removing =>
      have hturn : t.next .removing = t.remove := hnext
      rw [hturn]
      exact (hremove rfl rfl).imp (fun hquiet => ⟨hquiet, id⟩)
        fun hanswers => ⟨hanswers.1, .inr hanswers.2⟩

theorem Life.next_of_removed {t : Life} (h : t.listed = false) (e : Event) : t.next e = t :=
  if_neg (Bool.eq_false_iff.mp h)

/-- What the caller was told. -/
theorem Told.next {t : Life} (h : Told t) (e : Event) : Told (t.next e) := by
  cases hlisted : t.listed with
  | false => rwa [Life.next_of_removed hlisted]
  | true =>
      rcases Life.next_cases hlisted e with ⟨hquiet, -⟩ | ⟨⟨⟨r, hr⟩, hsent⟩, -⟩
      · exact ⟨by rw [hquiet.resultSent, hquiet.results]; exact h.sent, hquiet.removed⟩
      · exact ⟨iff_of_true hsent (by rw [hr]; exact List.append_ne_nil_of_right_ne_nil _ nofun),
          fun _ => hsent⟩

/-- The caller keeps what it got. -/
theorem Life.length_results_le (t : Life) (e : Event) :
    t.results.length ≤ (t.next e).results.length := by
  cases hlisted : t.listed with
  | false => rw [Life.next_of_removed hlisted]
  | true =>
      rcases Life.next_cases hlisted e with ⟨hquiet, -⟩ | ⟨⟨⟨r, hr⟩, -⟩, -⟩
      · rw [hquiet.results]
      · rw [hr, List.length_append]
        exact Nat.le_add_right _ _

/-- **A run tells the caller one thing** when nothing is reported after the result. -/
theorem Told.along_iff {t : Life} (h : Told t) (hone : t.results.length ≤ 1)
    (events : List Event) :
    Lib.Along Life.next ReportsOnce t events ↔
      (events.foldl Life.next t).results.length ≤ 1 := by
  induction events generalizing t with
  | nil => exact iff_of_true trivial hone
  | cons e events ih =>
      have hkeeps : ∀ (es : List Event) (t : Life),
          t.results.length ≤ (es.foldl Life.next t).results.length := fun es => by
        induction es with
        | nil => exact fun t => Nat.le_refl _
        | cons e es ih => exact fun t => (t.length_results_le e).trans (ih _)
      rw [Lib.Along, List.foldl_cons]
      cases hlisted : t.listed with
      | false =>
          have honce : ReportsOnce t e := fun h => absurd h (Bool.eq_false_iff.mp hlisted)
          rw [and_iff_right honce, Life.next_of_removed hlisted]
          exact ih h hone
      | true =>
          rcases Life.next_cases hlisted e with ⟨hquiet, hreports⟩ | ⟨⟨⟨r, hr⟩, hsent⟩, hreports⟩
          · have honce : ReportsOnce t e := fun _ h => absurd h hreports
            rw [and_iff_right honce]
            exact ih (h.next e) (by rwa [hquiet.results])
          · have hlen : (t.next e).results.length = t.results.length + 1 := by
              rw [hr, List.length_append]
              rfl
            cases hbefore : t.poll.resultSent with
            | true =>
                -- the second result
                have hreport := hreports.resolve_right (ne_false_of_eq_true hbefore)
                have hpos := List.length_pos_iff.mpr (h.sent.mp hbefore)
                have htwo := hkeeps events (t.next e)
                refine iff_of_false (fun honce => ?_) (by omega)
                exact Bool.eq_false_iff.mp (honce.1 hlisted hreport) hbefore
            | false =>
                have hnone : t.results = [] := by
                  by_contra hne
                  exact Bool.eq_false_iff.mp hbefore (h.sent.mpr hne)
                have honce : ReportsOnce t e := fun _ _ => hbefore
                rw [and_iff_right honce]
                exact ih (h.next e) (by rw [hlen, hnone]; exact Nat.le_refl _)

/-- Once it is removed, the caller has a result. -/
theorem Told.removing_iff {t : Life} (h : Told t) :
    (t.next .removing).results.length = 1 ↔ t.results.length ≤ 1 := by
  have hsent_pos (hsent : t.poll.resultSent = true) : 1 ≤ t.results.length :=
    List.length_pos_iff.mpr (h.sent.mp hsent)
  cases hlisted : t.listed with
  | false =>
      have hpos := hsent_pos (h.removed hlisted)
      rw [Life.next_of_removed hlisted]
      omega
  | true =>
      have hturn : t.next .removing = t.remove := if_pos hlisted
      rw [hturn]
      rcases t.remove_cases with ⟨hsent, hquiet⟩ | ⟨hsent, ⟨r, hr⟩, -⟩
      · have hpos := hsent_pos hsent
        rw [hquiet.results]
        omega
      · have hnone : t.results = [] := by
          by_contra hne
          exact Bool.eq_false_iff.mp hsent (h.sent.mpr hne)
        rw [hr, hnone]
        exact iff_of_true rfl (Nat.zero_le _)

/-- **A once-off poll answers its caller once**: in every order of events, up to its removal,
its entry is sent once and once for every retry at most; and its caller gets exactly one result
when nothing is reported after it. -/
theorem answers_once_iff (poll : PollPid) (retryFail : UInt8) (events : List Event) :
    ((Life.whole poll retryFail events).issued ≤ 1 + retryFail.toNat ∧
        (Life.whole poll retryFail events).results.length = 1) ↔
      Lib.Along Life.next ReportsOnce (.new poll retryFail) events := by
  have hnew : Budget retryFail.toNat (.new poll retryFail) := ⟨Int.zero_add _, Int.natCast_nonneg _⟩
  have hreach : Lib.Reachable Life.next (· = Life.new poll retryFail)
      (events.foldl Life.next (.new poll retryFail)) := ⟨_, events, rfl, rfl⟩
  have hbudget := hreach.invariant (fun t ht => ht ▸ hnew) fun t e (h : Budget _ t) => h.next e
  have htold := hreach.invariant (fun t ht => ht ▸ told_new poll retryFail)
    fun t e (h : Told t) => h.next e
  rw [Life.whole, and_iff_right (hbudget.next .removing).issued_le]
  exact htold.removing_iff.trans ((told_new poll retryFail).along_iff (Nat.zero_le _) events).symm

/-- A request by identifier, to a control unit. -/
def onceOffEntry : PollPid := ⟨0x710, 0x77a, 0x22, ⟨0x1234, 0, .inline []⟩, .isotpStd⟩

/-- It is sent and answered, and then an error without a code comes. -/
def answeredTwice : List Event :=
  [.resetList .pollReset, .nextPollEntry, .incomingPacket .std 0 0 [0x12], .incomingError 0,
    .nextPollEntry]

/-- Its caller gets two results. -/
theorem not_answers_once_of_answeredTwice :
    ¬ ((Life.whole onceOffEntry 0 answeredTwice).issued ≤ 1 + UInt8.toNat 0 ∧
      (Life.whole onceOffEntry 0 answeredTwice).results.length = 1) := by
  decide

end Ovms.Series
