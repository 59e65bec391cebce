import Ovms.Series.Model
import Ovms.Poll.Model

/-!
# Once-Off Polls

`OvmsPoller::OnceOffPoll` (`components/poller/src/vehicle_poller.cpp`): a series with a single
entry, that is sent until it is answered or no retry is left, and then removed. Its caller
waits for one result: success, an error, or that the poll was removed.

The list asks the poll for its entry, starts it again, hands it the packets and errors that
come while the iterator is there, and removes it, when it says that it is done or when
someone wants it gone. These come in any order (`Event`); a poll that is no longer in the
list sees none of them (`Life`). The callbacks are those of the caller; one that is not set is
one that does nothing.
-/

open Ovms.Can Ovms.Poll

namespace Ovms.Series

/-! ### The poll -/

/-- `OnceOffPollBase::status_t`. -/
inductive OnceOffStatus
  | init | sent | stopping | stopped | retry | retryInit | retrySent
  deriving DecidableEq, Repr

/-- `POLLSINGLE_TIMEOUT`. -/
def pollsingleTimeout : Int32 := -1

/-- `POLLSINGLE_NORESPONSE`. -/
def pollsingleNoresponse : Int32 := -3

/-- A call of one of the callbacks of a poll. -/
inductive PollResult
  | success (type : UInt16) (txmoduleid rxmoduleid : UInt32) (pid : UInt16)
      (format : FrameFormat) (data : List UInt8)
  | fail (type : UInt16) (txmoduleid rxmoduleid : UInt32) (pid : UInt16) (error : Int32)
  deriving DecidableEq, Repr

/-- The members of `OnceOffPoll`. The response buffer is its own one, or null. -/
structure OnceOffPoll where
  status : OnceOffStatus
  shutdown : Bool
  poll : PollPid
  hasRxbuf : Bool
  data : List UInt8
  rxerr : Int32
  retryFail : ℤ
  format : FrameFormat
  resultSent : Bool
  deriving DecidableEq, Repr

namespace OnceOffPoll

/-- `OnceOffPoll::OnceOffPoll`, for an entry. -/
def new (poll : PollPid) (retryFail : UInt8) : OnceOffPoll where
  status := .init
  shutdown := false
  poll := poll
  hasRxbuf := true
  data := []
  rxerr := pollsingleNoresponse
  retryFail := retryFail.toNat
  format := .std
  resultSent := false

/-- `UpdateStatus`. -/
def updateStatus (s : OnceOffPoll) (status : OnceOffStatus) : OnceOffPoll :=
  { s with status := status }

/-- With a shutdown signalled, a poll that is not stopped stops. -/
def checkShutdown (s : OnceOffPoll) : OnceOffPoll :=
  if s.shutdown ∧ s.status ≠ .stopped then s.updateStatus .stopping else s

/-- `ResetList`. -/
def resetList (s : OnceOffPoll) (mode : ResetMode) : OnceOffPoll :=
  let s := s.checkShutdown
  match s.status with
  | .init => s
  | .retry =>
      match mode with
      | .loopReset => s
      | .pollReset =>
          let s : OnceOffPoll := { s with retryFail := s.retryFail - 1 }
          if s.retryFail < 0 then s.updateStatus .stopping
          else if s.shutdown then s.updateStatus .stopping
          else s.updateStatus .retryInit
  | .sent | .stopping | .stopped | .retryInit | .retrySent => s.updateStatus .stopping

/-- `NextPollEntry`. -/
def nextPollEntry (s : OnceOffPoll) (entry : PollPid) :
    OvmsNextPollResult × PollPid × OnceOffPoll :=
  let s := s.checkShutdown
  match s.status with
  | .init => (.foundEntry, s.poll, s.updateStatus .sent)
  | .retrySent | .sent =>
      (.reachedEnd, entry,
        if s.retryFail < 0 ∨ s.rxerr = 0 then s.updateStatus .stopped
        else if s.shutdown then s.updateStatus .stopped
        else s.updateStatus .retry)
  | .stopping => (.reachedEnd, entry, s.updateStatus .stopped)
  | .stopped | .retry => (.stillAtEnd, entry, s)
  | .retryInit => (.foundEntry, s.poll, s.updateStatus .retrySent)

/-- `Done`. -/
def done (s : OnceOffPoll) (success : Bool) : OnceOffPoll × List PollResult :=
  ({ s with hasRxbuf := false, resultSent := true },
    [if success then
      .success s.poll.type s.poll.txmoduleid s.poll.rxmoduleid s.poll.args.pid s.format s.data
    else .fail s.poll.type s.poll.txmoduleid s.poll.rxmoduleid s.poll.args.pid s.rxerr])

/-- The slice is put into the buffer. -/
def store (s : OnceOffPoll) (format : FrameFormat) (mlframe : UInt16) (data : List UInt8) :
    OnceOffPoll :=
  if s.hasRxbuf then
    let s := if mlframe = 0 then { s with format := format, data := [] } else s
    { s with data := s.data ++ data }
  else s

/-- `IncomingPacket`. -/
def incomingPacket (s : OnceOffPoll) (format : FrameFormat) (mlframe mlremain : UInt16)
    (data : List UInt8) : OnceOffPoll × List PollResult :=
  let s := s.store format mlframe data
  if mlremain = 0 then ({ s with rxerr := 0 }.updateStatus .stopping).done true else (s, [])

/-- The code is kept, and the buffer is cleared. -/
def keepError (s : OnceOffPoll) (code : Int32) : OnceOffPoll :=
  { s with rxerr := code, data := if s.hasRxbuf then [] else s.data }

/-- `IncomingError`. -/
def incomingError (s : OnceOffPoll) (code : Int32) : OnceOffPoll × List PollResult :=
  let s := s.keepError code
  if code = 0 then (s.updateStatus .stopping).done false
  else
    match s.status with
    | .retry => (s, [])
    | .sent | .retrySent =>
        if 0 < s.retryFail ∧ ¬ s.shutdown then (s.updateStatus .retry, [])
        else (s.updateStatus .stopping).done false
    | .init | .stopping | .stopped | .retryInit => s.done false

/-- `FinishRun`. -/
def finishRun (s : OnceOffPoll) : SeriesStatus :=
  if s.status = .retry then .next else .removeNext

/-- `Removing`. -/
def removing (s : OnceOffPoll) : OnceOffPoll × List PollResult :=
  if s.resultSent then (s, []) else { s with rxerr := pollsingleTimeout }.done false

end OnceOffPoll

/-! ### Its life -/

/-- What happens to a poll in the list. -/
inductive Event
  | resetList (mode : ResetMode)
  | nextPollEntry
  | incomingPacket (format : FrameFormat) (mlframe mlremain : UInt16) (data : List UInt8)
  | incomingError (code : Int32)
  | removing

/-- A poll, whether it is in the list, how often its entry was sent, and the results its
caller got. -/
structure Life where
  poll : OnceOffPoll
  listed : Bool
  issued : ℕ
  results : List PollResult
  deriving DecidableEq, Repr

namespace Life

/-- The life of a new poll. -/
def new (poll : PollPid) (retryFail : UInt8) : Life := ⟨.new poll retryFail, true, 0, []⟩

/-- A poll that may have called its caller. -/
def after (t : Life) (r : OnceOffPoll × List PollResult) : Life :=
  { t with poll := r.1, results := t.results ++ r.2 }

/-- The poll is removed. -/
def remove (t : Life) : Life := { t.after t.poll.removing with listed := false }

/-- The poll is asked for its entry. -/
def ask (t : Life) (entry : PollPid) : OvmsNextPollResult × PollPid × Life :=
  let (result, entry, poll) := t.poll.nextPollEntry entry
  (result, entry,
    { t with
      poll := poll
      issued := if result = .foundEntry then t.issued + 1 else t.issued })

/-- It is asked, and when it is at the end of its run it may be removed. -/
def turn (t : Life) : Life :=
  let (result, _, t) := t.ask .zero
  if result = .reachedEnd ∧ t.poll.finishRun ≠ .next then t.remove else t

/-- A step of its life. -/
def next (t : Life) (e : Event) : Life :=
  if t.listed then
    match e with
    | .resetList mode => { t with poll := t.poll.resetList mode }
    | .nextPollEntry => t.turn
    | .incomingPacket format mlframe mlremain data =>
        t.after (t.poll.incomingPacket format mlframe mlremain data)
    | .incomingError code => t.after (t.poll.incomingError code)
    | .removing => t.remove
  else t

/-- The whole life of a poll, with these events up to its removal. -/
def whole (poll : PollPid) (retryFail : UInt8) (events : List Event) : Life :=
  (events.foldl next (new poll retryFail)).next .removing

/-- What a list with a single once-off poll finds in it. -/
def behaviour : Behaviour Life PollPid where
  nextPollEntry := fun _ entry t => t.ask entry
  finishRun := fun _ t => (t.poll.finishRun, t)
  removing := fun _ t => t.remove

end Life

/-! ### What the list does with it -/

/-- The state of the series when the list has asked one of them. -/
def worldAfter {ω ε : Type*} (r : Polling ω ε ⊕ (OvmsNextPollResult × Polling ω ε)) : ω :=
  r.elim Polling.world fun out => out.2.world

theorem worldAfter_leave {ω ε : Type*} (t : Polling ω ε) (c : Lib.Links.Cell ℕ PollSeries)
    (result : OvmsNextPollResult) (calls : List Call) :
    worldAfter (t.leave c result calls) = t.world := by
  rw [Polling.leave]
  split <;> rfl

/-- At the end of its run a series may be told that it is removed. -/
theorem worldAfter_finish {ω ε : Type*} (B : Behaviour ω ε) (t : Polling ω ε) (p : ℕ)
    (c : Lib.Links.Cell ℕ PollSeries) (series : PollSeriesEntry) :
    worldAfter (t.finish B p c series) =
      if (B.finishRun series t.world).1 = .next then (B.finishRun series t.world).2
      else B.removing series (B.finishRun series t.world).2 := by
  obtain ⟨⟨status, w⟩, hfinish⟩ : ∃ r, B.finishRun series t.world = r := ⟨_, rfl⟩
  rw [Polling.finish, hfinish]
  cases status with
  | next => exact worldAfter_leave _ _ _ _
  | removeNext => rfl
  | removeRestart => rfl

theorem Life.ask_zero (t : Life) (entry : PollPid) :
    (t.ask entry).1 = (t.ask .zero).1 ∧ (t.ask entry).2.2 = (t.ask .zero).2.2 := by
  rw [Life.ask, Life.ask, OnceOffPoll.nextPollEntry, OnceOffPoll.nextPollEntry]
  cases t.poll.checkShutdown.status <;> exact ⟨rfl, rfl⟩

/-- **When the list asks a once-off poll, its life goes on by a step.** -/
theorem turn_onceOff {limiter : OvmsPollLimiter} {t : Polling Life PollPid} {p : ℕ}
    {c : Lib.Links.Cell ℕ PollSeries} {series : PollSeriesEntry} (hiter : t.list.iter = some p)
    (hcell : t.list.store p = some c) (hseries : c.item.series = some series)
    (hlimit : limiter.canPoll c.item.style = true) (hlisted : t.world.listed = true) :
    worldAfter (Polling.turn Life.behaviour limiter t) = t.world.next .nextPollEntry := by
  have hturn : t.world.next .nextPollEntry = t.world.turn := if_pos hlisted
  obtain ⟨hresult, hlife⟩ := t.world.ask_zero t.entry
  obtain ⟨⟨result, entry, w⟩, hask⟩ : ∃ r, t.world.ask t.entry = r := ⟨_, rfl⟩
  obtain ⟨⟨result', entry', w'⟩, hask'⟩ : ∃ r, t.world.ask .zero = r := ⟨_, rfl⟩
  rw [hask, hask'] at hresult hlife
  obtain rfl : result = result' := hresult
  obtain rfl : w = w' := hlife
  rw [hturn, Life.turn, hask']
  simp only [Polling.turn, hiter, hcell, hseries, if_pos hlimit]
  have hanswer : Life.behaviour.nextPollEntry series t.entry t.world = (result, entry, w) := hask
  rw [Polling.ask, hanswer]
  cases result with
  | notReady => rfl
  | stillAtEnd => exact worldAfter_leave _ _ _ _
  | foundEntry => rfl
  | limitReached => rfl
  | ignore => rfl
  | reachedEnd =>
      refine (worldAfter_finish _ _ _ _ _).trans ?_
      change (if w.poll.finishRun = .next then w else w.remove) = _
      by_cases hnext : w.poll.finishRun = .next
      · rw [if_pos hnext]
        exact (if_neg fun h => h.2 hnext).symm
      · rw [if_neg hnext]
        exact (if_pos ⟨rfl, hnext⟩).symm

/-! ### What comes in -/

namespace OnceOffPoll

/-- The poll has another status, or the same, and the same retries; its result was sent, or
not. -/
structure Became (s s' : OnceOffPoll) (status : OnceOffStatus) (resultSent : Bool) : Prop where
  status : s'.status = status
  retryFail : s'.retryFail = s.retryFail
  resultSent : s'.resultSent = resultSent

theorem became_store (s : OnceOffPoll) (format : FrameFormat) (mlframe : UInt16)
    (data : List UInt8) : Became s (s.store format mlframe data) s.status s.resultSent := by
  rw [store]
  split
  · dsimp only
    split <;> exact ⟨rfl, rfl, rfl⟩
  · exact ⟨rfl, rfl, rfl⟩

/-- **A packet** that is not the last is stored; the last one is a result. -/
theorem incomingPacket_cases (s : OnceOffPoll) (format : FrameFormat) (mlframe mlremain : UInt16)
    (data : List UInt8) :
    ∃ s' rs, s.incomingPacket format mlframe mlremain data = (s', rs) ∧
      (mlremain ≠ 0 ∧ Became s s' s.status s.resultSent ∧ rs = [] ∨
        mlremain = 0 ∧ Became s s' .stopping true ∧ ∃ r, rs = [r]) := by
  obtain ⟨hstatus, hretry, hsent⟩ := s.became_store format mlframe data
  obtain ⟨⟨s', rs⟩, hpacket⟩ : ∃ r, s.incomingPacket format mlframe mlremain data = r := ⟨_, rfl⟩
  refine ⟨s', rs, hpacket, ?_⟩
  rw [incomingPacket] at hpacket
  by_cases hlast : mlremain = 0
  · rw [if_pos hlast] at hpacket
    obtain ⟨rfl, rfl⟩ := Prod.mk.inj hpacket
    exact .inr ⟨hlast, ⟨rfl, hretry, rfl⟩, _, rfl⟩
  · rw [if_neg hlast] at hpacket
    obtain ⟨rfl, rfl⟩ := Prod.mk.inj hpacket
    exact .inl ⟨hlast, ⟨hstatus, hretry, hsent⟩, rfl⟩

/-- The error is no result: a poll that waits for its retry drops it, and a poll with a retry
left waits for it. -/
def Retries (s : OnceOffPoll) (code : Int32) : Prop :=
  code ≠ 0 ∧ (s.status = .retry ∨
    (s.status = .sent ∨ s.status = .retrySent) ∧ 0 < s.retryFail ∧ ¬ s.shutdown)

/-- **An error** is a result, or else the poll waits for its retry. -/
theorem incomingError_cases (s : OnceOffPoll) (code : Int32) :
    ∃ s' rs, s.incomingError code = (s', rs) ∧
      (s.Retries code ∧ Became s s' .retry s.resultSent ∧ rs = [] ∨
        ¬ s.Retries code ∧
          (Became s s' .stopping true ∨ Became s s' s.status true) ∧ ∃ r, rs = [r]) := by
  obtain ⟨⟨s', rs⟩, herror⟩ : ∃ r, s.incomingError code = r := ⟨_, rfl⟩
  refine ⟨s', rs, herror, ?_⟩
  rw [incomingError.eq_def] at herror
  dsimp only at herror
  by_cases hcode : code = 0
  · rw [if_pos hcode] at herror
    obtain ⟨rfl, rfl⟩ := Prod.mk.inj herror
    exact .inr ⟨fun h => h.1 hcode, .inl ⟨rfl, rfl, rfl⟩, _, rfl⟩
  · have hstatus : (s.keepError code).status = s.status := rfl
    rw [if_neg hcode, hstatus] at herror
    have hsent (hbefore : s.status = .sent ∨ s.status = .retrySent)
        (h : (if 0 < s.retryFail ∧ ¬ s.shutdown then ((s.keepError code).updateStatus .retry, [])
          else ((s.keepError code).updateStatus .stopping).done false) = (s', rs)) :
        s.Retries code ∧ Became s s' .retry s.resultSent ∧ rs = [] ∨
          ¬ s.Retries code ∧
            (Became s s' .stopping true ∨ Became s s' s.status true) ∧ ∃ r, rs = [r] := by
      have hnot : s.status ≠ .retry := by
        rcases hbefore with hbefore | hbefore <;> rw [hbefore] <;> nofun
      by_cases hretry : 0 < s.retryFail ∧ ¬ s.shutdown
      · rw [if_pos hretry] at h
        obtain ⟨rfl, rfl⟩ := Prod.mk.inj h
        exact .inl ⟨⟨hcode, .inr ⟨hbefore, hretry⟩⟩, ⟨rfl, rfl, rfl⟩, rfl⟩
      · rw [if_neg hretry] at h
        obtain ⟨rfl, rfl⟩ := Prod.mk.inj h
        exact .inr ⟨fun h => h.2.elim hnot fun h => hretry h.2, .inl ⟨rfl, rfl, rfl⟩, _, rfl⟩
    have hother (hbefore : s.status ≠ .retry ∧ s.status ≠ .sent ∧ s.status ≠ .retrySent)
        (h : (s.keepError code).done false = (s', rs)) :
        ¬ s.Retries code ∧
          (Became s s' .stopping true ∨ Became s s' s.status true) ∧ ∃ r, rs = [r] := by
      obtain ⟨rfl, rfl⟩ := Prod.mk.inj h
      exact ⟨fun h => h.2.elim hbefore.1 fun h => h.1.elim hbefore.2.1 hbefore.2.2,
        .inr ⟨rfl, rfl, rfl⟩, _, rfl⟩
    cases hbefore : s.status with
    | retry =>
        rw [hbefore] at herror
        obtain ⟨rfl, rfl⟩ := Prod.mk.inj herror
        exact .inl ⟨⟨hcode, .inl hbefore⟩, ⟨hbefore, rfl, rfl⟩, rfl⟩
    | sent => exact hbefore ▸ hsent (.inl hbefore) (by rwa [hbefore] at herror)
    | retrySent => exact hbefore ▸ hsent (.inr hbefore) (by rwa [hbefore] at herror)
    | init | stopping | stopped | retryInit =>
        exact .inr (hbefore ▸ hother (by rw [hbefore]; exact ⟨nofun, nofun, nofun⟩)
          (by rwa [hbefore] at herror))

/-- The poll is told that it is removed: it has its result, or gets one. -/
theorem removing_cases (s : OnceOffPoll) :
    ∃ s' rs, s.removing = (s', rs) ∧ Became s s' s.status true ∧
      (s.resultSent = true ∧ rs = [] ∨ s.resultSent = false ∧ ∃ r, rs = [r]) := by
  obtain ⟨⟨s', rs⟩, hremoving⟩ : ∃ r, s.removing = r := ⟨_, rfl⟩
  refine ⟨s', rs, hremoving, ?_⟩
  rw [removing] at hremoving
  cases hsent : s.resultSent with
  | true =>
      rw [if_pos hsent] at hremoving
      obtain ⟨rfl, rfl⟩ := Prod.mk.inj hremoving
      exact ⟨⟨rfl, rfl, hsent⟩, .inl ⟨rfl, rfl⟩⟩
  | false =>
      rw [if_neg (Bool.eq_false_iff.mp hsent)] at hremoving
      obtain ⟨rfl, rfl⟩ := Prod.mk.inj hremoving
      exact ⟨⟨rfl, rfl, rfl⟩, .inr ⟨rfl, _, rfl⟩⟩

end OnceOffPoll

end Ovms.Series
