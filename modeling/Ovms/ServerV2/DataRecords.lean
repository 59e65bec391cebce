import Ovms.ServerV2.Delivery

/-!
# Data Records Do Not Get Stuck

A data record is sent by `TransmitNotifyData` from a cursor on, and stays in the queue of a server
V2 until it is acknowledged. At the end of the queue the flag is cleared and a countdown of ten
seconds starts; when it ends, everything is sent once more.

In a call that is made for the flag, the flag stays set when the limits (300 ms, five records, 4000
bytes) end it. In the call at the end of the countdown the flag is not set, and the countdown is
over: when the limits end that call, nothing sends the records again (`records_stuck`).
-/

open Lib Std

namespace Ovms.ServerV2

open Notify (OvmsNotify OvmsNotifyEntry Posted notifyMaxReaders)

namespace Outbox

variable (reader : Fin notifyMaxReaders)

/-- **Not stuck**: with a connection, while a record waits, sending is pending or the countdown
runs. -/
def Moving (s : Outbox) : Prop :=
  s.v2Connected = true → ∀ o, s.Unread reader dataName o →
    s.pendingData = true ∨ 0 < s.dataRetransmit

/-- A record leaves the queue of the server when its own number is acknowledged. -/
def LeavesByAck (s : Outbox) (e : Event) : Prop :=
  ∀ o, s.Unread reader dataName o → ¬ (step reader s e).Unread reader dataName o →
    ∃ ack : ℤ, e = .dataAck ack ∧
      s.notify.posted[o]? = some (dataName, (ack % 2 ^ 32).toNat)

/-- The loop of `TransmitNotifyData` is left by a limit. -/
def leavesByLimit : Outbox → (cnt size : ℕ) → List Attempt → Bool
  | _, _, _, [] => false
  | s, cnt, size, a :: as =>
    match s.firstUnread reader dataName s.dataLast with
    | none => false
    | some e =>
      a.ok && (a.limit (cnt + 1) (size + a.size) ||
        leavesByLimit { s with dataLast := e.id } (cnt + 1) (size + a.size) as)

/-- The countdown ends, and the call that it makes is left by a limit. -/
def CutShort (s : Outbox) : Event → Prop
  | .ticker1 t => s.v2Connected = true ∧ s.pendingData = false ∧ s.dataRetransmit = 1 ∧
    leavesByLimit reader { s with dataLast := 0 } 0 0 t.data = true
  | _ => False

instance (s : Outbox) : (e : Event) → Decidable (CutShort reader s e)
  | .ticker1 _ => inferInstanceAs (Decidable (_ ∧ _))
  | .notifyString _ | .login | .disconnect | .dataAck _ | .other _ => isFalse id

/-- What holds between the calls. -/
structure Moves (s : Outbox) (L : List Posted) : Prop where
  tracked : Tracked reader s.notify L
  moving : s.v2Connected = true → ∀ o, Waiting reader L dataName o →
    s.pendingData = true ∨ 0 < s.dataRetransmit

variable {reader} {s : Outbox} {L : List Posted}

theorem Moves.moving_spec (h : Moves reader s L) : Moving reader s := fun hconnected o ho =>
  h.moving hconnected o (h.tracked.unread_iff.mp ho)

/-! ### The loop -/

/-- **The loop** leaves nothing behind: it ends with the queue, and the countdown starts if
something was sent; or with a failure, and the flag is set; or by a limit, and the flag is as it
was. -/
theorem dataLoop_moves (as : List Attempt) {s : Outbox} {cnt size : ℕ}
    (h : Tracked reader s.notify L)
    (hs : s.pendingData = true ∨ leavesByLimit reader s cnt size as = false) {o : ℕ}
    (ho : Waiting reader L dataName o) :
    (dataLoop reader s cnt size as).pendingData = true ∨
      0 < (dataLoop reader s cnt size as).dataRetransmit := by
  have hdone : ∀ {s : Outbox}, Tracked reader s.notify L →
      s.firstUnread reader dataName s.dataLast = none → 0 < s.dataDone.dataRetransmit := by
    intro s h hnone
    rw [dataDone]
    dsimp only
    by_cases hlast : s.dataLast = 0
    · rw [hlast] at hnone
      exact absurd ho (h.not_waiting hnone o)
    · rw [if_pos hlast]
      decide
  induction as generalizing s cnt size with
  | nil =>
    rw [dataLoop]
    split
    · next hnone => exact .inr (hdone h hnone)
    · exact .inl rfl
  | cons a as ih =>
    rw [leavesByLimit] at hs
    rw [dataLoop]
    split
    · next hnone => exact .inr (hdone h hnone)
    · next e hfirst =>
      rw [hfirst] at hs
      by_cases hok : a.ok = true
      · rw [if_pos hok]
        dsimp only at hs ⊢
        rw [hok, Bool.true_and, Bool.or_eq_false_iff] at hs
        split
        · next hlimit =>
          refine .inl (hs.resolve_right fun hleaves => ?_)
          exact Bool.false_ne_true (hleaves.1.symm.trans hlimit)
        · exact ih (s := { s with dataLast := e.id }) h (hs.imp_right And.right)
      · rw [if_neg hok]
        exact .inl rfl

/-! ### The other notifications -/

/-- What data records need is as it was. -/
structure SameData (s t : Outbox) : Prop where
  type : t.notify.getType dataName = s.notify.getType dataName
  connected : t.v2Connected = s.v2Connected
  pendingData : t.pendingData = s.pendingData
  dataRetransmit : t.dataRetransmit = s.dataRetransmit

/-- Whether a limit is met depends on the queue and the cursor. -/
theorem leavesByLimit_congr (as : List Attempt) {s t : Outbox} {cnt size : ℕ}
    (htype : t.notify.getType dataName = s.notify.getType dataName)
    (hlast : t.dataLast = s.dataLast) :
    leavesByLimit reader t cnt size as = leavesByLimit reader s cnt size as := by
  induction as generalizing s t cnt size with
  | nil => rfl
  | cons a as ih =>
    have hfirst : t.firstUnread reader dataName t.dataLast =
        s.firstUnread reader dataName s.dataLast := by
      rw [firstUnread, firstUnread, htype, hlast]
    rw [leavesByLimit, leavesByLimit, hfirst]
    split
    · rfl
    · next e _ =>
      rw [ih (s := { s with dataLast := e.id }) (t := { t with dataLast := e.id }) htype rfl]

/-- The queue of a type is the same when an entry of another type is marked. -/
theorem getType_markRead_of_ne (s : OvmsNotify) {type type' : Text} (hne : type ≠ type')
    (id k : ℕ) : (s.markRead type id k).getType type' = s.getType type' := by
  have hsettle : ∀ r, (s.settle type r).getType type' = s.getType type' := by
    intro r
    rw [OvmsNotify.getType, OvmsNotify.settle, TreeMap.getElem?_insert,
      if_neg (mt Std.LawfulEqCmp.compare_eq_iff_eq.mp hne)]
    rfl
  rw [OvmsNotify.markRead]
  split
  · rfl
  · split
    · rfl
    · exact hsettle _

/-- **A tick, up to the data records**, leaves them alone. -/
theorem tickKinds_data (h : Tracked reader s.notify L) (t : Tick) :
    ∃ L', Tracked reader (s.tickKinds reader t).notify L' ∧
      (∀ o, Waiting reader L' dataName o ↔ Waiting reader L dataName o) ∧
      SameData s (s.tickKinds reader t) := by
  let P : Outbox → Prop := fun s' => ∃ L', Tracked reader s'.notify L' ∧
    (∀ o, Waiting reader L' dataName o ↔ Waiting reader L dataName o) ∧ SameData s s'
  have hpending : ∀ {s' : Outbox} (kind : Kind) (b : Bool), P s' → P (s'.setPending kind b) := by
    rintro s' kind b ⟨L', htracked, hwaiting, hsame⟩
    exact ⟨L', htracked, hwaiting, hsame.type, hsame.connected, hsame.pendingData,
      hsame.dataRetransmit⟩
  have hkind : ∀ {s' : Outbox} (kind : Kind) (oks : List Bool), P s' →
      P (tickKind reader kind s' oks) := by
    intro s' kind oks hs'
    rw [tickKind]
    split
    · refine sendLoop_rule (P := P) ?_ (fun _ hs _ => hs) (fun _ hs => hpending kind true hs) oks
        (hpending kind false hs')
      rintro u e ⟨L', htracked, hwaiting, hsame⟩ hfirst
      obtain ⟨L'', htracked', hwaiting'⟩ := htracked.deliver hfirst
      refine ⟨L'', htracked', fun o => ?_, ?_, hsame.connected, hsame.pendingData,
        hsame.dataRetransmit⟩
      · rw [hwaiting', hwaiting]
        refine and_iff_left_of_imp fun ho heq => ?_
        -- it would be of both types
        obtain ⟨id, -, -, -, hpost⟩ := htracked.queued ((hwaiting o).mpr ho)
        rw [heq, (htracked.firstUnread_some hfirst).2] at hpost
        exact name_ne_dataName kind (Prod.mk.inj (Option.some.inj hpost)).1
      · exact (getType_markRead_of_ne _ (name_ne_dataName kind) _ _).trans hsame.type
    · exact hs'
  have hs : P s := ⟨L, h, fun _ => Iff.rfl, rfl, rfl, rfl, rfl⟩
  rw [tickKinds_eq]
  exact hkind .info t.infos (hkind .error t.errors (hkind .alert t.alerts hs))

/-! ### The calls -/

/-- **A tick.** -/
theorem Moves.ticker1 (h : Moves reader s L) {t : Tick}
    (hcut : ¬ CutShort reader s (.ticker1 t)) :
    ∃ L', Moves reader (s.ticker1 reader t) L' ∧
      ∀ o, Waiting reader L' dataName o ↔ Waiting reader L dataName o := by
  rw [Outbox.ticker1]
  split
  swap
  · exact ⟨L, h, fun _ => Iff.rfl⟩
  next hconnected =>
  obtain ⟨L', htracked, hwaiting, hsame⟩ := tickKinds_data h.tracked t
  generalize s.tickKinds reader t = u at htracked hsame
  have hmoving : ∀ o, Waiting reader L' dataName o →
      u.pendingData = true ∨ 0 < u.dataRetransmit := fun o ho => by
    rw [hsame.pendingData, hsame.dataRetransmit]
    exact h.moving hconnected o ((hwaiting o).mp ho)
  -- without the type no record waits
  have htransmit : ∀ {u : Outbox}, Tracked reader u.notify L' → (u.pendingData = true ∨
      leavesByLimit reader u 0 0 t.data = false) → ∀ o, Waiting reader L' dataName o →
      (u.transmitNotifyData reader t.data).pendingData = true ∨
        0 < (u.transmitNotifyData reader t.data).dataRetransmit := by
    intro u htracked hu o ho
    obtain ⟨_, _, ⟨_, htype, _⟩, -⟩ := htracked.queued ho
    have hget : u.notify.getType dataName = some _ := htype
    rw [transmitNotifyData, hget, Option.isSome_some, if_pos rfl]
    exact dataLoop_moves t.data htracked hu ho
  refine ⟨L', ⟨?_, fun _ o ho => ?_⟩, hwaiting⟩
  · obtain ⟨_, _, _, heq⟩ := tickData_eq reader u t.data
    rw [heq]
    exact htracked
  · rw [tickData]
    split
    · next hpending => exact htransmit htracked (.inl hpending) o ho
    · next hpending =>
      have hrun : 0 < u.dataRetransmit := (hmoving o ho).resolve_left hpending
      rw [if_pos hrun]
      dsimp only
      split
      · next hzero =>
        refine htransmit (u := { u with dataRetransmit := u.dataRetransmit - 1, dataLast := 0 })
          htracked (.inr ?_) o ho
        have hsame' : leavesByLimit reader
            { u with dataRetransmit := u.dataRetransmit - 1, dataLast := 0 } 0 0 t.data =
            leavesByLimit reader { s with dataLast := 0 } 0 0 t.data :=
          leavesByLimit_congr _ hsame.type rfl
        rw [hsame']
        refine Bool.eq_false_iff.mpr fun hlimit => hcut ⟨hconnected, ?_, ?_, hlimit⟩
        · rw [← hsame.pendingData]
          exact Bool.not_eq_true _ ▸ hpending
        · rw [← hsame.dataRetransmit]
          omega
      · next hzero => exact .inr (Nat.pos_of_ne_zero hzero)

/-- **A notification**: a data record sets the flag. -/
theorem Moves.notifyString (h : Moves reader s L) {n : Notification}
    (hlock : s.notify.clearing = none) (hwrap : ¬ Wraps reader s (.notifyString n)) :
    ∃ L', Moves reader (s.notifyString reader n) L' ∧
      ∀ o, Waiting reader L dataName o → Waiting reader L' dataName o := by
  -- the callback touches the flag of data records for a data record only
  have hcallback : ∀ object, ((s.incomingNotification n.type object n.ok).1.v2Connected =
        s.v2Connected ∧
      (s.incomingNotification n.type object n.ok).1.dataRetransmit = s.dataRetransmit) ∧
      (s.pendingData = true ∨ n.type = dataName →
        (s.incomingNotification n.type object n.ok).1.pendingData = true) := by
    intro object
    rw [incomingNotification]
    rcases hkind : kindOf n.type with _ | kind
    · by_cases hdata : n.type = dataName
      · simp [hdata]
      · simp [hdata]
    · have hne : n.type ≠ dataName := fun heq =>
        name_ne_dataName kind ((kindOf_eq_some_iff.mp hkind).symm.trans heq)
      simp only [hne, or_false]
      split
      · exact ⟨⟨rfl, rfl⟩, id⟩
      · split <;> exact ⟨⟨rfl, rfl⟩, id⟩
  rw [Outbox.notifyString]
  rcases hacc : s.accepts reader n with _ | _
  · obtain ⟨L', ht⟩ := h.tracked.notifyString hlock hwrap false rfl
    refine ⟨L', ⟨ht.tracked, fun hconnected o ho => h.moving hconnected o ?_⟩, fun o ho => ?_⟩
    · refine ((ht.waiting _ _).mp ho).resolve_right fun hnew => ?_
      exact Bool.false_ne_true (hacc.symm.trans hnew.1)
    · exact (ht.waiting _ _).mpr (.inl ho)
  · simp only [if_true]
    obtain ⟨⟨hconnected', hretransmit⟩, hflag⟩ := hcallback s.notify.posted.length
    generalize s.incomingNotification n.type s.notify.posted.length n.ok = r at *
    obtain ⟨L', ht⟩ := h.tracked.notifyString hlock hwrap r.2 rfl
    refine ⟨L', ⟨ht.tracked, fun hconnected o ho => ?_⟩, fun o ho => ?_⟩
    · obtain hw | ⟨-, -, htype, -⟩ := (ht.waiting _ _).mp ho
      · rcases h.moving (hconnected'.symm.trans hconnected) o hw with hpending | hrun
        · exact .inl (hflag (.inl hpending))
        · exact .inr (hrun.trans_eq hretransmit.symm)
      · exact .inl (hflag (.inr htype.symm))
    · exact (ht.waiting _ _).mpr (.inl ho)

/-- **The step lemma**: nothing gets stuck, and records leave when they are acknowledged. -/
theorem Moves.step (h : Moves reader s L) {e : Event} (he : Admitted reader s e)
    (hwrap : ¬ Wraps reader s e) (hcut : ¬ CutShort reader s e) :
    ∃ L', Moves reader (step reader s e) L' ∧ ∀ o, Waiting reader L dataName o →
      Waiting reader L' dataName o ∨ ∃ ack : ℤ, e = .dataAck ack ∧
        s.notify.posted[o]? = some (dataName, (ack % 2 ^ 32).toNat) := by
  cases e with
  | notifyString n =>
    obtain ⟨L', hmoves, hwaiting⟩ := h.notifyString he hwrap
    exact ⟨L', hmoves, fun o ho => .inl (hwaiting o ho)⟩
  | login => exact ⟨L, ⟨h.tracked, fun _ _ _ => .inl rfl⟩, fun o ho => .inl ho⟩
  | disconnect =>
    exact ⟨L, ⟨h.tracked, fun hconnected => by cases hconnected⟩, fun o ho => .inl ho⟩
  | ticker1 t =>
    obtain ⟨L', hmoves, hwaiting⟩ := h.ticker1 hcut
    exact ⟨L', hmoves, fun o ho => .inl ((hwaiting o).mpr ho)⟩
  | dataAck ack =>
    obtain ⟨L', htracked, hwaiting⟩ := h.tracked.markRead dataName (ack % 2 ^ 32).toNat
    refine ⟨L', ⟨htracked, fun hconnected o ho => h.moving hconnected o ?_⟩, fun o ho => ?_⟩
    · exact ((hwaiting _ o).mp ho).1
    · by_cases hack : s.notify.posted[o]? = some (dataName, (ack % 2 ^ 32).toNat)
      · exact .inr ⟨ack, rfl, hack⟩
      · exact .inl ((hwaiting _ o).mpr ⟨ho, hack⟩)
  | other e =>
    obtain ⟨L', htracked, -, hwaiting⟩ := h.tracked.other he.1 he.2
    refine ⟨L', ⟨htracked, fun hconnected o ho => h.moving hconnected o ?_⟩, fun o ho => ?_⟩
    · exact (hwaiting _ o).mp ho
    · exact .inl ((hwaiting _ o).mpr ho)

/-! ### Runs -/

/-- **Data records do not get stuck**, in every state of a run in which no call at the end of the
countdown is left by a limit and no type numbers an entry after its counter has wrapped; and in
every step a record leaves the queue of the server only when its own number is acknowledged. -/
theorem records_move (reader : Fin notifyMaxReaders) (es : List Event)
    (h : Along (step reader) (Admitted reader) (new reader) es)
    (hwrap : Along (step reader) (fun s e => ¬ Wraps reader s e) (new reader) es)
    (hcut : Along (step reader) (fun s e => ¬ CutShort reader s e) (new reader) es) :
    (∀ pre, pre <+: es → Moving reader (pre.foldl (step reader) (new reader))) ∧
      Along (step reader) (LeavesByAck reader) (new reader) es := by
  have hnew : ∃ L, Moves reader (new reader) L :=
    ⟨[], tracked_new, fun hconnected => by cases hconnected⟩
  have hmoves : ∀ pre, pre <+: es → ∃ L, Moves reader (pre.foldl (step reader) (new reader)) L := by
    refine ((h.and hwrap).and hcut).invariant_along (I := fun s => ∃ L, Moves reader s L) ?_ hnew
    rintro s e ⟨L, hs⟩ ⟨⟨he, hwrap⟩, hcut⟩
    obtain ⟨L', hs', -⟩ := hs.step he hwrap hcut
    exact ⟨L', hs'⟩
  constructor
  · intro pre hpre
    obtain ⟨L, hs⟩ := hmoves pre hpre
    exact hs.moving_spec
  · refine along_iff.mpr fun pre e post hes o ho hgone => ?_
    obtain ⟨L, hs⟩ := hmoves pre ⟨e :: post, hes.symm⟩
    obtain ⟨L', hs', hwaiting⟩ := hs.step (along_iff.mp h pre e post hes)
      (along_iff.mp hwrap pre e post hes) (along_iff.mp hcut pre e post hes)
    refine (hwaiting o (hs.tracked.unread_iff.mp ho)).resolve_left fun hw => hgone ?_
    exact hs'.tracked.unread_iff.mpr hw

/-- A data record. -/
def record : Notification :=
  ⟨dataName, [], [], fun _ => [], fun _ => false, fun _ => false, fun _ => false, true⟩

/-- A tick in which `Transmit` succeeds, up to six times. -/
def tick : Event := .ticker1 ⟨[], [], [], List.replicate 6 ⟨true, 0, 20⟩⟩

/-- A record is sent and acknowledged. -/
def acknowledged : List Event := [.login, .notifyString record, tick, tick, .dataAck 1]

theorem records_move_acknowledged :
    Along (step 1) (Admitted 1) (new 1) acknowledged ∧
      (∀ pre, pre <+: acknowledged → Moving 1 (pre.foldl (step 1) (new 1))) ∧
      Along (step 1) (LeavesByAck 1) (new 1) acknowledged := by
  have hadmitted : Along (step 1) (Admitted 1) (new 1) acknowledged := by decide +kernel
  exact ⟨hadmitted, records_move 1 acknowledged hadmitted (by decide +kernel) (by decide +kernel)⟩

/-- Six records, which are all sent, and the countdown. -/
def unacknowledged : List Event :=
  .login :: List.replicate 6 (.notifyString record) ++ List.replicate 12 tick

/-- Five of the records are sent once more, and then nothing happens to any of them. -/
theorem records_stuck :
    ¬ ∀ (reader : Fin notifyMaxReaders) (es : List Event),
      Along (step reader) (Admitted reader) (new reader) es →
        (∀ pre, pre <+: es → Moving reader (pre.foldl (step reader) (new reader))) ∧
          Along (step reader) (LeavesByAck reader) (new reader) es := by
  intro hall
  have hadmitted : Along (step 1) (Admitted 1) (new 1) unacknowledged := by decide +kernel
  have hlast := (hall 1 unacknowledged hadmitted).1 _ List.prefix_rfl
  have hstuck : let s := unacknowledged.foldl (step 1) (new 1)
      s.v2Connected = true ∧ s.pendingData = false ∧ s.dataRetransmit = 0 ∧
        ((s.notify.getType dataName).bind fun t => t.entries[1]?).any
          (fun e => !e.isRead 1) = true := by
    decide +kernel
  generalize unacknowledged.foldl (step 1) (new 1) = s at hlast hstuck
  obtain ⟨hconnected, hpending, hcountdown, hunread⟩ := hstuck
  obtain ⟨e, he, hread⟩ := (Option.any_eq_true _ _).mp hunread
  obtain ⟨t, ht, he⟩ := Option.bind_eq_some_iff.mp he
  rw [Bool.not_eq_true'] at hread
  rcases hlast hconnected e.object ⟨1, e, ⟨t, ht, he⟩, rfl, hread⟩ with hflag | hrun
  · exact Bool.false_ne_true (hpending.symm.trans hflag)
  · rw [hcountdown] at hrun
    exact Nat.lt_irrefl 0 hrun

end Outbox

end Ovms.ServerV2
