import Ovms.ServerV2.Outbox

/-!
# Notifications Are Delivered Once

An info, error or alert that a server V2 accepts is sent from the callback, or else by a tick when
the flag of its type is set. It leaves the queue of the server when `Transmit` has succeeded for
it, and not otherwise; while one is left, the flag is set or there is no connection.

The flag is cleared before the loop and set again when `Transmit` fails, so the loop carries the
invariant without the flag of its own kind (`Counted`). The search in the loop is for numbers
above 0. It misses the entry that gets the number 0 from a counter that has wrapped
(`info_number_zero`).
-/

open Lib Std

namespace Ovms.ServerV2

open Notify (OvmsNotify OvmsNotifyEntry Posted notifyMaxReaders)

theorem kindOf_name (kind : Kind) : kindOf kind.name = some kind := by
  cases kind <;> decide

/-- A type has the kind that it is the name of. -/
theorem kindOf_eq_some_iff {type : Text} {kind : Kind} :
    kindOf type = some kind ↔ type = kind.name := by
  refine ⟨fun h => ?_, fun h => h ▸ kindOf_name kind⟩
  rw [kindOf] at h
  split_ifs at h with hinfo herror halert
  · exact Option.some.inj h ▸ hinfo
  · exact Option.some.inj h ▸ herror
  · exact Option.some.inj h ▸ halert

theorem name_ne_dataName (kind : Kind) : kind.name ≠ dataName := by
  cases kind <;> decide

namespace Outbox

variable (reader : Fin notifyMaxReaders)

/-- **Delivered once**: no entry is sent twice, and none that was not accepted; one that was
accepted has been sent exactly when it is not in the queue of the server any more; and while one is
there, the flag of its type is set or there is no connection. -/
structure Delivered (s : Outbox) : Prop where
  once : s.sent.Nodup
  only : ∀ o ∈ s.sent, o ∈ s.accepted
  sent : ∀ o ∈ s.accepted, o ∈ s.sent ↔ ∀ kind : Kind, ¬ s.Unread reader kind.name o
  flagged : ∀ (kind : Kind) (o : ℕ), s.Unread reader kind.name o →
    s.pending kind = true ∨ s.v2Connected = false

/-- What holds also within the loop. -/
structure Counted (s : Outbox) (L : List Posted) : Prop where
  tracked : Tracked reader s.notify L
  made : ∀ o ∈ s.accepted, o < s.notify.posted.length
  once : s.sent.Nodup
  only : ∀ o ∈ s.sent, o ∈ s.accepted
  sent : ∀ o ∈ s.accepted, o ∈ s.sent ↔ ∀ kind : Kind, ¬ Waiting reader L kind.name o
  waiting : ∀ (kind : Kind) (o : ℕ), Waiting reader L kind.name o → o ∈ s.accepted

/-- While an entry of a kind waits, its flag is set or there is no connection. -/
def Flagged (s : Outbox) (L : List Posted) (kind : Kind) : Prop :=
  ∀ o, Waiting reader L kind.name o → s.pending kind = true ∨ s.v2Connected = false

/-- What holds between the calls. -/
def Good (s : Outbox) : Prop :=
  ∃ L, Counted reader s L ∧ ∀ kind, Flagged reader s L kind

variable {reader} {s : Outbox} {L : List Posted}

/-- The type of an info, error or alert. -/
def IsKind (type : Text) : Prop := ∃ kind : Kind, type = kind.name

/-- It is what holds of a reader, for the types of the kinds. -/
theorem counted_iff : Counted reader s L ↔
    Notify.Counted (ovmsv2 reader) IsKind s.accepted s.sent s.notify L := by
  have hall : ∀ o, (∀ type, IsKind type → ¬ Waiting reader L type o) ↔
      ∀ kind : Kind, ¬ Waiting reader L kind.name o := fun o =>
    ⟨fun h kind => h _ ⟨kind, rfl⟩, fun h type ⟨kind, hkind⟩ => hkind ▸ h kind⟩
  constructor
  · exact fun h => ⟨h.tracked.follows, h.made, h.once, h.only,
      fun o ho => (h.sent o ho).trans (hall o).symm, fun type o ⟨kind, hkind⟩ ho =>
        h.waiting kind o (hkind ▸ ho)⟩
  · exact fun h => ⟨tracked_iff.mpr h.follows, h.made, h.once, h.only,
      fun o ho => (h.sent_iff o ho).trans (hall o), fun kind o ho => h.waits _ o ⟨kind, rfl⟩ ho⟩

/-- The invariant is about the queues and what was sent. -/
theorem Counted.of_eq {t : Outbox} (h : Counted reader s L) (hnotify : t.notify = s.notify)
    (haccepted : t.accepted = s.accepted) (hsent : t.sent = s.sent) : Counted reader t L where
  tracked := hnotify ▸ h.tracked
  made := by
    rw [hnotify, haccepted]
    exact h.made
  once := hsent ▸ h.once
  only := by
    rw [hsent, haccepted]
    exact h.only
  sent := by
    rw [hsent, haccepted]
    exact h.sent
  waiting := haccepted ▸ h.waiting

theorem Good.delivered (h : Good reader s) : Delivered reader s := by
  obtain ⟨L, hc, hf⟩ := h
  refine ⟨hc.once, hc.only, fun o ho => ?_, fun kind o hu => ?_⟩
  · simp only [hc.tracked.unread_iff]
    exact hc.sent o ho
  · exact hf kind o (hc.tracked.unread_iff.mp hu)

/-! ### The loop -/

theorem Counted.send (h : Counted reader s L) {kind : Kind} {e : OvmsNotifyEntry}
    (hfirst : s.firstUnread reader kind.name 0 = some e) :
    ∃ L', Counted reader ({ s with sent := s.sent ++ [e.object] }.markRead reader kind.name e.id)
        L' ∧ ∀ type o, Waiting reader L' type o → Waiting reader L type o := by
  obtain ⟨L', hcounted, hwaits⟩ := (counted_iff.mp h).send ⟨kind, rfl⟩ hfirst
  exact ⟨L', counted_iff.mpr hcounted, fun type o ho => ((hwaits type o).mp ho).1⟩

/-- **The loop** delivers, and sets its flag if something is left. -/
theorem Good.transmitNotify (h : Good reader s) (kind : Kind) (oks : List Bool) :
    Good reader (transmitNotify reader kind s oks) := by
  have hstart : ∃ L, Counted reader (s.setPending kind false) L ∧
      ∀ k ≠ kind, Flagged reader (s.setPending kind false) L k := by
    obtain ⟨L, hc, hf⟩ := h
    refine ⟨L, hc.of_eq rfl rfl rfl, fun k hk o ho => ?_⟩
    rw [pending_setPending_of_ne s hk]
    exact hf k o ho
  refine sendLoop_rule (P := fun s => ∃ L, Counted reader s L ∧ ∀ k ≠ kind, Flagged reader s L k)
    ?_ ?_ ?_ oks hstart
  · rintro s e ⟨L, hc, hf⟩ hfirst
    obtain ⟨L', hc', hwaiting⟩ := hc.send hfirst
    exact ⟨L', hc', fun k hk o ho => hf k hk o (hwaiting _ _ ho)⟩
  · rintro s ⟨L, hc, hf⟩ hnone
    refine ⟨L, hc, fun k o ho => ?_⟩
    by_cases hk : k = kind
    · exact absurd (hk ▸ ho) (hc.tracked.not_waiting hnone o)
    · exact hf k hk o ho
  · rintro s ⟨L, hc, hf⟩
    refine ⟨L, hc.of_eq rfl rfl rfl, fun k o ho => ?_⟩
    by_cases hk : k = kind
    · subst hk
      exact .inl (pending_setPending_self s k true)
    · rw [pending_setPending_of_ne s hk]
      exact hf k hk o ho

/-- **A tick.** -/
theorem Good.ticker1 (h : Good reader s) (t : Tick) : Good reader (s.ticker1 reader t) := by
  have hkinds : Good reader (s.tickKinds reader t) := by
    have hkind : ∀ {s : Outbox} (kind : Kind) (oks : List Bool), Good reader s →
        Good reader (tickKind reader kind s oks) := by
      intro s kind oks hs
      rw [tickKind]
      split
      · exact hs.transmitNotify kind oks
      · exact hs
    rw [tickKinds_eq]
    exact hkind .info t.infos (hkind .error t.errors (hkind .alert t.alerts h))
  rw [Outbox.ticker1]
  split
  · obtain ⟨L, hc, hf⟩ := hkinds
    obtain ⟨_, _, _, heq⟩ := tickData_eq reader (s.tickKinds reader t) t.data
    rw [heq]
    exact ⟨L, hc.of_eq rfl rfl rfl, hf⟩
  · exact h

/-! ### The calls -/

theorem Takes.enqueued {n : Notification} {processed : Bool} {s' : OvmsNotify} {L' : List Posted}
    (ht : Takes reader s n processed L s' L') :
    Notify.Enqueued (ovmsv2 reader) s.notify n.type (s.accepts reader n) processed L s' L' :=
  ⟨ht.tracked.follows, ht.posted, ht.made, ht.waiting⟩

/-- A notification that the server does not accept, or that is none of the three kinds. -/
theorem Counted.takes (h : Counted reader s L) {n : Notification} {processed : Bool}
    {s' : OvmsNotify} {L' : List Posted} (ht : Takes reader s n processed L s' L')
    (hnone : s.accepts reader n = false ∨ kindOf n.type = none) :
    Counted reader { s with notify := s' } L' ∧
      ∀ (kind : Kind) o, Waiting reader L' kind.name o ↔ Waiting reader L kind.name o := by
  have hnot : s.accepts reader n = false ∨ ¬ IsKind n.type := by
    refine hnone.imp id fun hkind => ?_
    rintro ⟨kind, hname⟩
    rw [hname, kindOf_name] at hkind
    exact Option.some_ne_none kind hkind
  refine ⟨counted_iff.mpr ((counted_iff.mp h).takes_other ht.enqueued hnot), fun kind o => ?_⟩
  refine ht.enqueued.waits_other ?_
  exact hnot.imp id fun hkind => .inr fun heq => hkind ⟨kind, heq.symm⟩

/-- A notification of a kind that the server accepts: it is sent, or waits. -/
theorem Counted.takes_kind (h : Counted reader s L) {n : Notification} {processed : Bool}
    {s' : OvmsNotify} {L' : List Posted} (ht : Takes reader s n processed L s' L') {kind : Kind}
    (hacc : s.accepts reader n = true) (hkind : kindOf n.type = some kind) :
    Counted reader { s with
      notify := s'
      accepted := s.accepted ++ [s.notify.posted.length]
      sent := if processed then s.sent ++ [s.notify.posted.length] else s.sent } L' := by
  have henqueued := ht.enqueued
  rw [hacc] at henqueued
  exact counted_iff.mpr ((counted_iff.mp h).takes ⟨kind, kindOf_eq_some_iff.mp hkind⟩ henqueued)

/-- **A notification.** -/
theorem Good.notifyString (h : Good reader s) {n : Notification}
    (hlock : s.notify.clearing = none) (hwrap : ¬ Wraps reader s (.notifyString n)) :
    Good reader (s.notifyString reader n) := by
  obtain ⟨L, hc, hf⟩ := h
  have htakes : ∀ processed, ∃ L', Takes reader s n processed L (s.notify.notifyString n.type
      n.subtype n.value (n.raisedEnv reader) (n.dispatchedEnv reader processed)) L' :=
    fun processed => hc.tracked.notifyString hlock hwrap processed rfl
  rw [Outbox.notifyString]
  rcases hacc : s.accepts reader n with _ | _
  · obtain ⟨L', ht⟩ := htakes false
    obtain ⟨hc', hwaiting⟩ := hc.takes ht (.inl hacc)
    exact ⟨L', hc', fun kind o ho => hf kind o ((hwaiting kind o).mp ho)⟩
  simp only [if_true, Bool.true_and, incomingNotification]
  rcases hkind : kindOf n.type with _ | kind
  · by_cases hdata : n.type = dataName
    · obtain ⟨L', ht⟩ := htakes false
      obtain ⟨hc', hwaiting⟩ := hc.takes ht (.inr hkind)
      simp only [if_pos hdata]
      exact ⟨L', hc'.of_eq rfl rfl rfl, fun kind o ho => hf kind o ((hwaiting kind o).mp ho)⟩
    · obtain ⟨L', ht⟩ := htakes true
      obtain ⟨hc', hwaiting⟩ := hc.takes ht (.inr hkind)
      simp only [if_neg hdata]
      exact ⟨L', hc'.of_eq rfl rfl rfl, fun kind o ho => hf kind o ((hwaiting kind o).mp ho)⟩
  · simp only [Option.isSome_some, if_true]
    have hwaits : Good reader { s.setPending kind true with
        notify := s.notify.notifyString n.type n.subtype n.value (n.raisedEnv reader)
          (n.dispatchedEnv reader false)
        accepted := s.accepted ++ [s.notify.posted.length] } := by
      obtain ⟨L', ht⟩ := htakes false
      refine ⟨L', (hc.takes_kind ht hacc hkind).of_eq rfl rfl rfl, fun k o ho => ?_⟩
      by_cases hk : k = kind
      · subst hk
        exact .inl (pending_setPending_self s k true)
      · obtain hw | ⟨-, -, htype, -⟩ := (ht.waiting _ _).mp ho
        · exact (hf k o hw).imp_left fun hp => (pending_setPending_of_ne s hk true).trans hp
        · rw [← htype, kindOf_name] at hkind
          exact absurd (Option.some.inj hkind) hk
    cases hconnected : s.v2Connected with
    | false => exact hwaits
    | true =>
      cases hok : n.ok with
      | false => exact hwaits
      | true =>
        obtain ⟨L', ht⟩ := htakes true
        refine ⟨L', (hc.takes_kind ht hacc hkind).of_eq rfl rfl rfl, fun k o ho => ?_⟩
        obtain hw | ⟨-, hfalse, -⟩ := (ht.waiting _ _).mp ho
        · have hflag := hf k o hw
          rwa [hconnected] at hflag
        · cases hfalse

/-- **An acknowledgement** is for a data record. -/
theorem Good.handleNotifyDataAck (h : Good reader s) (ack : ℤ) :
    Good reader (s.handleNotifyDataAck reader ack) := by
  obtain ⟨L, hc, hf⟩ := h
  obtain ⟨L', htracked, hwaiting⟩ := hc.tracked.markRead dataName (ack % 2 ^ 32).toNat
  obtain ⟨hposted, -⟩ := Notify.markRead_keeps s.notify dataName (ack % 2 ^ 32).toNat reader
  have hkinds : ∀ (kind : Kind) o,
      Waiting reader L' kind.name o ↔ Waiting reader L kind.name o := by
    intro kind o
    refine (hwaiting kind.name o).trans (and_iff_left_of_imp fun hw hpost => ?_)
    obtain ⟨id, e, -, -, hpost'⟩ := hc.tracked.queued hw
    have heq := Option.some.inj (hpost'.symm.trans hpost)
    exact name_ne_dataName kind (Prod.mk.inj heq).1
  refine ⟨L', ⟨htracked, fun o ho => ?_, hc.once, hc.only, fun o ho => ?_, fun kind o ho => ?_⟩,
    fun kind o ho => hf kind o ((hkinds kind o).mp ho)⟩
  · exact hposted.symm ▸ hc.made o ho
  · simp only [hkinds]
    exact hc.sent o ho
  · exact hc.waiting kind o ((hkinds kind o).mp ho)

/-- **The step lemma.** -/
theorem Good.step (h : Good reader s) {e : Event} (he : Admitted reader s e)
    (hwrap : ¬ Wraps reader s e) : Good reader (step reader s e) := by
  cases e with
  | notifyString n => exact h.notifyString he hwrap
  | login =>
    obtain ⟨L, hc, -⟩ := h
    exact ⟨L, hc.of_eq rfl rfl rfl, fun _ _ _ => .inl rfl⟩
  | disconnect =>
    obtain ⟨L, hc, -⟩ := h
    exact ⟨L, hc.of_eq rfl rfl rfl, fun _ _ _ => .inr rfl⟩
  | ticker1 t => exact h.ticker1 t
  | dataAck ack => exact h.handleNotifyDataAck ack
  | other e =>
    obtain ⟨L, hc, hf⟩ := h
    obtain ⟨L', htracked, hposted, hwaiting⟩ := hc.tracked.other he.1 he.2
    refine ⟨L', ⟨htracked, fun o ho => ?_, hc.once, hc.only, fun o ho => ?_,
      fun kind o ho => ?_⟩, fun kind o ho => hf kind o ((hwaiting _ o).mp ho)⟩
    · exact hposted.symm ▸ hc.made o ho
    · simp only [hwaiting]
      exact hc.sent o ho
    · exact hc.waiting kind o ((hwaiting _ o).mp ho)

/-- At the start nothing was accepted. -/
theorem good_new : Good reader (new reader) := by
  have hnone : ∀ type o, ¬ Waiting reader [] type o := fun type o ⟨p, hp, _⟩ => by simp at hp
  refine ⟨[], ⟨tracked_new, ?_, List.nodup_nil, ?_, ?_, ?_⟩, ?_⟩
  · exact fun o ho => absurd ho List.not_mem_nil
  · exact fun o ho => absurd ho List.not_mem_nil
  · exact fun o ho => absurd ho List.not_mem_nil
  · exact fun kind o ho => absurd ho (hnone _ o)
  · exact fun kind o ho => absurd ho (hnone _ o)

/-- **Info, error and alert notifications are delivered once**, in every state of a run in which no
type numbers an entry after its counter has wrapped. -/
theorem delivered_of_not_wraps (reader : Fin notifyMaxReaders) (es : List Event)
    (h : Along (step reader) (Admitted reader) (new reader) es)
    (hwrap : Along (step reader) (fun s e => ¬ Wraps reader s e) (new reader) es) :
    ∀ pre, pre <+: es → Delivered reader (pre.foldl (step reader) (new reader)) := by
  have hgood : ∀ pre, pre <+: es → Good reader (pre.foldl (step reader) (new reader)) :=
    (h.and hwrap).invariant_along (fun _ _ hs he => hs.step he.1 he.2) good_new
  exact fun pre hpre => (hgood pre hpre).delivered

/-- An info, for which `Transmit` succeeds or not. -/
def notice (ok : Bool) : Notification :=
  ⟨Kind.info.name, [], [], fun _ => [], fun _ => false, fun _ => false, fun _ => false, ok⟩

/-- It is raised before there is a connection, and then sent at the second attempt. -/
def secondAttempt : List Event :=
  [.notifyString (notice true), .login, .ticker1 ⟨[], [], [false], []⟩,
    .ticker1 ⟨[], [], [true], []⟩]

theorem delivered_secondAttempt :
    Along (step 1) (Admitted 1) (new 1) secondAttempt ∧
      ∀ pre, pre <+: secondAttempt → Delivered 1 (pre.foldl (step 1) (new 1)) := by
  have hadmitted : Along (step 1) (Admitted 1) (new 1) secondAttempt := by decide +kernel
  exact ⟨hadmitted, delivered_of_not_wraps 1 secondAttempt hadmitted (by decide +kernel)⟩

/-! ### A counter that wraps -/

/-- A number of infos that are sent as they come. -/
def flood (n : ℕ) : List Event := .login :: List.replicate n (.notifyString (notice true))

theorem flood_succ (n : ℕ) : flood (n + 1) = flood n ++ [.notifyString (notice true)] := by
  rw [flood, List.replicate_succ', flood, List.cons_append]

/-- After a number of infos the queue is empty, and the counter has counted them. -/
structure Flooded (s : Outbox) (n : ℕ) : Prop where
  clearing : s.notify.clearing = none
  readers : s.notify.readers = (∅ : Notify.CallbackMap).insert 1 (ovmsv2 1)
  connected : s.v2Connected = true
  type : ∃ t, s.notify.getType Kind.info.name = some t ∧ t.nextid = (1 + n) % 2 ^ 32 ∧
    ∀ id : ℕ, t.entries[id]? = none

/-- One more info: it is sent, or stands in the queue. -/
theorem Flooded.notice {n : ℕ} (h : Flooded s n) (ok : Bool) :
    (s.notifyString 1 (notice ok)).notify.clearing = none ∧
      (s.notifyString 1 (Outbox.notice ok)).notify.readers = s.notify.readers ∧
      (s.notifyString 1 (Outbox.notice ok)).v2Connected = true ∧
      ∃ t, (s.notifyString 1 (Outbox.notice ok)).notify.getType Kind.info.name = some t ∧
        t.nextid = (1 + (n + 1)) % 2 ^ 32 ∧
        ∃ e : OvmsNotifyEntry, e.id = (1 + n) % 2 ^ 32 ∧ (e.isRead 1 = false ↔ ok = false) ∧
          ∀ id, t.entries[id]? = if (1 + n) % 2 ^ 32 = id ∧ ok = false then some e else none := by
  obtain ⟨hclearing, hreaders, hconnected, t, ht, hnextid, hentries⟩ := h
  have hregistered : s.notify.readers[((1 : Fin notifyMaxReaders) : ℕ)]? = some (ovmsv2 1) := by
    rw [hreaders]
    exact TreeMap.getElem?_insert_self
  have honly : ∀ (r : ℕ) mc, s.notify.readers[r]? = some mc → r = 1 ∧ mc = ovmsv2 1 := by
    intro r mc hmc
    rw [hreaders, TreeMap.getElem?_insert] at hmc
    split at hmc
    · next heq => exact ⟨(Nat.compare_eq_eq.mp heq).symm, (Option.some.inj hmc).symm⟩
    · simp at hmc
  have hnumbered : Notify.Numbered s.notify.readers := by
    intro r mc hmc
    obtain ⟨rfl, rfl⟩ := honly r mc hmc
    decide
  have hlets : (ovmsv2 1).accepts ((Outbox.notice ok).raisedEnv 1) [] 0 = true := by
    cases ok <;> decide +kernel
  have hacc : s.accepts 1 (Outbox.notice ok) = true := by
    have hget : s.notify.getType (Outbox.notice ok).type = some t := ht
    rw [accepts, hregistered, hget]
    exact hlets
  have hin : (s.incomingNotification Kind.info.name s.notify.posted.length ok).2 = ok ∧
      (s.incomingNotification Kind.info.name s.notify.posted.length ok).1.v2Connected = true := by
    rw [incomingNotification, kindOf_name]
    cases ok <;> simp [hconnected, setPending]
  have hbits : Notify.acceptingReaders s.notify.readers ((Outbox.notice ok).raisedEnv 1) [] 0 ≠
      0#_ := by
    rw [hreaders]
    cases ok <;> decide +kernel
  obtain ⟨e, -, hid, hwait, hspec⟩ := Notify.queueEntry_spec hnumbered
    ((Outbox.notice ok).raisedEnv 1) ((Outbox.notice ok).dispatchedEnv 1 ok) t
    s.notify.posted.length [] []
  obtain ⟨-, hqueue⟩ := hspec _ rfl
  have hone := mem_accepting_sdiff_iff (Outbox.notice ok) ok 0 hregistered
  have hall : e.isAllRead = true ↔ ok = true := by
    rw [Notify.isAllRead_iff_empty hwait, Set.eq_empty_iff_forall_notMem]
    constructor
    · intro hnone
      by_contra hok
      exact hnone 1 (hone.mpr ⟨hlets, Bool.not_eq_true _ ▸ hok⟩)
    · rintro rfl r hr
      obtain ⟨⟨mc, hmc, -⟩, -⟩ := id hr
      obtain ⟨rfl, -⟩ := honly r mc hmc
      cases (hone.mp hr).2
  have hnotify : (s.notifyString 1 (Outbox.notice ok)).notify =
      { s.notify.settle Kind.info.name (t.queueEntry s.notify.readers
          ((Outbox.notice ok).dispatchedEnv 1 ok) ⟨s.notify.posted.length, 0,
            Notify.acceptingReaders s.notify.readers ((Outbox.notice ok).raisedEnv 1) [] 0, [], []⟩)
        with posted := s.notify.posted ++ [(Kind.info.name, t.nextid)] } := by
    rw [Outbox.notifyString]
    simp only [hacc, if_true]
    change s.notify.notifyString Kind.info.name [] [] _ (Notification.dispatchedEnv 1 _
      (s.incomingNotification Kind.info.name s.notify.posted.length ok).2) = _
    rw [hin.1, OvmsNotify.notifyString, ht]
    exact if_neg hbits
  refine ⟨by rw [hnotify]; exact hclearing, by rw [hnotify]; rfl, ?_, _,
    by rw [hnotify]; exact TreeMap.getElem?_insert_self, ?_, e, hid.trans hnextid, ?_, fun id => ?_⟩
  · rw [Outbox.notifyString]
    simp only [hacc, if_true]
    exact hin.2
  · rw [Notify.nextid_queueEntry, hnextid]
    omega
  · rw [e.isRead_eq (by decide), Bool.not_eq_false', hwait]
    exact hone.trans (and_iff_right hlets)
  · refine (hqueue id).trans ?_
    rw [hentries, hnextid]
    by_cases hlast : (1 + n) % 2 ^ 32 = id
    · cases ok with
      | true => rw [if_pos hlast, if_pos (hall.mpr rfl), if_neg (by simp)]
      | false => rw [if_pos hlast, if_neg (mt hall.mp (by simp)), if_pos ⟨hlast, rfl⟩]
    · rw [if_neg hlast, if_neg (mt And.left hlast)]

/-- While they are sent as they come, the queue stays empty. -/
theorem flooded_flood (n : ℕ) : Along (step 1) (Admitted 1) (new 1) (flood n) ∧
    Flooded ((flood n).foldl (step 1) (new 1)) n := by
  induction n with
  | zero =>
    obtain ⟨t, ht⟩ : ∃ t, (new 1).login.notify.getType Kind.info.name = some t :=
      Option.isSome_iff_exists.mp (by decide +kernel)
    have ht' : (OvmsNotify.new notifyTypes).types[Kind.info.name]? = some t := ht
    refine ⟨⟨trivial, trivial⟩, rfl, rfl, rfl, t, ht, ?_, fun id => ?_⟩
    · rw [Notify.getElem?_types_new ht']
      rfl
    · rw [Notify.getElem?_types_new ht']
      exact TreeMap.getElem?_emptyc
  | succ n ih =>
    obtain ⟨halong, hflooded⟩ := ih
    obtain ⟨hclearing, hreaders, hconnected, t, ht, hnextid, e, -, -, hentries⟩ :=
      hflooded.notice true
    rw [flood_succ]
    refine ⟨along_append.mpr ⟨halong, hflooded.clearing, trivial⟩, ?_⟩
    rw [List.foldl_append]
    refine ⟨hclearing, hreaders.trans hflooded.readers, hconnected, t, ht, hnextid, fun id => ?_⟩
    rw [hentries, if_neg (by simp)]

/-- A tick in which `Transmit` fails at once clears a flag if there is nothing to send. -/
theorem tickKind_nil (reader : Fin notifyMaxReaders) (s : Outbox) (kind : Kind) :
    ∃ pending, tickKind reader kind s [] = { s with pending := pending } ∧
      (s.firstUnread reader kind.name 0 = none → pending kind = false) := by
  rw [tickKind, transmitNotify, sendLoop]
  split
  · have hfirst : (s.setPending kind false).firstUnread reader kind.name 0 =
        s.firstUnread reader kind.name 0 := rfl
    rw [hfirst]
    split
    · exact ⟨_, rfl, fun _ => pending_setPending_self s kind false⟩
    · next e he =>
      refine ⟨_, rfl, fun hnone => ?_⟩
      rw [he] at hnone
      cases hnone
  · next hclear => exact ⟨s.pending, rfl, fun _ => Bool.not_eq_true _ ▸ hclear⟩

/-- An info that gets the number 0 is not found. -/
theorem Flooded.lost {n : ℕ} (h : Flooded s n) (hn : (1 + n) % 2 ^ 32 = 0) :
    ¬ Delivered 1 ((s.notifyString 1 (Outbox.notice false)).ticker1 1 ⟨[], [], [], []⟩) := by
  obtain ⟨-, -, hconnected, t, ht, -, e, hid, hread, hentries⟩ := h.notice false
  generalize s.notifyString 1 (Outbox.notice false) = s at hconnected ht
  rw [hn] at hid hentries
  have hzero : t.entries[0]? = some e := (hentries 0).trans (if_pos ⟨rfl, rfl⟩)
  have hnone : s.firstUnread 1 Kind.info.name 0 = none := by
    rw [firstUnread, ht, Option.bind_some, Notify.OvmsNotifyType.firstUnreadEntry,
      Option.map_eq_none_iff, List.find?_eq_none]
    rintro ⟨id, e'⟩ hmem
    have he' := TreeMap.mem_toList_iff_getElem?_eq_some.mp hmem
    rw [hentries] at he'
    split at he'
    · rw [← Option.some.inj he', hid]
      simp
    · cases he'
  have hkinds : ∃ pending, s.tickKinds 1 ⟨[], [], [], []⟩ = { s with pending := pending } ∧
      pending .info = false := by
    obtain ⟨p, halert, -⟩ := tickKind_nil 1 s .alert
    obtain ⟨q, herror, -⟩ := tickKind_nil 1 { s with pending := p } .error
    obtain ⟨r, hinfo, hclear⟩ := tickKind_nil 1 { s with pending := q } .info
    refine ⟨r, ?_, hclear hnone⟩
    rw [tickKinds_eq, halert, herror, hinfo]
  obtain ⟨pending, hkinds, hclear⟩ := hkinds
  obtain ⟨_, _, _, hdata⟩ := tickData_eq 1 { s with pending := pending } []
  rw [ticker1, if_pos hconnected, hkinds, hdata]
  intro hdelivered
  rcases hdelivered.flagged .info e.object ⟨0, e, ⟨t, ht, hzero⟩, rfl, hread.mpr rfl⟩ with h | h
  · exact Bool.false_ne_true (hclear.symm.trans h)
  · exact Bool.false_ne_true (h.symm.trans hconnected)

/-- An info that gets the number 0 from a counter that has wrapped is never sent: `Transmit` fails
for it, and then it is not found. -/
theorem info_number_zero :
    ¬ ∀ (reader : Fin notifyMaxReaders) (es : List Event),
      Along (step reader) (Admitted reader) (new reader) es →
        ∀ pre, pre <+: es → Delivered reader (pre.foldl (step reader) (new reader)) := by
  intro hall
  obtain ⟨n, hn⟩ : ∃ n, (1 + n) % 2 ^ 32 = 0 := ⟨2 ^ 32 - 1, rfl⟩
  obtain ⟨halong, hflooded⟩ := flooded_flood n
  have hadmitted : Along (step 1) (Admitted 1) (new 1)
      (flood n ++ [.notifyString (notice false), .ticker1 ⟨[], [], [], []⟩]) :=
    along_append.mpr ⟨halong, hflooded.clearing, trivial, trivial⟩
  have hlast := hall 1 _ hadmitted _ List.prefix_rfl
  rw [List.foldl_append] at hlast
  exact hflooded.lost hn hlast

end Outbox

end Ovms.ServerV2
