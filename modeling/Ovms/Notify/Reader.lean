import Ovms.Notify.Kept

/-!
# One Reader of the Notifications

What the calls of `OvmsNotify` do to the entries that wait for one reader, while the others do what
they will. The reader is registered all the time; it accepts an entry alike when the readers of the
entry are determined and when it is dispatched.
-/

open Lib Std

namespace Ovms.Notify

/-! ### Entries that wait -/

/-- An entry of a type waits for a reader. -/
def Waits (reader : ℕ) (L : List Posted) (type : Text) (o : ℕ) : Prop :=
  ∃ p, L[o]? = some p ∧ p.type = type ∧ reader ∈ p.waiting

/-- An entry of a type is in its queue, and a reader has not read it. -/
def UnreadBy (reader : ℕ) (s : OvmsNotify) (type : Text) (o : ℕ) : Prop :=
  ∃ id e, Queued s type id e ∧ e.object = o ∧ e.isRead reader = false

/-- `GetType` and `FirstUnreadEntry`. -/
def OvmsNotify.firstUnread (s : OvmsNotify) (reader : ℕ) (type : Text) (floor : ℕ) :
    Option OvmsNotifyEntry :=
  (s.getType type).bind fun t => t.firstUnreadEntry reader floor

/-- The queues agree with a ledger, numbers are above the cursor of a reader that has read
nothing, and the reader is registered and stays so. -/
structure Follows (mc : OvmsNotifyCallbackEntry) (s : OvmsNotify) (L : List Posted) : Prop where
  inv : Inv s L
  positive : ∀ (o : ℕ) (type : Text) (id : ℕ), s.posted[o]? = some (type, id) → 0 < id
  registered : s.readers[mc.reader]? = some mc
  nextreader : mc.reader < s.nextreader
  clearing : ∀ k types, s.clearing = some (k, types) → k ≠ mc.reader

/-- What other readers do: they do not use the number of the reader. -/
def OtherReader (reader : ℕ) : Event → Prop
  | .registerReader _ | .clearNext => True
  | .registerReaderAs mc => mc.reader ≠ reader
  | .clearReader k => k ≠ reader
  | .markRead _ _ k => k ≠ reader
  | .notifyString .. => False

instance (reader : ℕ) : (e : Event) → Decidable (OtherReader reader e)
  | .registerReader _ | .clearNext => isTrue trivial
  | .registerReaderAs _ | .clearReader _ | .markRead _ _ _ => inferInstanceAs (Decidable (_ ≠ _))
  | .notifyString .. => isFalse id

/-- An entry was queued, if the reader has accepted it; then it waits, unless it was processed. -/
structure Enqueued (mc : OvmsNotifyCallbackEntry) (s : OvmsNotify) (type : Text)
    (accepted processed : Bool) (L : List Posted) (s' : OvmsNotify) (L' : List Posted) : Prop where
  follows : Follows mc s' L'
  posted : s.posted <+: s'.posted
  made : accepted = true → ∃ id, s'.posted = s.posted ++ [(type, id)]
  waits : ∀ type' o, Waits mc.reader L' type' o ↔ Waits mc.reader L type' o ∨
    accepted = true ∧ processed = false ∧ type' = type ∧ o = s.posted.length

variable {mc : OvmsNotifyCallbackEntry} {s : OvmsNotify} {L : List Posted} {type : Text}

theorem Follows.reader_lt (h : Follows mc s L) : mc.reader < notifyMaxReaders :=
  (h.inv.readers _ _ h.registered).2

/-- An entry that is unread is one that waits. -/
theorem Follows.unreadBy_iff (h : Follows mc s L) {o : ℕ} :
    UnreadBy mc.reader s type o ↔ Waits mc.reader L type o := by
  constructor
  · rintro ⟨id, e, hq, rfl, hread⟩
    obtain ⟨-, hpost, p, hp, -, hbits⟩ := h.inv.queued _ _ _ hq
    rw [e.isRead_eq h.reader_lt, Bool.not_eq_false', hbits] at hread
    exact ⟨p, hp, h.inv.type_eq hp hpost, hread⟩
  · rintro ⟨p, hp, rfl, hwait⟩
    obtain ⟨id, e, hq, rfl⟩ := h.inv.kept o p hp ⟨_, hwait⟩
    obtain ⟨-, -, q, hq', -, hbits⟩ := h.inv.queued _ _ _ hq
    obtain rfl := Option.some.inj (hp.symm.trans hq')
    refine ⟨id, e, hq, rfl, ?_⟩
    rw [e.isRead_eq h.reader_lt, Bool.not_eq_false', hbits]
    exact hwait

theorem Follows.queued (h : Follows mc s L) {o : ℕ} (hw : Waits mc.reader L type o) :
    ∃ id e, Queued s type id e ∧ e.object = o ∧ s.posted[o]? = some (type, id) := by
  obtain ⟨p, hp, rfl, hwait⟩ := hw
  obtain ⟨id, e, hq, rfl⟩ := h.inv.kept o p hp ⟨_, hwait⟩
  exact ⟨id, e, hq, rfl, (h.inv.queued _ _ _ hq).2.1⟩

theorem Follows.lt_length (h : Follows mc s L) {o : ℕ} (hw : Waits mc.reader L type o) :
    o < s.posted.length := by
  obtain ⟨id, e, -, -, hpost⟩ := h.queued hw
  exact (List.getElem?_eq_some_iff.mp hpost).1

theorem Waits.type_unique {reader o : ℕ} {type' : Text} (h : Waits reader L type o)
    (h' : Waits reader L type' o) : type = type' := by
  obtain ⟨p, hp, rfl, -⟩ := h
  obtain ⟨p', hp', rfl, -⟩ := h'
  rw [Option.some.inj (hp.symm.trans hp')]

theorem Follows.object_eq (h : Follows mc s L) {o o' id : ℕ}
    (ho : s.posted[o]? = some (type, id)) (ho' : s.posted[o']? = some (type, id)) : o = o' := by
  rcases Nat.lt_trichotomy o o' with hlt | heq | hlt
  · exact absurd (h.inv.increasing _ _ _ _ _ hlt ho ho') (Nat.lt_irrefl _)
  · exact heq
  · exact absurd (h.inv.increasing _ _ _ _ _ hlt ho' ho) (Nat.lt_irrefl _)

/-! ### The first unread entry -/

/-- The first unread entry waits, and is the one with its number. -/
theorem Follows.firstUnread_some (h : Follows mc s L) {floor : ℕ} {e : OvmsNotifyEntry}
    (hfirst : s.firstUnread mc.reader type floor = some e) :
    Waits mc.reader L type e.object ∧ s.posted[e.object]? = some (type, e.id) := by
  obtain ⟨t, ht, hfirst⟩ := Option.bind_eq_some_iff.mp hfirst
  obtain ⟨⟨id, e⟩, hfind, rfl⟩ := Option.map_eq_some_iff.mp hfirst
  have he : t.entries[id]? = some e :=
    TreeMap.mem_toList_iff_getElem?_eq_some.mp (List.mem_of_find?_eq_some hfind)
  obtain ⟨hid, hpost, -⟩ := h.inv.queued type id e ⟨t, ht, he⟩
  have hread := List.find?_some hfind
  rw [Bool.and_eq_true, Bool.not_eq_true'] at hread
  subst hid
  exact ⟨h.unreadBy_iff.mp ⟨e.id, e, ⟨t, ht, he⟩, rfl, hread.1⟩, hpost⟩

/-- When there is none, no entry above the cursor waits. -/
theorem Follows.firstUnread_none (h : Follows mc s L) {floor : ℕ}
    (hnone : s.firstUnread mc.reader type floor = none) {o : ℕ} (hw : Waits mc.reader L type o) :
    ∃ id, s.posted[o]? = some (type, id) ∧ id ≤ floor := by
  obtain ⟨id, e, ⟨t, ht, he⟩, -, hpost⟩ := h.queued hw
  refine ⟨id, hpost, Nat.le_of_not_lt fun hlt => ?_⟩
  have hbind : t.firstUnreadEntry mc.reader floor = none := by
    have hget : s.getType type = some t := ht
    rwa [OvmsNotify.firstUnread, hget] at hnone
  obtain ⟨p, hp, -, hwait⟩ := hw
  exact (h.inv.firstUnreadEntry ht h.reader_lt floor).2 hbind o ⟨p, id, hp, hpost, hwait, hlt⟩

theorem Follows.not_waits (h : Follows mc s L)
    (hnone : s.firstUnread mc.reader type 0 = none) (o : ℕ) : ¬ Waits mc.reader L type o := by
  intro hw
  obtain ⟨id, hpost, hle⟩ := h.firstUnread_none hnone hw
  exact absurd (h.positive _ _ _ hpost) (Nat.not_lt_of_le hle)

/-! ### Calls -/

/-- What `MarkRead` leaves alone. -/
theorem markRead_keeps (s : OvmsNotify) (type : Text) (id k : ℕ) :
    (s.markRead type id k).posted = s.posted ∧ (s.markRead type id k).readers = s.readers ∧
      (s.markRead type id k).nextreader = s.nextreader ∧
      (s.markRead type id k).clearing = s.clearing := by
  rw [OvmsNotify.markRead]
  split
  · exact ⟨rfl, rfl, rfl, rfl⟩
  · split <;> exact ⟨rfl, rfl, rfl, rfl⟩

/-- Entries that are struck for a reader. -/
theorem waits_strike {reader k : ℕ} {S : ℕ → Posted → Prop} {o : ℕ} :
    Waits reader (strike k S L) type o ↔
      ∃ p, L[o]? = some p ∧ p.type = type ∧ reader ∈ p.waiting ∧ ¬ (reader = k ∧ S o p) := by
  constructor
  · rintro ⟨p', hp', rfl, hwait⟩
    obtain ⟨p, hp, htype, hwaiting⟩ := exists_of_strike hp'
    exact ⟨p, hp, htype.symm, (hwaiting _).mp hwait⟩
  · rintro ⟨p, hp, rfl, hwait, hnot⟩
    refine ⟨{ p with waiting := {r | r ∈ p.waiting ∧ ¬ (r = k ∧ S o p)} }, ?_, rfl, hwait, hnot⟩
    rw [getElem?_strike, hp]
    rfl

/-- **`MarkRead`**: the entry with the number does not wait any more. -/
theorem Follows.markRead (h : Follows mc s L) (type : Text) (id : ℕ) :
    ∃ L', Follows mc (s.markRead type id mc.reader) L' ∧ ∀ type' o,
      Waits mc.reader L' type' o ↔
        Waits mc.reader L type' o ∧ s.posted[o]? ≠ some (type, id) := by
  obtain ⟨hposted, hreaders, hnextreader, hclearing⟩ := markRead_keeps s type id mc.reader
  refine ⟨record s L (.markRead type id mc.reader),
    ⟨h.inv.markRead h.reader_lt, ?_, ?_, ?_, ?_⟩, fun type' o => ?_⟩
  · rw [hposted]
    exact h.positive
  · rw [hreaders]
    exact h.registered
  · rw [hnextreader]
    exact h.nextreader
  · rw [hclearing]
    exact h.clearing
  -- an entry that waits under the number is the one that is found
  have hfound : ∀ type' o, Waits mc.reader L type' o → s.posted[o]? = some (type, id) →
      ∃ e, ((s.getType type).bind fun t => t.findEntry id) = some e ∧ e.object = o := by
    intro type' o hw hpost
    obtain ⟨id', e, ⟨t, ht, he⟩, hobject, hpost'⟩ := h.queued hw
    obtain ⟨rfl, rfl⟩ := Prod.mk.inj (Option.some.inj (hpost.symm.trans hpost'))
    have hget : s.getType type = some t := ht
    exact ⟨e, by rw [hget]; exact he, hobject⟩
  rw [record]
  rcases hfind : (s.getType type).bind fun t => t.findEntry id with _ | e
  · refine (and_iff_left_of_imp fun hw hpost => ?_).symm
    obtain ⟨e, he, -⟩ := hfound type' o hw hpost
    rw [hfind] at he
    cases he
  · have hpost : s.posted[e.object]? = some (type, id) := by
      obtain ⟨t, ht, he⟩ := Option.bind_eq_some_iff.mp hfind
      exact (h.inv.queued type id e ⟨t, ht, he⟩).2.1
    rw [waits_strike]
    constructor
    · rintro ⟨p, hp, htype, hwait, hnot⟩
      have hw : Waits mc.reader L type' o := ⟨p, hp, htype, hwait⟩
      refine ⟨hw, fun hpost' => hnot ⟨rfl, ?_⟩⟩
      obtain ⟨e', he', rfl⟩ := hfound type' o hw hpost'
      rw [Option.some.inj (hfind.symm.trans he')]
    · rintro ⟨⟨p, hp, htype, hwait⟩, hne⟩
      exact ⟨p, hp, htype, hwait, fun heq => hne (heq.2 ▸ hpost)⟩

/-- **The first unread entry, marked as read**, does not wait any more. -/
theorem Follows.deliver (h : Follows mc s L) {floor : ℕ} {e : OvmsNotifyEntry}
    (hfirst : s.firstUnread mc.reader type floor = some e) :
    ∃ L', Follows mc (s.markRead type e.id mc.reader) L' ∧ ∀ type' o,
      Waits mc.reader L' type' o ↔ Waits mc.reader L type' o ∧ o ≠ e.object := by
  obtain ⟨-, hpost⟩ := h.firstUnread_some hfirst
  obtain ⟨L', hfollows, hwaits⟩ := h.markRead type e.id
  refine ⟨L', hfollows, fun type' o => (hwaits type' o).trans (and_congr_right fun _ => ?_)⟩
  exact not_congr ⟨fun ho => h.object_eq ho hpost, fun heq => heq ▸ hpost⟩

/-- **Other readers** leave the entries that wait for the reader alone. -/
theorem Follows.other (h : Follows mc s L) {e : Event} (he : Admitted s e)
    (hother : OtherReader mc.reader e) :
    ∃ L', Follows mc (step s e) L' ∧ (step s e).posted = s.posted ∧
      ∀ type o, Waits mc.reader L' type o ↔ Waits mc.reader L type o := by
  have hinv : Inv (step s e) (record s L e) := by
    refine h.inv.step he ?_
    cases e <;> first | exact id | exact hother.elim
  have hstrike : ∀ (k : ℕ) (S : ℕ → Posted → Prop), k ≠ mc.reader → ∀ type o,
      Waits mc.reader (strike k S L) type o ↔ Waits mc.reader L type o := by
    intro k S hk type o
    rw [waits_strike]
    simp only [Ne.symm hk, false_and, not_false_eq_true, and_true, Waits]
  have hinsert : ∀ (k : ℕ) (mc' : OvmsNotifyCallbackEntry), k ≠ mc.reader →
      (s.readers.insert k mc')[mc.reader]? = some mc := by
    intro k mc' hk
    rw [TreeMap.getElem?_insert, if_neg (mt Nat.compare_eq_eq.mp hk)]
    exact h.registered
  cases e with
  | registerReader mc' =>
    have hne : s.nextreader ≠ mc.reader := Nat.ne_of_gt h.nextreader
    exact ⟨L, ⟨hinv, h.positive, hinsert _ _ hne, Nat.lt_succ_of_lt h.nextreader, h.clearing⟩,
      rfl, fun _ _ => Iff.rfl⟩
  | registerReaderAs mc' =>
    exact ⟨L, ⟨hinv, h.positive, hinsert _ _ hother, h.nextreader, h.clearing⟩, rfl,
      fun _ _ => Iff.rfl⟩
  | clearReader k =>
    refine ⟨L, ?_, ?_, fun _ _ => Iff.rfl⟩
    · change Inv (s.clearReader k) L at hinv
      rw [OvmsNotify.clearReader] at hinv
      rw [step, OvmsNotify.clearReader]
      rcases hmc : s.readers[k]? with _ | mc'
      · exact h
      · rw [hmc] at hinv
        refine ⟨hinv, h.positive, h.registered, h.nextreader, fun k' types heq => ?_⟩
        obtain ⟨rfl, -⟩ := Prod.mk.inj (Option.some.inj heq)
        rw [(h.inv.readers k mc' hmc).1]
        exact hother
    · rw [step, OvmsNotify.clearReader]
      split <;> rfl
  | clearNext =>
    rw [record] at hinv
    rw [step] at hinv ⊢
    unfold OvmsNotify.clearNext at hinv ⊢
    rcases hclearing : s.clearing with _ | ⟨k, _ | ⟨type, types⟩⟩
    · exact ⟨L, h, rfl, fun _ _ => Iff.rfl⟩
    · rw [hclearing] at hinv
      have hk := h.clearing k [] hclearing
      refine ⟨L, ⟨hinv, h.positive, ?_, h.nextreader, fun _ _ heq => by cases heq⟩, rfl,
        fun _ _ => Iff.rfl⟩
      change (s.readers.erase k)[mc.reader]? = _
      rw [TreeMap.getElem?_erase, if_neg (mt Nat.compare_eq_eq.mp hk)]
      exact h.registered
    · rw [hclearing] at hinv
      have hk := h.clearing k _ hclearing
      have hnext : ∀ k' types', some (k, types) = some (k', types') → k' ≠ mc.reader := by
        intro k' types' heq
        obtain ⟨rfl, -⟩ := Prod.mk.inj (Option.some.inj heq)
        exact hk
      rcases ht : s.getType type with _ | t
      · simp only [ht] at hinv ⊢
        exact ⟨_, ⟨hinv, h.positive, h.registered, h.nextreader, hnext⟩, trivial, hstrike k _ hk⟩
      · simp only [ht] at hinv ⊢
        exact ⟨_, ⟨hinv, h.positive, h.registered, h.nextreader, hnext⟩, rfl, hstrike k _ hk⟩
  | markRead type id k =>
    obtain ⟨hposted, hreaders, hnextreader, hclearing⟩ := markRead_keeps s type id k
    rw [step] at hinv ⊢
    refine ⟨_, ⟨hinv, ?_, ?_, ?_, ?_⟩, hposted, fun type' o => ?_⟩
    · rw [hposted]
      exact h.positive
    · rw [hreaders]
      exact h.registered
    · rw [hnextreader]
      exact h.nextreader
    · rw [hclearing]
      exact h.clearing
    · rw [record]
      split
      · exact Iff.rfl
      · exact hstrike k _ hother type' o
  | notifyString => exact hother.elim

theorem mem_accepting_iff {readers : CallbackMap} (env : Environment) (subtype : Text) (size : ℕ)
    (h : readers[mc.reader]? = some mc) :
    mc.reader ∈ Accepting readers env subtype size ↔ mc.accepts env subtype size = true := by
  refine ⟨fun ⟨mc', hmc, hacc⟩ => ?_, fun hacc => ⟨_, h, hacc⟩⟩
  rwa [Option.some.inj (h.symm.trans hmc)]

/-- An entry waits for the reader that accepts it and has not processed it. -/
theorem mem_accepting_sdiff_iff {readers : CallbackMap} {raised dispatched : Environment}
    {subtype : Text} {size : ℕ} (h : readers[mc.reader]? = some mc)
    (halike : mc.accepts dispatched subtype size = mc.accepts raised subtype size) :
    mc.reader ∈ Accepting readers raised subtype size \ Done readers dispatched subtype size ↔
      mc.accepts raised subtype size = true ∧ dispatched.processed mc.reader = false := by
  have hdone : mc.reader ∈ Done readers dispatched subtype size ↔
      (mc.accepts raised subtype size = true → dispatched.processed mc.reader = true) := by
    rw [← halike]
    refine ⟨fun ⟨mc', hmc, hacc⟩ => ?_, fun hacc => ⟨_, h, hacc⟩⟩
    rwa [← Option.some.inj (h.symm.trans hmc)] at hacc
  rw [Set.mem_sdiff, mem_accepting_iff _ _ _ h, hdone]
  refine and_congr_right fun hacc => ?_
  rw [forall_prop_of_true hacc, Bool.not_eq_true]

/-- **`NotifyString`** queues an entry. -/
theorem Follows.notifyString (h : Follows mc s L) (hlock : s.clearing = none)
    {subtype value : Text} (raised dispatched : Environment)
    (hwrap : ¬ Wraps s (.notifyString type subtype value raised dispatched))
    (halike : mc.accepts dispatched subtype value.length = mc.accepts raised subtype value.length) :
    ∃ L', Enqueued mc s type
      ((s.getType type).isSome && mc.accepts raised subtype value.length)
      (dispatched.processed mc.reader) L (s.notifyString type subtype value raised dispatched)
      L' := by
  generalize hs' : s.notifyString type subtype value raised dispatched = s'
  have hinv := h.inv.step (e := .notifyString type subtype value raised dispatched) hlock hwrap
  rw [step, hs', record] at hinv
  rw [OvmsNotify.notifyString] at hs'
  have hrefused : ∀ accepted, accepted = false → s' = s →
      Enqueued mc s type accepted (dispatched.processed mc.reader) L s' L := by
    rintro accepted rfl rfl
    exact ⟨h, List.prefix_rfl, fun hacc => absurd hacc Bool.false_ne_true, fun type o => by simp⟩
  rcases ht : s.getType type with _ | t
  · rw [ht] at hs'
    exact ⟨L, hrefused _ rfl hs'.symm⟩
  rw [ht] at hs' hinv
  have hbit := getLsbD_acceptingReaders h.inv.readers raised subtype value.length mc.reader
  by_cases hbits : acceptingReaders s.readers raised subtype value.length = 0#_
  · simp only [if_pos hbits] at hs' hinv
    refine ⟨L, hrefused _ ?_ hs'.symm⟩
    rw [hbits, BitVec.getLsbD_zero, mem_accepting_iff _ _ _ h.registered] at hbit
    rw [Option.isSome_some, Bool.true_and]
    exact Bool.eq_false_iff.mpr fun hacc => Bool.false_ne_true (hbit.mpr hacc)
  · simp only [if_neg hbits] at hs' hinv
    have hnextid : t.nextid ≠ 0 := fun hzero =>
      hwrap ⟨by rw [ht, Option.any_some, beq_iff_eq, hzero], hbits⟩
    have hposted : s'.posted = s.posted ++ [(type, t.nextid)] := by
      rw [← hs']
    have hrest : s'.readers = s.readers ∧ s'.nextreader = s.nextreader ∧
        s'.clearing = s.clearing := by
      rw [← hs']
      exact ⟨rfl, rfl, rfl⟩
    obtain ⟨hreaders, hnextreader, hclearing⟩ := hrest
    refine ⟨_, ⟨hinv, fun o type id ho => ?_, ?_, ?_, ?_⟩, ?_, fun _ => ⟨_, hposted⟩, ?_⟩
    · rw [hposted] at ho
      obtain ho | ⟨-, ho⟩ := getElem?_concat_eq_some.mp ho
      · exact h.positive o type id ho
      · obtain ⟨-, rfl⟩ := Prod.mk.inj ho
        exact Nat.pos_of_ne_zero hnextid
    · rw [hreaders]
      exact h.registered
    · rw [hnextreader]
      exact h.nextreader
    · rw [hclearing]
      exact h.clearing
    · rw [hposted]
      exact List.prefix_append _ _
    · intro type' o
      rw [Waits, ← and_assoc, Option.isSome_some, Bool.true_and,
        ← mem_accepting_sdiff_iff h.registered halike]
      constructor
      · rintro ⟨p, hp, htype, hwait⟩
        obtain hp | ⟨rfl, rfl⟩ := getElem?_concat_eq_some.mp hp
        · exact .inl ⟨p, hp, htype, hwait⟩
        · exact .inr ⟨hwait, htype.symm, h.inv.length_eq⟩
      · rintro (⟨p, hp, htype, hwait⟩ | ⟨hwait, rfl, rfl⟩)
        · exact ⟨p, getElem?_concat_eq_some.mpr (.inl hp), htype, hwait⟩
        · refine ⟨_, getElem?_concat_eq_some.mpr (.inr ⟨?_, rfl⟩), rfl, hwait⟩
          exact h.inv.length_eq.symm

theorem Enqueued.waits_old {accepted processed : Bool} {s' : OvmsNotify} {L' : List Posted}
    (h : Enqueued mc s type accepted processed L s' L') {type' : Text} {o : ℕ}
    (ho : o < s.posted.length) : Waits mc.reader L' type' o ↔ Waits mc.reader L type' o :=
  (h.waits type' o).trans (or_iff_left fun hnew => Nat.ne_of_lt ho hnew.2.2.2)

/-- Only an entry of its type is new. -/
theorem Enqueued.waits_other {accepted processed : Bool} {s' : OvmsNotify} {L' : List Posted}
    (h : Enqueued mc s type accepted processed L s' L') {type' : Text}
    (hnone : accepted = false ∨ processed = true ∨ type' ≠ type) {o : ℕ} :
    Waits mc.reader L' type' o ↔ Waits mc.reader L type' o := by
  refine (h.waits type' o).trans (or_iff_left fun ⟨hacc, hprocessed, htype, _⟩ => ?_)
  rcases hnone with hrefused | hdone | hne
  · exact Bool.false_ne_true (hrefused.symm.trans hacc)
  · exact Bool.false_ne_true (hprocessed.symm.trans hdone)
  · exact hne htype

/-- A reader that registers before anything is posted is followed. -/
theorem follows_registerReaderAs (hinv : Inv s []) (hlock : s.clearing = none)
    (hempty : s.posted = []) (hreader : mc.reader < notifyMaxReaders) (nextreader : ℕ)
    (hnext : mc.reader < nextreader) :
    Follows mc { s.registerReaderAs mc with nextreader := nextreader } [] := by
  refine ⟨hinv.register hlock mc hreader nextreader, fun o type id ho => ?_,
    TreeMap.getElem?_insert_self, hnext, fun k types hclearing => ?_⟩
  · have ho' : s.posted[o]? = some (type, id) := ho
    rw [hempty] at ho'
    simp at ho'
  · have hclearing' : s.clearing = some (k, types) := hclearing
    rw [hlock] at hclearing'
    cases hclearing'

/-! ### What was sent -/

/-- Of the entries of some types, those that were accepted have been sent, once, unless they
wait. -/
structure Counted (mc : OvmsNotifyCallbackEntry) (T : Text → Prop) (accepted sent : List ℕ)
    (s : OvmsNotify) (L : List Posted) : Prop where
  follows : Follows mc s L
  made : ∀ o ∈ accepted, o < s.posted.length
  once : sent.Nodup
  only : ∀ o ∈ sent, o ∈ accepted
  sent_iff : ∀ o ∈ accepted, o ∈ sent ↔ ∀ type, T type → ¬ Waits mc.reader L type o
  waits : ∀ type o, T type → Waits mc.reader L type o → o ∈ accepted

variable {T : Text → Prop} {accepted sent : List ℕ}

/-- What leaves the entries of these types alone. -/
theorem Counted.of_waits (h : Counted mc T accepted sent s L) {s' : OvmsNotify} {L' : List Posted}
    (hfollows : Follows mc s' L') (hposted : s.posted.length ≤ s'.posted.length)
    (hwaits : ∀ type o, T type → (Waits mc.reader L' type o ↔ Waits mc.reader L type o)) :
    Counted mc T accepted sent s' L' where
  follows := hfollows
  made o ho := Nat.lt_of_lt_of_le (h.made o ho) hposted
  once := h.once
  only := h.only
  sent_iff o ho := (h.sent_iff o ho).trans
    (forall₂_congr fun type htype => not_congr (hwaits type o htype).symm)
  waits type o htype hw := h.waits type o htype ((hwaits type o htype).mp hw)

/-- **An entry that is sent and marked as read** is sent once. -/
theorem Counted.send (h : Counted mc T accepted sent s L) (htype : T type) {floor : ℕ}
    {e : OvmsNotifyEntry} (hfirst : s.firstUnread mc.reader type floor = some e) :
    ∃ L', Counted mc T accepted (sent ++ [e.object]) (s.markRead type e.id mc.reader) L' ∧
      ∀ type' o, Waits mc.reader L' type' o ↔ Waits mc.reader L type' o ∧ o ≠ e.object := by
  obtain ⟨L', hfollows, hwaits⟩ := h.follows.deliver hfirst
  obtain ⟨hposted, -⟩ := markRead_keeps s type e.id mc.reader
  have hw : Waits mc.reader L type e.object := (h.follows.firstUnread_some hfirst).1
  have haccepted : e.object ∈ accepted := h.waits type _ htype hw
  have hnew : e.object ∉ sent := fun hmem => (h.sent_iff _ haccepted).mp hmem type htype hw
  refine ⟨L', ⟨hfollows, fun o ho => ?_, ?_, fun o ho => ?_, fun o ho => ?_, fun k o hk ho => ?_⟩,
    hwaits⟩
  · exact hposted.symm ▸ h.made o ho
  · refine List.nodup_append.mpr ⟨h.once, List.nodup_singleton _, fun o ho o' ho' heq => ?_⟩
    rw [List.mem_singleton] at ho'
    exact hnew (ho' ▸ heq ▸ ho)
  · rcases List.mem_append.mp ho with ho | ho
    · exact h.only o ho
    · exact List.mem_singleton.mp ho ▸ haccepted
  · rw [List.mem_append, List.mem_singleton, h.sent_iff o ho]
    by_cases heq : o = e.object
    · refine iff_of_true (.inr heq) fun k _ hk => ((hwaits _ _).mp hk).2 heq
    · rw [or_iff_left heq]
      exact forall₂_congr fun k _ => not_congr ((hwaits k o).trans (and_iff_left heq)).symm
  · exact h.waits k o hk ((hwaits _ _).mp ho).1

/-- **An entry of these types is queued**: it is sent, or waits. -/
theorem Counted.takes (h : Counted mc T accepted sent s L) (htype : T type) {processed : Bool}
    {s' : OvmsNotify} {L' : List Posted} (he : Enqueued mc s type true processed L s' L') :
    Counted mc T (accepted ++ [s.posted.length])
      (if processed then sent ++ [s.posted.length] else sent) s' L' := by
  obtain ⟨id, hposted⟩ := he.made rfl
  have hnew : s.posted.length ∉ accepted := fun hmem => Nat.lt_irrefl _ (h.made _ hmem)
  have hunsent : s.posted.length ∉ sent := fun hmem => hnew (h.only _ hmem)
  refine ⟨he.follows, fun o ho => ?_, ?_, fun o ho => ?_, fun o ho => ?_, fun k o hk ho => ?_⟩
  · rw [hposted, List.length_append, List.length_singleton]
    rcases List.mem_append.mp ho with ho | ho
    · exact Nat.lt_succ_of_lt (h.made o ho)
    · rw [List.mem_singleton.mp ho]
      exact Nat.lt_succ_self _
  · split
    · refine List.nodup_append.mpr ⟨h.once, List.nodup_singleton _, fun o ho o' ho' heq => ?_⟩
      rw [List.mem_singleton] at ho'
      exact hunsent (ho' ▸ heq ▸ ho)
    · exact h.once
  · split at ho
    · exact List.mem_append.mpr ((List.mem_append.mp ho).imp_left (h.only o))
    · exact List.mem_append_left _ (h.only o ho)
  · by_cases hlast : o = s.posted.length
    · subst hlast
      have hnot : ∀ type, ¬ Waits mc.reader L type s.posted.length := fun type hw =>
        Nat.lt_irrefl _ (h.follows.lt_length hw)
      cases processed with
      | true =>
        refine iff_of_true (List.mem_append_right _ (List.mem_singleton_self _)) fun k _ hk => ?_
        obtain hw | ⟨-, hfalse, -⟩ := (he.waits _ _).mp hk
        · exact hnot _ hw
        · cases hfalse
      | false =>
        refine iff_of_false hunsent fun hall => hall type htype ?_
        exact (he.waits _ _).mpr (.inr ⟨rfl, rfl, rfl, rfl⟩)
    · have hold : o ∈ accepted := by
        rcases List.mem_append.mp ho with ho | ho
        · exact ho
        · exact absurd (List.mem_singleton.mp ho) hlast
      have hwaits : ∀ k, Waits mc.reader L' k o ↔ Waits mc.reader L k o :=
        fun k => (he.waits _ _).trans (or_iff_left fun hw => hlast hw.2.2.2)
      have hsent : o ∈ (if processed then sent ++ [s.posted.length] else sent) ↔ o ∈ sent := by
        split
        · rw [List.mem_append, List.mem_singleton, or_iff_left hlast]
        · exact Iff.rfl
      rw [hsent, h.sent_iff o hold]
      exact forall₂_congr fun k _ => not_congr (hwaits k).symm
  · obtain hw | ⟨-, -, -, rfl⟩ := (he.waits _ _).mp ho
    · exact List.mem_append_left _ (h.waits k o hk hw)
    · exact List.mem_append_right _ (List.mem_singleton_self _)

theorem Counted.takes_other (h : Counted mc T accepted sent s L) {acc processed : Bool}
    {s' : OvmsNotify} {L' : List Posted} (he : Enqueued mc s type acc processed L s' L')
    (hnone : acc = false ∨ ¬ T type) : Counted mc T accepted sent s' L' := by
  refine h.of_waits he.follows he.posted.length_le fun k o hk => he.waits_other ?_
  exact hnone.imp id fun hnot => .inr fun heq => hnot (heq ▸ hk)

/-- An entry of another type is marked as read. -/
theorem Counted.markRead (h : Counted mc T accepted sent s L) (htype : ¬ T type) (id : ℕ) :
    ∃ L', Counted mc T accepted sent (s.markRead type id mc.reader) L' ∧ ∀ type' o,
      Waits mc.reader L' type' o ↔
        Waits mc.reader L type' o ∧ s.posted[o]? ≠ some (type, id) := by
  obtain ⟨L', hfollows, hwaits⟩ := h.follows.markRead type id
  obtain ⟨hposted, -⟩ := markRead_keeps s type id mc.reader
  refine ⟨L', h.of_waits hfollows (Nat.le_of_eq (by rw [hposted])) fun k o hk => ?_, hwaits⟩
  refine (hwaits k o).trans (and_iff_left_of_imp fun hw hpost => htype ?_)
  obtain ⟨id', e, -, -, hpost'⟩ := h.follows.queued hw
  rwa [← (Prod.mk.inj (Option.some.inj (hpost'.symm.trans hpost))).1]

theorem counted_nil (h : Follows mc s []) : Counted mc T [] [] s [] := by
  have hnone : ∀ type o, ¬ Waits mc.reader [] type o := fun type o ⟨p, hp, _⟩ => by simp at hp
  exact ⟨h, fun o ho => absurd ho List.not_mem_nil, List.nodup_nil,
    fun o ho => absurd ho List.not_mem_nil, fun o ho => absurd ho List.not_mem_nil,
    fun type o _ ho => absurd ho (hnone type o)⟩

end Ovms.Notify
