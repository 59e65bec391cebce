import Mathlib.Data.Set.Basic
import Ovms.Notify.Model

/-!
# What the Readers Still Have to Process

A ledger of all entries ever made, each with the readers that accepted it and have not
processed it yet (`Posted`). The queues agree with the ledger through every run in which no
type numbers an entry after its counter has wrapped: an entry stands in the queue of its type
exactly while a reader is left, and is freed when none is. A wrapped counter gives an entry a
number below those of older entries, which it replaces where they are still in the queue.
-/

open Lib Std

namespace Ovms.Notify

/-! ### Bits -/

theorem getLsbD_readerBit {reader : ℕ} (h : reader < notifyMaxReaders) (k : ℕ) :
    (readerBit reader).getLsbD k = decide (k = reader) := by
  rw [readerBit, ← BitVec.twoPow_eq, BitVec.getLsbD_twoPow, decide_eq_true h, Bool.true_and]
  exact decide_eq_decide.mpr eq_comm

namespace OvmsNotifyEntry

/-- A reader has a bit until it has read. -/
theorem isRead_eq (e : OvmsNotifyEntry) {reader : ℕ} (h : reader < notifyMaxReaders) :
    e.isRead reader = !e.pendingreaders.getLsbD reader := by
  rw [isRead, readerBit, ← BitVec.twoPow_eq, BitVec.and_twoPow]
  cases e.pendingreaders.getLsbD reader with
  | false => rfl
  | true =>
      rw [if_pos rfl]
      refine beq_eq_false_iff_ne.mpr fun heq => ?_
      have hbit := getLsbD_readerBit h reader
      rw [readerBit, ← BitVec.twoPow_eq, heq, BitVec.getLsbD_zero, decide_eq_true rfl] at hbit
      exact Bool.false_ne_true hbit

theorem getLsbD_clear (e : OvmsNotifyEntry) {reader : ℕ} (h : reader < notifyMaxReaders) (k : ℕ) :
    (e.clear reader).pendingreaders.getLsbD k =
      (e.pendingreaders.getLsbD k && decide (k ≠ reader)) := by
  by_cases hk : k < notifyMaxReaders
  · rw [clear, BitVec.getLsbD_and, BitVec.getLsbD_not, getLsbD_readerBit h, decide_eq_true hk,
      Bool.true_and, decide_not]
  · rw [BitVec.getLsbD_of_ge _ _ (Nat.le_of_not_lt hk),
      BitVec.getLsbD_of_ge _ _ (Nat.le_of_not_lt hk), Bool.false_and]

/-- All have read when no bit is left. -/
theorem isAllRead_iff (e : OvmsNotifyEntry) :
    e.isAllRead = true ↔ ∀ k < notifyMaxReaders, e.pendingreaders.getLsbD k = false := by
  rw [isAllRead, beq_iff_eq]
  constructor
  · intro h k _
    rw [h]
    exact BitVec.getLsbD_zero
  · intro h
    refine BitVec.eq_of_getLsbD_eq fun k hk => ?_
    rw [h k hk]
    exact BitVec.getLsbD_zero.symm

end OvmsNotifyEntry

/-! ### Readers -/

/-- Readers stand under their numbers, which are below the maximum. -/
def Numbered (readers : CallbackMap) : Prop :=
  ∀ r mc, readers[r]? = some mc → mc.reader = r ∧ r < notifyMaxReaders

/-- A reader that accepts a message. -/
def Accepting (readers : CallbackMap) (env : Environment) (subtype : Text) (size : ℕ) :
    Set ℕ :=
  {r | ∃ mc, readers[r]? = some mc ∧ mc.accepts env subtype size = true}

/-- A reader that is done with a message when it is dispatched: it has processed it, or it does
not accept it any more. -/
def Done (readers : CallbackMap) (env : Environment) (subtype : Text) (size : ℕ) : Set ℕ :=
  {r | ∃ mc, readers[r]? = some mc ∧
    (mc.accepts env subtype size = true → env.processed r = true)}

/-- The bits of the readers that accept a message. -/
theorem getLsbD_acceptingReaders {readers : CallbackMap} (h : Numbered readers)
    (env : Environment) (subtype : Text) (size k : ℕ) :
    (acceptingReaders readers env subtype size).getLsbD k = true ↔
      k ∈ Accepting readers env subtype size := by
  have hfold : ∀ (l : List (ℕ × OvmsNotifyCallbackEntry)) (bits : Readers),
      (∀ p ∈ l, readers[p.1]? = some p.2) →
      ((l.foldl (fun bits p =>
          if p.2.accepts env subtype size then bits ||| readerBit p.2.reader else bits)
        bits).getLsbD k = true ↔
      bits.getLsbD k = true ∨ ∃ p ∈ l, p.1 = k ∧ p.2.accepts env subtype size = true) := by
    intro l
    induction l with
    | nil => simp
    | cons p l ih =>
        intro bits hl
        obtain ⟨hp, hl⟩ := List.forall_mem_cons.mp hl
        obtain ⟨hreader, hlt⟩ := h _ _ hp
        rw [List.foldl_cons, ih _ hl, hreader, List.exists_mem_cons_iff]
        by_cases hacc : p.2.accepts env subtype size = true
        · rw [if_pos hacc, BitVec.getLsbD_or, getLsbD_readerBit hlt, Bool.or_eq_true,
            decide_eq_true_iff, or_assoc, and_iff_left hacc, eq_comm (a := k)]
        · rw [if_neg hacc]
          exact or_congr_right (or_iff_right fun h => hacc h.2).symm
  rw [acceptingReaders, hfold _ _ fun p hp => TreeMap.mem_toList_iff_getElem?_eq_some.mp hp]
  simp only [BitVec.getLsbD_zero, Bool.false_eq_true, false_or, Prod.exists,
    TreeMap.mem_toList_iff_getElem?_eq_some, Accepting, Set.mem_ofPred_eq]
  constructor
  · rintro ⟨r, mc, hmc, rfl, hacc⟩
    exact ⟨mc, hmc, hacc⟩
  · rintro ⟨mc, hmc, hacc⟩
    exact ⟨k, mc, hmc, rfl, hacc⟩

/-- **Dispatching** changes bits only, and clears those of the readers that are done. -/
theorem notifyReaders_spec {readers : CallbackMap} (h : Numbered readers) (env : Environment)
    (e : OvmsNotifyEntry) :
    ∃ bits, notifyReaders readers env e = { e with pendingreaders := bits } ∧
      ∀ k, bits.getLsbD k = true ↔
        e.pendingreaders.getLsbD k = true ∧ k ∉ Done readers env e.subtype e.getValueSize := by
  have hfold : ∀ (l : List (ℕ × OvmsNotifyCallbackEntry)) (e : OvmsNotifyEntry),
      (∀ p ∈ l, readers[p.1]? = some p.2) →
      ∃ bits, l.foldl (fun e p =>
          if p.2.accepts env e.subtype e.getValueSize then
            if env.processed p.2.reader then e.clear p.2.reader else e
          else e.clear p.2.reader) e = { e with pendingreaders := bits } ∧
        ∀ k, bits.getLsbD k = true ↔ e.pendingreaders.getLsbD k = true ∧
          ¬ ∃ p ∈ l, p.1 = k ∧
            (p.2.accepts env e.subtype e.getValueSize = true → env.processed k = true) := by
    intro l
    induction l with
    | nil => exact fun e _ => ⟨_, rfl, by simp⟩
    | cons p l ih =>
        intro e hl
        obtain ⟨hp, hl⟩ := List.forall_mem_cons.mp hl
        obtain ⟨hreader, hlt⟩ := h _ _ hp
        rw [List.foldl_cons, hreader]
        simp only [List.exists_mem_cons_iff, not_or]
        by_cases hdone : p.2.accepts env e.subtype e.getValueSize = true →
            env.processed p.1 = true
        · have hclear : (if p.2.accepts env e.subtype e.getValueSize = true then
              if env.processed p.1 = true then e.clear p.1 else e
              else e.clear p.1) = e.clear p.1 := by
            split
            · next hacc => rw [if_pos (hdone hacc)]
            · rfl
          rw [hclear]
          obtain ⟨bits, hbits, hspec⟩ := ih (e.clear p.1) hl
          refine ⟨bits, hbits, fun k => (hspec k).trans ?_⟩
          have hp : k ≠ p.1 ↔ ¬ (p.1 = k ∧ (p.2.accepts env e.subtype e.getValueSize = true →
              env.processed k = true)) :=
            ⟨fun hne h => hne h.1.symm, fun hne heq => hne ⟨heq.symm, heq ▸ hdone⟩⟩
          rw [OvmsNotifyEntry.getLsbD_clear e hlt, Bool.and_eq_true, decide_eq_true_iff, hp,
            and_assoc]
          rfl
        · have hkeep : (if p.2.accepts env e.subtype e.getValueSize = true then
              if env.processed p.1 = true then e.clear p.1 else e
              else e.clear p.1) = e := by
            obtain ⟨hacc, hprocessed⟩ := Classical.not_imp.mp hdone
            rw [if_pos hacc, if_neg hprocessed]
          rw [hkeep]
          obtain ⟨bits, hbits, hspec⟩ := ih e hl
          refine ⟨bits, hbits, fun k => (hspec k).trans (and_congr_right fun _ => ?_)⟩
          refine (and_iff_right ?_).symm
          rintro ⟨rfl, h⟩
          exact hdone h
  obtain ⟨bits, hbits, hspec⟩ :=
    hfold readers.toList e fun p hp => TreeMap.mem_toList_iff_getElem?_eq_some.mp hp
  refine ⟨bits, hbits, fun k => (hspec k).trans (and_congr_right fun _ => not_congr ?_)⟩
  simp only [Prod.exists, TreeMap.mem_toList_iff_getElem?_eq_some, Done, Set.mem_ofPred_eq]
  constructor
  · rintro ⟨r, mc, hmc, rfl, hdone⟩
    exact ⟨mc, hmc, hdone⟩
  · rintro ⟨mc, hmc, hdone⟩
    exact ⟨k, mc, hmc, rfl, hdone⟩

/-! ### The queue of a type -/

/-- What becomes of a queue when the bit of a reader is cleared in the entries with some
numbers: those without a bit left are taken out and freed. -/
structure Cleared (reader : ℕ) (sel : ℕ → Prop) (t t' : OvmsNotifyType) (freed : List ℕ) :
    Prop where
  nextid : t'.nextid = t.nextid
  other : ∀ id, ¬ sel id → t'.entries[id]? = t.entries[id]?
  entry : ∀ id, sel id → ∀ e', t'.entries[id]? = some e' ↔
    ∃ e, t.entries[id]? = some e ∧ (e.clear reader).isAllRead = false ∧ e' = e.clear reader
  nodup : freed.Nodup
  freed : ∀ o, o ∈ freed ↔ ∃ id e, sel id ∧ t.entries[id]? = some e ∧ e.object = o ∧
    (e.clear reader).isAllRead = true

/-- What stands in a queue after an entry was altered and cleaned up. -/
theorem getElem?_cleanup (t : OvmsNotifyType) (e : OvmsNotifyEntry) (id : ℕ) :
    ((t.store e).cleanup e).1.entries[id]? =
      if e.id = id then (if e.isAllRead then none else some e) else t.entries[id]? := by
  rw [OvmsNotifyType.cleanup, OvmsNotifyType.store]
  cases e.isAllRead with
  | true =>
      simp only [if_pos, TreeMap.getElem?_erase, TreeMap.getElem?_insert, Nat.compare_eq_eq]
      split <;> rfl
  | false =>
      simp only [Bool.false_eq_true, if_false, TreeMap.getElem?_insert, Nat.compare_eq_eq]

theorem nextid_cleanup (t : OvmsNotifyType) (e : OvmsNotifyEntry) :
    ((t.store e).cleanup e).1.nextid = t.nextid := by
  rw [OvmsNotifyType.cleanup]
  split <;> rfl

theorem freed_cleanup (t : OvmsNotifyType) (e : OvmsNotifyEntry) :
    ((t.store e).cleanup e).2 = if e.isAllRead then [e.object] else [] := by
  rw [OvmsNotifyType.cleanup]
  split <;> rfl

/-- **`MarkRead`** clears the bit in one entry. -/
theorem cleared_markRead {t : OvmsNotifyType} {id : ℕ} {e : OvmsNotifyEntry}
    (h : t.entries[id]? = some e) (hid : e.id = id) (reader : ℕ) :
    Cleared reader (· = id) t (t.markRead reader e).1 (t.markRead reader e).2 := by
  have hclear : (e.clear reader).id = id := hid
  refine ⟨nextid_cleanup _ _, fun k hk => ?_, ?_, ?_, fun o => ?_⟩
  · rw [OvmsNotifyType.markRead, getElem?_cleanup, hclear, if_neg (Ne.symm hk)]
  · rintro k rfl e'
    rw [OvmsNotifyType.markRead, getElem?_cleanup, if_pos hclear]
    constructor
    · intro he'
      cases hall : (e.clear reader).isAllRead with
      | false =>
          rw [hall, if_neg Bool.false_ne_true] at he'
          exact ⟨e, h, hall, (Option.some.inj he').symm⟩
      | true =>
          rw [hall, if_pos rfl] at he'
          cases he'
    · rintro ⟨e₀, he₀, hall, rfl⟩
      obtain rfl := Option.some.inj (h.symm.trans he₀)
      rw [hall, if_neg Bool.false_ne_true]
  · rw [OvmsNotifyType.markRead, freed_cleanup]
    split <;> simp
  · rw [OvmsNotifyType.markRead, freed_cleanup]
    constructor
    · intro ho
      cases hall : (e.clear reader).isAllRead with
      | false =>
          rw [hall] at ho
          exact absurd ho List.not_mem_nil
      | true =>
          rw [hall, if_pos rfl, List.mem_singleton] at ho
          exact ⟨id, e, rfl, h, ho.symm, hall⟩
    · rintro ⟨k, e', rfl, he', rfl, hall⟩
      obtain rfl := Option.some.inj (h.symm.trans he')
      rw [hall, if_pos rfl]
      exact List.mem_singleton_self _

/-- Entries stand in a queue under their numbers, and no two are the same object. -/
structure Filed (t : OvmsNotifyType) : Prop where
  id : ∀ (id : ℕ) (e : OvmsNotifyEntry), t.entries[id]? = some e → e.id = id
  object : ∀ (id id' : ℕ) (e e' : OvmsNotifyEntry), t.entries[id]? = some e →
    t.entries[id']? = some e' → e.object = e'.object → id = id'

/-- The bit cleared in some entries, and then in others. -/
theorem Cleared.trans {reader : ℕ} {sel sel' : ℕ → Prop} {t u v : OvmsNotifyType}
    {freed freed' : List ℕ} (ht : Filed t) (hdisj : ∀ id, sel' id → ¬ sel id)
    (h : Cleared reader sel t u freed) (h' : Cleared reader sel' u v freed') :
    Cleared reader (fun id => sel id ∨ sel' id) t v (freed ++ freed') where
  nextid := h'.nextid.trans h.nextid
  other id hid := by
    obtain ⟨hsel, hsel'⟩ := not_or.mp hid
    exact (h'.other id hsel').trans (h.other id hsel)
  entry id hid e' := by
    by_cases hsel' : sel' id
    · rw [h'.entry id hsel', h.other id (hdisj id hsel')]
    · rw [h'.other id hsel', h.entry id (hid.resolve_right hsel')]
  nodup := by
    refine List.nodup_append.mpr ⟨h.nodup, h'.nodup, fun o ho o' ho' heq => ?_⟩
    obtain ⟨id, e, hsel, he, hobj, -⟩ := (h.freed o).mp ho
    obtain ⟨id', e', hsel', he', hobj', -⟩ := (h'.freed o').mp ho'
    rw [h.other id' (hdisj id' hsel')] at he'
    obtain rfl := ht.object id id' e e' he he' (hobj.trans (heq.trans hobj'.symm))
    exact hdisj id hsel' hsel
  freed o := by
    rw [List.mem_append, h.freed, h'.freed]
    constructor
    · rintro (⟨id, e, hsel, he, h⟩ | ⟨id, e, hsel', he, hobj⟩)
      · exact ⟨id, e, .inl hsel, he, h⟩
      · rw [h.other id (hdisj id hsel')] at he
        exact ⟨id, e, .inr hsel', he, hobj⟩
    · rintro ⟨id, e, hid, he, hobj⟩
      by_cases hsel' : sel' id
      · exact .inr ⟨id, e, hsel', (h.other id (hdisj id hsel')).trans he, hobj⟩
      · exact .inl ⟨id, e, hid.resolve_right hsel', he, hobj⟩

/-- **`ClearReader`** clears the bit in all entries. -/
theorem cleared_clearReader {t : OvmsNotifyType} (ht : Filed t) (reader : ℕ) :
    Cleared reader (fun id => ∃ e, t.entries[id]? = some e) t (t.clearReader reader).1
      (t.clearReader reader).2 := by
  -- on the numbers of the entries before the one the loop has come to
  have hfold : ∀ (l : List (ℕ × OvmsNotifyEntry)) (u : OvmsNotifyType) (freed : List ℕ)
      (seen : ℕ → Prop), Cleared reader seen t u freed →
      (∀ p ∈ l, t.entries[p.1]? = some p.2 ∧ ¬ seen p.1) → (l.map Prod.fst).Nodup →
      Cleared reader (fun id => seen id ∨ id ∈ l.map Prod.fst) t
        (l.foldl (fun r p => ((r.1.markRead reader p.2).1, r.2 ++ (r.1.markRead reader p.2).2))
          (u, freed)).1
        (l.foldl (fun r p => ((r.1.markRead reader p.2).1, r.2 ++ (r.1.markRead reader p.2).2))
          (u, freed)).2 := by
    intro l
    induction l with
    | nil =>
        intro u freed seen hu _ _
        simpa only [List.map_nil, List.not_mem_nil, or_false, List.foldl_nil] using hu
    | cons p l ih =>
        intro u freed seen hu hl hnodup
        obtain ⟨⟨hp, hseen⟩, hl⟩ := List.forall_mem_cons.mp hl
        obtain ⟨hnew, hnodup⟩ := List.nodup_cons.mp hnodup
        have hmark := cleared_markRead ((hu.other p.1 hseen).trans hp) (ht.id _ _ hp) reader
        have hnext := hu.trans ht (fun id hid => hid ▸ hseen) hmark
        have hrest := ih _ _ _ hnext (fun q hq => ⟨(hl q hq).1, ?_⟩) hnodup
        · simp only [List.map_cons, List.mem_cons, ← or_assoc]
          exact hrest
        · rintro (hq' | hq')
          · exact (hl q hq).2 hq'
          · exact hnew (hq' ▸ List.mem_map_of_mem hq)
  have hstart : Cleared reader (fun _ => False) t t [] :=
    ⟨rfl, fun _ _ => rfl, fun _ h => h.elim, .nil, fun o => by simp⟩
  have hnodup : (t.entries.toList.map Prod.fst).Nodup := by
    rw [TreeMap.map_fst_toList_eq_keys]
    exact TreeMap.nodup_keys
  have hall := hfold t.entries.toList t [] _ hstart
    (fun p hp => ⟨TreeMap.mem_toList_iff_getElem?_eq_some.mp hp, id⟩) hnodup
  have hsel : (fun id => False ∨ id ∈ t.entries.toList.map Prod.fst) =
      fun id => ∃ e, t.entries[id]? = some e := by
    funext id
    rw [false_or, List.mem_map]
    refine propext ⟨?_, ?_⟩
    · rintro ⟨p, hp, rfl⟩
      exact ⟨p.2, TreeMap.mem_toList_iff_getElem?_eq_some.mp hp⟩
    · rintro ⟨e, he⟩
      exact ⟨(id, e), TreeMap.mem_toList_iff_getElem?_eq_some.mpr he, rfl⟩
  rw [hsel] at hall
  exact hall

/-! ### The ledger -/

/-- An entry that was made: its type, and the readers that have still to process it. -/
structure Posted where
  type : Text
  waiting : Set ℕ

/-- A reader has processed what satisfies a condition. -/
def strike (reader : ℕ) (S : ℕ → Posted → Prop) (L : List Posted) : List Posted :=
  L.mapIdx fun o p => { p with waiting := {r | r ∈ p.waiting ∧ ¬ (r = reader ∧ S o p)} }

/-- What a step does to the ledger: an entry that is queued waits for the readers that accept it
and are not done with it when it is dispatched; an entry that is marked has been processed by
the reader, and so have all of a type that is cleared. -/
def record (s : OvmsNotify) (L : List Posted) : Event → List Posted
  | .notifyString type subtype value raised dispatched =>
      match s.getType type with
      | none => L
      | some _ =>
          if acceptingReaders s.readers raised subtype value.length = 0#_ then L
          else
            L ++ [⟨type, Accepting s.readers raised subtype value.length \
              Done s.readers dispatched subtype value.length⟩]
  | .markRead type id reader =>
      match (s.getType type).bind fun t => t.findEntry id with
      | none => L
      | some e => strike reader (fun o _ => o = e.object) L
  | .clearNext =>
      match s.clearing with
      | some (reader, type :: _) => strike reader (fun _ p => p.type = type) L
      | _ => L
  | _ => L

/-- The notifications and the ledger after a run. -/
def run (names : List Text) (es : List Event) : OvmsNotify × List Posted :=
  es.foldl (fun p e => (step p.1 e, record p.1 p.2 e)) (.new names, [])

/-- An entry in the queue of a type. -/
def Queued (s : OvmsNotify) (type : Text) (id : ℕ) (e : OvmsNotifyEntry) : Prop :=
  ∃ t, s.types[type]? = some t ∧ t.entries[id]? = some e

/-- An entry of a type that a reader has still to process, above a number. -/
def Unread (s : OvmsNotify) (L : List Posted) (type : Text) (reader floor o : ℕ) : Prop :=
  ∃ p id, L[o]? = some p ∧ s.posted[o]? = some (type, id) ∧ reader ∈ p.waiting ∧ floor < id

/-- **No notification is lost or kept too long.** -/
structure Kept (s : OvmsNotify) (L : List Posted) : Prop where
  /-- Every entry that was queued stands in the ledger, with its type. -/
  posted : L.map Posted.type = s.posted.map Prod.fst
  /-- While a reader is left, an entry is in the queue of its type, with a bit for each
  reader left. -/
  kept : ∀ o p, L[o]? = some p → p.waiting.Nonempty → ∃ id e, Queued s p.type id e ∧
    e.object = o ∧ ∀ r < notifyMaxReaders, (e.isRead r = false ↔ r ∈ p.waiting)
  /-- An entry in a queue has its number and its type, and a reader left. -/
  queued : ∀ type id e, Queued s type id e → e.id = id ∧
    s.posted[e.object]? = some (type, id) ∧ ∃ p, L[e.object]? = some p ∧ p.waiting.Nonempty
  /-- The entries freed are those without a reader left. -/
  freed : ∀ o, o ∈ s.freed ↔ ∃ p, L[o]? = some p ∧ p.waiting = ∅
  /-- None is freed twice. -/
  once : s.freed.Nodup
  /-- Bits are those of registered readers. -/
  registered : ∀ type id e, Queued s type id e → ∀ r < notifyMaxReaders, e.isRead r = false →
    ∃ mc, s.readers[r]? = some mc
  /-- The numbers in a type increase. -/
  increasing : ∀ (type : Text) (o o' id id' : ℕ), o < o' → s.posted[o]? = some (type, id) →
    s.posted[o']? = some (type, id') → id < id'
  /-- The first unread entry is the first one a reader has still to process, if there is one. -/
  unread : ∀ (type : Text) (t : OvmsNotifyType), s.types[type]? = some t →
    ∀ r < notifyMaxReaders, ∀ floor,
    (∀ e, t.firstUnreadEntry r floor = some e →
      Unread s L type r floor e.object ∧ ∀ o < e.object, ¬ Unread s L type r floor o) ∧
    (t.firstUnreadEntry r floor = none → ∀ o, ¬ Unread s L type r floor o)

/-! ### The invariant -/

/-- What every step keeps as long as no counter has wrapped. -/
structure Inv (s : OvmsNotify) (L : List Posted) : Prop where
  readers : Numbered s.readers
  posted : L.map Posted.type = s.posted.map Prod.fst
  queued : ∀ type id e, Queued s type id e → e.id = id ∧
    s.posted[e.object]? = some (type, id) ∧ ∃ p, L[e.object]? = some p ∧ p.waiting.Nonempty ∧
      ∀ r, e.pendingreaders.getLsbD r = true ↔ r ∈ p.waiting
  kept : ∀ o p, L[o]? = some p → p.waiting.Nonempty → ∃ id e, Queued s p.type id e ∧
    e.object = o
  freed : ∀ o, o ∈ s.freed ↔ ∃ p, L[o]? = some p ∧ p.waiting = ∅
  once : s.freed.Nodup
  registered : ∀ p ∈ L, ∀ r ∈ p.waiting, ∃ mc, s.readers[r]? = some mc
  clearing : ∀ r types, s.clearing = some (r, types) → r < notifyMaxReaders ∧
    (∀ p ∈ L, r ∈ p.waiting → p.type ∈ types) ∧ ∀ type ∈ types, ∃ t, s.types[type]? = some t
  counter : ∀ (type : Text) (t : OvmsNotifyType), s.types[type]? = some t → t.nextid < 2 ^ 32
  below : ∀ (type : Text) (t : OvmsNotifyType), s.types[type]? = some t → ∀ (o id : ℕ),
    s.posted[o]? = some (type, id) → id < t.nextid ∨ t.nextid = 0
  increasing : ∀ (type : Text) (o o' id id' : ℕ), o < o' → s.posted[o]? = some (type, id) →
    s.posted[o']? = some (type, id') → id < id'

variable {s : OvmsNotify} {L : List Posted} {type : Text} {t t' : OvmsNotifyType} {reader : ℕ}

/-- All have read an entry when no reader is left. -/
theorem isAllRead_iff_empty {e : OvmsNotifyEntry} {W : Set ℕ}
    (h : ∀ r, e.pendingreaders.getLsbD r = true ↔ r ∈ W) : e.isAllRead = true ↔ W = ∅ := by
  rw [e.isAllRead_iff, Set.eq_empty_iff_forall_notMem]
  refine forall_congr' fun r => ?_
  rw [← h r, Bool.not_eq_true]
  refine ⟨fun hr => ?_, fun hr _ => hr⟩
  by_cases hlt : r < notifyMaxReaders
  · exact hr hlt
  · exact BitVec.getLsbD_of_ge _ _ (Nat.le_of_not_lt hlt)

theorem Inv.filed (h : Inv s L) (ht : s.types[type]? = some t) : Filed t where
  id id e he := (h.queued type id e ⟨t, ht, he⟩).1
  object id id' e e' he he' hobj := by
    have hid := (h.queued type id e ⟨t, ht, he⟩).2.1
    have hid' := (h.queued type id' e' ⟨t, ht, he'⟩).2.1
    rw [hobj, hid'] at hid
    exact (Prod.mk.inj (Option.some.inj hid)).2.symm

theorem types_settle {freed : List ℕ} {type' : Text} :
    (s.settle type (t', freed)).types[type']? =
      if type = type' then some t' else s.types[type']? := by
  rw [OvmsNotify.settle, TreeMap.getElem?_insert]
  simp only [Std.LawfulEqCmp.compare_eq_iff_eq]

theorem queued_settle {freed : List ℕ} {type' : Text} {id : ℕ} {e : OvmsNotifyEntry} :
    Queued (s.settle type (t', freed)) type' id e ↔
      if type = type' then t'.entries[id]? = some e else Queued s type' id e := by
  simp only [Queued, types_settle]
  by_cases htype : type = type'
  · simp only [if_pos htype, Option.some.injEq, exists_eq_left']
  · simp only [if_neg htype]

theorem getElem?_strike (S : ℕ → Posted → Prop) (o : ℕ) :
    (strike reader S L)[o]? = L[o]?.map fun p =>
      { p with waiting := {r | r ∈ p.waiting ∧ ¬ (r = reader ∧ S o p)} } :=
  List.getElem?_mapIdx

theorem map_type_strike (S : ℕ → Posted → Prop) :
    (strike reader S L).map Posted.type = L.map Posted.type := by
  refine List.ext_getElem? fun o => ?_
  rw [List.getElem?_map, List.getElem?_map, getElem?_strike, Option.map_map]
  rfl

theorem exists_of_strike {S : ℕ → Posted → Prop} {o : ℕ} {p' : Posted}
    (h : (strike reader S L)[o]? = some p') :
    ∃ p, L[o]? = some p ∧ p'.type = p.type ∧
      ∀ r, r ∈ p'.waiting ↔ r ∈ p.waiting ∧ ¬ (r = reader ∧ S o p) := by
  rw [getElem?_strike, Option.map_eq_some_iff] at h
  obtain ⟨p, hp, rfl⟩ := h
  exact ⟨p, hp, rfl, fun _ => Iff.rfl⟩

theorem strike_eq_some {S : ℕ → Posted → Prop} {o : ℕ} {p : Posted} (hp : L[o]? = some p) :
    (strike reader S L)[o]? = some ⟨p.type, {r | r ∈ p.waiting ∧ ¬ (r = reader ∧ S o p)}⟩ := by
  rw [getElem?_strike, hp]
  rfl

theorem exists_mem_of_strike {S : ℕ → Posted → Prop} {p' : Posted} (h : p' ∈ strike reader S L) :
    ∃ p ∈ L, p'.type = p.type ∧ ∀ r ∈ p'.waiting, r ∈ p.waiting := by
  obtain ⟨o, ho⟩ := List.mem_iff_getElem?.mp h
  obtain ⟨p, hp, htype, hwaiting⟩ := exists_of_strike ho
  exact ⟨p, List.mem_of_getElem? hp, htype, fun r hr => ((hwaiting r).mp hr).1⟩

theorem mem_waiting_iff {S : ℕ → Posted → Prop} {o : ℕ} {p : Posted} (h : ¬ S o p) (r : ℕ) :
    r ∈ p.waiting ↔ r ∈ p.waiting ∧ ¬ (r = reader ∧ S o p) :=
  (and_iff_left fun hs => h hs.2).symm

theorem getLsbD_clear_iff (hr : reader < notifyMaxReaders) {S : ℕ → Posted → Prop}
    {e : OvmsNotifyEntry} {p : Posted}
    (hbits : ∀ r, e.pendingreaders.getLsbD r = true ↔ r ∈ p.waiting) (h : S e.object p) (r : ℕ) :
    (e.clear reader).pendingreaders.getLsbD r = true ↔
      r ∈ p.waiting ∧ ¬ (r = reader ∧ S e.object p) := by
  rw [e.getLsbD_clear hr, Bool.and_eq_true, hbits, decide_eq_true_iff]
  exact and_congr_right fun _ => not_congr (and_iff_left h).symm

theorem queued_iff (ht : s.types[type]? = some t) {id : ℕ} {e : OvmsNotifyEntry} :
    Queued s type id e ↔ t.entries[id]? = some e :=
  ⟨fun ⟨_, hu, he⟩ => Option.some.inj (ht.symm.trans hu) ▸ he, fun he => ⟨t, ht, he⟩⟩

/-- The counters when one type is altered whose counter is not. -/
theorem exists_type_of_settle (ht : s.types[type]? = some t) (hnextid : t'.nextid = t.nextid)
    {freed : List ℕ} {type' : Text} {u : OvmsNotifyType}
    (hu : (s.settle type (t', freed)).types[type']? = some u) :
    ∃ v, s.types[type']? = some v ∧ u.nextid = v.nextid := by
  rw [types_settle] at hu
  split at hu
  · next heq =>
      obtain rfl := heq
      obtain rfl := Option.some.inj hu
      exact ⟨t, ht, hnextid⟩
  · exact ⟨u, hu, rfl⟩

section Strike

variable {sel : ℕ → Prop} {freed : List ℕ} {S : ℕ → Posted → Prop}

/-- What is queued after a bit was cleared, and from what. -/
theorem queued_settle_cleared (ht : s.types[type]? = some t)
    (hc : Cleared reader sel t t' freed) {type' : Text} {id : ℕ} {e' : OvmsNotifyEntry} :
    Queued (s.settle type (t', freed)) type' id e' ↔
      ∃ e, Queued s type' id e ∧ ((¬ (type = type' ∧ sel id) ∧ e' = e) ∨
        ((type = type' ∧ sel id) ∧ (e.clear reader).isAllRead = false ∧
          e' = e.clear reader)) := by
  rw [queued_settle]
  by_cases htype : type = type'
  · obtain rfl := htype
    rw [if_pos rfl]
    simp only [queued_iff ht, true_and]
    by_cases hsel : sel id
    · rw [hc.entry id hsel]
      simp only [hsel, not_true, false_and, false_or, true_and]
    · rw [hc.other id hsel]
      simp only [hsel, not_false_eq_true, true_and, false_and, or_false, exists_eq_right']
  · rw [if_neg htype]
    simp only [htype, false_and, not_false_eq_true, true_and, or_false, exists_eq_right']

/-- The entries whose bit is cleared are those struck from the ledger. -/
def Strikes (s : OvmsNotify) (L : List Posted) (type : Text) (sel : ℕ → Prop)
    (S : ℕ → Posted → Prop) : Prop :=
  ∀ type' id e p, Queued s type' id e → L[e.object]? = some p →
    (S e.object p ↔ type = type' ∧ sel id)

/-- An entry that is queued behind it has a reader left, and the bits of those left. -/
theorem Inv.queued_strike (h : Inv s L) (hr : reader < notifyMaxReaders)
    (ht : s.types[type]? = some t) (hc : Cleared reader sel t t' freed)
    (hS : Strikes s L type sel S) {type' : Text} {id : ℕ} {e' : OvmsNotifyEntry}
    (hq : Queued (s.settle type (t', freed)) type' id e') :
    e'.id = id ∧ s.posted[e'.object]? = some (type', id) ∧
      ∃ p, (Notify.strike reader S L)[e'.object]? = some p ∧ p.waiting.Nonempty ∧
        ∀ r, e'.pendingreaders.getLsbD r = true ↔ r ∈ p.waiting := by
  obtain ⟨e, he, hcase⟩ := (queued_settle_cleared ht hc).mp hq
  obtain ⟨hid, hpost, p, hp, hne, hbits⟩ := h.queued _ _ _ he
  have hS := hS _ _ _ _ he hp
  obtain ⟨hsel, rfl⟩ | ⟨hsel, hall, rfl⟩ := hcase
  · refine ⟨hid, hpost, _, strike_eq_some hp, ?_, fun r => ?_⟩
    · obtain ⟨r, hr⟩ := hne
      exact ⟨r, (mem_waiting_iff (mt hS.mp hsel) r).mp hr⟩
    · exact (hbits r).trans (mem_waiting_iff (mt hS.mp hsel) r)
  · have hbits' := getLsbD_clear_iff hr hbits (hS.mpr hsel)
    refine ⟨hid, hpost, _, strike_eq_some hp, ?_, hbits'⟩
    refine Set.nonempty_iff_ne_empty.mpr fun hempty => ?_
    rw [(isAllRead_iff_empty (W := {r | _}) hbits').mpr hempty] at hall
    cases hall

/-- An entry that has a reader left is queued behind it. -/
theorem Inv.kept_strike (h : Inv s L) (hr : reader < notifyMaxReaders)
    (ht : s.types[type]? = some t) (hc : Cleared reader sel t t' freed)
    (hS : Strikes s L type sel S) {o : ℕ} {p' : Posted}
    (hp' : (Notify.strike reader S L)[o]? = some p') (hne : p'.waiting.Nonempty) :
    ∃ id e, Queued (s.settle type (t', freed)) p'.type id e ∧ e.object = o := by
  obtain ⟨p, hp, htype, hwaiting⟩ := exists_of_strike hp'
  obtain ⟨r, hr'⟩ := hne
  obtain ⟨id, e, he, rfl⟩ := h.kept o p hp ⟨r, ((hwaiting r).mp hr').1⟩
  obtain ⟨-, -, q, hq, -, hbits⟩ := h.queued _ _ _ he
  obtain rfl := Option.some.inj (hp.symm.trans hq)
  have hS := hS _ _ _ _ he hp
  rw [htype]
  by_cases hsel : type = p.type ∧ sel id
  · refine ⟨id, e.clear reader,
      (queued_settle_cleared ht hc).mpr ⟨e, he, .inr ⟨hsel, ?_, rfl⟩⟩, rfl⟩
    by_contra hall
    have hempty := (isAllRead_iff_empty (getLsbD_clear_iff hr hbits (hS.mpr hsel))).mp
      (Bool.not_eq_false _ ▸ hall)
    exact Set.eq_empty_iff_forall_notMem.mp hempty r ((hwaiting r).mp hr')
  · exact ⟨id, e, (queued_settle_cleared ht hc).mpr ⟨e, he, .inl ⟨hsel, rfl⟩⟩, rfl⟩

/-- What has been freed behind it has no reader left. -/
theorem Inv.freed_strike (h : Inv s L) (hr : reader < notifyMaxReaders)
    (ht : s.types[type]? = some t) (hc : Cleared reader sel t t' freed)
    (hS : Strikes s L type sel S) (o : ℕ) :
    o ∈ s.freed ++ freed ↔
      ∃ p, (Notify.strike reader S L)[o]? = some p ∧ p.waiting = ∅ := by
  refine List.mem_append.trans ⟨?_, ?_⟩
  · rintro (ho | ho)
    · obtain ⟨p, hp, hempty⟩ := (h.freed o).mp ho
      refine ⟨_, strike_eq_some hp, Set.eq_empty_iff_forall_notMem.mpr fun r hr' => ?_⟩
      exact Set.eq_empty_iff_forall_notMem.mp hempty r hr'.1
    · obtain ⟨id, e, hsel, he, rfl, hall⟩ := (hc.freed o).mp ho
      obtain ⟨-, -, p, hp, -, hbits⟩ := h.queued type id e ⟨t, ht, he⟩
      have hS := (hS _ _ _ _ ⟨t, ht, he⟩ hp).mpr ⟨rfl, hsel⟩
      exact ⟨_, strike_eq_some hp, (isAllRead_iff_empty (getLsbD_clear_iff hr hbits hS)).mp hall⟩
  · rintro ⟨p', hp', hempty⟩
    obtain ⟨p, hp, -, hwaiting⟩ := exists_of_strike hp'
    have hnone : ∀ r, ¬ (r ∈ p.waiting ∧ ¬ (r = reader ∧ S o p)) := fun r hr' =>
      Set.eq_empty_iff_forall_notMem.mp hempty r ((hwaiting r).mpr hr')
    rcases p.waiting.eq_empty_or_nonempty with hdone | hne
    · exact .inl ((h.freed o).mpr ⟨p, hp, hdone⟩)
    · right
      -- the last reader left is the one that is struck
      obtain ⟨id, e, he, rfl⟩ := h.kept o p hp hne
      obtain ⟨r, hr'⟩ := hne
      have hstruck : S e.object p := by
        by_contra hnot
        exact hnone r ((mem_waiting_iff hnot r).mp hr')
      obtain ⟨-, -, q, hq, -, hbits⟩ := h.queued _ _ _ he
      obtain rfl := Option.some.inj (hp.symm.trans hq)
      obtain ⟨rfl, hsel⟩ := (hS _ _ _ _ he hp).mp hstruck
      refine (hc.freed _).mpr ⟨id, e, hsel, (queued_iff ht).mp he, rfl, ?_⟩
      exact (isAllRead_iff_empty (W := {r | _}) (getLsbD_clear_iff hr hbits hstruck)).mpr
        (Set.eq_empty_iff_forall_notMem.mpr hnone)

/-- **A bit cleared** in entries of a type that are struck from the ledger. -/
theorem Inv.strike (h : Inv s L) (hr : reader < notifyMaxReaders) (ht : s.types[type]? = some t)
    (hc : Cleared reader sel t t' freed)
    (hS : ∀ type' id e p, Queued s type' id e → L[e.object]? = some p →
      (S e.object p ↔ type = type' ∧ sel id)) :
    Inv (s.settle type (t', freed)) (Notify.strike reader S L) := by
  refine ⟨h.readers, (map_type_strike S).trans h.posted, fun _ _ _ => h.queued_strike hr ht hc hS,
    fun _ _ => h.kept_strike hr ht hc hS, h.freed_strike hr ht hc hS, ?_, ?_, ?_, ?_, ?_,
    h.increasing⟩
  · refine List.nodup_append.mpr ⟨h.once, hc.nodup, fun o ho o' ho' heq => ?_⟩
    obtain rfl := heq
    obtain ⟨p, hp, hempty⟩ := (h.freed o).mp ho
    obtain ⟨id, e, -, he, rfl, -⟩ := (hc.freed o).mp ho'
    obtain ⟨-, -, q, hq, hne, -⟩ := h.queued type id e ⟨t, ht, he⟩
    obtain rfl := Option.some.inj (hp.symm.trans hq)
    exact hne.ne_empty hempty
  · intro p' hp' r hr'
    obtain ⟨p, hp, -, hwaiting⟩ := exists_mem_of_strike hp'
    exact h.registered p hp r (hwaiting r hr')
  · intro r types hclearing
    obtain ⟨hlt, hleft, hexists⟩ := h.clearing r types hclearing
    refine ⟨hlt, fun p' hp' hr' => ?_, fun type' htype' => ?_⟩
    · obtain ⟨p, hp, htype, hwaiting⟩ := exists_mem_of_strike hp'
      rw [htype]
      exact hleft p hp (hwaiting r hr')
    · rw [types_settle]
      split
      · exact ⟨_, rfl⟩
      · exact hexists type' htype'
  · intro type' u hu
    obtain ⟨v, hv, hnext⟩ := exists_type_of_settle ht hc.nextid hu
    rw [hnext]
    exact h.counter type' v hv
  · intro type' u hu
    obtain ⟨v, hv, hnext⟩ := exists_type_of_settle ht hc.nextid hu
    rw [hnext]
    exact h.below type' v hv

end Strike

/-- One more at the end of a list. -/
theorem getElem?_concat_eq_some {α : Type*} {l : List α} {a x : α} {o : ℕ} :
    (l ++ [a])[o]? = some x ↔ l[o]? = some x ∨ o = l.length ∧ a = x := by
  rw [List.getElem?_append]
  split
  · next hlt => exact (or_iff_left fun heq => absurd heq.1 (Nat.ne_of_lt hlt)).symm
  · next hlt =>
      rw [List.getElem?_eq_none (Nat.le_of_not_lt hlt), List.getElem?_singleton]
      by_cases heq : o = l.length
      · simp [heq]
      · rw [if_neg (by omega)]
        simp [heq]

theorem nextid_queueEntry (t : OvmsNotifyType) (readers : CallbackMap) (env : Environment)
    (e : OvmsNotifyEntry) :
    (t.queueEntry readers env e).1.nextid = (t.nextid + 1) % 2 ^ 32 :=
  nextid_cleanup _ _

/-- **What is queued**, under the number the counter has. -/
theorem queueEntry_spec {readers : CallbackMap} (h : Numbered readers)
    (raised dispatched : Environment) (t : OvmsNotifyType) (object : ℕ) (subtype value : Text) :
    ∃ e : OvmsNotifyEntry, e.object = object ∧ e.id = t.nextid ∧
      (∀ r, e.pendingreaders.getLsbD r = true ↔ r ∈
        Accepting readers raised subtype value.length \
          Done readers dispatched subtype value.length) ∧
      ∀ r, t.queueEntry readers dispatched
          ⟨object, 0, acceptingReaders readers raised subtype value.length, subtype, value⟩ = r →
        r.2 = (if e.isAllRead then [object] else []) ∧
        ∀ id, r.1.entries[id]? =
          if t.nextid = id then (if e.isAllRead then none else some e) else t.entries[id]? := by
  obtain ⟨bits, hbits, hspec⟩ := notifyReaders_spec h dispatched
    ⟨object, t.nextid, acceptingReaders readers raised subtype value.length, subtype, value⟩
  refine ⟨⟨object, t.nextid, bits, subtype, value⟩, rfl, rfl, fun r => ?_, ?_⟩
  · rw [hspec, getLsbD_acceptingReaders h]
    rfl
  · rintro _ rfl
    rw [OvmsNotifyType.queueEntry]
    simp only [hbits]
    refine ⟨freed_cleanup _ _, fun id => ?_⟩
    rw [getElem?_cleanup]
    simp only [OvmsNotifyType.store, TreeMap.getElem?_insert, Nat.compare_eq_eq]
    split <;> rfl

theorem Inv.length_eq (h : Inv s L) : L.length = s.posted.length := by
  simpa only [List.length_map] using congrArg List.length h.posted

theorem Inv.lt_nextid (h : Inv s L) (ht : s.types[type]? = some t) (hwrap : t.nextid ≠ 0) {o id : ℕ}
    (ho : s.posted[o]? = some (type, id)) : id < t.nextid :=
  (h.below type t ht o id ho).resolve_right hwrap

/-- What is queued behind a new entry. -/
theorem queued_queue {e : OvmsNotifyEntry} (ht : s.types[type]? = some t)
    (hentries : ∀ id, t'.entries[id]? =
      if t.nextid = id then (if e.isAllRead then none else some e) else t.entries[id]?)
    {freed : List ℕ} {posted : List (Text × ℕ)} {type' : Text} {id : ℕ} {e' : OvmsNotifyEntry} :
    Queued { s.settle type (t', freed) with posted := posted } type' id e' ↔
      (type = type' ∧ t.nextid = id ∧ e.isAllRead = false ∧ e' = e) ∨
        (¬ (type = type' ∧ t.nextid = id) ∧ Queued s type' id e') := by
  refine queued_settle.trans ?_
  by_cases htype : type = type'
  · obtain rfl := htype
    rw [if_pos rfl, hentries, queued_iff ht]
    by_cases hnew : t.nextid = id
    · rw [if_pos hnew]
      cases e.isAllRead <;> simp [hnew, eq_comm]
    · simp [hnew]
  · simp [htype]

/-- The counter is still above the numbers in use, or has wrapped. -/
theorem Inv.below_queue (h : Inv s L) (ht : s.types[type]? = some t) (hwrap : t.nextid ≠ 0)
    (hnextid : t'.nextid = (t.nextid + 1) % 2 ^ 32) {freed : List ℕ} {type' : Text}
    {u : OvmsNotifyType} (hu : (s.settle type (t', freed)).types[type']? = some u) {o id : ℕ}
    (ho : (s.posted ++ [(type, t.nextid)])[o]? = some (type', id)) :
    id < u.nextid ∨ u.nextid = 0 := by
  rw [types_settle] at hu
  split at hu
  · next heq =>
      obtain rfl := heq
      obtain rfl := Option.some.inj hu
      have hle : id ≤ t.nextid := by
        obtain ho | ⟨-, ho⟩ := getElem?_concat_eq_some.mp ho
        · exact Nat.le_of_lt (h.lt_nextid ht hwrap ho)
        · exact Nat.le_of_eq (Prod.mk.inj ho).2.symm
      have hlt := h.counter type t ht
      rw [hnextid]
      omega
  · next hne =>
      obtain ho | ⟨-, ho⟩ := getElem?_concat_eq_some.mp ho
      · exact h.below type' u hu o id ho
      · exact absurd (Prod.mk.inj ho).1 hne

/-- The number of a new entry is above those of its type. -/
theorem Inv.increasing_queue (h : Inv s L) (ht : s.types[type]? = some t) (hwrap : t.nextid ≠ 0)
    {type' : Text} {o o' id id' : ℕ} (hlt : o < o')
    (ho : (s.posted ++ [(type, t.nextid)])[o]? = some (type', id))
    (ho' : (s.posted ++ [(type, t.nextid)])[o']? = some (type', id')) : id < id' := by
  obtain ho' | ⟨rfl, hnew⟩ := getElem?_concat_eq_some.mp ho'
  · obtain ho | ⟨rfl, -⟩ := getElem?_concat_eq_some.mp ho
    · exact h.increasing type' o o' id id' hlt ho ho'
    · exact absurd (List.getElem?_eq_some_iff.mp ho').1 (Nat.not_lt_of_lt hlt)
  · obtain ⟨rfl, rfl⟩ := Prod.mk.inj hnew
    obtain ho | ⟨rfl, -⟩ := getElem?_concat_eq_some.mp ho
    · exact h.lt_nextid ht hwrap ho
    · exact absurd hlt (Nat.lt_irrefl _)

/-- **An entry queued** waits for the readers that accept it and are not done with it. -/
theorem Inv.queue (h : Inv s L) (hlock : s.clearing = none) (ht : s.types[type]? = some t)
    (hwrap : t.nextid ≠ 0) (raised dispatched : Environment) (subtype value : Text) :
    Inv { s.settle type (t.queueEntry s.readers dispatched ⟨s.posted.length, 0,
          acceptingReaders s.readers raised subtype value.length, subtype, value⟩) with
        posted := s.posted ++ [(type, t.nextid)] }
      (L ++ [⟨type, Accepting s.readers raised subtype value.length \
        Done s.readers dispatched subtype value.length⟩]) := by
  obtain ⟨e, hobject, hid, hbits, hspec⟩ :=
    queueEntry_spec h.readers raised dispatched t s.posted.length subtype value
  obtain ⟨⟨t', freed⟩, hr⟩ : ∃ r, t.queueEntry s.readers dispatched ⟨s.posted.length, 0,
    acceptingReaders s.readers raised subtype value.length, subtype, value⟩ = r := ⟨_, rfl⟩
  obtain ⟨hfreed, hentries⟩ := hspec _ hr
  have hnextid : t'.nextid = (t.nextid + 1) % 2 ^ 32 := by
    rw [← nextid_queueEntry t, hr]
  rw [hr]
  have hall := isAllRead_iff_empty hbits
  have hregistered : ∀ r ∈ Accepting s.readers raised subtype value.length \
      Done s.readers dispatched subtype value.length, ∃ mc, s.readers[r]? = some mc := by
    rintro r ⟨⟨mc, hmc, -⟩, -⟩
    exact ⟨mc, hmc⟩
  generalize Accepting s.readers raised subtype value.length \
    Done s.readers dispatched subtype value.length = W at hbits hall hregistered ⊢
  have hlen := h.length_eq
  have hold : ∀ {o : ℕ} {p : Posted}, L[o]? = some p → o < s.posted.length := by
    intro o p hp
    rw [← hlen]
    exact (List.getElem?_eq_some_iff.mp hp).1
  refine ⟨h.readers, ?_, ?_, ?_, fun o => ?_, ?_, ?_, ?_, ?_,
    fun _ _ hu _ _ => h.below_queue ht hwrap hnextid hu,
    fun _ _ _ _ _ => h.increasing_queue ht hwrap⟩
  · rw [List.map_append, h.posted, List.map_append]
    rfl
  · intro type' id e' hqueued
    obtain ⟨rfl, rfl, hleft, rfl⟩ | ⟨-, hqueued⟩ := (queued_queue ht hentries).mp hqueued
    · refine ⟨hid, getElem?_concat_eq_some.mpr (.inr ⟨hobject, rfl⟩), _,
        getElem?_concat_eq_some.mpr (.inr ⟨hobject.trans hlen.symm, rfl⟩), ?_, hbits⟩
      refine Set.nonempty_iff_ne_empty.mpr fun hempty => ?_
      rw [hall.mpr hempty] at hleft
      cases hleft
    · obtain ⟨hid', hpost, p, hp, hne, hbits'⟩ := h.queued _ _ _ hqueued
      exact ⟨hid', getElem?_concat_eq_some.mpr (.inl hpost), p,
        getElem?_concat_eq_some.mpr (.inl hp), hne, hbits'⟩
  · intro o p hp hne
    obtain hp | ⟨rfl, rfl⟩ := getElem?_concat_eq_some.mp hp
    · obtain ⟨id, e', hqueued, rfl⟩ := h.kept o p hp hne
      refine ⟨id, e', (queued_queue ht hentries).mpr (.inr ⟨?_, hqueued⟩), rfl⟩
      -- the counter is above the numbers in use
      rintro ⟨rfl, rfl⟩
      exact Nat.lt_irrefl _ (h.lt_nextid ht hwrap (h.queued _ _ _ hqueued).2.1)
    · refine ⟨t.nextid, e, (queued_queue ht hentries).mpr (.inl ⟨rfl, rfl, ?_, rfl⟩),
        hobject.trans hlen.symm⟩
      by_contra hleft
      exact hne.ne_empty (hall.mp (Bool.not_eq_false _ ▸ hleft))
  · have hnew : o ∈ freed ↔ o = L.length ∧ W = ∅ := by
      rw [show freed = _ from hfreed, ← hall, hlen]
      cases e.isAllRead <;> simp
    refine List.mem_append.trans ((or_congr (h.freed o) hnew).trans ⟨?_, ?_⟩)
    · rintro (⟨p, hp, hempty⟩ | ⟨rfl, hempty⟩)
      · exact ⟨p, getElem?_concat_eq_some.mpr (.inl hp), hempty⟩
      · exact ⟨_, getElem?_concat_eq_some.mpr (.inr ⟨rfl, rfl⟩), hempty⟩
    · rintro ⟨p, hp, hempty⟩
      obtain hp | ⟨rfl, rfl⟩ := getElem?_concat_eq_some.mp hp
      · exact .inl ⟨p, hp, hempty⟩
      · exact .inr ⟨rfl, hempty⟩
  · have hnodup : freed.Nodup := by
      rw [show freed = _ from hfreed]
      split
      · exact List.nodup_singleton _
      · exact .nil
    refine List.nodup_append.mpr ⟨h.once, hnodup, fun o ho o' ho' heq => ?_⟩
    obtain ⟨p, hp, -⟩ := (h.freed o).mp ho
    rw [show freed = _ from hfreed] at ho'
    split at ho'
    · rw [List.mem_singleton] at ho'
      exact Nat.ne_of_lt (hold hp) (heq.trans ho')
    · cases ho'
  · intro p hp r hr
    obtain hp | hp := List.mem_append.mp hp
    · exact h.registered p hp r hr
    · obtain rfl := List.mem_singleton.mp hp
      exact hregistered r hr
  · intro r types hclearing
    cases hlock.symm.trans hclearing
  · intro type' u hu
    rw [types_settle] at hu
    split at hu
    · obtain rfl := Option.some.inj hu
      rw [hnextid]
      exact Nat.mod_lt _ (Nat.two_pow_pos 32)
    · exact h.counter type' u hu

theorem Inv.type_eq (h : Inv s L) {o id : ℕ} {p : Posted} (hp : L[o]? = some p)
    (ho : s.posted[o]? = some (type, id)) : p.type = type := by
  have htype := congrArg (fun l => l[o]?) h.posted
  simpa only [List.getElem?_map, hp, ho, Option.map_some, Option.some.injEq] using htype

/-- A registration. -/
theorem Inv.register (h : Inv s L) (hlock : s.clearing = none) (mc : OvmsNotifyCallbackEntry)
    (hr : mc.reader < notifyMaxReaders) (nextreader : ℕ) :
    Inv { s with readers := s.readers.insert mc.reader mc, nextreader := nextreader } L := by
  refine ⟨fun r mc' hmc' => ?_, h.posted, h.queued, h.kept, h.freed, h.once,
    fun p hp r hr => ?_, fun r types hclearing => ?_, h.counter, h.below, h.increasing⟩
  · rw [TreeMap.getElem?_insert] at hmc'
    split at hmc'
    · next heq =>
        obtain rfl := Option.some.inj hmc'
        exact ⟨Nat.compare_eq_eq.mp heq, Nat.compare_eq_eq.mp heq ▸ hr⟩
    · exact h.readers r mc' hmc'
  · rw [TreeMap.getElem?_insert]
    split
    · exact ⟨mc, rfl⟩
    · exact h.registered p hp r hr
  · cases hlock.symm.trans hclearing

/-- `ClearReader` comes to another type. -/
theorem Inv.setClearing (h : Inv s L) {types : List Text} (hr : reader < notifyMaxReaders)
    (hleft : ∀ p ∈ L, reader ∈ p.waiting → p.type ∈ types)
    (hexists : ∀ type ∈ types, ∃ t, s.types[type]? = some t) :
    Inv { s with clearing := some (reader, types) } L :=
  { h with
    clearing := by
      rintro r ts heq
      obtain ⟨rfl, rfl⟩ := Prod.mk.inj (Option.some.inj heq)
      exact ⟨hr, hleft, hexists⟩ }

/-- `ClearReader` starts. -/
theorem Inv.clearReader (h : Inv s L) (reader : ℕ) : Inv (s.clearReader reader) L := by
  rw [OvmsNotify.clearReader]
  split
  · exact h
  · next mc hmc =>
      refine h.setClearing ((h.readers reader mc hmc).1 ▸ (h.readers reader mc hmc).2) ?_ ?_
      · intro p hp hr
        obtain ⟨o, ho⟩ := List.mem_iff_getElem?.mp hp
        obtain ⟨id, e, ⟨t, ht, -⟩, -⟩ := h.kept o p ho ⟨_, hr⟩
        exact TreeMap.mem_keys.mpr (TreeMap.mem_iff_isSome_getElem?.mpr (by rw [ht]; rfl))
      · intro type htype
        have hmem := TreeMap.mem_iff_isSome_getElem?.mp (TreeMap.mem_keys.mp htype)
        exact Option.isSome_iff_exists.mp hmem

/-- `ClearReader` goes on: it clears a type, or else the reader is gone. -/
theorem Inv.clearNext (h : Inv s L) : Inv s.clearNext (record s L .clearNext) := by
  rw [OvmsNotify.clearNext.eq_def, record]
  rcases hclearing : s.clearing with _ | ⟨r, _ | ⟨type, types⟩⟩
  · exact h
  · obtain ⟨-, hleft, -⟩ := h.clearing r [] hclearing
    refine ⟨fun k mc hmc => ?_, h.posted, h.queued, h.kept, h.freed, h.once, fun p hp k hk => ?_,
      fun _ _ hnone => ?_, h.counter, h.below, h.increasing⟩
    · rw [TreeMap.getElem?_erase] at hmc
      split at hmc
      · cases hmc
      · exact h.readers k mc hmc
    · rw [TreeMap.getElem?_erase]
      split
      · next heq =>
          obtain rfl := Nat.compare_eq_eq.mp heq
          exact absurd (hleft p hp hk) List.not_mem_nil
      · exact h.registered p hp k hk
    · cases hnone
  · obtain ⟨hr, hleft, hexists⟩ := h.clearing r _ hclearing
    obtain ⟨t, ht⟩ := hexists type List.mem_cons_self
    simp only [OvmsNotify.getType, ht]
    have hstrike := h.strike (S := fun _ p => p.type = type) hr ht
      (cleared_clearReader (h.filed ht) r) (by
        intro type' id e p hq hp
        have htype := h.type_eq hp (h.queued _ _ _ hq).2.1
        rw [htype, eq_comm]
        refine (and_iff_left_of_imp ?_).symm
        rintro rfl
        obtain ⟨u, hu, he⟩ := hq
        exact ⟨e, Option.some.inj (hu.symm.trans ht) ▸ he⟩)
    refine hstrike.setClearing hr (fun p' hp' hr' => ?_) fun ty hty => ?_
    · obtain ⟨o, ho⟩ := List.mem_iff_getElem?.mp hp'
      obtain ⟨p, hp, htype, hwaiting⟩ := exists_of_strike ho
      obtain ⟨hwait, hnot⟩ := (hwaiting r).mp hr'
      rw [htype]
      exact (List.mem_cons.mp (hleft p (List.mem_of_getElem? hp) hwait)).resolve_left
        fun heq => hnot ⟨rfl, heq⟩
    · exact (hstrike.clearing r _ hclearing).2.2 ty (List.mem_cons_of_mem _ hty)

/-- `MarkRead`. -/
theorem Inv.markRead (h : Inv s L) {id : ℕ} (hr : reader < notifyMaxReaders) :
    Inv (s.markRead type id reader) (record s L (.markRead type id reader)) := by
  rw [OvmsNotify.markRead, record]
  simp only [OvmsNotify.getType, OvmsNotifyType.findEntry]
  rcases ht : s.types[type]? with _ | t
  · exact h
  · rcases he : t.entries[id]? with _ | e
    · simpa only [Option.bind_some, he] using h
    · obtain ⟨hid, hpost, -⟩ := h.queued type id e ⟨t, ht, he⟩
      simp only [Option.bind_some, he]
      refine h.strike hr ht (cleared_markRead he hid reader) fun type' id' e' p hq hp => ?_
      constructor
      · intro hobject
        have hpost' := (h.queued _ _ _ hq).2.1
        rw [hobject, hpost] at hpost'
        obtain ⟨rfl, rfl⟩ := Prod.mk.inj (Option.some.inj hpost')
        exact ⟨rfl, rfl⟩
      · rintro ⟨rfl, rfl⟩
        obtain ⟨u, hu, he'⟩ := hq
        obtain rfl := Option.some.inj (ht.symm.trans hu)
        rw [Option.some.inj (he'.symm.trans he)]

/-- A type numbers an entry although its counter has wrapped. -/
def Wraps (s : OvmsNotify) : Event → Prop
  | .notifyString type subtype value raised _ =>
      ((s.getType type).any fun t => t.nextid == 0) ∧
        acceptingReaders s.readers raised subtype value.length ≠ 0#_
  | _ => False

instance (s : OvmsNotify) : (e : Event) → Decidable (Wraps s e)
  | .notifyString type subtype value raised _ =>
      inferInstanceAs (Decidable (((s.getType type).any fun t => t.nextid == 0) ∧
        acceptingReaders s.readers raised subtype value.length ≠ 0#_))
  | .registerReader _ | .registerReaderAs _ | .clearReader _ | .clearNext | .markRead .. =>
      inferInstanceAs (Decidable False)

/-- **The step lemma.** -/
theorem Inv.step (h : Inv s L) {e : Event} (he : Admitted s e) (hwrap : ¬ Wraps s e) :
    Inv (step s e) (record s L e) := by
  cases e with
  | registerReader mc => exact h.register he.1 { mc with reader := s.nextreader } he.2 _
  | registerReaderAs mc => exact h.register he.1 mc he.2 s.nextreader
  | clearReader reader => exact h.clearReader reader
  | clearNext => exact h.clearNext
  | notifyString type subtype value raised dispatched =>
      rw [Notify.step, OvmsNotify.notifyString, record]
      rcases ht : s.getType type with _ | t
      · exact h
      · by_cases hbits : acceptingReaders s.readers raised subtype value.length = 0#_
        · simpa only [if_pos hbits] using h
        · simp only [if_neg hbits]
          have hzero : t.nextid ≠ 0 := fun hzero =>
            hwrap ⟨by rw [ht, Option.any_some, beq_iff_eq, hzero], hbits⟩
          exact h.queue he ht hzero raised dispatched subtype value
  | markRead type id reader => exact h.markRead he.1

/-! ### What the invariant says -/

/-- An entry that a reader has not read is one it has still to process. -/
theorem Inv.unread_iff (h : Inv s L) (ht : s.types[type]? = some t) (hr : reader < notifyMaxReaders)
    {floor o : ℕ} : Unread s L type reader floor o ↔
      ∃ (id : ℕ) (e : OvmsNotifyEntry), t.entries[id]? = some e ∧ e.object = o ∧
        (!e.isRead reader && decide (floor < e.id)) = true := by
  constructor
  · rintro ⟨p, id, hp, hpost, hwait, hlt⟩
    obtain ⟨id', e, hq, rfl⟩ := h.kept o p hp ⟨reader, hwait⟩
    obtain ⟨hid, hpost', q, hq', -, hbits⟩ := h.queued _ _ _ hq
    obtain rfl := Option.some.inj (hp.symm.trans hq')
    rw [hpost] at hpost'
    obtain ⟨htype, rfl⟩ := Prod.mk.inj (Option.some.inj hpost')
    obtain ⟨u, hu, he⟩ := hq
    rw [← htype, ht] at hu
    obtain rfl := Option.some.inj hu
    refine ⟨id, e, he, rfl, ?_⟩
    rw [e.isRead_eq hr, (hbits reader).mpr hwait, hid, decide_eq_true hlt]
    rfl
  · rintro ⟨id, e, he, rfl, hunread⟩
    obtain ⟨hid, hpost, p, hp, -, hbits⟩ := h.queued type id e ⟨t, ht, he⟩
    rw [e.isRead_eq hr, Bool.not_not, Bool.and_eq_true, decide_eq_true_iff, hid] at hunread
    exact ⟨p, id, hp, hpost, (hbits reader).mp hunread.1, hunread.2⟩

/-- The first unread entry has the least number, so it is the one that was queued first. -/
theorem Inv.firstUnreadEntry (h : Inv s L) (ht : s.types[type]? = some t)
    (hr : reader < notifyMaxReaders) (floor : ℕ) :
    (∀ e, t.firstUnreadEntry reader floor = some e → Unread s L type reader floor e.object ∧
      ∀ o < e.object, ¬ Unread s L type reader floor o) ∧
    (t.firstUnreadEntry reader floor = none → ∀ o, ¬ Unread s L type reader floor o) := by
  constructor
  · intro e hfirst
    obtain ⟨⟨id, e⟩, hfind, rfl⟩ := Option.map_eq_some_iff.mp hfirst
    obtain ⟨hunread, before, behind, hlist, hbefore⟩ := List.find?_eq_some_iff_append.mp hfind
    have he : t.entries[id]? = some e := by
      refine TreeMap.mem_toList_iff_getElem?_eq_some.mp ?_
      rw [hlist]
      exact List.mem_append_right _ List.mem_cons_self
    refine ⟨(h.unread_iff ht hr).mpr ⟨id, e, he, rfl, hunread⟩, fun o hlt ho => ?_⟩
    obtain ⟨id', e', he', rfl, hunread'⟩ := (h.unread_iff ht hr).mp ho
    have hless : id' < id := h.increasing type _ _ _ _ hlt
      (h.queued type id' e' ⟨t, ht, he'⟩).2.1 (h.queued type id e ⟨t, ht, he⟩).2.1
    -- it stands further up in the queue
    have hmem := TreeMap.mem_toList_iff_getElem?_eq_some.mpr he'
    rw [hlist] at hmem
    obtain hmem | hmem := List.mem_append.mp hmem
    · have hnot := hbefore _ hmem
      rw [hunread'] at hnot
      cases hnot
    · obtain heq | hmem := List.mem_cons.mp hmem
      · exact Nat.ne_of_lt hless (congrArg Prod.fst heq)
      · have hordered := TreeMap.ordered_keys_toList (t := t.entries)
        rw [hlist] at hordered
        have hgreater := (List.pairwise_cons.mp (List.pairwise_append.mp hordered).2.1).1 _ hmem
        exact Nat.lt_asymm hless (Nat.compare_eq_lt.mp hgreater)
  · intro hnone o ho
    obtain ⟨id, e, he, -, hunread⟩ := (h.unread_iff ht hr).mp ho
    rw [OvmsNotifyType.firstUnreadEntry, Option.map_eq_none_iff, List.find?_eq_none] at hnone
    exact hnone (id, e) (TreeMap.mem_toList_iff_getElem?_eq_some.mpr he) hunread

theorem Inv.kept_spec (h : Inv s L) : Kept s L where
  posted := h.posted
  kept o p hp hne := by
    obtain ⟨id, e, hq, rfl⟩ := h.kept o p hp hne
    obtain ⟨-, -, q, hq', -, hbits⟩ := h.queued _ _ _ hq
    obtain rfl := Option.some.inj (hp.symm.trans hq')
    refine ⟨id, e, hq, rfl, fun r hr => ?_⟩
    rw [e.isRead_eq hr, Bool.not_eq_false', hbits]
  queued type id e hq := by
    obtain ⟨hid, hpost, p, hp, hne, -⟩ := h.queued type id e hq
    exact ⟨hid, hpost, p, hp, hne⟩
  freed := h.freed
  once := h.once
  registered type id e hq r hr hread := by
    obtain ⟨-, -, p, hp, -, hbits⟩ := h.queued type id e hq
    rw [e.isRead_eq hr, Bool.not_eq_false', hbits] at hread
    exact h.registered p (List.mem_of_getElem? hp) r hread
  increasing := h.increasing
  unread _ _ ht _ hr floor := h.firstUnreadEntry ht hr floor

/-! ### Runs -/

/-- The types at the start have no entries, and count from 1. -/
theorem getElem?_types_new {names : List Text} (ht : (OvmsNotify.new names).types[type]? = some t) :
    t = .new type := by
  have hfold : ∀ (names : List Text) (s : OvmsNotify),
      (∀ (type : Text) (t : OvmsNotifyType), s.types[type]? = some t → t = .new type) →
      ∀ t, (names.foldl OvmsNotify.registerType s).types[type]? = some t → t = .new type := by
    intro names
    induction names with
    | nil => exact fun s hs t ht => hs type t ht
    | cons name names ih =>
        refine fun s hs => ih _ fun type' t' ht' => ?_
        rw [OvmsNotify.registerType] at ht'
        split at ht'
        · exact hs type' t' ht'
        · rw [TreeMap.getElem?_insert] at ht'
          split at ht'
          · next heq =>
              obtain rfl := Std.LawfulEqCmp.compare_eq_iff_eq.mp heq
              exact (Option.some.inj ht').symm
          · exact hs type' t' ht'
  exact hfold names _ (fun _ _ h => by simp at h) t ht

/-- Registering types leaves the rest. -/
theorem new_eq (names : List Text) :
    ∃ types, OvmsNotify.new names = ⟨∅, 1, types, [], [], none⟩ := by
  have hfold : ∀ (names : List Text) (types : TreeMap Text OvmsNotifyType), ∃ types',
      names.foldl OvmsNotify.registerType ⟨∅, 1, types, [], [], none⟩
        = ⟨∅, 1, types', [], [], none⟩ := by
    intro names
    induction names with
    | nil => exact fun types => ⟨types, rfl⟩
    | cons name names ih =>
        intro types
        rw [List.foldl_cons, OvmsNotify.registerType]
        split
        · exact ih types
        · exact ih _
  exact hfold names ∅

/-- **At the start** there is nothing. -/
theorem inv_new (names : List Text) : Inv (.new names) [] := by
  have htypes : ∀ (type : Text) (t : OvmsNotifyType),
      (OvmsNotify.new names).types[type]? = some t → t = .new type :=
    fun _ _ => getElem?_types_new
  obtain ⟨types, hnew⟩ := new_eq names
  rw [hnew] at htypes ⊢
  have hnone : ∀ type id e, ¬ Queued ⟨∅, 1, types, [], [], none⟩ type id e := by
    rintro type id e ⟨t, ht, he⟩
    rw [htypes type t ht, OvmsNotifyType.new] at he
    simp at he
  have hempty : ∀ {α : Type} {o : ℕ} {x : α}, ([] : List α)[o]? ≠ some x := by simp
  exact
    { readers := fun r mc hmc => by simp at hmc
      posted := rfl
      queued := fun type id e hq => (hnone _ _ _ hq).elim
      kept := fun o p hp => (hempty hp).elim
      freed := fun o => ⟨fun ho => (List.not_mem_nil ho).elim, fun ⟨p, hp, _⟩ => (hempty hp).elim⟩
      once := .nil
      registered := fun p hp => (List.not_mem_nil hp).elim
      clearing := fun r ts h => by cases h
      counter := fun type t ht => by
        rw [htypes type t ht, OvmsNotifyType.new]
        exact Nat.one_lt_two_pow (by omega)
      below := fun type t ht o id ho => (hempty ho).elim
      increasing := fun type o o' id id' _ ho => (hempty ho).elim }

/-- The state of a run, without the ledger. -/
theorem run_fst (names : List Text) (es : List Event) :
    (run names es).1 = es.foldl step (.new names) := by
  have hfold : ∀ (es : List Event) (s : OvmsNotify) (L : List Posted),
      (es.foldl (fun p e => (step p.1 e, record p.1 p.2 e)) (s, L)).1 = es.foldl step s := by
    intro es
    induction es with
    | nil => exact fun _ _ => rfl
    | cons e es ih => exact fun s L => ih _ _
  exact hfold es _ _

/-- **The run lemma.** -/
theorem inv_run {names : List Text} {es : List Event} (h : Along step Admitted (.new names) es)
    (hwrap : Along step (fun s e => ¬ Wraps s e) (.new names) es) :
    Inv (run names es).1 (run names es).2 := by
  have hfold : ∀ (es : List Event) (s : OvmsNotify) (L : List Posted), Inv s L →
      Along step Admitted s es → Along step (fun s e => ¬ Wraps s e) s es →
      Inv (es.foldl (fun p e => (step p.1 e, record p.1 p.2 e)) (s, L)).1
        (es.foldl (fun p e => (step p.1 e, record p.1 p.2 e)) (s, L)).2 := by
    intro es
    induction es with
    | nil => exact fun _ _ hI _ _ => hI
    | cons e es ih => exact fun s L hI h hw => ih _ _ (hI.step h.1 hw.1) h.2 hw.2
  exact hfold es _ _ (inv_new names) h hwrap

/-! ### Counters -/

/-- The counters have counted the entries, up to their range. -/
def Counts (s : OvmsNotify) : Prop :=
  ∀ (type : Text) (t : OvmsNotifyType), s.types[type]? = some t →
    t.nextid = (1 + s.posted.countP fun p => p.1 = type) % 2 ^ 32

theorem counts_new (names : List Text) : Counts (.new names) := by
  intro type t ht
  rw [getElem?_types_new ht]
  obtain ⟨types, hnew⟩ := new_eq names
  rw [hnew]
  rfl

/-- Clearing a reader does not alter a counter. -/
theorem nextid_clearReader (t : OvmsNotifyType) (reader : ℕ) :
    (t.clearReader reader).1.nextid = t.nextid := by
  have hfold : ∀ (l : List (ℕ × OvmsNotifyEntry)) (u : OvmsNotifyType) (freed : List ℕ),
      (l.foldl (fun r p => ((r.1.markRead reader p.2).1, r.2 ++ (r.1.markRead reader p.2).2))
        (u, freed)).1.nextid = u.nextid := by
    intro l
    induction l with
    | nil => exact fun _ _ => rfl
    | cons p l ih => exact fun u freed => (ih _ _).trans (nextid_cleanup _ _)
  exact hfold _ t []

theorem Counts.settle (h : Counts s) {freed : List ℕ} (ht : s.types[type]? = some t)
    (hnextid : t'.nextid = t.nextid) : Counts (s.settle type (t', freed)) := by
  intro type' u hu
  obtain ⟨v, hv, hnext⟩ := exists_type_of_settle ht hnextid hu
  exact hnext.trans (h type' v hv)

/-- **Every step** keeps the counts. -/
theorem Counts.step (h : Counts s) (e : Event) : Counts (step s e) := by
  cases e with
  | registerReader mc => exact h
  | registerReaderAs mc => exact h
  | clearReader reader =>
      rw [Notify.step, OvmsNotify.clearReader]
      split <;> exact h
  | clearNext =>
      rw [Notify.step, OvmsNotify.clearNext.eq_def]
      split
      · exact h
      · exact h
      · split
        · exact h
        · next ht => exact h.settle ht (nextid_clearReader _ _)
  | notifyString type subtype value raised dispatched =>
      rw [Notify.step, OvmsNotify.notifyString]
      split
      · exact h
      · next t ht =>
          by_cases hbits : acceptingReaders s.readers raised subtype value.length = 0#_
          · simpa only [if_pos hbits] using h
          simp only [if_neg hbits]
          intro type' u hu
          rw [types_settle] at hu
          rw [List.countP_append, List.countP_singleton]
          split at hu
          · next heq =>
              obtain rfl := heq
              obtain rfl := Option.some.inj hu
              rw [nextid_queueEntry, h type t ht, decide_eq_true rfl, if_pos rfl]
              omega
          · next hne =>
              rw [decide_eq_false hne, if_neg Bool.false_ne_true]
              exact h type' u hu
  | markRead type id reader =>
      rw [Notify.step, OvmsNotify.markRead]
      split
      · exact h
      · next t ht =>
          split
          · exact h
          · exact h.settle ht (nextid_cleanup _ _)

theorem Counts.foldl (h : Counts s) (es : List Event) : Counts (es.foldl Notify.step s) := by
  induction es generalizing s with
  | nil => exact h
  | cons e es ih => exact ih (h.step e)

/-- **A counter that has wrapped** gives an entry a number that is not above those before. -/
theorem Counts.not_kept_of_wraps (h : Counts s) {e : Event} (hwrap : Wraps s e) :
    ¬ Kept (Notify.step s e) L := by
  intro hkept
  cases e with
  | notifyString type subtype value raised dispatched =>
      obtain ⟨hany, hbits⟩ := hwrap
      rcases ht : s.getType type with _ | t
      · rw [ht] at hany
        cases hany
      rw [ht, Option.any_some, beq_iff_eq] at hany
      have hzero : t.nextid = 0 := hany
      have hpos : 0 < s.posted.countP fun p => p.1 = type := by
        have := h type t ht
        omega
      obtain ⟨⟨type', id⟩, hmem, hname⟩ := List.countP_pos_iff.mp hpos
      obtain rfl := of_decide_eq_true hname
      obtain ⟨o, ho⟩ := List.mem_iff_getElem?.mp hmem
      have hposted : (Notify.step s (.notifyString type' subtype value raised dispatched)).posted
          = s.posted ++ [(type', 0)] := by
        rw [Notify.step, OvmsNotify.notifyString, ht]
        simp only [if_neg hbits, hzero]
      have hincreasing := hkept.increasing type' o s.posted.length id 0
        (List.getElem?_eq_some_iff.mp ho).1
      rw [hposted] at hincreasing
      exact Nat.not_lt_zero _ (hincreasing (getElem?_concat_eq_some.mpr (.inl ho))
        (getElem?_concat_eq_some.mpr (.inr ⟨rfl, rfl⟩)))
  | _ => exact hwrap

/-- **No notification is lost or kept too long** through a run exactly when no type numbers an
entry after its counter has wrapped. -/
theorem notifications_kept_iff {names : List Text} {es : List Event}
    (h : Along step Admitted (.new names) es) :
    (∀ pre, pre <+: es → Kept (run names pre).1 (run names pre).2) ↔
      Along step (fun s e => ¬ Wraps s e) (.new names) es := by
  constructor
  · intro hkept
    refine along_iff.mpr fun pre e post hes hwrap => ?_
    have hpre := hkept (pre ++ [e]) ⟨post, by rw [hes, List.append_assoc]; rfl⟩
    rw [run_fst, List.foldl_append] at hpre
    exact ((counts_new names).foldl pre).not_kept_of_wraps hwrap hpre
  · rintro hwrap pre ⟨post, rfl⟩
    exact (inv_run (along_append.mp h).1 (along_append.mp hwrap).1).kept_spec

/-- Two readers accept an entry: one processes it when it is dispatched, the other marks it as
read. -/
def twoReaders : List Event :=
  [.registerReader ⟨[0x61], false, 0, 100, false⟩,
    .registerReaderAs ⟨[0x62], false, 2, 100, false⟩,
    .notifyString [0x69] [] [] ⟨fun _ => [], fun _ => true, fun _ => true⟩
      ⟨fun _ => [], fun _ => true, fun r => r == 2⟩,
    .markRead [0x69] 1 1]

theorem notifications_kept_two :
    (∀ pre, pre <+: twoReaders → Kept (run [[0x69]] pre).1 (run [[0x69]] pre).2) ∧
      Along step (fun s e => ¬ Wraps s e) (.new [[0x69]]) twoReaders :=
  have hwraps : Along step (fun s e => ¬ Wraps s e) (.new [[0x69]]) twoReaders := by
    decide +kernel
  ⟨(notifications_kept_iff (by decide +kernel)).mpr hwraps, hwraps⟩

/-! ### A counter that wraps -/

/-- A reader. -/
def flooded : OvmsNotifyCallbackEntry := ⟨[0x61], false, 1, 100, false⟩

/-- An entry that it processes when it is dispatched. -/
def drop : Event :=
  .notifyString [0x69] [] [] ⟨fun _ => [], fun _ => true, fun _ => true⟩
    ⟨fun _ => [], fun _ => true, fun _ => true⟩

/-- A number of such entries. -/
def flood (n : ℕ) : List Event := .registerReader flooded :: List.replicate n drop

theorem flood_succ (n : ℕ) : flood (n + 1) = flood n ++ [drop] := by
  rw [flood, List.replicate_succ', flood, List.cons_append]

/-- While they come, only the type changes, and counts them. -/
theorem flood_spec (n : ℕ) :
    Along step Admitted (.new [[0x69]]) (flood n) ∧
      ∃ s, (flood n).foldl step (.new [[0x69]]) = s ∧ s.clearing = none ∧
        s.readers = (∅ : CallbackMap).insert 1 flooded ∧ (∃ t, s.getType [0x69] = some t) ∧
        (s.posted.countP fun p => p.1 = [0x69]) = n := by
  induction n with
  | zero => exact ⟨by decide +kernel, _, rfl, rfl, rfl, ⟨_, rfl⟩, rfl⟩
  | succ n ih =>
      obtain ⟨halong, s, hs, hclearing, hreaders, ⟨t, ht⟩, hcount⟩ := ih
      have hbits : acceptingReaders s.readers ⟨fun _ => [], fun _ => true, fun _ => true⟩ []
          ([] : Text).length ≠ 0#_ := by
        rw [hreaders]
        decide +kernel
      rw [flood_succ]
      refine ⟨along_append.mpr ⟨halong, hs ▸ hclearing, trivial⟩, step s drop, ?_, ?_⟩
      · rw [List.foldl_append, hs]
        rfl
      · rw [drop, step, OvmsNotify.notifyString, ht]
        simp only [if_neg hbits]
        refine ⟨hclearing, hreaders, ?_, ?_⟩
        · exact ⟨_, TreeMap.getElem?_insert_self⟩
        · rw [List.countP_append, hcount]
          rfl

/-- The entry after `2 ^ 32 - 1` others gets a number below theirs. -/
theorem notifications_wrapped :
    ¬ ∀ (names : List Text) (es : List Event), Along step Admitted (.new names) es →
      ∀ pre, pre <+: es → Kept (run names pre).1 (run names pre).2 := by
  intro hkept
  obtain ⟨halong, -⟩ := flood_spec (2 ^ 32 - 1 + 1)
  have hlast := hkept [[0x69]] _ halong _ (List.prefix_refl _)
  obtain ⟨-, s, hs, -, hreaders, ⟨t, ht⟩, hcount⟩ := flood_spec (2 ^ 32 - 1)
  rw [run_fst, flood_succ, List.foldl_append, hs] at hlast
  have hcounts : Counts s := hs ▸ (counts_new [[0x69]]).foldl _
  refine hcounts.not_kept_of_wraps (e := drop) ⟨?_, ?_⟩ hlast
  · rw [ht, Option.any_some, beq_iff_eq, hcounts _ t ht, hcount]
    rfl
  · rw [hreaders]
    decide +kernel

end Ovms.Notify
