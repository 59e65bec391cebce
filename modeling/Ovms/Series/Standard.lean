import Ovms.Series.Model
import Ovms.Poll.Model

/-!
# The Standard Series

`OvmsPoller::StandardPollSeries` (`components/poller/src/vehicle_poller.cpp`) walks a list of
polls that ends with an entry without a module. Each entry has a bus, and for every poll state
an interval and a shift, in seconds. A cursor stands at the entry that was handed out last:
every call looks for the next one that is due, and with none left stays at the terminator.

An interval counts from the shift on: an entry is due every `polltime` seconds from `shift`
on, and one without an interval once, at its shift, if it has one.
-/

open Ovms.Poll

namespace Ovms.Series

/-! ### The list -/

/-- `VEHICLE_POLL_NSTATES`. -/
def vehiclePollNstates : ℕ := 4

/-- `poll_pid_t`, with the scheduling of the entry. -/
structure ListedPoll extends PollPid where
  polltime : Vector UInt16 vehiclePollNstates
  shift : Vector UInt8 vehiclePollNstates
  pollbus : UInt8
  deriving DecidableEq, Repr

/-- `entry = {}`. -/
def ListedPoll.zero : ListedPoll where
  toPollPid := .zero
  polltime := .replicate _ 0
  shift := .replicate _ 0
  pollbus := 0

/-- The members of `StandardPollSeries`. A pointer into the list is what lies from there on. -/
structure StandardPollSeries where
  stateOffset : UInt16
  defaultbus : UInt8
  plist : Option (List ListedPoll)
  plcur : Option (List ListedPoll)
  deriving DecidableEq, Repr

/-- A list with an entry without a module in it. -/
def Terminated (plist : List ListedPoll) : Prop := ∃ entry ∈ plist, entry.txmoduleid = 0

namespace StandardPollSeries

/-- `PollSeriesEntry::Ready`. -/
def ready (_ : StandardPollSeries) : Bool := true

/-- `PollSetPidList`. -/
def pollSetPidList (s : StandardPollSeries) (defaultbus : UInt8)
    (plist : Option (List ListedPoll)) : StandardPollSeries :=
  { s with plcur := none, plist := plist, defaultbus := defaultbus }

/-- `ResetList`. -/
def resetList (s : StandardPollSeries) (mode : ResetMode) : StandardPollSeries :=
  match mode with
  | .pollReset => { s with plcur := none }
  | .loopReset => s

/-- Whether the loop of `NextPollEntry` stops at an entry. -/
def matchesEntry (s : StandardPollSeries) (mybus : UInt8) (pollticker : UInt32)
    (pollstate : Fin vehiclePollNstates) (p : ListedPoll) : Bool :=
  let bus := if p.pollbus = 0 then s.defaultbus else p.pollbus
  if mybus = bus then
    let polltime := p.polltime[pollstate].toUInt32
    let pollshift := p.shift[pollstate].toUInt32
    (decide (polltime > 0) && decide (pollticker ≥ pollshift) &&
        decide ((pollticker - pollshift) % polltime = 0)) ||
      (decide (polltime = 0) && decide (pollshift > 0) && decide (pollticker = pollshift))
  else false

/-- The loop of `NextPollEntry`, with the cursor it leaves. -/
def seek (s : StandardPollSeries) (mybus : UInt8) (pollticker : UInt32)
    (pollstate : Fin vehiclePollNstates) :
    List ListedPoll → OvmsNextPollResult × ListedPoll × List ListedPoll
  -- behind the list: no terminated list gets here
  | [] => (.reachedEnd, .zero, [])
  | p :: rest =>
      if p.txmoduleid ≠ 0 then
        if s.matchesEntry mybus pollticker pollstate p then (.foundEntry, p, p :: rest)
        else s.seek mybus pollticker pollstate rest
      else (.reachedEnd, .zero, p :: rest)

/-- `NextPollEntry`. -/
def nextPollEntry (s : StandardPollSeries) (mybus : UInt8) (pollticker : UInt32)
    (pollstate : UInt8) : OvmsNextPollResult × ListedPoll × StandardPollSeries :=
  if !s.ready then (.notReady, .zero, s)
  else
    match s.plist with
    | none => (.notReady, .zero, s)
    | some plist =>
        if pollstate.toUInt16 < s.stateOffset then (.stillAtEnd, .zero, s)
        else
          let pollstate := pollstate.toNat - s.stateOffset.toNat
          if h : pollstate < vehiclePollNstates then
            match s.plcur with
            | none =>
                let r := s.seek mybus pollticker ⟨pollstate, h⟩ plist
                (r.1, r.2.1, { s with plcur := some r.2.2 })
            | some [] => (.stillAtEnd, .zero, s)
            | some (p :: rest) =>
                if p.txmoduleid = 0 then (.stillAtEnd, .zero, s)
                else
                  let r := s.seek mybus pollticker ⟨pollstate, h⟩ rest
                  (r.1, r.2.1, { s with plcur := some r.2.2 })
          else (.stillAtEnd, .zero, s)

/-- What a number of calls answer. -/
def calls (s : StandardPollSeries) (mybus : UInt8) (pollticker : UInt32) (pollstate : UInt8) :
    ℕ → List (OvmsNextPollResult × ListedPoll)
  | 0 => []
  | n + 1 =>
      let r := s.nextPollEntry mybus pollticker pollstate
      (r.1, r.2.1) :: r.2.2.calls mybus pollticker pollstate n

end StandardPollSeries

/-! ### What is due -/

/-- The bus of an entry, of a list with this default. -/
def ListedPoll.bus (p : ListedPoll) (defaultbus : UInt8) : UInt8 :=
  if p.pollbus = 0 then defaultbus else p.pollbus

/-- An interval is over: counted from the shift on, or, without an interval, at the shift. -/
def ListedPoll.Timed (p : ListedPoll) (pollticker : ℕ) (i : Fin vehiclePollNstates) : Prop :=
  if p.polltime[i] = 0 then p.shift[i] ≠ 0 ∧ pollticker = p.shift[i].toNat
  else p.shift[i].toNat ≤ pollticker ∧ p.polltime[i].toNat ∣ pollticker - p.shift[i].toNat

instance (p : ListedPoll) (pollticker : ℕ) (i : Fin vehiclePollNstates) :
    Decidable (p.Timed pollticker i) :=
  inferInstanceAs (Decidable (if p.polltime[i] = 0 then
      p.shift[i] ≠ 0 ∧ pollticker = p.shift[i].toNat
    else p.shift[i].toNat ≤ pollticker ∧ p.polltime[i].toNat ∣ pollticker - p.shift[i].toNat))

/-- An entry is due on a bus, at a tick, in a poll state. -/
def ListedPoll.Due (p : ListedPoll) (defaultbus mybus : UInt8) (pollticker : UInt32)
    (i : Fin vehiclePollNstates) : Prop :=
  p.bus defaultbus = mybus ∧ p.Timed pollticker.toNat i

instance (p : ListedPoll) (defaultbus mybus : UInt8) (pollticker : UInt32)
    (i : Fin vehiclePollNstates) : Decidable (p.Due defaultbus mybus pollticker i) :=
  inferInstanceAs (Decidable (_ ∧ _))

/-- The entries before the terminator that satisfy a predicate. -/
def selected (due : ListedPoll → Bool) (plist : List ListedPoll) : List ListedPoll :=
  (plist.takeWhile fun p => p.txmoduleid ≠ 0).filter due

/-- The first `n` answers of an iterator over some entries: each of them, the end once, and
from then on that it is still there. -/
def enumeration (entries : List ListedPoll) (n : ℕ) : List (OvmsNextPollResult × ListedPoll) :=
  (entries.map (fun p => (OvmsNextPollResult.foundEntry, p)) ++
    (OvmsNextPollResult.reachedEnd, ListedPoll.zero) ::
      List.replicate n (OvmsNextPollResult.stillAtEnd, ListedPoll.zero)).take n

/-- The first answer is the first entry. -/
theorem enumeration_cons (p : ListedPoll) (entries : List ListedPoll) (n : ℕ) :
    enumeration (p :: entries) (n + 1) = (.foundEntry, p) :: enumeration entries n := by
  rw [enumeration, enumeration, List.map_cons, List.cons_append, List.take_succ_cons,
    List.replicate_succ', ← List.cons_append, ← List.append_assoc]
  congr 1
  refine List.take_append_of_le_length ?_
  rw [List.length_append, List.length_cons, List.length_replicate]
  omega

theorem enumeration_nil (n : ℕ) :
    enumeration [] (n + 1) = (.reachedEnd, .zero) :: List.replicate n (.stillAtEnd, .zero) := by
  rw [enumeration, List.map_nil, List.nil_append, List.take_succ_cons, List.take_replicate]
  congr 2
  omega

/-- The comparison of the loop is one of numbers. -/
theorem StandardPollSeries.matchesEntry_iff (s : StandardPollSeries) (mybus : UInt8)
    (pollticker : UInt32) (i : Fin vehiclePollNstates) (p : ListedPoll) :
    s.matchesEntry mybus pollticker i p = true ↔ p.Due s.defaultbus mybus pollticker i := by
  rw [matchesEntry, ListedPoll.Due, ListedPoll.bus, ListedPoll.Timed]
  dsimp only
  generalize p.polltime[i] = polltime
  generalize p.shift[i] = pollshift
  have htime : polltime = 0 ↔ polltime.toNat = 0 := by rw [← UInt16.toNat_inj]; rfl
  have hshift : pollshift = 0 ↔ pollshift.toNat = 0 := by rw [← UInt8.toNat_inj]; rfl
  by_cases hbus : mybus = if p.pollbus = 0 then s.defaultbus else p.pollbus
  · rw [if_pos hbus]
    simp only [Bool.or_eq_true, Bool.and_eq_true, decide_eq_true_eq, gt_iff_lt, ge_iff_le,
      UInt32.lt_iff_toNat_lt, UInt32.le_iff_toNat_le, ← UInt32.toNat_inj, UInt32.toNat_mod,
      UInt16.toNat_toUInt32, UInt8.toNat_toUInt32, UInt32.toNat_zero]
    by_cases hzero : polltime = 0
    · have hnat := htime.mp hzero
      rw [if_pos hzero, Ne, hshift]
      simp only [hbus, hnat, lt_irrefl, false_and, false_or, true_and, Nat.pos_iff_ne_zero]
    · have hnat : polltime.toNat ≠ 0 := fun h => hzero (htime.mpr h)
      rw [if_neg hzero, Nat.dvd_iff_mod_eq_zero]
      simp only [hbus, hnat, Nat.pos_of_ne_zero hnat, false_and, or_false, true_and]
      refine and_congr_right fun hle => ?_
      rw [UInt32.toNat_sub_of_le _ _ (UInt32.le_iff_toNat_le.mpr
        (by rwa [UInt8.toNat_toUInt32])), UInt8.toNat_toUInt32]
  · rw [if_neg hbus]
    simp [Ne.symm hbus]

namespace StandardPollSeries

variable {s : StandardPollSeries} {mybus : UInt8} {pollticker : UInt32} {pollstate : UInt8}

/-- The state whose entries are looked at. -/
def stateIndex (s : StandardPollSeries) (pollstate : UInt8) : Option (Fin vehiclePollNstates) :=
  if s.stateOffset.toNat ≤ pollstate.toNat then
    if h : pollstate.toNat - s.stateOffset.toNat < vehiclePollNstates then
      some ⟨pollstate.toNat - s.stateOffset.toNat, h⟩
    else none
  else none

/-- What the next call looks through, if the cursor is not at the terminator. -/
def ahead (s : StandardPollSeries) (plist : List ListedPoll) : Option (List ListedPoll) :=
  match s.plcur with
  | none => some plist
  | some [] => none
  | some (p :: rest) => if p.txmoduleid = 0 then none else some rest

/-- A call looks through what is ahead, in a state that there are intervals for. -/
theorem nextPollEntry_eq {plist : List ListedPoll} (hlist : s.plist = some plist) :
    s.nextPollEntry mybus pollticker pollstate =
      match s.stateIndex pollstate, s.ahead plist with
      | some i, some l =>
          ((s.seek mybus pollticker i l).1, (s.seek mybus pollticker i l).2.1,
            { s with plcur := some (s.seek mybus pollticker i l).2.2 })
      | _, _ => (.stillAtEnd, .zero, s) := by
  have hlt : pollstate.toUInt16 < s.stateOffset ↔ ¬ s.stateOffset.toNat ≤ pollstate.toNat := by
    rw [UInt16.lt_iff_toNat_lt, UInt8.toNat_toUInt16, Nat.not_le]
  rw [nextPollEntry, hlist]
  by_cases hle : s.stateOffset.toNat ≤ pollstate.toNat
  · by_cases h : pollstate.toNat - s.stateOffset.toNat < vehiclePollNstates
    · rcases hcur : s.plcur with _ | _ | ⟨p, rest⟩
      · simp [ready, stateIndex, ahead, hlt, hle, h, hcur]
      · simp [ready, stateIndex, ahead, hlt, hle, h, hcur]
      · by_cases hp : p.txmoduleid = 0 <;>
          simp [ready, stateIndex, ahead, hlt, hle, h, hcur, hp]
    · simp [ready, stateIndex, hlt, hle, h]
  · simp [ready, stateIndex, hlt, hle]

/-! ### The calls -/

/-- At the terminator, or in a state that there are no intervals for, every call stays where it
is. -/
theorem calls_of_stays {plist : List ListedPoll} (hlist : s.plist = some plist)
    (h : s.stateIndex pollstate = none ∨ s.ahead plist = none) (n : ℕ) :
    s.calls mybus pollticker pollstate n = List.replicate n (.stillAtEnd, .zero) := by
  have hcall : s.nextPollEntry mybus pollticker pollstate = (.stillAtEnd, .zero, s) := by
    rw [nextPollEntry_eq hlist]
    rcases h with h | h
    · rw [h]
    · cases s.stateIndex pollstate <;> rw [h]
  induction n with
  | zero => rfl
  | succ n ih => rw [calls, hcall, ih, List.replicate_succ]

/-- The loop stops at the first entry that is due, or at the terminator. -/
theorem seek_cases (s : StandardPollSeries) (mybus : UInt8) (pollticker : UInt32)
    (i : Fin vehiclePollNstates) {l : List ListedPoll} (hend : Terminated l) :
    (∃ p rest, s.seek mybus pollticker i l = (.foundEntry, p, p :: rest) ∧ p.txmoduleid ≠ 0 ∧
      Terminated rest ∧ selected (fun q => q.Due s.defaultbus mybus pollticker i) l =
        p :: selected (fun q => q.Due s.defaultbus mybus pollticker i) rest) ∨
    (∃ p rest, s.seek mybus pollticker i l = (.reachedEnd, .zero, p :: rest) ∧
      p.txmoduleid = 0 ∧ selected (fun q => q.Due s.defaultbus mybus pollticker i) l = []) := by
  induction l with
  | nil =>
      obtain ⟨p, hp, -⟩ := hend
      cases hp
  | cons p rest ih =>
      by_cases hp : p.txmoduleid = 0
      · refine .inr ⟨p, rest, ?_, hp, ?_⟩
        · rw [seek, if_neg (not_not.mpr hp)]
        · rw [selected, List.takeWhile_cons_of_neg (by simpa using hp), List.filter_nil]
      · have hrest : Terminated rest := by
          obtain ⟨q, hq, hzero⟩ := hend
          obtain rfl | hq := List.mem_cons.mp hq
          · exact absurd hzero hp
          · exact ⟨q, hq, hzero⟩
        have htake : (p :: rest).takeWhile (fun p => decide (p.txmoduleid ≠ 0)) =
            p :: rest.takeWhile fun p => decide (p.txmoduleid ≠ 0) :=
          List.takeWhile_cons_of_pos (by simpa using hp)
        by_cases hdue : p.Due s.defaultbus mybus pollticker i
        · refine .inl ⟨p, rest, ?_, hp, hrest, ?_⟩
          · rw [seek, if_pos hp, if_pos ((s.matchesEntry_iff ..).mpr hdue)]
          · rw [selected, htake, List.filter_cons_of_pos (by simpa using hdue), selected]
        · have hskip : s.seek mybus pollticker i (p :: rest) =
              s.seek mybus pollticker i rest := by
            rw [seek, if_pos hp, if_neg (fun h => hdue ((s.matchesEntry_iff ..).mp h))]
          have hselect : selected (fun q => q.Due s.defaultbus mybus pollticker i) (p :: rest) =
              selected (fun q => q.Due s.defaultbus mybus pollticker i) rest := by
            rw [selected, htake, List.filter_cons_of_neg (by simpa using hdue), selected]
          rw [hskip, hselect]
          exact ih hrest

/-- From wherever the next call looks on, the calls enumerate what is due of the rest. -/
theorem calls_of_ahead {plist l : List ListedPoll} {i : Fin vehiclePollNstates}
    (hlist : s.plist = some plist) (hstate : s.stateIndex pollstate = some i)
    (hahead : s.ahead plist = some l) (hend : Terminated l) (n : ℕ) :
    s.calls mybus pollticker pollstate n =
      enumeration (selected (fun p => p.Due s.defaultbus mybus pollticker i) l) n := by
  induction n generalizing s l with
  | zero => rw [calls, enumeration, List.take_zero]
  | succ n ih =>
      rw [calls, nextPollEntry_eq hlist, hstate, hahead]
      dsimp only
      rcases s.seek_cases mybus pollticker i hend with
        ⟨p, rest, hseek, hp, hrest, hselect⟩ | ⟨p, rest, hseek, hp, hselect⟩
      · rw [hseek, hselect, enumeration_cons]
        congr 1
        exact ih (s := { s with plcur := some (p :: rest) }) hlist hstate (if_neg hp) hrest
      · rw [hseek, hselect, enumeration_nil]
        congr 1
        exact calls_of_stays (s := { s with plcur := some (p :: rest) }) hlist
          (.inr (if_pos hp)) n

end StandardPollSeries

/-! ### The series -/

/-- **After a reset the calls enumerate the entries that are due**, in a poll state that there
are intervals for; in any other the series is at its end. -/
theorem calls_resetList (s : StandardPollSeries) {plist : List ListedPoll}
    (hlist : s.plist = some plist) (hend : Terminated plist) (mybus : UInt8)
    (pollticker : UInt32) (pollstate : UInt8) (n : ℕ) :
    (s.resetList .pollReset).calls mybus pollticker pollstate n =
      match s.stateIndex pollstate with
      | some i => enumeration
          (selected (fun p => p.Due s.defaultbus mybus pollticker i) plist) n
      | none => List.replicate n (.stillAtEnd, .zero) := by
  cases hstate : s.stateIndex pollstate with
  | none =>
      exact StandardPollSeries.calls_of_stays (s := s.resetList .pollReset) hlist (.inl hstate) n
  | some i =>
      exact StandardPollSeries.calls_of_ahead (s := s.resetList .pollReset) hlist hstate rfl
        hend n

/-- An entry that is polled every ten seconds, from the third on. -/
def shiftedPoll : ListedPoll where
  toPollPid := { PollPid.zero with txmoduleid := 0x7df }
  polltime := #v[10, 10, 10, 10]
  shift := #v[3, 3, 3, 3]
  pollbus := 1

/-- With it a series that has something to poll at the thirteenth second. -/
theorem calls_resetList_shiftedPoll :
    ((⟨0, 1, some [shiftedPoll, .zero], none⟩ : StandardPollSeries).resetList .pollReset).calls
      1 13 0 3 = [(.foundEntry, shiftedPoll), (.reachedEnd, .zero), (.stillAtEnd, .zero)] :=
  (calls_resetList ⟨0, 1, some [shiftedPoll, .zero], none⟩ rfl
    ⟨.zero, List.mem_cons_of_mem _ (List.mem_cons_self ..), rfl⟩ 1 13 0 3).trans (by decide)

/-- **Not every multiple of an interval is one**: a shift moves them. -/
theorem calls_ne_multiples :
    ¬ ∀ (s : StandardPollSeries) (plist : List ListedPoll) (mybus : UInt8) (pollticker : UInt32)
        (pollstate : UInt8) (i : Fin vehiclePollNstates) (n : ℕ), s.plist = some plist →
      Terminated plist → s.stateIndex pollstate = some i →
      (s.resetList .pollReset).calls mybus pollticker pollstate n = enumeration
        (selected (fun p => p.bus s.defaultbus = mybus ∧ p.polltime[i] ≠ 0 ∧
          p.polltime[i].toNat ∣ pollticker.toNat) plist) n := by
  intro h
  have hten := h ⟨0, 1, some [shiftedPoll, .zero], none⟩ [shiftedPoll, .zero] 1 10 0
    ⟨0, by decide⟩ 1 rfl ⟨.zero, List.mem_cons_of_mem _ (List.mem_cons_self ..), rfl⟩ rfl
  revert hten
  decide

end Ovms.Series
