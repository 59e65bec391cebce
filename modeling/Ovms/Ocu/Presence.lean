import Ovms.Ocu.Heartbeat

/-!
# Presence of the Original Unit

The keep-alive identifier `0x5A7` belongs to the online connection unit of the car. The
module sends it only while that unit is silent: a nonzero keep-alive of the unit resets
`m_oem_ocu_idle_ticks`, the one-second ticker counts it up, and the heartbeat is held back
below `VWEGOLF_BUS_TIMEOUT_SECS`. A session also ends by itself, because the ticker counts
its seconds.

Seconds are calls of the ticker, as in the code. A frame counts as received when the
receive path is called with it; that path sends the heartbeat before it looks at the
frame, so the frame that announces the unit can itself set off a heartbeat.
-/

open Ovms.Can

namespace Ovms.Ocu

/-! ### The history of the original unit -/

/-- One call's effect on the quiet time: a nonzero keep-alive of the unit restarts it, a
tick is one second of it. -/
def quietStep (q : Option ℕ) : Event → Option ℕ
  | .frame f _ => if OemOcu f.msgId f.data then some 0 else q
  | .ticker1 _ => q.map (· + 1)
  | _ => q

/-- Seconds since the last nonzero keep-alive of the unit, `none` when none was received. -/
def quietSecs (es : List Event) : Option ℕ := es.foldl quietStep none

theorem quietSecs_concat (es : List Event) (e : Event) :
    quietSecs (es ++ [e]) = quietStep (quietSecs es) e :=
  List.foldl_concat _ _ _ _

/-- The call transmits a keep-alive `0x5A7`. -/
def Transmits (s : VWeGolf) (e : Event) : Prop :=
  ∃ f ∈ (step s e).2, f.format = .std ∧ f.msgId = ocuId

/-- No keep-alive is transmitted before the unit has been quiet for the configured time. -/
def NeverImpersonates (es : List Event) : Prop :=
  ∀ pre e post, es = pre ++ e :: post → Transmits (pre.foldl next VWeGolf.boot) e →
    ∀ n, quietSecs (pre ++ [e]) = some n → busTimeoutSecs ≤ n

/-- The call is not a nonzero keep-alive of the unit that arrives at an open gate. -/
def Spares (s : VWeGolf) : Event → Prop
  | .frame f now => OemOcu f.msgId f.data → ¬ Beats s (.frame f now)
  | _ => True

/-- The idle counter is the quiet time, up to its bound of 254. -/
def Tracks (idle : ℕ) : Option ℕ → Prop
  | some n => idle = min n 254
  | none => busTimeoutSecs ≤ idle

/-- What is transmitted under the keep-alive identifier is the heartbeat. -/
theorem transmits_iff (s : VWeGolf) (e : Event) : Transmits s e ↔ Beats s e := by
  have silent : (step s e).2 = [] → ¬ Transmits s e := by
    rintro hout ⟨f, hf, -⟩
    rw [hout] at hf
    cases hf
  have foreign : (∀ f ∈ (step s e).2, f.format = .ext) → ¬ Transmits s e := by
    rintro hext ⟨f, hf, hstd, -⟩
    rw [hext f hf] at hstd
    cases hstd
  cases e with
  | lock pinCheck => exact iff_of_false (silent rfl) id
  | unlock pinCheck => exact iff_of_false (silent rfl) id
  | mirrorFoldIn => exact iff_of_false (silent rfl) id
  | horn => exact iff_of_false (silent rfl) id
  | indicators => exact iff_of_false (silent rfl) id
  | panic => exact iff_of_false (silent rfl) id
  | wakeup =>
      refine iff_of_false (foreign fun f hf => ?_) id
      rw [step, commandWakeup] at hf
      split at hf
      · cases hf
      · rcases List.mem_cons.mp hf with rfl | hf
        · rfl
        · rw [List.mem_singleton.mp hf]
          rfl
  | offline => exact iff_of_false (silent rfl) id
  | frame f now =>
      by_cases hbeat : Beats s (.frame f now)
      · refine iff_of_true ⟨writeStandard can3 0x5A7 (assemble s.requested).1, ?_, rfl, rfl⟩ hbeat
        rw [step, incomingFrameCan3_of_beats hbeat]
        exact List.mem_singleton_self _
      · exact iff_of_false
          (silent (congrArg Prod.snd (incomingFrameCan3_of_not_beats hbeat))) hbeat
  | ticker1 now =>
      by_cases hbeat : Beats s (.ticker1 now)
      · refine iff_of_true ⟨writeStandard can3 0x5A7 (assemble s.requested).1, ?_, rfl, rfl⟩ hbeat
        rw [step, ticker1_of_beats hbeat]
        exact List.mem_cons_of_mem _ (List.mem_singleton_self _)
      · exact iff_of_false (foreign (ticker1_of_not_beats hbeat).2) hbeat

/-- A tick keeps the counter in step with the quiet time. -/
theorem tracks_agePresence {s : VWeGolf} {q : Option ℕ} (h : Tracks s.oemOcuIdleTicks q) :
    Tracks (agePresence s).oemOcuIdleTicks (q.map (· + 1)) := by
  have haged : (agePresence s).oemOcuIdleTicks =
      if s.oemOcuIdleTicks < 254 then s.oemOcuIdleTicks + 1 else s.oemOcuIdleTicks := rfl
  rw [haged]
  cases q with
  | none =>
      simp only [Tracks, Option.map_none] at h ⊢
      split <;> omega
  | some n =>
      simp only [Tracks, Option.map_some] at h ⊢
      split <;> omega

theorem tracks_hear {s : VWeGolf} {q : Option ℕ} (f : CanFrame)
    (h : Tracks s.oemOcuIdleTicks q) :
    Tracks (hear s f).oemOcuIdleTicks (if OemOcu f.msgId f.data then some 0 else q) := by
  by_cases hoem : OemOcu f.msgId f.data
  · simp only [hear, if_pos hoem, Tracks, Nat.zero_min]
  · simpa only [hear, if_neg hoem] using h

/-- **Step lemma.** Every call keeps the counter in step with the quiet time. -/
theorem tracks_next {s : VWeGolf} {q : Option ℕ} (e : Event) (h : Tracks s.oemOcuIdleTicks q) :
    Tracks (next s e).oemOcuIdleTicks (quietStep q e) := by
  cases e with
  | lock pinCheck => cases pinCheck <;> exact h
  | unlock pinCheck => cases pinCheck <;> exact h
  | mirrorFoldIn => exact h
  | horn => exact h
  | indicators => exact h
  | panic => exact h
  | wakeup =>
      rw [next, step, commandWakeup]
      split <;> exact h
  | offline => exact h
  | frame f now =>
      have hidle : (next s (.frame f now)).oemOcuIdleTicks = (hear s f).oemOcuIdleTicks := by
        by_cases hbeat : Beats s (.frame f now)
        · exact congrArg (·.1.oemOcuIdleTicks) (incomingFrameCan3_of_beats hbeat)
        · exact congrArg (·.1.oemOcuIdleTicks) (incomingFrameCan3_of_not_beats hbeat)
      rw [hidle]
      exact tracks_hear f h
  | ticker1 now =>
      have hidle : (next s (.ticker1 now)).oemOcuIdleTicks = (agePresence s).oemOcuIdleTicks := by
        by_cases hbeat : Beats s (.ticker1 now)
        · exact congrArg (·.1.oemOcuIdleTicks) (ticker1_of_beats hbeat)
        · exact congrArg (·.oemOcuIdleTicks) (ticker1_of_not_beats hbeat).1
      rw [hidle]
      exact tracks_agePresence h

/-- **Run lemma.** After every history the counter is in step with the quiet time. -/
theorem tracks_run (es : List Event) :
    Tracks (es.foldl next VWeGolf.boot).oemOcuIdleTicks (quietSecs es) := by
  induction es using List.reverseRecOn with
  | nil => exact Nat.le_refl busTimeoutSecs
  | append_singleton es e ih =>
      rw [quietSecs_concat, List.foldl_concat]
      exact tracks_next e ih

/-- A heartbeat goes out within the quiet time exactly when the unit's own frame sets it
off. -/
theorem beats_quiet_iff {s : VWeGolf} {q : Option ℕ} (e : Event)
    (h : Tracks s.oemOcuIdleTicks q) :
    (Beats s e → ∀ n, quietStep q e = some n → busTimeoutSecs ≤ n) ↔ Spares s e := by
  cases e with
  | frame f now =>
      simp only [quietStep, Spares]
      by_cases hoem : OemOcu f.msgId f.data
      · simp only [hoem, if_true, true_implies]
        constructor
        · intro hquiet hbeat
          exact absurd (hquiet hbeat 0 rfl) (by decide)
        · intro hspared hbeat
          exact absurd hbeat hspared
      · simp only [hoem, if_false, false_implies, iff_true]
        rintro ⟨-, hdue, -⟩ n rfl
        exact Nat.le_trans hdue (Nat.le_trans (Nat.le_of_eq h) (Nat.min_le_left n 254))
  | ticker1 now =>
      refine iff_of_true ?_ trivial
      rintro ⟨-, -, hdue, -⟩ n hn
      have haged := tracks_agePresence h
      rw [quietStep] at hn
      rw [hn] at haged
      exact Nat.le_trans hdue (Nat.le_trans (Nat.le_of_eq haged) (Nat.min_le_left n 254))
  | _ => exact iff_of_true (fun hbeat => hbeat.elim) trivial

/-! ### The end of a session -/

/-- The calls of the ticker in a history. -/
def ticks (es : List Event) : ℕ :=
  es.countP fun e => match e with
    | .ticker1 _ => true
    | _ => false

/-- No wake-up is requested. -/
def NoWakeup (es : List Event) : Prop := ∀ e ∈ es, e ≠ .wakeup

/-- A session that is still active after `k` ticks has counted them, below its cap. -/
def Capped (k : ℕ) (s : VWeGolf) : Prop :=
  s.ocuActive = true → k ≤ s.ocuSessionSecs ∧ (0 < k → s.ocuSessionSecs < ocuSessionCapSecs)

/-- A tick counts one more second, or ends the session. -/
theorem capped_agePresence {k : ℕ} {s : VWeGolf} (h : Capped k s) :
    Capped (k + 1) (agePresence s) := by
  intro hact
  have hwas : s.ocuActive = true := (Bool.and_eq_true_iff.mp hact).1
  have hsession : (agePresence s).ocuSessionSecs =
      if s.ocuSessionSecs < 255 then s.ocuSessionSecs + 1 else s.ocuSessionSecs := by
    simp only [agePresence, hwas, Bool.true_and, decide_eq_true_eq]
  -- an active session has not reached the cap
  have hcap : (agePresence s).ocuSessionSecs < ocuSessionCapSecs := by
    have hends := (Bool.and_eq_true_iff.mp hact).2
    rw [Bool.not_eq_true', Bool.or_eq_false_iff, decide_eq_false_iff_not] at hends
    exact Nat.not_le.mp hends.2
  obtain ⟨hk, -⟩ := h hwas
  refine ⟨?_, fun _ => hcap⟩
  rw [hsession] at hcap ⊢
  split at hcap <;> simp only [ocuSessionCapSecs] at hcap <;> split <;> omega

/-- **Step lemma.** Every call but a wake-up keeps the count of the session. -/
theorem capped_next {k : ℕ} {s : VWeGolf} {e : Event} (he : e ≠ .wakeup) (h : Capped k s) :
    Capped (k + ticks [e]) (next s e) := by
  cases e with
  | lock pinCheck => cases pinCheck <;> exact h
  | unlock pinCheck => cases pinCheck <;> exact h
  | mirrorFoldIn => exact h
  | horn => exact h
  | indicators => exact h
  | panic => exact h
  | wakeup => exact absurd rfl he
  | offline => exact fun hact => absurd hact Bool.false_ne_true
  | frame f now =>
      rw [next, step]
      by_cases hbeat : Beats s (.frame f now)
      · rw [incomingFrameCan3_of_beats hbeat]
        exact h
      · rw [incomingFrameCan3_of_not_beats hbeat]
        exact h
  | ticker1 now =>
      rw [next, step]
      by_cases hbeat : Beats s (.ticker1 now)
      · rw [ticker1_of_beats hbeat]
        exact capped_agePresence h
      · rw [(ticker1_of_not_beats hbeat).1]
        exact capped_agePresence h

/-- **Run lemma.** A run without a wake-up counts its ticks. -/
theorem capped_run {es : List Event} (hes : NoWakeup es) {k : ℕ} {s : VWeGolf}
    (h : Capped k s) : Capped (k + ticks es) (es.foldl next s) := by
  induction es generalizing k s with
  | nil => exact h
  | cons e es ih =>
      have hsplit : k + ticks (e :: es) = k + ticks [e] + ticks es := by
        rw [ticks, ← List.singleton_append, List.countP_append, ← Nat.add_assoc]
        rfl
      rw [hsplit, List.foldl_cons]
      exact ih (fun x hx => hes x (List.mem_cons_of_mem e hx))
        (capped_next (hes e List.mem_cons_self) h)

theorem Capped.not_active {k : ℕ} {s : VWeGolf} (h : Capped k s) (hk : ocuSessionCapSecs ≤ k) :
    s.ocuActive = false := by
  rw [← Bool.not_eq_true]
  intro hact
  obtain ⟨hle, hlt⟩ := h hact
  have hpos : 0 < k := Nat.lt_of_lt_of_le (by decide) hk
  exact absurd (hlt hpos) (Nat.not_lt.mpr (Nat.le_trans hk hle))

/-- A call that ends or follows a full count of ticks sends nothing. -/
theorem silent_of_capped {k : ℕ} {s : VWeGolf} {e : Event} (he : e ≠ .wakeup) (h : Capped k s)
    (hk : ocuSessionCapSecs ≤ k + ticks [e]) : (step s e).2 = [] := by
  cases e with
  | wakeup => exact absurd rfl he
  | frame f now =>
      have hact := h.not_active hk
      have hbeat : ¬ Beats s (.frame f now) := fun hbeat => by
        rw [hbeat.1] at hact
        cases hact
      rw [step, incomingFrameCan3_of_not_beats hbeat]
  | ticker1 now =>
      have hact := (capped_agePresence h).not_active hk
      rw [step, ticker1]
      simp only [hact, Bool.false_and, Bool.false_eq_true, if_false]
  | _ => rfl

/-- Run by run: the quiet time is kept exactly when the unit's own frames find the gate
closed. -/
theorem neverImpersonates_iff_along (es : List Event) :
    NeverImpersonates es ↔ Lib.Along next Spares VWeGolf.boot es := by
  rw [Lib.along_iff, NeverImpersonates]
  refine forall₄_congr fun pre e post _ => ?_
  rw [transmits_iff, quietSecs_concat]
  exact beats_quiet_iff e (tracks_run pre)

/-- **The live unit.** In every run from construction, no keep-alive goes out within the
quiet time exactly when no nonzero keep-alive of the unit arrives while the session is
active and both gates are open. And in every run, a call that completes or follows
`VWEGOLF_OCU_SESSION_CAP_SECS` ticks without a wake-up sends nothing at all. -/
theorem never_impersonates_iff (es : List Event) :
    (NeverImpersonates es ↔ Lib.Along next Spares VWeGolf.boot es) ∧
      ∀ pre mid e post, es = pre ++ mid ++ e :: post → NoWakeup (mid ++ [e]) →
        ocuSessionCapSecs ≤ ticks (mid ++ [e]) →
        (step ((pre ++ mid).foldl next VWeGolf.boot) e).2 = [] := by
  refine ⟨neverImpersonates_iff_along es, ?_⟩
  rintro pre mid e post - hwake hticks
  have hmid : NoWakeup mid := fun x hx => hwake x (List.mem_append_left _ hx)
  have he : e ≠ .wakeup := hwake e (List.mem_append_right _ (List.mem_singleton_self e))
  have hstart : Capped 0 (pre.foldl next VWeGolf.boot) := fun _ =>
    ⟨Nat.zero_le _, fun h => absurd h (Nat.lt_irrefl 0)⟩
  rw [List.foldl_append]
  refine silent_of_capped he (capped_run hmid hstart) ?_
  rwa [Nat.zero_add, ticks, ticks, ← List.countP_append]

/-- The unit comes back to life in the middle of a session: its first nonzero keep-alive
sets off a heartbeat. -/
theorem answered_at_once :
    ¬ NeverImpersonates [.wakeup, .frame (writeStandard can3 0x5A7 [0x01]) 18] := by
  rw [neverImpersonates_iff_along]
  rintro ⟨-, hspared, -⟩
  exact hspared (by decide) ⟨rfl, by decide, by decide⟩

end Ovms.Ocu
