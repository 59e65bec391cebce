import Mathlib.Algebra.Ring.Nat
import Mathlib.Data.Int.Notation
import Mathlib.Data.List.Basic
import Ovms.Lib.Machine

/-!
# Shutting Down

A restart, or deep sleep, on request (`main/ovms_boot.cpp`). The event `system.shuttingdown` is
signalled, and components that have something to finish report that they are pending, and later
that they are ready. When none is pending any more, or 70 ticks after the request, `system.shutdown`
is signalled, and the chip restarts.

There is one counter of those pending and one countdown. When the counter gets to zero, two ticks
are left. So a component that reports pending after that may not be waited for; and a second
request starts both anew, while the first is still under way.
-/

open Lib

namespace Ovms.Shutdown

/-! ### The boot component -/

/-- What is asked for: `Restart(false)` or one of the two `DeepSleep`s. -/
inductive Request where
  | restart
  | deepSleep (seconds : UInt32)
  | deepSleepUntil (waketime : ℤ)
  deriving DecidableEq, Repr

/-- The members of `Boot` for a shutdown. -/
structure Boot where
  shutdownTimer : ℕ
  shutdownPending : UInt32
  shutdownDeepsleep : Bool
  shutdownDeepsleepSeconds : UInt32
  shutdownDeepsleepWaketime : ℤ
  shuttingDown : Bool
  deriving DecidableEq, Repr

/-- What the constructor leaves. -/
def Boot.init : Boot := ⟨0, 0, false, 0, 0, false⟩

/-- `Boot::DeepSleep` notes for how long. -/
def Boot.note (b : Boot) : Request → Boot
  | .restart => b
  | .deepSleep seconds =>
      { b with
        shutdownDeepsleep := true
        shutdownDeepsleepSeconds := seconds
        shutdownDeepsleepWaketime := 0 }
  | .deepSleepUntil waketime =>
      { b with
        shutdownDeepsleep := true
        shutdownDeepsleepSeconds := 0
        shutdownDeepsleepWaketime := waketime }

/-- `Boot::Restart`: they are given 70 seconds. -/
def Boot.restart (b : Boot) (r : Request) : Boot :=
  { b.note r with shuttingDown := true, shutdownPending := 0, shutdownTimer := 70 }

/-- `boot_shuttingdown_done`. -/
def Boot.shuttingdownDone (b : Boot) : Boot :=
  if b.shutdownPending = 0 then { b with shutdownTimer := 2 } else b

/-- `Boot::ShutdownPending`. -/
def Boot.pending (b : Boot) : Boot := { b with shutdownPending := b.shutdownPending + 1 }

/-- `Boot::ShutdownReady`. -/
def Boot.ready (b : Boot) : Boot :=
  let b := { b with shutdownPending := b.shutdownPending - 1 }
  if b.shutdownPending = 0 then { b with shutdownTimer := 2 } else b

/-- `Boot::Ticker1`, and whether it signals `system.shutdown`. -/
def Boot.ticker1 (b : Boot) : Boot × Bool :=
  if 0 < b.shutdownTimer then
    ({ b with shutdownTimer := b.shutdownTimer - 1 }, b.shutdownTimer - 1 = 0)
  else (b, false)

/-! ### Events -/

/-- What is in the queue of the event task: the events that matter here, and that the handler of
the tickers is to be registered. -/
inductive Message where
  | shuttingdown
  | addTicker1
  | ticker1
  | shutdown
  deriving DecidableEq, Repr

/-- The boot component with the event task. A component reports once for each
`system.shuttingdown`: a report is a component and the number of the event. -/
structure System where
  boot : Boot
  queue : List Message
  /-- How often `Ticker1` is registered. -/
  registered : ℕ
  /-- The chip has restarted, or sleeps. -/
  halted : Bool
  /-- The events `system.shuttingdown` that all handlers have got. -/
  delivered : ℕ
  /-- Who has reported pending. -/
  reported : List (ℕ × ℕ)
  /-- Who has not reported ready since. -/
  waiting : List (ℕ × ℕ)
  /-- The ticks since the last request. -/
  ticks : ℕ
  /-- How often `system.shutdown` was signalled. -/
  signalled : ℕ
  deriving DecidableEq, Repr

/-- Before any request. -/
def System.init : System where
  boot := .init
  queue := []
  registered := 0
  halted := false
  delivered := 0
  reported := []
  waiting := []
  ticks := 0
  signalled := 0

/-- The handlers of an event have begun to get it. -/
def System.Begun (s : System) (k : ℕ) : Prop :=
  k < s.delivered ∨ k = s.delivered ∧ s.queue.head? = some .shuttingdown

instance (s : System) (k : ℕ) : Decidable (s.Begun k) := inferInstanceAs (Decidable (_ ∨ _))

/-- What can happen. -/
inductive Event where
  | request (r : Request)
  | pending (component k : ℕ)
  | ready (component k : ℕ)
  /-- The timer signals `ticker.1`. -/
  | tick
  /-- The event task is through with the first message. -/
  | deliver
  deriving DecidableEq, Repr

/-- The calls of `Ticker1` at one tick. -/
def System.tickers : ℕ → System → System
  | 0, s => s
  | n + 1, s =>
      let b := s.boot.ticker1
      System.tickers n (if b.2 then
        { s with boot := b.1, queue := s.queue ++ [.shutdown], signalled := s.signalled + 1 }
      else { s with boot := b.1 })

/-- The event task takes a message; the chip restarts behind `system.shutdown`. -/
def System.take (s : System) : Message → System
  | .shuttingdown => { s with boot := s.boot.shuttingdownDone, delivered := s.delivered + 1 }
  | .addTicker1 => { s with registered := s.registered + 1 }
  | .ticker1 => { s with ticks := s.ticks + 1 }.tickers s.registered
  | .shutdown => { s with halted := true }

/-- The state behind an event while the chip runs, if it can happen. -/
def System.next (s : System) : Event → Option System
  | .request r =>
      some { s with
        boot := s.boot.restart r, queue := s.queue ++ [.shuttingdown, .addTicker1], ticks := 0 }
  | .pending component k =>
      if s.Begun k ∧ (component, k) ∉ s.reported then
        some { s with
          boot := s.boot.pending
          reported := (component, k) :: s.reported
          waiting := (component, k) :: s.waiting }
      else none
  | .ready component k =>
      if (component, k) ∈ s.waiting then
        some { s with boot := s.boot.ready, waiting := s.waiting.erase (component, k) }
      else none
  | .tick => some { s with queue := s.queue ++ [.ticker1] }
  | .deliver =>
      match s.queue with
      | [] => none
      | message :: rest => some ({ s with queue := rest }.take message)

/-- The state behind an event; nothing happens when the chip has restarted. -/
def System.step (s : System) (e : Event) : Option System := if s.halted then none else s.next e

/-! ### What should hold -/

/-- The shutdown is signalled once, and not before everyone that has reported pending is ready,
unless 70 ticks have passed. -/
def Orderly (s : System) (e : Event) : Prop :=
  ∀ s', s.step e = some s' → s'.signalled ≤ 1 ∧
    (s.signalled < s'.signalled → s'.waiting = [] ∨ 70 ≤ s'.ticks)

instance (s : System) (e : Event) : Decidable (Orderly s e) :=
  match h : s.step e with
  | none => isTrue fun s' hs' => absurd (h.symm.trans hs') (Option.some_ne_none s').symm
  | some s' =>
      decidable_of_iff (s'.signalled ≤ 1 ∧
          (s.signalled < s'.signalled → s'.waiting = [] ∨ 70 ≤ s'.ticks))
        ⟨fun hs' _ ht => Option.some.inj (h.symm.trans ht) ▸ hs', fun hs' => hs' s' h⟩

/-- The ticks that come before the shutdown. -/
def ahead (queue : List Message) : ℕ := (queue.takeWhile (· ≠ .shutdown)).count .ticker1

/-- There is no second request. Nobody reports pending while the countdown, cut short, would end
before the 70 ticks have passed, and not 2^32 do. When the counter gets to zero after the shutdown
was signalled, not two ticks come before it. -/
def Undisturbed (s : System) : Event → Prop
  | .request _ => s.boot.shuttingDown = false
  | .pending _ _ =>
      (s.boot.shutdownTimer = 0 ∨ 70 ≤ s.boot.shutdownTimer + s.ticks) ∧
        s.waiting.length + 1 < 2 ^ 32
  | .ready _ _ => s.signalled = 0 ∨ s.boot.shutdownPending ≠ 1 ∨ ahead s.queue < 2
  | .tick => True
  | .deliver => True

instance (s : System) : (e : Event) → Decidable (Undisturbed s e)
  | .request _ => inferInstanceAs (Decidable (_ = _))
  | .pending _ _ => inferInstanceAs (Decidable (_ ∧ _))
  | .ready _ _ => inferInstanceAs (Decidable (_ ∨ _))
  | .tick => isTrue trivial
  | .deliver => isTrue trivial

/-- What the queue holds, from the request on, by how often `Ticker1` is registered and the
shutdown was signalled, and by the countdown. -/
inductive Queued (timer : ℕ) : ℕ → ℕ → List Message → Prop where
  | coming (n m : ℕ) : Queued timer 0 0
      (List.replicate n .ticker1 ++ .shuttingdown :: .addTicker1 :: List.replicate m .ticker1)
  | adding (m : ℕ) : Queued timer 0 0 (.addTicker1 :: List.replicate m .ticker1)
  | counting (m : ℕ) : Queued timer 1 0 (List.replicate m .ticker1)
  | leaving (n m : ℕ) (h : timer = 0 ∨ n < timer) : Queued timer 1 1
      (List.replicate n .ticker1 ++ .shutdown :: List.replicate m .ticker1)

/-- Before the request. -/
structure Idle (s : System) : Prop where
  boot : s.boot.shuttingDown = false
  queue : ∃ n, s.queue = List.replicate n .ticker1
  registered : s.registered = 0
  delivered : s.delivered = 0
  waiting : s.waiting = []
  signalled : s.signalled = 0
  timer : s.boot.shutdownTimer = 0

/-- From the request on. The counter counts those that are waited for, and the countdown is long
enough for them. -/
structure Closing (s : System) : Prop where
  boot : s.boot.shuttingDown = true
  pending : s.boot.shutdownPending.toNat = s.waiting.length
  queue : Queued s.boot.shutdownTimer s.registered s.signalled s.queue
  timer : s.signalled = 0 → 0 < s.boot.shutdownTimer
  enough : s.signalled = 0 → s.waiting ≠ [] → 70 ≤ s.boot.shutdownTimer + s.ticks

/-- What holds in an undisturbed run. -/
inductive Inv (s : System) : Prop where
  | idle (h : Idle s)
  | closing (h : Closing s)
  | halted (h : s.halted = true) (hsignalled : s.signalled = 1)

/-! ### The queue -/

variable {s s' : System} {timer registered signalled : ℕ} {queue : List Message}

/-- A tick is signalled. -/
theorem Queued.tick (h : Queued timer registered signalled queue) :
    Queued timer registered signalled (queue ++ [.ticker1]) := by
  have hsnoc (m : ℕ) : List.replicate m Message.ticker1 ++ [.ticker1] =
      List.replicate (m + 1) .ticker1 := List.replicate_succ'.symm
  cases h with
  | coming n m => simpa [hsnoc] using (Queued.coming n (m + 1) : Queued timer 0 0 _)
  | adding m => simpa [hsnoc] using (Queued.adding (m + 1) : Queued timer 0 0 _)
  | counting m => simpa [hsnoc] using (Queued.counting (m + 1) : Queued timer 1 0 _)
  | leaving n m h => simpa [hsnoc] using Queued.leaving n (m + 1) h

theorem ahead_leaving (n : ℕ) (rest : List Message) :
    ahead (List.replicate n .ticker1 ++ .shutdown :: rest) = n := by
  rw [ahead, List.takeWhile_append_of_pos (by simp)]
  simp

theorem Queued.countdown {timer' : ℕ} (h : Queued timer registered signalled queue)
    (h' : signalled ≠ 0 → ahead queue < timer') : Queued timer' registered signalled queue := by
  cases h with
  | coming n m => exact .coming n m
  | adding m => exact .adding m
  | counting m => exact .counting m
  | leaving n m => exact .leaving n m (.inr (by rw [← ahead_leaving n]; exact h' Nat.one_ne_zero))

theorem Queued.signalled_le (h : Queued timer registered signalled queue) : signalled ≤ 1 := by
  cases h <;> simp

/-! ### Steps -/

/-- A shutdown is asked for. -/
theorem Idle.request (h : Idle s) (r : Request) : Closing { s with
    boot := s.boot.restart r, queue := s.queue ++ [.shuttingdown, .addTicker1], ticks := 0 } where
  boot := rfl
  pending := by rw [h.waiting]; rfl
  queue := by
    obtain ⟨n, hn⟩ := h.queue
    rw [h.registered, h.signalled, hn]
    exact .coming n 0
  timer _ := Nat.succ_pos 69
  enough _ _ := Nat.le_refl 70

theorem Idle.not_begun (h : Idle s) (k : ℕ) : ¬ s.Begun k := by
  obtain ⟨n, hn⟩ := h.queue
  rw [System.Begun, h.delivered, hn]
  cases n <;> simp [List.replicate_succ]

/-- A component reports pending. -/
theorem Closing.pending_step (h : Closing s) (component k : ℕ)
    (hpending : (s.boot.shutdownTimer = 0 ∨ 70 ≤ s.boot.shutdownTimer + s.ticks) ∧
      s.waiting.length + 1 < 2 ^ 32) : Closing { s with
        boot := s.boot.pending
        reported := (component, k) :: s.reported
        waiting := (component, k) :: s.waiting } where
  boot := h.boot
  pending := by
    have hcount := h.pending
    simp only [Boot.pending, List.length_cons, UInt32.toNat_add, UInt32.reduceToNat, hcount]
    exact Nat.mod_eq_of_lt hpending.2
  queue := h.queue
  timer := h.timer
  enough hsignalled _ := hpending.1.resolve_left (Nat.ne_of_gt (h.timer hsignalled))

/-- A component reports ready. -/
theorem Closing.ready_step (h : Closing s) {component k : ℕ} (hmem : (component, k) ∈ s.waiting)
    (hready : s.signalled = 0 ∨ s.boot.shutdownPending ≠ 1 ∨ ahead s.queue < 2) :
    Closing { s with boot := s.boot.ready, waiting := s.waiting.erase (component, k) } := by
  have hpos : 0 < s.waiting.length := List.length_pos_of_mem hmem
  have hcount : (s.boot.shutdownPending - 1).toNat = (s.waiting.erase (component, k)).length := by
    rw [List.length_erase_of_mem hmem, ← h.pending]
    refine UInt32.toNat_sub_of_le _ _ ?_
    rw [UInt32.le_iff_toNat_le, h.pending]
    exact hpos
  by_cases hzero : s.boot.shutdownPending - 1 = 0
  · have hready' : s.boot.ready =
        { s.boot with shutdownPending := s.boot.shutdownPending - 1, shutdownTimer := 2 } :=
      if_pos hzero
    have hnil : s.waiting.erase (component, k) = [] :=
      List.eq_nil_of_length_eq_zero (by rw [← hcount, hzero]; rfl)
    have hone : s.boot.shutdownPending = 1 := by
      rw [← UInt32.sub_add_cancel s.boot.shutdownPending 1, hzero]
      rfl
    rw [hready']
    refine ⟨h.boot, hcount, h.queue.countdown fun hsignalled => ?_, fun _ => Nat.succ_pos 1,
      fun _ hne => absurd hnil hne⟩
    rcases hready with hzero | hne | hahead
    · exact absurd hzero hsignalled
    · exact absurd hone hne
    · exact hahead
  · have hready' : s.boot.ready =
        { s.boot with shutdownPending := s.boot.shutdownPending - 1 } := if_neg hzero
    rw [hready']
    exact ⟨h.boot, hcount, h.queue, h.timer,
      fun hsignalled _ => h.enough hsignalled (List.ne_nil_of_mem hmem)⟩

theorem tickers_one (s : System) : s.tickers 1 =
    if s.boot.ticker1.2 then
      { s with
        boot := s.boot.ticker1.1, queue := s.queue ++ [.shutdown], signalled := s.signalled + 1 }
    else { s with boot := s.boot.ticker1.1 } :=
  rfl

/-- A tick before `system.shutdown` is signalled: the countdown goes on, or it ends. -/
theorem Closing.count {m : ℕ} (h : Closing s) (hregistered : s.registered = 1)
    (hsignalled : s.signalled = 0) :
    let t := { s with queue := List.replicate m .ticker1, ticks := s.ticks + 1 }.tickers 1
    Closing t ∧ t.signalled ≤ 1 ∧ (0 < t.signalled → t.waiting = [] ∨ 70 ≤ t.ticks) := by
  have hpos := h.timer hsignalled
  have hticker : s.boot.ticker1 =
      ({ s.boot with shutdownTimer := s.boot.shutdownTimer - 1 },
        decide (s.boot.shutdownTimer - 1 = 0)) :=
    if_pos hpos
  have henough : s.waiting = [] ∨ 70 ≤ s.boot.shutdownTimer + s.ticks :=
    (em (s.waiting = [])).imp_right (h.enough hsignalled)
  rw [tickers_one]
  dsimp only
  rw [hticker]
  by_cases hlast : s.boot.shutdownTimer - 1 = 0
  · rw [if_pos (by simpa using hlast)]
    refine ⟨⟨h.boot, h.pending, ?_, ?_, ?_⟩, ?_, fun _ => henough.imp_right fun hle => ?_⟩
    · dsimp only
      rw [hregistered, hsignalled]
      exact .leaving m 0 (.inl hlast)
    · exact fun hzero => absurd hzero (Nat.succ_ne_zero _)
    · exact fun hzero => absurd hzero (Nat.succ_ne_zero _)
    · dsimp only
      omega
    · dsimp only
      omega
  · rw [if_neg (by simpa using hlast)]
    refine ⟨⟨h.boot, h.pending, ?_, ?_, ?_⟩, ?_, ?_⟩
    · dsimp only
      rw [hregistered, hsignalled]
      exact .counting m
    · exact fun _ => Nat.pos_of_ne_zero hlast
    · intro _ hne
      have hle := henough.resolve_left hne
      dsimp only
      omega
    · dsimp only
      omega
    · exact fun hlt => absurd hsignalled (Nat.ne_of_gt hlt)

/-- A tick once `system.shutdown` is signalled comes before it; the countdown does not end
again. -/
theorem Closing.tail {n m : ℕ} (h : Closing s) (hsignalled : s.signalled = 1)
    (hregistered : s.registered = 1)
    (htimer : s.boot.shutdownTimer = 0 ∨ n + 1 < s.boot.shutdownTimer) :
    let t := { s with
      queue := List.replicate n Message.ticker1 ++
        Message.shutdown :: List.replicate m Message.ticker1
      ticks := s.ticks + 1 }.tickers 1
    Closing t ∧ t.signalled = 1 := by
  have hlate (b : Boot) : s.signalled = 0 → 0 < b.shutdownTimer := fun hzero =>
    absurd (hzero.symm.trans hsignalled) (by decide)
  have hqueue (timer : ℕ) (htimer : timer = 0 ∨ n < timer) : Queued timer s.registered s.signalled
      (List.replicate n .ticker1 ++ .shutdown :: List.replicate m .ticker1) := by
    rw [hregistered, hsignalled]
    exact .leaving n m htimer
  rw [tickers_one]
  dsimp only
  rcases htimer with hzero | hlt
  · have hticker : s.boot.ticker1 = (s.boot, false) := if_neg (by rw [hzero]; decide)
    rw [hticker, if_neg Bool.false_ne_true]
    exact ⟨⟨h.boot, h.pending, hqueue _ (.inl hzero), hlate _,
      fun hzero => absurd (hzero.symm.trans hsignalled) (by decide)⟩, hsignalled⟩
  · have hticker : s.boot.ticker1 =
        ({ s.boot with shutdownTimer := s.boot.shutdownTimer - 1 },
          decide (s.boot.shutdownTimer - 1 = 0)) := if_pos (by omega)
    have hgo : ¬ s.boot.shutdownTimer - 1 = 0 := by omega
    rw [hticker, if_neg (by simpa using hgo)]
    exact ⟨⟨h.boot, h.pending, hqueue (s.boot.shutdownTimer - 1) (.inr (by omega)), hlate _,
      fun hzero => absurd (hzero.symm.trans hsignalled) (by decide)⟩, hsignalled⟩

/-- All handlers have got the event. -/
theorem Closing.done {queue : List Message} (h : Closing s)
    (hqueue : ∀ timer, Queued timer s.registered s.signalled queue) :
    Closing { s with
      queue := queue, boot := s.boot.shuttingdownDone, delivered := s.delivered + 1 } := by
  by_cases hzero : s.boot.shutdownPending = 0
  · have hdone : s.boot.shuttingdownDone = { s.boot with shutdownTimer := 2 } := if_pos hzero
    have hnil : s.waiting = [] :=
      List.eq_nil_of_length_eq_zero (by rw [← h.pending, hzero]; rfl)
    rw [hdone]
    exact ⟨h.boot, h.pending, hqueue _, fun _ => Nat.succ_pos 1, fun _ hne => absurd hnil hne⟩
  · have hdone : s.boot.shuttingdownDone = s.boot := if_neg hzero
    rw [hdone]
    exact ⟨h.boot, h.pending, hqueue _, h.timer, h.enough⟩

/-- What comes first in the queue, and what is behind it. -/
inductive First (timer : ℕ) : ℕ → ℕ → Message → List Message → Prop where
  | early {rest : List Message} (h : ∀ timer', Queued timer' 0 0 rest) :
      First timer 0 0 .ticker1 rest
  | shuttingdown {rest : List Message} (h : ∀ timer', Queued timer' 0 0 rest) :
      First timer 0 0 .shuttingdown rest
  | addTicker1 {rest : List Message} (h : Queued timer 1 0 rest) : First timer 0 0 .addTicker1 rest
  | counting (m : ℕ) : First timer 1 0 .ticker1 (List.replicate m .ticker1)
  | tail (n m : ℕ) (h : timer = 0 ∨ n + 1 < timer) : First timer 1 1 .ticker1
      (List.replicate n .ticker1 ++ .shutdown :: List.replicate m .ticker1)
  | shutdown (rest : List Message) : First timer 1 1 .shutdown rest

/-- The queue is taken apart. -/
theorem Queued.first {message : Message} {rest : List Message}
    (h : Queued timer registered signalled (message :: rest)) :
    First timer registered signalled message rest := by
  generalize hq : message :: rest = queue at h
  cases h with
  | coming n m =>
      cases n with
      | zero =>
          obtain ⟨rfl, rfl⟩ := List.cons.inj hq
          exact .shuttingdown fun _ => .adding m
      | succ n =>
          rw [List.replicate_succ, List.cons_append] at hq
          obtain ⟨rfl, rfl⟩ := List.cons.inj hq
          exact .early fun _ => .coming n m
  | adding m =>
      obtain ⟨rfl, rfl⟩ := List.cons.inj hq
      exact .addTicker1 (.counting m)
  | counting m =>
      cases m with
      | zero => exact absurd hq (List.cons_ne_nil _ _)
      | succ m =>
          obtain ⟨rfl, rfl⟩ := List.cons.inj hq
          exact .counting m
  | leaving n m h =>
      cases n with
      | zero =>
          obtain ⟨rfl, rfl⟩ := List.cons.inj hq
          exact .shutdown _
      | succ n =>
          rw [List.replicate_succ, List.cons_append] at hq
          obtain ⟨rfl, rfl⟩ := List.cons.inj hq
          exact .tail n m h

/-- The event task is through with a message, from the request on. -/
theorem Closing.deliver {message : Message} {rest : List Message} (h : Closing s)
    (hs : s.queue = message :: rest) :
    let t := { s with queue := rest }.take message
    Inv t ∧ t.signalled ≤ 1 ∧ (s.signalled < t.signalled → t.waiting = [] ∨ 70 ≤ t.ticks) := by
  cases s with
  | mk boot queue registered halted delivered reported waiting ticks signalled =>
  obtain rfl : queue = message :: rest := hs
  cases h.queue.first with
  | early hqueue =>
      refine ⟨.closing ⟨h.boot, h.pending, hqueue _, h.timer, fun hzero hne => ?_⟩,
        Nat.zero_le 1, fun hlt => absurd hlt (Nat.lt_irrefl 0)⟩
      exact Nat.le_trans (h.enough hzero hne) (Nat.le_succ _)
  | shuttingdown hqueue =>
      exact ⟨.closing (h.done hqueue), Nat.zero_le 1, fun hlt => absurd hlt (Nat.lt_irrefl 0)⟩
  | addTicker1 hqueue =>
      exact ⟨.closing ⟨h.boot, h.pending, hqueue, h.timer, h.enough⟩, Nat.zero_le 1,
        fun hlt => absurd hlt (Nat.lt_irrefl 0)⟩
  | counting m =>
      obtain ⟨hclosing, hle, hin⟩ := h.count (m := m) rfl rfl
      exact ⟨.closing hclosing, hle, hin⟩
  | tail n m htimer =>
      obtain ⟨hclosing, hone⟩ := h.tail (m := m) rfl rfl htimer
      exact ⟨.closing hclosing, Nat.le_of_eq hone,
        fun hlt => absurd hone (Nat.ne_of_gt hlt)⟩
  | shutdown =>
      exact ⟨.halted rfl rfl, Nat.le_refl 1, fun hlt => absurd hlt (Nat.lt_irrefl 1)⟩

/-- The event task is through with a message before the request: it is a tick. -/
theorem Idle.deliver {message : Message} {rest : List Message} (h : Idle s)
    (hs : s.queue = message :: rest) : Idle ({ s with queue := rest }.take message) := by
  obtain ⟨n, hn⟩ := h.queue
  rw [hs] at hn
  cases n with
  | zero => exact absurd hn (List.cons_ne_nil _ _)
  | succ n =>
      obtain ⟨rfl, rfl⟩ := List.cons.inj hn
      have htake : { s with queue := List.replicate n .ticker1 }.take .ticker1 =
          { s with queue := List.replicate n .ticker1, ticks := s.ticks + 1 } := by
        rw [System.take]
        dsimp only
        rw [h.registered]
        rfl
      rw [htake]
      exact ⟨h.boot, ⟨n, rfl⟩, h.registered, h.delivered, h.waiting, h.signalled, h.timer⟩

theorem next_deliver (h : s.next .deliver = some s') : ∃ message rest,
    s.queue = message :: rest ∧ s' = { s with queue := rest }.take message := by
  rw [System.next] at h
  split at h
  · exact absurd h (Option.some_ne_none s').symm
  · next message rest hqueue => exact ⟨message, rest, hqueue, (Option.some.inj h).symm⟩

/-- **A step** of an undisturbed shutdown keeps the invariant, and is orderly. -/
theorem Inv.step (h : Inv s) {e : Event} (he : Undisturbed s e) (hs : s.step e = some s') :
    Inv s' ∧ s'.signalled ≤ 1 ∧
      (s.signalled < s'.signalled → s'.waiting = [] ∨ 70 ≤ s'.ticks) := by
  rw [System.step] at hs
  split at hs
  · exact absurd hs (Option.some_ne_none s').symm
  next hrunning =>
  cases h with
  | halted hhalted => exact absurd hhalted hrunning
  | idle h =>
      have hle : s.signalled ≤ 1 := Nat.le_trans (Nat.le_of_eq h.signalled) (Nat.zero_le 1)
      cases e with
      | request r =>
          obtain rfl := Option.some.inj hs
          exact ⟨.closing (h.request r), hle, fun hlt => absurd hlt (Nat.lt_irrefl _)⟩
      | pending component k =>
          obtain ⟨⟨hbegun, -⟩, -⟩ := Option.ite_none_right_eq_some.mp hs
          exact absurd hbegun (h.not_begun k)
      | ready component k =>
          obtain ⟨hmem, -⟩ := Option.ite_none_right_eq_some.mp hs
          rw [h.waiting] at hmem
          exact absurd hmem List.not_mem_nil
      | tick =>
          obtain rfl := Option.some.inj hs
          obtain ⟨n, hn⟩ := h.queue
          refine ⟨.idle ⟨h.boot, ⟨n + 1, ?_⟩, h.registered, h.delivered, h.waiting, h.signalled,
            h.timer⟩, hle, fun hlt => absurd hlt (Nat.lt_irrefl _)⟩
          dsimp only
          rw [hn, List.replicate_succ']
      | deliver =>
          obtain ⟨message, rest, hqueue, rfl⟩ := next_deliver hs
          have hidle := h.deliver hqueue
          exact ⟨.idle hidle, Nat.le_trans (Nat.le_of_eq hidle.signalled) (Nat.zero_le 1),
            fun hlt => absurd hidle.signalled (Nat.ne_of_gt (Nat.zero_lt_of_lt hlt))⟩
  | closing h =>
      have hle : s.signalled ≤ 1 := h.queue.signalled_le
      cases e with
      | request r => exact absurd (h.boot.symm.trans he) (by decide)
      | pending component k =>
          obtain ⟨-, hs⟩ := Option.ite_none_right_eq_some.mp hs
          obtain rfl := Option.some.inj hs
          exact ⟨.closing (h.pending_step component k he), hle,
            fun hlt => absurd hlt (Nat.lt_irrefl _)⟩
      | ready component k =>
          obtain ⟨hmem, hs⟩ := Option.ite_none_right_eq_some.mp hs
          obtain rfl := Option.some.inj hs
          exact ⟨.closing (h.ready_step hmem he), hle, fun hlt => absurd hlt (Nat.lt_irrefl _)⟩
      | tick =>
          obtain rfl := Option.some.inj hs
          exact ⟨.closing ⟨h.boot, h.pending, h.queue.tick, h.timer, h.enough⟩, hle,
            fun hlt => absurd hlt (Nat.lt_irrefl _)⟩
      | deliver =>
          obtain ⟨message, rest, hqueue, rfl⟩ := next_deliver hs
          exact h.deliver hqueue

theorem inv_init : Inv .init :=
  .idle ⟨rfl, ⟨0, rfl⟩, rfl, rfl, rfl, rfl, rfl⟩

/-! ### Runs -/

/-- **A shutdown** that is undisturbed is orderly: it is signalled once, and waits for everyone who
has reported pending, unless 70 ticks have passed. -/
theorem orderly_of_undisturbed {events : List Event}
    (h : AlongSteps (fun s e s' => s.step e = some s') Undisturbed .init events) :
    AlongSteps (fun s e s' => s.step e = some s') Orderly .init events :=
  h.imp_of_invariant (I := Inv) (fun _ _ hs he _ hstep => (hs.step he hstep).2)
    (fun _ _ _ hs he hstep => (hs.step he hstep).1) inv_init

/-- Two components report for one shutdown: the first is ready before the second reports
pending. -/
def overlapping : List Event :=
  [.request .restart, .pending 0 0, .ready 0 0, .pending 1 0, .deliver, .deliver, .tick, .deliver,
    .tick, .deliver]

/-- The shutdown is signalled two ticks later, while the second is waited for. -/
theorem not_orderly : ¬ ∀ events : List Event,
    AlongSteps (fun s e s' => s.step e = some s') Orderly .init events :=
  fun h => absurd (h overlapping) (by decide)

/-- A component that takes its time is waited for, as all others have reported before. -/
def patient : List Event :=
  [.request (.deepSleep 60), .pending 0 0, .pending 1 0, .ready 0 0, .deliver, .deliver, .tick,
    .deliver, .ready 1 0, .tick, .deliver, .tick, .deliver, .deliver]

theorem orderly_patient :
    AlongSteps (fun s e s' => s.step e = some s') Orderly .init patient :=
  orderly_of_undisturbed (by decide)

end Ovms.Shutdown
