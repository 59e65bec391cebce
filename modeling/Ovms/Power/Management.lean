import Ovms.Lib.Machine
import Mathlib.Tactic.Basic

/-!
# Power Management

The ticker of power management (`components/powermgmt/powermgmt.cpp`). It counts the seconds in
which the 12V battery is not charging, and switches the wifi and the modem off when their delays
are over; when the battery is charging again, it switches on what it had switched off.

The counter is not reset when charging starts, only when it ends. So in the tick in which charging
starts, and in every one until it ends, a radio is switched off when the delay was over before.
-/

open Lib

namespace Ovms.Power

/-- The power modes of a component (`pcp.h`). -/
inductive PowerMode where
  | undefined
  | on
  | sleep
  | deepSleep
  | off
  | devel
  deriving DecidableEq, Repr

/-- Who has set the power mode of a radio. -/
inductive Setter where
  | powermgmt
  | other
  deriving DecidableEq, Repr

/-- The radios that power management switches. -/
inductive RadioName where
  | wifi
  | modem
  deriving DecidableEq, Repr

/-- A radio with what power management keeps of it: the hours after which it is switched off
(`m_wifioff_delay`, `m_modemoff_delay`), and whether power management has switched it off
(`m_wifi_off`, `m_modem_off`). -/
structure Radio where
  offDelay : UInt32
  isOff : Bool
  mode : PowerMode
  setBy : Setter
  deriving DecidableEq, Repr

/-- What the ticker asks of others. -/
inductive Call where
  | setPowerMode (r : RadioName) (mode : PowerMode)
  | signalEvent (event : String)
  | deepSleep (wakeupInterval : UInt32)
  deriving DecidableEq, Repr

/-- The members of `powermgmt`, and the radios. -/
structure Powermgmt where
  enabled : Bool
  notchargingTimer : UInt32
  alertTimer : UInt32
  shutdownDelay : UInt32
  charging : Bool
  wifi : Radio
  modem : Radio
  deriving DecidableEq, Repr

/-! ### The ticker -/

/-- A radio that power management has switched off is switched on. -/
def Radio.turnOn (name : RadioName) (r : Radio) : Radio × List Call :=
  if r.isOff then
    ({ r with isOff := false, mode := .on, setBy := .powermgmt }, [.setPowerMode name .on])
  else (r, [])

/-- The event of a radio that is switched off. -/
def RadioName.offEvent : RadioName → String
  | .wifi => "powermgmt.wifi.off"
  | .modem => "powermgmt.modem.off"

/-- A radio that is on is switched off when its delay is over. -/
def Radio.turnOff (name : RadioName) (timer : UInt32) (r : Radio) : Radio × List Call :=
  if r.offDelay ≠ 0 ∧ r.offDelay * 60 * 60 < timer then -- hours to seconds
    if r.mode = .on then
      ({ r with isOff := true, mode := .off, setBy := .powermgmt },
        [.signalEvent name.offEvent, .setPowerMode name .off])
    else (r, [])
  else (r, [])

/-- The first half of the ticker: the counter, and a change of the charging state. -/
def Powermgmt.follow (charging12v : Bool) (m : Powermgmt) : Powermgmt × List Call :=
  let m := if m.charging then m else { m with notchargingTimer := m.notchargingTimer + 1 }
  if charging12v then
    if m.charging then (m, [])
    else
      let wifi := m.wifi.turnOn .wifi
      let modem := m.modem.turnOn .modem
      ({ m with charging := true, wifi := wifi.1, modem := modem.1 }, wifi.2 ++ modem.2)
  else if m.charging then ({ m with charging := false, notchargingTimer := 0 }, [])
  else (m, [])

/-- The alert of the 12V battery: the module shuts down when it has been there for too long. -/
def Powermgmt.watch (alert12v : Bool) (wakeupInterval : UInt32) (m : Powermgmt) :
    Powermgmt × List Call :=
  if alert12v then
    let m := { m with alertTimer := m.alertTimer + 1 }
    if m.shutdownDelay ≠ 0 ∧ m.shutdownDelay * 60 < m.alertTimer then -- minutes to seconds
      ({ m with shutdownDelay := 0 },
        [.signalEvent "powermgmt.ovms.shutdown", .deepSleep wakeupInterval])
    else (m, [])
  else ({ m with alertTimer := 0 }, [])

/-- `powermgmt::Ticker1`. -/
def Powermgmt.ticker1 (charging12v alert12v : Bool) (wakeupInterval : UInt32) (m : Powermgmt) :
    Powermgmt × List Call :=
  let (m, calls) := m.follow charging12v
  if m.enabled then
    let wifi := m.wifi.turnOff .wifi m.notchargingTimer
    let modem := m.modem.turnOff .modem m.notchargingTimer
    let watched := { m with wifi := wifi.1, modem := modem.1 }.watch alert12v wakeupInterval
    (watched.1, calls ++ wifi.2 ++ modem.2 ++ watched.2)
  else (m, calls)

/-- What happens: the ticker, a change of the configuration, or that another part of the firmware
sets the power mode of a radio. -/
inductive Event where
  | ticker1 (charging12v alert12v : Bool) (wakeupInterval : UInt32)
  | configChanged (enabled : Bool) (modemoffDelay wifioffDelay shutdownDelay : UInt32)
  | setPowerMode (r : RadioName) (mode : PowerMode)
  deriving DecidableEq, Repr

/-- A radio by its name. -/
def Powermgmt.radio (m : Powermgmt) : RadioName → Radio
  | .wifi => m.wifi
  | .modem => m.modem

/-- The answer to an event. -/
def Powermgmt.answer (m : Powermgmt) : Event → Powermgmt × List Call
  | .ticker1 charging12v alert12v wakeupInterval => m.ticker1 charging12v alert12v wakeupInterval
  | .configChanged enabled modemoffDelay wifioffDelay shutdownDelay =>
      ({ m with
          enabled := enabled
          shutdownDelay := shutdownDelay
          wifi := { m.wifi with offDelay := wifioffDelay }
          modem := { m.modem with offDelay := modemoffDelay } }, [])
  | .setPowerMode .wifi mode =>
      ({ m with wifi := { m.wifi with mode := mode, setBy := .other } }, [])
  | .setPowerMode .modem mode =>
      ({ m with modem := { m.modem with mode := mode, setBy := .other } }, [])

/-- The state behind an event. -/
def Powermgmt.step (m : Powermgmt) (e : Event) : Powermgmt := (m.answer e).1

/-- The constructor has run: nothing is counted, and nothing was switched off. -/
structure Started (m : Powermgmt) : Prop where
  timer : m.notchargingTimer = 0
  alertTimer : m.alertTimer = 0
  charging : m.charging = false
  isOff : ∀ r, (m.radio r).isOff = false
  setBy : ∀ r, (m.radio r).setBy = .other

/-! ### What should hold -/

/-- Power management itself has switched a radio off. -/
def Radio.IsOffByUs (r : Radio) : Prop := r.mode = .off ∧ r.setBy = .powermgmt

/-- In a tick in which the battery is charging no radio is switched off, and behind it none is off
that power management has switched off. -/
def KeepsRadios (m : Powermgmt) : Event → Prop
  | .ticker1 true alert12v wakeupInterval => ∀ r,
      .setPowerMode r .off ∉ (m.ticker1 true alert12v wakeupInterval).2 ∧
        ¬ ((m.ticker1 true alert12v wakeupInterval).1.radio r).IsOffByUs
  | _ => True

/-- The counter of the tick is past the delay of a radio that is on, or is switched on. -/
structure Due (m : Powermgmt) (r : Radio) : Prop where
  enabled : m.enabled = true
  delay : r.offDelay ≠ 0
  late : r.offDelay * 60 * 60 <
    if m.charging then m.notchargingTimer else m.notchargingTimer + 1
  on : r.mode = .on ∨ m.charging = false ∧ r.isOff = true

/-- No radio is due in a tick in which the battery is charging. -/
def SparesRadios (m : Powermgmt) : Event → Prop
  | .ticker1 true _ _ => ∀ r, ¬ Due m (m.radio r)
  | _ => True

/-- What power management has switched off it knows of, and while it charges that is nothing. -/
structure Inv (m : Powermgmt) : Prop where
  known : ∀ r, (m.radio r).IsOffByUs → (m.radio r).isOff = true
  charging : m.charging = true → ∀ r, (m.radio r).isOff = false

theorem Started.inv {m : Powermgmt} (h : Started m) : Inv m where
  known r hr := absurd (hr.2.symm.trans (h.setBy r)) (by decide)
  charging _ := h.isOff

/-! ### The pieces of the ticker -/

variable {name r : RadioName} {radio : Radio} {timer : UInt32}

theorem Radio.turnOff_due (hdelay : radio.offDelay ≠ 0) (hover : radio.offDelay * 60 * 60 < timer)
    (hon : radio.mode = .on) :
    radio.turnOff name timer = ({ radio with isOff := true, mode := .off, setBy := .powermgmt },
      [.signalEvent name.offEvent, .setPowerMode name .off]) := by
  rw [Radio.turnOff, if_pos ⟨hdelay, hover⟩, if_pos hon]

theorem Radio.turnOff_not_due
    (h : ¬ (radio.offDelay ≠ 0 ∧ radio.offDelay * 60 * 60 < timer ∧ radio.mode = .on)) :
    radio.turnOff name timer = (radio, []) := by
  rw [Radio.turnOff]
  split
  · next hover => rw [if_neg fun hon => h ⟨hover.1, hover.2, hon⟩]
  · rfl

theorem Radio.turnOff_known (h : radio.IsOffByUs → radio.isOff = true) :
    (radio.turnOff name timer).1.IsOffByUs → (radio.turnOff name timer).1.isOff = true := by
  by_cases hdue : radio.offDelay ≠ 0 ∧ radio.offDelay * 60 * 60 < timer ∧ radio.mode = .on
  · rw [Radio.turnOff_due hdue.1 hdue.2.1 hdue.2.2]
    exact fun _ => rfl
  · rwa [Radio.turnOff_not_due hdue]

theorem Radio.turnOn_isOff : (radio.turnOn name).1.isOff = false := by
  rw [Radio.turnOn]
  split
  · rfl
  · next h => exact Bool.eq_false_iff.mpr h

theorem Radio.turnOn_mode :
    (radio.turnOn name).1.mode = .on ↔ radio.mode = .on ∨ radio.isOff = true := by
  rw [Radio.turnOn]
  split
  · next h => simp [h]
  · next h => simp [h]

theorem Radio.turnOn_offDelay : (radio.turnOn name).1.offDelay = radio.offDelay := by
  rw [Radio.turnOn]
  split <;> rfl

theorem Radio.turnOn_not_offByUs (h : radio.IsOffByUs → radio.isOff = true) :
    ¬ (radio.turnOn name).1.IsOffByUs := by
  rw [Radio.turnOn]
  split
  · exact fun hoff => absurd hoff.1 (by simp)
  · next hnot => exact fun hoff => hnot (h hoff)

theorem Radio.off_notMem_turnOn : .setPowerMode r .off ∉ (radio.turnOn name).2 := by
  rw [Radio.turnOn]
  split <;> simp

theorem Radio.off_mem_turnOff : .setPowerMode r .off ∈ (radio.turnOff name timer).2 ↔
    r = name ∧ radio.offDelay ≠ 0 ∧ radio.offDelay * 60 * 60 < timer ∧ radio.mode = .on := by
  by_cases hdue : radio.offDelay ≠ 0 ∧ radio.offDelay * 60 * 60 < timer ∧ radio.mode = .on
  · rw [Radio.turnOff_due hdue.1 hdue.2.1 hdue.2.2, and_iff_left hdue]
    simp
  · rw [Radio.turnOff_not_due hdue]
    exact iff_of_false List.not_mem_nil fun h => hdue h.2

/-! ### The ticker -/

variable {m : Powermgmt} {charging12v alert12v : Bool} {wakeupInterval : UInt32}

theorem follow_timer : (m.follow true).1.notchargingTimer =
    if m.charging then m.notchargingTimer else m.notchargingTimer + 1 := by
  cases h : m.charging <;> simp [Powermgmt.follow, h]

theorem follow_radio : (m.follow charging12v).1.radio r =
    if charging12v = true ∧ m.charging = false then ((m.radio r).turnOn r).1 else m.radio r := by
  cases charging12v <;> cases h : m.charging <;> cases r <;>
    simp [Powermgmt.follow, Powermgmt.radio, h]

theorem follow_enabled : (m.follow charging12v).1.enabled = m.enabled := by
  cases charging12v <;> cases h : m.charging <;> simp [Powermgmt.follow, h]

theorem follow_charging : (m.follow charging12v).1.charging = charging12v := by
  cases charging12v <;> cases h : m.charging <;> simp [Powermgmt.follow, h]

theorem off_notMem_follow : .setPowerMode r .off ∉ (m.follow charging12v).2 := by
  cases charging12v <;> cases h : m.charging <;>
    simp [Powermgmt.follow, h, Radio.off_notMem_turnOn]

theorem watch_radio : (m.watch alert12v wakeupInterval).1.radio r = m.radio r := by
  rw [Powermgmt.watch]
  split
  · dsimp only
    split <;> cases r <;> rfl
  · cases r <;> rfl

theorem watch_charging : (m.watch alert12v wakeupInterval).1.charging = m.charging := by
  rw [Powermgmt.watch]
  split
  · dsimp only
    split <;> rfl
  · rfl

theorem off_notMem_watch : .setPowerMode r .off ∉ (m.watch alert12v wakeupInterval).2 := by
  rw [Powermgmt.watch]
  split
  · dsimp only
    split <;> simp
  · simp

/-- A radio behind the ticker. -/
theorem ticker1_radio : (m.ticker1 charging12v alert12v wakeupInterval).1.radio r =
    if m.enabled then
      (((m.follow charging12v).1.radio r).turnOff r (m.follow charging12v).1.notchargingTimer).1
    else (m.follow charging12v).1.radio r := by
  rw [Powermgmt.ticker1]
  dsimp only
  rw [follow_enabled]
  split
  · rw [watch_radio]
    cases r <;> rfl
  · rfl

theorem ticker1_charging :
    (m.ticker1 charging12v alert12v wakeupInterval).1.charging = charging12v := by
  rw [Powermgmt.ticker1]
  dsimp only
  rw [follow_enabled]
  split
  · rw [watch_charging]
    exact follow_charging
  · exact follow_charging

/-- The radios that the ticker switches off. -/
theorem off_mem_ticker1 :
    .setPowerMode r .off ∈ (m.ticker1 charging12v alert12v wakeupInterval).2 ↔
      m.enabled = true ∧ .setPowerMode r .off ∈
        (((m.follow charging12v).1.radio r).turnOff r
          (m.follow charging12v).1.notchargingTimer).2 := by
  rw [Powermgmt.ticker1]
  dsimp only
  rw [follow_enabled]
  split
  · next henabled =>
    rw [and_iff_right henabled]
    cases r <;>
      simp [off_notMem_follow, off_notMem_watch, Radio.off_mem_turnOff, Powermgmt.radio]
  · next henabled => exact iff_of_false off_notMem_follow fun h => henabled h.1

/-- A radio is switched off in a tick in which the battery charges, exactly when it is due. -/
theorem off_mem_ticker1_iff_due :
    .setPowerMode r .off ∈ (m.ticker1 true alert12v wakeupInterval).2 ↔ Due m (m.radio r) := by
  have hdelay : ((m.follow true).1.radio r).offDelay = (m.radio r).offDelay := by
    rw [follow_radio]
    split
    · exact Radio.turnOn_offDelay
    · rfl
  have hmode : ((m.follow true).1.radio r).mode = .on ↔
      (m.radio r).mode = .on ∨ m.charging = false ∧ (m.radio r).isOff = true := by
    rw [follow_radio]
    cases m.charging <;> simp [Radio.turnOn_mode]
  rw [off_mem_ticker1, Radio.off_mem_turnOff, follow_timer, hdelay, hmode]
  constructor
  · rintro ⟨henabled, -, hne, hover, hon⟩
    exact ⟨henabled, hne, hover, hon⟩
  · rintro ⟨henabled, hne, hover, hon⟩
    exact ⟨henabled, rfl, hne, hover, hon⟩

/-! ### The invariant -/

theorem Inv.follow_known (h : Inv m) :
    ((m.follow charging12v).1.radio r).IsOffByUs →
      ((m.follow charging12v).1.radio r).isOff = true := by
  rw [follow_radio]
  split
  · exact fun hoff => absurd hoff (Radio.turnOn_not_offByUs (h.known r))
  · exact h.known r

theorem Inv.follow_isOff (h : Inv m) : ((m.follow true).1.radio r).isOff = false := by
  rw [follow_radio]
  split
  · exact Radio.turnOn_isOff
  · next hcharging => exact h.charging (by simpa using hcharging) r

/-- A radio that is not due is left as the first half of the ticker left it. -/
theorem ticker1_radio_of_not_due (h : ¬ Due m (m.radio r)) :
    (m.ticker1 true alert12v wakeupInterval).1.radio r = (m.follow true).1.radio r := by
  have hnot : .setPowerMode r .off ∉ (m.ticker1 true alert12v wakeupInterval).2 :=
    fun hoff => h (off_mem_ticker1_iff_due.mp hoff)
  rw [off_mem_ticker1] at hnot
  rw [ticker1_radio]
  split
  · next henabled =>
    rw [Radio.turnOff_not_due fun hdue =>
      hnot ⟨henabled, Radio.off_mem_turnOff.mpr ⟨rfl, hdue⟩⟩]
  · rfl

/-- **A tick** keeps the radios exactly when none of them is due. -/
theorem keepsRadios_iff (h : Inv m) (e : Event) : KeepsRadios m e ↔ SparesRadios m e := by
  cases e with
  | ticker1 charging12v alert12v wakeupInterval =>
      cases charging12v with
      | false => exact Iff.rfl
      | true =>
          refine forall_congr' fun r => ?_
          rw [off_mem_ticker1_iff_due]
          refine and_iff_left_of_imp fun hdue hoff => ?_
          rw [ticker1_radio_of_not_due hdue] at hoff
          exact absurd (h.follow_known hoff) (Bool.eq_false_iff.mp h.follow_isOff)
  | configChanged => exact Iff.rfl
  | setPowerMode => exact Iff.rfl

/-- The ticker keeps the invariant where it spares the radios. -/
theorem Inv.step (h : Inv m) (e : Event) (he : SparesRadios m e) : Inv (m.step e) := by
  cases e with
  | ticker1 charging12v alert12v wakeupInterval =>
      constructor
      · intro r
        rw [Powermgmt.step, Powermgmt.answer, ticker1_radio]
        split
        · exact Radio.turnOff_known h.follow_known
        · exact h.follow_known
      · rw [Powermgmt.step, Powermgmt.answer, ticker1_charging]
        rintro rfl r
        rw [ticker1_radio_of_not_due (he r)]
        exact h.follow_isOff
  | configChanged enabled modemoffDelay wifioffDelay shutdownDelay =>
      exact ⟨fun r => by cases r; exacts [h.known .wifi, h.known .modem],
        fun hcharging r => by
          cases r
          exacts [h.charging hcharging .wifi, h.charging hcharging .modem]⟩
  | setPowerMode name mode =>
      cases name with
      | wifi =>
          refine ⟨fun r => ?_, fun hcharging r => ?_⟩
          · cases r
            exacts [fun hoff => absurd hoff.2 (by simp [Powermgmt.step, Powermgmt.answer,
              Powermgmt.radio]), h.known .modem]
          · cases r
            exacts [h.charging hcharging .wifi, h.charging hcharging .modem]
      | modem =>
          refine ⟨fun r => ?_, fun hcharging r => ?_⟩
          · cases r
            exacts [h.known .wifi, fun hoff => absurd hoff.2 (by simp [Powermgmt.step,
              Powermgmt.answer, Powermgmt.radio])]
          · cases r
            exacts [h.charging hcharging .wifi, h.charging hcharging .modem]

/-! ### Runs -/

/-- **Power management** keeps the radios on while the battery charges, along a run, exactly when
no radio is due in a tick in which it does. -/
theorem radios_kept {m : Powermgmt} (h : Started m) (events : List Event) :
    Along Powermgmt.step KeepsRadios m events ↔ Along Powermgmt.step SparesRadios m events :=
  along_congr_of_invariant (I := Inv) (fun _ e hs => keepsRadios_iff hs e)
    (fun _ e hs he => hs.step e he) h.inv

/-! ### A charging battery -/

/-- The wifi is on, and is to be switched off after an hour; the battery has not charged for some
seconds. -/
def parked (seconds : ℕ) : Powermgmt where
  enabled := true
  notchargingTimer := UInt32.ofNat seconds
  alertTimer := 0
  shutdownDelay := 30
  charging := false
  wifi := { offDelay := 1, isOff := false, mode := .on, setBy := .other }
  modem := { offDelay := 96, isOff := false, mode := .on, setBy := .other }

/-- A second in which the battery does not charge. -/
def idle : Event := .ticker1 false false 60

/-- The counter counts an hour. -/
theorem parked_idle {seconds : ℕ} (h : seconds < 3600) :
    (parked seconds).step idle = parked (seconds + 1) := by
  have hsum : UInt32.ofNat seconds + 1 = UInt32.ofNat (seconds + 1) :=
    (UInt32.ofNat_add seconds 1).symm
  have hle : ∀ bound : UInt32, 3600 ≤ bound.toNat → ¬ bound < UInt32.ofNat (seconds + 1) := by
    intro bound hbound hlt
    rw [UInt32.lt_iff_toNat_lt, UInt32.toNat_ofNat', Nat.mod_eq_of_lt (by omega)] at hlt
    omega
  have hwifi : ¬ (1 : UInt32) * 60 * 60 < UInt32.ofNat (seconds + 1) := hle _ (by decide)
  have hmodem : ¬ (96 : UInt32) * 60 * 60 < UInt32.ofNat (seconds + 1) := hle _ (by decide)
  simp only [Powermgmt.step, Powermgmt.answer, idle, Powermgmt.ticker1, Powermgmt.follow, parked,
    Radio.turnOff, Powermgmt.watch, hsum, hwifi, hmodem, and_false, if_false, if_true,
    Bool.false_eq_true]

theorem parked_foldl (seconds : ℕ) (h : seconds ≤ 3600) :
    (List.replicate seconds idle).foldl Powermgmt.step (parked 0) = parked seconds := by
  induction seconds with
  | zero => rfl
  | succ seconds ih =>
      rw [List.replicate_succ', List.foldl_append, ih (by omega)]
      exact parked_idle (by omega)

theorem parked_started : Started (parked 0) where
  timer := rfl
  alertTimer := rfl
  charging := rfl
  isOff r := by cases r <;> rfl
  setBy r := by cases r <;> rfl

/-- Charging starts when the hour is over, and the wifi is switched off in that second. -/
theorem not_radios_kept : ¬ ∀ (m : Powermgmt) (events : List Event), Started m →
    Along Powermgmt.step KeepsRadios m events := by
  intro h
  have hkeeps := along_iff.mp
    (h (parked 0) (List.replicate 3600 idle ++ [.ticker1 true false 60]) parked_started)
    (List.replicate 3600 idle) (.ticker1 true false 60) [] rfl
  rw [parked_foldl 3600 (Nat.le_refl _)] at hkeeps
  exact (hkeeps .wifi).1 (by decide)

/-- A battery that charges before the hour is over keeps the wifi on. -/
theorem radios_kept_charging :
    Along Powermgmt.step KeepsRadios (parked 0) [idle, .ticker1 true false 60, idle] := by
  refine (radios_kept parked_started _).mpr ⟨trivial, fun r hdue => ?_, trivial, trivial⟩
  cases r <;> exact absurd hdue.late (by decide)

end Ovms.Power
