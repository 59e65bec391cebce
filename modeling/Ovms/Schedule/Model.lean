import Ovms.Canlog.Text
import Ovms.Config.File

/-!
# Schedules of the Climate Control

The schedule of a day is an instance of the parameter `vehicle`, with the time of each entry, and
for how long the climate control is to run (`07:00/5,17:30/15`). The scheduler reads it every
minute (`OvmsVehicle::CheckPreconditionSchedule` in `components/vehicle/vehicle.cpp`).
-/

namespace Ovms.Schedule

open Config (Text index)

/-! ### Texts -/

/-- The bytes of a text. -/
def ascii (s : String) : Text := s.toList.map fun c => .ofNat c.toNat

/-- `atoi`. -/
def atoi (text : Text) : ℤ := (Canlog.strtol 10 text).value

/-- `%d` for a number that is not negative, with zeros in front up to a width. -/
def digits (width : ℕ) (n : ℤ) : Text := Canlog.print false 10 width n.toNat

/-- `tolower`. -/
def tolower (c : UInt8) : UInt8 := if 0x41 ≤ c ∧ c ≤ 0x5A then c + 0x20 else c

/-- Whether `strcasecmp` answers 0. -/
def strcasecmp (a b : Text) : Bool := a.map tolower == b.map tolower

/-- The days, from Monday on. -/
def days : List Text := ["mon", "tue", "wed", "thu", "fri", "sat", "sun"].map ascii

/-- The instance for a day. -/
def configKey (day : Text) : Text := ascii "climate.schedule." ++ day

/-- The instances of the parameter `vehicle`: the value of each, empty where there is none. -/
abbrev Instances := Text → Text

/-- `SetParamValue`. -/
def Instances.set (config : Instances) (key value : Text) : Instances := fun k =>
  if k = key then value else config k

/-! ### Entries -/

/-- An entry: when, and for how many minutes. -/
structure Entry where
  hour : ℤ
  min : ℤ
  duration : ℤ
  deriving DecidableEq, Repr

/-- What is before the first slash of an entry. -/
def timePart (entry : Text) : Text :=
  match index 0x2F entry with
  | some (time, _) => time
  | none => entry

/-- What is behind it. -/
def durationPart (entry : Text) : Option Text := (index 0x2F entry).map Prod.snd

/-- The hour and the minute around the first colon; there has to be something before it. -/
def readTime (time : Text) : Option (ℤ × ℤ) :=
  match index 0x3A time with
  | some (hour, min) => if hour ≠ [] then some (atoi hour, atoi min) else none
  | none => none

/-- The duration that the scheduler takes: 5 minutes where none is given, and 10 if it is not from
5 to 30. -/
def readDuration : Option Text → ℤ
  | none => 5
  | some text => if atoi text < 5 ∨ 30 < atoi text then 10 else atoi text

/-- An entry as the scheduler reads it. -/
def readEntry (entry : Text) : Option Entry :=
  (readTime (timePart entry)).map fun time => ⟨time.1, time.2, readDuration (durationPart entry)⟩

/-- The entries of a schedule; one without a time is passed over. -/
def readEntries (schedule : Text) : List Entry :=
  if schedule = [] then [] else (schedule.splitOn 0x2C).filterMap readEntry

/-- What the scheduler reads for a day. -/
def entriesOf (config : Instances) (day : Text) : List Entry :=
  readEntries (config (configKey day))

/-! ### The scheduler -/

/-- A point of local time, to the minute: the day of the week from Sunday on, hour and minute. -/
structure Stamp where
  wday : ℤ
  hour : ℤ
  min : ℤ
  deriving DecidableEq, Repr

/-- The members of `OvmsVehicle` that the scheduler uses: when it has triggered last, and that the
climate control is to be stopped in some minutes. -/
structure Scheduler where
  lastTriggered : Stamp
  climateRestart : Bool
  climateRestartTicker : ℤ
  deriving DecidableEq, Repr

/-- What the constructor leaves. -/
def Scheduler.init : Scheduler := ⟨⟨-1, -1, -1⟩, false, 0⟩

/-- What a vehicle answers to a command. -/
inductive Result where
  | notImplemented
  | success
  | fail
  deriving DecidableEq, Repr

/-- What the scheduler does: it calls `CommandClimateControl`, and notifies. -/
inductive Effect where
  | climateControl (on : Bool)
  | notify (type subtype text : String)
  deriving DecidableEq, Repr

/-- The names of the days, from Sunday on. -/
def dayName (wday : ℤ) : Text :=
  (["sun", "mon", "tue", "wed", "thu", "fri", "sat"].map ascii).getD wday.toNat []

/-- The entry of the day that is for this minute, the first one if there are several. -/
def due (config : Instances) (now : Stamp) : Option Entry :=
  (entriesOf config (dayName now.wday)).find? fun e => e.hour = now.hour ∧ e.min = now.min

/-- An entry is due: the climate control is switched on, if it is not running. -/
def Scheduler.trigger (s : Scheduler) (now : Stamp) (hvac : Bool) (result : Result) (e : Entry) :
    Scheduler × List Effect :=
  if hvac then (s, [])
  else if result = .success then
    (⟨now, true, e.duration - 1⟩, [.climateControl true,
      .notify "info" "climatecontrol.schedule" "Scheduled precondition started"])
  else
    (s, [.climateControl true,
      .notify "error" "climatecontrol.schedule" "Scheduled precondition failed to start"])

/-- `OvmsVehicle::CheckPreconditionSchedule`, when the feature is enabled or not, the climate
control is running or not, and the vehicle would answer with a result. -/
def Scheduler.checkPreconditionSchedule (s : Scheduler) (config : Instances) (enabled : Bool)
    (now : Stamp) (hvac : Bool) (result : Result) : Scheduler × List Effect :=
  if ¬ enabled then (s, [])
  else if s.lastTriggered = now then (s, [])
  else
    match due config now with
    | some e => s.trigger now hvac result e
    | none => (s, [])

/-- The countdown of the climate control that was switched on. -/
def Scheduler.countdown (s : Scheduler) (hvac on : Bool) : Scheduler × List Effect :=
  if 0 < s.climateRestartTicker then
    if s.climateRestartTicker - 1 = 0 then
      ({ s with climateRestart := false, climateRestartTicker := 0 },
        if hvac ∧ ¬ on then [.climateControl false] else [])
    else ({ s with climateRestartTicker := s.climateRestartTicker - 1 }, [])
  else (s, [])

/-- The part of `OvmsVehicle::VehicleTicker1` that is for the schedule, once in 60 seconds: the
check, while the feature is enabled, and the countdown. `stillRunning` tells whether the climate
control runs behind the check, and `on` whether the vehicle is on. -/
def Scheduler.vehicleTicker60 (s : Scheduler) (config : Instances) (enabled : Bool) (now : Stamp)
    (hvac : Bool) (result : Result) (stillRunning on : Bool) : Scheduler × List Effect :=
  let check :=
    if enabled then s.checkPreconditionSchedule config true now hvac result else (s, [])
  let rest := check.1.countdown stillRunning on
  (rest.1, check.2 ++ rest.2)

end Ovms.Schedule
