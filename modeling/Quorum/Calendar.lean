import Quorum.Numeral.Decimal

/-!
# Dates and times of day

Days of the Gregorian calendar, moments with microseconds, and offsets from universal
time. `Date.check`, `Moment.check` and `checkOffset` name the first field that is out of
its range.
-/

namespace Quorum.Calendar

/-- A day. -/
structure Date where
  year : Nat
  month : Nat
  day : Nat
  deriving DecidableEq, Repr

/-- A day with a time, and the offset from universal time in minutes if it is known. -/
structure Moment where
  date : Date
  hour : Nat
  minute : Nat
  second : Nat
  microsecond : Nat
  offset : Option Int
  deriving DecidableEq, Repr

/-- What is out of range. -/
inductive Flaw where
  | year (value : Nat)
  | month
  | day
  | hour
  | minute
  | second
  /-- An offset of a day or more, in minutes. -/
  | offset (minutes : Int)
  deriving DecidableEq, Repr

def isLeap (year : Nat) : Bool :=
  year % 4 == 0 && (year % 100 != 0 || year % 400 == 0)

/-- The number of days of a month. -/
def daysIn (year month : Nat) : Nat :=
  if month = 2 then if isLeap year then 29 else 28
  else if month = 4 || month = 6 || month = 9 || month = 11 then 30
  else 31

/-- The first field of the day that is out of range. -/
def Date.check (d : Date) : Except Flaw Unit :=
  if d.year < 1 || 9999 < d.year then .error (.year d.year)
  else if d.month < 1 || 12 < d.month then .error .month
  else if d.day < 1 || daysIn d.year d.month < d.day then .error .day
  else .ok ()

/-- An offset is less than a day. -/
def checkOffset (minutes : Int) : Except Flaw Unit :=
  if minutes.natAbs < 24 * 60 then .ok () else .error (.offset minutes)

/-- The first field of the moment that is out of range; the offset comes before the rest. -/
def Moment.check (m : Moment) : Except Flaw Unit := do
  match m.offset with
  | some minutes => checkOffset minutes
  | none => pure ()
  m.date.check
  if 23 < m.hour then .error .hour
  else if 59 < m.minute then .error .minute
  else if 59 < m.second then .error .second
  else .ok ()

/-- The days before the first of January of the year. -/
def daysBeforeYear (year : Nat) : Nat :=
  let y := year - 1
  y * 365 + y / 4 - y / 100 + y / 400

/-- The days of the calendar up to the given one. -/
def Date.ordinal (d : Date) : Nat :=
  (List.range' 1 (d.month - 1)).foldl (fun n month => n + daysIn d.year month)
    (daysBeforeYear d.year) + d.day

/-- The microseconds up to the moment as its clock shows them. -/
def Moment.clock (m : Moment) : Int :=
  ((((m.date.ordinal * 24 + m.hour) * 60 + m.minute) * 60 + m.second) * 1000000 +
    m.microsecond : Nat)

/-- Whether two moments are the same: those with an offset are compared in universal time,
and one with an offset is never the same as one without. -/
def Moment.same (a b : Moment) : Bool :=
  match a.offset, b.offset with
  | none, none => a.clock == b.clock
  | some p, some q => a.clock - p * 60000000 == b.clock - q * 60000000
  | _, _ => false

/-- Fields between parentheses after a name. -/
def showFields (name : String) (fields : List String) : String :=
  name ++ "(" ++ String.intercalate ", " fields ++ ")"

/-- A length of time in minutes, as days and the seconds of a day. -/
def showSpan (minutes : Int) : String :=
  let seconds := minutes * 60
  let days := seconds / 86400
  let rest := seconds % 86400
  showFields "datetime.timedelta"
    (if seconds == 0 then ["0"]
    else
      (if days == 0 then [] else [s!"days={days}"]) ++
        (if rest == 0 then [] else [s!"seconds={rest}"]))

/-- An offset as a time zone. -/
def showZone (minutes : Int) : String :=
  if minutes == 0 then "datetime.timezone.utc"
  else showFields "datetime.timezone" [showSpan minutes]

/-- The fields of a day. -/
def Date.fields (d : Date) : List String :=
  [toString d.year, toString d.month, toString d.day]

def Date.display (d : Date) : String :=
  showFields "datetime.date" d.fields

/-- The moment with seconds and microseconds left out as far as they are zero. -/
def Moment.display (m : Moment) : String :=
  let fine :=
    if m.microsecond != 0 then [toString m.second, toString m.microsecond]
    else if m.second != 0 then [toString m.second]
    else []
  let zone := match m.offset with
    | some minutes => ["tzinfo=" ++ showZone minutes]
    | none => []
  showFields "datetime.datetime"
    (m.date.fields ++ [toString m.hour, toString m.minute] ++ fine ++ zone)

/-- The flaw in words. -/
def Flaw.message : Flaw → String
  | year value => s!"year {value} is out of range"
  | month => "month must be in 1..12"
  | day => "day is out of range for month"
  | hour => "hour must be in 0..23"
  | minute => "minute must be in 0..59"
  | second => "second must be in 0..59"
  | offset minutes =>
    "offset must be a timedelta strictly between -timedelta(hours=24) and " ++
      "timedelta(hours=24), not " ++
      showSpan minutes ++ "."

end Quorum.Calendar
