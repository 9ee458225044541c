/-! Dates and times of the proleptic calendar, years 1 to 9999, with their two written forms: the
plain one of a document and the one that messages quote. -/
namespace SessionPlan.Calendar

structure Date where
  year : Nat
  month : Nat
  day : Nat
  deriving DecidableEq, Repr

structure Clock where
  hour : Nat
  minute : Nat
  second : Nat
  microsecond : Nat
  deriving DecidableEq, Repr

/-- A date with a time of day; the offset from universal time counts seconds. -/
structure Moment where
  date : Date
  clock : Clock
  offset : Option Int
  deriving DecidableEq, Repr

def isLeap (year : Nat) : Bool := year % 4 == 0 && (year % 100 != 0 || year % 400 == 0)

def daysInMonth (year month : Nat) : Nat :=
  if month = 2 then if isLeap year then 29 else 28
  else if month = 4 ∨ month = 6 ∨ month = 9 ∨ month = 11 then 30 else 31

/-- The first rule that a date breaks, as a message. -/
def Date.flaw? (d : Date) : Option String :=
  if d.year = 0 ∨ 9999 < d.year then some ("year " ++ toString d.year ++ " is out of range")
  else if d.month = 0 ∨ 12 < d.month then some "month must be in 1..12"
  else if d.day = 0 ∨ daysInMonth d.year d.month < d.day then
    some "day is out of range for month"
  else none

def Clock.flaw? (c : Clock) : Option String :=
  if 24 ≤ c.hour then some "hour must be in 0..23"
  else if 60 ≤ c.minute then some "minute must be in 0..59"
  else if 60 ≤ c.second then some "second must be in 0..59"
  else if 1000000 ≤ c.microsecond then some "microsecond must be in 0..999999"
  else none

def daysBeforeYear (year : Nat) : Nat :=
  let y := year - 1
  365 * y + y / 4 - y / 100 + y / 400

def daysBeforeMonth (year month : Nat) : Nat :=
  (List.range' 1 (month - 1)).foldl (fun days m => days + daysInMonth year m) 0

/-- Days since the day before 1 January of year 1. -/
def Date.ordinal (d : Date) : Nat := daysBeforeYear d.year + daysBeforeMonth d.year d.month + d.day

def Clock.microseconds (c : Clock) : Nat :=
  ((c.hour * 60 + c.minute) * 60 + c.second) * 1000000 + c.microsecond

/-- Microseconds of universal time, for a moment whose offset is `offset` seconds. -/
def Moment.instant (m : Moment) (offset : Int) : Int :=
  (m.date.ordinal : Int) * 86400000000 + m.clock.microseconds - offset * 1000000

/-- Moments with offsets are compared as instants, those without by their fields. -/
def Moment.same (a b : Moment) : Bool :=
  match a.offset, b.offset with
  | some p, some q => a.instant p == b.instant q
  | none, none => a == b
  | _, _ => false

/-- `n` in decimal, filled with zeros to `width`. -/
def filled (width n : Nat) : String :=
  let digits := Nat.toDigits 10 n
  String.ofList (List.replicate (width - digits.length) '0' ++ digits)

def Date.text (d : Date) : String :=
  filled 4 d.year ++ "-" ++ filled 2 d.month ++ "-" ++ filled 2 d.day

/-- The fraction of a second appears only where there is one. -/
def Clock.text (c : Clock) : String :=
  filled 2 c.hour ++ ":" ++ filled 2 c.minute ++ ":" ++ filled 2 c.second ++
    (if c.microsecond = 0 then "" else "." ++ filled 6 c.microsecond)

def offsetText (seconds : Int) : String :=
  let n := seconds.natAbs
  (if seconds < 0 then "-" else "+") ++ filled 2 (n / 3600) ++ ":" ++ filled 2 (n / 60 % 60) ++
    (if n % 60 = 0 then "" else ":" ++ filled 2 (n % 60))

def Moment.text (m : Moment) : String :=
  m.date.text ++ " " ++ m.clock.text ++ (m.offset.elim "" offsetText)

def Date.fields (d : Date) : List Nat := [d.year, d.month, d.day]

/-- Seconds and microseconds are listed only down to the last that is not zero. -/
def Clock.fields (c : Clock) : List Nat :=
  if c.microsecond ≠ 0 then [c.hour, c.minute, c.second, c.microsecond]
  else if c.second ≠ 0 then [c.hour, c.minute, c.second]
  else [c.hour, c.minute]

/-- A span of less than a day either way, as a count of days that may be -1 and of seconds. -/
def spanText (seconds : Int) : String :=
  let days := seconds / 86400
  let rest := seconds % 86400
  let parts := (if days = 0 then [] else ["days=" ++ toString days]) ++
    (if rest = 0 then [] else ["seconds=" ++ toString rest])
  "datetime.timedelta(" ++ (if parts.isEmpty then "0" else ", ".intercalate parts) ++ ")"

def zoneText (seconds : Int) : String :=
  if seconds = 0 then "datetime.timezone.utc"
  else "datetime.timezone(" ++ spanText seconds ++ ")"

def Date.quoted (d : Date) : String :=
  "datetime.date(" ++ ", ".intercalate (d.fields.map toString) ++ ")"

def Clock.quoted (c : Clock) : String :=
  "datetime.time(" ++ ", ".intercalate (c.fields.map toString) ++ ")"

def Moment.quoted (m : Moment) : String :=
  let zone := m.offset.elim [] fun seconds => ["tzinfo=" ++ zoneText seconds]
  "datetime.datetime(" ++
    ", ".intercalate ((m.date.fields ++ m.clock.fields).map toString ++ zone) ++ ")"

end SessionPlan.Calendar
