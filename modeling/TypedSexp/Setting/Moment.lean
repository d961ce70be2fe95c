import TypedSexp.Number.Decimal

/-!
# Dates

A date, with or without a time of the day and an offset from universal time. What is
written like a date need not be one of the calendar.
-/

namespace TypedSexp

/-- A time of the day. -/
structure DayTime where
  hour : Nat
  minute : Nat
  second : Nat
  /-- Millionths of a second. -/
  micros : Nat
  deriving DecidableEq, Repr

/-- A date with a time of the day, if one is given, and the minutes by which that
time is ahead, if they are given. -/
structure Moment where
  year : Nat
  month : Nat
  day : Nat
  time : Option DayTime
  offset : Option Int
  deriving DecidableEq, Repr

/-- Why a date is not one of the calendar. -/
inductive MomentFault where
  | offset (minutes : Int)
  | year (found : Nat)
  | month
  | day
  | hour
  | minute
  | second
  deriving DecidableEq, Repr

/-- The days and seconds that minutes make, of which the days may be negative. -/
def spanText (minutes : Int) : String :=
  let days := minutes.fdiv 1440
  let seconds := 60 * minutes.fmod 1440
  let parts := (if days = 0 then [] else [s!"days={days}"]) ++
    (if seconds = 0 then [] else [s!"seconds={seconds}"])
  "datetime.timedelta(" ++ String.intercalate ", " parts ++ ")"

/-- The wording of a fault. -/
def MomentFault.message : MomentFault → String
  | .offset minutes =>
    "offset must be a timedelta strictly between -timedelta(hours=24) and timedelta(hours=24), not " ++
      spanText minutes ++ "."
  | .year found => s!"year {found} is out of range"
  | .month => "month must be in 1..12"
  | .day => "day is out of range for month"
  | .hour => "hour must be in 0..23"
  | .minute => "minute must be in 0..59"
  | .second => "second must be in 0..59"

namespace Moment

/-- Whether a year has a leap day. -/
def isLeap (year : Nat) : Bool := year % 4 = 0 && (year % 100 ≠ 0 || year % 400 = 0)

/-- How many days a month has. -/
def daysIn (year month : Nat) : Nat :=
  if month = 2 then if isLeap year then 29 else 28
  else if [4, 6, 9, 11].contains month then 30
  else 31

/-- What is wrong with a date. The offset is looked at first, then every part from
the year on. -/
def fault? (m : Moment) : Option MomentFault :=
  let time := m.time.getD ⟨0, 0, 0, 0⟩
  let offset := m.offset.getD 0
  if 1440 ≤ offset.natAbs then some (.offset offset)
  else if m.year = 0 then some (.year m.year)
  else if m.month = 0 ∨ 12 < m.month then some .month
  else if m.day = 0 ∨ daysIn m.year m.month < m.day then some .day
  else if 23 < time.hour then some .hour
  else if 59 < time.minute then some .minute
  else if 59 < time.second then some .second
  else none

/-! ## Writing -/

/-- A number in so many digits. -/
def padded (width n : Nat) : String :=
  let ds := (toString n).toList
  String.ofList (List.replicate (width - ds.length) '0' ++ ds)

/-- The hours and minutes by which a time is ahead. -/
def offsetText (minutes : Int) : String :=
  (if minutes < 0 then "-" else "+") ++ padded 2 (minutes.natAbs / 60) ++ ":" ++
    padded 2 (minutes.natAbs % 60)

/-- A time of the day. Millionths are shown if there are any. -/
def timeText (t : DayTime) : String :=
  padded 2 t.hour ++ ":" ++ padded 2 t.minute ++ ":" ++ padded 2 t.second ++
    (if t.micros = 0 then "" else "." ++ padded 6 t.micros)

/-- A date as it is shown. -/
def shown (m : Moment) : String :=
  let date := padded 4 m.year ++ "-" ++ padded 2 m.month ++ "-" ++ padded 2 m.day
  match m.time with
  | none => date
  | some t => date ++ " " ++ timeText t ++ (m.offset.map offsetText).getD ""

/-- The parts of a time that are written: seconds and millionths only as far as they
are not zero. -/
def timeParts (t : DayTime) : List Nat :=
  if t.micros ≠ 0 then [t.hour, t.minute, t.second, t.micros]
  else if t.second ≠ 0 then [t.hour, t.minute, t.second]
  else [t.hour, t.minute]

/-- The offset of a written date. -/
def zoneText (minutes : Int) : String :=
  "tzinfo=datetime.timezone" ++ if minutes = 0 then ".utc" else "(" ++ spanText minutes ++ ")"

/-- The written form of a date. -/
def literal (m : Moment) : String :=
  let kind := if m.time.isSome then "datetime.datetime" else "datetime.date"
  let numbers := [m.year, m.month, m.day] ++ (m.time.map timeParts).getD []
  let parts := numbers.map (toString ·) ++ (m.offset.map zoneText).toList
  kind ++ "(" ++ String.intercalate ", " parts ++ ")"

/-! ## Reading -/

/-- A number of one or two digits, or of two if so many are needed, and what follows
it. -/
def readTwo (both : Bool) : List Char → Option (Nat × List Char)
  | a :: b :: rest =>
    if Decimal.isDigit a && Decimal.isDigit b then some (Decimal.digitsValue [a, b], rest)
    else if Decimal.isDigit a && !both then some (Decimal.digitsValue [a], b :: rest)
    else none
  | [a] => if Decimal.isDigit a && !both then some (Decimal.digitsValue [a], []) else none
  | [] => none

/-- What follows a mark. -/
def readMark (mark : Char) : List Char → Option (List Char)
  | c :: rest => if c = mark then some rest else none
  | [] => none

/-- A blank inside a date. -/
def isPause (c : Char) : Bool := c == ' ' || c == '\t'

/-- What follows the mark between a date and a time: a letter, or blanks. -/
def readPause : List Char → Option (List Char)
  | 'T' :: rest => some rest
  | 't' :: rest => some rest
  | c :: rest => if isPause c then some (rest.dropWhile isPause) else none
  | [] => none

/-- The millionths that a fraction of a second stands for, without what is smaller,
and what follows it. -/
def readFraction : List Char → Nat × List Char
  | '.' :: rest =>
    let ds := (rest.takeWhile Decimal.isDigit).take 6
    (Decimal.digitsValue (ds ++ List.replicate (6 - ds.length) '0'), rest.dropWhile Decimal.isDigit)
  | cs => (0, cs)

/-- The offset that all of a text gives: none if it is empty, and otherwise a letter
or hours with a sign, which minutes may follow. -/
def readOffset (cs : List Char) : Option (Option Int) :=
  match cs.dropWhile isPause with
  | [] => if cs.isEmpty then some none else none
  | ['Z'] => some (some 0)
  | c :: rest =>
    if c = '+' ∨ c = '-' then do
      let (hours, rest) ← readTwo false rest
      let minutes ← match rest with
        | [] => some 0
        | rest => do
          let rest ← readMark ':' rest
          let (minutes, rest) ← readTwo true rest
          if rest.isEmpty then some minutes else none
      let total : Int := 60 * hours + minutes
      some (some (if c = '-' then -total else total))
    else none

/-- The time of the day and the offset that all of a text gives. -/
def readTime (cs : List Char) : Option (DayTime × Option Int) := do
  let cs ← readPause cs
  let (hour, cs) ← readTwo false cs
  let cs ← readMark ':' cs
  let (minute, cs) ← readTwo true cs
  let cs ← readMark ':' cs
  let (second, cs) ← readTwo true cs
  let (micros, cs) := readFraction cs
  let offset ← readOffset cs
  return (⟨hour, minute, second, micros⟩, offset)

/-- The date that a text looks like. Without a time, month and day have two digits
each. -/
def read? (cs : List Char) : Option Moment := do
  let (century, cs) ← readTwo true cs
  let (years, cs) ← readTwo true cs
  let rest ← readMark '-' cs
  let (month, cs) ← readTwo false rest
  let cs ← readMark '-' cs
  let (day, cs) ← readTwo false cs
  let year := 100 * century + years
  if cs.isEmpty then
    if rest.length = 5 then some ⟨year, month, day, none, none⟩ else none
  else do
    let (time, offset) ← readTime cs
    return ⟨year, month, day, some time, offset⟩

end Moment

end TypedSexp
