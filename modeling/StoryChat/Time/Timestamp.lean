/-
Points in time, as messages carry them.

A timestamp (`DateTime<Utc>`) is a day and a time of day in universal time. It is
written in the form of RFC 3339 with as many groups of three fraction digits as it needs
(`text`). It is read more generously (`ofText?`): blanks may stand in front of each
part, one digit does for two, the separator may be a blank, any number of fraction
digits may be given, and the offset may be `Z`, `UTC` or hours and minutes. Days are
counted in the Gregorian calendar, which is extended backwards. The second 60 is kept:
it is the second 59 with a thousand million nanoseconds more.
-/
import StoryChat.Decimal.Digits
import StoryChat.Text.Blank

set_option autoImplicit false

namespace StoryChat

/-! ## The calendar -/

namespace Calendar

/-- A date. -/
structure Date where
  year : Int
  month : Nat
  day : Nat
  deriving DecidableEq

/-- Whether a year has 366 days. -/
def isLeap (year : Int) : Bool :=
  year % 4 == 0 && (year % 100 != 0 || year % 400 == 0)

/-- The length of a month. -/
def daysInMonth (year : Int) (month : Nat) : Nat :=
  if month = 2 then (if isLeap year then 29 else 28)
  else if month = 4 ∨ month = 6 ∨ month = 9 ∨ month = 11 then 30
  else 31

/-- The first and the last year that dates are kept for. -/
def firstYear : Int := -262143

@[inherit_doc firstYear]
def lastYear : Int := 262142

/-- Whether a date exists and is kept. -/
def Date.valid (d : Date) : Bool :=
  firstYear ≤ d.year && d.year ≤ lastYear && 1 ≤ d.month && d.month ≤ 12 && 1 ≤ d.day &&
    d.day ≤ daysInMonth d.year d.month

/-- The number of a day, counted from 1970-01-01. Years are taken to begin in
March, so that the leap day comes last, and 400 of them have 146097 days. -/
def dayNumber (d : Date) : Int :=
  let y := if d.month ≤ 2 then d.year - 1 else d.year
  let era := y / 400
  let yearOfEra := y % 400
  let monthFromMarch : Int := ((d.month + 9) % 12 : Nat)
  let dayOfYear := (153 * monthFromMarch + 2) / 5 + (d.day : Int) - 1
  let dayOfEra := yearOfEra * 365 + yearOfEra / 4 - yearOfEra / 100 + dayOfYear
  era * 146097 + dayOfEra - 719468

/-- The date of a numbered day. -/
def dateOf (n : Int) : Date :=
  let z := n + 719468
  let era := z / 146097
  let dayOfEra := z % 146097
  let yearOfEra := (dayOfEra - dayOfEra / 1460 + dayOfEra / 36524 - dayOfEra / 146096) / 365
  let dayOfYear := dayOfEra - (365 * yearOfEra + yearOfEra / 4 - yearOfEra / 100)
  let monthFromMarch := (5 * dayOfYear + 2) / 153
  let day := dayOfYear - (153 * monthFromMarch + 2) / 5 + 1
  let month := if monthFromMarch < 10 then monthFromMarch + 3 else monthFromMarch - 9
  let year := yearOfEra + era * 400 + (if month ≤ 2 then 1 else 0)
  ⟨year, month.toNat, day.toNat⟩

end Calendar

/-- A point in time (`DateTime<Utc>`): a day counted from 1970-01-01, a second of the day, and
the nanoseconds since then. -/
structure Timestamp where
  day : Int
  second : Nat
  nano : Nat
  deriving DecidableEq

namespace Timestamp

open StoryChat.Decimal StoryChat.Text

/-! ## Writing -/

/-- A number with at least `width` digits. -/
def padded (width n : Nat) : List Char :=
  let ds := (digits n).map Digit.char
  List.replicate (width - ds.length) '0' ++ ds

/-- A year: four digits, or a sign and at least four where four do not do. -/
def yearChars (y : Int) : List Char :=
  if 0 ≤ y ∧ y ≤ 9999 then padded 4 y.natAbs
  else (if y < 0 then '-' else '+') :: padded 4 y.natAbs

/-- The fraction of a second, in as many groups of three digits as it needs. -/
def fractionChars (nano : Nat) : List Char :=
  if nano = 0 then []
  else if nano % 1000000 = 0 then '.' :: padded 3 (nano / 1000000)
  else if nano % 1000 = 0 then '.' :: padded 6 (nano / 1000)
  else '.' :: padded 9 nano

/-- The text of a timestamp, as `serde` writes a `DateTime<Utc>`. -/
def text (t : Timestamp) : String :=
  let date := Calendar.dateOf t.day
  let leap := t.nano / 1000000000
  String.ofList (yearChars date.year ++ '-' :: padded 2 date.month ++ '-' :: padded 2 date.day ++
    'T' :: padded 2 (t.second / 3600) ++ ':' :: padded 2 (t.second / 60 % 60) ++
    ':' :: padded 2 (t.second % 60 + leap) ++ fractionChars (t.nano % 1000000000) ++ ['Z'])

/-! ## Reading

Each part takes what it needs from the front of the text. -/

/-- A reader of the front of a text. -/
abbrev Reader := StateT (List Char) Option

/-- Pass over blanks. -/
def skipBlank : Reader Unit := modify dropBlank

/-- One given character. -/
def expect (c : Char) : Reader Unit := do
  match ← get with
  | x :: cs => if x = c then set cs else failure
  | [] => failure

/-- A number of one to `most` digits, with blanks in front. -/
def number (most : Nat) : Reader Nat := do
  skipBlank
  let cs ← get
  let ds := (span cs).1.take most
  if ds = [] then failure
  set (cs.drop ds.length)
  return value ds

/-- A number in a range, of one or two digits. -/
def twoDigits (low high : Nat) : Reader Nat := do
  let n ← number 2
  if low ≤ n ∧ n ≤ high then return n else failure

/-- A year: up to four digits, or any number of them behind a sign. -/
def year : Reader Int := do
  skipBlank
  match ← get with
  | '-' :: cs =>
    if (span cs).1 = [] then failure
    set (span cs).2
    return -(value (span cs).1 : Int)
  | '+' :: cs =>
    if (span cs).1 = [] then failure
    set (span cs).2
    return (value (span cs).1 : Int)
  | _ => return ((← number 4) : Nat)

/-- A separator, with blanks in front. -/
def separator (c : Char) : Reader Unit := do
  skipBlank
  expect c

/-- The mark between date and time. -/
def timeMark : Reader Unit := do
  match ← get with
  | c :: cs => if c = 'T' ∨ c = 't' ∨ c = ' ' then set cs else failure
  | [] => failure

/-- A fraction of a second, in nanoseconds. Digits behind the ninth are dropped. -/
def fraction : Reader Nat := do
  match ← get with
  | '.' :: cs =>
    let (ds, rest) := span cs
    if ds = [] then failure
    set rest
    let ds := ds.take 9
    return value ds * Nat.pow 10 (9 - ds.length)
  | _ => return 0

/-- Exactly two digits. -/
def digitPair : Reader Nat := do
  match ← get with
  | a :: b :: cs =>
    match digit? a, digit? b with
    | some a, some b => set cs; return 10 * a.val + b.val
    | _, _ => failure
  | _ => failure

/-- An offset from universal time, in seconds. -/
def offset : Reader Int := do
  match ← get with
  | a :: b :: c :: cs =>
    if [a, b, c].map Char.toUpper = ['U', 'T', 'C'] then set cs; return 0
  | _ => pure ()
  match ← get with
  | [] => failure
  | c :: cs =>
    if c = 'Z' ∨ c = 'z' then set cs; return 0
    let minus := c = '-' ∨ c = '\u2212'
    if ¬ minus ∧ c ≠ '+' then failure
    set cs
    let hours ← digitPair
    modify (·.dropWhile fun c => c == ':' || isBlank c)
    let minutes ← digitPair
    if 59 < minutes then failure
    let seconds : Int := (hours * 3600 + minutes * 60 : Nat)
    return if minus then -seconds else seconds

/-- The whole of a timestamp. -/
def reader : Reader Timestamp := do
  let y ← year
  separator '-'
  let month ← twoDigits 1 12
  separator '-'
  let day ← twoDigits 1 31
  timeMark
  let hour ← twoDigits 0 23
  separator ':'
  let minute ← twoDigits 0 59
  separator ':'
  let second ← twoDigits 0 60
  let nano ← fraction
  skipBlank
  let shift ← offset
  skipBlank
  if (← get) ≠ [] then failure
  let date : Calendar.Date := ⟨y, month, day⟩
  if ¬ date.valid ∨ 86400 ≤ shift.natAbs then failure
  let leap := if second = 60 then 1 else 0
  let clock : Int := (hour * 3600 + minute * 60 + (second - leap) : Nat)
  let moved := clock - shift
  let days := Calendar.dayNumber date + moved / 86400
  if ¬ (Calendar.dateOf days).valid then failure
  return ⟨days, (moved % 86400).toNat, nano + leap * 1000000000⟩

/-- The timestamp that a text writes, as a `DateTime<Utc>` is parsed. -/
def ofText? (s : String) : Option Timestamp := (reader.run s.toList).map (·.1)

/-- The beginning of the year 2000. -/
def millennium : Timestamp := ⟨10957, 0, 0⟩

end Timestamp

end StoryChat
