import CommandContract.Utility.Task

set_option autoImplicit false

/-!
# Dates

Moments are counted in seconds from the beginning of 1970, and written by a form with letters for
their parts. There is one zone, and no clock: a moment that is not given is the first one.
-/
namespace CommandContract.Utility

structure Moment where
  year : Int
  month : Nat
  day : Nat
  hour : Nat
  minute : Nat
  second : Nat
  deriving DecidableEq, Repr

namespace Moment

/-- The days from the beginning of 1970 to a date. Years begin in March, so that a leap day ends
one. -/
def daysTo (year : Int) (month day : Nat) : Int :=
  let y := if month ≤ 2 then year - 1 else year
  let era := y.fdiv 400
  let yearOfEra := y - era * 400
  let dayOfYear : Int := (153 * ((month + 9) % 12) + 2) / 5 + day - 1
  era * 146097 + yearOfEra * 365 + yearOfEra / 4 - yearOfEra / 100 + dayOfYear - 719468

/-- The date that is some days after the beginning of 1970. -/
def dateOf (days : Int) : Int × Nat × Nat :=
  let z := days + 719468
  let era := z.fdiv 146097
  let dayOfEra := z - era * 146097
  let yearOfEra := (dayOfEra - dayOfEra / 1460 + dayOfEra / 36524 - dayOfEra / 146096) / 365
  let dayOfYear := dayOfEra - (365 * yearOfEra + yearOfEra / 4 - yearOfEra / 100)
  let shifted := (5 * dayOfYear + 2) / 153
  let day := (dayOfYear - (153 * shifted + 2) / 5 + 1).toNat
  let month := (if shifted < 10 then shifted + 3 else shifted - 9).toNat
  (yearOfEra + era * 400 + (if month ≤ 2 then 1 else 0), month, day)

def ofSeconds (n : Int) : Moment :=
  let days := n.fdiv 86400
  let rest := (n - days * 86400).toNat
  let (year, month, day) := dateOf days
  ⟨year, month, day, rest / 3600, rest / 60 % 60, rest % 60⟩

def days (m : Moment) : Int := daysTo m.year m.month m.day

def seconds (m : Moment) : Int := m.days * 86400 + m.hour * 3600 + m.minute * 60 + m.second

/-- The day of the week, from zero for Sunday on. -/
def weekday (m : Moment) : Nat := ((m.days + 4) % 7).toNat

/-- The day of the year, from one on. -/
def dayOfYear (m : Moment) : Nat := (m.days - daysTo m.year 1 1 + 1).toNat

end Moment

def weekdayNames : List String :=
  ["Sunday", "Monday", "Tuesday", "Wednesday", "Thursday", "Friday", "Saturday"]

def monthNames : List String := [
  "January", "February", "March", "April", "May", "June", "July", "August", "September", "October",
  "November", "December"]

/-- A number with at least two digits, filled with a character. -/
def twoDigits (fill : Char) (n : Nat) : String :=
  (if n < 10 then String.ofList [fill] else "") ++ toString n

/-- What a letter of a form stands for. -/
def Moment.part (m : Moment) (letter : Char) : Option String :=
  let two := twoDigits '0'
  let weekday := weekdayNames.getD m.weekday ""
  let month := monthNames.getD (m.month - 1) ""
  let half := (m.hour + 11) % 12 + 1
  let year := toString m.year
  let time := two m.hour ++ ":" ++ two m.minute ++ ":" ++ two m.second
  let monday := (m.weekday + 6) % 7
  match letter with
  | 'Y' => some year
  | 'C' => some (two (m.year / 100).toNat)
  | 'y' => some (two (m.year % 100).toNat)
  | 'm' => some (two m.month)
  | 'd' => some (two m.day)
  | 'e' => some (twoDigits ' ' m.day)
  | 'H' => some (two m.hour)
  | 'k' => some (twoDigits ' ' m.hour)
  | 'I' => some (two half)
  | 'l' => some (twoDigits ' ' half)
  | 'M' => some (two m.minute)
  | 'S' => some (two m.second)
  | 'N' => some "000000000"
  | 's' => some (toString m.seconds)
  | 'j' => some (if m.dayOfYear < 100 then "0" ++ two m.dayOfYear else toString m.dayOfYear)
  | 'u' => some (toString (monday + 1))
  | 'w' => some (toString m.weekday)
  | 'U' => some (two ((m.dayOfYear + 6 - m.weekday) / 7))
  | 'W' => some (two ((m.dayOfYear + 6 - monday) / 7))
  | 'a' => some (String.ofList (weekday.toList.take 3))
  | 'A' => some weekday
  | 'b' => some (String.ofList (month.toList.take 3))
  | 'h' => some (String.ofList (month.toList.take 3))
  | 'B' => some month
  | 'p' => some (if m.hour < 12 then "AM" else "PM")
  | 'P' => some (if m.hour < 12 then "am" else "pm")
  | 'Z' => some "UTC"
  | 'z' => some "+0000"
  | 'F' => some (year ++ "-" ++ two m.month ++ "-" ++ two m.day)
  | 'T' => some time
  | 'X' => some time
  | 'R' => some (two m.hour ++ ":" ++ two m.minute)
  | 'D' => some (two m.month ++ "/" ++ two m.day ++ "/" ++ two (m.year % 100).toNat)
  | 'x' => some (two m.month ++ "/" ++ two m.day ++ "/" ++ two (m.year % 100).toNat)
  | 'n' => some "\n"
  | 't' => some "\t"
  | '%' => some "%"
  | _ => none

/-- A moment written by a form. -/
def Moment.text (m : Moment) : List Char → String
  | '%' :: c :: cs => (m.part c).getD (String.ofList ['%', c]) ++ m.text cs
  | c :: cs => String.ofList [c] ++ m.text cs
  | [] => ""

/-- The number of the digits at the beginning of a text, if there are as many as asked for. -/
def leadingDigits? (count : Nat) (cs : List Char) : Option (Nat × List Char) :=
  let ds := cs.take count
  if ds.length = count && ds.all Char.isDigit then
    some (ds.foldl (fun n c => 10 * n + (c.toNat - 48)) 0, cs.drop count)
  else none

/-- A date, and perhaps a time behind it. -/
def date? (cs : List Char) : Option Moment := do
  let (year, rest) ← leadingDigits? 4 cs
  let rest ← Text.dropLeading? ['-'] rest
  let (month, rest) ← leadingDigits? 2 rest
  let rest ← Text.dropLeading? ['-'] rest
  let (day, rest) ← leadingDigits? 2 rest
  let (time, rest) ← match rest with
    | [] => some ((0, 0, 0), [])
    | c :: rest =>
      if c = 'T' || c = ' ' then do
        let (hour, rest) ← leadingDigits? 2 rest
        let rest ← Text.dropLeading? [':'] rest
        let (minute, rest) ← leadingDigits? 2 rest
        match rest with
        | ':' :: rest => do
          let (second, rest) ← leadingDigits? 2 rest
          some ((hour, minute, second), rest)
        | rest => some ((hour, minute, 0), rest)
      else none
  let (hour, minute, second) := time
  let m : Moment := ⟨year, month, day, hour, minute, second⟩
  let isZone := ["", "Z", " UTC", "UTC", "+00:00", "+0000"].contains (String.ofList rest)
  if isZone && Moment.ofSeconds m.seconds = m then some m else none

/-- A moment given by its seconds or as a date. -/
def moment? (text : String) : Option Moment :=
  match text.toList with
  | '@' :: cs => (String.ofList cs).toInt?.map Moment.ofSeconds
  | cs => date? cs

/-- Shows a moment. -/
def showDate (c : Call) : Task Unit :=
  withOptions c [flag 'u' "utc", flag 'u' "universal", valued 'd' "date", flag 'R' "rfc-email",
      ⟨'I', "iso-8601", .perhaps, true⟩, valued 's' "set", valued 'r' "reference"] 1 fun o => do
    let given := (o.value? 'd').getD "@0"
    match moment? given, o.operands with
    | none, _ => refuse c 1 ("invalid date " ++ quoted given)
    | some m, operands =>
      let form := match o.last? ['I', 'R'] with
        | some 'R' => "%a, %d %b %Y %T %z"
        | some _ => if (o.value? 'I').getD "" = "seconds" then "%FT%T+00:00" else "%F"
        | none => "%a %b %e %T %Z %Y"
      match operands with
      | [] => putLine (m.text form.toList)
      | [operand] =>
        match operand.toList with
        | '+' :: form => putLine (m.text form)
        | _ => refuse c 1 ("invalid date " ++ quoted operand)
      | _ :: extra :: _ => misuse c 1 ("extra operand " ++ quoted extra)

end CommandContract.Utility
