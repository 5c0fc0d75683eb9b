import ScriptHost.Text.Bytes

/-!
# Dates

A time is a number of seconds since the beginning of 1970; a date gives it as year, month, day and time of
the day. There is one time zone and no summer time.

* `Date.ofTime`, `Date.toTime`: from times to dates and back; a date's fields may lie out of their ranges.
* `Date.format`: a date's text by conversion specifiers.
-/

namespace ScriptHost

/-- A date and a time of the day. The month counts from zero. -/
structure Date where
  year : Int
  month : Int
  day : Int
  hour : Int
  minute : Int
  second : Int

namespace Date

/-- The number of days from the beginning of 1970 to a day of the (possibly negative) month. -/
def dayNumber (year month day : Int) : Int :=
  let year := year + Int.fdiv month 12
  let month := Int.fmod month 12
  let y := if month ≤ 1 then year - 1 else year
  let era := Int.fdiv y 400
  let yoe := y - era * 400
  let mp := Int.fmod (month + 10) 12
  let doy := (153 * mp + 2) / 5 + day - 1
  let doe := yoe * 365 + yoe / 4 - yoe / 100 + doy
  era * 146097 + doe - 719468

/-- The date of a day, by its number. -/
def ofDayNumber (n : Int) : Int × Int × Int :=
  let z := n + 719468
  let era := Int.fdiv z 146097
  let doe := z - era * 146097
  let yoe := (doe - doe / 1460 + doe / 36524 - doe / 146096) / 365
  let doy := doe - (365 * yoe + yoe / 4 - yoe / 100)
  let mp := (5 * doy + 2) / 153
  let day := doy - (153 * mp + 2) / 5 + 1
  let month := Int.fmod (mp + 2) 12
  (yoe + era * 400 + (if month ≤ 1 then 1 else 0), month, day)

/-- The time of a date. -/
def toTime (d : Date) : Int :=
  dayNumber d.year d.month d.day * 86400 + d.hour * 3600 + d.minute * 60 + d.second

/-- The date of a time. -/
def ofTime (t : Int) : Date :=
  let (year, month, day) := ofDayNumber (Int.fdiv t 86400)
  let s := Int.fmod t 86400
  { year, month, day, hour := s / 3600, minute := s / 60 % 60, second := s % 60 }

/-- The day of the week, Sunday being zero. -/
def weekday (d : Date) : Int := Int.fmod (dayNumber d.year d.month d.day + 4) 7

/-- The day of the year, from zero. -/
def yearDay (d : Date) : Int := dayNumber d.year d.month d.day - dayNumber d.year 0 1

/-- The year that a week belongs to, and the number of the week, weeks beginning on Monday and the first one
having most of its days in the year. -/
def isoWeek (d : Date) : Int × Int :=
  let wday := Int.fmod (d.weekday + 6) 7
  let thursday := dayNumber d.year d.month d.day - wday + 3
  let (year, _, _) := ofDayNumber thursday
  (year, (thursday - dayNumber year 0 1) / 7 + 1)

def dayNames : List String :=
  ["Sunday", "Monday", "Tuesday", "Wednesday", "Thursday", "Friday", "Saturday"]

def monthNames : List String :=
  ["January", "February", "March", "April", "May", "June", "July", "August", "September", "October",
   "November", "December"]

/-- A number filled up to a width. -/
def filled (width : Nat) (fill : Char) (n : Int) : String :=
  let digits := toString n.natAbs
  if n < 0 then "-" ++ "".pushn fill (width - 1 - digits.length) ++ digits
  else "".pushn fill (width - digits.length) ++ digits

/-- Two digits. -/
def two (n : Int) : String := filled 2 '0' n

/-- The hour on a clock with twelve. -/
def clockHour (d : Date) : Int := if d.hour % 12 = 0 then 12 else d.hour % 12

/-- The text of a conversion specifier. -/
def specifier (d : Date) (zone : String) (c : Char) : String :=
  let dayName := dayNames.getD d.weekday.toNat ""
  let monthName := monthNames.getD d.month.toNat ""
  let time := two d.hour ++ ":" ++ two d.minute ++ ":" ++ two d.second
  let half := if d.hour < 12 then "AM" else "PM"
  let slashed := two (d.month + 1) ++ "/" ++ two d.day ++ "/" ++ two (Int.fmod d.year 100)
  match c with
  | 'a' => String.ofList (dayName.toList.take 3)
  | 'A' => dayName
  | 'b' | 'h' => String.ofList (monthName.toList.take 3)
  | 'B' => monthName
  | 'c' =>
    String.ofList (dayName.toList.take 3) ++ " " ++ String.ofList (monthName.toList.take 3) ++ " "
      ++ filled 2 ' ' d.day ++ " " ++ time ++ " " ++ toString d.year
  | 'C' => two (Int.fdiv d.year 100)
  | 'd' => two d.day
  | 'D' | 'x' => slashed
  | 'e' => filled 2 ' ' d.day
  | 'F' => toString d.year ++ "-" ++ two (d.month + 1) ++ "-" ++ two d.day
  | 'g' => two (Int.fmod d.isoWeek.1 100)
  | 'G' => toString d.isoWeek.1
  | 'H' => two d.hour
  | 'I' => two d.clockHour
  | 'j' => filled 3 '0' (d.yearDay + 1)
  | 'm' => two (d.month + 1)
  | 'M' => two d.minute
  | 'n' => "\n"
  | 'p' => half
  | 'r' => two d.clockHour ++ ":" ++ two d.minute ++ ":" ++ two d.second ++ " " ++ half
  | 'R' => two d.hour ++ ":" ++ two d.minute
  | 's' => toString d.toTime
  | 'S' => two d.second
  | 't' => "\t"
  | 'T' | 'X' => time
  | 'u' => toString (if d.weekday = 0 then 7 else d.weekday)
  | 'U' => two ((d.yearDay + 7 - d.weekday) / 7)
  | 'V' => two d.isoWeek.2
  | 'w' => toString d.weekday
  | 'W' => two ((d.yearDay + 7 - Int.fmod (d.weekday + 6) 7) / 7)
  | 'y' => two (Int.fmod d.year 100)
  | 'Y' => toString d.year
  | 'z' => "+0000"
  | 'Z' => zone
  | c => String.ofList [c]

/-- The specifiers of one letter. -/
def plainSpecifiers : List Char := "aAbBcCdDeFgGhHIjmMnprRStTuUVwWxXyYzZ%".toList

/-- The letters that may follow a modifier. -/
def modifiedSpecifiers : Char → List Char
  | 'E' => "cCxXyY".toList
  | 'O' => "deHImMSuUVwWy".toList
  | _ => []

/-- A date's text by a format; the text of a specifier that is none comes back as a failure. -/
def format (d : Date) (zone : String) : Nat → List UInt8 → Bytes → Except (List UInt8) Bytes
  | 0, _, acc => .ok acc
  | _, [], acc => .ok acc
  | fuel + 1, c :: rest, acc =>
    if c != 37 then format d zone fuel rest (acc.push c)
    else
      match rest with
      | [] => .error []
      | a :: rest' =>
        let x := Char.ofNat a.toNat
        if plainSpecifiers.contains x then
          format d zone fuel rest' (acc.append (Bytes.ofString (d.specifier zone x)))
        else
          match rest' with
          | b :: rest'' =>
            let y := Char.ofNat b.toNat
            if (modifiedSpecifiers x).contains y then
              format d zone fuel rest'' (acc.append (Bytes.ofString (d.specifier zone y)))
            else .error rest
          | [] => .error rest

/-- The greatest number of a year that a date can have. -/
def maxYear : Int := 0x7FFFFFFF + 1900

/-- A date that can be represented. -/
def representable (d : Date) : Bool := decide (-0x80000000 + 1900 ≤ d.year) && decide (d.year ≤ maxYear)

end Date

end ScriptHost
