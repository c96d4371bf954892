import StaticSite.Text.Case
import StaticSite.Template.Property

/-!
# Solar Hijri dates

A date holds a year, a month and a day, which may be any values. In the data of a page every object
or array under a name that ends in `date`, in any case, is a date. Dates are written in Persian and
compared field by field.
-/

namespace StaticSite.Template

/-- The names of the months. -/
def monthNames : List String :=
  ["فروردین", "اردیبهشت", "خرداد", "تیر", "مرداد", "شهریور", "مهر", "آبان", "آذر", "دی", "بهمن",
    "اسفند"]

/-- The ordinals of the days of a month. -/
def dayNames : List String :=
  ["یکم", "دوم", "سوم", "چهارم", "پنجم", "ششم", "هفتم", "هشتم", "نهم", "دهم", "یازدهم", "دوازدهم",
    "سیزدهم", "چهاردهم", "پانزدهم", "شانزدهم", "هفدهم", "هجدهم", "نوزدهم", "بیستم", "بیست و یکم",
    "بیست و دوم", "بیست و سوم", "بیست و چهارم", "بیست و پنجم", "بیست و ششم", "بیست و هفتم",
    "بیست و هشتم", "بیست و نهم", "سی\u200cام", "سی و یکم"]

/-- Writes a decimal digit with the Persian one of its value. -/
def persianDigit (c : Char) : Char :=
  if c.isDigit then Char.ofNat (0x6f0 + Decimal.digitValue c) else c

/-- A text with its decimal digits in Persian. -/
def persianDigits (s : String) : String :=
  String.ofList (s.toList.map persianDigit)

/-- The entry of a table at a position that counts from one. -/
def tableEntry (table : List String) (position : Value) : String :=
  ((positionOfKey? (.number (position.toNumber - 1.0))).bind (table[·]?)).getD "undefined"

namespace Value

/-- A date with the fields of a value, undefined where it has none. -/
def toDate (ref : Nat) (v : Value) : Value :=
  date ref ((v.field? "year").getD undefined) ((v.field? "month").getD undefined)
    ((v.field? "day").getD undefined)

end Value

/-- Year, month and day between slashes, with Persian digits. -/
def shortDate (year month day : Value) : String :=
  persianDigits s!"{year.toText}/{month.toText}/{day.toText}"

/-- The day's ordinal, the month's name and the year. -/
def longDate (year month day : Value) : String :=
  s!"{tableEntry dayNames day} {tableEntry monthNames month} ماه {persianDigits year.toText}"

/-- The sign of the first of the given fields that differs; fields without an order count as
equal. -/
def compareFields (other : Value) : List (String × Value) → Except Fault Float
  | [] => .ok 0.0
  | (name, mine) :: rest => do
    match Value.compare mine (← other.property name) with
    | some .gt => .ok 1.0
    | some .lt => .ok (-1.0)
    | _ => compareFields other rest

/-- Compares a date with another value by year, then month, then day. -/
def compareDates (year month day other : Value) : Except Fault Float :=
  compareFields other [("year", year), ("month", month), ("day", day)]

/-- The methods of dates. -/
def dateMethod (year month day : Value) (name : String) (other : Value) : Except Fault Value :=
  if name = "toShortFormJalali" then .ok (.string (shortDate year month day))
  else if name = "toLongFormJalali" then .ok (.string (longDate year month day))
  else if name = "compare" then (compareDates year month day other).map .number
  else .error (.mismatch (.notMethod "date" name))

/-- Whether values under the name are dates. -/
def isDateName (name : String) : Bool :=
  ['d', 'a', 't', 'e'].isSuffixOf (Text.lower name.toList)

namespace Value

mutual

/-- Makes dates of the objects and arrays under names of dates, at any depth outside dates. -/
def convertDates : Value → Value
  | array ref items => array ref (convertItems items)
  | object ref fields => object ref (convertFields fields)
  | v => v

/-- Converts the dates in each of some values. -/
def convertItems : List Value → List Value
  | [] => []
  | v :: rest => convertDates v :: convertItems rest

/-- Converts the dates in each of some fields. -/
def convertFields : List (String × Value) → List (String × Value)
  | [] => []
  | (name, v) :: rest => (name, convertField (isDateName name) v) :: convertFields rest

/-- The value of a field, which becomes a date if its name says so. -/
def convertField (isDate : Bool) : Value → Value
  | array ref items =>
    if isDate then toDate ref (array ref items) else array ref (convertItems items)
  | object ref fields =>
    if isDate then toDate ref (object ref fields) else object ref (convertFields fields)
  | v => v

end

end Value

end StaticSite.Template
