/-!
# Dates and times

A moment is a date, a time of day, or both, and in the last case perhaps an offset from universal
time.  It is read from its written form and has one text of its own: the date and the time are
joined by a `T`, seconds are always written, and of their fraction at most nine digits count, of
which the zeros at the end are dropped.
-/

namespace TreeGen

namespace Moment

/-! ## Dates, times and offsets -/

structure Date where
  year : Nat
  month : Nat
  day : Nat
deriving DecidableEq, Repr

structure TimeOfDay where
  hour : Nat
  minute : Nat
  /-- The second; sixty is a leap second. -/
  second : Nat
  /-- The digits of the second's fraction, at most nine and without zeros at the end. -/
  fraction : List Char
deriving DecidableEq, Repr

inductive Offset where
  | universal
  | east (minutes : Nat)
  | west (minutes : Nat)
deriving DecidableEq, Repr

def padded (width number : Nat) : String :=
  let digits := (toString number).toList
  String.ofList (List.replicate (width - digits.length) '0' ++ digits)

def Date.text (date : Date) : String :=
  padded 4 date.year ++ "-" ++ padded 2 date.month ++ "-" ++ padded 2 date.day

def TimeOfDay.text (time : TimeOfDay) : String :=
  padded 2 time.hour ++ ":" ++ padded 2 time.minute ++ ":" ++ padded 2 time.second
    ++ (if time.fraction = [] then "" else "." ++ String.ofList time.fraction)

def minutesText (minutes : Nat) : String :=
  padded 2 (minutes / 60) ++ ":" ++ padded 2 (minutes % 60)

def Offset.text : Offset → String
  | .universal => "Z"
  | .east minutes => "+" ++ minutesText minutes
  | .west minutes => (if minutes = 0 then "+" else "-") ++ minutesText minutes

end Moment

/-! ## Moments -/

/-- A date, a time of day, or both. -/
inductive Moment where
  | date (date : Moment.Date)
  | time (time : Moment.TimeOfDay)
  | both (date : Moment.Date) (time : Moment.TimeOfDay) (offset : Option Moment.Offset)
deriving DecidableEq, Repr

namespace Moment

def text : Moment → String
  | .date day => day.text
  | .time clock => clock.text
  | .both day clock offset => day.text ++ "T" ++ clock.text ++ (offset.map Offset.text).getD ""

/-! ## Reading -/

def decimalValue (digits : List Char) : Nat :=
  digits.foldl (fun number c => number * 10 + (c.toNat - '0'.toNat)) 0

/-- Split off a number of a given count of digits, where no further digit may follow. -/
def fixedDigits (count : Nat) (text : List Char) : Option (Nat × List Char) :=
  let digits := text.takeWhile Char.isDigit
  if digits.length = count then some (decimalValue digits, text.drop count) else none

def fixedChar (expected : Char) : List Char → Option (List Char)
  | c :: rest => if c = expected then some rest else none
  | [] => none

def daysOf (year month : Nat) : Nat :=
  if month = 2 then
    if (year % 4 = 0 ∧ year % 100 ≠ 0) ∨ year % 400 = 0 then 29 else 28
  else if month ∈ [4, 6, 9, 11] then 30
  else 31

def date? (text : List Char) : Option (Date × List Char) := do
  let (year, text) ← fixedDigits 4 text
  let text ← fixedChar '-' text
  let (month, text) ← fixedDigits 2 text
  let text ← fixedChar '-' text
  let (day, text) ← fixedDigits 2 text
  if 1 ≤ month ∧ month ≤ 12 ∧ 1 ≤ day ∧ day ≤ daysOf year month then
    some (⟨year, month, day⟩, text)
  else none

def countedFraction (digits : List Char) : List Char :=
  ((digits.take 9).reverse.dropWhile (· == '0')).reverse

/-- Split off the seconds, if there are any, and their fraction, if there is one. -/
def seconds? : List Char → Option ((Nat × List Char) × List Char)
  | ':' :: text => do
    let (second, text) ← fixedDigits 2 text
    if second ≤ 60 then
      match text with
      | '.' :: text =>
        let digits := text.takeWhile Char.isDigit
        if digits = [] then none
        else some ((second, countedFraction digits), text.drop digits.length)
      | text => some ((second, []), text)
    else none
  | text => some ((0, []), text)

def timeOfDay? (text : List Char) : Option (TimeOfDay × List Char) := do
  let (hour, text) ← fixedDigits 2 text
  let text ← fixedChar ':' text
  let (minute, text) ← fixedDigits 2 text
  let ((second, fraction), text) ← seconds? text
  if hour ≤ 23 ∧ minute ≤ 59 then some (⟨hour, minute, second, fraction⟩, text) else none

def offsetMinutes? (text : List Char) : Option Nat := do
  let (hours, text) ← fixedDigits 2 text
  let text ← fixedChar ':' text
  let (minutes, text) ← fixedDigits 2 text
  if hours ≤ 23 ∧ minutes ≤ 59 ∧ text = [] then some (hours * 60 + minutes) else none

/-- The offset that a text consists of; an empty text is none. -/
def offset? : List Char → Option (Option Offset)
  | [] => some none
  | ['Z'] => some (some .universal)
  | ['z'] => some (some .universal)
  | '+' :: text => (offsetMinutes? text).map fun minutes => some (.east minutes)
  | '-' :: text => (offsetMinutes? text).map fun minutes => some (.west minutes)
  | _ => none

def ofChars? (text : List Char) : Option Moment :=
  match date? text with
  | some (day, []) => some (.date day)
  | some (day, separator :: rest) =>
    if separator = 'T' ∨ separator = 't' ∨ separator = ' ' then do
      let (clock, rest) ← timeOfDay? rest
      return .both day clock (← offset? rest)
    else none
  | none =>
    match timeOfDay? text with
    | some (clock, []) => some (.time clock)
    | _ => none

end Moment

end TreeGen
