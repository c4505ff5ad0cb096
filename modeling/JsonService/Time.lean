import JsonService.Text.Blank
import JsonService.Text.Digits

/-!
# Points in time

A point in time by the seconds since the start of 1970 and the nanoseconds after them, and its text as a
date and a time of day. A leap second counts as nanoseconds beyond the last second before it.
-/
namespace JsonService

structure Time where
  seconds : Int := 0
  nanos : Nat := 0
  deriving DecidableEq, Repr

namespace Time

def epoch : Time := {}

structure Date where
  year : Int
  month : Nat
  day : Nat
  deriving DecidableEq, Repr

def isLeap (year : Int) : Bool := year % 4 = 0 ∧ (year % 100 ≠ 0 ∨ year % 400 = 0)

def monthDays (year : Int) (month : Nat) : Nat :=
  if month = 2 then if isLeap year then 29 else 28
  else if month = 4 ∨ month = 6 ∨ month = 9 ∨ month = 11 then 30
  else 31

/-- The days since the start of 1970, by years that begin in March and cycles of four hundred of them. -/
def Date.days (d : Date) : Int :=
  let year := if d.month ≤ 2 then d.year - 1 else d.year
  let cycle := Int.fdiv year 400
  let yearOfCycle := year - cycle * 400
  let month : Int := (d.month + 9) % 12
  let dayOfYear := (153 * month + 2) / 5 + d.day - 1
  cycle * 146097 + yearOfCycle * 365 + yearOfCycle / 4 - yearOfCycle / 100 + dayOfYear - 719468

/-- The day that is so many days after the start of 1970. -/
def Date.ofDays (days : Int) : Date :=
  let z := days + 719468
  let cycle := Int.fdiv z 146097
  let dayOfCycle := z - cycle * 146097
  let yearOfCycle := (dayOfCycle - dayOfCycle / 1460 + dayOfCycle / 36524 - dayOfCycle / 146096) / 365
  let dayOfYear := dayOfCycle - (365 * yearOfCycle + yearOfCycle / 4 - yearOfCycle / 100)
  let month := (5 * dayOfYear + 2) / 153
  let day := dayOfYear - (153 * month + 2) / 5 + 1
  let month := if month < 10 then month + 3 else month - 9
  let year := yearOfCycle + cycle * 400
  ⟨if month ≤ 2 then year + 1 else year, month.toNat, day.toNat⟩

/-- A number with zeros before it. -/
def padded (width n : Nat) : String :=
  let digits := Nat.toDigits 10 n
  String.ofList (List.replicate (width - digits.length) '0' ++ digits)

/-- A year: four digits, with a sign if four do not suffice. -/
def yearText (year : Int) : String :=
  if 0 ≤ year ∧ year ≤ 9999 then padded 4 year.toNat
  else (if year < 0 then "-" else "+") ++ padded 4 year.natAbs

/-- The fraction of a second, with as many digits as it needs in groups of three. -/
def fractionText (nanos : Nat) : String :=
  if nanos = 0 then ""
  else if nanos % 1000000 = 0 then "." ++ padded 3 (nanos / 1000000)
  else if nanos % 1000 = 0 then "." ++ padded 6 (nanos / 1000)
  else "." ++ padded 9 nanos

def render (t : Time) : String :=
  let days := Int.fdiv t.seconds 86400
  let date := Date.ofDays days
  let second := (t.seconds - days * 86400).toNat
  let extra := t.nanos / 1000000000
  String.join [yearText date.year, "-", padded 2 date.month, "-", padded 2 date.day, "T",
    padded 2 (second / 3600), ":", padded 2 (second / 60 % 60), ":", padded 2 (second % 60 + extra),
    fractionText (t.nanos % 1000000000), "Z"]

/-! ## Reading -/

/-- At least one digit and at most `most`, as a number. -/
def takeNumber? (most : Nat) (cs : List Char) : Option (Nat × List Char) :=
  let ds := (cs.take most).takeWhile Char.isDigit
  if ds.isEmpty then none else some (Text.decimal ds, cs.drop ds.length)

/-- A mark, after blanks. -/
def takeMark? (mark : Char) (cs : List Char) : Option (List Char) :=
  match cs.dropWhile Text.isBlank with
  | c :: rest => if c = mark then some rest else none
  | [] => none

/-- A year: with a sign any number of digits, without one at most four. -/
def takeYear? (cs : List Char) : Option (Int × List Char) :=
  match cs.dropWhile Text.isBlank with
  | '-' :: rest => (takeNumber? rest.length rest).map fun (n, rest) => (-(n : Int), rest)
  | '+' :: rest => (takeNumber? rest.length rest).map fun (n, rest) => ((n : Int), rest)
  | cs => (takeNumber? 4 cs).map fun (n, rest) => ((n : Int), rest)

/-- A field of two digits, after blanks. -/
def takeField? (cs : List Char) : Option (Nat × List Char) := takeNumber? 2 (cs.dropWhile Text.isBlank)

/-- The fraction of a second, in nanoseconds; digits after the ninth do not count. -/
def takeFraction? (cs : List Char) : Option (Nat × List Char) :=
  match cs with
  | '.' :: rest =>
    let ds := rest.takeWhile Char.isDigit
    if ds.isEmpty then none
    else
      let kept := ds.take 9
      some (Text.decimal kept * Nat.pow 10 (9 - kept.length), rest.drop ds.length)
  | cs => some (0, cs)

/-- The offset from universal time, in seconds. -/
def takeOffset? (cs : List Char) : Option (Int × List Char) :=
  match cs with
  | c :: rest =>
    if c = 'Z' ∨ c = 'z' then some (0, rest)
    else if c = '+' ∨ c = '-' ∨ c = '\u2212' then
      match rest with
      | h :: h' :: rest =>
        match rest.dropWhile fun c => c = ':' ∨ Text.isBlank c with
        | m :: m' :: rest =>
          if [h, h', m, m'].all Char.isDigit ∧ m < '6' then
            let seconds : Int := (Text.decimal [h, h'] * 60 + Text.decimal [m, m']) * 60
            some (if c = '+' then seconds else -seconds, rest)
          else none
        | _ => none
      | _ => none
    else none
  | [] => none

/-- The offset, or the name of universal time. -/
def takeZone? (cs : List Char) : Option (Int × List Char) :=
  if (cs.take 3).map Char.toUpper = ['U', 'T', 'C'] then some (0, cs.drop 3) else takeOffset? cs

/-- Whether a year belongs to the calendar. -/
def inCalendar (year : Int) : Bool := -262143 ≤ year ∧ year ≤ 262142

/-- Reads a point in time: a date, a time of day and an offset, and blanks at the end. The date belongs to the
calendar here and in universal time. -/
def parse? (s : String) : Option Time := do
  let (year, cs) ← takeYear? s.toList
  let cs ← takeMark? '-' cs
  let (month, cs) ← takeField? cs
  let cs ← takeMark? '-' cs
  let (day, cs) ← takeField? cs
  let cs ← match cs with
    | c :: rest => if c = 'T' ∨ c = 't' ∨ c = ' ' then some rest else none
    | [] => none
  let (hour, cs) ← takeField? cs
  let cs ← takeMark? ':' cs
  let (minute, cs) ← takeField? cs
  let cs ← takeMark? ':' cs
  let (second, cs) ← takeField? cs
  let (nanos, cs) ← takeFraction? cs
  let (offset, cs) ← takeZone? (cs.dropWhile Text.isBlank)
  if !cs.all Text.isBlank ∨ month < 1 ∨ 12 < month ∨ day < 1 ∨ monthDays year month < day ∨ 23 < hour ∨ 59 < minute
      ∨ 60 < second ∨ !inCalendar year ∨ 86400 ≤ offset.natAbs then none
  else
    let (second, nanos) := if second = 60 then (59, nanos + 1000000000) else (second, nanos)
    let here := (Date.mk year month day).days * 86400 + hour * 3600 + minute * 60 + second
    let t : Time := ⟨here - offset, nanos⟩
    if inCalendar (Date.ofDays (Int.fdiv t.seconds 86400)).year then some t else none

end Time

end JsonService
