import ProviderScout.Text.Blank
import ProviderScout.Text.Digits
import ProviderScout.Time.Calendar
import ProviderScout.Time.Instant

/-!
Date and time as text after RFC 3339. Written is the shortest form in UTC; read are also years with
a sign, numbers without leading zeros, white space between the parts and any offset.
-/

namespace ProviderScout.Rfc3339

open Text (dropBlanks ofDigits padded spanDigits)

/-- The year, with four digits up to 9999 and with a sign outside. -/
def yearText (year : Int) : String :=
  if 0 ≤ year && year ≤ 9999 then padded 4 year.toNat
  else (if year < 0 then "-" else "+") ++ padded 4 year.natAbs

/-- The fraction of a second with as many digits as it needs, in groups of three. -/
def fractionText (nanos : Nat) : String :=
  if nanos == 0 then ""
  else if nanos % 1000000 == 0 then "." ++ padded 3 (nanos / 1000000)
  else if nanos % 1000 == 0 then "." ++ padded 6 (nanos / 1000)
  else "." ++ padded 9 nanos

def render (t : Instant) : String :=
  let date := Calendar.Date.ofDays (t.secs / 86400)
  let second := (t.secs % 86400).toNat
  let leap := t.nanos / 1000000000
  yearText date.year ++ "-" ++ padded 2 date.month ++ "-" ++ padded 2 date.day ++ "T"
    ++ padded 2 (second / 3600) ++ ":" ++ padded 2 (second / 60 % 60) ++ ":"
    ++ padded 2 (second % 60 + leap) ++ fractionText (t.nanos % 1000000000) ++ "Z"

def twoDigits (cs : List Char) : Option (Nat × List Char) :=
  match spanDigits 10 2 (dropBlanks cs) with
  | ([], _) => none
  | (digits, rest) => some (ofDigits 10 digits, rest)

/-- Reads a year: up to four digits, or any number of them behind a sign. -/
def year (cs : List Char) : Option (Int × List Char) :=
  match dropBlanks cs with
  | '-' :: rest => match spanDigits 10 rest.length rest with
    | ([], _) => none
    | (digits, rest) => some (-ofDigits 10 digits, rest)
  | '+' :: rest => match spanDigits 10 rest.length rest with
    | ([], _) => none
    | (digits, rest) => some (ofDigits 10 digits, rest)
  | cs => match spanDigits 10 4 cs with
    | ([], _) => none
    | (digits, rest) => some (ofDigits 10 digits, rest)

/-- Reads over white space and one separator. -/
def separator (c : Char) (cs : List Char) : Option (List Char) :=
  match dropBlanks cs with
  | d :: rest => if d == c then some rest else none
  | [] => none

/-- Reads a fraction of a second in nanoseconds; digits past the ninth are dropped. -/
def fraction : List Char → Option (Nat × List Char)
  | '.' :: cs => match spanDigits 10 9 cs with
    | ([], _) => none
    | (digits, rest) =>
      some (ofDigits 10 (digits ++ List.replicate (9 - digits.length) '0'),
        rest.dropWhile Char.isDigit)
  | cs => some (0, cs)

/-- Reads the digits of an offset in minutes: two for hours and two for minutes, with any colons
and white space between them. -/
def offsetDigits : List Char → Option (Nat × List Char)
  | a :: b :: rest =>
    match rest.dropWhile fun c => c == ':' || Text.isBlank c with
    | c :: d :: rest =>
      if a.isDigit && b.isDigit && c.isDigit && d.isDigit && c ≤ '5' then
        some (60 * ofDigits 10 [a, b] + ofDigits 10 [c, d], rest)
      else none
    | _ => none
  | _ => none

def offset : List Char → Option (Int × List Char)
  | 'Z' :: rest | 'z' :: rest => some (0, rest)
  | '+' :: rest => (offsetDigits rest).map fun (m, rest) => (m, rest)
  | '-' :: rest | '−' :: rest => (offsetDigits rest).map fun (m, rest) => (-m, rest)
  | u :: t :: c :: rest =>
    if u.toUpper == 'U' && t.toUpper == 'T' && c.toUpper == 'C' then some (0, rest) else none
  | _ => none

def yearInRange (year : Int) : Bool := -262143 ≤ year && year ≤ 262142

/-- Reads an instant. Second 60 is a leap second. -/
def parse? (s : String) : Option Instant := do
  let (year, cs) ← year s.toList
  let (month, cs) ← twoDigits (← separator '-' cs)
  let (day, cs) ← twoDigits (← separator '-' cs)
  let cs ← match cs with
    | c :: rest => if c == 'T' || c == 't' || c == ' ' then some rest else none
    | [] => none
  let (hour, cs) ← twoDigits cs
  let (minute, cs) ← twoDigits (← separator ':' cs)
  let (second, cs) ← twoDigits (← separator ':' cs)
  let (nanos, cs) ← fraction cs
  let (minutes, cs) ← offset (dropBlanks cs)
  let date : Calendar.Date := ⟨year, month, day⟩
  if !(dropBlanks cs).isEmpty || !yearInRange year || !date.isValid then none
  else if 24 ≤ hour || 60 ≤ minute || 61 ≤ second || 1440 ≤ minutes.natAbs then none
  else
    let leap := second / 60
    let secs := 86400 * date.toDays + 3600 * hour + 60 * minute + (second - leap) - 60 * minutes
    if Instant.inRange secs then some ⟨secs, nanos + 1000000000 * leap⟩ else none

end ProviderScout.Rfc3339
