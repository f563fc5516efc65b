/-!
# Instants

A moment of Coordinated Universal Time as a calendar date, a second of the day and a
nanosecond. During a leap second the clock stays at the minute's last second and the
nanosecond goes on past `10^9`. Years run from -262143 to 262142.
-/

set_option autoImplicit false

namespace Unseal

def isLeapYear (y : Int) : Bool := y % 4 == 0 && (y % 100 != 0 || y % 400 == 0)

def monthLength (year : Int) (month : Nat) : Nat :=
  if month = 2 then if isLeapYear year then 29 else 28
  else if month = 4 ∨ month = 6 ∨ month = 9 ∨ month = 11 then 30
  else 31

structure Date where
  year : Int
  month : Nat
  day : Nat
  inYears : -262143 ≤ year ∧ year ≤ 262142
  inYear : 1 ≤ month ∧ month ≤ 12
  inMonth : 1 ≤ day ∧ day ≤ monthLength year month
deriving DecidableEq, Repr

namespace Date

def of? (year : Int) (month day : Nat) : Option Date :=
  if hy : -262143 ≤ year ∧ year ≤ 262142 then
    if hm : 1 ≤ month ∧ month ≤ 12 then
      if hd : 1 ≤ day ∧ day ≤ monthLength year month then some ⟨year, month, day, hy, hm, hd⟩
      else none
    else none
  else none

def next? (d : Date) : Option Date :=
  if d.day < monthLength d.year d.month then of? d.year d.month (d.day + 1)
  else if d.month < 12 then of? d.year (d.month + 1) 1
  else of? (d.year + 1) 1 1

def previous? (d : Date) : Option Date :=
  if 1 < d.day then of? d.year d.month (d.day - 1)
  else if 1 < d.month then of? d.year (d.month - 1) (monthLength d.year (d.month - 1))
  else of? (d.year - 1) 12 31

end Date

structure Instant where
  date : Date
  second : Nat
  nano : Nat
  inDay : second < 86400
  inSecond : nano < 1000000000 ∨ (nano < 2000000000 ∧ second % 60 = 59)
deriving DecidableEq, Repr

namespace Instant

def epoch : Instant :=
  ⟨⟨1970, 1, 1, by decide, by decide, by decide⟩, 0, 0, by decide, by decide⟩

instance : Inhabited Instant := ⟨epoch⟩

/-- A moment from a clock that runs `offset` minutes ahead. -/
def ofLocal? (date : Date) (second nano : Nat) (offset : Int)
    (inSecond : nano < 1000000000 ∨ (nano < 2000000000 ∧ second % 60 = 59)) : Option Instant :=
  let s : Int := second - offset * 60
  let day := if s < 0 then date.previous? else if 86400 ≤ s then date.next? else some date
  day.map fun d => ⟨d, (s % 86400).toNat, nano, by omega, by omega⟩

def padded (width n : Nat) : List Char :=
  let ds := Nat.toDigits 10 n
  List.replicate (width - ds.length) '0' ++ ds

def yearChars (y : Int) : List Char :=
  if 0 ≤ y ∧ y ≤ 9999 then padded 4 y.toNat
  else (if y < 0 then '-' else '+') :: padded 4 y.natAbs

/-- A fraction of a second to milli-, micro- or nanoseconds, whichever is exact first. -/
def fractionChars (n : Nat) : List Char :=
  if n = 0 then []
  else if n % 1000000 = 0 then '.' :: padded 3 (n / 1000000)
  else if n % 1000 = 0 then '.' :: padded 6 (n / 1000)
  else '.' :: padded 9 n

/-- The text of a moment, a leap second as second 60. -/
def chars (t : Instant) : List Char :=
  yearChars t.date.year ++ '-' :: (padded 2 t.date.month ++ '-' :: (padded 2 t.date.day ++ 'T' ::
    (padded 2 (t.second / 3600) ++ ':' :: (padded 2 (t.second / 60 % 60) ++ ':' ::
      (padded 2 (t.second % 60 + t.nano / 1000000000) ++
        (fractionChars (t.nano % 1000000000) ++ ['Z']))))))

def text (t : Instant) : String := String.ofList t.chars

end Instant
end Unseal
