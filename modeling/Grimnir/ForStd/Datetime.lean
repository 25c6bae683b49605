import Mathlib.Algebra.Group.Nat.Defs
import Mathlib.Data.List.Basic

/-!
# Dates and times

Python's `datetime`: the fields of a date in the proleptic Gregorian calendar and of a time
of day, with the offset from UTC of an aware one.  `isoformat` is the text form, and
`fromisoformat` its reader as `_datetimemodule.c` of CPython 3.12 has it, which is not in all
cases that of `datetime.py`: it walks over a C string and leaves some characters unread.  An
instant is a number of microseconds since the start of 1970 in UTC.

## Key results

- `toOrdinal_ofOrdinal`: the day of a number has this number
- `timestamp_of_ofTimestamp`: the fields of an instant give the instant back
- `fromisoformat_isoformat`: a datetime is read back from its text
- `exists_timestamp_fromisoformat`: so is its instant, unless its offset is less than a second
- `plain_isoformat`: the text is printable ASCII
-/

namespace Calendar

def isLeap (year : Nat) : Bool := year % 4 = 0 && (year % 100 ≠ 0 || year % 400 = 0)

def daysInMonth (year month : Nat) : Nat :=
  if month = 2 then if isLeap year then 29 else 28
  else if month = 4 ∨ month = 6 ∨ month = 9 ∨ month = 11 then 30
  else 31

/-- The days before January 1st of the year. -/
def daysBeforeYear (year : Nat) : Nat :=
  (year - 1) * 365 + (year - 1) / 4 - (year - 1) / 100 + (year - 1) / 400

/-- The days of the year before the month's first. -/
def daysBeforeMonth (year : Nat) : Nat → Nat
  | 0 => 0
  | 1 => 0
  | month + 2 => daysBeforeMonth year (month + 1) + daysInMonth year (month + 1)

/-- `date.toordinal`: January 1st of year 1 is day 1. -/
def toOrdinal (year month day : Nat) : Nat :=
  daysBeforeYear year + daysBeforeMonth year month + day

/-- The month and the day that lie `n` days after the first of `month`. -/
def monthDay (year : Nat) : Nat → Nat → Nat → Nat × Nat
  | 0, month, n => (month, n + 1)
  | fuel + 1, month, n =>
    if n < daysInMonth year month then (month, n + 1)
    else monthDay year fuel (month + 1) (n - daysInMonth year month)

/-- `date.fromordinal`: 400 years have 146097 days, 100 years 36524 and 4 years 1461, except
    the last ones of a cycle. -/
def ofOrdinal (ordinal : Nat) : Nat × Nat × Nat :=
  let n := ordinal - 1
  let n400 := n / 146097
  let n100 := n % 146097 / 36524
  let n4 := n % 146097 % 36524 / 1461
  let n1 := n % 146097 % 36524 % 1461 / 365
  let year := n400 * 400 + n100 * 100 + n4 * 4 + n1 + 1
  if n1 = 4 ∨ n100 = 4 then (year - 1, 12, 31)
  else (year, monthDay year 12 1 (n % 146097 % 36524 % 1461 % 365))

/-- `date.max.toordinal()`. -/
def maxOrdinal : Nat := 3652059

/-- The days before a month and its own are the days before the next. -/
private theorem daysBeforeMonth_succ (year : Nat) {month : Nat} (h : 1 ≤ month) :
    daysBeforeMonth year (month + 1) = daysBeforeMonth year month + daysInMonth year month := by
  obtain ⟨m, rfl⟩ := Nat.exists_eq_add_of_le' h
  rfl

/-- The twelve months make up the year. -/
private theorem daysBeforeMonth_thirteen (year : Nat) :
    daysBeforeMonth year 13 = if isLeap year then 366 else 365 := by
  simp only [daysBeforeMonth, daysInMonth]
  cases isLeap year <;> rfl

/-- The days before December and its 31 make up the year. -/
private theorem daysBeforeMonth_twelve (year : Nat) :
    daysBeforeMonth year 12 + 31 = if isLeap year then 366 else 365 := by
  rw [← daysBeforeMonth_thirteen]
  rfl

/-- Walking over the months keeps the day of the year. -/
private theorem daysBeforeMonth_monthDay (year fuel : Nat) {month : Nat} (n : Nat) (h : 1 ≤ month) :
    daysBeforeMonth year (monthDay year fuel month n).1 + (monthDay year fuel month n).2 =
      daysBeforeMonth year month + n + 1 := by
  induction fuel generalizing month n with
  | zero => rfl
  | succ fuel ih =>
    unfold monthDay
    split
    · rfl
    · rw [ih _ (by omega), daysBeforeMonth_succ year h]
      omega

/-- Months and days of a date are counted from one. -/
private theorem one_le_monthDay (year fuel : Nat) {month : Nat} (n : Nat) (h : 1 ≤ month) :
    1 ≤ (monthDay year fuel month n).1 ∧ 1 ≤ (monthDay year fuel month n).2 := by
  induction fuel generalizing month n with
  | zero => exact ⟨h, by simp [monthDay]⟩
  | succ fuel ih =>
    unfold monthDay
    split
    · exact ⟨h, by simp⟩
    · exact ih _ (by omega)

/-- A day of the year lies in one of its months. -/
private theorem monthDay_le (year fuel : Nat) {month n : Nat} (h : 1 ≤ month)
    (hfuel : fuel + month = 13) (hn : daysBeforeMonth year month + n < daysBeforeMonth year 13) :
    (monthDay year fuel month n).1 ≤ 12 ∧
      (monthDay year fuel month n).2 ≤ daysInMonth year (monthDay year fuel month n).1 := by
  induction fuel generalizing month n with
  | zero =>
    obtain rfl : month = 13 := by omega
    omega
  | succ fuel ih =>
    unfold monthDay
    split
    · rename_i hday
      exact ⟨by omega, hday⟩
    · have hsucc := daysBeforeMonth_succ year h
      exact ih (by omega) (by omega) (by omega)

/-- A leap year as the Gregorian calendar words it. -/
private theorem isLeap_iff (year : Nat) :
    isLeap year = true ↔ year % 4 = 0 ∧ (year % 100 ≠ 0 ∨ year % 400 = 0) := by
  simp [isLeap]

/-- The days before a year, cycle by cycle. -/
private theorem daysBeforeYear_cycles (n400 : Nat) {n100 n4 n1 : Nat} (h100 : n100 ≤ 3)
    (h4 : n4 ≤ 24) (h1 : n1 ≤ 3) : daysBeforeYear (n400 * 400 + n100 * 100 + n4 * 4 + n1 + 1) =
      n400 * 146097 + n100 * 36524 + n4 * 1461 + n1 * 365 := by
  unfold daysBeforeYear
  have hquarter : (n400 * 400 + n100 * 100 + n4 * 4 + n1 + 1 - 1) / 4 =
      n400 * 100 + n100 * 25 + n4 := by omega
  have hcentury : (n400 * 400 + n100 * 100 + n4 * 4 + n1 + 1 - 1) / 100 =
      n400 * 4 + n100 := by omega
  have hcycle : (n400 * 400 + n100 * 100 + n4 * 4 + n1 + 1 - 1) / 400 = n400 := by omega
  rw [hquarter, hcentury, hcycle]
  omega

/-- December 31st of the last year of a cycle. -/
private theorem toOrdinal_december (n400 : Nat) {n100 n4 : Nat} (h100 : n100 ≤ 3) (h4 : n4 ≤ 24)
    (h : n4 ≤ 23 ∨ n100 = 3) :
    toOrdinal (n400 * 400 + n100 * 100 + n4 * 4 + 4) 12 31 =
      n400 * 146097 + n100 * 36524 + n4 * 1461 + 1461 := by
  have hleap : isLeap (n400 * 400 + n100 * 100 + n4 * 4 + 4) = true := by
    rw [isLeap_iff]
    omega
  have hyear : daysBeforeYear (n400 * 400 + n100 * 100 + n4 * 4 + 4) =
      n400 * 146097 + n100 * 36524 + n4 * 1461 + 3 * 365 :=
    daysBeforeYear_cycles n400 h100 h4 (Nat.le_refl 3)
  have hmonth := daysBeforeMonth_twelve (n400 * 400 + n100 * 100 + n4 * 4 + 4)
  rw [hleap, if_pos rfl] at hmonth
  unfold toOrdinal
  omega

/-- The day of a number has this number. -/
theorem toOrdinal_ofOrdinal {ordinal : Nat} (h : 1 ≤ ordinal) :
    toOrdinal (ofOrdinal ordinal).1 (ofOrdinal ordinal).2.1 (ofOrdinal ordinal).2.2 = ordinal := by
  unfold ofOrdinal
  dsimp only
  -- the last day of a leap year is told apart by a fourth century or a fourth year
  split
  · rename_i hlast
    -- the fourth century of a cycle
    by_cases hcycle : (ordinal - 1) % 146097 / 36524 = 4
    · have hday := toOrdinal_december ((ordinal - 1) / 146097) (Nat.le_refl 3) (Nat.le_refl 24)
        (.inr rfl)
      have hyear : (ordinal - 1) / 146097 * 400 + (ordinal - 1) % 146097 / 36524 * 100 +
          (ordinal - 1) % 146097 % 36524 / 1461 * 4 +
          (ordinal - 1) % 146097 % 36524 % 1461 / 365 + 1 - 1 =
            (ordinal - 1) / 146097 * 400 + 3 * 100 + 24 * 4 + 4 := by omega
      rw [hyear, hday]
      omega
    -- the fourth year of four
    · have hfour : (ordinal - 1) % 146097 % 36524 % 1461 / 365 = 4 := by omega
      have hday := toOrdinal_december ((ordinal - 1) / 146097)
        (show (ordinal - 1) % 146097 / 36524 ≤ 3 by omega)
        (show (ordinal - 1) % 146097 % 36524 / 1461 ≤ 24 by omega) (by omega)
      rw [hfour, Nat.add_sub_cancel, hday]
      omega
  -- any other day is found in its year by month and day
  · rename_i hlast
    have hday := daysBeforeMonth_monthDay ((ordinal - 1) / 146097 * 400 +
      (ordinal - 1) % 146097 / 36524 * 100 + (ordinal - 1) % 146097 % 36524 / 1461 * 4 +
      (ordinal - 1) % 146097 % 36524 % 1461 / 365 + 1) 12
      ((ordinal - 1) % 146097 % 36524 % 1461 % 365) (Nat.le_refl 1)
    -- the years before it make up whole cycles, centuries, fours and single years
    have hyear := daysBeforeYear_cycles ((ordinal - 1) / 146097)
      (show (ordinal - 1) % 146097 / 36524 ≤ 3 by omega)
      (show (ordinal - 1) % 146097 % 36524 / 1461 ≤ 24 by omega)
      (show (ordinal - 1) % 146097 % 36524 % 1461 / 365 ≤ 3 by omega)
    have hfirst : ∀ year, daysBeforeMonth year 1 = 0 := fun _ => rfl
    rw [hfirst] at hday
    unfold toOrdinal
    rw [Nat.add_assoc, hday, hyear]
    omega

/-- A number up to the last one is a day of the years 1 to 9999. -/
private theorem ofOrdinal_valid {ordinal : Nat} (h : 1 ≤ ordinal) (hmax : ordinal ≤ maxOrdinal) :
    (1 ≤ (ofOrdinal ordinal).1 ∧ (ofOrdinal ordinal).1 ≤ 9999) ∧
      (1 ≤ (ofOrdinal ordinal).2.1 ∧ (ofOrdinal ordinal).2.1 ≤ 12) ∧
      1 ≤ (ofOrdinal ordinal).2.2 ∧
      (ofOrdinal ordinal).2.2 ≤ daysInMonth (ofOrdinal ordinal).1 (ofOrdinal ordinal).2.1 := by
  unfold maxOrdinal at hmax
  unfold ofOrdinal
  dsimp only
  -- the last day of a leap year is a 31 December
  split
  · rename_i hlast
    have hdays : ∀ year, daysInMonth year 12 = 31 := fun _ => rfl
    have hyears : (ordinal - 1) % 146097 % 36524 / 1461 ≤ 24 := by omega
    rw [hdays]
    dsimp only
    -- the last cycle of 400 years is not complete
    by_cases hcycle : (ordinal - 1) / 146097 ≤ 23
    · omega
    · have hlastCycle : (ordinal - 1) / 146097 = 24 := by omega
      have hrest : (ordinal - 1) % 146097 ≤ 145730 := by omega
      omega
  -- any other day has the month and day of its place in the year
  · rename_i hlast
    have hone := one_le_monthDay ((ordinal - 1) / 146097 * 400 +
      (ordinal - 1) % 146097 / 36524 * 100 + (ordinal - 1) % 146097 % 36524 / 1461 * 4 +
      (ordinal - 1) % 146097 % 36524 % 1461 / 365 + 1) 12
      ((ordinal - 1) % 146097 % 36524 % 1461 % 365) (Nat.le_refl 1)
    refine ⟨⟨by omega, by omega⟩, ⟨hone.1, ?_⟩, hone.2, ?_⟩
    all_goals
      have hyear := daysBeforeMonth_thirteen ((ordinal - 1) / 146097 * 400 +
        (ordinal - 1) % 146097 / 36524 * 100 + (ordinal - 1) % 146097 % 36524 / 1461 * 4 +
        (ordinal - 1) % 146097 % 36524 % 1461 / 365 + 1)
      have hfirst : ∀ year, daysBeforeMonth year 1 = 0 := fun _ => rfl
      -- the walk over the months ends in the year
      have hle := monthDay_le _ 12 (Nat.le_refl 1) rfl
        (show daysBeforeMonth ((ordinal - 1) / 146097 * 400 +
          (ordinal - 1) % 146097 / 36524 * 100 + (ordinal - 1) % 146097 % 36524 / 1461 * 4 +
          (ordinal - 1) % 146097 % 36524 % 1461 / 365 + 1) 1 +
            (ordinal - 1) % 146097 % 36524 % 1461 % 365 < _ by
          rw [hyear, hfirst]
          split <;> omega)
    · exact hle.1
    · exact hle.2

end Calendar

/-! ## Datetimes -/

/-- The fields of a `datetime`; `utcoffset` is in microseconds, and `none` for a naive one. -/
structure Datetime.Fields where
  year : Nat
  month : Nat
  day : Nat
  hour : Nat
  minute : Nat
  second : Nat
  microsecond : Nat
  utcoffset : Option Int
  deriving DecidableEq, Repr

/-- What the constructor of `datetime` checks. -/
def Datetime.Fields.Valid (f : Datetime.Fields) : Prop :=
  (1 ≤ f.year ∧ f.year ≤ 9999) ∧ (1 ≤ f.month ∧ f.month ≤ 12) ∧
    (1 ≤ f.day ∧ f.day ≤ Calendar.daysInMonth f.year f.month) ∧ f.hour < 24 ∧ f.minute < 60 ∧
    f.second < 60 ∧ f.microsecond < 1000000 ∧
    ∀ offset ∈ f.utcoffset, -86400000000 < offset ∧ offset < 86400000000

instance (f : Datetime.Fields) : Decidable f.Valid := by
  unfold Datetime.Fields.Valid
  infer_instance

/-- A `datetime`. -/
structure Datetime extends Datetime.Fields where
  valid : toFields.Valid
  deriving DecidableEq

namespace Datetime

open Calendar

/-- The constructor of `datetime`; `none` where it raises `ValueError`. -/
def ofFields? (f : Fields) : Option Datetime := if h : f.Valid then some ⟨f, h⟩ else none

/-- The day number of January 1st of 1970. -/
def epochOrdinal : Nat := 719163

/-- The instant of a datetime, in microseconds; a naive one is taken as UTC. -/
def timestamp (dt : Datetime) : Int :=
  (((((toOrdinal dt.year dt.month dt.day : Int) - epochOrdinal) * 24 + dt.hour) * 60 +
    dt.minute) * 60 + dt.second) * 1000000 + dt.microsecond - dt.utcoffset.getD 0

/-- The fields of an instant in UTC; `none` outside the range of `datetime`. -/
def ofTimestamp? (t : Int) : Option Datetime :=
  let ordinal := t / 86400000000 + epochOrdinal
  let time := (t % 86400000000).toNat
  if 1 ≤ ordinal ∧ ordinal ≤ maxOrdinal then
    let date := ofOrdinal ordinal.toNat
    ofFields? {
      year := date.1, month := date.2.1, day := date.2.2
      hour := time / 3600000000, minute := time / 60000000 % 60
      second := time / 1000000 % 60, microsecond := time % 1000000, utcoffset := some 0 }
  else none

/-- `datetime.min` in UTC. -/
def minTimestamp : Int := -62135596800000000

/-- `datetime.max` in UTC. -/
def maxTimestamp : Int := 253402300799999999

/-- The fields of an instant give the instant back. -/
theorem timestamp_of_ofTimestamp {t : Int} {dt : Datetime} (h : ofTimestamp? t = some dt) :
    dt.timestamp = t := by
  unfold ofTimestamp? at h
  dsimp only at h
  split at h
  · rename_i hrange
    unfold ofFields? at h
    split at h
    · cases h
      have hday := toOrdinal_ofOrdinal (show 1 ≤ (t / 86400000000 + epochOrdinal).toNat by omega)
      unfold timestamp
      dsimp only
      rw [hday, Option.getD_some]
      omega
    · cases h
  · cases h

/-- An instant in the range of `datetime` has fields. -/
theorem exists_ofTimestamp {t : Int} (hmin : minTimestamp ≤ t) (hmax : t ≤ maxTimestamp) :
    ∃ dt, ofTimestamp? t = some dt ∧ dt.utcoffset = some 0 := by
  unfold minTimestamp at hmin
  unfold maxTimestamp at hmax
  -- the time is one between the years 1 and 9999
  have hrange : 1 ≤ t / 86400000000 + epochOrdinal ∧
      t / 86400000000 + epochOrdinal ≤ maxOrdinal := by
    unfold epochOrdinal maxOrdinal
    omega
  have hdate := ofOrdinal_valid (show 1 ≤ (t / 86400000000 + epochOrdinal).toNat by omega)
    (show (t / 86400000000 + epochOrdinal).toNat ≤ maxOrdinal by omega)
  unfold ofTimestamp?
  dsimp only
  rw [if_pos hrange, ofFields?, dif_pos]
  · exact ⟨_, rfl, rfl⟩
  -- the fields of the clock are remainders, so they are in range
  · refine ⟨hdate.1, hdate.2.1, hdate.2.2, ?_, ?_, ?_, ?_, ?_⟩
    · show (t % 86400000000).toNat / 3600000000 < 24
      omega
    · exact Nat.mod_lt _ (by omega)
    · exact Nat.mod_lt _ (by omega)
    · exact Nat.mod_lt _ (by omega)
    · intro offset hoffset
      cases hoffset
      omega

/-! ## Text -/

/-- `format(n, "0{width}d")` of a number with at most `width` digits. -/
def decimal : Nat → Nat → List Char
  | 0, _ => []
  | width + 1, n => decimal width (n / 10) ++ [Nat.digitChar (n % 10)]

/-- The fraction of a second, when there is one. -/
def formatMicrosecond (microsecond : Nat) : List Char :=
  if microsecond = 0 then [] else '.' :: decimal 6 microsecond

/-- `HH:MM:SS[.ffffff]`. -/
def formatClock (hour minute second microsecond : Nat) : List Char :=
  decimal 2 hour ++ ':' :: (decimal 2 minute ++ ':' :: (decimal 2 second ++
    formatMicrosecond microsecond))

/-- `HH:MM[:SS[.ffffff]]`. -/
def formatZone (offset : Nat) : List Char :=
  if offset % 60000000 = 0 then
    decimal 2 (offset / 3600000000) ++ ':' :: decimal 2 (offset / 60000000 % 60)
  else
    formatClock (offset / 3600000000) (offset / 60000000 % 60) (offset / 1000000 % 60)
      (offset % 1000000)

/-- The sign of an offset and its size. -/
def formatOffset (offset : Int) : List Char :=
  (if offset < 0 then '-' else '+') :: formatZone offset.natAbs

/-- `dt.isoformat()`. -/
def isoformat (dt : Datetime) : List Char :=
  decimal 4 dt.year ++ '-' :: (decimal 2 dt.month ++ '-' :: (decimal 2 dt.day ++ 'T' ::
    (formatClock dt.hour dt.minute dt.second dt.microsecond ++
      dt.utcoffset.elim [] formatOffset)))

/-- A number of exactly `width` digits, and the text behind it. -/
def readDigits (width : Nat) (text : List Char) : Option (Nat × List Char) :=
  let digits := text.take width
  if digits.length = width ∧ digits.all Char.isDigit = true then
    some (Nat.ofDigitChars 10 digits 0, text.drop width)
  else none

/-- The separator `c`, where the fields are separated. -/
def skipSeparator (c : Char) (separated : Bool) (text : List Char) : Option (List Char) :=
  if separated then if text.head? = some c then some text.tail else none else some text

/-- Something other than NUL stands here; behind the text there is NUL. -/
def hasMore (text : List Char) : Bool := text.head?.any (· ≠ '\x00')

/-- The digits behind a mark, of which six count, and whether something follows them. -/
def readFraction (text : List Char) : Option (Nat × Bool) := do
  let width := min text.length 6
  let (n, rest) ← readDigits width text
  return (n * 10 ^ (6 - width), hasMore (rest.dropWhile Char.isDigit))

/-- What follows a field of a time of day. -/
inductive AfterField where
  /-- No more than one character, which is left unread. -/
  | stop (more : Bool)
  | field (text : List Char)
  | fraction (text : List Char)

/-- The character behind a field.  Only when it is not the last one is it looked at. -/
def afterField (separated : Bool) : List Char → Option AfterField
  | [] => some (.stop false)
  | [c] => some (.stop (hasMore [c]))
  | c :: text =>
    if separated ∧ c = ':' then some (.field text)
    else if c = '.' ∨ c = ',' then some (.fraction text)
    else if separated then none
    else some (.field (c :: text))

/-- The loop of `parse_hh_mm_ss_ff` over `n` more fields.  Behind the last one the fraction
    begins, with its mark or without. -/
def readFields (separated : Bool) : Nat → List Char → Option (List Nat × Nat × Bool)
  | 0, text => do
    let (microsecond, more) ← readFraction text
    return ([], microsecond, more)
  | n + 1, text => do
    let (field, rest) ← readDigits 2 text
    match ← afterField separated rest with
    | .stop more => return ([field], 0, more)
    | .fraction text =>
      let (microsecond, more) ← readFraction text
      return ([field], microsecond, more)
    | .field text =>
      let (fields, microsecond, more) ← readFields separated n text
      return (field :: fields, microsecond, more)

/-- `parse_hh_mm_ss_ff`: a time of day, and whether something follows it. -/
def readClock (text : List Char) : Option ((Nat × Nat × Nat × Nat) × Bool) := do
  let (fields, microsecond, more) ← readFields (text[2]? = some ':') 3 text
  return ((fields.getD 0 0, fields.getD 1 0, fields.getD 2 0, microsecond), more)

/-- The characters that open a time zone. -/
def isZoneSign (c : Char) : Bool := c = '+' || c = '-' || c = 'Z'

/-- The offset behind a time of day: none, `Z`, or a sign and a size.  What stands between the
    time of day and the sign is not looked at. -/
def readZone (more : Bool) : List Char → Option (Option Int)
  | [] => if more then none else some none
  | sign :: zone =>
    if sign = 'Z' then if hasMore zone then none else some (some 0)
    else do
      let ((hours, minutes, seconds, microseconds), more) ← readClock zone
      let seconds := (hours * 60 + minutes) * 60 + seconds
      let size := seconds * 1000000 + microseconds
      if more then none
      -- an offset of less than a second is taken for UTC
      else if seconds = 0 then some (some 0)
      else some (some (if sign = '-' then -(size : Int) else size))

/-- `parse_isoformat_time`: a time of day and an offset. -/
def readTime (text : List Char) : Option ((Nat × Nat × Nat × Nat) × Option Int) := do
  let (clock, more) ← readClock (text.takeWhile fun c => !isZoneSign c)
  let utcoffset ← readZone more (text.dropWhile fun c => !isZoneSign c)
  some (clock, utcoffset)

/-- `iso_to_ymd`. -/
def ofIsoWeek (year week day : Nat) : Option (Nat × Nat × Nat) :=
  let first := toOrdinal year 1 1
  let weekday := (first + 6) % 7
  let long := first % 7 = 4 ∨ first % 7 = 3 ∧ isLeap year = true
  let monday := if 3 < weekday then first - weekday + 7 else first - weekday
  if (1 ≤ year ∧ year ≤ 9999) ∧ (0 < week ∧ (week < 53 ∨ week = 53 ∧ long)) ∧
      (0 < day ∧ day < 8) then
    some (ofOrdinal (monday + (week - 1) * 7 + (day - 1)))
  else none

/-- `parse_isoformat_date`: `YYYY-MM-DD` or `YYYY-Www[-D]`, with the dashes or without. -/
def readDate (text : List Char) : Option (Nat × Nat × Nat) := do
  let (year, rest) ← readDigits 4 text
  let separated := rest.head? = some '-'
  let rest := if separated then rest.tail else rest
  if rest.head? = some 'W' then
    let (week, rest) ← readDigits 2 rest.tail
    if rest = [] then ofIsoWeek year week 1
    else do
      let (day, _) ← readDigits 1 (← skipSeparator '-' separated rest)
      ofIsoWeek year week day
  else
    let (month, rest) ← readDigits 2 rest
    let (day, _) ← readDigits 2 (← skipSeparator '-' separated rest)
    return (year, month, day)

/-- `_find_isoformat_datetime_separator`. -/
def findSeparator (text : List Char) : Option Nat :=
  if text.length = 7 then some 7
  else if text[4]? = some '-' then
    if text[5]? = some 'W' then
      if 8 < text.length ∧ text[8]? = some '-' then
        if text.length = 9 then none
        else if (text[10]?.map Char.isDigit) = some true then some 8
        else some 10
      else some 8
    else some 10
  else if text[4]? = some 'W' then
    let index := 7 + ((text.drop 7).takeWhile Char.isDigit).length
    if index < 9 then some index else if index % 2 = 0 then some 7 else some 8
  else some 8

/-- `datetime.fromisoformat` of an ASCII text; `none` where it raises `ValueError`. -/
def fromisoformat (text : List Char) : Option Datetime := do
  if text.length < 7 then none
  let location ← findSeparator text
  let (year, month, day) ← readDate (text.take location)
  let ((hour, minute, second, microsecond), utcoffset) ←
    if text.drop location = [] then some ((0, 0, 0, 0), none)
    else readTime (text.drop (location + 1))
  ofFields? ⟨year, month, day, hour, minute, second, microsecond, utcoffset⟩

/-! ## Reading what was written -/

/-- A field is printed in its full width. -/
@[simp] theorem length_decimal (width n : Nat) : (decimal width n).length = width := by
  induction width generalizing n with
  | zero => rfl
  | succ width ih => rw [decimal, List.length_append, ih, List.length_singleton]

/-- A field is printed in digits. -/
private theorem isDigit_of_mem_decimal {width n : Nat} {c : Char} (h : c ∈ decimal width n) :
    c.isDigit = true := by
  induction width generalizing n with
  | zero => cases h
  | succ width ih =>
    rw [decimal, List.mem_append, List.mem_singleton] at h
    cases h with
    | inl h => exact ih h
    | inr h =>
      rw [h, Nat.isDigit_digitChar, decide_eq_true_eq]
      exact Nat.mod_lt _ (by omega)

/-- A number that fits the width is read back from its digits. -/
private theorem ofDigitChars_decimal {width n : Nat} (h : n < 10 ^ width) :
    Nat.ofDigitChars 10 (decimal width n) 0 = n := by
  induction width generalizing n with
  | zero =>
    obtain rfl : n = 0 := by omega
    rfl
  | succ width ih =>
    rw [decimal, Nat.ofDigitChars_append, ih (by omega),
      Nat.ofDigitChars_cons_digitChar_of_lt_ten (Nat.mod_lt _ (by omega)), Nat.ofDigitChars_nil,
      Nat.div_add_mod]

/-- A number is read back from its digits. -/
private theorem readDigits_decimal {width n : Nat} (h : n < 10 ^ width) (rest : List Char) :
    readDigits width (decimal width n ++ rest) = some (n, rest) := by
  have hdigits : (decimal width n).all Char.isDigit = true :=
    List.all_eq_true.mpr fun _ hc => isDigit_of_mem_decimal hc
  rw [readDigits, List.take_left' (length_decimal width n),
    List.drop_left' (length_decimal width n), if_pos ⟨length_decimal width n, hdigits⟩,
    ofDigitChars_decimal h]

/-- A two-digit field is read back, whatever follows. -/
private theorem readDigits_two {n : Nat} (h : n < 100) (rest : List Char) :
    readDigits 2 (decimal 2 n ++ rest) = some (n, rest) :=
  readDigits_decimal h rest

/-- At the end of the text no further field follows. -/
private theorem hasMore_nil : hasMore [] = false := rfl

/-- Six digits are read back as microseconds. -/
private theorem readFraction_decimal {n : Nat} (h : n < 10 ^ 6) :
    readFraction (decimal 6 n) = some (n, false) := by
  have hread := readDigits_decimal h []
  rw [List.append_nil] at hread
  simp [readFraction, hread, hasMore_nil]

/-- Between fields that are separated stands a colon. -/
private theorem afterField_colon {text : List Char} (h : text ≠ []) :
    afterField true (':' :: text) = some (.field text) := by
  cases text with
  | nil => exact absurd rfl h
  | cons c text => rfl

/-- Behind the seconds stands the fraction, or nothing. -/
private theorem afterField_formatMicrosecond (microsecond : Nat) :
    afterField true (formatMicrosecond microsecond) =
      some (if microsecond = 0 then .stop false else .fraction (decimal 6 microsecond)) := by
  unfold formatMicrosecond
  split
  · rfl
  · cases hdigits : decimal 6 microsecond with
    | nil =>
      have hlen := length_decimal 6 microsecond
      rw [hdigits] at hlen
      cases hlen
    | cons c text => rfl

/-- A field of positive width is not empty. -/
private theorem decimal_append_ne_nil {width n : Nat} (h : 0 < width) (rest : List Char) :
    decimal width n ++ rest ≠ [] := by
  intro hnil
  have hlen := congrArg List.length hnil
  rw [List.length_append, length_decimal, List.length_nil] at hlen
  omega

/-- A time of day is read back. -/
private theorem readClock_formatClock {hour minute second microsecond : Nat} (hhour : hour < 100)
    (hminute : minute < 100) (hsecond : second < 100) (hmicro : microsecond < 1000000) :
    readClock (formatClock hour minute second microsecond) =
      some ((hour, minute, second, microsecond), false) := by
  -- the third character is a colon, so the text is read with separators
  have hcolon : (formatClock hour minute second microsecond)[2]? = some ':' := by
    unfold formatClock
    rw [List.getElem?_append_right (Nat.le_of_eq (length_decimal 2 hour)), length_decimal]
    rfl
  have hfields : readFields true 3 (formatClock hour minute second microsecond) =
      some ([hour, minute, second], microsecond, false) := by
    -- a colon is followed by the next field
    have hafter : ∀ rest, afterField true (':' :: (decimal 2 minute ++ rest)) =
        some (.field (decimal 2 minute ++ rest)) :=
      fun rest => afterField_colon (decimal_append_ne_nil (by omega) rest)
    have hafter' : ∀ rest, afterField true (':' :: (decimal 2 second ++ rest)) =
        some (.field (decimal 2 second ++ rest)) :=
      fun rest => afterField_colon (decimal_append_ne_nil (by omega) rest)
    unfold formatClock
    simp only [readFields, readDigits_two hhour, readDigits_two hminute, readDigits_two hsecond,
      Option.bind_eq_bind, Option.bind_some, hafter, hafter', afterField_formatMicrosecond]
    -- after the seconds there is nothing, or a fraction
    split
    · rename_i hstop
      split at hstop
      · rename_i hzero
        cases hstop
        rw [hzero]
        rfl
      · cases hstop
    · rename_i hfraction
      split at hfraction
      · cases hfraction
      · cases hfraction
        rw [readFraction_decimal hmicro]
        rfl
    · rename_i hfield
      split at hfield <;> cases hfield
  unfold readClock
  rw [hcolon, decide_eq_true rfl, hfields]
  rfl

/-- A time of day without seconds is read back. -/
private theorem readClock_minutes {hour minute : Nat} (hhour : hour < 100)
    (hminute : minute < 100) : readClock (decimal 2 hour ++ ':' :: decimal 2 minute) =
      some ((hour, minute, 0, 0), false) := by
  have hcolon : (decimal 2 hour ++ ':' :: decimal 2 minute)[2]? = some ':' := by
    rw [List.getElem?_append_right (Nat.le_of_eq (length_decimal 2 hour)), length_decimal]
    rfl
  have hminute' : readDigits 2 (decimal 2 minute) = some (minute, []) := by
    have hread := readDigits_two hminute []
    rwa [List.append_nil] at hread
  have hne : decimal 2 minute ≠ [] := by
    have hne := decimal_append_ne_nil (n := minute) (show 0 < 2 by omega) []
    rwa [List.append_nil] at hne
  unfold readClock
  rw [hcolon, decide_eq_true rfl]
  have hend : afterField true [] = some (.stop false) := rfl
  simp only [readFields, readDigits_two hhour, hminute', Option.bind_eq_bind, Option.bind_some,
    afterField_colon hne, hend]
  rfl

/-- A digit is no time-zone sign. -/
private theorem isZoneSign_digit {c : Char} (h : c.isDigit = true) : isZoneSign c = false := by
  unfold isZoneSign
  simp only [Bool.or_eq_false_iff, decide_eq_false_iff_not]
  refine ⟨⟨?_, ?_⟩, ?_⟩ <;> (rintro rfl; cases h)

/-- A time of day holds no character that opens a time zone. -/
private theorem isZoneSign_formatClock {hour minute second microsecond : Nat} {c : Char}
    (h : c ∈ formatClock hour minute second microsecond) : isZoneSign c = false := by
  have hmicro : ∀ c ∈ formatMicrosecond microsecond, isZoneSign c = false := by
    intro c hc
    unfold formatMicrosecond at hc
    split at hc
    · cases hc
    · cases List.mem_cons.mp hc with
      | inl hpoint => rw [hpoint]; rfl
      | inr hdigit => exact isZoneSign_digit (isDigit_of_mem_decimal hdigit)
  unfold formatClock at h
  simp only [List.mem_append, List.mem_cons] at h
  rcases h with h | rfl | h | rfl | h | h
  · exact isZoneSign_digit (isDigit_of_mem_decimal h)
  · rfl
  · exact isZoneSign_digit (isDigit_of_mem_decimal h)
  · rfl
  · exact isZoneSign_digit (isDigit_of_mem_decimal h)
  · exact hmicro c h

/-- The size of an offset is read back. -/
private theorem readClock_formatZone {offset : Nat} (h : offset < 86400000000) :
    readClock (formatZone offset) = some ((offset / 3600000000, offset / 60000000 % 60,
      offset / 1000000 % 60, offset % 1000000), false) := by
  unfold formatZone
  split
  · rename_i hminutes
    rw [readClock_minutes (by omega) (by omega)]
    have hseconds : offset / 1000000 % 60 = 0 := by omega
    have hmicro : offset % 1000000 = 0 := by omega
    rw [hseconds, hmicro]
  · exact readClock_formatClock (by omega) (by omega) (by omega) (by omega)

/-- The offset that is read for one that was written: less than a second is lost. -/
def readOffset (offset : Int) : Int := if offset.natAbs < 1000000 then 0 else offset

/-- An offset is read back, but for less than a second. -/
private theorem readZone_formatOffset {offset : Int}
    (h : -86400000000 < offset ∧ offset < 86400000000) (more : Bool) :
    readZone more (formatOffset offset) = some (some (readOffset offset)) := by
  have hzone := readClock_formatZone (show offset.natAbs < 86400000000 by omega)
  have hsign : (if offset < 0 then '-' else '+') ≠ 'Z' := by split <;> decide
  unfold formatOffset readZone readOffset
  simp only [if_neg hsign, hzone, Option.bind_eq_bind, Option.bind_some, Bool.false_eq_true,
    if_false]
  by_cases hsmall : offset.natAbs < 1000000
  · rw [if_pos hsmall, if_pos (by omega)]
  · rw [if_neg hsmall, if_neg (by omega)]
    congr 2
    by_cases hneg : offset < 0
    · rw [if_pos (by rw [if_pos hneg])]
      omega
    · rw [if_neg (by rw [if_neg hneg]; decide)]
      omega

/-- A time of day with an offset is read back. -/
private theorem readTime_isoformat {hour minute second microsecond : Nat} (hhour : hour < 100)
    (hminute : minute < 100) (hsecond : second < 100) (hmicro : microsecond < 1000000)
    {utcoffset : Option Int}
    (hoffset : ∀ offset ∈ utcoffset, -86400000000 < offset ∧ offset < 86400000000) :
    readTime (formatClock hour minute second microsecond ++ utcoffset.elim [] formatOffset) =
      some ((hour, minute, second, microsecond), utcoffset.map readOffset) := by
  have hclock : ∀ c ∈ formatClock hour minute second microsecond, (!isZoneSign c) = true := by
    intro c hc
    rw [isZoneSign_formatClock hc]
    rfl
  -- the sign is the first character that opens a time zone
  have hsign : ∀ offset, (formatOffset offset).takeWhile (fun c => !isZoneSign c) = [] ∧
      (formatOffset offset).dropWhile (fun c => !isZoneSign c) = formatOffset offset := by
    intro offset
    unfold formatOffset
    split <;> exact ⟨rfl, rfl⟩
  unfold readTime
  rw [List.takeWhile_append_of_pos hclock, List.dropWhile_append_of_pos hclock]
  -- without an offset the time ends with the clock
  cases utcoffset with
  | none =>
    rw [Option.elim_none, List.takeWhile_nil, List.append_nil,
      readClock_formatClock hhour hminute hsecond hmicro]
    rfl
  -- the offset is read from its sign on
  | some offset =>
    have hzone := readZone_formatOffset (hoffset offset rfl) false
    rw [Option.elim_some, (hsign offset).1, (hsign offset).2, List.append_nil,
      readClock_formatClock hhour hminute hsecond hmicro]
    simp only [Option.bind_eq_bind, Option.bind_some, hzone, Option.map_some]

/-- A field begins with a digit, so with no other character. -/
private theorem head?_decimal_append {width n : Nat} {c : Char} (h : 0 < width) (rest : List Char)
    (hc : c.isDigit = false) : (decimal width n ++ rest).head? ≠ some c := by
  have hlen := length_decimal width n
  cases hdigits : decimal width n with
  | nil =>
    rw [hdigits, List.length_nil] at hlen
    omega
  | cons first digits =>
    have hfirst : first.isDigit = true := isDigit_of_mem_decimal (by rw [hdigits]; simp)
    intro heq
    cases heq
    rw [hfirst] at hc
    cases hc

/-- A date is read back. -/
private theorem readDate_isoformat {year month day : Nat} (hyear : year < 10000)
    (hmonth : month < 100) (hday : day < 100) :
    readDate (decimal 4 year ++ '-' :: (decimal 2 month ++ '-' :: decimal 2 day)) =
      some (year, month, day) := by
  have hfirst : (decimal 2 month ++ '-' :: decimal 2 day).head? ≠ some 'W' :=
    head?_decimal_append (by omega) _ rfl
  have hday' : readDigits 2 (decimal 2 day) = some (day, []) := by
    have hread := readDigits_two hday []
    rwa [List.append_nil] at hread
  unfold readDate
  rw [readDigits_decimal hyear]
  simp only [Option.bind_eq_bind, Option.bind_some, List.head?_cons, if_true, List.tail_cons,
    hfirst, if_false, readDigits_two hmonth, skipSeparator, decide_true, hday']
  rfl

/-- The text of a datetime is that of its date, a separator and that of its time. -/
private theorem isoformat_eq (dt : Datetime) :
    dt.isoformat =
      (decimal 4 dt.year ++ '-' :: (decimal 2 dt.month ++ '-' :: decimal 2 dt.day)) ++
        'T' :: (formatClock dt.hour dt.minute dt.second dt.microsecond ++
          dt.utcoffset.elim [] formatOffset) := by
  unfold isoformat
  simp only [List.append_assoc, List.cons_append]

/-- The separator follows the date. -/
private theorem findSeparator_isoformat (dt : Datetime) : findSeparator dt.isoformat = some 10 := by
  have hlen : 10 < dt.isoformat.length := by
    rw [isoformat_eq]
    simp only [List.length_append, List.length_cons, length_decimal]
    omega
  have hdash : dt.isoformat[4]? = some '-' := by
    unfold isoformat
    rw [List.getElem?_append_right (Nat.le_of_eq (length_decimal _ _)), length_decimal]
    rfl
  have hmonth : dt.isoformat[5]? ≠ some 'W' := by
    unfold isoformat
    have hyear : (decimal 4 dt.year).length ≤ 5 := by simp [length_decimal]
    rw [List.getElem?_append_right hyear, length_decimal,
      show 5 - 4 = 0 + 1 from rfl, List.getElem?_cons_succ, ← List.head?_eq_getElem?]
    exact head?_decimal_append (by omega) _ rfl
  rw [findSeparator, if_neg (by omega), if_pos hdash, if_neg hmonth]

/-- What is read back from the text of a datetime. -/
private theorem fromisoformat_isoformat_eq (dt : Datetime) : fromisoformat dt.isoformat =
    ofFields? { dt.toFields with utcoffset := dt.utcoffset.map readOffset } := by
  obtain ⟨hyear, hmonth, hday, hhour, hminute, hsecond, hmicro, hoffset⟩ := dt.valid
  -- no month has more than two digits of days
  have hdays : daysInMonth dt.year dt.month ≤ 31 := by
    unfold daysInMonth
    split
    · split <;> omega
    · split <;> omega
  -- the date takes ten characters, so the separator is the eleventh
  have hdate : (decimal 4 dt.year ++ '-' ::
      (decimal 2 dt.month ++ '-' :: decimal 2 dt.day)).length = 10 := by
    simp only [List.length_append, List.length_cons, length_decimal]
  have hlen : ¬ dt.isoformat.length < 7 := by
    rw [isoformat_eq, List.length_append, hdate]
    omega
  have htake : dt.isoformat.take 10 =
      decimal 4 dt.year ++ '-' :: (decimal 2 dt.month ++ '-' :: decimal 2 dt.day) := by
    rw [isoformat_eq, List.take_left' hdate]
  have hdrop : dt.isoformat.drop 10 =
      'T' :: (formatClock dt.hour dt.minute dt.second dt.microsecond ++
        dt.utcoffset.elim [] formatOffset) := by
    rw [isoformat_eq, List.drop_left' hdate]
  have htime : dt.isoformat.drop (10 + 1) =
      formatClock dt.hour dt.minute dt.second dt.microsecond ++
        dt.utcoffset.elim [] formatOffset := by
    rw [← List.drop_drop, hdrop]
    rfl
  -- the text is read as date, separator and time
  unfold fromisoformat
  rw [if_neg hlen, findSeparator_isoformat]
  simp only [Option.bind_eq_bind, Option.bind_some, htake, hdrop, htime, reduceCtorEq, if_false,
    readDate_isoformat (show dt.year < 10000 by omega) (show dt.month < 100 by omega)
      (show dt.day < 100 by omega),
    readTime_isoformat (show dt.hour < 100 by omega) (show dt.minute < 100 by omega)
      (show dt.second < 100 by omega) hmicro hoffset]

/-- The offset, if there is one, is zero or a second at least. -/
def OffsetKept (dt : Datetime) : Prop :=
  ∀ offset ∈ dt.utcoffset, offset = 0 ∨ 1000000 ≤ offset.natAbs

/-- A datetime is read back from its text. -/
theorem fromisoformat_isoformat {dt : Datetime} (h : dt.OffsetKept) :
    fromisoformat dt.isoformat = some dt := by
  have hsame : dt.utcoffset.map readOffset = dt.utcoffset := by
    cases hoffset : dt.utcoffset with
    | none => rfl
    | some offset =>
      have hkept := h offset hoffset
      unfold readOffset
      rw [Option.map_some]
      split
      · congr 1
        omega
      · rfl
  rw [fromisoformat_isoformat_eq, hsame]
  exact dif_pos dt.valid

/-- The instant is read back exactly when the offset is. -/
theorem exists_timestamp_fromisoformat (dt : Datetime) :
    ∃ dt', fromisoformat dt.isoformat = some dt' ∧
      (dt'.timestamp = dt.timestamp ↔ dt.OffsetKept) := by
  -- the offset that is read back is in range
  have hvalid : { dt.toFields with utcoffset := dt.utcoffset.map readOffset }.Valid := by
    obtain ⟨hyear, hmonth, hday, hhour, hminute, hsecond, hmicro, hoffset⟩ := dt.valid
    refine ⟨hyear, hmonth, hday, hhour, hminute, hsecond, hmicro, ?_⟩
    rintro _ hread
    obtain ⟨offset, hsome, rfl⟩ := Option.map_eq_some_iff.mp hread
    have hrange := hoffset offset hsome
    unfold readOffset
    split
    · omega
    · exact hrange
  refine ⟨⟨_, hvalid⟩, (fromisoformat_isoformat_eq dt).trans (dif_pos hvalid), ?_⟩
  -- the instants agree exactly when the offsets do
  have hinstant : (⟨_, hvalid⟩ : Datetime).timestamp = dt.timestamp ↔
      (dt.utcoffset.map readOffset).getD 0 = dt.utcoffset.getD 0 := by
    unfold timestamp
    dsimp only
    omega
  rw [hinstant, OffsetKept]
  -- an offset of less than a second is read as none
  cases dt.utcoffset with
  | none => simp
  | some offset =>
    simp only [Option.map_some, Option.getD_some, Option.mem_def, Option.some.injEq,
      forall_eq', readOffset]
    split <;> omega

/-! ## The characters of a text -/

/-- A printable ASCII character. -/
def Printable (c : Char) : Prop := 32 ≤ c.toNat ∧ c.toNat < 127

instance (c : Char) : Decidable (Printable c) :=
  inferInstanceAs (Decidable (32 ≤ c.toNat ∧ c.toNat < 127))

/-- The digits of a field are printable. -/
private theorem printable_decimal {width n : Nat} {c : Char} (h : c ∈ decimal width n) :
    Printable c := by
  have hdigit := isDigit_of_mem_decimal h
  unfold Char.isDigit at hdigit
  simp only [Bool.and_eq_true, decide_eq_true_eq, ge_iff_le, UInt32.le_iff_toNat_le] at hdigit
  have hlow : (48 : Nat) ≤ c.toNat := hdigit.1
  have hhigh : c.toNat ≤ 57 := hdigit.2
  exact ⟨by omega, by omega⟩

/-- The clock part of a rendered time is printable. -/
private theorem printable_formatClock {hour minute second microsecond : Nat} {c : Char}
    (h : c ∈ formatClock hour minute second microsecond) : Printable c := by
  have hcolon : Printable ':' := by decide
  have hpoint : Printable '.' := by decide
  unfold formatClock formatMicrosecond at h
  simp only [List.mem_append, List.mem_cons] at h
  rcases h with h | rfl | h | rfl | h | h
  · exact printable_decimal h
  · exact hcolon
  · exact printable_decimal h
  · exact hcolon
  · exact printable_decimal h
  · split at h
    · cases h
    · rcases List.mem_cons.mp h with rfl | h
      · exact hpoint
      · exact printable_decimal h

/-- The offset part of a rendered time is printable. -/
private theorem printable_formatOffset {offset : Int} {c : Char} (h : c ∈ formatOffset offset) :
    Printable c := by
  unfold formatOffset formatZone at h
  rcases List.mem_cons.mp h with rfl | h
  · split <;> decide
  · split at h
    · simp only [List.mem_append, List.mem_cons] at h
      rcases h with h | rfl | h
      · exact printable_decimal h
      · decide
      · exact printable_decimal h
    · exact printable_formatClock h

/-- A datetime is written in printable characters. -/
theorem plain_isoformat (dt : Datetime) : ∀ c ∈ dt.isoformat, Printable c := by
  intro c h
  unfold isoformat at h
  -- the text is made of digits, separators, the clock and the offset
  simp only [List.mem_append, List.mem_cons] at h
  rcases h with h | rfl | h | rfl | h | rfl | h | h
  · exact printable_decimal h
  · decide
  · exact printable_decimal h
  · decide
  · exact printable_decimal h
  · decide
  · exact printable_formatClock h
  · cases hoffset : dt.utcoffset with
    | none =>
      rw [hoffset] at h
      cases h
    | some offset =>
      rw [hoffset] at h
      exact printable_formatOffset h

/-- So it is ASCII. -/
theorem ascii_isoformat (dt : Datetime) {c : Char} (h : c ∈ dt.isoformat) : c.toNat < 128 :=
  Nat.lt_succ_of_lt (dt.plain_isoformat c h).2

end Datetime
