import BlockLayout.Bits64
import BlockLayout.Text.Bytes
import BlockLayout.Toml.Reader

/-! # Items of a document

An item is a value or a table.  How a table came about decides what may still be added to it:
`Entries.assign?` adds a value under a key of several parts, and `Entries.openTable?` and
`Entries.appendTable?` start the table of a header.  All of them fail rather than define anything twice. -/

namespace BlockLayout.Toml

/-- How a table came about. -/
inductive Origin where
  /-- By its own header, or as the whole document. -/
  | header
  /-- By the header of a table inside it. -/
  | implied
  /-- By a key with points. -/
  | dotted
  /-- By braces, which also close it. -/
  | braces
  deriving DecidableEq, Repr

/-- A value without parts. -/
inductive Scalar where
  | boolean (value : Bool)
  | integer (value : Int)
  | fraction (value : Fraction)
  | text (value : Text)
  /-- A date or a time, as it is written. -/
  | moment (value : Text)
  deriving DecidableEq, Repr

/-- A value or a table. -/
inductive Item where
  | scalar (value : Scalar)
  | array (items : List Item)
  | table (origin : Origin) (entries : List (Text × Item))
  /-- The tables of an array that headers build, the latest first, each by its entries. -/
  | tables (latestFirst : List (List (Text × Item)))
  deriving Repr

/-- The entries of a table in the order of their keys' first use, where a table that has its own
header counts from that header on. -/
abbrev Entries := List (Text × Item)

namespace Entries

/-- The entries with one more at the end. -/
def add (entries : Entries) (key : Text) (item : Item) : Entries := entries ++ [(key, item)]

/-- The entries with another item under a key that is there. -/
def replace (entries : Entries) (key : Text) (item : Item) : Entries :=
  entries.map fun entry => if entry.1 = key then (key, item) else entry

/-- Changes the table that a path leads to, making tables on the way where there are none.  Steps by
a key with points go only into tables that other such keys or inner headers made; steps by a header
go into any table but one in braces, and both go into the latest table of an array. -/
def changeAt? (made : Origin) (change : Origin → Entries → Option Entries) (origin : Origin)
    (entries : Entries) : List Text → Option Entries
  | [] => change origin entries
  | key :: path =>
    match entries.lookup key with
    | none => do
      let inner ← changeAt? made change made [] path
      return entries.add key (.table made inner)
    | some (.table inside inner) =>
      if inside = .braces || (made = .dotted && inside = .header) then none
      else do
        let inner ← changeAt? made change inside inner path
        return entries.replace key (.table inside inner)
    | some (.tables (latest :: earlier)) => do
      let latest ← changeAt? made change .header latest path
      return entries.replace key (.tables (latest :: earlier))
    | some _ => none

/-- Adds an item under a key whose parts before the last are `path`. -/
def assign? (origin : Origin) (entries : Entries) (path : List Text) (key : Text) (item : Item) :
    Option Entries :=
  changeAt? .dotted (fun reached inner =>
    if path ≠ [] && reached ≠ .dotted then none
    else if (inner.lookup key).isSome then none
    else some (inner.add key item)) origin entries path

/-- Starts the table of a header in its parent. -/
def openTable? (key : Text) (_ : Origin) (entries : Entries) : Option Entries :=
  match entries.lookup key with
  | none => some (entries.add key (.table .header []))
  | some (.table .implied inner) =>
    some (Entries.add (entries.filter fun entry => entry.1 ≠ key) key (.table .header inner))
  | some _ => none

/-- Starts a table of an array of tables in its parent. -/
def appendTable? (key : Text) (_ : Origin) (entries : Entries) : Option Entries :=
  match entries.lookup key with
  | none => some (entries.add key (.tables [[]]))
  | some (.tables tables) => some (entries.replace key (.tables ([] :: tables)))
  | some _ => none

end Entries

/-! ## Numbers

Whole numbers are written in decimal with an optional sign and no leading zero, or in base sixteen,
eight or two behind a mark and without a sign; they fit into 64 bits with a sign.  Fractions have
digits after a point, an exponent, or both.  Between two digits an underscore may stand.  A fraction
too large for double precision is refused unless it has a minus sign. -/

open Reader

/-- Digits of a class, with single underscores between them left out. -/
def groupedDigits (isDigit : Char → Bool) : Reader Text := do
  let groups ← separated (someRun isDigit) (char '_')
  return groups.flatten

/-- An optional sign: whether it is a minus. -/
def sign : Reader Bool := (char '-').as true <|> (char '+').as false <|> pure false

/-- A decimal whole number with its sign, without a leading zero. -/
def wholeDigits : Reader (Bool × Text) := do
  let negative ← sign
  match ← peek with
  | some '0' => char '0'; return (negative, ['0'])
  | _ => return (negative, ← groupedDigits Char.isDigit)

/-- The number if it fits into 64 bits with a sign. -/
def fitting (n : Int) : Reader Int :=
  if Bits64.fitsSigned n then pure n else failure

/-- A whole number in a base with a mark. -/
def marked (mark : Text) (base : Nat) (isDigit : Char → Bool) : Reader Int := do
  exactly mark
  fitting (digitsValue base (← groupedDigits isDigit))

/-- A decimal whole number. -/
def decimalInteger : Reader Int := do
  let (negative, digits) ← wholeDigits
  let n : Int := digitsValue 10 digits
  fitting (if negative then -n else n)

/-- A whole number. -/
def integer : Reader Int :=
  marked "0x".toList 16 isHexDigit
    <|> marked "0o".toList 8 (fun c => '0' ≤ c && c ≤ '7')
    <|> marked "0b".toList 2 (fun c => c == '0' || c == '1')
    <|> decimalInteger

/-- The digits after the point of a fraction. -/
def fractionDigits : Reader Text := do
  char '.'
  groupedDigits Char.isDigit

/-- The exponent of a fraction. -/
def exponent : Reader Int := do
  let _ ← satisfying fun c => c == 'e' || c == 'E'
  let negative ← sign
  let n : Int := digitsValue 10 (← groupedDigits Char.isDigit)
  return if negative then -n else n

/-- A fraction with a point, an exponent, or both. -/
def decimal : Reader Decimal := do
  let (negative, whole) ← wholeDigits
  let after ← maybe fractionDigits
  let power ← maybe exponent
  if after.isNone && power.isNone then failure
  let digits := whole ++ after.getD []
  let exponent := power.getD 0 - (after.getD []).length
  return ⟨negative, digitsValue 10 digits, exponent⟩

/-- A fraction, written out or by name. -/
def fraction : Reader Fraction :=
  (do
    match (← decimal).toFraction with
    | .infinite false => failure
    | value => return value)
  <|> do
    let negative ← sign
    (exactly "inf".toList).as (.infinite negative) <|> (exactly "nan".toList).as .undefined

/-! ## Dates and times

A date, a time, or both with an optional offset.  They are kept as the text that writes them in one
way: with `T` between the date and the time, without zeros at the end of a fraction of a second, and
with `Z` or a signed offset. -/

/-- A number of so many digits, within bounds, as it is written. -/
def boundedDigits (count least most : Nat) : Reader Text := do
  let t ← exactRun Char.isDigit count
  let n := digitsValue 10 t
  if least ≤ n && n ≤ most then return t else failure

/-- The days of a month. -/
def daysOf (year month : Nat) : Nat :=
  if month = 2 then
    if year % 4 = 0 && (year % 100 != 0 || year % 400 = 0) then 29 else 28
  else if month ∈ [4, 6, 9, 11] then 30
  else 31

/-- A calendar date. -/
def date : Reader Text := do
  let year ← exactRun Char.isDigit 4
  char '-'
  let month ← boundedDigits 2 1 12
  char '-'
  let day ← boundedDigits 2 1 (daysOf (digitsValue 10 year) (digitsValue 10 month))
  return year ++ '-' :: month ++ '-' :: day

/-- The fraction of a second, of which nine digits count and no zeros at the end are written. -/
def secondFraction : Reader Text := do
  char '.'
  let digits := (← someRun Char.isDigit).take 9
  match (digits.reverse.dropWhile (· == '0')).reverse with
  | [] => return []
  | shown => return '.' :: shown

/-- A time of day. -/
def time : Reader Text := do
  let hour ← boundedDigits 2 0 23
  char ':'
  let minute ← boundedDigits 2 0 59
  char ':'
  let second ← boundedDigits 2 0 60
  let rest ← maybe secondFraction
  return hour ++ ':' :: minute ++ ':' :: second ++ rest.getD []

/-- A number below one hundred in two digits. -/
def twoDigits (n : Nat) : Text := [Nat.digitChar (n / 10), Nat.digitChar (n % 10)]

/-- The minutes of a day, which bound an offset. -/
def dayMinutes : Nat := 1440

/-- The largest numbers that may stand in the offset of a time. -/
structure OffsetBounds where
  hours : Nat
  minutes : Nat
  deriving DecidableEq, Repr

/-- The bounds for an offset that stands in a document. -/
def OffsetBounds.bare : OffsetBounds := ⟨23, 59⟩

/-- The bounds for an offset in a quoted text, where any two digits may stand. -/
def OffsetBounds.quoted : OffsetBounds := ⟨99, 99⟩

/-- The offset of a time from universal time; none at all is written with a plus. -/
def offset (bounds : OffsetBounds) : Reader Text :=
  (satisfying fun c => c == 'Z' || c == 'z').as ['Z']
  <|> do
    let mark ← satisfying fun c => c == '+' || c == '-'
    let hours ← boundedDigits 2 0 bounds.hours
    char ':'
    let minutes ← boundedDigits 2 0 bounds.minutes
    let total := 60 * digitsValue 10 hours + digitsValue 10 minutes
    let mark := if total = 0 then '+' else mark
    if total ≤ dayMinutes then
      return mark :: twoDigits (total / 60) ++ ':' :: twoDigits (total % 60)
    else failure

/-- What a time adds to a date. -/
def timeOfDate (bounds : OffsetBounds) : Reader Text := do
  let _ ← satisfying fun c => c == 'T' || c == 't' || c == ' '
  let clock ← time
  let zone ← maybe (offset bounds)
  return 'T' :: clock ++ zone.getD []

/-- A date, a time, or both. -/
def dateTime (bounds : OffsetBounds) : Reader Text :=
  (do
    let day ← date
    let clock ← maybe (timeOfDate bounds)
    return day ++ clock.getD [])
  <|> time

/-! ## Moments given as tables

A table whose first key is `momentKey` stands for the date or time that the text under this key
writes, whatever other keys it has.  `Item.withMoments?` puts the dates and times in place of such
tables. -/

/-- The key that makes a table stand for a date or time. -/
def momentKey : Text := "$__toml_private_datetime".toList

/-- The date or time that a whole text writes. -/
def momentOf? (t : Text) : Option Text := do
  let (moment, _) ← (dateTime .quoted <* finish) t
  return moment

mutual

/-- The item with dates and times for the tables that stand for them, if each of these has one. -/
def Item.withMoments? : Item → Option Item
  | .scalar value => some (.scalar value)
  | .array items => (itemsWithMoments? items).map .array
  | .table origin entries => tableWithMoments? origin entries
  | .tables latestFirst =>
    (tablesWithMoments? latestFirst).map fun tables => .array tables.reverse

/-- The table of the given entries, or the date or time that it stands for. -/
def tableWithMoments? (origin : Origin) : List (Text × Item) → Option Item
  | [] => some (.table origin [])
  | (key, item) :: entries =>
    if key = momentKey then
      match item with
      | .scalar (.text t) => (momentOf? t).map fun moment => .scalar (.moment moment)
      | _ => none
    else do
      let item ← item.withMoments?
      return .table origin ((key, item) :: (← entriesWithMoments? entries))

/-- The items of an array, each with its dates and times. -/
def itemsWithMoments? : List Item → Option (List Item)
  | [] => some []
  | item :: items => do
    let item ← item.withMoments?
    return item :: (← itemsWithMoments? items)

/-- The entries of a table, each with its dates and times. -/
def entriesWithMoments? : List (Text × Item) → Option (List (Text × Item))
  | [] => some []
  | (key, item) :: entries => do
    let item ← item.withMoments?
    return (key, item) :: (← entriesWithMoments? entries)

/-- The tables of an array, each with its dates and times. -/
def tablesWithMoments? : List (List (Text × Item)) → Option (List Item)
  | [] => some []
  | entries :: tables => do
    let table ← tableWithMoments? .header entries
    return table :: (← tablesWithMoments? tables)

end

end BlockLayout.Toml
