import DevServer.FileTree.Basic
import DevServer.Text.Classes

set_option autoImplicit false

namespace DevServer.Http.Date

open Text

def months : List String :=
  ["Jan", "Feb", "Mar", "Apr", "May", "Jun", "Jul", "Aug", "Sep", "Oct", "Nov", "Dec"]

def weekdays : List String := ["Thu", "Fri", "Sat", "Sun", "Mon", "Tue", "Wed"]

def fullWeekdays : List String :=
  ["Thursday", "Friday", "Saturday", "Sunday", "Monday", "Tuesday", "Wednesday"]

def isLeap (year : Nat) : Bool := year % 4 = 0 && (year % 100 ≠ 0 || year % 400 = 0)

def daysInYear (year : Nat) : Nat := if isLeap year then 366 else 365

def monthLengths (year : Nat) : List Nat :=
  [31, if isLeap year then 29 else 28, 31, 30, 31, 30, 31, 31, 30, 31, 30, 31]

def total (days : List Nat) : Nat := days.foldl (· + ·) 0

def daysBefore (year : Nat) : Nat :=
  total ((List.range (year - 1970)).map fun i => daysInYear (1970 + i))

def day? (year month day : Nat) : Option Nat := do
  let lengths := monthLengths year
  let length ← lengths[month]?
  if 1 ≤ day ∧ day ≤ length ∧ 1970 ≤ year then
    some (daysBefore year + total (lengths.take month) + (day - 1))
  else none

structure Written where
  weekday : Nat
  day : Nat
  month : Nat
  year : Nat
  seconds : Nat
deriving DecidableEq, Repr

def Written.toSeconds? (date : Written) : Option Nat := do
  let day ← day? date.year date.month date.day
  if day % 7 = date.weekday then some (day * 86400 + date.seconds) else none

abbrev Part (α : Type) := StateT Text Option α

def mark (text : String) : Part Unit := fun rest => (rest.after? text).map ((), ·)

def number (count : Nat) : Part Nat := fun rest =>
  if (rest.take count).length = count then (toNat? (rest.take count)).map (·, rest.drop count)
  else none

def name (names : List String) : Part Nat := fun rest =>
  (names.findIdx? fun (name : String) => rest.startsWith name).bind fun i => do
    some (i, rest.drop (← names[i]?).length)

def clock : Part Nat := do
  let hours ← number 2
  mark ":"
  let minutes ← number 2
  mark ":"
  let seconds ← number 2
  if hours < 24 ∧ minutes < 60 ∧ seconds < 60 then return (hours * 60 + minutes) * 60 + seconds
  failure

def fixed : Part Written := do
  let weekday ← name weekdays
  mark ", "
  let day ← number 2
  mark " "
  let month ← name months
  mark " "
  let year ← number 4
  mark " "
  let seconds ← clock
  mark " GMT"
  return ⟨weekday, day, month, year, seconds⟩

def century (year : Nat) : Nat := if year < 70 then 2000 else 1900

def dashed : Part Written := do
  let weekday ← name fullWeekdays
  mark ", "
  let day ← number 2
  mark "-"
  let month ← name months
  mark "-"
  let year ← number 2
  modify (List.drop 1)
  let seconds ← clock
  mark " GMT"
  return ⟨weekday, day, month, century year + year, seconds⟩

def yearLast : Part Written := do
  let weekday ← name weekdays
  mark " "
  let month ← name months
  mark " "
  let day ← (do mark " "; number 1) <|> number 2
  mark " "
  let seconds ← clock
  mark " "
  let year ← number 4
  return ⟨weekday, day, month, year, seconds⟩

def whole? (form : Part Written) (text : Text) : Option Written := do
  let (date, rest) ← form text
  if rest = [] then some date else none

def parse? (text : Text) : Option Nat := do
  let text := trim text
  let date ← whole? fixed text <|> whole? dashed text <|> whole? yearLast text
  date.toSeconds?

def ofInstant (instant : Instant) : Nat := instant.toNat / 1000000000

end DevServer.Http.Date
