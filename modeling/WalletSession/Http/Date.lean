import WalletSession.Text.Digits

/-! Points in time as headers write them, in four forms: `Sun, 06 Nov 1994 08:49:37 GMT`,
`Sunday, 06-Nov-94 08:49:37 GMT`, `Sun Nov  6 08:49:37 1994` and `Sun, 06-Nov-1994 08:49:37 GMT`.
The day of the week is read and not believed. -/
namespace WalletSession.Http

/-- A day of the calendar, with its time. -/
structure Date where
  year : Nat
  /-- From one to twelve. -/
  month : Nat
  day : Nat
  /-- Seconds since midnight. -/
  second : Nat
  deriving DecidableEq, Repr

namespace Date

def isLeapYear (year : Nat) : Bool := year % 4 == 0 && (year % 100 != 0 || year % 400 == 0)

def monthLengths (year : Nat) : List Nat :=
  [31, if isLeapYear year then 29 else 28, 31, 30, 31, 30, 31, 31, 30, 31, 30, 31]

def isValid (d : Date) : Bool :=
  1 ≤ d.day && d.day ≤ (monthLengths d.year).getD (d.month - 1) 0

/-- Days before a year, of the years from zero. -/
def daysBefore (year : Nat) : Nat :=
  365 * year + (year + 3) / 4 - (year + 99) / 100 + (year + 399) / 400

/-- Seconds since 1970, or zero before that. -/
def sinceEpoch (d : Date) : Nat :=
  let days := daysBefore d.year + ((monthLengths d.year).take (d.month - 1)).foldl (· + ·) 0 + (d.day - 1)
  86400 * days + d.second - 86400 * daysBefore 1970

/-- Two digits name a year from 1969 to 2068. -/
def fullYear (year : Nat) : Nat :=
  if year < 69 then year + 2000 else if year < 100 then year + 1900 else year

abbrev Reader := StateT (List Char) Option

namespace Reader

def literal (s : String) : Reader Unit := fun cs =>
  if s.toList.isPrefixOf cs then some ((), cs.drop s.length) else none

/-- A number with as many digits as there are, within bounds. -/
def number (least most : Nat) : Reader Nat := fun cs =>
  let ds := (cs.take most).takeWhile Text.isDigit
  if least ≤ ds.length then some (Text.digitsValue ds, cs.drop ds.length) else none

/-- Which of some names stands here. -/
def name (names : List String) : Reader Nat := fun cs =>
  (names.zipIdx.find? fun n => n.1.toList.isPrefixOf cs).map fun n => (n.2, cs.drop n.1.length)

def shortDays : List String := ["Mon", "Tue", "Wed", "Thu", "Fri", "Sat", "Sun"]

def longDays : List String :=
  ["Monday", "Tuesday", "Wednesday", "Thursday", "Friday", "Saturday", "Sunday"]

def month : Reader Nat := do
  let n ← name
    ["Jan", "Feb", "Mar", "Apr", "May", "Jun", "Jul", "Aug", "Sep", "Oct", "Nov", "Dec"]
  return n + 1

/-- Hours, minutes and seconds. -/
def clock : Reader Nat := do
  let h ← number 2 2
  literal ":"
  let m ← number 2 2
  literal ":"
  let s ← number 2 2
  if h < 24 ∧ m < 60 ∧ s < 60 then return 3600 * h + 60 * m + s else failure

/-- Day, month and year with a mark between them, and then the time of day. -/
def dayFirst (days : List String) (mark : String) (least most : Nat) : Reader Date := do
  let _ ← name days
  literal ", "
  let day ← number 2 2
  literal mark
  let month ← month
  literal mark
  let year ← number least most
  literal " "
  let second ← clock
  literal " GMT"
  return { year, month, day, second }

/-- A day below ten may have a space before its digit. -/
def paddedDay : Reader Nat := fun cs =>
  match cs with
  | ' ' :: rest => number 1 1 rest
  | _ => number 2 2 cs

def monthFirst : Reader Date := do
  let _ ← name shortDays
  literal " "
  let month ← month
  literal " "
  let day ← paddedDay
  literal " "
  let second ← clock
  literal " "
  let year ← number 1 4
  return { year, month, day, second }

def forms : List (Reader Date) :=
  [dayFirst shortDays " " 1 4, dayFirst longDays "-" 2 2, monthFirst, dayFirst shortDays "-" 1 4]

end Reader

/-- Reads a point in time; no form may leave anything over. -/
def parse? (cs : List Char) : Option Date :=
  Reader.forms.findSome? fun form =>
    match form cs with
    | some (d, []) =>
      let d := { d with year := fullYear d.year }
      if d.isValid then some d else none
    | _ => none

end Date

end WalletSession.Http
