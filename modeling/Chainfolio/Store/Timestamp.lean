/-! Texts that tell a moment: a date, a time of day and an offset, such as
2024-01-01T00:00:00Z. Blanks may stand between the parts. The moment in universal time has to lie on
the calendar too. -/
namespace Chainfolio.Timestamp

/-- Characters that count as blank. -/
def isBlank (c : Char) : Bool :=
  let n := c.toNat
  (0x09 ≤ n && n ≤ 0x0d) || n = 0x20 || n = 0x85 || n = 0xa0 || n = 0x1680 ||
    (0x2000 ≤ n && n ≤ 0x200a) || n = 0x2028 || n = 0x2029 || n = 0x202f || n = 0x205f ||
    n = 0x3000

def skipBlanks (cs : List Char) : List Char := cs.dropWhile isBlank

def number (digits : List Char) : Nat :=
  digits.foldl (fun n c => 10 * n + (c.toNat - 48)) 0

/-- A number of one to `width` digits. -/
def number? (width : Nat) (cs : List Char) : Option (Nat × List Char) :=
  let digits := (cs.take width).takeWhile Char.isDigit
  if digits.isEmpty then none else some (number digits, cs.drop digits.length)

/-- A number of up to two digits within bounds, after blanks. -/
def part? (least greatest : Nat) (cs : List Char) : Option (Nat × List Char) := do
  let (n, rest) ← number? 2 (skipBlanks cs)
  if least ≤ n ∧ n ≤ greatest then some (n, rest) else none

/-- A character after blanks. -/
def mark? (mark : Char) (cs : List Char) : Option (List Char) :=
  match skipBlanks cs with
  | c :: rest => if c = mark then some rest else none
  | [] => none

/-- A year: four digits, or a sign and any number of digits. -/
def year? (cs : List Char) : Option (Int × List Char) :=
  match skipBlanks cs with
  | '-' :: rest => (number? rest.length rest).map fun (n, rest) => (-(n : Int), rest)
  | '+' :: rest => (number? rest.length rest).map fun (n, rest) => ((n : Int), rest)
  | cs => (number? 4 cs).map fun (n, rest) => ((n : Int), rest)

def isLeap (year : Int) : Bool := year % 4 = 0 && (year % 100 ≠ 0 || year % 400 = 0)

def daysIn (year : Int) (month : Nat) : Nat :=
  if month = 2 then if isLeap year then 29 else 28
  else if month = 4 ∨ month = 6 ∨ month = 9 ∨ month = 11 then 30
  else 31

structure Date where
  year : Int
  month : Nat
  day : Nat
  deriving DecidableEq

/-- The calendar of 32-bit days begins here. -/
def firstDate : Date := ⟨-262143, 1, 1⟩

/-- The calendar of 32-bit days ends here. -/
def lastDate : Date := ⟨262142, 12, 31⟩

/-- A month has the day, and the calendar has the year. -/
def Date.isValid (d : Date) : Bool :=
  d.day ≤ daysIn d.year d.month && firstDate.year ≤ d.year && d.year ≤ lastDate.year

/-- A date; what follows it is returned too. -/
def date? (cs : List Char) : Option (Date × List Char) := do
  let (year, cs) ← year? cs
  let (month, cs) ← part? 1 12 (← mark? '-' cs)
  let (day, cs) ← part? 1 31 (← mark? '-' cs)
  let date : Date := ⟨year, month, day⟩
  if date.isValid then some (date, cs) else none

def fraction? : List Char → Option (List Char)
  | '.' :: rest =>
    match rest.takeWhile Char.isDigit with
    | [] => none
    | digits => some (rest.drop digits.length)
  | cs => some cs

/-- The second of the day at a time of day; a leap second belongs to the one before it. -/
def time? (cs : List Char) : Option (Nat × List Char) := do
  let (hour, cs) ← part? 0 23 cs
  let (minute, cs) ← part? 0 59 (← mark? ':' cs)
  let (second, cs) ← part? 0 60 (← mark? ':' cs)
  return (3600 * hour + 60 * minute + min second 59, skipBlanks (← fraction? cs))

def twoDigits? : List Char → Option (Nat × List Char)
  | a :: b :: rest => if a.isDigit && b.isDigit then some (number [a, b], rest) else none
  | _ => none

/-- The seconds of an offset below one day. -/
def offsetParts? (cs : List Char) : Option (Nat × List Char) := do
  let (hours, cs) ← twoDigits? cs
  let (minutes, cs) ← twoDigits? (cs.dropWhile fun c => c = ':' || isBlank c)
  if minutes < 60 ∧ hours < 24 then some (3600 * hours + 60 * minutes, cs) else none

/-- The seconds by which a clock is ahead of universal time. -/
def offset? : List Char → Option (Int × List Char)
  | [] => none
  | u :: t :: c :: rest =>
    if u.toUpper = 'U' ∧ t.toUpper = 'T' ∧ c.toUpper = 'C' then some (0, rest)
    else signed? u (t :: c :: rest)
  | c :: rest => signed? c rest
where
  signed? (c : Char) (rest : List Char) : Option (Int × List Char) :=
    if c.toUpper = 'Z' then some (0, rest)
    else if c = '+' then (offsetParts? rest).map fun (n, rest) => ((n : Int), rest)
    else if c = '-' ∨ c = '−' then (offsetParts? rest).map fun (n, rest) => (-(n : Int), rest)
    else none

/-- Whether a date, a second of that day and an offset tell a moment on the calendar. -/
def isOnCalendar (date : Date) (second : Nat) (offset : Int) : Bool :=
  let universal := second - offset
  if universal < 0 then date ≠ firstDate
  else if 86400 ≤ universal then date ≠ lastDate
  else true

/-- Whether a text tells a moment and nothing else. -/
def isValid (s : String) : Bool :=
  match date? s.toList with
  | some (date, c :: rest) =>
    if c.toUpper = 'T' ∨ c = ' ' then
      match time? rest with
      | none => false
      | some (second, rest) =>
        match offset? rest with
        | none => false
        | some (offset, rest) => (skipBlanks rest).isEmpty && isOnCalendar date second offset
    else false
  | _ => false

end Chainfolio.Timestamp
