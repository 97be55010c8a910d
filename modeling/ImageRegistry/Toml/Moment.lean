/-! Dates and times in configuration texts. They are read for their form, and kept as texts. -/

namespace ImageRegistry.Toml.Moment

/-- The number that some digits at the start spell, and what follows. -/
def digits? (count : Nat) (cs : List Char) : Option (Nat × List Char) :=
  let ds := cs.take count
  if ds.length = count ∧ ds.all Char.isDigit then
    some (ds.foldl (fun n c => n * 10 + (c.toNat - 48)) 0, cs.drop count)
  else none

/-- What follows a character that has to stand here. -/
def after? (c : Char) : List Char → Option (List Char)
  | d :: rest => if c = d then some rest else none
  | [] => none

/-- A number with zeros in front. -/
def padded (width n : Nat) : String :=
  let ds := toString n
  String.ofList (List.replicate (width - ds.length) '0') ++ ds

def isLeap (year : Nat) : Bool := year % 4 == 0 && (year % 100 != 0 || year % 400 == 0)

def daysIn (year month : Nat) : Nat :=
  if month = 2 then if isLeap year then 29 else 28
  else if [4, 6, 9, 11].contains month then 30
  else 31

/-- Reads a date, and gives its text and what follows. -/
def date? (cs : List Char) : Option (String × List Char) := do
  let (year, cs) ← digits? 4 cs
  let (month, cs) ← digits? 2 (← after? '-' cs)
  let (day, cs) ← digits? 2 (← after? '-' cs)
  if 1 ≤ month ∧ month ≤ 12 ∧ 1 ≤ day ∧ day ≤ daysIn year month then
    some (s!"{padded 4 year}-{padded 2 month}-{padded 2 day}", cs)
  else none

/-- Reads the part of a second after its point; zeros at its end do not count. -/
def fraction? (cs : List Char) : Option (String × List Char) :=
  match after? '.' cs with
  | none => some ("", cs)
  | some cs =>
    let ds := ((cs.takeWhile Char.isDigit).take 9).reverse.dropWhile (· == '0')
    if (cs.takeWhile Char.isDigit).isEmpty then none
    else
      some (if ds.isEmpty then "" else "." ++ String.ofList ds.reverse,
        cs.dropWhile Char.isDigit)

/-- Reads seconds, if a colon stands here. -/
def seconds? (cs : List Char) : Option (String × List Char) :=
  match after? ':' cs with
  | none => some ("", cs)
  | some cs => do
    let (second, cs) ← digits? 2 cs
    let (fraction, cs) ← fraction? cs
    if second ≤ 60 then some (s!":{padded 2 second}{fraction}", cs) else none

/-- Reads a time of the day, and gives its text and what follows. -/
def time? (cs : List Char) : Option (String × List Char) := do
  let (hour, cs) ← digits? 2 cs
  let (minute, cs) ← digits? 2 (← after? ':' cs)
  let (seconds, cs) ← seconds? cs
  if hour ≤ 23 ∧ minute ≤ 59 then some (s!"{padded 2 hour}:{padded 2 minute}{seconds}", cs)
  else none

/-- Reads the offset of a time zone up to the end. -/
def offset? : List Char → Option String
  | [] => some ""
  | sign :: cs =>
    if sign = 'Z' ∨ sign = 'z' then if cs.isEmpty then some "Z" else none
    else if sign = '+' ∨ sign = '-' then do
      let (hour, cs) ← digits? 2 cs
      let (minute, cs) ← digits? 2 (← after? ':' cs)
      let sign := if hour = 0 ∧ minute = 0 then '+' else sign
      if hour ≤ 23 ∧ minute ≤ 59 ∧ cs.isEmpty then
        some s!"{sign}{padded 2 hour}:{padded 2 minute}"
      else none
    else none

/-- Whether a character stands between a date and a time. -/
def isBetween (c : Char) : Bool := c == 'T' || c == 't' || c == ' '

/-- The text of a date, a time, or both with or without an offset. -/
def text? (cs : List Char) : Option String :=
  match date? cs with
  | some (date, []) => some date
  | some (date, c :: cs) => do
    let (time, cs) ← if isBetween c then time? cs else none
    some s!"{date}T{time}{← offset? cs}"
  | none =>
    match time? cs with
    | some (time, []) => some time
    | _ => none

end ImageRegistry.Toml.Moment
