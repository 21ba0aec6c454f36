import SchemaDiagram.Decimal.Text

namespace SchemaDiagram

structure Timestamp where
  microseconds : Int
  deriving DecidableEq, Repr

namespace Timestamp

def secondLength : Int := 1000000
def dayLength : Int := 86400 * secondLength

/-- The days before the first of March of a year. The counting starts in March of the year zero, so
that a leap day is the last day of its year. -/
def daysBeforeYear (year : Int) : Int :=
  365 * year + year.fdiv 4 - year.fdiv 100 + year.fdiv 400

def daysBeforeMonth (month : Int) : Int :=
  (153 * month + 2).fdiv 5

def epochDay : Int := 719468

structure Date where
  year : Int
  month : Int
  day : Int
  deriving DecidableEq, Repr

def Date.ofDay (day : Int) : Date :=
  let n := day + epochDay
  let guess := n.fdiv 366
  let year := latestYear 400 guess n
  let rest := n - daysBeforeYear year
  let month := (5 * rest + 2).fdiv 153
  { year := if month < 10 then year else year + 1
    month := if month < 10 then month + 3 else month - 9
    day := rest - daysBeforeMonth month + 1 }
where
  latestYear : Nat → Int → Int → Int
    | 0, year, _ => year
    | fuel + 1, year, n =>
        if daysBeforeYear (year + 1) ≤ n then latestYear fuel (year + 1) n else year

def padded (width : Nat) (n : Int) : List Char :=
  let digits := natText n.natAbs
  List.replicate (width - digits.length) '0' ++ digits

def fractionText (microseconds : Int) : List Char :=
  if microseconds = 0 then [] else '.' :: padded 6 microseconds

def text (t : Timestamp) : String :=
  let date := Date.ofDay (t.microseconds.fdiv dayLength)
  let time := t.microseconds.fmod dayLength
  let seconds := time.fdiv secondLength
  String.ofList
    (padded 4 date.year ++ '-' :: padded 2 date.month ++ '-' :: padded 2 date.day ++
      'T' :: padded 2 (seconds.fdiv 3600) ++ ':' :: padded 2 ((seconds.fdiv 60).fmod 60) ++
      ':' :: padded 2 (seconds.fmod 60) ++ fractionText (time.fmod secondLength) ++ ['Z'])

end Timestamp

end SchemaDiagram
