import SchemaDiagram.Encoding.Base64
import SchemaDiagram.Decimal.Text
import SchemaDiagram.Text.Case
import SchemaDiagram.Text.Lines
import SchemaDiagram.Yaml.Fault
import SchemaDiagram.Yaml.Tag
import SchemaDiagram.Yaml.Value

namespace SchemaDiagram.Yaml.ScalarValue

open SchemaDiagram.Text

def integer (base : Nat) (cs : List Char) : Except Fault Int :=
  match Numeral.integer base cs with
  | .ok n => .ok n
  | .error .invalid => .error (.badInteger base cs)
  | .error (.tooManyDigits count) => .error (.tooManyDigits count)

def sexagesimal (groups : List Int) : Int :=
  groups.foldl (fun n group => n * 60 + group) 0

def intMagnitude : List Char → Except Fault Int
  | [] => .error .emptyNumber
  | ['0'] => .ok 0
  | '0' :: 'b' :: ds => integer 2 ds
  | '0' :: 'x' :: ds => integer 16 ds
  | '0' :: ds => integer 8 ('0' :: ds)
  | ds =>
      if ds.contains ':' then ((splitAt ':' ds).mapM (integer 10)).map sexagesimal
      else integer 10 ds

def int (text : List Char) : Except Fault Int :=
  let cs := text.filter (· != '_')
  (intMagnitude (Tag.dropSign cs)).map fun n => if cs.head? = some '-' then -n else n

def decimalFloat (cs : List Char) : Except Fault Binary64 :=
  match Numeral.float? cs with
  | some x => .ok x
  | none => .error (.badFloat cs)

def sexagesimalFloat (power : Nat) (sum : Binary64) : List Binary64 → Except Fault Binary64
  | [] => .ok sum
  | x :: xs =>
      match Binary64.ofInt power with
      | .infinite _ => .error .beyondFloat
      | factor => sexagesimalFloat (power * 60) (sum.add (x.scale factor)) xs

def floatMagnitude (body : List Char) : Except Fault Binary64 := do
  if body = ".inf".toList then return .infinite false
  else if body = ".nan".toList then return .nan
  else if body.contains ':' then
    let groups ← (splitAt ':' body).mapM decimalFloat
    sexagesimalFloat 1 .zero groups.reverse
  else decimalFloat body

def float (text : List Char) : Except Fault Binary64 :=
  let cs := lower (text.filter (· != '_'))
  if cs.isEmpty then .error .emptyNumber
  else (floatMagnitude (Tag.dropSign cs)).map fun x => if cs.head? = some '-' then x.negate else x

def isLeap (year : Nat) : Bool :=
  year % 4 = 0 && (year % 100 != 0 || year % 400 = 0)

def monthLength (year month : Nat) : Nat :=
  match month with
  | 2 => if isLeap year then 29 else 28
  | 4 | 6 | 9 | 11 => 30
  | _ => 31

def number (cs : List Char) : Nat :=
  Numeral.digitsValue 10 cs

def dateProblem? (d : Tag.DateParts) : Option String :=
  let year := number d.year
  let month := number d.month
  let day := number d.day
  if year = 0 then some ("year " ++ Nat.repr year ++ " is out of range")
  else if month = 0 || 12 < month then some "month must be in 1..12"
  else if day = 0 || monthLength year month < day then some "day is out of range for month"
  else d.time.bind fun t =>
    if 23 < number t.hour then some "hour must be in 0..23"
    else if 59 < number t.minute then some "minute must be in 0..59"
    else if 59 < number t.second then some "second must be in 0..59"
    else none

def durationText (minutes : Int) : String :=
  let days := minutes.fdiv 1440
  let seconds := (minutes.fmod 1440) * 60
  let parts := (if days = 0 then [] else ["days=" ++ String.ofList (intText days)]) ++
    (if seconds = 0 then [] else ["seconds=" ++ String.ofList (intText seconds)])
  "datetime.timedelta(" ++ ", ".intercalate parts ++ ")"

def offsetProblem? (d : Tag.DateParts) : Option String := do
  let time ← d.time
  let (negative, hours, minutes) ← time.offset
  let length : Int := number hours * 60 + number minutes
  if length < 1440 then none
  else some ("offset must be a timedelta strictly between -timedelta(hours=24) and " ++
    "timedelta(hours=24), not " ++ durationText (if negative then -length else length) ++ ".")

def timestamp (cs : List Char) : Except Fault Value :=
  match Tag.dateParts? (Tag.withoutFinalBreak cs) with
  | none => .error .noDate
  | some d =>
      match (offsetProblem? d).orElse fun _ => dateProblem? d with
      | some problem => .error (.badDate problem)
      | none => .ok .timestamp

def bool (cs : List Char) : Except Fault Bool :=
  let word := lower cs
  if String.ofList word ∈ ["yes", "true", "on"] then .ok true
  else if String.ofList word ∈ ["no", "false", "off"] then .ok false
  else .error (.unknownWord word)

def bytes (cs : List Char) : Except Fault Value :=
  match Base64.decode cs with
  | .ok bs => .ok (.bytes bs)
  | .error _ => .error .malformed

def ofText (tag : Tag) (cs : List Char) : Except Fault Value :=
  match tag with
  | .null => .ok .null
  | .bool => (bool cs).map .bool
  | .int => (int cs).map .int
  | .float => (float cs).map .float
  | .str => .ok (.str (String.ofList cs))
  | .binary => bytes cs
  | .timestamp => timestamp cs
  | _ => .error .malformed

end SchemaDiagram.Yaml.ScalarValue
