import SchemaDiagram.Text.Scan

namespace SchemaDiagram.Yaml

inductive Tag where
  | null
  | bool
  | int
  | float
  | str
  | binary
  | timestamp
  | merge
  | value
  | sequence
  | mapping
  | set
  | orderedMap
  | pairs
  | unknown
  deriving DecidableEq, Repr, Inhabited

namespace Tag

def named : List (String × Tag) :=
  [("null", .null), ("bool", .bool), ("int", .int), ("float", .float), ("str", .str),
   ("binary", .binary), ("timestamp", .timestamp), ("merge", .merge), ("value", .value),
   ("seq", .sequence), ("map", .mapping), ("set", .set), ("omap", .orderedMap), ("pairs", .pairs)]

def repository : String := "tag:yaml.org,2002:"

def ofName (name : String) : Tag :=
  match repository.toList.isPrefixOf? name.toList with
  | none => .unknown
  | some rest => (named.lookup (String.ofList rest)).getD .unknown

def isDigitOrUnderscore (c : Char) : Bool :=
  c.isDigit || c = '_'

def dropSign : List Char → List Char
  | '-' :: cs => cs
  | '+' :: cs => cs
  | cs => cs

def digits? : List Char → Option (List Char)
  | [] => none
  | c :: cs => if c.isDigit then some (cs.dropWhile isDigitOrUnderscore) else none

def sexagesimals : Nat → List Char → List Char
  | fuel + 1, ':' :: c :: d :: cs =>
      if c.isDigit && c.toNat < 0x36 && d.isDigit then sexagesimals fuel cs
      else if c.isDigit then sexagesimals fuel (d :: cs)
      else ':' :: c :: d :: cs
  | _, [':', c] => if c.isDigit then [] else [':', c]
  | _, cs => cs

def isExponentOrNothing : List Char → Bool
  | [] => true
  | e :: s :: cs =>
      (e = 'e' || e = 'E') && (s = '-' || s = '+') && !cs.isEmpty && cs.all Char.isDigit
  | _ => false

def isDecimalFloat (cs : List Char) : Bool :=
  match digits? (dropSign cs) with
  | some ('.' :: rest) => isExponentOrNothing (rest.dropWhile isDigitOrUnderscore)
  | _ => false

def isPointFloat : List Char → Bool
  | '.' :: cs => (digits? cs).any isExponentOrNothing
  | _ => false

def isSexagesimalFloat (cs : List Char) : Bool :=
  match digits? (dropSign cs) with
  | some (':' :: rest) =>
      match sexagesimals cs.length (':' :: rest) with
      | '.' :: tail => tail.all isDigitOrUnderscore
      | _ => false
  | _ => false

def isNamedFloat (cs : List Char) : Bool :=
  [".inf", ".Inf", ".INF"].any (·.toList == dropSign cs) ||
    [".nan", ".NaN", ".NAN"].any (·.toList == cs)

def isFloat (cs : List Char) : Bool :=
  isDecimalFloat cs || isPointFloat cs || isSexagesimalFloat cs || isNamedFloat cs

def isHexDigit (c : Char) : Bool :=
  c.isDigit || ('a' ≤ c && c ≤ 'f') || ('A' ≤ c && c ≤ 'F')

def isInt (cs : List Char) : Bool :=
  match dropSign cs with
  | ['0'] => true
  | '0' :: 'b' :: ds => !ds.isEmpty && ds.all fun c => c = '0' || c = '1' || c = '_'
  | '0' :: 'x' :: ds => !ds.isEmpty && ds.all fun c => isHexDigit c || c = '_'
  | '0' :: ds => ds.all fun c => ('0' ≤ c && c ≤ '7') || c = '_'
  | ds =>
      match digits? ds with
      | none => false
      | some rest => rest.isEmpty || (sexagesimals cs.length rest).isEmpty

def digitsOf? : Nat → List Char → Option (List Char × List Char)
  | 0, cs => some ([], cs)
  | _ + 1, [] => none
  | n + 1, c :: cs =>
      if c.isDigit then (digitsOf? n cs).map fun (ds, rest) => (c :: ds, rest) else none

def oneOrTwo? (cs : List Char) : Option (List Char × List Char) :=
  (digitsOf? 2 cs).orElse fun _ => digitsOf? 1 cs

structure TimeParts where
  hour : List Char
  minute : List Char
  second : List Char
  fraction : List Char
  offset : Option (Bool × List Char × List Char)
  deriving DecidableEq, Repr

structure DateParts where
  year : List Char
  month : List Char
  day : List Char
  time : Option TimeParts
  deriving DecidableEq, Repr

def isTabOrSpace (c : Char) : Bool :=
  c = ' ' || c = '\t'

def offset? (cs : List Char) : Option (Option (Bool × List Char × List Char)) :=
  match cs with
  | [] => some none
  | _ =>
      match cs.dropWhile isTabOrSpace with
      | ['Z'] => some none
      | sign :: rest =>
          if sign = '-' || sign = '+' then do
            let (hours, rest) ← oneOrTwo? rest
            match rest with
            | [] => some (some (sign = '-', hours, []))
            | ':' :: rest =>
                let (minutes, rest) ← digitsOf? 2 rest
                if rest.isEmpty then some (some (sign = '-', hours, minutes)) else none
            | _ => none
          else none
      | [] => none

def time? (cs : List Char) : Option TimeParts := do
  let (hour, cs) ← oneOrTwo? cs
  let cs ← Text.literal? ":" cs
  let (minute, cs) ← digitsOf? 2 cs
  let cs ← Text.literal? ":" cs
  let (second, cs) ← digitsOf? 2 cs
  let (fraction, cs) := match cs with
    | '.' :: cs => (cs.takeWhile Char.isDigit, cs.dropWhile Char.isDigit)
    | cs => ([], cs)
  let offset ← offset? cs
  return { hour, minute, second, fraction, offset }

def dateParts? (cs : List Char) : Option DateParts := do
  let (year, cs) ← digitsOf? 4 cs
  let cs ← Text.literal? "-" cs
  let (month, cs) ← oneOrTwo? cs
  let cs ← Text.literal? "-" cs
  let (day, cs) ← oneOrTwo? cs
  match cs with
  | [] => return { year, month, day, time := none }
  | c :: rest =>
      if c = 'T' || c = 't' then return { year, month, day, time := some (← time? rest) }
      else if isTabOrSpace c then
        return { year, month, day, time := some (← time? (rest.dropWhile isTabOrSpace)) }
      else none

def isTimestamp (cs : List Char) : Bool :=
  (dateParts? cs).any fun d => d.time.isSome || (d.month.length = 2 && d.day.length = 2)

def boolWords : List String :=
  ["yes", "Yes", "YES", "no", "No", "NO", "true", "True", "TRUE", "false", "False", "FALSE", "on",
    "On", "ON", "off", "Off", "OFF"]

def nullWords : List String :=
  ["~", "null", "Null", "NULL"]

def ofWord (cs : List Char) : Tag :=
  if boolWords.any (·.toList == cs) then .bool
  else if isFloat cs then .float
  else if isInt cs then .int
  else if cs = ['<', '<'] then .merge
  else if nullWords.any (·.toList == cs) then .null
  else if isTimestamp cs then .timestamp
  else if cs = ['='] then .value
  else if ["!", "&", "*"].any (·.toList == cs) then .unknown
  else .str

def withoutFinalBreak (cs : List Char) : List Char :=
  if cs.getLast? = some '\n' then cs.dropLast else cs

def ofPlain (cs : List Char) : Tag :=
  if cs = [] then .null
  else match withoutFinalBreak cs with
    | [] => .str
    | word => ofWord word

end Tag

end SchemaDiagram.Yaml
