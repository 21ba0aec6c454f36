import SchemaDiagram.Encoding.Utf8
import SchemaDiagram.Json.Reader

/-!
JSON texts in bytes of any Unicode encoding. Such a text starts with two characters of ASCII, so the
zeros among its first bytes tell the size of its units and their order.
-/

namespace SchemaDiagram.Detection

variable [Platform]

inductive Encoding where
  | bytes
  | pairs (greatestFirst : Bool)
  | quads (greatestFirst : Bool)
  deriving DecidableEq, Repr

def detect : Bytes → Encoding × Bytes
  | 0x00 :: 0x00 :: 0xFE :: 0xFF :: bs => (.quads true, bs)
  | 0xFF :: 0xFE :: 0x00 :: 0x00 :: bs => (.quads false, bs)
  | 0xFE :: 0xFF :: bs => (.pairs true, bs)
  | 0xFF :: 0xFE :: bs => (.pairs false, bs)
  | 0xEF :: 0xBB :: 0xBF :: bs => (.bytes, bs)
  | bs => (ofZeros bs, bs)
where
  ofZeros : Bytes → Encoding
    | 0 :: b :: _ :: _ :: _ => if b = 0 then .quads true else .pairs true
    | _ :: 0 :: c :: d :: _ => if c = 0 && d = 0 then .quads false else .pairs false
    | [0, _] => .pairs true
    | [_, 0] => .pairs false
    | _ => .bytes

def unitValue (greatestFirst : Bool) (bs : Bytes) : Nat :=
  (if greatestFirst then bs else bs.reverse).foldl (fun n b => n * 0x100 + b.toNat) 0

def units? (size : Nat) (greatestFirst : Bool) : Nat → Bytes → Option (List Nat)
  | _, [] => some []
  | 0, _ => none
  | fuel + 1, bs =>
      if bs.length < size then none
      else
        (units? size greatestFirst fuel (bs.drop size)).map
          (unitValue greatestFirst (bs.take size) :: ·)

def joinPairs : List Nat → List Char
  | high :: low :: ns =>
      if Json.isHighSurrogate high && Json.isLowSurrogate low then
        Json.codePoint (0x10000 + (high - 0xD800) * 0x400 + (low - 0xDC00)) :: joinPairs ns
      else Json.codePoint high :: joinPairs (low :: ns)
  | [n] => [Json.codePoint n]
  | [] => []

def text? (bs : Bytes) : Option (List Char) :=
  match detect bs with
  | (.bytes, bs) => (Utf8.decode bs).toOption
  | (.pairs greatestFirst, bs) => (units? 2 greatestFirst bs.length bs).map joinPairs
  | (.quads greatestFirst, bs) =>
      (units? 4 greatestFirst bs.length bs).bind fun ns =>
        if ns.all (· < 0x110000) then some (ns.map Json.codePoint) else none

end SchemaDiagram.Detection
