import ProviderScout.Json.Basic
import ProviderScout.Number.Shortest

namespace ProviderScout.Json

def quoteChar (c : Char) : List Char :=
  if c == '"' then ['\\', '"']
  else if c == '\\' then ['\\', '\\']
  else if c == '\n' then ['\\', 'n']
  else if c == '\r' then ['\\', 'r']
  else if c == '\t' then ['\\', 't']
  else if c.toNat < 32 then
    ['\\', 'u', '0', '0', Nat.digitChar (c.toNat / 16), Nat.digitChar (c.toNat % 16)]
  else [c]

def quote (s : String) : String :=
  String.ofList ('"' :: s.toList.flatMap quoteChar ++ ['"'])

mutual

/-- The text of a value; `float` writes a double. -/
def render (float : Float → String) : Json → String
  | .null | .unreadable => "null"
  | .bool true => "true"
  | .bool false => "false"
  | .int n => toString n
  | .float x => float x
  | .string s => quote s
  | .array items => "[" ++ ",".intercalate (renderItems float items) ++ "]"
  | .object fields => "\x7b" ++ ",".intercalate (renderFields float fields) ++ "\x7d"

def renderItems (float : Float → String) : List Json → List String
  | [] => []
  | v :: rest => v.render float :: renderItems float rest

def renderFields (float : Float → String) : List (String × Json) → List String
  | [] => []
  | f :: rest => (quote f.1 ++ ":" ++ f.2.render float) :: renderFields float rest

end

/-- The positions of the point at which a number is written out in full: not above the first and
above the second. -/
def fullPoints : Int × Int := (16, -5)

/-- The exponent of a number; it always has a sign, and no zeros in front. -/
def exponentText (e : Int) : String := (if e < 0 then "e-" else "e+") ++ toString e.natAbs

/-- Writes digits as a number with a point or an exponent. -/
def decimalText (d : Shortest.Decimal) : String :=
  if d.point ≤ fullPoints.1 && d.point > fullPoints.2 then
    if d.digits.length ≤ d.point then d.text ++ ".0" else d.text
  else
    let digits := d.digits.map Nat.digitChar
    let back := digits.drop 1
    String.ofList (digits.take 1 ++ if back.isEmpty then [] else '.' :: back)
      ++ exponentText (d.point - 1)

def floatText (x : Float) : String :=
  match x.toModel.unpack with
  | .notANumber | .infinity _ => "null"
  | .zero .positive => "0.0"
  | .zero .negative => "-0.0"
  | .finite .positive mantissa exponent _ => decimalText (Shortest.decimal mantissa exponent)
  | .finite .negative mantissa exponent _ =>
    "-" ++ decimalText (Shortest.decimal mantissa exponent)

def toText (v : Json) : String := v.render floatText

end ProviderScout.Json
