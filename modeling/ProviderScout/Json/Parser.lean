import ProviderScout.Json.Fault
import ProviderScout.Json.Numeral
import ProviderScout.Json.Printer

/-!
Reading JSON text. A strict reader refuses literals that stand for no value and nesting beyond 127
levels. A lenient one keeps such literals as `Json.unreadable` and sets no limit, so that whoever
looks at the value decides: a field that nobody reads may hold anything well formed.

An object whose first name is a certain mark stands for the value of the JSON text that it holds. A
strict reader puts that value in its place; a lenient one leaves the object as it is.
-/

namespace ProviderScout.Json

/-- How a text is read. -/
inductive Mode where
  /-- `mark` is the name that marks an object as standing for the text that it holds. -/
  | strict (mark : String)
  | lenient

namespace Mode

def isStrict : Mode → Bool
  | strict _ => true
  | lenient => false

def isMark (m : Mode) (name? : Option String) : Bool :=
  match m with
  | strict mark => name? == some mark
  | lenient => false

end Mode

/-- The deepest nesting that is read strictly. -/
def maxDepth : Nat := 127

def isBlank (c : Char) : Bool := c == ' ' || c == '\n' || c == '\t' || c == '\r'

def skipBlanks (cs : List Char) : List Char := cs.dropWhile isBlank

def size (cs : List Char) : Nat := cs.foldl (fun n c => n + c.utf8Size) 0

def failAt {α : Type} (fault : Fault) (cs : List Char) : Except Stop α :=
  .error (.located fault (size cs - 1))

/-- A fault behind what was read so far. -/
def failBehind {α : Type} (fault : Fault) (cs : List Char) : Except Stop α :=
  .error (.located fault (size cs))

/-- Reads the rest of one of the words `null`, `true` and `false`. -/
def word (value : Json) : List Char → List Char → Except Stop (Json × List Char)
  | [], cs => .ok (value, cs)
  | _ :: _, [] => failAt .endInValue []
  | w :: ws, c :: cs => if c == w then word value ws cs else failAt .expectedWord (c :: cs)

def digitsOf (cs : List Char) : List Nat :=
  (cs.takeWhile Char.isDigit).map fun c => c.toNat - '0'.toNat

def exponentPart (cs : List Char) : Except Stop ((Bool × List Nat) × List Char) :=
  let (down, cs) := match cs with
    | '+' :: rest => (false, rest)
    | '-' :: rest => (true, rest)
    | _ => (false, cs)
  match cs with
  | [] => failAt .endInValue []
  | c :: _ =>
    if c.isDigit then .ok ((down, digitsOf cs), cs.dropWhile Char.isDigit)
    else failAt .invalidNumber cs

def fractionPart (cs : List Char) : Except Stop (List Nat × List Char) :=
  match cs with
  | [] => failAt .endInValue []
  | c :: _ =>
    if c.isDigit then .ok (digitsOf cs, cs.dropWhile Char.isDigit) else failAt .invalidNumber cs

/-- Reads the digits before the point; only zero starts with a zero. -/
def wholePart (cs : List Char) : Except Stop (List Nat × List Char) :=
  match cs with
  | [] => failAt .endInValue []
  | '0' :: rest => match rest with
    | d :: _ => if d.isDigit then failAt .invalidNumber rest else .ok ([0], rest)
    | [] => .ok ([0], rest)
  | c :: _ =>
    if c.isDigit then .ok (digitsOf cs, cs.dropWhile Char.isDigit) else failAt .invalidNumber cs

def numeral (negative : Bool) (cs : List Char) : Except Stop (Numeral × List Char) := do
  let (whole, cs) ← wholePart cs
  let (fraction, cs) ← match cs with
    | '.' :: rest => fractionPart rest
    | _ => .ok ([], cs)
  match cs with
  | c :: rest =>
    if c == 'e' || c == 'E' then
      let (exponent, cs) ← exponentPart rest
      return (⟨negative, whole, fraction, some exponent⟩, cs)
    else return (⟨negative, whole, fraction, none⟩, cs)
  | [] => return (⟨negative, whole, fraction, none⟩, cs)

def number (mode : Mode) (negative : Bool) (cs : List Char) : Except Stop (Json × List Char) := do
  let (n, cs) ← numeral negative cs
  match n.value?, mode with
  | some v, _ => return (v, cs)
  | none, .lenient => return (.unreadable, cs)
  | none, .strict _ => .error (.located .numberOutOfRange (size cs + n.unseen))

def hexDigit? (c : Char) : Option Nat :=
  if c.isDigit then some (c.toNat - '0'.toNat)
  else if 'a' ≤ c && c ≤ 'f' then some (c.toNat - 'a'.toNat + 10)
  else if 'A' ≤ c && c ≤ 'F' then some (c.toNat - 'A'.toNat + 10)
  else none

/-- The fault of an escape that is not four digits. Four bytes are looked at. -/
def failInEscape {α : Type} (cs : List Char) : Except Stop α :=
  if 4 ≤ size cs then .error (.located .invalidEscape (size cs - 4)) else failAt .endInString []

/-- Reads the four digits of an escape. -/
def hexEscape (cs : List Char) : Except Stop (Nat × List Char) :=
  match cs with
  | a :: b :: c :: d :: rest => match hexDigit? a, hexDigit? b, hexDigit? c, hexDigit? d with
    | some a, some b, some c, some d => .ok (((a * 16 + b) * 16 + c) * 16 + d, rest)
    | _, _, _, _ => failInEscape cs
  | _ => failInEscape cs

/-- Reads an escape by code unit. Half of a surrogate pair is no character. -/
def unicodeEscape (mode : Mode) (cs : List Char) : Except Stop (Option Char × List Char) := do
  let (high, cs) ← hexEscape cs
  if high < 0xD800 || 0xDFFF < high then return (some (Char.ofNat high), cs)
  if !mode.isStrict && 0xDC00 ≤ high then return (none, cs)
  if 0xDC00 ≤ high then failBehind .loneSurrogate cs
  match cs, mode with
  | '\\' :: 'u' :: rest, mode =>
    let (low, behind) ← hexEscape rest
    if 0xDC00 ≤ low && low ≤ 0xDFFF then
      return (some (Char.ofNat (0x10000 + (high - 0xD800) * 0x400 + (low - 0xDC00))), behind)
    match mode with
    | .strict _ => failBehind .loneSurrogate behind
    | .lenient => return (none, cs)
  | _, .lenient => return (none, cs)
  | [], .strict _ | ['\\'], .strict _ => failAt .endInString []
  | '\\' :: c :: rest, .strict _ => failAt .surrogateWithoutPair (c :: rest)
  | cs, .strict _ => failAt .surrogateWithoutPair cs

def escape (mode : Mode) : List Char → Except Stop (Option Char × List Char)
  | [] => failAt .endInString []
  | '"' :: rest => .ok (some '"', rest)
  | '\\' :: rest => .ok (some '\\', rest)
  | '/' :: rest => .ok (some '/', rest)
  | 'b' :: rest => .ok (some '\x08', rest)
  | 'f' :: rest => .ok (some '\x0c', rest)
  | 'n' :: rest => .ok (some '\n', rest)
  | 'r' :: rest => .ok (some '\r', rest)
  | 't' :: rest => .ok (some '\t', rest)
  | 'u' :: rest => unicodeEscape mode rest
  | cs => failAt .invalidEscape cs

/-- Reads a text behind its opening quote. `acc` holds the characters read, last first; it is lost
once one of them stands for no character. -/
def textBody (mode : Mode) :
    Nat → Option (List Char) → List Char → Except Stop (Option String × List Char)
  | 0, _, cs => failBehind .endInString cs
  | _ + 1, _, [] => failAt .endInString []
  | fuel + 1, acc, c :: cs =>
    if c == '"' then .ok (acc.map fun read => String.ofList read.reverse, cs)
    else if c == '\\' then do
      let (read?, rest) ← escape mode cs
      textBody mode fuel (do return (← read?) :: (← acc)) rest
    else if c.toNat < 32 then failAt .controlCharacter (c :: cs)
    else textBody mode fuel (acc.map (c :: ·)) cs

def text (mode : Mode) (cs : List Char) : Except Stop (Option String × List Char) :=
  textBody mode (cs.length + 1) (some []) cs

/-- Finds the first character of the next item of an array, or its end. -/
def nextItem (first : Bool) (cs : List Char) : Except Stop (Bool × List Char) :=
  match skipBlanks cs with
  | [] => failAt .endInArray []
  | ']' :: rest => .ok (false, rest)
  | c :: rest =>
    if first then .ok (true, c :: rest)
    else if c == ',' then
      match skipBlanks rest with
      | [] => failAt .endInValue []
      | ']' :: rest => failAt .trailingComma (']' :: rest)
      | rest => .ok (true, rest)
    else failAt .expectedCommaOrBracket (c :: rest)

/-- Finds the opening quote of the next name of an object, or its end, and reads over it. -/
def nextName (first : Bool) (cs : List Char) : Except Stop (Bool × List Char) :=
  match skipBlanks cs with
  | [] => failAt .endInObject []
  | '}' :: rest => .ok (false, rest)
  | c :: rest =>
    if first then
      if c == '"' then .ok (true, rest) else failAt .keyNotString (c :: rest)
    else if c == ',' then
      match skipBlanks rest with
      | [] => failAt .endInValue []
      | '"' :: rest => .ok (true, rest)
      | '}' :: rest => failAt .trailingComma ('}' :: rest)
      | rest => failAt .keyNotString rest
    else failAt .expectedCommaOrBrace (c :: rest)

def colon (cs : List Char) : Except Stop (Unit × List Char) :=
  match skipBlanks cs with
  | [] => failAt .endInObject []
  | ':' :: rest => .ok ((), rest)
  | rest => failAt .expectedColon rest

/-- Finds the end of an object in which nothing more may stand, and reads over it. -/
def endOfObject (cs : List Char) : Except Stop (Unit × List Char) :=
  match skipBlanks cs with
  | [] => failAt .endInObject []
  | '}' :: rest => .ok ((), rest)
  | ',' :: rest => failAt .trailingComma (',' :: rest)
  | rest => failAt .trailingCharacters rest

/-- What a value without parts is, in words. -/
def kindText : Json → String
  | .bool b => "boolean \x60" ++ toString b ++ "\x60"
  | .int n => "integer \x60" ++ toString n ++ "\x60"
  | .float x => "floating point \x60" ++ floatText x ++ "\x60"
  | _ => "null"

/-- The fault of a value without parts that stands where a text is wanted. -/
def refuse (r : Except Stop (Json × List Char)) : Except Stop (String × List Char) := do
  let (v, rest) ← r
  failBehind (.notText (kindText v)) rest

/-- Reads a text where nothing else may stand. -/
def heldText (mode : Mode) (cs : List Char) : Except Stop (String × List Char) :=
  match skipBlanks cs with
  | [] => failAt .endInValue []
  | '"' :: rest => (text mode rest).map fun (s?, rest) => (s?.getD "", rest)
  | 'n' :: rest => refuse (word .null ['u', 'l', 'l'] rest)
  | 't' :: rest => refuse (word (.bool true) ['r', 'u', 'e'] rest)
  | 'f' :: rest => refuse (word (.bool false) ['a', 'l', 's', 'e'] rest)
  | '-' :: rest => refuse (number mode true rest)
  | '[' :: rest => failBehind (.notText "sequence") ('[' :: rest)
  | '{' :: rest => failBehind (.notText "map") ('{' :: rest)
  | c :: rest =>
    if c.isDigit then refuse (number mode false (c :: rest))
    else failAt .expectedValue (c :: rest)

/-- A value behind which the text has to end. -/
def ended (v : Json) (rest : List Char) : Except Stop Json :=
  match skipBlanks rest with
  | [] => .ok v
  | rest => failAt .trailingCharacters rest

mutual

/-- Reads a value; `depth` levels may still be opened. -/
def value (mode : Mode) : Nat → Nat → List Char → Except Stop (Json × List Char)
  | 0, _, cs => failAt .tooDeep cs
  | fuel + 1, depth, cs =>
    match skipBlanks cs with
    | [] => failAt .endInValue []
    | 'n' :: rest => word .null ['u', 'l', 'l'] rest
    | 't' :: rest => word (.bool true) ['r', 'u', 'e'] rest
    | 'f' :: rest => word (.bool false) ['a', 'l', 's', 'e'] rest
    | '-' :: rest => number mode true rest
    | '"' :: rest => do
      let (s?, rest) ← text mode rest
      return (match s? with
        | some s => .string s
        | none => .unreadable, rest)
    | '[' :: rest =>
      if depth = 0 && mode.isStrict then failAt .tooDeep ('[' :: rest)
      else items mode fuel (depth - 1) [] rest
    | '{' :: rest =>
      if depth = 0 && mode.isStrict then failAt .tooDeep ('{' :: rest)
      else fields mode fuel (depth - 1) (some []) true rest
    | c :: rest =>
      if c.isDigit then number mode false (c :: rest) else failAt .expectedValue (c :: rest)

/-- Reads the items of an array; `acc` holds those read, last first. -/
def items (mode : Mode) : Nat → Nat → List Json → List Char → Except Stop (Json × List Char)
  | 0, _, _, cs => failAt .tooDeep cs
  | fuel + 1, depth, acc, cs => do
    let (more, cs) ← nextItem acc.isEmpty cs
    if more then
      let (v, cs) ← value mode fuel depth cs
      items mode fuel depth (v :: acc) cs
    else return (.array acc.reverse, cs)

/-- Reads the fields of an object; `acc` holds those read, last first. An object with an unreadable
name is unreadable. -/
def fields (mode : Mode) : Nat → Nat → Option (List (String × Json)) → Bool → List Char →
    Except Stop (Json × List Char)
  | 0, _, _, _, cs => failAt .tooDeep cs
  | fuel + 1, depth, acc, first, cs => do
    let (more, cs) ← nextName first cs
    if more then
      let (name?, cs) ← text mode cs
      let (_, cs) ← colon cs
      if first && mode.isMark name? then embedded mode fuel cs
      else
        let (v, cs) ← value mode fuel depth cs
        fields mode fuel depth (do return (← name?, v) :: (← acc)) false cs
    else return (match acc with
      | some acc => .object acc.reverse
      | none => .unreadable, cs)

/-- Reads the JSON text that an object holds, behind the name that marks it, and the end of the
object. -/
def embedded (mode : Mode) : Nat → List Char → Except Stop (Json × List Char)
  | 0, cs => failAt .tooDeep cs
  | fuel + 1, cs => do
    let (inner, cs) ← heldText mode cs
    let read := do
      let (v, rest) ← value mode fuel maxDepth inner.toList
      ended v rest
    match read with
    | .error stop => .error (.inner (stop.message inner))
    | .ok v =>
      let (_, cs) ← endOfObject cs
      return (v, cs)

end

/-- Reads a whole text, or tells where it stops being JSON. -/
def read (mode : Mode) (s : String) : Except String Json :=
  let read := do
    let (v, rest) ← value mode (2 * s.length + 2) maxDepth s.toList
    ended v rest
  read.mapError (Stop.message s)

end ProviderScout.Json
