import ProviderScout.Text.Utf8

namespace ProviderScout.Json

/-- The ways in which a text fails to be JSON. -/
inductive Fault where
  | endInArray
  | endInObject
  | endInString
  | endInValue
  | expectedColon
  | expectedCommaOrBracket
  | expectedCommaOrBrace
  | expectedWord
  | expectedValue
  | invalidEscape
  | invalidNumber
  | numberOutOfRange
  | controlCharacter
  | keyNotString
  | loneSurrogate
  | surrogateWithoutPair
  | trailingComma
  | trailingCharacters
  | tooDeep
  /-- A text is wanted and something else stands there. -/
  | notText (found : String)
deriving DecidableEq

def Fault.text : Fault → String
  | .endInArray => "EOF while parsing a list"
  | .endInObject => "EOF while parsing an object"
  | .endInString => "EOF while parsing a string"
  | .endInValue => "EOF while parsing a value"
  | .expectedColon => "expected `:`"
  | .expectedCommaOrBracket => "expected `,` or `]`"
  | .expectedCommaOrBrace => "expected `,` or `\x7d`"
  | .expectedWord => "expected ident"
  | .expectedValue => "expected value"
  | .invalidEscape => "invalid escape"
  | .invalidNumber => "invalid number"
  | .numberOutOfRange => "number out of range"
  | .controlCharacter => "control character (\\u0000-\\u001F) found while parsing a string"
  | .keyNotString => "key must be a string"
  | .loneSurrogate => "lone leading surrogate in hex escape"
  | .surrogateWithoutPair => "unexpected end of hex escape"
  | .trailingComma => "trailing comma"
  | .trailingCharacters => "trailing characters"
  | .tooDeep => "recursion limit exceeded"
  | .notText found => "invalid type: " ++ found ++ ", expected raw value"

/-- Why reading stops. -/
inductive Stop where
  /-- A fault, and how many bytes of the text lie behind it. -/
  | located (fault : Fault) (unread : Nat)
  /-- A text that stands in the text is at fault, as its own message tells. -/
  | inner (message : String)

/-- The line, counted from 1, on which some bytes end, and how many of them lie on it. -/
def position (bytes : List UInt8) : Nat × Nat :=
  bytes.foldl (fun p b => if b == 10 then (p.1 + 1, 0) else (p.1, p.2 + 1)) (1, 0)

/-- The message for what stops the reading of a text. -/
def Stop.message (text : String) : Stop → String
  | .located fault unread =>
    let bytes := Text.bytes text
    let (line, column) := position (bytes.take (bytes.length - unread))
    s!"{fault.text} at line {line} column {column}"
  | .inner message => message

end ProviderScout.Json
