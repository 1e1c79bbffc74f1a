import ProviderScout.Text.Plain

namespace ProviderScout.Text

def quotedChar (c : Char) : String :=
  if c == '"' then "\\\"" else if c == '\\' then "\\\\" else if c == '\n' then "\\n"
  else if c == '\r' then "\\r" else if c == '\t' then "\\t" else if c == '\x00' then "\\0"
  else if isPlain c then c.toString
  else "\\u\x7b" ++ String.ofList (Nat.toDigits 16 c.toNat) ++ "\x7d"

def quoted (s : String) : String := "\"" ++ "".intercalate (s.toList.map quotedChar) ++ "\""

end ProviderScout.Text
