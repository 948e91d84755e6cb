import FleetCache.Text.Integer
import FleetCache.Text.Printable

set_option autoImplicit false

namespace FleetCache.Text

def quoteFor (text : List Char) : Char :=
  if text.contains '\'' && !text.contains '"' then '"' else '\''

def quoteChar (quote c : Char) : List Char :=
  if c = quote || c = '\\' then ['\\', c]
  else if c = '\n' then ['\\', 'n']
  else if c = '\r' then ['\\', 'r']
  else if c = '\t' then ['\\', 't']
  else if isPrintable c then [c]
  else if c.toNat < 0x100 then '\\' :: 'x' :: hexDigits 2 c.toNat
  else if c.toNat < 0x10000 then '\\' :: 'u' :: hexDigits 4 c.toNat
  else '\\' :: 'U' :: hexDigits 8 c.toNat

def quoteChars (text : List Char) : List Char :=
  let quote := quoteFor text
  quote :: text.flatMap (quoteChar quote) ++ [quote]

def quoted (s : String) : String :=
  String.ofList (quoteChars s.toList)

example : quoteChars "a'b".toList = "\"a'b\"".toList := by decide +kernel
example : quoteChars ['a', '\n', Char.ofNat 0xA0] = "'a\\n\\xa0'".toList := by decide +kernel

end FleetCache.Text
