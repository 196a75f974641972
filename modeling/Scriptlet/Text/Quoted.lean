import Scriptlet.Text.Printable
/-!
# Quoted text

A text in a message stands between quotes.  The apostrophe is the usual quote; the double quote
takes over when the text has an apostrophe and no double quote.  The quote in use and the backslash
are escaped, and so is every character that does not print.
-/

namespace Scriptlet.Text

/-- Hexadecimal digits of `n`, padded with zeros to `width`. -/
def hexDigits (width n : Nat) : List Char :=
  let digits := Nat.toDigits 16 n
  List.replicate (width - digits.length) '0' ++ digits

/-- The escape of a character that does not print, as short as its code point allows. -/
def codeEscape (c : Char) : List Char :=
  if c.toNat < 0x100 then '\\' :: 'x' :: hexDigits 2 c.toNat
  else if c.toNat < 0x10000 then '\\' :: 'u' :: hexDigits 4 c.toNat
  else '\\' :: 'U' :: hexDigits 8 c.toNat

/-- How one character is written between quotes of the sort `quote`. -/
def quotedChar (printable : Char → Bool) (quote c : Char) : List Char :=
  if c == quote || c == '\\' then ['\\', c]
  else if c == '\n' then ['\\', 'n']
  else if c == '\r' then ['\\', 'r']
  else if c == '\t' then ['\\', 't']
  else if printable c then [c]
  else codeEscape c

def quoteFor (text : List Char) : Char :=
  if text.contains '\'' && !text.contains '"' then '"' else '\''

/-- A text between quotes, where `printable` tells which characters show as themselves. -/
def quoteWith (printable : Char → Bool) (text : String) : String :=
  let chars := text.toList
  let quote := quoteFor chars
  String.ofList (quote :: chars.flatMap (quotedChar printable quote) ++ [quote])

def quoted (text : String) : String :=
  quoteWith isPrintable text

/-- A byte string between quotes; only printable ASCII shows as itself. -/
def quotedBytes (text : String) : String :=
  quoteWith (fun c => 0x20 ≤ c.toNat && c.toNat < 0x7F) text

end Scriptlet.Text
