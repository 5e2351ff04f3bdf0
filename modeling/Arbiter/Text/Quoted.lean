import Arbiter.Text.Hidden
import Arbiter.Text.Pieces

/-!
Texts in quotes, for messages. A quote, a backslash and the common controls have short escapes;
every other character without a picture is written as its code point in braces.
-/

namespace Arbiter.Text

def hexDigits (n : Nat) : List Char :=
  Nat.toDigits 16 n

def quoteChar (c : Char) : List Char :=
  if c = '\x00' then ['\\', '0']
  else if c = '\t' then ['\\', 't']
  else if c = '\r' then ['\\', 'r']
  else if c = '\n' then ['\\', 'n']
  else if c = '\\' then ['\\', '\\']
  else if c = '"' then ['\\', '"']
  else if isHidden c then "\\u\x7b".toList ++ hexDigits c.toNat ++ ['\x7d']
  else [c]

def quoted (s : String) : String :=
  String.ofList ('"' :: s.toList.flatMap quoteChar ++ ['"'])

def quotedList (ss : List String) : String :=
  "[" ++ join ", " (ss.map quoted) ++ "]"

end Arbiter.Text
