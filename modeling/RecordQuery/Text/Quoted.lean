import RecordQuery.Text.Hidden

/-!
# Quoted text in messages

A text is put between quotes so that it is readable on one line: a quote, a backslash and the
control characters with a letter of their own are escaped by a backslash, and any other hidden
character is written by its code point.
-/

namespace RecordQuery.Text

def quoteChar (c : Char) : List Char :=
  if c = '\x00' then ['\\', '0']
  else if c = '\t' then ['\\', 't']
  else if c = '\r' then ['\\', 'r']
  else if c = '\n' then ['\\', 'n']
  else if c = '"' then ['\\', '"']
  else if c = '\\' then ['\\', '\\']
  else if isHidden c then '\\' :: 'u' :: '\x7b' :: Nat.toDigits 16 c.toNat ++ ['\x7d']
  else [c]

def quoted (text : String) : String :=
  String.ofList ('"' :: text.toList.flatMap quoteChar ++ ['"'])

end RecordQuery.Text
