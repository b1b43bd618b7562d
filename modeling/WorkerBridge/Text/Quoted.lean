/-
  WorkerBridge.Text.Quoted

  Texts in quotation marks, as error messages show the values they complain
  about.
-/
import WorkerBridge.Text.Unprintable

namespace WorkerBridge.Text

/-- The hexadecimal digits of `n`, lower case, in front of the digits already written. -/
def hexOnto (n : Nat) (rest : List Char) : List Char :=
  let digit := if n % 16 < 10 then Char.ofNat ('0'.toNat + n % 16)
    else Char.ofNat ('a'.toNat + (n % 16 - 10))
  if n < 16 then digit :: rest else hexOnto (n / 16) (digit :: rest)
termination_by n
decreasing_by omega

/-- How a character stands between quotation marks. Characters without a shape of their own are
written by their code point. -/
def quotedChar (c : Char) : List Char :=
  if c = '"' then ['\\', '"']
  else if c = '\\' then ['\\', '\\']
  else if c = '\t' then ['\\', 't']
  else if c = '\r' then ['\\', 'r']
  else if c = '\n' then ['\\', 'n']
  else if c = '\x00' then ['\\', '0']
  else if isUnprintable c then '\\' :: 'u' :: '\x7b' :: hexOnto c.toNat ['\x7d']
  else [c]

/-- The text in quotation marks. -/
def quoted (s : String) : String :=
  String.ofList ('"' :: s.toList.flatMap quotedChar ++ ['"'])

end WorkerBridge.Text
