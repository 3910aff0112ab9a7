import Calorimetry.Text.Graphic
import Calorimetry.Text.Mark

/-! Text between quotes in a message. -/

namespace Calorimetry.Text.Quoted

/-- Whether a character can be told by its looks: it is no mark on another, it shows, and it is not
blank unless it is the space. -/
def isPlain (c : Char) : Bool :=
  isGraphic c && !isMark c && !isIgnorable c && (c = ' ' || !isBlank c)

/-- A quote and a backslash stand behind a backslash. What is not plain shows a letter or its
number. -/
def escape (c : Char) : List Char :=
  if c = '"' || c = '\\' then ['\\', c]
  else if c = '\t' then ['\\', 't']
  else if c = '\n' then ['\\', 'n']
  else if c = '\r' then ['\\', 'r']
  else if c.toNat = 0 then ['\\', '0']
  else if isPlain c then [c]
  else '\\' :: 'u' :: '\x7b' :: Nat.toDigits 16 c.toNat ++ ['\x7d']

def quoted (s : String) : String := String.ofList ('"' :: s.toList.flatMap escape ++ ['"'])

end Calorimetry.Text.Quoted
