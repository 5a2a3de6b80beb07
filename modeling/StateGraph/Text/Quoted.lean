import StateGraph.Text.Invisible

set_option autoImplicit false

/-!
# Quoted text

Messages show names and states in quotes, so that blanks, quotes and characters
that cannot be seen are told apart.  A quote of the kind that encloses the text
and the backslash are written behind a backslash; NUL, tab, line feed and
carriage return have letters; every other character that is not shown is written
by its number in hexadecimal.
-/

namespace StateGraph.Quoted

/-- The lower-case hexadecimal digits of a number. -/
def hex (n : Nat) : List Char := Nat.toDigits 16 n

/-- The letter behind the backslash for the characters that have one. -/
def letter? (quote c : Char) : Option Char :=
  if c = '\x00' then some '0'
  else if c = '\t' then some 't'
  else if c = '\r' then some 'r'
  else if c = '\n' then some 'n'
  else if c = '\\' then some '\\'
  else if c = quote then some quote
  else none

/-- One character inside the given quotes. -/
def character (quote c : Char) : List Char :=
  match letter? quote c with
  | some l => ['\\', l]
  | none => if isInvisible c then '\\' :: 'u' :: '\x7b' :: hex c.toNat ++ ['\x7d'] else [c]

/-- A text in double quotes. -/
def string (s : String) : String :=
  String.ofList ('"' :: s.toList.flatMap (character '"') ++ ['"'])

/-- A character in single quotes. -/
def char (c : Char) : String :=
  String.ofList ('\'' :: character '\'' c ++ ['\''])

end StateGraph.Quoted

namespace StateGraph

/-- Texts joined by a comma and a blank. -/
def commaSeparated (items : List String) : String := ", ".intercalate items

end StateGraph
