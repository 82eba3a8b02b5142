import ResourceClasses.Text.Hexadecimal
import ResourceClasses.Text.Visible

/-!
Quoted text: what a message or a listing shows between quotes. The quote itself and the backslash
are escaped by a backslash, four controls have a letter of their own, and every other invisible
character is given by its code point.
-/

set_option autoImplicit false

namespace ResourceClasses.Text

/-- A character as it stands between two quotes. -/
def escaped (quote c : Char) : List Char :=
  if c = quote || c = '\\' then ['\\', c]
  else if c = '\x00' then ['\\', '0']
  else if c = '\t' then ['\\', 't']
  else if c = '\n' then ['\\', 'n']
  else if c = '\r' then ['\\', 'r']
  else if isVisible c then [c]
  else '\\' :: 'u' :: '\x7b' :: (hexDigits c.toNat ++ ['\x7d'])

def quoted (s : String) : String :=
  String.ofList ('"' :: (s.toList.flatMap (escaped '"') ++ ['"']))

def quotedChar (c : Char) : String :=
  String.ofList ('\'' :: (escaped '\'' c ++ ['\'']))

end ResourceClasses.Text
