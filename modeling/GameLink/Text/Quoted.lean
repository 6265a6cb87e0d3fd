import GameLink.Text.Invisible

/-! # Quoted text for people

Text in double quotes that shows every character: quotes and backslashes are
escaped, tab, line feed, carriage return and NUL have letters, and characters
without a visible form are written by their code point.
-/
namespace GameLink.Text

def lowerHex (n : Nat) : List Char := Nat.toDigits 16 n

def showChar (c : Char) : List Char :=
  match c with
  | '"' => ['\\', '"']
  | '\\' => ['\\', '\\']
  | '\t' => ['\\', 't']
  | '\n' => ['\\', 'n']
  | '\r' => ['\\', 'r']
  | '\x00' => ['\\', '0']
  | c =>
    if isInvisible c then ['\\', 'u', '\x7b'] ++ lowerHex c.toNat ++ ['\x7d'] else [c]

def quoted (s : String) : String :=
  String.ofList ('"' :: s.toList.flatMap showChar ++ ['"'])

end GameLink.Text
