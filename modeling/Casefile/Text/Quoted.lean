import Casefile.Text.Undrawable

/-!
# Texts in double quotes

* `quoted` — a text between double quotes, with the quote, the backslash and every character that
  shows nothing of its own written as an escape.
-/

set_option autoImplicit false

namespace Casefile.Text

/-- The hexadecimal digits of a number, in lower case and without leading zeros. -/
def hexDigits (n : Nat) : List Char :=
  Nat.toDigits 16 n

/-- The letter behind the backslash, for the characters that have an escape of their own. -/
def quoteLetter? : Char → Option Char
  | '\x00' => some '0'
  | '\t' => some 't'
  | '\n' => some 'n'
  | '\r' => some 'r'
  | c => if c = '\\' ∨ c = '"' then some c else none

/-- The written form of one character. -/
def quoteChar (c : Char) : List Char :=
  match quoteLetter? c with
  | some letter => ['\\', letter]
  | none =>
    if isUndrawable c then ['\\', 'u', '\x7b'] ++ hexDigits c.toNat ++ ['\x7d'] else [c]

/-- The text between double quotes, with escapes. -/
def quoted (s : String) : String :=
  String.ofList ('"' :: s.toList.flatMap quoteChar ++ ['"'])

end Casefile.Text
