/-!
# JSON values

* `Json` — a value; the members of an object keep their order.
* `Json.fields?` — the values of given fields, taken from an object or from an array.
* `Json.pretty` — the text of a value, one member or item a line, indented by two spaces a level.
-/

set_option autoImplicit false

namespace Casefile

/-- A JSON value. A number that is not written as a whole number is kept as its text. -/
inductive Json where
  | null
  | bool (b : Bool)
  | int (i : Int)
  | real (text : String)
  | str (s : String)
  | arr (items : List Json)
  | obj (members : List (String × Json))
  deriving Inhabited, Repr

namespace Json

/-- The values of some fields: the members of those names, each of which an object must have once and
beside which it may have others, or the items of an array of just that length. -/
def fields? (names : List String) : Json → Option (List Json)
  | .obj members =>
    if names.all fun n => members.countP (·.1 = n) = 1 then
      names.mapM fun n => members.lookup n
    else none
  | .arr items => if items.length = names.length then some items else none
  | _ => none

/-- The word in a value that is one of several words: a text, or an object with nothing but an empty
member of that name. -/
def word? : Json → Option String
  | .str s => some s
  | .obj [(s, .null)] => some s
  | _ => none

/-! ## Texts -/

/-- The letter behind the backslash, for the characters that have an escape of their own. -/
def escapeLetter? : Char → Option Char
  | '\x08' => some 'b'
  | '\t' => some 't'
  | '\n' => some 'n'
  | '\x0c' => some 'f'
  | '\r' => some 'r'
  | c => if c = '"' ∨ c = '\\' then some c else none

/-- The written form of a character between double quotes. Only what JSON demands is escaped. -/
def escapeChar (c : Char) : List Char :=
  match escapeLetter? c with
  | some letter => ['\\', letter]
  | none =>
    if c.toNat < 0x20 then
      ['\\', 'u', '0', '0', Nat.digitChar (c.toNat / 16), Nat.digitChar (c.toNat % 16)]
    else [c]

/-- A text between double quotes. -/
def quote (s : String) : List Char :=
  '"' :: s.toList.flatMap escapeChar ++ ['"']

/-! ## Values -/

/-- The indentation of a level. -/
def indent (level : Nat) : List Char :=
  List.replicate (2 * level) ' '

mutual

/-- The characters of a value at a level of nesting. -/
def write (level : Nat) : Json → List Char
  | .null => "null".toList
  | .bool b => (if b then "true" else "false").toList
  | .int i => (toString i).toList
  | .real text => text.toList
  | .str s => quote s
  | .arr [] => ['[', ']']
  | .arr (item :: items) =>
    ['[', '\n'] ++ indent (level + 1) ++ write (level + 1) item ++ writeItems (level + 1) items
      ++ '\n' :: indent level ++ [']']
  | .obj [] => ['\x7b', '\x7d']
  | .obj ((name, value) :: members) =>
    ['\x7b', '\n'] ++ indent (level + 1) ++ quote name ++ [':', ' '] ++ write (level + 1) value
      ++ writeMembers (level + 1) members ++ '\n' :: indent level ++ ['\x7d']

/-- The characters of the items behind the first. -/
def writeItems (level : Nat) : List Json → List Char
  | [] => []
  | item :: items =>
    [',', '\n'] ++ indent level ++ write level item ++ writeItems level items

/-- The characters of the members behind the first. -/
def writeMembers (level : Nat) : List (String × Json) → List Char
  | [] => []
  | (name, value) :: members =>
    [',', '\n'] ++ indent level ++ quote name ++ [':', ' '] ++ write level value
      ++ writeMembers level members

end

/-- The text of a value, without a line break at its end. -/
def pretty (j : Json) : String :=
  String.ofList (write 0 j)

end Json

end Casefile
