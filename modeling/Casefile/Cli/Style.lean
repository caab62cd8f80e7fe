/-!
# Colours on a terminal

* `Style` — how a stretch of text is set off.
* `Style.paint` — the text with the codes of a style around it, or as it is where colours are off.
-/

set_option autoImplicit false

namespace Casefile.Cli

/-- How a stretch of text is set off. -/
inductive Style where
  | good
  | doubtful
  | bad
  | remark
  | strong
  | alarm
  deriving DecidableEq, Repr

/-- The codes of a style: 1 is bold, 31 red, 32 green and 33 yellow. -/
def Style.codes : Style → String
  | .good => "1;32"
  | .doubtful => "1;33"
  | .bad => "1;31"
  | .remark => "33"
  | .strong => "1"
  | .alarm => "31"

/-- The text in a style. -/
def Style.paint (coloured : Bool) (style : Style) (text : String) : String :=
  if coloured then "\x1b[" ++ style.codes ++ "m" ++ text ++ "\x1b[0m" else text

end Casefile.Cli
