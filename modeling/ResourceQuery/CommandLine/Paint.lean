/-!
# Painted text

On a terminal that shows colours, text is painted: the codes of its style stand in front of it and
a reset stands behind it. A reset inside the text would end the style too early, so the style
starts again after it. Without colours every text stays as it is.
-/

set_option autoImplicit false

namespace ResourceQuery.CommandLine

/-- What a piece of output is. -/
inductive Style
  /-- The headline of a page. -/
  | title
  /-- The headline of the last part of a page. -/
  | heading
  | label
  | item
  /-- The name of a row of a table. -/
  | rowName
  | kind
  /-- Values, such as the arguments of a condition. -/
  | values
  | join
  | error
  deriving DecidableEq, Repr

/-- The codes of a style: brightness first, then colour. -/
def Style.codes : Style → List Char
  | .title => "1;36".toList
  | .heading => "1;32".toList
  | .label => "2".toList
  | .item => "37".toList
  | .rowName => "1;37".toList
  | .kind => "36".toList
  | .values => "33".toList
  | .join => "35".toList
  | .error => "1;31".toList

def Style.start (style : Style) : List Char := '\x1b' :: '[' :: style.codes ++ ['m']

/-- What ends every style. -/
def reset : List Char := ['\x1b', '[', '0', 'm']

/-- Puts the start of a style after every reset. -/
def restart (start : List Char) : List Char → List Char
  | [] => []
  | '\x1b' :: '[' :: '0' :: 'm' :: rest => reset ++ start ++ restart start rest
  | c :: rest => c :: restart start rest

/-- A text in a style, if there are colours. -/
def paint (colored : Bool) (style : Style) (text : String) : String :=
  if colored then String.ofList (style.start ++ restart style.start text.toList ++ reset)
  else text

end ResourceQuery.CommandLine
