/-!
# Lines of a text

A line ends at a line feed, which takes one carriage return before it along. A text that ends with
a line feed has no further line after it.
-/

namespace EventWrap.Text

def splitLines : List Char → List (List Char)
  | [] => []
  | '\n' :: rest => [] :: splitLines rest
  | '\r' :: '\n' :: rest => [] :: splitLines rest
  | c :: rest => match splitLines rest with
    | [] => [[c]]
    | line :: lines => (c :: line) :: lines

def lines (s : String) : List String := (splitLines s.toList).map String.ofList

end EventWrap.Text
