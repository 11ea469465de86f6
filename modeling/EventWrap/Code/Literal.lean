/-!
# String literals

A text as a C# literal: quote, backslash, line feed, carriage return, tab and the null character
are escaped, and all other characters stand for themselves.
-/

namespace EventWrap.Code

def escapeInLiteral : Char → List Char
  | '"' => ['\\', '"']
  | '\\' => ['\\', '\\']
  | '\n' => ['\\', 'n']
  | '\r' => ['\\', 'r']
  | '\t' => ['\\', 't']
  | '\x00' => ['\\', '0']
  | c => [c]

def stringLiteral (value : String) : String :=
  String.ofList ('"' :: (value.toList.flatMap escapeInLiteral ++ ['"']))

end EventWrap.Code
