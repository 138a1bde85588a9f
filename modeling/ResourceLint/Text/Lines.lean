/-!
# Lines of a text

A line ends at a line feed, and a carriage return right before the line feed belongs to the end
of the line. What follows the last line feed is a line too, unless it is empty; a carriage return
at its end is part of the line.
-/

namespace ResourceLint.Text

def lines : List Char → List (List Char)
  | [] => []
  | '\n' :: rest => [] :: lines rest
  | '\r' :: '\n' :: rest => [] :: lines rest
  | c :: rest =>
      match lines rest with
      | [] => [[c]]
      | line :: more => (c :: line) :: more

end ResourceLint.Text
