/-!
# Lines of a text

A line ends at a line feed, and a carriage return right before that line feed belongs to the line
end. Text after the last line feed is a line of its own unless it is empty.
-/

namespace TestDouble.Text

/-- A line, last character first, without the carriage return it ends with. -/
def withoutReturn : List Char → List Char
  | '\r' :: line => line
  | line => line

/-- The lines of the rest of a text, behind the begun line and the lines read so far, both last
part first. -/
def linesFrom : List Char → List Char → List String → List String
  | [], [], read => read.reverse
  | [], line, read => (String.ofList line.reverse :: read).reverse
  | '\n' :: rest, line, read =>
    linesFrom rest [] (String.ofList (withoutReturn line).reverse :: read)
  | c :: rest, line, read => linesFrom rest (c :: line) read

/-- The lines of a text. -/
def lines (text : String) : List String := linesFrom text.toList [] []

end TestDouble.Text
