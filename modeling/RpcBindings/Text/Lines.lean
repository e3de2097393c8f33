/-!
# RpcBindings.Text.Lines

Splitting a text into lines.  A line ends at a line feed, a carriage return (with the line feed
that may follow it), a vertical tab, a form feed, one of the separators U+001C to U+001E, a next
line character, or one of the separators U+2028 and U+2029.  A break at the very end of the text
opens no further line.
-/

namespace RpcBindings.Text

/-- Whether a character ends a line. -/
def isLineBreak (c : Char) : Bool :=
  let n := c.toNat
  (0x0A ≤ n && n ≤ 0x0D) || (0x1C ≤ n && n ≤ 0x1E) || n == 0x85 || n == 0x2028 || n == 0x2029

/-- The lines of a text, without their breaks. -/
def linesOfChars : List Char → List (List Char)
  | [] => []
  | '\r' :: '\n' :: rest => [] :: linesOfChars rest
  | c :: rest =>
    if isLineBreak c then [] :: linesOfChars rest
    else
      match linesOfChars rest with
      | [] => [[c]]
      | line :: lines => (c :: line) :: lines

def lines (s : String) : List String :=
  (linesOfChars s.toList).map String.ofList

/-- A text without the line feeds at its ends. -/
def trimLineFeeds (s : String) : String :=
  let isFeed := (· == '\n')
  String.ofList ((s.toList.dropWhile isFeed).reverse.dropWhile isFeed).reverse

/-- Writes every line break of a file, `\r\n` or a lone `\r`, as a line feed. -/
def unifyLineBreaks : List Char → List Char
  | [] => []
  | '\r' :: '\n' :: rest => '\n' :: unifyLineBreaks rest
  | '\r' :: rest => '\n' :: unifyLineBreaks rest
  | c :: rest => c :: unifyLineBreaks rest

end RpcBindings.Text
