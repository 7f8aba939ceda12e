/-!
# Lines of a text

A text is cut into lines at its terminators: the ten characters that Unicode
recommends as line, page or record boundaries. A carriage return with a line
feed behind it is one terminator and not two. A terminator closes the line in
front of it and opens none, so a text that ends in one has no empty line at its
end, and the empty text has no line at all.
-/

namespace Funge93.Text

/-- A character that ends a line: line feed, vertical tab, form feed, carriage
return, the file, group and record separators, next line, and the line and
paragraph separators. -/
def isTerminator (c : Char) : Bool :=
  let n := c.toNat
  (0x0A ≤ n && n ≤ 0x0D) || (0x1C ≤ n && n ≤ 0x1E) || n == 0x85 || n == 0x2028 || n == 0x2029

/-- The text behind the terminator that it starts with; a carriage return takes
the line feed behind it along. -/
def dropTerminator : List Char → List Char
  | '\r' :: '\n' :: rest => rest
  | _ :: rest => rest
  | [] => []

/-- The first lines of a text, no more than `limit` of them. -/
def lines : (limit : Nat) → List Char → List (List Char)
  | 0, _ => []
  | _ + 1, [] => []
  | limit + 1, c :: rest =>
    (c :: rest).takeWhile (fun d => !isTerminator d) ::
      lines limit (dropTerminator ((c :: rest).dropWhile (fun d => !isTerminator d)))

end Funge93.Text
