/-!
Line ends. Text files are read with every line end as `\n`.
-/

namespace DbImage
namespace Text

/-- Turns `\r\n` and a lone `\r` into `\n`. -/
def unifyLineEnds : List Char → List Char
  | [] => []
  | ['\r'] => ['\n']
  | '\r' :: '\n' :: rest => '\n' :: unifyLineEnds rest
  | '\r' :: rest => '\n' :: unifyLineEnds rest
  | c :: rest => c :: unifyLineEnds rest

end Text
end DbImage
