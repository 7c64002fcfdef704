namespace CodeChunks.Text

def stripPrefix? : (mark cs : List Char) → Option (List Char)
  | [], cs => some cs
  | _ :: _, [] => none
  | m :: ms, c :: cs => if m = c then stripPrefix? ms cs else none

def stripSuffix? (mark cs : List Char) : Option (List Char) :=
  (stripPrefix? mark.reverse cs.reverse).map List.reverse

def between? (mark cs : List Char) : Option (List Char) :=
  (stripPrefix? mark cs).bind (stripSuffix? mark)

/-- The first of several marks that encloses the text is removed from it. -/
def unwrap (marks : List (List Char)) (cs : List Char) : List Char :=
  (marks.findSome? (between? · cs)).getD cs

def moduleMarks : List (List Char) := [['"'], ['\''], ['\x60']]

def unquote (s : String) : String :=
  String.ofList (unwrap moduleMarks s.toList)

def literalMarks : List (List Char) :=
  [['"', '"', '"'], ['\'', '\'', '\''], ['"'], ['\'']]

def isLiteralPrefix (c : Char) : Bool :=
  c ∈ ['r', 'R', 'b', 'B', 'u', 'U', 'f', 'F']

def literalBody (s : String) : String :=
  String.ofList (unwrap literalMarks (s.toList.dropWhile isLiteralPrefix))

end CodeChunks.Text
