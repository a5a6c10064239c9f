import CodeIntel.Text.GoString

/-!
# Slash-separated paths

Go's `path` package, as far as project roots and repository paths use it.
-/

namespace CodeIntel.Text

/-- One step of `path.Clean`: the cleaned components so far are kept in reverse. -/
def cleanComponent (rooted : Bool) (stack : List (List Char)) (component : List Char) :
    List (List Char) :=
  if component = [] || component = ['.'] then stack
  else if component = ['.', '.'] then
    match stack with
    | [] => if rooted then [] else [component]
    | top :: rest => if top = ['.', '.'] then component :: stack else rest
  else component :: stack

/-- `path.Clean` on characters. -/
def cleanChars (cs : List Char) : List Char :=
  let rooted := ['/'].isPrefixOf cs
  let components := ((splitOnChar '/' cs).foldl (cleanComponent rooted) []).reverse
  let body := List.intercalate ['/'] components
  if rooted then '/' :: body else if body = [] then ['.'] else body

/-- `path.Clean`. -/
def cleanPath (s : String) : String :=
  String.ofList (cleanChars s.toList)

/-- `path.Split`: the path up to and including its last slash, and the rest. -/
def splitPath (cs : List Char) : List Char × List Char :=
  let file := (cs.reverse.takeWhile (· ≠ '/')).reverse
  (cs.take (cs.length - file.length), file)

/-- `path.Base`. -/
def basePath (s : String) : String :=
  if s = "" then "."
  else
    let file := (splitPath (s.toList.reverse.dropWhile (· = '/')).reverse).2
    if file = [] then "/" else String.ofList file

/-- `path.Dir`. -/
def dirPath (s : String) : String :=
  String.ofList (cleanChars (splitPath s.toList).1)

/-- `path.Ext`: the suffix from the last dot of the last component. -/
def extPath (s : String) : String :=
  let file := (splitPath s.toList).2
  if file.contains '.' then
    String.ofList ('.' :: (file.reverse.takeWhile (· ≠ '.')).reverse)
  else ""

end CodeIntel.Text
