/-!
# Paths

A path is a text whose components stand between slashes. An empty component, or a point, stays where
it is; two points lead back.
-/

namespace EventWrap.Path

/-- The most bytes that a path may have. -/
def limit : Nat := 4095

/-- The most bytes that a component may have. -/
def nameLimit : Nat := 255

def components (path : String) : List String := path.splitOn "/"

def ofComponents (parts : List String) : String := "/".intercalate parts

def isAbsolute (path : String) : Bool := path.startsWith "/"

/-- Whether a component stays where it is. -/
def staysPut (name : String) : Bool := name = "" || name = "."

/-- The starts of a list of components that end at one which leads somewhere, the shortest first;
`before` goes in front of each. -/
def stations (before : List String) : List String → List (List String)
  | [] => []
  | name :: rest =>
    if staysPut name then stations (before ++ [name]) rest
    else (before ++ [name]) :: stations (before ++ [name]) rest

/-- The paths of the directories on the way, the nearest first. -/
def above (path : String) : List String :=
  (stations [] (components path)).dropLast.reverse.map ofComponents

/-- The path of a file of a name in a directory. -/
def join (directory name : String) : String :=
  if directory.isEmpty || directory.endsWith "/" then directory ++ name else directory ++ "/" ++ name

end EventWrap.Path
