import EventWrap.Files.Basic

/-!
# Trees of files

A file system in memory. A path is followed component by component, from the root or from the
working directory, and every component that more follows has to be a directory that is there. So
`a/../b` leads nowhere before `a` is made.
-/

namespace EventWrap

structure FileTree where
  /-- The path of the working directory from the root. -/
  home : List String := []
  /-- The directories below the root. -/
  directories : List (List String) := []
  files : List (List String × String) := []
  deriving DecidableEq, Inhabited

namespace FileTree

open Path

/-! ## Making trees -/

def file? (t : FileTree) (path : List String) : Option String := t.files.lookup path

def isDirectory (t : FileTree) (path : List String) : Bool := path.isEmpty || t.directories.contains path

/-- Where a path starts. -/
def origin (t : FileTree) (path : String) : List String := if isAbsolute path then [] else t.home

def addDirectory (t : FileTree) (path : List String) : FileTree :=
  if t.isDirectory path then t else { t with directories := t.directories ++ [path] }

/-- Sets the text of a file. -/
def setFile (t : FileTree) (path : List String) (text : String) : FileTree :=
  { t with files := t.files.filter (·.1 ≠ path) ++ [(path, text)] }

/-- An empty tree with a working directory. -/
def atHome (home : List String) : FileTree := (stations [] home).foldl addDirectory { home }

/-- A tree with one more file, whose directories are made. -/
def place (t : FileTree) (path text : String) : FileTree :=
  let path := t.origin path ++ (components path).filter (!staysPut ·)
  ((stations [] path.dropLast).foldl addDirectory t).setFile path text

/-- Files given by their paths, seen from a working directory. -/
def ofList (home : List String) (files : List (String × String)) : FileTree :=
  files.foldl (fun t (path, text) => t.place path text) (atHome home)

/-- The files below the working directory, with their paths from there. -/
def filesBelow (t : FileTree) : List (String × String) :=
  t.files.filterMap fun (path, text) =>
    if t.home.isPrefixOf path then some (ofComponents (path.drop t.home.length), text) else none

/-! ## Following paths -/

/-- The directory that a component leads to. -/
def enter (t : FileTree) (here : List String) (name : String) : Except FileFault (List String) :=
  if staysPut name then .ok here
  else if name = ".." then .ok here.dropLast
  else if nameLimit < name.utf8ByteSize then .error .nameTooLong
  else if t.isDirectory (here ++ [name]) then .ok (here ++ [name])
  else if (t.file? (here ++ [name])).isSome then .error .notADirectory
  else .error .notFound

/-- The directory that components lead to. -/
def walk (t : FileTree) (here : List String) : List String → Except FileFault (List String)
  | [] => .ok here
  | name :: rest => do walk t (← t.enter here name) rest

/-- Where components lead: to a directory on the way back or on the spot, or to an entry of a
directory, whether there is one or not. -/
inductive Spot where
  | directory (path : List String)
  | entry (path : List String)
  deriving DecidableEq, Inhabited

def spot (t : FileTree) (here parts : List String) : Except FileFault Spot :=
  match parts.getLast? with
  | none => .ok (.directory here)
  | some name => do
    let above ← t.walk here parts.dropLast
    if staysPut name || name = ".." then return .directory (← t.enter above name)
    else if nameLimit < name.utf8ByteSize then throw .nameTooLong
    else return .entry (above ++ [name])

/-! ## Requests -/

def read (t : FileTree) (path : String) : Except FileFault String :=
  if limit < path.utf8ByteSize then .error .nameTooLong
  else do
    match ← t.spot (t.origin path) (components path) with
    | .directory _ => throw .isADirectory
    | .entry path => match t.file? path with
      | some text => return text
      | none => if t.isDirectory path then throw .isADirectory else throw .notFound

/-- The tree with a directory more, whose path may end in slashes. -/
def makeDirectory (t : FileTree) (here parts : List String) : Except FileFault FileTree := do
  match ← t.spot here (parts.reverse.dropWhile (·.isEmpty)).reverse with
  | .directory _ => throw .alreadyThere
  | .entry path =>
    if t.isDirectory path || (t.file? path).isSome then throw .alreadyThere else return t.addDirectory path

def ensureDirectory (path : String) (t : FileTree) : Except FileFault Unit × FileTree :=
  let here := t.origin path
  if limit < path.utf8ByteSize then (.error .nameTooLong, t)
  else match t.makeDirectory here (components path) with
    | .ok t => (.ok (), t)
    | .error .alreadyThere => match t.walk here (components path) with
      | .ok _ => (.ok (), t)
      | .error _ => (.error .alreadyThere, t)
    | .error fault => (.error fault, t)

def write (path text : String) (t : FileTree) : Except FileFault Unit × FileTree :=
  if limit < path.utf8ByteSize then (.error .nameTooLong, t)
  else match t.spot (t.origin path) (components path) with
    | .error fault => (.error fault, t)
    | .ok (.directory _) => (.error .isADirectory, t)
    | .ok (.entry path) =>
      if t.isDirectory path then (.error .isADirectory, t) else (.ok (), t.setFile path text)

/-- The tree as a file system. -/
def system : FileSystem FileTree where
  read path t := t.read path
  ensureDirectory := ensureDirectory
  write := write

end FileTree

end EventWrap
