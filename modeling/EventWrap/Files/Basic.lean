import EventWrap.Files.Path

/-!
# File systems

What is asked of the files around a program: to read one, to see to it that a directory is there,
and to write one. `FileSystem.makeDirectories` makes a directory with those above it. Answers to a
change come with the state after it, since a change that fails may have done a part of its work.
-/

namespace EventWrap

/-- Why a request about a file failed. -/
inductive FileFault where
  | notFound
  | alreadyThere
  | notADirectory
  | isADirectory
  | nameTooLong
  | other (cause : String)
  deriving DecidableEq, Inhabited

/-- The fault in the words of the operating system. -/
def FileFault.message : FileFault → String
  | notFound => "No such file or directory (os error 2)"
  | alreadyThere => "File exists (os error 17)"
  | notADirectory => "Not a directory (os error 20)"
  | isADirectory => "Is a directory (os error 21)"
  | nameTooLong => "File name too long (os error 36)"
  | other cause => cause

/-- Files and directories, whose state has type `σ`. -/
structure FileSystem (σ : Type) where
  read : String → σ → Except FileFault String
  /-- Makes a directory in one that is there, unless it is there itself. -/
  ensureDirectory : String → σ → Except FileFault Unit × σ
  /-- Writes a file with a path and a text. -/
  write : String → String → σ → Except FileFault Unit × σ

namespace FileSystem

variable {σ : Type} (fs : FileSystem σ)

def isFile (path : String) (state : σ) : Bool := (fs.read path state).toOption.isSome

/-- Makes the first of some directories. When something on its way is missing, the others, each of
which lies above the one before, are made first. -/
def ensureFirst (state : σ) : List String → Except FileFault Unit × σ
  | [] => (.ok (), state)
  | path :: above => match fs.ensureDirectory path state with
    | (.error .notFound, state) => match ensureFirst state above with
      | (.ok (), state) => fs.ensureDirectory path state
      | failed => failed
    | answer => answer

/-- Makes a directory, and first those above it that are missing. -/
def makeDirectories (path : String) (state : σ) : Except FileFault Unit × σ :=
  if path.isEmpty then (.ok (), state) else fs.ensureFirst state (path :: Path.above path)

end FileSystem

end EventWrap
