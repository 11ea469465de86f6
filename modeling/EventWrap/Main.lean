import EventWrap.Command.Perform

/-!
# The program

Reads the files that the arguments name, works out what to write and to print, and does so. The
changes of a run are first imagined to succeed and then made in order; when one fails, the run is
imagined again with what is known by then.
-/

namespace EventWrap

open Command

/-! ## Faults -/

/-- The fault of a code of the operating system, which some requests report with its sign turned. -/
def faultOfCode (code : UInt32) (text : String) : FileFault :=
  match min code (0 - code) with
  | 2 => .notFound
  | 17 => .alreadyThere
  | 20 => .notADirectory
  | 21 => .isADirectory
  | 36 => .nameTooLong
  | _ => .other (text ++ " (os error " ++ toString (min code (0 - code)) ++ ")")

/-- The fault that an I/O error stands for. -/
def faultOf : IO.Error → FileFault
  | .noFileOrDirectory _ code text | .alreadyExists _ code text | .inappropriateType _ code text
  | .invalidArgument _ code text | .permissionDenied _ code text | .resourceExhausted _ code text
  | .noSuchThing _ code text => faultOfCode code text
  | e => .other (toString e)

def attempt {α : Type} (act : IO α) : IO (Except FileFault α) := do
  try return .ok (← act)
  catch e => return .error (faultOf e)

/-! ## Rehearsals -/

/-- A change to the files. -/
inductive Change where
  | directory (path : String)
  | file (path text : String)

/-- What is known of the files: texts, and the answers to the first changes of a run. Changes after
those succeed and are noted down. -/
structure Rehearsal where
  texts : List (String × Except FileFault String)
  answers : List (Except FileFault Unit)
  changes : List Change := []

namespace Rehearsal

def ask (change : Change) (r : Rehearsal) : Except FileFault Unit × Rehearsal :=
  match r.answers with
  | answer :: rest => (answer, { r with answers := rest })
  | [] => (.ok (), { r with changes := r.changes ++ [change] })

def system : FileSystem Rehearsal where
  read path r := (r.texts.lookup path).getD (.error .notFound)
  ensureDirectory path := ask (.directory path)
  write path text := ask (.file path text)

end Rehearsal

/-! ## Acting -/

/-- The paths that a command line reads. -/
def pathsOf (arguments : List String) : List String :=
  match Invocation.ofList arguments with
  | .perform a => [a.config.getD defaultConfig, a.model]
  | _ => []

/-- What reading a file says. -/
def observe (path : String) : IO (String × Except FileFault String) := do
  return (path, ← attempt (IO.FS.readFile path))

/-- Makes a change. A directory that is there already is as good as made. -/
def Change.make : Change → IO (Except FileFault Unit)
  | directory path => do
    match ← attempt (IO.FS.createDir path) with
    | .error .alreadyThere => match ← attempt (IO.FS.readFile path) with
      | .error .isADirectory => return .ok ()
      | _ => return .error .alreadyThere
    | answer => return answer
  | file path text => attempt (IO.FS.writeFile path text)

/-- Makes changes up to the first that fails. -/
def makeAll : List Change → IO (List (Except FileFault Unit))
  | [] => return []
  | change :: rest => do
    match ← change.make with
    | .ok () => return .ok () :: (← makeAll rest)
    | .error fault => return [.error fault]

/-- Rehearses and acts until every change of the run has been made. -/
partial def act (texts : List (String × Except FileFault String)) (passId : String) (arguments : List String)
    (answers : List (Except FileFault Unit)) : IO Outcome := do
  let start ← IO.monoNanosNow
  let (_, r) ← IO.lazyPure fun _ =>
    run Rehearsal.system { texts, answers } { passId := passId } arguments
  let stop ← IO.monoNanosNow
  let made ← makeAll r.changes
  if made.all (·.toOption.isSome) then
    let stamp : Stamp := { passId := passId, totalTime := ⟨stop - start⟩ }
    return (run Rehearsal.system { texts, answers := answers ++ made } stamp arguments).1
  else act texts passId arguments (answers ++ made)

/-- So many random hexadecimal digits. -/
def randomDigits (count : Nat) : IO String := do
  let mut digits := ""
  for _ in List.range count do
    digits := digits.push (Json.hexDigit (← IO.rand 0 15))
  return digits

/-- A random name for a pass: a UUID of version 4. -/
def freshPassId : IO String := do
  let variant := Json.hexDigit (8 + (← IO.rand 0 3))
  let groups := [← randomDigits 8, ← randomDigits 4, "4" ++ (← randomDigits 3),
    variant.toString ++ (← randomDigits 3), ← randomDigits 12]
  return "-".intercalate groups

end EventWrap

open EventWrap in
def main (arguments : List String) : IO UInt32 := do
  let texts ← (pathsOf arguments).mapM observe
  let outcome ← act texts (← freshPassId) arguments []
  IO.print outcome.output
  IO.eprint outcome.errors
  return UInt32.ofNat outcome.code
