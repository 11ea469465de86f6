import EventWrap.Files.Basic
import EventWrap.Host.Basic
import EventWrap.Sorting

/-!
# Hosts on disk

A host that writes every unit to a file of one directory, which is made when it is missing. It
takes one unit per hint name; a unit that could not be written may be offered again.
-/

namespace EventWrap

/-- A host over a file system, whose state has type `σ`. -/
structure DirectoryHost (σ : Type) where
  /-- The path of the directory. -/
  root : String
  disk : σ
  /-- The hint names of the written units, in the order of writing. -/
  hintNames : List String := []
  diagnostics : List Diagnostic := []
  isCancelled : Bool := false

namespace DirectoryHost

variable {σ : Type}

/-- The names of the written files in order. -/
def written (h : DirectoryHost σ) : List String := sortedBy id h.hintNames

/-- Writes a unit to its file. -/
def store (fs : FileSystem σ) (hintName text : String) (h : DirectoryHost σ) :
    Except HostError Unit × DirectoryHost σ :=
  match fs.makeDirectories h.root h.disk with
  | (.error fault, disk) => (.error (.io fault.message), { h with disk })
  | (.ok (), disk) => match fs.write (Path.join h.root hintName) text disk with
    | (.error fault, disk) => (.error (.io fault.message), { h with disk })
    | (.ok (), disk) => (.ok (), { h with disk, hintNames := h.hintNames ++ [hintName] })

def offer (fs : FileSystem σ) (hintName text : String) (h : DirectoryHost σ) :
    Except HostError Unit × DirectoryHost σ :=
  if h.isCancelled then (.error .cancelled, h)
  else match HintName.validate hintName with
    | .error e => (.error e, h)
    | .ok () =>
      if hintName ∈ h.hintNames then (.error (.alreadyAdded hintName), h) else h.store fs hintName text

def report (d : Diagnostic) (h : DirectoryHost σ) : DirectoryHost σ :=
  { h with diagnostics := h.diagnostics ++ [d] }

def cancel (h : DirectoryHost σ) : DirectoryHost σ := { h with isCancelled := true }

def host (fs : FileSystem σ) : Host (DirectoryHost σ) where
  offer := offer fs
  report := report
  notify _ h := h
  cancelled h := h.isCancelled

end DirectoryHost

end EventWrap
