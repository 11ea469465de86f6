import EventWrap.Host.Basic

/-!
# Hosts in memory

A host that keeps what it is given, in order, and takes one unit per hint name.
-/

namespace EventWrap

structure MemoryHost where
  /-- Hint names and texts. -/
  sources : List (String × String) := []
  diagnostics : List Diagnostic := []
  isCancelled : Bool := false
  deriving DecidableEq, Inhabited

namespace MemoryHost

def hintNames (h : MemoryHost) : List String := h.sources.map (·.1)

def source? (h : MemoryHost) (hintName : String) : Option String := h.sources.lookup hintName

def offer (hintName text : String) (h : MemoryHost) : Except HostError Unit × MemoryHost :=
  match HintName.validate hintName with
  | .error e => (.error e, h)
  | .ok () =>
    if hintName ∈ h.hintNames then (.error (.alreadyAdded hintName), h)
    else (.ok (), { h with sources := h.sources ++ [(hintName, text)] })

def report (d : Diagnostic) (h : MemoryHost) : MemoryHost := { h with diagnostics := h.diagnostics ++ [d] }

def cancel (h : MemoryHost) : MemoryHost := { h with isCancelled := true }

/-- What was collected is given away. -/
def clear (h : MemoryHost) : MemoryHost := { h with sources := [], diagnostics := [] }

def host : Host MemoryHost where
  offer := offer
  report := report
  notify _ h := h
  cancelled h := h.isCancelled

end MemoryHost

end EventWrap
