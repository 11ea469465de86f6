import EventWrap.Host.Basic
import EventWrap.Pass.Report
import EventWrap.Wrapper.Synthesis

/-!
# Transcripts

All that passes between a pass and its host, in order: the units that were offered with the host's
answers, the diagnostics and the events. What a pass delivered and reported is read off its
transcript.
-/

namespace EventWrap

/-- A unit for the host, and what diagnostics about it name. -/
structure Delivery where
  hintName : String
  text : String
  kind : UnitKind
  subject : String
  location : Location
  /-- The wrapper that the unit holds, when it holds one. -/
  wrapper : Option Wrapper := none

/-- What passes between a pass and its host. -/
inductive Exchange where
  | offered (unit : Delivery) (answer : Except HostError Unit)
  | reported (diagnostic : Diagnostic)
  | told (event : PassEvent)

namespace Exchange

/-- The unit that the host took. -/
def taken? : Exchange → Option Delivery
  | offered unit (.ok ()) => some unit
  | _ => none

def reported? : Exchange → Option Diagnostic
  | reported d => some d
  | _ => none

end Exchange

abbrev Transcript := List Exchange

namespace Transcript

def taken (t : Transcript) : List Delivery := t.filterMap (·.taken?)

/-- The wrappers whose units the host took. -/
def wrappers (t : Transcript) : List Wrapper := t.taken.filterMap (·.wrapper)

def diagnostics (t : Transcript) : List Diagnostic := t.filterMap (·.reported?)

end Transcript

end EventWrap
