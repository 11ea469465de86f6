/-!
# Modes of wrapping
-/

namespace EventWrap

/-- An instance wrapper holds an object; a static wrapper offers the static events of a type. -/
inductive WrapperMode where
  | ofInstance | ofStatics
  deriving DecidableEq, Inhabited

namespace WrapperMode

def isStatic : WrapperMode → Bool
  | .ofInstance => false
  | .ofStatics => true

def word : WrapperMode → String
  | .ofInstance => "instance"
  | .ofStatics => "static"

/-- The part of a file name that tells the modes apart. -/
def fileSuffix : WrapperMode → String
  | .ofInstance => "Instance"
  | .ofStatics => "Static"

end WrapperMode

end EventWrap
