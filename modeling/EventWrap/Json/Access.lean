import EventWrap.Json.Value

/-!
# Reading fields leniently

Access to the fields of an object where a missing field, or one of another kind, stands for a
default. Of several fields with one key the first is taken.
-/

namespace EventWrap.Json

def field? (j : Json) (name : String) : Option Json :=
  match j with
  | .obj fields => fields.lookup (some name)
  | _ => none

def field (j : Json) (name : String) : Json := (j.field? name).getD .null

/-- A field that is present and not null. -/
def given? (j : Json) (name : String) : Option Json :=
  match j.field? name with
  | some .null => none
  | other => other

/-! ## Leaves -/

def asText? : Json → Option String
  | .str t => t
  | _ => none

def asText (j : Json) : String := j.asText?.getD ""

def asFlag? : Json → Option Bool
  | .bool b => some b
  | _ => none

def asFlag (j : Json) : Bool := j.asFlag?.getD false

def asNat? : Json → Option Nat
  | .num (.int n) => some n.toNat
  | _ => none

def items : Json → List Json
  | .arr items => items
  | _ => []

/-! ## Fields -/

def textOf (j : Json) (name : String) : String := (j.field name).asText

def flagOf (j : Json) (name : String) (absent : Bool) : Bool := (j.field name).asFlag?.getD absent

def natOf (j : Json) (name : String) (absent : Nat) : Nat := (j.field name).asNat?.getD absent

def itemsOf (j : Json) (name : String) : List Json := (j.field name).items

def textsOf (j : Json) (name : String) : List String := (j.itemsOf name).filterMap asText?

def ofTexts (l : List String) : Json := .arr (l.map text)

end EventWrap.Json
