import EventWrap.Events.Collected
import EventWrap.Events.Shape
import EventWrap.Program.Codec

/-!
# Collected events as JSON
-/

namespace EventWrap

open Json

def ReturnKind.word : ReturnKind → String
  | .void => "void"
  | .task => "task"
  | .valueTask => "value_task"

namespace Program

variable (p : Program)

def elementJson : Element → Json
  | .unit => text "unit"
  | .type type => record [("type", p.refJson type)]
  | .tuple items => record [("tuple", .arr (items.map fun q => .arr [p.refJson q.type, text q.name]))]

def forwardingJson : Forwarding → Json
  | .unit => text "unit"
  | .parameter name => record [("parameter", text name)]
  | .tuple names => record [("tuple", ofTexts names)]

/-- A classification; `elementText` is its element as written in code. -/
def classificationJson (elementText : Element → String) (c : Classification) : Json :=
  record [("shape", text c.shape.word), ("shape_text", text c.shape.toText), ("element", p.elementJson c.element),
    ("element_text", text (elementText c.element)), ("forward", forwardingJson c.forwarding)]

def descriptorJson (elementText : Element → String) (collapse : Bool) (e : EventDescriptor) : Json :=
  record [("name", text e.name), ("declared_by", p.idJson e.declaringType), ("type", p.refJson e.delegate),
    ("invoke", p.signatureJson e.signature), ("return_kind", text e.returnKind.word), ("is_static", .bool e.isStatic),
    ("obsolete", obsolescenceJson e.obsolescence),
    ("classification", p.classificationJson elementText (p.classify e.signature collapse))]

end Program

end EventWrap
