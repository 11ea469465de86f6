import EventWrap.Settings
import EventWrap.Json.Decoder

/-!
# Settings as JSON

Every field has a default; unknown fields are ignored.
-/

namespace EventWrap

open Json Json.Decoder

def ReactiveNames.toJson (r : ReactiveNames) : Json :=
  record [("observable", text r.observable), ("create", text r.create),
    ("disposable_create", text r.disposableCreate), ("unit", text r.unit), ("unit_default", text r.unitDefault)]

def ReactiveNames.decoder : Decoder ReactiveNames :=
  Decoder.record ["observable", "create", "disposable_create", "unit", "unit_default"] fun room fields =>
    match fields with
    | [observable, create, disposableCreate, unit, unitDefault] => do
      let absent : ReactiveNames := {}
      return {
        observable := ← withDefault absent.observable string room observable
        create := ← withDefault absent.create string room create
        disposableCreate := ← withDefault absent.disposableCreate string room disposableCreate
        unit := ← withDefault absent.unit string room unit
        unitDefault := ← withDefault absent.unitDefault string room unitDefault }
    | _ => none

namespace Settings

def toJson (s : Settings) : Json :=
  record [("extensions_namespace", text s.extensionsNamespace), ("extensions_class", text s.extensionsClass),
    ("factory_method", text s.factoryMethod), ("static_attribute", text s.staticAttribute),
    ("collapse_plain_event_args", .bool s.collapsePlainEventArgs), ("emit_bootstrap", .bool s.emitBootstrap),
    ("emit_documentation", .bool s.emitDocumentation),
    ("emit_nullable_directive", .bool s.emitNullableDirective), ("reactive", s.reactive.toJson)]

def decoder : Decoder Settings :=
  Decoder.record ["extensions_namespace", "extensions_class", "factory_method", "static_attribute",
      "collapse_plain_event_args", "emit_bootstrap", "emit_documentation", "emit_nullable_directive",
      "reactive"] fun room fields =>
    match fields with
    | [extensionsNamespace, extensionsClass, factoryMethod, staticAttribute, collapsePlainEventArgs,
        emitBootstrap, emitDocumentation, emitNullableDirective, reactive] => do
      let absent : Settings := {}
      return {
        extensionsNamespace := ← withDefault absent.extensionsNamespace string room extensionsNamespace
        extensionsClass := ← withDefault absent.extensionsClass string room extensionsClass
        factoryMethod := ← withDefault absent.factoryMethod string room factoryMethod
        staticAttribute := ← withDefault absent.staticAttribute string room staticAttribute
        collapsePlainEventArgs := ← withDefault true boolean room collapsePlainEventArgs
        emitBootstrap := ← withDefault true boolean room emitBootstrap
        emitDocumentation := ← withDefault true boolean room emitDocumentation
        emitNullableDirective := ← withDefault true boolean room emitNullableDirective
        reactive := ← withDefault {} ReactiveNames.decoder room reactive }
    | _ => none

def ofJson? (j : Json) : Option Settings := j.decode decoder

end Settings

end EventWrap
