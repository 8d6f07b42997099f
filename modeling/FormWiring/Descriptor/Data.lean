import FormWiring.Descriptor
import FormWiring.Datum

/-!
# Descriptors as data

The written form of message sources, arguments and descriptors. A source and an argument are records of a tag
and a value.
-/

set_option autoImplicit false

namespace FormWiring

/-! ## Writing -/

/-- **Message source as data.** -/
def MessageSource.toDatum : MessageSource → Datum
  | .resource id => .record [("source", .text "resource"), ("value", .int id.toInt)]
  | .literal text => .record [("source", .text "literal"), ("value", .text text)]

/-- **Argument as data.** -/
def Arg.toDatum : Arg → Datum
  | .bool value => .record [("type", .text "bool"), ("value", .bool value)]
  | .int value => .record [("type", .text "int"), ("value", .int value.toInt)]
  | .text value => .record [("type", .text "str"), ("value", .text value)]
  | .message source => .record [("type", .text "message"), ("value", source.toDatum)]

/-- **Descriptor as data.** -/
def Descriptor.toDatum (d : Descriptor) : Datum :=
  .record [("kind", .text d.kind.name), ("targets", .list (d.targets.map .text)),
    ("message", d.message.toDatum), ("args", .list (d.args.map Arg.toDatum))]

/-! ## Reading -/

/-- **Message source from data.** -/
def MessageSource.ofDatum? (d : Datum) : Option MessageSource := do
  let value ← d.get? "value"
  match ← (d.get? "source").bind Datum.toText? with
  | "resource" => value.toInt32?.map .resource
  | "literal" => value.toText?.map .literal
  | _ => none

/-- **Argument from data.** -/
def Arg.ofDatum? (d : Datum) : Option Arg := do
  let value ← d.get? "value"
  match ← (d.get? "type").bind Datum.toText? with
  | "bool" => value.toBool?.map .bool
  | "int" => value.toInt64?.map .int
  | "str" => value.toText?.map .text
  | "message" => (MessageSource.ofDatum? value).map .message
  | _ => none

/-- **Descriptor from data.** -/
def Descriptor.ofDatum? (d : Datum) : Option Descriptor := do
  let kind ← ((d.get? "kind").bind Datum.toText?).bind ValidatorKind.ofName?
  let targets ← ((d.get? "targets").bind Datum.toItems?).bind fun items => items.mapM Datum.toText?
  let message ← (d.get? "message").bind MessageSource.ofDatum?
  let args ← ((d.get? "args").bind Datum.toItems?).bind fun items => items.mapM Arg.ofDatum?
  pure ⟨kind, targets, message, args⟩

end FormWiring
