import FormWiring.Plan
import FormWiring.Descriptor.Data
import FormWiring.Json.Printer

/-!
# Plans as data

The written form of a plan, and its JSON text with one entry a line.
-/

set_option autoImplicit false

namespace FormWiring

/-- **Plan as data.** -/
def Plan.toDatum (plan : Plan) : Datum :=
  .record [("unit", .text plan.unit), ("variant", .text plan.variant.name),
    ("descriptors", .list (plan.descriptors.map Descriptor.toDatum))]

/-- **JSON text of a plan.** -/
def Plan.toJson (plan : Plan) : String :=
  Json.pretty plan.toDatum

end FormWiring
