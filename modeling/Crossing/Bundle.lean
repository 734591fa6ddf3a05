import Crossing.Capability.Table
import Crossing.Ownership.Slot

/-!
# Bundles

What an emitter is given: the resolved items of a run without a diagnostic, with the capabilities
that they were resolved against and the registry of the handles. A bundle is written as a document
for emitters elsewhere.
-/

namespace Crossing

structure Bundle where
  items : List ResolvedItem
  capabilities : CapabilityTable
  word : WordSize
  /-- The names of the handles, by their numbers. -/
  nominals : List String

namespace Bundle

def formatName : String := "rua-model"

def itemJson (r : ResolvedItem) : Json :=
  .obj [("name", .str r.item.qualifiedName), ("kind", .str r.item.kind.name),
    ("symbol", .str r.item.symbol), ("index", .int r.item.index), ("type", .str r.type.render),
    ("mode", .str r.mode.name), ("layout", r.layout.toJson), ("slots", r.root.toJson)]

/-- The bundle as a document. -/
def toJson (b : Bundle) : Json :=
  .obj [("format", .str formatName), ("version", .int 0), ("target", .str b.capabilities.target),
    ("word_bits", .int b.word.bits), ("items", .arr (b.items.map itemJson)),
    ("nominals", .arr (b.nominals.zipIdx.map fun (name, number) =>
      .obj [("handle", .int number), ("name", .str name)])),
    ("capabilities", b.capabilities.toJson)]

end Bundle

end Crossing
