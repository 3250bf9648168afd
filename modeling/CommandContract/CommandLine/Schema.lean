import CommandContract.Config.Basic
import CommandContract.Descriptor
import CommandContract.Parameter.Type
import CommandContract.Rpc

set_option autoImplicit false

/-!
# The vocabulary of descriptors

What may stand in a descriptor, and how lines are written, as a value for tools.
-/
namespace CommandContract

/-- The three forms of a line. -/
def lineForms : List String := ["IDENT '(' OBJECT_LITERAL ')'", "IDENT '(' ARG_LIST ')'", "IDENT"]

def vocabulary : Value :=
  .object [
    ("descriptorFiles", Fields.strings (DescriptorFile.all.map DescriptorFile.fileName)),
    ("parameterTypes", Fields.strings (ParameterType.all.map ParameterType.name)),
    ("commandTypes", Fields.strings (CommandKind.all.map CommandKind.name)),
    ("grammar", Fields.strings lineForms),
    ("templateFilters", Fields.strings Template.filterNames),
    ("rpcOps", Fields.strings (Rpc.Operation.all.map Rpc.Operation.name)),
    ("configFile", .string Config.fileName)]

end CommandContract
