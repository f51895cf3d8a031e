import HtmlTemplate.Component.Resolver
import HtmlTemplate.Data.Json
/-!
The options of rendering, and how they are read from data and from JSON text.
-/
namespace HtmlTemplate

/-- How pages are rendered: whether parameters are escaped, how deep work may be
nested, and where components are found. -/
structure Options where
  escapeParameters : Bool := true
  maxDepth : Nat := 64
  aliasDirectory : Option String := none
  componentExtension : String := defaultExtension
  deriving Repr, DecidableEq

namespace Options

/-- The names of the options, in the order in which a list gives them. -/
def fieldNames : List String :=
  ["escape_parameters", "max_depth", "alias_dir", "component_extension"]

/-- Options with one of them set, unless its value is of a wrong kind. A name that
is no option is passed over. -/
def setField? (options : Options) (name : String) (value : Data) : Option Options :=
  match name, value with
  | "escape_parameters", .bool b => some { options with escapeParameters := b }
  | "max_depth", .number (.int n) =>
    if 0 ≤ n then some { options with maxDepth := n.toNat } else none
  | "alias_dir", .null => some { options with aliasDirectory := none }
  | "alias_dir", .string directory => some { options with aliasDirectory := some directory }
  | "component_extension", .string extension =>
    some { options with componentExtension := extension }
  | _, _ => if fieldNames.contains name then none else some options

/-- Reads options from an object, or from a list that gives them in order. Those
that are missing keep their defaults. -/
def ofData? : Data → Option Options
  | .object fields =>
    fields.foldlM (fun options (name, value) => setField? options name value) {}
  | .array values =>
    if fieldNames.length < values.length then none
    else
      (fieldNames.zip values).foldlM (fun options (name, value) => setField? options name value) {}
  | _ => none

/-- Reads options from JSON text, where names that are no options are passed
over. -/
def ofJson? (text : String) : Option Options :=
  (Json.readWanted? fieldNames.contains text).bind ofData?

/-- Where component files are looked for. -/
def componentFiles (options : Options) : ComponentFiles :=
  ⟨options.aliasDirectory, options.componentExtension⟩

end Options

end HtmlTemplate
