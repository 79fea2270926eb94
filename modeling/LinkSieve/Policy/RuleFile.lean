import LinkSieve.Files.Path
import LinkSieve.Json.Documents
import LinkSieve.Policy.RuleSet
import LinkSieve.Toml.Reading
import LinkSieve.Yaml.Reading

/-!
# Rule files

Rules in a file, in one of three formats. A file is a table of rules by protocol. A rule is a table
in which every field may be left out, but none repeated and no other given. Where a value is
compared, numbers and truth values count as the texts that they are written as.

## Implementation notes

The formats differ in what a list may stand for: in two of them a list of values stands for a
table with its fields in their order, and of these only one minds values left over.
-/

namespace LinkSieve.Policy

/-- The format of a rule file. -/
inductive RuleFormat where
  | yaml
  | json
  | toml
deriving DecidableEq, Repr

namespace RuleFormat

/-- The name of a format. -/
def name : RuleFormat → String
  | .yaml => "YAML"
  | .json => "JSON"
  | .toml => "TOML"

/-- The format that the extension of a path stands for. -/
def ofPath (path : String) : RuleFormat :=
  match (Files.Path.extension? path).map RuleSet.fold with
  | some "yaml" | some "yml" => .yaml
  | some "json" => .json
  | _ => .toml

/-- Reads the text of a document. -/
def read? : RuleFormat → String → Option Document
  | .yaml => Yaml.read?
  | .json => Json.readDocument?
  | .toml => Toml.read?

/-- Whether a list may stand for a table with its fields in their order, given the number of
values and of fields. -/
def allowsList (format : RuleFormat) (values fields : Nat) : Bool :=
  match format with
  | .yaml => false
  | .json => values ≤ fields
  | .toml => true

end RuleFormat

namespace RuleFile

/-- The text that a scalar of a rule is compared as. An integer beyond the signed range counts as
a number with a fraction. -/
def scalarText? : Scalar → Option String
  | .null | .foreign => none
  | .bool b => some (if b then "true" else "false")
  | .int n =>
    if n < 0x8000_0000_0000_0000 then some (toString n)
    else some (Decimal.Binary64.ofMagnitude? false (Decimal.Magnitude.ofNat? n.toNat)).plainText
  | .float x => some x.plainText
  | .text s => some s

/-- The items of a list; a place left blank holds none. -/
def items? : Document → Option (List Document)
  | .list items => some items
  | .scalar .null (some "") => some []
  | _ => none

/-- The entries of a table; a place left blank holds none. -/
def entries? : Document → Option (List (String × Document))
  | .table entries => some entries
  | .scalar .null (some "") => some []
  | _ => none

/-- A text. -/
def text? : Document → Option String
  | .scalar _ asText => asText
  | _ => none

/-- A value to compare with. -/
def value? : Document → Option String
  | .scalar value _ => scalarText? value
  | _ => none

/-- A list of names. -/
def names? (d : Document) : Option (List String) := do
  (← items? d).mapM text?

/-- A list of values. -/
def values? (d : Document) : Option (List String) := do
  (← items? d).mapM value?

/-- A table of what `read` makes of each entry; a later entry replaces an earlier one. -/
def tableOf? {β : Type} (read : Document → Option β) (d : Document) : Option (Table β) := do
  let entries ← (← entries? d).mapM fun (name, d) => (read d).map (name, ·)
  return Table.ofList entries

/-- The fields of a table that may have given ones, each at most once; or of a list, if the format
lets it stand for a table. -/
def fields? (format : RuleFormat) (names : List String) (d : Document) :
    Option (List (String × Document)) :=
  match d with
  | .list items =>
    if format.allowsList items.length names.length then some (names.zip items) else none
  | d => do
    let entries ← entries? d
    let given := entries.map (·.1)
    if given.all names.contains && given.length = given.eraseDups.length then return entries
    else none

/-- What `read` makes of a field, or a default if the field is left out. -/
def field? {β : Type} (fields : List (String × Document)) (name : String) (default : β)
    (read : Document → Option β) : Option β :=
  match fields.lookup name with
  | some d => read d
  | none => some default

/-- Reads a condition. -/
def condition? (format : RuleFormat) (d : Document) : Option Condition := do
  let fields ← fields? format ["when", "require"] d
  return {
    when := ← field? fields "when" .empty (tableOf? value?)
    required := ← field? fields "require" [] names? }

/-- Reads a rule. -/
def rule? (format : RuleFormat) (d : Document) : Option Rule := do
  let fields ←
    fields? format ["required_params", "allowed_values", "forbidden_values", "conditional"] d
  return {
    required := ← field? fields "required_params" [] names?
    allowed := ← field? fields "allowed_values" .empty (tableOf? values?)
    forbidden := ← field? fields "forbidden_values" .empty (tableOf? values?)
    conditions := ← field? fields "conditional" [] fun d => do
      (← items? d).mapM (condition? format) }

/-- Reads the rules of a document. -/
def ruleSet? (format : RuleFormat) (d : Document) : Option RuleSet := do
  let rules ← (← entries? d).mapM fun (protocol, d) => (rule? format d).map (protocol, ·)
  return RuleSet.ofList rules

/-- Reads the text of a rule file. -/
def read? (format : RuleFormat) (content : String) : Option RuleSet := do
  ruleSet? format (← format.read? content)

end RuleFile

end LinkSieve.Policy
