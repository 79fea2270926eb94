import LinkSieve.Policy.Rule
import LinkSieve.Text.Lowercase

/-!
# Rule sets

One rule for each protocol that has one. The case of ASCII letters in the name of a protocol makes
no difference.
-/

namespace LinkSieve.Policy

/-- Rules by the lower-case names of protocols. -/
structure RuleSet where
  rules : Table Rule
deriving DecidableEq, Repr

namespace RuleSet

/-- The rule set under which every link passes. -/
def empty : RuleSet := ⟨.empty⟩

/-- A name in ASCII lower case. -/
def fold (protocol : String) : String :=
  String.ofList (protocol.toList.map Text.lowerAscii)

/-- A rule set with a rule for a protocol. -/
def insert (set : RuleSet) (protocol : String) (rule : Rule) : RuleSet :=
  ⟨set.rules.insert (fold protocol) rule⟩

/-- The rule for a protocol. -/
def get? (set : RuleSet) (protocol : String) : Option Rule :=
  set.rules.get? (fold protocol)

/-- The number of rules. -/
def size (set : RuleSet) : Nat := set.rules.size

/-- Whether there are no rules. -/
def isEmpty (set : RuleSet) : Bool := set.rules.isEmpty

/-- The rule set of a list of rules, of which a later one replaces an earlier one. -/
def ofList (rules : List (String × Rule)) : RuleSet :=
  rules.foldl (fun set e => set.insert e.1 e.2) empty

end RuleSet

end LinkSieve.Policy
