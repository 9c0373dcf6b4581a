import ChoiceScript.Text.Quoted

/-! # Faults

What can make a request fail, as opposed to the diagnostics that a faulty document gets.
-/

namespace ChoiceScript

/-- The reason a request has no answer. -/
inductive Fault where
  | negativePosition
  | reversedRange
  /-- The square brackets in the authority of an address are not a pair around its host. -/
  | misplacedBracket
  /-- A bracketed host starts like one of a notation to come and does not go on like one. -/
  | malformedFutureHost
  | notNumericHost (host : String)
  | bracketedDottedHost
  /-- An authority holds a character that is another spelling of a mark. -/
  | ambiguousAuthority (authority : String)
  | unknownDocument (uri : String)
  | missingField (name : String)
  /-- A message that is given fields has a closing brace of its own. -/
  | loneBrace
  /-- A command that handles no symbol is given to the reader of symbol commands. -/
  | unexpectedCommand (name : String)
  | invalidDomain (rule domain : String)
  | invalidCategory (rule category : String)
  | invalidConfidence (rule confidence : String)
  | invalidCode (rule code : String)
  deriving DecidableEq, Repr

namespace Fault

/-- How a rule's fault is worded: the rule, the field, its value and what was expected. -/
def ruleMessage (rule field value expected : String) : String :=
  "Validation rule `" ++ rule ++ "` has invalid " ++ field ++ " `" ++ value ++ "`; expected "
    ++ expected ++ "."

def message : Fault → String
  | negativePosition => "Position cannot be negative"
  | reversedRange => "Range invariant violated: start > end"
  | misplacedBracket => "Invalid IPv6 URL"
  | malformedFutureHost => "IPvFuture address is invalid"
  | notNumericHost host =>
    String.ofList (Text.quoted host.toList) ++ " does not appear to be an IPv4 or IPv6 address"
  | bracketedDottedHost => "An IPv4 address cannot be in brackets"
  | ambiguousAuthority authority =>
    "netloc '" ++ authority ++ "' contains invalid characters under NFKC normalization"
  | unknownDocument uri => uri
  | missingField name => name
  | loneBrace => "Single '\x7d' encountered in format string"
  | unexpectedCommand name =>
    "Unexpected command " ++ name ++ " in parse_symbol_manipulation_command"
  | invalidDomain rule domain => ruleMessage rule "domain" domain "semantic/style"
  | invalidCategory rule category => ruleMessage rule "category" category "semantic/style"
  | invalidConfidence rule confidence =>
    ruleMessage rule "confidence" confidence "policy/heuristic"
  | invalidCode rule code => ruleMessage rule "code" code "`VALIDATE_` prefix"

end Fault

end ChoiceScript
