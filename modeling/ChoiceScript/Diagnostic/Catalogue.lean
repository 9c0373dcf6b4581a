import ChoiceScript.Diagnostic.Basic

/-! # The catalogue of notices

Every kind of diagnostic there is, in the order of the stages that find them.
-/

namespace ChoiceScript.Notice

/-! ## Lexing -/

def unterminatedString : Notice where
  code := "LEXER_UNTERMINATED_STRING"
  message := ["String is missing its closing quote"]
  hint := "Close the string with a double quote. Use \\\" for a literal quote."
  category := "lexer"

def unknownOperator : Notice where
  code := "LEXER_UNKNOWN_OPERATOR"
  message := ["Unknown operator"]
  category := "lexer"

def multireplaceInExpression : Notice where
  code := "LEXER_MULTIREPLACE_IN_EXPRESSION"
  message := ["Multireplaces aren't allowed in expressions"]
  category := "lexer"

/-! ## Structure of documents -/

def invalidCommand : Notice where
  code := "PARSER_INVALID_COMMAND"
  message := ["Command *", .field "command", " isn't a valid ChoiceScript command."]
  category := "parser"

def missingArguments : Notice where
  code := "PARSER_MISSING_ARGUMENTS"
  message := ["Command *", .field "command", " is missing its arguments."]
  category := "parser"

def startupOnlyCommand : Notice where
  code := "PARSER_STARTUP_ONLY_COMMAND"
  message := ["Command *", .field "command", " can only be used in startup.txt."]
  hint := "Move the command into startup.txt."
  category := "parser"

def replacementUnclosed : Notice where
  code := "PARSER_REPLACEMENT_UNCLOSED"
  message := ["Replacement is missing its \x7d"]
  category := "parser"

def replacementEmpty : Notice where
  code := "PARSER_REPLACEMENT_EMPTY"
  message := ["Replacement is empty"]
  category := "parser"

def parenthesesUnclosed : Notice where
  code := "PARSER_PARENTHESES_UNCLOSED"
  message := ["Missing close parentheses"]
  category := "parser"

def multireplaceUnclosed : Notice where
  code := "PARSER_MULTIREPLACE_UNCLOSED"
  message := ["Multireplace is missing its \x7d"]
  category := "parser"

def multireplaceNested : Notice where
  code := "PARSER_MULTIREPLACE_NESTED"
  message := ["Multireplaces cannot be nested"]
  category := "parser"

def multireplaceEmpty : Notice where
  code := "PARSER_MULTIREPLACE_EMPTY"
  message := ["Multireplace is empty"]
  category := "parser"

def multireplaceNoOptions : Notice where
  code := "PARSER_MULTIREPLACE_NO_OPTIONS"
  message := ["Multireplace has no options"]
  category := "parser"

def multireplaceOneOption : Notice where
  code := "PARSER_MULTIREPLACE_ONE_OPTION"
  message := ["Multireplace must have at least two options separated by |"]
  category := "parser"

def missingVariableName : Notice where
  code := "PARSER_MISSING_VARIABLE_NAME"
  message := ["Missing variable name"]
  category := "parser"

def invalidSymbol : Notice where
  code := "PARSER_INVALID_SYMBOL"
  message := ["Not a valid ", .field "kind", " name"]
  category := "parser"

def notAVariable : Notice where
  code := "PARSER_NOT_A_VARIABLE"
  message := ["Not a variable or variable reference"]
  category := "parser"

def missingValue : Notice where
  code := "PARSER_MISSING_VALUE"
  message := ["Missing value to set the variable to"]
  category := "parser"

def statChartIndent : Notice where
  code := "PARSER_STAT_CHART_INDENT"
  message := ["Line is indented too far."]
  category := "parser"

def statChartMissingVariable : Notice where
  code := "PARSER_STAT_CHART_MISSING_VARIABLE"
  message := ["Missing variable after ", .field "command"]
  category := "parser"

def statChartInvalidVariable : Notice where
  code := "PARSER_STAT_CHART_INVALID_VARIABLE"
  message := ["Not a valid variable."]
  category := "parser"

def statChartUnknownCommand : Notice where
  code := "PARSER_STAT_CHART_UNKNOWN_COMMAND"
  message := ["Must be one of ", .field "commands"]
  category := "parser"

def statChartEmpty : Notice where
  code := "PARSER_STAT_CHART_EMPTY"
  message := ["*stat_chart must have at least one stat"]
  category := "parser"

/-! ## Shapes of expressions -/

def tooManyElements : Notice where
  code := "EXPRESSION_TOO_MANY_ELEMENTS"
  message := ["Too many elements - are you missing parentheses?"]
  category := "expression"

def missingNumber : Notice where
  code := "EXPRESSION_MISSING_NUMBER"
  message := ["Missing number after the operator"]
  category := "expression"

def notANumber : Notice where
  code := "EXPRESSION_NOT_A_NUMBER"
  message := ["Not a number, variable, or variable reference"]
  category := "expression"

def missingOperator : Notice where
  code := "EXPRESSION_MISSING_OPERATOR"
  message := ["Missing operator like + or -"]
  category := "expression"

def numberOperator : Notice where
  code := "EXPRESSION_NUMBER_OPERATOR"
  message := ["Operator isn't allowed for numbers"]
  category := "expression"

def numberOperand : Notice where
  code := "EXPRESSION_NUMBER_OPERAND"
  message := ["Must be a number, variable, function, or parentheses"]
  category := "expression"

def stringOperator : Notice where
  code := "EXPRESSION_STRING_OPERATOR"
  message := ["Operator isn't allowed for strings"]
  hint := "Use & to join strings."
  category := "expression"

def stringOperand : Notice where
  code := "EXPRESSION_STRING_OPERAND"
  message := ["Must be a string, variable, function, or parentheses"]
  category := "expression"

def invalidValue : Notice where
  code := "EXPRESSION_INVALID_VALUE"
  message := ["Must be a string, variable, or parentheses"]
  category := "expression"

def nonBooleanFunction : Notice where
  code := "EXPRESSION_NON_BOOLEAN_FUNCTION"
  message := ["Only boolean functions like not() are allowed"]
  category := "expression"

def missingBooleanOperator : Notice where
  code := "EXPRESSION_MISSING_BOOLEAN_OPERATOR"
  message := ["Missing boolean comparison like 'and' or 'or'"]
  category := "expression"

def missingBooleanValue : Notice where
  code := "EXPRESSION_MISSING_BOOLEAN_VALUE"
  message := ["Missing value after the boolean comparison"]
  category := "expression"

def invalidCondition : Notice where
  code := "EXPRESSION_INVALID_CONDITION"
  message := ["Must be true, false, variable, not(), reference, or parentheses"]
  category := "expression"

/-! ## Checks against the project -/

def undefinedVariable : Notice where
  code := "VALIDATE_UNDEFINED_VARIABLE"
  message := ["Variable \"", .field "variable", "\" not defined ", .field "where"]
  hint := "Create it with *temp, or with *create in startup.txt."
  category := "validate/semantic"

def usedBeforeCreation : Notice where
  code := "VALIDATE_USED_BEFORE_CREATION"
  message := ["Variable \"", .field "variable", "\" used before it was created"]
  category := "validate/semantic"

def sceneNotFound : Notice where
  code := "VALIDATE_SCENE_NOT_FOUND"
  message := ["Scene \"", .field "scene", "\" wasn't found in startup.txt"]
  hint := "Add the scene to *scene_list in startup.txt."
  category := "validate/semantic"

def labelNotFound : Notice where
  code := "VALIDATE_LABEL_NOT_FOUND"
  message := ["Label \"", .field "label", "\" wasn't found in ", .field "filename"]
  category := "validate/semantic"

def styleGuide : Notice where
  code := "VALIDATE_STYLE_GUIDE"
  message := ["Choice of Games style requires a Unicode ", .field "description"]
  severity := .information
  category := "validate/style"

def commandNotOnOwnLine : Notice where
  code := "VALIDATE_COMMAND_NOT_ON_OWN_LINE"
  message := ["*", .field "command", " should be on a line by itself"]
  severity := .information
  category := "validate/style"

def catalogue : List Notice := [
  unterminatedString, unknownOperator, multireplaceInExpression, invalidCommand, missingArguments,
  startupOnlyCommand, replacementUnclosed, replacementEmpty, parenthesesUnclosed,
  multireplaceUnclosed, multireplaceNested, multireplaceEmpty, multireplaceNoOptions,
  multireplaceOneOption, missingVariableName, invalidSymbol, notAVariable, missingValue,
  statChartIndent, statChartMissingVariable, statChartInvalidVariable, statChartUnknownCommand,
  statChartEmpty, tooManyElements, missingNumber, notANumber, missingOperator, numberOperator,
  numberOperand, stringOperator, stringOperand, invalidValue, nonBooleanFunction,
  missingBooleanOperator, missingBooleanValue, invalidCondition, undefinedVariable,
  usedBeforeCreation, sceneNotFound, labelNotFound, styleGuide, commandNotOnOwnLine]

def ofCode? (code : String) : Option Notice := catalogue.find? (·.code = code)

end ChoiceScript.Notice
