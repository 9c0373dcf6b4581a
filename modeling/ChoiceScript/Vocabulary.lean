import ChoiceScript.Text.Character

/-! # Vocabulary

The words of the language: commands, reserved words, operators and variables that exist from the
start. Where order means nothing the words are sorted.
-/

namespace ChoiceScript.Vocabulary

def startupCommands : List String :=
  ["achievement", "author", "create", "product", "scene_list", "title"]

def commands : List String := [
  "abort", "achieve", "achievement", "advertisement", "allow_reuse", "author", "bug",
  "check_achievements", "check_purchase", "check_registration", "choice", "comment", "config",
  "create", "delay_break", "delay_ending", "delete", "disable_reuse", "else", "elseif", "elsif",
  "end_trial", "ending", "fake_choice", "feedback", "finish", "gosub", "gosub_scene", "goto",
  "goto_random_scene", "goto_scene", "gotoref", "hide_reuse", "if", "image", "input_number",
  "input_text", "label", "line_break", "link", "link_button", "login", "looplimit", "more_games",
  "page_break", "params", "print", "print_discount", "product", "purchase", "purchase_discount",
  "rand", "redirect_scene", "reset", "restart", "restore_game", "restore_purchases", "return",
  "save_game", "scene_list", "script", "selectable_if", "set", "setref", "share_this_game",
  "show_password", "sound", "stat_chart", "subscribe", "temp", "text_image", "timer", "title",
  "track_event", "youtube"]

/-- Commands that `*if` or `*selectable_if` may follow on one line. -/
def reuseCommands : List String :=
  ["allow_reuse", "disable_reuse", "hide_reuse"]

def argumentCommands : List String := [
  "achieve", "achievement", "author", "check_purchase", "create", "delay_break", "delete",
  "elseif", "elsif", "gosub", "gosub_scene", "goto", "goto_scene", "gotoref", "if", "image",
  "input_number", "input_text", "label", "link", "product", "purchase", "rand", "redirect_scene",
  "selectable_if", "set", "setref", "sound", "temp", "text_image", "timer", "title",
  "track_event", "youtube"]

def creationCommands : List String :=
  ["create", "temp", "label"]

def variableCommands : List String :=
  ["set", "delete", "rand", "input_text", "input_number", "params"]

/-- The commands that create or change what they name. -/
def symbolCommands : List String :=
  commands.filter fun command => creationCommands.contains command || variableCommands.contains command

theorem creates_or_changes {command : String} (known : symbolCommands.contains command = true) :
    command ∈ creationCommands ∨ command ∈ variableCommands := by
  rw [List.contains_iff_mem, symbolCommands, List.mem_filter] at known
  simpa using known.2

def conditionCommands : List String :=
  ["elseif", "elsif", "if", "selectable_if"]

def flowCommands : List String :=
  ["gosub", "gosub_scene", "goto", "goto_scene", "return"]

def statChartCommands : List String :=
  ["text", "percent", "opposed_pair"]

/-- Words of a stat chart that own the deeper lines below them. -/
def statChartBlockCommands : List String :=
  ["opposed_pair"]

def functions : List String :=
  ["auto", "length", "log", "not", "round", "timestamp"]

def booleanFunctions : List String :=
  ["not"]

def numberFunctions : List String :=
  ["length", "log", "round", "timestamp"]

def booleanOperators : List String :=
  ["and", "or"]

def numberOperators : List String :=
  ["modulo"]

def booleanValues : List String :=
  ["false", "true"]

/-- Operators made of symbols. A longer one stands before those it starts with. -/
def symbolicOperators : List String :=
  ["<=", ">=", "!=", "<>", "%+", "%-", "+", "-", "*", "/", "%", "&", "=", "<", ">"]

/-- Operators that may follow a number. -/
def numberSetOperators : List String :=
  ["%+", "%-", "*", "+", "-", "/", "modulo"]

/-- Operators that may follow a string. -/
def stringSetOperators : List String :=
  ["&"]

/-- Variables that always exist. -/
def builtinVariables : List String := [
  "choice_is_advertising_supported", "choice_is_ios_app", "choice_is_steam", "choice_is_trial",
  "choice_is_web", "choice_purchase_supported", "choice_purchased_adfree", "choice_quicktest",
  "choice_randomtest", "choice_release_date", "choice_restore_purchases", "choice_save_allowed",
  "choice_title", "choicescript_stats"]

/-- The name of the startup file, unless a project says otherwise. -/
def startupFile : String := "startup.txt"

/-- The name of the file that shows the statistics screen. -/
def statsFile : String := "choicescript_stats.txt"

/-- What follows a word that a name starts with, if it does. -/
def afterWord? (word : String) (name : String) : Option Text :=
  if word.toList.isPrefixOf name.toList then some (name.toList.drop word.length) else none

/-- Is a name that of the variable which says whether one of these achievements is achieved? -/
def isAchievementVariable (codenames : List String) (name : String) : Bool :=
  match afterWord? "choice_achieved_" name with
  | some codename =>
    codename ≠ [] && codename.all Text.isWord && codenames.contains (String.ofList codename)
  | none => false

/-- Could a name be that of a parameter, which has a number? -/
def isParameterVariable (name : String) : Bool :=
  match afterWord? "param_" name with
  | some number => number ≠ [] && number.all Text.isDecimal
  | none => false

end ChoiceScript.Vocabulary
