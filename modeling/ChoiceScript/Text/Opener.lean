import ChoiceScript.Text.Basic

/-! # Openers

A replacement opens with `${` and a multireplace with `@{`; either may have one or two exclamation
marks before the brace, which change the case of what is put in.
-/

namespace ChoiceScript

/-- The constructs that may stand in prose and strings. -/
inductive OpenerKind where
  | replacement
  | multireplace
  deriving DecidableEq, Repr

/-- What a construct opens with, and how many characters that takes. -/
structure Opener where
  kind : OpenerKind
  length : Nat
  deriving DecidableEq, Repr

namespace Opener

/-- The length of at most two exclamation marks and an open brace. -/
def bangsToBrace? : Text → Option Nat
  | '{' :: _ => some 1
  | '!' :: '{' :: _ => some 2
  | '!' :: '!' :: '{' :: _ => some 3
  | _ => none

def at? : Text → Option Opener
  | '$' :: rest => (bangsToBrace? rest).map fun length => ⟨.replacement, length + 1⟩
  | '@' :: rest => (bangsToBrace? rest).map fun length => ⟨.multireplace, length + 1⟩
  | _ => none

def multireplaceAt? (text : Text) : Option Opener :=
  (at? text).filter (·.kind = .multireplace)

/-- The first place of a text where something is found, and what is found there. -/
def seek (found : Text → Option α) : Text → Option (Nat × α)
  | [] => none
  | c :: rest =>
    match found (c :: rest) with
    | some opener => some (0, opener)
    | none => (seek found rest).map fun (skipped, opener) => (skipped + 1, opener)

def blankMultireplaces : Text → Text
  | '@' :: '{' :: rest => ' ' :: ' ' :: blankMultireplaces rest
  | '@' :: '!' :: '{' :: rest => ' ' :: ' ' :: ' ' :: blankMultireplaces rest
  | '@' :: '!' :: '!' :: '{' :: rest => ' ' :: ' ' :: ' ' :: ' ' :: blankMultireplaces rest
  | c :: rest => c :: blankMultireplaces rest
  | [] => []

theorem length_blankMultireplaces (text : Text) :
    (blankMultireplaces text).length = text.length := by
  fun_induction blankMultireplaces text <;> simp_all

/-- Every opener has at least a sign and a brace. -/
theorem two_le_length_of_at? {text : Text} {opener : Opener} (h : at? text = some opener) :
    2 ≤ opener.length ∧ opener.length ≤ text.length := by
  unfold at? bangsToBrace? at h
  split at h <;> simp only [Option.map_eq_some_iff, reduceCtorEq] at h
  all_goals
    obtain ⟨length, bangs, rfl⟩ := h
    split at bangs <;> simp_all
    all_goals omega

end Opener

end ChoiceScript
