import ChoiceScript.Report.Project

/-! # Command line

`check FOLDER` checks the files of a folder and `tokens EXPRESSION` lists the tokens of an
expression. With `--errors-only` diagnostics that are no errors are left out, with `--combined`
function names and their arguments are listed as one token.
-/

namespace ChoiceScript.Tool

open ChoiceScript.Report

def operands (arguments : List String) : List String :=
  arguments.filter fun argument => argument.toList.take 2 ≠ ['-', '-']

def usage : String := "usage: check [--errors-only] FOLDER | tokens [--combined] EXPRESSION"

/-- The texts of the text files in a folder, if it is one. -/
def readFolder (folder : String) : IO (Option (OrderedMap Text)) := do
  let path := (← IO.currentDir) / folder
  if !(← path.isDir) then return none
  let mut files : OrderedMap Text := ∅
  for file in ← path.walkDir do
    let name := String.ofList (file.toString.toList.drop (path.toString.length + 1))
    if Folder.isText name && !(← file.isDir) then
      files := files.insert name (← IO.FS.readFile file).toList
  return some files

/-- Write a listing and tell whether all is well. -/
def write (listing : Listing) : IO UInt32 := do
  listing.lines.forM fun line => IO.println line
  return if listing.passed then 0 else 1

def refuse (message : String) : IO UInt32 := do
  IO.eprintln message
  return 1

def check (folder : String) (errorsOnly : Bool) : IO UInt32 := do
  match project folder (← readFolder folder) errorsOnly with
  | .error fault => refuse fault.message
  | .ok (.error problem) => refuse problem.message
  | .ok (.ok listing) => write listing

def run (arguments : List String) : IO UInt32 := do
  match operands arguments with
  | ["check", folder] => check folder (arguments.contains "--errors-only")
  | ["tokens", expression] =>
    write (tokens expression.toList (arguments.contains "--combined"))
  | _ => refuse usage

end ChoiceScript.Tool

def main (arguments : List String) : IO UInt32 := ChoiceScript.Tool.run arguments
