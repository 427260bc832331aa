/-
# Linewise.Execution.Shell.Start -- the shell as a command

The shell is started on options or on the path of a script. Without a script it
reads its input, which is empty.
-/
import Linewise.Execution.Shell.Run

namespace Linewise.Shell

open Text

set_option autoImplicit false

/-- The letters that can stand in an option. -/
def optionLetters : Text :=
  "abcefilmnopsuvxCEIV".toList

/-- The options that are listed on request, with their letters. -/
def optionNames : List (Option Char × String) := [
  (some 'e', "errexit"), (some 'f', "noglob"), (some 'I', "ignoreeof"), (some 'i', "interactive"),
  (some 'm', "monitor"), (some 'n', "noexec"), (some 's', "stdin"), (some 'x', "xtrace"),
  (some 'v', "verbose"), (some 'V', "vi"), (some 'E', "emacs"), (some 'C', "noclobber"),
  (some 'a', "allexport"), (some 'b', "notify"), (some 'u', "nounset"), (some 'p', "privileged"),
  (none, "nolog"), (none, "debug")]

/-- The list of options before any input is read. One that was not turned off
counts as on. -/
def listOptions (turnOn : Bool) (off : Text) : Text :=
  if turnOn then
    "Current option settings\n".toList ++ optionNames.flatMap fun (letter, name) =>
      name.toList ++ List.replicate (16 - name.length) ' ' ++
        (if letter.any off.contains then "off\n" else "on\n").toList
  else
    optionNames.flatMap fun (letter, name) =>
      (if letter.any off.contains then "set +o " else "set -o ").toList ++ name.toList ++ ['\n']

/-- The option that is turned off with an option that is turned on. -/
def rival : Char → Text
  | 'V' => ['E']
  | 'E' => ['V']
  | _ => []

/-- What the options write before the input is read, or the one that is wrong. -/
def readOptions (turnOn : Bool) (off : Text) : Text → Except Text Text
  | [] => .ok []
  | letter :: rest =>
    if !optionLetters.contains letter then .error ("Illegal option -".toList ++ [letter])
    else
      let off := if turnOn then rival letter ++ off.filter (· ≠ letter) else letter :: off
      match readOptions turnOn off rest with
      | .error problem => .error problem
      | .ok text =>
        if letter = 'c' then .error "-c requires an argument".toList
        else .ok (if letter = 'o' then listOptions turnOn off ++ text else text)

/-- Start the shell under a name on one argument: options, or the path of a
script. Without a script it reads its input, which is empty. -/
def start (name argument : Text) (files : FileTree) : State :=
  let refuse := fun (problem : Text) =>
    ({ files, status := 2, stderr := name ++ ": 0: ".toList ++ problem ++ ['\n'] } : State)
  let options := fun (turnOn : Bool) (letters : Text) =>
    match readOptions turnOn [] letters with
    | .ok stdout => ({ files, stdout } : State)
    | .error problem => refuse problem
  match argument with
  | ['-', '-'] => { files }
  | '-' :: letters => options true letters
  | '+' :: letters => options false letters
  | _ =>
    match files.resolve (Latin.toByteList argument) with
    | .ok (location, .file content) => runScript argument location content.size files
    | .ok _ => { files }
    | .error e =>
      refuse ("cannot open ".toList ++ argument ++ ": ".toList ++
        (openReason "No such file" e).toList)

end Linewise.Shell
