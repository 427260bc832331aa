/-
# Linewise.Execution.Shell.Redirect -- other ends for channels

A redirection leads a channel to a file, from a file, or to where another channel
leads, and may close it. They are made from left to right. A file for writing is
made if it is missing and emptied unless it is to be kept.
-/
import Linewise.Execution.Numeral
import Linewise.Execution.Shell.Expansion

namespace Linewise.Shell

open Text

set_option autoImplicit false

/-- Why a file cannot be opened. -/
def openReason (missing : String) : FileError → String
  | .notFound => missing
  | .notADirectory => missing
  | e => e.reason

/-- Open a file for writing. -/
def openForWriting (files : FileTree) (keep : Bool) (path : Text) :
    Except Text (FileTree × Channel) :=
  match files.writable? (Latin.toByteList path) with
  | .error e =>
    .error ("cannot create ".toList ++ path ++ ": ".toList ++
      (openReason "Directory nonexistent" e).toList)
  | .ok location =>
    let files := match files.get? location, keep with
      | some _, true => files
      | old, _ => files.put location (.overwrite .empty old)
    .ok (files, .file location)

/-- Open a file for reading; a directory and a sink are empty. -/
def openForReading (state : State) (path : Text) : Except Text (Channel × State) :=
  let number := state.inputs + 1
  let opened := { state with inputs := number }
  match state.files.resolve (Latin.toByteList path) with
  | .ok (location, .file _) => .ok (.inputFile number location, opened)
  | .ok _ => .ok (.inputText number [], opened)
  | .error e =>
    .error ("cannot open ".toList ++ path ++ ": ".toList ++
      (openReason "No such file" e).toList)

/-- The channels that have a path. -/
def channelOfPath? (path : Text) : Option Nat :=
  match String.ofList path with
  | "/dev/stdin" => some 0
  | "/dev/stdout" => some 1
  | "/dev/stderr" => some 2
  | _ => none

/-- Make one redirection. -/
def redirect (context : Context) (state : State) (redirection : Redirection) :
    Except Text (Context × State) :=
  let target := single context state redirection.target
  let others := context.channels.filter (·.1 ≠ redirection.channel)
  let lead := fun (channel : Channel) =>
    { context with channels := (redirection.channel, channel) :: others }
  match redirection.direction, (channelOfPath? target).bind (context.channels.lookup ·) with
  | .duplicate, _ =>
    if target = ['-'] then .ok ({ context with channels := others }, state)
    else match context.channels.lookup (Numeral.ofDigits 10 target) with
      | some channel => .ok (lead channel, state)
      | none => .error (target ++ ": Bad file descriptor".toList)
  | _, some channel => .ok (lead channel, state)
  | .create, none => do
    let (files, channel) ← openForWriting state.files false target
    return (lead channel, { state with files })
  | .append, none => do
    let (files, channel) ← openForWriting state.files true target
    return (lead channel, { state with files })
  | .input, none => do
    let (channel, state) ← openForReading state target
    return (lead channel, state)

/-- Make redirections from left to right. A failure keeps the files that were
opened before it. -/
def redirectAll (context : Context) (state : State) :
    List Redirection → Except (Text × State) (Context × State)
  | [] => .ok (context, state)
  | redirection :: rest =>
    match redirect context state redirection with
    | .ok (context, state) => redirectAll context state rest
    | .error text => .error (text, state)

end Linewise.Shell
