import ImportContext.FileSystem.Basic
import ImportContext.Shell.Format
import ImportContext.Shell.Script

/-!
# Running programs

A program is an executable file that starts with a line `#!/bin/sh`. Its run is a function of the
call: the files and the current directory, its arguments and its environment. It reads files but
changes none, and its standard input is empty.

Main definitions: `Shell.Call`, `Shell.runScript`, `Shell.execute`.
-/

namespace ImportContext.Shell

/-- How a program ended. -/
inductive Ending where
  | exited (code : Nat)
  | killed (signal : Nat)
deriving DecidableEq, Repr

/-- The names of signals that end a program. -/
def signalNames : List (Nat × String) :=
  [(1, "HUP"), (2, "INT"), (3, "QUIT"), (4, "ILL"), (5, "TRAP"), (6, "ABRT"), (7, "BUS"),
    (8, "FPE"), (9, "KILL"), (10, "USR1"), (11, "SEGV"), (12, "USR2"), (13, "PIPE"),
    (14, "ALRM"), (15, "TERM")]

/-- The ending in words. -/
def Ending.text : Ending → String
  | exited code => "exit status: " ++ toString code
  | killed signal =>
    match signalNames.lookup signal with
    | some name => "signal: " ++ toString signal ++ " (SIG" ++ name ++ ")"
    | none => "signal: " ++ toString signal

/-- A call of a program, with all that the program can see. -/
structure Call where
  files : FileSystem
  cwd : Path
  /-- The path that names the program. -/
  program : String
  args : List String
  environment : List (String × String)

/-- A path seen from the current directory of a call. -/
def Call.path (call : Call) (p : String) : Path :=
  Path.absolute call.cwd ⟨p⟩

/-- What a program leaves behind. -/
structure Outcome where
  output : ByteArray
  errors : ByteArray
  ending : Ending

/-- A run in progress. -/
structure State where
  program : String
  args : List String
  bindings : List (String × String)
  output : ByteArray := .empty
  errors : ByteArray := .empty
  /-- The status of the last command. -/
  status : Nat := 0
  ended : Option Ending := none

namespace State

/-- The value of a parameter; one that is not set is empty. -/
def value (st : State) (name : String) : String :=
  match name with
  | "?" => toString st.status
  | "#" => toString st.args.length
  | "$" => "1"
  | "@" => String.intercalate " " st.args
  | "*" => String.intercalate " " st.args
  | _ =>
    match name.toNat? with
    | some n => (st.program :: st.args).getD n ""
    | none => (st.bindings.lookup name).getD ""

/-- The value of a parameter, or its fallback when that is empty. -/
def valueOr (st : State) (name fallback : String) : String :=
  if st.value name == "" then fallback else st.value name

/-- Writes to a stream. -/
def emit (st : State) (sink : Sink) (bytes : ByteArray) : State :=
  match sink with
  | .output => { st with output := st.output ++ bytes }
  | .errors => { st with errors := st.errors ++ bytes }
  | .nowhere => st

def withStatus (st : State) (status : Nat) : State :=
  { st with status }

/-- The state with a variable set. -/
def assign (st : State) (name value : String) : State :=
  { st with bindings := (name, value) :: st.bindings }

end State

/-! ## Expansion -/

/-- The fields that a word grows into: `open?` is the field being written. -/
def expandPieces (st : State) : List String → Option String → List Piece → List String
  | done, open?, [] => done ++ open?.toList
  | done, open?, .literal c :: rest => expandPieces st done (some (open?.getD "" ++ c.toString)) rest
  | done, open?, .quotation :: rest => expandPieces st done (some (open?.getD "")) rest
  | done, open?, .parameter name fallback quoted :: rest =>
    let fields :=
      if !quoted then Text.words (st.valueOr name fallback)
      else if name == "@" then st.args
      else [st.valueOr name fallback]
    match fields with
    | [] => expandPieces st done open? rest
    | [field] => expandPieces st done (some (open?.getD "" ++ field)) rest
    | first :: more =>
      expandPieces st (done ++ [open?.getD "" ++ first] ++ more.dropLast) more.getLast? rest

/-- The fields of a command. -/
def expand (st : State) (words : List (List Piece)) : List String :=
  words.flatMap (expandPieces st [] none)

/-- The text of pieces that are not split into fields. -/
def expandText (st : State) (pieces : List Piece) : String :=
  String.join (pieces.map fun
    | .literal c => c.toString
    | .parameter name fallback _ => st.valueOr name fallback
    | .quotation => "")

/-! ## Commands -/

/-- What the reader of a file says when it fails. -/
def readerComplaint : OsError → String
  | .isDirectory => "Is a directory"
  | .notDirectory => "Not a directory"
  | .permissionDenied => "Permission denied"
  | _ => "No such file or directory"

/-- Writes out files one after the other. -/
def concatenate (call : Call) (c : Command) (st : State) (file : String) : State :=
  match call.files.readBytes (call.path file) with
  | .ok bytes => st.emit c.output bytes
  | .error e =>
    (st.emit c.errors ("cat: " ++ file ++ ": " ++ readerComplaint e ++ "\n").toUTF8).withStatus 1

/-- A complaint about a command, which names the program and the line. -/
def complain (st : State) (c : Command) (text : String) : State :=
  st.emit c.errors (st.program ++ ": " ++ toString c.line ++ ": " ++ text ++ "\n").toUTF8

/-- The signal of a name or number. -/
def signalOf (name : String) : Nat :=
  match name.toNat?, signalNames.find? (fun s => s.2 == name || "SIG" ++ s.2 == name) with
  | some n, _ => n
  | none, some s => s.1
  | none, none => 15

/-- The signal that `kill` sends. -/
def killSignal : List String → Nat
  | "-s" :: name :: _ => signalOf name
  | option :: _ =>
    match option.toList with
    | '-' :: name => signalOf (String.ofList name)
    | _ => 15
  | [] => 15

/-- Ends the run with a status. -/
def exitWith (st : State) (c : Command) (name : String) (args : List String) : State :=
  match args.head? with
  | none => { st with ended := some (.exited st.status) }
  | some arg =>
    if arg != "" && arg.toList.all Char.isDigit then
      { st with ended := some (.exited (numberOf arg % 256)) }
    else
      { complain st c (name ++ ": Illegal number: " ++ arg) with ended := some (.exited 2) }

/-- Whether a condition of `test` holds. -/
def holds (call : Call) : List String → Bool
  | [] => false
  | [s] => s != ""
  | "!" :: rest => !holds call rest
  | ["-n", s] => s != ""
  | ["-z", s] => s == ""
  | ["-e", p] => call.files.exists? (call.path p)
  | ["-f", p] => call.files.isFile (call.path p)
  | ["-d", p] => call.files.isDirectory (call.path p)
  | [a, "=", b] => a == b
  | [a, "!=", b] => a != b
  | [a, "-eq", b] => numberOf a == numberOf b
  | [a, "-ne", b] => numberOf a != numberOf b
  | _ => false

/-- Writes the arguments of `echo`; `\c` ends the text and its line end. -/
def echoBytes (args : List String) : Bytes :=
  let (last, args) := if args.head? == some "-n" then ([], args.tail) else ([byte '\n'], args)
  let (text, stopped) := unescape true true (bytesOf (String.intercalate " " args))
  if stopped then text else text ++ last

/-- Runs a command by its name and arguments. -/
def runNamed (call : Call) (st : State) (c : Command) (name : String) (args : List String) :
    State :=
  let ok := st.withStatus 0
  match name with
  | ":" => ok
  | "true" => ok
  | "false" => st.withStatus 1
  | "test" => st.withStatus (if holds call args then 0 else 1)
  | "[" => st.withStatus (if holds call args.dropLast then 0 else 1)
  | "shift" => { ok with args := st.args.tail }
  | "sleep" => ok
  | "pwd" => ok.emit c.output (call.cwd.text ++ "\n").toUTF8
  | "read" => args.foldl (fun st n => st.assign n "") (st.withStatus 1)
  | "exit" => exitWith st c name args
  | "return" => exitWith st c name args
  | "kill" => { st with ended := some (.killed (killSignal args)) }
  | "cat" =>
    match args, c.input with
    | [], some pieces => ok.emit c.output (expandText st pieces).toUTF8
    | args, _ => args.foldl (concatenate call c) ok
  | "echo" => ok.emit c.output ⟨(echoBytes args).toArray⟩
  | "printf" =>
    match args with
    | [] => (complain st c "printf: usage: printf format [arg ...]").withStatus 2
    | format :: args =>
      ok.emit c.output ⟨(fillAll (args.length + 1) (bytesOf format) args).toArray⟩
  | _ => (complain st c (name ++ ": not found")).withStatus 127

/-- Turns the status round if the command asks for it. -/
def negate (c : Command) (st : State) : State :=
  if c.negated then st.withStatus (if st.status = 0 then 1 else 0) else st

/-- Runs one command. Assignments in front of it stay. -/
def runCommand (call : Call) (st : State) (c : Command) : State :=
  let st := c.assignments.foldl (fun st (name, value) => st.assign name (expandText st value)) st
  match expand st c.words with
  | [] => negate c (st.withStatus 0)
  | "exec" :: name :: args =>
    let st := runNamed call st c name args
    { st with ended := some (st.ended.getD (.exited st.status)) }
  | name :: args => negate c (runNamed call st c name args)

/-- One command of a script, unless the run is over or the command is to be skipped. -/
def step (call : Call) (st : State) (c : Command) : State :=
  if st.ended.isSome then st
  else
    match c.connector with
    | .always => runCommand call st c
    | .onSuccess => if st.status = 0 then runCommand call st c else st
    | .onFailure => if st.status = 0 then st else runCommand call st c

/-- Runs a script. -/
def runScript (call : Call) (text : String) : Outcome :=
  let start : State := {
    program := call.program
    args := call.args
    bindings := call.environment ++ [("PWD", call.cwd.text)] }
  let st := (parseScript text).foldl (step call) start
  ⟨st.output, st.errors, st.ended.getD (.exited st.status)⟩

/-- The interpreter that the first line of a program names. -/
def interpreterLine? (text : String) : Option String :=
  match text.toList with
  | '#' :: '!' :: rest => some (Text.trim (String.ofList (rest.takeWhile (· != '\n'))))
  | _ => none

/-- Runs the program of a call. -/
def execute (call : Call) : Except OsError Outcome := do
  if !call.program.toList.contains '/' then .error .notFound
  else
    match ← call.files.lookup (call.path call.program) with
    | .file _ bytes true =>
      let text := (String.fromUTF8? bytes).getD ""
      match interpreterLine? text with
      | some "/bin/sh" => .ok (runScript call text)
      | some _ => .error .notFound
      | none => .error .notExecutable
    | _ => .error .permissionDenied

end ImportContext.Shell
