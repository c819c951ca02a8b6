import Switchyard.Api.Respond
import Switchyard.Settings.Codec
import Switchyard.Settings.Load

/-! The command line: a rehearsal of the gateway. Its settings come from the environment.
Each line of standard input is a request, as method, target and body with blanks between
them, or `wait` and the milliseconds that pass; the clock stands still otherwise. Each
request is answered with its status and body, and notices go to standard error. -/
namespace Switchyard.Rehearsal

/-- The variables that can hold settings. -/
def variableNames : List String :=
  match ({} : Settings).toJson with
  | .obj sections => sections.flatMap fun s =>
    match s.2 with
    | .obj fields => fields.map fun f => ("mesh_gateway__" ++ s.1 ++ "__" ++ f.1).map Char.toUpper
    | _ => []
  | _ => []

def sentence (f : SettingsFault) : String :=
  let detail := match f with
    | .mistyped key => "no value of the right type for " ++ key
    | f => f.message?.getD "the file is not of its format"
  (Fault.configuration detail).message

inductive Line where
  | wait (millis : Nat)
  | request (r : Http.Request)

/-- The first word of a line and the rest of it. -/
def cut (cs : List Char) : List Char × List Char :=
  (cs.takeWhile (· ≠ ' '), (cs.dropWhile (· ≠ ' ')).drop 1)

def Line.ofString (line : String) : Line :=
  let (first, rest) := cut (Text.trim line).toList
  match String.ofList first, Numeric.readNat rest with
  | "wait", some millis => .wait millis
  | method, _ =>
    let (target, body) := cut rest
    let (path, query) := Http.splitTarget (String.ofList target)
    .request
      { method, path, query
        headers := if body.isEmpty then [] else [("content-type", Text.bytes "application/json")]
        body := ⟨[Text.bytes (String.ofList body)], none⟩ }

/-- The answer to one line, if it is a request. -/
def answer (g : Gateway) : Line → Gateway × Option String
  | .wait millis => (g.sleep millis, none)
  | .request r =>
    let (g, served) := Api.respond g r none
    let g := match served.exchange with
      | some n => Api.finishExchange g n
      | none => g
    (g, served.response.map fun x =>
      Numeric.natText x.status ++ " " ++ String.ofList (Text.lenient x.body))

def noticeLine (n : Notice) : String :=
  n.level.name ++ ": " ++ n.message ++ " " ++ (Json.obj n.fields).write

partial def rehearse (input : IO.FS.Stream) (g : Gateway) : IO Unit := do
  let (g, notices) := g.takeLog
  for n in notices do IO.eprintln (noticeLine n)
  let line ← input.getLine
  if line.isEmpty then return ()
  else
    let (g, text) := answer g (.ofString line)
    if let some text := text then IO.println text
    rehearse input g

/-- A gateway with the settings of the environment and its tasks under way. -/
def run : IO Unit := do
  let env ← variableNames.filterMapM fun name => return (← IO.getEnv name).map (name, ·)
  match Settings.load {} env with
  | .error f => IO.eprintln (sentence f)
  | .ok settings => rehearse (← IO.getStdin) (Gateway.new settings 0).startBackground

end Switchyard.Rehearsal

def main : IO Unit := Switchyard.Rehearsal.run
