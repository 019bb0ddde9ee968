import Breadboard.Header.Parse
import Breadboard.Library.Json
import Breadboard.Json.Decode
import Breadboard.Library.Summary
import Breadboard.Sketch.Export
import Breadboard.Compiler.Compile
/-!
# Command line

`parse HEADER [--json]` reads a header into a library descriptor and prints a summary of
it, or its JSON text; warnings go to standard error. `compile SKETCH [-o FILE]` reads an
editor export and prints the sketch compiled from it, or writes it to a file. `-v` flags
are accepted anywhere and change nothing. A failure prints `Error: …` to standard error
and exits with status 1; a command line that fits neither command exits with status 2.
-/

namespace Breadboard.Cli

/-- What the command line asks for. -/
inductive Command where
  | parse (path : String) (json : Bool)
  | compile (path : String) (output : Option String)

/-- Whether an argument is a verbosity flag. -/
def isVerbosity (a : String) : Bool :=
  a == "--verbose" || (a.length ≥ 2 && a.startsWith "-" && (a.drop 1).all (· == 'v'))

/-- Reads the arguments after `parse`. -/
def parseArgs : List String → Option String → Bool → Except String Command
  | [], some p, json => .ok (.parse p json)
  | [], none, _ => .error "missing the header path"
  | "--json" :: rest, p, _ => parseArgs rest p true
  | a :: rest, none, json =>
    if a.startsWith "-" then .error ("unexpected argument '" ++ a ++ "'")
    else parseArgs rest (some a) json
  | a :: _, some _, _ => .error ("unexpected argument '" ++ a ++ "'")

/-- Reads the arguments after `compile`. -/
def compileArgs : List String → Option String → Option String → Except String Command
  | [], some p, out => .ok (.compile p out)
  | [], none, _ => .error "missing the sketch path"
  | "-o" :: o :: rest, p, _ => compileArgs rest p (some o)
  | "--output" :: o :: rest, p, _ => compileArgs rest p (some o)
  | a :: rest, none, out =>
    if a.startsWith "-" then .error ("unexpected argument '" ++ a ++ "'")
    else compileArgs rest (some a) out
  | a :: _, some _, _ => .error ("unexpected argument '" ++ a ++ "'")

/-- Reads the command line. -/
def Command.ofArgs (args : List String) : Except String Command :=
  match args.filter (!isVerbosity ·) with
  | "parse" :: rest => parseArgs rest none false
  | "compile" :: rest => compileArgs rest none none
  | a :: _ => .error ("unknown command '" ++ a ++ "'")
  | [] => .error "a command is required: parse or compile"

/-- The last component of a path, or the whole path when it has none. -/
def fileName (path : String) : String :=
  match ((path.splitOn "/").filter (fun s => !s.isEmpty && s != ".")).getLast? with
  | some n => if n == ".." then path else n
  | none => path

/-- Prints an error and stops with status 1. -/
def fail (message : String) : IO UInt32 := do
  IO.eprintln ("\nError: " ++ message)
  pure 1

/-- Reads a header and prints its descriptor. -/
def runParse (path : String) (json : Bool) : IO UInt32 := do
  match (← (IO.FS.readFile path).toBaseIO) with
  | .error e => fail ("Failed to read header '" ++ path ++ "': " ++ toString e)
  | .ok content =>
    match Header.parse content (fileName path) with
    | .error e => fail e.message
    | .ok r =>
      for w in r.warnings do
        IO.eprintln ("warning: " ++ w.message)
      if json then IO.println (r.library.render Json.serdeJson)
      else
        for line in r.library.summary do
          IO.println line
      pure 0

/-- Compiles an editor export and prints or writes the sketch. -/
def runCompile (path : String) (output : Option String) : IO UInt32 := do
  match (← (IO.FS.readFile path).toBaseIO) with
  | .error e => fail ("Failed to read sketch '" ++ path ++ "': " ++ toString e)
  | .ok text =>
    match Export.SketchEntry.ofText Json.serdeJson text with
    | .error e => fail ("Failed to parse sketch JSON: " ++ Json.serdeJson.message e)
    | .ok entry =>
      match entry.toGraph Json.serdeJson with
      | .error e => fail ("Failed to convert sketch: " ++ e.message)
      | .ok g =>
        let source := (Compiler.compile g).source
        match output with
        | none =>
          IO.println source
          pure 0
        | some out =>
          match (← (IO.FS.writeFile out (source ++ "\n")).toBaseIO) with
          | .error e => fail ("Failed to write '" ++ out ++ "': " ++ toString e)
          | .ok () =>
            IO.eprintln ("Wrote " ++ out)
            pure 0

end Breadboard.Cli

open Breadboard.Cli in
/-- Runs the command line. -/
def main (args : List String) : IO UInt32 := do
  match Command.ofArgs args with
  | .error e =>
    IO.eprintln ("error: " ++ e)
    pure 2
  | .ok (.parse path json) => runParse path json
  | .ok (.compile path output) => runCompile path output
