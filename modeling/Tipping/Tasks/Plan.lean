/-!
The tasks of the workspace, each a plan of steps.

A plan says something, starts a program, asks that a file be there, or removes a directory. Its
steps are done in order until one fails.
-/

namespace Tipping.Tasks

inductive Command where
  | build (release : Bool)
  | test
  | clippy
  | clean
  deriving DecidableEq, Repr

namespace Command

/-- One command with its options; a `--` may end the line. -/
def ofArguments? (arguments : List String) : Option Command :=
  let line := if arguments.getLast? = some "--" then arguments.dropLast else arguments
  match line with
  | ["build"] => some (build false)
  | ["build", option] =>
    if option = "--release" ∨ option = "-r" then some (build true) else none
  | ["test"] => some test
  | ["clippy"] => some clippy
  | ["clean"] => some clean
  | _ => none

end Command

inductive Step where
  | say (text : String)
  | start (program : String) (arguments : List String)
  | require (path : String)
  | removeDirectory (path : String)
  deriving DecidableEq, Repr

/-- A program and its arguments on one line. -/
def commandLine (program : String) (arguments : List String) : String :=
  " ".intercalate (program :: arguments)

def package : String := "rewards-extension"
def wasmTarget : String := "wasm32-unknown-unknown"
def bundles : String := "extension/pkg"

def profile (release : Bool) : String := if release then "release" else "debug"

def wasmFile (release : Bool) : String :=
  "target/" ++ wasmTarget ++ "/" ++ profile release ++ "/background.wasm"

def Command.plan : Command → List Step
  | build release =>
    [.say ("🔨 Building payments page bundle (" ++ profile release ++ ")..."),
      .start "wasm-pack" (["build", "extension", "--target", "web", "--out-dir", "pkg/page"] ++
        if release then [] else ["--dev"]),
      .say ("🔨 Building background bundle (" ++ profile release ++ ")..."),
      .start "cargo" (["build", "-p", package, "--bin", "background", "--target", wasmTarget] ++
        if release then ["--release"] else []),
      .require (wasmFile release),
      .start "wasm-bindgen" ["--target", "no-modules", "--out-dir", bundles, wasmFile release],
      .say ("✅ Bundles written to " ++ bundles)]
  | test =>
    [.say "🧪 Running all tests...",
      .start "cargo" ["test", "--workspace"]]
  | clippy =>
    [.say "🔍 Running clippy on workspace (warnings as errors)...",
      .start "cargo" ["clippy", "--workspace", "--all-targets", "--", "-D", "warnings"],
      .say ("🔍 Running clippy for " ++ wasmTarget ++ "..."),
      .start "cargo" ["clippy", "-p", package, "--target", wasmTarget, "--", "-D", "warnings"]]
  | clean =>
    [.say "🧹 Removing bundles...",
      .removeDirectory bundles,
      .say "🗑️  Running cargo clean...",
      .start "cargo" ["clean"]]

end Tipping.Tasks
