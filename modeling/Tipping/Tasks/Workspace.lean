import Tipping.Host
import Tipping.Tasks.Plan

/-!
Plans carried out in a workspace of files and programs.

A program that is there ends with the code that is next in line, zero if there is none, and does
nothing else.
-/

namespace Tipping.Tasks

/-- The names along a path. -/
def names (path : String) : List String :=
  (path.splitOn "/").filter fun name => name ≠ "" ∧ name ≠ "."

/-- The path ends in the name of a file. -/
def namesFile (path : String) : Bool :=
  match (path.splitOn "/").getLast? with
  | some name => name ≠ "" && name ≠ "." && name ≠ ".."
  | none => false

/-- Files and directories are given by the names on the way to them from the workspace, which is
itself a directory without being listed. `started` are the programs that were started, as command
lines. -/
structure Workspace where
  files : List (List String)
  directories : List (List String)
  missing : List String
  codes : List Nat
  started : List String
  said : List String
  deriving DecidableEq, Repr

namespace Workspace

def isFile (w : Workspace) (place : List String) : Bool := w.files.contains place

def isDirectory (w : Workspace) (place : List String) : Bool := w.directories.contains place

def holds (w : Workspace) (place : List String) : Bool := w.isFile place || w.isDirectory place

def addDirectory (w : Workspace) (place : List String) : Workspace :=
  if w.isDirectory place then w else { w with directories := w.directories ++ [place] }

/-- Goes from a directory along names, making the directories that are not there, and says where
it gets. A file in the way ends it, and so does a step out of the workspace. -/
def goAlong (w : Workspace) (here : List String) : List String → Workspace × Option (List String)
  | [] => (w, some here)
  | name :: rest =>
    if name = ".." then
      if here = [] then (w, none) else w.goAlong here.dropLast rest
    else
      let there := here ++ [name]
      if w.isFile there then (w, none) else (w.addDirectory there).goAlong there rest

/-- Adds a file with the directories on the way to it, unless something is in the way. -/
def addFile (w : Workspace) (path : String) : Workspace :=
  if path.startsWith "/" then w
  else
    match w.goAlong [] (names path).dropLast, (names path).getLast? with
    | (w, some here), some name =>
      let place := here ++ [name]
      if namesFile path && !w.holds place then { w with files := w.files ++ [place] } else w
    | (w, _), _ => w

/-- A workspace in which nothing has been done. -/
def new (files missing : List String) (codes : List Nat) : Workspace :=
  files.foldl addFile ⟨[], [], missing, codes, [], []⟩

def removeDirectory (w : Workspace) (place : List String) : Workspace :=
  { w with
    files := w.files.filter fun f => !place.isPrefixOf f
    directories := w.directories.filter fun d => !place.isPrefixOf d }

def start (w : Workspace) (program : String) (arguments : List String) :
    Except Failure Unit × Workspace :=
  let line := commandLine program arguments
  if w.missing.contains program then
    (.error ⟨"Failed to run: " ++ line, ["No such file or directory (os error 2)"]⟩, w)
  else
    let code := w.codes[w.started.length]?.getD 0
    let w := { w with started := w.started ++ [line] }
    if code = 0 then (.ok (), w) else (.error ⟨"Command failed: " ++ line, []⟩, w)

def step (w : Workspace) : Step → Except Failure Unit × Workspace
  | .say text => (.ok (), { w with said := w.said ++ [text] })
  | .start program arguments => w.start program arguments
  | .require path =>
    (if w.holds (names path) then .ok ()
      else .error ⟨"Expected build output missing: " ++ path, []⟩, w)
  | .removeDirectory path =>
    if w.isDirectory (names path) then (.ok (), w.removeDirectory (names path))
    else if w.isFile (names path) then
      (.error ⟨"Failed to remove " ++ path, ["Not a directory (os error 20)"]⟩, w)
    else (.ok (), w)

/-- Does the steps in order, up to the first that fails. -/
def carryOut (w : Workspace) : List Step → Except Failure Unit × Workspace
  | [] => (.ok (), w)
  | s :: ss =>
    match w.step s with
    | (.ok (), w) => w.carryOut ss
    | (.error f, w) => (.error f, w)

end Workspace

/-- How a run ends: its exit code and what it says of a failure. Without a proper command line
there is a code but no report. -/
structure Ending where
  code : Nat
  report : Option (List String)
  deriving DecidableEq, Repr

/-- The lines that report a failure and its causes. -/
def report (f : Failure) : List String :=
  ("Error: " ++ f.message) ::
    match f.causes with
    | [] => []
    | [cause] => ["", "Caused by:", "    " ++ cause]
    | causes => ["", "Caused by:"] ++
        (causes.zipIdx.map fun (cause, i) => "    " ++ toString i ++ ": " ++ cause)

def perform (arguments : List String) (w : Workspace) : Ending × Workspace :=
  match Command.ofArguments? arguments with
  | none => (⟨2, none⟩, w)
  | some c =>
    match w.carryOut c.plan with
    | (.ok (), w) => (⟨0, some []⟩, w)
    | (.error f, w) => (⟨1, some (report f)⟩, w)

end Tipping.Tasks
