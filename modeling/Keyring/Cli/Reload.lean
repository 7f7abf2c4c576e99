/-
The service and its configuration file.

In `Keyring/Cli/Serve.lean` a build ends with whatever the file said when it was read.  Here
the file is part of the state.  Anybody may edit it at any time; a build reads it in one
step, at some moment between its start and its end, and ends with what it has read.

The contents that the file has had are numbered.  `served` is the number of those that the
agent is built from, and `announced` is whether a reload signal has been handled since the
file was last edited or a build last failed to run.  No step reads either of them.
-/
import Keyring.Cli.Config
import Mathlib.Logic.Function.Basic

namespace Keyring.Cli

open Keyring.Service Serve

structure FileWorld (keys : SshKeys) where
  world : World (Provider keys)
  past : List (Except String String)
  file : Except String String
  /-- The number of the contents that a build has read. -/
  reads : Nat → Option Nat
  served : Nat
  announced : Bool

inductive FileAction (keys : SshKeys)
  | edit (file : Except String String)
  | read (build : Nat)
  /-- A build ends with what it has made of the contents it has read. -/
  | ends (build : Nat)
  | fails (build : Nat) (error : JoinError)
  /-- Everything else. -/
  | serve (action : Action (Provider keys))

namespace FileWorld

variable {keys : SshKeys}

/-- The contents with this number. -/
def version (w : FileWorld keys) (n : Nat) : Option (Except String String) :=
  (w.past ++ [w.file])[n]?

def reloads (w : FileWorld keys) : JoinSet Unit (Loaded (Provider keys)) :=
  w.world.service.reloads

instance (w : FileWorld keys) (build : Nat) : Decidable (w.reloads.Running build) :=
  inferInstanceAs (Decidable (∃ task ∈ w.reloads.tasks, task.id = build ∧ task.result = none))

/-- What the agent is built from after a turn of the loop. -/
def servedAfter (w : FileWorld keys) : Action (Provider keys) → Nat
  | .joinReload build =>
      match w.reloads.joinNext build with
      | some (.ok (.ok _), _) => (w.reads build).getD w.served
      | _ => w.served
  | _ => w.served

def announcedAfter (w : FileWorld keys) : Action (Provider keys) → Bool
  | .signal .reload => true
  | _ => w.announced

def step (setup : Setup keys) (w : FileWorld keys) : FileAction keys → Option (FileWorld keys)
  | .edit file => some { w with past := w.past ++ [w.file], file, announced := false }
  | .read build =>
      if w.reloads.Running build ∧ w.reads build = none then
        some { w with reads := Function.update w.reads build (some w.past.length) }
      else none
  | .ends build =>
      if w.reloads.Running build then
        (w.reads build).bind fun n => (w.version n).bind fun file =>
          (w.world.step (.buildEnds build (.ok (setup.configured file)))).map fun world =>
            { w with world }
      else none
  | .fails build error =>
      if w.reloads.Running build then
        (w.world.step (.buildEnds build (.error error))).map fun world =>
          { w with world, announced := false }
      else none
  | .serve (.buildEnds _ _) => none
  | .serve action =>
      (w.world.step action).map fun world =>
        { w with world, served := w.servedAfter action, announced := w.announcedAfter action }

/-- `serve` with the agent that the file was loaded as. -/
def start (file : Except String String) (agent : ServiceAgent (Provider keys)) :
    FileWorld keys where
  world := .start agent
  past := []
  file := file
  reads _ := none
  served := 0
  announced := true

end FileWorld

/-- All runs of `main` after its first load. -/
def fileMachine {keys : SshKeys} (setup : Setup keys) :
    Machine (FileWorld keys) (FileAction keys) :=
  Machine.ofFun (fun w => ∃ file agent, setup.load file = .ok agent ∧ w = .start file agent)
    (FileWorld.step setup)

end Keyring.Cli
