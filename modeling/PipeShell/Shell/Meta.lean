import PipeShell.Args.Basic
import PipeShell.Number.Rounding
import PipeShell.Shell.Basic

/-!
# Commands about the shell

Help, the screen, the use of storage, and the end of all files.
-/

namespace PipeShell.Command

/-- The help on one verb. -/
def topicLines (v : Verb) : List Text :=
  let aliases := Verb.aliasesOf v
  let title : Text := v.word ++ " - " ++ v.description
  let usageLine : Text := "Usage: " ++ v.usage
  let aliasLine : Text := "Aliases: " ++ Text.join ", " aliases
  let pipeLine : Text := "Reads piped input when used after |"
  title :: usageLine
    :: ((if aliases = [] then [] else [aliasLine]) ++ (if v.isPipeAware then [pipeLine] else []))

/-- A verb in the list of all. -/
def overviewLine (v : Verb) : Text :=
  let aliases := Verb.aliasesOf v
  let others : Text := if aliases = [] then [] else " (aliases: " ++ Text.join ", " aliases ++ ")"
  "  " ++ Text.padRight 24 v.usage ++ " " ++ v.description ++ others

/-- The list of all verbs that a shell knows. -/
def overviewLines (known : List Verb) : List Text :=
  let hint : Text := "Chain commands with |, e.g. cat notes.txt | grep todo | sort | uniq"
  "Available commands:" :: [] :: ((Verb.sorted known).map overviewLine ++ [[], hint])

/-- Shows the help on a verb, or the list of all. -/
def help (args : Args) : Command := do
  let known := (← shell).commands
  match args.text? .topic with
  | some topic =>
      match (Verb.resolve? topic).filter known.contains with
      | none => return .fail ("No help for unknown command: " ++ topic)
      | some v => return .ok (Text.join ['\n'] (topicLines v))
  | none => return .ok (Text.join ['\n'] (overviewLines known))

/-- Clears the screen, if the shell has one. -/
def clearScreen : Command := do
  if (← shell).clears then
    World.countClear
  return .ok []

/-- A number of bytes in units of 2^20, with two places. -/
def megabytes (bytes : Nat) : Except Failure Text :=
  let r := Number.Rounded.nearest bytes (1 <<< 20)
  if r.isInfinite then .error .quotientTooLarge else .ok (Number.fixed 2 r)

/-- A share in percent, with one place; the share is rounded before it is scaled. -/
def percent (used quota : Nat) : Text :=
  let (n, d) := (Number.Rounded.nearest used quota).fraction
  Number.fixed 1 (Number.Rounded.nearest (n * 100) d)

/-- Shows the bytes used and allowed. -/
def storageInfo : Command := do
  match ← Store.storageInfo with
  | none => return .fail "Storage info not available"
  | some info =>
      if info.quota ≤ 0 then return .fail "Storage info not available"
      else
        let used ← megabytes info.used.toNat
        let quota ← megabytes info.quota.toNat
        return .ok ("Storage: " ++ used ++ " MB / " ++ quota ++ " MB ("
          ++ percent info.used.toNat info.quota.toNat ++ "%)")

/-- Removes everything and goes to the root. -/
def resetAll : Command := do
  Store.clear
  enter []
  return .ok "Store cleared. All files removed."

end PipeShell.Command
