import ImpStack.Rewrite.Fold
import ImpStack.Rewrite.Prune
import ImpStack.Log

/-! # The optimizer

Runs a list of passes over a program, in order, round after round until a round changes
nothing, for at most ten rounds. Each pass that changes the program is logged.
-/

namespace ImpStack

/-- An optimization pass. -/
inductive Pass where
  | fold
  | prune (live : Liveness)
  deriving Repr, Inhabited

namespace Pass

/-- The name of a pass. -/
def name : Pass → String
  | .fold => "constant-folding"
  | .prune _ => "dead-decl-elimination"

/-- Runs a pass once; the flag says whether it changed the program. -/
def run : Pass → Program → Program × Bool
  | .fold, p => foldConstants p
  | .prune live, p => pruneDead live p

end Pass

/-- The most rounds the optimizer runs. -/
def maxRounds : Nat := 10

/-- One round: every pass once, in order. -/
def optimizeRound (passes : List Pass) (p : Program) : Program × Bool × List LogLine :=
  passes.foldl (fun (p, changed, log) pass =>
    let (p', c) := pass.run p
    if c then (p', true, log ++ [⟨.debug, .optimizer, "pass " ++ pass.name ++ " changed the program"⟩])
    else (p', changed, log)) (p, false, [])

/-- Rounds until one changes nothing, at most `rounds` of them. -/
def optimizeFor (passes : List Pass) : Nat → Program → Program × List LogLine
  | 0, p => (p, [])
  | n + 1, p =>
    let (p', changed, log) := optimizeRound passes p
    if changed then
      let (p'', rest) := optimizeFor passes n p'
      (p'', log ++ rest)
    else (p', log)

/-- Optimizes a program with the given passes. -/
def optimize (passes : List Pass) (p : Program) : Program × List LogLine :=
  optimizeFor passes maxRounds p

end ImpStack
