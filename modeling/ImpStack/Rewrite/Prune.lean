import ImpStack.Lang.Syntax

/-! # Removing dead declarations

A variable declaration is dead when its name is never used anywhere in the program (reads,
prints and assignments all count, in any scope, by name alone), its type is not an array or a
record (written out, or a type name known to stand for one), and its initializer cannot call
a routine. Dead declarations are dropped from every block, nested blocks included; a pass
reports whether it dropped anything.
-/

namespace ImpStack

/-- What decides which declarations are dead. -/
structure Liveness where
  /-- Every variable name the program uses. -/
  used : List String
  /-- The type names that stand for an array or a record. -/
  aggregates : List String
  deriving Repr, Inhabited

namespace Liveness

/-- Whether a declared type is an array or a record. -/
def isAggregate (live : Liveness) : Option Ty → Bool
  | some (.array _ _) | some (.record _ _) => true
  | some (.named n) => live.aggregates.contains n
  | _ => false

/-- Whether a statement is a dead declaration. -/
def isDead (live : Liveness) : Stmt → Bool
  | .varDecl n t i =>
    !live.used.contains n && !live.isAggregate t && !((i.map Expr.containsCall).getD false)
  | _ => false

mutual

/-- Prunes the blocks nested in a statement. -/
def inner (live : Liveness) : Stmt → Stmt × Bool
  | .ifThen c t e =>
    let (t', ct) := prune live t
    let (e', ce) := prune live e
    (.ifThen c t' e', ct || ce)
  | .whileDo c b => let (b', cb) := prune live b; (.whileDo c b', cb)
  | .forRange v s e r b => let (b', cb) := prune live b; (.forRange v s e r b', cb)
  | .routine n ps r b => let (b', cb) := prune live b; (.routine n ps r b', cb)
  | s => (s, false)

/-- Drops the dead declarations of a block and prunes the blocks nested in the rest. -/
def prune (live : Liveness) : List Stmt → List Stmt × Bool
  | [] => ([], false)
  | s :: rest =>
    let (rest', cr) := prune live rest
    if live.isDead s then (rest', true)
    else
      let (s', cs) := inner live s
      (s' :: rest', cs || cr)

end

end Liveness

/-- Drops the dead declarations of a whole program; the flag says whether any was dropped. -/
def pruneDead (live : Liveness) (p : Program) : Program × Bool :=
  let (ss, c) := live.prune p.statements
  (⟨ss⟩, c)

end ImpStack
