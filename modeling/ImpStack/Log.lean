/-! # Diagnostic log

The library reports what it does as a list of log lines, each with a level, the part of the
library it comes from, and a message. Nothing is printed here: the lines are returned with the
results, in the order the work happened, and the command line prints the ones its logging
settings let through.

A line reads `[LEVEL part] message`, with the level padded to five characters.
-/

namespace ImpStack

/-- How detailed a log line is, from the most to the least important. -/
inductive Level where
  | error
  | warn
  | info
  | debug
  | trace
  deriving DecidableEq, Repr, Inhabited

/-- The label of a level, five characters wide. -/
def Level.label : Level → String
  | .error => "ERROR"
  | .warn => "WARN "
  | .info => "INFO "
  | .debug => "DEBUG"
  | .trace => "TRACE"

/-- The part of the library a log line comes from. -/
inductive Source where
  | checker
  | scopes
  | optimizer
  | lowering
  | assembler
  | compiler
  deriving DecidableEq, Repr, Inhabited

/-- The path naming a part of the library in log lines. -/
def Source.path : Source → String
  | .checker => "implc::frontend::semantic"
  | .scopes => "implc::frontend::symbol_table"
  | .optimizer => "implc::frontend::optimize"
  | .lowering => "implc::middle::ir_gen"
  | .assembler => "implc::backend::jasmin::jasmin_codegen"
  | .compiler => "implc"

/-- One log line. -/
structure LogLine where
  level : Level
  source : Source
  message : String
  deriving Repr, Inhabited

/-- The text of a log line. -/
def LogLine.render (l : LogLine) : String :=
  "[" ++ l.level.label ++ " " ++ l.source.path ++ "] " ++ l.message

end ImpStack
