import ImpStack.Check.Analyzer
import ImpStack.Stack.Lower

/-! # Compiling a program

Compiling checks a program and, when the check finds no problem, lowers the checked and
optimized program to a module. Diagnostics stop the compilation with an error that carries
them. Lowering can also be forced, whatever the diagnostics; its own errors then show what the
checker would have prevented.
-/

namespace ImpStack

/-- How to compile. -/
structure CompileOptions where
  check : CheckOptions := {}
  lower : LowerOptions := {}
  deriving Repr, Inhabited

/-- Checks and lowers a program; stops with the diagnostics when there are any. The log holds
what was done, up to the error if there is one. -/
def compile (opts : CompileOptions) (p : Program) : Except Error Module × List LogLine :=
  let a := analyze opts.check p
  if a.diagnostics.isEmpty then
    let (r, log) := lowerProgram a.scopes opts.lower a.program
    (r, a.log ++ log)
  else
    (.error (.semantic (a.diagnostics.map Error.message)),
      a.log ++ [⟨.debug, .compiler, "analysis reported " ++ toString a.diagnostics.length ++
        " diagnostic(s)"⟩])

/-- Checks a program and lowers it whatever the diagnostics. -/
def compileForced (opts : CompileOptions) (p : Program) : Analysis × Except Error Module :=
  let a := analyze opts.check p
  (a, (lowerProgram a.scopes opts.lower a.program).1)

end ImpStack
