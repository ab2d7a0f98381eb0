import ImpStack.Check.Analyzer
import ImpStack.Stack.Lower
import ImpStack.Proofs.Resolution

/-! # What a clean check establishes

  The checker reports every problem it finds. A walk that reports nothing has established
  the facts collected here as inductive relations, presented apart from the checker:

  - `Infers sc e o`: checking `e` in scopes `sc` reports nothing and gives `o`. The result is
    the expression's type, with one exception the checker never reports: a field read whose
    field type does not resolve gives `none` (record field types are only checked to name
    declared types), and so does every operation on such a read.
  - `StmtChecks ret sc s sc'` and `BlockChecks ret sc ss sc'`: checking a statement (a block)
    in `sc`, inside a routine whose resolved return type is `ret` (none at the top level),
    reports nothing and leaves `sc'`. They relate the statements the checker *returns*, where
    a declaration without a type carries its initializer's.

  The rules follow the checker path for path, with one option: with `loops` unset, the
  variable of a `for` loop need not be visible around the loop, which stays true of a program
  once dead declarations are dropped; with it set, it must be a visible integer, as the checker
  demands. Either way the end bound is also checked where the loop's counter is visible, which
  is where lowering reads it. A clean check establishes both versions of the end bound.

  The first sections hold what the relations use: association lists, scopes and the names an
  expression reads.
-/

namespace ImpStack

/-! ## Association lists -/

theorem lookup_cons_ite {β : Type} (m k : String) (b : β) (l : List (String × β)) :
    ((k, b) :: l).lookup m = if m = k then some b else l.lookup m := by
  by_cases h : m = k
  · subst h; simp
  · simp [List.lookup_cons, beq_false_of_ne h, h]

section Assoc

variable {α : Type} (xs : List (String × α)) (k m : String) (v : α)

theorem lookup_replace :
    (xs.map fun e => if e.1 == k then (k, v) else e).lookup m =
      if m = k ∧ xs.any (·.1 == k) then some v else xs.lookup m := by
  induction xs with
  | nil => simp
  | cons e xs ih =>
    obtain ⟨j, w⟩ := e
    by_cases hj : j = k
    · subst hj
      simp only [List.map_cons, beq_self_eq_true, ↓reduceIte, lookup_cons_ite, ih]
      by_cases hm : m = j <;> simp [hm]
    · have hjk : (j == k) = false := beq_false_of_ne hj
      simp only [List.map_cons, hjk, Bool.false_eq_true, ↓reduceIte, lookup_cons_ite, ih,
        List.any_cons, Bool.false_or]
      by_cases hm : m = j
      · subst hm; simp [hj]
      · simp [hm]

theorem lookup_append_fresh (h : xs.any (·.1 == k) = false) :
    (xs ++ [(k, v)]).lookup m = if m = k then some v else xs.lookup m := by
  induction xs with
  | nil => simp [lookup_cons_ite]
  | cons e xs ih =>
    obtain ⟨j, w⟩ := e
    simp only [List.any_cons, Bool.or_eq_false_iff, beq_eq_false_iff_ne, ne_eq] at h
    simp only [List.cons_append, lookup_cons_ite, ih h.2]
    by_cases hm : m = j
    · subst hm; simp [h.1]
    · simp [hm]

/-- Setting a key replaces what a lookup of it finds and leaves every other key alone. -/
@[simp] theorem lookup_assocSet : (assocSet xs k v).lookup m = if m = k then some v else xs.lookup m := by
  unfold assocSet
  split
  · rename_i h
    rw [lookup_replace]
    by_cases hm : m = k <;> simp [hm, h]
  · rename_i h
    exact lookup_append_fresh xs k m v (Bool.eq_false_iff.mpr h)

/-- Setting a key commutes with changing the values. -/
theorem map_assocSet {β : Type} (g : α → β) :
    (assocSet xs k v).map (fun e => (e.1, g e.2)) =
      assocSet (xs.map fun e => (e.1, g e.2)) k (g v) := by
  unfold assocSet
  have hany : (xs.map fun e => (e.1, g e.2)).any (·.1 == k) = xs.any (·.1 == k) := by
    simp [List.any_map, Function.comp_def]
  rw [hany]
  split
  · simp only [List.map_map]
    congr 1
    funext e
    by_cases he : e.1 = k <;> simp [he]
  · simp

end Assoc

theorem Frame.set_eq_assocSet (f : Frame) (n : String) (T : Ty) : f.set n T = assocSet f n T :=
  rfl

@[simp] theorem Frame.lookup_set (f : Frame) (n m : String) (T : Ty) :
    (f.set n T).lookup m = if m = n then some T else f.lookup m := by
  rw [Frame.set_eq_assocSet, lookup_assocSet]

/-! ## Scopes -/

namespace Scopes

variable (sc : Scopes) (n m : String) (T : Ty)

@[simp] theorem enter_globals : sc.enter.globals = sc.globals := rfl
@[simp] theorem enter_locals : sc.enter.locals = [] :: sc.locals := rfl
@[simp] theorem enter_routines : sc.enter.routines = sc.routines := rfl
@[simp] theorem enter_types : sc.enter.types = sc.types := rfl
@[simp] theorem enter_env : sc.enter.env = sc.env := rfl
@[simp] theorem exit_enter : sc.enter.exit = sc := rfl

@[simp] theorem declare_routines : (sc.declare n T).routines = sc.routines := by
  unfold declare; split <;> rfl

@[simp] theorem declare_types : (sc.declare n T).types = sc.types := by
  unfold declare; split <;> rfl

@[simp] theorem declare_env : (sc.declare n T).env = sc.env := declare_types sc n T

@[simp] theorem routine?_declare : (sc.declare n T).routine? m = sc.routine? m := by
  simp [routine?]

@[simp] theorem routine?_enter : sc.enter.routine? m = sc.routine? m := rfl

/-- A declaration is found first by a lookup of its name and hides nothing else. -/
@[simp] theorem typeOf?_declare :
    (sc.declare n T).typeOf? m = if m = n then some T else sc.typeOf? m := by
  unfold declare typeOf? frames
  split
  · rename_i h
    simp [h]
  · rename_i f rest h
    simp only [h, List.cons_append, List.findSome?_cons, Frame.lookup_set]
    by_cases hm : m = n <;> simp [hm]

@[simp] theorem typeOf?_enter : sc.enter.typeOf? m = sc.typeOf? m := by
  simp only [typeOf?, frames, enter, List.cons_append, List.findSome?_cons]
  rfl

theorem declare_locals_ne_nil (h : sc.locals ≠ []) : (sc.declare n T).locals ≠ [] := by
  unfold declare
  split
  · contradiction
  · simp

/-- Inside a routine or a block, a declaration only changes the innermost scope. -/
theorem exit_declare (h : sc.locals ≠ []) : (sc.declare n T).exit = sc.exit := by
  unfold declare
  split
  · contradiction
  · rename_i f rest hl
    simp [exit, hl]

/-- Every visible variable has a resolved type. -/
def VarsResolved : Prop := ∀ n T, sc.typeOf? n = some T → T.Resolved

theorem VarsResolved.declare {sc : Scopes} (h : sc.VarsResolved) {T : Ty} (hT : T.Resolved)
    (n : String) : (sc.declare n T).VarsResolved := by
  intro m U hm
  rw [typeOf?_declare] at hm
  split at hm
  · cases hm; exact hT
  · exact h m U hm

theorem VarsResolved.enter {sc : Scopes} (h : sc.VarsResolved) : sc.enter.VarsResolved := by
  intro m U hm
  rw [typeOf?_enter] at hm
  exact h m U hm

end Scopes

/-! ## The names an expression reads -/

mutual

/-- The variables an expression reads, through every subexpression: variables, indexed
arrays and records whose fields it reads. -/
def Expr.names : Expr → List String
  | .var n => [n]
  | .index a i => a :: i.names
  | .field r _ => [r]
  | .binary l _ r => l.names ++ r.names
  | .unary _ e => e.names
  | .call _ args => Expr.namesOf args
  | .cast e _ => e.names
  | .int _ | .real _ | .bool _ | .str _ => []

/-- The variables a list of expressions reads. -/
def Expr.namesOf : List Expr → List String
  | [] => []
  | e :: es => e.names ++ Expr.namesOf es

end

/-! ## The relations -/

mutual

/-- Checking an expression in scopes `sc` reports nothing and gives `o`. -/
inductive Infers (sc : Scopes) : Expr → Option Ty → Prop
  | int (v : Int) : Infers sc (.int v) (some .integer)
  | real (x : Float) : Infers sc (.real x) (some .real)
  | bool (b : Bool) : Infers sc (.bool b) (some .boolean)
  | str (s : String) : Infers sc (.str s) (some .string)
  | var {n : String} {T : Ty} (found : sc.typeOf? n = some T) : Infers sc (.var n) (some T)
  | binary {l r : Expr} {op : BinOp} {ol or : Option Ty}
      (left : Infers sc l ol) (right : Infers sc r or)
      (suits : ∀ L R, ol = some L → or = some R → (Ty.binaryResult op L R).isSome) :
      Infers sc (.binary l op r) (ol.bind fun L => or.bind fun R => Ty.binaryResult op L R)
  | unary {op : UnOp} {e : Expr} {o : Option Ty} (operand : Infers sc e o)
      (suits : ∀ T, o = some T → (Ty.unaryResult op T).isSome) :
      Infers sc (.unary op e) (o.bind (Ty.unaryResult op))
  | index {a : String} {i : Expr} {el : Ty} {size : Int} {oi : Option Ty}
      (found : sc.typeOf? a = some (.array el size)) (index : Infers sc i oi)
      (integer : ∀ T, oi = some T → T = .integer) :
      Infers sc (.index a i) (oi.bind fun _ => (el.resolveDeep sc.env).toOption)
  | field {r f : String} {R F : Ty} {name : String} {fields : List (String × Ty)}
      (found : sc.typeOf? r = some R) (record : R.resolveDeep sc.env = .ok (.record name fields))
      (member : fields.lookup f = some F) :
      Infers sc (.field r f) (F.resolveDeep sc.env).toOption
  | call {n : String} {args : List Expr} {sig : RoutineSig}
      (found : sc.routine? n = some sig) (count : sig.params.length = args.length)
      (arguments : ArgsInfer sc sig.params args)
      (nonVoid : ∀ T, sig.returnType.resolveDeep sc.env = .ok T → T.isVoid = false) :
      Infers sc (.call n args) (sig.returnType.resolveDeep sc.env).toOption
  | cast {e : Expr} {target T : Ty} {os : Option Ty} (operand : Infers sc e os)
      (valid : target.isValid sc.env = true) (resolved : target.resolveDeep sc.env = .ok T)
      (castable : ∀ S, os = some S → Ty.isValidCast S T = true) :
      Infers sc (.cast e target) (os.map fun _ => T)

/-- Checking call arguments against the declared parameter types reports nothing. A parameter
type that does not resolve is not compared with its argument. -/
inductive ArgsInfer (sc : Scopes) : List Ty → List Expr → Prop
  | nil : ArgsInfer sc [] []
  | cons {p : Ty} {a : Expr} {ps : List Ty} {as : List Expr} {o : Option Ty}
      (head : Infers sc a o)
      (suits : ∀ P A, p.resolveDeep sc.env = .ok P → o = some A → Ty.compatible P A = true)
      (tail : ArgsInfer sc ps as) : ArgsInfer sc (p :: ps) (a :: as)

end

/-- Checking an assignment's target reports nothing and gives the type it stores, or `none`
when its index or its field type has none. -/
inductive TargetInfers (sc : Scopes) : Target → Option Ty → Prop
  | var {n : String} {T : Ty} (found : sc.typeOf? n = some T) : TargetInfers sc (.var n) (some T)
  | element {a : String} {i : Expr} {el : Ty} {size : Int} {oi : Option Ty}
      (found : sc.typeOf? a = some (.array el size)) (index : Infers sc i oi)
      (integer : ∀ T, oi = some T → T = .integer) :
      TargetInfers sc (.element a i) (oi.map fun _ => el)
  | field {r f : String} {R F : Ty} {name : String} {fields : List (String × Ty)}
      (found : sc.typeOf? r = some R) (record : R.resolveDeep sc.env = .ok (.record name fields))
      (member : fields.lookup f = some F) :
      TargetInfers sc (.field r f) (F.resolveDeep sc.env).toOption

/-- A value that may be stored where `T` is wanted: checking it reports nothing and gives a
compatible type or none. -/
def StoresInto (sc : Scopes) (T : Ty) (v : Expr) : Prop :=
  ∃ o, Infers sc v o ∧ ∀ A, o = some A → Ty.compatible T A = true

mutual

/-- Checking a statement in `sc`, in a routine returning `ret`, reports nothing and leaves
`sc'`; `loops` says whether a loop's variable must be visible around it. -/
inductive StmtChecks (loops : Bool) (ret : Option Ty) : Scopes → Stmt → Scopes → Prop
  | declare {sc : Scopes} {n : String} {t T : Ty} {init : Option Expr}
      (fresh : sc.isDefinedHere n = false) (valid : t.isValid sc.env = true)
      (resolved : t.resolveDeep sc.env = .ok T)
      (initial : ∀ i, init = some i → StoresInto sc T i) :
      StmtChecks loops ret sc (.varDecl n (some t) init) (sc.declare n T)
  | declareUntyped {sc : Scopes} {n : String} {i : Expr}
      (fresh : sc.isDefinedHere n = false) (initial : Infers sc i none) :
      StmtChecks loops ret sc (.varDecl n none (some i)) sc
  | array {sc : Scopes} {n : String} {el E : Ty} {size : Int}
      (fresh : sc.isDefinedHere n = false) (positive : 0 < size)
      (valid : el.isValid sc.env = true) (resolved : el.resolveDeep sc.env = .ok E) :
      StmtChecks loops ret sc (.arrayDecl n el size) (sc.declare n (.array E size))
  | assign {sc : Scopes} {t : Target} {v : Expr} {ot : Option Ty}
      (target : TargetInfers sc t ot) (value : ∀ T, ot = some T → StoresInto sc T v) :
      StmtChecks loops ret sc (.assign t v) sc
  | ifThen {sc sc₁ sc₂ : Scopes} {c : Expr} {t e : List Stmt} {oc : Option Ty}
      (cond : Infers sc c oc) (boolean : ∀ T, oc = some T → T = .boolean)
      (thenBranch : BlockChecks loops ret sc.enter t sc₁)
      (elseBranch : BlockChecks loops ret sc.enter e sc₂) :
      StmtChecks loops ret sc (.ifThen c t e) sc
  | whileDo {sc sc₁ : Scopes} {c : Expr} {b : List Stmt} {oc : Option Ty}
      (cond : Infers sc c oc) (boolean : ∀ T, oc = some T → T = .boolean)
      (body : BlockChecks loops ret sc.enter b sc₁) :
      StmtChecks loops ret sc (.whileDo c b) sc
  | forRange {sc sc₁ : Scopes} {v : String} {s e : Expr} {r : Bool} {b : List Stmt}
      {os oe : Option Ty}
      (start : Infers sc s os) (startInteger : ∀ T, os = some T → T = .integer)
      (stop : Infers sc e oe) (stopInteger : ∀ T, oe = some T → T = .integer)
      (loopVariable : loops = true → sc.typeOf? v = some .integer)
      (stopInLoop : Infers (sc.enter.declare v .integer) e oe)
      (body : BlockChecks loops ret (sc.enter.declare v .integer) b sc₁) :
      StmtChecks loops ret sc (.forRange v s e r b) sc
  | call {sc : Scopes} {n : String} {args : List Expr} {sig : RoutineSig}
      (found : sc.routine? n = some sig) (count : sig.params.length = args.length)
      (arguments : ArgsInfer sc sig.params args) :
      StmtChecks loops ret sc (.call n args) sc
  | retValue {sc : Scopes} {e : Expr} {R : Ty}
      (routine : ret = some R) (nonVoid : R.isVoid = false) (value : StoresInto sc R e) :
      StmtChecks loops ret sc (.ret (some e)) sc
  | retNone {sc : Scopes} {R : Ty} (routine : ret = some R) (void : R.isVoid = true) :
      StmtChecks loops ret sc (.ret none) sc
  | print {sc : Scopes} {e : Expr} {o : Option Ty} (value : Infers sc e o)
      (printable : ∀ T, o = some T → ∃ p, T = .prim p ∧ p ≠ .void) :
      StmtChecks loops ret sc (.print e) sc

/-- Checking a block's statements in order reports nothing. -/
inductive BlockChecks (loops : Bool) (ret : Option Ty) : Scopes → List Stmt → Scopes → Prop
  | nil {sc : Scopes} : BlockChecks loops ret sc [] sc
  | cons {sc sc₁ sc₂ : Scopes} {s : Stmt} {ss : List Stmt}
      (head : StmtChecks loops ret sc s sc₁) (tail : BlockChecks loops ret sc₁ ss sc₂) :
      BlockChecks loops ret sc (s :: ss) sc₂

end

/-! ## Facts about the relations -/

namespace Ty

theorem binaryResult_prim {op : BinOp} {L R T : Ty} (h : binaryResult op L R = some T) :
    ∃ p, T = .prim p := by
  unfold binaryResult at h
  split at h
  · obtain ⟨_, _, rfl⟩ := Option.map_eq_some_iff.mp h; exact ⟨_, rfl⟩
  · split at h
    · split at h <;> cases h; exact ⟨_, rfl⟩
    · split at h
      · cases h; exact ⟨_, rfl⟩
      · split at h <;> cases h; exact ⟨_, rfl⟩
      · cases h

theorem unaryResult_cases {op : UnOp} {E T : Ty} (h : unaryResult op E = some T) :
    T = .boolean ∨ T = E := by
  unfold unaryResult at h
  split at h <;> split at h <;> cases h <;> simp

@[simp] theorem isBoolean_iff (t : Ty) : t.isBoolean = true ↔ t = .boolean := by
  cases t with
  | prim p => cases p <;> simp [isBoolean, asPrim?, Ty.boolean]
  | _ => simp [isBoolean, asPrim?, Ty.boolean]

@[simp] theorem isInteger_iff (t : Ty) : t.isInteger = true ↔ t = .integer := by
  cases t with
  | prim p => cases p <;> simp [isInteger, asPrim?, Ty.integer]
  | _ => simp [isInteger, asPrim?, Ty.integer]

@[simp] theorem isReal_iff (t : Ty) : t.isReal = true ↔ t = .real := by
  cases t with
  | prim p => cases p <;> simp [isReal, asPrim?, Ty.real]
  | _ => simp [isReal, asPrim?, Ty.real]

@[simp] theorem isVoid_iff (t : Ty) : t.isVoid = true ↔ t = .void := by
  cases t with
  | prim p => cases p <;> simp [isVoid, asPrim?, Ty.void]
  | _ => simp [isVoid, asPrim?, Ty.void]

theorem isNumeric_iff (t : Ty) : t.isNumeric = true ↔ t = .integer ∨ t = .real := by
  cases t with
  | prim p => cases p <;> simp [isNumeric, asPrim?, Ty.integer, Ty.real, Prim.isNumeric]
  | _ => simp [isNumeric, asPrim?, Ty.integer, Ty.real]

theorem comparisonOperands_cases {L R t : Ty} (h : comparisonOperands L R = some t) :
    t = .integer ∨ t = .real ∨ t = .boolean := by
  unfold comparisonOperands at h
  split at h
  · split at h <;> cases h <;> simp
  · split at h <;> cases h; simp

theorem binaryResult_logical {op : BinOp} {L R T : Ty} (hop : op.isLogical = true)
    (h : binaryResult op L R = some T) : L = .boolean ∧ R = .boolean ∧ T = .boolean := by
  cases op <;> simp [BinOp.isLogical] at hop <;>
    simp only [binaryResult, BinOp.isComparison, BinOp.isLogical, Bool.false_eq_true, ↓reduceIte] at h <;>
    split at h <;> simp_all

theorem binaryResult_comparison {op : BinOp} {L R T : Ty} (hop : op.isComparison = true)
    (h : binaryResult op L R = some T) : T = .boolean ∧ ∃ t, comparisonOperands L R = some t := by
  simp only [binaryResult, hop, ↓reduceIte, Option.map_eq_some_iff] at h
  obtain ⟨t, ht, rfl⟩ := h
  exact ⟨rfl, t, ht⟩

theorem binaryResult_arithmetic {op : BinOp} {L R T : Ty} (hop : op.isArithmetic = true)
    (h : binaryResult op L R = some T) : T = .integer ∨ T = .real := by
  have hc : op.isComparison = false := by cases op <;> simp_all [BinOp.isArithmetic, BinOp.isComparison]
  have hl : op.isLogical = false := by cases op <;> simp_all [BinOp.isArithmetic, BinOp.isLogical]
  simp only [binaryResult, hc, hl, Bool.false_eq_true, ↓reduceIte] at h
  split at h
  · cases h; simp [Ty.integer]
  · split at h <;> cases h; simp [Ty.real]
  · cases h

theorem unaryResult_not {E T : Ty} (h : unaryResult .not E = some T) : E = .boolean ∧ T = .boolean := by
  simp only [unaryResult] at h
  split at h <;> simp_all

theorem unaryResult_neg {E T : Ty} (h : unaryResult .neg E = some T) : (E = .integer ∨ E = .real) ∧ T = E := by
  simp only [unaryResult] at h
  split at h
  · cases h; exact ⟨(isNumeric_iff E).mp ‹_›, rfl⟩
  · cases h

end Ty

theorem Except.toOption_eq_some {ε α : Type} {x : Except ε α} {a : α} :
    x.toOption = some a ↔ x = .ok a := by
  cases x <;> simp [Except.toOption]

theorem Ty.resolved_of_toOption {env : TypeEnv} {t T : Ty}
    (h : (t.resolveDeep env).toOption = some T) : T.Resolved :=
  Ty.resolveDeep_resolved (Except.toOption_eq_some.mp h)

/-- Checking in scopes whose variables have resolved types gives a resolved type. -/
theorem Infers.resolved {sc : Scopes} (hsc : sc.VarsResolved) :
    ∀ {e : Expr} {o : Option Ty}, Infers sc e o → ∀ {T : Ty}, o = some T → T.Resolved
  | _, _, .int _, _, h | _, _, .real _, _, h | _, _, .bool _, _, h | _, _, .str _, _, h => by
    cases h; trivial
  | _, _, .var found, _, h => by cases h; exact hsc _ _ found
  | _, _, .binary _ _ _, _, h => by
    simp only [Option.bind_eq_some_iff] at h
    obtain ⟨_, -, _, -, hT⟩ := h
    obtain ⟨p, rfl⟩ := Ty.binaryResult_prim hT
    trivial
  | _, _, .unary operand _, _, h => by
    simp only [Option.bind_eq_some_iff] at h
    obtain ⟨E, hE, hT⟩ := h
    rcases Ty.unaryResult_cases hT with rfl | rfl
    · trivial
    · exact operand.resolved hsc hE
  | _, _, .index _ _ _, _, h => by
    simp only [Option.bind_eq_some_iff] at h
    obtain ⟨_, -, hT⟩ := h
    exact Ty.resolved_of_toOption hT
  | _, _, .field _ _ _, _, h | _, _, .call _ _ _ _, _, h => Ty.resolved_of_toOption h
  | _, _, .cast _ _ resolved _, _, h => by
    simp only [Option.map_eq_some_iff] at h
    obtain ⟨_, -, rfl⟩ := h
    exact Ty.resolveDeep_resolved resolved

/-- Inside a routine or a block, a statement only changes the innermost scope. -/
theorem StmtChecks.exit_eq {loops : Bool} {ret : Option Ty} {sc sc' : Scopes} {s : Stmt}
    (h : StmtChecks loops ret sc s sc') (hl : sc.locals ≠ []) :
    sc'.exit = sc.exit ∧ sc'.locals ≠ [] := by
  cases h with
  | declare | array => exact ⟨Scopes.exit_declare _ _ _ hl, Scopes.declare_locals_ne_nil _ _ _ hl⟩
  | _ => exact ⟨rfl, hl⟩

theorem BlockChecks.exit_eq {loops : Bool} {ret : Option Ty} :
    ∀ {sc sc' : Scopes} {ss : List Stmt}, BlockChecks loops ret sc ss sc' → sc.locals ≠ [] →
      sc'.exit = sc.exit ∧ sc'.locals ≠ []
  | _, _, _, .nil, hl => ⟨rfl, hl⟩
  | _, _, _, .cons head tail, hl =>
    have h₁ := head.exit_eq hl
    have h₂ := tail.exit_eq h₁.2
    ⟨h₂.1.trans h₁.1, h₂.2⟩

end ImpStack
