import ImpStack.Proofs.Labels

/-! # Kinds on the operand stack

  Stack code is checked the way the JVM's verifier checks a method with a stack map: every
  point of the code gets the kinds of the values on the operand stack, top first, and every
  label gets its kinds ahead of time (`Γ`). Each instruction takes the kinds it names off the
  top, a boolean going where an integer is wanted, and puts the kinds it produces back; a void
  value takes no place. A jump, and a conditional branch when it is taken, must bring exactly
  the kinds its label is given, and so must control that falls into a label. After a jump or a
  return the next instruction is not reached by falling through (`Shape.dead`): only a label
  starts it again, with its own kinds.

  `Shape.through Γ F code` walks code from what is known before it, and fails as soon as an
  instruction finds kinds it cannot take. It goes through concatenation (`through_append`),
  and it only reads `Γ` at the labels the code defines or jumps to (`through_congr`), so the
  kinds of a fragment's labels can be chosen with the fragment.
-/

namespace ImpStack

/-- What is known of the operand stack before an instruction: control cannot fall into it,
or the stack holds values of these kinds, top first. -/
inductive Shape where
  | dead
  | live (kinds : List ValueKind)
  deriving DecidableEq, Repr

namespace ValueKind

/-- A value of kind `k` may be taken where kind `k'` is wanted: the same kind, or a boolean
where an integer is wanted, both being JVM `int`s. -/
def fits (k k' : ValueKind) : Bool := k == k' || (k == .bool && k' == .int)

@[simp] theorem fits_self (k : ValueKind) : k.fits k = true := by simp [fits]

end ValueKind

namespace Shape

/-- Puts a value of kind `k` on top; a void value takes no place. -/
def push (k : ValueKind) (S : List ValueKind) : List ValueKind :=
  if k = .void then S else k :: S

/-- Takes a value of kind `k` off the top; a void value takes nothing. -/
def pop (k : ValueKind) (S : List ValueKind) : Option (List ValueKind) :=
  if k = .void then some S
  else match S with
    | k' :: S' => if k'.fits k then some S' else none
    | [] => none

/-- Takes values of the kinds `ks` off the top, the first of them topmost. -/
def popAll : List ValueKind → List ValueKind → Option (List ValueKind)
  | [], S => some S
  | k :: ks, S => (pop k S).bind (popAll ks)

/-- Goes on with `S` after a branch to `l` that may be taken: `S` must be the kinds of `l`. -/
def branch (Γ : Label → List ValueKind) (l : Label) (S : List ValueKind) : Option Shape :=
  if S = Γ l then some (.live S) else none

@[simp] theorem push_of_ne_void {k : ValueKind} (h : k ≠ .void) (S : List ValueKind) :
    push k S = k :: S := by simp [push, h]

@[simp] theorem pop_cons_self {k : ValueKind} (h : k ≠ .void) (S : List ValueKind) :
    pop k (k :: S) = some S := by simp [pop, h]

@[simp] theorem branch_self (Γ : Label → List ValueKind) (l : Label) :
    branch Γ l (Γ l) = some (.live (Γ l)) := by simp [branch]

end Shape

/-- The kinds on the stack after an instruction, from kinds `S` before it, with the kinds `Γ`
of labels; `none` when the instruction does not find the kinds it takes. -/
def Instr.shapeAfter (Γ : Label → List ValueKind) (i : Instr) (S : List ValueKind) :
    Option Shape :=
  match i with
  | .push c => some (.live (Shape.push c.kind S))
  | .load _ k | .getGlobal _ k => some (.live (Shape.push k S))
  | .store _ k | .putGlobal _ k | .print k | .pop k => (Shape.pop k S).map .live
  | .arith _ k => ((Shape.pop k S).bind (Shape.pop k)).map fun S => .live (Shape.push k S)
  | .neg k => (Shape.pop k S).map fun S => .live (Shape.push k S)
  | .convert .intToReal => (Shape.pop .int S).map fun S => .live (.real :: S)
  | .convert .realToInt => (Shape.pop .real S).map fun S => .live (.int :: S)
  | .compareBranch _ k l => ((Shape.pop k S).bind (Shape.pop k)).bind (Shape.branch Γ l)
  | .branchZero _ l => (Shape.pop .int S).bind (Shape.branch Γ l)
  | .jump l => if S = Γ l then some .dead else none
  | .label l => Shape.branch Γ l S
  | .call _ ps r => (Shape.popAll ps.reverse S).map fun S => .live (Shape.push r S)
  | .ret k => (Shape.pop k S).map fun _ => .dead
  | .newRecord n => some (.live (.record n :: S))
  | .getField r _ k => (Shape.pop (.record r) S).map fun S => .live (Shape.push k S)
  | .putField r _ k => ((Shape.pop k S).bind (Shape.pop (.record r))).map .live
  | .newArray e => (Shape.pop .int S).map fun S => .live (.array e :: S)
  | .arrayLoad k => ((Shape.pop .int S).bind (Shape.pop (.array k))).map fun S => .live (Shape.push k S)
  | .arrayStore k => (((Shape.pop k S).bind (Shape.pop .int)).bind (Shape.pop (.array k))).map .live
  | .dup =>
    match S with
    | k :: S' => if k.width = 1 then some (.live (k :: k :: S')) else none
    | [] => none

namespace Shape

variable (Γ : Label → List ValueKind)

/-- One instruction: from a live stack as `shapeAfter` says; unreached code stays unreached
until a label starts it with the label's kinds. -/
def next (i : Instr) : Shape → Option Shape
  | .live S => i.shapeAfter Γ S
  | .dead =>
    match i with
    | .label l => some (.live (Γ l))
    | _ => some .dead

/-- Code walked from what is known before it. -/
def through : Shape → List Instr → Option Shape
  | F, [] => some F
  | F, i :: code => (F.next Γ i).bind fun F' => F'.through code

variable {Γ}

@[simp] theorem through_nil (F : Shape) : F.through Γ [] = some F := rfl

@[simp] theorem through_cons (F : Shape) (i : Instr) (code : List Instr) :
    F.through Γ (i :: code) = (F.next Γ i).bind fun F' => F'.through Γ code := rfl

theorem through_append (F : Shape) (a b : List Instr) :
    F.through Γ (a ++ b) = (F.through Γ a).bind fun F' => F'.through Γ b := by
  induction a generalizing F with
  | nil => rfl
  | cons i a ih =>
    simp only [List.cons_append, through_cons, ih]
    cases F.next Γ i <;> rfl

/-- Code whose walk is known, followed by more. -/
theorem through_append_of {F F' : Shape} {a : List Instr} (h : F.through Γ a = some F')
    (b : List Instr) : F.through Γ (a ++ b) = F'.through Γ b := by
  rw [through_append, h, Option.bind_some]

/-! ## Only the labels the code mentions count -/

theorem next_congr {Γ' : Label → List ValueKind} {i : Instr}
    (h : ∀ l ∈ i.defines ++ i.targets, Γ l = Γ' l) (F : Shape) : F.next Γ i = F.next Γ' i := by
  cases F with
  | dead =>
    cases i with
    | label l => simp [next, h l (by simp [Instr.defines])]
    | _ => rfl
  | live S =>
    cases i with
    | compareBranch c k l =>
      have e : branch Γ l = branch Γ' l :=
        funext fun S => by simp [branch, h l (by simp [Instr.targets])]
      simp only [next, Instr.shapeAfter, e]
    | branchZero c l =>
      have e : branch Γ l = branch Γ' l :=
        funext fun S => by simp [branch, h l (by simp [Instr.targets])]
      simp only [next, Instr.shapeAfter, e]
    | jump l => simp [next, Instr.shapeAfter, h l (by simp [Instr.targets])]
    | label l => simp [next, Instr.shapeAfter, branch, h l (by simp [Instr.defines])]
    | convert c => cases c <;> rfl
    | _ => rfl

/-- The walk reads the kinds of labels only where the code defines or jumps to them. -/
theorem through_congr {Γ' : Label → List ValueKind} {code : List Instr}
    (h : ∀ l ∈ labelsOf code ++ targetsOf code, Γ l = Γ' l) (F : Shape) :
    F.through Γ code = F.through Γ' code := by
  induction code generalizing F with
  | nil => rfl
  | cons i code ih =>
    simp only [labelsOf_cons, targetsOf_cons, List.mem_append] at h
    simp only [through_cons]
    have rest := ih (fun l hl => h l (by simp only [List.mem_append] at hl; tauto))
    rw [next_congr (fun l hl => h l (by simp only [List.mem_append] at hl; tauto))]
    simp only [rest]

end Shape

end ImpStack
