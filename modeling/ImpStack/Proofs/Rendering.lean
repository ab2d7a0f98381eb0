import ImpStack.Jvm.Assembly
import ImpStack.Proofs.Resolution

/-! # What the assembler accepts

  The assembler renders every instruction of a method or fails on the first it cannot
  render. Those are few: an integer constant outside 32 bits, a real constant that is not
  finite, a value of kind void where a typed instruction needs a type letter (loads, stores,
  array elements, new arrays), arithmetic, negation, ordering comparisons and printing on
  kinds that have none of these.

  The second half names the conditions on types that keep lowering clear of those cases:
  - `Ty.SizesFit`: every array size written in the type fits a 32-bit word;
  - `Ty.Storable`: a value of the type can be created and stored: it is not void, array
    elements are storable, and every field type of a record resolves, to a storable type
    when the field holds an array or a record (those are created with the record).
-/

namespace ImpStack

-- The proofs below unfold the assembler one constructor at a time, many of them at once; its
-- equations are built here, once, before they are all asked for together.
section
attribute [local simp] Jvm.instrLines Jvm.pushConstant
end

/-- An integer that fits a 32-bit word. -/
def FitsWord (v : Int) : Prop := -2147483648 ≤ v ∧ v ≤ 2147483647

@[simp] theorem fitsWord_zero : FitsWord 0 := by simp [FitsWord]
@[simp] theorem fitsWord_one : FitsWord 1 := by simp [FitsWord]

namespace Instr

/-- The assembler renders the instruction, in a method of any class. -/
def Renders (i : Instr) : Prop := ∀ cls, ∃ s, Jvm.instrLines cls i = .ok s

section

variable {k : ValueKind}

theorem pushInt_ok {v : Int} (h : FitsWord v) : ∃ s, Jvm.pushInt v = .ok s := by
  unfold Jvm.pushInt
  rw [if_neg (by simp only [FitsWord] at h; simp; omega)]
  -- every remaining branch picks a push and succeeds
  split
  · exact ⟨_, rfl⟩
  · split
    · exact ⟨_, rfl⟩
    · split
      · exact ⟨_, rfl⟩
      · split <;> exact ⟨_, rfl⟩

@[simp] theorem renders_push_int {v : Int} (h : FitsWord v) : (push (.int v)).Renders := by
  intro cls
  obtain ⟨s, hs⟩ := pushInt_ok h
  exact ⟨_, by rw [Jvm.instrLines, Jvm.pushConstant, hs]; rfl⟩

@[simp] theorem renders_push_real {x : Float} (h : x.isFinite = true) : (push (.real x)).Renders := by
  intro cls
  exact ⟨_, by rw [Jvm.instrLines, Jvm.pushConstant, if_pos h]; rfl⟩

@[simp] theorem renders_push_bool (b : Bool) : (push (.bool b)).Renders := fun _ => ⟨_, rfl⟩

@[simp] theorem renders_push_str (s : String) : (push (.str s)).Renders := fun _ => ⟨_, rfl⟩

theorem typePrefix_ok (hk : k ≠ .void) : ∃ s, Jvm.typePrefix k = .ok s := by
  cases k <;> first | exact absurd rfl hk | exact ⟨_, rfl⟩

theorem arrayPrefix_ok (hk : k ≠ .void) : ∃ s, Jvm.arrayPrefix k = .ok s := by
  cases k <;> first | exact absurd rfl hk | exact ⟨_, rfl⟩

@[simp] theorem renders_load {s : Nat} (hk : k ≠ .void) : (load s k).Renders := by
  intro cls
  obtain ⟨p, hp⟩ := typePrefix_ok hk
  exact ⟨_, by rw [Jvm.instrLines, hp]; rfl⟩

@[simp] theorem renders_store {s : Nat} (hk : k ≠ .void) : (store s k).Renders := by
  intro cls
  obtain ⟨p, hp⟩ := typePrefix_ok hk
  exact ⟨_, by rw [Jvm.instrLines, hp]; rfl⟩

@[simp] theorem renders_arrayLoad (hk : k ≠ .void) : (arrayLoad k).Renders := by
  intro cls
  obtain ⟨p, hp⟩ := arrayPrefix_ok hk
  exact ⟨_, by rw [Jvm.instrLines, hp]; rfl⟩

@[simp] theorem renders_arrayStore (hk : k ≠ .void) : (arrayStore k).Renders := by
  intro cls
  obtain ⟨p, hp⟩ := arrayPrefix_ok hk
  exact ⟨_, by rw [Jvm.instrLines, hp]; rfl⟩

@[simp] theorem renders_newArray (hk : k ≠ .void) : (newArray k).Renders := by
  intro cls; cases k <;> first | exact absurd rfl hk | exact ⟨_, rfl⟩

/-- Arithmetic other than `xor` renders on integers and reals. -/
@[simp] theorem renders_arith {op : ArithOp} (hop : op ≠ .xor) (hk : k = .int ∨ k = .real) :
    (arith op k).Renders := by
  intro cls
  rcases hk with rfl | rfl <;> cases op <;> first | exact absurd rfl hop | exact ⟨_, rfl⟩

@[simp] theorem renders_xor_bool : (arith .xor .bool).Renders := fun _ => ⟨_, rfl⟩

@[simp] theorem renders_neg (hk : k = .int ∨ k = .real) : (neg k).Renders := by
  intro cls; rcases hk with rfl | rfl <;> exact ⟨_, rfl⟩

@[simp] theorem renders_compareBranch {c : Condition} {t : Label}
    (hk : k = .int ∨ k = .bool ∨ k = .real) : (compareBranch c k t).Renders := by
  intro cls; rcases hk with rfl | rfl | rfl <;> exact ⟨_, rfl⟩

@[simp] theorem renders_print (hk : k = .int ∨ k = .bool ∨ k = .real ∨ k = .str) :
    (print k).Renders := by
  intro cls; rcases hk with rfl | rfl | rfl | rfl <;> exact ⟨_, rfl⟩

@[simp] theorem renders_convert (c : Conversion) : (convert c).Renders := by
  intro cls; cases c <;> exact ⟨_, rfl⟩

@[simp] theorem renders_ret : (ret k).Renders := by
  intro cls; cases k <;> exact ⟨_, rfl⟩

@[simp] theorem renders_getGlobal (n : String) : (getGlobal n k).Renders := fun _ => ⟨_, rfl⟩
@[simp] theorem renders_putGlobal (n : String) : (putGlobal n k).Renders := fun _ => ⟨_, rfl⟩
@[simp] theorem renders_branchZero (c : Condition) (t : Label) : (branchZero c t).Renders :=
  fun _ => ⟨_, rfl⟩
@[simp] theorem renders_jump (t : Label) : (jump t).Renders := fun _ => ⟨_, rfl⟩
@[simp] theorem renders_label (l : Label) : (label l).Renders := fun _ => ⟨_, rfl⟩
@[simp] theorem renders_call (n : String) (ps : List ValueKind) (r : ValueKind) :
    (call n ps r).Renders := fun _ => ⟨_, rfl⟩
@[simp] theorem renders_newRecord (n : String) : (newRecord n).Renders := fun _ => ⟨_, rfl⟩
@[simp] theorem renders_getField (r f : String) : (getField r f k).Renders := fun _ => ⟨_, rfl⟩
@[simp] theorem renders_putField (r f : String) : (putField r f k).Renders := fun _ => ⟨_, rfl⟩
@[simp] theorem renders_dup : dup.Renders := fun _ => ⟨_, rfl⟩
@[simp] theorem renders_pop : (pop k).Renders := fun _ => ⟨_, rfl⟩

end

end Instr

/-- Every instruction of a run of code renders. -/
def CodeRenders (code : Array Instr) : Prop := ∀ i ∈ code.toList, i.Renders

@[simp] theorem codeRenders_push (code : Array Instr) (i : Instr) :
    CodeRenders (code.push i) ↔ CodeRenders code ∧ i.Renders := by
  simp [CodeRenders, Array.toList_push, or_imp, forall_and]

@[simp] theorem codeRenders_empty : CodeRenders #[] := by
  simp [CodeRenders]

/-! ## Types whose values lowering can create and store -/

namespace Ty

/-- Every array size written in the type fits a 32-bit word, record fields included. -/
def SizesFit : Ty → Prop
  | .prim _ | .named _ => True
  | .array e n => FitsWord n ∧ SizesFit e
  | .record _ fs => fieldsFit fs
where
  /-- Every field type's sizes fit. -/
  fieldsFit : List (String × Ty) → Prop
    | [] => True
    | (_, t) :: rest => SizesFit t ∧ fieldsFit rest

/-- A value of the type can be created and stored. -/
inductive Storable (env : TypeEnv) : Ty → Prop
  | prim {p : Prim} (nonVoid : p ≠ .void) : Storable env (.prim p)
  | array {e : Ty} {n : Int} (element : Storable env e) : Storable env (.array e n)
  | record {name : String} {fields : List (String × Ty)}
      (resolves : ∀ f F, (f, F) ∈ fields → ∃ R, F.resolveDeep env = .ok R)
      (parts : ∀ f F R, (f, F) ∈ fields → F.resolveDeep env = .ok R → R.isAggregate = true →
        Storable env R) :
      Storable env (.record name fields)

end Ty

/-- Every declared type's sizes fit. -/
def TypeEnv.SizesFit (env : TypeEnv) : Prop := ∀ e ∈ env, e.2.SizesFit

end ImpStack
