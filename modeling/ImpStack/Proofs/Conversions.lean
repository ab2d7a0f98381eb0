import ImpStack.Proofs.OperandKinds
import ImpStack.Proofs.Resolution
import ImpStack.Proofs.LowerExpr

/-! # Converting a stored value

  A value of type `actual` stored where type `expected` is wanted is converted first
  (`Lower.coerce`). Between resolved types there are three cases (`Converts`): nothing is
  emitted when the value keeps its representation; an integer stored as a real is converted;
  and an array whose elements need converting is copied into a new array, element by element,
  by a loop over the indices whose body converts one element with the code of the next level
  down (`WideningCopy.code`). The copy keeps the array it reads in a slot of its own and its
  index in the next one, and takes two new labels for its loop, so a nested copy uses later
  slots and later labels.

  On compatible resolved types the conversion turns the kind of the top of the operand stack
  from the kind of `actual` into the kind of `expected` and leaves every value below alone, a
  nested copy's loop included (`Converts.retypes`). It emits nothing exactly when the two kinds
  agree, which is exactly when no widening is needed (`kinds_eq_iff`).
  `coercion_retypes_top` says all of it of lowering itself.
-/

namespace ImpStack

namespace IndexLoop

/-- A loop over the indices `0 … size - 1` of an array, the index kept in slot `index`, with
its head label `start` and its exit label `stop`, around the code of its body. -/
def code (index : Nat) (size : Int) (start stop : Label) (body : List Instr) : List Instr :=
  [.push (.int 0), .store index .int, .label start, .load index .int, .push (.int size),
      .compareBranch .ge .int stop] ++
    body ++
    [.load index .int, .push (.int 1), .arith .add .int, .store index .int, .jump start,
      .label stop]

end IndexLoop

namespace WideningCopy

/-- The copy of the array on top of the stack, of `size` elements of kind `src`, into a new
array of elements of kind `dst`: the source array goes to slot `source` and the index to the
next one, the loop takes the labels `lo` and `lo + 1`, and `inner` converts one element. -/
def code (source : Nat) (src dst : ValueKind) (size : Int) (lo : Label) (inner : List Instr) :
    List Instr :=
  [.store source (.array src), .push (.int size), .newArray dst] ++
    IndexLoop.code (source + 1) size lo (lo + 1)
      ([.dup, .load (source + 1) .int, .load source (.array src), .load (source + 1) .int,
          .arrayLoad src] ++
        inner ++ [.arrayStore dst])

@[simp] theorem labelsOf_code (source : Nat) (src dst : ValueKind) (size : Int) (lo : Label)
    (inner : List Instr) :
    labelsOf (code source src dst size lo inner) = lo :: labelsOf inner ++ [lo + 1] := by
  simp [code, IndexLoop.code, Instr.defines]

@[simp] theorem targetsOf_code (source : Nat) (src dst : ValueKind) (size : Int) (lo : Label)
    (inner : List Instr) :
    targetsOf (code source src dst size lo inner) = (lo + 1) :: targetsOf inner ++ [lo] := by
  simp [code, IndexLoop.code, Instr.targets]

end WideningCopy

/-- The code that converts a value of type `actual` for a place of type `expected`, with its
labels drawn from `lo` on and its slots from `base` on. -/
inductive Converts (env : TypeEnv) : Label → Nat → Ty → Ty → List Instr → Prop
  /-- The value keeps its representation. -/
  | keep {lo base : Nat} {expected actual : Ty} (same : expected.needsWidening actual = false) :
      Converts env lo base expected actual []
  /-- An integer becomes a real. -/
  | intToReal {lo base : Nat} : Converts env lo base .real .integer [.convert .intToReal]
  /-- An array is copied into a new one, each element converted by `inner`. -/
  | copy {lo base : Nat} {dst src : Ty} {n m : Int} {inner : List Instr} {ks kd : ValueKind}
      (widens : dst.needsWidening src = true) (srcKind : ValueKind.of env src = .ok ks)
      (dstKind : ValueKind.of env dst = .ok kd) (element : Converts env (lo + 2) (base + 2) dst src inner) :
      Converts env lo base (.array dst n) (.array src m) (WideningCopy.code base ks kd n lo inner)

namespace Converts

variable {env : TypeEnv}

/-- Conversion code is empty exactly when no widening is needed. -/
theorem eq_nil_iff {lo base : Nat} {e a : Ty} {code : List Instr}
    (h : Converts env lo base e a code) : code = [] ↔ e.needsWidening a = false := by
  cases h with
  | keep same => simp [same]
  | intToReal => simp [Ty.needsWidening, Ty.implicitCoercion, Ty.real, Ty.integer, Ty.isReal,
      Ty.isInteger, Ty.asPrim?]
  | copy widens => simp [WideningCopy.code, IndexLoop.code, Ty.needsWidening, widens]

/-- Conversion code defines and jumps to labels from `lo` on only. -/
theorem labels_ge {lo base : Nat} {e a : Ty} {code : List Instr}
    (h : Converts env lo base e a code) : ∀ l ∈ labelsOf code ++ targetsOf code, lo ≤ l := by
  induction h with
  | keep => simp
  | intToReal => simp [Instr.defines, Instr.targets]
  | copy _ _ _ _ ih =>
    -- the loop's own two labels, or those of the element's conversion, which come later
    intro l hl
    rcases List.mem_append.mp hl with hl | hl
    · simp only [WideningCopy.labelsOf_code, List.cons_append, List.mem_cons, List.mem_append,
        List.not_mem_nil, or_false] at hl
      rcases hl with rfl | hl | rfl
      · exact Nat.le_refl _
      · have := ih l (List.mem_append_left _ hl); omega
      · omega
    · simp only [WideningCopy.targetsOf_code, List.cons_append, List.mem_cons, List.mem_append,
        List.not_mem_nil, or_false] at hl
      rcases hl with rfl | hl | rfl
      · omega
      · have := ih l (List.mem_append_right _ hl); omega
      · exact Nat.le_refl _

end Converts

/-! ## Kinds of compatible types -/

namespace ValueKind

theorem of_array {env : TypeEnv} {t : Ty} {k : ValueKind} (ht : t.Resolved)
    (hk : of env t = .ok k) (n : Int) : of env (.array t n) = .ok (.array k) := by
  rw [of_resolved ((Ty.resolved_array t n).2 ht)]
  rw [of_resolved ht] at hk
  simp [ofResolved, hk, Functor.map, Except.map]

theorem of_array_inv {env : TypeEnv} {t : Ty} {n : Int} {k : ValueKind} (ht : t.Resolved)
    (hk : of env (.array t n) = .ok k) : ∃ k', of env t = .ok k' ∧ k = .array k' := by
  obtain ⟨k', hk'⟩ : ∃ k', of env t = .ok k' := of_resolved_ok ht
  rw [of_array ht hk' n] at hk
  cases hk
  exact ⟨k', hk', rfl⟩

end ValueKind

namespace Ty

theorem needsWidening_prim (p q : Prim) :
    (Ty.prim p).needsWidening (.prim q) = (p == .real && q == .integer) := by
  cases p <;> cases q <;> rfl

/-- Compatible resolved types have the same kind exactly when storing needs no widening: an
integer going where a real is wanted changes the kind, at the top or as the elements of
arrays, and nothing else does. -/
theorem kinds_eq_iff {env : TypeEnv} : ∀ {e a : Ty}, e.Resolved → a.Resolved →
    e.compatible a = true → ∀ {ke ka : ValueKind}, ValueKind.of env e = .ok ke →
      ValueKind.of env a = .ok ka → (ke = ka ↔ e.needsWidening a = false)
  | .prim p, .prim q, _, _, hc, ke, ka, he, ha => by
    rw [ValueKind.of_resolved (t := .prim p) trivial] at he
    rw [ValueKind.of_resolved (t := .prim q) trivial] at ha
    simp only [compatible, Bool.or_eq_true, beq_iff_eq, Bool.and_eq_true] at hc
    rw [needsWidening_prim]
    -- equal scalars, or an integer where a real is wanted
    rcases hc with rfl | ⟨rfl, rfl⟩
    · cases p <;> simp_all [ValueKind.ofResolved]
    · simp [ValueKind.ofResolved] at he ha
      subst he ha
      simp
  | .array e n, .array a m, he', ha', hc, ke, ka, he, ha => by
    simp only [compatible, Bool.and_eq_true, beq_iff_eq] at hc
    obtain ⟨ke', he₁, rfl⟩ := ValueKind.of_array_inv (t := e) he' he
    obtain ⟨ka', ha₁, rfl⟩ := ValueKind.of_array_inv (t := a) ha' ha
    simp only [ValueKind.array.injEq, needsWidening]
    exact kinds_eq_iff (e := e) (a := a) he' ha' hc.2 he₁ ha₁
  | .record x fs, .record y gs, _, _, hc, ke, ka, he, ha => by
    rw [ValueKind.of_resolved (t := .record x fs) trivial] at he
    rw [ValueKind.of_resolved (t := .record y gs) trivial] at ha
    simp only [compatible, recordName?, beq_iff_eq] at hc
    subst hc
    simp only [ValueKind.ofResolved, Except.ok.injEq] at he ha
    subst he ha
    simp [needsWidening, implicitCoercion, isReal, asPrim?]
  | .prim _, .array .., _, _, hc, _, _, _, _ | .prim _, .record .., _, _, hc, _, _, _, _
  | .array .., .prim _, _, _, hc, _, _, _, _ | .array .., .record .., _, _, hc, _, _, _, _
  | .record .., .prim _, _, _, hc, _, _, _, _ | .record .., .array .., _, _, hc, _, _, _, _ => by
    simp [compatible, recordName?] at hc
  | .named _, _, he', _, _, _, _, _, _ | _, .named _, _, ha', _, _, _, _, _ => by
    first | exact absurd he' (not_resolved_named _) | exact absurd ha' (not_resolved_named _)

end Ty

/-! ## What lowering emits -/

namespace Lower

variable (cx : LowerCtx)

theorem needsWidening_of_not_arrays {e a : Ty}
    (h : ∀ dst size src n, ¬ (e = .array dst size ∧ a = .array src n)) :
    e.needsWidening a = (Ty.implicitCoercion e a != .identity) := by
  unfold Ty.needsWidening
  split
  · exact absurd ⟨rfl, rfl⟩ (h _ _ _ _)
  · rfl

/-- Outside an array pair, a conversion is the implicit one: an integer stored as a real is
converted, and nothing else is touched. -/
theorem applyCoercion_converts {e a : Ty}
    (h : ∀ dst size src n, ¬ (e = .array dst size ∧ a = .array src n)) (st : LowerState) :
    Sat (applyCoercion (Ty.implicitCoercion e a)) st (fun _ st' => ∃ code,
      st'.em.code.toList = st.em.code.toList ++ code ∧ Converts cx.env st.labels st.em.next e a code)
      (fun _ => False) := by
  by_cases hw : e.isReal && a.isInteger
  · simp only [Bool.and_eq_true, Ty.isReal_iff, Ty.isInteger_iff] at hw
    obtain ⟨rfl, rfl⟩ := hw
    exact ⟨[.convert .intToReal], by simp, .intToReal⟩
  · have hid : Ty.implicitCoercion e a = .identity := by simp [Ty.implicitCoercion, hw]
    rw [hid]
    exact ⟨[], by simp, .keep (by simp [needsWidening_of_not_arrays h, hid])⟩

/-- Lowering a conversion between resolved types succeeds and appends its conversion code,
with labels from the label counter on and slots from the slot counter on. -/
theorem coerce_converts : ∀ (e a : Ty), e.Resolved → a.Resolved → ∀ (st : LowerState),
    Sat (coerce cx e a) st (fun _ st' => ∃ code,
      st'.em.code.toList = st.em.code.toList ++ code ∧ Converts cx.env st.labels st.em.next e a code)
      (fun _ => False)
  | .array dst size, .array src n, hE, hA, st => by
    have hsrc : src.Resolved := hA
    have hdst : dst.Resolved := hE
    simp only [coerce]
    split
    · rename_i hw
      obtain ⟨ks, hks⟩ : ∃ k, ValueKind.of cx.env src = .ok k := ValueKind.of_resolved_ok hsrc
      obtain ⟨kd, hkd⟩ : ∃ k, ValueKind.of cx.env dst = .ok k := ValueKind.of_resolved_ok hdst
      simp only [kind, sat_bind, ValueKind.of_array hsrc hks size, hks, hkd, sat_orFail, sat_note,
        sat_allocate, sat_emit, indexLoop, sat_newLabel]
      -- one element is converted by the conversion one level down, from the state it finds
      refine (coerce_converts dst src hdst hsrc _).mono (fun _ st' h => ?_) (fun _ h => h)
      obtain ⟨inner, hcode, hconv⟩ := h
      refine ⟨WideningCopy.code st.em.next ks kd size st.labels inner, ?_, ?_⟩
      · simp [hcode, WideningCopy.code, IndexLoop.code, slotFor, ValueKind.width]
      · exact .copy hw hks hkd (by simpa [slotFor, ValueKind.width] using hconv)
    · rename_i hw
      exact ⟨[], by simp, .keep (by simpa [Ty.needsWidening] using hw)⟩
  | .prim _, _, _, _, st | .record .., _, _, _, st | .named _, _, _, _, st
  | .array .., .prim _, _, _, st | .array .., .record .., _, _, st
  | .array .., .named _, _, _, st => applyCoercion_converts cx (by simp) st

end Lower

/-! ## Kinds along conversion code -/

/-- A copy's loop turns the source array on top into the new array, whatever lies below, given
that the element's conversion, with labels all past the loop's two, turns the element into its
new kind above the index and the two references to the new array. At the loop's labels the
stack is the new array over the rest. -/
theorem WideningCopy.retypes {base lo : Nat} {ks kd : ValueKind} {n : Int}
    {inner : List Instr} (ksv : ks ≠ .void) (kdv : kd ≠ .void) {S : List ValueKind}
    {Γ₀ : Label → List ValueKind} (later : ∀ l ∈ labelsOf inner ++ targetsOf inner, lo + 2 ≤ l)
    (element : (Shape.live (ks :: .int :: .array kd :: .array kd :: S)).through Γ₀ inner =
      some (.live (kd :: .int :: .array kd :: .array kd :: S))) :
    ∃ Γ, (Shape.live (.array ks :: S)).through Γ (WideningCopy.code base ks kd n lo inner) =
      some (.live (.array kd :: S)) := by
  let Γ : Label → List ValueKind :=
    fun l => if l = lo ∨ l = lo + 1 then .array kd :: S else Γ₀ l
  have inner_run : (Shape.live (ks :: .int :: .array kd :: .array kd :: S)).through Γ inner =
      some (.live (kd :: .int :: .array kd :: .array kd :: S)) := by
    have same : ∀ l ∈ labelsOf inner ++ targetsOf inner, Γ l = Γ₀ l := fun l hl => by
      have := later l hl
      simp only [Γ]
      rw [if_neg (show ¬(l = lo ∨ l = lo + 1) by omega)]
    rw [Shape.through_congr same]
    exact element
  -- the loop's head: the source stored, the new array made, the index set and tested, and
  -- the element loaded
  have head : (Shape.live (.array ks :: S)).through Γ
      [.store base (.array ks), .push (.int n), .newArray kd, .push (.int 0),
        .store (base + 1) .int, .label lo, .load (base + 1) .int, .push (.int n),
        .compareBranch .ge .int (lo + 1), .dup, .load (base + 1) .int,
        .load base (.array ks), .load (base + 1) .int, .arrayLoad ks] =
      some (.live (ks :: .int :: .array kd :: .array kd :: S)) := by
    simp [Γ, Shape.next, Instr.shapeAfter, Shape.pop, Shape.push, Shape.branch, Constant.kind,
      ValueKind.fits, ValueKind.width, ksv]
  -- the element stored, the index stepped, the jump back and the exit
  have tail : (Shape.live (kd :: .int :: .array kd :: .array kd :: S)).through Γ
      [.arrayStore kd, .load (base + 1) .int, .push (.int 1), .arith .add .int,
        .store (base + 1) .int, .jump lo, .label (lo + 1)] =
      some (.live (.array kd :: S)) := by
    simp [Γ, Shape.next, Instr.shapeAfter, Shape.pop, Shape.push, Shape.branch, Constant.kind,
      ValueKind.fits, kdv]
  have split : WideningCopy.code base ks kd n lo inner =
      [.store base (.array ks), .push (.int n), .newArray kd, .push (.int 0),
        .store (base + 1) .int, .label lo, .load (base + 1) .int, .push (.int n),
        .compareBranch .ge .int (lo + 1), .dup, .load (base + 1) .int,
        .load base (.array ks), .load (base + 1) .int, .arrayLoad ks] ++ inner ++
      [.arrayStore kd, .load (base + 1) .int, .push (.int 1), .arith .add .int,
        .store (base + 1) .int, .jump lo, .label (lo + 1)] := by
    simp [WideningCopy.code, IndexLoop.code]
  refine ⟨Γ, ?_⟩
  rw [split, Shape.through_append_of ((Shape.through_append_of head inner).trans inner_run)]
  exact tail

/-- Conversion code between compatible resolved types, run from a stack whose top has the kind
of `actual`, leaves the kind of `expected` there and every kind below as it was. The kinds at
the labels of a copy's loop are the stack with the new array on top; those of a nested copy's
labels come from the level below, whose labels are all later. -/
theorem Converts.retypes {env : TypeEnv} {lo base : Nat} {e a : Ty} {code : List Instr}
    (h : Converts env lo base e a code) (he : e.Resolved) (ha : a.Resolved)
    (hc : e.compatible a = true) {ke ka : ValueKind} (hke : ValueKind.of env e = .ok ke)
    (hka : ValueKind.of env a = .ok ka) (S : List ValueKind) :
    ∃ Γ, (Shape.live (ka :: S)).through Γ code = some (.live (ke :: S)) := by
  induction h generalizing S ke ka with
  | keep same =>
    have := (Ty.kinds_eq_iff he ha hc hke hka).mpr same
    exact ⟨fun _ => [], by simp [this]⟩
  | intToReal =>
    simp only [ValueKind.of_real, ValueKind.of_integer, Except.ok.injEq] at hke hka
    subst hke hka
    exact ⟨fun _ => [], by simp [Shape.next, Instr.shapeAfter, Shape.pop, ValueKind.fits]⟩
  | @copy lo base dst src n m inner ks kd widens hks hkd element ih =>
    have hdst : dst.Resolved := he
    have hsrc : src.Resolved := ha
    simp only [Ty.compatible, Bool.and_eq_true, beq_iff_eq] at hc
    rw [ValueKind.of_array hdst hkd n, Except.ok.injEq] at hke
    rw [ValueKind.of_array hsrc hks m, Except.ok.injEq] at hka
    subst hke hka
    obtain ⟨dv, sv⟩ := Ty.needsWidening_nonVoid widens
    have kdv : kd ≠ .void := ValueKind.ne_void_of hdst dv hkd
    have ksv : ks ≠ .void := ValueKind.ne_void_of hsrc sv hks
    -- one element is converted on top of the index, the new array and its copy kept for the store
    obtain ⟨Γ₀, hΓ₀⟩ := ih hdst hsrc hc.2 hkd hks (.int :: .array kd :: .array kd :: S)
    exact WideningCopy.retypes ksv kdv (fun l hl => element.labels_ge l hl) hΓ₀

/-! ## Conversions keep the kinds below the top -/

/-- Storing a value of type `actual` where type `expected` is wanted, both types as deep
resolution leaves them and `actual` compatible with `expected`: lowering the conversion
succeeds, and the code it appends turns a stack whose top has the kind of `actual` into one
whose top has the kind of `expected`, whatever lies below it, which it leaves as it was, with
consistent kinds at every label of its loops. The code is empty exactly when the two kinds
are the same, which is exactly when the value needs no widening. -/
theorem coercion_retypes_top (cx : LowerCtx) {e₀ a₀ expected actual : Ty}
    (he : e₀.resolveDeep cx.env = .ok expected) (ha : a₀.resolveDeep cx.env = .ok actual)
    (hc : expected.compatible actual = true) (st : LowerState) :
    ∃ ke ka, ValueKind.of cx.env expected = .ok ke ∧ ValueKind.of cx.env actual = .ok ka ∧
      Lower.Sat (Lower.coerce cx expected actual) st (fun _ st' => ∃ code,
        st'.em.code.toList = st.em.code.toList ++ code ∧
        (∀ S, ∃ Γ, (Shape.live (ka :: S)).through Γ code = some (.live (ke :: S))) ∧
        (code = [] ↔ ke = ka) ∧ (ke = ka ↔ expected.needsWidening actual = false))
      (fun _ => False) := by
  have hre := Ty.resolveDeep_resolved he
  have hra := Ty.resolveDeep_resolved ha
  obtain ⟨ke, hke⟩ : ∃ k, ValueKind.of cx.env expected = .ok k := ValueKind.of_resolved_ok hre
  obtain ⟨ka, hka⟩ : ∃ k, ValueKind.of cx.env actual = .ok k := ValueKind.of_resolved_ok hra
  have kinds := Ty.kinds_eq_iff hre hra hc hke hka
  refine ⟨ke, ka, hke, hka, (Lower.coerce_converts cx _ _ hre hra st).mono ?_ fun _ h => h⟩
  rintro _ st' ⟨code, hcode, hconv⟩
  exact ⟨code, hcode, hconv.retypes hre hra hc hke hka, hconv.eq_nil_iff.trans kinds.symm, kinds⟩

/-- An array of two integers stored where an array of two reals is wanted: the copy turns the
kind `int[]` on top of any stack into `real[]`. -/
theorem integer_array_retyped_as_real_array :
    (Ty.array .real 2).resolveDeep [] = .ok (.array .real 2) ∧
    (Ty.array .integer 2).resolveDeep [] = .ok (.array .integer 2) ∧
    (Ty.array .real 2).compatible (.array .integer 2) = true ∧
    ∃ ke ka, ValueKind.of [] (.array .real 2) = .ok ke ∧
      ValueKind.of [] (.array .integer 2) = .ok ka ∧
      Lower.Sat (Lower.coerce ⟨[], [], [], true⟩ (.array .real 2) (.array .integer 2)) default
        (fun _ st' => ∃ code,
          st'.em.code.toList = (default : LowerState).em.code.toList ++ code ∧
          (∀ S, ∃ Γ, (Shape.live (ka :: S)).through Γ code = some (.live (ke :: S))) ∧
          (code = [] ↔ ke = ka) ∧
          (ke = ka ↔ (Ty.array .real 2).needsWidening (.array .integer 2) = false))
        (fun _ => False) :=
  ⟨rfl, rfl, rfl, coercion_retypes_top ⟨[], [], [], true⟩
    (rfl : (Ty.array .real 2).resolveDeep [] = .ok (.array .real 2))
    (rfl : (Ty.array .integer 2).resolveDeep [] = .ok (.array .integer 2)) rfl default⟩

end ImpStack
