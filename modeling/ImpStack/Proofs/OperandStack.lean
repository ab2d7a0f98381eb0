import ImpStack.Proofs.StackDepth
import ImpStack.Proofs.Slots

/-! # The operand stack of lowered constructs

  Every lowering step appends a fragment of code to the routine being lowered. `DepthStep pre
  post s s'` says that the fragment appended from `s` to `s'` is labelled from the labels the
  step allocated and is `Stacked` from `pre` slots above any base to `post` above it. Steps
  one after the other compose, the offsets of their labels pieced together by the ranges the
  labels come from (`DepthStep.trans`).

  The constructs that place labels are put together instruction by instruction around the
  fragments of their parts: the select that makes a boolean, the short circuit of `and` and
  `or`, the index loop, `if`, `while` and the counting loop. Each lemma says at which offsets
  the construct's labels sit: where the stack stands when control jumps there.

  The lowering steps that need no typing follow. A conversion takes the slots of the value it
  converts and leaves those of its result (`applyCoercion_stacks`); `coerce` does so between
  types it converts without a change of width other than widening an integer
  (`Ty.Convertible`), copying arrays element by element where their elements widen; and a
  fresh value of a type is one value of that type's kind (`freshValue_stacks`).
-/

namespace ImpStack

/-! ## Offsets pieced together -/

/-- Offsets matter only on the labels of a labelled fragment, which lie in its range. -/
theorem Stacked.within {δ δ' : Label → Nat} {p q lo hi : Nat} {X : List Instr}
    (h : Stacked δ p q X) (hX : Labelled lo hi X) (hδ : ∀ l, lo ≤ l → l < hi → δ' l = δ l) :
    Stacked δ' p q X := by
  refine h.congr fun l hl => ?_
  have hl' : l ∈ labelsOf X := by
    rcases List.mem_append.mp hl with h | h
    · exact h
    · exact hX.closed l h
  obtain ⟨h₁, h₂⟩ := hX.drawn l hl'
  exact hδ l h₁ h₂

/-- Offsets for a construct whose own labels `a` and `a + 1` come before the labels of its
one part: a map giving its labels their offsets and agreeing with the part's. -/
theorem offsets₁ {X : List Instr} {a hi p q : Nat} {δX : Label → Nat}
    (lX : Labelled (a + 1 + 1) hi X) (sX : Stacked δX p q X) (v w : Nat) :
    ∃ δ : Label → Nat, δ a = v ∧ δ (a + 1) = w ∧ Stacked δ p q X := by
  refine ⟨fun l => if l = a then v else if l = a + 1 then w else δX l, by simp, by simp,
    sX.within lX fun l h _ => ?_⟩
  simp [show l ≠ a by omega, show l ≠ a + 1 by omega]

/-- Offsets for a construct with its own labels `a` and `a + 1` and two parts labelled from the
ranges after them. -/
theorem offsets₂ {X Y : List Instr} {a m hi p q p' q' : Nat} {δX δY : Label → Nat}
    (lX : Labelled (a + 1 + 1) m X) (lY : Labelled m hi Y) (hm : a + 1 + 1 ≤ m)
    (sX : Stacked δX p q X) (sY : Stacked δY p' q' Y) (v w : Nat) :
    ∃ δ : Label → Nat, δ a = v ∧ δ (a + 1) = w ∧ Stacked δ p q X ∧ Stacked δ p' q' Y := by
  refine ⟨fun l => if l = a then v else if l = a + 1 then w else if l < m then δX l else δY l,
    by simp, by simp, sX.within lX fun l h h' => ?_, sY.within lY fun l h _ => ?_⟩
  · simp [show l ≠ a by omega, show l ≠ a + 1 by omega, h']
  · simp [show l ≠ a by omega, show l ≠ a + 1 by omega, show ¬ l < m by omega]

/-- Offsets for a construct with its own labels `a` and `a + 1` and three parts labelled from
the ranges after them. -/
theorem offsets₃ {X Y Z : List Instr} {a m₁ m₂ hi p q p' q' p'' q'' : Nat}
    {δX δY δZ : Label → Nat} (lX : Labelled (a + 1 + 1) m₁ X) (lY : Labelled m₁ m₂ Y)
    (lZ : Labelled m₂ hi Z) (h₁ : a + 1 + 1 ≤ m₁) (h₂ : m₁ ≤ m₂) (sX : Stacked δX p q X)
    (sY : Stacked δY p' q' Y) (sZ : Stacked δZ p'' q'' Z) (v w : Nat) :
    ∃ δ : Label → Nat, δ a = v ∧ δ (a + 1) = w ∧ Stacked δ p q X ∧ Stacked δ p' q' Y ∧
      Stacked δ p'' q'' Z := by
  obtain ⟨δ, hv, hw, hX, hY⟩ := offsets₂ lX lY h₁ sX sY v w
  refine ⟨fun l => if l < m₂ then δ l else δZ l, (if_pos (by omega : a < m₂)).trans hv,
    (if_pos (by omega : a + 1 < m₂)).trans hw,
    hX.within lX fun l _ h => ?_, hY.within lY fun l _ h => ?_, sZ.within lZ fun l h _ => ?_⟩
  · simp [show l < m₂ by omega]
  · simp [h]
  · simp [show ¬ l < m₂ by omega]

/-! ## Constructs put together -/

namespace Stacked

variable {δ : Label → Nat}

/-- The select a boolean is made by, above `k` slots: a conditional jump `i` to the label `a`
that pushes one value, and a jump over that label from the code that pushes the other. -/
theorem select {i : Instr} {a b : Label} (hd : i.defines = []) (ht : i.targets = [a])
    (hf : i.fallsThrough = true) (hp : i.stackEffect.2 = 0) (x y : Bool) {k : Nat}
    (ha : δ a = k) (hb : δ b = k + 1) :
    Stacked δ (k + i.stackEffect.1) (k + 1)
      [i, .push (.bool x), .jump b, .label a, .push (.bool y), .label b] := by
  have h₁ : Stacked δ (k + i.stackEffect.1) k [i] := by
    have h := branch (δ := δ) hd ht hf ha
    rwa [hp] at h
  have h₂ : Stacked δ k (k + 1) [.push (.bool x)] := plain rfl rfl rfl k
  have h₃ : Stacked δ (k + 1) k [.jump b] := jump hb (Nat.le_succ k)
  have h₄ : Stacked δ k (k + 1) [.push (.bool y)] := plain rfl rfl rfl k
  exact h₁.append (h₂.append (h₃.append ((label ha).append (h₄.append (label hb)))))

/-- The short circuit of `and` and `or` above `k` slots: each operand jumps to the label `a`
that pushes the deciding value `v` when it decides; else the other value is pushed and control
jumps to the end `b`. -/
theorem shortCircuit {L R : List Instr} {c : Condition} {v : Bool} {a b : Label} {k : Nat}
    (hL : Stacked δ k (k + 1) L) (hR : Stacked δ k (k + 1) R) (ha : δ a = k) (hb : δ b = k + 1) :
    Stacked δ k (k + 1) (L ++ [.branchZero c a] ++ R ++
      [.branchZero c a, .push (.bool !v), .jump b, .label a, .push (.bool v), .label b]) := by
  have h₁ : Stacked δ (k + 1) k [.branchZero c a] := branch rfl rfl rfl ha
  exact ((hL.append h₁).append hR).append (select rfl rfl rfl rfl (!v) v ha hb)

/-- A loop over the indices of an array above `k` slots: the counter is compared with the size
at the start label `a`, the body runs, the counter steps and control jumps back; the loop
leaves at `b`. -/
theorem indexLoop {B : List Instr} {slot : Nat} {size : Int} {a b : Label} {k : Nat}
    (hB : Stacked δ k k B) (ha : δ a = k) (hb : δ b = k) :
    Stacked δ k k ([.push (.int 0), .store slot .int, .label a, .load slot .int,
      .push (.int size), .compareBranch .ge .int b] ++ B ++
      [.load slot .int, .push (.int 1), .arith .add .int, .store slot .int, .jump a,
        .label b]) := by
  have test : Stacked δ k k [.push (.int 0), .store slot .int, .label a, .load slot .int,
      .push (.int size), .compareBranch .ge .int b] :=
    (plain (δ := δ) (i := .push (.int 0)) rfl rfl rfl k).append
      ((plain (i := .store slot .int) rfl rfl rfl k).append ((label ha).append
        ((plain (i := .load slot .int) rfl rfl rfl k).append
          ((plain (i := .push (.int size)) rfl rfl rfl (k + 1)).append
            (branch (i := .compareBranch .ge .int b) rfl rfl rfl hb)))))
  have step : Stacked δ k k [.load slot .int, .push (.int 1), .arith .add .int,
      .store slot .int, .jump a, .label b] :=
    (plain (δ := δ) (i := .load slot .int) rfl rfl rfl k).append
      ((plain (i := .push (.int 1)) rfl rfl rfl (k + 1)).append
        ((plain (i := .arith .add .int) rfl rfl rfl k).append
          ((plain (i := .store slot .int) rfl rfl rfl k).append
            ((jump ha (Nat.le_refl k)).append (label hb)))))
  exact (test.append hB).append step

/-- A `while` loop: the condition is computed at the start label `a`, a false one jumps to the
stop label `b`, and the body jumps back. -/
theorem whileLoop {C B : List Instr} {a b : Label} (hC : Stacked δ 0 1 C) (hB : Stacked δ 0 0 B)
    (ha : δ a = 0) (hb : δ b = 0) :
    Stacked δ 0 0 ([.label a] ++ C ++ [.branchZero .eq b] ++ B ++ [.jump a, .label b]) :=
  ((((label ha).append hC).append (branch (i := .branchZero .eq b) rfl rfl rfl hb)).append
    hB).append
    ((jump ha (Nat.le_refl 0)).append (label hb))

/-- A counting loop over the counter in `slot`: at the start label `a` the counter is compared
with the bound `E` computes, leaving for `b` when it is past; the body runs and the counter
steps before the jump back. -/
theorem countingLoop {E B : List Instr} {slot : Nat} {c : Condition} {step : ArithOp}
    {a b : Label} (hE : Stacked δ 1 2 E) (hB : Stacked δ 0 0 B) (ha : δ a = 0) (hb : δ b = 0) :
    Stacked δ 0 0 ([.label a, .load slot .int] ++ E ++ [.compareBranch c .int b] ++ B ++
      [.load slot .int, .push (.int 1), .arith step .int, .store slot .int, .jump a,
        .label b]) := by
  have start : Stacked δ 0 1 [.label a, .load slot .int] :=
    (label ha).append (plain (i := .load slot .int) rfl rfl rfl 0)
  have step : Stacked δ 0 0 [.load slot .int, .push (.int 1), .arith step .int,
      .store slot .int, .jump a, .label b] :=
    (plain (δ := δ) (i := .load slot .int) rfl rfl rfl 0).append
      ((plain (i := .push (.int 1)) rfl rfl rfl 1).append
        ((plain (i := .arith step .int) rfl rfl rfl 0).append
          ((plain (i := .store slot .int) rfl rfl rfl 0).append
            ((jump ha (Nat.le_refl 0)).append (label hb)))))
  exact (((start.append hE).append (branch (i := .compareBranch c .int b) rfl rfl rfl hb)).append
    hB).append step

/-- An `if`: a false condition jumps to the else label `a`; the then branch jumps over the else
branch to the end label `b` unless it ends in a return, and the end label is placed unless
both branches end in one. -/
theorem branchIf {C T E : List Instr} {a b : Label} (b₁ b₂ : Bool) (hC : Stacked δ 0 1 C)
    (hT : Stacked δ 0 0 T) (hE : Stacked δ 0 0 E) (ha : δ a = 0) (hb : δ b = 0) :
    Stacked δ 0 0 ([] ++ C ++ [.branchZero .eq a] ++ T ++
      ((if !b₁ then [.jump b] else []) ++ [.label a]) ++ E ++
      (if !b₁ || !b₂ then [.label b] else [])) := by
  have pass : Stacked δ 0 0 (if !b₁ then [.jump b] else []) := by
    split
    · exact jump hb (Nat.le_refl 0)
    · exact nil δ 0
  have last : Stacked δ 0 0 (if !b₁ || !b₂ then [.label b] else []) := by
    split
    · exact label hb
    · exact nil δ 0
  exact (((((nil δ 0).append hC).append (branch (i := .branchZero .eq a) rfl rfl rfl ha)).append
    hT).append
    (pass.append (label ha))).append hE |>.append last

end Stacked

/-! ## Widths of types -/

/-- The operand slots a value of a resolved type takes: two for a real, none for void and one
for every other, arrays and records being references. -/
def Ty.slots : Ty → Nat
  | .prim .real => 2
  | .prim .void => 0
  | _ => 1

@[simp] theorem Ty.slots_integer : Ty.integer.slots = 1 := rfl
@[simp] theorem Ty.slots_real : Ty.real.slots = 2 := rfl
@[simp] theorem Ty.slots_boolean : Ty.boolean.slots = 1 := rfl
@[simp] theorem Ty.slots_array (e : Ty) (n : Int) : (Ty.array e n).slots = 1 := rfl
@[simp] theorem Ty.slots_record (n : String) (fs : List (String × Ty)) :
    (Ty.record n fs).slots = 1 := rfl

theorem ValueKind.width_ofResolved : ∀ {t : Ty} {k : ValueKind}, ofResolved t = .ok k →
    k.width = t.slots
  | .prim p, k, h => by cases p <;> simp only [ofResolved, Except.ok.injEq] at h <;> subst h <;> rfl
  | .array e n, k, h => by
    simp only [ofResolved] at h
    cases he : ofResolved e <;> simp [he, Functor.map, Except.map] at h
    subst h; rfl
  | .record n fs, k, h => by simp only [ofResolved, Except.ok.injEq] at h; subst h; rfl
  | .named n, k, h => by simp [ofResolved] at h

/-- The kind lowering gives a resolved type is as wide as the type's slots. -/
theorem ValueKind.width_of {env : TypeEnv} {t : Ty} {k : ValueKind} (ht : t.Resolved)
    (h : of env t = .ok k) : k.width = t.slots := by
  rw [of_resolved ht] at h
  exact width_ofResolved h

/-- The slots a conversion takes and leaves: the identity any width it is given, the others
between a real's two slots and the one of an integer or a boolean. -/
def Coercion.Fits : Coercion → Nat → Nat → Prop
  | .identity, w, w' => w = w'
  | .intToReal, w, w' | .boolToReal, w, w' => w = 1 ∧ w' = 2
  | .realToInt, w, w' | .realToBool, w, w' => w = 2 ∧ w' = 1
  | .boolToInt, w, w' | .intToBool, w, w' => w = 1 ∧ w' = 1

/-- An explicit conversion fits the types it converts between. -/
theorem Ty.coercion_fits {S T : Ty} {c : Coercion} (h : Ty.coercion S T = some c) :
    c.Fits S.slots T.slots := by
  unfold Ty.coercion at h
  split at h
  · next same =>
    cases h
    rw [Ty.eq_of_beq same]
    exact rfl
  · -- the other conversions go between two primitive types
    cases S with
    | prim p =>
      cases T with
      | prim q =>
        cases p <;> cases q <;> simp [Ty.asPrim?] at h <;> subst h <;>
          simp [Coercion.Fits, Ty.slots]
      | _ => simp [Ty.asPrim?] at h
    | _ => simp [Ty.asPrim?] at h

/-- The implicit conversion between compatible types that are not two arrays fits them: an
integer widens to a real, and any other compatible pair has one width. -/
theorem Ty.implicitCoercion_fits {E A : Ty} (hc : Ty.compatible E A = true)
    (arrays : ∀ d n s m, E = .array d n → A = .array s m → False) :
    (Ty.implicitCoercion E A).Fits A.slots E.slots := by
  unfold Ty.implicitCoercion
  split
  · next widen =>
    simp only [Bool.and_eq_true, Ty.isReal_iff, Ty.isInteger_iff] at widen
    rw [widen.1, widen.2]
    exact ⟨rfl, rfl⟩
  · next same =>
    show A.slots = E.slots
    cases E with
    | prim e =>
      cases A with
      | prim a =>
        simp only [Ty.compatible, Bool.or_eq_true, beq_iff_eq, Bool.and_eq_true] at hc
        rcases hc with rfl | ⟨rfl, rfl⟩
        · rfl
        · exact absurd rfl same
      | _ => simp [Ty.compatible, Ty.recordName?] at hc
    | array d n =>
      cases A with
      | array s m => exact (arrays d n s m rfl rfl).elim
      | _ => simp [Ty.compatible, Ty.recordName?] at hc
    | record | named => cases A <;> simp_all [Ty.compatible, Ty.recordName?, Ty.slots]

/-! ## Lowering steps -/

namespace Lower

/-- A lowering step from `s` to `s'` appended a fragment labelled from the labels it allocated,
taking the stack from `pre` slots above any base to `post` above it. -/
structure DepthStep (pre post : Nat) (s s' : LowerState) : Prop where
  counter : s.labels ≤ s'.labels
  code : ∃ new, s'.em.code.toList = s.em.code.toList ++ new ∧ Labelled s.labels s'.labels new ∧
    ∃ δ, Stacked δ pre post new

namespace DepthStep

variable {p q m : Nat} {s s₁ s₂ s₃ : LowerState}

theorem refl (p : Nat) (s : LowerState) : DepthStep p p s s :=
  ⟨Nat.le_refl _, [], by simp, Labelled.nil _ _, fun _ => 0, Stacked.nil _ p⟩

/-- Steps one after the other: the first fragment's labels lie below the second's, so their
offsets piece together at the counter between them. -/
theorem trans (h₁ : DepthStep p m s₁ s₂) (h₂ : DepthStep m q s₂ s₃) : DepthStep p q s₁ s₃ := by
  obtain ⟨c₁, X, e₁, l₁, δ₁, k₁⟩ := h₁
  obtain ⟨c₂, Y, e₂, l₂, δ₂, k₂⟩ := h₂
  refine ⟨Nat.le_trans c₁ c₂, X ++ Y, by rw [e₂, e₁, List.append_assoc], l₁.append l₂ c₁ c₂,
    fun l => if l < s₂.labels then δ₁ l else δ₂ l, ?_⟩
  exact (k₁.within l₁ fun l _ h => by simp [h]).append
    (k₂.within l₂ fun l h _ => by simp [show ¬ l < s₂.labels by omega])

theorem cast {p' q' : Nat} (h : DepthStep p q s₁ s₂) (hp : p = p') (hq : q = q') :
    DepthStep p' q' s₁ s₂ :=
  hp ▸ hq ▸ h

theorem lift (h : DepthStep p q s₁ s₂) (k : Nat) : DepthStep (p + k) (q + k) s₁ s₂ := by
  obtain ⟨c, X, e, l, δ, hX⟩ := h
  exact ⟨c, X, e, l, _, hX.lift k⟩

/-- A step that appends no code. -/
theorem quiet (p : Nat) (hc : s₁.labels ≤ s₂.labels) (he : s₂.em.code = s₁.em.code) :
    DepthStep p p s₁ s₂ :=
  ⟨hc, [], by simp [he], Labelled.nil _ _, fun _ => 0, Stacked.nil _ p⟩

/-- A step reads only the labels and the code of the state it ends in. -/
theorem congr_end {s₂' : LowerState} (h : DepthStep p q s₁ s₂) (hl : s₂'.labels = s₂.labels)
    (hc : s₂'.em.code = s₂.em.code) : DepthStep p q s₁ s₂' := by
  obtain ⟨c, X, e, l, δ, hX⟩ := h
  exact ⟨hl ▸ c, X, by rw [hc, e], hl ▸ l, δ, hX⟩

/-- Appending one instruction that neither defines nor jumps to a label and lets control fall
through, above `k` slots. -/
theorem plain {i : Instr} (hd : i.defines = []) (ht : i.targets = []) (hf : i.fallsThrough = true)
    (k : Nat) (s : LowerState) :
    DepthStep (k + i.stackEffect.1) (k + i.stackEffect.2) s
      { s with em := { s.em with code := s.em.code.push i } } :=
  ⟨Nat.le_refl _, [i], by simp, Labelled.plain (by simp [hd]) (by simp [ht]), fun _ => 0,
    Stacked.plain hd ht hf k⟩

/-- Appending a return of a value of kind `kind` from above `k` slots. -/
theorem ret (kind : ValueKind) (k : Nat) (s : LowerState) :
    DepthStep (k + kind.width) k s { s with em := { s.em with code := s.em.code.push (.ret kind) } } :=
  ⟨Nat.le_refl _, [.ret kind], by simp, Labelled.plain (by simp [Instr.defines])
    (by simp [Instr.targets]), fun _ => 0, Stacked.ret kind k⟩

/-- The return a routine's lowering adds when its body may end without one. -/
theorem retWhen {s s' : LowerState} (c : Bool) (hl : s'.labels = s.labels)
    (hc : s'.em.code.toList = s.em.code.toList ++ (if c then [.ret .void] else [])) :
    DepthStep 0 0 s s' := by
  cases c
  · exact quiet 0 (Nat.le_of_eq hl.symm) (Array.toList_inj.mp (by simpa using hc))
  · exact (ret .void 0 s).congr_end hl (Array.toList_inj.mp (by simpa using hc))

/-- Code built by steps from no code and no slots keeps every path within the bound of its
linear scan. -/
theorem stackSafe (h : DepthStep 0 q s₁ s₂) (he : s₁.em.code = #[]) :
    StackSafe s₂.em.code.toList (maxStackDepth s₂.em.code.toList) := by
  obtain ⟨-, X, e, -, δ, hX⟩ := h
  rw [e, he, Array.toList_empty, List.nil_append]
  exact hX.stackSafe

end DepthStep

/-! ## Constructs as steps

  A construct allocates two labels, emits its own instructions around the fragments its parts
  append, and places its labels where the stack stands when control jumps there. Each lemma
  below takes the steps of a construct's parts, with what the construct emits between them,
  and gives the step of the whole construct. -/

namespace DepthStep

/-- The select a boolean is made by, above `k` slots: a conditional jump `i` to the first of two
fresh labels, where `true` is pushed, with `false` pushed on the way past it. -/
theorem select {s s' : LowerState} {i : Instr}
    (h' : s'.labels = s.labels + 1 + 1 ∧ s'.em.code = (((((s.em.code.push i).push
      (.push (.bool false))).push (.jump (s.labels + 1))).push (.label s.labels)).push
      (.push (.bool true))).push (.label (s.labels + 1)))
    (hd : i.defines = []) (ht : i.targets = [s.labels]) (hf : i.fallsThrough = true)
    (hp : i.stackEffect.2 = 0) (k : Nat) : DepthStep (k + i.stackEffect.1) (k + 1) s s' := by
  refine ⟨by omega, _, by simp [h'.2], h'.1 ▸ Labelled.select i hd ht, ?_⟩
  exact ⟨_, Stacked.select (δ := fun l => if l = s.labels then k else k + 1) hd ht hf hp
    false true (by simp) (by simp)⟩

/-- The short circuit of `and` and `or` above `k` slots, from the steps of its operands. -/
theorem shortCircuit {s s₀ s₁ s₂ s₃ s' : LowerState} {c : Condition} {v : Bool} {k : Nat}
    (d₁ : DepthStep k (k + 1) s₀ s₁) (d₂ : DepthStep k (k + 1) s₂ s₃)
    (h₀ : s₀.labels = s.labels + 1 + 1 ∧ s₀.em.code = s.em.code)
    (h₂ : s₂.labels = s₁.labels ∧ s₂.em.code = s₁.em.code.push (.branchZero c s.labels))
    (h' : s'.labels = s₃.labels ∧ s'.em.code = (((((s₃.em.code.push (.branchZero c s.labels)).push
      (.push (.bool !v))).push (.jump (s.labels + 1))).push (.label s.labels)).push
      (.push (.bool v))).push (.label (s.labels + 1))) :
    DepthStep k (k + 1) s s' := by
  obtain ⟨c₁, X, e₁, l₁, δX, sX⟩ := d₁
  obtain ⟨c₂, Y, e₂, l₂, δY, sY⟩ := d₂
  rw [h₀.1] at c₁ l₁
  rw [h₂.1] at c₂ l₂
  have skeleton : Labelled s.labels (s.labels + 1 + 1) ([] ++ [.branchZero c s.labels] ++
      [.branchZero c s.labels, .push (.bool !v), .jump (s.labels + 1), .label s.labels,
        .push (.bool v), .label (s.labels + 1)]) :=
    Labelled.skeleton (by simp [Instr.defines]) (by simp [Instr.defines])
      (by simp [Instr.defines, Instr.targets])
  -- the operands' fragments get their offsets, the construct's labels theirs
  obtain ⟨δ, ha, hb, sX', sY'⟩ := offsets₂ l₁ l₂ c₁ sX sY k (k + 1)
  refine ⟨by omega, _, ?_, h'.1 ▸ skeleton.frame₂ l₁ l₂ (by omega) c₁ c₂, δ,
    Stacked.shortCircuit sX' sY' ha hb⟩
  simp only [h'.2, Array.toList_push, e₂, h₂.2, e₁, h₀.2]
  simp

/-- A `while` loop, from the steps of its condition and its body. -/
theorem whileLoop {s s₀ s₁ s₂ s₃ s' : LowerState}
    (d₁ : DepthStep 0 1 s₀ s₁) (d₂ : DepthStep 0 0 s₂ s₃)
    (h₀ : s₀.labels = s.labels + 1 + 1 ∧ s₀.em.code.toList = s.em.code.toList ++ [.label s.labels])
    (h₂ : s₂.labels = s₁.labels ∧
      s₂.em.code.toList = s₁.em.code.toList ++ [.branchZero .eq (s.labels + 1)])
    (h' : s'.labels = s₃.labels ∧
      s'.em.code.toList = s₃.em.code.toList ++ [.jump s.labels, .label (s.labels + 1)]) :
    DepthStep 0 0 s s' := by
  obtain ⟨c₁, X, e₁, l₁, δX, sX⟩ := d₁
  obtain ⟨c₂, Y, e₂, l₂, δY, sY⟩ := d₂
  rw [h₀.1] at c₁ l₁
  rw [h₂.1] at c₂ l₂
  have skeleton : Labelled s.labels (s.labels + 1 + 1) ([.label s.labels] ++
      [.branchZero .eq (s.labels + 1)] ++ [.jump s.labels, .label (s.labels + 1)]) :=
    Labelled.skeleton (by simp [Instr.defines]) (by simp [Instr.defines])
      (by simp [Instr.defines, Instr.targets])
  -- control comes back to the start, and leaves the loop, with nothing on the stack
  obtain ⟨δ, ha, hb, sX', sY'⟩ := offsets₂ l₁ l₂ c₁ sX sY 0 0
  refine ⟨by omega, _, ?_, h'.1 ▸ skeleton.frame₂ l₁ l₂ (by omega) c₁ c₂, δ,
    Stacked.whileLoop sX' sY' ha hb⟩
  rw [h'.2, e₂, h₂.2, e₁, h₀.2]
  simp

/-- A counting loop over the counter in `slot`, from the steps of its bound, which it computes
above a copy of the counter, and of its body. -/
theorem countingLoop {s s₀ s₁ s₂ s₃ s' : LowerState} {slot : Nat} {c : Condition}
    {step : ArithOp}
    (d₁ : DepthStep 1 2 s₀ s₁) (d₂ : DepthStep 0 0 s₂ s₃)
    (h₀ : s₀.labels = s.labels + 1 + 1 ∧
      s₀.em.code.toList = s.em.code.toList ++ [.label s.labels, .load slot .int])
    (h₂ : s₂.labels = s₁.labels ∧
      s₂.em.code = s₁.em.code.push (.compareBranch c .int (s.labels + 1)))
    (h' : s'.labels = s₃.labels ∧ s'.em.code = (((((s₃.em.code.push (.load slot .int)).push
      (.push (.int 1))).push (.arith step .int)).push (.store slot .int)).push
      (.jump s.labels)).push (.label (s.labels + 1))) :
    DepthStep 0 0 s s' := by
  obtain ⟨c₁, X, e₁, l₁, δX, sX⟩ := d₁
  obtain ⟨c₂, Y, e₂, l₂, δY, sY⟩ := d₂
  rw [h₀.1] at c₁ l₁
  rw [h₂.1] at c₂ l₂
  have skeleton : Labelled s.labels (s.labels + 1 + 1) ([.label s.labels, .load slot .int] ++
      [.compareBranch c .int (s.labels + 1)] ++ [.load slot .int, .push (.int 1),
        .arith step .int, .store slot .int, .jump s.labels, .label (s.labels + 1)]) :=
    Labelled.skeleton (by simp [Instr.defines]) (by simp [Instr.defines])
      (by simp [Instr.defines, Instr.targets])
  obtain ⟨δ, ha, hb, sX', sY'⟩ := offsets₂ l₁ l₂ c₁ sX sY 0 0
  refine ⟨by omega, _, ?_, h'.1 ▸ skeleton.frame₂ l₁ l₂ (by omega) c₁ c₂, δ,
    Stacked.countingLoop sX' sY' ha hb⟩
  simp only [h'.2, Array.toList_push, e₂, h₂.2, e₁, h₀.2]
  simp

/-- An `if`, from the steps of its condition and its two branches; `b₁` and `b₂` say whether
the branches end in a return. -/
theorem branchIf {s s₀ s₁ s₂ s₃ s₄ s₅ s' : LowerState} (b₁ b₂ : Bool)
    (d₁ : DepthStep 0 1 s₀ s₁) (d₂ : DepthStep 0 0 s₂ s₃) (d₃ : DepthStep 0 0 s₄ s₅)
    (h₀ : s₀.labels = s.labels + 1 + 1 ∧ s₀.em.code = s.em.code)
    (h₂ : s₂.labels = s₁.labels ∧
      s₂.em.code.toList = s₁.em.code.toList ++ [.branchZero .eq s.labels])
    (h₄ : s₄.labels = s₃.labels ∧ s₄.em.code.toList = s₃.em.code.toList ++
      ((if !b₁ then [.jump (s.labels + 1)] else []) ++ [.label s.labels]))
    (h' : s'.labels = s₅.labels ∧ s'.em.code.toList = s₅.em.code.toList ++
      (if !b₁ || !b₂ then [.label (s.labels + 1)] else [])) :
    DepthStep 0 0 s s' := by
  obtain ⟨c₁, X, e₁, l₁, δX, sX⟩ := d₁
  obtain ⟨c₂, Y, e₂, l₂, δY, sY⟩ := d₂
  obtain ⟨c₃, Z, e₃, l₃, δZ, sZ⟩ := d₃
  rw [h₀.1] at c₁ l₁
  rw [h₂.1] at c₂ l₂
  rw [h₄.1] at c₃ l₃
  -- the end label is there whenever a jump to it is
  have skeleton : Labelled s.labels (s.labels + 1 + 1) ([] ++ [.branchZero .eq s.labels] ++
      ((if !b₁ then [.jump (s.labels + 1)] else []) ++ [.label s.labels]) ++
      (if !b₁ || !b₂ then [.label (s.labels + 1)] else [])) := by
    cases b₁ <;> cases b₂ <;>
      exact Labelled.skeleton (by simp [Instr.defines]) (by simp [Instr.defines])
        (by simp [Instr.defines, Instr.targets])
  obtain ⟨δ, ha, hb, sX', sY', sZ'⟩ := offsets₃ l₁ l₂ l₃ c₁ c₂ sX sY sZ 0 0
  refine ⟨by omega, _, ?_, h'.1 ▸ skeleton.frame₃ l₁ l₂ l₃ (by omega) c₁ c₂ c₃, δ,
    Stacked.branchIf b₁ b₂ sX' sY' sZ' ha hb⟩
  rw [h'.2, e₃, h₄.2, e₂, h₂.2, e₁, h₀.2]
  simp

end DepthStep

/-- Every successful run of `m` is a depth step from `pre` slots to `post`. -/
def Stacks {α : Type} (pre post : Nat) (m : LowerM α) : Prop :=
  ∀ s, Sat m s (fun _ s' => DepthStep pre post s s') (fun _ => True)

namespace Stacks

variable {α β : Type} {p q m : Nat}

theorem bind {ma : LowerM α} {f : α → LowerM β} (hm : Stacks p m ma)
    (hf : ∀ a, Stacks m q (f a)) : Stacks p q (ma >>= f) := by
  intro s
  rw [sat_bind]
  exact (hm s).mono (fun a s₁ h₁ => (hf a s₁).mono (fun _ _ h₂ => h₁.trans h₂) fun _ h => h)
    fun _ h => h

theorem pure (a : α) (p : Nat) : Stacks p p (Pure.pure a : LowerM α) :=
  fun s => DepthStep.refl p s

theorem throw (e : Error) (p q : Nat) : Stacks p q (MonadExcept.throw e : LowerM α) :=
  fun _ => trivial

theorem lift {ma : LowerM α} (h : Stacks p q ma) (k : Nat) : Stacks (p + k) (q + k) ma :=
  fun s => (h s).mono (fun _ _ h => h.lift k) fun _ h => h

theorem congr {p' q' : Nat} {ma : LowerM α} (h : Stacks p q ma) (hp : p = p') (hq : q = q') :
    Stacks p' q' ma :=
  hp ▸ hq ▸ h

/-- A step that leaves the code and the labels alone. -/
theorem update (p : Nat) {f : LowerState → LowerState} (hl : ∀ s, (f s).labels = s.labels)
    (hc : ∀ s, (f s).em.code = s.em.code) : Stacks p p (modify f : LowerM Unit) :=
  fun s => DepthStep.quiet p (Nat.le_of_eq (hl s).symm) (hc s)

theorem emit {i : Instr} (hd : i.defines = []) (ht : i.targets = []) (hf : i.fallsThrough = true)
    (k : Nat) : Stacks (k + i.stackEffect.1) (k + i.stackEffect.2) (Lower.emit i) :=
  fun s => DepthStep.plain hd ht hf k s

/-- An instruction whose effect is known to pop `a` slots and push `b`. -/
theorem emit_of {i : Instr} (hd : i.defines = []) (ht : i.targets = []) (hf : i.fallsThrough = true)
    {a b : Nat} (he : i.stackEffect = (a, b)) (k : Nat) : Stacks (k + a) (k + b) (Lower.emit i) :=
  (emit hd ht hf k).congr (by rw [he]) (by rw [he])

theorem note (level : Level) (message : String) (p : Nat) : Stacks p p (Lower.note level message) :=
  update p (fun _ => rfl) fun _ => rfl

theorem emitter (p : Nat) : Stacks p p Lower.emitter := fun s => DepthStep.refl p s

theorem newLabel (p : Nat) : Stacks p p Lower.newLabel := by
  intro s
  rw [sat_newLabel]
  exact DepthStep.quiet p (Nat.le_succ s.labels) rfl

theorem allocate (aw : Bool) (width p : Nat) : Stacks p p (Lower.allocate aw width) := by
  intro s
  rw [sat_allocate]
  exact DepthStep.quiet p (Nat.le_refl s.labels) rfl

theorem bindLocal (name : String) (l : Local) (p : Nat) : Stacks p p (Lower.bindLocal name l) :=
  update p (fun _ => rfl) fun _ => rfl

theorem declareLocal (aw : Bool) (name : String) (ty : Ty) (kind : ValueKind) (p : Nat) :
    Stacks p p (Lower.declareLocal aw name ty kind) :=
  bind (allocate _ _ p) fun _ => bind (bindLocal _ _ p) fun _ => pure _ p

theorem enterScope (p : Nat) : Stacks p p Lower.enterScope := update p (fun _ => rfl) fun _ => rfl

theorem exitScope (p : Nat) : Stacks p p Lower.exitScope := update p (fun _ => rfl) fun _ => rfl

/-- A step whose result is known to come from `x`, which has to succeed. -/
theorem bind_orFail {x : Except Error α} {f : α → LowerM β} (hf : ∀ a, x = .ok a → Stacks p q (f a)) :
    Stacks p q (Lower.orFail x >>= f) := by
  intro s
  rw [sat_bind]
  cases hx : x with
  | error e => trivial
  | ok a => exact hf a hx s

theorem bind_kind (cx : LowerCtx) (t : Ty) {f : ValueKind → LowerM β}
    (hf : ∀ k, ValueKind.of cx.env t = .ok k → Stacks p q (f k)) : Stacks p q (kind cx t >>= f) :=
  bind_orFail hf

theorem bind_resolve (cx : LowerCtx) (t : Ty) {f : Ty → LowerM β}
    (hf : ∀ r, resolveIn cx.env t = .ok r → Stacks p q (f r)) : Stacks p q (resolve cx t >>= f) :=
  bind_orFail hf

/-- A loop whose every step keeps the depth. -/
theorem forIn {γ : Type} {xs : List γ} {init : β} {f : γ → β → LowerM (ForInStep β)}
    (hf : ∀ x ∈ xs, ∀ b, Stacks p p (f x b)) : Stacks p p (ForIn.forIn xs init f) := by
  induction xs generalizing init with
  | nil => exact pure _ p
  | cons x xs ih =>
    rw [List.forIn_cons]
    refine bind (hf x List.mem_cons_self init) fun step => ?_
    cases step with
    | done b => exact pure b p
    | yield b => exact ih (fun y hy => hf y (List.mem_cons_of_mem _ hy))

end Stacks

/-! ## Steps that need no typing -/

theorem boolSelect_stacks (c : Condition) (k : Nat) : Stacks (k + 1) (k + 1) (boolSelect c) := by
  intro s
  simp only [boolSelect, sat_bind, sat_newLabel, sat_emit]
  exact DepthStep.select (i := .branchZero c s.labels) ⟨rfl, rfl⟩ rfl rfl rfl rfl k

theorem loadPlace_stacks (p : Place) (k : Nat) : Stacks k (k + p.kind.width) (loadPlace p) := by
  cases p with
  | inSlot l => exact Stacks.emit_of rfl rfl rfl (a := 0) (b := l.kind.width) rfl k
  | inGlobal n t kind => exact Stacks.emit_of rfl rfl rfl (a := 0) (b := kind.width) rfl k

theorem storePlace_stacks (p : Place) (k : Nat) : Stacks (k + p.kind.width) k (storePlace p) := by
  cases p with
  | inSlot l => exact Stacks.emit_of rfl rfl rfl (a := l.kind.width) (b := 0) rfl k
  | inGlobal n t kind => exact Stacks.emit_of rfl rfl rfl (a := kind.width) (b := 0) rfl k

/-- A conversion above `k` slots takes the slots of the value it converts and leaves those of
its result. -/
theorem applyCoercion_stacks (c : Coercion) {w w' : Nat} (h : c.Fits w w') (k : Nat) :
    Stacks (k + w) (k + w') (applyCoercion c) := by
  cases c with
  | identity =>
    cases (h : w = w')
    exact Stacks.pure _ _
  | boolToInt =>
    obtain ⟨rfl, rfl⟩ := h
    exact Stacks.pure _ _
  | intToReal | boolToReal =>
    obtain ⟨rfl, rfl⟩ := h
    exact Stacks.emit (i := .convert .intToReal) rfl rfl rfl k
  | realToInt =>
    obtain ⟨rfl, rfl⟩ := h
    exact Stacks.emit (i := .convert .realToInt) rfl rfl rfl k
  | intToBool =>
    obtain ⟨rfl, rfl⟩ := h
    exact boolSelect_stacks .ne k
  | realToBool =>
    obtain ⟨rfl, rfl⟩ := h
    exact Stacks.bind (Stacks.emit (i := .convert .realToInt) rfl rfl rfl k) fun _ =>
      boolSelect_stacks .ne k

/-- The index loop keeps the depth its body keeps. -/
theorem indexLoop_stacks (aw : Bool) (size : Int) {body : Nat → LowerM Unit} (k : Nat)
    (hb : ∀ n, Stacks k k (body n)) : Stacks k k (indexLoop aw size body) := by
  intro s
  simp only [indexLoop, sat_bind, sat_allocate, sat_newLabel, sat_emit]
  refine (hb _ _).mono (fun _ s₁ h₁ => ?_) fun _ _ => trivial
  obtain ⟨c₁, X, e₁, l₁, δX, hX⟩ := h₁
  dsimp only at c₁ e₁ l₁ ⊢
  have skeleton : Labelled s.labels (s.labels + 1 + 1)
      ([.push (.int 0), .store (slotFor aw 1 s.em.next) .int, .label s.labels,
        .load (slotFor aw 1 s.em.next) .int, .push (.int size),
        .compareBranch .ge .int (s.labels + 1)] ++
      [.load (slotFor aw 1 s.em.next) .int, .push (.int 1), .arith .add .int,
        .store (slotFor aw 1 s.em.next) .int, .jump s.labels, .label (s.labels + 1)]) :=
    Labelled.skeleton (by simp [Instr.defines]) (by simp [Instr.defines])
      (by simp [Instr.defines, Instr.targets])
  -- the loop's labels both sit at the depth the loop runs at
  obtain ⟨δ, ha, hb', hX'⟩ := offsets₁ l₁ hX k k
  exact ⟨by dsimp only; omega, _, by simp [e₁], skeleton.frame l₁ (by omega) c₁, δ,
    Stacked.indexLoop hX' ha hb'⟩

/-- Converting a value between compatible resolved types takes the slots of the one and leaves
those of the other; an array whose elements widen is copied element by element, with the
source array, the copy and an element on the stack above it. -/
theorem coerce_stacks (cx : LowerCtx) (E A : Ty) : E.Resolved → A.Resolved →
    Ty.compatible E A = true → ∀ k, Stacks (k + A.slots) (k + E.slots) (coerce cx E A) := by
  fun_induction coerce cx E A with
  | case1 dst size src n _ ih =>
    intro hE hA hc k
    have hdst : dst.Resolved := hE
    have hsrc : src.Resolved := hA
    have hc' : Ty.compatible dst src = true := by
      simp only [Ty.compatible, Bool.and_eq_true] at hc
      exact hc.2
    refine Stacks.bind_kind cx _ fun sk hsk => ?_
    refine Stacks.bind_kind cx _ fun ks hks => ?_
    refine Stacks.bind_kind cx _ fun kd hkd => ?_
    have wsk : sk.width = 1 := ValueKind.width_of (t := .array src size) hsrc hsk
    have wks := ValueKind.width_of hsrc hks
    have wkd := ValueKind.width_of hdst hkd
    refine Stacks.bind (Stacks.note _ _ _) fun _ => ?_
    refine Stacks.bind (Stacks.allocate _ _ _) fun source => ?_
    refine Stacks.bind (Stacks.emit_of (i := .store source sk) rfl rfl rfl (a := 1) (b := 0)
      (by simp [Instr.stackEffect, wsk]) k) fun _ => ?_
    refine Stacks.bind (Stacks.emit_of (i := .push (.int size)) rfl rfl rfl (a := 0) (b := 1)
      rfl k) fun _ => ?_
    refine Stacks.bind (Stacks.emit_of (i := .newArray kd) rfl rfl rfl (a := 1) (b := 1)
      rfl k) fun _ => ?_
    refine indexLoop_stacks _ _ (k + 1) fun index => ?_
    -- one element: the copy and the index, then the element read from the source, converted
    refine Stacks.bind (Stacks.emit_of (i := .dup) rfl rfl rfl (a := 1) (b := 2) rfl k)
      fun _ => ?_
    refine Stacks.bind (Stacks.emit_of (i := .load index .int) rfl rfl rfl (a := 0) (b := 1)
      rfl (k + 2)) fun _ => ?_
    refine Stacks.bind (Stacks.emit_of (i := .load source sk) rfl rfl rfl (a := 0) (b := 1)
      (by simp [Instr.stackEffect, wsk]) (k + 3)) fun _ => ?_
    refine Stacks.bind (Stacks.emit_of (i := .load index .int) rfl rfl rfl (a := 0) (b := 1)
      rfl (k + 4)) fun _ => ?_
    refine Stacks.bind (Stacks.emit_of (i := .arrayLoad ks) rfl rfl rfl (a := 2) (b := src.slots)
      (by simp [Instr.stackEffect, wks]) (k + 3)) fun _ => ?_
    refine Stacks.bind (ih hdst hsrc hc' (k + 3)) fun _ => ?_
    exact (Stacks.emit_of (i := .arrayStore kd) rfl rfl rfl (a := 2 + dst.slots) (b := 0)
      (by simp [Instr.stackEffect, wkd]) (k + 1)).congr (by omega) rfl
  | case2 => intro _ _ _ k; exact Stacks.pure _ _
  | case3 E A arrays =>
    intro _ _ hc k
    exact applyCoercion_stacks _ (Ty.implicitCoercion_fits hc fun d n s m hE hA =>
      arrays d n s m hE hA) k

/-- A fresh value of a resolved type is one value of it: an aggregate stays on the stack while
its parts are created above it and stored into it. -/
theorem freshValue_stacks (cx : LowerCtx) (fuel : Nat) (t : Ty) :
    t.Resolved → ∀ k, Stacks k (k + t.slots) (freshValue cx fuel t) := by
  fun_induction freshValue cx fuel t with
  | case1 => intro _ k; exact Stacks.throw _ _ _
  | case2 fuel t ih =>
    intro ht k
    refine Stacks.bind_resolve cx t fun r hr => ?_
    have hrt : r = t := by
      have h := resolveDeep_of_resolveIn hr
      rw [Ty.resolveDeep_of_resolved ht] at h
      exact (Except.ok.inj h).symm
    subst hrt
    split
    · exact Stacks.emit_of rfl rfl rfl (a := 0) (b := 1) rfl k
    · exact Stacks.emit_of rfl rfl rfl (a := 0) (b := 2) rfl k
    · exact Stacks.emit_of rfl rfl rfl (a := 0) (b := 1) rfl k
    · exact Stacks.emit_of rfl rfl rfl (a := 0) (b := 1) rfl k
    · exact Stacks.throw _ _ _
    · -- a record: its record and array fields are created and stored in turn
      rename_i name fields
      refine Stacks.bind (Stacks.emit_of (i := .newRecord name) rfl rfl rfl (a := 0) (b := 1)
        rfl k) fun _ => ?_
      refine Stacks.bind (Stacks.forIn fun field _ _ => ?_) fun _ => Stacks.pure _ _
      refine Stacks.bind_resolve cx _ fun ft hft => ?_
      have hftr : ft.Resolved := Ty.resolveDeep_resolved (resolveDeep_of_resolveIn hft)
      split
      · refine Stacks.bind_kind cx ft fun kf hkf => ?_
        refine Stacks.bind (Stacks.emit_of (i := .dup) rfl rfl rfl (a := 1) (b := 2) rfl k)
          fun _ => ?_
        refine Stacks.bind (ih ft hftr (k + 2)) fun _ => ?_
        refine Stacks.bind ((Stacks.emit_of rfl rfl rfl (a := 1 + ft.slots) (b := 0)
          (by simp [Instr.stackEffect, ValueKind.width_of hftr hkf]) (k + 1)).congr
          (by omega) rfl) fun _ => ?_
        exact Stacks.pure _ _
      · exact Stacks.pure _ _
    · -- an array: its elements are created when they are records or arrays
      rename_i element size
      have hel : element.Resolved := ht
      refine Stacks.bind_kind cx _ fun ke hke => ?_
      refine Stacks.bind (Stacks.emit_of (i := .push (.int size)) rfl rfl rfl (a := 0) (b := 1)
        rfl k) fun _ => ?_
      refine Stacks.bind (Stacks.emit_of (i := .newArray ke) rfl rfl rfl (a := 1) (b := 1)
        rfl k) fun _ => ?_
      split
      · refine indexLoop_stacks _ _ (k + 1) fun index => ?_
        refine Stacks.bind (Stacks.emit_of (i := .dup) rfl rfl rfl (a := 1) (b := 2) rfl k)
          fun _ => ?_
        refine Stacks.bind (Stacks.emit_of (i := .load index .int) rfl rfl rfl (a := 0) (b := 1)
          rfl (k + 2)) fun _ => ?_
        refine Stacks.bind (ih element hel (k + 3)) fun _ => ?_
        exact (Stacks.emit_of (i := .arrayStore ke) rfl rfl rfl (a := 2 + element.slots) (b := 0)
          (by simp [Instr.stackEffect, ValueKind.width_of hel hke]) (k + 1)).congr (by omega) rfl
      · exact Stacks.pure _ _
    · exact Stacks.throw _ _ _

theorem newValue_stacks (cx : LowerCtx) {t : Ty} (ht : t.Resolved) (k : Nat) :
    Stacks k (k + t.slots) (newValue cx t) :=
  freshValue_stacks cx _ t ht k

end Lower

end ImpStack
