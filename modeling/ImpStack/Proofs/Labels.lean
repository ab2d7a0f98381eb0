import ImpStack.Proofs.LowerLogic
import ImpStack.Proofs.References

/-! # Labels of lowered code

    Lowering draws labels from one counter for the whole module and places each one with a
    `label` instruction of the routine that asked for it. Seven constructs do so: selects that
    turn a comparison or a number into a boolean, the short circuit of `and` and `or`, `if`,
    `while` and counting loops, and the index loops that fill and copy arrays. An `if` whose
    then branch returns leaves out its jump to the end label, and leaves out the end label
    itself when the else branch returns too.

    The invariant is one of fragments: code is `Labelled lo hi` when it defines each of its
    labels once, takes them from `[lo, hi)`, and jumps only to labels it defines. Every
    lowering step appends a fragment labelled from the labels it allocated (`OwnsLabels`):
    a construct's own instructions form a skeleton around the fragments of its parts, each
    from a later range, and `Labelled.frame` and its variants put them together. Routines
    and the initializer then take their labels from consecutive ranges of the counter, so
    `lowered_labels_unique_and_local` holds of every module lowering produces, whatever the
    program, scopes and options.
-/

namespace ImpStack

/-! ## Labels defined and jumped to -/

namespace Instr

/-- The label an instruction defines. -/
def defines : Instr → List Nat
  | .label l => [l]
  | _ => []

/-- The label an instruction may jump to. -/
def targets : Instr → List Nat
  | .jump l | .branchZero _ l | .compareBranch _ _ l => [l]
  | _ => []

end Instr

/-- The labels code defines, in order. -/
def labelsOf (code : List Instr) : List Nat := code.flatMap Instr.defines

/-- The labels code jumps to. -/
def targetsOf (code : List Instr) : List Nat := code.flatMap Instr.targets

@[simp] theorem labelsOf_nil : labelsOf [] = [] := rfl
@[simp] theorem labelsOf_cons (i : Instr) (code : List Instr) :
    labelsOf (i :: code) = i.defines ++ labelsOf code := List.flatMap_cons
@[simp] theorem labelsOf_append (c₁ c₂ : List Instr) :
    labelsOf (c₁ ++ c₂) = labelsOf c₁ ++ labelsOf c₂ := List.flatMap_append
@[simp] theorem targetsOf_nil : targetsOf [] = [] := rfl
@[simp] theorem targetsOf_cons (i : Instr) (code : List Instr) :
    targetsOf (i :: code) = i.targets ++ targetsOf code := List.flatMap_cons
@[simp] theorem targetsOf_append (c₁ c₂ : List Instr) :
    targetsOf (c₁ ++ c₂) = targetsOf c₁ ++ targetsOf c₂ := List.flatMap_append

/-! ## Labelled fragments -/

/-- Code that defines each of its labels once, takes them from `[lo, hi)`, and jumps only to
labels it defines. -/
structure Labelled (lo hi : Nat) (code : List Instr) : Prop where
  nodup : (labelsOf code).Nodup
  drawn : ∀ l ∈ labelsOf code, lo ≤ l ∧ l < hi
  closed : ∀ l ∈ targetsOf code, l ∈ labelsOf code

namespace Labelled

theorem nil (lo hi : Nat) : Labelled lo hi [] := ⟨List.nodup_nil, by simp, by simp⟩

/-- Code between two fragments whose labels come from consecutive ranges. -/
theorem frame {lo mid hi : Nat} {P X Q : List Instr} (hs : Labelled lo mid (P ++ Q))
    (hx : Labelled mid hi X) (hlo : lo ≤ mid) (hhi : mid ≤ hi) : Labelled lo hi (P ++ X ++ Q) := by
  obtain ⟨n₁, d₁, c₁⟩ := hs
  obtain ⟨n₂, d₂, c₂⟩ := hx
  simp only [labelsOf_append, targetsOf_append, List.mem_append] at n₁ d₁ c₁
  refine ⟨?_, ?_, ?_⟩ <;> simp only [labelsOf_append, targetsOf_append, List.mem_append]
  · -- the fragment's labels lie above the frame's, so they are new
    have hp : List.Perm (labelsOf P ++ labelsOf X ++ labelsOf Q)
        (labelsOf P ++ labelsOf Q ++ labelsOf X) := by
      rw [List.append_assoc, List.append_assoc]
      exact List.Perm.append_left _ List.perm_append_comm
    refine hp.nodup_iff.mpr (List.nodup_append.mpr ⟨n₁, n₂, fun a ha b hb => ?_⟩)
    have := d₁ a (List.mem_append.mp ha)
    have := d₂ b hb
    omega
  · rintro l ((h | h) | h)
    · have := d₁ l (.inl h); omega
    · have := d₂ l h; omega
    · have := d₁ l (.inr h); omega
  · rintro l ((h | h) | h)
    · rcases c₁ l (.inl h) with h' | h' <;> simp [h']
    · simp [c₂ l h]
    · rcases c₁ l (.inr h) with h' | h' <;> simp [h']

/-- Fragments from consecutive ranges, one after the other. -/
theorem append {lo mid hi : Nat} {X Y : List Instr} (hx : Labelled lo mid X)
    (hy : Labelled mid hi Y) (hlo : lo ≤ mid) (hhi : mid ≤ hi) : Labelled lo hi (X ++ Y) := by
  simpa using frame (P := X) (Q := []) (by simpa using hx) hy hlo hhi

/-- Code without labels or jumps. -/
theorem plain {lo hi : Nat} {code : List Instr} (hl : labelsOf code = [])
    (ht : targetsOf code = []) :
    Labelled lo hi code := ⟨by simp [hl], by simp [hl], by simp [ht]⟩

/-- A construct's own code: it defines labels among `a` and `a + 1`, each once, and jumps
only to labels it defines. -/
theorem skeleton {a : Nat} {code : List Instr} (hn : (labelsOf code).Nodup)
    (hd : labelsOf code ⊆ [a, a + 1]) (ht : targetsOf code ⊆ labelsOf code) :
    Labelled a (a + 1 + 1) code := by
  refine ⟨hn, fun l hl => ?_, fun l hl => ht hl⟩
  have := hd hl
  simp only [List.mem_cons, List.not_mem_nil, or_false] at this
  omega

/-- The select a boolean is made by: a conditional jump `i` to the label that pushes `true`,
and a jump over it from the code that pushes `false`. -/
theorem select {a : Nat} (i : Instr) (hd : i.defines = []) (ht : i.targets = [a]) :
    Labelled a (a + 1 + 1)
      [i, .push (.bool false), .jump (a + 1), .label a, .push (.bool true), .label (a + 1)] := by
  refine skeleton ?_ ?_ ?_ <;> simp only [labelsOf_cons, targetsOf_cons, hd, ht]
  · simp [Instr.defines]
  · simp [Instr.defines]
  · simp [Instr.defines, Instr.targets]

/-- Labels drawn from a range are drawn from any range around it. -/
theorem widen {lo hi lo' hi' : Nat} {code : List Instr} (h : Labelled lo hi code) (hlo : lo' ≤ lo)
    (hhi : hi ≤ hi') : Labelled lo' hi' code := by
  refine ⟨h.nodup, fun l hl => ?_, h.closed⟩
  have := h.drawn l hl
  omega

/-- A construct's own code `P ++ Q ++ R` with two fragments put in, each from the labels after
the ones before it. -/
theorem frame₂ {lo m₁ m₂ hi : Nat} {P Q R X Y : List Instr} (hs : Labelled lo m₁ (P ++ Q ++ R))
    (hx : Labelled m₁ m₂ X) (hy : Labelled m₂ hi Y) (h₁ : lo ≤ m₁) (h₂ : m₁ ≤ m₂) (h₃ : m₂ ≤ hi) :
    Labelled lo hi (P ++ X ++ Q ++ Y ++ R) := by
  have hx' := frame (P := P) (Q := Q ++ R) (by simpa using hs) hx h₁ h₂
  have hy' := frame (P := P ++ X ++ Q) (Q := R) (by simpa using hx') hy (by omega) h₃
  simpa using hy'

/-- A construct's own code `P ++ Q ++ R ++ S` with three fragments put in. -/
theorem frame₃ {lo m₁ m₂ m₃ hi : Nat} {P Q R S X Y Z : List Instr}
    (hs : Labelled lo m₁ (P ++ Q ++ R ++ S)) (hx : Labelled m₁ m₂ X) (hy : Labelled m₂ m₃ Y)
    (hz : Labelled m₃ hi Z) (h₁ : lo ≤ m₁) (h₂ : m₁ ≤ m₂) (h₃ : m₂ ≤ m₃) (h₄ : m₃ ≤ hi) :
    Labelled lo hi (P ++ X ++ Q ++ Y ++ R ++ Z ++ S) := by
  have hxy := frame₂ (P := P) (Q := Q) (R := R ++ S) (by simpa using hs) hx hy h₁ h₂ h₃
  have hz' := frame (P := P ++ X ++ Q ++ Y ++ R) (Q := S) (by simpa using hxy) hz (by omega) h₄
  simpa using hz'

end Labelled

/-! ## Lowering steps that own their labels -/

namespace Lower

/-- A lowering step from `s` to `s'` appended to the routine being lowered a fragment labelled
from the labels it allocated. -/
structure LabelStep (s s' : LowerState) : Prop where
  counter : s.labels ≤ s'.labels
  code : ∃ new, s'.em.code.toList = s.em.code.toList ++ new ∧ Labelled s.labels s'.labels new

namespace LabelStep

theorem refl (s : LowerState) : LabelStep s s := ⟨Nat.le_refl _, [], by simp, Labelled.nil _ _⟩

theorem trans {s₁ s₂ s₃ : LowerState} (h₁ : LabelStep s₁ s₂) (h₂ : LabelStep s₂ s₃) :
    LabelStep s₁ s₃ := by
  obtain ⟨c₁, X, e₁, l₁⟩ := h₁
  obtain ⟨c₂, Y, e₂, l₂⟩ := h₂
  exact ⟨Nat.le_trans c₁ c₂, X ++ Y, by rw [e₂, e₁, List.append_assoc], l₁.append l₂ c₁ c₂⟩

end LabelStep

/-- Every successful run of `m` is a labelled step. -/
def OwnsLabels {α : Type} (m : LowerM α) : Prop :=
  ∀ s, Sat m s (fun _ s' => LabelStep s s') (fun _ => True)

namespace OwnsLabels

variable {α β : Type}

theorem bind {m : LowerM α} {f : α → LowerM β} (hm : OwnsLabels m) (hf : ∀ a, OwnsLabels (f a)) :
    OwnsLabels (m >>= f) := by
  intro s
  rw [sat_bind]
  exact (hm s).mono (fun a s₁ h₁ => (hf a s₁).mono (fun _ _ h₂ => h₁.trans h₂) fun _ h => h)
    fun _ h => h

theorem pure (a : α) : OwnsLabels (Pure.pure a : LowerM α) := fun s => LabelStep.refl s

theorem throw (e : Error) : OwnsLabels (MonadExcept.throw e : LowerM α) := fun _ => trivial

theorem throw_bind {f : α → LowerM β} (e : Error) : OwnsLabels (MonadExcept.throw e >>= f) :=
  fun _ => trivial

theorem orFail (x : Except Error α) : OwnsLabels (Lower.orFail x) := by
  intro s
  cases x
  · trivial
  · exact LabelStep.refl s

/-- A step that leaves the code and the labels alone. -/
theorem update {f : LowerState → LowerState} (hl : ∀ s, (f s).labels = s.labels)
    (hc : ∀ s, (f s).em.code = s.em.code) : OwnsLabels (modify f : LowerM Unit) := by
  intro s
  show LabelStep s (f s)
  exact ⟨Nat.le_of_eq (hl s).symm, [], by simp [hc], Labelled.nil _ _⟩

theorem emit {i : Instr} (hl : i.defines = []) (ht : i.targets = []) : OwnsLabels (Lower.emit i) :=
  fun s => ⟨Nat.le_refl _, [i], by simp, Labelled.plain (by simp [hl]) (by simp [ht])⟩

theorem note (level : Level) (message : String) : OwnsLabels (Lower.note level message) :=
  update (fun _ => rfl) fun _ => rfl

theorem emitter : OwnsLabels Lower.emitter := fun s => LabelStep.refl s

theorem newLabel : OwnsLabels Lower.newLabel := by
  intro s
  rw [sat_newLabel]
  exact ⟨Nat.le_succ _, [], by simp, Labelled.nil _ _⟩

theorem allocate (aw : Bool) (width : Nat) : OwnsLabels (Lower.allocate aw width) := by
  intro s
  rw [sat_allocate]
  exact ⟨Nat.le_refl _, [], by simp, Labelled.nil _ _⟩

theorem bindLocal (name : String) (l : Local) : OwnsLabels (Lower.bindLocal name l) :=
  update (fun _ => rfl) fun _ => rfl

theorem declareLocal (aw : Bool) (name : String) (ty : Ty) (kind : ValueKind) :
    OwnsLabels (Lower.declareLocal aw name ty kind) :=
  bind (allocate _ _) fun _ => bind (bindLocal _ _) fun _ => pure _

theorem declareParam (name : String) (ty : Ty) (kind : ValueKind) :
    OwnsLabels (Lower.declareParam name ty kind) :=
  bind emitter fun _ => bind (update (fun _ => rfl) fun _ => rfl) fun _ => bindLocal _ _

theorem enterScope : OwnsLabels Lower.enterScope := update (fun _ => rfl) fun _ => rfl

theorem exitScope : OwnsLabels Lower.exitScope := update (fun _ => rfl) fun _ => rfl

theorem resolve (cx : LowerCtx) (t : Ty) : OwnsLabels (Lower.resolve cx t) := orFail _

theorem kind (cx : LowerCtx) (t : Ty) : OwnsLabels (Lower.kind cx t) := orFail _

theorem loadPlace (p : Place) : OwnsLabels (Lower.loadPlace p) := by
  cases p <;> exact emit rfl rfl

theorem storePlace (p : Place) : OwnsLabels (Lower.storePlace p) := by
  cases p <;> exact emit rfl rfl

/-- A loop whose every step owns its labels and goes on. -/
theorem forIn {γ : Type} {xs : List γ} {init : β} {f : γ → β → LowerM (ForInStep β)}
    (hf : ∀ x ∈ xs, ∀ b, OwnsLabels (f x b)) : OwnsLabels (ForIn.forIn xs init f) := by
  induction xs generalizing init with
  | nil => exact pure _
  | cons x xs ih =>
    rw [List.forIn_cons]
    refine bind (hf x List.mem_cons_self init) fun step => ?_
    cases step with
    | done b => exact pure b
    | yield b => exact ih (fun y hy => hf y (List.mem_cons_of_mem _ hy))

end OwnsLabels

/-- An instruction emitted only when `c` holds: the state after it has the same labels and the
code with the instruction, or without it. -/
theorem sat_emitWhen {st : LowerState} {E : Error → Prop} {c : Bool} {i : Instr}
    {Q : Unit → LowerState → Prop}
    (h : ∀ st', st'.labels = st.labels →
      st'.em.code.toList = st.em.code.toList ++ (if c then [i] else []) → Q () st') :
    Sat (if c = true then emit i else pure ()) st Q E := by
  cases c
  · exact h st rfl (by simp)
  · exact h _ rfl (by simp)

/-- An instruction emitted only when `c` holds, before the rest `k` of a `do` block. -/
theorem sat_emitWhen_bind {st : LowerState} {E : Error → Prop} {c : Bool} {i : Instr}
    {k : LowerM β} {Q : β → LowerState → Prop}
    (h : ∀ st', st'.labels = st.labels →
      st'.em.code.toList = st.em.code.toList ++ (if c then [i] else []) → Sat k st' Q E) :
    Sat (if c = true then emit i >>= fun _ => k else k) st Q E := by
  cases c
  · exact h st rfl (by simp)
  · exact h _ rfl (by simp)

/-! ## The constructs that allocate labels

    Each construct allocates its labels before the code of its parts, or after it, and its own
    instructions form a skeleton around the fragments of its parts. -/

theorem boolSelect_labels (c : Condition) : OwnsLabels (boolSelect c) := by
  intro s
  simp only [boolSelect, sat_bind, sat_newLabel, sat_emit]
  exact ⟨by dsimp only; omega, _, by simp, Labelled.select (.branchZero c s.labels) rfl rfl⟩

theorem indexLoop_labels (aw : Bool) (size : Int) {body : Nat → LowerM Unit}
    (hb : ∀ n, OwnsLabels (body n)) : OwnsLabels (indexLoop aw size body) := by
  intro s
  simp only [indexLoop, sat_bind, sat_allocate, sat_newLabel, sat_emit]
  refine (hb _ _).mono (fun _ s₁ h₁ => ?_) fun _ _ => trivial
  obtain ⟨c₁, X, e₁, l₁⟩ := h₁
  dsimp only at c₁ e₁ l₁ ⊢
  -- the loop's own code around the body, with its two labels
  have skeleton : Labelled s.labels (s.labels + 1 + 1)
      ([.push (.int 0), .store (slotFor aw 1 s.em.next) .int, .label s.labels,
        .load (slotFor aw 1 s.em.next) .int, .push (.int size),
        .compareBranch .ge .int (s.labels + 1)] ++
      [.load (slotFor aw 1 s.em.next) .int, .push (.int 1), .arith .add .int,
        .store (slotFor aw 1 s.em.next) .int, .jump s.labels, .label (s.labels + 1)]) := by
    exact Labelled.skeleton (by simp [Instr.defines]) (by simp [Instr.defines])
      (by simp [Instr.defines, Instr.targets])
  refine ⟨by dsimp only; omega, _, by simp [e₁], skeleton.frame l₁ (by omega) c₁⟩

theorem applyCoercion_labels (c : Coercion) : OwnsLabels (applyCoercion c) := by
  cases c with
  | identity | boolToInt => exact OwnsLabels.pure _
  | intToReal | boolToReal | realToInt => exact OwnsLabels.emit rfl rfl
  | intToBool => exact boolSelect_labels _
  | realToBool => exact OwnsLabels.bind (OwnsLabels.emit rfl rfl) fun _ => boolSelect_labels _

/-- The short circuit of `and` and `or`: both operands jump to the label that pushes the
deciding value. -/
theorem shortCircuit_labels {α β : Type} {m₁ : LowerM α} {m₂ : LowerM β} (c : Condition)
    (v : Bool) (h₁ : OwnsLabels m₁) (h₂ : OwnsLabels m₂) :
    OwnsLabels (do
      let short ← newLabel
      let stop ← newLabel
      let _ ← m₁
      emit (.branchZero c short)
      let _ ← m₂
      emit (.branchZero c short)
      emit (.push (.bool !v))
      emit (.jump stop)
      emit (.label short)
      emit (.push (.bool v))
      emit (.label stop)
      pure Ty.boolean) := by
  intro s
  simp only [sat_bind, sat_newLabel, sat_emit, sat_pure]
  refine (h₁ _).mono (fun _ s₁ k₁ => ?_) fun _ _ => trivial
  refine (h₂ _).mono (fun _ s₂ k₂ => ?_) fun _ _ => trivial
  obtain ⟨c₁, X₁, e₁, l₁⟩ := k₁
  obtain ⟨c₂, X₂, e₂, l₂⟩ := k₂
  dsimp only at c₁ e₁ l₁ c₂ e₂ l₂
  have skeleton : Labelled s.labels (s.labels + 1 + 1) ([] ++ [.branchZero c s.labels] ++
      [.branchZero c s.labels, .push (.bool !v), .jump (s.labels + 1), .label s.labels,
        .push (.bool v), .label (s.labels + 1)]) := by
    exact Labelled.skeleton (by simp [Instr.defines]) (by simp [Instr.defines])
      (by simp [Instr.defines, Instr.targets])
  refine ⟨by dsimp only; omega, _, ?_, skeleton.frame₂ l₁ l₂ (by omega) c₁ c₂⟩
  simp [e₁, e₂]

/-- The end of a comparison: a conditional jump to the label that pushes `true`. -/
theorem compareSelect_labels (cx : LowerCtx) (c : Condition) (operand : Ty) :
    OwnsLabels (do
      let isTrue ← newLabel
      let stop ← newLabel
      let k ← kind cx operand
      emit (.compareBranch c k isTrue)
      emit (.push (.bool false))
      emit (.jump stop)
      emit (.label isTrue)
      emit (.push (.bool true))
      emit (.label stop)
      pure Ty.boolean) := by
  intro s
  simp only [sat_bind, sat_newLabel, kind]
  cases ValueKind.of cx.env operand with
  | error e => trivial
  | ok k =>
    simp only [sat_orFail, sat_emit, sat_pure]
    exact ⟨by dsimp only; omega, _, by simp, Labelled.select (.compareBranch c k s.labels) rfl rfl⟩

/-- An `if`: the condition jumps to the else branch, the then branch jumps over it unless it
ends in a return, and the end label is placed unless nothing jumps there and nothing falls
through to it. -/
theorem branch_labels {α : Type} {m₀ : LowerM α} {m₁ m₂ : LowerM Unit} (b₁ b₂ : Bool)
    (h₀ : OwnsLabels m₀) (h₁ : OwnsLabels m₁) (h₂ : OwnsLabels m₂) :
    OwnsLabels (do
      let elseLabel ← newLabel
      let endLabel ← newLabel
      let _ ← m₀
      emit (.branchZero .eq elseLabel)
      enterScope
      m₁
      exitScope
      if !b₁ then emit (.jump endLabel)
      emit (.label elseLabel)
      enterScope
      m₂
      exitScope
      if !b₁ || !b₂ then emit (.label endLabel)) := by
  intro s
  simp only [sat_bind, sat_newLabel, sat_emit, sat_enterScope, sat_exitScope]
  refine (h₀ _).mono (fun _ s₁ k₁ => ?_) fun _ _ => trivial
  refine (h₁ _).mono (fun _ s₂ k₂ => ?_) fun _ _ => trivial
  refine sat_emitWhen_bind fun s₃ c₃ e₃ => ?_
  simp only [sat_bind, sat_emit, sat_enterScope, sat_exitScope]
  refine (h₂ _).mono (fun _ s₄ k₄ => ?_) fun _ _ => trivial
  refine sat_emitWhen fun s₅ c₅ e₅ => ?_
  obtain ⟨c₁, X, e₁, l₁⟩ := k₁
  obtain ⟨c₂, Y, e₂, l₂⟩ := k₂
  obtain ⟨c₄, Z, e₄, l₄⟩ := k₄
  dsimp only at c₁ e₁ l₁ c₂ e₂ l₂ c₃ e₃ c₄ e₄ l₄ c₅ e₅
  -- the branch's own code: the end label is there whenever the jump to it is
  have skeleton : Labelled s.labels (s.labels + 1 + 1) ([] ++ [.branchZero .eq s.labels] ++
      ((if !b₁ then [.jump (s.labels + 1)] else []) ++ [.label s.labels]) ++
      (if !b₁ || !b₂ then [.label (s.labels + 1)] else [])) := by
    cases b₁ <;> cases b₂ <;>
      exact Labelled.skeleton (by simp [Instr.defines]) (by simp [Instr.defines])
        (by simp [Instr.defines, Instr.targets])
  rw [c₃, ← c₅] at l₄
  refine ⟨by omega, _, ?_, skeleton.frame₃ l₁ l₂ l₄ (by omega) c₁ c₂ (by omega)⟩
  simp [e₅, e₄, e₃, e₂, e₁]

/-- A `while` loop: the test at the start label, the exit branch to the stop label, and the
jump back after the body. -/
theorem loop_labels {α : Type} {m₀ : LowerM α} {m₁ : LowerM Unit} (h₀ : OwnsLabels m₀)
    (h₁ : OwnsLabels m₁) :
    OwnsLabels (do
      let start ← newLabel
      let stop ← newLabel
      emit (.label start)
      let _ ← m₀
      emit (.branchZero .eq stop)
      enterScope
      m₁
      exitScope
      emit (.jump start)
      emit (.label stop)) := by
  intro s
  simp only [sat_bind, sat_newLabel, sat_emit, sat_enterScope, sat_exitScope]
  refine (h₀ _).mono (fun _ s₁ k₁ => ?_) fun _ _ => trivial
  refine (h₁ _).mono (fun _ s₂ k₂ => ?_) fun _ _ => trivial
  obtain ⟨c₁, X, e₁, l₁⟩ := k₁
  obtain ⟨c₂, Y, e₂, l₂⟩ := k₂
  dsimp only at c₁ e₁ l₁ c₂ e₂ l₂
  have skeleton : Labelled s.labels (s.labels + 1 + 1) ([.label s.labels] ++
      [.branchZero .eq (s.labels + 1)] ++ [.jump s.labels, .label (s.labels + 1)]) := by
    exact Labelled.skeleton (by simp [Instr.defines]) (by simp [Instr.defines])
      (by simp [Instr.defines, Instr.targets])
  refine ⟨by dsimp only; omega, _, ?_, skeleton.frame₂ l₁ l₂ (by omega) c₁ c₂⟩
  simp [e₁, e₂]

/-- A counting loop over `slot`: the bound is computed at the start label and compared with the
counter, the body runs, and the counter steps before the jump back. -/
theorem countingLoop_labels {α : Type} {m₀ : LowerM α} {m₁ : LowerM Unit} (slot : Nat)
    (c : Condition) (step : ArithOp) (h₀ : OwnsLabels m₀) (h₁ : OwnsLabels m₁) :
    OwnsLabels (do
      let start ← newLabel
      let stop ← newLabel
      emit (.label start)
      emit (.load slot .int)
      let _ ← m₀
      emit (.compareBranch c .int stop)
      m₁
      emit (.load slot .int)
      emit (.push (.int 1))
      emit (.arith step .int)
      emit (.store slot .int)
      emit (.jump start)
      emit (.label stop)
      exitScope) := by
  intro s
  simp only [sat_bind, sat_newLabel, sat_emit, sat_exitScope]
  refine (h₀ _).mono (fun _ s₁ k₁ => ?_) fun _ _ => trivial
  refine (h₁ _).mono (fun _ s₂ k₂ => ?_) fun _ _ => trivial
  obtain ⟨c₁, X, e₁, l₁⟩ := k₁
  obtain ⟨c₂, Y, e₂, l₂⟩ := k₂
  dsimp only at c₁ e₁ l₁ c₂ e₂ l₂
  have skeleton : Labelled s.labels (s.labels + 1 + 1) ([.label s.labels, .load slot .int] ++
      [.compareBranch c .int (s.labels + 1)] ++ [.load slot .int, .push (.int 1),
        .arith step .int, .store slot .int, .jump s.labels, .label (s.labels + 1)]) := by
    exact Labelled.skeleton (by simp [Instr.defines]) (by simp [Instr.defines])
      (by simp [Instr.defines, Instr.targets])
  refine ⟨by dsimp only; omega, _, ?_, skeleton.frame₂ l₁ l₂ (by omega) c₁ c₂⟩
  simp [e₁, e₂]

/-! ## Expressions and statements -/

section Constructs

variable (cx : LowerCtx)

theorem coerce_labels (expected actual : Ty) : OwnsLabels (coerce cx expected actual) := by
  fun_induction coerce cx expected actual with
  | case1 dst size src _ _ ih =>
    refine OwnsLabels.bind (OwnsLabels.kind _ _) fun _ => ?_
    refine OwnsLabels.bind (OwnsLabels.kind _ _) fun _ => ?_
    refine OwnsLabels.bind (OwnsLabels.kind _ _) fun _ => ?_
    refine OwnsLabels.bind (OwnsLabels.note _ _) fun _ => ?_
    refine OwnsLabels.bind (OwnsLabels.allocate _ _) fun _ => ?_
    refine OwnsLabels.bind (OwnsLabels.emit rfl rfl) fun _ => ?_
    refine OwnsLabels.bind (OwnsLabels.emit rfl rfl) fun _ => ?_
    refine OwnsLabels.bind (OwnsLabels.emit rfl rfl) fun _ => ?_
    refine indexLoop_labels _ _ fun _ => ?_
    refine OwnsLabels.bind (OwnsLabels.emit rfl rfl) fun _ => ?_
    refine OwnsLabels.bind (OwnsLabels.emit rfl rfl) fun _ => ?_
    refine OwnsLabels.bind (OwnsLabels.emit rfl rfl) fun _ => ?_
    refine OwnsLabels.bind (OwnsLabels.emit rfl rfl) fun _ => ?_
    refine OwnsLabels.bind (OwnsLabels.emit rfl rfl) fun _ => ?_
    exact OwnsLabels.bind ih fun _ => OwnsLabels.emit rfl rfl
  | case2 => exact OwnsLabels.pure _
  | case3 => exact applyCoercion_labels _

theorem freshValue_labels (fuel : Nat) (t : Ty) : OwnsLabels (freshValue cx fuel t) := by
  fun_induction freshValue cx fuel t with
  | case1 => exact OwnsLabels.throw _
  | case2 fuel t ih =>
    refine OwnsLabels.bind (OwnsLabels.resolve cx t) fun r => ?_
    split
    · exact OwnsLabels.emit rfl rfl
    · exact OwnsLabels.emit rfl rfl
    · exact OwnsLabels.emit rfl rfl
    · exact OwnsLabels.emit rfl rfl
    · exact OwnsLabels.throw _
    · -- a record: its record and array fields are created in turn
      refine OwnsLabels.bind (OwnsLabels.emit rfl rfl) fun _ => ?_
      refine OwnsLabels.bind (OwnsLabels.forIn fun field _ _ => ?_) fun _ => OwnsLabels.pure _
      refine OwnsLabels.bind (OwnsLabels.resolve cx _) fun ft => ?_
      split
      · refine OwnsLabels.bind (OwnsLabels.kind cx ft) fun _ => ?_
        refine OwnsLabels.bind (OwnsLabels.emit rfl rfl) fun _ => ?_
        refine OwnsLabels.bind (ih ft) fun _ => ?_
        exact OwnsLabels.bind (OwnsLabels.emit rfl rfl) fun _ => OwnsLabels.pure _
      · exact OwnsLabels.pure _
    · -- an array: its elements are created when they are records or arrays
      refine OwnsLabels.bind (OwnsLabels.kind cx _) fun _ => ?_
      refine OwnsLabels.bind (OwnsLabels.emit rfl rfl) fun _ => ?_
      refine OwnsLabels.bind (OwnsLabels.emit rfl rfl) fun _ => ?_
      split
      · refine indexLoop_labels _ _ fun _ => ?_
        refine OwnsLabels.bind (OwnsLabels.emit rfl rfl) fun _ => ?_
        refine OwnsLabels.bind (OwnsLabels.emit rfl rfl) fun _ => ?_
        exact OwnsLabels.bind (ih _) fun _ => OwnsLabels.emit rfl rfl
      · exact OwnsLabels.pure _
    · exact OwnsLabels.throw _

theorem newValue_labels (t : Ty) : OwnsLabels (newValue cx t) := freshValue_labels cx _ t

theorem callee_labels (n : String) (args : List Expr) : OwnsLabels (callee cx n args) := by
  unfold callee
  split
  · exact OwnsLabels.throw _
  · dsimp only
    split
    · exact OwnsLabels.bind (OwnsLabels.throw _) fun _ => OwnsLabels.pure _
    · exact OwnsLabels.pure _

theorem finishCall_labels (n : String) (sig : RoutineSig) (ks : List ValueKind) :
    OwnsLabels (finishCall cx n sig ks) := by
  refine OwnsLabels.bind (OwnsLabels.resolve cx _) fun _ => ?_
  refine OwnsLabels.bind (OwnsLabels.kind cx _) fun _ => ?_
  exact OwnsLabels.bind (OwnsLabels.emit rfl rfl) fun _ => OwnsLabels.pure _

mutual

/-- Lowering an expression appends code labelled from the labels it allocates. -/
theorem expr_labels : ∀ e : Expr, OwnsLabels (expr cx e) := by
  intro e
  cases e with
  | int v | real v | bool v | str v =>
    simp only [Lower.expr]
    exact OwnsLabels.bind (OwnsLabels.emit rfl rfl) fun _ => OwnsLabels.pure _
  | var n =>
    simp only [Lower.expr]
    refine OwnsLabels.bind OwnsLabels.emitter fun em => ?_
    refine OwnsLabels.bind (OwnsLabels.orFail _) fun p => ?_
    exact OwnsLabels.bind (OwnsLabels.loadPlace p) fun _ => OwnsLabels.pure _
  | binary l op r =>
    simp only [Lower.expr]
    cases op with
    | and | or => exact shortCircuit_labels _ _ (expr_labels l) (expr_labels r)
    | xor =>
      refine OwnsLabels.bind (expr_labels l) fun _ => ?_
      refine OwnsLabels.bind (expr_labels r) fun _ => ?_
      exact OwnsLabels.bind (OwnsLabels.emit rfl rfl) fun _ => OwnsLabels.pure _
    | lt | le | gt | ge | eq | ne =>
      refine OwnsLabels.bind OwnsLabels.emitter fun _ => ?_
      refine OwnsLabels.bind (OwnsLabels.orFail _) fun rt => ?_
      refine OwnsLabels.bind (expr_labels l) fun lt => ?_
      split
      · refine OwnsLabels.bind (OwnsLabels.pure _) fun operand => ?_
        refine OwnsLabels.bind (coerce_labels cx operand lt) fun _ => ?_
        refine OwnsLabels.bind (expr_labels r) fun _ => ?_
        refine OwnsLabels.bind (coerce_labels cx operand rt) fun _ => ?_
        exact compareSelect_labels cx _ operand
      · exact OwnsLabels.throw_bind _
    | add | sub | mul | div | mod =>
      refine OwnsLabels.bind OwnsLabels.emitter fun _ => ?_
      refine OwnsLabels.bind (OwnsLabels.orFail _) fun rt => ?_
      refine OwnsLabels.bind (expr_labels l) fun lt => ?_
      split
      · refine OwnsLabels.bind (OwnsLabels.pure _) fun result => ?_
        refine OwnsLabels.bind (coerce_labels cx result lt) fun _ => ?_
        refine OwnsLabels.bind (expr_labels r) fun _ => ?_
        refine OwnsLabels.bind (coerce_labels cx result rt) fun _ => ?_
        refine OwnsLabels.bind (OwnsLabels.kind cx result) fun _ => ?_
        exact OwnsLabels.bind (OwnsLabels.emit rfl rfl) fun _ => OwnsLabels.pure _
      · exact OwnsLabels.throw_bind _
  | unary op e =>
    cases op with
    | not =>
      simp only [Lower.expr]
      refine OwnsLabels.bind (expr_labels e) fun _ => ?_
      exact OwnsLabels.bind (boolSelect_labels _) fun _ => OwnsLabels.pure _
    | neg =>
      simp only [Lower.expr]
      refine OwnsLabels.bind (expr_labels e) fun t => ?_
      refine OwnsLabels.bind (OwnsLabels.kind cx t) fun _ => ?_
      exact OwnsLabels.bind (OwnsLabels.emit rfl rfl) fun _ => OwnsLabels.pure _
  | index a i =>
    simp only [Lower.expr]
    refine OwnsLabels.bind OwnsLabels.emitter fun _ => ?_
    refine OwnsLabels.bind (OwnsLabels.orFail _) fun p => ?_
    refine OwnsLabels.bind (OwnsLabels.orFail _) fun element => ?_
    refine OwnsLabels.bind (OwnsLabels.loadPlace p) fun _ => ?_
    refine OwnsLabels.bind (expr_labels i) fun _ => ?_
    refine OwnsLabels.bind (OwnsLabels.kind cx element) fun _ => ?_
    exact OwnsLabels.bind (OwnsLabels.emit rfl rfl) fun _ => OwnsLabels.pure _
  | field r f =>
    simp only [Lower.expr]
    refine OwnsLabels.bind OwnsLabels.emitter fun _ => ?_
    refine OwnsLabels.bind (OwnsLabels.orFail _) fun p => ?_
    refine OwnsLabels.bind (OwnsLabels.orFail _) fun found => ?_
    obtain ⟨recordName, ft⟩ := found
    refine OwnsLabels.bind (OwnsLabels.loadPlace p) fun _ => ?_
    refine OwnsLabels.bind (OwnsLabels.kind cx ft) fun _ => ?_
    exact OwnsLabels.bind (OwnsLabels.emit rfl rfl) fun _ => OwnsLabels.pure _
  | call n args =>
    simp only [Lower.expr]
    refine OwnsLabels.bind (callee_labels cx n args) fun sig => ?_
    refine OwnsLabels.bind (arguments_labels args sig.params) fun ks => ?_
    refine OwnsLabels.bind (finishCall_labels cx n sig ks) fun t => ?_
    split
    · exact OwnsLabels.bind (OwnsLabels.throw _) fun _ => OwnsLabels.pure _
    · exact OwnsLabels.pure _
  | cast e target =>
    simp only [Lower.expr]
    refine OwnsLabels.bind (expr_labels e) fun _ => ?_
    refine OwnsLabels.bind (OwnsLabels.resolve cx target) fun _ => ?_
    split
    · exact OwnsLabels.bind (applyCoercion_labels _) fun _ => OwnsLabels.pure _
    · exact OwnsLabels.throw _

/-- Pushing call arguments appends code labelled from the labels it allocates. -/
theorem arguments_labels : ∀ (args : List Expr) (ps : List Ty),
    OwnsLabels (arguments cx args ps) := by
  intro args ps
  cases args with
  | nil => exact OwnsLabels.pure _
  | cons a as =>
    cases ps with
    | nil => exact OwnsLabels.pure _
    | cons p ps =>
      simp only [Lower.arguments]
      refine OwnsLabels.bind (OwnsLabels.resolve cx p) fun pt => ?_
      refine OwnsLabels.bind (expr_labels a) fun actual => ?_
      refine OwnsLabels.bind (coerce_labels cx pt actual) fun _ => ?_
      refine OwnsLabels.bind (OwnsLabels.kind cx pt) fun _ => ?_
      refine OwnsLabels.bind (arguments_labels as ps) fun _ => ?_
      exact OwnsLabels.pure _

end

theorem initialValue_labels (ty : Ty) (i : Option Expr) : OwnsLabels (initialValue cx ty i) := by
  cases i with
  | some e =>
    simp only [Lower.initialValue]
    exact OwnsLabels.bind (expr_labels cx e) fun actual => coerce_labels cx ty actual
  | none => exact newValue_labels cx ty

theorem assignment_labels (t : Target) (v : Expr) : OwnsLabels (assignment cx t v) := by
  cases t with
  | var n =>
    simp only [Lower.assignment]
    refine OwnsLabels.bind OwnsLabels.emitter fun _ => ?_
    refine OwnsLabels.bind (OwnsLabels.orFail _) fun p => ?_
    refine OwnsLabels.bind (expr_labels cx v) fun actual => ?_
    refine OwnsLabels.bind (coerce_labels cx _ actual) fun _ => ?_
    exact OwnsLabels.storePlace p
  | element a i =>
    simp only [Lower.assignment]
    refine OwnsLabels.bind OwnsLabels.emitter fun _ => ?_
    refine OwnsLabels.bind (OwnsLabels.orFail _) fun p => ?_
    refine OwnsLabels.bind (OwnsLabels.orFail _) fun element => ?_
    refine OwnsLabels.bind (OwnsLabels.loadPlace p) fun _ => ?_
    refine OwnsLabels.bind (expr_labels cx i) fun _ => ?_
    refine OwnsLabels.bind (expr_labels cx v) fun actual => ?_
    refine OwnsLabels.bind (coerce_labels cx element actual) fun _ => ?_
    refine OwnsLabels.bind (OwnsLabels.kind cx element) fun _ => ?_
    exact OwnsLabels.emit rfl rfl
  | field r f =>
    simp only [Lower.assignment]
    refine OwnsLabels.bind OwnsLabels.emitter fun _ => ?_
    refine OwnsLabels.bind (OwnsLabels.orFail _) fun p => ?_
    refine OwnsLabels.bind (OwnsLabels.orFail _) fun found => ?_
    obtain ⟨recordName, ft⟩ := found
    refine OwnsLabels.bind (OwnsLabels.loadPlace p) fun _ => ?_
    refine OwnsLabels.bind (expr_labels cx v) fun actual => ?_
    refine OwnsLabels.bind (coerce_labels cx ft actual) fun _ => ?_
    refine OwnsLabels.bind (OwnsLabels.kind cx ft) fun _ => ?_
    exact OwnsLabels.emit rfl rfl

theorem nested_labels {α : Type} (name : String) : OwnsLabels (nested name : LowerM α) :=
  OwnsLabels.bind OwnsLabels.emitter fun _ => OwnsLabels.throw _

mutual

/-- Lowering a statement appends code labelled from the labels it allocates. -/
theorem stmt_labels : ∀ st : Stmt, OwnsLabels (stmt cx st) := by
  intro st
  cases st with
  | varDecl n t i =>
    simp only [Lower.stmt]
    refine OwnsLabels.bind (OwnsLabels.orFail _) fun ty => ?_
    refine OwnsLabels.bind (OwnsLabels.kind cx ty) fun _ => ?_
    refine OwnsLabels.bind (initialValue_labels cx ty i) fun _ => ?_
    refine OwnsLabels.bind (OwnsLabels.declareLocal _ _ _ _) fun _ => ?_
    exact OwnsLabels.emit rfl rfl
  | arrayDecl n e size =>
    simp only [Lower.stmt]
    refine OwnsLabels.bind (OwnsLabels.resolve cx _) fun ty => ?_
    refine OwnsLabels.bind (OwnsLabels.kind cx ty) fun _ => ?_
    refine OwnsLabels.bind (newValue_labels cx ty) fun _ => ?_
    refine OwnsLabels.bind (OwnsLabels.declareLocal _ _ _ _) fun _ => ?_
    exact OwnsLabels.emit rfl rfl
  | assign t v =>
    simp only [Lower.stmt]
    exact assignment_labels cx t v
  | ifThen c t e =>
    simp only [Lower.stmt]
    exact branch_labels _ _ (expr_labels cx c) (stmts_labels t) (stmts_labels e)
  | whileDo c b =>
    simp only [Lower.stmt]
    exact loop_labels (expr_labels cx c) (stmts_labels b)
  | forRange v start stop reverse b =>
    simp only [Lower.stmt]
    refine OwnsLabels.bind (expr_labels cx start) fun _ => ?_
    refine OwnsLabels.bind OwnsLabels.enterScope fun _ => ?_
    refine OwnsLabels.bind (OwnsLabels.declareLocal _ _ _ _) fun slot => ?_
    refine OwnsLabels.bind (OwnsLabels.emit rfl rfl) fun _ => ?_
    cases reverse with
    | false => exact countingLoop_labels slot _ _ (expr_labels cx stop) (stmts_labels b)
    | true => exact countingLoop_labels slot _ _ (expr_labels cx stop) (stmts_labels b)
  | call n args =>
    simp only [Lower.stmt]
    refine OwnsLabels.bind (callee_labels cx n args) fun sig => ?_
    refine OwnsLabels.bind (arguments_labels cx args sig.params) fun ks => ?_
    refine OwnsLabels.bind (finishCall_labels cx n sig ks) fun t => ?_
    split
    · exact OwnsLabels.bind (OwnsLabels.kind cx t) fun _ => OwnsLabels.emit rfl rfl
    · exact OwnsLabels.pure _
  | ret v =>
    cases v with
    | some e =>
      simp only [Lower.stmt]
      refine OwnsLabels.bind OwnsLabels.emitter fun em => ?_
      refine OwnsLabels.bind (expr_labels cx e) fun actual => ?_
      refine OwnsLabels.bind (coerce_labels cx _ actual) fun _ => ?_
      refine OwnsLabels.bind (OwnsLabels.kind cx _) fun _ => ?_
      exact OwnsLabels.emit rfl rfl
    | none =>
      simp only [Lower.stmt]
      exact OwnsLabels.emit rfl rfl
  | print e =>
    simp only [Lower.stmt]
    refine OwnsLabels.bind (expr_labels cx e) fun t => ?_
    refine OwnsLabels.bind (OwnsLabels.kind cx t) fun _ => ?_
    exact OwnsLabels.emit rfl rfl
  | routine n _ _ _ => exact nested_labels n
  | recordType n _ => exact nested_labels n
  | typeAlias n _ => exact nested_labels n

/-- Lowering statements in order appends code labelled from the labels it allocates. -/
theorem stmts_labels : ∀ ss : List Stmt, OwnsLabels (stmts cx ss) := by
  intro ss
  cases ss with
  | nil => exact OwnsLabels.pure _
  | cons st rest =>
    simp only [Lower.stmts]
    exact OwnsLabels.bind (stmt_labels st) fun _ => stmts_labels rest

end

end Constructs

end Lower

/-! ## Routines and modules -/

/-- Routines that define each label once among all of them, take their labels from below `n`,
and each jump only to labels of their own. -/
structure LabelledBelow (n : Nat) (rs : List RoutineCode) : Prop where
  nodup : (rs.flatMap fun rc => labelsOf rc.code).Nodup
  below : ∀ l ∈ rs.flatMap (fun rc => labelsOf rc.code), l < n
  closed : ∀ rc ∈ rs, ∀ l ∈ targetsOf rc.code, l ∈ labelsOf rc.code

namespace LabelledBelow

theorem nil (n : Nat) : LabelledBelow n [] := ⟨List.nodup_nil, by simp, by simp⟩

theorem mono {n n' : Nat} {rs : List RoutineCode} (h : LabelledBelow n rs) (hle : n ≤ n') :
    LabelledBelow n' rs :=
  ⟨h.nodup, fun l hl => Nat.lt_of_lt_of_le (h.below l hl) hle, h.closed⟩

/-- A routine labelled from the labels after those of the routines before it. -/
theorem push {lo hi : Nat} {rs : List RoutineCode} {rc : RoutineCode} (h : LabelledBelow lo rs)
    (hrc : Labelled lo hi rc.code) (hle : lo ≤ hi) : LabelledBelow hi (rs ++ [rc]) := by
  obtain ⟨n₁, b₁, c₁⟩ := h
  refine ⟨?_, fun l hl => ?_, fun r hr => ?_⟩
  · rw [List.flatMap_append, List.flatMap_singleton]
    refine List.nodup_append.mpr ⟨n₁, hrc.nodup, fun a ha b hb => ?_⟩
    have := b₁ a ha
    have := hrc.drawn b hb
    omega
  · rw [List.flatMap_append, List.flatMap_singleton] at hl
    rcases List.mem_append.mp hl with h | h
    · have := b₁ l h; omega
    · exact (hrc.drawn l h).2
  · rcases List.mem_append.mp hr with h | h
    · exact c₁ r h
    · rw [List.mem_singleton.mp h]
      exact hrc.closed

end LabelledBelow

namespace Lower

/-- A step that owns its labels, read as a statement about its successful runs. -/
theorem OwnsLabels.lsat {α : Type} {m : LowerM α} (hm : OwnsLabels m) (s : LowerState) :
    LSat m s (fun _ s' => LabelStep s s') := by
  intro a s' h
  have := hm s
  unfold Sat at this
  rw [h] at this
  exact this

/-- A routine finished after steps from `s₀`, where its code started empty, and maybe one more
plain instruction: its code is labelled from the labels allocated since `s₀`. -/
theorem finish_labels {m : LowerM Unit} {c : Prop} [Decidable c] {i : Instr} {s₀ s : LowerState}
    (hm : OwnsLabels m) (hl : i.defines = []) (ht : i.targets = []) (ks : List ValueKind)
    (rk : ValueKind) (he : s₀.em.code = #[]) (h₀ : LabelStep s₀ s) :
    LSat (m >>= fun _ => if c then emit i >>= fun _ => finish ks rk else finish ks rk) s
      (fun rc s' => s₀.labels ≤ s'.labels ∧ Labelled s₀.labels s'.labels rc.code) := by
  have done : ∀ s₁, LabelStep s₀ s₁ → LSat (finish ks rk) s₁
      (fun rc s' => s₀.labels ≤ s'.labels ∧ Labelled s₀.labels s'.labels rc.code) := by
    intro s₁ h₁
    obtain ⟨c₁, new, e₁, l₁⟩ := h₁
    rw [he, Array.toList_empty, List.nil_append] at e₁
    rw [lsat_finish]
    exact ⟨c₁, e₁ ▸ l₁⟩
  rw [lsat_bind]
  refine (hm.lsat s).mono fun _ s₁ h₁ => ?_
  split
  · rw [lsat_bind]
    exact ((OwnsLabels.emit hl ht).lsat s₁).mono fun _ s₂ h₂ => done s₂ (h₀.trans (h₁.trans h₂))
  · exact done s₁ (h₀.trans h₁)

section Routines

variable (cx : LowerCtx)

/-- A lowered routine's code is labelled from the labels allocated while lowering it. -/
theorem routine_labels (n : String) (ps : List Param) (r : Option Ty) (b : List Stmt)
    (s : LowerState) :
    LSat (routine cx n ps r b) s
      (fun rc s' => s.labels ≤ s'.labels ∧ Labelled s.labels s'.labels rc.code) := by
  unfold routine
  rw [lsat_bind]
  refine ((OwnsLabels.note _ _).lsat s).mono fun _ s₁ h₁ => ?_
  rw [lsat_bind]
  refine ((OwnsLabels.resolve cx _).lsat s₁).mono fun rt s₂ h₂ => ?_
  rw [lsat_bind]
  refine ((OwnsLabels.kind cx rt).lsat s₂).mono fun rk s₃ h₃ => ?_
  rw [lsat_bind]
  refine (lsat_modify _).mpr ?_
  -- the routine's own code starts empty, with the labels allocated so far
  generalize hs₄ : { s₃ with em := Emitter.start n rt } = s₄
  have empty : s₄.em.code = #[] := by rw [← hs₄]; rfl
  have counter : s₄.labels = s₃.labels := by rw [← hs₄]
  dsimp only
  rw [lsat_bind]
  refine ((OwnsLabels.forIn fun p _ _ => ?_).lsat s₄).mono fun kinds s₅ h₅ => ?_
  · refine OwnsLabels.bind (OwnsLabels.resolve cx _) fun t => ?_
    refine OwnsLabels.bind (OwnsLabels.kind cx t) fun _ => ?_
    refine OwnsLabels.bind (OwnsLabels.declareParam _ _ _) fun _ => ?_
    exact OwnsLabels.pure _
  · refine (finish_labels (stmts_labels cx b) rfl rfl _ _ empty h₅).mono fun rc s₆ h₆ => ?_
    have : s.labels ≤ s₄.labels := by
      have := h₁.counter
      have := h₂.counter
      have := h₃.counter
      omega
    exact ⟨Nat.le_trans this h₆.1, h₆.2.widen this (Nat.le_refl _)⟩

/-- The initializer, when there is one, has code labelled from the labels allocated while
lowering it. -/
theorem initializer_labels (ss : List Stmt) (s : LowerState) :
    LSat (initializer cx ss) s (fun o s' => s.labels ≤ s'.labels ∧
      ∀ rc ∈ o, Labelled s.labels s'.labels rc.code) := by
  unfold initializer
  rw [lsat_bind]
  refine (lsat_modify _).mpr ?_
  generalize hs₁ : ({ s with em := Emitter.start "initializer" .void } : LowerState) = s₁
  have empty : s₁.em.code = #[] := by rw [← hs₁]; rfl
  have counter : s₁.labels = s.labels := by rw [← hs₁]
  rw [lsat_bind]
  refine ((OwnsLabels.forIn fun st _ _ => ?_).lsat s₁).mono fun _ s₂ h₂ => ?_
  · split
    · refine OwnsLabels.bind (OwnsLabels.orFail _) fun p => ?_
      refine OwnsLabels.bind (initialValue_labels cx _ _) fun _ => ?_
      exact OwnsLabels.bind (OwnsLabels.storePlace p) fun _ => OwnsLabels.pure _
    · refine OwnsLabels.bind (OwnsLabels.orFail _) fun p => ?_
      refine OwnsLabels.bind (newValue_labels cx _) fun _ => ?_
      exact OwnsLabels.bind (OwnsLabels.storePlace p) fun _ => OwnsLabels.pure _
    · exact OwnsLabels.pure _
    · exact OwnsLabels.pure _
    · exact OwnsLabels.pure _
    · exact OwnsLabels.bind (stmt_labels cx _) fun _ => OwnsLabels.pure _
  · rw [lsat_bind]
    refine (OwnsLabels.emitter.lsat s₂).mono fun _ s₃ h₃ => ?_
    split
    · refine (lsat_pure _).mpr ⟨?_, fun _ h => by cases h⟩
      have := h₂.counter
      have := h₃.counter
      omega
    · rw [lsat_bind]
      refine ((OwnsLabels.note _ _).lsat s₃).mono fun _ s₄ h₄ => ?_
      rw [lsat_bind]
      refine ((OwnsLabels.emit rfl rfl : OwnsLabels (emit (.ret .void))).lsat s₄).mono
        fun _ s₅ h₅ => ?_
      rw [lsat_bind, lsat_finish, lsat_pure]
      obtain ⟨c, new, e, l⟩ := h₂.trans (h₃.trans (h₄.trans h₅))
      rw [empty, Array.toList_empty, List.nil_append] at e
      rw [counter] at c l
      refine ⟨c, fun rc hrc => ?_⟩
      cases hrc
      exact e ▸ l

/-- A module's routines and initializer define each label once among all of them, and each
jumps only to labels of its own. -/
theorem module_labels (scopes : Scopes) (opts : LowerOptions) (p : Program) (s : LowerState) :
    LSat (module scopes opts p) s
      (fun m _ => ∃ n, LabelledBelow n (m.routines ++ m.initializer.toList)) := by
  unfold module
  -- the record layouts and the globals allocate no labels and emit no code
  rw [lsat_bind]
  intro types s₁ _
  dsimp only
  rw [lsat_bind]
  intro acc s₂ _
  generalize hcx : (⟨scopes.env, scopes.routines, acc.snd, opts.alignWide⟩ : LowerCtx) = cx
  rw [lsat_bind]
  -- each routine takes its labels from after those of the routines before it
  refine (lsat_forIn (fun _ rs s => LabelledBelow s.labels rs.toList) (LabelledBelow.nil _)
      ?_).mono fun rs s₃ hrs => ?_
  · intro done st rest rs s₄ _ hI
    split
    · rename_i n ps r b _
      rw [lsat_bind]
      refine (routine_labels cx n ps r b s₄).mono fun rc s₅ hrc => ?_
      rw [lsat_pure]
      refine ⟨_, rfl, ?_⟩
      rw [Array.toList_push]
      exact hI.push hrc.2 hrc.1
    · rw [lsat_pure]
      exact ⟨_, rfl, hI⟩
  rw [lsat_bind]
  refine (initializer_labels cx p.statements s₃).mono fun init s₄ hinit => ?_
  rw [lsat_bind]
  intro _ _ _
  rw [lsat_pure]
  refine ⟨s₄.labels, ?_⟩
  cases init with
  | none => simpa using hrs.mono hinit.1
  | some rc => exact hrs.push (hinit.2 rc rfl) hinit.1

end Routines

end Lower

open Lower

/-- Whatever the scopes and options, in a module that lowering produces no label is defined
twice across its routines and its initializer, and every jump of a routine goes to a label
that the same routine defines. -/
theorem lowered_labels_unique_and_local (scopes : Scopes) (opts : LowerOptions) (p : Program)
    {m : Module} (h : (lowerProgram scopes opts p).1 = .ok m) :
    ((m.routines ++ m.initializer.toList).flatMap fun rc => labelsOf rc.code).Nodup ∧
      ∀ rc ∈ m.routines ++ m.initializer.toList, ∀ l ∈ targetsOf rc.code, l ∈ labelsOf rc.code := by
  obtain ⟨n, hn⟩ := module_labels scopes opts p _ m _ (Prod.ext h rfl)
  exact ⟨hn.nodup, hn.closed⟩

/-- A loop whose test is a comparison: four labels, each defined once. -/
theorem comparison_loop_labels :
    let p : Program := ⟨[.whileDo (.binary (.int 0) .lt (.int 3)) [.print (.int 1)]]⟩
    ∃ m, (lowerProgram default {} p).1 = .ok m ∧
      ((m.routines ++ m.initializer.toList).flatMap fun rc => labelsOf rc.code).Nodup ∧
      ∀ rc ∈ m.routines ++ m.initializer.toList, ∀ l ∈ targetsOf rc.code, l ∈ labelsOf rc.code := by
  intro p
  exact ⟨_, rfl, lowered_labels_unique_and_local default {} p rfl⟩

end ImpStack
