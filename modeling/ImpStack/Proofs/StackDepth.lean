import ImpStack.Proofs.Labels
import ImpStack.Stack.Machine

/-! # Operand-stack depth along the paths of code

  Lowered code is a list of instructions whose jumps go to labels. A path through it starts at
  the first instruction with an empty operand stack; each instruction changes the depth by its
  stack effect, control falls through to the next instruction unless the instruction jumps or
  returns, and a jump goes on where the machine goes on, at the first instruction that defines
  its label (`DepthAt`). The bound a routine records, `maxStackDepth`, walks the code in order
  instead: it overcounts where paths meet after a select, and whether it bounds every path is
  a question about how the code was made.

  The answer goes through a certificate, a depth for every label. `checkDepths D` walks the
  code in order beside the linear scan. It checks that every instruction control falls
  through to finds the slots it takes and jumps with the depth `D` gives its target, and that
  every label sits at its depth, which control falling into it must have and the linear scan
  must reach. On code that passes from an empty stack every path keeps the stack within what
  the linear scan counts, and no instruction takes slots the stack does not have
  (`StackSafe.of_checkDepths`).

  Certificates are built from pieces. A fragment is `Stacked δ pre post` when, whatever the
  depth below it, it takes the stack from `pre` slots above that base to `post` above it, with
  each label `l` it defines or jumps to at `δ l` above it. Fragments under the same offsets
  concatenate (`Stacked.append`), and every instruction on its own is such a fragment, so a
  construct's fragment is assembled instruction by instruction around those of its parts.
-/

namespace ImpStack

/-! ## Depths -/

namespace Instr

/-- Whether control goes on to the next instruction: a jump and a return never let it. -/
def fallsThrough : Instr → Bool
  | .jump _ | .ret _ => false
  | _ => true

/-- The depth of the operand stack after the instruction, from `d` slots before it. Popping
below an empty stack leaves it empty, as in the linear scan. -/
def after (i : Instr) (d : Nat) : Nat := d - i.stackEffect.1 + i.stackEffect.2

theorem after_mono (i : Instr) {d d' : Nat} (h : d ≤ d') : i.after d ≤ i.after d' := by
  unfold after; omega

@[simp] theorem after_label (l : Label) (d : Nat) : (Instr.label l).after d = d := by
  simp [after, stackEffect]

/-- Only a label defines one. -/
theorem eq_label_of_defines {i : Instr} {l : Label} {ls : List Label} (h : i.defines = l :: ls) :
    i = .label l := by
  cases i with
  | label l' =>
    simp only [defines, List.cons.injEq] at h
    rw [h.1]
  | _ => simp [defines] at h

/-- An instruction that jumps defines no label. -/
theorem defines_eq_nil_of_targets {i : Instr} {l : Label} (h : l ∈ i.targets) :
    i.defines = [] := by
  cases i <;> simp_all [targets, defines]

end Instr

/-- The depth the linear scan reaches over a run of code from `d` slots, jumps ignored. -/
def linearDepth (d : Nat) : List Instr → Nat
  | [] => d
  | i :: code => linearDepth (i.after d) code

@[simp] theorem linearDepth_nil (d : Nat) : linearDepth d [] = d := rfl

@[simp] theorem linearDepth_cons (d : Nat) (i : Instr) (code : List Instr) :
    linearDepth d (i :: code) = linearDepth (i.after d) code := rfl

theorem linearDepth_append (d : Nat) (a b : List Instr) :
    linearDepth d (a ++ b) = linearDepth (linearDepth d a) b := by
  induction a generalizing d with
  | nil => rfl
  | cons i a ih => exact ih _

/-- The linear scan's bound covers the depth it reaches after any number of instructions. -/
theorem linearDepth_take_le_maxStackDepth (code : List Instr) (k : Nat) :
    linearDepth 0 (code.take k) ≤ maxStackDepth code := by
  -- the scan carries the depth and the best depth so far, which is never below it
  have scan : ∀ (c : List Instr) (d b : Nat), d ≤ b →
      b ≤ (c.foldl (fun (acc : Nat × Nat) i => (i.after acc.1, max acc.2 (i.after acc.1)))
        (d, b)).2 ∧
      ∀ k, linearDepth d (c.take k) ≤
        (c.foldl (fun (acc : Nat × Nat) i => (i.after acc.1, max acc.2 (i.after acc.1)))
          (d, b)).2 := by
    intro c
    induction c with
    | nil => exact fun d b h => ⟨Nat.le_refl b, fun k => by simpa using h⟩
    | cons i c ih =>
      intro d b h
      obtain ⟨hb, hk⟩ := ih (i.after d) (max b (i.after d)) (Nat.le_max_right _ _)
      refine ⟨Nat.le_trans (Nat.le_max_left _ _) hb, fun k => ?_⟩
      cases k with
      | zero => simpa using Nat.le_trans h (Nat.le_trans (Nat.le_max_left _ _) hb)
      | succ k => simpa using hk k
  exact (scan code 0 0 (Nat.le_refl 0)).2 k

/-! ## Paths -/

/-- Where the machine goes on after a jump: the first definition of the label. -/
theorem labelAt_spec {code : List Instr} {l : Label} {q : Nat} (h : Machine.labelAt code l = some q) :
    code[q]? = some (.label l) := by
  obtain ⟨hq, hp, -⟩ := List.findIdx?_eq_some_iff_getElem.mp h
  rw [List.getElem?_eq_getElem hq]
  cases hi : code[q] with
  | label l' =>
    rw [hi] at hp
    simp only [beq_iff_eq] at hp
    rw [hp]
  | _ => rw [hi] at hp; simp at hp

/-- The depths the operand stack has before the instruction at `pc`, on the paths through
`code` from its first instruction with an empty stack. -/
inductive DepthAt (code : List Instr) : Nat → Nat → Prop
  | start : DepthAt code 0 0
  /-- Control falls through, with the instruction's stack effect applied. -/
  | next {pc d : Nat} {i : Instr} (reach : DepthAt code pc d) (instr : code[pc]? = some i)
      (falls : i.fallsThrough = true) : DepthAt code (pc + 1) (i.after d)
  /-- A jump goes on at its label, with the slots it takes removed. -/
  | jump {pc d q : Nat} {i : Instr} {l : Label} (reach : DepthAt code pc d)
      (instr : code[pc]? = some i) (target : l ∈ i.targets)
      (found : Machine.labelAt code l = some q) : DepthAt code q (d - i.stackEffect.1)

/-- Every path through the code finds the slots each instruction takes, and keeps the operand
stack within `bound` before and after each instruction. -/
def StackSafe (code : List Instr) (bound : Nat) : Prop :=
  ∀ pc d, DepthAt code pc d → d ≤ bound ∧
    ∀ i, code[pc]? = some i → i.stackEffect.1 ≤ d ∧ i.after d ≤ bound

/-! ## Checking label depths -/

/-- What the depth check knows before an instruction: the depth control falls through with,
`none` after a jump or a return, and the depth of the linear scan. -/
structure Flow where
  depth : Option Nat
  linear : Nat
  deriving DecidableEq, Repr

namespace Instr

/-- The depth check of one instruction against label depths `D`. A label sets the depth to its
own, which control falling into it must have and the linear scan must reach. Any other
instruction that control falls through to must find the slots it takes, and jumps with the
depth `D` gives its target; control falls through it with its stack effect applied unless it
jumps away or returns. Code that control cannot fall into is checked from the next label on. -/
def checkDepth (D : Label → Nat) (i : Instr) (f : Flow) : Option Flow :=
  match i.defines, f.depth with
  | l :: _, d =>
    if (d = none ∨ d = some (D l)) ∧ D l ≤ f.linear then some ⟨some (D l), f.linear⟩ else none
  | [], none => some ⟨none, i.after f.linear⟩
  | [], some d =>
    if i.stackEffect.1 ≤ d ∧ ∀ l ∈ i.targets, D l = d - i.stackEffect.1 then
      some ⟨if i.fallsThrough then some (i.after d) else none, i.after f.linear⟩
    else none

end Instr

/-- The depth check of a run of code, instruction by instruction. -/
def checkDepths (D : Label → Nat) : List Instr → Flow → Option Flow
  | [], f => some f
  | i :: code, f => (i.checkDepth D f).bind (checkDepths D code)

section Check

variable {D : Label → Nat}

@[simp] theorem checkDepths_nil (f : Flow) : checkDepths D [] f = some f := rfl

theorem checkDepths_append (a b : List Instr) (f : Flow) :
    checkDepths D (a ++ b) f = (checkDepths D a f).bind (checkDepths D b) := by
  induction a generalizing f with
  | nil => rfl
  | cons i a ih =>
    simp only [List.cons_append, checkDepths]
    cases i.checkDepth D f with
    | none => rfl
    | some m => simp only [Option.bind_some, ih]

theorem checkDepths_append_some {a b : List Instr} {f g : Flow}
    (h : checkDepths D (a ++ b) f = some g) :
    ∃ m, checkDepths D a f = some m ∧ checkDepths D b m = some g := by
  rw [checkDepths_append] at h
  cases ha : checkDepths D a f with
  | none => rw [ha] at h; cases h
  | some m => rw [ha] at h; exact ⟨m, rfl, h⟩

/-- What passing the check of one instruction says: it is a label that control arrives at with
its depth or not at all, or control cannot fall into it, or control falls into it with enough
slots and it jumps with the depths of its targets. -/
theorem Instr.checkDepth_some {i : Instr} {f g : Flow} (h : i.checkDepth D f = some g) :
    (∃ l, i = .label l ∧ (f.depth = none ∨ f.depth = some (D l)) ∧ D l ≤ f.linear ∧
      g = ⟨some (D l), f.linear⟩) ∨
    (i.defines = [] ∧ f.depth = none ∧ g = ⟨none, i.after f.linear⟩) ∨
    (∃ d, i.defines = [] ∧ f.depth = some d ∧ i.stackEffect.1 ≤ d ∧
      (∀ l ∈ i.targets, D l = d - i.stackEffect.1) ∧
      g = ⟨if i.fallsThrough then some (i.after d) else none, i.after f.linear⟩) := by
  unfold checkDepth at h
  cases hd : i.defines with
  | cons l ls =>
    simp only [hd] at h
    split at h
    · rename_i hc
      cases h
      exact .inl ⟨l, eq_label_of_defines hd, hc.1, hc.2, rfl⟩
    · cases h
  | nil =>
    cases hf : f.depth with
    | none =>
      simp only [hd, hf] at h
      cases h
      exact .inr (.inl ⟨rfl, rfl, rfl⟩)
    | some d =>
      simp only [hd, hf] at h
      split at h
      · rename_i hc
        cases h
        exact .inr (.inr ⟨d, rfl, rfl, hc.1, hc.2, rfl⟩)
      · cases h

theorem Instr.checkDepth_linear {i : Instr} {f g : Flow} (h : i.checkDepth D f = some g) :
    g.linear = i.after f.linear := by
  rcases checkDepth_some h with ⟨l, rfl, -, -, rfl⟩ | ⟨-, -, rfl⟩ | ⟨d, -, -, -, -, rfl⟩
  · exact (after_label l _).symm
  · rfl
  · rfl

theorem Instr.checkDepth_label (l : Label) {f : Flow} (h : f.depth = none ∨ f.depth = some (D l))
    (hl : D l ≤ f.linear) : (Instr.label l).checkDepth D f = some ⟨some (D l), f.linear⟩ := by
  simp only [checkDepth, defines]
  exact if_pos ⟨h, hl⟩

theorem Instr.checkDepth_unreached {i : Instr} {f : Flow} (hd : i.defines = [])
    (hf : f.depth = none) : i.checkDepth D f = some ⟨none, i.after f.linear⟩ := by
  simp only [checkDepth, hd, hf]

theorem Instr.checkDepth_reached {i : Instr} {f : Flow} {d : Nat} (hd : i.defines = [])
    (hf : f.depth = some d) (hp : i.stackEffect.1 ≤ d)
    (ht : ∀ l ∈ i.targets, D l = d - i.stackEffect.1) :
    i.checkDepth D f =
      some ⟨if i.fallsThrough then some (i.after d) else none, i.after f.linear⟩ := by
  simp only [checkDepth, hd, hf]
  exact if_pos ⟨hp, ht⟩

@[simp] theorem checkDepths_singleton (i : Instr) (f : Flow) :
    checkDepths D [i] f = i.checkDepth D f := by
  simp only [checkDepths]
  cases i.checkDepth D f <;> rfl

/-- The check keeps the linear scan's depth beside its own. -/
theorem checkDepths_linear {code : List Instr} {f g : Flow} (h : checkDepths D code f = some g) :
    g.linear = linearDepth f.linear code := by
  induction code generalizing f with
  | nil => cases h; rfl
  | cons i code ih =>
    simp only [checkDepths] at h
    cases hi : i.checkDepth D f with
    | none => rw [hi] at h; cases h
    | some m =>
      rw [hi, Option.bind_some] at h
      rw [ih h, Instr.checkDepth_linear hi]
      rfl

/-- Where a check that passes has been: the check of the first `k` instructions passes, and
the check of the instruction at `k` goes on from it. -/
theorem checkDepths_take {code : List Instr} {f fin : Flow} (hc : checkDepths D code f = some fin)
    {k : Nat} {i : Instr} (hk : code[k]? = some i) :
    ∃ g g', checkDepths D (code.take k) f = some g ∧ i.checkDepth D g = some g' ∧
      checkDepths D (code.take (k + 1)) f = some g' := by
  have hsplit : code = code.take k ++ [i] ++ code.drop (k + 1) := by
    have htake : code.take (k + 1) = code.take k ++ [i] := by
      rw [List.take_add_one, hk]; rfl
    rw [← htake, List.take_append_drop]
  rw [hsplit] at hc
  obtain ⟨g', h₁, -⟩ := checkDepths_append_some hc
  obtain ⟨g, h₂, h₃⟩ := checkDepths_append_some h₁
  have hi : i.checkDepth D g = some g' := by
    simp only [checkDepths] at h₃
    cases hi : i.checkDepth D g with
    | none => rw [hi] at h₃; cases h₃
    | some m => rw [hi] at h₃; simpa using h₃
  refine ⟨g, g', h₂, hi, ?_⟩
  rw [List.take_add_one, hk, Option.toList_some, checkDepths_append, h₂]
  simp [checkDepths, hi]

/-- What the check says of a path that reaches `pc` with `d` slots: the check of the code before
`pc` passes, the linear scan has reached at least `d`, and control falls through with `d` or
stands at a label whose depth is `d`. -/
def Checked (D : Label → Nat) (code : List Instr) (pc d : Nat) : Prop :=
  ∃ g, checkDepths D (code.take pc) ⟨some 0, 0⟩ = some g ∧ d ≤ g.linear ∧
    (g.depth = some d ∨ ∃ l, code[pc]? = some (.label l) ∧ D l = d)

/-- Every path that reaches an instruction is one the check has been along. -/
theorem DepthAt.checked {code : List Instr} {fin : Flow}
    (hc : checkDepths D code ⟨some 0, 0⟩ = some fin) {pc d : Nat} (h : DepthAt code pc d) :
    Checked D code pc d := by
  induction h with
  | start => exact ⟨⟨some 0, 0⟩, rfl, Nat.le_refl 0, .inl rfl⟩
  | @next pc d i _ instr falls ih =>
    obtain ⟨g, hg, hd, hat⟩ := ih
    obtain ⟨g₁, g', hg₁, hi, hg'⟩ := checkDepths_take hc instr
    rw [hg] at hg₁
    cases hg₁
    refine ⟨g', hg', ?_⟩
    rcases Instr.checkDepth_some hi with ⟨l, rfl, hcond, hlin, rfl⟩ | ⟨hdef, hdep, rfl⟩ |
      ⟨d', hdef, hdep, -, -, rfl⟩
    · -- a label: the path stands at its depth, which the check sets
      have hdl : d = D l := by
        rcases hat with hs | ⟨l', hl', hD⟩
        · rcases hcond with hn | hn <;> rw [hs] at hn <;> cases hn; rfl
        · rw [instr] at hl'
          cases hl'
          exact hD.symm
      subst hdl
      exact ⟨by simpa using hd, .inl (by simp)⟩
    · -- control falls into every other instruction with the depth of the path
      rcases hat with hs | ⟨l', hl', -⟩
      · rw [hs] at hdep; cases hdep
      · rw [instr] at hl'; cases hl'; simp [Instr.defines] at hdef
    · have hdd : d' = d := by
        rcases hat with hs | ⟨l', hl', -⟩
        · rw [hs] at hdep; cases hdep; rfl
        · rw [instr] at hl'; cases hl'; simp [Instr.defines] at hdef
      subst hdd
      exact ⟨Instr.after_mono i hd, .inl (by simp [falls])⟩
  | @jump pc d q i l _ instr target found ih =>
    obtain ⟨g, hg, -, hat⟩ := ih
    obtain ⟨g₁, g', hg₁, hi, -⟩ := checkDepths_take hc instr
    rw [hg] at hg₁
    cases hg₁
    have hdef := Instr.defines_eq_nil_of_targets target
    -- the jump is checked with the depth that reaches it
    have hDl : D l = d - i.stackEffect.1 := by
      rcases Instr.checkDepth_some hi with ⟨l', rfl, -⟩ | ⟨-, hdep, -⟩ |
        ⟨d', -, hdep, -, htgt, -⟩
      · simp [Instr.targets] at target
      · rcases hat with hs | ⟨l', hl', -⟩
        · rw [hs] at hdep; cases hdep
        · rw [instr] at hl'; cases hl'; simp [Instr.defines] at hdef
      · rcases hat with hs | ⟨l', hl', -⟩
        · rw [hs] at hdep; cases hdep; exact htgt l target
        · rw [instr] at hl'; cases hl'; simp [Instr.defines] at hdef
    -- and the label is checked at its own depth, which the linear scan reaches there
    have hq := labelAt_spec found
    obtain ⟨gq, gq', hgq, hiq, -⟩ := checkDepths_take hc hq
    refine ⟨gq, hgq, ?_, .inr ⟨l, hq, hDl⟩⟩
    rcases Instr.checkDepth_some hiq with ⟨l', hl', -, hlin, -⟩ | ⟨hdef', -⟩ |
      ⟨d', hdef', -⟩
    · cases hl'; rw [← hDl]; exact hlin
    · simp [Instr.defines] at hdef'
    · simp [Instr.defines] at hdef'

/-- Code that passes the depth check from an empty stack is safe: every path finds the slots
each instruction takes, and the linear scan's bound covers the stack before and after every
instruction. -/
theorem StackSafe.of_checkDepths {code : List Instr} {fin : Flow}
    (hc : checkDepths D code ⟨some 0, 0⟩ = some fin) : StackSafe code (maxStackDepth code) := by
  intro pc d h
  obtain ⟨g, hg, hd, hat⟩ := h.checked hc
  have hlin : g.linear = linearDepth 0 (code.take pc) := checkDepths_linear hg
  refine ⟨Nat.le_trans hd (hlin ▸ linearDepth_take_le_maxStackDepth code pc), fun i hi => ?_⟩
  obtain ⟨g₁, g', hg₁, hchk, hg'⟩ := checkDepths_take hc hi
  rw [hg] at hg₁
  cases hg₁
  -- the depth after the instruction is what the linear scan reaches after it, or less
  have hafter : i.after d ≤ maxStackDepth code := by
    have hlin' : g'.linear = linearDepth 0 (code.take (pc + 1)) := checkDepths_linear hg'
    rw [Instr.checkDepth_linear hchk] at hlin'
    exact Nat.le_trans (Instr.after_mono i hd)
      (hlin' ▸ linearDepth_take_le_maxStackDepth code (pc + 1))
  refine ⟨?_, hafter⟩
  rcases Instr.checkDepth_some hchk with ⟨l, rfl, -⟩ | ⟨hdef, hdep, -⟩ |
    ⟨d', hdef, hdep, hpop, -, -⟩
  · simp [Instr.stackEffect]
  · rcases hat with hs | ⟨l', hl', -⟩
    · rw [hs] at hdep; cases hdep
    · rw [hi] at hl'; cases hl'; simp [Instr.defines] at hdef
  · rcases hat with hs | ⟨l', hl', -⟩
    · rw [hs] at hdep; cases hdep; exact hpop
    · rw [hi] at hl'; cases hl'; simp [Instr.defines] at hdef

/-! ## Fragments -/

/-- A flow that knows less than another: the same linear depth, and no depth or the same. -/
def Flow.Below (f g : Flow) : Prop := f.linear = g.linear ∧ (f.depth = none ∨ f.depth = g.depth)

/-- Checking from a flow that knows less passes wherever checking from the other does, and
still knows less. -/
theorem Instr.checkDepth_below {i : Instr} {f g g' : Flow} (hg : i.checkDepth D g = some g')
    (h : f.Below g) : ∃ f', i.checkDepth D f = some f' ∧ f'.Below g' := by
  obtain ⟨hlin, hdep⟩ := h
  rcases checkDepth_some hg with ⟨l, rfl, hcond, hl, rfl⟩ | ⟨hd, hgd, rfl⟩ |
    ⟨d, hd, hgd, hp, ht, rfl⟩
  · -- a label takes its own depth either way
    have hf : f.depth = none ∨ f.depth = some (D l) := by
      rcases hdep with h | h
      · exact .inl h
      · rw [h]; exact hcond
    exact ⟨_, checkDepth_label l hf (hlin ▸ hl), by simp [hlin], .inr rfl⟩
  · have hf : f.depth = none := by rcases hdep with h | h <;> simp [h, hgd]
    exact ⟨_, checkDepth_unreached hd hf, by simp [hlin], .inl rfl⟩
  · rcases hdep with hf | hf
    · exact ⟨_, checkDepth_unreached hd hf, by simp [hlin], .inl rfl⟩
    · rw [hgd] at hf
      exact ⟨_, checkDepth_reached hd hf hp ht, by simp [hlin], .inr rfl⟩

theorem checkDepths_below {code : List Instr} {f g g' : Flow} (hg : checkDepths D code g = some g')
    (h : f.Below g) : ∃ f', checkDepths D code f = some f' ∧ f'.Below g' := by
  induction code generalizing f g with
  | nil => cases hg; exact ⟨f, rfl, h⟩
  | cons i code ih =>
    simp only [checkDepths] at hg ⊢
    cases hi : i.checkDepth D g with
    | none => rw [hi] at hg; cases hg
    | some m =>
      rw [hi, Option.bind_some] at hg
      obtain ⟨f₁, hf₁, hb₁⟩ := Instr.checkDepth_below hi h
      obtain ⟨f', hf', hb'⟩ := ih hg hb₁
      exact ⟨f', by rw [hf₁, Option.bind_some, hf'], hb'⟩

end Check

/-- Code that takes the operand stack from `pre` slots above a base to `post` above it, with
each label it defines or jumps to at its offset `δ l` above the base. Whatever the base, with
label depths that say so, the check passes from `base + pre` slots once the linear scan covers
them; at the end control cannot fall through, or does so with `base + post`, which the linear
scan covers too. -/
def Stacked (δ : Label → Nat) (pre post : Nat) (code : List Instr) : Prop :=
  ∀ (D : Label → Nat) (base r : Nat), (∀ l ∈ labelsOf code ++ targetsOf code, D l = base + δ l) →
    base + pre ≤ r →
      ∃ d, checkDepths D code ⟨some (base + pre), r⟩ = some ⟨d, linearDepth r code⟩ ∧
        (d = none ∨ d = some (base + post)) ∧ base + post ≤ linearDepth r code

theorem mem_labels_append_left {a b : List Instr} {l : Label}
    (h : l ∈ labelsOf a ++ targetsOf a) : l ∈ labelsOf (a ++ b) ++ targetsOf (a ++ b) := by
  simp only [labelsOf_append, targetsOf_append, List.mem_append] at h ⊢
  rcases h with h | h <;> simp [h]

theorem mem_labels_append_right {a b : List Instr} {l : Label}
    (h : l ∈ labelsOf b ++ targetsOf b) : l ∈ labelsOf (a ++ b) ++ targetsOf (a ++ b) := by
  simp only [labelsOf_append, targetsOf_append, List.mem_append] at h ⊢
  rcases h with h | h <;> simp [h]

namespace Stacked

variable {δ : Label → Nat}

theorem nil (δ : Label → Nat) (p : Nat) : Stacked δ p p [] :=
  fun _ _ _ _ hr => ⟨_, rfl, .inr rfl, hr⟩

/-- Fragments one after the other: where control cannot fall out of the first, checking the
second from no depth passes all the same. -/
theorem append {p m q : Nat} {a b : List Instr} (ha : Stacked δ p m a) (hb : Stacked δ m q b) :
    Stacked δ p q (a ++ b) := by
  intro D base r hD hr
  obtain ⟨d₁, h₁, hd₁, hr₁⟩ := ha D base r (fun l hl => hD l (mem_labels_append_left hl)) hr
  obtain ⟨d₂, h₂, hd₂, hr₂⟩ :=
    hb D base (linearDepth r a) (fun l hl => hD l (mem_labels_append_right hl)) hr₁
  rw [checkDepths_append, h₁, Option.bind_some, linearDepth_append]
  rcases hd₁ with rfl | rfl
  · obtain ⟨⟨d', r'⟩, hf, hlin, hdep⟩ :=
      checkDepths_below (f := ⟨none, linearDepth r a⟩) h₂ ⟨rfl, .inl rfl⟩
    simp only at hlin hdep
    subst hlin
    refine ⟨d', hf, ?_, hr₂⟩
    rcases hdep with h | h
    · exact .inl h
    · rw [h]; exact hd₂
  · exact ⟨d₂, h₂, hd₂, hr₂⟩

/-- Offsets matter only for the labels the code defines or jumps to. -/
theorem congr {δ' : Label → Nat} {p q : Nat} {c : List Instr} (h : Stacked δ p q c)
    (hδ : ∀ l ∈ labelsOf c ++ targetsOf c, δ' l = δ l) : Stacked δ' p q c :=
  fun D base r hD hr => h D base r (fun l hl => by rw [hD l hl, hδ l hl]) hr

/-- A fragment above `k` more slots. -/
theorem lift {p q : Nat} {c : List Instr} (h : Stacked δ p q c) (k : Nat) :
    Stacked (fun l => δ l + k) (p + k) (q + k) c := by
  intro D base r hD hr
  obtain ⟨d, hc, hd, hl⟩ :=
    h D (base + k) r (fun l hl => by have e := hD l hl; dsimp only at e; omega) (by omega)
  refine ⟨d, ?_, ?_, by omega⟩
  · rw [show base + (p + k) = base + k + p by omega]; exact hc
  · rw [show base + (q + k) = base + k + q by omega]; exact hd

/-- An instruction that neither defines nor jumps to a label and lets control fall through,
above `k` slots. -/
theorem plain {i : Instr} (hd : i.defines = []) (ht : i.targets = []) (hf : i.fallsThrough = true)
    (k : Nat) : Stacked δ (k + i.stackEffect.1) (k + i.stackEffect.2) [i] := by
  intro D base r _ hr
  refine ⟨some (base + (k + i.stackEffect.2)), ?_, .inr rfl, ?_⟩
  · rw [checkDepths_singleton, Instr.checkDepth_reached hd rfl (by omega) (by simp [ht])]
    simp only [hf, ↓reduceIte, linearDepth_cons, linearDepth_nil, Instr.after]
    congr 3
    omega
  · simp only [linearDepth_cons, linearDepth_nil, Instr.after]
    omega

/-- A label at offset `k`, with control arriving at it from above `k` slots or not at all. -/
theorem label {l : Label} {k : Nat} (h : δ l = k) : Stacked δ k k [.label l] := by
  intro D base r hD hr
  have hDl : D l = base + k := by rw [hD l (by simp [labelsOf, Instr.defines]), h]
  refine ⟨some (base + k), ?_, .inr rfl, by simpa using hr⟩
  rw [checkDepths_singleton, Instr.checkDepth_label l (.inr (by rw [hDl])) (by dsimp only; omega),
    hDl]
  simp

/-- A jump to a label at offset `k`; control does not fall through it. -/
theorem jump {l : Label} {k q : Nat} (h : δ l = k) (hq : q ≤ k) : Stacked δ k q [.jump l] := by
  intro D base r hD hr
  have hDl : D l = base + k := by rw [hD l (by simp [targetsOf, Instr.targets]), h]
  refine ⟨none, ?_, .inl rfl, by simp [Instr.after, Instr.stackEffect]; omega⟩
  rw [checkDepths_singleton, Instr.checkDepth_reached rfl rfl (by simp [Instr.stackEffect])
    (by simp [Instr.targets, Instr.stackEffect, hDl])]
  simp [Instr.fallsThrough]

/-- A conditional jump to a label at offset `k`, taking its operands from above it. -/
theorem branch {i : Instr} {l : Label} (hd : i.defines = []) (ht : i.targets = [l])
    (hf : i.fallsThrough = true) {k : Nat} (h : δ l = k) :
    Stacked δ (k + i.stackEffect.1) (k + i.stackEffect.2) [i] := by
  intro D base r hD hr
  have hDl : D l = base + k := by rw [hD l (by simp [targetsOf, ht]), h]
  refine ⟨some (base + (k + i.stackEffect.2)), ?_, .inr rfl, ?_⟩
  · rw [checkDepths_singleton, Instr.checkDepth_reached hd rfl (by omega)
      (by simp only [ht, List.mem_singleton, forall_eq, hDl]; omega)]
    simp only [hf, ↓reduceIte, linearDepth_cons, linearDepth_nil, Instr.after]
    congr 3
    omega
  · simp only [linearDepth_cons, linearDepth_nil, Instr.after]
    omega

/-- A return of a value of kind `kind` from above `k` slots; control does not fall through it. -/
theorem ret (kind : ValueKind) (k : Nat) : Stacked δ (k + kind.width) k [.ret kind] := by
  intro D base r _ hr
  refine ⟨none, ?_, .inl rfl, by simp [Instr.after, Instr.stackEffect]; omega⟩
  rw [checkDepths_singleton, Instr.checkDepth_reached rfl rfl
    (by simp only [Instr.stackEffect]; omega) (by simp [Instr.targets])]
  simp [Instr.fallsThrough]

/-- Code that takes an empty stack anywhere passes the depth check with its offsets as the
label depths, so every path through it is safe. -/
theorem stackSafe {q : Nat} {code : List Instr} (h : Stacked δ 0 q code) :
    StackSafe code (maxStackDepth code) := by
  obtain ⟨d, hc, -⟩ := h δ 0 0 (fun l _ => (Nat.zero_add _).symm) (Nat.le_refl 0)
  exact StackSafe.of_checkDepths hc

end Stacked

end ImpStack
