import Mathlib.Data.List.Pairwise
import ImpStack.Proofs.Labels
import ImpStack.Proofs.Returns
import ImpStack.Proofs.Alignment

/-! # Local slots of lowered code

  A routine keeps its locals in numbered slots, a real in two. Lowering hands them out from one
  counter that only grows (`Emitter.next`): a routine's parameters are packed from slot 0 in
  order, and every later local or temporary takes the next free slots, a real rounded up to an
  even slot when wide values are aligned. So no slot is handed out twice, not even after the
  scope of its local has closed.

  What the code of a routine shows of this is `SlotsLaidOut`: every slot it touches lies below
  the routine's slot count, the parameters' slots hold the parameters with their kinds, two
  values touched are one or lie in slots apart, and an aligned real past the parameters starts
  on an even slot.

  The proof carries an invariant over the routine being lowered (`Layout`): the slots its code
  touches and those of its locals in scope are laid out below the counter. Each lowering step
  keeps it, and each is a `SlotStep`: it allocates above the counter it found, brings into scope
  only locals in slots it allocates, and its code touches the slots below only through the locals
  then in scope, or through the temporaries of the constructs around it. The index of an element
  loop and the array a widening copy reads are such temporaries: slots that no name refers to.
  The constructs with temporaries never touch a local, and so touch only slots they allocate
  themselves (`OwnSlots`), however deeply they nest.
-/

namespace ImpStack

/-! ## Slots touched by code -/

namespace Instr

/-- The local slot an instruction reads or writes, with the kind of value it moves. -/
def slotAccess : Instr → Option (Nat × ValueKind)
  | .load slot kind | .store slot kind => some (slot, kind)
  | _ => none

end Instr

/-- The slots code reads or writes, with their kinds, in order. -/
def accessesOf (code : List Instr) : List (Nat × ValueKind) := code.filterMap Instr.slotAccess

theorem mem_accessesOf {code : List Instr} {a : Nat × ValueKind} :
    a ∈ accessesOf code ↔ ∃ i ∈ code, i.slotAccess = some a := List.mem_filterMap

@[simp] theorem accessesOf_nil : accessesOf [] = [] := rfl

@[simp] theorem accessesOf_append (c₁ c₂ : List Instr) :
    accessesOf (c₁ ++ c₂) = accessesOf c₁ ++ accessesOf c₂ := List.filterMap_append

theorem ValueKind.width_pos {k : ValueKind} (h : k ≠ .void) : 0 < k.width := by
  cases k <;> simp_all [ValueKind.width]

/-! ## Parameters -/

/-- The slots of parameters of kinds `ks`, packed in order from slot `o`, with their kinds. -/
def paramSlots : List ValueKind → Nat → List (Nat × ValueKind)
  | [], _ => []
  | k :: ks, o => (o, k) :: paramSlots ks (o + k.width)

/-- How many slots parameters of kinds `ks` take. -/
def paramWidth : List ValueKind → Nat
  | [] => 0
  | k :: ks => k.width + paramWidth ks

@[simp] theorem paramWidth_nil : paramWidth [] = 0 := rfl

@[simp] theorem paramWidth_cons (k : ValueKind) (ks : List ValueKind) :
    paramWidth (k :: ks) = k.width + paramWidth ks := rfl

theorem paramWidth_append (ks ks' : List ValueKind) :
    paramWidth (ks ++ ks') = paramWidth ks + paramWidth ks' := by
  induction ks with
  | nil => simp
  | cons k ks ih => simp [ih, Nat.add_assoc]

theorem paramSlots_append (k : ValueKind) :
    ∀ (ks : List ValueKind) (o : Nat), paramSlots (ks ++ [k]) o = paramSlots ks o ++ [(o + paramWidth ks, k)]
  | [], o => by simp [paramSlots]
  | k' :: ks, o => by
    rw [List.cons_append, paramSlots, paramSlots, paramSlots_append k ks, List.cons_append]
    simp [Nat.add_assoc]

/-- Each parameter's slots lie between `o` and the end of the parameters. -/
theorem paramSlots_bounds : ∀ (ks : List ValueKind) (o : Nat), ∀ a ∈ paramSlots ks o,
    o ≤ a.1 ∧ a.1 + a.2.width ≤ o + paramWidth ks
  | [], _, a, h => by cases h
  | k :: ks, o, a, h => by
    have hw : paramWidth (k :: ks) = k.width + paramWidth ks := rfl
    rw [paramSlots, List.mem_cons] at h
    rcases h with rfl | h
    · simp only [hw]
      omega
    · have := paramSlots_bounds ks (o + k.width) a h
      rw [hw]
      omega

/-- Parameters come in order, each after the slots of the one before. -/
theorem paramSlots_sorted : ∀ (ks : List ValueKind) (o : Nat),
    (paramSlots ks o).Pairwise (fun a b => a.1 + a.2.width ≤ b.1)
  | [], _ => List.Pairwise.nil
  | k :: ks, o => by
    rw [paramSlots, List.pairwise_cons]
    exact ⟨fun b hb => (paramSlots_bounds ks _ b hb).1, paramSlots_sorted ks _⟩

/-! ## The rules -/

/-- Two values whose slots do not overlap. -/
def Apart (a b : Nat × ValueKind) : Prop := a.1 + a.2.width ≤ b.1 ∨ b.1 + b.2.width ≤ a.1

instance : Std.Symm Apart := ⟨fun _ _ h => Or.symm h⟩

theorem paramSlots_apart (ks : List ValueKind) (o : Nat) :
    ∀ a ∈ paramSlots ks o, ∀ b ∈ paramSlots ks o, a = b ∨ Apart a b := by
  intro a ha b hb
  by_cases he : a = b
  · exact .inl he
  · have sorted : (paramSlots ks o).Pairwise Apart := (paramSlots_sorted ks o).imp Or.inl
    exact .inr (sorted.forall ha hb he)

/-- The rules a routine's slots follow, said of the slots `S` its code touches, with the kinds
of the values moved, for parameters of kinds `P`, `top` slots in all, and wide values aligned
when `aw` is set. -/
structure SlotsLaidOut (aw : Bool) (P : List ValueKind) (top : Nat) (S : List (Nat × ValueKind)) :
    Prop where
  /-- The parameters' slots are counted. -/
  params_fit : paramWidth P ≤ top
  /-- Every value lies below `top`, both slots of a real included. -/
  within : ∀ a ∈ S, a.1 + a.2.width ≤ top
  /-- A value in the parameters' slots is a parameter, in its slot and of its kind. -/
  params : ∀ a ∈ S, a.2 ≠ .void → a.1 < paramWidth P → a ∈ paramSlots P 0
  /-- Two values are one, or lie in slots apart. -/
  apart : ∀ a ∈ S, ∀ b ∈ S, a.2 ≠ .void → b.2 ≠ .void → a = b ∨ Apart a b
  /-- With wide values aligned, a real past the parameters starts on an even slot. -/
  aligned : aw = true → ∀ a ∈ S, a.2 = .real → paramWidth P ≤ a.1 → a.1 % 2 = 0

namespace SlotsLaidOut

variable {aw : Bool} {P : List ValueKind} {top top' : Nat} {S S' : List (Nat × ValueKind)}

/-- All the values touched in one slot have one kind. -/
theorem one_kind (h : SlotsLaidOut aw P top S) :
    ∀ a ∈ S, ∀ b ∈ S, a.1 = b.1 → a.2 ≠ .void → b.2 ≠ .void → a.2 = b.2 := by
  intro a ha b hb hs hva hvb
  rcases h.apart a ha b hb hva hvb with rfl | hab
  · rfl
  · -- two values in the same slot overlap, since neither is empty
    have := ValueKind.width_pos hva
    have := ValueKind.width_pos hvb
    unfold Apart at hab
    omega

/-- Fewer values in more slots. -/
theorem mono (h : SlotsLaidOut aw P top S) (ht : top ≤ top') (hs : ∀ a ∈ S', a ∈ S) :
    SlotsLaidOut aw P top' S' where
  params_fit := Nat.le_trans h.params_fit ht
  within a ha := Nat.le_trans (h.within a (hs a ha)) ht
  params a ha := h.params a (hs a ha)
  apart a ha b hb := h.apart a (hs a ha) b (hs b hb)
  aligned hw a ha := h.aligned hw a (hs a ha)

/-- A value in slots above all the others, aligned when it must be, keeps the rules. -/
theorem extend (h : SlotsLaidOut aw P top S) {a : Nat × ValueKind} (hfresh : top ≤ a.1)
    (hfit : a.1 + a.2.width ≤ top') (hal : aw = true → a.2 = .real → a.1 % 2 = 0)
    (hs : ∀ b ∈ S', b ∈ S ∨ b = a) : SlotsLaidOut aw P top' S' where
  params_fit := by
    have := h.params_fit
    omega
  within b hb := by
    rcases hs b hb with hb | rfl
    · have := h.within b hb
      omega
    · exact hfit
  params b hb hv hlt := by
    rcases hs b hb with hb | rfl
    · exact h.params b hb hv hlt
    · have := h.params_fit
      omega
  apart b hb c hc hvb hvc := by
    rcases hs b hb with hb | rfl <;> rcases hs c hc with hc | rfl
    · exact h.apart b hb c hc hvb hvc
    · exact .inr (.inl (Nat.le_trans (h.within b hb) hfresh))
    · exact .inr (.inr (Nat.le_trans (h.within c hc) hfresh))
    · exact .inl rfl
  aligned hw b hb hr hp := by
    rcases hs b hb with hb | rfl
    · exact h.aligned hw b hb hr hp
    · exact hal hw hr

end SlotsLaidOut

/-- The parameters alone are laid out. -/
theorem paramSlots_laidOut (aw : Bool) (P : List ValueKind) :
    SlotsLaidOut aw P (paramWidth P) (paramSlots P 0) where
  params_fit := Nat.le_refl _
  within a ha := by simpa using (paramSlots_bounds P 0 a ha).2
  params a ha _ _ := ha
  apart a ha b hb _ _ := paramSlots_apart P 0 a ha b hb
  aligned _ a ha hr hp := by
    -- a real parameter ends within the parameters
    have := (paramSlots_bounds P 0 a ha).2
    rw [hr] at this
    simp only [ValueKind.width, Nat.zero_add] at this
    omega

/-! ## The routine being lowered -/

/-- The slots of the locals in scope, with their kinds. -/
def slotsBound (frames : List (List (String × Local))) : List (Nat × ValueKind) :=
  frames.flatMap fun f => f.map fun e => (e.2.slot, e.2.kind)

theorem mem_slotsBound {frames : List (List (String × Local))} {a : Nat × ValueKind} :
    a ∈ slotsBound frames ↔ ∃ e ∈ frames.flatten, (e.2.slot, e.2.kind) = a := by
  simp only [slotsBound, List.mem_flatMap, List.mem_map, List.mem_flatten]
  constructor
  · rintro ⟨f, hf, e, he, rfl⟩
    exact ⟨e, ⟨f, hf, he⟩, rfl⟩
  · rintro ⟨e, ⟨f, hf, he⟩, rfl⟩
    exact ⟨f, hf, e, he, rfl⟩

theorem slotsBound_of_mem {frames : List (List (String × Local))} {e : String × Local}
    (h : e ∈ frames.flatten) : (e.2.slot, e.2.kind) ∈ slotsBound frames :=
  mem_slotsBound.mpr ⟨e, h, rfl⟩

/-- Scopes that hold no other locals hold no other slots. -/
theorem slotsBound_mono {frames frames' : List (List (String × Local))}
    (h : ∀ e ∈ frames'.flatten, e ∈ frames.flatten) :
    ∀ a ∈ slotsBound frames', a ∈ slotsBound frames := by
  intro a ha
  obtain ⟨e, he, rfl⟩ := mem_slotsBound.mp ha
  exact slotsBound_of_mem (h e he)

theorem mem_assocSet {f : List (String × Local)} {n : String} {l : Local} {e : String × Local}
    (h : e ∈ assocSet f n l) : e ∈ f ∨ e = (n, l) := by
  unfold assocSet at h
  split at h
  · obtain ⟨e', he', rfl⟩ := List.mem_map.mp h
    split
    · exact .inr rfl
    · exact .inl he'
  · rcases List.mem_append.mp h with h | h
    · exact .inl h
    · exact .inr (List.mem_singleton.mp h)

/-- Binding a local puts it in scope, and may hide another. -/
theorem mem_bindIn {frames : List (List (String × Local))} {n : String} {l : Local}
    {e : String × Local} (h : e ∈ (Lower.bindIn frames n l).flatten) :
    e ∈ frames.flatten ∨ e = (n, l) := by
  unfold Lower.bindIn at h
  split at h
  · simp at h
  · rw [List.flatten_cons, List.mem_append] at h
    rcases h with h | h
    · exact (mem_assocSet h).imp_left fun h => List.mem_flatten.mpr ⟨_, List.mem_cons_self, h⟩
    · exact .inl (List.mem_flatten.mpr (by
        obtain ⟨f, hf, he⟩ := List.mem_flatten.mp h
        exact ⟨f, List.mem_cons_of_mem _ hf, he⟩))

theorem slotsBound_bindIn {frames : List (List (String × Local))} {n : String} {l : Local}
    {a : Nat × ValueKind} (h : a ∈ slotsBound (Lower.bindIn frames n l)) :
    a ∈ slotsBound frames ∨ a = (l.slot, l.kind) := by
  obtain ⟨e, he, rfl⟩ := mem_slotsBound.mp h
  rcases mem_bindIn he with he | rfl
  · exact .inl (slotsBound_of_mem he)
  · exact .inr rfl

/-- A local found by name is in scope. -/
theorem slotsBound_lookup {em : Emitter} {n : String} {l : Local} (h : em.lookup n = some l) :
    (l.slot, l.kind) ∈ slotsBound em.frames := by
  obtain ⟨f, hf, hl⟩ := List.exists_of_findSome?_eq_some h
  exact slotsBound_of_mem (List.mem_flatten.mpr ⟨f, hf, mem_of_lookup hl⟩)

/-- The slots the routine being lowered has used: those its code touches and those of its
locals in scope. -/
def Emitter.slots (em : Emitter) : List (Nat × ValueKind) :=
  accessesOf em.code.toList ++ slotsBound em.frames

theorem Emitter.mem_slots {em : Emitter} {a : Nat × ValueKind} :
    a ∈ em.slots ↔ a ∈ accessesOf em.code.toList ∨ a ∈ slotsBound em.frames := List.mem_append

/-- The routine being lowered has its slots laid out below its counter. -/
def Layout (aw : Bool) (P : List ValueKind) (em : Emitter) : Prop :=
  SlotsLaidOut aw P em.next em.slots

namespace Lower

/-! ## Lowering steps -/

/-- A value in slots handed out between `s` and `s'`. -/
def Fresh (s s' : LowerState) (a : Nat × ValueKind) : Prop :=
  s.em.next ≤ a.1 ∧ a.1 + a.2.width ≤ s'.em.next

theorem Fresh.later {s s₁ s₂ : LowerState} {a : Nat × ValueKind} (h : Fresh s s₁ a)
    (hg : s₁.em.next ≤ s₂.em.next) : Fresh s s₂ a :=
  ⟨h.1, Nat.le_trans h.2 hg⟩

theorem Fresh.earlier {s s₁ s₂ : LowerState} {a : Nat × ValueKind} (h : Fresh s₁ s₂ a)
    (hg : s.em.next ≤ s₁.em.next) : Fresh s s₂ a :=
  ⟨Nat.le_trans hg h.1, h.2⟩

/-- The code appended from `s` to `s'` touches no slot but those handed out in between. -/
def OwnSlots (s s' : LowerState) : Prop :=
  ∃ new, s'.em.code.toList = s.em.code.toList ++ new ∧ ∀ a ∈ accessesOf new, Fresh s s' a

/-- What a lowering step from `s` to `s'` does with slots: the counter grows; a local in scope
at `s'` was in scope at `s`, or is a new one in slots handed out since; and the code appended
touches the temporaries `T` of the constructs around the step, slots handed out since, and,
when `inScope` is set, the locals in scope at `s`. -/
structure SlotStep (inScope : Bool) (T : List (Nat × ValueKind)) (s s' : LowerState) : Prop where
  grows : s.em.next ≤ s'.em.next
  bound : ∀ e ∈ s'.em.frames.flatten, e ∈ s.em.frames.flatten ∨ Fresh s s' (e.2.slot, e.2.kind)
  code : ∃ new, s'.em.code.toList = s.em.code.toList ++ new ∧
    ∀ a ∈ accessesOf new, (inScope = true ∧ a ∈ slotsBound s.em.frames) ∨ a ∈ T ∨ Fresh s s' a

namespace SlotStep

variable {sc : Bool} {T : List (Nat × ValueKind)} {s₁ s₂ s₃ : LowerState}

theorem accesses (h : SlotStep sc T s₁ s₂) {a : Nat × ValueKind}
    (ha : a ∈ accessesOf s₁.em.code.toList) : a ∈ accessesOf s₂.em.code.toList := by
  obtain ⟨new, e, -⟩ := h.code
  rw [e, accessesOf_append]
  exact List.mem_append_left _ ha

/-- The slots of the locals in scope after the step. -/
theorem bound_slots (h : SlotStep sc T s₁ s₂) {a : Nat × ValueKind}
    (ha : a ∈ slotsBound s₂.em.frames) : a ∈ slotsBound s₁.em.frames ∨ Fresh s₁ s₂ a := by
  obtain ⟨e, he, rfl⟩ := mem_slotsBound.mp ha
  exact (h.bound e he).imp_left slotsBound_of_mem

/-- Two steps in a row, the second of which may touch, besides the temporaries of the first,
slots the first handed out. -/
theorem trans_of {T' : List (Nat × ValueKind)} (h₁ : SlotStep sc T s₁ s₂) (h₂ : SlotStep sc T' s₂ s₃)
    (hT : ∀ a ∈ T', a ∈ T ∨ Fresh s₁ s₂ a) : SlotStep sc T s₁ s₃ where
  grows := Nat.le_trans h₁.grows h₂.grows
  bound e he := by
    rcases h₂.bound e he with he | he
    · rcases h₁.bound e he with he | he
      · exact .inl he
      · exact .inr (he.later h₂.grows)
    · exact .inr (he.earlier h₁.grows)
  code := by
    obtain ⟨X, e₁, q₁⟩ := h₁.code
    obtain ⟨Y, e₂, q₂⟩ := h₂.code
    refine ⟨X ++ Y, by rw [e₂, e₁, List.append_assoc], fun a ha => ?_⟩
    rw [accessesOf_append, List.mem_append] at ha
    rcases ha with ha | ha
    · rcases q₁ a ha with ha | ha | ha
      · exact .inl ha
      · exact .inr (.inl ha)
      · exact .inr (.inr (ha.later h₂.grows))
    · rcases q₂ a ha with ⟨hsc, ha⟩ | ha | ha
      · rcases h₁.bound_slots ha with ha | ha
        · exact .inl ⟨hsc, ha⟩
        · exact .inr (.inr (ha.later h₂.grows))
      · rcases hT a ha with ha | ha
        · exact .inr (.inl ha)
        · exact .inr (.inr (ha.later h₂.grows))
      · exact .inr (.inr (ha.earlier h₁.grows))

theorem trans (h₁ : SlotStep sc T s₁ s₂) (h₂ : SlotStep sc T s₂ s₃) : SlotStep sc T s₁ s₃ :=
  h₁.trans_of h₂ fun _ ha => .inl ha

/-- A step that may touch neither the locals in scope nor temporaries around touches only its
own slots. -/
theorem ownSlots (h : SlotStep false [] s₁ s₂) : OwnSlots s₁ s₂ := by
  obtain ⟨new, e, q⟩ := h.code
  refine ⟨new, e, fun a ha => ?_⟩
  rcases q a ha with ⟨h, -⟩ | h | h
  · cases h
  · cases h
  · exact h

end SlotStep

/-- A slot step that keeps the layout, when the temporaries `T` are among the slots the code
touches. -/
structure Keeps (aw : Bool) (P : List ValueKind) (inScope : Bool) (T : List (Nat × ValueKind))
    (s s' : LowerState) : Prop where
  step : SlotStep inScope T s s'
  layout : Layout aw P s.em → (∀ a ∈ T, a ∈ accessesOf s.em.code.toList) → Layout aw P s'.em

namespace Keeps

variable {aw : Bool} {P : List ValueKind} {sc : Bool} {T : List (Nat × ValueKind)}
  {s s' s₁ s₂ s₃ : LowerState}

theorem trans (h₁ : Keeps aw P sc T s₁ s₂) (h₂ : Keeps aw P sc T s₂ s₃) : Keeps aw P sc T s₁ s₃ where
  step := h₁.step.trans h₂.step
  layout hL hT := h₂.layout (h₁.layout hL hT) fun a ha => h₁.step.accesses (hT a ha)

/-- A second step may touch a temporary that the first handed out and stored to. -/
theorem trans_temp {t : Nat × ValueKind} (h₁ : Keeps aw P sc T s₁ s₂) (ht : Fresh s₁ s₂ t)
    (hacc : t ∈ accessesOf s₂.em.code.toList) (h₂ : Keeps aw P sc (t :: T) s₂ s₃) :
    Keeps aw P sc T s₁ s₃ where
  step := h₁.step.trans_of h₂.step fun a ha => by
    rcases List.mem_cons.mp ha with rfl | ha
    · exact .inr ht
    · exact .inl ha
  layout hL hT := h₂.layout (h₁.layout hL hT) fun a ha => by
    rcases List.mem_cons.mp ha with rfl | ha
    · exact hacc
    · exact h₁.step.accesses (hT a ha)

/-- A step that appends code touching only the temporaries around or, when it may, the locals
in scope, and puts no new local in scope. -/
theorem of_code (hn : s.em.next ≤ s'.em.next)
    (hb : ∀ e ∈ s'.em.frames.flatten, e ∈ s.em.frames.flatten) (new : List Instr)
    (hc : s'.em.code.toList = s.em.code.toList ++ new)
    (ha : ∀ a ∈ accessesOf new, (sc = true ∧ a ∈ slotsBound s.em.frames) ∨ a ∈ T) :
    Keeps aw P sc T s s' where
  step := {
    grows := hn
    bound := fun e h => .inl (hb e h)
    code := ⟨new, hc, fun a h => (ha a h).elim .inl fun h => .inr (.inl h)⟩ }
  layout hL hT := by
    refine SlotsLaidOut.mono hL hn fun c hc' => ?_
    rw [Emitter.mem_slots, hc, accessesOf_append, List.mem_append] at hc'
    rw [Emitter.mem_slots]
    rcases hc' with (hc' | hc') | hc'
    · exact .inl hc'
    · rcases ha c hc' with ⟨-, hc'⟩ | hc'
      · exact .inr hc'
      · exact .inl (hT c hc')
    · exact .inr (slotsBound_mono hb c hc')

/-- A step that hands out the slots of one new value `t`, which its code alone touches and which
may come into scope as a local. -/
theorem of_fresh {t : Nat × ValueKind} (ht : Fresh s s' t)
    (hal : aw = true → t.2 = .real → t.1 % 2 = 0)
    (hb : ∀ e ∈ s'.em.frames.flatten, e ∈ s.em.frames.flatten ∨ (e.2.slot, e.2.kind) = t)
    (new : List Instr) (hc : s'.em.code.toList = s.em.code.toList ++ new)
    (ha : ∀ a ∈ accessesOf new, a = t) : Keeps aw P sc T s s' where
  step := {
    grows := by
      have := ht.1
      have := ht.2
      omega
    bound := fun e h => (hb e h).imp_right fun h => by rw [h]; exact ht
    code := ⟨new, hc, fun a h => .inr (.inr (by rw [ha a h]; exact ht))⟩ }
  layout hL _ := by
    refine SlotsLaidOut.extend hL ht.1 ht.2 hal fun c hc' => ?_
    rw [Emitter.mem_slots, hc, accessesOf_append, List.mem_append] at hc'
    rcases hc' with (hc' | hc') | hc'
    · exact .inl (Emitter.mem_slots.mpr (.inl hc'))
    · exact .inr (ha c hc')
    · obtain ⟨e, he, rfl⟩ := mem_slotsBound.mp hc'
      exact (hb e he).imp (fun h => Emitter.mem_slots.mpr (.inr (slotsBound_of_mem h))) id

theorem refl (s : LowerState) : Keeps aw P sc T s s :=
  of_code (Nat.le_refl _) (fun _ h => h) [] (by simp) (by simp)

end Keeps

/-- A step within an expression: a slot step that keeps the layout and the scopes. -/
structure ExprStep (aw : Bool) (P : List ValueKind) (inScope : Bool) (T : List (Nat × ValueKind))
    (s s' : LowerState) : Prop where
  frames : s'.em.frames = s.em.frames
  keeps : Keeps aw P inScope T s s'

namespace ExprStep

variable {aw : Bool} {P : List ValueKind} {sc : Bool} {T : List (Nat × ValueKind)}
  {s s' s₁ s₂ s₃ : LowerState}

theorem trans (h₁ : ExprStep aw P sc T s₁ s₂) (h₂ : ExprStep aw P sc T s₂ s₃) :
    ExprStep aw P sc T s₁ s₃ :=
  ⟨h₂.frames.trans h₁.frames, h₁.keeps.trans h₂.keeps⟩

theorem trans_temp {t : Nat × ValueKind} (h₁ : ExprStep aw P sc T s₁ s₂) (ht : Fresh s₁ s₂ t)
    (hacc : t ∈ accessesOf s₂.em.code.toList) (h₂ : ExprStep aw P sc (t :: T) s₂ s₃) :
    ExprStep aw P sc T s₁ s₃ :=
  ⟨h₂.frames.trans h₁.frames, h₁.keeps.trans_temp ht hacc h₂.keeps⟩

theorem of_code (hf : s'.em.frames = s.em.frames) (hn : s'.em.next = s.em.next) (new : List Instr)
    (hc : s'.em.code.toList = s.em.code.toList ++ new)
    (ha : ∀ a ∈ accessesOf new, (sc = true ∧ a ∈ slotsBound s.em.frames) ∨ a ∈ T) :
    ExprStep aw P sc T s s' :=
  ⟨hf, Keeps.of_code (Nat.le_of_eq hn.symm) (fun e h => by rwa [hf] at h) new hc ha⟩

theorem of_temp (t : Nat × ValueKind) (hf : s'.em.frames = s.em.frames) (ht : Fresh s s' t)
    (hal : aw = true → t.2 = .real → t.1 % 2 = 0) (new : List Instr)
    (hc : s'.em.code.toList = s.em.code.toList ++ new) (ha : ∀ a ∈ accessesOf new, a = t) :
    ExprStep aw P sc T s s' :=
  ⟨hf, Keeps.of_fresh ht hal (fun e h => .inl (by rwa [hf] at h)) new hc ha⟩

theorem refl (s : LowerState) : ExprStep aw P sc T s s := ⟨rfl, Keeps.refl s⟩

end ExprStep

/-! ## Steps within expressions -/

/-- Every successful run of `m` is a step within an expression. -/
def ExprSlots (aw : Bool) (P : List ValueKind) (inScope : Bool) (T : List (Nat × ValueKind))
    {α : Type} (m : LowerM α) : Prop :=
  ∀ s, Sat m s (fun _ s' => ExprStep aw P inScope T s s') (fun _ => True)

namespace ExprSlots

variable {aw : Bool} {P : List ValueKind} {sc : Bool} {T : List (Nat × ValueKind)} {α β : Type}

theorem after {m : LowerM α} {s s₁ : LowerState} (hm : ExprSlots aw P sc T m)
    (h₁ : ExprStep aw P sc T s s₁) : Sat m s₁ (fun _ s₂ => ExprStep aw P sc T s s₂) (fun _ => True) :=
  (hm s₁).mono (fun _ _ h₂ => h₁.trans h₂) fun _ h => h

theorem bind {m : LowerM α} {f : α → LowerM β} (hm : ExprSlots aw P sc T m)
    (hf : ∀ a, ExprSlots aw P sc T (f a)) : ExprSlots aw P sc T (m >>= f) := by
  intro s
  rw [sat_bind]
  exact (hm s).mono (fun a _ h₁ => (hf a).after h₁) fun _ h => h

theorem pure (a : α) : ExprSlots aw P sc T (Pure.pure a : LowerM α) := fun s => ExprStep.refl s

theorem throw (e : Error) : ExprSlots aw P sc T (MonadExcept.throw e : LowerM α) := fun _ => trivial

theorem throw_bind {f : α → LowerM β} (e : Error) :
    ExprSlots aw P sc T (MonadExcept.throw e >>= f) :=
  fun _ => trivial

theorem orFail (x : Except Error α) : ExprSlots aw P sc T (Lower.orFail x) := by
  intro s
  cases x
  · trivial
  · exact ExprStep.refl s

/-- An instruction that touches no slot, or only a temporary around. -/
theorem emit {i : Instr} (hi : ∀ a, i.slotAccess = some a → a ∈ T) :
    ExprSlots aw P sc T (Lower.emit i) := by
  intro s
  refine ExprStep.of_code rfl rfl [i] (by simp) fun a ha => .inr ?_
  obtain ⟨j, hj, hja⟩ := mem_accessesOf.mp ha
  rw [List.mem_singleton] at hj
  subst hj
  exact hi a hja

theorem emit_plain {i : Instr} (hi : i.slotAccess = none) : ExprSlots aw P sc T (Lower.emit i) :=
  emit fun a h => by rw [hi] at h; cases h

theorem note (level : Level) (message : String) : ExprSlots aw P sc T (Lower.note level message) := by
  intro s
  rw [sat_note]
  exact ExprStep.of_code rfl rfl [] (by simp) (by simp)

/-- A computation that may fail, and what follows from its result. -/
theorem orFail_bind {x : Except Error α} {f : α → LowerM β} (hf : ∀ a, x = .ok a → ExprSlots aw P sc T (f a)) :
    ExprSlots aw P sc T (Lower.orFail x >>= f) := by
  intro s
  rw [sat_bind]
  cases x with
  | error e => trivial
  | ok a => exact hf a rfl s

theorem emitter : ExprSlots aw P sc T Lower.emitter := by
  intro s
  rw [sat_emitter]
  exact ExprStep.refl s

theorem newLabel : ExprSlots aw P sc T Lower.newLabel := by
  intro s
  rw [sat_newLabel]
  exact ExprStep.of_code rfl rfl [] (by simp) (by simp)

theorem resolve (cx : LowerCtx) (t : Ty) : ExprSlots aw P sc T (Lower.resolve cx t) := orFail _

theorem kind (cx : LowerCtx) (t : Ty) : ExprSlots aw P sc T (Lower.kind cx t) := orFail _

/-- A loop each of whose steps is a step within an expression, and goes on. -/
theorem forIn {γ : Type} {xs : List γ} {init : β} {f : γ → β → LowerM (ForInStep β)}
    (hf : ∀ x ∈ xs, ∀ b, ExprSlots aw P sc T (f x b)) : ExprSlots aw P sc T (ForIn.forIn xs init f) := by
  induction xs generalizing init with
  | nil => exact pure _
  | cons x xs ih =>
    rw [List.forIn_cons]
    refine bind (hf x List.mem_cons_self init) fun step => ?_
    cases step with
    | done b => exact pure b
    | yield b => exact ih (fun y hy => hf y (List.mem_cons_of_mem _ hy))

end ExprSlots

/-! ## Places, and slots handed out -/

/-- A variable found in the scopes of the emitter lives in a slot of theirs, or in a global. -/
theorem place_bound {cx : LowerCtx} {em : Emitter} {n : String} {p : Place}
    (h : place cx em n = .ok p) : ∀ l, p = .inSlot l → (l.slot, l.kind) ∈ slotsBound em.frames := by
  intro l hl
  subst hl
  unfold place at h
  split at h
  · next l' hl' =>
    cases h
    exact slotsBound_lookup hl'
  · unfold global at h
    split at h <;> cases h

section Places

variable {aw : Bool} {P : List ValueKind} {T : List (Nat × ValueKind)} {s : LowerState}
  {p : Place}

theorem loadPlace_step (hp : ∀ l, p = .inSlot l → (l.slot, l.kind) ∈ slotsBound s.em.frames) :
    Sat (loadPlace p) s (fun _ s' => ExprStep aw P true T s s') (fun _ => True) := by
  cases p with
  | inSlot l =>
    simp only [loadPlace, sat_emit]
    refine ExprStep.of_code rfl rfl [.load l.slot l.kind] (by simp) fun a ha => .inl ⟨rfl, ?_⟩
    simp only [accessesOf, List.filterMap_cons, Instr.slotAccess, List.filterMap_nil,
      List.mem_singleton] at ha
    rw [ha]
    exact hp l rfl
  | inGlobal n t k =>
    simp only [loadPlace, sat_emit]
    exact ExprStep.of_code rfl rfl [.getGlobal n k] (by simp) (by simp [accessesOf, Instr.slotAccess])

theorem storePlace_step (hp : ∀ l, p = .inSlot l → (l.slot, l.kind) ∈ slotsBound s.em.frames) :
    Sat (storePlace p) s (fun _ s' => ExprStep aw P true T s s') (fun _ => True) := by
  cases p with
  | inSlot l =>
    simp only [storePlace, sat_emit]
    refine ExprStep.of_code rfl rfl [.store l.slot l.kind] (by simp) fun a ha => .inl ⟨rfl, ?_⟩
    simp only [accessesOf, List.filterMap_cons, Instr.slotAccess, List.filterMap_nil,
      List.mem_singleton] at ha
    rw [ha]
    exact hp l rfl
  | inGlobal n t k =>
    simp only [storePlace, sat_emit]
    exact ExprStep.of_code rfl rfl [.putGlobal n k] (by simp) (by simp [accessesOf, Instr.slotAccess])

/-- Loading a variable found in scope, then going on within the expression. -/
theorem loadPlace_bind {β : Type} {f : Unit → LowerM β}
    (hp : ∀ l, p = .inSlot l → (l.slot, l.kind) ∈ slotsBound s.em.frames)
    (hf : ∀ u, ExprSlots aw P true T (f u)) :
    Sat (loadPlace p >>= f) s (fun _ s' => ExprStep aw P true T s s') (fun _ => True) := by
  rw [sat_bind]
  exact (loadPlace_step hp).mono (fun u _ h₁ => (hf u).after h₁) fun _ h => h

/-- A variable looked up by name, and what follows with the place found: a place in scope. -/
theorem place_bind {β : Type} (cx : LowerCtx) (n : String) {f : Place → LowerM β}
    (hf : ∀ s p, (∀ l, p = .inSlot l → (l.slot, l.kind) ∈ slotsBound s.em.frames) →
      Sat (f p) s (fun _ s' => ExprStep aw P true T s s') (fun _ => True)) :
    ExprSlots aw P true T (do let p ← orFail (place cx (← emitter) n); f p) := by
  intro s
  rw [sat_bind, sat_emitter, sat_bind]
  cases hp : place cx s.em n with
  | error e => trivial
  | ok p =>
    rw [sat_orFail_ok rfl]
    exact hf s p (place_bound hp)

end Places

theorem slotFor_ge (aw : Bool) (w n : Nat) : n ≤ slotFor aw w n := by
  unfold slotFor
  split <;> omega

/-- Aligned, a real's first slot is even. -/
theorem slotFor_even {aw : Bool} {k : ValueKind} (n : Nat) (hw : aw = true) (hk : k = .real) :
    slotFor aw k.width n % 2 = 0 := by
  subst hw hk
  unfold slotFor
  by_cases h : n % 2 = 1 <;> simp [ValueKind.width, h] <;> omega

/-! ## The constructs of expressions -/

section Constructs

variable {aw : Bool} {P : List ValueKind} {sc : Bool} {T : List (Nat × ValueKind)}

theorem boolSelect_slots (c : Condition) : ExprSlots aw P sc T (boolSelect c) := by
  intro s
  simp only [boolSelect, sat_bind, sat_newLabel, sat_emit]
  exact ExprStep.of_code rfl rfl [.branchZero c s.labels, .push (.bool false), .jump (s.labels + 1),
    .label s.labels, .push (.bool true), .label (s.labels + 1)] (by simp)
    (by simp [accessesOf, Instr.slotAccess])

theorem applyCoercion_slots (c : Coercion) : ExprSlots aw P sc T (applyCoercion c) := by
  cases c with
  | identity | boolToInt => exact ExprSlots.pure _
  | intToReal | boolToReal | realToInt => exact ExprSlots.emit_plain rfl
  | intToBool => exact boolSelect_slots _
  | realToBool => exact ExprSlots.bind (ExprSlots.emit_plain rfl) fun _ => boolSelect_slots _

/-- An element loop hands out its index, a temporary the body may touch. -/
theorem indexLoop_slots (aw' : Bool) (size : Int) {body : Nat → LowerM Unit}
    (hb : ∀ n, ExprSlots aw P sc ((n, .int) :: T) (body n)) :
    ExprSlots aw P sc T (indexLoop aw' size body) := by
  intro s
  simp only [indexLoop, sat_bind, sat_allocate, sat_newLabel, sat_emit]
  refine (hb _ _).mono (fun _ s₁ h₁ => ?_) fun _ _ => trivial
  -- a one-slot index is never moved to align it
  have hslot : slotFor aw' 1 s.em.next = s.em.next := by simp [slotFor]
  rw [hslot] at h₁ ⊢
  refine ExprStep.trans_temp ?_ ⟨Nat.le_refl _, Nat.le_refl _⟩ ?_ (h₁.trans ?_)
  · exact ExprStep.of_temp (s.em.next, .int) rfl ⟨Nat.le_refl _, Nat.le_refl _⟩
      (fun _ h => by cases h) [.push (.int 0), .store s.em.next .int, .label s.labels,
        .load s.em.next .int, .push (.int size), .compareBranch .ge .int (s.labels + 1)] (by simp)
      (by simp [accessesOf, Instr.slotAccess])
  · simp [accessesOf, Instr.slotAccess]
  · exact ExprStep.of_code rfl rfl [.load s.em.next .int, .push (.int 1), .arith .add .int,
      .store s.em.next .int, .jump s.labels, .label (s.labels + 1)] (by simp)
      (by simp [accessesOf, Instr.slotAccess])

/-- A temporary of kind `k` handed out and stored to, for what follows to touch. -/
theorem allocate_store_slots {β : Type} (k : ValueKind) {f : Nat → LowerM β}
    (hf : ∀ n, ExprSlots aw P sc ((n, k) :: T) (f n)) :
    ExprSlots aw P sc T (do let n ← allocate aw k.width; emit (.store n k); f n) := by
  intro s
  simp only [sat_bind, sat_allocate, sat_emit]
  refine (hf _ _).mono (fun _ s₁ h₁ => ?_) fun _ _ => trivial
  refine ExprStep.trans_temp ?_ ⟨slotFor_ge _ _ _, Nat.le_refl _⟩ ?_ h₁
  · exact ExprStep.of_temp (slotFor aw k.width s.em.next, k) rfl ⟨slotFor_ge _ _ _, Nat.le_refl _⟩
      (fun hw hk => slotFor_even _ hw hk) [.store (slotFor aw k.width s.em.next) k] (by simp)
      (by simp [accessesOf, Instr.slotAccess])
  · simp [accessesOf, Instr.slotAccess]

end Constructs

section Expressions

variable (cx : LowerCtx) {P : List ValueKind} {sc : Bool}

theorem coerce_slots (expected actual : Ty) :
    ∀ T, ExprSlots cx.alignWide P sc T (coerce cx expected actual) := by
  fun_induction coerce cx expected actual with
  | case1 dst size src _ _ ih =>
    intro T
    refine ExprSlots.bind (ExprSlots.kind _ _) fun sourceKind => ?_
    refine ExprSlots.bind (ExprSlots.kind _ _) fun _ => ?_
    refine ExprSlots.bind (ExprSlots.kind _ _) fun _ => ?_
    refine ExprSlots.bind (ExprSlots.note _ _) fun _ => ?_
    -- the array copied from is kept in a temporary, the index in another
    refine allocate_store_slots sourceKind fun source => ?_
    refine ExprSlots.bind (ExprSlots.emit_plain rfl) fun _ => ?_
    refine ExprSlots.bind (ExprSlots.emit_plain rfl) fun _ => ?_
    refine indexLoop_slots _ _ fun index => ?_
    refine ExprSlots.bind (ExprSlots.emit_plain rfl) fun _ => ?_
    refine ExprSlots.bind (ExprSlots.emit fun _ h => by cases h; simp) fun _ => ?_
    refine ExprSlots.bind (ExprSlots.emit fun _ h => by cases h; simp) fun _ => ?_
    refine ExprSlots.bind (ExprSlots.emit fun _ h => by cases h; simp) fun _ => ?_
    refine ExprSlots.bind (ExprSlots.emit_plain rfl) fun _ => ?_
    exact ExprSlots.bind (ih _) fun _ => ExprSlots.emit_plain rfl
  | case2 => exact fun _ => ExprSlots.pure _
  | case3 => exact fun _ => applyCoercion_slots _

theorem freshValue_slots (fuel : Nat) (t : Ty) :
    ∀ T, ExprSlots cx.alignWide P sc T (freshValue cx fuel t) := by
  fun_induction freshValue cx fuel t with
  | case1 => exact fun _ => ExprSlots.throw _
  | case2 fuel t ih =>
    intro T
    refine ExprSlots.bind (ExprSlots.resolve cx t) fun r => ?_
    split
    · exact ExprSlots.emit_plain rfl
    · exact ExprSlots.emit_plain rfl
    · exact ExprSlots.emit_plain rfl
    · exact ExprSlots.emit_plain rfl
    · exact ExprSlots.throw _
    · -- a record: its record and array fields are created in turn
      refine ExprSlots.bind (ExprSlots.emit_plain rfl) fun _ => ?_
      refine ExprSlots.bind (ExprSlots.forIn fun field _ _ => ?_) fun _ => ExprSlots.pure _
      refine ExprSlots.bind (ExprSlots.resolve cx _) fun ft => ?_
      split
      · refine ExprSlots.bind (ExprSlots.kind cx ft) fun _ => ?_
        refine ExprSlots.bind (ExprSlots.emit_plain rfl) fun _ => ?_
        refine ExprSlots.bind (ih ft T) fun _ => ?_
        exact ExprSlots.bind (ExprSlots.emit_plain rfl) fun _ => ExprSlots.pure _
      · exact ExprSlots.pure _
    · -- an array: the elements are created in an element loop when they are aggregates
      refine ExprSlots.bind (ExprSlots.kind cx _) fun _ => ?_
      refine ExprSlots.bind (ExprSlots.emit_plain rfl) fun _ => ?_
      refine ExprSlots.bind (ExprSlots.emit_plain rfl) fun _ => ?_
      split
      · refine indexLoop_slots _ _ fun index => ?_
        refine ExprSlots.bind (ExprSlots.emit_plain rfl) fun _ => ?_
        refine ExprSlots.bind (ExprSlots.emit fun _ h => by cases h; simp) fun _ => ?_
        exact ExprSlots.bind (ih _ _) fun _ => ExprSlots.emit_plain rfl
      · exact ExprSlots.pure _
    · exact ExprSlots.throw _

variable {T : List (Nat × ValueKind)}

theorem newValue_slots (t : Ty) : ExprSlots cx.alignWide P sc T (newValue cx t) :=
  freshValue_slots cx _ t T

theorem callee_slots (n : String) (args : List Expr) :
    ExprSlots cx.alignWide P sc T (callee cx n args) := by
  unfold callee
  split
  · exact ExprSlots.throw _
  · dsimp only
    split
    · exact ExprSlots.bind (ExprSlots.throw _) fun _ => ExprSlots.pure _
    · exact ExprSlots.pure _

theorem finishCall_slots (n : String) (sig : RoutineSig) (ks : List ValueKind) :
    ExprSlots cx.alignWide P sc T (finishCall cx n sig ks) := by
  refine ExprSlots.bind (ExprSlots.resolve cx _) fun _ => ?_
  refine ExprSlots.bind (ExprSlots.kind cx _) fun _ => ?_
  exact ExprSlots.bind (ExprSlots.emit_plain rfl) fun _ => ExprSlots.pure _

mutual

/-- Lowering an expression touches the slots of the variables it reads, and of the temporaries
around. -/
theorem expr_slots : ∀ e : Expr, ExprSlots cx.alignWide P true T (expr cx e) := by
  intro e
  cases e with
  | int v | real v | bool v | str v =>
    simp only [Lower.expr]
    exact ExprSlots.bind (ExprSlots.emit_plain rfl) fun _ => ExprSlots.pure _
  | var n =>
    simp only [Lower.expr]
    exact place_bind cx n fun _ _ hp => loadPlace_bind hp fun _ => ExprSlots.pure _
  | binary l op r =>
    simp only [Lower.expr]
    cases op with
    | and | or =>
      refine ExprSlots.bind ExprSlots.newLabel fun _ => ?_
      refine ExprSlots.bind ExprSlots.newLabel fun _ => ?_
      refine ExprSlots.bind (expr_slots l) fun _ => ?_
      refine ExprSlots.bind (ExprSlots.emit_plain rfl) fun _ => ?_
      refine ExprSlots.bind (expr_slots r) fun _ => ?_
      refine ExprSlots.bind (ExprSlots.emit_plain rfl) fun _ => ?_
      refine ExprSlots.bind (ExprSlots.emit_plain rfl) fun _ => ?_
      refine ExprSlots.bind (ExprSlots.emit_plain rfl) fun _ => ?_
      refine ExprSlots.bind (ExprSlots.emit_plain rfl) fun _ => ?_
      refine ExprSlots.bind (ExprSlots.emit_plain rfl) fun _ => ?_
      exact ExprSlots.bind (ExprSlots.emit_plain rfl) fun _ => ExprSlots.pure _
    | xor =>
      refine ExprSlots.bind (expr_slots l) fun _ => ?_
      refine ExprSlots.bind (expr_slots r) fun _ => ?_
      exact ExprSlots.bind (ExprSlots.emit_plain rfl) fun _ => ExprSlots.pure _
    | lt | le | gt | ge | eq | ne =>
      refine ExprSlots.bind ExprSlots.emitter fun _ => ?_
      refine ExprSlots.bind (ExprSlots.orFail _) fun rt => ?_
      refine ExprSlots.bind (expr_slots l) fun lt => ?_
      split
      · refine ExprSlots.bind (ExprSlots.pure _) fun operand => ?_
        refine ExprSlots.bind (coerce_slots cx operand lt T) fun _ => ?_
        refine ExprSlots.bind (expr_slots r) fun _ => ?_
        refine ExprSlots.bind (coerce_slots cx operand rt T) fun _ => ?_
        refine ExprSlots.bind ExprSlots.newLabel fun _ => ?_
        refine ExprSlots.bind ExprSlots.newLabel fun _ => ?_
        refine ExprSlots.bind (ExprSlots.kind cx operand) fun _ => ?_
        refine ExprSlots.bind (ExprSlots.emit_plain rfl) fun _ => ?_
        refine ExprSlots.bind (ExprSlots.emit_plain rfl) fun _ => ?_
        refine ExprSlots.bind (ExprSlots.emit_plain rfl) fun _ => ?_
        refine ExprSlots.bind (ExprSlots.emit_plain rfl) fun _ => ?_
        refine ExprSlots.bind (ExprSlots.emit_plain rfl) fun _ => ?_
        exact ExprSlots.bind (ExprSlots.emit_plain rfl) fun _ => ExprSlots.pure _
      · exact ExprSlots.throw_bind _
    | add | sub | mul | div | mod =>
      refine ExprSlots.bind ExprSlots.emitter fun _ => ?_
      refine ExprSlots.bind (ExprSlots.orFail _) fun rt => ?_
      refine ExprSlots.bind (expr_slots l) fun lt => ?_
      split
      · refine ExprSlots.bind (ExprSlots.pure _) fun result => ?_
        refine ExprSlots.bind (coerce_slots cx result lt T) fun _ => ?_
        refine ExprSlots.bind (expr_slots r) fun _ => ?_
        refine ExprSlots.bind (coerce_slots cx result rt T) fun _ => ?_
        refine ExprSlots.bind (ExprSlots.kind cx result) fun _ => ?_
        exact ExprSlots.bind (ExprSlots.emit_plain rfl) fun _ => ExprSlots.pure _
      · exact ExprSlots.throw_bind _
  | unary op e =>
    cases op with
    | not =>
      simp only [Lower.expr]
      refine ExprSlots.bind (expr_slots e) fun _ => ?_
      exact ExprSlots.bind (boolSelect_slots _) fun _ => ExprSlots.pure _
    | neg =>
      simp only [Lower.expr]
      refine ExprSlots.bind (expr_slots e) fun t => ?_
      refine ExprSlots.bind (ExprSlots.kind cx t) fun _ => ?_
      exact ExprSlots.bind (ExprSlots.emit_plain rfl) fun _ => ExprSlots.pure _
  | index a i =>
    simp only [Lower.expr]
    refine place_bind cx a fun s p hp => ?_
    rw [sat_bind]
    cases elementType p with
    | error e => trivial
    | ok element =>
      rw [sat_orFail_ok rfl]
      refine loadPlace_bind hp fun _ => ?_
      refine ExprSlots.bind (expr_slots i) fun _ => ?_
      refine ExprSlots.bind (ExprSlots.kind cx element) fun _ => ?_
      exact ExprSlots.bind (ExprSlots.emit_plain rfl) fun _ => ExprSlots.pure _
  | field r f =>
    simp only [Lower.expr]
    refine place_bind cx r fun s p hp => ?_
    rw [sat_bind]
    cases fieldType cx p f with
    | error e => trivial
    | ok found =>
      rw [sat_orFail_ok rfl]
      obtain ⟨recordName, ft⟩ := found
      dsimp only
      refine loadPlace_bind hp fun _ => ?_
      refine ExprSlots.bind (ExprSlots.kind cx ft) fun _ => ?_
      exact ExprSlots.bind (ExprSlots.emit_plain rfl) fun _ => ExprSlots.pure _
  | call n args =>
    simp only [Lower.expr]
    refine ExprSlots.bind (callee_slots cx n args) fun sig => ?_
    refine ExprSlots.bind (arguments_slots args sig.params) fun ks => ?_
    refine ExprSlots.bind (finishCall_slots cx n sig ks) fun t => ?_
    split
    · exact ExprSlots.bind (ExprSlots.throw _) fun _ => ExprSlots.pure _
    · exact ExprSlots.pure _
  | cast e target =>
    simp only [Lower.expr]
    refine ExprSlots.bind (expr_slots e) fun _ => ?_
    refine ExprSlots.bind (ExprSlots.resolve cx target) fun _ => ?_
    split
    · exact ExprSlots.bind (applyCoercion_slots _) fun _ => ExprSlots.pure _
    · exact ExprSlots.throw _

/-- Pushing call arguments touches the slots of the variables they read, and of the temporaries
around. -/
theorem arguments_slots : ∀ (args : List Expr) (ps : List Ty),
    ExprSlots cx.alignWide P true T (arguments cx args ps) := by
  intro args ps
  cases args with
  | nil => exact ExprSlots.pure _
  | cons a as =>
    cases ps with
    | nil => exact ExprSlots.pure _
    | cons p ps =>
      simp only [Lower.arguments]
      refine ExprSlots.bind (ExprSlots.resolve cx p) fun pt => ?_
      refine ExprSlots.bind (expr_slots a) fun actual => ?_
      refine ExprSlots.bind (coerce_slots cx pt actual T) fun _ => ?_
      refine ExprSlots.bind (ExprSlots.kind cx pt) fun _ => ?_
      refine ExprSlots.bind (arguments_slots as ps) fun _ => ?_
      exact ExprSlots.pure _

end

theorem initialValue_slots (ty : Ty) (i : Option Expr) :
    ExprSlots cx.alignWide P true T (initialValue cx ty i) := by
  cases i with
  | some e =>
    simp only [Lower.initialValue]
    exact ExprSlots.bind (expr_slots cx e) fun actual => coerce_slots cx ty actual T
  | none => exact newValue_slots cx ty

theorem assignment_slots (t : Target) (v : Expr) :
    ExprSlots cx.alignWide P true T (assignment cx t v) := by
  cases t with
  | var n =>
    simp only [Lower.assignment]
    refine place_bind cx n fun s p hp => ?_
    rw [sat_bind]
    have hv : ExprSlots cx.alignWide P true T (expr cx v) := expr_slots cx v
    refine (hv s).mono (fun actual s₁ h₁ => ?_) fun _ h => h
    rw [sat_bind]
    refine ((coerce_slots cx p.ty actual T).after h₁).mono (fun _ s₂ h₂ => ?_) fun _ h => h
    -- the value is stored to the variable found at the start: expressions declare nothing
    rw [← h₂.frames] at hp
    exact (storePlace_step hp).mono (fun _ _ h₃ => h₂.trans h₃) fun _ h => h
  | element a i =>
    simp only [Lower.assignment]
    refine place_bind cx a fun s p hp => ?_
    rw [sat_bind]
    cases elementType p with
    | error e => trivial
    | ok element =>
      rw [sat_orFail_ok rfl]
      refine loadPlace_bind hp fun _ => ?_
      refine ExprSlots.bind (expr_slots cx i) fun _ => ?_
      refine ExprSlots.bind (expr_slots cx v) fun actual => ?_
      refine ExprSlots.bind (coerce_slots cx element actual T) fun _ => ?_
      refine ExprSlots.bind (ExprSlots.kind cx element) fun _ => ?_
      exact ExprSlots.emit_plain rfl
  | field r f =>
    simp only [Lower.assignment]
    refine place_bind cx r fun s p hp => ?_
    rw [sat_bind]
    cases fieldType cx p f with
    | error e => trivial
    | ok found =>
      rw [sat_orFail_ok rfl]
      obtain ⟨recordName, ft⟩ := found
      dsimp only
      refine loadPlace_bind hp fun _ => ?_
      refine ExprSlots.bind (expr_slots cx v) fun actual => ?_
      refine ExprSlots.bind (coerce_slots cx ft actual T) fun _ => ?_
      refine ExprSlots.bind (ExprSlots.kind cx ft) fun _ => ?_
      exact ExprSlots.emit_plain rfl

end Expressions

/-- What every run of a step does, said of its successful runs. -/
theorem lsat_of_sat {α : Type} {m : LowerM α} {s : LowerState} {Q : α → LowerState → Prop}
    (h : Sat m s Q (fun _ => True)) : LSat m s Q := by
  intro a s' hrun
  unfold Sat at h
  rw [hrun] at h
  exact h

/-! ## Steps of statements

  A statement may open and close scopes and declare locals; it keeps the layout all the same. -/

/-- Every successful run of `m` is a slot step that keeps the layout. -/
def StmtSlots (aw : Bool) (P : List ValueKind) (T : List (Nat × ValueKind)) {α : Type}
    (m : LowerM α) : Prop :=
  ∀ s, Sat m s (fun _ s' => Keeps aw P true T s s') (fun _ => True)

namespace StmtSlots

variable {aw : Bool} {P : List ValueKind} {sc : Bool} {T : List (Nat × ValueKind)} {α β : Type}

theorem after {m : LowerM α} {s s₁ : LowerState} (hm : StmtSlots aw P T m)
    (h₁ : Keeps aw P true T s s₁) : Sat m s₁ (fun _ s₂ => Keeps aw P true T s s₂) (fun _ => True) :=
  (hm s₁).mono (fun _ _ h₂ => h₁.trans h₂) fun _ h => h

theorem bind {m : LowerM α} {f : α → LowerM β} (hm : StmtSlots aw P T m)
    (hf : ∀ a, StmtSlots aw P T (f a)) : StmtSlots aw P T (m >>= f) := by
  intro s
  rw [sat_bind]
  exact (hm s).mono (fun a _ h₁ => (hf a).after h₁) fun _ h => h

theorem pure (a : α) : StmtSlots aw P T (Pure.pure a : LowerM α) := fun s => Keeps.refl s

theorem of_expr {m : LowerM α} (hm : ExprSlots aw P true T m) : StmtSlots aw P T m :=
  fun s => (hm s).mono (fun _ _ h => h.keeps) fun _ h => h

theorem emit_plain {i : Instr} (hi : i.slotAccess = none) : StmtSlots aw P T (emit i) :=
  of_expr (ExprSlots.emit_plain hi)

theorem newLabel : StmtSlots aw P T Lower.newLabel := of_expr ExprSlots.newLabel

/-- An instruction that touches no slot, emitted when `c` holds, before the rest `k`. -/
theorem emitWhen_bind {c : Bool} {i : Instr} {k : LowerM β} (hi : i.slotAccess = none)
    (hk : StmtSlots aw P T k) :
    StmtSlots aw P T (if c = true then emit i >>= fun _ => k else k) := by
  cases c with
  | false => exact hk
  | true => exact bind (emit_plain hi) fun _ => hk

/-- A new scope binds nothing yet. -/
theorem enterScope : StmtSlots aw P T Lower.enterScope := by
  intro s
  rw [sat_enterScope]
  refine Keeps.of_code (Nat.le_refl _) (fun e he => ?_) [] (by simp) (by simp)
  simpa using he

/-- Closing a scope only drops locals. -/
theorem exitScope : StmtSlots aw P T Lower.exitScope := by
  intro s
  rw [sat_exitScope]
  refine Keeps.of_code (Nat.le_refl _) (fun e he => ?_) [] (by simp) (by simp)
  dsimp only at he
  split at he
  · obtain ⟨f, hf, he⟩ := List.mem_flatten.mp he
    exact List.mem_flatten.mpr ⟨f, List.mem_of_mem_drop hf, he⟩
  · exact he

/-- A loop each of whose steps keeps the layout, and goes on. -/
theorem forIn {γ : Type} {xs : List γ} {init : β} {f : γ → β → LowerM (ForInStep β)}
    (hf : ∀ x ∈ xs, ∀ b, StmtSlots aw P T (f x b)) : StmtSlots aw P T (ForIn.forIn xs init f) := by
  induction xs generalizing init with
  | nil => exact pure _
  | cons x xs ih =>
    rw [List.forIn_cons]
    refine bind (hf x List.mem_cons_self init) fun step => ?_
    cases step with
    | done b => exact pure b
    | yield b => exact ih (fun y hy => hf y (List.mem_cons_of_mem _ hy))

/-- Read as a statement about the successful runs. -/
theorem lsat {m : LowerM α} (hm : StmtSlots aw P T m) (s : LowerState) :
    LSat m s (fun _ s' => Keeps aw P true T s s') :=
  lsat_of_sat (hm s)

end StmtSlots

section Declarations

variable {aw : Bool} {P : List ValueKind} {T : List (Nat × ValueKind)}

/-- A local declared and stored to: its slots are handed out above the counter, aligned when
they must be, and it comes into scope. -/
theorem declare_store_slots (n : String) (ty : Ty) (k : ValueKind) :
    StmtSlots aw P T (do let slot ← declareLocal aw n ty k; emit (.store slot k)) := by
  intro s
  simp only [declareLocal, sat_bind, sat_allocate, sat_bindLocal, sat_pure, sat_emit]
  exact Keeps.of_fresh ⟨slotFor_ge _ _ _, Nat.le_refl _⟩ (fun hw hk => slotFor_even _ hw hk)
    (fun _ h => (mem_bindIn h).imp_right fun h => by rw [h]) [.store (slotFor aw k.width s.em.next) k] (by simp)
    (by simp [accessesOf, Instr.slotAccess])

/-- A local declared and stored to, which what follows may touch even once a name hides it. -/
theorem declare_store_then_slots {β : Type} (n : String) (ty : Ty) (k : ValueKind)
    {f : Nat → LowerM β} (hf : ∀ slot, StmtSlots aw P ((slot, k) :: T) (f slot)) :
    StmtSlots aw P T (do let slot ← declareLocal aw n ty k; emit (.store slot k); f slot) := by
  intro s
  simp only [declareLocal, sat_bind, sat_allocate, sat_bindLocal, sat_pure, sat_emit]
  refine (hf _ _).mono (fun _ s₁ h₁ => ?_) fun _ _ => trivial
  refine Keeps.trans_temp ?_ ⟨slotFor_ge _ _ _, Nat.le_refl _⟩ ?_ h₁
  · exact Keeps.of_fresh ⟨slotFor_ge _ _ _, Nat.le_refl _⟩ (fun hw hk => slotFor_even _ hw hk)
      (fun _ h => (mem_bindIn h).imp_right fun h => by rw [h]) [.store (slotFor aw k.width s.em.next) k] (by simp)
      (by simp [accessesOf, Instr.slotAccess])
  · simp [accessesOf, Instr.slotAccess]

end Declarations

section Statements

variable (cx : LowerCtx) {P : List ValueKind}

theorem nested_slots {α : Type} (name : String) (T : List (Nat × ValueKind)) :
    StmtSlots cx.alignWide P T (nested name : LowerM α) :=
  StmtSlots.of_expr (ExprSlots.bind ExprSlots.emitter fun _ => ExprSlots.throw _)

mutual

/-- Lowering a statement touches the locals in scope, the temporaries around, and slots it
hands out; and keeps the layout. -/
theorem stmt_slots : ∀ (st : Stmt) (T : List (Nat × ValueKind)),
    StmtSlots cx.alignWide P T (stmt cx st) := by
  intro st T
  cases st with
  | varDecl n t i =>
    simp only [Lower.stmt]
    refine StmtSlots.bind (.of_expr (ExprSlots.orFail _)) fun ty => ?_
    refine StmtSlots.bind (.of_expr (ExprSlots.kind cx ty)) fun k => ?_
    refine StmtSlots.bind (.of_expr (initialValue_slots cx ty i)) fun _ => ?_
    exact declare_store_slots n ty k
  | arrayDecl n e size =>
    simp only [Lower.stmt]
    refine StmtSlots.bind (.of_expr (ExprSlots.resolve cx _)) fun ty => ?_
    refine StmtSlots.bind (.of_expr (ExprSlots.kind cx ty)) fun k => ?_
    refine StmtSlots.bind (.of_expr (newValue_slots cx ty)) fun _ => ?_
    exact declare_store_slots n ty k
  | assign t v =>
    simp only [Lower.stmt]
    exact .of_expr (assignment_slots cx t v)
  | ifThen c t e =>
    simp only [Lower.stmt]
    refine StmtSlots.bind StmtSlots.newLabel fun _ => ?_
    refine StmtSlots.bind StmtSlots.newLabel fun _ => ?_
    refine StmtSlots.bind (.of_expr (expr_slots cx c)) fun _ => ?_
    refine StmtSlots.bind (StmtSlots.emit_plain rfl) fun _ => ?_
    refine StmtSlots.bind StmtSlots.enterScope fun _ => ?_
    refine StmtSlots.bind (stmts_slots t T) fun _ => ?_
    refine StmtSlots.bind StmtSlots.exitScope fun _ => ?_
    refine StmtSlots.emitWhen_bind rfl ?_
    refine StmtSlots.bind (StmtSlots.emit_plain rfl) fun _ => ?_
    refine StmtSlots.bind StmtSlots.enterScope fun _ => ?_
    refine StmtSlots.bind (stmts_slots e T) fun _ => ?_
    refine StmtSlots.bind StmtSlots.exitScope fun _ => ?_
    split
    · exact StmtSlots.emit_plain rfl
    · exact StmtSlots.pure _
  | whileDo c b =>
    simp only [Lower.stmt]
    refine StmtSlots.bind StmtSlots.newLabel fun _ => ?_
    refine StmtSlots.bind StmtSlots.newLabel fun _ => ?_
    refine StmtSlots.bind (StmtSlots.emit_plain rfl) fun _ => ?_
    refine StmtSlots.bind (.of_expr (expr_slots cx c)) fun _ => ?_
    refine StmtSlots.bind (StmtSlots.emit_plain rfl) fun _ => ?_
    refine StmtSlots.bind StmtSlots.enterScope fun _ => ?_
    refine StmtSlots.bind (stmts_slots b T) fun _ => ?_
    refine StmtSlots.bind StmtSlots.exitScope fun _ => ?_
    refine StmtSlots.bind (StmtSlots.emit_plain rfl) fun _ => ?_
    exact StmtSlots.emit_plain rfl
  | forRange v start stop reverse b =>
    simp only [Lower.stmt]
    refine StmtSlots.bind (.of_expr (expr_slots cx start)) fun _ => ?_
    refine StmtSlots.bind StmtSlots.enterScope fun _ => ?_
    -- the counter is touched after the body, where a local of the body may hide its name
    refine declare_store_then_slots v .integer .int fun slot => ?_
    have hcounter : ∀ a, (Instr.load slot .int).slotAccess = some a ∨
        (Instr.store slot .int).slotAccess = some a → a ∈ (slot, ValueKind.int) :: T := by
      rintro a (h | h) <;> simp [Instr.slotAccess] at h <;> simp [h]
    refine StmtSlots.bind StmtSlots.newLabel fun _ => ?_
    refine StmtSlots.bind StmtSlots.newLabel fun _ => ?_
    cases reverse <;>
    · refine StmtSlots.bind (StmtSlots.emit_plain rfl) fun _ => ?_
      refine StmtSlots.bind (.of_expr (ExprSlots.emit fun a h => hcounter a (.inl h))) fun _ => ?_
      refine StmtSlots.bind (.of_expr (expr_slots cx stop)) fun _ => ?_
      refine StmtSlots.bind (StmtSlots.emit_plain rfl) fun _ => ?_
      refine StmtSlots.bind (stmts_slots b _) fun _ => ?_
      refine StmtSlots.bind (.of_expr (ExprSlots.emit fun a h => hcounter a (.inl h))) fun _ => ?_
      refine StmtSlots.bind (StmtSlots.emit_plain rfl) fun _ => ?_
      refine StmtSlots.bind (StmtSlots.emit_plain rfl) fun _ => ?_
      refine StmtSlots.bind (.of_expr (ExprSlots.emit fun a h => hcounter a (.inr h))) fun _ => ?_
      refine StmtSlots.bind (StmtSlots.emit_plain rfl) fun _ => ?_
      refine StmtSlots.bind (StmtSlots.emit_plain rfl) fun _ => ?_
      exact StmtSlots.exitScope
  | call n args =>
    simp only [Lower.stmt]
    refine StmtSlots.bind (.of_expr (callee_slots cx n args)) fun sig => ?_
    refine StmtSlots.bind (.of_expr (arguments_slots cx args sig.params)) fun ks => ?_
    refine StmtSlots.bind (.of_expr (finishCall_slots cx n sig ks)) fun t => ?_
    split
    · exact .of_expr (ExprSlots.bind (ExprSlots.kind cx t) fun _ => ExprSlots.emit_plain rfl)
    · exact StmtSlots.pure _
  | ret v =>
    cases v with
    | some e =>
      simp only [Lower.stmt]
      refine StmtSlots.bind (.of_expr ExprSlots.emitter) fun em => ?_
      refine StmtSlots.bind (.of_expr (expr_slots cx e)) fun actual => ?_
      refine StmtSlots.bind (.of_expr (coerce_slots cx _ actual T)) fun _ => ?_
      refine StmtSlots.bind (.of_expr (ExprSlots.kind cx _)) fun _ => ?_
      exact StmtSlots.emit_plain rfl
    | none =>
      simp only [Lower.stmt]
      exact StmtSlots.emit_plain rfl
  | print e =>
    simp only [Lower.stmt]
    refine StmtSlots.bind (.of_expr (expr_slots cx e)) fun t => ?_
    refine StmtSlots.bind (.of_expr (ExprSlots.kind cx t)) fun _ => ?_
    exact StmtSlots.emit_plain rfl
  | routine n _ _ _ => exact nested_slots cx n T
  | recordType n _ => exact nested_slots cx n T
  | typeAlias n _ => exact nested_slots cx n T

/-- Lowering statements in order touches the locals in scope, the temporaries around, and slots
it hands out; and keeps the layout. -/
theorem stmts_slots : ∀ (ss : List Stmt) (T : List (Nat × ValueKind)),
    StmtSlots cx.alignWide P T (stmts cx ss) := by
  intro ss T
  cases ss with
  | nil => exact StmtSlots.pure _
  | cons st rest =>
    simp only [Lower.stmts]
    exact StmtSlots.bind (stmt_slots st T) fun _ => stmts_slots rest T

end

end Statements

/-! ## Routines and modules -/

theorem sat_declareParam (name : String) (ty : Ty) (k : ValueKind) {s : LowerState}
    {Q : Unit → LowerState → Prop} {E : Error → Prop} :
    Sat (declareParam name ty k) s Q E ↔
      Q () { s with
        em := { s.em with
          next := s.em.next + k.width
          frames := bindIn s.em.frames name ⟨s.em.next, ty, k⟩ } } :=
  Iff.rfl

/-- A global is no local slot. -/
theorem global_ne_inSlot {cx : LowerCtx} {n : String} {p : Place} (h : global cx n = .ok p)
    (l : Local) : p ≠ .inSlot l := by
  unfold global at h
  split at h
  · cases h
    exact nofun
  · cases h

/-- Storing to a global touches no slot. -/
theorem storePlace_global {aw : Bool} {P : List ValueKind} {T : List (Nat × ValueKind)}
    {cx : LowerCtx} {n : String} {p : Place} (hp : global cx n = .ok p) :
    ExprSlots aw P true T (storePlace p) :=
  fun _ => storePlace_step fun l hl => absurd hl (global_ne_inSlot hp l)

/-- The parameters declared so far, of kinds `ks`: packed from slot 0 in order and in scope,
before any code. -/
structure ParamsDeclared (ks : List ValueKind) (em : Emitter) : Prop where
  next : em.next = paramWidth ks
  code : em.code = #[]
  bound : ∀ a ∈ slotsBound em.frames, a ∈ paramSlots ks 0

theorem ParamsDeclared.start (name : String) (returnType : Ty) :
    ParamsDeclared [] (Emitter.start name returnType) :=
  ⟨rfl, rfl, by simp [Emitter.start, slotsBound]⟩

/-- Once the parameters are declared, the routine is laid out for them. -/
theorem ParamsDeclared.layout {aw : Bool} {ks : List ValueKind} {em : Emitter}
    (h : ParamsDeclared ks em) : Layout aw ks em := by
  refine (paramSlots_laidOut aw ks).mono (Nat.le_of_eq h.next.symm) fun a ha => ?_
  rw [Emitter.mem_slots, h.code] at ha
  rcases ha with ha | ha
  · simp at ha
  · exact h.bound a ha

/-- A parameter declared after those of kinds `ks` takes the next slots. -/
theorem ParamsDeclared.declare {ks : List ValueKind} {em : Emitter} (h : ParamsDeclared ks em)
    (name : String) (ty : Ty) (k : ValueKind) :
    ParamsDeclared (ks ++ [k])
      { em with
        next := em.next + k.width
        frames := bindIn em.frames name ⟨em.next, ty, k⟩ } where
  next := by rw [h.next, paramWidth_append]; simp
  code := h.code
  bound a ha := by
    rw [paramSlots_append]
    rcases slotsBound_bindIn ha with ha | rfl
    · exact List.mem_append_left _ (h.bound a ha)
    · rw [h.next, Nat.zero_add]
      exact List.mem_append_right _ (List.mem_singleton_self _)

/-- A routine finished with the layout of its parameters has its code laid out. -/
theorem finish_slots {aw : Bool} {ks : List ValueKind} {s : LowerState} (h : Layout aw ks s.em)
    (rk : ValueKind) :
    LSat (finish ks rk) s (fun rc _ => SlotsLaidOut aw rc.params rc.maxLocals (accessesOf rc.code)) := by
  rw [lsat_finish]
  exact h.mono (Nat.le_refl _) fun a ha => Emitter.mem_slots.mpr (.inl ha)

section Routines

variable (cx : LowerCtx)

/-- A lowered routine's code has its slots laid out, for its parameters and its slot count. -/
theorem routine_slots (n : String) (ps : List Param) (r : Option Ty) (b : List Stmt)
    (s : LowerState) :
    LSat (routine cx n ps r b) s
      (fun rc _ => SlotsLaidOut cx.alignWide rc.params rc.maxLocals (accessesOf rc.code)) := by
  unfold routine
  rw [lsat_bind]
  intro _ s₁ _
  rw [lsat_bind]
  intro rt s₂ _
  rw [lsat_bind]
  intro rk s₃ _
  rw [lsat_bind]
  refine (lsat_modify _).mpr ?_
  dsimp only
  rw [lsat_bind]
  -- the parameters are packed from slot 0, in order
  refine (lsat_forIn (fun _ kinds s => ParamsDeclared kinds.toList s.em)
    (ParamsDeclared.start n rt) ?_).mono fun kinds s₅ h₅ => ?_
  · intro done p rest kinds s₄ _ hI
    refine lsat_of_sat ?_
    simp only [sat_bind, resolve, kind]
    cases resolveIn cx.env p.ty with
    | error e => trivial
    | ok t =>
      rw [sat_orFail_ok rfl]
      cases ValueKind.of cx.env t with
      | error e => trivial
      | ok k =>
        rw [sat_orFail_ok rfl, sat_declareParam, sat_pure]
        refine ⟨_, rfl, ?_⟩
        rw [Array.toList_push]
        exact hI.declare p.name _ _
  · have body : StmtSlots cx.alignWide kinds.toList [] (stmts cx b) := stmts_slots cx b []
    rw [lsat_bind]
    refine (body.lsat s₅).mono fun _ s₆ h₆ => ?_
    have L₆ : Layout cx.alignWide kinds.toList s₆.em := h₆.layout h₅.layout nofun
    split
    · -- a void routine whose body may fall through its end gets a last return
      rw [lsat_bind]
      have ret : StmtSlots cx.alignWide kinds.toList [] (emit (.ret .void)) :=
        StmtSlots.emit_plain rfl
      exact (ret.lsat s₆).mono fun _ s₇ h₇ => finish_slots (h₇.layout L₆ nofun) rk
    · exact finish_slots L₆ rk

/-- The initializer, when there is one, has its slots laid out, with no parameters. -/
theorem initializer_slots (ss : List Stmt) (s : LowerState) :
    LSat (initializer cx ss) s
      (fun o _ => ∀ rc ∈ o, SlotsLaidOut cx.alignWide rc.params rc.maxLocals (accessesOf rc.code)) := by
  unfold initializer
  rw [lsat_bind]
  refine (lsat_modify _).mpr ?_
  generalize hs₁ : ({ s with em := Emitter.start "initializer" .void } : LowerState) = s₁
  have L₁ : Layout cx.alignWide [] s₁.em := by
    rw [← hs₁]
    exact (ParamsDeclared.start _ _).layout
  rw [lsat_bind]
  refine ((StmtSlots.forIn fun st _ _ => ?_ : StmtSlots cx.alignWide [] [] _).lsat s₁).mono
    fun _ s₂ h₂ => ?_
  · -- a global's first value is stored to the global, other statements lower as in a routine
    split
    · refine .of_expr (ExprSlots.orFail_bind fun p hp => ?_)
      refine ExprSlots.bind (initialValue_slots cx _ _) fun _ => ?_
      exact ExprSlots.bind (storePlace_global hp) fun _ => ExprSlots.pure _
    · refine .of_expr (ExprSlots.orFail_bind fun p hp => ?_)
      refine ExprSlots.bind (newValue_slots cx _) fun _ => ?_
      exact ExprSlots.bind (storePlace_global hp) fun _ => ExprSlots.pure _
    · exact StmtSlots.pure _
    · exact StmtSlots.pure _
    · exact StmtSlots.pure _
    · exact StmtSlots.bind (stmt_slots cx _ []) fun _ => StmtSlots.pure _
  · rw [lsat_bind]
    refine ((StmtSlots.of_expr ExprSlots.emitter : StmtSlots cx.alignWide [] [] _).lsat s₂).mono
      fun _ s₃ h₃ => ?_
    split
    · exact (lsat_pure _).mpr fun _ h => by cases h
    · rw [lsat_bind]
      refine ((StmtSlots.of_expr (ExprSlots.note _ _) : StmtSlots cx.alignWide [] [] _).lsat
        s₃).mono fun _ s₄ h₄ => ?_
      rw [lsat_bind]
      refine ((StmtSlots.emit_plain rfl : StmtSlots cx.alignWide [] [] (emit (.ret .void))).lsat
        s₄).mono fun _ s₅ h₅ => ?_
      have L₅ : Layout cx.alignWide [] s₅.em := (h₂.trans (h₃.trans (h₄.trans h₅))).layout L₁ nofun
      rw [lsat_bind]
      refine (finish_slots L₅ .void).mono fun rc _ hrc => ?_
      rw [lsat_pure]
      intro rc' h
      cases h
      exact hrc

end Routines

/-- Every routine and the initializer of a lowered module have their slots laid out. -/
theorem module_slots (scopes : Scopes) (opts : LowerOptions) (p : Program) (s : LowerState) :
    LSat (module scopes opts p) s (fun m _ => ∀ rc ∈ m.routines ++ m.initializer.toList,
      SlotsLaidOut opts.alignWide rc.params rc.maxLocals (accessesOf rc.code)) := by
  unfold module
  -- the record layouts and the globals emit no code
  rw [lsat_bind]
  intro types s₁ _
  dsimp only
  rw [lsat_bind]
  intro acc s₂ _
  generalize hcx : (⟨scopes.env, scopes.routines, acc.snd, opts.alignWide⟩ : LowerCtx) = cx
  have haw : cx.alignWide = opts.alignWide := by rw [← hcx]
  rw [lsat_bind]
  refine (lsat_forIn (fun _ rs _ => ∀ rc ∈ rs.toList,
      SlotsLaidOut opts.alignWide rc.params rc.maxLocals (accessesOf rc.code))
    (fun _ h => by cases h) ?_).mono fun rs s₃ hrs => ?_
  · intro done st rest rs s₄ _ hI
    split
    · rename_i n ps r b _
      rw [lsat_bind]
      refine (routine_slots cx n ps r b s₄).mono fun rc _ hrc => ?_
      rw [lsat_pure]
      refine ⟨_, rfl, fun rc' h' => ?_⟩
      rw [Array.toList_push, List.mem_append, List.mem_singleton] at h'
      rcases h' with h' | rfl
      · exact hI rc' h'
      · rw [← haw]
        exact hrc
    · rw [lsat_pure]
      exact ⟨_, rfl, hI⟩
  rw [lsat_bind]
  refine (initializer_slots cx p.statements s₃).mono fun init s₄ hinit => ?_
  rw [lsat_bind]
  intro _ _ _
  rw [lsat_pure]
  intro rc hrc
  rcases List.mem_append.mp hrc with h | h
  · exact hrs rc h
  · rw [← haw]
    exact hinit rc (by simpa using h)

/-- Every routine and the initializer of a module that lowering produces have their slots laid
out. -/
theorem lowerProgram_slots {scopes : Scopes} {opts : LowerOptions} {p : Program} {m : Module}
    (h : (lowerProgram scopes opts p).1 = .ok m) :
    ∀ rc ∈ m.routines ++ m.initializer.toList,
      SlotsLaidOut opts.alignWide rc.params rc.maxLocals (accessesOf rc.code) :=
  module_slots scopes opts p _ m _ (Prod.ext h rfl)

/-- Lowering statements touches the locals in scope when it starts, or slots it hands out, and
brings into scope only locals in slots it hands out. -/
theorem stmts_slotStep (cx : LowerCtx) (ss : List Stmt) (s : LowerState) :
    LSat (stmts cx ss) s (fun _ s' => SlotStep true [] s s') :=
  ((stmts_slots cx ss [] : StmtSlots cx.alignWide [] [] _).lsat s).mono fun _ _ h => h.step

/-- A widening copy touches no slot but the temporaries it hands out, nested copies included. -/
theorem coerce_ownSlots (cx : LowerCtx) (expected actual : Ty) (s : LowerState) :
    LSat (coerce cx expected actual) s (fun _ s' => OwnSlots s s') :=
  (lsat_of_sat ((coerce_slots cx expected actual [] : ExprSlots cx.alignWide [] false [] _) s)).mono
    fun _ _ h => h.keeps.step.ownSlots

/-- Creating a fresh value touches no slot but the indices it hands out to its element loops. -/
theorem freshValue_ownSlots (cx : LowerCtx) (fuel : Nat) (t : Ty) (s : LowerState) :
    LSat (freshValue cx fuel t) s (fun _ s' => OwnSlots s s') :=
  (lsat_of_sat ((freshValue_slots cx fuel t [] : ExprSlots cx.alignWide [] false [] _) s)).mono
    fun _ _ h => h.keeps.step.ownSlots

end Lower

open Lower

/-- Whatever the scopes and options, lowering lays out the local slots of every routine and of
the initializer of the module it produces: the parameters are packed from slot 0 in order, every
slot touched lies below the routine's slot count, values touched in one slot have one kind and
values in different slots do not overlap, and with wide values aligned a real past the
parameters starts on an even slot. No slot serves twice: the code lowered for statements touches
the locals in scope when it starts or slots handed out since, so never a slot of a scope closed
before, and a local it brings into scope takes slots handed out since; a widening copy and the
creation of a fresh value, the constructs with temporaries, touch no slot but those they hand out
themselves, so nested temporaries never share one. -/
theorem lowered_slots_laid_out (scopes : Scopes) (opts : LowerOptions) (p : Program) {m : Module}
    (h : (lowerProgram scopes opts p).1 = .ok m) :
    (∀ rc ∈ m.routines ++ m.initializer.toList,
      SlotsLaidOut opts.alignWide rc.params rc.maxLocals (accessesOf rc.code)) ∧
    (∀ (cx : LowerCtx) (ss : List Stmt) (s : LowerState),
      LSat (stmts cx ss) s (fun _ s' => s.em.next ≤ s'.em.next ∧
        (∀ e ∈ s'.em.frames.flatten, e ∈ s.em.frames.flatten ∨ Fresh s s' (e.2.slot, e.2.kind)) ∧
        ∃ new, s'.em.code.toList = s.em.code.toList ++ new ∧
          ∀ a ∈ accessesOf new, a ∈ slotsBound s.em.frames ∨ Fresh s s' a)) ∧
    (∀ (cx : LowerCtx) (expected actual : Ty) (s : LowerState),
      LSat (coerce cx expected actual) s (fun _ s' => OwnSlots s s')) ∧
    ∀ (cx : LowerCtx) (fuel : Nat) (t : Ty) (s : LowerState),
      LSat (freshValue cx fuel t) s (fun _ s' => OwnSlots s s') := by
  refine ⟨lowerProgram_slots h, fun cx ss s => ?_, coerce_ownSlots, freshValue_ownSlots⟩
  refine (stmts_slotStep cx ss s).mono fun _ s' step => ⟨step.grows, step.bound, ?_⟩
  -- no temporaries surround a statement list
  obtain ⟨new, e, q⟩ := step.code
  refine ⟨new, e, fun a ha => ?_⟩
  rcases q a ha with ⟨-, h⟩ | h | h
  · exact .inl h
  · cases h
  · exact .inr h

/-- A routine with an integer and a real parameter and a real local: the parameters take slots
0 and 1 to 2, and the local, aligned, slots 4 to 5. -/
theorem aligned_local_slots_laid_out :
    let p : Program := ⟨[.routine "f" [⟨"a", .integer⟩, ⟨"d", .real⟩] (some .real)
      [.varDecl "r" (some .real) (some (.var "a")), .ret (some (.var "r"))]]⟩
    ∃ m, (lowerProgram default {} p).1 = .ok m ∧
      (m.routines ++ m.initializer.toList).map (fun rc => accessesOf rc.code) =
        [[(0, .int), (4, .real), (4, .real)]] ∧
      ∀ rc ∈ m.routines ++ m.initializer.toList,
        SlotsLaidOut true rc.params rc.maxLocals (accessesOf rc.code) := by
  intro p
  exact ⟨_, rfl, rfl, (lowered_slots_laid_out default {} p rfl).1⟩

end ImpStack
