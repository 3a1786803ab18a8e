import ColumnBridge.Proofs.Column.Cells

/-!
# Delivering the slots of a column

A visitor may change its state at every call, and may fail at any of them, so
what it is told depends on how it has answered so far.  `Visitor.Delivers`
describes a delivery without reference to a loop: either every call succeeds, or
the calls end with the first that fails, and this call decides the error and the
state that is left.

That a delivery makes no other calls than these cannot be read off the visitor's
own state, which need not remember them.  `Visitor.recorder` is a visitor that
does: it behaves as the given one and lists the calls it receives.
-/

namespace ColumnBridge

variable {σ : Type}

namespace Visitor

/-! ## Deliveries -/

/-- All of the calls succeed, one after the other, and lead from the first state
to the second. -/
inductive Takes (visitor : Visitor σ) : List Visit → σ → σ → Prop
  | nil (s : σ) : Takes visitor [] s s
  | cons {visit : Visit} {visits : List Visit} {s s₁ s₂ : σ}
      (hvisit : (visitor.receive visit).run s = .ok () s₁)
      (hvisits : Takes visitor visits s₁ s₂) :
      Takes visitor (visit :: visits) s s₂

/-- Of the calls that are due, some are made one after the other: all of them if
none fails, and otherwise those up to the first that fails.  The ending is that
of the last call made. -/
inductive Delivers (visitor : Visitor σ) (s : σ) :
    (due made : List Visit) → EStateM.Result Error σ Unit → Prop
  | all {due : List Visit} {s' : σ} (hdue : visitor.Takes due s s') :
      Delivers visitor s due due (.ok () s')
  | upTo (before after : List Visit) {visit : Visit} {s₁ s' : σ} {error : Error}
      (hbefore : visitor.Takes before s s₁)
      (hvisit : (visitor.receive visit).run s₁ = .error error s') :
      Delivers visitor s (before ++ visit :: after) (before ++ [visit])
        (.error error s')

/-- A call that succeeds, and a delivery in the state that it leaves. -/
theorem Delivers.cons {visitor : Visitor σ} {visit : Visit}
    {due made : List Visit} {s s₁ : σ} {ending : EStateM.Result Error σ Unit}
    (hvisit : (visitor.receive visit).run s = .ok () s₁)
    (h : visitor.Delivers s₁ due made ending) :
    visitor.Delivers s (visit :: due) (visit :: made) ending := by
  cases h with
  | all hdue => exact .all (.cons hvisit hdue)
  | upTo before after hbefore hfail =>
      exact .upTo (visit :: before) after (.cons hvisit hbefore) hfail

/-! ## Recording the calls -/

/-- An ending together with a list of calls. -/
def withCalls (calls : List Visit) :
    EStateM.Result Error σ Unit → EStateM.Result Error (σ × List Visit) Unit
  | .ok () s => .ok () (s, calls)
  | .error error s => .error error (s, calls)

/-- The visitor that also lists the calls it receives. -/
def recorder (visitor : Visitor σ) : Visitor (σ × List Visit) :=
  ofVisits fun visit (s, calls) =>
    withCalls (calls ++ [visit]) ((visitor.receive visit).run s)

theorem receive_recorder (visitor : Visitor σ) (visit : Visit) (s : σ)
    (calls : List Visit) : (visitor.recorder.receive visit).run (s, calls) =
      withCalls (calls ++ [visit]) ((visitor.receive visit).run s) := by
  cases visit <;> rfl

/-! ## Making the calls one after the other -/

variable (visitor : Visitor σ) {visit : Visit} {s s₁ : σ}

theorem run_forM_cons_of_ok (visits : List Visit)
    (h : (visitor.receive visit).run s = .ok () s₁) :
    ((visit :: visits).forM visitor.receive).run s =
      (visits.forM visitor.receive).run s₁ := by
  rw [List.forM_eq_forM, List.forM_cons, EStateM.run_bind, h]

theorem run_forM_cons_of_error (visits : List Visit) {error : Error}
    (h : (visitor.receive visit).run s = .error error s₁) :
    ((visit :: visits).forM visitor.receive).run s = .error error s₁ := by
  rw [List.forM_eq_forM, List.forM_cons, EStateM.run_bind, h]

theorem Takes.run_forM {visitor : Visitor σ} {visits : List Visit}
    (h : visitor.Takes visits s s₁) :
    (visits.forM visitor.receive).run s = .ok () s₁ := by
  induction h with
  | nil s => rfl
  | cons hvisit _ ih => rw [visitor.run_forM_cons_of_ok _ hvisit, ih]

/-- A loop over calls delivers them, and a recorder lists those that it
makes. -/
theorem exists_delivers_forM (due calls : List Visit) (s : σ) :
    ∃ made, visitor.Delivers s due made ((due.forM visitor.receive).run s) ∧
      (due.forM visitor.recorder.receive).run (s, calls) =
        withCalls (calls ++ made) ((due.forM visitor.receive).run s) := by
  induction due generalizing s calls with
  | nil =>
      refine ⟨[], .all (.nil s), ?_⟩
      rw [List.append_nil]
      rfl
  | cons visit visits ih =>
      have hrecorded := visitor.receive_recorder visit s calls
      cases hvisit : (visitor.receive visit).run s with
      | error error s₁ =>
          rw [hvisit] at hrecorded
          rw [visitor.run_forM_cons_of_error visits hvisit,
            visitor.recorder.run_forM_cons_of_error visits hrecorded]
          exact ⟨[visit], .upTo [] visits (.nil s) hvisit, rfl⟩
      | ok _ s₁ =>
          rw [hvisit] at hrecorded
          obtain ⟨made, hdelivers, hrest⟩ := ih (calls ++ [visit]) s₁
          rw [visitor.run_forM_cons_of_ok visits hvisit,
            visitor.recorder.run_forM_cons_of_ok visits hrecorded, hrest,
              List.append_assoc]
          exact ⟨visit :: made, hdelivers.cons hvisit, rfl⟩

end Visitor

namespace Column

variable (visitor : Visitor σ) {c : Column}

theorem accept_of_visits {visits : List Visit} (h : c.visits? = some visits) :
    c.accept visitor = visits.forM visitor.receive := by
  rw [accept_eq, h]

theorem run_accept_of_not_visited (h : c.visits? = none) (s : σ) :
    (c.accept visitor).run s = .error (.cannotIterate c.name c.dtype) s := by
  rw [accept_eq, h]
  rfl

/-- A column hands its slots to a visitor in row order and with one call each,
which its type determines; the first call that fails ends the delivery, and the
error and the state are those that this call left.  A column of any other type
is refused before its first slot. -/
theorem accept_delivers_or_refuses (visitor : Visitor σ) (c : Column) (s : σ) :
    (c.dtype ∈ [.float64, .float32, .int64, .int32, .uint32, .uint64, .null] ∨
        (c.dtype = .string ∨ ∃ unit zone, c.dtype = .datetime unit zone) →
      ∃ visit made, c.dtype.visit? = some visit ∧
        visitor.Delivers s (c.slots.map (Visit.ofSlot visit)) made
          ((c.accept visitor).run s) ∧
        (c.accept visitor.recorder).run (s, []) =
          Visitor.withCalls made ((c.accept visitor).run s)) ∧
    (¬ (c.dtype ∈ [.float64, .float32, .int64, .int32, .uint32,
        .uint64, .null] ∨
        (c.dtype = .string ∨ ∃ unit zone, c.dtype = .datetime unit zone)) →
      ∃ detail, (c.accept visitor).run s = .error (.unsupportedType detail) s ∧
        (c.accept visitor.recorder).run (s, []) =
          .error (.unsupportedType detail) (s, [])) := by
  constructor
  · intro hvisited
    obtain ⟨visit, hvisit⟩ := (DType.exists_visit?_iff c.dtype).mpr hvisited
    have hvisits : c.visits? = some (c.slots.map (Visit.ofSlot visit)) := by
      rw [visits?, hvisit]
      rfl
    obtain ⟨made, hdelivers, hrecorded⟩ :=
      visitor.exists_delivers_forM (c.slots.map (Visit.ofSlot visit)) [] s
    rw [accept_of_visits visitor hvisits,
      accept_of_visits visitor.recorder hvisits]
    exact ⟨visit, made, hvisit, hdelivers, hrecorded⟩
  · intro hrefused
    have hvisits : c.visits? = none := by
      rw [visits?, Option.map_eq_none_iff, Option.eq_none_iff_forall_not_mem]
      intro visit hvisit
      exact hrefused ((DType.exists_visit?_iff c.dtype).mp ⟨visit, hvisit⟩)
    exact ⟨_, run_accept_of_not_visited visitor hvisits s,
      run_accept_of_not_visited visitor.recorder hvisits (s, [])⟩

/-- A visitor that counts the numbers it is told of, and fails at everything
else. -/
def sampleVisitor : Visitor Nat :=
  Visitor.ofVisits fun visit count =>
    match visit.double? with
    | some x =>
      if x.isNaN then
        .error (.foreignRuntime "NaN") count
      else .ok () (count + 1)
    | none => .error .stringInMatrix count

/-- Narrow integers in one chunk and nulls in another. -/
def sampleSlots : Column :=
  ⟨"n", .int32, [.listed [some (-1), some 5], .repeated 3 none]⟩

theorem accept_sampleVisitor :
    (∃ visit made, DType.int32.visit? = some visit ∧
      sampleVisitor.Delivers 0 (sampleSlots.slots.map (Visit.ofSlot visit)) made
        (.error (.foreignRuntime "NaN") 2) ∧
      made = [.int64 (-1), .int64 5, .null]) ∧
    ∃ detail, ((ofSlots "flags" .boolean []).accept sampleVisitor).run 7 =
      .error (.unsupportedType detail) 7 := by
  constructor
  · obtain ⟨visit, made, hvisit, hdelivers, hrecorded⟩ :=
      (accept_delivers_or_refuses sampleVisitor sampleSlots 0).1
        (Or.inl (by decide))
    have hending : (sampleSlots.accept sampleVisitor).run 0 =
        .error (.foreignRuntime "NaN") 2 := rfl
    have hcalls : (sampleSlots.accept sampleVisitor.recorder).run (0, []) =
        .error (.foreignRuntime "NaN") (2, [.int64 (-1), .int64 5, .null]) :=
      rfl
    rw [hcalls, hending] at hrecorded
    rw [hending] at hdelivers
    cases hrecorded
    exact ⟨visit, _, hvisit, hdelivers, rfl⟩
  · obtain ⟨detail, hrefused, -⟩ :=
      (accept_delivers_or_refuses sampleVisitor
        (ofSlots "flags" .boolean []) 7).2 (by simp [ofSlots])
    exact ⟨detail, hrefused⟩

end Column
end ColumnBridge
