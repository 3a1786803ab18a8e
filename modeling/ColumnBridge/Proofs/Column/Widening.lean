import ColumnBridge.Proofs.Column.Delivery
import ColumnBridge.Proofs.Number.Widening

/-!
# Widening on the way to a visitor

A visitor is told of doubles, of signed and unsigned integers of 64 bits, of
strings and of points in time.  A value of a narrower type is widened before it
is told, and this must not change which number it is.  `DType.Tells` says which
call tells a value, in terms of the number that the value stands for and not of
the conversion that is used.

An integer is told by the only integer of 64 bits that equals it, and a single
precision number by a double of its sign and its magnitude.  A magnitude has one
word in each format, so that a call tells no more than one value, unless this is
NaN.
-/

namespace ColumnBridge

namespace DType

/-- The call tells the value: it carries the same number, the same string or the
same point in time. -/
def Tells : (dtype : DType) → dtype.Value → Visit → Prop
  | .float64, x, call => call = .float64 x
  | .float32, x, call =>
    ∃ y, call = .float64 y ∧ y.datum.signedMagnitude? = x.datum.signedMagnitude?
  | .int64, i, call => call = .int64 i
  | .int32, i, call => ∃ j, call = .int64 j ∧ j.toInt = i.toInt
  | .uint32, n, call => ∃ j, call = .int64 j ∧ j.toInt = n.toNat
  | .uint64, n, call => call = .uint64 n
  | .string, text, call => call = .string text
  | .datetime unit _, count, call => call = .timestamp ⟨count, unit⟩
  | _, _, _ => False

/-- The call for a value tells it. -/
theorem tells_of_visit? {dtype : DType} {visit : dtype.Value → Visit}
    (h : dtype.visit? = some visit) (value : dtype.Value) :
    dtype.Tells value (visit value) := by
  cases dtype with
  | float32 =>
      cases h
      exact ⟨_, rfl, Binary64.signedMagnitude?_ofSingle value⟩
  | int32 =>
      cases h
      exact ⟨_, rfl, Int32.toInt_toInt64 value⟩
  | uint32 =>
      cases h
      have hbound : value.toNat < 2 ^ 63 :=
        Nat.lt_trans value.toNat_lt (by decide)
      exact ⟨_, rfl, Int64.toInt_ofNat_of_lt hbound⟩
  | float64 => cases h; rfl
  | int64 => cases h; rfl
  | uint64 => cases h; rfl
  | string => cases h; rfl
  | datetime unit zone => cases h; rfl
  | null => cases value
  | boolean => cases h
  | binary => cases h
  | list inner => cases h
  | other name => cases h

/-- No value is told as a null. -/
theorem not_tells_null (dtype : DType) (value : dtype.Value) :
    ¬ dtype.Tells value .null := by
  intro h
  cases dtype with
  | float32 => obtain ⟨y, hcall, -⟩ := h; cases hcall
  | int32 => obtain ⟨j, hcall, -⟩ := h; cases hcall
  | uint32 => obtain ⟨j, hcall, -⟩ := h; cases hcall
  | _ => cases h

/-- A call does not tell two values, unless they are NaNs. -/
theorem eq_of_tells {dtype : DType} {value value' : dtype.Value} {call : Visit}
    (hnumber : ¬ dtype.IsNaN value) (h : dtype.Tells value call)
    (h' : dtype.Tells value' call) : value = value' := by
  cases dtype with
  | float32 =>
      obtain ⟨y, rfl, hy⟩ := h
      obtain ⟨y', hcall, hy'⟩ := h'
      cases hcall
      exact Binary32.eq_of_signedMagnitude? hnumber (hy.symm.trans hy')
  | int32 =>
      obtain ⟨j, rfl, hj⟩ := h
      obtain ⟨j', hcall, hj'⟩ := h'
      cases hcall
      exact Int32.toInt_inj.mp (hj.symm.trans hj')
  | uint32 =>
      obtain ⟨j, rfl, hj⟩ := h
      obtain ⟨j', hcall, hj'⟩ := h'
      cases hcall
      exact UInt32.toNat_inj.mp (Int.ofNat_inj.mp (hj.symm.trans hj'))
  | float64 => cases h; cases h'; rfl
  | int64 => cases h; cases h'; rfl
  | uint64 => cases h; cases h'; rfl
  | string => cases h; cases h'; rfl
  | datetime unit zone => cases h; cases h'; rfl
  | null => cases value
  | boolean => cases h
  | binary => cases h
  | list inner => cases h
  | other name => cases h

/-- The slot holds a floating-point NaN. -/
def HoldsNaN (dtype : DType) (slot : Option dtype.Value) : Prop :=
  ∃ value, slot = some value ∧ dtype.IsNaN value

/-- Different slots have different calls, unless they hold NaNs. -/
theorem eq_of_ofSlot_eq {dtype : DType} {visit : dtype.Value → Visit}
    (htells : ∀ value, dtype.Tells value (visit value))
    {slot slot' : Option dtype.Value} (hnumber : ¬ dtype.HoldsNaN slot)
    (h : Visit.ofSlot visit slot = Visit.ofSlot visit slot') :
    slot = slot' := by
  cases slot with
  | none =>
      cases slot' with
      | none => rfl
      | some value' =>
          have hcall : visit value' = .null := h.symm
          exact absurd (hcall ▸ htells value') (dtype.not_tells_null value')
  | some value =>
      cases slot' with
      | none =>
          have hcall : visit value = .null := h
          exact absurd (hcall ▸ htells value) (dtype.not_tells_null value)
      | some value' =>
          have hcall : visit value = visit value' := h
          congr 1
          exact eq_of_tells (fun hnan => hnumber ⟨value, rfl, hnan⟩)
            (htells value) (hcall ▸ htells value')

end DType

namespace Column

/-- Accepting a visitor is a typed traversal that hands over each value by a
call that tells it, so that no number is changed on the way, and slots that are
not NaN remain different. -/
theorem accept_eq_traverse_of_tells (c : Column)
    (hvisited : c.dtype ∈
      [.float64, .float32, .int64, .int32, .uint32, .uint64, .null] ∨
      (c.dtype = .string ∨ ∃ unit zone, c.dtype = .datetime unit zone)) :
    ∃ visit : c.dtype.Value → Visit,
      (∀ value, c.dtype.Tells value (visit value)) ∧
      (∀ slot slot', ¬ c.dtype.HoldsNaN slot → slot ≠ slot' →
        Visit.ofSlot visit slot ≠ Visit.ofSlot visit slot') ∧
      ∀ {σ : Type} (visitor : Visitor σ) (s : σ),
        (c.accept visitor).run s =
          (traverse (fun value => visitor.receive (visit value)) visitor.null
            c.chunks).run s := by
  obtain ⟨visit, hvisit⟩ := (DType.exists_visit?_iff c.dtype).mpr hvisited
  have htells : ∀ value, c.dtype.Tells value (visit value) :=
    DType.tells_of_visit? hvisit
  refine ⟨visit, htells, ?_, ?_⟩
  · intro slot slot' hnumber hne heq
    exact hne (DType.eq_of_ofSlot_eq htells hnumber heq)
  · intro σ visitor s
    rw [accept_of_visits visitor (visits?_of_visit? hvisit),
      traverse_eq_forM_receive]
    rfl

/-- The greatest unsigned integers of 32 bits, and a null. -/
def sampleGreatest : Column :=
  ⟨"n", .uint32,
    [.repeated 2 (some 4294967295), .listed [none, some 4294967294]]⟩

theorem accept_sampleGreatest :
    ∃ visit : UInt32 → Visit,
      visit 4294967295 = .int64 4294967295 ∧
      visit 4294967295 ≠ visit 4294967294 ∧
      (sampleGreatest.accept sampleVisitor).run 5 =
        (traverse (fun value => sampleVisitor.receive (visit value))
          sampleVisitor.null sampleGreatest.chunks).run 5 := by
  obtain ⟨visit, htells, hdiffer, hrun⟩ :=
    accept_eq_traverse_of_tells sampleGreatest (Or.inl (by decide))
  refine ⟨visit, ?_, ?_, hrun sampleVisitor 5⟩
  · obtain ⟨j, hj, hvalue⟩ := htells (4294967295 : UInt32)
    rw [hj, ← Int64.toInt_inj.mp
      (show j.toInt = (4294967295 : Int64).toInt from hvalue)]
  · have hne : some (4294967295 : UInt32) ≠ some 4294967294 := by decide
    refine hdiffer _ _ ?_ hne
    rintro ⟨value, -, hnan⟩
    exact hnan

end Column
end ColumnBridge
