import ColumnBridge.Call.Export
import ColumnBridge.Proofs.Boundary.Message
import ColumnBridge.Proofs.Boundary.Outcome
import ColumnBridge.Proofs.Call.Effect

/-!
# Exported calls succeed or leave no trace in the registry

A call registers what it makes as the very last thing it does, so a call that
fails has registered nothing.  Together with what the boundary does around every
body this leaves an exported call two ways to end, and only these: it hands on
the value of its operation behind a null error variable, or it returns a
fallback value with a message and the registry is the one from before the call.
-/

namespace ColumnBridge

variable {settings : Settings} {allocate : Allocator} {s : Session}

/-! ## Operations -/

/-- An operation that fails leaves the session as it is. -/
theorem Call.perform_of_error {call : Call} {error : Error}
    (h : (call.perform settings allocate s).1 = .error error) :
    (call.perform settings allocate s).2 = s := by
  rw [perform_eq_enact] at h ⊢
  rcases heffect : call.effect s.registry.contents with
    failure | ⟨object, answer⟩ | ⟨handle, answer⟩ | answer
  · rfl
  · rw [heffect] at h
    cases h
  · rw [heffect] at h
    cases h
  · rfl

/-- The handle that an operation returns is live afterwards. -/
theorem Call.mem_contents_of_perform {call : Call} {value : call.Result}
    {handle : Address} (h : (call.perform settings allocate s).1 = .ok value)
    (hhandle : handle ∈ call.returnedHandle? value) :
    handle ∈ (call.perform settings allocate s).2.registry.contents := by
  have hreturns := call.returns_effect s.registry.contents
  rw [perform_eq_enact] at h ⊢
  rcases heffect : call.effect s.registry.contents with
    failure | ⟨object, answer⟩ | ⟨released, answer⟩ | answer
  · rw [heffect] at h
    cases h
  · rw [heffect] at h
    obtain rfl : answer (allocate s.registry.issued) = value := Except.ok.inj h
    have hlast : call.returnedHandle? (answer (allocate s.registry.issued)) =
        some (allocate s.registry.issued) := hreturns _ heffect _
    obtain rfl : allocate s.registry.issued = handle :=
      Option.some.inj (hlast.symm.trans hhandle)
    rw [Effect.enact, Session.contents_adopt]
    exact Finmap.mem_insert.mpr (Or.inl rfl)
  · rw [heffect] at h
    obtain rfl : answer = value := Except.ok.inj h
    cases (hreturns _ heffect).symm.trans hhandle
  · rw [heffect] at h
    obtain rfl : answer = value := Except.ok.inj h
    cases (hreturns _ heffect).symm.trans hhandle

theorem Call.nul_notMem_operation (call : Call) :
    Char.ofNat 0 ∉ call.operation.toList := by
  cases call <;> simp [operation]

/-! ## Exported calls -/

namespace Call

/-- What an exported call returns when it fails: the null handle, zero, or
nothing. -/
def fallback : (call : Call) → call.Result
  | .oneHotEncode _ => Address.null
  | .releaseObject _ => ()
  | .columnFromDoubles _ _ => Address.null
  | .columnFromStrings _ _ => Address.null
  | .tableFromColumns _ => Address.null
  | .tableNumRows _ => 0
  | .tableNumColumns _ => 0
  | .tableColumnAt _ _ => Address.null
  | .columnLength _ => 0
  | .columnDoubleAt _ _ => Binary64.zero

theorem boundaryValue_fallback (call : Call) :
    (BoundaryValue.fallback : call.Result) = call.fallback := by
  cases call <;> rfl

variable (settings allocate) in
/-- The operation succeeded, and its value was handed on. -/
structure Succeeded (call : Call) (thread : Nat) (b : Boundary)
    (after : call.Result × Boundary) (value : call.Result) : Prop where
  performed : (call.perform settings allocate b.session).1 = .ok value
  returned : after.1 = value
  registry : after.2.session.registry =
    (call.perform settings allocate b.session).2.registry
  registered : ∀ handle ∈ call.returnedHandle? value,
    handle ∈ after.2.session.registry.contents
  reading : (after.2.caller thread).read = .nothing

variable (settings allocate) in
/-- The operation failed, and all that is left of it is a message. -/
structure Failed (call : Call) (thread : Nat) (b : Boundary)
    (after : call.Result × Boundary) (error : Error) : Prop where
  performed : (call.perform settings allocate b.session).1 = .error error
  returned : after.1 = call.fallback
  registry : after.2.session.registry = b.session.registry
  reading : ∃ text, (after.2.caller thread).read = .text text ∧ text ≠ "" ∧
    text = writtenDetail settings error.message ++
      (" (in " ++ call.operation ++ ")")

theorem succeeded_exported {call : Call} {thread : Nat} {b : Boundary}
    {value : call.Result}
    (h : (call.perform settings allocate b.session).1 = .ok value) :
    call.Succeeded settings allocate thread b
      (call.exported settings allocate thread true b) value where
  performed := h
  returned := by rw [exported, Boundary.call_of_ok h]
  registry := Boundary.registry_call
  registered := by
    intro handle hhandle
    rw [exported, Boundary.registry_call]
    exact mem_contents_of_perform h hhandle
  reading := Boundary.read_call_of_ok h

theorem failed_exported {call : Call} {thread : Nat} {b : Boundary}
    {error : Error}
    (h : (call.perform settings allocate b.session).1 = .error error) :
    call.Failed settings allocate thread b
      (call.exported settings allocate thread true b) error where
  performed := h
  returned := by rw [exported, Boundary.call_of_error h, boundaryValue_fallback]
  registry := by rw [exported, Boundary.registry_call, perform_of_error h]
  reading := by
    have htext :=
      failureText_eq settings error.message call.nul_notMem_operation
    refine ⟨_, Boundary.read_call_of_error h, ?_, htext⟩
    rw [htext]
    intro hempty
    have hlength := congrArg String.length hempty
    simp at hlength

/-- With an error variable an exported call hands on the value of its operation
behind a null variable, or it fails, leaves the registry as it was and a message
behind; never both.  Without one it returns the same and does the same to the
registry, but writes to no variable. -/
theorem exported_succeeded_xor_failed (settings : Settings)
    (allocate : Allocator) (thread : Nat) (call : Call) (b : Boundary) :
    Xor
        (∃ value, call.Succeeded settings allocate thread b
          (call.exported settings allocate thread true b) value)
        (∃ error, call.Failed settings allocate thread b
          (call.exported settings allocate thread true b) error) ∧
      (call.exported settings allocate thread false b).1 =
        (call.exported settings allocate thread true b).1 ∧
      (call.exported settings allocate thread false b).2.session.registry =
        (call.exported settings allocate thread true b).2.session.registry ∧
      ∀ t, ((call.exported settings allocate thread false b).2.caller
        t).pointer =
        (b.caller t).pointer := by
  refine ⟨?_, Boundary.fst_call_eq true, ?_, fun t =>
    Boundary.pointer_call_false t⟩
  · rcases h : (call.perform settings allocate b.session).1 with error | value
    · refine Or.inr ⟨⟨error, failed_exported h⟩, ?_⟩
      rintro ⟨value, hvalue⟩
      cases h.symm.trans hvalue.performed
    · refine Or.inl ⟨⟨value, succeeded_exported h⟩, ?_⟩
      rintro ⟨error, herror⟩
      cases h.symm.trans herror.performed
  · rw [exported, Boundary.registry_call, exported, Boundary.registry_call]

end Call
end ColumnBridge
