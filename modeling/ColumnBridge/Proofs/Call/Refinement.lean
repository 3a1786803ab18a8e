import ColumnBridge.Proofs.Call.Resolution

/-!
# Calls refine a finite map

To its callers a registry is a finite map from live handles to values that never
change.  A step of the map answers a call from the map alone: it adds one entry
under a handle that was never given out, removes the entry of a live handle, or
leaves the map as it is.  The main statement, `explains_performAll`, says that
every sequence of calls on a registry that starts empty is a sequence of such
steps, whichever handles the calls are given, and that the registry holds what
the map holds after each of them.

The allocator is trusted with one thing only: the addresses that it gave out in
the course of the calls are not null and do not repeat.
-/

namespace ColumnBridge

/-! ## The map -/

/-- The live handles with their objects, and all handles given out so far. -/
structure HandleMap where
  live : LiveObjects
  issued : List Address
  null_notMem_issued : Address.null ∉ issued
  mem_issued : ∀ handle ∈ live, handle ∈ issued

namespace HandleMap

/-- The map before the first call. -/
def empty : HandleMap :=
  ⟨∅, [], List.not_mem_nil, fun _ h => absurd h Finmap.notMem_empty⟩

/-- The null handle is never live. -/
theorem null_notMem_live (m : HandleMap) : Address.null ∉ m.live :=
  fun h => m.null_notMem_issued (m.mem_issued _ h)

/-- The map with an object under a further handle. -/
def adopt (m : HandleMap) (handle : Address) (object : Object)
    (hnull : handle ≠ .null) : HandleMap where
  live := m.live.insert handle object
  issued := handle :: m.issued
  null_notMem_issued := by
    rw [List.mem_cons, not_or]
    exact ⟨hnull.symm, m.null_notMem_issued⟩
  mem_issued := by
    intro other h
    rcases Finmap.mem_insert.mp h with rfl | h
    · exact List.mem_cons_self
    · exact List.mem_cons_of_mem _ (m.mem_issued other h)

/-- The map without the entry of a handle. -/
def release (m : HandleMap) (handle : Address) : HandleMap where
  live := m.live.erase handle
  issued := m.issued
  null_notMem_issued := m.null_notMem_issued
  mem_issued := fun other h => m.mem_issued other (Finmap.mem_erase.mp h).2

/-! ## Steps of the map -/

/-- What a call answers, and what becomes of the map: only a new handle is left
open, which was never given out before. -/
inductive Outcome (m : HandleMap) (call : Call) :
    Except Error call.Result → HandleMap → Prop
  | create {object : Object} {answer : Address → call.Result} {handle : Address}
      (heffect : call.effect m.live = .ok (.create object answer))
      (hnull : handle ≠ .null) (hissued : handle ∉ m.issued)
      (hlive : handle ∉ m.live) :
      Outcome m call (.ok (answer handle)) (m.adopt handle object hnull)
  | remove {handle : Address} {answer : call.Result}
      (heffect : call.effect m.live = .ok (.remove handle answer))
      (hlive : handle ∈ m.live) :
      Outcome m call (.ok answer) (m.release handle)
  | read {answer : call.Result}
      (heffect : call.effect m.live = .ok (.read answer)) :
      Outcome m call (.ok answer) m
  | fail {error : Error} (heffect : call.effect m.live = .error error) :
      Outcome m call (.error error) m

/-- A step of the map: the outcome of a call, which tells apart handles that are
not live and handles of the wrong kind. -/
structure Step (m : HandleMap) (call : Call) (answer : Except Error call.Result)
    (next : HandleMap) : Prop where
  outcome : Outcome m call answer next
  handles : call.ReportsHandles m.live answer

end HandleMap

/-! ## Sequences of calls -/

/-- A call that was performed, its answer, and the session that it left. -/
structure Performed where
  call : Call
  answer : Except Error call.Result
  after : Session

/-- Performs calls one after the other. -/
def Call.performAll (settings : Settings) (allocate : Allocator) :
    List Call → Session → List Performed
  | [], _ => []
  | call :: rest, s =>
    let (answer, after) := call.perform settings allocate s
    ⟨call, answer, after⟩ :: performAll settings allocate rest after

/-- The session that calls leave when they are performed one after the other. -/
def Call.sessionAfter (settings : Settings) (allocate : Allocator)
    (calls : List Call) (s : Session) : Session :=
  calls.foldl (fun s call => (call.perform settings allocate s).2) s

/-- The map takes a step for each call that was performed, and holds what the
registry holds after each of them. -/
inductive HandleMap.Explains : HandleMap → List Performed → Prop
  | nil {m : HandleMap} : Explains m []
  | cons {m next : HandleMap} {p : Performed} {rest : List Performed}
      (hstep : m.Step p.call p.answer next)
      (hcontents : p.after.registry.contents = next.live)
      (hrest : next.Explains rest) : Explains m (p :: rest)

/-- The addresses that an allocator gives out first are not null and do not
repeat. -/
def Allocator.FreshBelow (allocate : Allocator) (count : Nat) : Prop :=
  ∀ n < count, allocate n ≠ .null ∧ ∀ earlier < n, allocate earlier ≠ allocate n

instance (allocate : Allocator) (count : Nat) :
    Decidable (allocate.FreshBelow count) :=
  inferInstanceAs (Decidable (∀ n < count, _ ∧ ∀ earlier < n, _))

theorem Allocator.FreshBelow.mono {allocate : Allocator} {count other : Nat}
    (h : allocate.FreshBelow count) (hle : other ≤ count) :
    allocate.FreshBelow other :=
  fun n hn => h n (Nat.lt_of_lt_of_le hn hle)

/-! ## Simulation -/

/-- A session whose registry holds what the map holds, and has given out the
same handles. -/
structure HandleMap.Represents (m : HandleMap) (allocate : Allocator)
    (s : Session) : Prop where
  contents : s.registry.contents = m.live
  issued : ∀ handle ∈ m.issued, ∃ n < s.registry.issued, allocate n = handle

namespace HandleMap

variable {m : HandleMap} {settings : Settings} {allocate : Allocator}
  {s : Session}

theorem represents_fresh (allocate : Allocator) :
    empty.Represents allocate .fresh where
  contents := Registry.contents_empty
  issued := fun _ h => absurd h List.not_mem_nil

theorem Represents.adopt (h : m.Represents allocate s) (object : Object)
    (hnull : allocate s.registry.issued ≠ .null) :
    (m.adopt (allocate s.registry.issued) object hnull).Represents allocate
      (s.adopt settings allocate object).2 where
  contents := by
    rw [Session.contents_adopt, h.contents]
    rfl
  issued := by
    intro handle hhandle
    rw [Session.issued_adopt]
    rcases List.mem_cons.mp hhandle with rfl | hhandle
    · exact ⟨s.registry.issued, Nat.lt_succ_self _, rfl⟩
    · obtain ⟨n, hn, heq⟩ := h.issued handle hhandle
      exact ⟨n, Nat.lt_succ_of_lt hn, heq⟩

theorem Represents.release (h : m.Represents allocate s) {handle : Address}
    (hlive : handle ∈ m.live) :
    (m.release handle).Represents allocate (s.release settings handle).2 where
  contents := by
    rw [Session.contents_release settings (h.contents ▸ hlive), h.contents]
    rfl
  issued := by
    intro other hother
    rw [Session.issued_release]
    exact h.issued other hother

end HandleMap

namespace Call

variable {settings : Settings} {allocate : Allocator} {s : Session}

/-- Enacting an effect fails exactly as the effect does. -/
theorem enact_eq_error_iff {α : Type} {outcome : Except Error (Effect α)}
    {error : Error} :
    (Effect.enact settings allocate s outcome).1 = .error error ↔
      outcome = .error error := by
  rcases outcome with failure | ⟨object, answer⟩ | ⟨handle, answer⟩ | answer
  · simp [Effect.enact]
  · simp [Effect.enact]
  · simp [Effect.enact]
  · simp [Effect.enact]

theorem ReportsHandles.of_error_iff {call : Call} {m : LiveObjects} {α β : Type}
    {outcome : Except Error α} {answer : Except Error β}
    (h : call.ReportsHandles m outcome)
    (hiff : ∀ error, answer = .error error ↔ outcome = .error error) :
    call.ReportsHandles m answer where
  unknown handle := (hiff _).trans (h.unknown handle)
  wrongKind handle hmem hstop := by
    obtain ⟨kind, hkind, herror⟩ := h.wrongKind handle hmem hstop
    exact ⟨kind, hkind, (hiff _).mpr herror⟩

theorem issued_le_perform (call : Call) :
    s.registry.issued ≤
      (call.perform settings allocate s).2.registry.issued := by
  rw [perform_eq_enact]
  rcases call.effect s.registry.contents with
    error | ⟨object, answer⟩ | ⟨handle, answer⟩ | answer
  · exact Nat.le_refl _
  · rw [Effect.enact, Session.issued_adopt]
    exact Nat.le_succ _
  · rw [Effect.enact, Session.issued_release]
  · exact Nat.le_refl _

theorem issued_le_sessionAfter (calls : List Call) :
    s.registry.issued ≤
      (sessionAfter settings allocate calls s).registry.issued := by
  induction calls generalizing s with
  | nil => exact Nat.le_refl _
  | cons call rest ih => exact Nat.le_trans (issued_le_perform call) ih

/-- The outcome of a computation is not the removal of an entry. -/
def NeverRemoves {α : Type} (outcome : Except Error (Effect α)) : Prop :=
  ∀ handle answer, outcome ≠ .ok (.remove handle answer)

theorem neverRemoves_create {α : Type} (object : Object)
    (answer : Address → α) : NeverRemoves (pure (.create object answer)) := by
  intro handle answer h
  cases h

theorem neverRemoves_read {α : Type} (answer : α) :
    NeverRemoves (pure (.read answer)) := by
  intro handle answer h
  cases h

theorem neverRemoves_bind {α β : Type} {x : Except Error α}
    {f : α → Except Error (Effect β)} (hf : ∀ a, NeverRemoves (f a)) :
    NeverRemoves (x >>= f) := by
  cases x with
  | error error =>
      intro handle answer h
      cases h
  | ok a => exact hf a

/-- Only a release removes an entry. -/
theorem eq_releaseObject_of_effect {call : Call} {m : LiveObjects}
    {handle : Address} {answer : call.Result}
    (h : call.effect m = .ok (.remove handle answer)) :
    call = .releaseObject handle := by
  cases call with
  | releaseObject released =>
      rw [effect] at h
      split at h
      next =>
        cases h
        rfl
      next => cases h
  | oneHotEncode column =>
      exact absurd h (neverRemoves_bind (fun _ =>
        neverRemoves_bind fun _ => neverRemoves_create _ _) _ _)
  | columnFromDoubles data name =>
      exact absurd h (neverRemoves_bind (fun _ =>
        neverRemoves_bind fun _ => neverRemoves_create _ _) _ _)
  | columnFromStrings data name =>
      exact absurd h (neverRemoves_bind (fun _ => neverRemoves_bind fun _ =>
        neverRemoves_bind fun _ => neverRemoves_create _ _) _ _)
  | tableFromColumns columns =>
      exact absurd h (neverRemoves_bind (fun _ => neverRemoves_bind fun _ =>
        neverRemoves_bind fun _ => neverRemoves_create _ _) _ _)
  | tableNumRows table =>
      exact absurd h (neverRemoves_bind (fun _ => neverRemoves_read _) _ _)
  | tableNumColumns table =>
      exact absurd h (neverRemoves_bind (fun _ => neverRemoves_read _) _ _)
  | tableColumnAt table index =>
      exact absurd h (neverRemoves_bind (fun _ =>
        neverRemoves_bind fun _ => neverRemoves_create _ _) _ _)
  | columnLength column =>
      exact absurd h (neverRemoves_bind (fun _ => neverRemoves_read _) _ _)
  | columnDoubleAt column index =>
      exact absurd h (neverRemoves_bind (fun _ =>
        neverRemoves_bind fun _ => neverRemoves_read _) _ _)

/-- Entries are removed for live handles only. -/
theorem mem_of_effect_eq_remove {call : Call} {m : LiveObjects}
    {handle : Address} {answer : call.Result}
    (h : call.effect m = .ok (.remove handle answer)) : handle ∈ m := by
  obtain rfl := eq_releaseObject_of_effect h
  by_contra hmem
  rw [effect, if_neg hmem] at h
  cases h

end Call

namespace HandleMap

variable {m : HandleMap} {settings : Settings} {allocate : Allocator}
  {s : Session}

/-- Performing a call is a step of the map, as long as the allocator gives out
no address twice. -/
theorem Represents.exists_step (h : m.Represents allocate s) (call : Call)
    (hfresh : allocate.FreshBelow
      (call.perform settings allocate s).2.registry.issued) :
    ∃ next, m.Step call (call.perform settings allocate s).1 next ∧
      next.Represents allocate (call.perform settings allocate s).2 := by
  have hhandles :
      call.ReportsHandles m.live (call.perform settings allocate s).1 := by
    rw [Call.perform_eq_enact, h.contents]
    exact (call.reportsHandles_effect m.live).of_error_iff fun _ =>
      Call.enact_eq_error_iff
  rw [Call.perform_eq_enact, h.contents] at hfresh hhandles ⊢
  rcases heffect : call.effect m.live with
    error | ⟨object, answer⟩ | ⟨handle, answer⟩ | answer
  · rw [heffect] at hhandles
    exact ⟨m, ⟨.fail heffect, hhandles⟩, h⟩
  · rw [heffect] at hhandles hfresh
    simp only [Effect.enact, Session.issued_adopt] at hfresh
    obtain ⟨hnull, hdistinct⟩ := hfresh s.registry.issued (Nat.lt_succ_self _)
    have hissued : allocate s.registry.issued ∉ m.issued := by
      intro hmem
      obtain ⟨n, hn, heq⟩ := h.issued _ hmem
      exact hdistinct n hn heq
    have hlive : allocate s.registry.issued ∉ m.live :=
      fun hmem => hissued (m.mem_issued _ hmem)
    exact ⟨_, ⟨.create heffect hnull hissued hlive, hhandles⟩,
      h.adopt object hnull⟩
  · rw [heffect] at hhandles
    have hlive := Call.mem_of_effect_eq_remove heffect
    exact ⟨_, ⟨.remove heffect hlive, hhandles⟩, h.release hlive⟩
  · rw [heffect] at hhandles
    exact ⟨m, ⟨.read heffect, hhandles⟩, h⟩

/-- A map that a session represents explains every sequence of calls on the
session. -/
theorem Represents.explains (h : m.Represents allocate s) (calls : List Call)
    (hfresh : allocate.FreshBelow
      (Call.sessionAfter settings allocate calls s).registry.issued) :
    m.Explains (Call.performAll settings allocate calls s) := by
  induction calls generalizing m s with
  | nil => exact .nil
  | cons call rest ih =>
      have hcall : allocate.FreshBelow
          (call.perform settings allocate s).2.registry.issued :=
        hfresh.mono (Call.issued_le_sessionAfter rest)
      obtain ⟨next, hstep, hnext⟩ := h.exists_step call hcall
      exact .cons hstep hnext.contents (ih hnext hfresh)

/-- Every sequence of calls on a registry that starts empty is a sequence of
steps of the map, as long as the allocator gives out neither the null address
nor an address twice. -/
theorem explains_performAll (settings : Settings) (allocate : Allocator)
    (calls : List Call)
    (hfresh : allocate.FreshBelow
      (Call.sessionAfter settings allocate calls .fresh).registry.issued) :
    empty.Explains (Call.performAll settings allocate calls .fresh) :=
  (represents_fresh allocate).explains calls hfresh

/-- Calls that build a table, release the column it was made of, use that column
once more, and read the table's own copy. -/
def sampleCalls : List Call :=
  [.columnFromDoubles ⟨some [.one, .nan], 2⟩ ⟨some [120, 0]⟩,
    .tableFromColumns ⟨some [⟨16⟩], 1⟩,
    .releaseObject ⟨16⟩,
    .columnLength ⟨16⟩,
    .tableColumnAt ⟨32⟩ 0,
    .columnDoubleAt ⟨48⟩ 1,
    .oneHotEncode ⟨32⟩,
    .tableNumRows .null]

/-- An allocator that gives out every sixteenth address. -/
def sampleAllocator : Allocator := fun n => ⟨.ofNat (16 * (n + 1))⟩

theorem explains_sampleCalls :
    sampleAllocator.FreshBelow
        (Call.sessionAfter ⟨false, 4096⟩ sampleAllocator
          sampleCalls .fresh).registry.issued ∧
      empty.Explains
        (Call.performAll ⟨false, 4096⟩ sampleAllocator sampleCalls .fresh) :=
  have hfresh : sampleAllocator.FreshBelow
      (Call.sessionAfter ⟨false, 4096⟩ sampleAllocator
        sampleCalls .fresh).registry.issued := by
    decide +kernel
  ⟨hfresh, explains_performAll _ _ _ hfresh⟩

end HandleMap
end ColumnBridge
