import ColumnBridge.Proofs.Call.Effect
import ColumnBridge.Proofs.Table.Defects

/-!
# Resolving the handles of a call

A call resolves its handles in order and stops at the first that is not live or
refers to an object of another kind.  Nothing else makes it report an unknown
handle: the computations on the values behind the handles, and on arguments that
are no handles, fail in ways of their own.  Hence `Call.reportsHandles_effect`:
a call reports an unknown handle exactly if it stops at that handle and the
handle is not live.
-/

namespace ColumnBridge

/-! ## Computations that resolve no handle -/

/-- The outcome of a computation is not the report of an unknown handle. -/
def NeverUnknown {α : Type} (outcome : Except Error α) : Prop :=
  ∀ handle, outcome ≠ .error (.unknownHandle handle)

theorem neverUnknown_ok {α : Type} (a : α) : NeverUnknown (.ok a) := by
  intro handle h
  cases h

/-- A computation on a value reports the unknown handles that finding the value
reports. -/
theorem bind_eq_unknownHandle_iff {α β : Type} {x : Except Error α}
    {f : α → Except Error β} (hf : ∀ a, NeverUnknown (f a)) (handle : Address) :
    (x >>= f) = .error (.unknownHandle handle) ↔
      x = .error (.unknownHandle handle) := by
  cases x with
  | error error => exact Iff.of_eq (by simp [bind, Except.bind])
  | ok a => exact ⟨fun h => absurd h (hf a handle), fun h => nomatch h⟩

theorem bind_eq_error_iff {α β : Type} {x : Except Error α}
    {f : α → Except Error β} {error : Error} :
    (x >>= f) = .error error ↔
      x = .error error ∨ ∃ a, x = .ok a ∧ f a = .error error := by
  cases x <;> simp [bind, Except.bind]

theorem bind_eq_ok_iff {α β : Type} {x : Except Error α}
    {f : α → Except Error β} {b : β} :
    (x >>= f) = .ok b ↔ ∃ a, x = .ok a ∧ f a = .ok b := by
  cases x <;> simp [bind, Except.bind]

theorem NeverUnknown.bind {α β : Type} {x : Except Error α}
    {f : α → Except Error β} (hx : NeverUnknown x)
    (hf : ∀ a, NeverUnknown (f a)) : NeverUnknown (x >>= f) := by
  intro handle h
  exact hx handle ((bind_eq_unknownHandle_iff hf handle).mp h)

theorem Table.neverUnknown_ofColumns (columns : List Column) :
    NeverUnknown (Table.ofColumns columns) := by
  intro handle h
  rcases isDefect_of_ofColumns h with ⟨name, -, herror⟩ |
    ⟨a, -, b, -, -, herror⟩
  · cases herror
  · cases herror

theorem OneHot.neverUnknown_encode (column : Column) :
    NeverUnknown (OneHot.encode column) := by
  unfold OneHot.encode
  split
  · exact Table.neverUnknown_ofColumns _
  · intro handle h
    cases h

theorem Column.neverUnknown_doubleAt (column : Column) (index : Nat) :
    NeverUnknown (column.doubleAt index) := by
  intro handle h
  unfold Column.doubleAt at h
  split at h
  · cases h
  · cases h
  · split at h <;> cases h

theorem Buffer.neverUnknown_read {α : Type} (buffer : Buffer α) :
    NeverUnknown buffer.read := by
  intro handle h
  unfold Buffer.read at h
  split at h
  · cases h
  · split at h <;> cases h

namespace TextArgument

theorem neverUnknown_read (argument : TextArgument) :
    NeverUnknown argument.read := by
  intro handle h
  unfold read at h
  split at h
  · cases h
  · split at h <;> cases h

theorem neverUnknown_readName (argument : TextArgument) :
    NeverUnknown argument.readName := by
  intro handle h
  unfold readName at h
  split at h
  · cases h
  · cases h
  next error hread =>
    cases h
    exact neverUnknown_read argument handle hread

theorem neverUnknown_readAll (arguments : List TextArgument) :
    NeverUnknown (readAll arguments) := by
  induction arguments with
  | nil => exact neverUnknown_ok _
  | cons argument rest ih =>
      intro handle h
      rw [readAll] at h
      split at h
      next error hread =>
        cases h
        exact neverUnknown_read argument handle hread
      next text hread =>
        split at h
        next error hrest =>
          cases h
          exact ih handle hrest
        next => cases h

end TextArgument

namespace Call

theorem neverUnknown_columnAt (table : Table) (index : Nat) :
    NeverUnknown (columnAt table index) := by
  intro handle h
  unfold columnAt at h
  split at h <;> cases h

theorem misfitFrom?_ne_unknownHandle (first : Column) (seen : List String)
    (columns : List Column) (handle : Address) :
    misfitFrom? first seen columns ≠ some (.unknownHandle handle) := by
  induction columns generalizing seen with
  | nil => simp [misfitFrom?]
  | cons c rest ih =>
      intro h
      rw [misfitFrom?] at h
      split at h
      · cases h
      · split at h
        · cases h
        · exact ih _ h

theorem neverUnknown_tableOf (columns : List Column) :
    NeverUnknown (tableOf columns) := by
  intro handle h
  unfold tableOf at h
  split at h
  next error hmisfit =>
    cases h
    cases columns with
    | nil => cases hmisfit
    | cons first rest =>
        exact misfitFrom?_ne_unknownHandle first _ rest handle hmisfit
  next => exact Table.neverUnknown_ofColumns columns handle h

end Call

/-! ## Look-ups -/

namespace LiveObjects

variable {m : LiveObjects} {kind : Kind} {handle : Address}

/-- A live handle, with an object of the given kind behind it. -/
def Refers (m : LiveObjects) (kind : Kind) (handle : Address) : Prop :=
  ∃ object, m.lookup handle = some object ∧ object.kind = kind

theorem exists_value_iff :
    (∃ value, m.value kind handle = .ok value) ↔ m.Refers kind handle := by
  rw [value, Refers]
  cases m.lookup handle with
  | none => simp
  | some object =>
      by_cases h : object.kind = kind
      · subst h
        simp [Object.as?]
      · simp [Object.as?_eq_none h, h]

theorem value_of_notMem (h : handle ∉ m) :
    m.value kind handle = .error (.unknownHandle handle) := by
  rw [value, Finmap.lookup_eq_none.mpr h]

theorem value_of_wrongKind {object : Object} (h : m.lookup handle = some object)
    (hkind : object.kind ≠ kind) :
    m.value kind handle = .error (.wrongKind handle kind.typeName) := by
  simp [value, h, Object.as?_eq_none hkind]

/-- A look-up reports an unknown handle exactly if the handle is not live. -/
theorem value_eq_unknownHandle_iff {other : Address} :
    m.value kind handle = .error (.unknownHandle other) ↔
      handle = other ∧ handle ∉ m := by
  constructor
  · intro h
    by_cases hmem : handle ∈ m
    · obtain ⟨object, hobject⟩ := Finmap.mem_iff.mp hmem
      by_cases hkind : object.kind = kind
      · obtain ⟨value, hvalue⟩ := exists_value_iff.mpr ⟨object, hobject, hkind⟩
        cases hvalue.symm.trans h
      · cases (value_of_wrongKind hobject hkind).symm.trans h
    · rw [value_of_notMem hmem] at h
      cases h
      exact ⟨rfl, hmem⟩
  · rintro ⟨rfl, hmem⟩
    exact value_of_notMem hmem

end LiveObjects

/-- A computation over a list succeeds with the results for its elements. -/
theorem mapM_eq_ok_iff {α β : Type} {f : α → Except Error β} {xs : List α}
    {ys : List β} :
    xs.mapM f = .ok ys ↔ List.Forall₂ (fun x y => f x = .ok y) xs ys := by
  induction xs generalizing ys with
  | nil => simp [pure, Except.pure, eq_comm]
  | cons x xs ih =>
      rw [List.mapM_cons, List.forall₂_cons_left_iff]
      simp only [← ih]
      cases f x with
      | error error => simp [bind, Except.bind]
      | ok y => cases xs.mapM f <;> simp [bind, Except.bind, pure,
          Except.pure, eq_comm]

/-- A computation over a list fails where it first fails on an element. -/
theorem mapM_eq_error_iff {α β : Type} {f : α → Except Error β} {xs : List α}
    {error : Error} : xs.mapM f = .error error ↔
      ∃ before x after, xs = before ++ x :: after ∧
        (∀ y ∈ before, ∃ b, f y = .ok b) ∧
        f x = .error error := by
  induction xs with
  | nil => simp [pure, Except.pure]
  | cons x xs ih =>
      rw [List.mapM_cons]
      cases hx : f x with
      | error found =>
          constructor
          · intro h
            cases h
            exact ⟨[], x, xs, rfl, by simp, hx⟩
          · rintro ⟨before, y, after, heq, hbefore, hy⟩
            cases before with
            | nil =>
                obtain ⟨rfl, -⟩ := List.cons.inj heq
                cases hx.symm.trans hy
                rfl
            | cons z before =>
                obtain ⟨rfl, -⟩ := List.cons.inj heq
                obtain ⟨b, hb⟩ := hbefore x List.mem_cons_self
                cases hb.symm.trans hx
      | ok b =>
          have hrest : (do
              let b ← Except.ok b
              let bs ← xs.mapM f
              pure (b :: bs)) = Except.error error ↔
                xs.mapM f = .error error := by
            cases xs.mapM f <;> simp [bind, Except.bind, pure, Except.pure]
          rw [hrest, ih]
          constructor
          · rintro ⟨before, y, after, rfl, hbefore, hy⟩
            refine ⟨x :: before, y, after, rfl, ?_, hy⟩
            intro z hz
            rcases List.mem_cons.mp hz with rfl | hz
            · exact ⟨b, hx⟩
            · exact hbefore z hz
          · rintro ⟨before, y, after, heq, hbefore, hy⟩
            cases before with
            | nil =>
                obtain ⟨rfl, -⟩ := List.cons.inj heq
                cases hx.symm.trans hy
            | cons z before =>
                obtain ⟨rfl, rfl⟩ := List.cons.inj heq
                exact ⟨before, y, after, rfl,
                  fun z hz => hbefore z (List.mem_cons_of_mem _ hz), hy⟩

/-! ## Calls -/

namespace Call

/-- The handles that a call resolves, in order. -/
def handles : Call → List Address
  | .oneHotEncode column => [column]
  | .releaseObject handle => [handle]
  | .columnFromDoubles _ _ => []
  | .columnFromStrings _ _ => []
  | .tableFromColumns columns =>
    match columns.read with
    | .ok handles => handles
    | .error _ => []
  | .tableNumRows table => [table]
  | .tableNumColumns table => [table]
  | .tableColumnAt table _ => [table]
  | .columnLength column => [column]
  | .columnDoubleAt column _ => [column]

/-- The kind of object that the handles of a call must refer to, unless any
object will do. -/
def kind? : Call → Option Kind
  | .oneHotEncode _ => some .column
  | .releaseObject _ => none
  | .columnFromDoubles _ _ => none
  | .columnFromStrings _ _ => none
  | .tableFromColumns _ => some .column
  | .tableNumRows _ => some .table
  | .tableNumColumns _ => some .table
  | .tableColumnAt _ _ => some .table
  | .columnLength _ => some .column
  | .columnDoubleAt _ _ => some .column

/-- A handle is live, with an object behind it that the call accepts. -/
def Accepts (call : Call) (m : LiveObjects) (handle : Address) : Prop :=
  ∃ object, m.lookup handle = some object ∧ ∀ kind ∈ call.kind?,
    object.kind = kind

/-- The handle is the first of its handles that the call does not accept. -/
def StopsAt (call : Call) (m : LiveObjects) (handle : Address) : Prop :=
  ∃ before after, call.handles = before ++ handle :: after ∧
    (∀ earlier ∈ before, call.Accepts m earlier) ∧ ¬ call.Accepts m handle

/-- What an outcome of a call says about its handles: an unknown handle is
reported exactly if the call stops at it and it is not live, and a live handle
at which the call stops is reported to be of the wrong kind. -/
structure ReportsHandles (call : Call) (m : LiveObjects) {α : Type}
    (outcome : Except Error α) : Prop where
  unknown : ∀ handle, outcome = .error (.unknownHandle handle) ↔
    call.StopsAt m handle ∧ handle ∉ m
  wrongKind : ∀ handle ∈ m, call.StopsAt m handle →
    ∃ kind ∈ call.kind?, outcome = .error (.wrongKind handle kind.typeName)

variable {call : Call} {m : LiveObjects} {kind : Kind} {handle : Address}

theorem accepts_iff_refers (hkind : call.kind? = some kind) :
    call.Accepts m handle ↔ m.Refers kind handle := by
  simp [Accepts, LiveObjects.Refers, hkind]

theorem accepts_iff_mem (hkind : call.kind? = none) :
    call.Accepts m handle ↔ handle ∈ m := by
  simp [Accepts, Finmap.mem_iff, hkind]

theorem not_stopsAt_of_handles_nil (h : call.handles = []) :
    ¬ call.StopsAt m handle := by
  rintro ⟨before, after, heq, -⟩
  rw [h] at heq
  cases before <;> cases heq

theorem stopsAt_iff_of_handles_singleton {only : Address}
    (h : call.handles = [only]) :
    call.StopsAt m handle ↔ handle = only ∧ ¬ call.Accepts m only := by
  constructor
  · rintro ⟨before, after, heq, -, hno⟩
    rw [h] at heq
    cases before with
    | nil =>
        obtain ⟨rfl, -⟩ := List.cons.inj heq
        exact ⟨rfl, hno⟩
    | cons first before =>
        obtain ⟨-, hnil⟩ := List.cons.inj heq
        cases before <;> cases hnil
  · rintro ⟨rfl, hno⟩
    exact ⟨[], [], h, by simp, hno⟩

theorem reportsHandles_of_handles_nil {α : Type} {outcome : Except Error α}
    (h : call.handles = []) (houtcome : NeverUnknown outcome) :
    call.ReportsHandles m outcome where
  unknown handle := by
    constructor
    · intro hunknown
      exact absurd hunknown (houtcome handle)
    · intro hstop
      exact absurd hstop.1 (not_stopsAt_of_handles_nil h)
  wrongKind handle _ hstop := absurd hstop (not_stopsAt_of_handles_nil h)

/-- A call that resolves one handle, and then fails in ways of its own only. -/
theorem reportsHandles_of_value {α : Type} {only : Address}
    (h : call.handles = [only]) (hkind : call.kind? = some kind)
    {f : kind.Carrier → Except Error α} (hf : ∀ a, NeverUnknown (f a)) :
    call.ReportsHandles m (m.value kind only >>= f) where
  unknown handle := by
    rw [bind_eq_unknownHandle_iff hf, LiveObjects.value_eq_unknownHandle_iff,
      stopsAt_iff_of_handles_singleton h, accepts_iff_refers hkind]
    constructor
    · rintro ⟨rfl, hmem⟩
      refine ⟨⟨rfl, ?_⟩, hmem⟩
      rintro ⟨object, hobject, -⟩
      exact hmem (Finmap.mem_of_lookup_eq_some hobject)
    · rintro ⟨⟨rfl, -⟩, hmem⟩
      exact ⟨rfl, hmem⟩
  wrongKind handle hmem hstop := by
    rw [stopsAt_iff_of_handles_singleton h, accepts_iff_refers hkind] at hstop
    obtain ⟨rfl, hno⟩ := hstop
    obtain ⟨object, hobject⟩ := Finmap.mem_iff.mp hmem
    have hwrong : object.kind ≠ kind := fun heq => hno ⟨object, hobject, heq⟩
    refine ⟨kind, hkind, ?_⟩
    rw [LiveObjects.value_of_wrongKind hobject hwrong]
    rfl

/-- A call that resolves several handles, and then fails in ways of its own
only. -/
theorem reportsHandles_of_mapM_value {α : Type}
    (hkind : call.kind? = some kind)
    {f : List kind.Carrier → Except Error α} (hf : ∀ as, NeverUnknown (f as)) :
    call.ReportsHandles m (call.handles.mapM (m.value kind) >>= f) where
  unknown handle := by
    rw [bind_eq_unknownHandle_iff hf, mapM_eq_error_iff, StopsAt]
    simp only [LiveObjects.exists_value_iff,
      LiveObjects.value_eq_unknownHandle_iff, accepts_iff_refers hkind]
    constructor
    · rintro ⟨before, x, after, heq, hbefore, rfl, hmem⟩
      refine ⟨⟨before, after, heq, hbefore, ?_⟩, hmem⟩
      rintro ⟨object, hobject, -⟩
      exact hmem (Finmap.mem_of_lookup_eq_some hobject)
    · rintro ⟨⟨before, after, heq, hbefore, -⟩, hmem⟩
      exact ⟨before, handle, after, heq, hbefore, rfl, hmem⟩
  wrongKind handle hmem hstop := by
    obtain ⟨before, after, heq, hbefore, hno⟩ := hstop
    simp only [accepts_iff_refers hkind] at hbefore hno
    obtain ⟨object, hobject⟩ := Finmap.mem_iff.mp hmem
    have hwrong : object.kind ≠ kind := fun h => hno ⟨object, hobject, h⟩
    have hfail : call.handles.mapM (m.value kind) =
        .error (.wrongKind handle kind.typeName) := by
      rw [mapM_eq_error_iff]
      refine ⟨before, handle, after, heq, ?_,
        LiveObjects.value_of_wrongKind hobject hwrong⟩
      intro earlier hearlier
      exact LiveObjects.exists_value_iff.mpr (hbefore earlier hearlier)
    refine ⟨kind, hkind, ?_⟩
    rw [hfail]
    rfl

/-- The effect of a call reports the handles that the call does not accept, and
no others. -/
theorem reportsHandles_effect (call : Call) (m : LiveObjects) :
    call.ReportsHandles m (call.effect m) := by
  cases call with
  | oneHotEncode column =>
      refine reportsHandles_of_value rfl rfl fun column => ?_
      exact (OneHot.neverUnknown_encode column).bind fun table =>
        neverUnknown_ok _
  | releaseObject handle =>
      have hstop : ∀ other, (releaseObject handle).StopsAt m other ↔
          other = handle ∧ handle ∉ m := by
        intro other
        rw [stopsAt_iff_of_handles_singleton rfl, accepts_iff_mem rfl]
      by_cases hmem : handle ∈ m
      · have hok : (releaseObject handle).effect m = .ok (.remove handle ()) :=
          if_pos hmem
        constructor
        · intro other
          simp [hok, hstop, hmem]
        · intro other _ h
          exact absurd hmem ((hstop other).mp h).2
      · have herror :
            (releaseObject handle).effect m = .error (.unknownHandle handle) :=
          if_neg hmem
        constructor
        · intro other
          rw [herror, hstop]
          constructor
          · intro h
            cases h
            exact ⟨⟨rfl, hmem⟩, hmem⟩
          · rintro ⟨⟨rfl, -⟩, -⟩
            rfl
        · intro other hother h
          exact absurd (((hstop other).mp h).1 ▸ hother) hmem
  | columnFromDoubles data name =>
      refine reportsHandles_of_handles_nil rfl ?_
      refine data.neverUnknown_read.bind fun values => ?_
      exact name.neverUnknown_readName.bind fun name => neverUnknown_ok _
  | columnFromStrings data name =>
      refine reportsHandles_of_handles_nil rfl ?_
      refine data.neverUnknown_read.bind fun arguments => ?_
      refine name.neverUnknown_readName.bind fun name => ?_
      exact (TextArgument.neverUnknown_readAll arguments).bind fun texts =>
        neverUnknown_ok _
  | tableFromColumns columns =>
      cases hread : columns.read with
      | error error =>
          refine reportsHandles_of_handles_nil (by simp [handles, hread]) ?_
          intro handle h
          rw [effect, hread] at h
          exact columns.neverUnknown_read handle (hread.trans (by cases h; rfl))
      | ok handles =>
          have hhandles : (tableFromColumns columns).handles = handles := by
            simp [Call.handles, hread]
          rw [effect, hread, ← hhandles]
          refine reportsHandles_of_mapM_value rfl fun columns => ?_
          exact (neverUnknown_tableOf columns).bind fun table =>
            neverUnknown_ok _
  | tableNumRows table =>
      exact reportsHandles_of_value rfl rfl fun table => neverUnknown_ok _
  | tableNumColumns table =>
      exact reportsHandles_of_value rfl rfl fun table => neverUnknown_ok _
  | tableColumnAt table index =>
      refine reportsHandles_of_value rfl rfl fun table => ?_
      exact (neverUnknown_columnAt table index).bind fun column =>
        neverUnknown_ok _
  | columnLength column =>
      exact reportsHandles_of_value rfl rfl fun column => neverUnknown_ok _
  | columnDoubleAt column index =>
      refine reportsHandles_of_value rfl rfl fun column => ?_
      exact (column.neverUnknown_doubleAt index).bind fun x => neverUnknown_ok _

end Call
end ColumnBridge
