import ColumnBridge.Proofs.Call.Assembly
import ColumnBridge.Proofs.Call.Reading
import ColumnBridge.Proofs.Call.Refinement
import ColumnBridge.Proofs.Matrix.RoundTrip

/-!
# The passage of doubles through handles

Doubles that are handed over can be read back through the handle of their
column, through that of a column taken out of a table which the first was put
into, and so on.  Two things make this work.  What is behind a handle never
changes until the handle is released, because the address of a live object is
not given out again.  And what is put into a table, or taken out of one, is the
column itself, so that neither the handles nor the table have to outlive the
others.
-/

namespace ColumnBridge

/-! ## Columns of doubles -/

namespace Column

variable (name : String) (values : List Binary64)

@[simp]
theorem length_ofDoubles : (ofDoubles name values).length = values.length := by
  rw [ofDoubles, length_ofSlots, List.length_map]

/-- The null slots are those of the NaNs. -/
theorem nullCount_ofDoubles :
    (ofDoubles name values).nullCount = values.countP Binary64.isNaN := by
  have hnull : Option.isNone ∘ Binary64.toSlot = Binary64.isNaN := by
    funext x
    rw [Function.comp, Binary64.toSlot]
    cases x.isNaN <;> rfl
  rw [← hnull, ← List.countP_map]
  exact congrArg (List.countP Option.isNone) (slots_ofSlots name .float64 _)

/-- Every double is read as it was, but for the bits of a NaN. -/
theorem doubleAt_ofDoubles {index : Nat} {x : Binary64}
    (h : values[index]? = some x) :
    (ofDoubles name values).doubleAt index = .ok x.canonical := by
  rw [doubleAt_eq_ok_iff, ofDoubles, cell?_ofSlots, List.getElem?_map, h]
  exact x.slotDouble?_toSlot

end Column

namespace Call

variable {settings : Settings} {allocate : Allocator} {s : Session}
  {handle : Address} {values : List Binary64}

/-! ## Calls on a column or a table that is registered -/

theorem perform_columnFromDoubles {data : Buffer Binary64}
    {argument : TextArgument} {name : String} (hdata : data.Passes values)
    (hname : argument.readName = .ok name) :
    (columnFromDoubles data argument).perform settings allocate s =
      (.ok (allocate s.registry.issued),
        (s.adopt settings allocate ⟨.column, .ofDoubles name values⟩).2) := by
  rw [perform_eq_enact, effect, hdata.read_eq, hname]
  rfl

theorem perform_columnLength {c : Column}
    (h : s.registry.lookup? handle = some ⟨.column, c⟩) :
    (columnLength handle).perform settings allocate s = (.ok c.length, s) := by
  rw [perform, program, Action.run_bind, Action.run_fetch,
    ← Registry.fetch_eq_value, Registry.fetch_eq_ok_iff.mpr h]
  rfl

/-- A column of a table is registered under a handle of its own. -/
theorem perform_tableColumnAt {t : Table} {index : Nat} {c : Column}
    (h : s.registry.lookup? handle = some ⟨.table, t⟩)
    (hc : t.columns[index]? = some c) :
    (tableColumnAt handle index).perform settings allocate s =
      (.ok (allocate s.registry.issued),
        (s.adopt settings allocate ⟨.column, c⟩).2) := by
  have hvalue : s.registry.contents.value .table handle = .ok t := by
    rw [← Registry.fetch_eq_value, Registry.fetch_eq_ok_iff.mpr h]
  rw [perform_eq_enact, effect, hvalue]
  dsimp only [bind, Except.bind]
  rw [columnAt, hc]
  rfl

/-! ## Calls that leave a handle alone -/

variable (settings allocate) in
/-- None of the calls releases the handle, and none hands out an object at the
address of a live one. -/
inductive Spare (handle : Address) : List Call → Session → Prop
  | nil (s : Session) : Spare handle [] s
  | cons {call : Call} {rest : List Call} {s : Session}
      (hcall : call ≠ .releaseObject handle)
      (hnew : ∀ value, (call.perform settings allocate s).1 = .ok value →
        ∀ new ∈ call.returnedHandle? value, new ∉ s.registry.contents)
      (hrest : Spare handle rest (call.perform settings allocate s).2) :
      Spare handle (call :: rest) s

/-- A call that does not release a handle leaves the object behind it. -/
theorem lookup?_perform {call : Call} {object : Object}
    (hlookup : s.registry.lookup? handle = some object)
    (hcall : call ≠ .releaseObject handle)
    (hnew : ∀ value, (call.perform settings allocate s).1 = .ok value →
      ∀ new ∈ call.returnedHandle? value, new ∉ s.registry.contents) :
    (call.perform settings allocate s).2.registry.lookup? handle =
      some object := by
  have hlive : handle ∈ s.registry.contents :=
    Finmap.mem_of_lookup_eq_some
      ((s.registry.lookup_contents handle).trans hlookup)
  have hreturns := call.returns_effect s.registry.contents
  rw [perform_eq_enact] at hnew ⊢
  rcases heffect : call.effect s.registry.contents with
    error | ⟨created, answer⟩ | ⟨released, answer⟩ | answer
  · exact hlookup
  · -- A new object could only displace this one by taking its address.
    rw [heffect] at hnew
    have hfresh : allocate s.registry.issued ∉ s.registry.contents :=
      hnew _ rfl _ (hreturns _ heffect _)
    have hne : handle ≠ allocate s.registry.issued := by
      rintro rfl
      exact hfresh hlive
    rw [Effect.enact,
      (Session.gains_adopt hfresh created).lookup_of_ne handle hne, hlookup]
  · obtain rfl := eq_releaseObject_of_effect heffect
    have hne : handle ≠ released := by
      rintro rfl
      exact hcall rfl
    rw [Effect.enact, ← Registry.lookup_contents,
      Session.contents_release settings (mem_of_effect_eq_remove heffect),
      Finmap.lookup_erase_ne hne, Registry.lookup_contents, hlookup]
  · exact hlookup

/-- An object stays behind its handle through all calls that leave the handle
alone. -/
theorem Spare.lookup? {calls : List Call} {object : Object}
    (h : Spare settings allocate handle calls s)
    (hlookup : s.registry.lookup? handle = some object) :
    (sessionAfter settings allocate calls s).registry.lookup? handle =
      some object := by
  induction h with
  | nil s => exact hlookup
  | cons hcall hnew hrest ih => exact ih (lookup?_perform hlookup hcall hnew)

/-! ## Doubles that are read back -/

variable (settings allocate) in
/-- The handle is that of a column from which the doubles can be read back: each
of them bit for bit, except that a NaN is counted as a null slot and may come
back with other bits. -/
structure ReadsBack (s : Session) (handle : Address) (values : List Binary64) :
    Prop where
  length : ((columnLength handle).perform settings allocate s).1 =
    .ok values.length
  nullCount : ∃ c, s.registry.lookup? handle = some ⟨.column, c⟩ ∧
    c.nullCount = values.countP Binary64.isNaN
  double : ∀ (index : Nat) (x : Binary64), values[index]? = some x →
    x.isNaN = false →
    ((columnDoubleAt handle index).perform settings allocate s).1 = .ok x
  nan : ∀ (index : Nat) (x : Binary64), values[index]? = some x →
    x.isNaN = true →
    ((columnDoubleAt handle index).perform settings allocate s).1 = .ok .nan
  outOfRange : ∀ index, values.length ≤ index → ∃ detail,
    ((columnDoubleAt handle index).perform settings allocate s).1 =
      .error (.shapeMismatch detail)

theorem readsBack_of_lookup? {name : String}
    (h : s.registry.lookup? handle = some ⟨.column, .ofDoubles name values⟩) :
    ReadsBack settings allocate s handle values where
  length := by rw [perform_columnLength h, Column.length_ofDoubles]
  nullCount := ⟨_, h, Column.nullCount_ofDoubles name values⟩
  double := by
    intro index x hx hnumber
    rw [perform_columnDoubleAt h, Column.doubleAt_ofDoubles name values hx,
      Binary64.canonical, hnumber]
    rfl
  nan := by
    intro index x hx hnan
    rw [perform_columnDoubleAt h, Column.doubleAt_ofDoubles name values hx,
      Binary64.canonical, hnan]
    rfl
  outOfRange := by
    intro index hindex
    rw [perform_columnDoubleAt h,
      Column.doubleAt_of_length_le (by simpa using hindex)]
    exact ⟨_, rfl⟩

/-- Doubles become a column under a handle through which they are read back for
as long as the handle is not released.  Every table that is made with this
handle has a column at its position from which they are read back too, and which
outlives both the handle and the table. -/
theorem columnFromDoubles_reads_back (settings : Settings)
    (allocate : Allocator) (s : Session) (data : Buffer Binary64)
    (values : List Binary64) (argument : TextArgument) (name : String)
    (hdata : data.Passes values) (hname : argument.readName = .ok name) :
    ∃ handle s₁,
      (columnFromDoubles data argument).perform settings allocate s =
        (.ok handle, s₁) ∧
      ∀ calls, Spare settings allocate handle calls s₁ →
        ReadsBack settings allocate (sessionAfter settings allocate calls s₁)
          handle values ∧
        ∀ (columns : Buffer Address) handles position table s₂,
          columns.Passes handles → handles[position]? = some handle →
          (tableFromColumns columns).perform settings allocate
            (sessionAfter settings allocate calls s₁) = (.ok table, s₂) →
          ∀ between, Spare settings allocate table between s₂ →
            ∃ copy s₃,
              (tableColumnAt table position).perform settings allocate
                (sessionAfter settings allocate between s₂) = (.ok copy, s₃) ∧
              ∀ later, Spare settings allocate copy later s₃ →
                ReadsBack settings allocate
                  (sessionAfter settings allocate later s₃) copy values := by
  refine ⟨_, _, perform_columnFromDoubles hdata hname, ?_⟩
  intro calls hcalls
  have hcolumn := hcalls.lookup? (Session.lookup?_adopt _ s)
  refine ⟨readsBack_of_lookup? hcolumn, ?_⟩
  intro columns handles position table s₂ hcolumns hposition htable
    between hbetween
  obtain ⟨t, ht⟩ :=
    exists_resolves_of_perform hcolumns (congrArg Prod.fst htable)
  rw [perform_tableFromColumns_of_resolves hcolumns ht] at htable
  cases htable
  have hmade := hbetween.lookup? (Session.lookup?_adopt _ _)
  obtain ⟨c, hc, hlookup⟩ := ht.exists_getElem? hposition
  obtain rfl : Column.ofDoubles name values = c := by
    have hobject := Option.some.inj (hcolumn.symm.trans hlookup)
    cases hobject
    rfl
  refine ⟨_, _, perform_tableColumnAt hmade hc, ?_⟩
  intro later hlater
  exact readsBack_of_lookup? (hlater.lookup? (Session.lookup?_adopt _ _))

/-- Negative zero, the least subnormal number, an infinity, and a NaN that this
library would not write. -/
def sampleDoubles : List Binary64 :=
  [⟨0x8000000000000000⟩, ⟨1⟩, ⟨0x7ff0000000000000⟩, ⟨0xfff8000000000001⟩]

/-- Calls that make a column of the doubles and a table of the column, release
the column, take it out of the table, and release the table. -/
def sampleRelay : List Call :=
  [.columnFromDoubles (.ofList sampleDoubles) ⟨some [120, 0]⟩,
    .tableFromColumns (.ofList [⟨16⟩]),
    .releaseObject ⟨16⟩,
    .tableColumnAt ⟨32⟩ 0,
    .releaseObject ⟨32⟩]

theorem columnFromDoubles_reads_back_sampleRelay :
    (Buffer.ofList sampleDoubles).Passes sampleDoubles ∧
      (TextArgument.mk (some [120, 0])).readName = .ok "x" ∧
      ReadsBack ⟨false, 4096⟩ HandleMap.sampleAllocator
        (sessionAfter ⟨false, 4096⟩ HandleMap.sampleAllocator
          sampleRelay .fresh) ⟨48⟩
        sampleDoubles := by
  have hdata := Buffer.passes_ofList sampleDoubles
  have hname : (TextArgument.mk (some [120, 0])).readName = .ok "x" := by decide
  refine ⟨hdata, hname, ?_⟩
  have hrelease (handle released : Address) (s : Session)
      (hne : released ≠ handle) :
      Spare ⟨false, 4096⟩ HandleMap.sampleAllocator handle
        [.releaseObject released] s := by
    refine .cons ?_ (fun _ _ _ => nofun) (.nil _)
    rintro ⟨⟩
    exact hne rfl
  obtain ⟨handle, s₁, hcolumn, hread⟩ := columnFromDoubles_reads_back
    ⟨false, 4096⟩ HandleMap.sampleAllocator .fresh _ _ _ _ hdata hname
  obtain rfl : ⟨16⟩ = handle := Except.ok.inj (congrArg Prod.fst hcolumn)
  obtain rfl := congrArg Prod.snd hcolumn
  obtain ⟨-, htables⟩ := hread [] (.nil _)
  have htable : ((tableFromColumns (.ofList [⟨16⟩])).perform ⟨false, 4096⟩
      HandleMap.sampleAllocator (sessionAfter ⟨false, 4096⟩
        HandleMap.sampleAllocator (sampleRelay.take 1) .fresh)).1 =
        .ok ⟨32⟩ := rfl
  obtain ⟨copy, s₃, hcopy, hlater⟩ :=
    htables _ [⟨16⟩] 0 ⟨32⟩ _ (Buffer.passes_ofList _) rfl (Prod.ext htable rfl)
      _ (hrelease ⟨32⟩ ⟨16⟩ _ (by decide))
  obtain rfl : ⟨48⟩ = copy := Except.ok.inj (congrArg Prod.fst hcopy)
  obtain rfl := congrArg Prod.snd hcopy
  exact hlater _ (hrelease ⟨48⟩ ⟨32⟩ _ (by decide))

end Call
end ColumnBridge
