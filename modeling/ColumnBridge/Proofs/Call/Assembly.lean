import ColumnBridge.Proofs.Call.Atomicity
import ColumnBridge.Proofs.Call.Resolution

/-!
# Tables of columns behind handles

A table is made of columns that were registered one by one, so there is much
that can be wrong with them.  The handles come first: no column is looked at
before all of them are resolved.  Then each column is compared with the first
one and with the names before it, and the first column that does not fit is
reported, for its length if that differs.

The comparison goes through the columns once and keeps the names it has passed.
Finding nothing, it has shown that any two columns are compatible, which is what
the table library asks for again when it makes the table.  The table library
therefore never refuses the columns itself.
-/

namespace ColumnBridge

/-- The buffer passes these items: it begins with them, and is null only if
there are none. -/
structure Buffer.Passes {α : Type} (buffer : Buffer α) (items : List α) :
    Prop where
  length_eq : buffer.length = items.length
  eq_nil_of_null : buffer.items = none → items = []
  isPrefix_of_some : ∀ stored, buffer.items = some stored → items <+: stored

theorem Buffer.Passes.read_eq {α : Type} {buffer : Buffer α} {items : List α}
    (h : buffer.Passes items) : buffer.read = .ok items := by
  rw [Buffer.read, h.length_eq]
  split
  next hlength => rw [List.eq_nil_of_length_eq_zero hlength]
  next hlength =>
    cases hstored : buffer.items with
    | none =>
        exact absurd (congrArg List.length (h.eq_nil_of_null hstored)) hlength
    | some stored =>
        have htake :=
          List.prefix_iff_eq_take.mp (h.isPrefix_of_some stored hstored)
        exact congrArg Except.ok htake.symm

/-- The buffer of exactly these items. -/
def Buffer.ofList {α : Type} (items : List α) : Buffer α :=
  ⟨some items, items.length⟩

theorem Buffer.passes_ofList {α : Type} (items : List α) :
    (ofList items).Passes items where
  length_eq := rfl
  eq_nil_of_null := nofun
  isPrefix_of_some := by
    rintro stored ⟨⟩
    exact List.prefix_rfl

namespace Call

variable {first c : Column} {seen : List String} {columns rest : List Column}
  {error : Error}

/-! ## Columns that do not fit -/

/-- The column at a position differs in length from the first one, or repeats
the name of a column before it. -/
def MisfitAt (columns : List Column) (position : Nat) : Prop :=
  ∃ first c, columns[0]? = some first ∧ columns[position]? = some c ∧
    (c.length ≠ first.length ∨ c.name ∈ (columns.take position).map Column.name)

/-- What is reported about a column that differs in length from the first one or
repeats a name: the length if both apply. -/
inductive Misfit (first : Column) (names : List String) (c : Column) :
    Error → Prop
  | height (hlength : c.length ≠ first.length) :
      Misfit first names c
        (.columnHeight c.name c.length first.name first.length)
  | name (hlength : c.length = first.length) (hname : c.name ∈ names) :
      Misfit first names c (.repeatedName c.name)

theorem Misfit.congr {names other : List String}
    (h : ∀ name, name ∈ names ↔ name ∈ other)
    (hmisfit : Misfit first names c error) : Misfit first other c error := by
  cases hmisfit with
  | height hlength => exact .height hlength
  | name hlength hname => exact .name hlength ((h _).mp hname)

/-- The columns before a position are the same for all columns and for those
before it. -/
theorem misfitAt_take_iff {position earlier : Nat} (h : earlier < position) :
    MisfitAt (columns.take position) earlier ↔ MisfitAt columns earlier := by
  have hpos : 0 < position := Nat.zero_lt_of_lt h
  rw [MisfitAt, MisfitAt, List.getElem?_take_of_lt hpos,
    List.getElem?_take_of_lt h, List.take_take,
    Nat.min_eq_left (Nat.le_of_lt h)]

/-- Any two columns are compatible exactly if each fits the first one and the
names before it. -/
theorem forall_not_misfitAt_iff :
    (∀ position, ¬ MisfitAt columns position) ↔
      columns.Pairwise Column.Compatible := by
  rw [List.pairwise_iff_getElem]
  constructor
  · intro hfits i j hi hj hij
    have hfit (k : Nat) (hk : k < columns.length) :
        columns[k].length = columns[0].length ∧
        columns[k].name ∉ (columns.take k).map Column.name := by
      have hno := hfits k
      rw [MisfitAt] at hno
      push Not at hno
      exact hno _ _ (List.getElem?_eq_getElem _) (List.getElem?_eq_getElem hk)
    constructor
    · intro hname
      refine (hfit j hj).2 (List.mem_map.mpr ⟨columns[i], ?_, hname.symm⟩)
      exact List.mem_take_iff_getElem.mpr ⟨i, by omega, rfl⟩
    · rw [(hfit j hj).1, (hfit i hi).1]
  · rintro hcompatible position ⟨first, c, hfirst, hc, hmisfit⟩
    obtain ⟨hzero, rfl⟩ := List.getElem?_eq_some_iff.mp hfirst
    obtain ⟨hposition, rfl⟩ := List.getElem?_eq_some_iff.mp hc
    rcases hmisfit with hlength | hname
    · have hpos : 0 < position := by
        by_contra hno
        obtain rfl : position = 0 := by omega
        exact hlength rfl
      exact hlength (hcompatible 0 position hzero hposition hpos).2
    · obtain ⟨earlier, hearlier, heq⟩ := List.mem_map.mp hname
      obtain ⟨i, hi, rfl⟩ := List.mem_take_iff_getElem.mp hearlier
      exact (hcompatible i position (by omega) hposition (by omega)).1 heq.symm

/-- No column fails to fit before a position exactly if those before it are
compatible. -/
theorem forall_lt_not_misfitAt_iff {position : Nat} :
    (∀ earlier < position, ¬ MisfitAt columns earlier) ↔
      (columns.take position).Pairwise Column.Compatible := by
  rw [← forall_not_misfitAt_iff]
  constructor
  · intro h earlier hmisfit
    have hearlier : earlier < position := by
      obtain ⟨_, _, _, hsome, _⟩ := hmisfit
      have hbound := (List.getElem?_eq_some_iff.mp hsome).1
      rw [List.length_take] at hbound
      omega
    exact h earlier hearlier ((misfitAt_take_iff hearlier).mp hmisfit)
  · intro h earlier hearlier hmisfit
    exact h earlier ((misfitAt_take_iff hearlier).mpr hmisfit)

/-! ## The search for a column that does not fit -/

/-- The search is that of the table library, with other words for what it
finds. -/
theorem misfitFrom?_eq_none_iff :
    misfitFrom? first seen rest = none ↔
      Table.scanDefect? first seen rest = none := by
  induction rest generalizing seen with
  | nil => exact iff_of_true rfl rfl
  | cons c rest ih =>
      rw [misfitFrom?, Table.scanDefect?]
      by_cases hlength : c.length = first.length
      · by_cases hname : c.name ∈ seen
        · simp [hlength, hname]
        · simp [hlength, hname, ih]
      · simp [hlength]

/-- Nothing is found exactly if any two columns are compatible. -/
theorem misfit?_eq_none_iff :
    misfit? columns = none ↔ columns.Pairwise Column.Compatible := by
  cases columns with
  | nil => simp [misfit?]
  | cons first rest =>
      rw [misfit?, misfitFrom?_eq_none_iff, Table.scanDefect?_eq_none_iff,
        List.pairwise_cons]
      simp only [List.mem_singleton, Column.Compatible]
      grind

/-- A search goes on behind columns in which it found nothing, with their
names. -/
theorem misfitFrom?_append (before : List Column) :
    misfitFrom? first seen (before ++ rest) =
      (misfitFrom? first seen before).or
        (misfitFrom? first (before.reverse.map Column.name ++ seen) rest) := by
  induction before generalizing seen with
  | nil => rfl
  | cons c before ih =>
      rw [List.cons_append, misfitFrom?, misfitFrom?, ih, List.reverse_cons,
        List.map_append, List.append_assoc]
      split
      · rfl
      · split <;> rfl

/-- A search ends at the first column that does not fit. -/
theorem misfitFrom?_eq_some_iff :
    misfitFrom? first seen rest = some error ↔
      ∃ before c after, rest = before ++ c :: after ∧
        misfitFrom? first seen before = none ∧
        Misfit first (before.reverse.map Column.name ++ seen) c error := by
  constructor
  · intro h
    induction rest generalizing seen with
    | nil => cases h
    | cons c rest ih =>
        rw [misfitFrom?] at h
        split at h
        next hlength =>
          cases h
          exact ⟨[], c, rest, rfl, rfl, .height hlength⟩
        next hlength =>
          split at h
          next hname =>
            cases h
            exact ⟨[], c, rest, rfl, rfl, .name (not_not.mp hlength) hname⟩
          next hname =>
            obtain ⟨before, found, after, rfl, hbefore, hfound⟩ := ih h
            refine ⟨c :: before, found, after, rfl, ?_, ?_⟩
            · rw [misfitFrom?, if_neg hlength, if_neg hname, hbefore]
            · rwa [List.reverse_cons, List.map_append, List.append_assoc]
  · rintro ⟨before, c, after, rfl, hbefore, hmisfit⟩
    rw [misfitFrom?_append, hbefore, Option.none_or, misfitFrom?]
    cases hmisfit with
    | height hlength => rw [if_pos hlength]
    | name hlength hname => rw [if_neg (not_not_intro hlength), if_pos hname]

/-- The column that is reported is the one at the least position at which a
column does not fit. -/
theorem misfit?_eq_some_iff :
    misfit? columns = some error ↔
      ∃ first c position, columns[0]? = some first ∧
        columns[position]? = some c ∧
        1 ≤ position ∧ (∀ earlier < position, ¬ MisfitAt columns earlier) ∧
        Misfit first ((columns.take position).map Column.name) c error := by
  have hnames (first : Column) (before : List Column) (name : String) :
      name ∈ before.reverse.map Column.name ++ [first.name] ↔
        name ∈ (first :: before).map Column.name := by
    simp [or_comm]
  constructor
  · intro h
    cases columns with
    | nil => cases h
    | cons first rest =>
        obtain ⟨before, c, after, rfl, hbefore, hmisfit⟩ :=
          misfitFrom?_eq_some_iff.mp h
        have htake :
            (first :: (before ++ c :: after)).take (before.length + 1) =
            first :: before := by
          rw [List.take_succ_cons, List.take_left]
        have hcompatible : (first :: before).Pairwise Column.Compatible :=
          misfit?_eq_none_iff.mp hbefore
        refine ⟨first, c, before.length + 1,
          rfl, by simp, Nat.succ_pos _, ?_, ?_⟩
        · rwa [forall_lt_not_misfitAt_iff, htake]
        · rw [htake]
          exact hmisfit.congr (hnames first before)
  · rintro ⟨first, c, position, hfirst, hc, hposition, hleast, hmisfit⟩
    cases columns with
    | nil => cases hfirst
    | cons head rest =>
        cases hfirst
        obtain ⟨count, rfl⟩ : ∃ count, position = count + 1 :=
          ⟨position - 1, by omega⟩
        rw [List.getElem?_cons_succ] at hc
        obtain ⟨hcount, hcount_eq⟩ := List.getElem?_eq_some_iff.mp hc
        rw [forall_lt_not_misfitAt_iff, List.take_succ_cons] at hleast
        rw [List.take_succ_cons] at hmisfit
        refine misfitFrom?_eq_some_iff.mpr ⟨rest.take count, c,
          rest.drop (count + 1), ?_, misfit?_eq_none_iff.mpr hleast, ?_⟩
        · rw [← hcount_eq, ← List.drop_eq_getElem_cons hcount,
            List.take_append_drop]
        · exact hmisfit.congr fun name => (hnames first _ name).symm

/-! ## Tables of columns that fit -/

/-- Columns in which no misfit is found form a table, and no other columns
do. -/
theorem tableOf_eq_ok_iff {t : Table} :
    tableOf columns = .ok t ↔ t.columns = columns := by
  rw [tableOf]
  constructor
  · intro h
    split at h
    · cases h
    · exact Table.ofColumns_eq_ok_iff.mp h
  · rintro rfl
    rw [misfit?_eq_none_iff.mpr t.compatible]
    exact Table.ofColumns_eq_ok_iff.mpr rfl

/-- The table library refuses no columns that get as far as it. -/
theorem exists_ofColumns_of_misfit? (h : misfit? columns = none) :
    ∃ t, Table.ofColumns columns = .ok t :=
  ⟨_, Table.ofColumns_of_compatible (misfit?_eq_none_iff.mp h)⟩

theorem tableOf_eq_error_iff :
    tableOf columns = .error error ↔ misfit? columns = some error := by
  rw [tableOf]
  cases hmisfit : misfit? columns with
  | none =>
      obtain ⟨t, ht⟩ := exists_ofColumns_of_misfit? hmisfit
      simp [ht]
  | some found => simp

end Call

/-- Any two of the columns are compatible exactly if all have one length and no
name is repeated. -/
theorem pairwise_compatible_iff {columns : List Column} :
    columns.Pairwise Column.Compatible ↔
      (∀ a ∈ columns, ∀ b ∈ columns, a.length = b.length) ∧
        (columns.map Column.name).Nodup := by
  rw [List.Nodup, List.pairwise_map]
  constructor
  · intro hcompatible
    have hlengths : (columns.map Column.length).Pairwise (· = ·) :=
      List.pairwise_map.mpr (hcompatible.imp fun h => h.2.symm)
    refine ⟨?_, hcompatible.imp fun h => h.1.symm⟩
    intro a ha b hb
    exact hlengths.forall_of_forall (fun _ _ => rfl) (List.mem_map_of_mem ha)
      (List.mem_map_of_mem hb)
  · rintro ⟨hlengths, hnames⟩
    exact hnames.imp_of_mem fun ha hb hne => ⟨hne.symm, hlengths _ hb _ ha⟩

/-! ## Columns behind handles -/

namespace Registry

variable {r : Registry} {handles : List Address} {columns : List Column}

/-- The handles are registered for these columns, one by one. -/
def Resolves (r : Registry) (handles : List Address) (columns : List Column) :
    Prop :=
  List.Forall₂ (fun handle column => r.lookup? handle = some ⟨.column, column⟩)
    handles columns

/-- The handle at a position is registered for the column at that position. -/
theorem Resolves.exists_getElem? (h : r.Resolves handles columns)
    {position : Nat} {handle : Address}
    (hhandle : handles[position]? = some handle) :
    ∃ c, columns[position]? = some c ∧
      r.lookup? handle = some ⟨.column, c⟩ := by
  obtain ⟨hposition, rfl⟩ := List.getElem?_eq_some_iff.mp hhandle
  have hcolumn : position < columns.length :=
    List.Forall₂.length_eq h ▸ hposition
  exact ⟨_, List.getElem?_eq_getElem hcolumn,
    List.Forall₂.get h hposition hcolumn⟩

theorem column_eq_ok_iff {handle : Address} {c : Column} :
    r.contents.value .column handle = .ok c ↔
      r.lookup? handle = some ⟨.column, c⟩ := by
  rw [← fetch_eq_value]
  exact fetch_eq_ok_iff

theorem column_eq_error_iff {handle : Address} {error : Error} :
    r.contents.value .column handle = .error error ↔
      (r.lookup? handle = none ∧ error = .unknownHandle handle) ∨
        ∃ object, r.lookup? handle = some object ∧ object.kind ≠ .column ∧
          error = .wrongKind handle Kind.column.typeName := by
  rw [← fetch_eq_value]
  cases hlookup : r.lookup? handle with
  | none => simp [fetch_of_none hlookup, eq_comm]
  | some object =>
      by_cases hkind : object.kind = .column
      · obtain ⟨found, value⟩ := object
        obtain rfl : found = .column := hkind
        simp [fetch_eq_ok_iff.mpr hlookup]
      · rw [fetch_of_wrongKind hlookup hkind]
        simp [hkind, @eq_comm _ error]

theorem mapM_value_eq_ok_iff :
    handles.mapM (r.contents.value .column) = .ok columns ↔
      r.Resolves handles columns := by
  refine mapM_eq_ok_iff.trans ?_
  constructor
  · exact fun h => h.imp fun _ _ => column_eq_ok_iff.mp
  · exact fun h => h.imp fun _ _ => column_eq_ok_iff.mpr

/-- The only difference between two registries is a further entry. -/
structure Gains (r r' : Registry) (handle : Address) (object : Object) :
    Prop where
  notMem : handle ∉ r.contents
  lookup_self : r'.lookup? handle = some object
  lookup_of_ne : ∀ other, other ≠ handle → r'.lookup? other = r.lookup? other
  size_eq : r'.size = r.size + 1

/-- Handles that were registered for columns still are. -/
theorem Gains.resolves {r' : Registry} {handle : Address} {object : Object}
    (h : r.Gains r' handle object) (hcolumns : r.Resolves handles columns) :
    r'.Resolves handles columns := by
  refine hcolumns.imp fun other column hother => ?_
  rw [h.lookup_of_ne, hother]
  rintro rfl
  exact h.notMem
    (Finmap.mem_of_lookup_eq_some ((r.lookup_contents other).trans hother))

end Registry

theorem Session.lookup?_adopt {settings : Settings} {allocate : Allocator}
    (object : Object) (s : Session) :
    (s.adopt settings allocate object).2.registry.lookup?
      (allocate s.registry.issued) =
      some object := by
  rw [← Registry.lookup_contents, contents_adopt, Finmap.lookup_insert]

theorem Session.gains_adopt {settings : Settings} {allocate : Allocator}
    {s : Session} (hfresh : allocate s.registry.issued ∉ s.registry.contents)
    (object : Object) :
    s.registry.Gains (s.adopt settings allocate object).2.registry
      (allocate s.registry.issued) object where
  notMem := hfresh
  lookup_self := lookup?_adopt object s
  lookup_of_ne := by
    intro other hne
    rw [← Registry.lookup_contents, contents_adopt,
      Finmap.lookup_insert_of_ne _ hne, Registry.lookup_contents]
  size_eq := size_adopt settings allocate object hfresh

namespace Call

variable {settings : Settings} {allocate : Allocator} {s : Session}
  {data : Buffer Address} {handles : List Address}

/-- Why there is no table of the columns behind handles: the first handle that
is not registered for a column, and only if there is none, the first column that
does not fit. -/
inductive Refusal (r : Registry) (handles : List Address) : Error → Prop
  | unknown {before after : List Address} {handle : Address}
      (hsplit : handles = before ++ handle :: after)
      (hbefore : ∀ earlier ∈ before, ∃ c, r.lookup? earlier = some ⟨.column, c⟩)
      (hhandle : r.lookup? handle = none) :
      Refusal r handles (.unknownHandle handle)
  | wrongKind {before after : List Address} {handle : Address} {object : Object}
      (hsplit : handles = before ++ handle :: after)
      (hbefore : ∀ earlier ∈ before, ∃ c, r.lookup? earlier = some ⟨.column, c⟩)
      (hhandle : r.lookup? handle = some object)
      (hkind : object.kind ≠ .column) :
      Refusal r handles (.wrongKind handle Kind.column.typeName)
  | misfit {columns : List Column} {first c : Column} {position : Nat}
      {error : Error}
      (hcolumns : r.Resolves handles columns)
      (hfirst : columns[0]? = some first) (hc : columns[position]? = some c)
      (hposition : 1 ≤ position)
      (hleast : ∀ earlier < position, ¬ MisfitAt columns earlier)
      (herror : Misfit first ((columns.take position).map Column.name)
        c error) :
      Refusal r handles error

/-- The table library has no part in refusing columns. -/
theorem Refusal.ne_table {r : Registry} {error : Error}
    (h : Refusal r handles error) (fault : TableFault) (detail : String) :
    error ≠ .table fault detail := by
  cases h with
  | unknown | wrongKind => exact nofun
  | misfit _ _ _ _ _ herror =>
      cases herror with
      | height | name => exact nofun

/-- Resolving the handles fails at the first that is not registered for a
column. -/
theorem mapM_value_eq_error_iff {r : Registry} {error : Error} :
    handles.mapM (r.contents.value .column) = .error error ↔
      ∃ before handle after, handles = before ++ handle :: after ∧
        (∀ earlier ∈ before, ∃ c, r.lookup? earlier = some ⟨.column, c⟩) ∧
        ((r.lookup? handle = none ∧ error = .unknownHandle handle) ∨
          ∃ object, r.lookup? handle = some object ∧ object.kind ≠ .column ∧
            error = .wrongKind handle Kind.column.typeName) := by
  refine mapM_eq_error_iff.trans ?_
  constructor
  · rintro ⟨before, handle, after, hsplit, hbefore, hhandle⟩
    refine ⟨before, handle, after, hsplit, ?_,
      Registry.column_eq_error_iff.mp hhandle⟩
    intro earlier hearlier
    obtain ⟨c, hc⟩ := hbefore earlier hearlier
    exact ⟨c, Registry.column_eq_ok_iff.mp hc⟩
  · rintro ⟨before, handle, after, hsplit, hbefore, hhandle⟩
    refine ⟨before, handle, after, hsplit, ?_,
      Registry.column_eq_error_iff.mpr hhandle⟩
    intro earlier hearlier
    obtain ⟨c, hc⟩ := hbefore earlier hearlier
    exact ⟨c, Registry.column_eq_ok_iff.mpr hc⟩

/-- The columns behind the handles are refused for the first handle or the first
column that is wrong. -/
theorem refusal_iff {r : Registry} {error : Error} :
    (handles.mapM (r.contents.value .column) >>= tableOf) = .error error ↔
      Refusal r handles error := by
  refine bind_eq_error_iff.trans ?_
  rw [mapM_value_eq_error_iff]
  constructor
  · rintro (⟨before, handle, after, hsplit, hbefore, hhandle⟩ |
      ⟨columns, hcolumns, hmisfit⟩)
    · rcases hhandle with ⟨hhandle, rfl⟩ | ⟨object, hhandle, hkind, rfl⟩
      · exact .unknown hsplit hbefore hhandle
      · exact .wrongKind hsplit hbefore hhandle hkind
    · obtain ⟨first, c, position, hfirst, hc, hposition, hleast, herror⟩ :=
        misfit?_eq_some_iff.mp (tableOf_eq_error_iff.mp hmisfit)
      exact .misfit (Registry.mapM_value_eq_ok_iff.mp hcolumns) hfirst hc
        hposition hleast herror
  · intro h
    cases h with
    | unknown hsplit hbefore hhandle =>
        exact Or.inl ⟨_, _, _, hsplit, hbefore, Or.inl ⟨hhandle, rfl⟩⟩
    | wrongKind hsplit hbefore hhandle hkind =>
        exact Or.inl ⟨_, _, _, hsplit, hbefore, Or.inr ⟨_, hhandle, hkind, rfl⟩⟩
    | misfit hcolumns hfirst hc hposition hleast herror =>
        refine Or.inr ⟨_, Registry.mapM_value_eq_ok_iff.mpr hcolumns, ?_⟩
        rw [tableOf_eq_error_iff, misfit?_eq_some_iff]
        exact ⟨_, _, _, hfirst, hc, hposition, hleast, herror⟩

/-- The call resolves the handles, makes the table and adopts it. -/
theorem perform_tableFromColumns (hdata : data.Passes handles) :
    (tableFromColumns data).perform settings allocate s =
      match handles.mapM (s.registry.contents.value .column) >>= tableOf with
      | .ok table =>
        (.ok (allocate s.registry.issued),
          (s.adopt settings allocate ⟨.table, table⟩).2)
      | .error error => (.error error, s) := by
  rw [perform_eq_enact, effect, hdata.read_eq]
  dsimp only [bind, Except.bind]
  cases handles.mapM (s.registry.contents.value .column) with
  | error error => rfl
  | ok columns =>
      dsimp only
      cases tableOf columns <;> rfl

/-- There is a table of the columns behind the handles exactly if it consists of
these columns. -/
theorem formed_iff {r : Registry} {table : Table} :
    (handles.mapM (r.contents.value .column) >>= tableOf) = .ok table ↔
      r.Resolves handles table.columns := by
  rw [← Registry.mapM_value_eq_ok_iff]
  cases handles.mapM (r.contents.value .column) with
  | error error => simp [bind, Except.bind]
  | ok columns =>
      rw [Except.ok.injEq, @eq_comm _ columns]
      exact tableOf_eq_ok_iff

theorem perform_tableFromColumns_of_resolves (hdata : data.Passes handles)
    {table : Table} (h : s.registry.Resolves handles table.columns) :
    (tableFromColumns data).perform settings allocate s =
      (.ok (allocate s.registry.issued),
        (s.adopt settings allocate ⟨.table, table⟩).2) := by
  rw [perform_tableFromColumns hdata, formed_iff.mpr h]

theorem exists_resolves_of_perform (hdata : data.Passes handles)
    {handle : Address}
    (h : ((tableFromColumns data).perform settings allocate s).1 = .ok handle) :
    ∃ table : Table, s.registry.Resolves handles table.columns := by
  rw [perform_tableFromColumns hdata] at h
  cases houtcome :
      handles.mapM (s.registry.contents.value .column) >>= tableOf with
  | ok table => exact ⟨table, formed_iff.mp houtcome⟩
  | error error =>
      rw [houtcome] at h
      cases h

/-- A table is made of columns behind handles exactly if each handle is
registered for a column, all the columns have one length and no name is
repeated.  Only the table is adopted then, and the columns stay registered.
Otherwise nothing changes, and the answer is the first handle that is not
registered for a column, or else the first column that does not fit; it is never
an error of the table library, whose own checks find nothing that was not found
before.  As long as an object is registered, the allocator gives its address to
no other. -/
theorem tableFromColumns_adopts_or_refuses (settings : Settings)
    (allocate : Allocator) (s : Session) (data : Buffer Address)
    (handles : List Address) (hdata : data.Passes handles) :
    ((∃ handle, ((tableFromColumns data).perform settings allocate s).1 =
      .ok handle) ↔
      ∃ columns, s.registry.Resolves handles columns ∧
        (∀ a ∈ columns, ∀ b ∈ columns, a.length = b.length) ∧
        (columns.map Column.name).Nodup) ∧
    (allocate s.registry.issued ∉ s.registry.contents →
      ∀ handle, ((tableFromColumns data).perform settings allocate s).1 =
        .ok handle →
        ∃ table, s.registry.Resolves handles table.columns ∧
          s.registry.Gains ((tableFromColumns data).perform settings
            allocate s).2.registry handle ⟨.table, table⟩ ∧
          ((tableFromColumns data).perform settings
            allocate s).2.registry.Resolves handles table.columns) ∧
    (∀ error, ((tableFromColumns data).perform settings allocate s).1 =
      .error error ↔
      Refusal s.registry handles error) ∧
    (∀ error, ((tableFromColumns data).perform settings allocate s).1 =
      .error error →
      ((tableFromColumns data).perform settings allocate s).2 = s ∧
      ∀ fault detail, error ≠ .table fault detail) ∧
    (∀ columns, misfit? columns = none →
      ∃ table, Table.ofColumns columns = .ok table) := by
  have hrefused (error : Error) :
      ((tableFromColumns data).perform settings allocate s).1 = .error error ↔
        Refusal s.registry handles error := by
    rw [perform_tableFromColumns hdata, ← refusal_iff]
    cases handles.mapM (s.registry.contents.value .column) >>= tableOf <;> simp
  refine ⟨?_, ?_, hrefused, ?_, fun _ => exists_ofColumns_of_misfit?⟩
  · constructor
    · rintro ⟨handle, hhandle⟩
      obtain ⟨table, htable⟩ := exists_resolves_of_perform hdata hhandle
      exact ⟨table.columns, htable, pairwise_compatible_iff.mp table.compatible⟩
    · rintro ⟨columns, hcolumns, hcompatible⟩
      have htable : s.registry.Resolves handles
          (Table.mk columns
            (pairwise_compatible_iff.mpr hcompatible)).columns := hcolumns
      exact ⟨_, congrArg Prod.fst
        (perform_tableFromColumns_of_resolves hdata htable)⟩
  · intro hfresh handle hhandle
    obtain ⟨table, htable⟩ := exists_resolves_of_perform hdata hhandle
    rw [perform_tableFromColumns_of_resolves hdata htable] at hhandle ⊢
    cases hhandle
    have hgains :
        s.registry.Gains (s.adopt settings allocate ⟨.table, table⟩).2.registry
          (allocate s.registry.issued) ⟨.table, table⟩ :=
      Session.gains_adopt hfresh ⟨.table, table⟩
    exact ⟨table, htable, hgains, hgains.resolves htable⟩
  · intro error herror
    exact ⟨perform_of_error herror, ((hrefused error).mp herror).ne_table⟩

/-- A column of two slots. -/
def sampleWidth : Column := .ofSlots "width" .float64 [some .one, none]

/-- Another column of two slots. -/
def sampleCount : Column := .ofSlots "count" .int64 [none, some 3]

/-- A shorter column that repeats the name of the first. -/
def sampleLabel : Column := .ofSlots "width" .string [some "wide"]

/-- The three columns and a table behind handles. -/
def sampleShelf : Session where
  registry :=
    { entries :=
        [(⟨16⟩, ⟨.column, sampleWidth⟩), (⟨32⟩, ⟨.column, sampleCount⟩),
          (⟨48⟩, ⟨.column, sampleLabel⟩),
            (⟨64⟩, ⟨.table, ⟨[], List.Pairwise.nil⟩⟩)]
      issued := 4
      distinct := by decide }
  log := []

/-- Makes a table of columns of the shelf. -/
def madeOfShelf (handles : List Address) : Except Error Address × Session :=
  (tableFromColumns (.ofList handles)).perform ⟨false, 4096⟩
    (fun _ => ⟨80⟩) sampleShelf

theorem tableFromColumns_sampleShelf :
    (∀ handles : List Address, (Buffer.ofList handles).Passes handles) ∧
      ⟨80⟩ ∉ sampleShelf.registry.contents ∧
      (∃ handle, (madeOfShelf [⟨16⟩, ⟨32⟩]).1 = .ok handle ∧
      ∃ table : Table, table.columns = [sampleWidth, sampleCount] ∧
        sampleShelf.registry.Gains (madeOfShelf [⟨16⟩, ⟨32⟩]).2.registry handle
          ⟨.table, table⟩) ∧
      (madeOfShelf [⟨32⟩, ⟨16⟩, ⟨48⟩]).1 =
        .error (.columnHeight "width" 1 "count" 2) ∧
      (madeOfShelf [⟨16⟩, ⟨48⟩, ⟨64⟩]).1 =
        .error (.wrongKind ⟨64⟩ Kind.column.typeName) := by
  have hshelf (handles : List Address) :=
    tableFromColumns_adopts_or_refuses ⟨false, 4096⟩ (fun _ => ⟨80⟩) sampleShelf
      _ handles (Buffer.passes_ofList handles)
  have hfresh : ⟨80⟩ ∉ sampleShelf.registry.contents := by
    rw [Registry.mem_contents]
    decide
  refine ⟨Buffer.passes_ofList, hfresh, ?_, ?_, ?_⟩
  · obtain ⟨hmade, hadopted, -⟩ := hshelf [⟨16⟩, ⟨32⟩]
    have hcolumns :
        sampleShelf.registry.Resolves [⟨16⟩, ⟨32⟩] [sampleWidth, sampleCount] :=
      .cons rfl (.cons rfl .nil)
    have hcompatible : [sampleWidth, sampleCount].Pairwise Column.Compatible :=
      (Table.defect?_eq_none_iff _).mp (by decide)
    obtain ⟨handle, hhandle⟩ :=
      hmade.mpr ⟨_, hcolumns, pairwise_compatible_iff.mp hcompatible⟩
    obtain ⟨table, htable, hgains, -⟩ := hadopted hfresh handle hhandle
    refine ⟨handle, hhandle, table, ?_, hgains⟩
    rw [← Registry.mapM_value_eq_ok_iff] at htable hcolumns
    exact Except.ok.inj (htable.symm.trans hcolumns)
  · obtain ⟨-, -, hrefused, -⟩ := hshelf [⟨32⟩, ⟨16⟩, ⟨48⟩]
    have hcolumns : sampleShelf.registry.Resolves [⟨32⟩, ⟨16⟩, ⟨48⟩]
        [sampleCount, sampleWidth, sampleLabel] :=
      .cons rfl (.cons rfl (.cons rfl .nil))
    have hleast : ∀ earlier < 2,
        ¬ MisfitAt [sampleCount, sampleWidth, sampleLabel] earlier :=
      forall_lt_not_misfitAt_iff.mpr
        ((Table.defect?_eq_none_iff _).mp (by decide))
    have hlast :
        [sampleCount, sampleWidth, sampleLabel][2]? = some sampleLabel := rfl
    exact (hrefused _).mpr
      (.misfit hcolumns rfl hlast (by decide) hleast (.height (by decide)))
  · obtain ⟨-, -, hrefused, -⟩ := hshelf [⟨16⟩, ⟨48⟩, ⟨64⟩]
    have hbefore : ∀ earlier ∈ ([⟨16⟩, ⟨48⟩] : List Address),
        ∃ c, sampleShelf.registry.lookup? earlier = some ⟨.column, c⟩ := by
      intro earlier hearlier
      fin_cases hearlier
      · exact ⟨sampleWidth, rfl⟩
      · exact ⟨sampleLabel, rfl⟩
    have hsplit :
        ([⟨16⟩, ⟨48⟩, ⟨64⟩] : List Address) = [⟨16⟩, ⟨48⟩] ++ ⟨64⟩ :: [] := rfl
    have hhandle : sampleShelf.registry.lookup? ⟨64⟩ =
        some ⟨.table, ⟨[], List.Pairwise.nil⟩⟩ :=
      rfl
    exact (hrefused _).mpr (.wrongKind hsplit hbefore hhandle nofun)

end Call
end ColumnBridge
