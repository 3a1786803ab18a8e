import ColumnBridge.Proofs.Column.Chunking
import ColumnBridge.Proofs.Matrix.FirstMisfit

/-!
# Matrices one below the other

The writer of a matrix keeps its row counter from one chunk of a column to the
next.  The matrix of the column therefore consists of the matrices of its
chunks, one below the other: a row is counted through these as a slot is counted
through the chunks.

A chunk has a matrix exactly if it can be written, and a column can be written
exactly if all its chunks can be.  The first chunk that cannot be written has
the error that the column is reported with.
-/

namespace ColumnBridge

/-! ## Stacks of matrices -/

namespace DenseMatrix

/-- The value of a cell of matrices one below the other, the rows being counted
through. -/
def stackedGet? : List DenseMatrix → (row col : Nat) → Option Binary64
  | [], _, _ => none
  | part :: parts, row, col =>
    if row < part.rows then
      part.get? row col
    else stackedGet? parts (row - part.rows) col

/-- The matrix consists of the given ones, one below the other. -/
structure IsStackOf (m : DenseMatrix) (parts : List DenseMatrix) : Prop where
  rows_eq : m.rows = (parts.map DenseMatrix.rows).sum
  cols_eq : ∀ part ∈ parts, part.cols = m.cols
  get?_eq : ∀ row col, m.get? row col = stackedGet? parts row col

variable {m : DenseMatrix} {c : Column} {parts : List DenseMatrix}
  {error : Error}

theorem ofColumn_eq_ok_iff :
    ofColumn c = .ok m ↔
      c.length < 2 ^ 60 ∧ c.IsWritable ∧ m.Holds c.length [c] := by
  rw [ofColumn_eq_ofColumns, ofColumns_eq_ok_iff, List.length_singleton,
    Nat.mul_one]
  simp [Column.FitsMatrix]

/-! ## The chunks of a column -/

/-- The doubles of a column are those of its first chunk, and behind them those
of the others. -/
theorem cell?_cons (name : String) (dtype : DType)
    (chunk : Chunk (Option dtype.Value)) (chunks : Chunks (Option dtype.Value))
    (row : Nat) : (Column.mk name dtype (chunk :: chunks)).cell? row =
      if row < chunk.size then (Column.mk name dtype [chunk]).cell? row
      else (Column.mk name dtype chunks).cell? (row - chunk.size) := by
  simp only [Column.cell?, Column.slots, Chunks.toList, List.append_nil,
    List.getElem?_append, Chunk.length_toList]
  split <;> rfl

/-- The matrices of the chunks have the rows and the cells of the column. -/
theorem stacked_of_chunkColumns
    (hparts : List.Forall₂ (fun part m => ofColumn part = .ok m)
      c.chunkColumns parts) :
    (parts.map DenseMatrix.rows).sum = c.length ∧
      (∀ part ∈ parts, part.cols = 1) ∧
      ∀ row col, stackedGet? parts row col = [c][col]?.bind (·.cell? row) := by
  obtain ⟨name, dtype, chunks⟩ := c
  induction chunks generalizing parts with
  | nil =>
      cases hparts
      refine ⟨rfl, by simp, fun row col => ?_⟩
      cases col <;> rfl
  | cons chunk chunks ih =>
      obtain ⟨part, parts, hpart, hrest, rfl⟩ :=
        List.forall₂_cons_left_iff.mp hparts
      obtain ⟨-, -, hholds⟩ := ofColumn_eq_ok_iff.mp hpart
      obtain ⟨hrows, hcols, hcells⟩ := ih hrest
      refine ⟨?_, ?_, fun row col => ?_⟩
      · rw [List.map_cons, List.sum_cons, hrows, hholds.rows_eq]
        rfl
      · rw [List.forall_mem_cons]
        exact ⟨hholds.cols_eq, hcols⟩
      · rw [stackedGet?, hcells, hholds.get?_eq, hholds.rows_eq]
        cases col with
        | zero => exact (cell?_cons name dtype chunk chunks row).symm
        | succ col => exact ite_self none

/-- Stacking the matrices of the chunks gives a matrix that consists of the
column. -/
theorem isStackOf_iff_holds
    (hparts : List.Forall₂ (fun part m => ofColumn part = .ok m)
      c.chunkColumns parts) :
    m.cols = 1 ∧ m.IsStackOf parts ↔ m.Holds c.length [c] := by
  obtain ⟨hrows, hcols, hcells⟩ := stacked_of_chunkColumns hparts
  constructor
  · rintro ⟨hwidth, hstack⟩
    refine ⟨hstack.rows_eq.trans hrows, hwidth, fun row col => ?_⟩
    rw [hstack.get?_eq, hcells]
  · intro hholds
    have hwidth : m.cols = 1 := hholds.cols_eq
    refine ⟨hwidth, hholds.rows_eq.trans hrows.symm, fun part hpart =>
      ?_, fun row col => ?_⟩
    · rw [hwidth, hcols part hpart]
    · rw [hholds.get?_eq, hcells]

/-- Columns have matrices together if they have them one by one. -/
theorem exists_forall₂_ofColumn_iff {columns : List Column} :
    (∃ parts, List.Forall₂ (fun part m => ofColumn part = .ok m)
      columns parts) ↔
      ∀ part ∈ columns, ∃ m, ofColumn part = .ok m := by
  induction columns with
  | nil => simp
  | cons c columns ih =>
      rw [List.forall_mem_cons, ← ih]
      constructor
      · rintro ⟨parts, hparts⟩
        obtain ⟨m, parts, hm, hrest, rfl⟩ :=
          List.forall₂_cons_left_iff.mp hparts
        exact ⟨⟨m, hm⟩, parts, hrest⟩
      · rintro ⟨⟨m, hm⟩, parts, hrest⟩
        exact ⟨m :: parts, .cons hm hrest⟩

end DenseMatrix

namespace Column

variable {c : Column}

theorem length_le_of_mem_chunkColumns {part : Column}
    (h : part ∈ c.chunkColumns) : part.length ≤ c.length := by
  obtain ⟨chunk, hchunk, rfl⟩ := List.mem_map.mp h
  exact Chunks.size_le_of_mem hchunk

/-- A column of a visited type can be written exactly if its chunks can. -/
theorem isWritable_iff_chunkColumns
    (hvisited : c.dtype ∈ DType.numericTypes ∨ c.dtype.IsTextOrTime) :
    c.IsWritable ↔ ∀ part ∈ c.chunkColumns, part.IsWritable := by
  rw [chunkColumns, List.forall_mem_map]
  constructor
  · rintro (hnumeric | ⟨htext, hnulls⟩) chunk hchunk
    · exact Or.inl hnumeric
    · refine Or.inr ⟨htext, fun slot hslot => hnulls slot ?_⟩
      rw [slots_ofChunk] at hslot
      exact Chunks.mem_toList.mpr ⟨chunk, hchunk, hslot⟩
  · intro hchunks
    refine hvisited.imp_right fun htext => ⟨htext, fun slot hslot => ?_⟩
    obtain ⟨chunk, hchunk, hmem⟩ := Chunks.mem_toList.mp hslot
    have hdouble :=
      (hchunks chunk hchunk).exists_slotDouble? (slots_ofChunk c chunk ▸ hmem)
    exact (DType.slotDouble?_of_isTextOrTime htext slot).mp hdouble

end Column

namespace DenseMatrix

variable {m : DenseMatrix} {c : Column} {error : Error}

/-- A column of a visited type with room for its matrix is refused with the
error of its type if it has a value, and for no other reason. -/
theorem ofColumn_eq_error_iff
    (hvisited : c.dtype ∈ DType.numericTypes ∨ c.dtype.IsTextOrTime)
    (hsize : c.length < 2 ^ 60) :
    ofColumn c = .error error ↔
      c.dtype.refusal? = some error ∧ ∃ value, some value ∈ c.slots := by
  have hrefused {error : Error} (h : ofColumn c = .error error) :
      c.dtype.refusal? = some error ∧ ∃ value, some value ∈ c.slots := by
    rw [ofColumn_eq_ofColumns,
      ofColumns_eq_error_iff (by simpa using hsize)] at h
    obtain ⟨before, c', after, hsplit, -, hmisfit⟩ := h
    obtain ⟨rfl, hc⟩ : before = [] ∧ c = c' := by
      cases before <;> simp_all
    subst hc
    cases hmisfit with
    | otherLength hlength => exact absurd rfl hlength
    | notVisited _ htype => exact absurd hvisited htype
    | @refused _ value _ _ htype hvalue =>
        exact ⟨htype, value, List.mem_of_getElem? hvalue⟩
  refine ⟨hrefused, ?_⟩
  rintro ⟨htype, hvalue⟩
  cases hmatrix : ofColumn c with
  | ok m =>
      have hwritable := (ofColumn_eq_ok_iff.mp hmatrix).2.1
      exact absurd hwritable
        (Column.not_isWritable_of_value (DType.refusal?_eq_some htype).1 hvalue)
  | error other =>
      rw [Option.some.inj (htype.symm.trans (hrefused hmatrix).1)]

/-- The matrix of a column is made of the matrices of its chunks. -/
theorem ofColumn_eq_ok_iff_chunkColumns
    (hvisited : c.dtype ∈ DType.numericTypes ∨ c.dtype.IsTextOrTime)
    (hsize : c.length < 2 ^ 60) :
    ofColumn c = .ok m ↔
      m.cols = 1 ∧ ∃ parts,
        List.Forall₂ (fun part m => ofColumn part = .ok m)
          c.chunkColumns parts ∧
          m.IsStackOf parts := by
  have hchunks :
      c.IsWritable ↔ ∀ part ∈ c.chunkColumns, ∃ m, ofColumn part = .ok m := by
    rw [Column.isWritable_iff_chunkColumns hvisited]
    refine forall₂_congr fun part hpart => ?_
    have hlength : part.length * 1 < 2 ^ 60 := by
      rw [Nat.mul_one]
      exact Nat.lt_of_le_of_lt (Column.length_le_of_mem_chunkColumns hpart)
        hsize
    obtain ⟨empty, hempty⟩ := exists_blank hlength
    exact (exists_ofColumn_iff hempty).symm
  rw [ofColumn_eq_ok_iff, and_iff_right hsize, hchunks,
    ← exists_forall₂_ofColumn_iff]
  constructor
  · rintro ⟨⟨parts, hparts⟩, hholds⟩
    obtain ⟨hcols, hstack⟩ := (isStackOf_iff_holds hparts).mpr hholds
    exact ⟨hcols, parts, hparts, hstack⟩
  · rintro ⟨hcols, parts, hparts, hstack⟩
    exact ⟨⟨parts, hparts⟩, (isStackOf_iff_holds hparts).mp ⟨hcols, hstack⟩⟩

/-- A chunk is refused with the error of the type if it has a value. -/
theorem ofColumn_ofChunk_eq_error_iff
    (hvisited : c.dtype ∈ DType.numericTypes ∨ c.dtype.IsTextOrTime)
    (hsize : c.length < 2 ^ 60) {chunk : Chunk (Option c.dtype.Value)}
    (hchunk : chunk ∈ c.chunks) : ofColumn (c.ofChunk chunk) = .error error ↔
      c.dtype.refusal? = some error ∧ ∃ value, some value ∈ chunk.toList := by
  have hroom : (c.ofChunk chunk).length < 2 ^ 60 :=
    Nat.lt_of_le_of_lt (Chunks.size_le_of_mem hchunk) hsize
  rw [← Column.slots_ofChunk]
  exact ofColumn_eq_error_iff hvisited hroom

/-- If one of several columns is refused, there is a first that is. -/
theorem exists_first_eq_error {columns : List Column} {c : Column}
    (hc : c ∈ columns) (h : ofColumn c = .error error) :
    ∃ before : List Column, ∃ part after first,
      columns = before ++ part :: after ∧
      (∀ other ∈ before, ∃ m, ofColumn other = .ok m) ∧
        ofColumn part = .error first := by
  induction columns with
  | nil => cases hc
  | cons part columns ih =>
      cases hpart : ofColumn part with
      | error first => exact ⟨[], part, columns, first, rfl, by simp, hpart⟩
      | ok m =>
          have hrest : c ∈ columns := by
            refine (List.mem_cons.mp hc).resolve_left ?_
            rintro rfl
            cases hpart.symm.trans h
          obtain ⟨before, refused, after, first, rfl, hbefore, hrefused⟩ :=
            ih hrest
          exact ⟨part :: before, refused, after, first, rfl,
            List.forall_mem_cons.mpr ⟨⟨m, hpart⟩, hbefore⟩, hrefused⟩

/-- A column is refused with the error of the first of its chunks that is
refused. -/
theorem ofColumn_eq_error_iff_chunkColumns
    (hvisited : c.dtype ∈ DType.numericTypes ∨ c.dtype.IsTextOrTime)
    (hsize : c.length < 2 ^ 60) :
    ofColumn c = .error error ↔
      ∃ before : List Column, ∃ part after,
        c.chunkColumns = before ++ part :: after ∧
        (∀ other ∈ before, ∃ m, ofColumn other = .ok m) ∧
        ofColumn part = .error error := by
  constructor
  · intro h
    obtain ⟨htype, value, hvalue⟩ := (ofColumn_eq_error_iff hvisited hsize).mp h
    obtain ⟨chunk, hchunk, hmem⟩ := Chunks.mem_toList.mp hvalue
    have hpart : c.ofChunk chunk ∈ c.chunkColumns := List.mem_map_of_mem hchunk
    have hrefused : ofColumn (c.ofChunk chunk) = .error error :=
      (ofColumn_ofChunk_eq_error_iff hvisited hsize hchunk).mpr
        ⟨htype, value, hmem⟩
    obtain ⟨before, part, after, first, hsplit, hbefore, hfirst⟩ :=
      exists_first_eq_error hpart hrefused
    refine ⟨before, part, after, hsplit, hbefore, ?_⟩
    -- The type fixes the error, so the first chunk that is refused is refused
    -- with no other.
    have hmem : part ∈ c.chunkColumns :=
      hsplit ▸ List.mem_append_right before List.mem_cons_self
    obtain ⟨chunk', hchunk', rfl⟩ := List.mem_map.mp hmem
    have htype' :=
      ((ofColumn_ofChunk_eq_error_iff hvisited hsize hchunk').mp hfirst).1
    rw [hfirst, Option.some.inj (htype.symm.trans htype')]
  · rintro ⟨before, part, after, hsplit, -, hpart⟩
    have hmem : part ∈ c.chunkColumns :=
      hsplit ▸ List.mem_append_right before List.mem_cons_self
    obtain ⟨chunk, hchunk, rfl⟩ := List.mem_map.mp hmem
    obtain ⟨htype, value, hvalue⟩ :=
      (ofColumn_ofChunk_eq_error_iff hvisited hsize hchunk).mp hpart
    exact (ofColumn_eq_error_iff hvisited hsize).mpr
      ⟨htype, value, Chunks.mem_toList.mpr ⟨chunk, hchunk, hvalue⟩⟩

/-- The matrix of a column, or its error, depends on the slots alone. -/
theorem ofColumn_eq_of_toList_eq {dtype : DType}
    (hvisited : dtype ∈ DType.numericTypes ∨ dtype.IsTextOrTime)
    (name name' : String) {chunks chunks' : Chunks (Option dtype.Value)}
    (hslots : chunks.toList = chunks'.toList) :
    ofColumn ⟨name, dtype, chunks⟩ = ofColumn ⟨name', dtype, chunks'⟩ := by
  obtain ⟨visit, hvisit⟩ := (DType.exists_visit?_iff dtype).mpr hvisited
  have hlength : (Column.mk name dtype chunks).length =
      (Column.mk name' dtype chunks').length := by
    rw [← Column.length_slots, ← Column.length_slots]
    exact congrArg List.length hslots
  have hfill : fillColumn 0 ⟨name, dtype, chunks⟩ =
      fillColumn 0 ⟨name', dtype, chunks'⟩ := by
    funext m
    rw [fillColumn, fillColumn, hlength,
      Column.accept_eq_of_toList_eq (Filling.writer 0) hvisit name name' hslots]
  rw [ofColumn, ofColumn, hlength, hfill]

end DenseMatrix

/-- A column of a visited type is traversed chunk by chunk, and the chunks leave
no trace.  Further chunks are traversed from the state that the column leaves;
if its traversal fails, they change nothing, and none of their slots is visited.
A visitor is not told of names and time zones.  With room for it, the matrix of
a column consists of the matrices of its chunks, one below the other, and the
column is refused with the error of the first chunk that is refused. -/
theorem Column.chunks_leave_no_trace (c : Column)
    (hvisited : c.dtype ∈
      [.float64, .float32, .int64, .int32, .uint32, .uint64, .null] ∨
      (c.dtype = .string ∨ ∃ unit zone, c.dtype = .datetime unit zone)) :
    (∀ {σ : Type} (visitor : Visitor σ) (s : σ) (name : String)
        (chunks : Chunks (Option c.dtype.Value)),
      ((c.append chunks).accept visitor).run s =
        match (c.accept visitor).run s with
        | .ok () s' => ((Column.mk name c.dtype chunks).accept visitor).run s'
        | .error error s' => .error error s') ∧
    (∃ visit, c.dtype.visit? = some visit ∧
      ∀ {σ : Type} (visitor : Visitor σ) (s s' : σ) (error : Error)
          (chunks : Chunks (Option c.dtype.Value)),
        (c.accept visitor).run s = .error error s' →
          ∃ before last after, c.slots.map (Visit.ofSlot visit) =
            before ++ last :: after ∧
            ((c.append chunks).accept visitor.recorder).run (s, []) =
              .error error (s', before ++ [last])) ∧
    (∀ {σ : Type} (visitor : Visitor σ), c.accept visitor =
      c.chunkColumns.forM fun part => part.accept visitor) ∧
    (∀ (name : String) (chunks : Chunks (Option c.dtype.Value)),
      chunks.toList = c.slots →
      (∀ {σ : Type} (visitor : Visitor σ),
        (Column.mk name c.dtype chunks).accept visitor = c.accept visitor) ∧
      DenseMatrix.ofColumn ⟨name, c.dtype, chunks⟩ = DenseMatrix.ofColumn c) ∧
    (∀ {σ : Type} (visitor : Visitor σ) (name name' : String) (unit : TimeUnit)
        (zone zone' : Option String) (chunks : Chunks (Option Int64)),
      (Column.mk name (.datetime unit zone) chunks).accept visitor =
        (Column.mk name' (.datetime unit zone') chunks).accept visitor) ∧
    ((∃ empty, DenseMatrix.blank c.length 1 = .ok empty) →
      (∀ m, DenseMatrix.ofColumn c = .ok m ↔
        m.cols = 1 ∧ ∃ parts,
          List.Forall₂ (fun part m => DenseMatrix.ofColumn part = .ok m)
            c.chunkColumns parts ∧
            m.IsStackOf parts) ∧
      ∀ error, DenseMatrix.ofColumn c = .error error ↔
        ∃ before : List Column, ∃ part after,
          c.chunkColumns = before ++ part :: after ∧
          (∀ other ∈ before, ∃ m, DenseMatrix.ofColumn other = .ok m) ∧
          DenseMatrix.ofColumn part = .error error) := by
  obtain ⟨visit, hvisit⟩ := (DType.exists_visit?_iff c.dtype).mpr hvisited
  refine ⟨?_, ⟨visit, hvisit, ?_⟩, ?_, ?_, ?_, ?_⟩
  · intro σ visitor s name chunks
    rw [accept_append visitor hvisit name, EStateM.run_bind]
    cases (c.accept visitor).run s <;> rfl
  · intro σ visitor s s' error chunks herror
    exact run_accept_append_of_error visitor hvisit herror chunks
  · intro σ visitor
    exact accept_eq_forM_chunkColumns visitor hvisit
  · intro name chunks hslots
    exact ⟨fun visitor =>
      accept_eq_of_toList_eq visitor hvisit name c.name hslots,
        DenseMatrix.ofColumn_eq_of_toList_eq hvisited name c.name hslots⟩
  · intro σ visitor name name' unit zone zone' chunks
    rfl
  · rintro ⟨empty, hempty⟩
    have hsize : c.length < 2 ^ 60 := by
      simpa using (DenseMatrix.blank_eq_ok hempty).1
    exact ⟨fun m => DenseMatrix.ofColumn_eq_ok_iff_chunkColumns hvisited hsize,
      fun error =>
        DenseMatrix.ofColumn_eq_error_iff_chunkColumns hvisited hsize⟩

/-- Nulls, no slots, and a string behind another null. -/
def Column.sampleChunks : Column :=
  ⟨"label", .string, [.repeated 2 none, .listed [], .listed [none, some "a"]]⟩

theorem Column.sampleChunks_leave_no_trace :
    ((sampleChunks.append [.listed [some "b"]]).accept sampleVisitor).run 4 =
        .error (.foreignRuntime "NaN") 4 ∧
      ((Column.mk "" .string [.repeated 3 none, .listed [some "a"]]).accept
        sampleVisitor) =
        sampleChunks.accept sampleVisitor ∧
      DenseMatrix.ofColumn sampleChunks = .error .stringInMatrix := by
  obtain ⟨happend, -, -, hslots, -, hmatrix⟩ :=
    chunks_leave_no_trace sampleChunks (Or.inr (Or.inl rfl))
  refine ⟨?_, ?_, ?_⟩
  · rw [happend sampleVisitor 4 "further"]
    rfl
  · exact (hslots "" [.repeated 3 none, .listed [some "a"]] rfl).1 sampleVisitor
  · obtain ⟨-, herror⟩ := hmatrix (DenseMatrix.exists_blank (by decide))
    refine (herror _).mpr ⟨[_, _], _, [], rfl, ?_, rfl⟩
    intro other hother
    rcases List.mem_pair.mp hother with rfl | rfl
    · exact ⟨_, rfl⟩
    · exact ⟨_, rfl⟩

end ColumnBridge
