import ColumnBridge.Proofs.Call.Assembly
import ColumnBridge.Proofs.Text.Decoding

/-!
# Columns of texts

A column of texts is made of bytes that a caller has in memory: the name, and
one text or a null for each slot.  All of it has to be UTF-8, and a single bad
byte anywhere prevents the column; there is no column of the texts before it.
What is reported is the first defect in the order in which the arguments are
looked at, which is the buffer, the name, and then the texts one after the
other.

When there is a column, nothing has been lost: the bytes of its texts are the
bytes in memory.
-/

namespace ColumnBridge

/-! ## Arguments in memory -/

/-- The argument is null, or the address of bytes that end at the first zero. -/
inductive TextArgument.Holds : TextArgument → Option (List UInt8) → Prop
  | null : Holds ⟨none⟩ none
  | bytes {held beyond : List UInt8} (h : 0 ∉ held) :
      Holds ⟨some (held ++ 0 :: beyond)⟩ (some held)

/-- The argument that holds bytes and nothing behind them. -/
def TextArgument.ofBytes (held : Option (List UInt8)) : TextArgument :=
  ⟨held.map (· ++ [0])⟩

theorem TextArgument.holds_ofBytes {held : Option (List UInt8)}
    (h : ∀ bytes ∈ held, 0 ∉ bytes) : (ofBytes held).Holds held := by
  cases held with
  | none => exact .null
  | some bytes => exact .bytes (h bytes rfl)

theorem TextArgument.forall₂_holds_ofBytes
    {entries : List (Option (List UInt8))}
    (h : ∀ held ∈ entries, ∀ bytes ∈ held, 0 ∉ bytes) :
    List.Forall₂ Holds (entries.map ofBytes) entries := by
  rw [List.forall₂_map_left_iff, List.forall₂_same]
  exact fun held hheld => holds_ofBytes (h held hheld)

/-- The buffer is said to pass these items, and does so unless it is null. -/
structure Buffer.Announces {α : Type} (buffer : Buffer α) (items : List α) :
    Prop where
  length_eq : buffer.length = items.length
  isPrefix_of_some : ∀ stored, buffer.items = some stored → items <+: stored

theorem Buffer.Announces.passes {α : Type} {buffer : Buffer α} {items : List α}
    (h : buffer.Announces items) (hnull : buffer.items = none → items = []) :
    buffer.Passes items where
  length_eq := h.length_eq
  eq_nil_of_null := hnull
  isPrefix_of_some := h.isPrefix_of_some

theorem Buffer.announces_ofList {α : Type} (items : List α) :
    (ofList items).Announces items where
  length_eq := rfl
  isPrefix_of_some := (passes_ofList items).isPrefix_of_some

theorem Buffer.Announces.read_of_null {α : Type} {buffer : Buffer α}
    {items : List α} (h : buffer.Announces items) (hnull : buffer.items = none)
    (hitems : items ≠ []) :
    buffer.read = .error (.nullBuffer items.length) := by
  have hlength : buffer.length ≠ 0 := by
    rw [h.length_eq]
    exact fun hzero => hitems (List.eq_nil_of_length_eq_zero hzero)
  rw [Buffer.read, if_neg hlength, hnull, h.length_eq]

namespace TextArgument

open Utf8

variable {argument : TextArgument} {held : Option (List UInt8)} {error : Error}
  {arguments : List TextArgument} {entries : List (Option (List UInt8))}

theorem Holds.read_bytes {bytes beyond : List UInt8} (h : 0 ∉ bytes) :
    read ⟨some (bytes ++ 0 :: beyond)⟩ =
      match decode bytes with
      | .ok text => .ok (some text)
      | .error m => .error (.malformedText m) := by
  rw [read]
  dsimp only
  cases hdecode : decode bytes <;> rw [takeWhile_append_zero h, hdecode]

/-- What is read are the bytes as a text. -/
theorem Holds.read_eq_ok_iff (h : argument.Holds held) {text : Option String} :
    argument.read = .ok text ↔ text.map utf8Bytes = held := by
  cases h with
  | null => cases text <;> simp [read]
  | @bytes held beyond hzero =>
      rw [read_bytes hzero]
      cases text with
      | none => cases decode held <;> simp
      | some text =>
          rw [Option.map_some, Option.some.injEq, ← decode_eq_ok_iff]
          cases decode held <;> simp

theorem Holds.read_eq_error_iff (h : argument.Holds held) :
    argument.read = .error error ↔
      ∃ bytes m, held = some bytes ∧ Malformed bytes m ∧
        error = .malformedText m := by
  cases h with
  | null => simp [read]
  | @bytes held beyond hzero =>
      rw [read_bytes hzero]
      simp only [← decode_eq_error_iff]
      cases hdecode : decode held with
      | ok text => simp [hdecode]
      | error m =>
          constructor
          · rintro ⟨⟩
            exact ⟨held, m, rfl, hdecode, rfl⟩
          · rintro ⟨_, m', ⟨⟩, hm', rfl⟩
            rw [Except.error.inj (hdecode.symm.trans hm')]

theorem Holds.readName_eq_ok_iff (h : argument.Holds held) {name : String} :
    argument.readName = .ok name ↔ held = some (utf8Bytes name) := by
  have hread : argument.read = .ok (some name) ↔ some (utf8Bytes name) = held :=
    h.read_eq_ok_iff
  rw [@eq_comm _ held, ← hread, readName]
  rcases argument.read with found | _ | text <;> simp

theorem Holds.readName_eq_error_iff (h : argument.Holds held) :
    argument.readName = .error error ↔
      (held = none ∧ error = .nullName) ∨
        ∃ bytes m, held = some bytes ∧ Malformed bytes m ∧
          error = .malformedText m := by
  have hnone : argument.read = .ok none ↔ none = held := h.read_eq_ok_iff
  rw [← h.read_eq_error_iff, @eq_comm _ held, ← hnone, readName]
  rcases argument.read with found | _ | text
  · simp
  · simpa using eq_comm
  · simp

/-- An entry is that of a text or of none exactly if it is well-formed or
null. -/
theorem exists_map_eq_iff :
    (∃ text : Option String, text.map utf8Bytes = held) ↔
      ∀ bytes, held = some bytes → WellFormed bytes := by
  constructor
  · rintro ⟨text, rfl⟩ bytes hbytes
    obtain ⟨text, -, hbytes⟩ := Option.map_eq_some_iff.mp hbytes
    exact ⟨text, hbytes⟩
  · intro h
    cases held with
    | none => exact ⟨none, rfl⟩
    | some bytes =>
        obtain ⟨text, rfl⟩ := h bytes rfl
        exact ⟨some text, rfl⟩

theorem readAll_cons (argument : TextArgument) (arguments : List TextArgument) :
    readAll (argument :: arguments) =
      argument.read >>= fun text => readAll arguments >>= fun texts =>
        .ok (text :: texts) := by
  rw [readAll]
  cases argument.read with
  | error => rfl
  | ok => cases readAll arguments <;> rfl

/-- The texts that are read have the bytes of the entries, and are null where
these are. -/
theorem readAll_eq_ok_iff (h : List.Forall₂ Holds arguments entries)
    {texts : List (Option String)} :
    readAll arguments = .ok texts ↔
      texts.map (Option.map utf8Bytes) = entries := by
  induction h generalizing texts with
  | nil => simp [readAll, @eq_comm _ []]
  | @cons argument held arguments entries hargument _ ih =>
      simp only [readAll_cons, bind_eq_ok_iff, hargument.read_eq_ok_iff, ih,
        Except.ok.injEq]
      cases texts with
      | nil => simp
      | cons text texts => simp [and_comm]

/-- The first entry that is not UTF-8 is reported. -/
theorem readAll_eq_error_iff (h : List.Forall₂ Holds arguments entries) :
    readAll arguments = .error error ↔
      ∃ before bytes after m, entries = before ++ some bytes :: after ∧
        (∀ earlier, some earlier ∈ before → WellFormed earlier) ∧
        Malformed bytes m ∧ error = .malformedText m := by
  induction h with
  | nil => simp [readAll]
  | @cons argument held arguments entries hargument _ ih =>
      have hrest (text : Option String) :
          (readAll arguments >>= fun texts => .ok (text :: texts)) =
            Except.error error ↔
            readAll arguments = .error error := by
        rw [bind_eq_error_iff]
        simp
      rw [readAll_cons, bind_eq_error_iff]
      simp only [hrest, ih, exists_and_right, hargument.read_eq_ok_iff,
        exists_map_eq_iff, hargument.read_eq_error_iff]
      constructor
      · rintro (⟨bytes, m, rfl, hm⟩ |
          ⟨hheld, before, bytes, after, m, rfl, hbefore, hm⟩)
        · exact ⟨[], bytes, entries, m, rfl, by simp, hm⟩
        · refine ⟨held :: before, bytes, after, m, rfl, ?_, hm⟩
          intro earlier hearlier
          rcases List.mem_cons.mp hearlier with hhead | htail
          · exact hheld earlier hhead.symm
          · exact hbefore earlier htail
      · rintro ⟨before, bytes, after, m, hsplit, hbefore, hm⟩
        cases before with
        | nil =>
            cases hsplit
            exact .inl ⟨bytes, m, rfl, hm⟩
        | cons entry before =>
            cases hsplit
            refine .inr ⟨?_, before, bytes, after, m, rfl, ?_, hm⟩
            · rintro earlier rfl
              exact hbefore earlier List.mem_cons_self
            · exact fun earlier hearlier =>
                hbefore earlier (List.mem_cons_of_mem _ hearlier)

end TextArgument

namespace Call

open Utf8 TextArgument

variable {settings : Settings} {allocate : Allocator} {s : Session}
  {data : Buffer TextArgument} {arguments : List TextArgument}
  {entries : List (Option (List UInt8))} {argument : TextArgument}
  {held : Option (List UInt8)} {error : Error}

/-- Why there is no column of the entries under a name: the first that is wrong
of the buffer, the name and the entries. -/
inductive TextDefect (data : Buffer TextArgument)
    (entries : List (Option (List UInt8))) : Option (List UInt8) → Error → Prop
  | nullBuffer {held : Option (List UInt8)} (hnull : data.items = none)
      (hentries : entries ≠ []) :
      TextDefect data entries held (.nullBuffer entries.length)
  | nullName (hdata : data.items = none → entries = []) :
      TextDefect data entries none .nullName
  | malformedName {bytes : List UInt8} {m : Malformation}
      (hdata : data.items = none → entries = []) (hname : Malformed bytes m) :
      TextDefect data entries (some bytes) (.malformedText m)
  | malformedEntry {name bytes : List UInt8}
      {before after : List (Option (List UInt8))}
      {m : Malformation} (hdata : data.items = none → entries = [])
      (hname : WellFormed name)
      (hsplit : entries = before ++ some bytes :: after)
      (hbefore : ∀ earlier, some earlier ∈ before → WellFormed earlier)
      (hentry : Malformed bytes m) :
      TextDefect data entries (some name) (.malformedText m)

/-- The name and the texts of a column, read in the order in which they are
looked at. -/
def readTexts (data : Buffer TextArgument) (argument : TextArgument) :
    Except Error (String × List (Option String)) := do
  let arguments ← data.read
  let name ← argument.readName
  let texts ← readAll arguments
  pure (name, texts)

/-- The call reads the name and the texts, and adopts the column of them. -/
theorem perform_columnFromStrings :
    (columnFromStrings data argument).perform settings allocate s =
      match readTexts data argument with
      | .ok (name, texts) =>
        (.ok (allocate s.registry.issued),
          (s.adopt settings allocate ⟨.column, .ofSlots name .string texts⟩).2)
      | .error error => (.error error, s) := by
  rw [perform_eq_enact, effect, readTexts]
  dsimp only [bind, Except.bind]
  cases data.read with
  | error error => rfl
  | ok arguments =>
      dsimp only
      cases argument.readName with
      | error error => rfl
      | ok name =>
          dsimp only
          cases readAll arguments <;> rfl

theorem readTexts_of_read (hread : data.read = .ok arguments) :
    readTexts data argument =
      argument.readName >>= fun name => readAll arguments >>= fun texts =>
        .ok (name, texts) := by
  rw [readTexts, hread]
  rfl

/-- The arguments are passed unless the buffer is null and there are entries. -/
theorem read_eq_ok_or_error (hdata : data.Announces arguments)
    (hentries : List.Forall₂ Holds arguments entries) :
    ((data.items = none → entries = []) ∧ data.read = .ok arguments) ∨
      (data.items = none ∧ entries ≠ [] ∧
        data.read = .error (.nullBuffer entries.length)) := by
  have hlength := hentries.length_eq
  have hempty : arguments = [] ↔ entries = [] := by
    rw [← List.length_eq_zero_iff, hlength, List.length_eq_zero_iff]
  by_cases hnull : data.items = none → entries = []
  · exact .inl ⟨hnull, (hdata.passes fun h => hempty.mpr (hnull h)).read_eq⟩
  · rw [Classical.not_imp] at hnull
    refine .inr ⟨hnull.1, hnull.2, ?_⟩
    rw [hdata.read_of_null hnull.1 (mt hempty.mp hnull.2), hlength]

/-- What is read are all the bytes, as texts. -/
theorem readTexts_eq_ok_iff (hdata : data.Announces arguments)
    (hentries : List.Forall₂ Holds arguments entries)
    (hargument : argument.Holds held) {name : String}
    {texts : List (Option String)} :
    readTexts data argument = .ok (name, texts) ↔
      (data.items = none → entries = []) ∧ held = some (utf8Bytes name) ∧
        texts.map (Option.map utf8Bytes) = entries := by
  rcases read_eq_ok_or_error hdata hentries with ⟨hnull, hread⟩ |
    ⟨hnull, hne, hread⟩
  · rw [readTexts_of_read hread, and_iff_right hnull]
    simp [bind_eq_ok_iff, hargument.readName_eq_ok_iff,
      readAll_eq_ok_iff hentries]
  · rw [readTexts, hread]
    exact iff_of_false nofun fun h => hne (h.1 hnull)

/-- Past the buffer, a defect is one of the name, or one of an entry if the name
has none. -/
theorem textDefect_iff (hnull : data.items = none → entries = [])
    (hentries : List.Forall₂ Holds arguments entries)
    (hargument : argument.Holds held) : TextDefect data entries held error ↔
      argument.readName = .error error ∨
        (∃ name, argument.readName = .ok name) ∧
          readAll arguments = .error error := by
  rw [hargument.readName_eq_error_iff, readAll_eq_error_iff hentries]
  simp only [hargument.readName_eq_ok_iff]
  constructor
  · intro h
    cases h with
    | nullBuffer hdata hne => exact absurd (hnull hdata) hne
    | nullName => exact .inl (.inl ⟨rfl, rfl⟩)
    | malformedName _ hname => exact .inl (.inr ⟨_, _, rfl, hname, rfl⟩)
    | malformedEntry _ hname hsplit hbefore hentry =>
        obtain ⟨name, rfl⟩ := hname
        exact .inr ⟨⟨name, rfl⟩, _, _, _, _, hsplit, hbefore, hentry, rfl⟩
  · rintro ((⟨rfl, rfl⟩ | ⟨bytes, m, rfl, hname, rfl⟩) |
      ⟨⟨name, rfl⟩, before, bytes, after, m, hsplit, hbefore, hentry, rfl⟩)
    · exact .nullName hnull
    · exact .malformedName hnull hname
    · exact .malformedEntry hnull ⟨name, rfl⟩ hsplit hbefore hentry

theorem readTexts_eq_error_iff (hdata : data.Announces arguments)
    (hentries : List.Forall₂ Holds arguments entries)
    (hargument : argument.Holds held) :
    readTexts data argument = .error error ↔
      TextDefect data entries held error := by
  rcases read_eq_ok_or_error hdata hentries with ⟨hnull, hread⟩ |
    ⟨hnull, hne, hread⟩
  · rw [readTexts_of_read hread, textDefect_iff hnull hentries hargument]
    simp [bind_eq_error_iff]
  · rw [readTexts, hread]
    constructor
    · rintro ⟨⟩
      exact .nullBuffer hnull hne
    · intro h
      cases h with
      | nullBuffer => rfl
      | nullName hdata | malformedName hdata | malformedEntry hdata =>
          exact absurd (hdata hnull) hne

theorem exists_map_utf8Bytes_iff :
    (∃ texts : List (Option String),
      texts.map (Option.map utf8Bytes) = entries) ↔
      ∀ bytes, some bytes ∈ entries → WellFormed bytes := by
  have hrange : (∃ texts : List (Option String),
      texts.map (Option.map utf8Bytes) = entries) ↔
      ∀ entry ∈ entries,
        ∃ text : Option String, text.map utf8Bytes = entry := by
    rw [← Set.mem_range, Set.range_list_map]
    rfl
  simp only [hrange, exists_map_eq_iff]
  constructor
  · exact fun h bytes hbytes => h _ hbytes bytes rfl
  · rintro h _ hentry bytes rfl
    exact h bytes hentry

/-- Whether bytes are broken or incomplete, the message says from where on. -/
theorem exists_malformedText_eq (m : Malformation) :
    ∃ start, Error.malformedText m =
      .unsupportedType (start ++ (" from index " ++ toString m.validUpTo)) := by
  obtain ⟨validUpTo, refused⟩ := m
  cases refused with
  | none =>
      have hwords : "incomplete utf-8 byte sequence from index " =
          "incomplete utf-8 byte sequence" ++ " from index " := by decide
      refine ⟨"string is not valid utf-8: " ++
        "incomplete utf-8 byte sequence", ?_⟩
      calc
        Error.malformedText ⟨validUpTo, none⟩ =
            .unsupportedType ("string is not valid utf-8: " ++
            ("incomplete utf-8 byte sequence from index " ++
            toString validUpTo)) := rfl
        _ = _ := by rw [hwords]; simp only [String.append_assoc]
  | some length =>
      have hwords : " bytes from index " = " bytes" ++ " from index " := by
        decide
      refine ⟨"string is not valid utf-8: " ++
        ("invalid utf-8 sequence of " ++ toString length ++ " bytes"), ?_⟩
      calc
        Error.malformedText ⟨validUpTo, some length⟩ =
            .unsupportedType ("string is not valid utf-8: " ++
              ("invalid utf-8 sequence of " ++ toString length ++
              " bytes from index " ++ toString validUpTo)) := rfl
        _ = _ := by rw [hwords]; simp only [String.append_assoc]

/-- A column of texts is made exactly if the buffer is not null or not needed,
and the name and the entries are UTF-8, the entries that are null apart.  Only
the column is adopted then, and the bytes of its name and of its slots are those
in memory.  Otherwise nothing changes, and what is reported is the first defect,
with the length of the longest well-formed beginning if bytes are malformed. -/
theorem columnFromStrings_adopts_or_refuses (settings : Settings)
    (allocate : Allocator) (s : Session) (data : Buffer TextArgument)
    (arguments : List TextArgument) (entries : List (Option (List UInt8)))
    (argument : TextArgument) (held : Option (List UInt8))
    (hdata : data.Announces arguments)
    (hentries : List.Forall₂ Holds arguments entries)
    (hargument : argument.Holds held) :
    ((∃ handle, ((columnFromStrings data argument).perform settings
      allocate s).1 = .ok handle) ↔
      (data.items = none → entries = []) ∧
        (∃ bytes, held = some bytes ∧ WellFormed bytes) ∧
        ∀ bytes, some bytes ∈ entries → WellFormed bytes) ∧
    (allocate s.registry.issued ∉ s.registry.contents →
      ∀ handle, ((columnFromStrings data argument).perform settings
        allocate s).1 = .ok handle →
        ∃ name texts, held = some (utf8Bytes name) ∧
          texts.map (Option.map utf8Bytes) = entries ∧
          s.registry.Gains
            ((columnFromStrings data argument).perform settings
              allocate s).2.registry
            handle ⟨.column, .ofSlots name .string texts⟩) ∧
    (∀ error, ((columnFromStrings data argument).perform settings
      allocate s).1 = .error error ↔
      TextDefect data entries held error) ∧
    (∀ error, ((columnFromStrings data argument).perform settings
      allocate s).1 = .error error →
      ((columnFromStrings data argument).perform settings allocate s).2 = s) ∧
    (∀ length, ∃ detail, Error.nullBuffer length = .shapeMismatch detail) ∧
    (∃ detail, Error.nullName = .shapeMismatch detail) ∧
    ∀ m : Malformation, ∃ start,
      Error.malformedText m =
        .unsupportedType
          (start ++ (" from index " ++ toString m.validUpTo)) := by
  have hresult (name : String) (texts : List (Option String)) :
      readTexts data argument = .ok (name, texts) ↔ _ :=
    readTexts_eq_ok_iff hdata hentries hargument
  have hrefused (error : Error) :
      ((columnFromStrings data argument).perform settings allocate s).1 =
        .error error ↔
        TextDefect data entries held error := by
    rw [perform_columnFromStrings,
      ← readTexts_eq_error_iff hdata hentries hargument]
    rcases readTexts data argument with _ | ⟨_, _⟩ <;> simp
  refine ⟨?_, ?_, hrefused, fun error => perform_of_error, fun _ =>
    ⟨_, rfl⟩, ⟨_, rfl⟩, exists_malformedText_eq⟩
  · rw [← exists_map_utf8Bytes_iff]
    constructor
    · rintro ⟨handle, hhandle⟩
      rw [perform_columnFromStrings] at hhandle
      cases hread : readTexts data argument with
      | error error =>
          rw [hread] at hhandle
          cases hhandle
      | ok read =>
          obtain ⟨hnull, hname, htexts⟩ := (hresult _ _).mp hread
          exact ⟨hnull, ⟨_, hname, _, rfl⟩, _, htexts⟩
    · rintro ⟨hnull, ⟨bytes, rfl, name, rfl⟩, texts, htexts⟩
      rw [perform_columnFromStrings, (hresult _ _).mpr ⟨hnull, rfl, htexts⟩]
      exact ⟨_, rfl⟩
  · intro hfresh handle hhandle
    rw [perform_columnFromStrings] at hhandle ⊢
    cases hread : readTexts data argument with
    | error error =>
        rw [hread] at hhandle
        cases hhandle
    | ok read =>
        rw [hread] at hhandle
        cases hhandle
        obtain ⟨-, hname, htexts⟩ := (hresult _ _).mp hread
        exact ⟨_, _, hname, htexts, Session.gains_adopt hfresh _⟩

/-- An accented letter, and a null. -/
def sampleEntries : List (Option (List UInt8)) := [some [0xC3, 0xA9], none]

/-- A null, a letter after which the euro sign breaks off, and a byte that
begins no character. -/
def sampleBroken : List (Option (List UInt8)) :=
  [none, some [0x61, 0xE2, 0x82, 0x62], some [0xFF]]

/-- Makes a column of entries in memory, under the name s. -/
def madeOfEntries (entries : List (Option (List UInt8))) :
    Except Error Address × Session :=
  (columnFromStrings (.ofList (entries.map .ofBytes))
    (.ofBytes (some [0x73]))).perform ⟨false, 4096⟩ (fun _ => ⟨16⟩) .fresh

theorem columnFromStrings_sampleEntries :
    (∀ entries ∈ [sampleEntries, sampleBroken],
      List.Forall₂ Holds (entries.map .ofBytes) entries) ∧
    (TextArgument.ofBytes (some [0x73])).Holds (some [0x73]) ∧
    ⟨16⟩ ∉ Registry.empty.contents ∧
    (∃ handle, (madeOfEntries sampleEntries).1 = .ok handle ∧
      Registry.empty.Gains (madeOfEntries sampleEntries).2.registry handle
        ⟨.column, .ofSlots "s" .string [some "é", none]⟩) ∧
    (madeOfEntries sampleBroken).1 = .error (.malformedText ⟨1, some 2⟩) := by
  have hheld : ∀ entries ∈ [sampleEntries, sampleBroken],
      List.Forall₂ Holds (entries.map .ofBytes) entries := by
    intro entries hentries
    refine forall₂_holds_ofBytes ?_
    revert entries
    decide
  have hname : (TextArgument.ofBytes (some [0x73])).Holds (some [0x73]) :=
    holds_ofBytes (by decide)
  have hfresh : ⟨16⟩ ∉ Registry.empty.contents := by
    rw [Registry.mem_contents]
    decide
  have hmade (entries : List (Option (List UInt8)))
      (hentries : List.Forall₂ Holds (entries.map .ofBytes) entries) :=
    columnFromStrings_adopts_or_refuses ⟨false, 4096⟩ (fun _ => ⟨16⟩) .fresh
      (.ofList (entries.map .ofBytes)) _ entries _ _ (Buffer.announces_ofList _)
        hentries hname
  refine ⟨hheld, hname, hfresh, ?_, ?_⟩
  · obtain ⟨hadopted, hgains, -⟩ := hmade sampleEntries (hheld _ (by decide))
    have hs : [0x73] = utf8Bytes "s" := by rw [utf8Bytes_eq]; decide
    have he : [0xC3, 0xA9] = utf8Bytes "é" := by rw [utf8Bytes_eq]; decide
    have hformed : ∀ bytes, some bytes ∈ sampleEntries → WellFormed bytes := by
      intro bytes hbytes
      simp only [sampleEntries, List.mem_cons, Option.some.injEq, reduceCtorEq,
        List.not_mem_nil, or_false] at hbytes
      exact ⟨"é", hbytes ▸ he.symm⟩
    obtain ⟨handle, hhandle⟩ :=
      hadopted.mpr ⟨nofun, ⟨_, rfl, "s", hs.symm⟩, hformed⟩
    refine ⟨handle, hhandle, ?_⟩
    obtain ⟨name, texts, hbytes, htexts, hcolumn⟩ :=
      hgains hfresh handle hhandle
    obtain rfl : "s" = name :=
      utf8Bytes_injective (hs.symm.trans (Option.some.inj hbytes))
    have hsame :
        [some "é", none].map (Option.map utf8Bytes) = sampleEntries := by
      rw [List.map_cons, Option.map_some, ← he]
      rfl
    have hinj :=
      List.map_injective_iff.mpr (Option.map_injective utf8Bytes_injective)
    obtain rfl := hinj (hsame.trans htexts.symm)
    exact hcolumn
  · obtain ⟨-, -, hrefused, -⟩ := hmade sampleBroken (hheld _ (by decide))
    refine (hrefused _).mpr ?_
    have hsplit : sampleBroken = [none] ++ some [0x61, 0xE2, 0x82, 0x62] ::
        [some [0xFF]] := rfl
    refine .malformedEntry nofun ⟨"s", ?_⟩ hsplit ?_ ?_
    · rw [utf8Bytes_eq]
      decide
    · simp
    · exact decode_eq_error_iff.mp (by decide)

end Call
end ColumnBridge
