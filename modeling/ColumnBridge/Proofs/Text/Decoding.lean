import ColumnBridge.Proofs.Text.Characters

/-!
# Decoding bytes

Bytes are well-formed if they are those of a text.  A text is a sequence of
characters, and the encoding of a character is the shortest one, so there is no
other way to say which sequences are overlong, which stand for a surrogate and
which lie beyond the last code point.

The decoder splits characters off the bytes until nothing is left, or until no
character follows.  As no character begins with another one, there is only one
way to split bytes; so what has been read before a fault is not merely
well-formed, it is the longest well-formed beginning there is.
-/

namespace ColumnBridge

/-- The bytes of a text. -/
def utf8Bytes (text : String) : List UInt8 := text.toUTF8.data.toList

theorem utf8Bytes_eq (text : String) :
    utf8Bytes text = text.toList.flatMap String.utf8EncodeChar := by
  conv => lhs; rw [← String.ofList_toList (s := text)]
  rw [utf8Bytes, String.toUTF8_eq_toByteArray]
  exact List.toList_data_toByteArray

/-- Bytes up to the first zero, none of which is zero. -/
theorem takeWhile_append_zero {bytes beyond : List UInt8} (h : 0 ∉ bytes) :
    (bytes ++ 0 :: beyond).takeWhile (· ≠ 0) = bytes := by
  have hbytes : ∀ byte ∈ bytes, decide (byte ≠ 0) = true := by
    intro byte hbyte
    apply decide_eq_true
    rintro rfl
    exact h hbyte
  rw [List.takeWhile_append_of_pos hbytes,
    List.takeWhile_cons_of_neg (by decide), List.append_nil]

theorem utf8Bytes_injective : Function.Injective utf8Bytes := by
  intro a b h
  apply String.toByteArray_inj.mp
  exact ByteArray.ext (Array.toList_inj.mp h)

namespace Utf8

variable {bytes rest : List UInt8} {start : Nat} {refused : Option Nat}
  {m : Malformation} {result : Except Malformation (List Char)}

/-- The bytes are those of a text. -/
def WellFormed (bytes : List UInt8) : Prop := ∃ text, utf8Bytes text = bytes

theorem wellFormed_iff :
    WellFormed bytes ↔
      ∃ cs : List Char, cs.flatMap String.utf8EncodeChar = bytes := by
  constructor
  · rintro ⟨text, rfl⟩
    exact ⟨text.toList, (utf8Bytes_eq text).symm⟩
  · rintro ⟨cs, rfl⟩
    exact ⟨String.ofList cs, by rw [utf8Bytes_eq, String.toList_ofList]⟩

/-! ## Faults -/

/-- The bytes begin a character and do not end it. -/
def Begun (bytes : List UInt8) : Prop :=
  ∃ c, bytes <+: String.utf8EncodeChar c ∧ bytes ≠ String.utf8EncodeChar c

/-- The bytes do not begin with a character: they end inside of one, or the
bytes of one end before it does.  Then those are refused that were good, or the
first one if not even that was. -/
inductive Fault : List UInt8 → Option Nat → Prop
  | incomplete {rest : List UInt8} (hne : rest ≠ []) (hbegun : Begun rest) :
      Fault rest none
  | broken {begun after : List UInt8} {b : UInt8} (hbegun : Begun begun)
      (hbroken : ∀ c, ¬ begun ++ [b] <+: String.utf8EncodeChar c) :
      Fault (begun ++ b :: after) (some (max 1 begun.length))

/-- The longest well-formed beginning of the bytes ends where a fault is. -/
structure Malformed (bytes : List UInt8) (m : Malformation) : Prop where
  wellFormed : WellFormed (bytes.take m.validUpTo)
  longest : ∀ front, front <+: bytes → WellFormed front →
    front.length ≤ m.validUpTo
  fault : Fault (bytes.drop m.validUpTo) m.refused

theorem Fault.ne_nil (h : Fault rest refused) : rest ≠ [] := by
  cases h with
  | incomplete hne => exact hne
  | broken => simp

/-- A whole character has not merely begun. -/
theorem Begun.not_isPrefix (h : Begun bytes) (c : Char) :
    ¬ String.utf8EncodeChar c <+: bytes := by
  intro hc
  obtain ⟨c', hc', hne⟩ := h
  obtain rfl := eq_of_utf8EncodeChar_isPrefix (hc.trans hc')
  exact hne (hc'.eq_of_length_le hc.length_le)

theorem Fault.not_isPrefix (h : Fault rest refused) (c : Char) :
    ¬ String.utf8EncodeChar c <+: rest := by
  intro hc
  cases h with
  | incomplete hne hbegun => exact hbegun.not_isPrefix c hc
  | @broken begun after b hbegun hbroken =>
      have hread : begun ++ [b] <+: begun ++ b :: after := by simp
      rcases List.prefix_or_prefix_of_prefix hc hread with hshort | hlong
      · rcases List.prefix_concat_iff.mp hshort with hall | hbefore
        · exact hbroken c (hall ▸ List.prefix_rfl)
        · exact hbegun.not_isPrefix c hbefore
      · exact hbroken c hlong

/-- A byte that breaks off a character cannot belong to one that has begun. -/
theorem Begun.length_le {begun after : List UInt8} {b : UInt8} (h : Begun bytes)
    (hbroken : ∀ c, ¬ begun ++ [b] <+: String.utf8EncodeChar c)
    (hfront : bytes <+: begun ++ b :: after) : bytes.length ≤ begun.length := by
  by_contra hlong
  obtain ⟨c, hc, -⟩ := h
  have hread : begun ++ [b] <+: begun ++ b :: after := by simp
  refine hbroken c ((List.prefix_of_prefix_length_le hread hfront ?_).trans hc)
  rw [List.length_append, List.length_singleton]
  omega

theorem Fault.unique {refused' : Option Nat} (h : Fault rest refused)
    (h' : Fault rest refused') : refused = refused' := by
  cases h with
  | incomplete _ hbegun =>
      cases h' with
      | incomplete => rfl
      | broken _ hbroken =>
          have hle := hbegun.length_le hbroken List.prefix_rfl
          simp at hle
  | @broken begun after b hbegun hbroken =>
      generalize hrest : begun ++ b :: after = rest at h'
      cases h' with
      | incomplete _ hbegun' =>
          subst hrest
          have hle := hbegun'.length_le hbroken List.prefix_rfl
          simp at hle
      | @broken begun' after' b' hbegun' hbroken' =>
          have hle := hbegun.length_le hbroken'
              (hrest ▸ List.prefix_append begun (b :: after))
          have hge := hbegun'.length_le hbroken
              (hrest ▸ List.prefix_append begun' (b' :: after'))
          rw [Nat.le_antisymm hle hge]

theorem Fault.malformed (h : Fault rest refused) :
    Malformed rest ⟨0, refused⟩ where
  wellFormed := wellFormed_iff.mpr ⟨[], rfl⟩
  longest := by
    intro front hfront hformed
    obtain ⟨cs, rfl⟩ := wellFormed_iff.mp hformed
    cases cs with
    | nil => exact Nat.le_refl 0
    | cons c cs =>
        exact absurd ((List.prefix_append _ _).trans hfront) (h.not_isPrefix c)
  fault := h

/-- A character before the bytes moves the fault by its size. -/
theorem Malformed.cons {n : Nat} (h : Malformed rest ⟨n, refused⟩) (c : Char) :
    Malformed (String.utf8EncodeChar c ++ rest) ⟨c.utf8Size + n, refused⟩ where
  wellFormed := by
    obtain ⟨cs, hcs⟩ := wellFormed_iff.mp h.wellFormed
    refine wellFormed_iff.mpr ⟨c :: cs, ?_⟩
    rw [List.flatMap_cons, hcs, ← String.length_utf8EncodeChar,
      List.take_length_add_append]
  longest := by
    intro front hfront hformed
    obtain ⟨cs, rfl⟩ := wellFormed_iff.mp hformed
    cases cs with
    | nil => exact Nat.zero_le _
    | cons c' cs =>
        rw [List.flatMap_cons] at hfront ⊢
        -- Both characters stand at the beginning, so one of them begins with
        -- the other.
        obtain rfl : c' = c := by
          have hc' := (List.prefix_append _ _).trans hfront
          have hc : String.utf8EncodeChar c <+:
              String.utf8EncodeChar c ++ rest :=
            List.prefix_append _ _
          rcases List.prefix_or_prefix_of_prefix hc' hc with h | h
          · exact eq_of_utf8EncodeChar_isPrefix h
          · exact (eq_of_utf8EncodeChar_isPrefix h).symm
        have hrest := (List.prefix_append_right_inj _).mp hfront
        rw [List.length_append, String.length_utf8EncodeChar]
        exact Nat.add_le_add_left
          (h.longest _ hrest (wellFormed_iff.mpr ⟨cs, rfl⟩)) _
  fault := by
    rw [← String.length_utf8EncodeChar, List.drop_length_add_append]
    exact h.fault

theorem Malformed.not_wellFormed (h : Malformed bytes m) :
    ¬ WellFormed bytes := by
  intro hformed
  have hle := h.longest bytes List.prefix_rfl hformed
  exact h.fault.ne_nil (List.drop_eq_nil_of_le hle)

theorem Malformed.unique {m' : Malformation} (h : Malformed bytes m)
    (h' : Malformed bytes m') : m = m' := by
  have hlength {m : Malformation} (h : Malformed bytes m) :
      (bytes.take m.validUpTo).length = m.validUpTo := by
    rw [List.length_take, Nat.min_eq_left]
    by_contra hlong
    exact h.fault.ne_nil (List.drop_eq_nil_of_le (by omega))
  have hle := h'.longest _ (List.take_prefix _ _) h.wellFormed
  have hge := h.longest _ (List.take_prefix _ _) h'.wellFormed
  rw [hlength h] at hle
  rw [hlength h'] at hge
  obtain ⟨validUpTo, refused⟩ := m
  obtain ⟨validUpTo', refused'⟩ := m'
  obtain rfl : validUpTo = validUpTo' := Nat.le_antisymm hle hge
  obtain rfl : refused = refused' := h.fault.unique h'.fault
  rfl

/-! ## The run of the decoder -/

/-- Bytes that begin and do not end a character are kept open. -/
theorem begun_iff :
    Begun bytes ↔
      bytes = [] ∨ ∃ o, Opening.ofBytes? bytes = some o ∧ o.owed ≠ [] := by
  rcases eq_or_ne bytes [] with rfl | hne
  · exact iff_of_true ⟨'a', List.nil_prefix, by decide⟩ (.inl rfl)
  rw [or_iff_right hne]
  constructor
  · rintro ⟨c, ⟨after, hafter⟩, hpart⟩
    obtain ⟨o, ho⟩ := Option.isSome_iff_exists.mp
      ((Opening.isSome_ofBytes?_iff hne).mpr ⟨c, after, hafter⟩)
    refine ⟨o, ho, ?_⟩
    intro howed
    have hread := Opening.ofBytes?_utf8EncodeChar c
    rw [← hafter, Opening.ofBytes?_append hne, ho, Option.bind_some] at hread
    cases after with
    | nil => exact hpart (by rw [← hafter, List.append_nil])
    | cons b after =>
        rw [List.foldlM_cons, Opening.push?, howed] at hread
        cases hread
  · rintro ⟨o, ho, howed⟩
    obtain ⟨c, hc⟩ :=
      (Opening.isSome_ofBytes?_iff hne).mp (Option.isSome_of_eq_some ho)
    refine ⟨c, hc, ?_⟩
    rintro rfl
    rw [Opening.ofBytes?_utf8EncodeChar] at ho
    cases ho
    exact howed rfl

/-- The decoder reads one more byte of a character that has begun, or of the
next one. -/
theorem decodeFrom_cons {begun : List UInt8} {b : UInt8}
    (hbegun : Begun begun) :
    decodeFrom start (Opening.ofBytes? begun) (b :: rest) =
      match Opening.ofBytes? (begun ++ [b]) with
      | none => .error ⟨start, some (max 1 begun.length)⟩
      | some o =>
        if o.owed.isEmpty then
          (decodeFrom (start + o.length) none rest).map
            (Char.ofNat o.payload :: ·)
        else decodeFrom start (some o) rest := by
  rcases begun_iff.mp hbegun with rfl | ⟨o, ho, -⟩
  · have hnext : Opening.ofBytes? ([] ++ [b]) = Opening.ofByte? b := by
      simp [Opening.ofBytes?]
    rw [hnext, Opening.ofBytes?]
    simp only [decodeFrom]
    cases Opening.ofByte? b with
    | none => rfl
    | some o =>
        dsimp only
        cases decodeFrom (start + o.length) none rest <;> rfl
  · have hne : begun ≠ [] := by
      rintro rfl
      cases ho
    have hnext : Opening.ofBytes? (begun ++ [b]) = o.push? b := by
      rw [Opening.ofBytes?_append hne, ho]
      simp
    have hlength : max 1 begun.length = o.length := by
      have hpos := List.length_pos_iff.mpr hne
      rw [Opening.length_of_ofBytes? ho]
      omega
    rw [hnext, ho, hlength]
    simp only [decodeFrom]
    cases o.push? b with
    | none => rfl
    | some o =>
        dsimp only
        cases decodeFrom (start + o.length) none rest <;> rfl

/-- Bytes are read as characters, one by one up to their end or up to a
fault. -/
inductive Reads : Nat → List UInt8 → Except Malformation (List Char) → Prop
  | done (start : Nat) : Reads start [] (.ok [])
  | fault {start : Nat} {rest : List UInt8} {refused : Option Nat}
      (h : Fault rest refused) :
      Reads start rest (.error ⟨start, refused⟩)
  | char {start : Nat} {c : Char} {rest : List UInt8}
      {result : Except Malformation (List Char)}
      (h : Reads (start + c.utf8Size) rest result) :
      Reads start (String.utf8EncodeChar c ++ rest) (result.map (c :: ·))

/-- The decoder reads the bytes, those of a character that has begun
included. -/
theorem reads_decodeFrom {begun : List UInt8} (hbegun : Begun begun) :
    Reads start (begun ++ bytes)
      (decodeFrom start (Opening.ofBytes? begun) bytes) := by
  induction bytes generalizing begun start with
  | nil =>
      rw [List.append_nil]
      rcases begun_iff.mp hbegun with rfl | ⟨o, ho, -⟩
      · exact .done start
      · rw [ho]
        refine .fault (.incomplete ?_ hbegun)
        rintro rfl
        cases ho
  | cons b bytes ih =>
      have happend : begun ++ b :: bytes = begun ++ [b] ++ bytes := by simp
      rw [decodeFrom_cons hbegun]
      rcases hread :
        Opening.ofBytes? (begun ++ [b]) with _ | ⟨v, length, _ | ⟨range, more⟩⟩
      · refine .fault (.broken hbegun ?_)
        rw [← not_exists, ← Opening.isSome_ofBytes?_iff (by simp), hread]
        decide
      · have hchar := Opening.utf8EncodeChar_of_ofBytes? hread
        have hsize : length = (Char.ofNat v).utf8Size := by
          rw [← String.length_utf8EncodeChar, hchar]
          exact Opening.length_of_ofBytes? hread
        rw [happend, ← hchar, hsize]
        exact (ih (begun_iff.mpr (.inl rfl))).char
      · rw [happend]
        have hopen : Begun (begun ++ [b]) :=
          begun_iff.mpr (.inr ⟨_, hread, List.cons_ne_nil range more⟩)
        have hreads : Reads start (begun ++ [b] ++ bytes) _ := ih hopen
        rwa [hread] at hreads

theorem Reads.flatMap_eq (h : Reads start bytes result) :
    ∀ cs, result = .ok cs → cs.flatMap String.utf8EncodeChar = bytes := by
  induction h with
  | done =>
      rintro _ ⟨⟩
      rfl
  | fault => exact nofun
  | @char _ c _ result _ ih =>
      intro cs hcs
      cases result with
      | error => cases hcs
      | ok cs' =>
          cases hcs
          rw [List.flatMap_cons, ih cs' rfl]

theorem Reads.malformed (h : Reads start bytes result) :
    ∀ m, result = .error m → ∃ n, m.validUpTo = start + n ∧
      Malformed bytes ⟨n, m.refused⟩ := by
  induction h with
  | done => exact nofun
  | fault hfault =>
      rintro _ ⟨⟩
      exact ⟨0, rfl, hfault.malformed⟩
  | @char _ c _ result _ ih =>
      intro m hm
      cases result with
      | ok => cases hm
      | error =>
          cases hm
          obtain ⟨n, hn, hmalformed⟩ := ih m rfl
          exact ⟨_, hn.trans (Nat.add_assoc _ _ _), hmalformed.cons c⟩

/-! ## Texts -/

/-- Decoding gives the text of the bytes, or says where their longest
well-formed beginning ends. -/
theorem decode_spec (bytes : List UInt8) :
    (∃ text, decode bytes = .ok text ∧ utf8Bytes text = bytes) ∨
      ∃ m, decode bytes = .error m ∧ Malformed bytes m := by
  have hreads : Reads 0 bytes (decodeFrom 0 none bytes) :=
    reads_decodeFrom (begun_iff.mpr (.inl rfl))
  rw [decode]
  cases hresult : decodeFrom 0 none bytes with
  | ok cs =>
      refine .inl ⟨_, rfl, ?_⟩
      rw [utf8Bytes_eq, String.toList_ofList]
      exact hreads.flatMap_eq cs hresult
  | error m =>
      obtain ⟨n, hn, hmalformed⟩ := hreads.malformed m hresult
      rw [Nat.zero_add] at hn
      subst hn
      exact .inr ⟨m, rfl, hmalformed⟩

theorem decode_eq_ok_iff {text : String} :
    decode bytes = .ok text ↔ utf8Bytes text = bytes := by
  rcases decode_spec bytes with ⟨text', htext, hbytes⟩ | ⟨m, hm, hmalformed⟩
  · rw [htext, Except.ok.injEq, ← hbytes, utf8Bytes_injective.eq_iff, eq_comm]
  · rw [hm]
    exact iff_of_false nofun fun hbytes =>
      hmalformed.not_wellFormed ⟨text, hbytes⟩

theorem decode_eq_error_iff : decode bytes = .error m ↔ Malformed bytes m := by
  rcases decode_spec bytes with ⟨text, htext, hbytes⟩ | ⟨m', hm', hmalformed⟩
  · rw [htext]
    exact iff_of_false nofun fun hmalformed =>
      hmalformed.not_wellFormed ⟨text, hbytes⟩
  · rw [hm', Except.error.injEq]
    constructor
    · rintro rfl
      exact hmalformed
    · exact hmalformed.unique

/-- The euro sign is followed by two of the three bytes of a surrogate. -/
example : decode [0xE2, 0x82, 0xAC, 0xED, 0xA0] = .error ⟨3, some 1⟩ := by
      decide

end Utf8
end ColumnBridge
